import MandatedVaultFactory.AmountTextProofs
import MandatedVaultFactory.TradeServiceProofs

/-!
# Withdrawals

`FundingService.withdraw`: which asset, how much of it and to whom is given as text, or all that
can be withdrawn is; the wallet's balances decide whether a transfer is started.

* **`withdraw`** — the code, with the transfers that it starts.
* **`Allowed`** — the amounts that the balances allow; **`withdraw_of_amount`**: these are
  transferred and all others are refused.
* **`withinLimits_iff`** — when withdrawals stay within their limits and refuse in the right way. -/

namespace Withdrawals

open Texts Decimals Rounding Amounts

/-! ## What a withdrawal works with -/

inductive Asset where
  | bnb | usdt
deriving DecidableEq

def Asset.key : Asset → Text
  | .bnb => ['b', 'n', 'b']
  | .usdt => ['u', 's', 'd', 't']

/-- `asset_key in TOKEN_DECIMALS`. -/
def assetOf (key : Text) : Option Asset :=
  if key = Asset.usdt.key then some .usdt else if key = Asset.bnb.key then some .bnb else none

/-- `TOKEN_DECIMALS`. -/
def tokenDecimals : Asset → Nat
  | .usdt => 18
  | .bnb => 18

/-- `MIN_GAS_HEADROOM_WEI`. -/
def minGasHeadroomWei : ℤ := 100000000000000

structure Transfer where
  asset : Asset
  destination : Text
  amountWei : ℤ
deriving DecidableEq

/-- What the wallet of the SDK has been set up with. -/
structure PredictSdkWallet where
  /-- `sdk.mode.value == "predict-account"`. -/
  predictAccount : Bool
  contracts : Bool
  /-- Its web3, its account and the mode it executes in. -/
  kernel : Bool
  /-- Its web3, its signer and its private key. -/
  signer : Bool

inductive Sdk where
  | withMethods (transferUsdt transferBnb : Bool)
  | fixture
  | predict (wallet : PredictSdkWallet)

structure Wallet where
  mode : Predict.WalletMode
  authSignerAddress : Option Text
  sdk : Sdk
  bnbBalanceWei : ℤ
  usdtBalanceWei : ℤ

/-- Why a withdrawal raises: by itself or by the function that parses amounts, or in a transfer
    that has been started. -/
inductive Failure where
  | raised (failure : Amounts.Failure)
  | inTransfer

/-- `str.lower`, of which the letters of the assets are known. -/
structure LowerCase where
  lower : Text → Text
  ascii : ∀ t, (∀ c ∈ t, c.toNat < 128) → lower t = Texts.lower t
  foreign : ∀ t asset, (∃ c ∈ t, 128 ≤ c.toNat) → lower t ≠ Asset.key asset

/-- What is not of this repository: the letters and digits of Unicode, the checksums of addresses,
    and what comes of a transfer. -/
structure Surroundings (Result : Type) where
  digits : UnicodeDigits
  lowerCase : LowerCase
  isChecksumAddress : Text → Bool
  toChecksumAddress : Text → Text
  checksum : ∀ address, isChecksumAddress address = true → toChecksumAddress address = address
  send : Transfer → Except Unit Result
  fixtureResult : Asset → Result

structure WithdrawalResult (Result : Type) where
  asset : Asset
  amountWei : ℤ
  destination : Text
  result : Result

/-- The outcome, and the transfers that were started. -/
abbrev Run (α : Type) : Type := Except Failure α × List Transfer

def refuse {α : Type} (message : String) : Run α := (.error (.raised (.configError message.toList)), [])

variable {Result : Type}

/-! ## The code -/

/-- A transfer is started. -/
def start (env : Surroundings Result) (transfer : Transfer) : Run Result :=
  ((env.send transfer).mapError fun _ => Failure.inTransfer, [transfer])

/-- `_transfer_usdt`. -/
def transferUsdt (env : Surroundings Result) (sdk : Sdk) (destination : Text) (amountWei : ℤ) :
    Run Result :=
  match sdk with
  | .withMethods true _ => start env ⟨.usdt, destination, amountWei⟩
  | .withMethods false _ => refuse "Wallet SDK does not support USDT withdrawals."
  | .fixture => (.ok (env.fixtureResult .usdt), [⟨.usdt, destination, amountWei⟩])
  | .predict wallet =>
      if ¬ wallet.contracts then
        refuse "USDT withdrawal requires initialized predict.fun contracts."
      else if wallet.predictAccount then
        if ¬ wallet.kernel then
          refuse "Predict Account withdrawal requires initialized Kernel execution state."
        else start env ⟨.usdt, env.toChecksumAddress destination, amountWei⟩
      else start env ⟨.usdt, env.toChecksumAddress destination, amountWei⟩

/-- `_transfer_bnb`. -/
def transferBnb (env : Surroundings Result) (sdk : Sdk) (destination : Text) (amountWei : ℤ) :
    Run Result :=
  match sdk with
  | .withMethods _ true => start env ⟨.bnb, destination, amountWei⟩
  | .withMethods _ false => refuse "Wallet SDK does not support BNB withdrawals."
  | .fixture => (.ok (env.fixtureResult .bnb), [⟨.bnb, destination, amountWei⟩])
  | .predict wallet =>
      if wallet.predictAccount then
        if ¬ wallet.kernel then
          refuse "Predict Account withdrawal requires initialized Kernel execution state."
        else start env ⟨.bnb, env.toChecksumAddress destination, amountWei⟩
      else if ¬ wallet.signer then
        refuse "EOA BNB withdrawal requires initialized signer state."
      else start env ⟨.bnb, env.toChecksumAddress destination, amountWei⟩

/-- The amount: all that there is, or what the text says. -/
def amountOf (env : Surroundings Result) (w : Wallet) (asset : Asset) (amount : Text)
    (withdrawAll : Bool) : Except Amounts.Failure ℤ :=
  if withdrawAll then
    .ok (match asset with
      | .usdt => w.usdtBalanceWei
      | .bnb => max (w.bnbBalanceWei - minGasHeadroomWei) 0)
  else
    FundingService.parseAmountToWei (some libraryBounds) env.digits amount (tokenDecimals asset)

/-- `withdraw` from where the amount is known. -/
def transferAmount (env : Surroundings Result) (w : Wallet) (asset : Asset) (destination : Text)
    (amountWei : ℤ) : Run Result :=
  if amountWei ≤ 0 then refuse "Withdrawal amount must be greater than zero."
  else if w.bnbBalanceWei ≤ minGasHeadroomWei then
    refuse "Insufficient BNB gas headroom for withdrawal."
  else
    match asset with
    | .usdt =>
        if w.usdtBalanceWei < amountWei then refuse "Insufficient USDT balance for withdrawal."
        else transferUsdt env w.sdk destination amountWei
    | .bnb =>
        if w.bnbBalanceWei - minGasHeadroomWei < amountWei then
          refuse "Insufficient BNB balance after reserving gas headroom."
        else transferBnb env w.sdk destination amountWei

/-- `FundingService.withdraw`. -/
def withdraw (env : Surroundings Result) (w : Wallet) (asset amount destination : Text)
    (withdrawAll : Bool) : Run (WithdrawalResult Result) :=
  if w.mode = .mandatedVault then
    refuse "wallet withdraw: unsupported-in-mandated-vault-v1. mandated-vault v1 currently covers protected funding/control-plane operations and does not provide predict.fun trading parity."
  else if w.authSignerAddress = none then
    refuse "Wallet actions require signer configuration. Set PREDICT_PRIVATE_KEY or both PREDICT_ACCOUNT_ADDRESS and PREDICT_PRIVY_PRIVATE_KEY."
  else
    match assetOf (env.lowerCase.lower asset) with
    | none => refuse "Withdraw only supports BNB and USDT."
    | some token =>
        if ¬ env.isChecksumAddress destination then
          refuse "Destination address must be a checksum address."
        else
          match amountOf env w token amount withdrawAll with
          | .error failure => (.error (.raised failure), [])
          | .ok amountWei =>
              let run := transferAmount env w token destination amountWei
              (run.1.map fun result => { asset := token, amountWei, destination, result }, run.2)

/-! ## The limits -/

/-- The wallet of the SDK is set up for transfers of both assets. -/
def Sdk.Supports : Sdk → Prop
  | .withMethods transferUsdt transferBnb => transferUsdt = true ∧ transferBnb = true
  | .fixture => True
  | .predict wallet =>
      wallet.contracts = true
        ∧ if wallet.predictAccount then wallet.kernel = true else wallet.signer = true

/-- A wallet that can transfer. -/
structure Wallet.Supports (w : Wallet) : Prop where
  mode : w.mode ≠ .mandatedVault
  signer : w.authSignerAddress ≠ none
  sdk : w.sdk.Supports

/-- The amounts that may leave: there is that much of the asset, and enough BNB stays for gas. -/
def Allowed (w : Wallet) : Asset → ℤ → Prop
  | .bnb, n => 0 < n ∧ n ≤ w.bnbBalanceWei ∧ minGasHeadroomWei ≤ w.bnbBalanceWei - n
  | .usdt, n => 0 < n ∧ n ≤ w.usdtBalanceWei ∧ minGasHeadroomWei < w.bnbBalanceWei

/-- The name of an asset in letters of any case. -/
def Names (asset : Text) (token : Asset) : Prop := Texts.lower asset = token.key

/-- A letter that is not ASCII keeps its place, and is none of an asset's name. -/
theorem not_names_of_foreign {asset : Text} (h : ∃ c ∈ asset, 128 ≤ c.toNat) (token : Asset) :
    ¬ Names asset token := by
  obtain ⟨c, hc, hforeign⟩ := h
  intro hnames
  have hsame : c.toLower = c := by
    delta Char.toLower
    refine dif_neg fun hupper => ?_
    have hhigh := UInt32.le_iff_toNat_le.mp hupper.2
    have hbound : c.toNat ≤ 90 := hhigh
    omega
  have hmem : c ∈ token.key := by
    rw [← hnames, Texts.lower]
    exact List.mem_map.mpr ⟨c, hc, hsame⟩
  have hletters : token.key.all (fun d => d.toNat < 128) = true := by
    cases token with
    | bnb => rfl
    | usdt => rfl
  have hascii : c.toNat < 128 := of_decide_eq_true (List.all_eq_true.mp hletters c hmem)
  omega

theorem lower_eq_iff (l : LowerCase) (asset : Text) (token : Asset) :
    l.lower asset = token.key ↔ Names asset token := by
  by_cases hascii : ∀ c ∈ asset, c.toNat < 128
  · rw [l.ascii asset hascii, Names]
  · push Not at hascii
    constructor
    · exact fun h => absurd h (l.foreign asset token hascii)
    · exact fun h => absurd h (not_names_of_foreign hascii token)

theorem assetOf_eq_some_iff (key : Text) (token : Asset) :
    assetOf key = some token ↔ key = token.key := by
  rw [assetOf]
  by_cases husdt : key = Asset.usdt.key
  · rw [if_pos husdt, husdt]
    cases token <;> decide
  rw [if_neg husdt]
  by_cases hbnb : key = Asset.bnb.key
  · rw [if_pos hbnb, hbnb]
    cases token <;> decide
  rw [if_neg hbnb]
  constructor
  · intro h
    cases h
  · intro h
    cases token with
    | bnb => exact absurd h hbnb
    | usdt => exact absurd h husdt

/-- A wallet that supports transfers starts the one that is asked for. -/
theorem transfers_of_supports (env : Surroundings Result) {sdk : Sdk} (h : sdk.Supports)
    {destination : Text} (hdestination : env.isChecksumAddress destination = true)
    (amountWei : ℤ) :
    (transferUsdt env sdk destination amountWei).2 = [⟨.usdt, destination, amountWei⟩]
      ∧ (transferBnb env sdk destination amountWei).2 = [⟨.bnb, destination, amountWei⟩] := by
  have hsame := env.checksum destination hdestination
  cases sdk with
  | withMethods usdt bnb =>
      obtain ⟨rfl, rfl⟩ := h
      exact ⟨rfl, rfl⟩
  | fixture => exact ⟨rfl, rfl⟩
  | predict wallet =>
      obtain ⟨hcontracts, hstate⟩ := h
      rw [transferUsdt, transferBnb, hsame, if_neg (not_not.mpr hcontracts)]
      cases hmode : wallet.predictAccount with
      | true =>
          rw [hmode, if_pos rfl] at hstate
          rw [if_pos rfl, if_pos rfl, if_neg (not_not.mpr hstate), if_neg (not_not.mpr hstate)]
          exact ⟨rfl, rfl⟩
      | false =>
          rw [hmode, if_neg Bool.false_ne_true] at hstate
          rw [if_neg Bool.false_ne_true, if_neg Bool.false_ne_true, if_neg (not_not.mpr hstate)]
          exact ⟨rfl, rfl⟩

/-- **The amounts that are allowed are transferred**, and no others. -/
theorem transferAmount_spec (env : Surroundings Result) {w : Wallet} (h : w.sdk.Supports)
    {destination : Text} (hdestination : env.isChecksumAddress destination = true) (token : Asset)
    (n : ℤ) :
    (Allowed w token n → (transferAmount env w token destination n).2 = [⟨token, destination, n⟩])
      ∧ (¬ Allowed w token n →
        ∃ message, transferAmount env w token destination n = refuse message) := by
  obtain ⟨husdt, hbnb⟩ := transfers_of_supports env h hdestination n
  unfold transferAmount
  by_cases hpos : n ≤ 0
  · rw [if_pos hpos]
    refine ⟨fun hallowed => ?_, fun _ => ⟨_, rfl⟩⟩
    cases token <;> exact absurd hallowed.1 (by omega)
  rw [if_neg hpos]
  by_cases hgas : w.bnbBalanceWei ≤ minGasHeadroomWei
  · rw [if_pos hgas]
    refine ⟨fun hallowed => ?_, fun _ => ⟨_, rfl⟩⟩
    cases token with
    | bnb => exact absurd hallowed.2.2 (by omega)
    | usdt => exact absurd hallowed.2.2 (by omega)
  rw [if_neg hgas]
  cases token with
  | usdt =>
      show (_ → (if w.usdtBalanceWei < n then refuse "Insufficient USDT balance for withdrawal."
        else transferUsdt env w.sdk destination n).2 = _) ∧ (_ → ∃ message,
          (if w.usdtBalanceWei < n then refuse "Insufficient USDT balance for withdrawal."
            else transferUsdt env w.sdk destination n) = refuse message)
      by_cases hbalance : w.usdtBalanceWei < n
      · rw [if_pos hbalance]
        exact ⟨fun hallowed => absurd hallowed.2.1 (by omega), fun _ => ⟨_, rfl⟩⟩
      · rw [if_neg hbalance]
        refine ⟨fun _ => husdt, fun hnot => absurd ?_ hnot⟩
        exact ⟨by omega, by omega, by omega⟩
  | bnb =>
      show (_ → (if w.bnbBalanceWei - minGasHeadroomWei < n then
          refuse "Insufficient BNB balance after reserving gas headroom."
        else transferBnb env w.sdk destination n).2 = _) ∧ (_ → ∃ message,
          (if w.bnbBalanceWei - minGasHeadroomWei < n then
            refuse "Insufficient BNB balance after reserving gas headroom."
            else transferBnb env w.sdk destination n) = refuse message)
      have hheadroom : 0 < minGasHeadroomWei := by decide
      by_cases hbalance : w.bnbBalanceWei - minGasHeadroomWei < n
      · rw [if_pos hbalance]
        exact ⟨fun hallowed => absurd hallowed.2.2 (by omega), fun _ => ⟨_, rfl⟩⟩
      · rw [if_neg hbalance]
        refine ⟨fun _ => hbnb, fun hnot => absurd ?_ hnot⟩
        exact ⟨by omega, by omega, by omega⟩

/-- A withdrawal with an asset, a destination and an amount. -/
theorem withdraw_of_amount (env : Surroundings Result) {w : Wallet} (h : w.Supports)
    {asset amount destination : Text} {withdrawAll : Bool} {token : Asset}
    (hasset : Names asset token) (hdestination : env.isChecksumAddress destination = true) {n : ℤ}
    (hn : amountOf env w token amount withdrawAll = .ok n) :
    (Allowed w token n →
        (withdraw env w asset amount destination withdrawAll).2 = [⟨token, destination, n⟩])
      ∧ (¬ Allowed w token n →
        ∃ message, withdraw env w asset amount destination withdrawAll = refuse message) := by
  obtain ⟨hallowed, hrefused⟩ := transferAmount_spec env h.sdk hdestination token n
  have hkey := (assetOf_eq_some_iff _ _).mpr ((lower_eq_iff env.lowerCase asset token).mpr hasset)
  rw [withdraw, if_neg h.mode, if_neg h.signer, hkey]
  simp only [hdestination, hn, not_true_eq_false, if_false]
  refine ⟨hallowed, fun hnot => ?_⟩
  obtain ⟨message, hmessage⟩ := hrefused hnot
  exact ⟨message, by rw [hmessage]; rfl⟩

/-- Without an amount the failure is passed on. -/
theorem withdraw_of_failure (env : Surroundings Result) {w : Wallet} (h : w.Supports)
    {asset amount destination : Text} {withdrawAll : Bool} {token : Asset}
    (hasset : Names asset token) (hdestination : env.isChecksumAddress destination = true)
    {failure : Amounts.Failure}
    (hfailure : amountOf env w token amount withdrawAll = .error failure) :
    withdraw env w asset amount destination withdrawAll = (.error (.raised failure), []) := by
  have hkey := (assetOf_eq_some_iff _ _).mpr ((lower_eq_iff env.lowerCase asset token).mpr hasset)
  rw [withdraw, if_neg h.mode, if_neg h.signer, hkey]
  simp only [hdestination, hfailure, not_true_eq_false, if_false]

/-- Without an asset or a destination it is refused. -/
theorem withdraw_refuses (env : Surroundings Result) (w : Wallet) {asset destination : Text}
    (amount : Text) (withdrawAll : Bool)
    (h : (∀ token, ¬ Names asset token) ∨ env.isChecksumAddress destination = false) :
    ∃ message, withdraw env w asset amount destination withdrawAll = refuse message := by
  rw [withdraw]
  by_cases hmode : w.mode = .mandatedVault
  · exact ⟨_, if_pos hmode⟩
  rw [if_neg hmode]
  by_cases hsigner : w.authSignerAddress = none
  · exact ⟨_, if_pos hsigner⟩
  rw [if_neg hsigner]
  cases hkey : assetOf (env.lowerCase.lower asset) with
  | none => exact ⟨_, rfl⟩
  | some token =>
      have hasset := (lower_eq_iff env.lowerCase asset token).mp ((assetOf_eq_some_iff _ _).mp hkey)
      rcases h with h | h
      · exact absurd hasset (h token)
      · simp only [h, Bool.false_eq_true, not_false_eq_true, if_true]
        exact ⟨_, rfl⟩

/-- What a withdrawal may do: start one transfer at most, of an amount that is allowed and to the
    destination it was given; or else raise `ConfigError` of its own.  All that is allowed at most
    goes where all is asked for, and what the text says where it is allowed. -/
structure WithinLimits (env : Surroundings Result) (w : Wallet) (asset amount destination : Text)
    (withdrawAll : Bool) : Prop where
  started : ∀ transfer ∈ (withdraw env w asset amount destination withdrawAll).2,
    (withdraw env w asset amount destination withdrawAll).2 = [transfer]
      ∧ Names asset transfer.asset ∧ env.isChecksumAddress destination = true
      ∧ transfer.destination = destination ∧ Allowed w transfer.asset transfer.amountWei
  refused : (withdraw env w asset amount destination withdrawAll).2 = [] →
    ∃ message,
      (withdraw env w asset amount destination withdrawAll).1
        = .error (.raised (.configError message))
  all : withdrawAll = true → ∀ token, Names asset token → env.isChecksumAddress destination = true →
    (∃ n, Allowed w token n) →
    ∃ n, (withdraw env w asset amount destination withdrawAll).2 = [⟨token, destination, n⟩]
      ∧ ∀ m, Allowed w token m → m ≤ n
  parsed : withdrawAll = false → ∀ token, Names asset token →
    env.isChecksumAddress destination = true →
    ∀ n, (withdraw env w asset amount destination withdrawAll).2 = [⟨token, destination, n⟩]
      ↔ FundingService.parseAmountToWei (some libraryBounds) env.digits amount
          (tokenDecimals token) = .ok n
        ∧ Allowed w token n

/-- More wei than a product in the default context can be. -/
def TooLarge (wei : ℚ) : Prop :=
  ((10 : ℚ) ^ defaultContext.prec - 1 / 2) * 10 ^ (defaultContext.emax + 1 - defaultContext.prec)
    ≤ wei

/-- The text of a finite number is parsed, but for a product that overflows and for a number that
    has no room. -/
theorem parse_cases {digits : UnicodeDigits} {t : Text} {n : Numeral}
    (hwrites : Writes digits t n.text) (token : Asset) :
    (TooLarge (n.value * 10 ^ 18) ∧ Within (some libraryBounds) n.coefficient n.exponent
      → FundingService.parseAmountToWei (some libraryBounds) digits t (tokenDecimals token)
        = .error (.signal .overflow))
    ∧ (¬ Within (some libraryBounds) n.coefficient n.exponent
      → ∃ message, FundingService.parseAmountToWei (some libraryBounds) digits t
        (tokenDecimals token) = .error (.configError message))
    ∧ (¬ TooLarge (n.value * 10 ^ 18) ∧ Within (some libraryBounds) n.coefficient n.exponent
      → ∃ m, FundingService.parseAmountToWei (some libraryBounds) digits t (tokenDecimals token)
        = .ok m) := by
  have hdecimals : tokenDecimals token = 18 := by cases token <;> rfl
  rw [hdecimals, FundingService.parseAmountToWei]
  by_cases hwithin : Within (some libraryBounds) n.coefficient n.exponent
  swap
  · have hbeyond := parseAmount_beyond "Withdrawal amount must be numeric.".toList hwrites hwithin 18
    exact ⟨fun h => absurd h.2 hwithin, fun _ => ⟨_, hbeyond⟩, fun h => absurd h.2 hwithin⟩
  by_cases hpos : 0 < n.value
  · have hne : n.coefficient * 10 ^ 18 ≠ 0 :=
      mul_ne_zero ((value_pos_iff n).mp hpos).2 (by norm_num)
    have hiff := overflows_iff defaultContext (by decide) false hne n.exponent
    obtain ⟨k, _, hresult⟩ := finalize_spec defaultContext false hne n.exponent
    rw [wei_eq hpos] at hiff
    rw [parseAmount_positive _ hwrites hwithin hpos]
    refine ⟨fun hlarge => ?_, fun hbeyond => absurd hwithin hbeyond, fun hfits => ?_⟩
    · rw [hiff.mpr hlarge.1]
    · split_ifs at hresult with hbig
      · exact absurd (hiff.mp hresult) hfits.1
      · obtain ⟨c, e, hok, _⟩ := hresult
        refine ⟨⌊magnitude c e⌋, ?_⟩
        rw [hok]
        show (toInt (.finite false c e)).mapError Amounts.Failure.int = _
        rw [toInt_finite]
        rfl
  · have hzero := parseAmount_notPositive "Withdrawal amount must be numeric.".toList hwrites
      hwithin (not_lt.mp hpos) 18
    rw [hzero]
    refine ⟨fun hlarge => absurd ?_ hpos, fun hbeyond => absurd hwithin hbeyond,
      fun _ => ⟨0, rfl⟩⟩
    -- the bound is positive
    have hbound : (0 : ℚ) < ((10 : ℚ) ^ defaultContext.prec - 1 / 2)
        * 10 ^ (defaultContext.emax + 1 - defaultContext.prec) := by
      refine mul_pos ?_ (zpow_pos (by norm_num) _)
      rw [show defaultContext.prec = 28 from rfl]
      norm_num
    have hwei : 0 < n.value * 10 ^ 18 := hbound.trans_le hlarge.1
    exact pos_of_mul_pos_left hwei (by positivity)

/-- All that can leave is the most that is allowed, where anything is. -/
theorem all_is_most (env : Surroundings Result) {w : Wallet} {token : Asset} (amount : Text)
    (h : ∃ n, Allowed w token n) :
    ∃ n, amountOf env w token amount true = .ok n ∧ Allowed w token n
      ∧ ∀ m, Allowed w token m → m ≤ n := by
  obtain ⟨k, hk⟩ := h
  cases token with
  | usdt =>
      obtain ⟨hpos, hle, hgas⟩ := hk
      exact ⟨w.usdtBalanceWei, rfl, ⟨by omega, le_refl _, hgas⟩, fun m hm => hm.2.1⟩
  | bnb =>
      obtain ⟨hpos, hle, hgas⟩ := hk
      have hheadroom : 0 < minGasHeadroomWei := by decide
      have hmax : max (w.bnbBalanceWei - minGasHeadroomWei) 0
          = w.bnbBalanceWei - minGasHeadroomWei := max_eq_left (by omega)
      refine ⟨w.bnbBalanceWei - minGasHeadroomWei, congrArg Except.ok hmax, ?_, ?_⟩
      · exact ⟨by omega, by omega, by omega⟩
      · intro m hm
        have hroom := hm.2.2
        omega

/-- Where an amount is known the limits are kept. -/
theorem withinLimits_of_amount (env : Surroundings Result) {w : Wallet} (h : w.Supports)
    {asset amount destination : Text} {withdrawAll : Bool} {token : Asset}
    (hasset : Names asset token) (hdestination : env.isChecksumAddress destination = true) {n : ℤ}
    (hn : amountOf env w token amount withdrawAll = .ok n) :
    WithinLimits env w asset amount destination withdrawAll := by
  obtain ⟨hallowed, hrefused⟩ := withdraw_of_amount env h hasset hdestination hn
  have hone : ∀ {token'}, Names asset token' → token = token' := by
    intro token' h'
    have heq : token.key = token'.key := hasset.symm.trans h'
    cases token <;> cases token' <;> first | rfl | exact absurd heq (by decide)
  by_cases hlimit : Allowed w token n
  · have hrun := hallowed hlimit
    refine ⟨fun transfer htransfer => ?_, fun hnone => ?_, fun hall token' htoken' _ hsome => ?_,
      fun hparse token' htoken' _ m => ?_⟩
    · rw [hrun, List.mem_singleton] at htransfer
      subst htransfer
      exact ⟨hrun, hasset, hdestination, rfl, hlimit⟩
    · rw [hrun] at hnone
      cases hnone
    · obtain rfl := hone htoken'
      subst hall
      obtain ⟨most, hmost, _, hmax⟩ := all_is_most env amount hsome
      obtain rfl : n = most := Except.ok.inj (hn.symm.trans hmost)
      exact ⟨n, hrun, hmax⟩
    · obtain rfl := hone htoken'
      subst hparse
      rw [hrun]
      constructor
      · intro heq
        obtain rfl : n = m := by
          have hhead := (List.cons.inj heq).1
          exact congrArg Transfer.amountWei hhead
        exact ⟨hn, hlimit⟩
      · rintro ⟨hm, _⟩
        obtain rfl : n = m := Except.ok.inj (hn.symm.trans hm)
        rfl
  · obtain ⟨message, hmessage⟩ := hrefused hlimit
    refine ⟨fun transfer htransfer => ?_, fun _ => ⟨message.toList, ?_⟩,
      fun hall token' htoken' _ hsome => ?_, fun hparse token' htoken' _ m => ?_⟩
    · rw [hmessage] at htransfer
      exact absurd htransfer List.not_mem_nil
    · rw [hmessage]
      rfl
    · obtain rfl := hone htoken'
      subst hall
      obtain ⟨most, hmost, hin, _⟩ := all_is_most env amount hsome
      obtain rfl : n = most := Except.ok.inj (hn.symm.trans hmost)
      exact absurd hin hlimit
    · obtain rfl := hone htoken'
      subst hparse
      rw [hmessage]
      constructor
      · intro heq
        cases heq
      · rintro ⟨hm, hin⟩
        obtain rfl : n = m := Except.ok.inj (hn.symm.trans hm)
        exact absurd hin hlimit

/-- Where the amount is refused, so is the withdrawal. -/
theorem withinLimits_of_refused (env : Surroundings Result) {w : Wallet} (h : w.Supports)
    {asset amount destination : Text} {token : Asset} (hasset : Names asset token)
    (hdestination : env.isChecksumAddress destination = true) {message : Text}
    (hrefused : FundingService.parseAmountToWei (some libraryBounds) env.digits amount
      (tokenDecimals token) = .error (.configError message)) :
    WithinLimits env w asset amount destination false := by
  have hamount : amountOf env w token amount false = .error (.configError message) := hrefused
  have hrun := withdraw_of_failure env h hasset hdestination hamount
  refine ⟨fun transfer htransfer => ?_, fun _ => ⟨message, ?_⟩, fun hall => ?_,
    fun _ token' htoken' _ m => ?_⟩
  · rw [hrun] at htransfer
    exact absurd htransfer List.not_mem_nil
  · rw [hrun]
  · cases hall
  · have hsame : tokenDecimals token' = tokenDecimals token := by
      cases token <;> cases token' <;> rfl
    rw [hrun, hsame, hrefused]
    constructor
    · intro heq
      cases heq
    · rintro ⟨hm, _⟩
      cases hm

/-- **When the limits are kept**, and what is not withdrawn is refused: always, but for an amount
    that is parsed and is too large for the arithmetic. -/
theorem withinLimits_iff (env : Surroundings Result) {w : Wallet} (h : w.Supports)
    {asset amount destination : Text} {withdrawAll : Bool} {n : Numeral}
    (hamount : Writes env.digits amount n.text) :
    WithinLimits env w asset amount destination withdrawAll
      ↔ ¬ (withdrawAll = false ∧ (∃ token, Names asset token)
        ∧ env.isChecksumAddress destination = true ∧ TooLarge (n.value * 10 ^ 18)
        ∧ Within (some libraryBounds) n.coefficient n.exponent) := by
  constructor
  · rintro hlimits ⟨rfl, ⟨token, hasset⟩, hdestination, hlarge⟩
    have hparse := (parse_cases hamount token).1 hlarge
    have hparsed : amountOf env w token amount false = .error (.signal .overflow) := hparse
    have hrun := withdraw_of_failure env h hasset hdestination hparsed
    obtain ⟨message, hmessage⟩ := hlimits.refused (by rw [hrun])
    rw [hrun] at hmessage
    cases hmessage
  · intro hnot
    by_cases hvalid : (∃ token, Names asset token) ∧ env.isChecksumAddress destination = true
    · obtain ⟨⟨token, hasset⟩, hdestination⟩ := hvalid
      cases withdrawAll with
      | true => exact withinLimits_of_amount env h hasset hdestination rfl
      | false =>
          by_cases hwithin : Within (some libraryBounds) n.coefficient n.exponent
          · obtain ⟨m, hm⟩ := (parse_cases hamount token).2.2 ⟨fun hlarge =>
              hnot ⟨rfl, ⟨token, hasset⟩, hdestination, hlarge, hwithin⟩, hwithin⟩
            exact withinLimits_of_amount env h hasset hdestination hm
          · obtain ⟨message, hmessage⟩ := (parse_cases hamount token).2.1 hwithin
            exact withinLimits_of_refused env h hasset hdestination hmessage
    · have hneither : (∀ token, ¬ Names asset token) ∨ env.isChecksumAddress destination = false := by
        by_contra hboth
        push Not at hboth
        exact hvalid ⟨hboth.1, Bool.eq_true_of_not_eq_false hboth.2⟩
      obtain ⟨message, hmessage⟩ := withdraw_refuses env w amount withdrawAll hneither
      refine ⟨fun transfer htransfer => ?_, fun _ => ⟨message.toList, ?_⟩,
        fun _ token hasset hdestination _ => absurd ⟨⟨token, hasset⟩, hdestination⟩ hvalid,
        fun _ token hasset hdestination _ => absurd ⟨⟨token, hasset⟩, hdestination⟩ hvalid⟩
      · rw [hmessage] at htransfer
        exact absurd htransfer List.not_mem_nil
      · rw [hmessage]
        rfl

/-! ## Two withdrawals -/

def receiver : Text := "0xb30741673D351135Cf96564dfD15f8e135f9C310".toList

/-- One address with a checksum, and transfers that come to nothing more. -/
def plain : Surroundings Unit where
  digits := asciiDigits
  lowerCase :=
    { lower := Texts.lower
      ascii := fun _ _ => rfl
      foreign := fun _ asset h => not_names_of_foreign h asset }
  isChecksumAddress address := address = receiver
  toChecksumAddress address := address
  checksum := fun _ _ => rfl
  send _ := .ok ()
  fixtureResult _ := ()

def plainWallet : Wallet where
  mode := .eoa
  authSignerAddress := some []
  sdk := .withMethods true true
  bnbBalanceWei := 10 ^ 18
  usdtBalanceWei := 25 * 10 ^ 18

theorem supports_plainWallet : plainWallet.Supports where
  mode := by decide
  signer := by decide
  sdk := ⟨rfl, rfl⟩

/-- Ten USDT. -/
theorem withinLimits_iff_ten :
    WithinLimits plain plainWallet "Usdt".toList "10".toList receiver false := by
  have hwrites : Writes plain.digits "10".toList ten.text := rfl
  refine (withinLimits_iff plain supports_plainWallet hwrites).mpr ?_
  rintro ⟨_, _, _, hlarge, _⟩
  have hvalue : ten.value = 10 := by
    rw [value_of_pos ((value_pos_iff ten).mpr ⟨rfl, by decide⟩), magnitude,
      show ten.coefficient = 10 from rfl, show ten.exponent = 0 from rfl, zpow_zero]
    norm_num
  have hunit : (1 : ℚ) ≤ 10 ^ (defaultContext.emax + 1 - defaultContext.prec) :=
    one_le_zpow₀ (by norm_num) (by decide)
  have hbound : ((10 : ℚ) ^ defaultContext.prec - 1 / 2) * 1
      ≤ ((10 : ℚ) ^ defaultContext.prec - 1 / 2)
        * 10 ^ (defaultContext.emax + 1 - defaultContext.prec) := by
    refine mul_le_mul_of_nonneg_left hunit ?_
    rw [show defaultContext.prec = 28 from rfl]
    norm_num
  have hten := hbound.trans hlarge
  rw [hvalue, show defaultContext.prec = 28 from rfl] at hten
  norm_num at hten

def million : Exponent where
  upper := false
  sign := none
  digits := "1000000".toList
  isDigits := List.all_eq_true.mp rfl
  ne_nil := by decide

/-- `1e1000000`. -/
def huge : Numeral := { ten with
  whole := ['1']
  exp := some million
  wholeDigits := List.all_eq_true.mp rfl
  ne_nil := by decide }

/-- It is a finite number, and it is refused as no such number: the product overflows. -/
theorem not_withinLimits_huge :
    ¬ ∀ (env : Surroundings Unit) (w : Wallet) (asset amount destination : Text)
        (withdrawAll : Bool) (n : Numeral), w.Supports → Writes env.digits amount n.text →
      WithinLimits env w asset amount destination withdrawAll := by
  intro hall
  have hwrites : Writes plain.digits "1e1000000".toList huge.text := rfl
  have hlimits := hall plain plainWallet "usdt".toList "1e1000000".toList receiver false huge
    supports_plainWallet hwrites
  have hlarge : TooLarge (huge.value * 10 ^ 18) := by
    have hvalue : huge.value = 10 ^ (1000000 : ℤ) := by
      rw [value_of_pos ((value_pos_iff huge).mpr ⟨rfl, by decide⟩), magnitude,
        show huge.coefficient = 1 from rfl, show huge.exponent = 1000000 from rfl, Nat.cast_one,
        one_mul]
    have hone : (10 : ℚ) ^ (1000000 : ℤ) * 1 ≤ 10 ^ (1000000 : ℤ) * 10 ^ 18 :=
      mul_le_mul_of_nonneg_left (by norm_num) (zpow_pos (by norm_num) _).le
    have hsplit : (10 : ℚ) ^ defaultContext.prec
        * 10 ^ (defaultContext.emax + 1 - defaultContext.prec) = 10 ^ (1000000 : ℤ) := by
      rw [← zpow_natCast, ← zpow_add₀ (by norm_num), add_sub_cancel]
      rfl
    have hunit : (0 : ℚ) < 10 ^ (defaultContext.emax + 1 - defaultContext.prec) :=
      zpow_pos (by norm_num) _
    rw [TooLarge, hvalue, sub_mul, hsplit]
    exact (sub_le_self _ (mul_nonneg (by norm_num) hunit.le)).trans ((mul_one _).symm.le.trans hone)
  have hparse := (parse_cases hwrites .usdt).1 ⟨hlarge, by decide⟩
  have hamount : amountOf plain plainWallet .usdt "1e1000000".toList false
      = .error (.signal .overflow) := hparse
  have hnames : Names "usdt".toList .usdt := rfl
  have hchecksum : plain.isChecksumAddress receiver = true := rfl
  have hrun := withdraw_of_failure plain supports_plainWallet hnames hchecksum hamount
  obtain ⟨message, hmessage⟩ := hlimits.refused (by rw [hrun])
  rw [hrun] at hmessage
  cases hmessage

end Withdrawals
