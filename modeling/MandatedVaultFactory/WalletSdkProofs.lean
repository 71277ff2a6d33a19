import MandatedVaultFactory.EffectProofs
import MandatedVaultFactory.EnvironmentProofs

/-!
# The wallet of an account

`wallet approve`, `wallet status` and `wallet deposit` make a wallet from the configuration and ask
the exchange's library through it.

* **`makeWalletSdk`**, **`approve`**, **`getStatus`**, **`getDepositDetails`** — the code.
* **`Flow.script`** — what an account asks: its own key opens the wallet, and what is read is read
  of the address that holds its funds.
* **`flow_asks`** — from an environment that describes an account, every run of the three asks
  this and nothing else, and no assertion fails. -/

namespace WalletSdk

open Effect Texts Predict VaultResolution Environments
open WalletFlows (FlowConfig)

/-! ## What is asked -/

/-- Who may be allowed to move tokens. -/
inductive Operator where
  | exchange (isNegRisk isYieldBearing : Bool)
  | negRiskAdapter (isYieldBearing : Bool)

/-- The calls of the exchange's library. -/
inductive Op where
  /-- `OrderBuilder.make`. -/
  | make (chainId : Int) (key : Text) (predictAccount : Option Text)
  /-- `web3.eth.get_balance`. -/
  | getBalance (address : Text)
  /-- `balance_of("USDT", address)`. -/
  | balanceOf (address : Text)
  /-- `isApprovedForAll` of the conditional tokens. -/
  | isApprovedForAll (isNegRisk isYieldBearing : Bool) (owner : Text) (operator : Operator)
  /-- `allowance` of USDT. -/
  | allowance (owner : Text) (spender : Operator)
  /-- `set_approvals`. -/
  | setApprovals (isYieldBearing : Bool)

/-- What the builder has got. -/
structure Builder where
  web3 : Bool
  contracts : Bool

section Code

variable {ρ : Type}

/-- What a call results in; `ρ` is what the library says of approvals. -/
@[reducible] def Op.Result (ρ : Type) : Op → Type
  | .make _ _ _ => Builder
  | .getBalance _ => Int
  | .balanceOf _ => Int
  | .isApprovedForAll _ _ _ _ => Bool
  | .allowance _ _ => Int
  | .setApprovals _ => ρ

/-- It does, or it raises. -/
@[reducible] def Op.Answer (ρ : Type) (op : Op) : Type := Except Text (op.Result ρ)

inductive Failure where
  | configError (message : Text)
  | assertion
  /-- An exception of a library, or of `Account.from_key`. -/
  | raised (text : Text)

abbrev Code (ρ : Type) (α : Type) : Type := ExceptT Failure (Prog Op (Op.Answer ρ)) α

def ask (op : Op) : Code ρ (op.Result ρ) :=
  ExceptT.mk ((Prog.perform op).bind fun answer => .done (answer.mapError Failure.raised))

/-- What may be raised, as code. -/
def orRaise {α : Type} : Except Failure α → Code ρ α
  | .ok a => return a
  | .error failure => throw failure

/-! ## The configuration -/

/-- `Account.from_key(key).address`. -/
abbrev FromKey : Type := Text → Except Text Text

/-- `get_secret_value` of a secret that is there. -/
def secretValue (secret : Option Text) : Option Text := if truthy secret then secret else none

/-- `auth_signer_address`. -/
def authSignerAddress (fromKey : FromKey) (c : FlowConfig) : Except Failure (Option Text) :=
  if c.walletMode = .predictAccount then .ok c.predictAccountAddress
  else if c.walletMode = .eoa then
    match secretValue c.privateKey with
    | some key => ((fromKey key).map some).mapError Failure.raised
    | none => .ok none
  else .ok none

/-- `_has_predict_account_overlay`. -/
def hasPredictAccountOverlay (c : FlowConfig) : Bool :=
  c.walletMode = .predictAccount && c.hasMandatedConfigInput

/-! ## Wallets -/

/-- `PredictSdkWallet` or `FixtureWalletSdk`. -/
inductive Sdk where
  | predict (config : FlowConfig) (builder : Builder)
  | fixture (config : FlowConfig)

def Sdk.config : Sdk → FlowConfig
  | .predict config _ => config
  | .fixture config => config

def actionsText : Text :=
  "Wallet actions require PREDICT_PRIVATE_KEY or Predict Account credentials.".toList

def signerText : Text :=
  "Wallet actions require signer configuration. Set PREDICT_PRIVATE_KEY or both PREDICT_ACCOUNT_ADDRESS and PREDICT_PRIVY_PRIVATE_KEY.".toList

/-- `assert value is not None`. -/
def assertSome {α : Type} : Option α → Code ρ α
  | some a => return a
  | none => throw .assertion

/-- `PredictSdkWallet(config)`. -/
def makePredictSdkWallet (c : FlowConfig) : Code ρ Sdk := do
  if c.walletMode = .readOnly then
    throw (.configError actionsText)
  else if c.walletMode = .predictAccount then
    let key ← assertSome (secretValue c.privyPrivateKey)
    let address ← assertSome c.predictAccountAddress
    let builder ← ask (.make c.chainId key (some address))
    return .predict c builder
  else
    let key ← assertSome (secretValue c.privateKey)
    let builder ← ask (.make c.chainId key none)
    return .predict c builder

/-- `FixtureWalletSdk(config)`. -/
def makeFixtureWalletSdk (c : FlowConfig) : Code ρ Sdk :=
  if c.walletMode = .readOnly then throw (.configError actionsText) else return .fixture c

/-- `make_wallet_sdk`. -/
def makeWalletSdk (c : FlowConfig) : Code ρ Sdk :=
  if c.env = .testFixture then makeFixtureWalletSdk c else makePredictSdkWallet c

/-- `_require_sdk`. -/
def requireSdk (fromKey : FromKey) (c : FlowConfig) : Code ρ Sdk := do
  match ← orRaise (authSignerAddress fromKey c) with
  | none => throw (.configError signerText)
  | some _ => makeWalletSdk c

namespace Sdk

variable (fromKey : FromKey) (sdk : Sdk)

/-- `signer_address`, the same in both. -/
def signerAddress : Code ρ Text := do
  let key ← assertSome (secretValue
    (if sdk.config.walletMode = .predictAccount then sdk.config.privyPrivateKey
      else sdk.config.privateKey))
  orRaise ((fromKey key).mapError Failure.raised)

/-- `funding_address`, the same in both. -/
def fundingAddress : Code ρ Text :=
  if truthy sdk.config.predictAccountAddress then return strOf sdk.config.predictAccountAddress
  else sdk.signerAddress fromKey

def chainName : Text :=
  match sdk with
  | .predict config _ =>
      if config.env = .mainnet then "BNB Mainnet".toList else "BNB Testnet".toList
  | .fixture _ => "BNB Testnet".toList

def getBnbBalanceWei : Code ρ Int :=
  match sdk with
  | .predict _ builder => do
      if !builder.web3 then
        throw (.configError "BNB balance requires an initialized Web3 signer context.".toList)
      else
        let owner ← sdk.fundingAddress fromKey
        ask (.getBalance owner)
  | .fixture _ => return 1500000000000000000

def getUsdtBalanceWei : Code ρ Int :=
  match sdk with
  | .predict _ _ => do
      let owner ← sdk.fundingAddress fromKey
      ask (.balanceOf owner)
  | .fixture _ => return 25000000000000000000

end Sdk

/-! ## Approvals -/

structure ApprovalSnapshot where
  standardExchangeApproval : Bool
  standardExchangeAllowance : Bool
  standardNegRiskExchangeApproval : Bool
  standardNegRiskExchangeAllowance : Bool
  standardNegRiskAdapterApproval : Bool
  yieldExchangeApproval : Bool
  yieldExchangeAllowance : Bool
  yieldNegRiskExchangeApproval : Bool
  yieldNegRiskExchangeAllowance : Bool
  yieldNegRiskAdapterApproval : Bool

/-- `assert contracts is not None`, with which each of the three begins. -/
def assertContracts (builder : Builder) : Code ρ Unit :=
  if builder.contracts then return () else throw .assertion

/-- `_erc1155_approval`. -/
def erc1155Approval (builder : Builder) (owner : Text) (isNegRisk isYieldBearing : Bool) :
    Code ρ Bool := do
  assertContracts builder
  ask (.isApprovedForAll isNegRisk isYieldBearing owner (.exchange isNegRisk isYieldBearing))

/-- `_adapter_approval`. -/
def adapterApproval (builder : Builder) (owner : Text) (isYieldBearing : Bool) :
    Code ρ Bool := do
  assertContracts builder
  ask (.isApprovedForAll true isYieldBearing owner (.negRiskAdapter isYieldBearing))

/-- `_usdt_allowance`. -/
def usdtAllowance (builder : Builder) (owner : Text) (isNegRisk isYieldBearing : Bool) :
    Code ρ Bool := do
  assertContracts builder
  let allowance ← ask (.allowance owner (.exchange isNegRisk isYieldBearing))
  return decide (allowance > 0)

/-- `get_approval_snapshot`. -/
def Sdk.getApprovalSnapshot (fromKey : FromKey) (sdk : Sdk) : Code ρ ApprovalSnapshot :=
  match sdk with
  | .predict _ builder => do
      if !builder.contracts then
        throw (.configError "Approval checks require initialized predict.fun contracts.".toList)
      else
        let owner ← sdk.fundingAddress fromKey
        let standardExchangeApproval ← erc1155Approval builder owner false false
        let standardExchangeAllowance ← usdtAllowance builder owner false false
        let standardNegRiskExchangeApproval ← erc1155Approval builder owner true false
        let standardNegRiskExchangeAllowance ← usdtAllowance builder owner true false
        let standardNegRiskAdapterApproval ← adapterApproval builder owner false
        let yieldExchangeApproval ← erc1155Approval builder owner false true
        let yieldExchangeAllowance ← usdtAllowance builder owner false true
        let yieldNegRiskExchangeApproval ← erc1155Approval builder owner true true
        let yieldNegRiskExchangeAllowance ← usdtAllowance builder owner true true
        let yieldNegRiskAdapterApproval ← adapterApproval builder owner true
        return {
          standardExchangeApproval, standardExchangeAllowance, standardNegRiskExchangeApproval,
          standardNegRiskExchangeAllowance, standardNegRiskAdapterApproval, yieldExchangeApproval,
          yieldExchangeAllowance, yieldNegRiskExchangeApproval, yieldNegRiskExchangeAllowance,
          yieldNegRiskAdapterApproval }
  | .fixture _ => return ⟨true, true, true, true, true, true, true, true, true, true⟩

/-- What came of the approvals. -/
inductive Approval (ρ : Type) where
  | done (result : ρ)
  /-- `{"success": True, "mode": "fixture"}`. -/
  | fixture

/-- `set_all_approvals`, as an `ApprovalRunSummary`. -/
def Sdk.setAllApprovals (sdk : Sdk) : Code ρ (Approval ρ × Approval ρ) :=
  match sdk with
  | .predict _ _ => do
      let standard ← ask (.setApprovals false)
      let yieldBearing ← ask (.setApprovals true)
      return (.done standard, .done yieldBearing)
  | .fixture _ => return (.fixture, .fixture)

/-! ## The commands -/

structure Status where
  mode : WalletMode
  signerAddress : Text
  fundingAddress : Text
  chain : Text
  bnbBalanceWei : Int
  usdtBalanceWei : Int
  authReady : Bool
  approvals : ApprovalSnapshot

/-- What the commands do where there is a vault: it is asked for over the bridge. -/
structure Vaults (ρ α : Type) where
  mandated : Code ρ α
  overlay : Sdk → Code ρ α

def unsupportedText (flow : Text) : Text :=
  flow ++ ": unsupported-in-mandated-vault-v1. mandated-vault v1 currently covers protected funding/control-plane operations and does not provide predict.fun trading parity.".toList

variable (fromKey : FromKey) (c : FlowConfig)

/-- `WalletManager.approve`. -/
def approve : Code ρ (Approval ρ × Approval ρ) :=
  if c.walletMode = .mandatedVault then
    throw (.configError (unsupportedText "wallet approve".toList))
  else do
    let sdk ← requireSdk fromKey c
    sdk.setAllApprovals

/-- `WalletManager.get_status`. -/
def getStatus (vaults : Vaults ρ Status) : Code ρ Status :=
  if c.walletMode = .mandatedVault then vaults.mandated
  else do
    let sdk ← requireSdk fromKey c
    if hasPredictAccountOverlay c then vaults.overlay sdk
    else
      let signerAddress ← sdk.signerAddress fromKey
      let fundingAddress ← sdk.fundingAddress fromKey
      let bnbBalanceWei ← sdk.getBnbBalanceWei fromKey
      let usdtBalanceWei ← sdk.getUsdtBalanceWei fromKey
      let authSignerAddress ← orRaise (authSignerAddress fromKey c)
      let approvals ← sdk.getApprovalSnapshot fromKey
      return {
        mode := sdk.config.walletMode
        signerAddress
        fundingAddress
        chain := sdk.chainName
        bnbBalanceWei
        usdtBalanceWei
        authReady := truthy authSignerAddress
        approvals }

/-- `FundingService.get_deposit_details`. -/
def getDepositDetails (vaults : Vaults ρ DepositDetails) : Code ρ DepositDetails :=
  if c.walletMode = .mandatedVault then vaults.mandated
  else do
    let sdk ← requireSdk fromKey c
    if hasPredictAccountOverlay c then vaults.overlay sdk
    else
      let fundingAddress ← sdk.fundingAddress fromKey
      let signerAddress ← sdk.signerAddress fromKey
      let bnbBalanceWei ← sdk.getBnbBalanceWei fromKey
      let usdtBalanceWei ← sdk.getUsdtBalanceWei fromKey
      return {
        mode := sdk.config.walletMode
        fundingAddress
        signerAddress
        chain := sdk.chainName
        acceptedAssets := ["BNB".toList, "USDT".toList]
        bnbBalanceWei
        usdtBalanceWei
        vaultAddressSource := none
        vaultExists := none
        createVaultPreparation := none }

end Code

/-! ## What an account asks -/

inductive Flow where
  | approve | status | deposit

/-- The questions of an approval snapshot. -/
def approvalOps (owner : Text) : List Op :=
  [false, true].flatMap fun isYieldBearing =>
    [.isApprovedForAll false isYieldBearing owner (.exchange false isYieldBearing),
      .allowance owner (.exchange false isYieldBearing),
      .isApprovedForAll true isYieldBearing owner (.exchange true isYieldBearing),
      .allowance owner (.exchange true isYieldBearing),
      .isApprovedForAll true isYieldBearing owner (.negRiskAdapter isYieldBearing)]

/-- What a flow asks through a wallet whose funds are at this address. -/
def Flow.ops (owner : Text) : Flow → List Op
  | approve => [.setApprovals false, .setApprovals true]
  | status => .getBalance owner :: .balanceOf owner :: approvalOps owner
  | deposit => [.getBalance owner, .balanceOf owner]

/-- The address that holds the funds of an account. -/
def holder (fromKey : FromKey) (key : Word) : Option Word → Except Text Text
  | some address => .ok address.text
  | none => fromKey key.text

/-- What a flow asks with a key: it opens the wallet, and the rest is about the address that holds
    its funds. -/
def Flow.asks (flow : Flow) (fromKey : FromKey) (c : FlowConfig) (key : Word)
    (address : Option Word) : List Op :=
  .make c.chainId key.text (address.map Word.text)
    :: match holder fromKey key address with
      | .ok owner => flow.ops owner
      | .error _ => []

/-- What a flow asks for an account: nothing without a signer, nor in the fixtures. -/
def Flow.script (flow : Flow) (fromKey : FromKey) (c : FlowConfig) (A : Account) : List Op :=
  if c.env = .testFixture then []
  else
    match A.signer with
    | none => []
    | some (key, address) => flow.asks fromKey c key address

theorem asks_eq {flow : Flow} {fromKey : FromKey} {c : FlowConfig} {key : Word}
    {address : Option Word} {owner : Text} (h : holder fromKey key address = .ok owner) :
    flow.asks fromKey c key address
      = .make c.chainId key.text (address.map Word.text) :: flow.ops owner := by
  rw [Flow.asks, h]

section Asks

variable {ρ α β : Type}

/-- No assertion has failed, and what has come out is as it should be. -/
def Ends (Q : List Op → α → Prop) (ops : List Op) : Except Failure α → Prop
  | .ok a => Q ops a
  | .error failure => failure ≠ .assertion

/-- The code asks what the list says, from its front. -/
def Keeps (Q : List Op → α → Prop) (x : Code ρ α) (ops : List Op) : Prop :=
  Safe Script (Ends Q) x.run ops

theorem keeps_pure {Q : List Op → α → Prop} {a : α} {ops : List Op} (h : Q ops a) :
    Keeps Q (pure a : Code ρ α) ops := h

theorem keeps_throw {Q : List Op → α → Prop} {failure : Failure} {ops : List Op}
    (h : failure ≠ .assertion) : Keeps Q (throw failure : Code ρ α) ops := h

theorem keeps_bind {R : List Op → α → Prop} {Q : List Op → β → Prop} {x : Code ρ α}
    {next : α → Code ρ β} {ops : List Op} (hx : Keeps R x ops)
    (hnext : ∀ ops a, R ops a → Keeps Q (next a) ops) : Keeps Q (x >>= next) ops :=
  Safe.bind hx fun ops r hr => by
    cases r with
    | ok a => exact hnext ops a hr
    | error failure => exact hr

/-- What was asked is taken off the list. -/
theorem keeps_ask (op : Op) (ops : List Op) :
    Keeps (fun rest _ => rest = ops) (ask op : Code ρ (op.Result ρ)) (op :: ops) := by
  intro answer
  refine ⟨ops, rfl, ?_⟩
  cases answer with
  | ok result => rfl
  | error text => exact nofun

/-- Code that only raises or returns. -/
theorem keeps_orRaise {r : Except Failure α} {ops : List Op} (h : r ≠ .error .assertion) :
    Keeps (fun rest a => rest = ops ∧ r = .ok a) (orRaise r : Code ρ α) ops := by
  cases r with
  | ok a => exact ⟨rfl, rfl⟩
  | error failure =>
      refine keeps_throw fun hf => h ?_
      rw [hf]

theorem keeps_assertSome {a : α} {ops : List Op} :
    Keeps (fun rest b => rest = ops ∧ b = a) (assertSome (some a) : Code ρ α) ops := ⟨rfl, rfl⟩

/-! ## The wallet of an account -/

theorem secretValue_text (w : Option Word) : secretValue (w.map Word.text) = w.map Word.text := by
  rw [secretValue, truthy_text]
  cases w <;> rfl

/-- What a wallet still asks: the one of the fixtures asks nothing. -/
def Sdk.asked (ops : List Op) : Sdk → List Op
  | .predict _ _ => ops
  | .fixture _ => []

variable {fromKey : FromKey} {c : FlowConfig} {A : Account}

theorem walletMode_ne (h : Holds c.toConfigFields A) {key : Word} {address : Option Word}
    (hs : A.signer = some (key, address)) : c.walletMode ≠ .readOnly := by
  rw [h.mode]
  cases A with
  | eoa _ => exact nofun
  | predictAccount _ _ _ => exact nofun
  | _ => exact nomatch hs

/-- The secret that a wallet signs with is the account's key, and the address of a predict account
    is the account's. -/
theorem secretValue_signer (h : Holds c.toConfigFields A) {key : Word} {address : Option Word}
    (hs : A.signer = some (key, address)) :
    secretValue (if c.walletMode = .predictAccount then c.privyPrivateKey else c.privateKey)
        = some key.text
      ∧ c.predictAccountAddress = address.map Word.text
      ∧ (c.walletMode = .predictAccount ↔ address.isSome = true) := by
  obtain ⟨hkey, haddress, hprivy, _⟩ := forall_identity.mp h.identity
  have hkey : c.privateKey = _ := hkey
  have haddress : c.predictAccountAddress = _ := haddress
  have hprivy : c.privyPrivateKey = _ := hprivy
  rw [hkey, haddress, hprivy, h.mode]
  cases A with
  | eoa _ =>
      obtain ⟨rfl, rfl⟩ := Prod.mk.inj (Option.some.inj hs)
      exact ⟨secretValue_text (some _), rfl, nofun, nofun⟩
  | predictAccount _ _ _ =>
      obtain ⟨rfl, rfl⟩ := Prod.mk.inj (Option.some.inj hs)
      exact ⟨secretValue_text (some _), rfl, fun _ => rfl, fun _ => rfl⟩
  | _ => exact nomatch hs

theorem authSignerAddress_none (h : Holds c.toConfigFields A) (hs : A.signer = none) :
    authSignerAddress fromKey c = .ok none := by
  rw [authSignerAddress, h.mode]
  cases A with
  | nobody => rfl
  | mandatedVault _ => rfl
  | _ => exact nomatch hs

/-- The address of the signer is the one that holds the funds. -/
theorem authSignerAddress_some (h : Holds c.toConfigFields A) {key : Word} {address : Option Word}
    (hs : A.signer = some (key, address)) : authSignerAddress fromKey c
      = ((holder fromKey key address).map some).mapError Failure.raised := by
  obtain ⟨hsecret, haddress, hmode⟩ := secretValue_signer h hs
  rw [authSignerAddress, haddress]
  cases address with
  | some address =>
      rw [if_pos (hmode.mpr rfl)]
      rfl
  | none =>
      have hne : c.walletMode ≠ .predictAccount := fun heq => nomatch hmode.mp heq
      have heoa : c.walletMode = .eoa := by
        rw [h.mode] at hne ⊢
        cases A with
        | eoa _ => rfl
        | predictAccount _ _ _ => exact absurd rfl hne
        | _ => exact nomatch hs
      rw [if_neg hne] at hsecret ⊢
      rw [if_pos heoa, hsecret]
      rfl

/-- **The wallet of an account**: made with its key, for its funds. -/
theorem keeps_requireSdk (h : Holds c.toConfigFields A) (flow : Flow) :
    Keeps (fun rest sdk => sdk.config = c ∧ ∃ key address owner, A.signer = some (key, address)
        ∧ holder fromKey key address = .ok owner ∧ rest = sdk.asked (flow.ops owner))
      (requireSdk fromKey c : Code ρ Sdk) (flow.script fromKey c A) := by
  rw [requireSdk]
  cases hs : A.signer with
  | none =>
      rw [authSignerAddress_none h hs]
      exact keeps_throw nofun
  | some signer =>
      obtain ⟨key, address⟩ := signer
      obtain ⟨hsecret, haddress, hmode⟩ := secretValue_signer h hs
      rw [authSignerAddress_some h hs, Flow.script, hs]
      cases howner : holder fromKey key address with
      | error text => exact keeps_throw nofun
      | ok owner =>
          show Keeps _ (makeWalletSdk c) _
          rw [makeWalletSdk]
          by_cases henv : c.env = .testFixture
          · rw [if_pos henv, if_pos henv, makeFixtureWalletSdk, if_neg (walletMode_ne h hs)]
            exact keeps_pure ⟨rfl, key, address, owner, rfl, howner, rfl⟩
          · rw [if_neg henv, if_neg henv, makePredictSdkWallet, if_neg (walletMode_ne h hs)]
            show Keeps _ _ (flow.asks fromKey c key address)
            rw [asks_eq howner]
            have hmake : Keeps (fun rest sdk => sdk.config = c ∧ ∃ key' address' owner',
                  some (key, address) = some (key', address')
                  ∧ holder fromKey key' address' = .ok owner'
                  ∧ rest = sdk.asked (flow.ops owner'))
                (ask (.make c.chainId key.text (address.map Word.text)) >>= fun builder =>
                  pure (.predict c builder) : Code ρ Sdk)
                (.make c.chainId key.text (address.map Word.text) :: flow.ops owner) :=
              keeps_bind (keeps_ask _ _) fun rest builder hrest =>
                keeps_pure ⟨rfl, key, address, owner, rfl, howner, hrest⟩
            by_cases hpredict : c.walletMode = .predictAccount
            · rw [if_pos hpredict] at hsecret ⊢
              obtain ⟨a, rfl⟩ := Option.isSome_iff_exists.mp (hmode.mp hpredict)
              rw [hsecret, haddress]
              exact hmake
            · rw [if_neg hpredict] at hsecret ⊢
              obtain rfl : address = none := by
                rw [← Option.not_isSome_iff_eq_none, ← hmode]
                exact hpredict
              rw [hsecret]
              exact hmake

theorem keeps_signerAddress {sdk : Sdk} {key : Word} {address : Option Word} {ops : List Op}
    (h : Holds sdk.config.toConfigFields A) (hs : A.signer = some (key, address)) :
    Keeps (fun rest _ => rest = ops) (sdk.signerAddress fromKey : Code ρ Text) ops := by
  rw [Sdk.signerAddress, (secretValue_signer h hs).1]
  refine keeps_bind keeps_assertSome fun rest key' hkey => ?_
  obtain ⟨rfl, rfl⟩ := hkey
  cases hkey : fromKey key.text with
  | error text => exact keeps_throw nofun
  | ok a => exact keeps_pure rfl

/-- The funds are where the account holds them. -/
theorem keeps_fundingAddress {sdk : Sdk} {key : Word} {address : Option Word} {owner : Text}
    {ops : List Op} (h : Holds sdk.config.toConfigFields A) (hs : A.signer = some (key, address))
    (howner : holder fromKey key address = .ok owner) :
    Keeps (fun rest a => rest = ops ∧ a = owner)
      (sdk.fundingAddress fromKey : Code ρ Text) ops := by
  obtain ⟨hsecret, haddress, _⟩ := secretValue_signer h hs
  rw [Sdk.fundingAddress, haddress, truthy_text]
  cases address with
  | some address =>
      obtain rfl : address.text = owner := Except.ok.inj howner
      exact keeps_pure ⟨rfl, rfl⟩
  | none =>
      have howner : fromKey key.text = .ok owner := howner
      show Keeps _ (sdk.signerAddress fromKey) ops
      rw [Sdk.signerAddress, hsecret]
      refine keeps_bind keeps_assertSome fun rest key' hkey => ?_
      obtain ⟨rfl, rfl⟩ := hkey
      rw [howner]
      exact keeps_pure ⟨rfl, rfl⟩

theorem keeps_getBnbBalanceWei {sdk : Sdk} {key : Word} {address : Option Word} {owner : Text}
    {ops : List Op} (h : Holds sdk.config.toConfigFields A) (hs : A.signer = some (key, address))
    (howner : holder fromKey key address = .ok owner) :
    Keeps (fun rest _ => rest = sdk.asked ops) (sdk.getBnbBalanceWei fromKey : Code ρ Int)
      (sdk.asked (.getBalance owner :: ops)) := by
  cases sdk with
  | fixture config => exact keeps_pure rfl
  | predict config builder =>
      rw [Sdk.getBnbBalanceWei]
      cases builder.web3 with
      | false => exact keeps_throw nofun
      | true =>
          refine keeps_bind (keeps_fundingAddress h hs howner) fun rest a ha => ?_
          obtain ⟨rfl, rfl⟩ := ha
          exact keeps_ask _ _

theorem keeps_getUsdtBalanceWei {sdk : Sdk} {key : Word} {address : Option Word} {owner : Text}
    {ops : List Op} (h : Holds sdk.config.toConfigFields A) (hs : A.signer = some (key, address))
    (howner : holder fromKey key address = .ok owner) :
    Keeps (fun rest _ => rest = sdk.asked ops) (sdk.getUsdtBalanceWei fromKey : Code ρ Int)
      (sdk.asked (.balanceOf owner :: ops)) := by
  cases sdk with
  | fixture config => exact keeps_pure rfl
  | predict config builder =>
      refine keeps_bind (keeps_fundingAddress h hs howner) fun rest a ha => ?_
      obtain ⟨rfl, rfl⟩ := ha
      exact keeps_ask _ _

theorem keeps_ask_bind {Q : List Op → β → Prop} {op : Op} {next : op.Result ρ → Code ρ β}
    {ops : List Op} (h : ∀ result, Keeps Q (next result) ops) :
    Keeps Q (ask op >>= next) (op :: ops) :=
  keeps_bind (keeps_ask op ops) fun _ result hrest => hrest ▸ h result

/-- With contracts the assertion holds. -/
theorem keeps_assert_bind {Q : List Op → β → Prop} {builder : Builder} {next : Code ρ β}
    {ops : List Op} (hcontracts : builder.contracts = true) (h : Keeps Q next ops) :
    Keeps Q (assertContracts builder >>= fun _ => next) ops := by
  rw [assertContracts, if_pos hcontracts]
  exact h

section Contracts

variable {Q : List Op → β → Prop} {builder : Builder} {owner : Text} {isNegRisk isYieldBearing : Bool}
  {next : Bool → Code ρ β} {ops : List Op}

theorem keeps_erc1155_bind (hcontracts : builder.contracts = true)
    (h : ∀ approved, Keeps Q (next approved) ops) :
    Keeps Q (erc1155Approval builder owner isNegRisk isYieldBearing >>= next)
      (.isApprovedForAll isNegRisk isYieldBearing owner (.exchange isNegRisk isYieldBearing)
        :: ops) :=
  keeps_bind (keeps_assert_bind hcontracts (keeps_ask _ ops)) fun _ approved hrest =>
    hrest ▸ h approved

theorem keeps_adapter_bind (hcontracts : builder.contracts = true)
    (h : ∀ approved, Keeps Q (next approved) ops) :
    Keeps Q (adapterApproval builder owner isYieldBearing >>= next)
      (.isApprovedForAll true isYieldBearing owner (.negRiskAdapter isYieldBearing) :: ops) :=
  keeps_bind (keeps_assert_bind hcontracts (keeps_ask _ ops)) fun _ approved hrest =>
    hrest ▸ h approved

theorem keeps_allowance_bind (hcontracts : builder.contracts = true)
    (h : ∀ allowed, Keeps Q (next allowed) ops) :
    Keeps Q (usdtAllowance builder owner isNegRisk isYieldBearing >>= next)
      (.allowance owner (.exchange isNegRisk isYieldBearing) :: ops) :=
  keeps_bind (keeps_assert_bind hcontracts (keeps_ask_bind fun _ => keeps_pure rfl))
    fun rest allowed (hrest : rest = ops) => hrest ▸ h allowed

end Contracts

theorem keeps_getApprovalSnapshot {sdk : Sdk} {key : Word} {address : Option Word} {owner : Text}
    (h : Holds sdk.config.toConfigFields A) (hs : A.signer = some (key, address))
    (howner : holder fromKey key address = .ok owner) :
    Keeps (fun rest _ => rest = []) (sdk.getApprovalSnapshot fromKey : Code ρ ApprovalSnapshot)
      (sdk.asked (approvalOps owner)) := by
  cases sdk with
  | fixture config => exact keeps_pure rfl
  | predict config builder =>
      rw [Sdk.getApprovalSnapshot]
      cases hcontracts : builder.contracts with
      | false => exact keeps_throw nofun
      | true =>
          refine keeps_bind (keeps_fundingAddress h hs howner) fun rest a ha => ?_
          obtain ⟨rfl, rfl⟩ := ha
          -- two contracts, two allowances and the adapter, for either kind of market
          refine keeps_erc1155_bind hcontracts fun _ => keeps_allowance_bind hcontracts fun _ => ?_
          refine keeps_erc1155_bind hcontracts fun _ => keeps_allowance_bind hcontracts fun _ => ?_
          refine keeps_adapter_bind hcontracts fun _ => ?_
          refine keeps_erc1155_bind hcontracts fun _ => keeps_allowance_bind hcontracts fun _ => ?_
          refine keeps_erc1155_bind hcontracts fun _ => keeps_allowance_bind hcontracts fun _ => ?_
          refine keeps_adapter_bind hcontracts fun _ => ?_
          exact keeps_pure rfl

/-! ## The flows -/

theorem keeps_approve (h : Holds c.toConfigFields A) :
    Keeps (fun rest _ => rest = []) (approve fromKey c : Code ρ (Approval ρ × Approval ρ))
      (Flow.approve.script fromKey c A) := by
  rw [approve]
  by_cases hmode : c.walletMode = .mandatedVault
  · rw [if_pos hmode]
    exact keeps_throw nofun
  · rw [if_neg hmode]
    refine keeps_bind (keeps_requireSdk h .approve) fun rest sdk hsdk => ?_
    obtain ⟨_, _, _, owner, _, _, rfl⟩ := hsdk
    cases sdk with
    | fixture config => exact keeps_pure rfl
    | predict config builder =>
        exact keeps_ask_bind fun _ => keeps_ask_bind fun _ => keeps_pure rfl

theorem not_overlay (h : Holds c.toConfigFields A) (hvault : A.vault = none) :
    hasPredictAccountOverlay c = false := by
  rw [hasPredictAccountOverlay, h.inputs, hvault]
  exact Bool.and_false _

theorem keeps_getStatus (h : Holds c.toConfigFields A) (hvault : A.vault = none)
    (hmode : A.mode ≠ .mandatedVault) (vaults : Vaults ρ Status) :
    Keeps (fun rest _ => rest = []) (getStatus fromKey c vaults)
      (Flow.status.script fromKey c A) := by
  rw [getStatus, if_neg (h.mode ▸ hmode)]
  refine keeps_bind (keeps_requireSdk h .status) fun rest sdk hsdk => ?_
  obtain ⟨rfl, key, address, owner, hs, howner, rfl⟩ := hsdk
  rw [not_overlay h hvault]
  refine keeps_bind (keeps_signerAddress h hs) fun rest _ hrest => ?_
  subst hrest
  refine keeps_bind (keeps_fundingAddress h hs howner) fun rest _ hrest => ?_
  obtain ⟨rfl, rfl⟩ := hrest
  refine keeps_bind (keeps_getBnbBalanceWei h hs howner) fun rest _ hrest => ?_
  subst hrest
  refine keeps_bind (keeps_getUsdtBalanceWei h hs howner) fun rest _ hrest => ?_
  subst hrest
  rw [authSignerAddress_some h hs, howner]
  refine keeps_bind (keeps_orRaise nofun) fun rest _ hrest => ?_
  obtain ⟨rfl, _⟩ := hrest
  exact keeps_bind (keeps_getApprovalSnapshot h hs howner) fun rest _ hrest => keeps_pure hrest

theorem keeps_getDepositDetails (h : Holds c.toConfigFields A) (hvault : A.vault = none)
    (hmode : A.mode ≠ .mandatedVault) (vaults : Vaults ρ DepositDetails) :
    Keeps (fun rest _ => rest = []) (getDepositDetails fromKey c vaults)
      (Flow.deposit.script fromKey c A) := by
  rw [getDepositDetails, if_neg (h.mode ▸ hmode)]
  refine keeps_bind (keeps_requireSdk h .deposit) fun rest sdk hsdk => ?_
  obtain ⟨rfl, key, address, owner, hs, howner, rfl⟩ := hsdk
  rw [not_overlay h hvault]
  refine keeps_bind (keeps_fundingAddress h hs howner) fun rest _ hrest => ?_
  obtain ⟨rfl, rfl⟩ := hrest
  refine keeps_bind (keeps_signerAddress h hs) fun rest _ hrest => ?_
  subst hrest
  refine keeps_bind (keeps_getBnbBalanceWei h hs howner) fun rest _ hrest => ?_
  subst hrest
  refine keeps_bind (keeps_getUsdtBalanceWei h hs howner) fun rest _ hrest => ?_
  subst hrest
  cases sdk <;> exact keeps_pure rfl

/-- What the code asks is where the list begins, and no assertion fails. -/
def Tells (x : Code ρ α) (ops : List Op) : Prop :=
  (∀ log, x.run.Begins log → log.map Event.op <+: ops)
    ∧ ∀ log r, x.run.Does log r → r ≠ .error .assertion

theorem tells_of_keeps {Q : List Op → α → Prop} {x : Code ρ α} {ops : List Op}
    (h : Keeps Q x ops) : Tells x ops := by
  constructor
  · intro log hbegins
    obtain ⟨rest, hfollows⟩ := Safe.begins h hbegins
    exact ⟨rest, hfollows.script.symm⟩
  · intro log r hdoes
    obtain ⟨rest, _, hends⟩ := Safe.does h hdoes
    rintro rfl
    exact hends rfl

variable (ρ) in
/-- **From the environment to the exchange.**  An environment that describes an account is
    accepted, and then `wallet approve`, and where there is no vault `wallet status` and
    `wallet deposit`, ask the exchange's library what the account asks and nothing else, in every
    run: the wallet is opened with the key of the account, what is read is read of the address
    that holds its funds, and without a signer nothing is asked at all. -/
theorem flow_asks {lib : Library} {environ : Environ} {env : Option Environ} {A : Account}
    (h : Describes lib (sourceOf environ env) A) (fromKey : FromKey) :
    ∃ accepted, fromEnv lib environ env = .ok accepted
      ∧ Tells (approve fromKey accepted.toFlowConfig : Code ρ (Approval ρ × Approval ρ))
          (Flow.approve.script fromKey accepted.toFlowConfig A)
      ∧ (A.vault = none → A.mode ≠ .mandatedVault →
        (∀ vaults : Vaults ρ Status, Tells (getStatus fromKey accepted.toFlowConfig vaults)
          (Flow.status.script fromKey accepted.toFlowConfig A))
        ∧ ∀ vaults : Vaults ρ DepositDetails,
          Tells (getDepositDetails fromKey accepted.toFlowConfig vaults)
            (Flow.deposit.script fromKey accepted.toFlowConfig A)) := by
  obtain ⟨accepted, hok, hA⟩ := exists_accepted h
  refine ⟨accepted, hok, tells_of_keeps (keeps_approve hA), fun hvault hmode => ⟨?_, ?_⟩⟩
  · exact fun vaults => tells_of_keeps (keeps_getStatus hA hvault hmode vaults)
  · exact fun vaults => tells_of_keeps (keeps_getDepositDetails hA hvault hmode vaults)

end Asks

/-! ## A key in the environment -/

def plainKey : Word where
  text := "key".toList
  ne_nil := by decide
  stripped := by decide

/-- The environment holds a key alone: its own address is asked for, and no other. -/
theorem flow_asks_eoa : ∃ accepted,
    fromEnv plainLibrary [] (some (Account.eoa plainKey).environ) = .ok accepted
      ∧ Tells (approve (fun key => .ok ('@' :: key)) accepted.toFlowConfig
          : Code Unit (Approval Unit × Approval Unit))
        [.make 97 "key".toList none, .setApprovals false, .setApprovals true] := by
  have h := describes_environ (.eoa plainKey) plainLibrary rfl
  rw [← sourceOf_environ _ []] at h
  obtain ⟨accepted, hok, happrove, _⟩ := flow_asks Unit h fun key => .ok ('@' :: key)
  have henv : accepted.env = .testnet := by
    obtain ⟨runtimeEnv, storageDir, henv, _, hread⟩ := fromEnv_ok.mp hok
    obtain ⟨override, _, _, hconfig⟩ := readConfig_ok.mp hread
    have htestnet : runtimeEnvOf
        (sourceOf [] (some (Account.eoa plainKey).environ)).runtimeEnv = some .testnet := by decide
    obtain rfl := Option.some.inj (henv.symm.trans htestnet)
    rw [hconfig]
    rfl
  have hchain : accepted.toFlowConfig.chainId = 97 := by
    rw [FlowConfig.chainId, henv]
    rfl
  refine ⟨accepted, hok, ?_⟩
  rw [Flow.script, henv, if_neg (by decide)] at happrove
  show Tells _ (.make 97 _ _ :: _)
  rw [← hchain]
  exact happrove

end WalletSdk
