import MandatedVaultFactory.TradeServiceProofs
import Mathlib.Tactic.NormNum

/-!
# An accepted order is tracked

What the exchange has accepted should be in `positions.json` when a buy ends, whether it
returns or raises.

* **`Answered`** — the exchange answers readably: to the order, and to every poll.
* **`tracks_iff`** — an accepted order is tracked exactly where it does and its record can be
  written; an order that was not accepted leaves the file alone.

The record is written after the last poll, and the amount is read again for it: what raises before
that leaves an accepted order without one. -/

namespace Predict

open Texts Json

variable {floats : Floats}

/-- **What a buy owes its caller**: an accepted order is in the file, and without one the file is
    as it was. -/
structure Tracks (file : PositionsFile) (bought : Bought) : Prop where
  recorded : ∀ hash, bought.net.accepted = some hash → Tracked hash bought.file
  untouched : bought.net.accepted = none → bought.file = file

/-- The exchange answers an order without an error only if it has accepted it, by this attempt
    or an earlier one, and knows it by the hash that its answer and the SDK give it. -/
structure Honest (x : Exchange floats) (cfg : ClientConfig floats) : Prop where
  processes : ∀ order, Processes (x.attempts (.createOrder order))
  hash : ∀ order created, orderAnswer x cfg (.createOrder order) = .ok created →
    orderHash created order = x.hashOf order

/-- What a buy comes to send: the order has been signed, and there is a token. -/
def Sends (x : Exchange floats) (svc : Service floats) (req : BuyRequest) (prepared : Prepared) :
    Prop :=
  ∃ net token net', prepare x svc req Net.start = (.ok prepared, net) ∧
    getJwt x svc.client net = (.ok token, net')

/-- The exchange accepts one of the attempts that are made to send the order. -/
def Accepts (x : Exchange floats) (cfg : ClientConfig floats) (order : SignedOrder) : Prop :=
  acceptedIn (x.attempts (.createOrder order)) cfg.retryAttempts 0 = true

/-- Every poll that is made is answered readably, until one says that the order is settled. -/
def Polled (x : Exchange floats) (svc : Service floats) (hash : Text) : Nat → Nat → Prop
  | 0, _ => True
  | left + 1, poll =>
      ∃ answer, orderAnswer x svc.client (.getOrder hash poll) = .ok answer ∧
        (settled svc.letters answer = true ∨ Polled x svc hash left (poll + 1))

/-- The order is answered readably, and so are the polls for it. -/
def Answered (x : Exchange floats) (svc : Service floats) (order : SignedOrder) : Prop :=
  ∃ created, orderAnswer x svc.client (.createOrder order) = .ok created ∧
    (orderHash created order = [] ∨ Polled x svc (orderHash created order) 15 0)

variable {x : Exchange floats} {svc : Service floats}

/-- Induction on the polls that are left. -/
theorem pollAnswer_ok_iff (hash : Text) (left : Nat) : ∀ (poll : Nat) (polled : OrderRecord floats),
    (∃ answer, pollAnswer x svc hash left poll polled = .ok answer) ↔ Polled x svc hash left poll := by
  induction left with
  | zero =>
      intro poll polled
      exact ⟨fun _ => trivial, fun _ => ⟨polled, rfl⟩⟩
  | succ left ih =>
      intro poll polled
      rw [pollAnswer, Polled]
      cases hanswer : orderAnswer x svc.client (.getOrder hash poll) with
      | error failure => simp [Except.bind]
      | ok answer =>
          simp only [Except.bind, Except.ok.injEq, exists_eq_left']
          by_cases hsettled : settled svc.letters answer = true
          · simp [hsettled]
          · rw [if_neg hsettled, ih (poll + 1) answer]
            simp [hsettled]

theorem submitAnswer_ok_iff (prepared : Prepared) :
    (∃ placed, submitAnswer x svc prepared = .ok placed) ↔ Answered x svc prepared.order := by
  rw [submitAnswer, Answered]
  cases hanswer : orderAnswer x svc.client (.createOrder prepared.order) with
  | error failure => simp [Except.bind]
  | ok created =>
      simp only [Except.bind, Except.ok.injEq, exists_eq_left']
      by_cases hnil : orderHash created prepared.order = []
      · simp [hnil, Except.map]
      · rw [if_neg hnil, ← pollAnswer_ok_iff _ 15 0 created]
        cases pollAnswer x svc (orderHash created prepared.order) 15 0 created with
        | error failure => simp [hnil, Except.map]
        | ok polled => simp [Except.map]

/-- What is written down is what was sent, with the hash of the answer. -/
theorem of_submitAnswer {prepared : Prepared} {placed : Placed floats}
    (h : submitAnswer x svc prepared = .ok placed) :
    placed.prepared = prepared ∧
    ∃ created, orderAnswer x svc.client (.createOrder prepared.order) = .ok created ∧
      placed.hash = orderHash created prepared.order := by
  rw [submitAnswer] at h
  cases hanswer : orderAnswer x svc.client (.createOrder prepared.order) with
  | error failure =>
      rw [hanswer] at h
      cases h
  | ok created =>
      simp only [hanswer, Except.bind] at h
      cases hpolled : (if orderHash created prepared.order = [] then Except.ok created
          else pollAnswer x svc (orderHash created prepared.order) 15 0 created) with
      | error failure =>
          rw [hpolled] at h
          cases h
      | ok polled =>
          rw [hpolled] at h
          cases h
          exact ⟨rfl, created, rfl, rfl⟩

/-- An order that is answered readably has been accepted. -/
theorem accepted_of_answer (hhonest : Honest x svc.client) {order : SignedOrder}
    {created : OrderRecord floats} (h : orderAnswer x svc.client (.createOrder order) = .ok created)
    (net : Net) : (afterOrder x svc.client order net).accepted = some (x.hashOf order) := by
  rw [orderAnswer] at h
  cases hread : readFinal (x.attempts (.createOrder order)) svc.client.retryAttempts 0 with
  | error failure =>
      rw [hread] at h
      cases h
  | ok members =>
      have haccepted := acceptedIn_of_read (hhonest.processes order) svc.client.retryAttempts 0
        (fun m hm => absurd hm (Nat.not_lt_zero m)) hread
      rw [afterOrder, if_pos haccepted]

/-! ## How a buy ends -/

theorem buy_of_place_error {req : BuyRequest} {net : Net} {failure : Failure}
    (h : place x svc req Net.start = (.error failure, net)) (file : PositionsFile) :
    buy x svc req file = { result := .error failure, net, file } := by
  rw [buy, h]

theorem buy_of_place_ok {req : BuyRequest} {net : Net} {placed : Placed floats}
    {position : LocalPosition} (h : place x svc req Net.start = (.ok placed, net))
    (hrecord : recordOf svc req placed = .ok position) (file : PositionsFile) :
    buy x svc req file =
      { result := .ok (resultOf svc req placed), net, file := file.upsert position } := by
  rw [buy, h]
  simp only [hrecord]

/-- Without a record the file stays as it is, whatever has been sent. -/
theorem buy_of_unwritable {req : BuyRequest} {net : Net} {placed : Placed floats}
    (h : place x svc req Net.start = (.ok placed, net))
    (hunwritable : ¬ Writable svc req placed.prepared.amounts) (file : PositionsFile) :
    ∃ failure, buy x svc req file = { result := .error failure, net, file } := by
  rw [buy, h]
  cases hrecord : recordOf svc req placed with
  | ok position => exact absurd ((recordOf_ok_iff req placed).mp ⟨position, hrecord⟩) hunwritable
  | error failure =>
      refine ⟨failure, ?_⟩
      simp only [hrecord]

theorem Sends.unique {req : BuyRequest} {prepared prepared' : Prepared}
    (h : Sends x svc req prepared) (h' : Sends x svc req prepared') : prepared = prepared' := by
  obtain ⟨net, _, _, hprepare, _⟩ := h
  obtain ⟨net', _, _, hprepare', _⟩ := h'
  rw [hprepare, Prod.mk.injEq, Except.ok.injEq] at hprepare'
  exact hprepare'.1

theorem accepted_afterOrder (cfg : ClientConfig floats) (order : SignedOrder) {net : Net}
    (hnet : net.accepted = none) :
    (Accepts x cfg order ∧ (afterOrder x cfg order net).accepted = some (x.hashOf order)) ∨
    (¬ Accepts x cfg order ∧ (afterOrder x cfg order net).accepted = none) := by
  rw [afterOrder, Accepts]
  by_cases haccepted : acceptedIn (x.attempts (.createOrder order)) cfg.retryAttempts 0 = true
  · rw [if_pos haccepted]
    exact Or.inl ⟨haccepted, rfl⟩
  · rw [if_neg haccepted]
    exact Or.inr ⟨haccepted, hnet⟩

/-- A buy that stops before an order is sent changes nothing. -/
theorem buy_cases (req : BuyRequest) (file : PositionsFile) :
    ((∀ prepared, ¬ Sends x svc req prepared) ∧ (buy x svc req file).net.accepted = none ∧
      (buy x svc req file).file = file) ∨
    ∃ prepared net', Sends x svc req prepared ∧ net'.accepted = none ∧
      place x svc req Net.start
        = (submitAnswer x svc prepared, afterOrder x svc.client prepared.order net') := by
  have hkept : (prepare x svc req Net.start).2.accepted = none := keeps_prepare req Net.start
  cases hprepare : prepare x svc req Net.start with
  | mk result net =>
      rw [hprepare] at hkept
      cases result with
      | error failure =>
          -- refused before anything is sent
          refine Or.inl ⟨?_, by rw [buy_of_place_error (Api.bind_error hprepare)]; exact ⟨hkept, rfl⟩⟩
          rintro prepared ⟨_, _, _, hok, _⟩
          rw [hprepare] at hok
          cases hok
      | ok prepared =>
          have hplace := Api.bind_ok (f := submit x svc) hprepare
          have hkept₁ : (getJwt x svc.client net).2.accepted = none :=
            (keeps_getJwt net).trans hkept
          cases hjwt : getJwt x svc.client net with
          | mk token net₁ =>
              rw [hjwt] at hkept₁
              cases token with
              | error failure =>
                  -- no token, so the order is not sent either
                  rw [submit_error hjwt] at hplace
                  refine Or.inl ⟨?_, by rw [buy_of_place_error hplace]; exact ⟨hkept₁, rfl⟩⟩
                  rintro prepared' ⟨net', token, net'', hok, hsent⟩
                  rw [hprepare, Prod.mk.injEq] at hok
                  rw [← hok.2, hjwt] at hsent
                  cases hsent
              | ok token =>
                  rw [submit_ok hjwt] at hplace
                  exact Or.inr ⟨prepared, net₁, ⟨net, token, net₁, hprepare, hjwt⟩, hkept₁, hplace⟩

/-- Where an answer is missing nothing is written, so nothing may have been accepted. -/
theorem tracks_lost_iff {file : PositionsFile} {order : SignedOrder} {net : Net}
    (hnet : net.accepted = none) (hnew : ¬ Tracked (x.hashOf order) file) (failure : Failure) :
    Tracks file { result := .error failure, net := afterOrder x svc.client order net, file } ↔
      ¬ Accepts x svc.client order := by
  rcases accepted_afterOrder (x := x) svc.client order hnet with
    ⟨haccepts, haccepted⟩ | ⟨hrefuses, haccepted⟩
  · constructor
    · intro htracks
      exact absurd (htracks.recorded _ haccepted) hnew
    · intro hrefuses
      exact absurd haccepts hrefuses
  · refine ⟨fun _ => hrefuses, fun _ => ⟨fun hash hhash => ?_, fun _ => rfl⟩⟩
    have hnone : some hash = none := hhash.symm.trans haccepted
    cases hnone

/-- Where every answer can be read the accepted order is written down. -/
theorem tracks_placed (hhonest : Honest x svc.client) {req : BuyRequest} {prepared : Prepared}
    {net : Net} {placed : Placed floats} {position : LocalPosition}
    (h : submitAnswer x svc prepared = .ok placed)
    (hrecord : recordOf svc req placed = .ok position) (file : PositionsFile) :
    Tracks file
      { result := .ok (resultOf svc req placed)
        net := afterOrder x svc.client prepared.order net
        file := file.upsert position } := by
  obtain ⟨_, created, hcreated, hhash⟩ := of_submitAnswer h
  have haccepted := accepted_of_answer hhonest hcreated net
  obtain ⟨entryPrice, notionalUsdt, _, _, rfl⟩ := recordOf_ok hrecord
  constructor
  · intro hash hsome
    refine ⟨positionOf svc req placed entryPrice notionalUsdt, mem_upsertInto _ _, ?_⟩
    have hsame : some (x.hashOf prepared.order) = some hash := haccepted.symm.trans hsome
    rw [Option.some.injEq] at hsame
    rw [← hsame, ← hhonest.hash prepared.order created hcreated, ← hhash]
    rfl
  · intro hnone
    have hsame : some (x.hashOf prepared.order) = none := haccepted.symm.trans hnone
    cases hsame

/-- **An accepted order is tracked exactly where the exchange answers it, and every poll for it,
    readably, and the record can be written**; where no order is accepted the file stays as it
    is. -/
theorem tracks_iff (hhonest : Honest x svc.client) (req : BuyRequest) (file : PositionsFile)
    (hnew : ∀ prepared, Sends x svc req prepared → ¬ Tracked (x.hashOf prepared.order) file) :
    Tracks file (buy x svc req file) ↔
      ∀ prepared, Sends x svc req prepared → Accepts x svc.client prepared.order →
        Answered x svc prepared.order ∧ Writable svc req prepared.amounts := by
  rcases buy_cases (x := x) req file with
    ⟨hunsent, hnone, hfile⟩ | ⟨prepared, net, hsent, hnet, hplace⟩
  · refine ⟨fun _ prepared hsends => absurd hsends (hunsent prepared), fun _ =>
      ⟨?_, fun _ => hfile⟩⟩
    intro hash hhash
    rw [hnone] at hhash
    cases hhash
  -- only one order can be sent
  have honly : (∀ prepared', Sends x svc req prepared' → Accepts x svc.client prepared'.order →
      Answered x svc prepared'.order ∧ Writable svc req prepared'.amounts) ↔
      (Accepts x svc.client prepared.order →
        Answered x svc prepared.order ∧ Writable svc req prepared.amounts) :=
    ⟨fun h => h prepared hsent, fun h prepared' hsends => hsent.unique hsends ▸ h⟩
  have hlost : ∀ failure, ¬ (Answered x svc prepared.order ∧ Writable svc req prepared.amounts) →
      (Tracks file
          { result := .error failure, net := afterOrder x svc.client prepared.order net, file } ↔
        (Accepts x svc.client prepared.order →
          Answered x svc prepared.order ∧ Writable svc req prepared.amounts)) := by
    intro failure hnot
    rw [tracks_lost_iff hnet (hnew prepared hsent)]
    exact ⟨fun hrefuses haccepts => absurd haccepts hrefuses, fun h haccepts => hnot (h haccepts)⟩
  rw [honly]
  cases hanswer : submitAnswer x svc prepared with
  | error failure =>
      rw [hanswer] at hplace
      rw [buy_of_place_error hplace file]
      refine hlost failure fun h => ?_
      obtain ⟨placed, hok⟩ := (submitAnswer_ok_iff prepared).mpr h.1
      rw [hanswer] at hok
      cases hok
  | ok placed =>
      have hanswered := (submitAnswer_ok_iff prepared).mp ⟨placed, hanswer⟩
      obtain ⟨hprepared, _⟩ := of_submitAnswer hanswer
      rw [hanswer] at hplace
      by_cases hwritable : Writable svc req prepared.amounts
      · obtain ⟨position, hrecord⟩ := (recordOf_ok_iff req placed).mpr (hprepared ▸ hwritable)
        rw [buy_of_place_ok hplace hrecord file]
        exact ⟨fun _ _ => ⟨hanswered, hwritable⟩, fun _ => tracks_placed hhonest hanswer hrecord file⟩
      · obtain ⟨failure, hbuy⟩ := buy_of_unwritable hplace (hprepared ▸ hwritable) file
        rw [hbuy]
        exact hlost failure fun h => hwritable h.2

/-! ## A small exchange -/

/-- A builder for limit orders, which gives each of them the hash. -/
def smallBuilder (hash : Text) : OrderBuilder where
  walkAsks := fromFirst
  getLimitOrderAmounts price quantity := some
    { makerAmount := (price * quantity / 10 ^ 18).toNat
      takerAmount := quantity.toNat
      pricePerShare := price.toNat }
  signOrder _ input _ _ := some
    { tokenId := input.tokenId
      makerAmount := input.makerAmount
      takerAmount := input.takerAmount
      feeRateBps := input.feeRateBps
      hash := some hash
      typedDataHash := none }

def smallMarket : MarketRecord where
  title := none
  question := none
  feeRateBps := none
  isNegRisk := none
  isYieldBearing := none
  outcomes := some [{ name := some YesNo.yes.label, tokenId := some ['7'], onChainId := none }]

def smallService (hash : Text) : Service nanFloats where
  client :=
    { retryAttempts := 3
      canAuthenticate := true
      signs := fun _ => true
      marketIdFits := fun _ => true }
  walletMode := .eoa
  hasMandatedConfigInput := false
  wallet :=
    { builder := some (smallBuilder hash)
      fundingAddress := []
      signerAddress := []
      usdtBalanceWei := none }
  mcp := plainMcp
  letters := asciiLetters
  digits := Amounts.asciiDigits
  validateMarket _ := some smallMarket
  validateOrderbook _ := none
  str _ := []
  now := []

/-- An answer that is no error. -/
def answered (members : List (Text × Value nanFloats.Float)) (accepts : Bool) :
    Attempt nanFloats where
  reply := .response 200 (some (.obj members))
  accepts := accepts

/-- It accepts every order, and replies to every poll in the one way. -/
def smallExchange (hash : Text) (poll : Reply nanFloats) : Exchange nanFloats where
  attempts call _ := match call with
    | .authMessage => answered [(messageKeyText, .str ['m'])] false
    | .auth => answered [(['t', 'o', 'k', 'e', 'n'], .str ['t'])] false
    | .market _ => answered [] false
    | .orderbook _ => answered [] false
    | .createOrder _ => answered [(hashKey, .str hash)] true
    | .getOrder _ _ => { reply := poll, accepts := false }
  hashOf _ := hash

/-- A limit order of ten for YES, at a half. -/
def tenYes : BuyRequest where
  marketId := ['1']
  outcomeLabel := YesNo.yes.label
  amountUsdt := ['1', '0']
  limitPrice := some (1 / 2)
  slippageBps := none

theorem parse_ten :
    Amounts.TradeService.parseAmountToWei (some Decimals.libraryBounds) Amounts.asciiDigits
      ['1', '0'] = .ok (10 * 10 ^ 18) := by decide +kernel

theorem amountInWei_tenYes (hash : Text) :
    amountInWei (smallService hash) tenYes.amountUsdt = .ok (10 * 10 ^ 18) :=
  congrArg (Except.mapError Failure.amount) parse_ten

theorem checkRequest_tenYes (hash : Text) :
    checkRequest (smallService hash) tenYes = .ok (smallBuilder hash, 10 * 10 ^ 18) := by
  have hpos : ¬ (10 * 10 ^ 18 : Int) ≤ 0 := by decide
  rw [checkRequest, amountInWei_tenYes]
  show (if (10 * 10 ^ 18 : Int) ≤ 0 then Except.error Failure.amountNotPositive
    else .ok (smallBuilder hash, (10 * 10 ^ 18 : Int))) = _
  rw [if_neg hpos]

theorem orderAmounts_tenYes (hash : Text) (poll : Reply nanFloats) (net : Net) :
    orderAmounts (smallExchange hash poll) (smallService hash) (smallBuilder hash) tenYes
        (10 * 10 ^ 18) net
      = (.ok { makerAmount := 5 * 10 ^ 18, takerAmount := 10 * 10 ^ 18,
               pricePerShare := 5 * 10 ^ 17 }, net) := by
  have hprice : truncate (1 / 2 * 10 ^ 18) = 5 * 10 ^ 17 := by
    simp only [truncate]
    norm_num
  show (ofOption Failure.sdk
    ((smallBuilder hash).getLimitOrderAmounts (truncate (1 / 2 * 10 ^ 18)) _), net) = _
  rw [hprice]
  rfl

/-- The order that is signed. -/
def preparedYes (hash : Text) : Prepared where
  market := smallMarket
  outcome := { label := YesNo.yes.label, tokenId := ['7'] }
  strategy := .limit
  amounts :=
    { makerAmount := 5 * 10 ^ 18, takerAmount := 10 * 10 ^ 18, pricePerShare := 5 * 10 ^ 17 }
  order :=
    { tokenId := ['7']
      makerAmount := 5 * 10 ^ 18
      takerAmount := 10 * 10 ^ 18
      feeRateBps := 0
      hash := some hash
      typedDataHash := none }

theorem prepare_tenYes (hash : Text) (poll : Reply nanFloats) :
    prepare (smallExchange hash poll) (smallService hash) tenYes Net.start
      = (.ok (preparedYes hash), Net.start) := by
  have hcheck : Api.ofExcept (checkRequest (smallService hash) tenYes) Net.start
      = (.ok (smallBuilder hash, 10 * 10 ^ 18), Net.start) := by
    rw [Api.ofExcept, checkRequest_tenYes]
  have hmarket : getMarket (smallExchange hash poll) (smallService hash) tenYes.marketId Net.start
      = (.ok smallMarket, Net.start) := rfl
  have houtcome : Api.ofExcept (resolveOutcome (smallService hash).letters tenYes.outcomeLabel
      (smallMarket.outcomes.getD [])) Net.start = (.ok (preparedYes hash).outcome, Net.start) := rfl
  have hdigits : Api.ofExcept (checkDigits [5 * 10 ^ 18, 10 * 10 ^ 18]) Net.start
      = (.ok (), Net.start) := rfl
  rw [prepare, Api.bind_ok hcheck, Api.bind_ok hmarket, Api.bind_ok houtcome,
    Api.bind_ok (orderAmounts_tenYes hash poll Net.start), Api.bind_ok hdigits]
  rfl

/-- Up to the record: what the replies to the order and the polls come to. -/
theorem place_tenYes (hash : Text) (poll : Reply nanFloats) :
    place (smallExchange hash poll) (smallService hash) tenYes Net.start
      = (submitAnswer (smallExchange hash poll) (smallService hash) (preparedYes hash),
          { jwt := some ['t'], accepted := some hash }) := by
  have hjwt : getJwt (smallExchange hash poll) (smallService hash).client Net.start
      = (.ok ['t'], { jwt := some ['t'], accepted := none }) := rfl
  have hplace := Api.bind_ok (f := submit (smallExchange hash poll) (smallService hash))
    (prepare_tenYes hash poll)
  rw [submit_ok hjwt] at hplace
  exact hplace

/-- Ten USDT, at a half. -/
theorem recordOf_tenYes {hash : Text} {placed : Placed nanFloats}
    (h : placed.prepared = preparedYes hash) :
    recordOf (smallService hash) tenYes placed
      = .ok (positionOf (smallService hash) tenYes placed (1 / 2) (some 10)) := by
  have hprice : Doubles.shown (((5 * 10 ^ 18 : ℕ) : ℚ) / (10 * 10 ^ 18 : ℕ)) = some (1 / 2) := by
    decide +kernel
  have hamount : Decimals.floatOf Amounts.asciiDigits ['1', '0'] = some (some 10) := by
    decide +kernel
  have hquotient : entryPriceOf (preparedYes hash).amounts = .ok (1 / 2) := by
    have htaker : ¬ (preparedYes hash).amounts.takerAmount = 0 := by
      show ¬ 10 * 10 ^ 18 = 0
      decide
    rw [entryPriceOf, if_neg htaker]
    exact congrArg (ofOption Failure.priceTooLarge) hprice
  have hnotional : ofOption .amountNotFloat
      (Decimals.floatOf (smallService hash).digits tenYes.amountUsdt) = .ok (some 10) :=
    congrArg (ofOption Failure.amountNotFloat) hamount
  rw [recordOf, h, hquotient, hnotional]
  rfl

/-! ## An exchange that cannot be asked -/

def lostHash : Text := ['0', 'x', '1']

/-- It accepts every order, and cannot be reached when it is asked for one. -/
def lostPoll : Exchange nanFloats := smallExchange lostHash .transportError

theorem honest_lostPoll : Honest lostPoll (smallService lostHash).client where
  processes _ n _ := ⟨n, le_rfl, rfl⟩
  hash order created h := by
    have hanswer : orderAnswer lostPoll (smallService lostHash).client (.createOrder order) = .ok
        { hash := some lostHash, status := none, members := [(hashKey, .str lostHash)] } := rfl
    rw [hanswer, Except.ok.injEq] at h
    rw [← h]
    rfl

theorem tracks_iff_lostPoll :
    Tracks .absent (buy lostPoll (smallService lostHash) tenYes .absent) ↔
      ∀ prepared, Sends lostPoll (smallService lostHash) tenYes prepared →
        Accepts lostPoll (smallService lostHash).client prepared.order →
        Answered lostPoll (smallService lostHash) prepared.order ∧
          Writable (smallService lostHash) tenYes prepared.amounts :=
  tracks_iff honest_lostPoll tenYes .absent fun _ _ => not_tracked_absent _

/-- The order is accepted, the first poll raises, and nothing is written down. -/
theorem not_tracks_lostPoll :
    ¬ ∀ (x : Exchange nanFloats) (svc : Service nanFloats) (req : BuyRequest)
      (file : PositionsFile), Honest x svc.client →
      (∀ prepared, Sends x svc req prepared → ¬ Tracked (x.hashOf prepared.order) file) →
      Tracks file (buy x svc req file) := by
  intro htracks
  have hbuy : buy lostPoll (smallService lostHash) tenYes .absent = _ :=
    buy_of_place_error (place_tenYes lostHash .transportError) .absent
  have htracked := (htracks lostPoll (smallService lostHash) tenYes .absent honest_lostPoll
    (fun _ _ htracked => not_tracked_absent _ htracked)).recorded lostHash
  rw [hbuy] at htracked
  exact not_tracked_absent _ (htracked rfl)

end Predict
