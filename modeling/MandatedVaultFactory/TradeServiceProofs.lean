import MandatedVaultFactory.ApiClientProofs
import MandatedVaultFactory.FloatTextProofs
import MandatedVaultFactory.FundingProofs
import MandatedVaultFactory.JsonDumpsProofs
import MandatedVaultFactory.PositionStorageProofs

/-!
# Buying

`TradeService.buy` outside the fixture environment: the amounts are computed, the order is
signed and sent, the exchange is asked up to fifteen times what became of it, and only then is
the position written down.  In the fixture environment it is written down at once.

* **`buy`** — the whole of it; `place` is what happens before the record is written.
* **`recordOf_ok_iff`** — when there is a record to write.
* **`submit_ok`** — how sending and polling end, from the replies of the exchange alone.
* **`buy_ok`** — what a buy that returns has written. -/

namespace Predict

open Texts Json

/-! ## What a buy works with -/

inductive WalletMode where
  | readOnly | eoa | predictAccount | mandatedVault
deriving DecidableEq

structure OutcomeRecord where
  name : Option Text
  tokenId : Option Text
  onChainId : Option Text

structure MarketRecord where
  title : Option Text
  question : Option Text
  feeRateBps : Option Int
  isNegRisk : Option Bool
  isYieldBearing : Option Bool
  outcomes : Option (List OutcomeRecord)

structure ResolvedOutcome where
  label : Text
  tokenId : Text

inductive Strategy where
  | limit | market

def Strategy.text : Strategy → Text
  | .limit => ['L', 'I', 'M', 'I', 'T']
  | .market => ['M', 'A', 'R', 'K', 'E', 'T']

/-- `BuildOrderInput` of a buy. -/
structure BuildOrderInput where
  tokenId : Text
  makerAmount : Nat
  takerAmount : Nat
  feeRateBps : Int

/-- The order builder of the SDK; it raises where there is `none`. -/
structure OrderBuilder where
  walkAsks : WalkAsks
  getLimitOrderAmounts : Int → Int → Option OrderAmounts
  /-- `build_order`, `build_typed_data` and `sign_typed_data_order`, with the hash of
      `build_typed_data_hash` where the builder has it. -/
  signOrder : Strategy → BuildOrderInput → Bool → Bool → Option SignedOrder

/-- The wallet: its builder, where it has one, and its balance, where it reports one. -/
structure Wallet where
  builder : Option OrderBuilder
  fundingAddress : Text
  signerAddress : Text
  usdtBalanceWei : Option Int

/-- What the service is set up with. -/
structure Service (floats : Floats) where
  client : ClientConfig floats
  walletMode : WalletMode
  hasMandatedConfigInput : Bool
  wallet : Wallet
  mcp : Mcp
  letters : Letters
  digits : Decimals.UnicodeDigits
  /-- `MarketRecord.model_validate` and `OrderBookRecord.model_validate`. -/
  validateMarket : List (Text × Value floats.Float) → Option MarketRecord
  validateOrderbook : List (Text × Value floats.Float) → Option OrderBookRecord
  /-- `str` of what JSON holds. -/
  str : Value floats.Float → Text
  /-- The time that a record is written at. -/
  now : Text

/-- The arguments of `buy`. -/
structure BuyRequest where
  marketId : Text
  outcomeLabel : Text
  amountUsdt : Text
  limitPrice : Option ℚ
  slippageBps : Option Int

variable {floats : Floats}

/-! ## Preparing the order -/

/-- `int(x)`, towards zero. -/
def truncate (x : ℚ) : Int := if 0 ≤ x then ⌊x⌋ else ⌈x⌉

/-- The amount in wei. -/
def amountInWei (svc : Service floats) (amountUsdt : Text) : Except Failure Int :=
  (Amounts.TradeService.parseAmountToWei (some Decimals.libraryBounds) svc.digits
    amountUsdt).mapError Failure.amount

/-- `str` of integers raises for one with more than 4300 digits. -/
def checkDigits (amounts : List Nat) : Except Failure Unit :=
  if amounts.all fun n => (decimal n).length ≤ 4300 then .ok () else .error .digitsExceeded

/-- `a or b`, of strings. -/
def orText (a b : Option Text) : Option Text :=
  match a with
  | some (c :: t) => some (c :: t)
  | _ => b

/-- `resolve_outcome`: the first outcome with the name. -/
def resolveOutcome (letters : Letters) (label : Text) :
    List OutcomeRecord → Except Failure ResolvedOutcome
  | [] => .error .outcomeNotAvailable
  | outcome :: rest =>
      if letters.upper (outcome.name.getD []) = letters.upper label then
        match orText outcome.tokenId outcome.onChainId with
        | some (c :: t) => .ok { label := letters.upper label, tokenId := c :: t }
        | _ => .error .outcomeWithoutToken
      else resolveOutcome letters label rest

/-- `_has_predict_account_overlay`. -/
def Service.hasPredictAccountOverlay (svc : Service floats) : Bool :=
  svc.walletMode = .predictAccount && svc.hasMandatedConfigInput

def ofOption {α : Type} (failure : Failure) (a : Option α) : Except Failure α :=
  match a with
  | none => .error failure
  | some a => .ok a

def overlayFailure : OverlayError → Failure
  | .orchestration => .fundingOrchestration
  | .fundingRequired _ => .fundingRequired

/-- The overlay of `buy`: with it the account has to cover the amount. -/
def Service.overlay (svc : Service floats) (amountWei : Int) : Except Failure Unit :=
  if svc.hasPredictAccountOverlay then do
    let usdtBalance ← ofOption .noUsdtBalance svc.wallet.usdtBalanceWei
    (overlayGate svc.mcp usdtBalance amountWei).mapError overlayFailure
  else .ok ()

/-- `get_market`. -/
def getMarket (x : Exchange floats) (svc : Service floats) (marketId : Text) :
    Api MarketRecord := do
  let payload ← requestJson x svc.client (.market marketId)
  Api.ofExcept (ofOption .invalidRecord
    (svc.validateMarket (extractObject payload [marketKey, dataKey])))

/-- `get_orderbook`. -/
def getOrderbook (x : Exchange floats) (svc : Service floats) (marketId : Text) :
    Api OrderBookRecord := do
  let payload ← requestJson x svc.client (.orderbook marketId)
  Api.ofExcept (ofOption .invalidRecord
    (svc.validateOrderbook (extractObject payload [bookKey, dataKey])))

/-- The amounts of the order, by its strategy. -/
def orderAmounts (x : Exchange floats) (svc : Service floats) (builder : OrderBuilder)
    (req : BuyRequest) (amountWei : Int) : Api OrderAmounts :=
  match req.limitPrice with
  | some price =>
      Api.ofExcept (ofOption .sdk
        (builder.getLimitOrderAmounts (truncate (price * 10 ^ 18)) amountWei))
  | none => do
      let orderbook ← getOrderbook x svc req.marketId
      Api.ofExcept (ofOption .sdk
        (marketOrderAmounts builder.walkAsks amountWei req.slippageBps orderbook))

/-- Everything that is known when the order has been signed. -/
structure Prepared where
  market : MarketRecord
  outcome : ResolvedOutcome
  strategy : Strategy
  amounts : OrderAmounts
  order : SignedOrder

def strategyOf (req : BuyRequest) : Strategy :=
  match req.limitPrice with
  | some _ => .limit
  | none => .market

/-- The checks of the arguments, before anything is asked. -/
def checkRequest (svc : Service floats) (req : BuyRequest) :
    Except Failure (OrderBuilder × Int) := do
  if svc.walletMode = .mandatedVault then .error .unsupportedWalletMode
  else
    let builder ← ofOption .noBuilder svc.wallet.builder
    let amountWei ← amountInWei svc req.amountUsdt
    if amountWei ≤ 0 then .error .amountNotPositive
    else
      svc.overlay amountWei
      return (builder, amountWei)

/-- `buy` up to the signed order. -/
def prepare (x : Exchange floats) (svc : Service floats) (req : BuyRequest) : Api Prepared := do
  let checked ← Api.ofExcept (checkRequest svc req)
  let market ← getMarket x svc req.marketId
  let outcome ← Api.ofExcept
    (resolveOutcome svc.letters req.outcomeLabel (market.outcomes.getD []))
  let amounts ← orderAmounts x svc checked.1 req checked.2
  Api.ofExcept (checkDigits [amounts.makerAmount, amounts.takerAmount])
  let order ← Api.ofExcept (ofOption .sdk
    (checked.1.signOrder (strategyOf req)
      { tokenId := outcome.tokenId
        makerAmount := amounts.makerAmount
        takerAmount := amounts.takerAmount
        feeRateBps := market.feeRateBps.getD 0 }
      (market.isNegRisk.getD false) (market.isYieldBearing.getD false)))
  Api.ofExcept (checkDigits [amounts.pricePerShare])
  return { market, outcome, strategy := strategyOf req, amounts, order }

/-! ## Sending it, and asking for it -/

/-- The hash in the payload, put there where the signed order has none. -/
def payloadHash (order : SignedOrder) : Option Text :=
  match orText order.hash none, order.typedDataHash with
  | none, some hash => some hash
  | _, _ => order.hash

/-- `created.hash or signed_order_payload.get("hash") or signed_order.hash or ""`. -/
def orderHash (created : OrderRecord floats) (order : SignedOrder) : Text :=
  (orText created.hash (orText (payloadHash order) (orText order.hash none))).getD []

def filledText : Text := ['F', 'I', 'L', 'L', 'E', 'D']
def openText : Text := ['O', 'P', 'E', 'N']

/-- `(polled.status or "").upper() in {"FILLED", "OPEN"}`. -/
def settled (letters : Letters) (polled : OrderRecord floats) : Bool :=
  let status := letters.upper (polled.status.getD [])
  status = filledText || status = openText

/-- The polls that are left. -/
def pollOrder (x : Exchange floats) (svc : Service floats) (hash : Text) :
    Nat → Nat → OrderRecord floats → Api (OrderRecord floats)
  | 0, _, polled => pure polled
  | left + 1, poll, _ => do
      let polled ← getOrder x svc.client hash poll
      if settled svc.letters polled then pure polled
      else pollOrder x svc hash left (poll + 1) polled

/-- What is known when the exchange has been asked for the last time. -/
structure Placed (floats : Floats) where
  prepared : Prepared
  created : OrderRecord floats
  hash : Text
  polled : OrderRecord floats

/-- An order without a hash is not asked for. -/
def pollHash (x : Exchange floats) (svc : Service floats) (hash : Text)
    (created : OrderRecord floats) : Api (OrderRecord floats) :=
  if hash = [] then pure created else pollOrder x svc hash 15 0 created

/-- `buy` from the signed order up to the record. -/
def submit (x : Exchange floats) (svc : Service floats) (prepared : Prepared) :
    Api (Placed floats) := do
  let created ← createOrder x svc.client prepared.order
  let hash := orderHash created prepared.order
  let polled ← pollHash x svc hash created
  return { prepared, created, hash, polled }

/-- `buy` up to the record. -/
def place (x : Exchange floats) (svc : Service floats) (req : BuyRequest) :
    Api (Placed floats) := do
  submit x svc (← prepare x svc req)

/-! ## Writing it down -/

def fillAmountKeys : List Text :=
  [['f', 'i', 'l', 'l', 'A', 'm', 'o', 'u', 'n', 't'],
    ['f', 'i', 'l', 'l', 'e', 'd', 'A', 'm', 'o', 'u', 'n', 't'],
    ['m', 'a', 't', 'c', 'h', 'e', 'd', 'A', 'm', 'o', 'u', 'n', 't']]

/-- `_extract_fill_amount`. -/
def extractFillAmount (str : Value floats.Float → Text) (order : OrderRecord floats) :
    Option Text :=
  fillAmountKeys.findSome? fun key =>
    match get key order.members with
    | none | some .null => none
    | some v => some (str v)

/-- A string in a JSON text. -/
def quoted (t : Text) : Text := '"' :: strText (ofStr t)

/-- `_overlay_position_notes`. -/
def overlayPositionNotes (wallet : Wallet) : Text :=
  "\x7b\"fundingRoute\":\"vault-to-predict-account\",\"predictAccountAddress\":".toList
    ++ quoted wallet.fundingAddress ++ ",\"tradeSignerAddress\":".toList
    ++ quoted wallet.signerAddress ++ ",\"overlayActive\":true\x7d".toList

/-- `f"pos-{market_id}-{outcome.lower()}"`. -/
def positionId (letters : Letters) (marketId outcome : Text) : Text :=
  ['p', 'o', 's', '-'] ++ marketId ++ ['-'] ++ letters.lower outcome

/-- `(polled.status or created.status or "OPEN").upper()`. -/
def statusOf (svc : Service floats) (placed : Placed floats) : Text :=
  svc.letters.upper
    ((orText placed.polled.status (orText placed.created.status none)).getD openText)

/-- `maker_amount / taker_amount`, of integers; it raises where the quotient is too large. -/
def entryPriceOf (amounts : OrderAmounts) : Except Failure ℚ :=
  if amounts.takerAmount = 0 then .ok 0
  else ofOption .priceTooLarge (Doubles.shown (amounts.makerAmount / amounts.takerAmount))

/-- The record of `_persist_local_position`. -/
def positionOf (svc : Service floats) (req : BuyRequest) (placed : Placed floats) (entryPrice : ℚ)
    (notionalUsdt : Option ℚ) : LocalPosition where
  positionId := positionId svc.letters req.marketId placed.prepared.outcome.label
  marketId := req.marketId
  question :=
    (orText placed.prepared.market.question (orText placed.prepared.market.title none)).getD []
  outcomeName := placed.prepared.outcome.label
  tokenId := placed.prepared.outcome.tokenId
  side := ['B', 'U', 'Y']
  strategy := placed.prepared.strategy.text
  entryTime := svc.now
  entryPrice := entryPrice
  quantity := decimal placed.prepared.amounts.takerAmount
  notionalUsdt := notionalUsdt
  orderHash := placed.hash
  orderStatus := statusOf svc placed
  fillAmount := extractFillAmount svc.str placed.polled
  feeRateBps := placed.prepared.market.feeRateBps.getD 0
  source := ['t', 'r', 'a', 'c', 'k', 'e', 'd']
  notes := if svc.hasPredictAccountOverlay then some (overlayPositionNotes svc.wallet) else none
  status := openText

/-- The record, with its two numbers: the price is computed before the amount is read again. -/
def recordOf (svc : Service floats) (req : BuyRequest) (placed : Placed floats) :
    Except Failure LocalPosition := do
  let entryPrice ← entryPriceOf placed.prepared.amounts
  let notionalUsdt ← ofOption .amountNotFloat (Decimals.floatOf svc.digits req.amountUsdt)
  return positionOf svc req placed entryPrice notionalUsdt

/-- `TradeResult`. -/
structure TradeResult where
  marketId : Text
  outcome : Text
  strategy : Text
  orderHash : Text
  status : Text
  fillAmount : Option Text
  tokenId : Text
  makerAmount : Nat
  takerAmount : Nat

def resultOf (svc : Service floats) (req : BuyRequest) (placed : Placed floats) :
    TradeResult where
  marketId := req.marketId
  outcome := placed.prepared.outcome.label
  strategy := placed.prepared.strategy.text
  orderHash := placed.hash
  status := statusOf svc placed
  fillAmount := extractFillAmount svc.str placed.polled
  tokenId := placed.prepared.outcome.tokenId
  makerAmount := placed.prepared.amounts.makerAmount
  takerAmount := placed.prepared.amounts.takerAmount

/-- How a buy ends: what it returns or raises, what the exchange has done, and the file of the
    positions. -/
structure Bought where
  result : Except Failure TradeResult
  net : Net
  file : PositionsFile

/-- At the start of a buy there is no token, and no order of it has been accepted. -/
def Net.start : Net where
  jwt := none
  accepted := none

/-- **`buy`**: the record is written last. -/
def buy (x : Exchange floats) (svc : Service floats) (req : BuyRequest) (file : PositionsFile) :
    Bought :=
  match place x svc req Net.start with
  | (.error failure, net) => { result := .error failure, net, file }
  | (.ok placed, net) =>
      match recordOf svc req placed with
      | .error failure => { result := .error failure, net, file }
      | .ok position =>
          { result := .ok (resultOf svc req placed), net, file := file.upsert position }

/-! ## In the fixture environment -/

/-- The record of a buy in the fixture environment: the order is filled, at a price of one. -/
def fixturePositionOf (svc : Service floats) (req : BuyRequest) (market : MarketRecord)
    (outcome : ResolvedOutcome) (amountWei : Nat) (notionalUsdt : Option ℚ) : LocalPosition where
  positionId := positionId svc.letters req.marketId outcome.label
  marketId := req.marketId
  question := (orText market.question (orText market.title none)).getD []
  outcomeName := outcome.label
  tokenId := outcome.tokenId
  side := ['B', 'U', 'Y']
  strategy := (strategyOf req).text
  entryTime := svc.now
  entryPrice := 1
  quantity := decimal amountWei
  notionalUsdt := notionalUsdt
  orderHash := "0xfixture-order".toList
  orderStatus := filledText
  fillAmount := some (decimal amountWei)
  feeRateBps := market.feeRateBps.getD 0
  source := ['t', 'r', 'a', 'c', 'k', 'e', 'd']
  notes := none
  status := openText

def fixtureResultOf (req : BuyRequest) (outcome : ResolvedOutcome) (amountWei : Nat) :
    TradeResult where
  marketId := req.marketId
  outcome := outcome.label
  strategy := (strategyOf req).text
  orderHash := "0xfixture-order".toList
  status := filledText
  fillAmount := some (decimal amountWei)
  tokenId := outcome.tokenId
  makerAmount := amountWei
  takerAmount := amountWei

/-- `_buy_fixture` up to the record, with the markets of the fixture; any amount will do. -/
def placeFixture (markets : Text → Option MarketRecord) (svc : Service floats) (req : BuyRequest) :
    Except Failure (TradeResult × LocalPosition) := do
  if svc.walletMode = .mandatedVault then .error .unsupportedWalletMode
  else
    let market ← ofOption .unknownMarket (markets req.marketId)
    let outcome ← resolveOutcome svc.letters req.outcomeLabel (market.outcomes.getD [])
    let amountWei ← amountInWei svc req.amountUsdt
    checkDigits [amountWei.toNat]
    let notionalUsdt ← ofOption .amountNotFloat (Decimals.floatOf svc.digits req.amountUsdt)
    return (fixtureResultOf req outcome amountWei.toNat,
      fixturePositionOf svc req market outcome amountWei.toNat notionalUsdt)

/-- `_buy_fixture`. -/
def buyFixture (markets : Text → Option MarketRecord) (svc : Service floats) (req : BuyRequest)
    (file : PositionsFile) : Except Failure TradeResult × PositionsFile :=
  match placeFixture markets svc req with
  | .error failure => (.error failure, file)
  | .ok (result, position) => (.ok result, file.upsert position)

/-! ## What it comes to -/

variable {x : Exchange floats} {svc : Service floats}

theorem keeps_getMarket (marketId : Text) : (getMarket x svc marketId).Keeps :=
  Api.Keeps.bind (keeps_requestJson (plain_market marketId)) fun _ => Api.keeps_ofExcept _

theorem keeps_orderAmounts (builder : OrderBuilder) (req : BuyRequest) (amountWei : Int) :
    (orderAmounts x svc builder req amountWei).Keeps := by
  rw [orderAmounts]
  cases req.limitPrice with
  | some price => exact Api.keeps_ofExcept _
  | none =>
      refine Api.Keeps.bind ?_ (fun orderbook => Api.keeps_ofExcept _)
      exact Api.Keeps.bind (keeps_requestJson (plain_orderbook req.marketId)) fun _ =>
        Api.keeps_ofExcept _

/-- Nothing is sent before the order is signed. -/
theorem keeps_prepare (req : BuyRequest) : (prepare x svc req).Keeps := by
  refine Api.Keeps.bind (Api.keeps_ofExcept _) (fun checked => ?_)
  refine Api.Keeps.bind (keeps_getMarket _) (fun market => ?_)
  refine Api.Keeps.bind (Api.keeps_ofExcept _) (fun outcome => ?_)
  refine Api.Keeps.bind (keeps_orderAmounts _ _ _) (fun amounts => ?_)
  refine Api.Keeps.bind (Api.keeps_ofExcept _) (fun _ => ?_)
  refine Api.Keeps.bind (Api.keeps_ofExcept _) (fun order => ?_)
  exact Api.Keeps.bind (Api.keeps_ofExcept _) fun _ => Api.keeps_pure _

/-- What the polls come to, from the replies alone. -/
def pollAnswer (x : Exchange floats) (svc : Service floats) (hash : Text) :
    Nat → Nat → OrderRecord floats → Except Failure (OrderRecord floats)
  | 0, _, polled => .ok polled
  | left + 1, poll, _ =>
      (orderAnswer x svc.client (.getOrder hash poll)).bind fun polled =>
        if settled svc.letters polled then .ok polled
        else pollAnswer x svc hash left (poll + 1) polled

/-- With a token polling changes nothing.  Induction on the polls that are left. -/
theorem pollOrder_eq (hcan : svc.client.canAuthenticate = true) {net : Net} {token : Text}
    (htoken : net.jwt = some token) (hash : Text) (left : Nat) :
    ∀ (poll : Nat) (polled : OrderRecord floats),
    pollOrder x svc hash left poll polled net = (pollAnswer x svc hash left poll polled, net) := by
  induction left with
  | zero =>
      intro poll polled
      rfl
  | succ left ih =>
      intro poll polled
      have hget := getOrder_eq hcan htoken hash poll (x := x)
      rw [pollOrder, pollAnswer]
      cases hanswer : orderAnswer x svc.client (.getOrder hash poll) with
      | error failure =>
          rw [hanswer] at hget
          exact Api.bind_error hget
      | ok answer =>
          rw [hanswer] at hget
          rw [Api.bind_ok hget, Except.bind]
          by_cases hsettled : settled svc.letters answer = true
          · rw [if_pos hsettled, if_pos hsettled]
            rfl
          · rw [if_neg hsettled, if_neg hsettled, ih]

/-- What sending and polling come to, from the replies alone. -/
def submitAnswer (x : Exchange floats) (svc : Service floats) (prepared : Prepared) :
    Except Failure (Placed floats) :=
  (orderAnswer x svc.client (.createOrder prepared.order)).bind fun created =>
    let hash := orderHash created prepared.order
    (if hash = [] then .ok created else pollAnswer x svc hash 15 0 created).map fun polled =>
      { prepared, created, hash, polled }

theorem submit_error {prepared : Prepared} {net net' : Net} {failure : Failure}
    (h : getJwt x svc.client net = (.error failure, net')) :
    submit x svc prepared net = (.error failure, net') :=
  Api.bind_error (createOrder_error h)

/-- **With a token, the replies say how sending and polling end**, and the attempts to send the
    order whether it is accepted. -/
theorem submit_ok {prepared : Prepared} {net net' : Net} {token : Text}
    (h : getJwt x svc.client net = (.ok token, net')) :
    submit x svc prepared net
      = (submitAnswer x svc prepared, afterOrder x svc.client prepared.order net') := by
  obtain ⟨hcan, hjwt⟩ := getJwt_ok h
  have hcreate : createOrder x svc.client prepared.order net
      = (orderAnswer x svc.client (.createOrder prepared.order),
          afterOrder x svc.client prepared.order net') := createOrder_ok h
  have hjwt' : (afterOrder x svc.client prepared.order net').jwt = some token := by
    rw [afterOrder]
    by_cases haccepted :
        acceptedIn (x.attempts (.createOrder prepared.order)) svc.client.retryAttempts 0 = true
    · rw [if_pos haccepted]
      exact hjwt
    · rw [if_neg haccepted]
      exact hjwt
  rw [submit, submitAnswer]
  cases hanswer : orderAnswer x svc.client (.createOrder prepared.order) with
  | error failure =>
      rw [hanswer] at hcreate
      exact Api.bind_error hcreate
  | ok created =>
      rw [hanswer] at hcreate
      rw [Api.bind_ok hcreate]
      simp only [Except.bind, pollHash]
      by_cases hnil : orderHash created prepared.order = []
      · rw [if_pos hnil, if_pos hnil]
        rfl
      · rw [if_neg hnil, if_neg hnil]
        have hpoll := pollOrder_eq (x := x) hcan hjwt' (orderHash created prepared.order) 15 0
          created
        cases hpolled : pollAnswer x svc (orderHash created prepared.order) 15 0 created with
        | error failure =>
            rw [hpolled] at hpoll
            exact Api.bind_error hpoll
        | ok polled =>
            rw [hpolled] at hpoll
            exact Api.bind_ok hpoll

/-! ## What a buy that returns has written -/

theorem of_ofExcept_ok {α : Type} {result : Except Failure α} {net net' : Net} {a : α}
    (h : Api.ofExcept result net = (.ok a, net')) : result = .ok a :=
  congrArg Prod.fst h

theorem of_ofOption_ok {α : Type} {failure : Failure} {o : Option α} {a : α}
    (h : ofOption failure o = .ok a) : o = some a := by
  cases o with
  | none => cases h
  | some b => exact congrArg some (Except.ok.inj h)

theorem checkRequest_ok {req : BuyRequest} {checked : OrderBuilder × Int}
    (h : checkRequest svc req = .ok checked) :
    svc.wallet.builder = some checked.1 ∧ amountInWei svc req.amountUsdt = .ok checked.2 ∧
      0 < checked.2 := by
  rw [checkRequest] at h
  by_cases hmode : svc.walletMode = .mandatedVault
  · rw [if_pos hmode] at h
    cases h
  rw [if_neg hmode] at h
  obtain ⟨builder, hbuilder, h⟩ := bind_ok_iff.mp h
  obtain ⟨amountWei, hwei, h⟩ := bind_ok_iff.mp h
  by_cases hle : amountWei ≤ 0
  · rw [if_pos hle] at h
    cases h
  · rw [if_neg hle] at h
    obtain ⟨_, _, h⟩ := bind_ok_iff.mp h
    cases h
    exact ⟨of_ofOption_ok hbuilder, hwei, not_le.mp hle⟩

/-- The outcome is the one that was asked for, in capitals. -/
theorem label_of_resolveOutcome {letters : Letters} {label : Text} {outcome : ResolvedOutcome}
    {outcomes : List OutcomeRecord} (h : resolveOutcome letters label outcomes = .ok outcome) :
    outcome.label = letters.upper label := by
  induction outcomes with
  | nil => cases h
  | cons first rest ih =>
      rw [resolveOutcome] at h
      by_cases hname : letters.upper (first.name.getD []) = letters.upper label
      · rw [if_pos hname] at h
        cases htoken : orText first.tokenId first.onChainId with
        | none =>
            rw [htoken] at h
            cases h
        | some token =>
            rw [htoken] at h
            cases token with
            | nil => cases h
            | cons c t =>
                cases h
                rfl
      · rw [if_neg hname] at h
        exact ih h

theorem prepare_ok {req : BuyRequest} {net net' : Net} {prepared : Prepared}
    (h : prepare x svc req net = (.ok prepared, net')) :
    prepared.outcome.label = svc.letters.upper req.outcomeLabel ∧
      ∃ amountWei, amountInWei svc req.amountUsdt = .ok amountWei := by
  obtain ⟨checked, net₁, hcheck, h⟩ := Api.of_bind_ok h
  obtain ⟨market, net₂, _, h⟩ := Api.of_bind_ok h
  obtain ⟨outcome, net₃, houtcome, h⟩ := Api.of_bind_ok h
  obtain ⟨amounts, net₄, _, h⟩ := Api.of_bind_ok h
  obtain ⟨_, net₅, _, h⟩ := Api.of_bind_ok h
  obtain ⟨order, net₆, _, h⟩ := Api.of_bind_ok h
  obtain ⟨_, net₇, _, h⟩ := Api.of_bind_ok h
  cases h
  exact ⟨label_of_resolveOutcome (of_ofExcept_ok houtcome), checked.2,
    (checkRequest_ok (of_ofExcept_ok hcheck)).2.1⟩

theorem submit_prepared {prepared : Prepared} {net net' : Net} {placed : Placed floats}
    (h : submit x svc prepared net = (.ok placed, net')) : placed.prepared = prepared := by
  obtain ⟨created, net₁, _, h⟩ := Api.of_bind_ok h
  obtain ⟨polled, net₂, _, h⟩ := Api.of_bind_ok h
  cases h
  rfl

/-- The two numbers of a record can be written: the quotient of the amounts is not beyond the
    doubles, and `float` reads the amount. -/
structure Writable (svc : Service floats) (req : BuyRequest) (amounts : OrderAmounts) : Prop where
  price : amounts.takerAmount ≠ 0 →
    ∃ d, Doubles.double (amounts.makerAmount / amounts.takerAmount) = some d
  amount : ∃ number, Decimals.readFloat svc.digits req.amountUsdt = some number

theorem entryPriceOf_ok_iff (amounts : OrderAmounts) :
    (∃ price, entryPriceOf amounts = .ok price) ↔ (amounts.takerAmount ≠ 0 →
      ∃ d, Doubles.double (amounts.makerAmount / amounts.takerAmount) = some d) := by
  rw [entryPriceOf, ← Doubles.shown_isSome_iff]
  by_cases htaker : amounts.takerAmount = 0
  · rw [if_pos htaker]
    exact ⟨fun _ hne => absurd htaker hne, fun _ => ⟨0, rfl⟩⟩
  rw [if_neg htaker]
  cases Doubles.shown (amounts.makerAmount / amounts.takerAmount) with
  | none => simp [ofOption, htaker]
  | some price => simp [ofOption]

/-- A record that is written has the price and the amount of the buy. -/
theorem recordOf_ok {req : BuyRequest} {placed : Placed floats} {position : LocalPosition}
    (h : recordOf svc req placed = .ok position) :
    ∃ entryPrice notionalUsdt, entryPriceOf placed.prepared.amounts = .ok entryPrice ∧
      Decimals.floatOf svc.digits req.amountUsdt = some notionalUsdt ∧
      position = positionOf svc req placed entryPrice notionalUsdt := by
  obtain ⟨entryPrice, hprice, h⟩ := bind_ok_iff.mp h
  obtain ⟨notionalUsdt, hamount, h⟩ := bind_ok_iff.mp h
  cases h
  exact ⟨entryPrice, notionalUsdt, hprice, of_ofOption_ok hamount, rfl⟩

/-- **When there is a record to write.** -/
theorem recordOf_ok_iff (req : BuyRequest) (placed : Placed floats) :
    (∃ position, recordOf svc req placed = .ok position) ↔
      Writable svc req placed.prepared.amounts := by
  constructor
  · rintro ⟨position, h⟩
    obtain ⟨entryPrice, notionalUsdt, hprice, hamount, _⟩ := recordOf_ok h
    obtain ⟨number, hnumber, _⟩ := Option.map_eq_some_iff.mp hamount
    exact ⟨(entryPriceOf_ok_iff _).mp ⟨entryPrice, hprice⟩, number, hnumber⟩
  · intro h
    obtain ⟨entryPrice, hprice⟩ := (entryPriceOf_ok_iff _).mpr h.price
    obtain ⟨number, hnumber⟩ := h.amount
    refine ⟨positionOf svc req placed entryPrice (number.bind Doubles.shown), ?_⟩
    rw [recordOf, hprice, Decimals.floatOf, hnumber]
    rfl

/-- **A buy that returns** has written the record of what it returns. -/
theorem buy_ok {req : BuyRequest} {file : PositionsFile} {result : TradeResult}
    (h : (buy x svc req file).result = .ok result) :
    ∃ (placed : Placed floats) (position : LocalPosition), result = resultOf svc req placed ∧
      recordOf svc req placed = .ok position ∧
      (buy x svc req file).file = file.upsert position ∧
      placed.prepared.outcome.label = svc.letters.upper req.outcomeLabel ∧
      ∃ amountWei, amountInWei svc req.amountUsdt = .ok amountWei := by
  rw [buy] at h ⊢
  cases hplace : place x svc req Net.start with
  | mk answer net =>
      rw [hplace] at h
      cases answer with
      | error failure => cases h
      | ok placed =>
          obtain ⟨prepared, net₁, hprepare, hsubmit⟩ := Api.of_bind_ok hplace
          have hprepared := submit_prepared hsubmit
          cases hrecord : recordOf svc req placed with
          | error failure =>
              simp only [hrecord] at h
              cases h
          | ok position =>
              simp only [hrecord] at h ⊢
              cases h
              exact ⟨placed, position, rfl, hrecord, rfl, hprepared ▸ prepare_ok hprepare⟩

/-- And so has a buy in the fixture environment. -/
theorem buyFixture_ok {markets : Text → Option MarketRecord} {req : BuyRequest}
    {file : PositionsFile} {result : TradeResult}
    (h : (buyFixture markets svc req file).1 = .ok result) :
    ∃ (market : MarketRecord) (outcome : ResolvedOutcome) (amountWei : Int)
      (notionalUsdt : Option ℚ), amountInWei svc req.amountUsdt = .ok amountWei ∧
      Decimals.floatOf svc.digits req.amountUsdt = some notionalUsdt ∧
      result = fixtureResultOf req outcome amountWei.toNat ∧
      (buyFixture markets svc req file).2
        = file.upsert (fixturePositionOf svc req market outcome amountWei.toNat notionalUsdt) ∧
      outcome.label = svc.letters.upper req.outcomeLabel := by
  rw [buyFixture] at h ⊢
  cases hplace : placeFixture markets svc req with
  | error failure =>
      rw [hplace] at h
      cases h
  | ok written =>
      rw [hplace] at h
      cases h
      rw [placeFixture] at hplace
      by_cases hmode : svc.walletMode = .mandatedVault
      · rw [if_pos hmode] at hplace
        cases hplace
      rw [if_neg hmode] at hplace
      obtain ⟨market, hmarket, hplace⟩ := bind_ok_iff.mp hplace
      obtain ⟨outcome, houtcome, hplace⟩ := bind_ok_iff.mp hplace
      obtain ⟨amountWei, hwei, hplace⟩ := bind_ok_iff.mp hplace
      obtain ⟨_, _, hplace⟩ := bind_ok_iff.mp hplace
      obtain ⟨notionalUsdt, hnotional, hplace⟩ := bind_ok_iff.mp hplace
      cases hplace
      refine ⟨market, outcome, amountWei, notionalUsdt, hwei, ?_, rfl, rfl,
        label_of_resolveOutcome houtcome⟩
      exact of_ofOption_ok hnotional

end Predict
