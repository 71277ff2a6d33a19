import MandatedVaultFactory.MergedPositionsProofs

/-!
# Orders that live, and positions that are open

What a buy writes down is open, whatever became of the order.

* **`polls`** — the answers of the polls that are made; the last one is what is written down.
* **`liveOnly_iff`** — a buy leaves an open position behind only of an order that can still hold
  shares, and stops asking when it cannot, exactly where no answer that counts says that the
  order has failed. -/

namespace Predict

open Texts Json

variable {floats : Floats}

/-! ## Polls -/

/-- An order with one of these can hold no shares any more. -/
def failureTexts : List Text :=
  ["REJECTED".toList, "CANCELLED".toList, "EXPIRED".toList, "FAILED".toList]

/-- A status that says so, in any letter case. -/
def terminalFailure (letters : Letters) (status : Text) : Bool :=
  failureTexts.contains (letters.upper status)

/-- The answers of the polls that are made, as far as they can be read. -/
def polls (x : Exchange floats) (svc : Service floats) (hash : Text) :
    Nat → Nat → List (OrderRecord floats)
  | 0, _ => []
  | left + 1, poll =>
      match orderAnswer x svc.client (.getOrder hash poll) with
      | .error _ => []
      | .ok answer =>
          answer :: if settled svc.letters answer then [] else polls x svc hash left (poll + 1)

/-- The polls for an order: none without a hash. -/
def pollsFor (x : Exchange floats) (svc : Service floats) (hash : Text) :
    List (OrderRecord floats) :=
  if hash = [] then [] else polls x svc hash 15 0

/-- The last status that is seen: that of the last poll, or of the order as it was created, and
    open where neither says one. -/
def lastStatus (created : OrderRecord floats) (answers : List (OrderRecord floats)) : Text :=
  (orText (answers.getLast?.getD created).status (orText created.status none)).getD openText

variable {x : Exchange floats} {svc : Service floats}

/-- Polling returns the last answer.  Induction on the polls that are left. -/
theorem pollAnswer_last (hash : Text) (left : Nat) :
    ∀ (poll : Nat) (polled answer : OrderRecord floats),
    pollAnswer x svc hash left poll polled = .ok answer →
    answer = (polls x svc hash left poll).getLast?.getD polled := by
  induction left with
  | zero =>
      intro poll polled answer h
      cases h
      rfl
  | succ left ih =>
      intro poll polled answer h
      rw [pollAnswer] at h
      rw [polls]
      cases hanswer : orderAnswer x svc.client (.getOrder hash poll) with
      | error failure =>
          rw [hanswer] at h
          cases h
      | ok first =>
          simp only [hanswer, Except.bind] at h
          by_cases hsettled : settled svc.letters first = true
          · rw [if_pos hsettled] at h
            cases h
            simp [hsettled]
          · rw [if_neg hsettled] at h
            have hlast := ih (poll + 1) first answer h
            simp only [hsettled]
            rw [hlast, List.getLast?_cons]
            rfl

/-- What is written down after the polls. -/
theorem placed_of_submitAnswer {prepared : Prepared} {placed : Placed floats}
    {created : OrderRecord floats}
    (hcreated : orderAnswer x svc.client (.createOrder prepared.order) = .ok created)
    (h : submitAnswer x svc prepared = .ok placed) :
    placed.prepared = prepared ∧ placed.created = created ∧
      placed.polled
        = (pollsFor x svc (orderHash created prepared.order)).getLast?.getD created := by
  simp only [submitAnswer, hcreated, Except.bind] at h
  rw [pollsFor]
  by_cases hnil : orderHash created prepared.order = []
  · rw [if_pos hnil] at h ⊢
    cases h
    exact ⟨rfl, rfl, rfl⟩
  · rw [if_neg hnil] at h ⊢
    cases hpolled : pollAnswer x svc (orderHash created prepared.order) 15 0 created with
    | error failure =>
        rw [hpolled] at h
        cases h
    | ok polled =>
        rw [hpolled] at h
        cases h
        exact ⟨rfl, rfl, pollAnswer_last _ 15 0 created polled hpolled⟩

/-! ## The record that is left behind -/

/-- `get_position` of the storage. -/
def PositionsFile.getPosition (file : PositionsFile) (positionId : Text) : Option LocalPosition :=
  file.listPositions.find? fun position => position.positionId = positionId

/-- What is written under an id is found there. -/
theorem getPosition_upsert (file : PositionsFile) (position : LocalPosition) :
    (file.upsert position).getPosition position.positionId = some position := by
  show (upsertInto position file.listPositions).find? _ = some position
  induction file.listPositions with
  | nil => simp [upsertInto]
  | cons existing rest ih =>
      rw [upsertInto]
      by_cases hid : existing.positionId = position.positionId
      · rw [if_pos hid]
        exact List.find?_cons_of_pos (decide_eq_true rfl)
      · rw [if_neg hid, List.find?_cons_of_neg (by simpa using hid)]
        exact ih

/-- The id under which a buy writes. -/
def BuyRequest.positionId (letters : Letters) (req : BuyRequest) : Text :=
  Predict.positionId letters req.marketId (letters.upper req.outcomeLabel)

/-- **Only live orders are open positions**: of an order whose last status says that it has
    failed no record is open and says a quantity, and none is listed as open unless the exchange
    itself reports the token; and nothing is asked after such a status. -/
structure LiveOnly (x : Exchange floats) (svc : Service floats) (req : BuyRequest)
    (order : SignedOrder) (created : OrderRecord floats) (file : PositionsFile) : Prop where
  stored : terminalFailure svc.letters
      (lastStatus created (pollsFor x svc (orderHash created order))) = true →
    ∀ position, file.getPosition (req.positionId svc.letters) = some position →
    ¬ (svc.letters.upper position.status = openText ∧
      0 < (readDecimal position.quantity).getD 0)
  unlisted : terminalFailure svc.letters
      (lastStatus created (pollsFor x svc (orderHash created order))) = true →
    ∀ position, file.getPosition (req.positionId svc.letters) = some position →
    ∀ detail remotes view, remoteByToken remotes position.tokenId = none →
    mergePosition svc.letters detail remotes position = some view →
    (View.tracked view).listed svc.letters = false
  stops : ∀ answer ∈ (pollsFor x svc (orderHash created order)).dropLast,
    terminalFailure svc.letters (answer.status.getD []) = false

/-- Neither the last status says that the order has failed, nor one that was asked past. -/
structure NoFailure (x : Exchange floats) (svc : Service floats) (order : SignedOrder)
    (created : OrderRecord floats) : Prop where
  last : terminalFailure svc.letters
    (lastStatus created (pollsFor x svc (orderHash created order))) = false
  earlier : ∀ answer ∈ (pollsFor x svc (orderHash created order)).dropLast,
    terminalFailure svc.letters (answer.status.getD []) = false

theorem remoteByToken_nil (token : Text) : remoteByToken [] token = none := by
  rw [remoteByToken]
  by_cases hempty : token = []
  · rw [if_pos hempty]
  · rw [if_neg hempty]
    rfl

/-- The view of a position that the exchange says nothing of. -/
theorem mergePosition_alone (letters : Letters) (market : MarketDetail) {position : LocalPosition}
    {quantity notional : ℚ} (hquantity : readDecimal position.quantity = some quantity)
    (hnotional : position.notionalUsdt = some notional) : ∃ view,
    mergePosition letters (fun _ => some market) [] position = some view ∧
      view.source = position.source ∧ view.status = letters.upper position.status := by
  simp only [mergePosition, remoteByToken_nil, Option.bind_some, Option.bind_none, Option.getD_none,
    computePnl, hquantity, hnotional, Option.map_some]
  exact ⟨_, rfl, rfl, rfl⟩

/-- A record of a buy is listed as open, whatever became of the order. -/
theorem listed_positionOf (hopen : svc.letters.upper openText = openText) (req : BuyRequest)
    (placed : Placed floats) (entryPrice notional : ℚ) : ∃ view,
    mergePosition svc.letters (fun _ => some (cheapYes, none)) []
      (positionOf svc req placed entryPrice (some notional)) = some view ∧
    (View.tracked view).listed svc.letters = true := by
  have hquantity : readDecimal (positionOf svc req placed entryPrice (some notional)).quantity
      = some (placed.prepared.amounts.takerAmount : ℚ) := readDecimal_decimal _
  obtain ⟨view, hview, hsource, hstatus⟩ :=
    mergePosition_alone svc.letters (cheapYes, none) hquantity rfl
  refine ⟨view, hview, ?_⟩
  have htracked : view.source ≠ externalText := by
    rw [hsource]
    show ['t', 'r', 'a', 'c', 'k', 'e', 'd'] ≠ externalText
    decide
  have hupper : svc.letters.upper view.status = openText := by
    rw [hstatus]
    show svc.letters.upper (svc.letters.upper openText) = openText
    rw [hopen, hopen]
  rw [View.listed, Bool.and_eq_true, decide_eq_true_eq, decide_eq_true_eq]
  exact ⟨htracked, hupper⟩

/-- A record of a buy of something is open and says a quantity, whatever became of the order. -/
theorem stored_positionOf (hopen : svc.letters.upper openText = openText) (req : BuyRequest)
    {placed : Placed floats} (htaker : placed.prepared.amounts.takerAmount ≠ 0) (entryPrice : ℚ)
    (notionalUsdt : Option ℚ) :
    svc.letters.upper (positionOf svc req placed entryPrice notionalUsdt).status = openText ∧
      0 < (readDecimal (positionOf svc req placed entryPrice notionalUsdt).quantity).getD 0 := by
  have hquantity : readDecimal (positionOf svc req placed entryPrice notionalUsdt).quantity
      = some (placed.prepared.amounts.takerAmount : ℚ) := readDecimal_decimal _
  rw [hquantity, Option.getD_some]
  exact ⟨hopen, Nat.cast_pos.mpr (Nat.pos_of_ne_zero htaker)⟩

/-- An order that is sent and answered, and whose record is written: with an amount that is a
    number, or for something. -/
structure Leaves (x : Exchange floats) (svc : Service floats) (req : BuyRequest)
    (prepared : Prepared) (created : OrderRecord floats) : Prop where
  sends : Sends x svc req prepared
  answer : orderAnswer x svc.client (.createOrder prepared.order) = .ok created
  polled : orderHash created prepared.order = [] ∨
    Polled x svc (orderHash created prepared.order) 15 0
  writable : Writable svc req prepared.amounts
  counts : (∃ notional, Decimals.floatOf svc.digits req.amountUsdt = some (some notional)) ∨
    prepared.amounts.takerAmount ≠ 0

/-- What a buy leaves behind under its id: the record of what it was told last. -/
theorem buy_leaves {req : BuyRequest} {prepared : Prepared} {created : OrderRecord floats}
    (h : Leaves x svc req prepared created) (file : PositionsFile) :
    ∃ (placed : Placed floats) (entryPrice : ℚ) (notionalUsdt : Option ℚ),
      placed.prepared = prepared ∧
      Decimals.floatOf svc.digits req.amountUsdt = some notionalUsdt ∧
      (buy x svc req file).file.getPosition (req.positionId svc.letters)
        = some (positionOf svc req placed entryPrice notionalUsdt) ∧
      (positionOf svc req placed entryPrice notionalUsdt).orderStatus = svc.letters.upper
        (lastStatus created (pollsFor x svc (orderHash created prepared.order))) := by
  rcases buy_cases (x := x) req file with ⟨hunsent, _, _⟩ | ⟨prepared', net, hsent, _, hplace⟩
  · exact absurd h.sends (hunsent prepared)
  obtain rfl := h.sends.unique hsent
  obtain ⟨placed, hanswer⟩ :=
    (submitAnswer_ok_iff prepared).mpr ⟨created, h.answer, h.polled⟩
  obtain ⟨hprepared, hplaced, hlast⟩ := placed_of_submitAnswer h.answer hanswer
  obtain ⟨position, hrecord⟩ := (recordOf_ok_iff req placed).mpr (hprepared ▸ h.writable)
  obtain ⟨entryPrice, notionalUsdt, _, hnotional, rfl⟩ := recordOf_ok hrecord
  rw [hanswer] at hplace
  have hbuy := buy_of_place_ok hplace hrecord file
  have hresult : (buy x svc req file).result = .ok (resultOf svc req placed) := by rw [hbuy]
  obtain ⟨written, _, hsame, _, _, hlabel, _⟩ := buy_ok hresult
  -- the position is filed under the outcome that the order was made for
  have houtcome : placed.prepared.outcome.label = written.prepared.outcome.label :=
    congrArg TradeResult.outcome hsame
  refine ⟨placed, entryPrice, notionalUsdt, hprepared, hnotional, ?_, ?_⟩
  · rw [hbuy, BuyRequest.positionId, ← hlabel, ← houtcome]
    exact getPosition_upsert file (positionOf svc req placed entryPrice notionalUsdt)
  · show statusOf svc placed = _
    rw [statusOf, hplaced, hlast]
    rfl

/-- Of an order that has failed an open position is left. -/
theorem not_failed_of_liveOnly (hopen : svc.letters.upper openText = openText) {req : BuyRequest}
    {prepared : Prepared} {created : OrderRecord floats} (h : Leaves x svc req prepared created)
    (file : PositionsFile)
    (hlive : LiveOnly x svc req prepared.order created (buy x svc req file).file) :
    terminalFailure svc.letters
      (lastStatus created (pollsFor x svc (orderHash created prepared.order))) = false := by
  obtain ⟨placed, entryPrice, notionalUsdt, rfl, hnotional, hleft, _⟩ := buy_leaves h file
  by_contra hfailed
  have hfailed := Bool.eq_true_of_not_eq_false hfailed
  rcases h.counts with ⟨notional, hnumber⟩ | htaker
  · obtain rfl : notionalUsdt = some notional := Option.some.inj (hnotional.symm.trans hnumber)
    obtain ⟨view, hview, hlisted⟩ := listed_positionOf hopen req placed entryPrice notional
    have hhidden := hlive.unlisted hfailed _ hleft (fun _ => some (cheapYes, none)) [] view
      (remoteByToken_nil _) hview
    rw [hlisted] at hhidden
    cases hhidden
  · exact hlive.stored hfailed _ hleft (stored_positionOf hopen req htaker entryPrice notionalUsdt)

/-- **A buy leaves an open position only of a live order exactly where no answer that counts
    says that the order has failed**, once the record is written: `float` reads the amount. -/
theorem liveOnly_iff (hopen : svc.letters.upper openText = openText) {req : BuyRequest}
    {prepared : Prepared} {created : OrderRecord floats} (h : Leaves x svc req prepared created)
    (file : PositionsFile) :
    LiveOnly x svc req prepared.order created (buy x svc req file).file ↔
      NoFailure x svc prepared.order created := by
  constructor
  · intro hlive
    exact ⟨not_failed_of_liveOnly hopen h file hlive, hlive.stops⟩
  · intro hnone
    refine ⟨fun hfailed => ?_, fun hfailed => ?_, hnone.earlier⟩
    · rw [hnone.last] at hfailed
      cases hfailed
    · rw [hnone.last] at hfailed
      cases hfailed

/-! ## An order that is rejected -/

/-- The exchange says what has become of every order that it is asked for. -/
def statusReply (status : Text) : Reply nanFloats :=
  .response 200 (some (.obj [(['s', 't', 'a', 't', 'u', 's'], .str status)]))

theorem sends_tenYes (hash : Text) (poll : Reply nanFloats) :
    Sends (smallExchange hash poll) (smallService hash) tenYes (preparedYes hash) :=
  ⟨Net.start, ['t'], _, prepare_tenYes hash poll, rfl⟩

/-- The answer to the order: its hash. -/
def createdOnly (hash : Text) : OrderRecord nanFloats where
  hash := some hash
  status := none
  members := [(hashKey, .str hash)]

theorem created_tenYes (hash : Text) (poll : Reply nanFloats) :
    orderAnswer (smallExchange hash poll) (smallService hash).client
      (.createOrder (preparedYes hash).order) = .ok (createdOnly hash) := rfl

theorem leaves_tenYes {hash : Text} {poll : Reply nanFloats}
    (hpolled : Polled (smallExchange hash poll) (smallService hash) hash 15 0) :
    Leaves (smallExchange hash poll) (smallService hash) tenYes (preparedYes hash)
      (createdOnly hash) where
  sends := sends_tenYes hash poll
  answer := created_tenYes hash poll
  polled := by
    cases hash with
    | nil => exact Or.inl rfl
    | cons c t => exact Or.inr hpolled
  writable := by
    let created := createdOnly hash
    let placed : Placed nanFloats :=
      { prepared := preparedYes hash, created, hash, polled := created }
    exact (recordOf_ok_iff tenYes placed).mp ⟨_, recordOf_tenYes rfl⟩
  counts := Or.inr fun h => absurd h (show ¬ 10 * 10 ^ 18 = 0 by decide)

def soldHash : Text := ['0', 'x', '2']

theorem liveOnly_iff_open :
    LiveOnly (smallExchange soldHash (statusReply openText)) (smallService soldHash) tenYes
        (preparedYes soldHash).order (createdOnly soldHash)
        (buy (smallExchange soldHash (statusReply openText)) (smallService soldHash) tenYes
          .absent).file ↔
      NoFailure (smallExchange soldHash (statusReply openText)) (smallService soldHash)
        (preparedYes soldHash).order (createdOnly soldHash) :=
  liveOnly_iff (by decide) (leaves_tenYes ⟨_, rfl, Or.inl rfl⟩) .absent

def rejectedText : Text := "rejected".toList

/-- Every poll says that the order was rejected, and another one follows. -/
theorem polled_rejected (hash : Text) (left : Nat) : ∀ poll : Nat,
    Polled (smallExchange soldHash (statusReply rejectedText)) (smallService soldHash) hash left
      poll := by
  induction left with
  | zero => exact fun _ => trivial
  | succ left ih => exact fun poll => ⟨_, rfl, Or.inr (ih (poll + 1))⟩

/-- Fifteen polls say that the order was rejected, and ten shares of it are an open position. -/
theorem not_liveOnly_rejected :
    ¬ ∀ (x : Exchange nanFloats) (svc : Service nanFloats) (req : BuyRequest) (prepared : Prepared)
      (created : OrderRecord nanFloats) (file : PositionsFile),
      svc.letters.upper openText = openText → Leaves x svc req prepared created →
      LiveOnly x svc req prepared.order created (buy x svc req file).file := by
  intro hlive
  have hopen : (smallService soldHash).letters.upper openText = openText := by decide
  have hleaves := leaves_tenYes (polled_rejected soldHash 15 0)
  have hfailed := not_failed_of_liveOnly hopen hleaves .absent
    (hlive _ _ _ _ _ .absent hopen hleaves)
  have hrejected : terminalFailure (smallService soldHash).letters
      (lastStatus (createdOnly soldHash)
        (pollsFor (smallExchange soldHash (statusReply rejectedText)) (smallService soldHash)
          (orderHash (createdOnly soldHash) (preparedYes soldHash).order))) = true := rfl
  rw [hrejected] at hfailed
  cases hfailed

end Predict
