import MandatedVaultFactory.TrackedOrdersProofs

/-!
# The positions of several buys

What the records say after a sequence of buys on one file: how much of each outcome was bought,
what it cost, and what it has gained.

* **`recordsOf`** — the records that are written, one after another; `recordsOf_of_nodup`, and
  `sum_recordsOf_lt`, what is lost where an id comes again.
* **`mergeTracked`** — the positions as they are shown; `costs_mergeTracked`, what their profit is
  reckoned from.
* **`runBuys`** — buys on one file; `runBuys_spec`, which records they write.
* **`accounted_iff`** — the records account for every buy where no two buys have the same id and
  the doubles of the amounts add up to what the amounts do; and, of buys that bought something,
  only there. -/

namespace Predict

open Texts Json

variable {floats : Floats}

/-! ## Records, one after another -/

/-- The records in the file after those given have been written. -/
def recordsOf (written before : List LocalPosition) : List LocalPosition :=
  written.foldl (fun positions position => upsertInto position positions) before

/-- New ids only: every record stays. -/
theorem recordsOf_of_nodup (written : List LocalPosition) : ∀ before : List LocalPosition,
    (ids (before ++ written)).Nodup → recordsOf written before = before ++ written := by
  induction written with
  | nil =>
      intro before _
      exact (List.append_nil before).symm
  | cons position written ih =>
      intro before hnodup
      have hnew : position.positionId ∉ ids before := by
        rw [ids, List.map_append, List.map_cons] at hnodup
        exact fun hmem => (List.nodup_append.mp hnodup).2.2 _ hmem _ (List.mem_cons_self ..) rfl
      have happend : before ++ [position] ++ written = before ++ position :: written := by
        rw [List.append_assoc]
        rfl
      rw [recordsOf, List.foldl_cons, upsertInto_of_new hnew, ← happend]
      exact ih (before ++ [position]) (happend ▸ hnodup)

theorem mem_of_mem_upsertInto {position p : LocalPosition} {positions : List LocalPosition}
    (h : p ∈ upsertInto position positions) : p = position ∨ p ∈ positions := by
  induction positions with
  | nil => exact Or.inl (List.mem_singleton.mp h)
  | cons existing rest ih =>
      rw [upsertInto] at h
      by_cases hid : existing.positionId = position.positionId
      · rw [if_pos hid] at h
        rcases List.mem_cons.mp h with rfl | hrest
        · exact Or.inl rfl
        · exact Or.inr (List.mem_cons_of_mem _ hrest)
      · rw [if_neg hid] at h
        rcases List.mem_cons.mp h with rfl | hrest
        · exact Or.inr (List.mem_cons_self ..)
        · exact (ih hrest).imp id (List.mem_cons_of_mem _)

/-! ## The positions that are shown -/

/-- The exponent of a decimal. -/
def exponentOf : Text → Option Int
  | [] => some 0
  | c :: t =>
      if c = 'e' || c = 'E' then
        match t with
        | '-' :: digits => (intDigits false 0 digits).map fun n => -(n : Int)
        | '+' :: digits => (intDigits false 0 digits).map fun n => (n : Int)
        | digits => (intDigits false 0 digits).map fun n => (n : Int)
      else none

/-- The digits after the point, and what follows them. -/
def fractionOf : Text → Text × Text
  | '.' :: t => (t.takeWhile Char.isDigit, t.dropWhile Char.isDigit)
  | t => ([], t)

/-- A decimal without a sign. -/
def readUnsigned (t : Text) : Option ℚ :=
  let fraction := fractionOf (t.dropWhile Char.isDigit)
  match intDigits false 0 (t.takeWhile Char.isDigit ++ fraction.1), exponentOf fraction.2 with
  | some digits, some exponent => some (digits * 10 ^ (exponent - fraction.1.length))
  | _, _ => none

/-- `Decimal(t)` of a text in ASCII; `none` where it raises, or is no finite number. -/
def readDecimal (t : Text) : Option ℚ :=
  match (strip t).filter fun c => c ≠ '_' with
  | '-' :: number => (readUnsigned number).map fun x => -x
  | '+' :: number => readUnsigned number
  | number => readUnsigned number

theorem readUnsigned_decimal (n : Nat) : readUnsigned (decimal n) = some (n : ℚ) := by
  have hall : ∀ c ∈ decimal n, c.isDigit = true := fun c hc => isDigit_of_mem_decimal hc
  have hread : intDigits false 0 (decimal n) = some n := by
    rw [intDigits_eq 0 false hall (Or.inr (decimal_ne_nil n)), decimal,
      Nat.ofDigitChars_ten_toDigits]
  obtain ⟨htake, hdrop⟩ := takeWhile_digits hall next_nil
  rw [List.append_nil] at htake hdrop
  simp [readUnsigned, hdrop, htake, fractionOf, exponentOf, hread]

/-- `Decimal(str(n))`. -/
theorem readDecimal_decimal (n : Nat) : readDecimal (decimal n) = some (n : ℚ) := by
  have hall : ∀ c ∈ decimal n, c.isDigit = true := fun c hc => isDigit_of_mem_decimal hc
  have hfilter : (decimal n).filter (fun c => c ≠ '_') = decimal n :=
    List.filter_eq_self.mpr fun c hc => decide_eq_true (ne_of_isDigit (hall c hc) rfl)
  rw [readDecimal, strip_of_trimmed (trimmed_of_digits hall), hfilter, ← readUnsigned_decimal n]
  obtain ⟨c, t, hcons⟩ := List.exists_cons_of_ne_nil (decimal_ne_nil n)
  have hc : c.isDigit = true := hall c (hcons ▸ List.mem_cons_self ..)
  have hminus : c ≠ '-' := ne_of_isDigit hc rfl
  have hplus : c ≠ '+' := ne_of_isDigit hc rfl
  rw [hcons]
  simp [hminus, hplus]

/-! ## How much is recorded -/

/-- The number that a quantity is written for. -/
def LocalPosition.quantityWei (position : LocalPosition) : ℚ :=
  (readDecimal position.quantity).getD 0

def quantities (positions : List LocalPosition) : ℚ :=
  (positions.map LocalPosition.quantityWei).sum

/-- Every record is one of something. -/
def Filled (positions : List LocalPosition) : Prop := ∀ p ∈ positions, 0 < p.quantityWei

theorem filled_upsertInto {position : LocalPosition} {positions : List LocalPosition}
    (hposition : 0 < position.quantityWei) (h : Filled positions) :
    Filled (upsertInto position positions) := by
  intro p hp
  rcases mem_of_mem_upsertInto hp with rfl | hmem
  · exact hposition
  · exact h p hmem

/-- Records never show more than was bought.  Induction on what is written. -/
theorem sum_recordsOf_le (written : List LocalPosition) : ∀ before : List LocalPosition,
    Filled before → Filled written →
    quantities (recordsOf written before) ≤ quantities before + quantities written := by
  induction written with
  | nil =>
      intro before _ _
      exact (add_zero (quantities before)).ge
  | cons position written ih =>
      intro before hbefore hwritten
      have hposition := hwritten position (List.mem_cons_self ..)
      have hrest := ih (upsertInto position before) (filled_upsertInto hposition hbefore)
        fun p hp => hwritten p (List.mem_cons_of_mem _ hp)
      have hcons : quantities (position :: written) = position.quantityWei + quantities written :=
        List.sum_cons
      rw [hcons]
      refine hrest.trans ?_
      rcases sum_upsertInto LocalPosition.quantityWei position before with
        ⟨_, hsum⟩ | ⟨existing, hmem, _, hsum⟩
      · rw [quantities, hsum, ← quantities]
        linarith
      · have hexisting := hbefore existing hmem
        rw [quantities, hsum, ← quantities]
        linarith

/-- **An id that comes again takes a record away, and what was bought with it.**  Induction on
    what is written. -/
theorem sum_recordsOf_lt (written : List LocalPosition) : ∀ before : List LocalPosition,
    Filled before → Filled written → (ids before).Nodup → ¬ (ids (before ++ written)).Nodup →
    quantities (recordsOf written before) < quantities before + quantities written := by
  induction written with
  | nil =>
      intro before _ _ hnodup hrepeated
      rw [List.append_nil] at hrepeated
      exact absurd hnodup hrepeated
  | cons position written ih =>
      intro before hbefore hwritten hnodup hrepeated
      have hposition := hwritten position (List.mem_cons_self ..)
      have hfilled := filled_upsertInto hposition hbefore
      have hfilled' : Filled written := fun p hp => hwritten p (List.mem_cons_of_mem _ hp)
      have hcons : quantities (position :: written) = position.quantityWei + quantities written :=
        List.sum_cons
      rw [hcons]
      rcases sum_upsertInto LocalPosition.quantityWei position before with
        ⟨hnew, hsum⟩ | ⟨existing, hmem, _, hsum⟩
      · have hupsert := upsertInto_of_new hnew
        have hnodup' : (ids (upsertInto position before)).Nodup := by
          rw [hupsert, ids, List.map_append, List.nodup_append]
          refine ⟨hnodup, List.nodup_singleton _, fun a ha b hb => ?_⟩
          rw [List.mem_singleton.mp hb]
          exact fun heq => hnew (heq ▸ ha)
        have hlt := ih (upsertInto position before) hfilled hfilled' hnodup'
          (by rwa [hupsert, List.append_assoc])
        refine lt_of_lt_of_eq hlt ?_
        rw [quantities, hsum, ← quantities]
        ring
      · have hexisting := hbefore existing hmem
        refine lt_of_le_of_lt (sum_recordsOf_le written _ hfilled hfilled') ?_
        rw [quantities, hsum, ← quantities]
        linarith

/-! ## What is shown of a position -/

/-- `PnLSnapshot`. -/
structure PnLSnapshot where
  quantityTokens : ℚ
  currentMarkPrice : ℚ
  currentValueUsdt : ℚ
  notionalUsdt : ℚ
  unrealizedPnlUsdt : ℚ
  unrealizedPnlPct : ℚ

/-- What a quantity is worth at a mark. -/
def currentValue (quantity mark : ℚ) : ℚ := quantity / 10 ^ 18 * mark

/-- `compute_pnl`, in exact arithmetic; it raises where the quantity is no number. -/
def computePnl (quantityWei : Text) (mark notional : ℚ) : Option PnLSnapshot :=
  (readDecimal quantityWei).map fun quantity =>
    { quantityTokens := quantity / 10 ^ 18
      currentMarkPrice := mark
      currentValueUsdt := currentValue quantity mark
      notionalUsdt := notional
      unrealizedPnlUsdt := currentValue quantity mark - notional
      unrealizedPnlPct :=
        if notional = 0 then 0 else (currentValue quantity mark - notional) / notional * 100 }

/-- `PositionRecord`, with the quantity as `str` writes it. -/
structure PositionRecord where
  tokenId : Option Text
  quantity : Option Text
  status : Option Text

structure PositionView where
  positionId : Text
  marketId : Text
  question : Text
  outcome : Text
  source : Text
  status : Text
  quantityWei : Text
  remoteQuantityWei : Option Text
  currentMarkPrice : ℚ
  entryPrice : ℚ
  notionalUsdt : ℚ
  unrealizedPnlUsdt : ℚ
  unrealizedPnlPct : ℚ
  orderHash : Text
  feeRateBps : Int

/-- `remote_by_token.get`: of the records with a token the last one counts. -/
def remoteByToken (remotes : List PositionRecord) (tokenId : Text) : Option PositionRecord :=
  if tokenId = [] then none
  else (remotes.filter fun remote => remote.tokenId = some tokenId).getLast?

/-- What the exchange says of a market: its book, and the digits of its prices. -/
abbrev MarketDetail : Type := OrderBookRecord × Option ℤ

/-- One turn of the loop of `_merge_positions` over the tracked positions; it raises where the
    notional is infinite, whose share of itself is no number. -/
def mergePosition (letters : Letters) (detail : Text → Option MarketDetail)
    (remotes : List PositionRecord) (position : LocalPosition) : Option PositionView :=
  (detail position.marketId).bind fun market => position.notionalUsdt.bind fun notional =>
    let remote := remoteByToken remotes position.tokenId
    let mark := currentMarkPrice letters market.1 market.2 position.outcomeName
    let remoteQuantity := remote.bind PositionRecord.quantity
    (computePnl (remoteQuantity.getD position.quantity) mark notional).map fun pnl =>
      { positionId := position.positionId
        marketId := position.marketId
        question := position.question
        outcome := position.outcomeName
        source := position.source
        status := letters.upper
          ((orText (remote.bind PositionRecord.status) (some position.status)).getD [])
        quantityWei := position.quantity
        remoteQuantityWei := remoteQuantity
        currentMarkPrice := mark
        entryPrice := position.entryPrice
        notionalUsdt := notional
        unrealizedPnlUsdt := pnl.unrealizedPnlUsdt
        unrealizedPnlPct := pnl.unrealizedPnlPct
        orderHash := position.orderHash
        feeRateBps := position.feeRateBps }

/-- The tracked positions of `_merge_positions`. -/
def mergeTracked (letters : Letters) (detail : Text → Option MarketDetail)
    (remotes : List PositionRecord) : List LocalPosition → Option (List PositionView)
  | [] => some []
  | position :: rest =>
      (mergePosition letters detail remotes position).bind fun view =>
        (mergeTracked letters detail remotes rest).map fun views => view :: views

/-- What the profit of a position is reckoned from: the worth that is shown, less the profit. -/
def PositionView.cost (view : PositionView) : ℚ :=
  currentValue ((readDecimal (view.remoteQuantityWei.getD view.quantityWei)).getD 0)
    view.currentMarkPrice - view.unrealizedPnlUsdt

theorem cost_mergePosition {letters : Letters} {detail : Text → Option MarketDetail}
    {remotes : List PositionRecord} {position : LocalPosition} {view : PositionView}
    (h : mergePosition letters detail remotes position = some view) :
    view.marketId = position.marketId ∧ view.outcome = position.outcomeName ∧
      position.notionalUsdt = some view.cost := by
  obtain ⟨market, _, h⟩ := Option.bind_eq_some_iff.mp h
  obtain ⟨notional, hnotional, h⟩ := Option.bind_eq_some_iff.mp h
  obtain ⟨pnl, hpnl, rfl⟩ := Option.map_eq_some_iff.mp h
  obtain ⟨quantity, hquantity, rfl⟩ := Option.map_eq_some_iff.mp hpnl
  refine ⟨rfl, rfl, ?_⟩
  rw [hnotional, PositionView.cost, hquantity, Option.getD_some]
  exact congrArg some (sub_sub_cancel _ _).symm

/-! ## Buys on one file -/

/-- A buy: the service and the arguments, and the exchange as it is then or the markets of the
    fixture. -/
inductive Purchase (floats : Floats) where
  | order (x : Exchange floats) (svc : Service floats) (req : BuyRequest)
  | fixture (markets : Text → Option MarketRecord) (svc : Service floats) (req : BuyRequest)

namespace Purchase

def svc : Purchase floats → Service floats
  | .order _ svc _ => svc
  | .fixture _ svc _ => svc

def req : Purchase floats → BuyRequest
  | .order _ _ req => req
  | .fixture _ _ req => req

def buy (purchase : Purchase floats) (file : PositionsFile) :
    Except Failure TradeResult × PositionsFile :=
  match purchase with
  | .order x svc req => ((Predict.buy x svc req file).result, (Predict.buy x svc req file).file)
  | .fixture markets svc req => buyFixture markets svc req file

/-- The number that the amount is written for, where it is one. -/
def usdt (purchase : Purchase floats) : Option ℚ :=
  (Decimals.ofText (some Decimals.libraryBounds) purchase.svc.digits
    purchase.req.amountUsdt).toOption.bind Decimals.Decimal.number

/-- The id that the record of a buy gets. -/
def positionId (purchase : Purchase floats) : Text :=
  Predict.positionId purchase.svc.letters purchase.req.marketId
    (purchase.svc.letters.upper purchase.req.outcomeLabel)

end Purchase

/-- What a buy that returns was about. -/
structure Sale where
  marketId : Text
  outcome : Text
  quantity : ℚ
  usdt : Option ℚ
  orderHash : Text

def saleOf (purchase : Purchase floats) (result : TradeResult) : Sale where
  marketId := result.marketId
  outcome := result.outcome
  quantity := result.takerAmount
  usdt := purchase.usdt
  orderHash := result.orderHash

/-- Buys, one after another, that all return. -/
def runBuys : List (Purchase floats) → PositionsFile → Option (List Sale × PositionsFile)
  | [], file => some ([], file)
  | purchase :: rest, file =>
      match (purchase.buy file).1 with
      | .error _ => none
      | .ok result =>
          (runBuys rest (purchase.buy file).2).map fun run =>
            (saleOf purchase result :: run.1, run.2)

/-- The market and the outcome of a sale. -/
def Sale.key (sale : Sale) : Text × Text := (sale.marketId, sale.outcome)

def LocalPosition.key (position : LocalPosition) : Text × Text :=
  (position.marketId, position.outcomeName)

/-- A record is one of a sale: it has the double of the amount. -/
structure Records (sale : Sale) (position : LocalPosition) : Prop where
  key : position.key = sale.key
  quantity : position.quantityWei = sale.quantity
  notional : position.notionalUsdt = sale.usdt.bind Doubles.shown
  hash : position.orderHash = sale.orderHash

/-- Where the amount has been parsed, `float` reads the number that it is written for. -/
theorem notional_eq {purchase : Purchase floats} {amountWei : Int} {notionalUsdt : Option ℚ}
    (hwei : amountInWei purchase.svc purchase.req.amountUsdt = .ok amountWei)
    (hnotional : Decimals.floatOf purchase.svc.digits purchase.req.amountUsdt = some notionalUsdt) :
    notionalUsdt = purchase.usdt.bind Doubles.shown := by
  obtain ⟨number, hnumber, rfl⟩ := Option.map_eq_some_iff.mp hnotional
  rw [Purchase.usdt]
  cases hread : Decimals.ofText (some Decimals.libraryBounds) purchase.svc.digits
      purchase.req.amountUsdt with
  | error signal =>
      rw [amountInWei, Amounts.TradeService.parseAmountToWei, Amounts.parseAmount, hread] at hwei
      cases hwei
  | ok d =>
      rw [← Decimals.number_of_readFloat hnumber hread]
      rfl

/-- **A buy that returns writes a record of its sale**, under its id. -/
theorem buy_records {purchase : Purchase floats} {file : PositionsFile} {result : TradeResult}
    (h : (purchase.buy file).1 = .ok result) :
    ∃ position, (purchase.buy file).2 = file.upsert position ∧
      position.positionId = purchase.positionId ∧ Records (saleOf purchase result) position := by
  cases purchase with
  | order x svc req =>
      obtain ⟨placed, position, rfl, hrecord, hfile, hlabel, hwei⟩ := buy_ok h
      obtain ⟨amountWei, hwei⟩ := hwei
      obtain ⟨entryPrice, notionalUsdt, _, hnotional, rfl⟩ := recordOf_ok hrecord
      refine ⟨_, hfile, ?_, rfl, ?_, notional_eq hwei hnotional, rfl⟩
      · rw [Purchase.positionId]
        exact congrArg (positionId svc.letters req.marketId) hlabel
      · exact congrArg (Option.getD · 0) (readDecimal_decimal placed.prepared.amounts.takerAmount)
  | fixture markets svc req =>
      obtain ⟨market, outcome, amountWei, notionalUsdt, hwei, hnotional, rfl, hfile, hlabel⟩ :=
        buyFixture_ok h
      refine ⟨_, hfile, ?_, rfl, ?_, notional_eq hwei hnotional, rfl⟩
      · rw [Purchase.positionId]
        exact congrArg (positionId svc.letters req.marketId) hlabel
      · exact congrArg (Option.getD · 0) (readDecimal_decimal amountWei.toNat)

/-- **Buys write records of what they return**, each under its id.  Induction on the buys. -/
theorem runBuys_spec (purchases : List (Purchase floats)) :
    ∀ (before after : PositionsFile) (sales : List Sale),
    runBuys purchases before = some (sales, after) →
    ∃ written, List.Forall₂ Records sales written ∧
      ids written = purchases.map Purchase.positionId ∧
      after.listPositions = recordsOf written before.listPositions := by
  induction purchases with
  | nil =>
      intro before after sales h
      cases h
      exact ⟨[], .nil, rfl, rfl⟩
  | cons purchase rest ih =>
      intro before after sales h
      rw [runBuys] at h
      cases hresult : (purchase.buy before).1 with
      | error failure =>
          rw [hresult] at h
          cases h
      | ok result =>
          rw [hresult] at h
          obtain ⟨run, hrun, h⟩ := Option.map_eq_some_iff.mp h
          obtain ⟨position, hfile, hid, hrecords⟩ := buy_records hresult
          -- the later purchases start from the file that this one leaves
          obtain ⟨written, hall, hids, hlist⟩ := ih _ run.2 run.1 hrun
          cases h
          refine ⟨position :: written, .cons hrecords hall, ?_, ?_⟩
          · rw [ids, List.map_cons, List.map_cons, ← hids, ← hid]
            rfl
          · rw [hlist, hfile]
            rfl

/-! ## The account -/

def PositionView.key (view : PositionView) : Text × Text := (view.marketId, view.outcome)

/-- **The file accounts for the buys**: the quantities and the costs of every outcome of every
    market, the hashes, and the costs that the profits shown are reckoned from. -/
structure Accounted (sales : List Sale) (file : PositionsFile) : Prop where
  quantities : ∀ key,
    groupSum LocalPosition.key LocalPosition.quantityWei file.listPositions key
      = groupSum Sale.key Sale.quantity sales key
  numbers : (∀ sale ∈ sales, sale.usdt ≠ none) ∧
    ∀ position ∈ file.listPositions, position.notionalUsdt ≠ none
  costs : ∀ key,
    groupSum LocalPosition.key (fun p => p.notionalUsdt.getD 0) file.listPositions key
      = groupSum Sale.key (fun sale => sale.usdt.getD 0) sales key
  hashes : ∀ sale ∈ sales, Tracked sale.orderHash file
  profits : ∀ letters detail remotes views,
    mergeTracked letters detail remotes file.listPositions = some views →
    ∀ key, groupSum PositionView.key PositionView.cost views key
      = groupSum Sale.key (fun sale => sale.usdt.getD 0) sales key

/-- **The doubles add up**: every amount is a number that has a double, and those of every outcome
    of every market, as they are written again, have the sum of the amounts. -/
structure AddUp (sales : List Sale) : Prop where
  numbers : ∀ sale ∈ sales, sale.usdt.bind Doubles.shown ≠ none
  sums : ∀ key, groupSum Sale.key (fun sale => (sale.usdt.bind Doubles.shown).getD 0) sales key
    = groupSum Sale.key (fun sale => sale.usdt.getD 0) sales key

/-- The profits that are shown are reckoned from the costs in the records.  Induction on the
    records. -/
theorem costs_mergeTracked {letters : Letters} {detail : Text → Option MarketDetail}
    {remotes : List PositionRecord} {positions : List LocalPosition} :
    ∀ views, mergeTracked letters detail remotes positions = some views →
    ∀ key, groupSum PositionView.key PositionView.cost views key
      = groupSum LocalPosition.key (fun p => p.notionalUsdt.getD 0) positions key := by
  induction positions with
  | nil =>
      intro views h key
      cases h
      rfl
  | cons position rest ih =>
      intro views h key
      obtain ⟨view, hview, h⟩ := Option.bind_eq_some_iff.mp h
      obtain ⟨views, hviews, rfl⟩ := Option.map_eq_some_iff.mp h
      obtain ⟨hmarket, houtcome, hcost⟩ := cost_mergePosition hview
      have hkey : view.key = position.key := Prod.ext hmarket houtcome
      rw [groupSum_cons, groupSum_cons, ih views hviews key, hkey, hcost, Option.getD_some]

/-- Groups of records have the sums of the groups of their sales.  Induction on the sales. -/
theorem groupSum_records {weight : LocalPosition → ℚ} {weight' : Sale → ℚ} {sales : List Sale}
    {written : List LocalPosition} (h : List.Forall₂ Records sales written)
    (hweight : ∀ sale position, Records sale position → weight position = weight' sale)
    (key : Text × Text) :
    groupSum LocalPosition.key weight written key = groupSum Sale.key weight' sales key := by
  induction h with
  | nil => rfl
  | cons hrecords _ ih =>
      rw [groupSum_cons, groupSum_cons, ih, hrecords.key, hweight _ _ hrecords]

variable {sales : List Sale} {written : List LocalPosition} {file : PositionsFile}

theorem exists_record (hall : List.Forall₂ Records sales written) :
    (∀ sale ∈ sales, ∃ position ∈ written, Records sale position) ∧
      ∀ position ∈ written, ∃ sale ∈ sales, Records sale position := by
  induction hall with
  | nil => exact ⟨List.forall_mem_nil _, List.forall_mem_nil _⟩
  | cons hrecords _ ih =>
      constructor
      · intro sale hsale
        rcases List.mem_cons.mp hsale with rfl | hmem
        · exact ⟨_, List.mem_cons_self .., hrecords⟩
        · obtain ⟨position, hposition, h⟩ := ih.1 sale hmem
          exact ⟨position, List.mem_cons_of_mem _ hposition, h⟩
      · intro position hposition
        rcases List.mem_cons.mp hposition with rfl | hmem
        · exact ⟨_, List.mem_cons_self .., hrecords⟩
        · obtain ⟨sale, hsale, h⟩ := ih.2 position hmem
          exact ⟨sale, List.mem_cons_of_mem _ hsale, h⟩

/-- The costs in the records are the doubles of the amounts. -/
theorem costs_of_records (hall : List.Forall₂ Records sales written) (key : Text × Text) :
    groupSum LocalPosition.key (fun p => p.notionalUsdt.getD 0) written key
      = groupSum Sale.key (fun sale => (sale.usdt.bind Doubles.shown).getD 0) sales key :=
  groupSum_records hall (fun _ _ h => congrArg (Option.getD · 0) h.notional) key

/-- **Where every record stays, the file accounts for the buys exactly if the doubles add up.** -/
theorem accounted_of_records (hall : List.Forall₂ Records sales written)
    (h : file.listPositions = written) : Accounted sales file ↔ AddUp sales := by
  obtain ⟨hwritten, hsold⟩ := exists_record hall
  constructor
  · intro haccounted
    constructor
    · intro sale hsale
      obtain ⟨position, hposition, hrecords⟩ := hwritten sale hsale
      rw [← hrecords.notional]
      exact haccounted.numbers.2 position (h ▸ hposition)
    · intro key
      rw [← costs_of_records hall, ← h]
      exact haccounted.costs key
  · intro haddUp
    have hcosts : ∀ key,
        groupSum LocalPosition.key (fun p => p.notionalUsdt.getD 0) file.listPositions key
          = groupSum Sale.key (fun sale => sale.usdt.getD 0) sales key := fun key => by
      rw [h, costs_of_records hall, haddUp.sums]
    refine ⟨fun key => ?_, ⟨fun sale hsale hnone => ?_, fun position hposition => ?_⟩, hcosts,
      fun sale hsale => ?_, fun letters detail remotes views hviews key => ?_⟩
    · rw [h]
      exact groupSum_records hall (fun _ _ hrecords => hrecords.quantity) key
    · exact haddUp.numbers sale hsale (by rw [hnone]; rfl)
    · obtain ⟨sale, hsale, hrecords⟩ := hsold position (h ▸ hposition)
      rw [hrecords.notional]
      exact haddUp.numbers sale hsale
    · obtain ⟨position, hposition, hrecords⟩ := hwritten sale hsale
      exact ⟨position, h ▸ hposition, hrecords.hash⟩
    · rw [costs_mergeTracked views hviews key, hcosts]

variable {purchases : List (Purchase floats)} {before after : PositionsFile}

/-- A file that accounts for buys of something has kept every record. -/
theorem nodup_of_accounted (hempty : before.listPositions = [])
    (hrun : runBuys purchases before = some (sales, after))
    (hbought : ∀ sale ∈ sales, 0 < sale.quantity) (h : Accounted sales after) :
    (purchases.map Purchase.positionId).Nodup := by
  obtain ⟨written, hall, hids, hrecords⟩ := runBuys_spec purchases before after sales hrun
  rw [hempty] at hrecords
  have hfilled : Filled written := by
    intro position hposition
    obtain ⟨sale, hsale, hsold⟩ := (exists_record hall).2 position hposition
    rw [hsold.quantity]
    exact hbought sale hsale
  have hsum : quantities after.listPositions = quantities written :=
    (sum_eq_of_groups h.quantities).trans
      (sum_eq_of_groups fun key =>
        (groupSum_records hall (fun _ _ hsold => hsold.quantity) key).symm)
  by_contra hrepeated
  rw [← hids] at hrepeated
  have hlt := sum_recordsOf_lt written [] (List.forall_mem_nil _) hfilled List.nodup_nil hrepeated
  rw [← hrecords, hsum] at hlt
  exact absurd hlt (by simp [quantities])

/-- **The records account for every buy where no two buys have the same id and the doubles add
    up**; and, of buys that bought something, only there. -/
theorem accounted_iff (hempty : before.listPositions = [])
    (hrun : runBuys purchases before = some (sales, after)) :
    ((purchases.map Purchase.positionId).Nodup ∧ AddUp sales → Accounted sales after) ∧
    ((∀ sale ∈ sales, 0 < sale.quantity) → Accounted sales after →
      (purchases.map Purchase.positionId).Nodup ∧ AddUp sales) := by
  have hkept : (purchases.map Purchase.positionId).Nodup →
      (Accounted sales after ↔ AddUp sales) := by
    intro hnodup
    obtain ⟨written, hall, hids, hrecords⟩ := runBuys_spec purchases before after sales hrun
    rw [hempty, recordsOf_of_nodup written [] (by rwa [List.nil_append, hids])] at hrecords
    exact accounted_of_records hall hrecords
  constructor
  · rintro ⟨hnodup, haddUp⟩
    exact (hkept hnodup).mpr haddUp
  · intro hbought haccounted
    have hnodup := nodup_of_accounted hempty hrun hbought haccounted
    exact ⟨hnodup, (hkept hnodup).mp haccounted⟩

/-! ## The same outcome, twice -/

/-- Every order is open when it is asked for. -/
def openReply : Reply nanFloats :=
  .response 200 (some (.obj [(['s', 't', 'a', 't', 'u', 's'], .str openText)]))

/-- A buy of ten of YES; the order has the hash. -/
def purchaseYes (hash : Text) : Purchase nanFloats :=
  .order (smallExchange hash openReply) (smallService hash) tenYes

def saleYes (hash : Text) : Sale where
  marketId := ['1']
  outcome := YesNo.yes.label
  quantity := (10 * 10 ^ 18 : Nat)
  usdt := some 10
  orderHash := hash

/-- The order is created, found open, and written down. -/
theorem submitAnswer_yes {hash : Text} (hhash : hash ≠ []) :
    ∃ placed, submitAnswer (smallExchange hash openReply) (smallService hash) (preparedYes hash)
        = .ok placed ∧ placed.prepared = preparedYes hash ∧ placed.hash = hash := by
  obtain ⟨c, t, rfl⟩ := List.exists_cons_of_ne_nil hhash
  exact ⟨_, rfl, rfl, rfl⟩

theorem usdt_yes (hash : Text) : (purchaseYes hash).usdt = some 10 := by
  show (Decimals.ofText (some Decimals.libraryBounds) Amounts.asciiDigits
    ['1', '0']).toOption.bind Decimals.Decimal.number = some 10
  decide +kernel

theorem runBuys_yes {hash : Text} (hhash : hash ≠ []) (rest : List (Purchase nanFloats))
    (file : PositionsFile) :
    ∃ file', runBuys (purchaseYes hash :: rest) file
      = (runBuys rest file').map fun run => (saleYes hash :: run.1, run.2) := by
  obtain ⟨placed, hanswer, hprepared, hplaced⟩ := submitAnswer_yes hhash
  have hplace := place_tenYes hash openReply
  rw [hanswer] at hplace
  have hbuy := buy_of_place_ok hplace (recordOf_tenYes hprepared) file
  have hpurchase : (purchaseYes hash).buy file
      = (.ok (resultOf (smallService hash) tenYes placed),
          file.upsert (positionOf (smallService hash) tenYes placed (1 / 2) (some 10))) := by
    show ((buy _ _ _ file).result, (buy _ _ _ file).file) = _
    rw [hbuy]
  have hsale : saleOf (purchaseYes hash) (resultOf (smallService hash) tenYes placed)
      = saleYes hash := by
    rw [saleOf, usdt_yes, resultOf, hprepared, hplaced]
    rfl
  refine ⟨file.upsert (positionOf (smallService hash) tenYes placed (1 / 2) (some 10)), ?_⟩
  rw [runBuys, hpurchase, ← hsale]

theorem runBuys_twice : ∃ after, runBuys [purchaseYes ['1'], purchaseYes ['2']] .absent
    = some ([saleYes ['1'], saleYes ['2']], after) := by
  obtain ⟨middle, hfirst⟩ := runBuys_yes (List.cons_ne_nil '1' []) [purchaseYes ['2']] .absent
  obtain ⟨after, hsecond⟩ := runBuys_yes (List.cons_ne_nil '2' []) [] middle
  refine ⟨after, ?_⟩
  rw [hfirst, hsecond]
  rfl

/-- Both buys have one id. -/
theorem repeated_twice :
    ¬ ([purchaseYes ['1'], purchaseYes ['2']].map Purchase.positionId).Nodup := by
  have hsame : (purchaseYes ['1']).positionId = (purchaseYes ['2']).positionId := rfl
  simp [hsame]

theorem bought_twice : ∀ sale ∈ [saleYes ['1'], saleYes ['2']], 0 < sale.quantity := by
  intro sale hsale
  have hquantity : sale.quantity = (10 * 10 ^ 18 : ℕ) := by
    rcases List.mem_cons.mp hsale with rfl | hsale
    · rfl
    · rw [List.mem_singleton.mp hsale]
      rfl
  rw [hquantity]
  norm_num

theorem accounted_iff_twice : ∃ after,
    runBuys [purchaseYes ['1'], purchaseYes ['2']] .absent
      = some ([saleYes ['1'], saleYes ['2']], after) ∧
    (([purchaseYes ['1'], purchaseYes ['2']].map Purchase.positionId).Nodup ∧
        AddUp [saleYes ['1'], saleYes ['2']] → Accounted [saleYes ['1'], saleYes ['2']] after) ∧
    ((∀ sale ∈ [saleYes ['1'], saleYes ['2']], 0 < sale.quantity) →
      Accounted [saleYes ['1'], saleYes ['2']] after →
      ([purchaseYes ['1'], purchaseYes ['2']].map Purchase.positionId).Nodup ∧
        AddUp [saleYes ['1'], saleYes ['2']]) := by
  obtain ⟨after, hrun⟩ := runBuys_twice
  exact ⟨after, hrun, accounted_iff rfl hrun⟩

/-- Two buys of ten, and the one record says ten. -/
theorem not_accounted_twice :
    ¬ ∀ (purchases : List (Purchase nanFloats)) (before after : PositionsFile) (sales : List Sale),
      before.listPositions = [] → runBuys purchases before = some (sales, after) →
      Accounted sales after := by
  intro haccounted
  obtain ⟨after, hrun⟩ := runBuys_twice
  exact repeated_twice
    (nodup_of_accounted rfl hrun bought_twice (haccounted _ _ _ _ rfl hrun))

end Predict
