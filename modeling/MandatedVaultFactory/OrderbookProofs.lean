import MandatedVaultFactory.RoundingProofs
import MandatedVaultFactory.TextProofs
import Mathlib.Algebra.Order.Floor.Ring
import Mathlib.Algebra.Order.Field.Rat
import Mathlib.Data.Rat.Floor
import Mathlib.Tactic.Linarith
import Mathlib.Tactic.FieldSimp
import Mathlib.Tactic.Ring

/-!
# Order books

The order book of a market, what the services show as the prices of its outcomes, and the book
that a market order is computed from.  Every book is quoted in prices of YES.

* **`roundTo`** — Python's `round`; `abs_roundTo_sub_le`.
* **`deriveMarkPrices`**, **`getMarketDetail`** — the marks; `abs_sub_mark_le`, how far they are
  from the prices at which an outcome is offered.
* **`priced_iff`** — a market buy is priced from the levels at which its outcome is offered only
  for YES, and for NO where the two sides of the book mirror each other.

Prices and sizes are exact rationals. -/

namespace Predict

open Rounding Texts

/-! ## Rounding -/

/-- `round(x, digits)`. -/
def roundTo (x : ℚ) (digits : ℤ) : ℚ := halfEven (x * 10 ^ digits) / 10 ^ digits

theorem abs_roundTo_sub_le (x : ℚ) (digits : ℤ) : |roundTo x digits - x| ≤ 1 / 2 / 10 ^ digits := by
  have hpos : (0 : ℚ) < 10 ^ digits := zpow_pos (by norm_num) digits
  have hscale : roundTo x digits - x
      = (halfEven (x * 10 ^ digits) - x * 10 ^ digits) / 10 ^ digits := by
    rw [roundTo]
    field_simp
  rw [hscale, abs_div, abs_of_pos hpos]
  exact div_le_div_of_nonneg_right (abs_halfEven_sub_le _) hpos.le

/-! ## Books -/

/-- The price and the size of a level, as the exchange sends them; the record would admit lists of
    any length. -/
abbrev Level : Type := ℚ × ℚ

/-- `OrderBookRecord`, as the exchange returns it. -/
structure OrderBookRecord where
  marketId : Option (Text ⊕ Int)
  asks : Option (List Level)
  bids : Option (List Level)
  updateTimestampMs : Option Int

namespace OrderBookRecord

/-- `orderbook.asks or []`. -/
def askLevels (o : OrderBookRecord) : List Level := o.asks.getD []

/-- `orderbook.bids or []`. -/
def bidLevels (o : OrderBookRecord) : List Level := o.bids.getD []

end OrderBookRecord

/-- `Book` of the SDK. -/
structure Book where
  marketId : Int
  updateTimestampMs : Int
  asks : List Level
  bids : List Level

/-- `int(orderbook.marketId) if orderbook.marketId is not None else 0`. -/
def bookMarketId : Option (Text ⊕ Int) → Option Int
  | none => some 0
  | some (.inr id) => some id
  | some (.inl text) => int text

/-- `orderbook_record_to_sdk_book`, `none` where the id of the market is no number. -/
def orderbookRecordToSdkBook (o : OrderBookRecord) : Option Book :=
  (bookMarketId o.marketId).map fun marketId =>
    { marketId
      updateTimestampMs := o.updateTimestampMs.getD 0
      asks := o.askLevels
      bids := o.bidLevels }

theorem asks_of_sdkBook {o : OrderBookRecord} {book : Book}
    (h : orderbookRecordToSdkBook o = some book) : book.asks = o.askLevels := by
  obtain ⟨id, _, rfl⟩ := Option.map_eq_some_iff.mp h
  rfl

/-! ## Marks -/

/-- `yes` and its complement, both rounded. -/
def marksOf (yes : ℚ) (digits : ℤ) : ℚ × ℚ :=
  (roundTo yes digits, roundTo (1 - roundTo yes digits) digits)

/-- `derive_mark_prices`: the marks of YES and of NO in the service of markets. -/
def deriveMarkPrices (o : OrderBookRecord) (lastSale : Option ℚ) (decimalPrecision : ℤ) : ℚ × ℚ :=
  match o.askLevels, o.bidLevels with
  | ask :: _, bid :: _ => marksOf ((ask.1 + bid.1) / 2) decimalPrecision
  | asks, bids =>
      match lastSale with
      | some price => marksOf price decimalPrecision
      | none =>
          match asks, bids with
          | ask :: _, _ => marksOf ask.1 decimalPrecision
          | [], bid :: _ => marksOf bid.1 decimalPrecision
          | [], [] => marksOf (1 / 2) decimalPrecision

/-- `market.decimalPrecision or 2`. -/
def precisionOf (decimalPrecision : Option ℤ) : ℤ :=
  match decimalPrecision with
  | none => 2
  | some n => if n = 0 then 2 else n

/-- The price of the first level, and half where there is none. -/
def firstPrice (levels : List Level) : ℚ := (levels.head?.map Prod.fst).getD (1 / 2)

/-- The marks of `_get_market_detail`, in the service of positions. -/
def getMarketDetail (o : OrderBookRecord) (decimalPrecision : Option ℤ) : ℚ × ℚ :=
  marksOf ((firstPrice o.askLevels + firstPrice o.bidLevels) / 2) (precisionOf decimalPrecision)

/-- Where there are both asks and bids the two services show the same. -/
theorem deriveMarkPrices_eq_detail {o : OrderBookRecord} {ask bid : Level}
    (hask : ask ∈ o.askLevels.head?) (hbid : bid ∈ o.bidLevels.head?) (lastSale : Option ℚ)
    (decimalPrecision : Option ℤ) :
    deriveMarkPrices o lastSale (precisionOf decimalPrecision)
      = getMarketDetail o decimalPrecision := by
  obtain ⟨asks, hasks⟩ := List.head?_eq_some_iff.mp hask
  obtain ⟨bids, hbids⟩ := List.head?_eq_some_iff.mp hbid
  simp only [deriveMarkPrices, getMarketDetail, hasks, hbids, firstPrice, List.head?_cons,
    Option.map_some, Option.getD_some]

/-- The outcomes of a market that the book is about. -/
inductive YesNo where
  | yes | no
deriving DecidableEq

def YesNo.label : YesNo → Text
  | .yes => ['Y', 'E', 'S']
  | .no => ['N', 'O']

/-- `str.upper` and `str.lower`. -/
structure Letters where
  upper : Text → Text
  lower : Text → Text
  upper_label : ∀ outcome : YesNo, upper outcome.label = outcome.label

/-- `_current_mark_price`: everything but YES has the mark of NO. -/
def currentMarkPrice (letters : Letters) (o : OrderBookRecord) (decimalPrecision : Option ℤ)
    (outcome : Text) : ℚ :=
  if letters.upper outcome = YesNo.yes.label then (getMarketDetail o decimalPrecision).1
  else (getMarketDetail o decimalPrecision).2

/-! ## What is offered -/

/-- A share of NO is sold by buying one of YES: a bid for YES at `p` offers NO at `1 - p`. -/
def complement (level : Level) : Level := (1 - level.1, level.2)

/-- The levels at which an outcome is offered, the best first. -/
def offered (o : OrderBookRecord) : YesNo → List Level
  | .yes => o.askLevels
  | .no => o.bidLevels.map complement

/-- Half the spread, and two roundings. -/
def tolerance (ask bid : Level) (digits : ℤ) : ℚ := |ask.1 - bid.1| / 2 + 1 / 10 ^ digits

theorem abs_sub_yes_le (ask bid : ℚ) (digits : ℤ) :
    |ask - (marksOf ((ask + bid) / 2) digits).1| ≤ |ask - bid| / 2 + 1 / 2 / 10 ^ digits := by
  have hround := abs_roundTo_sub_le ((ask + bid) / 2) digits
  have hmid : ask - (ask + bid) / 2 = (ask - bid) / 2 := by ring
  calc |ask - (marksOf ((ask + bid) / 2) digits).1|
      ≤ |ask - (ask + bid) / 2| + |(ask + bid) / 2 - roundTo ((ask + bid) / 2) digits| :=
        abs_sub_le _ _ _
    _ ≤ |ask - bid| / 2 + 1 / 2 / 10 ^ digits := by
        rw [hmid, abs_div, abs_two, abs_sub_comm ((ask + bid) / 2)]
        exact add_le_add_right hround _

theorem abs_sub_no_le (ask bid : ℚ) (digits : ℤ) :
    |1 - bid - (marksOf ((ask + bid) / 2) digits).2| ≤ |ask - bid| / 2 + 1 / 10 ^ digits := by
  have hyes := abs_roundTo_sub_le ((ask + bid) / 2) digits
  have hno := abs_roundTo_sub_le (1 - roundTo ((ask + bid) / 2) digits) digits
  have hmid : 1 - bid - (1 - (ask + bid) / 2) = (ask - bid) / 2 := by ring
  have hflip : 1 - (ask + bid) / 2 - (1 - roundTo ((ask + bid) / 2) digits)
      = roundTo ((ask + bid) / 2) digits - (ask + bid) / 2 := by ring
  have htwice : (1 : ℚ) / 2 / 10 ^ digits + 1 / 2 / 10 ^ digits = 1 / 10 ^ digits := by ring
  calc |1 - bid - (marksOf ((ask + bid) / 2) digits).2|
      ≤ |1 - bid - (1 - (ask + bid) / 2)|
          + |1 - (ask + bid) / 2 - (marksOf ((ask + bid) / 2) digits).2| := abs_sub_le _ _ _
    _ ≤ |1 - bid - (1 - (ask + bid) / 2)|
          + (|1 - (ask + bid) / 2 - (1 - roundTo ((ask + bid) / 2) digits)|
            + |1 - roundTo ((ask + bid) / 2) digits
                - (marksOf ((ask + bid) / 2) digits).2|) :=
        add_le_add_right (abs_sub_le _ _ _) _
    _ ≤ |ask - bid| / 2 + (1 / 2 / 10 ^ digits + 1 / 2 / 10 ^ digits) := by
        rw [hmid, hflip, abs_div, abs_two, abs_sub_comm (1 - roundTo ((ask + bid) / 2) digits)]
        exact add_le_add_right (add_le_add hyes hno) _
    _ = |ask - bid| / 2 + 1 / 10 ^ digits := by rw [htwice]

theorem detail_of_first {o : OrderBookRecord} {ask bid : Level} (hask : ask ∈ o.askLevels.head?)
    (hbid : bid ∈ o.bidLevels.head?) (decimalPrecision : Option ℤ) :
    getMarketDetail o decimalPrecision
      = marksOf ((ask.1 + bid.1) / 2) (precisionOf decimalPrecision) := by
  rw [Option.mem_def] at hask hbid
  rw [getMarketDetail, firstPrice, firstPrice, hask, hbid]
  rfl

/-- **The best offer of an outcome is as close to its mark as the spread and the roundings
    allow.** -/
theorem abs_sub_mark_le (letters : Letters) {o : OrderBookRecord} {ask bid : Level}
    (hask : ask ∈ o.askLevels.head?) (hbid : bid ∈ o.bidLevels.head?)
    (decimalPrecision : Option ℤ) (outcome : YesNo) {level : Level}
    (hlevel : level ∈ (offered o outcome).head?) :
    |level.1 - currentMarkPrice letters o decimalPrecision outcome.label|
      ≤ tolerance ask bid (precisionOf decimalPrecision) := by
  have hpos : (0 : ℚ) < 10 ^ precisionOf decimalPrecision := zpow_pos (by norm_num) _
  rw [currentMarkPrice, letters.upper_label, detail_of_first hask hbid, tolerance]
  cases outcome with
  | yes =>
      rw [if_pos rfl]
      obtain rfl : ask = level := Option.some.inj (hask.symm.trans hlevel)
      refine (abs_sub_yes_le ask.1 bid.1 _).trans (add_le_add_right ?_ _)
      exact div_le_div_of_nonneg_right (by norm_num) hpos.le
  | no =>
      rw [if_neg (by decide)]
      have hhead : (offered o .no).head? = some (complement bid) := by
        rw [offered, List.head?_map, hbid]
        rfl
      obtain rfl : complement bid = level := Option.some.inj (hhead.symm.trans hlevel)
      exact abs_sub_no_le ask.1 bid.1 _

/-! ## A market buy -/

/-- `MarketHelperValueInput` of a buy. -/
structure MarketHelperValueInput where
  valueWei : Int
  slippageBps : Int

/-- What the SDK computes of an order. -/
structure OrderAmounts where
  makerAmount : Nat
  takerAmount : Nat
  pricePerShare : Nat

/-- How the SDK computes a market buy: it walks the asks of the book from the front.  `none`
    where it raises. -/
abbrev WalkAsks : Type := MarketHelperValueInput → List Level → Option OrderAmounts

/-- The amounts of a market order in `buy`, whatever its outcome. -/
def marketOrderAmounts (walkAsks : WalkAsks) (amountWei : Int) (slippageBps : Option Int)
    (o : OrderBookRecord) : Option OrderAmounts :=
  (orderbookRecordToSdkBook o).bind fun sdkBook =>
    walkAsks { valueWei := amountWei, slippageBps := slippageBps.getD 0 } sdkBook.asks

/-- **What the levels of a buy should be**: those at which its outcome is offered, so that a
    share of NO costs no less than its best offer, and every outcome what its mark says. -/
structure Priced (letters : Letters) (o : OrderBookRecord) (decimalPrecision : Option ℤ)
    (outcome : YesNo) (levels : List Level) : Prop where
  own : levels = offered o outcome
  atLeast : outcome = .no → ∀ bid ∈ o.bidLevels.head?, ∀ level ∈ levels.head?,
    1 - bid.1 ≤ level.1
  marked : ∀ ask ∈ o.askLevels.head?, ∀ bid ∈ o.bidLevels.head?, ∀ level ∈ levels.head?,
    |level.1 - currentMarkPrice letters o decimalPrecision outcome.label|
      ≤ tolerance ask bid (precisionOf decimalPrecision)

/-- The levels say the rest. -/
theorem priced_of_levels (letters : Letters) (o : OrderBookRecord) (decimalPrecision : Option ℤ)
    (outcome : YesNo) : Priced letters o decimalPrecision outcome (offered o outcome) where
  own := rfl
  atLeast hno bid hbid level hlevel := by
    have hhead : (offered o .no).head? = some (complement bid) := by
      rw [offered, List.head?_map, hbid]
      rfl
    rw [hno] at hlevel
    obtain rfl : complement bid = level := Option.some.inj (hhead.symm.trans hlevel)
    exact le_rfl
  marked ask hask bid hbid level hlevel :=
    abs_sub_mark_le letters hask hbid decimalPrecision outcome hlevel

/-- **A market buy is priced from the levels of its outcome exactly for YES, and for NO where
    the asks are the complements of the bids.** -/
theorem priced_iff (letters : Letters) (walkAsks : WalkAsks) (o : OrderBookRecord) {book : Book}
    (h : orderbookRecordToSdkBook o = some book) (amountWei : Int) (slippageBps : Option Int)
    (decimalPrecision : Option ℤ) (outcome : YesNo) :
    marketOrderAmounts walkAsks amountWei slippageBps o
      = walkAsks { valueWei := amountWei, slippageBps := slippageBps.getD 0 } book.asks ∧
    (Priced letters o decimalPrecision outcome book.asks
      ↔ outcome = .yes ∨ o.askLevels = o.bidLevels.map complement) := by
  have hasks := asks_of_sdkBook h
  refine ⟨by rw [marketOrderAmounts, h, Option.bind_some], fun hpriced => ?_, fun hcondition => ?_⟩
  · have hlevels := hpriced.own
    rw [hasks] at hlevels
    cases outcome with
    | yes => exact Or.inl rfl
    | no => exact Or.inr hlevels
  · have hoffered : book.asks = offered o outcome := by
      rw [hasks]
      rcases hcondition with rfl | hmirror
      · rfl
      · cases outcome with
        | yes => rfl
        | no => exact hmirror
    rw [hoffered]
    exact priced_of_levels letters o decimalPrecision outcome

/-! ## A book far from one half -/

/-- `str.upper` and `str.lower` of ASCII letters. -/
def asciiLetters : Letters where
  upper t := t.map Char.toUpper
  lower := lower
  upper_label outcome := by cases outcome <;> decide

/-- YES is offered at 0.30, and bid for at 0.20. -/
def cheapYes : OrderBookRecord where
  marketId := some (.inr 123)
  asks := some [(3 / 10, 100)]
  bids := some [(2 / 10, 100)]
  updateTimestampMs := none

/-- A buy that the first level fills. -/
def fromFirst : WalkAsks := fun input levels =>
  levels.head?.map fun level =>
    { makerAmount := input.valueWei.toNat
      takerAmount := ⌊(input.valueWei : ℚ) / level.1⌋.toNat
      pricePerShare := ⌊(level.1 * 10 ^ 18 : ℚ)⌋.toNat }

theorem priced_iff_cheapYes :
    marketOrderAmounts fromFirst (10 ^ 18) none cheapYes
      = fromFirst { valueWei := 10 ^ 18, slippageBps := 0 } [(3 / 10, 100)] ∧
    (Priced asciiLetters cheapYes none .no [(3 / 10, 100)]
      ↔ YesNo.no = .yes ∨ cheapYes.askLevels = cheapYes.bidLevels.map complement) :=
  priced_iff asciiLetters fromFirst cheapYes rfl (10 ^ 18) none none .no

/-- Asks ascend and bids descend. -/
def OrderBookRecord.Sorted (o : OrderBookRecord) : Prop :=
  o.askLevels.Pairwise (fun a b => a.1 ≤ b.1) ∧ o.bidLevels.Pairwise (fun a b => b.1 ≤ a.1)

/-- Its NO, worth 0.80 and shown as 0.75, would be bought at 0.30. -/
theorem not_priced_cheapYes :
    ¬ ∀ (o : OrderBookRecord) (book : Book) (decimalPrecision : Option ℤ) (outcome : YesNo),
      o.Sorted → orderbookRecordToSdkBook o = some book →
      Priced asciiLetters o decimalPrecision outcome book.asks := by
  intro hpriced
  have hsorted : cheapYes.Sorted := ⟨List.pairwise_singleton _ _, List.pairwise_singleton _ _⟩
  have hleast := (hpriced cheapYes _ none .no hsorted rfl).atLeast rfl (2 / 10, 100) rfl
    (3 / 10, 100) rfl
  norm_num at hleast

end Predict
