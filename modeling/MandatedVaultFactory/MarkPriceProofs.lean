import MandatedVaultFactory.RoundingProofs
import MandatedVaultFactory.TradeServiceProofs

/-!
# Mark prices

The service of markets shows a mark price for each outcome of a market, and the service of
positions computes profit and loss from one.  Each asks the exchange for itself and falls back on
its own terms where the exchange says less.

* **`MarketService.getDetail`**, **`MarketService.enrichMarkets`** — what is shown.
* **`PositionsService.getMarketDetail`** — what is computed with.
* **`oneMarkPrice_iff`** — when they are the same. -/

namespace Marks

open Texts Predict Rounding

/-! ## The exchange -/

abbrev MarketId : Type := Text ⊕ Int

/-- `PredictApiError`: an answer with a status that is an error, or no answer at all. -/
structure PredictApiError where
  statusCode : Option Nat

structure MarketRecord where
  id : MarketId
  title : Option Text
  question : Option Text
  categorySlug : Option Text
  decimalPrecision : Option ℤ
  feeRateBps : Option Int
  volume24hUsd : Option ℚ

structure MarketStatsRecord where
  marketId : Option MarketId
  volume24hUsd : Option ℚ
  liquidityUsd : Option ℚ

structure LastSaleRecord where
  marketId : Option MarketId
  price : Option ℚ
  side : Option Text

/-- The answers of the exchange, or of the fixtures in its place. -/
structure Client where
  getMarket : MarketId → Except PredictApiError MarketRecord
  getMarketStats : MarketId → Except PredictApiError MarketStatsRecord
  getMarketLastSale : MarketId → Except PredictApiError LastSaleRecord
  getOrderbook : MarketId → Except PredictApiError OrderBookRecord

/-- `market.question or market.title or ""`. -/
def MarketRecord.shownQuestion (market : MarketRecord) : Text :=
  (orText market.question (orText market.title none)).getD []

/-- `value or 0.0`. -/
def orZero (value : Option ℚ) : ℚ := value.getD 0

namespace MarketService

structure MarketSummary where
  id : MarketId
  title : Text
  question : Text
  categorySlug : Text
  feeRateBps : Option Int
  yesMarkPrice : ℚ
  noMarkPrice : ℚ
  volume24hUsd : ℚ
  decimalPrecision : ℤ

structure MarketDetail where
  market : MarketRecord
  stats : MarketStatsRecord
  lastSale : LastSaleRecord
  orderbook : OrderBookRecord
  yesMarkPrice : ℚ
  noMarkPrice : ℚ

/-- What the three loaders share: an empty record stands for one that is not found. -/
def loadOptional {α : Type} (answer : Except PredictApiError α) (empty : α) :
    Except PredictApiError α :=
  match answer with
  | .ok record => .ok record
  | .error error => if error.statusCode = some 404 then .ok empty else .error error

/-- `_load_optional_market_stats`. -/
def loadOptionalMarketStats (client : Client) (marketId : MarketId) :
    Except PredictApiError MarketStatsRecord :=
  loadOptional (client.getMarketStats marketId)
    { marketId := some marketId, volume24hUsd := none, liquidityUsd := none }

/-- `_load_optional_last_sale`. -/
def loadOptionalLastSale (client : Client) (marketId : MarketId) :
    Except PredictApiError LastSaleRecord :=
  loadOptional (client.getMarketLastSale marketId)
    { marketId := some marketId, price := none, side := none }

/-- `_load_optional_orderbook`. -/
def loadOptionalOrderbook (client : Client) (marketId : MarketId) :
    Except PredictApiError OrderBookRecord :=
  loadOptional (client.getOrderbook marketId)
    { marketId := some marketId, asks := some [], bids := some [], updateTimestampMs := none }

/-- `_load_market_supporting_data`. -/
def loadMarketSupportingData (client : Client) (marketId : MarketId) :
    Except PredictApiError (MarketStatsRecord × LastSaleRecord × OrderBookRecord) := do
  let stats ← loadOptionalMarketStats client marketId
  let lastSale ← loadOptionalLastSale client marketId
  let orderbook ← loadOptionalOrderbook client marketId
  return (stats, lastSale, orderbook)

/-- `get_detail`. -/
def getDetail (client : Client) (marketId : MarketId) : Except PredictApiError MarketDetail := do
  let market ← client.getMarket marketId
  let (stats, lastSale, orderbook) ← loadMarketSupportingData client marketId
  let (yesMark, noMark) :=
    deriveMarkPrices orderbook lastSale.price (precisionOf market.decimalPrecision)
  return {
    market, stats, lastSale, orderbook
    yesMarkPrice := yesMark
    noMarkPrice := noMark }

/-- `stats.volume24hUsd or market.volume24hUsd or 0.0`. -/
def volume (stats : MarketStatsRecord) (market : MarketRecord) : ℚ :=
  if orZero stats.volume24hUsd = 0 then orZero market.volume24hUsd else orZero stats.volume24hUsd

/-- One turn of the loop over markets. -/
def enrichMarket (client : Client) (market : MarketRecord) :
    Except PredictApiError MarketSummary := do
  let (stats, lastSale, orderbook) ← loadMarketSupportingData client market.id
  let (yesMark, noMark) :=
    deriveMarkPrices orderbook lastSale.price (precisionOf market.decimalPrecision)
  return {
    id := market.id
    title := market.title.getD []
    question := market.shownQuestion
    categorySlug := market.categorySlug.getD []
    feeRateBps := market.feeRateBps
    yesMarkPrice := yesMark
    noMarkPrice := noMark
    volume24hUsd := volume stats market
    decimalPrecision := precisionOf market.decimalPrecision }

/-- `_enrich_markets`. -/
def enrichMarkets (client : Client) (markets : List MarketRecord) :
    Except PredictApiError (List MarketSummary) :=
  markets.mapM (enrichMarket client)

end MarketService

namespace PositionsService

structure MarketDetail where
  question : Text
  yes : ℚ
  no : ℚ

/-- `_get_market_detail`. -/
def getMarketDetail (client : Client) (marketId : MarketId) :
    Except PredictApiError MarketDetail := do
  let market ← client.getMarket marketId
  let orderbook ← client.getOrderbook marketId
  let (yes, no) := Predict.getMarketDetail orderbook market.decimalPrecision
  return { question := market.shownQuestion, yes, no }

/-- `_current_mark_price`. -/
def currentMarkPrice (letters : Letters) (client : Client) (marketId : MarketId) (outcome : Text) :
    Except PredictApiError ℚ := do
  let detail ← getMarketDetail client marketId
  return if letters.upper outcome = YesNo.yes.label then detail.yes else detail.no

end PositionsService

/-! ## Rounding to the same -/

/-- Two prices are nearest to the same multiple of the last digit that is shown. -/
def SameMultiple (x y : ℚ) (digits : ℤ) : Prop :=
  ∃ n, Nearest (x * 10 ^ digits) n ∧ Nearest (y * 10 ^ digits) n

theorem roundTo_eq_iff (x y : ℚ) (digits : ℤ) :
    roundTo x digits = roundTo y digits ↔ SameMultiple x y digits := by
  have hscale : (10 : ℚ) ^ digits ≠ 0 := zpow_ne_zero digits (by norm_num)
  rw [roundTo, roundTo, div_left_inj' hscale, Int.cast_inj]
  constructor
  · intro heq
    exact ⟨halfEven (x * 10 ^ digits), nearest_halfEven _, heq ▸ nearest_halfEven _⟩
  · rintro ⟨n, hx, hy⟩
    exact ((nearest_halfEven _).eq hx).trans ((nearest_halfEven _).eq hy).symm

/-- The marks are the same where those of YES are. -/
theorem marksOf_eq_iff (x y : ℚ) (digits : ℤ) :
    marksOf x digits = marksOf y digits ↔ SameMultiple x y digits := by
  rw [← roundTo_eq_iff]
  constructor
  · exact fun h => congrArg Prod.fst h
  · intro h
    rw [marksOf, marksOf, h]

/-! ## One mark price -/

/-- The marks of a market that the service of markets shows, alone. -/
def shownMarks (client : Client) (marketId : MarketId) : Except PredictApiError (ℚ × ℚ) :=
  (MarketService.getDetail client marketId).map fun detail =>
    (detail.yesMarkPrice, detail.noMarkPrice)

/-- And in a list. -/
def listedMarks (client : Client) (market : MarketRecord) : Except PredictApiError (ℚ × ℚ) :=
  (MarketService.enrichMarket client market).map fun summary =>
    (summary.yesMarkPrice, summary.noMarkPrice)

/-- The marks that profit and loss are computed from. -/
def usedMarks (letters : Letters) (client : Client) (marketId : MarketId) :
    Except PredictApiError (ℚ × ℚ) := do
  let yes ← PositionsService.currentMarkPrice letters client marketId YesNo.yes.label
  let no ← PositionsService.currentMarkPrice letters client marketId YesNo.no.label
  return (yes, no)

/-- Whichever service is asked, the outcome is the same. -/
structure OneMarkPrice (letters : Letters) (client : Client) (marketId : MarketId) : Prop where
  shown : usedMarks letters client marketId = shownMarks client marketId
  listed : ∀ market, client.getMarket marketId = .ok market → market.id = marketId →
    usedMarks letters client marketId = listedMarks client market

/-- A record, or none that is found. -/
def Found {α : Type} (answer : Except PredictApiError α) : Prop :=
  ∀ error, answer = .error error → error.statusCode = some 404

/-- The exchange has the market, and the rest of it or not. -/
structure Served (client : Client) (marketId : MarketId) (market : MarketRecord) : Prop where
  market : client.getMarket marketId = .ok market
  stats : Found (client.getMarketStats marketId)
  lastSale : Found (client.getMarketLastSale marketId)
  orderbook : Found (client.getOrderbook marketId)

/-- The price of the last sale, where there is one. -/
def salePrice : Except PredictApiError LastSaleRecord → Option ℚ
  | .ok record => record.price
  | .error _ => none

/-- The first price of a side, where there is one. -/
def bestPrice (levels : List Level) : Option ℚ := levels.head?.map Prod.fst

/-- The two fallbacks of a book come to the same: both sides are there, or neither side nor a last
    sale is; or else the price that stands for the marks on one side, and the mean of what there
    is with a half on the other, are nearest to the same multiple of the last digit. -/
def FallbacksAgree (ask bid sale : Option ℚ) (digits : ℤ) : Prop :=
  match ask, bid, sale with
  | some _, some _, _ => True
  | none, none, none => True
  | some price, none, none => SameMultiple price ((price + 1 / 2) / 2) digits
  | none, some price, none => SameMultiple price ((price + 1 / 2) / 2) digits
  | some price, none, some sale => SameMultiple sale ((price + 1 / 2) / 2) digits
  | none, some price, some sale => SameMultiple sale ((price + 1 / 2) / 2) digits
  | none, none, some sale => SameMultiple sale (1 / 2) digits

/-- Two ways to fall back, on one book. -/
theorem deriveMarkPrices_eq_iff (o : OrderBookRecord) (lastSale : Option ℚ)
    (decimalPrecision : Option ℤ) :
    Predict.getMarketDetail o decimalPrecision
        = deriveMarkPrices o lastSale (precisionOf decimalPrecision)
      ↔ FallbacksAgree (bestPrice o.askLevels) (bestPrice o.bidLevels) lastSale
          (precisionOf decimalPrecision) := by
  have hhalf : ((1 : ℚ) / 2 + 1 / 2) / 2 = 1 / 2 := by norm_num
  rw [Predict.getMarketDetail, firstPrice, firstPrice]
  unfold deriveMarkPrices
  -- the cases are those of what the exchange says
  cases hasks : o.askLevels with
  | nil =>
      cases hbids : o.bidLevels with
      | nil =>
          cases lastSale with
          | none =>
              show marksOf ((1 / 2 + 1 / 2) / 2) _ = marksOf (1 / 2) _ ↔ True
              rw [hhalf]
              exact ⟨fun _ => trivial, fun _ => rfl⟩
          | some sale =>
              show marksOf ((1 / 2 + 1 / 2) / 2) _ = marksOf sale _ ↔ SameMultiple sale (1 / 2) _
              rw [hhalf, eq_comm, marksOf_eq_iff]
      | cons bid bids =>
          cases lastSale with
          | none =>
              show marksOf ((1 / 2 + bid.1) / 2) _ = marksOf bid.1 _
                ↔ SameMultiple bid.1 ((bid.1 + 1 / 2) / 2) _
              rw [eq_comm, marksOf_eq_iff, add_comm]
          | some sale =>
              show marksOf ((1 / 2 + bid.1) / 2) _ = marksOf sale _
                ↔ SameMultiple sale ((bid.1 + 1 / 2) / 2) _
              rw [eq_comm, marksOf_eq_iff, add_comm]
  | cons ask asks =>
      cases hbids : o.bidLevels with
      | nil =>
          cases lastSale with
          | none =>
              show marksOf ((ask.1 + 1 / 2) / 2) _ = marksOf ask.1 _
                ↔ SameMultiple ask.1 ((ask.1 + 1 / 2) / 2) _
              rw [eq_comm, marksOf_eq_iff]
          | some sale =>
              show marksOf ((ask.1 + 1 / 2) / 2) _ = marksOf sale _
                ↔ SameMultiple sale ((ask.1 + 1 / 2) / 2) _
              rw [eq_comm, marksOf_eq_iff]
      | cons bid bids =>
          show marksOf ((ask.1 + bid.1) / 2) _ = marksOf ((ask.1 + bid.1) / 2) _ ↔ True
          exact ⟨fun _ => trivial, fun _ => rfl⟩

/-- What is loaded in place of a record. -/
theorem loadOptional_of_found {α : Type} {answer : Except PredictApiError α} (h : Found answer)
    (empty : α) : ∃ record, MarketService.loadOptional answer empty = .ok record
      ∧ ∀ found, answer = .ok found → record = found := by
  cases answer with
  | ok record => exact ⟨record, rfl, fun found hfound => Except.ok.inj hfound⟩
  | error error =>
      refine ⟨empty, ?_, fun found hfound => by cases hfound⟩
      rw [MarketService.loadOptional, if_pos (h error rfl)]

/-- The last sale of the record that is loaded. -/
theorem price_of_loadLastSale {client : Client} {marketId : MarketId}
    (h : Found (client.getMarketLastSale marketId)) :
    ∃ record, MarketService.loadOptionalLastSale client marketId = .ok record
      ∧ record.price = salePrice (client.getMarketLastSale marketId) := by
  rw [MarketService.loadOptionalLastSale]
  cases hanswer : client.getMarketLastSale marketId with
  | ok record => exact ⟨record, rfl, rfl⟩
  | error error =>
      rw [MarketService.loadOptional, if_pos (h error hanswer)]
      exact ⟨_, rfl, rfl⟩

/-- The book that the service of markets works with. -/
theorem shown_of_served {client : Client} {marketId : MarketId} {market : MarketRecord}
    (h : Served client marketId market) :
    ∃ book, (∀ found, client.getOrderbook marketId = .ok found → book = found)
      ∧ shownMarks client marketId = .ok (deriveMarkPrices book
          (salePrice (client.getMarketLastSale marketId)) (precisionOf market.decimalPrecision))
      ∧ (market.id = marketId → listedMarks client market = shownMarks client marketId) := by
  obtain ⟨stats, hstats, _⟩ := loadOptional_of_found h.stats
    { marketId := some marketId, volume24hUsd := none, liquidityUsd := none }
  obtain ⟨lastSale, hlastSale, hprice⟩ := price_of_loadLastSale h.lastSale
  obtain ⟨book, hbook, hfound⟩ := loadOptional_of_found h.orderbook
    { marketId := some marketId, asks := some [], bids := some [], updateTimestampMs := none }
  have hdata : MarketService.loadMarketSupportingData client marketId
      = .ok (stats, lastSale, book) := by
    rw [MarketService.loadMarketSupportingData, MarketService.loadOptionalMarketStats, hstats,
      hlastSale, MarketService.loadOptionalOrderbook, hbook]
    rfl
  refine ⟨book, hfound, ?_, fun hid => ?_⟩
  · rw [shownMarks, MarketService.getDetail, h.market, hdata, ← hprice]
    rfl
  · rw [shownMarks, listedMarks, MarketService.getDetail, MarketService.enrichMarket, hid,
      h.market, hdata]
    rfl

/-- The service of positions needs the book. -/
theorem usedMarks_eq (letters : Letters) {client : Client} {marketId : MarketId}
    {market : MarketRecord} (h : client.getMarket marketId = .ok market) :
    usedMarks letters client marketId
      = (client.getOrderbook marketId).map fun book =>
          Predict.getMarketDetail book market.decimalPrecision := by
  rw [usedMarks, PositionsService.currentMarkPrice, PositionsService.currentMarkPrice,
    PositionsService.getMarketDetail, h, letters.upper_label, letters.upper_label]
  cases client.getOrderbook marketId with
  | error error => rfl
  | ok book => rfl

/-- **When there is one mark price**: the book is found, and its two fallbacks agree. -/
theorem oneMarkPrice_iff (letters : Letters) {client : Client} {marketId : MarketId}
    {market : MarketRecord} (h : Served client marketId market) :
    OneMarkPrice letters client marketId
      ↔ ∃ book, client.getOrderbook marketId = .ok book
        ∧ FallbacksAgree (bestPrice book.askLevels) (bestPrice book.bidLevels)
            (salePrice (client.getMarketLastSale marketId))
            (precisionOf market.decimalPrecision) := by
  obtain ⟨book, hfound, hshown, hlisted⟩ := shown_of_served h
  have hused := usedMarks_eq letters h.market
  constructor
  · intro hone
    have heq := hone.shown
    cases hbook : client.getOrderbook marketId with
    | error error =>
        -- the one service fails where the other shows the marks of an empty book
        rw [hused, hshown, hbook] at heq
        cases heq
    | ok found =>
        rw [hused, hshown, hbook, hfound found hbook] at heq
        exact ⟨found, rfl, (deriveMarkPrices_eq_iff found _ _).mp (Except.ok.inj heq)⟩
  · rintro ⟨found, hbook, hagree⟩
    have heq : usedMarks letters client marketId = shownMarks client marketId := by
      rw [hused, hshown, hbook, hfound found hbook]
      exact congrArg Except.ok ((deriveMarkPrices_eq_iff found _ _).mpr hagree)
    refine ⟨heq, fun market' hmarket' hid => ?_⟩
    obtain rfl : market = market' := Except.ok.inj (h.market.symm.trans hmarket')
    rw [heq, hlisted hid]

/-- A market with a book, and without a sale so far. -/
def unsold (asks bids : List Level) : Client where
  getMarket id := .ok { id, title := none, question := none, categorySlug := none
                        decimalPrecision := some 2, feeRateBps := none, volume24hUsd := none }
  getMarketStats _ := .error { statusCode := some 404 }
  getMarketLastSale _ := .error { statusCode := some 404 }
  getOrderbook id := .ok { marketId := some id, asks := some asks, bids := some bids
                           updateTimestampMs := none }

theorem served_unsold (asks bids : List Level) :
    ∃ market, Served (unsold asks bids) (.inr 1) market := by
  refine ⟨_, rfl, ?_, ?_, ?_⟩
  · intro error herror
    cases herror
    rfl
  · intro error herror
    cases herror
    rfl
  · intro error herror
    cases herror

/-- With both sides there is. -/
theorem oneMarkPrice_iff_sides :
    OneMarkPrice asciiLetters (unsold [(3 / 4, 1)] [(7 / 10, 1)]) (.inr 1) := by
  obtain ⟨market, hserved⟩ := served_unsold [(3 / 4, 1)] [(7 / 10, 1)]
  exact (oneMarkPrice_iff asciiLetters hserved).mpr ⟨_, rfl, trivial⟩

/-- With an ask at 0.90 and no bid the one service shows 0.90, and the other computes with 0.70. -/
theorem not_oneMarkPrice_oneAsk :
    ¬ ∀ (letters : Letters) (client : Client) (marketId : MarketId) (market : MarketRecord),
      Served client marketId market → OneMarkPrice letters client marketId := by
  intro hall
  obtain ⟨market, hserved⟩ := served_unsold [(9 / 10, 1)] []
  have hsame := (hall asciiLetters _ _ market hserved).shown
  have hmarks : marksOf ((9 / 10 + 1 / 2) / 2) 2 = marksOf (9 / 10) 2 := Except.ok.inj hsame
  have hround : roundTo ((9 / 10 + 1 / 2) / 2) 2 = roundTo (9 / 10) 2 := congrArg Prod.fst hmarks
  have hused := abs_roundTo_sub_le ((9 / 10 + 1 / 2) / 2) 2
  have hshown := abs_roundTo_sub_le (9 / 10) 2
  rw [hround, abs_le] at hused
  rw [abs_le] at hshown
  norm_num at hused hshown
  linarith

end Marks
