import MandatedVaultFactory.MarkPriceProofs
import MandatedVaultFactory.StableSortProofs
import MandatedVaultFactory.TwoBetsProofs
import Mathlib.Data.Prod.Lex

/-!
# Coverage of a hedge

A hedge holds a share of an outcome of one market, the target, and a share of an outcome of
another that covers it.  What is reported of it is computed from two prices and from how often the
cover pays where the target does not.

* **`buildPortfolio`** — what is reported; `of_buildPortfolio`.
* **`sortPortfolios`**, **`filterPortfoliosByTier`**, **`filterPortfoliosByCoverage`** — which
  hedges are shown, and in which order.
* **`coverage_is_chance`** — where prices are chances, the coverage is the chance to be paid.
* **`shown_prefix`** — who asks for more is shown the front of what there was.
* **`tier_of_price`** — prices between nothing and one make the first tier.

Prices are exact rationals. -/

namespace Hedge

open Texts Predict Rounding

/-! ## The code -/

/-- `MIN_COVERAGE`. -/
def minCoverage : ℚ := 85 / 100

/-- `NECESSARY_PROBABILITY`. -/
def necessaryProbability : ℚ := 98 / 100

/-- `TIER_THRESHOLDS`: from where on, the tier, its label and its description. -/
def tierThresholds : List (ℚ × Int × Text × Text) :=
  [(95 / 100, 1, "HIGH".toList, "near-arbitrage".toList),
    (90 / 100, 2, "GOOD".toList, "strong hedge".toList),
    (85 / 100, 3, "MODERATE".toList, "decent hedge".toList),
    (0, 4, "LOW".toList, "speculative".toList)]

structure HedgePortfolio where
  targetMarketId : Text
  targetQuestion : Text
  targetSide : YesNo
  targetPrice : ℚ
  coverMarketId : Text
  coverQuestion : Text
  coverSide : YesNo
  coverPrice : ℚ
  coverage : ℚ
  lossProbability : ℚ
  expectedProfit : ℚ
  totalCost : ℚ
  tier : Int
  tierLabel : Text
  relationship : Text

structure CoverageMetrics where
  coverage : ℚ
  lossProbability : ℚ
  expectedProfit : ℚ

/-- `calculate_coverage_metrics`, in exact arithmetic: what is rounded is the value itself, where the
    code rounds the double next to it. -/
def calculateCoverageMetrics (targetPrice coverProbability totalCost : ℚ) : CoverageMetrics :=
  let pTarget := targetPrice
  let pNotTarget := 1 - targetPrice
  let coverage := pTarget + pNotTarget * coverProbability
  let lossProbability := pNotTarget * (1 - coverProbability)
  let expectedProfit := coverage - totalCost
  { coverage := roundTo coverage 4
    lossProbability := roundTo lossProbability 4
    expectedProfit := roundTo expectedProfit 4 }

/-- `classify_tier`. -/
def classifyTier (coverage : ℚ) : Int × Text :=
  match tierThresholds.find? fun t => t.1 ≤ coverage with
  | some (_, tier, label, _) => (tier, label)
  | none => (4, "LOW".toList)

/-- A market, as a hedge is built from it. -/
structure MarketDict where
  id : Text
  question : Text
  yesPrice : ℚ
  noPrice : ℚ

/-- The price of an outcome. -/
def MarketDict.price (market : MarketDict) : YesNo → ℚ
  | .yes => market.yesPrice
  | .no => market.noPrice

/-- `build_portfolio`. -/
def buildPortfolio (targetMarket coverMarket : MarketDict) (targetPosition coverPosition : YesNo)
    (coverProbability : ℚ) (relationship : Text) : Option HedgePortfolio :=
  let targetPrice := targetMarket.price targetPosition
  let coverPrice := coverMarket.price coverPosition
  let totalCost := roundTo (targetPrice + coverPrice) 4
  if totalCost ≤ 0 ∨ 2 < totalCost then none
  else
    let metrics := calculateCoverageMetrics targetPrice coverProbability totalCost
    if metrics.coverage < minCoverage then none
    else
      some {
        targetMarketId := targetMarket.id
        targetQuestion := targetMarket.question
        targetSide := targetPosition
        targetPrice := roundTo targetPrice 4
        coverMarketId := coverMarket.id
        coverQuestion := coverMarket.question
        coverSide := coverPosition
        coverPrice := roundTo coverPrice 4
        coverage := metrics.coverage
        lossProbability := metrics.lossProbability
        expectedProfit := metrics.expectedProfit
        totalCost
        tier := (classifyTier metrics.coverage).1
        tierLabel := (classifyTier metrics.coverage).2
        relationship }

/-- `filter_portfolios_by_tier`. -/
def filterPortfoliosByTier (portfolios : List HedgePortfolio) (maxTier : Int) :
    List HedgePortfolio := portfolios.filter fun p => p.tier ≤ maxTier

/-- `filter_portfolios_by_coverage`. -/
def filterPortfoliosByCoverage (portfolios : List HedgePortfolio) (minCoverage : ℚ) :
    List HedgePortfolio := portfolios.filter fun p => minCoverage ≤ p.coverage

/-- The key of the order: tuples are compared from the front. -/
def HedgePortfolio.rank (p : HedgePortfolio) : ℤ ×ₗ ℚ ×ₗ ℚ :=
  toLex (p.tier, toLex (-p.coverage, p.totalCost))

/-- `sort_portfolios`. -/
def sortPortfolios (portfolios : List HedgePortfolio) : List HedgePortfolio :=
  StableSort.sortBy HedgePortfolio.rank portfolios

/-! ## What is built -/

/-- What a hedge that is built says. -/
structure Built (targetMarket coverMarket : MarketDict) (targetPosition coverPosition : YesNo)
    (coverProbability : ℚ) (relationship : Text) (p : HedgePortfolio) : Prop where
  target : p.targetMarketId = targetMarket.id ∧ p.targetQuestion = targetMarket.question
    ∧ p.targetSide = targetPosition
  targetPrice : p.targetPrice = roundTo (targetMarket.price targetPosition) 4
  cover : p.coverMarketId = coverMarket.id ∧ p.coverQuestion = coverMarket.question
    ∧ p.coverSide = coverPosition
  coverPrice : p.coverPrice = roundTo (coverMarket.price coverPosition) 4
  totalCost : p.totalCost
    = roundTo (targetMarket.price targetPosition + coverMarket.price coverPosition) 4
  costs : 0 < p.totalCost ∧ p.totalCost ≤ 2
  metrics : calculateCoverageMetrics (targetMarket.price targetPosition) coverProbability
    p.totalCost = ⟨p.coverage, p.lossProbability, p.expectedProfit⟩
  covers : minCoverage ≤ p.coverage
  rated : classifyTier p.coverage = (p.tier, p.tierLabel)
  relationship : p.relationship = relationship

theorem of_buildPortfolio {targetMarket coverMarket : MarketDict}
    {targetPosition coverPosition : YesNo} {coverProbability : ℚ} {relationship : Text}
    {p : HedgePortfolio}
    (h : buildPortfolio targetMarket coverMarket targetPosition coverPosition coverProbability
      relationship = some p) :
    Built targetMarket coverMarket targetPosition coverPosition coverProbability relationship
      p := by
  rw [buildPortfolio] at h
  dsimp only at h
  by_cases hcost : roundTo (targetMarket.price targetPosition + coverMarket.price coverPosition) 4
      ≤ 0 ∨ 2 < roundTo (targetMarket.price targetPosition + coverMarket.price coverPosition) 4
  · rw [if_pos hcost] at h
    cases h
  rw [if_neg hcost] at h
  by_cases hcoverage : (calculateCoverageMetrics (targetMarket.price targetPosition)
      coverProbability (roundTo (targetMarket.price targetPosition
        + coverMarket.price coverPosition) 4)).coverage < minCoverage
  · rw [if_pos hcoverage] at h
    cases h
  rw [if_neg hcoverage] at h
  obtain rfl := Option.some.inj h
  rw [not_or, not_le, not_lt] at hcost
  exact {
    target := ⟨rfl, rfl, rfl⟩
    targetPrice := rfl
    cover := ⟨rfl, rfl, rfl⟩
    coverPrice := rfl
    totalCost := rfl
    costs := hcost
    metrics := rfl
    covers := not_lt.mp hcoverage
    rated := rfl
    relationship := rfl }

/-! ## Rounding keeps the order -/

theorem halfEven_mono {x y : ℚ} (h : x ≤ y) : halfEven x ≤ halfEven y := by
  have hx := abs_le.mp (abs_halfEven_sub_le x)
  have hy := abs_le.mp (abs_halfEven_sub_le y)
  by_contra hlt
  have hint : halfEven y + 1 ≤ halfEven x := not_le.mp hlt
  have hcast : (halfEven y : ℚ) + 1 ≤ halfEven x := by exact_mod_cast hint
  -- then both are the same half, and it is rounded in one way
  have heq : x = y := by linarith
  rw [heq] at hint
  omega

theorem roundTo_mono {x y : ℚ} (h : x ≤ y) (digits : ℤ) : roundTo x digits ≤ roundTo y digits := by
  have hpos : (0 : ℚ) < 10 ^ digits := zpow_pos (by norm_num) digits
  rw [roundTo, roundTo, div_le_div_iff_of_pos_right hpos, Int.cast_le]
  exact halfEven_mono (mul_le_mul_of_nonneg_right h hpos.le)

/-- What has no more digits stays as it is. -/
theorem roundTo_units (n digits : ℤ) : roundTo (n / 10 ^ digits) digits = n / 10 ^ digits := by
  have hpos : (0 : ℚ) < 10 ^ digits := zpow_pos (by norm_num) digits
  rw [roundTo, div_mul_cancel₀ _ hpos.ne', halfEven_intCast]

theorem roundTo_zero (digits : ℤ) : roundTo 0 digits = 0 := by
  have h := roundTo_units 0 digits
  rwa [Int.cast_zero, zero_div] at h

theorem roundTo_nonneg {x : ℚ} (h : 0 ≤ x) (digits : ℤ) : 0 ≤ roundTo x digits :=
  (roundTo_zero digits).symm.trans_le (roundTo_mono h digits)

/-- Four digits are enough for hundredths. -/
theorem roundTo_hundredths (n : ℤ) : roundTo (n / 100) 4 = n / 100 := by
  have h := roundTo_units (n * 100) 4
  have hsame : ((n * 100 : ℤ) : ℚ) / 10 ^ (4 : ℤ) = n / 100 := by
    rw [Int.cast_mul]
    norm_num
    ring
  rwa [hsame] at h

/-- **A chance is rounded to a chance**, at any place. -/
theorem roundTo_le_one {x : ℚ} (h : x ≤ 1) (digits : ℤ) : roundTo x digits ≤ 1 := by
  have hpos : (0 : ℚ) < 10 ^ digits := zpow_pos (by norm_num) digits
  refine (roundTo_mono h digits).trans ?_
  rcases le_or_gt 0 digits with hdigits | hdigits
  · obtain ⟨n, rfl⟩ := Int.eq_ofNat_of_zero_le hdigits
    have hunits := roundTo_units (10 ^ n) n
    rw [Int.cast_pow, Int.cast_ofNat, zpow_natCast, div_self (by positivity)] at hunits
    rw [hunits]
  · -- one is less than half a unit of the place
    have hsmall : (10 : ℚ) ^ digits ≤ 10 ^ (-1 : ℤ) :=
      zpow_le_zpow_right₀ (by norm_num) (by omega)
    have hnone : halfEven (1 * 10 ^ digits) ≤ 0 := by
      refine ((nearest_halfEven _).even_ge_iff (Int.even_iff.mpr rfl)).mpr ?_
      rw [one_mul, Int.cast_zero]
      refine hsmall.trans ?_
      norm_num
    rw [roundTo, div_le_one hpos]
    have hcast : (halfEven (1 * 10 ^ digits) : ℚ) ≤ 0 := by exact_mod_cast hnone
    exact hcast.trans hpos.le

/-! ## Tiers -/

theorem classifyTier_eq (c : ℚ) : classifyTier c =
    if 95 / 100 ≤ c then (1, "HIGH".toList)
    else if 90 / 100 ≤ c then (2, "GOOD".toList)
    else if 85 / 100 ≤ c then (3, "MODERATE".toList)
    else (4, "LOW".toList) := by
  rw [classifyTier, tierThresholds]
  by_cases hhigh : (95 : ℚ) / 100 ≤ c
  · rw [if_pos hhigh, List.find?_cons_of_pos (by exact decide_eq_true hhigh)]
  rw [if_neg hhigh, List.find?_cons_of_neg (by rwa [decide_eq_true_eq])]
  by_cases hgood : (90 : ℚ) / 100 ≤ c
  · rw [if_pos hgood, List.find?_cons_of_pos (by exact decide_eq_true hgood)]
  rw [if_neg hgood, List.find?_cons_of_neg (by rwa [decide_eq_true_eq])]
  by_cases hmoderate : (85 : ℚ) / 100 ≤ c
  · rw [if_pos hmoderate, List.find?_cons_of_pos (by exact decide_eq_true hmoderate)]
  rw [if_neg hmoderate, List.find?_cons_of_neg (by rwa [decide_eq_true_eq])]
  -- below all of them the label is the same as from zero on
  by_cases hlow : (0 : ℚ) ≤ c
  · rw [List.find?_cons_of_pos (by exact decide_eq_true hlow)]
  · rw [List.find?_cons_of_neg (by rwa [decide_eq_true_eq])]
    rfl

/-- Who covers more is in no later tier. -/
theorem classifyTier_antitone {a b : ℚ} (h : a ≤ b) : (classifyTier b).1 ≤ (classifyTier a).1 := by
  rw [classifyTier_eq, classifyTier_eq]
  split_ifs <;> first | decide | (exfalso; linarith)

/-! ## What is shown -/

/-- What `scan` returns of the hedges it has found. -/
def shown (portfolios : List HedgePortfolio) (minCoverage : ℚ) (tier : Int) :
    List HedgePortfolio :=
  sortPortfolios (filterPortfoliosByTier (filterPortfoliosByCoverage portfolios minCoverage) tier)

/-- The tier is the one of the coverage. -/
def HedgePortfolio.Rated (p : HedgePortfolio) : Prop := p.tier = (classifyTier p.coverage).1

theorem rank_le_iff {p q : HedgePortfolio} : p.rank ≤ q.rank ↔
    p.tier < q.tier ∨ p.tier = q.tier
      ∧ (q.coverage < p.coverage ∨ p.coverage = q.coverage ∧ p.totalCost ≤ q.totalCost) := by
  rw [HedgePortfolio.rank, HedgePortfolio.rank, Prod.Lex.toLex_le_toLex, Prod.Lex.toLex_le_toLex,
    neg_lt_neg_iff, neg_inj]

/-- An earlier hedge covers no less, and is in no later tier. -/
theorem le_of_rank_le {p q : HedgePortfolio} (hp : p.Rated) (hq : q.Rated)
    (h : p.rank ≤ q.rank) : q.coverage ≤ p.coverage ∧ p.tier ≤ q.tier := by
  rcases rank_le_iff.mp h with htier | ⟨htier, hcoverage | ⟨hcoverage, _⟩⟩
  · refine ⟨?_, htier.le⟩
    -- less coverage would be no earlier tier
    by_contra hless
    have hle := classifyTier_antitone (not_le.mp hless).le
    rw [← hp, ← hq] at hle
    exact absurd htier (not_lt.mpr hle)
  · exact ⟨hcoverage.le, htier.le⟩
  · exact ⟨hcoverage.ge, htier.le⟩

theorem shown_eq_filter (portfolios : List HedgePortfolio) (c : ℚ) (t : Int) :
    shown portfolios c t
      = (sortPortfolios portfolios).filter fun p => decide (c ≤ p.coverage) && p.tier ≤ t := by
  rw [shown, sortPortfolios, filterPortfoliosByTier, filterPortfoliosByCoverage, List.filter_filter,
    sortPortfolios, StableSort.filter_sortBy]
  congr 2
  funext p
  exact Bool.and_comm _ _

/-- **Who asks for more is shown the front of what there was**: more coverage or a better tier
    only cuts the list off. -/
theorem shown_prefix {portfolios : List HedgePortfolio} (hrated : ∀ p ∈ portfolios, p.Rated)
    {c c' : ℚ} {t t' : Int} (hc : c ≤ c') (ht : t' ≤ t) :
    shown portfolios c' t' <+: shown portfolios c t := by
  have hagain : shown portfolios c' t'
      = (shown portfolios c t).filter fun p => decide (c' ≤ p.coverage) && p.tier ≤ t' := by
    rw [shown_eq_filter, shown_eq_filter, List.filter_filter]
    refine List.filter_congr fun p _ => ?_
    rw [Bool.eq_iff_iff, Bool.and_eq_true, Bool.and_eq_true, Bool.and_eq_true, Bool.and_eq_true,
      decide_eq_true_eq, decide_eq_true_eq, decide_eq_true_eq, decide_eq_true_eq]
    constructor
    · rintro ⟨hcoverage, htier⟩
      exact ⟨⟨hcoverage, htier⟩, hc.trans hcoverage, htier.trans ht⟩
    · exact fun h => h.1
  have hmem : ∀ p ∈ shown portfolios c t, p.Rated := by
    intro p hp
    rw [shown_eq_filter] at hp
    exact hrated p ((StableSort.mem_sortBy _).mp (List.mem_of_mem_filter hp))
  rw [hagain]
  refine StableSort.filter_prefix_of_sorted HedgePortfolio.rank
    (StableSort.sorted_sortBy _ _) fun p hp q hq hle hkept => ?_
  obtain ⟨hcoverage, htier⟩ := le_of_rank_le (hmem p hp) (hmem q hq) hle
  rw [Bool.and_eq_true, decide_eq_true_eq, decide_eq_true_eq] at hkept ⊢
  exact ⟨hkept.1.trans hcoverage, htier.trans hkept.2⟩

/-! ## Prices between nothing and one -/

section Prices

variable {targetMarket coverMarket : MarketDict} {targetPosition coverPosition : YesNo}
  {relationship : Text} {p : HedgePortfolio}

/-- The coverage of a necessary hedge, before it is rounded. -/
theorem coverage_eq {coverProbability : ℚ}
    (h : Built targetMarket coverMarket targetPosition coverPosition coverProbability relationship
      p) :
    p.coverage = roundTo (targetMarket.price targetPosition
      + (1 - targetMarket.price targetPosition) * coverProbability) 4 :=
  (congrArg CoverageMetrics.coverage h.metrics).symm

theorem lossProbability_eq {coverProbability : ℚ}
    (h : Built targetMarket coverMarket targetPosition coverPosition coverProbability relationship
      p) :
    p.lossProbability = roundTo ((1 - targetMarket.price targetPosition)
      * (1 - coverProbability)) 4 :=
  (congrArg CoverageMetrics.lossProbability h.metrics).symm

theorem expectedProfit_eq {coverProbability : ℚ}
    (h : Built targetMarket coverMarket targetPosition coverPosition coverProbability relationship
      p) :
    p.expectedProfit = roundTo (targetMarket.price targetPosition
      + (1 - targetMarket.price targetPosition) * coverProbability - p.totalCost) 4 :=
  (congrArg CoverageMetrics.expectedProfit h.metrics).symm

theorem rated_of_built {coverProbability : ℚ}
    (h : Built targetMarket coverMarket targetPosition coverPosition coverProbability relationship
      p) : p.Rated := (congrArg Prod.fst h.rated).symm

theorem coverage_bounds {price : ℚ} (h : 0 ≤ price ∧ price ≤ 1) :
    98 / 100 ≤ roundTo (price + (1 - price) * necessaryProbability) 4
      ∧ roundTo (price + (1 - price) * necessaryProbability) 4 ≤ 1 := by
  rw [necessaryProbability]
  refine ⟨?_, roundTo_le_one (by linarith) 4⟩
  have hleast := roundTo_hundredths 98
  rw [Int.cast_ofNat] at hleast
  exact hleast.ge.trans (roundTo_mono (by linarith) 4)

/-- **A price between nothing and one makes the first tier.** -/
theorem tier_of_price
    (hprice : 0 ≤ targetMarket.price targetPosition ∧ targetMarket.price targetPosition ≤ 1)
    (h : Built targetMarket coverMarket targetPosition coverPosition necessaryProbability
      relationship p) :
    (98 / 100 ≤ p.coverage ∧ p.coverage ≤ 1) ∧ p.tier = 1 ∧ p.tierLabel = "HIGH".toList := by
  have hbounds := coverage_bounds hprice
  rw [← coverage_eq h] at hbounds
  have hrated := h.rated
  rw [classifyTier_eq, if_pos (by linarith)] at hrated
  exact ⟨hbounds, (congrArg Prod.fst hrated).symm, (congrArg Prod.snd hrated).symm⟩

/-- Costs are rounded to nothing up to half a unit of the last digit. -/
theorem costs_iff {cost : ℚ} : 0 < roundTo cost 4 ↔ 1 / 20000 < cost := by
  have hunits : (10 : ℚ) ^ (4 : ℤ) = 10000 := by norm_num
  rw [roundTo, hunits, lt_div_iff₀ (by norm_num), zero_mul, Int.cast_pos, ← not_le,
    (nearest_halfEven _).even_ge_iff (Int.even_iff.mpr rfl), not_le, Int.cast_zero]
  constructor <;> intro h <;> linarith

/-- **When a hedge is built** from prices between nothing and one: whatever it costs more than
    nothing. -/
theorem isSome_buildPortfolio_iff
    (htarget : 0 ≤ targetMarket.price targetPosition ∧ targetMarket.price targetPosition ≤ 1)
    (hcover : coverMarket.price coverPosition ≤ 1) :
    (buildPortfolio targetMarket coverMarket targetPosition coverPosition necessaryProbability
      relationship).isSome = true
      ↔ 1 / 20000 < targetMarket.price targetPosition + coverMarket.price coverPosition := by
  have htwo : roundTo (targetMarket.price targetPosition + coverMarket.price coverPosition) 4
      ≤ 2 := by
    have hmost := roundTo_hundredths 200
    rw [Int.cast_ofNat, show (200 : ℚ) / 100 = 2 by norm_num] at hmost
    exact (roundTo_mono (by linarith [htarget.2]) 4).trans hmost.le
  have hcovers : ¬ (calculateCoverageMetrics (targetMarket.price targetPosition)
      necessaryProbability (roundTo (targetMarket.price targetPosition
        + coverMarket.price coverPosition) 4)).coverage < minCoverage := by
    rw [not_lt, minCoverage]
    refine le_trans ?_ (coverage_bounds htarget).1
    norm_num
  rw [buildPortfolio]
  dsimp only
  by_cases hcost : roundTo (targetMarket.price targetPosition + coverMarket.price coverPosition) 4
      ≤ 0
  · rw [if_pos (Or.inl hcost), ← costs_iff]
    exact ⟨fun h => (nomatch h), fun h => absurd h (not_lt.mpr hcost)⟩
  · rw [if_neg (not_or.mpr ⟨hcost, not_lt.mpr htwo⟩), if_neg hcovers, ← costs_iff]
    exact ⟨fun _ => not_le.mp hcost, fun _ => rfl⟩

end Prices

/-! ## Payments -/

/-- Which outcome every market ends with. -/
abbrev Outcomes : Type := Text → YesNo

/-- What the two shares of a hedge pay. -/
def HedgePortfolio.payout (p : HedgePortfolio) (outcomes : Outcomes) : Nat :=
  (if outcomes p.targetMarketId = p.targetSide then 1 else 0)
    + if outcomes p.coverMarketId = p.coverSide then 1 else 0

theorem one_le_payout_iff {p : HedgePortfolio} {outcomes : Outcomes} : 1 ≤ p.payout outcomes ↔
    outcomes p.targetMarketId = p.targetSide ∨ outcomes p.coverMarketId = p.coverSide := by
  by_cases htarget : outcomes p.targetMarketId = p.targetSide <;>
    by_cases hcover : outcomes p.coverMarketId = p.coverSide <;>
    simp [HedgePortfolio.payout, htarget, hcover]

section Chances

open MeasureTheory

variable {Ω : Type} (outcomes : Ω → Outcomes) (p : HedgePortfolio)

/-- The target pays. -/
def targetPays : Set Ω := {ω | outcomes ω p.targetMarketId = p.targetSide}

/-- The cover pays. -/
def coverPays : Set Ω := {ω | outcomes ω p.coverMarketId = p.coverSide}

theorem payout_eq (ω : Ω) :
    (p.payout (outcomes ω) : ℝ)
      = TwoBets.payout (targetPays outcomes p) (coverPays outcomes p) ω := by
  by_cases htarget : outcomes ω p.targetMarketId = p.targetSide <;>
    by_cases hcover : outcomes ω p.coverMarketId = p.coverSide <;>
    norm_num [HedgePortfolio.payout, TwoBets.payout, targetPays, coverPays, htarget, hcover]

variable [MeasurableSpace Ω]

/-- **What the numbers of a hedge mean.**  Where the price of the target is its chance, and the
    cover pays as often as assumed where the target does not, the coverage is the chance that a
    share pays, the loss probability that none does; and the profit to expect is the one on
    average, without the chance that both shares pay.  All but for the roundings. -/
structure Meant (μ : Measure Ω) (cost : ℚ) : Prop where
  coverage : |μ.real {ω | 1 ≤ p.payout (outcomes ω)} - p.coverage| ≤ 1 / 20000
  loss : |μ.real {ω | p.payout (outcomes ω) = 0} - p.lossProbability| ≤ 1 / 20000
  profit : |∫ ω, (p.payout (outcomes ω) : ℝ) ∂μ - cost
    - μ.real (targetPays outcomes p ∩ coverPays outcomes p) - p.expectedProfit| ≤ 1 / 10000

theorem abs_cast_roundTo_sub_le (x : ℚ) : |(x : ℝ) - roundTo x 4| ≤ 1 / 20000 := by
  have h := abs_roundTo_sub_le x 4
  rw [abs_sub_comm, show (1 : ℚ) / 2 / 10 ^ (4 : ℤ) = 1 / 20000 by norm_num] at h
  have hcast : ((|x - roundTo x 4| : ℚ) : ℝ) ≤ ((1 / 20000 : ℚ) : ℝ) := Rat.cast_le.mpr h
  push_cast at hcast
  exact hcast

/-- **The coverage is a chance.** -/
theorem coverage_is_chance (μ : Measure Ω) [IsProbabilityMeasure μ]
    {targetMarket coverMarket : MarketDict} {targetPosition coverPosition : YesNo}
    {coverProbability : ℚ} {relationship : Text} {p : HedgePortfolio}
    (h : buildPortfolio targetMarket coverMarket targetPosition coverPosition coverProbability
      relationship = some p)
    (htarget : MeasurableSet (targetPays outcomes p))
    (hcover : MeasurableSet (coverPays outcomes p))
    (hprice : μ.real (targetPays outcomes p) = targetMarket.price targetPosition)
    (hshare : μ.real (coverPays outcomes p \ targetPays outcomes p)
      = coverProbability * μ.real (targetPays outcomes p)ᶜ) :
    Meant outcomes p μ (targetMarket.price targetPosition + coverMarket.price coverPosition) := by
  have hbuilt := of_buildPortfolio h
  have hpaid : {ω | 1 ≤ p.payout (outcomes ω)} = targetPays outcomes p ∪ coverPays outcomes p := by
    ext ω
    exact one_le_payout_iff
  have hunpaid : {ω | p.payout (outcomes ω) = 0}
      = (targetPays outcomes p ∪ coverPays outcomes p)ᶜ := by
    rw [← hpaid]
    ext ω
    show p.payout (outcomes ω) = 0 ↔ ¬ 1 ≤ p.payout (outcomes ω)
    omega
  have hchance : μ.real (targetPays outcomes p ∪ coverPays outcomes p)
      = ((targetMarket.price targetPosition
        + (1 - targetMarket.price targetPosition) * coverProbability : ℚ) : ℝ) := by
    rw [TwoBets.real_union_of_share μ htarget hshare, hprice]
    push_cast
    ring
  constructor
  · rw [hpaid, hchance, coverage_eq hbuilt]
    exact abs_cast_roundTo_sub_le _
  · have hloss : μ.real (targetPays outcomes p ∪ coverPays outcomes p)ᶜ
        = (((1 - targetMarket.price targetPosition) * (1 - coverProbability) : ℚ) : ℝ) := by
      rw [TwoBets.real_compl_union_of_share μ htarget hcover hshare, hprice]
      push_cast
      ring
    rw [hunpaid, hloss, lossProbability_eq hbuilt]
    exact abs_cast_roundTo_sub_le _
  · have hcosts := abs_cast_roundTo_sub_le
      (targetMarket.price targetPosition + coverMarket.price coverPosition)
    rw [← hbuilt.totalCost] at hcosts
    have hprofit := abs_cast_roundTo_sub_le (targetMarket.price targetPosition
      + (1 - targetMarket.price targetPosition) * coverProbability - p.totalCost)
    rw [← expectedProfit_eq hbuilt, Rat.cast_sub] at hprofit
    rw [funext (payout_eq outcomes p), TwoBets.integral_payout_eq μ htarget hcover, hchance]
    rw [abs_le] at hcosts hprofit ⊢
    constructor <;> linarith [hcosts.1, hcosts.2, hprofit.1, hprofit.2]

end Chances

/-! ## A target at even odds -/

section Three

open MeasureTheory

/-- A market at even odds. -/
def evenMarket (id : Text) : MarketDict where
  id := id
  question := []
  yesPrice := 1 / 2
  noPrice := 1 / 2

/-- The target pays, or the cover does, or neither. -/
def threeOutcomes : Fin 3 → Outcomes
  | 0, _ => .no
  | 1, _ => .yes
  | 2, id => if id = ['b'] then .no else .yes

noncomputable def threeChances : Measure (Fin 3) :=
  ENNReal.ofReal (1 / 2) • Measure.dirac 0 + ENNReal.ofReal (49 / 100) • Measure.dirac 1
    + ENNReal.ofReal (1 / 100) • Measure.dirac 2

open Classical in
theorem threeChances_apply (s : Set (Fin 3)) : threeChances s = ENNReal.ofReal
    ((if 0 ∈ s then 1 / 2 else 0) + (if 1 ∈ s then 49 / 100 else 0)
      + if 2 ∈ s then 1 / 100 else 0) := by
  have hweight : ∀ (c : ℝ) (n : Fin 3), (ENNReal.ofReal c • Measure.dirac n) s
      = ENNReal.ofReal (if n ∈ s then c else 0) := by
    intro c n
    rw [Measure.smul_apply, smul_eq_mul, Measure.dirac_apply]
    by_cases hn : n ∈ s <;> simp [hn]
  have hnonneg : ∀ {c : ℝ} (n : Fin 3), 0 ≤ c → 0 ≤ if n ∈ s then c else 0 := by
    intro c n hc
    split_ifs
    · exact hc
    · exact le_rfl
  rw [threeChances, Measure.add_apply, Measure.add_apply, hweight, hweight, hweight,
    ← ENNReal.ofReal_add (hnonneg 0 (by norm_num)) (hnonneg 1 (by norm_num)),
    ← ENNReal.ofReal_add (add_nonneg (hnonneg 0 (by norm_num)) (hnonneg 1 (by norm_num)))
      (hnonneg 2 (by norm_num))]

instance : IsProbabilityMeasure threeChances where
  measure_univ := by
    rw [threeChances_apply]
    norm_num

theorem coverage_is_chance_three : ∃ p,
    buildPortfolio (evenMarket ['a']) (evenMarket ['b']) .no .yes necessaryProbability [] = some p
      ∧ Meant threeOutcomes p threeChances (1 / 2 + 1 / 2) := by
  have hsome : (buildPortfolio (evenMarket ['a']) (evenMarket ['b']) .no .yes necessaryProbability
      []).isSome = true :=
    (isSome_buildPortfolio_iff (by norm_num [evenMarket, MarketDict.price])
      (by norm_num [evenMarket, MarketDict.price])).mpr
      (by norm_num [evenMarket, MarketDict.price])
  obtain ⟨p, h⟩ := Option.isSome_iff_exists.mp hsome
  have hbuilt := of_buildPortfolio h
  have htarget : targetPays threeOutcomes p = {0} := by
    ext n
    show threeOutcomes n p.targetMarketId = p.targetSide ↔ n = 0
    rw [hbuilt.target.1, hbuilt.target.2.2]
    fin_cases n <;> simp [threeOutcomes, evenMarket]
  have hcover : coverPays threeOutcomes p = {1} := by
    ext n
    show threeOutcomes n p.coverMarketId = p.coverSide ↔ n = 1
    rw [hbuilt.cover.1, hbuilt.cover.2.2]
    fin_cases n <;> simp [threeOutcomes, evenMarket]
  have hzero : (2 : Fin 3) ≠ 0 := by decide
  have hone : (2 : Fin 3) ≠ 1 := by decide
  refine ⟨p, h, coverage_is_chance threeOutcomes threeChances h MeasurableSet.of_discrete
    MeasurableSet.of_discrete ?_ ?_⟩
  · rw [htarget, measureReal_def, threeChances_apply]
    norm_num [evenMarket, MarketDict.price, hzero]
  · rw [htarget, hcover, measureReal_def, measureReal_def, threeChances_apply, threeChances_apply]
    norm_num [necessaryProbability, hzero, hone]

end Three

end Hedge
