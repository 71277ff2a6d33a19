import MandatedVaultFactory.CoverageProofs
import MandatedVaultFactory.JsonDumpsProofs
import MandatedVaultFactory.MarketSearchProofs
import MandatedVaultFactory.RequestRunsProofs

/-!
# Finding hedges

A language model is asked, for a market and each of some others, whether the one can only happen
with the other.  Where it says so a hedge is built of the two, and the hedges that cover enough are
shown.

* **`HedgeService.scan`**, **`HedgeService.analyze`** — the code.
* **`scan_pays`** — a hedge pays in every case that the answer about it allows, and in no other.
* **`scan_prefix`** — who asks for more coverage is shown the front of what there was.
* **`scan_of_chances`** — where the exchange quotes chances, nothing is dropped. -/

namespace Hedge

open Texts Predict Json Marks Marks.MarketService

variable {floats : Floats}

/-! ## Markets -/

/-- `str(market.id)`. -/
def strId : MarketId → Text
  | .inl text => text
  | .inr n => intText n

/-- `_summary_to_market_dict`. -/
def summaryToMarketDict (summary : MarketSummary) : MarketDict where
  id := strId summary.id
  question := summary.question
  yesPrice := summary.yesMarkPrice
  noPrice := summary.noMarkPrice

/-- `summary_to_dict`; `float` is the float of a number. -/
def summaryToDict (float : ℚ → floats.Float) (summary : MarketSummary) : Loaded floats.Float :=
  .obj [("id".toList, .str (strId summary.id)), ("title".toList, .str summary.title),
    ("question".toList, .str summary.question), ("categorySlug".toList, .str summary.categorySlug),
    ("feeRateBps".toList, (summary.feeRateBps.map Value.int).getD .null),
    ("yesMarkPrice".toList, .float (float summary.yesMarkPrice)),
    ("noMarkPrice".toList, .float (float summary.noMarkPrice)),
    ("volume24hUsd".toList, .float (float summary.volume24hUsd)),
    ("decimalPrecision".toList, .int summary.decimalPrecision)]

/-- The summary of a market of which all details are there. -/
def summaryOfDetail (detail : MarketService.MarketDetail) : MarketSummary where
  id := detail.market.id
  title := detail.market.title.getD []
  question := detail.market.shownQuestion
  categorySlug := detail.market.categorySlug.getD []
  feeRateBps := detail.market.feeRateBps
  yesMarkPrice := detail.yesMarkPrice
  noMarkPrice := detail.noMarkPrice
  volume24hUsd := orZero detail.stats.volume24hUsd
  decimalPrecision := precisionOf detail.market.decimalPrecision

/-! ## What is asked -/

/-- `IMPLICATION_SYSTEM_PROMPT`. -/
def implicationSystemPrompt : Text :=
  "Find ONLY logically necessary relationships between prediction market events.\nReject correlations, trends, and merely plausible relationships. Return JSON only.".toList

/-- What is to be returned of a relationship. -/
def returned (explanation : Text) : Loaded floats.Float :=
  .arr [.obj [("market_id".toList, .str "exact id".toList),
    ("market_question".toList, .str "exact question".toList),
    ("explanation".toList, .str explanation),
    ("counterexample_attempt".toList, .str "brief explanation".toList)]]

/-- `build_implication_prompt`. -/
def buildImplicationPrompt (targetQuestion : Text) (candidates : List (Loaded floats.Float)) :
    Text :=
  dumpsIndent floats (.obj [
    ("task".toList, .str "Find logically necessary implications only.".toList),
    ("counterexampleDiscipline".toList,
      .str "If you can imagine any world where the implication fails, reject it.".toList),
    ("targetQuestion".toList, .str targetQuestion),
    ("candidates".toList, .arr candidates),
    ("return".toList, .obj [
      ("implied_by".toList, returned "why candidate YES guarantees target YES".toList),
      ("implies".toList, returned "why target YES guarantees candidate YES".toList)])])

/-! ## What is answered -/

/-- Why a command fails. -/
inductive Failure where
  | exchange (error : PredictApiError)
  | model (failure : Requests.LlmFailure)
  | unexpectedAnswer

def impliedByKey : Text := "implied_by".toList
def impliesKey : Text := "implies".toList
def explanationKey : Text := "explanation".toList

structure Relationship where
  targetPosition : YesNo
  coverPosition : YesNo
  relationship : Text

/-- `value[0].get("explanation", "necessary implication")`, in an f-string. -/
def explanationOf (str : Loaded floats.Float → Text) :
    Loaded floats.Float → Except Failure Text
  | .arr (.obj first :: _) =>
      match lookup explanationKey first with
      | some explanation => .ok (str explanation)
      | none => .ok "necessary implication".toList
  | _ => .error .unexpectedAnswer

/-- What the model asserts of a target and a cover. -/
inductive Assertion where
  /-- The cover is only YES where the target is. -/
  | impliedBy
  /-- The target is only YES where the cover is. -/
  | implies
deriving DecidableEq

/-- The outcomes that are bought on an assertion. -/
def Assertion.positions : Assertion → YesNo × YesNo
  | .impliedBy => (.yes, .no)
  | .implies => (.no, .yes)

def Assertion.label : Assertion → Text
  | .impliedBy => "necessary (contrapositive): ".toList
  | .implies => "necessary (direct): ".toList

/-- The assertion that counts: the first of the two that is there. -/
def assertionOf (payload : List (Str × Loaded floats.Float)) :
    Option (Assertion × Loaded floats.Float) :=
  match (lookup impliedByKey payload).filter (truthy floats Str.nil) with
  | some impliedBy => some (.impliedBy, impliedBy)
  | none => ((lookup impliesKey payload).filter (truthy floats Str.nil)).map fun implies => (.implies, implies)

/-- `_relationship_from_payload`. -/
def relationshipFromPayload (str : Loaded floats.Float → Text)
    (payload : List (Str × Loaded floats.Float)) : Except Failure (Option Relationship) :=
  match assertionOf payload with
  | none => .ok none
  | some (assertion, value) => do
      let explanation ← explanationOf str value
      return some {
        targetPosition := assertion.positions.1
        coverPosition := assertion.positions.2
        relationship := assertion.label ++ explanation }

/-! ## The service -/

/-- What the service works with: the exchange, and the model, as it replies to the requests about
    each candidate. -/
structure HedgeService (floats : Floats) where
  /-- `config.env == RuntimeEnv.TEST_FIXTURE`. -/
  testFixture : Bool
  llmConfig : Requests.LlmConfig
  letters : Letters
  client : ListingClient
  server : Nat → Requests.LlmRequest → Nat → Secrets.HttpReply floats
  str : Loaded floats.Float → Text
  float : ℚ → floats.Float

/-- `_fixture_pair_portfolios`. -/
def fixturePairPortfolios (left right : MarketSummary) : List HedgePortfolio :=
  (buildPortfolio (summaryToMarketDict left) (summaryToMarketDict right) .no .yes
    necessaryProbability ("necessary (fixture): ".toList ++ left.question
      ++ " YES implies ".toList ++ right.question ++ " YES".toList)).toList

namespace HedgeService

variable (s : HedgeService floats)

/-- What the model says of a candidate. -/
def answer (candidate : Nat) (left right : MarketSummary) (model : Option Text) :
    Except Failure (Option (List (Str × Loaded floats.Float))) :=
  (Requests.completeJson s.llmConfig (s.server candidate)
    (buildImplicationPrompt left.question [summaryToDict s.float right]) implicationSystemPrompt
    model).2.mapError Failure.model

/-- `_pair_portfolios`. -/
def pairPortfolios (candidate : Nat) (left right : MarketSummary) (model : Option Text) :
    Except Failure (List HedgePortfolio) :=
  if s.testFixture then .ok (fixturePairPortfolios left right)
  else do
    match ← s.answer candidate left right model with
    | none => return []
    | some [] => return []
    | some payload =>
        match ← relationshipFromPayload s.str payload with
        | none => return []
        | some relationship =>
            return (buildPortfolio (summaryToMarketDict left) (summaryToMarketDict right)
              relationship.targetPosition relationship.coverPosition necessaryProbability
              relationship.relationship).toList

/-- `_scan_portfolios`: the first market with each of the others. -/
def scanPortfolios (summaries : List MarketSummary) (model : Option Text) :
    Except Failure (List HedgePortfolio) :=
  match summaries with
  | [] => .ok []
  | anchor :: candidates => do
      let results ← candidates.zipIdx.mapM fun c => s.pairPortfolios c.2 anchor c.1 model
      return results.flatten

/-- The markets that `scan` is about. -/
def summaries (query : Option Text) (limit : Int) : Except PredictApiError (List MarketSummary) :=
  match query with
  | some (c :: text) => search s.letters s.client (c :: text) limit
  | _ => getTrending s.client limit

/-- `scan`. -/
def scan (query : Option Text) (limit : Int) (minCoverage : ℚ) (tier : Int)
    (model : Option Text) : Except Failure (List HedgePortfolio) := do
  let summaries ← (s.summaries query limit).mapError Failure.exchange
  let portfolios ← s.scanPortfolios summaries model
  return shown portfolios minCoverage tier

/-- The two markets of `analyze`: of the trending ones, or as the exchange has them. -/
def pair (leftMarketId rightMarketId : Text) :
    Except PredictApiError (MarketSummary × MarketSummary) := do
  let trending ← getTrending s.client 50
  let byId := dict (trending.map fun summary => (strId summary.id, summary))
  match get leftMarketId byId, get rightMarketId byId with
  | some left, some right => return (left, right)
  | _, _ =>
      let leftDetail ← getDetail s.client.toClient (.inl leftMarketId)
      let rightDetail ← getDetail s.client.toClient (.inl rightMarketId)
      return (summaryOfDetail leftDetail, summaryOfDetail rightDetail)

/-- `analyze`. -/
def analyze (leftMarketId rightMarketId : Text) (model : Option Text) :
    Except Failure (List HedgePortfolio) := do
  let (left, right) ← (s.pair leftMarketId rightMarketId).mapError Failure.exchange
  let portfolios ← s.pairPortfolios 0 left right model
  return sortPortfolios portfolios

end HedgeService

/-! ## What a hedge pays -/

/-- What is asserted of two markets holds of the outcomes. -/
def Assertion.Holds (outcomes : Outcomes) (target cover : Text) : Assertion → Prop
  | .impliedBy => outcomes cover = .yes → outcomes target = .yes
  | .implies => outcomes target = .yes → outcomes cover = .yes

theorem eq_no_iff {outcome : YesNo} : outcome = .no ↔ outcome ≠ .yes := by
  cases outcome <;> decide

/-- A share is paid exactly where the assertion holds. -/
theorem Assertion.pays_iff (assertion : Assertion) {p : HedgePortfolio} {target cover : Text}
    {outcomes : Outcomes} (htarget : p.targetMarketId = target) (hcover : p.coverMarketId = cover)
    (hpositions : (p.targetSide, p.coverSide) = assertion.positions) :
    1 ≤ p.payout outcomes ↔ assertion.Holds outcomes target cover := by
  have htargetSide : p.targetSide = assertion.positions.1 := congrArg Prod.fst hpositions
  have hcoverSide : p.coverSide = assertion.positions.2 := congrArg Prod.snd hpositions
  rw [one_le_payout_iff, htarget, hcover, htargetSide, hcoverSide]
  cases assertion with
  | impliedBy =>
      show outcomes target = .yes ∨ outcomes cover = .no
        ↔ (outcomes cover = .yes → outcomes target = .yes)
      rw [eq_no_iff, imp_iff_not_or, or_comm]
  | implies =>
      show outcomes target = .no ∨ outcomes cover = .yes
        ↔ (outcomes target = .yes → outcomes cover = .yes)
      rw [eq_no_iff, imp_iff_not_or]

namespace HedgeService

variable {s : HedgeService floats}

/-- What the service takes to hold of a pair: what the model answers, or the fixtures assume. -/
def asserted (s : HedgeService floats) (candidate : Nat) (left right : MarketSummary)
    (model : Option Text) : Option Assertion :=
  if s.testFixture then some .implies
  else match s.answer candidate left right model with
    | .ok (some payload) => (assertionOf payload).map Prod.fst
    | _ => none

/-- A hedge of two markets, on an assertion. -/
structure HedgeOf (left right : MarketSummary) (assertion : Assertion) (p : HedgePortfolio) :
    Prop where
  target : p.targetMarketId = strId left.id
  cover : p.coverMarketId = strId right.id
  positions : (p.targetSide, p.coverSide) = assertion.positions
  built : ∃ relationship, buildPortfolio (summaryToMarketDict left) (summaryToMarketDict right)
    assertion.positions.1 assertion.positions.2 necessaryProbability relationship = some p

theorem hedgeOf_of_build {left right : MarketSummary} {assertion : Assertion} {relationship : Text}
    {p : HedgePortfolio}
    (h : buildPortfolio (summaryToMarketDict left) (summaryToMarketDict right)
      assertion.positions.1 assertion.positions.2 necessaryProbability relationship = some p) :
    HedgeOf left right assertion p := by
  have hbuilt := of_buildPortfolio h
  exact ⟨hbuilt.target.1, hbuilt.cover.1, Prod.ext hbuilt.target.2.2 hbuilt.cover.2.2,
    relationship, h⟩

theorem HedgeOf.rated {left right : MarketSummary} {assertion : Assertion} {p : HedgePortfolio}
    (h : HedgeOf left right assertion p) : p.Rated := by
  obtain ⟨relationship, hbuild⟩ := h.built
  exact rated_of_built (of_buildPortfolio hbuild)

theorem HedgeOf.pays_iff {left right : MarketSummary} {assertion : Assertion} {p : HedgePortfolio}
    (h : HedgeOf left right assertion p) (outcomes : Outcomes) :
    1 ≤ p.payout outcomes ↔ assertion.Holds outcomes (strId left.id) (strId right.id) :=
  assertion.pays_iff h.target h.cover h.positions

/-- What is found of a pair: a hedge on what is asserted of it, where there is one. -/
inductive Finds (left right : MarketSummary) : Option Assertion → List HedgePortfolio → Prop
  | nothing : Finds left right none []
  | hedge (assertion : Assertion) (relationship : Text) :
      Finds left right (some assertion) (buildPortfolio (summaryToMarketDict left)
        (summaryToMarketDict right) assertion.positions.1 assertion.positions.2
        necessaryProbability relationship).toList

theorem finds_of_payload {left right : MarketSummary} {str : Loaded floats.Float → Text}
    {payload : List (Str × Loaded floats.Float)} {relationship : Option Relationship}
    (h : relationshipFromPayload str payload = .ok relationship) :
    Finds left right ((assertionOf payload).map Prod.fst) (relationship.elim [] fun r =>
      (buildPortfolio (summaryToMarketDict left) (summaryToMarketDict right) r.targetPosition
        r.coverPosition necessaryProbability r.relationship).toList) := by
  rw [relationshipFromPayload] at h
  cases hassertion : assertionOf payload with
  | none =>
      rw [hassertion] at h
      obtain rfl := Except.ok.inj h
      exact .nothing
  | some a =>
      rw [hassertion] at h
      obtain ⟨explanation, _, h⟩ := bind_ok_iff.mp h
      obtain rfl := Except.ok.inj h
      exact .hedge a.1 _

theorem pairPortfolios_ok {candidate : Nat} {left right : MarketSummary} {model : Option Text}
    {portfolios : List HedgePortfolio}
    (h : s.pairPortfolios candidate left right model = .ok portfolios) :
    Finds left right (s.asserted candidate left right model) portfolios := by
  rw [pairPortfolios] at h
  rw [asserted]
  by_cases hfixture : s.testFixture = true
  · rw [if_pos hfixture] at h
    rw [if_pos hfixture]
    obtain rfl := Except.ok.inj h
    exact .hedge .implies _
  rw [if_neg hfixture] at h
  rw [if_neg hfixture]
  obtain ⟨answered, hanswered, h⟩ := bind_ok_iff.mp h
  rw [hanswered]
  cases answered with
  | none =>
      obtain rfl := Except.ok.inj h
      exact .nothing
  | some payload =>
      cases payload with
      | nil =>
          obtain rfl := Except.ok.inj h
          exact .nothing
      | cons m payload =>
          obtain ⟨relationship, hrelationship, h⟩ := bind_ok_iff.mp h
          have hfinds : Finds left right ((assertionOf (m :: payload)).map Prod.fst) _ :=
            finds_of_payload hrelationship
          cases relationship with
          | none =>
              obtain rfl := Except.ok.inj h
              exact hfinds
          | some relationship =>
              obtain rfl := Except.ok.inj h
              exact hfinds

theorem Finds.hedgeOf {left right : MarketSummary} {asserted : Option Assertion}
    {portfolios : List HedgePortfolio} (h : Finds left right asserted portfolios)
    {p : HedgePortfolio} (hp : p ∈ portfolios) :
    ∃ assertion, asserted = some assertion ∧ HedgeOf left right assertion p := by
  cases h with
  | nothing => exact nomatch hp
  | hedge assertion relationship =>
      exact ⟨assertion, rfl, hedgeOf_of_build (Option.mem_toList.mp hp)⟩

/-! ## What a scan finds -/

theorem exists_left_of_mem {α β : Type} {R : α → β → Prop} {as : List α} {bs : List β}
    (h : List.Forall₂ R as bs) {b : β} (hb : b ∈ bs) : ∃ a ∈ as, R a b := by
  induction h with
  | nil => exact nomatch hb
  | cons hR _ ih =>
      rcases List.mem_cons.mp hb with rfl | hb
      · exact ⟨_, .head _, hR⟩
      · obtain ⟨a, ha, hR⟩ := ih hb
        exact ⟨a, .tail _ ha, hR⟩

theorem exists_right_of_mem {α β : Type} {R : α → β → Prop} {as : List α} {bs : List β}
    (h : List.Forall₂ R as bs) {a : α} (ha : a ∈ as) : ∃ b ∈ bs, R a b := by
  have hflip : List.Forall₂ (flip R) bs as := List.Forall₂.flip h
  exact exists_left_of_mem hflip ha

/-- A candidate of a scan: the market with this number after the first. -/
structure Candidate (summaries : List MarketSummary) (i : Nat) (anchor candidate : MarketSummary) :
    Prop where
  first : summaries.head? = some anchor
  other : summaries.tail[i]? = some candidate

/-- **What a scan finds** of each candidate. -/
theorem scanPortfolios_ok {summaries : List MarketSummary} {model : Option Text}
    {portfolios : List HedgePortfolio} (h : s.scanPortfolios summaries model = .ok portfolios) :
    (∀ p ∈ portfolios, ∃ i anchor candidate assertion, Candidate summaries i anchor candidate
        ∧ s.asserted i anchor candidate model = some assertion
        ∧ HedgeOf anchor candidate assertion p)
      ∧ ∀ i anchor candidate, Candidate summaries i anchor candidate →
        ∃ found, Finds anchor candidate (s.asserted i anchor candidate model) found
          ∧ ∀ p ∈ found, p ∈ portfolios := by
  cases summaries with
  | nil =>
      obtain rfl := Except.ok.inj h
      exact ⟨fun p hp => (nomatch hp), fun i anchor candidate hc => (nomatch hc.first)⟩
  | cons anchor candidates =>
      obtain ⟨results, hresults, h⟩ := bind_ok_iff.mp h
      obtain rfl := Except.ok.inj h
      have hpairs := mapM_ok_iff.mp hresults
      constructor
      · intro p hp
        obtain ⟨found, hfound, hp⟩ := List.mem_flatten.mp hp
        obtain ⟨c, hc, hpair⟩ := exists_left_of_mem hpairs hfound
        obtain ⟨assertion, hasserted, hhedge⟩ := (pairPortfolios_ok hpair).hedgeOf hp
        exact ⟨c.2, anchor, c.1, assertion, ⟨rfl, List.mem_zipIdx_iff_getElem?.mp hc⟩, hasserted,
          hhedge⟩
      · rintro i _ candidate ⟨hfirst, hother⟩
        obtain rfl := Option.some.inj hfirst
        have hmem : (candidate, i) ∈ candidates.zipIdx := List.mem_zipIdx_iff_getElem?.mpr hother
        obtain ⟨found, hfound, hpair⟩ := exists_right_of_mem hpairs hmem
        exact ⟨found, pairPortfolios_ok hpair, fun p hp => List.mem_flatten.mpr ⟨found, hfound, hp⟩⟩

theorem scan_ok_iff {query : Option Text} {limit : Int} {c : ℚ} {t : Int} {model : Option Text}
    {portfolios : List HedgePortfolio} :
    s.scan query limit c t model = .ok portfolios
      ↔ ∃ summaries found, s.summaries query limit = .ok summaries
        ∧ s.scanPortfolios summaries model = .ok found ∧ portfolios = shown found c t := by
  rw [scan, bind_ok_iff]
  constructor
  · rintro ⟨summaries, hsummaries, h⟩
    obtain ⟨found, hfound, h⟩ := bind_ok_iff.mp h
    refine ⟨summaries, found, ?_, hfound, (Except.ok.inj h).symm⟩
    cases hs : s.summaries query limit with
    | error error =>
        rw [hs] at hsummaries
        cases hsummaries
    | ok found =>
        rw [hs] at hsummaries
        exact congrArg Except.ok (Except.ok.inj hsummaries)
  · rintro ⟨summaries, found, hsummaries, hfound, rfl⟩
    exact ⟨summaries, by rw [hsummaries]; rfl, bind_ok_iff.mpr ⟨found, hfound, rfl⟩⟩

theorem mem_shown {portfolios : List HedgePortfolio} {c : ℚ} {t : Int} {p : HedgePortfolio} :
    p ∈ shown portfolios c t ↔ p ∈ portfolios ∧ c ≤ p.coverage ∧ p.tier ≤ t := by
  rw [shown_eq_filter, List.mem_filter, sortPortfolios, StableSort.mem_sortBy, Bool.and_eq_true,
    decide_eq_true_eq, decide_eq_true_eq]

/-- **A hedge pays in every case that the answer about it allows, and in no other**: what is shown
    by a scan is a hedge of the first market with another, on what is asserted of the two. -/
theorem scan_pays {query : Option Text} {limit : Int} {c : ℚ} {t : Int} {model : Option Text}
    {portfolios : List HedgePortfolio} (h : s.scan query limit c t model = .ok portfolios) :
    ∃ summaries, s.summaries query limit = .ok summaries
      ∧ ∀ p ∈ portfolios, ∃ i anchor candidate assertion, Candidate summaries i anchor candidate
        ∧ s.asserted i anchor candidate model = some assertion
        ∧ HedgeOf anchor candidate assertion p
        ∧ ∀ outcomes, 1 ≤ p.payout outcomes
          ↔ assertion.Holds outcomes (strId anchor.id) (strId candidate.id) := by
  obtain ⟨summaries, found, hsummaries, hfound, rfl⟩ := scan_ok_iff.mp h
  refine ⟨summaries, hsummaries, fun p hp => ?_⟩
  obtain ⟨i, anchor, candidate, assertion, hcandidate, hasserted, hhedge⟩ :=
    (scanPortfolios_ok hfound).1 p (mem_shown.mp hp).1
  exact ⟨i, anchor, candidate, assertion, hcandidate, hasserted, hhedge, hhedge.pays_iff⟩

/-- The service of the fixtures, where two markets are open that nobody has traded in. -/
def fixtureService : HedgeService nanFloats where
  testFixture := true
  llmConfig := ⟨none, none⟩
  letters := asciiLetters
  client := fixtureClient (unsold [] [])
    [⟨some openStatus, titled 1 ['A']⟩, ⟨some openStatus, titled 2 ['B']⟩]
  server _ _ _ := .transportError []
  str _ := []
  float _ := ()

/-- What a scan of it finds. -/
def fixtureFound : List HedgePortfolio :=
  fixturePairPortfolios (titledSummary 1 ['A']) (titledSummary 2 ['B']) ++ []

theorem scan_fixtureService (c : ℚ) (t : Int) :
    fixtureService.scan none 20 c t none = .ok (shown fixtureFound c t) :=
  scan_ok_iff.mpr
    ⟨[titledSummary 1 ['A'], titledSummary 2 ['B']], fixtureFound, rfl, rfl, rfl⟩

/-- One hedge is shown of them. -/
theorem length_shown_fixture : (shown fixtureFound 0 4).length = 1 := by decide +kernel

theorem scan_pays_fixture : (shown fixtureFound 0 4).length = 1
    ∧ ∃ summaries, fixtureService.summaries none 20 = .ok summaries
      ∧ ∀ p ∈ shown fixtureFound 0 4, ∃ i anchor candidate assertion,
        Candidate summaries i anchor candidate
        ∧ fixtureService.asserted i anchor candidate none = some assertion
        ∧ HedgeOf anchor candidate assertion p
        ∧ ∀ outcomes, 1 ≤ p.payout outcomes
          ↔ assertion.Holds outcomes (strId anchor.id) (strId candidate.id) :=
  ⟨length_shown_fixture, scan_pays (scan_fixtureService 0 4)⟩

/-- **Who asks for more is shown the front of what there was**, of the same exchange and the same
    answers. -/
theorem scan_prefix {query : Option Text} {limit : Int} {c c' : ℚ} {t t' : Int}
    {model : Option Text} {portfolios : List HedgePortfolio}
    (h : s.scan query limit c t model = .ok portfolios) (hc : c ≤ c') (ht : t' ≤ t) :
    ∃ fewer, s.scan query limit c' t' model = .ok fewer ∧ fewer <+: portfolios
      ∧ ∀ p ∈ portfolios, p ∈ fewer ↔ c' ≤ p.coverage ∧ p.tier ≤ t' := by
  obtain ⟨summaries, found, hsummaries, hfound, rfl⟩ := scan_ok_iff.mp h
  have hrated : ∀ p ∈ found, p.Rated := by
    intro p hp
    obtain ⟨_, _, _, _, _, _, hhedge⟩ := (scanPortfolios_ok hfound).1 p hp
    exact hhedge.rated
  refine ⟨shown found c' t', scan_ok_iff.mpr ⟨summaries, found, hsummaries, hfound, rfl⟩,
    shown_prefix hrated hc ht, fun p hp => ?_⟩
  rw [mem_shown]
  exact ⟨fun hp' => hp'.2, fun hp' => ⟨(mem_shown.mp hp).1, hp'⟩⟩

theorem scan_prefix_fixture : (shown fixtureFound 0 4).length = 1
    ∧ ∃ fewer, fixtureService.scan none 20 (9 / 10) 2 none = .ok fewer
      ∧ fewer <+: shown fixtureFound 0 4
      ∧ ∀ p ∈ shown fixtureFound 0 4, p ∈ fewer ↔ 9 / 10 ≤ p.coverage ∧ p.tier ≤ 2 :=
  ⟨length_shown_fixture, scan_prefix (scan_fixtureService 0 4) (by norm_num) (by decide)⟩

/-- The hedges of an analysis pay as those of a scan. -/
theorem analyze_pays {leftMarketId rightMarketId : Text} {model : Option Text}
    {portfolios : List HedgePortfolio}
    (h : s.analyze leftMarketId rightMarketId model = .ok portfolios) :
    ∃ left right, s.pair leftMarketId rightMarketId = .ok (left, right)
      ∧ ∀ p ∈ portfolios, ∃ assertion, s.asserted 0 left right model = some assertion
        ∧ HedgeOf left right assertion p
        ∧ ∀ outcomes, 1 ≤ p.payout outcomes
          ↔ assertion.Holds outcomes (strId left.id) (strId right.id) := by
  obtain ⟨⟨left, right⟩, hpair, h⟩ := bind_ok_iff.mp h
  obtain ⟨found, hfound, h⟩ := bind_ok_iff.mp h
  obtain rfl := Except.ok.inj h
  refine ⟨left, right, ?_, fun p hp => ?_⟩
  · cases hs : s.pair leftMarketId rightMarketId with
    | error error =>
        rw [hs] at hpair
        cases hpair
    | ok pair =>
        rw [hs] at hpair
        exact congrArg Except.ok (Except.ok.inj hpair)
  · obtain ⟨assertion, hasserted, hhedge⟩ :=
      (pairPortfolios_ok hfound).hedgeOf ((StableSort.mem_sortBy _).mp hp)
    exact ⟨assertion, hasserted, hhedge, hhedge.pays_iff⟩

/-! ## Where the exchange quotes chances -/

/-- A price between nothing and one. -/
def IsChance (price : ℚ) : Prop := 0 ≤ price ∧ price ≤ 1

/-- The exchange quotes and has sold at prices between nothing and one. -/
structure QuotesChances (client : Client) : Prop where
  orderbook : ∀ {marketId book}, client.getOrderbook marketId = .ok book →
    ∀ level ∈ book.askLevels ++ book.bidLevels, IsChance level.1
  lastSale : ∀ {marketId record}, client.getMarketLastSale marketId = .ok record →
    ∀ price ∈ record.price, IsChance price

theorem isChance_marksOf {price : ℚ} (h : IsChance price) (digits : ℤ) :
    IsChance (marksOf price digits).1 ∧ IsChance (marksOf price digits).2 := by
  have hyes : IsChance (roundTo price digits) :=
    ⟨roundTo_nonneg h.1 digits, roundTo_le_one h.2 digits⟩
  refine ⟨hyes, roundTo_nonneg ?_ digits, roundTo_le_one ?_ digits⟩
  · linarith [hyes.2]
  · linarith [hyes.1]

theorem isChance_deriveMarkPrices {book : OrderBookRecord} {lastSale : Option ℚ}
    (hbook : ∀ level ∈ book.askLevels ++ book.bidLevels, IsChance level.1)
    (hsale : ∀ price ∈ lastSale, IsChance price) (digits : ℤ) :
    IsChance (deriveMarkPrices book lastSale digits).1
      ∧ IsChance (deriveMarkPrices book lastSale digits).2 := by
  unfold deriveMarkPrices
  -- the cases are those of what the exchange says
  cases hasks : book.askLevels with
  | nil =>
      cases hsold : lastSale with
      | some price => exact isChance_marksOf (hsale price hsold) digits
      | none =>
          cases hbids : book.bidLevels with
          | nil => exact isChance_marksOf ⟨by norm_num, by norm_num⟩ digits
          | cons bid bids =>
              refine isChance_marksOf (hbook bid ?_) digits
              rw [hbids]
              exact List.mem_append_right _ (.head _)
  | cons ask asks =>
      have hask : IsChance ask.1 := by
        refine hbook ask ?_
        rw [hasks]
        exact List.mem_append_left _ (.head _)
      cases hbids : book.bidLevels with
      | nil =>
          cases hsold : lastSale with
          | some price => exact isChance_marksOf (hsale price hsold) digits
          | none => exact isChance_marksOf hask digits
      | cons bid bids =>
          have hbid : IsChance bid.1 := by
            refine hbook bid ?_
            rw [hbids]
            exact List.mem_append_right _ (.head _)
          exact isChance_marksOf ⟨by linarith [hask.1, hbid.1], by linarith [hask.2, hbid.2]⟩ digits

theorem loadOptional_cases {α : Type} {answer : Except PredictApiError α} {empty record : α}
    (h : loadOptional answer empty = .ok record) : answer = .ok record ∨ record = empty := by
  cases answer with
  | ok found => exact Or.inl h
  | error error =>
      rw [loadOptional] at h
      split at h
      · exact Or.inr (Except.ok.inj h).symm
      · cases h

/-- The marks of a market are chances where the exchange quotes chances. -/
theorem isChance_enrichMarket {client : Client} (hquotes : QuotesChances client)
    {market : Marks.MarketRecord} {summary : MarketSummary}
    (h : enrichMarket client market = .ok summary) :
    IsChance summary.yesMarkPrice ∧ IsChance summary.noMarkPrice := by
  obtain ⟨⟨stats, lastSale, orderbook⟩, hdata, h⟩ := bind_ok_iff.mp h
  obtain rfl := Except.ok.inj h
  obtain ⟨_, _, hdata⟩ := bind_ok_iff.mp hdata
  obtain ⟨sale, hsale, hdata⟩ := bind_ok_iff.mp hdata
  obtain ⟨book, hbook, hdata⟩ := bind_ok_iff.mp hdata
  have heq := Except.ok.inj hdata
  rw [Prod.mk.injEq, Prod.mk.injEq] at heq
  obtain ⟨_, rfl, rfl⟩ := heq
  refine isChance_deriveMarkPrices ?_ ?_ _
  · rcases loadOptional_cases hbook with hbook | rfl
    · exact hquotes.orderbook hbook
    · exact fun level hlevel => nomatch hlevel
  · rcases loadOptional_cases hsale with hsale | rfl
    · exact hquotes.lastSale hsale
    · exact fun price hprice => nomatch hprice

theorem mem_of_mem_sliceTo {α : Type} {items : List α} {limit : Int} {a : α}
    (h : a ∈ sliceTo items limit) : a ∈ items := by
  rw [sliceTo] at h
  split at h <;> exact List.mem_of_mem_take h

/-- What a scan is about are markets of the exchange. -/
theorem exists_market {query : Option Text} {limit : Int} {summaries : List MarketSummary}
    (h : s.summaries query limit = .ok summaries) :
    ∀ summary ∈ summaries, ∃ market, enrichMarket s.client.toClient market = .ok summary := by
  have henriched : ∀ {markets : List Marks.MarketRecord} {enriched : List MarketSummary},
      enrichMarkets s.client.toClient markets = .ok enriched → ∀ summary ∈ enriched,
      ∃ market, enrichMarket s.client.toClient market = .ok summary := by
    intro markets enriched henriched summary hsummary
    obtain ⟨market, _, hmarket⟩ :=
      exists_left_of_mem (enrichMarkets_ok_iff.mp henriched) hsummary
    exact ⟨market, hmarket⟩
  have htrending : ∀ {limit : Int}, getTrending s.client limit = .ok summaries →
      ∀ summary ∈ summaries, ∃ market, enrichMarket s.client.toClient market = .ok summary := by
    intro limit h
    obtain ⟨_, _, h⟩ := bind_ok_iff.mp h
    exact henriched h
  cases query with
  | none => exact htrending h
  | some text =>
      cases text with
      | nil => exact htrending h
      | cons c text =>
          obtain ⟨_, _, h⟩ := bind_ok_iff.mp h
          obtain ⟨enriched, hok, h⟩ := bind_ok_iff.mp h
          obtain rfl := Except.ok.inj h
          intro summary hsummary
          exact henriched hok summary
            ((StableSort.mem_sortBy volumeKey).mp (mem_of_mem_sliceTo hsummary))

/-- The outcomes of a market whose marks are chances have them for their prices. -/
theorem isChance_price {summary : MarketSummary}
    (h : IsChance summary.yesMarkPrice ∧ IsChance summary.noMarkPrice) (position : YesNo) :
    IsChance ((summaryToMarketDict summary).price position) := by
  cases position with
  | yes => exact h.1
  | no => exact h.2

/-- What a hedge costs, before it is rounded. -/
def hedgeCost (assertion : Assertion) (left right : MarketSummary) : ℚ :=
  (summaryToMarketDict left).price assertion.positions.1
    + (summaryToMarketDict right).price assertion.positions.2

/-- What a scan shows where the exchange quotes chances: every candidate of which something is
    asserted, unless the hedge is for nothing, and nothing else, all of them in the first tier,
    those that cover more first, and of these the cheaper ones. -/
structure ShownAll (s : HedgeService floats) (summaries : List MarketSummary) (model : Option Text)
    (portfolios : List HedgePortfolio) : Prop where
  tier : ∀ p ∈ portfolios, p.tier = 1 ∧ 98 / 100 ≤ p.coverage ∧ p.coverage ≤ 1
  ordered : portfolios.Pairwise fun p q =>
    q.coverage < p.coverage ∨ p.coverage = q.coverage ∧ p.totalCost ≤ q.totalCost
  all : ∀ i anchor candidate assertion, Candidate summaries i anchor candidate →
    s.asserted i anchor candidate model = some assertion →
    (1 / 20000 < hedgeCost assertion anchor candidate
      ↔ ∃ p ∈ portfolios, HedgeOf anchor candidate assertion p)
  only : ∀ p ∈ portfolios, ∃ i anchor candidate assertion, Candidate summaries i anchor candidate
    ∧ s.asserted i anchor candidate model = some assertion ∧ HedgeOf anchor candidate assertion p

/-- **Where the exchange quotes chances, nothing is dropped** for its coverage or its tier. -/
theorem scan_of_chances (hquotes : QuotesChances s.client.toClient) {query : Option Text}
    {limit : Int} {c : ℚ} {t : Int} {model : Option Text} {portfolios : List HedgePortfolio}
    (h : s.scan query limit c t model = .ok portfolios) (hc : c ≤ 98 / 100) (ht : 1 ≤ t) :
    ∃ summaries, s.summaries query limit = .ok summaries
      ∧ ShownAll s summaries model portfolios := by
  obtain ⟨summaries, found, hsummaries, hfound, rfl⟩ := scan_ok_iff.mp h
  obtain ⟨hgenuine, hall⟩ := scanPortfolios_ok hfound
  have hmarks : ∀ summary ∈ summaries,
      IsChance summary.yesMarkPrice ∧ IsChance summary.noMarkPrice := by
    intro summary hsummary
    obtain ⟨market, hmarket⟩ := exists_market hsummaries summary hsummary
    exact isChance_enrichMarket hquotes hmarket
  have hcandidate : ∀ {i anchor candidate}, Candidate summaries i anchor candidate →
      anchor ∈ summaries ∧ candidate ∈ summaries := fun hcandidate =>
    ⟨List.mem_of_head? hcandidate.first,
      List.mem_of_mem_tail (List.mem_of_getElem? hcandidate.other)⟩
  have htier : ∀ p ∈ found, p.tier = 1 ∧ 98 / 100 ≤ p.coverage ∧ p.coverage ≤ 1 := by
    intro p hp
    obtain ⟨i, anchor, candidate, assertion, hmem, _, hhedge⟩ := hgenuine p hp
    obtain ⟨relationship, hbuild⟩ := hhedge.built
    have htarget := isChance_price (hmarks anchor (hcandidate hmem).1) assertion.positions.1
    obtain ⟨hcoverage, hone, _⟩ := tier_of_price htarget (of_buildPortfolio hbuild)
    exact ⟨hone, hcoverage⟩
  have hkept : ∀ {p}, p ∈ shown found c t ↔ p ∈ found := by
    intro p
    rw [mem_shown]
    refine ⟨fun hp => hp.1, fun hp => ⟨hp, hc.trans (htier p hp).2.1, ?_⟩⟩
    rw [(htier p hp).1]
    exact ht
  refine ⟨summaries, hsummaries, fun p hp => htier p (hkept.mp hp), ?_, ?_,
    fun p hp => hgenuine p (hkept.mp hp)⟩
  · have hsorted : (shown found c t).Pairwise fun p q => p.rank ≤ q.rank :=
      StableSort.sorted_sortBy HedgePortfolio.rank _
    refine hsorted.imp_of_mem fun {p q} hp hq hle => ?_
    rcases rank_le_iff.mp hle with hlt | ⟨_, hle⟩
    · rw [(htier p (hkept.mp hp)).1, (htier q (hkept.mp hq)).1] at hlt
      exact absurd hlt (lt_irrefl 1)
    · exact hle
  · intro i anchor candidate assertion hmem hasserted
    have htarget := isChance_price (hmarks anchor (hcandidate hmem).1) assertion.positions.1
    have hcover := isChance_price (hmarks candidate (hcandidate hmem).2) assertion.positions.2
    constructor
    · intro hcost
      obtain ⟨pair, hpair, hin⟩ := hall i anchor candidate hmem
      rw [hasserted] at hpair
      cases hpair with
      | hedge _ relationship =>
          obtain ⟨p, hp⟩ := Option.isSome_iff_exists.mp
            ((isSome_buildPortfolio_iff htarget hcover.2).mpr hcost)
          exact ⟨p, hkept.mpr (hin p (Option.mem_toList.mpr hp)), hedgeOf_of_build hp⟩
    · rintro ⟨p, _, hhedge⟩
      obtain ⟨relationship, hbuild⟩ := hhedge.built
      exact (isSome_buildPortfolio_iff htarget hcover.2).mp
        (Option.isSome_iff_exists.mpr ⟨p, hbuild⟩)

theorem quotesChances_unsold : QuotesChances (unsold [] []) where
  orderbook h := by
    obtain rfl := Except.ok.inj h
    exact fun level hlevel => nomatch hlevel
  lastSale h := nomatch h

theorem scan_of_chances_fixture : (shown fixtureFound 0 4).length = 1
    ∧ ∃ summaries, fixtureService.summaries none 20 = .ok summaries
      ∧ ShownAll fixtureService summaries none (shown fixtureFound 0 4) :=
  ⟨length_shown_fixture,
    scan_of_chances quotesChances_unsold (scan_fixtureService 0 4) (by norm_num) (by decide)⟩

end HedgeService

end Hedge
