import MandatedVaultFactory.TrackedPositionsProofs
import Mathlib.Data.List.Nodup
import Mathlib.Algebra.BigOperators.Group.List.Lemmas

/-!
# The positions here and the positions there

`_merge_positions` joins the records of `positions.json` with those of the exchange by their
tokens: a tracked position takes the quantity of the last remote record with its token, and a
remote record whose token is not tracked has a view of its own.

* **`mergePositions`** — the views, of the tracked positions first; `credits`, which remote record
  each of them takes its quantity from.
* **`count_credits_eq_one_iff`** — how often a remote record is counted.
* **`represents_iff`** — every remote record counts exactly once, and no two views have one id,
  exactly where the tokens and the ids are told apart. -/

namespace Predict

open Texts Json

/-! ## Remote records -/

/-- `str | float`, a number as `str` writes it. -/
inductive Quantity where
  | text (t : Text)
  | number (written : Text)

def Quantity.str : Quantity → Text
  | .text t => t
  | .number written => written

/-- `str(quantity or "0")`: an empty text counts as none, and so does a zero. -/
def Quantity.orZero : Quantity → Text
  | .text [] => ['0']
  | .text (c :: t) => c :: t
  | .number written => if readDecimal written = some 0 then ['0'] else written

/-- `PositionRecord`, all of it. -/
structure RemotePosition where
  positionId : Option Text
  marketId : Option (Text ⊕ Int)
  tokenId : Option Text
  outcomeName : Option Text
  quantity : Option Quantity
  status : Option Text

/-- What the join with a tracked position uses. -/
def RemotePosition.record (remote : RemotePosition) : PositionRecord where
  tokenId := remote.tokenId
  quantity := remote.quantity.map Quantity.str
  status := remote.status

/-- `str` of an integer. -/
def intText : Int → Text
  | .ofNat n => decimal n
  | .negSucc n => '-' :: decimal (n + 1)

/-- A market id in an f-string. -/
def marketText : Option (Text ⊕ Int) → Text
  | none => ['N', 'o', 'n', 'e']
  | some (.inl t) => t
  | some (.inr n) => intText n

/-- `str(market_id or "")`. -/
def marketOrEmpty : Option (Text ⊕ Int) → Text
  | none => []
  | some (.inl t) => t
  | some (.inr n) => if n = 0 then [] else intText n

/-- `positionId or f"external-{marketId}-{tokenId}"`. -/
def RemotePosition.viewId (remote : RemotePosition) : Text :=
  (orText remote.positionId none).getD
    ("external-".toList ++ marketText remote.marketId ++ ['-']
      ++ remote.tokenId.getD ['N', 'o', 'n', 'e'])

/-! ## Views -/

/-- A `PositionView` of a remote record: its source is `external`, and it has neither a cost nor
    a profit. -/
structure ExternalView where
  positionId : Text
  marketId : Text
  question : Text
  outcome : Text
  status : Text
  quantityWei : Text
  remoteQuantityWei : Text
  currentMarkPrice : ℚ

/-- What `_merge_positions` returns. -/
inductive View where
  | tracked (view : PositionView)
  | external (view : ExternalView)

def externalText : Text := "external".toList

namespace View

def positionId : View → Text
  | tracked view => view.positionId
  | external view => view.positionId

def source : View → Text
  | tracked view => view.source
  | external _ => externalText

def status : View → Text
  | tracked view => view.status
  | external view => view.status

def remoteQuantityWei : View → Option Text
  | tracked view => view.remoteQuantityWei
  | external view => some view.remoteQuantityWei

/-- `item.source != "external" and item.status.upper() == "OPEN"`. -/
def listed (letters : Letters) (view : View) : Bool :=
  view.source ≠ externalText && letters.upper view.status = openText

end View

/-- What is asked of the exchange for a market: its book and the digits of its prices, and its
    question. -/
structure MarketQueries where
  detail : Text → Option MarketDetail
  question : Text → Option Text

/-- `remote.tokenId in tracked_tokens`. -/
def RemotePosition.trackedBy (locals : List LocalPosition) (remote : RemotePosition) : Bool :=
  match remote.tokenId with
  | none => false
  | some token => token ∈ locals.map LocalPosition.tokenId

/-- One turn of the loop over the remote records, of a record that is not skipped. -/
def mergeExternal (letters : Letters) (queries : MarketQueries) (remote : RemotePosition) :
    Option ExternalView := do
  let question ← queries.question (marketOrEmpty remote.marketId)
  let outcome := (orText remote.outcomeName none).getD "UNKNOWN".toList
  let market ← queries.detail (marketOrEmpty remote.marketId)
  let quantity := (remote.quantity.map Quantity.orZero).getD ['0']
  return {
    positionId := remote.viewId
    marketId := marketOrEmpty remote.marketId
    question
    outcome
    status := letters.upper ((orText remote.status none).getD openText)
    quantityWei := quantity
    remoteQuantityWei := quantity
    currentMarkPrice := currentMarkPrice letters market.1 market.2 outcome }

/-- The loop over the remote records. -/
def mergeExternals (letters : Letters) (queries : MarketQueries) (locals : List LocalPosition) :
    List RemotePosition → Option (List ExternalView)
  | [] => some []
  | remote :: rest =>
      if remote.trackedBy locals then mergeExternals letters queries locals rest
      else
        (mergeExternal letters queries remote).bind fun view =>
          (mergeExternals letters queries locals rest).map fun views => view :: views

/-- **`_merge_positions`**; it raises where a market cannot be read, or a quantity. -/
def mergePositions (letters : Letters) (queries : MarketQueries) (locals : List LocalPosition)
    (remotes : List RemotePosition) : Option (List View) := do
  let tracked ← mergeTracked letters queries.detail (remotes.map RemotePosition.record) locals
  let externals ← mergeExternals letters queries locals remotes
  return tracked.map .tracked ++ externals.map .external

/-- `list_positions`. -/
def listPositions (letters : Letters) (queries : MarketQueries) (locals : List LocalPosition)
    (remotes : List RemotePosition) (includeAll : Bool) : Option (List View) :=
  (mergePositions letters queries locals remotes).map fun views =>
    if includeAll then views else views.filter (View.listed letters)

/-- `get_position`, of the merged views: the first with the id. -/
def getPosition (positionId : Text) (views : List View) : Option View :=
  views.find? fun view => view.positionId = positionId

/-! ## Who takes what -/

/-- The last remote record with a token, and where it stands. -/
def lastWithToken (remotes : List RemotePosition) (token : Text) : Option (RemotePosition × ℕ) :=
  (remotes.zipIdx.filter fun remote => remote.1.tokenId = some token).getLast?

/-- Where the remote record stands that a tracked position takes its quantity from. -/
def creditOf (remotes : List RemotePosition) (position : LocalPosition) : Option ℕ :=
  if position.tokenId = [] then none
  else (lastWithToken remotes position.tokenId).bind fun remote =>
    if remote.1.quantity.isSome then some remote.2 else none

/-- Where the remote records stand that have views of their own. -/
def externalIndexes (locals : List LocalPosition) (remotes : List RemotePosition) : List ℕ :=
  (remotes.zipIdx.filter fun remote => !remote.1.trackedBy locals).map Prod.snd

/-- For each view, the remote record that it takes its quantity from. -/
def credits (locals : List LocalPosition) (remotes : List RemotePosition) : List (Option ℕ) :=
  locals.map (creditOf remotes) ++ (externalIndexes locals remotes).map some

theorem getElem?_concat_eq_some {α : Type} (l : List α) (last b : α) (j : ℕ) :
    (l ++ [last])[j]? = some b ↔ l[j]? = some b ∨ (j = l.length ∧ last = b) := by
  rcases Nat.lt_trichotomy j l.length with hlt | rfl | hgt
  · rw [List.getElem?_append_left hlt]
    exact ⟨Or.inl, fun h => h.elim id fun heq => absurd heq.1 (Nat.ne_of_lt hlt)⟩
  · rw [List.getElem?_concat_length, List.getElem?_eq_none le_rfl]
    simp
  · rw [List.getElem?_eq_none (by rw [List.length_append]; exact hgt),
      List.getElem?_eq_none (Nat.le_of_lt hgt)]
    simp [Nat.ne_of_gt hgt]

/-- The last element with a property, and where it stands.  Induction from the end of the list. -/
theorem getLast?_filter_zipIdx {α : Type} (p : α → Bool) (l : List α) (a : α) (i : ℕ) :
    (l.zipIdx.filter fun r => p r.1).getLast? = some (a, i) ↔
      l[i]? = some a ∧ p a = true ∧ ∀ j b, i < j → l[j]? = some b → p b = false := by
  induction l using List.reverseRecOn with
  | nil => simp
  | append_singleton l last ih =>
      have hzip : (l ++ [last]).zipIdx = l.zipIdx ++ [(last, l.length)] := by
        rw [List.zipIdx_append]
        simp
      simp only [hzip, List.filter_append, getElem?_concat_eq_some]
      -- the new last element decides if it has the property, and drops out if not
      by_cases hlast : p last = true
      · rw [List.filter_cons_of_pos (by exact hlast), List.filter_nil, List.getLast?_concat,
          Option.some.injEq, Prod.mk.injEq]
        constructor
        · rintro ⟨rfl, rfl⟩
          refine ⟨Or.inr ⟨rfl, rfl⟩, hlast, fun j b hj hb => ?_⟩
          rcases hb with hb | ⟨rfl, _⟩
          · exact absurd (List.getElem?_eq_some_iff.mp hb).1 (Nat.not_lt_of_lt hj)
          · exact absurd hj (Nat.lt_irrefl _)
        · rintro ⟨hget, _, hlater⟩
          rcases hget with hget | ⟨rfl, rfl⟩
          · have hlt := (List.getElem?_eq_some_iff.mp hget).1
            have hfalse := hlater l.length last hlt (Or.inr ⟨rfl, rfl⟩)
            rw [hlast] at hfalse
            cases hfalse
          · exact ⟨rfl, rfl⟩
      · rw [List.filter_cons_of_neg (by exact hlast), List.filter_nil, List.append_nil, ih]
        constructor
        · rintro ⟨hget, hp, hlater⟩
          refine ⟨Or.inl hget, hp, fun j b hj hb => ?_⟩
          rcases hb with hb | ⟨_, rfl⟩
          · exact hlater j b hj hb
          · exact Bool.eq_false_iff.mpr hlast
        · rintro ⟨hget, hp, hlater⟩
          rcases hget with hget | ⟨_, rfl⟩
          · exact ⟨hget, hp, fun j b hj hb => hlater j b hj (Or.inl hb)⟩
          · exact absurd hp hlast

/-- A tracked position takes the quantity of the last remote record with its token. -/
theorem creditOf_eq_some_iff {remotes : List RemotePosition} {position : LocalPosition} {i : ℕ} :
    creditOf remotes position = some i ↔
      position.tokenId ≠ [] ∧ ∃ remote, remotes[i]? = some remote ∧
        remote.tokenId = some position.tokenId ∧ remote.quantity.isSome = true ∧
        ∀ j later, i < j → remotes[j]? = some later → later.tokenId ≠ some position.tokenId := by
  have hlast := getLast?_filter_zipIdx
    (fun remote : RemotePosition => decide (remote.tokenId = some position.tokenId)) remotes
  simp only [decide_eq_true_eq, decide_eq_false_iff_not] at hlast
  rw [creditOf]
  by_cases hempty : position.tokenId = []
  · simp [hempty]
  · rw [if_neg hempty, Option.bind_eq_some_iff]
    refine ⟨?_, ?_⟩
    · rintro ⟨⟨remote, k⟩, hfound, hquantity⟩
      by_cases hsome : remote.quantity.isSome = true
      · rw [if_pos hsome, Option.some.injEq] at hquantity
        obtain rfl : k = i := hquantity
        obtain ⟨hget, htoken, hlater⟩ := (hlast remote k).mp hfound
        exact ⟨hempty, remote, hget, htoken, hsome, hlater⟩
      · rw [if_neg hsome] at hquantity
        cases hquantity
    · rintro ⟨_, remote, hget, htoken, hsome, hlater⟩
      exact ⟨(remote, i), (hlast remote i).mpr ⟨hget, htoken, hlater⟩, if_pos hsome⟩

/-! ## What a remote record counts for -/

theorem remoteByToken_map (remotes : List RemotePosition) (token : Text) :
    remoteByToken (remotes.map RemotePosition.record) token
      = if token = [] then none
        else (lastWithToken remotes token).map fun remote => remote.1.record := by
  rw [remoteByToken]
  by_cases hempty : token = []
  · rw [if_pos hempty, if_pos hempty]
  · have hfilter : (remotes.map RemotePosition.record).filter
          (fun remote => remote.tokenId = some token)
        = (remotes.zipIdx.filter fun remote => remote.1.tokenId = some token).map
            fun remote => remote.1.record := by
      conv_lhs => rw [← List.zipIdx_map_fst 0 remotes]
      rw [List.map_map, List.filter_map]
      rfl
    rw [if_neg hempty, if_neg hempty, hfilter, List.getLast?_map, lastWithToken]

/-- The quantity of a remote record; without one, or where it cannot be read, zero. -/
def RemotePosition.value (remote : RemotePosition) : ℚ :=
  ((remote.quantity.bind fun quantity => readDecimal quantity.str)).getD 0

/-- What a view counts of the exchange's quantities. -/
def View.credited (view : View) : ℚ := (view.remoteQuantityWei.bind readDecimal).getD 0

/-- A zero is written otherwise, and counts the same. -/
theorem readDecimal_orZero (quantity : Quantity) :
    (readDecimal quantity.orZero).getD 0 = (readDecimal quantity.str).getD 0 := by
  have hzero : readDecimal ['0'] = some 0 := readDecimal_decimal 0
  cases quantity with
  | text t =>
      cases t with
      | nil =>
          rw [Quantity.orZero, hzero]
          rfl
      | cons c t => rfl
  | number written =>
      rw [Quantity.orZero, Quantity.str]
      by_cases hread : readDecimal written = some 0
      · rw [if_pos hread, hread, hzero]
      · rw [if_neg hread]

/-- A view shows the quantity of the remote record it is credited with, and of no other. -/
def Takes (remotes : List RemotePosition) (view : View) : Option ℕ → Prop
  | none => view.credited = 0
  | some i => ∃ remote, remotes[i]? = some remote ∧ view.credited = remote.value

theorem takes_mergePosition {letters : Letters} {detail : Text → Option MarketDetail}
    {remotes : List RemotePosition} {position : LocalPosition} {view : PositionView}
    (h : mergePosition letters detail (remotes.map RemotePosition.record) position = some view) :
    view.positionId = position.positionId ∧
      Takes remotes (.tracked view) (creditOf remotes position) := by
  obtain ⟨market, _, h⟩ := Option.bind_eq_some_iff.mp h
  obtain ⟨notional, _, h⟩ := Option.bind_eq_some_iff.mp h
  obtain ⟨pnl, _, rfl⟩ := Option.map_eq_some_iff.mp h
  refine ⟨rfl, ?_⟩
  rw [remoteByToken_map, creditOf]
  by_cases hempty : position.tokenId = []
  · rw [if_pos hempty, if_pos hempty]
    rfl
  rw [if_neg hempty, if_neg hempty]
  cases hlast : lastWithToken remotes position.tokenId with
  | none => rfl
  | some found =>
      have hget := ((getLast?_filter_zipIdx
        (fun remote : RemotePosition => decide (remote.tokenId = some position.tokenId))
        remotes found.1 found.2).mp hlast).1
      -- the local quantity stays where the remote record has none
      cases hquantity : found.1.quantity with
      | none => simp [Takes, View.credited, View.remoteQuantityWei, RemotePosition.record, hquantity]
      | some quantity =>
          rw [Option.bind_some, hquantity, Option.isSome_some, if_pos rfl]
          refine ⟨found.1, hget, ?_⟩
          simp [View.credited, View.remoteQuantityWei, RemotePosition.record, RemotePosition.value,
            hquantity]

theorem takes_mergeExternal {letters : Letters} {queries : MarketQueries}
    {remote : RemotePosition} {view : ExternalView}
    (h : mergeExternal letters queries remote = some view) :
    view.positionId = remote.viewId ∧ (View.external view).credited = remote.value := by
  obtain ⟨question, _, h⟩ := Option.bind_eq_some_iff.mp h
  obtain ⟨market, _, h⟩ := Option.bind_eq_some_iff.mp h
  cases h
  refine ⟨rfl, ?_⟩
  show (readDecimal ((remote.quantity.map Quantity.orZero).getD ['0'])).getD 0 = remote.value
  rw [RemotePosition.value]
  cases remote.quantity with
  | none =>
      have hzero : readDecimal ['0'] = some 0 := readDecimal_decimal 0
      rw [Option.map_none, Option.getD_none, hzero]
      rfl
  | some quantity => exact readDecimal_orZero quantity

/-- The tracked views stand in the order of the tracked positions. -/
theorem takes_mergeTracked {letters : Letters} {detail : Text → Option MarketDetail}
    {remotes : List RemotePosition} {locals : List LocalPosition} : ∀ views,
    mergeTracked letters detail (remotes.map RemotePosition.record) locals = some views →
    views.map PositionView.positionId = ids locals ∧
      List.Forall₂ (Takes remotes) (views.map .tracked) (locals.map (creditOf remotes)) := by
  induction locals with
  | nil =>
      intro views h
      cases h
      exact ⟨rfl, List.Forall₂.nil⟩
  | cons position rest ih =>
      intro views h
      obtain ⟨view, hview, h⟩ := Option.bind_eq_some_iff.mp h
      obtain ⟨views, hviews, rfl⟩ := Option.map_eq_some_iff.mp h
      obtain ⟨hid, htakes⟩ := takes_mergePosition hview
      obtain ⟨hids, hrest⟩ := ih views hviews
      refine ⟨?_, List.Forall₂.cons htakes hrest⟩
      rw [List.map_cons, hid, hids]
      rfl

/-- The remote records with views of their own, from one that stands at `start`. -/
theorem takes_mergeExternals {letters : Letters} {queries : MarketQueries}
    {locals : List LocalPosition} (remotes rest : List RemotePosition) : ∀ start views, (∀ i, rest[i]? = remotes[start + i]?) →
    mergeExternals letters queries locals rest = some views →
    views.map ExternalView.positionId
        = (rest.filter fun remote => !remote.trackedBy locals).map RemotePosition.viewId ∧
      List.Forall₂ (Takes remotes) (views.map .external)
        ((((rest.zipIdx start).filter fun remote => !remote.1.trackedBy locals).map
          Prod.snd).map some) := by
  induction rest with
  | nil =>
      intro start views _ h
      cases h
      exact ⟨rfl, List.Forall₂.nil⟩
  | cons remote rest ih =>
      intro start views hrest h
      have hnext : ∀ i, rest[i]? = remotes[start + 1 + i]? := fun i => by
        rw [Nat.add_assoc, Nat.add_comm 1 i, ← hrest (i + 1), List.getElem?_cons_succ]
      rw [mergeExternals] at h
      rw [List.zipIdx_cons]
      by_cases htracked : remote.trackedBy locals = true
      · rw [if_pos htracked] at h
        rw [List.filter_cons_of_neg (by simp [htracked]),
          List.filter_cons_of_neg (by simp [htracked])]
        exact ih (start + 1) views hnext h
      · rw [if_neg htracked] at h
        obtain ⟨view, hview, h⟩ := Option.bind_eq_some_iff.mp h
        obtain ⟨views, hviews, rfl⟩ := Option.map_eq_some_iff.mp h
        obtain ⟨hid, hvalue⟩ := takes_mergeExternal hview
        obtain ⟨hids, htakes⟩ := ih (start + 1) views hnext hviews
        rw [List.filter_cons_of_pos (by simp [htracked]),
          List.filter_cons_of_pos (by simp [htracked])]
        refine ⟨?_, List.Forall₂.cons ⟨remote, ?_, hvalue⟩ htakes⟩
        · rw [List.map_cons, List.map_cons, hid, hids]
        · rw [← Nat.add_zero start, ← hrest 0, List.getElem?_cons_zero]

/-- The ids that the views get. -/
def viewIds (locals : List LocalPosition) (remotes : List RemotePosition) : List Text :=
  ids locals ++ (remotes.filter fun remote => !remote.trackedBy locals).map RemotePosition.viewId

/-- **What the views are**: one for each tracked position, and then one for each remote record
    that is not tracked, each with the quantity that it is credited with. -/
theorem mergePositions_spec {letters : Letters} {queries : MarketQueries}
    {locals : List LocalPosition} {remotes : List RemotePosition} {views : List View}
    (h : mergePositions letters queries locals remotes = some views) :
    (∃ (own : List PositionView) (others : List ExternalView),
      views = own.map View.tracked ++ others.map View.external ∧
      own.map PositionView.positionId = ids locals) ∧
    views.map View.positionId = viewIds locals remotes ∧
    List.Forall₂ (Takes remotes) views (credits locals remotes) := by
  obtain ⟨own, hown, h⟩ := Option.bind_eq_some_iff.mp h
  obtain ⟨others, hothers, h⟩ := Option.bind_eq_some_iff.mp h
  cases h
  obtain ⟨hids, htakes⟩ := takes_mergeTracked own hown
  obtain ⟨hids', htakes'⟩ := takes_mergeExternals remotes remotes 0 others
    (fun i => by rw [Nat.zero_add]) hothers
  refine ⟨⟨own, others, rfl, hids⟩, ?_, List.rel_append htakes htakes'⟩
  rw [List.map_append, List.map_map, List.map_map, viewIds, ← hids, ← hids']
  rfl

/-! ## Counting -/

theorem trackedBy_iff {locals : List LocalPosition} {remote : RemotePosition} {token : Text}
    (htoken : remote.tokenId = some token) :
    remote.trackedBy locals = true ↔ token ∈ locals.map LocalPosition.tokenId := by
  rw [RemotePosition.trackedBy, htoken, decide_eq_true_eq]

/-- The views of their own have different remote records. -/
theorem nodup_externalIndexes (locals : List LocalPosition) (remotes : List RemotePosition) :
    (externalIndexes locals remotes).Nodup := by
  have hindexes : (remotes.zipIdx.map Prod.snd).Nodup := by
    rw [List.zipIdx_map_snd]
    exact List.nodup_range'
  exact hindexes.sublist (List.filter_sublist.map _)

theorem mem_externalIndexes {locals : List LocalPosition} {remotes : List RemotePosition} {i : ℕ} :
    i ∈ externalIndexes locals remotes ↔
      ∃ remote, remotes[i]? = some remote ∧ remote.trackedBy locals = false := by
  rw [externalIndexes, List.mem_map]
  constructor
  · rintro ⟨⟨remote, k⟩, hmem, rfl⟩
    obtain ⟨hget, htracked⟩ := List.mem_filter.mp hmem
    exact ⟨remote, List.mem_zipIdx_iff_getElem?.mp hget, by simpa using htracked⟩
  · rintro ⟨remote, hget, htracked⟩
    refine ⟨(remote, i), List.mem_filter.mpr ⟨?_, by simp [htracked]⟩, rfl⟩
    exact List.mem_zipIdx_iff_getElem?.mpr hget

/-- A remote record without a tracked token counts once, with its own view. -/
theorem count_credits_external {locals : List LocalPosition} {remotes : List RemotePosition}
    {i : ℕ} {remote : RemotePosition} (hget : remotes[i]? = some remote)
    (hfree : remote.trackedBy locals = false) :
    (credits locals remotes).count (some i) = 1 := by
  have hown : some i ∉ locals.map (creditOf remotes) := by
    intro hmem
    obtain ⟨position, hposition, hcredit⟩ := List.mem_map.mp hmem
    obtain ⟨_, found, hfound, htoken, _, _⟩ := creditOf_eq_some_iff.mp hcredit
    obtain rfl : remote = found := Option.some.inj (hget.symm.trans hfound)
    rw [(trackedBy_iff htoken).mpr (List.mem_map_of_mem hposition)] at hfree
    cases hfree
  rw [credits, List.count_append, List.count_eq_zero_of_not_mem hown, Nat.zero_add,
    List.count_map_of_injective _ _ (Option.some_injective ℕ)]
  exact List.count_eq_one_of_mem (nodup_externalIndexes locals remotes)
    (mem_externalIndexes.mpr ⟨remote, hget, hfree⟩)

/-- A remote record with a tracked token counts as often as positions take it. -/
theorem count_credits_tracked {locals : List LocalPosition} {remotes : List RemotePosition}
    {i : ℕ} {remote : RemotePosition} (hget : remotes[i]? = some remote)
    (htracked : remote.trackedBy locals = true) :
    (credits locals remotes).count (some i)
      = locals.countP fun position => creditOf remotes position = some i := by
  have hother : some i ∉ (externalIndexes locals remotes).map some := by
    intro hmem
    obtain ⟨k, hk, hki⟩ := List.mem_map.mp hmem
    obtain rfl : k = i := Option.some.inj hki
    obtain ⟨found, hfound, hfree⟩ := mem_externalIndexes.mp hk
    obtain rfl : remote = found := Option.some.inj (hget.symm.trans hfound)
    rw [htracked] at hfree
    cases hfree
  rw [credits, List.count_append, List.count_eq_zero_of_not_mem hother, Nat.add_zero, List.count,
    List.countP_map]
  exact List.countP_congr fun position _ => by simp

/-- **A tracked token is told apart**: it is no empty text, one position has it, and no later
    remote record. -/
structure Apart (locals : List LocalPosition) (remotes : List RemotePosition) (i : ℕ)
    (token : Text) : Prop where
  nonempty : token ≠ []
  single : (locals.map LocalPosition.tokenId).count token = 1
  last : ∀ j later, i < j → remotes[j]? = some later → later.tokenId ≠ some token

theorem count_credits_eq_one_iff {locals : List LocalPosition} {remotes : List RemotePosition}
    {i : ℕ} {remote : RemotePosition} {token : Text} (hget : remotes[i]? = some remote)
    (htoken : remote.tokenId = some token) (hquantity : remote.quantity.isSome = true)
    (htracked : remote.trackedBy locals = true) :
    (credits locals remotes).count (some i) = 1 ↔ Apart locals remotes i token := by
  rw [count_credits_tracked hget htracked]
  by_cases hlast : token ≠ [] ∧ ∀ j later, i < j → remotes[j]? = some later →
      later.tokenId ≠ some token
  · -- the last remote record with its token: every local position with it takes from this one
    have htakes : ∀ position : LocalPosition,
        creditOf remotes position = some i ↔ position.tokenId = token := by
      intro position
      rw [creditOf_eq_some_iff]
      constructor
      · rintro ⟨_, found, hfound, hsame, _, _⟩
        obtain rfl : remote = found := Option.some.inj (hget.symm.trans hfound)
        exact Option.some.inj (hsame.symm.trans htoken)
      · rintro rfl
        exact ⟨hlast.1, remote, hget, htoken, hquantity, hlast.2⟩
    have hcount : (locals.countP fun position => creditOf remotes position = some i)
        = (locals.map LocalPosition.tokenId).count token := by
      rw [List.count, List.countP_map]
      exact List.countP_congr fun position _ => by simp [htakes position]
    rw [hcount]
    exact ⟨fun hone => ⟨hlast.1, hone, hlast.2⟩, Apart.single⟩
  · -- a later record stands in front of it, or the token is empty: nobody takes from it
    have hnone : (locals.countP fun position => creditOf remotes position = some i) = 0 := by
      rw [List.countP_eq_zero]
      intro position _ htakes
      rw [decide_eq_true_eq, creditOf_eq_some_iff] at htakes
      obtain ⟨hempty, found, hfound, hsame, _, hlater⟩ := htakes
      obtain rfl : remote = found := Option.some.inj (hget.symm.trans hfound)
      obtain rfl : token = position.tokenId := Option.some.inj (htoken.symm.trans hsame)
      exact hlast ⟨hempty, hlater⟩
    rw [hnone]
    exact ⟨fun hone => absurd hone Nat.zero_ne_one, fun h => absurd ⟨h.nonempty, h.last⟩ hlast⟩

/-! ## Sums -/

/-- The token of the remote record that is credited; none without one. -/
def creditedToken (remotes : List RemotePosition) (credit : Option ℕ) : Option (Option Text) :=
  credit.bind fun i => remotes[i]?.map RemotePosition.tokenId

/-- What a remote record adds to the sum of a token. -/
def valueAt (remotes : List RemotePosition) (token : Option Text) (i : ℕ) : ℚ :=
  match remotes[i]? with
  | some remote => if remote.tokenId = token then remote.value else 0
  | none => 0

/-- What the views add up to for a token, by the remote records that they take.  Induction on
    the views. -/
theorem groupSum_takes {remotes : List RemotePosition} (token : Option Text) {views : List View}
    {credits : List (Option ℕ)} (h : List.Forall₂ (Takes remotes) views credits) :
    groupSum (fun v : View × Option ℕ => creditedToken remotes v.2) (fun v => v.1.credited)
        (views.zip credits) (some token)
      = (credits.map fun credit => (credit.map (valueAt remotes token)).getD 0).sum := by
  induction h with
  | nil => rfl
  | @cons view credit views credits htakes _ ih =>
      rw [List.zip_cons_cons, groupSum_cons, ih, List.map_cons, List.sum_cons]
      congr 1
      cases credit with
      | none => rfl
      | some i =>
          obtain ⟨remote, hget, hvalue⟩ := htakes
          simp [creditedToken, hget, valueAt, hvalue]

/-- A sum over credits, by how often each index is credited.  Induction on the credits. -/
theorem sum_credits (weight : ℕ → ℚ) (n : ℕ) (credits : List (Option ℕ))
    (h : ∀ i, some i ∈ credits → i < n) :
    (credits.map fun credit => (credit.map weight).getD 0).sum
      = ∑ i ∈ Finset.range n, credits.count (some i) * weight i := by
  induction credits with
  | nil => simp
  | cons credit credits ih =>
      rw [List.map_cons, List.sum_cons, ih fun i hi => h i (List.mem_cons_of_mem _ hi)]
      cases credit with
      | none => simp
      | some k =>
          have hk : k ∈ Finset.range n := Finset.mem_range.mpr (h k (List.mem_cons_self ..))
          have hcount : ∀ i, (((some k :: credits).count (some i) : ℕ) : ℚ) * weight i
              = (if k = i then weight i else 0) + credits.count (some i) * weight i := by
            intro i
            rw [List.count_cons]
            by_cases hki : k = i
            · simp [hki, add_mul, add_comm]
            · simp [hki]
          rw [Finset.sum_congr rfl fun i _ => hcount i, Finset.sum_add_distrib,
            Finset.sum_ite_eq, if_pos hk]
          rfl

/-- A sum over the remote records is one over their places. -/
theorem groupSum_remotes (remotes : List RemotePosition) (token : Option Text) :
    groupSum RemotePosition.tokenId RemotePosition.value remotes token
      = ∑ i ∈ Finset.range remotes.length, valueAt remotes token i := by
  induction remotes using List.reverseRecOn with
  | nil => rfl
  | append_singleton remotes last ih =>
      have hold : ∀ i ∈ Finset.range remotes.length,
          valueAt (remotes ++ [last]) token i = valueAt remotes token i := by
        intro i hi
        rw [valueAt, valueAt, List.getElem?_append_left (Finset.mem_range.mp hi)]
      have hlast : valueAt (remotes ++ [last]) token remotes.length
          = if last.tokenId = token then last.value else 0 := by
        rw [valueAt, List.getElem?_concat_length]
      have happend : groupSum RemotePosition.tokenId RemotePosition.value (remotes ++ [last]) token
          = groupSum RemotePosition.tokenId RemotePosition.value remotes token
            + if last.tokenId = token then last.value else 0 := by
        rw [groupSum, List.filter_append, List.map_append, List.sum_append, ← groupSum]
        by_cases hsame : last.tokenId = token
        · simp [hsame]
        · simp [hsame]
      rw [List.length_append, List.length_singleton, Finset.sum_range_succ,
        Finset.sum_congr rfl hold, hlast, happend, ih]

theorem lt_of_mem_credits {locals : List LocalPosition} {remotes : List RemotePosition} {i : ℕ}
    (h : some i ∈ credits locals remotes) : i < remotes.length := by
  rcases List.mem_append.mp h with hown | hother
  · obtain ⟨position, _, hcredit⟩ := List.mem_map.mp hown
    obtain ⟨_, remote, hget, _⟩ := creditOf_eq_some_iff.mp hcredit
    exact (List.getElem?_eq_some_iff.mp hget).1
  · obtain ⟨k, hk, hki⟩ := List.mem_map.mp hother
    obtain rfl : k = i := Option.some.inj hki
    obtain ⟨remote, hget, _⟩ := mem_externalIndexes.mp hk
    exact (List.getElem?_eq_some_iff.mp hget).1

/-! ## Once, and told apart -/

/-- **The views represent the positions**: every tracked one has its view, every remote quantity
    counts in one view, so that the sums agree for every token, and every view is found by its
    id. -/
structure Represents (locals : List LocalPosition) (remotes : List RemotePosition)
    (views : List View) : Prop where
  own : ∃ (own : List PositionView) (others : List ExternalView),
    views = own.map View.tracked ++ others.map View.external ∧
    own.map PositionView.positionId = ids locals
  takes : List.Forall₂ (Takes remotes) views (credits locals remotes)
  once : ∀ i remote, remotes[i]? = some remote → remote.quantity.isSome = true →
    (credits locals remotes).count (some i) = 1
  sums : ∀ token,
    groupSum (fun v : View × Option ℕ => creditedToken remotes v.2) (fun v => v.1.credited)
        (views.zip (credits locals remotes)) (some token)
      = groupSum RemotePosition.tokenId RemotePosition.value remotes token
  distinct : (views.map View.positionId).Nodup
  found : ∀ view ∈ views, getPosition view.positionId views = some view

/-- The tokens are told apart, of the remote records that say a quantity, and so are the ids. -/
structure ToldApart (locals : List LocalPosition) (remotes : List RemotePosition) : Prop where
  tokens : ∀ i remote token, remotes[i]? = some remote → remote.tokenId = some token →
    remote.quantity.isSome = true → remote.trackedBy locals = true → Apart locals remotes i token
  ids : (viewIds locals remotes).Nodup

/-- Records that count once add up. -/
theorem sums_of_once {locals : List LocalPosition} {remotes : List RemotePosition}
    {views : List View} (htakes : List.Forall₂ (Takes remotes) views (credits locals remotes))
    (honce : ∀ i remote, remotes[i]? = some remote → remote.quantity.isSome = true →
      (credits locals remotes).count (some i) = 1) (token : Option Text) :
    groupSum (fun v : View × Option ℕ => creditedToken remotes v.2) (fun v => v.1.credited)
        (views.zip (credits locals remotes)) (some token)
      = groupSum RemotePosition.tokenId RemotePosition.value remotes token := by
  rw [groupSum_takes token htakes,
    sum_credits (valueAt remotes token) remotes.length _ fun i hi => lt_of_mem_credits hi,
    groupSum_remotes]
  refine Finset.sum_congr rfl fun i hi => ?_
  obtain ⟨remote, hget⟩ : ∃ remote, remotes[i]? = some remote :=
    ⟨_, List.getElem?_eq_getElem (Finset.mem_range.mp hi)⟩
  cases hquantity : remote.quantity with
  | none =>
      have hzero : valueAt remotes token i = 0 := by
        simp [valueAt, hget, RemotePosition.value, hquantity]
      rw [hzero, mul_zero]
  | some quantity =>
      rw [honce i remote hget (by rw [hquantity]; rfl), Nat.cast_one, one_mul]

/-- Views with different ids are all found. -/
theorem getPosition_of_nodup {views : List View} (h : (views.map View.positionId).Nodup) :
    ∀ view ∈ views, getPosition view.positionId views = some view := by
  induction views with
  | nil => exact List.forall_mem_nil _
  | cons first rest ih =>
      rw [List.map_cons, List.nodup_cons] at h
      intro view hview
      rw [getPosition]
      rcases List.mem_cons.mp hview with rfl | hrest
      · exact List.find?_cons_of_pos (decide_eq_true rfl)
      · have hne : first.positionId ≠ view.positionId := fun heq =>
          h.1 (heq ▸ List.mem_map_of_mem hrest)
        rw [List.find?_cons_of_neg (by simpa using hne)]
        exact ih h.2 view hrest

/-- **The views represent the positions exactly where the tokens and the ids are told apart.** -/
theorem represents_iff {letters : Letters} {queries : MarketQueries}
    {locals : List LocalPosition} {remotes : List RemotePosition} {views : List View}
    (h : mergePositions letters queries locals remotes = some views) :
    Represents locals remotes views ↔ ToldApart locals remotes := by
  obtain ⟨hown, hids, htakes⟩ := mergePositions_spec h
  constructor
  · intro hrepresents
    refine ⟨fun i remote token hget htoken hquantity htracked => ?_, hids ▸ hrepresents.distinct⟩
    exact (count_credits_eq_one_iff hget htoken hquantity htracked).mp
      (hrepresents.once i remote hget hquantity)
  · intro happart
    have honce : ∀ i remote, remotes[i]? = some remote → remote.quantity.isSome = true →
        (credits locals remotes).count (some i) = 1 := by
      intro i remote hget hquantity
      -- a record that nothing tracks is shown as external, once
      cases htracked : remote.trackedBy locals with
      | false => exact count_credits_external hget htracked
      | true =>
          cases htoken : remote.tokenId with
          | none =>
              rw [RemotePosition.trackedBy, htoken] at htracked
              cases htracked
          | some token =>
              exact (count_credits_eq_one_iff hget htoken hquantity htracked).mpr
                (happart.tokens i remote token hget htoken hquantity htracked)
    have hdistinct : (views.map View.positionId).Nodup := hids ▸ happart.ids
    exact ⟨hown, htakes, honce, sums_of_once htakes honce, hdistinct,
      getPosition_of_nodup hdistinct⟩

/-! ## One token, twice -/

/-- A remote position of the token with the quantity. -/
def remoteOf (token quantity : Text) : RemotePosition where
  positionId := none
  marketId := some (.inr 1)
  tokenId := some token
  outcomeName := some YesNo.yes.label
  quantity := some (.text quantity)
  status := none

/-- Ten of YES are tracked, with the token 7. -/
def trackedYes : LocalPosition where
  positionId := ['p']
  marketId := ['1']
  question := []
  outcomeName := YesNo.yes.label
  tokenId := ['7']
  side := []
  strategy := []
  entryTime := []
  entryPrice := 0
  quantity := ['1', '0']
  notionalUsdt := some 1
  orderHash := []
  orderStatus := []
  fillAmount := none
  feeRateBps := 0
  source := []
  notes := none
  status := openText

def smallQueries : MarketQueries where
  detail _ := some (cheapYes, none)
  question _ := some []

/-- Two remote positions, of the token that is tracked and of another one. -/
def apart : List RemotePosition := [remoteOf ['7'] ['5'], remoteOf ['8'] ['3']]

theorem represents_iff_apart : ∃ views,
    mergePositions asciiLetters smallQueries [trackedYes] apart = some views ∧
    (Represents [trackedYes] apart views ↔ ToldApart [trackedYes] apart) := by
  have hmerge : ∃ views,
      mergePositions asciiLetters smallQueries [trackedYes] apart = some views := ⟨_, rfl⟩
  obtain ⟨views, hviews⟩ := hmerge
  exact ⟨views, hviews, represents_iff hviews⟩

/-- Two remote positions of the token that is tracked. -/
def twice : List RemotePosition := [remoteOf ['7'] ['5'], remoteOf ['7'] ['3']]

/-- The first of them counts nowhere. -/
theorem not_represents_twice :
    ¬ ∀ (letters : Letters) (queries : MarketQueries) (locals : List LocalPosition)
      (remotes : List RemotePosition) (views : List View),
      mergePositions letters queries locals remotes = some views →
      Represents locals remotes views := by
  intro hrepresents
  have honce := (hrepresents asciiLetters smallQueries [trackedYes] twice _ rfl).once 0
    (remoteOf ['7'] ['5']) rfl rfl
  exact absurd honce (by decide)

end Predict
