import MandatedVaultFactory.BacktrackProofs
import MandatedVaultFactory.JsonPrefixProofs

/-!
# The answers of the model

`extract_json_from_response` looks for a JSON object in what a language model has answered: in a
fence, in the whole answer, and from the first brace to the last.

* **`extractJson`** — the three candidates, in this order; an error of `json.loads` that is no
  `JSONDecodeError` ends it.
* **`search_fenced_iff`** — the fenced candidate is the shortest piece at the first fence that
  has one (`FirstFenced`).
* **`readBack_iff`** — an object is read back from a wrapping exactly if its own text has no other
  object in a fence and no limit is met first; **`not_readBack_fence`** is one that has. -/

namespace ModelAnswers

open Backtrack Json Texts

/-! ## The function -/

/-- Three backticks. -/
def ticks : Text := ['\x60', '\x60', '\x60']

def anything : Char → Bool := fun _ => true

/-- A braced piece, and what follows it. -/
def braced (body : Pattern Char Text) (rest : Text → Pattern Char Text) : Pattern Char Text :=
  bind (word ['{']) fun _ => bind body fun b => bind (word ['}']) fun _ => rest ('{' :: b ++ ['}'])

/-- The end of a fence. -/
def closing (g : Text) : Pattern Char Text :=
  bind (many isSpace) fun _ => bind (word ticks) fun _ => done g

/-- "```(?:json)?\\s*(\\{[\\s\\S]*?\\})\\s*```", with its group. -/
def fencedPattern : Pattern Char Text :=
  bind (word ticks) fun _ => bind (optional (word "json".toList)) fun _ =>
    bind (many isSpace) fun _ => braced (manyLazy anything) closing

/-- "(\\{[\\s\\S]*\\})", with its group. -/
def wrappedPattern : Pattern Char Text := braced (many anything) done

/-- What was found: a dictionary, nothing, or an error that is no `JSONDecodeError`. -/
abbrev Found (floats : Floats) : Type :=
  Except LoadError (Option (List (Str × Loaded floats.Float)))

/-- `json.loads` of a candidate, if it is a dictionary; only `JSONDecodeError` is caught. -/
def read (floats : Floats) (candidate : Text) : Found floats :=
  match loads floats candidate with
  | .ok v => .ok (asDict v)
  | .error .jsonDecodeError => .ok none
  | .error e => .error e

/-- The first candidate that is a dictionary. -/
def firstRead (floats : Floats) : List Text → Found floats
  | [] => .ok none
  | candidate :: candidates =>
      match read floats candidate with
      | .error e => .error e
      | .ok (some members) => .ok (some members)
      | .ok none => firstRead floats candidates

/-- `extract_json_from_response`. -/
def extractJson (floats : Floats) (text : Text) : Found floats :=
  let stripped := strip text
  firstRead floats ((search fencedPattern stripped).toList ++ [stripped]
    ++ (search wrappedPattern stripped).toList)

/-! ## Fences -/

abbrev Spaces (t : Text) : Prop := ∀ c ∈ t, isSpace c = true

def label : Bool → Text
  | true => "json".toList
  | false => []

/-- White space and the end of a fence. -/
def Closes (t : Text) : Prop := ∃ ws rest, Spaces ws ∧ t = ws ++ (ticks ++ rest)

/-- A piece in a fence, and what stands before the fence. -/
structure Fenced (t before g : Text) : Prop where
  piece : ∃ b, g = '{' :: (b ++ ['}'])
  split : ∃ named ws rest, Spaces ws ∧ Closes rest
    ∧ t = before ++ (ticks ++ (label named ++ (ws ++ (g ++ rest))))

/-- The shortest piece at the first fence that has one. -/
def FirstFenced (t g : Text) : Prop :=
  ∃ before, Fenced t before g ∧ ∀ before' g', Fenced t before' g' →
    before.length < before'.length ∨ before.length = before'.length ∧ g.length ≤ g'.length

/-- The first of a letter, in both of two splits. -/
theorem split_first {c : Char} {p q t u : Text} (hp : c ∉ p) (hq : c ∉ q)
    (h : p ++ c :: t = q ++ c :: u) : p = q ∧ t = u := by
  induction p generalizing q with
  | nil =>
      cases q with
      | nil => exact ⟨rfl, (List.cons.inj h).2⟩
      | cons d q => exact absurd (List.cons.inj h).1 fun heq => hq (heq ▸ List.mem_cons_self ..)
  | cons d p ih =>
      cases q with
      | nil => exact absurd (List.cons.inj h).1 fun heq => hp (heq ▸ List.mem_cons_self ..)
      | cons e q =>
          obtain ⟨rfl, heq⟩ := List.cons.inj h
          obtain ⟨rfl, hrest⟩ := ih (fun hmem => hp (List.mem_cons_of_mem _ hmem))
            (fun hmem => hq (List.mem_cons_of_mem _ hmem)) heq
          exact ⟨rfl, hrest⟩

/-- A letter that the first part of a text lacks comes behind that part. -/
theorem split_left {c : Char} {p y before u : Text} (hp : c ∉ p)
    (h : p ++ y = before ++ c :: u) : ∃ more, before = p ++ more ∧ y = more ++ c :: u := by
  rcases List.append_eq_append_iff.mp h with ⟨more, hbefore, hy⟩ | ⟨more, hpre, hmore⟩
  · exact ⟨more, hbefore, hy⟩
  · cases more with
    | nil => exact ⟨[], by rw [hpre]; simp, hmore.symm⟩
    | cons d more =>
        refine absurd ?_ hp
        rw [hpre, (List.cons.inj hmore).1]
        simp

/-- A letter that the last part of a text lacks comes before that part. -/
theorem split_right {c : Char} {d q before u : Text} (hq : c ∉ q)
    (h : d ++ q = before ++ c :: u) : ∃ more, d = before ++ c :: more ∧ u = more ++ q := by
  rcases List.append_eq_append_iff.mp h with ⟨more, _, hmore⟩ | ⟨more, hd, hmore⟩
  · refine absurd ?_ hq
    rw [hmore]
    simp
  · cases more with
    | nil =>
        refine absurd ?_ hq
        rw [← show c :: u = q from hmore]
        exact List.mem_cons_self ..
    | cons e more =>
        obtain ⟨rfl, hu⟩ := List.cons.inj hmore
        exact ⟨more, hd, hu⟩

theorem notMem_spaces {c : Char} (hc : isSpace c = false) {ws : Text} (h : Spaces ws) : c ∉ ws :=
  fun hmem => by rw [h c hmem] at hc; cases hc

theorem notMem_label {c : Char} (hc : c ∉ "json".toList) (named : Bool) : c ∉ label named := by
  cases named with
  | true => exact hc
  | false => exact List.not_mem_nil

/-- What opens a fence has no brace. -/
theorem brace_notMem_opening (named : Bool) {ws : Text} (hws : Spaces ws) :
    '{' ∉ ticks ++ (label named ++ ws) := by
  rw [List.mem_append, List.mem_append]
  rintro (h | h | h)
  · exact absurd h (by decide)
  · exact notMem_label (by decide) named h
  · exact notMem_spaces (by decide) hws h

/-- A fence opens in one way only. -/
theorem opening_unique {named named' : Bool} {ws ws' t t' : Text} (hws : Spaces ws)
    (hws' : Spaces ws')
    (h : ticks ++ (label named ++ (ws ++ '{' :: t)) = ticks ++ (label named' ++ (ws' ++ '{' :: t'))) :
    label named ++ ws = label named' ++ ws' ∧ t = t' := by
  have hsplit : (ticks ++ (label named ++ ws)) ++ '{' :: t
      = (ticks ++ (label named' ++ ws')) ++ '{' :: t' := by
    simpa only [List.append_assoc] using h
  obtain ⟨hopen, ht⟩ := split_first (brace_notMem_opening named hws)
    (brace_notMem_opening named' hws') hsplit
  exact ⟨List.append_cancel_left hopen, ht⟩

/-! ## What the patterns find -/

theorem bind_word {β : Type} (w t : Text) (f : Text → Pattern Char β) :
    bind (word w) f (w ++ t) = f w t := by
  have hways : word w (w ++ t) = [(w, t)] := by
    rw [word, if_pos (List.prefix_append _ _), List.drop_left]
  rw [Backtrack.bind, hways, List.flatMap_singleton]

/-- A braced piece is found where a brace stands. -/
theorem exists_of_braced {body : Pattern Char Text} {rest : Text → Pattern Char Text} {t : Text}
    {r : Text × Text} (h : r ∈ braced body rest t) :
    ∃ b u v, t = '{' :: u ∧ (b, '}' :: v) ∈ body u ∧ r ∈ rest ('{' :: b ++ ['}']) v := by
  obtain ⟨x, hx, h⟩ := mem_bind.mp h
  obtain ⟨y, hy, h⟩ := mem_bind.mp h
  obtain ⟨z, hz, h⟩ := mem_bind.mp h
  obtain ⟨_, ht⟩ := mem_word.mp hx
  obtain ⟨_, hrest⟩ := mem_word.mp hz
  exact ⟨y.1, x.2, z.2, ht, by rw [← show y.2 = '}' :: z.2 from hrest]; exact hy, h⟩

theorem mem_braced {body : Pattern Char Text} {rest : Text → Pattern Char Text} {b u v : Text}
    {r : Text × Text} (hbody : (b, '}' :: v) ∈ body u) (hrest : r ∈ rest ('{' :: b ++ ['}']) v) :
    r ∈ braced body rest ('{' :: u) := by
  refine mem_bind.mpr ⟨(['{'], u), mem_word.mpr ⟨rfl, rfl⟩, ?_⟩
  refine mem_bind.mpr ⟨(b, '}' :: v), hbody, ?_⟩
  exact mem_bind.mpr ⟨(['}'], v), mem_word.mpr ⟨rfl, rfl⟩, hrest⟩

theorem mem_closing {g t : Text} {r : Text × Text} :
    r ∈ closing g t ↔ r.1 = g ∧ ∃ ws, Spaces ws ∧ t = ws ++ (ticks ++ r.2) := by
  constructor
  · intro h
    obtain ⟨x, hx, h⟩ := mem_bind.mp h
    obtain ⟨y, hy, h⟩ := mem_bind.mp h
    obtain ⟨ht, hspaces⟩ := mem_many.mp hx
    obtain ⟨_, hy⟩ := mem_word.mp hy
    rw [List.mem_singleton.mp h]
    exact ⟨rfl, x.1, hspaces, by rw [ht, hy]⟩
  · rintro ⟨hg, ws, hws, rfl⟩
    refine mem_bind.mpr ⟨(ws, ticks ++ r.2), mem_many.mpr ⟨rfl, hws⟩, ?_⟩
    refine mem_bind.mpr ⟨(ticks, r.2), mem_word.mpr ⟨rfl, rfl⟩, ?_⟩
    rw [← hg]
    exact List.mem_singleton_self _

theorem mem_optional_label {t : Text} {r : Text × Text} :
    r ∈ optional (word "json".toList) t ↔ ∃ named, r.1 = label named ∧ t = label named ++ r.2 := by
  rw [mem_optional, mem_word]
  constructor
  · rintro (⟨hr, ht⟩ | rfl)
    · exact ⟨true, hr, ht⟩
    · exact ⟨false, rfl, rfl⟩
  · rintro ⟨named, hr, ht⟩
    cases named with
    | true => exact Or.inl ⟨hr, ht⟩
    | false => exact Or.inr (Prod.ext hr ht.symm)

/-- The ways of the pattern are the fenced pieces. -/
theorem exists_mem_fencedPattern {t g : Text} :
    (∃ left, (g, left) ∈ fencedPattern t) ↔ Fenced t [] g := by
  constructor
  · rintro ⟨left, h⟩
    obtain ⟨x, hx, h⟩ := mem_bind.mp h
    obtain ⟨y, hy, h⟩ := mem_bind.mp h
    obtain ⟨z, hz, h⟩ := mem_bind.mp h
    obtain ⟨b, u, v, hu, hb, hclose⟩ := exists_of_braced h
    obtain ⟨_, hx⟩ := mem_word.mp hx
    obtain ⟨named, _, hy⟩ := mem_optional_label.mp hy
    obtain ⟨hz, hspaces⟩ := mem_many.mp hz
    obtain ⟨hb, _⟩ := mem_manyLazy.mp hb
    obtain ⟨hg, ws, hws, hv⟩ := mem_closing.mp hclose
    refine ⟨⟨b, hg⟩, named, z.1, v, hspaces, ⟨ws, left, hws, hv⟩, ?_⟩
    rw [hx, hy, hz, hu, hb]
    obtain rfl : g = '{' :: b ++ ['}'] := hg
    simp
  · rintro ⟨⟨b, rfl⟩, named, ws, rest, hws, ⟨ws', left, hws', rfl⟩, rfl⟩
    refine ⟨left, mem_bind.mpr ⟨(ticks, _), mem_word.mpr ⟨rfl, rfl⟩, ?_⟩⟩
    refine mem_bind.mpr ⟨(label named, _), mem_optional_label.mpr ⟨named, rfl, rfl⟩, ?_⟩
    refine mem_bind.mpr ⟨(ws, _), mem_many.mpr ⟨rfl, hws⟩, ?_⟩
    have hbody : (b, '}' :: (ws' ++ (ticks ++ left)))
        ∈ manyLazy anything (b ++ '}' :: (ws' ++ (ticks ++ left))) :=
      mem_manyLazy.mpr ⟨rfl, fun _ _ => rfl⟩
    have hclose : ('{' :: b ++ ['}'], left)
        ∈ closing ('{' :: b ++ ['}']) (ws' ++ (ticks ++ left)) :=
      mem_closing.mpr ⟨rfl, ws', hws', rfl⟩
    have hmem := mem_braced hbody hclose
    simpa using hmem

/-- **The first way of a braced piece with a lazy body is the shortest.** -/
theorem head?_braced {t g left : Text} {rest : Text → Pattern Char Text}
    (h : (braced (manyLazy anything) rest t).head? = some (g, left)) :
    ∃ b v, t = '{' :: (b ++ '}' :: v) ∧ (rest ('{' :: b ++ ['}']) v).head? = some (g, left)
      ∧ ∀ b' v', t = '{' :: (b' ++ '}' :: v') → rest ('{' :: b' ++ ['}']) v' ≠ [] →
        b.length ≤ b'.length := by
  obtain ⟨x, hx, h⟩ := exists_of_head?_bind h
  obtain ⟨_, ht⟩ := mem_word.mp hx
  obtain ⟨y, hy, h, hfirst⟩ := head?_bind_first (pairwise_manyLazy anything x.2) h
  obtain ⟨z, hz, h⟩ := exists_of_head?_bind h
  obtain ⟨_, hz⟩ := mem_word.mp hz
  obtain ⟨hx, _⟩ := mem_manyLazy.mp hy
  refine ⟨y.1, z.2, ?_, h, fun b' v' ht' hne => ?_⟩
  · rw [ht, hx, hz]
    rfl
  · have hrest : x.2 = b' ++ '}' :: v' := (List.cons.inj (ht.symm.trans ht')).2
    have hway : (b', '}' :: v') ∈ manyLazy anything x.2 :=
      mem_manyLazy.mpr ⟨hrest, fun _ _ => rfl⟩
    have hleads : Backtrack.bind (word ['}']) (fun _ => rest ('{' :: b' ++ ['}'])) ('}' :: v') ≠ [] := by
      intro hnil
      refine hne ?_
      rw [← bind_word ['}'] v' fun _ => rest ('{' :: b' ++ ['}'])]
      exact hnil
    rcases hfirst _ hway hleads with heq | hlt
    · rw [← heq]
    · exact Nat.le_of_lt hlt

/-- **The first way of the pattern is the shortest piece.** -/
theorem head?_fencedPattern {t g left : Text} (h : (fencedPattern t).head? = some (g, left)) :
    Fenced t [] g ∧ ∀ g', Fenced t [] g' → g.length ≤ g'.length := by
  refine ⟨exists_mem_fencedPattern.mp ⟨left, List.mem_of_mem_head? h⟩, ?_⟩
  rintro g' ⟨⟨b', rfl⟩, named', ws', rest', hws', ⟨close', left', hclose', rfl⟩, ht'⟩
  obtain ⟨x, hx, h⟩ := exists_of_head?_bind h
  obtain ⟨y, hy, h⟩ := exists_of_head?_bind h
  obtain ⟨z, hz, h⟩ := exists_of_head?_bind h
  obtain ⟨b, v, hbraced, h, hshortest⟩ := head?_braced h
  obtain ⟨_, hx⟩ := mem_word.mp hx
  obtain ⟨named, _, hy⟩ := mem_optional_label.mp hy
  obtain ⟨hz, hws⟩ := mem_many.mp hz
  have hg : g = '{' :: b ++ ['}'] := (mem_closing.mp (List.mem_of_mem_head? h)).1
  -- both pieces start at the same brace
  have hopen : ticks ++ (label named ++ (z.1 ++ '{' :: (b ++ '}' :: v)))
      = ticks ++ (label named' ++ (ws' ++ '{' :: (b' ++ '}' :: (close' ++ (ticks ++ left'))))) := by
    rw [← hbraced, ← hz, ← hy, ← hx, ht']
    simp
  obtain ⟨_, hsame⟩ := opening_unique hws hws' hopen
  have hle := hshortest b' (close' ++ (ticks ++ left')) (by rw [hbraced, hsame]) fun hnil => by
    have hmem : ('{' :: b' ++ ['}'], left') ∈ closing ('{' :: b' ++ ['}'])
        (close' ++ (ticks ++ left')) := mem_closing.mpr ⟨rfl, close', hclose', rfl⟩
    rw [hnil] at hmem
    cases hmem
  rw [hg]
  simpa using hle

/-! ## The search for a fence -/

/-- A piece in a fence, seen from where the fence starts. -/
theorem fenced_append_iff {t before rest g : Text} (ht : t = before ++ rest) :
    Fenced t before g ↔ Fenced rest [] g := by
  subst ht
  constructor
  · rintro ⟨hpiece, named, ws, after, hws, hafter, heq⟩
    exact ⟨hpiece, named, ws, after, hws, hafter, List.append_cancel_left heq⟩
  · rintro ⟨hpiece, named, ws, after, hws, hafter, heq⟩
    exact ⟨hpiece, named, ws, after, hws, hafter, by rw [heq]; rfl⟩

theorem Fenced.exists_rest {t before g : Text} (h : Fenced t before g) :
    ∃ rest, t = before ++ rest := by
  obtain ⟨named, ws, after, _, _, ht⟩ := h.split
  exact ⟨_, ht⟩

theorem firstFenced_of_search {t g : Text} (h : search fencedPattern t = some g) :
    FirstFenced t g := by
  obtain ⟨before, rest, ht, ⟨left, hhead⟩, hfirst⟩ := search_eq_some_iff.mp h
  obtain ⟨hfenced, hshortest⟩ := head?_fencedPattern hhead
  refine ⟨before, (fenced_append_iff ht).mpr hfenced, fun before' g' h' => ?_⟩
  obtain ⟨rest', ht'⟩ := h'.exists_rest
  rcases Nat.lt_trichotomy before.length before'.length with hlt | heq | hgt
  · exact Or.inl hlt
  · have hsame : before = before' ∧ rest = rest' := List.append_inj (ht.symm.trans ht') heq
    rw [← hsame.1] at h'
    exact Or.inr ⟨heq, hshortest g' ((fenced_append_iff ht).mp h')⟩
  · obtain ⟨left', hmem⟩ := exists_mem_fencedPattern.mpr ((fenced_append_iff ht').mp h')
    rw [hfirst before' rest' ht' hgt] at hmem
    cases hmem

/-- Two pieces at one fence start at the same brace. -/
theorem Fenced.starts {t before g g' : Text} (h : Fenced t before g) (h' : Fenced t before g')
    (hle : g.length ≤ g'.length) : g <+: g' := by
  obtain ⟨⟨b, rfl⟩, named, ws, rest, hws, _, ht⟩ := h
  obtain ⟨⟨b', rfl⟩, named', ws', rest', hws', _, ht'⟩ := h'
  obtain ⟨_, hsame⟩ := opening_unique hws hws' (List.append_cancel_left (ht.symm.trans ht'))
  have hrest : '{' :: (b ++ ['}']) ++ rest = '{' :: (b' ++ ['}']) ++ rest' :=
    congrArg ('{' :: ·) hsame
  refine List.prefix_of_prefix_length_le (List.prefix_append _ rest) ?_ hle
  rw [hrest]
  exact List.prefix_append _ rest'

theorem FirstFenced.unique {t g g' : Text} (h : FirstFenced t g) (h' : FirstFenced t g') :
    g = g' := by
  obtain ⟨before, hfenced, hfirst⟩ := h
  obtain ⟨before', hfenced', hfirst'⟩ := h'
  obtain ⟨rest, ht⟩ := hfenced.exists_rest
  obtain ⟨rest', ht'⟩ := hfenced'.exists_rest
  have hle := hfirst _ _ hfenced'
  have hge := hfirst' _ _ hfenced
  have hlength : before.length = before'.length := by omega
  obtain ⟨rfl, _⟩ := List.append_inj (ht.symm.trans ht') hlength
  have hsame : g.length = g'.length := by omega
  exact (hfenced.starts hfenced' (Nat.le_of_eq hsame)).eq_of_length hsame

/-- **The search finds the shortest piece at the first fence that has one.** -/
theorem search_fenced_iff {t g : Text} : search fencedPattern t = some g ↔ FirstFenced t g := by
  constructor
  · exact firstFenced_of_search
  · intro h
    cases hsearch : search fencedPattern t with
    | some g' => rw [(firstFenced_of_search hsearch).unique h]
    | none =>
        obtain ⟨before, hfenced, _⟩ := h
        obtain ⟨rest, ht⟩ := hfenced.exists_rest
        obtain ⟨left, hmem⟩ := exists_mem_fencedPattern.mpr ((fenced_append_iff ht).mp hfenced)
        rw [search_eq_none_iff.mp hsearch before rest ht] at hmem
        cases hmem

/-! ## The other candidates -/

/-- The last brace ends the greedy piece. -/
theorem search_wrapped {p b q : Text} (hp : '{' ∉ p) (hq : '}' ∉ q) :
    search wrappedPattern (p ++ ('{' :: (b ++ ['}'])) ++ q) = some ('{' :: (b ++ ['}'])) := by
  refine search_eq_some_iff.mpr ⟨p, '{' :: (b ++ '}' :: q), by simp, ⟨q, ?_⟩, ?_⟩
  · have hword := bind_word ['{'] (b ++ '}' :: q) fun _ => Backtrack.bind (many anything) fun b =>
      Backtrack.bind (word ['}']) fun _ => done ('{' :: b ++ ['}'])
    have hstart : wrappedPattern ('{' :: (b ++ '}' :: q)) = _ := hword
    rw [hstart, head?_bind]
    have hway : (b, '}' :: q) ∈ many anything (b ++ '}' :: q) :=
      mem_many.mpr ⟨rfl, fun _ _ => rfl⟩
    obtain ⟨before, after, hways⟩ := List.append_of_mem hway
    refine ⟨before, (b, '}' :: q), after, hways, fun y hy => ?_, ?_⟩
    · -- a longer body would need another brace behind it
      have hmem : y ∈ many anything (b ++ '}' :: q) := by
        rw [hways]
        exact List.mem_append_left _ hy
      have hlonger : b.length < y.1.length := by
        have hpairwise := pairwise_many anything (b ++ '}' :: q)
        rw [hways] at hpairwise
        exact (List.pairwise_append.mp hpairwise).2.2 y hy _ (List.mem_cons_self ..)
      obtain ⟨hsplit, _⟩ := mem_many.mp hmem
      refine List.eq_nil_iff_forall_not_mem.mpr fun r hr => ?_
      obtain ⟨z, hz, _⟩ := mem_bind.mp hr
      obtain ⟨_, hbrace⟩ := mem_word.mp hz
      obtain ⟨more, hmore⟩ : b <+: y.1 := List.prefix_of_prefix_length_le
        (List.prefix_append _ ('}' :: q)) (hsplit ▸ List.prefix_append _ _) (Nat.le_of_lt hlonger)
      refine hq ?_
      have hwhole : b ++ '}' :: q = b ++ (more ++ '}' :: z.2) := by
        rw [hsplit, hbrace, ← hmore]
        simp
      have hq' : '}' :: q = more ++ '}' :: z.2 := List.append_cancel_left hwhole
      cases more with
      | nil =>
          rw [List.append_nil] at hmore
          rw [hmore] at hlonger
          exact absurd hlonger (Nat.lt_irrefl _)
      | cons c more =>
          rw [(List.cons.inj hq').2]
          simp
    · have hclose := bind_word ['}'] q fun _ => done ('{' :: b ++ ['}'])
      show (Backtrack.bind (word ['}']) (fun _ => done ('{' :: b ++ ['}'])) (['}'] ++ q)).head? = _
      rw [hclose]
      rfl
  · intro before' rest' hsplit hlt
    refine List.eq_nil_iff_forall_not_mem.mpr fun r hr => ?_
    obtain ⟨_, u, _, rfl, _⟩ := exists_of_braced hr
    obtain ⟨more, hmore, _⟩ := split_left hp ((List.append_assoc ..).symm.trans hsplit)
    rw [hmore, List.length_append] at hlt
    omega

/-! ## Prose -/

/-- No braces and no backticks. -/
structure Prose (t : Text) : Prop where
  opens : '{' ∉ t
  closes : '}' ∉ t
  tick : '\x60' ∉ t

theorem prose_spaces {t : Text} (h : Spaces t) : Prose t where
  opens := notMem_spaces (by decide) h
  closes := notMem_spaces (by decide) h
  tick := notMem_spaces (by decide) h

/-- Where a text without backticks starts, no fence does; and none ends where one ends. -/
theorem Fenced.inside {p d q before g : Text} (hp : Prose p) (hq : Prose q)
    (h : Fenced (p ++ d ++ q) before g) : ∃ before', before = p ++ before' ∧ Fenced d before' g := by
  obtain ⟨hpiece, named, ws, rest, hws, ⟨ws', after, hws', rfl⟩, ht⟩ := h
  have hstart : p ++ (d ++ q) = before ++ '\x60' :: (['\x60', '\x60'] ++ (label named ++ (ws ++ (g
      ++ (ws' ++ (ticks ++ after)))))) := by
    rw [← List.append_assoc, ht]
    rfl
  obtain ⟨before', rfl, hinner⟩ := split_left hp.tick hstart
  have hend : d ++ q = (before' ++ (ticks ++ (label named ++ (ws ++ (g ++ (ws' ++ ['\x60', '\x60']))))))
      ++ '\x60' :: after := by
    rw [hinner]
    simp [ticks]
  obtain ⟨after', hd, rfl⟩ := split_right hq.tick hend
  refine ⟨before', rfl, hpiece, named, ws, ws' ++ (ticks ++ after'), hws, ⟨ws', after', hws', rfl⟩, ?_⟩
  rw [hd]
  simp [ticks]

theorem Fenced.outside {d before g : Text} (p q : Text) (h : Fenced d before g) :
    Fenced (p ++ d ++ q) (p ++ before) g := by
  obtain ⟨hpiece, named, ws, rest, hws, ⟨ws', after, hws', rfl⟩, rfl⟩ := h
  refine ⟨hpiece, named, ws, ws' ++ (ticks ++ (after ++ q)), hws, ⟨ws', after ++ q, hws', rfl⟩, ?_⟩
  simp

/-- **Prose has no part in a fence.** -/
theorem firstFenced_prose {p d q g : Text} (hp : Prose p) (hq : Prose q) :
    FirstFenced (p ++ d ++ q) g ↔ FirstFenced d g := by
  constructor
  · rintro ⟨before, hfenced, hfirst⟩
    obtain ⟨before, rfl, hinner⟩ := hfenced.inside hp hq
    refine ⟨before, hinner, fun before' g' h' => ?_⟩
    have hlater := hfirst _ _ (h'.outside p q)
    rw [List.length_append, List.length_append] at hlater
    omega
  · rintro ⟨before, hfenced, hfirst⟩
    refine ⟨p ++ before, hfenced.outside p q, fun before' g' h' => ?_⟩
    obtain ⟨before', rfl, hinner⟩ := h'.inside hp hq
    have hlater := hfirst _ _ hinner
    rw [List.length_append, List.length_append]
    omega

/-! ## White space around -/

/-- What `strip` leaves of the text around a trimmed one. -/
theorem strip_around {d : Text} (hd : Trimmed d) (hne : d ≠ []) (p q : Text) :
    ∃ p' q', strip (p ++ d ++ q) = p' ++ d ++ q' ∧ p' <:+ p ∧ q' <+: q := by
  have hleft : ∀ {p d q : Text}, (∀ c ∈ d.head?, isSpace c = false) → d ≠ [] →
      (p ++ (d ++ q)).dropWhile isSpace = p.dropWhile isSpace ++ (d ++ q) := by
    intro p d q hhead hne
    rw [List.dropWhile_append]
    split
    · rename_i hempty
      rw [List.isEmpty_iff.mp hempty, List.nil_append]
      refine dropWhile_of_head ?_
      rw [List.head?_append_of_ne_nil _ hne]
      exact hhead
    · rfl
  have hlast : ∀ c ∈ d.reverse.head?, isSpace c = false := by
    rw [List.head?_reverse]
    exact hd.last
  refine ⟨p.dropWhile isSpace, (q.reverse.dropWhile isSpace).reverse, ?_,
    List.dropWhile_suffix _, ?_⟩
  · have hright : ((p.dropWhile isSpace ++ d ++ q).reverse).dropWhile isSpace
        = q.reverse.dropWhile isSpace ++ (d.reverse ++ (p.dropWhile isSpace).reverse) := by
      rw [List.reverse_append, List.reverse_append]
      exact hleft hlast (by simpa using hne)
    rw [strip, List.append_assoc, hleft hd.head hne, ← List.append_assoc, hright]
    simp
  · have hsuffix := List.dropWhile_suffix (l := q.reverse) isSpace
    rw [← List.reverse_prefix, List.reverse_reverse] at hsuffix
    exact hsuffix

theorem Prose.suffix {t u : Text} (h : Prose t) (hu : u <:+ t) : Prose u where
  opens := fun hmem => h.opens (hu.mem hmem)
  closes := fun hmem => h.closes (hu.mem hmem)
  tick := fun hmem => h.tick (hu.mem hmem)

theorem Prose.start {t u : Text} (h : Prose t) (hu : u <+: t) : Prose u where
  opens := fun hmem => h.opens (hu.mem hmem)
  closes := fun hmem => h.closes (hu.mem hmem)
  tick := fun hmem => h.tick (hu.mem hmem)

/-! ## Reading back -/

/-- A JSON object, a dictionary in which no key stands twice, that `json.dumps` writes. -/
structure Object (floats : Floats) where
  members : List (Str × Loaded floats.Float)
  keyed : (Value.obj members).Keyed
  written : (Value.obj members).limit floats floats.writeDepth 0 = none

variable {floats : Floats}

namespace Object

/-- `json.dumps(o)`. -/
def text (o : Object floats) : Text := dumps floats (.obj o.members)

/-- Its text in a fence. -/
def inFence (o : Object floats) (named : Bool) (ws ws' : Text) : Text :=
  ticks ++ (label named ++ (ws ++ (o.text ++ (ws' ++ ticks))))

/-- `json.loads` reads it: it is not nested too deep for that. -/
def Fits (o : Object floats) : Prop :=
  (Value.obj o.members).limit floats floats.readDepth 0 = none

/-- The first fenced piece of the object's own text, if it has one, is read, and not as another
    object. -/
def NoOtherFenced (o : Object floats) : Prop :=
  ∀ g, FirstFenced o.text g → ¬ Raises floats g ∧
    ∀ members, loads floats g = .ok (.obj members) → members = o.members

/-- That piece is read as the object. -/
def OwnFenced (o : Object floats) : Prop :=
  ∃ g, FirstFenced o.text g ∧ loads floats g = .ok (.obj o.members)

end Object

/-- What is expected of every object: it is what is found in its text with white space around
    it, in a fence, and between prose; and nothing is found in a text without braces. -/
structure ReadBack (floats : Floats) (o : Object floats) : Prop where
  bare : ∀ before after, Spaces before → Spaces after →
    extractJson floats (before ++ o.text ++ after) = .ok (some o.members)
  fenced : ∀ named before ws ws' after, Prose before → Spaces ws → Spaces ws' → Prose after →
    extractJson floats (before ++ o.inFence named ws ws' ++ after) = .ok (some o.members)
  prose : ∀ before after, Prose before → Prose after →
    extractJson floats (before ++ o.text ++ after) = .ok (some o.members)
  noBrace : ∀ t, '{' ∉ t → '}' ∉ t → extractJson floats t = .ok none

namespace Object

theorem value_eq (o : Object floats) :
    (ofValue floats (.obj o.members)).value floats = .obj o.members :=
  value_ofValue floats _ o.keyed

theorem isObj (o : Object floats) : (ofValue floats (.obj o.members)).IsObj :=
  isObj_of_value o.value_eq

theorem text_eq (o : Object floats) : ∃ b, o.text = '{' :: (b ++ ['}']) :=
  o.isObj.text_eq

theorem loads_text (o : Object floats) (h : o.Fits) : loads floats o.text = .ok (.obj o.members) := by
  rw [text, loads_dumps floats o.keyed, h]
  rfl

theorem fits_of_loads (o : Object floats) {v : Loaded floats.Float}
    (h : loads floats o.text = .ok v) : o.Fits := by
  rw [text, loads_dumps floats o.keyed] at h
  exact (unlessLimit_eq_ok.mp h).1

theorem not_raises_text (o : Object floats) (h : o.Fits) : ¬ Raises floats o.text :=
  not_raises_iff.mpr (.inl ⟨_, o.loads_text h⟩)

/-- **Where an object's text starts, no other object is read**, and not less of the text. -/
theorem eq_of_loads (o : Object floats) {p x u w : Text} {members : List (Str × Loaded floats.Float)}
    (hp : '{' ∉ p) (hloads : loads floats (p ++ '{' :: x) = .ok (.obj members))
    (hsame : '{' :: x ++ u = o.text ++ w) : o.Fits ∧ members = o.members ∧ u <:+ w := by
  obtain ⟨doc, htext, hlimit, hvalue⟩ := (loads_iff floats).mp hloads
  have hobj : doc.body.IsObj := isObj_of_value hvalue
  obtain ⟨b, hb⟩ := hobj.text_eq
  have hbefore : '{' ∉ doc.before.1 := fun hmem => absurd (doc.before.2 _ hmem) (by decide)
  have hsplit : p ++ '{' :: x = doc.before.1 ++ '{' :: (b ++ ['}'] ++ doc.after.1) := by
    rw [htext, Document.text, hb]
    simp
  obtain ⟨_, rfl⟩ := split_first hp hbefore hsplit
  have htexts : doc.body.text ++ (doc.after.1 ++ u) = o.text ++ w := by
    rw [← hsame, hb]
    simp
  obtain ⟨hbody, hrest⟩ := text_unique hobj o.isObj htexts
  obtain ⟨hfits, hvalues⟩ := value_eq_of_text floats hobj o.isObj hlimit hbody
  rw [hvalue, o.value_eq] at hvalues
  cases hvalues
  rw [limit_ofValue] at hfits
  exact ⟨hfits, rfl, hrest ▸ List.suffix_append _ _⟩

end Object

/-! ## Candidates -/

/-- What a candidate may be read as. -/
theorem read_cases (floats : Floats) (g : Text) :
    (Raises floats g ∧ ∃ e, read floats g = .error e)
      ∨ (¬ Raises floats g ∧ (∀ members, loads floats g ≠ .ok (.obj members))
        ∧ read floats g = .ok none)
      ∨ (¬ Raises floats g ∧ ∃ members, loads floats g = .ok (.obj members)
        ∧ read floats g = .ok (some members)) := by
  rw [read]
  by_cases hraises : Raises floats g
  · obtain ⟨e, he, hloads⟩ := raises_iff.mp hraises
    refine .inl ⟨hraises, e, ?_⟩
    rw [hloads]
    cases e with
    | jsonDecodeError => exact absurd rfl he
    | valueError => rfl
    | recursionError => rfl
  · refine .inr ?_
    rcases not_raises_iff.mp hraises with ⟨v, hloads⟩ | hloads
    · rw [hloads]
      cases hdict : asDict v with
      | none =>
          refine .inl ⟨hraises, fun members h => ?_, congrArg Except.ok hdict⟩
          rw [Except.ok.inj h] at hdict
          cases hdict
      | some members =>
          refine .inr ⟨hraises, members, ?_, congrArg Except.ok hdict⟩
          rw [asDict_eq_some hdict]
    · rw [hloads]
      refine .inl ⟨hraises, fun members h => ?_, rfl⟩
      cases h

/-- The candidates behind the fenced one. -/
theorem firstRead_rest (o : Object floats) {t p q : Text} (ht : t = p ++ o.text ++ q)
    (hp : '{' ∉ p) :
    firstRead floats [t, o.text] = .ok (some o.members) ↔ o.Fits ∧ ¬ Raises floats t := by
  obtain ⟨b, hb⟩ := o.text_eq
  rw [firstRead]
  rcases read_cases floats t with ⟨hraises, e, hread⟩ | ⟨hraises, _, hread⟩
    | ⟨hraises, members, hloads, hread⟩
  · rw [hread]
    constructor
    · intro h
      cases h
    · intro h
      exact absurd hraises h.2
  · rw [hread]
    dsimp only
    rw [firstRead]
    rcases read_cases floats o.text with ⟨htext, e, hown⟩ | ⟨_, hnone, hown⟩
      | ⟨_, members, hloads, hown⟩
    · rw [hown]
      constructor
      · intro h
        cases h
      · intro h
        exact absurd htext (o.not_raises_text h.1)
    · rw [hown]
      constructor
      · intro h
        cases h
      · intro h
        exact absurd (o.loads_text h.1) (hnone _)
    · have hfits := o.fits_of_loads hloads
      rw [o.loads_text hfits] at hloads
      cases hloads
      rw [hown]
      exact ⟨fun _ => ⟨hfits, hraises⟩, fun _ => rfl⟩
  · rw [ht, hb, List.append_assoc] at hloads
    obtain ⟨hfits, rfl, _⟩ := o.eq_of_loads (u := []) (w := q) hp hloads
      (by rw [hb, List.append_nil]; rfl)
    rw [hread]
    exact ⟨fun _ => ⟨hfits, hraises⟩, fun _ => rfl⟩

/-- **What is found**, if the last two candidates are the text of the object or no object's. -/
theorem extractJson_eq (o : Object floats) {text p q : Text}
    (hstrip : strip text = p ++ o.text ++ q) (hp : '{' ∉ p) (hq : '}' ∉ q) :
    extractJson floats text = .ok (some o.members) ↔
      o.Fits ∧ (∀ g, FirstFenced (strip text) g → ¬ Raises floats g ∧
        ∀ members, loads floats g = .ok (.obj members) → members = o.members)
      ∧ (Raises floats (strip text) →
        ∃ g, FirstFenced (strip text) g ∧ loads floats g = .ok (.obj o.members)) := by
  obtain ⟨b, hb⟩ := o.text_eq
  have hwrapped : search wrappedPattern (strip text) = some o.text := by
    rw [hstrip, hb]
    exact search_wrapped hp hq
  have hrest := firstRead_rest o hstrip hp
  rw [extractJson, hwrapped]
  cases hfenced : search fencedPattern (strip text) with
  | none =>
      have hnone : ∀ g, ¬ FirstFenced (strip text) g := by
        intro g hg
        rw [search_fenced_iff.mpr hg] at hfenced
        cases hfenced
      show firstRead floats [strip text, o.text] = _ ↔ _
      rw [hrest]
      constructor
      · rintro ⟨hfits, hraises⟩
        exact ⟨hfits, fun g hg => absurd hg (hnone g), fun h => absurd h hraises⟩
      · rintro ⟨hfits, _, hown⟩
        refine ⟨hfits, fun h => ?_⟩
        obtain ⟨g, hg, _⟩ := hown h
        exact hnone g hg
  | some g =>
      have hg := search_fenced_iff.mp hfenced
      show firstRead floats (g :: [strip text, o.text]) = _ ↔ _
      rw [firstRead]
      rcases read_cases floats g with ⟨hraises, e, hread⟩ | ⟨hraises, hno, hread⟩
        | ⟨hraises, members, hloads, hread⟩
      · rw [hread]
        constructor
        · intro h
          cases h
        · rintro ⟨_, hfence, _⟩
          exact absurd hraises (hfence g hg).1
      · rw [hread]
        dsimp only
        rw [hrest]
        constructor
        · rintro ⟨hfits, hwhole⟩
          refine ⟨hfits, fun g' hg' => ?_, fun h => absurd h hwhole⟩
          rw [hg'.unique hg]
          exact ⟨hraises, fun members h => absurd h (hno members)⟩
        · rintro ⟨hfits, _, hown⟩
          refine ⟨hfits, fun h => ?_⟩
          obtain ⟨g', hg', hloads⟩ := hown h
          rw [hg'.unique hg] at hloads
          exact hno _ hloads
      · rw [hread]
        constructor
        · intro h
          obtain rfl : members = o.members := Option.some.inj (Except.ok.inj h)
          refine ⟨limit_of_loads hloads, fun g' hg' => ?_, fun _ => ⟨g, hg, hloads⟩⟩
          rw [hg'.unique hg]
          refine ⟨hraises, fun members' h' => ?_⟩
          rw [hloads] at h'
          cases h'
          rfl
        · rintro ⟨_, hfence, _⟩
          rw [(hfence g hg).2 members hloads]

namespace Object

theorem trimmed (o : Object floats) : Trimmed o.text := by
  obtain ⟨b, hb⟩ := o.text_eq
  have hlast : o.text.getLast? = some '}' := by
    rw [hb, ← List.cons_append, List.getLast?_concat]
  constructor
  · intro c hc
    rw [hb] at hc
    obtain rfl : '{' = c := by simpa using hc
    decide
  · intro c hc
    rw [hlast] at hc
    obtain rfl : '}' = c := by simpa using hc
    decide

theorem text_ne_nil (o : Object floats) : o.text ≠ [] := by
  obtain ⟨b, hb⟩ := o.text_eq
  rw [hb]
  exact List.cons_ne_nil _ _

end Object

/-- Between prose, what counts is the first fence in the object's own text, and the limits. -/
theorem extractJson_prose (o : Object floats) {before after : Text} (hbefore : Prose before)
    (hafter : Prose after) :
    extractJson floats (before ++ o.text ++ after) = .ok (some o.members) ↔
      o.Fits ∧ o.NoOtherFenced
        ∧ (Raises floats (strip (before ++ o.text ++ after)) → o.OwnFenced) := by
  obtain ⟨p, q, hstrip, hp, hq⟩ := strip_around o.trimmed o.text_ne_nil before after
  have hp := hbefore.suffix hp
  have hq := hafter.start hq
  rw [extractJson_eq o hstrip hp.opens hq.closes, Object.NoOtherFenced, Object.OwnFenced, hstrip]
  simp only [firstFenced_prose hp hq]

/-- White space meets no limit. -/
theorem extractJson_bare (o : Object floats) {before after : Text} (hbefore : Spaces before)
    (hafter : Spaces after) :
    extractJson floats (before ++ o.text ++ after) = .ok (some o.members) ↔
      o.Fits ∧ o.NoOtherFenced := by
  have hstrip : strip (before ++ o.text ++ after) = o.text :=
    strip_eq hbefore hafter o.trimmed
  rw [extractJson_prose o (prose_spaces hbefore) (prose_spaces hafter), hstrip]
  constructor
  · rintro ⟨hfits, hfence, _⟩
    exact ⟨hfits, hfence⟩
  · rintro ⟨hfits, hfence⟩
    exact ⟨hfits, hfence, fun h => absurd h (o.not_raises_text hfits)⟩

theorem trimmed_fence (t : Text) : Trimmed (ticks ++ (t ++ ticks)) := by
  have hlast : (ticks ++ (t ++ ticks)).getLast? = some '\x60' := by
    have hsplit : ticks ++ (t ++ ticks) = ticks ++ t ++ ['\x60', '\x60'] ++ ['\x60'] := by
      simp [ticks]
    rw [hsplit, List.getLast?_concat]
  constructor
  · intro c hc
    obtain rfl : '\x60' = c := by simpa [ticks] using hc
    decide
  · intro c hc
    rw [hlast] at hc
    obtain rfl : '\x60' = c := by simpa using hc
    decide

/-- The first piece in a fence around an object is the start of its text. -/
theorem prefix_of_firstFenced (o : Object floats) {named : Bool} {t p ws ws' q g : Text}
    (ht : t = p ++ o.inFence named ws ws' ++ q) (hp : Prose p) (hws : Spaces ws)
    (hws' : Spaces ws') (hg : FirstFenced t g) : g <+: o.text := by
  obtain ⟨inner, hfenced, hfirst⟩ := hg
  have hown : Fenced t p o.text := by
    refine ⟨o.text_eq, named, ws, ws' ++ (ticks ++ q), hws, ⟨ws', q, hws', rfl⟩, ?_⟩
    rw [ht, Object.inFence]
    simp
  -- no fence starts before this one
  obtain ⟨named', ws₁, rest, _, _, hsplit⟩ := hfenced.split
  rw [ht, List.append_assoc] at hsplit
  obtain ⟨more, rfl, _⟩ := split_left
    (u := ['\x60', '\x60'] ++ (label named' ++ (ws₁ ++ (g ++ rest)))) hp.tick hsplit
  have hshort := hfirst p o.text hown
  rw [List.length_append] at hshort
  obtain rfl : more = [] := List.length_eq_zero_iff.mp (by omega)
  rw [List.append_nil] at hfenced
  exact hfenced.starts hown (by omega)

/-- **A fence is read to its end**: an earlier end leaves no object and meets no limit, but then
    the whole answer is read. -/
theorem extractJson_fence (o : Object floats) (named : Bool) {before ws ws' after : Text}
    (hbefore : Prose before) (hws : Spaces ws) (hws' : Spaces ws') (hafter : Prose after) :
    extractJson floats (before ++ o.inFence named ws ws' ++ after) = .ok (some o.members) ↔
      o.Fits ∧ (Raises floats (strip (before ++ o.inFence named ws ws' ++ after)) →
        FirstFenced (strip (before ++ o.inFence named ws ws' ++ after)) o.text) := by
  have hfence : o.inFence named ws ws'
      = ticks ++ ((label named ++ (ws ++ (o.text ++ ws'))) ++ ticks) := by
    rw [Object.inFence]
    simp
  have htrimmed := trimmed_fence (label named ++ (ws ++ (o.text ++ ws')))
  have hne : o.inFence named ws ws' ≠ [] := List.cons_ne_nil _ _
  rw [← hfence] at htrimmed
  obtain ⟨p, q, hstrip, hp, hq⟩ := strip_around htrimmed hne before after
  have hp := hbefore.suffix hp
  have hq := hafter.start hq
  have hsplit : strip (before ++ o.inFence named ws ws' ++ after)
      = (p ++ (ticks ++ (label named ++ ws))) ++ o.text ++ (ws' ++ ticks ++ q) := by
    rw [hstrip, Object.inFence]
    simp
  have hopens : '{' ∉ p ++ (ticks ++ (label named ++ ws)) := by
    rw [List.mem_append]
    exact not_or.mpr ⟨hp.opens, brace_notMem_opening named hws⟩
  have hcloses : '}' ∉ ws' ++ ticks ++ q := by
    rw [List.mem_append, List.mem_append]
    exact not_or.mpr ⟨not_or.mpr ⟨notMem_spaces (by decide) hws', by decide⟩, hq.closes⟩
  rw [extractJson_eq o hsplit hopens hcloses]
  -- a piece that is read as an object is all of the text
  have hpiece : ∀ g members, FirstFenced (strip (before ++ o.inFence named ws ws' ++ after)) g →
      loads floats g = .ok (.obj members) → members = o.members ∧ g = o.text := by
    intro g members hg hloads
    obtain ⟨u, hu⟩ := prefix_of_firstFenced o hstrip hp hws hws' hg
    obtain ⟨_, ⟨⟨b, rfl⟩, _⟩, _⟩ := hg
    obtain ⟨_, hmembers, hnil⟩ := o.eq_of_loads (p := []) (u := u) (w := []) List.not_mem_nil hloads
      (by rw [hu, List.append_nil])
    rw [List.suffix_nil.mp hnil, List.append_nil] at hu
    exact ⟨hmembers, hu⟩
  constructor
  · rintro ⟨hfits, _, hown⟩
    refine ⟨hfits, fun h => ?_⟩
    obtain ⟨g, hg, hloads⟩ := hown h
    rw [← (hpiece g _ hg hloads).2]
    exact hg
  · rintro ⟨hfits, hown⟩
    refine ⟨hfits, fun g hg => ⟨fun h => ?_, fun members h => (hpiece g members hg h).1⟩,
      fun h => ⟨o.text, hown h, o.loads_text hfits⟩⟩
    obtain ⟨u, hu⟩ := prefix_of_firstFenced o hstrip hp hws hws' hg
    obtain ⟨_, ⟨⟨b, rfl⟩, _⟩, _⟩ := hg
    have hraises := h.append ⟨'{' :: b, rfl⟩ u
    rw [hu] at hraises
    exact o.not_raises_text hfits hraises

theorem mem_of_mem_strip {c : Char} {t : Text} (h : c ∈ strip t) : c ∈ t := by
  rw [strip, List.mem_reverse] at h
  have h' := (List.dropWhile_suffix _).mem h
  rw [List.mem_reverse] at h'
  exact (List.dropWhile_suffix _).mem h'

/-- Without braces there is nothing. -/
theorem extractJson_noBrace {t : Text} (ht : '{' ∉ t) :
    extractJson floats t = .ok none ↔ ¬ Raises floats (strip t) := by
  have hstrip : '{' ∉ strip t := fun hmem => ht (mem_of_mem_strip hmem)
  have hfenced : search fencedPattern (strip t) = none := by
    refine Option.eq_none_iff_forall_ne_some.mpr fun g hg => ?_
    obtain ⟨before, ⟨⟨b, rfl⟩, named, ws, rest, _, _, hsplit⟩, _⟩ := search_fenced_iff.mp hg
    rw [hsplit] at hstrip
    simp at hstrip
  have hwrapped : search wrappedPattern (strip t) = none := by
    refine search_eq_none_iff.mpr fun before rest hsplit => ?_
    refine List.eq_nil_iff_forall_not_mem.mpr fun r hr => ?_
    obtain ⟨_, u, _, rfl, _⟩ := exists_of_braced hr
    rw [hsplit] at hstrip
    simp at hstrip
  rw [extractJson, hfenced, hwrapped]
  show firstRead floats [strip t] = _ ↔ _
  rw [firstRead]
  rcases read_cases floats (strip t) with ⟨hraises, e, hread⟩ | ⟨hraises, _, hread⟩
    | ⟨_, members, hloads, _⟩
  · rw [hread]
    constructor
    · intro h
      cases h
    · intro h
      exact absurd hraises h
  · rw [hread]
    exact ⟨fun _ => hraises, fun _ => rfl⟩
  · obtain ⟨doc, htext, _, hvalue⟩ := (loads_iff floats).mp hloads
    obtain ⟨b, hb⟩ := (isObj_of_value hvalue).text_eq
    rw [htext, Document.text, hb] at hstrip
    simp at hstrip

/-- **WHEN ANSWERS ARE READ BACK**: an object that is not nested too deep, in each wrapping exactly
    if no limit is met before it is read and, outside of a fence, if its own text has no other
    object in its first fence; a text without braces exactly if it meets no limit. -/
theorem readBack_iff (floats : Floats) :
    (∀ (o : Object floats) (before after : Text), Spaces before → Spaces after →
      (extractJson floats (before ++ o.text ++ after) = .ok (some o.members) ↔
        o.Fits ∧ o.NoOtherFenced))
    ∧ (∀ (o : Object floats) (named : Bool) (before ws ws' after : Text),
      Prose before → Spaces ws → Spaces ws' → Prose after →
      (extractJson floats (before ++ o.inFence named ws ws' ++ after) = .ok (some o.members) ↔
        o.Fits ∧ (Raises floats (strip (before ++ o.inFence named ws ws' ++ after)) →
          FirstFenced (strip (before ++ o.inFence named ws ws' ++ after)) o.text)))
    ∧ (∀ (o : Object floats) (before after : Text), Prose before → Prose after →
      (extractJson floats (before ++ o.text ++ after) = .ok (some o.members) ↔
        o.Fits ∧ o.NoOtherFenced
          ∧ (Raises floats (strip (before ++ o.text ++ after)) → o.OwnFenced)))
    ∧ ∀ t : Text, '{' ∉ t → '}' ∉ t →
      (extractJson floats t = .ok none ↔ ¬ Raises floats (strip t)) := by
  refine ⟨?_, ?_, ?_, ?_⟩
  · intro o before after hbefore hafter
    exact extractJson_bare o hbefore hafter
  · intro o named before ws ws' after hbefore hws hws' hafter
    exact extractJson_fence o named hbefore hws hws' hafter
  · intro o before after hbefore hafter
    exact extractJson_prose o hbefore hafter
  · intro t ht _
    exact extractJson_noBrace ht

/-- `{"a": "```{}```"}`. -/
def fenceInside : Object nanFloats where
  members := [(['a'], .str (ticks ++ ['{', '}'] ++ ticks : Text))]
  keyed := ⟨List.nodup_singleton _, trivial, trivial⟩
  written := rfl

/-- **An object whose text has another one in a fence** is not read back: the empty one is. -/
theorem not_readBack_fence : ¬ ReadBack nanFloats fenceInside := by
  intro h
  have hbare := h.bare [] [] (List.forall_mem_nil _) (List.forall_mem_nil _)
  have hempty : extractJson nanFloats ([] ++ fenceInside.text ++ []) = .ok (some []) := by rfl
  rw [hempty] at hbare
  cases hbare

end ModelAnswers
