import Mathlib.Data.List.Infix
import Mathlib.Data.List.Pairwise

/-!
# Patterns that backtrack

A pattern takes something off the start of a text, in one way or in many; the ways come in the
order in which a backtracking engine tries them.

* **`Pattern`** — the ways, each with what it yields and what it leaves; `word`, `optional`,
  `many`, `manyLazy`, `bind`.
* **`head?_bind`** — the first way of one pattern after another.
* **`pairwise_many`**, **`pairwise_manyLazy`** — the greedy star takes the most first, the lazy
  one the least.
* **`search_eq_some_iff`** — the search yields the first way at the first place that has one. -/

namespace Backtrack

variable {α β γ : Type}

/-- The ways of a pattern at the start of a text, in the order of preference. -/
abbrev Pattern (α β : Type) : Type := List α → List (β × List α)

def done (b : β) : Pattern α β := fun t => [(b, t)]

/-- One pattern after another. -/
def bind (p : Pattern α β) (f : β → Pattern α γ) : Pattern α γ := fun t =>
  (p t).flatMap fun r => f r.1 r.2

/-- A word. -/
def word [DecidableEq α] (w : List α) : Pattern α (List α) := fun t =>
  if w <+: t then [(w, t.drop w.length)] else []

/-- `p?`: with it, if it can be. -/
def optional (p : Pattern α (List α)) : Pattern α (List α) := fun t => p t ++ [([], t)]

/-- `[c]*`: as many as there are, then fewer. -/
def many (c : α → Bool) : Pattern α (List α)
  | [] => [([], [])]
  | a :: t =>
      if c a = true then (many c t).map (fun r => (a :: r.1, r.2)) ++ [([], a :: t)]
      else [([], a :: t)]

/-- `[c]*?`: none, then more. -/
def manyLazy (c : α → Bool) : Pattern α (List α)
  | [] => [([], [])]
  | a :: t =>
      ([], a :: t) ::
        if c a = true then (manyLazy c t).map (fun r => (a :: r.1, r.2)) else []

/-- `re.search`: what the first way yields at the first place that has one. -/
def search (p : Pattern α β) : List α → Option β
  | [] => (p []).head?.map Prod.fst
  | a :: t =>
      match (p (a :: t)).head? with
      | some r => some r.1
      | none => search p t

/-! ## The ways -/

theorem mem_bind {p : Pattern α β} {f : β → Pattern α γ} {t : List α} {r : γ × List α} :
    r ∈ bind p f t ↔ ∃ x ∈ p t, r ∈ f x.1 x.2 := List.mem_flatMap

theorem mem_word [DecidableEq α] {w t : List α} {r : List α × List α} :
    r ∈ word w t ↔ r.1 = w ∧ t = w ++ r.2 := by
  rw [word]
  constructor
  · intro h
    split at h
    · rename_i hprefix
      obtain ⟨rest, rfl⟩ := hprefix
      rw [List.mem_singleton] at h
      rw [h, List.drop_left]
      exact ⟨rfl, rfl⟩
    · cases h
  · rintro ⟨hr, rfl⟩
    rw [if_pos (List.prefix_append _ _), List.drop_left, List.mem_singleton, ← hr]

theorem mem_optional {p : Pattern α (List α)} {t : List α} {r : List α × List α} :
    r ∈ optional p t ↔ r ∈ p t ∨ r = ([], t) := by
  rw [optional, List.mem_append, List.mem_singleton]

theorem mem_many {c : α → Bool} {r : List α × List α} {t : List α} :
    r ∈ many c t ↔ t = r.1 ++ r.2 ∧ ∀ a ∈ r.1, c a = true := by
  induction t generalizing r with
  | nil =>
      rw [many, List.mem_singleton]
      constructor
      · rintro rfl
        exact ⟨rfl, List.forall_mem_nil _⟩
      · rintro ⟨hr, _⟩
        obtain ⟨h₁, h₂⟩ := List.append_eq_nil_iff.mp hr.symm
        exact Prod.ext h₁ h₂
  | cons a t ih =>
      rw [many]
      split
      · rename_i ha
        rw [List.mem_append, List.mem_map, List.mem_singleton]
        constructor
        · rintro (⟨s, hs, rfl⟩ | rfl)
          · obtain ⟨ht, hall⟩ := ih.mp hs
            exact ⟨congrArg (a :: ·) ht, List.forall_mem_cons.mpr ⟨ha, hall⟩⟩
          · exact ⟨rfl, List.forall_mem_nil _⟩
        · rintro ⟨hr, hall⟩
          obtain ⟨taken, rest⟩ := r
          cases taken with
          | nil => exact Or.inr (by rw [hr]; rfl)
          | cons b taken =>
              obtain ⟨rfl, ht⟩ := List.cons.inj hr
              exact Or.inl ⟨(taken, rest), ih.mpr ⟨ht, (List.forall_mem_cons.mp hall).2⟩, rfl⟩
      · rename_i ha
        rw [List.mem_singleton]
        constructor
        · rintro rfl
          exact ⟨rfl, List.forall_mem_nil _⟩
        · rintro ⟨hr, hall⟩
          obtain ⟨taken, rest⟩ := r
          cases taken with
          | nil => rw [hr]; rfl
          | cons b taken =>
              obtain ⟨rfl, _⟩ := List.cons.inj hr
              exact absurd (List.forall_mem_cons.mp hall).1 ha

/-- The two stars have the same ways, in opposite orders. -/
theorem manyLazy_eq_reverse (c : α → Bool) (t : List α) : manyLazy c t = (many c t).reverse := by
  induction t with
  | nil => rfl
  | cons a t ih =>
      rw [manyLazy, many]
      by_cases ha : c a = true
      · rw [if_pos ha, if_pos ha, List.reverse_append, ← List.map_reverse, ← ih]
        rfl
      · rw [if_neg ha, if_neg ha]
        rfl

theorem mem_manyLazy {c : α → Bool} {r : List α × List α} {t : List α} :
    r ∈ manyLazy c t ↔ t = r.1 ++ r.2 ∧ ∀ a ∈ r.1, c a = true := by
  rw [manyLazy_eq_reverse, List.mem_reverse, mem_many]

/-! ## The first way -/

/-- **The first way of one pattern after another**: no way of the first pattern before the one
    that is taken leads on. -/
theorem head?_bind {p : Pattern α β} {f : β → Pattern α γ} {t : List α} {r : γ × List α} :
    (bind p f t).head? = some r ↔ ∃ before x after, p t = before ++ x :: after
      ∧ (∀ y ∈ before, f y.1 y.2 = []) ∧ (f x.1 x.2).head? = some r := by
  rw [bind]
  induction p t with
  | nil =>
      constructor
      · intro h
        cases h
      · rintro ⟨before, x, after, h, _⟩
        cases before with
        | nil => cases h
        | cons y before => cases h
  | cons y ways ih =>
      rw [List.flatMap_cons]
      cases hy : f y.1 y.2 with
      | nil =>
          rw [List.nil_append, ih]
          constructor
          · rintro ⟨before, x, after, hways, hnone, hx⟩
            exact ⟨y :: before, x, after, by rw [hways]; rfl,
              List.forall_mem_cons.mpr ⟨hy, hnone⟩, hx⟩
          · rintro ⟨before, x, after, hways, hnone, hx⟩
            cases before with
            | nil =>
                obtain ⟨rfl, _⟩ := List.cons.inj hways
                rw [hy] at hx
                cases hx
            | cons z before =>
                obtain ⟨_, hways⟩ := List.cons.inj hways
                exact ⟨before, x, after, hways, (List.forall_mem_cons.mp hnone).2, hx⟩
      | cons z zs =>
          rw [List.cons_append, List.head?_cons]
          constructor
          · rintro h
            exact ⟨[], y, ways, rfl, List.forall_mem_nil _, by rw [hy]; exact h⟩
          · rintro ⟨before, x, after, hways, hnone, hx⟩
            cases before with
            | nil =>
                obtain ⟨rfl, _⟩ := List.cons.inj hways
                rw [hy] at hx
                exact hx
            | cons w before =>
                obtain ⟨rfl, _⟩ := List.cons.inj hways
                rw [(List.forall_mem_cons.mp hnone).1] at hy
                cases hy

theorem exists_of_head?_bind {p : Pattern α β} {f : β → Pattern α γ} {t : List α}
    {r : γ × List α} (h : (bind p f t).head? = some r) :
    ∃ x ∈ p t, (f x.1 x.2).head? = some r := by
  obtain ⟨before, x, after, hways, _, hx⟩ := head?_bind.mp h
  exact ⟨x, by rw [hways]; exact List.mem_append_right _ (List.mem_cons_self ..), hx⟩

/-- If the ways of the first pattern are in an order, all that lead on come no earlier than the
    one that is taken. -/
theorem head?_bind_first {p : Pattern α β} {f : β → Pattern α γ} {t : List α} {r : γ × List α}
    {R : β × List α → β × List α → Prop} (hR : (p t).Pairwise R)
    (h : (bind p f t).head? = some r) :
    ∃ x ∈ p t, (f x.1 x.2).head? = some r ∧ ∀ y ∈ p t, f y.1 y.2 ≠ [] → y = x ∨ R x y := by
  obtain ⟨before, x, after, hways, hnone, hx⟩ := head?_bind.mp h
  rw [hways] at hR ⊢
  refine ⟨x, List.mem_append_right _ (List.mem_cons_self ..), hx, fun y hy hne => ?_⟩
  rcases List.mem_append.mp hy with hy | hy
  · exact absurd (hnone y hy) hne
  · rcases List.mem_cons.mp hy with rfl | hy
    · exact Or.inl rfl
    · exact Or.inr ((List.pairwise_cons.mp (List.pairwise_append.mp hR).2.1).1 y hy)

/-- The greedy star takes the most first. -/
theorem pairwise_many (c : α → Bool) (t : List α) :
    (many c t).Pairwise fun r s => s.1.length < r.1.length := by
  induction t with
  | nil => exact List.pairwise_singleton _ _
  | cons a t ih =>
      rw [many]
      split
      · refine List.pairwise_append.mpr ⟨List.pairwise_map.mpr ?_, List.pairwise_singleton _ _, ?_⟩
        · exact ih.imp fun h => Nat.succ_lt_succ h
        · intro r hr s hs
          obtain ⟨r', _, rfl⟩ := List.mem_map.mp hr
          rw [List.mem_singleton.mp hs]
          exact Nat.succ_pos _
      · exact List.pairwise_singleton _ _

/-- The lazy star takes the least first. -/
theorem pairwise_manyLazy (c : α → Bool) (t : List α) :
    (manyLazy c t).Pairwise fun r s => r.1.length < s.1.length := by
  rw [manyLazy_eq_reverse, List.pairwise_reverse]
  exact pairwise_many c t

/-! ## The search -/

theorem search_eq_none_iff {p : Pattern α β} {t : List α} :
    search p t = none ↔ ∀ before rest, t = before ++ rest → p rest = [] := by
  induction t with
  | nil =>
      rw [search, Option.map_eq_none_iff, List.head?_eq_none_iff]
      constructor
      · intro h before rest ht
        rw [(List.append_eq_nil_iff.mp ht.symm).2]
        exact h
      · intro h
        exact h [] [] rfl
  | cons a t ih =>
      rw [search]
      cases hhead : (p (a :: t)).head? with
      | some r =>
          constructor
          · intro h
            cases h
          · intro h
            rw [h [] (a :: t) rfl] at hhead
            cases hhead
      | none =>
          show search p t = none ↔ _
          rw [ih]
          constructor
          · intro h before rest ht
            cases before with
            | nil =>
                rw [← (show a :: t = rest from ht)]
                exact List.head?_eq_none_iff.mp hhead
            | cons b before => exact h before rest (List.cons.inj ht).2
          · intro h before rest ht
            exact h (a :: before) rest (by rw [ht]; rfl)

/-- **The search**: the first way at the first place that has one. -/
theorem search_eq_some_iff {p : Pattern α β} {t : List α} {b : β} :
    search p t = some b ↔ ∃ before rest, t = before ++ rest
      ∧ (∃ left, (p rest).head? = some (b, left))
      ∧ ∀ before' rest', t = before' ++ rest' → before'.length < before.length → p rest' = [] := by
  induction t with
  | nil =>
      rw [search, Option.map_eq_some_iff]
      constructor
      · rintro ⟨r, hr, rfl⟩
        exact ⟨[], [], rfl, ⟨r.2, hr⟩, fun _ _ _ h => absurd h (Nat.not_lt_zero _)⟩
      · rintro ⟨before, rest, ht, ⟨left, hr⟩, _⟩
        rw [(List.append_eq_nil_iff.mp ht.symm).2] at hr
        exact ⟨(b, left), hr, rfl⟩
  | cons a t ih =>
      rw [search]
      cases hhead : (p (a :: t)).head? with
      | some r =>
          constructor
          · intro h
            refine ⟨[], a :: t, rfl, ⟨r.2, ?_⟩, fun _ _ _ h => absurd h (Nat.not_lt_zero _)⟩
            rw [hhead, ← Option.some.inj h]
          · rintro ⟨before, rest, ht, ⟨left, hr⟩, hfirst⟩
            cases before with
            | nil =>
                rw [← (show a :: t = rest from ht), hhead] at hr
                rw [Option.some.inj hr]
            | cons c before =>
                rw [hfirst [] (a :: t) rfl (Nat.succ_pos _)] at hhead
                cases hhead
      | none =>
          show search p t = some b ↔ _
          rw [ih]
          constructor
          · rintro ⟨before, rest, ht, hr, hfirst⟩
            refine ⟨a :: before, rest, by rw [ht]; rfl, hr, fun before' rest' ht' hlt => ?_⟩
            cases before' with
            | nil =>
                rw [← (show a :: t = rest' from ht')]
                exact List.head?_eq_none_iff.mp hhead
            | cons c before' =>
                exact hfirst before' rest' (List.cons.inj ht').2 (Nat.lt_of_succ_lt_succ hlt)
          · rintro ⟨before, rest, ht, hr, hfirst⟩
            cases before with
            | nil =>
                obtain ⟨left, hr⟩ := hr
                rw [← (show a :: t = rest from ht), hhead] at hr
                cases hr
            | cons c before =>
                refine ⟨before, rest, (List.cons.inj ht).2, hr, fun before' rest' ht' hlt => ?_⟩
                exact hfirst (a :: before') rest' (by rw [ht']; rfl) (Nat.succ_lt_succ hlt)

end Backtrack
