import Mathlib.Order.BoundedOrder.Lattice
import Mathlib.Data.List.Induction

/-!
# Observers

An observer starts with nothing and joins what each entry of a log tells.  What it knows in the end
does not depend on the order in which the entries come, nor on how often.

* **`known`** — what an observer knows after a list of entries; `known_le_iff`: it is the
  least that all of them tell.
* **`known_congr`** — the same entries lead to the same knowledge; `known_answers` is about
  questions that a single entry answers.
* **`view_foldl`** — a system each of whose steps joins something to what is seen of it: a run
  joins what its steps do. -/

namespace Observers

section Known

variable {κ ε : Type} [SemilatticeSup κ] [OrderBot κ] {tells : ε → κ} {entries entries' : List ε}

/-- What is known after these entries. -/
def known (tells : ε → κ) (entries : List ε) : κ := entries.foldl (fun k e => k ⊔ tells e) ⊥

@[simp] theorem known_nil : known tells [] = ⊥ := rfl

@[simp] theorem known_snoc (e : ε) :
    known tells (entries ++ [e]) = known tells entries ⊔ tells e := by
  rw [known, List.foldl_append]
  rfl

/-- **What is known is the least that all entries tell.**  Induction on the entries from their
    end. -/
theorem known_le_iff {k : κ} : known tells entries ≤ k ↔ ∀ e ∈ entries, tells e ≤ k := by
  induction entries using List.reverseRecOn with
  | nil => simp
  | append_singleton entries e ih =>
      rw [known_snoc, sup_le_iff, ih]
      constructor
      · rintro ⟨hall, he⟩ e' he'
        rcases List.mem_append.mp he' with he' | he'
        · exact hall e' he'
        · rw [List.mem_singleton.mp he']
          exact he
      · intro hall
        exact ⟨fun e' he' => hall e' (List.mem_append_left _ he'),
          hall e (List.mem_append_right _ (List.mem_singleton_self e))⟩

theorem tells_le_known {e : ε} (he : e ∈ entries) : tells e ≤ known tells entries :=
  known_le_iff.mp le_rfl e he

theorem known_mono (h : ∀ e ∈ entries, e ∈ entries') :
    known tells entries ≤ known tells entries' :=
  known_le_iff.mpr fun e he => tells_le_known (h e he)

/-- **The same entries, the same knowledge**, in whatever order and however often. -/
theorem known_congr (h : ∀ e, e ∈ entries ↔ e ∈ entries') :
    known tells entries = known tells entries' :=
  le_antisymm (known_mono fun e => (h e).mp) (known_mono fun e => (h e).mpr)

/-- A question that a join answers only where one of its sides does: it is answered by one of the
    entries. -/
theorem known_answers {p : κ → Prop} (hbot : ¬ p ⊥) (hsup : ∀ k k', p (k ⊔ k') ↔ p k ∨ p k') :
    p (known tells entries) ↔ ∃ e ∈ entries, p (tells e) := by
  induction entries using List.reverseRecOn with
  | nil => simpa using hbot
  | append_singleton entries e ih =>
      rw [known_snoc, hsup, ih]
      constructor
      · rintro (⟨e', he', hp⟩ | hp)
        · exact ⟨e', List.mem_append_left _ he', hp⟩
        · exact ⟨e, List.mem_append_right _ (List.mem_singleton_self e), hp⟩
      · rintro ⟨e', he', hp⟩
        rcases List.mem_append.mp he' with he' | he'
        · exact Or.inl ⟨e', he', hp⟩
        · rw [List.mem_singleton.mp he'] at hp
          exact Or.inr hp

/-- **Steps that join.**  `I` holds along the run, and there a step joins what it does. -/
theorem view_foldl {σ : Type} {step : σ → ε → σ} {view : σ → κ} {I : σ → Prop}
    (hI : ∀ s e, I s → I (step s e)) (hview : ∀ s e, I s → view (step s e) = view s ⊔ tells e)
    {s : σ} (hs : I s) : view (entries.foldl step s) = view s ⊔ known tells entries := by
  have hinv : ∀ l : List ε, I (l.foldl step s) := by
    intro l
    induction l using List.reverseRecOn with
    | nil => exact hs
    | append_singleton l e ih =>
        rw [List.foldl_append]
        exact hI _ e ih
  induction entries using List.reverseRecOn with
  | nil => simp
  | append_singleton entries e ih =>
      rw [List.foldl_append, known_snoc, ← sup_assoc, ← ih]
      exact hview _ e (hinv entries)

end Known

end Observers
