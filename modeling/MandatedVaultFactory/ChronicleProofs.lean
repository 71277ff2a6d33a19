import Mathlib.Data.List.Induction

/-!
# Chronicles: lists written entry by entry

A log in which each entry had to be admissible after the entries before it.

* **`Chronicle ok l`** — every entry `e` of `l`, with `before` in front of it, satisfies
  `ok before e`.  It is closed under prefixes (`Chronicle.left`), and grows at the end by
  an admissible entry (`Chronicle.snoc`).
* **`countP_le_one`** — where no two entries have a property, at most one has it. -/

namespace Chronicles

variable {α : Type}

/-- Every entry was admissible after the entries before it. -/
def Chronicle (ok : List α → α → Prop) (l : List α) : Prop :=
  ∀ before e after, l = before ++ e :: after → ok before e

namespace Chronicle

variable {ok : List α → α → Prop} {l l' : List α} {e : α}

theorem nil : Chronicle ok ([] : List α) := by
  intro before e after h
  simp at h

/-- What came first is a chronicle of its own. -/
theorem left (h : Chronicle ok (l ++ l')) : Chronicle ok l := by
  intro before e after heq
  refine h before e (after ++ l') ?_
  rw [heq, List.append_assoc, List.cons_append]

/-- The last entry was admissible. -/
theorem last (h : Chronicle ok (l ++ [e])) : ok l e := h l e [] rfl

/-- One more admissible entry. -/
theorem snoc (h : Chronicle ok l) (he : ok l e) : Chronicle ok (l ++ [e]) := by
  intro before e' after heq
  rcases List.eq_nil_or_concat after with rfl | ⟨init, x, rfl⟩
  · obtain ⟨rfl, rfl⟩ : l = before ∧ e = e' := by simpa using List.append_inj' heq rfl
    exact he
  · have hsplit : l ++ [e] = (before ++ e' :: init) ++ [x] := by simpa using heq
    exact h before e' init (List.append_inj' hsplit rfl).1

end Chronicle

/-- If no two entries of a list satisfy `p`, at most one does. -/
theorem countP_le_one {p : α → Bool} {l : List α}
    (h : l.Pairwise fun x y => ¬ (p x = true ∧ p y = true)) : l.countP p ≤ 1 := by
  induction l with
  | nil => exact Nat.zero_le _
  | cons x l ih =>
      obtain ⟨hx, hl⟩ := List.pairwise_cons.mp h
      by_cases hp : p x = true
      · have hnone : l.countP p = 0 := by
          rw [List.countP_eq_zero]
          exact fun y hy hy' => hx y hy ⟨hp, hy'⟩
        have hone : (x :: l).countP p = 1 := by rw [List.countP_cons_of_pos hp, hnone]
        exact Nat.le_of_eq hone
      · rw [List.countP_cons_of_neg hp]
        exact ih hl

end Chronicles
