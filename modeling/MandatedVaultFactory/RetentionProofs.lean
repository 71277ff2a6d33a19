import Mathlib.Algebra.Order.Ring.Defs
import Mathlib.Algebra.BigOperators.Group.List.Basic
import Mathlib.Tactic.Ring

/-!
# What is kept of what was put in

A quantity is visited again and again.  A visit keeps a known fraction of what it finds, at least;
between the visits the quantity rises and falls as it likes.

* **`cameIn`**, **`wentOut`** — how much it rose and fell between the visits.
* **`kept_le`** — the product of the fractions, of all that was there and came in, is still there or
  went out between the visits. -/

namespace Retention

variable {K : Type} [CommRing K] [LinearOrder K] [IsStrictOrderedRing K]

/-- The fraction that a visit keeps, what it finds and what it leaves. -/
structure Visit (K : Type) where
  keeps : K
  before : K
  after : K

/-- The visit keeps its fraction. -/
structure Visit.Kept (v : Visit K) : Prop where
  nonneg : 0 ≤ v.keeps
  le_one : v.keeps ≤ 1
  kept : v.before * v.keeps ≤ v.after

/-- What comes in between the visits. -/
def cameIn (start : K) : List (Visit K) → K → K
  | [], finish => max (finish - start) 0
  | v :: rest, finish => max (v.before - start) 0 + cameIn v.after rest finish

/-- What goes out between the visits. -/
def wentOut (start : K) : List (Visit K) → K → K
  | [], finish => max (start - finish) 0
  | v :: rest, finish => max (start - v.before) 0 + wentOut v.after rest finish

/-- What is there and what comes in are what is there next and what goes out. -/
theorem add_came_in (start next : K) :
    start + max (next - start) 0 = next + max (start - next) 0 := by
  rcases le_total start next with h | h
  · rw [max_eq_left (sub_nonneg.mpr h), max_eq_right (sub_nonpos.mpr h), add_sub_cancel, add_zero]
  · rw [max_eq_right (sub_nonpos.mpr h), max_eq_left (sub_nonneg.mpr h), add_sub_cancel, add_zero]

theorem cameIn_nonneg : ∀ (visits : List (Visit K)) (start finish : K),
    0 ≤ cameIn start visits finish
  | [], _, _ => le_max_right _ _
  | _ :: rest, _, _ => add_nonneg (le_max_right _ _) (cameIn_nonneg rest _ _)

/-- What visits keep together is a fraction, too. -/
theorem prod_keeps {visits : List (Visit K)} (h : ∀ v ∈ visits, v.Kept) :
    0 ≤ (visits.map Visit.keeps).prod ∧ (visits.map Visit.keeps).prod ≤ 1 := by
  induction visits with
  | nil => exact ⟨zero_le_one, le_refl _⟩
  | cons v rest ih =>
      have hv := h v (.head _)
      obtain ⟨hnonneg, hle⟩ := ih fun x hx => h x (.tail _ hx)
      rw [List.map_cons, List.prod_cons]
      exact ⟨mul_nonneg hv.nonneg hnonneg, mul_le_one₀ hv.le_one hnonneg hle⟩

/-- **What is kept.**  Induction on the visits. -/
theorem kept_le {visits : List (Visit K)} (h : ∀ v ∈ visits, v.Kept) : ∀ start finish : K,
    (start + cameIn start visits finish) * (visits.map Visit.keeps).prod
      ≤ finish + wentOut start visits finish := by
  induction visits with
  | nil =>
      intro start finish
      rw [List.map_nil, List.prod_nil, mul_one]
      exact le_of_eq (add_came_in start finish)
  | cons v rest ih =>
      intro start finish
      have hv := h v (.head _)
      have hrest := ih (fun x hx => h x (.tail _ hx)) v.after finish
      obtain ⟨hprod, hprod_le⟩ := prod_keeps fun x hx => h x (.tail _ hx)
      have hout : 0 ≤ max (start - v.before) 0 := le_max_right _ _
      have hin := cameIn_nonneg rest v.after finish
      rw [List.map_cons, List.prod_cons]
      calc (start + (max (v.before - start) 0 + cameIn v.after rest finish))
            * (v.keeps * (rest.map Visit.keeps).prod)
          = (v.before * v.keeps + cameIn v.after rest finish * v.keeps
              + max (start - v.before) 0 * v.keeps) * (rest.map Visit.keeps).prod := by
            rw [← add_assoc, add_came_in]
            ring
        _ ≤ (v.after + cameIn v.after rest finish + max (start - v.before) 0)
              * (rest.map Visit.keeps).prod := by
            refine mul_le_mul_of_nonneg_right ?_ hprod
            exact add_le_add (add_le_add hv.kept (mul_le_of_le_one_right hin hv.le_one))
              (mul_le_of_le_one_right hout hv.le_one)
        _ = (v.after + cameIn v.after rest finish) * (rest.map Visit.keeps).prod
              + max (start - v.before) 0 * (rest.map Visit.keeps).prod := by rw [add_mul]
        _ ≤ (finish + wentOut v.after rest finish) + max (start - v.before) 0 :=
            add_le_add hrest (mul_le_of_le_one_right hout hprod_le)
        _ = finish + (max (start - v.before) 0 + wentOut v.after rest finish) := by ring

end Retention
