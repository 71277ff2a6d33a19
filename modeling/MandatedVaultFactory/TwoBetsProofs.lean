import Mathlib.Analysis.InnerProductSpace.Basic
import Mathlib.MeasureTheory.Integral.Bochner.Set
import Mathlib.MeasureTheory.Measure.Real
import Mathlib.Tactic.Linarith
import Mathlib.Tactic.Ring

/-!
# Two bets

A share of an event pays one if it happens.  Who holds a share of each of two events is paid at
least one where one of them happens, and two where both do.

* **`payout`** — what the two shares pay; `one_le_payout_iff`.
* **`real_union_eq`** — the chance of a payment from the first event, and the second where the
  first does not happen.
* **`integral_payout_eq`** — what is paid on average. -/

namespace TwoBets

open MeasureTheory

variable {Ω : Type}

open Classical in
/-- What a share of each event pays. -/
noncomputable def payout (A B : Set Ω) (ω : Ω) : ℝ :=
  (if ω ∈ A then 1 else 0) + if ω ∈ B then 1 else 0

theorem payout_eq_indicator (A B : Set Ω) :
    payout A B = fun ω => A.indicator 1 ω + B.indicator 1 ω := by
  funext ω
  rw [payout, Set.indicator, Set.indicator]
  rfl

theorem one_le_payout_iff {A B : Set Ω} {ω : Ω} : 1 ≤ payout A B ω ↔ ω ∈ A ∪ B := by
  by_cases hA : ω ∈ A <;> by_cases hB : ω ∈ B <;> simp [payout, hA, hB]

variable [MeasurableSpace Ω] (μ : Measure Ω) [IsProbabilityMeasure μ] {A B : Set Ω}

/-- The second event where the first does not happen. -/
theorem real_union_eq (hA : MeasurableSet A) :
    μ.real (A ∪ B) = μ.real A + μ.real (B \ A) := by
  have hsplit := measureReal_union' (μ := μ) (Set.disjoint_sdiff_right (s := A) (t := B)) hA
  rw [Set.union_sdiff_self] at hsplit
  exact hsplit

theorem real_compl_eq (hA : MeasurableSet A) : μ.real Aᶜ = 1 - μ.real A := by
  rw [measureReal_compl hA, probReal_univ]

/-- Where the second event happens in a share `q` of the cases in which the first does not. -/
theorem real_union_of_share (hA : MeasurableSet A) {q : ℝ}
    (hq : μ.real (B \ A) = q * μ.real Aᶜ) :
    μ.real (A ∪ B) = μ.real A + (1 - μ.real A) * q := by
  rw [real_union_eq μ hA, hq, real_compl_eq μ hA, mul_comm]

/-- And nothing is paid in the rest of them. -/
theorem real_compl_union_of_share (hA : MeasurableSet A) (hB : MeasurableSet B) {q : ℝ}
    (hq : μ.real (B \ A) = q * μ.real Aᶜ) :
    μ.real (A ∪ B)ᶜ = (1 - μ.real A) * (1 - q) := by
  rw [real_compl_eq μ (hA.union hB), real_union_of_share μ hA hq]
  ring

/-- **What is paid on average**: the chance of a payment, and that of a second one. -/
theorem integral_payout_eq (hA : MeasurableSet A) (hB : MeasurableSet B) :
    ∫ ω, payout A B ω ∂μ = μ.real (A ∪ B) + μ.real (A ∩ B) := by
  have hintegrable : ∀ {C : Set Ω}, MeasurableSet C →
      Integrable (C.indicator (1 : Ω → ℝ)) μ :=
    fun hC => (integrable_const (1 : ℝ)).indicator hC
  rw [payout_eq_indicator, integral_add (hintegrable hA) (hintegrable hB),
    integral_indicator_one hA, integral_indicator_one hB, measureReal_union_add_inter hB]

end TwoBets
