import MandatedVaultFactory.TextProofs
import Mathlib.Algebra.Order.Field.Rat
import Mathlib.Algebra.BigOperators.Group.List.Basic
import Mathlib.Algebra.BigOperators.Group.Finset.Basic
import Mathlib.Algebra.BigOperators.Group.Finset.Piecewise
import Mathlib.Tactic.Ring

/-!
# The positions that are tracked

`positions.json`: one record for each position, found by its id.  A record with an id that is
there replaces the one that has it.

* **`upsert`** — what becomes of the records; `upsertInto_of_new`, `sum_upsertInto`.
* **`sum_eq_of_groups`** — two lists of records with equal sums in every group have equal sums. -/

namespace Predict

open Texts

/-- `LocalPosition`, with the numbers that its floats are written for; the notional is `none`
    where it is no number. -/
structure LocalPosition where
  positionId : Text
  marketId : Text
  question : Text
  outcomeName : Text
  tokenId : Text
  side : Text
  strategy : Text
  entryTime : Text
  entryPrice : ℚ
  quantity : Text
  notionalUsdt : Option ℚ
  orderHash : Text
  orderStatus : Text
  fillAmount : Option Text
  feeRateBps : Int
  source : Text
  notes : Option Text
  status : Text

/-- `positions.json`. -/
inductive PositionsFile where
  | absent
  | malformed
  | records (positions : List LocalPosition)

/-- `list_positions`: a file that is not there, or that cannot be read, has none. -/
def PositionsFile.listPositions : PositionsFile → List LocalPosition
  | .absent => []
  | .malformed => []
  | .records positions => positions

/-- The loop of `upsert`: the first record with the id is replaced, and without one the new
    record goes to the end. -/
def upsertInto (position : LocalPosition) : List LocalPosition → List LocalPosition
  | [] => [position]
  | existing :: rest =>
      if existing.positionId = position.positionId then position :: rest
      else existing :: upsertInto position rest

/-- `upsert`. -/
def PositionsFile.upsert (file : PositionsFile) (position : LocalPosition) : PositionsFile :=
  .records (upsertInto position file.listPositions)

/-- The ids of the records. -/
def ids (positions : List LocalPosition) : List Text := positions.map LocalPosition.positionId

/-- There is a record with the hash. -/
def Tracked (hash : Text) (file : PositionsFile) : Prop :=
  ∃ position ∈ file.listPositions, position.orderHash = hash

theorem not_tracked_absent (hash : Text) : ¬ Tracked hash .absent := by
  rintro ⟨position, hmem, _⟩
  cases hmem

theorem mem_upsertInto (position : LocalPosition) (positions : List LocalPosition) :
    position ∈ upsertInto position positions := by
  induction positions with
  | nil => exact List.mem_singleton_self _
  | cons existing rest ih =>
      rw [upsertInto]
      by_cases hid : existing.positionId = position.positionId
      · rw [if_pos hid]
        exact List.mem_cons_self ..
      · rw [if_neg hid]
        exact List.mem_cons_of_mem _ ih

/-- A record with a new id is added, and the others stay. -/
theorem upsertInto_of_new {position : LocalPosition} {positions : List LocalPosition}
    (h : position.positionId ∉ ids positions) :
    upsertInto position positions = positions ++ [position] := by
  induction positions with
  | nil => rfl
  | cons existing rest ih =>
      rw [ids, List.map_cons, List.mem_cons, not_or] at h
      rw [upsertInto, if_neg (Ne.symm h.1), ih h.2]
      rfl

/-- **A sum over the records**: what the new record adds, less what it replaces. -/
theorem sum_upsertInto (weight : LocalPosition → ℚ) (position : LocalPosition)
    (positions : List LocalPosition) :
    (position.positionId ∉ ids positions ∧
      ((upsertInto position positions).map weight).sum
        = (positions.map weight).sum + weight position) ∨
    ∃ existing ∈ positions, existing.positionId = position.positionId ∧
      ((upsertInto position positions).map weight).sum
        = (positions.map weight).sum + weight position - weight existing := by
  induction positions with
  | nil => exact Or.inl ⟨List.not_mem_nil, by simp [upsertInto]⟩
  | cons existing rest ih =>
      rw [upsertInto]
      by_cases hid : existing.positionId = position.positionId
      · refine Or.inr ⟨existing, List.mem_cons_self .., hid, ?_⟩
        rw [if_pos hid, List.map_cons, List.map_cons, List.sum_cons, List.sum_cons]
        ring
      · rw [if_neg hid, List.map_cons, List.map_cons, List.sum_cons, List.sum_cons]
        rcases ih with ⟨hnew, hsum⟩ | ⟨old, hold, hsame, hsum⟩
        · refine Or.inl ⟨?_, by rw [hsum]; ring⟩
          rw [ids, List.map_cons, List.mem_cons, not_or]
          exact ⟨Ne.symm hid, hnew⟩
        · exact Or.inr ⟨old, List.mem_cons_of_mem _ hold, hsame, by rw [hsum]; ring⟩

/-! ## Groups -/

/-- The sum of a weight over the members of a group. -/
def groupSum {α κ : Type} [DecidableEq κ] (key : α → κ) (weight : α → ℚ) (l : List α) (k : κ) :
    ℚ :=
  ((l.filter fun a => key a = k).map weight).sum

theorem groupSum_cons {α κ : Type} [DecidableEq κ] (key : α → κ) (weight : α → ℚ) (a : α)
    (l : List α) (k : κ) :
    groupSum key weight (a :: l) k = (if key a = k then weight a else 0) + groupSum key weight l k := by
  by_cases hk : key a = k
  · rw [groupSum, List.filter_cons_of_pos (by simpa using hk), if_pos hk]
    rfl
  · rw [groupSum, List.filter_cons_of_neg (by simpa using hk), if_neg hk, zero_add]
    rfl

/-- The sum of a list is that of its groups. -/
theorem sum_groupSum {α κ : Type} [DecidableEq κ] (key : α → κ) (weight : α → ℚ) (l : List α)
    {keys : Finset κ} (h : ∀ a ∈ l, key a ∈ keys) :
    ∑ k ∈ keys, groupSum key weight l k = (l.map weight).sum := by
  induction l with
  | nil => exact Finset.sum_eq_zero fun _ _ => rfl
  | cons a l ih =>
      have ha := h a (List.mem_cons_self ..)
      rw [Finset.sum_congr rfl fun k _ => groupSum_cons key weight a l k,
        Finset.sum_add_distrib, ih fun b hb => h b (List.mem_cons_of_mem _ hb),
        Finset.sum_ite_eq, if_pos ha, List.map_cons, List.sum_cons]

/-- **Equal in every group, equal in sum.** -/
theorem sum_eq_of_groups {α β κ : Type} [DecidableEq κ] {keyA : α → κ} {keyB : β → κ}
    {weightA : α → ℚ} {weightB : β → ℚ} {as : List α} {bs : List β}
    (h : ∀ k, groupSum keyA weightA as k = groupSum keyB weightB bs k) :
    (as.map weightA).sum = (bs.map weightB).sum := by
  have hkeys : ∀ a ∈ as, keyA a ∈ (as.map keyA ++ bs.map keyB).toFinset := fun a ha =>
    List.mem_toFinset.mpr (List.mem_append_left _ (List.mem_map_of_mem ha))
  have hkeys' : ∀ b ∈ bs, keyB b ∈ (as.map keyA ++ bs.map keyB).toFinset := fun b hb =>
    List.mem_toFinset.mpr (List.mem_append_right _ (List.mem_map_of_mem hb))
  rw [← sum_groupSum keyA weightA as hkeys, ← sum_groupSum keyB weightB bs hkeys']
  exact Finset.sum_congr rfl fun k _ => h k

end Predict
