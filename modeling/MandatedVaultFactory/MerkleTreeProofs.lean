import Mathlib.Data.List.Basic
import Mathlib.Data.Set.Function

/-!
# Sorted-pair Merkle trees

Trees of any shape in which a node hashes its two children in sorted order, and proofs
that name one sibling after the other without saying on which side it stands.  Nothing
separates the strings hashed for leaves from those hashed for nodes.

* **`Hashing`** — how leaves and pairs of digests become strings, and their hash.
* **`climb`** — what a proof makes of a digest.
* **`siblings`** — the proofs that are read off a tree; `climb_siblings`, they lead to its root.
* **`climb_eq_root`** — if a proof leads from a leaf to the root of a tree, and the strings
  hashed on either side do not collide, the leaf is `Explained`: it is one of the tree's,
  or the string of some leaf is that of a pair of digests. -/

namespace MerkleTree

variable {α β δ : Type}

/-- A hash of strings, and the strings of leaves and of pairs of digests. -/
structure Hashing (α β δ : Type) where
  hash : β → δ
  leaf : α → β
  pair : δ → δ → β
  pair_inj : ∀ {a b c d}, pair a b = pair c d → a = c ∧ b = d

/-- Binary trees with values at the leaves. -/
inductive HashTree (α : Type) where
  | leaf (x : α)
  | node (l r : HashTree α)

/-- The values at the leaves. -/
def HashTree.leaves : HashTree α → List α
  | .leaf x => [x]
  | .node l r => l.leaves ++ r.leaves

/-- The number of nodes above the deepest leaf. -/
def HashTree.depth : HashTree α → ℕ
  | .leaf _ => 0
  | .node l r => max l.depth r.depth + 1

namespace Hashing

variable [LT δ] [DecidableLT δ] (H : Hashing α β δ)

/-- The string of two digests, the smaller one first. -/
def sorted (a b : δ) : β := if a < b then H.pair a b else H.pair b a

theorem sorted_eq_pair {a b c d : δ} (h : H.sorted a b = H.pair c d) :
    (a = c ∧ b = d) ∨ (a = d ∧ b = c) := by
  rw [sorted] at h
  by_cases hlt : a < b
  · rw [if_pos hlt] at h
    exact Or.inl (H.pair_inj h)
  · rw [if_neg hlt] at h
    obtain ⟨hb, ha⟩ := H.pair_inj h
    exact Or.inr ⟨ha, hb⟩

/-- A sorted pair determines its digests, up to their order. -/
theorem sorted_inj {a b c d : δ} (h : H.sorted a b = H.sorted c d) :
    (a = c ∧ b = d) ∨ (a = d ∧ b = c) := by
  by_cases hlt : c < d
  · exact H.sorted_eq_pair (h.trans (if_pos hlt))
  · exact (H.sorted_eq_pair (h.trans (if_neg hlt))).symm

/-- The root of a tree. -/
def root : HashTree α → δ
  | .leaf x => H.hash (H.leaf x)
  | .node l r => H.hash (H.sorted (root l) (root r))

/-- The strings hashed for a tree. -/
def treeInputs : HashTree α → List β
  | .leaf x => [H.leaf x]
  | .node l r => H.sorted (H.root l) (H.root r) :: (treeInputs l ++ treeInputs r)

/-- What a proof makes of a digest: hash it with one sibling after the other. -/
def climb (proof : List δ) (x : δ) : δ := proof.foldl (fun a p => H.hash (H.sorted a p)) x

/-- The strings hashed on the way. -/
def climbInputs : List δ → δ → List β
  | [], _ => []
  | p :: proof, x => H.sorted x p :: climbInputs proof (H.hash (H.sorted x p))

theorem climb_concat (proof : List δ) (p x : δ) :
    H.climb (proof ++ [p]) x = H.hash (H.sorted (H.climb proof x) p) := by
  rw [climb, List.foldl_append]
  rfl

/-- Induction on the proof from its lower end. -/
theorem climbInputs_concat (proof : List δ) (p : δ) :
    ∀ x, H.climbInputs (proof ++ [p]) x
      = H.climbInputs proof x ++ [H.sorted (H.climb proof x) p] := by
  induction proof with
  | nil => intro x; rfl
  | cons q proof ih =>
      intro x
      show H.sorted x q :: H.climbInputs (proof ++ [p]) _ = _
      rw [ih]
      rfl

/-- The root is the hash of one of the strings hashed for the tree. -/
theorem exists_root_eq (t : HashTree α) : ∃ s ∈ H.treeInputs t, H.root t = H.hash s := by
  cases t with
  | leaf x => exact ⟨_, List.mem_singleton_self _, rfl⟩
  | node l r => exact ⟨_, List.mem_cons_self .., rfl⟩

/-- A digest reached from a hash is the hash of a string on the way. -/
theorem exists_climb_eq (proof : List δ) (s : β) :
    ∃ s' ∈ s :: H.climbInputs proof (H.hash s), H.climb proof (H.hash s) = H.hash s' := by
  rcases List.eq_nil_or_concat' proof with rfl | ⟨init, p, rfl⟩
  · exact ⟨s, List.mem_cons_self .., rfl⟩
  · refine ⟨H.sorted (H.climb init (H.hash s)) p, ?_, H.climb_concat init p _⟩
    rw [climbInputs_concat]
    exact List.mem_cons_of_mem _ (List.mem_append_right _ (List.mem_singleton_self _))

/-- Why the leaf `x` may be accepted for the tree `t`, `inputs` being the strings hashed
    along the proof: it is one of the leaves, or a leaf is no more than a pair of digests,
    `x` itself or one of the tree's. -/
def Explained (t : HashTree α) (inputs : List β) (x : α) : Prop :=
  (∃ y ∈ t.leaves, H.leaf y = H.leaf x)
    ∨ (∃ s ∈ H.treeInputs t, ∃ s' ∈ H.treeInputs t,
      H.leaf x = H.sorted (H.hash s) (H.hash s'))
    ∨ ∃ y ∈ t.leaves, ∃ s ∈ inputs, ∃ p, H.leaf y = H.sorted (H.hash s) p

theorem Explained.mono {H : Hashing α β δ} {t t' : HashTree α} {inputs inputs' : List β} {x : α}
    (hleaves : t.leaves ⊆ t'.leaves) (htree : H.treeInputs t ⊆ H.treeInputs t')
    (hinputs : inputs ⊆ inputs') (h : H.Explained t inputs x) : H.Explained t' inputs' x := by
  rcases h with ⟨y, hy, h⟩ | ⟨s, hs, s', hs', h⟩ | ⟨y, hy, s, hs, h⟩
  · exact Or.inl ⟨y, hleaves hy, h⟩
  · exact Or.inr (Or.inl ⟨s, htree hs, s', htree hs', h⟩)
  · exact Or.inr (Or.inr ⟨y, hleaves hy, s, hinputs hs, h⟩)

/-- **Where a proof can lead.**  Induction on the tree; the last sibling of the proof stands
    next to the root. -/
theorem climb_eq_root {D : Set β} (hD : Set.InjOn H.hash D) (x : α) :
    ∀ (t : HashTree α) (proof : List δ), (∀ s ∈ H.treeInputs t, s ∈ D) →
      (∀ s ∈ H.leaf x :: H.climbInputs proof (H.hash (H.leaf x)), s ∈ D) →
      H.climb proof (H.hash (H.leaf x)) = H.root t →
      H.Explained t (H.leaf x :: H.climbInputs proof (H.hash (H.leaf x))) x := by
  intro t
  induction t with
  | leaf a =>
      intro proof ht hp h
      rcases List.eq_nil_or_concat' proof with rfl | ⟨init, p, rfl⟩
      · have heq : H.leaf x = H.leaf a :=
          hD (hp _ (List.mem_cons_self ..)) (ht _ (List.mem_singleton_self _)) h
        exact Or.inl ⟨a, List.mem_singleton_self _, heq.symm⟩
      · -- the proof climbs past a leaf of the tree
        rw [climb_concat] at h
        rw [climbInputs_concat] at hp ⊢
        have heq : H.leaf a = H.sorted (H.climb init (H.hash (H.leaf x))) p :=
          hD (ht _ (List.mem_singleton_self _)) (hp _ (by simp)) h.symm
        obtain ⟨s, hs, hclimb⟩ := H.exists_climb_eq init (H.leaf x)
        rw [hclimb] at heq
        refine Or.inr (Or.inr ⟨a, List.mem_singleton_self _, s, ?_, p, heq⟩)
        rw [← List.cons_append]
        exact List.mem_append_left _ hs
  | node l r ihl ihr =>
      intro proof ht hp h
      rcases List.eq_nil_or_concat' proof with rfl | ⟨init, p, rfl⟩
      · -- the leaf is a node of the tree
        have heq : H.leaf x = H.sorted (H.root l) (H.root r) :=
          hD (hp _ (List.mem_cons_self ..)) (ht _ (List.mem_cons_self ..)) h
        obtain ⟨s, hs, hl⟩ := H.exists_root_eq l
        obtain ⟨s', hs', hr⟩ := H.exists_root_eq r
        rw [hl, hr] at heq
        exact Or.inr (Or.inl ⟨s, List.mem_cons_of_mem _ (List.mem_append_left _ hs), s',
          List.mem_cons_of_mem _ (List.mem_append_right _ hs'), heq⟩)
      · rw [climb_concat] at h
        rw [climbInputs_concat, ← List.cons_append] at hp ⊢
        have heq : H.sorted (H.climb init (H.hash (H.leaf x))) p
            = H.sorted (H.root l) (H.root r) :=
          hD (hp _ (List.mem_append_right _ (List.mem_singleton_self _)))
            (ht _ (List.mem_cons_self ..)) h
        have hinit := fun s hs => hp s (List.mem_append_left _ hs)
        have hleft : H.treeInputs l ⊆ H.treeInputs (.node l r) :=
          fun s hs => List.mem_cons_of_mem _ (List.mem_append_left _ hs)
        have hright : H.treeInputs r ⊆ H.treeInputs (.node l r) :=
          fun s hs => List.mem_cons_of_mem _ (List.mem_append_right _ hs)
        -- the proof goes on from the child it has met
        rcases H.sorted_inj heq with ⟨hl, _⟩ | ⟨hr, _⟩
        · exact (ihl init (fun s hs => ht s (hleft hs)) hinit hl).mono
            (List.subset_append_left ..) hleft (List.subset_append_left ..)
        · exact (ihr init (fun s hs => ht s (hright hs)) hinit hr).mono
            (List.subset_append_right ..) hright (List.subset_append_left ..)

/-! ## Proofs read off a tree -/

/-- Each leaf with the roots of the trees next to it, from the leaf upwards. -/
def siblings : HashTree α → List (α × List δ)
  | .leaf x => [(x, [])]
  | .node l r =>
      (siblings l).map (fun path => (path.1, path.2 ++ [H.root r]))
        ++ (siblings r).map (fun path => (path.1, path.2 ++ [H.root l]))

/-- Every leaf has its siblings. -/
theorem exists_siblings {t : HashTree α} {x : α} (h : x ∈ t.leaves) :
    ∃ proof, (x, proof) ∈ H.siblings t := by
  induction t with
  | leaf y =>
      obtain rfl := List.mem_singleton.mp h
      exact ⟨[], List.mem_singleton_self _⟩
  | node l r ihl ihr =>
      rcases List.mem_append.mp h with hl | hr
      · obtain ⟨proof, hproof⟩ := ihl hl
        exact ⟨_, List.mem_append_left _ (List.mem_map_of_mem hproof)⟩
      · obtain ⟨proof, hproof⟩ := ihr hr
        exact ⟨_, List.mem_append_right _ (List.mem_map_of_mem hproof)⟩

/-- No leaf has more siblings than the tree is deep. -/
theorem length_siblings_le {t : HashTree α} : ∀ {x : α} {proof : List δ},
    (x, proof) ∈ H.siblings t → proof.length ≤ t.depth := by
  induction t with
  | leaf y =>
      intro x proof h
      cases List.mem_singleton.mp h
      exact Nat.zero_le _
  | node l r ihl ihr =>
      intro x proof h
      rcases List.mem_append.mp h with hl | hr
      · obtain ⟨⟨y, init⟩, hinit, heq⟩ := List.mem_map.mp hl
        cases heq
        rw [List.length_append, List.length_singleton]
        exact Nat.succ_le_succ ((ihl hinit).trans (Nat.le_max_left ..))
      · obtain ⟨⟨y, init⟩, hinit, heq⟩ := List.mem_map.mp hr
        cases heq
        rw [List.length_append, List.length_singleton]
        exact Nat.succ_le_succ ((ihr hinit).trans (Nat.le_max_right ..))

/-- In a total order a pair is sorted in one way. -/
theorem sorted_comm (hasymm : ∀ a b : δ, a < b → ¬ b < a)
    (htotal : ∀ a b : δ, ¬ a < b → ¬ b < a → a = b) (a b : δ) : H.sorted a b = H.sorted b a := by
  rw [sorted, sorted]
  by_cases hlt : a < b
  · rw [if_pos hlt, if_neg (hasymm a b hlt)]
  · rw [if_neg hlt]
    by_cases hgt : b < a
    · rw [if_pos hgt]
    · rw [if_neg hgt, htotal a b hlt hgt]

/-- **The siblings of a leaf lead from it to the root**, on whichever side they stand.  Induction
    on the tree. -/
theorem climb_siblings (hasymm : ∀ a b : δ, a < b → ¬ b < a)
    (htotal : ∀ a b : δ, ¬ a < b → ¬ b < a → a = b) {t : HashTree α} : ∀ {x : α} {proof : List δ},
    (x, proof) ∈ H.siblings t → H.climb proof (H.hash (H.leaf x)) = H.root t := by
  induction t with
  | leaf y =>
      intro x proof h
      cases List.mem_singleton.mp h
      rfl
  | node l r ihl ihr =>
      intro x proof h
      rcases List.mem_append.mp h with hl | hr
      · obtain ⟨⟨y, init⟩, hinit, heq⟩ := List.mem_map.mp hl
        cases heq
        rw [climb_concat, ihl hinit]
        rfl
      · obtain ⟨⟨y, init⟩, hinit, heq⟩ := List.mem_map.mp hr
        cases heq
        rw [climb_concat, ihr hinit, sorted_comm H hasymm htotal]
        rfl

end Hashing

end MerkleTree
