import MandatedVaultFactory.MerkleTreeProofs
import MandatedVaultFactory.VaultCloneProofs
import Mathlib.Data.List.Dedup

/-!
# The adapter allowlist

What `AdapterLib.validateAdapters` accepts against the root of a tree over pairs of an
adapter and its code hash.

* **`allowlist_sound`** — only members of the tree, if no member's code is exactly 64 bytes
  long.
* **`not_allowlist_sound`** — without that condition a stranger can pass: a member whose
  code is the string of the stranger's leaf. -/

namespace Vault

open Encoding Keccak MerkleTree

/-- The hashing of the allowlist: leaves and pairs are both two words. -/
def adapterHashing : Hashing (Address × Bytes32) Bytes Bytes32 where
  hash := keccak256
  leaf x := AdapterLib.adapterLeaf x.1 x.2
  pair a b := word a ++ word b
  pair_inj := word_append_inj

theorem commutativeKeccak256_eq (a b : Bytes32) :
    commutativeKeccak256 a b = adapterHashing.hash (adapterHashing.sorted a b) := by
  rw [commutativeKeccak256, Hashing.sorted]
  by_cases hlt : a < b
  · rw [if_pos hlt, if_pos hlt]
    rfl
  · rw [if_neg hlt, if_neg hlt]
    rfl

/-- `MerkleProof.processProof` climbs.  Induction on the proof. -/
theorem processProof_eq (proof : List Bytes32) :
    ∀ leaf, processProof proof leaf = adapterHashing.climb proof leaf := by
  induction proof with
  | nil => intro leaf; rfl
  | cons p proof ih =>
      intro leaf
      show processProof proof (commutativeKeccak256 leaf p) = _
      rw [ih, commutativeKeccak256_eq]
      rfl

/-- A digest that does not start with twelve zero bytes. -/
def NotAddress (d : Bytes32) : Prop := 2 ^ 160 ≤ d.toNat

instance (d : Bytes32) : Decidable (NotAddress d) :=
  inferInstanceAs (Decidable (2 ^ 160 ≤ d.toNat))

/-- The strings hashed when actions are checked against a tree: those of the tree, the code
    of its members, the leaves of the actions, and those along their proofs. -/
def hashedStrings (env : Env) (tree : HashTree (Address × Bytes32)) (actions : List Action)
    (adapterProofs : List (List Bytes32)) : List Bytes :=
  adapterHashing.treeInputs tree ++ tree.leaves.map (fun x => env.code x.1)
    ++ (List.zipWith (fun action proof =>
        let leaf := AdapterLib.adapterLeaf action.adapter (env.codehash action.adapter)
        leaf :: adapterHashing.climbInputs proof (keccak256 leaf))
      actions adapterProofs).flatten

/-! ## Leaves and pairs of digests -/

/-- An address fills its word from the right. -/
theorem ne_setWidth_of_notAddress {d : Bytes32} (hd : NotAddress d) (a : Address) :
    d ≠ a.setWidth 256 := by
  rintro rfl
  rw [NotAddress, BitVec.toNat_setWidth] at hd
  have := a.isLt
  have := Nat.mod_le a.toNat (2 ^ 256)
  omega

/-- A leaf that is a pair with a digest in it has the digest as its code hash. -/
theorem codehash_of_leaf_eq_sorted {x : Address × Bytes32} {d p : Bytes32} (hd : NotAddress d)
    (h : adapterHashing.leaf x = adapterHashing.sorted d p) : d = x.2 := by
  have hpair : adapterHashing.sorted d p = adapterHashing.pair (x.1.setWidth 256) x.2 := h.symm
  rcases adapterHashing.sorted_eq_pair hpair with ⟨hleft, _⟩ | ⟨hright, _⟩
  · exact absurd hleft (ne_setWidth_of_notAddress hd x.1)
  · exact hright

theorem length_sorted (a b : Bytes32) : (adapterHashing.sorted a b).length = 64 := by
  rw [Hashing.sorted]
  by_cases hlt : a < b
  · rw [if_pos hlt]
    simp [adapterHashing]
  · rw [if_neg hlt]
    simp [adapterHashing]

theorem length_adapterLeaf (x : Address × Bytes32) : (adapterHashing.leaf x).length = 64 := by
  show (AdapterLib.adapterLeaf x.1 x.2).length = 64
  simp [AdapterLib.adapterLeaf]

/-- Every string hashed on the way up is two words long. -/
theorem length_of_mem_climbInputs : ∀ (proof : List Bytes32) (d : Bytes32),
    ∀ s ∈ adapterHashing.climbInputs proof d, s.length = 64 := by
  intro proof
  induction proof with
  | nil => intro d s hs; exact nomatch hs
  | cons p proof ih =>
      intro d s hs
      rcases List.mem_cons.mp hs with rfl | hs
      · exact length_sorted d p
      · exact ih _ s hs

theorem leaf_injective : Function.Injective adapterHashing.leaf := by
  rintro ⟨a, c⟩ ⟨a', c'⟩ h
  obtain ⟨haddr, rfl⟩ := word_append_inj h
  exact Prod.ext (setWidth_inj (by omega) haddr) rfl

/-! ## Soundness -/

/-- One accepted action.  A proof that leads elsewhere than to a member's leaf would make
    the code hash of a member the digest of a 64-byte string. -/
theorem mem_of_checked {env : Env} {tree : HashTree (Address × Bytes32)} {action : Action}
    {proof : List Bytes32} {depth : Nat} {D : Set Bytes}
    (hmembers : ∀ x ∈ tree.leaves, NotAddress x.2 →
      ∃ code ∈ D, x.2 = keccak256 code ∧ code.length ≠ 64)
    (hfree : CollisionFree keccak256 D) (hdigest : ∀ s ∈ D, NotAddress (keccak256 s))
    (htree : ∀ s ∈ adapterHashing.treeInputs tree, s ∈ D)
    (hclimb : ∀ s ∈ AdapterLib.adapterLeaf action.adapter (env.codehash action.adapter)
      :: adapterHashing.climbInputs proof
        (keccak256 (AdapterLib.adapterLeaf action.adapter (env.codehash action.adapter))), s ∈ D)
    (h : AdapterLib.AdapterChecked env (adapterHashing.root tree) depth action proof) :
    (action.adapter, env.codehash action.adapter) ∈ tree.leaves := by
  have hroot := h.member
  rw [processProof_eq] at hroot
  have hexplained := adapterHashing.climb_eq_root hfree
    (action.adapter, env.codehash action.adapter) tree proof htree hclimb hroot
  rcases hexplained with ⟨y, hy, hleaf⟩ | ⟨s, hs, s', hs', hleaf⟩ | ⟨y, hy, s, hs, p, hleaf⟩
  · exact leaf_injective hleaf ▸ hy
  · -- the leaf would be a node of the tree: one of two digests would be an address
    have hnot : NotAddress (keccak256 s) := hdigest s (htree s hs)
    have hnot' : NotAddress (keccak256 s') := hdigest s' (htree s' hs')
    rcases adapterHashing.sorted_eq_pair hleaf.symm with ⟨haddr, _⟩ | ⟨_, haddr⟩
    · exact absurd haddr (ne_setWidth_of_notAddress hnot _)
    · exact absurd haddr (ne_setWidth_of_notAddress hnot' _)
  · -- a leaf of the tree would be a pair: its code would be a string hashed on the way
    have hnot : NotAddress (keccak256 s) := hdigest s (hclimb s hs)
    have hcodehash : keccak256 s = y.2 := codehash_of_leaf_eq_sorted hnot hleaf
    have hlength : s.length = 64 := by
      rcases List.mem_cons.mp hs with heq | hs
      · rw [heq]
        exact length_adapterLeaf _
      · exact length_of_mem_climbInputs _ _ s hs
    obtain ⟨code, hcode, heq, hne⟩ := hmembers y hy (hcodehash ▸ hnot)
    have hstring : s = code := hfree (hclimb s hs) hcode (hcodehash.trans heq)
    exact absurd (hstring ▸ hlength) hne

/-- The code hash of an account is the digest of its code, or no digest at all. -/
theorem codehash_eq_of_notAddress {env : Env} {a : Address} (h : NotAddress (env.codehash a)) :
    env.codehash a = keccak256 (env.code a) := by
  rw [Env.codehash] at h ⊢
  by_cases hdead : env.dead a = true
  · rw [if_pos hdead] at h
    exact absurd h (by decide)
  · rw [if_neg hdead]

/-- An account with an accepted code hash has code. -/
theorem code_ne_nil_of_checked {env : Env} {root : Bytes32} {depth : Nat} {action : Action}
    {proof : List Bytes32} (h : AdapterLib.AdapterChecked env root depth action proof) :
    env.code action.adapter ≠ [] := by
  intro hnil
  have hempty : env.codehash action.adapter = 0
      ∨ env.codehash action.adapter = AdapterLib.emptyCodehash := by
    rw [Env.codehash, hnil]
    cases env.dead action.adapter with
    | true => exact Or.inl rfl
    | false => exact Or.inr rfl
  exact hempty.elim h.exists_code h.has_code

/-- Each accepted action has been checked with a proof, whose strings are among those hashed. -/
theorem exists_checked {P : Platform} {env : Env} {root : Bytes32} {actions : List Action}
    {adapterProofs : List (List Bytes32)} {maxProofDepth : Nat}
    (h : AdapterLib.validateAdapters P env actions adapterProofs root maxProofDepth = .ok ())
    (tree : HashTree (Address × Bytes32)) {action : Action} (hmem : action ∈ actions) :
    ∃ proof, AdapterLib.AdapterChecked env root maxProofDepth action proof
      ∧ ∀ s ∈ AdapterLib.adapterLeaf action.adapter (env.codehash action.adapter)
        :: adapterHashing.climbInputs proof
          (keccak256 (AdapterLib.adapterLeaf action.adapter (env.codehash action.adapter))),
        s ∈ hashedStrings env tree actions adapterProofs := by
  obtain ⟨used, rest, rfl, hall⟩ := (AdapterLib.validateAdapters_ok ..).mp h
  obtain ⟨i, hi, rfl⟩ := List.getElem_of_mem hmem
  obtain ⟨hlen, hget⟩ := List.forall₂_iff_get.mp hall
  have hi' : i < used.length := hlen ▸ hi
  refine ⟨used[i], hget i hi hi', fun s hs => ?_⟩
  refine List.mem_append_right _ (List.mem_flatten.mpr ⟨_, ?_, hs⟩)
  refine List.mem_iff_getElem.mpr ⟨i, ?_, ?_⟩
  · rw [List.length_zipWith, List.length_append]
    omega
  · rw [List.getElem_zipWith, List.getElem_append_left hi']

/-- **Adapter allowlist soundness.**  Let no two of the strings hashed collide, and no digest
    of them start with twelve zero bytes.  Against the root of any tree of adapters with
    their current code hashes, none of whose code is exactly 64 bytes long, the library
    accepts only actions whose adapter is in the tree, has code, and gets no value. -/
theorem allowlist_sound (P : Platform) (env : Env) (tree : HashTree (Address × Bytes32))
    (actions : List Action) (adapterProofs : List (List Bytes32)) (maxProofDepth : Nat)
    (hcurrent : ∀ x ∈ tree.leaves, x.2 = env.codehash x.1)
    (hcode : ∀ x ∈ tree.leaves, (env.code x.1).length ≠ 64)
    (hfree : CollisionFree keccak256 {s | s ∈ hashedStrings env tree actions adapterProofs})
    (hdigest : ∀ s ∈ hashedStrings env tree actions adapterProofs, NotAddress (keccak256 s))
    (h : AdapterLib.validateAdapters P env actions adapterProofs (adapterHashing.root tree)
      maxProofDepth = .ok ()) :
    ∀ action ∈ actions, (action.adapter, env.codehash action.adapter) ∈ tree.leaves
      ∧ env.code action.adapter ≠ [] ∧ action.value = 0 := by
  intro action hmem
  obtain ⟨proof, hchecked, hclimb⟩ := exists_checked h tree hmem
  refine ⟨mem_of_checked ?_ hfree hdigest ?_ hclimb hchecked, code_ne_nil_of_checked hchecked,
    hchecked.value⟩
  · intro x hx hnot
    rw [hcurrent x hx] at hnot
    exact ⟨env.code x.1,
      List.mem_append_left _ (List.mem_append_right _ (List.mem_map_of_mem hx)),
      (hcurrent x hx).trans (codehash_eq_of_notAddress hnot), hcode x hx⟩
  · intro s hs
    exact List.mem_append_left _ (List.mem_append_left _ hs)

namespace Small

/-- Two adapters on an allowlist, each with its code hash. -/
def twoAdapters : HashTree (Address × Bytes32) :=
  .node (.leaf (adapter, keccak256 [0xB0])) (.leaf (authority, keccak256 [0xA0]))

/-- The proof for the first of them. -/
def siblingProof : List Bytes32 := [keccak256 (AdapterLib.adapterLeaf authority (keccak256 [0xA0]))]

/-- An account that is on no allowlist. -/
def stranger : Address := 0xE1

/-- An allowlisted account whose code is the string of the stranger's leaf. -/
def accomplice : Address := 0xB1

/-- The chain with these two accounts. -/
def hostileEnv : Env :=
  { env executor executor_ne_zero with
    code := fun a =>
      if a = accomplice then AdapterLib.adapterLeaf stranger (keccak256 [0xE1])
      else if a = stranger then [0xE1] else []
    dead := fun a => a ≠ accomplice ∧ a ≠ stranger }

/-- The allowlist with the accomplice alone. -/
def accompliceTree : HashTree (Address × Bytes32) :=
  .leaf (accomplice, hostileEnv.codehash accomplice)

/-- A call of the stranger. -/
def strangerActions : List Action :=
  [{ adapter := stranger, value := 0, data := noData }]

end Small

/-- An action of an allowlisted adapter is accepted with its proof. -/
theorem allowlist_sound_small :
    AdapterLib.validateAdapters .plain (Small.env Small.executor) Small.actions
        [Small.siblingProof] (adapterHashing.root Small.twoAdapters) maxAdapterProofDepth = .ok ()
      ∧ ∀ action ∈ Small.actions,
        (action.adapter, (Small.env Small.executor).codehash action.adapter)
          ∈ Small.twoAdapters.leaves
        ∧ (Small.env Small.executor).code action.adapter ≠ [] ∧ action.value = 0 := by
  have haccepted : AdapterLib.validateAdapters .plain (Small.env Small.executor) Small.actions
      [Small.siblingProof] (adapterHashing.root Small.twoAdapters) maxAdapterProofDepth
      = .ok () := by decide +kernel
  have hcurrent : ∀ x ∈ Small.twoAdapters.leaves,
      x.2 = (Small.env Small.executor).codehash x.1 :=
    List.forall_mem_cons.mpr ⟨by decide +kernel, List.forall_mem_singleton.mpr (by decide +kernel)⟩
  have hcode : ∀ x ∈ Small.twoAdapters.leaves,
      ((Small.env Small.executor).code x.1).length ≠ 64 :=
    List.forall_mem_cons.mpr ⟨by decide, List.forall_mem_singleton.mpr (by decide)⟩
  have hnodup : ((hashedStrings (Small.env Small.executor) Small.twoAdapters Small.actions
      [Small.siblingProof]).dedup.map keccak256).Nodup := by decide +kernel
  exact ⟨haccepted, allowlist_sound .plain (Small.env Small.executor) Small.twoAdapters
    Small.actions [Small.siblingProof] maxAdapterProofDepth hcurrent hcode
    (.of_nodup hnodup fun s hs => List.mem_dedup.mpr hs) (by decide +kernel) haccepted⟩

/-- **A stranger can pass.**  The accomplice is on the allowlist and its code is the string of
    the stranger's leaf, so its code hash is the stranger's leaf; with the accomplice's
    address as proof the stranger climbs to the accomplice's leaf, which is the root. -/
theorem not_allowlist_sound :
    ¬ ∀ (P : Platform) (env : Env) (tree : HashTree (Address × Bytes32)) (actions : List Action)
      (adapterProofs : List (List Bytes32)) (maxProofDepth : Nat),
      (∀ x ∈ tree.leaves, x.2 = env.codehash x.1) →
      CollisionFree keccak256 {s | s ∈ hashedStrings env tree actions adapterProofs} →
      (∀ s ∈ hashedStrings env tree actions adapterProofs, NotAddress (keccak256 s)) →
      AdapterLib.validateAdapters P env actions adapterProofs (adapterHashing.root tree)
        maxProofDepth = .ok () →
      ∀ action ∈ actions, (action.adapter, env.codehash action.adapter) ∈ tree.leaves
        ∧ env.code action.adapter ≠ [] ∧ action.value = 0 := by
  intro h
  have hcurrent : ∀ x ∈ Small.accompliceTree.leaves, x.2 = Small.hostileEnv.codehash x.1 :=
    List.forall_mem_singleton.mpr rfl
  have hnodup : ((hashedStrings Small.hostileEnv Small.accompliceTree Small.strangerActions
      [[Small.accomplice.setWidth 256]]).dedup.map keccak256).Nodup := by decide +kernel
  have haccepted : AdapterLib.validateAdapters .plain Small.hostileEnv Small.strangerActions
      [[Small.accomplice.setWidth 256]] (adapterHashing.root Small.accompliceTree)
      maxAdapterProofDepth = .ok () := by decide +kernel
  have hmem := h .plain Small.hostileEnv Small.accompliceTree Small.strangerActions
    [[Small.accomplice.setWidth 256]] maxAdapterProofDepth hcurrent
    (.of_nodup hnodup fun s hs => List.mem_dedup.mpr hs) (by decide +kernel) haccepted _
    (List.mem_cons_self ..)
  exact absurd hmem.1 (by decide +kernel)

end Vault
