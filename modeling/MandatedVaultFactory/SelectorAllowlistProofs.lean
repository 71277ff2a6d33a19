import MandatedVaultFactory.AllowlistProofs

/-!
# The selector allowlist

What `AdapterLib.enforceSelectorAllowlist` accepts against the root of a tree over pairs of an
adapter and a selector, and that both allowlists accept the proofs that are read off their trees.
A leaf is an address at the back of one word and a selector at the front of the next.

* **`enforceSelectorsWith`** — the check for any hash; for `keccak256` it is the library's.
* **`mem_of_selectorChecked`** — a proof leads from a member, unless a digest can stand for an
  address or for a selector.
* **`selector_allowlist`** — only members are accepted, and all of them.
* **`not_selector_sound`** — a digest that can stand for a selector lets a stranger pass. -/

namespace Vault

open Encoding Keccak MerkleTree

/-- The hashing of the selector allowlist: leaves and pairs are both two words. -/
def selectorHashing (hash : Bytes → Bytes32) : Hashing (Address × Bytes4) Bytes Bytes32 where
  hash := hash
  leaf x := AdapterLib.selectorLeaf x.1 x.2
  pair a b := word a ++ word b
  pair_inj := word_append_inj

/-- The word of a selector. -/
def selectorWord (selector : Bytes4) : Bytes32 := selector.setWidth 256 <<< 224

/-- A digest that does not end with 28 zero bytes. -/
def NotSelector (d : Bytes32) : Prop := ¬ 2 ^ 224 ∣ d.toNat

instance (d : Bytes32) : Decidable (NotSelector d) :=
  inferInstanceAs (Decidable (¬ 2 ^ 224 ∣ d.toNat))

theorem toNat_selectorWord (selector : Bytes4) :
    (selectorWord selector).toNat = selector.toNat * 2 ^ 224 := by
  have hlt := selector.isLt
  rw [selectorWord, BitVec.toNat_shiftLeft, BitVec.toNat_setWidth, Nat.shiftLeft_eq]
  omega

theorem ne_selectorWord_of_notSelector {d : Bytes32} (hd : NotSelector d) (selector : Bytes4) :
    d ≠ selectorWord selector := by
  rintro rfl
  exact hd ⟨selector.toNat, by rw [toNat_selectorWord, Nat.mul_comm]⟩

theorem selectorLeaf_injective (hash : Bytes → Bytes32) :
    Function.Injective (selectorHashing hash).leaf := by
  rintro ⟨a, s⟩ ⟨a', s'⟩ h
  obtain ⟨haddr, hsel⟩ := word_append_inj h
  have hnat : s.toNat * 2 ^ 224 = s'.toNat * 2 ^ 224 := by
    rw [← toNat_selectorWord, ← toNat_selectorWord]
    exact congrArg BitVec.toNat hsel
  exact Prod.ext (setWidth_inj (by omega) haddr)
    (BitVec.eq_of_toNat_eq (Nat.eq_of_mul_eq_mul_right (by decide) hnat))

/-! ## The check, for any hash -/

/-- The loop of `enforceSelectorAllowlist`, with a hash in the place of `keccak256`. -/
def enforceSelectorsWith (hash : Bytes → Bytes32) (root : Bytes32) (maxProofDepth : Nat) :
    Nat → List Action → List (List Bytes32) → Except Error Unit
  | _, [], _ => pure ()
  | _, _ :: _, [] => throw (.Panic 0x32)
  | i, action :: actions, proof :: proofs => do
      revertIf (maxProofDepth < proof.length) (.SelectorProofTooDeep i proof.length)
      revertIf (action.data.1.length < 4) (.InvalidActionData i)
      let selector := AdapterLib.selectorOf action.data.1
      let leaf := hash (AdapterLib.selectorLeaf action.adapter selector)
      revertIf ((selectorHashing hash).climb proof leaf ≠ root)
        (.SelectorNotAllowed i action.adapter selector)
      enforceSelectorsWith hash root maxProofDepth (i + 1) actions proofs

/-- `enforceSelectorAllowlist`, with a hash in the place of `keccak256`. -/
def enforceSelectorAllowlistWith (hash : Bytes → Bytes32) (actions : List Action)
    (root : Bytes32) (proofs : List (List Bytes32)) (maxProofDepth : Nat) : Except Error Unit := do
  revertIf (proofs.length ≠ actions.length) .InvalidExtensionsEncoding
  enforceSelectorsWith hash root maxProofDepth 0 actions proofs

/-- **With `keccak256` it is the library's check.** -/
theorem enforceSelectorAllowlist_eq_with (P : Platform) (actions : List Action) (root : Bytes32)
    (proofs : List (List Bytes32)) (maxProofDepth : Nat) :
    AdapterLib.enforceSelectorAllowlist P actions root proofs maxProofDepth
      = enforceSelectorAllowlistWith keccak256 actions root proofs maxProofDepth := by
  have hloop : ∀ (actions : List Action) (i : Nat) (proofs : List (List Bytes32)),
      AdapterLib.enforceSelectorsFrom P root maxProofDepth i actions proofs
        = enforceSelectorsWith keccak256 root maxProofDepth i actions proofs := by
    intro actions
    induction actions with
    | nil => intro i proofs; rfl
    | cons action actions ih =>
        intro i proofs
        cases proofs with
        | nil => rfl
        | cons proof proofs =>
            have hverify : ∀ leaf, P.verify proof root leaf = false ↔
                (selectorHashing keccak256).climb proof leaf ≠ root := by
              intro leaf
              rw [← Bool.not_eq_true, P.verify_iff, processProof_eq]
              rfl
            simp only [AdapterLib.enforceSelectorsFrom, enforceSelectorsWith, ih, revertIf, hverify]
  rw [AdapterLib.enforceSelectorAllowlist, enforceSelectorAllowlistWith, hloop]

/-- What the loop has checked of one action and its proof. -/
structure SelectorChecked (hash : Bytes → Bytes32) (root : Bytes32) (maxProofDepth : Nat)
    (action : Action) (proof : List Bytes32) : Prop where
  depth : proof.length ≤ maxProofDepth
  data : 4 ≤ action.data.1.length
  member : (selectorHashing hash).climb proof
    (hash (AdapterLib.selectorLeaf action.adapter (AdapterLib.selectorOf action.data.1))) = root

/-- The check accepts exactly if there is one checked proof for every action.  Induction on the
    actions. -/
theorem enforceSelectorAllowlistWith_ok (hash : Bytes → Bytes32) (actions : List Action)
    (root : Bytes32) (proofs : List (List Bytes32)) (maxProofDepth : Nat) :
    enforceSelectorAllowlistWith hash actions root proofs maxProofDepth = .ok () ↔
      List.Forall₂ (SelectorChecked hash root maxProofDepth) actions proofs := by
  have hloop : ∀ (actions : List Action) (i : Nat) (proofs : List (List Bytes32)),
      proofs.length = actions.length →
      (enforceSelectorsWith hash root maxProofDepth i actions proofs = .ok () ↔
        List.Forall₂ (SelectorChecked hash root maxProofDepth) actions proofs) := by
    intro actions
    induction actions with
    | nil =>
        intro i proofs hlen
        obtain rfl := List.length_eq_zero_iff.mp hlen
        exact ⟨fun _ => .nil, fun _ => rfl⟩
    | cons action actions ih =>
        intro i proofs hlen
        cases proofs with
        | nil => cases hlen
        | cons proof proofs =>
            simp only [enforceSelectorsWith, bind_ok, revertIf_ok, exists_const,
              ih (i + 1) proofs (Nat.succ.inj hlen), List.forall₂_cons, not_lt, not_not]
            constructor
            · rintro ⟨hdepth, hdata, hmember, hrest⟩
              exact ⟨⟨hdepth, hdata, hmember⟩, hrest⟩
            · rintro ⟨⟨hdepth, hdata, hmember⟩, hrest⟩
              exact ⟨hdepth, hdata, hmember, hrest⟩
  simp only [enforceSelectorAllowlistWith, bind_ok, revertIf_ok, exists_const, not_not]
  constructor
  · rintro ⟨hlen, h⟩
    exact (hloop actions 0 proofs hlen).mp h
  · intro h
    exact ⟨h.length_eq.symm, (hloop actions 0 proofs h.length_eq.symm).mpr h⟩

/-! ## Soundness -/

/-- The adapter and the selector of an action. -/
def Action.entry (action : Action) : Address × Bytes4 :=
  (action.adapter, AdapterLib.selectorOf action.data.1)

/-- The strings hashed when selectors are checked against a tree: those of the tree, the leaves
    of the actions, and those along their proofs. -/
def selectorStrings (hash : Bytes → Bytes32) (tree : HashTree (Address × Bytes4))
    (actions : List Action) (proofs : List (List Bytes32)) : List Bytes :=
  (selectorHashing hash).treeInputs tree
    ++ (List.zipWith (fun action proof =>
        let leaf := (selectorHashing hash).leaf action.entry
        leaf :: (selectorHashing hash).climbInputs proof (hash leaf)) actions proofs).flatten

/-- A pair with a digest in it is no leaf. -/
theorem sorted_ne_leaf {hash : Bytes → Bytes32} {d : Bytes32} (haddr : NotAddress d)
    (hsel : NotSelector d) (p : Bytes32) (x : Address × Bytes4) :
    (selectorHashing hash).leaf x ≠ (selectorHashing hash).sorted d p := by
  intro h
  have hpair : (selectorHashing hash).sorted d p
      = (selectorHashing hash).pair (x.1.setWidth 256) (selectorWord x.2) := h.symm
  rcases (selectorHashing hash).sorted_eq_pair hpair with ⟨hleft, _⟩ | ⟨hright, _⟩
  · exact absurd hleft (ne_setWidth_of_notAddress haddr x.1)
  · exact absurd hright (ne_selectorWord_of_notSelector hsel x.2)

/-- One accepted action.  A proof that leads elsewhere than to a member's leaf would make a leaf
    the string of a pair of digests. -/
theorem mem_of_selectorChecked {hash : Bytes → Bytes32} {tree : HashTree (Address × Bytes4)}
    {action : Action} {proof : List Bytes32} {depth : Nat} {D : Set Bytes}
    (hfree : CollisionFree hash D) (haddr : ∀ s ∈ D, NotAddress (hash s))
    (hsel : ∀ s ∈ D, NotSelector (hash s))
    (htree : ∀ s ∈ (selectorHashing hash).treeInputs tree, s ∈ D)
    (hclimb : ∀ s ∈ (selectorHashing hash).leaf action.entry
      :: (selectorHashing hash).climbInputs proof (hash ((selectorHashing hash).leaf action.entry)),
      s ∈ D)
    (h : SelectorChecked hash ((selectorHashing hash).root tree) depth action proof) :
    action.entry ∈ tree.leaves := by
  have hexplained := (selectorHashing hash).climb_eq_root hfree action.entry tree proof htree
    hclimb h.member
  rcases hexplained with ⟨y, hy, hleaf⟩ | ⟨s, hs, s', _, hleaf⟩ | ⟨y, hy, s, hs, p, hleaf⟩
  · exact selectorLeaf_injective hash hleaf ▸ hy
  · exact absurd hleaf (sorted_ne_leaf (haddr s (htree s hs)) (hsel s (htree s hs)) _ _)
  · exact absurd hleaf (sorted_ne_leaf (haddr s (hclimb s hs)) (hsel s (hclimb s hs)) _ _)

/-- Each accepted action has been checked with a proof, whose strings are among those hashed. -/
theorem exists_selectorChecked {hash : Bytes → Bytes32} {root : Bytes32} {depth : Nat}
    {actions : List Action} {proofs : List (List Bytes32)}
    (h : List.Forall₂ (SelectorChecked hash root depth) actions proofs)
    (tree : HashTree (Address × Bytes4)) {action : Action} (hmem : action ∈ actions) :
    ∃ proof, SelectorChecked hash root depth action proof ∧
      ∀ s ∈ (selectorHashing hash).leaf action.entry
        :: (selectorHashing hash).climbInputs proof
          (hash ((selectorHashing hash).leaf action.entry)),
        s ∈ selectorStrings hash tree actions proofs := by
  obtain ⟨i, hi, rfl⟩ := List.getElem_of_mem hmem
  obtain ⟨hlen, hget⟩ := List.forall₂_iff_get.mp h
  have hi' : i < proofs.length := hlen ▸ hi
  refine ⟨proofs[i], hget i hi hi', fun s hs => ?_⟩
  refine List.mem_append_right _ (List.mem_flatten.mpr ⟨_, ?_, hs⟩)
  refine List.mem_iff_getElem.mpr ⟨i, ?_, ?_⟩
  · rw [List.length_zipWith]
    omega
  · rw [List.getElem_zipWith]

/-- **Only members pass**, for any hash that separates the strings hashed and of which no digest
    stands for an address or for a selector. -/
theorem selector_sound_with {hash : Bytes → Bytes32} {tree : HashTree (Address × Bytes4)}
    {actions : List Action} {proofs : List (List Bytes32)} {depth : Nat}
    (hfree : CollisionFree hash {s | s ∈ selectorStrings hash tree actions proofs})
    (haddr : ∀ s ∈ selectorStrings hash tree actions proofs, NotAddress (hash s))
    (hsel : ∀ s ∈ selectorStrings hash tree actions proofs, NotSelector (hash s))
    (h : enforceSelectorAllowlistWith hash actions ((selectorHashing hash).root tree) proofs depth
      = .ok ()) :
    ∀ action ∈ actions, 4 ≤ action.data.1.length ∧ action.entry ∈ tree.leaves := by
  intro action hmem
  obtain ⟨proof, hchecked, hclimb⟩ :=
    exists_selectorChecked ((enforceSelectorAllowlistWith_ok ..).mp h) tree hmem
  exact ⟨hchecked.data, mem_of_selectorChecked hfree haddr hsel
    (fun s hs => List.mem_append_left _ hs) hclimb hchecked⟩

/-! ## Completeness -/

theorem digest_asymm (a b : Bytes32) (h : a < b) : ¬ b < a := Nat.lt_asymm h

theorem digest_total (a b : Bytes32) (hab : ¬ a < b) (hba : ¬ b < a) : a = b :=
  BitVec.eq_of_toNat_eq (Nat.le_antisymm (Nat.le_of_not_lt hba) (Nat.le_of_not_lt hab))

/-- The action is a member, and this is the proof that is read off the tree. -/
structure SelectorPath (hash : Bytes → Bytes32) (tree : HashTree (Address × Bytes4))
    (action : Action) (proof : List Bytes32) : Prop where
  data : 4 ≤ action.data.1.length
  path : (action.entry, proof) ∈ (selectorHashing hash).siblings tree

/-- The adapter has code, is a member with its code hash, and gets no value, and this is the
    proof that is read off the tree. -/
structure AdapterPath (env : Env) (tree : HashTree (Address × Bytes32)) (action : Action)
    (proof : List Bytes32) : Prop where
  exists_code : env.codehash action.adapter ≠ 0
  has_code : env.codehash action.adapter ≠ AdapterLib.emptyCodehash
  value : action.value = 0
  path : ((action.adapter, env.codehash action.adapter), proof) ∈ adapterHashing.siblings tree

theorem climb_selectorPath {hash : Bytes → Bytes32} {tree : HashTree (Address × Bytes4)}
    {action : Action} {proof : List Bytes32} (h : SelectorPath hash tree action proof) :
    (selectorHashing hash).climb proof
      ((selectorHashing hash).hash ((selectorHashing hash).leaf action.entry))
      = (selectorHashing hash).root tree :=
  (selectorHashing hash).climb_siblings digest_asymm digest_total h.path

theorem selectorChecked_of_path {hash : Bytes → Bytes32} {tree : HashTree (Address × Bytes4)}
    {depth : Nat} (hdepth : tree.depth ≤ depth) {action : Action} {proof : List Bytes32}
    (h : SelectorPath hash tree action proof) :
    SelectorChecked hash ((selectorHashing hash).root tree) depth action proof where
  depth := ((selectorHashing hash).length_siblings_le h.path).trans hdepth
  data := h.data
  member := climb_selectorPath h

theorem selector_complete (P : Platform) {tree : HashTree (Address × Bytes4)}
    (hdepth : tree.depth ≤ maxSelectorProofDepth) {actions : List Action}
    {proofs : List (List Bytes32)}
    (h : List.Forall₂ (SelectorPath keccak256 tree) actions proofs) :
    AdapterLib.enforceSelectorAllowlist P actions ((selectorHashing keccak256).root tree) proofs
      maxSelectorProofDepth = .ok () := by
  rw [enforceSelectorAllowlist_eq_with, enforceSelectorAllowlistWith_ok]
  exact h.imp fun action proof hpath => selectorChecked_of_path hdepth hpath

theorem hash_adapterLeaf (adapter : Address) (codeHash : Bytes32) :
    adapterHashing.hash (adapterHashing.leaf (adapter, codeHash))
      = keccak256 (AdapterLib.adapterLeaf adapter codeHash) := rfl

theorem adapter_complete (P : Platform) {env : Env} {tree : HashTree (Address × Bytes32)}
    (hdepth : tree.depth ≤ maxAdapterProofDepth) {actions : List Action}
    {proofs : List (List Bytes32)} (h : List.Forall₂ (AdapterPath env tree) actions proofs) :
    AdapterLib.validateAdapters P env actions proofs (adapterHashing.root tree)
      maxAdapterProofDepth = .ok () := by
  refine (AdapterLib.validateAdapters_ok ..).mpr ⟨proofs, [], (List.append_nil proofs).symm, ?_⟩
  refine h.imp fun action proof hpath =>
    ⟨hpath.exists_code, hpath.has_code, hpath.value, ?_, ?_⟩
  · exact (adapterHashing.length_siblings_le hpath.path).trans hdepth
  · have hclimb := adapterHashing.climb_siblings digest_asymm digest_total hpath.path
    rw [hash_adapterLeaf] at hclimb
    rw [processProof_eq, hclimb]

/-- Every action has a proof if each has one. -/
theorem exists_proofs {R : Action → List Bytes32 → Prop} (actions : List Action)
    (h : ∀ action ∈ actions, ∃ proof, R action proof) :
    ∃ proofs, List.Forall₂ R actions proofs := by
  induction actions with
  | nil => exact ⟨[], .nil⟩
  | cons action actions ih =>
      obtain ⟨proof, hproof⟩ := h action (List.mem_cons_self ..)
      obtain ⟨proofs, hproofs⟩ := ih fun a ha => h a (List.mem_cons_of_mem _ ha)
      exact ⟨proof :: proofs, .cons hproof hproofs⟩

/-- **Selector allowlist soundness, and the completeness of both allowlists.**  Let no two of the
    strings hashed collide, and no digest of them stand for an address or for a selector: then
    only actions pass whose data has a selector that is listed for their adapter.  For trees that
    are no deeper than the bound, the proofs that are read off the tree of the selectors, and off
    that of the adapters, are accepted, and every member has one. -/
theorem selector_allowlist (P : Platform) (env : Env) (tree : HashTree (Address × Bytes4))
    (adapters : HashTree (Address × Bytes32)) :
    (∀ actions proofs depth,
      CollisionFree keccak256 {s | s ∈ selectorStrings keccak256 tree actions proofs} →
      (∀ s ∈ selectorStrings keccak256 tree actions proofs, NotAddress (keccak256 s)) →
      (∀ s ∈ selectorStrings keccak256 tree actions proofs, NotSelector (keccak256 s)) →
      AdapterLib.enforceSelectorAllowlist P actions ((selectorHashing keccak256).root tree) proofs
        depth = .ok () →
      ∀ action ∈ actions, 4 ≤ action.data.1.length ∧ action.entry ∈ tree.leaves) ∧
    (tree.depth ≤ maxSelectorProofDepth → ∀ actions : List Action,
      (∀ action ∈ actions, 4 ≤ action.data.1.length ∧ action.entry ∈ tree.leaves) →
      (∃ proofs, List.Forall₂ (SelectorPath keccak256 tree) actions proofs) ∧
      ∀ proofs, List.Forall₂ (SelectorPath keccak256 tree) actions proofs →
        AdapterLib.enforceSelectorAllowlist P actions ((selectorHashing keccak256).root tree)
          proofs maxSelectorProofDepth = .ok ()) ∧
    (adapters.depth ≤ maxAdapterProofDepth → ∀ actions : List Action,
      (∀ action ∈ actions, action.value = 0 ∧ env.codehash action.adapter ≠ 0 ∧
        env.codehash action.adapter ≠ AdapterLib.emptyCodehash ∧
        (action.adapter, env.codehash action.adapter) ∈ adapters.leaves) →
      (∃ proofs, List.Forall₂ (AdapterPath env adapters) actions proofs) ∧
      ∀ proofs, List.Forall₂ (AdapterPath env adapters) actions proofs →
        AdapterLib.validateAdapters P env actions proofs (adapterHashing.root adapters)
          maxAdapterProofDepth = .ok ()) := by
  refine ⟨?_, ?_, ?_⟩
  · intro actions proofs depth hfree haddr hsel h
    rw [enforceSelectorAllowlist_eq_with] at h
    exact selector_sound_with hfree haddr hsel h
  · intro hdepth actions hmembers
    refine ⟨exists_proofs actions fun action hmem => ?_, fun proofs h =>
      selector_complete P hdepth h⟩
    obtain ⟨hdata, hleaf⟩ := hmembers action hmem
    -- the siblings on the way from the leaf to the root
    obtain ⟨proof, hproof⟩ := (selectorHashing keccak256).exists_siblings hleaf
    exact ⟨proof, hdata, hproof⟩
  · intro hdepth actions hmembers
    refine ⟨exists_proofs actions fun action hmem => ?_, fun proofs h =>
      adapter_complete P hdepth h⟩
    obtain ⟨hvalue, hexists, hcode, hleaf⟩ := hmembers action hmem
    obtain ⟨proof, hproof⟩ := adapterHashing.exists_siblings hleaf
    exact ⟨proof, hexists, hcode, hvalue, hproof⟩

/-! ## A call that is listed, and one that is not -/

namespace Small

/-- A selector and an argument. -/
def callData : Blob := ⟨[0x11, 0x22, 0x33, 0x44, 0x55], by decide⟩

/-- The adapter is called with them. -/
def calls : List Action := [{ adapter := adapter, value := 0, data := callData }]

/-- Two entries on the allowlist, that of the call among them. -/
def twoSelectors : HashTree (Address × Bytes4) :=
  .node (.leaf (adapter, 0x11223344)) (.leaf (authority, 0x55667788))

def selectorProof : List Bytes32 :=
  [keccak256 (AdapterLib.selectorLeaf authority 0x55667788)]

/-- The hash with one digest changed: the leaf of the stranger's call hashes to the word of the
    listed selector. -/
def bentHash (s : Bytes) : Bytes32 :=
  if s = AdapterLib.selectorLeaf stranger 0x11223344 then selectorWord 0x11223344 else keccak256 s

/-- The stranger is called as the adapter might be. -/
def strangerCalls : List Action := [{ adapter := stranger, value := 0, data := callData }]

end Small

theorem selector_allowlist_small :
    AdapterLib.enforceSelectorAllowlist .plain Small.calls
        ((selectorHashing keccak256).root Small.twoSelectors) [Small.selectorProof]
        maxSelectorProofDepth = .ok () ∧
      (∀ action ∈ Small.calls, 4 ≤ action.data.1.length ∧
        action.entry ∈ Small.twoSelectors.leaves) ∧
      AdapterLib.validateAdapters .plain (Small.env Small.executor) Small.calls
        [Small.siblingProof] (adapterHashing.root Small.twoAdapters) maxAdapterProofDepth
        = .ok () := by
  obtain ⟨hsound, hselectors, hadapters⟩ := selector_allowlist .plain (Small.env Small.executor)
    Small.twoSelectors Small.twoAdapters
  have hnodup : ((selectorStrings keccak256 Small.twoSelectors Small.calls
      [Small.selectorProof]).dedup.map keccak256).Nodup := by decide +kernel
  have haccepted := (hselectors (by decide) Small.calls (by decide +kernel)).2
    [Small.selectorProof] (.cons ⟨by decide, by decide +kernel⟩ .nil)
  refine ⟨haccepted, hsound Small.calls [Small.selectorProof] maxSelectorProofDepth
    (.of_nodup hnodup fun s hs => List.mem_dedup.mpr hs) (by decide +kernel) (by decide +kernel)
    haccepted, ?_⟩
  exact (hadapters (by decide) Small.calls (by decide +kernel)).2 [Small.siblingProof]
    (.cons ⟨by decide +kernel, by decide +kernel, by decide, by decide +kernel⟩ .nil)

/-- **A digest that stands for a selector lets a stranger pass.**  The digest of the stranger's
    leaf is the word of the listed selector; with the address of the adapter as proof it is hashed
    as the listed leaf, which is the root. -/
theorem not_selector_sound :
    ¬ ∀ (hash : Bytes → Bytes32) (tree : HashTree (Address × Bytes4)) (actions : List Action)
      (proofs : List (List Bytes32)) (depth : Nat),
      CollisionFree hash {s | s ∈ selectorStrings hash tree actions proofs} →
      (∀ s ∈ selectorStrings hash tree actions proofs, NotAddress (hash s)) →
      enforceSelectorAllowlistWith hash actions ((selectorHashing hash).root tree) proofs depth
        = .ok () →
      ∀ action ∈ actions, 4 ≤ action.data.1.length ∧ action.entry ∈ tree.leaves := by
  intro h
  have hnodup : ((selectorStrings Small.bentHash (.leaf (Small.adapter, 0x11223344))
      Small.strangerCalls [[Small.adapter.setWidth 256]]).dedup.map Small.bentHash).Nodup := by
    decide +kernel
  have hmem := h Small.bentHash (.leaf (Small.adapter, 0x11223344)) Small.strangerCalls
    [[Small.adapter.setWidth 256]] maxSelectorProofDepth
    (.of_nodup hnodup fun s hs => List.mem_dedup.mpr hs) (by decide +kernel) (by decide +kernel)
    _ (List.mem_cons_self ..)
  exact absurd hmem.2 (by decide)

end Vault
