import MandatedVaultFactory.VaultStateProofs
import Mathlib.Data.List.Forall2

/-!
# The domain libraries: `MandateLib`, `AdapterLib`, `DrawdownLib`

The checks of `execute` that are factored out into libraries, each in the order of the
source and with its errors, followed by what acceptance means.  `uint256` products are
checked: an overflow reverts with `Panic(0x11)`. -/

namespace Vault

open Encoding Keccak

/-! ## Reverting -/

/-- `if (c) revert e;` -/
def revertIf (c : Prop) [Decidable c] (e : Error) : Except Error Unit :=
  if c then .error e else .ok ()

@[simp] theorem revertIf_ok (c : Prop) [Decidable c] (e : Error) (u : Unit) :
    revertIf c e = .ok u ↔ ¬ c := by
  rw [revertIf]
  by_cases h : c <;> simp [h]

@[simp] theorem bind_ok {α β : Type} (x : Except Error α) (f : α → Except Error β) (b : β) :
    (x >>= f) = .ok b ↔ ∃ a, x = .ok a ∧ f a = .ok b := by
  cases x with
  | error e => simp [bind, Except.bind]
  | ok a => simp [bind, Except.bind]

/-- A check returns nothing. -/
theorem exists_unit_ok (x : Except Error Unit) (p : Prop) :
    (∃ u, x = .ok u ∧ p) ↔ x = .ok () ∧ p :=
  ⟨fun ⟨(), h⟩ => h, fun h => ⟨(), h⟩⟩

@[simp] theorem pure_ok {α : Type} (a b : α) :
    (pure a : Except Error α) = .ok b ↔ a = b := by
  simp [pure, Except.pure]

@[simp] theorem throw_ok {α : Type} (e : Error) (b : α) :
    (throw e : Except Error α) = .ok b ↔ False := by
  simp [throw, throwThe, MonadExceptOf.throw]

/-- `a * b` in checked arithmetic. -/
def checkedMul (a b : Uint256) : Except Error Uint256 :=
  if a.toNat * b.toNat < 2 ^ 256 then .ok (a * b) else .error (.Panic 0x11)

/-- `a - b` in checked arithmetic. -/
def checkedSub (a b : Uint256) : Except Error Uint256 :=
  if b ≤ a then .ok (a - b) else .error (.Panic 0x11)

theorem checkedMul_ok (a b c : Uint256) :
    checkedMul a b = .ok c ↔ a.toNat * b.toNat < 2 ^ 256 ∧ c.toNat = a.toNat * b.toNat := by
  rw [checkedMul]
  by_cases h : a.toNat * b.toNat < 2 ^ 256
  · rw [if_pos h]
    have hab : (a * b).toNat = a.toNat * b.toNat := by
      rw [BitVec.toNat_mul, Nat.mod_eq_of_lt h]
    constructor
    · intro heq
      rw [← Except.ok.inj heq]
      exact ⟨h, hab⟩
    · rintro ⟨_, hc⟩
      rw [show c = a * b from BitVec.eq_of_toNat_eq (hc.trans hab.symm)]
  · rw [if_neg h]
    exact ⟨fun heq => (nomatch heq), fun hc => absurd hc.1 h⟩

theorem checkedSub_ok (a b c : Uint256) :
    checkedSub a b = .ok c ↔ b.toNat ≤ a.toNat ∧ c.toNat = a.toNat - b.toNat := by
  rw [checkedSub]
  by_cases h : b ≤ a
  · rw [if_pos h]
    have hab : (a - b).toNat = a.toNat - b.toNat := BitVec.toNat_sub_of_le h
    constructor
    · intro heq
      rw [← Except.ok.inj heq]
      exact ⟨h, hab⟩
    · rintro ⟨_, hc⟩
      rw [show c = a - b from BitVec.eq_of_toNat_eq (hc.trans hab.symm)]
  · rw [if_neg h]
    exact ⟨fun heq => (nomatch heq), fun hc => absurd hc.1 h⟩

/-! ## `MandateLib` -/

namespace MandateLib

/-- Mandate field constraints (steps 1-5a). -/
def validateFields (env : Env) (mandate : Mandate) (currentEpoch : BitVec 64)
    (actionsLen adapterProofsLen extensionsLen maxActions maxExtensionsBytes : Nat) :
    Except Error Unit := do
  -- Step 1: deadline
  revertIf (mandate.deadline ≠ 0 ∧ mandate.deadline.toNat < env.timestamp.toNat)
    .MandateExpired
  -- Step 2: executor restriction
  revertIf (mandate.executor ≠ 0 ∧ env.sender ≠ mandate.executor) .UnauthorizedExecutor
  -- Step 3: unbounded open mandate safety
  revertIf (mandate.executor = 0 ∧ mandate.payloadDigest = 0) .UnboundedOpenMandate
  -- Step 4: authority epoch
  revertIf (mandate.authorityEpoch ≠ currentEpoch) .AuthorityEpochMismatch
  -- Step 5: drawdown bounds
  revertIf (10000 < mandate.maxDrawdownBps.toNat) .InvalidDrawdownBps
  revertIf (10000 < mandate.maxCumulativeDrawdownBps.toNat ∨
    mandate.maxCumulativeDrawdownBps.toNat < mandate.maxDrawdownBps.toNat)
    .InvalidCumulativeDrawdownBps
  revertIf (mandate.allowedAdaptersRoot = 0) .InvalidAdaptersRoot
  -- Step 5a: input size limits
  revertIf (actionsLen = 0) .EmptyActions
  revertIf (maxActions < actionsLen) (.TooManyActions actionsLen)
  revertIf (adapterProofsLen ≠ actionsLen) .AdapterNotAllowed
  revertIf (maxExtensionsBytes < extensionsLen) (.ExtensionsTooLarge extensionsLen)

/-- Optional payload binding (step 10). -/
def validatePayloadDigest (payloadDigest actionsDigest : Bytes32) : Except Error Unit :=
  revertIf (payloadDigest ≠ 0 ∧ payloadDigest ≠ actionsDigest) .PayloadDigestMismatch

/-- What a mandate must look like to pass steps 1-5a for a caller. -/
structure FieldsValid (env : Env) (mandate : Mandate) (currentEpoch : BitVec 64)
    (actionsLen adapterProofsLen extensionsLen maxActions maxExtensionsBytes : Nat) : Prop where
  deadline : mandate.deadline = 0 ∨ env.timestamp.toNat ≤ mandate.deadline.toNat
  executor : mandate.executor = 0 ∨ env.sender = mandate.executor
  bounded : mandate.executor ≠ 0 ∨ mandate.payloadDigest ≠ 0
  epoch : mandate.authorityEpoch = currentEpoch
  drawdown : mandate.maxDrawdownBps.toNat ≤ 10000
  cumulative : mandate.maxCumulativeDrawdownBps.toNat ≤ 10000
  drawdown_le : mandate.maxDrawdownBps.toNat ≤ mandate.maxCumulativeDrawdownBps.toNat
  root : mandate.allowedAdaptersRoot ≠ 0
  nonempty : actionsLen ≠ 0
  actions : actionsLen ≤ maxActions
  proofs : adapterProofsLen = actionsLen
  extensions : extensionsLen ≤ maxExtensionsBytes

/-- `validateFields` accepts exactly the valid fields. -/
theorem validateFields_ok (env : Env) (mandate : Mandate) (currentEpoch : BitVec 64)
    (actionsLen adapterProofsLen extensionsLen maxActions maxExtensionsBytes : Nat) :
    validateFields env mandate currentEpoch actionsLen adapterProofsLen extensionsLen
        maxActions maxExtensionsBytes = .ok ()
      ↔ FieldsValid env mandate currentEpoch actionsLen adapterProofsLen extensionsLen
        maxActions maxExtensionsBytes := by
  simp only [validateFields, bind_ok, revertIf_ok, exists_const]
  constructor
  · rintro ⟨h1, h2, h3, h4, h5, h6, h7, h8, h9, h10, h11⟩
    refine ⟨?_, ?_, ?_, not_not.mp h4, by omega, by omega, by omega, h7, h8, by omega,
      not_not.mp h10, by omega⟩
    · by_cases h : mandate.deadline = 0
      · exact Or.inl h
      · exact Or.inr (Nat.le_of_not_lt fun hlt => h1 ⟨h, hlt⟩)
    · by_cases h : mandate.executor = 0
      · exact Or.inl h
      · exact Or.inr (Classical.not_not.mp fun hne => h2 ⟨h, hne⟩)
    · by_cases h : mandate.executor = 0
      · exact Or.inr fun hp => h3 ⟨h, hp⟩
      · exact Or.inl h
  · intro h
    refine ⟨?_, ?_, ?_, not_not.mpr h.epoch, ?_, ?_, h.root, h.nonempty, ?_,
      not_not.mpr h.proofs, ?_⟩
    · rintro ⟨h0, hlt⟩
      rcases h.deadline with h' | h'
      · exact h0 h'
      · omega
    · rintro ⟨h0, hne⟩
      rcases h.executor with h' | h'
      · exact h0 h'
      · exact hne h'
    · rintro ⟨h0, hp⟩
      rcases h.bounded with h' | h'
      · exact h' h0
      · exact h' hp
    · exact Nat.not_lt.mpr h.drawdown
    · have := h.cumulative
      have := h.drawdown_le
      omega
    · exact Nat.not_lt.mpr h.actions
    · exact Nat.not_lt.mpr h.extensions

end MandateLib

/-! ## `AdapterLib` -/

namespace AdapterLib

/-- The code hash of an account without code. -/
def emptyCodehash : Bytes32 := keccak256 []

/-- `abi.encode(adapter, codeHash)`, the preimage of an adapter leaf. -/
def adapterLeaf (adapter : Address) (codeHash : Bytes32) : Bytes :=
  word (adapter.setWidth 256) ++ word codeHash

/-- `abi.encode(adapter, selector)`: a `bytes4` stands at the front of its word. -/
def selectorLeaf (adapter : Address) (selector : Bytes4) : Bytes :=
  word (adapter.setWidth 256) ++ word (selector.setWidth 256 <<< 224)

/-- The first four bytes of the call data. -/
def selectorOf (data : Bytes) : Bytes4 := BitVec.ofNat 32 (ofBigEndian (data.take 4))

/-- The loop of `validateAdapters`, at action `i`. -/
def validateAdaptersFrom (P : Platform) (env : Env) (allowedAdaptersRoot : Bytes32)
    (maxProofDepth : Nat) : Nat → List Action → List (List Bytes32) → Except Error Unit
  | _, [], _ => pure ()
  | i, action :: actions, adapterProofs => do
      let codeHash := env.codehash action.adapter
      -- Reject EOAs / precompiles / non-existent accounts
      revertIf (codeHash = 0 ∨ codeHash = emptyCodehash) .AdapterNotAllowed
      revertIf (action.value ≠ 0) .NonZeroActionValue
      match adapterProofs with
      | [] => throw (.Panic 0x32)
      | proof :: adapterProofs => do
          revertIf (maxProofDepth < proof.length) (.AdapterProofTooDeep i proof.length)
          let leaf := keccak256 (adapterLeaf action.adapter codeHash)
          revertIf (P.verify proof allowedAdaptersRoot leaf = false) .AdapterNotAllowed
          validateAdaptersFrom P env allowedAdaptersRoot maxProofDepth (i + 1) actions
            adapterProofs

/-- Each action's adapter against the Merkle allowlist (step 12). -/
def validateAdapters (P : Platform) (env : Env) (actions : List Action)
    (adapterProofs : List (List Bytes32)) (allowedAdaptersRoot : Bytes32)
    (maxProofDepth : Nat) : Except Error Unit :=
  validateAdaptersFrom P env allowedAdaptersRoot maxProofDepth 0 actions adapterProofs

/-- The loop of `enforceSelectorAllowlist`, at action `i`. -/
def enforceSelectorsFrom (P : Platform) (root : Bytes32) (maxProofDepth : Nat) :
    Nat → List Action → List (List Bytes32) → Except Error Unit
  | _, [], _ => pure ()
  | _, _ :: _, [] => throw (.Panic 0x32)
  | i, action :: actions, proof :: proofs => do
      revertIf (maxProofDepth < proof.length) (.SelectorProofTooDeep i proof.length)
      revertIf (action.data.1.length < 4) (.InvalidActionData i)
      let selector := selectorOf action.data.1
      let leaf := keccak256 (selectorLeaf action.adapter selector)
      revertIf (P.verify proof root leaf = false)
        (.SelectorNotAllowed i action.adapter selector)
      enforceSelectorsFrom P root maxProofDepth (i + 1) actions proofs

/-- Each action's selector against the Merkle allowlist (step 12a). -/
def enforceSelectorAllowlist (P : Platform) (actions : List Action) (root : Bytes32)
    (proofs : List (List Bytes32)) (maxProofDepth : Nat) : Except Error Unit := do
  revertIf (proofs.length ≠ actions.length) .InvalidExtensionsEncoding
  enforceSelectorsFrom P root maxProofDepth 0 actions proofs

/-- What the loop of `validateAdapters` has checked of one action and its proof. -/
structure AdapterChecked (env : Env) (root : Bytes32) (maxProofDepth : Nat)
    (action : Action) (proof : List Bytes32) : Prop where
  exists_code : env.codehash action.adapter ≠ 0
  has_code : env.codehash action.adapter ≠ emptyCodehash
  value : action.value = 0
  depth : proof.length ≤ maxProofDepth
  member : processProof proof
    (keccak256 (adapterLeaf action.adapter (env.codehash action.adapter))) = root

/-- The loop accepts exactly if there is a checked proof for every action.  Induction on
    the actions. -/
theorem validateAdaptersFrom_ok (P : Platform) (env : Env) (root : Bytes32)
    (maxProofDepth : Nat) :
    ∀ (actions : List Action) (i : Nat) (proofs : List (List Bytes32)),
      validateAdaptersFrom P env root maxProofDepth i actions proofs = .ok ()
        ↔ ∃ used rest, proofs = used ++ rest ∧
          List.Forall₂ (AdapterChecked env root maxProofDepth) actions used := by
  intro actions
  induction actions with
  | nil =>
      intro i proofs
      simp only [validateAdaptersFrom, pure_ok, true_iff]
      exact ⟨[], proofs, rfl, .nil⟩
  | cons action actions ih =>
      intro i proofs
      cases proofs with
      | nil =>
          simp only [validateAdaptersFrom, bind_ok, throw_ok, and_false, exists_false,
            false_iff]
          rintro ⟨used, rest, hsplit, hall⟩
          obtain ⟨rfl, rfl⟩ : used = [] ∧ rest = [] := by simpa using hsplit.symm
          exact nomatch hall
      | cons proof proofs =>
          simp only [validateAdaptersFrom, bind_ok, revertIf_ok, exists_const, ih,
            Bool.not_eq_false, P.verify_iff, not_or, not_lt, not_not]
          constructor
          · rintro ⟨⟨h1, h2⟩, h3, h4, h5, used, rest, rfl, hall⟩
            exact ⟨proof :: used, rest, rfl, .cons ⟨h1, h2, h3, h4, h5⟩ hall⟩
          · rintro ⟨used, rest, hsplit, hall⟩
            cases hall with
            | cons hhead htail =>
                obtain ⟨rfl, rfl⟩ := List.cons.inj hsplit
                exact ⟨⟨hhead.exists_code, hhead.has_code⟩, hhead.value, hhead.depth,
                  hhead.member, _, rest, rfl, htail⟩

/-- `validateAdapters` accepts exactly if every action's adapter has code, carries no
    value, and has a proof of bounded depth from its leaf to the root. -/
theorem validateAdapters_ok (P : Platform) (env : Env) (actions : List Action)
    (proofs : List (List Bytes32)) (root : Bytes32) (maxProofDepth : Nat) :
    validateAdapters P env actions proofs root maxProofDepth = .ok ()
      ↔ ∃ used rest, proofs = used ++ rest ∧
        List.Forall₂ (AdapterChecked env root maxProofDepth) actions used :=
  validateAdaptersFrom_ok P env root maxProofDepth actions 0 proofs

end AdapterLib

/-! ## `DrawdownLib` -/

namespace DrawdownLib

/-- Single-execution drawdown. -/
def checkSingleDrawdown (preAssets postAssets : Uint256) (maxDrawdownBps : BitVec 16) :
    Except Error Unit :=
  if preAssets ≠ 0 ∧ postAssets < preAssets then do
    let loss ← checkedSub preAssets postAssets
    let scaledLoss ← checkedMul loss 10000
    let limit ← checkedMul preAssets (maxDrawdownBps.setWidth 256)
    revertIf (limit < scaledLoss) .DrawdownExceeded
  else pure ()

/-- Absolute single-execution loss. -/
def checkSingleAbsoluteLoss (preAssets postAssets maxSingleAbsoluteLoss : Uint256) :
    Except Error Unit :=
  if postAssets < preAssets then do
    let loss ← checkedSub preAssets postAssets
    revertIf (maxSingleAbsoluteLoss < loss) .AbsoluteLossExceeded
  else pure ()

/-- Cumulative drawdown; the new high-water mark. -/
def checkCumulativeDrawdown (epochAssets postAssets : Uint256)
    (maxCumulativeDrawdownBps : BitVec 16) : Except Error Uint256 := do
  let _ ← (if epochAssets ≠ 0 ∧ postAssets < epochAssets then do
    let cumulativeLoss ← checkedSub epochAssets postAssets
    let scaledLoss ← checkedMul cumulativeLoss 10000
    let limit ← checkedMul epochAssets (maxCumulativeDrawdownBps.setWidth 256)
    revertIf (limit < scaledLoss) .CumulativeDrawdownExceeded
  else pure () : Except Error Unit)
  -- High-water mark update
  return if epochAssets < postAssets then postAssets else epochAssets

/-- A loss from `reference` down to `post` is within `bps` basis points. -/
def Within (reference post bps : Nat) : Prop :=
  reference ≤ post ∨ (reference - post) * 10000 ≤ reference * bps

/-- The scaled comparison both percentage checks make. -/
theorem scaled_ok (reference post : Uint256) (bps : BitVec 16) (e : Error)
    (hlt : post < reference) :
    (do
      let loss ← checkedSub reference post
      let scaledLoss ← checkedMul loss 10000
      let limit ← checkedMul reference (bps.setWidth 256)
      revertIf (limit < scaledLoss) e : Except Error Unit) = .ok ()
      ↔ (reference.toNat - post.toNat) * 10000 < 2 ^ 256
        ∧ reference.toNat * bps.toNat < 2 ^ 256
        ∧ (reference.toNat - post.toNat) * 10000 ≤ reference.toNat * bps.toNat := by
  have hle : post.toNat ≤ reference.toNat := Nat.le_of_lt hlt
  have hbps : (bps.setWidth 256).toNat = bps.toNat := by
    rw [BitVec.toNat_setWidth]
    exact Nat.mod_eq_of_lt (Nat.lt_of_lt_of_le bps.isLt (by omega))
  simp only [bind_ok, checkedSub_ok, checkedMul_ok, revertIf_ok, hbps]
  constructor
  · rintro ⟨loss, ⟨_, hloss⟩, scaled, ⟨hs, hscaled⟩, limit, ⟨hl, hlimit⟩, hnot⟩
    have hcmp : scaled.toNat ≤ limit.toNat := Nat.le_of_not_lt hnot
    rw [hscaled, hlimit, hloss] at hcmp
    rw [hloss] at hs
    exact ⟨hs, hl, hcmp⟩
  · rintro ⟨hs, hl, hcmp⟩
    have hlossLt : reference.toNat - post.toNat < 2 ^ 256 :=
      Nat.lt_of_le_of_lt (Nat.sub_le _ _) reference.isLt
    refine ⟨BitVec.ofNat 256 (reference.toNat - post.toNat), ⟨hle, ?_⟩,
      BitVec.ofNat 256 ((reference.toNat - post.toNat) * 10000), ⟨?_, ?_⟩,
      BitVec.ofNat 256 (reference.toNat * bps.toNat), ⟨hl, ?_⟩, ?_⟩
    · rw [BitVec.toNat_ofNat, Nat.mod_eq_of_lt hlossLt]
    · rw [BitVec.toNat_ofNat, Nat.mod_eq_of_lt hlossLt]
      exact hs
    · rw [BitVec.toNat_ofNat, BitVec.toNat_ofNat, Nat.mod_eq_of_lt hs,
        Nat.mod_eq_of_lt hlossLt]
      rfl
    · rw [BitVec.toNat_ofNat, Nat.mod_eq_of_lt hl]
    · rw [BitVec.lt_def, BitVec.toNat_ofNat, BitVec.toNat_ofNat, Nat.mod_eq_of_lt hs,
        Nat.mod_eq_of_lt hl]
      exact Nat.not_lt.mpr hcmp

/-- An accepted single drawdown is within the limit, over the unbounded integers. -/
theorem within_of_checkSingleDrawdown {pre post : Uint256} {bps : BitVec 16}
    (h : checkSingleDrawdown pre post bps = .ok ()) :
    Within pre.toNat post.toNat bps.toNat := by
  rw [checkSingleDrawdown] at h
  by_cases hc : pre ≠ 0 ∧ post < pre
  · rw [if_pos hc, scaled_ok pre post bps _ hc.2] at h
    exact Or.inr h.2.2
  · refine Or.inl (Nat.le_of_not_lt fun hlt => hc ⟨?_, hlt⟩)
    rintro rfl
    exact Nat.not_lt_zero _ hlt

/-- An accepted absolute loss is at most the limit. -/
theorem checkSingleAbsoluteLoss_ok (pre post limit : Uint256) :
    checkSingleAbsoluteLoss pre post limit = .ok ()
      ↔ pre.toNat - post.toNat ≤ limit.toNat := by
  rw [checkSingleAbsoluteLoss]
  by_cases hc : post < pre
  · rw [if_pos hc]
    simp only [bind_ok, checkedSub_ok, revertIf_ok]
    have hle : post.toNat ≤ pre.toNat := Nat.le_of_lt hc
    constructor
    · rintro ⟨loss, ⟨_, hloss⟩, hnot⟩
      rw [← hloss]
      exact Nat.le_of_not_lt hnot
    · intro h
      have hlossLt : pre.toNat - post.toNat < 2 ^ 256 :=
        Nat.lt_of_le_of_lt (Nat.sub_le _ _) pre.isLt
      refine ⟨BitVec.ofNat 256 (pre.toNat - post.toNat), ⟨hle, ?_⟩, ?_⟩
      · rw [BitVec.toNat_ofNat, Nat.mod_eq_of_lt hlossLt]
      · rw [BitVec.lt_def, BitVec.toNat_ofNat, Nat.mod_eq_of_lt hlossLt]
        exact Nat.not_lt.mpr h
  · rw [if_neg hc]
    have hle : pre.toNat ≤ post.toNat := Nat.le_of_not_lt hc
    exact ⟨fun _ => by omega, fun _ => rfl⟩

/-- An accepted cumulative drawdown is within the limit, and the new mark is the larger
    of the old one and the assets seen. -/
theorem within_of_checkCumulativeDrawdown {epoch post mark : Uint256} {bps : BitVec 16}
    (h : checkCumulativeDrawdown epoch post bps = .ok mark) :
    Within epoch.toNat post.toNat bps.toNat ∧ mark.toNat = max epoch.toNat post.toNat := by
  rw [checkCumulativeDrawdown] at h
  obtain ⟨_, hcheck, hmark⟩ := (bind_ok _ _ _).mp h
  rw [pure_ok] at hmark
  constructor
  · by_cases hc : epoch ≠ 0 ∧ post < epoch
    · rw [if_pos hc, scaled_ok epoch post bps _ hc.2] at hcheck
      exact Or.inr hcheck.2.2
    · refine Or.inl (Nat.le_of_not_lt fun hlt => hc ⟨?_, hlt⟩)
      rintro rfl
      exact Nat.not_lt_zero _ hlt
  · rw [← hmark]
    by_cases hc : epoch < post
    · rw [if_pos hc, Nat.max_eq_right (Nat.le_of_lt hc)]
    · rw [if_neg hc, Nat.max_eq_left (Nat.le_of_not_lt hc)]

/-- A limit of everything is no limit, as long as the products fit in a word. -/
theorem scaled_of_whole {reference post : Uint256} {bps : BitVec 16} (hbps : bps.toNat = 10000)
    (hfit : reference.toNat * 10000 < 2 ^ 256) :
    (reference.toNat - post.toNat) * 10000 < 2 ^ 256
      ∧ reference.toNat * bps.toNat < 2 ^ 256
      ∧ (reference.toNat - post.toNat) * 10000 ≤ reference.toNat * bps.toNat := by
  have hle : (reference.toNat - post.toNat) * 10000 ≤ reference.toNat * 10000 :=
    Nat.mul_le_mul_right _ (Nat.sub_le _ _)
  rw [hbps]
  exact ⟨Nat.lt_of_le_of_lt hle hfit, hfit, hle⟩

theorem checkSingleDrawdown_of_whole {pre : Uint256} {bps : BitVec 16} (post : Uint256)
    (hbps : bps.toNat = 10000) (hfit : pre.toNat * 10000 < 2 ^ 256) :
    checkSingleDrawdown pre post bps = .ok () := by
  rw [checkSingleDrawdown]
  by_cases hc : pre ≠ 0 ∧ post < pre
  · rw [if_pos hc, scaled_ok pre post bps _ hc.2]
    exact scaled_of_whole hbps hfit
  · rw [if_neg hc]
    rfl

theorem checkCumulativeDrawdown_of_whole {epoch : Uint256} {bps : BitVec 16} (post : Uint256)
    (hbps : bps.toNat = 10000) (hfit : epoch.toNat * 10000 < 2 ^ 256) :
    checkCumulativeDrawdown epoch post bps
      = .ok (if epoch < post then post else epoch) := by
  rw [checkCumulativeDrawdown]
  refine (bind_ok _ _ _).mpr ⟨(), ?_, rfl⟩
  by_cases hc : epoch ≠ 0 ∧ post < epoch
  · rw [if_pos hc, scaled_ok epoch post bps _ hc.2]
    exact scaled_of_whole hbps hfit
  · rw [if_neg hc]
    rfl

end DrawdownLib

end Vault
