import MandatedVaultFactory.VaultCloneProofs

/-!
# The reference implementation

`MandatedVault`, as printed in the specification: one contract with a constructor, and an
`execute` that makes all its checks itself.  What the specification prints exactly as the
clone has it (authority, nonces, epoch, signature check, share overrides) is taken from
the clone's model.  The differences:

* **`MandatedVault.execute`** — extensions are decoded right after their hash is checked
  (step 6a), before the signature; the only known extension is the selector allowlist;
  return data is copied without a cap.
* **`MandatedVault.sweepNative`** — the event comes after the call.
* There is no `initialize`. -/

namespace Vault

open CallTree Encoding Keccak

namespace MandatedVault

/-- `_supportsExtension`. -/
def supportsExtension (id : Bytes4) : Bool := id = selectorAllowlistId

/-- The local variables that step 6a fills. -/
structure DecodedExtensions where
  hasSelectorAllowlist : Bool := false
  selectorRoot : Bytes32 := 0
  selectorProofs : List (List Bytes32) := []

/-- One round of the second loop of step 6a. -/
def decodeExtension (P : Platform) (decoded : DecodedExtensions) (ext : Extension) :
    Except Error DecodedExtensions := do
  revertIf (ext.required = true ∧ supportsExtension ext.id = false)
    (.UnsupportedRequiredExtension ext.id)
  if ext.id = selectorAllowlistId then
    match P.decodeSelectorAllowlist ext.data with
    | some (root, proofs) =>
        return { decoded with
          hasSelectorAllowlist := true, selectorRoot := root, selectorProofs := proofs }
    | none => throw .InvalidExtensionsEncoding
  else return decoded

/-- Step 6a. -/
def decodeExtensions (P : Platform) (extensions : Bytes) : Except Error DecodedExtensions :=
  if extensions.length ≠ 0 then
    match P.decodeExtensions extensions with
    | some exts => do
        revertIf (maxExtensions < exts.length) (.TooManyExtensions exts.length)
        revertIf (canonicalExtensions exts = false) .ExtensionsNotCanonical
        exts.foldlM (decodeExtension P) {}
    | none => throw .InvalidExtensionsEncoding
  else return {}

/-- The loop of step 12, at action `i`. -/
def checkAdaptersFrom (P : Platform) (env : Env) (mandate : Mandate) :
    Nat → List Action → List (List Bytes32) → Except Error Unit
  | _, [], _ => pure ()
  | _, action :: _, [] => do
      let codeHash := env.codehash action.adapter
      revertIf (codeHash = 0 ∨ codeHash = AdapterLib.emptyCodehash) .AdapterNotAllowed
      revertIf (action.value ≠ 0) .NonZeroActionValue
      throw (.Panic 0x32)
  | i, action :: actions, proof :: adapterProofs => do
      let codeHash := env.codehash action.adapter
      revertIf (codeHash = 0 ∨ codeHash = AdapterLib.emptyCodehash) .AdapterNotAllowed
      revertIf (action.value ≠ 0) .NonZeroActionValue
      revertIf (maxAdapterProofDepth < proof.length) (.AdapterProofTooDeep i proof.length)
      let leaf := keccak256 (AdapterLib.adapterLeaf action.adapter codeHash)
      revertIf (P.verify proof mandate.allowedAdaptersRoot leaf = false) .AdapterNotAllowed
      checkAdaptersFrom P env mandate (i + 1) actions adapterProofs

/-- The loop of `_enforceSelectorAllowlist`, at action `i`. -/
def enforceSelectorsFrom (P : Platform) (root : Bytes32) :
    Nat → List Action → List (List Bytes32) → Except Error Unit
  | _, [], _ => pure ()
  | _, _ :: _, [] => throw (.Panic 0x32)
  | i, action :: actions, proof :: proofs => do
      revertIf (maxSelectorProofDepth < proof.length) (.SelectorProofTooDeep i proof.length)
      revertIf (action.data.1.length < 4) (.InvalidActionData i)
      let selector := AdapterLib.selectorOf action.data.1
      let leaf := keccak256 (AdapterLib.selectorLeaf action.adapter selector)
      revertIf (P.verify proof root leaf = false)
        (.SelectorNotAllowed i action.adapter selector)
      enforceSelectorsFrom P root (i + 1) actions proofs

def enforceSelectorAllowlist (P : Platform) (actions : List Action) (root : Bytes32)
    (proofs : List (List Bytes32)) : Except Error Unit := do
  revertIf (proofs.length ≠ actions.length) .InvalidExtensionsEncoding
  enforceSelectorsFrom P root 0 actions proofs

/-- Steps 1-12a of `execute`: the authority, the mandate's hash and the actions' digest. -/
def validate (P : Platform) (env : Env) (mandate : Mandate) (actions : List Action)
    (signature : Bytes) (adapterProofs : List (List Bytes32)) (extensions : Bytes)
    (w : World) : Except Error ((Address × Bytes32 × Bytes32) × World) := do
  -- 1. Mandate expiry
  revertIf (mandate.deadline ≠ 0 ∧ mandate.deadline.toNat < env.timestamp.toNat)
    .MandateExpired
  -- 2. Executor restriction
  revertIf (mandate.executor ≠ 0 ∧ env.sender ≠ mandate.executor) .UnauthorizedExecutor
  -- 3. Open mandate safety
  revertIf (mandate.executor = 0 ∧ mandate.payloadDigest = 0) .UnboundedOpenMandate
  -- 4. Authority epoch
  revertIf (mandate.authorityEpoch ≠ w.authorityEpoch) .AuthorityEpochMismatch
  -- 5. Mandate constraints
  revertIf (10000 < mandate.maxDrawdownBps.toNat) .InvalidDrawdownBps
  revertIf (10000 < mandate.maxCumulativeDrawdownBps.toNat ∨
    mandate.maxCumulativeDrawdownBps.toNat < mandate.maxDrawdownBps.toNat)
    .InvalidCumulativeDrawdownBps
  revertIf (mandate.allowedAdaptersRoot = 0) .InvalidAdaptersRoot
  -- 5a. Input size limits
  revertIf (actions.length = 0) .EmptyActions
  revertIf (maxActions < actions.length) (.TooManyActions actions.length)
  revertIf (adapterProofs.length ≠ actions.length) .AdapterNotAllowed
  revertIf (maxExtensionsBytes < extensions.length) (.ExtensionsTooLarge extensions.length)
  -- 6. Extensions hash
  revertIf (keccak256 extensions ≠ mandate.extensionsHash) .ExtensionsHashMismatch
  -- 6a. Decode extensions
  let decoded ← decodeExtensions P extensions
  -- 7. Mandate hash & revocation
  let mandateHash := hashMandate P env.chainId w.self mandate
  revertIf (w.mandateRevoked mandateHash = true) .MandateIsRevoked
  -- 8. Authority signature
  let authority := w.authority
  verifyAuthoritySig P env authority mandateHash signature
  -- 9. Replay protection
  revertIf (mandate.nonce < w.nonceThreshold authority) .NonceBelowThreshold
  revertIf (w.nonceUsed authority mandate.nonce = true) .NonceAlreadyUsed
  let w := w.useNonce authority mandate.nonce
  -- 10. Payload binding
  let actionsDigest := keccak256 (abiEncodeActions actions)
  revertIf (mandate.payloadDigest ≠ 0 ∧ mandate.payloadDigest ≠ actionsDigest)
    .PayloadDigestMismatch
  -- 12. Adapter allowlist
  checkAdaptersFrom P env mandate 0 actions adapterProofs
  -- 12a. Selector allowlist
  if decoded.hasSelectorAllowlist then do
    enforceSelectorAllowlist P actions decoded.selectorRoot decoded.selectorProofs
    return ((authority, mandateHash, actionsDigest), w)
  else return ((authority, mandateHash, actionsDigest), w)

/-- Step 14, at action `i`. -/
def executeActionsFrom : Nat → List Action → VaultCode Unit
  | _, [] => pure ()
  | i, action :: actions => do
      match ← externalCall (.adapter action.adapter action.value action.data) with
      | .error returndata => Code.throw (.ActionCallFailed i returndata)
      | .ok () => executeActionsFrom (i + 1) actions

/-- Steps 15-17. -/
def finish (env : Env) (call : Call) (mandate : Mandate) (preAssets : Uint256)
    (authority : Address) (mandateHash actionsDigest : Bytes32) (w : World) :
    Except Error (Uint256 × World) := do
  let postAssets := totalAssets w
  -- Single-execution drawdown check
  let _ ← (if preAssets ≠ 0 ∧ postAssets < preAssets then do
    let loss ← checkedSub preAssets postAssets
    let scaledLoss ← checkedMul loss 10000
    let limit ← checkedMul preAssets (mandate.maxDrawdownBps.setWidth 256)
    revertIf (limit < scaledLoss) .DrawdownExceeded
  else pure () : Except Error Unit)
  -- Cumulative drawdown check
  let eAssets := w.epochAssets
  let _ ← (if eAssets ≠ 0 ∧ postAssets < eAssets then do
    let cumulativeLoss ← checkedSub eAssets postAssets
    let scaledLoss ← checkedMul cumulativeLoss 10000
    let limit ← checkedMul eAssets (mandate.maxCumulativeDrawdownBps.setWidth 256)
    revertIf (limit < scaledLoss) .CumulativeDrawdownExceeded
  else pure () : Except Error Unit)
  -- High-water mark update
  let w := if eAssets < postAssets then { w with epochAssets := postAssets } else w
  return (postAssets, w.emit env call
    (.MandateExecuted mandateHash authority env.sender actionsDigest preAssets postAssets))

def execute (P : Platform) (env : Env) (mandate : Mandate) (actions : List Action)
    (signature : Bytes) (adapterProofs : List (List Bytes32)) (extensions : Bytes) :
    VaultCode Value :=
  nonReentrant do
    let (authority, mandateHash, actionsDigest) ← Code.inline
      (validate P env mandate actions signature adapterProofs extensions)
    let preAssets ← Code.inline fun w => .ok (snapshot env w)
    executeActionsFrom 0 actions
    let postAssets ← Code.inline (finish env
      (.execute mandate actions signature adapterProofs extensions) mandate preAssets
      authority mandateHash actionsDigest)
    return .assets preAssets postAssets

def sweepNative (env : Env) (recipient : Address) (amount : Uint256) : VaultCode Value := do
  let w ← Code.get
  if env.sender ≠ w.authority then Code.throw .NotAuthority
  else if recipient = 0 then Code.throw .ZeroAddressRecipient
  else do
    match ← externalCall (.native recipient amount) with
    | .ok () => do
        let w ← Code.get
        Code.set (w.emit env (.sweepNative recipient amount) (.NativeSwept recipient amount))
        return .none
    | .error _ => Code.throw .NativeSweepFailed

/-- The entry point a call reaches.  A call of `initialize` reaches none, and fails. -/
def dispatch (P : Platform) (env : Env) : Call → VaultCode Value
  | .initializeVault .. => Code.throw .InvalidInitialization
  | .proposeAuthority newAuthority => atomic (proposeAuthority env newAuthority)
  | .acceptAuthority => atomic (acceptAuthority env)
  | .resetEpoch => atomic (resetEpoch env)
  | .invalidateNonce nonce => atomic (invalidateNonce env nonce)
  | .invalidateNoncesBelow threshold => atomic (invalidateNoncesBelow env threshold)
  | .revokeMandate mandateHash => atomic (revokeMandate env mandateHash)
  | .execute mandate actions signature adapterProofs extensions =>
      execute P env mandate actions signature adapterProofs extensions
  | .share op => shareOp P env op
  | .erc20 op => do
      updateShares (P.erc20 env.sender op)
      return .none
  | .sweepNative recipient amount => sweepNative env recipient amount

end MandatedVault

/-- One reference vault. -/
def referenceMachine (P : Platform) :
    Machine World Msg Bytes Error Value Invocation Move where
  body c := MandatedVault.dispatch P c.env c.call
  move := applyMove
  view w := { w with status := 0, log := [] }

end Vault
