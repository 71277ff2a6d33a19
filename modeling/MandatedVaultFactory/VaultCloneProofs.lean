import MandatedVaultFactory.VaultLibsProofs

/-!
# `MandatedVaultClone`

Every entry point of the contract that can change its state, written as code that may
call out (`CallTree.Code`), and the machine they make up, `vaultMachine`.

* Entry points without an external call are functions `World → Except Error World`.
* **`execute`** is split as in the source: `validateMandate`, `snapshot` (step 13),
  `executeActions`, `postExecution`, inside `nonReentrant`.
* The share entry points call the token, `sweepNative` its recipient. -/

namespace Vault

open CallTree Encoding Keccak

/-- Code of the vault. -/
abbrev VaultCode (α : Type) : Type := Code World Msg Bytes Error α

/-- What the outside does around and between the vault's calls. -/
abbrev VaultScript : Type := Script World Msg Bytes Error Value Invocation Move

/-! ## Constants -/

/-- The magic value of ERC-1271, `0x1626ba7e`. -/
def erc1271MagicValue : Bytes4 := 0x1626ba7e

/-- `bytes4` of a digest: its first four bytes. -/
def bytes4 (digest : Bytes32) : Bytes4 := (digest >>> 224).setWidth 32

def selectorAllowlistId : Bytes4 := bytes4 (keccak256 (utf8 "erc-8192:selector-allowlist@v1"))

def absoluteLossLimitId : Bytes4 := bytes4 (keccak256 (utf8 "erc-8192:absolute-loss-limit@v1"))

def mandateTypehash : Bytes32 := keccak256 (utf8 <|
  "Mandate(address executor,uint256 nonce,uint48 deadline,uint64 authorityEpoch," ++
  "uint16 maxDrawdownBps,uint16 maxCumulativeDrawdownBps,bytes32 allowedAdaptersRoot," ++
  "bytes32 payloadDigest,bytes32 extensionsHash)")

def maxActions : Nat := 32

def maxExtensions : Nat := 16

def maxAdapterProofDepth : Nat := 64

def maxSelectorProofDepth : Nat := 64

def maxExtensionsBytes : Nat := 131072

def maxReturndataBytes : Nat := 4096

/-! ## Views -/

/-- `totalAssets()` of `ERC4626`: the vault's balance of the asset. -/
def totalAssets (w : World) : Uint256 := w.assetBalance

/-- `abi.encode` of one action: its head, then its data behind the offset `0x60`. -/
def abiEncodeAction (action : Action) : Bytes :=
  word (action.adapter.setWidth 256) ++ word action.value ++ word 0x60
    ++ lengthPrefixed action.data

/-- The offsets in the head of an array whose elements have the given encodings. -/
def offsets : Nat → List Bytes → List Bytes
  | _, [] => []
  | next, e :: es => word (BitVec.ofNat 256 next) :: offsets (next + e.length) es

/-- `abi.encode(actions)`: one dynamic argument, behind the offset `0x20`. -/
def abiEncodeActions (actions : List Action) : Bytes :=
  let tails := actions.map abiEncodeAction
  word 0x20 ++ word (BitVec.ofNat 256 actions.length)
    ++ (offsets (32 * actions.length) tails).flatten ++ tails.flatten

def hashActions (actions : List Action) : Bytes32 := keccak256 (abiEncodeActions actions)

/-- What `hashMandate` hashes first: the type hash and the nine fields, a word each. -/
def abiEncodeMandate (mandate : Mandate) : Bytes :=
  word mandateTypehash
    ++ word (mandate.executor.setWidth 256)
    ++ word mandate.nonce
    ++ word (mandate.deadline.setWidth 256)
    ++ word (mandate.authorityEpoch.setWidth 256)
    ++ word (mandate.maxDrawdownBps.setWidth 256)
    ++ word (mandate.maxCumulativeDrawdownBps.setWidth 256)
    ++ word mandate.allowedAdaptersRoot
    ++ word mandate.payloadDigest
    ++ word mandate.extensionsHash

def hashMandate (P : Platform) (chainId : Uint256) (vault : Address) (mandate : Mandate) :
    Bytes32 :=
  P.hashTypedDataV4 chainId vault (keccak256 (abiEncodeMandate mandate))

/-! ## Entry points that make no external call -/

/-- `initialize`, behind the `initializer` modifier: only the first call passes. -/
def initializeVault (asset : Address) (name symbol : Bytes) (authority : Address) (w : World) :
    Except Error World := do
  revertIf (w.initialized ≠ 0) .InvalidInitialization
  revertIf (authority = 0) .ZeroAddressAuthority
  revertIf (asset = 0) .ZeroAddressAsset
  return { w with
    initialized := 1, name := name, symbol := symbol, asset := asset, authority := authority }

def proposeAuthority (env : Env) (newAuthority : Address) (w : World) :
    Except Error World := do
  revertIf (env.sender ≠ w.authority) .NotAuthority
  return { w with pendingAuthority := newAuthority }.emit env (.proposeAuthority newAuthority)
    (.AuthorityProposed w.authority newAuthority)

def acceptAuthority (env : Env) (w : World) : Except Error World := do
  revertIf (env.sender ≠ w.pendingAuthority) .NotAuthority
  return { w with
    authority := w.pendingAuthority
    pendingAuthority := 0
    authorityEpoch := w.authorityEpoch + 1 }.emit env .acceptAuthority
      (.AuthorityTransferred w.authority w.pendingAuthority)

def resetEpoch (env : Env) (w : World) : Except Error World := do
  revertIf (env.sender ≠ w.authority) .NotAuthority
  return { w with
    epochAssets := totalAssets w
    epochStart := env.timestamp.setWidth 48 }.emit env .resetEpoch
      (.EpochReset w.authority (totalAssets w) (env.timestamp.setWidth 48))

def invalidateNonce (env : Env) (nonce : Uint256) (w : World) : Except Error World := do
  revertIf (env.sender ≠ w.authority) .NotAuthority
  return (w.useNonce w.authority nonce).emit env (.invalidateNonce nonce)
    (.NonceInvalidated w.authority nonce)

def invalidateNoncesBelow (env : Env) (threshold : Uint256) (w : World) :
    Except Error World := do
  revertIf (env.sender ≠ w.authority) .NotAuthority
  revertIf (threshold ≤ w.nonceThreshold w.authority) .ThresholdNotIncreased
  return { w with
    nonceThreshold := Function.update w.nonceThreshold w.authority threshold }.emit env
      (.invalidateNoncesBelow threshold) (.NoncesInvalidatedBelow w.authority threshold)

def revokeMandate (env : Env) (mandateHash : Bytes32) (w : World) : Except Error World := do
  revertIf (env.sender ≠ w.authority) .NotAuthority
  return { w with
    mandateRevoked := Function.update w.mandateRevoked mandateHash true }.emit env
      (.revokeMandate mandateHash) (.MandateRevoked mandateHash w.authority)

/-! ## External calls and the reentrancy guard -/

/-- An external call with the message's native value; without the balance to cover it
    the call fails at once and returns no data. -/
def externalCall (m : Msg) : VaultCode (Except Bytes Unit) := do
  let w ← Code.get
  if w.nativeBalance < m.value then return .error []
  else Code.external m fun w => { w with nativeBalance := w.nativeBalance - m.value }

/-- `_reentrancyGuardEntered()`: only the value 2 counts as entered. -/
abbrev World.entered (w : World) : Prop := w.status = 2

/-- The modifier of `ReentrancyGuard`. -/
def nonReentrant {α : Type} (body : VaultCode α) : VaultCode α := do
  let w ← Code.get
  if w.entered then Code.throw .ReentrancyGuardReentrantCall
  else do
    Code.set { w with status := 2 }
    let a ← body
    let w ← Code.get
    Code.set { w with status := 1 }
    return a

/-! ## `execute`: validation -/

/-- Does this vault know the extension? -/
def supportsExtension (id : Bytes4) : Bool :=
  id = selectorAllowlistId || id = absoluteLossLimitId

/-- What `_parseExtensions` returns. -/
structure ParsedExtensions where
  hasSelectorAllowlist : Bool := false
  selectorRoot : Bytes32 := 0
  selectorProofs : List (List Bytes32) := []
  hasAbsoluteLossLimit : Bool := false
  maxSingleAbsoluteLoss : Uint256 := 0

/-- The first loop of `_parseExtensions`: ids in strictly ascending order. -/
def canonicalExtensions : List Extension → Bool
  | a :: b :: exts => a.id < b.id && canonicalExtensions (b :: exts)
  | _ => true

/-- One round of the second loop of `_parseExtensions`. -/
def parseExtension (P : Platform) (parsed : ParsedExtensions) (ext : Extension) :
    Except Error ParsedExtensions := do
  revertIf (ext.required = true ∧ supportsExtension ext.id = false)
    (.UnsupportedRequiredExtension ext.id)
  if ext.id = selectorAllowlistId then
    match P.decodeSelectorAllowlist ext.data with
    | some (root, proofs) =>
        return { parsed with
          hasSelectorAllowlist := true, selectorRoot := root, selectorProofs := proofs }
    | none => throw .InvalidExtensionsEncoding
  else if ext.id = absoluteLossLimitId then
    match P.decodeAbsoluteLossLimit ext.data with
    | some threshold =>
        return { parsed with hasAbsoluteLossLimit := true, maxSingleAbsoluteLoss := threshold }
    | none => throw .InvalidExtensionsEncoding
  else return parsed

def parseExtensions (P : Platform) (extensions : Bytes) : Except Error ParsedExtensions :=
  match P.decodeExtensions extensions with
  | none => throw .InvalidExtensionsEncoding
  | some exts => do
      revertIf (maxExtensions < exts.length) (.TooManyExtensions exts.length)
      revertIf (canonicalExtensions exts = false) .ExtensionsNotCanonical
      exts.foldlM (parseExtension P) {}

/-- Adapter and selector allowlists (steps 12 and 12a); the absolute loss limit. -/
def validateAllowlists (P : Platform) (env : Env) (mandate : Mandate) (actions : List Action)
    (adapterProofs : List (List Bytes32)) (extensions : Bytes) : Except Error Uint256 := do
  AdapterLib.validateAdapters P env actions adapterProofs mandate.allowedAdaptersRoot
    maxAdapterProofDepth
  if extensions.length = 0 then return BitVec.allOnes 256
  else do
    let parsed ← parseExtensions P extensions
    let maxSingleAbsoluteLoss :=
      if parsed.hasAbsoluteLossLimit then parsed.maxSingleAbsoluteLoss else BitVec.allOnes 256
    if parsed.hasSelectorAllowlist then do
      AdapterLib.enforceSelectorAllowlist P actions parsed.selectorRoot parsed.selectorProofs
        maxSelectorProofDepth
      return maxSingleAbsoluteLoss
    else return maxSingleAbsoluteLoss

/-- Is the signature the authority's?  ECDSA for accounts without code, ERC-1271 for
    contracts: at least a word returned, the first one the magic value, left-aligned. -/
def signatureValid (P : Platform) (env : Env) (authority : Address) (digest : Bytes32)
    (signature : Bytes) : Bool :=
  if (env.code authority).length = 0 then
    P.tryRecoverCalldata digest signature = some authority
  else
    match env.isValidSignature authority digest signature with
    | none => false
    | some ret =>
        32 ≤ ret.length && ret.take 32 = word (erc1271MagicValue.setWidth 256 <<< 224)

def verifyAuthoritySig (P : Platform) (env : Env) (authority : Address) (digest : Bytes32)
    (signature : Bytes) : Except Error Unit :=
  revertIf (signatureValid P env authority digest signature = false) .InvalidSignature

def consumeNonce (authority : Address) (nonce : Uint256) (w : World) : Except Error World := do
  revertIf (nonce < w.nonceThreshold authority) .NonceBelowThreshold
  revertIf (w.nonceUsed authority nonce = true) .NonceAlreadyUsed
  return w.useNonce authority nonce

/-- What `_validateMandate` returns. -/
structure Validated where
  authority : Address
  mandateHash : Bytes32
  actionsDigest : Bytes32
  maxSingleAbsoluteLoss : Uint256

/-- Steps 1-12a. -/
def validateMandate (P : Platform) (env : Env) (mandate : Mandate) (actions : List Action)
    (signature : Bytes) (adapterProofs : List (List Bytes32)) (extensions : Bytes)
    (w : World) : Except Error (Validated × World) := do
  -- Steps 1-5a: mandate field validation
  MandateLib.validateFields env mandate w.authorityEpoch actions.length adapterProofs.length
    extensions.length maxActions maxExtensionsBytes
  -- Step 6: extensions hash
  revertIf (keccak256 extensions ≠ mandate.extensionsHash) .ExtensionsHashMismatch
  -- Step 7: mandate hash and revocation
  let mandateHash := hashMandate P env.chainId w.self mandate
  revertIf (w.mandateRevoked mandateHash = true) .MandateIsRevoked
  -- Step 8: signature
  let authority := w.authority
  verifyAuthoritySig P env authority mandateHash signature
  -- Step 9: nonce
  let w ← consumeNonce authority mandate.nonce w
  -- Step 10: payload binding
  let actionsDigest := hashActions actions
  MandateLib.validatePayloadDigest mandate.payloadDigest actionsDigest
  -- Steps 12-12a: allowlists
  let maxSingleAbsoluteLoss ←
    validateAllowlists P env mandate actions adapterProofs extensions
  return ({ authority := authority, mandateHash := mandateHash,
            actionsDigest := actionsDigest, maxSingleAbsoluteLoss := maxSingleAbsoluteLoss }, w)

/-! ## `execute`: actions and circuit breaker -/

/-- Step 13: the assets before, and the start of the first epoch. -/
def snapshot (env : Env) (w : World) : Uint256 × World :=
  let preAssets := totalAssets w
  if w.epochStart = 0 then
    (preAssets, { w with epochStart := env.timestamp.setWidth 48, epochAssets := preAssets })
  else (preAssets, w)

/-- `_copyReturnData`, capped. -/
def copyReturnData (returndata : Bytes) : Bytes := returndata.take maxReturndataBytes

/-- Step 14, at action `i`. -/
def executeActionsFrom : Nat → List Action → VaultCode Unit
  | _, [] => pure ()
  | i, action :: actions => do
      match ← externalCall (.adapter action.adapter action.value action.data) with
      | .error returndata => Code.throw (.ActionCallFailed i (copyReturnData returndata))
      | .ok () => executeActionsFrom (i + 1) actions

def executeActions (actions : List Action) : VaultCode Unit := executeActionsFrom 0 actions

/-- Steps 15-17: the assets after, circuit breaker, event. -/
def postExecution (env : Env) (call : Call) (mandate : Mandate) (preAssets : Uint256)
    (validated : Validated) (w : World) : Except Error (Uint256 × World) := do
  let postAssets := totalAssets w
  DrawdownLib.checkSingleDrawdown preAssets postAssets mandate.maxDrawdownBps
  DrawdownLib.checkSingleAbsoluteLoss preAssets postAssets validated.maxSingleAbsoluteLoss
  let epochAssets ← DrawdownLib.checkCumulativeDrawdown w.epochAssets postAssets
    mandate.maxCumulativeDrawdownBps
  return (postAssets, { w with epochAssets := epochAssets }.emit env call
    (.MandateExecuted validated.mandateHash validated.authority env.sender
      validated.actionsDigest preAssets postAssets))

def execute (P : Platform) (env : Env) (mandate : Mandate) (actions : List Action)
    (signature : Bytes) (adapterProofs : List (List Bytes32)) (extensions : Bytes) :
    VaultCode Value :=
  nonReentrant do
    let validated ← Code.inline
      (validateMandate P env mandate actions signature adapterProofs extensions)
    let preAssets ← Code.inline fun w => .ok (snapshot env w)
    executeActions actions
    let postAssets ← Code.inline (postExecution env
      (.execute mandate actions signature adapterProofs extensions) mandate preAssets validated)
    return .assets preAssets postAssets

/-! ## Shares and the escape hatch -/

/-- A call to the asset that must succeed. -/
def tokenCall (m : Msg) : VaultCode Unit := do
  match ← externalCall m with
  | .ok () => pure ()
  | .error returndata => Code.throw (.Erc4626 returndata)

/-- A change of the share token's ledger. -/
def updateShares (f : ShareLedger → Except Error ShareLedger) : VaultCode Unit :=
  Code.inline fun w =>
    match f w.shares with
    | .ok shares => .ok ((), { w with shares := shares })
    | .error e => .error e

/-- `deposit`, `mint`, `withdraw` and `redeem`: refused while an execution is running.
    Assets come in before shares are minted, and go out after shares are burned. -/
def shareOp (P : Platform) (env : Env) (op : ShareOp) : VaultCode Value := do
  let w ← Code.get
  if w.entered then Code.throw .VaultBusy
  else do
    let (assets, shares) ←
      Code.inline fun w => (P.quote op (totalAssets w) w.shares).map (·, w)
    match op with
    | .deposit _ receiver => do
        tokenCall (.transferFrom w.asset env.sender w.self assets)
        updateShares (P.mintShares receiver shares)
        return .amount shares
    | .mint _ receiver => do
        tokenCall (.transferFrom w.asset env.sender w.self assets)
        updateShares (P.mintShares receiver shares)
        return .amount assets
    | .withdraw _ receiver owner => do
        updateShares (P.burnShares env.sender owner shares)
        tokenCall (.transfer w.asset receiver assets)
        return .amount shares
    | .redeem _ receiver owner => do
        updateShares (P.burnShares env.sender owner shares)
        tokenCall (.transfer w.asset receiver assets)
        return .amount assets

def sweepNative (env : Env) (recipient : Address) (amount : Uint256) : VaultCode Value := do
  let w ← Code.get
  if env.sender ≠ w.authority then Code.throw .NotAuthority
  else if recipient = 0 then Code.throw .ZeroAddressRecipient
  else do
    Code.set (w.emit env (.sweepNative recipient amount) (.NativeSwept recipient amount))
    match ← externalCall (.native recipient amount) with
    | .ok () => return .none
    | .error _ => Code.throw .NativeSweepFailed

/-! ## The machine -/

/-- An entry point that makes no external call and returns nothing. -/
def atomic (f : World → Except Error World) : VaultCode Value :=
  Code.inline fun w => (f w).map fun w' => (.none, w')

/-- The entry point a call reaches. -/
def dispatch (P : Platform) (env : Env) : Call → VaultCode Value
  | .initializeVault asset name symbol authority =>
      atomic (initializeVault asset name symbol authority)
  | .proposeAuthority newAuthority => atomic (proposeAuthority env newAuthority)
  | .acceptAuthority => atomic (acceptAuthority env)
  | .resetEpoch => atomic (resetEpoch env)
  | .invalidateNonce nonce => atomic (invalidateNonce env nonce)
  | .invalidateNoncesBelow threshold => atomic (invalidateNoncesBelow env threshold)
  | .revokeMandate mandateHash => atomic (revokeMandate env mandateHash)
  | .execute mandate actions signature adapterProofs extensions =>
      execute P env mandate actions signature adapterProofs extensions
  | .share op => shareOp P env op
  | .erc20 op => do
      updateShares (P.erc20 env.sender op)
      return .none
  | .sweepNative recipient amount => sweepNative env recipient amount

/-- A balance of native currency after an inflow.  There is less than `2 ^ 256` wei of it, so
    an inflow that would overflow cannot occur. -/
def credit (balance amount : Uint256) : Uint256 :=
  if balance.toNat + amount.toNat < 2 ^ 256 then balance + amount else balance

theorem le_credit (balance amount : Uint256) : balance ≤ credit balance amount := by
  rw [credit]
  by_cases h : balance.toNat + amount.toNat < 2 ^ 256
  · rw [if_pos h, BitVec.le_def, BitVec.toNat_add, Nat.mod_eq_of_lt h]
    exact Nat.le_add_right _ _
  · rw [if_neg h]
    exact Nat.le_refl balance.toNat

/-- What others can do to the vault's balances. -/
def applyMove : Move → World → World
  | .setAssets balance, w => { w with assetBalance := balance }
  | .receiveNative amount, w => { w with nativeBalance := credit w.nativeBalance amount }

/-- One vault.  Others see its whole state, except the guard and the event log, which
    contracts cannot read. -/
def vaultMachine (P : Platform) : Machine World Msg Bytes Error Value Invocation Move where
  body c := dispatch P c.env c.call
  move := applyMove
  view w := { w with status := 0, log := [] }

/-! ## A small vault

One authority that signs as a contract, one adapter, one executor: enough to run the
machine on. -/

namespace Small

def vault : Address := 0x1000

def asset : Address := 0x2000

def authority : Address := 0xA0

def adapter : Address := 0xB0

def executor : Address := 0xE0

theorem executor_ne_zero : executor ≠ 0 := by decide

/-- The authority's contract accepts every signature. -/
def env (sender : Address) (h : sender ≠ 0 := by decide) : Env where
  sender := sender
  sender_ne_zero := h
  timestamp := 1000
  chainId := 1
  code a := if a = authority then [0xA0] else if a = adapter then [0xB0] else []
  dead a := a ≠ authority ∧ a ≠ adapter
  isValidSignature a _ _ :=
    if a = authority then some (word (erc1271MagicValue.setWidth 256 <<< 224)) else none

/-- The allowlist with the one adapter in it. -/
def allowedAdaptersRoot : Bytes32 :=
  keccak256 (AdapterLib.adapterLeaf adapter (keccak256 [0xB0]))

def mandate (nonce : Uint256) (maxDrawdownBps maxCumulativeDrawdownBps : BitVec 16) :
    Mandate where
  executor := executor
  nonce := nonce
  deadline := 0
  authorityEpoch := 0
  maxDrawdownBps := maxDrawdownBps
  maxCumulativeDrawdownBps := maxCumulativeDrawdownBps
  allowedAdaptersRoot := allowedAdaptersRoot
  payloadDigest := 0
  extensionsHash := keccak256 []

/-- Empty call data. -/
def noData : Blob := ⟨[], by decide⟩

def actions : List Action := [{ adapter := adapter, value := 0, data := noData }]

/-- The executor calls the adapter under a mandate. -/
def execution (mandate : Mandate) : Invocation where
  env := env executor executor_ne_zero
  call := .execute mandate actions [] [[]] []

/-- The vault right after `initialize`, with some assets in it. -/
def deployed (assets : Uint256) : World :=
  { World.fresh vault assets 0 with initialized := 1, asset := asset, authority := authority }

/-- A call as a transaction of its own; `adapter` is what the adapter does. -/
def tx (c : Invocation) (adapter : VaultScript) : VaultScript :=
  .call c (fun _ _ => adapter) fun r =>
    match r with
    | .ok _ => .done
    | .error _ => .revert []

end Small

end Vault
