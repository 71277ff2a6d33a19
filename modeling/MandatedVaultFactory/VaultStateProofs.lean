import MandatedVaultFactory.CallTreeProofs
import MandatedVaultFactory.KeccakProofs
import Mathlib.Logic.Function.Basic

/-!
# The vault: data, state and surroundings

The data types of `IERC8192MandatedVault` and the state of one `MandatedVaultClone`,
together with what the vault sees of the chain (`Env`) and of code that is not part of
the repository (`Platform`): the compiler's ABI decoder, and OpenZeppelin's `ECDSA`,
`EIP712Upgradeable`, `MerkleProof` and `ERC4626Upgradeable`.  Of the latter only the
documented facts are assumed, as fields of the structure.

Amounts, hashes, addresses and counters have the widths of the Solidity types. -/

namespace Vault

open CallTree Encoding Keccak

/-- `address`. -/
abbrev Address : Type := BitVec 160

/-- `uint256`. -/
abbrev Uint256 : Type := BitVec 256

/-- `bytes32`. -/
abbrev Bytes32 : Type := BitVec 256

/-- `bytes4`. -/
abbrev Bytes4 : Type := BitVec 32

/-! ## Structs of the interface -/

structure Action where
  adapter : Address
  value : Uint256
  data : Blob
  deriving DecidableEq

structure Mandate where
  executor : Address
  nonce : Uint256
  deadline : BitVec 48
  authorityEpoch : BitVec 64
  maxDrawdownBps : BitVec 16
  maxCumulativeDrawdownBps : BitVec 16
  allowedAdaptersRoot : Bytes32
  payloadDigest : Bytes32
  extensionsHash : Bytes32
  deriving DecidableEq

structure Extension where
  id : Bytes4
  required : Bool
  data : Bytes
  deriving DecidableEq

/-- The errors `MandatedVaultClone` reverts with.  `Panic` is the compiler's (`0x11`
    overflow, `0x32` index out of bounds); the last three come from OpenZeppelin, the
    revert data of `Erc4626` and of a failed token call being left open. -/
inductive Error where
  | NotAuthority
  | UnauthorizedExecutor
  | MandateExpired
  | AuthorityEpochMismatch
  | InvalidSignature
  | NonceAlreadyUsed
  | NonceBelowThreshold
  | ThresholdNotIncreased
  | MandateIsRevoked
  | ExtensionsHashMismatch
  | PayloadDigestMismatch
  | AdapterNotAllowed
  | UnsupportedRequiredExtension (id : Bytes4)
  | InvalidDrawdownBps
  | InvalidCumulativeDrawdownBps
  | InvalidAdaptersRoot
  | DrawdownExceeded
  | CumulativeDrawdownExceeded
  | AbsoluteLossExceeded
  | UnboundedOpenMandate
  | EmptyActions
  | NonZeroActionValue
  | ActionCallFailed (index : Nat) (reason : Bytes)
  | ZeroAddressAuthority
  | InvalidExtensionsEncoding
  | ExtensionsNotCanonical
  | VaultBusy
  | NativeSweepFailed
  | ZeroAddressRecipient
  | ZeroAddressAsset
  | TooManyExtensions (count : Nat)
  | TooManyActions (count : Nat)
  | ExtensionsTooLarge (length : Nat)
  | AdapterProofTooDeep (index depth : Nat)
  | InvalidActionData (index : Nat)
  | SelectorNotAllowed (index : Nat) (adapter : Address) (selector : Bytes4)
  | SelectorProofTooDeep (index depth : Nat)
  | Panic (code : Nat)
  | ReentrancyGuardReentrantCall
  | InvalidInitialization
  | Erc4626 (reason : Bytes)
  deriving DecidableEq

/-- The events the vault's own code emits. -/
inductive Event where
  | MandateExecuted (mandateHash : Bytes32) (authority executor : Address)
      (actionsDigest : Bytes32) (preAssets postAssets : Uint256)
  | MandateRevoked (mandateHash : Bytes32) (authority : Address)
  | NonceInvalidated (authority : Address) (nonce : Uint256)
  | NoncesInvalidatedBelow (authority : Address) (threshold : Uint256)
  | AuthorityTransferred (previousAuthority newAuthority : Address)
  | AuthorityProposed (currentAuthority proposedAuthority : Address)
  | EpochReset (authority : Address) (newEpochAssets : Uint256) (newEpochStart : BitVec 48)
  | NativeSwept (recipient : Address) (amount : Uint256)
  deriving DecidableEq

/-! ## Calls into the vault and out of it -/

/-- The four ERC-4626 entry points that move shares. -/
inductive ShareOp where
  | deposit (assets : Uint256) (receiver : Address)
  | mint (shares : Uint256) (receiver : Address)
  | withdraw (assets : Uint256) (receiver owner : Address)
  | redeem (shares : Uint256) (receiver owner : Address)
  deriving DecidableEq

/-- The ERC-20 entry points of the share token. -/
inductive Erc20Op where
  | transfer (recipient : Address) (amount : Uint256)
  | approve (spender : Address) (amount : Uint256)
  | transferFrom (owner recipient : Address) (amount : Uint256)
  deriving DecidableEq

/-- The entry points of the vault that can change its state. -/
inductive Call where
  | initializeVault (asset : Address) (name symbol : Bytes) (authority : Address)
  | proposeAuthority (newAuthority : Address)
  | acceptAuthority
  | resetEpoch
  | invalidateNonce (nonce : Uint256)
  | invalidateNoncesBelow (threshold : Uint256)
  | revokeMandate (mandateHash : Bytes32)
  | execute (mandate : Mandate) (actions : List Action) (signature : Bytes)
      (adapterProofs : List (List Bytes32)) (extensions : Bytes)
  | share (op : ShareOp)
  | erc20 (op : Erc20Op)
  | sweepNative (recipient : Address) (amount : Uint256)
  deriving DecidableEq

/-- What a call returns. -/
inductive Value where
  | none
  | amount (x : Uint256)
  | assets (preAssets postAssets : Uint256)
  deriving DecidableEq

/-- A call the vault makes to other code. -/
inductive Msg where
  | adapter (target : Address) (value : Uint256) (data : Blob)
  | transferFrom (token owner recipient : Address) (amount : Uint256)
  | transfer (token recipient : Address) (amount : Uint256)
  | native (recipient : Address) (amount : Uint256)
  deriving DecidableEq

/-- The native value a call carries. -/
def Msg.value : Msg → Uint256
  | .adapter _ v _ => v
  | .transferFrom .. => 0
  | .transfer .. => 0
  | .native _ v => v

/-- What others can do to the vault without calling a function of it: move its balance
    of the asset, and send it native currency (`receive` accepts any amount). -/
inductive Move where
  | setAssets (balance : Uint256)
  | receiveNative (amount : Uint256)
  deriving DecidableEq

/-- What a call sees of the chain.  `dead` accounts are those that do not exist, their
    code hash is zero; `isValidSignature` is the answer to an ERC-1271 `staticcall`,
    `none` if it reverts. -/
structure Env where
  sender : Address
  sender_ne_zero : sender ≠ 0
  timestamp : Uint256
  chainId : Uint256
  code : Address → Bytes
  dead : Address → Bool
  isValidSignature : Address → Bytes32 → Bytes → Option Bytes

/-- `EXTCODEHASH`. -/
def Env.codehash (env : Env) (a : Address) : Bytes32 :=
  if env.dead a then 0 else keccak256 (env.code a)

/-- A call together with what it sees of the chain. -/
structure Invocation where
  env : Env
  call : Call

/-! ## State -/

/-- The share token's ledger. -/
structure ShareLedger where
  totalSupply : Uint256
  balanceOf : Address → Uint256
  allowance : Address → Address → Uint256

/-- An entry of the vault's event log, with the call that emitted it. -/
structure Logged where
  sender : Address
  chainId : Uint256
  call : Call
  event : Event
  deriving DecidableEq

/-- The state of one vault: its storage, its two balances, and the events it has
    emitted.  `status` is the slot of `ReentrancyGuard`; `assetBalance` is what
    `asset.balanceOf(vault)` answers. -/
structure World where
  self : Address
  initialized : BitVec 64
  asset : Address
  name : Bytes
  symbol : Bytes
  shares : ShareLedger
  status : Uint256
  authority : Address
  pendingAuthority : Address
  authorityEpoch : BitVec 64
  nonceUsed : Address → Uint256 → Bool
  nonceThreshold : Address → Uint256
  mandateRevoked : Bytes32 → Bool
  epochStart : BitVec 48
  epochAssets : Uint256
  assetBalance : Uint256
  nativeBalance : Uint256
  log : List Logged

/-- A clone at `self` whose storage has never been written.  Tokens and native currency
    may have been sent to its address before. -/
def World.fresh (self : Address) (assetBalance nativeBalance : Uint256) : World where
  self := self
  initialized := 0
  asset := 0
  name := []
  symbol := []
  shares := { totalSupply := 0, balanceOf := fun _ => 0, allowance := fun _ _ => 0 }
  status := 0
  authority := 0
  pendingAuthority := 0
  authorityEpoch := 0
  nonceUsed := fun _ _ => false
  nonceThreshold := fun _ => 0
  mandateRevoked := fun _ => false
  epochStart := 0
  epochAssets := 0
  assetBalance := assetBalance
  nativeBalance := nativeBalance
  log := []

/-- Emit an event from a call. -/
def World.emit (w : World) (env : Env) (call : Call) (event : Event) : World :=
  { w with
    log := w.log ++
      [{ sender := env.sender, chainId := env.chainId, call := call, event := event }] }

/-- Write `_nonceUsed[authority][nonce] = true`. -/
def World.useNonce (w : World) (authority : Address) (nonce : Uint256) : World :=
  { w with
    nonceUsed := Function.update w.nonceUsed authority
      (Function.update (w.nonceUsed authority) nonce true) }

/-- One more nonce used by one authority. -/
theorem update_nonce_iff (used : Address → Uint256 → Bool) (a b : Address) (n m : Uint256) :
    Function.update used a (Function.update (used a) n true) b m = true
      ↔ (b = a ∧ m = n) ∨ used b m = true := by
  by_cases hb : b = a
  · subst hb
    rw [Function.update_self]
    by_cases hm : m = n
    · subst hm
      simp
    · rw [Function.update_of_ne hm]
      simp [hm]
  · rw [Function.update_of_ne hb]
    simp [hb]

theorem World.nonceUsed_useNonce (w : World) (a b : Address) (n m : Uint256) :
    (w.useNonce a n).nonceUsed b m = true ↔ (b = a ∧ m = n) ∨ w.nonceUsed b m = true :=
  update_nonce_iff w.nonceUsed a b n m

/-! ## Code that is not part of the repository -/

/-- `Hashes.commutativeKeccak256`: the two words in ascending order. -/
def commutativeKeccak256 (a b : Bytes32) : Bytes32 :=
  if a < b then keccak256 (word a ++ word b) else keccak256 (word b ++ word a)

/-- `MerkleProof.processProof`. -/
def processProof (proof : List Bytes32) (leaf : Bytes32) : Bytes32 :=
  proof.foldl commutativeKeccak256 leaf

/-- A string literal as bytes. -/
def utf8 (s : String) : Bytes := s.toUTF8.data.toList

/-- The EIP-712 domain of a vault on a chain, as it is hashed: domain type, name
    `MandatedExecution`, version `1`, chain and contract. -/
def domainPreimage (chainId : Uint256) (vault : Address) : Bytes :=
  word (keccak256 (utf8
      "EIP712Domain(string name,string version,uint256 chainId,address verifyingContract)"))
    ++ word (keccak256 (utf8 "MandatedExecution")) ++ word (keccak256 (utf8 "1"))
    ++ word chainId ++ word (vault.setWidth 256)

/-- The EIP-712 digest of a struct hash, as it is hashed. -/
def typedDataPreimage (chainId : Uint256) (vault : Address) (structHash : Bytes32) : Bytes :=
  [0x19, 0x01] ++ word (keccak256 (domainPreimage chainId vault)) ++ word structHash

/-- Code outside the repository, with the facts about it that its documentation states.

    * `decode…` — the compiler's `abi.decode` at the three types the vault decodes,
      `none` where it reverts, as it does on data shorter than the head of the type.
    * `tryRecoverCalldata` — `ECDSA`, `none` unless the error code is `NoError`.
    * `hashTypedDataV4` — `EIP712Upgradeable`, for the domain the vault initialises.
    * `verify` — `MerkleProof.verify` and `verifyCalldata`.
    * `quote` — the limit check and the `preview…` function of an ERC-4626 entry point:
      the assets moved and the shares minted or burned.
    * `mintShares`, `burnShares` (with the spending of an allowance) and `erc20` — the
      share token; only the first two change the supply. -/
structure Platform where
  decodeExtensions : Bytes → Option (List Extension)
  decodeExtensions_nil : decodeExtensions [] = none
  decodeSelectorAllowlist : Bytes → Option (Bytes32 × List (List Bytes32))
  decodeAbsoluteLossLimit : Bytes → Option Uint256
  tryRecoverCalldata : Bytes32 → Bytes → Option Address
  hashTypedDataV4 : Uint256 → Address → Bytes32 → Bytes32
  hashTypedDataV4_eq : ∀ chainId vault structHash, hashTypedDataV4 chainId vault structHash
    = keccak256 (typedDataPreimage chainId vault structHash)
  verify : List Bytes32 → Bytes32 → Bytes32 → Bool
  verify_iff : ∀ proof root leaf, verify proof root leaf = true ↔ processProof proof leaf = root
  quote : ShareOp → Uint256 → ShareLedger → Except Error (Uint256 × Uint256)
  mintShares : Address → Uint256 → ShareLedger → Except Error ShareLedger
  burnShares : Address → Address → Uint256 → ShareLedger → Except Error ShareLedger
  erc20 : Address → Erc20Op → ShareLedger → Except Error ShareLedger
  totalSupply_mintShares : ∀ receiver n l l', mintShares receiver n l = .ok l' →
    l'.totalSupply.toNat = l.totalSupply.toNat + n.toNat
  totalSupply_burnShares : ∀ caller owner n l l', burnShares caller owner n l = .ok l' →
    l'.totalSupply.toNat + n.toNat = l.totalSupply.toNat
  totalSupply_erc20 : ∀ caller op l l', erc20 caller op l = .ok l' →
    l'.totalSupply = l.totalSupply

/-- A platform with the documented hashing and Merkle proofs, shares at par, and nothing
    else: no extension decodes, no plain account has signed, transfers are refused. -/
def Platform.plain : Platform where
  decodeExtensions _ := none
  decodeExtensions_nil := rfl
  decodeSelectorAllowlist _ := none
  decodeAbsoluteLossLimit _ := none
  tryRecoverCalldata _ _ := none
  hashTypedDataV4 chainId vault structHash :=
    keccak256 (typedDataPreimage chainId vault structHash)
  hashTypedDataV4_eq _ _ _ := rfl
  verify proof root leaf := processProof proof leaf = root
  verify_iff proof root leaf := by simp
  quote op _ _ :=
    match op with
    | .deposit assets _ => .ok (assets, assets)
    | .mint shares _ => .ok (shares, shares)
    | .withdraw assets _ _ => .ok (assets, assets)
    | .redeem shares _ _ => .ok (shares, shares)
  mintShares receiver n l :=
    if l.totalSupply.toNat + n.toNat < 2 ^ 256 then
      .ok { l with
        totalSupply := l.totalSupply + n
        balanceOf := Function.update l.balanceOf receiver (l.balanceOf receiver + n) }
    else .error (.Panic 0x11)
  burnShares caller owner n l :=
    if caller = owner ∧ n ≤ l.balanceOf owner ∧ n ≤ l.totalSupply then
      .ok { l with
        totalSupply := l.totalSupply - n
        balanceOf := Function.update l.balanceOf owner (l.balanceOf owner - n) }
    else .error (.Erc4626 [])
  erc20 _ _ _ := .error (.Erc4626 [])
  totalSupply_mintShares receiver n l l' h := by
    by_cases hlt : l.totalSupply.toNat + n.toNat < 2 ^ 256
    · rw [if_pos hlt] at h
      rw [← Except.ok.inj h]
      show (l.totalSupply + n).toNat = _
      rw [BitVec.toNat_add, Nat.mod_eq_of_lt hlt]
    · rw [if_neg hlt] at h
      exact nomatch h
  totalSupply_burnShares caller owner n l l' h := by
    by_cases hc : caller = owner ∧ n ≤ l.balanceOf owner ∧ n ≤ l.totalSupply
    · rw [if_pos hc] at h
      rw [← Except.ok.inj h]
      show (l.totalSupply - n).toNat + n.toNat = _
      rw [BitVec.toNat_sub_of_le hc.2.2]
      exact Nat.sub_add_cancel hc.2.2
    · rw [if_neg hc] at h
      exact nomatch h
  totalSupply_erc20 _ _ _ _ h := nomatch h

end Vault
