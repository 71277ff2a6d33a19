import MandatedVaultFactory.AllowlistProofs
import MandatedVaultFactory.TextProofs
import MandatedVaultFactory.VaultStepProofs

/-!
# The mandate for a token transfer

`wallet_manager.py` plans transfers out of a vault under a mandate whose only adapter is the
token.  This file has the part of the planner that decides what the mandate says, and what
the vault makes of it.

* **`resolveTransferAllowedAdaptersRoot`** — the allowlist root, computed from the token's
  code; **`mandateDefaults`** — what every such mandate says besides.
* **`BuiltFrom`** — a mandate, with its actions and extensions, says what the defaults say.
* **`transfer_mandate_licenses`** — the vault accepts any calls of the token under it, and
  no others. -/

namespace Predict

open Vault Encoding Keccak MerkleTree Texts CallTree

/-! ## The planner -/

/-- What the planner uses of `Web3`.  `getCode` is `none` where the call raises. -/
structure Web3 where
  getCode : Address → Option Bytes
  toChecksumAddress : Address → Text

/-- The errors of the planner. -/
inductive ConfigError where
  | tokenCodeUnavailable (message : Text)
  | tokenWithoutCode (message : Text)
  deriving DecidableEq

/-- `_resolve_transfer_allowed_adapters_root`: without a connection the configured root, else
    the leaf of the token with its code hash. -/
def resolveTransferAllowedAdaptersRoot (web3 : Option Web3) (tokenAddress : Address)
    (fallbackRoot : Text) : Except ConfigError Text :=
  match web3 with
  | none => .ok fallbackRoot
  | some web3 =>
      let checksumToken := web3.toChecksumAddress tokenAddress
      match web3.getCode tokenAddress with
      | none => .error (.tokenCodeUnavailable
          ("Unable to load token code for mandated funding adapter root: ".toList
            ++ checksumToken))
      | some tokenCode =>
          if tokenCode.length = 0 then .error (.tokenWithoutCode
            ("Mandated funding token address has no deployed code: ".toList ++ checksumToken))
          else
            let codehash := keccak256 tokenCode
            -- `abi_encode(["address", "bytes32"], [checksum_token, codehash])`
            let leafRoot := keccak256 (word (tokenAddress.setWidth 256) ++ word codehash)
            .ok ("0x".toList ++ hex (word leafRoot))

/-- `mandate_defaults`. -/
structure MandateDefaults where
  allowedAdaptersRoot : Text
  maxDrawdownBps : Text
  maxCumulativeDrawdownBps : Text
  payloadBinding : Text
  extensions : Text

def mandateDefaults (allowedAdaptersRoot : Text) : MandateDefaults where
  allowedAdaptersRoot := allowedAdaptersRoot
  maxDrawdownBps := "10000".toList
  maxCumulativeDrawdownBps := "10000".toList
  payloadBinding := "actionsDigest".toList
  extensions := "0x".toList

/-- The mandate says what the defaults say, for these actions and extensions. -/
structure BuiltFrom (d : MandateDefaults) (mandate : Mandate) (actions : List Action)
    (extensions : Bytes) : Prop where
  root : d.allowedAdaptersRoot = "0x".toList ++ hex (word mandate.allowedAdaptersRoot)
  drawdown : d.maxDrawdownBps = decimal mandate.maxDrawdownBps.toNat
  cumulative : d.maxCumulativeDrawdownBps = decimal mandate.maxCumulativeDrawdownBps.toNat
  payload : d.payloadBinding = "actionsDigest".toList →
    mandate.payloadDigest = hashActions actions
  extensionsText : d.extensions = "0x".toList ++ hex extensions
  extensionsHash : mandate.extensionsHash = keccak256 extensions

/-- The token's leaf, as the planner hashes it. -/
def tokenLeaf (token : Address) (code : Bytes) : Bytes :=
  AdapterLib.adapterLeaf token (keccak256 code)

/-- With a connection, and code at the address, the root is that leaf's digest. -/
theorem resolve_eq (web3 : Web3) {token : Address} {code : Bytes} (fallback : Text)
    (hcode : web3.getCode token = some code) (hne : code ≠ []) :
    resolveTransferAllowedAdaptersRoot (some web3) token fallback
      = .ok ("0x".toList ++ hex (word (keccak256 (tokenLeaf token code)))) := by
  have hlen : ¬ code.length = 0 := fun h => hne (List.length_eq_zero_iff.mp h)
  simp only [resolveTransferAllowedAdaptersRoot, hcode, if_neg hlen]
  rfl

/-- What the vault reads in such a mandate. -/
structure Licence (token : Address) (code : Bytes) (mandate : Mandate) (actions : List Action) :
    Prop where
  root : mandate.allowedAdaptersRoot = keccak256 (tokenLeaf token code)
  drawdown : mandate.maxDrawdownBps.toNat = 10000
  cumulative : mandate.maxCumulativeDrawdownBps.toNat = 10000
  payload : mandate.payloadDigest = hashActions actions
  extensionsHash : mandate.extensionsHash = keccak256 []

/-- A mandate built from the planner's defaults says this, and comes without extensions. -/
theorem BuiltFrom.licence {token : Address} {code : Bytes} {mandate : Mandate}
    {actions : List Action} {extensions : Bytes}
    (h : BuiltFrom (mandateDefaults
      ("0x".toList ++ hex (word (keccak256 (tokenLeaf token code))))) mandate actions extensions) :
    Licence token code mandate actions ∧ extensions = [] := by
  have hwhole : ("10000".toList : Text) = decimal 10000 := by decide
  have hroot := word_injective (hex_injective (List.append_cancel_left h.root))
  have hdrawdown := decimal_injective (hwhole.symm.trans h.drawdown)
  have hcumulative := decimal_injective (hwhole.symm.trans h.cumulative)
  have hempty : "0x".toList ++ ([] : Text) = "0x".toList ++ hex extensions := h.extensionsText
  have hnil := List.append_cancel_left hempty
  have hext : extensions = [] := hex_injective hnil.symm
  exact ⟨⟨hroot.symm, hdrawdown.symm, hcumulative.symm, h.payload rfl, hext ▸ h.extensionsHash⟩,
    hext⟩

/-! ## The vault -/

/-- Between one call and as many as an execution may make, of the token, without native value. -/
structure Transfers (token : Address) (actions : List Action) : Prop where
  nonempty : actions ≠ []
  length_le : actions.length ≤ maxActions
  adapter : ∀ action ∈ actions, action.adapter = token
  value : ∀ action ∈ actions, action.value = 0

/-- All that a mandate needs besides what the planner puts into it. -/
structure OtherwiseValid (P : Platform) (env : Env) (mandate : Mandate) (signature : Bytes)
    (w : World) : Prop where
  deadline : mandate.deadline = 0 ∨ env.timestamp.toNat ≤ mandate.deadline.toNat
  executor : mandate.executor = 0 ∨ env.sender = mandate.executor
  epoch : mandate.authorityEpoch = w.authorityEpoch
  not_revoked : w.mandateRevoked (hashMandate P env.chainId w.self mandate) = false
  signed : signatureValid P env w.authority (hashMandate P env.chainId w.self mandate) signature
    = true
  threshold : w.nonceThreshold w.authority ≤ mandate.nonce
  unused : w.nonceUsed w.authority mandate.nonce = false

section Accepts

variable {P : Platform} {env : Env} {token : Address} {code : Bytes} {mandate : Mandate}
  {actions : List Action} {signature : Bytes} {w : World}

/-- A digest that is no address is not zero. -/
theorem ne_zero_of_notAddress {d : Bytes32} (h : NotAddress d) : d ≠ 0 := by
  rintro rfl
  exact absurd h (by decide)

/-- The token passes as an adapter, with the empty proof. -/
theorem tokenChecked (hlive : env.dead token = false) (hcode : env.code token = code)
    (hnot : NotAddress (keccak256 code)) (hne : keccak256 code ≠ keccak256 [])
    {action : Action} (hadapter : action.adapter = token) (hvalue : action.value = 0)
    (depth : Nat) :
    AdapterLib.AdapterChecked env (keccak256 (tokenLeaf token code)) depth action [] := by
  have hcodehash : env.codehash action.adapter = keccak256 code := by
    rw [hadapter, Env.codehash, hlive, hcode]
    rfl
  refine ⟨?_, ?_, hvalue, Nat.zero_le _, ?_⟩
  · rw [hcodehash]
    exact ne_zero_of_notAddress hnot
  · rw [hcodehash]
    exact hne
  · rw [hcodehash, hadapter]
    rfl

/-- `validateAdapters` accepts the transfers with empty proofs. -/
theorem validateAdapters_transfers (hlive : env.dead token = false)
    (hcode : env.code token = code) (hnot : NotAddress (keccak256 code))
    (hne : keccak256 code ≠ keccak256 []) (h : Transfers token actions) (depth : Nat) :
    AdapterLib.validateAdapters P env actions (actions.map fun _ => [])
      (keccak256 (tokenLeaf token code)) depth = .ok () := by
  refine (AdapterLib.validateAdapters_ok ..).mpr ⟨actions.map fun _ => [], [],
    (List.append_nil _).symm, List.forall₂_map_right_iff.mpr (List.forall₂_same.mpr ?_)⟩
  intro action hmem
  exact tokenChecked hlive hcode hnot hne (h.adapter action hmem) (h.value action hmem) depth

/-- The mandate passes steps 1-5a. -/
theorem fieldsValid_transfers (hlic : Licence token code mandate actions)
    (hroot : mandate.allowedAdaptersRoot ≠ 0) (hpayload : mandate.payloadDigest ≠ 0)
    (h : Transfers token actions) (hother : OtherwiseValid P env mandate signature w) :
    MandateLib.FieldsValid env mandate w.authorityEpoch actions.length
      (actions.map fun _ => ([] : List Bytes32)).length ([] : Bytes).length maxActions
      maxExtensionsBytes where
  deadline := hother.deadline
  executor := hother.executor
  bounded := Or.inr hpayload
  epoch := hother.epoch
  drawdown := Nat.le_of_eq hlic.drawdown
  cumulative := Nat.le_of_eq hlic.cumulative
  drawdown_le := Nat.le_of_eq (hlic.drawdown.trans hlic.cumulative.symm)
  root := hroot
  nonempty := fun h0 => h.nonempty (List.length_eq_zero_iff.mp h0)
  actions := h.length_le
  proofs := List.length_map _
  extensions := Nat.zero_le _

/-- No loss is too large for the mandate. -/
theorem postExecution_of_whole (call : Call) {preAssets : Uint256} {v : Validated} {s : World}
    (hlic : Licence token code mandate actions)
    (hloss : v.maxSingleAbsoluteLoss = BitVec.allOnes 256)
    (hpre : preAssets.toNat * 10000 < 2 ^ 256) (hmark : s.epochAssets.toNat * 10000 < 2 ^ 256) :
    ∃ mark t, postExecution env call mandate preAssets v s = .ok (totalAssets s, t)
      ∧ { t with status := 1 } = s.ended env call v preAssets mark := by
  have habs : DrawdownLib.checkSingleAbsoluteLoss preAssets (totalAssets s)
      v.maxSingleAbsoluteLoss = .ok () := by
    rw [hloss]
    refine (DrawdownLib.checkSingleAbsoluteLoss_ok ..).mpr ?_
    rw [BitVec.toNat_allOnes]
    have := preAssets.isLt
    omega
  simp only [postExecution, bind_ok, exists_unit_ok, pure_ok, Prod.mk.injEq]
  exact ⟨_, _, ⟨DrawdownLib.checkSingleDrawdown_of_whole _ hlic.drawdown hpre, habs, _,
    DrawdownLib.checkCumulativeDrawdown_of_whole _ hlic.cumulative hmark, trivial, rfl⟩, rfl⟩

/-- **Under the mandate the token may be called.**  The execution of any transfers succeeds
    if they do. -/
theorem execute_transfers (hlic : Licence token code mandate actions)
    (hlive : env.dead token = false) (hcode : env.code token = code)
    (hne : keccak256 code ≠ keccak256 [])
    (hnot : ∀ s ∈ [code, tokenLeaf token code, abiEncodeActions actions],
      NotAddress (keccak256 s))
    (h : Transfers token actions) (hother : OtherwiseValid P env mandate signature w)
    (hent : ¬ w.entered) {outs : Nat → Msg → VaultScript} {s : World}
    (hact : (executeActions actions (w.begun env mandate)).exec ((vaultMachine P).oracle outs) 0
      = .ok ((), s))
    (hpre : (totalAssets w).toNat * 10000 < 2 ^ 256)
    (hmark : s.epochAssets.toNat * 10000 < 2 ^ 256) :
    ∃ t, (vaultMachine P).invoke
      ⟨env, .execute mandate actions signature (actions.map fun _ => []) []⟩ outs w
      = .ok (.assets (totalAssets w) (totalAssets s), t) := by
  have hroot : mandate.allowedAdaptersRoot ≠ 0 :=
    hlic.root ▸ ne_zero_of_notAddress (hnot _ (by simp))
  have hpayload : mandate.payloadDigest ≠ 0 :=
    hlic.payload ▸ ne_zero_of_notAddress (hnot _ (by simp))
  let v : Validated :=
    { authority := w.authority
      mandateHash := hashMandate P env.chainId w.self mandate
      actionsDigest := hashActions actions
      maxSingleAbsoluteLoss := BitVec.allOnes 256 }
  have hallow : validateAllowlists P env mandate actions (actions.map fun _ => []) []
      = .ok v.maxSingleAbsoluteLoss := by
    rw [validateAllowlists, hlic.root]
    exact (bind_ok ..).mpr ⟨(), validateAdapters_transfers hlive hcode (hnot _ (by simp)) hne h _,
      rfl⟩
  have hvalid : MandateValid P env mandate actions signature (actions.map fun _ => []) [] w v :=
    ⟨fieldsValid_transfers hlic hroot hpayload h hother, hlic.extensionsHash.symm,
      hother.not_revoked, hother.signed, hother.threshold, hother.unused, Or.inr hlic.payload,
      hallow, rfl, rfl, rfl⟩
  obtain ⟨mark, t, hpost, ht⟩ := postExecution_of_whole
    (.execute mandate actions signature (actions.map fun _ => []) []) hlic (v := v) rfl hpre hmark
  refine ⟨{ t with status := 1 }, ?_⟩
  show (execute P env mandate actions signature (actions.map fun _ => []) [] w).exec
    ((vaultMachine P).oracle outs) 0 = _
  rw [execute_of_valid hent hvalid, executeRest]
  refine (Prog.exec_bind_ok ..).mpr ⟨(), s, hact, (Prog.exec_bind_ok ..).mpr
    ⟨totalAssets s, t, ?_, rfl⟩⟩
  rw [Code.exec_inline]
  exact hpost

end Accepts

/-- **Under the mandate nothing else may be called.**  The token's leaf is the whole tree. -/
theorem adapter_eq_of_validateAdapters {P : Platform} {env : Env} {token : Address} {code : Bytes}
    {actions : List Action} {adapterProofs : List (List Bytes32)} {depth : Nat}
    (hlen : code.length ≠ 64)
    (hfree : CollisionFree keccak256
      {s | s ∈ code :: hashedStrings env (.leaf (token, keccak256 code)) actions adapterProofs})
    (hdigest : ∀ s ∈ code :: hashedStrings env (.leaf (token, keccak256 code)) actions adapterProofs,
      NotAddress (keccak256 s))
    (h : AdapterLib.validateAdapters P env actions adapterProofs
      (keccak256 (tokenLeaf token code)) depth = .ok ()) :
    ∀ action ∈ actions, action.adapter = token ∧ env.code token = code := by
  intro action hmem
  obtain ⟨proof, hchecked, hclimb⟩ := exists_checked h (.leaf (token, keccak256 code)) hmem
  have hmember : (action.adapter, env.codehash action.adapter)
      ∈ (HashTree.leaf (token, keccak256 code)).leaves := mem_of_checked
    (fun x hx _ => ⟨code, List.mem_cons_self .., by rw [List.mem_singleton.mp hx], hlen⟩)
    hfree hdigest
    (fun s hs => List.mem_cons_of_mem _ (List.mem_append_left _ (List.mem_append_left _ hs)))
    (fun s hs => List.mem_cons_of_mem _ (hclimb s hs)) hchecked
  obtain ⟨hadapter, hcodehash⟩ := Prod.mk.inj (List.mem_singleton.mp hmember)
  refine ⟨hadapter, ?_⟩
  -- the code hash is a digest, so the account exists and it is the digest of its code
  rw [hadapter] at hcodehash
  have hnot : NotAddress (env.codehash token) := hcodehash ▸ hdigest _ (List.mem_cons_self ..)
  have hcurrent : env.code token
      ∈ hashedStrings env (.leaf (token, keccak256 code)) actions adapterProofs :=
    List.mem_append_left _ (List.mem_append_right _ (List.mem_singleton.mpr rfl))
  exact hfree (List.mem_cons_of_mem _ hcurrent) (List.mem_cons_self ..)
    ((codehash_eq_of_notAddress hnot).symm.trans hcodehash)

/-- **The mandate is a licence for the token.**  Let the token's code be neither empty nor 64
    bytes long, no two of the strings hashed collide, and no digest of them start with twelve
    zero bytes.  The planner finds a root, and with any mandate built from it:

    * while the token has that code, one to 32 calls of it without native value pass
      `validateAdapters` with empty proofs and no loss is too large for `DrawdownLib`; if the
      mandate is valid otherwise it passes `MandateLib`, and the execution succeeds if the calls
      do.  The assets and the mark have to be small enough to be scaled.
    * whatever the proofs, `validateAdapters` accepts no action with another adapter, and none
      once the token's code has changed. -/
theorem transfer_mandate_licenses (P : Platform) (web3 : Web3) (fallbackRoot : Text)
    (token : Address) (code : Bytes) (hcode : web3.getCode token = some code) (hne : code ≠ [])
    (hlen : code.length ≠ 64) :
    ∃ root, resolveTransferAllowedAdaptersRoot (some web3) token fallbackRoot = .ok root
      ∧ ∀ mandate licensed extensions,
        BuiltFrom (mandateDefaults root) mandate licensed extensions →
        (∀ env : Env, env.dead token = false → env.code token = code →
          CollisionFree keccak256 {[], code} →
          (∀ s ∈ [code, tokenLeaf token code, abiEncodeActions licensed],
            NotAddress (keccak256 s)) →
          Transfers token licensed →
          AdapterLib.validateAdapters P env licensed (licensed.map fun _ => [])
            mandate.allowedAdaptersRoot maxAdapterProofDepth = .ok ()
          ∧ (∀ pre post, pre.toNat * 10000 < 2 ^ 256 →
            DrawdownLib.checkSingleDrawdown pre post mandate.maxDrawdownBps = .ok ())
          ∧ (∀ mark post, mark.toNat * 10000 < 2 ^ 256 →
            DrawdownLib.checkCumulativeDrawdown mark post mandate.maxCumulativeDrawdownBps
              = .ok (if mark < post then post else mark))
          ∧ ∀ w signature, OtherwiseValid P env mandate signature w →
            MandateLib.validateFields env mandate w.authorityEpoch licensed.length
              (licensed.map fun _ => ([] : List Bytes32)).length extensions.length maxActions
              maxExtensionsBytes = .ok ()
            ∧ MandateLib.validatePayloadDigest mandate.payloadDigest (hashActions licensed) = .ok ()
            ∧ (¬ w.entered → ∀ outs s,
              (executeActions licensed (w.begun env mandate)).exec ((vaultMachine P).oracle outs) 0
                = .ok ((), s) →
              (totalAssets w).toNat * 10000 < 2 ^ 256 →
              s.epochAssets.toNat * 10000 < 2 ^ 256 →
              ∃ t, (vaultMachine P).invoke
                ⟨env, .execute mandate licensed signature (licensed.map fun _ => []) extensions⟩
                outs w = .ok (.assets (totalAssets w) (totalAssets s), t)))
        ∧ ∀ (env : Env) (actions : List Action) (adapterProofs : List (List Bytes32))
            (depth : Nat),
          CollisionFree keccak256
            {s | s ∈ code
              :: hashedStrings env (.leaf (token, keccak256 code)) actions adapterProofs} →
          (∀ s ∈ code :: hashedStrings env (.leaf (token, keccak256 code)) actions adapterProofs,
            NotAddress (keccak256 s)) →
          AdapterLib.validateAdapters P env actions adapterProofs mandate.allowedAdaptersRoot depth
            = .ok () →
          ∀ action ∈ actions, action.adapter = token ∧ env.code token = code := by
  refine ⟨_, resolve_eq web3 fallbackRoot hcode hne, fun mandate licensed extensions hbuilt => ?_⟩
  obtain ⟨hlic, rfl⟩ := hbuilt.licence
  constructor
  · intro env hlive hcode hfree hnot h
    -- `AdapterLib` refuses the hash of the empty code
    have hempty : keccak256 code ≠ keccak256 [] :=
      fun heq => hne (hfree (Or.inr rfl) (Or.inl rfl) heq)
    have hroot : mandate.allowedAdaptersRoot ≠ 0 :=
      hlic.root ▸ ne_zero_of_notAddress (hnot _ (by simp))
    have hpayload : mandate.payloadDigest ≠ 0 :=
      hlic.payload ▸ ne_zero_of_notAddress (hnot _ (by simp))
    refine ⟨?_, fun pre post hpre => ?_, fun mark post hmark => ?_, fun w signature hother => ?_⟩
    · -- the root is the one leaf, so the empty proof leads to it
      rw [hlic.root]
      exact validateAdapters_transfers hlive hcode (hnot _ (by simp)) hempty h _
    · exact DrawdownLib.checkSingleDrawdown_of_whole post hlic.drawdown hpre
    · exact DrawdownLib.checkCumulativeDrawdown_of_whole post hlic.cumulative hmark
    · refine ⟨(MandateLib.validateFields_ok ..).mpr
        (fieldsValid_transfers hlic hroot hpayload h hother), ?_, ?_⟩
      · rw [MandateLib.validatePayloadDigest, revertIf_ok]
        exact fun hc => hc.2 hlic.payload
      · intro hent outs s hact hpre hmark
        exact execute_transfers hlic hlive hcode hempty hnot h hother hent hact hpre hmark
  · -- the other way round: no other leaf leads to this root
    intro env actions adapterProofs depth hfree hdigest h
    rw [hlic.root] at h
    exact adapter_eq_of_validateAdapters hlen hfree hdigest h

namespace Small

open Vault.Small

/-- The chain with a token whose code is `code`. -/
def tokenEnv (code : Bytes) : Env :=
  { env executor executor_ne_zero with
    code := fun a => if a = asset then code else (env executor executor_ne_zero).code a
    dead := fun a => a ≠ asset ∧ (env executor executor_ne_zero).dead a }

/-- The planner's connection to it. -/
def web3 : Web3 where
  getCode a := some ((tokenEnv [0xC0]).code a)
  toChecksumAddress a := "0x".toList ++ hex (word (a.setWidth 256))

/-- One call of the token. -/
def transfers : List Action := [{ adapter := asset, value := 0, data := noData }]

/-- The mandate for it. -/
def transferMandate : Mandate :=
  { mandate 7 10000 10000 with
    allowedAdaptersRoot := keccak256 (tokenLeaf asset [0xC0])
    payloadDigest := hashActions transfers }

theorem transferMandate_builtFrom : BuiltFrom (mandateDefaults
    ("0x".toList ++ hex (word (keccak256 (tokenLeaf asset [0xC0]))))) transferMandate transfers [] :=
  ⟨rfl, by decide, by decide, fun _ => rfl, rfl, rfl⟩

theorem transferMandate_otherwiseValid :
    OtherwiseValid .plain (tokenEnv [0xC0]) transferMandate [] (deployed 100) :=
  ⟨by decide, by decide, by decide, rfl, by decide, by decide, by decide⟩

end Small

/-- A transfer of 60 of the vault's 100 succeeds; with other code at the token's address it
    does not pass. -/
theorem transfer_mandate_licenses_small :
    ∃ root, resolveTransferAllowedAdaptersRoot (some Small.web3) Vault.Small.asset [] = .ok root
      ∧ BuiltFrom (mandateDefaults root) Small.transferMandate Small.transfers []
      ∧ (∃ t, (vaultMachine .plain).invoke
        ⟨Small.tokenEnv [0xC0], .execute Small.transferMandate Small.transfers [] [[]] []⟩
        (fun _ _ => .act (.setAssets 40) .done) (Vault.Small.deployed 100)
        = .ok (.assets 100 40, t))
      ∧ AdapterLib.validateAdapters .plain (Small.tokenEnv [0xC1]) Small.transfers [[]]
        Small.transferMandate.allowedAdaptersRoot maxAdapterProofDepth ≠ .ok () := by
  obtain ⟨root, hroot, hlicense⟩ := transfer_mandate_licenses .plain Small.web3 []
    Vault.Small.asset [0xC0] rfl (by decide) (by decide)
  have hresolve : resolveTransferAllowedAdaptersRoot (some Small.web3) Vault.Small.asset []
      = .ok ("0x".toList ++ hex (word (keccak256 (tokenLeaf Vault.Small.asset [0xC0])))) :=
    resolve_eq Small.web3 [] rfl (by decide)
  have heq := hroot.symm.trans hresolve
  have hbuilt : BuiltFrom (mandateDefaults root) Small.transferMandate Small.transfers [] :=
    Except.ok.inj heq ▸ Small.transferMandate_builtFrom
  obtain ⟨haccepts, hexcludes⟩ := hlicense _ _ _ hbuilt
  refine ⟨root, hroot, hbuilt, ?_, fun hok => ?_⟩
  · have hnodup : (([[], [0xC0]] : List Bytes).map keccak256).Nodup := by decide +kernel
    obtain ⟨_, _, _, hvault⟩ := haccepts (Small.tokenEnv [0xC0]) (by decide) (by decide)
      (.of_nodup hnodup (by simp)) (by decide +kernel)
      ⟨by decide, by decide, by decide, by decide⟩
    obtain ⟨_, _, hexecute⟩ := hvault _ [] Small.transferMandate_otherwiseValid
    exact hexecute (by decide) (fun _ _ => .act (.setAssets 40) .done) _ rfl (by decide)
      (by decide)
  · have hnodup : (([0xC0] :: hashedStrings (Small.tokenEnv [0xC1])
        (.leaf (Vault.Small.asset, keccak256 [0xC0])) Small.transfers [[]]).map keccak256).Nodup := by
      decide +kernel
    have hchanged := hexcludes (Small.tokenEnv [0xC1]) Small.transfers [[]] maxAdapterProofDepth
      (.of_nodup hnodup fun s hs => hs) (by decide +kernel) hok _ (List.mem_cons_self ..)
    exact absurd hchanged.2 (by decide)

end Predict
