import MandatedVaultFactory.ReferenceVaultProofs
import MandatedVaultFactory.GuardProofs

/-!
# The clone refines the reference implementation

* **`MandatedVault.validate_ok`** — the reference's checks accept exactly the valid
  mandates, in spite of their order, if no absolute loss limit is asked for.
* **`sim_dispatch_reference`** — while an execution runs, a call from an adapter does the
  same in both vaults.
* **`execute_refines`** — hence `execute` succeeds in one exactly if it does in the other,
  and leaves the same. -/

namespace Vault

open CallTree Encoding Keccak

/-! ## Extensions -/

namespace MandatedVault

/-- The clone's view of what the reference has decoded. -/
def DecodedExtensions.parsed (d : DecodedExtensions) : ParsedExtensions where
  hasSelectorAllowlist := d.hasSelectorAllowlist
  selectorRoot := d.selectorRoot
  selectorProofs := d.selectorProofs

theorem parseExtension_parsed (P : Platform) (d : DecodedExtensions) {ext : Extension}
    (hid : ext.id ≠ absoluteLossLimitId) :
    parseExtension P d.parsed ext = (decodeExtension P d ext).map DecodedExtensions.parsed := by
  have hsupports : Vault.supportsExtension ext.id = supportsExtension ext.id := by
    simp [Vault.supportsExtension, supportsExtension, hid]
  rw [parseExtension, decodeExtension, hsupports]
  cases revertIf (ext.required = true ∧ supportsExtension ext.id = false)
    (.UnsupportedRequiredExtension ext.id) with
  | error e => rfl
  | ok u =>
      by_cases hsel : ext.id = selectorAllowlistId
      · simp only [if_pos hsel]
        cases P.decodeSelectorAllowlist ext.data with
        | none => rfl
        | some r => rfl
      · simp only [if_neg hsel, if_neg hid]
        rfl

/-- Without an absolute loss limit both loops over the extensions do the same.  Induction
    on the extensions. -/
theorem foldlM_parsed (P : Platform) : ∀ (exts : List Extension) (d : DecodedExtensions),
    (∀ ext ∈ exts, ext.id ≠ absoluteLossLimitId) →
    exts.foldlM (parseExtension P) d.parsed
      = (exts.foldlM (decodeExtension P) d).map DecodedExtensions.parsed := by
  intro exts
  induction exts with
  | nil => intro d _; rfl
  | cons ext exts ih =>
      intro d hids
      rw [List.foldlM_cons, List.foldlM_cons,
        parseExtension_parsed P d (hids ext (List.mem_cons_self ..))]
      cases decodeExtension P d ext with
      | error e => rfl
      | ok d' => exact ih d' fun x hx => hids x (List.mem_cons_of_mem ext hx)

/-- The blob asks for no absolute loss limit. -/
def NoLossLimit (P : Platform) (extensions : Bytes) : Prop :=
  ∀ exts, P.decodeExtensions extensions = some exts →
    ∀ ext ∈ exts, ext.id ≠ absoluteLossLimitId

theorem parseExtensions_parsed {P : Platform} {extensions : Bytes}
    (hloss : NoLossLimit P extensions) (hne : extensions.length ≠ 0) :
    parseExtensions P extensions
      = (decodeExtensions P extensions).map DecodedExtensions.parsed := by
  rw [parseExtensions, decodeExtensions, if_pos hne]
  cases hdec : P.decodeExtensions extensions with
  | none => rfl
  | some exts =>
      have hfold := foldlM_parsed P exts {} (hloss exts hdec)
      show (do
        revertIf (maxExtensions < exts.length) (.TooManyExtensions exts.length)
        revertIf (canonicalExtensions exts = false) .ExtensionsNotCanonical
        exts.foldlM (parseExtension P) (DecodedExtensions.parsed {})) = Except.map _ (do
        revertIf (maxExtensions < exts.length) (.TooManyExtensions exts.length)
        revertIf (canonicalExtensions exts = false) .ExtensionsNotCanonical
        exts.foldlM (decodeExtension P) {})
      rw [hfold]
      cases revertIf (maxExtensions < exts.length) (.TooManyExtensions exts.length) with
      | error e => rfl
      | ok u =>
          cases revertIf (canonicalExtensions exts = false) .ExtensionsNotCanonical with
          | error e => rfl
          | ok u => rfl

/-! ## Allowlists -/

theorem checkAdaptersFrom_eq (P : Platform) (env : Env) (mandate : Mandate) :
    ∀ (actions : List Action) (i : Nat) (proofs : List (List Bytes32)),
      checkAdaptersFrom P env mandate i actions proofs
        = AdapterLib.validateAdaptersFrom P env mandate.allowedAdaptersRoot
          maxAdapterProofDepth i actions proofs := by
  intro actions
  induction actions with
  | nil => intro i proofs; rfl
  | cons action actions ih =>
      intro i proofs
      cases proofs with
      | nil => rfl
      | cons proof proofs =>
          simp only [checkAdaptersFrom, AdapterLib.validateAdaptersFrom, ih]

theorem enforceSelectorsFrom_eq (P : Platform) (root : Bytes32) :
    ∀ (actions : List Action) (i : Nat) (proofs : List (List Bytes32)),
      enforceSelectorsFrom P root i actions proofs
        = AdapterLib.enforceSelectorsFrom P root maxSelectorProofDepth i actions proofs := by
  intro actions
  induction actions with
  | nil => intro i proofs; rfl
  | cons action actions ih =>
      intro i proofs
      cases proofs with
      | nil => rfl
      | cons proof proofs =>
          simp only [enforceSelectorsFrom, AdapterLib.enforceSelectorsFrom, ih]

theorem enforceSelectorAllowlist_eq (P : Platform) (actions : List Action) (root : Bytes32)
    (proofs : List (List Bytes32)) :
    enforceSelectorAllowlist P actions root proofs
      = AdapterLib.enforceSelectorAllowlist P actions root proofs maxSelectorProofDepth := by
  rw [enforceSelectorAllowlist, AdapterLib.enforceSelectorAllowlist, enforceSelectorsFrom_eq]

/-- Without an absolute loss limit the clone's allowlist step accepts what the reference's
    steps 6a, 12 and 12a accept. -/
theorem validateAllowlists_ok {P : Platform} {env : Env} {mandate : Mandate}
    {actions : List Action} {adapterProofs : List (List Bytes32)} {extensions : Bytes}
    (hloss : NoLossLimit P extensions) (limit : Uint256) :
    validateAllowlists P env mandate actions adapterProofs extensions = .ok limit
      ↔ limit = BitVec.allOnes 256
        ∧ checkAdaptersFrom P env mandate 0 actions adapterProofs = .ok ()
        ∧ ∃ d, decodeExtensions P extensions = .ok d
          ∧ (d.hasSelectorAllowlist = true →
            enforceSelectorAllowlist P actions d.selectorRoot d.selectorProofs = .ok ()) := by
  rw [validateAllowlists, AdapterLib.validateAdapters, checkAdaptersFrom_eq]
  -- without extensions both stop after the adapters
  by_cases hne : extensions.length = 0
  · rw [decodeExtensions, if_neg (not_not.mpr hne)]
    simp only [bind_ok, exists_unit_ok, if_pos hne, pure_ok]
    constructor
    · rintro ⟨hcheck, rfl⟩
      exact ⟨rfl, hcheck, {}, rfl, fun h => absurd h Bool.false_ne_true⟩
    · rintro ⟨rfl, hcheck, _⟩
      exact ⟨hcheck, rfl⟩
  · rw [if_neg hne, parseExtensions_parsed hloss hne]
    cases hdec : decodeExtensions P extensions with
    | error e =>
        simp only [bind_ok, exists_unit_ok]
        constructor
        · rintro ⟨_, parsed, h, _⟩
          cases h
        · rintro ⟨_, _, d, h, _⟩
          cases h
    | ok d =>
        obtain ⟨has, root, proofs⟩ := d
        -- the selector allowlist is enforced only if the first loop found one
        cases has with
        | false =>
            simp only [bind_ok, exists_unit_ok]
            constructor
            · rintro ⟨hcheck, parsed, hparsed, h⟩
              obtain rfl := Except.ok.inj hparsed
              obtain rfl : BitVec.allOnes 256 = limit := Except.ok.inj h
              exact ⟨rfl, hcheck, _, rfl, fun h => absurd h Bool.false_ne_true⟩
            · rintro ⟨rfl, hcheck, _⟩
              exact ⟨hcheck, _, rfl, rfl⟩
        | true =>
            simp only [bind_ok, exists_unit_ok]
            constructor
            · rintro ⟨hcheck, parsed, hparsed, h⟩
              obtain rfl := Except.ok.inj hparsed
              obtain ⟨_, henforce, hlimit⟩ := (bind_ok _ _ _).mp h
              obtain rfl : BitVec.allOnes 256 = limit := Except.ok.inj hlimit
              refine ⟨rfl, hcheck, _, rfl, fun _ => ?_⟩
              rw [enforceSelectorAllowlist_eq]
              exact henforce
            · rintro ⟨rfl, hcheck, d, hd, henforce⟩
              obtain rfl := Except.ok.inj hd
              refine ⟨hcheck, _, rfl, (bind_ok _ _ _).mpr ⟨(), ?_, rfl⟩⟩
              have := henforce rfl
              rwa [enforceSelectorAllowlist_eq] at this

/-! ## Steps 1-12a -/

/-- The reference accepts exactly the mandates that are valid for the clone, and uses up
    their nonce. -/
theorem validate_ok {P : Platform} {extensions : Bytes} (hloss : NoLossLimit P extensions)
    (env : Env) (mandate : Mandate) (actions : List Action) (signature : Bytes)
    (adapterProofs : List (List Bytes32)) (w w' : World) (authority : Address)
    (mandateHash actionsDigest : Bytes32) :
    validate P env mandate actions signature adapterProofs extensions w
        = .ok ((authority, mandateHash, actionsDigest), w')
      ↔ MandateValid P env mandate actions signature adapterProofs extensions w
          ⟨authority, mandateHash, actionsDigest, BitVec.allOnes 256⟩
        ∧ w' = w.useNonce w.authority mandate.nonce := by
  have hfields := MandateLib.validateFields_ok env mandate w.authorityEpoch actions.length
    adapterProofs.length extensions.length maxActions maxExtensionsBytes
  simp only [MandateLib.validateFields, bind_ok, revertIf_ok, exists_const] at hfields
  simp only [validate, verifyAuthoritySig, bind_ok, revertIf_ok, exists_const, exists_unit_ok,
    Bool.not_eq_true, Bool.not_eq_false, not_and]
  constructor
  · rintro ⟨h1, h2, h3, h4, h5, h6, h7, h8, h9, h10, h11, hext, d, hdec, hrev, hsig, hth, hun,
      hpay, hcheck, hsel⟩
    -- the last `if` of the reference, on either branch
    have hselector : (d.hasSelectorAllowlist = true →
          enforceSelectorAllowlist P actions d.selectorRoot d.selectorProofs = .ok ())
        ∧ ((w.authority, hashMandate P env.chainId w.self mandate, hashActions actions),
            w.useNonce w.authority mandate.nonce)
          = ((authority, mandateHash, actionsDigest), w') := by
      by_cases hhas : d.hasSelectorAllowlist = true
      · rw [if_pos hhas] at hsel
        obtain ⟨_, henforce, hret⟩ := (bind_ok _ _ _).mp hsel
        exact ⟨fun _ => henforce, Except.ok.inj hret⟩
      · rw [if_neg hhas] at hsel
        exact ⟨fun h => absurd h hhas, Except.ok.inj hsel⟩
    obtain ⟨henforce, hret⟩ := hselector
    obtain ⟨htriple, rfl⟩ := Prod.mk.inj hret
    obtain ⟨rfl, hpair⟩ := Prod.mk.inj htriple
    obtain ⟨rfl, rfl⟩ := Prod.mk.inj hpair
    refine ⟨⟨hfields.mp ⟨fun h => h1 h.1 h.2, fun h => h2 h.1 h.2, fun h => h3 h.1 h.2, h4, h5,
      h6, h7, h8, h9, h10, h11⟩, not_not.mp hext, hrev, hsig, Nat.le_of_not_lt hth, hun, ?_,
      (validateAllowlists_ok hloss _).mpr ⟨rfl, hcheck, d, hdec, henforce⟩, rfl, rfl, rfl⟩, rfl⟩
    by_cases h0 : mandate.payloadDigest = 0
    · exact Or.inl h0
    · exact Or.inr (not_not.mp (hpay h0))
  · rintro ⟨hv, rfl⟩
    obtain rfl : authority = w.authority := hv.authority_eq
    obtain rfl : mandateHash = hashMandate P env.chainId w.self mandate := hv.mandateHash_eq
    obtain rfl : actionsDigest = hashActions actions := hv.actionsDigest_eq
    obtain ⟨h1, h2, h3, h4, h5, h6, h7, h8, h9, h10, h11⟩ := hfields.mpr hv.fields
    obtain ⟨_, hcheck, d, hdec, henforce⟩ := (validateAllowlists_ok hloss _).mp hv.allowlists
    refine ⟨fun a b => h1 ⟨a, b⟩, fun a b => h2 ⟨a, b⟩, fun a b => h3 ⟨a, b⟩, h4, h5, h6, h7, h8,
      h9, h10, h11, not_not.mpr hv.extensionsHash, d, hdec, hv.not_revoked, hv.signed,
      Nat.not_lt.mpr hv.threshold, hv.unused,
      fun h0 => not_not.mpr (hv.payload.resolve_left h0), hcheck, ?_⟩
    by_cases hhas : d.hasSelectorAllowlist = true
    · rw [if_pos hhas]
      exact (bind_ok _ _ _).mpr ⟨(), henforce hhas, rfl⟩
    · rw [if_neg hhas]
      rfl

/-! ## Steps 15-17 -/

/-- An unlimited absolute loss is no check. -/
theorem finish_eq (env : Env) (call : Call) (mandate : Mandate) (preAssets : Uint256)
    (authority : Address) (mandateHash actionsDigest : Bytes32) (w : World) :
    finish env call mandate preAssets authority mandateHash actionsDigest w
      = postExecution env call mandate preAssets
        ⟨authority, mandateHash, actionsDigest, BitVec.allOnes 256⟩ w := by
  have habs : DrawdownLib.checkSingleAbsoluteLoss preAssets (totalAssets w)
      (BitVec.allOnes 256) = .ok () := by
    rw [DrawdownLib.checkSingleAbsoluteLoss_ok, BitVec.toNat_allOnes]
    have := preAssets.isLt
    omega
  rw [postExecution, finish]
  simp only [habs, DrawdownLib.checkCumulativeDrawdown, bind_assoc, pure_bind]
  congr 1
  funext _
  show _ = (do
    let _ ← (if w.epochAssets ≠ 0 ∧ totalAssets w < w.epochAssets then _ else _ : Except Error Unit)
    _ : Except Error (Uint256 × World))
  congr 1
  funext _
  by_cases hlt : w.epochAssets < totalAssets w
  · rw [if_pos hlt, if_pos hlt]
  · rw [if_neg hlt, if_neg hlt]

end MandatedVault

/-! ## Calls from adapters -/

/-- Entries other than those of `sweepNative`, which the two vaults make at different
    moments. -/
def Logged.notSweep (e : Logged) : Bool :=
  match e.event with
  | .NativeSwept .. => false
  | _ => true

theorem sim_sweepNative_reference {s t : World} (h : Alike Logged.notSweep s t) (env : Env)
    (recipient : Address) (amount : Uint256) :
    AlikeSim Logged.notSweep Eq (sweepNative env recipient amount s)
      (MandatedVault.sweepNative env recipient amount t) := by
  have hauth : t.authority = s.authority := by
    obtain ⟨status, log, rfl, _, _⟩ := h
    rfl
  rw [sweepNative, MandatedVault.sweepNative, Code.bind_apply, Code.bind_apply]
  rw [Code.get_apply, Code.get_apply, Prog.ret_bind, Prog.ret_bind, hauth]
  by_cases hsender : env.sender ≠ s.authority
  · rw [if_pos hsender, if_pos hsender]
    exact .fail rfl
  · rw [if_neg hsender, if_neg hsender]
    by_cases hzero : recipient = 0
    · rw [if_pos hzero, if_pos hzero]
      exact .fail rfl
    · rw [if_neg hzero, if_neg hzero, Code.bind_apply, Code.bind_apply, Code.set_apply,
        Prog.ret_bind]
      -- the clone's event first, the reference's at the end
      refine (sim_externalCall (h.emit_left env _ _ rfl) _).bind ?_
      intro r s' t' h'
      cases r with
      | ok u => exact .ret _ (h'.emit_right env _ _ rfl)
      | error d => exact .fail rfl

/-- **While an execution runs, a call does the same in both vaults.** -/
theorem sim_dispatch_reference {w s t : World} (hinit : w.initialized ≠ 0)
    (hs : Guarded w s) (h : Alike Logged.notSweep s t) (P : Platform) (env : Env)
    (call : Call) :
    AlikeSim Logged.notSweep Eq (dispatch P env call s)
      (MandatedVault.dispatch P env call t) := by
  cases call with
  | initializeVault asset name symbol authority =>
      have hfail : dispatch P env (.initializeVault asset name symbol authority) s
          = .fail .InvalidInitialization := by
        have herr : initializeVault asset name symbol authority s
            = .error .InvalidInitialization := by
          rw [initializeVault, revertIf, if_pos (hs.initialized hinit)]
          rfl
        show atomic (initializeVault asset name symbol authority) s = _
        rw [atomic, Code.inline_error (by rw [herr]; rfl)]
      rw [hfail]
      exact .fail rfl
  | execute mandate actions signature adapterProofs extensions =>
      show AlikeSim _ _ (nonReentrant _ s) (nonReentrant _ t)
      rw [nonReentrant_of_entered _ hs.entered,
        nonReentrant_of_entered _ (h.entered.mpr hs.entered)]
      exact .fail rfl
  | sweepNative recipient amount => exact sim_sweepNative_reference h env recipient amount
  | proposeAuthority newAuthority => exact sim_dispatch h P env (.proposeAuthority newAuthority)
  | acceptAuthority => exact sim_dispatch h P env .acceptAuthority
  | resetEpoch => exact sim_dispatch h P env .resetEpoch
  | invalidateNonce nonce => exact sim_dispatch h P env (.invalidateNonce nonce)
  | invalidateNoncesBelow threshold =>
      exact sim_dispatch h P env (.invalidateNoncesBelow threshold)
  | revokeMandate mandateHash => exact sim_dispatch h P env (.revokeMandate mandateHash)
  | share op => exact sim_dispatch h P env (.share op)
  | erc20 op => exact sim_dispatch h P env (.erc20 op)

/-- So does every script of an adapter. -/
theorem agree_reference {w : World} (hinit : w.initialized ≠ 0) (P : Platform)
    (sc : VaultScript) (s t : World) (h : Guarded w s ∧ Alike Logged.notSweep s t) :
    AgreeRun (fun s t => Guarded w s ∧ Alike Logged.notSweep s t)
      ((vaultMachine P).run sc s) ((referenceMachine P).run sc t) := by
  refine Machine.agree_of_sim (fun _ _ h => h.2.view) ?_ ?_ sc s t h
  · rintro d s t ⟨hs, h⟩
    exact ⟨((guardContract P w).toContract.move d s hs).1, h.move d⟩
  · rintro c s t ⟨hs, h⟩
    refine (sim_dispatch_reference hinit hs h P c.env c.call).and_inv s ?_
    exact Prog.wp_mono (fun _ _ h => h.1) (fun _ _ h => ⟨h, trivial, trivial⟩)
      (fun _ _ _ h => h.1.1) _ s ((guardContract P w).toContract.body c s hs trivial)

/-! ## `execute` -/

/-- The loops over the actions match, up to the data a failing action returns.  Induction on
    the actions. -/
theorem sim_executeActions_reference : ∀ (actions : List Action) (i : Nat) (s t : World),
    Alike Logged.notSweep s t →
    AlikeSim Logged.notSweep (fun _ _ => True) (executeActionsFrom i actions s)
      (MandatedVault.executeActionsFrom i actions t) := by
  intro actions
  induction actions with
  | nil => intro i s t h; exact .ret () h
  | cons action actions ih =>
      intro i s t h
      rw [executeActionsFrom, MandatedVault.executeActionsFrom, Code.bind_apply,
        Code.bind_apply]
      refine (sim_externalCall h _).bind ?_
      intro r s' t' h'
      cases r with
      | ok u => exact ih (i + 1) s' t' h'
      | error d => exact .fail trivial

/-- Two vaults that differ in the entries of `sweepNative` only, with the same last entry. -/
def SameVault (s t : World) : Prop :=
  ∃ log, t = { s with log := log }
    ∧ log.filter Logged.notSweep = s.log.filter Logged.notSweep
    ∧ ∃ e, s.log.getLast? = some e ∧ log.getLast? = some e

/-- **Both versions of `execute` match**, call out for call out. -/
theorem sim_execute_reference {P : Platform} {extensions : Bytes}
    (hloss : MandatedVault.NoLossLimit P extensions) (env : Env) (mandate : Mandate)
    (actions : List Action) (signature : Bytes) (adapterProofs : List (List Bytes32))
    (w : World) :
    Prog.Sim (Alike Logged.notSweep) SameVault (fun _ _ => True)
      (execute P env mandate actions signature adapterProofs extensions w)
      (MandatedVault.execute P env mandate actions signature adapterProofs extensions w) := by
  rw [execute, MandatedVault.execute]
  by_cases hent : w.entered
  · rw [nonReentrant_of_entered _ hent, nonReentrant_of_entered _ hent]
    exact .fail trivial
  · rw [nonReentrant_of_idle _ hent, nonReentrant_of_idle _ hent]
    simp only [Code.bind_apply, Code.pure_apply, Prog.bind_assoc]
    have hvalidate := MandatedVault.validate_ok hloss env mandate actions signature
      adapterProofs { w with status := 2 }
    cases hval : validateMandate P env mandate actions signature adapterProofs extensions
        { w with status := 2 } with
    | error e =>
        -- whatever the reference accepts, the clone accepts
        have href : ∃ e', MandatedVault.validate P env mandate actions signature adapterProofs
            extensions { w with status := 2 } = .error e' := by
          cases hr : MandatedVault.validate P env mandate actions signature adapterProofs
              extensions { w with status := 2 } with
          | error e' => exact ⟨e', rfl⟩
          | ok r =>
              obtain ⟨hvalid, hw⟩ := (hvalidate r.2 r.1.1 r.1.2.1 r.1.2.2).mp hr
              cases hval.symm.trans ((validateMandate_ok ..).mpr ⟨hvalid, hw⟩)
        obtain ⟨e', href⟩ := href
        rw [Code.inline_error hval, Code.inline_error href]
        exact .fail trivial
    | ok r =>
        obtain ⟨⟨authority, mandateHash, actionsDigest, limit⟩, w'⟩ := r
        obtain ⟨hvalid, hw⟩ := (validateMandate_ok ..).mp hval
        obtain ⟨rfl, _⟩ := (MandatedVault.validateAllowlists_ok hloss limit).mp
          hvalid.allowlists
        rw [Code.inline_ok hval,
          Code.inline_ok ((hvalidate w' authority mandateHash actionsDigest).mpr ⟨hvalid, hw⟩),
          Prog.ret_bind, Prog.ret_bind]
        refine Prog.Sim.bind (Prog.Sim.inline (agree_snapshot (Alike.refl Logged.notSweep w') env)) ?_
        intro pre s₁ t₁ h₁
        refine (sim_executeActions_reference actions 0 s₁ t₁ h₁).bind ?_
        intro _ s₂ t₂ h₂
        have hpost := agree_postExecution (R := fun _ _ => True) (fun _ => trivial) h₂ env
          (.execute mandate actions signature adapterProofs extensions) mandate pre
          ⟨authority, mandateHash, actionsDigest, BitVec.allOnes 256⟩
        rw [← MandatedVault.finish_eq env _ mandate pre authority mandateHash actionsDigest t₂]
          at hpost
        refine (Prog.Sim.inline hpost).bind ?_
        rintro post s₃ _ ⟨⟨status, log, rfl, _, hlog⟩, hlast⟩
        exact .ret _ ⟨log, rfl, hlog, hlast⟩

/-- **The clone refines the reference.**  In any state of an initialised vault, for any
    caller, and whatever adapters and authority do: a call of `execute` whose extensions ask
    for no absolute loss limit succeeds in the clone exactly if it succeeds in the reference.
    Then both return the same assets and leave the same state, up to the place of
    `NativeSwept` entries in the log, with the same `MandateExecuted` at its end.  A failed
    call leaves either as it was. -/
theorem execute_refines {P : Platform} {w : World} (hinit : w.initialized ≠ 0)
    {extensions : Bytes} (hloss : MandatedVault.NoLossLimit P extensions) (env : Env)
    (mandate : Mandate) (actions : List Action) (signature : Bytes)
    (adapterProofs : List (List Bytes32)) (outs : Nat → Msg → VaultScript) :
    let M := vaultMachine P
    let N := referenceMachine P
    let c : Invocation :=
      ⟨env, .execute mandate actions signature adapterProofs extensions⟩
    ((∃ r t, M.invoke c outs w = .ok (r, t)) ↔ ∃ r t, N.invoke c outs w = .ok (r, t))
    ∧ (∀ r t r' t', M.invoke c outs w = .ok (r, t) → N.invoke c outs w = .ok (r', t') →
      r' = r ∧ t' = { t with log := t'.log }
      ∧ t'.log.filter Logged.notSweep = t.log.filter Logged.notSweep
      ∧ ∃ pre post e, r = .assets pre post
        ∧ e.event = .MandateExecuted (hashMandate P env.chainId w.self mandate) w.authority
          env.sender (hashActions actions) pre post
        ∧ t.log.getLast? = some e ∧ t'.log.getLast? = some e)
    ∧ ∀ k, (∀ e, M.invoke c outs w = .error e → M.run (.call c outs k) w = M.run (k (.error e)) w)
      ∧ ∀ e, N.invoke c outs w = .error e → N.run (.call c outs k) w = N.run (k (.error e)) w := by
  intro M N c
  have hsim := (sim_execute_reference hloss env mandate actions signature adapterProofs w).and_inv
    (J := fun _ => True) w
    (wp_execute_guarded P env mandate actions signature adapterProofs extensions w)
  have hagree : Agree (fun s t => True ∧ SameVault s t) (fun _ _ => True) (M.invoke c outs w)
      (N.invoke c outs w) :=
    hsim.exec (fun i m s t h => agree_reference hinit P (outs i m) s t h) 0
  refine ⟨?_, ?_, fun k => ⟨?_, ?_⟩⟩
  · generalize M.invoke c outs w = x at hagree
    generalize N.invoke c outs w = y at hagree
    cases hagree with
    | ok a h => exact ⟨fun _ => ⟨a, _, rfl⟩, fun _ => ⟨a, _, rfl⟩⟩
    | error h =>
        constructor
        · rintro ⟨_, _, h⟩
          exact nomatch h
        · rintro ⟨_, _, h⟩
          exact nomatch h
  · intro r t r' t' h h'
    obtain ⟨_, v, s, mark, hvalid, _, _, hr, ht⟩ := execute_invoke_ok h
    rw [h, h'] at hagree
    cases hagree with
    | ok a hsame =>
        obtain ⟨_, log, rfl, hlog, e, he, he'⟩ := hsame
        refine ⟨rfl, rfl, hlog, totalAssets w, totalAssets s, e, hr, ?_, he, he'⟩
        -- the entry that both logged is the one that the vault writes last
        rw [ht] at he
        have hlast : some _ = some e := (List.getLast?_concat ..).symm.trans he
        rw [← Option.some.inj hlast, ← hvalid.mandateHash_eq, ← hvalid.authority_eq,
          ← hvalid.actionsDigest_eq]
  · intro e h
    rw [Machine.run_call, h]
  · intro e h
    rw [Machine.run_call, h]

/-- An execution that loses 5 goes through in both vaults. -/
theorem execute_refines_small :
    ∃ t t', (vaultMachine .plain).invoke (Small.execution (Small.mandate 1 1000 1000))
        (fun _ _ => .act (.setAssets 95) .done) (Small.deployed 100) = .ok (.assets 100 95, t)
      ∧ (referenceMachine .plain).invoke (Small.execution (Small.mandate 1 1000 1000))
        (fun _ _ => .act (.setAssets 95) .done) (Small.deployed 100) = .ok (.assets 100 95, t')
      ∧ t' = { t with log := t'.log } := by
  obtain ⟨r, t, h, htest⟩ := (Machine.invokesTo_iff (vaultMachine .plain)
    (Small.execution (Small.mandate 1 1000 1000)) (fun _ _ => .act (.setAssets 95) .done)
    (Small.deployed 100) (fun r _ => r = .assets 100 95)).mp (by decide +kernel)
  obtain rfl : r = .assets 100 95 := by simpa using htest
  obtain ⟨hiff, hsame, _⟩ := execute_refines (P := .plain) (w := Small.deployed 100)
    (by decide) (fun exts hdec => nomatch hdec) (Small.env Small.executor)
    (Small.mandate 1 1000 1000) Small.actions [] [[]] (fun _ _ => .act (.setAssets 95) .done)
  obtain ⟨r', t', h'⟩ := hiff.mp ⟨_, t, h⟩
  obtain ⟨rfl, ht, _⟩ := hsame _ t r' t' h h'
  exact ⟨t, t', h, h', ht⟩

end Vault
