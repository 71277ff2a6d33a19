import MandatedVaultFactory.VaultCloneProofs

/-!
# What the vault's code can do to its state

One lemma for each function of the contract, and from them the rule by which every
property of whole runs is proved:

* **`Step`** — all that an entry point other than `execute` writes to the vault's own
  storage, with the guards under which it does.
* **`MandateValid`** — what `validateMandate` has checked; **`World.begun`** — the state
  in which the first action is called.
* **`VaultContract`** — an invariant and its relations, with one obligation per kind of
  write.  **`VaultContract.toContract`** makes it a contract of the machine, so that
  `Contract.sound` applies. -/

namespace Vault

open CallTree Encoding Keccak

/-! ## Entry points without `execute` -/

/-- The writes of the entry points that manage authority, nonces, mandates and the
    epoch, and the event `sweepNative` emits before it calls out. -/
inductive Step (env : Env) : Call → World → World → Prop where
  | initializeVault (w : World) (asset : Address) (name symbol : Bytes)
      (authority : Address) : w.initialized = 0 → authority ≠ 0 →
      Step env (.initializeVault asset name symbol authority) w
        { w with
          initialized := 1, name := name, symbol := symbol, asset := asset,
          authority := authority }
  | proposeAuthority (w : World) (newAuthority : Address) : env.sender = w.authority →
      Step env (.proposeAuthority newAuthority) w
        ({ w with pendingAuthority := newAuthority }.emit env (.proposeAuthority newAuthority)
          (.AuthorityProposed w.authority newAuthority))
  | acceptAuthority (w : World) : env.sender = w.pendingAuthority →
      Step env .acceptAuthority w
        ({ w with
          authority := w.pendingAuthority
          pendingAuthority := 0
          authorityEpoch := w.authorityEpoch + 1 }.emit env .acceptAuthority
            (.AuthorityTransferred w.authority w.pendingAuthority))
  | resetEpoch (w : World) : env.sender = w.authority →
      Step env .resetEpoch w
        ({ w with
          epochAssets := totalAssets w
          epochStart := env.timestamp.setWidth 48 }.emit env .resetEpoch
            (.EpochReset w.authority (totalAssets w) (env.timestamp.setWidth 48)))
  | invalidateNonce (w : World) (nonce : Uint256) : env.sender = w.authority →
      Step env (.invalidateNonce nonce) w
        ((w.useNonce w.authority nonce).emit env (.invalidateNonce nonce)
          (.NonceInvalidated w.authority nonce))
  | invalidateNoncesBelow (w : World) (threshold : Uint256) : env.sender = w.authority →
      w.nonceThreshold w.authority < threshold →
      Step env (.invalidateNoncesBelow threshold) w
        ({ w with
          nonceThreshold := Function.update w.nonceThreshold w.authority threshold }.emit env
            (.invalidateNoncesBelow threshold)
            (.NoncesInvalidatedBelow w.authority threshold))
  | revokeMandate (w : World) (mandateHash : Bytes32) : env.sender = w.authority →
      Step env (.revokeMandate mandateHash) w
        ({ w with
          mandateRevoked := Function.update w.mandateRevoked mandateHash true }.emit env
            (.revokeMandate mandateHash) (.MandateRevoked mandateHash w.authority))
  | sweepNative (w : World) (recipient : Address) (amount : Uint256) :
      env.sender = w.authority →
      Step env (.sweepNative recipient amount) w
        (w.emit env (.sweepNative recipient amount) (.NativeSwept recipient amount))

theorem step_of_initializeVault {env : Env} {asset : Address} {name symbol : Bytes}
    {authority : Address} {w w' : World}
    (h : initializeVault asset name symbol authority w = .ok w') :
    Step env (.initializeVault asset name symbol authority) w w' := by
  simp only [initializeVault, bind_ok, revertIf_ok, exists_const, pure_ok, not_not] at h
  obtain ⟨hinit, hauth, _, rfl⟩ := h
  exact .initializeVault w asset name symbol authority hinit hauth

theorem step_of_proposeAuthority {env : Env} {newAuthority : Address} {w w' : World}
    (h : proposeAuthority env newAuthority w = .ok w') :
    Step env (.proposeAuthority newAuthority) w w' := by
  simp only [proposeAuthority, bind_ok, revertIf_ok, exists_const, pure_ok, not_not] at h
  obtain ⟨hs, rfl⟩ := h
  exact .proposeAuthority w newAuthority hs

theorem step_of_acceptAuthority {env : Env} {w w' : World}
    (h : acceptAuthority env w = .ok w') : Step env .acceptAuthority w w' := by
  simp only [acceptAuthority, bind_ok, revertIf_ok, exists_const, pure_ok, not_not] at h
  obtain ⟨hs, rfl⟩ := h
  exact .acceptAuthority w hs

theorem step_of_resetEpoch {env : Env} {w w' : World} (h : resetEpoch env w = .ok w') :
    Step env .resetEpoch w w' := by
  simp only [resetEpoch, bind_ok, revertIf_ok, exists_const, pure_ok, not_not] at h
  obtain ⟨hs, rfl⟩ := h
  exact .resetEpoch w hs

theorem step_of_invalidateNonce {env : Env} {nonce : Uint256} {w w' : World}
    (h : invalidateNonce env nonce w = .ok w') : Step env (.invalidateNonce nonce) w w' := by
  simp only [invalidateNonce, bind_ok, revertIf_ok, exists_const, pure_ok, not_not] at h
  obtain ⟨hs, rfl⟩ := h
  exact .invalidateNonce w nonce hs

theorem step_of_invalidateNoncesBelow {env : Env} {threshold : Uint256} {w w' : World}
    (h : invalidateNoncesBelow env threshold w = .ok w') :
    Step env (.invalidateNoncesBelow threshold) w w' := by
  simp only [invalidateNoncesBelow, bind_ok, revertIf_ok, exists_const, pure_ok,
    not_not] at h
  obtain ⟨hs, hlt, rfl⟩ := h
  exact .invalidateNoncesBelow w threshold hs (Nat.lt_of_not_le hlt)

theorem step_of_revokeMandate {env : Env} {mandateHash : Bytes32} {w w' : World}
    (h : revokeMandate env mandateHash w = .ok w') :
    Step env (.revokeMandate mandateHash) w w' := by
  simp only [revokeMandate, bind_ok, revertIf_ok, exists_const, pure_ok, not_not] at h
  obtain ⟨hs, rfl⟩ := h
  exact .revokeMandate w mandateHash hs

/-- `w` is the state of a new vault right after `initialize`, with first authority `a`. -/
def Deployed (vault a : Address) (w : World) : Prop :=
  ∃ asset name symbol assets native,
    initializeVault asset name symbol a (World.fresh vault assets native) = .ok w

theorem Deployed.eq {vault a : Address} {w : World} (h : Deployed vault a w) :
    a ≠ 0 ∧ ∃ asset name symbol assets native,
      w = { World.fresh vault assets native with
        initialized := 1, name := name, symbol := symbol, asset := asset, authority := a } := by
  obtain ⟨asset, name, symbol, assets, native, h⟩ := h
  simp only [initializeVault, bind_ok, revertIf_ok, exists_const, pure_ok] at h
  obtain ⟨_, ha, _, rfl⟩ := h
  exact ⟨ha, asset, name, symbol, assets, native, rfl⟩

theorem Small.deployed_deployed (assets : Uint256) :
    Deployed Small.vault Small.authority (Small.deployed assets) :=
  ⟨Small.asset, [], [], assets, 0, rfl⟩

/-- Calling an entry point without external call is applying its function. -/
theorem atomic_exec_ok {f : World → Except Error World} {O : Nat → Msg → World → Except Bytes World}
    {n : Nat} {w t : World} {r : Value} (h : (atomic f w).exec O n = .ok (r, t)) :
    f w = .ok t := by
  rw [atomic] at h
  rw [Code.exec_inline] at h
  cases hf : f w with
  | error e => rw [hf] at h; exact nomatch h
  | ok t' =>
      rw [hf] at h
      exact congrArg Except.ok (congrArg Prod.snd (Except.ok.inj h))

/-! ## The reentrancy guard -/

theorem nonReentrant_of_entered {α : Type} (body : VaultCode α) {w : World} (h : w.entered) :
    nonReentrant body w = .fail .ReentrancyGuardReentrantCall := by
  rw [nonReentrant, Code.bind_apply, Code.get_apply, Prog.ret_bind, if_pos h]
  rfl

theorem nonReentrant_of_idle {α : Type} (body : VaultCode α) {w : World} (h : ¬ w.entered) :
    nonReentrant body w = (body { w with status := 2 }).bind
      fun a t => .ret a { t with status := 1 } := by
  rw [nonReentrant, Code.bind_apply, Code.get_apply, Prog.ret_bind, if_neg h]
  rfl

/-! ## `execute` -/

/-- What steps 1-12a have established when they accept a call. -/
structure MandateValid (P : Platform) (env : Env) (mandate : Mandate) (actions : List Action)
    (signature : Bytes) (adapterProofs : List (List Bytes32)) (extensions : Bytes)
    (w : World) (v : Validated) : Prop where
  fields : MandateLib.FieldsValid env mandate w.authorityEpoch actions.length
    adapterProofs.length extensions.length maxActions maxExtensionsBytes
  extensionsHash : keccak256 extensions = mandate.extensionsHash
  not_revoked : w.mandateRevoked v.mandateHash = false
  signed : signatureValid P env v.authority v.mandateHash signature = true
  threshold : w.nonceThreshold v.authority ≤ mandate.nonce
  unused : w.nonceUsed v.authority mandate.nonce = false
  payload : mandate.payloadDigest = 0 ∨ mandate.payloadDigest = v.actionsDigest
  allowlists : validateAllowlists P env mandate actions adapterProofs extensions
    = .ok v.maxSingleAbsoluteLoss
  authority_eq : v.authority = w.authority
  mandateHash_eq : v.mandateHash = hashMandate P env.chainId w.self mandate
  actionsDigest_eq : v.actionsDigest = hashActions actions

/-- `_validateMandate` accepts exactly the valid mandates, and uses up their nonce. -/
theorem validateMandate_ok (P : Platform) (env : Env) (mandate : Mandate)
    (actions : List Action) (signature : Bytes) (adapterProofs : List (List Bytes32))
    (extensions : Bytes) (w w' : World) (v : Validated) :
    validateMandate P env mandate actions signature adapterProofs extensions w = .ok (v, w')
      ↔ MandateValid P env mandate actions signature adapterProofs extensions w v
        ∧ w' = w.useNonce w.authority mandate.nonce := by
  simp only [validateMandate, verifyAuthoritySig, consumeNonce,
    MandateLib.validatePayloadDigest, bind_ok, revertIf_ok, exists_const, exists_unit_ok,
    pure_ok, MandateLib.validateFields_ok, not_not, Bool.not_eq_true, Bool.not_eq_false, not_and,
    Prod.mk.injEq]
  constructor
  · rintro ⟨hf, hext, hrev, hsig, w₁, ⟨hth, hun, rfl⟩, hpay, l, hall, rfl, rfl⟩
    refine ⟨⟨hf, hext, hrev, hsig, Nat.le_of_not_lt hth, hun, ?_, hall, rfl, rfl, rfl⟩, rfl⟩
    by_cases h0 : mandate.payloadDigest = 0
    · exact Or.inl h0
    · exact Or.inr (hpay h0)
  · obtain ⟨a, h, d, l⟩ := v
    rintro ⟨hv, rfl⟩
    obtain rfl : a = w.authority := hv.authority_eq
    obtain rfl : h = hashMandate P env.chainId w.self mandate := hv.mandateHash_eq
    obtain rfl : d = hashActions actions := hv.actionsDigest_eq
    exact ⟨hv.fields, hv.extensionsHash, hv.not_revoked, hv.signed, _,
      ⟨Nat.not_lt.mpr hv.threshold, hv.unused, rfl⟩,
      fun h0 => hv.payload.resolve_left h0, l, hv.allowlists, rfl, rfl⟩

/-- Accepted actions carry no native value. -/
theorem MandateValid.no_value {P : Platform} {env : Env} {mandate : Mandate}
    {actions : List Action} {signature : Bytes} {adapterProofs : List (List Bytes32)}
    {extensions : Bytes} {w : World} {v : Validated}
    (h : MandateValid P env mandate actions signature adapterProofs extensions w v) :
    ∀ action ∈ actions, action.value = 0 := by
  have hall := h.allowlists
  simp only [validateAllowlists, bind_ok, exists_unit_ok,
    AdapterLib.validateAdapters_ok] at hall
  obtain ⟨⟨used, _, _, hused⟩, _⟩ := hall
  intro action hmem
  obtain ⟨i, hi, rfl⟩ := List.getElem_of_mem hmem
  obtain ⟨hlen, hget⟩ := List.forall₂_iff_get.mp hused
  exact (hget i hi (hlen ▸ hi)).value

/-- The state in which the first action is called: the guard is set, the nonce used up,
    and the epoch started if there was none. -/
def World.begun (w : World) (env : Env) (mandate : Mandate) : World :=
  (snapshot env ({ w with status := 2 }.useNonce w.authority mandate.nonce)).2

theorem World.begun_eq (w : World) (env : Env) (mandate : Mandate) :
    w.begun env mandate = { w.useNonce w.authority mandate.nonce with
      status := 2
      epochStart := if w.epochStart = 0 then env.timestamp.setWidth 48 else w.epochStart
      epochAssets := if w.epochStart = 0 then totalAssets w else w.epochAssets } := by
  rw [World.begun, snapshot]
  show (if w.epochStart = 0 then _ else _ : Uint256 × World).2 = _
  by_cases h0 : w.epochStart = 0
  · simp only [if_pos h0]
    rfl
  · simp only [if_neg h0]
    rfl

/-- The state in which `execute` ends, if the mark is then `mark`. -/
def World.ended (w : World) (env : Env) (call : Call) (v : Validated) (preAssets : Uint256)
    (mark : Uint256) : World :=
  { w with epochAssets := mark, status := 1 }.emit env call
    (.MandateExecuted v.mandateHash v.authority env.sender v.actionsDigest preAssets
      (totalAssets w))

/-- The entry an execution leaves. -/
theorem exists_ended_entry (w : World) (env : Env) (call : Call) (v : Validated)
    (preAssets mark : Uint256) : ∃ e : Logged,
      (w.ended env call v preAssets mark).log = w.log ++ [e] ∧ e.call = call
      ∧ e.event = .MandateExecuted v.mandateHash v.authority env.sender v.actionsDigest preAssets
        (totalAssets w) :=
  ⟨_, rfl, rfl, rfl⟩

theorem not_entered_ended (w : World) (env : Env) (call : Call) (v : Validated)
    (preAssets mark : Uint256) : ¬ (w.ended env call v preAssets mark).entered := by
  show ¬ (1 : Uint256) = 2
  decide

/-- What steps 15-17 have established when they let an execution end with the mark
    `mark`. -/
structure LossBounded (mandate : Mandate) (preAssets : Uint256) (v : Validated) (w : World)
    (mark : Uint256) : Prop where
  single : DrawdownLib.Within preAssets.toNat (totalAssets w).toNat
    mandate.maxDrawdownBps.toNat
  absolute : preAssets.toNat - (totalAssets w).toNat ≤ v.maxSingleAbsoluteLoss.toNat
  cumulative : DrawdownLib.Within w.epochAssets.toNat (totalAssets w).toNat
    mandate.maxCumulativeDrawdownBps.toNat
  mark_eq : mark.toNat = max w.epochAssets.toNat (totalAssets w).toNat

/-- `_postExecution` lets only bounded losses pass. -/
theorem postExecution_ok {env : Env} {call : Call} {mandate : Mandate} {preAssets : Uint256}
    {v : Validated} {w w' : World} {postAssets : Uint256}
    (h : postExecution env call mandate preAssets v w = .ok (postAssets, w')) :
    postAssets = totalAssets w ∧ ∃ mark, LossBounded mandate preAssets v w mark
      ∧ { w' with status := 1 } = w.ended env call v preAssets mark := by
  simp only [postExecution, bind_ok, exists_unit_ok, pure_ok, Prod.mk.injEq] at h
  obtain ⟨hsingle, habs, mark, hcum, rfl, rfl⟩ := h
  obtain ⟨hwithin, hmark⟩ := DrawdownLib.within_of_checkCumulativeDrawdown hcum
  refine ⟨rfl, mark, ⟨DrawdownLib.within_of_checkSingleDrawdown hsingle, ?_, hwithin, hmark⟩,
    rfl⟩
  exact (DrawdownLib.checkSingleAbsoluteLoss_ok _ _ _).mp habs

/-- Validity does not depend on the guard. -/
theorem mandateValid_status {P : Platform} {env : Env} {mandate : Mandate}
    {actions : List Action} {signature : Bytes} {adapterProofs : List (List Bytes32)}
    {extensions : Bytes} {w : World} {v : Validated} (status : Uint256) :
    MandateValid P env mandate actions signature adapterProofs extensions
        { w with status := status } v
      ↔ MandateValid P env mandate actions signature adapterProofs extensions w v :=
  ⟨fun h => ⟨h.fields, h.extensionsHash, h.not_revoked, h.signed, h.threshold, h.unused,
      h.payload, h.allowlists, h.authority_eq, h.mandateHash_eq, h.actionsDigest_eq⟩,
    fun h => ⟨h.fields, h.extensionsHash, h.not_revoked, h.signed, h.threshold, h.unused,
      h.payload, h.allowlists, h.authority_eq, h.mandateHash_eq, h.actionsDigest_eq⟩⟩

theorem snapshot_fst (env : Env) (w : World) : (snapshot env w).1 = totalAssets w := by
  rw [snapshot]
  by_cases h0 : w.epochStart = 0
  · rw [if_pos h0]
  · rw [if_neg h0]

/-- What is left of `execute` once validation has passed. -/
def executeRest (env : Env) (call : Call) (mandate : Mandate) (actions : List Action)
    (v : Validated) (w : World) : Prog World Msg Bytes Error Value :=
  (executeActions actions (w.begun env mandate)).bind fun _ t =>
    (Code.inline (postExecution env call mandate (totalAssets w) v) t).bind fun post t' =>
      .ret (.assets (totalAssets w) post) { t' with status := 1 }

/-- With the guard free and a valid mandate, the rest runs. -/
theorem execute_of_valid {P : Platform} {env : Env} {mandate : Mandate}
    {actions : List Action} {signature : Bytes} {adapterProofs : List (List Bytes32)}
    {extensions : Bytes} {w : World} {v : Validated} (hent : ¬ w.entered)
    (hvalid : MandateValid P env mandate actions signature adapterProofs extensions w v) :
    execute P env mandate actions signature adapterProofs extensions w
      = executeRest env (.execute mandate actions signature adapterProofs extensions)
        mandate actions v w := by
  have hval := (validateMandate_ok P env mandate actions signature adapterProofs extensions
    { w with status := 2 } _ v).mpr ⟨(mandateValid_status 2).mpr hvalid, rfl⟩
  rw [execute, nonReentrant_of_idle _ hent]
  simp only [Code.bind_apply, Code.pure_apply, Prog.bind_assoc]
  rw [Code.inline_ok hval, Prog.ret_bind,
    Code.inline_ok (a := (snapshot env _).1) (t := (snapshot env _).2) rfl, Prog.ret_bind,
    snapshot_fst]
  rfl

/-- `execute` fails without a call out, or the guard was free, the mandate is valid, and
    the rest runs. -/
theorem execute_cases (P : Platform) (env : Env) (mandate : Mandate) (actions : List Action)
    (signature : Bytes) (adapterProofs : List (List Bytes32)) (extensions : Bytes)
    (w : World) :
    (∃ e, execute P env mandate actions signature adapterProofs extensions w = .fail e)
      ∨ (¬ w.entered ∧ ∃ v,
        MandateValid P env mandate actions signature adapterProofs extensions w v
        ∧ execute P env mandate actions signature adapterProofs extensions w
          = executeRest env (.execute mandate actions signature adapterProofs extensions)
            mandate actions v w) := by
  by_cases hent : w.entered
  · rw [execute, nonReentrant_of_entered _ hent]
    exact Or.inl ⟨_, rfl⟩
  · cases hval : validateMandate P env mandate actions signature adapterProofs extensions
        { w with status := 2 } with
    | error e =>
        rw [execute, nonReentrant_of_idle _ hent]
        simp only [Code.bind_apply]
        rw [Code.inline_error hval, Prog.fail_bind, Prog.fail_bind]
        exact Or.inl ⟨e, rfl⟩
    | ok r =>
        have hvalid := (mandateValid_status 2).mp ((validateMandate_ok ..).mp hval).1
        exact Or.inr ⟨hent, r.1, hvalid, execute_of_valid hent hvalid⟩

/-- What `_executeActions` does after action `i`, with `actions` left. -/
def afterAction (i : Nat) (actions : List Action) :
    Except Bytes World → Prog World Msg Bytes Error Unit
  | .ok t => executeActionsFrom (i + 1) actions t
  | .error d => .fail (.ActionCallFailed i (copyReturnData d))

theorem executeActionsFrom_cons (i : Nat) (action : Action) (actions : List Action)
    (w : World) (hv : action.value = 0) :
    executeActionsFrom i (action :: actions) w =
      .call (.adapter action.adapter action.value action.data) w (afterAction i actions) := by
  have hpay : { w with nativeBalance := w.nativeBalance - (0 : Uint256) } = w := by simp
  have hlt : ¬ w.nativeBalance < (0 : Uint256) := by simp
  simp only [executeActionsFrom, externalCall, Code.bind_apply, Code.get_apply,
    Prog.ret_bind, Msg.value, hv, if_neg hlt]
  show Prog.call _ { w with nativeBalance := w.nativeBalance - (0 : Uint256) } _ = _
  rw [hpay]
  congr 1
  funext r
  cases r with
  | ok t => rfl
  | error d => rfl

/-- **Running the actions.**  A predicate that callbacks keep holds when the last action
    has returned.  Induction on the actions; `u` is where the current stretch of code
    began. -/
theorem wp_executeActionsFrom {C G : World → World → Prop} {Q : World → Unit → World → Prop}
    {J : World → Prop} {R : World → World → Prop} (hC : ∀ u t, J t → R u t → C u t)
    (hG : ∀ t t', J t → G t t' → J t') (hrefl : ∀ t, R t t)
    (hQ : ∀ u t, J t → R u t → Q u () t) :
    ∀ (actions : List Action) (i : Nat) (u t : World),
      (∀ action ∈ actions, action.value = 0) → J t → R u t →
      (executeActionsFrom i actions t).wp C G Q u := by
  intro actions
  induction actions with
  | nil => intro i u t _ hJ hu; exact hQ u t hJ hu
  | cons action actions ih =>
      intro i u t hv hJ hu
      rw [executeActionsFrom_cons i action actions t (hv action (List.mem_cons_self ..))]
      refine ⟨hC u t hJ hu, ?_, fun d => trivial⟩
      intro t' ht
      exact ih (i + 1) t' t' (fun a ha => hv a (List.mem_cons_of_mem _ ha))
        (hG t t' hJ ht) (hrefl t')

section Invoke

variable {P : Platform} {env : Env} {mandate : Mandate} {actions : List Action}
  {signature : Bytes} {adapterProofs : List (List Bytes32)} {extensions : Bytes}
  {outs : Nat → Msg → VaultScript} {w : World}

/-- If `execute` succeeds, it got past validation. -/
theorem execute_of_exec_ok {O : Nat → Msg → World → Except Bytes World} {r : Value} {t : World}
    (h : (execute P env mandate actions signature adapterProofs extensions w).exec O 0
      = .ok (r, t)) :
    ¬ w.entered ∧ ∃ v,
      MandateValid P env mandate actions signature adapterProofs extensions w v
      ∧ execute P env mandate actions signature adapterProofs extensions w
        = executeRest env (.execute mandate actions signature adapterProofs extensions)
          mandate actions v w := by
  rcases execute_cases P env mandate actions signature adapterProofs extensions w with
    ⟨e, he⟩ | hrest
  · rw [he] at h
    exact nomatch h
  · exact hrest

/-- The parts of a successful `execute`: validation, the actions, and what follows them. -/
theorem execute_invoke_parts {r : Value} {t : World}
    (h : (vaultMachine P).invoke
      ⟨env, .execute mandate actions signature adapterProofs extensions⟩ outs w = .ok (r, t)) :
    ¬ w.entered ∧ ∃ v s post s',
      MandateValid P env mandate actions signature adapterProofs extensions w v
      ∧ (executeActions actions (w.begun env mandate)).exec ((vaultMachine P).oracle outs) 0
        = .ok ((), s)
      ∧ postExecution env (.execute mandate actions signature adapterProofs extensions) mandate
        (totalAssets w) v s = .ok (post, s')
      ∧ r = .assets (totalAssets w) post
      ∧ t = { s' with status := 1 } := by
  have h' : (execute P env mandate actions signature adapterProofs extensions w).exec
      ((vaultMachine P).oracle outs) 0 = .ok (r, t) := h
  obtain ⟨hent, v, hvalid, he⟩ := execute_of_exec_ok h'
  rw [he, executeRest] at h'
  obtain ⟨_, s, hact, h'⟩ := (Prog.exec_bind_ok ..).mp h'
  obtain ⟨post, s', hpost, h'⟩ := (Prog.exec_bind_ok ..).mp h'
  rw [Code.exec_inline] at hpost
  obtain ⟨rfl, rfl⟩ := Prod.mk.inj (Except.ok.inj h')
  exact ⟨hent, v, s, post, s', hvalid, hact, hpost, rfl, rfl⟩

/-- **A successful `execute`.**  The guard was free, the mandate valid, every action
    succeeded, and the losses are bounded in the state `s` the last action left. -/
theorem execute_invoke_ok {r : Value} {t : World}
    (h : (vaultMachine P).invoke
      ⟨env, .execute mandate actions signature adapterProofs extensions⟩ outs w = .ok (r, t)) :
    ¬ w.entered ∧ ∃ v s mark,
      MandateValid P env mandate actions signature adapterProofs extensions w v
      ∧ (executeActions actions (w.begun env mandate)).exec ((vaultMachine P).oracle outs) 0
        = .ok ((), s)
      ∧ LossBounded mandate (totalAssets w) v s mark
      ∧ r = .assets (totalAssets w) (totalAssets s)
      ∧ t = s.ended env (.execute mandate actions signature adapterProofs extensions) v
        (totalAssets w) mark := by
  obtain ⟨hent, v, s, post, s', hvalid, hact, hpost, hr, ht⟩ := execute_invoke_parts h
  obtain ⟨rfl, mark, hbound, heq⟩ := postExecution_ok hpost
  exact ⟨hent, v, s, mark, hvalid, hact, hbound, hr, ht.trans heq⟩

/-- Nothing after the actions calls out. -/
theorem callouts_executeRest (O : Nat → Msg → World → Except Bytes World) (call : Call)
    (v : Validated) :
    (executeRest env call mandate actions v w).callouts O 0
      = (executeActions actions (w.begun env mandate)).callouts O 0 := by
  refine Prog.callouts_bind_of_silent O _ _ 0 fun _ s i => ?_
  rw [Prog.callouts_bind_of_silent O _ _ i fun _ _ _ => rfl]
  exact Code.callouts_inline O i _ s

/-- An `execute` hands over control only while its actions run. -/
theorem execute_handovers {x : Nat × Msg × World}
    (h : x ∈ (vaultMachine P).handovers
      ⟨env, .execute mandate actions signature adapterProofs extensions⟩ outs w) :
    ¬ w.entered ∧ ∃ v,
      MandateValid P env mandate actions signature adapterProofs extensions w v
      ∧ (vaultMachine P).handovers
        ⟨env, .execute mandate actions signature adapterProofs extensions⟩ outs w
        = (executeActions actions (w.begun env mandate)).callouts
          ((vaultMachine P).oracle outs) 0 := by
  have h' : x ∈ (execute P env mandate actions signature adapterProofs extensions w).callouts
      ((vaultMachine P).oracle outs) 0 := h
  rcases execute_cases P env mandate actions signature adapterProofs extensions w with
    ⟨e, he⟩ | ⟨hent, v, hvalid, he⟩
  · rw [he] at h'
    exact nomatch h'
  · refine ⟨hent, v, hvalid, ?_⟩
    show (execute P env mandate actions signature adapterProofs extensions w).callouts _ _ = _
    rw [he, callouts_executeRest]

/-- A successful `execute` hands over control once for each action. -/
theorem execute_invoke_handovers {r : Value} {t : World}
    (h : (vaultMachine P).invoke
      ⟨env, .execute mandate actions signature adapterProofs extensions⟩ outs w = .ok (r, t)) :
    (vaultMachine P).handovers
      ⟨env, .execute mandate actions signature adapterProofs extensions⟩ outs w
      = (executeActions actions (w.begun env mandate)).callouts
        ((vaultMachine P).oracle outs) 0 := by
  have h' : (execute P env mandate actions signature adapterProofs extensions w).exec
      ((vaultMachine P).oracle outs) 0 = .ok (r, t) := h
  obtain ⟨_, v, _, he⟩ := execute_of_exec_ok h'
  show (execute P env mandate actions signature adapterProofs extensions w).callouts
      ((vaultMachine P).oracle outs) 0 = _
  rw [he, callouts_executeRest]

/-- The last action's callback leaves the state in which the actions end.  Induction on
    the actions. -/
theorem executeActionsFrom_last (O : Nat → Msg → World → Except Bytes World) :
    ∀ (actions : List Action) (i n : Nat) (t s : World),
      (∀ action ∈ actions, action.value = 0) → actions ≠ [] →
      (executeActionsFrom i actions t).exec O n = .ok ((), s) →
      ∃ j m u, ((executeActionsFrom i actions t).callouts O n).getLast? = some (j, m, u)
        ∧ O j m u = .ok s := by
  intro actions
  induction actions with
  | nil => intro i n t s _ hne _; exact absurd rfl hne
  | cons action actions ih =>
      intro i n t s hv _ hexec
      have hv' := fun a ha => hv a (List.mem_cons_of_mem action ha)
      rw [executeActionsFrom_cons i action actions t (hv action (List.mem_cons_self ..))] at hexec ⊢
      let m : Msg := .adapter action.adapter action.value action.data
      have hexec' : (afterAction i actions (O n m t)).exec O (n + 1) = .ok ((), s) := hexec
      show ∃ j m' u,
        ((n, m, t) :: (afterAction i actions (O n m t)).callouts O (n + 1)).getLast? = _ ∧ _
      cases hr : O n m t with
      | error d => rw [hr] at hexec'; cases hexec'
      | ok t' =>
          rw [hr] at hexec'
          have hrest : (executeActionsFrom (i + 1) actions t').exec O (n + 1) = .ok ((), s) :=
            hexec'
          show ∃ j m' u, ((n, m, t)
            :: (executeActionsFrom (i + 1) actions t').callouts O (n + 1)).getLast? = _ ∧ _
          by_cases hnil : actions = []
          · subst hnil
            obtain rfl : t' = s := congrArg Prod.snd (Except.ok.inj hrest)
            exact ⟨n, m, t, rfl, hr⟩
          · obtain ⟨j, m', u, hlast, hO⟩ := ih (i + 1) (n + 1) t' s hv' hnil hrest
            refine ⟨j, m', u, ?_, hO⟩
            rw [List.getLast?_cons, hlast]
            rfl

end Invoke

/-! ## The rule for the vault -/

/-- The obligations of a property of all runs of a vault, if the outside only makes calls
    that `A` allows: one for each kind of write to the state.  Native currency only comes in,
    unless the authority sweeps it.  In `execute`, `J` is what is known while actions run. -/
structure VaultRules (P : Platform) (A : Invocation → World → Prop) where
  inv : World → Prop
  rel : World → World → Prop
  mono : World → World → Prop
  rel_refl : ∀ w, rel w w
  rel_trans : ∀ {w w' w''}, rel w w' → rel w' w'' → rel w w''
  mono_refl : ∀ w, mono w w
  mono_trans : ∀ {w w' w''}, mono w w' → mono w' w'' → mono w w''
  balances : ∀ w assets native, inv w → w.nativeBalance ≤ native →
    let w' := { w with assetBalance := assets, nativeBalance := native }
    inv w' ∧ rel w w' ∧ mono w w'
  sweep : ∀ env recipient amount w, inv w → A ⟨env, .sweepNative recipient amount⟩ w →
    env.sender = w.authority →
    let u := w.emit env (.sweepNative recipient amount) (.NativeSwept recipient amount)
    let w' := { u with nativeBalance := u.nativeBalance - amount }
    inv w' ∧ rel u w' ∧ mono u w'
  shares : ∀ w₀ w l, inv w₀ → ¬ w₀.entered → inv w →
    let w' := { w with shares := l }
    inv w' ∧ rel w w' ∧ mono w w'
  erc20 : ∀ w l, l.totalSupply = w.shares.totalSupply → inv w →
    let w' := { w with shares := l }
    inv w' ∧ rel w w' ∧ mono w w'
  step : ∀ env call w w', inv w → A ⟨env, call⟩ w → Step env call w w' →
    inv w' ∧ rel w w' ∧ mono w w'
  execution : ∀ env mandate actions signature adapterProofs extensions w v, inv w →
    A ⟨env, .execute mandate actions signature adapterProofs extensions⟩ w → ¬ w.entered →
    MandateValid P env mandate actions signature adapterProofs extensions w v →
    ∃ J : World → Prop, J (w.begun env mandate) ∧ mono w (w.begun env mandate)
      ∧ (∀ t, J t → inv t) ∧ (∀ t t', J t → inv t' → rel t t' → mono t t' → J t')
      ∧ ∀ t mark, J t → LossBounded mandate (totalAssets w) v t mark →
        let t' := t.ended env (.execute mandate actions signature adapterProofs extensions) v
          (totalAssets w) mark
        inv t' ∧ rel w t' ∧ mono t t'

namespace VaultRules

variable {P : Platform} {A : Invocation → World → Prop}

/-- One write leads from `w` to `w'` and keeps everything. -/
def Keeps (K : VaultRules P A) (w w' : World) : Prop :=
  K.inv w' ∧ K.rel w w' ∧ K.mono w w'

theorem Keeps.trans {K : VaultRules P A} {w w' w'' : World} (h : K.Keeps w w')
    (h' : K.Keeps w' w'') : K.Keeps w w'' :=
  ⟨h'.1, K.rel_trans h.2.1 h'.2.1, K.mono_trans h.2.2 h'.2.2⟩

theorem keeps_refl (K : VaultRules P A) {w : World} (h : K.inv w) : K.Keeps w w :=
  ⟨h, K.rel_refl w, K.mono_refl w⟩

/-- The specification every entry point is to meet when called in `s`; `u` is where the
    current stretch of code began. -/
abbrev Meets (K : VaultRules P A) {α : Type} (s : World) (p : Prog World Msg Bytes Error α)
    (u : World) : Prop :=
  p.wp (fun u t => K.inv t ∧ K.mono u t) (fun t t' => K.inv t' ∧ K.rel t t' ∧ K.mono t t')
    (fun u _ t => (K.inv t ∧ K.rel s t) ∧ K.mono u t) u

/-- Code that has so far kept everything since `s` may call out.  What follows starts
    from a state that again has kept everything, or from where it was if the call
    failed. -/
theorem meets_externalCall (K : VaultRules P A) {α : Type} {s u t : World} (m : Msg)
    (f : Except Bytes Unit → World → Prog World Msg Bytes Error α) (hst : K.Keeps s t)
    (hut : K.Keeps u t)
    (hpay : K.Keeps t { t with nativeBalance := t.nativeBalance - m.value })
    (hok : ∀ t', K.Keeps s t' → K.Meets s (f (.ok ()) t') t')
    (herr : ∀ d, K.Meets s (f (.error d) t) u) :
    K.Meets s ((externalCall m t).bind f) u := by
  rw [Meets, Prog.wp_bind]
  rw [externalCall]
  rw [Code.bind_apply, Code.get_apply, Prog.ret_bind]
  by_cases hlt : t.nativeBalance < m.value
  · rw [if_pos hlt]
    exact herr []
  · rw [if_neg hlt]
    refine Code.wp_external ⟨hpay.1, K.mono_trans hut.2.2 hpay.2.2⟩ ?_ herr
    rintro t' ⟨hinv, hrel, hmono⟩
    exact hok t' (hst.trans (Keeps.trans hpay ⟨hinv, hrel, hmono⟩))

theorem meets_tokenCall (K : VaultRules P A) {α : Type} {s u t : World} (m : Msg)
    (f : Unit → World → Prog World Msg Bytes Error α) (hv : m.value = 0) (hst : K.Keeps s t)
    (hut : K.Keeps u t) (hok : ∀ t', K.Keeps s t' → K.Meets s (f () t') t') :
    K.Meets s ((tokenCall m t).bind f) u := by
  rw [tokenCall]
  rw [Code.bind_apply, Prog.bind_assoc]
  have hpay := K.balances t t.assetBalance (t.nativeBalance - m.value) hst.1
    (by rw [hv]; simp)
  exact K.meets_externalCall m _ hst hut hpay hok (fun d => trivial)

theorem meets_updateShares (K : VaultRules P A) {α : Type} {s u t : World}
    (g : ShareLedger → Except Error ShareLedger)
    (f : Unit → World → Prog World Msg Bytes Error α)
    (hok : ∀ l, g t.shares = .ok l → K.Meets s (f () { t with shares := l }) u) :
    K.Meets s ((updateShares g t).bind f) u := by
  rw [Meets, Prog.wp_bind]
  refine Code.wp_inline ?_
  intro _ t' h
  cases hg : g t.shares with
  | error e => rw [hg] at h; exact nomatch h
  | ok l =>
      rw [hg] at h
      obtain rfl : { t with shares := l } = t' := congrArg Prod.snd (Except.ok.inj h)
      exact hok l hg

/-- An entry point without external call keeps everything if its write does. -/
theorem meets_atomic (K : VaultRules P A) {s : World} {f : World → Except Error World}
    (h : ∀ t, f s = .ok t → K.Keeps s t) : K.Meets s (atomic f s) s := by
  refine Code.wp_inline ?_
  intro a t hf
  cases hfs : f s with
  | error e => rw [hfs] at hf; exact nomatch hf
  | ok t' =>
      rw [hfs] at hf
      obtain rfl : t' = t := congrArg Prod.snd (Except.ok.inj hf)
      obtain ⟨hinv, hrel, hmono⟩ := h t' hfs
      exact ⟨⟨hinv, hrel⟩, hmono⟩

/-- What is left to show when the code returns. -/
theorem meets_ret (K : VaultRules P A) {α : Type} {s u t : World} (a : α)
    (hst : K.Keeps s t) (hut : K.mono u t) : K.Meets s (.ret a t) u :=
  ⟨⟨hst.1, hst.2.1⟩, hut⟩

/-- The share entry points, which stop at once inside an execution. -/
theorem meets_shareOp (K : VaultRules P A) (env : Env) (op : ShareOp) {s : World}
    (hs : K.inv s) : K.Meets s (shareOp P env op s) s := by
  rw [shareOp]
  rw [Code.bind_apply, Code.get_apply, Prog.ret_bind]
  by_cases hent : s.entered
  · rw [if_pos hent]
    trivial
  · rw [if_neg hent, Code.bind_apply, Meets, Prog.wp_bind]
    refine Code.wp_inline ?_
    intro q t hq
    obtain rfl : s = t := by
      cases hquote : P.quote op (totalAssets s) s.shares with
      | error e => rw [hquote] at hq; exact nomatch hq
      | ok r =>
          rw [hquote] at hq
          exact congrArg Prod.snd (Except.ok.inj hq)
    have hrefl := K.keeps_refl hs
    cases op with
    | deposit assets receiver =>
        refine K.meets_tokenCall _ _ rfl hrefl hrefl fun t' ht => ?_
        refine K.meets_updateShares _ _ fun l _ => ?_
        have hl := K.shares s t' l hs hent ht.1
        exact K.meets_ret _ (ht.trans hl) hl.2.2
    | mint shares receiver =>
        refine K.meets_tokenCall _ _ rfl hrefl hrefl fun t' ht => ?_
        refine K.meets_updateShares _ _ fun l _ => ?_
        have hl := K.shares s t' l hs hent ht.1
        exact K.meets_ret _ (ht.trans hl) hl.2.2
    | withdraw assets receiver owner =>
        refine K.meets_updateShares _ _ fun l _ => ?_
        have hl := K.shares s s l hs hent hs
        refine K.meets_tokenCall _ _ rfl hl hl fun t' ht => ?_
        exact K.meets_ret _ ht (K.mono_refl t')
    | redeem shares receiver owner =>
        refine K.meets_updateShares _ _ fun l _ => ?_
        have hl := K.shares s s l hs hent hs
        refine K.meets_tokenCall _ _ rfl hl hl fun t' ht => ?_
        exact K.meets_ret _ ht (K.mono_refl t')

theorem meets_sweepNative (K : VaultRules P A) (env : Env) (recipient : Address)
    (amount : Uint256) {s : World} (hs : K.inv s)
    (hA : A ⟨env, .sweepNative recipient amount⟩ s) :
    K.Meets s (sweepNative env recipient amount s) s := by
  rw [sweepNative]
  rw [Code.bind_apply, Code.get_apply, Prog.ret_bind]
  by_cases hauth : env.sender = s.authority
  · rw [if_neg (not_not.mpr hauth)]
    by_cases hzero : recipient = 0
    · rw [if_pos hzero]
      trivial
    · rw [if_neg hzero, Code.bind_apply, Code.set_apply, Prog.ret_bind, Code.bind_apply]
      have hemit := K.step env _ s _ hs hA (.sweepNative s recipient amount hauth)
      have hpay := K.sweep env recipient amount s hs hA hauth
      refine K.meets_externalCall _ _ hemit hemit hpay (fun t' ht => ?_) (fun d => trivial)
      exact K.meets_ret _ ht (K.mono_refl t')
  · rw [if_pos hauth]
    trivial

theorem meets_erc20 (K : VaultRules P A) (env : Env) (op : Erc20Op) {s : World}
    (hs : K.inv s) : K.Meets s (dispatch P env (.erc20 op) s) s := by
  refine K.meets_updateShares _ _ fun l hl => ?_
  have := K.erc20 s l (P.totalSupply_erc20 _ _ _ _ hl) hs
  exact K.meets_ret _ this this.2.2

/-- `execute` keeps everything: validation and the start of the epoch by assumption, the
    actions because callbacks keep `J`, the end again by assumption. -/
theorem meets_execute (K : VaultRules P A) (env : Env) (mandate : Mandate)
    (actions : List Action) (signature : Bytes) (adapterProofs : List (List Bytes32))
    (extensions : Bytes) {s : World} (hs : K.inv s)
    (hA : A ⟨env, .execute mandate actions signature adapterProofs extensions⟩ s) :
    K.Meets s (execute P env mandate actions signature adapterProofs extensions s) s := by
  rcases execute_cases P env mandate actions signature adapterProofs extensions s with
    ⟨e, he⟩ | ⟨hent, v, hvalid, he⟩
  · rw [he]
    trivial
  · rw [he, executeRest, Meets, Prog.wp_bind]
    obtain ⟨J, hJ, hmono, hJinv, hstable, hend⟩ := K.execution env mandate actions signature
      adapterProofs extensions s v hs hA hent hvalid
    refine wp_executeActionsFrom (J := J) (R := K.mono) (fun u t h hm => ⟨hJinv t h, hm⟩)
      (fun t t' h hG => hstable t t' h hG.1 hG.2.1 hG.2.2) K.mono_refl ?_ actions 0 s _
      hvalid.no_value hJ hmono
    intro u t hJt hut
    rw [Prog.wp_bind]
    refine Code.wp_inline ?_
    intro post t' hpost
    obtain ⟨rfl, mark, hbound, heq⟩ := postExecution_ok hpost
    obtain ⟨hinv, hrel, hmono'⟩ := hend t mark hJt hbound
    show (K.inv _ ∧ K.rel s _) ∧ K.mono u _
    rw [heq]
    exact ⟨⟨hinv, hrel⟩, K.mono_trans hut hmono'⟩

/-- A property with all obligations met is a contract of the machine. -/
def toContract (K : VaultRules P A) : Contract (vaultMachine P) A where
  inv := K.inv
  rel := K.rel
  mono := K.mono
  rel_refl := K.rel_refl
  rel_trans := K.rel_trans
  mono_refl := K.mono_refl
  mono_trans := K.mono_trans
  move d s hs := by
    cases d with
    | setAssets balance =>
        exact K.balances s balance s.nativeBalance hs (Nat.le_refl s.nativeBalance.toNat)
    | receiveNative amount =>
        exact K.balances s s.assetBalance (credit s.nativeBalance amount) hs (le_credit ..)
  body c s hs hA := by
    obtain ⟨env, call⟩ := c
    have hstep := fun w' => K.step env call s w' hs hA
    cases call with
    | initializeVault asset name symbol authority =>
        exact K.meets_atomic fun t h => hstep t (step_of_initializeVault h)
    | proposeAuthority newAuthority =>
        exact K.meets_atomic fun t h => hstep t (step_of_proposeAuthority h)
    | acceptAuthority => exact K.meets_atomic fun t h => hstep t (step_of_acceptAuthority h)
    | resetEpoch => exact K.meets_atomic fun t h => hstep t (step_of_resetEpoch h)
    | invalidateNonce nonce =>
        exact K.meets_atomic fun t h => hstep t (step_of_invalidateNonce h)
    | invalidateNoncesBelow threshold =>
        exact K.meets_atomic fun t h => hstep t (step_of_invalidateNoncesBelow h)
    | revokeMandate mandateHash =>
        exact K.meets_atomic fun t h => hstep t (step_of_revokeMandate h)
    | execute mandate actions signature adapterProofs extensions =>
        exact K.meets_execute env mandate actions signature adapterProofs extensions hs hA
    | share op => exact K.meets_shareOp env op hs
    | erc20 op => exact K.meets_erc20 env op hs
    | sweepNative recipient amount => exact K.meets_sweepNative env recipient amount hs hA

end VaultRules

/-- The same obligations for a property that does not care about native currency. -/
structure VaultContract (P : Platform) (A : Invocation → World → Prop) where
  inv : World → Prop
  rel : World → World → Prop
  mono : World → World → Prop
  rel_refl : ∀ w, rel w w
  rel_trans : ∀ {w w' w''}, rel w w' → rel w' w'' → rel w w''
  mono_refl : ∀ w, mono w w
  mono_trans : ∀ {w w' w''}, mono w w' → mono w' w'' → mono w w''
  balances : ∀ w assets native, inv w →
    let w' := { w with assetBalance := assets, nativeBalance := native }
    inv w' ∧ rel w w' ∧ mono w w'
  shares : ∀ w₀ w l, inv w₀ → ¬ w₀.entered → inv w →
    let w' := { w with shares := l }
    inv w' ∧ rel w w' ∧ mono w w'
  erc20 : ∀ w l, l.totalSupply = w.shares.totalSupply → inv w →
    let w' := { w with shares := l }
    inv w' ∧ rel w w' ∧ mono w w'
  step : ∀ env call w w', inv w → A ⟨env, call⟩ w → Step env call w w' →
    inv w' ∧ rel w w' ∧ mono w w'
  execution : ∀ env mandate actions signature adapterProofs extensions w v, inv w →
    A ⟨env, .execute mandate actions signature adapterProofs extensions⟩ w → ¬ w.entered →
    MandateValid P env mandate actions signature adapterProofs extensions w v →
    ∃ J : World → Prop, J (w.begun env mandate) ∧ mono w (w.begun env mandate)
      ∧ (∀ t, J t → inv t) ∧ (∀ t t', J t → inv t' → rel t t' → mono t t' → J t')
      ∧ ∀ t mark, J t → LossBounded mandate (totalAssets w) v t mark →
        let t' := t.ended env (.execute mandate actions signature adapterProofs extensions) v
          (totalAssets w) mark
        inv t' ∧ rel w t' ∧ mono t t'

namespace VaultContract

variable {P : Platform} {A : Invocation → World → Prop}

def toRules (K : VaultContract P A) : VaultRules P A where
  inv := K.inv
  rel := K.rel
  mono := K.mono
  rel_refl := K.rel_refl
  rel_trans := K.rel_trans
  mono_refl := K.mono_refl
  mono_trans := K.mono_trans
  balances w assets native hw _ := K.balances w assets native hw
  sweep env recipient amount w hw hA hauth :=
    K.balances _ w.assetBalance (w.nativeBalance - amount)
      (K.step env _ w _ hw hA (.sweepNative w recipient amount hauth)).1
  shares := K.shares
  erc20 := K.erc20
  step := K.step
  execution := K.execution

/-- **The rule for the vault.**  A property with all obligations met is a contract of the
    machine: it holds along every run. -/
def toContract (K : VaultContract P A) : Contract (vaultMachine P) A := K.toRules.toContract

/-- While actions run, callbacks keep the contract. -/
theorem wp_executeActions (K : VaultContract P A) {actions : List Action} {t : World}
    (hv : ∀ action ∈ actions, action.value = 0) (ht : K.inv t) :
    (executeActions actions t).wp (fun u t => K.inv t ∧ K.mono u t)
      (fun t t' => K.inv t' ∧ K.rel t t' ∧ K.mono t t') (fun u _ t => K.inv t ∧ K.mono u t) t :=
  wp_executeActionsFrom (J := K.inv) (R := K.mono) (fun _ _ h hm => ⟨h, hm⟩)
    (fun _ _ _ hG => hG.1) K.mono_refl (fun _ _ h hm => ⟨h, hm⟩) actions 0 t t hv ht
    (K.mono_refl t)

/-- **While actions run.**  An invariant that holds before the first action holds at every
    point of every callback, and in the state the last action leaves. -/
theorem actions_sound (K : VaultContract P A) {actions : List Action}
    {t : World} (outs : Nat → Msg → VaultScript)
    (hv : ∀ action ∈ actions, action.value = 0) (ht : K.inv t)
    (hA : ∀ x ∈ (executeActions actions t).callouts ((vaultMachine P).oracle outs) 0,
      ∀ c v, Point.enter c v ∈ (vaultMachine P).trace (outs x.1 x.2.1) x.2.2 → A c v) :
    (∀ x ∈ (executeActions actions t).callouts ((vaultMachine P).oracle outs) 0,
      K.inv x.2.2 ∧ ∀ p ∈ (vaultMachine P).trace (outs x.1 x.2.1) x.2.2, K.inv p.state)
    ∧ ∀ s, (executeActions actions t).exec ((vaultMachine P).oracle outs) 0 = .ok ((), s) →
      K.inv s := by
  have hupheld : ∀ x ∈ (executeActions actions t).callouts ((vaultMachine P).oracle outs) 0,
      K.inv x.2.2 → K.toContract.Upheld (outs x.1 x.2.1) x.2.2 :=
    fun x hx hs => Contract.sound K.toContract _ _ hs (hA x hx)
  obtain ⟨hcalls, hend⟩ := K.toContract.call_sound ((vaultMachine P).oracle outs) (s := t)
    (Q := K.inv) (executeActions actions t) 0 t (K.mono_refl t) (K.wp_executeActions hv ht)
    (fun c hmem hc t' ht' => (hupheld c hmem hc).result t' ht')
  refine ⟨fun x hx => ⟨(hcalls x hx).1, fun p hp => ?_⟩, fun s hs => (hend () s hs).1⟩
  exact ((hupheld x hx (hcalls x hx).1).points p hp).1

end VaultContract

end Vault
