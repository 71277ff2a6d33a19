import MandatedVaultFactory.VaultStepProofs

/-!
# States that no entry point tells apart

Of the guard's slot the contract only reads whether it is entered, and its log it does
not read at all.  Two states that differ in no more than that are `Alike`.

* **`sim_dispatch`** — every entry point does the same from alike states, call out for
  call out, and ends in alike states.
* **`agree_of_alike`** — hence so does every script. -/

namespace Vault

open CallTree Encoding

/-- `t` is `s` with a guard slot that means the same, and with a log that has the same
    entries as far as `keep` selects them. -/
def Alike (keep : Logged → Bool) (s t : World) : Prop :=
  ∃ status log, t = { s with status := status, log := log }
    ∧ (status = 2 ↔ s.entered) ∧ log.filter keep = s.log.filter keep

namespace Alike

variable {keep : Logged → Bool} {s t : World}

theorem refl (keep : Logged → Bool) (s : World) : Alike keep s s :=
  ⟨s.status, s.log, rfl, Iff.rfl, rfl⟩

/-- Whatever the slot holds, as long as it does not mean entered. -/
theorem of_idle (keep : Logged → Bool) {status : Uint256} (ht : ¬ t.entered)
    (hstatus : ¬ status = 2) : Alike keep { t with status := status } t :=
  ⟨t.status, t.log, rfl, ⟨fun h => absurd h ht, fun h => absurd h hstatus⟩, rfl⟩

theorem entered (h : Alike keep s t) : t.entered ↔ s.entered := by
  obtain ⟨status, log, rfl, hstatus, _⟩ := h
  exact hstatus

/-- The outside sees the same. -/
theorem view (h : Alike keep s t) :
    ({ s with status := 0, log := [] } : World) = { t with status := 0, log := [] } := by
  obtain ⟨status, log, rfl, _, _⟩ := h
  rfl

/-- The same event emitted from both. -/
theorem emit (h : Alike keep s t) (env : Env) (call : Call) (event : Event) :
    Alike keep (s.emit env call event) (t.emit env call event) := by
  obtain ⟨status, log, rfl, hstatus, hlog⟩ := h
  refine ⟨status, _, rfl, hstatus, ?_⟩
  show (log ++ _).filter keep = (s.log ++ _).filter keep
  rw [List.filter_append, List.filter_append, hlog]

/-- An event that is not selected emitted from the first. -/
theorem emit_left (h : Alike keep s t) (env : Env) (call : Call) (event : Event)
    (hkeep : keep ⟨env.sender, env.chainId, call, event⟩ = false) :
    Alike keep (s.emit env call event) t := by
  obtain ⟨status, log, rfl, hstatus, hlog⟩ := h
  refine ⟨status, log, rfl, hstatus, ?_⟩
  show log.filter keep = (s.log ++ [_]).filter keep
  rw [List.filter_append, List.filter_cons_of_neg (by simpa using hkeep), List.filter_nil,
    List.append_nil, hlog]

/-- An event that is not selected emitted from the second. -/
theorem emit_right (h : Alike keep s t) (env : Env) (call : Call) (event : Event)
    (hkeep : keep ⟨env.sender, env.chainId, call, event⟩ = false) :
    Alike keep s (t.emit env call event) := by
  obtain ⟨status, log, rfl, hstatus, hlog⟩ := h
  refine ⟨status, _, rfl, hstatus, ?_⟩
  show (log ++ [_]).filter keep = s.log.filter keep
  rw [List.filter_append, List.filter_cons_of_neg (by simpa using hkeep), List.filter_nil,
    List.append_nil, hlog]

/-- The same value written to the guard's slot of both. -/
theorem setStatus (h : Alike keep s t) (status : Uint256) :
    Alike keep { s with status := status } { t with status := status } := by
  obtain ⟨_, log, rfl, _, hlog⟩ := h
  exact ⟨status, log, rfl, Iff.rfl, hlog⟩

theorem move (h : Alike keep s t) (d : Move) : Alike keep (applyMove d s) (applyMove d t) := by
  obtain ⟨status, log, rfl, hstatus, hlog⟩ := h
  cases d with
  | setAssets balance => exact ⟨status, log, rfl, hstatus, hlog⟩
  | receiveNative amount => exact ⟨status, log, rfl, hstatus, hlog⟩

end Alike

/-- Programs that match call out for call out, from alike states to alike states. -/
abbrev AlikeSim (keep : Logged → Bool) (R : Error → Error → Prop) {α : Type}
    (p q : Prog World Msg Bytes Error α) : Prop :=
  Prog.Sim (Alike keep) (Alike keep) R p q

section Sim

variable {keep : Logged → Bool} {s t : World}

/-! ## Entry points that make no external call -/

/-- `f` does the same in alike states. -/
def Blind (keep : Logged → Bool) (f : World → Except Error World) : Prop :=
  ∀ s t, Alike keep s t →
    Agree (Alike keep) Eq ((f s).map (Value.none, ·)) ((f t).map (Value.none, ·))

/-- The same check in front of matching results. -/
theorem agree_check (x : Except Error Unit) {f g : Unit → Except Error World}
    (h : Agree (Alike keep) Eq ((f ()).map (Value.none, ·)) ((g ()).map (Value.none, ·))) :
    Agree (Alike keep) Eq ((x >>= f).map (Value.none, ·)) ((x >>= g).map (Value.none, ·)) := by
  cases x with
  | error e => exact .error rfl
  | ok u => exact h

theorem blind_initializeVault (asset : Address) (name symbol : Bytes) (authority : Address) :
    Blind keep (initializeVault asset name symbol authority) := by
  rintro s _ ⟨status, log, rfl, hstatus, hlog⟩
  refine agree_check _ (agree_check _ (agree_check _ (.ok _ ?_)))
  exact ⟨status, log, rfl, hstatus, hlog⟩

theorem blind_proposeAuthority (env : Env) (newAuthority : Address) :
    Blind keep (proposeAuthority env newAuthority) := by
  rintro s _ ⟨status, log, rfl, hstatus, hlog⟩
  refine agree_check _ (.ok _ (Alike.emit ?_ env _ _))
  exact ⟨status, log, rfl, hstatus, hlog⟩

theorem blind_acceptAuthority (env : Env) : Blind keep (acceptAuthority env) := by
  rintro s _ ⟨status, log, rfl, hstatus, hlog⟩
  refine agree_check _ (.ok _ (Alike.emit ?_ env _ _))
  exact ⟨status, log, rfl, hstatus, hlog⟩

theorem blind_resetEpoch (env : Env) : Blind keep (resetEpoch env) := by
  rintro s _ ⟨status, log, rfl, hstatus, hlog⟩
  refine agree_check _ (.ok _ (Alike.emit ?_ env _ _))
  exact ⟨status, log, rfl, hstatus, hlog⟩

theorem blind_invalidateNonce (env : Env) (nonce : Uint256) :
    Blind keep (invalidateNonce env nonce) := by
  rintro s _ ⟨status, log, rfl, hstatus, hlog⟩
  refine agree_check _ (.ok _ (Alike.emit ?_ env _ _))
  exact ⟨status, log, rfl, hstatus, hlog⟩

theorem blind_invalidateNoncesBelow (env : Env) (threshold : Uint256) :
    Blind keep (invalidateNoncesBelow env threshold) := by
  rintro s _ ⟨status, log, rfl, hstatus, hlog⟩
  refine agree_check _ (agree_check _ (.ok _ (Alike.emit ?_ env _ _)))
  exact ⟨status, log, rfl, hstatus, hlog⟩

theorem blind_revokeMandate (env : Env) (mandateHash : Bytes32) :
    Blind keep (revokeMandate env mandateHash) := by
  rintro s _ ⟨status, log, rfl, hstatus, hlog⟩
  refine agree_check _ (.ok _ (Alike.emit ?_ env _ _))
  exact ⟨status, log, rfl, hstatus, hlog⟩

theorem sim_atomic (h : Alike keep s t) {f : World → Except Error World} (hf : Blind keep f) :
    AlikeSim keep Eq (atomic f s) (atomic f t) :=
  .inline (hf s t h)

/-! ## Entry points that call out -/

theorem sim_externalCall {R : Error → Error → Prop} (h : Alike keep s t) (m : Msg) :
    AlikeSim keep R (externalCall m s) (externalCall m t) := by
  obtain ⟨status, log, rfl, hstatus, hlog⟩ := h
  rw [externalCall, Code.bind_apply, Code.bind_apply]
  rw [Code.get_apply, Code.get_apply, Prog.ret_bind, Prog.ret_bind]
  by_cases hlt : s.nativeBalance < m.value
  · rw [if_pos hlt]
    exact .ret _ ⟨status, log, rfl, hstatus, hlog⟩
  · rw [if_neg hlt]
    exact .external ⟨status, log, rfl, hstatus, hlog⟩ ⟨status, log, rfl, hstatus, hlog⟩

theorem sim_tokenCall (h : Alike keep s t) (m : Msg) :
    AlikeSim keep Eq (tokenCall m s) (tokenCall m t) := by
  rw [tokenCall, Code.bind_apply, Code.bind_apply]
  refine (sim_externalCall h m).bind ?_
  intro r s' t' h'
  cases r with
  | ok u => exact .ret () h'
  | error d => exact .fail rfl

theorem sim_updateShares (h : Alike keep s t) (f : ShareLedger → Except Error ShareLedger) :
    AlikeSim keep Eq (updateShares f s) (updateShares f t) := by
  obtain ⟨status, log, rfl, hstatus, hlog⟩ := h
  refine .inline ?_
  dsimp only
  cases f s.shares with
  | error e => exact .error rfl
  | ok shares => exact .ok () ⟨status, log, rfl, hstatus, hlog⟩

theorem sim_shareOp (h : Alike keep s t) (P : Platform) (env : Env) (op : ShareOp) :
    AlikeSim keep Eq (shareOp P env op s) (shareOp P env op t) := by
  rw [shareOp, Code.bind_apply, Code.bind_apply]
  rw [Code.get_apply, Code.get_apply, Prog.ret_bind, Prog.ret_bind]
  by_cases hent : s.entered
  · rw [if_pos hent, if_pos (h.entered.mpr hent)]
    exact .fail rfl
  · rw [if_neg hent, if_neg (mt h.entered.mp hent), Code.bind_apply, Code.bind_apply]
    -- a quote reads assets and shares, which are the same on both sides
    have hquote : Agree (Alike keep) Eq ((P.quote op (totalAssets s) s.shares).map (·, s))
        ((P.quote op (totalAssets t) t.shares).map (·, t)) := by
      obtain ⟨status, log, rfl, hstatus, hlog⟩ := h
      show Agree _ _ _ ((P.quote op (totalAssets s) s.shares).map _)
      cases P.quote op (totalAssets s) s.shares with
      | error e => exact .error rfl
      | ok q => exact .ok q ⟨status, log, rfl, hstatus, hlog⟩
    have hself : t.asset = s.asset ∧ t.self = s.self := by
      obtain ⟨status, log, rfl, _, _⟩ := h
      exact ⟨rfl, rfl⟩
    refine (Prog.Sim.inline hquote).bind ?_
    rintro ⟨assets, shares⟩ s' t' h'
    cases op with
    | deposit _ receiver =>
        simp only [hself]
        -- what comes in is paid for before the shares are minted
        refine (sim_tokenCall h' _).bind fun _ _ _ h₁ => ?_
        exact (sim_updateShares h₁ _).bind fun _ _ _ h₂ => .ret _ h₂
    | mint _ receiver =>
        simp only [hself]
        refine (sim_tokenCall h' _).bind fun _ _ _ h₁ => ?_
        exact (sim_updateShares h₁ _).bind fun _ _ _ h₂ => .ret _ h₂
    | withdraw _ receiver owner =>
        simp only [hself]
        refine (sim_updateShares h' _).bind fun _ _ _ h₁ => ?_
        exact (sim_tokenCall h₁ _).bind fun _ _ _ h₂ => .ret _ h₂
    | redeem _ receiver owner =>
        simp only [hself]
        refine (sim_updateShares h' _).bind fun _ _ _ h₁ => ?_
        exact (sim_tokenCall h₁ _).bind fun _ _ _ h₂ => .ret _ h₂

theorem sim_sweepNative (h : Alike keep s t) (env : Env) (recipient : Address)
    (amount : Uint256) :
    AlikeSim keep Eq (sweepNative env recipient amount s)
      (sweepNative env recipient amount t) := by
  have hauth : t.authority = s.authority := by
    obtain ⟨status, log, rfl, _, _⟩ := h
    rfl
  rw [sweepNative, Code.bind_apply, Code.bind_apply]
  rw [Code.get_apply, Code.get_apply, Prog.ret_bind, Prog.ret_bind, hauth]
  by_cases hsender : env.sender ≠ s.authority
  · rw [if_pos hsender, if_pos hsender]
    exact .fail rfl
  · rw [if_neg hsender, if_neg hsender]
    by_cases hzero : recipient = 0
    · rw [if_pos hzero, if_pos hzero]
      exact .fail rfl
    · rw [if_neg hzero, if_neg hzero, Code.bind_apply, Code.bind_apply]
      rw [Code.set_apply, Code.set_apply, Prog.ret_bind, Prog.ret_bind]
      refine (sim_externalCall (h.emit env _ _) _).bind ?_
      intro r s' t' h'
      cases r with
      | ok u => exact .ret _ h'
      | error d => exact .fail rfl

/-! ## `execute` -/

theorem agree_validateMandate (h : Alike keep s t) (P : Platform) (env : Env)
    (mandate : Mandate) (actions : List Action) (signature : Bytes)
    (adapterProofs : List (List Bytes32)) (extensions : Bytes) :
    Agree (Alike keep) Eq
      (validateMandate P env mandate actions signature adapterProofs extensions s)
      (validateMandate P env mandate actions signature adapterProofs extensions t) := by
  obtain ⟨status, log, rfl, hstatus, hlog⟩ := h
  have hrefl : ∀ e : Error, e = e := fun _ => rfl
  rw [validateMandate, validateMandate]
  refine .bind hrefl _ fun _ => .bind hrefl _ fun _ => .bind hrefl _ fun _ => ?_
  refine .bind hrefl _ fun _ => ?_
  simp only [consumeNonce, bind_assoc, pure_bind]
  refine .bind hrefl _ fun _ => .bind hrefl _ fun _ => .bind hrefl _ fun _ => ?_
  exact .bind hrefl _ fun _ => .ok _ ⟨status, log, rfl, hstatus, hlog⟩

theorem agree_snapshot {R : Error → Error → Prop} (h : Alike keep s t) (env : Env) :
    Agree (Alike keep) R (.ok (snapshot env s) : Except Error (Uint256 × World))
      (.ok (snapshot env t)) := by
  obtain ⟨status, log, rfl, hstatus, hlog⟩ := h
  rw [snapshot, snapshot]
  show Agree _ _ (.ok (if s.epochStart = 0 then _ else _)) (.ok (if s.epochStart = 0 then _ else _))
  by_cases h0 : s.epochStart = 0
  · rw [if_pos h0, if_pos h0]
    exact .ok _ ⟨status, log, rfl, hstatus, hlog⟩
  · rw [if_neg h0, if_neg h0]
    exact .ok _ ⟨status, log, rfl, hstatus, hlog⟩

/-- The loop over the actions.  Induction on the actions. -/
theorem sim_executeActionsFrom : ∀ (actions : List Action) (i : Nat) (s t : World),
    Alike keep s t →
    AlikeSim keep Eq (executeActionsFrom i actions s) (executeActionsFrom i actions t) := by
  intro actions
  induction actions with
  | nil => intro i s t h; exact .ret () h
  | cons action actions ih =>
      intro i s t h
      rw [executeActionsFrom, Code.bind_apply, Code.bind_apply]
      refine (sim_externalCall h _).bind ?_
      intro r s' t' h'
      cases r with
      | ok u => exact ih (i + 1) s' t' h'
      | error d => exact .fail rfl

/-- The end of an execution: the same checks, and the same entry at the end of the log. -/
theorem agree_postExecution {R : Error → Error → Prop} (hR : ∀ e, R e e) (h : Alike keep s t)
    (env : Env) (call : Call) (mandate : Mandate) (preAssets : Uint256) (v : Validated) :
    Agree (fun s t => Alike keep s t ∧ ∃ e, s.log.getLast? = some e ∧ t.log.getLast? = some e) R
      (postExecution env call mandate preAssets v s)
      (postExecution env call mandate preAssets v t) := by
  obtain ⟨status, log, rfl, hstatus, hlog⟩ := h
  rw [postExecution, postExecution]
  refine .bind hR _ fun _ => .bind hR _ fun _ => .bind hR _ fun mark => .ok _ ⟨?_, ?_⟩
  · refine Alike.emit ?_ env call _
    exact ⟨status, log, rfl, hstatus, hlog⟩
  · exact ⟨_, List.getLast?_concat .., List.getLast?_concat ..⟩

theorem sim_nonReentrant {α : Type} (h : Alike keep s t) {body : VaultCode α}
    (hbody : ∀ s t, Alike keep s t → AlikeSim keep Eq (body s) (body t)) :
    AlikeSim keep Eq (nonReentrant body s) (nonReentrant body t) := by
  by_cases hent : s.entered
  · rw [nonReentrant_of_entered _ hent, nonReentrant_of_entered _ (h.entered.mpr hent)]
    exact .fail rfl
  · rw [nonReentrant_of_idle _ hent, nonReentrant_of_idle _ (mt h.entered.mp hent)]
    exact (hbody _ _ (h.setStatus 2)).bind fun a s' t' h' => .ret a (h'.setStatus 1)

theorem sim_execute (h : Alike keep s t) (P : Platform) (env : Env) (mandate : Mandate)
    (actions : List Action) (signature : Bytes) (adapterProofs : List (List Bytes32))
    (extensions : Bytes) :
    AlikeSim keep Eq
      (execute P env mandate actions signature adapterProofs extensions s)
      (execute P env mandate actions signature adapterProofs extensions t) := by
  refine sim_nonReentrant h fun s t h => ?_
  refine (Prog.Sim.inline (agree_validateMandate h ..)).bind fun v s₁ t₁ h₁ => ?_
  refine (Prog.Sim.inline (agree_snapshot h₁ env)).bind fun pre s₂ t₂ h₂ => ?_
  refine (sim_executeActionsFrom actions 0 s₂ t₂ h₂).bind fun _ s₃ t₃ h₃ => ?_
  exact (Prog.Sim.inline (agree_postExecution (fun _ => rfl) h₃ ..)).bind
    fun _ _ _ h₄ => .ret _ h₄.1

/-! ## Every entry point, every script -/

/-- Entry points do not tell alike states apart. -/
theorem sim_dispatch (h : Alike keep s t) (P : Platform) (env : Env) (call : Call) :
    AlikeSim keep Eq (dispatch P env call s) (dispatch P env call t) := by
  cases call with
  | initializeVault asset name symbol authority =>
      exact sim_atomic h (blind_initializeVault asset name symbol authority)
  | proposeAuthority newAuthority => exact sim_atomic h (blind_proposeAuthority env newAuthority)
  | acceptAuthority => exact sim_atomic h (blind_acceptAuthority env)
  | resetEpoch => exact sim_atomic h (blind_resetEpoch env)
  | invalidateNonce nonce => exact sim_atomic h (blind_invalidateNonce env nonce)
  | invalidateNoncesBelow threshold =>
      exact sim_atomic h (blind_invalidateNoncesBelow env threshold)
  | revokeMandate mandateHash => exact sim_atomic h (blind_revokeMandate env mandateHash)
  | execute mandate actions signature adapterProofs extensions => exact sim_execute h P env ..
  | share op => exact sim_shareOp h P env op
  | erc20 op => exact (sim_updateShares h _).bind fun _ _ _ h' => .ret _ h'
  | sweepNative recipient amount => exact sim_sweepNative h env recipient amount

/-- Neither does any script. -/
theorem agree_of_alike (h : Alike keep s t) (P : Platform) (sc : VaultScript) :
    AgreeRun (Alike keep) ((vaultMachine P).run sc s) ((vaultMachine P).run sc t) :=
  Machine.agree_of_sim (fun _ _ h => h.view) (fun d _ _ h => h.move d)
    (fun c _ _ h => sim_dispatch h P c.env c.call) sc s t h

/-- Nor does any single call, whatever happens at its calls out. -/
theorem agree_invoke_of_alike (h : Alike keep s t) (P : Platform) (c : Invocation)
    (outs : Nat → Msg → VaultScript) :
    Agree (Alike keep) Eq ((vaultMachine P).invoke c outs s)
      ((vaultMachine P).invoke c outs t) :=
  (sim_dispatch h P c.env c.call).exec (fun i m _ _ h => agree_of_alike h P (outs i m)) 0

end Sim

end Vault
