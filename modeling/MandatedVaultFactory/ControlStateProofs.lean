import MandatedVaultFactory.LedgerProofs

/-!
# Control state and who can touch it

What happens to the governance of a vault as long as neither its authority nor its pending
authority calls it.

* **`Control`** — the part of the state by which a vault is governed.  An execution begins
  with `Control.begin` (steps 9 and 13) and ends with `Control.finish` (step 16).
* **`Executes`** — the abstract view of a stretch of a run: one execution after the other,
  and nothing else.
* **`outsider_frame`** — every stretch refines that view, whatever executors and adapters
  call, the vault itself among them; and native currency only comes in. -/

namespace Vault

open CallTree Encoding

/-! ## The abstract view -/

/-- The part of the state by which a vault is governed. -/
structure Control where
  authority : Address
  pendingAuthority : Address
  authorityEpoch : BitVec 64
  nonceThreshold : Address → Uint256
  mandateRevoked : Bytes32 → Bool
  nonceUsed : Address → Uint256 → Bool
  epochStart : BitVec 48
  epochAssets : Uint256

def World.control (w : World) : Control where
  authority := w.authority
  pendingAuthority := w.pendingAuthority
  authorityEpoch := w.authorityEpoch
  nonceThreshold := w.nonceThreshold
  mandateRevoked := w.mandateRevoked
  nonceUsed := w.nonceUsed
  epochStart := w.epochStart
  epochAssets := w.epochAssets

namespace Control

/-- An execution begins: its nonce is used up, and the epoch starts if there was none. -/
def begin (k : Control) (timestamp nonce preAssets : Uint256) : Control :=
  { k with
    nonceUsed := Function.update k.nonceUsed k.authority
      (Function.update (k.nonceUsed k.authority) nonce true)
    epochStart := if k.epochStart = 0 then timestamp.setWidth 48 else k.epochStart
    epochAssets := if k.epochStart = 0 then preAssets else k.epochAssets }

/-- Authority, nonce thresholds and revocations are the same. -/
structure SameGovernance (k k' : Control) : Prop where
  authority : k'.authority = k.authority
  pendingAuthority : k'.pendingAuthority = k.pendingAuthority
  authorityEpoch : k'.authorityEpoch = k.authorityEpoch
  nonceThreshold : k'.nonceThreshold = k.nonceThreshold
  mandateRevoked : k'.mandateRevoked = k.mandateRevoked

/-- An execution ends: the mark rises to the assets. -/
def finish (k : Control) (postAssets : Uint256) : Control :=
  { k with epochAssets := if k.epochAssets < postAssets then postAssets else k.epochAssets }

end Control

/-- The entries report one execution after the other, of calls in `T`, and these lead from
    the first control state to the last. -/
inductive Executes (T : Invocation → Prop) (k : Control) : List Logged → Control → Prop where
  | nil : Executes T k [] k
  | snoc {k' : Control} {entries : List Logged} {e : Logged} (env : Env) (mandate : Mandate)
      (actions : List Action) (signature : Bytes) (adapterProofs : List (List Bytes32))
      (extensions : Bytes) (hash digest : Bytes32) (preAssets postAssets : Uint256) :
      Executes T k entries k' →
      T ⟨env, .execute mandate actions signature adapterProofs extensions⟩ →
      e.call = .execute mandate actions signature adapterProofs extensions →
      e.event = .MandateExecuted hash k'.authority env.sender digest preAssets postAssets →
      k'.nonceUsed k'.authority mandate.nonce = false →
      Executes T k (entries ++ [e])
        ((k'.begin env.timestamp mandate.nonce preAssets).finish postAssets)

namespace Executes

variable {T : Invocation → Prop} {k k' : Control} {entries : List Logged}

/-- Executions leave authority, thresholds and revocations alone. -/
theorem governance (h : Executes T k entries k') : k.SameGovernance k' := by
  induction h with
  | nil => exact ⟨rfl, rfl, rfl, rfl, rfl⟩
  | snoc _ _ _ _ _ _ _ _ _ _ _ _ _ _ _ ih =>
      exact ⟨ih.authority, ih.pendingAuthority, ih.authorityEpoch, ih.nonceThreshold,
        ih.mandateRevoked⟩

/-- The nonces used up are those of the executions, under the one authority. -/
theorem nonceUsed_iff (h : Executes T k entries k') (b : Address) (n : Uint256) :
    k'.nonceUsed b n = true ↔ k.nonceUsed b n = true
      ∨ (b = k.authority ∧ ∃ e ∈ entries, ∃ mandate,
        e.executed = some (k.authority, mandate) ∧ mandate.nonce = n) := by
  induction h with
  | nil => simp
  | @snoc k' entries e env mandate actions signature adapterProofs extensions hash digest pre
      post hprev hT hcall hevent hfresh ih =>
      have hauth : k'.authority = k.authority := hprev.governance.authority
      have hexec : e.executed = some (k.authority, mandate) := by
        rw [Logged.executed, hcall, hevent, hauth]
      show Function.update k'.nonceUsed k'.authority _ b n = true ↔ _
      rw [update_nonce_iff, hauth, ih]
      constructor
      · rintro (⟨hb, hn⟩ | hk | ⟨hb, e', he', m, hm, hn⟩)
        · exact Or.inr ⟨hb, e, by simp, mandate, hexec, hn.symm⟩
        · exact Or.inl hk
        · exact Or.inr ⟨hb, e', List.mem_append_left _ he', m, hm, hn⟩
      · rintro (hk | ⟨hb, e', he', m, hm, hn⟩)
        · exact Or.inr (Or.inl hk)
        · rcases List.mem_append.mp he' with he' | he'
          · exact Or.inr (Or.inr ⟨hb, e', he', m, hm, hn⟩)
          · rw [List.mem_singleton.mp he', hexec] at hm
            obtain rfl : mandate = m := congrArg Prod.snd (Option.some.inj hm)
            exact Or.inl ⟨hb, hn.symm⟩

end Executes

/-! ## The vault refines it -/

/-- Nobody but outsiders calls, and the vault itself; all calls are in `T`. -/
def Outsider (T : Invocation → Prop) (c : Invocation) (w : World) : Prop :=
  (c.env.sender = w.self ∨ c.env.sender ≠ w.authority ∧ c.env.sender ≠ w.pendingAuthority) ∧ T c

/-- What is known of a state `t` reached from `w` by outsiders: the control state is the one
    that the executions in the log have led to, or one execution more has begun. -/
structure Reached (T : Invocation → Prop) (w t : World) : Prop where
  initialized : t.initialized ≠ 0
  self : t.self = w.self
  control : ∃ entries k, t.log = w.log ++ entries ∧ Executes T w.control entries k
    ∧ (t.control = k ∨ t.entered ∧ ∃ env mandate actions signature adapterProofs extensions pre,
      T ⟨env, .execute mandate actions signature adapterProofs extensions⟩
      ∧ t.control = k.begin env.timestamp mandate.nonce pre)

namespace Reached

variable {T : Invocation → Prop} {w t : World}

/-- Governance is as it was. -/
theorem governance (h : Reached T w t) : w.control.SameGovernance t.control := by
  obtain ⟨entries, k, _, hexec, hk | ⟨_, env, mandate, _, _, _, _, pre, _, hk⟩⟩ := h.control
  · rw [hk]
    exact hexec.governance
  · rw [hk]
    have hgov := hexec.governance
    exact ⟨hgov.authority, hgov.pendingAuthority, hgov.authorityEpoch, hgov.nonceThreshold,
      hgov.mandateRevoked⟩

/-- An outsider is neither authority nor pending authority, and no guarded step is his. -/
theorem no_step {w' : World} {env : Env} {call : Call} (h : Reached T w t)
    (hself : w.self ≠ w.authority ∧ w.self ≠ w.pendingAuthority)
    (hout : Outsider T ⟨env, call⟩ t) : ¬ Step env call t w' := by
  intro hstep
  have hauth : t.authority = w.authority := h.governance.authority
  have hpending : t.pendingAuthority = w.pendingAuthority := h.governance.pendingAuthority
  have hne : env.sender ≠ t.authority ∧ env.sender ≠ t.pendingAuthority := by
    rcases hout.1 with heq | hne
    · have hsender : env.sender = w.self := heq.trans h.self
      rw [hauth, hpending, hsender]
      exact hself
    · exact hne
  cases hstep with
  | initializeVault _ _ _ _ _ hinit => exact h.initialized hinit
  | acceptAuthority _ hs => exact hne.2 hs
  | proposeAuthority _ _ hs => exact hne.1 hs
  | resetEpoch _ hs => exact hne.1 hs
  | invalidateNonce _ _ hs => exact hne.1 hs
  | invalidateNoncesBelow _ _ hs => exact hne.1 hs
  | revokeMandate _ _ hs => exact hne.1 hs
  | sweepNative _ _ _ hs => exact hne.1 hs

end Reached

theorem control_begun (w : World) (env : Env) (mandate : Mandate) :
    (w.begun env mandate).control
      = w.control.begin env.timestamp mandate.nonce (totalAssets w) := by
  rw [World.begun_eq]
  rfl

theorem control_ended {w : World} {env : Env} {call : Call} {v : Validated}
    {preAssets mark : Uint256} (h : mark.toNat = max w.epochAssets.toNat (totalAssets w).toNat) :
    (w.ended env call v preAssets mark).control = w.control.finish (totalAssets w) := by
  have hmark : mark = if w.epochAssets < totalAssets w then totalAssets w else w.epochAssets := by
    refine BitVec.eq_of_toNat_eq (h.trans ?_)
    by_cases hlt : w.epochAssets < totalAssets w
    · rw [if_pos hlt]
      exact Nat.max_eq_right (Nat.le_of_lt hlt)
    · rw [if_neg hlt]
      exact Nat.max_eq_left (Nat.le_of_not_lt hlt)
  rw [hmark]
  rfl

/-- The two ends of a call, or of any other stretch of a run: inside an execution nothing
    happens to log and control state, and outside none is left running. -/
structure Settles (s t : World) : Prop where
  inside : s.entered → t.entered ∧ t.log = s.log ∧ t.control = s.control
  outside : ¬ s.entered → ¬ t.entered

theorem Settles.trans {s t u : World} (h : Settles s t) (h' : Settles t u) : Settles s u where
  inside hs := by
    obtain ⟨ht, hlog, hcontrol⟩ := h.inside hs
    obtain ⟨hu, hlog', hcontrol'⟩ := h'.inside ht
    exact ⟨hu, hlog'.trans hlog, hcontrol'.trans hcontrol⟩
  outside hs := h'.outside (h.outside hs)

/-- Outsiders keep the vault within reach of its executions, and do not take native
    currency out. -/
def outsiderRules (P : Platform) (T : Invocation → Prop) (w : World)
    (hself : w.self ≠ w.authority ∧ w.self ≠ w.pendingAuthority) :
    VaultRules P (Outsider T) where
  inv := Reached T w
  rel := Settles
  mono s t := s.nativeBalance ≤ t.nativeBalance
  rel_refl _ := ⟨fun h => ⟨h, rfl, rfl⟩, id⟩
  rel_trans := Settles.trans
  mono_refl s := Nat.le_refl s.nativeBalance.toNat
  mono_trans h h' := Nat.le_trans h h'
  balances _ _ _ h hle := ⟨⟨h.initialized, h.self, h.control⟩, ⟨fun he => ⟨he, rfl, rfl⟩, id⟩, hle⟩
  sweep _ recipient amount s h hA hs :=
    absurd (Step.sweepNative s recipient amount hs) (h.no_step hself hA)
  shares _ s _ _ _ h := ⟨⟨h.initialized, h.self, h.control⟩, ⟨fun he => ⟨he, rfl, rfl⟩, id⟩,
    Nat.le_refl s.nativeBalance.toNat⟩
  erc20 s _ _ h := ⟨⟨h.initialized, h.self, h.control⟩, ⟨fun he => ⟨he, rfl, rfl⟩, id⟩,
    Nat.le_refl s.nativeBalance.toNat⟩
  step _ _ _ _ h hA hstep := absurd hstep (h.no_step hself hA)
  execution env mandate actions signature adapterProofs extensions s v hs hA hidle hvalid := by
    obtain ⟨entries, k, hlog, hexec, hk | ⟨hent, _⟩⟩ := hs.control
    · have hbegun : (s.begun env mandate).control
          = k.begin env.timestamp mandate.nonce (totalAssets s) := by rw [control_begun, hk]
      -- while the actions run, only the balances and the shares change
      refine ⟨fun t => Reached T w t ∧ t.entered ∧ t.log = s.log
          ∧ t.control = k.begin env.timestamp mandate.nonce (totalAssets s),
        ⟨⟨?_, ?_, entries, k, ?_, hexec, Or.inr ⟨?_, env, mandate, actions, signature,
          adapterProofs, extensions, totalAssets s, hA.2, hbegun⟩⟩, ?_, ?_, hbegun⟩,
        ?_, fun t h => h.1, ?_, ?_⟩
      · rw [World.begun_eq]
        exact hs.initialized
      · rw [World.begun_eq]
        exact hs.self
      · rw [World.begun_eq]
        exact hlog
      · rw [World.begun_eq]
      · rw [World.begun_eq]
      · rw [World.begun_eq]
        rfl
      · rw [World.begun_eq]
        exact Nat.le_refl s.nativeBalance.toNat
      · rintro t t' ⟨_, hent, htlog, htk⟩ hinv hrel _
        obtain ⟨hent', hlog', hk'⟩ := hrel.inside hent
        exact ⟨hinv, hent', hlog'.trans htlog, hk'.trans htk⟩
      · rintro t mark ⟨hinv, hent, htlog, htk⟩ hbound
        obtain ⟨e, he, hcall, hev⟩ := exists_ended_entry t env
          (.execute mandate actions signature adapterProofs extensions) v (totalAssets s) mark
        have hauth : v.authority = k.authority := by
          rw [hvalid.authority_eq, ← hk]
          rfl
        have hfresh : k.nonceUsed k.authority mandate.nonce = false := by
          rw [← hauth, ← hk]
          exact hvalid.unused
        refine ⟨⟨hinv.initialized, hinv.self, entries ++ [e], _, ?_,
          .snoc env mandate actions signature adapterProofs extensions _ _ (totalAssets s)
            (totalAssets t) hexec hA.2 hcall (hauth ▸ hev) hfresh, Or.inl ?_⟩,
          ⟨fun he => absurd he hidle, fun _ => not_entered_ended _ _ _ _ _ _⟩,
          Nat.le_refl t.nativeBalance.toNat⟩
        · rw [he, htlog, hlog, List.append_assoc]
        · rw [control_ended hbound.mark_eq, htk]
    · exact absurd hent hidle

/-- **Executor and adapters cannot touch control state.**  In a run in which the vault itself
    may call, but neither its authority nor its pending authority does:

    * what the run leaves is what its successful executions, in order, make of the control
      state: authority, thresholds and revocations are as before, the nonces used up are
      exactly those of the executions, and native currency has only come in;
    * at every point, also inside callbacks and inside calls that revert later, the same holds
      up to one execution that has begun;
    * the native balance never falls between surviving states. -/
theorem outsider_frame {P : Platform} {w : World} (hinit : w.initialized ≠ 0)
    (hself : w.self ≠ w.authority ∧ w.self ≠ w.pendingAuthority) (sc : VaultScript)
    (hout : ∀ c v, Point.enter c v ∈ (vaultMachine P).trace sc w →
      c.env.sender = v.self
        ∨ c.env.sender ≠ v.authority ∧ c.env.sender ≠ v.pendingAuthority) :
    let T : Invocation → Prop := fun c => ∃ v, Point.enter c v ∈ (vaultMachine P).trace sc w
    (∀ t, (vaultMachine P).run sc w = .ok t → ∃ entries, t.log = w.log ++ entries
      ∧ Executes T w.control entries t.control
      ∧ w.control.SameGovernance t.control
      ∧ (∀ b n, t.nonceUsed b n = true ↔ w.nonceUsed b n = true
        ∨ (b = w.authority ∧ ∃ e ∈ entries, ∃ mandate,
          e.executed = some (w.authority, mandate) ∧ mandate.nonce = n))
      ∧ w.nativeBalance ≤ t.nativeBalance)
    ∧ (∀ p ∈ (vaultMachine P).trace sc w, Reached T w p.state
      ∧ w.control.SameGovernance p.state.control ∧ w.nativeBalance ≤ p.state.nativeBalance)
    ∧ ((vaultMachine P).committed sc w).Pairwise fun s t => s.nativeBalance ≤ t.nativeBalance := by
  intro T
  have hstart : Reached T w w := ⟨hinit, rfl, [], w.control, by simp, .nil, Or.inl rfl⟩
  have hup := Contract.sound (outsiderRules P T w hself).toContract sc w hstart
    fun c v h => ⟨hout c v h, v, h⟩
  refine ⟨?_, ?_, hup.chain⟩
  · intro t ht
    obtain ⟨hreached, hsettles, hnative⟩ := hup.result t ht
    obtain ⟨entries, hlog, hexec⟩ : ∃ entries, t.log = w.log ++ entries
        ∧ Executes T w.control entries t.control := by
      by_cases hent : w.entered
      · obtain ⟨_, hlog, hcontrol⟩ := hsettles.inside hent
        exact ⟨[], by rw [hlog, List.append_nil], hcontrol ▸ .nil⟩
      · obtain ⟨entries, k, hlog, hexec, hk | ⟨ht, _⟩⟩ := hreached.control
        · exact ⟨entries, hlog, hk ▸ hexec⟩
        · exact absurd ht (hsettles.outside hent)
    exact ⟨entries, hlog, hexec, hexec.governance, hexec.nonceUsed_iff, hnative⟩
  · intro p hp
    obtain ⟨hreached, hnative⟩ := hup.points p hp
    exact ⟨hreached, hreached.governance, hnative⟩

namespace Small

/-- The executor's call; the adapter sends some native currency, and tries to take over. -/
def takeover : VaultScript :=
  tx (execution (mandate 1 1000 1000))
    (.act (.receiveNative 5) (.call ⟨env adapter, .proposeAuthority adapter⟩ (fun _ _ => .done)
      fun _ => .done))

end Small

/-- The takeover fails, and only the nonce of the execution is used up. -/
theorem outsider_frame_small :
    ∃ t, (vaultMachine .plain).run Small.takeover (Small.deployed 100) = .ok t
      ∧ t.pendingAuthority = 0 ∧ (0 : Uint256) ≤ t.nativeBalance
      ∧ ∃ entries, t.log = entries ∧ ∀ b n, t.nonceUsed b n = true ↔
        (b = Small.authority ∧ ∃ e ∈ entries, ∃ mandate,
          e.executed = some (Small.authority, mandate) ∧ mandate.nonce = n) := by
  obtain ⟨t, ht, _⟩ := (Machine.runsTo_iff (vaultMachine .plain) Small.takeover
    (Small.deployed 100) (fun _ => true)).mp (by decide +kernel)
  have hcalls := (Machine.callsPass_iff (vaultMachine .plain) Small.takeover (Small.deployed 100)
    (fun c v => c.env.sender ≠ v.authority ∧ c.env.sender ≠ v.pendingAuthority)).mp
    (by decide +kernel)
  obtain ⟨entries, hlog, _, hgov, hused, hnative⟩ := (outsider_frame (P := .plain)
    (w := Small.deployed 100) (by decide) (by decide) Small.takeover
    fun c v h => Or.inr (of_decide_eq_true (hcalls c v h))).1 t ht
  refine ⟨t, ht, hgov.pendingAuthority, hnative, entries, hlog, fun b n => ?_⟩
  rw [hused]
  exact or_iff_right Bool.false_ne_true

end Vault
