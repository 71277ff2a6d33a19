import MandatedVaultFactory.LedgerProofs

/-!
# Revocation is permanent

Three kill switches: a nonce invalidated, a threshold raised above it, a mandate hash
revoked.  Each leaves an entry in the log (`records_…`), no entry is ever taken back
(`Journal.grows_of_mem`), and storage follows the log (`Tracks`), so an execution that
starts later finds the switch on. -/

namespace Vault

open CallTree Chronicles Encoding Ledger

namespace Journal

variable {P : Platform} {vault a b : Address} {log : List Logged} {e : Logged}

theorem mem_spent {n : Uint256} (h : Journal P vault a log) (he : e ∈ log)
    (hev : e.event = .NonceInvalidated b n) : (b, n) ∈ (replay a log).spent := by
  obtain ⟨L, hgrows⟩ := h.grows_of_mem he
  refine hgrows.spent ?_
  rw [write, hev]
  exact Set.mem_insert _ _

theorem le_threshold {t : Uint256} (h : Journal P vault a log) (he : e ∈ log)
    (hev : e.event = .NoncesInvalidatedBelow b t) : t ≤ (replay a log).threshold b := by
  obtain ⟨L, hgrows⟩ := h.grows_of_mem he
  have := hgrows.threshold b
  rw [write, hev] at this
  simpa using this

theorem mem_revoked {m : Bytes32} (h : Journal P vault a log) (he : e ∈ log)
    (hev : e.event = .MandateRevoked m b) : m ∈ (replay a log).revoked := by
  obtain ⟨L, hgrows⟩ := h.grows_of_mem he
  refine hgrows.revoked ?_
  rw [write, hev]
  exact Set.mem_insert _ _

end Journal

/-- The log of `w` holds a revocation that a new execution of the mandate falls under: of
    its nonce under the present authority, of all nonces below some threshold above it, or
    of its hash, by whichever authority. -/
def Killed (P : Platform) (env : Env) (mandate : Mandate) (w : World) : Prop :=
  ∃ e ∈ w.log, e.event = .NonceInvalidated w.authority mandate.nonce
    ∨ (∃ t, e.event = .NoncesInvalidatedBelow w.authority t ∧ mandate.nonce < t)
    ∨ ∃ b, e.event = .MandateRevoked (hashMandate P env.chainId w.self mandate) b

/-- A valid mandate has not been killed. -/
theorem Tracks.not_killed {P : Platform} {vault a : Address} {w : World}
    {running : Option (Address × Uint256)} (h : Tracks P vault a w running) {env : Env}
    {mandate : Mandate} {actions : List Action} {signature : Bytes}
    {adapterProofs : List (List Bytes32)} {extensions : Bytes} {v : Validated}
    (hv : MandateValid P env mandate actions signature adapterProofs extensions w v) :
    ¬ Killed P env mandate w := by
  rintro ⟨e, he, hev | ⟨t, hev, hlt⟩ | ⟨b, hev⟩⟩
  · have hused := (h.used _ _).mpr (Or.inl (h.journal.mem_spent he hev))
    rw [← hv.authority_eq, hv.unused] at hused
    cases hused
  · have hle := h.journal.le_threshold he hev
    rw [← h.threshold, ← hv.authority_eq] at hle
    exact absurd hv.threshold (Nat.not_le.mpr (Nat.lt_of_lt_of_le hlt hle))
  · have hrev := (h.revoked _).mpr (h.journal.mem_revoked he hev)
    rw [← hv.mandateHash_eq, hv.not_revoked] at hrev
    cases hrev

section Records

variable {P : Platform} {env : Env} {outs : Nat → Msg → VaultScript} {w t : World}
  {r : Value}

theorem records_invalidateNonce {n : Uint256}
    (h : (vaultMachine P).invoke ⟨env, .invalidateNonce n⟩ outs w = .ok (r, t)) :
    env.sender = w.authority
      ∧ ∃ e, t.log = w.log ++ [e] ∧ e.event = .NonceInvalidated w.authority n := by
  cases step_of_invalidateNonce (atomic_exec_ok h) with
  | invalidateNonce _ _ hs => exact ⟨hs, _, rfl, rfl⟩

theorem records_invalidateNoncesBelow {n : Uint256}
    (h : (vaultMachine P).invoke ⟨env, .invalidateNoncesBelow n⟩ outs w = .ok (r, t)) :
    env.sender = w.authority
      ∧ ∃ e, t.log = w.log ++ [e] ∧ e.event = .NoncesInvalidatedBelow w.authority n := by
  cases step_of_invalidateNoncesBelow (atomic_exec_ok h) with
  | invalidateNoncesBelow _ _ hs => exact ⟨hs, _, rfl, rfl⟩

theorem records_revokeMandate {m : Bytes32}
    (h : (vaultMachine P).invoke ⟨env, .revokeMandate m⟩ outs w = .ok (r, t)) :
    env.sender = w.authority
      ∧ ∃ e, t.log = w.log ++ [e] ∧ e.event = .MandateRevoked m w.authority := by
  cases step_of_revokeMandate (atomic_exec_ok h) with
  | revokeMandate _ _ hs => exact ⟨hs, _, rfl, rfl⟩

end Records

/-- **Revocation is permanent.**  Along every run of a new vault:

    * no `execute` that is entered after a revocation it falls under succeeds, wherever in
      the run it is entered and whatever its adapters do;
    * thresholds never decrease, used nonces stay used and revoked mandates revoked, from
      each surviving state to all later ones, and from each point, reverted later or not,
      through whatever happens next;
    * and each of the three calls, when it succeeds, leaves its entry in the log. -/
theorem revocation_permanent {P : Platform} {vault a : Address} {w₀ : World}
    (h₀ : Deployed vault a w₀) (sc : VaultScript) :
    (∀ env mandate actions signature adapterProofs extensions w,
      let c : Invocation :=
        ⟨env, .execute mandate actions signature adapterProofs extensions⟩
      Point.enter c w ∈ (vaultMachine P).trace sc w₀ → Killed P env mandate w →
      ∀ outs, ∃ e, (vaultMachine P).invoke c outs w = .error e)
    ∧ ((vaultMachine P).committed sc w₀).Pairwise Later
    ∧ (∀ p ∈ (vaultMachine P).trace sc w₀, ∀ sc',
      ∀ q ∈ (vaultMachine P).trace sc' p.state, Later p.state q.state)
    ∧ ∀ env outs w r t,
      (∀ n, (vaultMachine P).invoke ⟨env, .invalidateNonce n⟩ outs w = .ok (r, t) →
        env.sender = w.authority
          ∧ ∃ e, t.log = w.log ++ [e] ∧ e.event = .NonceInvalidated w.authority n)
      ∧ (∀ n, (vaultMachine P).invoke ⟨env, .invalidateNoncesBelow n⟩ outs w = .ok (r, t) →
        env.sender = w.authority
          ∧ ∃ e, t.log = w.log ++ [e] ∧ e.event = .NoncesInvalidatedBelow w.authority n)
      ∧ ∀ m, (vaultMachine P).invoke ⟨env, .revokeMandate m⟩ outs w = .ok (r, t) →
        env.sender = w.authority
          ∧ ∃ e, t.log = w.log ++ [e] ∧ e.event = .MandateRevoked m w.authority := by
  have hup := h₀.upheld P sc
  refine ⟨?_, hup.chain, ?_, ?_⟩
  · intro env mandate actions signature adapterProofs extensions w c hw hkilled outs
    obtain ⟨running, htracks, _⟩ := (hup.points _ hw).1
    cases hr : (vaultMachine P).invoke
        ⟨env, .execute mandate actions signature adapterProofs extensions⟩ outs w with
    | error e => exact ⟨e, rfl⟩
    | ok x =>
        obtain ⟨_, v, _, _, hvalid, _⟩ := execute_invoke_ok hr
        exact absurd hkilled (htracks.not_killed hvalid)
  · intro p hp sc' q hq
    have hup' := Contract.sound (ledgerContract P vault a).toContract sc' p.state
      (hup.points p hp).1 (fun _ _ _ => trivial)
    exact (hup'.points q hq).2
  · intro env outs w r t
    exact ⟨fun _ h => records_invalidateNonce h, fun _ h => records_invalidateNoncesBelow h,
      fun _ h => records_revokeMandate h⟩

/-- The authority invalidates nonce 7; then no execution with it succeeds. -/
theorem revocation_permanent_small :
    ∃ w, (vaultMachine .plain).run
        (Small.tx ⟨Small.env Small.authority, .invalidateNonce 7⟩ .done) (Small.deployed 100)
        = .ok w
      ∧ ∀ outs, ∃ e,
        (vaultMachine .plain).invoke (Small.execution (Small.mandate 7 0 0)) outs w = .error e := by
  obtain ⟨w, hw, htest⟩ := (Machine.runsTo_iff (vaultMachine .plain)
    (Small.tx ⟨Small.env Small.authority, .invalidateNonce 7⟩ .done) (Small.deployed 100)
    (fun w => w.authority = Small.authority
      && w.log.any fun e => e.event = .NonceInvalidated Small.authority 7)).mp
    (by decide +kernel)
  refine ⟨w, hw, (revocation_permanent (P := .plain) (Small.deployed_deployed 100)
    (.frame (Small.tx ⟨Small.env Small.authority, .invalidateNonce 7⟩ .done)
      fun _ => Small.tx (Small.execution (Small.mandate 7 0 0)) .done)).1 _ _ _ _ _ _ w ?_ ?_⟩
  · rw [Machine.trace_frame, hw]
    exact List.mem_append_right _ (Machine.enter_mem_trace _ _ _ _ w)
  · obtain ⟨hauth, hlog⟩ : w.authority = Small.authority
        ∧ ∃ e ∈ w.log, e.event = .NonceInvalidated Small.authority 7 := by simpa using htest
    obtain ⟨e, he, hev⟩ := hlog
    exact ⟨e, he, Or.inl (hauth ▸ hev)⟩

end Vault
