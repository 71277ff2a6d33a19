import MandatedVaultFactory.LedgerProofs

/-!
# The life cycle of the authority

Proposal, replacement, cancellation and acceptance, read off the event log.

* **`Journal.pending_proposed`** — a pending authority was proposed by the present one,
  and nothing has touched the proposal since.
* **`Journal.accepted_of_ne`** — if the authority has changed, somebody so proposed has
  accepted in between.
* **`Journal.authority_eq_holder`** — each epoch has one authority. -/

namespace Vault

open CallTree Chronicles Encoding Ledger

/-- Does the entry report an accepted transfer of authority? -/
def Logged.isTransfer (e : Logged) : Bool :=
  match e.event with
  | .AuthorityTransferred _ _ => true
  | _ => false

/-- Does the entry report a new proposal, a cancellation, or the end of a proposal by
    acceptance? -/
def Logged.endsProposal (e : Logged) : Bool :=
  match e.event with
  | .AuthorityProposed _ _ => true
  | .AuthorityTransferred _ _ => true
  | _ => false

/-- The number of successful `acceptAuthority` calls that a log reports. -/
def accepts (log : List Logged) : Nat := log.countP Logged.isTransfer

/-- In the log, `proposed` was last proposed by `current`, and the proposal stands. -/
def StandingProposal (log : List Logged) (current proposed : Address) : Prop :=
  ∃ before e after, log = before ++ e :: after
    ∧ e.event = .AuthorityProposed current proposed ∧ e.sender = current
    ∧ ∀ x ∈ after, x.endsProposal = false

/-- Among the entries `later`, which follow `earlier`, there is an acceptance by an address
    that the authority of that moment had last proposed. -/
def AcceptedIn (a : Address) (earlier later : List Logged) : Prop :=
  ∃ before e after previous new, later = before ++ e :: after
    ∧ e.call = .acceptAuthority ∧ e.event = .AuthorityTransferred previous new
    ∧ e.sender = new ∧ previous = (replay a (earlier ++ before)).authority
    ∧ StandingProposal (earlier ++ before) previous new

/-! ## One entry -/

section Entry

variable {L : Ledger} {e : Logged}

theorem transfers_write (L : Ledger) (e : Logged) :
    (L.write e).transfers = L.transfers + if e.isTransfer then 1 else 0 := by
  rw [write, Logged.isTransfer]
  cases e.event with
  | MandateExecuted => cases e.executed <;> rfl
  | _ => rfl

theorem Logged.isTransfer_iff :
    e.isTransfer = true ↔ ∃ previous new, e.event = .AuthorityTransferred previous new := by
  rw [Logged.isTransfer]
  cases e.event <;> simp

theorem Logged.endsProposal_iff : e.endsProposal = true
    ↔ e.isTransfer = true ∨ ∃ current proposed, e.event = .AuthorityProposed current proposed := by
  rw [Logged.endsProposal, Logged.isTransfer]
  cases e.event <;> simp

theorem authority_write_of_isTransfer_false (h : e.isTransfer = false) :
    (L.write e).authority = L.authority := by
  rw [Logged.isTransfer] at h
  rw [write]
  cases hev : e.event with
  | AuthorityTransferred previous new => rw [hev] at h; cases h
  | MandateExecuted => cases e.executed <;> rfl
  | _ => rfl

theorem pending_write_of_endsProposal_false (h : e.endsProposal = false) :
    (L.write e).pending = L.pending := by
  rw [Logged.endsProposal] at h
  rw [write]
  cases hev : e.event with
  | AuthorityTransferred previous new => rw [hev] at h; cases h
  | AuthorityProposed current proposed => rw [hev] at h; cases h
  | MandateExecuted => cases e.executed <;> rfl
  | _ => rfl

theorem authority_write_transfer {previous new : Address}
    (h : e.event = .AuthorityTransferred previous new) : (L.write e).authority = new := by
  rw [write, h]
  exact Function.update_self ..

theorem pending_write_transfer {previous new : Address}
    (h : e.event = .AuthorityTransferred previous new) : (L.write e).pending = 0 := by
  rw [write, h]

theorem pending_write_proposal {current proposed : Address}
    (h : e.event = .AuthorityProposed current proposed) : (L.write e).pending = proposed := by
  rw [write, h]

end Entry

/-- The ledger counts the acceptances. -/
theorem transfers_replay (a : Address) (log : List Logged) :
    (replay a log).transfers = accepts log := by
  induction log using List.reverseRecOn with
  | nil => rfl
  | append_singleton log e ih =>
      rw [replay_snoc, transfers_write, ih, accepts, accepts, List.countP_append,
        List.countP_singleton]

namespace Journal

variable {P : Platform} {vault a : Address} {log later : List Logged}

/-- What an acceptance must look like. -/
theorem of_transfer {e : Logged} {previous new : Address} (h : Journal P vault a (log ++ [e]))
    (hev : e.event = .AuthorityTransferred previous new) :
    e.call = .acceptAuthority ∧ e.sender = (replay a log).pending
      ∧ previous = (replay a log).authority ∧ new = (replay a log).pending ∧ new ≠ 0 := by
  have hlast := h.last
  rw [Allows] at hlast
  rw [hev] at hlast
  exact hlast

/-- What a proposal must look like. -/
theorem of_proposal {e : Logged} {current proposed : Address}
    (h : Journal P vault a (log ++ [e])) (hev : e.event = .AuthorityProposed current proposed) :
    e.sender = (replay a log).authority ∧ current = (replay a log).authority := by
  have hlast := h.last
  rw [Allows] at hlast
  rw [hev] at hlast
  exact hlast.2

/-- The authority is never the zero address. -/
theorem authority_ne_zero (h : Journal P vault a log) (ha : a ≠ 0) :
    (replay a log).authority ≠ 0 := by
  induction log using List.reverseRecOn with
  | nil => exact ha
  | append_singleton log e ih =>
      rw [replay_snoc]
      by_cases ht : e.isTransfer = true
      · obtain ⟨previous, new, hev⟩ := Logged.isTransfer_iff.mp ht
        rw [authority_write_transfer hev]
        exact (h.of_transfer hev).2.2.2.2
      · rw [authority_write_of_isTransfer_false (Bool.eq_false_iff.mpr ht)]
        exact ih h.left

/-- What is pending was proposed by the present authority and still stands.  Induction on
    the log from its end. -/
theorem pending_proposed (h : Journal P vault a log) (hp : (replay a log).pending ≠ 0) :
    StandingProposal log (replay a log).authority (replay a log).pending := by
  induction log using List.reverseRecOn with
  | nil => exact absurd rfl hp
  | append_singleton log e ih =>
      rw [replay_snoc] at hp ⊢
      by_cases hends : e.endsProposal = true
      · rcases Logged.endsProposal_iff.mp hends with ht | ⟨current, proposed, hev⟩
        · obtain ⟨previous, new, hev⟩ := Logged.isTransfer_iff.mp ht
          exact absurd (pending_write_transfer hev) hp
        · obtain ⟨hs, hcur⟩ := h.of_proposal hev
          have hstay : e.isTransfer = false := by
            rw [Logged.isTransfer]
            rw [hev]
          rw [pending_write_proposal hev, authority_write_of_isTransfer_false hstay]
          exact ⟨log, e, [], rfl, hcur ▸ hev, hs, by simp⟩
      · -- an entry that has nothing to do with proposals
        have hends' : e.endsProposal = false := Bool.eq_false_iff.mpr hends
        have hstay : e.isTransfer = false :=
          Bool.eq_false_iff.mpr fun ht => hends (Logged.endsProposal_iff.mpr (Or.inl ht))
        rw [pending_write_of_endsProposal_false hends'] at hp ⊢
        rw [authority_write_of_isTransfer_false hstay]
        obtain ⟨before, e', after, heq, hev, hs, hafter⟩ := ih h.left hp
        refine ⟨before, e', after ++ [e], by rw [heq]; simp, hev, hs, ?_⟩
        intro x hx
        rcases List.mem_append.mp hx with hx | hx
        · exact hafter x hx
        · rw [List.mem_singleton.mp hx]
          exact hends'

/-- **A change of authority was accepted.**  Induction on the later entries from their
    end. -/
theorem accepted_of_ne (h : Journal P vault a (log ++ later))
    (hne : (replay a (log ++ later)).authority ≠ (replay a log).authority) :
    AcceptedIn a log later := by
  induction later using List.reverseRecOn with
  | nil => exact absurd (by rw [List.append_nil]) hne
  | append_singleton later e ih =>
      rw [← List.append_assoc] at h hne
      by_cases ht : e.isTransfer = true
      · obtain ⟨previous, new, hev⟩ := Logged.isTransfer_iff.mp ht
        obtain ⟨hcall, hs, hprev, hnew, hzero⟩ := h.of_transfer hev
        refine ⟨later, e, [], previous, new, rfl, hcall, hev, hs.trans hnew.symm, hprev, ?_⟩
        have hjournal : Journal P vault a (log ++ later) := h.left
        rw [hprev, hnew]
        exact hjournal.pending_proposed (hnew ▸ hzero)
      · rw [replay_snoc, authority_write_of_isTransfer_false (Bool.eq_false_iff.mpr ht)] at hne
        obtain ⟨before, e', after, previous, new, heq, hrest⟩ := ih h.left hne
        exact ⟨before, e', after ++ [e], previous, new, by rw [heq]; simp, hrest⟩

/-- The authority after part of the log is the one the ledger has on record for the epoch
    reached by then. -/
theorem authority_eq_holder {log' : List Logged} (h : Journal P vault a log)
    (hp : log' <+: log) :
    (replay a log').authority = (replay a log).holder (replay a log').transfers :=
  ((h.grows_of_prefix hp).holder _ (Nat.le_refl _)).symm

/-- **Each epoch number has one authority**, as long as the numbers do not wrap around. -/
theorem authority_unique {l l' : List Logged} (h : Journal P vault a log)
    (hwrap : accepts log < 2 ^ 64) (hl : l <+: log) (hl' : l' <+: log)
    (heq : BitVec.ofNat 64 (accepts l) = BitVec.ofNat 64 (accepts l')) :
    (replay a l).authority = (replay a l').authority := by
  have hle := (h.grows_of_prefix hl).transfers
  have hle' := (h.grows_of_prefix hl').transfers
  rw [transfers_replay, transfers_replay] at hle hle'
  have hcount := congrArg BitVec.toNat heq
  rw [BitVec.toNat_ofNat, BitVec.toNat_ofNat, Nat.mod_eq_of_lt (by omega),
    Nat.mod_eq_of_lt (by omega)] at hcount
  rw [h.authority_eq_holder hl, h.authority_eq_holder hl', transfers_replay,
    transfers_replay, hcount]

end Journal

/-- A successful `acceptAuthority`. -/
theorem acceptAuthority_invoke_ok {P : Platform} {env : Env} {outs : Nat → Msg → VaultScript}
    {w t : World} {r : Value}
    (h : (vaultMachine P).invoke ⟨env, .acceptAuthority⟩ outs w = .ok (r, t)) :
    env.sender = w.pendingAuthority ∧ t.authority = env.sender ∧ t.pendingAuthority = 0
      ∧ accepts t.log = accepts w.log + 1 := by
  cases step_of_acceptAuthority (atomic_exec_ok h) with
  | acceptAuthority _ hs =>
      refine ⟨hs, hs.symm, rfl, ?_⟩
      show (w.log ++ [_]).countP Logged.isTransfer = _
      rw [List.countP_append]
      rfl

/-- **The life cycle of the authority.**  Along every run of a new vault, at every point,
    including those inside callbacks and inside calls that revert later:

    * the authority is nonzero, and it is what the events since `initialize` make it;
    * it differs from what it was after an earlier part of the events only if an address
      that the authority of that moment had last proposed has accepted in between, and so
      between any two surviving states;
    * an acceptance clears the proposal and counts; the epoch number is the count modulo
      `2^64`, so that with fewer acceptances each number has one authority;
    * an `execute` that succeeds names the number of acceptances before it, and its
      signature was checked against the authority of that epoch; one that names an earlier
      epoch fails. -/
theorem authority_lifecycle {P : Platform} {vault a : Address} {w₀ : World}
    (h₀ : Deployed vault a w₀) (sc : VaultScript) :
    (∀ p ∈ (vaultMachine P).trace sc w₀,
      p.state.authority ≠ 0
      ∧ p.state.authority = (replay a p.state.log).authority
      ∧ (∀ l l', p.state.log = l ++ l' → p.state.authority ≠ (replay a l).authority →
        AcceptedIn a l l')
      ∧ p.state.authorityEpoch = BitVec.ofNat 64 (accepts p.state.log)
      ∧ (accepts p.state.log < 2 ^ 64 → ∀ l l', l <+: p.state.log → l' <+: p.state.log →
        BitVec.ofNat 64 (accepts l) = BitVec.ofNat 64 (accepts l') →
        (replay a l).authority = (replay a l').authority))
    ∧ ((vaultMachine P).committed sc w₀).Pairwise (fun w w' => w.authority ≠ w'.authority →
      ∃ later, w'.log = w.log ++ later ∧ AcceptedIn a w.log later)
    ∧ (∀ env outs w r t,
      (vaultMachine P).invoke ⟨env, .acceptAuthority⟩ outs w = .ok (r, t) →
      env.sender = w.pendingAuthority ∧ t.authority = env.sender ∧ t.pendingAuthority = 0
        ∧ accepts t.log = accepts w.log + 1)
    ∧ ∀ env mandate actions signature adapterProofs extensions w,
      let c : Invocation :=
        ⟨env, .execute mandate actions signature adapterProofs extensions⟩
      Point.enter c w ∈ (vaultMachine P).trace sc w₀ → ∀ outs,
      (∀ r t, (vaultMachine P).invoke c outs w = .ok (r, t) →
        mandate.authorityEpoch = BitVec.ofNat 64 (accepts w.log)
        ∧ signatureValid P env (replay a w.log).authority
          (hashMandate P env.chainId vault mandate) signature = true)
      ∧ (accepts w.log < 2 ^ 64 → ∀ k < accepts w.log,
        mandate.authorityEpoch = BitVec.ofNat 64 k →
        ∃ e, (vaultMachine P).invoke c outs w = .error e) := by
  have hup := h₀.upheld P sc
  have ha : a ≠ 0 := h₀.eq.1
  have htracks : ∀ p ∈ (vaultMachine P).trace sc w₀,
      ∃ running, Tracks P vault a p.state running := by
    intro p hp
    obtain ⟨running, h, _⟩ := (hup.points p hp).1
    exact ⟨running, h⟩
  refine ⟨?_, ?_, fun _ _ _ _ _ h => acceptAuthority_invoke_ok h, ?_⟩
  · -- at every point: who the authority is, and what its epoch number is
    intro p hp
    obtain ⟨running, h⟩ := htracks p hp
    refine ⟨?_, h.authority, ?_, ?_, ?_⟩
    · rw [h.authority]
      exact h.journal.authority_ne_zero ha
    · intro l l' heq hne
      have hj := h.journal
      rw [h.authority, heq] at hne
      rw [heq] at hj
      exact hj.accepted_of_ne hne
    · rw [h.epoch, transfers_replay]
    · exact fun hwrap l l' hl hl' => h.journal.authority_unique hwrap hl hl'
  · -- between surviving states the log only grows, so the ledger of the later one decides
    refine hup.chain.imp_of_mem ?_
    intro w w' hw hw' hlater hne
    obtain ⟨p, hp, rfl⟩ := Machine.exists_point_of_mem_committed _ _ _ _ hw
    obtain ⟨p', hp', rfl⟩ := Machine.exists_point_of_mem_committed _ _ _ _ hw'
    obtain ⟨_, h⟩ := htracks p hp
    obtain ⟨_, h'⟩ := htracks p' hp'
    obtain ⟨later, heq⟩ := hlater.log
    have hj := h'.journal
    rw [← heq] at hj
    rw [h.authority, h'.authority, ← heq] at hne
    exact ⟨later, heq.symm, hj.accepted_of_ne hne.symm⟩
  · -- an `execute` that is called at one of the points
    intro env mandate actions signature adapterProofs extensions w c hw outs
    obtain ⟨running, h⟩ := htracks _ hw
    have hepoch : w.authorityEpoch = BitVec.ofNat 64 (accepts w.log) := by
      rw [← transfers_replay a]
      exact h.epoch
    have hok : ∀ r t, (vaultMachine P).invoke c outs w = .ok (r, t) →
        mandate.authorityEpoch = BitVec.ofNat 64 (accepts w.log)
        ∧ signatureValid P env (replay a w.log).authority
          (hashMandate P env.chainId vault mandate) signature = true := by
      intro r t hr
      obtain ⟨_, v, _, _, hvalid, _⟩ := execute_invoke_ok hr
      refine ⟨hvalid.fields.epoch.trans hepoch, ?_⟩
      have hself : w.self = vault := h.at_vault
      have hauth : w.authority = (replay a w.log).authority := h.authority
      rw [← hauth, ← hvalid.authority_eq, ← hself, ← hvalid.mandateHash_eq]
      exact hvalid.signed
    refine ⟨hok, ?_⟩
    intro hwrap k hk hmandate
    cases hr : (vaultMachine P).invoke c outs w with
    | error e => exact ⟨e, rfl⟩
    | ok x =>
        -- below the wrap, equal epoch numbers are equal counts
        have hcount := congrArg BitVec.toNat (hmandate.symm.trans (hok x.1 x.2 hr).1)
        rw [BitVec.toNat_ofNat, BitVec.toNat_ofNat, Nat.mod_eq_of_lt (by omega),
          Nat.mod_eq_of_lt hwrap] at hcount
        omega

/-- A proposal and its acceptance. -/
theorem authority_lifecycle_small :
    ∃ w, (vaultMachine .plain).run
        (.history [Small.tx ⟨Small.env Small.authority, .proposeAuthority Small.executor⟩ .done,
          Small.tx ⟨Small.env Small.executor, .acceptAuthority⟩ .done])
        (Small.deployed 100) = .ok w
      ∧ w.authority = Small.executor ∧ AcceptedIn Small.authority [] w.log
      ∧ w.authorityEpoch = BitVec.ofNat 64 (accepts w.log) := by
  obtain ⟨w, hw, htest⟩ := (Machine.runsTo_iff (vaultMachine .plain)
    (.history [Small.tx ⟨Small.env Small.authority, .proposeAuthority Small.executor⟩ .done,
      Small.tx ⟨Small.env Small.executor, .acceptAuthority⟩ .done])
    (Small.deployed 100) (fun w => w.authority = Small.executor)).mp (by decide +kernel)
  have hauth : w.authority = Small.executor := by simpa using htest
  obtain ⟨_, _, hchange, hepoch, _⟩ := (authority_lifecycle (P := .plain)
    (Small.deployed_deployed 100) _).1 _ (Machine.idle_mem_trace _ _ _ _ hw)
  refine ⟨w, hw, hauth, hchange [] w.log rfl ?_, hepoch⟩
  show w.authority ≠ Small.authority
  rw [hauth]
  decide

end Vault
