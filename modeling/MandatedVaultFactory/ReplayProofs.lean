import MandatedVaultFactory.LedgerProofs

/-!
# Replay safety

No nonce is executed twice under one authority, and no mandate hash twice at all,
whatever the order of calls and whatever adapters call back.

* **`Journal.pairwise_executed`** — two executions in one journal differ in authority or
  nonce.
* **`Journal.pairwise_hash`** — they differ in the mandate hash, if hashes of mandates do
  not collide and epoch numbers have not wrapped around: equal mandates name the same
  epoch, hence the same authority, and the same nonce.
* **`used_of_mem_trace`** — while an adapter runs, the nonce is used already. -/

namespace Vault

open CallTree Chronicles Encoding Ledger

/-- Does the entry report an execution under this authority with this nonce? -/
def Logged.executedWith (a : Address) (n : Uint256) (e : Logged) : Bool :=
  match e.executed with
  | some (b, mandate) => b = a && mandate.nonce = n
  | none => false

/-- The mandate hash of an execution that an entry reports. -/
def Logged.executedHash (e : Logged) : Option Bytes32 :=
  match e.event with
  | .MandateExecuted mandateHash _ _ _ _ _ => some mandateHash
  | _ => none

theorem Logged.executedWith_iff {a : Address} {n : Uint256} {e : Logged} :
    e.executedWith a n = true ↔ ∃ mandate, e.executed = some (a, mandate)
      ∧ mandate.nonce = n := by
  rw [Logged.executedWith]
  cases e.executed with
  | none => simp
  | some x =>
      obtain ⟨b, mandate⟩ := x
      constructor
      · intro h
        obtain ⟨rfl, hn⟩ : b = a ∧ mandate.nonce = n := by simpa using h
        exact ⟨mandate, rfl, hn⟩
      · rintro ⟨mandate', hx, hn⟩
        obtain ⟨rfl, rfl⟩ := Prod.mk.inj (Option.some.inj hx)
        simpa using hn

/-- The chain and the mandate of every execution that a log reports. -/
def executedMandates (log : List Logged) : Set (Uint256 × Mandate) :=
  { x | ∃ e ∈ log, ∃ a, e.chainId = x.1 ∧ e.executed = some (a, x.2) }

namespace Journal

variable {P : Platform} {vault a : Address} {log : List Logged}

/-- An entry that may be written now reports an execution only together with the rest of
    what the ledger demands of one. -/
theorem allows_executed {L : Ledger} {e : Logged} {h : Bytes32} (he : L.Allows P vault e)
    (hh : e.executedHash = some h) :
    ∃ b mandate, L.AllowsExecution P vault e h b mandate := by
  rw [Logged.executedHash] at hh
  rw [Allows] at he
  cases hev : e.event with
  | MandateExecuted m b x d pre post =>
      rw [hev] at he hh
      obtain rfl : m = h := Option.some.inj hh
      obtain ⟨_, mandate, hallow⟩ := he
      exact ⟨b, mandate, hallow⟩
  | _ => rw [hev] at hh; cases hh

/-- An entry that reports an execution carries a hash. -/
theorem executedHash_of_executed {e : Logged} {x : Address × Mandate}
    (h : e.executed = some x) : ∃ m, e.executedHash = some m := by
  rw [Logged.executed] at h
  rw [Logged.executedHash]
  split at h
  · rename_i hev
    rw [hev]
    exact ⟨_, rfl⟩
  · cases h

/-- **A nonce is executed once.**  Induction on the log from its end: the ledger knows all
    earlier executions and allows none of their nonces again. -/
theorem pairwise_executed (h : Journal P vault a log) :
    log.Pairwise fun e e' => ∀ b n,
      ¬ (e.executedWith b n = true ∧ e'.executedWith b n = true) := by
  induction log using List.reverseRecOn with
  | nil => exact .nil
  | append_singleton log e ih =>
      refine List.pairwise_append.mpr ⟨ih h.left, List.pairwise_singleton _ _, ?_⟩
      rintro e' he' e'' he'' b n ⟨h1, h2⟩
      obtain rfl := List.mem_singleton.mp he''
      obtain ⟨mandate, hx, hn⟩ := Logged.executedWith_iff.mp h2
      obtain ⟨m, hm⟩ := executedHash_of_executed hx
      obtain ⟨b', mandate', hallow⟩ := allows_executed h.last hm
      obtain ⟨rfl, rfl⟩ := Prod.mk.inj (Option.some.inj (hallow.executed.symm.trans hx))
      obtain ⟨mandate'', hx', hn'⟩ := Logged.executedWith_iff.mp h1
      exact hallow.fresh ((mem_executed_replay a _ _ log).mpr
        ⟨e', he', mandate'', hx', hn'.trans hn.symm⟩)

/-- What every entry that reports an execution satisfies, in terms of the ledger at the
    end of the log. -/
theorem executed_entry (h : Journal P vault a log) {e : Logged} (he : e ∈ log) {m : Bytes32}
    (hm : e.executedHash = some m) :
    ∃ b mandate, e.executed = some (b, mandate) ∧ m = hashMandate P e.chainId vault mandate
      ∧ ∃ k ≤ (replay a log).transfers, (replay a log).holder k = b
        ∧ mandate.authorityEpoch = BitVec.ofNat 64 k := by
  obtain ⟨before, after, rfl⟩ := List.append_of_mem he
  obtain ⟨b, mandate, hallow⟩ := allows_executed (h before e after rfl) hm
  obtain ⟨k, hk, hb, hepoch⟩ := hallow.epoch
  have hgrows := h.grows_of_prefix (List.prefix_append before (e :: after))
  refine ⟨b, mandate, hallow.executed, hallow.hash, k, Nat.le_trans hk hgrows.transfers, ?_,
    hepoch⟩
  rw [hgrows.holder k hk, hb]

/-- **A mandate hash is executed once**, as long as epoch numbers have not wrapped around
    and the hashes of the executed mandates do not collide. -/
theorem pairwise_hash (h : Journal P vault a log) (hwrap : (replay a log).transfers < 2 ^ 64)
    (hinj : Set.InjOn (fun x : Uint256 × Mandate => hashMandate P x.1 vault x.2)
      (executedMandates log)) (m : Bytes32) :
    log.Pairwise fun e e' => ¬ (e.executedHash = some m ∧ e'.executedHash = some m) := by
  refine h.pairwise_executed.imp_of_mem ?_
  rintro e e' he he' hne ⟨hm, hm'⟩
  obtain ⟨b, mandate, hx, hhash, k, hk, hb, hepoch⟩ := h.executed_entry he hm
  obtain ⟨b', mandate', hx', hhash', k', hk', hb', hepoch'⟩ := h.executed_entry he' hm'
  -- the same mandate, hence the same epoch, authority and nonce
  have hsame : (e.chainId, mandate) = (e'.chainId, mandate') :=
    hinj ⟨e, he, b, rfl, hx⟩ ⟨e', he', b', rfl, hx'⟩ (hhash.symm.trans hhash')
  obtain rfl : mandate = mandate' := (Prod.mk.inj hsame).2
  have hkk : k = k' := by
    have heq := congrArg BitVec.toNat (hepoch.symm.trans hepoch')
    rw [BitVec.toNat_ofNat, BitVec.toNat_ofNat, Nat.mod_eq_of_lt (by omega),
      Nat.mod_eq_of_lt (by omega)] at heq
    exact heq
  subst hkk
  obtain rfl : b = b' := hb.symm.trans hb'
  exact hne b mandate.nonce ⟨Logged.executedWith_iff.mpr ⟨mandate, hx, rfl⟩,
    Logged.executedWith_iff.mpr ⟨mandate, hx', rfl⟩⟩

end Journal

/-! ## While an adapter runs -/

/-- A used nonce stays used, in any run from any state. -/
def usedContract (P : Platform) (a : Address) (n : Uint256) :
    VaultContract P (fun _ _ => True) where
  inv w := w.nonceUsed a n = true
  rel _ _ := True
  mono _ _ := True
  rel_refl _ := trivial
  rel_trans _ _ := trivial
  mono_refl _ := trivial
  mono_trans _ _ := trivial
  balances _ _ _ h := ⟨h, trivial, trivial⟩
  shares _ _ _ _ _ h := ⟨h, trivial, trivial⟩
  erc20 _ _ _ h := ⟨h, trivial, trivial⟩
  step env call w w' h _ hstep := by
    refine ⟨?_, trivial, trivial⟩
    cases hstep with
    | invalidateNonce _ m hs => exact (World.nonceUsed_useNonce ..).mpr (Or.inr h)
    | _ => exact h
  execution env mandate actions signature adapterProofs extensions w v h _ _ _ := by
    refine ⟨fun t => t.nonceUsed a n = true, ?_, trivial, fun _ ht => ht,
      fun _ _ _ ht _ _ => ht, fun _ _ ht _ => ⟨ht, trivial, trivial⟩⟩
    rw [World.begun_eq]
    exact (World.nonceUsed_useNonce ..).mpr (Or.inr h)

/-- **Whenever an adapter has control, the nonce of the running mandate is used.**  It was
    used up before the first action, and callbacks cannot free it. -/
theorem used_of_mem_trace {P : Platform} {env : Env} {mandate : Mandate}
    {actions : List Action} {signature : Bytes} {adapterProofs : List (List Bytes32)}
    {extensions : Bytes} {outs : Nat → Msg → VaultScript} {w : World} {x : Nat × Msg × World}
    (hx : x ∈ (vaultMachine P).handovers
      ⟨env, .execute mandate actions signature adapterProofs extensions⟩ outs w) :
    ∀ p ∈ (vaultMachine P).trace (outs x.1 x.2.1) x.2.2,
      p.state.nonceUsed w.authority mandate.nonce = true := by
  obtain ⟨_, v, hvalid, heq⟩ := execute_handovers hx
  rw [heq] at hx
  let K := usedContract P w.authority mandate.nonce
  have hbegun : K.inv (w.begun env mandate) := by
    show (w.begun env mandate).nonceUsed _ _ = true
    rw [World.begun_eq]
    exact (World.nonceUsed_useNonce ..).mpr (Or.inl ⟨rfl, rfl⟩)
  exact ((K.actions_sound outs hvalid.no_value hbegun
    (fun _ _ _ _ _ => trivial)).1 x hx).2

/-! ## The property of runs -/

/-- **Replay safety over whole runs.**  Along every run of a new vault, at every point,
    including those inside callbacks and inside calls that revert later:

    * under each authority each nonce has been executed at most once;
    * each mandate hash has been executed at most once, with fewer than `2^64` transfers
      and no collision among the hashes of the executed mandates;
    * a successful `execute` always leaves its entry in the log, and from one surviving
      state to the next the log only grows;
    * and whenever one of its adapters has control, the nonce is already used. -/
theorem replay_safety {P : Platform} {vault a : Address} {w₀ : World}
    (h₀ : Deployed vault a w₀) (sc : VaultScript) :
    (∀ p ∈ (vaultMachine P).trace sc w₀,
      (∀ b n, p.state.log.countP (Logged.executedWith b n) ≤ 1)
      ∧ ((replay a p.state.log).transfers < 2 ^ 64 →
        Set.InjOn (fun x : Uint256 × Mandate => hashMandate P x.1 vault x.2)
          (executedMandates p.state.log) →
        ∀ m, p.state.log.countP (fun e => e.executedHash = some m) ≤ 1))
    ∧ ((vaultMachine P).committed sc w₀).Pairwise (fun w w' => w.log <+: w'.log)
    ∧ ∀ env mandate actions signature adapterProofs extensions outs w,
      let c : Invocation :=
        ⟨env, .execute mandate actions signature adapterProofs extensions⟩
      (∀ r t, (vaultMachine P).invoke c outs w = .ok (r, t) → ∃ before e,
        t.log = before ++ [e] ∧ e.executed = some (w.authority, mandate)
        ∧ e.executedHash = some (hashMandate P env.chainId w.self mandate))
      ∧ ∀ x ∈ (vaultMachine P).handovers c outs w,
        ∀ p ∈ (vaultMachine P).trace (outs x.1 x.2.1) x.2.2,
          p.state.nonceUsed w.authority mandate.nonce = true := by
  have hup := h₀.upheld P sc
  refine ⟨?_, hup.chain.imp fun h => h.log, ?_⟩
  · intro p hp
    obtain ⟨running, htracks, _⟩ := (hup.points p hp).1
    constructor
    · intro b n
      exact countP_le_one (htracks.journal.pairwise_executed.imp fun h => h b n)
    · intro hwrap hinj m
      refine countP_le_one ((htracks.journal.pairwise_hash hwrap hinj m).imp ?_)
      intro e e' h
      simpa using h
  · intro env mandate actions signature adapterProofs extensions outs w
    refine ⟨?_, fun x hx => used_of_mem_trace hx⟩
    intro r t h
    obtain ⟨_, v, s, mark, hvalid, _, _, _, rfl⟩ := execute_invoke_ok h
    refine ⟨s.log, _, rfl, ?_, ?_⟩
    · rw [← hvalid.authority_eq]
      rfl
    · rw [← hvalid.mandateHash_eq]
      rfl

/-- Two attempts to execute with nonce 7: the run goes through, one of them is in the log. -/
theorem replay_safety_small :
    ∃ w, (vaultMachine .plain).run
        (.history [Small.tx (Small.execution (Small.mandate 7 0 0)) .done,
          Small.tx (Small.execution (Small.mandate 7 0 0)) .done])
        (Small.deployed 100) = .ok w
      ∧ w.log.length = 1
      ∧ w.log.countP (Logged.executedWith Small.authority 7) ≤ 1
      ∧ ∀ m, w.log.countP (fun e => e.executedHash = some m) ≤ 1 := by
  obtain ⟨w, hw, htest⟩ := (Machine.runsTo_iff (vaultMachine .plain)
    (.history [Small.tx (Small.execution (Small.mandate 7 0 0)) .done,
      Small.tx (Small.execution (Small.mandate 7 0 0)) .done])
    (Small.deployed 100) (fun w => w.log.length = 1)).mp (by decide +kernel)
  have hlen : w.log.length = 1 := by simpa using htest
  obtain ⟨e, he⟩ := List.length_eq_one_iff.mp hlen
  obtain ⟨hnonce, hhash⟩ := (replay_safety (P := .plain) (Small.deployed_deployed 100) _).1 _
    (Machine.idle_mem_trace _ _ _ _ hw)
  refine ⟨w, hw, hlen, hnonce Small.authority 7, hhash ?_ ?_⟩
  · -- one entry, and it is no transfer
    have hgrows : (replay Small.authority w.log).transfers ≤ 1 := by
      rw [he]
      show ((initial Small.authority).write e).transfers ≤ 1
      rw [write]
      cases e.event with
      | MandateExecuted => cases e.executed <;> exact Nat.zero_le _
      | AuthorityTransferred => exact Nat.le_refl _
      | _ => exact Nat.zero_le _
    exact Nat.lt_of_le_of_lt hgrows (by decide)
  · rintro ⟨c, m⟩ ⟨e₁, h₁, a₁, hc₁, hx₁⟩ ⟨c', m'⟩ ⟨e₂, h₂, a₂, hc₂, hx₂⟩ _
    simp only [Point.state, he] at h₁ h₂
    obtain rfl := List.mem_singleton.mp h₁
    obtain rfl := List.mem_singleton.mp h₂
    obtain ⟨_, hm⟩ := Prod.mk.inj (Option.some.inj (hx₁.symm.trans hx₂))
    exact Prod.ext (hc₁.symm.trans hc₂) hm

end Vault
