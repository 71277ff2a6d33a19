import MandatedVaultFactory.ObserverProofs
import MandatedVaultFactory.RevocationProofs
import Mathlib

/-!
# Kill switches join

Which nonces, thresholds and mandate hashes are off is a join: each event tells something of it, and
nothing is taken back.

* **`Switches`** — what is off; `Switches.Blocks` says when a mandate is.
* **`observers_agree`** — along every run, who has seen events of the vault, in any order and any
  number of times, knows nothing that is not so, and who has seen all of them knows it all.
* **`presses_join`** — kill switches that are pressed in a race: the outcome does not depend on the
  order in which the calls come through, nor on whose calls are refused. -/

namespace Vault

open CallTree Chronicles Encoding Ledger Observers

/-! ## What is off -/

/-- Used nonces, thresholds, and revoked mandates. -/
abbrev Switches : Type := Set (Address × Uint256) × (Address → Nat) × Set Bytes32

namespace Switches

def nonce (a : Address) (n : Uint256) : Switches := ({(a, n)}, ⊥, ∅)

def below (a : Address) (t : Uint256) : Switches := (∅, Function.update ⊥ a t.toNat, ∅)

def mandate (m : Bytes32) : Switches := (∅, ⊥, {m})

/-- The mandate with this hash, under this authority and nonce, is off. -/
def Blocks (k : Switches) (a : Address) (n : Uint256) (m : Bytes32) : Prop :=
  (a, n) ∈ k.1 ∨ n.toNat < k.2.1 a ∨ m ∈ k.2.2

variable {k k' : Switches} {a : Address} {n : Uint256} {m : Bytes32}

theorem not_blocks_bot : ¬ Blocks ⊥ a n m := by
  rintro (h | h | h)
  · exact h
  · exact Nat.not_lt_zero _ h
  · exact h

/-- Two sides never block what neither of them does. -/
theorem blocks_sup : (k ⊔ k').Blocks a n m ↔ k.Blocks a n m ∨ k'.Blocks a n m := by
  have hlt : n.toNat < k.2.1 a ⊔ k'.2.1 a ↔ n.toNat < k.2.1 a ∨ n.toNat < k'.2.1 a := lt_sup_iff
  show (_ ∨ _) ∨ n.toNat < k.2.1 a ⊔ k'.2.1 a ∨ (_ ∨ _) ↔ _
  rw [hlt, Blocks, Blocks]
  constructor
  · rintro ((h | h) | (h | h) | h | h)
    · exact Or.inl (Or.inl h)
    · exact Or.inr (Or.inl h)
    · exact Or.inl (Or.inr (Or.inl h))
    · exact Or.inr (Or.inr (Or.inl h))
    · exact Or.inl (Or.inr (Or.inr h))
    · exact Or.inr (Or.inr (Or.inr h))
  · rintro ((h | h | h) | h | h | h)
    · exact Or.inl (Or.inl h)
    · exact Or.inr (Or.inl (Or.inl h))
    · exact Or.inr (Or.inr (Or.inl h))
    · exact Or.inl (Or.inr h)
    · exact Or.inr (Or.inl (Or.inr h))
    · exact Or.inr (Or.inr (Or.inr h))

/-- What is off stays off. -/
theorem Blocks.mono (h : k.Blocks a n m) (hle : k ≤ k') : k'.Blocks a n m := by
  obtain ⟨hnonces, hthresholds, hmandates⟩ := hle
  rcases h with h | h | h
  · exact Or.inl (hnonces h)
  · exact Or.inr (Or.inl (Nat.lt_of_lt_of_le h (hthresholds a)))
  · exact Or.inr (Or.inr (hmandates h))

end Switches

/-- What is off in a state. -/
def World.switches (w : World) : Switches :=
  ({x | w.nonceUsed x.1 x.2 = true}, fun a => (w.nonceThreshold a).toNat,
    {m | w.mandateRevoked m = true})

/-- What an event tells, with the call that emitted it: the nonce of an execution is read off the
    mandate of the call. -/
def Logged.switches (e : Logged) : Switches :=
  match e.event with
  | .NonceInvalidated a n => Switches.nonce a n
  | .NoncesInvalidatedBelow a t => Switches.below a t
  | .MandateRevoked m _ => Switches.mandate m
  | .MandateExecuted .. =>
      match e.executed with
      | some (a, mandate) => Switches.nonce a mandate.nonce
      | none => ⊥
  | _ => ⊥

/-- A valid mandate is not off. -/
theorem MandateValid.not_blocks {P : Platform} {env : Env} {mandate : Mandate}
    {actions : List Action} {signature : Bytes} {adapterProofs : List (List Bytes32)}
    {extensions : Bytes} {w : World} {v : Validated}
    (h : MandateValid P env mandate actions signature adapterProofs extensions w v) :
    ¬ w.switches.Blocks w.authority mandate.nonce (hashMandate P env.chainId w.self mandate) := by
  rw [← h.mandateHash_eq, ← h.authority_eq]
  rintro (hused | hthreshold | hrevoked)
  · have hused : w.nonceUsed v.authority mandate.nonce = true := hused
    rw [h.unused] at hused
    cases hused
  · exact absurd h.threshold (Nat.not_le.mpr hthreshold)
  · have hrevoked : w.mandateRevoked v.mandateHash = true := hrevoked
    rw [h.not_revoked] at hrevoked
    cases hrevoked

/-! ## The log tells all of it -/

/-- What the ledger has off. -/
def Ledger.switches (L : Ledger) : Switches :=
  (L.spent, fun a => (L.threshold a).toNat, L.revoked)

theorem sup_nonce (k : Switches) (a : Address) (n : Uint256) :
    k ⊔ Switches.nonce a n = (insert (a, n) k.1, k.2) := by
  refine Prod.ext ?_ (sup_eq_left.mpr ⟨fun _ => Nat.zero_le _, Set.empty_subset _⟩)
  exact Set.union_singleton

theorem sup_mandate (k : Switches) (m : Bytes32) :
    k ⊔ Switches.mandate m = (k.1, k.2.1, insert m k.2.2) := by
  refine Prod.ext (Set.union_empty _) (Prod.ext ?_ Set.union_singleton)
  exact sup_eq_left.mpr fun _ => Nat.zero_le _

/-- A threshold that is raised. -/
theorem sup_below {k : Switches} {a : Address} {t : Uint256} (h : k.2.1 a ≤ t.toNat) :
    k ⊔ Switches.below a t = (k.1, Function.update k.2.1 a t.toNat, k.2.2) := by
  refine Prod.ext (Set.union_empty _) (Prod.ext ?_ (Set.union_empty _))
  funext b
  show k.2.1 b ⊔ Function.update (⊥ : Address → Nat) a t.toNat b
    = Function.update k.2.1 a t.toNat b
  by_cases hb : b = a
  · subst hb
    rw [Function.update_self, Function.update_self]
    exact sup_eq_right.mpr h
  · rw [Function.update_of_ne hb, Function.update_of_ne hb]
    exact sup_bot_eq _

theorem toNat_update (f : Address → Uint256) (a : Address) (t : Uint256) :
    (fun b => (Function.update f a t b).toNat)
      = Function.update (fun b => (f b).toNat) a t.toNat := by
  funext b
  by_cases hb : b = a
  · subst hb
    rw [Function.update_self, Function.update_self]
  · rw [Function.update_of_ne hb, Function.update_of_ne hb]

/-- One allowed entry joins what it tells.  One case for each kind of event; a threshold is only
    ever raised. -/
theorem switches_write {P : Platform} {vault : Address} {L : Ledger} {e : Logged}
    (h : L.Allows P vault e) : (L.write e).switches = L.switches ⊔ e.switches := by
  rw [write, Logged.switches]
  rw [Allows] at h
  cases hev : e.event with
  | NonceInvalidated a n => exact (sup_nonce L.switches a n).symm
  | NoncesInvalidatedBelow a t =>
      rw [hev] at h
      have hle : L.switches.2.1 a ≤ t.toNat := Nat.le_of_lt h.2.2.2
      rw [sup_below hle]
      exact Prod.ext rfl (Prod.ext (toNat_update L.threshold a t) rfl)
  | MandateRevoked m a => exact (sup_mandate L.switches m).symm
  | MandateExecuted m a x d pre post =>
      rw [hev] at h
      obtain ⟨_, mandate, hallow⟩ := h
      simp only [hallow.executed]
      exact (sup_nonce L.switches a mandate.nonce).symm
  | _ => exact (sup_bot_eq _).symm

/-- **What the ledger has off is what its log tells.**  Induction on the log from its end. -/
theorem Journal.switches_replay {P : Platform} {vault a : Address} {log : List Logged}
    (h : Journal P vault a log) : (replay a log).switches = known Logged.switches log := by
  induction log using List.reverseRecOn with
  | nil => rfl
  | append_singleton log e ih =>
      rw [replay_snoc, switches_write h.last, ih h.left, known_snoc]

/-- The nonce of the execution that is running. -/
def runningNonce (running : Option (Address × Uint256)) : Switches := ({x | running = some x}, ⊥, ∅)

theorem runningNonce_none : runningNonce none = ⊥ := by
  refine Prod.ext ?_ rfl
  show {x : Address × Uint256 | none = some x} = ∅
  exact Set.eq_empty_of_forall_notMem fun x hx => Option.some_ne_none x hx.symm

/-- **What is off is what the log tells**, and the nonce of the execution that is running. -/
theorem Tracks.switches {P : Platform} {vault a : Address} {w : World}
    {running : Option (Address × Uint256)} (h : Tracks P vault a w running) :
    w.switches = known Logged.switches w.log ⊔ runningNonce running := by
  rw [← h.journal.switches_replay]
  refine Prod.ext ?_ (Prod.ext ?_ ?_)
  · ext x
    exact h.used x.1 x.2
  · show (fun b => (w.nonceThreshold b).toNat) = (fun b => ((replay a w.log).threshold b).toNat) ⊔ ⊥
    rw [sup_bot_eq, h.threshold]
  · show {m | w.mandateRevoked m = true} = (replay a w.log).revoked ∪ ∅
    rw [Set.union_empty]
    exact Set.ext h.revoked

/-! ## Observers of the log -/

/-- **Observers agree.**  At every point of every run of a new vault, inside callbacks too:

    * who has seen some of the events with their calls, in any order and any number of times, knows
      nothing to be off that is not, and an execution of a mandate that is off for it fails;
    * who has seen all of them knows all that is off, unless an execution is running. -/
theorem observers_agree {P : Platform} {vault a : Address} {w₀ : World}
    (h₀ : Deployed vault a w₀) (sc : VaultScript) :
    ∀ p ∈ (vaultMachine P).trace sc w₀,
      (∀ seen : List Logged, (∀ e ∈ seen, e ∈ p.state.log) →
        known Logged.switches seen ≤ p.state.switches
        ∧ ∀ env mandate actions signature adapterProofs extensions outs,
          (known Logged.switches seen).Blocks p.state.authority mandate.nonce
            (hashMandate P env.chainId vault mandate) →
          ∃ e, (vaultMachine P).invoke
            ⟨env, .execute mandate actions signature adapterProofs extensions⟩ outs p.state
            = .error e)
      ∧ ∀ seen : List Logged, (∀ e, e ∈ seen ↔ e ∈ p.state.log) → ¬ p.state.entered →
        known Logged.switches seen = p.state.switches := by
  intro p hp
  obtain ⟨running, htracks, hidle⟩ := ((h₀.upheld P sc).points p hp).1
  constructor
  · intro seen hseen
    have hle : known Logged.switches seen ≤ p.state.switches := by
      rw [htracks.switches]
      exact le_sup_of_le_left (known_mono hseen)
    refine ⟨hle, ?_⟩
    intro env mandate actions signature adapterProofs extensions outs hblocks
    cases hr : (vaultMachine P).invoke
        ⟨env, .execute mandate actions signature adapterProofs extensions⟩ outs p.state with
    | error e => exact ⟨e, rfl⟩
    | ok r =>
        obtain ⟨_, v, _, _, hvalid, _⟩ := execute_invoke_ok hr
        rw [← htracks.at_vault] at hblocks
        exact absurd (hblocks.mono hle) hvalid.not_blocks
  · intro seen hseen hent
    rw [htracks.switches, hidle hent, known_congr hseen, runningNonce_none, sup_bot_eq]

/-- The authority invalidates a nonce; who reads the log from its end knows what is off. -/
theorem observers_agree_small :
    ∃ w, (vaultMachine .plain).run
        (Small.tx ⟨Small.env Small.authority, .invalidateNonce 7⟩ .done) (Small.deployed 100)
        = .ok w
      ∧ known Logged.switches w.log.reverse = w.switches := by
  obtain ⟨w, hw, htest⟩ := (Machine.runsTo_iff (vaultMachine .plain)
    (Small.tx ⟨Small.env Small.authority, .invalidateNonce 7⟩ .done) (Small.deployed 100)
    (fun w => decide (¬ w.entered))).mp (by decide +kernel)
  refine ⟨w, hw, (observers_agree (P := .plain) (Small.deployed_deployed 100)
    (.frame (Small.tx ⟨Small.env Small.authority, .invalidateNonce 7⟩ .done)
      fun _ => Small.tx (Small.execution (Small.mandate 7 0 0)) .done)
    (.enter (Small.execution (Small.mandate 7 0 0)) w) ?_).2 w.log.reverse
    (fun e => List.mem_reverse) (of_decide_eq_true htest)⟩
  rw [Machine.trace_frame, hw]
  exact List.mem_append_right _ (Machine.enter_mem_trace _ _ _ _ w)

/-! ## A race -/

/-- The three calls that switch something off. -/
inductive KillSwitch where
  | invalidateNonce (nonce : Uint256)
  | invalidateNoncesBelow (threshold : Uint256)
  | revokeMandate (mandateHash : Bytes32)

namespace KillSwitch

def call : KillSwitch → Call
  | invalidateNonce nonce => .invalidateNonce nonce
  | invalidateNoncesBelow threshold => .invalidateNoncesBelow threshold
  | revokeMandate mandateHash => .revokeMandate mandateHash

def run (env : Env) : KillSwitch → World → Except Error World
  | invalidateNonce nonce => Vault.invalidateNonce env nonce
  | invalidateNoncesBelow threshold => Vault.invalidateNoncesBelow env threshold
  | revokeMandate mandateHash => Vault.revokeMandate env mandateHash

/-- What it switches off for the authority. -/
def switches (a : Address) : KillSwitch → Switches
  | invalidateNonce nonce => Switches.nonce a nonce
  | invalidateNoncesBelow threshold => Switches.below a threshold
  | revokeMandate mandateHash => Switches.mandate mandateHash

end KillSwitch

/-- A kill switch that somebody presses. -/
structure Press where
  env : Env
  switch : KillSwitch

namespace Press

/-- The transaction; the three calls call nobody. -/
def tx (p : Press) : VaultScript :=
  .call ⟨p.env, p.switch.call⟩ (fun _ _ => .done) fun r =>
    match r with
    | .ok _ => .done
    | .error _ => .revert []

/-- What it switches off while `a` is the authority. -/
def switches (a : Address) (p : Press) : Switches :=
  if p.env.sender = a then p.switch.switches a else ⊥

end Press

/-- The state after a press, refused or not. -/
def World.press (w : World) (p : Press) : World :=
  match p.switch.run p.env w with
  | .ok t => t
  | .error _ => w

theorem below_le {k : Switches} {a : Address} {t : Uint256} (h : t.toNat ≤ k.2.1 a) :
    Switches.below a t ≤ k := by
  refine ⟨Set.empty_subset _, fun b => ?_, Set.empty_subset _⟩
  show Function.update (⊥ : Address → Nat) a t.toNat b ≤ k.2.1 b
  by_cases hb : b = a
  · subst hb
    rw [Function.update_self]
    exact h
  · rw [Function.update_of_ne hb]
    exact Nat.zero_le _

theorem switches_useNonce (w : World) (a : Address) (n : Uint256) :
    (w.useNonce a n).switches = w.switches ⊔ Switches.nonce a n := by
  rw [sup_nonce]
  refine Prod.ext ?_ rfl
  ext ⟨b, m⟩
  show (w.useNonce a n).nonceUsed b m = true ↔ (b, m) = (a, n) ∨ w.nonceUsed b m = true
  rw [World.nonceUsed_useNonce, Prod.mk.injEq]

section Presses

variable {env : Env} {w t : World} {switch : KillSwitch}

/-- What goes through comes from the authority, and joins. -/
theorem switches_of_run_ok (h : switch.run env w = .ok t) :
    env.sender = w.authority ∧ t.switches = w.switches ⊔ switch.switches w.authority
      ∧ t.authority = w.authority := by
  cases switch with
  | invalidateNonce n =>
      cases step_of_invalidateNonce h with
      | invalidateNonce _ _ hs => exact ⟨hs, switches_useNonce w w.authority n, rfl⟩
  | invalidateNoncesBelow n =>
      cases step_of_invalidateNoncesBelow h with
      | invalidateNoncesBelow _ _ hs hlt =>
          have hle : w.switches.2.1 w.authority ≤ n.toNat := Nat.le_of_lt hlt
          refine ⟨hs, ?_, rfl⟩
          show _ = w.switches ⊔ Switches.below w.authority n
          rw [sup_below hle]
          exact Prod.ext rfl (Prod.ext (toNat_update w.nonceThreshold w.authority n) rfl)
  | revokeMandate m =>
      cases step_of_revokeMandate h with
      | revokeMandate _ _ hs =>
          refine ⟨hs, ?_, rfl⟩
          show _ = w.switches ⊔ Switches.mandate m
          rw [sup_mandate]
          refine Prod.ext rfl (Prod.ext rfl ?_)
          ext m'
          show Function.update w.mandateRevoked m true m' = true
            ↔ m' = m ∨ w.mandateRevoked m' = true
          by_cases hm : m' = m
          · rw [hm, Function.update_self]
            simp
          · rw [Function.update_of_ne hm]
            simp [hm]

/-- What is refused to the authority is a threshold that is reached already. -/
theorem switches_le_of_run_error {e : Error} (h : switch.run env w = .error e)
    (hs : env.sender = w.authority) : switch.switches w.authority ≤ w.switches := by
  cases switch with
  | invalidateNonce n =>
      simp [KillSwitch.run, invalidateNonce, revertIf, hs, bind, Except.bind, pure,
        Except.pure] at h
  | revokeMandate m =>
      simp [KillSwitch.run, revokeMandate, revertIf, hs, bind, Except.bind, pure,
        Except.pure] at h
  | invalidateNoncesBelow n =>
      refine below_le ?_
      by_contra hlt
      have hnot : ¬ n ≤ w.nonceThreshold w.authority := hlt
      simp [KillSwitch.run, invalidateNoncesBelow, revertIf, hs, hnot, bind, Except.bind, pure,
        Except.pure] at h

/-- **A press joins what it switches off.** -/
theorem switches_press (w : World) (p : Press) :
    (w.press p).switches = w.switches ⊔ p.switches w.authority
      ∧ (w.press p).authority = w.authority := by
  rw [World.press, Press.switches]
  cases hrun : p.switch.run p.env w with
  | ok t =>
      obtain ⟨hs, hswitches, hauth⟩ := switches_of_run_ok hrun
      rw [if_pos hs]
      exact ⟨hswitches, hauth⟩
  | error e =>
      refine ⟨(sup_eq_left.mpr ?_).symm, rfl⟩
      by_cases hs : p.env.sender = w.authority
      · rw [if_pos hs]
        exact switches_le_of_run_error hrun hs
      · rw [if_neg hs]
        exact bot_le

theorem invoke_press (P : Platform) (w : World) (p : Press) :
    (vaultMachine P).invoke ⟨p.env, p.switch.call⟩ (fun _ _ => .done) w
      = (p.switch.run p.env w).map fun t => (.none, t) := by
  have hcode : dispatch P p.env p.switch.call = atomic (p.switch.run p.env) := by
    cases p.switch <;> rfl
  show (dispatch P p.env p.switch.call w).exec _ 0 = _
  rw [hcode, atomic, Code.exec_inline]

/-- Transactions that press do what the presses do; one that is refused reverts. -/
theorem run_presses (P : Platform) (presses : List Press) : ∀ w : World,
    (vaultMachine P).run (.history (presses.map Press.tx)) w
      = .ok (presses.foldl World.press w) := by
  induction presses with
  | nil => intro w; rfl
  | cons p presses ih =>
      intro w
      show (vaultMachine P).run (.frame p.tx fun _ => .history (presses.map Press.tx)) w = _
      rw [Machine.run_frame, Press.tx, Machine.run_call, invoke_press, List.foldl_cons,
        World.press]
      cases p.switch.run p.env w with
      | ok t => exact ih t
      | error e => exact ih w

end Presses

/-- **Kill switches in a race.**  Presses by anybody come through one after the other, each refused
    or not.  A mandate is off in the end exactly if it was before or a press of the authority, by
    itself, switches it off; and the state of all switches is the same however the presses are
    ordered and however often they are sent. -/
theorem presses_join (P : Platform) (w : World) (presses : List Press) :
    ∃ t, (vaultMachine P).run (.history (presses.map Press.tx)) w = .ok t
      ∧ (∀ a n m, t.switches.Blocks a n m ↔ w.switches.Blocks a n m
        ∨ ∃ p ∈ presses, p.env.sender = w.authority
          ∧ (p.switch.switches w.authority).Blocks a n m)
      ∧ ∀ presses' : List Press, (∀ p, p ∈ presses ↔ p ∈ presses') →
        ∃ t', (vaultMachine P).run (.history (presses'.map Press.tx)) w = .ok t'
          ∧ t'.switches = t.switches := by
  have hjoin : ∀ l : List Press, (l.foldl World.press w).switches
      = w.switches ⊔ known (Press.switches w.authority) l := by
    intro l
    have hstep : ∀ (s : World) (p : Press), s.authority = w.authority →
        (s.press p).switches = s.switches ⊔ p.switches w.authority := by
      intro s p hs
      rw [(switches_press s p).1, hs]
    exact view_foldl (fun s p hs => (switches_press s p).2.trans hs) hstep rfl
  have hblocks : ∀ (p : Press) a n m, (p.switches w.authority).Blocks a n m
      ↔ p.env.sender = w.authority ∧ (p.switch.switches w.authority).Blocks a n m := by
    intro p a n m
    rw [Press.switches]
    by_cases hs : p.env.sender = w.authority
    · rw [if_pos hs]
      exact (and_iff_right hs).symm
    · rw [if_neg hs]
      exact ⟨fun h => absurd h Switches.not_blocks_bot, fun h => absurd h.1 hs⟩
  refine ⟨_, run_presses P presses w, ?_, ?_⟩
  · intro a n m
    have hone : (known (Press.switches w.authority) presses).Blocks a n m
        ↔ ∃ p ∈ presses, (p.switches w.authority).Blocks a n m :=
      known_answers (p := fun k : Switches => k.Blocks a n m) Switches.not_blocks_bot
        fun k k' => Switches.blocks_sup
    rw [hjoin, Switches.blocks_sup, hone]
    simp only [hblocks]
  · intro presses' hsame
    refine ⟨_, run_presses P presses' w, ?_⟩
    rw [hjoin, hjoin, known_congr hsame]

end Vault
