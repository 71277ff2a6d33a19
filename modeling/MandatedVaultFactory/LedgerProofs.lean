import MandatedVaultFactory.ChronicleProofs
import MandatedVaultFactory.VaultStepProofs
import Mathlib.Data.Set.Insert

/-!
# The governance ledger: what the event log says

An abstract account of authority, nonces and revocations, kept from the event log alone,
and the proof that the vault's storage is that account at every moment.

* **`Ledger`** — who held each epoch, who is proposed, which nonces are spent, below
  which threshold nonces are void, which mandates are revoked.  `Ledger.replay` computes
  it from a log.
* **`Ledger.Allows`** — what may be written next, and by whom.  A log is a **`Journal`**
  if every entry was allowed by the entries before it.
* **`Tracks`** — storage and ledger agree.  While an execution is running its nonce is
  used already, although the log does not say so yet.
* **`ledgerContract`** — all of this holds along every run. -/

namespace Vault

open CallTree Chronicles Encoding

/-! ## The abstract ledger -/

/-- The authority and the mandate of an execution that an entry reports. -/
def Logged.executed (e : Logged) : Option (Address × Mandate) :=
  match e.call, e.event with
  | .execute mandate _ _ _ _, .MandateExecuted _ authority _ _ _ _ => some (authority, mandate)
  | _, _ => none

/-- The state of the vault's governance.  `holder k` is the authority of the `k`-th epoch,
    `transfers` the number of the current one. -/
structure Ledger where
  transfers : Nat
  holder : Nat → Address
  pending : Address
  spent : Set (Address × Uint256)
  executed : Set (Address × Uint256)
  threshold : Address → Uint256
  revoked : Set Bytes32

namespace Ledger

def initial (a : Address) : Ledger where
  transfers := 0
  holder := fun _ => a
  pending := 0
  spent := ∅
  executed := ∅
  threshold := fun _ => 0
  revoked := ∅

/-- The current authority. -/
def authority (L : Ledger) : Address := L.holder L.transfers

/-- The ledger after one more entry. -/
def write (L : Ledger) (e : Logged) : Ledger :=
  match e.event with
  | .AuthorityProposed _ proposed => { L with pending := proposed }
  | .AuthorityTransferred _ new =>
      { L with
        transfers := L.transfers + 1
        holder := Function.update L.holder (L.transfers + 1) new
        pending := 0 }
  | .NonceInvalidated a n => { L with spent := insert (a, n) L.spent }
  | .NoncesInvalidatedBelow a t => { L with threshold := Function.update L.threshold a t }
  | .MandateRevoked h _ => { L with revoked := insert h L.revoked }
  | .MandateExecuted .. =>
      match e.executed with
      | some (a, mandate) =>
          { L with
            spent := insert (a, mandate.nonce) L.spent
            executed := insert (a, mandate.nonce) L.executed }
      | none => L
  | .EpochReset .. => L
  | .NativeSwept .. => L

/-- The ledger a log leads to, the first authority being `a`. -/
def replay (a : Address) (log : List Logged) : Ledger := log.foldl write (initial a)

@[simp] theorem replay_nil (a : Address) : replay a [] = initial a := rfl

@[simp] theorem replay_snoc (a : Address) (log : List Logged) (e : Logged) :
    replay a (log ++ [e]) = (replay a log).write e := by
  rw [replay]
  rw [List.foldl_append]
  rfl

/-- An execution that ends now was validated under the holder of the epoch its mandate
    names, possibly an earlier epoch than the current one: the authority may have changed
    while it was running. -/
structure AllowsExecution (P : Platform) (vault : Address) (L : Ledger) (e : Logged)
    (mandateHash : Bytes32) (a : Address) (mandate : Mandate) : Prop where
  executed : e.executed = some (a, mandate)
  hash : mandateHash = hashMandate P e.chainId vault mandate
  epoch : ∃ k ≤ L.transfers, L.holder k = a ∧ mandate.authorityEpoch = BitVec.ofNat 64 k
  fresh : (a, mandate.nonce) ∉ L.executed

/-- May this entry be written now? -/
def Allows (P : Platform) (vault : Address) (L : Ledger) (e : Logged) : Prop :=
  match e.event with
  | .AuthorityProposed current proposed =>
      e.call = .proposeAuthority proposed ∧ e.sender = L.authority ∧ current = L.authority
  | .AuthorityTransferred previous new =>
      e.call = .acceptAuthority ∧ e.sender = L.pending ∧ previous = L.authority
        ∧ new = L.pending ∧ new ≠ 0
  | .EpochReset a _ _ => e.call = .resetEpoch ∧ e.sender = L.authority ∧ a = L.authority
  | .NonceInvalidated a n =>
      e.call = .invalidateNonce n ∧ e.sender = L.authority ∧ a = L.authority
  | .NoncesInvalidatedBelow a t =>
      e.call = .invalidateNoncesBelow t ∧ e.sender = L.authority ∧ a = L.authority
        ∧ L.threshold a < t
  | .MandateRevoked h a =>
      e.call = .revokeMandate h ∧ e.sender = L.authority ∧ a = L.authority
  | .NativeSwept recipient amount =>
      e.call = .sweepNative recipient amount ∧ e.sender = L.authority
  | .MandateExecuted h a executor _ _ _ =>
      executor = e.sender ∧ ∃ mandate, L.AllowsExecution P vault e h a mandate

/-- Nothing that was ever recorded is taken back. -/
structure Grows (L L' : Ledger) : Prop where
  transfers : L.transfers ≤ L'.transfers
  holder : ∀ k ≤ L.transfers, L'.holder k = L.holder k
  spent : L.spent ⊆ L'.spent
  executed : L.executed ⊆ L'.executed
  threshold : ∀ a, L.threshold a ≤ L'.threshold a
  revoked : L.revoked ⊆ L'.revoked

theorem grows_refl (L : Ledger) : L.Grows L :=
  ⟨Nat.le_refl _, fun _ _ => rfl, subset_rfl, subset_rfl, fun _ => Nat.le_refl _, subset_rfl⟩

theorem Grows.trans {L L' L'' : Ledger} (h : L.Grows L') (h' : L'.Grows L'') :
    L.Grows L'' where
  transfers := Nat.le_trans h.transfers h'.transfers
  holder k hk := (h'.holder k (Nat.le_trans hk h.transfers)).trans (h.holder k hk)
  spent := h.spent.trans h'.spent
  executed := h.executed.trans h'.executed
  threshold a := Nat.le_trans (h.threshold a) (h'.threshold a)
  revoked := h.revoked.trans h'.revoked

/-- One allowed entry takes nothing back.  One case for each kind of event. -/
theorem grows_write {P : Platform} {vault : Address} {L : Ledger} {e : Logged}
    (h : L.Allows P vault e) : L.Grows (L.write e) := by
  have hrefl := L.grows_refl
  rw [write]
  rw [Allows] at h
  cases hev : e.event with
  | AuthorityProposed current proposed => exact ⟨hrefl.1, hrefl.2, hrefl.3, hrefl.4, hrefl.5, hrefl.6⟩
  | AuthorityTransferred previous new =>
      refine ⟨Nat.le_succ _, ?_, hrefl.3, hrefl.4, hrefl.5, hrefl.6⟩
      intro k hk
      exact Function.update_of_ne (by omega) _ _
  | NonceInvalidated a n =>
      exact ⟨hrefl.1, hrefl.2, Set.subset_insert _ _, hrefl.4, hrefl.5, hrefl.6⟩
  | NoncesInvalidatedBelow a t =>
      rw [hev] at h
      refine ⟨hrefl.1, hrefl.2, hrefl.3, hrefl.4, ?_, hrefl.6⟩
      intro b
      by_cases hb : b = a
      · subst hb
        simp only [Function.update_self]
        exact Nat.le_of_lt h.2.2.2
      · simp only [Function.update_of_ne hb]
        exact Nat.le_refl _
  | MandateRevoked m a =>
      exact ⟨hrefl.1, hrefl.2, hrefl.3, hrefl.4, hrefl.5, Set.subset_insert _ _⟩
  | MandateExecuted m a x d pre post =>
      rw [hev] at h
      obtain ⟨_, mandate, hallows⟩ := h
      simp only [hallows.executed]
      exact ⟨hrefl.1, hrefl.2, Set.subset_insert _ _, Set.subset_insert _ _, hrefl.5, hrefl.6⟩
  | EpochReset a v s => exact hrefl
  | NativeSwept recipient amount => exact hrefl

/-- An entry that reports no execution leaves the executions as they are. -/
theorem executed_write {L : Ledger} {e : Logged} (h : e.executed = none) :
    (L.write e).executed = L.executed := by
  rw [write]
  cases hev : e.event with
  | MandateExecuted m a x d pre post => simp only [h]
  | _ => rfl

end Ledger

/-! ## Journals -/

open Ledger

/-- Every entry was allowed by the ledger of the entries before it. -/
abbrev Journal (P : Platform) (vault a : Address) (log : List Logged) : Prop :=
  Chronicle (fun before e => (replay a before).Allows P vault e) log

namespace Journal

variable {P : Platform} {vault a : Address} {log ext : List Logged} {e : Logged}

/-- Along a journal the ledger only grows.  Induction on the entries added. -/
theorem grows (h : Journal P vault a (log ++ ext)) :
    (replay a log).Grows (replay a (log ++ ext)) := by
  induction ext using List.reverseRecOn with
  | nil =>
      rw [List.append_nil]
      exact grows_refl _
  | append_singleton ext e ih =>
      rw [← List.append_assoc] at h ⊢
      rw [replay_snoc]
      exact (ih h.left).trans (grows_write h.last)

/-- The ledger of a prefix. -/
theorem grows_of_prefix {log' : List Logged} (h : Journal P vault a log') (hp : log <+: log') :
    (replay a log).Grows (replay a log') := by
  obtain ⟨ext, rfl⟩ := hp
  exact h.grows

/-- What one entry did is never taken back. -/
theorem grows_of_mem {e : Logged} (h : Journal P vault a log) (he : e ∈ log) :
    ∃ L : Ledger, (L.write e).Grows (replay a log) := by
  obtain ⟨before, after, rfl⟩ := List.append_of_mem he
  refine ⟨replay a before, ?_⟩
  have hsplit : before ++ e :: after = (before ++ [e]) ++ after := by simp
  rw [← replay_snoc, hsplit]
  rw [hsplit] at h
  exact h.grows

end Journal

/-- The ledger knows exactly the executions the log reports. -/
theorem mem_executed_replay (a b : Address) (n : Uint256) (log : List Logged) :
    (b, n) ∈ (replay a log).executed
      ↔ ∃ e ∈ log, ∃ mandate, e.executed = some (b, mandate) ∧ mandate.nonce = n := by
  induction log using List.reverseRecOn with
  | nil => simp [initial]
  | append_singleton log e ih =>
      rw [replay_snoc]
      cases hx : e.executed with
      | none =>
          rw [executed_write hx, ih]
          constructor
          · rintro ⟨e', he', h⟩
            exact ⟨e', List.mem_append_left _ he', h⟩
          · rintro ⟨e', he', mandate, h, hn⟩
            rcases List.mem_append.mp he' with he' | he'
            · exact ⟨e', he', mandate, h, hn⟩
            · rw [List.mem_singleton.mp he', hx] at h
              exact nomatch h
      | some x =>
          obtain ⟨c, mandate⟩ := x
          have hev : ∃ h x d pre post, e.event = .MandateExecuted h c x d pre post := by
            rw [Logged.executed] at hx
            split at hx
            · rename_i heq
              obtain ⟨rfl, _⟩ := Prod.mk.inj (Option.some.inj hx)
              exact ⟨_, _, _, _, _, heq⟩
            · exact nomatch hx
          obtain ⟨h, x, d, pre, post, hev⟩ := hev
          have happly : ((replay a log).write e).executed
              = insert (c, mandate.nonce) (replay a log).executed := by
            rw [write]
            simp only [hev, hx]
          rw [happly, Set.mem_insert_iff, ih]
          constructor
          · rintro (heq | ⟨e', he', h⟩)
            · obtain ⟨rfl, rfl⟩ := Prod.mk.inj heq
              exact ⟨e, by simp, mandate, hx, rfl⟩
            · exact ⟨e', List.mem_append_left _ he', h⟩
          · rintro ⟨e', he', mandate', h', hn⟩
            rcases List.mem_append.mp he' with he' | he'
            · exact Or.inr ⟨e', he', mandate', h', hn⟩
            · rw [List.mem_singleton.mp he', hx] at h'
              obtain ⟨rfl, rfl⟩ := Prod.mk.inj (Option.some.inj h')
              exact Or.inl (by rw [hn])

/-- An executed nonce is spent. -/
theorem executed_subset_spent (a : Address) (log : List Logged) :
    (replay a log).executed ⊆ (replay a log).spent := by
  induction log using List.reverseRecOn with
  | nil => exact subset_rfl
  | append_singleton log e ih =>
      rw [replay_snoc]
      rw [write]
      cases hev : e.event with
      | NonceInvalidated b n => exact ih.trans (Set.subset_insert _ _)
      | MandateExecuted m b x d pre post =>
          cases hx : e.executed with
          | none => exact ih
          | some y => exact Set.insert_subset_insert ih
      | _ => exact ih

/-! ## Storage and ledger -/

/-- The storage of `vault`, whose first authority was `a`, agrees with its log.  `running`
    is the authority and nonce of the execution that is running, if there is one. -/
structure Tracks (P : Platform) (vault a : Address) (w : World)
    (running : Option (Address × Uint256)) : Prop where
  at_vault : w.self = vault
  initialized : w.initialized ≠ 0
  journal : Journal P vault a w.log
  authority : w.authority = (replay a w.log).authority
  pending : w.pendingAuthority = (replay a w.log).pending
  epoch : w.authorityEpoch = BitVec.ofNat 64 (replay a w.log).transfers
  threshold : w.nonceThreshold = (replay a w.log).threshold
  revoked : ∀ h, w.mandateRevoked h = true ↔ h ∈ (replay a w.log).revoked
  used : ∀ b n, w.nonceUsed b n = true
    ↔ (b, n) ∈ (replay a w.log).spent ∨ running = some (b, n)

/-- An execution under authority `b` of epoch `k` with nonce `n` is running, and no other
    one with that nonce has ended. -/
structure Running (P : Platform) (vault a b : Address) (n : Uint256) (k : Nat) (w : World) :
    Prop where
  tracks : Tracks P vault a w (some (b, n))
  fresh : (b, n) ∉ (replay a w.log).executed
  epoch : k ≤ (replay a w.log).transfers
  holder : (replay a w.log).holder k = b

/-- `w'` is a later state: the log is longer, and every kill switch still on. -/
structure Later (w w' : World) : Prop where
  log : w.log <+: w'.log
  used : ∀ a n, w.nonceUsed a n = true → w'.nonceUsed a n = true
  threshold : ∀ a, w.nonceThreshold a ≤ w'.nonceThreshold a
  revoked : ∀ h, w.mandateRevoked h = true → w'.mandateRevoked h = true

theorem later_refl (w : World) : Later w w :=
  ⟨List.prefix_refl _, fun _ _ => id, fun _ => Nat.le_refl _, fun _ => id⟩

theorem Later.trans {w w' w'' : World} (h : Later w w') (h' : Later w' w'') :
    Later w w'' where
  log := h.log.trans h'.log
  used b n hu := h'.used b n (h.used b n hu)
  threshold b := Nat.le_trans (h.threshold b) (h'.threshold b)
  revoked m hm := h'.revoked m (h.revoked m hm)

/-- An entry the ledger allows is written, and the storage follows the ledger. -/
theorem Tracks.record {P : Platform} {vault a : Address} {w w' : World} {e : Logged}
    {running running' : Option (Address × Uint256)} (h : Tracks P vault a w running)
    (hlog : w'.log = w.log ++ [e]) (hallow : (replay a w.log).Allows P vault e)
    (hself : w'.self = w.self) (hinit : w'.initialized = w.initialized)
    (hauth : w'.authority = ((replay a w.log).write e).authority)
    (hpending : w'.pendingAuthority = ((replay a w.log).write e).pending)
    (hepoch : w'.authorityEpoch = BitVec.ofNat 64 ((replay a w.log).write e).transfers)
    (hthreshold : w'.nonceThreshold = ((replay a w.log).write e).threshold)
    (hrevoked : ∀ m, w'.mandateRevoked m = true ↔ m ∈ ((replay a w.log).write e).revoked)
    (hused : ∀ b n, w'.nonceUsed b n = true
      ↔ (b, n) ∈ ((replay a w.log).write e).spent ∨ running' = some (b, n)) :
    Tracks P vault a w' running' := by
  refine ⟨hself.trans h.at_vault, hinit ▸ h.initialized, ?_, ?_, ?_, ?_, ?_, ?_, ?_⟩
    <;> rw [hlog]
  · exact h.journal.snoc hallow
  all_goals rw [replay_snoc]
  · exact hauth
  · exact hpending
  · exact hepoch
  · exact hthreshold
  · exact hrevoked
  · exact hused

/-- What a step outside `execute` does: it writes one entry that the ledger allows and
    that is no execution, and leads the storage to where the ledger is then. -/
theorem Tracks.step {P : Platform} {vault a : Address} {w w' : World} {env : Env}
    {call : Call} {running : Option (Address × Uint256)} (h : Tracks P vault a w running)
    (hstep : Step env call w w') :
    Tracks P vault a w' running ∧ Later w w' ∧ w'.status = w.status
      ∧ ∃ e, w'.log = w.log ++ [e] ∧ e.executed = none
        ∧ (replay a w.log).Allows P vault e := by
  have hlog : ∀ e : Logged, w.log <+: w.log ++ [e] := fun e => List.prefix_append _ _
  have hle : ∀ b, w.nonceThreshold b ≤ w.nonceThreshold b := fun b => Nat.le_refl _
  cases hstep with
  | initializeVault _ asset name symbol b hinit => exact absurd hinit h.initialized
  | proposeAuthority _ new hs =>
      have hallow : (replay a w.log).Allows P vault ⟨env.sender, env.chainId,
          .proposeAuthority new, .AuthorityProposed w.authority new⟩ :=
        ⟨rfl, hs.trans h.authority, h.authority⟩
      refine ⟨?_, ⟨hlog _, fun _ _ => id, hle, fun _ => id⟩, rfl, _, rfl, rfl, hallow⟩
      exact h.record rfl hallow rfl rfl h.authority rfl h.epoch h.threshold h.revoked h.used
  | acceptAuthority _ hs =>
      have hallow : (replay a w.log).Allows P vault ⟨env.sender, env.chainId,
          .acceptAuthority, .AuthorityTransferred w.authority w.pendingAuthority⟩ :=
        ⟨rfl, hs.trans h.pending, h.authority, h.pending, hs ▸ env.sender_ne_zero⟩
      refine ⟨?_, ⟨hlog _, fun _ _ => id, hle, fun _ => id⟩, rfl, _, rfl, rfl, hallow⟩
      refine h.record rfl hallow rfl rfl ?_ rfl ?_ h.threshold h.revoked h.used
      · exact (Function.update_self ((replay a w.log).transfers + 1) w.pendingAuthority
          (replay a w.log).holder).symm
      · -- the vault counts in 64 bits, the ledger without bound
        show w.authorityEpoch + 1 = BitVec.ofNat 64 ((replay a w.log).transfers + 1)
        rw [h.epoch, BitVec.ofNat_add]
        rfl
  | resetEpoch _ hs =>
      have hallow : (replay a w.log).Allows P vault ⟨env.sender, env.chainId, .resetEpoch,
          .EpochReset w.authority (totalAssets w) (env.timestamp.setWidth 48)⟩ :=
        ⟨rfl, hs.trans h.authority, h.authority⟩
      refine ⟨?_, ⟨hlog _, fun _ _ => id, hle, fun _ => id⟩, rfl, _, rfl, rfl, hallow⟩
      exact h.record rfl hallow rfl rfl h.authority h.pending h.epoch h.threshold h.revoked
        h.used
  | invalidateNonce _ n hs =>
      have hallow : (replay a w.log).Allows P vault ⟨env.sender, env.chainId,
          .invalidateNonce n, .NonceInvalidated w.authority n⟩ :=
        ⟨rfl, hs.trans h.authority, h.authority⟩
      refine ⟨?_, ⟨hlog _, ?_, hle, fun _ => id⟩, rfl, _, rfl, rfl, hallow⟩
      · refine h.record rfl hallow rfl rfl h.authority h.pending h.epoch h.threshold
          h.revoked ?_
        intro b m
        show (w.useNonce w.authority n).nonceUsed b m = true
          ↔ (b, m) ∈ insert (w.authority, n) (replay a w.log).spent ∨ running = some (b, m)
        -- the bitmap and the set of spent nonces gain the same pair
        rw [World.nonceUsed_useNonce, h.used b m, Set.mem_insert_iff, Prod.mk.injEq, or_assoc]
      · intro b m hu
        exact (World.nonceUsed_useNonce w w.authority b n m).mpr (Or.inr hu)
  | invalidateNoncesBelow _ t hs hlt =>
      have hallow : (replay a w.log).Allows P vault ⟨env.sender, env.chainId,
          .invalidateNoncesBelow t, .NoncesInvalidatedBelow w.authority t⟩ :=
        ⟨rfl, hs.trans h.authority, h.authority, h.threshold ▸ hlt⟩
      refine ⟨?_, ⟨hlog _, fun _ _ => id, ?_, fun _ => id⟩, rfl, _, rfl, rfl, hallow⟩
      · refine h.record rfl hallow rfl rfl h.authority h.pending h.epoch ?_ h.revoked h.used
        show Function.update w.nonceThreshold w.authority t
          = Function.update (replay a w.log).threshold w.authority t
        rw [h.threshold]
      · intro b
        show w.nonceThreshold b ≤ Function.update w.nonceThreshold w.authority t b
        -- only the authority's own threshold moves, and only upwards
        by_cases hb : b = w.authority
        · rw [hb, Function.update_self]
          exact Nat.le_of_lt hlt
        · rw [Function.update_of_ne hb]
          exact hle b
  | revokeMandate _ m hs =>
      have hallow : (replay a w.log).Allows P vault ⟨env.sender, env.chainId,
          .revokeMandate m, .MandateRevoked m w.authority⟩ :=
        ⟨rfl, hs.trans h.authority, h.authority⟩
      have hrev : ∀ m', Function.update w.mandateRevoked m true m' = true
          ↔ m' = m ∨ w.mandateRevoked m' = true := by
        intro m'
        by_cases hm : m' = m
        · rw [hm, Function.update_self]
          simp
        · rw [Function.update_of_ne hm]
          simp [hm]
      refine ⟨?_, ⟨hlog _, fun _ _ => id, hle, ?_⟩, rfl, _, rfl, rfl, hallow⟩
      · refine h.record rfl hallow rfl rfl h.authority h.pending h.epoch h.threshold ?_ h.used
        intro m'
        show Function.update w.mandateRevoked m true m' = true
          ↔ m' ∈ insert m (replay a w.log).revoked
        rw [hrev, h.revoked m', Set.mem_insert_iff]
      · intro m' hm
        exact (hrev m').mpr (Or.inr hm)
  | sweepNative _ recipient amount hs =>
      -- a sweep is logged, and changes nothing that the ledger keeps
      have hallow : (replay a w.log).Allows P vault ⟨env.sender, env.chainId,
          .sweepNative recipient amount, .NativeSwept recipient amount⟩ :=
        ⟨rfl, hs.trans h.authority⟩
      refine ⟨?_, ⟨hlog _, fun _ _ => id, hle, fun _ => id⟩, rfl, _, rfl, rfl, hallow⟩
      exact h.record rfl hallow rfl rfl h.authority h.pending h.epoch h.threshold h.revoked
        h.used

/-- Shares, guard, epoch and balances are not the ledger's business. -/
theorem Tracks.frame {P : Platform} {vault a : Address} {w : World}
    {running : Option (Address × Uint256)} (h : Tracks P vault a w running)
    (shares : ShareLedger) (status : Uint256) (epochStart : BitVec 48)
    (epochAssets assetBalance nativeBalance : Uint256) :
    Tracks P vault a
      { w with
        shares := shares, status := status, epochStart := epochStart,
        epochAssets := epochAssets, assetBalance := assetBalance,
        nativeBalance := nativeBalance } running :=
  ⟨h.at_vault, h.initialized, h.journal, h.authority, h.pending, h.epoch, h.threshold,
    h.revoked, h.used⟩

/-- Using up a nonce starts an execution with it. -/
theorem Tracks.useNonce {P : Platform} {vault a : Address} {w : World}
    (h : Tracks P vault a w none) (b : Address) (n : Uint256) :
    Tracks P vault a (w.useNonce b n) (some (b, n)) where
  at_vault := h.at_vault
  initialized := h.initialized
  journal := h.journal
  authority := h.authority
  pending := h.pending
  epoch := h.epoch
  threshold := h.threshold
  revoked := h.revoked
  used c m := by
    show (w.useNonce b n).nonceUsed c m = true
      ↔ (c, m) ∈ (replay a w.log).spent ∨ some (b, n) = some (c, m)
    rw [World.nonceUsed_useNonce, h.used c m]
    constructor
    · rintro (⟨rfl, rfl⟩ | hs | hs)
      · exact Or.inr rfl
      · exact Or.inl hs
      · exact nomatch hs
    · rintro (hs | hs)
      · exact Or.inr (Or.inl hs)
      · obtain ⟨rfl, rfl⟩ := Prod.mk.inj (Option.some.inj hs)
        exact Or.inl ⟨rfl, rfl⟩

theorem later_useNonce (w : World) (b : Address) (n : Uint256) : Later w (w.useNonce b n) :=
  ⟨List.prefix_refl _, fun _ _ hu => (World.nonceUsed_useNonce ..).mpr (Or.inr hu),
    fun _ => Nat.le_refl _, fun _ => id⟩

theorem Running.frame {P : Platform} {vault a b : Address} {n : Uint256} {k : Nat}
    {w : World} (h : Running P vault a b n k w)
    (shares : ShareLedger) (status : Uint256) (epochStart : BitVec 48)
    (epochAssets assetBalance nativeBalance : Uint256) :
    Running P vault a b n k
      { w with
        shares := shares, status := status, epochStart := epochStart,
        epochAssets := epochAssets, assetBalance := assetBalance,
        nativeBalance := nativeBalance } :=
  ⟨h.tracks.frame shares status epochStart epochAssets assetBalance nativeBalance, h.fresh,
    h.epoch, h.holder⟩

/-- A step outside `execute` does not disturb a running execution. -/
theorem Running.step {P : Platform} {vault a b : Address} {n : Uint256} {k : Nat}
    {w w' : World} {env : Env} {call : Call} (h : Running P vault a b n k w)
    (hstep : Step env call w w') : Running P vault a b n k w' := by
  obtain ⟨htracks, _, _, e, hlog, hx, hallow⟩ := h.tracks.step hstep
  have hgrows := grows_write hallow
  refine ⟨htracks, ?_, ?_, ?_⟩ <;> rw [hlog, replay_snoc]
  · rw [executed_write hx]
    exact h.fresh
  · exact Nat.le_trans h.epoch hgrows.transfers
  · rw [hgrows.holder k h.epoch, h.holder]

/-- The end of the running execution is an entry the ledger allows, and storage and
    ledger agree again without it. -/
theorem Running.ended {P : Platform} {vault a : Address} {mandate : Mandate} {k : Nat}
    {w : World} {env : Env} {v : Validated}
    (h : Running P vault a v.authority mandate.nonce k w) (actions : List Action)
    (signature : Bytes) (adapterProofs : List (List Bytes32)) (extensions : Bytes)
    (preAssets mark : Uint256) (hepoch : mandate.authorityEpoch = BitVec.ofNat 64 k)
    (hhash : v.mandateHash = hashMandate P env.chainId vault mandate) :
    Tracks P vault a (w.ended env
      (.execute mandate actions signature adapterProofs extensions) v preAssets mark) none := by
  refine (h.tracks.frame w.shares 1 w.epochStart mark w.assetBalance w.nativeBalance).record
    rfl ⟨rfl, mandate, rfl, hhash, ⟨k, h.epoch, h.holder, hepoch⟩, h.fresh⟩ rfl rfl
    h.tracks.authority h.tracks.pending h.tracks.epoch h.tracks.threshold h.tracks.revoked ?_
  intro b n
  show w.nonceUsed b n = true
    ↔ (b, n) ∈ insert (v.authority, mandate.nonce) (replay a w.log).spent ∨ none = some (b, n)
  rw [h.tracks.used b n, Set.mem_insert_iff]
  constructor
  · rintro (hs | hs)
    · exact Or.inl (Or.inr hs)
    · exact Or.inl (Or.inl (Option.some.inj hs).symm)
  · rintro ((hs | hs) | hs)
    · exact Or.inr (congrArg some hs.symm)
    · exact Or.inl hs
    · exact nomatch hs

/-! ## Along every run -/

/-- **Storage and ledger agree along every run**, whatever adapters call back.  While an
    execution is running it stays the only one, and the states the outside gets to see
    are ordered by `Later`. -/
def ledgerContract (P : Platform) (vault a : Address) :
    VaultContract P (fun _ _ => True) where
  inv w := ∃ running, Tracks P vault a w running ∧ (¬ w.entered → running = none)
  rel w w' := (w.entered ↔ w'.entered)
    ∧ ∀ b n k, w.entered → Running P vault a b n k w → Running P vault a b n k w'
  mono := Later
  rel_refl w := ⟨Iff.rfl, fun _ _ _ _ => id⟩
  rel_trans h h' :=
    ⟨h.1.trans h'.1, fun b n k he hr => h'.2 b n k (h.1.mp he) (h.2 b n k he hr)⟩
  mono_refl := later_refl
  mono_trans := Later.trans
  balances := by
    rintro w assets native ⟨running, h, hidle⟩
    exact ⟨⟨running, h.frame w.shares w.status w.epochStart w.epochAssets assets native, hidle⟩,
      ⟨Iff.rfl, fun b n k _ hr =>
        hr.frame w.shares w.status w.epochStart w.epochAssets assets native⟩,
      ⟨List.prefix_refl _, fun _ _ => id, fun _ => Nat.le_refl _, fun _ => id⟩⟩
  shares := by
    rintro _ w l _ _ ⟨running, h, hidle⟩
    exact ⟨⟨running,
        h.frame l w.status w.epochStart w.epochAssets w.assetBalance w.nativeBalance, hidle⟩,
      ⟨Iff.rfl, fun b n k _ hr =>
        hr.frame l w.status w.epochStart w.epochAssets w.assetBalance w.nativeBalance⟩,
      ⟨List.prefix_refl _, fun _ _ => id, fun _ => Nat.le_refl _, fun _ => id⟩⟩
  erc20 := by
    rintro w l _ ⟨running, h, hidle⟩
    exact ⟨⟨running,
        h.frame l w.status w.epochStart w.epochAssets w.assetBalance w.nativeBalance, hidle⟩,
      ⟨Iff.rfl, fun b n k _ hr =>
        hr.frame l w.status w.epochStart w.epochAssets w.assetBalance w.nativeBalance⟩,
      ⟨List.prefix_refl _, fun _ _ => id, fun _ => Nat.le_refl _, fun _ => id⟩⟩
  step := by
    rintro env call w w' ⟨running, h, hidle⟩ _ hstep
    obtain ⟨htracks, hlater, hstatus, _⟩ := h.step hstep
    have hent : w.entered ↔ w'.entered := by rw [World.entered, World.entered, hstatus]
    exact ⟨⟨running, htracks, fun he => hidle (fun he' => he (hent.mp he'))⟩,
      ⟨hent, fun b n k _ hr => hr.step hstep⟩, hlater⟩
  execution := by
    rintro env mandate actions signature adapterProofs extensions w v ⟨running, h, hidle⟩ _ hent
      hvalid
    obtain rfl := hidle hent
    refine ⟨fun t => t.entered
      ∧ Running P vault a v.authority mandate.nonce (replay a w.log).transfers t,
      ⟨?_, ?_⟩, ?_, ?_, ?_, ?_⟩
    · rw [World.begun_eq]
    · -- the nonce was not used, hence not executed
      have hused : w.nonceUsed w.authority mandate.nonce = false := by
        rw [← hvalid.authority_eq]
        exact hvalid.unused
      have hfresh : (w.authority, mandate.nonce) ∉ (replay a w.log).executed := by
        intro hx
        have := (h.used _ _).mpr (Or.inl (executed_subset_spent a w.log hx))
        rw [hused] at this
        exact nomatch this
      rw [World.begun_eq, hvalid.authority_eq]
      exact ⟨(h.useNonce w.authority mandate.nonce).frame w.shares 2 _ _ w.assetBalance
        w.nativeBalance, hfresh, Nat.le_refl _, h.authority.symm⟩
    · rw [World.begun_eq]
      have := later_useNonce w w.authority mandate.nonce
      exact ⟨this.log, this.used, this.threshold, this.revoked⟩
    · rintro t ⟨he, hr⟩
      exact ⟨_, hr.tracks, fun hne => absurd he hne⟩
    · rintro t t' ⟨he, hr⟩ _ hrel _
      exact ⟨hrel.1.mp he, hrel.2 _ _ _ he hr⟩
    · rintro t mark ⟨he, hr⟩ _
      have hepoch : mandate.authorityEpoch = BitVec.ofNat 64 (replay a w.log).transfers := by
        rw [hvalid.fields.epoch, h.epoch]
      have hhash : v.mandateHash = hashMandate P env.chainId vault mandate := by
        rw [hvalid.mandateHash_eq, h.at_vault]
      refine ⟨⟨none, hr.ended actions signature adapterProofs extensions _ mark hepoch hhash,
        fun _ => rfl⟩, ⟨?_, fun _ _ _ hw => absurd hw hent⟩, ?_⟩
      · exact ⟨fun hw => absurd hw hent, fun hw => absurd hw (not_entered_ended _ _ _ _ _ _)⟩
      · exact ⟨List.prefix_append _ _, fun _ _ => id, fun _ => Nat.le_refl _, fun _ => id⟩

/-- A new vault and an empty log agree. -/
theorem Deployed.tracks {vault a : Address} {w : World} (P : Platform)
    (h : Deployed vault a w) : Tracks P vault a w none := by
  obtain ⟨_, asset, name, symbol, assets, native, rfl⟩ := h.eq
  have hone : (1 : BitVec 64) ≠ 0 := by decide
  exact ⟨rfl, hone, .nil, rfl, rfl, rfl, rfl, by simp [World.fresh, initial],
    by simp [World.fresh, initial]⟩

/-- Everything a run of a new vault upholds. -/
theorem Deployed.upheld {vault a : Address} {w : World} (P : Platform)
    (h : Deployed vault a w) (sc : VaultScript) :
    (ledgerContract P vault a).toContract.Upheld sc w :=
  Contract.sound _ sc w ⟨none, h.tracks P, fun _ => rfl⟩ (fun _ _ _ => trivial)

end Vault
