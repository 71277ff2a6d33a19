import MandatedVaultFactory.ChronicleProofs
import MandatedVaultFactory.VaultStepProofs

/-!
# The epoch's high-water mark

The stored mark `_epochAssets` as a fold over the event log.

* **`markOf`** — the mark a log leads to: set by a reset, raised by executions, started by
  the first execution if there was no reset.  `markOf_of_reset` and `markOf_of_no_reset`
  spell it out as a maximum.
* **`Marked`** — storage holds that mark.  While the execution that opens the first epoch
  is running, the mark is its snapshot, which the log does not know yet.
* **`markContract`** — this holds along every run with sensible block timestamps.
* **`mark_of_handover`** — inside the first execution of all, the stored mark is the
  snapshot that it took. -/

namespace Vault

open CallTree Chronicles Encoding

/-! ## The mark of a log -/

/-- Does the entry report a reset of the epoch? -/
def Logged.isReset (e : Logged) : Bool :=
  match e.event with
  | .EpochReset _ _ _ => true
  | _ => false

/-- The assets before and after an execution that an entry reports. -/
def Logged.assets (e : Logged) : Option (Nat × Nat) :=
  match e.event with
  | .MandateExecuted _ _ _ _ preAssets postAssets => some (preAssets.toNat, postAssets.toNat)
  | _ => none

/-- The mark after one more entry. -/
def markStep (mark : Option Nat) (e : Logged) : Option Nat :=
  match e.event with
  | .EpochReset _ assets _ => some assets.toNat
  | .MandateExecuted _ _ _ _ preAssets postAssets =>
      some (max (mark.getD preAssets.toNat) postAssets.toNat)
  | _ => mark

/-- The mark a log leads to, `none` before the first epoch. -/
def markOf (log : List Logged) : Option Nat := log.foldl markStep none

@[simp] theorem markOf_snoc (log : List Logged) (e : Logged) :
    markOf (log ++ [e]) = markStep (markOf log) e := by
  rw [markOf, List.foldl_append]
  rfl

/-- The assets before and after each execution that a log reports, in order. -/
def executions (log : List Logged) : List (Nat × Nat) := log.filterMap Logged.assets

section Step

variable {e : Logged} {mark : Option Nat}

/-- An entry that is neither a reset nor an execution leaves the mark. -/
theorem markStep_of_quiet (hr : e.isReset = false) (hx : e.assets = none) :
    markStep mark e = mark := by
  rw [Logged.isReset] at hr
  rw [Logged.assets] at hx
  rw [markStep]
  cases hev : e.event with
  | EpochReset a v s => rw [hev] at hr; exact nomatch hr
  | MandateExecuted m a x d pre post => rw [hev] at hx; exact nomatch hx
  | _ => rfl

theorem markStep_of_assets {pre post : Nat} (hx : e.assets = some (pre, post)) :
    markStep mark e = some (max (mark.getD pre) post) := by
  rw [Logged.assets] at hx
  rw [markStep]
  cases hev : e.event with
  | MandateExecuted m a x d pre' post' =>
      rw [hev] at hx
      obtain ⟨rfl, rfl⟩ := Prod.mk.inj (Option.some.inj hx)
      rfl
  | _ => rw [hev] at hx; exact nomatch hx

end Step

/-- Without a reset the executions only raise a mark.  Induction on the entries. -/
theorem foldl_markStep_of_some (l : List Logged) (hr : ∀ e ∈ l, e.isReset = false) (m : Nat) :
    l.foldl markStep (some m) = some (((executions l).map Prod.snd).foldl max m) := by
  induction l generalizing m with
  | nil => rfl
  | cons e l ih =>
      have hl := fun m => ih (fun x hx => hr x (List.mem_cons_of_mem _ hx)) m
      rw [List.foldl_cons, executions, List.filterMap_cons]
      cases hx : e.assets with
      | none =>
          rw [markStep_of_quiet (hr e (List.mem_cons_self ..)) hx]
          exact hl m
      | some x =>
          obtain ⟨pre, post⟩ := x
          rw [markStep_of_assets hx]
          exact hl (max m post)

/-- **After a reset** the mark is the largest of the value at the reset and the assets after
    each execution since. -/
theorem markOf_of_reset (before since : List Logged) {e : Logged} {a : Address}
    {v : Uint256} {s : BitVec 48} (hev : e.event = .EpochReset a v s)
    (hr : ∀ x ∈ since, x.isReset = false) :
    markOf (before ++ e :: since)
      = some (((executions since).map Prod.snd).foldl max v.toNat) := by
  rw [markOf, List.foldl_append, List.foldl_cons]
  have hmark : markStep (before.foldl markStep none) e = some v.toNat := by
    rw [markStep, hev]
  rw [hmark]
  exact foldl_markStep_of_some since hr v.toNat

/-- **Without a reset** it is the largest of the assets before the first execution and the
    assets after each. -/
theorem markOf_of_no_reset (log : List Logged) (hr : ∀ x ∈ log, x.isReset = false) :
    markOf log = match executions log with
      | [] => none
      | (pre, post) :: rest => some ((post :: rest.map Prod.snd).foldl max pre) := by
  induction log with
  | nil => rfl
  | cons e l ih =>
      have hl := fun x hx => hr x (List.mem_cons_of_mem _ hx)
      rw [markOf, List.foldl_cons, executions, List.filterMap_cons]
      cases hx : e.assets with
      | none =>
          rw [markStep_of_quiet (hr e (List.mem_cons_self ..)) hx]
          exact ih hl
      | some x =>
          obtain ⟨pre, post⟩ := x
          rw [markStep_of_assets hx]
          exact foldl_markStep_of_some l hl (max pre post)

/-- There is a mark as soon as there has been a reset or an execution. -/
theorem markOf_eq_none (log : List Logged) :
    markOf log = none ↔ ∀ e ∈ log, e.isReset = false ∧ e.assets = none := by
  induction log using List.reverseRecOn with
  | nil => simp [markOf]
  | append_singleton log e ih =>
      rw [markOf_snoc]
      have hstep : markStep (markOf log) e = none
          ↔ markOf log = none ∧ e.isReset = false ∧ e.assets = none := by
        rw [markStep, Logged.isReset, Logged.assets]
        cases e.event <;> simp
      rw [hstep, ih]
      simp only [List.mem_append, List.mem_singleton]
      constructor
      · rintro ⟨hlog, he⟩ x (hx | rfl)
        · exact hlog x hx
        · exact he
      · intro h
        exact ⟨fun x hx => h x (Or.inl hx), h e (Or.inr rfl)⟩

theorem le_foldl_max (l : List Nat) (m : Nat) : m ≤ l.foldl max m := by
  induction l generalizing m with
  | nil => exact Nat.le_refl m
  | cons x l ih => exact Nat.le_trans (Nat.le_max_left m x) (ih (max m x))

/-! ## What executions have to respect -/

/-- An execution ends within its limit below the mark. -/
def RespectsMark (before : List Logged) (e : Logged) : Prop :=
  ∀ pre post, e.assets = some (pre, post) →
    ∃ mandate actions signature adapterProofs extensions,
      e.call = .execute mandate actions signature adapterProofs extensions
      ∧ mandate.maxCumulativeDrawdownBps.toNat ≤ 10000
      ∧ DrawdownLib.Within ((markOf before).getD pre) post
        mandate.maxCumulativeDrawdownBps.toNat

/-- A loss within `bps` of a reference leaves at least the rest of anything below it. -/
theorem within_mono {reference lower post bps : Nat}
    (h : DrawdownLib.Within reference post bps) (hle : lower ≤ reference) :
    lower * (10000 - bps) ≤ post * 10000 := by
  have hscale : reference * (10000 - bps) ≤ post * 10000 := by
    rcases h with h | h
    · exact Nat.mul_le_mul h (Nat.sub_le _ _)
    · rw [Nat.mul_sub]
      rw [Nat.sub_mul] at h
      omega
  exact Nat.le_trans (Nat.mul_le_mul_right _ hle) hscale

/-- **Losses add up within an epoch.**  An execution keeps within its limit of the assets
    after every earlier one, unless the epoch was reset in between. -/
theorem post_of_earlier {before between after : List Logged} {e' e : Logged}
    {pre' post' pre post : Nat} {mandate : Mandate} {actions : List Action}
    {signature : Bytes} {adapterProofs : List (List Bytes32)} {extensions : Bytes}
    (h : Chronicle RespectsMark (before ++ e' :: (between ++ e :: after)))
    (hx' : e'.assets = some (pre', post')) (hx : e.assets = some (pre, post))
    (hcall : e.call = .execute mandate actions signature adapterProofs extensions)
    (hr : ∀ x ∈ between, x.isReset = false) :
    post' * (10000 - mandate.maxCumulativeDrawdownBps.toNat) ≤ post * 10000 := by
  obtain ⟨mandate', _, _, _, _, hcall', _, hwithin⟩ :=
    h (before ++ e' :: between) e after (by simp) pre post hx
  obtain ⟨rfl, _⟩ : mandate = mandate' ∧ _ := by
    simpa using (hcall.symm.trans hcall')
  refine within_mono hwithin ?_
  have hmark : markOf (before ++ e' :: between)
      = some (((executions between).map Prod.snd).foldl max
          (max ((markOf before).getD pre') post')) := by
    rw [markOf, List.foldl_append, List.foldl_cons, markStep_of_assets hx']
    exact foldl_markStep_of_some between hr _
  rw [hmark]
  exact Nat.le_trans (Nat.le_max_right _ _) (le_foldl_max _ _)

/-! ## Storage and mark -/

/-- Storage holds the mark of the log.  `opened` is the snapshot of the running execution,
    if there is one. -/
structure Marked (w : World) (opened : Option Nat) : Prop where
  start : w.epochStart = 0 ↔ (markOf w.log).or opened = none
  mark : ∀ m, (markOf w.log).or opened = some m → w.epochAssets.toNat = m
  log : Chronicle RespectsMark w.log

/-- `w'` is a later state: unless the epoch was reset in between, it is still the same
    epoch, with a mark at least as high. -/
def Rises (w w' : World) : Prop :=
  ∃ later, w'.log = w.log ++ later
    ∧ ((∀ e ∈ later, e.isReset = false) → w.epochStart ≠ 0 →
      w'.epochStart = w.epochStart ∧ w.epochAssets ≤ w'.epochAssets)

theorem rises_refl (w : World) : Rises w w :=
  ⟨[], by simp, fun _ _ => ⟨rfl, Nat.le_refl _⟩⟩

theorem Rises.trans {w w' w'' : World} (h : Rises w w') (h' : Rises w' w'') :
    Rises w w'' := by
  obtain ⟨l, hl, hrise⟩ := h
  obtain ⟨l', hl', hrise'⟩ := h'
  refine ⟨l ++ l', by rw [hl', hl, List.append_assoc], ?_⟩
  intro hr h0
  obtain ⟨hs, hle⟩ := hrise (fun e he => hr e (List.mem_append_left _ he)) h0
  obtain ⟨hs', hle'⟩ := hrise' (fun e he => hr e (List.mem_append_right _ he)) (hs ▸ h0)
  exact ⟨hs'.trans hs, Nat.le_trans hle hle'⟩

/-- A block timestamp that `uint48` can hold, and not the sentinel. -/
def SensibleTime (env : Env) : Prop := 0 < env.timestamp.toNat ∧ env.timestamp.toNat < 2 ^ 48

instance (env : Env) : Decidable (SensibleTime env) :=
  inferInstanceAs (Decidable (_ ∧ _))

theorem SensibleTime.setWidth_ne_zero {env : Env} (h : SensibleTime env) :
    (env.timestamp.setWidth 48 : BitVec 48) ≠ 0 := by
  intro h0
  have := congrArg BitVec.toNat h0
  rw [BitVec.toNat_setWidth, Nat.mod_eq_of_lt h.2] at this
  have hpos := h.1
  simp at this
  omega

/-- What a step outside `execute` does to the epoch: nothing, and at most one entry that
    is neither a reset nor an execution; or it is a reset. -/
theorem Step.epoch {w w' : World} {env : Env} {call : Call} (hstep : Step env call w w') :
    w'.status = w.status
      ∧ ((w'.epochStart = w.epochStart ∧ w'.epochAssets = w.epochAssets
          ∧ ∃ later, w'.log = w.log ++ later ∧ (∀ e ∈ later, e.isReset = false ∧ e.assets = none))
        ∨ (call = .resetEpoch ∧ w'.epochStart = env.timestamp.setWidth 48
          ∧ w'.epochAssets = totalAssets w
          ∧ ∃ e, w'.log = w.log ++ [e]
            ∧ e.event = .EpochReset w.authority (totalAssets w) (env.timestamp.setWidth 48))) := by
  cases hstep with
  | initializeVault _ asset name symbol b hinit =>
      exact ⟨rfl, Or.inl ⟨rfl, rfl, [], by simp, by simp⟩⟩
  | resetEpoch _ hs => exact ⟨rfl, Or.inr ⟨rfl, rfl, rfl, _, rfl, rfl⟩⟩
  | _ =>
      refine ⟨rfl, Or.inl ⟨rfl, rfl, [_], rfl, ?_⟩⟩
      intro e he
      rw [List.mem_singleton.mp he]
      exact ⟨rfl, rfl⟩

/-- Entries that are neither resets nor executions leave the mark. -/
theorem markOf_append_quiet (log later : List Logged)
    (hq : ∀ e ∈ later, e.isReset = false ∧ e.assets = none) :
    markOf (log ++ later) = markOf log := by
  induction later using List.reverseRecOn with
  | nil => rw [List.append_nil]
  | append_singleton later e ih =>
      obtain ⟨hr, hx⟩ := hq e (by simp)
      rw [← List.append_assoc, markOf_snoc, markStep_of_quiet hr hx]
      exact ih fun x hx => hq x (List.mem_append_left _ hx)

theorem respects_append_quiet {log later : List Logged} (h : Chronicle RespectsMark log)
    (hq : ∀ e ∈ later, e.isReset = false ∧ e.assets = none) :
    Chronicle RespectsMark (log ++ later) := by
  induction later using List.reverseRecOn with
  | nil => rwa [List.append_nil]
  | append_singleton later e ih =>
      obtain ⟨_, hx⟩ := hq e (by simp)
      rw [← List.append_assoc]
      refine (ih fun x hx => hq x (List.mem_append_left _ hx)).snoc ?_
      exact fun pre post hsome => nomatch hx.symm.trans hsome

/-- A step outside `execute` keeps storage and mark together. -/
theorem Marked.step {w w' : World} {opened : Option Nat} {env : Env} {call : Call}
    (h : Marked w opened) (htime : SensibleTime env) (hstep : Step env call w w') :
    Marked w' opened ∧ Rises w w' := by
  obtain ⟨_, ⟨hstart, hassets, later, hlog, hq⟩ | ⟨_, hstart, hassets, e, hlog, hev⟩⟩ :=
    hstep.epoch
  · refine ⟨⟨?_, ?_, ?_⟩, later, hlog, fun _ _ => ⟨hstart, hassets ▸ Nat.le_refl _⟩⟩
      <;> rw [hlog]
    · rw [markOf_append_quiet _ _ hq, hstart]
      exact h.start
    · rw [markOf_append_quiet _ _ hq, hassets]
      exact h.mark
    · exact respects_append_quiet h.log hq
  · have hmark : markOf w'.log = some (totalAssets w).toNat := by
      rw [hlog, markOf_snoc, markStep, hev]
    refine ⟨⟨?_, ?_, ?_⟩, [e], hlog, ?_⟩
    · rw [hmark, hstart]
      exact ⟨fun h0 => absurd h0 htime.setWidth_ne_zero, fun hnone => nomatch hnone⟩
    · rw [hmark, hassets]
      intro m hm
      exact Option.some.inj hm
    · rw [hlog]
      refine h.log.snoc fun pre post hsome => ?_
      rw [Logged.assets, hev] at hsome
      exact nomatch hsome
    · intro hr
      have := hr e (List.mem_singleton_self _)
      rw [Logged.isReset, hev] at this
      exact nomatch this

/-- The state in which the actions begin: the mark is the log's, or the snapshot. -/
theorem Marked.begun {w : World} (h : Marked w none) {env : Env} (htime : SensibleTime env)
    (mandate : Mandate) :
    Marked (w.begun env mandate) (some (totalAssets w).toNat)
      ∧ Rises w (w.begun env mandate) := by
  have hnone : w.epochStart = 0 ↔ markOf w.log = none := by
    simpa using h.start
  rw [World.begun_eq]
  by_cases h0 : w.epochStart = 0
  · have hmark := hnone.mp h0
    simp only [if_pos h0]
    refine ⟨⟨?_, ?_, h.log⟩, [], by simp [World.useNonce], fun _ hne => absurd h0 hne⟩
    · show _ ↔ (markOf w.log).or _ = none
      rw [hmark]
      exact ⟨fun hz => absurd hz htime.setWidth_ne_zero, fun hz => absurd hz (Option.some_ne_none _)⟩
    · show ∀ m, (markOf w.log).or _ = some m → _
      rw [hmark]
      intro m hm
      exact Option.some.inj hm
  · obtain ⟨m, hm⟩ := Option.ne_none_iff_exists'.mp fun hz => h0 (hnone.mpr hz)
    simp only [if_neg h0]
    refine ⟨⟨?_, ?_, h.log⟩, [], by simp [World.useNonce],
      fun _ _ => ⟨rfl, Nat.le_refl _⟩⟩
    · show w.epochStart = 0 ↔ (markOf w.log).or _ = none
      rw [hm]
      exact ⟨fun hz => absurd hz h0, fun hz => absurd hz (Option.some_ne_none _)⟩
    · show ∀ m, (markOf w.log).or _ = some m → w.epochAssets.toNat = m
      intro m' hm'
      refine h.mark m' ?_
      rw [hm] at hm' ⊢
      exact hm'

/-- Inside an execution the epoch has started. -/
theorem Marked.start_ne_zero {t : World} {preAssets : Nat} (h : Marked t (some preAssets)) :
    t.epochStart ≠ 0 := by
  intro h0
  have hnone := h.start.mp h0
  rw [Option.or_eq_none_iff] at hnone
  exact nomatch hnone.2

/-- The end of an execution: the mark becomes the larger of the one read and the assets
    after the actions, in storage as in the log. -/
theorem Marked.ended {t : World} {mandate : Mandate} {preAssets : Uint256}
    (h : Marked t (some preAssets.toNat)) {v : Validated} {mark : Uint256}
    (hbps : mandate.maxCumulativeDrawdownBps.toNat ≤ 10000)
    (hbound : LossBounded mandate preAssets v t mark) (env : Env) (actions : List Action)
    (signature : Bytes) (adapterProofs : List (List Bytes32)) (extensions : Bytes) :
    let t' := t.ended env (.execute mandate actions signature adapterProofs extensions) v
      preAssets mark
    Marked t' none ∧ Rises t t' := by
  have hread : t.epochAssets.toNat = (markOf t.log).getD preAssets.toNat := by
    refine h.mark _ ?_
    cases markOf t.log <;> rfl
  have hne := h.start_ne_zero
  intro t'
  have hlog : t'.log = t.log ++ [⟨env.sender, env.chainId,
      .execute mandate actions signature adapterProofs extensions,
      .MandateExecuted v.mandateHash v.authority env.sender v.actionsDigest preAssets
        (totalAssets t)⟩] := rfl
  have hmark : markOf t'.log = some mark.toNat := by
    rw [hlog, markOf_snoc, hbound.mark_eq, hread]
    rfl
  refine ⟨⟨?_, ?_, ?_⟩, _, hlog, fun _ _ => ⟨rfl, ?_⟩⟩
  · rw [hmark]
    exact ⟨fun h0 => absurd h0 hne, fun hz => nomatch hz⟩
  · rw [hmark]
    intro m hm
    exact Option.some.inj hm
  · rw [hlog]
    refine h.log.snoc fun pre post hsome => ?_
    obtain ⟨rfl, rfl⟩ := Prod.mk.inj (Option.some.inj hsome)
    refine ⟨mandate, actions, signature, adapterProofs, extensions, rfl, hbps, ?_⟩
    rw [← hread]
    exact hbound.cumulative
  · show t.epochAssets.toNat ≤ mark.toNat
    rw [hbound.mark_eq]
    exact Nat.le_max_left _ _

/-! ## Along every run -/

/-- **Storage and mark agree along every run** in which block timestamps are sensible. -/
def markContract (P : Platform) : VaultContract P (fun c _ => SensibleTime c.env) where
  inv w := ∃ opened, Marked w opened ∧ (w.entered ↔ opened.isSome = true)
  rel w w' := (w.entered ↔ w'.entered)
    ∧ ∀ opened, w.entered → Marked w opened → Marked w' opened
  mono := Rises
  rel_refl w := ⟨Iff.rfl, fun _ _ => id⟩
  rel_trans h h' :=
    ⟨h.1.trans h'.1, fun o he hm => h'.2 o (h.1.mp he) (h.2 o he hm)⟩
  mono_refl := rises_refl
  mono_trans := Rises.trans
  balances := by
    rintro w assets native ⟨opened, h, hent⟩
    exact ⟨⟨opened, ⟨h.start, h.mark, h.log⟩, hent⟩,
      ⟨Iff.rfl, fun _ _ hm => ⟨hm.start, hm.mark, hm.log⟩⟩, rises_refl w⟩
  shares := by
    rintro _ w l _ _ ⟨opened, h, hent⟩
    exact ⟨⟨opened, ⟨h.start, h.mark, h.log⟩, hent⟩,
      ⟨Iff.rfl, fun _ _ hm => ⟨hm.start, hm.mark, hm.log⟩⟩, rises_refl w⟩
  erc20 := by
    rintro w l _ ⟨opened, h, hent⟩
    exact ⟨⟨opened, ⟨h.start, h.mark, h.log⟩, hent⟩,
      ⟨Iff.rfl, fun _ _ hm => ⟨hm.start, hm.mark, hm.log⟩⟩, rises_refl w⟩
  step := by
    rintro env call w w' ⟨opened, h, hent⟩ htime hstep
    obtain ⟨hmarked, hrises⟩ := h.step htime hstep
    have hsame : w.entered ↔ w'.entered := by
      rw [World.entered, World.entered, hstep.epoch.1]
    exact ⟨⟨opened, hmarked, hsame.symm.trans hent⟩,
      ⟨hsame, fun _ _ hm => (hm.step htime hstep).1⟩, hrises⟩
  execution := by
    rintro env mandate actions signature adapterProofs extensions w v ⟨opened, h, hent⟩ htime
      hidle hvalid
    obtain rfl : opened = none := by
      cases opened with
      | none => rfl
      | some x => exact absurd (hent.mpr rfl) hidle
    obtain ⟨hbegun, hrises⟩ := h.begun htime mandate
    refine ⟨fun t => t.entered ∧ Marked t (some (totalAssets w).toNat), ⟨?_, hbegun⟩, hrises,
      ?_, ?_, ?_⟩
    · rw [World.begun_eq]
    · rintro t ⟨he, hm⟩
      exact ⟨_, hm, fun _ => rfl, fun _ => he⟩
    · rintro t t' ⟨he, hm⟩ _ hrel _
      exact ⟨hrel.1.mp he, hrel.2 _ he hm⟩
    · rintro t mark ⟨he, hm⟩ hbound
      obtain ⟨hended, hrises'⟩ := hm.ended hvalid.fields.cumulative hbound env actions
        signature adapterProofs extensions
      have hleft := not_entered_ended t env
        (.execute mandate actions signature adapterProofs extensions) v (totalAssets w) mark
      exact ⟨⟨none, hended, fun h1 => absurd h1 hleft, fun h1 => nomatch h1⟩,
        ⟨⟨fun h1 => absurd h1 hidle, fun h1 => absurd h1 hleft⟩,
          fun _ h1 => absurd h1 hidle⟩, hrises'⟩

/-- A new vault has no mark yet. -/
theorem Deployed.marked {vault a : Address} {w : World} (h : Deployed vault a w) :
    Marked w none ∧ ¬ w.entered := by
  obtain ⟨_, asset, name, symbol, assets, native, rfl⟩ := h.eq
  have hfree : ¬ (0 : Uint256) = 2 := by decide
  exact ⟨⟨⟨fun _ => rfl, fun _ => rfl⟩, (fun m hm => nomatch hm), .nil⟩, hfree⟩

/-- Everything about the mark that a run of a new vault upholds. -/
theorem Deployed.mark_upheld {vault a : Address} {w : World} (P : Platform)
    (h : Deployed vault a w) (sc : VaultScript)
    (htime : ∀ c v, Point.enter c v ∈ (vaultMachine P).trace sc w → SensibleTime c.env) :
    (markContract P).toContract.Upheld sc w := by
  obtain ⟨hmarked, hfree⟩ := h.marked
  exact Contract.sound _ sc w ⟨none, hmarked, fun h1 => absurd h1 hfree, fun h1 => nomatch h1⟩
    htime

/-- While an execution that has seen `preAssets` runs, no callback leaves it, and storage
    holds the mark of the log or that snapshot. -/
def openedContract (P : Platform) (preAssets : Nat) :
    VaultContract P (fun c _ => SensibleTime c.env) where
  inv t := t.entered ∧ Marked t (some preAssets)
  rel _ _ := True
  mono _ _ := True
  rel_refl _ := trivial
  rel_trans _ _ := trivial
  mono_refl _ := trivial
  mono_trans _ _ := trivial
  balances _ _ _ h := ⟨⟨h.1, ⟨h.2.start, h.2.mark, h.2.log⟩⟩, trivial, trivial⟩
  shares _ _ _ h hent _ := absurd h.1 hent
  erc20 _ _ _ h := ⟨⟨h.1, ⟨h.2.start, h.2.mark, h.2.log⟩⟩, trivial, trivial⟩
  step := by
    intro env call t t' h htime hstep
    have hent : t'.entered := by
      rw [World.entered, hstep.epoch.1]
      exact h.1
    exact ⟨⟨hent, (h.2.step htime hstep).1⟩, trivial, trivial⟩
  execution _ _ _ _ _ _ _ _ h _ hent _ := absurd h.1 hent

/-- **The mark that only storage knows.**  Wherever a callback of an execution has control,
    the mark is the log's or, as long as the log knows none, the execution's snapshot. -/
theorem mark_of_handover {P : Platform} {env : Env} {mandate : Mandate}
    {actions : List Action} {signature : Bytes} {adapterProofs : List (List Bytes32)}
    {extensions : Bytes} {outs : Nat → Msg → VaultScript} {w : World} (h : Marked w none)
    (htime : SensibleTime env)
    (hcalls : ∀ x ∈ (vaultMachine P).handovers
        ⟨env, .execute mandate actions signature adapterProofs extensions⟩ outs w,
      ∀ c v, Point.enter c v ∈ (vaultMachine P).trace (outs x.1 x.2.1) x.2.2 →
        SensibleTime c.env)
    {x : Nat × Msg × World} (hx : x ∈ (vaultMachine P).handovers
      ⟨env, .execute mandate actions signature adapterProofs extensions⟩ outs w) :
    ∀ q ∈ (vaultMachine P).trace (outs x.1 x.2.1) x.2.2,
      q.state.entered ∧ Marked q.state (some (totalAssets w).toNat) := by
  obtain ⟨_, v, hvalid, heq⟩ := execute_handovers hx
  have hbegun : (openedContract P (totalAssets w).toNat).inv (w.begun env mandate) := by
    refine ⟨?_, (h.begun htime mandate).1⟩
    rw [World.begun_eq]
  rw [heq] at hcalls hx
  exact (((openedContract P _).actions_sound outs hvalid.no_value hbegun hcalls).1 x hx).2

/-- **Exact meaning of the high-water mark.**  Along every run of a new vault with sensible
    block timestamps, at every point, including those inside callbacks and inside calls
    that revert later:

    * outside executions `_epochStart` is 0 exactly while no execution and no reset has
      succeeded; inside a running execution it is not;
    * as long as neither has succeeded, `_epochAssets` is, wherever a callback of a running
      execution has control, the assets before that execution;
    * after a reset, `_epochAssets` is the largest of the value at the last reset and the
      assets after every execution that has succeeded since; with no reset, of the assets
      before the first execution and the assets after each;
    * an execution leaves at least its limit of the assets after any earlier one, if there
      was no reset in between.

    Between surviving states without a reset in between, the mark never falls.  The log
    records what was observed: `totalAssets()` at a reset, before an execution and after
    it. -/
theorem epoch_mark_meaning {P : Platform} {vault a : Address} {w₀ : World}
    (h₀ : Deployed vault a w₀) (sc : VaultScript)
    (htime : ∀ c v, Point.enter c v ∈ (vaultMachine P).trace sc w₀ → SensibleTime c.env) :
    (∀ p ∈ (vaultMachine P).trace sc w₀,
      (¬ p.state.entered → (p.state.epochStart = 0
        ↔ ∀ e ∈ p.state.log, e.isReset = false ∧ e.assets = none))
      ∧ (p.state.entered → p.state.epochStart ≠ 0)
      ∧ (∀ before e since b v s, p.state.log = before ++ e :: since →
        e.event = .EpochReset b v s → (∀ x ∈ since, x.isReset = false) →
        p.state.epochAssets.toNat = ((executions since).map Prod.snd).foldl max v.toNat)
      ∧ (∀ pre post rest, (∀ x ∈ p.state.log, x.isReset = false) →
        executions p.state.log = (pre, post) :: rest →
        p.state.epochAssets.toNat = (post :: rest.map Prod.snd).foldl max pre)
      ∧ ∀ before e' between e after pre' post' pre post mandate actions signature
          adapterProofs extensions,
        p.state.log = before ++ e' :: (between ++ e :: after) →
        e'.assets = some (pre', post') → e.assets = some (pre, post) →
        e.call = .execute mandate actions signature adapterProofs extensions →
        (∀ x ∈ between, x.isReset = false) →
        post' * (10000 - mandate.maxCumulativeDrawdownBps.toNat) ≤ post * 10000)
    ∧ (∀ p ∈ (vaultMachine P).trace sc w₀,
      ∀ env mandate actions signature adapterProofs extensions outs,
      let c : Invocation :=
        ⟨env, .execute mandate actions signature adapterProofs extensions⟩
      SensibleTime env →
      (∀ x ∈ (vaultMachine P).handovers c outs p.state, ∀ c' v,
        Point.enter c' v ∈ (vaultMachine P).trace (outs x.1 x.2.1) x.2.2 →
        SensibleTime c'.env) →
      ∀ x ∈ (vaultMachine P).handovers c outs p.state,
      ∀ q ∈ (vaultMachine P).trace (outs x.1 x.2.1) x.2.2,
        q.state.entered ∧ q.state.epochStart ≠ 0
        ∧ ((∀ e ∈ q.state.log, e.isReset = false ∧ e.assets = none) →
          q.state.epochAssets = totalAssets p.state))
    ∧ ((vaultMachine P).committed sc w₀).Pairwise Rises
    ∧ ∀ env outs w r t,
      ((vaultMachine P).invoke ⟨env, .resetEpoch⟩ outs w = .ok (r, t) → ∃ e,
        t.log = w.log ++ [e]
        ∧ e.event = .EpochReset w.authority (totalAssets w) (env.timestamp.setWidth 48))
      ∧ ∀ mandate actions signature adapterProofs extensions,
        (vaultMachine P).invoke
          ⟨env, .execute mandate actions signature adapterProofs extensions⟩ outs w
          = .ok (r, t) →
        ∃ before e, t.log = before ++ [e]
          ∧ e.assets = some ((totalAssets w).toNat, (totalAssets t).toNat) := by
  have hup := h₀.mark_upheld P sc htime
  refine ⟨?_, ?_, hup.chain, ?_⟩
  · intro p hp
    obtain ⟨opened, h, hent⟩ := (hup.points p hp).1
    refine ⟨?_, ?_, ?_, ?_, ?_⟩
    · intro hfree
      -- no execution is running, so the epoch starts where the log says
      obtain rfl : opened = none := by
        cases opened with
        | none => rfl
        | some x => exact absurd (hent.mpr rfl) hfree
      rw [h.start, Option.or_none, markOf_eq_none]
    · intro he h0
      -- a running execution has opened the epoch, if no entry of the log did
      have hnone := h.start.mp h0
      rw [Option.or_eq_none_iff] at hnone
      rw [hnone.2] at hent
      exact nomatch hent.mp he
    · -- after a reset the mark starts from the value that it logged
      intro before e since b v s hlog hev hr
      refine h.mark _ ?_
      rw [hlog, markOf_of_reset before since hev hr]
      rfl
    · -- without one it starts from the assets before the first execution
      intro pre post rest hr hx
      refine h.mark _ ?_
      rw [markOf_of_no_reset _ hr, hx]
      rfl
    · intro before e' between e after pre' post' pre post mandate actions signature
        adapterProofs extensions hlog hx' hx hcall hr
      have hlogged := h.log
      rw [hlog] at hlogged
      exact post_of_earlier hlogged hx' hx hcall hr
  · intro p hp env mandate actions signature adapterProofs extensions outs c htime' hcalls
      x hx q hq
    obtain ⟨opened, h, hent⟩ := (hup.points p hp).1
    obtain rfl : opened = none := by
      cases opened with
      | none => rfl
      | some v => exact absurd (hent.mpr rfl) (execute_handovers hx).1
    obtain ⟨he, hm⟩ := mark_of_handover h htime' hcalls hx q hq
    refine ⟨he, hm.start_ne_zero, fun hquiet => ?_⟩
    -- the log knows no mark, so storage holds the snapshot
    have hnone := (markOf_eq_none _).mpr hquiet
    have hsnapshot := hm.mark (totalAssets p.state).toNat (by rw [hnone]; rfl)
    exact BitVec.eq_of_toNat_eq hsnapshot
  · intro env outs w r t
    constructor
    · intro h
      cases step_of_resetEpoch (atomic_exec_ok h) with
      | resetEpoch _ hs => exact ⟨_, rfl, rfl⟩
    · intro mandate actions signature adapterProofs extensions h
      obtain ⟨_, v, s, mark, _, _, _, _, rfl⟩ := execute_invoke_ok h
      exact ⟨s.log, _, rfl, rfl⟩

namespace Small

/-- The first execution of a new vault that holds 100. -/
def opening : VaultScript :=
  .history [tx (execution (mandate 1 0 0)) .done]

end Small

/-- Sensible timestamps do not make `_epochStart` 0 exactly while nothing has succeeded:
    when the first execution calls its adapter it is set already, and the log is empty. -/
theorem epoch_starts_first :
    Deployed Small.vault Small.authority (Small.deployed 100)
    ∧ (∀ c v, Point.enter c v ∈ (vaultMachine .plain).trace Small.opening (Small.deployed 100) →
      SensibleTime c.env)
    ∧ ¬ ∀ p ∈ (vaultMachine .plain).trace Small.opening (Small.deployed 100),
      (p.state.epochStart = 0 ↔ ∀ e ∈ p.state.log, e.isReset = false ∧ e.assets = none) := by
  refine ⟨Small.deployed_deployed 100, ?_, ?_⟩
  · have htime := (Machine.callsPass_iff (vaultMachine .plain) Small.opening
      (Small.deployed 100) (fun c _ => SensibleTime c.env)).mp (by decide +kernel)
    exact fun c v h => of_decide_eq_true (htime c v h)
  · intro h
    have hany : ((vaultMachine .plain).trace Small.opening (Small.deployed 100)).any
        (fun p => p.state.epochStart != 0 && p.state.log.isEmpty) = true := by decide +kernel
    obtain ⟨p, hp, htest⟩ := List.any_eq_true.mp hany
    obtain ⟨hstart, hlog⟩ : p.state.epochStart ≠ 0 ∧ p.state.log = [] := by simpa using htest
    refine hstart ((h p hp).mpr ?_)
    rw [hlog]
    exact fun e he => nomatch he

/-- A run with a growing vault: an execution at 100, a donation of 50, an execution that
    loses nothing.  The mark is 150. -/
theorem epoch_mark_meaning_small :
    ∃ w, (vaultMachine .plain).run
        (.history [Small.tx (Small.execution (Small.mandate 1 0 0)) .done,
          .act (.setAssets 150) .done,
          Small.tx (Small.execution (Small.mandate 2 0 0)) .done])
        (Small.deployed 100) = .ok w
      ∧ executions w.log = [(100, 100), (150, 150)]
      ∧ w.epochAssets.toNat = [100, 150].foldl max 100 := by
  obtain ⟨w, hw, htest⟩ := (Machine.runsTo_iff (vaultMachine .plain)
    (.history [Small.tx (Small.execution (Small.mandate 1 0 0)) .done,
      .act (.setAssets 150) .done, Small.tx (Small.execution (Small.mandate 2 0 0)) .done])
    (Small.deployed 100) (fun w => executions w.log = [(100, 100), (150, 150)]
      && w.log.all fun e => !e.isReset)).mp (by decide +kernel)
  obtain ⟨hx, hr⟩ : executions w.log = [(100, 100), (150, 150)]
      ∧ ∀ e ∈ w.log, e.isReset = false := by simpa using htest
  refine ⟨w, hw, hx, ?_⟩
  have htime := (Machine.callsPass_iff (vaultMachine .plain)
    (.history [Small.tx (Small.execution (Small.mandate 1 0 0)) .done,
      .act (.setAssets 150) .done, Small.tx (Small.execution (Small.mandate 2 0 0)) .done])
    (Small.deployed 100) (fun c _ => SensibleTime c.env)).mp (by decide +kernel)
  exact ((epoch_mark_meaning (Small.deployed_deployed 100) _
    fun c v h => of_decide_eq_true (htime c v h)).1 _
    (Machine.idle_mem_trace _ _ _ _ hw)).2.2.2.1 100 100 [(150, 150)] hr hx

end Vault
