import MandatedVaultFactory.EpochMarkProofs

/-!
# The circuit breaker

* **`circuit_breaker`** — one execution, whatever its adapters do: the losses it may end
  with, against the three references it is measured by.
* **`lossLimit_of_validateAllowlists`** — the absolute limit that is enforced is the one
  in the extensions.
* **`execute_reference`** and **`not_execute_reference`** — the mark that one execution is
  measured by: its adapters cannot lower it, the authority can, by a reset.
* **`cumulative_loss_of_caught_up`** and **`not_cumulative_loss_from_peak`** — many
  executions: losses add up against the peak that executions have observed only while the
  stored mark has caught up with that peak.  The mark does not see growth that an execution
  finds when it starts. -/

namespace Vault

open CallTree Chronicles Encoding

/-! ## The absolute loss limit -/

theorem selectorAllowlistId_ne_absoluteLossLimitId :
    absoluteLossLimitId ≠ selectorAllowlistId := by
  decide +kernel

/-- Canonical extensions have ascending ids throughout, not only next to each other. -/
theorem canonical_pairwise : ∀ exts : List Extension, canonicalExtensions exts = true →
    exts.Pairwise fun a b => a.id < b.id := by
  intro exts
  induction exts with
  | nil => intro _; exact .nil
  | cons a exts ih =>
      intro h
      cases exts with
      | nil => exact List.pairwise_singleton _ _
      | cons b exts =>
          obtain ⟨hab, hrest⟩ : a.id < b.id ∧ canonicalExtensions (b :: exts) = true := by
            simpa [canonicalExtensions] using h
          have hb := ih hrest
          refine List.pairwise_cons.mpr ⟨?_, hb⟩
          intro x hx
          rcases List.mem_cons.mp hx with rfl | hx
          · exact hab
          · exact Nat.lt_trans hab ((List.pairwise_cons.mp hb).1 x hx)

section Parse

variable {P : Platform} {parsed parsed' : ParsedExtensions}

/-- **One round of parsing**: an unknown entry that is required stops it, and each of the two
    known ones has to be read. -/
theorem parseExtension_ok {ext : Extension} :
    parseExtension P parsed ext = .ok parsed' ↔
      (ext.required = true → supportsExtension ext.id = true) ∧
      ((∃ root proofs, ext.id = selectorAllowlistId ∧
          P.decodeSelectorAllowlist ext.data = some (root, proofs) ∧
          parsed' = { parsed with
            hasSelectorAllowlist := true, selectorRoot := root, selectorProofs := proofs }) ∨
        (∃ threshold, ext.id = absoluteLossLimitId ∧
          P.decodeAbsoluteLossLimit ext.data = some threshold ∧
          parsed' = { parsed with
            hasAbsoluteLossLimit := true, maxSingleAbsoluteLoss := threshold }) ∨
        (ext.id ≠ selectorAllowlistId ∧ ext.id ≠ absoluteLossLimitId ∧ parsed' = parsed)) := by
  simp only [parseExtension, bind_ok, revertIf_ok, exists_const, not_and, Bool.not_eq_false]
  refine and_congr_right fun _ => ?_
  by_cases hsel : ext.id = selectorAllowlistId
  · -- the branch of the selector allowlist
    have hloss : ext.id ≠ absoluteLossLimitId := fun hid =>
      selectorAllowlistId_ne_absoluteLossLimitId (hid.symm.trans hsel)
    rw [if_pos hsel]
    constructor
    · intro h
      cases hdecode : P.decodeSelectorAllowlist ext.data with
      | none =>
          rw [hdecode] at h
          cases h
      | some found =>
          rw [hdecode] at h
          exact Or.inl ⟨found.1, found.2, hsel, rfl, ((pure_ok _ _).mp h).symm⟩
    · rintro (⟨root, proofs, _, hdecode, rfl⟩ | ⟨_, hid, _⟩ | ⟨hid, _⟩)
      · rw [hdecode]
        rfl
      · exact absurd hid hloss
      · exact absurd hsel hid
  rw [if_neg hsel]
  by_cases hloss : ext.id = absoluteLossLimitId
  · -- the branch of the loss limit
    rw [if_pos hloss]
    constructor
    · intro h
      cases hdecode : P.decodeAbsoluteLossLimit ext.data with
      | none =>
          rw [hdecode] at h
          cases h
      | some threshold =>
          rw [hdecode] at h
          exact Or.inr (Or.inl ⟨threshold, hloss, rfl, ((pure_ok _ _).mp h).symm⟩)
    · rintro (⟨_, _, hid, _⟩ | ⟨threshold, _, hdecode, rfl⟩ | ⟨_, hid, _⟩)
      · exact absurd hid hsel
      · rw [hdecode]
        rfl
      · exact absurd hloss hid
  · -- an identifier that the loop passes over
    rw [if_neg hloss, pure_ok]
    constructor
    · rintro rfl
      exact Or.inr (Or.inr ⟨hsel, hloss, rfl⟩)
    · rintro (⟨_, _, hid, _⟩ | ⟨_, hid, _⟩ | ⟨_, _, rfl⟩)
      · exact absurd hid hsel
      · exact absurd hid hloss
      · rfl

/-- A part of the result that entries with one id set, and the others leave. -/
def SetBy (P : Platform) {β : Type} (part : ParsedExtensions → β) (id : Bytes4)
    (R : Extension → β → Prop) : Prop :=
  ∀ parsed ext parsed', parseExtension P parsed ext = .ok parsed' →
    (ext.id ≠ id → part parsed' = part parsed) ∧ (ext.id = id → R ext (part parsed'))

theorem part_of_not_mem {β : Type} {part : ParsedExtensions → β} {id : Bytes4}
    {R : Extension → β → Prop} (hset : SetBy P part id R) {exts : List Extension}
    (h : exts.foldlM (parseExtension P) parsed = .ok parsed')
    (hid : ∀ ext ∈ exts, ext.id ≠ id) : part parsed' = part parsed := by
  induction exts generalizing parsed with
  | nil =>
      obtain rfl := (pure_ok _ _).mp h
      rfl
  | cons ext exts ih =>
      rw [List.foldlM_cons] at h
      obtain ⟨mid, hone, hrest⟩ := (bind_ok _ _ _).mp h
      have hfirst := (hset _ _ _ hone).1 (hid ext (List.mem_cons_self ..))
      exact (ih hrest fun x hx => hid x (List.mem_cons_of_mem _ hx)).trans hfirst

/-- The only entry with the id sets the part. -/
theorem part_of_mem {β : Type} {part : ParsedExtensions → β} {id : Bytes4}
    {R : Extension → β → Prop} (hset : SetBy P part id R) {exts : List Extension}
    {ext : Extension} (h : exts.foldlM (parseExtension P) parsed = .ok parsed')
    (hsorted : exts.Pairwise fun a b => a.id < b.id) (hmem : ext ∈ exts) (hid : ext.id = id) :
    R ext (part parsed') := by
  induction exts generalizing parsed with
  | nil => exact nomatch hmem
  | cons x exts ih =>
      rw [List.foldlM_cons] at h
      obtain ⟨mid, hone, hrest⟩ := (bind_ok _ _ _).mp h
      obtain ⟨hx, hexts⟩ := List.pairwise_cons.mp hsorted
      rcases List.mem_cons.mp hmem with rfl | hmem
      · have hlater := part_of_not_mem hset hrest fun y hy heq => by
          have hlt := hx y hy
          rw [hid, heq] at hlt
          exact Nat.lt_irrefl _ hlt
        rw [hlater]
        exact (hset _ _ _ hone).2 hid
      · exact ih hrest hexts hmem

/-- What one round of parsing does to the loss limit. -/
theorem setBy_lossLimit : SetBy P
    (fun parsed => (parsed.hasAbsoluteLossLimit, parsed.maxSingleAbsoluteLoss))
    absoluteLossLimitId
    fun ext limit => limit.1 = true ∧ P.decodeAbsoluteLossLimit ext.data = some limit.2 := by
  intro parsed ext parsed' h
  rcases (parseExtension_ok.mp h).2 with ⟨root, proofs, hid, _, rfl⟩ | ⟨_, hid, hdecode, rfl⟩ |
    ⟨_, hid, rfl⟩
  · exact ⟨fun _ => rfl, fun hloss =>
      absurd (hloss.symm.trans hid) selectorAllowlistId_ne_absoluteLossLimitId⟩
  · exact ⟨fun hother => absurd hid hother, fun _ => ⟨rfl, hdecode⟩⟩
  · exact ⟨fun _ => rfl, fun hloss => absurd hloss hid⟩

end Parse

/-- **The limit that is enforced is the one in the extensions.** -/
theorem lossLimit_of_validateAllowlists {P : Platform} {env : Env} {mandate : Mandate}
    {actions : List Action} {adapterProofs : List (List Bytes32)} {extensions : Bytes}
    {limit L : Uint256} {exts : List Extension} {ext : Extension}
    (h : validateAllowlists P env mandate actions adapterProofs extensions = .ok limit)
    (hdecode : P.decodeExtensions extensions = some exts) (hmem : ext ∈ exts)
    (hid : ext.id = absoluteLossLimitId)
    (hL : P.decodeAbsoluteLossLimit ext.data = some L) : limit = L := by
  have hne : extensions.length ≠ 0 := by
    intro h0
    rw [List.length_eq_zero_iff.mp h0, P.decodeExtensions_nil] at hdecode
    exact nomatch hdecode
  simp only [validateAllowlists, bind_ok, exists_unit_ok] at h
  obtain ⟨_, h⟩ := h
  rw [if_neg hne] at h
  obtain ⟨parsed, hparse, h⟩ := (bind_ok _ _ _).mp h
  rw [parseExtensions, hdecode] at hparse
  simp only [bind_ok, revertIf_ok, exists_const, Bool.not_eq_false] at hparse
  obtain ⟨_, hcanonical, hfold⟩ := hparse
  obtain ⟨hhas, hmax⟩ :=
    part_of_mem setBy_lossLimit hfold (canonical_pairwise _ hcanonical) hmem hid
  have hlimit : parsed.maxSingleAbsoluteLoss = L := Option.some.inj (hmax.symm.trans hL)
  rw [if_pos hhas, hlimit] at h
  by_cases hsel : parsed.hasSelectorAllowlist = true
  · rw [if_pos hsel] at h
    obtain ⟨_, _, h⟩ := (bind_ok _ _ _).mp h
    exact ((pure_ok _ _).mp h).symm
  · rw [if_neg hsel] at h
    exact ((pure_ok _ _).mp h).symm

/-! ## One execution -/

/-- **The circuit breaker, end to end.**  If `execute` succeeds, then whatever its adapters
    have done, with `u` the state in which the first action was called and `s` the one the
    last action left:

    * it returns the assets in `u` and in `s`, and the latter are still there at the end;
    * the loss between them is within `maxDrawdownBps`, and within the absolute limit of
      the extensions if they have one;
    * the loss from the mark read in `s` is within `maxCumulativeDrawdownBps`, and the mark
      becomes the larger of it and the assets.

    All bounds are over the unbounded integers. -/
theorem circuit_breaker {P : Platform} {env : Env} {mandate : Mandate}
    {actions : List Action} {signature : Bytes} {adapterProofs : List (List Bytes32)}
    {extensions : Bytes} {outs : Nat → Msg → VaultScript} {w t : World} {r : Value}
    (h : (vaultMachine P).invoke
      ⟨env, .execute mandate actions signature adapterProofs extensions⟩ outs w = .ok (r, t)) :
    ∃ m u i m' u' s,
      ((vaultMachine P).handovers
        ⟨env, .execute mandate actions signature adapterProofs extensions⟩ outs w).head?
          = some (0, m, u)
      ∧ ((vaultMachine P).handovers
        ⟨env, .execute mandate actions signature adapterProofs extensions⟩ outs w).getLast?
          = some (i, m', u')
      ∧ (vaultMachine P).run (outs i m') u' = .ok s
      ∧ r = .assets (totalAssets u) (totalAssets s)
      ∧ totalAssets u = totalAssets w ∧ totalAssets t = totalAssets s
      ∧ DrawdownLib.Within (totalAssets u).toNat (totalAssets s).toNat
        mandate.maxDrawdownBps.toNat
      ∧ (∀ exts ext L, P.decodeExtensions extensions = some exts → ext ∈ exts →
        ext.id = absoluteLossLimitId → P.decodeAbsoluteLossLimit ext.data = some L →
        (totalAssets u).toNat - (totalAssets s).toNat ≤ L.toNat)
      ∧ DrawdownLib.Within s.epochAssets.toNat (totalAssets s).toNat
        mandate.maxCumulativeDrawdownBps.toNat
      ∧ t.epochAssets.toNat = max s.epochAssets.toNat (totalAssets s).toNat := by
  obtain ⟨_, v, s, mark, hvalid, hexec, hbound, hr, ht⟩ := execute_invoke_ok h
  have hne : actions ≠ [] := fun h0 => hvalid.fields.nonempty (by rw [h0]; rfl)
  obtain ⟨i, m', u', hlast, hrun⟩ := executeActionsFrom_last _ actions 0 0 _ s hvalid.no_value
    hne hexec
  obtain ⟨action, rest, rfl⟩ := List.exists_cons_of_ne_nil hne
  -- spending the nonce and opening the epoch move no assets
  have hassets : totalAssets (w.begun env mandate) = totalAssets w := by
    rw [World.begun_eq]
    rfl
  have hhead : ((executeActions (action :: rest) (w.begun env mandate)).callouts
      ((vaultMachine P).oracle outs) 0).head?
      = some (0, .adapter action.adapter action.value action.data, w.begun env mandate) := by
    rw [executeActions, executeActionsFrom_cons 0 action rest _
      (hvalid.no_value action (List.mem_cons_self ..))]
    rfl
  refine ⟨.adapter action.adapter action.value action.data, w.begun env mandate, i, m', u', s,
    ?_, ?_, hrun, ?_, hassets, ?_, ?_, ?_,
    hbound.cumulative, ?_⟩
  · rw [execute_invoke_handovers h]
    exact hhead
  · rw [execute_invoke_handovers h]
    exact hlast
  · rw [hassets]
    exact hr
  · rw [ht]
    rfl
  · rw [hassets]
    exact hbound.single
  · intro exts ext L hdecode hmem hid hL
    rw [hassets, ← lossLimit_of_validateAllowlists hvalid.allowlists hdecode hmem hid hL]
    exact hbound.absolute
  · rw [ht]
    exact hbound.mark_eq

/-- An execution that loses 10 of 100, with a limit of 10 %. -/
theorem circuit_breaker_small :
    ∃ r t, (vaultMachine .plain).invoke (Small.execution (Small.mandate 1 1000 2000))
        (fun _ _ => .act (.setAssets 90) .done) (Small.deployed 100) = .ok (r, t)
      ∧ ∃ s : World, r = .assets 100 (totalAssets s)
        ∧ DrawdownLib.Within 100 (totalAssets s).toNat 1000
        ∧ t.epochAssets.toNat = max s.epochAssets.toNat (totalAssets s).toNat := by
  obtain ⟨r, t, h, _⟩ := (Machine.invokesTo_iff (vaultMachine .plain)
    (Small.execution (Small.mandate 1 1000 2000)) (fun _ _ => .act (.setAssets 90) .done)
    (Small.deployed 100) (fun _ _ => true)).mp (by decide +kernel)
  obtain ⟨_, u, _, _, _, s, _, _, _, hr, hpre, _, hsingle, _, _, hmark⟩ := circuit_breaker h
  rw [hpre] at hr hsingle
  exact ⟨r, t, h, s, hr, hsingle, hmark⟩

/-! ## The reference of one execution -/

/-- The mark after the entries `later`, if it was `mark` before them and none of them reports
    an execution: what the last reset among them stored. -/
def referenceAfter (mark : Uint256) (later : List Logged) : Uint256 :=
  later.foldl (fun m e =>
    match e.event with
    | .EpochReset _ assets _ => assets
    | _ => m) mark

/-- Without a reset the reference stays. -/
theorem referenceAfter_of_no_reset (mark : Uint256) (later : List Logged)
    (h : ∀ e ∈ later, e.isReset = false) : referenceAfter mark later = mark := by
  induction later generalizing mark with
  | nil => rfl
  | cons e later ih =>
      have he := h e (List.mem_cons_self ..)
      have hstay : referenceAfter mark [e] = mark := by
        rw [Logged.isReset] at he
        rw [referenceAfter, List.foldl_cons]
        cases hev : e.event with
        | EpochReset a v s => rw [hev] at he; cases he
        | _ => rfl
      show referenceAfter (referenceAfter mark [e]) later = mark
      rw [hstay]
      exact ih mark fun x hx => h x (List.mem_cons_of_mem _ hx)

theorem referenceAfter_append (mark : Uint256) (later later' : List Logged) :
    referenceAfter mark (later ++ later') = referenceAfter (referenceAfter mark later) later' :=
  List.foldl_append

/-- A reset that the entry reports was made by the authority it names. -/
def Logged.ResetByAuthority (e : Logged) : Prop :=
  ∀ a assets start, e.event = .EpochReset a assets start → e.call = .resetEpoch ∧ e.sender = a

/-- The entries of a step outside `execute`: resets are the authority's. -/
theorem Step.resets {w w' : World} {env : Env} {call : Call} (hstep : Step env call w w') :
    ∃ new, w'.log = w.log ++ new ∧ ∀ e ∈ new, e.ResetByAuthority := by
  cases hstep with
  | initializeVault _ asset name symbol b hinit => exact ⟨[], by simp, by simp⟩
  | resetEpoch _ hs =>
      refine ⟨[_], rfl, ?_⟩
      rintro e he a assets start hev
      rw [List.mem_singleton.mp he] at hev ⊢
      cases hev
      exact ⟨rfl, hs⟩
  | _ =>
      refine ⟨[_], rfl, ?_⟩
      intro e he a assets start hev
      rw [List.mem_singleton.mp he] at hev
      cases hev

/-- The guard is set, and the mark is that of `u` or what the last reset since has stored. -/
structure Referenced (u t : World) : Prop where
  entered : t.entered
  later : ∃ later, t.log = u.log ++ later
    ∧ t.epochAssets = referenceAfter u.epochAssets later
    ∧ ∀ e ∈ later, e.ResetByAuthority

theorem Step.referenced {u t t' : World} {env : Env} {call : Call} (h : Referenced u t)
    (hstep : Step env call t t') : Referenced u t' := by
  obtain ⟨hent, later, hlog, hmark, hby⟩ := h
  obtain ⟨new, hnew, hby'⟩ := hstep.resets
  have happend : t'.log = u.log ++ (later ++ new) := by rw [hnew, hlog, List.append_assoc]
  have hall : ∀ e ∈ later ++ new, e.ResetByAuthority :=
    fun e he => (List.mem_append.mp he).elim (hby e) (hby' e)
  obtain ⟨hstatus, ⟨_, hassets, quiet, hq, hnone⟩ | ⟨_, _, hassets, e, he, hev⟩⟩ := hstep.epoch
  · obtain rfl : new = quiet := List.append_cancel_left (hnew.symm.trans hq)
    refine ⟨hstatus.trans hent, _, happend, ?_, hall⟩
    rw [hassets, hmark, referenceAfter_append]
    exact (referenceAfter_of_no_reset _ new fun e he => (hnone e he).1).symm
  · obtain rfl : new = [e] := List.append_cancel_left (hnew.symm.trans he)
    refine ⟨hstatus.trans hent, _, happend, ?_, hall⟩
    rw [hassets, referenceAfter_append, referenceAfter, List.foldl_cons, hev]
    rfl

/-- While the guard is set nothing but a reset moves the mark. -/
def referenceContract (P : Platform) (u : World) : VaultContract P (fun _ _ => True) where
  inv := Referenced u
  rel _ _ := True
  mono _ _ := True
  rel_refl _ := trivial
  rel_trans _ _ := trivial
  mono_refl _ := trivial
  mono_trans _ _ := trivial
  balances _ _ _ h := ⟨⟨h.entered, h.later⟩, trivial, trivial⟩
  shares _ _ _ _ _ h := ⟨⟨h.entered, h.later⟩, trivial, trivial⟩
  erc20 _ _ _ h := ⟨⟨h.entered, h.later⟩, trivial, trivial⟩
  step _ _ _ _ h _ hstep := ⟨hstep.referenced h, trivial, trivial⟩
  execution _ _ _ _ _ _ _ _ h _ hidle _ := absurd h.entered hidle

/-- **What an execution is measured by.**  Let `u` be the state in which the first action of a
    successful `execute` is called, and `E0` the mark in it: the stored one, or the assets
    where step 13 has just started the epoch.  Whatever calls the actions make back into the
    vault, with `later` the events these leave:

    * the loss from what the last reset among `later` stored, or from `E0` if there is none,
      is within the limit;
    * a reset is the work of the authority it names. -/
theorem execute_reference {P : Platform} {env : Env} {mandate : Mandate}
    {actions : List Action} {signature : Bytes} {adapterProofs : List (List Bytes32)}
    {extensions : Bytes} {outs : Nat → Msg → VaultScript} {w t : World} {r : Value}
    (h : (vaultMachine P).invoke
      ⟨env, .execute mandate actions signature adapterProofs extensions⟩ outs w = .ok (r, t)) :
    ∃ m u later e post,
      ((vaultMachine P).handovers
        ⟨env, .execute mandate actions signature adapterProofs extensions⟩ outs w).head?
          = some (0, m, u)
      ∧ u.epochAssets = (if w.epochStart = 0 then totalAssets w else w.epochAssets)
      ∧ t.log = w.log ++ later ++ [e]
      ∧ (∃ hash digest, e.event
        = .MandateExecuted hash w.authority env.sender digest (totalAssets w) post)
      ∧ r = .assets (totalAssets w) post
      ∧ DrawdownLib.Within (referenceAfter u.epochAssets later).toNat post.toNat
        mandate.maxCumulativeDrawdownBps.toNat
      ∧ ((∀ x ∈ later, x.isReset = false) → DrawdownLib.Within u.epochAssets.toNat post.toNat
        mandate.maxCumulativeDrawdownBps.toNat)
      ∧ ∀ x ∈ later, x.ResetByAuthority := by
  obtain ⟨_, v, s, mark, hvalid, hexec, hbound, hr, ht⟩ := execute_invoke_ok h
  have hne : actions ≠ [] := fun h0 => hvalid.fields.nonempty (by rw [h0]; rfl)
  obtain ⟨action, rest, rfl⟩ := List.exists_cons_of_ne_nil hne
  have hbegun : Referenced (w.begun env mandate) (w.begun env mandate) := by
    refine ⟨?_, [], by simp, rfl, by simp⟩
    rw [World.begun_eq]
  obtain ⟨_, later, hlog, hmark, hby⟩ := ((referenceContract P (w.begun env mandate)).actions_sound
    outs hvalid.no_value hbegun (fun _ _ _ _ _ => trivial)).2 s hexec
  have hcum := hbound.cumulative
  rw [hmark] at hcum
  obtain ⟨e, he, _, hev⟩ := exists_ended_entry s env
    (.execute mandate (action :: rest) signature adapterProofs extensions) v (totalAssets w) mark
  rw [← ht] at he
  refine ⟨.adapter action.adapter action.value action.data, w.begun env mandate, later, e,
    totalAssets s, ?_, ?_, ?_, ⟨_, _, hvalid.authority_eq ▸ hev⟩, hr, hcum, ?_, hby⟩
  · rw [execute_invoke_handovers h, executeActions, executeActionsFrom_cons 0 action rest _
      (hvalid.no_value action (List.mem_cons_self ..))]
    rfl
  · rw [World.begun_eq]
  · rw [he, hlog, World.begun_eq]
    rfl
  · intro hr
    rwa [referenceAfter_of_no_reset _ _ hr] at hcum

namespace Small

/-- A vault that has fallen from 200, the mark, to 100. -/
def fallen : VaultScript :=
  .history [tx (execution (mandate 1 1000 1000)) .done, .act (.setAssets 100) .done]

/-- The adapter calls the authority's contract, which resets the epoch. -/
def resetting : VaultScript := tx ⟨env authority, .resetEpoch⟩ .done

end Small

/-- **The mark does not bind the authority.**  The vault has fallen to half its mark; an
    execution that may end at most 10 % below the mark succeeds, because the authority, called
    by the adapter, resets the epoch meanwhile. -/
theorem not_execute_reference :
    ¬ ∀ (sc : VaultScript) (w : World), (vaultMachine .plain).run sc (Small.deployed 200) = .ok w →
      ∀ env mandate actions signature adapterProofs extensions outs pre post t,
      (vaultMachine .plain).invoke
        ⟨env, .execute mandate actions signature adapterProofs extensions⟩ outs w
          = .ok (.assets pre post, t) →
      DrawdownLib.Within (if w.epochStart = 0 then totalAssets w else w.epochAssets).toNat
        post.toNat mandate.maxCumulativeDrawdownBps.toNat := by
  intro h
  obtain ⟨w, hw, htest⟩ := (Machine.runsTo_iff (vaultMachine .plain) Small.fallen
    (Small.deployed 200) (fun w => w.epochStart ≠ 0 && w.epochAssets = 200
      && (vaultMachine .plain).invokesTo (Small.execution (Small.mandate 2 1000 1000))
        (fun _ _ => Small.resetting) w (fun r _ => r = .assets 100 100))).mp (by decide +kernel)
  obtain ⟨⟨hstart, hmark⟩, hinvoke⟩ : (w.epochStart ≠ 0 ∧ w.epochAssets = 200) ∧ _ := by
    simpa using htest
  obtain ⟨r, t, hrt, hr⟩ := (Machine.invokesTo_iff ..).mp hinvoke
  obtain rfl : r = .assets 100 100 := by simpa using hr
  have hwithin := h Small.fallen w hw _ _ _ _ _ _ _ _ _ _ hrt
  rw [if_neg hstart, hmark] at hwithin
  rcases hwithin with hle | hle
  · exact absurd hle (by decide)
  · exact absurd hle (by decide)

/-- An execution that the adapter does not disturb: within the limit of the mark. -/
theorem execute_reference_small :
    ∃ t, (vaultMachine .plain).invoke (Small.execution (Small.mandate 1 1000 1000))
        (fun _ _ => .act (.setAssets 90) .done) (Small.deployed 100) = .ok (.assets 100 90, t)
      ∧ ∃ later e, t.log = later ++ [e]
        ∧ DrawdownLib.Within (referenceAfter 100 later).toNat 90 1000 := by
  obtain ⟨r, t, h, htest⟩ := (Machine.invokesTo_iff (vaultMachine .plain)
    (Small.execution (Small.mandate 1 1000 1000)) (fun _ _ => .act (.setAssets 90) .done)
    (Small.deployed 100) (fun r _ => r = .assets 100 90)).mp (by decide +kernel)
  obtain rfl : r = .assets 100 90 := by simpa using htest
  obtain ⟨_, u, later, e, post, _, hu, hlog, _, hr, hwithin, _⟩ := execute_reference h
  obtain ⟨_, rfl⟩ : (100 : Uint256) = _ ∧ (90 : Uint256) = post := by
    simpa using hr
  rw [hu] at hwithin
  exact ⟨t, h, later, e, hlog, hwithin⟩

/-! ## Many executions -/

/-- The largest assets that the executions in a log have observed, before or after their
    actions. -/
def peak (log : List Logged) : Nat :=
  (executions log).foldl (fun m x => max m (max x.1 x.2)) 0

/-- Every execution in the log ends within `C` basis points of the peak up to and including
    itself. -/
abbrev PeakBounded (C : Nat) (log : List Logged) : Prop :=
  Chronicle (fun before e => ∀ pre post, e.assets = some (pre, post) →
    (peak (before ++ [e]) - post) * 10000 ≤ peak (before ++ [e]) * C) log

/-- A call of a run inside one epoch: no reset, no withdrawal, and only mandates that limit
    the cumulative loss to `C`. -/
def inOneEpoch (C : Nat) (c : Invocation) : Bool :=
  0 < c.env.timestamp.toNat && c.env.timestamp.toNat < 2 ^ 48 &&
    match c.call with
    | .resetEpoch => false
    | .share (.withdraw _ _ _) => false
    | .share (.redeem _ _ _) => false
    | .execute mandate _ _ _ _ => mandate.maxCumulativeDrawdownBps.toNat ≤ C
    | _ => true

/-- If the call is an execution that can begin, the stored mark has caught up with the peak
    that earlier executions have observed. -/
def CaughtUp (c : Invocation) (w : World) : Prop :=
  match c.call with
  | .execute _ _ _ _ _ => ¬ w.entered → peak w.log ≤ w.epochAssets.toNat
  | _ => True

theorem peak_eq_of_executions {log log' : List Logged} (h : executions log' = executions log) :
    peak log' = peak log := by
  rw [peak, peak, h]

theorem executions_append (log later : List Logged) :
    executions (log ++ later) = executions log ++ executions later :=
  List.filterMap_append

theorem executions_quiet {later : List Logged}
    (hq : ∀ e ∈ later, e.isReset = false ∧ e.assets = none) : executions later = [] := by
  rw [executions, List.filterMap_eq_nil_iff]
  exact fun e he => (hq e he).2

theorem peak_snoc_of_assets {log : List Logged} {e : Logged} {pre post : Nat}
    (h : e.assets = some (pre, post)) :
    peak (log ++ [e]) = max (peak log) (max pre post) := by
  have hone : executions [e] = [(pre, post)] := by
    rw [executions, List.filterMap_cons, h]
    rfl
  rw [peak, executions_append, hone, List.foldl_append]
  rfl

/-- The arithmetic of one execution: the mark has caught up with the earlier peak, the loss
    from the mark and the loss from the assets before are limited, so the loss from the
    larger peak is. -/
theorem loss_from_peak {earlier mark pre post bps C : Nat} (hC : bps ≤ C)
    (hmark : earlier ≤ mark) (hcum : DrawdownLib.Within mark post bps)
    (hsingle : DrawdownLib.Within pre post bps) :
    (max earlier (max pre post) - post) * 10000 ≤ max earlier (max pre post) * C := by
  have hscale : 10000 - C ≤ 10000 - bps := Nat.sub_le_sub_left hC _
  have hearlier : earlier * (10000 - C) ≤ post * 10000 :=
    Nat.le_trans (Nat.mul_le_mul_left _ hscale) (within_mono hcum hmark)
  have hpre : pre * (10000 - C) ≤ post * 10000 :=
    Nat.le_trans (Nat.mul_le_mul_left _ hscale) (within_mono hsingle (Nat.le_refl _))
  have hpost : post * (10000 - C) ≤ post * 10000 := Nat.mul_le_mul_left _ (Nat.sub_le _ _)
  have hpeak : max earlier (max pre post) * (10000 - C) ≤ post * 10000 := by
    rcases Nat.le_total earlier (max pre post) with h1 | h1
    · rw [Nat.max_eq_right h1]
      rcases Nat.le_total pre post with h2 | h2
      · rwa [Nat.max_eq_right h2]
      · rwa [Nat.max_eq_left h2]
    · rwa [Nat.max_eq_left h1]
  generalize max earlier (max pre post) = p at hpeak ⊢
  have hsplit : p * 10000 ≤ p * C + p * (10000 - C) := by
    rw [← Nat.mul_add]
    exact Nat.mul_le_mul_left _ (by omega)
  rw [Nat.sub_mul]
  omega

/-- A step inside one epoch: no execution is written, and the mark stays. -/
theorem Step.in_one_epoch {C : Nat} {env : Env} {call : Call} {w w' : World}
    (hstep : Step env call w w') (hin : inOneEpoch C ⟨env, call⟩ = true) :
    w'.status = w.status ∧ w'.epochStart = w.epochStart ∧ w'.epochAssets = w.epochAssets
      ∧ executions w'.log = executions w.log
      ∧ (PeakBounded C w.log → PeakBounded C w'.log) := by
  obtain ⟨hstatus, ⟨hstart, hassets, later, hlog, hq⟩ | ⟨hcall, _⟩⟩ := hstep.epoch
  · refine ⟨hstatus, hstart, hassets, ?_, ?_⟩ <;> rw [hlog]
    · rw [executions_append, executions_quiet hq, List.append_nil]
    · intro h
      clear hlog
      induction later using List.reverseRecOn with
      | nil => rwa [List.append_nil]
      | append_singleton later e ih =>
          rw [← List.append_assoc]
          refine (ih fun x hx => hq x (List.mem_append_left _ hx)).snoc ?_
          intro pre post hsome
          exact nomatch ((hq e (by simp)).2.symm.trans hsome)
  · rw [hcall] at hin
    simp [inOneEpoch] at hin

/-- **Losses from the peak, along every run in which the mark has caught up.** -/
def peakContract (P : Platform) (C : Nat) :
    VaultContract P (fun c w => inOneEpoch C c = true ∧ CaughtUp c w) where
  inv w := PeakBounded C w.log ∧ (w.epochStart = 0 → executions w.log = [])
  rel w w' := (w.entered ↔ w'.entered)
    ∧ (w.entered → executions w'.log = executions w.log ∧ w.epochAssets ≤ w'.epochAssets
      ∧ (w.epochStart ≠ 0 → w'.epochStart ≠ 0))
  mono _ _ := True
  rel_refl w := ⟨Iff.rfl, fun _ => ⟨rfl, Nat.le_refl _, id⟩⟩
  rel_trans h h' := by
    refine ⟨h.1.trans h'.1, fun he => ?_⟩
    obtain ⟨h1, h2, h3⟩ := h.2 he
    obtain ⟨h1', h2', h3'⟩ := h'.2 (h.1.mp he)
    exact ⟨h1'.trans h1, Nat.le_trans h2 h2', fun h0 => h3' (h3 h0)⟩
  mono_refl _ := trivial
  mono_trans _ _ := trivial
  balances w _ _ h := ⟨h, ⟨Iff.rfl, fun _ => ⟨rfl, Nat.le_refl w.epochAssets.toNat, id⟩⟩, trivial⟩
  shares _ w _ _ _ h := ⟨h, ⟨Iff.rfl, fun _ => ⟨rfl, Nat.le_refl w.epochAssets.toNat, id⟩⟩, trivial⟩
  erc20 w _ _ h := ⟨h, ⟨Iff.rfl, fun _ => ⟨rfl, Nat.le_refl w.epochAssets.toNat, id⟩⟩, trivial⟩
  step := by
    rintro env call w w' ⟨hpeak, hzero⟩ ⟨hin, _⟩ hstep
    obtain ⟨hstatus, hstart, hassets, hexec, hbounded⟩ := hstep.in_one_epoch hin
    refine ⟨⟨hbounded hpeak, ?_⟩, ⟨?_, fun _ => ⟨hexec, ?_, ?_⟩⟩, trivial⟩
    · rw [hstart, hexec]
      exact hzero
    · rw [World.entered, World.entered, hstatus]
    · rw [hassets]
      exact Nat.le_refl _
    · rw [hstart]
      exact id
  execution := by
    rintro env mandate actions signature adapterProofs extensions w v ⟨hpeak, hzero⟩ ⟨hin, hcaught⟩
      hidle hvalid
    obtain ⟨htime, hC⟩ : SensibleTime env ∧ mandate.maxCumulativeDrawdownBps.toNat ≤ C := by
      simpa [inOneEpoch, SensibleTime] using hin
    refine ⟨fun t => t.entered ∧ PeakBounded C t.log ∧ t.epochStart ≠ 0
      ∧ executions t.log = executions w.log
      ∧ (w.begun env mandate).epochAssets ≤ t.epochAssets, ?_, trivial, ?_, ?_, ?_⟩
    · refine ⟨?_, ?_, ?_, ?_, Nat.le_refl _⟩ <;> rw [World.begun_eq]
      · exact hpeak
      · by_cases h0 : w.epochStart = 0
        · simp only [if_pos h0]
          exact htime.setWidth_ne_zero
        · simp only [if_neg h0]
          exact h0
      · rfl
    · rintro t ⟨_, hp, hs, _⟩
      exact ⟨hp, fun h0 => absurd h0 hs⟩
    · rintro t t' ⟨he, _, hs, hx, hle⟩ ⟨hp', _⟩ hrel _
      obtain ⟨hx', hle', hs'⟩ := hrel.2 he
      exact ⟨hrel.1.mp he, hp', hs' hs, hx'.trans hx, Nat.le_trans hle hle'⟩
    · rintro t mark ⟨he, hp, hs, hx, hle⟩ hbound
      have hleft := not_entered_ended t env
        (.execute mandate actions signature adapterProofs extensions) v (totalAssets w) mark
      -- the mark read after the actions is not below the earlier peak
      have hmark : peak t.log ≤ t.epochAssets.toNat := by
        rw [peak_eq_of_executions hx]
        by_cases h0 : w.epochStart = 0
        · rw [peak, hzero h0]
          exact Nat.zero_le _
        · have hbegun : (w.begun env mandate).epochAssets = w.epochAssets := by
            rw [World.begun_eq]
            exact if_neg h0
          rw [hbegun] at hle
          exact Nat.le_trans (hcaught hidle) hle
      have hsingle : DrawdownLib.Within (totalAssets w).toNat (totalAssets t).toNat
          mandate.maxCumulativeDrawdownBps.toNat := by
        rcases hbound.single with h | h
        · exact Or.inl h
        · exact Or.inr (Nat.le_trans h (Nat.mul_le_mul_left _ hvalid.fields.drawdown_le))
      refine ⟨⟨hp.snoc ?_, fun h0 => absurd h0 hs⟩,
        ⟨⟨fun h1 => absurd h1 hidle, fun h1 => absurd h1 hleft⟩,
          fun h1 => absurd h1 hidle⟩, trivial⟩
      intro pre post hsome
      obtain ⟨rfl, rfl⟩ := Prod.mk.inj (Option.some.inj hsome)
      rw [peak_snoc_of_assets hsome]
      exact loss_from_peak hC hmark hbound.cumulative hsingle

/-- **When losses are counted from the peak.**  In every run inside one epoch in which, each
    time an execution begins, the stored mark has caught up with the peak that earlier
    executions have observed, every execution ends within `C` basis points of the peak. -/
theorem cumulative_loss_of_caught_up {P : Platform} {vault a : Address} {w₀ : World}
    (h₀ : Deployed vault a w₀) (sc : VaultScript) (C : Nat)
    (hin : ∀ c v, Point.enter c v ∈ (vaultMachine P).trace sc w₀ → inOneEpoch C c = true)
    (hcaught : ∀ c v, Point.enter c v ∈ (vaultMachine P).trace sc w₀ → CaughtUp c v) :
    ∀ p ∈ (vaultMachine P).trace sc w₀, PeakBounded C p.state.log := by
  have hinv : PeakBounded C w₀.log ∧ (w₀.epochStart = 0 → executions w₀.log = []) := by
    obtain ⟨_, asset, name, symbol, assets, native, rfl⟩ := h₀.eq
    exact ⟨.nil, fun _ => rfl⟩
  have hup := Contract.sound (peakContract P C).toContract sc w₀ hinv
    fun c v h => ⟨hin c v h, hcaught c v h⟩
  intro p hp
  exact (hup.points p hp).1.1

namespace Small

/-- Three executions that may lose 30 % each, the vault growing from 100 to 200 before the
    second: 100 → 100, 200 → 140, 140 → 98. -/
def growth : VaultScript :=
  .history [tx (execution (mandate 1 3000 3000)) .done,
    .act (.setAssets 200) .done,
    tx (execution (mandate 2 3000 3000)) (.act (.setAssets 140) .done),
    tx (execution (mandate 3 3000 3000)) (.act (.setAssets 98) .done)]

/-- The same losses without the growth in between: the third execution is refused. -/
def noGrowth : VaultScript :=
  .history [tx (execution (mandate 1 3000 3000)) .done,
    tx (execution (mandate 2 3000 3000)) (.act (.setAssets 70) .done),
    tx (execution (mandate 3 3000 3000)) (.act (.setAssets 49) .done)]

end Small

/-- **Losses are not counted from the peak.**  In `Small.growth` the second execution finds
    200, which the mark never learns: it is 140 afterwards, and the third execution ends
    51 % below the peak although every mandate limits the cumulative loss to 30 %. -/
theorem not_cumulative_loss_from_peak :
    ¬ ∀ (sc : VaultScript) (C : Nat),
      (∀ c v, Point.enter c v ∈ (vaultMachine .plain).trace sc (Small.deployed 100) →
        inOneEpoch C c = true) →
      ∀ p ∈ (vaultMachine .plain).trace sc (Small.deployed 100), PeakBounded C p.state.log := by
  intro h
  obtain ⟨w, hw, htest⟩ := (Machine.runsTo_iff (vaultMachine .plain) Small.growth
    (Small.deployed 100) (fun w => peak w.log = 200
      && (w.log.getLast?.bind Logged.assets) = some (140, 98))).mp (by decide +kernel)
  obtain ⟨hpeak, hlast⟩ : peak w.log = 200
      ∧ w.log.getLast?.bind Logged.assets = some (140, 98) := by simpa using htest
  obtain ⟨e, he, hx⟩ := Option.bind_eq_some_iff.mp hlast
  obtain ⟨before, hlog⟩ := List.getLast?_eq_some_iff.mp he
  have hin := (Machine.callsPass_iff (vaultMachine .plain) Small.growth (Small.deployed 100)
    (fun c _ => inOneEpoch 3000 c)).mp (by decide +kernel)
  have hbound := h Small.growth 3000 hin _ (Machine.idle_mem_trace _ _ _ _ hw)
  have hthird := hbound before e [] hlog 140 98 hx
  rw [← hlog, hpeak] at hthird
  exact absurd hthird (by decide)

/-- Without the growth the second execution ends 30 % below the peak, as allowed, and the
    third one is refused. -/
theorem cumulative_loss_of_caught_up_small :
    ∃ w, (vaultMachine .plain).run Small.noGrowth (Small.deployed 100) = .ok w
      ∧ executions w.log = [(100, 100), (100, 70)] ∧ PeakBounded 3000 w.log := by
  obtain ⟨w, hw, htest⟩ := (Machine.runsTo_iff (vaultMachine .plain) Small.noGrowth
    (Small.deployed 100) (fun w => executions w.log = [(100, 100), (100, 70)])).mp
    (by decide +kernel)
  have hin := (Machine.callsPass_iff (vaultMachine .plain) Small.noGrowth (Small.deployed 100)
    (fun c _ => inOneEpoch 3000 c)).mp (by decide +kernel)
  have hcaught := (Machine.callsPass_iff (vaultMachine .plain) Small.noGrowth
    (Small.deployed 100) (fun _ v => peak v.log ≤ v.epochAssets.toNat)).mp (by decide +kernel)
  refine ⟨w, hw, by simpa using htest, ?_⟩
  refine cumulative_loss_of_caught_up (Small.deployed_deployed 100) Small.noGrowth 3000
    hin (fun c v h => ?_) _ (Machine.idle_mem_trace _ _ _ _ hw)
  obtain ⟨env, call⟩ := c
  cases call with
  | execute => exact fun _ => of_decide_eq_true (hcaught _ _ h)
  | _ => trivial

end Vault
