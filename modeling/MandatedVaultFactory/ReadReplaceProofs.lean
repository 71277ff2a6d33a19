import Mathlib.Data.List.Nodup
import Mathlib.Logic.Function.Basic

/-!
# Processes that read a file and replace it

Any number of processes share one file.  Each reads it, writes an updated copy under a
temporary name that all of them use, and renames that onto the file.  The steps of different
processes come in any order.

* **`step`**, **`run`** — the processes.
* **`Exclusive`** — no process reads while another one is between its read and its rename.
* **`serial_run`** — an exclusive run is a serial one: the updates were made one after the
  other.
* **`exclusive_of_kept`** — a run that is not exclusive loses an update or has a process
  fail. -/

namespace ReadReplace

variable {F ι : Type} [DecidableEq ι]

/-- How far a process is.  It fails where there is nothing to rename. -/
inductive Phase (F : Type) where
  | start
  | holds (content : F)
  | written
  | done
  | failed

/-- The file, what stands under the temporary name, and the processes. -/
structure State (F ι : Type) where
  file : F
  temp : Option F
  phase : ι → Phase F

/-- Process `p` is in the phase now. -/
def State.set (s : State F ι) (p : ι) (phase : Phase F) : State F ι :=
  { s with phase := Function.update s.phase p phase }

/-- The next step of a process: read and update, write, rename. -/
def step (update : ι → F → F) (s : State F ι) (p : ι) : State F ι :=
  match s.phase p with
  | .start => s.set p (.holds (update p s.file))
  | .holds content => { s.set p .written with temp := some content }
  | .written =>
      match s.temp with
      | some content => { s.set p .done with file := content, temp := none }
      | none => s.set p .failed
  | .done => s
  | .failed => s

def run (update : ι → F → F) (s : State F ι) (schedule : List ι) : State F ι :=
  schedule.foldl (step update) s

/-- Between read and rename. -/
def Phase.Busy : Phase F → Prop
  | .holds _ => True
  | .written => True
  | _ => False

/-- No process reads while another one is busy. -/
def Exclusive (update : ι → F → F) : State F ι → List ι → Prop
  | _, [] => True
  | s, p :: schedule =>
      (s.phase p = .start → ∀ q, ¬(s.phase q).Busy) ∧ Exclusive update (step update s p) schedule

@[simp] theorem run_nil (update : ι → F → F) (s : State F ι) : run update s [] = s := rfl

@[simp] theorem run_cons (update : ι → F → F) (s : State F ι) (p : ι) (schedule : List ι) :
    run update s (p :: schedule) = run update (step update s p) schedule := rfl

variable {update : ι → F → F} {s : State F ι} {p q : ι}

@[simp] theorem phase_set_self (s : State F ι) (p : ι) (phase : Phase F) :
    (s.set p phase).phase p = phase :=
  Function.update_self ..

theorem phase_set_of_ne (s : State F ι) {p q : ι} (h : q ≠ p) (phase : Phase F) :
    (s.set p phase).phase q = s.phase q :=
  Function.update_of_ne h ..

/-! ## What a step does, by the phase of its process -/

theorem step_start (h : s.phase p = .start) :
    step update s p = s.set p (.holds (update p s.file)) := by
  rw [step, h]

theorem step_holds {content : F} (h : s.phase p = .holds content) :
    step update s p = { s.set p .written with temp := some content } := by
  rw [step, h]

theorem step_written {content : F} (h : s.phase p = .written) (ht : s.temp = some content) :
    step update s p = { s.set p .done with file := content, temp := none } := by
  rw [step, h]
  dsimp only
  rw [ht]

theorem step_written_none (h : s.phase p = .written) (ht : s.temp = none) :
    step update s p = s.set p .failed := by
  rw [step, h]
  dsimp only
  rw [ht]

/-- The other processes do not move. -/
theorem phase_step_of_ne (update : ι → F → F) (s : State F ι) (h : q ≠ p) :
    (step update s p).phase q = s.phase q := by
  rw [step]
  cases hp : s.phase p with
  | start => exact phase_set_of_ne s h _
  | holds content => exact phase_set_of_ne s h _
  | written =>
      cases ht : s.temp with
      | some content => exact phase_set_of_ne s h _
      | none => exact phase_set_of_ne s h _
  | done => rfl
  | failed => rfl

/-! ## Exclusive runs are serial -/

/-- The updates of the processes that are done were made one after the other, in the order
    `order`; at most one process is busy, and it has an update of the file as it is. -/
structure Serial (update : ι → F → F) (origin : F) (s : State F ι) (order : List ι) : Prop where
  nodup : order.Nodup
  mem_iff : ∀ p, p ∈ order ↔ s.phase p = .done
  file : s.file = order.foldl (fun content p => update p content) origin
  one : ∀ p q, (s.phase p).Busy → (s.phase q).Busy → p = q
  holds : ∀ p content, s.phase p = .holds content → content = update p s.file
  written : ∀ p, s.phase p = .written → s.temp = some (update p s.file)
  sound : ∀ p, s.phase p ≠ .failed

namespace Serial

variable {origin : F} {order : List ι}

/-- A process that starts to read when nobody is busy. -/
theorem read (h : Serial update origin s order) (hp : s.phase p = .start)
    (hfree : ∀ q, ¬(s.phase q).Busy) :
    Serial update origin (s.set p (.holds (update p s.file))) order := by
  have hother : ∀ q, q ≠ p → ((s.set p (.holds (update p s.file))).phase q) = s.phase q :=
    fun q hq => phase_set_of_ne s hq _
  refine ⟨h.nodup, ?_, h.file, ?_, ?_, ?_, ?_⟩
  · intro q
    by_cases hq : q = p
    · subst hq
      rw [phase_set_self, h.mem_iff, hp]
      exact ⟨nofun, nofun⟩
    · rw [hother q hq, h.mem_iff]
  · -- it is the only busy process from here on
    have honly : ∀ q, ((s.set p (.holds (update p s.file))).phase q).Busy → q = p := by
      intro q hq
      by_contra hne
      rw [hother q hne] at hq
      exact hfree q hq
    intro q r hq hr
    rw [honly q hq, honly r hr]
  · -- what it holds is the file as it is, updated
    intro q content hq
    by_cases hqp : q = p
    · subst hqp
      rw [phase_set_self] at hq
      exact (Phase.holds.inj hq).symm
    · rw [hother q hqp] at hq
      exact h.holds q content hq
  · intro q hq
    by_cases hqp : q = p
    · subst hqp
      rw [phase_set_self] at hq
      exact nomatch hq
    · rw [hother q hqp] at hq
      exact h.written q hq
  · intro q
    by_cases hqp : q = p
    · subst hqp
      rw [phase_set_self]
      exact nofun
    · rw [hother q hqp]
      exact h.sound q

/-- The one busy process writes what it holds. -/
theorem write (h : Serial update origin s order) {content : F}
    (hp : s.phase p = .holds content) :
    Serial update origin { s.set p .written with temp := some content } order := by
  have hbusy : (s.phase p).Busy := by rw [hp]; trivial
  have hcontent := h.holds p content hp
  have hother : ∀ q, q ≠ p → (s.set p .written).phase q = s.phase q :=
    fun q hq => phase_set_of_ne s hq _
  have hidle : ∀ q, q ≠ p → ¬(s.phase q).Busy := fun q hq hb => hq (h.one q p hb hbusy)
  refine ⟨h.nodup, ?_, h.file, ?_, ?_, ?_, ?_⟩
  · intro q
    by_cases hq : q = p
    · subst hq
      rw [h.mem_iff, hp]
      show _ ↔ (s.set q .written).phase q = .done
      rw [phase_set_self]
      exact ⟨nofun, nofun⟩
    · show _ ↔ (s.set p .written).phase q = .done
      rw [hother q hq, h.mem_iff]
  · have honly : ∀ q, ((s.set p .written).phase q).Busy → q = p := by
      intro q hq
      by_contra hne
      rw [hother q hne] at hq
      exact hidle q hne hq
    intro q r hq hr
    rw [honly q hq, honly r hr]
  · intro q content' hq
    have hq : (s.set p .written).phase q = .holds content' := hq
    by_cases hqp : q = p
    · subst hqp
      rw [phase_set_self] at hq
      exact nomatch hq
    · rw [hother q hqp] at hq
      exact h.holds q content' hq
  · intro q hq
    have hq : (s.set p .written).phase q = .written := hq
    by_cases hqp : q = p
    · subst hqp
      -- the temporary file is what it held, and the file has not changed since it was read
      show some content = _
      rw [hcontent]
      rfl
    · rw [hother q hqp] at hq
      exact absurd (by rw [hq]; trivial) (hidle q hqp)
  · intro q
    show (s.set p .written).phase q ≠ .failed
    by_cases hqp : q = p
    · subst hqp
      rw [phase_set_self]
      exact nofun
    · rw [hother q hqp]
      exact h.sound q

/-- It renames what it wrote, and is the last in the order. -/
theorem rename (h : Serial update origin s order) (hp : s.phase p = .written) :
    Serial update origin { s.set p .done with file := update p s.file, temp := none }
      (order ++ [p]) := by
  have hbusy : (s.phase p).Busy := by rw [hp]; trivial
  have hother : ∀ q, q ≠ p → (s.set p .done).phase q = s.phase q :=
    fun q hq => phase_set_of_ne s hq _
  have hidle : ∀ q, q ≠ p → ¬(s.phase q).Busy := fun q hq hb => hq (h.one q p hb hbusy)
  -- it has not been done before
  have hnew : p ∉ order := by
    rw [h.mem_iff, hp]
    exact nofun
  -- after the rename nobody is busy, which settles what is asked of busy processes
  have hnobody : ∀ q, ¬((s.set p .done).phase q).Busy := by
    intro q hq
    by_cases hqp : q = p
    · subst hqp
      rw [phase_set_self] at hq
      exact hq
    · rw [hother q hqp] at hq
      exact hidle q hqp hq
  refine ⟨List.nodup_append.mpr ⟨h.nodup, List.nodup_singleton p, ?_⟩, ?_, ?_, ?_, ?_, ?_, ?_⟩
  · intro q hq r hr
    rw [List.mem_singleton.mp hr]
    rintro rfl
    exact hnew hq
  · intro q
    show _ ↔ (s.set p .done).phase q = .done
    rw [List.mem_append, List.mem_singleton, h.mem_iff]
    by_cases hqp : q = p
    · subst hqp
      rw [phase_set_self]
      exact ⟨fun _ => rfl, fun _ => Or.inr rfl⟩
    · rw [hother q hqp]
      exact ⟨fun hq => hq.resolve_right hqp, Or.inl⟩
  · -- the file is the fold over the order with the new one at its end
    rw [List.foldl_append, ← h.file]
    rfl
  · intro q r hq _
    exact absurd hq (hnobody q)
  · intro q content hq
    have hq : (s.set p .done).phase q = .holds content := hq
    exact absurd (by rw [hq]; trivial) (hnobody q)
  · intro q hq
    have hq : (s.set p .done).phase q = .written := hq
    exact absurd (by rw [hq]; trivial) (hnobody q)
  · intro q
    show (s.set p .done).phase q ≠ .failed
    by_cases hqp : q = p
    · subst hqp
      rw [phase_set_self]
      exact nofun
    · rw [hother q hqp]
      exact h.sound q

/-- One step, of a process that reads only when nobody is busy. -/
theorem step (h : Serial update origin s order)
    (hfree : s.phase p = .start → ∀ q, ¬(s.phase q).Busy) :
    ∃ order', Serial update origin (ReadReplace.step update s p) order' := by
  cases hp : s.phase p with
  | start =>
      rw [step_start hp]
      exact ⟨order, h.read hp (hfree hp)⟩
  | holds content =>
      rw [step_holds hp]
      exact ⟨order, h.write hp⟩
  | written =>
      rw [step_written hp (h.written p hp)]
      exact ⟨order ++ [p], h.rename hp⟩
  | done =>
      rw [ReadReplace.step, hp]
      exact ⟨order, h⟩
  | failed => exact absurd hp (h.sound p)

end Serial

/-- **Exclusive runs are serial.**  Induction on the run; `Serial` is the invariant. -/
theorem serial_run {origin : F} (schedule : List ι) :
    ∀ (s : State F ι) (order : List ι), Serial update origin s order →
      Exclusive update s schedule → ∃ order', Serial update origin (run update s schedule) order' := by
  induction schedule with
  | nil =>
      intro s order h _
      exact ⟨order, h⟩
  | cons p schedule ih =>
      rintro s order h ⟨hfree, hrest⟩
      obtain ⟨order', h'⟩ := h.step hfree
      exact ih (step update s p) order' h' hrest

omit [DecidableEq ι] in
/-- Before anybody has begun. -/
theorem serial_start (hstart : ∀ p, s.phase p = .start) : Serial update s.file s [] := by
  refine ⟨List.nodup_nil, ?_, rfl, ?_, ?_, ?_, ?_⟩
  · intro p
    rw [hstart p]
    exact ⟨nofun, nofun⟩
  · intro p q hp
    rw [hstart p] at hp
    exact absurd hp id
  · intro p content hp
    rw [hstart p] at hp
    exact nomatch hp
  · intro p hp
    rw [hstart p] at hp
    exact nomatch hp
  · intro p
    rw [hstart p]
    exact nofun

/-! ## Other runs lose an update, or have a process fail -/

/-- Whether an update is in a file: it is once it was made, and no other one removes it or
    makes it. -/
structure Recorded (update : ι → F → F) (Has : ι → F → Prop) : Prop where
  own : ∀ p content, Has p (update p content)
  other : ∀ p q content, q ≠ p → (Has q (update p content) ↔ Has q content)

/-- What process `p` is going to rename onto the file, as long as nobody else writes. -/
def Carries (s : State F ι) (p : ι) (content : F) : Prop :=
  s.phase p = .holds content ∨ (s.phase p = .written ∧ s.temp = some content)

/-- A process has failed, or there are more processes about to rename than there is to
    rename. -/
def Broken (s : State F ι) : Prop :=
  (∃ p, s.phase p = .failed)
    ∨ ∃ p, s.phase p = .written ∧ (s.temp = none ∨ ∃ q, q ≠ p ∧ s.phase q = .written)

/-- The update of a process that is done is not in the content. -/
def Misses (Has : ι → F → Prop) (s : State F ι) (content : F) : Prop :=
  ∃ q, s.phase q = .done ∧ ¬Has q content

/-- Nothing is in the file, or in what is carried, that was not put there by its process;
    and what is carried is an update of the file as it is, or misses one. -/
structure Tidy (update : ι → F → F) (Has : ι → F → Prop) (s : State F ι) : Prop where
  file : ∀ q, Has q s.file → s.phase q = .done
  carried : ∀ p content, Carries s p content → ∀ q, Has q content → q = p ∨ s.phase q = .done
  fresh : ∀ p content, Carries s p content → content = update p s.file ∨ Misses Has s content

/-- An update is lost, or is going to be. -/
def Losing (Has : ι → F → Prop) (s : State F ι) : Prop :=
  Misses Has s s.file
    ∨ (∃ p q, p ≠ q ∧ (s.phase p).Busy ∧ (s.phase q).Busy)
    ∨ ∃ p content, Carries s p content ∧ Misses Has s content

section Converse

variable {Has : ι → F → Prop}

theorem broken_step (h : Broken s) (p : ι) : Broken (step update s p) := by
  rcases h with ⟨q, hq⟩ | ⟨q, hq, hmore⟩
  · -- who has failed stays so
    refine Or.inl ⟨q, ?_⟩
    by_cases hqp : q = p
    · subst hqp
      rw [step, hq]
      exact hq
    · rw [phase_step_of_ne update s hqp]
      exact hq
  · by_cases hqp : q = p
    · -- the process itself renames
      subst hqp
      cases ht : s.temp with
      | none =>
          rw [step_written_none hq ht]
          exact Or.inl ⟨q, phase_set_self ..⟩
      | some content =>
          obtain ⟨r, hrq, hr⟩ := hmore.resolve_left (by rw [ht]; exact nofun)
          rw [step_written hq ht]
          exact Or.inr ⟨r, (phase_set_of_ne s hrq _).trans hr, Or.inl rfl⟩
    · have hq' := (phase_step_of_ne update s hqp).trans hq
      cases hp : s.phase p with
      | start =>
          rw [step_start hp] at hq' ⊢
          refine Or.inr ⟨q, hq', ?_⟩
          rcases hmore with ht | ⟨r, hrq, hr⟩
          · exact Or.inl ht
          · refine Or.inr ⟨r, hrq, (phase_set_of_ne s ?_ _).trans hr⟩
            rintro rfl
            exact nomatch hr.symm.trans hp
      | holds content =>
          -- now there are two that have written
          rw [step_holds hp] at hq' ⊢
          exact Or.inr ⟨q, hq', Or.inr ⟨p, Ne.symm hqp, phase_set_self ..⟩⟩
      | written =>
          cases ht : s.temp with
          | none =>
              rw [step_written_none hp ht]
              exact Or.inl ⟨p, phase_set_self ..⟩
          | some content =>
              rw [step_written hp ht] at hq' ⊢
              exact Or.inr ⟨q, hq', Or.inl rfl⟩
      | done =>
          rw [step, hp]
          exact Or.inr ⟨q, hq, hmore⟩
      | failed => exact Or.inl ⟨p, by rw [step, hp]; exact hp⟩

/-- Who is done stays so, and what misses an update goes on missing it. -/
theorem done_step {q : ι} (h : s.phase q = .done) (p : ι) : (step update s p).phase q = .done := by
  by_cases hqp : q = p
  · subst hqp
    rw [step, h]
    exact h
  · rw [phase_step_of_ne update s hqp]
    exact h

theorem misses_step {content : F} (h : Misses Has s content) (p : ι) :
    Misses Has (step update s p) content := by
  obtain ⟨q, hq, hmiss⟩ := h
  exact ⟨q, done_step hq p, hmiss⟩

/-- What is carried after a step was carried before, unless the process has just read. -/
theorem carries_of_carries_step {content : F} (hb : ¬Broken (step update s p))
    (h : Carries (step update s p) q content) :
    Carries s q content ∨ (q = p ∧ s.phase p = .start ∧ content = update p s.file) := by
  by_cases hqp : q = p
  · subst hqp
    cases hp : s.phase q with
    | start =>
        rw [step_start hp] at h
        rcases h with h | ⟨h, _⟩
        · rw [phase_set_self] at h
          exact Or.inr ⟨rfl, rfl, (Phase.holds.inj h).symm⟩
        · rw [phase_set_self] at h
          exact nomatch h
    | holds content' =>
        rw [step_holds hp] at h
        rcases h with h | ⟨_, h⟩
        · exact nomatch (phase_set_self s q .written).symm.trans h
        · exact Or.inl (Or.inl (by rw [hp, Option.some.inj h]))
    | written =>
        -- without a temporary file the rename fails, and a run with a failure is broken
        cases ht : s.temp with
        | none =>
            rw [step_written_none hp ht] at hb
            exact absurd (Or.inl ⟨q, phase_set_self ..⟩) hb
        | some content' =>
            rw [step_written hp ht] at h
            rcases h with h | ⟨h, _⟩
            · exact nomatch (phase_set_self s q .done).symm.trans h
            · exact nomatch (phase_set_self s q .done).symm.trans h
    | done =>
        rw [step, hp] at h
        exact Or.inl h
    | failed =>
        rw [step, hp] at h
        exact Or.inl h
  · have hsame := phase_step_of_ne update s hqp
    rcases h with h | ⟨h, ht⟩
    · exact Or.inl (Or.inl (hsame.symm.trans h))
    · -- another process is about to rename, so this one has not written or renamed
      have hq := hsame.symm.trans h
      refine Or.inl (Or.inr ⟨hq, ?_⟩)
      cases hp : s.phase p with
      | start => rw [step_start hp] at ht; exact ht
      | holds content' =>
          refine absurd (Or.inr ⟨q, h, Or.inr ⟨p, Ne.symm hqp, ?_⟩⟩) hb
          rw [step_holds hp]
          exact phase_set_self ..
      | written =>
          cases ht' : s.temp with
          | none => rw [step_written_none hp ht'] at ht; exact nomatch ht'.symm.trans ht
          | some content' => rw [step_written hp ht'] at ht; exact nomatch ht
      | done => rw [step, hp] at ht; exact ht
      | failed => rw [step, hp] at ht; exact ht

/-- The file changes only where a process renames what it carries. -/
theorem file_step (hb : ¬Broken (step update s p)) :
    (step update s p).file = s.file
      ∨ (Carries s p (step update s p).file ∧ (step update s p).phase p = .done) := by
  cases hp : s.phase p with
  | start => rw [step_start hp]; exact Or.inl rfl
  | holds content => rw [step_holds hp]; exact Or.inl rfl
  | written =>
      cases ht : s.temp with
      | none =>
          rw [step_written_none hp ht] at hb
          exact absurd (Or.inl ⟨p, phase_set_self ..⟩) hb
      | some content =>
          rw [step_written hp ht]
          exact Or.inr ⟨Or.inr ⟨hp, ht⟩, phase_set_self ..⟩
  | done => rw [step, hp]; exact Or.inl rfl
  | failed => rw [step, hp]; exact Or.inl rfl

omit [DecidableEq ι] in
theorem not_done_of_carries {content : F} (h : Carries s p content) : s.phase p ≠ .done := by
  rcases h with h | ⟨h, _⟩
  · rw [h]
    exact nofun
  · rw [h]
    exact nofun

/-- Where a process has renamed, what another one carries misses its update. -/
theorem misses_of_renamed (hR : Recorded update Has) (h : Tidy update Has s) {content renamed : F}
    (hq : Carries s q content) (hqp : q ≠ p) (hp : Carries s p renamed)
    (hdone : (step update s p).phase p = .done) : Misses Has (step update s p) content := by
  rcases h.fresh q content hq with heq | hmiss
  · refine ⟨p, hdone, ?_⟩
    rw [heq, hR.other q p s.file (Ne.symm hqp)]
    intro hhas
    exact not_done_of_carries hp (h.file p hhas)
  · exact misses_step hmiss p

/-- What is carried goes on being carried, until its process renames it. -/
theorem carries_step {content : F} (hb : ¬Broken (step update s p)) (h : Carries s q content) :
    Carries (step update s p) q content
      ∨ (q = p ∧ (step update s p).file = content ∧ (step update s p).phase p = .done) := by
  have hs : ¬Broken s := fun hs => hb (broken_step hs p)
  by_cases hqp : q = p
  · subst hqp
    rcases h with h | ⟨h, ht⟩
    · rw [step_holds h]
      exact Or.inl (Or.inr ⟨phase_set_self .., rfl⟩)
    · rw [step_written h ht]
      exact Or.inr ⟨rfl, rfl, phase_set_self ..⟩
  · have hsame := phase_step_of_ne update s hqp
    refine Or.inl ?_
    rcases h with h | ⟨h, ht⟩
    · exact Or.inl (hsame.trans h)
    · refine Or.inr ⟨hsame.trans h, ?_⟩
      cases hp : s.phase p with
      | start => rw [step_start hp]; exact ht
      | holds content' =>
          refine absurd (Or.inr ⟨q, hsame.trans h, Or.inr ⟨p, Ne.symm hqp, ?_⟩⟩) hb
          rw [step_holds hp]
          exact phase_set_self ..
      | written => exact absurd (Or.inr ⟨q, h, Or.inr ⟨p, Ne.symm hqp, hp⟩⟩) hs
      | done => rw [step, hp]; exact ht
      | failed => exact absurd (Or.inl ⟨p, hp⟩) hs

omit [DecidableEq ι] in
theorem exists_carries (hs : ¬Broken s) (h : (s.phase q).Busy) : ∃ content, Carries s q content := by
  cases hq : s.phase q with
  | start => rw [hq] at h; exact absurd h id
  | holds content => exact ⟨content, Or.inl hq⟩
  | written =>
      cases ht : s.temp with
      | none => exact absurd (Or.inr ⟨q, hq, Or.inl ht⟩) hs
      | some content => exact ⟨content, Or.inr ⟨hq, ht⟩⟩
  | done => rw [hq] at h; exact absurd h id
  | failed => rw [hq] at h; exact absurd h id

omit [DecidableEq ι] in
theorem busy_of_carries {content : F} (h : Carries s q content) : (s.phase q).Busy := by
  rcases h with h | ⟨h, _⟩
  · rw [h]
    trivial
  · rw [h]
    trivial

theorem tidy_step (hR : Recorded update Has) (h : Tidy update Has s)
    (hb : ¬Broken (step update s p)) : Tidy update Has (step update s p) := by
  have hdone : ∀ q, s.phase q = .done → (step update s p).phase q = .done :=
    fun q hq => done_step hq p
  refine ⟨?_, ?_, ?_⟩
  · intro q hq
    rcases file_step hb with hf | ⟨hc, hp⟩
    · rw [hf] at hq
      exact hdone q (h.file q hq)
    · rcases h.carried p _ hc q hq with rfl | hq'
      · exact hp
      · exact hdone q hq'
  · intro r content hr q hq
    rcases carries_of_carries_step hb hr with hr' | ⟨rfl, _, rfl⟩
    · exact (h.carried r content hr' q hq).imp_right (hdone q)
    · by_cases hqr : q = r
      · exact Or.inl hqr
      · exact Or.inr (hdone q (h.file q ((hR.other r q s.file hqr).mp hq)))
  · intro r content hr
    rcases carries_of_carries_step hb hr with hr' | ⟨rfl, hstart, rfl⟩
    · rcases file_step hb with hf | ⟨hc, hp⟩
      · rw [hf]
        exact (h.fresh r content hr').imp_right (fun hmiss => misses_step hmiss p)
      · refine Or.inr (misses_of_renamed hR h hr' ?_ hc hp)
        rintro rfl
        exact not_done_of_carries hr hp
    · refine Or.inl ?_
      rw [step_start hstart]
      rfl

/-- An update that is lost stays lost: whoever brings it back takes away another one. -/
theorem losing_step (hR : Recorded update Has) (h : Tidy update Has s)
    (hb : ¬Broken (step update s p)) (hl : Losing Has s) : Losing Has (step update s p) := by
  have hs : ¬Broken s := fun hs => hb (broken_step hs p)
  rcases hl with ⟨q, hq, hmiss⟩ | ⟨a, b, hab, ha, hb'⟩ | ⟨q, content, hq, hmiss⟩
  · refine Or.inl ?_
    rcases file_step hb with hf | ⟨hc, _⟩
    · rw [hf]
      exact misses_step ⟨q, hq, hmiss⟩ p
    · refine misses_step ?_ p
      rcases h.fresh p _ hc with heq | hmiss'
      · refine ⟨q, hq, ?_⟩
        rw [heq, hR.other p q s.file (by rintro rfl; exact not_done_of_carries hc hq)]
        exact hmiss
      · exact hmiss'
  · -- of two that are busy the first to rename leaves the other one behind
    obtain ⟨ca, hca⟩ := exists_carries hs ha
    obtain ⟨cb, hcb⟩ := exists_carries hs hb'
    rcases carries_step hb hca with ha' | ⟨rfl, _, hdone⟩
    · rcases carries_step hb hcb with hb'' | ⟨rfl, _, hdone⟩
      · exact Or.inr (Or.inl ⟨a, b, hab, busy_of_carries ha', busy_of_carries hb''⟩)
      · exact Or.inr (Or.inr ⟨a, ca, ha', misses_of_renamed hR h hca hab hcb hdone⟩)
    · rcases carries_step hb hcb with hb'' | ⟨rfl, _, _⟩
      · exact Or.inr (Or.inr ⟨b, cb, hb'', misses_of_renamed hR h hcb (Ne.symm hab) hca hdone⟩)
      · exact absurd rfl hab
  · rcases carries_step hb hq with hq' | ⟨_, hf, _⟩
    · exact Or.inr (Or.inr ⟨q, content, hq', misses_step hmiss p⟩)
    · refine Or.inl ?_
      rw [hf]
      exact misses_step hmiss p

/-- What cannot be put right any more. -/
def Doomed (update : ι → F → F) (Has : ι → F → Prop) (s : State F ι) : Prop :=
  Broken s ∨ (Tidy update Has s ∧ Losing Has s)

theorem doomed_run (hR : Recorded update Has) (schedule : List ι) :
    ∀ s : State F ι, Doomed update Has s → Doomed update Has (run update s schedule) := by
  induction schedule with
  | nil => intro s h; exact h
  | cons p schedule ih =>
      intro s h
      refine ih (step update s p) ?_
      by_cases hb : Broken (step update s p)
      · exact Or.inl hb
      · rcases h with h | ⟨htidy, hl⟩
        · exact absurd (broken_step h p) hb
        · exact Or.inr ⟨tidy_step hR htidy hb, losing_step hR htidy hb hl⟩

/-- All processes are done, and every update is in the file. -/
def Kept (Has : ι → F → Prop) (s : State F ι) : Prop :=
  ∀ p, s.phase p = .done ∧ Has p s.file

omit [DecidableEq ι] in
theorem not_doomed_of_kept (h : Kept Has s) : ¬Doomed update Has s := by
  have hbusy : ∀ p, ¬(s.phase p).Busy := by
    intro p hp
    rw [(h p).1] at hp
    exact hp
  rintro ((⟨p, hp⟩ | ⟨p, hp, _⟩) | ⟨_, ⟨q, _, hmiss⟩ | ⟨p, _, _, hp, _⟩ | ⟨p, content, hp, _⟩⟩)
  · exact nomatch hp.symm.trans (h p).1
  · exact nomatch hp.symm.trans (h p).1
  · exact hmiss (h q).2
  · exact hbusy p hp
  · exact hbusy p (busy_of_carries hp)

/-- **A run that keeps every update is exclusive.**  Induction on the run: at the first
    process that reads while another one is busy the run is doomed. -/
theorem exclusive_of_kept (hR : Recorded update Has) (schedule : List ι) :
    ∀ s : State F ι, Tidy update Has s → Kept Has (run update s schedule) →
      Exclusive update s schedule := by
  induction schedule with
  | nil => intro s _ _; exact trivial
  | cons p schedule ih =>
      intro s h hkept
      have hgood : ¬Doomed update Has (step update s p) := fun hd =>
        not_doomed_of_kept hkept (doomed_run hR schedule _ hd)
      have hb : ¬Broken (step update s p) := fun hb => hgood (Or.inl hb)
      have htidy := tidy_step hR h hb
      refine ⟨?_, ih _ htidy hkept⟩
      intro hp q hq
      have hqp : q ≠ p := by
        rintro rfl
        rw [hp] at hq
        exact hq
      refine hgood (Or.inr ⟨htidy, Or.inr (Or.inl ⟨q, p, hqp, ?_, ?_⟩)⟩)
      · rw [phase_step_of_ne update s hqp]
        exact hq
      · rw [step_start hp, phase_set_self]
        trivial

omit [DecidableEq ι] in
theorem tidy_start (hstart : ∀ p, s.phase p = .start) (hnew : ∀ p, ¬Has p s.file) :
    Tidy update Has s := by
  have hnone : ∀ p content, ¬Carries s p content := by
    rintro p content (h | ⟨h, _⟩)
    · exact nomatch h.symm.trans (hstart p)
    · exact nomatch h.symm.trans (hstart p)
  exact ⟨fun q hq => absurd hq (hnew q), fun p content h => absurd h (hnone p content),
    fun p content h => absurd h (hnone p content)⟩

end Converse

end ReadReplace
