import MandatedVaultFactory.PositionStorageProofs
import MandatedVaultFactory.ReadReplaceProofs

/-!
# Commands that track positions at the same time

Each `predictclaw` command is a process of its own.  `upsert` takes a lock, but of threads:
between processes the reads of `positions.json`, the writes of `positions.tmp` and the
renames come in any order.

* **`opened`**, **`Recorders`** — the storage directory, and the processes that track a
  position each.
* **`noLostUpdate_iff`** — nobody fails and no record is lost exactly if nobody reads between
  another one's read and its rename.
* **`lost_update`** — two commands, and a position that is gone. -/

namespace Predict

open ReadReplace Texts

variable {ι : Type} [DecidableEq ι]

/-- Processes that upsert one record each, with an id of its own. -/
structure Recorders (ι : Type) where
  record : ι → LocalPosition
  own : Function.Injective fun p => (record p).positionId

/-- What `upsert` of one process makes of the file that it has read. -/
def Recorders.upsert (r : Recorders ι) (p : ι) (file : PositionsFile) : PositionsFile :=
  file.upsert (r.record p)

/-- The storage directory before any of the processes has begun. -/
def opened (file : PositionsFile) (temp : Option PositionsFile) : State PositionsFile ι where
  file := file
  temp := temp
  phase := fun _ => .start

/-- The record of a process is in the store. -/
def Recorders.Stored (r : Recorders ι) (p : ι) (file : PositionsFile) : Prop :=
  r.record p ∈ file.listPositions

/-- What is expected of a run from `file`: no process fails, and when all have finished, the
    store has every record. -/
structure NoLostUpdate (r : Recorders ι) (file : PositionsFile) (t : State PositionsFile ι) :
    Prop where
  nofail : ∀ p, t.phase p ≠ .failed
  stored : (∀ p, t.phase p = .done) → ∀ p, r.Stored p t.file
  before : (∀ p, t.phase p = .done) → ∀ position ∈ file.listPositions,
    position ∈ t.file.listPositions

/-- A record whose id is not the new one's is there after an upsert exactly if it was before. -/
theorem mem_upsertInto_iff_of_ne {position other : LocalPosition}
    (h : other.positionId ≠ position.positionId) (positions : List LocalPosition) :
    other ∈ upsertInto position positions ↔ other ∈ positions := by
  have hne : other ≠ position := by
    rintro rfl
    exact h rfl
  induction positions with
  | nil =>
      rw [upsertInto, List.mem_singleton]
      exact ⟨fun h' => absurd h' hne, fun h' => absurd h' List.not_mem_nil⟩
  | cons existing rest ih =>
      rw [upsertInto]
      split
      · rename_i hid
        have hne' : other ≠ existing := by
          rintro rfl
          exact h hid
        rw [List.mem_cons, List.mem_cons, or_iff_right hne, or_iff_right hne']
      · rw [List.mem_cons, List.mem_cons]
        exact or_congr_right ih

omit [DecidableEq ι] in
theorem recorded (r : Recorders ι) : Recorded r.upsert r.Stored where
  own := fun p file => mem_upsertInto (r.record p) file.listPositions
  other := fun _ _ file hqp =>
    mem_upsertInto_iff_of_ne (fun h => hqp (r.own h)) file.listPositions

omit [DecidableEq ι] in
/-- Upserts one after the other: every record is there, and so is what was there before under
    other ids. -/
theorem stored_foldl (r : Recorders ι) (order : List ι) :
    ∀ file : PositionsFile,
      (∀ p, p ∈ order ∨ r.Stored p file →
        r.Stored p (order.foldl (fun content q => r.upsert q content) file))
      ∧ ∀ position ∈ file.listPositions, (∀ p, position.positionId ≠ (r.record p).positionId) →
        position ∈ (order.foldl (fun content q => r.upsert q content) file).listPositions := by
  induction order with
  | nil =>
      intro file
      exact ⟨fun p hp => hp.resolve_left List.not_mem_nil, fun position h _ => h⟩
  | cons q order ih =>
      intro file
      obtain ⟨hstored, hbefore⟩ := ih (r.upsert q file)
      refine ⟨?_, ?_⟩
      · intro p hp
        refine hstored p ?_
        by_cases hpq : p = q
        · rw [hpq]
          exact Or.inr ((recorded r).own q file)
        · rcases hp with hp | hp
          · exact Or.inl ((List.mem_cons.mp hp).resolve_left hpq)
          · exact Or.inr (((recorded r).other q p file hpq).mpr hp)
      · intro position hmem hid
        exact hbefore position
          ((mem_upsertInto_iff_of_ne (hid q) file.listPositions).mpr hmem) hid

/-- **No lost update, exactly without overlap.**  From a store with none of the new ids: in
    every exclusive run, finished or not, nobody fails, the records of those who are done are
    there and so are all that were there before; and a finished run in which this is so is
    exclusive. -/
theorem noLostUpdate_iff (r : Recorders ι) (file : PositionsFile) (temp : Option PositionsFile)
    (hnew : ∀ p, (r.record p).positionId ∉ ids file.listPositions) (schedule : List ι) :
    (Exclusive r.upsert (opened file temp) schedule →
      NoLostUpdate r file (run r.upsert (opened file temp) schedule)
      ∧ ∀ p, (run r.upsert (opened file temp) schedule).phase p = .done →
        r.Stored p (run r.upsert (opened file temp) schedule).file)
    ∧ ((∀ p, (run r.upsert (opened file temp) schedule).phase p = .done
          ∨ (run r.upsert (opened file temp) schedule).phase p = .failed) →
        NoLostUpdate r file (run r.upsert (opened file temp) schedule) →
        Exclusive r.upsert (opened file temp) schedule) := by
  refine ⟨?_, ?_⟩
  · intro hexclusive
    -- an exclusive run is a fold over an order of the processes
    obtain ⟨order, h⟩ := serial_run schedule (opened file temp) []
      (serial_start fun _ => rfl) hexclusive
    obtain ⟨hstored, hbefore⟩ := stored_foldl r order file
    have hfile : (run r.upsert (opened file temp) schedule).file
        = order.foldl (fun content p => r.upsert p content) file := h.file
    rw [← hfile] at hstored hbefore
    have hdone : ∀ p, (run r.upsert (opened file temp) schedule).phase p = .done →
        r.Stored p (run r.upsert (opened file temp) schedule).file :=
      fun p hp => hstored p (Or.inl ((h.mem_iff p).mpr hp))
    refine ⟨⟨h.sound, fun hall p => hdone p (hall p), ?_⟩, hdone⟩
    intro _ position hmem
    refine hbefore position hmem ?_
    intro p hid
    refine hnew p ?_
    rw [← hid]
    exact List.mem_map_of_mem hmem
  · intro hfinished hkept
    have hall : ∀ p, (run r.upsert (opened file temp) schedule).phase p = .done :=
      fun p => (hfinished p).resolve_right (hkept.nofail p)
    -- the other way: an overlap would have dropped the record of one that is done
    refine exclusive_of_kept (recorded r) schedule (opened file temp) ?_ ?_
    · refine tidy_start (fun _ => rfl) ?_
      intro p hp
      exact hnew p (List.mem_map_of_mem hp)
    · intro p
      exact ⟨hall p, hkept.stored hall p⟩

/-! ## Two commands -/

namespace Small

def tracked (positionId : Text) : LocalPosition where
  positionId := positionId
  marketId := "m".toList
  question := "q".toList
  outcomeName := "YES".toList
  tokenId := "t".toList
  side := "BUY".toList
  strategy := "MARKET".toList
  entryTime := "now".toList
  entryPrice := 1 / 2
  quantity := "1".toList
  notionalUsdt := some 1
  orderHash := "h".toList
  orderStatus := "FILLED".toList
  fillAmount := none
  feeRateBps := 0
  source := "tracked".toList
  notes := none
  status := "OPEN".toList

def twoCommands : Recorders Bool where
  record p := tracked (if p then "a".toList else "b".toList)
  own := by
    intro p q h
    cases p with
    | true =>
        cases q with
        | true => rfl
        | false => exact absurd h (by decide)
    | false =>
        cases q with
        | true => exact absurd h (by decide)
        | false => rfl

end Small

/-- One command after the other. -/
theorem noLostUpdate_iff_twoCommands :
    NoLostUpdate Small.twoCommands .absent
      (run Small.twoCommands.upsert (opened .absent none) [true, true, true, false, false, false]) := by
  refine ((noLostUpdate_iff Small.twoCommands .absent none (fun _ => List.not_mem_nil)
    [true, true, true, false, false, false]).1 ?_).1
  refine ⟨fun _ q => ?_, nofun, nofun, fun _ q => ?_, nofun, nofun, trivial⟩
  · exact id
  · cases q with
    | true => exact id
    | false => exact id

/-- Both commands read the empty store.  If each writes and renames in one go, all is well
    with the processes, and the record of the first is gone; if both write before the first
    renames, the second finds nothing to rename. -/
theorem lost_update :
    (∀ p, (run Small.twoCommands.upsert (opened .absent none)
        [true, false, true, true, false, false]).phase p = .done)
      ∧ ¬NoLostUpdate Small.twoCommands .absent (run Small.twoCommands.upsert (opened .absent none)
        [true, false, true, true, false, false])
      ∧ (run Small.twoCommands.upsert (opened .absent none)
        [true, false, true, false, true, false]).phase false = .failed := by
  have hdone : ∀ p, (run Small.twoCommands.upsert (opened .absent none)
      [true, false, true, true, false, false]).phase p = .done := by
    intro p
    cases p with
    | true => rfl
    | false => rfl
  refine ⟨hdone, ?_, rfl⟩
  intro h
  have hstored : Small.twoCommands.record true ∈ [Small.twoCommands.record false] :=
    h.stored hdone true
  have hids := congrArg LocalPosition.positionId (List.mem_singleton.mp hstored)
  exact absurd hids (by decide)

end Predict
