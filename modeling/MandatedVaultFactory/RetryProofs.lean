import Mathlib.Algebra.BigOperators.Group.List.Basic
import Mathlib.Algebra.Order.Field.Rat
import Mathlib.Data.Rat.Cast.Order
import Mathlib.Tactic.Linarith
import Mathlib.Tactic.Ring

/-!
# Trying again

A request is tried a bounded number of times.  A reply that asks for it is answered by another
attempt, after a pause that grows by the same amount each time; any other reply, and the last one,
is the outcome.

* **`run`** — the loop, with what it does.
* **`Ends`** — with which attempt it ends; `exists_ends`, `Ends.unique`.
* **`run_of_ends`** — what it has done by then, and what it returns.
* **`waited_eventsFrom`** — how long it has paused. -/

namespace Retry

variable {ρ β : Type}

/-- What the loop does. -/
inductive Event where
  | attempt (n : Nat)
  | wait (seconds : ℚ)

/-- The loop, with so many attempts left. -/
def run (again : ρ → Bool) (read : ρ → β) (exhausted : β) (backoff : ℚ) (replies : Nat → ρ) :
    Nat → Nat → List Event × β
  | 0, _ => ([], exhausted)
  | left + 1, attempt =>
      if again (replies attempt) && left != 0 then
        let rest := run again read exhausted backoff replies left (attempt + 1)
        (.attempt attempt :: .wait (backoff * (attempt + 1)) :: rest.1, rest.2)
      else ([.attempt attempt], read (replies attempt))

/-- Of so many attempts the one with this number is the last that is made: all before it asked
    for another, and it does not, or there is none left. -/
structure Ends (again : ρ → Bool) (replies : Nat → ρ) (left n : Nat) : Prop where
  within : n < left
  asked : ∀ m < n, again (replies m) = true
  last : again (replies n) = true → n + 1 = left

variable {again : ρ → Bool} {replies : Nat → ρ}

theorem Ends.unique {left n m : Nat} (hn : Ends again replies left n)
    (hm : Ends again replies left m) : n = m := by
  have hle : ∀ {n m}, Ends again replies left n → Ends again replies left m → n ≤ m := by
    intro n m hn hm
    by_contra hlt
    have hlast := hm.last (hn.asked m (Nat.lt_of_not_le hlt))
    have hwithin := hn.within
    omega
  exact le_antisymm (hle hn hm) (hle hm hn)

/-- After a reply that asks for it the rest of the loop is a loop. -/
theorem Ends.tail {left n : Nat} (h : Ends again replies (left + 1) (n + 1)) :
    Ends again (fun m => replies (m + 1)) left n where
  within := Nat.lt_of_succ_lt_succ h.within
  asked m hm := h.asked (m + 1) (Nat.succ_lt_succ hm)
  last hagain := Nat.succ.inj (h.last hagain)

theorem Ends.cons {left n : Nat} (h : Ends again (fun m => replies (m + 1)) left n)
    (hagain : again (replies 0) = true) : Ends again replies (left + 1) (n + 1) where
  within := Nat.succ_lt_succ h.within
  asked m hm := by
    cases m with
    | zero => exact hagain
    | succ m => exact h.asked m (Nat.lt_of_succ_lt_succ hm)
  last hlast := congrArg Nat.succ (h.last hlast)

/-- A loop that may try ends.  Induction on the attempts left. -/
theorem exists_ends (again : ρ → Bool) (left : Nat) :
    ∀ replies : Nat → ρ, ∃ n, Ends again replies (left + 1) n := by
  induction left with
  | zero =>
      intro replies
      exact ⟨0, Nat.one_pos, fun m hm => absurd hm (Nat.not_lt_zero m), fun _ => rfl⟩
  | succ left ih =>
      intro replies
      by_cases hagain : again (replies 0) = true
      · obtain ⟨n, hn⟩ := ih fun m => replies (m + 1)
        exact ⟨n + 1, hn.cons hagain⟩
      · exact ⟨0, Nat.succ_pos _, fun m hm => absurd hm (Nat.not_lt_zero m),
          fun h => absurd h hagain⟩

/-- The attempts from one on, and the pauses between them. -/
def eventsFrom (backoff : ℚ) (attempt : Nat) : Nat → List Event
  | 0 => [.attempt attempt]
  | n + 1 =>
      .attempt attempt :: .wait (backoff * (attempt + 1)) :: eventsFrom backoff (attempt + 1) n

/-- **What a loop does and returns**, by the attempt it ends with. -/
theorem run_of_ends (read : ρ → β) (exhausted : β) (backoff : ℚ) {n : Nat} :
    ∀ {left attempt : Nat}, Ends again (fun m => replies (attempt + m)) left n →
      run again read exhausted backoff replies left attempt
        = (eventsFrom backoff attempt n, read (replies (attempt + n))) := by
  induction n with
  | zero =>
      intro left attempt h
      cases left with
      | zero => exact absurd h.within (Nat.not_lt_zero 0)
      | succ left =>
          have hstop : ¬ (again (replies attempt) && left != 0) = true := by
            intro hretry
            rw [Bool.and_eq_true, bne_iff_ne] at hretry
            exact hretry.2 (Nat.succ.inj (h.last hretry.1)).symm
          rw [run, if_neg hstop]
          rfl
  | succ n ih =>
      intro left attempt h
      cases left with
      | zero => exact absurd h.within (Nat.not_lt_zero _)
      | succ left =>
          have hagain : (again (replies attempt) && left != 0) = true := by
            rw [Bool.and_eq_true, bne_iff_ne]
            refine ⟨h.asked 0 (Nat.succ_pos n), fun hzero => ?_⟩
            have hwithin := h.within
            omega
          have hshift : (fun m => replies (attempt + (m + 1)))
              = fun m => replies (attempt + 1 + m) := by
            funext m
            rw [Nat.add_right_comm, Nat.add_assoc]
          have htail := h.tail
          rw [hshift] at htail
          rw [run, if_pos hagain, ih htail, eventsFrom, Nat.add_right_comm, Nat.add_assoc]

/-- How long the pauses are together. -/
def waited (events : List Event) : ℚ :=
  (events.map fun
    | .attempt _ => 0
    | .wait seconds => seconds).sum

/-- How many attempts there are. -/
def attempts (events : List Event) : Nat :=
  events.countP fun
    | .attempt _ => true
    | .wait _ => false

/-- The pauses grow: together they are a triangular number of them. -/
theorem waited_eventsFrom (backoff : ℚ) (n : Nat) : ∀ attempt : Nat,
    waited (eventsFrom backoff attempt n)
      = backoff * (n * attempt + n * (n + 1) / 2) := by
  induction n with
  | zero =>
      intro attempt
      simp [waited, eventsFrom]
  | succ n ih =>
      intro attempt
      have hrest := ih (attempt + 1)
      rw [waited] at hrest ⊢
      rw [eventsFrom, List.map_cons, List.map_cons, List.sum_cons, List.sum_cons, hrest]
      push_cast
      ring

theorem attempts_eventsFrom (backoff : ℚ) (n : Nat) : ∀ attempt : Nat,
    attempts (eventsFrom backoff attempt n) = n + 1 := by
  induction n with
  | zero => exact fun _ => rfl
  | succ n ih =>
      intro attempt
      have hrest := ih (attempt + 1)
      rw [attempts] at hrest ⊢
      rw [eventsFrom, List.countP_cons, List.countP_cons, hrest]
      rfl

end Retry
