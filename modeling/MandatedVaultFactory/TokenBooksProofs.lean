import Mathlib.Algebra.Group.Nat.Defs
import Mathlib.Logic.Function.Basic

/-!
# The books of tokens

Balances and allowances of any number of tokens, and what an account may rely on when it
deals in tokens it does not know.

* **`Tokens`** — how tokens answer: a transfer on allowance may be refused or deliver less
  than was asked for, a transfer or an approval may be refused.
* **`World.transferFrom`**, **`World.transfer`**, **`World.forceApprove`** — the calls an
  account makes.
* **`World.move`** — what everybody else can do to the books: the account's balances change
  against it only on its allowances.
* **`Book.floor`** — the part of the account's balance that one spender cannot reach.  While
  others act it never falls, and no allowance grows (`touches_move`, `respects_move`). -/

namespace TokenBooks

variable {A R : Type} [DecidableEq A]

/-- The books of one token. -/
structure Book (A : Type) where
  balance : A → Nat
  allowance : A → A → Nat

/-- The allowance from which on it is not used up: the largest there is. -/
def unlimited : Nat := 2 ^ 256 - 1

namespace Book

def credit (b : Book A) (a : A) (n : Nat) : Book A :=
  { b with balance := Function.update b.balance a (b.balance a + n) }

def debit (b : Book A) (a : A) (n : Nat) : Book A :=
  { b with balance := Function.update b.balance a (b.balance a - n) }

def approve (b : Book A) (owner spender : A) (n : Nat) : Book A where
  balance := b.balance
  allowance :=
    Function.update b.allowance owner (Function.update (b.allowance owner) spender n)

/-- Use up an allowance. -/
def spend (b : Book A) (owner spender : A) (n : Nat) : Book A :=
  if unlimited ≤ b.allowance owner spender then b
  else b.approve owner spender (b.allowance owner spender - n)

@[simp] theorem allowance_credit (b : Book A) (a : A) (n : Nat) :
    (b.credit a n).allowance = b.allowance := rfl

@[simp] theorem allowance_debit (b : Book A) (a : A) (n : Nat) :
    (b.debit a n).allowance = b.allowance := rfl

@[simp] theorem balance_approve (b : Book A) (o p : A) (n : Nat) :
    (b.approve o p n).balance = b.balance := rfl

@[simp] theorem balance_spend (b : Book A) (o p : A) (n : Nat) :
    (b.spend o p n).balance = b.balance := by
  rw [spend]
  split
  · rfl
  · rfl

theorem balance_credit (b : Book A) (a c : A) (n : Nat) :
    (b.credit a n).balance c = if c = a then b.balance a + n else b.balance c := by
  by_cases h : c = a
  · rw [if_pos h, h]
    exact Function.update_self ..
  · rw [if_neg h]
    exact Function.update_of_ne h ..

theorem balance_debit (b : Book A) (a c : A) (n : Nat) :
    (b.debit a n).balance c = if c = a then b.balance a - n else b.balance c := by
  by_cases h : c = a
  · rw [if_pos h, h]
    exact Function.update_self ..
  · rw [if_neg h]
    exact Function.update_of_ne h ..

theorem le_balance_credit (b : Book A) (a c : A) (n : Nat) :
    b.balance c ≤ (b.credit a n).balance c := by
  rw [balance_credit]
  split
  · rename_i h
    rw [h]
    exact Nat.le_add_right ..
  · exact Nat.le_refl _

theorem le_balance_debit (b : Book A) (a c : A) (n : Nat) :
    b.balance c ≤ (b.debit a n).balance c + (if c = a then n else 0) := by
  rw [balance_debit]
  by_cases h : c = a
  · rw [if_pos h, if_pos h, h]
    omega
  · rw [if_neg h, if_neg h]
    exact Nat.le_refl _

theorem allowance_approve (b : Book A) (o p o' p' : A) (n : Nat) :
    (b.approve o p n).allowance o' p' = if o' = o ∧ p' = p then n else b.allowance o' p' := by
  by_cases ho : o' = o
  · subst ho
    show Function.update b.allowance o' (Function.update (b.allowance o') p n) o' p' = _
    rw [Function.update_self]
    by_cases hp : p' = p
    · rw [if_pos ⟨rfl, hp⟩, hp]
      exact Function.update_self ..
    · rw [if_neg (fun h => hp h.2)]
      exact Function.update_of_ne hp ..
  · rw [if_neg (fun h => ho h.1)]
    show Function.update b.allowance o _ o' p' = _
    rw [Function.update_of_ne ho]

theorem allowance_spend_le (b : Book A) (o p o' p' : A) (n : Nat) :
    (b.spend o p n).allowance o' p' ≤ b.allowance o' p' := by
  rw [spend]
  split
  · exact Nat.le_refl _
  · rw [allowance_approve]
    split
    · rename_i h
      rw [h.1, h.2]
      exact Nat.sub_le ..
    · exact Nat.le_refl _

theorem allowance_spend_of_ne (b : Book A) {o p o' p' : A} (n : Nat) (h : ¬(o' = o ∧ p' = p)) :
    (b.spend o p n).allowance o' p' = b.allowance o' p' := by
  rw [spend]
  split
  · rfl
  · rw [allowance_approve, if_neg h]

theorem allowance_spend_self (b : Book A) {o p : A} (n : Nat)
    (h : b.allowance o p < unlimited) :
    (b.spend o p n).allowance o p = b.allowance o p - n := by
  rw [spend, if_neg (Nat.not_le.mpr h), allowance_approve, if_pos ⟨rfl, rfl⟩]

/-- What `spender` cannot reach of the owner's balance. -/
def floor (b : Book A) (owner spender : A) : Nat :=
  if unlimited ≤ b.allowance owner spender then 0
  else b.balance owner - b.allowance owner spender

omit [DecidableEq A] in
theorem floor_le_balance (b : Book A) (o p : A) : b.floor o p ≤ b.balance o := by
  rw [floor]
  split
  · exact Nat.zero_le _
  · exact Nat.sub_le ..

omit [DecidableEq A] in
theorem floor_of_allowance_zero {b : Book A} {o p : A} (h : b.allowance o p = 0) :
    b.floor o p = b.balance o := by
  rw [floor, h, if_neg (by decide), Nat.sub_zero]

omit [DecidableEq A] in
/-- At the same allowance a higher balance leaves more out of reach. -/
theorem floor_le_floor {b c : Book A} {o p : A} (ha : c.allowance o p = b.allowance o p)
    (hb : b.balance o ≤ c.balance o) : b.floor o p ≤ c.floor o p := by
  rw [floor, floor, ha]
  split
  · exact Nat.le_refl _
  · exact Nat.sub_le_sub_right hb _

omit [DecidableEq A] in
/-- A spender who uses its allowance leaves out of reach what it could not reach before. -/
theorem floor_le_floor_of_spent {b c : Book A} {o p : A} {n : Nat}
    (hn : n ≤ b.allowance o p)
    (ha : b.allowance o p < unlimited → c.allowance o p = b.allowance o p - n)
    (hb : b.balance o ≤ c.balance o + n) : b.floor o p ≤ c.floor o p := by
  rw [floor]
  split
  · exact Nat.zero_le _
  · rename_i hlt
    have hc := ha (Nat.not_le.mp hlt)
    rw [floor, if_neg (by omega), hc]
    omega

end Book

/-! ## How tokens answer -/

/-- What a transfer on allowance did: what was taken from the one side, and what of it
    arrived on the other. -/
structure Delivery (amount : Nat) where
  taken : Nat
  given : Nat
  given_le : given ≤ taken
  taken_le : taken ≤ amount

/-- The code of the tokens.  `R` is whatever else there is on the chain, their own storage
    included; `none` is a call that reverts or returns `false`. -/
structure Tokens (A R : Type) where
  delivery : R → A → Book A → (spender source target : A) → (amount : Nat) →
    Option (Delivery amount × R)
  transfers : R → A → Book A → (source target : A) → Nat → Option R
  approves : R → A → Book A → (owner spender : A) → Nat → Option R

/-- The books of all tokens, and the rest of the chain. -/
structure World (A R : Type) where
  books : A → Book A
  rest : R

namespace World

/-- Write one token's book. -/
def write (w : World A R) (token : A) (b : Book A) (r : R) : World A R where
  books := Function.update w.books token b
  rest := r

@[simp] theorem books_write_self (w : World A R) (token : A) (b : Book A) (r : R) :
    (w.write token b r).books token = b :=
  Function.update_self ..

theorem books_write_of_ne (w : World A R) {token other : A} (h : other ≠ token) (b : Book A)
    (r : R) : (w.write token b r).books other = w.books other :=
  Function.update_of_ne h ..

/-- `transferFrom`. -/
def transferFrom (T : Tokens A R) (w : World A R) (token spender source target : A)
    (amount : Nat) : Option (World A R) :=
  let b := w.books token
  match T.delivery w.rest token b spender source target amount with
  | none => none
  | some (d, r) =>
      if amount ≤ b.allowance source spender ∧ d.taken ≤ b.balance source then
        some (w.write token
          (((b.spend source spender amount).debit source d.taken).credit target d.given) r)
      else none

/-- `transfer`. -/
def transfer (T : Tokens A R) (w : World A R) (token source target : A) (amount : Nat) :
    Option (World A R) :=
  let b := w.books token
  match T.transfers w.rest token b source target amount with
  | none => none
  | some r =>
      if amount ≤ b.balance source then
        some (w.write token ((b.debit source amount).credit target amount) r)
      else none

/-- `approve`. -/
def approve (T : Tokens A R) (w : World A R) (token owner spender : A) (amount : Nat) :
    Option (World A R) :=
  let b := w.books token
  match T.approves w.rest token b owner spender amount with
  | none => none
  | some r => some (w.write token (b.approve owner spender amount) r)

/-- `forceApprove`: where the token does not approve at once, by way of zero. -/
def forceApprove (T : Tokens A R) (w : World A R) (token owner spender : A) (amount : Nat) :
    Option (World A R) :=
  match w.approve T token owner spender amount with
  | some v => some v
  | none =>
      match w.approve T token owner spender 0 with
      | some v => v.approve T token owner spender amount
      | none => none

end World

/-- A token call that fails makes its caller revert. -/
def orRevert {ε α : Type} (e : ε) (x : Option α) : Except ε α :=
  match x with
  | some a => .ok a
  | none => .error e

theorem of_orRevert_ok {ε α : Type} {e : ε} {x : Option α} {a : α} (h : orRevert e x = .ok a) :
    x = some a := by
  cases x with
  | none => exact nomatch h
  | some b =>
      obtain rfl : b = a := by simpa [orRevert] using h
      rfl

theorem ok_of_bind {ε α β : Type} {x : Except ε α} {f : α → Except ε β} {b : β}
    (h : (x >>= f) = .ok b) : ∃ a, x = .ok a ∧ f a = .ok b := by
  cases x with
  | error e => exact nomatch h
  | ok a => exact ⟨a, rfl, h⟩

/-! ## What the calls do -/

/-- What `token.transferFrom(source, target, amount)` by `spender` changes. -/
structure Delivered (s u : World A R) (token spender source target : A) (amount : Nat)
    (d : Delivery amount) : Prop where
  covered : amount ≤ (s.books token).allowance source spender
  enough : d.taken ≤ (s.books token).balance source
  others : ∀ other, other ≠ token → u.books other = s.books other
  book : u.books token
    = (((s.books token).spend source spender amount).debit source d.taken).credit target d.given

/-- What `token.transfer(target, amount)` by `source` changes. -/
structure Sent (s u : World A R) (token source target : A) (amount : Nat) : Prop where
  enough : amount ≤ (s.books token).balance source
  others : ∀ other, other ≠ token → u.books other = s.books other
  book : u.books token = ((s.books token).debit source amount).credit target amount

/-- What an approval changes: nothing but the allowance. -/
structure Approved (s u : World A R) (token owner spender : A) (amount : Nat) : Prop where
  others : ∀ other, other ≠ token → u.books other = s.books other
  balance : (u.books token).balance = (s.books token).balance
  allowance : ∀ o p, (u.books token).allowance o p
    = if o = owner ∧ p = spender then amount else (s.books token).allowance o p

variable {T : Tokens A R} {s u : World A R} {token spender source target owner : A}
  {amount : Nat}

theorem delivered_of_transferFrom
    (h : s.transferFrom T token spender source target amount = some u) :
    ∃ d r, T.delivery s.rest token (s.books token) spender source target amount = some (d, r)
      ∧ u.rest = r ∧ Delivered s u token spender source target amount d := by
  rw [World.transferFrom] at h
  cases hd : T.delivery s.rest token (s.books token) spender source target amount with
  | none => rw [hd] at h; exact nomatch h
  | some x =>
      obtain ⟨d, r⟩ := x
      rw [hd] at h
      dsimp only at h
      split at h
      · rename_i hc
        obtain rfl := Option.some.inj h
        exact ⟨d, r, rfl, rfl, hc.1, hc.2, fun o ho => s.books_write_of_ne ho _ _,
          s.books_write_self ..⟩
      · exact nomatch h

theorem sent_of_transfer (h : s.transfer T token source target amount = some u) :
    Sent s u token source target amount := by
  rw [World.transfer] at h
  cases ht : T.transfers s.rest token (s.books token) source target amount with
  | none => rw [ht] at h; exact nomatch h
  | some r =>
      rw [ht] at h
      dsimp only at h
      split at h
      · rename_i hc
        obtain rfl := Option.some.inj h
        exact ⟨hc, fun o ho => s.books_write_of_ne ho _ _, s.books_write_self ..⟩
      · exact nomatch h

theorem approved_of_approve (h : s.approve T token owner spender amount = some u) :
    Approved s u token owner spender amount := by
  rw [World.approve] at h
  cases ha : T.approves s.rest token (s.books token) owner spender amount with
  | none => rw [ha] at h; exact nomatch h
  | some r =>
      rw [ha] at h
      obtain rfl := Option.some.inj h
      refine ⟨fun o ho => s.books_write_of_ne ho _ _, ?_, ?_⟩
      · rw [World.books_write_self, Book.balance_approve]
      · intro o p
        rw [World.books_write_self, Book.allowance_approve]

theorem approved_of_forceApprove (h : s.forceApprove T token owner spender amount = some u) :
    Approved s u token owner spender amount := by
  rw [World.forceApprove] at h
  cases ha : s.approve T token owner spender amount with
  | some v =>
      rw [ha] at h
      obtain rfl := Option.some.inj h
      exact approved_of_approve ha
  | none =>
      rw [ha] at h
      cases hz : s.approve T token owner spender 0 with
      | none => rw [hz] at h; exact nomatch h
      | some v =>
          rw [hz] at h
          have h0 := approved_of_approve hz
          have h1 := approved_of_approve h
          refine ⟨fun o ho => (h1.others o ho).trans (h0.others o ho),
            h1.balance.trans h0.balance, ?_⟩
          intro o p
          rw [h1.allowance]
          by_cases hop : o = owner ∧ p = spender
          · rw [if_pos hop, if_pos hop]
          · rw [if_neg hop, if_neg hop, h0.allowance, if_neg hop]

namespace Delivered

variable {d : Delivery amount}

/-- Between two accounts: one side loses what is taken, the other gets what is given. -/
theorem balance (h : Delivered s u token spender source target amount d)
    (hne : source ≠ target) :
    (u.books token).balance source + d.taken = (s.books token).balance source
      ∧ (u.books token).balance target = (s.books token).balance target + d.given := by
  have henough := h.enough
  rw [h.book, Book.balance_credit, Book.balance_credit, if_neg hne, if_pos rfl,
    Book.balance_debit, Book.balance_debit, if_pos rfl, if_neg (Ne.symm hne),
    Book.balance_spend]
  omega

end Delivered

namespace Sent

theorem balance (h : Sent s u token source target amount) (hne : source ≠ target) :
    (u.books token).balance source + amount = (s.books token).balance source
      ∧ (u.books token).balance target = (s.books token).balance target + amount := by
  have henough := h.enough
  rw [h.book, Book.balance_credit, Book.balance_credit, if_neg hne, if_pos rfl,
    Book.balance_debit, Book.balance_debit, if_pos rfl, if_neg (Ne.symm hne)]
  omega

theorem allowance (h : Sent s u token source target amount) :
    (u.books token).allowance = (s.books token).allowance := by
  rw [h.book, Book.allowance_credit, Book.allowance_debit]

end Sent

/-! ## What everybody else can do -/

/-- A step of somebody else: token calls, coins made or taken away by the token's own
    code, and changes elsewhere. -/
inductive Move (A R : Type) : Type where
  | transferFrom (token spender source target : A) (amount : Nat)
  | transfer (token source target : A) (amount : Nat)
  | approve (token owner spender : A) (amount : Nat)
  | credit (token account : A) (amount : Nat)
  | debit (token account : A) (amount : Nat)
  | elsewhere (r : R)

/-- The step, as far as it is one that `holder` does not make; calls that revert change
    nothing. -/
def World.move (T : Tokens A R) (holder : A) : Move A R → World A R → World A R
  | .transferFrom token spender source target amount, w =>
      if spender = holder then w
      else (w.transferFrom T token spender source target amount).getD w
  | .transfer token source target amount, w =>
      if source = holder then w else (w.transfer T token source target amount).getD w
  | .approve token owner spender amount, w =>
      if owner = holder then w else (w.approve T token owner spender amount).getD w
  | .credit token account amount, w => w.write token ((w.books token).credit account amount) w.rest
  | .debit token account amount, w =>
      if account = holder then w
      else w.write token ((w.books token).debit account amount) w.rest
  | .elsewhere r, w => { w with rest := r }

/-- Nobody but `spender` has an allowance from `holder`. -/
def World.OnlyAllows (w : World A R) (holder spender : A) : Prop :=
  ∀ token a, a ≠ spender → (w.books token).allowance holder a = 0

/-- What `holder` keeps while others act: no allowance from it grows, and what `spender`
    cannot reach stays out of reach. -/
structure Respects (holder spender : A) (s u : World A R) : Prop where
  allowance : ∀ token a,
    (u.books token).allowance holder a ≤ (s.books token).allowance holder a
  floor : ∀ token, (s.books token).floor holder spender ≤ (u.books token).floor holder spender

namespace Respects

variable {holder : A} {t : World A R}

omit [DecidableEq A] in
theorem refl (s : World A R) : Respects holder spender s s :=
  ⟨fun _ _ => Nat.le_refl _, fun _ => Nat.le_refl _⟩

omit [DecidableEq A] in
theorem trans (h : Respects holder spender s u) (h' : Respects holder spender u t) :
    Respects holder spender s t where
  allowance := by
    intro token a
    exact Nat.le_trans (h'.allowance token a) (h.allowance token a)
  floor := by
    intro token
    exact Nat.le_trans (h.floor token) (h'.floor token)

omit [DecidableEq A] in
theorem onlyAllows (h : Respects holder spender s u)
    (hs : s.OnlyAllows holder spender) :
    u.OnlyAllows holder spender := by
  intro token a ha
  have := h.allowance token a
  have := hs token a ha
  omega

end Respects

/-- What somebody else's step can do to the books of `holder`: of one token, some spender
    `p` with an allowance used up `n` of it. -/
structure Touches (holder : A) (s u : World A R) (token p : A) (n : Nat) : Prop where
  others : ∀ other, other ≠ token → u.books other = s.books other
  covered : n ≤ (s.books token).allowance holder p
  used : (s.books token).allowance holder p < unlimited →
    (u.books token).allowance holder p = (s.books token).allowance holder p - n
  used_le : (u.books token).allowance holder p ≤ (s.books token).allowance holder p
  unused : ∀ a, a ≠ p →
    (u.books token).allowance holder a = (s.books token).allowance holder a
  balance : (s.books token).balance holder ≤ (u.books token).balance holder + n

namespace Touches

variable {holder p : A} {n : Nat}

omit [DecidableEq A] in
/-- A step that uses no allowance and takes nothing. -/
theorem of_kept (p : A) (hothers : ∀ other, other ≠ token → u.books other = s.books other)
    (hallow : ∀ a, (u.books token).allowance holder a = (s.books token).allowance holder a)
    (hbal : (s.books token).balance holder ≤ (u.books token).balance holder) :
    Touches holder s u token p 0 :=
  ⟨hothers, Nat.zero_le _, fun _ => hallow p, Nat.le_of_eq (hallow p), fun a _ => hallow a, hbal⟩

theorem of_delivered {d : Delivery amount} (hne : holder ≠ source)
    (h : Delivered s u token p source target amount d) : Touches holder s u token p 0 := by
  refine of_kept p h.others (fun a => ?_) ?_
  · rw [h.book, Book.allowance_credit, Book.allowance_debit]
    exact Book.allowance_spend_of_ne _ _ (fun hc => hne hc.1)
  · have hdebit := ((s.books token).spend source p amount).le_balance_debit source holder d.taken
    have hcredit := Book.le_balance_credit
      (((s.books token).spend source p amount).debit source d.taken) target holder d.given
    rw [← h.book] at hcredit
    rw [Book.balance_spend, if_neg hne] at hdebit
    omega

/-- A transfer on the account's own allowance. -/
theorem of_own_delivered {d : Delivery amount}
    (h : Delivered s u token p holder target amount d) : Touches holder s u token p amount := by
  have hbook : (u.books token).allowance = ((s.books token).spend holder p amount).allowance := by
    rw [h.book, Book.allowance_credit, Book.allowance_debit]
  refine ⟨h.others, h.covered, fun hlt => ?_, ?_, fun a ha => ?_, ?_⟩
  · rw [hbook, Book.allowance_spend_self _ _ hlt]
  · rw [hbook]
    exact Book.allowance_spend_le ..
  · rw [hbook]
    exact Book.allowance_spend_of_ne _ _ (fun hc => ha hc.2)
  · have hdebit := ((s.books token).spend holder p amount).le_balance_debit holder holder d.taken
    have hcredit := Book.le_balance_credit
      (((s.books token).spend holder p amount).debit holder d.taken) target holder d.given
    have htaken := d.taken_le
    rw [← h.book] at hcredit
    rw [Book.balance_spend, if_pos rfl] at hdebit
    omega

theorem of_sent (hne : holder ≠ source) (h : Sent s u token source target amount) :
    Touches holder s u token p 0 := by
  refine of_kept p h.others (fun a => by rw [h.allowance]) ?_
  have hdebit := (s.books token).le_balance_debit source holder amount
  have hcredit := ((s.books token).debit source amount).le_balance_credit target holder amount
  rw [← h.book] at hcredit
  rw [if_neg hne] at hdebit
  omega

theorem of_approved (hne : holder ≠ owner) {spender : A}
    (h : Approved s u token owner spender amount) : Touches holder s u token p 0 := by
  refine of_kept p h.others (fun a => ?_) ?_
  · rw [h.allowance, if_neg (fun hc => hne hc.1)]
  · exact Nat.le_of_eq (by rw [h.balance])

theorem allowance_le (h : Touches holder s u token p n) (other a : A) :
    (u.books other).allowance holder a ≤ (s.books other).allowance holder a := by
  by_cases ht : other = token
  · subst ht
    by_cases ha : a = p
    · rw [ha]
      exact h.used_le
    · exact Nat.le_of_eq (h.unused a ha)
  · exact Nat.le_of_eq (by rw [h.others other ht])

/-- If only `spender` has allowances, what it cannot reach stays out of reach. -/
theorem respects (hs : s.OnlyAllows holder spender) (h : Touches holder s u token p n) :
    Respects holder spender s u := by
  refine ⟨h.allowance_le, ?_⟩
  intro other
  by_cases ht : other = token
  · subst ht
    by_cases hp : p = spender
    · subst hp
      exact Book.floor_le_floor_of_spent h.covered h.used h.balance
    · have hcovered := h.covered
      have hbalance := h.balance
      rw [hs other p hp] at hcovered
      exact Book.floor_le_floor (h.unused spender (Ne.symm hp)) (by omega)
  · exact Nat.le_of_eq (by rw [h.others other ht])

end Touches

section Moves

variable {holder : A}

/-- **What somebody else can do.**  One case for each kind of step. -/
theorem touches_move (T : Tokens A R) (s : World A R) (m : Move A R) :
    ∃ token p n, Touches holder s (s.move T holder m) token p n := by
  have hidle : ∀ token p, Touches holder s s token p 0 := fun token p =>
    .of_kept p (fun _ _ => rfl) (fun _ => rfl) (Nat.le_refl _)
  cases m with
  | transferFrom token p source target amount =>
      rw [World.move]
      split
      · exact ⟨token, p, 0, hidle token p⟩
      · cases h : s.transferFrom T token p source target amount with
        | none => exact ⟨token, p, 0, hidle token p⟩
        | some u =>
            obtain ⟨d, _, _, _, hd⟩ := delivered_of_transferFrom h
            -- the only step that takes from the holder, and from its allowance as well
            by_cases hsource : holder = source
            · subst hsource
              exact ⟨token, p, amount, .of_own_delivered hd⟩
            · exact ⟨token, p, 0, .of_delivered hsource hd⟩
  | transfer token source target amount =>
      rw [World.move]
      split
      · exact ⟨token, source, 0, hidle token source⟩
      · rename_i hne
        cases h : s.transfer T token source target amount with
        | none => exact ⟨token, source, 0, hidle token source⟩
        | some u => exact ⟨token, source, 0, .of_sent (Ne.symm hne) (sent_of_transfer h)⟩
  | approve token owner p amount =>
      rw [World.move]
      split
      · exact ⟨token, p, 0, hidle token p⟩
      · rename_i hne
        cases h : s.approve T token owner p amount with
        | none => exact ⟨token, p, 0, hidle token p⟩
        | some u => exact ⟨token, p, 0, .of_approved (Ne.symm hne) (approved_of_approve h)⟩
  | credit token account amount =>
      -- what is credited can only add to the balance
      have hcredit := (s.books token).le_balance_credit account holder amount
      refine ⟨token, account, 0, .of_kept _ (fun o ho => s.books_write_of_ne ho _ _) ?_ ?_⟩
      · intro a
        rw [World.move, World.books_write_self, Book.allowance_credit]
      · rw [World.move, World.books_write_self]
        exact hcredit
  | debit token account amount =>
      rw [World.move]
      split
      · exact ⟨token, account, 0, hidle token account⟩
      · rename_i hne
        have hdebit := (s.books token).le_balance_debit account holder amount
        rw [if_neg (Ne.symm hne)] at hdebit
        refine ⟨token, account, 0, .of_kept _ (fun o ho => s.books_write_of_ne ho _ _) ?_ ?_⟩
        · intro a
          rw [World.books_write_self, Book.allowance_debit]
        · rw [World.books_write_self]
          exact hdebit
  | elsewhere r =>
      exact ⟨holder, holder, 0, .of_kept _ (fun _ _ => rfl) (fun _ => rfl) (Nat.le_refl _)⟩

theorem respects_move (T : Tokens A R) (hs : s.OnlyAllows holder spender) (m : Move A R) :
    Respects holder spender s (s.move T holder m) := by
  obtain ⟨_, _, _, h⟩ := touches_move T s m
  exact h.respects hs

end Moves

end TokenBooks
