import MandatedVaultFactory.TokenBooksProofs
import MandatedVaultFactory.VaultStateProofs

/-!
# What the Venus adapter leaves behind

`VenusAdapter` pulls a token from its caller, offers it to a market, and passes on what the
market paid for it, as the difference of two balances of the other token.  What the market
did not take of the offer is not looked at: it stays on the adapter, where the PancakeSwap
adapter would give it back.

* **`supply`**, **`withdraw`** — the code, over token books.
* **`leavesNothing_iff`** — a call leaves nothing behind exactly if the market took all that
  was delivered, neither less nor more.
* **`not_leavesNothing_partial`** — a market that mints for sixty of a hundred. -/

namespace VenusAdapter

open CallTree TokenBooks
open Vault (Address)

variable {R ρ : Type}

/-- The errors of the adapter, `Panic` being the compiler's.  `Token` is a call of a token
    that failed, `Market` carries what the market reverted with, `ReturnData` is an answer
    that is no number. -/
inductive Error (ρ : Type) where
  | ZeroAddressVToken
  | ZeroAddressUnderlying
  | ZeroAmount
  | InsufficientUnderlyingAllowanceFromCaller (allowance required : Nat)
  | InsufficientUnderlyingAllowanceToMarket (allowance required : Nat)
  | InsufficientVTokenAllowanceFromCaller (allowance required : Nat)
  | VenusMintFailed (errorCode : Nat)
  | VenusRedeemFailed (errorCode : Nat)
  | ZeroMintOutput
  | ZeroRedeemOutput
  | Panic (code : Nat)
  | Token
  | Market (data : ρ)
  | ReturnData

/-- What the adapter sees of the chain: the tokens, what a market calls its underlying, and
    what the data last returned to the adapter decodes to. -/
structure Chain (R : Type) extends Tokens Address R where
  underlying : R → Address → Option Address
  returned : R → Option Nat

/-- The books, and how many vTokens of the adapter each market may still burn: as many as
    the adapter is just offering it to redeem. -/
structure State (R : Type) where
  world : World Address R
  offered : Address → Nat

def State.balance (s : State R) (token account : Address) : Nat :=
  (s.world.books token).balance account

def State.allowance (s : State R) (token owner spender : Address) : Nat :=
  (s.world.books token).allowance owner spender

/-- The calls of a market. -/
inductive Message where
  | mint (vToken : Address) (mintAmount : Nat)
  | redeem (vToken : Address) (redeemTokens : Nat)
  deriving DecidableEq

inductive Entry where
  | supply
  | withdraw
  deriving DecidableEq

/-- A call of `supply` or `withdraw` at the adapter, which never calls itself. -/
structure Call (adapter : Address) where
  entry : Entry
  sender : Address
  sender_ne : sender ≠ adapter
  vToken : Address
  amount : Nat

/-- What a call keeps while the market has control: the underlying, the balance before of the
    token it pays out, and what the market could burn before. -/
structure Kept where
  underlying : Address
  before : Nat
  offered : Nat

variable (P : Chain R) (adapter : Address)

/-- The first lines of both functions. -/
def checkedUnderlying (c : Call adapter) (w : World Address R) : Except (Error ρ) Address :=
  if c.vToken = 0 then .error .ZeroAddressVToken
  else if c.amount = 0 then .error .ZeroAmount
  else
    match P.underlying w.rest c.vToken with
    | none => .error .Token
    | some underlying =>
        if underlying = 0 then .error .ZeroAddressUnderlying else .ok underlying

/-- `supply` up to its call of `mint`. -/
def supplyIn (c : Call adapter) (s : State R) : Except (Error ρ) (Kept × State R) := do
  let underlying ← checkedUnderlying P adapter c s.world
  let beforeBalance := s.balance c.vToken adapter
  let allowanceFromCaller := s.allowance underlying c.sender adapter
  if allowanceFromCaller < c.amount then
    .error (.InsufficientUnderlyingAllowanceFromCaller allowanceFromCaller c.amount)
  else do
    let w ← orRevert .Token
      (s.world.transferFrom P.toTokens underlying adapter c.sender adapter c.amount)
    let w ← orRevert .Token (w.forceApprove P.toTokens underlying adapter c.vToken c.amount)
    let allowanceToMarket := (w.books underlying).allowance adapter c.vToken
    if allowanceToMarket < c.amount then
      .error (.InsufficientUnderlyingAllowanceToMarket allowanceToMarket c.amount)
    else return (⟨underlying, beforeBalance, s.offered c.vToken⟩, { s with world := w })

/-- `withdraw` up to its call of `redeem`, with which it offers its vTokens. -/
def withdrawIn (c : Call adapter) (s : State R) : Except (Error ρ) (Kept × State R) := do
  let underlying ← checkedUnderlying P adapter c s.world
  let beforeUnderlying := s.balance underlying adapter
  let allowanceFromCaller := s.allowance c.vToken c.sender adapter
  if allowanceFromCaller < c.amount then
    .error (.InsufficientVTokenAllowanceFromCaller allowanceFromCaller c.amount)
  else do
    let w ← orRevert .Token
      (s.world.transferFrom P.toTokens c.vToken adapter c.sender adapter c.amount)
    return (⟨underlying, beforeUnderlying, s.offered c.vToken⟩,
      { world := w
        offered := Function.update s.offered c.vToken (s.offered c.vToken + c.amount) })

/-- Pass on what there is more of a token than before. -/
def passOn (c : Call adapter) (token : Address) (before : Nat) (zeroOutput : Error ρ)
    (w : World Address R) : Except (Error ρ) (Nat × World Address R) :=
  let after := (w.books token).balance adapter
  if after < before then .error (.Panic 0x11)
  else if after - before = 0 then .error zeroOutput
  else do
    let w ← orRevert .Token (w.transfer P.toTokens token adapter c.sender (after - before))
    return (after - before, w)

/-- `supply` from the answer of `mint` on. -/
def supplyOut (c : Call adapter) (k : Kept) (s : State R) :
    Except (Error ρ) (Nat × State R) := do
  let errorCode ← orRevert .ReturnData (P.returned s.world.rest)
  if errorCode ≠ 0 then .error (.VenusMintFailed errorCode)
  else do
    let w ← orRevert .Token (s.world.forceApprove P.toTokens k.underlying adapter c.vToken 0)
    let (mintedAmount, w) ← passOn P adapter c c.vToken k.before .ZeroMintOutput w
    return (mintedAmount, { s with world := w })

/-- `withdraw` from the answer of `redeem` on, when the offer is over. -/
def withdrawOut (c : Call adapter) (k : Kept) (s : State R) :
    Except (Error ρ) (Nat × State R) := do
  let errorCode ← orRevert .ReturnData (P.returned s.world.rest)
  if errorCode ≠ 0 then .error (.VenusRedeemFailed errorCode)
  else do
    let (underlyingOut, w) ← passOn P adapter c k.underlying k.before .ZeroRedeemOutput s.world
    return (underlyingOut,
      { world := w
        offered := Function.update s.offered c.vToken (min k.offered (s.offered c.vToken)) })

/-- `supply`. -/
def supply (c : Call adapter) : Code (State R) Message ρ (Error ρ) Nat :=
  .around (supplyIn P adapter c) (fun _ => .mint c.vToken c.amount) .Market
    (supplyOut P adapter c)

/-- `withdraw`. -/
def withdraw (c : Call adapter) : Code (State R) Message ρ (Error ρ) Nat :=
  .around (withdrawIn P adapter c) (fun _ => .redeem c.vToken c.amount) .Market
    (withdrawOut P adapter c)

/-- A step of somebody else: on the books, or a market that burns what it was offered. -/
inductive Step (R : Type) : Type where
  | books (m : Move Address R)
  | burn (vToken : Address) (amount : Nat)

def State.step (s : State R) : Step R → State R
  | .books m => { s with world := s.world.move P.toTokens adapter m }
  | .burn vToken amount =>
      if amount ≤ s.offered vToken ∧ amount ≤ s.balance vToken adapter then
        { world := s.world.write vToken ((s.world.books vToken).debit adapter amount)
            s.world.rest
          offered := Function.update s.offered vToken (s.offered vToken - amount) }
      else s

def Call.code {adapter : Address} (c : Call adapter) :
    Code (State R) Message ρ (Error ρ) Nat :=
  match c.entry with
  | .supply => supply P adapter c
  | .withdraw => withdraw P adapter c

/-- The adapter among all other code. -/
def machine : Machine (State R) Message ρ (Error ρ) Nat (Call adapter) (Step R) where
  body c := c.code P
  move d s := s.step P adapter d
  view s := s

/-! ## What one stretch of code does -/

/-- The token that is taken from the caller. -/
def Call.pulled {adapter : Address} (c : Call adapter) (underlying : Address) : Address :=
  match c.entry with
  | .supply => underlying
  | .withdraw => c.vToken

/-- The token that is paid out to it. -/
def Call.paid {adapter : Address} (c : Call adapter) (underlying : Address) : Address :=
  match c.entry with
  | .supply => c.vToken
  | .withdraw => underlying

def Call.message {adapter : Address} (c : Call adapter) : Message :=
  match c.entry with
  | .supply => .mint c.vToken c.amount
  | .withdraw => .redeem c.vToken c.amount

variable {P adapter}

/-- What is true when the market is called. -/
structure PaidIn (P : Chain R) (c : Call adapter) (token : Address) (s u : State R)
    (d : Delivery c.amount) : Prop where
  delivery : ∃ r, P.delivery s.world.rest token (s.world.books token) adapter c.sender adapter
    c.amount = some (d, r)
  adapterPaid : u.balance token adapter = s.balance token adapter + d.given
  callerPaid : u.balance token c.sender + d.taken = s.balance token c.sender

/-- What passing on has done. -/
structure PassedOn (c : Call adapter) (token : Address) (before : Nat) (v t : World Address R) :
    Prop where
  enough : before ≤ (v.books token).balance adapter
  kept : (t.books token).balance adapter = before
  caller : (t.books token).balance c.sender + before
    = (v.books token).balance c.sender + (v.books token).balance adapter
  allowance : (t.books token).allowance = (v.books token).allowance
  others : ∀ other, other ≠ token → t.books other = v.books other

theorem checkedUnderlying_ok {c : Call adapter} {w : World Address R} {underlying : Address}
    (h : checkedUnderlying P adapter c w = (.ok underlying : Except (Error ρ) _)) :
    P.underlying w.rest c.vToken = some underlying := by
  rw [checkedUnderlying] at h
  split_ifs at h
  cases hu : P.underlying w.rest c.vToken with
  | none => rw [hu] at h; exact nomatch h
  | some a =>
      rw [hu] at h
      dsimp only at h
      split_ifs at h
      obtain rfl : a = underlying := by simpa using h
      rfl

theorem passedOn_of_passOn {c : Call adapter} {token : Address} {before n : Nat}
    {zeroOutput : Error ρ} {v t : World Address R}
    (h : passOn P adapter c token before zeroOutput v = .ok (n, t)) :
    PassedOn c token before v t := by
  rw [passOn] at h
  split_ifs at h
  obtain ⟨w, hw, h⟩ := ok_of_bind h
  obtain ⟨_, rfl⟩ : (v.books token).balance adapter - before = n ∧ w = t := by
    simpa [pure, Except.pure] using h
  have hsent := sent_of_transfer (of_orRevert_ok hw)
  obtain ⟨hfrom, hto⟩ := hsent.balance (Ne.symm c.sender_ne)
  refine ⟨?_, ?_, ?_, hsent.allowance, hsent.others⟩
  · omega
  · omega
  · omega

/-- The allowances of the adapter are not touched when it pulls a token. -/
theorem allowance_of_delivered {c : Call adapter} {token : Address} {s u : World Address R}
    {d : Delivery c.amount} (h : Delivered s u token adapter c.sender adapter c.amount d)
    (other a : Address) :
    (u.books other).allowance adapter a = (s.books other).allowance adapter a := by
  by_cases ht : other = token
  · rw [ht, h.book, Book.allowance_credit, Book.allowance_debit]
    exact Book.allowance_spend_of_ne _ _ (fun hc => c.sender_ne hc.1.symm)
  · rw [h.others other ht]

theorem paidIn_of_supplyIn {c : Call adapter} {s u : State R} {k : Kept}
    (h : supplyIn P adapter c s = (.ok (k, u) : Except (Error ρ) _)) :
    P.underlying s.world.rest c.vToken = some k.underlying
      ∧ k.before = s.balance c.vToken adapter
      ∧ (∃ d, PaidIn P c k.underlying s u d)
      ∧ ∀ token a, (token = k.underlying ∧ a = c.vToken)
        ∨ u.allowance token adapter a = s.allowance token adapter a := by
  rw [supplyIn] at h
  obtain ⟨underlying, hu, h⟩ := ok_of_bind h
  dsimp only at h
  split_ifs at h
  obtain ⟨w, hw, h⟩ := ok_of_bind h
  obtain ⟨w', hw', h⟩ := ok_of_bind h
  split_ifs at h
  obtain ⟨rfl, rfl⟩ : (⟨underlying, s.balance c.vToken adapter, s.offered c.vToken⟩ : Kept) = k
      ∧ { s with world := w' } = u := by simpa [pure, Except.pure] using h
  obtain ⟨d, r, hd, _, hin⟩ := delivered_of_transferFrom (of_orRevert_ok hw)
  have happ := approved_of_forceApprove (of_orRevert_ok hw')
  obtain ⟨hfrom, hto⟩ := hin.balance c.sender_ne
  refine ⟨checkedUnderlying_ok hu, rfl, ⟨d, ⟨r, hd⟩, ?_, ?_⟩, ?_⟩
  · show (w'.books underlying).balance adapter = _
    rw [happ.balance, hto]
    rfl
  · show (w'.books underlying).balance c.sender + _ = _
    rw [happ.balance, hfrom]
    rfl
  · intro token a
    -- the one allowance that changes is the one that `forceApprove` sets
    by_cases hta : token = underlying ∧ a = c.vToken
    · exact Or.inl hta
    · refine Or.inr ?_
      show (w'.books token).allowance adapter a = (s.world.books token).allowance adapter a
      rw [← allowance_of_delivered hin]
      by_cases ht : token = underlying
      · rw [ht, happ.allowance, if_neg (fun hc => hta ⟨ht, hc.2⟩)]
      · rw [happ.others token ht]

theorem paidIn_of_withdrawIn {c : Call adapter} {s u : State R} {k : Kept}
    (h : withdrawIn P adapter c s = (.ok (k, u) : Except (Error ρ) _)) :
    P.underlying s.world.rest c.vToken = some k.underlying
      ∧ k.before = s.balance k.underlying adapter
      ∧ (∃ d, PaidIn P c c.vToken s u d)
      ∧ ∀ token a, u.allowance token adapter a = s.allowance token adapter a := by
  rw [withdrawIn] at h
  obtain ⟨underlying, hu, h⟩ := ok_of_bind h
  dsimp only at h
  split_ifs at h
  obtain ⟨w, hw, h⟩ := ok_of_bind h
  simp only [pure, Except.pure, Except.ok.injEq, Prod.mk.injEq] at h
  obtain ⟨rfl, rfl⟩ := h
  obtain ⟨d, r, hd, _, hin⟩ := delivered_of_transferFrom (of_orRevert_ok hw)
  obtain ⟨hfrom, hto⟩ := hin.balance c.sender_ne
  exact ⟨checkedUnderlying_ok hu, rfl, ⟨d, ⟨r, hd⟩, hto, hfrom⟩, allowance_of_delivered hin⟩

theorem passedOn_of_supplyOut {c : Call adapter} {k : Kept} {v t : State R} {n : Nat}
    (h : supplyOut P adapter c k v = (.ok (n, t) : Except (Error ρ) _)) :
    ∃ w, Approved v.world w k.underlying adapter c.vToken 0
      ∧ PassedOn c c.vToken k.before w t.world := by
  rw [supplyOut] at h
  obtain ⟨errorCode, _, h⟩ := ok_of_bind h
  split_ifs at h
  obtain ⟨w, hw, h⟩ := ok_of_bind h
  obtain ⟨⟨m, w'⟩, hw', h⟩ := ok_of_bind h
  obtain ⟨_, rfl⟩ : m = n ∧ { v with world := w' } = t := by simpa [pure, Except.pure] using h
  exact ⟨w, approved_of_forceApprove (of_orRevert_ok hw), passedOn_of_passOn hw'⟩

theorem passedOn_of_withdrawOut {c : Call adapter} {k : Kept} {v t : State R} {n : Nat}
    (h : withdrawOut P adapter c k v = (.ok (n, t) : Except (Error ρ) _)) :
    PassedOn c k.underlying k.before v.world t.world := by
  rw [withdrawOut] at h
  obtain ⟨errorCode, _, h⟩ := ok_of_bind h
  split_ifs at h
  obtain ⟨⟨m, w'⟩, hw', h⟩ := ok_of_bind h
  simp only [pure, Except.pure, Except.ok.injEq, Prod.mk.injEq] at h
  obtain ⟨_, rfl⟩ := h
  exact passedOn_of_passOn hw'

/-- `supply` takes back the allowance it gave. -/
theorem allowance_of_supplyOut {c : Call adapter} {k : Kept} {v t : State R} {n : Nat}
    (h : supplyOut P adapter c k v = (.ok (n, t) : Except (Error ρ) _)) (other a : Address) :
    t.allowance other adapter a
      = if other = k.underlying ∧ a = c.vToken then 0 else v.allowance other adapter a := by
  obtain ⟨w, happ, hpassed⟩ := passedOn_of_supplyOut h
  have htw : (t.world.books other).allowance = (w.books other).allowance := by
    by_cases ho : other = c.vToken
    · rw [ho, hpassed.allowance]
    · rw [hpassed.others other ho]
  show (t.world.books other).allowance adapter a = _
  rw [htw]
  by_cases ho : other = k.underlying
  · rw [ho, happ.allowance]
    simp only [true_and]
    rfl
  · rw [happ.others other ho, if_neg (fun h' => ho h'.1)]
    rfl

theorem allowance_of_withdrawOut {c : Call adapter} {k : Kept} {v t : State R} {n : Nat}
    (h : withdrawOut P adapter c k v = (.ok (n, t) : Except (Error ρ) _)) (other a : Address) :
    t.allowance other adapter a = v.allowance other adapter a := by
  have hpassed := passedOn_of_withdrawOut h
  show (t.world.books other).allowance adapter a = (v.world.books other).allowance adapter a
  by_cases ho : other = k.underlying
  · rw [ho, hpassed.allowance]
  · rw [hpassed.others other ho]

/-! ## The whole call -/

/-- Nothing is left behind, and nothing that lay on the adapter was spent.  `v` is the state
    in which the market returned. -/
structure LeavesNothing (c : Call adapter) (underlying : Address) (s v t : State R) : Prop where
  balance : ∀ token ∈ [underlying, c.vToken], t.balance token adapter = s.balance token adapter
  unspent : ∀ token ∈ [underlying, c.vToken], s.balance token adapter ≤ v.balance token adapter
  toCaller : ∀ token ∈ [underlying, c.vToken], t.balance token c.sender + s.balance token adapter
    = v.balance token c.sender + v.balance token adapter
  allowance : t.allowance underlying adapter c.vToken = 0

/-- The market takes of the adapter what the caller's transfer delivered to it, unless what it
    takes and what it pays are one token. -/
def TakesDelivery (c : Call adapter) (underlying : Address) (u v : State R)
    (d : Delivery c.amount) : Prop :=
  c.vToken = underlying
    ∨ (u.balance (c.pulled underlying) adapter : Int) - v.balance (c.pulled underlying) adapter
      = d.given

/-- What every call that succeeds does with the token it pays out, and with all others. -/
structure Settled (c : Call adapter) (underlying : Address) (s v t : State R) : Prop where
  enough : s.balance (c.paid underlying) adapter ≤ v.balance (c.paid underlying) adapter
  kept : t.balance (c.paid underlying) adapter = s.balance (c.paid underlying) adapter
  caller : t.balance (c.paid underlying) c.sender + s.balance (c.paid underlying) adapter
    = v.balance (c.paid underlying) c.sender + v.balance (c.paid underlying) adapter
  others : ∀ token, token ≠ c.paid underlying → ∀ a, t.balance token a = v.balance token a

theorem pulled_and_paid (c : Call adapter) (underlying : Address) :
    (c.pulled underlying = underlying ∧ c.paid underlying = c.vToken)
      ∨ (c.pulled underlying = c.vToken ∧ c.paid underlying = underlying) := by
  rw [Call.pulled, Call.paid]
  cases c.entry with
  | supply => exact Or.inl ⟨rfl, rfl⟩
  | withdraw => exact Or.inr ⟨rfl, rfl⟩

theorem mem_tokens_iff (c : Call adapter) (underlying token : Address) :
    token ∈ [underlying, c.vToken]
      ↔ token = c.pulled underlying ∨ token = c.paid underlying := by
  rw [List.mem_cons, List.mem_singleton]
  rcases pulled_and_paid c underlying with ⟨h, h'⟩ | ⟨h, h'⟩
  · rw [h, h']
  · rw [h, h', or_comm]

/-- The token that was pulled is the one nobody looks at: what the market leaves of it, or
    takes beyond it, decides. -/
theorem leavesNothing_iff_of_settled {c : Call adapter} {underlying : Address}
    {s u v t : State R} {d : Delivery c.amount} (hin : PaidIn P c (c.pulled underlying) s u d)
    (h : Settled c underlying s v t) :
    LeavesNothing c underlying s v t ↔ TakesDelivery c underlying u v d
      ∧ t.allowance underlying adapter c.vToken = 0 := by
  have hpaid := hin.adapterPaid
  have hsame : c.vToken = underlying ↔ c.pulled underlying = c.paid underlying := by
    rcases pulled_and_paid c underlying with ⟨h, h'⟩ | ⟨h, h'⟩
    · rw [h, h']
      exact eq_comm
    · rw [h, h']
  constructor
  · intro hl
    refine ⟨?_, hl.allowance⟩
    rw [TakesDelivery, hsame]
    by_cases hp : c.pulled underlying = c.paid underlying
    · exact Or.inl hp
    · refine Or.inr ?_
      have hbal := hl.balance (c.pulled underlying) ((mem_tokens_iff ..).mpr (Or.inl rfl))
      have hother := h.others _ hp adapter
      omega
  · rintro ⟨htakes, hallow⟩
    -- of the token that was pulled there is as much as before
    have hpulled : c.pulled underlying = c.paid underlying
        ∨ v.balance (c.pulled underlying) adapter = s.balance (c.pulled underlying) adapter := by
      rw [TakesDelivery, hsame] at htakes
      rcases htakes with hp | hd
      · exact Or.inl hp
      · refine Or.inr ?_
        omega
    have hcases : ∀ token ∈ [underlying, c.vToken], token = c.paid underlying
        ∨ (token ≠ c.paid underlying ∧ v.balance token adapter = s.balance token adapter) := by
      intro token ht
      by_cases hp : token = c.paid underlying
      · exact Or.inl hp
      · rcases (mem_tokens_iff ..).mp ht with rfl | h'
        · exact Or.inr ⟨hp, hpulled.resolve_left hp⟩
        · exact absurd h' hp
    refine ⟨?_, ?_, ?_, hallow⟩
    · intro token ht
      rcases hcases token ht with rfl | ⟨hp, hv⟩
      · exact h.kept
      · rw [h.others token hp, hv]
    · intro token ht
      rcases hcases token ht with rfl | ⟨hp, hv⟩
      · exact h.enough
      · exact Nat.le_of_eq hv.symm
    · intro token ht
      rcases hcases token ht with rfl | ⟨hp, hv⟩
      · exact h.caller
      · rw [h.others token hp, hv]

/-- What a call that succeeds does between its beginning in `s`, the call of the market in
    `u`, the market's return in `v`, and its end. -/
structure Passed (P : Chain R) (c : Call adapter) (token : Address) (s u v t : State R) :
    Prop where
  underlying : P.underlying s.world.rest c.vToken = some token
  paidIn : ∃ d, PaidIn P c (c.pulled token) s u d
  settled : Settled c token s v t
  handedOut : ∀ other a, (c.entry = .supply ∧ other = token ∧ a = c.vToken)
    ∨ u.allowance other adapter a = s.allowance other adapter a
  takenBack : ∀ other a, t.allowance other adapter a
    = if c.entry = .supply ∧ other = token ∧ a = c.vToken then 0
      else v.allowance other adapter a

theorem settled_of_passedOn {c : Call adapter} {token : Address} {s v t : State R}
    (before : Nat) (w : World Address R)
    (hbefore : before = s.balance (c.paid token) adapter)
    (hsame : ∀ other, (w.books other).balance = (v.world.books other).balance)
    (h : PassedOn c (c.paid token) before w t.world) : Settled c token s v t := by
  have henough := h.enough
  have hcaller := h.caller
  rw [hsame] at henough hcaller
  rw [hbefore] at henough hcaller
  refine ⟨henough, ?_, hcaller, ?_⟩
  · rw [← hbefore]
    exact h.kept
  · intro other ho a
    show (t.world.books other).balance a = (v.world.books other).balance a
    rw [h.others other ho, hsame]

theorem passed_of_supply {c : Call adapter} (hc : c.entry = .supply)
    {O : Nat → Message → State R → Except ρ (State R)} {s t : State R} {n : Nat}
    (h : (supply P adapter c s).exec O 0 = .ok (n, t)) :
    ∃ token u v, (supply P adapter c s : Prog _ _ ρ _ _).callouts O 0 = [(0, c.message, u)]
      ∧ O 0 c.message u = .ok v ∧ Passed P c token s u v t := by
  have hmessage : c.message = .mint c.vToken c.amount := by rw [Call.message, hc]
  have hpulled : ∀ a, c.pulled a = a := fun a => by rw [Call.pulled, hc]
  have hpaid : ∀ a, c.paid a = c.vToken := fun a => by rw [Call.paid, hc]
  obtain ⟨k, u, v, hbefore, hrun, hafter⟩ := (Code.exec_around ..).mp h
  obtain ⟨hu, hk, hin, hallow⟩ := paidIn_of_supplyIn hbefore
  obtain ⟨w, happ, hpassed⟩ := passedOn_of_supplyOut hafter
  rw [← hmessage] at hrun
  refine ⟨k.underlying, u, v, ?_, hrun, hu, ?_, ?_, ?_, ?_⟩
  · rw [hmessage]
    exact Code.callouts_around _ _ hbefore
  · rw [hpulled]
    exact hin
  · refine settled_of_passedOn k.before w ?_ ?_ ?_
    · rw [hpaid, hk]
    · intro other
      by_cases ho : other = k.underlying
      · rw [ho, happ.balance]
      · rw [happ.others other ho]
    · rw [hpaid]
      exact hpassed
  · intro other a
    rcases hallow other a with h' | h'
    · exact Or.inl ⟨hc, h'⟩
    · exact Or.inr h'
  · intro other a
    rw [allowance_of_supplyOut hafter]
    simp only [hc, true_and]

theorem passed_of_withdraw {c : Call adapter} (hc : c.entry = .withdraw)
    {O : Nat → Message → State R → Except ρ (State R)} {s t : State R} {n : Nat}
    (h : (withdraw P adapter c s).exec O 0 = .ok (n, t)) :
    ∃ token u v, (withdraw P adapter c s : Prog _ _ ρ _ _).callouts O 0 = [(0, c.message, u)]
      ∧ O 0 c.message u = .ok v ∧ Passed P c token s u v t := by
  have hmessage : c.message = .redeem c.vToken c.amount := by rw [Call.message, hc]
  have hpulled : ∀ a, c.pulled a = c.vToken := fun a => by rw [Call.pulled, hc]
  have hpaid : ∀ a, c.paid a = a := fun a => by rw [Call.paid, hc]
  have hentry : ¬c.entry = .supply := by rw [hc]; decide
  obtain ⟨k, u, v, hbefore, hrun, hafter⟩ := (Code.exec_around ..).mp h
  obtain ⟨hu, hk, hin, hallow⟩ := paidIn_of_withdrawIn hbefore
  have hpassed := passedOn_of_withdrawOut hafter
  rw [← hmessage] at hrun
  refine ⟨k.underlying, u, v, ?_, hrun, hu, ?_, ?_, ?_, ?_⟩
  · rw [hmessage]
    exact Code.callouts_around _ _ hbefore
  · rw [hpulled]
    exact hin
  · -- a withdrawal pays out the token that it asked for
    refine settled_of_passedOn k.before v.world ?_ (fun _ => rfl) ?_
    · rw [hpaid, hk]
    · rw [hpaid]
      exact hpassed
  · intro other a
    exact Or.inr (hallow other a)
  · intro other a
    rw [if_neg (fun h' => hentry h'.1)]
    exact allowance_of_withdrawOut hafter other a

/-- **What a call does.**  One case for each of the two functions. -/
theorem passed_of_code {c : Call adapter} {O : Nat → Message → State R → Except ρ (State R)}
    {s t : State R} {n : Nat} (h : (c.code P s).exec O 0 = .ok (n, t)) :
    ∃ token u v, (c.code P s : Prog _ _ ρ _ _).callouts O 0 = [(0, c.message, u)]
      ∧ O 0 c.message u = .ok v ∧ Passed P c token s u v t := by
  rw [Call.code] at h ⊢
  cases hc : c.entry with
  | supply =>
      rw [hc] at h
      exact passed_of_supply hc h
  | withdraw =>
      rw [hc] at h
      exact passed_of_withdraw hc h

/-- No allowance that the adapter has given is larger after a step than before. -/
theorem allowance_step_le (P : Chain R) (s : State R) (d : Step R) (other a : Address) :
    (s.step P adapter d).allowance other adapter a ≤ s.allowance other adapter a := by
  cases d with
  | books m =>
      obtain ⟨token, p, n, h⟩ : ∃ token p n,
          Touches adapter s.world (s.world.move P.toTokens adapter m) token p n :=
        touches_move P.toTokens s.world m
      exact h.allowance_le other a
  | burn vToken amount =>
      rw [State.step]
      split
      · show ((s.world.write _ _ _).books other).allowance adapter a ≤ _
        by_cases ho : other = vToken
        · rw [ho, World.books_write_self, Book.allowance_debit]
          exact Nat.le_refl _
        · rw [World.books_write_of_ne _ ho]
          exact Nat.le_refl _
      · exact Nat.le_refl _

/-- What the adapter's allowances do over any stretch of a run: none grows. -/
def allowanceContract (P : Chain R) (adapter : Address) :
    Contract (machine P adapter (ρ := ρ)) (fun _ _ => True) where
  inv := fun _ => True
  rel s t := ∀ other a, t.allowance other adapter a ≤ s.allowance other adapter a
  mono := fun _ _ => True
  rel_refl := fun _ _ _ => Nat.le_refl _
  rel_trans := fun h h' other a => Nat.le_trans (h' other a) (h other a)
  mono_refl := fun _ => trivial
  mono_trans := fun _ _ => trivial
  move := fun d s _ => ⟨trivial, allowance_step_le P s d, trivial⟩
  body := by
    intro c s _ _
    show (c.code P s).wp _ _ _ s
    rw [Call.code]
    cases c.entry with
    | supply =>
        refine Code.wp_around (fun _ _ _ => ⟨trivial, trivial⟩) ?_
        rintro k u v n t hbefore ⟨_, huv, _⟩ hafter
        obtain ⟨_, _, _, hallow⟩ := paidIn_of_supplyIn hbefore
        refine ⟨⟨trivial, fun other a => ?_⟩, trivial⟩
        rw [allowance_of_supplyOut hafter]
        split
        · exact Nat.zero_le _
        · rename_i hne
          rw [← (hallow other a).resolve_left hne]
          exact huv other a
    | withdraw =>
        refine Code.wp_around (fun _ _ _ => ⟨trivial, trivial⟩) ?_
        rintro k u v n t hbefore ⟨_, huv, _⟩ hafter
        obtain ⟨_, _, _, hallow⟩ := paidIn_of_withdrawIn hbefore
        refine ⟨⟨trivial, fun other a => ?_⟩, trivial⟩
        rw [allowance_of_withdrawOut hafter, ← hallow]
        exact huv other a

/-- **When a call leaves nothing behind.**  `supply` does exactly if the market takes the
    underlying that was delivered; `withdraw` exactly if it burns the vTokens that were and
    has no allowance when it returns, as it has not if it had none before. -/
theorem leavesNothing_iff (P : Chain R) (adapter : Address) (c : Call adapter)
    (outs : Nat → Message → Script (State R) Message ρ (Error ρ) Nat (Call adapter) (Step R))
    {s t : State R} {n : Nat} (h : (machine P adapter).invoke c outs s = .ok (n, t)) :
    ∃ underlying d u v, P.underlying s.world.rest c.vToken = some underlying
      ∧ (machine P adapter).handovers c outs s = [(0, c.message, u)]
      ∧ (machine P adapter).run (outs 0 c.message) u = .ok v
      ∧ PaidIn P c (c.pulled underlying) s u d
      ∧ (LeavesNothing c underlying s v t ↔ TakesDelivery c underlying u v d
        ∧ (c.entry = .withdraw → v.allowance underlying adapter c.vToken = 0))
      ∧ (c.entry = .withdraw → v.allowance underlying adapter c.vToken
        ≤ s.allowance underlying adapter c.vToken) := by
  obtain ⟨underlying, u, v, hhand, hrun, hpassed⟩ := passed_of_code h
  obtain ⟨d, hin⟩ := hpassed.paidIn
  refine ⟨underlying, d, u, v, hpassed.underlying, hhand, hrun, hin, ?_, ?_⟩
  · rw [leavesNothing_iff_of_settled hin hpassed.settled, hpassed.takenBack]
    cases c.entry with
    | supply => simp
    | withdraw => simp
  · intro hc
    -- during the call the adapter cannot be made to approve more
    have huv := ((allowanceContract P adapter).sound (outs 0 c.message) u trivial
      (fun _ _ _ => trivial)).result v hrun
    have hsame := (hpassed.handedOut underlying c.vToken).resolve_left
      (fun h' => by rw [hc] at h'; exact nomatch h'.1)
    rw [← hsame]
    exact huv.2.1 underlying c.vToken

/-! ## A market that mints for sixty of a hundred -/

namespace Small

/-- Tokens without fees; the market is token 2, with token 1 as underlying. -/
def chain : Chain Nat where
  delivery r _ _ _ _ _ amount := some (⟨amount, amount, Nat.le_refl _, Nat.le_refl _⟩, r)
  transfers r _ _ _ _ _ := some r
  approves r _ _ _ _ _ := some r
  underlying _ _ := some 1
  returned r := some r

/-- Five coins of the underlying lie on the adapter `0xA`. -/
def state : State Nat where
  world :=
    { books := fun token =>
        { balance := fun a => if a = 0xA then if token = 1 then 5 else 0 else 1000
          allowance := fun o p => if o ≠ 0xA ∧ p = 0xA then 1000 else 0 }
      rest := 0 }
  offered _ := 0

def call (entry : Entry) : Call 0xA where
  entry := entry
  sender := 0xC
  sender_ne := by decide
  vToken := 2
  amount := 100

/-- In `mint` the market takes some of the underlying and credits as many vTokens. -/
def minting (taken : Nat) : Nat → Message → Script (State Nat) Message Unit (Error Unit) Nat
    (Call 0xA) (Step Nat) :=
  fun _ _ => .act (.books (.transferFrom 1 2 0xA 2 taken))
    (.act (.books (.credit 2 0xA taken)) .done)

end Small

theorem leavesNothing_iff_full : ∃ t u v d,
    (machine Small.chain 0xA).invoke (Small.call .supply) (Small.minting 100) Small.state
        = .ok (100, t)
      ∧ (LeavesNothing (Small.call .supply) 1 Small.state v t
        ↔ TakesDelivery (Small.call .supply) 1 u v d
          ∧ ((Small.call .supply).entry = .withdraw → v.allowance 1 0xA 2 = 0))
      ∧ t.balance 1 0xA = 5 := by
  have hrun : (machine Small.chain 0xA).invokesTo (Small.call .supply) (Small.minting 100)
      Small.state (fun n t => n == 100 && t.balance 1 0xA == 5) = true := by decide
  obtain ⟨n, t, h, htest⟩ := (Machine.invokesTo_iff ..).mp hrun
  obtain ⟨rfl, hbal⟩ : n = 100 ∧ t.balance 1 0xA = 5 := by simpa using htest
  obtain ⟨a, d, u, v, ha, _, _, _, hiff, _⟩ :=
    leavesNothing_iff Small.chain 0xA (Small.call .supply) (Small.minting 100) h
  obtain rfl : 1 = a := by simpa [Small.chain] using ha
  exact ⟨t, u, v, d, h, hiff, hbal⟩

/-- The market takes sixty; forty stay on the adapter. -/
theorem not_leavesNothing_partial : ∃ t,
    (machine Small.chain 0xA).invoke (Small.call .supply) (Small.minting 60) Small.state
        = .ok (60, t)
      ∧ ∀ v, ¬LeavesNothing (Small.call .supply) 1 Small.state v t := by
  have hrun : (machine Small.chain 0xA).invokesTo (Small.call .supply) (Small.minting 60)
      Small.state (fun n t => n == 60 && t.balance 1 0xA == 45) = true := by decide
  obtain ⟨n, t, h, htest⟩ := (Machine.invokesTo_iff ..).mp hrun
  obtain ⟨rfl, hbal⟩ : n = 60 ∧ t.balance 1 0xA = 45 := by simpa using htest
  refine ⟨t, h, ?_⟩
  intro v hl
  have hsame := hl.balance 1 (by decide)
  rw [hbal] at hsame
  exact absurd hsame (by decide)

end VenusAdapter
