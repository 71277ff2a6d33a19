import MandatedVaultFactory.TokenBooksProofs
import MandatedVaultFactory.VaultStateProofs

/-!
# The PancakeSwap adapter conserves the token it swaps

`PancakeSwapV3Adapter.swap` pulls `tokenIn` from its caller, lets the router take it, and
gives back what the router left, as the difference of two balances.  Between the two the
router has control and may do what it likes, swap on the same adapter included.

* **`swap`** — the code, over token books.
* **`swap_conserves`** — after a swap the adapter holds what it held before, the router has
  no allowance left, and the caller paid what the router kept.
* **`adapterContract`** — what lies on the adapter is out of everybody's reach, at any depth
  of swaps within swaps. -/

namespace PancakeSwapV3Adapter

open CallTree TokenBooks
open Vault (Address)

variable {R ρ : Type}

structure ExactInputSingleParams where
  tokenIn : Address
  tokenOut : Address
  fee : BitVec 24
  recipient : Address
  deadline : Nat
  amountIn : Nat
  amountOutMinimum : Nat
  sqrtPriceLimitX96 : Nat
  deriving DecidableEq

/-- The errors of the adapter, `Panic` being the compiler's.  `Token` is a token call that
    failed, `Router` carries what the router reverted with, `ReturnData` is an answer of the
    router that is no number. -/
inductive Error (ρ : Type) where
  | ZeroAddressToken
  | IdenticalTokenPair
  | ZeroAmount
  | ZeroFee
  | DeadlineExpired (deadline currentTimestamp : Nat)
  | Panic (code : Nat)
  | Token
  | Router (data : ρ)
  | ReturnData

/-- What the adapter sees of the chain: the tokens, the time of the block, and what the data
    last returned to it decodes to. -/
structure Chain (R : Type) extends Tokens Address R where
  timestamp : R → Nat
  returned : R → Option Nat

/-- A deployed adapter. -/
structure Adapter where
  address : Address
  router : Address
  router_ne : router ≠ 0

/-- A call of `swap`.  The adapter never calls itself. -/
structure Swap (A : Adapter) where
  sender : Address
  sender_ne : sender ≠ A.address
  tokenIn : Address
  tokenOut : Address
  fee : BitVec 24
  deadline : Nat
  amountIn : Nat
  amountOutMinimum : Nat

def Swap.params {A : Adapter} (c : Swap A) : ExactInputSingleParams where
  tokenIn := c.tokenIn
  tokenOut := c.tokenOut
  fee := c.fee
  recipient := c.sender
  deadline := c.deadline
  amountIn := c.amountIn
  amountOutMinimum := c.amountOutMinimum
  sqrtPriceLimitX96 := 0

variable (P : Chain R) (A : Adapter)

/-- `swap` up to its call of the router; what it keeps is `balanceBefore`. -/
def swapIn (c : Swap A) (w : World Address R) : Except (Error ρ) (Nat × World Address R) :=
  if c.tokenIn = 0 ∨ c.tokenOut = 0 then .error .ZeroAddressToken
  else if c.tokenIn = c.tokenOut then .error .IdenticalTokenPair
  else if c.amountIn = 0 then .error .ZeroAmount
  else if c.fee = 0 then .error .ZeroFee
  else if c.deadline < P.timestamp w.rest then
    .error (.DeadlineExpired c.deadline (P.timestamp w.rest))
  else do
    let balanceBefore := (w.books c.tokenIn).balance A.address
    let w ← orRevert .Token (w.transferFrom P.toTokens c.tokenIn A.address c.sender A.address c.amountIn)
    let w ← orRevert .Token (w.forceApprove P.toTokens c.tokenIn A.address A.router c.amountIn)
    return (balanceBefore, w)

/-- The last lines of `swap`: give back what the router left. -/
def giveBack (c : Swap A) (balanceBefore : Nat) (w : World Address R) :
    Except (Error ρ) (World Address R) :=
  let balanceAfter := (w.books c.tokenIn).balance A.address
  if balanceAfter < balanceBefore then .error (.Panic 0x11)
  else if 0 < balanceAfter - balanceBefore then
    orRevert .Token (w.transfer P.toTokens c.tokenIn A.address c.sender (balanceAfter - balanceBefore))
  else .ok w

/-- `swap` from the router's answer on. -/
def swapOut (c : Swap A) (balanceBefore : Nat) (w : World Address R) :
    Except (Error ρ) (Nat × World Address R) :=
  match P.returned w.rest with
  | none => .error .ReturnData
  | some amountOut => do
      let w ← orRevert .Token (w.forceApprove P.toTokens c.tokenIn A.address A.router 0)
      let w ← giveBack P A c balanceBefore w
      return (amountOut, w)

/-- `swap`. -/
def swap (c : Swap A) : Code (World Address R) ExactInputSingleParams ρ (Error ρ) Nat :=
  .around (swapIn P A c) (fun _ => c.params) .Router (swapOut P A c)

/-- The adapter among all other code. -/
def machine : Machine (World Address R) ExactInputSingleParams ρ (Error ρ) Nat (Swap A)
    (Move Address R) where
  body := swap P A
  move m w := w.move P.toTokens A.address m
  view w := w

/-! ## What one stretch of code does -/

variable {P A}

/-- What is true when the router is called. -/
structure PaidIn (c : Swap A) (s u : World Address R) (d : Delivery c.amountIn) : Prop where
  delivery : ∃ r, P.delivery s.rest c.tokenIn (s.books c.tokenIn) A.address c.sender A.address
    c.amountIn = some (d, r)
  adapter : (u.books c.tokenIn).balance A.address
    = (s.books c.tokenIn).balance A.address + d.given
  caller : (u.books c.tokenIn).balance c.sender + d.taken = (s.books c.tokenIn).balance c.sender
  allowance : ∀ a, (u.books c.tokenIn).allowance A.address a
    = if a = A.router then c.amountIn else (s.books c.tokenIn).allowance A.address a
  others : ∀ token, token ≠ c.tokenIn → u.books token = s.books token

/-- What the code after the router's return has done. -/
structure PaidOut (c : Swap A) (before : Nat) (v t : World Address R) : Prop where
  enough : before ≤ (v.books c.tokenIn).balance A.address
  adapter : (t.books c.tokenIn).balance A.address = before
  caller : (t.books c.tokenIn).balance c.sender + before
    = (v.books c.tokenIn).balance c.sender + (v.books c.tokenIn).balance A.address
  allowance : ∀ a, (t.books c.tokenIn).allowance A.address a
    = if a = A.router then 0 else (v.books c.tokenIn).allowance A.address a
  others : ∀ token, token ≠ c.tokenIn → t.books token = v.books token

theorem paidIn_of_swapIn {c : Swap A} {s u : World Address R} {before : Nat}
    (h : swapIn P A c s = (.ok (before, u) : Except (Error ρ) _)) :
    before = (s.books c.tokenIn).balance A.address ∧ ∃ d, PaidIn c s u d (P := P) := by
  rw [swapIn] at h
  split_ifs at h
  obtain ⟨w, hw, h⟩ := ok_of_bind h
  obtain ⟨v, hv, h⟩ := ok_of_bind h
  obtain ⟨rfl, rfl⟩ : (s.books c.tokenIn).balance A.address = before ∧ v = u := by
    simpa [pure, Except.pure] using h
  obtain ⟨d, r, hd, _, hin⟩ := delivered_of_transferFrom (of_orRevert_ok hw)
  have happ := approved_of_forceApprove (of_orRevert_ok hv)
  obtain ⟨hfrom, hto⟩ := hin.balance c.sender_ne
  refine ⟨rfl, d, ⟨r, hd⟩, ?_, ?_, ?_, ?_⟩
  · rw [happ.balance, hto]
  · rw [happ.balance, hfrom]
  · intro a
    have hsame : (w.books c.tokenIn).allowance A.address a
        = (s.books c.tokenIn).allowance A.address a := by
      rw [hin.book, Book.allowance_credit, Book.allowance_debit]
      exact Book.allowance_spend_of_ne _ _ (fun hc => c.sender_ne hc.1.symm)
    rw [happ.allowance, hsame]
    simp only [true_and]
  · intro token hne
    rw [happ.others token hne, hin.others token hne]

theorem paidOut_of_swapOut {c : Swap A} {v t : World Address R} {before amountOut : Nat}
    (h : swapOut P A c before v = (.ok (amountOut, t) : Except (Error ρ) _)) :
    P.returned v.rest = some amountOut ∧ PaidOut c before v t := by
  rw [swapOut] at h
  cases hr : P.returned v.rest with
  | none => rw [hr] at h; exact nomatch h
  | some n =>
      rw [hr] at h
      obtain ⟨w, hw, h⟩ := ok_of_bind h
      obtain ⟨w', hw', h⟩ := ok_of_bind h
      obtain ⟨rfl, rfl⟩ : n = amountOut ∧ w' = t := by simpa [pure, Except.pure] using h
      have happ := approved_of_forceApprove (of_orRevert_ok hw)
      -- `forceApprove` to zero takes away what the router did not use
      have hallow : ∀ a, (w.books c.tokenIn).allowance A.address a
          = if a = A.router then 0 else (v.books c.tokenIn).allowance A.address a := by
        intro a
        rw [happ.allowance]
        simp only [true_and]
      have hbal := congrFun happ.balance A.address
      have hcal := congrFun happ.balance c.sender
      rw [giveBack] at hw'
      split_ifs at hw' with hlt hpos
      · -- something is left, and goes back to the caller
        have hsent := sent_of_transfer (of_orRevert_ok hw')
        obtain ⟨hfrom, hto⟩ := hsent.balance (Ne.symm c.sender_ne)
        refine ⟨rfl, ?_, ?_, ?_, ?_, ?_⟩
        · omega
        · omega
        · omega
        · intro a
          rw [hsent.allowance]
          exact hallow a
        · intro token hne
          rw [hsent.others token hne, happ.others token hne]
      · -- nothing is left to give back
        obtain rfl : w = w' := by simpa using hw'
        refine ⟨rfl, ?_, ?_, ?_, hallow, happ.others⟩
        · omega
        · omega
        · omega

/-! ## The whole call -/

/-- What the router kept of the adapter's balance, between call and return. -/
def kept (c : Swap A) (u v : World Address R) : Int :=
  (u.books c.tokenIn).balance A.address - (v.books c.tokenIn).balance A.address

/-- What a swap owes.  `d` is the delivery from the caller, `u` the world handed to the router
    and `v` the one it returned. -/
structure Conserves (P : Chain R) (c : Swap A) (s u v t : World Address R)
    (d : Delivery c.amountIn) : Prop where
  delivery : ∃ r, P.delivery s.rest c.tokenIn (s.books c.tokenIn) A.address c.sender A.address
    c.amountIn = some (d, r)
  arrived : (u.books c.tokenIn).balance A.address
    = (s.books c.tokenIn).balance A.address + d.given
  adapter : (t.books c.tokenIn).balance A.address = (s.books c.tokenIn).balance A.address
  allowance : (t.books c.tokenIn).allowance A.address A.router = 0
  kept_le : kept c u v ≤ d.given
  caller : ((s.books c.tokenIn).balance c.sender : Int) - (t.books c.tokenIn).balance c.sender
    = d.taken - (d.given - kept c u v)
      + ((u.books c.tokenIn).balance c.sender - (v.books c.tokenIn).balance c.sender)

theorem conserves_of_paid {c : Swap A} {s u v t : World Address R} {d : Delivery c.amountIn}
    (hin : PaidIn c s u d (P := P)) (hout : PaidOut c ((s.books c.tokenIn).balance A.address) v t) :
    Conserves P c s u v t d := by
  have henough := hout.enough
  have hcaller := hout.caller
  have hadapter := hin.adapter
  have hpaid := hin.caller
  refine ⟨hin.delivery, hadapter, hout.adapter, ?_, ?_, ?_⟩
  · rw [hout.allowance, if_pos rfl]
  · rw [kept]
    omega
  · rw [kept]
    omega

theorem onlyAllows_of_paidIn {c : Swap A} {s u : World Address R} {d : Delivery c.amountIn}
    (hs : s.OnlyAllows A.address A.router) (hin : PaidIn c s u d (P := P)) :
    u.OnlyAllows A.address A.router := by
  intro token a ha
  by_cases ht : token = c.tokenIn
  · rw [ht, hin.allowance, if_neg ha]
    exact hs _ a ha
  · rw [hin.others token ht]
    exact hs token a ha

/-- Over a whole swap nothing gets into reach: the token that is swapped because its balance
    is restored and the allowance gone, the others because only the router's call touches
    them. -/
theorem respects_of_paid {c : Swap A} {s u v t : World Address R} {d : Delivery c.amountIn}
    (hin : PaidIn c s u d (P := P)) (huv : Respects A.address A.router u v)
    (hout : PaidOut c ((s.books c.tokenIn).balance A.address) v t) :
    Respects A.address A.router s t := by
  have hallow : ∀ a, (t.books c.tokenIn).allowance A.address a
      ≤ (s.books c.tokenIn).allowance A.address a := by
    intro a
    rw [hout.allowance]
    split
    · exact Nat.zero_le _
    · rename_i ha
      have h := huv.allowance c.tokenIn a
      rw [hin.allowance, if_neg ha] at h
      exact h
  refine ⟨?_, ?_⟩
  · intro token a
    by_cases ht : token = c.tokenIn
    · rw [ht]
      exact hallow a
    · have h := huv.allowance token a
      rw [hin.others token ht] at h
      rw [hout.others token ht]
      exact h
  · intro token
    by_cases ht : token = c.tokenIn
    · have hzero : (t.books c.tokenIn).allowance A.address A.router = 0 := by
        rw [hout.allowance, if_pos rfl]
      rw [ht, Book.floor_of_allowance_zero hzero, hout.adapter]
      exact Book.floor_le_balance ..
    · have h := huv.floor token
      rw [hin.others token ht] at h
      rw [hout.others token ht]
      exact h

/-- What lies on the adapter: only the router is ever given an allowance, and what the
    allowance does not cover is out of reach.  Swaps within swaps included. -/
def adapterContract (P : Chain R) (A : Adapter) :
    Contract (machine P A (ρ := ρ)) (fun _ _ => True) where
  inv s := s.OnlyAllows A.address A.router
  rel := Respects A.address A.router
  mono := fun _ _ => True
  rel_refl := Respects.refl
  rel_trans := Respects.trans
  mono_refl := fun _ => trivial
  mono_trans := fun _ _ => trivial
  move := by
    intro m s hs
    have h := respects_move P.toTokens hs m
    exact ⟨h.onlyAllows hs, h, trivial⟩
  body := by
    intro c s hs _
    refine Code.wp_around ?_ ?_
    · intro before u h
      obtain ⟨_, d, hin⟩ := paidIn_of_swapIn h
      exact ⟨onlyAllows_of_paidIn hs hin, trivial⟩
    · rintro before u v amountOut t h ⟨_, huv, _⟩ h'
      obtain ⟨rfl, d, hin⟩ := paidIn_of_swapIn h
      obtain ⟨_, hout⟩ := paidOut_of_swapOut h'
      have hst := respects_of_paid hin huv hout
      exact ⟨⟨hst.onlyAllows hs, hst⟩, trivial⟩

/-- **A swap conserves its token**, whatever the router does while it has control.  If it
    succeeds, it owes nothing; if the router leaves less than lay on the adapter before the
    call, it does not succeed; and whatever is done from here on, swaps within swaps
    included, nothing that lies out of the router's reach is spent. -/
theorem swap_conserves (P : Chain R) (A : Adapter) (c : Swap A)
    (outs : Nat → ExactInputSingleParams → Script (World Address R) ExactInputSingleParams ρ
      (Error ρ) Nat (Swap A) (Move Address R)) (s : World Address R) :
    (∀ amountOut t, (machine P A).invoke c outs s = .ok (amountOut, t) →
      ∃ d u v, (machine P A).handovers c outs s = [(0, c.params, u)]
        ∧ (machine P A).run (outs 0 c.params) u = .ok v ∧ Conserves P c s u v t d)
    ∧ (∀ u v, (machine P A).handovers c outs s = [(0, c.params, u)] →
        (machine P A).run (outs 0 c.params) u = .ok v →
        (v.books c.tokenIn).balance A.address < (s.books c.tokenIn).balance A.address →
        ∃ e, (machine P A).invoke c outs s = .error e)
    ∧ (s.OnlyAllows A.address A.router → ∀ sc t, (machine P A (ρ := ρ)).run sc s = .ok t →
        Respects A.address A.router s t) := by
  have hsuccess : ∀ amountOut t, (machine P A).invoke c outs s = .ok (amountOut, t) →
      ∃ d u v, (machine P A).handovers c outs s = [(0, c.params, u)]
        ∧ (machine P A).run (outs 0 c.params) u = .ok v ∧ Conserves P c s u v t d := by
    intro amountOut t h
    obtain ⟨before, u, v, hbefore, hrun, hafter⟩ := (Code.exec_around ..).mp h
    obtain ⟨rfl, d, hin⟩ := paidIn_of_swapIn hbefore
    obtain ⟨_, hout⟩ := paidOut_of_swapOut hafter
    exact ⟨d, u, v, Code.callouts_around _ _ hbefore, hrun, conserves_of_paid hin hout⟩
  refine ⟨hsuccess, ?_, ?_⟩
  · intro u v hhand hrun hless
    cases h : (machine P A).invoke c outs s with
    | error e => exact ⟨e, rfl⟩
    | ok r =>
        obtain ⟨amountOut, t⟩ := r
        obtain ⟨d, u', v', hhand', hrun', hcon⟩ := hsuccess amountOut t h
        obtain rfl : u = u' := by simpa using hhand.symm.trans hhand'
        obtain rfl : v = v' := by simpa using hrun.symm.trans hrun'
        -- a success returns what it owes, so a balance that fell was no success
        have harrived := hcon.arrived
        have hkept := hcon.kept_le
        rw [kept] at hkept
        omega
  · intro hs sc t h
    exact (((adapterContract P A).sound sc s hs (fun _ _ _ => trivial)).result t h).2.1

/-! ## A partial fill with a swap inside -/

namespace Small

/-- A token that keeps one coin of each transfer on allowance. -/
def chain : Chain Nat where
  delivery r _ _ _ _ _ amount := some (⟨amount, amount - 1, Nat.sub_le .., Nat.le_refl _⟩, r)
  transfers r _ _ _ _ _ := some r
  approves r _ _ _ _ _ := some r
  timestamp _ := 100
  returned r := some r

def adapter : Adapter where
  address := 0xA
  router := 0xB
  router_ne := by decide

def call (sender : Address) (h : sender ≠ adapter.address) (amountIn : Nat) : Swap adapter where
  sender := sender
  sender_ne := h
  tokenIn := 1
  tokenOut := 2
  fee := 2500
  deadline := 200
  amountIn := amountIn
  amountOutMinimum := 0

def outer : Swap adapter := call 0xC (by decide) 100

/-- Five coins of the first token lie on the adapter. -/
def world : World Address Nat where
  books token :=
    { balance := fun a => if token = 1 then if a = 0xA then 5 else 1000 else 0
      allowance := fun o p => if o ≠ 0xA ∧ p = 0xA then 1000 else 0 }
  rest := 0

/-- The router takes sixty, has somebody else swap ten on the same adapter, and answers. -/
def outs : Nat → ExactInputSingleParams → Script (World Address Nat) ExactInputSingleParams
    Unit (Error Unit) Nat (Swap adapter) (Move Address Nat) :=
  fun _ _ => .act (.transferFrom 1 0xB 0xA 0xB 60) (.call (call 0xD (by decide) 10)
    (fun _ _ => .done) (fun _ => .act (.elsewhere 150) .done))

end Small

theorem swap_conserves_small : ∃ d u v t,
    (machine Small.chain Small.adapter).invoke Small.outer Small.outs Small.world = .ok (150, t)
      ∧ Conserves Small.chain Small.outer Small.world u v t d
      ∧ (t.books 1).balance 0xC = 939 ∧ (t.books 1).balance 0xD = 999 := by
  have hrun : (machine Small.chain Small.adapter).invokesTo Small.outer Small.outs Small.world
      (fun n t => n == 150 && (t.books 1).balance 0xC == 939
        && (t.books 1).balance 0xD == 999) = true := by decide
  obtain ⟨n, t, h, htest⟩ := (Machine.invokesTo_iff ..).mp hrun
  obtain ⟨⟨hn, hC⟩, hD⟩ : (n = 150 ∧ (t.books 1).balance 0xC = 939)
      ∧ (t.books 1).balance 0xD = 999 := by simpa using htest
  obtain ⟨hconserves, _, _⟩ :=
    swap_conserves Small.chain Small.adapter Small.outer Small.outs Small.world
  obtain ⟨d, u, v, _, _, hcon⟩ := hconserves n t h
  exact ⟨d, u, v, t, by rw [h, hn], hcon, hC, hD⟩

end PancakeSwapV3Adapter
