/-!
# Call trees: reentrant contract calls under an arbitrary outside world

A contract entry point runs until it calls out; the code it calls is unknown and may
call back into the contract before it returns or reverts.  This file is the general
part of reasoning about that, for any contract:

* **`Prog`** — what one entry point does from a given state: return, fail, or call out
  in some state and go on from whatever the call left behind.  `Code` is the state
  monad over it, so entry points are written as straight-line code.
* **`Script`** — what the outside does while it has control: look at the contract, move
  on its own, call an entry point (at any depth), open a frame that may revert.  A
  whole history of transactions is again a script (`Script.history`).
* **`Machine.run`** — the big-step meaning.  A call or frame that fails leaves the state
  as it was.
* **`Machine.trace`** — every point at which the outside has control, including points
  inside calls and frames that are reverted later; **`Machine.committed`** — only the
  states that survive, in the order they are passed through.
* **`Contract`** — the rely/guarantee rule.  An invariant, a relation between the two
  ends of a whole call, and a relation between successive states are proved once for
  each entry point (`Prog.wp`) and then hold along every run (`Contract.sound`).
* **`Machine.agree_of_sim`** — two machines whose entry points match step by step give
  matching runs; **`Machine.run_refuse`** — calls that are always refused can be cut
  out of the script.
* **`Code.around`** — an entry point that calls out once, between two parts that do not.
* **`Machine.made`** — the calls that a script succeeds with;  **`Machine.rel_of_made`** — a
  relation that these and the moves keep holds between the two ends of its run.
-/

namespace CallTree

variable {σ μ ρ ε α β κ δ τ : Type}

/-! ## Programs with calls to the outside -/

/-- The behaviour of one entry point.  `call m s k` hands control to the outside in
    state `s` with message `m`; `k` resumes it with the state the call left, or with
    the revert data of a call that failed. -/
inductive Prog (σ μ ρ ε α : Type) : Type where
  | ret (a : α) (s : σ)
  | fail (e : ε)
  | call (m : μ) (s : σ) (k : Except ρ σ → Prog σ μ ρ ε α)

namespace Prog

/-- Sequencing: continue with `f` where the first program returns. -/
def bind : Prog σ μ ρ ε α → (α → σ → Prog σ μ ρ ε β) → Prog σ μ ρ ε β
  | .ret a s, f => f a s
  | .fail e, _ => .fail e
  | .call m s k, f => .call m s (fun r => (k r).bind f)

/-- Run a program against an oracle that answers its `i`-th call out. -/
def exec (O : Nat → μ → σ → Except ρ σ) : Nat → Prog σ μ ρ ε α → Except ε (α × σ)
  | _, .ret a s => .ok (a, s)
  | _, .fail e => .error e
  | i, .call m s k => (k (O i m s)).exec O (i + 1)

/-- Collect `W` over the calls out a program makes against an oracle, in order. -/
def gather (O : Nat → μ → σ → Except ρ σ) (W : Nat → μ → σ → List τ) :
    Nat → Prog σ μ ρ ε α → List τ
  | _, .ret _ _ => []
  | _, .fail _ => []
  | i, .call m s k => W i m s ++ (k (O i m s)).gather O W (i + 1)

/-- The calls out a program makes: index, message, and the state handed over. -/
def callouts (O : Nat → μ → σ → Except ρ σ) :
    Nat → Prog σ μ ρ ε α → List (Nat × μ × σ) :=
  gather O (fun i m s => [(i, m, s)])

/-- Weakest precondition.  The first state argument is where the current stretch of
    code began.  At a call out `C` must hold between that state and the one handed
    over; the outside is trusted to keep `G`; `Q` must hold on return. -/
def wp (C G : σ → σ → Prop) (Q : σ → α → σ → Prop) : σ → Prog σ μ ρ ε α → Prop
  | s, .ret a t => Q s a t
  | _, .fail _ => True
  | s, .call _ t k =>
      C s t ∧ (∀ t', G t t' → (k (.ok t')).wp C G Q t') ∧ ∀ d, (k (.error d)).wp C G Q s

@[simp] theorem exec_ret (O : Nat → μ → σ → Except ρ σ) (n : Nat) (a : α) (s : σ) :
    (Prog.ret a s : Prog σ μ ρ ε α).exec O n = .ok (a, s) := rfl

theorem gather_call (O : Nat → μ → σ → Except ρ σ) (W : Nat → μ → σ → List τ) (n : Nat)
    (m : μ) (s : σ) (k : Except ρ σ → Prog σ μ ρ ε α) :
    (Prog.call m s k).gather O W n = W n m s ++ (k (O n m s)).gather O W (n + 1) := rfl

/-- Membership in a gathered list comes from one of the calls out. -/
theorem mem_gather (O : Nat → μ → σ → Except ρ σ) (W : Nat → μ → σ → List τ) (x : τ) :
    ∀ (p : Prog σ μ ρ ε α) (n : Nat),
      x ∈ p.gather O W n ↔ ∃ c ∈ p.callouts O n, x ∈ W c.1 c.2.1 c.2.2 := by
  intro p
  induction p with
  | ret a s => intro n; simp [gather, callouts]
  | fail e => intro n; simp [gather, callouts]
  | call m s k ih =>
      intro n
      rw [gather_call, List.mem_append, ih (O n m s) (n + 1)]
      constructor
      · rintro (h | ⟨c, hc, hx⟩)
        · exact ⟨(n, m, s), List.mem_cons_self .., h⟩
        · exact ⟨c, List.mem_cons_of_mem _ hc, hx⟩
      · rintro ⟨c, hc, hx⟩
        rcases List.mem_cons.mp hc with rfl | hc
        · exact Or.inl hx
        · exact Or.inr ⟨c, hc, hx⟩

/-- Running a sequence is running its parts, the second one with the remaining calls. -/
theorem exec_bind (O : Nat → μ → σ → Except ρ σ) (f : α → σ → Prog σ μ ρ ε β) :
    ∀ (p : Prog σ μ ρ ε α) (n : Nat),
      (p.bind f).exec O n = match p.exec O n with
        | .ok (a, s) => (f a s).exec O (n + (p.callouts O n).length)
        | .error e => .error e := by
  intro p
  induction p with
  | ret a s => intro n; rfl
  | fail e => intro n; rfl
  | call m s k ih =>
      intro n
      have hlen : ((Prog.call m s k).callouts O n).length
          = ((k (O n m s)).callouts O (n + 1)).length + 1 := rfl
      show ((k (O n m s)).bind f).exec O (n + 1) = _
      rw [ih (O n m s) (n + 1), hlen]
      show _ = match (k (O n m s)).exec O (n + 1) with
        | .ok (a, s') => (f a s').exec O (n + (((k (O n m s)).callouts O (n + 1)).length + 1))
        | .error e => .error e
      cases (k (O n m s)).exec O (n + 1) with
      | error e => rfl
      | ok r =>
          show (f r.1 r.2).exec O _ = (f r.1 r.2).exec O _
          congr 1
          omega

/-- The calls out of a sequence: those of the first part, then those of the second. -/
theorem callouts_bind (O : Nat → μ → σ → Except ρ σ) (f : α → σ → Prog σ μ ρ ε β) :
    ∀ (p : Prog σ μ ρ ε α) (n : Nat),
      (p.bind f).callouts O n = p.callouts O n ++ match p.exec O n with
        | .ok (a, s) => (f a s).callouts O (n + (p.callouts O n).length)
        | .error _ => [] := by
  intro p
  induction p with
  | ret a s => intro n; rfl
  | fail e => intro n; rfl
  | call m s k ih =>
      intro n
      have hlen : ((Prog.call m s k).callouts O n).length
          = ((k (O n m s)).callouts O (n + 1)).length + 1 := rfl
      show (n, m, s) :: ((k (O n m s)).bind f).callouts O (n + 1)
        = (n, m, s) :: ((k (O n m s)).callouts O (n + 1) ++ match (k (O n m s)).exec O (n + 1) with
          | .ok (a, s') => (f a s').callouts O (n + ((Prog.call m s k).callouts O n).length)
          | .error _ => [])
      have harg : n + 1 + ((k (O n m s)).callouts O (n + 1)).length
          = n + (((k (O n m s)).callouts O (n + 1)).length + 1) := by omega
      rw [ih (O n m s) (n + 1), hlen, harg]

/-- A sequence succeeds exactly if both parts do. -/
theorem exec_bind_ok (O : Nat → μ → σ → Except ρ σ) (f : α → σ → Prog σ μ ρ ε β)
    (p : Prog σ μ ρ ε α) (n : Nat) (b : β) (t : σ) :
    (p.bind f).exec O n = .ok (b, t) ↔ ∃ a s, p.exec O n = .ok (a, s)
      ∧ (f a s).exec O (n + (p.callouts O n).length) = .ok (b, t) := by
  rw [exec_bind]
  cases p.exec O n with
  | error e => simp
  | ok r =>
      obtain ⟨a, s⟩ := r
      simp [and_assoc]

/-- What follows without a call out does not show. -/
theorem callouts_bind_of_silent (O : Nat → μ → σ → Except ρ σ) (f : α → σ → Prog σ μ ρ ε β)
    (p : Prog σ μ ρ ε α) (n : Nat) (h : ∀ a s i, (f a s).callouts O i = []) :
    (p.bind f).callouts O n = p.callouts O n := by
  rw [callouts_bind]
  cases p.exec O n with
  | error e => exact List.append_nil _
  | ok r =>
      show _ ++ (f r.1 r.2).callouts O _ = _
      rw [h, List.append_nil]

theorem bind_assoc {γ : Type} (p : Prog σ μ ρ ε α) (f : α → σ → Prog σ μ ρ ε β)
    (g : β → σ → Prog σ μ ρ ε γ) :
    (p.bind f).bind g = p.bind (fun a s => (f a s).bind g) := by
  induction p with
  | ret a s => rfl
  | fail e => rfl
  | call m s k ih =>
      show Prog.call m s (fun r => ((k r).bind f).bind g)
        = Prog.call m s (fun r => (k r).bind (fun a s => (f a s).bind g))
      congr 1
      funext r
      exact ih r

/-- The weakest precondition of a sequence: the second part's, as postcondition of the
    first, with the stretch of code carried across. -/
theorem wp_bind {C G : σ → σ → Prop} {Q : σ → β → σ → Prop}
    (f : α → σ → Prog σ μ ρ ε β) (p : Prog σ μ ρ ε α) :
    ∀ s : σ, (p.bind f).wp C G Q s
      ↔ p.wp C G (fun s' a t => (f a t).wp C G Q s') s := by
  induction p with
  | ret a t => intro s; exact Iff.rfl
  | fail e => intro s; exact Iff.rfl
  | call m t k ih =>
      intro s
      show (_ ∧ (∀ t', _ → ((k (.ok t')).bind f).wp C G Q t') ∧ ∀ d, _) ↔ _
      constructor
      · rintro ⟨hc, hok, herr⟩
        exact ⟨hc, fun t' ht => (ih _ _).mp (hok t' ht), fun d => (ih _ _).mp (herr d)⟩
      · rintro ⟨hc, hok, herr⟩
        exact ⟨hc, fun t' ht => (ih _ _).mpr (hok t' ht), fun d => (ih _ _).mpr (herr d)⟩

/-- Weakest preconditions are monotone in the condition at a call out, antitone in what
    the outside is trusted to keep, monotone in the postcondition. -/
theorem wp_mono {C C' G G' : σ → σ → Prop} {Q Q' : σ → α → σ → Prop}
    (hC : ∀ s t, C s t → C' s t) (hG : ∀ s t, G' s t → G s t)
    (hQ : ∀ s a t, Q s a t → Q' s a t) (p : Prog σ μ ρ ε α) :
    ∀ s : σ, p.wp C G Q s → p.wp C' G' Q' s := by
  induction p with
  | ret a t => intro s h; exact hQ s a t h
  | fail e => intro s _; trivial
  | call m t k ih =>
      rintro s ⟨hc, hok, herr⟩
      exact ⟨hC s t hc, fun t' ht => ih _ _ (hok t' (hG t t' ht)), fun d => ih _ _ (herr d)⟩

/-- The postcondition holds of a result, if the outside kept what it is trusted to. -/
theorem exec_of_wp {C G : σ → σ → Prop} {Q : α → σ → Prop} (O : Nat → μ → σ → Except ρ σ)
    (p : Prog σ μ ρ ε α) :
    ∀ (n : Nat) (u : σ), p.wp C G (fun _ => Q) u →
      (∀ c ∈ p.callouts O n, ∀ t', O c.1 c.2.1 c.2.2 = .ok t' → G c.2.2 t') →
      ∀ a t, p.exec O n = .ok (a, t) → Q a t := by
  induction p with
  | ret a s =>
      intro n u hQ _ b t h
      obtain ⟨rfl, rfl⟩ : a = b ∧ s = t := by simpa using h
      exact hQ
  | fail e => intro n u _ _ b t h; exact nomatch h
  | call m s k ih =>
      rintro n u ⟨_, hok, herr⟩ hO b t h
      have htail := fun c hc => hO c (List.mem_cons_of_mem _ hc)
      cases hr : O n m s with
      | ok s' =>
          refine ih (O n m s) (n + 1) s' ?_ htail b t h
          rw [hr]
          exact hok s' (hO (n, m, s) (List.mem_cons_self ..) s' hr)
      | error d =>
          refine ih (O n m s) (n + 1) u ?_ htail b t h
          rw [hr]
          exact herr d

/-- Oracles that agree wherever the program may call out give the same result. -/
theorem exec_congr {C G : σ → σ → Prop} {Q : σ → α → σ → Prop}
    {O O' : Nat → μ → σ → Except ρ σ} (hO : ∀ i m u t, C u t → O i m t = O' i m t)
    (hG : ∀ i m u t t', C u t → O' i m t = .ok t' → G t t') (p : Prog σ μ ρ ε α) :
    ∀ (n : Nat) (u : σ), p.wp C G Q u → p.exec O n = p.exec O' n := by
  induction p with
  | ret a t => intro n u _; rfl
  | fail e => intro n u _; rfl
  | call m t k ih =>
      rintro n u ⟨hC, hok, herr⟩
      show (k (O n m t)).exec O (n + 1) = (k (O' n m t)).exec O' (n + 1)
      rw [hO n m u t hC]
      cases hr : O' n m t with
      | ok t' => exact ih _ (n + 1) t' (hok t' (hG n m u t t' hC hr))
      | error d => exact ih _ (n + 1) u (herr d)

end Prog

/-! ## Entry points as state-passing code -/

/-- Contract code: from a state, a program. -/
def Code (σ μ ρ ε α : Type) : Type := σ → Prog σ μ ρ ε α

namespace Code

instance : Monad (Code σ μ ρ ε) where
  pure a := fun s => .ret a s
  bind x f := fun s => (x s).bind f

/-- The current state. -/
def get : Code σ μ ρ ε σ := fun s => .ret s s

/-- Replace the current state. -/
def set (t : σ) : Code σ μ ρ ε Unit := fun _ => .ret () t

/-- Revert. -/
def throw (e : ε) : Code σ μ ρ ε α := fun _ => .fail e

/-- Code that makes no call out. -/
def inline (f : σ → Except ε (α × σ)) : Code σ μ ρ ε α := fun s =>
  match f s with
  | .ok (a, t) => .ret a t
  | .error e => .fail e

/-- Call out with message `m`.  The callee starts from `pay s`; if it fails, what it
    did and the payment are undone. -/
def external (m : μ) (pay : σ → σ) : Code σ μ ρ ε (Except ρ Unit) := fun s =>
  .call m (pay s) fun r =>
    match r with
    | .ok t => .ret (.ok ()) t
    | .error d => .ret (.error d) s

@[simp] theorem pure_apply (a : α) (s : σ) : (pure a : Code σ μ ρ ε α) s = .ret a s := rfl

@[simp] theorem bind_apply (x : Code σ μ ρ ε α) (f : α → Code σ μ ρ ε β) (s : σ) :
    (x >>= f) s = (x s).bind (fun a t => f a t) := rfl

@[simp] theorem get_apply (s : σ) : (get : Code σ μ ρ ε σ) s = .ret s s := rfl

@[simp] theorem set_apply (t s : σ) : (set t : Code σ μ ρ ε Unit) s = .ret () t := rfl

theorem inline_ok {f : σ → Except ε (α × σ)} {s t : σ} {a : α} (h : f s = .ok (a, t)) :
    (inline f : Code σ μ ρ ε α) s = .ret a t := by
  rw [inline]
  rw [h]

theorem inline_error {f : σ → Except ε (α × σ)} {s : σ} {e : ε} (h : f s = .error e) :
    (inline f : Code σ μ ρ ε α) s = .fail e := by
  rw [inline]
  rw [h]

@[simp] theorem exec_inline (O : Nat → μ → σ → Except ρ σ) (n : Nat)
    (f : σ → Except ε (α × σ)) (s : σ) :
    ((inline f : Code σ μ ρ ε α) s).exec O n = f s := by
  cases hf : f s with
  | error e => rw [inline_error hf]; rfl
  | ok r => rw [inline_ok (a := r.1) (t := r.2) hf]; rfl

@[simp] theorem callouts_inline (O : Nat → μ → σ → Except ρ σ) (n : Nat)
    (f : σ → Except ε (α × σ)) (s : σ) :
    ((inline f : Code σ μ ρ ε α) s).callouts O n = [] := by
  cases hf : f s with
  | error e => rw [inline_error hf]; rfl
  | ok r => rw [inline_ok (a := r.1) (t := r.2) hf]; rfl

/-- Code that makes no call out meets its postcondition if its result does. -/
theorem wp_inline {C G : σ → σ → Prop} {Q : σ → α → σ → Prop} {f : σ → Except ε (α × σ)}
    {s u : σ} (h : ∀ a t, f s = .ok (a, t) → Q u a t) :
    ((inline f : Code σ μ ρ ε α) s).wp C G Q u := by
  cases hf : f s with
  | error e => rw [inline_error hf]; trivial
  | ok r => rw [inline_ok (a := r.1) (t := r.2) hf]; exact h r.1 r.2 hf

/-- A call out meets its postcondition if the callee may be entered, and the
    postcondition holds of whatever it leaves behind. -/
theorem wp_external {C G : σ → σ → Prop} {Q : σ → Except ρ Unit → σ → Prop} {m : μ}
    {pay : σ → σ} {s u : σ} (hC : C u (pay s)) (hok : ∀ t, G (pay s) t → Q t (.ok ()) t)
    (herr : ∀ d, Q u (.error d) s) :
    ((external m pay : Code σ μ ρ ε (Except ρ Unit)) s).wp C G Q u :=
  ⟨hC, hok, herr⟩

end Code

@[simp] theorem Prog.ret_bind (a : α) (s : σ) (f : α → σ → Prog σ μ ρ ε β) :
    (Prog.ret a s).bind f = f a s := rfl

@[simp] theorem Prog.fail_bind (e : ε) (f : α → σ → Prog σ μ ρ ε β) :
    (Prog.fail e : Prog σ μ ρ ε α).bind f = .fail e := rfl

/-! ## Code with a single call out -/

namespace Code

/-- Code that runs to a call out, reverts if that fails, and finishes with what it kept. -/
def around (before : σ → Except ε (β × σ)) (m : β → μ) (raised : ρ → ε)
    (after : β → σ → Except ε (α × σ)) : Code σ μ ρ ε α := do
  let b ← inline before
  let r ← external (m b) id
  match r with
  | .ok () => inline (after b)
  | .error d => throw (raised d)

variable {before : σ → Except ε (β × σ)} {m : β → μ} {raised : ρ → ε}
  {after : β → σ → Except ε (α × σ)}

theorem around_apply (s : σ) : around before m raised after s = match before s with
    | .error e => .fail e
    | .ok (b, u) => .call (m b) u (fun r => match r with
        | .ok v => (inline (after b) : Code σ μ ρ ε α) v
        | .error d => .fail (raised d)) := by
  rw [around, bind_apply]
  cases h : before s with
  | error e => rw [inline_error h]; rfl
  | ok r =>
      obtain ⟨b, u⟩ := r
      rw [inline_ok h]
      show Prog.call _ _ _ = _
      congr 1
      funext r
      cases r with
      | ok v => rfl
      | error d => rfl

/-- It succeeds exactly if both stretches do and the call out between them. -/
theorem exec_around (O : Nat → μ → σ → Except ρ σ) (n : Nat) (s t : σ) (a : α) :
    (around before m raised after s).exec O n = .ok (a, t)
      ↔ ∃ b u v, before s = .ok (b, u) ∧ O n (m b) u = .ok v ∧ after b v = .ok (a, t) := by
  rw [around_apply]
  cases h : before s with
  | error e => simp [Prog.exec]
  | ok r =>
      obtain ⟨b, u⟩ := r
      show (Prog.exec O (n + 1) (match O n (m b) u with
        | .ok v => (inline (after b) : Code σ μ ρ ε α) v
        | .error d => .fail (raised d))) = _ ↔ _
      cases hO : O n (m b) u with
      | ok v =>
          rw [exec_inline]
          constructor
          · intro ha
            exact ⟨b, u, v, rfl, hO, ha⟩
          · rintro ⟨_, _, w, hb, hw, ha⟩
            cases hb
            cases hO.symm.trans hw
            exact ha
      | error d =>
          constructor
          · intro hf
            exact nomatch hf
          · rintro ⟨_, _, w, hb, hw, _⟩
            cases hb
            exact nomatch hO.symm.trans hw

/-- It hands over once. -/
theorem callouts_around (O : Nat → μ → σ → Except ρ σ) (n : Nat) {s u : σ} {b : β}
    (h : before s = .ok (b, u)) :
    (around before m raised after s).callouts O n = [(n, m b, u)] := by
  rw [around_apply, h]
  show (n, m b, u) :: (match O n (m b) u with
    | .ok v => (inline (after b) : Code σ μ ρ ε α) v
    | .error d => .fail (raised d)).callouts O (n + 1) = _
  cases O n (m b) u with
  | ok v => rw [callouts_inline]
  | error d => rfl

/-- What it must keep: the handover may be made, and the finish is right whatever the
    callee leaves behind. -/
theorem wp_around {C G : σ → σ → Prop} {Q : σ → α → σ → Prop} {s : σ}
    (hC : ∀ b u, before s = .ok (b, u) → C s u)
    (hQ : ∀ b u v a t, before s = .ok (b, u) → G u v → after b v = .ok (a, t) → Q v a t) :
    (around before m raised after s).wp C G Q s := by
  rw [around_apply]
  cases h : before s with
  | error e => trivial
  | ok r =>
      obtain ⟨b, u⟩ := r
      refine ⟨hC b u h, ?_, fun d => trivial⟩
      intro v hv
      exact wp_inline (fun a t ha => hQ b u v a t h hv ha)

end Code

/-! ## The outside world and its runs -/

/-- What the outside does while it has control.  `call c outs k` calls an entry point,
    `outs` being what happens at each call out of that entry point; `k` and the
    continuation of `frame` see whether the call went through.  `frame` is a call to
    some other contract: if it reverts, so does everything done inside. -/
inductive Script (σ μ ρ ε α κ δ : Type) : Type where
  | done
  | revert (d : ρ)
  | look (k : σ → Script σ μ ρ ε α κ δ)
  | act (d : δ) (k : Script σ μ ρ ε α κ δ)
  | call (c : κ) (outs : Nat → μ → Script σ μ ρ ε α κ δ)
      (k : Except ε α → Script σ μ ρ ε α κ δ)
  | frame (inner : Script σ μ ρ ε α κ δ) (k : Except ρ Unit → Script σ μ ρ ε α κ δ)

/-- Transactions one after the other, each of them undone if it reverts. -/
def Script.history : List (Script σ μ ρ ε α κ δ) → Script σ μ ρ ε α κ δ
  | [] => .done
  | tx :: txs => .frame tx (fun _ => history txs)

/-- A contract: its entry points, what the outside can change without calling it, and
    how much of its state the outside can see. -/
structure Machine (σ μ ρ ε α κ δ : Type) where
  body : κ → Code σ μ ρ ε α
  move : δ → σ → σ
  view : σ → σ

/-- A moment at which the outside has control: about to call an entry point, or not. -/
inductive Point (σ κ : Type) : Type where
  | idle (s : σ)
  | enter (c : κ) (s : σ)

/-- The contract's state at that moment. -/
def Point.state : Point σ κ → σ
  | .idle s => s
  | .enter _ s => s

namespace Machine

variable (M : Machine σ μ ρ ε α κ δ)

/-- Run a script: the state it leaves, or the data it reverts with. -/
def run : Script σ μ ρ ε α κ δ → σ → Except ρ σ
  | .done, s => .ok s
  | .revert d, _ => .error d
  | .look k, s => run (k (M.view s)) s
  | .act d k, s => run k (M.move d s)
  | .call c outs k, s =>
      match (M.body c s).exec (fun i m => run (outs i m)) 0 with
      | .ok (a, t) => run (k (.ok a)) t
      | .error e => run (k (.error e)) s
  | .frame inner k, s =>
      match run inner s with
      | .ok t => run (k (.ok ())) t
      | .error d => run (k (.error d)) s

/-- The answer the outside gives to each call out. -/
abbrev oracle (outs : Nat → μ → Script σ μ ρ ε α κ δ) : Nat → μ → σ → Except ρ σ :=
  fun i m => M.run (outs i m)

/-- Does the run go through, and end in a state that passes the test? -/
def runsTo (sc : Script σ μ ρ ε α κ δ) (s : σ) (test : σ → Bool) : Bool :=
  match M.run sc s with
  | .ok t => test t
  | .error _ => false

theorem runsTo_iff (sc : Script σ μ ρ ε α κ δ) (s : σ) (test : σ → Bool) :
    M.runsTo sc s test = true ↔ ∃ t, M.run sc s = .ok t ∧ test t = true := by
  rw [runsTo]
  cases M.run sc s with
  | ok t => simp
  | error d => simp

/-- Call one entry point. -/
def invoke (c : κ) (outs : Nat → μ → Script σ μ ρ ε α κ δ) (s : σ) : Except ε (α × σ) :=
  (M.body c s).exec (M.oracle outs) 0

/-- Does the call go through, with a result that passes the test? -/
def invokesTo (c : κ) (outs : Nat → μ → Script σ μ ρ ε α κ δ) (s : σ) (test : α → σ → Bool) :
    Bool :=
  match M.invoke c outs s with
  | .ok (a, t) => test a t
  | .error _ => false

theorem invokesTo_iff (c : κ) (outs : Nat → μ → Script σ μ ρ ε α κ δ) (s : σ)
    (test : α → σ → Bool) : M.invokesTo c outs s test = true
      ↔ ∃ a t, M.invoke c outs s = .ok (a, t) ∧ test a t = true := by
  rw [invokesTo]
  cases M.invoke c outs s with
  | ok r =>
      obtain ⟨a, t⟩ := r
      simp [and_assoc]
  | error e => simp

/-- The moments at which one call hands control to the outside. -/
def handovers (c : κ) (outs : Nat → μ → Script σ μ ρ ε α κ δ) (s : σ) :
    List (Nat × μ × σ) :=
  (M.body c s).callouts (M.oracle outs) 0

/-- Every point of a run, reverted or not. -/
def trace : Script σ μ ρ ε α κ δ → σ → List (Point σ κ)
  | .done, s => [.idle s]
  | .revert _, s => [.idle s]
  | .look k, s => trace (k (M.view s)) s
  | .act d k, s => .idle s :: trace k (M.move d s)
  | .call c outs k, s =>
      .enter c s ::
        ((M.body c s).gather (fun i m => M.run (outs i m)) (fun i m => trace (outs i m)) 0
          ++ match (M.body c s).exec (fun i m => M.run (outs i m)) 0 with
            | .ok (a, t) => trace (k (.ok a)) t
            | .error e => trace (k (.error e)) s)
  | .frame inner k, s =>
      trace inner s ++ match M.run inner s with
        | .ok t => trace (k (.ok ())) t
        | .error d => trace (k (.error d)) s

/-- The states of a run that no later revert undoes, in order.  (Of a script that itself
    reverts: the ones that would have been left.) -/
def committed : Script σ μ ρ ε α κ δ → σ → List σ
  | .done, s => [s]
  | .revert _, s => [s]
  | .look k, s => committed (k (M.view s)) s
  | .act d k, s => s :: committed k (M.move d s)
  | .call c outs k, s =>
      s :: match (M.body c s).exec (fun i m => M.run (outs i m)) 0 with
        | .ok (a, t) =>
            (M.body c s).gather (fun i m => M.run (outs i m))
              (fun i m u => match M.run (outs i m) u with
                | .ok _ => committed (outs i m) u
                | .error _ => []) 0
              ++ committed (k (.ok a)) t
        | .error e => committed (k (.error e)) s
  | .frame inner k, s =>
      match M.run inner s with
      | .ok t => committed inner s ++ committed (k (.ok ())) t
      | .error d => committed (k (.error d)) s

/-- The calls of a run that succeed and that no later revert undoes, at any depth. -/
def made : Script σ μ ρ ε α κ δ → σ → List κ
  | .done, _ => []
  | .revert _, _ => []
  | .look k, s => made (k (M.view s)) s
  | .act d k, s => made k (M.move d s)
  | .call c outs k, s =>
      match (M.body c s).exec (fun i m => M.run (outs i m)) 0 with
      | .ok (a, t) =>
          c :: ((M.body c s).gather (fun i m => M.run (outs i m))
            (fun i m u => match M.run (outs i m) u with
              | .ok _ => made (outs i m) u
              | .error _ => []) 0 ++ made (k (.ok a)) t)
      | .error e => made (k (.error e)) s
  | .frame inner k, s =>
      match M.run inner s with
      | .ok t => made inner s ++ made (k (.ok ())) t
      | .error d => made (k (.error d)) s

theorem run_call (c : κ) (outs : Nat → μ → Script σ μ ρ ε α κ δ)
    (k : Except ε α → Script σ μ ρ ε α κ δ) (s : σ) :
    M.run (.call c outs k) s = match M.invoke c outs s with
      | .ok (a, t) => M.run (k (.ok a)) t
      | .error e => M.run (k (.error e)) s := by
  rw [run]
  rfl

theorem run_frame (inner : Script σ μ ρ ε α κ δ) (k : Except ρ Unit → Script σ μ ρ ε α κ δ)
    (s : σ) :
    M.run (.frame inner k) s = match M.run inner s with
      | .ok t => M.run (k (.ok ())) t
      | .error d => M.run (k (.error d)) s := by
  rw [run]

theorem trace_call (c : κ) (outs : Nat → μ → Script σ μ ρ ε α κ δ)
    (k : Except ε α → Script σ μ ρ ε α κ δ) (s : σ) :
    M.trace (.call c outs k) s = .enter c s ::
      ((M.body c s).gather (M.oracle outs) (fun i m => M.trace (outs i m)) 0
        ++ match M.invoke c outs s with
          | .ok (a, t) => M.trace (k (.ok a)) t
          | .error e => M.trace (k (.error e)) s) := by
  rw [trace]
  rfl

/-- A call is entered at the point where the script makes it. -/
theorem enter_mem_trace (c : κ) (outs : Nat → μ → Script σ μ ρ ε α κ δ)
    (k : Except ε α → Script σ μ ρ ε α κ δ) (s : σ) :
    .enter c s ∈ M.trace (.call c outs k) s := by
  rw [trace_call]
  exact List.mem_cons_self ..

/-- Do all calls of a run pass the test in the states in which they are made? -/
def callsPass (sc : Script σ μ ρ ε α κ δ) (s : σ) (test : κ → σ → Bool) : Bool :=
  (M.trace sc s).all fun p =>
    match p with
    | .enter c t => test c t
    | .idle _ => true

theorem callsPass_iff (sc : Script σ μ ρ ε α κ δ) (s : σ) (test : κ → σ → Bool) :
    M.callsPass sc s test = true ↔ ∀ c t, .enter c t ∈ M.trace sc s → test c t = true := by
  rw [callsPass, List.all_eq_true]
  constructor
  · intro h c t hmem
    exact h _ hmem
  · intro h p hmem
    cases p with
    | enter c t => exact h c t hmem
    | idle t => rfl

/-- The states a callback leaves in the surviving history. -/
def survivors (outs : Nat → μ → Script σ μ ρ ε α κ δ) (i : Nat) (m : μ) (u : σ) : List σ :=
  match M.run (outs i m) u with
  | .ok _ => M.committed (outs i m) u
  | .error _ => []

theorem survivors_ok {outs : Nat → μ → Script σ μ ρ ε α κ δ} {i : Nat} {m : μ} {u t : σ}
    (h : M.run (outs i m) u = .ok t) : M.survivors outs i m u = M.committed (outs i m) u := by
  rw [survivors, h]

theorem survivors_error {outs : Nat → μ → Script σ μ ρ ε α κ δ} {i : Nat} {m : μ} {u : σ}
    {d : ρ} (h : M.run (outs i m) u = .error d) : M.survivors outs i m u = [] := by
  rw [survivors, h]

theorem committed_call (c : κ) (outs : Nat → μ → Script σ μ ρ ε α κ δ)
    (k : Except ε α → Script σ μ ρ ε α κ δ) (s : σ) :
    M.committed (.call c outs k) s = s :: match M.invoke c outs s with
      | .ok (a, t) =>
          (M.body c s).gather (M.oracle outs) (M.survivors outs) 0
            ++ M.committed (k (.ok a)) t
      | .error e => M.committed (k (.error e)) s := by
  rw [committed]
  rfl

theorem trace_frame (inner : Script σ μ ρ ε α κ δ)
    (k : Except ρ Unit → Script σ μ ρ ε α κ δ) (s : σ) :
    M.trace (.frame inner k) s = M.trace inner s ++ match M.run inner s with
      | .ok t => M.trace (k (.ok ())) t
      | .error d => M.trace (k (.error d)) s := by
  rw [trace]

theorem committed_frame (inner : Script σ μ ρ ε α κ δ)
    (k : Except ρ Unit → Script σ μ ρ ε α κ δ) (s : σ) :
    M.committed (.frame inner k) s = match M.run inner s with
      | .ok t => M.committed inner s ++ M.committed (k (.ok ())) t
      | .error d => M.committed (k (.error d)) s := by
  rw [committed]

/-- What a callback has made, if it went through. -/
def madeBy (outs : Nat → μ → Script σ μ ρ ε α κ δ) (i : Nat) (m : μ) (u : σ) : List κ :=
  match M.run (outs i m) u with
  | .ok _ => M.made (outs i m) u
  | .error _ => []

theorem made_call (c : κ) (outs : Nat → μ → Script σ μ ρ ε α κ δ)
    (k : Except ε α → Script σ μ ρ ε α κ δ) (s : σ) :
    M.made (.call c outs k) s = match M.invoke c outs s with
      | .ok (a, t) =>
          c :: ((M.body c s).gather (M.oracle outs) (M.madeBy outs) 0 ++ M.made (k (.ok a)) t)
      | .error e => M.made (k (.error e)) s := by
  rw [made]
  rfl

theorem made_frame (inner : Script σ μ ρ ε α κ δ)
    (k : Except ρ Unit → Script σ μ ρ ε α κ δ) (s : σ) :
    M.made (.frame inner k) s = match M.run inner s with
      | .ok t => M.made inner s ++ M.made (k (.ok ())) t
      | .error d => M.made (k (.error d)) s := by
  rw [made]

/-- **What the calls of a run keep, the run keeps.**  A relation that moves of the outside
    respect, and calls of `allowed` entry points if their callbacks do, holds between the
    ends of every run in which no other call succeeds.  Structural induction on the
    script. -/
theorem rel_of_made {rel : σ → σ → Prop} (hrefl : ∀ s, rel s s)
    (htrans : ∀ s t u, rel s t → rel t u → rel s u) (hmove : ∀ d s, rel s (M.move d s))
    {allowed : κ → Prop} (hbody : ∀ c s, allowed c →
      (M.body c s).wp (fun _ _ => True) rel (fun _ _ t => rel s t) s) :
    ∀ (sc : Script σ μ ρ ε α κ δ) (s t : σ), (∀ c ∈ M.made sc s, allowed c) →
      M.run sc s = .ok t → rel s t := by
  intro sc
  induction sc with
  | done =>
      intro s t _ h
      obtain rfl : s = t := by simpa [run] using h
      exact hrefl s
  | revert d => intro s t _ h; exact nomatch h
  | look k ih => intro s t hmade h; exact ih (M.view s) s t hmade h
  | act d k ih =>
      intro s t hmade h
      exact htrans _ _ _ (hmove d s) (ih (M.move d s) t hmade h)
  | call c outs k ihouts ihk =>
      intro s t hmade h
      rw [run_call] at h
      rw [made_call] at hmade
      cases hr : M.invoke c outs s with
      | error e =>
          rw [hr] at h hmade
          exact ihk (.error e) s t hmade h
      | ok r =>
          obtain ⟨a, u⟩ := r
          rw [hr] at h hmade
          -- the rule for the body asks each callback to keep the relation, which is the hypothesis
          have hcall : rel s u := by
            refine (M.body c s).exec_of_wp (M.oracle outs) 0 s
              (hbody c s (hmade c (List.mem_cons_self ..))) ?_ a u hr
            intro x hx t' ht'
            refine ihouts x.1 x.2.1 x.2.2 t' (fun c' hc' => hmade c' ?_) ht'
            refine List.mem_cons_of_mem _ (List.mem_append.mpr (Or.inl ?_))
            refine (Prog.mem_gather _ _ c' (M.body c s) 0).mpr ⟨x, hx, ?_⟩
            have hrun : M.run (outs x.1 x.2.1) x.2.2 = .ok t' := ht'
            rw [madeBy, hrun]
            exact hc'
          refine htrans _ _ _ hcall (ihk (.ok a) u t (fun c' hc' => hmade c' ?_) h)
          exact List.mem_cons_of_mem _ (List.mem_append.mpr (Or.inr hc'))
  | frame inner k ihi ihk =>
      intro s t hmade h
      rw [run_frame] at h
      rw [made_frame] at hmade
      cases hr : M.run inner s with
      | error d =>
          rw [hr] at h hmade
          exact ihk (.error d) s t hmade h
      | ok u =>
          rw [hr] at h hmade
          refine htrans _ _ _ (ihi s u (fun c hc => hmade c ?_) hr)
            (ihk (.ok ()) u t (fun c hc => hmade c ?_) h)
          · exact List.mem_append.mpr (Or.inl hc)
          · exact List.mem_append.mpr (Or.inr hc)

/-- The state a run ends in is one of its points. -/
theorem idle_mem_trace : ∀ (sc : Script σ μ ρ ε α κ δ) (s t : σ),
    M.run sc s = .ok t → .idle t ∈ M.trace sc s := by
  intro sc
  induction sc with
  | done =>
      intro s t h
      obtain rfl : s = t := by simpa [run] using h
      exact List.mem_singleton_self _
  | revert d => intro s t h; exact nomatch h
  | look k ih => intro s t h; exact ih (M.view s) s t h
  | act d k ih =>
      intro s t h
      exact List.mem_cons_of_mem _ (ih (M.move d s) t h)
  | call c outs k _ ihk =>
      intro s t h
      rw [run_call] at h
      rw [trace_call]
      refine List.mem_cons_of_mem _ (List.mem_append.mpr (Or.inr ?_))
      cases hr : M.invoke c outs s with
      | ok r => rw [hr] at h; exact ihk (.ok r.1) r.2 t h
      | error e => rw [hr] at h; exact ihk (.error e) s t h
  | frame inner k _ ihk =>
      intro s t h
      rw [run_frame] at h
      rw [trace_frame]
      refine List.mem_append.mpr (Or.inr ?_)
      cases hr : M.run inner s with
      | ok u => rw [hr] at h; exact ihk (.ok ()) u t h
      | error d => rw [hr] at h; exact ihk (.error d) s t h

/-- A state that survives is the state of one of the points. -/
theorem exists_point_of_mem_committed : ∀ (sc : Script σ μ ρ ε α κ δ) (s t : σ),
    t ∈ M.committed sc s → ∃ p ∈ M.trace sc s, p.state = t := by
  intro sc
  induction sc with
  | done =>
      intro s t h
      exact ⟨.idle s, List.mem_singleton_self _, (List.mem_singleton.mp h).symm⟩
  | revert d =>
      intro s t h
      exact ⟨.idle s, List.mem_singleton_self _, (List.mem_singleton.mp h).symm⟩
  | look k ih => intro s t h; exact ih (M.view s) s t h
  | act d k ih =>
      intro s t h
      rcases List.mem_cons.mp h with rfl | h
      · exact ⟨.idle t, List.mem_cons_self .., rfl⟩
      · obtain ⟨p, hp, hpt⟩ := ih (M.move d s) t h
        exact ⟨p, List.mem_cons_of_mem _ hp, hpt⟩
  | call c outs k ihouts ihk =>
      intro s t h
      rw [committed_call] at h
      rw [trace_call]
      rcases List.mem_cons.mp h with rfl | h
      · exact ⟨.enter c t, List.mem_cons_self .., rfl⟩
      · cases hr : M.invoke c outs s with
        | error e =>
            rw [hr] at h
            obtain ⟨p, hp, hpt⟩ := ihk (.error e) s t h
            exact ⟨p, List.mem_cons_of_mem _ (List.mem_append.mpr (Or.inr hp)), hpt⟩
        | ok r =>
            rw [hr] at h
            rcases List.mem_append.mp h with h | h
            · -- inside the call: a callback that did not revert left it
              obtain ⟨x, hx, hxt⟩ := (Prog.mem_gather _ _ t (M.body c s) 0).mp h
              have hsurv : t ∈ M.committed (outs x.1 x.2.1) x.2.2 := by
                cases hrx : M.run (outs x.1 x.2.1) x.2.2 with
                | ok u => rw [M.survivors_ok hrx] at hxt; exact hxt
                | error d => rw [M.survivors_error hrx] at hxt; exact nomatch hxt
              obtain ⟨p, hp, hpt⟩ := ihouts x.1 x.2.1 x.2.2 t hsurv
              refine ⟨p, List.mem_cons_of_mem _ (List.mem_append.mpr (Or.inl ?_)), hpt⟩
              exact (Prog.mem_gather _ _ p (M.body c s) 0).mpr ⟨x, hx, hp⟩
            · -- after the call
              obtain ⟨p, hp, hpt⟩ := ihk (.ok r.1) r.2 t h
              exact ⟨p, List.mem_cons_of_mem _ (List.mem_append.mpr (Or.inr hp)), hpt⟩
  | frame inner k ihi ihk =>
      intro s t h
      rw [committed_frame] at h
      rw [trace_frame]
      cases hr : M.run inner s with
      | error d =>
          rw [hr] at h
          obtain ⟨p, hp, hpt⟩ := ihk (.error d) s t h
          exact ⟨p, List.mem_append.mpr (Or.inr hp), hpt⟩
      | ok u =>
          rw [hr] at h
          rcases List.mem_append.mp h with h | h
          · obtain ⟨p, hp, hpt⟩ := ihi s t h
            exact ⟨p, List.mem_append.mpr (Or.inl hp), hpt⟩
          · obtain ⟨p, hp, hpt⟩ := ihk (.ok ()) u t h
            exact ⟨p, List.mem_append.mpr (Or.inr hp), hpt⟩

/-- The points of a callback are points of the run that contains the call. -/
theorem mem_trace_of_handover {c : κ} {outs : Nat → μ → Script σ μ ρ ε α κ δ}
    {k : Except ε α → Script σ μ ρ ε α κ δ} {s : σ} {x : Nat × μ × σ} {p : Point σ κ}
    (hx : x ∈ M.handovers c outs s) (hp : p ∈ M.trace (outs x.1 x.2.1) x.2.2) :
    p ∈ M.trace (.call c outs k) s := by
  rw [trace_call]
  refine List.mem_cons_of_mem _ (List.mem_append.mpr (Or.inl ?_))
  exact (Prog.mem_gather _ _ p (M.body c s) 0).mpr ⟨x, hx, hp⟩

end Machine

/-! ## The rely/guarantee rule -/

/-- What every entry point of `M` upholds, provided the outside only makes calls that
    `A` allows.  `inv` holds whenever the outside has control; `rel` relates the two
    ends of a whole call; `mono` relates each state to the next one the outside gets to
    see.  `body` is checked with all three assumed of every callback. -/
structure Contract (M : Machine σ μ ρ ε α κ δ) (A : κ → σ → Prop) where
  inv : σ → Prop
  rel : σ → σ → Prop
  mono : σ → σ → Prop
  rel_refl : ∀ s, rel s s
  rel_trans : ∀ {s t u}, rel s t → rel t u → rel s u
  mono_refl : ∀ s, mono s s
  mono_trans : ∀ {s t u}, mono s t → mono t u → mono s u
  move : ∀ d s, inv s → inv (M.move d s) ∧ rel s (M.move d s) ∧ mono s (M.move d s)
  body : ∀ c s, inv s → A c s → (M.body c s).wp (fun u t => inv t ∧ mono u t)
    (fun t t' => inv t' ∧ rel t t' ∧ mono t t')
    (fun u _ t => (inv t ∧ rel s t) ∧ mono u t) s

namespace Contract

variable {M : Machine σ μ ρ ε α κ δ} {A : κ → σ → Prop}

/-- What is promised about a stretch of a run that starts in `s`, passes the points `ps`,
    leaves the surviving states `cs` and ends with `r`. -/
structure Holds (K : Contract M A) (s : σ) (ps : List (Point σ κ)) (cs : List σ)
    (r : Except ρ σ) : Prop where
  result : ∀ t, r = .ok t → K.inv t ∧ K.rel s t ∧ K.mono s t
  points : ∀ p ∈ ps, K.inv p.state ∧ K.mono s p.state
  chain : cs.Pairwise K.mono
  chain_from : ∀ x ∈ cs, K.mono s x
  chain_to : ∀ t, r = .ok t → ∀ x ∈ cs, K.mono x t

/-- Everything the rule promises about one script started in `s`. -/
abbrev Upheld (K : Contract M A) (sc : Script σ μ ρ ε α κ δ) (s : σ) : Prop :=
  K.Holds s (M.trace sc s) (M.committed sc s) (M.run sc s)

/-- Nothing happens any more. -/
theorem holds_stop (K : Contract M A) {s : σ} {r : Except ρ σ} (hs : K.inv s)
    (hr : ∀ t, r = .ok t → s = t) : K.Holds s [.idle s] [s] r where
  result := by
    intro t h
    rw [← hr t h]
    exact ⟨hs, K.rel_refl s, K.mono_refl s⟩
  points := by
    intro p hp
    rw [List.mem_singleton.mp hp]
    exact ⟨hs, K.mono_refl s⟩
  chain := List.pairwise_singleton _ _
  chain_from := by
    intro x hx
    rw [List.mem_singleton.mp hx]
    exact K.mono_refl s
  chain_to := by
    intro t h x hx
    rw [List.mem_singleton.mp hx, ← hr t h]
    exact K.mono_refl s

/-- A stretch from `s` to `t` followed by one from `t`. -/
theorem Holds.append {K : Contract M A} {s t : σ} {ps ps' : List (Point σ κ)}
    {cs cs' : List σ} {r : Except ρ σ} (h : K.Holds s ps cs (.ok t : Except ρ σ))
    (h' : K.Holds t ps' cs' r) : K.Holds s (ps ++ ps') (cs ++ cs') r := by
  obtain ⟨_, hrel, hmono⟩ := h.result t rfl
  refine ⟨?_, ?_, ?_, ?_, ?_⟩
  · intro v hv
    obtain ⟨a1, a2, a3⟩ := h'.result v hv
    exact ⟨a1, K.rel_trans hrel a2, K.mono_trans hmono a3⟩
  · intro p hp
    rcases List.mem_append.mp hp with hp | hp
    · exact h.points p hp
    · exact ⟨(h'.points p hp).1, K.mono_trans hmono (h'.points p hp).2⟩
  · exact List.pairwise_append.mpr ⟨h.chain, h'.chain,
      fun x hx y hy => K.mono_trans (h.chain_to t rfl x hx) (h'.chain_from y hy)⟩
  · intro x hx
    rcases List.mem_append.mp hx with hx | hx
    · exact h.chain_from x hx
    · exact K.mono_trans hmono (h'.chain_from x hx)
  · intro v hv x hx
    rcases List.mem_append.mp hx with hx | hx
    · exact K.mono_trans (h.chain_to t rfl x hx) (h'.result v hv).2.2
    · exact h'.chain_to v hv x hx

/-- A stretch that was undone, followed by one that starts over from `s`: only the points
    remain. -/
theorem Holds.undone {K : Contract M A} {s : σ} {ps ps' : List (Point σ κ)} {cs : List σ}
    {r : Except ρ σ} (h : ∀ p ∈ ps, K.inv p.state ∧ K.mono s p.state)
    (h' : K.Holds s ps' cs r) : K.Holds s (ps ++ ps') cs r := by
  refine ⟨h'.result, ?_, h'.chain, h'.chain_from, h'.chain_to⟩
  intro p hp
  rcases List.mem_append.mp hp with hp | hp
  · exact h p hp
  · exact h'.points p hp

/-- A stretch in which nothing has happened yet, only the outside has had a look. -/
theorem holds_start (K : Contract M A) {s : σ} (p : Point σ κ) (hp : p.state = s)
    (hs : K.inv s) : K.Holds s [p] [s] (.ok s : Except ρ σ) where
  result := by
    intro t h
    obtain rfl : s = t := by simpa using h
    exact ⟨hs, K.rel_refl s, K.mono_refl s⟩
  points := by
    intro q hq
    rw [List.mem_singleton.mp hq, hp]
    exact ⟨hs, K.mono_refl s⟩
  chain := List.pairwise_singleton _ _
  chain_from := by
    intro x hx
    rw [List.mem_singleton.mp hx]
    exact K.mono_refl s
  chain_to := by
    intro t h x hx
    obtain rfl : s = t := by simpa using h
    rw [List.mem_singleton.mp hx]
    exact K.mono_refl s

/-- One call: the invariant holds at each call out, and the call as a whole keeps its
    promise, if each callback keeps its own.  Induction on the program; `u` is where the
    current stretch of code began. -/
theorem call_sound (K : Contract M A) (O : Nat → μ → σ → Except ρ σ) {s : σ}
    {Q : σ → Prop} (p : Prog σ μ ρ ε β) :
    ∀ (n : Nat) (u : σ), K.mono s u →
      p.wp (fun u t => K.inv t ∧ K.mono u t) (fun t t' => K.inv t' ∧ K.rel t t' ∧ K.mono t t')
        (fun u _ t => Q t ∧ K.mono u t) u →
      (∀ c ∈ p.callouts O n, K.inv c.2.2 → ∀ t', O c.1 c.2.1 c.2.2 = .ok t' →
        K.inv t' ∧ K.rel c.2.2 t' ∧ K.mono c.2.2 t') →
      (∀ c ∈ p.callouts O n, K.inv c.2.2 ∧ K.mono s c.2.2)
        ∧ ∀ a t, p.exec O n = .ok (a, t) → Q t ∧ K.mono s t := by
  induction p with
  | ret a t =>
      rintro n u hu ⟨hQ, hm⟩ _
      refine ⟨fun c hc => (nomatch hc), ?_⟩
      intro b t' h
      obtain ⟨rfl, rfl⟩ : a = b ∧ t = t' := by simpa using h
      exact ⟨hQ, K.mono_trans hu hm⟩
  | fail e =>
      intro n u _ _ _
      exact ⟨fun c hc => (nomatch hc), fun a t h => nomatch h⟩
  | call m t k ih =>
      rintro n u hu ⟨⟨hinv, hmono⟩, hok, herr⟩ hO
      have hst : K.mono s t := K.mono_trans hu hmono
      have hhead := hO (n, m, t) (List.mem_cons_self ..) hinv
      -- what is left to run, and the state it is resumed in
      have hrest : ∃ u', K.mono s u' ∧
          (k (O n m t)).wp (fun u t => K.inv t ∧ K.mono u t)
            (fun t t' => K.inv t' ∧ K.rel t t' ∧ K.mono t t')
            (fun u _ t => Q t ∧ K.mono u t) u' := by
        cases hr : O n m t with
        | ok t' =>
            have hG := hhead t' hr
            exact ⟨t', K.mono_trans hst hG.2.2, hok t' hG⟩
        | error d => exact ⟨u, hu, herr d⟩
      obtain ⟨u', hu', hwp⟩ := hrest
      obtain ⟨hc, hx⟩ := ih (O n m t) (n + 1) u' hu' hwp
        (fun c hc => hO c (List.mem_cons_of_mem _ hc))
      refine ⟨?_, hx⟩
      intro c hmem
      rcases List.mem_cons.mp hmem with rfl | hmem
      · exact ⟨hinv, hst⟩
      · exact hc c hmem

/-- One call, seen as a stretch of the surviving history: the states its successful
    callbacks pass through are ordered, from where the code started to where it ends. -/
theorem call_chain (K : Contract M A) (O : Nat → μ → σ → Except ρ σ)
    (W : Nat → μ → σ → List σ) {Q : σ → Prop} (p : Prog σ μ ρ ε α) :
    ∀ (n : Nat) (u : σ),
      p.wp (fun u t => K.inv t ∧ K.mono u t) (fun t t' => K.inv t' ∧ K.rel t t' ∧ K.mono t t')
        (fun u _ t => Q t ∧ K.mono u t) u →
      (∀ c ∈ p.callouts O n, K.inv c.2.2 → (∀ t', O c.1 c.2.1 c.2.2 = .ok t' →
          (K.inv t' ∧ K.rel c.2.2 t' ∧ K.mono c.2.2 t')
            ∧ ∀ x ∈ W c.1 c.2.1 c.2.2, K.mono x t')
        ∧ (W c.1 c.2.1 c.2.2).Pairwise K.mono
        ∧ (∀ x ∈ W c.1 c.2.1 c.2.2, K.mono c.2.2 x)
        ∧ ∀ d, O c.1 c.2.1 c.2.2 = .error d → W c.1 c.2.1 c.2.2 = []) →
      (p.gather O W n).Pairwise K.mono
        ∧ (∀ x ∈ p.gather O W n, K.mono u x)
        ∧ ∀ a t, p.exec O n = .ok (a, t) → K.mono u t ∧ ∀ x ∈ p.gather O W n, K.mono x t := by
  induction p with
  | ret a t =>
      rintro n u ⟨_, hm⟩ _
      refine ⟨List.Pairwise.nil, fun x hx => (nomatch hx), ?_⟩
      intro b t' h
      obtain ⟨rfl, rfl⟩ : a = b ∧ t = t' := by simpa using h
      exact ⟨hm, fun x hx => nomatch hx⟩
  | fail e =>
      intro n u _ _
      exact ⟨List.Pairwise.nil, fun x hx => (nomatch hx), fun a t h => nomatch h⟩
  | call m t k ih =>
      rintro n u ⟨⟨hinv, hmono⟩, hok, herr⟩ hO
      obtain ⟨hres, hpw, hfrom, hnil⟩ := hO (n, m, t) (List.mem_cons_self ..) hinv
      have htail := fun c hc => hO c (List.mem_cons_of_mem _ hc)
      rw [Prog.gather_call]
      cases hr : O n m t with
      | error d =>
          -- a failed callback leaves nothing behind, the code goes on from `u`
          rw [hnil d hr, List.nil_append]
          have := ih (O n m t) (n + 1) u (by rw [hr]; exact herr d) htail
          rw [hr] at this
          refine ⟨this.1, this.2.1, ?_⟩
          intro a v hv
          exact this.2.2 a v (by rw [← hr]; exact hv)
      | ok t' =>
          obtain ⟨hG, hto⟩ := hres t' hr
          have hut' : K.mono u t' := K.mono_trans hmono hG.2.2
          have := ih (O n m t) (n + 1) t' (by rw [hr]; exact hok t' hG) htail
          rw [hr] at this
          obtain ⟨hpw', hfrom', hto'⟩ := this
          refine ⟨?_, ?_, ?_⟩
          · exact List.pairwise_append.mpr ⟨hpw, hpw',
              fun x hx y hy => K.mono_trans (hto x hx) (hfrom' y hy)⟩
          · intro x hx
            rcases List.mem_append.mp hx with hx | hx
            · exact K.mono_trans hmono (hfrom x hx)
            · exact K.mono_trans hut' (hfrom' x hx)
          · intro a v hv
            obtain ⟨hv1, hv2⟩ := hto' a v (by rw [← hr]; exact hv)
            refine ⟨K.mono_trans hut' hv1, ?_⟩
            intro x hx
            rcases List.mem_append.mp hx with hx | hx
            · exact K.mono_trans (hto x hx) hv1
            · exact hv2 x hx

/-- The code of an entry point, with callbacks that uphold the contract: every point inside
    keeps it, and if the code succeeds the stretch that survives does. -/
theorem holds_body (K : Contract M A) {c : κ} {outs : Nat → μ → Script σ μ ρ ε α κ δ} {s : σ}
    (hs : K.inv s) (hA : A c s)
    (hcb : ∀ x ∈ M.handovers c outs s, K.inv x.2.2 → K.Upheld (outs x.1 x.2.1) x.2.2) :
    (∀ p ∈ (M.body c s).gather (M.oracle outs) (fun i m => M.trace (outs i m)) 0,
      K.inv p.state ∧ K.mono s p.state)
    ∧ ∀ a t, M.invoke c outs s = .ok (a, t) → K.inv t
      ∧ K.Holds s ((M.body c s).gather (M.oracle outs) (fun i m => M.trace (outs i m)) 0)
        ((M.body c s).gather (M.oracle outs) (M.survivors outs) 0) (.ok t : Except ρ σ) := by
  have hbody := K.body c s hs hA
  obtain ⟨hcall, hexec⟩ := K.call_sound (M.oracle outs) (s := s)
    (Q := fun t => K.inv t ∧ K.rel s t) (M.body c s) 0 s (K.mono_refl s) hbody
    (fun x hx hinv t' ht => (hcb x hx hinv).result t' ht)
  -- the points inside the callbacks, whether or not the call goes through
  have hpts : ∀ p ∈ (M.body c s).gather (M.oracle outs)
      (fun i m => M.trace (outs i m)) 0, K.inv p.state ∧ K.mono s p.state := by
    intro p hp
    obtain ⟨x, hx, hpx⟩ := (Prog.mem_gather _ _ p (M.body c s) 0).mp hp
    obtain ⟨hi, hm⟩ := hcall x hx
    obtain ⟨hi', hm'⟩ := (hcb x hx hi).points p hpx
    exact ⟨hi', K.mono_trans hm hm'⟩
  refine ⟨hpts, fun a t hr => ?_⟩
  obtain ⟨⟨hinv, hrel⟩, hmono⟩ := hexec a t hr
  obtain ⟨g1, g2, g3⟩ := K.call_chain (M.oracle outs) (M.survivors outs)
    (Q := fun t => K.inv t ∧ K.rel s t) (M.body c s) 0 s hbody (by
      intro x hx hi
      have hup := hcb x hx hi
      cases hrx : M.run (outs x.1 x.2.1) x.2.2 with
      | ok t' =>
          rw [M.survivors_ok hrx]
          refine ⟨?_, hup.chain, hup.chain_from, fun d h => nomatch hrx.symm.trans h⟩
          intro t'' h
          exact ⟨hup.result t'' h, hup.chain_to t'' h⟩
      | error d =>
          rw [M.survivors_error hrx]
          exact ⟨fun t'' h => (nomatch hrx.symm.trans h), List.Pairwise.nil,
            fun x hx => (nomatch hx), fun _ _ => rfl⟩)
  refine ⟨hinv, ?_, hpts, g1, g2, ?_⟩
  · intro v h
    obtain rfl : t = v := by simpa using h
    exact ⟨hinv, hrel, hmono⟩
  · intro v h
    obtain rfl : t = v := by simpa using h
    exact (g3 a t hr).2

/-- **The rely/guarantee rule.**  If every entry point upholds the contract whenever its
    callbacks do, then every script upholds it: at its end, at every point it passes, and
    along the states that survive.  Structural induction on the script; the callbacks of
    a call are smaller scripts, so the entry point's assumption about them is discharged
    by the induction hypothesis. -/
theorem sound (K : Contract M A) :
    ∀ (sc : Script σ μ ρ ε α κ δ) (s : σ), K.inv s →
      (∀ c v, Point.enter c v ∈ M.trace sc s → A c v) → K.Upheld sc s := by
  intro sc
  induction sc with
  | done =>
      intro s hs _
      exact K.holds_stop hs (fun t h => by simpa [Machine.run] using h)
  | revert d =>
      intro s hs _
      exact K.holds_stop hs (fun t h => nomatch h)
  | look k ih =>
      intro s hs hA
      exact ih (M.view s) s hs hA
  | act d k ih =>
      intro s hs hA
      obtain ⟨hinv, hrel, hmono⟩ := K.move d s hs
      have hmoved : K.Holds s [.idle s] [s] (.ok (M.move d s) : Except ρ σ) := by
        have h0 := K.holds_start (ρ := ρ) (.idle s) rfl hs
        refine ⟨?_, h0.points, h0.chain, h0.chain_from, ?_⟩
        · intro t h
          obtain rfl : M.move d s = t := by simpa using h
          exact ⟨hinv, hrel, hmono⟩
        · intro t h x hx
          obtain rfl : M.move d s = t := by simpa using h
          rw [List.mem_singleton.mp hx]
          exact hmono
      exact hmoved.append (ih (M.move d s) hinv
        (fun c v h => hA c v (List.mem_cons_of_mem _ h)))
  | call c outs k ihouts ihk =>
      intro s hs hA
      have hcb : ∀ x ∈ M.handovers c outs s, K.inv x.2.2 →
          K.Upheld (outs x.1 x.2.1) x.2.2 := by
        intro x hx hinv
        exact ihouts x.1 x.2.1 x.2.2 hinv
          (fun c' v h => hA c' v (M.mem_trace_of_handover hx h))
      have hallowed := hA c s (by rw [M.trace_call]; exact List.mem_cons_self ..)
      obtain ⟨hpts, hok⟩ := K.holds_body hs hallowed hcb
      have hentry := K.holds_start (ρ := ρ) (.enter c s) rfl hs
      have hA' : ∀ c' v, Point.enter c' v ∈ (match M.invoke c outs s with
          | .ok (a, t) => M.trace (k (.ok a)) t
          | .error e => M.trace (k (.error e)) s) → A c' v := by
        intro c' v h
        refine hA c' v ?_
        rw [M.trace_call]
        exact List.mem_cons_of_mem _ (List.mem_append.mpr (Or.inr h))
      show K.Holds s (M.trace _ s) (M.committed _ s) (M.run _ s)
      rw [M.trace_call, M.committed_call, M.run_call]
      cases hr : M.invoke c outs s with
      | error e =>
          rw [hr] at hA'
          exact hentry.append (.undone hpts (ihk (.error e) s hs hA'))
      | ok r =>
          obtain ⟨a, t⟩ := r
          rw [hr] at hA'
          obtain ⟨hinv, hmid⟩ := hok a t hr
          exact hentry.append (hmid.append (ihk (.ok a) t hinv hA'))
  | frame inner k ihi ihk =>
      intro s hs hA
      rw [M.trace_frame] at hA
      have hi := ihi s hs (fun c v h => hA c v (List.mem_append.mpr (Or.inl h)))
      have hA' := fun c v h => hA c v (List.mem_append.mpr (Or.inr h))
      show K.Holds s (M.trace _ s) (M.committed _ s) (M.run _ s)
      rw [M.trace_frame, M.committed_frame, M.run_frame]
      have hi' : K.Holds s (M.trace inner s) (M.committed inner s) (M.run inner s) := hi
      cases hr : M.run inner s with
      | error d =>
          rw [hr] at hA'
          exact .undone hi'.points (ihk (.error d) s hs hA')
      | ok t =>
          rw [hr] at hA' hi'
          exact hi'.append (ihk (.ok ()) t (hi'.result t rfl).1 hA')

end Contract

/-! ## Two machines side by side -/

/-- Both results fail, with errors related by `R`, or both succeed with the same value in
    states related by `E`. -/
inductive Agree (E : σ → σ → Prop) (R : ε → ε → Prop) :
    Except ε (α × σ) → Except ε (α × σ) → Prop where
  | ok (a : α) {s t : σ} : E s t → Agree E R (.ok (a, s)) (.ok (a, t))
  | error {e e' : ε} : R e e' → Agree E R (.error e) (.error e')

/-- The same for runs of scripts, with equal revert data. -/
inductive AgreeRun (E : σ → σ → Prop) : Except ρ σ → Except ρ σ → Prop where
  | ok {s t : σ} : E s t → AgreeRun E (.ok s) (.ok t)
  | error (d : ρ) : AgreeRun E (.error d) (.error d)

/-- The same computation followed by matching ones. -/
theorem Agree.bind {E : σ → σ → Prop} {R : ε → ε → Prop} (hR : ∀ e, R e e) (x : Except ε β)
    {f g : β → Except ε (α × σ)} (h : ∀ b, Agree E R (f b) (g b)) :
    Agree E R (x >>= f) (x >>= g) := by
  cases x with
  | error e => exact .error (hR e)
  | ok b => exact h b

/-- Two programs that make the same calls out, from states related by `E`, go on alike, and
    return the same value in states related by `F`. -/
inductive Prog.Sim (E F : σ → σ → Prop) (R : ε → ε → Prop) :
    Prog σ μ ρ ε α → Prog σ μ ρ ε α → Prop where
  | ret (a : α) {s t : σ} : F s t → Prog.Sim E F R (.ret a s) (.ret a t)
  | fail {e e' : ε} : R e e' → Prog.Sim E F R (.fail e) (.fail e')
  | call (m : μ) {s t : σ} {k l : Except ρ σ → Prog σ μ ρ ε α} : E s t →
      (∀ s' t', E s' t' → Prog.Sim E F R (k (.ok s')) (l (.ok t'))) →
      (∀ d, Prog.Sim E F R (k (.error d)) (l (.error d))) →
      Prog.Sim E F R (.call m s k) (.call m t l)

namespace Prog.Sim

variable {E F : σ → σ → Prop} {R : ε → ε → Prop}

/-- Matching programs against matching oracles give matching results. -/
theorem exec {O O' : Nat → μ → σ → Except ρ σ}
    (hO : ∀ i m s t, E s t → AgreeRun E (O i m s) (O' i m t))
    {p q : Prog σ μ ρ ε α} (h : Prog.Sim E F R p q) :
    ∀ n : Nat, Agree F R (p.exec O n) (q.exec O' n) := by
  induction h with
  | ret a hF => intro n; exact .ok a hF
  | fail hR => intro n; exact .error hR
  | @call m s t k l hE _ _ ihok iherr =>
      intro n
      show Agree F R ((k (O n m s)).exec O (n + 1)) ((l (O' n m t)).exec O' (n + 1))
      have hag := hO n m s t hE
      generalize O n m s = r at hag ⊢
      generalize O' n m t = r' at hag ⊢
      cases hag with
      | ok hE' => exact ihok _ _ hE' (n + 1)
      | error d => exact iherr d (n + 1)

/-- Matching sequences. -/
theorem bind {G : σ → σ → Prop} {p q : Prog σ μ ρ ε α} {f g : α → σ → Prog σ μ ρ ε β}
    (h : Prog.Sim E F R p q) (hf : ∀ a s t, F s t → Prog.Sim E G R (f a s) (g a t)) :
    Prog.Sim E G R (p.bind f) (q.bind g) := by
  induction h with
  | ret a hF => exact hf a _ _ hF
  | fail hR => exact .fail hR
  | call m hE _ _ ihok iherr => exact .call m hE ihok iherr

/-- Matching code without a call out. -/
theorem inline {f g : σ → Except ε (α × σ)} {s t : σ} (h : Agree F R (f s) (g t)) :
    Prog.Sim E F R ((Code.inline f : Code σ μ ρ ε α) s)
      ((Code.inline g : Code σ μ ρ ε α) t) := by
  rw [Code.inline, Code.inline]
  generalize f s = r at h ⊢
  generalize g t = r' at h ⊢
  cases h with
  | ok a hF => exact .ret a hF
  | error hR => exact .fail hR

/-- Matching calls out. -/
theorem external {m : μ} {pay pay' : σ → σ} {s t : σ} (hpay : E (pay s) (pay' t))
    (hE : E s t) :
    Prog.Sim E E R ((Code.external m pay : Code σ μ ρ ε (Except ρ Unit)) s)
      ((Code.external m pay' : Code σ μ ρ ε (Except ρ Unit)) t) :=
  .call m hpay (fun _ _ h => .ret _ h) (fun _ => .ret _ hE)

/-- What is known of the first program's states may be added to the relations. -/
theorem and_inv {I J : σ → Prop} {p q : Prog σ μ ρ ε α} (h : Prog.Sim E F R p q) :
    ∀ u : σ, p.wp (fun _ t => I t) (fun _ t => I t) (fun _ _ t => J t) u →
      Prog.Sim (fun s t => I s ∧ E s t) (fun s t => J s ∧ F s t) R p q := by
  induction h with
  | ret a hF => intro u hJ; exact .ret a ⟨hJ, hF⟩
  | fail hR => intro u _; exact .fail hR
  | call m hE _ _ ihok iherr =>
      rintro u ⟨hI, hok, herr⟩
      exact .call m ⟨hI, hE⟩ (fun s' t' h => ihok s' t' h.2 s' (hok s' h.1))
        (fun d => iherr d u (herr d))

end Prog.Sim

/-- **Simulation of call trees.**  If the entry points of two machines match and both
    look the same from outside, every script has matching outcomes on both.  Structural
    induction on the script. -/
theorem Machine.agree_of_sim {E : σ → σ → Prop} {M N : Machine σ μ ρ ε α κ δ}
    (hview : ∀ s t, E s t → M.view s = N.view t)
    (hmove : ∀ d s t, E s t → E (M.move d s) (N.move d t))
    (hbody : ∀ c s t, E s t → Prog.Sim E E Eq (M.body c s) (N.body c t)) :
    ∀ (sc : Script σ μ ρ ε α κ δ) (s t : σ), E s t →
      AgreeRun E (M.run sc s) (N.run sc t) := by
  intro sc
  induction sc with
  | done => intro s t hE; exact .ok hE
  | revert d => intro s t _; exact .error d
  | look k ih =>
      intro s t hE
      have := ih (M.view s) s t hE
      show AgreeRun E (M.run (k (M.view s)) s) (N.run (k (N.view t)) t)
      rw [← hview s t hE]
      exact this
  | act d k ih =>
      intro s t hE
      exact ih _ _ (hmove d s t hE)
  | call c outs k ihouts ihk =>
      intro s t hE
      have hag : Agree E Eq ((M.body c s).exec (M.oracle outs) 0)
          ((N.body c t).exec (N.oracle outs) 0) :=
        Prog.Sim.exec (fun i m s t h => ihouts i m s t h) (hbody c s t hE) 0
      rw [M.run_call, N.run_call]
      rw [Machine.invoke, Machine.invoke]
      generalize (M.body c s).exec (M.oracle outs) 0 = r at hag ⊢
      generalize (N.body c t).exec (N.oracle outs) 0 = r' at hag ⊢
      cases hag with
      | ok a hE' => exact ihk (.ok a) _ _ hE'
      | @error e e' hR =>
          subst hR
          exact ihk (.error e) s t hE
  | frame inner k ihi ihk =>
      intro s t hE
      have hag := ihi s t hE
      rw [M.run_frame, N.run_frame]
      generalize M.run inner s = r at hag ⊢
      generalize N.run inner t = r' at hag ⊢
      cases hag with
      | ok hE' => exact ihk (.ok ()) _ _ hE'
      | error d => exact ihk (.error d) s t hE

/-! ## Calls that are always refused -/

/-- The script with every call that `refuse` answers replaced by its refusal. -/
def Script.refuse (refuse : κ → Option ε) :
    Script σ μ ρ ε α κ δ → Script σ μ ρ ε α κ δ
  | .done => .done
  | .revert d => .revert d
  | .look k => .look (fun v => (k v).refuse refuse)
  | .act d k => .act d (k.refuse refuse)
  | .call c outs k =>
      match refuse c with
      | some e => (k (.error e)).refuse refuse
      | none => .call c (fun i m => (outs i m).refuse refuse) (fun r => (k r).refuse refuse)
  | .frame inner k => .frame (inner.refuse refuse) (fun r => (k r).refuse refuse)

/-- **Refused calls leave no trace.**  Where a contract keeps the calls answered by
    `refuse` failing with that answer, cutting them out of a script changes nothing. -/
theorem Contract.run_refuse {M : Machine σ μ ρ ε α κ δ}
    (K : Contract M (fun _ _ => True)) {refuse : κ → Option ε}
    (hrefuse : ∀ c e s, K.inv s → refuse c = some e → M.body c s = .fail e) :
    ∀ (sc : Script σ μ ρ ε α κ δ) (s : σ), K.inv s →
      M.run (sc.refuse refuse) s = M.run sc s := by
  intro sc
  induction sc with
  | done => intro s _; rfl
  | revert d => intro s _; rfl
  | look k ih => intro s hs; exact ih (M.view s) s hs
  | act d k ih => intro s hs; exact ih _ (K.move d s hs).1
  | call c outs k ihouts ihk =>
      intro s hs
      cases hc : refuse c with
      | some e =>
          have hfail : M.invoke c outs s = .error e := by
            rw [Machine.invoke]
            rw [hrefuse c e s hs hc]
            rfl
          rw [M.run_call, hfail, Script.refuse, hc]
          exact ihk (.error e) s hs
      | none =>
          -- the oracles agree on every state in which the invariant holds
          have hinvoke : M.invoke c (fun i m => (outs i m).refuse refuse) s
              = M.invoke c outs s := by
            refine Prog.exec_congr ?_ ?_ (M.body c s) 0 s (K.body c s hs trivial)
            · rintro i m u t ⟨hinv, _⟩
              exact ihouts i m t hinv
            · rintro i m u t t' ⟨hinv, _⟩ hr
              exact (K.sound (outs i m) t hinv (fun _ _ _ => trivial)).result t' hr
          rw [Script.refuse, hc]
          show M.run (.call c _ _) s = _
          rw [M.run_call, M.run_call, hinvoke]
          cases hr : M.invoke c outs s with
          | error e => exact ihk (.error e) s hs
          | ok r =>
              obtain ⟨a, t⟩ := r
              have hup := K.sound (.call c outs (fun r => match r with
                | .ok _ => .done
                | .error _ => .done)) s hs (fun _ _ _ => trivial)
              have ht := hup.result t (by rw [M.run_call, hr]; rfl)
              exact ihk (.ok a) t ht.1
  | frame inner k ihi ihk =>
      intro s hs
      show M.run (.frame (inner.refuse refuse) (fun r => (k r).refuse refuse)) s = _
      rw [M.run_frame, M.run_frame, ihi s hs]
      cases hr : M.run inner s with
      | error d => exact ihk (.error d) s hs
      | ok t =>
          have hup := K.sound inner s hs (fun _ _ _ => trivial)
          exact ihk (.ok ()) t (hup.result t hr).1

end CallTree
