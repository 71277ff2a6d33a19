import Mathlib.Logic.Basic

/-!
# Programs that ask the world

A program asks one operation after another and goes on with what is answered.  What it does is
judged by a protocol: a relation that says which operations may follow each other.

* **`Prog`** — programs; `Does`, `Begins` are their runs, whole and so far.
* **`Safe`** — however the world answers, the protocol is kept and the program ends as it should;
  `safe_bind`, `Safe.mono` take it apart.
* **`Safe.does`**, **`Safe.begins`** — what it says of runs; **`Follows.script`** — where the
  protocol is a list of operations, a run so far has asked the first of them.
* **`Prog.Only`** — all that a program asks is of one kind; **`Prog.eval`** — what it ends with
  where the answers are fixed.
* **`Prog.interpret`**, **`safe_interpret`** — a program whose operations are programs themselves:
  if each of them keeps the protocol below wherever it keeps the one above, the whole does. -/

namespace Effect

/-! ## Programs -/

/-- A program, over the operations and what each can be answered. -/
inductive Prog (Op : Type) (Answer : Op → Type) (α : Type) where
  | done (a : α)
  | ask (op : Op) (next : Answer op → Prog Op Answer α)

/-- An operation with its answer. -/
structure Event (Op : Type) (Answer : Op → Type) where
  op : Op
  answer : Answer op

variable {Op Call State Upper σ : Type} {Answer : Op → Type} {Reply : Call → Type} {α β : Type}

namespace Prog

def bind : Prog Op Answer α → (α → Prog Op Answer β) → Prog Op Answer β
  | done a, f => f a
  | ask op next, f => ask op fun answer => (next answer).bind f

instance : Monad (Prog Op Answer) where
  pure := done
  bind := bind

/-- The program that asks this. -/
def perform (op : Op) : Prog Op Answer (Answer op) := ask op done

/-- What a program can have asked and been answered when it ends, and with what it ends. -/
inductive Does : Prog Op Answer α → List (Event Op Answer) → α → Prop
  | done (a : α) : Does (done a) [] a
  | ask (op : Op) (next : Answer op → Prog Op Answer α) (answer : Answer op)
      {log : List (Event Op Answer)} {a : α} :
      Does (next answer) log a → Does (ask op next) (⟨op, answer⟩ :: log) a

/-- What a program can have asked and been answered so far. -/
inductive Begins : Prog Op Answer α → List (Event Op Answer) → Prop
  | nil (p : Prog Op Answer α) : Begins p []
  | ask (op : Op) (next : Answer op → Prog Op Answer α) (answer : Answer op)
      {log : List (Event Op Answer)} :
      Begins (next answer) log → Begins (ask op next) (⟨op, answer⟩ :: log)

/-- A program whose operations are answered by programs, over a state. -/
def interpret (handle : (call : Call) → σ → Prog Op Answer (Reply call × σ)) :
    Prog Call Reply α → σ → Prog Op Answer (α × σ)
  | done a, x => done (a, x)
  | ask call next, x =>
      (handle call x).bind fun reply => (next reply.1).interpret handle reply.2

end Prog

/-- What a program asks is all of this kind. -/
def Prog.Only (P : Op → Prop) : Prog Op Answer α → Prop
  | .done _ => True
  | .ask op next => P op ∧ ∀ answer, (next answer).Only P

/-- What a program asks is all of one kind, and what it ends with is of another. -/
def Prog.OnlyTo (P : Op → Prop) (Q : α → Prop) : Prog Op Answer α → Prop
  | .done a => Q a
  | .ask op next => P op ∧ ∀ answer, (next answer).OnlyTo P Q

theorem Prog.OnlyTo.mono {P : Op → Prop} {Q R : α → Prop} {p : Prog Op Answer α}
    (h : p.OnlyTo P Q) (himp : ∀ a, Q a → R a) : p.OnlyTo P R := by
  induction p with
  | done a => exact himp a h
  | ask op next ih => exact ⟨h.1, fun answer => ih answer (h.2 answer)⟩

theorem Prog.OnlyTo.only {P : Op → Prop} {Q : α → Prop} {p : Prog Op Answer α}
    (h : p.OnlyTo P Q) : p.Only P := by
  induction p with
  | done a => trivial
  | ask op next ih => exact ⟨h.1, fun answer => ih answer (h.2 answer)⟩

/-- What a program ends with where every operation always has the same answer. -/
def Prog.eval (respond : (op : Op) → Answer op) : Prog Op Answer α → α
  | .done a => a
  | .ask op next => (next (respond op)).eval respond

theorem Prog.eval_bind (respond : (op : Op) → Answer op) (p : Prog Op Answer α)
    (f : α → Prog Op Answer β) : (p.bind f).eval respond = (f (p.eval respond)).eval respond := by
  induction p with
  | done a => rfl
  | ask op next ih => exact ih (respond op)

theorem Prog.Does.eval {respond : (op : Op) → Answer op} {p : Prog Op Answer α}
    {log : List (Event Op Answer)} {a : α} (h : p.Does log a)
    (hlog : ∀ e ∈ log, e.answer = respond e.op) : a = p.eval respond := by
  induction h with
  | done a => rfl
  | ask op next answer _ ih =>
      obtain rfl : answer = respond op := hlog _ (.head _)
      exact ih fun e he => hlog e (.tail _ he)

theorem Prog.does_eval (respond : (op : Op) → Answer op) (p : Prog Op Answer α) :
    ∃ log, p.Does log (p.eval respond) ∧ ∀ e ∈ log, e.answer = respond e.op := by
  induction p with
  | done a => exact ⟨[], .done a, fun e he => nomatch he⟩
  | ask op next ih =>
      obtain ⟨log, hdoes, hlog⟩ := ih (respond op)
      refine ⟨⟨op, respond op⟩ :: log, .ask op next (respond op) hdoes, fun e he => ?_⟩
      rcases List.mem_cons.mp he with rfl | he
      · rfl
      · exact hlog e he

/-! ## Protocols -/

section

variable (Step : State → Event Op Answer → State → Prop)

/-- The steps that a log makes. -/
inductive Follows : State → List (Event Op Answer) → State → Prop
  | nil (s : State) : Follows s [] s
  | cons {s s' s'' : State} {e : Event Op Answer} {log : List (Event Op Answer)} :
      Step s e s' → Follows s' log s'' → Follows s (e :: log) s''

/-- However the world answers, the program keeps the protocol, and what it ends with is as it
    should be. -/
def Safe (Q : State → α → Prop) : Prog Op Answer α → State → Prop
  | .done a, s => Q s a
  | .ask op next, s => ∀ answer, ∃ s', Step s ⟨op, answer⟩ s' ∧ Safe Q (next answer) s'

variable {Step}

theorem Safe.mono {Q Q' : State → α → Prop} (himp : ∀ s a, Q s a → Q' s a)
    {p : Prog Op Answer α} : ∀ {s : State}, Safe Step Q p s → Safe Step Q' p s := by
  induction p with
  | done a =>
      intro s h
      exact himp s a h
  | ask op next ih =>
      intro s h answer
      obtain ⟨s', hstep, hnext⟩ := h answer
      exact ⟨s', hstep, ih answer hnext⟩

/-- **One program after the other.** -/
theorem safe_bind {Q : State → β → Prop} {f : α → Prog Op Answer β} {p : Prog Op Answer α} :
    ∀ {s : State}, Safe Step Q (p.bind f) s ↔ Safe Step (fun s a => Safe Step Q (f a) s) p s := by
  induction p with
  | done a =>
      intro s
      exact Iff.rfl
  | ask op next ih =>
      intro s
      constructor
      · intro h answer
        obtain ⟨s', hstep, hnext⟩ := h answer
        exact ⟨s', hstep, (ih answer).mp hnext⟩
      · intro h answer
        obtain ⟨s', hstep, hnext⟩ := h answer
        exact ⟨s', hstep, (ih answer).mpr hnext⟩

theorem Safe.bind {R : State → α → Prop} {Q : State → β → Prop} {f : α → Prog Op Answer β}
    {p : Prog Op Answer α} {s : State} (h : Safe Step R p s)
    (hnext : ∀ s a, R s a → Safe Step Q (f a) s) : Safe Step Q (p.bind f) s :=
  safe_bind.mpr (h.mono hnext)

/-- **A run that has ended** kept the protocol and ended as it should. -/
theorem Safe.does {Q : State → α → Prop} {p : Prog Op Answer α} {s : State}
    {log : List (Event Op Answer)} {a : α} (h : Safe Step Q p s) (hdoes : p.Does log a) :
    ∃ s', Follows Step s log s' ∧ Q s' a := by
  induction hdoes generalizing s with
  | done a => exact ⟨s, .nil s, h⟩
  | ask op next answer _ ih =>
      obtain ⟨s', hstep, hnext⟩ := h answer
      obtain ⟨s'', hfollows, hend⟩ := ih hnext
      exact ⟨s'', .cons hstep hfollows, hend⟩

/-- **A run so far** has kept the protocol. -/
theorem Safe.begins {Q : State → α → Prop} {p : Prog Op Answer α} {s : State}
    {log : List (Event Op Answer)} (h : Safe Step Q p s) (hbegins : p.Begins log) :
    ∃ s', Follows Step s log s' := by
  induction hbegins generalizing s with
  | nil p => exact ⟨s, .nil s⟩
  | ask op next answer _ ih =>
      obtain ⟨s', hstep, hnext⟩ := h answer
      obtain ⟨s'', hfollows⟩ := ih hnext
      exact ⟨s'', .cons hstep hfollows⟩

theorem Follows.split {s s'' : State} {log more : List (Event Op Answer)}
    (h : Follows Step s (log ++ more) s'') :
    ∃ s', Follows Step s log s' ∧ Follows Step s' more s'' := by
  induction log generalizing s with
  | nil => exact ⟨s, .nil s, h⟩
  | cons e log ih =>
      cases h with
      | cons hstep hrest =>
          obtain ⟨s', hlog, hmore⟩ := ih hrest
          exact ⟨s', .cons hstep hlog, hmore⟩

theorem Prog.Only.safe {P : Op → Prop} {p : Prog Op Answer α} (h : p.Only P) :
    Safe (fun (_ : Unit) e (_ : Unit) => P e.op) (fun _ _ => True) p () := by
  induction p with
  | done a => trivial
  | ask op next ih =>
      intro answer
      exact ⟨(), h.1, ih answer (h.2 answer)⟩

/-- The protocol that allows everything. -/
theorem safe_any (p : Prog Op Answer α) :
    Safe (fun (_ : Unit) _ (_ : Unit) => True) (fun _ _ => True) p () := by
  induction p with
  | done a => trivial
  | ask op next ih =>
      intro answer
      exact ⟨(), trivial, ih answer⟩

/-- The protocol that is a list of operations, to be asked in this order. -/
def Script (ops : List Op) (e : Event Op Answer) (ops' : List Op) : Prop := ops = e.op :: ops'

/-- What was asked so far is where the script begins. -/
theorem Follows.script {ops ops' : List Op} {log : List (Event Op Answer)}
    (h : Follows Script ops log ops') : ops = log.map Event.op ++ ops' := by
  induction h with
  | nil s => rfl
  | cons hstep _ ih =>
      rw [hstep, ih]
      rfl

/-- **One protocol over another.**  `I` relates the states of the two and the state that the
    operations above are carried out on. -/
theorem safe_interpret {Above : Upper → Event Call Reply → Upper → Prop}
    {I : Upper → State → σ → Prop}
    {handle : (call : Call) → σ → Prog Op Answer (Reply call × σ)}
    (hhandle : ∀ call u s x, I u s x → (∀ reply, ∃ u', Above u ⟨call, reply⟩ u') →
      Safe Step (fun s r => ∀ u', Above u ⟨call, r.1⟩ u' → I u' s r.2) (handle call x) s)
    {Q : Upper → α → Prop} {p : Prog Call Reply α} :
    ∀ {u : Upper} {s : State} {x : σ}, Safe Above Q p u → I u s x →
      Safe Step (fun s r => ∃ u', Q u' r.1 ∧ I u' s r.2) (p.interpret handle x) s := by
  induction p with
  | done a =>
      intro u s x h hI
      exact ⟨u, h, hI⟩
  | ask call next ih =>
      intro u s x h hI
      refine (hhandle call u s x hI fun reply => ?_).bind fun s' r hr => ?_
      · obtain ⟨u', hstep, _⟩ := h reply
        exact ⟨u', hstep⟩
      · obtain ⟨u', hstep, hnext⟩ := h r.1
        exact ih r.1 hnext (hr u' hstep)

end

end Effect
