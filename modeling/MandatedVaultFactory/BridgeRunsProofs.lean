import MandatedVaultFactory.BridgeProofs

/-!
# Runs of the bridge

What a log of a bridge shows, whatever is done with the bridge and however the world answers.

* **`running`** — the processes that a log has started and not seen to end.
* **`call_was_offered`** — a tool is called in a conversation that started with a greeting and a
  listing, and only if it was in that listing.
* **`running_eq`** — at any time the processes that run are the one the bridge holds and those
  that an interruption has cost it.
* **`loadAndClose_leaves_none`** — connecting, doing something and closing leaves no process, if
  it returns or is not interrupted. -/

namespace McpBridge

open Effect Texts Json Mcp
open Secrets (toolsCallText toolsListText)

variable {floats : Floats} {Allowed : Text → Payload floats → Prop}

/-- What has been asked and answered. -/
abbrev Log (floats : Floats) : Type := List (Event (Op floats) Op.Answer)

/-- Before anything is done. -/
def newWorld : World where
  phase := .idle
  lost := []

/-! ## Processes that run -/

/-- The processes that run after an event: one more where one was started, one less where its end
    was seen. -/
def runningAfter (running : List Nat) : Event (Op floats) Op.Answer → List Nat
  | ⟨.spawn, .ok p⟩ => p :: running
  | ⟨.waitFor p, .ok true⟩ => running.erase p
  | ⟨.wait p, .ok ()⟩ => running.erase p
  | _ => running

def running (log : Log floats) : List Nat := log.foldl runningAfter []

/-- The processes that run, by where the bridge stands. -/
def World.running (s : World) : List Nat := s.phase.process.toList ++ s.lost

theorem running_afterGreeting {α : Type} {p : Nat} {next : Phase} (h : next.process = some p)
    (lost : List Nat) (answer : Except Raised α) :
    (afterGreeting p lost next answer).running = p :: lost := by
  cases answer with
  | ok _ =>
      show next.process.toList ++ lost = p :: lost
      rw [h]
      rfl
  | error raised => cases raised <;> rfl

theorem running_afterListing {α : Type} {p : Nat} {next : α → Phase}
    (h : ∀ a, (next a).process = some p) (lost : List Nat) (answer : Except Raised α) :
    (afterListing p lost next answer).running = p :: lost := by
  cases answer with
  | ok a =>
      show (next a).process.toList ++ lost = p :: lost
      rw [h a]
      rfl
  | error raised => cases raised <;> rfl

theorem process_listed (p : Nat) (payload : Payload floats) :
    (listed p payload).process = some p := by
  rw [listed]
  cases Client.offered payload <;> rfl

theorem process_of_closable {phase : Phase} {p : Nat} (h : phase.closable = some p) :
    phase.process = some p := by
  cases phase with
  | refused q => exact h
  | abandoned q => exact h
  | ready q n tools => exact h
  | _ => exact nomatch h

theorem running_afterWait (p : Nat) (lost : List Nat) (stage : Stage)
    (answer : Except Raised Bool) :
    runningAfter (p :: lost) (⟨.waitFor p, answer⟩ : Event (Op floats) Op.Answer)
      = (afterWait p lost stage answer).running := by
  cases answer with
  | error raised => rfl
  | ok exited =>
      cases exited with
      | true => exact List.erase_cons_head p lost
      | false => rfl

theorem running_step {s s' : World} {e : Event (Op floats) Op.Answer} (h : Step Allowed s e s') :
    runningAfter s.running e = s'.running := by
  cases h with
  | spawn lost answer => cases answer <;> rfl
  | greet p lost answer => exact (running_afterGreeting rfl lost answer).symm
  | greeted p lost answer => exact (running_afterGreeting rfl lost answer).symm
  | confirm p lost answer => exact (running_afterGreeting rfl lost answer).symm
  | list p lost answer => exact (running_afterListing (fun _ => rfl) lost answer).symm
  | listed p lost answer => exact (running_afterListing (process_listed p) lost answer).symm
  | call p n tools lost tool arguments answer _ _ _ => cases answer <;> rfl
  | answered p n tools lost answer => rfl
  | closeInput phase p lost hclosable =>
      show phase.process.toList ++ lost = p :: lost
      rw [process_of_closable hclosable]
      rfl
  | waited p lost answer => exact running_afterWait p lost .late answer
  | terminate p lost answer => cases answer <;> rfl
  | waitedAgain p lost answer => exact running_afterWait p lost .stillLate answer
  | kill p lost answer => cases answer <;> rfl
  | buried p lost answer =>
      cases answer with
      | error raised => rfl
      | ok _ => exact List.erase_cons_head p lost
  | stopped p lost answer => rfl

theorem running_follows {s s' : World} {log : Log floats} (h : Follows (Step Allowed) s log s') :
    log.foldl runningAfter s.running = s'.running := by
  induction h with
  | nil _ => rfl
  | cons hstep _ ih => rw [List.foldl_cons, running_step hstep, ih]

/-! ## What costs a process -/

/-- The events after which nobody looks after a process: the task is cancelled before the process
    has said which tools it has, or its end is interrupted. -/
inductive Interrupts : Event (Op floats) Op.Answer → Prop
  | request (p n : Nat) (method : Text) (params : Payload floats) :
      n ≤ 2 → Interrupts ⟨.write p (.request n method params), Except.error .cancelled⟩
  | notification (p : Nat) (method : Text) (params : Payload floats) :
      Interrupts ⟨.write p (.notification method params), Except.error .cancelled⟩
  | response (p n : Nat) : n ≤ 2 → Interrupts ⟨.read p n, Except.error .cancelled⟩
  | waitFor (p : Nat) (raised : Raised) : Interrupts ⟨.waitFor p, Except.error raised⟩
  | terminate (p : Nat) (raised : Raised) : Interrupts ⟨.terminate p, Except.error raised⟩
  | kill (p : Nat) (raised : Raised) : Interrupts ⟨.kill p, Except.error raised⟩
  | wait (p : Nat) (raised : Raised) : Interrupts ⟨.wait p, Except.error raised⟩

/-- Nothing was interrupted. -/
structure World.Calm (s : World) : Prop where
  lost : s.lost = []
  phase : ∀ p, s.phase ≠ .abandoned p

theorem calm_mk {phase : Phase} {lost : List Nat} (hlost : lost = [])
    (hphase : ∀ p, phase ≠ .abandoned p) : World.Calm ⟨phase, lost⟩ := ⟨hlost, hphase⟩

theorem calm_afterGreeting {α : Type} {p : Nat} {lost : List Nat} {next : Phase}
    {answer : Except Raised α} (hlost : lost = []) (hnext : ∀ q, next ≠ .abandoned q)
    (hcalm : answer ≠ .error .cancelled) : (afterGreeting p lost next answer).Calm := by
  cases answer with
  | ok _ => exact calm_mk hlost hnext
  | error raised =>
      cases raised with
      | exception error => exact calm_mk hlost fun q => Phase.noConfusion
      | cancelled => exact absurd rfl hcalm

theorem calm_afterListing {α : Type} {p : Nat} {lost : List Nat} {next : α → Phase}
    {answer : Except Raised α} (hlost : lost = []) (hnext : ∀ a q, next a ≠ .abandoned q)
    (hcalm : answer ≠ .error .cancelled) : (afterListing p lost next answer).Calm := by
  cases answer with
  | ok a => exact calm_mk hlost (hnext a)
  | error raised =>
      cases raised with
      | exception error => exact calm_mk hlost fun q => Phase.noConfusion
      | cancelled => exact absurd rfl hcalm

theorem calm_afterWait {p : Nat} {lost : List Nat} {stage : Stage} {answer : Except Raised Bool}
    (hlost : lost = []) (hcalm : ∀ raised, answer ≠ .error raised) :
    (afterWait p lost stage answer).Calm := by
  cases answer with
  | error raised => exact absurd rfl (hcalm raised)
  | ok exited => cases exited <;> exact calm_mk hlost fun q => Phase.noConfusion

theorem calm_afterSignal {p : Nat} {lost : List Nat} {next : Phase} {answer : Except Raised Unit}
    (hlost : lost = []) (hnext : ∀ q, next ≠ .abandoned q)
    (hcalm : ∀ raised, answer ≠ .error raised) : (afterSignal p lost next answer).Calm := by
  cases answer with
  | error raised => exact absurd rfl (hcalm raised)
  | ok _ => exact calm_mk hlost hnext

theorem calm_step {s s' : World} {e : Event (Op floats) Op.Answer} (h : Step Allowed s e s')
    (hcalm : ¬ Interrupts e) (hs : s.Calm) : s'.Calm := by
  have hlost := hs.lost
  cases h with
  | spawn lost answer => cases answer <;> exact calm_mk hlost fun q => Phase.noConfusion
  | greet p lost answer =>
      exact calm_afterGreeting hlost (fun q => Phase.noConfusion)
        fun heq => hcalm (heq ▸ .request p 1 _ _ (by omega))
  | greeted p lost answer =>
      exact calm_afterGreeting hlost (fun q => Phase.noConfusion)
        fun heq => hcalm (heq ▸ .response p 1 (by omega))
  | confirm p lost answer =>
      exact calm_afterGreeting hlost (fun q => Phase.noConfusion)
        fun heq => hcalm (heq ▸ .notification p _ _)
  | list p lost answer =>
      exact calm_afterListing hlost (fun _ q => Phase.noConfusion)
        fun heq => hcalm (heq ▸ .request p 2 _ _ (by omega))
  | listed p lost answer =>
      refine calm_afterListing hlost (fun payload q => ?_)
        fun heq => hcalm (heq ▸ .response p 2 (by omega))
      rw [listed]
      cases Client.offered payload <;> exact Phase.noConfusion
  | call p n tools lost tool arguments answer _ _ _ =>
      cases answer <;> exact calm_mk hlost fun q => Phase.noConfusion
  | answered p n tools lost answer => exact calm_mk hlost fun q => Phase.noConfusion
  | closeInput phase p lost hclosable => exact calm_mk hlost fun q => Phase.noConfusion
  | waited p lost answer => exact calm_afterWait hlost fun raised heq => hcalm (heq ▸ .waitFor p _)
  | terminate p lost answer =>
      exact calm_afterSignal hlost (fun q => Phase.noConfusion)
        fun raised heq => hcalm (heq ▸ .terminate p _)
  | waitedAgain p lost answer =>
      exact calm_afterWait hlost fun raised heq => hcalm (heq ▸ .waitFor p _)
  | kill p lost answer =>
      exact calm_afterSignal hlost (fun q => Phase.noConfusion)
        fun raised heq => hcalm (heq ▸ .kill p _)
  | buried p lost answer =>
      exact calm_afterSignal hlost (fun q => Phase.noConfusion)
        fun raised heq => hcalm (heq ▸ .wait p _)
  | stopped p lost answer => exact calm_mk hlost fun q => Phase.noConfusion

/-- Without an interruption nothing is lost. -/
theorem calm_follows {s s' : World} {log : Log floats} (h : Follows (Step Allowed) s log s')
    (hcalm : ∀ e ∈ log, ¬ Interrupts e) (hs : s.Calm) : s'.Calm := by
  induction h with
  | nil _ => exact hs
  | cons hstep _ ih =>
      exact ih (fun e he => hcalm e (.tail _ he)) (calm_step hstep (hcalm _ (.head _)) hs)

/-! ## Conversations -/

def started (p : Nat) : Event (Op floats) Op.Answer := ⟨.spawn, Except.ok p⟩

def said (p : Nat) (message : Outgoing floats) : Event (Op floats) Op.Answer :=
  ⟨.write p message, Except.ok ()⟩

def heard (p id : Nat) (payload : Payload floats) : Event (Op floats) Op.Answer :=
  ⟨.read p id, Except.ok payload⟩

/-- How a conversation opens: the process is started and greeted, and says which tools it has. -/
def opening (p : Nat) (welcome payload : Payload floats) : Log floats :=
  [started p, said p (.request 1 Client.initializeText Client.initializeParams),
    heard p 1 welcome, said p (.notification Client.initializedText []),
    said p (.request 2 toolsListText []), heard p 2 payload]

/-- How it goes on: tools that are there are called, one after another, by ids that are
    counted. -/
inductive Calls (p : Nat) (tools : List Text) : Nat → Log floats → Prop
  | none : Calls p tools 2 []
  | unsent {n : Nat} {log : Log floats} (tool : Text) (arguments : Payload floats)
      (raised : Raised) :
      Calls p tools n log → tool ∈ tools →
      Calls p tools (n + 1) (log ++ [⟨.write p (.request (n + 1) toolsCallText
        (Client.callParams tool arguments)), Except.error raised⟩])
  | answered {n : Nat} {log : Log floats} (tool : Text) (arguments : Payload floats)
      (response : Except Raised (Payload floats)) :
      Calls p tools n log → tool ∈ tools →
      Calls p tools (n + 1) (log ++ [said p (.request (n + 1) toolsCallText
        (Client.callParams tool arguments)), ⟨.read p (n + 1), response⟩])

/-- What the log shows of the process that is there. -/
inductive Recalls : Log floats → Phase → Prop
  | spawned (earlier : Log floats) (p : Nat) : Recalls (earlier ++ [started p]) (.spawned p)
  | greeting (earlier : Log floats) (p : Nat) :
      Recalls (earlier ++ [started p,
        said p (.request 1 Client.initializeText Client.initializeParams)]) (.greeting p)
  | greeted (earlier : Log floats) (p : Nat) (welcome : Payload floats) :
      Recalls (earlier ++ [started p,
        said p (.request 1 Client.initializeText Client.initializeParams), heard p 1 welcome])
        (.greeted p)
  | confirmed (earlier : Log floats) (p : Nat) (welcome : Payload floats) :
      Recalls (earlier ++ [started p,
        said p (.request 1 Client.initializeText Client.initializeParams), heard p 1 welcome,
        said p (.notification Client.initializedText [])]) (.confirmed p)
  | listing (earlier : Log floats) (p : Nat) (welcome : Payload floats) :
      Recalls (earlier ++ [started p,
        said p (.request 1 Client.initializeText Client.initializeParams), heard p 1 welcome,
        said p (.notification Client.initializedText []),
        said p (.request 2 toolsListText [])]) (.listing p)
  | ready (earlier : Log floats) (p : Nat) (welcome payload : Payload floats)
      (tools : List Text) {n : Nat} {calls : Log floats} :
      Client.offered payload = some tools → Calls p tools n calls →
      Recalls (earlier ++ opening p welcome payload ++ calls) (.ready p n tools)
  | asked (earlier : Log floats) (p : Nat) (welcome payload : Payload floats)
      (tools : List Text) {n : Nat} {calls : Log floats} (tool : Text)
      (arguments : Payload floats) :
      Client.offered payload = some tools → Calls p tools n calls → tool ∈ tools →
      Recalls (earlier ++ opening p welcome payload ++ calls
        ++ [said p (.request (n + 1) toolsCallText (Client.callParams tool arguments))])
        (.asked p (n + 1) tools)
  | idle (log : Log floats) : Recalls log .idle
  | refused (log : Log floats) (p : Nat) : Recalls log (.refused p)
  | abandoned (log : Log floats) (p : Nat) : Recalls log (.abandoned p)
  | closing (log : Log floats) (p : Nat) (stage : Stage) : Recalls log (.closing p stage)
  | ended (log : Log floats) (p : Nat) : Recalls log (.ended p)

theorem recalls_snoc {phase : Phase} {earlier session : Log floats}
    {e : Event (Op floats) Op.Answer} (h : Recalls (earlier ++ (session ++ [e])) phase) :
    Recalls (earlier ++ session ++ [e]) phase := by
  rw [List.append_assoc]
  exact h

theorem recalls_afterGreeting {α : Type} {log : Log floats} {p : Nat} {lost : List Nat}
    {next : Phase} {answer : Except Raised α}
    (h : ∀ a, answer = .ok a → Recalls log next) :
    Recalls log (afterGreeting p lost next answer).phase := by
  cases answer with
  | ok a => exact h a rfl
  | error raised =>
      cases raised with
      | exception error => exact .refused log p
      | cancelled => exact .idle log

theorem recalls_afterListing {α : Type} {log : Log floats} {p : Nat} {lost : List Nat}
    {next : α → Phase} {answer : Except Raised α}
    (h : ∀ a, answer = .ok a → Recalls log (next a)) :
    Recalls log (afterListing p lost next answer).phase := by
  cases answer with
  | ok a => exact h a rfl
  | error raised =>
      cases raised with
      | exception error => exact .refused log p
      | cancelled => exact .abandoned log p

theorem recalls_afterWait {log : Log floats} (p : Nat) (lost : List Nat) (stage : Stage)
    (answer : Except Raised Bool) : Recalls log (afterWait p lost stage answer).phase := by
  cases answer with
  | error raised => exact .idle log
  | ok exited =>
      cases exited with
      | true => exact .ended log p
      | false => exact .closing log p stage

/-- **One event of a conversation.** -/
theorem recalls_step {s s' : World} {e : Event (Op floats) Op.Answer} {log : Log floats}
    (h : Step Allowed s e s') (hlog : Recalls log s.phase) : Recalls (log ++ [e]) s'.phase := by
  cases h with
  | spawn lost answer =>
      cases answer with
      | error raised => exact .idle _
      | ok p => exact .spawned log p
  | greet p lost answer =>
      cases hlog with
      | spawned earlier _ =>
          refine recalls_afterGreeting fun _ heq => ?_
          subst heq
          exact recalls_snoc (.greeting earlier p)
  | greeted p lost answer =>
      cases hlog with
      | greeting earlier _ =>
          refine recalls_afterGreeting fun welcome heq => ?_
          subst heq
          exact recalls_snoc (.greeted earlier p welcome)
  | confirm p lost answer =>
      cases hlog with
      | greeted earlier _ welcome =>
          refine recalls_afterGreeting fun _ heq => ?_
          subst heq
          exact recalls_snoc (.confirmed earlier p welcome)
  | list p lost answer =>
      cases hlog with
      | confirmed earlier _ welcome =>
          refine recalls_afterListing fun _ heq => ?_
          subst heq
          exact recalls_snoc (.listing earlier p welcome)
  | listed p lost answer =>
      cases hlog with
      | listing earlier _ welcome =>
          refine recalls_afterListing fun payload heq => ?_
          subst heq
          rw [listed]
          cases hoffered : Client.offered payload with
          | none => exact .refused _ p
          | some tools =>
              have hready := Recalls.ready earlier p welcome payload tools hoffered .none
              rw [List.append_nil] at hready
              exact recalls_snoc hready
  | call p n tools lost tool arguments answer hmem _ _ =>
      cases hlog with
      | ready earlier _ welcome payload _ hoffered hcalls =>
          cases answer with
          | ok _ => exact .asked earlier p welcome payload tools tool arguments hoffered hcalls hmem
          | error raised =>
              rw [List.append_assoc]
              exact .ready earlier p welcome payload tools hoffered
                (.unsent tool arguments raised hcalls hmem)
  | answered p n tools lost answer =>
      cases hlog with
      | asked earlier _ welcome payload _ tool arguments hoffered hcalls hmem =>
          rw [List.append_assoc, List.append_assoc]
          exact .ready earlier p welcome payload tools hoffered
            (.answered tool arguments answer hcalls hmem)
  | closeInput phase p lost hclosable => exact .closing _ p .inputClosed
  | waited p lost answer => exact recalls_afterWait p lost .late answer
  | terminate p lost answer =>
      cases answer with
      | error raised => exact .idle _
      | ok _ => exact .closing _ p .terminated
  | waitedAgain p lost answer => exact recalls_afterWait p lost .stillLate answer
  | kill p lost answer =>
      cases answer with
      | error raised => exact .idle _
      | ok _ => exact .closing _ p .killed
  | buried p lost answer =>
      cases answer with
      | error raised => exact .idle _
      | ok _ => exact .ended _ p
  | stopped p lost answer => exact .idle _

theorem recalls_follows {s s' : World} {log : Log floats} (h : Follows (Step Allowed) s log s') :
    ∀ {before : Log floats}, Recalls before s.phase → Recalls (before ++ log) s'.phase := by
  induction h with
  | nil s =>
      intro before hbefore
      rw [List.append_nil]
      exact hbefore
  | cons hstep _ ih =>
      intro before hbefore
      have hnext := ih (recalls_step hstep hbefore)
      rw [List.append_assoc] at hnext
      exact hnext

/-! ## A process with one tool -/

/-- A command, and no secrets. -/
def oneToolConfig : Config where
  argv := [['m']]
  secrets := ⟨none, none, none, none, none, none, 1⟩

def oneToolPython : Secrets.Python nanFloats where
  repr _ := []
  shown := Secrets.charsOf
  shown_text := Secrets.charsOf_text
  unicodeError _ := []
  jsonError _ := []
  limitError _ _ := []
  validationError _ _ := none
  invalidToolError _ := []

/-- The process says that it has the tool `t`. -/
def oneToolListing : Payload nanFloats :=
  [(Secrets.toolsKey, .arr [.obj [(Secrets.nameKey, .str ['t'])]])]

/-- It is asked for it, with an argument that is `None`. -/
def oneToolBody : Prog (Use nanFloats) Use.Reply (Except Raised (Payload nanFloats)) :=
  Prog.perform (Use.callTool ['t'] [(['a'], .null)] false none)

/-- The call. -/
def oneToolCall : Event (Op nanFloats) Op.Answer :=
  ⟨.write 7 (.request 3 toolsCallText (Client.callParams ['t'] [])), Except.error .cancelled⟩

/-- What is said before it. -/
def oneToolOpening : Log nanFloats := opening 7 [] oneToolListing

theorem begins_oneTool :
    (Prog.interpret (handle oneToolConfig oneToolPython)
      (Prog.perform (Call.use (Use.callTool ['t'] [(['a'], Value.null)] false none)))
      newBridge).Begins (oneToolOpening ++ oneToolCall :: []) :=
  .ask _ _ _ (.ask _ _ _ (.ask _ _ _ (.ask _ _ _ (.ask _ _ _ (.ask _ _ _ (.ask _ _ _ (.nil _)))))))

/-- Then it is called and closed. -/
def oneToolLog : Log nanFloats :=
  oneToolOpening ++ [said 7 (.request 3 toolsCallText (Client.callParams ['t'] [])),
    heard 7 3 [(Secrets.structuredContentKey, .obj [])], ⟨.closeStdin 7, ()⟩,
    ⟨.waitFor 7, Except.ok true⟩, ⟨.stopCapture 7, Except.ok ()⟩]

theorem does_oneTool :
    (loadAndClose oneToolConfig oneToolPython oneToolBody).Does oneToolLog (.ok [], newBridge) :=
  .ask _ _ _ (.ask _ _ _ (.ask _ _ _ (.ask _ _ _ (.ask _ _ _ (.ask _ _ _ (.ask _ _ _ (.ask _ _ _
    (.ask _ _ _ (.ask _ _ _ (.ask _ _ _ (.done _)))))))))))

/-! ## What a bridge does -/

/-- Whatever is done with a bridge. -/
theorem interpret_safe {α : Type} (cfg : Config) (py : Secrets.Python floats)
    (body : Prog (Call floats) Call.Reply α) {b : Bridge} {s : World} (h : Matches b s) :
    Safe (Step fun _ _ => True) (fun s r => Matches r.2 s) (body.interpret (handle cfg py) b)
      s := by
  refine (safe_interpret (I := fun _ s b => Matches b s) (fun call u s b hb _ => ?_)
    (safe_any body) h).mono fun s r ⟨_, _, hr⟩ => hr
  exact (handle_safe cfg py call hb fun _ _ _ _ _ => trivial).mono fun s r hr _ _ => hr

/-- **At any time the processes that run are the one the bridge holds, and those that an
    interruption has cost it**; without one there is at most one. -/
theorem running_eq {α : Type} {cfg : Config} {py : Secrets.Python floats}
    {body : Prog (Call floats) Call.Reply α} {log : Log floats}
    (h : (body.interpret (handle cfg py) newBridge).Begins log) :
    ∃ s, Follows (Step fun _ _ => True) newWorld log s
      ∧ running log = s.phase.process.toList ++ s.lost
      ∧ ((∀ e ∈ log, ¬ Interrupts e) → (running log).length ≤ 1) := by
  obtain ⟨s, hfollows⟩ := (interpret_safe cfg py body (.closed [])).begins h
  have hrunning : running log = s.running := running_follows hfollows
  refine ⟨s, hfollows, hrunning, fun hcalm => ?_⟩
  have hs := calm_follows hfollows hcalm ⟨rfl, fun p => Phase.noConfusion⟩
  rw [hrunning, World.running, hs.lost, List.append_nil]
  cases s.phase.process with
  | none => exact Nat.zero_le 1
  | some p => exact Nat.le_refl 1

theorem running_eq_oneTool :
    ∃ s, Follows (Step fun _ _ => True) newWorld (oneToolOpening ++ oneToolCall :: []) s
      ∧ running (oneToolOpening ++ oneToolCall :: []) = s.phase.process.toList ++ s.lost
      ∧ ((∀ e ∈ oneToolOpening ++ oneToolCall :: [], ¬ Interrupts e) →
        (running (oneToolOpening ++ oneToolCall :: [])).length ≤ 1) :=
  running_eq begins_oneTool

/-- A message that calls a tool is none of the greeting and the listing. -/
theorem call_cases {s s' : World} {p id : Nat} {params : Payload floats}
    {answer : Except Raised Unit}
    (h : Step Allowed s ⟨.write p (.request id toolsCallText params), answer⟩ s') :
    ∃ n tools lost tool arguments, s = ⟨.ready p n tools, lost⟩ ∧ id = n + 1
      ∧ params = Client.callParams tool arguments ∧ tool ∈ tools ∧ NullFreeMembers arguments
      ∧ Allowed tool arguments := by
  generalize hmethod : toolsCallText = method at h
  cases h with
  | greet p lost answer => exact absurd hmethod (by decide)
  | list p lost answer => exact absurd hmethod (by decide)
  | call p n tools lost tool arguments answer hmem hfree hallowed =>
      exact ⟨n, tools, lost, tool, arguments, rfl, rfl, rfl, hmem, hfree, hallowed⟩

/-- What the log shows before a call: a conversation, and that the tool is one of those that the
    process has. -/
inductive Offered (p : Nat) : Log floats → Nat → Payload floats → Prop
  | mk (earlier : Log floats) (welcome payload : Payload floats) {calls : Log floats}
      {tools : List Text} {n : Nat} {tool : Text} {arguments : Payload floats} :
      Client.offered payload = some tools → Calls p tools n calls → tool ∈ tools →
      NullFreeMembers arguments →
      Offered p (earlier ++ opening p welcome payload ++ calls) (n + 1)
        (Client.callParams tool arguments)

/-- **A tool is called only where it was offered**: before the call the process was started,
    greeted and asked for its tools, since then only tools of its were called, and this is one of
    them; the ids are counted from one on, and no argument is `null`. -/
theorem call_was_offered {α : Type} {cfg : Config} {py : Secrets.Python floats}
    {body : Prog (Call floats) Call.Reply α} {before after : Log floats} {p id : Nat}
    {params : Payload floats} {answer : Except Raised Unit}
    (h : (body.interpret (handle cfg py) newBridge).Begins
      (before ++ ⟨.write p (.request id toolsCallText params), answer⟩ :: after)) :
    Offered p before id params := by
  obtain ⟨s, hfollows⟩ := (interpret_safe cfg py body (.closed [])).begins h
  obtain ⟨s₁, hbefore, hafter⟩ := hfollows.split
  have hrecalls : Recalls ([] ++ before) s₁.phase := recalls_follows hbefore (.idle [])
  cases hafter with
  | cons hstep _ =>
      obtain ⟨n, tools, lost, tool, arguments, rfl, rfl, rfl, hmem, hfree, _⟩ := call_cases hstep
      cases hrecalls with
      | ready earlier _ welcome payload _ hoffered hcalls =>
          exact .mk earlier welcome payload hoffered hcalls hmem hfree

theorem call_was_offered_oneTool :
    Offered 7 oneToolOpening 3 (Client.callParams ['t'] []) :=
  call_was_offered begins_oneTool

/-- **A flow that returns leaves no process behind, and neither does one in which nothing is
    interrupted**, however the world answers it. -/
theorem loadAndClose_leaves_none {α : Type} {cfg : Config} {py : Secrets.Python floats}
    {body : Prog (Use floats) Use.Reply (Except Raised α)} {log : Log floats}
    {r : Except Raised α} {b : Bridge} (h : (loadAndClose cfg py body).Does log (r, b))
    (hend : (∃ a, r = .ok a) ∨ ∀ e ∈ log, ¬ Interrupts e) : running log = [] := by
  have hsafe : Safe (Step fun _ _ => True) _ (loadAndClose cfg py body) newWorld :=
    loadAndClose_safe cfg py (fun _ _ _ _ _ _ _ _ => trivial) (safe_any body) []
  obtain ⟨s, hfollows, hover, hreturns⟩ := hsafe.does h
  have hrunning : running log = s.running := running_follows hfollows
  rw [hrunning]
  rcases hend with ⟨a, hr⟩ | hcalm
  · rw [(hreturns a hr).1]
    rfl
  · have hs := calm_follows hfollows hcalm ⟨rfl, fun p => Phase.noConfusion⟩
    obtain ⟨phase, lost⟩ := s
    obtain rfl : lost = [] := hs.lost
    cases hover with
    | idle => rfl
    | abandoned p => exact absurd rfl (hs.phase p)

theorem loadAndClose_leaves_none_oneTool : running oneToolLog = [] :=
  loadAndClose_leaves_none does_oneTool (Or.inl ⟨[], rfl⟩)

end McpBridge
