import MandatedVaultFactory.EffectProofs
import MandatedVaultFactory.SecretsProofs

/-!
# The bridge and its process

`MandatedVaultMcpBridge` starts a process, greets it, asks which tools it has, calls them and ends
it again.  The world answers each of these as it likes: nothing may be spawned, a request may fail
or be cancelled, the process may not end when it is told to.

* **`Bridge.connect`**, **`Bridge.close`**, **`Bridge.callTool`** — the code, over what it asks of
  the world.
* **`Step`** — the protocol: how a process may be treated, from its start to its end.
* **`handle_safe`** — each operation of the bridge keeps it.
* **`dropNoneValues`** — arguments without `None`; `nullFree_dropNoneMembers`. -/

namespace McpBridge

open Effect Texts Json Mcp
open Secrets (nameKey argumentsKey structuredContentKey toolsKey toolsCallText toolsListText
  notStartedText commandEmptyText assertToolAvailable)

variable {floats : Floats}

/-! ## Arguments without `None` -/

section

variable {F : Type}

def isNull : Value F → Bool
  | .null => true
  | _ => false

mutual

/-- `_drop_none_values`. -/
def dropNoneValues : Value F → Value F
  | .arr items => .arr (dropNoneItems items)
  | .obj members => .obj (dropNoneMembers members)
  | v => v

def dropNoneItems : List (Value F) → List (Value F)
  | [] => []
  | v :: rest =>
      if isNull (dropNoneValues v) then dropNoneItems rest
      else dropNoneValues v :: dropNoneItems rest

def dropNoneMembers : List (Text × Value F) → List (Text × Value F)
  | [] => []
  | (key, v) :: rest =>
      if isNull (dropNoneValues v) then dropNoneMembers rest
      else (key, dropNoneValues v) :: dropNoneMembers rest

end

mutual

/-- There is no `null` in it. -/
def NullFree : Value F → Prop
  | .null => False
  | .arr items => NullFreeItems items
  | .obj members => NullFreeMembers members
  | _ => True

def NullFreeItems : List (Value F) → Prop
  | [] => True
  | v :: rest => NullFree v ∧ NullFreeItems rest

def NullFreeMembers : List (Text × Value F) → Prop
  | [] => True
  | (_, v) :: rest => NullFree v ∧ NullFreeMembers rest

end

/-- Only `null` itself becomes `null`. -/
theorem isNull_dropNoneValues (v : Value F) : isNull (dropNoneValues v) = isNull v := by
  cases v <;> rfl

mutual

/-- **What is left has no `null` in it**, inside or out. -/
theorem nullFree_dropNoneValues : ∀ v : Value F, isNull v = false → NullFree (dropNoneValues v)
  | .null, h => nomatch h
  | .bool _, _ => trivial
  | .int _, _ => trivial
  | .float _, _ => trivial
  | .str _, _ => trivial
  | .arr items, _ => nullFree_dropNoneItems items
  | .obj members, _ => nullFree_dropNoneMembers members

theorem nullFree_dropNoneItems : ∀ items : List (Value F), NullFreeItems (dropNoneItems items)
  | [] => trivial
  | v :: rest => by
      rw [dropNoneItems, isNull_dropNoneValues]
      cases hnull : isNull v with
      | true => exact nullFree_dropNoneItems rest
      | false => exact ⟨nullFree_dropNoneValues v hnull, nullFree_dropNoneItems rest⟩

theorem nullFree_dropNoneMembers :
    ∀ members : List (Text × Value F), NullFreeMembers (dropNoneMembers members)
  | [] => trivial
  | (key, v) :: rest => by
      rw [dropNoneMembers, isNull_dropNoneValues]
      cases hnull : isNull v with
      | true => exact nullFree_dropNoneMembers rest
      | false => exact ⟨nullFree_dropNoneValues v hnull, nullFree_dropNoneMembers rest⟩

end

theorem get_cons {G : Type} (key k : Text) (v : G) (rest : List (Text × G)) :
    Json.get key ((k, v) :: rest) = if k = key then some v else Json.get key rest := by
  rw [Json.get, List.find?_cons]
  by_cases hkey : k = key
  · rw [if_pos hkey, decide_eq_true hkey]
    rfl
  · rw [if_neg hkey, decide_eq_false hkey]
    rfl

theorem get_eq_none {G : Type} {key : Text} {members : List (Text × G)}
    (h : key ∉ members.map Prod.fst) : Json.get key members = none := by
  induction members with
  | nil => rfl
  | cons m rest ih =>
      rw [List.map_cons, List.mem_cons, not_or] at h
      rw [← Prod.mk.eta (p := m), get_cons, if_neg (Ne.symm h.1)]
      exact ih h.2

end

/-! ## What is asked of the world -/

/-- An exception with its text: a `MandatedVaultMcpError`, or another one. -/
inductive Error where
  | mcp (text : Text)
  | other (text : Text)

/-- What an `await` can raise: an exception, or the end of the task it is in, which
    `except Exception` does not catch. -/
inductive Raised where
  | exception (error : Error)
  | cancelled

/-- The members of an object of texts. -/
abbrev Payload (floats : Floats) : Type := List (Text × Value floats.Float)

/-- A message to the process. -/
inductive Outgoing (floats : Floats) where
  | request (id : Nat) (method : Text) (params : Payload floats)
  | notification (method : Text) (params : Payload floats)

/-- What `_write_message` is given. -/
def Outgoing.members : Outgoing floats → Payload floats
  | .request id method params =>
      [(jsonrpcKey, .str ['2', '.', '0']), (idKey, .int id), (methodKey, .str method),
        (paramsKey, .obj params)]
  | .notification method params =>
      [(jsonrpcKey, .str ['2', '.', '0']), (methodKey, .str method), (paramsKey, .obj params)]

/-- What the bridge asks of the world. -/
inductive Op (floats : Floats) where
  /-- `create_subprocess_exec`. -/
  | spawn
  /-- `_write_message`. -/
  | write (process : Nat) (message : Outgoing floats)
  /-- The loop of `request`, up to the response to this request. -/
  | read (process : Nat) (id : Nat)
  | closeStdin (process : Nat)
  /-- `wait_for(process.wait(), timeout=1)`: whether it has ended. -/
  | waitFor (process : Nat)
  | terminate (process : Nat)
  | kill (process : Nat)
  | wait (process : Nat)
  /-- The end of `_capture_stderr`. -/
  | stopCapture (process : Nat)

@[reducible] def Op.Answer : Op floats → Type
  | .spawn => Except Raised Nat
  | .write _ _ => Except Raised Unit
  | .read _ _ => Except Raised (Payload floats)
  | .closeStdin _ => Unit
  | .waitFor _ => Except Raised Bool
  | .terminate _ => Except Raised Unit
  | .kill _ => Except Raised Unit
  | .wait _ => Except Raised Unit
  | .stopCapture _ => Except Raised Unit

/-- Code that asks it. -/
abbrev Asks (floats : Floats) (α : Type) : Type := Prog (Op floats) Op.Answer α

def perform (op : Op floats) : Asks floats op.Answer := Prog.perform op

/-! ## The client -/

/-- What the bridge is told: the command, and the secrets it takes out of its messages. -/
structure Config where
  argv : List Text
  secrets : Secrets.PredictConfig

/-- `_SubprocessMcpClient`: its process, and the last id it has used. -/
structure Client where
  process : Option Nat
  requestId : Nat

def newClient : Client where
  process := none
  requestId := 0

def unavailable {α : Type} (text : Text) : Except Raised α := .error (.exception (.mcp text))

namespace Client

/-- `request`. -/
def request (c : Client) (method : Text) (params : Payload floats) :
    Asks floats (Except Raised (Payload floats) × Client) :=
  match c.process with
  | none => return (unavailable notStartedText, c)
  | some p => do
      let c : Client := { c with requestId := c.requestId + 1 }
      match ← perform (.write p (.request c.requestId method params)) with
      | .error raised => return (.error raised, c)
      | .ok () =>
          let response ← perform (.read p c.requestId)
          return (response, c)

/-- `notify`. -/
def notify (c : Client) (method : Text) (params : Payload floats) :
    Asks floats (Except Raised Unit) :=
  match c.process with
  | none => return unavailable notStartedText
  | some p => perform (.write p (.notification method params))

/-- The end of `close`, where nothing else has helped. -/
def killProcess (p : Nat) : Asks floats (Except Raised Unit) := do
  match ← perform (.kill p) with
  | .error raised => return .error raised
  | .ok () => perform (.wait p)

/-- What `close` does where the process has not ended in time. -/
def terminateProcess (p : Nat) : Asks floats (Except Raised Unit) := do
  match ← perform (.terminate p) with
  | .error raised => return .error raised
  | .ok () =>
      match ← perform (.waitFor p) with
      | .error raised => return .error raised
      | .ok true => return .ok ()
      | .ok false => killProcess p

/-- How `close` waits for the process to end. -/
def awaitExit (p : Nat) : Asks floats (Except Raised Unit) := do
  match ← perform (.waitFor p) with
  | .error raised => return .error raised
  | .ok true => return .ok ()
  | .ok false => terminateProcess p

/-- `close`; the process is forgotten first. -/
def close (c : Client) : Asks floats (Except Raised Unit × Client) :=
  match c.process with
  | none => return (.ok (), c)
  | some p => do
      let c : Client := { c with process := none }
      let () ← perform (.closeStdin p)
      match ← awaitExit p with
      | .error raised => return (.error raised, c)
      | .ok () =>
          let stopped ← perform (.stopCapture p)
          return (stopped, c)

def initializeText : Text := "initialize".toList
def initializedText : Text := "notifications/initialized".toList

/-- The parameters of `initialize`. -/
def initializeParams : Payload floats :=
  [("protocolVersion".toList, .str "2024-11-05".toList),
    ("capabilities".toList,
      .obj [("tools".toList, .obj [("listChanged".toList, .bool false)])]),
    ("clientInfo".toList, .obj [("name".toList, .str "predictclaw".toList),
      ("version".toList, .str "0.1.0".toList)])]

/-- How `start` greets the process. -/
def greet (c : Client) : Asks floats (Except Raised Unit × Client) := do
  let (initialized, c) ← c.request initializeText initializeParams
  match initialized with
  | .error raised => return (.error raised, c)
  | .ok _ =>
      let notified ← c.notify initializedText []
      return (notified, c)

/-- `start`. -/
def start (cfg : Config) (c : Client) : Asks floats (Except Raised Unit × Client) :=
  if cfg.argv = [] then return (unavailable commandEmptyText, c)
  else do
    match ← perform .spawn with
    | .error raised => return (.error raised, c)
    | .ok p =>
        let (greeted, c) ← greet { c with process := some p }
        match greeted with
        | .ok () => return (.ok (), c)
        | .error .cancelled => return (.error .cancelled, c)
        | .error (.exception error) =>
            let (closed, c) ← c.close
            match closed with
            | .error raised => return (.error raised, c)
            | .ok () => return (.error (.exception error), c)

def descriptionKey : Text := "description".toList

/-- `McpToolDescriptor.model_validate(item).name`, where it is valid. -/
def descriptorName : Value floats.Float → Option Text
  | .obj members =>
      match Json.get nameKey members, Json.get descriptionKey members with
      | some (.str name), none => some name
      | some (.str name), some .null => some name
      | some (.str name), some (.str _) => some name
      | _, _ => none
  | _ => none

/-- The tools that a `tools/list` response offers. -/
def offered (payload : Payload floats) : Option (List Text) :=
  match Json.get toolsKey payload with
  | some (.arr items) => items.mapM descriptorName
  | _ => none

variable (cfg : Config) (py : Secrets.Python floats)

/-- Why a `tools/list` response offers none. -/
def offeredError (payload : Payload floats) : Error :=
  match Json.get toolsKey payload with
  | some (.arr items) =>
      .other (((items.find? fun item => (descriptorName item).isNone).bind fun item =>
        py.validationError "McpToolDescriptor".toList item.widen).getD [])
  | _ =>
      .mcp (cfg.secrets.redact
        "Mandated-vault MCP tools/list response did not include a tools array.".toList)

/-- `list_tools`. -/
def listTools (c : Client) : Asks floats (Except Raised (List Text) × Client) := do
  let (response, c) ← c.request toolsListText []
  match response with
  | .error raised => return (.error raised, c)
  | .ok payload =>
      match offered payload with
      | some tools => return (.ok tools, c)
      | none => return (.error (.exception (offeredError cfg py payload)), c)

/-- `{"name": name, "arguments": arguments}`. -/
def callParams (name : Text) (arguments : Payload floats) : Payload floats :=
  [(nameKey, .str name), (argumentsKey, .obj arguments)]

/-- `call_tool`. -/
def callTool (c : Client) (name : Text) (arguments : Payload floats) :
    Asks floats (Except Raised (Payload floats) × Client) := do
  let (response, c) ← c.request toolsCallText (callParams name arguments)
  match response with
  | .error raised => return (.error raised, c)
  | .ok payload =>
      match Json.get structuredContentKey payload with
      | some (.obj structured) => return (.ok structured, c)
      | _ =>
          return (unavailable (cfg.secrets.redact
            ("Mandated-vault MCP returned malformed structuredContent for ".toList ++ name
              ++ ".".toList)), c)

end Client

/-! ## The bridge -/

/-- `MandatedVaultMcpBridge`: its client, and the names of the tools that are available. -/
structure Bridge where
  client : Option Client
  availableTools : List Text

def newBridge : Bridge where
  client := none
  availableTools := []

namespace Bridge

variable (cfg : Config) (py : Secrets.Python floats)

/-- `connect`. -/
def connect (b : Bridge) : Asks floats (Except Raised Unit × Bridge) :=
  match b.client with
  | some _ => return (.ok (), b)
  | none => do
      let (started, c) ← Client.start cfg newClient
      match started with
      | .error raised => return (.error raised, b)
      | .ok () =>
          let (listed, c) ← c.listTools cfg py
          match listed with
          | .ok tools => return (.ok (), { client := some c, availableTools := tools })
          | .error .cancelled => return (.error .cancelled, { b with client := some c })
          | .error (.exception error) =>
              let (closed, c) ← c.close
              match closed with
              | .error raised => return (.error raised, { b with client := some c })
              | .ok () => return (.error (.exception error), newBridge)

/-- `close`. -/
def close (b : Bridge) : Asks floats (Except Raised Unit × Bridge) :=
  match b.client with
  | none => return (.ok (), newBridge)
  | some c => do
      let (closed, _) ← c.close
      return (closed, newBridge)

def notConnectedText : Text := "Mandated-vault MCP client is not connected.".toList

/-- `_call_tool`, once it is connected. -/
def callConnected (b : Bridge) (tool : Text) (arguments : Payload floats) (txPreparation : Bool)
    (requiredTools : Option (List Text)) :
    Asks floats (Except Raised (Payload floats) × Bridge) :=
  match assertToolAvailable b.availableTools tool txPreparation requiredTools with
  | .error text => return (unavailable text, b)
  | .ok () =>
      match b.client with
      | none => return (unavailable notConnectedText, b)
      | some c => do
          let (structured, c) ← c.callTool cfg tool (dropNoneMembers arguments)
          return (structured, { b with client := some c })

/-- `_call_tool`. -/
def callTool (b : Bridge) (tool : Text) (arguments : Payload floats) (txPreparation : Bool)
    (requiredTools : Option (List Text)) :
    Asks floats (Except Raised (Payload floats) × Bridge) := do
  let (connected, b) ← b.connect cfg py
  match connected with
  | .error raised => return (.error raised, b)
  | .ok () => b.callConnected cfg tool arguments txPreparation requiredTools

end Bridge

/-- What a connected bridge is used for. -/
inductive Use (floats : Floats) where
  | callTool (tool : Text) (arguments : Payload floats) (txPreparation : Bool)
      (requiredTools : Option (List Text))
  | availableTools

@[reducible] def Use.Reply : Use floats → Type
  | .callTool _ _ _ _ => Except Raised (Payload floats)
  | .availableTools => List Text

/-- What can be done with a bridge. -/
inductive Call (floats : Floats) where
  | connect
  | close
  | use (u : Use floats)

@[reducible] def Call.Reply : Call floats → Type
  | .connect => Except Raised Unit
  | .close => Except Raised Unit
  | .use u => u.Reply

section

variable (cfg : Config) (py : Secrets.Python floats)

def handleUse : (u : Use floats) → Bridge → Asks floats (u.Reply × Bridge)
  | .callTool tool arguments txPreparation requiredTools, b =>
      b.callTool cfg py tool arguments txPreparation requiredTools
  | .availableTools, b => return (b.availableTools, b)

/-- What it does. -/
def handle : (call : Call floats) → Bridge → Asks floats (call.Reply × Bridge)
  | .connect, b => b.connect cfg py
  | .close, b => b.close
  | .use u, b => handleUse cfg py u b

/-- `_load_and_close`: what is done with a bridge that is connected for it, and closed at last
    whatever comes of it. -/
def loadAndClose {α : Type} (body : Prog (Use floats) Use.Reply (Except Raised α)) :
    Asks floats (Except Raised α × Bridge) := do
  let (connected, b) ← newBridge.connect cfg py
  match connected with
  | .error raised => return (.error raised, b)
  | .ok () =>
      let (result, b) ← body.interpret (handleUse cfg py) b
      let (closed, b) ← b.close
      match closed with
      | .error raised => return (.error raised, b)
      | .ok () => return (result, b)

end

/-! ## The protocol -/

/-- How far the end of a process has come: its input is closed; it has not ended by that; it is
    terminated; not even by that; it is killed. -/
inductive Stage where
  | inputClosed
  | late
  | terminated
  | stillLate
  | killed

/-- Where a process stands. -/
inductive Phase where
  | idle
  | spawned (p : Nat)
  | greeting (p : Nat)
  | greeted (p : Nat)
  | confirmed (p : Nat)
  | listing (p : Nat)
  /-- It is only to be closed. -/
  | refused (p : Nat)
  /-- The task was cancelled while the process was asked for its tools. -/
  | abandoned (p : Nat)
  | ready (p : Nat) (lastId : Nat) (tools : List Text)
  | asked (p : Nat) (lastId : Nat) (tools : List Text)
  | closing (p : Nat) (stage : Stage)
  | ended (p : Nat)

/-- The process that runs. -/
def Phase.process : Phase → Option Nat
  | .idle => none
  | .spawned p => some p
  | .greeting p => some p
  | .greeted p => some p
  | .confirmed p => some p
  | .listing p => some p
  | .refused p => some p
  | .abandoned p => some p
  | .ready p _ _ => some p
  | .asked p _ _ => some p
  | .closing p _ => some p
  | .ended _ => none

/-- The process that may be closed. -/
def Phase.closable : Phase → Option Nat
  | .refused p => some p
  | .abandoned p => some p
  | .ready p _ _ => some p
  | _ => none

/-- What the world holds of the bridge: where its process stands, and which processes nobody
    looks after any more. -/
structure World where
  phase : Phase
  lost : List Nat

def afterSpawn (lost : List Nat) : Except Raised Nat → World
  | .ok p => ⟨.spawned p, lost⟩
  | .error _ => ⟨.idle, lost⟩

def afterGreeting {α : Type} (p : Nat) (lost : List Nat) (next : Phase) : Except Raised α → World
  | .ok _ => ⟨next, lost⟩
  | .error (.exception _) => ⟨.refused p, lost⟩
  | .error .cancelled => ⟨.idle, p :: lost⟩

def afterListing {α : Type} (p : Nat) (lost : List Nat) (next : α → Phase) :
    Except Raised α → World
  | .ok a => ⟨next a, lost⟩
  | .error (.exception _) => ⟨.refused p, lost⟩
  | .error .cancelled => ⟨.abandoned p, lost⟩

/-- Where a process stands that has said which tools it has. -/
def listed (p : Nat) (payload : Payload floats) : Phase :=
  match Client.offered payload with
  | some tools => .ready p 2 tools
  | none => .refused p

def afterCall (p : Nat) (lost : List Nat) (id : Nat) (tools : List Text) :
    Except Raised Unit → World
  | .ok () => ⟨.asked p id tools, lost⟩
  | .error _ => ⟨.ready p id tools, lost⟩

def afterWait (p : Nat) (lost : List Nat) (next : Stage) : Except Raised Bool → World
  | .ok true => ⟨.ended p, lost⟩
  | .ok false => ⟨.closing p next, lost⟩
  | .error _ => ⟨.idle, p :: lost⟩

def afterSignal (p : Nat) (lost : List Nat) (next : Phase) : Except Raised Unit → World
  | .ok () => ⟨next, lost⟩
  | .error _ => ⟨.idle, p :: lost⟩

/-- **How a process is treated**: it is greeted before anything else and asked for its tools
    next, then only called by tools that it has, without `null` in the arguments and as is
    allowed; its ids are counted; and it is told to end in three ways, each after the one before
    it has not helped. -/
inductive Step (Allowed : Text → Payload floats → Prop) :
    World → Event (Op floats) Op.Answer → World → Prop
  | spawn (lost : List Nat) (answer : Except Raised Nat) :
      Step Allowed ⟨.idle, lost⟩ ⟨.spawn, answer⟩ (afterSpawn lost answer)
  | greet (p : Nat) (lost : List Nat) (answer : Except Raised Unit) :
      Step Allowed ⟨.spawned p, lost⟩
        ⟨.write p (.request 1 Client.initializeText Client.initializeParams), answer⟩
        (afterGreeting p lost (.greeting p) answer)
  | greeted (p : Nat) (lost : List Nat) (answer : Except Raised (Payload floats)) :
      Step Allowed ⟨.greeting p, lost⟩ ⟨.read p 1, answer⟩
        (afterGreeting p lost (.greeted p) answer)
  | confirm (p : Nat) (lost : List Nat) (answer : Except Raised Unit) :
      Step Allowed ⟨.greeted p, lost⟩
        ⟨.write p (.notification Client.initializedText []), answer⟩
        (afterGreeting p lost (.confirmed p) answer)
  | list (p : Nat) (lost : List Nat) (answer : Except Raised Unit) :
      Step Allowed ⟨.confirmed p, lost⟩ ⟨.write p (.request 2 toolsListText []), answer⟩
        (afterListing p lost (fun _ => .listing p) answer)
  | listed (p : Nat) (lost : List Nat) (answer : Except Raised (Payload floats)) :
      Step Allowed ⟨.listing p, lost⟩ ⟨.read p 2, answer⟩
        (afterListing p lost (McpBridge.listed p) answer)
  | call (p n : Nat) (tools : List Text) (lost : List Nat) (tool : Text)
      (arguments : Payload floats) (answer : Except Raised Unit) :
      tool ∈ tools → NullFreeMembers arguments → Allowed tool arguments →
      Step Allowed ⟨.ready p n tools, lost⟩
        ⟨.write p (.request (n + 1) toolsCallText (Client.callParams tool arguments)), answer⟩
        (afterCall p lost (n + 1) tools answer)
  | answered (p n : Nat) (tools : List Text) (lost : List Nat)
      (answer : Except Raised (Payload floats)) :
      Step Allowed ⟨.asked p n tools, lost⟩ ⟨.read p n, answer⟩ ⟨.ready p n tools, lost⟩
  | closeInput (phase : Phase) (p : Nat) (lost : List Nat) :
      phase.closable = some p →
      Step Allowed ⟨phase, lost⟩ ⟨.closeStdin p, ()⟩ ⟨.closing p .inputClosed, lost⟩
  | waited (p : Nat) (lost : List Nat) (answer : Except Raised Bool) :
      Step Allowed ⟨.closing p .inputClosed, lost⟩ ⟨.waitFor p, answer⟩
        (afterWait p lost .late answer)
  | terminate (p : Nat) (lost : List Nat) (answer : Except Raised Unit) :
      Step Allowed ⟨.closing p .late, lost⟩ ⟨.terminate p, answer⟩
        (afterSignal p lost (.closing p .terminated) answer)
  | waitedAgain (p : Nat) (lost : List Nat) (answer : Except Raised Bool) :
      Step Allowed ⟨.closing p .terminated, lost⟩ ⟨.waitFor p, answer⟩
        (afterWait p lost .stillLate answer)
  | kill (p : Nat) (lost : List Nat) (answer : Except Raised Unit) :
      Step Allowed ⟨.closing p .stillLate, lost⟩ ⟨.kill p, answer⟩
        (afterSignal p lost (.closing p .killed) answer)
  | buried (p : Nat) (lost : List Nat) (answer : Except Raised Unit) :
      Step Allowed ⟨.closing p .killed, lost⟩ ⟨.wait p, answer⟩
        (afterSignal p lost (.ended p) answer)
  | stopped (p : Nat) (lost : List Nat) (answer : Except Raised Unit) :
      Step Allowed ⟨.ended p, lost⟩ ⟨.stopCapture p, answer⟩ ⟨.idle, lost⟩

variable {Allowed : Text → Payload floats → Prop}

/-! ## The code keeps it -/

theorem safe_ask {α : Type} {op : Op floats} {next : op.Answer → Asks floats α}
    {Q : World → α → Prop} {s : World}
    (h : ∀ answer, ∃ s', Step Allowed s ⟨op, answer⟩ s' ∧ Safe (Step Allowed) Q (next answer) s') :
    Safe (Step Allowed) Q (perform op >>= next) s := h

/-- A request that may be written, and whose response may be read. -/
theorem safe_request {p n : Nat} {method : Text} {params : Payload floats} {s : World}
    {Q : World → Except Raised (Payload floats) × Client → Prop}
    (hfails : ∀ raised, ∃ s', Step Allowed s
      ⟨.write p (.request (n + 1) method params), Except.error raised⟩ s'
        ∧ Q s' (.error raised, ⟨some p, n + 1⟩))
    (hsent : ∃ s', Step Allowed s ⟨.write p (.request (n + 1) method params), Except.ok ()⟩ s'
      ∧ ∀ response, ∃ s'', Step Allowed s' ⟨.read p (n + 1), response⟩ s''
        ∧ Q s'' (response, ⟨some p, n + 1⟩)) :
    Safe (Step Allowed) Q (Client.request ⟨some p, n⟩ method params) s := by
  refine safe_ask fun sent => ?_
  cases sent with
  | error raised => exact hfails raised
  | ok _ => exact hsent

/-- **However the end of a process goes**, it has ended or is lost. -/
theorem awaitExit_safe (p : Nat) (lost : List Nat) :
    Safe (Step Allowed) (fun s r => (r = .ok () ∧ s = ⟨.ended p, lost⟩)
        ∨ ((∃ raised, r = .error raised) ∧ s = ⟨.idle, p :: lost⟩))
      (Client.awaitExit p) ⟨.closing p .inputClosed, lost⟩ := by
  refine safe_ask fun exited => ⟨_, .waited p lost exited, ?_⟩
  cases exited with
  | error raised => exact Or.inr ⟨⟨raised, rfl⟩, rfl⟩
  | ok exited =>
      cases exited with
      | true => exact Or.inl ⟨rfl, rfl⟩
      | false =>
          refine safe_ask fun told => ⟨_, .terminate p lost told, ?_⟩
          cases told with
          | error raised => exact Or.inr ⟨⟨raised, rfl⟩, rfl⟩
          | ok _ =>
              refine safe_ask fun exited => ⟨_, .waitedAgain p lost exited, ?_⟩
              cases exited with
              | error raised => exact Or.inr ⟨⟨raised, rfl⟩, rfl⟩
              | ok exited =>
                  cases exited with
                  | true => exact Or.inl ⟨rfl, rfl⟩
                  | false =>
                      refine safe_ask fun killed => ⟨_, .kill p lost killed, ?_⟩
                      cases killed with
                      | error raised => exact Or.inr ⟨⟨raised, rfl⟩, rfl⟩
                      | ok _ =>
                          intro buried
                          refine ⟨_, .buried p lost buried, ?_⟩
                          cases buried with
                          | error raised => exact Or.inr ⟨⟨raised, rfl⟩, rfl⟩
                          | ok _ => exact Or.inl ⟨rfl, rfl⟩

/-- A client that has been closed has no process left, and has lost none where it returns. -/
theorem client_close_safe {phase : Phase} {p : Nat} (h : phase.closable = some p) (n : Nat)
    (lost : List Nat) :
    Safe (Step Allowed)
      (fun s r => s.phase = .idle ∧ r.2 = ⟨none, n⟩ ∧ (r.1 = .ok () → s.lost = lost))
      (Client.close ⟨some p, n⟩) ⟨phase, lost⟩ := by
  refine safe_ask fun _ => ⟨_, .closeInput phase p lost h, ?_⟩
  refine (awaitExit_safe p lost).bind ?_
  rintro s r (⟨rfl, rfl⟩ | ⟨⟨raised, rfl⟩, rfl⟩)
  · exact safe_ask fun stopped => ⟨_, .stopped p lost stopped, rfl, rfl, fun _ => rfl⟩
  · exact ⟨rfl, rfl, fun heq => nomatch heq⟩

/-- How a greeting ends. -/
inductive Greeted (p : Nat) (lost : List Nat) : World → Except Raised Unit × Client → Prop
  | confirmed : Greeted p lost ⟨.confirmed p, lost⟩ (.ok (), ⟨some p, 1⟩)
  | refused (error : Error) :
      Greeted p lost ⟨.refused p, lost⟩ (.error (.exception error), ⟨some p, 1⟩)
  | lost : Greeted p lost ⟨.idle, p :: lost⟩ (.error .cancelled, ⟨some p, 1⟩)

theorem greeted_of_error (p : Nat) (lost : List Nat) (next : Phase) (raised : Raised) :
    Greeted p lost (afterGreeting p lost next (.error raised : Except Raised Unit))
      (.error raised, ⟨some p, 1⟩) := by
  cases raised with
  | exception error => exact .refused error
  | cancelled => exact .lost

theorem afterGreeting_error {α β : Type} (p : Nat) (lost : List Nat) (next next' : Phase)
    (raised : Raised) :
    afterGreeting p lost next (.error raised : Except Raised α)
      = afterGreeting p lost next' (.error raised : Except Raised β) := by
  cases raised <;> rfl

theorem greet_safe (p : Nat) (lost : List Nat) :
    Safe (Step Allowed) (Greeted p lost) (Client.greet ⟨some p, 0⟩) ⟨.spawned p, lost⟩ := by
  refine safe_bind.mpr (safe_request (fun raised => ⟨_, .greet p lost (.error raised), ?_⟩)
    ⟨_, .greet p lost (.ok ()), fun response => ⟨_, .greeted p lost response, ?_⟩⟩)
  · exact greeted_of_error p lost _ raised
  · cases response with
    | error raised =>
        rw [afterGreeting_error p lost _ .idle]
        exact greeted_of_error p lost _ raised
    | ok payload =>
        refine safe_ask fun notified => ⟨_, .confirm p lost notified, ?_⟩
        cases notified with
        | error raised => exact greeted_of_error p lost _ raised
        | ok _ => exact .confirmed

/-- How a start ends: the process is to be asked for its tools, or there is none. -/
inductive Started (lost : List Nat) : World → Except Raised Unit × Client → Prop
  | confirmed (p : Nat) : Started lost ⟨.confirmed p, lost⟩ (.ok (), ⟨some p, 1⟩)
  | failed (raised : Raised) (c : Client) (lost' : List Nat) :
      Started lost ⟨.idle, lost'⟩ (.error raised, c)

theorem started_failed {lost : List Nat} {s : World} {raised : Raised} {c : Client}
    (h : s.phase = .idle) : Started lost s (.error raised, c) := by
  obtain ⟨phase, lost'⟩ := s
  obtain rfl : phase = .idle := h
  exact .failed raised c lost'

theorem start_safe (cfg : Config) (lost : List Nat) :
    Safe (Step Allowed) (Started lost) (Client.start cfg newClient) ⟨.idle, lost⟩ := by
  rw [Client.start]
  by_cases hargv : cfg.argv = []
  · rw [if_pos hargv]
    exact started_failed rfl
  rw [if_neg hargv]
  refine safe_ask fun spawned => ⟨_, .spawn lost spawned, ?_⟩
  cases spawned with
  | error raised => exact started_failed rfl
  | ok p =>
      refine (greet_safe p lost).bind ?_
      intro s r hgreeted
      cases hgreeted with
      | confirmed => exact .confirmed p
      | lost => exact started_failed rfl
      | refused error =>
          have hclosable : Phase.closable (.refused p) = some p := rfl
          refine (client_close_safe hclosable 1 lost).bind ?_
          rintro s ⟨closed, c⟩ ⟨hidle, _, _⟩
          cases closed with
          | error raised => exact started_failed hidle
          | ok _ => exact started_failed hidle

/-- How a listing ends. -/
inductive Listed (p : Nat) (lost : List Nat) : World → Except Raised (List Text) × Client → Prop
  | ready (tools : List Text) : Listed p lost ⟨.ready p 2 tools, lost⟩ (.ok tools, ⟨some p, 2⟩)
  | refused (error : Error) :
      Listed p lost ⟨.refused p, lost⟩ (.error (.exception error), ⟨some p, 2⟩)
  | abandoned : Listed p lost ⟨.abandoned p, lost⟩ (.error .cancelled, ⟨some p, 2⟩)

theorem listTools_safe (cfg : Config) (py : Secrets.Python floats) (p : Nat) (lost : List Nat) :
    Safe (Step Allowed) (Listed p lost) (Client.listTools cfg py ⟨some p, 1⟩)
      ⟨.confirmed p, lost⟩ := by
  refine safe_bind.mpr (safe_request (fun raised => ⟨_, .list p lost (.error raised), ?_⟩)
    ⟨_, .list p lost (.ok ()), fun response => ⟨_, .listed p lost response, ?_⟩⟩)
  · cases raised with
    | exception error => exact .refused error
    | cancelled => exact .abandoned
  · cases response with
    | error raised =>
        cases raised with
        | exception error => exact .refused error
        | cancelled => exact .abandoned
    | ok payload =>
        show Safe (Step Allowed) (Listed p lost) _ ⟨listed p payload, lost⟩
        rw [listed]
        cases hoffered : Client.offered payload with
        | none =>
            dsimp only
            rw [hoffered]
            exact .refused _
        | some tools =>
            dsimp only
            rw [hoffered]
            exact .ready tools

/-- The bridge knows where its process stands. -/
inductive Matches : Bridge → World → Prop
  | closed (lost : List Nat) : Matches newBridge ⟨.idle, lost⟩
  | ready (p n : Nat) (tools : List Text) (lost : List Nat) :
      Matches ⟨some ⟨some p, n⟩, tools⟩ ⟨.ready p n tools, lost⟩
  | abandoned (p n : Nat) (lost : List Nat) :
      Matches ⟨some ⟨some p, n⟩, []⟩ ⟨.abandoned p, lost⟩
  | stuck (n : Nat) (lost : List Nat) : Matches ⟨some ⟨none, n⟩, []⟩ ⟨.idle, lost⟩

/-- Nothing runs, or what runs was abandoned. -/
inductive Phase.Over : Phase → Prop
  | idle : Phase.Over .idle
  | abandoned (p : Nat) : Phase.Over (.abandoned p)

/-- How `connect` ends on a new bridge. -/
inductive Connected (lost : List Nat) : World → Except Raised Unit × Bridge → Prop
  | ready (p n : Nat) (tools : List Text) :
      Connected lost ⟨.ready p n tools, lost⟩ (.ok (), ⟨some ⟨some p, n⟩, tools⟩)
  | failed {s : World} {b : Bridge} (raised : Raised) :
      s.phase.Over → Matches b s → Connected lost s (.error raised, b)

theorem connect_new_safe (cfg : Config) (py : Secrets.Python floats) (lost : List Nat) :
    Safe (Step Allowed) (Connected lost) (newBridge.connect cfg py) ⟨.idle, lost⟩ := by
  refine (start_safe cfg lost).bind ?_
  intro s r hstarted
  cases hstarted with
  | failed raised c lost' => exact .failed raised .idle (.closed lost')
  | confirmed p =>
      refine (listTools_safe cfg py p lost).bind ?_
      intro s r hlisted
      cases hlisted with
      | ready tools => exact .ready p 2 tools
      | abandoned => exact .failed .cancelled (.abandoned p) (.abandoned p 2 lost)
      | refused error =>
          have hclosable : Phase.closable (.refused p) = some p := rfl
          refine (client_close_safe hclosable 2 lost).bind ?_
          rintro ⟨phase, lost'⟩ ⟨closed, c⟩ ⟨rfl, rfl, _⟩
          cases closed with
          | error raised => exact .failed raised .idle (.stuck 2 lost')
          | ok _ => exact .failed _ .idle (.closed lost')

theorem connect_safe (cfg : Config) (py : Secrets.Python floats) {b : Bridge} {s : World}
    (h : Matches b s) :
    Safe (Step Allowed) (fun s r => Matches r.2 s) (b.connect cfg py) s := by
  cases h with
  | ready p n tools lost => exact .ready p n tools lost
  | abandoned p n lost => exact .abandoned p n lost
  | stuck n lost => exact .stuck n lost
  | closed lost =>
      refine (connect_new_safe cfg py lost).mono fun s r hconnected => ?_
      cases hconnected with
      | ready p n tools => exact .ready p n tools lost
      | failed raised _ hmatches => exact hmatches

/-- A bridge after `close`: it has no process, and has lost none where it returns. -/
structure Closed (lost : List Nat) (s : World) (r : Except Raised Unit × Bridge) : Prop where
  phase : s.phase = .idle
  bridge : r.2 = newBridge
  kept : r.1 = .ok () → s.lost = lost

/-- **A bridge that has been closed has no process.** -/
theorem close_safe {b : Bridge} {s : World} (h : Matches b s) :
    Safe (Step Allowed) (Closed s.lost) b.close s := by
  have hclosed : ∀ {phase : Phase} {p : Nat} (_ : phase.closable = some p) (n : Nat)
      (tools : List Text) (lost : List Nat), Safe (Step Allowed) (Closed lost)
      (Bridge.close ⟨some ⟨some p, n⟩, tools⟩) ⟨phase, lost⟩ :=
    fun hphase n tools lost =>
      (client_close_safe hphase n lost).bind fun s r hclosed => ⟨hclosed.1, rfl, hclosed.2.2⟩
  cases h with
  | closed lost => exact ⟨rfl, rfl, fun _ => rfl⟩
  | stuck n lost => exact ⟨rfl, rfl, fun _ => rfl⟩
  | ready p n tools lost => exact hclosed rfl n tools lost
  | abandoned p n lost => exact hclosed rfl n [] lost

theorem mem_of_assertToolAvailable {available : List Text} {tool : Text} {txPreparation : Bool}
    {requiredTools : Option (List Text)}
    (h : assertToolAvailable available tool txPreparation requiredTools = .ok ()) :
    tool ∈ available := by
  by_contra hmem
  have hcontains : (!available.contains tool) = true := by
    rw [Bool.not_eq_true', List.contains_eq_mem, decide_eq_false hmem]
  unfold Secrets.assertToolAvailable at h
  rw [if_pos hcontains] at h
  cases h

/-- The bridge is connected, and nothing was lost. -/
inductive InUse (lost : List Nat) : Bridge → World → Prop
  | mk (p n : Nat) (tools : List Text) :
      InUse lost ⟨some ⟨some p, n⟩, tools⟩ ⟨.ready p n tools, lost⟩

theorem InUse.matches {lost : List Nat} {b : Bridge} {s : World} (h : InUse lost b s) :
    Matches b s := by
  cases h with
  | mk p n tools => exact .ready p n tools lost

/-- Without tools no call is made. -/
theorem callConnected_nothing (cfg : Config) {b : Bridge} (h : b.availableTools = [])
    (tool : Text) (arguments : Payload floats) (txPreparation : Bool)
    (requiredTools : Option (List Text)) :
    ∃ text, b.callConnected cfg tool arguments txPreparation requiredTools
      = Prog.done (unavailable text, b) := by
  rw [Bridge.callConnected]
  cases havailable : assertToolAvailable b.availableTools tool txPreparation requiredTools with
  | error text => exact ⟨text, rfl⟩
  | ok _ =>
      rw [h] at havailable
      exact nomatch mem_of_assertToolAvailable havailable

/-- A call that is allowed is made where the process has said that it has the tool, and nowhere
    else. -/
theorem callConnected_safe (cfg : Config) {lost : List Nat} {b : Bridge} {s : World}
    (h : InUse lost b s) {tool : Text} {arguments : Payload floats} (txPreparation : Bool)
    (requiredTools : Option (List Text)) (hallowed : Allowed tool (dropNoneMembers arguments)) :
    Safe (Step Allowed) (fun s r => InUse lost r.2 s)
      (b.callConnected cfg tool arguments txPreparation requiredTools) s := by
  cases h with
  | mk p n tools =>
      rw [Bridge.callConnected]
      cases havailable : assertToolAvailable tools tool txPreparation requiredTools with
      | error text => exact .mk p n tools
      | ok _ =>
          have hmem := mem_of_assertToolAvailable havailable
          have hfree := nullFree_dropNoneMembers arguments
          refine Safe.bind
            (R := fun s (r : Except Raised (Payload floats) × Client) =>
              InUse lost ⟨some r.2, tools⟩ s) ?_ fun s r hr => hr
          refine safe_bind.mpr (safe_request
            (fun raised =>
              ⟨_, .call p n tools lost tool _ (.error raised) hmem hfree hallowed, ?_⟩)
            ⟨_, .call p n tools lost tool _ (.ok ()) hmem hfree hallowed,
              fun response => ⟨_, .answered p (n + 1) tools lost response, ?_⟩⟩)
          · exact .mk p (n + 1) tools
          · cases response with
            | error raised => exact .mk p (n + 1) tools
            | ok payload =>
                dsimp only
                split <;> exact .mk p (n + 1) tools

theorem callTool_safe (cfg : Config) (py : Secrets.Python floats) {b : Bridge} {s : World}
    (h : Matches b s) {tool : Text} {arguments : Payload floats} (txPreparation : Bool)
    (requiredTools : Option (List Text)) (hallowed : Allowed tool (dropNoneMembers arguments)) :
    Safe (Step Allowed) (fun s r => Matches r.2 s)
      (b.callTool cfg py tool arguments txPreparation requiredTools) s := by
  refine (connect_safe cfg py h).bind ?_
  rintro s ⟨connected, b⟩ hmatches
  have hnothing : b.availableTools = [] → Safe (Step Allowed) (fun s r => Matches r.2 s)
      (b.callConnected cfg tool arguments txPreparation requiredTools) s := by
    intro hnone
    obtain ⟨text, hcall⟩ :=
      callConnected_nothing cfg hnone tool arguments txPreparation requiredTools
    rw [hcall]
    exact hmatches
  cases connected with
  | error raised => exact hmatches
  | ok _ =>
      cases hmatches with
      | closed lost => exact hnothing rfl
      | abandoned p n lost => exact hnothing rfl
      | stuck n lost => exact hnothing rfl
      | ready p n tools lost =>
          exact (callConnected_safe cfg (.mk p n tools) txPreparation requiredTools hallowed).mono
            fun s r hr => hr.matches

/-- What is done with a bridge that is connected leaves it so. -/
theorem handleUse_safe (cfg : Config) (py : Secrets.Python floats) (u : Use floats)
    {lost : List Nat} {b : Bridge} {s : World} (h : InUse lost b s)
    (hallowed : ∀ tool arguments txPreparation requiredTools,
      u = .callTool tool arguments txPreparation requiredTools →
      Allowed tool (dropNoneMembers arguments)) :
    Safe (Step Allowed) (fun s r => InUse lost r.2 s) (handleUse cfg py u b) s := by
  cases u with
  | availableTools => exact h
  | callTool tool arguments txPreparation requiredTools =>
      have hconnect : b.connect cfg py = Prog.done (Except.ok (), b) := by
        cases h with
        | mk p n tools => rfl
      refine safe_bind.mpr ?_
      rw [hconnect]
      exact callConnected_safe cfg h txPreparation requiredTools (hallowed _ _ _ _ rfl)

/-- **Every operation of the bridge keeps the protocol.** -/
theorem handle_safe (cfg : Config) (py : Secrets.Python floats) (call : Call floats) {b : Bridge}
    {s : World} (h : Matches b s)
    (hallowed : ∀ tool arguments txPreparation requiredTools,
      call = .use (.callTool tool arguments txPreparation requiredTools) →
      Allowed tool (dropNoneMembers arguments)) :
    Safe (Step Allowed) (fun s r => Matches r.2 s) (handle cfg py call b) s := by
  cases call with
  | connect => exact connect_safe cfg py h
  | close =>
      refine (close_safe h).mono ?_
      rintro ⟨phase, lost⟩ ⟨closed, b⟩ ⟨rfl, rfl, _⟩
      exact .closed lost
  | use u =>
      cases u with
      | availableTools => exact h
      | callTool tool arguments txPreparation requiredTools =>
          exact callTool_safe cfg py h txPreparation requiredTools (hallowed _ _ _ _ rfl)

/-- **What `_load_and_close` leaves**: where it returns, the process has ended and the body has
    returned as it should; else nothing runs that could be closed. -/
theorem loadAndClose_safe {α Upper : Type} (cfg : Config) (py : Secrets.Python floats)
    {Above : Upper → Event (Use floats) Use.Reply → Upper → Prop}
    (hallowed : ∀ u tool arguments txPreparation requiredTools reply u',
      Above u ⟨.callTool tool arguments txPreparation requiredTools, reply⟩ u' →
      Allowed tool (dropNoneMembers arguments))
    {body : Prog (Use floats) Use.Reply (Except Raised α)} {Q : Upper → Except Raised α → Prop}
    {u : Upper} (hbody : Safe Above Q body u) (lost : List Nat) :
    Safe (Step Allowed)
      (fun s r => s.phase.Over ∧ ∀ a, r.1 = .ok a → s = ⟨.idle, lost⟩ ∧ ∃ u', Q u' (.ok a))
      (loadAndClose cfg py body) ⟨.idle, lost⟩ := by
  refine (connect_new_safe cfg py lost).bind ?_
  intro s r hconnected
  cases hconnected with
  | failed raised hover _ => exact ⟨hover, fun a heq => nomatch heq⟩
  | ready p n tools =>
      have huses : ∀ call u s b, InUse lost b s →
          (∀ reply, ∃ u', Above u ⟨call, reply⟩ u') →
          Safe (Step Allowed) (fun s r => ∀ u', Above u ⟨call, r.1⟩ u' → InUse lost r.2 s)
            (handleUse cfg py call b) s := by
        intro call u s b hb hreplies
        refine (handleUse_safe cfg py call hb fun tool arguments tx required heq => ?_).mono
          fun s r hr _ _ => hr
        subst heq
        obtain ⟨u', hstep⟩ := hreplies (.error .cancelled)
        exact hallowed _ _ _ _ _ _ _ hstep
      have hrun := safe_interpret (I := fun _ s b => InUse lost b s) huses hbody
        (InUse.mk p n tools)
      refine hrun.bind ?_
      rintro s ⟨result, b⟩ ⟨u', hQ, huse⟩
      refine (close_safe huse.matches).bind ?_
      rintro ⟨phase, lost'⟩ ⟨closed, b⟩ ⟨rfl, rfl, hkept⟩
      cases closed with
      | error raised => exact ⟨.idle, fun a heq => nomatch heq⟩
      | ok _ =>
          refine ⟨.idle, fun a heq => ?_⟩
          obtain rfl : result = .ok a := heq
          cases huse with
          | mk p n tools =>
              obtain rfl : lost' = lost := hkept rfl
              exact ⟨rfl, u', hQ⟩

end McpBridge
