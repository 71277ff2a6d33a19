import MandatedVaultFactory.McpFramingProofs

/-!
# Requests to the MCP server and their answers

The client of the MCP server writes requests, one after another, and reads messages until one
carries the id of its request.  The server answers each request once, whenever it likes, and
sends notifications and requests of its own in between.

* **`Client.request`** — the call; **`awaitResponse_frames`**: it ends at the first message that
  carries its id.
* **`Session`** — the client and a server together, message by message.
* **`Session.correct_iff`** — every call ends by its own answer exactly when no request of the
  server's is read under the id that the client waits for, and no message that meets a limit.

A message with that id is not asked whether it is an answer: this is what separates the two. -/

namespace Mcp

open Encoding Texts Json

variable {floats : Floats}

/-! ## The client -/

def jsonrpcKey : Text := ['j', 's', 'o', 'n', 'r', 'p', 'c']
def idKey : Text := ['i', 'd']
def methodKey : Text := ['m', 'e', 't', 'h', 'o', 'd']
def paramsKey : Text := ['p', 'a', 'r', 'a', 'm', 's']
def resultKey : Text := ['r', 'e', 's', 'u', 'l', 't']
def errorKey : Text := ['e', 'r', 'r', 'o', 'r']
def messageKey : Text := ['m', 'e', 's', 's', 'a', 'g', 'e']

/-- How a call of `request` ends: it returns a result, or raises. -/
inductive Outcome (floats : Floats) where
  | result (members : Payload floats)
  | requestFailed (method : Text) (message : Loaded floats.Float)
  | noObjectResult (method : Text)
  | unwritten (limit : Limit)
  | unread (failure : Failure)

/-- What `request` makes of the message it takes for its response. -/
def outcomeOf (method : Text) (message : Payload floats) : Outcome floats :=
  match lookup errorKey message with
  | some (.obj error) => .requestFailed method ((lookup messageKey error).getD (.obj error))
  | _ =>
      match lookup resultKey message with
      | some (.obj result) => .result result
      | _ => .noObjectResult method

/-- `value == id` in Python, where booleans are numbers; `None` equals no number. -/
def eqId (floats : Floats) (id : Nat) : Option (Loaded floats.Float) → Bool
  | some (.int n) => n = id
  | some (.bool b) => (b.toNat : Int) = id
  | some (.float x) => floats.eqInt x id
  | _ => false

/-- `_SubprocessMcpClient`, its process started: the counter of its requests, what it has
    written and what it reads. -/
structure Client where
  requestId : Nat
  stdin : Bytes
  reader : Reader

def requestMembers (id : Nat) (method : Text) (params : Message floats) : Payload floats :=
  [(jsonrpcKey, .str ['2', '.', '0']), (idKey, .int id), (methodKey, .str method),
    (paramsKey, .obj params.1)]

theorem keyed_requestMembers (id : Nat) (method : Text) (params : Message floats) :
    (Value.obj (requestMembers id method params)).Keyed :=
  ⟨Str.nodup_ofText (by decide : [jsonrpcKey, idKey, methodKey, paramsKey].Nodup), trivial,
    trivial, trivial, params.2, trivial⟩

/-- The start of `request`: the next id is taken and the request written, unless `json.dumps`
    raises. -/
def Client.write (c : Client) (method : Text) (params : Message floats) : Except Limit Unit × Client :=
  let id := c.requestId + 1
  match writeMessage floats ⟨requestMembers id method params, keyed_requestMembers _ _ _⟩ with
  | .ok bytes => (.ok (), { c with requestId := id, stdin := c.stdin ++ bytes })
  | .error limit => (.error limit, { c with requestId := id })

/-- The id is taken in any case, and nothing is read. -/
theorem Client.write_spec (c : Client) (method : Text) (params : Message floats) :
    (c.write method params).2.requestId = c.requestId + 1
      ∧ (c.write method params).2.reader = c.reader := by
  rw [write]
  split
  · exact ⟨rfl, rfl⟩
  · exact ⟨rfl, rfl⟩

/-- A request that meets no limit is written. -/
theorem Client.write_ok {c : Client} {method : Text} {params : Message floats}
    (h : (Value.obj (requestMembers (c.requestId + 1) method params)).limit floats
      floats.writeDepth 0 = none) :
    ∃ c', c.write method params = (.ok (), c') := by
  have hbytes := (writeMessage_eq_ok_iff ⟨_, keyed_requestMembers (c.requestId + 1) method params⟩
    _).mpr ⟨h, rfl⟩
  simp only [write, hbytes]
  exact ⟨_, rfl⟩

/-- One round of its loop, `none` where it goes on. -/
def Client.receive (floats : Floats) (method : Text) (c : Client) :
    Option (Outcome floats) × Client :=
  let read := readMessage floats c.reader
  match read.1 with
  | .error failure => (some (.unread failure), { c with reader := read.2 })
  | .ok message =>
      if eqId floats c.requestId (lookup idKey message) then
        (some (outcomeOf method message), { c with reader := read.2 })
      else (none, { c with reader := read.2 })

theorem Client.receive_lt {method : Text} {c : Client} (h : (c.receive floats method).1 = none) :
    (c.receive floats method).2.reader.pending.length < c.reader.pending.length := by
  cases hread : (readMessage floats c.reader).1 with
  | error failure =>
      simp only [receive, hread] at h
      cases h
  | ok message =>
      have hlt := length_readMessage_lt hread
      by_cases hid : eqId floats c.requestId (lookup idKey message) = true
      · simp only [receive, hread, if_pos hid] at h
        cases h
      · simpa only [receive, hread, if_neg hid] using hlt

/-- The loop of `request`. -/
def Client.awaitResponse (floats : Floats) (method : Text) (c : Client) :
    Outcome floats × Client :=
  match _h : (c.receive floats method).1 with
  | some outcome => (outcome, (c.receive floats method).2)
  | none => awaitResponse floats method (c.receive floats method).2
termination_by c.reader.pending.length
decreasing_by exact Client.receive_lt _h

/-- `request`. -/
def Client.request (c : Client) (method : Text) (params : Message floats) :
    Outcome floats × Client :=
  match c.write method params with
  | (.ok (), c') => c'.awaitResponse floats method
  | (.error limit, c') => (.unwritten limit, c')

/-! ## Against a stream of frames -/

/-- One round, on the next frame. -/
theorem Client.receive_frame (method : Text) {c : Client} {f : Frame floats} (hfits : f.Fits)
    {rest : Bytes} (h : c.reader.pending = f.bytes ++ rest) :
    ∃ r', r'.pending = rest ∧ c.receive floats method =
      (if eqId floats c.requestId (lookup idKey f.object) then some (outcomeOf method f.object)
       else none, { c with reader := r' }) := by
  obtain ⟨r', hread, hrest⟩ := readMessage_frame f hfits h
  refine ⟨r', hrest, ?_⟩
  simp only [receive, hread]
  by_cases hid : eqId floats c.requestId (lookup idKey f.object) = true
  · rw [if_pos hid, if_pos hid]
  · rw [if_neg hid, if_neg hid]

/-- A frame that does not fit ends the call. -/
theorem Client.receive_unfit (method : Text) {c : Client} {f : Frame floats} (hfits : ¬ f.Fits)
    {rest : Bytes} (h : c.reader.pending = f.bytes ++ rest) :
    ∃ failure r', c.receive floats method = (some (.unread failure), { c with reader := r' }) := by
  have hraises := readMessage_unfit f hfits h
  simp only [receive]
  cases hread : (readMessage floats c.reader).1 with
  | error failure => exact ⟨failure, _, rfl⟩
  | ok members => exact absurd hread (hraises members)

/-- **The loop ends at the first message that carries the id.**  Induction on those before it. -/
theorem Client.awaitResponse_frames (method : Text) {f : Frame floats} (hfits : f.Fits)
    {rest : Bytes} (others : List (Frame floats)) : ∀ c : Client,
    c.reader.pending = others.flatMap Frame.bytes ++ (f.bytes ++ rest) →
    (∀ o ∈ others, o.Fits ∧ eqId floats c.requestId (lookup idKey o.object) = false) →
    eqId floats c.requestId (lookup idKey f.object) = true →
    ∃ c', c.awaitResponse floats method = (outcomeOf method f.object, c') ∧
      c'.reader.pending = rest := by
  induction others with
  | nil =>
      intro c hpending _ hid
      obtain ⟨r', hrest, hreceive⟩ := Client.receive_frame method hfits hpending
      rw [if_pos hid] at hreceive
      refine ⟨{ c with reader := r' }, ?_, hrest⟩
      rw [awaitResponse, hreceive]
  | cons o others ih =>
      intro c hpending hothers hid
      rw [List.flatMap_cons, List.append_assoc] at hpending
      have ho := hothers o (List.mem_cons_self ..)
      obtain ⟨r', hrest, hreceive⟩ := Client.receive_frame method ho.1 hpending
      rw [ho.2] at hreceive
      obtain ⟨c', hawait, hrest'⟩ := ih { c with reader := r' } hrest
        (fun o' ho' => hothers o' (List.mem_cons_of_mem _ ho')) hid
      refine ⟨c', ?_, hrest'⟩
      rw [awaitResponse, hreceive]
      exact hawait

/-! ## The server -/

/-- What a message of the server is: the answer to a request, or one of its own. -/
inductive Kind where
  | response (id : Nat)
  | notification
  | request
deriving DecidableEq

/-- An id of a request: a string or a number. -/
def IsRequestId : Loaded floats.Float → Prop
  | .str _ | .int _ | .float _ => True
  | _ => False

/-- How JSON-RPC tells the kinds of messages apart. -/
def Conforms (message : Payload floats) : Kind → Prop
  | .response id =>
      lookup idKey message = some (.int id) ∧ lookup methodKey message = none ∧
      ((lookup resultKey message).isSome ↔ lookup errorKey message = none)
  | .notification => (lookup methodKey message).isSome ∧ lookup idKey message = none
  | .request =>
      (lookup methodKey message).isSome ∧ ∃ id, lookup idKey message = some id ∧ IsRequestId id

/-- A message that a server sends. -/
structure Sent (floats : Floats) where
  frame : Frame floats
  kind : Kind
  conforms : Conforms frame.object kind

def Sent.bytes (m : Sent floats) : Bytes := m.frame.bytes

/-- The client takes the message for the answer to its request `id`. -/
def Sent.Carries (m : Sent floats) (id : Nat) : Prop :=
  eqId floats id (lookup idKey m.frame.object) = true

/-- An answer carries the id of its request and no other, and a notification none. -/
theorem carries_response {m : Sent floats} {i id : Nat} (h : m.kind = .response i) :
    m.Carries id ↔ i = id := by
  have hconforms := m.conforms
  rw [h] at hconforms
  rw [Sent.Carries, hconforms.1, eqId, decide_eq_true_eq]
  omega

theorem not_carries_notification {m : Sent floats} (h : m.kind = .notification) (id : Nat) :
    ¬ m.Carries id := by
  have hconforms := m.conforms
  rw [h] at hconforms
  rw [Sent.Carries, hconforms.2]
  exact Bool.false_ne_true

/-! ## Both together -/

/-- A call that has ended, and the message that ended it. -/
structure Ended (floats : Floats) where
  id : Nat
  method : Text
  message : Sent floats
  outcome : Outcome floats

/-- The client and its server, what is on its way to the client, and which requests have been
    written and not answered. -/
structure Session (floats : Floats) where
  client : Client
  waiting : Option Text
  inFlight : List (Sent floats)
  unanswered : List Nat
  ended : List (Ended floats)

/-- What can happen: a request is written, and its call goes on to wait unless writing raised,
    before it (`json.dumps`) or behind it (`raised`); the server sends a message; a waiting call
    reads one. -/
inductive Event (floats : Floats) where
  | write (method : Text) (params : Message floats) (raised : Bool)
  | send (m : Sent floats)
  | read

namespace Session

def start (floats : Floats) (sizes : Nat → Nat) : Session floats where
  client := { requestId := 0, stdin := [], reader := ⟨[], ⟨[], sizes, 0⟩⟩ }
  waiting := none
  inFlight := []
  unanswered := []
  ended := []

/-- The bytes of a message arrive behind what is there. -/
def arrive (c : Client) (bytes : Bytes) : Client :=
  { c with reader :=
      { c.reader with stdout :=
          { c.reader.stdout with unread := c.reader.stdout.unread ++ bytes } } }

def sent (s : Session floats) (m : Sent floats) : Session floats :=
  { s with client := arrive s.client m.bytes, inFlight := s.inFlight ++ [m] }

/-- One event, `none` where it cannot happen: calls come one after another, and only a request
    that was written and has not been answered is answered. -/
def step (s : Session floats) : Event floats → Option (Session floats)
  | .write method params raised =>
      if s.waiting.isSome then none
      else
        match s.client.write method params with
        | (.ok (), client) => some
            { s with
              client
              waiting := if raised then none else some method
              unanswered := client.requestId :: s.unanswered }
        | (.error _, client) => some { s with client }
  | .send m =>
      match m.kind with
      | .response id =>
          if id ∈ s.unanswered then some { s.sent m with unanswered := s.unanswered.erase id }
          else none
      | _ => some (s.sent m)
  | .read =>
      match s.waiting, s.inFlight with
      | some method, m :: rest =>
          let received := s.client.receive floats method
          match received.1 with
          | none => some { s with client := received.2, inFlight := rest }
          | some outcome => some
              { s with
                client := received.2
                waiting := none
                inFlight := rest
                ended := s.ended ++ [⟨s.client.requestId, method, m, outcome⟩] }
      | _, _ => none

def run (s : Session floats) : List (Event floats) → Option (Session floats)
  | [] => some s
  | e :: events => (s.step e).bind fun s' => s'.run events

/-- A call is about to read a request of the server's under the id that it waits for, or a
    message that is too much for the interpreter. -/
def Collides (s : Session floats) : Event floats → Prop
  | .read => ∃ m ∈ s.inFlight.head?, s.waiting.isSome ∧
      (m.kind = .request ∧ m.Carries s.client.requestId ∨ ¬ m.frame.Fits)
  | _ => False

/-- No step of the run is such a read. -/
def Quiet (s : Session floats) : List (Event floats) → Prop
  | [] => True
  | e :: events => ¬ s.Collides e ∧ ∀ s', s.step e = some s' → s'.Quiet events

end Session

/-- The call was ended by the answer to its request, as that answer says. -/
def Ended.Answered (e : Ended floats) : Prop :=
  e.message.kind = .response e.id ∧ e.outcome = outcomeOf e.method e.message.frame.object

/-- **What the calls of a session owe their callers**: each that has ended was ended by its own
    answer, and the answer to one that waits has not been passed over. -/
structure Session.Correct (s : Session floats) : Prop where
  ended : ∀ e ∈ s.ended, e.Answered
  awaited : s.waiting.isSome → s.client.requestId ∈ s.unanswered ∨
    ∃ m ∈ s.inFlight, m.kind = .response s.client.requestId

/-! ## What holds in every session -/

/-- How often the request has been or can be answered. -/
def Session.answers (s : Session floats) (id : Nat) : Nat :=
  s.unanswered.count id + s.inFlight.countP fun m => m.kind = .response id

structure Session.Inv (s : Session floats) : Prop where
  pending : s.client.reader.pending = s.inFlight.flatMap Sent.bytes
  once : ∀ id, s.answers id ≤ 1
  fresh : ∀ id, s.client.requestId < id → s.answers id = 0
  awaited : s.waiting.isSome → s.answers s.client.requestId = 1
  answered : ∀ e ∈ s.ended, e.Answered

namespace Session

theorem inv_start (sizes : Nat → Nat) : (start floats sizes).Inv where
  pending := rfl
  once _ := Nat.zero_le _
  fresh _ _ := rfl
  awaited h := by cases h
  answered e he := by cases he

/-- **What writing can do**: an id is taken and nothing is read, and unless `json.dumps` raises
    there is one more request to be answered. -/
theorem write_cases {s s' : Session floats} {method : Text} {params : Message floats}
    {raised : Bool} (h : s.step (.write method params raised) = some s') :
    ¬ s.waiting.isSome ∧ ∃ client : Client, client.requestId = s.client.requestId + 1 ∧
      client.reader = s.client.reader ∧
      (s' = { s with client } ∨
        s' = { s with
          client
          waiting := if raised then none else some method
          unanswered := client.requestId :: s.unanswered }) := by
  simp only [step] at h
  by_cases hwaiting : s.waiting.isSome = true
  · rw [if_pos hwaiting] at h
    cases h
  rw [if_neg hwaiting] at h
  have hspec := Client.write_spec s.client method params
  cases hwrite : s.client.write method params with
  | mk written client =>
      rw [hwrite] at h hspec
      refine ⟨hwaiting, client, hspec.1, hspec.2, ?_⟩
      cases written with
      | ok u => exact Or.inr (Option.some.inj h).symm
      | error limit => exact Or.inl (Option.some.inj h).symm

theorem inv_write {s s' : Session floats} {method : Text} {params : Message floats}
    {raised : Bool} (hinv : s.Inv) (h : s.step (.write method params raised) = some s') :
    s'.Inv := by
  obtain ⟨hwaiting, client, hid, hreader, hs⟩ := write_cases h
  have hpending : client.reader.pending = s.inFlight.flatMap Sent.bytes :=
    (congrArg Reader.pending hreader).trans hinv.pending
  have hless : s.client.requestId < client.requestId := by omega
  -- the new identifier is one that nobody has used
  have hnew := hinv.fresh client.requestId hless
  rcases hs with rfl | rfl
  · exact ⟨hpending, hinv.once, fun id hlt => hinv.fresh id (hless.trans hlt),
      fun hwaits => absurd hwaits hwaiting, hinv.answered⟩
  · refine ⟨hpending, fun id => ?_, fun id hlt => ?_, fun _ => ?_, hinv.answered⟩
    · have honce := hinv.once id
      simp only [answers, List.count_cons] at honce hnew ⊢
      by_cases heq : id = client.requestId
      · subst heq
        simp only [beq_self_eq_true, if_true]
        omega
      · simp only [beq_iff_eq, Ne.symm heq, if_false]
        exact honce
    · have hfresh := hinv.fresh id (hless.trans hlt)
      have hne : ¬ client.requestId = id := Nat.ne_of_lt hlt
      simp only [answers, List.count_cons, beq_iff_eq, hne, if_false] at hfresh ⊢
      exact hfresh
    · show List.count client.requestId (client.requestId :: s.unanswered)
        + s.inFlight.countP (fun m => m.kind = .response client.requestId) = 1
      simp only [answers] at hnew
      rw [List.count_cons_self]
      omega

theorem pending_arrive (c : Client) (bytes : Bytes) :
    (arrive c bytes).reader.pending = c.reader.pending ++ bytes := by
  simp [arrive, Reader.pending]

theorem answers_sent (s : Session floats) (m : Sent floats) (id : Nat) :
    (s.sent m).answers id = s.answers id + if m.kind = .response id then 1 else 0 := by
  simp only [answers, sent, List.countP_append, List.countP_singleton, decide_eq_true_eq]
  omega

/-- **What sending can do**: an answer is taken off the requests to be answered, and nothing
    else is. -/
theorem send_cases {s s' : Session floats} {m : Sent floats} (h : s.step (.send m) = some s') :
    (∃ id ∈ s.unanswered, m.kind = .response id ∧
      s' = { s.sent m with unanswered := s.unanswered.erase id }) ∨
    ((∀ id, m.kind ≠ .response id) ∧ s' = s.sent m) := by
  simp only [step] at h
  cases hkind : m.kind with
  | response i =>
      simp only [hkind] at h
      by_cases hmem : i ∈ s.unanswered
      · rw [if_pos hmem, Option.some.injEq] at h
        exact Or.inl ⟨i, hmem, rfl, h.symm⟩
      · rw [if_neg hmem] at h
        cases h
  | notification =>
      simp only [hkind, Option.some.injEq] at h
      exact Or.inr ⟨nofun, h.symm⟩
  | request =>
      simp only [hkind, Option.some.injEq] at h
      exact Or.inr ⟨nofun, h.symm⟩

theorem answers_send {s s' : Session floats} {m : Sent floats} (h : s.step (.send m) = some s')
    (id : Nat) : s'.answers id = s.answers id := by
  have hsent := answers_sent s m id
  rcases send_cases h with ⟨i, hmem, hkind, rfl⟩ | ⟨hkind, rfl⟩
  · have hpos := List.count_pos_iff.mpr hmem
    simp only [answers, sent, hkind, List.count_erase] at hsent ⊢
    by_cases hid : i = id
    · subst hid
      simp only [beq_self_eq_true, if_true] at hsent ⊢
      omega
    · have hne : ¬ Kind.response i = Kind.response id := fun heq => hid (Kind.response.inj heq)
      simp only [beq_iff_eq, hid, hne, if_false] at hsent ⊢
      omega
  · rw [hsent, if_neg (hkind id), Nat.add_zero]

theorem inv_send {s s' : Session floats} {m : Sent floats} (hinv : s.Inv)
    (h : s.step (.send m) = some s') : s'.Inv := by
  have hanswers := answers_send h
  obtain ⟨unanswered, rfl⟩ : ∃ unanswered, s' = { s.sent m with unanswered } := by
    rcases send_cases h with ⟨_, _, _, rfl⟩ | ⟨_, rfl⟩
    · exact ⟨_, rfl⟩
    · exact ⟨s.unanswered, rfl⟩
  refine ⟨?_, fun id => ?_, fun id hid => ?_, fun hwaiting => ?_, hinv.answered⟩
  · show (arrive s.client m.bytes).reader.pending = (s.inFlight ++ [m]).flatMap Sent.bytes
    rw [pending_arrive, hinv.pending, List.flatMap_append]
    simp
  · rw [hanswers]
    exact hinv.once id
  · rw [hanswers]
    exact hinv.fresh id hid
  · rw [hanswers]
    exact hinv.awaited hwaiting

/-- The state after a message has been read. -/
def took (s : Session floats) (r' : Reader) (rest : List (Sent floats)) : Session floats :=
  { s with client := { s.client with reader := r' }, inFlight := rest }

/-- The state after the message has ended the call. -/
def finish (s : Session floats) (method : Text) (m : Sent floats) (outcome : Outcome floats) :
    Session floats :=
  { s with
    waiting := none
    ended := s.ended ++ [⟨s.client.requestId, method, m, outcome⟩] }

/-- What reading a message does: it ends the call exactly if it carries its id, or if it is too
    much for the interpreter. -/
theorem read_cases {s s' : Session floats} (hinv : s.Inv) (h : s.step .read = some s') :
    ∃ method m rest r', s.waiting = some method ∧ s.inFlight = m :: rest ∧
      (m.frame.Fits ∧ r'.pending = rest.flatMap Sent.bytes ∧
          (¬ m.Carries s.client.requestId ∧ s' = s.took r' rest ∨
            m.Carries s.client.requestId ∧
              s' = (s.took r' rest).finish method m (outcomeOf method m.frame.object)) ∨
        ¬ m.frame.Fits ∧
          ∃ failure, s' = (s.took r' rest).finish method m (.unread failure)) := by
  simp only [step] at h
  cases hwaiting : s.waiting with
  | none =>
      simp only [hwaiting] at h
      cases h
  | some method =>
      cases hflight : s.inFlight with
      | nil =>
          simp only [hwaiting, hflight] at h
          cases h
      | cons m rest =>
          have hpending := hinv.pending
          rw [hflight, List.flatMap_cons] at hpending
          simp only [hwaiting, hflight] at h
          by_cases hfits : m.frame.Fits
          · -- one frame is there to be read, and the reader stops at its end
            obtain ⟨r', hrest, hreceive⟩ := Client.receive_frame method hfits hpending
            refine ⟨method, m, rest, r', rfl, rfl, Or.inl ⟨hfits, hrest, ?_⟩⟩
            simp only [hreceive] at h
            by_cases hid : eqId floats s.client.requestId (lookup idKey m.frame.object) = true
            · simp only [if_pos hid, Option.some.injEq] at h
              exact Or.inr ⟨hid, h.symm⟩
            · simp only [if_neg hid, Option.some.injEq] at h
              refine Or.inl ⟨hid, ?_⟩
              rw [← h, took]
              simp only [hwaiting]
          · obtain ⟨failure, r', hreceive⟩ := Client.receive_unfit method hfits hpending
            refine ⟨method, m, rest, r', rfl, rfl, Or.inr ⟨hfits, failure, ?_⟩⟩
            simp only [hreceive, Option.some.injEq] at h
            exact h.symm

theorem answers_took {s : Session floats} {m : Sent floats} {rest : List (Sent floats)}
    (h : s.inFlight = m :: rest) (r' : Reader) (id : Nat) :
    s.answers id = (s.took r' rest).answers id + if m.kind = .response id then 1 else 0 := by
  simp only [answers, took, h, List.countP_cons, decide_eq_true_eq]
  omega

theorem inv_took {s : Session floats} (hinv : s.Inv) {m : Sent floats}
    {rest : List (Sent floats)} (hflight : s.inFlight = m :: rest) {r' : Reader}
    (hrest : r'.pending = rest.flatMap Sent.bytes) (hother : ¬ m.Carries s.client.requestId) :
    (s.took r' rest).Inv where
  pending := hrest
  once id := by
    have hanswers := answers_took hflight r' id
    have honce := hinv.once id
    omega
  fresh id hid := by
    have hanswers := answers_took hflight r' id
    have hfresh := hinv.fresh id hid
    omega
  awaited hwaiting := by
    have hanswers := answers_took hflight r' s.client.requestId
    rw [if_neg fun hkind => hother ((carries_response hkind).mpr rfl), hinv.awaited hwaiting]
      at hanswers
    exact hanswers.symm
  answered := hinv.answered

theorem inv_finish {s : Session floats} (hinv : s.Inv) {m : Sent floats}
    {rest : List (Sent floats)} (hflight : s.inFlight = m :: rest) {r' : Reader}
    (hrest : r'.pending = rest.flatMap Sent.bytes) {method : Text} {outcome : Outcome floats}
    (hanswered : Ended.Answered ⟨s.client.requestId, method, m, outcome⟩) :
    ((s.took r' rest).finish method m outcome).Inv where
  pending := hrest
  once id := by
    have hanswers := answers_took hflight r' id
    have honce := hinv.once id
    show (s.took r' rest).answers id ≤ 1
    omega
  fresh id hid := by
    have hanswers := answers_took hflight r' id
    have hfresh := hinv.fresh id hid
    show (s.took r' rest).answers id = 0
    omega
  awaited hwaiting := by cases hwaiting
  answered := List.forall_mem_append.mpr
    ⟨hinv.answered, List.forall_mem_singleton.mpr hanswered⟩

/-- A message that carries the id of the waiting call is its answer or a request. -/
theorem answered_iff (s : Session floats) (method : Text) {m : Sent floats}
    (h : m.Carries s.client.requestId) :
    Ended.Answered ⟨s.client.requestId, method, m, outcomeOf method m.frame.object⟩
      ↔ ¬ m.kind = .request := by
  refine ⟨fun hanswered hkind => ?_, fun hkind => ⟨?_, rfl⟩⟩
  · have hresponse := hanswered.1
    rw [hkind] at hresponse
    cases hresponse
  · cases hm : m.kind with
    | response i => exact congrArg Kind.response ((carries_response hm).mp h)
    | notification => exact absurd h (not_carries_notification hm _)
    | request => exact absurd hm hkind

/-- A message that is not read answers nothing. -/
theorem not_answered_unread (id : Nat) (method : Text) (m : Sent floats) (failure : Failure) :
    ¬ Ended.Answered ⟨id, method, m, .unread failure⟩ := by
  intro hanswered
  have houtcome : Outcome.unread failure = outcomeOf method m.frame.object := hanswered.2
  rw [outcomeOf] at houtcome
  split at houtcome
  · cases houtcome
  · split at houtcome
    · cases houtcome
    · cases houtcome

/-- **One event**: unless it is a collision the invariant stays, and a collision ends a call
    without its answer. -/
theorem step_spec {s s' : Session floats} {e : Event floats} (hinv : s.Inv)
    (h : s.step e = some s') :
    (¬ s.Collides e → s'.Inv) ∧ (s.Collides e → ∃ x ∈ s'.ended, ¬ x.Answered) := by
  cases e with
  | write method params raised => exact ⟨fun _ => inv_write hinv h, fun hcollides => hcollides.elim⟩
  | send m => exact ⟨fun _ => inv_send hinv h, fun hcollides => hcollides.elim⟩
  | read =>
      obtain ⟨method, m, rest, r', hwaiting, hflight, hread⟩ := read_cases hinv h
      have hcollides : s.Collides .read
          ↔ m.kind = .request ∧ m.Carries s.client.requestId ∨ ¬ m.frame.Fits := by
        simp [Collides, hflight, hwaiting]
      have hlast : ∀ outcome, ⟨s.client.requestId, method, m, outcome⟩
          ∈ ((s.took r' rest).finish method m outcome).ended := fun outcome =>
        List.mem_append_right _ (List.mem_singleton_self _)
      rw [hcollides]
      rcases hread with ⟨hfits, hrest, ⟨hother, rfl⟩ | ⟨hcarries, rfl⟩⟩ | ⟨hfits, failure, rfl⟩
      · refine ⟨fun _ => inv_took hinv hflight hrest hother, fun hcollision => ?_⟩
        rcases hcollision with hcollision | hunfit
        · exact absurd hcollision.2 hother
        · exact absurd hfits hunfit
      · have hanswered := answered_iff s method hcarries
        refine ⟨fun hquiet => ?_, fun hcollision => ⟨_, hlast _, fun h => ?_⟩⟩
        · refine inv_finish hinv hflight hrest (hanswered.mpr fun hkind => ?_)
          exact hquiet (Or.inl ⟨hkind, hcarries⟩)
        · rcases hcollision with hcollision | hunfit
          · exact hanswered.mp h hcollision.1
          · exact hunfit hfits
      · exact ⟨fun hquiet => absurd (Or.inr hfits) hquiet,
          fun _ => ⟨_, hlast _, not_answered_unread _ _ _ _⟩⟩

/-- What has ended has ended. -/
theorem ended_step {s s' : Session floats} {e : Event floats} (h : s.step e = some s') :
    ∀ x ∈ s.ended, x ∈ s'.ended := by
  intro x hx
  cases e with
  | write method params raised =>
      obtain ⟨_, _, _, _, rfl | rfl⟩ := write_cases h
      · exact hx
      · exact hx
  | send m =>
      rcases send_cases h with ⟨_, _, _, rfl⟩ | ⟨_, rfl⟩
      · exact hx
      · exact hx
  | read =>
      simp only [step] at h
      split at h
      · split at h
        · cases h
          exact hx
        · cases h
          exact List.mem_append_left _ hx
      · cases h

theorem ended_run (events : List (Event floats)) : ∀ {s s' : Session floats},
    s.run events = some s' → ∀ x ∈ s.ended, x ∈ s'.ended := by
  induction events with
  | nil =>
      intro s s' h x hx
      rw [run, Option.some.injEq] at h
      exact h ▸ hx
  | cons e events ih =>
      intro s s' h x hx
      obtain ⟨s₁, hstep, hrun⟩ := Option.bind_eq_some_iff.mp h
      exact ih hrun x (ended_step hstep x hx)

theorem quiet_cons {s s₁ : Session floats} {e : Event floats} (h : s.step e = some s₁)
    (events : List (Event floats)) :
    s.Quiet (e :: events) ↔ ¬ s.Collides e ∧ s₁.Quiet events := by
  refine and_congr_right fun _ => ⟨fun hquiet => hquiet s₁ h, fun hquiet s₂ hs₂ => ?_⟩
  rw [h, Option.some.injEq] at hs₂
  exact hs₂ ▸ hquiet

/-- **Every run.**  Induction on its events. -/
theorem run_spec (events : List (Event floats)) : ∀ {s s' : Session floats}, s.Inv →
    s.run events = some s' →
    (s.Quiet events → s'.Inv) ∧ (¬ s.Quiet events → ∃ x ∈ s'.ended, ¬ x.Answered) := by
  induction events with
  | nil =>
      intro s s' hinv h
      rw [run, Option.some.injEq] at h
      subst h
      exact ⟨fun _ => hinv, fun hloud => absurd trivial hloud⟩
  | cons e events ih =>
      intro s s' hinv h
      obtain ⟨s₁, hstep, hrun⟩ := Option.bind_eq_some_iff.mp h
      have hspec := step_spec hinv hstep
      rw [quiet_cons hstep]
      by_cases hcollides : s.Collides e
      · obtain ⟨x, hx, hanswered⟩ := hspec.2 hcollides
        exact ⟨fun hquiet => absurd hcollides hquiet.1,
          fun _ => ⟨x, ended_run events hrun x hx, hanswered⟩⟩
      · have hrest := ih (hspec.1 hcollides) hrun
        exact ⟨fun hquiet => hrest.1 hquiet.2, fun hloud => hrest.2 fun hquiet =>
          hloud ⟨hcollides, hquiet⟩⟩

theorem run_append (events more : List (Event floats)) (s : Session floats) :
    s.run (events ++ more) = (s.run events).bind fun s' => s'.run more := by
  induction events generalizing s with
  | nil => rfl
  | cons e events ih =>
      rw [List.cons_append, run, run]
      cases s.step e with
      | none => rfl
      | some s' => exact ih s'

theorem quiet_append (events more : List (Event floats)) : ∀ {s s' : Session floats},
    s.run events = some s' → (s.Quiet (events ++ more) ↔ s.Quiet events ∧ s'.Quiet more) := by
  induction events with
  | nil =>
      intro s s' h
      rw [run, Option.some.injEq] at h
      exact h ▸ (and_iff_right trivial).symm
  | cons e events ih =>
      intro s s' h
      obtain ⟨s₁, hstep, hrun⟩ := Option.bind_eq_some_iff.mp h
      rw [List.cons_append, quiet_cons hstep, quiet_cons hstep, ih hrun, and_assoc]

/-- The answer to a call that waits is still to come, or on its way. -/
theorem awaited_of_inv {s : Session floats} (hinv : s.Inv) (hwaiting : s.waiting.isSome) :
    s.client.requestId ∈ s.unanswered ∨
      ∃ m ∈ s.inFlight, m.kind = .response s.client.requestId := by
  have hone := hinv.awaited hwaiting
  by_cases hmem : s.client.requestId ∈ s.unanswered
  · exact Or.inl hmem
  · rw [answers, List.count_eq_zero.mpr hmem, Nat.zero_add] at hone
    obtain ⟨m, hm, hkind⟩ := List.countP_pos_iff.mp (hone ▸ Nat.one_pos)
    exact Or.inr ⟨m, hm, of_decide_eq_true hkind⟩

/-- Before the answer to a waiting call only requests can carry its id. -/
theorem not_carries_others {s : Session floats} (hinv : s.Inv) {others rest : List (Sent floats)}
    {m : Sent floats} (hflight : s.inFlight = others ++ m :: rest)
    (hkind : m.kind = .response s.client.requestId)
    (hothers : ∀ o ∈ others, o.kind = .request → ¬ o.Carries s.client.requestId) :
    ∀ o ∈ others, ¬ o.Carries s.client.requestId := by
  intro o ho hcarries
  cases hokind : o.kind with
  | request => exact hothers o ho hokind hcarries
  | notification => exact not_carries_notification hokind _ hcarries
  | response i =>
      obtain rfl := (carries_response hokind).mp hcarries
      have honce := hinv.once s.client.requestId
      have hpos : 0 < others.countP fun m => m.kind = .response s.client.requestId :=
        List.countP_pos_iff.mpr ⟨o, ho, decide_eq_true hokind⟩
      simp only [answers, hflight, List.countP_append, List.countP_cons, hkind] at honce
      simp only [decide_true, if_true] at honce
      omega

/-- **A call that waits ends by its answer once that is there**, unless a request with its id
    is there before it, or what does not fit. -/
theorem awaitResponse_of_inv {s : Session floats} (hinv : s.Inv) (method : Text)
    {others rest : List (Sent floats)} {m : Sent floats}
    (hflight : s.inFlight = others ++ m :: rest)
    (hkind : m.kind = .response s.client.requestId)
    (hfits : ∀ o ∈ others ++ [m], o.frame.Fits)
    (hothers : ∀ o ∈ others, o.kind = .request → ¬ o.Carries s.client.requestId) :
    ∃ c, s.client.awaitResponse floats method = (outcomeOf method m.frame.object, c) ∧
      c.reader.pending = rest.flatMap Sent.bytes := by
  have hpending : s.client.reader.pending = (others.map Sent.frame).flatMap Frame.bytes
      ++ (m.frame.bytes ++ rest.flatMap Sent.bytes) := by
    rw [hinv.pending, hflight, List.flatMap_append, List.flatMap_cons, List.flatMap_map]
    rfl
  refine Client.awaitResponse_frames method (hfits m (by simp)) (others.map Sent.frame) s.client
    hpending ?_ ((carries_response hkind).mpr rfl)
  intro f hf
  obtain ⟨o, ho, rfl⟩ := List.mem_map.mp hf
  exact ⟨hfits o (List.mem_append_left _ ho),
    Bool.eq_false_iff.mpr (not_carries_others hinv hflight hkind hothers o ho)⟩

/-- **The calls of a session end by their own answers exactly when no message is read that is too
    much for the interpreter, and no request of the server's under the id that a call waits
    for**; and a call whose answer is there then ends by it. -/
theorem correct_iff (sizes : Nat → Nat) (events : List (Event floats)) {s : Session floats}
    (h : (start floats sizes).run events = some s) :
    (s.Correct ↔ (start floats sizes).Quiet events) ∧
    (s.Correct → ∀ method others m rest, s.waiting = some method →
      s.inFlight = others ++ m :: rest → m.kind = .response s.client.requestId →
      (∀ o ∈ others ++ [m], o.frame.Fits) →
      (∀ o ∈ others, o.kind = .request → ¬ o.Carries s.client.requestId) →
      ∃ c, s.client.awaitResponse floats method = (outcomeOf method m.frame.object, c) ∧
        c.reader.pending = rest.flatMap Sent.bytes) := by
  have hspec := run_spec events (inv_start sizes) h
  have hiff : s.Correct ↔ (start floats sizes).Quiet events := by
    refine ⟨fun hcorrect => ?_, fun hquiet => ?_⟩
    · by_contra hloud
      obtain ⟨x, hx, hanswered⟩ := hspec.2 hloud
      exact hanswered (hcorrect.ended x hx)
    · have hinv := hspec.1 hquiet
      exact ⟨hinv.answered, awaited_of_inv hinv⟩
  refine ⟨hiff, fun hcorrect method others m rest _ hflight hkind hfits hothers => ?_⟩
  exact awaitResponse_of_inv (hspec.1 (hiff.mp hcorrect)) method hflight hkind hfits hothers

/-! ## A session with a ping -/

/-- A call can read what is in flight. -/
theorem read_some {s : Session floats} {method : Text} {m : Sent floats}
    {rest : List (Sent floats)} (hwaiting : s.waiting = some method)
    (hflight : s.inFlight = m :: rest) : ∃ s', s.step .read = some s' := by
  simp only [step, hwaiting, hflight]
  cases (s.client.receive floats method).1 with
  | none => exact ⟨_, rfl⟩
  | some outcome => exact ⟨_, rfl⟩

def pingMembers : Payload nanFloats :=
  [(jsonrpcKey, .str ['2', '.', '0']), (idKey, .int 1), (methodKey, .str ['p', 'i', 'n', 'g'])]

theorem keyed_pingMembers : (Value.obj pingMembers).Keyed :=
  ⟨Str.nodup_ofText (by decide : [jsonrpcKey, idKey, methodKey].Nodup), trivial, trivial, trivial,
    trivial⟩

/-- `{"jsonrpc": "2.0", "id": 1, "method": "ping"}`, a request of the server's. -/
def ping : Sent nanFloats where
  frame := Frame.ofMessage ⟨pingMembers, keyed_pingMembers⟩
  kind := .request
  conforms := ⟨rfl, .int 1, rfl, trivial⟩

theorem keyed_nil : (Value.obj ([] : Payload nanFloats)).Keyed := ⟨List.nodup_nil, trivial⟩

/-- The first request of the client, and a message on its way. -/
def firstEvents (m : Sent nanFloats) : List (Event nanFloats) :=
  [.write ['i', 'n', 'i', 't', 'i', 'a', 'l', 'i', 'z', 'e'] ⟨[], keyed_nil⟩ false, .send m]

def emptyResultMembers : Payload nanFloats :=
  [(jsonrpcKey, .str ['2', '.', '0']), (idKey, .int 1), (resultKey, .obj [])]

theorem keyed_emptyResultMembers : (Value.obj emptyResultMembers).Keyed :=
  ⟨Str.nodup_ofText (by decide : [jsonrpcKey, idKey, resultKey].Nodup), trivial, trivial,
    keyed_nil, trivial⟩

/-- `{"jsonrpc": "2.0", "id": 1, "result": {}}`, the answer to the first request. -/
def emptyResult : Sent nanFloats where
  frame := Frame.ofMessage ⟨emptyResultMembers, keyed_emptyResultMembers⟩
  kind := .response 1
  conforms := ⟨rfl, rfl, by decide⟩

/-- The answer is read, and the call is answered. -/
theorem correct_iff_emptyResult : ∃ s,
    (start nanFloats fun _ => 1).run (firstEvents emptyResult ++ [.read]) = some s ∧
    s.Correct := by
  obtain ⟨s, hrun, hwaiting, hflight⟩ : ∃ s,
      (start nanFloats fun _ => 1).run (firstEvents emptyResult) = some s ∧
      s.waiting = some ['i', 'n', 'i', 't', 'i', 'a', 'l', 'i', 'z', 'e'] ∧
      s.inFlight = [emptyResult] := ⟨_, rfl, rfl, rfl⟩
  obtain ⟨s', hread⟩ := read_some hwaiting hflight
  have hrun' : (start nanFloats fun _ => 1).run (firstEvents emptyResult ++ [.read]) = some s' := by
    rw [run_append, hrun, Option.bind_some, run, hread]
    rfl
  have hquiet : (start nanFloats fun _ => 1).Quiet (firstEvents emptyResult ++ [.read]) := by
    refine (quiet_append _ _ hrun).mpr ⟨⟨id, fun _ _ => ⟨id, fun _ _ => trivial⟩⟩, ?_, ?_⟩
    · rintro ⟨m, hm, _, hcollision⟩
      rw [hflight] at hm
      obtain rfl := Option.some.inj hm
      rcases hcollision with ⟨hkind, _⟩ | hunfit
      · cases hkind
      · exact hunfit (limit_nanFloats _ 0)
    · exact fun _ _ => trivial
  exact ⟨s', hrun', (correct_iff (fun _ => 1) _ hrun').1.mpr hquiet⟩

/-- The ping has the id of the first request, and its call is ended by it. -/
theorem not_correct_ping :
    ¬ ∀ (sizes : Nat → Nat) (events : List (Event nanFloats)) (s : Session nanFloats),
      (start nanFloats sizes).run events = some s → s.Correct := by
  intro hcorrect
  obtain ⟨s, hrun, hwaiting, hflight, hid⟩ : ∃ s,
      (start nanFloats fun _ => 1).run (firstEvents ping) = some s ∧ s.waiting.isSome ∧
      s.inFlight = [ping] ∧ s.client.requestId = 1 := ⟨_, rfl, rfl, rfl, rfl⟩
  obtain ⟨method, hmethod⟩ := Option.isSome_iff_exists.mp hwaiting
  obtain ⟨s', hread⟩ := read_some hmethod hflight
  have hrun' : (start nanFloats fun _ => 1).run (firstEvents ping ++ [.read]) = some s' := by
    rw [run_append, hrun, Option.bind_some, run, hread]
    rfl
  have hloud : ¬ (start nanFloats fun _ => 1).Quiet (firstEvents ping ++ [.read]) := by
    rw [quiet_append _ _ hrun]
    rintro ⟨_, hquiet, _⟩
    refine hquiet ⟨ping, by rw [hflight]; rfl, hwaiting, Or.inl ⟨rfl, ?_⟩⟩
    rw [hid]
    rfl
  obtain ⟨x, hx, hanswered⟩ := (run_spec _ (inv_start _) hrun').2 hloud
  exact hanswered ((hcorrect _ _ s' hrun').ended x hx)

end Session

end Mcp
