import MandatedVaultFactory.ApiClientProofs
import MandatedVaultFactory.McpClientProofs
import MandatedVaultFactory.MergedPositionsProofs
import MandatedVaultFactory.RedactionProofs

/-!
# What exceptions tell

The bridge to the MCP server, its client and the client of the exchange put into their
exceptions what the other side says.  Most take the secrets out of it that they list.

* **`PredictConfig.secrets`** — the list; two keys are not in it.
* **`requestLoop`** — the request of the client of the exchange, with its texts.
* **`Operation`**, **`Raises`** — what can be called, and what it can raise.
* **`bridgeCall_toolError`** — the message of a tool that fails is passed on as it is.
* **`secrets_kept_iff`** — when the configured secrets stay out of every message: for the
  bridge if there are none, for the clients if the two keys are masked. -/

namespace Secrets

open Encoding Texts Json Mcp Redaction

variable {floats : Floats}

/-! ## The configuration -/

/-- `PredictConfig`: its secrets, and how often a request is tried. -/
structure PredictConfig where
  apiKey : Option Text
  privateKey : Option Text
  privyPrivateKey : Option Text
  mandatedAuthorityPrivateKey : Option Text
  mandatedExecutorPrivateKey : Option Text
  openrouterApiKey : Option Text
  retryAttempts : Nat

namespace PredictConfig

/-- `_secrets`, the same in both clients. -/
def secrets (cfg : PredictConfig) : List (Option Text) :=
  [cfg.apiKey, cfg.privateKey, cfg.privyPrivateKey, cfg.openrouterApiKey]

/-- The keys of the mandate, which it leaves out. -/
def mandatedKeys (cfg : PredictConfig) : List (Option Text) :=
  [cfg.mandatedAuthorityPrivateKey, cfg.mandatedExecutorPrivateKey]

/-- All secrets of the configuration. -/
def held (cfg : PredictConfig) : List Text := (cfg.secrets ++ cfg.mandatedKeys).filterMap id

/-- `_redact`. -/
def redact (cfg : PredictConfig) (text : Text) : Text := redactText text cfg.secrets

end PredictConfig

/-- What the model takes from outside: how Python writes values and its own errors down, and
    the text of the `ValidationError` that a pydantic model raises, if it does. -/
structure Python (floats : Floats) where
  repr : Loaded floats.Float → Text
  /-- A string in a message; half a surrogate pair is shown in some way. -/
  shown : Str → Text
  shown_text : ∀ text : Text, shown text = text
  unicodeError : Bytes → Text
  jsonError : Text → Text
  limitError : Limit → Text → Text
  validationError : Text → Loaded floats.Float → Option Text
  invalidToolError : Payload floats → Text

/-- `str(value)`. -/
def Python.str (py : Python floats) : Loaded floats.Float → Text
  | .str s => py.shown s
  | v => py.repr v

/-! ## The client of the MCP server -/

/-- What the process leaves behind: the lines on its stderr, and its code. -/
structure Process where
  stderr : List Text
  returncode : Option Int

/-- What is around a call: the process, the text of an exception that is caught, the bytes of a
    line that is no UTF-8, and the JSON that meets a limit. -/
structure Surroundings where
  process : Process
  error : Text
  undecoded : Bytes
  limited : Text

def rstrip (t : Text) : Text := (t.reverse.dropWhile isSpace).reverse

/-- `xs[-n:]`. -/
def lastOf {α : Type} (n : Nat) (xs : List α) : List α := xs.drop (xs.length - n)

/-- `_capture_stderr`: the last twenty lines. -/
def captureStderr (lines : List Text) : List Text :=
  lines.foldl (fun chunks line => lastOf 20 (chunks ++ [rstrip line])) []

def returncodeText : Option Int → Text
  | none => "None".toList
  | some n => Predict.intText n

variable (cfg : PredictConfig) (py : Python floats)

/-- `_build_process_exit_message`. -/
def buildProcessExitMessage (process : Process) : Text :=
  let chunks := captureStderr process.stderr
  let suffix :=
    if chunks = [] then []
    else " stderr=".toList ++ cfg.redact (lastOf 400 (" | ".toList.intercalate chunks))
  cfg.redact ("Mandated-vault MCP process exited before completing the request (returncode=".toList
    ++ returncodeText process.returncode ++ ").".toList ++ suffix)

/-- What a failure to read a message says. -/
def reasonText (around : Surroundings) : Reason → Text
  | .processExit => buildProcessExitMessage cfg around.process
  | .undecodable =>
      cfg.redact ("Mandated-vault MCP emitted undecodable stdout payload: ".toList ++ around.error)
  | .malformedHeaders headerLine =>
      cfg.redact ("Mandated-vault MCP emitted malformed response headers: ".toList
        ++ py.repr (.str ↑headerLine))
  | .omittedContentLength =>
      cfg.redact "Mandated-vault MCP response omitted Content-Length header.".toList
  | .invalidPayload =>
      cfg.redact ("Mandated-vault MCP emitted invalid JSON-RPC payload: ".toList ++ around.error)
  | .notAnObject => cfg.redact "Mandated-vault MCP response payload was not an object.".toList

def failureText (around : Surroundings) : Failure → Text
  | .unavailable why => reasonText cfg py around why
  | .unicodeDecodeError => py.unicodeError around.undecoded
  | .valueError => py.limitError .digits around.limited
  | .recursionError => py.limitError .depth around.limited

def commandEmptyText : Text := "Mandated-vault MCP command is empty.".toList

/-- The start of `start`, up to its first request: what `shlex` makes of the command is spawned. -/
def start (argv : List Text) (spawned : Except Text Unit) : Except Text Unit :=
  match argv with
  | [] => .error commandEmptyText
  | command :: _ =>
      match spawned with
      | .ok () => .ok ()
      | .error error =>
          .error (cfg.redact ("Failed to start mandated-vault MCP command ".toList
            ++ py.repr (.str ↑command) ++ ": ".toList ++ error))

def notStartedText : Text := "Mandated-vault MCP process has not been started.".toList

/-- `request`, with what it raises; no client, no process. -/
def request (around : Surroundings) (client : Option Client) (method : Text)
    (params : Message floats) : Except Text (Payload floats) :=
  match client with
  | none => .error notStartedText
  | some c =>
      match (c.request method params).1 with
      | .result members => .ok members
      | .requestFailed method message =>
          .error (cfg.redact ("Mandated-vault MCP ".toList ++ method
            ++ " request failed: ".toList ++ py.str message))
      | .noObjectResult method =>
          .error (cfg.redact ("Mandated-vault MCP ".toList ++ method
            ++ " response did not include an object result.".toList))
      | .unwritten limit => .error (py.limitError limit around.limited)
      | .unread failure => .error (failureText cfg py around failure)

def nameKey : Text := "name".toList
def argumentsKey : Text := "arguments".toList
def structuredContentKey : Text := "structuredContent".toList
def toolsKey : Text := "tools".toList
def toolsCallText : Text := "tools/call".toList
def toolsListText : Text := "tools/list".toList

/-- `{"name": name, "arguments": arguments}`. -/
def toolParams (name : Text) (arguments : Message floats) : Message floats :=
  ⟨[(nameKey, .str ↑name), (argumentsKey, .obj arguments.1)],
    Str.nodup_ofText (by decide : [nameKey, argumentsKey].Nodup), trivial, arguments.2, trivial⟩

/-- `{}`. -/
def noParams : Message floats := ⟨[], List.nodup_nil, trivial⟩

/-- `call_tool`. -/
def callTool (around : Surroundings) (client : Option Client) (name : Text)
    (arguments : Message floats) : Except Text (Payload floats) := do
  let payload ← request cfg py around client toolsCallText (toolParams name arguments)
  match lookup structuredContentKey payload with
  | some (.obj structured) => .ok structured
  | _ =>
      .error (cfg.redact ("Mandated-vault MCP returned malformed structuredContent for ".toList
        ++ name ++ ".".toList))

/-- `model.model_validate(value)`. -/
def modelValidate (model : Text) (v : Loaded floats.Float) : Except Text (Loaded floats.Float) :=
  match py.validationError model v with
  | none => .ok v
  | some text => .error text

/-- `list_tools`. -/
def listTools (around : Surroundings) (client : Option Client) :
    Except Text (List (Loaded floats.Float)) := do
  let payload ← request cfg py around client toolsListText noParams
  match lookup toolsKey payload with
  | some (.arr items) => items.mapM (modelValidate py "McpToolDescriptor".toList)
  | _ =>
      .error (cfg.redact
        "Mandated-vault MCP tools/list response did not include a tools array.".toList)

/-! ## The bridge -/

def v1RequiredTools : List Text :=
  ["factory_predict_vault_address".toList, "factory_create_vault_prepare".toList,
    "vault_health_check".toList]

def bootstrapRequiredTools : List Text := ["vault_bootstrap".toList]

def missingOf (required available : List Text) : List Text :=
  required.filter fun tool => !available.contains tool

/-- `missing_required_tools`: none if the tool that sets a vault up is there. -/
def missingRequiredTools (available : List Text) : List Text :=
  if missingOf bootstrapRequiredTools available = [] then []
  else missingOf v1RequiredTools available

/-- The order of strings, by their characters' codes. -/
def textLe : Text → Text → Bool
  | [], _ => true
  | _ :: _, [] => false
  | a :: s, b :: t => if a = b then textLe s t else a.toNat < b.toNat

/-- The text of a `MandatedVaultMcpMissingToolsError`. -/
def missingToolsText (operation : Text) (missing : List Text) : Text :=
  "Mandated-vault MCP cannot perform ".toList ++ operation ++ "; missing required tools: ".toList
    ++ ", ".toList.intercalate (missing.dedup.mergeSort textLe) ++ ".".toList

/-- `_assert_tool_available`. -/
def assertToolAvailable (available : List Text) (tool : Text) (txPreparation : Bool)
    (requiredTools : Option (List Text)) : Except Text Unit :=
  if !available.contains tool then .error (missingToolsText tool [tool])
  else match requiredTools with
    | some required =>
        if missingOf required available = [] then .ok ()
        else .error (missingToolsText tool (missingOf required available))
    | none =>
        if txPreparation = true ∧ missingRequiredTools available ≠ [] then
          .error (missingToolsText tool (missingRequiredTools available))
        else .ok ()

def codeKey : Text := "code".toList
def detailsKey : Text := "details".toList
def suggestionKey : Text := "suggestion".toList

/-- The code and the message of a `McpToolError`, `none` where it is not valid; `key` is the string
    of a text. -/
def readToolError {F S : Type} [DecidableEq S] (key : Text → S) (members : List (S × Value F S)) :
    Option (S × S) :=
  let keys := [codeKey, messageKey, detailsKey, suggestionKey].map key
  let known := members.all fun m => keys.contains m.1
  let details := match get (key detailsKey) members with
    | none => true
    | some .null => true
    | some (.obj _) => true
    | some _ => false
  let suggestion := match get (key suggestionKey) members with
    | none => true
    | some .null => true
    | some (.str _) => true
    | some _ => false
  match get (key codeKey) members, get (key messageKey) members with
  | some (.str code), some (.str message) =>
      if known && details && suggestion then some (code, message) else none
  | _, _ => none

/-- `_parse_result`. -/
def parseResult (toolName : Text) (structured : Payload floats) (model : Text) :
    Except Text (Loaded floats.Float) :=
  match lookup errorKey structured with
  | some (.obj toolError) =>
      match readToolError Str.ofText toolError with
      | some (code, message) =>
          .error ("Mandated-vault MCP tool ".toList ++ toolName ++ " failed: ".toList
            ++ py.shown code ++ " ".toList ++ py.shown message)
      | none => .error (py.invalidToolError toolError)
  | _ =>
      match lookup resultKey structured with
      | some (.obj payload) =>
          match py.validationError model (.obj payload) with
          | none => .ok (.obj payload)
          | some text =>
              .error ("Malformed ".toList ++ toolName ++ " response: ".toList ++ text)
      | _ =>
          .error ("Malformed ".toList ++ toolName ++ " response: missing result object.".toList)

/-- A call of a tool through the bridge, once it is connected. -/
def bridgeCall (around : Surroundings) (available : List Text) (client : Client) (tool : Text)
    (arguments : Message floats) (txPreparation : Bool) (requiredTools : Option (List Text))
    (model : Text) : Except Text (Loaded floats.Float) := do
  assertToolAvailable available tool txPreparation requiredTools
  let structured ← callTool cfg py around (some client) tool arguments
  parseResult py tool structured model

/-! ## The client of the exchange -/

/-- What an attempt brings back, with its text. -/
inductive HttpReply (floats : Floats) where
  | transportError (error : Text)
  | response (status : Nat) (text : Text) (body : Option (Value floats.Float))

/-- Without the texts. -/
def HttpReply.reply : HttpReply floats → Predict.Reply floats
  | .transportError _ => .transportError
  | .response status _ body => .response status body

/-- `_format_transport_error`. -/
def formatTransportError (method path error : Text) : Text :=
  cfg.redact ("predict.fun API transport error during ".toList ++ method ++ " ".toList ++ path
    ++ ": ".toList ++ error)

/-- `_format_response_error`. -/
def formatResponseError (method path : Text) (status : Nat) (text : Text) : Text :=
  cfg.redact ("predict.fun API request failed for ".toList ++ method ++ " ".toList ++ path
    ++ " with status ".toList ++ decimal status ++ ": ".toList ++ text.take 240)

def exhaustedText (method path : Text) : Text :=
  "predict.fun API request exhausted retries: ".toList ++ method ++ " ".toList ++ path

def noProviderText : Text := "Authenticated predict.fun request requires a JWT provider.".toList

/-- A reply that is not retried. -/
def readHttp (method path : Text) :
    HttpReply floats → Except Text (List (Text × Value floats.Float))
  | .transportError error => .error (formatTransportError cfg method path error)
  | .response status text body =>
      if Predict.isError status then .error (formatResponseError cfg method path status text)
      else match body with
        | none => .error (py.jsonError text)
        | some v => .ok (Predict.asMembers v)

/-- The loop of `_request_json`. -/
def requestLoop (method path : Text) (replies : Nat → HttpReply floats) :
    Nat → Nat → Except Text (List (Text × Value floats.Float))
  | 0, _ => .error (exhaustedText method path)
  | left + 1, attempt =>
      if Predict.retried (replies attempt).reply && left != 0 then
        requestLoop method path replies left (attempt + 1)
      else readHttp cfg py method path (replies attempt)

/-- `_request_json`. -/
def requestJson (hasProvider authenticated : Bool) (method path : Text)
    (replies : Nat → HttpReply floats) : Except Text (List (Text × Value floats.Float)) :=
  if authenticated && !hasProvider then .error noProviderText
  else requestLoop cfg py method path replies cfg.retryAttempts 0

/-- The methods that read a record: a part of the payload, validated. -/
def getRecord (hasProvider authenticated : Bool) (method path : Text)
    (replies : Nat → HttpReply floats)
    (extract : List (Text × Value floats.Float) → Value floats.Float) (model : Text) :
    Except Text (Loaded floats.Float) := do
  let payload ← requestJson cfg py hasProvider authenticated method path replies
  modelValidate py model (extract payload).widen

/-! ## What can be raised -/

inductive Operation where
  | start
  | request (method : Text)
  | callTool (name : Text)
  | listTools
  | bridgeCall (tool model : Text)
  | requestJson (method path : Text)
  | getRecord (method path model : Text)

/-- The operation can raise an exception with this message. -/
def Raises (m : Text) : Operation → Prop
  | .start => ∃ argv spawned, start cfg py argv spawned = .error m
  | .request method => ∃ around client params, request cfg py around client method params = .error m
  | .callTool name =>
      ∃ around client arguments, callTool cfg py around client name arguments = .error m
  | .listTools => ∃ around client, listTools cfg py around client = .error m
  | .bridgeCall tool model => ∃ around available client arguments txPreparation requiredTools,
      bridgeCall cfg py around available client tool arguments txPreparation requiredTools model
        = .error m
  | .requestJson method path => ∃ hasProvider authenticated replies,
      requestJson cfg py hasProvider authenticated method path replies = .error m
  | .getRecord method path model => ∃ hasProvider authenticated replies extract,
      getRecord cfg py hasProvider authenticated method path replies extract model = .error m

/-- No secret of the configuration is in a message. -/
def Kept (op : Operation) : Prop := ∀ m, Raises cfg py m op → ∀ s ∈ cfg.held, ¬ s <:+: m

/-- The texts in the messages that are always the same. -/
def fixedTexts : List Text :=
  [bearerMarker, hexMarker, commandEmptyText, notStartedText, noProviderText,
    "Failed to start mandated-vault MCP command ".toList,
    "Mandated-vault MCP tools/list response did not include a tools array.".toList,
    "Mandated-vault MCP returned malformed structuredContent for ".toList,
    " request failed: ".toList, " response did not include an object result.".toList,
    "Mandated-vault MCP process exited before completing the request (returncode=".toList,
    "Mandated-vault MCP emitted undecodable stdout payload: ".toList,
    "Mandated-vault MCP emitted malformed response headers: ".toList,
    "Mandated-vault MCP response omitted Content-Length header.".toList,
    "Mandated-vault MCP emitted invalid JSON-RPC payload: ".toList,
    "Mandated-vault MCP response payload was not an object.".toList,
    "Mandated-vault MCP cannot perform ".toList, "; missing required tools: ".toList,
    "Mandated-vault MCP tool ".toList, " failed: ".toList, "Malformed ".toList,
    " response: missing result object.".toList, " stderr=".toList,
    "predict.fun API transport error during ".toList, "predict.fun API request failed for ".toList,
    " with status ".toList, "predict.fun API request exhausted retries: ".toList]

theorem mem_fixedTexts : commandEmptyText ∈ fixedTexts ∧ notStartedText ∈ fixedTexts ∧
    noProviderText ∈ fixedTexts :=
  ⟨.tail _ (.tail _ (.head _)), .tail _ (.tail _ (.tail _ (.head _))),
    .tail _ (.tail _ (.tail _ (.tail _ (.head _))))⟩

/-- Secrets that are no piece of one another, nor of the fixed texts. -/
structure PredictConfig.Separate (cfg : PredictConfig) : Prop where
  long : ∀ s ∈ cfg.held, 8 ≤ s.length
  apart : cfg.held.Pairwise fun s t => ¬ s <:+: t ∧ ¬ t <:+: s
  fixed : ∀ s ∈ cfg.held, ∀ t ∈ fixedTexts, ¬ s <:+: t

/-- Nor of what Python says of bytes that are no UTF-8, or of texts that are no JSON or meet a
    limit. -/
structure Python.Quiet (py : Python floats) (cfg : PredictConfig) : Prop where
  unicode : ∀ s ∈ cfg.held, ∀ b, ¬ s <:+: py.unicodeError b
  json : ∀ s ∈ cfg.held, ∀ t, ¬ s <:+: py.jsonError t
  limits : ∀ s ∈ cfg.held, ∀ limit t, ¬ s <:+: py.limitError limit t

/-! ## What is redacted -/

/-- A message that is redacted. -/
def Redacted (m : Text) : Prop := ∃ text, m = cfg.redact text

theorem redacted_of_reason (around : Surroundings) (why : Reason) :
    Redacted cfg (reasonText cfg py around why) := by
  cases why with
  | processExit => exact ⟨_, rfl⟩
  | undecodable => exact ⟨_, rfl⟩
  | malformedHeaders headerLine => exact ⟨_, rfl⟩
  | omittedContentLength => exact ⟨_, rfl⟩
  | invalidPayload => exact ⟨_, rfl⟩
  | notAnObject => exact ⟨_, rfl⟩

theorem redacted_of_start {argv : List Text} {spawned : Except Text Unit} {m : Text}
    (h : start cfg py argv spawned = .error m) : m = commandEmptyText ∨ Redacted cfg m := by
  cases argv with
  | nil => exact .inl (Except.error.inj h).symm
  | cons command argv =>
      cases spawned with
      | ok u => exact nomatch h
      | error error => exact .inr ⟨_, (Except.error.inj h).symm⟩

/-- What Python says of what the process writes. -/
inductive Python.Says (py : Python floats) : Text → Prop where
  | unicode (b : Bytes) : Says py (py.unicodeError b)
  | limit (limit : Limit) (t : Text) : Says py (py.limitError limit t)

theorem redacted_of_request {around : Surroundings} {client : Option Client} {method : Text}
    {params : Message floats} {m : Text}
    (h : request cfg py around client method params = .error m) :
    m = notStartedText ∨ py.Says m ∨ Redacted cfg m := by
  cases client with
  | none => exact .inl (Except.error.inj h).symm
  | some c =>
      rw [request] at h
      cases houtcome : (c.request method params).1 with
      | result members => rw [houtcome] at h; exact nomatch h
      | requestFailed method message =>
          rw [houtcome] at h
          exact .inr (.inr ⟨_, (Except.error.inj h).symm⟩)
      | noObjectResult method =>
          rw [houtcome] at h
          exact .inr (.inr ⟨_, (Except.error.inj h).symm⟩)
      | unwritten limit =>
          rw [houtcome] at h
          exact .inr (.inl (Except.error.inj h ▸ .limit _ _))
      | unread failure =>
          rw [houtcome] at h
          obtain rfl := Except.error.inj h
          cases failure with
          | unavailable why => exact .inr (.inr (redacted_of_reason cfg py around why))
          | unicodeDecodeError => exact .inr (.inl (.unicode _))
          | valueError => exact .inr (.inl (.limit _ _))
          | recursionError => exact .inr (.inl (.limit _ _))

/-- An error of two steps is one of the first, or of the second. -/
theorem error_of_bind {α β : Type} {x : Except Text α} {f : α → Except Text β} {m : Text}
    (h : (x >>= f) = .error m) : x = .error m ∨ ∃ a, x = .ok a ∧ f a = .error m := by
  cases x with
  | error e =>
      have he : (.error e : Except Text β) = .error m := h
      exact .inl (congrArg Except.error (Except.error.inj he))
  | ok a => exact .inr ⟨a, rfl, h⟩

theorem redacted_of_callTool {around : Surroundings} {client : Option Client} {name : Text}
    {arguments : Message floats} {m : Text}
    (h : callTool cfg py around client name arguments = .error m) :
    m = notStartedText ∨ py.Says m ∨ Redacted cfg m := by
  rcases error_of_bind h with h | ⟨payload, _, h⟩
  · exact redacted_of_request cfg py h
  · split at h
    · exact nomatch h
    · exact .inr (.inr ⟨_, (Except.error.inj h).symm⟩)

theorem redacted_of_readHttp {method path : Text} {reply : HttpReply floats} {m : Text}
    (h : readHttp cfg py method path reply = .error m) :
    (∃ text, m = py.jsonError text) ∨ Redacted cfg m := by
  cases reply with
  | transportError error => exact .inr ⟨_, (Except.error.inj h).symm⟩
  | response status text body =>
      rw [readHttp.eq_def] at h
      dsimp only at h
      split_ifs at h with hstatus
      · exact .inr ⟨_, (Except.error.inj h).symm⟩
      · cases body with
        | none => exact .inl ⟨text, (Except.error.inj h).symm⟩
        | some v => exact nomatch h

/-- An attempt is made, and it is the last that raises.  Induction on how many are left. -/
theorem redacted_of_requestLoop {method path : Text} {replies : Nat → HttpReply floats}
    {m : Text} (left : Nat) : ∀ attempt,
    requestLoop cfg py method path replies (left + 1) attempt = .error m →
    (∃ text, m = py.jsonError text) ∨ Redacted cfg m := by
  induction left with
  | zero =>
      intro attempt h
      rw [requestLoop, bne_self_eq_false, Bool.and_false] at h
      exact redacted_of_readHttp cfg py h
  | succ left ih =>
      intro attempt h
      rw [requestLoop] at h
      split_ifs at h with hretried
      · exact ih (attempt + 1) h
      · exact redacted_of_readHttp cfg py h

theorem redacted_of_requestJson {hasProvider authenticated : Bool} {method path : Text}
    {replies : Nat → HttpReply floats} {m : Text} (hattempts : 0 < cfg.retryAttempts)
    (h : requestJson cfg py hasProvider authenticated method path replies = .error m) :
    m = noProviderText ∨ (∃ text, m = py.jsonError text) ∨ Redacted cfg m := by
  rw [requestJson] at h
  split_ifs at h with hprovider
  · exact .inl (Except.error.inj h).symm
  · obtain ⟨left, hleft⟩ := Nat.exists_eq_add_of_lt hattempts
    rw [hleft, Nat.zero_add] at h
    exact .inr (redacted_of_requestLoop cfg py left 0 h)

/-! ## What the other side can say -/

/-- A client that has sent nothing yet, and the message that it will read. -/
def reading (m : Message floats) : Client where
  requestId := 0
  stdin := []
  reader := ⟨[], ⟨(Frame.ofMessage m).bytes, fun _ => 1, 0⟩⟩

theorem request_reading {m : Message floats} (hid : lookup idKey m.1 = some (.int 1))
    (hlimit : (Value.obj m.1).limit floats floats.readDepth 0 = none) (method : Text)
    {params : Message floats}
    (hparams : (Value.obj (requestMembers 1 method params)).limit floats floats.writeDepth 0
      = none) :
    ((reading m).request method params).1 = outcomeOf method m.1 := by
  obtain ⟨c, hwrite⟩ := Client.write_ok (c := reading m) hparams
  have hspec := Client.write_spec (reading m) method params
  rw [hwrite] at hspec
  have hpending : c.reader.pending = (Frame.ofMessage m).bytes ++ [] := by
    rw [hspec.2]
    exact (List.append_nil _).symm
  obtain ⟨c', hawait, _⟩ := Client.awaitResponse_frames method (fits_ofMessage.mpr hlimit) [] c
    hpending (fun _ h => nomatch h) (by rw [hspec.1, object_ofMessage, hid]; rfl)
  rw [Client.request, hwrite]
  exact congrArg Prod.fst hawait

/-- `{"jsonrpc": "2.0", "id": 1, "error": {"message": told}}`. -/
def requestError (floats : Floats) (told : Text) : Message floats :=
  ⟨[(jsonrpcKey, .str ↑['2', '.', '0']), (idKey, .int 1),
      (errorKey, .obj [(messageKey, .str ↑told)])],
    Str.nodup_ofText (by decide : [jsonrpcKey, idKey, errorKey].Nodup), trivial, trivial,
    ⟨List.nodup_singleton _, trivial, trivial⟩, trivial⟩

/-- `{"structuredContent": {"error": {"code": "error", "message": told}}}`, as the result. -/
def toolError (floats : Floats) (told : Text) : Message floats :=
  ⟨[(jsonrpcKey, .str ↑['2', '.', '0']), (idKey, .int 1),
      (resultKey, .obj [(structuredContentKey,
        .obj [(errorKey, .obj [(codeKey, .str errorKey), (messageKey, .str ↑told)])])])],
    Str.nodup_ofText (by decide : [jsonrpcKey, idKey, resultKey].Nodup), trivial, trivial,
    ⟨List.nodup_singleton _,
      ⟨List.nodup_singleton _,
        ⟨Str.nodup_ofText (by decide : [codeKey, messageKey].Nodup), trivial, trivial, trivial⟩,
        trivial⟩,
      trivial⟩, trivial⟩

theorem digitLimit_one (floats : Floats) : digitLimit floats (decimal 1).length = none :=
  digitLimit_eq_none floats (by decide)

/-- Neither meets a limit. -/
theorem limit_requestError (told : Text) :
    (Value.obj (requestError floats told).1).limit floats floats.readDepth 0 = none := by
  simp [requestError, Value.limit, membersLimit, depthLimit_eq_none floats.le_readDepth,
    digitLimit_one]

theorem limit_toolError (told : Text) :
    (Value.obj (toolError floats told).1).limit floats floats.readDepth 0 = none := by
  simp [toolError, Value.limit, membersLimit, depthLimit_eq_none floats.le_readDepth,
    digitLimit_one]

/-- Nor does a request without arguments. -/
theorem limit_noParams (method : Text) :
    (Value.obj (requestMembers 1 method (noParams : Message floats))).limit floats
      floats.writeDepth 0 = none := by
  simp [requestMembers, noParams, Value.limit, membersLimit,
    depthLimit_eq_none floats.le_writeDepth, digitLimit_one]

theorem limit_toolParams (method name : Text) :
    (Value.obj (requestMembers 1 method (toolParams name noParams : Message floats))).limit floats
      floats.writeDepth 0 = none := by
  simp [requestMembers, toolParams, noParams, Value.limit, membersLimit,
    depthLimit_eq_none floats.le_writeDepth, digitLimit_one]

/-- What the MCP server says of a request that fails is redacted. -/
theorem request_requestError (around : Surroundings) (method : Text) {params : Message floats}
    (hparams : (Value.obj (requestMembers 1 method params)).limit floats floats.writeDepth 0
      = none) (told : Text) :
    request cfg py around (some (reading (requestError floats told))) method params
      = .error (cfg.redact ("Mandated-vault MCP ".toList ++ method ++ " request failed: ".toList
          ++ told)) := by
  rw [request, request_reading rfl (limit_requestError told) method hparams]
  show Except.error (cfg.redact (_ ++ py.shown told)) = _
  rw [py.shown_text]

/-- **What it says of a tool that fails is not.** -/
theorem bridgeCall_toolError (around : Surroundings) (tool model told : Text) :
    bridgeCall cfg py around [tool] (reading (toolError floats told)) tool noParams false none model
      = .error ("Mandated-vault MCP tool ".toList ++ tool ++ " failed: ".toList ++ errorKey
          ++ " ".toList ++ told) := by
  have havailable : assertToolAvailable [tool] tool false none = .ok () := by
    have hcontains : [tool].contains tool = true := by simp
    rw [assertToolAvailable, hcontains]
    rfl
  have hcall : callTool cfg py around (some (reading (toolError floats told))) tool noParams
      = .ok [(errorKey, .obj [(codeKey, .str errorKey), (messageKey, .str ↑told)])] := by
    rw [callTool, request, request_reading rfl (limit_toolError told) _ (limit_toolParams _ tool)]
    rfl
  rw [bridgeCall, havailable, hcall]
  show Except.error (_ ++ py.shown errorKey ++ _ ++ py.shown told) = _
  rw [py.shown_text, py.shown_text]

/-- A transport error at every attempt. -/
theorem requestLoop_transportError (method path told : Text) (left : Nat) : ∀ attempt,
    requestLoop cfg py method path (fun _ => .transportError told) (left + 1) attempt
      = .error (formatTransportError cfg method path told) := by
  induction left with
  | zero =>
      intro attempt
      rw [requestLoop, bne_self_eq_false, Bool.and_false]
      rfl
  | succ left ih =>
      intro attempt
      rw [requestLoop, if_pos (by rfl)]
      exact ih (attempt + 1)

/-- The operations that pass on, redacted, what the other side says. -/
def Operation.Redacts (cfg : PredictConfig) : Operation → Prop
  | .request _ => True
  | .callTool _ => True
  | .requestJson _ _ => 0 < cfg.retryAttempts
  | _ => False

theorem raises_redacted {op : Operation} (hop : op.Redacts cfg) :
    ∃ before : Text, ∀ told, Raises cfg py (cfg.redact (before ++ told)) op := by
  have around : Surroundings := ⟨⟨[], none⟩, [], [], []⟩
  cases op with
  | request method =>
      exact ⟨"Mandated-vault MCP ".toList ++ method ++ " request failed: ".toList,
        fun told => ⟨around, some (reading (requestError floats told)), noParams,
          request_requestError cfg py around method (limit_noParams method) told⟩⟩
  | callTool name =>
      refine ⟨"Mandated-vault MCP ".toList ++ toolsCallText ++ " request failed: ".toList,
        fun told => ⟨around, some (reading (requestError floats told)), noParams, ?_⟩⟩
      rw [callTool, request_requestError cfg py around _ (limit_toolParams _ name)]
      rfl
  | requestJson method path =>
      refine ⟨"predict.fun API transport error during ".toList ++ method ++ " ".toList ++ path
        ++ ": ".toList, fun told => ⟨true, false, fun _ => .transportError told, ?_⟩⟩
      obtain ⟨left, hleft⟩ := Nat.exists_eq_add_of_lt hop
      rw [requestJson, if_neg (by decide), hleft, Nat.zero_add, requestLoop_transportError]
      rfl
  | start => exact hop.elim
  | listTools => exact hop.elim
  | bridgeCall tool model => exact hop.elim
  | getRecord method path model => exact hop.elim

/-! ## When the secrets are kept -/

variable {cfg : PredictConfig} {py : Python floats}

theorem mem_held {s : Text} :
    s ∈ cfg.held ↔ some s ∈ cfg.secrets ∨ some s ∈ cfg.mandatedKeys := by
  rw [PredictConfig.held, List.filterMap_append, List.mem_append, List.mem_filterMap,
    List.mem_filterMap]
  simp

/-- Redacted messages hold no secret that is listed and detached, or masked. -/
theorem not_infix_of_redacted (h : cfg.Separate)
    (hdetached : ∀ s, some s ∈ cfg.secrets → Detached s)
    (hmasked : ∀ s, some s ∈ cfg.mandatedKeys → Masked s) {m : Text} (hm : Redacted cfg m) :
    ∀ s ∈ cfg.held, ¬ s <:+: m := by
  obtain ⟨text, rfl⟩ := hm
  intro s hs
  rcases mem_held.mp hs with hlisted | hmandated
  · have hne : s ≠ [] := by
      rintro rfl
      exact absurd (h.long [] hs) (by decide)
    exact not_infix_redactText (hdetached s hlisted) hne hlisted
  · exact not_infix_of_masked (hmasked s hmandated) text _

theorem Python.Quiet.not_infix {m : Text} (h : py.Quiet cfg) (hm : py.Says m) :
    ∀ s ∈ cfg.held, ¬ s <:+: m := by
  intro s hs
  cases hm with
  | unicode b => exact h.unicode s hs b
  | limit limit t => exact h.limits s hs limit t

theorem kept_of_masked (h : cfg.Separate) (hpy : py.Quiet cfg)
    (hdetached : ∀ s, some s ∈ cfg.secrets → Detached s)
    (hmasked : ∀ s, some s ∈ cfg.mandatedKeys → Masked s) {op : Operation}
    (hop : op = .start ∨ op.Redacts cfg) : Kept cfg py op := by
  intro m hm s hs
  have hredacted := fun hm => not_infix_of_redacted h hdetached hmasked (m := m) hm s hs
  have hfixed : m ∈ fixedTexts → ¬ s <:+: m := h.fixed s hs m
  cases op with
  | start =>
      obtain ⟨argv, spawned, hraise⟩ := hm
      rcases redacted_of_start cfg py hraise with rfl | hm
      · exact hfixed mem_fixedTexts.1
      · exact hredacted hm
  | request method =>
      obtain ⟨around, client, params, hraise⟩ := hm
      rcases redacted_of_request cfg py hraise with rfl | hsays | hm
      · exact hfixed mem_fixedTexts.2.1
      · exact hpy.not_infix hsays s hs
      · exact hredacted hm
  | callTool name =>
      obtain ⟨around, client, arguments, hraise⟩ := hm
      rcases redacted_of_callTool cfg py hraise with rfl | hsays | hm
      · exact hfixed mem_fixedTexts.2.1
      · exact hpy.not_infix hsays s hs
      · exact hredacted hm
  | requestJson method path =>
      obtain ⟨hasProvider, authenticated, replies, hraise⟩ := hm
      -- without an attempt the error names the path as it is, unredacted
      have hattempts : 0 < cfg.retryAttempts := hop.resolve_left (fun h => nomatch h)
      rcases redacted_of_requestJson cfg py hattempts hraise with rfl | ⟨text, rfl⟩ | hm
      · exact hfixed mem_fixedTexts.2.2
      · exact hpy.json s hs text
      · exact hredacted hm
  | listTools => exact (hop.resolve_left (fun h => nomatch h)).elim
  | bridgeCall tool model => exact (hop.resolve_left (fun h => nomatch h)).elim
  | getRecord method path model => exact (hop.resolve_left (fun h => nomatch h)).elim

/-- A key of the mandate that is not masked can be told through any operation that redacts. -/
theorem masked_of_kept (h : cfg.Separate) {op : Operation} (hop : op.Redacts cfg)
    (hkept : Kept cfg py op) : ∀ s, some s ∈ cfg.mandatedKeys → Masked s := by
  intro s hs
  by_contra hmasked
  have hin : ∀ r, some r ∈ cfg.secrets → r ≠ [] → ¬ r <:+: s := by
    intro r hr _
    have hpair := h.apart
    rw [PredictConfig.held, List.filterMap_append, List.pairwise_append] at hpair
    exact (hpair.2.2 r (List.mem_filterMap.mpr ⟨_, hr, rfl⟩) s
      (List.mem_filterMap.mpr ⟨_, hs, rfl⟩)).1
  have hlength : cfg.secrets.length ≤ 4 := Nat.le_refl 4
  obtain ⟨told, htold⟩ := exists_redactText hlength hin hmasked
  obtain ⟨before, hraises⟩ := raises_redacted cfg py hop
  exact hkept _ (hraises told) s (mem_held.mpr (.inr hs)) (htold before)

theorem kept_bridgeCall_iff (tool model : Text) :
    Kept cfg py (.bridgeCall tool model) ↔ cfg.held = [] := by
  refine ⟨fun hkept => ?_, fun hnone m _ s hs => ?_⟩
  · refine List.eq_nil_iff_forall_not_mem.mpr fun s hs => ?_
    have around : Surroundings := ⟨⟨[], none⟩, [], [], []⟩
    have hraise := bridgeCall_toolError cfg py around tool model s
    exact hkept _ ⟨around, _, _, _, _, _, hraise⟩ s hs (List.suffix_append _ s).isInfix
  · rw [hnone] at hs
    exact nomatch hs

/-- **When the secrets of a configuration stay out of all messages.**

    * Altogether, and for the tools called through the bridge, only if there are none.
    * For the requests of the two clients, where no piece of a listed secret is a piece of what
      redaction puts in, exactly if the keys of the mandate are masked: in each there is a
      bearer token, or 64 hexadecimal digits behind `0x`.
    * This is enough for the start of the server, too. -/
theorem secrets_kept_iff (cfg : PredictConfig) (py : Python floats) (h : cfg.Separate) :
    ((∀ op, Kept cfg py op) ↔ cfg.held = [])
    ∧ (∀ tool model, Kept cfg py (.bridgeCall tool model) ↔ cfg.held = [])
    ∧ (py.Quiet cfg → (∀ s, some s ∈ cfg.secrets → Detached s) →
      (∀ op : Operation, op.Redacts cfg →
        (Kept cfg py op ↔ ∀ s, some s ∈ cfg.mandatedKeys → Masked s))
      ∧ ((∀ s, some s ∈ cfg.mandatedKeys → Masked s) → Kept cfg py .start)) := by
  refine ⟨⟨fun hkept => ?_, fun hnone op m _ s hs => ?_⟩, kept_bridgeCall_iff, ?_⟩
  · exact (kept_bridgeCall_iff [] []).mp (hkept _)
  · rw [hnone] at hs
    exact nomatch hs
  · intro hpy hdetached
    refine ⟨fun op hop => ⟨masked_of_kept h hop, fun hmasked => ?_⟩, fun hmasked => ?_⟩
    · exact kept_of_masked h hpy hdetached hmasked (.inr hop)
    · exact kept_of_masked h hpy hdetached hmasked (.inl rfl)

/-! ## Two configurations -/

/-- The characters of a string. -/
def charsOf (s : Str) : Text :=
  s.points.filterMap fun
    | .char c => some c
    | .half _ _ => none

theorem charsOf_text (t : Text) : charsOf t = t := by
  rw [charsOf, Str.ofText, List.filterMap_map]
  exact List.filterMap_some

namespace Small

def apiKey : Text := ['p', 'k', '-', 'l', 'i', 'v', 'e', '-', '7', 'Q', 'd', '2', 'X', 'a']
def executorKey : Text := List.replicate 64 '7'

/-- An API key, and the key of an executor as it is given. -/
def config (executorKey : Text) : PredictConfig where
  apiKey := some apiKey
  privateKey := none
  privyPrivateKey := none
  mandatedAuthorityPrivateKey := none
  mandatedExecutorPrivateKey := some executorKey
  openrouterApiKey := none
  retryAttempts := 3

def python : Python nanFloats where
  repr _ := []
  shown := charsOf
  shown_text := charsOf_text
  unicodeError _ := "'utf-8' codec can't decode byte 0xff in position 0: invalid start byte".toList
  jsonError _ := "Expecting value: line 1 column 1 (char 0)".toList
  limitError _ _ := "maximum recursion depth exceeded".toList
  validationError _ _ := none
  invalidToolError _ := "1 validation error for McpToolError".toList

def around : Surroundings := ⟨⟨[], none⟩, [], [], []⟩

theorem seven_notMem_fixedTexts : ∀ t ∈ fixedTexts, '7' ∉ t := by decide +kernel

theorem not_infix_fixedTexts {s : Text} (hs : '7' ∈ s) : ∀ t ∈ fixedTexts, ¬ s <:+: t :=
  fun t ht h => seven_notMem_fixedTexts t ht (h.subset hs)

theorem separate_bare : (config executorKey).Separate where
  long := by decide
  apart := by decide
  fixed := by
    have hseven : ∀ s ∈ (config executorKey).held, '7' ∈ s := by decide
    exact fun s hs => not_infix_fixedTexts (hseven s hs)

theorem separate_masked : (config (hexStart ++ executorKey)).Separate where
  long := by decide
  apart := by decide
  fixed := by
    have hseven : ∀ s ∈ (config (hexStart ++ executorKey)).held, '7' ∈ s := by decide
    exact fun s hs => not_infix_fixedTexts (hseven s hs)

theorem quiet {cfg : PredictConfig} (h : ∀ s ∈ cfg.held,
    ¬ s <:+: python.unicodeError [] ∧ ¬ s <:+: python.jsonError []
      ∧ ¬ s <:+: python.limitError .depth []) : python.Quiet cfg where
  unicode s hs _ := (h s hs).1
  json s hs _ := (h s hs).2.1
  limits s hs _ _ := (h s hs).2.2

end Small

open Secrets.Small

/-- With `0x` before it the executor's key is kept by a request, but not by the bridge. -/
theorem secrets_kept_masked : Kept (config (hexStart ++ executorKey)) python (.request [])
    ∧ ¬ Kept (config (hexStart ++ executorKey)) python (.bridgeCall [] []) := by
  obtain ⟨_, hbridge, hclients⟩ := secrets_kept_iff _ python separate_masked
  have hdetached : ∀ s, some s ∈ (config (hexStart ++ executorKey)).secrets → Detached s := by
    intro s hs
    obtain rfl : s = apiKey := by simpa [PredictConfig.secrets, config] using hs
    exact detached_of_no_bracket (by decide) (by decide) (by decide) (by decide) (by decide)
      (by decide)
  have hmasked : ∀ s, some s ∈ (config (hexStart ++ executorKey)).mandatedKeys → Masked s := by
    intro s hs
    obtain rfl : s = hexStart ++ executorKey := by
      simpa [PredictConfig.mandatedKeys, config] using hs
    exact .inr ⟨_, List.suffix_refl _, by decide⟩
  obtain ⟨hredacts, _⟩ := hclients (quiet (by decide +kernel)) hdetached
  refine ⟨(hredacts (.request []) trivial).mpr hmasked, fun hkept => ?_⟩
  exact absurd ((hbridge [] []).mp hkept) (by decide)

/-- The MCP server says the API key where a tool fails, and the exchange the executor's key
    where a request does. -/
theorem secrets_told : (config executorKey).Separate ∧ python.Quiet (config executorKey)
    ∧ (∃ m, Raises (config executorKey) python m (.bridgeCall "vault_health_check".toList [])
      ∧ apiKey <:+: m)
    ∧ ∃ m, Raises (config executorKey) python m (.requestJson "GET".toList "/v1/orders".toList)
      ∧ executorKey <:+: m := by
  refine ⟨separate_bare, quiet (by decide +kernel), ?_, ?_⟩
  · refine ⟨_, ⟨around, _, _, noParams, _, _,
      bridgeCall_toolError _ python around _ [] apiKey⟩, ?_⟩
    exact (List.suffix_append ..).isInfix
  · have htext : formatResponseError (config executorKey) "GET".toList "/v1/orders".toList 400
        executorKey = "predict.fun API request failed for GET /v1/orders with status 400: ".toList
          ++ executorKey := by decide +kernel
    refine ⟨_, ⟨true, true, fun _ => .response 400 executorKey none, rfl⟩, ?_⟩
    rw [htext]
    exact (List.suffix_append ..).isInfix

end Secrets
