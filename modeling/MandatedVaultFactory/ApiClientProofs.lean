import MandatedVaultFactory.AmountTextProofs
import MandatedVaultFactory.JsonProofs
import MandatedVaultFactory.OrderbookProofs

/-!
# The client of the exchange

How a request is sent, and sent again, to the REST API of the exchange, how it is
authenticated, and how the answer is read as an order.  What the exchange does with each
attempt is not in the client's hands: an attempt can be lost, or its answer.

* **`requestLoop`** — the attempts of a request; `requestLoop_fst`, it ends by the reply to
  the last attempt that is made.
* **`acceptedIn`** — whether one of the attempts that are made is accepted;
  `requestLoop_order`.
* **`acceptedIn_of_read`** — an order that is answered without an error was accepted. -/

namespace Predict

open Texts Json

/-! ## Replies -/

def hashKey : Text := ['h', 'a', 's', 'h']
def orderHashKey : Text := ['o', 'r', 'd', 'e', 'r', 'H', 'a', 's', 'h']
def statusKey : Text := ['s', 't', 'a', 't', 'u', 's']
def orderStatusKey : Text := ['o', 'r', 'd', 'e', 'r', 'S', 't', 'a', 't', 'u', 's']
def marketIdKey : Text := ['m', 'a', 'r', 'k', 'e', 't', 'I', 'd']
def marketIdSnakeKey : Text := ['m', 'a', 'r', 'k', 'e', 't', '_', 'i', 'd']
def orderKey : Text := ['o', 'r', 'd', 'e', 'r']
def dataKey : Text := ['d', 'a', 't', 'a']
def marketKey : Text := ['m', 'a', 'r', 'k', 'e', 't']
def bookKey : Text := ['b', 'o', 'o', 'k']

/-- What an attempt brings back: nothing, or a status and a body, `none` where it is no JSON. -/
inductive Reply (floats : Floats) where
  | transportError
  | response (status : Nat) (body : Option (Value floats.Float))

/-- An attempt: what comes back of it, and whether the exchange has accepted the order in it. -/
structure Attempt (floats : Floats) where
  reply : Reply floats
  accepts : Bool

/-- Why a buy, or a request of it, raises. -/
inductive Failure where
  | transportError
  | responseError (status : Nat)
  | retriesExhausted
  | undecodable
  | invalidRecord
  | invalidAuth
  | notAuthenticated
  | unsupportedWalletMode
  | noBuilder
  | amount (failure : Amounts.Failure)
  | amountNotPositive
  | noUsdtBalance
  | fundingOrchestration
  | fundingRequired
  | outcomeNotAvailable
  | outcomeWithoutToken
  | sdk
  | digitsExceeded
  | priceTooLarge
  | amountNotFloat
  | unknownMarket

/-- What the client knows and what the exchange has done: the token of the session, and the hash
    under which the exchange has accepted an order. -/
structure Net where
  jwt : Option Text
  accepted : Option Text

theorem bind_ok_iff {ε α β : Type} {x : Except ε α} {f : α → Except ε β} {b : β} :
    (x >>= f) = .ok b ↔ ∃ a, x = .ok a ∧ f a = .ok b := by
  cases x with
  | error e =>
      constructor
      · intro h
        cases h
      · rintro ⟨_, ha, _⟩
        cases ha
  | ok a => exact ⟨fun h => ⟨a, rfl, h⟩, fun ⟨_, ha, h⟩ => Except.ok.inj ha ▸ h⟩

/-- What reads and changes it and can raise; what was done before stays done. -/
def Api (α : Type) : Type := Net → Except Failure α × Net

namespace Api

def raise {α : Type} (failure : Failure) : Api α := fun net => (.error failure, net)

def ofExcept {α : Type} (result : Except Failure α) : Api α := fun net => (result, net)

def bind {α β : Type} (m : Api α) (f : α → Api β) : Api β := fun net =>
  match m net with
  | (.ok a, net') => f a net'
  | (.error failure, net') => (.error failure, net')

instance : Monad Api where
  pure a := fun net => (.ok a, net)
  bind := bind

variable {α β : Type}

theorem bind_ok {m : Api α} {f : α → Api β} {net net' : Net} {a : α} (h : m net = (.ok a, net')) :
    (m >>= f) net = f a net' := by
  show bind m f net = f a net'
  rw [bind, h]

theorem bind_error {m : Api α} {f : α → Api β} {net net' : Net} {failure : Failure}
    (h : m net = (.error failure, net')) : (m >>= f) net = (.error failure, net') := by
  show bind m f net = _
  rw [bind, h]

/-- What returns has returned at every step. -/
theorem of_bind_ok {m : Api α} {f : α → Api β} {net net' : Net} {b : β}
    (h : (m >>= f) net = (.ok b, net')) :
    ∃ a net₁, m net = (.ok a, net₁) ∧ f a net₁ = (.ok b, net') := by
  cases hm : m net with
  | mk result net₁ =>
      cases result with
      | error failure =>
          rw [bind_error hm] at h
          cases h
      | ok a =>
          rw [bind_ok hm] at h
          exact ⟨a, net₁, rfl, h⟩

/-- No order is accepted by it. -/
def Keeps (m : Api α) : Prop := ∀ net, (m net).2.accepted = net.accepted

theorem Keeps.bind {m : Api α} {f : α → Api β} (hm : m.Keeps) (hf : ∀ a, (f a).Keeps) :
    (m >>= f).Keeps := by
  intro net
  have hkept := hm net
  cases h : m net with
  | mk result net' =>
      rw [h] at hkept
      cases result with
      | error failure =>
          rw [bind_error h]
          exact hkept
      | ok a =>
          rw [bind_ok h, hf a net']
          exact hkept

theorem keeps_pure (a : α) : (pure a : Api α).Keeps := fun _ => rfl

theorem keeps_ofExcept (result : Except Failure α) : (ofExcept result).Keeps := fun _ => rfl

end Api

/-! ## The exchange -/

/-- A signed order: what it trades, and the hashes that the SDK gives for it. -/
structure SignedOrder where
  tokenId : Text
  makerAmount : Nat
  takerAmount : Nat
  feeRateBps : Int
  hash : Option Text
  typedDataHash : Option Text

/-- The requests of a buy. -/
inductive ApiCall where
  | authMessage
  | auth
  | market (marketId : Text)
  | orderbook (marketId : Text)
  | createOrder (order : SignedOrder)
  | getOrder (hash : Text) (poll : Nat)

/-- The exchange: what each attempt of each request meets, and the hash it knows an order by. -/
structure Exchange (floats : Floats) where
  attempts : ApiCall → Nat → Attempt floats
  hashOf : SignedOrder → Text

variable {floats : Floats}

/-- What an attempt does to the exchange. -/
def Exchange.take (x : Exchange floats) (call : ApiCall) (attempt : Nat) (net : Net) : Net :=
  match call with
  | .createOrder order =>
      if (x.attempts call attempt).accepts then { net with accepted := some (x.hashOf order) }
      else net
  | _ => net

/-- `payload if isinstance(payload, dict) else {"data": payload}`. -/
def asMembers : Value floats.Float → List (Text × Value floats.Float)
  | .obj members => members
  | v => [(dataKey, v)]

/-- `response.is_error`. -/
def isError (status : Nat) : Bool := 400 ≤ status && status ≤ 599

/-- What the loop makes of a reply it does not retry. -/
def readReply : Reply floats → Except Failure (List (Text × Value floats.Float))
  | .transportError => .error .transportError
  | .response status body =>
      if isError status then .error (.responseError status)
      else match body with
        | none => .error .undecodable
        | some v => .ok (asMembers v)

/-- `response.status_code == 429 or 500 <= response.status_code < 600`, and errors of the
    transport. -/
def retried : Reply floats → Bool
  | .transportError => true
  | .response status _ => status = 429 || (500 ≤ status && status < 600)

/-- The loop of `_request_json`, with so many attempts left: an attempt that may be retried is,
    unless it is the last. -/
def requestLoop (x : Exchange floats) (call : ApiCall) :
    Nat → Nat → Api (List (Text × Value floats.Float))
  | 0, _ => Api.raise .retriesExhausted
  | left + 1, attempt => fun net =>
      let reply := (x.attempts call attempt).reply
      let net' := x.take call attempt net
      if retried reply && left != 0 then requestLoop x call left (attempt + 1) net'
      else (readReply reply, net')

/-- The reply to the last attempt that is made. -/
def finalReply (stream : Nat → Attempt floats) : Nat → Nat → Option (Reply floats)
  | 0, _ => none
  | left + 1, attempt =>
      if retried (stream attempt).reply && left != 0 then finalReply stream left (attempt + 1)
      else some (stream attempt).reply

/-- One of the attempts that are made is accepted. -/
def acceptedIn (stream : Nat → Attempt floats) : Nat → Nat → Bool
  | 0, _ => false
  | left + 1, attempt =>
      (stream attempt).accepts ||
        (retried (stream attempt).reply && left != 0 && acceptedIn stream left (attempt + 1))

/-- The last reply of a request, as the client reads it. -/
def readFinal (stream : Nat → Attempt floats) (left attempt : Nat) :
    Except Failure (List (Text × Value floats.Float)) :=
  match finalReply stream left attempt with
  | none => .error .retriesExhausted
  | some reply => readReply reply

/-- **A request ends by the reply to the last attempt that is made.**  Induction on the attempts
    left. -/
theorem requestLoop_fst (x : Exchange floats) (call : ApiCall) (left : Nat) :
    ∀ (attempt : Nat) (net : Net),
    (requestLoop x call left attempt net).1 = readFinal (x.attempts call) left attempt := by
  induction left with
  | zero =>
      intro attempt net
      rfl
  | succ left ih =>
      intro attempt net
      simp only [requestLoop, readFinal, finalReply]
      by_cases hretry : (retried (x.attempts call attempt).reply && left != 0) = true
      · rw [if_pos hretry, if_pos hretry, ih]
        rfl
      · rw [if_neg hretry, if_neg hretry]

/-- The request carries no order. -/
def ApiCall.Plain (call : ApiCall) : Prop := ∀ order, call ≠ .createOrder order

theorem plain_authMessage : ApiCall.authMessage.Plain := fun _ h => by cases h

theorem plain_auth : ApiCall.auth.Plain := fun _ h => by cases h

theorem plain_market (marketId : Text) : (ApiCall.market marketId).Plain := fun _ h => by cases h

theorem plain_orderbook (marketId : Text) : (ApiCall.orderbook marketId).Plain :=
  fun _ h => by cases h

theorem plain_getOrder (hash : Text) (poll : Nat) : (ApiCall.getOrder hash poll).Plain :=
  fun _ h => by cases h

theorem take_plain (x : Exchange floats) {call : ApiCall} (h : call.Plain) (attempt : Nat)
    (net : Net) : x.take call attempt net = net := by
  cases call with
  | createOrder order => exact absurd rfl (h order)
  | authMessage => rfl
  | auth => rfl
  | market marketId => rfl
  | orderbook marketId => rfl
  | getOrder hash poll => rfl

/-- Without an order nothing is accepted. -/
theorem requestLoop_plain (x : Exchange floats) {call : ApiCall} (h : call.Plain) (left : Nat) :
    ∀ (attempt : Nat) (net : Net), (requestLoop x call left attempt net).2 = net := by
  induction left with
  | zero =>
      intro attempt net
      rfl
  | succ left ih =>
      intro attempt net
      simp only [requestLoop, take_plain x h]
      by_cases hretry : (retried (x.attempts call attempt).reply && left != 0) = true
      · rw [if_pos hretry, ih]
      · rw [if_neg hretry]

/-- **An order is accepted if one of the attempts to send it is.**  Induction on those left. -/
theorem requestLoop_order (x : Exchange floats) (order : SignedOrder) (left : Nat) :
    ∀ (attempt : Nat) (net : Net), (requestLoop x (.createOrder order) left attempt net).2 =
      if acceptedIn (x.attempts (.createOrder order)) left attempt then
        { net with accepted := some (x.hashOf order) }
      else net := by
  induction left with
  | zero =>
      intro attempt net
      rfl
  | succ left ih =>
      intro attempt net
      simp only [requestLoop, acceptedIn]
      by_cases hretry :
          (retried (x.attempts (.createOrder order) attempt).reply && left != 0) = true
      · rw [if_pos hretry, ih]
        simp only [Exchange.take, hretry, Bool.true_and]
        cases (x.attempts (.createOrder order) attempt).accepts with
        | false => simp
        | true => simp
      · rw [if_neg hretry]
        rw [Bool.not_eq_true] at hretry
        simp only [Exchange.take, hretry, Bool.false_and, Bool.or_false]

/-- The reply is no error. -/
def Succeeds (reply : Reply floats) : Prop :=
  ∃ status body, reply = .response status body ∧ isError status = false

theorem succeeds_of_read {reply : Reply floats} {members : List (Text × Value floats.Float)}
    (h : readReply reply = .ok members) : Succeeds reply := by
  cases reply with
  | transportError => cases h
  | response status body =>
      refine ⟨status, body, rfl, ?_⟩
      rw [← Bool.not_eq_true]
      intro herror
      simp only [readReply, if_pos herror] at h
      cases h

/-- An attempt that is answered without an error is one by which the order has been accepted. -/
def Processes (stream : Nat → Attempt floats) : Prop :=
  ∀ n, Succeeds (stream n).reply → ∃ m ≤ n, (stream m).accepts = true

/-- **What can be read was accepted.**  Induction on the attempts left; those before `attempt`
    have not been accepted. -/
theorem acceptedIn_of_read {stream : Nat → Attempt floats} (hstream : Processes stream)
    {members : List (Text × Value floats.Float)} (left : Nat) : ∀ attempt,
    (∀ m < attempt, (stream m).accepts = false) → readFinal stream left attempt = .ok members →
    acceptedIn stream left attempt = true := by
  induction left with
  | zero =>
      intro attempt _ h
      cases h
  | succ left ih =>
      intro attempt hbefore h
      rw [acceptedIn, Bool.or_eq_true]
      by_cases haccepts : (stream attempt).accepts = true
      · exact Or.inl haccepts
      rw [Bool.not_eq_true] at haccepts
      rw [readFinal, finalReply] at h
      by_cases hretry : (retried (stream attempt).reply && left != 0) = true
      · rw [if_pos hretry] at h
        rw [hretry, Bool.true_and]
        -- not accepted, and tried again
        refine Or.inr (ih (attempt + 1) (fun m hm => ?_) h)
        rcases Nat.lt_succ_iff_lt_or_eq.mp hm with hlt | rfl
        · exact hbefore m hlt
        · exact haccepts
      · rw [if_neg hretry] at h
        -- a reply of success means that one of the attempts so far was accepted
        obtain ⟨m, hm, htrue⟩ := hstream attempt (succeeds_of_read h)
        have hfalse : (stream m).accepts = false := by
          rcases Nat.lt_or_eq_of_le hm with hlt | rfl
          · exact hbefore m hlt
          · exact haccepts
        rw [hfalse] at htrue
        cases htrue

/-! ## Orders -/

/-- `OrderRecord`, with everything that came with it. -/
structure OrderRecord (floats : Floats) where
  hash : Option Text
  status : Option Text
  members : List (Text × Value floats.Float)

/-- `extract_object`: the first candidate that is an object, and else the payload. -/
def extractObject (payload : List (Text × Value floats.Float)) :
    List Text → List (Text × Value floats.Float)
  | [] => payload
  | key :: keys =>
      match get key payload with
      | some (.obj members) => members
      | _ => extractObject payload keys

/-- A member under another name, unless it is there or is no string. -/
def aliasText (key other : Text) (members : List (Text × Value floats.Float)) :
    List (Text × Value floats.Float) :=
  match get key members, get other members with
  | none, some (.str s) => insert key (.str s) members
  | _, _ => members

/-- A member under another name, unless it is there or the other is missing. -/
def aliasValue (key other : Text) (members : List (Text × Value floats.Float)) :
    List (Text × Value floats.Float) :=
  match get key members, get other members with
  | none, some .null => members
  | none, some v => insert key v members
  | _, _ => members

/-- `str | None`, as a model of pydantic reads it. -/
def optionalText : Option (Value floats.Float) → Option (Option Text)
  | none => some none
  | some .null => some none
  | some (.str s) => some (some s)
  | some _ => none

/-- `_normalize_order_record`.  `fits` is pydantic's check of `marketId: str | int | None`. -/
def normalizeOrderRecord (fits : Value floats.Float → Bool)
    (payload : List (Text × Value floats.Float)) : Except Failure (OrderRecord floats) :=
  let members := aliasValue marketIdKey marketIdSnakeKey
    (aliasText statusKey orderStatusKey (aliasText hashKey orderHashKey payload))
  match optionalText (get hashKey members), optionalText (get statusKey members) with
  | some hash, some status =>
      if (get marketIdKey members).all fits then .ok { hash, status, members }
      else .error .invalidRecord
  | _, _ => .error .invalidRecord

/-- `_parse_order_record`. -/
def parseOrderRecord (fits : Value floats.Float → Bool)
    (payload : List (Text × Value floats.Float)) : Except Failure (OrderRecord floats) :=
  normalizeOrderRecord fits (extractObject payload [orderKey, dataKey])

/-! ## The requests -/

/-- `bool(value)`; of the strings only the empty one is false. -/
def truthy {S : Type} [DecidableEq S] (floats : Floats) (empty : S) : Value floats.Float S → Bool
  | .null => false
  | .bool b => b
  | .int n => n ≠ 0
  | .float x => !floats.eqInt x 0
  | .str s => s ≠ empty
  | .arr items => !items.isEmpty
  | .obj members => !members.isEmpty

/-- A string that is not blank. -/
def nonBlank : Option (Value floats.Float) → Except Failure Text
  | some (.str s) => if strip s = [] then .error .invalidAuth else .ok s
  | _ => .error .invalidAuth

def messageKeyText : Text := ['m', 'e', 's', 's', 'a', 'g', 'e']
def tokenKeys : List Text :=
  [['t', 'o', 'k', 'e', 'n'], ['j', 'w', 't'],
    ['a', 'c', 'c', 'e', 's', 's', 'T', 'o', 'k', 'e', 'n']]

/-- The first of the members that is true, and else the last. -/
def firstTrue (floats : Floats) : List (Option (Value floats.Float)) →
    Option (Value floats.Float)
  | [] => none
  | [last] => last
  | v :: rest => if v.any (truthy floats []) then v else firstTrue floats rest

/-- `AuthMessageResponse.from_api`. -/
def authMessageFromApi (payload : List (Text × Value floats.Float)) : Except Failure Text :=
  if (get messageKeyText payload).any (truthy floats []) then nonBlank (get messageKeyText payload)
  else match get dataKey payload with
    | none => .error .invalidAuth
    | some (.obj data) => nonBlank (get messageKeyText data)
    | some _ => .error .invalidAuth

/-- `JwtResponse.from_api`. -/
def jwtFromApi (payload : List (Text × Value floats.Float)) : Except Failure Text :=
  let data := match get dataKey payload with
    | some (.obj data) => data
    | _ => []
  nonBlank (firstTrue floats
    (tokenKeys.map (fun key => get key payload) ++ tokenKeys.map (fun key => get key data)))

/-- The configuration of the client. -/
structure ClientConfig (floats : Floats) where
  retryAttempts : Nat
  /-- The signer is configured. -/
  canAuthenticate : Bool
  /-- The message is signed. -/
  signs : Text → Bool
  /-- Pydantic's check of `marketId: str | int | None`. -/
  marketIdFits : Value floats.Float → Bool

/-- `self._jwt_cache[cache_key] = token`. -/
def Api.keep (token : Text) : Api Text := fun net => (.ok token, { net with jwt := some token })

variable (x : Exchange floats) (cfg : ClientConfig floats)

/-- `_request_json`, without its headers. -/
def requestJson (call : ApiCall) : Api (List (Text × Value floats.Float)) :=
  requestLoop x call cfg.retryAttempts 0

/-- `build_auth_request`. -/
def buildAuthRequest (message : Text) : Except Failure Unit :=
  if cfg.signs message then .ok () else .error .notAuthenticated

/-- `PredictAuthenticator.get_jwt`. -/
def getJwt : Api Text := fun net =>
  if cfg.canAuthenticate then
    match net.jwt with
    | some token => (.ok token, net)
    | none =>
        (do
          let message ← Api.ofExcept (authMessageFromApi (← requestJson x cfg .authMessage))
          let _ ← Api.ofExcept (buildAuthRequest cfg message)
          let token ← Api.ofExcept (jwtFromApi (← requestJson x cfg .auth))
          Api.keep token) net
  else (.error .notAuthenticated, net)

/-- `create_order`. -/
def createOrder (order : SignedOrder) : Api (OrderRecord floats) := do
  let _ ← getJwt x cfg
  let payload ← requestJson x cfg (.createOrder order)
  Api.ofExcept (parseOrderRecord cfg.marketIdFits payload)

/-- `get_order`. -/
def getOrder (hash : Text) (poll : Nat) : Api (OrderRecord floats) := do
  let _ ← getJwt x cfg
  let payload ← requestJson x cfg (.getOrder hash poll)
  Api.ofExcept (parseOrderRecord cfg.marketIdFits payload)

/-! ## What they come to -/

variable {x cfg}

/-- The exchange after an order has been sent. -/
def afterOrder (x : Exchange floats) (cfg : ClientConfig floats) (order : SignedOrder)
    (net : Net) : Net :=
  if acceptedIn (x.attempts (.createOrder order)) cfg.retryAttempts 0 then
    { net with accepted := some (x.hashOf order) }
  else net

theorem requestJson_order (order : SignedOrder) (net : Net) :
    requestJson x cfg (.createOrder order) net
      = (readFinal (x.attempts (.createOrder order)) cfg.retryAttempts 0,
          afterOrder x cfg order net) :=
  Prod.ext (requestLoop_fst x _ _ 0 net) (requestLoop_order x order _ 0 net)

theorem requestJson_plain {call : ApiCall} (h : call.Plain) (net : Net) :
    requestJson x cfg call net
      = (readFinal (x.attempts call) cfg.retryAttempts 0, net) :=
  Prod.ext (requestLoop_fst x _ _ 0 net) (requestLoop_plain x h _ 0 net)

theorem keeps_requestJson {call : ApiCall} (h : call.Plain) : (requestJson x cfg call).Keeps :=
  fun net => by rw [requestJson_plain h]

/-- A token that is there is used again. -/
theorem getJwt_cached (hcan : cfg.canAuthenticate = true) {net : Net} {token : Text}
    (h : net.jwt = some token) : getJwt x cfg net = (.ok token, net) := by
  rw [getJwt, if_pos hcan, h]

theorem keeps_getJwt : (getJwt x cfg).Keeps := by
  intro net
  rw [getJwt]
  by_cases hcan : cfg.canAuthenticate = true
  · rw [if_pos hcan]
    cases hjwt : net.jwt with
    | some token => rfl
    | none =>
        refine Api.Keeps.bind (keeps_requestJson plain_authMessage) (fun payload => ?_) net
        refine Api.Keeps.bind (Api.keeps_ofExcept _) (fun message => ?_)
        refine Api.Keeps.bind (Api.keeps_ofExcept _) (fun _ => ?_)
        refine Api.Keeps.bind (keeps_requestJson plain_auth) (fun payload => ?_)
        exact Api.Keeps.bind (Api.keeps_ofExcept _) (fun token net => rfl)
  · rw [if_neg hcan]

/-- A token that is returned is kept. -/
theorem getJwt_ok {net net' : Net} {token : Text} (h : getJwt x cfg net = (.ok token, net')) :
    cfg.canAuthenticate = true ∧ net'.jwt = some token := by
  rw [getJwt] at h
  by_cases hcan : cfg.canAuthenticate = true
  · rw [if_pos hcan] at h
    refine ⟨hcan, ?_⟩
    cases hjwt : net.jwt with
    | some kept =>
        rw [hjwt, Prod.mk.injEq, Except.ok.injEq] at h
        rw [← h.2, hjwt, h.1]
    | none =>
        rw [hjwt] at h
        obtain ⟨payload, net₁, _, h⟩ := Api.of_bind_ok h
        obtain ⟨message, net₂, _, h⟩ := Api.of_bind_ok h
        obtain ⟨_, net₃, _, h⟩ := Api.of_bind_ok h
        obtain ⟨payload', net₄, _, h⟩ := Api.of_bind_ok h
        obtain ⟨token', net₅, _, h⟩ := Api.of_bind_ok h
        rw [Api.keep, Prod.mk.injEq, Except.ok.injEq] at h
        rw [← h.2, h.1]
  · rw [if_neg hcan] at h
    cases h

/-- The order in the last reply of a request. -/
def orderAnswer (x : Exchange floats) (cfg : ClientConfig floats) (call : ApiCall) :
    Except Failure (OrderRecord floats) :=
  (readFinal (x.attempts call) cfg.retryAttempts 0).bind (parseOrderRecord cfg.marketIdFits)

theorem bind_ofExcept {α β : Type} {m : Api α} {result : Except Failure α} {net net' : Net}
    (h : m net = (result, net')) (f : α → Except Failure β) :
    (m >>= fun a => Api.ofExcept (f a)) net = (result.bind f, net') := by
  cases result with
  | error failure => exact Api.bind_error h
  | ok a => exact Api.bind_ok h

/-- A poll with a token asks, and changes nothing. -/
theorem getOrder_eq (hcan : cfg.canAuthenticate = true) {net : Net} {token : Text}
    (h : net.jwt = some token) (hash : Text) (poll : Nat) :
    getOrder x cfg hash poll net = (orderAnswer x cfg (.getOrder hash poll), net) := by
  rw [getOrder, Api.bind_ok (getJwt_cached hcan h)]
  exact bind_ofExcept (requestJson_plain (plain_getOrder hash poll) net) _

theorem createOrder_error {order : SignedOrder} {net net' : Net} {failure : Failure}
    (h : getJwt x cfg net = (.error failure, net')) :
    createOrder x cfg order net = (.error failure, net') := by
  rw [createOrder, Api.bind_error h]

/-- **An order is created** with a token: its last reply says what became of it, and it is
    accepted if one of its attempts is. -/
theorem createOrder_ok {order : SignedOrder} {net net' : Net} {token : Text}
    (h : getJwt x cfg net = (.ok token, net')) :
    createOrder x cfg order net
      = (orderAnswer x cfg (.createOrder order), afterOrder x cfg order net') := by
  rw [createOrder, Api.bind_ok h]
  exact bind_ofExcept (requestJson_order order net') _

end Predict
