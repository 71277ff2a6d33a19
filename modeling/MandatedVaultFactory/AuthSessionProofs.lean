import MandatedVaultFactory.ApiClientProofs
import MandatedVaultFactory.EffectProofs
import MandatedVaultFactory.VaultResolutionProofs

/-!
# Sessions with the exchange

A client of the exchange and its authenticator: a request that needs a token has one fetched by a
handshake, in which a message of the exchange is signed; the token is kept for the requests after
it.

* **`handle`** — the code: `PredictApiClient` with the `PredictAuthenticator` that provides its
  tokens.
* **`Step`** — the protocol: what may be sent and signed after what; `handle_safe`.
* **`bearer_was_issued`** — a token is sent only as long as it is the last one issued.
* **`signs_what_was_asked`** — what is signed, when, and where the signature goes. -/

namespace AuthSession

open Effect Texts Json
open Predict (Failure Reply authMessageFromApi jwtFromApi readReply retried WalletMode)
open VaultResolution (ConfigFields truthy)

variable {floats : Floats}

/-- The members of an object. -/
abbrev Payload (floats : Floats) : Type := List (Text × Value floats.Float)

/-! ## What is asked of the world -/

/-- The arguments of `self._client.request`. -/
structure Request (floats : Floats) where
  method : Text
  path : Text
  headers : List (Text × Text)
  params : Payload floats
  json : Option (Payload floats)

inductive Op (floats : Floats) where
  /-- One attempt of a request. -/
  | send (request : Request floats)
  /-- The pause after so many attempts. -/
  | sleep (attempts : Nat)
  /-- `sign_message` of the account, or `sign_predict_account_message` of the builder. -/
  | sign (message : Text)

@[reducible] def Op.Answer : Op floats → Type
  | .send _ => Reply floats
  | .sleep _ => Unit
  | .sign _ => Except Failure Text

/-- Code that asks it. -/
abbrev Asks (floats : Floats) (α : Type) : Type := Prog (Op floats) Op.Answer α

def perform (op : Op floats) : Asks floats op.Answer := Prog.perform op

/-! ## Requests -/

/-- The configuration of a client; `addressOf` is `Account.from_key(key).address`, `up` is
    `str.upper`. -/
structure SessionConfig extends ConfigFields where
  addressOf : Text → Text
  up : Predict.Upper
  retryAttempts : Nat

/-- `auth_signer_address`. -/
def SessionConfig.authSignerAddress (cfg : SessionConfig) : Option Text :=
  if cfg.walletMode = .predictAccount then cfg.predictAccountAddress
  else if cfg.walletMode = .eoa ∧ truthy cfg.privateKey = true then
    cfg.privateKey.map cfg.addressOf
  else none

def authorizationKey : Text := "Authorization".toList
def bearerText : Text := "Bearer ".toList

/-- `_build_headers`, with the token where there is to be one. -/
def buildHeaders (cfg : SessionConfig) (token : Option Text) : List (Text × Text) :=
  [("Accept".toList, "application/json".toList)]
    ++ (if truthy cfg.apiKey then [("X-API-Key".toList, VaultResolution.strOf cfg.apiKey)] else [])
    ++ match token with
      | none => []
      | some token => [(authorizationKey, bearerText ++ token)]

def getText : Text := "GET".toList
def postText : Text := "POST".toList
def authMessagePath : Text := "/v1/auth/message".toList
def authPath : Text := "/v1/auth".toList

/-- `AuthRequest`. -/
structure AuthRequest where
  signer : Text
  message : Text
  signature : Text

/-- The request of `get_auth_message`. -/
def messageRequest (cfg : SessionConfig) : Request floats where
  method := getText
  path := authMessagePath
  headers := buildHeaders cfg none
  params := []
  json := none

/-- The request of `get_jwt` of the client. -/
def tokenRequest (cfg : SessionConfig) (auth : AuthRequest) : Request floats where
  method := postText
  path := authPath
  headers := buildHeaders cfg none
  params := []
  json := some [("signer".toList, .str auth.signer), ("message".toList, .str auth.message),
    ("signature".toList, .str auth.signature)]

/-- The other methods of the client. -/
inductive Endpoint (floats : Floats) where
  | getMarkets (params : Payload floats)
  | getMarket (marketId : Text)
  | getMarketStats (marketId : Text)
  | getMarketLastSale (marketId : Text)
  | getOrderbook (marketId : Text)
  | getOrder (orderHash : Text)
  | getOrders
  | createOrder (orderPayload : Payload floats)
  | getPositions

namespace Endpoint

def marketsPath : Text := "/v1/markets".toList
def ordersPath : Text := "/v1/orders".toList
def positionsPath : Text := "/v1/positions".toList

def path : Endpoint floats → Text
  | getMarkets _ => marketsPath
  | getMarket marketId => marketsPath ++ '/' :: marketId
  | getMarketStats marketId => marketsPath ++ '/' :: marketId ++ "/stats".toList
  | getMarketLastSale marketId => marketsPath ++ '/' :: marketId ++ "/last-sale".toList
  | getOrderbook marketId => marketsPath ++ '/' :: marketId ++ "/orderbook".toList
  | getOrder orderHash => ordersPath ++ '/' :: orderHash
  | getOrders => ordersPath
  | createOrder _ => ordersPath
  | getPositions => positionsPath

def authenticated : Endpoint floats → Bool
  | getOrder _ => true
  | getOrders => true
  | createOrder _ => true
  | getPositions => true
  | _ => false

/-- What is sent, with the token where there is to be one. -/
def request (cfg : SessionConfig) (e : Endpoint floats) (token : Option Text) :
    Request floats where
  method := match e with
    | createOrder _ => postText
    | _ => getText
  path := e.path
  headers := buildHeaders cfg token
  params := match e with
    | getMarkets params => params
    | _ => []
  json := match e with
    | createOrder orderPayload => some (Predict.serializeCreateOrderPayload cfg.up orderPayload)
    | _ => none

end Endpoint

/-! ## The code -/

/-- The loop of `_request_json`, with so many attempts left. -/
def requestLoop (request : Request floats) :
    Nat → Nat → Asks floats (Except Failure (Payload floats))
  | 0, _ => return .error .retriesExhausted
  | left + 1, attempt => do
      let reply ← perform (.send request)
      if retried reply && left != 0 then
        let () ← perform (.sleep (attempt + 1))
        requestLoop request left (attempt + 1)
      else return readReply reply

/-- What a client and its authenticator keep: `_jwt_cache`, of which one configuration uses one
    key. -/
structure Session where
  jwtCache : Option Text

def newSession : Session where
  jwtCache := none

variable (cfg : SessionConfig)

/-- `build_auth_request`. -/
def buildAuthRequest (message : Text) : Asks floats (Except Failure AuthRequest) :=
  match cfg.walletMode with
  | .eoa =>
      if truthy cfg.privateKey then do
        match ← perform (.sign message) with
        | .error failure => return .error failure
        | .ok signature =>
            return .ok ⟨cfg.addressOf (VaultResolution.strOf cfg.privateKey), message, signature⟩
      else return .error .notAuthenticated
  | .predictAccount =>
      if truthy cfg.privyPrivateKey && truthy cfg.predictAccountAddress then do
        match ← perform (.sign message) with
        | .error failure => return .error failure
        | .ok signature =>
            match cfg.authSignerAddress with
            | none => return .error .notAuthenticated
            | some signer => return .ok ⟨signer, message, signature⟩
      else return .error .notAuthenticated
  | _ => return .error .notAuthenticated

/-- The end of a handshake: what was signed is sent, and the token kept. -/
def claimToken (auth : AuthRequest) (s : Session) :
    Asks floats (Except Failure Text × Session) := do
  let payload ← requestLoop (tokenRequest cfg auth) cfg.retryAttempts 0
  match payload.bind jwtFromApi with
  | .error failure => return (.error failure, s)
  | .ok token => return (.ok token, { s with jwtCache := some token })

/-- A handshake. -/
def handshake (s : Session) : Asks floats (Except Failure Text × Session) := do
  let payload ← requestLoop (messageRequest cfg) cfg.retryAttempts 0
  match payload.bind authMessageFromApi with
  | .error failure => return (.error failure, s)
  | .ok message =>
      match ← buildAuthRequest cfg message with
      | .error failure => return (.error failure, s)
      | .ok auth => claimToken cfg auth s

/-- `get_jwt` of the authenticator. -/
def getJwt (forceRefresh : Bool) (s : Session) : Asks floats (Except Failure Text × Session) :=
  if cfg.authSignerAddress.isNone then return (.error .notAuthenticated, s)
  else match if forceRefresh then none else s.jwtCache with
    | some token => return (.ok token, s)
    | none => handshake cfg s

/-- `_request_json`. -/
def requestJson (e : Endpoint floats) (s : Session) :
    Asks floats (Except Failure (Payload floats) × Session) :=
  if e.authenticated then do
    let (token, s) ← getJwt cfg false s
    match token with
    | .error failure => return (.error failure, s)
    | .ok token =>
        let payload ← requestLoop (e.request cfg (some token)) cfg.retryAttempts 0
        return (payload, s)
  else do
    let payload ← requestLoop (e.request cfg none) cfg.retryAttempts 0
    return (payload, s)

/-- What is asked of a session. -/
inductive Call (floats : Floats) where
  | request (e : Endpoint floats)
  | getJwt (forceRefresh : Bool)

@[reducible] def Call.Reply : Call floats → Type
  | .request _ => Except Failure (Payload floats)
  | .getJwt _ => Except Failure Text

def handle : (call : Call floats) → Session → Asks floats (call.Reply × Session)
  | .request e, s => requestJson cfg e s
  | .getJwt forceRefresh, s => getJwt cfg forceRefresh s

/-! ## The protocol -/

/-- What the world holds of a session: the message that the exchange has just sent to be signed,
    what was signed last, and the token it has issued last. -/
structure World where
  offered : Option Text
  signed : Option (Text × Text)
  token : Option Text

def newWorld : World where
  offered := none
  signed := none
  token := none

/-- The message that a reply asks to be signed. -/
def messageIn (reply : Reply floats) : Option Text :=
  ((readReply reply).bind authMessageFromApi).toOption

/-- The token that a reply issues. -/
def tokenIn (reply : Reply floats) : Option Text := ((readReply reply).bind jwtFromApi).toOption

def World.after (w : World) (message token : Option Text) : World where
  offered := message
  signed := w.signed
  token := token.orElse fun _ => w.token

/-- May a handshake begin? -/
def Due (forced : Bool) (w : World) : Prop := forced = true ∨ w.token = none

/-- **How a session goes.**  A request carries the token that was issued last, or none.  A
    handshake begins where none was issued, or where a refresh is forced: the exchange is asked
    for a message, this message is signed, and it is sent back with the signature. -/
inductive Step (cfg : SessionConfig) (forced : Bool) :
    World → Event (Op floats) Op.Answer → World → Prop
  | plain (w : World) (e : Endpoint floats) (reply : Reply floats) :
      e.authenticated = false →
      Step cfg forced w ⟨.send (e.request cfg none), reply⟩ (w.after none none)
  | bearer (w : World) (e : Endpoint floats) (token : Text) (reply : Reply floats) :
      e.authenticated = true → w.token = some token →
      Step cfg forced w ⟨.send (e.request cfg (some token)), reply⟩ (w.after none none)
  | sleep (w : World) (attempts : Nat) :
      Step cfg forced w ⟨.sleep attempts, ()⟩ (w.after none none)
  | ask (w : World) (reply : Reply floats) :
      Due forced w →
      Step cfg forced w ⟨.send (messageRequest cfg), reply⟩ (w.after (messageIn reply) none)
  | sign (w : World) (message : Text) (answer : Except Failure Text) :
      Due forced w → w.offered = some message →
      Step cfg forced w ⟨.sign message, answer⟩
        { w with
          offered := none
          signed := answer.toOption.map fun signature => (message, signature) }
  | claim (w : World) (auth : AuthRequest) (reply : Reply floats) :
      Due forced w → w.signed = some (auth.message, auth.signature) →
      Step cfg forced w ⟨.send (tokenRequest cfg auth), reply⟩ (w.after none (tokenIn reply))

variable {cfg} {forced : Bool}

/-! ## The code keeps it -/

theorem safe_ask {α : Type} {op : Op floats} {next : op.Answer → Asks floats α}
    {Q : World → α → Prop} {w : World}
    (h : ∀ answer, ∃ w', Step cfg forced w ⟨op, answer⟩ w'
      ∧ Safe (Step cfg forced) Q (next answer) w') :
    Safe (Step cfg forced) Q (perform op >>= next) w := h

/-- A reply after which the request is sent again brings no object. -/
theorem readReply_of_retried {reply : Reply floats} (h : retried reply = true) :
    ∃ failure, readReply reply = .error failure := by
  cases hread : readReply reply with
  | error failure => exact ⟨failure, rfl⟩
  | ok members =>
      obtain ⟨status, body, rfl, hstatus⟩ := Predict.succeeds_of_read hread
      rw [Predict.isError, Bool.and_eq_false_iff, decide_eq_false_iff_not, decide_eq_false_iff_not]
        at hstatus
      rw [retried, Bool.or_eq_true, Bool.and_eq_true, decide_eq_true_iff, decide_eq_true_iff,
        decide_eq_true_iff] at h
      omega

/-- **A request that is sent again and again.**  `I` is what holds between the attempts, `Q` what
    holds after a reply that is returned.  Induction on the attempts left. -/
theorem requestLoop_safe {r : Request floats} {I : World → Prop}
    {Q : World → Except Failure (Payload floats) → Prop}
    (hsend : ∀ w, I w → ∀ reply, ∃ w', Step cfg forced w ⟨.send r, reply⟩ w'
      ∧ Q w' (readReply reply) ∧ (retried reply = true → I (w'.after none none)))
    (hexhausted : ∀ w, I w → Q w (.error .retriesExhausted)) (left : Nat) :
    ∀ (attempt : Nat) {w : World}, I w →
      Safe (Step cfg forced) Q (requestLoop r left attempt) w := by
  induction left with
  | zero => exact fun attempt w hw => hexhausted w hw
  | succ left ih =>
      intro attempt w hw
      refine safe_ask fun reply => ?_
      obtain ⟨w', hstep, hend, hagain⟩ := hsend w hw reply
      refine ⟨w', hstep, ?_⟩
      by_cases hretry : (retried reply && left != 0) = true
      · rw [if_pos hretry]
        rw [Bool.and_eq_true] at hretry
        exact safe_ask fun _ => ⟨_, .sleep w' (attempt + 1), ih (attempt + 1) (hagain hretry.1)⟩
      · rw [if_neg hretry]
        exact hend

/-- The session keeps the token that was issued last. -/
def Keeps (s : Session) (w : World) : Prop := s.jwtCache = w.token

/-- How a fetch of a token ends: what it returns is kept. -/
def Fetched (w : World) (r : Except Failure Text × Session) : Prop :=
  Keeps r.2 w ∧ ∀ token, r.1 = .ok token → w.token = some token

/-- The exchange is asked for a message. -/
theorem askMessage_safe {s : Session} {w : World} (hdue : Due forced w) (hkeeps : Keeps s w) :
    Safe (Step cfg forced)
      (fun w' result => Due forced w' ∧ Keeps s w' ∧ ∀ payload, result = .ok payload →
        w'.offered = (authMessageFromApi payload).toOption)
      (requestLoop (messageRequest cfg : Request floats) cfg.retryAttempts 0) w := by
  refine requestLoop_safe (I := fun w => Due forced w ∧ Keeps s w) (fun w hw reply => ?_)
    (fun w hw => ⟨hw.1, hw.2, fun payload heq => nomatch heq⟩) _ 0 ⟨hdue, hkeeps⟩
  refine ⟨_, .ask w reply hw.1, ⟨hw.1, hw.2, fun payload heq => ?_⟩, fun _ => hw⟩
  show messageIn reply = _
  rw [messageIn, heq]
  rfl

/-- A message is signed. -/
theorem buildAuthRequest_safe {s : Session} {w : World} {message : Text} (hdue : Due forced w)
    (hkeeps : Keeps s w) (hoffered : w.offered = some message) :
    Safe (Step cfg forced)
      (fun w' result => Due forced w' ∧ Keeps s w' ∧ ∀ auth, result = .ok auth →
        w'.signed = some (auth.message, auth.signature))
      (buildAuthRequest cfg message : Asks floats _) w := by
  have hrefused : Due forced w ∧ Keeps s w ∧ ∀ auth : AuthRequest,
      (Except.error .notAuthenticated : Except Failure AuthRequest) = .ok auth →
        w.signed = some (auth.message, auth.signature) :=
    ⟨hdue, hkeeps, fun auth heq => nomatch heq⟩
  rw [buildAuthRequest]
  cases cfg.walletMode with
  | readOnly => exact hrefused
  | mandatedVault => exact hrefused
  | eoa =>
      dsimp only
      split
      · refine safe_ask fun answer => ⟨_, .sign w message answer hdue hoffered, ?_⟩
        cases answer with
        | error failure => exact ⟨hdue, hkeeps, fun auth heq => nomatch heq⟩
        | ok signature =>
            refine ⟨hdue, hkeeps, fun auth heq => ?_⟩
            obtain rfl := Except.ok.inj heq
            rfl
      · exact hrefused
  | predictAccount =>
      dsimp only
      split
      · refine safe_ask fun answer => ⟨_, .sign w message answer hdue hoffered, ?_⟩
        cases answer with
        | error failure => exact ⟨hdue, hkeeps, fun auth heq => nomatch heq⟩
        | ok signature =>
            dsimp only
            cases cfg.authSignerAddress with
            | none => exact ⟨hdue, hkeeps, fun auth heq => nomatch heq⟩
            | some signer =>
                refine ⟨hdue, hkeeps, fun auth heq => ?_⟩
                obtain rfl := Except.ok.inj heq
                rfl
      · exact hrefused

/-- A token is claimed. -/
theorem claimToken_safe {s : Session} {w : World} {auth : AuthRequest} (hdue : Due forced w)
    (hkeeps : Keeps s w) (hsigned : w.signed = some (auth.message, auth.signature)) :
    Safe (Step cfg forced) Fetched (claimToken cfg auth s : Asks floats _) w := by
  have hloop : Safe (Step cfg forced)
      (fun w' result => (result.bind jwtFromApi).toOption.orElse (fun _ => s.jwtCache) = w'.token)
      (requestLoop (tokenRequest cfg auth : Request floats) cfg.retryAttempts 0) w := by
    refine requestLoop_safe
      (I := fun w => Due forced w ∧ Keeps s w ∧ w.signed = some (auth.message, auth.signature))
      (fun w hw reply => ?_) (fun w hw => hw.2.1) _ 0 ⟨hdue, hkeeps, hsigned⟩
    refine ⟨_, .claim w auth reply hw.1 hw.2.2, ?_, fun hretry => ?_⟩
    · show _ = (tokenIn reply).orElse fun _ => w.token
      rw [← hw.2.1]
      rfl
    · obtain ⟨failure, hfailure⟩ := readReply_of_retried hretry
      have hnone : tokenIn reply = none := by
        rw [tokenIn, hfailure]
        rfl
      rw [hnone]
      exact hw
  refine hloop.bind fun w' result hresult => ?_
  cases htoken : result.bind jwtFromApi with
  | error failure =>
      rw [htoken] at hresult
      exact ⟨hresult, fun token heq => nomatch heq⟩
  | ok token =>
      rw [htoken] at hresult
      exact ⟨hresult, fun token' heq => by rw [← hresult, ← Except.ok.inj heq]; rfl⟩

/-- A handshake. -/
theorem handshake_safe {s : Session} {w : World} (hdue : Due forced w) (hkeeps : Keeps s w) :
    Safe (Step cfg forced) Fetched (handshake cfg s : Asks floats _) w := by
  refine (askMessage_safe hdue hkeeps).bind fun w₁ result ⟨hdue₁, hkeeps₁, hoffered⟩ => ?_
  cases hmessage : result.bind authMessageFromApi with
  | error failure => exact ⟨hkeeps₁, fun token heq => nomatch heq⟩
  | ok message =>
      have hsome : w₁.offered = some message := by
        cases result with
        | error failure => cases hmessage
        | ok payload =>
            have hread : authMessageFromApi payload = .ok message := hmessage
            rw [hoffered payload rfl, hread]
            rfl
      refine (buildAuthRequest_safe hdue₁ hkeeps₁ hsome).bind
        fun w₂ built ⟨hdue₂, hkeeps₂, hsigned⟩ => ?_
      cases built with
      | error failure => exact ⟨hkeeps₂, fun token heq => nomatch heq⟩
      | ok auth => exact claimToken_safe hdue₂ hkeeps₂ (hsigned auth rfl)

theorem getJwt_safe {s : Session} {w : World} (hkeeps : Keeps s w) {forceRefresh : Bool}
    (hforced : forceRefresh = true → forced = true) :
    Safe (Step cfg forced) Fetched (getJwt cfg forceRefresh s : Asks floats _) w := by
  rw [getJwt]
  split
  · exact ⟨hkeeps, fun token heq => nomatch heq⟩
  cases forceRefresh with
  | true => exact handshake_safe (Or.inl (hforced rfl)) hkeeps
  | false =>
      cases hcache : s.jwtCache with
      | none => exact handshake_safe (Or.inr (hkeeps.symm.trans hcache)) hkeeps
      | some token =>
          refine ⟨hkeeps, fun token' heq => ?_⟩
          rw [← Except.ok.inj heq]
          exact hkeeps.symm.trans hcache

theorem requestJson_safe {s : Session} {w : World} (hkeeps : Keeps s w) (e : Endpoint floats) :
    Safe (Step cfg forced) (fun w' r => Keeps r.2 w') (requestJson cfg e s) w := by
  rw [requestJson]
  split
  · rename_i hauthenticated
    have hnot : false = true → forced = true := Bool.noConfusion
    refine (getJwt_safe hkeeps hnot).bind ?_
    rintro w₁ ⟨result, s₁⟩ ⟨hkeeps₁, htoken⟩
    cases result with
    | error failure => exact hkeeps₁
    | ok token =>
        refine Safe.bind (R := fun w' _ => Keeps s₁ w') ?_ fun w' payload hw' => hw'
        refine requestLoop_safe (I := fun w => Keeps s₁ w ∧ w.token = some token)
          (fun w hw reply => ?_) (fun w hw => hw.1) _ 0 ⟨hkeeps₁, htoken token rfl⟩
        exact ⟨_, .bearer w e token reply hauthenticated hw.2, hw.1, fun _ => hw⟩
  · rename_i hplain
    rw [Bool.not_eq_true] at hplain
    refine Safe.bind (R := fun w' _ => Keeps s w') ?_ fun w' payload hw' => hw'
    refine requestLoop_safe (I := Keeps s) (fun w hw reply => ?_) (fun w hw => hw) _ 0 hkeeps
    exact ⟨_, .plain w e reply hplain, hw, fun _ => hw⟩

/-- **Everything that a session does keeps the protocol.** -/
theorem handle_safe {s : Session} {w : World} (hkeeps : Keeps s w) (call : Call floats)
    (hforced : call = .getJwt true → forced = true) :
    Safe (Step cfg forced) (fun w' r => Keeps r.2 w') (handle cfg call s) w := by
  cases call with
  | request e => exact requestJson_safe hkeeps e
  | getJwt forceRefresh =>
      exact (getJwt_safe hkeeps fun h => hforced (h ▸ rfl)).mono fun w' r hr => hr.1

/-! ## What a log shows -/

/-- What has been asked and answered. -/
abbrev Log (floats : Floats) : Type := List (Event (Op floats) Op.Answer)

/-- The message that an event asks to be signed. -/
def asked : Event (Op floats) Op.Answer → Option Text
  | ⟨.send r, reply⟩ => if r.path = authMessagePath then messageIn reply else none
  | _ => none

/-- The token that an event issues. -/
def issued : Event (Op floats) Op.Answer → Option Text
  | ⟨.send r, reply⟩ => if r.path = authPath then tokenIn reply else none
  | _ => none

/-- The message that an event signs, with the signature, if there comes one. -/
def signing : Event (Op floats) Op.Answer → Option (Option (Text × Text))
  | ⟨.sign message, answer⟩ => some (answer.toOption.map fun signature => (message, signature))
  | _ => none

/-- The token that was issued last. -/
def lastIssued (log : Log floats) : Option Text := (log.filterMap issued).getLast?

/-- What was signed last. -/
def lastSigned (log : Log floats) : Option (Text × Text) :=
  (log.filterMap signing).getLast?.join

/-- What the world holds of a session is what the log shows. -/
structure Recalls (log : Log floats) (w : World) : Prop where
  offered : w.offered = log.getLast?.bind asked
  signed : w.signed = lastSigned log
  token : w.token = lastIssued log

theorem lastIssued_snoc (log : Log floats) (e : Event (Op floats) Op.Answer) :
    lastIssued (log ++ [e]) = (issued e).orElse fun _ => lastIssued log := by
  rw [lastIssued, lastIssued, List.filterMap_append]
  cases h : issued e with
  | none =>
      rw [List.filterMap_cons_none h, List.filterMap_nil, List.append_nil]
      rfl
  | some token =>
      rw [List.filterMap_cons_some h, List.filterMap_nil, List.getLast?_concat]
      rfl

theorem lastSigned_snoc (log : Log floats) (e : Event (Op floats) Op.Answer) :
    lastSigned (log ++ [e]) = ((signing e).orElse fun _ => some (lastSigned log)).join := by
  rw [lastSigned, lastSigned, List.filterMap_append]
  cases h : signing e with
  | none =>
      rw [List.filterMap_cons_none h, List.filterMap_nil, List.append_nil]
      rfl
  | some signed =>
      rw [List.filterMap_cons_some h, List.filterMap_nil, List.getLast?_concat]
      rfl

theorem recalls_snoc {log : Log floats} {w w' : World} {e : Event (Op floats) Op.Answer}
    (h : Recalls log w) (hoffered : w'.offered = asked e)
    (hsigned : w'.signed = ((signing e).orElse fun _ => some w.signed).join)
    (htoken : w'.token = (issued e).orElse fun _ => w.token) : Recalls (log ++ [e]) w' where
  offered := by
    rw [List.getLast?_concat]
    exact hoffered
  signed := by
    rw [lastSigned_snoc, ← h.signed]
    exact hsigned
  token := by
    rw [lastIssued_snoc, ← h.token]
    exact htoken

/-- The path of a method is none of the two of a handshake. -/
theorem Endpoint.path_ne (e : Endpoint floats) : e.path ≠ authMessagePath ∧ e.path ≠ authPath := by
  have hprefix : e.path.take 5 ≠ ['/', 'v', '1', '/', 'a'] := by
    intro h
    cases e with
    | getOrder orderHash => exact absurd (show ['/', 'v', '1', '/', 'o'] = _ from h) (by decide)
    | getOrders => exact absurd (show ['/', 'v', '1', '/', 'o'] = _ from h) (by decide)
    | createOrder payload => exact absurd (show ['/', 'v', '1', '/', 'o'] = _ from h) (by decide)
    | getPositions => exact absurd (show ['/', 'v', '1', '/', 'p'] = _ from h) (by decide)
    | _ => exact absurd (show ['/', 'v', '1', '/', 'm'] = _ from h) (by decide)
  exact ⟨fun h => hprefix (congrArg (List.take 5) h), fun h => hprefix (congrArg (List.take 5) h)⟩

theorem recalls_request {log : Log floats} {w : World} (h : Recalls log w) (e : Endpoint floats)
    (token : Option Text) (reply : Reply floats) :
    Recalls (log ++ [⟨.send (e.request cfg token), reply⟩]) (w.after none none) := by
  refine recalls_snoc h (if_neg e.path_ne.1).symm rfl ?_
  have hissued : issued ⟨.send (e.request cfg token), reply⟩ = none := if_neg e.path_ne.2
  rw [hissued]
  rfl

/-- **One event of a session.** -/
theorem recalls_step {log : Log floats} {w w' : World} {e : Event (Op floats) Op.Answer}
    (hstep : Step cfg forced w e w') (h : Recalls log w) : Recalls (log ++ [e]) w' := by
  cases hstep with
  | plain e reply _ => exact recalls_request h e none reply
  | bearer e token reply _ _ => exact recalls_request h e (some token) reply
  | sleep attempts => exact recalls_snoc h rfl rfl rfl
  | ask reply _ => exact recalls_snoc h rfl rfl rfl
  | sign message answer _ _ => exact recalls_snoc h rfl rfl rfl
  | claim auth reply _ _ => exact recalls_snoc h rfl rfl rfl

theorem recalls_follows {w w' : World} {log : Log floats}
    (h : Follows (Step cfg forced) w log w') :
    ∀ {before : Log floats}, Recalls before w → Recalls (before ++ log) w' := by
  induction h with
  | nil w =>
      intro before hbefore
      rw [List.append_nil]
      exact hbefore
  | cons hstep _ ih =>
      intro before hbefore
      have hnext := ih (recalls_step hstep hbefore)
      rw [List.append_assoc] at hnext
      exact hnext

/-! ## A session with two requests -/

/-- A configuration with a key. -/
def keyConfig : SessionConfig where
  env := .testnet
  walletModeOverride := some .eoa
  apiKey := none
  privateKey := some ['k']
  predictAccountAddress := none
  privyPrivateKey := none
  mandatedVaultAddress := none
  mandatedFactoryAddress := none
  mandatedVaultAssetAddress := none
  mandatedVaultName := none
  mandatedVaultSymbol := none
  mandatedVaultAuthority := none
  mandatedVaultSalt := none
  mandatedAllowedAdaptersRoot := []
  hasMandatedConfigInput := false
  addressOf key := 'a' :: key
  up := Predict.asciiUpper
  retryAttempts := 3

/-- The positions are asked for, and then the orders. -/
def twoRequests : Prog (Call nanFloats) Call.Reply (Except Failure (Payload nanFloats)) :=
  Prog.bind (Prog.perform (Call.request .getPositions)) fun _ =>
    Prog.perform (Call.request .getOrders)

theorem only_twoRequests :
    twoRequests.Only fun call => call = .getJwt true → false = true :=
  ⟨(fun h => nomatch h), fun _ => ⟨(fun h => nomatch h), fun _ => trivial⟩⟩

def answered (members : Payload nanFloats) : Reply nanFloats := .response 200 (some (.obj members))

/-- The exchange wants `m` to be signed. -/
def questionLog : Log nanFloats :=
  [⟨.send (messageRequest keyConfig), answered [("message".toList, .str ['m'])]⟩]

def keyAuth : AuthRequest where
  signer := ['a', 'k']
  message := ['m']
  signature := ['s']

/-- It is signed, the token is `t`, and the positions are asked for with it. -/
def tokenLog : Log nanFloats :=
  questionLog ++ [⟨.sign ['m'], Except.ok ['s']⟩,
    ⟨.send (tokenRequest keyConfig keyAuth), answered [("token".toList, .str ['t'])]⟩,
    ⟨.send (Endpoint.getPositions.request keyConfig (some ['t'])), answered []⟩]

theorem begins_question :
    (twoRequests.interpret (handle keyConfig) newSession).Begins
      (questionLog ++ [⟨.sign ['m'], Except.ok ['s']⟩]) :=
  .ask _ _ _ (.ask _ _ _ (.nil _))

theorem begins_token :
    (twoRequests.interpret (handle keyConfig) newSession).Begins
      (tokenLog ++ [⟨.send (Endpoint.getOrders.request keyConfig (some ['t'])), answered []⟩]) :=
  .ask _ _ _ (.ask _ _ _ (.ask _ _ _ (.ask _ _ _ (.ask _ _ _ (.nil _)))))

/-! ## What a session sends and signs -/

/-- A step of a session, from what the log shows before it. -/
theorem step_of_begins {α : Type} {body : Prog (Call floats) Call.Reply α}
    (hbody : body.Only fun call => call = .getJwt true → forced = true) {before after : Log floats}
    {e : Event (Op floats) Op.Answer}
    (h : (body.interpret (handle cfg) newSession).Begins (before ++ e :: after)) :
    ∃ w w', Recalls before w ∧ Step cfg forced w e w' := by
  have hsafe : Safe (Step cfg forced) (fun w r => ∃ _ : Unit, True ∧ Keeps r.2 w)
      (body.interpret (handle cfg) newSession) newWorld :=
    safe_interpret (I := fun _ w s => Keeps s w)
      (fun call _ w s hkeeps hcalls => (handle_safe hkeeps call fun heq => by
        subst heq
        obtain ⟨_, hforced⟩ := hcalls (.error .notAuthenticated)
        exact hforced rfl).mono fun w' r hr _ _ => hr)
      hbody.safe rfl
  obtain ⟨w₂, hfollows⟩ := hsafe.begins h
  obtain ⟨w, hbefore, hafter⟩ := hfollows.split
  have hnew : Recalls ([] : Log floats) newWorld := ⟨rfl, rfl, rfl⟩
  have hrecalls := recalls_follows hbefore hnew
  cases hafter with
  | cons hstep _ => exact ⟨w, _, hrecalls, hstep⟩

/-- Has no token been issued, if no refresh is forced? -/
def DueIn (forced : Bool) (log : Log floats) : Prop := forced = true ∨ lastIssued log = none

variable (cfg forced) in
/-- What may be sent after a log: a request of a method that needs no token, without one; of a
    method that needs one, with the last that was issued; a question for a message; and what was
    signed last, if there is a signature. -/
inductive Sent (log : Log floats) : Request floats → Prop
  | plain (e : Endpoint floats) : e.authenticated = false → Sent log (e.request cfg none)
  | bearer (e : Endpoint floats) (token : Text) :
      e.authenticated = true → lastIssued log = some token → Sent log (e.request cfg (some token))
  | message : DueIn forced log → Sent log (messageRequest cfg)
  | signed (auth : AuthRequest) :
      DueIn forced log → lastSigned log = some (auth.message, auth.signature) →
      Sent log (tokenRequest cfg auth)

/-- **A token is sent only while it is the last one issued**, to the methods that need one and to
    no others; a signature is sent only to have a token issued, with the message it is of; and
    while no refresh is forced nothing more is asked once there is a token. -/
theorem bearer_was_issued {α : Type} {cfg : SessionConfig} {forced : Bool}
    {body : Prog (Call floats) Call.Reply α}
    (hbody : body.Only fun call => call = .getJwt true → forced = true)
    {before after : Log floats} {r : Request floats} {reply : Reply floats}
    (h : (body.interpret (handle cfg) newSession).Begins (before ++ ⟨.send r, reply⟩ :: after)) :
    Sent cfg forced before r := by
  obtain ⟨w, w', hrecalls, hstep⟩ := step_of_begins hbody h
  have hdue : Due forced w → DueIn forced before := fun hdue =>
    hdue.imp id fun hnone => hrecalls.token.symm.trans hnone
  cases hstep with
  | plain e reply hplain => exact .plain e hplain
  | bearer e token reply hauthenticated htoken =>
      exact .bearer e token hauthenticated (hrecalls.token.symm.trans htoken)
  | ask reply hd => exact .message (hdue hd)
  | claim auth reply hd hsigned =>
      exact .signed auth (hdue hd) (hrecalls.signed.symm.trans hsigned)

theorem bearer_was_issued_token :
    Sent keyConfig false tokenLog (Endpoint.getOrders.request keyConfig (some ['t'])) :=
  bearer_was_issued only_twoRequests begins_token

/-- **What is signed is what the exchange has just asked for**: the event before is the reply with
    this message in it.  While no refresh is forced nothing is signed once there is a token. -/
theorem signs_what_was_asked {α : Type} {cfg : SessionConfig} {forced : Bool}
    {body : Prog (Call floats) Call.Reply α}
    (hbody : body.Only fun call => call = .getJwt true → forced = true)
    {before after : Log floats} {message : Text} {answer : Except Failure Text}
    (h : (body.interpret (handle cfg) newSession).Begins
      (before ++ ⟨.sign message, answer⟩ :: after)) :
    before.getLast?.bind asked = some message ∧ DueIn forced before := by
  obtain ⟨w, w', hrecalls, hstep⟩ := step_of_begins hbody h
  cases hstep with
  | sign message answer hdue hoffered =>
      exact ⟨hrecalls.offered.symm.trans hoffered,
        hdue.imp id fun hnone => hrecalls.token.symm.trans hnone⟩

theorem signs_what_was_asked_question :
    questionLog.getLast?.bind asked = some ['m'] ∧ DueIn false questionLog :=
  signs_what_was_asked only_twoRequests begins_question

end AuthSession
