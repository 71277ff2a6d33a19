import MandatedVaultFactory.ModelAnswerProofs
import MandatedVaultFactory.RetryProofs
import MandatedVaultFactory.SecretsProofs
import MandatedVaultFactory.VaultResolutionProofs

/-!
# Requests that are tried again

The client of the exchange and the client of the language model send a request again where it
fails, the one if the failure may be a passing one, the other whatever it is.

* **`requestJson`** — the requests and pauses of `_request_json`; `requestJson_snd`, it returns
  what the client of the exchange returns.
* **`completeJson`** — the client of the language model.
* **`requestJson_tried`**, **`completeJson_tried`** — what they do and return is decided by the
  first reply that is not tried again. -/

namespace Requests

open Texts Json Secrets

variable {floats : Floats}

/-! ## The exchange -/

/-- `_request_json`, with its pauses: the loop, once `_build_headers` has given the headers; the
    provider of tokens may have raised instead. -/
def requestJson (x : Predict.Exchange floats)
    (headers : Except Predict.Failure (List (Text × Text))) (call : Predict.ApiCall)
    (retryAttempts : Nat) (retryBackoffSeconds : ℚ) :
    List Retry.Event × Except Predict.Failure (List (Text × Value floats.Float)) :=
  match headers with
  | .error failure => ([], .error failure)
  | .ok _ =>
      Retry.run Predict.retried Predict.readReply (.error .retriesExhausted) retryBackoffSeconds
        (fun attempt => (x.attempts call attempt).reply) retryAttempts 0

/-- It is the loop of the client.  Induction on the attempts left. -/
theorem run_snd (x : Predict.Exchange floats) (call : Predict.ApiCall) (backoff : ℚ) (left : Nat) :
    ∀ (attempt : Nat) (net : Predict.Net),
      (Retry.run Predict.retried Predict.readReply (.error .retriesExhausted) backoff
        (fun attempt => (x.attempts call attempt).reply) left attempt).2
        = (Predict.requestLoop x call left attempt net).1 := by
  induction left with
  | zero => exact fun _ _ => rfl
  | succ left ih =>
      intro attempt net
      rw [Retry.run, Predict.requestLoop]
      dsimp only
      by_cases hagain : (Predict.retried (x.attempts call attempt).reply && left != 0) = true
      · rw [if_pos hagain, if_pos hagain]
        exact ih (attempt + 1) (x.take call attempt net)
      · rw [if_neg hagain, if_neg hagain]

theorem requestJson_snd (x : Predict.Exchange floats) (headers : List (Text × Text))
    (call : Predict.ApiCall) (cfg : Predict.ClientConfig floats) (backoff : ℚ)
    (net : Predict.Net) :
    (requestJson x (.ok headers) call cfg.retryAttempts backoff).2
      = (Predict.requestJson x cfg call net).1 :=
  run_snd x call backoff cfg.retryAttempts 0 net

/-! ## The language model -/

/-- The fields of a configuration that the client uses. -/
structure LlmConfig where
  openrouterApiKey : Option Text
  modelName : Option Text

/-- Why no answer is returned. -/
inductive LlmFailure where
  | notConfigured
  | requestError (error : Text)
  | openRouterError (message : Text)
  | malformed
  /-- What `json.loads` raises of the content. -/
  | unreadable (error : LoadError)

/-- The body of a request. -/
structure LlmRequest where
  model : Text
  systemPrompt : Text
  prompt : Text

def llmMaxRetries : Nat := 3

def defaultModel : Text := "openrouter/openai/gpt-4.1-mini".toList

def choicesKey : Text := "choices".toList
def messageKey : Text := "message".toList
def contentKey : Text := "content".toList

/-- `value[key]` of an object. -/
def member (key : Text) : Value floats.Float → Option (Value floats.Float)
  | .obj members => get key members
  | _ => none

/-- `response.json()["choices"][0]["message"]["content"]`. -/
def contentOf (body : Value floats.Float) : Option (Value floats.Float) :=
  match member choicesKey body with
  | some (.arr (first :: _)) => (member messageKey first).bind (member contentKey)
  | _ => none

/-- Every failure is tried again. -/
def failed : HttpReply floats → Bool
  | .transportError _ => true
  | .response status _ _ => Predict.isError status

/-- What is made of a reply that is not tried again; nothing catches an error of the content. -/
def readAnswer (cfg : LlmConfig) :
    HttpReply floats → Except LlmFailure (Option (List (Str × Loaded floats.Float)))
  | .transportError error => .error (.requestError error)
  | .response status text body =>
      if Predict.isError status then
        .error (.openRouterError (Redaction.redactText
          ("OpenRouter request failed with status ".toList ++ decimal status ++ ": ".toList
            ++ text.take 180) [cfg.openrouterApiKey]))
      else match body.bind contentOf with
        | none => .error .malformed
        | some (.str raw) => (ModelAnswers.extractJson floats raw).mapError .unreadable
        | some _ => .ok none

/-- What is asked. -/
def llmRequest (cfg : LlmConfig) (prompt systemPrompt : Text) (model : Option Text) :
    LlmRequest where
  model := (Predict.orText model (Predict.orText cfg.modelName none)).getD defaultModel
  systemPrompt := systemPrompt
  prompt := prompt

/-- `complete_json`, of a server that replies to every attempt of a request. -/
def completeJson (cfg : LlmConfig) (server : LlmRequest → Nat → HttpReply floats)
    (prompt systemPrompt : Text) (model : Option Text) :
    List Retry.Event × Except LlmFailure (Option (List (Str × Loaded floats.Float))) :=
  if VaultResolution.truthy cfg.openrouterApiKey then
    Retry.run failed (readAnswer cfg) (.ok none) 1
      (server (llmRequest cfg prompt systemPrompt model)) llmMaxRetries 0
  else ([], .error .notConfigured)

/-! ## What is done and returned -/

/-- **A request that is tried again**, so often at most: it is sent until a reply does not ask for
    another attempt, after the attempt of each number there is a pause of so many times the first
    one and no other pause is made, and what is returned is in the last reply. -/
structure Tried {ρ β : Type} (again : ρ → Bool) (read : ρ → β) (replies : Nat → ρ) (allowed : Nat)
    (backoff : ℚ) (result : List Retry.Event × β) : Prop where
  ends : ∃ n, Retry.Ends again replies allowed n ∧ result.1 = Retry.eventsFrom backoff 0 n
    ∧ result.2 = read (replies n)
    ∧ Retry.attempts result.1 = n + 1 ∧ Retry.waited result.1 = backoff * (n * (n + 1) / 2)
  atMost : Retry.attempts result.1 ≤ allowed

theorem tried_run {ρ β : Type} (again : ρ → Bool) (read : ρ → β) (exhausted : β) (backoff : ℚ)
    (replies : Nat → ρ) {allowed : Nat} (h : 0 < allowed) :
    Tried again read replies allowed backoff
      (Retry.run again read exhausted backoff replies allowed 0) := by
  obtain ⟨left, rfl⟩ := Nat.exists_eq_succ_of_ne_zero (Nat.ne_of_gt h)
  obtain ⟨n, hends⟩ := Retry.exists_ends again left replies
  have hshift : (fun m => replies (0 + m)) = replies := funext fun m => congrArg replies m.zero_add
  have hrun := Retry.run_of_ends read exhausted backoff (hshift.symm ▸ hends)
  have hattempts := Retry.attempts_eventsFrom backoff n 0
  rw [hrun, Nat.zero_add]
  refine ⟨⟨n, hends, rfl, rfl, hattempts, ?_⟩, ?_⟩
  · rw [Retry.waited_eventsFrom, Nat.cast_zero, mul_zero, zero_add]
  · rw [hattempts]
    exact hends.within

/-- With three attempts and a second there are pauses of one and of two seconds. -/
theorem Tried.pauses {ρ β : Type} {again : ρ → Bool} {read : ρ → β} {replies : Nat → ρ}
    {result : List Retry.Event × β} (h : Tried again read replies 3 1 result) :
    ∃ n < 3,
      result.1 = [.attempt 0, .wait 1, .attempt 1, .wait 2, .attempt 2].take (2 * n + 1) := by
  obtain ⟨n, hends, hevents, _⟩ := h.ends
  refine ⟨n, hends.within, hevents.trans ?_⟩
  have htwo : (1 : ℚ) + 1 = 2 := by norm_num
  have hlt := hends.within
  rcases n with _ | _ | _ | n
  · simp [Retry.eventsFrom]
  · simp [Retry.eventsFrom]
  · simp [Retry.eventsFrom, htwo]
  · omega

/-- Where a reply that asks for another attempt is none that can be returned. -/
theorem Tried.eq_ok_iff {ρ ε β : Type} {again : ρ → Bool} {read : ρ → Except ε β}
    {replies : Nat → ρ} {allowed : Nat} {backoff : ℚ} {result : List Retry.Event × Except ε β}
    (h : Tried again read replies allowed backoff result)
    (hread : ∀ {reply b}, read reply = .ok b → again reply = false) {b : β} :
    result.2 = .ok b
      ↔ ∃ n < allowed, (∀ m < n, again (replies m) = true) ∧ read (replies n) = .ok b := by
  obtain ⟨n, hends, _, hresult, _⟩ := h.ends
  rw [hresult]
  constructor
  · intro hok
    exact ⟨n, hends.within, hends.asked, hok⟩
  · rintro ⟨m, hwithin, hasked, hok⟩
    have hm : Retry.Ends again replies allowed m :=
      ⟨hwithin, hasked, fun hagain => by rw [hread hok] at hagain; cases hagain⟩
    rw [hends.unique hm]
    exact hok

theorem retried_of_readReply {reply : Predict.Reply floats}
    {members : List (Text × Value floats.Float)} (h : Predict.readReply reply = .ok members) :
    Predict.retried reply = false := by
  obtain ⟨status, body, rfl, hstatus⟩ := Predict.succeeds_of_read h
  rw [Predict.isError, Bool.and_eq_false_iff, decide_eq_false_iff_not, decide_eq_false_iff_not]
    at hstatus
  rw [Predict.retried, Bool.or_eq_false_iff, Bool.and_eq_false_iff, decide_eq_false_iff_not,
    decide_eq_false_iff_not, decide_eq_false_iff_not]
  omega

theorem failed_of_readAnswer {cfg : LlmConfig} {reply : HttpReply floats}
    {answer : Option (List (Str × Loaded floats.Float))} (h : readAnswer cfg reply = .ok answer) :
    failed reply = false := by
  cases reply with
  | transportError error => cases h
  | response status text body =>
      rw [failed, ← Bool.not_eq_true]
      intro hstatus
      rw [readAnswer, if_pos hstatus] at h
      cases h

/-- **The exchange is asked again while it may help**: the client returns the first reply that is
    neither lost, nor 429, nor an error of the server, and gives up after so many attempts.
    Without headers nothing is sent. -/
theorem requestJson_tried (x : Predict.Exchange floats) (call : Predict.ApiCall)
    (retryAttempts : Nat) (backoff : ℚ) (h : 0 < retryAttempts) :
    (∀ headers,
      Tried Predict.retried Predict.readReply (fun attempt => (x.attempts call attempt).reply)
          retryAttempts backoff (requestJson x (.ok headers) call retryAttempts backoff)
        ∧ ∀ members, (requestJson x (.ok headers) call retryAttempts backoff).2 = .ok members
          ↔ ∃ n < retryAttempts, (∀ m < n, Predict.retried (x.attempts call m).reply = true)
            ∧ Predict.readReply (x.attempts call n).reply = .ok members)
      ∧ ∀ failure, requestJson x (.error failure) call retryAttempts backoff
        = ([], .error failure) := by
  refine ⟨fun headers => ?_, fun failure => rfl⟩
  have htried := tried_run Predict.retried Predict.readReply (.error .retriesExhausted) backoff
    (fun attempt => (x.attempts call attempt).reply) h
  exact ⟨htried, fun members => htried.eq_ok_iff retried_of_readReply⟩

/-- An exchange that fails once. -/
def onceBusy : Predict.Exchange nanFloats where
  attempts _ attempt :=
    { reply := .response (if attempt = 0 then 503 else 200) (some (.obj [])), accepts := false }
  hashOf _ := []

theorem requestJson_onceBusy : (requestJson onceBusy (.ok []) .authMessage 3 (1 / 4)).2 = .ok [] :=
  (((requestJson_tried onceBusy .authMessage 3 (1 / 4) (by decide)).1 []).2 []).mpr
    ⟨1, by decide, fun m hm => by obtain rfl := Nat.lt_one_iff.mp hm; rfl, rfl⟩

/-- **The language model is asked three times at most**: the client returns what the first reply
    says that is no failure. -/
theorem completeJson_tried (cfg : LlmConfig) (server : LlmRequest → Nat → HttpReply floats)
    (prompt systemPrompt : Text) (model : Option Text)
    (h : VaultResolution.truthy cfg.openrouterApiKey = true) :
    Tried failed (readAnswer cfg) (server (llmRequest cfg prompt systemPrompt model)) 3 1
        (completeJson cfg server prompt systemPrompt model)
      ∧ (∃ n < 3, (completeJson cfg server prompt systemPrompt model).1
        = [.attempt 0, .wait 1, .attempt 1, .wait 2, .attempt 2].take (2 * n + 1))
      ∧ ∀ answer, (completeJson cfg server prompt systemPrompt model).2 = .ok answer
        ↔ ∃ n < 3, (∀ m < n,
            failed (server (llmRequest cfg prompt systemPrompt model) m) = true)
          ∧ readAnswer cfg (server (llmRequest cfg prompt systemPrompt model) n) = .ok answer := by
  rw [completeJson, if_pos h]
  have htried := tried_run failed (readAnswer cfg) (.ok none) 1
    (server (llmRequest cfg prompt systemPrompt model)) (by decide : (0 : Nat) < 3)
  exact ⟨htried, htried.pauses, fun answer => htried.eq_ok_iff failed_of_readAnswer⟩

/-- A model that cannot be reached at first, and then says something that is no text. -/
def secondAnswer : LlmRequest → Nat → HttpReply nanFloats
  | _, 0 => .transportError []
  | _, _ => .response 200 [] (some (.obj [(choicesKey, .arr [.obj [(messageKey,
      .obj [(contentKey, .null)])]])]))

theorem completeJson_secondAnswer :
    (completeJson ⟨some ['k'], none⟩ secondAnswer [] [] none).2 = .ok none :=
  ((completeJson_tried ⟨some ['k'], none⟩ secondAnswer [] [] none rfl).2.2 none).mpr
    ⟨1, by decide, fun m hm => by obtain rfl := Nat.lt_one_iff.mp hm; rfl, rfl⟩

end Requests
