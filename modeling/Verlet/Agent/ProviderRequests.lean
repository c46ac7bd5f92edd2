import Verlet.Agent.AgentLoop
import Verlet.Agent.RequestAssembly.PairComplete
import Verlet.Provider.Transform.FixedPoint

/-!
# Agent — Requests to the endpoints

`execute_provider_request`: a request is tried at the endpoint of its turn, again while the error is worth
it, and then at the fallbacks, one after the other.  Its history was normalized once, for the endpoint of
the turn.

What the runtime emits on the way, and the time it takes, are left out.
-/

namespace Verlet.Agent
open Support History Provider

structure ModelRequestRetryPolicy where
  maxAttempts : Nat
  initialBackoffMs : Nat
  maxBackoffMs : Nat

def ModelRequestRetryPolicy.attempts (policy : ModelRequestRetryPolicy) : Nat :=
  max policy.maxAttempts 1

def ModelRequestRetryPolicy.delayMs (policy : ModelRequestRetryPolicy) (attempt : Nat) : Nat :=
  if policy.initialBackoffMs = 0 then 0
  else
    let delay := min (policy.initialBackoffMs * 2 ^ min (attempt - 1) 31) (2 ^ 64 - 1)
    if policy.maxBackoffMs = 0 then delay else min delay policy.maxBackoffMs

/-- `ModelRequestEndpoint`: what of its configuration goes into a request, and what its client declares
that it can take. -/
structure ModelRequestEndpoint where
  api : ProviderApi
  provider : String
  model : String
  maxTokens : Nat
  capabilities : Option ProviderCapabilityRecord

/-- `RuntimeModelRequestErrorClass`. -/
inductive ModelRequestErrorClass where
  | cancelled
  | fatal
  | retryable
  | rateLimited
  | unsupportedCapability
  | streamAssembly
deriving DecidableEq

structure ModelRequestAttemptError where
  errorClass : ModelRequestErrorClass
  terminalClass : TurnFailureErrorClass
  httpStatus : Option Nat
  message : String
  journalMessage : String

def ModelRequestAttemptError.retryable (error : ModelRequestAttemptError) : Bool :=
  error.errorClass = .retryable || error.errorClass = .rateLimited

def ModelRequestAttemptError.fallbackEligible (error : ModelRequestAttemptError) : Bool :=
  error.errorClass = .retryable || error.errorClass = .rateLimited ||
    error.errorClass = .unsupportedCapability

/-- `classify_provider_error`, of what a check of capabilities answers. -/
def classifyProviderError (errorText : ProviderError → String) (error : ProviderError) :
    ModelRequestAttemptError where
  errorClass := .unsupportedCapability
  terminalClass := .runner
  httpStatus := none
  message := errorText error
  journalMessage := "provider request capability unsupported"

/-- `classify_provider_error` of `ProviderError::Cancelled`. -/
def cancelledError : ModelRequestAttemptError where
  errorClass := .cancelled
  terminalClass := .runner
  httpStatus := none
  message := "provider request cancelled"
  journalMessage := "provider request cancelled"

def TerminalTurnFailure.provider (providerId : String) (error : ModelRequestAttemptError)
    (retriesAttempted : Nat) : TerminalTurnFailure where
  errorClass := error.terminalClass
  providerId := some providerId
  httpStatus := error.httpStatus
  message := error.message
  journalMessage := error.journalMessage
  retriesAttempted := retriesAttempted

def requestForEndpoint (request : ProviderRequest) (endpoint : ModelRequestEndpoint) :
    ProviderRequest :=
  { request with
    api := endpoint.api, provider := endpoint.provider, model := endpoint.model
    maxTokens := endpoint.maxTokens }

/-! ### Trying -/

variable {ρ : Type}

/-- What comes of one attempt: the client's answer, its error classified, and whether the turn is
cancelled at the three places that look. -/
structure Attempt (ρ : Type) where
  answer : Except ModelRequestAttemptError ρ
  cancelledBeforeRetry : Bool
  cancelledInDelay : Bool
  cancelledBeforeFallback : Bool

/-- What is the same for every endpoint. -/
structure RequestSetup where
  errorText : ProviderError → String
  policy : ModelRequestRetryPolicy
  mode : ProviderRequestMode
  thinking : Option ThinkingConfig

/-- A request that an endpoint's client was handed. -/
structure SentRequest where
  endpoint : ModelRequestEndpoint
  request : ProviderRequest

/-- How the attempts at one endpoint end. -/
inductive EndpointOutcome (ρ : Type) where
  | answered (request : ProviderRequest) (response : ρ)
  | failed (failure : TerminalTurnFailure)
  | fallBack (retriesAttempted : Nat)

/-- `execute_provider_request_attempt`: the answer, and what was sent for it. -/
def executeProviderRequestAttempt (setup : RequestSetup) (endpoint : ModelRequestEndpoint)
    (request : ProviderRequest) (answer : Except ModelRequestAttemptError ρ) :
    Except ModelRequestAttemptError ρ × List SentRequest :=
  match endpoint.capabilities with
  | some capabilities =>
    match capabilities.validateRequest request setup.thinking setup.mode with
    | .error error => (.error (classifyProviderError setup.errorText error), [])
    | .ok ()       => (answer, [⟨endpoint, request⟩])
  | none => (answer, [⟨endpoint, request⟩])

/-- What an endpoint's last error comes to: the next endpoint, or the failure of the turn. -/
def giveUp (isLast : Bool) (providerId : String) (attempt : Attempt ρ) (retriesAttempted : Nat)
    (error : ModelRequestAttemptError) : EndpointOutcome ρ :=
  if !isLast && error.fallbackEligible && !attempt.cancelledBeforeFallback then
    .fallBack retriesAttempted
  else .failed (.provider providerId error retriesAttempted)

def executeAttempts (setup : RequestSetup) (endpoint : ModelRequestEndpoint)
    (request : ProviderRequest) (isLast : Bool) (attempts : Nat → Attempt ρ) :
    (left attempt retriesAttempted : Nat) → EndpointOutcome ρ × List SentRequest
  | 0, attempt, retriesAttempted =>
    let tried := executeProviderRequestAttempt setup endpoint request (attempts attempt).answer
    match tried.1 with
    | .ok response => (.answered request response, tried.2)
    | .error error =>
      (giveUp isLast request.provider (attempts attempt) retriesAttempted error, tried.2)
  | left + 1, attempt, retriesAttempted =>
    let tried := executeProviderRequestAttempt setup endpoint request (attempts attempt).answer
    match tried.1 with
    | .ok response => (.answered request response, tried.2)
    | .error error =>
      if error.retryable && !(attempts attempt).cancelledBeforeRetry then
        if setup.policy.delayMs attempt > 0 && (attempts attempt).cancelledInDelay then
          (.failed (.provider request.provider cancelledError retriesAttempted), tried.2)
        else
          let later := executeAttempts setup endpoint request isLast attempts left (attempt + 1)
            (retriesAttempted + 1)
          (later.1, tried.2 ++ later.2)
      else (giveUp isLast request.provider (attempts attempt) retriesAttempted error, tried.2)

/-- The endpoints from one on; `attempts` tells what comes of each attempt at each. -/
def executeEndpoints (setup : RequestSetup) (request : ProviderRequest)
    (attempts : Nat → Nat → Attempt ρ) :
    List ModelRequestEndpoint → (index retriesAttempted : Nat) →
      Except TerminalTurnFailure (ProviderRequest × ρ) × List SentRequest
  | [], _, _ => (.error (.fromCode "runtime_execution" "provider request did not run"), [])
  | endpoint :: rest, index, retriesAttempted =>
    let tried := executeAttempts setup endpoint (requestForEndpoint request endpoint) rest.isEmpty
      (attempts index) (setup.policy.attempts - 1) 1 retriesAttempted
    match tried.1 with
    | .answered request response => (.ok (request, response), tried.2)
    | .failed failure            => (.error failure, tried.2)
    | .fallBack retriesAttempted =>
      let later := executeEndpoints setup request attempts rest (index + 1) retriesAttempted
      (later.1, tried.2 ++ later.2)

def executeProviderRequest (setup : RequestSetup) (primary : ModelRequestEndpoint)
    (fallbacks : List ModelRequestEndpoint) (request : ProviderRequest)
    (attempts : Nat → Nat → Attempt ρ) :
    Except TerminalTurnFailure (ProviderRequest × ρ) × List SentRequest :=
  executeEndpoints setup request attempts (primary :: fallbacks) 0 0

/-! ### What is sent -/

variable {retries : Nat} {sent : SentRequest}

section Sent

variable {setup : RequestSetup} {endpoint : ModelRequestEndpoint} {request : ProviderRequest}

/-- What the client declares does not refuse the request. -/
def Takes (setup : RequestSetup) (endpoint : ModelRequestEndpoint) (request : ProviderRequest) : Prop :=
  ∀ capabilities, endpoint.capabilities = some capabilities →
    capabilities.validateRequest request setup.thinking setup.mode = .ok ()

theorem sent_attempt (answer : Except ModelRequestAttemptError ρ) (sent : SentRequest) :
    sent ∈ (executeProviderRequestAttempt setup endpoint request answer).2 ↔
      sent = ⟨endpoint, request⟩ ∧ Takes setup endpoint request := by
  unfold executeProviderRequestAttempt Takes
  cases hcapabilities : endpoint.capabilities with
  | none => simp
  | some capabilities =>
    cases hvalid : capabilities.validateRequest request setup.thinking setup.mode with
    | error error => simp [hvalid]
    | ok => simp [hvalid]

theorem sent_attempts {isLast : Bool} {attempts : Nat → Attempt ρ} {left attempt : Nat}
    (h : sent ∈ (executeAttempts setup endpoint request isLast attempts left attempt retries).2) :
    sent = ⟨endpoint, request⟩ ∧ Takes setup endpoint request := by
  have hnow : sent ∈ (executeProviderRequestAttempt setup endpoint request
      (attempts attempt).answer).2 → sent = ⟨endpoint, request⟩ ∧ Takes setup endpoint request :=
    (sent_attempt _ _).mp
  induction left generalizing attempt retries with
  | zero =>
    simp only [executeAttempts] at h
    split at h <;> exact hnow h
  | succ left ih =>
    simp only [executeAttempts] at h
    split at h
    · exact hnow h
    · split at h
      · split at h
        · exact hnow h
        · rcases List.mem_append.mp h with hsent | hlater
          · exact hnow hsent
          · exact ih hlater ((sent_attempt _ _).mp)
      · exact hnow h

theorem sent_endpoints {endpoints : List ModelRequestEndpoint} {attempts : Nat → Nat → Attempt ρ}
    {index : Nat} (h : sent ∈ (executeEndpoints setup request attempts endpoints index retries).2) :
    sent.endpoint ∈ endpoints ∧ sent.request = requestForEndpoint request sent.endpoint ∧
      Takes setup sent.endpoint sent.request := by
  induction endpoints generalizing index retries with
  | nil => cases h
  | cons endpoint rest ih =>
    have hhere : sent ∈ (executeAttempts setup endpoint (requestForEndpoint request endpoint)
        rest.isEmpty (attempts index) (setup.policy.attempts - 1) 1 retries).2 →
        sent.endpoint ∈ endpoint :: rest ∧
          sent.request = requestForEndpoint request sent.endpoint ∧
          Takes setup sent.endpoint sent.request := by
      intro hsent
      obtain ⟨rfl, htakes⟩ := sent_attempts hsent
      exact ⟨List.mem_cons_self, rfl, htakes⟩
    simp only [executeEndpoints] at h
    split at h
    · exact hhere h
    · exact hhere h
    · rcases List.mem_append.mp h with hnow | hlater
      · exact hhere hnow
      · obtain ⟨hmem, hrest⟩ := ih hlater
        exact ⟨List.mem_cons_of_mem _ hmem, hrest⟩

/-- Where every attempt fails in a way that is not worth another, each endpoint that takes its request
is sent it. -/
theorem sent_of_failing {endpoints : List ModelRequestEndpoint} {attempts : Nat → Nat → Attempt ρ}
    (hfailing : ∀ index attempt, ∃ error : ModelRequestAttemptError,
      (attempts index attempt).answer = .error error ∧ error.errorClass = .unsupportedCapability ∧
      (attempts index attempt).cancelledBeforeFallback = false) {index : Nat}
    {endpoint : ModelRequestEndpoint} (hmem : endpoint ∈ endpoints)
    (htakes : Takes setup endpoint (requestForEndpoint request endpoint)) :
    ⟨endpoint, requestForEndpoint request endpoint⟩ ∈
      (executeEndpoints setup request attempts endpoints index retries).2 := by
  induction endpoints generalizing index retries with
  | nil => cases hmem
  | cons first rest ih =>
    obtain ⟨error, hanswer, hclass, hgoing⟩ := hfailing index 1
    -- whether it is sent or not, the first attempt ends with an error that only a fallback helps
    have htried : ∃ error' : ModelRequestAttemptError, error'.errorClass = .unsupportedCapability ∧
        (executeProviderRequestAttempt setup first (requestForEndpoint request first)
          (attempts index 1).answer).1 = .error error' := by
      unfold executeProviderRequestAttempt
      split
      · split
        · exact ⟨_, rfl, rfl⟩
        · exact ⟨error, hclass, hanswer⟩
      · exact ⟨error, hclass, hanswer⟩
    obtain ⟨error', hclass', htried⟩ := htried
    have hattempts : executeAttempts setup first (requestForEndpoint request first) rest.isEmpty
        (attempts index) (setup.policy.attempts - 1) 1 retries =
        (giveUp rest.isEmpty first.provider (attempts index 1) retries error',
          (executeProviderRequestAttempt setup first (requestForEndpoint request first)
            (attempts index 1).answer).2) := by
      cases setup.policy.attempts - 1 with
      | zero =>
        simp only [executeAttempts, htried]
        rfl
      | succ left =>
        simp only [executeAttempts, htried, ModelRequestAttemptError.retryable, hclass']
        rfl
    simp only [executeEndpoints, hattempts]
    rcases List.mem_cons.mp hmem with rfl | hmem
    · have hsent := (sent_attempt (attempts index 1).answer
        ⟨endpoint, requestForEndpoint request endpoint⟩).mpr ⟨rfl, htakes⟩
      split
      · exact hsent
      · exact hsent
      · exact List.mem_append_left _ hsent
    · have hrest : rest.isEmpty = false := by
        cases rest with
        | nil => cases hmem
        | cons => rfl
      simp only [giveUp, hrest, hgoing, ModelRequestAttemptError.fallbackEligible, hclass']
      exact List.mem_append_right _ (ih hmem)

end Sent

/-! ### Requests made for their endpoints -/

def primaryEndpoint (endpoint : ResolvedTurnEndpoint) (capabilities : Option ProviderCapabilityRecord) :
    ModelRequestEndpoint :=
  ⟨endpoint.api, endpoint.provider, endpoint.model, endpoint.maxTokens, capabilities⟩

/-- The request holds what the endpoint would be shown, had the history been normalized for it. -/
def MadeFor (sent : SentRequest) : Prop :=
  (normalizeHistoryForTarget sent.request.messages sent.endpoint.api sent.endpoint.provider).messages =
    sent.request.messages

section Assembled

variable {φ : Type} (fractionalBudgetLimit : Nat → φ → Nat) (input : AssemblyInput φ)

theorem messages_assembled :
    ∃ history, (assembleRequest fractionalBudgetLimit input).request.messages =
      (normalizeHistoryForTarget history input.endpoint.api input.endpoint.provider).messages := by
  simp only [assembleRequest]
  cases input.endpoint.capabilities with
  | none => exact ⟨_, rfl⟩
  | some policy => exact ⟨_, rfl⟩

theorem madeFor_iff
    (h : sent.request.messages = (assembleRequest fractionalBudgetLimit input).request.messages) :
    MadeFor sent ↔ Fits sent.endpoint.api sent.endpoint.provider
      (assembleRequest fractionalBudgetLimit input).request.messages := by
  obtain ⟨history, hhistory⟩ := messages_assembled fractionalBudgetLimit input
  rw [MadeFor, h, hhistory]
  exact normalize_eq_self_iff (clean_normalize _ _ _)

/-- **When every endpoint gets a request made for it.**  Whatever comes of the attempts, each request
that is sent holds a history as its endpoint would be shown it, exactly if every fallback refuses the
history as it was normalized for the turn's own endpoint or fits it. -/
theorem fallbacks_fit_iff (setup : RequestSetup) (capabilities : Option ProviderCapabilityRecord)
    (fallbacks : List ModelRequestEndpoint) :
    (∀ attempts : Nat → Nat → Attempt ρ, ∀ sent ∈ (executeProviderRequest setup
        (primaryEndpoint input.endpoint capabilities) fallbacks
        (assembleRequest fractionalBudgetLimit input).request attempts).2, MadeFor sent) ↔
      ∀ endpoint ∈ fallbacks,
        Takes setup endpoint (requestForEndpoint
          (assembleRequest fractionalBudgetLimit input).request endpoint) →
        Fits endpoint.api endpoint.provider
          (assembleRequest fractionalBudgetLimit input).request.messages := by
  constructor
  · intro hmade endpoint hmem htakes
    let failing : Nat → Nat → Attempt ρ := fun _ _ =>
      ⟨.error (classifyProviderError setup.errorText (.apiMismatch "" endpoint.api)), false, false,
        false⟩
    have hsent : _ ∈ (executeEndpoints setup (assembleRequest fractionalBudgetLimit input).request
        failing (primaryEndpoint input.endpoint capabilities :: fallbacks) 0 0).2 :=
      sent_of_failing (fun _ _ => ⟨_, rfl, rfl, rfl⟩) (List.mem_cons_of_mem _ hmem) htakes
    exact (madeFor_iff fractionalBudgetLimit input rfl).mp (hmade failing _ hsent)
  · intro hfits attempts sent hsent
    obtain ⟨hmem, hrequest, htakes⟩ := sent_endpoints hsent
    have hmessages : sent.request.messages =
        (assembleRequest fractionalBudgetLimit input).request.messages := by
      rw [hrequest]
      rfl
    rw [madeFor_iff fractionalBudgetLimit input hmessages]
    rcases List.mem_cons.mp hmem with hprimary | hfallback
    · obtain ⟨history, hhistory⟩ := messages_assembled fractionalBudgetLimit input
      rw [hprimary, hhistory]
      exact fits_normalize _ _ _
    · exact hfits _ hfallback (hrequest ▸ htakes)

end Assembled

/-! ### A fallback -/

instance (sent : SentRequest) : Decidable (MadeFor sent) := inferInstanceAs (Decidable (_ = _))

/-- An answer of the turn's own provider, with the thinking it came with. -/
def thoughtfulMessage : CanonicalMessage :=
  .assistant [.thinking "why" .anthropic (.anthropic (some "signature")), .text "done" none]
    .anthropicMessages "anthropic" "model" ⟨0, 0, 0, 0⟩ .endTurn none 0

/-- A turn after that answer. -/
def thoughtfulAssembly : AssemblyInput Unit :=
  sampleAssembly [sampleEntry 1 none (.message thoughtfulMessage),
    sampleEntry 2 (some "turn") (.message (.userTextAt "go on" 0))] none none

def sampleFallback : ModelRequestEndpoint :=
  ⟨.openAIChatCompletions, "fallback", "model", 1024, some (.forApi .openAIChatCompletions)⟩

/-- The first endpoint cannot be reached, the next one answers. -/
def sampleOutage (index : Nat) (_attempt : Nat) : Attempt Unit :=
  ⟨if index = 0 then .error ⟨.retryable, .providerTransport, none, "refused",
    "provider HTTP transport failed"⟩ else .ok (), false, false, false⟩

/-- **A fallback is sent the thinking of another provider.** -/
theorem foreign_thinking_sent :
    ¬∀ sent ∈ (executeProviderRequest ⟨fun _ => "", ⟨1, 0, 0⟩, .complete, none⟩
        (primaryEndpoint thoughtfulAssembly.endpoint (some (.forApi .anthropicMessages)))
        [sampleFallback] (assembleRequest (fun _ _ => 0) thoughtfulAssembly).request sampleOutage).2,
      MadeFor sent := by
  decide

end Verlet.Agent
