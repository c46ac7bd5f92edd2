import Verlet.Agent.RequestAssembly

/-!
# Provider — Capabilities

What the API of a provider can take, and `validate_request`, which refuses what it cannot.  The checks
stand in the source's order, each with its error.

Of a capability record only what the checks read is here, and of a request only what they look at; the
thinking a request asks for stands beside it.
-/

namespace Verlet.Provider
open Support History
open Agent (ProviderRequest)

inductive ProviderRequestMode where
  | complete
  | stream
deriving DecidableEq

inductive ThinkingEffort where
  | low
  | medium
  | high
  | xHigh
  | max
  | other (name : String)

inductive ThinkingConfig where
  | effort (effort : ThinkingEffort)
  | budget (budgetTokens : Nat)
  | disabled

/-- The errors of `validate_request`. -/
inductive ProviderError where
  | apiMismatch (adapter : String) (api : ProviderApi)
  | unsupportedCapability (provider : String) (api : ProviderApi) (capability detail : String)
deriving DecidableEq

structure ProviderCapabilityRecord where
  api : ProviderApi
  providerFamily : String
  supportsTools : Bool
  supportsStreaming : Bool
  supportsReasoning : Bool
  supportsCacheControl : Bool
  supportsImages : Bool
  maxOutputTokens : Option Nat
  /-- `tool_result_constraints.max_content_bytes`. -/
  maxContentBytes : Option Nat

def ProviderCapabilityRecord.localOffline (providerFamily : String) : ProviderCapabilityRecord where
  api := .other providerFamily
  providerFamily := providerFamily
  supportsTools := false
  supportsStreaming := false
  supportsReasoning := false
  supportsCacheControl := false
  supportsImages := false
  maxOutputTokens := some 4096
  maxContentBytes := some 0

def ProviderCapabilityRecord.forApi : ProviderApi → ProviderCapabilityRecord
  | .openAIResponses =>
    { api := .openAIResponses, providerFamily := "openai_responses", supportsTools := true,
      supportsStreaming := true, supportsReasoning := true, supportsCacheControl := false,
      supportsImages := true, maxOutputTokens := none, maxContentBytes := none }
  | .openAIChatCompletions =>
    { api := .openAIChatCompletions, providerFamily := "openai_chat_completions",
      supportsTools := true, supportsStreaming := true, supportsReasoning := true,
      supportsCacheControl := false, supportsImages := false, maxOutputTokens := none,
      maxContentBytes := none }
  | .anthropicMessages =>
    { api := .anthropicMessages, providerFamily := "anthropic_messages", supportsTools := true,
      supportsStreaming := true, supportsReasoning := true, supportsCacheControl := true,
      supportsImages := true, maxOutputTokens := none, maxContentBytes := none }
  | .other providerFamily => .localOffline providerFamily

theorem forApi_capabilities (api : ProviderApi) :
    ReplayCapabilities.forApi api =
      ⟨(ProviderCapabilityRecord.forApi api).supportsImages,
        (ProviderCapabilityRecord.forApi api).supportsCacheControl⟩ := by
  cases api <;> rfl

/-! ### What a request uses -/

def contentUsesCacheControl : CanonicalContent → Bool
  | .text _ cacheControl => cacheControl.isSome
  | .image _ _ | .thinking _ _ _ | .toolCall _ _ _ => false

def messageUsesCacheControl : CanonicalMessage → Bool
  | .user content _ | .assistant content _ _ _ _ _ _ _ => content.any contentUsesCacheControl
  | .toolResult _ _ content _ cacheControl _ =>
    cacheControl.isSome || content.any contentUsesCacheControl

def requestUsesCacheControl (request : ProviderRequest) : Bool :=
  request.system.any (·.cacheControl.isSome) || request.tools.any (·.cacheControl.isSome) ||
    request.messages.any messageUsesCacheControl

def isImage : CanonicalContent → Bool
  | .image _ _ => true
  | .text _ _ | .thinking _ _ _ | .toolCall _ _ _ => false

def showsImage (message : CanonicalMessage) : Bool := (contentOf message).any isImage

def requestUsesImages (request : ProviderRequest) : Bool := request.messages.any showsImage

/-! ### The checks -/

def ProviderCapabilityRecord.unsupported (record : ProviderCapabilityRecord)
    (capability detail : String) : ProviderError :=
  .unsupportedCapability record.providerFamily record.api capability detail

def checkToolResult (record : ProviderCapabilityRecord) (maxContentBytes : Nat)
    (message : CanonicalMessage) : Except ProviderError Unit :=
  match message with
  | .toolResult _ _ content _ _ _ =>
    require (contentTextBytes content ≤ maxContentBytes) (record.unsupported
      "tool_result_constraints" ("tool result content is " ++ toString (contentTextBytes content) ++
        " bytes, limit is " ++ toString maxContentBytes))
  | .user _ _ | .assistant _ _ _ _ _ _ _ _ => .ok ()

/-- The thinking a record without reasoning takes. -/
def asksNoThinking : Option ThinkingConfig → Bool
  | none | some .disabled => true
  | some (.effort _) | some (.budget _) => false

def ProviderCapabilityRecord.validateRequest (record : ProviderCapabilityRecord)
    (request : ProviderRequest) (thinking : Option ThinkingConfig) (mode : ProviderRequestMode) :
    Except ProviderError Unit := do
  require (request.api = record.api) (.apiMismatch "provider_capabilities" request.api)
  require (mode = .stream → record.supportsStreaming)
    (record.unsupported "streaming" "streaming requests are disabled")
  require (record.supportsTools ∨ request.tools = [])
    (record.unsupported "tools" "tool definitions were provided")
  require (record.supportsReasoning ∨ asksNoThinking thinking)
    (record.unsupported "reasoning" "thinking/reasoning was requested")
  require (record.supportsCacheControl ∨ ¬ requestUsesCacheControl request)
    (record.unsupported "cache_control" "cache controls were provided")
  require (record.supportsImages ∨ ¬ requestUsesImages request)
    (record.unsupported "images" "image content was provided")
  record.maxOutputTokens.forM fun maxOutputTokens =>
    require (request.maxTokens ≤ maxOutputTokens) (record.unsupported "max_output_tokens"
      ("requested " ++ toString request.maxTokens ++ ", limit is " ++ toString maxOutputTokens))
  record.maxContentBytes.forM fun maxContentBytes =>
    request.messages.forM (checkToolResult record maxContentBytes)

theorem validateRequest_ok {record : ProviderCapabilityRecord} {request : ProviderRequest}
    {thinking : Option ThinkingConfig} {mode : ProviderRequestMode} :
    record.validateRequest request thinking mode = .ok () ↔
      request.api = record.api ∧
      (mode = .stream → record.supportsStreaming = true) ∧
      (record.supportsTools = true ∨ request.tools = []) ∧
      (record.supportsReasoning = true ∨ asksNoThinking thinking = true) ∧
      (record.supportsCacheControl = true ∨ requestUsesCacheControl request = false) ∧
      (record.supportsImages = true ∨ requestUsesImages request = false) ∧
      (∀ maxOutputTokens, record.maxOutputTokens = some maxOutputTokens →
        request.maxTokens ≤ maxOutputTokens) ∧
      (∀ maxContentBytes, record.maxContentBytes = some maxContentBytes →
        request.messages.forM (checkToolResult record maxContentBytes) = .ok ()) := by
  have hlimit : ∀ (limit : Option Nat) (check : Nat → Except ProviderError Unit),
      limit.forM check = .ok () ↔ ∀ n, limit = some n → check n = .ok () := by
    intro limit check
    cases limit with
    | none => simp [Option.forM, pure, Except.pure]
    | some n => simp [Option.forM]
  simp only [ProviderCapabilityRecord.validateRequest, bind_ok, exists_unit_ok, require_ok, hlimit,
    exists_const, Bool.not_eq_true]

end Verlet.Provider
