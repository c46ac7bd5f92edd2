import Verlet.Provider.Transform
import Verlet.Agent.ContextCompiler

/-!
# Agent — The assembly of a request

The assembly in `AgentLoop::run_turn`: a tool result that came late is put before the turn input that
overtook it, the entries are compiled, and the messages are fitted to the provider of the turn.

What the assembly only hands on (the temperature and the thinking of a request) is left out.
-/

namespace Verlet.Agent
open Support History Provider

/-! ### Late tool results -/

/-- The calls a `Message` entry issues. -/
def issuedBy (entry : SessionEntry) : List String :=
  match entry.kind with
  | .message message => callIds message
  | .modelChange _ _ _ | .compaction _ | .branchSummary _ | .runtime _ _
  | .customContextMessage _ => []

/-- The call a `Message` entry answers. -/
def answeredBy (entry : SessionEntry) : Option String :=
  match entry.kind with
  | .message message => answeredId message
  | .modelChange _ _ _ | .compaction _ | .branchSummary _ | .runtime _ _
  | .customContextMessage _ => none

def isCompaction (entry : SessionEntry) : Bool :=
  match entry.kind with
  | .compaction _ => true
  | .message _ | .modelChange _ _ _ | .branchSummary _ | .runtime _ _
  | .customContextMessage _ => false

def isTurnInput (entry : SessionEntry) : Bool :=
  match entry.kind with
  | .message (.user _ _) => entry.turnId.isSome
  | .message (.assistant _ _ _ _ _ _ _ _) | .message (.toolResult _ _ _ _ _ _)
  | .modelChange _ _ _ | .compaction _ | .branchSummary _ | .runtime _ _
  | .customContextMessage _ => false

variable (entries : List SessionEntry)

/-- The calls with the places of their entries, in order. -/
def entryIssues : List (String × Nat) :=
  entries.zipIdx.flatMap fun (entry, index) => (issuedBy entry).map (·, index)

/-- `entry(id).and_modify(|issuer| *issuer = None).or_insert(Some(index))`. -/
def noteIssuer (issuers : Map String (Option Nat)) (issue : String × Nat) : Map String (Option Nat) :=
  match issuers.lookup issue.1 with
  | some _ => issuers.insert issue.1 none
  | none   => issuers.insert issue.1 (some issue.2)

/-- `issuer_by_call_id`: where a call was issued, and nothing where it was issued twice. -/
def issuerByCallId : Map String (Option Nat) :=
  (entryIssues entries).foldl noteIssuer ∅

def turnInputOvertaking (resultIndex : Nat) : Option Nat := do
  let id ← entries[resultIndex]?.bind answeredBy
  let issuerIndex ← ((issuerByCallId entries).lookup id).join
  if resultIndex ≤ issuerIndex ||
      ((entries.take resultIndex).drop (issuerIndex + 1)).any isCompaction then none
  else
    (List.range' (issuerIndex + 1) (resultIndex - (issuerIndex + 1))).find? fun index =>
      (entries[index]?.map isTurnInput).getD false

/-- The entries at a place afterwards: the results put before it, and its own unless it was moved. -/
def entriesAtPlace (index : Nat) : List SessionEntry :=
  (((List.range entries.length).filter fun resultIndex =>
      turnInputOvertaking entries resultIndex = some index).filterMap fun resultIndex =>
    entries[resultIndex]?) ++
  if (turnInputOvertaking entries index).isSome then [] else entries[index]?.toList

def reattachLateToolResultEntries : List SessionEntry :=
  if (List.range entries.length).all fun index => (turnInputOvertaking entries index).isNone then
    entries
  else (List.range entries.length).flatMap (entriesAtPlace entries)

/-! ### The request -/

/-- `IntraTurnSteeringContext`: a steer that is shown as a context of its own. -/
structure IntraTurnSteeringContext where
  entryId : SessionEntryId
  context : String

/-- The endpoint of a turn, with the context policy its client declares, if any. -/
structure ResolvedTurnEndpoint where
  api : ProviderApi
  provider : String
  model : String
  maxTokens : Nat
  capabilities : Option ProviderContextPolicy

structure ProviderRequest where
  api : ProviderApi
  provider : String
  model : String
  system : List SystemBlock
  messages : List CanonicalMessage
  tools : List ToolDefinition
  maxTokens : Nat

/-- What `run_turn` has at hand for a request. -/
structure AssemblyInput (φ : Type) where
  sessionEntries : List SessionEntry
  steeringContexts : List IntraTurnSteeringContext
  turnContext : TurnContextSnapshot
  turnAnchorTimestampMs : Int
  skillContexts : List String
  memoryContexts : List String
  instructionContexts : List String
  staticContextSegments : List (StaticContextSegment φ)
  system : List SystemBlock
  tools : List ToolDefinition
  contextCompilePolicy : AgentContextCompilePolicy
  endpoint : ResolvedTurnEndpoint

/-- The request, and what its receipt says of the way there. -/
structure AssembledRequest where
  request : ProviderRequest
  compiledContext : CompiledAgentContext
  replayTransform : ReplayTransformCounts
  providerDroppedMessages : Nat
  providerTruncatedTextBytes : Nat
  providerRetainedTextBytes : Nat

variable {φ : Type} (fractionalBudgetLimit : Nat → φ → Nat)

/-- The entries that are compiled: without the steers that are shown on their own. -/
def assemblySessionEntries (sessionEntries : List SessionEntry)
    (steeringContexts : List IntraTurnSteeringContext) : List SessionEntry :=
  reattachLateToolResultEntries (sessionEntries.filter fun entry =>
    entry.entryId ∉ steeringContexts.map (·.entryId))

def compiledContext (input : AssemblyInput φ) : CompiledAgentContext :=
  compile fractionalBudgetLimit
    { system := input.system
      staticSystemSources := input.staticContextSegments
      sessionEntries := assemblySessionEntries input.sessionEntries input.steeringContexts
      turnAnchorTimestampMs := input.turnAnchorTimestampMs
      turnContext := input.turnContext
      hookContexts := input.steeringContexts.map (·.context)
      environmentContexts := input.skillContexts ++ input.memoryContexts ++ input.instructionContexts
      attachments := []
      tools := input.tools
      policy := input.contextCompilePolicy }

/-- `run_turn`, from the entries it read to the request it sends. -/
def assembleRequest (input : AssemblyInput φ) : AssembledRequest :=
  let compiled := compiledContext fractionalBudgetLimit input
  let endpoint := input.endpoint
  let normalized := normalizeHistoryForTarget compiled.messages endpoint.api endpoint.provider
  let request (messages : List CanonicalMessage) : ProviderRequest :=
    { api := endpoint.api, provider := endpoint.provider, model := endpoint.model
      system := compiled.system, messages, tools := compiled.tools, maxTokens := endpoint.maxTokens }
  match endpoint.capabilities with
  | none =>
    { request := request normalized.messages
      compiledContext := compiled
      replayTransform := normalized.counts
      providerDroppedMessages := 0
      providerTruncatedTextBytes := 0
      providerRetainedTextBytes := compiled.diagnostics.retainedTextBytes }
  | some policy =>
    let compilation := compileProviderContext normalized.messages policy
    let again := normalizeHistoryForTarget compilation.messages endpoint.api endpoint.provider
    { request := request again.messages
      compiledContext := compiled
      replayTransform := normalized.counts + again.counts
      providerDroppedMessages := compilation.droppedMessages
      providerTruncatedTextBytes := compilation.truncatedTextBytes
      providerRetainedTextBytes := compilation.retainedTextBytes }

end Verlet.Agent
