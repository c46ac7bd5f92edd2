import Verlet.Agent.AgentLoop.ToolRecords

/-!
# Agent — The agent loop — Tool batches

The calls of one assistant message: `prepare_tool_results` witnesses a request for each, finds out which
of them were requested before, and runs the batch; `append_tool_results` records what came of it.
-/

namespace Verlet.Agent
open Support Kernel History LoopM

variable {φ : Type} (setup : LoopSetup φ)

/-! ### Requests -/

/-- The records of `append_tool_call_requested_events`. -/
def toolRequestRecords (runtime : AgentLoop φ) (coordinates : ThreadCoordinates)
    (turnId snapshotId : String) (assistantEventId : EventRecordId) :
    List ProviderToolCall → LoopM (List NewEventRecord)
  | []            => return []
  | call :: calls => do
    let draw ← ask .draw
    let records ← toolRequestRecords runtime coordinates turnId snapshotId assistantEventId calls
    return toolRequestRecord coordinates (toolRequestPayload setup turnId snapshotId
      (runtime.attachEventIdForToolName call.name) call) assistantEventId draw :: records

def appendToolCallRequestedEvents (runtime : AgentLoop φ) (coordinates : ThreadCoordinates)
    (turnId snapshotId : String) (calls : List ProviderToolCall)
    (assistantEntryId : SessionEntryId) : LoopM (List EventRecord) := do
  let events ← readLoopEvents (.forThread coordinates) none
  match entryEventId assistantEntryId events with
  | none =>
    fail (.history ("assistant session entry " ++ assistantEntryId.uuid.text ++
      " has no durable source event"))
  | some assistantEventId => do
    let records ← toolRequestRecords setup runtime coordinates turnId snapshotId assistantEventId calls
    appendThreadEvents coordinates records

def decodeWitnessedToolHolds (requestEvent : EventRecord) : LoopResult (List ToolHold) :=
  let holds :=
    match requestEvent.payload.asObject.bind fun fields => Json.get? fields "holds" with
    | some holds => holds
    | none       => .arr []
  match Wire.list Wire.toolHold.fromValue holds with
  | .ok holds  => .ok holds
  | .error err => .error (.history ("tool hold payload is invalid: " ++ err))

def witnessToolCall (snapshotId : String) (call : ProviderToolCall) (requestEvent : EventRecord) :
    LoopResult WitnessedToolCall := do
  let holds ← decodeWitnessedToolHolds requestEvent
  let payload ← decodeLoop loopCodec.toolCallRequested "tool.call.requested payload is invalid: "
    requestEvent
  return {
    toolCall := call
    snapshotId := snapshotId
    argsFingerprint := payload.argsFingerprint
    requestEventId := requestEvent.id
    holds := holds
    recoveryAction := .reexecute
    recoverySourceEventId := none
    recoveryFingerprintMismatch := false }

/-! ### Recovery -/

def priorRequests (turnId : String) (call : WitnessedToolCall) (events : List EventRecord) :
    List EventRecord :=
  events.filter fun event =>
    isToolRecord .toolCallRequested turnId call.toolCall.id event ∧ event.id ≠ call.requestEventId

/-- The effect class of a prior request; one whose command was rewritten is at most once. -/
def priorEffectClass (coordinates : ThreadCoordinates) (events : List EventRecord)
    (priorRequestId : EventRecordId) (request : ToolCallRequestedPayload) : LoopM EffectClass := do
  let effectClass ← given (effectClassForRequest setup events request)
  if effectClass ≠ .atMostOnce ∧ request.toolName = bashTool then
    match ← decideLoopToolCall ⟨coordinates, request.subject, request.snapshotId, priorRequestId⟩ with
    | .rewrite _ _ => return .atMostOnce
    | .noDecision | .allow _ | .deny _ _ _ | .wait _ _ _ => return effectClass
  else return effectClass

/-- The loop of `apply_tool_recovery_actions`, at one call. -/
def recoverToolCall (coordinates : ThreadCoordinates) (turnId : String) (events : List EventRecord)
    (call : WitnessedToolCall) : LoopM WitnessedToolCall :=
  match latestEvent (priorRequests turnId call events) with
  | none              => return call
  | some priorRequest => do
    let request ← given (decodeLoop loopCodec.toolCallRequested ("tool.call.requested " ++
      priorRequest.id.uuid.text ++ " payload is invalid during recovery: ") priorRequest)
    let result ← existingToolResultMessage coordinates priorRequest.id call.toolCall.id
      call.snapshotId call.argsFingerprint
    let fingerprintMatches := toolInvocationFingerprintMatches request.snapshotId
      request.argsFingerprint call.snapshotId call.argsFingerprint
    let effectClass ← priorEffectClass setup coordinates events priorRequest.id request
    return { call with
      recoveryAction := toolRecoveryAction effectClass result.isSome fingerprintMatches
      recoverySourceEventId := result.map fun _ => priorRequest.id
      recoveryFingerprintMismatch := !fingerprintMatches }

/-- The loop of `apply_tool_recovery_actions`. -/
def recoverToolCalls (coordinates : ThreadCoordinates) (turnId : String)
    (events : List EventRecord) : List WitnessedToolCall → LoopM (List WitnessedToolCall)
  | []            => return []
  | call :: calls => do
    let call ← recoverToolCall setup coordinates turnId events call
    let calls ← recoverToolCalls coordinates turnId events calls
    return call :: calls

def applyToolRecoveryActions (coordinates : ThreadCoordinates) (turnId : String)
    (calls : List WitnessedToolCall) : LoopM (List WitnessedToolCall) := do
  let events ← readLoopEvents (.forThread coordinates) none
  if calls.any fun call => priorRequests turnId call events ≠ [] then
    recoverToolCalls setup coordinates turnId events calls
  else return calls

/-! ### Preparing a batch -/

inductive PreparedToolBatch where
  | noTools
  | outcomes (outcomes : List (LoopResult PreparedToolCallOutcome))

def duplicateCallId : List ProviderToolCall → List String → Option String
  | [],            _    => none
  | call :: calls, seen =>
    if call.id ∈ seen then some call.id else duplicateCallId calls (call.id :: seen)

/-- The calls of a batch that the router knows, where it does not mind the others. -/
def routedToolCalls (runtime : AgentLoop φ) (calls : List ProviderToolCall) :
    LoopM (List ProviderToolCall) :=
  if runtime.strictToolRouterUnknowns then return calls
  else do
    let (definitions : List ToolDefinition) ← ask .toolDefinitions
    return calls.filter fun call => call.name ∈ definitions.map (·.name)

def planToolCallBatch (calls : List ProviderToolCall) : List (List Nat) :=
  batchWaitEdges (calls.map fun call => deriveToolHolds call.name call.arguments)

/-- `prepare_tool_results`, up to the batch that is run. -/
def witnessToolBatch (runtime : AgentLoop φ) (coordinates : ThreadCoordinates) (turnId : String)
    (calls : List ProviderToolCall) (assistantEntryId : SessionEntryId) :
    LoopM (List WitnessedToolCall) := do
  let active ← activeManifestBindReceipt setup coordinates
  let snapshotId := (active.map fun found => found.2.manifestHash).getD "unbound"
  let requestEvents ← appendToolCallRequestedEvents setup runtime coordinates turnId snapshotId calls
    assistantEntryId
  let witnessed ← given ((calls.zip requestEvents).mapM fun (call, requestEvent) =>
    witnessToolCall snapshotId call requestEvent)
  applyToolRecoveryActions setup coordinates turnId witnessed

def prepareToolResults (runtime : AgentLoop φ) (coordinates : ThreadCoordinates) (turnId : String)
    (calls : List ProviderToolCall) (assistantEntryId : SessionEntryId) : LoopM PreparedToolBatch :=
  if ¬ runtime.hasToolRouter then return .noTools
  else
    match duplicateCallId calls [] with
    | some id =>
      fail (.execution ("duplicate tool call id " ++ debugText id ++ " in one assistant batch"))
    | none => do
      let calls ← routedToolCalls runtime calls
      if calls = [] then return .noTools
      else do
        let witnessed ← witnessToolBatch setup runtime coordinates turnId calls assistantEntryId
        let waitEdges := batchWaitEdges (witnessed.map (·.holds))
        if waitEdges ≠ planToolCallBatch calls then
          fail (.history "witnessed tool holds disagree with the planned batch schedule")
        else do
          let outcomes ← ask (.executeToolCallBatch witnessed waitEdges)
          return .outcomes outcomes

/-! ### Recording a batch -/

inductive ToolAppendOutcome where
  | noTools
  | appendedResults
  | suspended

/-- One outcome, to `append_tool_results`: whether the call waits. -/
def appendPreparedOutcome (fuel : Nat) (coordinates : ThreadCoordinates) (turnId : String) :
    PreparedToolCallOutcome → LoopM Bool
  | .completed callId toolName snapshotId argsFingerprint sourceEventId finishOrder cancellation
      outcome => do
      appendToolExecutionOutcome fuel coordinates ⟨callId, toolName, turnId, snapshotId,
        argsFingerprint, sourceEventId, none, some finishOrder, cancellation⟩ outcome false
      return false
  | .denied callId toolName snapshotId argsFingerprint sourceEventId finishOrder reason => do
    appendDeniedToolResult fuel coordinates ⟨callId, toolName, turnId, snapshotId, argsFingerprint,
      sourceEventId, none, some finishOrder, none⟩ reason
    return false
  | .suspended callId snapshotId waitingOnEventId approvalId reason => do
    appendTurnWaitingEvent coordinates turnId callId snapshotId waitingOnEventId approvalId reason
    return true
  | .abandoned => return false

/-- The loop of `append_tool_results`: whether a call waits, and the first error of a call. -/
def appendOutcomes (fuel : Nat) (coordinates : ThreadCoordinates) (turnId : String) :
    List (LoopResult PreparedToolCallOutcome) → Bool → Option LoopError →
      LoopM (Bool × Option LoopError)
  | [],                      suspended, firstError => return (suspended, firstError)
  | .error error :: outcomes, suspended, firstError =>
    appendOutcomes fuel coordinates turnId outcomes suspended (firstError.or (some error))
  | .ok outcome :: outcomes,  suspended, firstError => do
    let waits ← appendPreparedOutcome fuel coordinates turnId outcome
    appendOutcomes fuel coordinates turnId outcomes (suspended || waits) firstError

def appendToolResults (fuel : Nat) (coordinates : ThreadCoordinates) (turnId : String) :
    PreparedToolBatch → LoopM ToolAppendOutcome
  | .noTools           => return .noTools
  | .outcomes outcomes => do
    match ← appendOutcomes fuel coordinates turnId outcomes false none with
    | (_, some error) => fail error
    | (suspended, none) => return if suspended then .suspended else .appendedResults

def isTurnCompletion (turnId : String) (event : EventRecord) : Bool :=
  event.kind = .toolCallCompleted ∧
    ((event.payload.index "subject").index "turn_id").asStr = some turnId

end Verlet.Agent
