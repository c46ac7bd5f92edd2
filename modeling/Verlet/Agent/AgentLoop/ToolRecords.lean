import Verlet.Agent.AgentLoop

/-!
# Agent — The agent loop — Records of tool calls

What the agent loop writes about the tool calls of a turn, and how it finds it again: the requests of a
batch, each under the event of the assistant message that made it; the results, session entries that name
the request; the completions; and the records of a call that waits for its controller.
-/

namespace Verlet.Agent
open Support Kernel History LoopM

/-- `serde_json` at the payloads of the control stream. -/
def loopCodec : ControlCodec := .wire fun _ => none

/-- `serde_json::from_value`, a failure under the given text. -/
def decodeLoop {α : Type} (serde : Serde α) (text : String) (event : EventRecord) : LoopResult α :=
  orLoop (decodeOr serde event text)

/-! ### Effect classes -/

def toolRecoveryAction (effectClass : EffectClass) (outcomeExists fingerprintMatches : Bool) :
    ToolRecoveryAction :=
  if outcomeExists ∧ fingerprintMatches then .reuse
  else if effectClass = .atMostOnce then .conservativeFailure
  else .reexecute

def toolInvocationFingerprintMatches (recordedSnapshotId : String)
    (recordedFingerprint : Option String) (currentSnapshotId : String)
    (currentFingerprint : Option String) : Bool :=
  recordedSnapshotId = currentSnapshotId ∧ recordedFingerprint = currentFingerprint

/-- `Iterator::max`, of effect classes. -/
def EffectClass.max : EffectClass → EffectClass → EffectClass
  | .atMostOnce, _ | _, .atMostOnce => .atMostOnce
  | .idempotent, _ | _, .idempotent => .idempotent
  | .pure, .pure                    => .pure

/-- A character that makes a command more than a simple one. -/
def isShellSyntax (c : Char) : Bool :=
  c.toNat < 0x20 ∨ (0x7F ≤ c.toNat ∧ c.toNat ≤ 0x9F) ∨
    c ∈ [';', '&', '|', '<', '>', '$', Char.ofNat 0x60, '\\', Char.ofNat 0x27, '"', '(', ')',
      Char.ofNat 0x7B, Char.ofNat 0x7D]

def exactSingleBashOperationName (command : String) : Option String :=
  if command.toList.any isShellSyntax then none
  else
    match (command.toList.splitOnP History.isWhitespace).filter (· ≠ []) with
    | []        => none
    | word :: _ => if '=' ∈ word then none else some (String.ofList word)

def bashTool : String := "bash"

/-- The operation that a call runs, where it is known. -/
def operationNameOf (toolName : String) (arguments : Json) : Option String :=
  if toolName = bashTool then (arguments.index "command").asStr.bind exactSingleBashOperationName
  else some toolName

def effectClassFromBindReceipt (receipt : ManifestBindReceipt) (toolName : String)
    (arguments : Json) : EffectClass :=
  let named (tool : BoundTool) : Bool := tool.toolName = toolName
  match (receipt.operationBindings.flatMap (·.directTools)).find? named with
  | some tool => tool.effectClass
  | none      =>
    match receipt.toolUniverses.flatten.find? named with
    | some tool => tool.effectClass
    | none      =>
      let classes := (operationNameOf toolName arguments).toList.flatMap fun operationName =>
        (receipt.operationBindings.filter fun binding => operationName ∈ binding.operations).map
          (·.effectClass)
      match classes with
      | [] => .atMostOnce
      | first :: rest => rest.foldl EffectClass.max first

variable {φ : Type} (setup : LoopSetup φ)

def decodeManifestBindReceiptEvent (event : EventRecord) : LoopResult ManifestBindReceipt :=
  match setup.bindReceipt event.payload with
  | .ok receipt => .ok receipt
  | .error err  =>
    .error (.history ("manifest.bind.completed receipt " ++ event.id.uuid.text ++ " for thread " ++
      event.coordinates.threadId.uuid.text ++ " is invalid: " ++ err))

def checkBindReceipt (event : EventRecord) : LoopResult Unit := do
  let receipt ← decodeManifestBindReceiptEvent setup event
  if receipt.operationBindings.isEmpty then return ()
  else
    throw (.history ("thread " ++ event.coordinates.threadId.uuid.text ++
      " has manifest bind receipt " ++ event.id.uuid.text ++
      " declaring operation bindings but no binding events; start a new thread"))

def validateManifestBindingEventContract (events : List EventRecord) : LoopResult Unit :=
  if events.any fun event => event.kind = .bindingAttached ∨ event.kind = .bindingDetached then .ok ()
  else (events.filter fun event => event.kind = .manifestBindCompleted).forM (checkBindReceipt setup)

def bindEventOf (snapshotId : String) (events : List EventRecord) : Option EventRecord :=
  events.reverse.find? fun event => event.kind = .manifestBindCompleted ∧
    (event.payload.index "manifest_hash").asStr = some snapshotId

def effectClassForRequest (events : List EventRecord) (request : ToolCallRequestedPayload) :
    LoopResult EffectClass := do
  validateManifestBindingEventContract setup events
  match bindEventOf request.snapshotId events with
  | none       => return .atMostOnce
  | some event => do
    let receipt ← decodeManifestBindReceiptEvent setup event
    return effectClassFromBindReceipt receipt request.toolName request.arguments

variable (coordinates : ThreadCoordinates)

def activeManifestBindReceipt : LoopM (Option (EventRecordId × ManifestBindReceipt)) := do
  let events ← readLoopEvents (.forThread coordinates) none
  given (validateManifestBindingEventContract setup events)
  match latestEvent (events.filter fun event => event.kind = .manifestBindCompleted) with
  | none       => return none
  | some event => do
    let receipt ← given (decodeManifestBindReceiptEvent setup event)
    return some (event.id, receipt)

/-- `decide_tool_call`. -/
def decideLoopToolCall (request : ToolDecisionRequest) : LoopM ToolCallDecision := do
  let controlEvents ← readLoopEvents (controlStreamId request.coordinates) none
  return toolCallDecision loopCodec request controlEvents

/-! ### Requests -/

def argsFingerprint (toolName : String) (arguments : Json) : String :=
  setup.sha256Json (Wire.object [("arguments", arguments), ("tool_name", .str toolName)])

/-- The payload of a request, with the tool under a second key. -/
def toolRequestValue (payload : ToolCallRequestedPayload) : Json :=
  match loopCodec.toolCallRequested.toValue payload with
  | .obj fields => .obj (Json.insertField "tool" (.str payload.toolName) fields)
  | value       => value

def toolRequestPayload (turnId snapshotId : String) (attachEventId : Option EventRecordId)
    (call : ProviderToolCall) : ToolCallRequestedPayload where
  subject := ⟨turnId, call.id⟩
  snapshotId := snapshotId
  toolName := call.name
  arguments := call.arguments
  attachEventId := attachEventId
  argsFingerprint := some (argsFingerprint setup call.name call.arguments)
  holds := (deriveToolHolds call.name call.arguments).map Wire.toolHold.toValue

def toolRequestRecord (payload : ToolCallRequestedPayload)
    (assistantEventId : EventRecordId) (draw : Draw) : NewEventRecord :=
  .discharged draw coordinates .toolCallRequested (toolRequestValue payload)
    (loopProvenance [.forThread coordinates] [assistantEventId] "propagator:agent-loop"
      "tool_request/v1")

def isToolRecord (kind : EventKind) (turnId callId : String) (event : EventRecord) : Bool :=
  event.kind = kind ∧ ((event.payload.index "subject").index "turn_id").asStr = some turnId ∧
    ((event.payload.index "subject").index "call_id").asStr = some callId

/-! ### Finding them again -/

/-- What `session_entry_event_id` finds. -/
def entryEventId (entryId : SessionEntryId) (events : List EventRecord) : Option EventRecordId :=
  (events.find? fun event => event.kind = .sessionEntryAppended ∧
    (event.payload.index "entry_id").asStr = some entryId.uuid.text).map (·.id)

def entriesFrom (sourceEventId : EventRecordId) (events : List EventRecord) : List String :=
  (events.filter fun event => event.kind = .sessionEntryAppended ∧
    sourceEventId ∈ event.provenance.sourceEventIds).filterMap fun event =>
      (event.payload.index "entry_id").asStr

def toolResultOf (entryIds : List String) (callId : String) (entry : SessionEntry) :
    Option CanonicalMessage :=
  if entry.entryId.uuid.text ∉ entryIds then none
  else
    match entry.kind with
    | .message (.toolResult toolCallId toolName content isError cacheControl timestampMs) =>
      if toolCallId = callId then
        some (.toolResult toolCallId toolName content isError cacheControl timestampMs)
      else none
    | .message (.user _ _) | .message (.assistant _ _ _ _ _ _ _ _)
    | .modelChange _ _ _ | .compaction _ | .branchSummary _ | .runtime _ _
    | .customContextMessage _ => none

def existingToolResultMessage (sourceEventId : EventRecordId)
    (callId expectedSnapshotId : String) (expectedFingerprint : Option String) :
    LoopM (Option CanonicalMessage) := do
  let events ← readLoopEvents (.forThread coordinates) none
  match events.find? fun event => event.id = sourceEventId ∧ event.kind = .toolCallRequested with
  | none              => return none
  | some requestEvent => do
    let request ← given (decodeLoop loopCodec.toolCallRequested ("tool.call.requested " ++
      requestEvent.id.uuid.text ++ " payload is invalid while reusing a result: ") requestEvent)
    if ¬ toolInvocationFingerprintMatches request.snapshotId request.argsFingerprint
        expectedSnapshotId expectedFingerprint then
      return none
    else if entriesFrom sourceEventId events = [] then return none
    else do
      let answer ← ask (.buildContext coordinates)
      let context ← given (orLoop (orHistory answer))
      return context.entries.findSome? (toolResultOf (entriesFrom sourceEventId events) callId)

/-- The scan for a completion of the subject with the snapshot and the fingerprint. -/
def completionExists (subject : ToolCallSubject) (snapshotId : String) (fingerprint : Option String) :
    List EventRecord → LoopResult Bool
  | []              => .ok false
  | event :: events =>
    if ¬ isToolRecord .toolCallCompleted subject.turnId subject.callId event then
      completionExists subject snapshotId fingerprint events
    else do
      let payload ← decodeLoop loopCodec.toolCallCompleted ("tool.call.completed " ++
        event.id.uuid.text ++ " payload is invalid: ") event
      if payload.snapshotId = snapshotId ∧ payload.argsFingerprint = fingerprint then return true
      else completionExists subject snapshotId fingerprint events

/-! ### Results and completions -/

/-- The record of `append_tool_completion_event`. -/
def toolCompletionRecord (payload : ToolCallCompletedPayload) (draw : Draw) : NewEventRecord :=
  .witnessed draw coordinates .toolCallCompleted (loopCodec.toolCallCompleted.toValue payload)

def appendToolCompletionEvent (coordinates : ThreadCoordinates) (payload : ToolCallCompletedPayload)
    (draw : Draw) : Nat → LoopM Unit
  | 0        => throw .stillRunning
  | fuel + 1 => do
    let existing ← readLoopEvents (.forThread coordinates) none
    if ← given (completionExists payload.subject payload.snapshotId payload.argsFingerprint
        existing) then
      return ()
    else do
      let answer ← ask (.appendEventsFenced (.forThread coordinates) (nextSequence existing)
        [toolCompletionRecord coordinates payload draw])
      match answer with
      | .ok _ => return ()
      | .error (.appendFenceConflict ..) => appendToolCompletionEvent coordinates payload draw fuel
      | .error error => fail (.kernel (.history (.store error)))

/-- `!is_error`, of a result. -/
def succeeded : CanonicalMessage → Bool
  | .toolResult _ _ _ isError _ _ => !isError
  | .user _ _ | .assistant _ _ _ _ _ _ _ _ => false

structure ToolCallRecord where
  callId : String
  toolName : String
  turnId : String
  snapshotId : String
  argsFingerprint : Option String
  sourceEventId : EventRecordId
  durationMs : Option Nat
  finishOrder : Option Nat
  cancellation : Option ToolCallCancellation

def ToolCallRecord.completion (record : ToolCallRecord) (result : CanonicalMessage) :
    ToolCallCompletedPayload where
  subject := ⟨record.turnId, record.callId⟩
  snapshotId := record.snapshotId
  toolName := record.toolName
  success := succeeded result
  argsFingerprint := record.argsFingerprint
  durationMs := record.durationMs
  finishOrder := record.finishOrder
  cancellation := record.cancellation

def appendToolResultMessage (fuel : Nat) (coordinates : ThreadCoordinates) (record : ToolCallRecord)
    (result : CanonicalMessage) (idempotentResultAppend : Bool) : LoopM Unit := do
  let existing ←
    if idempotentResultAppend then
      existingToolResultMessage coordinates record.sourceEventId record.callId record.snapshotId
        record.argsFingerprint
    else pure none
  match existing with
  | some existing => do
    let draw ← ask .draw
    appendToolCompletionEvent coordinates (record.completion existing) draw fuel
  | none => do
    let _ ← appendAgentLoopSessionEntry coordinates (.message result) [record.sourceEventId]
    let draw ← ask .draw
    appendToolCompletionEvent coordinates (record.completion result) draw fuel

def appendToolExecutionOutcome (fuel : Nat) (coordinates : ThreadCoordinates)
    (record : ToolCallRecord) (outcome : ToolExecutionOutcome) (idempotentResultAppend : Bool) :
    LoopM Unit := do
  appendHookContexts coordinates outcome.preModelContexts
  appendToolResultMessage fuel coordinates { record with durationMs := some outcome.durationMs }
    outcome.result idempotentResultAppend
  appendHookContexts coordinates outcome.postModelContexts

/-- `CanonicalMessage::tool_result`. -/
def toolResultMessage (toolCallId toolName content : String) (isError : Bool) (timestampMs : Int) :
    CanonicalMessage :=
  .toolResult toolCallId toolName [.text content none] isError none timestampMs

def appendDeniedToolResult (fuel : Nat) (coordinates : ThreadCoordinates) (record : ToolCallRecord)
    (reason : String) : LoopM Unit := do
  let timestampMs ← ask .nowMs
  appendToolResultMessage fuel coordinates { record with durationMs := some 0 }
    (toolResultMessage record.callId record.toolName reason true timestampMs) false

/-! ### Waiting and resuming -/

/-- The record of `append_turn_waiting_event`. -/
def turnWaitingRecord (turnId callId snapshotId : String)
    (waitingOnEventId : EventRecordId) (approvalId reason : Option String) (draw : Draw) :
    NewEventRecord :=
  .discharged draw coordinates .turnWaiting
    (Wire.object [("turn_id", .str turnId),
      ("subject", Wire.object [("turn_id", .str turnId), ("call_id", .str callId)]),
      ("snapshot_id", .str snapshotId), ("waiting_on_event_id", .str waitingOnEventId.uuid.text),
      ("approval_id", .ofOption id approvalId), ("reason", .ofOption id reason),
      ("continuation", .str "tool.call")])
    (loopProvenance [controlStreamId coordinates] [waitingOnEventId] "scheduler:tool-decision"
      "tool_wait/v1")

def appendTurnWaitingEvent (turnId callId snapshotId : String)
    (waitingOnEventId : EventRecordId) (approvalId reason : Option String) : LoopM Unit := do
  let draw ← ask .draw
  let _ ← appendLoopEvent (controlStreamId coordinates)
    (turnWaitingRecord coordinates turnId callId snapshotId waitingOnEventId approvalId reason draw)
  return ()

end Verlet.Agent
