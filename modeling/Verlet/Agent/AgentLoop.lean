import Verlet.Kernel.FencedStore
import Verlet.Kernel.RuntimeHost.ThreadContexts
import Verlet.Kernel.RuntimeHost.TurnReservations
import Verlet.Agent.RequestAssembly
import Verlet.Agent.ToolHolds

/-!
# Agent — The agent loop

`agent_loop`: the task of a thread that runs its turns.  A turn works on the thread's stream and on the
session entries of the thread, hands requests to a provider and tool calls to their router, and listens
to the commands of the thread while it waits.  Here are its calls, the records that say how a turn ended,
and the `thread.joined` that tells the parent of a spawned thread.

What it broadcasts (`events.send`, `emit_runtime_event`) and the status that it sends are left out.

* `appendTurnCompletedEvent`, `failTurn`: the two records that may end a turn.
* `appendTerminalJoinUntilRecorded`: the join, tried until it stands.
-/

namespace Verlet.Agent
open Support Kernel History
open RemoteStore (VerletError VerletResult)

/-! ### Errors -/

/-- `VerletError`, with what a turn fails with. -/
inductive LoopError where
  | kernel (error : VerletError)
  | runtimeFactory (text : String)

abbrev LoopResult (α : Type) := Except LoopError α

/-- A result of the kernel's, to a turn. -/
def orLoop {α : Type} : VerletResult α → LoopResult α
  | .ok a        => .ok a
  | .error error => .error (.kernel error)

/-- `VerletError::History(format!(..))`. -/
def LoopError.history (text : String) : LoopError := .kernel (historyText text)

/-- `VerletError::RuntimeExecution(..)`. -/
def LoopError.execution (text : String) : LoopError := .kernel (.runtimeExecution text)

/-! ### Tool calls -/

structure ProviderToolCall where
  id : String
  name : String
  arguments : Json

def toolCallsFromMessage : CanonicalMessage → List ProviderToolCall
  | .assistant content _ _ _ _ _ _ _ => content.filterMap fun
      | .toolCall id name arguments => some ⟨id, name, arguments⟩
      | .text _ _ | .image _ _ | .thinking _ _ _ => none
  | .user _ _ | .toolResult _ _ _ _ _ _ => []

inductive ToolRecoveryAction where
  | reuse
  | reexecute
  | conservativeFailure

structure WitnessedToolCall where
  toolCall : ProviderToolCall
  snapshotId : String
  argsFingerprint : Option String
  requestEventId : EventRecordId
  holds : List ToolHold
  recoveryAction : ToolRecoveryAction
  recoverySourceEventId : Option EventRecordId
  recoveryFingerprintMismatch : Bool

/-- `HookMutationWitness`, as it is observed. -/
structure HookMutationWitness where
  payload : Json

/-- `ToolExecutionOutcome`, as far as it is recorded. -/
structure ToolExecutionOutcome where
  result : CanonicalMessage
  preModelContexts : List String
  postModelContexts : List String
  durationMs : Nat

inductive PreparedToolCallOutcome where
  | completed (callId toolName snapshotId : String) (argsFingerprint : Option String)
      (sourceEventId : EventRecordId) (finishOrder : Nat) (cancellation : Option ToolCallCancellation)
      (outcome : ToolExecutionOutcome)
  | denied (callId toolName snapshotId : String) (argsFingerprint : Option String)
      (sourceEventId : EventRecordId) (finishOrder : Nat) (reason : String)
  | suspended (callId snapshotId : String) (waitingOnEventId : EventRecordId)
      (approvalId reason : Option String)
  | abandoned

/-! ### Turns -/

/-- `EffectClass`, in its order. -/
inductive EffectClass where
  | pure
  | idempotent
  | atMostOnce
deriving DecidableEq

/-- A tool of a bind receipt, under its name. -/
structure BoundTool where
  toolName : String
  effectClass : EffectClass

/-- An operation binding of a bind receipt, as far as a tool call reads it. -/
structure OperationBinding where
  operations : List String
  effectClass : EffectClass
  directTools : List BoundTool

/-- `AgentManifestCouplingBinding`, as far as a tool call reads it. -/
structure CouplingBinding where
  id : String
  isController : Bool
  triggerKind : String
  sinkStream : String
  sinkKinds : List String
  triggerMatch : List (String × Json)

/-- `AgentManifestBindReceipt`, as far as a turn reads it. -/
structure ManifestBindReceipt where
  manifestHash : String
  operationBindings : List OperationBinding
  toolUniverses : List (List BoundTool)
  couplings : List CouplingBinding
  cancellationGraceMs : Option Nat

abbrev TurnInput := Kernel.TurnInput (List CanonicalContent)

inductive CompactionTrigger where
  | manual
  | auto

inductive ThreadCommand where
  | submit (command : Submit (List CanonicalContent))
  | compact (turnId : String) (trigger : CompactionTrigger) (summary : Option String)
  | resumeToolCall (turnId callId : String)
  | cancel (reason : String)
  | cancelTurn (watchdogTokenId : Nat) (reason : String)
  | shutdown

/-- What may come while a turn awaits something: its runtime is cancelled, or `commands.recv()` answers,
with nothing where the channel is closed. -/
inductive Interruption where
  | runtimeCancelled
  | command (command : Option ThreadCommand)

/-- What `try_recv` answers. -/
inductive TryRecv where
  | received (command : ThreadCommand)
  | empty
  | disconnected

inductive TurnFailureErrorClass where
  | providerHttp
  | providerTransport
  | runner
  | internal

structure TerminalTurnFailure where
  errorClass : TurnFailureErrorClass
  providerId : Option String
  httpStatus : Option Nat
  message : String
  journalMessage : String
  retriesAttempted : Nat

inductive ThreadTerminalState where
  | completed
  | failed
  | cancelled
  | budgetExhausted
deriving DecidableEq

/-- The outcome of a hook, as far as a turn reads it. -/
structure HookOutcome where
  mutationWitnesses : List HookMutationWitness
  additionalContexts : List String
  shouldStop : Bool

/-! ### Calls -/

inductive LoopCall where
  | readEvents (streamId : EventStreamId) (after : Option EventSequence)
  | appendEvents (streamId : EventStreamId) (records : List NewEventRecord)
  | appendEventsFenced (streamId : EventStreamId) (expected : EventSequence)
      (records : List NewEventRecord)
  /-- `append` or `append_with_provenance`, of an entry under the active leaf. -/
  | append (coordinates : ThreadCoordinates) (kind : SessionEntryKind)
      (provenance : Option EventProvenance)
  | appendTurnInput (coordinates : ThreadCoordinates) (turnId : String) (kind : SessionEntryKind)
  | buildContext (coordinates : ThreadCoordinates)
  | appendObservation (coordinates : ThreadCoordinates) (kind : String) (payload : Json)
  /-- The ids and the time of a record that is made. -/
  | draw
  /-- `unix_timestamp_ms`. -/
  | nowMs
  /-- `turn_cancellation.cancel()`. -/
  | cancelTurn
  /-- `run_bound_couplings`. -/
  | runBoundCouplings (appended : List EventRecord)
  /-- What comes while an await is pending, in the order in which it is taken up. -/
  | interruptions
  /-- `commands.len()`. -/
  | commandCount
  /-- `commands.is_closed()`. -/
  | commandsClosed
  | tryRecv
  | runUserPromptSubmit (turnId : String) (prompt : List CanonicalContent)
  | runStop (turnId : String) (lastAssistantMessage : Option String)
  | buildRecallReadPlanContexts (coordinates : ThreadCoordinates)
  | buildInstructionReadPlanContexts (coordinates : ThreadCoordinates)
  /-- `context_source_ranges`. -/
  | contextSourceRanges (sourceCuts : List SessionContextSourceCut)
  /-- `tool_definitions` of the router. -/
  | toolDefinitions
  /-- `execute_provider_request`. -/
  | executeProviderRequest (request : ProviderRequest)
  /-- `execute_tool_call_batch`. -/
  | executeToolCallBatch (calls : List WitnessedToolCall) (waitEdges : List (List Nat))
  /-- `execute_with_witnessing_cancellable`: the call is handed to the interceptor. -/
  | executeToolCall (turnId callId toolName : String) (arguments : Json)
  /-- `finish_counter.fetch_add(1)`. -/
  | finishOrder

def LoopCall.Reply : LoopCall → Type
  | .readEvents ..                      => HistoryResult (List EventRecord)
  | .appendEvents ..                    => HistoryResult (List EventRecord)
  | .appendEventsFenced ..              => HistoryResult (List EventRecord)
  | .append ..                          => HistoryResult SessionEntry
  | .appendTurnInput ..                 => HistoryResult SessionEntry
  | .buildContext _                     => HistoryResult SessionContext
  | .appendObservation ..               => HistoryResult Unit
  | .draw                               => Draw
  | .nowMs                              => Int
  | .cancelTurn                         => Unit
  | .runBoundCouplings _                => LoopResult Unit
  | .interruptions                      => List Interruption
  | .commandCount                       => Nat
  | .commandsClosed                     => Bool
  | .tryRecv                            => TryRecv
  | .runUserPromptSubmit ..             => HookOutcome
  | .runStop ..                         => HookOutcome
  | .buildRecallReadPlanContexts _      => LoopResult (List String)
  | .buildInstructionReadPlanContexts _ => LoopResult (List String)
  | .contextSourceRanges _              => LoopResult (List ObservationSourceRange)
  | .toolDefinitions                    => List ToolDefinition
  | .executeProviderRequest _           => Except TerminalTurnFailure CanonicalMessage
  | .executeToolCallBatch ..            => List (LoopResult PreparedToolCallOutcome)
  | .executeToolCall ..                 => LoopResult ToolExecutionOutcome
  | .finishOrder                        => Nat

/-- How a program ends that does not succeed: it fails, or one of its loops is still running. -/
inductive LoopStop where
  | failed (error : LoopError)
  | stillRunning

abbrev LoopProc (α : Type) := Proc LoopCall LoopCall.Reply α

abbrev LoopM (α : Type) := ExceptT LoopStop (Proc LoopCall LoopCall.Reply) α

namespace LoopM

def ask (call : LoopCall) : LoopM call.Reply := Proc.await call

def given {α : Type} (result : LoopResult α) : LoopM α :=
  Proc.settle (result.mapError .failed)

def fail {α : Type} (error : LoopError) : LoopM α := throw (.failed error)

/-- `match p.await`: what the program comes to, a failure included. -/
def attempt {α : Type} (p : LoopM α) : LoopM (LoopResult α) :=
  ExceptT.mk do
    match ← p.run with
    | .ok a                  => return .ok (.ok a)
    | .error (.failed error) => return .ok (.error error)
    | .error .stillRunning   => return .error .stillRunning

end LoopM

open LoopM

/-! ### What a turn is given -/

/-- What a turn is run with, and the code that it calls. -/
structure LoopSetup (φ : Type) where
  /-- `Display` of an error. -/
  errorText : LoopError → String
  /-- `sha256_hex`, of what `serde_json` writes. -/
  sha256Json : Json → String
  /-- `serde_json` at a bind receipt. -/
  bindReceipt : Json → Except String ManifestBindReceipt
  /-- `serde_json` at what a receipt says of a compiled context. -/
  diagnosticsJson : AssembledRequest → Json
  replayTransformJson : AssembledRequest → Json
  messagesJson : List CanonicalMessage → Json
  segmentJson : StaticContextSegment φ → Json
  /-- `context_read_plan_v1`, of the default history. -/
  readPlan : EventStreamId → List ObservationSourceRange → List EventStreamId → Json
  fractionalBudgetLimit : Nat → φ → Nat

/-- `AgentLoop`: how its turns are set up. -/
structure AgentLoop (φ : Type) where
  hasHookPipeline : Bool
  hasToolRouter : Bool
  strictToolRouterUnknowns : Bool
  maxToolRounds : Option Nat
  system : List SystemBlock
  tools : List ToolDefinition
  contextCompilePolicy : AgentContextCompilePolicy
  /-- `skill_context_segments_from_thread`. -/
  skillContextSegments : LoopResult (List (StaticContextSegment φ))
  /-- `static_context_segments_from_thread`. -/
  staticContextSegments : LoopResult (List (StaticContextSegment φ))
  /-- `attach_event_id_for_tool_name`. -/
  attachEventIdForToolName : String → Option EventRecordId

/-- A turn, as `run_provider_turn` is called for it. -/
structure AgentTurn where
  thread : ThreadContext
  turnId : String
  turnInput : TurnInput
  turnSourceEventId : EventRecordId
  turnDeliveryStartSequence : EventSequence
  turnAnchorTimestampMs : Int
  context : TurnContextSnapshot
  endpoint : ResolvedTurnEndpoint

def AgentTurn.coordinates (turn : AgentTurn) : ThreadCoordinates := turn.thread.coordinates

/-- `EventStreamId::for_thread`. -/
def AgentTurn.stream (turn : AgentTurn) : EventStreamId := .forThread turn.coordinates

/-! ### The journal -/

/-- `read_events`, of a stream. -/
def readLoopEvents (streamId : EventStreamId) (after : Option EventSequence) :
    LoopM (List EventRecord) := do
  let answer ← ask (.readEvents streamId after)
  given (orLoop (orHistory answer))

/-- `append_event`. -/
def appendLoopEvent (streamId : EventStreamId) (record : NewEventRecord) : LoopM EventRecord := do
  let answer ← ask (.appendEvents streamId [record])
  match ← given (orLoop (orHistory answer)) with
  | []            => fail (.history "event append returned no record")
  | appended :: _ => do
    let answer ← ask (.runBoundCouplings [appended])
    given answer
    return appended

def appendThreadEvents (coordinates : ThreadCoordinates) (records : List NewEventRecord) :
    LoopM (List EventRecord) := do
  let answer ← ask (.appendEvents (.forThread coordinates) records)
  let appended ← given (orLoop (orHistory answer))
  if appended.length ≠ records.length then
    fail (.history ("event batch append returned " ++ toString appended.length ++ " of " ++
      toString records.length ++ " records"))
  else do
    let answer ← ask (.runBoundCouplings appended)
    given answer
    return appended

def loopProvenance (streams : List EventStreamId) (sourceEventIds : List EventRecordId)
    (dischargedBy function : String) : EventProvenance :=
  { EventProvenance.empty with
    sourceStreams := streams
    sourceEventIds := sourceEventIds
    dischargedBy := some dischargedBy
    function := some function }

def appendAgentLoopSessionEntry (coordinates : ThreadCoordinates) (kind : SessionEntryKind)
    (sourceEventIds : List EventRecordId) : LoopM SessionEntry :=
  if sourceEventIds.isEmpty then
    fail (.history "agent-loop session entry requires source_event_ids")
  else do
    let answer ← ask (.append coordinates kind (some (loopProvenance [.forThread coordinates]
      sourceEventIds "propagator:agent-loop" "session_entry_append/v1")))
    given (orLoop (orHistory answer))

def appendHookContexts (coordinates : ThreadCoordinates) : List String → LoopM Unit
  | []                  => return ()
  | context :: contexts => do
    if History.trim context ≠ "" then
      let timestampMs ← ask .nowMs
      let answer ← ask (.append coordinates
        (.customContextMessage (.user [.text context none] timestampMs)) none)
      let _ ← given (orLoop (orHistory answer))
      appendHookContexts coordinates contexts
    else appendHookContexts coordinates contexts

def hookMutationObservation (witness : HookMutationWitness) : Json :=
  match witness.payload with
  | .obj fields => .obj (Json.insertField "witnessing" (.bool true)
      (Json.insertField "schema" (.str "cooldis.observation.host_hook_mutation/1") fields))
  | payload => payload

def appendHookMutationWitnesses (coordinates : ThreadCoordinates) :
    List HookMutationWitness → LoopM Unit
  | []                   => return ()
  | witness :: witnesses => do
    let answer ← ask (.appendObservation coordinates "host.hook.mutation_witnessed"
      (hookMutationObservation witness))
    given (orLoop (orHistory answer))
    appendHookMutationWitnesses coordinates witnesses

/-! ### How a turn ends -/

namespace Wire
open Kernel.Wire

def turnFailureErrorClass : TurnFailureErrorClass → Json
  | .providerHttp      => .str "provider_http"
  | .providerTransport => .str "provider_transport"
  | .runner            => .str "runner"
  | .internal          => .str "internal"

def threadTerminalState : Serde ThreadTerminalState where
  toValue
    | .completed       => .str "completed"
    | .failed          => .str "failed"
    | .cancelled       => .str "cancelled"
    | .budgetExhausted => .str "budget_exhausted"
  fromValue value := do
    let tag ← text value
    if tag = "completed" then return .completed
    else if tag = "failed" then return .failed
    else if tag = "cancelled" then return .cancelled
    else if tag = "budget_exhausted" then return .budgetExhausted
    else throw s!"unknown variant {tag}"

end Wire

def truncateUtf8Bytes (text : String) (maxBytes : Nat) : String :=
  String.ofList (boundedPrefix maxBytes text.toList)

def turnFailedMessageMaxBytes : Nat := 1024

/-- `TurnFailedPayload::new`, as it is written. -/
def turnFailedPayload (turnId : String) (failure : TerminalTurnFailure) : Json :=
  Kernel.Wire.object ([("turn_id", .str turnId),
    ("error_class", Wire.turnFailureErrorClass failure.errorClass)] ++
      (Kernel.Wire.optional "provider_id" .str failure.providerId ++
        (Kernel.Wire.optional "http_status" (fun n : Nat => .num (.int n)) failure.httpStatus ++
          [("message", .str (truncateUtf8Bytes failure.journalMessage turnFailedMessageMaxBytes)),
            ("retries_attempted", .num (.int failure.retriesAttempted))])))

def TerminalTurnFailure.fromCode (code message : String) : TerminalTurnFailure where
  errorClass := if code = "history" then .internal else .runner
  providerId := none
  httpStatus := none
  message := message
  journalMessage := message
  retriesAttempted := 0

/-- `TerminalTurnFailure::from`, of an error. -/
def TerminalTurnFailure.ofError (errorText : LoopError → String) (error : LoopError) :
    TerminalTurnFailure where
  errorClass :=
    match error with
    | .kernel (.runtimeExecution _) | .runtimeFactory _ => .runner
    | .kernel (.history _)                              => .internal
  providerId := none
  httpStatus := none
  message := errorText error
  journalMessage := errorText error
  retriesAttempted := 0

def isTurnRecord (kind : EventKind) (turnId : String) (event : EventRecord) : Bool :=
  event.kind = kind ∧ (event.payload.index "turn_id").asStr = some turnId

/-- The record of `append_turn_completed_event`. -/
def turnCompletedRecord (turn : AgentTurn) (latestSourceId : Option EventRecordId) (draw : Draw) :
    NewEventRecord :=
  .discharged draw turn.coordinates .turnCompleted
    (Kernel.Wire.object [("turn_id", .str turn.turnId)])
    (loopProvenance [turn.stream] latestSourceId.toList "propagator:agent-loop" "turn_complete/v1")

/-- The record of `append_turn_failed_event`. -/
def turnFailedRecord (turn : AgentTurn) (failure : TerminalTurnFailure) (draw : Draw) :
    NewEventRecord :=
  .discharged draw turn.coordinates .turnFailed (turnFailedPayload turn.turnId failure)
    (loopProvenance [turn.stream] [turn.turnSourceEventId] "propagator:agent-loop" "turn_fail/v1")

/-- The event of the greatest sequence, of equal ones the last: `max_by_key`. -/
def latestEvent (events : List EventRecord) : Option EventRecord :=
  maxByKey (events.map fun event => (event.sequence, event)) |>.map (·.2)

def latestThreadEventId (turn : AgentTurn) : LoopM (Option EventRecordId) := do
  let events ← readLoopEvents turn.stream none
  return (latestEvent events).map (·.id)

def appendTurnFailedEvent (turn : AgentTurn) (failure : TerminalTurnFailure) (draw : Draw) :
    Nat → LoopM EventRecord
  | 0        => throw .stillRunning
  | fuel + 1 => do
    let events ← readLoopEvents turn.stream none
    match events.find? (isTurnRecord .turnFailed turn.turnId) with
    | some existing => return existing
    | none          => do
      let answer ← ask (.appendEventsFenced turn.stream (nextSequence events)
        [turnFailedRecord turn failure draw])
      match answer with
      | .ok [appended] => do
        let answer ← ask (.runBoundCouplings [appended])
        given answer
        return appended
      | .ok appended =>
        fail (.history ("turn.failed fenced append returned " ++ toString appended.length ++
          " records"))
      | .error (.appendFenceConflict ..) => appendTurnFailedEvent turn failure draw fuel
      | .error error => fail (.kernel (.history (.store error)))

/-! ### The parent's join -/

structure ThreadJoinedPayload where
  childThreadId : ThreadId
  spawnedEventId : EventRecordId
  terminalState : ThreadTerminalState
  resultDigest : Option String

namespace Wire
open Kernel.Wire

/-- The fields of a `thread.joined`. -/
def joinedFields (p : ThreadJoinedPayload) : List (String × Json) :=
  [("child_thread_id", .str p.childThreadId.uuid.text),
    ("spawned_event_id", .str p.spawnedEventId.uuid.text),
    ("terminal_state", threadTerminalState.toValue p.terminalState)] ++
      optional "result_digest" .str p.resultDigest

def joined : Serde ThreadJoinedPayload where
  toValue p := object (joinedFields p)
  fromValue value := do
    let fields ← fieldsOf value
    return ⟨← required threadId fields "child_thread_id", ← required eventId fields "spawned_event_id",
      ← required threadTerminalState.fromValue fields "terminal_state",
      ← option text fields "result_digest"⟩

end Wire

/-- A join of a child, as `append_thread_joined_event_if_spawned` asks for it. -/
structure ThreadJoin where
  parent : ThreadCoordinates
  child : ThreadCoordinates
  spawnedEventId : EventRecordId
  terminalState : ThreadTerminalState
  resultDigest : Option String
  sourceEventId : Option EventRecordId

/-- The record of `append_thread_joined_first_wins`. -/
def threadJoinedRecord (join : ThreadJoin) (draw : Draw) : NewEventRecord :=
  .discharged draw join.parent .threadJoined
    (Kernel.Wire.object (Wire.joinedFields ⟨join.child.threadId, join.spawnedEventId,
      join.terminalState, join.resultDigest⟩ ++
        [("schema", .str EventKind.threadJoined.payloadSchemaId)]))
    (loopProvenance [.forThread join.child] join.sourceEventId.toList "runtime:thread-lifecycle"
      "thread_join/v1")

/-- The scan for a join of the spawn: the first one, unless a malformed one stands before it. -/
def findJoined (spawnedEventId : EventRecordId) : List EventRecord → LoopResult (Option EventRecord)
  | []              => .ok none
  | event :: events =>
    if event.kind ≠ .threadJoined then findJoined spawnedEventId events
    else
      match Wire.joined.fromValue event.payload with
      | .error err => .error (.history ("existing thread.joined " ++ event.id.uuid.text ++
          " payload is malformed: " ++ err))
      | .ok payload =>
        if payload.spawnedEventId = spawnedEventId then .ok (some event)
        else findJoined spawnedEventId events

def appendThreadJoinedFirstWins (join : ThreadJoin) (draw : Draw) : Nat → LoopM EventRecord
  | 0        => throw .stillRunning
  | fuel + 1 => do
    let events ← readLoopEvents (controlStreamId join.parent) none
    match ← given (findJoined join.spawnedEventId events) with
    | some existing => return existing
    | none          => do
      let expected := nextSequence events
      let answer ← ask (.appendEventsFenced (controlStreamId join.parent) expected
        [threadJoinedRecord join draw])
      match answer with
      | .ok appended =>
        if appended ≠ [.fromNew (controlStreamId join.parent) expected
            (threadJoinedRecord join draw)] then
          fail (.history ("thread.joined fenced append returned " ++ toString appended.length ++
            " unexpected record(s)"))
        else return .fromNew (controlStreamId join.parent) expected (threadJoinedRecord join draw)
      | .error (.appendFenceConflict ..) => appendThreadJoinedFirstWins join draw fuel
      | .error error => fail (.kernel (.history (.store error)))

/-- The `thread.spawned` of the child. -/
def spawnedOf (child : ThreadId) (events : List EventRecord) : Option EventRecord :=
  latestEvent (events.filter fun event => event.kind = .threadSpawned ∧
    (event.payload.index "child_thread_id").asStr = some child.uuid.text)

def appendThreadJoinedEventIfSpawned (fuel : Nat) (context : ThreadContext)
    (terminalState : ThreadTerminalState) (resultDigest : Option String)
    (sourceEventId : Option EventRecordId) : LoopM (Option EventRecord) :=
  match context.parentThreadId with
  | none                => return none
  | some parentThreadId => do
    let parent := History.coordinatesWithThreadId context.coordinates parentThreadId
    let controlEvents ← readLoopEvents (controlStreamId parent) none
    match spawnedOf context.coordinates.threadId controlEvents with
    | none         => return none
    | some spawned => do
      let draw ← ask .draw
      some <$> appendThreadJoinedFirstWins ⟨parent, context.coordinates, spawned.id, terminalState,
        resultDigest, sourceEventId⟩ draw fuel

def appendTerminalJoinUntilRecorded (context : ThreadContext) (terminalState : ThreadTerminalState)
    (reason : Option String) (sourceEventId : Option EventRecordId) : Nat → LoopM Unit
  | 0        => throw .stillRunning
  | fuel + 1 => do
    match ← attempt (appendThreadJoinedEventIfSpawned fuel context terminalState reason
      sourceEventId) with
    | .ok _    => return ()
    | .error _ => appendTerminalJoinUntilRecorded context terminalState reason sourceEventId fuel

def appendTurnCompletedEvent (fuel : Nat) (turn : AgentTurn) : LoopM EventRecord := do
  let latestSourceId ← latestThreadEventId turn
  let draw ← ask .draw
  let completed ← appendLoopEvent turn.stream (turnCompletedRecord turn latestSourceId draw)
  let _ ← appendThreadJoinedEventIfSpawned fuel turn.thread .completed none (some completed.id)
  return completed

/-- `FailedTurnTransition::fail`: what keeps the record off the stream is only told. -/
def failTurn (fuel : Nat) (turn : AgentTurn) (failure : TerminalTurnFailure) : LoopM Unit := do
  let draw ← ask .draw
  let _ ← attempt (appendTurnFailedEvent turn failure draw fuel)
  return ()

/-- `FailedTurnTransition::fail_message`. -/
def failMessage (fuel : Nat) (turn : AgentTurn) (code message : String) : LoopM Unit :=
  failTurn fuel turn (.fromCode code message)

end Verlet.Agent
