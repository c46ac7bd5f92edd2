import Verlet.Kernel.Handles
import Verlet.Kernel.MandateLifecycle
import Verlet.Kernel.RuntimeHost.TurnReservations

/-!
# Kernel — The thread spawn projector

The records of a spawn on its parent's control stream, joined by a correlation id: the
`thread.spawn.requested` of whoever wants a child; its claim, which copies it under the projector's
name; and the decision, a `thread.spawned` or a `loop.denied`.  What a caller is told is folded from
these.

A stored payload is an object (the stream schema sees to it), so a payload is read from one.
-/

namespace Verlet.Kernel
open Support History
open RemoteStore (DispatchId)

/-! ### Errors -/

/-- `VerletError`, with what a spawn fails with. -/
inductive SpawnError where
  | host (error : HostError)
  | runtimeFactory (text : String)
  | threadScopeMismatch (threadId : ThreadId) (requested actual : ThreadScope)

abbrev SpawnResult (α : Type) := Except SpawnError α

/-- `VerletError::History(format!(..))`. -/
def SpawnError.historyText (text : String) : SpawnError := .host (.kernel (Kernel.historyText text))

/-- `VerletError::RuntimeExecution(format!(..))`. -/
def SpawnError.execution (text : String) : SpawnError := .host (.kernel (.runtimeExecution text))

/-- `{:?}` of a scope. -/
def debugScope (scope : ThreadScope) : String :=
  "ThreadScope \x7b tenant_id: " ++ debugText scope.tenantId ++ ", user_id: " ++
    debugText scope.userId ++ ", session_id: " ++ debugText scope.sessionId ++ " \x7d"

/-- `VerletError::to_string`, with the texts of the store's errors. -/
def SpawnError.text (storeText : HistoryError → String) : SpawnError → String
  | .host (.kernel (.history (.plain text))) => "history store failed: " ++ text
  | .host (.kernel (.history (.store error))) => "history store failed: " ++ storeText error
  | .host (.kernel (.runtimeExecution text)) => "runtime execution failed: " ++ text
  | .host (.threadNotFound threadId) => "thread not found: " ++ threadId.uuid.text
  | .host (.threadClosed threadId) => "thread command channel closed: " ++ threadId.uuid.text
  | .host (.threadPolicyViolation threadId code message) =>
    "thread " ++ threadId.uuid.text ++ " policy violation " ++ code ++ ": " ++ message
  | .runtimeFactory text => "runtime factory failed: " ++ text
  | .threadScopeMismatch threadId requested actual =>
    "thread " ++ threadId.uuid.text ++ " belongs to " ++ debugScope actual ++ ", not " ++
      debugScope requested

/-! ### Payloads -/

structure ThreadSpawnRequestedPayload where
  parentThreadId : ThreadId
  parentTurnId : Option String
  taskName : Option String
  submittedTurnId : Option String
  childAgentRef : String
  initialSubmission : String
  correlationId : String
  blockParent : Bool

structure ThreadSpawnedForkSourceCutPayload where
  threadId : ThreadId
  checkpointId : Uuid
  leafEntryId : Option SessionEntryId
  streamId : EventStreamId
  streamToSequence : Option Int

structure ThreadSpawnedForkPayload where
  mode : String
  claimEventId : Option EventRecordId
  sourceCut : ThreadSpawnedForkSourceCutPayload

structure ThreadSpawnedPayload where
  parentThreadId : ThreadId
  parentTurnId : Option String
  childThreadId : ThreadId
  childManifestHash : String
  childPolicyHash : Option String
  granted : List String
  inputsHash : String
  fork : Option ThreadSpawnedForkPayload

namespace Wire

def uuid (value : Json) : Except String Uuid :=
  match value.asStr.bind Uuid.parseStr with
  | some uuid => .ok uuid
  | none      => .error "UUID parsing failed"

def spawnRequested : Serde ThreadSpawnRequestedPayload where
  toValue p := object ([("parent_thread_id", .str p.parentThreadId.uuid.text)] ++
    (optional "parent_turn_id" .str p.parentTurnId ++ (optional "task_name" .str p.taskName ++
      (optional "submitted_turn_id" .str p.submittedTurnId ++
        [("child_agent_ref", .str p.childAgentRef), ("initial_submission", .str p.initialSubmission),
          ("correlation_id", .str p.correlationId), ("block_parent", .bool p.blockParent)]))))
  fromValue value := do
    let fields ← fieldsOf value
    return ⟨← required threadId fields "parent_thread_id", ← option text fields "parent_turn_id",
      ← option text fields "task_name", ← option text fields "submitted_turn_id",
      ← required text fields "child_agent_ref", ← required text fields "initial_submission",
      ← required text fields "correlation_id", ← defaulted flag fields "block_parent" false⟩

def forkSourceCut : Serde ThreadSpawnedForkSourceCutPayload where
  toValue c := object [("threadId", .str c.threadId.uuid.text), ("checkpointId", .str c.checkpointId.text),
    ("leafEntryId", (c.leafEntryId.map fun id => Json.str id.uuid.text).getD .null),
    ("streamId", .str c.streamId.text),
    ("streamToSequence", (c.streamToSequence.map fun n => Json.num (.int n)).getD .null)]
  fromValue value := do
    let fields ← fieldsOf value
    return ⟨← required threadId fields "threadId", ← required uuid fields "checkpointId",
      ← option (fun value => SessionEntryId.mk <$> uuid value) fields "leafEntryId",
      ⟨← required text fields "streamId"⟩, ← option integer fields "streamToSequence"⟩

def spawnedFork : Serde ThreadSpawnedForkPayload where
  toValue f := object ([("mode", .str f.mode)] ++
    (optional "claim_event_id" (fun id : EventRecordId => .str id.uuid.text) f.claimEventId ++
      [("sourceCut", forkSourceCut.toValue f.sourceCut)]))
  fromValue value := do
    let fields ← fieldsOf value
    return ⟨← required text fields "mode", ← option eventId fields "claim_event_id",
      ← required forkSourceCut.fromValue fields "sourceCut"⟩

/-- The fields of a `thread.spawned`. -/
def spawnedFields (p : ThreadSpawnedPayload) : List (String × Json) :=
  [("parent_thread_id", .str p.parentThreadId.uuid.text)] ++
    (optional "parent_turn_id" .str p.parentTurnId ++
      ([("child_thread_id", .str p.childThreadId.uuid.text),
        ("child_manifest_hash", .str p.childManifestHash)] ++
        (optional "child_policy_hash" .str p.childPolicyHash ++
          ([("granted", .arr (p.granted.map .str)), ("inputs_hash", .str p.inputsHash)] ++
            optional "fork" spawnedFork.toValue p.fork))))

def spawned : Serde ThreadSpawnedPayload where
  toValue p := object (spawnedFields p)
  fromValue value := do
    let fields ← fieldsOf value
    return ⟨← required threadId fields "parent_thread_id", ← option text fields "parent_turn_id",
      ← required threadId fields "child_thread_id", ← required text fields "child_manifest_hash",
      ← option text fields "child_policy_hash", ← required (list text) fields "granted",
      ← required text fields "inputs_hash", ← option spawnedFork.fromValue fields "fork"⟩

end Wire

/-! ### Records on the stream -/

def threadSpawnProjectorDischargedBy : String := "projector:thread-spawn"

def threadSpawnProjectorFunction : String := "thread_spawn_projector/v1"

def threadSpawnDispatchFunction : String := "thread_spawn_dispatch/v1"

def stdSupervisorSpawnTemplateId : String := "std::supervisor.spawn"

def unboundChildAgentRef : String := "unbound"

variable (event : EventRecord)

def isSpawnRequestClaim : Bool :=
  event.kind = .threadSpawnRequested ∧
    event.provenance.dischargedBy = some threadSpawnProjectorDischargedBy ∧
    event.provenance.function = some threadSpawnProjectorFunction

/-- A `thread.spawn.requested` that is no claim. -/
def isSpawnRequest : Bool :=
  event.kind = .threadSpawnRequested ∧ ¬ isSpawnRequestClaim event

/-- What the event's payload has under `correlation_id`. -/
def rawCorrelation : Option String :=
  (event.payload.index "correlation_id").asStr

def joins (requestEventId : EventRecordId) (correlationId : Option String) (event : EventRecord) :
    Bool :=
  requestEventId ∈ event.provenance.sourceEventIds ∨
    correlationId.any fun correlationId => rawCorrelation event = some correlationId

def isSpawnDecision : Bool :=
  isSpawnRequestClaim event ∨ event.kind = .threadSpawned ∨ event.kind = .loopDenied

def spawnRequestAlreadyProjected (events : List EventRecord) (requestEventId : EventRecordId)
    (correlationId : Option String) : Bool :=
  events.any fun event => isSpawnDecision event ∧ joins requestEventId correlationId event

def spawnRequestBelongsToParent (payload : ThreadSpawnRequestedPayload)
    (parent : ThreadCoordinates) : Bool :=
  event.coordinates.threadId = parent.threadId ∧ event.coordinates.scope = parent.scope ∧
    payload.parentThreadId = parent.threadId

/-- **What a request is joined by** stands in its payload. -/
theorem requested_correlation {event : EventRecord} {payload : ThreadSpawnRequestedPayload}
    (h : Wire.spawnRequested.fromValue event.payload = .ok payload) :
    rawCorrelation event = some payload.correlationId := by
  obtain ⟨fields, hfields, h⟩ := bind_ok.mp h
  obtain ⟨parent, -, h⟩ := bind_ok.mp h
  obtain ⟨turn, -, h⟩ := bind_ok.mp h
  obtain ⟨task, -, h⟩ := bind_ok.mp h
  obtain ⟨submitted, -, h⟩ := bind_ok.mp h
  obtain ⟨agent, -, h⟩ := bind_ok.mp h
  obtain ⟨initial, -, h⟩ := bind_ok.mp h
  obtain ⟨correlation, hcorrelation, h⟩ := bind_ok.mp h
  obtain ⟨block, -, h⟩ := bind_ok.mp h
  obtain rfl := Except.ok.inj h
  unfold rawCorrelation Json.index
  unfold Wire.fieldsOf at hfields
  unfold Wire.required at hcorrelation
  split at hfields
  · rename_i found hobject
    obtain rfl := Except.ok.inj hfields
    rw [hobject]
    split at hcorrelation
    · rename_i value hvalue
      unfold Wire.text at hcorrelation
      split at hcorrelation
      · obtain rfl := Except.ok.inj hcorrelation
        simp [hvalue, Json.asStr]
      · cases hcorrelation
    · cases hcorrelation
  · cases hfields

/-! ### What is appended -/

def projectorProvenance (request : EventRecord) : EventProvenance :=
  { EventProvenance.empty with
    sourceStreams := [request.streamId]
    sourceEventIds := [request.id]
    dischargedBy := some threadSpawnProjectorDischargedBy
    function := some threadSpawnProjectorFunction }

/-- The record of `claim_request`. -/
def spawnClaim (request : EventRecord) (draw : Draw) : NewEventRecord :=
  .discharged draw request.coordinates .threadSpawnRequested request.payload
    (projectorProvenance request)

def failureRecord (coordinates : ThreadCoordinates) (request : EventRecord)
    (correlationId : Option String) (reason : String) (draw : Draw) : NewEventRecord :=
  .discharged draw coordinates .loopDenied
    (Wire.object [("schema", .str EventKind.loopDenied.payloadSchemaId),
      ("template_id", .str stdSupervisorSpawnTemplateId),
      ("request_event_id", .str request.id.uuid.text),
      ("correlation_id", ((correlationId.or (rawCorrelation request)).map Json.str).getD .null),
      ("status", .str "failed"), ("error_class", .str "thread_spawn_failed"),
      ("reason", .str reason)])
    (projectorProvenance request)

def spawnRequestValue (payload : ThreadSpawnRequestedPayload) : Json :=
  match Wire.spawnRequested.toValue payload with
  | .obj fields =>
    .obj (Json.insertField "schema" (.str EventKind.threadSpawnRequested.payloadSchemaId) fields)
  | value => value

def spawnRequest (coordinates : ThreadCoordinates) (payload : ThreadSpawnRequestedPayload)
    (draw : Draw) : NewEventRecord :=
  .discharged draw coordinates .threadSpawnRequested (spawnRequestValue payload)
    { EventProvenance.empty with
      dischargedBy := some "dispatcher:thread-spawn"
      function := some threadSpawnDispatchFunction }

/-! ### Folds -/

structure ThreadSpawnDispatchFold where
  requestEventId : EventRecordId
  handle : Option HandleId
  submittedTurnId : Option String
  taskName : Option String
  failureReason : Option String
  claimed : Bool

def requestOf (dispatchId : DispatchId) (event : EventRecord) :
    Option (EventRecord × ThreadSpawnRequestedPayload) :=
  if ¬ isSpawnRequest event then none
  else
    match Wire.spawnRequested.fromValue event.payload with
    | .error _    => none
    | .ok payload => if payload.correlationId = dispatchId.text then some (event, payload) else none

def submittedTurnOf (request : EventRecord) (payload : ThreadSpawnRequestedPayload) : String :=
  payload.submittedTurnId.getD ("thread-spawn-" ++ request.id.uuid.text)

def foldThreadSpawnDispatch (events : List EventRecord) (dispatchId : DispatchId) :
    Option ThreadSpawnDispatchFold := do
  let (request, payload) ← events.findSome? (requestOf dispatchId)
  let carries (event : EventRecord) : Bool := rawCorrelation event = some dispatchId.text
  let spawned := events.find? fun event => event.kind = .threadSpawned ∧ carries event
  let denied := events.find? fun event => event.kind = .loopDenied ∧ carries event
  return {
    requestEventId := request.id
    handle := (spawned.bind fun event =>
      (event.payload.index "child_thread_id").asStr.bind Uuid.parseStr).map fun uuid => .thread ⟨uuid⟩
    submittedTurnId := some (submittedTurnOf request payload)
    taskName := payload.taskName
    failureReason := denied.bind fun event => (event.payload.index "reason").asStr
    claimed := events.any fun event =>
      isSpawnRequestClaim event ∧ joins request.id (some dispatchId.text) event }

end Verlet.Kernel
