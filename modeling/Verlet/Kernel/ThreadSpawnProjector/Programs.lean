import Verlet.Io.Admission
import Verlet.Kernel.FencedStore
import Verlet.Kernel.ThreadSpawnProjector

/-!
# Kernel — The thread spawn projector — Programs

`dispatch_request_with_authority` and `project_control_stream`, which share one protocol: a request is
claimed by an append that is fenced at the end of what was read, and only the caller whose claim is
taken goes on to start the child.

A loop of the source that goes on while the fence conflicts, or until a claim is decided, has fuel
here; out of fuel it `diverged`.  Threads, executors and the couplings of a thread answer what they
answer.
-/

namespace Verlet.Kernel
open Support Io History
open RemoteStore (DispatchId VerletResult)

/-! ### What a spawn finds around it -/

/-- `AgentManifestBindReceipt`, as far as a spawn reads it. -/
structure AgentBindReceipt where
  manifestHash : String
  placement : Option PlacementTarget
  hasWorkspace : Bool

/-- `KernelThreadSpawnAgentBinding`. -/
structure AgentBinding where
  metadata : Io.Metadata
  compileReceipt : Json
  bindReceipt : Json
  principalId : String

/-- What a projector is made with, and the code that it calls. -/
structure SpawnSetup where
  storeText : HistoryError → String
  canonicalJsonHash : Json → SpawnResult String
  sha256Hex : String → String
  /-- The ids of the couplings of a `BoundCouplingSet`. -/
  couplingIds : String → Except String (List String)
  /-- `coupling_set_content_hash`. -/
  couplingSetHash : String → SpawnResult String
  bindReceipt : Json → Except String AgentBindReceipt
  hasAgentResolver : Bool

/-- A live thread, found under its id. -/
structure LiveThread where
  scope : ThreadScope
  metadata : Io.Metadata

/-- `ThreadContext`, as far as a spawn reads it. -/
structure SpawnContext where
  coordinates : ThreadCoordinates
  metadata : Io.Metadata

def scopedCoordinates (scope : ThreadScope) (threadId : ThreadId) : ThreadCoordinates :=
  ⟨scope.tenantId, scope.userId, scope.sessionId, threadId⟩

def LiveThread.context (thread : LiveThread) (threadId : ThreadId) : SpawnContext :=
  ⟨scopedCoordinates thread.scope threadId, thread.metadata⟩

/-- `RemoteThreadSpawnRequest`. -/
structure RemoteSpawn where
  child : SpawnContext
  taskName : Option String
  turnId : String
  dispatchId : DispatchId
  input : String
  spawnedEventId : EventRecordId
  binding : Option AgentBinding

/-! ### Calls -/

inductive SpawnCall where
  | readEvents (streamId : EventStreamId)
  | appendEventsFenced (streamId : EventStreamId) (expected : EventSequence)
      (records : List NewEventRecord)
  | appendEvents (streamId : EventStreamId) (records : List NewEventRecord)
  | draw
  /-- The wait for a claim to be decided is over; where it is not, a sleep. -/
  | claimWaitOver
  | getThread (threadId : ThreadId)
  /-- `project_claimed` is entered, for a request that was claimed. -/
  | enterProjectClaimed (requestEventId : EventRecordId) (correlationId : String)
  | resolveAgentRef (caller : SpawnContext) (agentRef : String)
  /-- `RuntimeKernelControl::host`: the host is there. -/
  | hostAvailable
  /-- `start_thread_with_topology_and_metadata`: the new thread, and the metadata it has. -/
  | startThread (scope : ThreadScope) (spawnedFrom : ThreadId) (metadata : Io.Metadata)
  | newThreadId
  | newSignalId
  | runBoundCouplings (appended : EventRecord)
  /-- `record_manifest_receipts_for_principal`. -/
  | recordManifestReceipts (child : ThreadId) (binding : AgentBinding)
  | submitTurn (child : ThreadId) (turnId input : String)
  | shutdownThread (child : ThreadId)
  | remoteThreadExecutor
  /-- `executor.spawn`. -/
  | executorSpawn (request : RemoteSpawn)
  /-- `append_thread_joined_first_wins`, of a child process that failed to start. -/
  | appendFailedJoin (parent child : ThreadCoordinates) (spawnedEventId : EventRecordId)
      (error : SpawnError)
  /-- The task of a local spawn: what it failed with, other than its result. -/
  | joinSpawnTask

def SpawnCall.Reply : SpawnCall → Type
  | .readEvents _              => HistoryResult (List EventRecord)
  | .appendEventsFenced _ _ _  => HistoryResult (List EventRecord)
  | .appendEvents _ _          => HistoryResult (List EventRecord)
  | .draw                      => Draw
  | .claimWaitOver             => Bool
  | .getThread _               => SpawnResult LiveThread
  | .enterProjectClaimed _ _   => Unit
  | .resolveAgentRef _ _       => SpawnResult AgentBinding
  | .hostAvailable             => Bool
  | .startThread _ _ _         => SpawnResult (ThreadId × Io.Metadata)
  | .newThreadId               => ThreadId
  | .newSignalId               => Uuid
  | .runBoundCouplings _       => SpawnResult Unit
  | .recordManifestReceipts .. => SpawnResult Unit
  | .submitTurn _ _ _          => SpawnResult Unit
  | .shutdownThread _          => Unit
  | .remoteThreadExecutor      => Bool
  | .executorSpawn _           => SpawnResult Unit
  | .appendFailedJoin ..       => Unit
  | .joinSpawnTask             => Option String

abbrev SpawnM (α : Type) := ExceptT SpawnError (Proc SpawnCall SpawnCall.Reply) α

def orSpawn {α : Type} : VerletResult α → SpawnResult α
  | .ok a        => .ok a
  | .error error => .error (.host (.kernel error))

theorem orSpawn_ok {α : Type} {x : VerletResult α} {a : α} : orSpawn x = .ok a ↔ x = .ok a := by
  cases x <;> simp [orSpawn]

namespace SpawnM

def ask (call : SpawnCall) : SpawnM call.Reply := Proc.await call

def given {α : Type} (result : SpawnResult α) : SpawnM α := Proc.settle result

end SpawnM

open SpawnM

/-- A loop of the source that would not end. -/
def divergedSpawn : SpawnError := .host (.kernel (.history (.store .diverged)))

/-- `read_events`, from the start of the stream. -/
def readSpawnEvents (streamId : EventStreamId) : SpawnM (List EventRecord) := do
  let answer ← ask (.readEvents streamId)
  given (orSpawn (orHistory answer))

/-! ### Claims and failures -/

/-- The id of a decision that was appended, or nothing where the request is projected already. -/
abbrev FencedDecisionAppend := Option EventRecordId

/-- What a fenced append of one decision has to answer. -/
def checkAppended (expected : EventRecord) : List EventRecord → SpawnResult EventRecordId
  | [appended] =>
    if appended ≠ expected then
      .error (.historyText ("fenced thread spawn decision append returned unexpected record " ++
        appended.id.uuid.text ++ " at " ++ appended.streamId.text ++ " sequence " ++
        toString appended.sequence))
    else .ok appended.id
  | appended =>
    .error (.historyText ("fenced thread spawn decision append returned " ++
      toString appended.length ++ " record(s), expected 1"))

def appendFencedDecision (request : EventRecord) (correlationId : Option String)
    (decision : NewEventRecord) : Nat → List EventRecord → SpawnM FencedDecisionAppend
  | 0,        _      => throw divergedSpawn
  | fuel + 1, events =>
    if spawnRequestAlreadyProjected events request.id correlationId then return none
    else do
      let answer ← ask (.appendEventsFenced request.streamId (nextSequence events) [decision])
      match answer with
      | .ok appended =>
        some <$> given (checkAppended
          (.fromNew request.streamId (nextSequence events) decision) appended)
      | .error (.appendFenceConflict ..) => do
        let events ← readSpawnEvents request.streamId
        appendFencedDecision request correlationId decision fuel events
      | .error error => throw (.host (.kernel (.history (.store error))))

def claimRequest (fuel : Nat) (request : EventRecord) (correlationId : String)
    (decisionEvents : List EventRecord) : SpawnM FencedDecisionAppend := do
  let draw ← ask .draw
  appendFencedDecision request (some correlationId) (spawnClaim request draw) fuel decisionEvents

def checkFailure (streamId : EventStreamId) (failure : NewEventRecord) :
    List EventRecord → SpawnResult EventRecord
  | [appended] =>
    if appended ≠ .fromNew streamId appended.sequence failure then
      .error (.historyText ("thread spawn failure append returned unexpected record " ++
        appended.id.uuid.text ++ " on " ++ appended.streamId.text))
    else .ok appended
  | appended =>
    .error (.historyText ("thread spawn failure append returned " ++ toString appended.length ++
      " record(s), expected 1"))

def appendFailure (coordinates : ThreadCoordinates) (request : EventRecord)
    (correlationId : Option String) (reason : String) : SpawnM EventRecord := do
  let draw ← ask .draw
  let failure := failureRecord coordinates request correlationId reason draw
  let answer ← ask (.appendEvents request.streamId [failure])
  let appended ← given (orSpawn (orHistory answer))
  given (checkFailure request.streamId failure appended)

/-! ### The child -/

variable (setup : SpawnSetup)

def parentHasSupervisorSpawnAttachment (metadata : Io.Metadata) : SpawnResult Bool :=
  match metadata.get? "cooldis.agent.bound_coupling_set" with
  | none     => .ok false
  | some raw =>
    match setup.couplingIds raw with
    | .error err => .error (.runtimeFactory ("thread bound coupling set is invalid: " ++ err))
    | .ok ids    => .ok (decide (stdSupervisorSpawnTemplateId ∈ ids))

def spawnArguments (payload : ThreadSpawnRequestedPayload) : Json :=
  match payload.taskName with
  | some taskName =>
    Wire.object ([("task_name", .str taskName), ("message", .str payload.initialSubmission)] ++
      if payload.childAgentRef ≠ unboundChildAgentRef then
        [("agent_ref", .str payload.childAgentRef)] else [])
  | none =>
    Wire.object [("agent_ref", .str payload.childAgentRef),
      ("message", .str payload.initialSubmission)]

def decodeBindReceipt (binding : AgentBinding) : SpawnResult AgentBindReceipt :=
  match setup.bindReceipt binding.bindReceipt with
  | .ok receipt => .ok receipt
  | .error err  =>
    .error (.runtimeFactory ("thread spawn projector agent_ref bind receipt is invalid: " ++ err))

def resolveBinding (caller : SpawnContext) (arguments : Json) : SpawnM (Option AgentBinding) := do
  let agentRef := History.trim (((arguments.index "agent_ref").asStr).getD "")
  if agentRef = "" ∨ agentRef = unboundChildAgentRef then return none
  else if ¬ setup.hasAgentResolver then
    throw (.execution "thread spawn projector agent_ref requires a manifest resolver")
  else do
    let answer ← ask (.resolveAgentRef caller agentRef)
    some <$> given answer

def spawnMetadata (caller : SpawnContext) (arguments : Json) :
    SpawnM (Option AgentBinding × Io.Metadata) := do
  let inputsHash ← given (setup.canonicalJsonHash arguments)
  let binding ← resolveBinding setup caller arguments
  let metadata : Io.Metadata := (binding.map AgentBinding.metadata).getD []
  let metadata : Io.Metadata := metadata.insert "cooldis.thread_spawn.inputs_hash" inputsHash
  match binding with
  | none         => return (none, metadata)
  | some binding => do
    let receipt ← given (decodeBindReceipt setup binding)
    if (metadata.get? "cooldis.agent.manifest_hash").isSome then return (some binding, metadata)
    else
      return (some binding, metadata.insert "cooldis.agent.manifest_hash" receipt.manifestHash)

/-- Where the child is to run, and whether it has a workspace. -/
def placementOf : Option AgentBinding → SpawnResult (PlacementTarget × Bool)
  | none         => .ok (.local, false)
  | some binding => do
    let receipt ← decodeBindReceipt setup binding
    return (receipt.placement.getD .local, receipt.hasWorkspace)

/-- `ThreadSpawnWitness`, of a projected request. -/
structure SpawnWitness where
  parentTurnId : Option String
  correlationId : String
  requestStreamId : EventStreamId
  requestEventId : EventRecordId
  submittedTurnId : String

def childPolicyHash (metadata : Io.Metadata) : SpawnResult (Option String) :=
  match metadata.get? "cooldis.agent.bound_coupling_set" with
  | none     => .ok none
  | some raw => some <$> setup.couplingSetHash raw

/-- The record of `append_thread_spawned_event`. -/
def spawnedRecord (caller child : SpawnContext) (policyHash : Option String)
    (witness : SpawnWitness) (draw : Draw) : NewEventRecord :=
  { NewEventRecord.witnessed draw caller.coordinates .threadSpawned
      (Wire.object (Wire.spawnedFields {
        parentThreadId := caller.coordinates.threadId
        parentTurnId := witness.parentTurnId
        childThreadId := child.coordinates.threadId
        childManifestHash := (child.metadata.get? "cooldis.agent.manifest_hash").getD "unbound"
        childPolicyHash := policyHash
        granted := []
        inputsHash := (child.metadata.get? "cooldis.thread_spawn.inputs_hash").getD
          ("sha256:" ++ setup.sha256Hex child.coordinates.threadId.uuid.text)
        fork := none } ++
        [("schema", .str EventKind.threadSpawned.payloadSchemaId),
          ("correlation_id", .str witness.correlationId)])) with
    provenance := { EventProvenance.empty with
      sourceStreams := [witness.requestStreamId]
      sourceEventIds := [witness.requestEventId] } }

/-- `append_control_event`, at the thread's handle. -/
def appendControlEvent (coordinates : ThreadCoordinates) (record : NewEventRecord) :
    SpawnM EventRecord := do
  let answer ← ask (.appendEvents (controlStreamId coordinates) [record])
  let appended ← given (orSpawn (orHistory answer >>= fun events =>
    match events with
    | event :: _ => .ok event
    | []         => .error (Kernel.historyText "event append returned no record")))
  let coupled ← ask (.runBoundCouplings appended)
  let _ ← given coupled
  return appended

def appendThreadSpawnedEvent (caller child : SpawnContext)
    (witness : SpawnWitness) : SpawnM EventRecord := do
  let policyHash ← given (childPolicyHash setup child.metadata)
  let draw ← ask .draw
  appendControlEvent caller.coordinates (spawnedRecord setup caller child policyHash witness draw)

def childMetadata (caller : SpawnContext) (taskName : Option String) (metadata : Io.Metadata) :
    Io.Metadata :=
  let metadata := (metadata.insert "agent_process_v1" "true").insert "spawned_by_thread_id"
    caller.coordinates.threadId.uuid.text
  match taskName with
  | some taskName => metadata.insert "task_name" taskName
  | none          => metadata

/-- The turn that a child is to be given: that of the witness, unless it is blank. -/
def spawnTurnId (witness : SpawnWitness) : SpawnM String := do
  if History.trim witness.submittedTurnId ≠ "" then return witness.submittedTurnId
  else do
    let signalId ← ask .newSignalId
    return "agent-process-v1-" ++ signalId.text

/-- `AgentProcessSpawnReceipt`, as far as the projector reads it. -/
structure SpawnReceipt where
  threadId : ThreadId
  submittedTurnId : String

/-- A call of the host that may fail. -/
def attemptSpawn (call : SpawnCall) (result : call.Reply → SpawnResult Unit) : SpawnM Unit := do
  let answer ← ask call
  given (result answer)

/-- `RuntimeKernelControl::host`. -/
def requireHost : SpawnM Unit := do
  let available : Bool ← ask .hostAvailable
  if available then return ()
  else throw (.execution "runtime host is no longer available")

/-- What follows the start of a child: its witness, its receipts and its first turn; where one of them
fails the child is shut down. -/
def settleChild (caller child : SpawnContext) (input turnId : String)
    (witness : SpawnWitness) (binding : Option AgentBinding) : SpawnM Unit := do
  let childThreadId := child.coordinates.threadId
  let shutdown : SpawnM Unit := ask (.shutdownThread childThreadId)
  let _ ← Proc.guarding (appendThreadSpawnedEvent setup caller child witness) shutdown
  let _ ← match binding with
    | some binding =>
      Proc.guarding (attemptSpawn (.recordManifestReceipts childThreadId binding) id) shutdown
    | none => pure ()
  Proc.guarding (attemptSpawn (.submitTurn childThreadId turnId input) id) shutdown

def spawnChildInner (caller : SpawnContext) (taskName : Option String)
    (input : String) (metadata : Io.Metadata) (witness : SpawnWitness) (binding : Option AgentBinding) :
    SpawnM SpawnReceipt := do
  requireHost
  let taskName := taskName.filter fun name => History.trim name ≠ ""
  let started ← ask (.startThread caller.coordinates.scope caller.coordinates.threadId
    (childMetadata caller taskName metadata))
  let (childThreadId, metadata) ← given started
  let found ← ask (.getThread caller.coordinates.threadId)
  let _ ← given found
  let turnId ← spawnTurnId witness
  let child : SpawnContext := ⟨scopedCoordinates caller.coordinates.scope childThreadId, metadata⟩
  settleChild setup caller child input turnId witness binding
  return ⟨childThreadId, turnId⟩

/-- `spawn_child_cancellation_safe`. -/
def spawnLocalChild (caller : SpawnContext) (taskName : Option String)
    (input : String) (metadata : Io.Metadata) (witness : SpawnWitness) (binding : Option AgentBinding) :
    SpawnM SpawnReceipt := do
  let result ← ExceptT.lift
    (spawnChildInner setup caller taskName input metadata witness binding).run
  let joined ← ask .joinSpawnTask
  match joined with
  | some err => throw (.execution ("child spawn witness task failed: " ++ err))
  | none     => given result

/-- `spawn_remote_child_with_witness`. -/
def spawnRemoteChild (caller : SpawnContext) (taskName : Option String)
    (input : String) (metadata : Io.Metadata) (witness : SpawnWitness) (binding : Option AgentBinding) :
    SpawnM SpawnReceipt := do
  requireHost
  let served : Bool ← ask .remoteThreadExecutor
  if ¬ served then
    throw (.runtimeFactory "placement target remote requires a served remote thread executor")
  else do
    let taskName := taskName.filter fun name => History.trim name ≠ ""
    let childThreadId ← ask .newThreadId
    let child : SpawnContext := ⟨scopedCoordinates caller.coordinates.scope childThreadId,
      childMetadata caller taskName metadata⟩
    let found ← ask (.getThread caller.coordinates.threadId)
    let _ ← given found
    let turnId ← spawnTurnId witness
    let spawned ← appendThreadSpawnedEvent setup caller child witness
    let answer ← ask (.executorSpawn ⟨child, taskName, turnId, ⟨witness.correlationId⟩, input,
      spawned.id, binding⟩)
    match answer with
    | .ok _        => return ⟨childThreadId, turnId⟩
    | .error error => do
      let _ ← ask (.appendFailedJoin caller.coordinates child.coordinates spawned.id error)
      throw error

structure ThreadSpawnProjected where
  requestEventId : EventRecordId
  childThreadId : ThreadId
  submittedTurnId : String
  correlationId : String
  taskName : Option String

def spawnPlaced (caller : SpawnContext) (request : EventRecord)
    (payload : ThreadSpawnRequestedPayload) (binding : Option AgentBinding) (metadata : Io.Metadata)
    (placement : PlacementTarget) (hasWorkspace : Bool) : SpawnM SpawnReceipt := do
  let taskName := payload.taskName.or (some payload.correlationId)
  let witness : SpawnWitness := ⟨payload.parentTurnId, payload.correlationId, request.streamId,
    request.id, submittedTurnOf request payload⟩
  if placement ≠ .local ∧ hasWorkspace then
    throw (.runtimeFactory ("workspace bindings require local placement and cannot cross the " ++
      "remote child executor boundary"))
  else
    match placement with
    | .local =>
      spawnLocalChild setup caller taskName payload.initialSubmission metadata witness binding
    | .remote =>
      spawnRemoteChild setup caller taskName payload.initialSubmission metadata witness binding
    | .sandbox =>
      throw (.runtimeFactory ("placement target sandbox requires the remote EventStore backend " ++
        "capability, which is not available"))

/-- The supervisor's attachment, where it is asked for. -/
def requireAttachment (caller : SpawnContext) (required : Bool) : SpawnM Unit := do
  if required then
    let attached ← given (parentHasSupervisorSpawnAttachment setup caller.metadata)
    if attached then return ()
    else
      throw (.execution (stdSupervisorSpawnTemplateId ++ " projector requires the parent thread to " ++
        "attach that supervisor coupling"))
  else return ()

def projectClaimed (caller : SpawnContext) (request : EventRecord)
    (payload : ThreadSpawnRequestedPayload) (requireSupervisorAttachment : Bool) :
    SpawnM ThreadSpawnProjected := do
  let _ ← ask (.enterProjectClaimed request.id payload.correlationId)
  requireAttachment setup caller requireSupervisorAttachment
  let (binding, metadata) ← spawnMetadata setup caller (spawnArguments payload)
  let (placement, hasWorkspace) ← given (placementOf setup binding)
  let receipt ← spawnPlaced setup caller request payload binding metadata placement hasWorkspace
  return ⟨request.id, receipt.threadId, receipt.submittedTurnId, payload.correlationId,
    payload.taskName⟩

end Verlet.Kernel
