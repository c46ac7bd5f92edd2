import Verlet.Support.Loops
import Verlet.Kernel.MandateLifecycle

/-!
# Kernel — The coupling scheduler

`CouplingScheduler::run_batch`: the events of a batch activate the couplings they match, each
activation runs the executor within its quotas and budgets, appends what it discharges to the
coupling's sink and a receipt to the control stream, and both activate further couplings, down to
the depth limit.

The executor is arbitrary: it answers its `n`th invocation as it likes.  Besides what the source
keeps, a `Cycle` remembers every activation it took up, what the executor answered, and what was
appended for it (`attempts`), so that a run that ends in an error can be spoken of, too.  Counters
are unbounded, except where the source casts a count to `u32`.
-/

namespace Verlet.Kernel
open Support History
open RemoteStore (VerletError VerletResult)

/-! ### Bound couplings -/

inductive CouplingRole where
  | projection
  | controller
deriving DecidableEq

def CouplingRole.asRef : CouplingRole → String
  | .projection => "projection"
  | .controller => "controller"

structure BoundCouplingSelector where
  stream : String
  kinds : List EventKind
  scope : Option String
  since : Option String
deriving DecidableEq

structure BoundCouplingSink where
  stream : String
  kinds : List EventKind
deriving DecidableEq

structure BoundCouplingFunction where
  name : String
  artifactHash : String
  operationName : Option String
deriving DecidableEq

/-- `AgentManifestCouplingQuota`. -/
structure CouplingQuota where
  perTurn : Option Nat
  perThread : Option Nat
deriving DecidableEq

/-- `AgentManifestCouplingBudget`. -/
structure CouplingBudget where
  maxMs : Option Nat
  maxDischargeEvents : Option Nat
deriving DecidableEq

structure BoundCoupling where
  id : String
  role : CouplingRole
  triggerKind : EventKind
  triggerMatch : List (String × Json)
  triggerQuota : CouplingQuota
  sourceSelectors : List BoundCouplingSelector
  sink : BoundCouplingSink
  functionRef : String
  function : BoundCouplingFunction
  budget : CouplingBudget
  config : Json
  configHash : String
deriving DecidableEq

structure BoundCouplingSet where
  snapshotId : String
  couplings : List BoundCoupling

/-! ### Activations -/

structure CouplingActivation where
  rootEventId : EventRecordId
  triggerEventId : EventRecordId
  triggerStreamId : String
  triggerSequence : Int
  couplingId : String
  depth : Nat
  snapshotId : String
deriving DecidableEq

structure QueuedActivation where
  batchIndex : Nat
  activation : CouplingActivation
  triggerEvent : EventRecord
  coupling : BoundCoupling
deriving DecidableEq

/-- `ActivationKey`, by the event id itself. -/
structure ActivationKey where
  triggerEventId : EventRecordId
  couplingId : String
  snapshotId : String
deriving DecidableEq

def ActivationKey.fromActivation (activation : CouplingActivation) : ActivationKey :=
  ⟨activation.triggerEventId, activation.couplingId, activation.snapshotId⟩

structure CouplingSourceCutEntry where
  streamId : String
  maxSequence : Int

/-- `CouplingSourceCut`, by its entries. -/
abbrev CouplingSourceCut := List CouplingSourceCutEntry

structure CouplingInvocation where
  activation : CouplingActivation
  coupling : BoundCoupling
  triggerEvent : EventRecord
  sourceCut : CouplingSourceCut
  sourceEvents : List EventRecord

structure CouplingDischarge where
  eventId : Option EventRecordId
  stream : String
  kind : EventKind
  payload : Json

/-! ### Receipts -/

inductive CouplingRunStatus where
  | completed
  | failed
  | skipped

def CouplingRunStatus.asRef : CouplingRunStatus → String
  | .completed => "completed"
  | .failed    => "failed"
  | .skipped   => "skipped"

structure CouplingRunReceipt where
  couplingId : String
  role : CouplingRole
  status : CouplingRunStatus
  reason : Option String
  rootEventId : EventRecordId
  triggerEventId : EventRecordId
  triggerStreamId : String
  triggerSequence : Int
  snapshotId : String
  depth : Nat
  sourceCut : CouplingSourceCut
  sourceEventIds : List EventRecordId
  dischargedEventIds : List EventRecordId
  functionRef : String
  configHash : String
  dischargeEvents : Nat

def CouplingSourceCutEntry.toValue (entry : CouplingSourceCutEntry) : Json :=
  .obj (Json.object [("stream_id", .str entry.streamId), ("max_sequence", .num (.int entry.maxSequence))])

def idsToValue (ids : List EventRecordId) : Json := .arr (ids.map fun id => .str id.uuid.text)

def CouplingRunReceipt.fields (run : CouplingRunReceipt) : List (String × Json) :=
  Json.object [("coupling_id", .str run.couplingId), ("role", .str run.role.asRef),
    ("status", .str run.status.asRef), ("root_event_id", .str run.rootEventId.uuid.text),
    ("trigger_event_id", .str run.triggerEventId.uuid.text),
    ("trigger_stream_id", .str run.triggerStreamId),
    ("trigger_sequence", .num (.int run.triggerSequence)), ("snapshot_id", .str run.snapshotId),
    ("depth", .num (.int run.depth)),
    ("source_cut", .obj [("entries", .arr (run.sourceCut.map (·.toValue)))]),
    ("source_event_ids", idsToValue run.sourceEventIds),
    ("discharged_event_ids", idsToValue run.dischargedEventIds),
    ("function_ref", .str run.functionRef), ("config_hash", .str run.configHash),
    ("budget_spent", .obj [("discharge_events", .num (.int run.dischargeEvents))])]

/-- `serde_json::to_value`: an absent reason is left out. -/
def CouplingRunReceipt.toValue (run : CouplingRunReceipt) : Json :=
  match run.reason with
  | none        => .obj run.fields
  | some reason => .obj (Json.insertField "reason" (.str reason) run.fields)

/-! ### Matching -/

def streamIdFor (coordinates : ThreadCoordinates) (stream : String) : EventStreamId :=
  if stream = "thread" then .forThread coordinates
  else ⟨stream ++ ":" ++ coordinates.threadId.uuid.text⟩

def rootDepthFromEvent (event : EventRecord) : EventRecordId × Nat :=
  match event.origin with
  | .witnessed  => (event.id, 0)
  | .discharged => (event.provenance.sourceEventIds.head?.getD event.id, 1)

/-- `Value::get` of a key. -/
def payloadGet (payload : Json) (key : String) : Option Json :=
  payload.asObject.bind fun fields => Json.get? fields key

def couplingMatchesEvent (coupling : BoundCoupling) (event : EventRecord) : Bool :=
  coupling.triggerKind = event.kind ∧
    coupling.triggerMatch.all fun (key, expected) => payloadGet event.payload key = some expected

/-- `RootDepth`: of the event itself, or that of the activation it comes from. -/
inductive RootDepth where
  | fromEvent
  | inherited (rootEventId : EventRecordId) (depth : Nat)

def RootDepth.of (event : EventRecord) : RootDepth → EventRecordId × Nat
  | .fromEvent                   => rootDepthFromEvent event
  | .inherited rootEventId depth => (rootEventId, depth)

def queuedActivation (snapshotId : String) (rootDepth : RootDepth) (batchIndex : Nat)
    (event : EventRecord) (coupling : BoundCoupling) : QueuedActivation where
  batchIndex := batchIndex
  activation :=
    { rootEventId := (rootDepth.of event).1
      triggerEventId := event.id
      triggerStreamId := event.streamId.text
      triggerSequence := event.sequence
      couplingId := coupling.id
      depth := (rootDepth.of event).2
      snapshotId := snapshotId }
  triggerEvent := event
  coupling := coupling

/-- The activations of a batch, seen before or not. -/
def matchesOf (couplingSet : BoundCouplingSet) (rootDepth : RootDepth) (events : List EventRecord) :
    List QueuedActivation :=
  events.zipIdx.flatMap fun (event, batchIndex) =>
    (couplingSet.couplings.filter fun coupling => couplingMatchesEvent coupling event).map
      (queuedActivation couplingSet.snapshotId rootDepth batchIndex event)

def takeNew : List ActivationKey → List QueuedActivation → List ActivationKey × List QueuedActivation
  | seen, []           => (seen, [])
  | seen, queued :: qs =>
    if ActivationKey.fromActivation queued.activation ∈ seen then takeNew seen qs
    else
      let (seen', rest) := takeNew (.fromActivation queued.activation :: seen) qs
      (seen', queued :: rest)

/-- The order of the candidates of one batch. -/
def QueuedActivation.before (q q' : QueuedActivation) : Bool :=
  q.batchIndex < q'.batchIndex ∨ (q.batchIndex = q'.batchIndex ∧
    (Json.textBefore q.activation.triggerStreamId.toList q'.activation.triggerStreamId.toList ∨
      (q.activation.triggerStreamId = q'.activation.triggerStreamId ∧
        (q.activation.triggerSequence < q'.activation.triggerSequence ∨
          (q.activation.triggerSequence = q'.activation.triggerSequence ∧
            ¬ Json.textBefore q'.activation.couplingId.toList q.activation.couplingId.toList)))))

/-! ### Sources -/

def sourceBefore (e e' : EventRecord) : Bool :=
  Json.textBefore e.streamId.text.toList e'.streamId.text.toList ∨ (e.streamId = e'.streamId ∧
    (e.sequence < e'.sequence ∨ (e.sequence = e'.sequence ∧
      ¬ Json.textBefore e'.id.uuid.text.toList e.id.uuid.text.toList)))

/-- `entry(stream_id)`: the greater sequence is kept, in a listing by stream. -/
def cutStream (streamId : String) (maxSequence : Int) : CouplingSourceCut → CouplingSourceCut
  | []            => [⟨streamId, maxSequence⟩]
  | entry :: rest =>
    if streamId = entry.streamId then ⟨streamId, max entry.maxSequence maxSequence⟩ :: rest
    else if Json.textBefore streamId.toList entry.streamId.toList then
      ⟨streamId, maxSequence⟩ :: entry :: rest
    else entry :: cutStream streamId maxSequence rest

def selectEvents (kinds : List EventKind) : List EventRecord → List EventRecord → List EventRecord
  | selected, []              => selected
  | selected, event :: events =>
    if event.kind ∈ kinds ∧ event.id ∉ selected.map (·.id) then
      selectEvents kinds (selected ++ [event]) events
    else selectEvents kinds selected events

/-- One selector of `resolve_source_cut`. -/
def resolveSelector (read : Reader) (coordinates : ThreadCoordinates)
    (found : CouplingSourceCut × List EventRecord) (selector : BoundCouplingSelector) :
    HistoryResult (CouplingSourceCut × List EventRecord) := do
  let streamId := streamIdFor coordinates selector.stream
  let events ← read streamId
  let maxSequence := ((events.map (·.sequence)).max?).getD 0
  return (cutStream streamId.text maxSequence found.1, selectEvents selector.kinds found.2 events)

def resolveSourceCut (read : Reader) (coupling : BoundCoupling) (triggerEvent : EventRecord) :
    HistoryResult (CouplingSourceCut × List EventRecord) := do
  let (cut, selected) ← coupling.sourceSelectors.foldlM
    (resolveSelector read triggerEvent.coordinates) ([], [])
  return (cut, selected.insertionSort fun e e' => sourceBefore e e')

def eventProvenance (activation : CouplingActivation) (coupling : BoundCoupling)
    (sourceCut : CouplingSourceCut) (sourceEvents : List EventRecord) : EventProvenance :=
  { EventProvenance.empty with
    sourceStreams :=
      if sourceCut.isEmpty then [⟨activation.triggerStreamId⟩]
      else sourceCut.map fun entry => ⟨entry.streamId⟩
    sourceEventIds :=
      if sourceEvents.isEmpty then [activation.triggerEventId] else sourceEvents.map (·.id)
    dischargedBy := some ("coupling:" ++ coupling.id)
    function := some coupling.functionRef
    configHash := some coupling.configHash }

/-! ### Quotas and budgets -/

def quotaExhausted (coupling : BoundCoupling) (perTurnCount perThreadCount : Nat) : Bool :=
  (coupling.triggerQuota.perTurn.any fun limit => limit ≤ perTurnCount) ∨
    coupling.triggerQuota.perThread.any fun limit => limit ≤ perThreadCount

def countedThreadQuotaRun (event : EventRecord) (couplingId : String) : Bool :=
  (event.kind = .couplingRunCompleted ∨ event.kind = .couplingRunFailed) ∧
    (payloadGet event.payload "coupling_id").bind Json.asStr = some couplingId ∧
    (payloadGet event.payload "status").bind Json.asStr ≠ some "skipped"

/-- `Debug` of a kind. -/
def debugKind : EventKind → String
  | .sessionEntryAppended => "SessionEntryAppended"
  | .contextCompileCompleted => "ContextCompileCompleted"
  | .contextSummaryCompleted => "ContextSummaryCompleted"
  | .contextReadPlanSet => "ContextReadPlanSet"
  | .manifestCompileCompleted => "ManifestCompileCompleted"
  | .manifestBindCompleted => "ManifestBindCompleted"
  | .bindingAttached => "BindingAttached"
  | .bindingDetached => "BindingDetached"
  | .toolUniverseDiscoveryCompleted => "ToolUniverseDiscoveryCompleted"
  | .toolUniverseCallCompleted => "ToolUniverseCallCompleted"
  | .toolCallRequested => "ToolCallRequested"
  | .toolCallSuspended => "ToolCallSuspended"
  | .toolCallDecision => "ToolCallDecision"
  | .toolCallCompleted => "ToolCallCompleted"
  | .turnSubmitted => "TurnSubmitted"
  | .turnWaiting => "TurnWaiting"
  | .turnResumed => "TurnResumed"
  | .turnCompleted => "TurnCompleted"
  | .turnFailed => "TurnFailed"
  | .approvalRequested => "ApprovalRequested"
  | .approvalResolved => "ApprovalResolved"
  | .mandateStarted => "MandateStarted"
  | .mandateRevoked => "MandateRevoked"
  | .turnContinueRequested => "TurnContinueRequested"
  | .turnContinuationAccepted => "TurnContinuationAccepted"
  | .turnContinuationRejected => "TurnContinuationRejected"
  | .loopCompleted => "LoopCompleted"
  | .loopBlocked => "LoopBlocked"
  | .loopBudgetExhausted => "LoopBudgetExhausted"
  | .loopDenied => "LoopDenied"
  | .couplingRunCompleted => "CouplingRunCompleted"
  | .couplingRunFailed => "CouplingRunFailed"
  | .placementDecision => "PlacementDecision"
  | .threadSpawnRequested => "ThreadSpawnRequested"
  | .threadSpawned => "ThreadSpawned"
  | .threadJoined => "ThreadJoined"
  | .threadBranchSelected => "ThreadBranchSelected"
  | .threadReloadDegraded => "ThreadReloadDegraded"
  | .policyBound => "PolicyBound"
  | .grantPetitioned => "GrantPetitioned"
  | .timerFired => "TimerFired"
  | .clientRecordAppended => "ClientRecordAppended"
  | .ioIngressReceived => "IoIngressReceived"
  | .ioIngressClaimed => "IoIngressClaimed"
  | .ioIngressSettled => "IoIngressSettled"
  | .ioEgressRequested => "IoEgressRequested"
  | .ioEgressDelivered => "IoEgressDelivered"
  | .ioEgressFailed => "IoEgressFailed"
  | .admissionDecided => "AdmissionDecided"

/-- `validate_discharges`; a failure is its reason. -/
def validateDischarges (coupling : BoundCoupling) (discharges : List CouplingDischarge)
    (remainingDischargeBudget : Nat) : Except String Unit := do
  require (∀ limit ∈ coupling.budget.maxDischargeEvents, discharges.length ≤ limit)
    ("budget: coupling " ++ debugText coupling.id ++ " exceeded max_discharge_events budget")
  require (discharges.length ≤ remainingDischargeBudget)
    ("budget: coupling " ++ debugText coupling.id ++ " exceeded scheduler discharge budget")
  discharges.forM fun discharge => do
    require (discharge.stream = coupling.sink.stream)
      ("sink-violation: coupling " ++ debugText coupling.id ++ " cannot discharge to sink stream " ++
        debugText discharge.stream ++ "; bound sink is " ++ debugText coupling.sink.stream)
    require (discharge.kind ∈ coupling.sink.kinds)
      ("sink-violation: coupling " ++ debugText coupling.id ++ " cannot discharge sink kind " ++
        debugKind discharge.kind)

/-! ### Cycles -/

structure CouplingSchedulerConfig where
  maxDepth : Nat
  maxDischargeEventsPerCycle : Nat

def CouplingSchedulerConfig.default : CouplingSchedulerConfig := ⟨8, 128⟩

/-- `CouplingScheduler`: the store and the executor, which is also told how many invocations came
before.  `draws` are the ids and times of the records it makes, in order; `describe` is the text of
a failed read. -/
structure CouplingScheduler (σ : Type) where
  store : EventStore σ
  executor : Nat → CouplingInvocation → Except String (List CouplingDischarge)
  config : CouplingSchedulerConfig
  draws : Nat → Draw
  describe : HistoryError → String

structure ThreadCouplingRunKey where
  controlStreamId : EventStreamId
  couplingId : String
deriving DecidableEq

/-- What became of an activation that was taken up. -/
structure Attempt where
  queued : QueuedActivation
  /-- What the executor answered, if it was invoked. -/
  answer : Option (Except String (List CouplingDischarge))
  sinkEvents : List EventRecord
  receipts : List EventRecord

/-- What `run_batch` holds, and the store.  The attempts are those of the cycle, the last first. -/
structure Cycle (σ : Type) where
  store : σ
  queue : List QueuedActivation
  seen : List ActivationKey
  runs : List CouplingRunReceipt
  appendedEvents : List EventRecord
  perTurnRunCounts : Map String Nat
  perThreadRunCounts : Map ThreadCouplingRunKey Nat
  remainingDischargeBudget : Nat
  drawn : Nat
  invoked : Nat
  attempts : List Attempt

variable {σ : Type}

def Cycle.enqueueMatches (couplingSet : BoundCouplingSet) (rootDepth : RootDepth)
    (events : List EventRecord) (cycle : Cycle σ) : Cycle σ :=
  let (seen, candidates) := takeNew cycle.seen (matchesOf couplingSet rootDepth events)
  { cycle with
    seen := seen
    queue := cycle.queue ++ candidates.insertionSort fun q q' => q.before q' }

/-- Remember something of the activation at hand. -/
def Cycle.note (f : Attempt → Attempt) (cycle : Cycle σ) : Cycle σ :=
  { cycle with attempts := cycle.attempts.modifyHead f }

variable (scheduler : CouplingScheduler σ)

/-- `append_events` of the store. -/
def CouplingScheduler.append (streamId : EventStreamId)
    (records : List NewEventRecord) : Fallible VerletError (Cycle σ) (List EventRecord) :=
  fun cycle =>
    (orHistory (scheduler.store.appendEvents streamId records cycle.store).1,
      { cycle with
        store := (scheduler.store.appendEvents streamId records cycle.store).2
        drawn := cycle.drawn + records.length })

variable (queued : QueuedActivation)

def CouplingScheduler.threadRunCount :
    Fallible VerletError (Cycle σ) (ThreadCouplingRunKey × Nat) := do
  let streamId := streamIdFor queued.triggerEvent.coordinates "control"
  let key : ThreadCouplingRunKey := ⟨streamId, queued.coupling.id⟩
  match ← reading fun cycle => .ok (cycle.perThreadRunCounts.lookup key) with
  | some count => return (key, count)
  | none =>
    let events ← reading fun cycle => orHistory (scheduler.store.readEvents streamId cycle.store)
    let count := (events.countP fun event => countedThreadQuotaRun event queued.coupling.id) % 2 ^ 32
    writing fun cycle =>
      { cycle with perThreadRunCounts := cycle.perThreadRunCounts.insert key count }
    return (key, count)

/-- A run is admitted: its counters go up. -/
def Cycle.countRun (threadCount : Option (ThreadCouplingRunKey × Nat))
    (cycle : Cycle σ) : Cycle σ :=
  { cycle with
    perTurnRunCounts := cycle.perTurnRunCounts.insert queued.coupling.id
      ((cycle.perTurnRunCounts.lookup queued.coupling.id).getD 0 + 1)
    perThreadRunCounts :=
      match threadCount with
      | some (key, _) => cycle.perThreadRunCounts.insert key
          ((cycle.perThreadRunCounts.lookup key).getD 0 + 1)
      | none => cycle.perThreadRunCounts }

/-- `executor.invoke`. -/
def CouplingScheduler.invoke (request : CouplingInvocation) :
    Fallible VerletError (Cycle σ) (Except String (List CouplingDischarge)) := do
  let answer ← reading fun cycle => .ok (scheduler.executor cycle.invoked request)
  writing fun cycle =>
    { cycle with invoked := cycle.invoked + 1 }.note fun attempt => { attempt with answer := some answer }
  return answer

def dischargeRecord (provenance : EventProvenance) (draw : Draw)
    (discharge : CouplingDischarge) : NewEventRecord :=
  let record : NewEventRecord := .discharged draw queued.triggerEvent.coordinates discharge.kind
    discharge.payload provenance
  { record with id := discharge.eventId.getD record.id }

/-- `records_by_stream`: the record joins those of its stream, in a listing by stream. -/
def pushRecord (stream : String) (record : NewEventRecord) :
    List (String × List NewEventRecord) → List (String × List NewEventRecord)
  | [] => [(stream, [record])]
  | (stream', records) :: rest =>
    if stream = stream' then (stream', records ++ [record]) :: rest
    else if Json.textBefore stream.toList stream'.toList then
      (stream, [record]) :: (stream', records) :: rest
    else (stream', records) :: pushRecord stream record rest

/-- The records of the discharges, by stream; `drawn` ids were drawn before. -/
def recordsByStream (draws : Nat → Draw) (drawn : Nat) (queued : QueuedActivation)
    (provenance : EventProvenance) (discharges : List CouplingDischarge) :
    List (String × List NewEventRecord) :=
  discharges.zipIdx.foldl
    (fun groups (discharge, i) => pushRecord discharge.stream
      (dischargeRecord queued provenance (draws (drawn + i)) discharge) groups) []

def CouplingScheduler.appendSinkEvents
    (sourceCut : CouplingSourceCut) (sourceEvents : List EventRecord)
    (discharges : List CouplingDischarge) : Fallible VerletError (Cycle σ) (List EventRecord) := do
  let provenance := eventProvenance queued.activation queued.coupling sourceCut sourceEvents
  let groups ← reading fun cycle =>
    .ok (recordsByStream scheduler.draws cycle.drawn queued provenance discharges)
  let appended ← groups.mapM fun (stream, records) =>
    scheduler.append (streamIdFor queued.triggerEvent.coordinates stream) records
  writing (Cycle.note fun attempt => { attempt with sinkEvents := appended.flatten })
  return appended.flatten

/-- How an activation ends: what its receipt says, what was appended for it, and whether that may
activate others. -/
structure Exit where
  status : CouplingRunStatus
  reason : Option String
  sourceCut : CouplingSourceCut
  sourceEvents : List EventRecord
  sinkEvents : List EventRecord
  enqueues : Bool

def runReceipt (exit : Exit) : CouplingRunReceipt where
  couplingId := queued.coupling.id
  role := queued.coupling.role
  status := exit.status
  reason := exit.reason
  rootEventId := queued.activation.rootEventId
  triggerEventId := queued.activation.triggerEventId
  triggerStreamId := queued.activation.triggerStreamId
  triggerSequence := queued.activation.triggerSequence
  snapshotId := queued.activation.snapshotId
  depth := queued.activation.depth
  sourceCut := exit.sourceCut
  sourceEventIds := exit.sourceEvents.map (·.id)
  dischargedEventIds := exit.sinkEvents.map (·.id)
  functionRef := queued.coupling.functionRef
  configHash := queued.coupling.configHash
  dischargeEvents := exit.sinkEvents.length

def CouplingRunStatus.receiptKind : CouplingRunStatus → EventKind
  | .completed         => .couplingRunCompleted
  | .failed | .skipped => .couplingRunFailed

def receiptRecord (exit : Exit) (draw : Draw) : NewEventRecord :=
  .discharged draw queued.triggerEvent.coordinates exit.status.receiptKind
    (runReceipt queued exit).toValue
    (eventProvenance queued.activation queued.coupling exit.sourceCut exit.sourceEvents)

def CouplingScheduler.appendRunReceipt
    (exit : Exit) : Fallible VerletError (Cycle σ) (List EventRecord) := do
  let record ← reading fun cycle => .ok (receiptRecord queued exit (scheduler.draws cycle.drawn))
  let appended ← scheduler.append (streamIdFor queued.triggerEvent.coordinates "control") [record]
  writing (Cycle.note fun attempt => { attempt with receipts := appended })
  return appended

def CouplingScheduler.threadCount :
    Fallible VerletError (Cycle σ) (Option (ThreadCouplingRunKey × Nat)) :=
  if queued.coupling.triggerQuota.perThread.isSome then some <$> scheduler.threadRunCount queued
  else pure none

/-- An admitted activation, up to its receipt. -/
def CouplingScheduler.runAdmitted : Fallible VerletError (Cycle σ) Exit := do
  let source ← reading fun cycle =>
    .ok (resolveSourceCut (fun streamId => scheduler.store.readEvents streamId cycle.store)
      queued.coupling queued.triggerEvent)
  match source with
  | .error err => return ⟨.failed, some (scheduler.describe err), [], [], [], true⟩
  | .ok (sourceCut, sourceEvents) =>
    match ← scheduler.invoke
      ⟨queued.activation, queued.coupling, queued.triggerEvent, sourceCut, sourceEvents⟩ with
    | .error err => return ⟨.failed, some err, sourceCut, sourceEvents, [], true⟩
    | .ok discharges =>
      let budget ← reading fun cycle => .ok cycle.remainingDischargeBudget
      match validateDischarges queued.coupling discharges budget with
      | .error reason => return ⟨.failed, some reason, sourceCut, sourceEvents, [], true⟩
      | .ok () =>
        let sinkEvents ← scheduler.appendSinkEvents queued sourceCut sourceEvents discharges
        writing fun cycle => { cycle with
          remainingDischargeBudget := cycle.remainingDischargeBudget - sinkEvents.length }
        return ⟨.completed, none, sourceCut, sourceEvents, sinkEvents, true⟩

/-- An activation, up to its receipt. -/
def CouplingScheduler.settle : Fallible VerletError (Cycle σ) Exit := do
  if scheduler.config.maxDepth < queued.activation.depth then
    return ⟨.skipped, some "depth_limit_exhausted", [], [], [], false⟩
  else
    let perTurnCount ← reading fun cycle =>
      .ok ((cycle.perTurnRunCounts.lookup queued.coupling.id).getD 0)
    let threadCount ← scheduler.threadCount queued
    if quotaExhausted queued.coupling perTurnCount ((threadCount.map (·.2)).getD 0) then
      return ⟨.skipped, some "quota_exhausted", [], [], [], true⟩
    else
      writing (Cycle.countRun queued threadCount)
      scheduler.runAdmitted queued

/-- What an activation that has its receipt adds to the cycle. -/
def Cycle.finish (couplingSet : BoundCouplingSet) (queued : QueuedActivation) (exit : Exit)
    (receipt : List EventRecord) (cycle : Cycle σ) : Cycle σ :=
  let cycle := if exit.enqueues then
      cycle.enqueueMatches couplingSet
        (.inherited queued.activation.rootEventId (queued.activation.depth + 1))
        (exit.sinkEvents ++ receipt)
    else cycle
  { cycle with
    appendedEvents := cycle.appendedEvents ++ exit.sinkEvents ++ receipt
    runs := cycle.runs ++ [runReceipt queued exit] }

/-- One round of the loop of `run_batch`, for an activation. -/
def CouplingScheduler.runActivation (couplingSet : BoundCouplingSet) (queued : QueuedActivation) :
    Fallible VerletError (Cycle σ) Unit := do
  let exit ← scheduler.settle queued
  let receipt ← scheduler.appendRunReceipt queued exit
  writing (Cycle.finish couplingSet queued exit receipt)

def Cycle.takeUp (rest : List QueuedActivation) (cycle : Cycle σ) : Cycle σ :=
  { cycle with queue := rest, attempts := ⟨queued, none, [], []⟩ :: cycle.attempts }

/-- One round of the loop of `run_batch`. -/
def CouplingScheduler.round (couplingSet : BoundCouplingSet) :
    Fallible VerletError (Cycle σ) Unit := fun cycle =>
  match cycle.queue with
  | []             => (.ok (), cycle)
  | queued :: rest => exec (scheduler.runActivation couplingSet queued) (cycle.takeUp queued rest)

/-- The cycle that a batch starts. -/
def CouplingScheduler.start (couplingSet : BoundCouplingSet)
    (appended : List EventRecord) (store : σ) : Cycle σ :=
  Cycle.enqueueMatches couplingSet .fromEvent appended
    { store := store, queue := [], seen := [], runs := [], appendedEvents := [], perTurnRunCounts := ∅
      perThreadRunCounts := ∅
      remainingDischargeBudget := scheduler.config.maxDischargeEventsPerCycle
      drawn := 0, invoked := 0, attempts := [] }

/-- The rounds that an activation and all it leads to can take at most. -/
def CouplingSchedulerConfig.weight (config : CouplingSchedulerConfig) (couplingSet : BoundCouplingSet)
    (queued : QueuedActivation) : Nat :=
  (couplingSet.couplings.length * (config.maxDischargeEventsPerCycle + 1) + 1) ^
    (config.maxDepth + 1 - queued.activation.depth)

/-- The rounds that the queue can take at most. -/
def Cycle.weight (config : CouplingSchedulerConfig) (couplingSet : BoundCouplingSet)
    (cycle : Cycle σ) : Nat := (cycle.queue.map (config.weight couplingSet)).sum

structure CouplingSchedulerCycleReceipt where
  snapshotId : String
  runs : List CouplingRunReceipt
  appendedEvents : List EventRecord

/-- `run_batch`, on the cycle that the batch starts. -/
def CouplingScheduler.runCycle (couplingSet : BoundCouplingSet) :
    Fallible VerletError (Cycle σ) CouplingSchedulerCycleReceipt := fun cycle =>
  exec (do
    loop (scheduler.round couplingSet) (fun cycle => cycle.queue.isEmpty)
      (.history (.store .diverged)) (cycle.weight scheduler.config couplingSet + 1)
    reading fun cycle => .ok ⟨couplingSet.snapshotId, cycle.runs, cycle.appendedEvents⟩) cycle

/-- `run_batch`: its result, and the cycle it leaves. -/
def CouplingScheduler.runBatch (couplingSet : BoundCouplingSet)
    (appended : List EventRecord) (store : σ) :
    VerletResult CouplingSchedulerCycleReceipt × Cycle σ :=
  exec (scheduler.runCycle couplingSet) (scheduler.start couplingSet appended store)

end Verlet.Kernel
