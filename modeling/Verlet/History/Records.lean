import Verlet.Contracts.Schema
import Verlet.History.Messages

/-!
# History — Records

Events, their provenance and their wire envelope; the base a forked thread reads through; the
errors of the stores; and the events the stores themselves write, `session.entry.appended` and
`thread.branch.selected`.

A stored event passed `validateStreamRecordV1`, the frozen V1 schema of its envelope (and of its
payload, for `io.egress.requested`).
-/

namespace Verlet.History

/-! ### Event kinds -/

/-- The frozen vocabulary `cooldis.events/0.5`. -/
inductive EventKind where
  | sessionEntryAppended
  | contextCompileCompleted
  | contextSummaryCompleted
  | contextReadPlanSet
  | manifestCompileCompleted
  | manifestBindCompleted
  | bindingAttached
  | bindingDetached
  | toolUniverseDiscoveryCompleted
  | toolUniverseCallCompleted
  | toolCallRequested
  | toolCallSuspended
  | toolCallDecision
  | toolCallCompleted
  | turnSubmitted
  | turnWaiting
  | turnResumed
  | turnCompleted
  | turnFailed
  | approvalRequested
  | approvalResolved
  | mandateStarted
  | mandateRevoked
  | turnContinueRequested
  | turnContinuationAccepted
  | turnContinuationRejected
  | loopCompleted
  | loopBlocked
  | loopBudgetExhausted
  | loopDenied
  | couplingRunCompleted
  | couplingRunFailed
  | placementDecision
  | threadSpawnRequested
  | threadSpawned
  | threadJoined
  | threadBranchSelected
  | threadReloadDegraded
  | policyBound
  | grantPetitioned
  | timerFired
  | clientRecordAppended
  | ioIngressReceived
  | ioIngressClaimed
  | ioIngressSettled
  | ioEgressRequested
  | ioEgressDelivered
  | ioEgressFailed
  | admissionDecided
deriving DecidableEq

def EventKind.asRef : EventKind → String
  | .sessionEntryAppended           => "session.entry.appended"
  | .contextCompileCompleted        => "context.compile.completed"
  | .contextSummaryCompleted        => "context.summary.completed"
  | .contextReadPlanSet             => "context.read_plan.set"
  | .manifestCompileCompleted       => "manifest.compile.completed"
  | .manifestBindCompleted          => "manifest.bind.completed"
  | .bindingAttached                => "binding.attached"
  | .bindingDetached                => "binding.detached"
  | .toolUniverseDiscoveryCompleted => "tool.universe.discovery.completed"
  | .toolUniverseCallCompleted      => "tool.universe.call.completed"
  | .toolCallRequested              => "tool.call.requested"
  | .toolCallSuspended              => "tool.call.suspended"
  | .toolCallDecision               => "tool.call.decision"
  | .toolCallCompleted              => "tool.call.completed"
  | .turnSubmitted                  => "turn.submitted"
  | .turnWaiting                    => "turn.waiting"
  | .turnResumed                    => "turn.resumed"
  | .turnCompleted                  => "turn.completed"
  | .turnFailed                     => "turn.failed"
  | .approvalRequested              => "approval.requested"
  | .approvalResolved               => "approval.resolved"
  | .mandateStarted                 => "mandate.started"
  | .mandateRevoked                 => "mandate.revoked"
  | .turnContinueRequested          => "turn.continue.requested"
  | .turnContinuationAccepted       => "turn.continuation.accepted"
  | .turnContinuationRejected       => "turn.continuation.rejected"
  | .loopCompleted                  => "loop.completed"
  | .loopBlocked                    => "loop.blocked"
  | .loopBudgetExhausted            => "loop.budget_exhausted"
  | .loopDenied                     => "loop.denied"
  | .couplingRunCompleted           => "coupling.run.completed"
  | .couplingRunFailed              => "coupling.run.failed"
  | .placementDecision              => "placement.decision"
  | .threadSpawnRequested           => "thread.spawn.requested"
  | .threadSpawned                  => "thread.spawned"
  | .threadJoined                   => "thread.joined"
  | .threadBranchSelected           => "thread.branch.selected"
  | .threadReloadDegraded           => "thread.reload.degraded"
  | .policyBound                    => "policy.bound"
  | .grantPetitioned                => "grant.petitioned"
  | .timerFired                     => "timer.fired"
  | .clientRecordAppended           => "client.record.appended"
  | .ioIngressReceived              => "io.ingress.received"
  | .ioIngressClaimed               => "io.ingress.claimed"
  | .ioIngressSettled               => "io.ingress.settled"
  | .ioEgressRequested              => "io.egress.requested"
  | .ioEgressDelivered              => "io.egress.delivered"
  | .ioEgressFailed                 => "io.egress.failed"
  | .admissionDecided               => "admission.decided"

/-- Every kind, in the order of the vocabulary. -/
def EventKind.all : List EventKind :=
  [.sessionEntryAppended, .contextCompileCompleted, .contextSummaryCompleted, .contextReadPlanSet,
    .manifestCompileCompleted, .manifestBindCompleted, .bindingAttached, .bindingDetached,
    .toolUniverseDiscoveryCompleted, .toolUniverseCallCompleted, .toolCallRequested,
    .toolCallSuspended, .toolCallDecision, .toolCallCompleted, .turnSubmitted, .turnWaiting,
    .turnResumed, .turnCompleted, .turnFailed, .approvalRequested, .approvalResolved,
    .mandateStarted, .mandateRevoked, .turnContinueRequested, .turnContinuationAccepted,
    .turnContinuationRejected, .loopCompleted, .loopBlocked, .loopBudgetExhausted, .loopDenied,
    .couplingRunCompleted, .couplingRunFailed, .placementDecision, .threadSpawnRequested,
    .threadSpawned, .threadJoined, .threadBranchSelected, .threadReloadDegraded, .policyBound,
    .grantPetitioned, .timerFired, .clientRecordAppended, .ioIngressReceived, .ioIngressClaimed,
    .ioIngressSettled, .ioEgressRequested, .ioEgressDelivered, .ioEgressFailed, .admissionDecided]

def EventKind.tryFrom (text : String) : Option EventKind :=
  EventKind.all.find? fun kind => kind.asRef = text

set_option maxRecDepth 4000 in
theorem EventKind.tryFrom_asRef (kind : EventKind) : tryFrom kind.asRef = some kind := by
  cases kind <;> decide

theorem EventKind.asRef_injective {kind kind' : EventKind} (h : kind.asRef = kind'.asRef) :
    kind = kind' := by
  have hsame := kind.tryFrom_asRef
  rw [h, tryFrom_asRef] at hsame
  exact (Option.some.inj hsame).symm

def EventKind.payloadSchemaId (kind : EventKind) : String := "cooldis.event." ++ kind.asRef ++ "/1"

/-! ### Events -/

inductive EventOrigin where
  | witnessed
  | discharged
deriving DecidableEq

def EventOrigin.asRef : EventOrigin → String
  | .witnessed  => "witnessed"
  | .discharged => "discharged"

def EventOrigin.fromStr (text : String) : Option EventOrigin :=
  [EventOrigin.witnessed, .discharged].find? fun origin => origin.asRef = text

theorem EventOrigin.fromStr_asRef (origin : EventOrigin) : fromStr origin.asRef = some origin := by
  cases origin <;> decide

structure ObservationSourceRange where
  streamId : EventStreamId
  fromSequence : EventSequence
  toSequence : EventSequence
deriving DecidableEq

structure EventProvenance where
  sourceStreams : List EventStreamId
  sourceEventIds : List EventRecordId
  sourceRange : Option ObservationSourceRange
  sourceRanges : List ObservationSourceRange
  dischargedBy : Option String
  function : Option String
  configHash : Option String
deriving DecidableEq

/-- `EventProvenance::default`. -/
def EventProvenance.empty : EventProvenance := ⟨[], [], none, [], none, none, none⟩

def EventProvenance.isEmpty (p : EventProvenance) : Bool :=
  p.sourceStreams.isEmpty && p.sourceEventIds.isEmpty && p.sourceRange.isNone &&
    p.sourceRanges.isEmpty && p.dischargedBy.isNone && p.function.isNone && p.configHash.isNone

structure NewEventRecord where
  id : EventRecordId
  coordinates : ThreadCoordinates
  createdAtMs : Int
  kind : EventKind
  origin : EventOrigin
  provenance : EventProvenance
  payload : Json
deriving DecidableEq

structure EventRecord where
  id : EventRecordId
  streamId : EventStreamId
  sequence : EventSequence
  coordinates : ThreadCoordinates
  createdAtMs : Int
  kind : EventKind
  origin : EventOrigin
  provenance : EventProvenance
  payload : Json
deriving DecidableEq

def EventRecord.fromNew (streamId : EventStreamId) (sequence : EventSequence)
    (record : NewEventRecord) : EventRecord where
  id := record.id
  streamId := streamId
  sequence := sequence
  coordinates := record.coordinates
  createdAtMs := record.createdAtMs
  kind := record.kind
  origin := record.origin
  provenance := record.provenance
  payload := record.payload

/-- The wire envelope of one stored event. -/
structure StreamRecordEnvelopeV1 where
  schema : String
  eventId : EventRecordId
  streamId : EventStreamId
  sequence : EventSequence
  coordinates : ThreadCoordinates
  createdAtMs : Int
  kind : String
  origin : EventOrigin
  payloadSchema : String
  traceContext : Option Json
  provenance : EventProvenance
  payload : Json
deriving DecidableEq

def streamRecordSchemaIdV1 : String := "cooldis.stream.record/1"
def streamCursorSchemaIdV1 : String := "cooldis.stream.cursor/1"

def EventRecord.toStreamRecordV1 (e : EventRecord) : StreamRecordEnvelopeV1 where
  schema := streamRecordSchemaIdV1
  eventId := e.id
  streamId := e.streamId
  sequence := e.sequence
  coordinates := e.coordinates
  createdAtMs := e.createdAtMs
  kind := e.kind.asRef
  origin := e.origin
  payloadSchema := e.kind.payloadSchemaId
  traceContext := none
  provenance := e.provenance
  payload := e.payload

structure StreamCursorV1 where
  schema : String
  streamId : EventStreamId
  sequence : EventSequence
  eventId : EventRecordId
deriving DecidableEq

def EventRecord.cursorV1 (e : EventRecord) : StreamCursorV1 :=
  ⟨streamCursorSchemaIdV1, e.streamId, e.sequence, e.id⟩

/-! ### Bases -/

inductive ThreadForkReason where
  | manifestUpdate
  | toolAdded
  | modelChanged
  | manual
deriving DecidableEq

/-- What a forked thread reads its inherited history through. -/
structure ThreadBaseRef where
  childThreadId : ThreadId
  parentThreadId : ThreadId
  parentCheckpointId : Option ThreadCheckpointId
  parentLeafEntryId : Option SessionEntryId
  parentStreamId : EventStreamId
  parentStreamToSequence : Option EventSequence
  parentBindingSnapshotId : Option String
  reason : ThreadForkReason
  createdAtMs : Int
deriving DecidableEq

structure SessionContextSourceCut where
  coordinates : ThreadCoordinates
  streamId : EventStreamId
  inherited : Bool
  entryIds : List SessionEntryId
deriving DecidableEq

structure SessionContext where
  entries : List SessionEntry
  messages : List CanonicalMessage
  sourceCuts : List SessionContextSourceCut
deriving DecidableEq

/-! ### Errors -/

/-- The texts of `HistoryError::Storage`. -/
inductive StorageDetail where
  | turnInputMismatch (turnId : String)
  | baseChildNotRequested (child requested : ThreadId)
  | baseParentNotSource (parent source : ThreadId)
  | baseChildNotTarget (child target : ThreadId)
  | baseStreamNotSource (parentStream sourceStream : EventStreamId)
  | leaseEpochInvalid (streamId : EventStreamId)
  | leaseEpochOutOfRange (streamId : EventStreamId)
  | constraint (table : String)
deriving DecidableEq

/-- The texts of `HistoryError::Codec`. -/
inductive CodecDetail where
  | schema (error : Schema.ValidationError)
  | cursorSchema (schema : String)
  | cursorSequence (sequence : EventSequence)
  | unreadable (column : String)
  | rowSchema (eventId : EventRecordId) (schema : String)
  | rowKind (kind : String)
  | rowPayloadSchema (eventId : EventRecordId) (kind : EventKind) (payloadSchema : String)
  | rowOrigin (origin : String)
  | branchSelectedThread (payload stored : ThreadId)
  | ackEmpty
  | ackNoClass
  | ackStream (eventId : EventRecordId) (actual expected : EventStreamId)
  | ackSequence (expected actual : EventSequence)
deriving DecidableEq

inductive HistoryError where
  | entryNotFound (entryId : SessionEntryId)
  | entryThreadMismatch (entryId : SessionEntryId) (requested actual : ThreadId)
  | threadScopeMismatch (requested actual : ThreadCoordinates)
  | threadBaseCycle (child ancestor : ThreadId)
  | storage (detail : StorageDetail)
  | codec (detail : CodecDetail)
  | dischargedWithoutProvenance (id : EventRecordId)
  | duplicateEventId (id : EventRecordId)
  | streamCursorStreamMismatch (cursor requested : EventStreamId)
  | streamCursorMismatch (streamId : EventStreamId) (sequence : EventSequence)
      (expected : EventRecordId) (actualSequence : Option EventSequence)
      (actualEventId : Option EventRecordId)
  | appendFenceConflict (streamId : EventStreamId) (expected actual : EventSequence)
  | staleLeaseEpoch (streamId : EventStreamId) (presented minimum : Nat)
  /-- No error of the source: a loop of the source that would not end. -/
  | diverged
deriving DecidableEq

abbrev HistoryResult (α : Type) := Except HistoryError α

def okOr {α : Type} (error : HistoryError) : Option α → HistoryResult α
  | some a => .ok a
  | none   => .error error

@[simp] theorem okOr_some {α : Type} (error : HistoryError) (a : α) : okOr error (some a) = .ok a :=
  rfl

@[simp] theorem okOr_none {α : Type} (error : HistoryError) :
    okOr error (none : Option α) = .error error := rfl

def validateEntryCoordinates (requested : ThreadCoordinates) (entry : SessionEntry) :
    HistoryResult Unit :=
  if entry.coordinates = requested then .ok ()
  else if entry.coordinates.threadId ≠ requested.threadId then
    .error (.entryThreadMismatch entry.entryId requested.threadId entry.coordinates.threadId)
  else .error (.threadScopeMismatch requested entry.coordinates)

theorem validateEntryCoordinates_ok {requested : ThreadCoordinates} {entry : SessionEntry} :
    validateEntryCoordinates requested entry = .ok () ↔ entry.coordinates = requested := by
  unfold validateEntryCoordinates
  split
  · simp [*]
  · split <;> simp [*]

def validateNewEvent (record : NewEventRecord) : HistoryResult Unit :=
  if record.origin = .discharged ∧ record.provenance.isEmpty then
    .error (.dischargedWithoutProvenance record.id)
  else .ok ()

def validateThreadBaseRef (source target : ThreadCoordinates) (base : ThreadBaseRef) :
    HistoryResult Unit :=
  if source.scope ≠ target.scope then .error (.threadScopeMismatch target source)
  else if base.parentThreadId ≠ source.threadId then
    .error (.storage (.baseParentNotSource base.parentThreadId source.threadId))
  else if base.childThreadId ≠ target.threadId then
    .error (.storage (.baseChildNotTarget base.childThreadId target.threadId))
  else if base.parentStreamId ≠ .forThread source then
    .error (.storage (.baseStreamNotSource base.parentStreamId (.forThread source)))
  else .ok ()

theorem validateThreadBaseRef_ok {source target : ThreadCoordinates} {base : ThreadBaseRef} :
    validateThreadBaseRef source target base = .ok () ↔ source.scope = target.scope ∧
      base.parentThreadId = source.threadId ∧ base.childThreadId = target.threadId ∧
      base.parentStreamId = .forThread source := by
  unfold validateThreadBaseRef
  split_ifs <;> simp_all

/-! ### Acknowledgements -/

inductive StreamAckClass where
  | localCommitted
  | queryProjected
  | streamCommitted
  | broadcastVisible
  | archived
deriving DecidableEq

/-- What a committed append answers. -/
structure StreamAppendAckV1 where
  schema : String
  streamId : EventStreamId
  startSequence : EventSequence
  endSequence : EventSequence
  tailSequence : EventSequence
  tailEventId : EventRecordId
  acks : List StreamAckClass
deriving DecidableEq

def streamAppendAckSchemaIdV1 : String := "cooldis.stream.append_ack/1"

/-- The loop of `from_appended`: the events from place `index` on. -/
def checkAppended (streamId : EventStreamId) (first : EventSequence) :
    Nat → List EventRecord → HistoryResult Unit
  | _,     []              => .ok ()
  | index, event :: events =>
    if event.streamId ≠ streamId then
      .error (.codec (.ackStream event.id event.streamId streamId))
    else if event.sequence ≠ first + index then
      .error (.codec (.ackSequence (first + index) event.sequence))
    else checkAppended streamId first (index + 1) events

def StreamAppendAckV1.fromAppended (streamId : EventStreamId) (appended : List EventRecord)
    (acks : List StreamAckClass) : HistoryResult StreamAppendAckV1 := do
  let first ← okOr (.codec .ackEmpty) appended.head?
  let last ← okOr (.codec .ackEmpty) appended.getLast?
  if acks.isEmpty then throw (.codec .ackNoClass)
  checkAppended streamId first.sequence 0 appended
  return ⟨streamAppendAckSchemaIdV1, streamId, first.sequence, last.sequence, last.sequence,
    last.id, acks⟩

/-! ### What the stores draw -/

/-- The ids and times one new session entry and its event take from `now_v7` and `now_ms`. -/
structure Draw where
  entryId : SessionEntryId
  entryAtMs : Int
  eventId : EventRecordId
  eventAtMs : Int

def SessionEntry.new (draw : Draw) (coordinates : ThreadCoordinates)
    (parentEntryId : Option SessionEntryId) (kind : SessionEntryKind) : SessionEntry where
  entryId := draw.entryId
  parentEntryId := parentEntryId
  turnId := none
  coordinates := coordinates
  createdAtMs := draw.entryAtMs
  kind := kind

def SessionEntry.forTurn (draw : Draw) (coordinates : ThreadCoordinates)
    (parentEntryId : Option SessionEntryId) (turnId : String) (kind : SessionEntryKind) :
    SessionEntry :=
  { SessionEntry.new draw coordinates parentEntryId kind with turnId := some turnId }

def NewEventRecord.witnessed (draw : Draw) (coordinates : ThreadCoordinates) (kind : EventKind)
    (payload : Json) : NewEventRecord where
  id := draw.eventId
  coordinates := coordinates
  createdAtMs := draw.eventAtMs
  kind := kind
  origin := .witnessed
  provenance := .empty
  payload := payload

def NewEventRecord.discharged (draw : Draw) (coordinates : ThreadCoordinates) (kind : EventKind)
    (payload : Json) (provenance : EventProvenance) : NewEventRecord where
  id := draw.eventId
  coordinates := coordinates
  createdAtMs := draw.eventAtMs
  kind := kind
  origin := .discharged
  provenance := provenance
  payload := payload

/-! ### The stores' own events -/

def CanonicalUsage.toValue (u : CanonicalUsage) : Json :=
  .obj (Json.object [("input_tokens", .num (.int u.inputTokens)),
    ("output_tokens", .num (.int u.outputTokens)),
    ("cache_creation_input_tokens", .num (.int u.cacheCreationInputTokens)),
    ("cache_read_input_tokens", .num (.int u.cacheReadInputTokens))])

/-- The payload of an entry's `session.entry.appended` event. -/
def sessionEntryPayload (entry : SessionEntry) : List (String × Json) :=
  let payload := Json.object [("entry_id", .str entry.entryId.uuid.text),
    ("parent_entry_id", .ofOption (fun id => id.uuid.text) entry.parentEntryId),
    ("entry_kind", .str entry.kind.asRef)]
  let payload := match entry.turnId with
    | some turnId => Json.insertField "turn_id" (.str turnId) payload
    | none => payload
  match entry.kind with
  | .runtime kind runtimePayload =>
    Json.insertField "runtime_payload" runtimePayload
      (Json.insertField "runtime_kind" (.str kind) payload)
  | .message (.assistant _ _ _ _ usage _ _ _)
  | .customContextMessage (.assistant _ _ _ _ usage _ _ _) =>
    Json.insertField "usage" usage.toValue payload
  | _ => payload

/-- The provenance an entry's event carries when its author gave none. -/
def sessionStoreProvenance : EventProvenance :=
  { EventProvenance.empty with dischargedBy := some "session-store:append" }

/-- `session_entry_event_with_optional_provenance`: a user's entry is witnessed, any other is
discharged. -/
def sessionEntryEvent (draw : Draw) (entry : SessionEntry) (provenance : Option EventProvenance) :
    NewEventRecord :=
  if sessionEntryIsUserAuthored entry.kind then
    .witnessed draw entry.coordinates .sessionEntryAppended (.obj (sessionEntryPayload entry))
  else
    .discharged draw entry.coordinates .sessionEntryAppended (.obj (sessionEntryPayload entry))
      (provenance.getD sessionStoreProvenance)

structure ThreadBranchSelectedPayload where
  threadId : ThreadId
  selectedEntryId : Option SessionEntryId
  priorEntryId : Option SessionEntryId

/-- `Serialize`: an absent id is left out. -/
def ThreadBranchSelectedPayload.toValue (p : ThreadBranchSelectedPayload) : Json :=
  let fields := Json.object [("thread_id", .str p.threadId.uuid.text)]
  let fields := match p.selectedEntryId with
    | some id => Json.insertField "selected_entry_id" (.str id.uuid.text) fields
    | none => fields
  .obj (match p.priorEntryId with
    | some id => Json.insertField "prior_entry_id" (.str id.uuid.text) fields
    | none => fields)

/-- `Deserialize` of a UUID: its text in any of its forms. -/
def uuidFromValue (value : Json) : Option Uuid := value.asStr.bind Uuid.parseStr

/-- `Deserialize` of an optional entry id: `null` or absent is no id. -/
def optionalEntryIdFromValue : Option Json → Option (Option SessionEntryId)
  | none | some .null => some none
  | some value        => (uuidFromValue value).map fun u => some ⟨u⟩

/-- `Deserialize`. -/
def ThreadBranchSelectedPayload.fromValue (value : Json) : Option ThreadBranchSelectedPayload := do
  let fields ← value.asObject
  let thread ← uuidFromValue (← Json.get? fields "thread_id")
  let selected ← optionalEntryIdFromValue (Json.get? fields "selected_entry_id")
  let prior ← optionalEntryIdFromValue (Json.get? fields "prior_entry_id")
  return ⟨⟨thread⟩, selected, prior⟩

theorem optionalEntryIdFromValue_str (id : SessionEntryId) :
    optionalEntryIdFromValue (some (.str id.uuid.text)) = some (some id) := by
  simp [optionalEntryIdFromValue, uuidFromValue, Json.asStr, Uuid.parse_text]

theorem ThreadBranchSelectedPayload.fromValue_toValue (p : ThreadBranchSelectedPayload) :
    fromValue p.toValue = some p := by
  obtain ⟨thread, selected, prior⟩ := p
  cases selected <;> cases prior <;>
    simp [fromValue, toValue, Json.asObject, Json.object, optionalEntryIdFromValue, uuidFromValue,
      Json.asStr, Uuid.parse_text]

theorem sessionEntryPayload_entryId (entry : SessionEntry) :
    Json.index (.obj (sessionEntryPayload entry)) "entry_id" = .str entry.entryId.uuid.text := by
  have hbase : Json.get? (sessionEntryPayload entry) "entry_id" =
      some (.str entry.entryId.uuid.text) := by
    unfold sessionEntryPayload
    cases entry.turnId <;> cases entry.kind with
    | message m | customContextMessage m => cases m <;> simp [Json.object]
    | _ => simp [Json.object]
  simp [Json.index, Json.asObject, hbase]

/-! ### The frozen stream schemas -/

def ObservationSourceRange.toValue (r : ObservationSourceRange) : Json :=
  .obj (Json.object [("stream_id", .str r.streamId.text), ("from_sequence", .num (.int r.fromSequence)),
    ("to_sequence", .num (.int r.toSequence))])

/-- `Serialize`: empty lists and absent values are left out. -/
def EventProvenance.toValue (p : EventProvenance) : Json :=
  let texts (o : Option String) := o.map Json.str
  let items (l : List Json) := if l.isEmpty then none else some (Json.arr l)
  .obj (Json.object <| [("source_streams", items (p.sourceStreams.map fun s => .str s.text)),
    ("source_event_ids", items (p.sourceEventIds.map fun i => .str i.uuid.text)),
    ("source_range", p.sourceRange.map ObservationSourceRange.toValue),
    ("source_ranges", items (p.sourceRanges.map ObservationSourceRange.toValue)),
    ("discharged_by", texts p.dischargedBy), ("function", texts p.function),
    ("config_hash", texts p.configHash)].filterMap fun (key, value) => value.map fun v => (key, v))

def ThreadCoordinates.toValue (c : ThreadCoordinates) : Json :=
  .obj (Json.object [("tenant_id", .str c.tenantId), ("user_id", .str c.userId),
    ("session_id", .str c.sessionId), ("thread_id", .str c.threadId.uuid.text)])

/-- `Serialize`: an absent trace context is left out. -/
def StreamRecordEnvelopeV1.toValue (e : StreamRecordEnvelopeV1) : Json :=
  let fields := Json.object [("schema", .str e.schema), ("event_id", .str e.eventId.uuid.text),
    ("stream_id", .str e.streamId.text), ("sequence", .num (.int e.sequence)),
    ("coordinates", e.coordinates.toValue), ("created_at_ms", .num (.int e.createdAtMs)),
    ("kind", .str e.kind), ("origin", .str e.origin.asRef),
    ("payload_schema", .str e.payloadSchema), ("provenance", e.provenance.toValue),
    ("payload", e.payload)]
  .obj (match e.traceContext with
    | some context => Json.insertField "trace_context" context fields
    | none => fields)

def StreamCursorV1.toValue (c : StreamCursorV1) : Json :=
  .obj (Json.object [("schema", .str c.schema), ("stream_id", .str c.streamId.text),
    ("sequence", .num (.int c.sequence)), ("event_id", .str c.eventId.uuid.text)])

/-- `{"type": name}`. -/
def typeSchema (name : String) : Json := .obj [("type", .str name)]

/-- `{"type": "object", "additionalProperties": true}`. -/
def openObjectSchema : Json := .obj (Json.object [("type", .str "object"), ("additionalProperties", .bool true)])

def objectSchema (required : List String) (additional : Bool) (properties : List (String × Json)) :
    Json :=
  .obj (Json.object [("type", .str "object"), ("required", .arr (required.map .str)),
    ("additionalProperties", .bool additional), ("properties", .obj (Json.object properties))])

def streamRecordSchemaV1 : Json :=
  objectSchema ["schema", "event_id", "stream_id", "sequence", "coordinates", "created_at_ms",
      "kind", "origin", "payload_schema", "provenance", "payload"] true
    [("schema", .obj [("enum", .arr [.str streamRecordSchemaIdV1])]),
     ("event_id", typeSchema "string"), ("stream_id", typeSchema "string"),
     ("sequence", typeSchema "integer"),
     ("coordinates", objectSchema ["tenant_id", "user_id", "session_id", "thread_id"] false
       [("tenant_id", typeSchema "string"), ("user_id", typeSchema "string"),
        ("session_id", typeSchema "string"), ("thread_id", typeSchema "string")]),
     ("created_at_ms", typeSchema "integer"), ("kind", typeSchema "string"),
     ("origin", .obj [("enum", .arr [.str "witnessed", .str "discharged"])]),
     ("payload_schema", typeSchema "string"), ("trace_context", openObjectSchema),
     ("provenance", openObjectSchema), ("payload", openObjectSchema)]

def streamCursorSchemaV1 : Json :=
  objectSchema ["schema", "stream_id", "sequence", "event_id"] false
    [("schema", .obj [("enum", .arr [.str streamCursorSchemaIdV1])]),
     ("stream_id", typeSchema "string"), ("sequence", typeSchema "integer"),
     ("event_id", typeSchema "string")]

def ioEgressRequestedPayloadSchemaV1 : Json :=
  objectSchema ["egress_kind", "requested_by_tool_call_id"] true
    [("egress_kind", openObjectSchema), ("resolved_target", openObjectSchema),
     ("requested_by_tool_call_id", typeSchema "string"), ("quote", typeSchema "string"),
     ("match_event_id", typeSchema "string")]

/-- `SchemaRegistry::validate` at one of its schemas; a failure is a codec error. -/
def validateAgainst (schemaId : String) (schema value : Json) : HistoryResult Unit :=
  match Schema.validateJsonValueAgainstSchema schema value schemaId with
  | .ok () => .ok ()
  | .error e => .error (.codec (.schema e))

def EventRecord.validateStreamRecordV1 (e : EventRecord) : HistoryResult Unit := do
  validateAgainst streamRecordSchemaIdV1 streamRecordSchemaV1 e.toStreamRecordV1.toValue
  if e.kind = .ioEgressRequested then
    validateAgainst e.kind.payloadSchemaId ioEgressRequestedPayloadSchemaV1 e.payload

def StreamCursorV1.validateStreamCursorV1 (c : StreamCursorV1) : HistoryResult Unit :=
  if c.schema ≠ streamCursorSchemaIdV1 then .error (.codec (.cursorSchema c.schema))
  else if c.sequence < 1 then .error (.codec (.cursorSequence c.sequence))
  else validateAgainst streamCursorSchemaIdV1 streamCursorSchemaV1 c.toValue

end Verlet.History
