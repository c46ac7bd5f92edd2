import Verlet.Io.Envelope
import Verlet.RemoteStore.Lease

/-!
# Remote store — The ingress queue

`SqliteRemoteIngressQueue`: the entries that wait in the daemon's database for a remote child, one
row for each target and dispatch, numbered for each target.  The child reads its pending rows
through the endpoint's pull surface, as records of a stream of its own that is no stream of the
event store.
-/

namespace Verlet.RemoteStore
open Support History

def syncIngressQueueEntrySchemaV1 : String := "cooldis.stream.sync_ingress_queue_entry/1"

def syncIngressQueueStreamPrefix : String := "sync-ingress:"

def remoteIngressQueueStreamId (target : ThreadId) : EventStreamId :=
  ⟨syncIngressQueueStreamPrefix ++ target.uuid.text⟩

def remoteIngressQueueTarget (streamId : EventStreamId) : Option ThreadId := do
  let value ← streamId.text.toList.dropPrefix? syncIngressQueueStreamPrefix.toList
  if value.isEmpty ∨ ':' ∈ value then none
  else (Uuid.parseStr (String.ofList value)).map .mk

structure RemoteIngressQueueEntryV1 where
  schema : String
  dispatchId : DispatchId
  targetThreadId : ThreadId
  envelope : Io.IngressEnvelope
  enqueuedAtMs : Int
deriving DecidableEq

inductive RemoteEnqueueDisposition where
  | enqueued
  | foldedToExisting
deriving DecidableEq

structure RemoteEnqueueReceipt where
  entry : RemoteIngressQueueEntryV1
  disposition : RemoteEnqueueDisposition
deriving DecidableEq

structure RemoteIngressQueuePage where
  entries : List RemoteIngressQueueEntryV1
  next : Option EventSequence

/-- `serde_json` at the entries of the queue. -/
structure QueueCodec (Text : Type) where
  encodeEntry : RemoteIngressQueueEntryV1 → Text
  decodeEntry : Text → Option RemoteIngressQueueEntryV1
  entryValue : RemoteIngressQueueEntryV1 → Json

/-- A row of `verlet_remote_ingress_queue`. -/
structure QueueRow (Text : Type) where
  targetThreadId : ThreadId
  sequence : EventSequence
  eventId : EventRecordId
  dispatchId : DispatchId
  entryJson : Text
  acknowledgedAtMs : Option Int

/-- The table, in rowid order. -/
abbrev Queue (Text : Type) := List (QueueRow Text)

variable {Text : Type}

def queueError (message : String) : VerletError := .history (.plain message)

/-- `history_error`. -/
def liftHistory {α : Type} : HistoryResult α → VerletResult α
  | .ok a        => .ok a
  | .error error => .error (.history (.store error))

def validateEntry (entry : RemoteIngressQueueEntryV1) : VerletResult Unit := do
  require (entry.schema = syncIngressQueueEntrySchemaV1)
    (queueError "unsupported remote ingress queue entry schema")
  match entry.envelope.dedupeKey with
  | none => throw (queueError "remote ingress queue entry requires a dispatch dedupe key")
  | some dedupeKey =>
    require (dedupeKey.key = entry.dispatchId.text)
      (queueError "remote ingress queue dedupe key does not match dispatch id")
    require (entry.enqueuedAtMs = 0)
      (queueError "remote ingress queue enqueued_at_ms must be zero for stable retry identity")

variable (codec : QueueCodec Text)

def decodeEntry (text : Text) : VerletResult RemoteIngressQueueEntryV1 :=
  match codec.decodeEntry text with
  | none => .error (queueError "decode remote ingress queue entry")
  | some entry => do
    validateEntry entry
    return entry

/-! ### Reads -/

/-- One pending row, decoded. -/
structure StoredQueueRow where
  sequence : EventSequence
  eventId : EventRecordId
  entry : RemoteIngressQueueEntryV1

def storedRow (target : ThreadId) (row : QueueRow Text) : VerletResult StoredQueueRow := do
  let entry ← decodeEntry codec row.entryJson
  require (entry.targetThreadId = target)
    (queueError "remote ingress queue row target does not match its partition")
  return ⟨row.sequence, row.eventId, entry⟩

def pendingRows (queue : Queue Text) (target : ThreadId)
    (after : Option EventSequence) : VerletResult (List StoredQueueRow) :=
  let rows := queue.filter fun row => row.targetThreadId = target ∧ after.getD 0 < row.sequence ∧
    row.acknowledgedAtMs.isNone
  (rows.insertionSort fun row row' => row.sequence ≤ row'.sequence).mapM (storedRow codec target)

def verifyCursor (queue : Queue Text) (target : ThreadId) (cursor : StreamCursorV1) :
    VerletResult Unit :=
  match queue.find? fun row => row.targetThreadId = target ∧ row.sequence = cursor.sequence with
  | none => .error (queueError "remote ingress queue cursor sequence is absent")
  | some row => require (row.eventId = cursor.eventId)
      (queueError "remote ingress queue cursor event id diverged")

def queueCoordinates (target : ThreadId) : ThreadCoordinates :=
  ⟨"remote-ingress", "remote-ingress", "remote-ingress", target⟩

def StoredQueueRow.intoWire (streamId : EventStreamId)
    (row : StoredQueueRow) : StreamRecordEnvelopeV1 where
  schema := streamRecordSchemaIdV1
  eventId := row.eventId
  streamId := streamId
  sequence := row.sequence
  coordinates := queueCoordinates row.entry.targetThreadId
  createdAtMs := row.entry.enqueuedAtMs
  kind := "sync.ingress.queue.entry"
  origin := .witnessed
  payloadSchema := syncIngressQueueEntrySchemaV1
  traceContext := none
  provenance := .empty
  payload := codec.entryValue row.entry

def cursorPosition (queue : Queue Text) (streamId : EventStreamId) (target : ThreadId) :
    Option StreamCursorV1 → VerletResult (Option EventSequence)
  | none        => .ok none
  | some cursor => do
    liftHistory cursor.validateStreamCursorV1
    require (cursor.streamId = streamId)
      (queueError "remote ingress queue cursor belongs to a different stream")
    verifyCursor queue target cursor
    return some cursor.sequence

/-- `SqliteRemoteIngressQueue::pull_after`. -/
def queuePullAfter (queue : Queue Text) (streamId : EventStreamId)
    (cursor : Option StreamCursorV1) : VerletResult (List StreamRecordEnvelopeV1) := do
  match remoteIngressQueueTarget streamId with
  | none => throw (queueError ("invalid remote ingress queue stream " ++ streamId.text))
  | some target =>
    let after ← cursorPosition queue streamId target cursor
    let rows ← pendingRows codec queue target after
    return rows.map (StoredQueueRow.intoWire codec streamId)

def tailPending (queue : Queue Text) (target : ThreadId)
    (after : Option EventSequence) : VerletResult RemoteIngressQueuePage := do
  let rows ← pendingRows codec queue target after
  return ⟨rows.map (·.entry), (rows.getLast?.map (·.sequence)).or after⟩

/-! ### Writes -/

/-- `INSERT INTO verlet_remote_ingress_queue`: the primary key, the unique event id, the unique
place in the partition. -/
def insertQueueRow (row : QueueRow Text) (queue : Queue Text) : VerletResult (Queue Text) := do
  require (¬ queue.any fun other =>
      other.targetThreadId = row.targetThreadId ∧ other.dispatchId = row.dispatchId)
    (constraintError "verlet_remote_ingress_queue.dispatch_id")
  require (¬ queue.any fun other => other.eventId = row.eventId)
    (constraintError "verlet_remote_ingress_queue.event_id")
  require (¬ queue.any fun other =>
      other.targetThreadId = row.targetThreadId ∧ other.sequence = row.sequence)
    (constraintError "verlet_remote_ingress_queue.sequence")
  return queue ++ [row]

/-- `SELECT COALESCE(MAX(sequence), 0) + 1`. -/
def nextQueueSequence (queue : Queue Text) (target : ThreadId) : EventSequence :=
  (((queue.filter fun row => row.targetThreadId = target).map (·.sequence)).max?).getD 0 + 1

/-- A row for the entry, at the end of its partition. -/
def insertNewEntry (eventId : EventRecordId)
    (entry : RemoteIngressQueueEntryV1) : Tx VerletError (Queue Text) RemoteEnqueueReceipt := do
  let sequence ← query fun queue => .ok (nextQueueSequence queue entry.targetThreadId)
  execute (insertQueueRow
    ⟨entry.targetThreadId, sequence, eventId, entry.dispatchId, codec.encodeEntry entry, none⟩)
  return ⟨entry, .enqueued⟩

/-- `enqueue`: an entry that is there already is adopted if it is the same. -/
def enqueue (eventId : EventRecordId) (entry : RemoteIngressQueueEntryV1) :
    Fallible VerletError (Queue Text) RemoteEnqueueReceipt :=
  transaction do
    query fun _ => validateEntry entry
    match ← query fun queue => .ok (queue.find? fun row =>
        row.targetThreadId = entry.targetThreadId ∧ row.dispatchId = entry.dispatchId) with
    | some row =>
      let existing ← query fun _ => decodeEntry codec row.entryJson
      query fun _ => require (existing = entry) (queueError ("remote ingress dispatch " ++
        entry.dispatchId.text ++ " already exists with a different payload"))
      return ⟨existing, .foldedToExisting⟩
    | none => insertNewEntry codec eventId entry

def acknowledge (nowMs : Int) (target : ThreadId) (dispatchId : DispatchId) :
    Fallible VerletError (Queue Text) Unit :=
  transaction (execute fun queue => .ok (queue.map fun row =>
    if row.targetThreadId = target ∧ row.dispatchId = dispatchId then
      { row with acknowledgedAtMs := some (row.acknowledgedAtMs.getD nowMs) }
    else row))

/-! ### The records of the queue -/

/-- **A record pulled from the queue is of no kind of the frozen vocabulary.** -/
theorem kind_of_pullAfter {codec : QueueCodec Text} {queue : Queue Text} {streamId : EventStreamId}
    {cursor : Option StreamCursorV1} {records : List StreamRecordEnvelopeV1}
    (h : queuePullAfter codec queue streamId cursor = .ok records)
    {record : StreamRecordEnvelopeV1} (hr : record ∈ records) (kind : EventKind) :
    record.kind ≠ kind.asRef := by
  unfold queuePullAfter at h
  split at h
  · cases h
  · simp only [bind_ok, pure_ok] at h
    obtain ⟨_, -, rows, -, rfl⟩ := h
    obtain ⟨row, -, rfl⟩ := List.mem_map.mp hr
    change "sync.ingress.queue.entry" ≠ kind.asRef
    cases kind <;> decide

end Verlet.RemoteStore
