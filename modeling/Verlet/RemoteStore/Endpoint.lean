import Verlet.Support.Processes
import Verlet.RemoteStore.Queue

/-!
# Remote store — The sync endpoint

`SqliteSyncEndpoint`: what the daemon does with a push, a pull or a renewal of a remote child.  A
request is a process over the daemon's database: it awaits one transaction at a time, and anything
else may happen to the database in between.

A refused push leaves a witness, keyed by a fingerprint of the request and the reason, the SHA-256
of their JSON: a parameter.
-/

namespace Verlet.RemoteStore
open Support History

/-! ### Requests and their outcomes -/

def syncPushSchemaV1 : String := "cooldis.stream.sync_push/1"
def syncPushRejectionSchemaV1 : String := "cooldis.stream.sync_push_rejection/1"
def syncPushRejectionWitnessSchemaV1 : String := "cooldis.stream.sync_push_rejection_witness/1"

/-- A contiguous batch for one stream, with the lease and the tail it expects. -/
structure SyncPushRequestV1 where
  schema : String
  streamId : EventStreamId
  leaseId : StreamLeaseId
  expectedNextSequence : EventSequence
  records : List StreamRecordEnvelopeV1

inductive SyncPushRejectionReason where
  | credentialUnknown
  | scopeViolation (scope : StreamPrefixScope)
  | credentialLeaseMismatch (credentialLeaseId : StreamLeaseId)
  | requestInvalid (detail : String)
  | leaseFence (fence : LeaseFenceDecision)
  | sequenceFenceConflict (actualNextSequence : EventSequence)
deriving DecidableEq

structure SyncPushRejectionV1 where
  schema : String
  streamId : EventStreamId
  leaseId : StreamLeaseId
  reason : SyncPushRejectionReason
  rejectedAtMs : Int
deriving DecidableEq

inductive SyncPushOutcome where
  | accepted (ack : StreamAppendAckV1)
  | rejected (rejection : SyncPushRejectionV1)
deriving DecidableEq

def SyncPushOutcome.matchesRequest (outcome : SyncPushOutcome) (request : SyncPushRequestV1) : Bool :=
  match outcome with
  | .accepted ack =>
    request.records.getLast?.any fun last =>
      ack.schema = streamAppendAckSchemaIdV1 ∧ ack.streamId = request.streamId ∧
        ack.startSequence = request.expectedNextSequence ∧ ack.endSequence = last.sequence ∧
        ack.tailSequence = last.sequence ∧ ack.tailEventId = last.eventId ∧
        .streamCommitted ∈ ack.acks
  | .rejected rejection =>
    rejection.schema = syncPushRejectionSchemaV1 ∧ rejection.streamId = request.streamId ∧
      rejection.leaseId = request.leaseId

/-- The durable, redacted proof of a rejection. -/
structure SyncPushRejectionWitnessV1 where
  schema : String
  requestFingerprint : String
  streamId : EventStreamId
  reason : String
  detail : Json
  rejectedAtMs : Int

def LeaseFenceDecision.toValue (fence : LeaseFenceDecision) : Json :=
  .obj [("decision", .str (match fence with
    | .current => "current"
    | .superseded => "superseded"
    | .expired => "expired"
    | .unknown => "unknown"))]

def redactedRejectionReason : SyncPushRejectionReason → String × Json
  | .credentialUnknown            => ("credential_unknown", .null)
  | .scopeViolation scope         => ("scope_violation", .obj [("scope", .str scope.text)])
  | .credentialLeaseMismatch _    => ("credential_lease_mismatch", .null)
  | .requestInvalid detail        => ("request_invalid", .obj [("detail", .str detail)])
  | .leaseFence fence             => ("lease_fence", .obj [("fence", fence.toValue)])
  | .sequenceFenceConflict actual =>
    ("sequence_fence_conflict", .obj [("actual_next_sequence", .num (.int actual))])

/-! ### Validation -/

def validateEnvelope (request : SyncPushRequestV1) (index : Nat) (envelope : StreamRecordEnvelopeV1) :
    Except String NewEventRecord := do
  let expectedSequence ← match checkedAdd request.expectedNextSequence index with
    | some sequence => pure sequence
    | none => throw "sync push sequence overflow"
  require (envelope.schema = streamRecordSchemaIdV1) "record uses an unsupported stream schema"
  require (envelope.streamId = request.streamId) "record belongs to a different stream"
  require (envelope.sequence = expectedSequence)
    "record sequences are not contiguous from expected_next_sequence"
  require (envelope.traceContext = none)
    "trace_context is not supported by the SQLite authority store"
  let kind ← match EventKind.tryFrom envelope.kind with
    | some kind => pure kind
    | none => throw "record kind is not in the frozen event vocabulary"
  require (envelope.payloadSchema = kind.payloadSchemaId)
    "record payload schema does not match its kind"
  let event : EventRecord := ⟨envelope.eventId, envelope.streamId, envelope.sequence,
    envelope.coordinates, envelope.createdAtMs, kind, envelope.origin, envelope.provenance,
    envelope.payload⟩
  require (event.validateStreamRecordV1 = .ok ()) "record or payload violates the V1 stream schema"
  return ⟨event.id, event.coordinates, event.createdAtMs, event.kind, event.origin,
    event.provenance, event.payload⟩

/-- The envelopes of a push from place `index` on. -/
def validateEnvelopes (request : SyncPushRequestV1) :
    Nat → List StreamRecordEnvelopeV1 → Except String (List NewEventRecord)
  | _,     []                    => .ok []
  | index, envelope :: envelopes => do
    let record ← validateEnvelope request index envelope
    return record :: (← validateEnvelopes request (index + 1) envelopes)

def validatePushRequest (request : SyncPushRequestV1) : Except String (List NewEventRecord) := do
  require (request.schema = syncPushSchemaV1) "unsupported sync push schema"
  require (1 ≤ request.expectedNextSequence) "expected_next_sequence must be positive"
  require (request.records ≠ []) "sync push batch must not be empty"
  validateEnvelopes request 0 request.records

/-! ### The endpoint's calls on its stores -/

/-- The database behind the endpoint. -/
structure EndpointDb (Text : Type) where
  authority : AuthorityDb Text
  queue : Queue Text
  rejections : List SyncPushRejectionWitnessV1

/-- A new database. -/
def EndpointDb.empty {Text : Type} : EndpointDb Text := ⟨.empty, [], []⟩

/-- What an endpoint is set up with. -/
structure SyncEndpoint (Text : Type) where
  authority : StreamLeaseAuthority
  codec : Sqlite.Codec Text
  queueCodec : QueueCodec Text
  /-- `rejection_fingerprint`. -/
  rejectionFingerprint : SyncPushRequestV1 → SyncPushRejectionReason → String

/-- One call of a request on the stores or on the clock. -/
inductive EndpointCall where
  | now
  | verifyToken (token : String)
  | renewLease (leaseId : StreamLeaseId)
  | appendIfCurrent (streamId : EventStreamId) (presented : StreamLeaseId)
      (expectedNextSequence : EventSequence) (records : List NewEventRecord)
  | insertRejection (witness : SyncPushRejectionWitnessV1)
  | readEvents (streamId : EventStreamId) (cursor : Option StreamCursorV1)
  | queuePullAfter (streamId : EventStreamId) (cursor : Option StreamCursorV1)

abbrev EndpointCall.Reply : EndpointCall → Type
  | .now                     => Int
  | .verifyToken _           => Option VerifiedPushIdentity
  | .renewLease _            => VerletResult StreamLeaseGrantV1
  | .appendIfCurrent _ _ _ _ => VerletResult LeaseFencedAppendOutcome
  | .insertRejection _       => Unit
  | .readEvents _ _          => VerletResult (List StreamRecordEnvelopeV1)
  | .queuePullAfter _ _      => VerletResult (List StreamRecordEnvelopeV1)

abbrev EndpointM := Proc EndpointCall EndpointCall.Reply

abbrev EndpointCall.ask (call : EndpointCall) : EndpointM call.Reply := .perform call

variable {Text : Type}

def recordsAfter (codec : Sqlite.Codec Text) (history : Sqlite.Db Text)
    (streamId : EventStreamId) (cursor : Option StreamCursorV1) :
    VerletResult (List StreamRecordEnvelopeV1) := do
  let events ← liftHistory (match cursor with
    | some cursor =>
      readEventsAfterCursor (Sqlite.readEvents codec history) streamId cursor
    | none => Sqlite.readEvents codec history streamId none)
  return events.map (·.toStreamRecordV1)

/-- `INSERT OR IGNORE INTO cooldis_sync_push_rejections`. -/
def insertRejection (witness : SyncPushRejectionWitnessV1)
    (rejections : List SyncPushRejectionWitnessV1) : List SyncPushRejectionWitnessV1 :=
  if rejections.any fun other => other.requestFingerprint = witness.requestFingerprint then rejections
  else rejections ++ [witness]

variable (endpoint : SyncEndpoint Text)

/-- Serve one call: the clock reads `nowMs`, and the store's handle has the lease epoch. -/
def EndpointCall.serve (nowMs : Int) (leaseEpoch : Nat) :
    (call : EndpointCall) → EndpointDb Text → call.Reply × EndpointDb Text
  | .now, db => (nowMs, db)
  | .verifyToken token, db => (RemoteStore.verifyToken endpoint.authority db.authority token, db)
  | .renewLease leaseId, db =>
    let served := exec (RemoteStore.renewLease endpoint.authority nowMs leaseId) db.authority
    (served.1, { db with authority := served.2 })
  | .appendIfCurrent streamId presented expected records, db =>
    let served := exec (RemoteStore.appendIfCurrent endpoint.codec leaseEpoch nowMs streamId
      presented expected records) db.authority
    (served.1, { db with authority := served.2 })
  | .insertRejection witness, db =>
    ((), { db with rejections := RemoteStore.insertRejection witness db.rejections })
  | .readEvents streamId cursor, db =>
    (recordsAfter endpoint.codec db.authority.history streamId cursor, db)
  | .queuePullAfter streamId cursor, db =>
    (RemoteStore.queuePullAfter endpoint.queueCodec db.queue streamId cursor, db)

/-! ### Requests -/

/-- `SqliteSyncEndpoint::reject`: the witness is stored before the answer. -/
def reject (request : SyncPushRequestV1)
    (reason : SyncPushRejectionReason) : EndpointM (VerletResult SyncPushOutcome) := do
  let rejectedAtMs ← EndpointCall.ask .now
  let rejection : SyncPushRejectionV1 :=
    ⟨syncPushRejectionSchemaV1, request.streamId, request.leaseId, reason, rejectedAtMs⟩
  let redacted := redactedRejectionReason reason
  EndpointCall.ask (.insertRejection ⟨syncPushRejectionWitnessSchemaV1,
    endpoint.rejectionFingerprint request reason, request.streamId, redacted.1, redacted.2,
    rejectedAtMs⟩)
  return .ok (.rejected rejection)

/-- The fences of a push, and its append. -/
def pushRecords (request : SyncPushRequestV1)
    (records : List NewEventRecord) : EndpointM (VerletResult SyncPushOutcome) := do
  match ← EndpointCall.ask (.appendIfCurrent request.streamId request.leaseId
      request.expectedNextSequence records) with
  | .error error => return .error error
  | .ok (.appended ack) => return .ok (.accepted ack)
  | .ok (.leaseRejected fence) => reject endpoint request (.leaseFence fence)
  | .ok (.sequenceFenceConflict actual) => reject endpoint request (.sequenceFenceConflict actual)

/-- `SqliteSyncEndpoint::push`. -/
def push (bearerToken : String) (request : SyncPushRequestV1) :
    EndpointM (VerletResult SyncPushOutcome) := do
  match ← EndpointCall.ask (.verifyToken bearerToken) with
  | none => reject endpoint request .credentialUnknown
  | some identity =>
    if ¬ identity.scope.authorizes request.streamId then
      reject endpoint request (.scopeViolation identity.scope)
    else if identity.leaseId ≠ request.leaseId then
      reject endpoint request (.credentialLeaseMismatch identity.leaseId)
    else match validatePushRequest request with
      | .error detail => reject endpoint request (.requestInvalid detail)
      | .ok records => pushRecords endpoint request records

/-- `SyncLeaseRenewer::renew_lease`. -/
def renew (bearerToken : String) : EndpointM (VerletResult (Option StreamLeaseGrantV1)) := do
  match ← EndpointCall.ask (.verifyToken bearerToken) with
  | none => return .ok none
  | some identity => return (← EndpointCall.ask (.renewLease identity.leaseId)).map some

def notAuthorized : VerletError := .history (.plain "sync pull not authorized")

/-- `SyncPullSource::pull_after`. -/
def pullAfter (bearerToken : String) (streamId : EventStreamId) (cursor : Option StreamCursorV1) :
    EndpointM (VerletResult (List StreamRecordEnvelopeV1)) := do
  match ← EndpointCall.ask (.verifyToken bearerToken) with
  | none => return .error notAuthorized
  | some identity =>
    if ¬ identity.scope.authorizes streamId then return .error notAuthorized
    else if (remoteIngressQueueTarget streamId).isSome then
      EndpointCall.ask (.queuePullAfter streamId cursor)
    else if syncIngressQueueStreamPrefix.toList <+: streamId.text.toList then
      return .error (.history (.plain "invalid remote ingress queue stream"))
    else EndpointCall.ask (.readEvents streamId cursor)

/-- What a child asks of the endpoint. -/
inductive SyncCall where
  | renew
  | push (request : SyncPushRequestV1)
  | pull (streamId : EventStreamId) (cursor : Option StreamCursorV1)

/-- What it is answered. -/
abbrev SyncCall.Reply : SyncCall → Type
  | .renew    => VerletResult (Option StreamLeaseGrantV1)
  | .push _   => VerletResult SyncPushOutcome
  | .pull _ _ => VerletResult (List StreamRecordEnvelopeV1)

/-- The endpoint's process for a request. -/
def SyncCall.handler (bearerToken : String) : (call : SyncCall) → EndpointM call.Reply
  | .renew => RemoteStore.renew bearerToken
  | .push request => RemoteStore.push endpoint bearerToken request
  | .pull streamId cursor => pullAfter bearerToken streamId cursor

end Verlet.RemoteStore
