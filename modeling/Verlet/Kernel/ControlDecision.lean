import Mathlib.Data.List.Sort
import Verlet.Support.Scans
import Verlet.RemoteStore.Lease

/-!
# Kernel — Control decisions

`control_decision`: what the kernel reads off a thread's control stream before it acts.  Each
decision scans the stream for facts about its own subject, turns away at a malformed fact that
names its request, and answers from the candidates that are left.

The stream is read through `read`, what `read_events` answers at a stream; the payloads through
`ControlCodec`, what `serde_json` makes of them.
-/

namespace Verlet.Kernel
open Support History
open RemoteStore (VerletError VerletResult)

/-- `serde_json::to_value` and `from_value` at one type; a failure is the text of its error. -/
structure Serde (α : Type) where
  toValue : α → Json
  fromValue : Json → Except String α

/-- What is written is read back. -/
def Serde.RoundTrips {α : Type} (serde : Serde α) : Prop :=
  ∀ a, serde.fromValue (serde.toValue a) = .ok a

/-- `map_err(|err| VerletError::History(err.to_string()))`. -/
def orHistory {α : Type} : HistoryResult α → VerletResult α
  | .ok a        => .ok a
  | .error error => .error (.history (.store error))

theorem orHistory_ok {α : Type} {x : HistoryResult α} {a : α} : orHistory x = .ok a ↔ x = .ok a := by
  cases x <;> simp [orHistory]

/-- `VerletError::History(format!(..))`. -/
def historyText (text : String) : VerletError := .history (.plain text)

/-- What `read_events` answers at a stream, from its start. -/
abbrev Reader := EventStreamId → HistoryResult (List EventRecord)

def controlStreamId (coordinates : ThreadCoordinates) : EventStreamId :=
  ⟨"control:" ++ coordinates.threadId.uuid.text⟩

/-! ### Payloads -/

structure ToolCallSubject where
  turnId : String
  callId : String
deriving DecidableEq

structure ToolCallRequestedPayload where
  subject : ToolCallSubject
  snapshotId : String
  toolName : String
  arguments : Json
  attachEventId : Option EventRecordId
  argsFingerprint : Option String
  holds : List Json

inductive ToolCallDecisionOutcomePayload where
  | allow
  | rewrite (arguments : Json)
  | deny (reason : String)

structure ToolCallDecisionPayload where
  subject : ToolCallSubject
  snapshotId : String
  outcome : ToolCallDecisionOutcomePayload
  admissible : Option (List String)

structure ToolCallSuspendedPayload where
  subject : ToolCallSubject
  snapshotId : String
  approvalId : Option String
  reason : Option String

inductive ToolCallCancellation where
  | cancelledAcknowledged
  | cancelledExceededGrace

structure ToolCallCompletedPayload where
  subject : ToolCallSubject
  snapshotId : String
  toolName : String
  success : Bool
  argsFingerprint : Option String
  durationMs : Option Nat
  finishOrder : Option Nat
  cancellation : Option ToolCallCancellation

structure MandateSubject where
  threadId : Option String
  loopId : Option String

inductive MandateSchedulePayload where
  | cron (expr tz : String)
  | interval (everyMs : Nat)
  | «at» (when : String)

inductive MandateCatchUpPolicy where
  | coalesceMissed
  | skipMissed
deriving DecidableEq

structure MandateStartedPayload where
  subject : MandateSubject
  mandateId : String
  snapshotId : String
  threadId : Option String
  maxContinuations : Option Nat
  expiresAtMs : Option Int
  schedule : Option MandateSchedulePayload
  maxOccurrences : Option Nat
  catchUp : Option MandateCatchUpPolicy
  inputTemplate : Option String

structure MandateRevokedPayload where
  subject : MandateSubject
  mandateId : String
  mandateEventId : Option String
  snapshotId : String
  reason : Option String

structure TurnContinuationSubject where
  loopId : String
  parentTurnId : String
deriving DecidableEq

structure TurnContinueRequestedPayload where
  subject : TurnContinuationSubject
  snapshotId : String
  nextTurnInput : String

inductive PlacementTarget where
  | «local»
  | remote
  | sandbox
deriving DecidableEq

structure PlacementSubject where
  invocationId : String

structure PlacementDecisionPayload where
  subject : PlacementSubject
  snapshotId : String
  placement : PlacementTarget

/-- `serde_json` at the payloads of the control stream, and `chrono` at the instant of a message. -/
structure ControlCodec where
  toolCallRequested : Serde ToolCallRequestedPayload
  toolCallDecision : Serde ToolCallDecisionPayload
  toolCallSuspended : Serde ToolCallSuspendedPayload
  toolCallCompleted : Serde ToolCallCompletedPayload
  mandateStarted : Serde MandateStartedPayload
  mandateRevoked : Serde MandateRevokedPayload
  turnContinueRequested : Serde TurnContinueRequestedPayload
  placementDecision : Serde PlacementDecisionPayload
  rfc3339 : Int → Option String

/-! ### Freshness -/

def provenanceReachesEvent (event : EventRecord) (requestEventId : EventRecordId) : Bool :=
  requestEventId ∈ event.provenance.sourceEventIds

def freshControlEvent (event : EventRecord) (requestEventId : EventRecordId) : Bool :=
  match event.origin with
  | .witnessed  => true
  | .discharged => provenanceReachesEvent event requestEventId

/-- How a scan reads a fact of its kind: a malformed one answers if it names the request, one about
anything else or from an earlier request is skipped, any other is a candidate. -/
def readFact {π δ α : Type} (serde : Serde π) (requestEventId : EventRecordId)
    (malformed : EventRecord → String → δ) (concerns : π → Bool) (found : EventRecord → π → α)
    (event : EventRecord) : Reading δ α :=
  match serde.fromValue event.payload with
  | .error err =>
    if provenanceReachesEvent event requestEventId then .answered (malformed event err)
    else .skipped
  | .ok payload =>
    if concerns payload ∧ freshControlEvent event requestEventId then
      .candidate (found event payload)
    else .skipped

/-! ### Tool calls -/

structure ToolDecisionRequest where
  coordinates : ThreadCoordinates
  subject : ToolCallSubject
  snapshotId : String
  requestEventId : EventRecordId

inductive ToolCallDecision where
  | noDecision
  | allow (consumedFactId : EventRecordId)
  | rewrite (consumedFactId : EventRecordId) (arguments : Json)
  | deny (consumedFactId : Option EventRecordId) (reason : String) (failClosed : Bool)
  | wait (consumedFactId : EventRecordId) (approvalId reason : Option String)
deriving DecidableEq

def toolDecisionFromPayload (consumedFactId : EventRecordId) (payload : ToolCallDecisionPayload) :
    ToolCallDecision :=
  match payload.outcome with
  | .allow             => .allow consumedFactId
  | .rewrite arguments => .rewrite consumedFactId arguments
  | .deny reason       => .deny (some consumedFactId) reason false

/-- A candidate of `decide_tool_call`. -/
inductive ToolCandidate where
  | terminal (decision : ToolCallDecision)
  | waiting (decision : ToolCallDecision)

def ToolCandidate.terminal? : ToolCandidate → Option ToolCallDecision
  | .terminal decision => some decision
  | .waiting _         => none

def ToolCandidate.waiting? : ToolCandidate → Option ToolCallDecision
  | .terminal _       => none
  | .waiting decision => some decision

def malformedToolFact (kind : EventKind) (event : EventRecord) (err : String) : ToolCallDecision :=
  .deny (some event.id) ("malformed " ++ kind.asRef ++ " fact: " ++ err) true

variable (codec : ControlCodec)

/-- One event, to `decide_tool_call`. -/
def readToolFact (request : ToolDecisionRequest) (event : EventRecord) :
    Reading ToolCallDecision ToolCandidate :=
  match event.kind with
  | .toolCallDecision =>
    readFact codec.toolCallDecision request.requestEventId (malformedToolFact .toolCallDecision)
      (fun payload => payload.subject = request.subject ∧ payload.snapshotId = request.snapshotId)
      (fun event payload => .terminal (toolDecisionFromPayload event.id payload)) event
  | .toolCallSuspended =>
    readFact codec.toolCallSuspended request.requestEventId (malformedToolFact .toolCallSuspended)
      (fun payload => payload.subject = request.subject ∧ payload.snapshotId = request.snapshotId)
      (fun event payload => .waiting (.wait event.id payload.approvalId payload.reason)) event
  | _ => .skipped

/-- What `decide_tool_call` answers from its candidates. -/
def settleToolCall (terminals waits : List ToolCallDecision) : ToolCallDecision :=
  match terminals with
  | [] =>
    match waits with
    | []     => .noDecision
    | [wait] => wait
    | _      => .deny none "conflicting tool suspension facts" true
  | [decision] => decision
  | _          => .deny none "conflicting terminal tool control facts" true

def toolCallDecision (request : ToolDecisionRequest)
    (controlEvents : List EventRecord) : ToolCallDecision :=
  match scan (readToolFact codec request) controlEvents with
  | .error decision => decision
  | .ok found => settleToolCall (found.filterMap (·.terminal?)) (found.filterMap (·.waiting?))

def decideToolCall (read : Reader) (request : ToolDecisionRequest) :
    VerletResult ToolCallDecision := do
  let controlEvents ← orHistory (read (controlStreamId request.coordinates))
  return toolCallDecision codec request controlEvents

/-! ### Pending suspensions -/

structure PendingToolCallSuspension where
  suspendedEventId : EventRecordId
  subject : ToolCallSubject
  snapshotId : String
  requestEventId : Option EventRecordId
  approvalId : Option String
  reason : Option String

/-- `serde_json::from_value`, a failure under the given text. -/
def decodeOr {α : Type} (serde : Serde α) (event : EventRecord) (text : String) : VerletResult α :=
  match serde.fromValue event.payload with
  | .ok payload => .ok payload
  | .error err  => .error (historyText (text ++ err))

theorem decodeOr_ok {α : Type} {serde : Serde α} {event : EventRecord} {text : String} {payload : α} :
    decodeOr serde event text = .ok payload ↔ serde.fromValue event.payload = .ok payload := by
  unfold decodeOr
  cases serde.fromValue event.payload <;> simp

def payloadsOf {α : Type} (serde : Serde α) (kind : EventKind) (text : String)
    (events : List EventRecord) : VerletResult (List α) :=
  (events.filter fun event => event.kind = kind).mapM fun event => decodeOr serde event text

def suspendedRequest (threadEvents : List EventRecord)
    (requestEventId : Option EventRecordId) : VerletResult (Option ToolCallRequestedPayload) :=
  match requestEventId.bind fun id => threadEvents.find? fun event =>
      event.id = id ∧ event.kind = .toolCallRequested with
  | none => .ok none
  | some requestEvent =>
    some <$> decodeOr codec.toolCallRequested requestEvent
      ("tool.call.requested receipt " ++ requestEvent.id.uuid.text ++ " for thread " ++
        requestEvent.coordinates.threadId.uuid.text ++ " is invalid: ")

def completes (request : Option ToolCallRequestedPayload) (suspended : ToolCallSuspendedPayload)
    (completion : ToolCallCompletedPayload) : Bool :=
  match request with
  | some request =>
    completion.subject = request.subject ∧ completion.snapshotId = request.snapshotId ∧
      completion.argsFingerprint = request.argsFingerprint
  | none =>
    completion.subject = suspended.subject ∧ completion.snapshotId = suspended.snapshotId

/-- One `tool.call.suspended` event: still pending, or not. -/
def pendingSuspension (threadEvents : List EventRecord)
    (terminals : List ToolCallDecisionPayload) (completions : List ToolCallCompletedPayload)
    (event : EventRecord) : VerletResult (Option PendingToolCallSuspension) := do
  let payload ← decodeOr codec.toolCallSuspended event "tool.call.suspended payload is invalid: "
  let requestEventId := event.provenance.sourceEventIds.head?
  let request ← suspendedRequest codec threadEvents requestEventId
  if completions.any (completes request payload) ∨ terminals.any (fun terminal =>
      terminal.subject = payload.subject ∧ terminal.snapshotId = payload.snapshotId) then
    return none
  else
    return some ⟨event.id, payload.subject, payload.snapshotId, requestEventId, payload.approvalId,
      payload.reason⟩

def listPendingToolCallSuspensions (read : Reader)
    (coordinates : ThreadCoordinates) : VerletResult (List PendingToolCallSuspension) := do
  let controlEvents ← orHistory (read (controlStreamId coordinates))
  let threadEvents ← orHistory (read (.forThread coordinates))
  let terminals ← payloadsOf codec.toolCallDecision .toolCallDecision
    "tool.call.decision payload is invalid: " controlEvents
  let completions ← payloadsOf codec.toolCallCompleted .toolCallCompleted
    "tool.call.completed payload is invalid: " threadEvents
  let pending ← (controlEvents.filter fun event => event.kind = .toolCallSuspended).mapM
    (pendingSuspension codec threadEvents terminals completions)
  return (pending.filterMap id).insertionSort fun p q =>
    ¬ Json.textBefore q.suspendedEventId.uuid.text.toList p.suspendedEventId.uuid.text.toList

/-! ### Turn continuations -/

structure TurnContinuationDecisionRequest where
  coordinates : ThreadCoordinates
  subject : TurnContinuationSubject
  snapshotId : String
  requestEventId : EventRecordId
  nowMs : Int
  completedContinuations : Nat

inductive TurnContinuationDecision where
  | noRequest
  | accept (consumedRequestId : EventRecordId) (mandateId nextTurnInput : String)
  | reject (consumedRequestId : Option EventRecordId) (reason : String) (failClosed : Bool)
deriving DecidableEq

/-- One event, to `decide_turn_continuation`. -/
def readContinuation (request : TurnContinuationDecisionRequest) (event : EventRecord) :
    Reading TurnContinuationDecision (EventRecordId × TurnContinueRequestedPayload) :=
  if event.kind = .turnContinueRequested then
    readFact codec.turnContinueRequested request.requestEventId
      (fun event err =>
        .reject (some event.id) ("malformed turn.continue.requested fact: " ++ err) true)
      (fun payload => payload.subject = request.subject ∧ payload.snapshotId = request.snapshotId)
      (fun event payload => (event.id, payload)) event
  else .skipped

def startedTargetsThread (payload : MandateStartedPayload) (coordinates : ThreadCoordinates) : Bool :=
  match payload.subject.threadId.or payload.threadId with
  | some threadId => threadId = coordinates.threadId.uuid.text
  | none          => true

def witnessedOf (kind : EventKind) (events : List EventRecord) : List EventRecord :=
  events.filter fun event => event.kind = kind ∧ event.origin = .witnessed

/-- `max_by_key`: of equal keys, the last. -/
def maxByKey {α : Type} : List (Int × α) → Option (Int × α)
  | []      => none
  | x :: xs => some (xs.foldl (fun best y => if best.1 ≤ y.1 then y else best) x)

def latestMatchingMandate (events : List EventRecord)
    (request : TurnContinuationDecisionRequest) : VerletResult (Option MandateStartedPayload) := do
  let started ← (witnessedOf .mandateStarted events).mapM fun event => do
    let payload ← decodeOr codec.mandateStarted event "mandate.started payload is invalid: "
    return (event.sequence, payload)
  let matching := started.filter fun (_, payload) =>
    payload.subject.loopId = some request.subject.loopId ∧ payload.snapshotId = request.snapshotId ∧
      startedTargetsThread payload request.coordinates
  return (maxByKey matching).map (·.2)

def revokesFor (request : TurnContinuationDecisionRequest) (mandate : MandateStartedPayload)
    (payload : MandateRevokedPayload) : Bool :=
  payload.subject.loopId = some request.subject.loopId ∧ payload.snapshotId = request.snapshotId ∧
    payload.mandateId = mandate.mandateId

/-- The loop of `mandate_rejection_reason` over the witnessed revocations. -/
def firstRevocation (codec : ControlCodec) (request : TurnContinuationDecisionRequest)
    (mandate : MandateStartedPayload) : List EventRecord → VerletResult (Option String)
  | []              => .ok none
  | event :: events => do
    let payload ← decodeOr codec.mandateRevoked event "mandate.revoked payload is invalid: "
    if revokesFor request mandate payload then
      return some (payload.reason.getD "continuation mandate revoked")
    else firstRevocation codec request mandate events

def mandateRejectionReason (events : List EventRecord)
    (request : TurnContinuationDecisionRequest) (mandate : MandateStartedPayload) :
    VerletResult (Option String) :=
  firstRevocation codec request mandate (witnessedOf .mandateRevoked events)

def expiredText (expiresAtMs : Int) : String :=
  match codec.rfc3339 expiresAtMs with
  | some expiresAt =>
    "continuation mandate expired at " ++ toString expiresAtMs ++ " (" ++ expiresAt ++ ")"
  | none => "continuation mandate expired at " ++ toString expiresAtMs

def mandateLapse (request : TurnContinuationDecisionRequest)
    (mandate : MandateStartedPayload) : Option String :=
  if mandate.maxContinuations.any fun max => max ≤ request.completedContinuations then
    some "continuation mandate budget exhausted"
  else
    match mandate.expiresAtMs with
    | some expiresAtMs =>
      if expiresAtMs < request.nowMs then some (expiredText codec expiresAtMs) else none
    | none => none

/-- What the mandates of the stream say of one continuation request. -/
def judgeContinuation (controlEvents : List EventRecord)
    (request : TurnContinuationDecisionRequest) (consumedRequestId : EventRecordId)
    (continuation : TurnContinueRequestedPayload) : VerletResult TurnContinuationDecision := do
  match ← latestMatchingMandate codec controlEvents request with
  | none => return .reject (some consumedRequestId) "continuation has no active mandate" false
  | some mandate =>
    match ← mandateRejectionReason codec controlEvents request mandate with
    | some reason => return .reject (some consumedRequestId) reason false
    | none =>
      match mandateLapse codec request mandate with
      | some reason => return .reject (some consumedRequestId) reason false
      | none => return .accept consumedRequestId mandate.mandateId continuation.nextTurnInput

/-- The decision that the facts of a control stream give. -/
def turnContinuationDecision (request : TurnContinuationDecisionRequest)
    (controlEvents : List EventRecord) : VerletResult TurnContinuationDecision :=
  match scan (readContinuation codec request) controlEvents with
  | .error decision => .ok decision
  | .ok [] => .ok .noRequest
  | .ok [(consumedRequestId, continuation)] =>
    judgeContinuation codec controlEvents request consumedRequestId continuation
  | .ok _ => .ok (.reject none "conflicting turn.continue.requested facts" true)

def decideTurnContinuation (read : Reader)
    (request : TurnContinuationDecisionRequest) : VerletResult TurnContinuationDecision := do
  let controlEvents ← orHistory (read (controlStreamId request.coordinates))
  turnContinuationDecision codec request controlEvents

end Verlet.Kernel
