import Verlet.Kernel.EventStore
import Verlet.Kernel.RuntimeHost.TurnReservations

/-!
# Kernel — The runtime host — Loop continuations

`continue_turn_if_requested`: a request to continue a turn, once a mandate accepts it, becomes the next
turn.  The acceptance goes on the control stream, the `turn.submitted` of the turn on the thread's
stream, and then the turn is handed to `submit_turn`.  A call that finds the request accepted already
looks for the `turn.submitted` and, where there is none, does the rest.

* `turnSubmittedEvent_none`: it finds no `turn.submitted` of the turn where there is none.
-/

namespace Verlet.Kernel
open Support History
open RemoteStore (VerletResult)

/-! ### Payloads and receipts -/

structure TurnContinuationAcceptedPayload where
  subject : TurnContinuationSubject
  snapshotId : String
  mandateId : String
  nextTurnId : String
  admissible : Option (List String)

structure TurnContinuationRejectedPayload where
  subject : TurnContinuationSubject
  snapshotId : String
  reason : String
  admissible : Option (List String)

namespace Wire

def continuationAccepted : Serde TurnContinuationAcceptedPayload where
  toValue p := object ([("subject", continueSubject.toValue p.subject),
    ("snapshot_id", .str p.snapshotId), ("mandate_id", .str p.mandateId),
    ("next_turn_id", .str p.nextTurnId)] ++
      optional "admissible" (fun names : List String => .arr (names.map .str)) p.admissible)
  fromValue value := do
    let fields ← fieldsOf value
    return ⟨← required continueSubject.fromValue fields "subject",
      ← required text fields "snapshot_id", ← required text fields "mandate_id",
      ← required text fields "next_turn_id", ← option (list text) fields "admissible"⟩

def continuationRejected : Serde TurnContinuationRejectedPayload where
  toValue p := object ([("subject", continueSubject.toValue p.subject),
    ("snapshot_id", .str p.snapshotId), ("reason", .str p.reason)] ++
      optional "admissible" (fun names : List String => .arr (names.map .str)) p.admissible)
  fromValue value := do
    let fields ← fieldsOf value
    return ⟨← required continueSubject.fromValue fields "subject",
      ← required text fields "snapshot_id", ← required text fields "reason",
      ← option (list text) fields "admissible"⟩

theorem wire_continuationAccepted : continuationAccepted.RoundTrips := by
  intro p
  refine bind_ok.mpr ⟨_, rfl, reads_continueSubject.required ?_ <| reads_text.required ?_ <|
    reads_text.required ?_ <| reads_text.required ?_ <| (reads_list reads_text).option ?_ rfl⟩
  all_goals simp [get?_object]

end Wire

inductive LoopContinuationReceipt where
  | noRequest
  | accepted (loopId parentTurnId nextTurnId : String) (acceptedEventId : EventRecordId)
  | rejected (loopId parentTurnId reason : String) (rejectedEventId : EventRecordId)
deriving DecidableEq

/-! ### Reading the streams -/

/-- The loop's step: what an event says is kept if its sequence is greater. -/
def keepLatest {α : Type} (read : EventRecord → VerletResult (Option α))
    (latest : Option (Int × α)) (event : EventRecord) : VerletResult (Option (Int × α)) := do
  match ← read event with
  | none   => return latest
  | some a =>
    if latest.all fun found => found.1 < event.sequence then return some (event.sequence, a)
    else return latest

/-- A loop over events that keeps what the one of the greatest sequence says. -/
def latestOf {α : Type} (read : EventRecord → VerletResult (Option α)) (events : List EventRecord) :
    VerletResult (Option α) := do
  let latest ← events.foldlM (keepLatest read) none
  return latest.map (·.2)

variable (codec : ControlCodec)

/-- One event, to `latest_turn_continue_request`. -/
def readContinueRequest (loopId parentTurnId : String) (event : EventRecord) :
    VerletResult (Option (EventRecord × TurnContinueRequestedPayload)) :=
  if event.kind ≠ .turnContinueRequested then .ok none
  else
    match codec.turnContinueRequested.fromValue event.payload with
    | .error _    => .ok none
    | .ok payload =>
      if payload.subject.loopId ≠ loopId ∨ payload.subject.parentTurnId ≠ parentTurnId then .ok none
      else .ok (some (event, payload))

/-- `latest_turn_continue_request`, of the control stream. -/
def latestTurnContinueRequest (loopId parentTurnId : String) :
    List EventRecord → VerletResult (Option (EventRecord × TurnContinueRequestedPayload)) :=
  latestOf (readContinueRequest codec loopId parentTurnId)

/-- One event, to `existing_continuation_receipt`. -/
def readReceipt (subject : TurnContinuationSubject) (snapshotId : String) (event : EventRecord) :
    VerletResult (Option LoopContinuationReceipt) :=
  match event.kind with
  | .turnContinuationAccepted => do
    let payload ← decodeOr Wire.continuationAccepted event
      "turn.continuation.accepted payload is invalid: "
    if payload.subject ≠ subject ∨ payload.snapshotId ≠ snapshotId then return none
    else
      return some (.accepted payload.subject.loopId payload.subject.parentTurnId payload.nextTurnId
        event.id)
  | .turnContinuationRejected => do
    let payload ← decodeOr Wire.continuationRejected event
      "turn.continuation.rejected payload is invalid: "
    if payload.subject ≠ subject ∨ payload.snapshotId ≠ snapshotId then return none
    else
      return some (.rejected payload.subject.loopId payload.subject.parentTurnId payload.reason
        event.id)
  | _ => return none

/-- `existing_continuation_receipt`, of the control stream. -/
def existingContinuationReceipt (subject : TurnContinuationSubject) (snapshotId : String) :
    List EventRecord → VerletResult (Option LoopContinuationReceipt) :=
  latestOf (readReceipt subject snapshotId)

def isTurnSubmitted (turnId : String) (event : EventRecord) : Bool :=
  event.kind = .turnSubmitted ∧ (event.payload.index "turn_id").asStr = some turnId

/-- `turn_submitted_event`, of the thread's stream. -/
def turnSubmittedEvent (turnId : String) (events : List EventRecord) : Option EventRecord :=
  (maxByKey ((events.filter (isTurnSubmitted turnId)).map fun event => (event.sequence, event))).map
    (·.2)

/-! ### Records -/

variable (coordinates : ThreadCoordinates)

/-- The record of `append_control_discharge`. -/
def controlDischarge (kind : EventKind) (payload : Json)
    (sourceEventId : EventRecordId) (draw : Draw) : NewEventRecord :=
  .discharged draw coordinates kind payload
    { EventProvenance.empty with
      sourceStreams := [controlStreamId coordinates]
      sourceEventIds := [sourceEventId]
      dischargedBy := some "scheduler:turn-continuation"
      function := some "turn_continuation/v1" }

/-- The record of `append_loop_turn_submitted_event`. -/
def loopTurnSubmitted (nextTurnId : String)
    (acceptedEventId : EventRecordId) (draw : Draw) : NewEventRecord :=
  .discharged draw coordinates .turnSubmitted
    (Wire.object [("turn_id", .str nextTurnId), ("source", .str "turn.continuation.accepted"),
      ("accepted_event_id", .str acceptedEventId.uuid.text)])
    { EventProvenance.empty with
      sourceStreams := [controlStreamId coordinates]
      sourceEventIds := [acceptedEventId]
      dischargedBy := some "scheduler:loop-continuation"
      function := some "turn_submit/v1" }

/-! ### The call -/

inductive LoopCall where
  /-- `get_thread`, for the coordinates of the thread's context. -/
  | getThread (threadId : ThreadId)
  | readControlEvents (coordinates : ThreadCoordinates)
  /-- The thread's stream, read for the `turn.submitted` of a turn. -/
  | readThreadEvents (coordinates : ThreadCoordinates) (turnId : String)
  | draw
  | appendEvents (streamId : EventStreamId) (records : List NewEventRecord)
  /-- `kernel::admission::submit_turn`, of a text. -/
  | submitTurn (threadId : ThreadId) (turnId input : String) (mode : TurnSubmissionMode)

def LoopCall.Reply : LoopCall → Type
  | .getThread _          => Except HostError ThreadCoordinates
  | .readControlEvents _  => HistoryResult (List EventRecord)
  | .readThreadEvents _ _ => HistoryResult (List EventRecord)
  | .draw                 => Draw
  | .appendEvents _ _     => HistoryResult (List EventRecord)
  | .submitTurn _ _ _ _   => Except HostError Unit

abbrev LoopM (α : Type) := ExceptT HostError (Proc LoopCall LoopCall.Reply) α

def orHost {α : Type} : VerletResult α → Except HostError α
  | .ok a        => .ok a
  | .error error => .error (.kernel error)

theorem orHost_ok {α : Type} {x : VerletResult α} {a : α} : orHost x = .ok a ↔ x = .ok a := by
  cases x <;> simp [orHost]

namespace LoopM

def ask (call : LoopCall) : LoopM call.Reply := Proc.await call

def given {α : Type} (result : VerletResult α) : LoopM α := Proc.settle (orHost result)

end LoopM

open LoopM

def appendedRecord : List EventRecord → VerletResult EventRecord
  | event :: _ => .ok event
  | []         => .error (historyText "event append returned no record")

def appendOne (streamId : EventStreamId) (record : NewEventRecord) : LoopM EventRecord := do
  let answer ← ask (.appendEvents streamId [record])
  given (orHistory answer >>= appendedRecord)

def appendLoopTurnSubmittedEvent (nextTurnId : String)
    (acceptedEventId : EventRecordId) : LoopM EventRecord := do
  let answer ← ask (.readThreadEvents coordinates nextTurnId)
  let events ← given (orHistory answer)
  match turnSubmittedEvent nextTurnId events with
  | some existing => return existing
  | none          => do
    let draw ← ask .draw
    appendOne (.forThread coordinates) (loopTurnSubmitted coordinates nextTurnId acceptedEventId draw)

/-- The `turn.submitted` of an accepted turn, and then its submission. -/
def submitContinuation (threadId : ThreadId) (coordinates : ThreadCoordinates) (nextTurnId : String)
    (acceptedEventId : EventRecordId) (input : String) : LoopM Unit := do
  let _ ← appendLoopTurnSubmittedEvent coordinates nextTurnId acceptedEventId
  let submitted ← ask (.submitTurn threadId nextTurnId input .queue)
  Proc.settle submitted

/-- What a call does with a receipt that is there already. -/
def resumeContinuation (threadId : ThreadId) (coordinates : ThreadCoordinates) (input : String) :
    LoopContinuationReceipt → LoopM LoopContinuationReceipt
  | .accepted loopId parentTurnId nextTurnId acceptedEventId => do
    let answer ← ask (.readThreadEvents coordinates nextTurnId)
    let events ← given (orHistory answer)
    match turnSubmittedEvent nextTurnId events with
    | some _ => return .accepted loopId parentTurnId nextTurnId acceptedEventId
    | none   => do
      submitContinuation threadId coordinates nextTurnId acceptedEventId input
      return .accepted loopId parentTurnId nextTurnId acceptedEventId
  | receipt => return receipt

/-- The arguments of `continue_turn_if_requested`. -/
structure ContinueTurn where
  threadId : ThreadId
  loopId : String
  parentTurnId : String
  nextTurnId : String
  nowMs : Int
  completedContinuations : Nat

def appendContinuationAcceptedEvent
    (subject : TurnContinuationSubject) (snapshotId mandateId nextTurnId : String)
    (consumedRequestId : EventRecordId) : LoopM EventRecord := do
  let draw ← ask .draw
  appendOne (controlStreamId coordinates) (controlDischarge coordinates .turnContinuationAccepted
    (Wire.continuationAccepted.toValue ⟨subject, snapshotId, mandateId, nextTurnId, none⟩)
    consumedRequestId draw)

def appendContinuationRejectedEvent (subject : TurnContinuationSubject) (snapshotId reason : String)
    (consumedRequestId : EventRecordId) : LoopM EventRecord := do
  let draw ← ask .draw
  appendOne (controlStreamId coordinates) (controlDischarge coordinates .turnContinuationRejected
    (Wire.continuationRejected.toValue ⟨subject, snapshotId, reason, none⟩) consumedRequestId draw)

def applyContinuation (call : ContinueTurn) (coordinates : ThreadCoordinates)
    (requestEvent : EventRecord) (payload : TurnContinueRequestedPayload) :
    TurnContinuationDecision → LoopM LoopContinuationReceipt
  | .noRequest => return .noRequest
  | .accept consumedRequestId mandateId nextTurnInput => do
    let accepted ← appendContinuationAcceptedEvent coordinates payload.subject payload.snapshotId
      mandateId call.nextTurnId consumedRequestId
    submitContinuation call.threadId coordinates call.nextTurnId accepted.id nextTurnInput
    return .accepted call.loopId call.parentTurnId call.nextTurnId accepted.id
  | .reject consumedRequestId reason _ => do
    let rejected ← appendContinuationRejectedEvent coordinates payload.subject payload.snapshotId
      reason (consumedRequestId.getD requestEvent.id)
    return .rejected call.loopId call.parentTurnId reason rejected.id

/-- `decide_continuation` of a request, and what follows. -/
def decideContinuation (call : ContinueTurn) (coordinates : ThreadCoordinates)
    (requestEvent : EventRecord) (payload : TurnContinueRequestedPayload) :
    LoopM LoopContinuationReceipt := do
  let sourceEventId := requestEvent.provenance.sourceEventIds.head?.getD requestEvent.id
  let answer ← ask (.readControlEvents coordinates)
  let decision ← given (decideTurnContinuation codec (fun _ => answer)
    ⟨coordinates, payload.subject, payload.snapshotId, sourceEventId, call.nowMs,
      call.completedContinuations⟩)
  applyContinuation call coordinates requestEvent payload decision

def answerContinueRequest (call : ContinueTurn)
    (coordinates : ThreadCoordinates) (requestEvent : EventRecord)
    (payload : TurnContinueRequestedPayload) : LoopM LoopContinuationReceipt := do
  let answer ← ask (.readControlEvents coordinates)
  let existing ← given (orHistory answer >>=
    existingContinuationReceipt payload.subject payload.snapshotId)
  match existing with
  | some receipt => resumeContinuation call.threadId coordinates payload.nextTurnInput receipt
  | none         => decideContinuation codec call coordinates requestEvent payload

def continueTurnIfRequested (call : ContinueTurn) : LoopM LoopContinuationReceipt := do
  let found ← ask (.getThread call.threadId)
  let coordinates ← Proc.settle found
  let answer ← ask (.readControlEvents coordinates)
  let request ← given (orHistory answer >>=
    latestTurnContinueRequest codec call.loopId call.parentTurnId)
  match request with
  | none                         => return .noRequest
  | some (requestEvent, payload) => answerContinueRequest codec call coordinates requestEvent payload

/-! ### What the loops find -/

section
variable {α : Type} {read : EventRecord → VerletResult (Option α)} {events : List EventRecord}

/-- The last event that says something, with what it says. -/
structure LastOf (read : EventRecord → VerletResult (Option α)) (events : List EventRecord)
    (event : EventRecord) (a : α) : Prop where
  reads : read event = .ok (some a)
  last : ∃ earlier later, events = earlier ++ event :: later ∧ ∀ e ∈ later, read e = .ok none

/-- What the loop has found so far. -/
def Found (read : EventRecord → VerletResult (Option α)) (events : List EventRecord) :
    Option (Int × α) → Prop
  | none               => ∀ event ∈ events, read event = .ok none
  | some (sequence, a) => ∃ event, LastOf read events event a ∧ event.sequence = sequence

theorem Found.snoc {latest latest' : Option (Int × α)} {event : EventRecord}
    (h : Found read events latest) (hlater : ∀ e ∈ events, e.sequence < event.sequence)
    (hkeep : keepLatest read latest event = .ok latest') : Found read (events ++ [event]) latest' := by
  obtain ⟨said, hread, hkeep⟩ := bind_ok.mp hkeep
  cases said with
  | none =>
    obtain rfl := Except.ok.inj hkeep
    cases latest with
    | none =>
      intro e he
      rcases List.mem_append.mp he with he | he
      · exact h e he
      · exact List.mem_singleton.mp he ▸ hread
    | some found =>
      obtain ⟨last, ⟨hreads, earlier, later, rfl, hnone⟩, hsequence⟩ := h
      refine ⟨last, ⟨hreads, earlier, later ++ [event], by simp, fun e he => ?_⟩, hsequence⟩
      rcases List.mem_append.mp he with he | he
      · exact hnone e he
      · exact List.mem_singleton.mp he ▸ hread
  | some a =>
    -- the sequences go up, so that the event takes the place of whatever was kept
    have hgreater : (latest.all fun found => found.1 < event.sequence) = true := by
      cases latest with
      | none => rfl
      | some found =>
        obtain ⟨last, ⟨-, earlier, later, rfl, -⟩, hsequence⟩ := h
        have hlt := hlater last (by simp)
        rw [hsequence] at hlt
        exact decide_eq_true hlt
    dsimp only at hkeep
    rw [if_pos hgreater] at hkeep
    obtain rfl := Except.ok.inj hkeep
    exact ⟨event, ⟨hread, events, [], rfl, List.forall_mem_nil _⟩, rfl⟩

variable (hsorted : events.Pairwise fun e e' => e.sequence < e'.sequence)

include hsorted

theorem found_of_foldlM
    {latest : Option (Int × α)} (h : events.foldlM (keepLatest read) none = .ok latest) :
    Found read events latest := by
  induction events using List.reverseRecOn generalizing latest with
  | nil =>
    obtain rfl := Except.ok.inj h
    exact List.forall_mem_nil _
  | append_singleton events event ih =>
    rw [List.foldlM_append] at h
    obtain ⟨before, hbefore, h⟩ := bind_ok.mp h
    obtain ⟨hsorted, -, hlater⟩ := List.pairwise_append.mp hsorted
    obtain ⟨after, hkeep, hrest⟩ := bind_ok.mp h
    obtain rfl := Except.ok.inj hrest
    exact (ih hsorted hbefore).snoc (fun e he => hlater e he event (List.mem_singleton_self _)) hkeep

/-- **The loop found nothing** where no event says anything. -/
theorem latestOf_none
    (h : latestOf read events = .ok none) : ∀ event ∈ events, read event = .ok none := by
  obtain ⟨latest, hlatest, hmap⟩ := bind_ok.mp h
  obtain rfl := Option.map_eq_none_iff.mp (Except.ok.inj hmap)
  exact found_of_foldlM hsorted hlatest

/-- **The loop found what the last event says** that says anything. -/
theorem latestOf_some {a : α}
    (h : latestOf read events = .ok (some a)) : ∃ event, LastOf read events event a := by
  obtain ⟨latest, hlatest, hmap⟩ := bind_ok.mp h
  obtain ⟨⟨sequence, a'⟩, rfl, rfl⟩ := Option.map_eq_some_iff.mp (Except.ok.inj hmap)
  obtain ⟨event, hevent, -⟩ := found_of_foldlM hsorted hlatest
  exact ⟨event, hevent⟩

omit hsorted

theorem LastOf.mem {event : EventRecord} {a : α} (h : LastOf read events event a) :
    event ∈ events := by
  obtain ⟨earlier, later, rfl, -⟩ := h.last
  simp

end

theorem turnSubmittedEvent_none {turnId : String} {events : List EventRecord} :
    turnSubmittedEvent turnId events = none ↔
      ∀ event ∈ events, isTurnSubmitted turnId event = false := by
  rw [turnSubmittedEvent, Option.map_eq_none_iff]
  cases hfilter : events.filter (isTurnSubmitted turnId) with
  | nil =>
    simp only [List.map_nil, maxByKey, true_iff]
    intro event he
    exact Bool.eq_false_iff.mpr (List.filter_eq_nil_iff.mp hfilter event he)
  | cons event rest =>
    simp only [List.map_cons, maxByKey, reduceCtorEq, false_iff, not_forall]
    obtain ⟨hmem, htrue⟩ := List.mem_filter.mp (hfilter ▸ List.mem_cons_self : event ∈ _)
    exact ⟨event, hmem, by simp [htrue]⟩

end Verlet.Kernel
