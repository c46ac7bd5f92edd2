import Verlet.RemoteStore.Endpoint

/-!
# Remote store — The propagator

`LocalFirstStreamPropagator`: the child's side of a stream.  One attempt reads the local stream past
`pushed_through`, pushes the batch, renews its lease where that is due, and reconciles where the
parent's tail is not the one it expects.  It is a process: every read of the local store, write of
the propagation state and request to the endpoint is one call, and anything else may happen in
between, to either store.

The `&mut` state of the source is an argument, and the state it leaves is part of the result.
-/

namespace Verlet.RemoteStore
open Support History

def minRenewalMarginMs : Int := 1000

/-- What `i64` holds of an integer, for the saturating operations. -/
def saturate (n : Int) : Int := max (-2 ^ 63) (min (2 ^ 63 - 1) n)

structure StreamPropagationState where
  streamId : EventStreamId
  lease : StreamLeaseGrantV1
  pushedThrough : Option EventSequence
deriving DecidableEq

/-- What one attempt did. -/
inductive PropagationStep where
  | converged
  | advanced (pushedThrough : EventSequence)
  | endpointUnavailable
  | leaseFenced
  | streamDiverged (actualNextSequence : EventSequence)
deriving DecidableEq

/-- What a propagator is set up with; a batch has room for a record. -/
structure LocalFirstStreamPropagator where
  bearerToken : String
  batchSize : Nat
  batchSize_pos : 0 < batchSize

/-- One call of an attempt: on the clock, the local store, the state store or the endpoint. -/
inductive PropagatorCall where
  | now
  | readEvents (streamId : EventStreamId) (fromSequence : Option EventSequence)
  | persist (state : StreamPropagationState)
  | sync (call : SyncCall)

abbrev PropagatorCall.Reply : PropagatorCall → Type
  | .now            => Int
  | .readEvents _ _ => VerletResult (List EventRecord)
  | .persist _      => VerletResult Unit
  | .sync call      => call.Reply

abbrev PropagatorM := Proc PropagatorCall PropagatorCall.Reply

abbrev PropagatorCall.ask (call : PropagatorCall) : PropagatorM call.Reply := .perform call

abbrev Attempt := VerletResult PropagationStep × StreamPropagationState

/-! ### Renewal -/

/-- What a renewal decides: a step that ends the attempt, or nothing. -/
abbrev Renewal := VerletResult (Option PropagationStep) × StreamPropagationState

variable (state : StreamPropagationState)

/-- `LocalFirstStreamPropagator::renew`. -/
def renewState : PropagatorM Renewal := do
  match ← PropagatorCall.ask (.sync .renew) with
  | .error _ => return (.ok (some .endpointUnavailable), state)
  | .ok none => return (.ok (some .leaseFenced), state)
  | .ok (some renewed) =>
    if renewed.leaseId ≠ state.lease.leaseId ∨ renewed.scope ≠ state.lease.scope then
      return (.ok (some .leaseFenced), state)
    else
      let state := { state with lease := renewed }
      match ← PropagatorCall.ask (.persist state) with
      | .error error => return (.error error, state)
      | .ok () => return (.ok none, state)

/-- The lease is within its renewal margin, or past it. -/
def renewalDue (lease : StreamLeaseGrantV1) (nowMs : Int) : Bool :=
  let leaseDurationMs := saturate (lease.expiresAtMs - lease.grantedAtMs)
  let renewalMarginMs := max (leaseDurationMs.tdiv 3) minRenewalMarginMs
  ¬ nowMs < saturate (lease.expiresAtMs - renewalMarginMs)

/-- `LocalFirstStreamPropagator::renew_if_due`. -/
def renewIfDue : PropagatorM Renewal := do
  let nowMs ← PropagatorCall.ask .now
  if renewalDue state.lease nowMs then renewState state
  else return (.ok none, state)

/-! ### Reconciliation -/

/-- The position moves to the end of a batch, and is persisted before it is told. -/
def advance (pushedThrough : EventSequence) : PropagatorM Attempt := do
  let state := { state with pushedThrough := some pushedThrough }
  match ← PropagatorCall.ask (.persist state) with
  | .error error => return (.error error, state)
  | .ok () => return (.ok (.advanced pushedThrough), state)

def lastSequence (first : StreamRecordEnvelopeV1) (rest : List StreamRecordEnvelopeV1) :
    EventSequence :=
  ((first :: rest).getLast (List.cons_ne_nil first rest)).sequence

/-- The cursor of the local record before the batch. -/
def reconciliationCursor (expected : EventSequence) :
    PropagatorM (VerletResult (Option StreamCursorV1)) := do
  if expected = 1 then return .ok none
  else match ← PropagatorCall.ask (.readEvents state.streamId (some (expected - 1))) with
    | .error error => return .error error
    | .ok events =>
      match events.head? with
      | none => return .error (.history (.plain "local propagation cursor record is missing"))
      | some previous => return .ok (some previous.cursorV1)

def pullFailure (actualNextSequence : EventSequence) (error : VerletError) : PropagationStep :=
  if error = notAuthorized then .leaseFenced
  else match error with
    | .history _ => .streamDiverged actualNextSequence
    | .runtimeExecution _ => .endpointUnavailable

/-- The batch is what the parent holds: adopted, if what the parent holds past it is local too. -/
def adoptRemote (first : StreamRecordEnvelopeV1)
    (rest remote : List StreamRecordEnvelopeV1) (actualNextSequence : EventSequence) :
    PropagatorM Attempt := do
  if remote.length > (first :: rest).length then
    match ← PropagatorCall.ask (.readEvents state.streamId (some first.sequence)) with
    | .error error => return (.error error, state)
    | .ok events =>
      let localRecords := events.map (·.toStreamRecordV1)
      if remote.length > localRecords.length ∨ remote ≠ localRecords.take remote.length then
        return (.ok (.streamDiverged actualNextSequence), state)
      else advance state (lastSequence first rest)
  else advance state (lastSequence first rest)

/-- `LocalFirstStreamPropagator::reconcile_sequence_conflict`. -/
def reconcileSequenceConflict (first : StreamRecordEnvelopeV1)
    (rest : List StreamRecordEnvelopeV1) (actualNextSequence : EventSequence) :
    PropagatorM Attempt := do
  match ← reconciliationCursor state first.sequence with
  | .error error => return (.error error, state)
  | .ok cursor =>
    match ← PropagatorCall.ask (.sync (.pull state.streamId cursor)) with
    | .error error => return (.ok (pullFailure actualNextSequence error), state)
    | .ok remote =>
      if remote.length < (first :: rest).length ∨
          remote.take (first :: rest).length ≠ first :: rest then
        return (.ok (.streamDiverged actualNextSequence), state)
      else adoptRemote state first rest remote actualNextSequence

/-! ### An attempt -/

/-- One pass of the loop of `propagate_once`: a push, and what follows its answer.  `again` is how the
loop goes on after a renewal, once. -/
def pushOnce (request : SyncPushRequestV1) (first : StreamRecordEnvelopeV1)
    (rest : List StreamRecordEnvelopeV1)
    (again : Option (StreamPropagationState → PropagatorM Attempt))
    (state : StreamPropagationState) : PropagatorM Attempt := do
  match ← PropagatorCall.ask (.sync (.push request)) with
  | .error _ => return (.ok .endpointUnavailable, state)
  | .ok outcome =>
    if ¬ outcome.matchesRequest request then return (.ok .endpointUnavailable, state)
    else match outcome with
      | .accepted _ => advance state (lastSequence first rest)
      | .rejected rejection =>
        match rejection.reason, again with
        | .leaseFence .expired, some again =>
          match ← renewState state with
          | (.error error, state) => return (.error error, state)
          | (.ok (some step), state) => return (.ok step, state)
          | (.ok none, state) => again state
        | .sequenceFenceConflict actual, _ =>
          reconcileSequenceConflict state first rest actual
        | _, _ => return (.ok .leaseFenced, state)

/-- The loop of `propagate_once`; the second pass has `renewed_after_expiry` set. -/
def pushBatch (request : SyncPushRequestV1) (first : StreamRecordEnvelopeV1)
    (rest : List StreamRecordEnvelopeV1) (state : StreamPropagationState) : PropagatorM Attempt :=
  pushOnce request first rest (some (pushOnce request first rest none)) state

def batchRequest (first : StreamRecordEnvelopeV1)
    (rest : List StreamRecordEnvelopeV1) : SyncPushRequestV1 where
  schema := syncPushSchemaV1
  streamId := state.streamId
  leaseId := state.lease.leaseId
  expectedNextSequence := first.sequence
  records := first :: rest

/-- An attempt once its lease needs no renewal: the batch past the position, pushed. -/
def propagateBatch (propagator : LocalFirstStreamPropagator) (state : StreamPropagationState) :
    PropagatorM Attempt := do
  let fromSequence := state.pushedThrough.map fun sequence => saturate (sequence + 1)
  match ← PropagatorCall.ask (.readEvents state.streamId fromSequence) with
  | .error error => return (.error error, state)
  | .ok events =>
    match (events.take propagator.batchSize).map (·.toStreamRecordV1) with
    | [] => return (.ok .converged, state)
    | first :: rest => pushBatch (batchRequest state first rest) first rest state

/-- `LocalFirstStreamPropagator::propagate_once`. -/
def propagateOnce (propagator : LocalFirstStreamPropagator) (state : StreamPropagationState) :
    PropagatorM Attempt := do
  if ¬ state.lease.scope.authorizes state.streamId then
    return (.error (.history (.plain "propagation lease scope does not authorize its stream")), state)
  else match ← renewIfDue state with
    | (.error error, state) => return (.error error, state)
    | (.ok (some step), state) => return (.ok step, state)
    | (.ok none, state) => propagateBatch propagator state

end Verlet.RemoteStore
