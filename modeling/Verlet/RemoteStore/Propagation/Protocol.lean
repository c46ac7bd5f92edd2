import Verlet.RemoteStore.Propagator

/-!
# Remote store — Propagation — Protocol

The protocol of a propagated stream, in terms of how far along the stream each side is.  `log` is
the child's stream as it will be at the end; a `View` says how much of it each side holds now, the
parent no more than the child, and which propagation state is persisted.  Both sides only grow.

`strict` is for the runs in which no push arrives while the parent holds some of its records but
not all: there a conflict says that the parent holds them all.
-/

namespace Verlet.RemoteStore
open Support History

/-! ### Views -/

/-- How much of the stream each side holds, and the persisted state. -/
structure View (log : List EventRecord) where
  parent : Nat
  child : Nat
  saved : Option StreamPropagationState
  parent_le : parent ≤ child
  child_le : child ≤ log.length

variable {log : List EventRecord}

/-- Both sides grow. -/
structure View.Grows (v v' : View log) : Prop where
  parent : v.parent ≤ v'.parent
  child : v.child ≤ v'.child

/-- Both sides grow while the propagator waits: it alone writes its state. -/
structure View.Awaits (v v' : View log) : Prop extends View.Grows v v' where
  saved : v'.saved = v.saved

theorem View.Grows.refl (v : View log) : v.Grows v := ⟨le_rfl, le_rfl⟩

theorem View.Grows.trans (v v' v'' : View log) (h : v.Grows v') (h' : v'.Grows v'') : v.Grows v'' :=
  ⟨h.parent.trans h'.parent, h.child.trans h'.child⟩

theorem View.Awaits.refl (v : View log) : v.Awaits v := ⟨.refl v, rfl⟩

theorem View.Awaits.trans (v v' v'' : View log) (h : v.Awaits v') (h' : v'.Awaits v'') :
    v.Awaits v'' := ⟨.trans v v' v'' h.toGrows h'.toGrows, h'.saved.trans h.saved⟩

/-! ### Batches and cursors -/

/-- The records of the stream from place `start` on, `count` of them. -/
def batchAt (log : List EventRecord) (start count : Nat) : List EventRecord :=
  (log.drop start).take count

theorem length_batchAt {start count : Nat} (h : start + count ≤ log.length) :
    (batchAt log start count).length = count := by
  rw [batchAt, List.length_take, List.length_drop]
  omega

/-- The cursor of a reader who has `start` records of the stream. -/
def cursorAt (log : List EventRecord) : Nat → Option StreamCursorV1
  | 0         => none
  | start + 1 => log[start]?.map (·.cursorV1)

/-- The request pushes the child's records that follow some that the parent holds. -/
structure IsBatch (streamId : EventStreamId) (log : List EventRecord) (request : SyncPushRequestV1)
    (start : Nat) (v : View log) : Prop where
  stream : request.streamId = streamId
  expected : request.expectedNextSequence = start + 1
  records : request.records =
    (batchAt log start request.records.length).map (·.toStreamRecordV1)
  known : start ≤ v.parent
  held : start + request.records.length ≤ v.child

theorem IsBatch.mono {streamId : EventStreamId} {request : SyncPushRequestV1} {start : Nat}
    {v v' : View log} (h : IsBatch streamId log request start v) (hv : v.Grows v') :
    IsBatch streamId log request start v' :=
  { h with known := h.known.trans hv.parent, held := h.held.trans hv.child }

/-! ### Positions -/

/-- The state is the stream's, and the parent holds what it says is pushed. -/
structure Confirmed (streamId : EventStreamId) (state : StreamPropagationState) (v : View log) :
    Prop where
  stream : state.streamId = streamId
  pushed : ∀ sequence, state.pushedThrough = some sequence → sequence ≤ v.parent
  fits : ∀ sequence, state.pushedThrough = some sequence → sequence < 2 ^ 63

variable {state : StreamPropagationState}

theorem Confirmed.mono {streamId : EventStreamId} {v v' : View log} (h : Confirmed streamId state v)
    (hv : v.Grows v') : Confirmed streamId state v' where
  stream := h.stream
  pushed sequence hs := (h.pushed sequence hs).trans (by exact_mod_cast hv.parent)
  fits := h.fits

/-- `pushed_through` is no smaller. -/
def StreamPropagationState.Behind (state state' : StreamPropagationState) : Prop :=
  ∀ sequence, state.pushedThrough = some sequence →
    ∃ sequence', state'.pushedThrough = some sequence' ∧ sequence ≤ sequence'

theorem StreamPropagationState.Behind.refl (state : StreamPropagationState) : state.Behind state :=
  fun sequence h => ⟨sequence, h, le_rfl⟩

theorem StreamPropagationState.Behind.trans {state' state'' : StreamPropagationState}
    (h : state.Behind state') (h' : state'.Behind state'') : state.Behind state'' := by
  intro sequence hs
  obtain ⟨sequence', hs', hle⟩ := h sequence hs
  obtain ⟨sequence'', hs'', hle'⟩ := h' sequence' hs'
  exact ⟨sequence'', hs'', hle.trans hle'⟩

theorem behind_of_eq {state' : StreamPropagationState}
    (h : state'.pushedThrough = state.pushedThrough) : state.Behind state' :=
  fun sequence hs => ⟨sequence, h.trans hs, le_rfl⟩

/-! ### The endpoint's calls -/

section Calls

variable (streamId : EventStreamId) (log) (strict : Prop)

/-- What a request of the child may ask of the daemon's stores. -/
def EndpointAsks : EndpointCall → View log → Prop
  | .appendIfCurrent stream _ expected records, v =>
    stream = streamId ∧ ∃ start : Nat, expected = start + 1 ∧
      numbered streamId start records = batchAt log start records.length ∧
      start ≤ v.parent ∧ start + records.length ≤ v.child
  | .readEvents stream cursor, v =>
    stream = streamId ∧ ∃ start, cursor = cursorAt log start ∧ start ≤ v.parent
  | _, _ => True

/-- What it may count on. -/
def EndpointAnswers : (call : EndpointCall) → View log → call.Reply → View log → Prop
  | .appendIfCurrent _ _ expected records, v, answer, v' => v.Awaits v' ∧
      ∀ start : Nat, expected = start + 1 →
        ((∃ ack, answer = .ok (.appended ack)) → start + records.length ≤ v'.parent) ∧
        ((∃ actual, answer = .ok (.sequenceFenceConflict actual)) → strict →
          start + records.length ≤ v'.parent)
  | .readEvents _ cursor, v, answer, v' => v' = v ∧
      ∀ start, cursor = cursorAt log start → start ≤ v.parent →
        answer = .ok (((log.take v.parent).drop start).map (·.toStreamRecordV1))
  | .queuePullAfter _ _, v, answer, v' => v' = v ∧
      ∀ records, answer = .ok records → ∀ record ∈ records, ∀ kind : EventKind,
        record.kind ≠ kind.asRef
  | .now, v, _, v' | .verifyToken _, v, _, v' | .renewLease _, v, _, v'
  | .insertRejection _, v, _, v' => v' = v

/-! ### The child's requests -/

/-- What an attempt may ask of the endpoint. -/
def SyncAsks : SyncCall → View log → Prop
  | .renew, _ => True
  | .push request, v => ∃ start, IsBatch streamId log request start v
  | .pull stream cursor, v =>
    stream = streamId ∧ ∃ start, cursor = cursorAt log start ∧ start ≤ v.parent

/-- What the answer of a push says of its records, the first at place `start`: the parent holds them
all, and their sequences are within `i64`. -/
structure PushAnswers (request : SyncPushRequestV1) (start : Nat)
    (answer : VerletResult SyncPushOutcome) (v : View log) : Prop where
  accepted : (∃ ack, answer = .ok (.accepted ack)) →
    start + request.records.length ≤ v.parent ∧ start + request.records.length < 2 ^ 63
  conflict : ∀ rejection actual, answer = .ok (.rejected rejection) →
    rejection.reason = .sequenceFenceConflict actual →
      (strict → start + request.records.length ≤ v.parent) ∧
        start + request.records.length < 2 ^ 63

/-- What the answer of a pull says: the records are the parent's at some moment since it was asked,
or, where the stream is the queue's, no records of the vocabulary. -/
structure PullAnswers (cursor : Option StreamCursorV1) (v : View log)
    (answer : VerletResult (List StreamRecordEnvelopeV1)) (v' : View log) : Prop where
  pulled : ∀ records, answer = .ok records →
    (∃ tail, v.parent ≤ tail ∧ tail ≤ v'.parent ∧
      ∀ start, cursor = cursorAt log start → start ≤ v.parent →
        records = ((log.take tail).drop start).map (·.toStreamRecordV1)) ∨
    (¬ strict ∧ ∀ record ∈ records, ∀ kind : EventKind, record.kind ≠ kind.asRef)
  failed : strict → ∀ error, answer = .error error →
    error = notAuthorized ∨ ∃ text, error = .runtimeExecution text

/-- What an attempt may count on. -/
def SyncAnswers : (call : SyncCall) → View log → call.Reply → View log → Prop
  | .renew, _, _, _ => True
  | .push request, _, answer, v' => ∀ start : Nat, request.expectedNextSequence = start + 1 →
      PushAnswers log strict request start answer v'
  | .pull _ cursor, v, answer, v' => PullAnswers log strict cursor v answer v'

/-! ### The propagator's calls -/

/-- The place in the stream that a read starts from. -/
def startOf : Option EventSequence → Nat
  | none          => 0
  | some sequence => (sequence - 1).toNat

/-- What an attempt may ask for. -/
def PropagatorAsks : PropagatorCall → View log → Prop
  | .now, _ => True
  | .readEvents stream _, _ => stream = streamId
  | .persist state, v => Confirmed streamId state v ∧ ∀ prior, v.saved = some prior →
      prior.Behind state
  | .sync call, v => SyncAsks log streamId call v

/-- What it may count on. -/
def PropagatorAnswers : (call : PropagatorCall) → View log → call.Reply → View log → Prop
  | .now, v, _, v' => v' = v
  | .readEvents _ fromSequence, v, answer, v' => v' = v ∧
      ∀ events, answer = .ok events → events = (log.take v.child).drop (startOf fromSequence)
  | .persist state, v, answer, v' => v.Grows v' ∧ (answer = .ok () → v'.saved = some state)
  | .sync call, v, answer, v' => v.Awaits v' ∧ SyncAnswers log strict call v answer v'

end Calls

end Verlet.RemoteStore
