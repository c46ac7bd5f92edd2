import Verlet.Support.Fallible
import Verlet.History.Batches

/-!
# History — Operations

The mutating operations of the `SessionStore` and `EventStore` traits as calls, once for both
stores.  A call carries the lease epoch of the handle it goes through and the ids and times the
store draws while it serves the call.

* `readEventsAfterCursor_placed`: a read after a cursor succeeds exactly where the cursor is that of
  a stored event, and returns what follows it.
-/

namespace Verlet.History
open Support

inductive Op where
  /-- `append` (no provenance) and `append_with_provenance`. -/
  | append (coordinates : ThreadCoordinates) (parentEntryId : Option SessionEntryId)
      (kind : SessionEntryKind) (provenance : Option EventProvenance)
  | appendTurnInput (coordinates : ThreadCoordinates) (turnId : String) (kind : SessionEntryKind)
  | selectBranch (coordinates : ThreadCoordinates) (leaf : Option SessionEntryId)
  | cloneBranch (source : ThreadCoordinates) (sourceLeaf : Option SessionEntryId)
      (target : ThreadCoordinates)
  | forkByReference (source target : ThreadCoordinates) (base : ThreadBaseRef)
  | appendEvents (streamId : EventStreamId) (records : List NewEventRecord)
  | appendEventsFenced (streamId : EventStreamId) (expected : EventSequence)
      (records : List NewEventRecord)

/-- An operation through a handle, with what the store draws for it. -/
structure Call where
  leaseEpoch : Nat
  draws : Nat → Draw
  op : Op

/-- What an operation returns. -/
inductive Reply where
  | unit
  | entry (entry : SessionEntry)
  | leaf (leaf : Option SessionEntryId)
  | events (events : List EventRecord)
deriving DecidableEq

/-- `EventStore::read_events_after_cursor`, over a store's `read_events`. -/
def readEventsAfterCursor
    (readEvents : EventStreamId → Option EventSequence → HistoryResult (List EventRecord))
    (streamId : EventStreamId) (cursor : StreamCursorV1) : HistoryResult (List EventRecord) := do
  cursor.validateStreamCursorV1
  if cursor.streamId ≠ streamId then
    throw (.streamCursorStreamMismatch cursor.streamId streamId)
  let events ← readEvents streamId (some cursor.sequence)
  let current := events.head?
  let matchesCursor := current.any fun event =>
    event.sequence = cursor.sequence ∧ event.id = cursor.eventId
  if ¬ matchesCursor then
    throw (.streamCursorMismatch streamId cursor.sequence cursor.eventId
      (current.map (·.sequence)) (current.map (·.id)))
  return events.tail

variable {cursor : StreamCursorV1}

theorem readEventsAfterCursor_eq_ok
    {readEvents : EventStreamId → Option EventSequence → HistoryResult (List EventRecord)}
    {streamId : EventStreamId} {batch : List EventRecord} :
    readEventsAfterCursor readEvents streamId cursor = .ok batch ↔
      cursor.validateStreamCursorV1 = .ok () ∧ cursor.streamId = streamId ∧
      ∃ events first, readEvents streamId (some cursor.sequence) = .ok events ∧
        events.head? = some first ∧ first.sequence = cursor.sequence ∧
        first.id = cursor.eventId ∧ batch = events.tail := by
  simp only [readEventsAfterCursor, bind_ok, exists_unit_ok]
  refine and_congr_right fun _ => ?_
  by_cases hs : cursor.streamId = streamId
  · simp only [hs, ne_eq, not_true_eq_false, if_false, bind_ok, true_and]
    refine exists_congr fun events => ?_
    cases hh : events.head? with
    | none =>
      simp only [Option.any_none, Bool.false_eq_true, not_false_eq_true, if_true, bind_ok,
        throw_ok, false_and, exists_false, and_false, reduceCtorEq]
    | some first =>
      by_cases hm : first.sequence = cursor.sequence ∧ first.id = cursor.eventId
      · simp only [Option.any_some, hm, and_self, decide_true, not_true_eq_false, if_false,
          pure_ok, Option.some.injEq, exists_and_left, exists_eq_left', true_and]
        exact and_congr_right fun _ => eq_comm
      · simp only [Option.any_some, hm, decide_false, Bool.false_eq_true, not_false_eq_true,
          if_true, bind_ok, throw_ok, false_and, exists_false, and_false, Option.some.injEq,
          false_iff]
        rintro ⟨_, -, rfl, h₁, h₂, -⟩
        exact hm ⟨h₁, h₂⟩
  · simp only [hs, ne_eq, not_false_eq_true, if_true, bind_ok, throw_ok, false_and, exists_false]

/-! ### Cursors -/

theorem validateAgainst_cursor (streamId : EventStreamId) (sequence : EventSequence)
    (eventId : EventRecordId) :
    validateAgainst streamCursorSchemaIdV1 streamCursorSchemaV1
      (StreamCursorV1.toValue ⟨streamCursorSchemaIdV1, streamId, sequence, eventId⟩) = .ok () := rfl

theorem validateStreamCursorV1_ok :
    cursor.validateStreamCursorV1 = .ok () ↔
      cursor.schema = streamCursorSchemaIdV1 ∧ 1 ≤ cursor.sequence := by
  unfold StreamCursorV1.validateStreamCursorV1
  obtain ⟨schema, streamId, sequence, eventId⟩ := cursor
  by_cases hs : schema = streamCursorSchemaIdV1
  · subst hs
    by_cases hq : sequence < 1
    · simp [hq]
    · simp only [ne_eq, not_true_eq_false, if_false, hq, validateAgainst_cursor, true_and, true_iff]
      exact Int.not_lt.mp hq
  · simp [hs]

theorem readEventsAfterCursor_placed
    {readEvents : EventStreamId → Option EventSequence → HistoryResult (List EventRecord)}
    {streamId : EventStreamId} {events : List EventRecord} (h : Placed streamId events)
    (hread : ∀ sequence : EventSequence,
      readEvents streamId (some sequence) = .ok (events.drop (sequence - 1).toNat))
    {batch : List EventRecord} :
    readEventsAfterCursor readEvents streamId cursor = .ok batch ↔
      ∃ i event, events[i]? = some event ∧ cursor = event.cursorV1 ∧
        batch = events.drop (i + 1) := by
  rw [readEventsAfterCursor_eq_ok, validateStreamCursorV1_ok]
  constructor
  · rintro ⟨⟨hschema, hseq⟩, rfl, read, first, hok, hhead, hfs, hfi, rfl⟩
    obtain ⟨i, hi⟩ : ∃ i : Nat, cursor.sequence = (i : Int) + 1 := by
      obtain ⟨i, hi⟩ := Int.eq_ofNat_of_zero_le (Int.sub_nonneg.mpr hseq)
      exact ⟨i, by rw [← hi, Int.sub_add_cancel]⟩
    obtain rfl : events.drop i = read := by
      rw [hread, hi] at hok
      simpa using hok
    have hget : events[i]? = some first := by
      rw [← hhead, List.head?_drop]
    refine ⟨i, first, hget, ?_, List.tail_drop⟩
    calc cursor = ⟨cursor.schema, cursor.streamId, cursor.sequence, cursor.eventId⟩ := rfl
      _ = first.cursorV1 := by
        rw [hschema, ← hfs, ← hfi, EventRecord.cursorV1, (h i first hget).1]
  · rintro ⟨i, event, hget, rfl, rfl⟩
    obtain ⟨hes, heq⟩ := h i event hget
    refine ⟨⟨rfl, ?_⟩, hes, events.drop i, event, ?_, ?_, rfl, rfl, ?_⟩
    · rw [EventRecord.cursorV1, heq]
      exact Int.le_add_of_nonneg_left (Int.natCast_nonneg i)
    · rw [hread, EventRecord.cursorV1, heq]
      simp
    · rw [List.head?_drop, hget]
    · rw [List.tail_drop]

/-! ### Sample calls -/

/-- The ids and times of the `n`th entry of a sample run. -/
def Draw.counted (n : Nat) : Draw := ⟨⟨⟨BitVec.ofNat 128 n⟩⟩, n, ⟨⟨BitVec.ofNat 128 n⟩⟩, n⟩

/-- A call of a sample run, drawing from `n` on. -/
def Call.counted (leaseEpoch n : Nat) (op : Op) : Call := ⟨leaseEpoch, fun i => .counted (n + i), op⟩

/-- A thread of a sample run, by its owner and number. -/
def ThreadCoordinates.counted (userId : String) (n : Nat) : ThreadCoordinates :=
  ⟨"tenant", userId, "session", ⟨⟨BitVec.ofNat 128 n⟩⟩⟩

/-- The entry id drawn `n`th in a sample run. -/
def SessionEntryId.counted (n : Nat) : SessionEntryId := ⟨⟨BitVec.ofNat 128 n⟩⟩

/-- A user's message in a sample run. -/
def SessionEntryKind.said (text : String) : SessionEntryKind := .message (.userTextAt text 0)

/-- A base of a sample run: thread `child` on thread `parent`. -/
def ThreadBaseRef.counted (parent child : Nat) (leaf : Option SessionEntryId) : ThreadBaseRef where
  childThreadId := (ThreadCoordinates.counted "user" child).threadId
  parentThreadId := (ThreadCoordinates.counted "user" parent).threadId
  parentCheckpointId := none
  parentLeafEntryId := leaf
  parentStreamId := .forThread (.counted "user" parent)
  parentStreamToSequence := none
  parentBindingSnapshotId := none
  reason := .manual
  createdAtMs := 0

end Verlet.History
