import Verlet.RemoteStore.Lease.Steps
import Verlet.RemoteStore.Propagation
import Verlet.RemoteStore.Propagation.Protocol

/-!
# Remote store — Propagation — Serving

The databases answer as the protocol says.  `Shows` is when two databases are at a `View`: the rows
of the stream are those of the first events of the `log`, on both sides.

* `local_answers`, `saved_answers`: the child's databases do.
* `apply_history`: whatever else happens at the daemon are calls on its store.
-/

namespace Verlet.RemoteStore
open Support History History.Sqlite

variable {Text : Type} {codec : Codec Text} {endpoint : SyncEndpoint Text}
  {streamId : EventStreamId} {log : List EventRecord} {strict : Prop}

structure Readable (codec : Codec Text) (streamId : EventStreamId) (log : List EventRecord) : Prop
    where
  placed : Placed streamId log
  reads : ∀ event ∈ log, codec.Reads event

theorem Readable.reads_take (h : Readable codec streamId log) (n : Nat) :
    ∀ event ∈ log.take n, codec.Reads event :=
  fun event he => h.reads event (List.mem_of_mem_take he)

/-- The databases are at the view. -/
structure Shows (codec : Codec Text) (streamId : EventStreamId) (stores : Stores Text)
    (v : View log) : Prop where
  parent : stores.parent.authority.history.stream streamId = (log.take v.parent).map (.of codec)
  child : stores.child.stream streamId = (log.take v.child).map (.of codec)
  saved : stores.saved.lookup streamId = v.saved
  counted : Counted stores.parent.authority.history

variable {stores : Stores Text} {v : View log}

theorem Shows.holds_parent (h : Shows codec streamId stores v) (hlog : Readable codec streamId log) :
    Holds codec stores.parent.authority.history streamId (log.take v.parent) :=
  ⟨h.parent, hlog.placed.take _⟩

theorem Shows.holds_child (h : Shows codec streamId stores v) (hlog : Readable codec streamId log) :
    Holds codec stores.child streamId (log.take v.child) :=
  ⟨h.child, hlog.placed.take _⟩

theorem View.length_parent (v : View log) : (log.take v.parent).length = v.parent := by
  rw [List.length_take, Nat.min_eq_left (v.parent_le.trans v.child_le)]

theorem Shows.next (h : Shows codec streamId stores v) (hlog : Readable codec streamId log) :
    sqliteNextEventSequence stores.parent.authority.history streamId = v.parent + 1 := by
  rw [(h.holds_parent hlog).next, v.length_parent]

/-! ### The daemon's stores -/

theorem Shows.recordsAfter (h : Shows codec streamId stores v) (hlog : Readable codec streamId log)
    {start : Nat} (hstart : start ≤ v.parent) :
    recordsAfter codec stores.parent.authority.history streamId (cursorAt log start) =
      .ok (((log.take v.parent).drop start).map (·.toStreamRecordV1)) := by
  have hholds := h.holds_parent hlog
  have hreads := hlog.reads_take v.parent
  unfold RemoteStore.recordsAfter
  cases start with
  | zero =>
    rw [cursorAt]
    dsimp only
    rw [hholds.readEvents_none hreads]
    rfl
  | succ previous =>
    have hlt : previous < log.length :=
      Nat.lt_of_lt_of_le hstart (v.parent_le.trans v.child_le)
    have hget : (log.take v.parent)[previous]? = some (log.get ⟨previous, hlt⟩) := by
      rw [List.getElem?_take, if_pos (Nat.lt_of_succ_le hstart), List.getElem?_eq_getElem hlt]
      rfl
    have hread := (readEventsAfterCursor_placed hholds.placed
      (hholds.readEvents_some hreads)).mpr ⟨previous, log.get ⟨previous, hlt⟩, hget, rfl, rfl⟩
    rw [cursorAt, List.getElem?_eq_getElem hlt]
    change (liftHistory (readEventsAfterCursor
      (Sqlite.readEvents codec stores.parent.authority.history) streamId
      (log.get ⟨previous, hlt⟩).cursorV1) >>= fun events =>
        pure (events.map EventRecord.toStreamRecordV1)) = _
    rw [hread]
    rfl

theorem append_answers (hlog : Readable endpoint.codec streamId log)
    (h : Shows endpoint.codec streamId stores v) {nowMs : Int} {leaseEpoch : Nat}
    {presented : StreamLeaseId} {start : Nat} {records : List NewEventRecord}
    (hrecords : numbered streamId start records = batchAt log start records.length)
    (hknown : start ≤ v.parent) (hheld : start + records.length ≤ v.child)
    (hstrict : strict → ¬ SplitsBatch streamId nowMs stores.parent.authority
      (.appendIfCurrent streamId presented (start + 1) records)) :
    ∃ v' : View log,
      Shows endpoint.codec streamId { stores with parent := ((EndpointCall.appendIfCurrent streamId
        presented (start + 1) records).serve endpoint nowMs leaseEpoch stores.parent).2 } v' ∧
      EndpointAnswers log strict (.appendIfCurrent streamId presented (start + 1) records) v
        ((EndpointCall.appendIfCurrent streamId presented (start + 1) records).serve endpoint nowMs
          leaseEpoch stores.parent).1 v' ∧ v.Awaits v' := by
  have hnext := h.next hlog
  rcases @appendIfCurrent_cases Text nowMs endpoint.codec leaseEpoch streamId presented (start + 1)
    records stores.parent.authority with ⟨hsame, hrefused⟩ | ⟨-, appended, history, ack, happend, -, hserved⟩
  · have hkeeps : ((EndpointCall.appendIfCurrent streamId presented (start + 1) records).serve
        endpoint nowMs leaseEpoch stores.parent).2.authority = stores.parent.authority := hsame
    refine ⟨v, ⟨?_, h.child, h.saved, ?_⟩, ⟨.refl v, fun start' hstart' => ⟨?_, ?_⟩⟩, .refl v⟩
    · rw [hkeeps]
      exact h.parent
    · rw [hkeeps]
      exact h.counted
    · rintro ⟨ack, hack⟩
      exact absurd hack (hrefused ack)
    · rintro ⟨actual, hactual⟩ hs
      obtain ⟨hcurrent, hfound, hne⟩ := appendIfCurrent_conflict hactual
      have hstart : (start : Int) + 1 = start' + 1 := hstart'
      -- the tail is another one, and not inside the batch: it is past it
      by_contra hshort
      refine hstrict hs ⟨rfl, hcurrent, ?_, ?_⟩
      · rw [hnext]
        rw [hfound, hnext] at hne
        have hother : (v.parent : Int) + 1 ≠ start + 1 := hne
        change ((start : Int) + 1) < v.parent + 1
        omega
      · rw [hnext]
        change ((v.parent : Int) + 1) < start + 1 + records.length
        omega
  · have hcount : stores.parent.authority.history.count streamId = v.parent := by
      rw [(h.holds_parent hlog).count, v.length_parent]
    obtain ⟨-, hexpected, -, rfl⟩ :=
      (Sqlite.appendEventsFencedInTransaction_ok h.counted).mp happend
    rw [hcount] at hexpected
    have hstart : (start : Int) + 1 = v.parent + 1 := hexpected
    obtain rfl : start = v.parent := by omega
    have hrows : (stores.parent.authority.history.journal endpoint.codec leaseEpoch streamId
        records).eventRecords = stores.parent.authority.history.eventRecords ++
          (numbered streamId v.parent records).map (.of endpoint.codec) := by
      rw [← hcount]
      rfl
    have hserve : ((EndpointCall.appendIfCurrent streamId presented (v.parent + 1) records).serve
        endpoint nowMs leaseEpoch stores.parent) = (.ok (.appended ack),
          { stores.parent with authority := { stores.parent.authority with
            history := stores.parent.authority.history.journal endpoint.codec leaseEpoch streamId
              records } }) := by
      rw [EndpointCall.serve, hserved]
    let v' : View log :=
      ⟨v.parent + records.length, v.child, v.saved, hheld, v.child_le⟩
    have hgrows : v.Awaits v' := ⟨⟨Nat.le_add_right _ _, le_rfl⟩, rfl⟩
    rw [hserve]
    refine ⟨v', ⟨?_, h.child, h.saved, ?_⟩, ⟨hgrows, fun start' hstart' => ⟨?_, ?_⟩⟩, hgrows⟩
    · change (stores.parent.authority.history.journal endpoint.codec leaseEpoch streamId
        records).stream streamId = _
      rw [Sqlite.stream_append hrows, if_pos rfl, h.parent, hrecords, batchAt,
        ← List.map_append, ← List.take_add]
    · exact @Sqlite.Counted.append _ endpoint.codec _ streamId _ records h.counted rfl
    · intro _
      have hplace : (v.parent : Int) + 1 = start' + 1 := hstart'
      change start' + records.length ≤ v.parent + records.length
      omega
    · rintro ⟨actual, ⟨⟩⟩

theorem renewLease_history (authority : StreamLeaseAuthority) (nowMs : Int)
    (leaseId : StreamLeaseId) (db : AuthorityDb Text) :
    (exec (renewLease authority nowMs leaseId) db).2.history = db.history := by
  refine history_of_transaction fun grant db' h => ?_
  obtain ⟨_, _, -, -, -, hh, -, -⟩ := renewLease_ok h
  exact hh

theorem Shows.of_history (h : Shows codec streamId stores v) {parent : EndpointDb Text}
    (hh : parent.authority.history = stores.parent.authority.history) :
    Shows codec streamId { stores with parent := parent } v where
  parent := by
    rw [← h.parent]
    exact congrArg (·.stream streamId) hh
  child := h.child
  saved := h.saved
  counted := by
    change Counted parent.authority.history
    rw [hh]
    exact h.counted

/-- **The daemon's stores answer as the protocol says.** -/
theorem serve_answers (strict : Prop) (nowMs : Int) (leaseEpoch : Nat)
    (hlog : Readable endpoint.codec streamId log) (h : Shows endpoint.codec streamId stores v)
    {call : EndpointCall} (hask : EndpointAsks log streamId call v)
    (hstrict : strict → ¬ SplitsBatch streamId nowMs stores.parent.authority call) :
    ∃ v' : View log,
      Shows endpoint.codec streamId
        { stores with parent := (call.serve endpoint nowMs leaseEpoch stores.parent).2 } v' ∧
      EndpointAnswers log strict call v
        (call.serve endpoint nowMs leaseEpoch stores.parent).1 v' ∧ v.Awaits v' := by
  cases call with
  | now | verifyToken _ | insertRejection _ => exact ⟨v, h.of_history rfl, rfl, .refl v⟩
  | renewLease leaseId =>
    exact ⟨v, h.of_history (renewLease_history _ _ _ _), rfl, .refl v⟩
  | appendIfCurrent stream presented expected records =>
    obtain ⟨rfl, start, rfl, hrecords, hknown, hheld⟩ := hask
    exact append_answers hlog h hrecords hknown hheld hstrict
  | readEvents stream cursor =>
    obtain ⟨rfl, -⟩ := hask
    refine ⟨v, h.of_history rfl, ⟨rfl, fun start hcursor hstart => ?_⟩, .refl v⟩
    rw [hcursor]
    exact h.recordsAfter hlog hstart
  | queuePullAfter stream cursor =>
    refine ⟨v, h.of_history rfl, ⟨rfl, fun records hrecords record hr kind => ?_⟩, .refl v⟩
    exact kind_of_pullAfter hrecords hr kind

/-! ### The child's database -/

theorem local_answers (hlog : Readable codec streamId log) (h : Shows codec streamId stores v)
    (fromSequence : Option EventSequence) :
    Sqlite.readEvents codec stores.child streamId fromSequence =
      .ok ((log.take v.child).drop (startOf fromSequence)) := by
  have hholds := h.holds_child hlog
  cases fromSequence with
  | none => exact hholds.readEvents_none (hlog.reads_take _)
  | some sequence => exact hholds.readEvents_some (hlog.reads_take _) sequence

theorem saved_answers (strict : Prop) (h : Shows codec streamId stores v) {state : StreamPropagationState}
    (hstate : state.streamId = streamId) (fault : Fault) :
    ∃ v' : View log,
      Shows codec streamId { stores with saved := fault.write state stores.saved } v' ∧
      PropagatorAnswers log strict (.persist state) v (fault.answer (.ok ())) v' ∧
      (v'.saved = v.saved ∨ v'.saved = some state) ∧ v.Grows v' := by
  let stored : View log := { v with saved := some state }
  have hstored : Shows codec streamId
      { stores with saved := stores.saved.insert state.streamId state } stored := by
    refine ⟨h.parent, h.child, ?_, h.counted⟩
    rw [hstate, Map.lookup_insert, if_pos rfl]
  have hgrows : v.Grows stored := ⟨le_rfl, le_rfl⟩
  cases fault with
  | none => exact ⟨stored, hstored, ⟨hgrows, fun _ => rfl⟩, .inr rfl, hgrows⟩
  | failed error =>
    refine ⟨v, h, ⟨.refl v, ?_⟩, .inl rfl, .refl v⟩
    rintro ⟨⟩
  | unconfirmed error => exact ⟨stored, hstored, ⟨hgrows, fun _ => rfl⟩, .inr rfl, hgrows⟩

/-! ### What else happens -/

/-- The call that a call of a request makes on the shared store, if it makes one. -/
def EndpointCall.storeCall? (leaseEpoch : Nat) : EndpointCall → Option Call
  | .appendIfCurrent streamId _ expected records =>
    some ⟨leaseEpoch, .counted, .appendEventsFenced streamId expected records⟩
  | _ => none

/-- The call that whatever happens at the daemon makes on the shared store, if it makes one. -/
def ParentOp.storeCall? : ParentOp → Option Call
  | .authority call => call.storeCall?
  | .request _ leaseEpoch call => call.storeCall? leaseEpoch
  | .enqueue _ _ | .acknowledge _ _ _ => none

theorem serve_storeCall (endpoint : SyncEndpoint Text) (call : EndpointCall) (nowMs : Int)
    (leaseEpoch : Nat) (db : EndpointDb Text) :
    (call.serve endpoint nowMs leaseEpoch db).2.authority.history = db.authority.history ∨
      ∃ made, call.storeCall? leaseEpoch = some made ∧
        (call.serve endpoint nowMs leaseEpoch db).2.authority.history =
          (Sqlite.step endpoint.codec made db.authority.history).2 := by
  cases call with
  | now | verifyToken _ | insertRejection _ | readEvents _ _ | queuePullAfter _ _ =>
    exact .inl rfl
  | renewLease leaseId => exact .inl (renewLease_history _ _ _ _)
  | appendIfCurrent stream presented expected records =>
    exact (appendIfCurrent_history endpoint.codec leaseEpoch nowMs stream presented expected
      records db.authority).imp_right fun h => ⟨_, rfl, h⟩

/-- **Whatever happens at the daemon makes its call on the shared store, or leaves it alone.** -/
theorem apply_storeCall (endpoint : SyncEndpoint Text) (op : ParentOp) (db : EndpointDb Text) :
    (op.apply endpoint db).authority.history = db.authority.history ∨
      ∃ made, op.storeCall? = some made ∧ (op.apply endpoint db).authority.history =
        (Sqlite.step endpoint.codec made db.authority.history).2 := by
  cases op with
  | authority call => exact authorityStep_storeCall _ _ call _
  | request nowMs leaseEpoch call => exact serve_storeCall endpoint call nowMs leaseEpoch db
  | enqueue | acknowledge => exact .inl rfl

theorem serve_history (call : EndpointCall) (nowMs : Int) (leaseEpoch : Nat) (db : EndpointDb Text) :
    HistoryMoves endpoint.codec db.authority.history
      (call.serve endpoint nowMs leaseEpoch db).2.authority.history :=
  (serve_storeCall endpoint call nowMs leaseEpoch db).imp_right fun ⟨made, _, h⟩ => ⟨made, h⟩

theorem apply_history (op : ParentOp) (db : EndpointDb Text) :
    HistoryMoves endpoint.codec db.authority.history (op.apply endpoint db).authority.history :=
  (apply_storeCall endpoint op db).imp_right fun ⟨made, _, h⟩ => ⟨made, h⟩

theorem counted_of_moves {history history' : Db Text} (h : Counted history)
    (hm : HistoryMoves codec history history') : Counted history' := by
  rcases hm with rfl | ⟨call, rfl⟩
  · exact h
  · exact h.step call

end Verlet.RemoteStore
