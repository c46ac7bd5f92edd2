import Verlet.History.Envelopes
import Verlet.History.Sqlite.Rebuild
import Verlet.RemoteStore.Propagation.Runs

/-!
# Remote store — Pushes into a shared store

A push is authorized for its stream, and its records then lie in the daemon's one table of events,
beside those of every other thread.  Two readers go by the coordinates inside a record and not by
its stream: `list_thread_events`, and the rebuild of the active leaves when the store is opened,
which also wants every entry that a folded record names to be stored here.
-/

namespace Verlet.RemoteStore
open Support History History.Sqlite

variable {Text : Type} {endpoint : SyncEndpoint Text} {codec : Codec Text}

/-! ### The daemon's database as a machine -/

/-- What happens to the daemon's database: anything at the daemon, one call at a time, a push served
from its first call to its last, or a restart. -/
inductive DaemonStep where
  | daemon (op : ParentOp)
  | push (nowMs : Int) (leaseEpoch : Nat) (bearerToken : String) (request : SyncPushRequestV1)
  | reopen

def DaemonStep.serve (endpoint : SyncEndpoint Text) :
    DaemonStep → EndpointDb Text → Unit × EndpointDb Text
  | .daemon op, db => ((), op.apply endpoint db)
  | .push nowMs leaseEpoch bearerToken request, db =>
    ((), ((RemoteStore.push endpoint bearerToken request).alone
      (EndpointCall.serve endpoint nowMs leaseEpoch) db).2)
  | .reopen, db =>
    let history := (exec (Sqlite.reopen endpoint.codec) db.authority.history).2
    ((), { db with authority := { db.authority with history := history } })

/-- The append that a push makes on the shared store, if it comes to it. -/
def pushCall? (leaseEpoch : Nat) (request : SyncPushRequestV1) : Option Call :=
  match validatePushRequest request with
  | .ok records => some ⟨leaseEpoch, .counted,
      .appendEventsFenced request.streamId request.expectedNextSequence records⟩
  | .error _ => none

def DaemonStep.storeCall? : DaemonStep → Option Call
  | .daemon op                   => op.storeCall?
  | .push _ leaseEpoch _ request => pushCall? leaseEpoch request
  | .reopen                      => none

theorem pushRecords_history (endpoint : SyncEndpoint Text) (nowMs : Int) (leaseEpoch : Nat)
    (request : SyncPushRequestV1) (records : List NewEventRecord) (db : EndpointDb Text) :
    ((pushRecords endpoint request records).alone (EndpointCall.serve endpoint nowMs leaseEpoch)
        db).2.authority.history =
      (exec (appendIfCurrent endpoint.codec leaseEpoch nowMs request.streamId request.leaseId
        request.expectedNextSequence records) db.authority).2.history := by
  simp only [pushRecords, EndpointCall.ask, Proc.perform_bind, Proc.alone, EndpointCall.serve]
  rcases exec (appendIfCurrent endpoint.codec leaseEpoch nowMs request.streamId request.leaseId
    request.expectedNextSequence records) db.authority with ⟨outcome, after⟩
  cases outcome with
  | error e => rfl
  | ok outcome =>
    cases outcome with
    | appended | leaseRejected | sequenceFenceConflict => rfl

theorem push_storeCall (endpoint : SyncEndpoint Text) (nowMs : Int) (leaseEpoch : Nat)
    (bearerToken : String) (request : SyncPushRequestV1) (db : EndpointDb Text) :
    ((push endpoint bearerToken request).alone (EndpointCall.serve endpoint nowMs leaseEpoch)
        db).2.authority.history = db.authority.history ∨
      ∃ made, pushCall? leaseEpoch request = some made ∧
        ((push endpoint bearerToken request).alone (EndpointCall.serve endpoint nowMs leaseEpoch)
          db).2.authority.history =
            (Sqlite.step endpoint.codec made db.authority.history).2 := by
  simp only [push, EndpointCall.ask, Proc.perform_bind, Proc.alone, EndpointCall.serve]
  cases verifyToken endpoint.authority db.authority bearerToken with
  | none => exact .inl rfl
  | some identity =>
    by_cases hscope : identity.scope.authorizes request.streamId = true
    · by_cases hlease : identity.leaseId = request.leaseId
      · cases hvalid : validatePushRequest request with
        | error detail =>
          simp only [hscope, hlease, not_true_eq_false, ne_eq, if_false]
          exact .inl rfl
        | ok records =>
          simp only [hscope, hlease, not_true_eq_false, ne_eq, if_false, hvalid, pushCall?]
          rw [pushRecords_history]
          exact (appendIfCurrent_history _ _ _ _ _ _ _ _).imp_right fun h => ⟨_, rfl, h⟩
      · simp only [hscope, hlease, not_true_eq_false, not_false_eq_true, ne_eq, if_false, if_true]
        exact .inl rfl
    · simp only [hscope]
      exact .inl rfl

/-- **Every step makes its call on the shared store, or at most moves active leaves.** -/
theorem daemon_storeCall (endpoint : SyncEndpoint Text) (step : DaemonStep) (db : EndpointDb Text) :
    (∃ leaves, (step.serve endpoint db).2.authority.history =
        { db.authority.history with activeLeaves := leaves }) ∨
      ∃ made, step.storeCall? = some made ∧ (step.serve endpoint db).2.authority.history =
        (Sqlite.step endpoint.codec made db.authority.history).2 := by
  cases step with
  | daemon op => exact (apply_storeCall endpoint op db).imp_left fun h => ⟨_, h⟩
  | push nowMs leaseEpoch bearerToken request =>
    exact (push_storeCall endpoint nowMs leaseEpoch bearerToken request db).imp_left
      fun h => ⟨_, h⟩
  | reopen =>
    left
    simp only [DaemonStep.serve]
    rcases hx : exec (Sqlite.reopen endpoint.codec) db.authority.history with ⟨e | u, history⟩
    · rw [atomic_transaction _ _ e history hx]
      exact ⟨_, rfl⟩
    · obtain ⟨-, rfl⟩ := Sqlite.rebuild_ok_iff.mp (execute_ok.mp (transaction_ok.mp hx))
      exact ⟨_, rfl⟩

/-- What the store itself has written, at every moment. -/
structure Kept (codec : Codec Text) (history : Db Text) : Prop where
  journals : ∃ events, Journals codec history events
  written : Written codec history

theorem Kept.counted {history : Db Text} (h : Kept codec history) : Sqlite.Counted history :=
  h.journals.elim fun _ hj => hj.counted

theorem kept_empty : Kept codec (.empty : Db Text) :=
  ⟨⟨_, journals_empty⟩, by simp [Written, Db.empty]⟩

variable {db : EndpointDb Text}

theorem Kept.step (h : Kept endpoint.codec db.authority.history) (step : DaemonStep) :
    Kept endpoint.codec (step.serve endpoint db).2.authority.history := by
  obtain ⟨events, hj⟩ := h.journals
  rcases daemon_storeCall endpoint step db with ⟨leaves, heq⟩ | ⟨made, -, heq⟩
  · rw [heq]
    exact ⟨⟨events, hj.rows, hj.journal, hj.valid⟩, h.written⟩
  · rw [heq]
    obtain ⟨events', hj', -⟩ := hj.step made
    exact ⟨⟨events', hj'⟩, h.written.step h.counted made⟩

/-- **The daemon's database is kept over whole runs.** -/
theorem kept_run (endpoint : SyncEndpoint Text) (steps : List DaemonStep) :
    Kept endpoint.codec (run (DaemonStep.serve endpoint) steps .empty).authority.history :=
  run_invariant (P := fun db : EndpointDb Text => Kept endpoint.codec db.authority.history)
    (fun _ step h => h.step step) steps kept_empty

theorem grows_step (h : Kept endpoint.codec db.authority.history) (step : DaemonStep) :
    db.authority.history.sessionEntries <+:
        (step.serve endpoint db).2.authority.history.sessionEntries ∧
      db.authority.history.eventRecords <+:
        (step.serve endpoint db).2.authority.history.eventRecords := by
  rcases daemon_storeCall endpoint step db with ⟨leaves, heq⟩ | ⟨made, -, heq⟩
  · rw [heq]
    exact ⟨List.prefix_rfl, List.prefix_rfl⟩
  · rw [heq]
    exact ⟨Sqlite.sessionEntries_step h.counted made,
      Sqlite.eventRecords_step h.counted made⟩

theorem grows_run (h : Kept endpoint.codec db.authority.history) (steps : List DaemonStep) :
    db.authority.history.sessionEntries <+:
        (run (DaemonStep.serve endpoint) steps db).authority.history.sessionEntries ∧
      db.authority.history.eventRecords <+:
        (run (DaemonStep.serve endpoint) steps db).authority.history.eventRecords := by
  induction steps generalizing db with
  | nil => exact ⟨List.prefix_rfl, List.prefix_rfl⟩
  | cons step steps ih =>
    obtain ⟨hentries, hevents⟩ := grows_step h step
    obtain ⟨hentries', hevents'⟩ := ih (h.step step)
    exact ⟨hentries.trans hentries', hevents.trans hevents'⟩

/-! ### Reopening -/

/-- What a step brings can be folded when the store is next opened. -/
def FoldableStep (endpoint : SyncEndpoint Text) (db : EndpointDb Text) (step : DaemonStep) : Prop :=
  ∀ made ∈ step.storeCall?, FoldableCall endpoint.codec db.authority.history made

instance (db : EndpointDb Text) (step : DaemonStep) : Decidable (FoldableStep endpoint db step) :=
  inferInstanceAs (Decidable (∀ made ∈ step.storeCall?, _))

theorem reopens_step (hk : Kept endpoint.codec db.authority.history)
    (h : Reopens endpoint.codec db.authority.history) {step : DaemonStep}
    (hr : ReadsBack endpoint.codec (step.serve endpoint db).2.authority.history)
    (hstep : FoldableStep endpoint db step) :
    Reopens endpoint.codec (step.serve endpoint db).2.authority.history := by
  rcases daemon_storeCall endpoint step db with ⟨leaves, heq⟩ | ⟨made, hmade, heq⟩
  · rw [heq]
    exact h.mono List.prefix_rfl rfl
  · rw [heq] at hr ⊢
    exact h.step hk.counted hk.written hr (hstep made hmade)

/-- **The store reopens.**  After any run of session and event operations, leases, credentials,
pushes and restarts, in which what each step brings can be folded, opening the database succeeds. -/
theorem store_reopens (endpoint : SyncEndpoint Text) (steps : List DaemonStep)
    (hsteps : Along (DaemonStep.serve endpoint) (FoldableStep endpoint) steps .empty)
    (hreads : ReadsBack endpoint.codec
      (run (DaemonStep.serve endpoint) steps .empty).authority.history) :
    ∃ history, exec (Sqlite.reopen endpoint.codec)
      (run (DaemonStep.serve endpoint) steps .empty).authority.history = (.ok (), history) := by
  have hgen : ∀ (steps : List DaemonStep) (db : EndpointDb Text),
      Along (DaemonStep.serve endpoint) (FoldableStep endpoint) steps db →
      ReadsBack endpoint.codec (run (DaemonStep.serve endpoint) steps db).authority.history →
      Kept endpoint.codec db.authority.history → Reopens endpoint.codec db.authority.history →
      Reopens endpoint.codec (run (DaemonStep.serve endpoint) steps db).authority.history := by
    intro steps
    induction steps with
    | nil => exact fun _ _ _ _ h => h
    | cons step steps ih =>
      intro db hsteps hreads hk h
      refine ih _ hsteps.2 hreads (hk.step step) (reopens_step hk h ?_ hsteps.1)
      obtain ⟨hentries, hevents⟩ := grows_run (hk.step step) steps
      exact hreads.anti hentries hevents
  have hreopens := hgen steps .empty hsteps hreads kept_empty fun row hrow => by cases hrow
  exact ⟨_, transaction_ok.mpr (execute_ok.mpr
    (Sqlite.rebuild_ok_iff.mpr ⟨hreopens, rfl⟩))⟩

/-! ### One push among others -/

/-- A call is served, at some reading of the clock and under some epoch. -/
def EndpointCall.Served (endpoint : SyncEndpoint Text) (call : EndpointCall) (db : EndpointDb Text)
    (reply : call.Reply) (db' : EndpointDb Text) : Prop :=
  ∃ nowMs leaseEpoch, call.serve endpoint nowMs leaseEpoch db = (reply, db')

variable {request : SyncPushRequestV1} {moves : List (EndpointDb Text × EndpointDb Text)}
    {ack : StreamAppendAckV1}

theorem reject_not_accepted {reason : SyncPushRejectionReason} :
    ¬ (reject endpoint request reason).Runs (EndpointCall.Served endpoint) moves
      (.ok (.accepted ack)) := by
  intro h
  cases h with
  | call _ h =>
    cases h with
    | call _ h => cases h

theorem pushRecords_accepted {records : List NewEventRecord}
    (h : (pushRecords endpoint request records).Runs (EndpointCall.Served endpoint) moves
      (.ok (.accepted ack))) :
    ∃ db db' nowMs leaseEpoch, moves = [(db, db')] ∧
      exec (appendIfCurrent endpoint.codec leaseEpoch nowMs request.streamId request.leaseId
        request.expectedNextSequence records) db.authority = (.ok (.appended ack), db'.authority) := by
  cases h with
  | @call _ _ r db db' moves _ happend h =>
    obtain ⟨nowMs, leaseEpoch, happend⟩ := happend
    rcases hx : exec (appendIfCurrent endpoint.codec leaseEpoch nowMs request.streamId
      request.leaseId request.expectedNextSequence records) db.authority with ⟨outcome, after⟩
    simp only [EndpointCall.serve, hx, Prod.mk.injEq] at happend
    obtain ⟨rfl, rfl⟩ := happend
    cases outcome with
    | error e => cases h
    | ok outcome =>
      cases outcome with
      | appended ack' =>
        cases h
        exact ⟨db, _, nowMs, leaseEpoch, rfl, hx⟩
      | leaseRejected fence => exact absurd h reject_not_accepted
      | sequenceFenceConflict actual => exact absurd h reject_not_accepted

/-- **What an accepted push did**: it verified its token, and later appended its records under the
fence. -/
theorem push_accepted {bearerToken : String}
    (h : (push endpoint bearerToken request).Runs (EndpointCall.Served endpoint) moves
      (.ok (.accepted ack))) :
    ∃ db₀ db db' identity nowMs leaseEpoch records, moves = [(db₀, db₀), (db, db')] ∧
      verifyToken endpoint.authority db₀.authority bearerToken = some identity ∧
      identity.scope.authorizes request.streamId = true ∧
      validatePushRequest request = .ok records ∧
      exec (appendIfCurrent endpoint.codec leaseEpoch nowMs request.streamId request.leaseId
        request.expectedNextSequence records) db.authority = (.ok (.appended ack), db'.authority) := by
  cases h with
  | @call _ _ r db₀ s' moves _ hverify h =>
    obtain ⟨_, _, hverify⟩ := hverify
    simp only [EndpointCall.serve, Prod.mk.injEq] at hverify
    obtain ⟨rfl, rfl⟩ := hverify
    cases hidentity : verifyToken endpoint.authority db₀.authority bearerToken with
    | none =>
      rw [hidentity] at h
      exact absurd h reject_not_accepted
    | some identity =>
      rw [hidentity] at h
      simp only [Proc.bind] at h
      by_cases hscope : identity.scope.authorizes request.streamId = true
      · rw [if_neg (not_not.mpr hscope)] at h
        by_cases hlease : identity.leaseId = request.leaseId
        · rw [if_neg (not_not.mpr hlease)] at h
          cases hvalid : validatePushRequest request with
          | error detail =>
            rw [hvalid] at h
            exact absurd h reject_not_accepted
          | ok records =>
            rw [hvalid] at h
            obtain ⟨db, db', nowMs, leaseEpoch, rfl, happend⟩ := pushRecords_accepted h
            exact ⟨db₀, db, db', identity, nowMs, leaseEpoch, records, rfl, hidentity, hscope, rfl,
              happend⟩
        · rw [if_pos hlease] at h
          exact absurd h reject_not_accepted
      · rw [if_pos hscope] at h
        exact absurd h reject_not_accepted

/-! ### Results keyed by a thread -/

/-- The thread a stream belongs to: the first of its parts that is a thread's id. -/
def threadOfStream (streamId : EventStreamId) : Option ThreadId :=
  (streamId.text.toList.splitOn ':').findSome? fun part =>
    (Uuid.parseStr (String.ofList part)).map .mk

theorem threadOfStream_of_authorizes {c : ThreadCoordinates} {streamId : EventStreamId}
    (h : (StreamPrefixScope.mk (EventStreamId.forThread c).text).authorizes streamId = true) :
    threadOfStream streamId = some c.threadId := by
  obtain ⟨-, hwithin⟩ := prefixContains_iff.mp h
  have htext : (EventStreamId.forThread c).text.toList =
      "thread".toList ++ ':' :: c.threadId.uuid.text.toList := by
    simp [EventStreamId.forThread]
  have hparts : ∃ parts, streamId.text.toList.splitOn ':' =
      "thread".toList :: c.threadId.uuid.text.toList :: parts := by
    rw [htext] at hwithin
    rcases hwithin with heq | ⟨rest, heq⟩
    · refine ⟨[], ?_⟩
      rw [heq, List.splitOn_append_cons_self_of_not_mem (by decide), List.splitOn_eq_splitOnP,
        List.splitOnP_eq_singleton]
      intro x hx
      exact beq_eq_false_iff_ne.mpr fun hcolon =>
        Uuid.colon_notMem_text c.threadId.uuid (hcolon ▸ hx)
    · refine ⟨rest.splitOn ':', ?_⟩
      rw [← heq, List.append_assoc, List.append_assoc, List.cons_append,
        List.splitOn_append_cons_self_of_not_mem (by decide), ← List.append_assoc, ]
      simp only [List.append_assoc, List.singleton_append]
      rw [List.splitOn_append_cons_self_of_not_mem (Uuid.colon_notMem_text c.threadId.uuid)]
  obtain ⟨parts, hparts⟩ := hparts
  have hfamily : Uuid.parseStr "thread" = none := by decide
  simp only [threadOfStream, hparts, List.findSome?_cons, hfamily, Option.map_none,
    String.ofList_toList, Uuid.parse_text, Option.map_some]

/-- A thread's active leaf once the store is opened anew, where it opens. -/
def leafAfterReopen (codec : Codec Text) (history : Db Text) (coordinates : ThreadCoordinates) :
    Option (HistoryResult (Option SessionEntryId)) :=
  match exec (Sqlite.reopen codec) history with
  | (.ok (), reopened) => some (activeLeaf codec coordinates reopened)
  | (.error _, _)      => none

/-- The results keyed by a thread are the same: the events of its streams, the events that carry its
id, and its active leaf after a restart. -/
structure Unaffected (codec : Codec Text) (thread : ThreadId) (history history' : Db Text) : Prop where
  streams : ∀ streamId, threadOfStream streamId = some thread → ∀ fromSequence,
    readEvents codec history' streamId fromSequence = readEvents codec history streamId fromSequence
  events : listThreadEvents codec history' thread = listThreadEvents codec history thread
  leaf : ∀ coordinates : ThreadCoordinates, coordinates.threadId = thread →
    leafAfterReopen codec history' coordinates = leafAfterReopen codec history coordinates

/-- The records of a push are its own thread's, and where the store reopens it still does: each
record that moves a leaf names an entry stored under its thread, and so does every earlier one of a
thread that the push selects a branch of. -/
structure Contained (codec : Codec Text) (thread : ThreadId) (history : Db Text)
    (request : SyncPushRequestV1) : Prop where
  own : ∀ envelope ∈ request.records, envelope.coordinates.threadId = thread
  foldable : Reopens codec history → ∀ records, validatePushRequest request = .ok records →
    Foldable codec history (batchRows codec records)

variable {thread : ThreadId}

section Batch

variable {history : Db Text} {leaseEpoch : Nat} {streamId : EventStreamId}
  {records : List NewEventRecord}

theorem readEvents_journal {streamId' : EventStreamId} (hne : streamId' ≠ streamId)
    (fromSequence : Option EventSequence) :
    readEvents codec (history.journal codec leaseEpoch streamId records) streamId' fromSequence =
      readEvents codec history streamId' fromSequence := by
  have hnone : ((numbered streamId (history.count streamId) records).map
      (EventRow.of codec)).filter (fun row => row.streamId = streamId') = [] := by
    rw [List.filter_eq_nil_iff]
    intro row hrow
    obtain ⟨event, hevent, rfl⟩ := List.mem_map.mp hrow
    obtain ⟨record, -, _, rfl⟩ := History.mem_numbered hevent
    exact fun h => hne (of_decide_eq_true h).symm
  simp only [readEvents, Db.journal, List.filter_append, hnone, List.append_nil]

def threadRows (thread : ThreadId) (rows : List (EventRow Text)) : List (EventRow Text) :=
  rows.filter fun row => row.coordinates.threadId = thread

theorem threadRows_numbered (thread : ThreadId) (n : Nat) :
    threadRows thread ((numbered streamId n records).map (EventRow.of codec)) = [] ↔
      ∀ record ∈ records, record.coordinates.threadId ≠ thread := by
  induction records generalizing n with
  | nil => simp [threadRows, numbered]
  | cons record records ih =>
    rw [List.forall_mem_cons, ← ih (n + 1), threadRows, numbered, List.map_cons, List.filter_cons]
    by_cases h : record.coordinates.threadId = thread
    · simp [EventRow.of, EventRecord.fromNew, h]
    · simp [EventRow.of, EventRecord.fromNew, h, threadRows]

/-- The codec reads back the events of the other threads. -/
def ReadsOthers (codec : Codec Text) (thread : ThreadId) (history : Db Text) : Prop :=
  ∀ event, EventRow.of codec event ∈ history.eventRecords → event.coordinates.threadId ≠ thread →
    codec.decodeValue (codec.encodeValue event.payload) = some event.payload ∧
      codec.decodeProvenance (codec.encodeProvenance event.provenance) = some event.provenance

/-- **Another thread's events change exactly where a record carries its id.** -/
theorem listThreadEvents_journal {other : ThreadId} (hk : Kept codec history)
    (hreads : ReadsOthers codec thread history) (hother : other ≠ thread) :
    listThreadEvents codec (history.journal codec leaseEpoch streamId records) other =
        listThreadEvents codec history other ↔
      ∀ record ∈ records, record.coordinates.threadId ≠ other := by
  have hrows : threadRows other (history.journal codec leaseEpoch streamId records).eventRecords =
      threadRows other history.eventRecords ++ threadRows other
        ((numbered streamId (history.count streamId) records).map (EventRow.of codec)) :=
    List.filter_append ..
  obtain ⟨events, hj⟩ := hk.journals
  have hback : ∀ row ∈ threadRows other history.eventRecords,
      ∃ event, sqliteEventFromRow codec row = .ok event := by
    intro row hrow
    obtain ⟨hmem, hthread⟩ := List.mem_filter.mp hrow
    refine hj.reads_row hmem fun event heq => ?_
    subst heq
    exact hreads event hmem fun h => hother ((of_decide_eq_true hthread).symm.trans h)
  obtain ⟨read, hread⟩ := exists_mapM_ok.mpr hback
  rw [← @threadRows_numbered _ codec streamId records other (history.count streamId)]
  change (threadRows other _).mapM _ = (threadRows other _).mapM _ ↔ _
  rw [hrows, hread]
  exact mapM_append_ok_iff hread

theorem leafAfterReopen_eq (history : Db Text) (coordinates : ThreadCoordinates) :
    leafAfterReopen codec history coordinates =
      if Reopens codec history then
        some (activeLeaf codec coordinates
          { history with activeLeaves := history.rebuiltLeaves codec })
      else none := by
  unfold leafAfterReopen
  rcases hx : exec (Sqlite.reopen codec) history with ⟨e | ⟨⟩, reopened⟩
  · rw [if_neg]
    intro h
    have hok : exec (Sqlite.reopen codec) history = (.ok (), _) :=
      transaction_ok.mpr (execute_ok.mpr (Sqlite.rebuild_ok_iff.mpr ⟨h, rfl⟩))
    cases hx.symm.trans hok
  · obtain ⟨h, rfl⟩ := Sqlite.rebuild_ok_iff.mp (execute_ok.mp (transaction_ok.mp hx))
    rw [if_pos h]

theorem rebuiltLeaves_journal (hown : ∀ record ∈ records, record.coordinates.threadId ≠ thread) :
    ((history.journal codec leaseEpoch streamId records).rebuiltLeaves codec).lookup thread =
      (history.rebuiltLeaves codec).lookup thread := by
  have hother : ∀ row ∈ (numbered streamId (history.count streamId) records).map (EventRow.of codec),
      row.coordinates.threadId ≠ thread := by
    intro row hrow
    obtain ⟨event, hevent, rfl⟩ := List.mem_map.mp hrow
    obtain ⟨record, hrecord, _, rfl⟩ := History.mem_numbered hevent
    exact hown record hrecord
  have hselected : thread ∈ (history.journal codec leaseEpoch streamId records).selectedThreads ↔
      thread ∈ history.selectedThreads := by
    simp only [Db.selectedThreads, Db.journal, List.filter_append, List.map_append, List.mem_append]
    refine or_iff_left fun h => ?_
    obtain ⟨row, hrow, hthread⟩ := List.mem_map.mp h
    exact hother row (List.mem_filter.mp hrow).1 hthread
  have hwrites : Map.lastWrite thread (((history.journal codec leaseEpoch streamId
      records).eventRecords.filter (·.movesLeaf)).map (Sqlite.assignment codec)) =
      Map.lastWrite thread ((history.eventRecords.filter (·.movesLeaf)).map
        (Sqlite.assignment codec)) := by
    simp only [Db.journal, List.filter_append, List.map_append, Map.lastWrite_append]
    rw [Map.lastWrite_of_notMem]
    · rfl
    · intro move hmove
      obtain ⟨row, hrow, rfl⟩ := List.mem_map.mp hmove
      exact hother row (List.mem_filter.mp hrow).1
  rw [Sqlite.rebuild_lookup, Sqlite.rebuild_lookup, hwrites]
  exact if_congr hselected rfl rfl

theorem reopens_journal :
    Reopens codec (history.journal codec leaseEpoch streamId records) ↔
      Reopens codec history ∧ Foldable codec history (batchRows codec records) := by
  refine Iff.trans (Sqlite.reopens_append history rfl rfl) ?_
  refine and_congr_right fun _ => ⟨fun h => ?_, fun h => ?_⟩
  · exact h.congr (Sqlite.content_numbered _ _ _).symm
  · exact h.congr (Sqlite.content_numbered _ _ _)

/-- **A thread's leaf after a restart stays exactly where the store goes on reopening**, for records
of other threads. -/
theorem leafAfterReopen_journal {coordinates : ThreadCoordinates}
    (hown : ∀ record ∈ records, record.coordinates.threadId ≠ coordinates.threadId) :
    leafAfterReopen codec (history.journal codec leaseEpoch streamId records) coordinates =
        leafAfterReopen codec history coordinates ↔
      (Reopens codec history → Foldable codec history (batchRows codec records)) := by
  rw [leafAfterReopen_eq, leafAfterReopen_eq, if_congr reopens_journal rfl rfl]
  by_cases hreopens : Reopens codec history
  · by_cases hfoldable : Foldable codec history (batchRows codec records)
    · rw [if_pos ⟨hreopens, hfoldable⟩, if_pos hreopens]
      refine iff_of_true (congrArg some ?_) fun _ => hfoldable
      simp only [activeLeaf, Sqlite.sqliteActiveLeafEntry, rebuiltLeaves_journal hown]
      rfl
    · rw [if_neg fun h => hfoldable h.2, if_pos hreopens]
      exact iff_of_false (fun h => by cases h) fun h => hfoldable (h hreopens)
  · rw [if_neg fun h => hreopens h.1, if_neg hreopens]
    exact iff_of_true rfl fun h => absurd h hreopens

end Batch

/-! ### An accepted push -/

/-- The record is what the envelope carries, and its payload is within its schema. -/
structure Carried (envelope : StreamRecordEnvelopeV1) (record : NewEventRecord) : Prop where
  id : record.id = envelope.eventId
  coordinates : record.coordinates = envelope.coordinates
  origin : record.origin = envelope.origin
  provenance : record.provenance = envelope.provenance
  schema : (∃ fields, record.payload = .obj fields) ∧
    (record.kind = .ioEgressRequested → History.validateAgainst record.kind.payloadSchemaId
      History.ioEgressRequestedPayloadSchemaV1 record.payload = .ok ())

theorem validateEnvelope_carried {index : Nat} {envelope : StreamRecordEnvelopeV1}
    {record : NewEventRecord} (h : validateEnvelope request index envelope = .ok record) :
    Carried envelope record := by
  unfold validateEnvelope at h
  cases hsum : checkedAdd request.expectedNextSequence index with
  | none =>
    rw [hsum] at h
    cases h
  | some sequence =>
    cases hkind : EventKind.tryFrom envelope.kind with
    | none =>
      simp only [hsum, hkind, bind_ok, throw_ok, false_and, exists_false, and_false] at h
    | some kind =>
      simp only [hsum, hkind, bind_ok, exists_unit_ok, require_ok, pure_ok] at h
      obtain ⟨_, -, -, -, -, -, _, rfl, -, hschema, rfl⟩ := h
      exact ⟨rfl, rfl, rfl, rfl, History.validateStreamRecordV1_ok.mp hschema⟩

theorem validateEnvelopes_carried {envelopes : List StreamRecordEnvelopeV1} {index : Nat}
    {records : List NewEventRecord} (h : validateEnvelopes request index envelopes = .ok records) :
    List.Forall₂ Carried envelopes records := by
  induction envelopes generalizing index records with
  | nil =>
    cases h
    exact .nil
  | cons envelope envelopes ih =>
    simp only [validateEnvelopes, bind_ok, pure_ok] at h
    obtain ⟨record, hfirst, rest, hrest, rfl⟩ := h
    exact .cons (validateEnvelope_carried hfirst) (ih hrest)

theorem validatePushRequest_carried {records : List NewEventRecord}
    (h : validatePushRequest request = .ok records) :
    List.Forall₂ Carried request.records records ∧ records ≠ [] ∧
      1 ≤ request.expectedNextSequence := by
  simp only [validatePushRequest, bind_ok, exists_unit_ok, require_ok] at h
  obtain ⟨-, hpositive, hsome, hrecords⟩ := h
  have hcarried := validateEnvelopes_carried hrecords
  refine ⟨hcarried, fun hnone => hsome ?_, hpositive⟩
  rw [hnone] at hcarried
  exact List.forall₂_nil_right_iff.mp hcarried

theorem forall_carried {envelopes : List StreamRecordEnvelopeV1} {records : List NewEventRecord}
    (h : List.Forall₂ Carried envelopes records) {p : NewEventRecord → Prop}
    {q : StreamRecordEnvelopeV1 → Prop}
    (hsame : ∀ {envelope record}, Carried envelope record → (p record ↔ q envelope)) :
    (∀ record ∈ records, p record) ↔ ∀ envelope ∈ envelopes, q envelope := by
  induction h with
  | nil => simp
  | cons hfirst _ ih => rw [List.forall_mem_cons, List.forall_mem_cons, ih, hsame hfirst]

theorem validatePushRequest_coordinates {records : List NewEventRecord}
    (h : validatePushRequest request = .ok records) (p : ThreadCoordinates → Prop) :
    (∀ record ∈ records, p record.coordinates) ↔
      ∀ envelope ∈ request.records, p envelope.coordinates :=
  forall_carried (validatePushRequest_carried h).1 fun hcarried => by rw [hcarried.coordinates]

theorem exists_other_thread (thread : ThreadId) : ∃ c : ThreadCoordinates, c.threadId ≠ thread := by
  by_cases h : (ThreadCoordinates.counted "user" 1).threadId = thread
  · refine ⟨.counted "user" 2, ?_⟩
    rw [← h]
    decide
  · exact ⟨_, h⟩

/-- **A batch on a thread's stream leaves the other threads' results alone exactly where its records
are the thread's own and the database goes on reopening.** -/
theorem unaffected_journal {history : Db Text} {leaseEpoch : Nat} {streamId : EventStreamId}
    {records : List NewEventRecord} (hstream : threadOfStream streamId = some thread)
    (hk : Kept codec history) (hreads : ReadsOthers codec thread history) :
    (∀ other ≠ thread,
        Unaffected codec other history (history.journal codec leaseEpoch streamId records)) ↔
      (∀ record ∈ records, record.coordinates.threadId = thread) ∧
        (Reopens codec history → Foldable codec history (batchRows codec records)) := by
  constructor
  · intro h
    have hown : ∀ record ∈ records, record.coordinates.threadId = thread := by
      intro record hrecord
      by_contra hne
      exact (listThreadEvents_journal hk hreads hne).mp (h _ hne).events record hrecord rfl
    obtain ⟨c, hc⟩ := exists_other_thread thread
    refine ⟨hown, (leafAfterReopen_journal fun record hrecord heq => ?_).mp ((h _ hc).leaf c rfl)⟩
    exact hc (heq.symm.trans (hown record hrecord))
  · rintro ⟨hown, hfoldable⟩ other hother
    have hne : ∀ record ∈ records, record.coordinates.threadId ≠ other := fun record hrecord heq =>
      hother (heq.symm.trans (hown record hrecord))
    refine ⟨fun streamId' hs fromSequence => ?_, ?_, fun c hc => ?_⟩
    · refine readEvents_journal ?_ fromSequence
      rintro rfl
      exact hother (Option.some.inj (hs.symm.trans hstream))
    · exact (listThreadEvents_journal hk hreads hother).mpr hne
    · subst hc
      exact (leafAfterReopen_journal hne).mpr hfoldable

/-- **A pushed stream stays inside its scope**, exactly where it is contained.  In every run of an
accepted push, whatever happens between its calls, whose credential covers only streams of one
thread: none of its calls changes a result keyed by another thread if and only if its records carry
its own thread's id and the database that its append finds goes on reopening with them. -/
theorem pushed_stream_contained (endpoint : SyncEndpoint Text) (bearerToken : String)
    (request : SyncPushRequestV1) (thread : ThreadId)
    (moves : List (EndpointDb Text × EndpointDb Text)) (ack : StreamAppendAckV1)
    (hrun : (push endpoint bearerToken request).Runs (EndpointCall.Served endpoint) moves
      (.ok (.accepted ack)))
    (hreach : ∀ move ∈ moves, ∃ steps, move.1 = run (DaemonStep.serve endpoint) steps .empty)
    (hscope : ∀ move, moves.head? = some move → ∀ identity,
      verifyToken endpoint.authority move.1.authority bearerToken = some identity →
      ∀ streamId, identity.scope.authorizes streamId = true → threadOfStream streamId = some thread)
    (hreads : ∀ move, moves.getLast? = some move →
      ReadsOthers endpoint.codec thread move.1.authority.history) :
    (∀ move ∈ moves, ∀ other ≠ thread,
        Unaffected endpoint.codec other move.1.authority.history move.2.authority.history) ↔
      ∀ move, moves.getLast? = some move →
        Contained endpoint.codec thread move.1.authority.history request := by
  obtain ⟨db₀, db, db', identity, nowMs, leaseEpoch, records, rfl, hidentity, hauthorizes, hvalid,
    happend⟩ := push_accepted hrun
  have hmem : (db, db') ∈ [(db₀, db₀), (db, db')] := List.mem_cons_of_mem _ List.mem_cons_self
  have hstream := hscope _ rfl identity hidentity request.streamId hauthorizes
  have hk : Kept endpoint.codec db.authority.history := by
    obtain ⟨steps, hsteps⟩ := hreach _ hmem
    change db = _ at hsteps
    rw [hsteps]
    exact kept_run endpoint steps
  have hjournal : db'.authority.history =
      db.authority.history.journal endpoint.codec leaseEpoch request.streamId records := by
    rcases @appendIfCurrent_cases _ nowMs endpoint.codec leaseEpoch request.streamId request.leaseId
      request.expectedNextSequence records db.authority with
      ⟨-, hnot⟩ | ⟨-, appended, history, ack', hfenced, -, hx⟩
    · exact absurd (congrArg Prod.fst happend) (hnot ack)
    · obtain ⟨-, -, -, rfl⟩ :=
        (Sqlite.appendEventsFencedInTransaction_ok hk.counted).mp hfenced
      rw [happend] at hx
      rw [(Prod.mk.inj hx).2]
  have hjournaled := @unaffected_journal _ _ _ _ leaseEpoch _ records hstream hk (hreads _ rfl)
  rw [← hjournal] at hjournaled
  have hunaffected : (∀ move ∈ [(db₀, db₀), (db, db')], ∀ other ≠ thread,
        Unaffected endpoint.codec other move.1.authority.history move.2.authority.history) ↔
      ∀ other ≠ thread, Unaffected endpoint.codec other db.authority.history db'.authority.history := by
    constructor
    · exact fun h => h _ hmem
    · intro h move hmove other hother
      rcases List.mem_cons.mp hmove with rfl | hmove
      · exact ⟨fun _ _ _ => rfl, rfl, fun _ _ => rfl⟩
      · obtain rfl := List.mem_singleton.mp hmove
        exact h other hother
  rw [hunaffected, hjournaled,
    validatePushRequest_coordinates hvalid fun coordinates => coordinates.threadId = thread]
  constructor
  · rintro ⟨hown, hfoldable⟩ move ⟨⟩
    refine ⟨hown, fun hreopens records' hvalid' => ?_⟩
    obtain rfl : records = records' := Except.ok.inj (hvalid.symm.trans hvalid')
    exact hfoldable hreopens
  · intro h
    obtain ⟨hown, hfoldable⟩ := h _ rfl
    exact ⟨hown, fun hreopens => hfoldable hreopens records hvalid⟩

/-! ### Samples -/

theorem reached_alone {α : Type} (nowMs : Int) (leaseEpoch : Nat) (p : EndpointM α)
    (db : EndpointDb Text) :
    ∀ move ∈ p.movesAlone (EndpointCall.serve endpoint nowMs leaseEpoch) db,
      ∃ steps, move.1 = run (DaemonStep.serve endpoint) steps db := by
  induction p generalizing db with
  | done a => exact fun _ h => by cases h
  | call call k ih =>
    intro move hmove
    rcases List.mem_cons.mp hmove with rfl | hmove
    · exact ⟨[], rfl⟩
    · obtain ⟨steps, hsteps⟩ := ih _ _ move hmove
      exact ⟨.daemon (.request nowMs leaseEpoch call) :: steps, hsteps⟩

/-- The child of a sample run, whose stream its credential covers. -/
def sampleChild : ThreadCoordinates := .counted "user" 2

def sampleChildGrant : StreamLeaseGrantV1 :=
  { StreamLeaseGrantV1.sample with scope := ⟨(EventStreamId.forThread sampleChild).text⟩ }

def DaemonStep.store (n : Nat) (op : Op) : DaemonStep :=
  .daemon (.authority (.counted 0 0 (.history (.counted 0 n op))))

/-- The child's lease and credential, and an entry in thread 1 of the daemon's store. -/
def sampleDaemon : List DaemonStep :=
  [.daemon (.authority (.counted 0 1 (.grantLease sampleChildGrant.scope ⟨"dispatch"⟩ ⟨none⟩))),
   .daemon (.authority (.counted 10 2 (.mintCredential sampleChildGrant))),
   .store 30 (.append (.counted "user" 1) none (.said "first") none)]

/-- The daemon's database then. -/
def sampleDaemonDb : EndpointDb EndpointText := run (DaemonStep.serve .sample) sampleDaemon .empty

/-- A push of records to the child's stream, from its start. -/
def sampleRequest (records : List EventRecord) : SyncPushRequestV1 :=
  ⟨syncPushSchemaV1, .forThread sampleChild, .counted 1, 1, records.map (·.toStreamRecordV1)⟩

/-- The push, served alone. -/
def samplePushed (records : List EventRecord) : VerletResult SyncPushOutcome × EndpointDb EndpointText :=
  (push .sample sampleToken (sampleRequest records)).alone (EndpointCall.serve .sample 10 0)
    sampleDaemonDb

/-- The acknowledgement of one record at the start of the child's stream. -/
def sampleAck (n : Nat) : StreamAppendAckV1 :=
  ⟨History.streamAppendAckSchemaIdV1, .forThread sampleChild, 1, 1, 1, (Draw.counted n).eventId,
    [.streamCommitted, .queryProjected]⟩

/-- The child's stream begins with an event of the `n`th thread, of any kind. -/
def sampleFirst (n : Nat) (kind : EventKind) (payload : Json) : EventRecord :=
  .fromNew (.forThread sampleChild) 1
    (.witnessed (.counted 40) (.counted "user" n) kind payload)

/-- A selection of no branch in thread 1. -/
def sampleIntrusion : EventRecord :=
  sampleFirst 1 .threadBranchSelected
    (ThreadBranchSelectedPayload.mk (ThreadCoordinates.counted "user" 1).threadId none
      none).toValue

set_option maxRecDepth 100000 in
/-- A push under a credential for the child's streams, accepted, with one record that selects no
branch in thread 1: it is among thread 1's events, and after a restart thread 1 has no leaf. -/
theorem pushed_selection_clears :
    (samplePushed [sampleIntrusion]).1 = .ok (.accepted (sampleAck 40)) ∧
    (∀ streamId, sampleChildGrant.scope.authorizes streamId = true →
      threadOfStream streamId = some sampleChild.threadId) ∧
    (verifyToken .sample sampleDaemonDb.authority sampleToken).map (·.scope) =
      some sampleChildGrant.scope ∧
    (ThreadCoordinates.counted "user" 1).threadId ≠ sampleChild.threadId ∧
    listThreadEvents EndpointText.codec (samplePushed [sampleIntrusion]).2.authority.history
        (ThreadCoordinates.counted "user" 1).threadId ≠
      listThreadEvents EndpointText.codec sampleDaemonDb.authority.history
        (ThreadCoordinates.counted "user" 1).threadId ∧
    leafAfterReopen EndpointText.codec sampleDaemonDb.authority.history (.counted "user" 1) =
      some (.ok (some (.counted 30))) ∧
    leafAfterReopen EndpointText.codec (samplePushed [sampleIntrusion]).2.authority.history
      (.counted "user" 1) = some (.ok none) := by
  exact ⟨by decide, fun _ => threadOfStream_of_authorizes, by decide⟩

/-- An event of the child itself. -/
def sampleOwn : EventRecord := sampleFirst 2 .turnSubmitted (.obj [])

set_option maxRecDepth 100000 in
/-- A push of the child's own event changes nothing of the other threads. -/
theorem pushed_stream_contained_own :
    ∃ moves, (push .sample sampleToken (sampleRequest [sampleOwn])).Runs
        (EndpointCall.Served .sample) moves (.ok (.accepted (sampleAck 40))) ∧
      ∀ move ∈ moves, ∀ other ≠ sampleChild.threadId,
        Unaffected EndpointText.codec other move.1.authority.history move.2.authority.history := by
  have hruns : (push .sample sampleToken (sampleRequest [sampleOwn])).Runs
      (EndpointCall.Served .sample) ((push .sample sampleToken (sampleRequest [sampleOwn])).movesAlone
        (EndpointCall.serve .sample 10 0) sampleDaemonDb) (samplePushed [sampleOwn]).1 :=
    Proc.runs_alone (fun _ _ => ⟨10, 0, rfl⟩) _ _
  have hserved : (samplePushed [sampleOwn]).1 = .ok (.accepted (sampleAck 40)) ∧
      (verifyToken .sample sampleDaemonDb.authority sampleToken).map (·.scope) =
        some sampleChildGrant.scope := by decide
  obtain ⟨haccepted, hverified⟩ := hserved
  have hstill : ∀ records, validatePushRequest (sampleRequest [sampleOwn]) = .ok records →
      records = [.witnessed (.counted 40) sampleChild .turnSubmitted (.obj [])] := by
    intro records h
    have hvalid : validatePushRequest (sampleRequest [sampleOwn]) =
        .ok [.witnessed (.counted 40) sampleChild .turnSubmitted (.obj [])] := by decide
    exact (Except.ok.inj (hvalid.symm.trans h)).symm
  rw [haccepted] at hruns
  refine ⟨_, hruns, (pushed_stream_contained .sample sampleToken _ sampleChild.threadId _ _ hruns
    (fun move hmove => ?_) ?_ fun move _ => ?_).mpr ?_⟩
  · obtain ⟨steps, hsteps⟩ := reached_alone 10 0 _ _ move hmove
    refine ⟨sampleDaemon ++ steps, ?_⟩
    rw [run_append]
    exact hsteps
  · rintro _ ⟨⟩ identity hidentity streamId hauthorizes
    change verifyToken .sample sampleDaemonDb.authority sampleToken = some identity at hidentity
    rw [hidentity, Option.map_some, Option.some.injEq] at hverified
    rw [hverified] at hauthorizes
    exact threadOfStream_of_authorizes hauthorizes
  · have hback := EndpointText.readsBack move.1.authority.history
    exact fun event hrow _ => ⟨hback.payload event hrow, hback.provenance event hrow⟩
  · refine fun move _ => ⟨by decide, fun _ records hrecords => ?_⟩
    rw [hstill records hrecords]
    exact Sqlite.foldable_of_still (by decide)

/-- What the child holds: an entry of its own, selected. -/
def sampleChildStore : Db EndpointText :=
  run (Sqlite.step EndpointText.codec)
    [.counted 0 50 (.append sampleChild none (.said "child") none),
     .counted 0 51 (.selectBranch sampleChild (some (.counted 50)))] .empty

/-- The child's stream. -/
def sampleChildRecords : List EventRecord :=
  (readEvents EndpointText.codec sampleChildStore (.forThread sampleChild) none).toOption.getD []

set_option maxRecDepth 100000 in
/-- The child pushes its stream record for record, the push is accepted, and the daemon's store does
not open again. -/
theorem pushed_branch_bricks :
    sampleChildRecords.map (·.kind) = [.sessionEntryAppended, .threadBranchSelected] ∧
    readEvents EndpointText.codec (samplePushed sampleChildRecords).2.authority.history
      (.forThread sampleChild) none = .ok sampleChildRecords ∧
    (exec (Sqlite.reopen EndpointText.codec)
      (samplePushed sampleChildRecords).2.authority.history).1 =
        .error (.entryNotFound (.counted 50)) := by
  decide

/-- A selection in the daemon's own thread, a push of the child's own event, and a restart. -/
def sampleRestart : List DaemonStep :=
  sampleDaemon ++ [.store 31 (.selectBranch (.counted "user" 1) (some (.counted 30))),
    .push 10 0 sampleToken (sampleRequest [sampleOwn]), .reopen]

set_option maxRecDepth 100000 in
theorem store_reopens_restart :
    ∃ history, exec (Sqlite.reopen EndpointText.codec)
      (run (DaemonStep.serve .sample) sampleRestart .empty).authority.history = (.ok (), history) :=
  store_reopens .sample sampleRestart (by decide) (EndpointText.readsBack _)

end Verlet.RemoteStore
