import Verlet.History.Sqlite.Sound

/-!
# History — SQLite store — Streams

What the table of events holds, as streams.  `Holds` says which events a stream's rows are those of,
`Journals` says it of all the streams of a database that the store itself wrote.
-/

namespace Verlet.History.Sqlite
open Support

variable {Text : Type} {codec : Codec Text}

def Db.stream (db : Db Text) (streamId : EventStreamId) : List (EventRow Text) :=
  db.eventRecords.filter fun row => row.streamId = streamId

/-- The event's columns read back. -/
structure Codec.Reads (codec : Codec Text) (event : EventRecord) : Prop where
  payload : codec.decodeValue (codec.encodeValue event.payload) = some event.payload
  provenance :
    codec.decodeProvenance (codec.encodeProvenance event.provenance) = some event.provenance
  valid : event.validateStreamRecordV1 = .ok ()

/-- The stream's rows are those of the events, which are numbered from 1. -/
structure Holds (codec : Codec Text) (db : Db Text) (streamId : EventStreamId)
    (events : List EventRecord) : Prop where
  rows : db.stream streamId = events.map (.of codec)
  placed : Placed streamId events

/-! ### One stream -/

variable {db : Db Text} {streamId : EventStreamId}

/-- **The next sequence follows the stream's length.** -/
theorem Holds.next {events : List EventRecord} (h : Holds codec db streamId events) :
    sqliteNextEventSequence db streamId = events.length + 1 := by
  have hrows : (db.eventRecords.filter fun row => row.streamId = streamId) =
      events.map (.of codec) := h.rows
  unfold sqliteNextEventSequence
  rw [hrows, List.map_map]
  change ((events.map (·.sequence)).max?).getD 0 + 1 = _
  obtain ⟨n, hn⟩ : ∃ n, events.length = n := ⟨_, rfl⟩
  cases n with
  | zero => rw [List.length_eq_zero_iff.mp hn]; rfl
  | succ n =>
    have hmax : (events.map (·.sequence)).max? = some ((n : Int) + 1) := by
      rw [List.max?_eq_some_iff]
      constructor
      · have hlt : n < events.length := by omega
        have he := List.getElem?_eq_getElem hlt
        exact List.mem_map.mpr ⟨_, List.mem_of_getElem? he, (h.placed n _ he).2⟩
      · intro m hm
        obtain ⟨event, he, rfl⟩ := List.mem_map.mp hm
        obtain ⟨i, hi⟩ := List.mem_iff_getElem?.mp he
        have hlt := (List.getElem?_eq_some_iff.mp hi).1
        have hseq := (h.placed i event hi).2
        have hle : (i : Int) ≤ n := by omega
        change event.sequence ≤ _
        rw [hseq]
        exact Int.add_le_add_right hle 1
    rw [hmax, hn]
    simp

theorem Holds.count {events : List EventRecord} (h : Holds codec db streamId events) :
    db.count streamId = events.length := count_eq h.next

theorem sqliteEventFromRow_ok {event : EventRecord} (h : codec.Reads event) :
    sqliteEventFromRow codec (.of codec event) = .ok event := by
  unfold sqliteEventFromRow
  simp only [EventRow.of, ne_eq, not_true_eq_false, if_false, EventKind.tryFrom_asRef,
    EventOrigin.fromStr_asRef, okOr_some, h.payload, h.provenance, bind, Except.bind, h.valid]
  rfl

/-- **The stream reads as its events**, from any sequence on. -/
theorem Holds.readEvents {events : List EventRecord} (h : Holds codec db streamId events)
    (hr : ∀ event ∈ events, codec.Reads event) (fromSequence : Option EventSequence) :
    readEvents codec db streamId fromSequence = .ok (events.filter fun event =>
      match fromSequence with
      | some sequence => sequence ≤ event.sequence
      | none => true) := by
  have hrows : (db.eventRecords.filter fun row => row.streamId = streamId) =
      events.map (.of codec) := h.rows
  have hread : ∀ read : List EventRecord, (∀ event ∈ read, event ∈ events) →
      (read.map (EventRow.of codec)).mapM (sqliteEventFromRow codec) = .ok read := by
    intro read hin
    induction read with
    | nil => rfl
    | cons event read ih =>
      rw [List.map_cons, List.mapM_cons,
        sqliteEventFromRow_ok (hr event (hin event List.mem_cons_self)),
        ih fun e he => hin e (.tail _ he)]
      rfl
  simp only [Sqlite.readEvents, hrows, List.filter_map]
  rw [List.Pairwise.insertionSort_eq]
  · exact hread _ fun event he => (List.mem_filter.mp he).1
  · rw [List.pairwise_map]
    exact h.placed.sorted.filter _

theorem Holds.readEvents_none {events : List EventRecord} (h : Holds codec db streamId events)
    (hr : ∀ event ∈ events, codec.Reads event) :
    Sqlite.readEvents codec db streamId none = .ok events := by
  rw [h.readEvents hr, List.filter_eq_self.mpr fun _ _ => rfl]

theorem Holds.readEvents_some {events : List EventRecord} (h : Holds codec db streamId events)
    (hr : ∀ event ∈ events, codec.Reads event) (sequence : EventSequence) :
    Sqlite.readEvents codec db streamId (some sequence) =
      .ok (events.drop (sequence - 1).toNat) := by
  rw [h.readEvents hr, ← h.placed.filter_sequence]

/-! ### All streams -/

/-- The table of events holds these streams, each event as the store would write it. -/
structure Journals (codec : Codec Text) (db : Db Text) (events : EventStreamId → List EventRecord) :
    Prop where
  rows : ∀ streamId, db.stream streamId = (events streamId).map (.of codec)
  journal : Journal events db.hasEvent
  valid : ∀ streamId, ∀ event ∈ events streamId, event.validateStreamRecordV1 = .ok ()

variable {events : EventStreamId → List EventRecord}

theorem Journals.holds (h : Journals codec db events) (streamId : EventStreamId) :
    Holds codec db streamId (events streamId) := ⟨h.rows streamId, h.journal.placed streamId⟩

theorem Journals.counted (h : Journals codec db events) :
    Counted db := fun streamId => ⟨_, (h.holds streamId).next⟩

theorem Journals.reads (h : Journals codec db events) (hr : ReadsBack codec db)
    {event : EventRecord} (he : event ∈ events streamId) : codec.Reads event := by
  have hrow : EventRow.of codec event ∈ db.eventRecords := by
    have hmem : EventRow.of codec event ∈ db.stream streamId := by
      rw [h.rows]
      exact List.mem_map.mpr ⟨event, he, rfl⟩
    exact (List.mem_filter.mp hmem).1
  exact ⟨hr.payload event hrow, hr.provenance event hrow, h.valid streamId event he⟩

/-- A row whose columns read back reads as an event. -/
theorem Journals.reads_row (h : Journals codec db events) {row : EventRow Text}
    (hrow : row ∈ db.eventRecords)
    (hreads : ∀ event, EventRow.of codec event = row →
      codec.decodeValue (codec.encodeValue event.payload) = some event.payload ∧
        codec.decodeProvenance (codec.encodeProvenance event.provenance) = some event.provenance) :
    ∃ event, sqliteEventFromRow codec row = .ok event := by
  have hmem : row ∈ db.stream row.streamId := List.mem_filter.mpr ⟨hrow, decide_eq_true rfl⟩
  rw [h.rows] at hmem
  obtain ⟨event, hevent, heq⟩ := List.mem_map.mp hmem
  obtain ⟨hpayload, hprovenance⟩ := hreads event heq
  exact ⟨event, heq ▸ sqliteEventFromRow_ok ⟨hpayload, hprovenance, h.valid _ event hevent⟩⟩

theorem journals_empty : Journals codec (.empty : Db Text) fun _ => [] where
  rows _ := rfl
  journal := .empty _
  valid := by simp

theorem filter_numbered (streamId streamId' : EventStreamId) (n : Nat)
    (records : List NewEventRecord) :
    (((numbered streamId n records).map (EventRow.of codec)).filter fun row =>
        row.streamId = streamId') =
      if streamId' = streamId then (numbered streamId n records).map (.of codec) else [] := by
  have hstream : ∀ row ∈ (numbered streamId n records).map (EventRow.of codec),
      row.streamId = streamId := by
    intro row hrow
    obtain ⟨event, he, rfl⟩ := List.mem_map.mp hrow
    obtain ⟨record, -, sequence, rfl⟩ := mem_numbered he
    rfl
  split
  · rename_i h
    refine List.filter_eq_self.mpr fun row hrow => ?_
    rw [h, hstream row hrow]
    exact decide_eq_true rfl
  · rename_i h
    refine List.filter_eq_nil_iff.mpr fun row hrow => ?_
    rw [hstream row hrow, decide_eq_true_eq]
    exact Ne.symm h

theorem stream_append {db' : Db Text} {records : List NewEventRecord} {n : Nat}
    (he : db'.eventRecords = db.eventRecords ++ (numbered streamId n records).map (.of codec))
    (streamId' : EventStreamId) :
    db'.stream streamId' = if streamId' = streamId then
      db.stream streamId ++ (numbered streamId n records).map (.of codec)
      else db.stream streamId' := by
  rw [Db.stream, he, List.filter_append, filter_numbered]
  split
  · rename_i hs
    rw [hs]
    rfl
  · exact List.append_nil _

/-- **A batch the store takes keeps the table a journal.** -/
theorem Journals.append {db' : Db Text} (h : Journals codec db events) {leaseEpoch : Nat}
    {records : List NewEventRecord} (hj : Journaled db leaseEpoch streamId records)
    (he : db'.eventRecords =
      db.eventRecords ++ (numbered streamId (db.count streamId) records).map (.of codec)) :
    Journals codec db' (appendBatch events streamId records) where
  rows streamId' := by
    rw [stream_append he, h.rows, h.rows, (h.holds streamId).count, appendBatch]
    split
    · rw [List.map_append]
    · rfl
  journal := by
    have hbatch := hj.batch
    rw [(h.holds streamId).count] at hbatch
    have hids : db'.hasEvent = fun id => db.hasEvent id ∨ id ∈ records.map (·.id) := by
      funext id
      have hinsert := @hasEvent_insertEvents Text codec db
        (numbered streamId (db.count streamId) records) id
      rw [map_id_numbered] at hinsert
      rw [← propext hinsert, Db.hasEvent, he]
      rfl
    rw [hids]
    exact h.journal.append hbatch
  valid streamId' event hmem := by
    unfold appendBatch at hmem
    split at hmem
    · rcases List.mem_append.mp hmem with hold | hnew
      · exact h.valid streamId event hold
      · rw [← (h.holds streamId).count] at hnew
        exact hj.batch.schema event hnew
    · exact h.valid streamId' event hmem

/-- **Every call keeps the table a journal**, and its streams only grow. -/
theorem Journals.step (h : Journals codec db events) (call : Call) :
    ∃ events', Journals codec (step codec call db).2 events' ∧
      ∀ streamId, events streamId <+: events' streamId := by
  rcases step_cases h.counted call with heq | ⟨reply, hok⟩
  · rw [heq]
    exact ⟨events, h, fun _ => List.prefix_rfl⟩
  · generalize (Sqlite.step codec call db).2 = db' at hok
    cases hok with
    | @append _ _ c _ _ _ _ entry _ hentry _ hj | @turnInput _ _ c _ _ _ entry _ _ hentry _ hj =>
      obtain rfl : entry.coordinates = c := congrArg (·.coordinates) hentry
      exact ⟨_, h.append hj rfl, fun _ => prefix_appendBatch _⟩
    | selectBranch _ _ _ hj | cloneSome _ _ _ _ hj | events hj | fenced hj _ =>
      exact ⟨_, h.append hj rfl, fun _ => prefix_appendBatch _⟩
    | turnAgain | cloneNone | fork =>
      exact ⟨events, ⟨h.rows, h.journal, h.valid⟩, fun _ => List.prefix_rfl⟩

end Verlet.History.Sqlite
