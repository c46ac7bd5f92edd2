import Verlet.History.Sqlite

/-!
# History — SQLite store — Statements

When the statements of a transaction succeed and what they leave: the rows of events and their
numbers, the lease fence, the rows of entries.

* `sqliteInsertEntry_ok`: an entry goes in with its event, where the constraints let it.
-/

namespace Verlet.History.Sqlite
open Support

variable {Text : Type} {codec : Codec Text}

/-! ### Rows of events -/

def Db.hasEvent (db : Db Text) (id : EventRecordId) : Prop :=
  ∃ row ∈ db.eventRecords, row.eventId = id

variable {db : Db Text} {streamId : EventStreamId}

theorem sequence_lt_next {row : EventRow Text} (hrow : row ∈ db.eventRecords)
    (hs : row.streamId = streamId) : row.sequence < sqliteNextEventSequence db streamId := by
  unfold sqliteNextEventSequence
  have hmem : row.sequence ∈
      (db.eventRecords.filter fun row => row.streamId = streamId).map (·.sequence) :=
    List.mem_map.mpr ⟨row, List.mem_filter.mpr ⟨hrow, by simpa using hs⟩, rfl⟩
  cases hmax : ((db.eventRecords.filter fun row => row.streamId = streamId).map (·.sequence)).max?
  with
  | none =>
    rw [List.max?_eq_none_iff] at hmax
    rw [hmax] at hmem
    cases hmem
  | some m =>
    have hle := (List.max?_eq_some_iff.mp hmax).2 _ hmem
    exact Int.lt_add_one_of_le hle

/-- Every stream has a number of events to number the next one after. -/
def Counted (db : Db Text) : Prop :=
  ∀ streamId, ∃ n : Nat, sqliteNextEventSequence db streamId = n + 1

/-- How many events the stream is numbered up to. -/
def Db.count (db : Db Text) (streamId : EventStreamId) : Nat :=
  (sqliteNextEventSequence db streamId - 1).toNat

variable {n : Nat}

theorem count_eq (h : sqliteNextEventSequence db streamId = n + 1) : db.count streamId = n := by
  rw [Db.count, h]
  simp

theorem Counted.next (h : Counted db) (streamId : EventStreamId) :
    sqliteNextEventSequence db streamId = db.count streamId + 1 := by
  obtain ⟨n, hn⟩ := h streamId
  rw [count_eq hn, hn]

def Db.insertEvents (codec : Codec Text) (db : Db Text) (events : List EventRecord) : Db Text :=
  { db with eventRecords := db.eventRecords ++ events.map (.of codec) }

variable {event : EventRecord}

theorem next_insertEvents_single (hn : sqliteNextEventSequence db event.streamId = n + 1)
    (hseq : event.sequence = n + 1) (streamId : EventStreamId) :
    sqliteNextEventSequence (db.insertEvents codec [event]) streamId =
      if streamId = event.streamId then ((n + 1 : Nat) : Int) + 1
      else sqliteNextEventSequence db streamId := by
  by_cases hs : streamId = event.streamId
  · subst hs
    rw [if_pos rfl]
    unfold sqliteNextEventSequence Db.insertEvents
    have hmax : (((db.eventRecords ++ [event].map (EventRow.of codec)).filter
        fun row => row.streamId = event.streamId).map (·.sequence)).max? = some ((n : Int) + 1) := by
      rw [List.max?_eq_some_iff]
      constructor
      · refine List.mem_map.mpr ⟨.of codec event, List.mem_filter.mpr ⟨by simp, ?_⟩, hseq⟩
        simp [EventRow.of]
      · intro m hm
        obtain ⟨row, hrow, rfl⟩ := List.mem_map.mp hm
        obtain ⟨hin, hst⟩ := List.mem_filter.mp hrow
        rcases List.mem_append.mp hin with hold | hnew
        · have hlt := sequence_lt_next hold (of_decide_eq_true hst)
          rw [hn] at hlt
          exact hlt.le
        · obtain rfl := List.mem_singleton.mp (by simpa using hnew)
          exact hseq.le
    rw [hmax]
    simp
  · rw [if_neg hs]
    unfold sqliteNextEventSequence Db.insertEvents
    rw [List.filter_append, List.map_append]
    have hnone : ([event].map (EventRow.of codec)).filter
        (fun row => decide (row.streamId = streamId)) = [] := by
      simp [EventRow.of, Ne.symm hs]
    rw [hnone, List.map_nil, List.append_nil]

theorem insertEvents_append (db : Db Text) (events events' : List EventRecord) :
    (db.insertEvents codec events).insertEvents codec events' =
      db.insertEvents codec (events ++ events') := by
  simp [Db.insertEvents]

theorem hasEvent_insertEvents {events : List EventRecord} {id : EventRecordId} :
    (db.insertEvents codec events).hasEvent id ↔ db.hasEvent id ∨ id ∈ events.map (·.id) := by
  simp only [Db.hasEvent, Db.insertEvents, List.mem_append, List.mem_map]
  constructor
  · rintro ⟨row, hrow | ⟨event, he, rfl⟩, rfl⟩
    · exact .inl ⟨row, hrow, rfl⟩
    · exact .inr ⟨event, he, rfl⟩
  · rintro (⟨row, hrow, rfl⟩ | ⟨event, he, rfl⟩)
    · exact ⟨row, .inl hrow, rfl⟩
    · exact ⟨.of codec event, .inr ⟨event, he, rfl⟩, rfl⟩

variable {db' : Db Text}

theorem insertEventRow_ok (hseq : event.sequence = sqliteNextEventSequence db event.streamId) :
    insertEventRow (.of codec event) db = .ok db' ↔
      ¬ db.hasEvent event.id ∧ db' = db.insertEvents codec [event] := by
  have hplace : (db.eventRecords.any fun other =>
      other.streamId = (EventRow.of codec event).streamId ∧
        other.sequence = (EventRow.of codec event).sequence) = false := by
    rw [List.any_eq_false]
    intro row hrow htaken
    obtain ⟨hs, hq⟩ := of_decide_eq_true htaken
    have hlt := sequence_lt_next hrow hs
    rw [hq] at hlt
    exact absurd (hseq ▸ hlt) (lt_irrefl _)
  unfold insertEventRow
  rw [hplace]
  by_cases hid : db.hasEvent event.id
  · obtain ⟨row, hrow, hrid⟩ := id hid
    have hany : (db.eventRecords.any fun other =>
        other.eventId = (EventRow.of codec event).eventId) = true :=
      List.any_eq_true.mpr ⟨row, hrow, decide_eq_true hrid⟩
    simp [hany, hid]
  · have hany : (db.eventRecords.any fun other =>
        other.eventId = (EventRow.of codec event).eventId) = false := by
      rw [List.any_eq_false]
      intro row hrow hrid
      exact hid ⟨row, hrow, of_decide_eq_true hrid⟩
    simp [hany, hid, Db.insertEvents, eq_comm]

theorem sqliteInsertEvent_ok {record : NewEventRecord} :
    sqliteInsertEvent codec streamId record db = .ok (event, db') ↔
      validateNewEvent record = .ok () ∧ ¬ db.hasEvent record.id ∧
      event = .fromNew streamId (sqliteNextEventSequence db streamId) record ∧
      event.validateStreamRecordV1 = .ok () ∧ db' = db.insertEvents codec [event] := by
  have hdup : (if db.eventRecords.any fun row => row.eventId = record.id then
      .error (.duplicateEventId record.id) else .ok () : HistoryResult Unit) = .ok () ↔
        ¬ db.hasEvent record.id := by
    simp [Db.hasEvent]
  simp only [sqliteInsertEvent, query_bind_ok, exists_unit_ok, hdup, Except.ok.injEq,
    exists_eq_left', execute_bind_ok, tx_pure_ok, exists_const]
  constructor
  · rintro ⟨hv, hn, hs, db₁, hi, rfl, rfl⟩
    exact ⟨hv, hn, rfl, hs, ((insertEventRow_ok rfl).mp hi).2⟩
  · rintro ⟨hv, hn, rfl, hs, rfl⟩
    exact ⟨hv, hn, hs, _, (insertEventRow_ok rfl).mpr ⟨hn, rfl⟩, rfl, rfl⟩

theorem sqliteInsertEvent_batch {record : NewEventRecord}
    (hn : sqliteNextEventSequence db streamId = n + 1) :
    sqliteInsertEvent codec streamId record db = .ok (event, db') ↔
      Admissible db.hasEvent streamId n [record] ∧ event = .fromNew streamId (n + 1) record ∧
      db' = db.insertEvents codec (numbered streamId n [record]) := by
  rw [sqliteInsertEvent_ok, admissible_cons, hn]
  constructor
  · rintro ⟨hv, hf, rfl, hs, rfl⟩
    exact ⟨⟨hv, hf, hs, admissible_nil _ _⟩, rfl, rfl⟩
  · rintro ⟨⟨hv, hf, hs, -⟩, rfl, rfl⟩
    exact ⟨hv, hf, rfl, hs, rfl⟩

variable {records : List NewEventRecord}

theorem next_insertEvents_cons {record : NewEventRecord} (hn : sqliteNextEventSequence db streamId = n + 1) :
    sqliteNextEventSequence (db.insertEvents codec [.fromNew streamId (n + 1) record]) streamId =
      ((n + 1 : Nat) : Int) + 1 :=
  (next_insertEvents_single hn rfl streamId).trans (if_pos rfl)

/-- **A batch is inserted whole or not at all**, on the terms of `append_in_memory_events`. -/
theorem sqliteInsertEvents_ok {events : List EventRecord}
    (hn : sqliteNextEventSequence db streamId = n + 1) :
    sqliteInsertEvents codec streamId records db = .ok (events, db') ↔
      Admissible db.hasEvent streamId n records ∧ events = numbered streamId n records ∧
      db' = db.insertEvents codec (numbered streamId n records) := by
  induction records generalizing db db' events n with
  | nil =>
    simp only [sqliteInsertEvents, tx_pure_ok, numbered, Db.insertEvents, List.map_nil,
      List.append_nil]
    constructor
    · rintro ⟨rfl, rfl⟩
      exact ⟨admissible_nil _ _, rfl, rfl⟩
    · rintro ⟨-, rfl, rfl⟩
      exact ⟨rfl, rfl⟩
  | cons record rs ih =>
    have hnext := @next_insertEvents_cons _ codec _ _ _ record hn
    have htaken : (db.insertEvents codec [.fromNew streamId (n + 1) record]).hasEvent =
        fun id => db.hasEvent id ∨ id = record.id := by
      funext id
      simp [hasEvent_insertEvents, EventRecord.fromNew]
    simp only [sqliteInsertEvents, tx_bind_ok, sqliteInsertEvent_ok, tx_pure_ok, hn,
      admissible_cons]
    constructor
    · rintro ⟨_, _, ⟨hv, hf, rfl, hs, rfl⟩, _, _, hrest, rfl, rfl⟩
      obtain ⟨ha, rfl, rfl⟩ := (ih hnext).mp hrest
      rw [htaken] at ha
      exact ⟨⟨hv, hf, hs, ha⟩, rfl, insertEvents_append _ _ _⟩
    · rintro ⟨⟨hv, hf, hs, ha⟩, rfl, rfl⟩
      refine ⟨_, _, ⟨hv, hf, rfl, hs, rfl⟩, _, _, (ih hnext).mpr ⟨?_, rfl, rfl⟩, rfl,
        insertEvents_append _ _ _⟩
      rw [htaken]
      exact ha

theorem next_insertEvents (hn : sqliteNextEventSequence db streamId = n + 1)
    (streamId' : EventStreamId) :
    sqliteNextEventSequence (db.insertEvents codec (numbered streamId n records)) streamId' =
      if streamId' = streamId then ((n + records.length : Nat) : Int) + 1
      else sqliteNextEventSequence db streamId' := by
  induction records generalizing db n with
  | nil =>
    have hsame : db.insertEvents codec (numbered streamId n []) = db := by
      simp [Db.insertEvents, numbered]
    rw [hsame]
    split
    · rename_i hs
      rw [hs, hn, List.length_nil, Nat.add_zero]
    · rfl
  | cons record rs ih =>
    have hrest := ih (@next_insertEvents_cons _ codec _ _ _ record hn)
    rw [insertEvents_append, List.singleton_append] at hrest
    rw [numbered, hrest]
    split
    · rw [List.length_cons, Nat.add_assoc, Nat.add_comm 1]
    · rename_i hs
      exact (next_insertEvents_single hn rfl streamId').trans (if_neg hs)

/-! ### The lease fence -/

/-- The recorded epoch lets the presented one write. -/
def LeaseAdmits (epochs : Map EventStreamId Int) (streamId : EventStreamId) (presentedEpoch : Nat) :
    Prop :=
  match epochs.lookup streamId with
  | some stored =>
    0 ≤ stored ∧ stored.toNat ≤ presentedEpoch ∧
      (presentedEpoch = stored.toNat ∨ presentedEpoch ≤ i64Max)
  | none => presentedEpoch ≤ i64Max

/-- The recorded epochs after a write. -/
def raiseLease (epochs : Map EventStreamId Int) (streamId : EventStreamId) (presentedEpoch : Nat) :
    Map EventStreamId Int :=
  if presentedEpoch = ((epochs.lookup streamId).getD 0).toNat then epochs
  else epochs.insert streamId presentedEpoch

theorem sqliteEnforceLeaseEpoch_ok {presentedEpoch : Nat} :
    sqliteEnforceLeaseEpoch streamId presentedEpoch db = .ok db' ↔
      LeaseAdmits db.journalLeaseEpochs streamId presentedEpoch ∧
      db' = { db with
        journalLeaseEpochs := raiseLease db.journalLeaseEpochs streamId presentedEpoch } := by
  unfold sqliteEnforceLeaseEpoch LeaseAdmits raiseLease
  cases hl : db.journalLeaseEpochs.lookup streamId with
  | none =>
    by_cases h0 : presentedEpoch = 0
    · simpa [h0] using eq_comm
    · by_cases hm : presentedEpoch ≤ i64Max
      · simp [h0, hm, eq_comm]
      · simp [h0, hm]
  | some stored =>
    by_cases hneg : stored < 0
    · simp [hneg, not_le.mpr hneg]
    · by_cases hlt : presentedEpoch < stored.toNat
      · simp [hneg, hlt, not_le.mpr hlt]
      · have hle := not_lt.mp hlt
        by_cases heq : presentedEpoch = stored.toNat
        · simpa [hneg, heq, not_lt.mp hneg] using eq_comm
        · by_cases hm : presentedEpoch ≤ i64Max
          · simp [hneg, hlt, heq, hm, hle, not_lt.mp hneg, eq_comm]
          · simp [hneg, hlt, heq, hm]

/-- The handle may write the stream, and the store takes the batch. -/
structure Journaled (db : Db Text) (leaseEpoch : Nat) (streamId : EventStreamId)
    (records : List NewEventRecord) : Prop where
  lease : LeaseAdmits db.journalLeaseEpochs streamId leaseEpoch
  batch : Admissible db.hasEvent streamId (db.count streamId) records

/-- The database after the fence and a batch. -/
def Db.journal (codec : Codec Text) (db : Db Text) (leaseEpoch : Nat) (streamId : EventStreamId)
    (records : List NewEventRecord) : Db Text :=
  { db with
    eventRecords := db.eventRecords ++
      (numbered streamId (db.count streamId) records).map (.of codec)
    journalLeaseEpochs := raiseLease db.journalLeaseEpochs streamId leaseEpoch }

theorem Counted.append (h : Counted db)
    (he : db'.eventRecords = db.eventRecords ++
      (numbered streamId (db.count streamId) records).map (.of codec)) : Counted db' := by
  intro streamId'
  have hsame : sqliteNextEventSequence db' streamId' = sqliteNextEventSequence
      (db.insertEvents codec (numbered streamId (db.count streamId) records)) streamId' := by
    rw [sqliteNextEventSequence, he]
    rfl
  rw [hsame, next_insertEvents (h.next streamId) streamId']
  split
  · exact ⟨_, rfl⟩
  · exact h streamId'

/-! ### Rows of entries -/

theorem hasEntry_iff {id : SessionEntryId} :
    db.hasEntry id = true ↔ ∃ row ∈ db.sessionEntries, row.entryId = id := by
  simp [Db.hasEntry]

/-- The constraints of `session_entries` let the entry in. -/
structure Storable (rows : List (EntryRow Text)) (entry : SessionEntry) : Prop where
  fresh : ∀ row ∈ rows, row.entryId ≠ entry.entryId
  parent : ∀ parent, entry.parentEntryId = some parent →
    parent = entry.entryId ∨ ∃ row ∈ rows, row.entryId = parent
  turn : ∀ turnId, entry.turnId = some turnId → ∀ row ∈ rows,
    row.coordinates.threadId = entry.coordinates.threadId → row.turnId ≠ some turnId

/-- The entries let in one after the other. -/
def StorableAll (codec : Codec Text) : List (EntryRow Text) → List SessionEntry → Prop
  | _,    []               => True
  | rows, entry :: entries =>
    Storable rows entry ∧ StorableAll codec (rows ++ [.of codec entry]) entries

def Db.insertEntries (codec : Codec Text) (db : Db Text) (entries : List SessionEntry) : Db Text :=
  { db with sessionEntries := db.sessionEntries ++ entries.map (.of codec) }

variable {entry : SessionEntry}

theorem insertEntryRow_ok :
    insertEntryRow (.of codec entry) db = .ok db' ↔
      Storable db.sessionEntries entry ∧ db' = db.insertEntries codec [entry] := by
  have hparent : (EntryRow.of codec entry).parentEntryId.any (fun parent =>
      parent ≠ (EntryRow.of codec entry).entryId ∧ ¬ db.hasEntry parent) = false ↔
        ∀ parent, entry.parentEntryId = some parent →
          parent = entry.entryId ∨ ∃ row ∈ db.sessionEntries, row.entryId = parent := by
    cases hp : entry.parentEntryId with
    | none => simp [EntryRow.of, hp]
    | some parent =>
      simp only [EntryRow.of, hp, Option.any_some, decide_eq_false_iff_not, not_and, not_not,
        hasEntry_iff, Option.some.injEq, forall_eq', ne_eq]
      exact or_iff_not_imp_left.symm
  have hturn : ((EntryRow.of codec entry).turnId.isSome = true ∧
      db.sessionEntries.any (fun other =>
        other.coordinates.threadId = (EntryRow.of codec entry).coordinates.threadId ∧
          other.turnId = (EntryRow.of codec entry).turnId) = true) ↔
        ¬ ∀ turnId, entry.turnId = some turnId → ∀ row ∈ db.sessionEntries,
          row.coordinates.threadId = entry.coordinates.threadId → row.turnId ≠ some turnId := by
    cases ht : entry.turnId with
    | none => simp [EntryRow.of, ht]
    | some turnId => simp [EntryRow.of, ht]
  unfold insertEntryRow
  by_cases hid : db.hasEntry (EntryRow.of codec entry).entryId
  · obtain ⟨row, hrow, hrid⟩ := hasEntry_iff.mp hid
    simp only [hid, if_true, reduceCtorEq, false_iff, not_and]
    exact fun hs => absurd hrid (hs.fresh row hrow)
  · have hfresh : ∀ row ∈ db.sessionEntries, row.entryId ≠ entry.entryId :=
      fun row hrow hrid => hid (hasEntry_iff.mpr ⟨row, hrow, hrid⟩)
    rw [if_neg hid]
    split
    · rename_i hp
      simp only [reduceCtorEq, false_iff, not_and]
      exact fun hs => absurd (hparent.mpr hs.parent) (by rw [hp]; simp)
    · rename_i hp
      have hp := hparent.mp (by simpa using hp)
      split
      · rename_i ht
        simp only [reduceCtorEq, false_iff, not_and]
        exact fun hs => absurd hs.turn (hturn.mp ht)
      · rename_i ht
        rw [Except.ok.injEq, Db.insertEntries]
        refine ⟨fun h => ⟨⟨hfresh, hp, ?_⟩, h.symm⟩, fun h => h.2.symm⟩
        exact not_not.mp fun hn => ht (hturn.mpr hn)

theorem hasEntry_insertEntries {entries : List SessionEntry} (h : entry ∈ entries) :
    (db.insertEntries codec entries).hasEntry entry.entryId = true := by
  refine hasEntry_iff.mpr ⟨.of codec entry, ?_, rfl⟩
  exact List.mem_append_right _ (List.mem_map.mpr ⟨entry, h, rfl⟩)

theorem upsertActiveLeaf_ok {thread : ThreadId} {leaf : SessionEntryId} :
    upsertActiveLeaf thread leaf db = .ok db' ↔
      db.hasEntry leaf = true ∧ db' = { db with activeLeaves := db.activeLeaves.insert thread leaf }
      := by
  unfold upsertActiveLeaf
  split <;> simp [*, eq_comm]

theorem sqliteInsertEntry_ok {draw : Draw} {provenance : Option EventProvenance} {u : Unit}
    (hn : sqliteNextEventSequence db (.forThread entry.coordinates) = n + 1) :
    sqliteInsertEntry codec draw entry provenance db = .ok (u, db') ↔
      Storable db.sessionEntries entry ∧
      Admissible db.hasEvent (.forThread entry.coordinates) n
        [sessionEntryEvent draw entry provenance] ∧
      db' = (db.insertEntries codec [entry]).insertEvents codec
        (numbered (.forThread entry.coordinates) n [sessionEntryEvent draw entry provenance]) := by
  -- the row of the entry does not touch the events
  have hn' : sqliteNextEventSequence (db.insertEntries codec [entry])
      (.forThread entry.coordinates) = n + 1 := hn
  simp only [sqliteInsertEntry, execute_bind_ok, insertEntryRow_ok, discard_ok]
  constructor
  · rintro ⟨_, ⟨hs, rfl⟩, event, h⟩
    obtain ⟨ha, -, rfl⟩ := (sqliteInsertEvent_batch hn').mp h
    exact ⟨hs, ha, rfl⟩
  · rintro ⟨hs, ha, rfl⟩
    exact ⟨_, ⟨hs, rfl⟩, _, (sqliteInsertEvent_batch hn').mpr ⟨ha, rfl, rfl⟩⟩

end Verlet.History.Sqlite
