import Verlet.History.InMemory.Journal
import Verlet.History.Sqlite.Streams

/-!
# History — Agreement — Relation

When a database holds what the in-memory store holds (`Represents`), and that every read then
answers alike: branches, contexts, active leaves, turns, events and the lease fence.

`Regular` is what the in-memory store keeps besides its soundness when each thread id is used with
one and the same coordinates: entries have their thread's coordinates, a turn has one entry, and
stored events are within the frozen schema.
-/

namespace Verlet.History.Agreement
open Support
open History.InMemory (Inner)
open History.Sqlite

variable {Text : Type} {codec : Codec Text} {owner : ThreadId → ThreadCoordinates} {s : Inner}
  {db : Db Text}

/-- The entries have their thread's coordinates, and a turn of a thread has one of them. -/
structure Regular (owner : ThreadId → ThreadCoordinates) (s : Inner) : Prop where
  sound : InMemory.Sound s
  owned : ∀ thread id entry, s.entryAt thread id = some entry → entry.coordinates = owner thread
  turns : ∀ thread id id' entry entry' turnId, s.entryAt thread id = some entry →
    s.entryAt thread id' = some entry' → entry.turnId = some turnId →
      entry'.turnId = some turnId → id = id'
  valid : ∀ streamId, ∀ event ∈ s.eventsOf streamId, event.validateStreamRecordV1 = .ok ()

/-- The rows are those of the entries. -/
structure SameEntries (codec : Codec Text)
    (entryAt : ThreadId → SessionEntryId → Option SessionEntry) (rows : List (EntryRow Text)) :
    Prop where
  stored : ∀ thread id entry, entryAt thread id = some entry → EntryRow.of codec entry ∈ rows
  rows : ∀ row ∈ rows, ∃ entry, row = .of codec entry ∧
    entryAt entry.coordinates.threadId entry.entryId = some entry

/-- The database holds what the in-memory store holds. -/
structure Represents (codec : Codec Text) (s : Inner) (db : Db Text) : Prop where
  entries : SameEntries codec s.entryAt db.sessionEntries
  leaves : db.activeLeaves = s.activeLeaf
  bases : db.threadBases = s.bases
  events : ∀ streamId, (db.eventRecords.filter fun row => row.streamId = streamId) =
    (s.eventsOf streamId).map (.of codec)
  ids : ∀ id, db.hasEvent id ↔ id ∈ s.eventIds
  epochs : ∀ streamId, db.journalLeaseEpochs.lookup streamId =
    (s.leaseEpochMinimums.lookup streamId).map fun epoch : Nat => (epoch : Int)

/-! ### Entries -/

variable (h : Represents codec s db)

include h

variable (hs : InMemory.Sound s)

include hs

theorem Represents.load (hr : ReadsBack codec db) (thread : ThreadId) (id : SessionEntryId) :
    Sqlite.sqliteLoadEntry codec db thread id = .ok (s.entryAt thread id) := by
  unfold Sqlite.sqliteLoadEntry
  cases hf : db.sessionEntries.find? fun row =>
      row.coordinates.threadId = thread ∧ row.entryId = id with
  | none =>
    cases he : s.entryAt thread id with
    | none => rfl
    | some entry =>
      obtain ⟨hid, hthread⟩ := hs.forest.keyed thread id entry he
      have := List.find?_eq_none.mp hf _ (h.entries.stored thread id entry he)
      simp [EntryRow.of, hid, hthread] at this
  | some row =>
    have hrow := List.mem_of_find?_eq_some hf
    have hkey : row.coordinates.threadId = thread ∧ row.entryId = id := by
      simpa using List.find?_some hf
    obtain ⟨entry, rfl, he⟩ := h.entries.rows row hrow
    obtain ⟨rfl, rfl⟩ := hkey
    change some <$> Sqlite.decodeEntry codec (codec.encodeEntry entry) =
      .ok (s.entryAt entry.coordinates.threadId entry.entryId)
    rw [he, Sqlite.decodeEntry, hr.entry entry hrow]
    rfl

theorem Represents.size_le {thread : ThreadId}
    {entries : Map SessionEntryId SessionEntry} (hl : s.entries.lookup thread = some entries) :
    Map.size entries ≤ db.sessionEntries.length := by
  have hsub : entries.keys ⊆ db.sessionEntries.map (·.entryId) := by
    intro id hid
    obtain ⟨entry, he⟩ :=
      Option.isSome_iff_exists.mp (AList.lookup_isSome.mpr (AList.mem_keys.mpr hid))
    have hat : s.entryAt thread id = some entry := by simp [Inner.entryAt, hl, he]
    have hrow := h.entries.stored thread id entry hat
    exact List.mem_map.mpr ⟨_, hrow, (hs.forest.keyed thread id entry hat).1⟩
  have hlen := (List.subperm_of_subset entries.keys_nodup hsub).length_le
  simpa [AList.keys, List.keys, Map.size] using hlen

/-- **Both stores read the same branch.** -/
theorem Represents.branchPath
    (hr : ReadsBack codec db) (c : ThreadCoordinates) (leaf : SessionEntryId) :
    Sqlite.sqliteBranchPath codec db c leaf = s.branchPath c leaf := by
  have hload : ∀ id, Sqlite.loadEntry codec db c id = (do
      let entry ← okOr (.entryNotFound id) (s.entryAt c.threadId id)
      validateEntryCoordinates c entry
      return entry) := by
    intro id
    simp only [Sqlite.loadEntry, h.load hs hr]
    rfl
  change Option.getD (follow (Sqlite.loadEntry codec db c) _ _ _ _) _ = _
  cases hl : s.entries.lookup c.threadId with
  | none =>
    have hnone : s.entryAt c.threadId leaf = none := by simp [Inner.entryAt, hl]
    rw [follow_some, hload, hnone]
    simp [Inner.branchPath, hl, bind, Except.bind]
  | some entriesById =>
    have hsame : Sqlite.loadEntry codec db c = InMemory.loadEntry entriesById c := by
      funext id
      rw [hload, InMemory.loadEntry]
      simp [Inner.entryAt, hl]
    have hpath : s.branchPath c leaf = (follow (InMemory.loadEntry entriesById c)
        (·.parentEntryId) (Map.size entriesById + 1) (some leaf) []).getD (.error .diverged) := by
      simp only [Inner.branchPath, hl, okOr_some]
      rfl
    have hends := hs.branchPath_ne_diverged c leaf
    rw [hpath] at hends ⊢
    rw [hsame]
    cases hf : follow (InMemory.loadEntry entriesById c) (·.parentEntryId)
        (Map.size entriesById + 1) (some leaf) [] with
    | none => rw [hf] at hends; exact absurd rfl hends
    | some r => rw [follow_mono (Nat.succ_le_succ (h.size_le hs hl)) hf]

theorem Represents.activeLeafEntry (hr : ReadsBack codec db) (thread : ThreadId) :
    (s.activeLeaf.lookup thread = none ∧
      Sqlite.sqliteActiveLeafEntry codec db thread = .ok none) ∨
    ∃ leaf entry, s.activeLeaf.lookup thread = some leaf ∧ s.entryAt thread leaf = some entry ∧
      entry.entryId = leaf ∧ Sqlite.sqliteActiveLeafEntry codec db thread = .ok (some entry) := by
  unfold Sqlite.sqliteActiveLeafEntry
  rw [h.leaves]
  cases hl : s.activeLeaf.lookup thread with
  | none => exact .inl ⟨rfl, rfl⟩
  | some leaf =>
    obtain ⟨entry, he⟩ := hs.forest.leaves thread leaf hl
    refine .inr ⟨leaf, entry, rfl, he, (hs.forest.keyed thread leaf entry he).1, ?_⟩
    change Sqlite.sqliteLoadEntry codec db thread leaf = _
    rw [h.load hs hr, he]

/-- **Both stores answer alike while a context is built.** -/
theorem Represents.source (hr : ReadsBack codec db) : db.source codec = s.source := by
  unfold Db.source Inner.source
  congr 1
  · funext thread
    rw [h.bases]
  · funext thread
    obtain ⟨hl, he⟩ | ⟨leaf, entry, hl, -, hid, he⟩ := h.activeLeafEntry hs hr thread
    · rw [he, hl]
      rfl
    · rw [he, hl, ← hid]
      rfl
  · funext c leaf
    exact h.branchPath hs hr c leaf

theorem Represents.buildContext
    (hr : ReadsBack codec db) (c : ThreadCoordinates) (leaf : Option SessionEntryId) :
    Sqlite.sqliteBuildContext codec db c leaf = InMemory.buildInMemoryContext s c leaf := by
  rw [Sqlite.sqliteBuildContext, InMemory.buildInMemoryContext, h.source hs hr, h.bases]

omit hs

/-! ### Leaves, parents and turns -/

/-- **Both stores name the same active leaf**, to the coordinates the thread is used with. -/
theorem Represents.activeLeaf (hs : Regular owner s)
    (hr : ReadsBack codec db) {c : ThreadCoordinates} (hc : owner c.threadId = c) :
    Sqlite.activeLeaf codec c db = .ok (s.activeLeaf.lookup c.threadId) ∧
    InMemory.activeLeaf s c = .ok (s.activeLeaf.lookup c.threadId) := by
  unfold Sqlite.activeLeaf InMemory.activeLeaf
  obtain ⟨hl, he⟩ | ⟨leaf, entry, hl, hentry, hid, he⟩ := h.activeLeafEntry hs.sound hr c.threadId
  · rw [he, hl]
    exact ⟨rfl, rfl⟩
  · have hcoord : validateEntryCoordinates c entry = .ok () :=
      validateEntryCoordinates_ok.mpr ((hs.owned _ _ _ hentry).trans hc)
    rw [he, hl]
    simp only [hentry, okOr_some, bind, Except.bind, hcoord, hid]
    exact ⟨rfl, rfl⟩

theorem Represents.resolveParent (hs : Regular owner s)
    (hr : ReadsBack codec db) {c : ThreadCoordinates} (hc : owner c.threadId = c)
    (parentArg : Option SessionEntryId) :
    Sqlite.resolveParent codec c parentArg db = InMemory.resolveParent s c parentArg := by
  cases parentArg with
  | none => exact (h.activeLeaf hs hr hc).1
  | some parent =>
    simp only [Sqlite.resolveParent, InMemory.resolveParent, h.load hs.sound hr, Inner.entryAt]
    cases s.entries.lookup c.threadId with
    | none => rfl
    | some entries => rfl

omit h

theorem turnEntryAt_eq {thread : ThreadId} {turnId : String} {entry : SessionEntry}
    (hs : Regular owner s) :
    s.turnEntryAt thread turnId = some entry ↔
      s.entryAt thread entry.entryId = some entry ∧ entry.turnId = some turnId := by
  have hfound : ∀ e, s.turnEntryAt thread turnId = some e →
      s.entryAt thread e.entryId = some e ∧ e.turnId = some turnId := by
    intro e hf
    obtain ⟨entries, hl, hf⟩ := Option.bind_eq_some_iff.mp hf
    obtain ⟨id, hid⟩ := Map.mem_values.mp (List.mem_of_find?_eq_some hf)
    have hat : s.entryAt thread id = some e := by simp [Inner.entryAt, hl, hid]
    refine ⟨?_, by simpa using List.find?_some hf⟩
    rw [(hs.sound.forest.keyed thread id e hat).1, hat]
  refine ⟨hfound entry, ?_⟩
  intro h
  obtain ⟨hat, ht⟩ := h
  obtain ⟨entries, hl, hk⟩ := Option.bind_eq_some_iff.mp hat
  cases hf : s.turnEntryAt thread turnId with
  | none =>
    rw [Inner.turnEntryAt, hl, Option.bind_some, List.find?_eq_none] at hf
    have := hf entry (Map.mem_values.mpr ⟨_, hk⟩)
    simp [ht] at this
  | some other =>
    -- a turn has one entry
    obtain ⟨hat', ht'⟩ := hfound other hf
    have hid := hs.turns thread _ _ _ _ turnId hat hat' ht ht'
    rw [hid, hat'] at hat
    exact hat

variable (h : Represents codec s db)

include h

/-- **Both stores find the same entry of a turn.** -/
theorem Represents.turnEntryAt (hs : Regular owner s)
    (hr : ReadsBack codec db) (thread : ThreadId) (turnId : String) :
    Sqlite.turnEntryAt codec thread turnId db = .ok (s.turnEntryAt thread turnId) := by
  unfold Sqlite.turnEntryAt
  cases hf : db.sessionEntries.find? fun row =>
      row.coordinates.threadId = thread ∧ row.turnId = some turnId with
  | none =>
    cases he : s.turnEntryAt thread turnId with
    | none => rfl
    | some entry =>
      obtain ⟨hat, ht⟩ := (turnEntryAt_eq hs).mp he
      have hthread := (hs.sound.forest.keyed _ _ _ hat).2
      have := List.find?_eq_none.mp hf _ (h.entries.stored _ _ _ hat)
      simp [EntryRow.of, hthread, ht] at this
  | some row =>
    have hrow := List.mem_of_find?_eq_some hf
    have hkey : row.coordinates.threadId = thread ∧ row.turnId = some turnId := by
      simpa using List.find?_some hf
    obtain ⟨entry, rfl, hat⟩ := h.entries.rows row hrow
    obtain ⟨rfl, ht⟩ := hkey
    have hturn : s.turnEntryAt entry.coordinates.threadId turnId = some entry :=
      (turnEntryAt_eq hs).mpr ⟨hat, ht⟩
    change some <$> Sqlite.decodeEntry codec (codec.encodeEntry entry) =
      .ok (s.turnEntryAt entry.coordinates.threadId turnId)
    rw [hturn, Sqlite.decodeEntry, hr.entry entry hrow]
    rfl

/-! ### Events -/

theorem Represents.holds (hs : InMemory.Sound s)
    (streamId : EventStreamId) : Sqlite.Holds codec db streamId (s.eventsOf streamId) :=
  ⟨h.events streamId, hs.journal.placed streamId⟩

/-- **Both stores number the next event alike.** -/
theorem Represents.next (hs : InMemory.Sound s) (streamId : EventStreamId) :
    Sqlite.sqliteNextEventSequence db streamId = (s.eventsOf streamId).length + 1 :=
  (h.holds hs streamId).next

theorem Represents.counted (hs : InMemory.Sound s) :
    Sqlite.Counted db := fun streamId => ⟨_, h.next hs streamId⟩

theorem Represents.count (hs : InMemory.Sound s)
    (streamId : EventStreamId) : db.count streamId = (s.eventsOf streamId).length :=
  Sqlite.count_eq (h.next hs streamId)

/-- **Both fences admit the same handles**, up to the largest epoch SQLite stores. -/
theorem Represents.lease {streamId : EventStreamId} {epoch : Nat} (he : epoch ≤ Sqlite.i64Max) :
    Sqlite.LeaseAdmits db.journalLeaseEpochs streamId epoch ↔
      InMemory.checkInMemoryLeaseEpoch s streamId epoch = .ok () := by
  unfold Sqlite.LeaseAdmits InMemory.checkInMemoryLeaseEpoch
  rw [h.epochs]
  cases s.leaseEpochMinimums.lookup streamId with
  | none => simpa using he
  | some minimum =>
    by_cases hlt : epoch < minimum
    · simp [hlt]
    · simp [hlt, not_lt.mp hlt, he]

/-- **Both stores take the same batches.** -/
theorem Represents.journaled (hs : InMemory.Sound s)
    {streamId : EventStreamId} {epoch : Nat} {records : List NewEventRecord}
    (he : epoch ≤ Sqlite.i64Max) :
    Sqlite.Journaled db epoch streamId records ↔ InMemory.Journaled s epoch streamId records := by
  have hids : db.hasEvent = (· ∈ s.eventIds) := funext fun id => propext (h.ids id)
  constructor
  · rintro ⟨hl, hb⟩
    rw [hids, h.count hs] at hb
    exact ⟨(h.lease he).mp hl, hb⟩
  · rintro ⟨hl, hb⟩
    refine ⟨(h.lease he).mpr hl, ?_⟩
    rw [hids, h.count hs]
    exact hb

/-- **Both stores read the same events.** -/
theorem Represents.readEvents (hs : Regular owner s)
    (hr : ReadsBack codec db) (streamId : EventStreamId) (fromSequence : Option EventSequence) :
    Sqlite.readEvents codec db streamId fromSequence =
      InMemory.readEvents s streamId fromSequence := by
  have hreads : ∀ event ∈ s.eventsOf streamId, codec.Reads event := by
    intro event he
    have hmem : EventRow.of codec event ∈ db.stream streamId := by
      rw [Sqlite.Db.stream, h.events]
      exact List.mem_map.mpr ⟨event, he, rfl⟩
    have hrow := (List.mem_filter.mp hmem).1
    exact ⟨hr.payload event hrow, hr.provenance event hrow, hs.valid streamId event he⟩
  rw [(h.holds hs.sound streamId).readEvents hreads]
  cases fromSequence <;> rfl

end Verlet.History.Agreement
