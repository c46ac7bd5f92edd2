import Verlet.Support.Runs
import Verlet.History.Sqlite.Steps

/-!
# History — SQLite store — Invariant

`Sound` is the invariant of the database: its streams are numbered and its active leaves are
entries of their own thread.  Rows are never changed: every call leaves the tables of entries and
events as they were, or longer.

* `sqliteBranchPath_mono`: a branch that was read reads the same from a longer table.
-/

namespace Verlet.History.Sqlite
open Support

variable {Text : Type} {codec : Codec Text}

def HasRow (rows : List (EntryRow Text)) (thread : ThreadId) (id : SessionEntryId) : Prop :=
  ∃ row ∈ rows, row.coordinates.threadId = thread ∧ row.entryId = id

variable {rows : List (EntryRow Text)} {thread : ThreadId} {id : SessionEntryId}

theorem HasRow.append (h : HasRow rows thread id) (later : List (EntryRow Text)) :
    HasRow (rows ++ later) thread id := by
  obtain ⟨row, hrow, hr⟩ := h
  exact ⟨row, List.mem_append_left _ hrow, hr⟩

/-- Active leaves are entries of their thread, and streams are numbered. -/
structure Sound (db : Db Text) : Prop where
  counted : Counted db
  leaves : ∀ thread leaf, db.activeLeaves.lookup thread = some leaf →
    HasRow db.sessionEntries thread leaf

theorem sound_empty : Sound (.empty : Db Text) where
  counted := counted_empty
  leaves := by simp [Db.empty]

/-! ### Loading -/

variable {db : Db Text} {entry : SessionEntry}

theorem hasRow_of_load (h : sqliteLoadEntry codec db thread id = .ok (some entry)) :
    HasRow db.sessionEntries thread id := by
  unfold sqliteLoadEntry at h
  split at h
  · rename_i row hrow
    exact ⟨row, List.mem_of_find?_eq_some hrow, by simpa using List.find?_some hrow⟩
  · cases h

variable {db' : Db Text}

theorem sqliteLoadEntry_mono (h : db.sessionEntries <+: db'.sessionEntries)
    (hrow : HasRow db.sessionEntries thread id) :
    sqliteLoadEntry codec db' thread id = sqliteLoadEntry codec db thread id := by
  obtain ⟨later, hlater⟩ := h
  obtain ⟨row, hmem, hkey⟩ := hrow
  unfold sqliteLoadEntry
  rw [← hlater, List.find?_append]
  cases hf : db.sessionEntries.find? fun row =>
      row.coordinates.threadId = thread ∧ row.entryId = id with
  | none =>
    have := List.find?_eq_none.mp hf row hmem
    simp [hkey] at this
  | some found => rfl

variable {leaf : SessionEntryId} {path : List SessionEntry}

theorem sqliteBranchPath_mono (h : db.sessionEntries <+: db'.sessionEntries) {c : ThreadCoordinates}
    (hp : sqliteBranchPath codec db c leaf = .ok path) :
    sqliteBranchPath codec db' c leaf = .ok path := by
  rw [sqliteBranchPath_ok] at hp ⊢
  refine follow_of_le (fun id entry he => ?_) (follow_mono (Nat.succ_le_succ h.length_le) hp)
  rw [loadEntry_ok] at he ⊢
  rw [sqliteLoadEntry_mono h (hasRow_of_load he.1)]
  exact he

theorem hasRow_of_branchPath {c : ThreadCoordinates}
    (hp : sqliteBranchPath codec db c leaf = .ok path) :
    HasRow db.sessionEntries c.threadId leaf := by
  obtain ⟨entry, he⟩ := follow_first (sqliteBranchPath_ok.mp hp)
  exact hasRow_of_load (loadEntry_ok.mp he).1

/-! ### One call -/

/-- **Entries stay**: a call only adds rows. -/
theorem sessionEntries_step (h : Counted db) (call : Call) :
    db.sessionEntries <+: (step codec call db).2.sessionEntries := by
  rcases step_cases h call with heq | ⟨reply, hok⟩
  · rw [heq]
  · generalize (step codec call db).2 = db' at hok
    cases hok with
    | append | turnInput | cloneSome => exact List.prefix_append _ _
    | turnAgain | selectBranch | cloneNone | fork | events | fenced => exact List.prefix_rfl

/-- **Events stay**: a call only adds rows. -/
theorem eventRecords_step (h : Counted db) (call : Call) :
    db.eventRecords <+: (step codec call db).2.eventRecords := by
  rcases step_cases h call with heq | ⟨reply, hok⟩
  · rw [heq]
  · generalize (step codec call db).2 = db' at hok
    cases hok with
    | append | turnInput | selectBranch | cloneSome | events | fenced =>
      exact List.prefix_append _ _
    | turnAgain | cloneNone | fork => exact List.prefix_rfl

theorem leaves_insert {leaves : Map ThreadId SessionEntryId} {later : List (EntryRow Text)}
    (h : ∀ thread leaf, leaves.lookup thread = some leaf → HasRow rows thread leaf)
    (hrow : HasRow (rows ++ later) thread leaf) (thread' : ThreadId) (leaf' : SessionEntryId)
    (hl : (leaves.insert thread leaf).lookup thread' = some leaf') :
    HasRow (rows ++ later) thread' leaf' := by
  rw [Map.lookup_insert] at hl
  split at hl
  · rename_i ht
    cases hl
    rwa [ht]
  · exact (h thread' leaf' hl).append later

theorem leaves_erase {leaves : Map ThreadId SessionEntryId}
    (h : ∀ thread leaf, leaves.lookup thread = some leaf → HasRow rows thread leaf)
    (thread' : ThreadId) (leaf' : SessionEntryId)
    (hl : (leaves.erase thread).lookup thread' = some leaf') : HasRow rows thread' leaf' := by
  rw [Map.lookup_erase] at hl
  split at hl
  · cases hl
  · exact h thread' leaf' hl

theorem hasRow_stored (rows : List (EntryRow Text)) {entries : List SessionEntry}
    (h : entry ∈ entries) :
    HasRow (rows ++ entries.map (.of codec)) entry.coordinates.threadId entry.entryId :=
  ⟨.of codec entry, List.mem_append_right _ (List.mem_map.mpr ⟨entry, h, rfl⟩), rfl, rfl⟩

theorem coordinates_cloneEntries {draws : Nat → Draw} {target : ThreadCoordinates} {index : Nat}
    {parent : Option SessionEntryId}
    (h : entry ∈ InMemory.cloneEntries draws target path index parent) :
    entry.coordinates = target := by
  induction path generalizing index parent with
  | nil => cases h
  | cons source path ih =>
    rcases List.mem_cons.mp h with rfl | h
    · rfl
    · exact ih h

/-- **Every call keeps the invariant.** -/
theorem Sound.step (h : Sound db) (call : Call) : Sound (step codec call db).2 := by
  refine ⟨h.counted.step call, ?_⟩
  rcases step_cases h.counted call with heq | ⟨reply, hok⟩
  · rw [heq]
    exact h.leaves
  · generalize (Sqlite.step codec call db).2 = db' at hok
    cases hok with
    | append _ hentry _ _ | turnInput _ _ hentry _ _ =>
      exact leaves_insert h.leaves (hasRow_stored _ (List.mem_singleton_self _))
    | @selectBranch _ _ _ leaf _ _ _ hpath _ _ =>
      cases leaf with
      | none => exact leaves_erase h.leaves
      | some l =>
        obtain ⟨path, hp⟩ := hpath l rfl
        intro thread leaf hl
        have hrow := leaves_insert h.leaves ((hasRow_of_branchPath hp).append []) thread leaf hl
        rwa [List.append_nil] at hrow
    | @cloneSome _ _ _ _ target _ cloned last hpath hcloned hlast _ _ =>
      have hmem := List.mem_of_getLast? hlast
      have hthread : last.coordinates = target := coordinates_cloneEntries (hcloned ▸ hmem)
      exact leaves_insert h.leaves (hthread ▸ hasRow_stored _ hmem)
    | cloneNone | fork => exact leaves_erase h.leaves
    | turnAgain | events | fenced => exact h.leaves

/-- **A run only adds rows**: every database that is reached is sound, and whatever is called from there on, its
entries and its events stay as they are, in their order. -/
theorem run_only_adds (codec : Codec Text) (calls later : List Call) :
    Sound (run (step codec) calls .empty) ∧
    (run (step codec) calls .empty).sessionEntries <+:
      (run (step codec) (calls ++ later) .empty).sessionEntries ∧
    (run (step codec) calls .empty).eventRecords <+:
      (run (step codec) (calls ++ later) .empty).eventRecords := by
  have hsound : Sound (run (step codec) calls .empty) :=
    run_invariant (fun _ call h => h.step call) calls sound_empty
  rw [run_append]
  generalize run (step codec) calls .empty = db at hsound ⊢
  refine ⟨hsound, (run_invariant (P := fun db' => Sound db' ∧ db.sessionEntries <+: db'.sessionEntries ∧
    db.eventRecords <+: db'.eventRecords) (fun db' call ⟨h, hentries, hevents⟩ => ?_) later
    ⟨hsound, List.prefix_rfl, List.prefix_rfl⟩).2⟩
  exact ⟨h.step call, hentries.trans (sessionEntries_step h.counted call),
    hevents.trans (eventRecords_step h.counted call)⟩

/-! ### Reading back -/

/-- Every row of the table of entries was written by the store. -/
def Written (codec : Codec Text) (db : Db Text) : Prop :=
  ∀ row ∈ db.sessionEntries, ∃ entry, row = .of codec entry

theorem Written.step (h : Written codec db) (hc : Counted db) (call : Call) :
    Written codec (step codec call db).2 := by
  have happend : ∀ entries : List SessionEntry,
      ∀ row ∈ db.sessionEntries ++ entries.map (.of codec), ∃ entry, row = .of codec entry := by
    intro entries row hrow
    rcases List.mem_append.mp hrow with hold | hnew
    · exact h row hold
    · obtain ⟨entry, -, rfl⟩ := List.mem_map.mp hnew
      exact ⟨entry, rfl⟩
  rcases step_cases hc call with heq | ⟨reply, hok⟩
  · rwa [heq]
  · generalize (Sqlite.step codec call db).2 = db' at hok
    cases hok with
    | append | turnInput => exact happend [_]
    | cloneSome => exact happend _
    | turnAgain | selectBranch | cloneNone | fork | events | fenced => exact h

/-- The codec reads back what the database stores: `serde_json` may not, for a number that is not
an integer, or what is nested too deeply. -/
structure ReadsBack (codec : Codec Text) (db : Db Text) : Prop where
  entry : ∀ entry, EntryRow.of codec entry ∈ db.sessionEntries →
    codec.decodeEntry (codec.encodeEntry entry) = some entry
  payload : ∀ event, EventRow.of codec event ∈ db.eventRecords →
    codec.decodeValue (codec.encodeValue event.payload) = some event.payload
  provenance : ∀ event, EventRow.of codec event ∈ db.eventRecords →
    codec.decodeProvenance (codec.encodeProvenance event.provenance) = some event.provenance

theorem readsBack_tagged (db : Db Stored) : ReadsBack .tagged db :=
  ⟨fun _ _ => rfl, fun _ _ => rfl, fun _ _ => rfl⟩

theorem ReadsBack.anti (h : ReadsBack codec db')
    (hentries : db.sessionEntries <+: db'.sessionEntries)
    (hevents : db.eventRecords <+: db'.eventRecords) : ReadsBack codec db where
  entry entry he := h.entry entry (hentries.subset he)
  payload event he := h.payload event (hevents.subset he)
  provenance event he := h.provenance event (hevents.subset he)

theorem load_of_hasRow (hw : Written codec db) (hr : ReadsBack codec db)
    (h : HasRow db.sessionEntries thread id) :
    ∃ entry, sqliteLoadEntry codec db thread id = .ok (some entry) := by
  obtain ⟨row, hmem, hkey⟩ := h
  unfold sqliteLoadEntry
  cases hf : db.sessionEntries.find? fun row =>
      row.coordinates.threadId = thread ∧ row.entryId = id with
  | none =>
    have := List.find?_eq_none.mp hf row hmem
    simp [hkey] at this
  | some found =>
    have hfound := List.mem_of_find?_eq_some hf
    obtain ⟨entry, rfl⟩ := hw found hfound
    refine ⟨entry, ?_⟩
    simp only [decodeEntry, EntryRow.of, hr.entry entry hfound, okOr_some]
    rfl

end Verlet.History.Sqlite
