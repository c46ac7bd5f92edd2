import Verlet.History.Sqlite.Sound

/-!
# History — SQLite store — When a database reopens

The rebuild folds the leaf-moving events of the threads that have selected a branch.  It fails at
the first such event that it cannot read or that names an entry not stored under its thread, and
nothing it does on the way changes that: an event can be folded or not for itself (`restores`).

* `Reopens.extend`: what new events need, for the database to go on reopening.
-/

namespace Verlet.History.Sqlite
open Support

variable {Text : Type} {codec : Codec Text}

/-- The row can be folded: it reads, and the entry it names is stored under its thread. -/
def restores (codec : Codec Text) (db : Db Text) (row : EventRow Text) : Bool :=
  match selectedEntryOf codec row with
  | .error _ => false
  | .ok none => true
  | .ok (some id) =>
    match sqliteLoadEntry codec db row.coordinates.threadId id with
    | .ok (some _) => true
    | _            => false

def assignment (codec : Codec Text) (row : EventRow Text) : ThreadId × Option SessionEntryId :=
  (row.coordinates.threadId, (selectedEntryOf codec row).toOption.join)

def Db.folded (db : Db Text) : List (EventRow Text) :=
  db.eventRecords.filter fun row => row.movesLeaf ∧ row.coordinates.threadId ∈ db.selectedThreads

variable {db : Db Text} {row : EventRow Text}

theorem mem_folded :
    row ∈ db.folded ↔ row ∈ db.eventRecords ∧ row.movesLeaf = true ∧
      row.coordinates.threadId ∈ db.selectedThreads := by
  simp [Db.folded, List.mem_filter]

variable {db' : Db Text}

theorem restores_congr {row' : EventRow Text} (hentries : db'.sessionEntries = db.sessionEntries)
    (hkind : row'.kind = row.kind) (hthread : row'.coordinates = row.coordinates)
    (hpayload : row'.payloadJson = row.payloadJson) :
    restores codec db' row' = restores codec db row := by
  have hselected : selectedEntryOf codec row' = selectedEntryOf codec row := by
    simp only [selectedEntryOf, hkind, hthread, hpayload]
  have hload : ∀ id, sqliteLoadEntry codec db' row.coordinates.threadId id =
      sqliteLoadEntry codec db row.coordinates.threadId id := by
    intro id
    simp only [sqliteLoadEntry, hentries]
  simp only [restores, hselected, hthread, hload]

theorem restores_iff :
    restores codec db row = true ↔ ∃ selected, selectedEntryOf codec row = .ok selected ∧
      ∀ id, selected = some id →
        ∃ entry, sqliteLoadEntry codec db row.coordinates.threadId id = .ok (some entry) := by
  unfold restores
  cases hselected : selectedEntryOf codec row with
  | error e => simp
  | ok selected =>
    cases selected with
    | none => simp
    | some id =>
      cases hload : sqliteLoadEntry codec db row.coordinates.threadId id with
      | error e => simp [hload]
      | ok entry => cases entry <;> simp [hload]

/-! ### The rebuild -/

theorem rebuildRow_ok_iff :
    rebuildRow codec row db = .ok db' ↔ restores codec db row = true ∧
      db' = { db with activeLeaves :=
        db.activeLeaves.assign (assignment codec row).1 (assignment codec row).2 } := by
  rw [restores_iff]
  constructor
  · intro h
    obtain ⟨selected, hselected, h⟩ := bind_ok.mp h
    have hassigned : assignment codec row = (row.coordinates.threadId, selected) := by
      rw [assignment, hselected]
      rfl
    rw [hassigned]
    cases selected with
    | none =>
      cases h
      exact ⟨⟨none, hselected, by simp⟩, rfl⟩
    | some id =>
      obtain ⟨entry, hload, h⟩ := bind_ok.mp h
      cases entry with
      | none => cases h
      | some entry =>
        obtain ⟨-, rfl⟩ := upsertActiveLeaf_ok.mp h
        refine ⟨⟨some id, hselected, ?_⟩, rfl⟩
        rintro _ ⟨⟩
        exact ⟨entry, hload⟩
  · rintro ⟨⟨selected, hselected, hload⟩, rfl⟩
    have hassigned : assignment codec row = (row.coordinates.threadId, selected) := by
      rw [assignment, hselected]
      rfl
    rw [hassigned]
    refine bind_ok.mpr ⟨selected, hselected, ?_⟩
    cases selected with
    | none => rfl
    | some id =>
      obtain ⟨entry, hload⟩ := hload id rfl
      exact bind_ok.mpr ⟨some entry, hload, upsertActiveLeaf_ok.mpr ⟨hasEntry_of_load hload, rfl⟩⟩

variable {rows : List (EventRow Text)}

theorem rebuildRows_ok_iff :
    rows.foldlM (fun db row => rebuildRow codec row db) db = .ok db' ↔
      (∀ row ∈ rows, restores codec db row = true) ∧
      db' = { db with activeLeaves := db.activeLeaves.assignAll (rows.map (assignment codec)) } := by
  induction rows generalizing db with
  | nil =>
    constructor
    · rintro ⟨⟩
      exact ⟨by simp, rfl⟩
    · rintro ⟨-, rfl⟩
      rfl
  | cons row rows ih =>
    rw [List.foldlM_cons, bind_ok, List.forall_mem_cons]
    constructor
    · rintro ⟨db₁, hrow, hrows⟩
      obtain ⟨hr, rfl⟩ := rebuildRow_ok_iff.mp hrow
      obtain ⟨hrs, rfl⟩ := ih.mp hrows
      exact ⟨⟨hr, fun row' h => by rw [← hrs row' h]; exact restores_congr rfl rfl rfl rfl⟩, rfl⟩
    · rintro ⟨⟨hr, hrs⟩, rfl⟩
      refine ⟨_, rebuildRow_ok_iff.mpr ⟨hr, rfl⟩, ih.mpr ⟨fun row' h => ?_, rfl⟩⟩
      rw [← hrs row' h]
      exact restores_congr rfl rfl rfl rfl

/-- Every event that the rebuild folds can be folded. -/
def Reopens (codec : Codec Text) (db : Db Text) : Prop :=
  ∀ row ∈ db.folded, restores codec db row = true

instance (db : Db Text) : Decidable (Reopens codec db) := List.decidableBAll _ _

def Db.rebuiltLeaves (codec : Codec Text) (db : Db Text) : Map ThreadId SessionEntryId :=
  (db.selectedThreads.foldl (fun leaves thread => leaves.erase thread) db.activeLeaves).assignAll
    (db.folded.map (assignment codec))

/-- **The rebuild succeeds where every folded event can be.** -/
theorem rebuild_ok_iff :
    sqliteRebuildActiveLeavesFromEvents codec db = .ok db' ↔
      Reopens codec db ∧ db' = { db with activeLeaves := db.rebuiltLeaves codec } := by
  unfold sqliteRebuildActiveLeavesFromEvents
  rw [rebuildRows_ok_iff]
  refine and_congr ?_ Iff.rfl
  refine forall_congr' fun row => imp_congr_right fun _ => ?_
  exact iff_of_eq (congrArg (· = true) (restores_congr rfl rfl rfl rfl))

/-- **A thread's leaf after the rebuild**: the one its own events assigned last, where it has
selected a branch, and otherwise the one it had. -/
theorem rebuild_lookup (db : Db Text) (thread : ThreadId) :
    (db.rebuiltLeaves codec).lookup thread =
      if thread ∈ db.selectedThreads then
        (Map.lastWrite thread ((db.eventRecords.filter (·.movesLeaf)).map (assignment codec))).getD none
      else db.activeLeaves.lookup thread := by
  have hfolded : db.folded.map (assignment codec) =
      ((db.eventRecords.filter (·.movesLeaf)).map (assignment codec)).filter fun move =>
        decide (move.1 ∈ db.selectedThreads) := by
    rw [List.filter_map, Db.folded, List.filter_filter]
    refine congrArg _ (List.filter_congr fun row _ => ?_)
    change decide (_ ∧ _) = (decide (row.coordinates.threadId ∈ db.selectedThreads) && _)
    simp [Bool.and_comm]
  rw [Db.rebuiltLeaves, hfolded, Map.lookup_assignAll, Map.lookup_foldl_erase]
  by_cases hselected : thread ∈ db.selectedThreads
  · rw [if_pos hselected, if_pos hselected]
    rw [Map.lastWrite_filter (p := fun thread => decide (thread ∈ db.selectedThreads))
      (decide_eq_true hselected)]
  · rw [if_neg hselected, if_neg hselected, Map.lastWrite_of_notMem]
    · rfl
    · rintro move hmove rfl
      exact hselected (of_decide_eq_true (List.mem_filter.mp hmove).2)

/-! ### New events -/

theorem restores_mono (hentries : db.sessionEntries <+: db'.sessionEntries)
    (h : restores codec db row = true) : restores codec db' row = true := by
  obtain ⟨selected, hselected, hload⟩ := restores_iff.mp h
  refine restores_iff.mpr ⟨selected, hselected, fun id hid => ?_⟩
  obtain ⟨entry, he⟩ := hload id hid
  exact ⟨entry, (sqliteLoadEntry_mono hentries (hasRow_of_load he)).trans he⟩

def selectedIn (rows : List (EventRow Text)) : List ThreadId :=
  (rows.filter fun row => row.kind = EventKind.threadBranchSelected.asRef).map
    (·.coordinates.threadId)

theorem mem_selectedIn {thread : ThreadId} :
    thread ∈ selectedIn rows ↔ ∃ row ∈ rows,
      row.kind = EventKind.threadBranchSelected.asRef ∧ row.coordinates.threadId = thread := by
  simp [selectedIn, and_assoc]

theorem selectedIn_appended (h : ∀ row ∈ rows, row.kind = EventKind.sessionEntryAppended.asRef) :
    selectedIn rows = [] := by
  have hne : EventKind.sessionEntryAppended.asRef ≠ EventKind.threadBranchSelected.asRef := by decide
  refine List.eq_nil_iff_forall_not_mem.mpr fun thread hthread => ?_
  obtain ⟨row, hrow, hkind, -⟩ := mem_selectedIn.mp hthread
  exact hne ((h row hrow).symm.trans hkind)

/-- New rows can be folded: each that will be, and the earlier ones of every thread that they select
a branch of. -/
structure Foldable (codec : Codec Text) (db : Db Text) (rows : List (EventRow Text)) : Prop where
  new : ∀ row ∈ rows, row.movesLeaf = true →
    row.coordinates.threadId ∈ db.selectedThreads ++ selectedIn rows → restores codec db row = true
  earlier : ∀ row ∈ db.eventRecords, row.movesLeaf = true →
    row.coordinates.threadId ∈ selectedIn rows → restores codec db row = true

theorem foldable_iff :
    Foldable codec db rows ↔
      (∀ row ∈ rows, row.movesLeaf = true →
        row.coordinates.threadId ∈ db.selectedThreads ++ selectedIn rows →
          restores codec db row = true) ∧
      (∀ row ∈ db.eventRecords, row.movesLeaf = true →
        row.coordinates.threadId ∈ selectedIn rows → restores codec db row = true) :=
  ⟨fun h => ⟨h.new, h.earlier⟩, fun h => ⟨h.1, h.2⟩⟩

instance (db : Db Text) (rows : List (EventRow Text)) : Decidable (Foldable codec db rows) :=
  decidable_of_iff' _ foldable_iff

theorem foldable_of_still (h : ∀ row ∈ rows, row.movesLeaf = false) : Foldable codec db rows where
  new row hrow hmoves _ := absurd hmoves (by simp [h row hrow])
  earlier _ _ _ hthread := by
    obtain ⟨selects, hselects, hkind, -⟩ := mem_selectedIn.mp hthread
    have hmoves := h selects hselects
    simp [EventRow.movesLeaf, hkind] at hmoves

/-- **Rows that can be folded keep a database reopening**, and no others do. -/
theorem reopens_append (db : Db Text) (hevents : db'.eventRecords = db.eventRecords ++ rows)
    (hentries : db'.sessionEntries = db.sessionEntries) :
    Reopens codec db' ↔ Reopens codec db ∧ Foldable codec db rows := by
  have hselected : db'.selectedThreads = db.selectedThreads ++ selectedIn rows := by
    simp only [Db.selectedThreads, selectedIn, hevents, List.filter_append, List.map_append]
  have hrestores : ∀ row, restores codec db' row = restores codec db row := fun row =>
    restores_congr hentries rfl rfl rfl
  have hfolded : ∀ row, row ∈ db'.folded ↔ (row ∈ db.eventRecords ∨ row ∈ rows) ∧
      row.movesLeaf = true ∧ row.coordinates.threadId ∈ db.selectedThreads ++ selectedIn rows := by
    intro row
    rw [mem_folded, hselected, hevents, List.mem_append]
  constructor
  · intro h
    refine ⟨fun row hrow => ?_, fun row hrow hmoves hthread => ?_, fun row hrow hmoves hthread => ?_⟩
    · obtain ⟨hmem, hmoves, hthread⟩ := mem_folded.mp hrow
      rw [← hrestores]
      exact h row ((hfolded row).mpr ⟨.inl hmem, hmoves, List.mem_append_left _ hthread⟩)
    · rw [← hrestores]
      exact h row ((hfolded row).mpr ⟨.inr hrow, hmoves, hthread⟩)
    · rw [← hrestores]
      exact h row ((hfolded row).mpr ⟨.inl hrow, hmoves, List.mem_append_right _ hthread⟩)
  · rintro ⟨h, hnew⟩ row hrow
    rw [hrestores]
    obtain ⟨hold | hadded, hmoves, hthread⟩ := (hfolded row).mp hrow
    · rcases List.mem_append.mp hthread with hbefore | hselects
      · exact h row (mem_folded.mpr ⟨hold, hmoves, hbefore⟩)
      · exact hnew.earlier row hold hmoves hselects
    · exact hnew.new row hadded hmoves hthread

theorem Reopens.mono (h : Reopens codec db) (hentries : db.sessionEntries <+: db'.sessionEntries)
    (hevents : db'.eventRecords = db.eventRecords) : Reopens codec db' := by
  intro row hrow
  rw [mem_folded, Db.selectedThreads, hevents] at hrow
  exact restores_mono hentries (h row (mem_folded.mpr hrow))

/-- What a row says of leaves: its kind, its coordinates and its payload. -/
def EventRow.content (row : EventRow Text) : String × ThreadCoordinates × Text :=
  (row.kind, row.coordinates, row.payloadJson)

/-- The rows of a batch, wherever in a stream it goes. -/
def batchRows (codec : Codec Text) (records : List NewEventRecord) : List (EventRow Text) :=
  records.map fun record => .of codec (.fromNew (.forThread record.coordinates) 0 record)

theorem content_numbered (streamId : EventStreamId) (n : Nat) (records : List NewEventRecord) :
    ((numbered streamId n records).map (.of codec)).map EventRow.content =
      (batchRows codec records).map EventRow.content := by
  induction records generalizing n with
  | nil => rfl
  | cons record records ih => exact congrArg (List.cons _) (ih (n + 1))

theorem Foldable.congr {rows' : List (EventRow Text)}
    (hcontent : rows'.map EventRow.content = rows.map EventRow.content) (h : Foldable codec db rows) :
    Foldable codec db rows' := by
  have hmem : ∀ row' ∈ rows', ∃ row ∈ rows, row.content = row'.content := by
    intro row' hrow'
    have hs : row'.content ∈ rows.map EventRow.content := hcontent ▸ List.mem_map_of_mem hrow'
    obtain ⟨row, hrow, heq⟩ := List.mem_map.mp hs
    exact ⟨row, hrow, heq⟩
  have hselected : ∀ thread ∈ selectedIn rows', thread ∈ selectedIn rows := by
    intro thread hthread
    obtain ⟨row', hrow', hkind, rfl⟩ := mem_selectedIn.mp hthread
    obtain ⟨row, hrow, heq⟩ := hmem row' hrow'
    simp only [EventRow.content, Prod.mk.injEq] at heq
    exact mem_selectedIn.mpr ⟨row, hrow, heq.1.trans hkind, congrArg _ heq.2.1⟩
  refine ⟨fun row' hrow' hmoves hthread => ?_, fun row hrow hmoves hthread =>
    h.earlier row hrow hmoves (hselected _ hthread)⟩
  obtain ⟨row, hrow, heq⟩ := hmem row' hrow'
  simp only [EventRow.content, Prod.mk.injEq] at heq
  rw [restores_congr rfl heq.1.symm heq.2.1.symm heq.2.2.symm]
  refine h.new row hrow ?_ ?_
  · rwa [EventRow.movesLeaf, heq.1]
  · rw [heq.2.1]
    exact (List.mem_append.mp hthread).elim (List.mem_append_left _) fun hnew =>
      List.mem_append_right _ (hselected _ hnew)

end Verlet.History.Sqlite
