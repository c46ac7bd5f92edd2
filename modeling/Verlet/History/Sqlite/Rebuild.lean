import Mathlib.Data.List.Forall2
import Verlet.History.Sqlite.Reopening

/-!
# History — SQLite store — Rebuilding the active leaves

Opening a database rebuilds the active leaves of every thread that has a `thread.branch.selected`
event, from the journal alone.  `Traced` says that the journal is enough: its leaf-moving events
are assignments of leaves to threads, and such a thread has the leaf it was last assigned.

`clone_branch` without a leaf and `fork_by_reference` clear the leaf of their target without an
event; they keep the trace only where there is nothing to clear or nothing to rebuild.
-/

namespace Verlet.History.Sqlite
open Support
open History.InMemory (branchSelectedEvent)

variable {Text : Type} {codec : Codec Text}

/-- A leaf-moving row as the store writes it, and the leaf it selects for its thread. -/
inductive Selects (codec : Codec Text) : EventRow Text → Option SessionEntryId → Prop
  | appended {event : EventRecord} {entry : SessionEntry}
      (hkind : event.kind = .sessionEntryAppended)
      (hpayload : event.payload = .obj (sessionEntryPayload entry)) :
      Selects codec (.of codec event) (some entry.entryId)
  | selected {event : EventRecord} {payload : ThreadBranchSelectedPayload}
      (hkind : event.kind = .threadBranchSelected) (hpayload : event.payload = payload.toValue)
      (hthread : payload.threadId = event.coordinates.threadId) :
      Selects codec (.of codec event) payload.selectedEntryId

variable {row : EventRow Text}

theorem Selects.movesLeaf {selected : Option SessionEntryId} (h : Selects codec row selected) :
    row.movesLeaf = true := by
  cases h with
  | appended hkind => simp [EventRow.movesLeaf, EventRow.of, hkind]
  | selected hkind => simp [EventRow.movesLeaf, EventRow.of, hkind]

variable {db : Db Text}

theorem selectedEntryOf_ok (hr : ReadsBack codec db) (hrow : row ∈ db.eventRecords)
    {selected : Option SessionEntryId} (h : Selects codec row selected) :
    selectedEntryOf codec row = .ok selected := by
  have hne : EventKind.sessionEntryAppended.asRef ≠ EventKind.threadBranchSelected.asRef := by decide
  cases h with
  | @appended event entry hkind hpayload =>
    have hread := hr.payload event hrow
    rw [hpayload] at hread
    simp only [selectedEntryOf, EventRow.of, hpayload, hkind, hne, if_false]
    refine bind_ok.mpr ⟨_, okOr_ok.mpr hread, ?_⟩
    rw [sessionEntryPayload_entryId, optionalEntryIdFromValue_str, okOr_some]
  | @selected event payload hkind hpayload hthread =>
    have hread := hr.payload event hrow
    rw [hpayload] at hread
    simp only [selectedEntryOf, EventRow.of, hpayload, hkind, if_true]
    refine bind_ok.mpr ⟨_, okOr_ok.mpr hread, bind_ok.mpr
      ⟨payload, okOr_ok.mpr (ThreadBranchSelectedPayload.fromValue_toValue payload), ?_⟩⟩
    rw [if_neg (not_not.mpr hthread)]
    rfl

/-! ### The trace -/

def Assigns (codec : Codec Text) (row : EventRow Text) (move : ThreadId × Option SessionEntryId) :
    Prop :=
  row.coordinates.threadId = move.1 ∧ Selects codec row move.2

variable {moves : List (ThreadId × Option SessionEntryId)}

theorem assigned_of_mem {rows : List (EventRow Text)} (h : List.Forall₂ (Assigns codec) rows moves)
    (hrow : row ∈ rows) : ∃ move ∈ moves, Assigns codec row move := by
  induction h with
  | nil => cases hrow
  | cons hm _ ih =>
    rcases List.mem_cons.mp hrow with rfl | hrow
    · exact ⟨_, List.mem_cons_self, hm⟩
    · obtain ⟨move, hmove, hm'⟩ := ih hrow
      exact ⟨move, .tail _ hmove, hm'⟩

/-- The leaf-moving events are the assignments `moves`, of stored entries, and a thread that has
selected a branch has the leaf it was last assigned. -/
structure Traced (codec : Codec Text) (db : Db Text)
    (moves : List (ThreadId × Option SessionEntryId)) : Prop where
  rows : List.Forall₂ (Assigns codec) (db.eventRecords.filter (·.movesLeaf)) moves
  stored : ∀ move ∈ moves, ∀ id, move.2 = some id → HasRow db.sessionEntries move.1 id
  leaves : ∀ thread ∈ db.selectedThreads,
    db.activeLeaves.lookup thread = (Map.lastWrite thread moves).getD none

theorem traced_empty : Traced codec .empty [] where
  rows := .nil
  stored := by simp
  leaves := by simp [Db.selectedThreads, Db.empty]

variable {db' : Db Text}

/-- **Events that assign the leaves they move keep the trace.** -/
theorem Traced.extend {later : List (ThreadId × Option SessionEntryId)} (h : Traced codec db moves)
    {events : List EventRecord}
    (hevents : db'.eventRecords = db.eventRecords ++ events.map (.of codec))
    (hrows : db.sessionEntries <+: db'.sessionEntries)
    (hassigns : List.Forall₂ (Assigns codec) (events.map (.of codec)) later)
    (hstored : ∀ move ∈ later, ∀ id, move.2 = some id → HasRow db'.sessionEntries move.1 id)
    (hleaves : ∀ thread, db'.activeLeaves.lookup thread =
      (Map.lastWrite thread later).getD (db.activeLeaves.lookup thread)) :
    Traced codec db' (moves ++ later) where
  rows := by
    have hmoving : (events.map (EventRow.of codec)).filter (·.movesLeaf) =
        events.map (.of codec) := by
      refine List.filter_eq_self.mpr fun row hrow => ?_
      obtain ⟨move, -, hm⟩ := assigned_of_mem hassigns hrow
      exact hm.2.movesLeaf
    rw [hevents, List.filter_append, hmoving]
    exact List.rel_append h.rows hassigns
  stored move hmove id hid := by
    obtain ⟨rows, hr⟩ := hrows
    rcases List.mem_append.mp hmove with hold | hnew
    · rw [← hr]
      exact (h.stored move hold id hid).append rows
    · exact hstored move hnew id hid
  leaves thread hthread := by
    rw [hleaves, Map.lastWrite_append]
    cases hlast : Map.lastWrite thread later with
    | some leaf => rfl
    | none =>
      -- the thread has no new event, so it had selected a branch before
      have hbefore : thread ∈ db.selectedThreads := by
        rw [Db.selectedThreads, hevents, List.filter_append, List.map_append,
          List.mem_append] at hthread
        refine hthread.resolve_right fun hnew => ?_
        obtain ⟨row, hrow, rfl⟩ := List.mem_map.mp hnew
        obtain ⟨move, hmove, hm⟩ :=
          assigned_of_mem hassigns (List.mem_filter.mp hrow).1
        have hsome : (Map.lastWrite row.coordinates.threadId later).isSome = true := by
          rw [Map.lastWrite, Option.isSome_map, List.getLast?_isSome]
          refine List.ne_nil_of_mem (List.mem_filter.mpr ⟨hmove, ?_⟩)
          simpa using hm.1.symm
        rw [hlast] at hsome
        cases hsome
      exact h.leaves thread hbefore

theorem Traced.clear (h : Traced codec db moves) {thread : ThreadId}
    (hevents : db'.eventRecords = db.eventRecords) (hrows : db'.sessionEntries = db.sessionEntries)
    (hleaves : db'.activeLeaves = db.activeLeaves.erase thread)
    (hclear : thread ∉ db.selectedThreads ∨ db.activeLeaves.lookup thread = none) :
    Traced codec db' moves where
  rows := by
    rw [hevents]
    exact h.rows
  stored := by
    rw [hrows]
    exact h.stored
  leaves thread' hthread := by
    rw [Db.selectedThreads, hevents] at hthread
    rw [hleaves, Map.lookup_erase, ← h.leaves thread' hthread]
    split
    · rename_i ht
      subst ht
      rcases hclear with hnone | hnone
      · exact absurd hthread hnone
      · exact hnone.symm
    · rfl

/-! ### One call -/

theorem assigns_sessionEntry (streamId : EventStreamId) (sequence : EventSequence) (draw : Draw)
    (entry : SessionEntry) (provenance : Option EventProvenance) :
    Assigns codec (.of codec (.fromNew streamId sequence (sessionEntryEvent draw entry provenance)))
      (entry.coordinates.threadId, some entry.entryId) := by
  unfold sessionEntryEvent
  split
  · exact ⟨rfl, .appended rfl rfl⟩
  · exact ⟨rfl, .appended rfl rfl⟩

theorem assigns_branchSelected (streamId : EventStreamId) (sequence : EventSequence) (draw : Draw)
    (c : ThreadCoordinates) (leaf prior : Option SessionEntryId) :
    Assigns codec (.of codec (.fromNew streamId sequence (branchSelectedEvent draw c leaf prior)))
      (c.threadId, leaf) := by
  have hselects : Selects codec
      (.of codec (.fromNew streamId sequence (branchSelectedEvent draw c leaf prior)))
      (ThreadBranchSelectedPayload.mk c.threadId leaf prior).selectedEntryId :=
    .selected rfl rfl rfl
  exact ⟨rfl, hselects⟩

theorem assigns_clones (streamId : EventStreamId) (draws : Nat → Draw)
    (cloned : List SessionEntry) (n index : Nat) :
    List.Forall₂ (Assigns codec)
      ((numbered streamId n (cloneEventsFrom draws index cloned)).map (.of codec))
      (cloned.map fun entry => (entry.coordinates.threadId, some entry.entryId)) := by
  induction cloned generalizing n index with
  | nil => exact .nil
  | cons entry cloned ih =>
    rw [cloneEventsFrom_cons, numbered, List.map_cons, List.map_cons]
    exact .cons (assigns_sessionEntry _ _ _ _ _) (ih (n + 1) (index + 1))

/-- The operations of the `SessionStore` trait. -/
def isSession : Op → Bool
  | .appendEvents _ _ | .appendEventsFenced _ _ _ => false
  | _                                             => true

/-- A call that clears its target's leaf without an event finds no leaf there, or no selection that
a rebuild would go by. -/
def ClearsTraced (db : Db Text) (call : Call) : Prop :=
  match call.op with
  | .cloneBranch _ none target | .forkByReference _ target _ =>
    target.threadId ∉ db.selectedThreads ∨ db.activeLeaves.lookup target.threadId = none
  | _ => True

instance (db : Db Text) : (call : Call) → Decidable (ClearsTraced db call)
  | ⟨_, _, .cloneBranch _ none _⟩ | ⟨_, _, .forkByReference _ _ _⟩ =>
    inferInstanceAs (Decidable (_ ∨ _))
  | ⟨_, _, .cloneBranch _ (some _) _⟩ | ⟨_, _, .append _ _ _ _⟩ | ⟨_, _, .appendTurnInput _ _ _⟩
  | ⟨_, _, .selectBranch _ _⟩ | ⟨_, _, .appendEvents _ _⟩ | ⟨_, _, .appendEventsFenced _ _ _⟩ =>
    inferInstanceAs (Decidable True)

theorem lookup_moved (leaves : Map ThreadId SessionEntryId) (thread : ThreadId)
    (leaf : Option SessionEntryId) (thread' : ThreadId) :
    (leaves.assign thread leaf).lookup thread' =
      (Map.lastWrite thread' [(thread, leaf)]).getD (leaves.lookup thread') := by
  rw [Map.lookup_assign, Map.lastWrite_singleton]
  by_cases h : thread' = thread
  · simp [h]
  · simp [h, Ne.symm h]

theorem Traced.step (h : Traced codec db moves) (hcount : Counted db) {call : Call}
    (hop : isSession call.op = true) (hclear : ClearsTraced db call) :
    ∃ moves', Traced codec (step codec call db).2 moves' := by
  rcases step_cases hcount call with heq | ⟨reply, hok⟩
  · rw [heq]
    exact ⟨moves, h⟩
  · generalize (Sqlite.step codec call db).2 = db' at hok
    cases hok with
    | append _ hentry _ _ | turnInput _ _ hentry _ _ =>
      subst hentry
      refine ⟨_, h.extend rfl (List.prefix_append _ _)
        (.cons (assigns_sessionEntry _ _ _ _ _) .nil) ?_
        (lookup_moved db.activeLeaves _ (some _))⟩
      intro move hmove id hid
      obtain rfl := List.mem_singleton.mp hmove
      cases hid
      exact hasRow_stored _ (List.mem_singleton_self _)
    | turnAgain => exact ⟨moves, h⟩
    | @selectBranch _ _ c leaf prior event _ hpath hevent _ =>
      subst hevent
      refine ⟨_, h.extend rfl List.prefix_rfl (.cons (assigns_branchSelected _ _ _ _ _ _) .nil) ?_
        (lookup_moved db.activeLeaves _ leaf)⟩
      intro move hmove id hid
      obtain rfl := List.mem_singleton.mp hmove
      obtain ⟨path, hp⟩ := hpath id hid
      exact hasRow_of_branchPath hp
    | cloneNone => exact ⟨moves, h.clear rfl rfl rfl hclear⟩
    | @cloneSome _ draws _ _ target _ cloned last _ hcloned hlast _ _ =>
      have htarget : ∀ entry ∈ cloned, entry.coordinates = target := fun entry he =>
        coordinates_cloneEntries (hcloned ▸ he)
      refine ⟨_, h.extend rfl (List.prefix_append _ _)
        (cloneEventsFrom_zero draws cloned ▸ assigns_clones _ draws cloned _ 0) ?_
        (fun thread => ?_)⟩
      · intro move hmove id hid
        obtain ⟨entry, he, rfl⟩ := List.mem_map.mp hmove
        cases hid
        exact hasRow_stored _ he
      · change (db.activeLeaves.insert target.threadId last.entryId).lookup thread = _
        rw [Map.lookup_insert]
        split
        · rename_i ht
          have hall : (cloned.map fun entry =>
              (entry.coordinates.threadId, some entry.entryId)).filter
                (fun move => move.1 = thread) =
              cloned.map fun entry => (entry.coordinates.threadId, some entry.entryId) := by
            refine List.filter_eq_self.mpr fun move hmove => ?_
            obtain ⟨entry, he, rfl⟩ := List.mem_map.mp hmove
            simp [htarget entry he, ht]
          rw [Map.lastWrite, hall, List.getLast?_map, hlast]
          rfl
        · rename_i ht
          rw [Map.lastWrite_of_notMem]
          · rfl
          · intro move hmove
            obtain ⟨entry, he, rfl⟩ := List.mem_map.mp hmove
            rw [htarget entry he]
            exact Ne.symm ht
    | fork => exact ⟨moves, h.clear rfl rfl rfl hclear⟩
    | events | fenced => cases hop

/-! ### The rebuild -/

theorem Assigns.restores (hw : Written codec db) (hr : ReadsBack codec db)
    (hrow : row ∈ db.eventRecords) {move : ThreadId × Option SessionEntryId}
    (ha : Assigns codec row move)
    (hstored : ∀ id, move.2 = some id → HasRow db.sessionEntries move.1 id) :
    restores codec db row = true ∧ assignment codec row = move := by
  obtain ⟨thread, selected⟩ := move
  obtain ⟨rfl, hselects⟩ := ha
  have hselected := selectedEntryOf_ok hr hrow hselects
  refine ⟨restores_iff.mpr ⟨selected, hselected, fun id hid => ?_⟩, ?_⟩
  · exact load_of_hasRow hw hr (hstored id hid)
  · rw [assignment, hselected]
    rfl

theorem Traced.assignments (hw : Written codec db) (hr : ReadsBack codec db)
    (h : Traced codec db moves) :
    (db.eventRecords.filter (·.movesLeaf)).map (assignment codec) = moves := by
  have hgen : ∀ (rows : List (EventRow Text)) (moves : List (ThreadId × Option SessionEntryId)),
      List.Forall₂ (Assigns codec) rows moves → (∀ row ∈ rows, row ∈ db.eventRecords) →
      (∀ move ∈ moves, ∀ id, move.2 = some id → HasRow db.sessionEntries move.1 id) →
      rows.map (assignment codec) = moves := by
    intro rows moves ha
    induction ha with
    | nil => exact fun _ _ => rfl
    | cons hm _ ih =>
      intro hrows hstored
      rw [List.map_cons, ih (fun r hr => hrows r (.tail _ hr)) fun m hm => hstored m (.tail _ hm)]
      rw [(hm.restores hw hr (hrows _ List.mem_cons_self) (hstored _ List.mem_cons_self)).2]
  exact hgen _ _ h.rows (fun row hrow => (List.mem_filter.mp hrow).1) h.stored

/-- **A traced database rebuilds to its own leaves.** -/
theorem rebuild_ok (hw : Written codec db) (hr : ReadsBack codec db) (h : Traced codec db moves) :
    ∃ leaves : Map ThreadId SessionEntryId,
      sqliteRebuildActiveLeavesFromEvents codec db = .ok { db with activeLeaves := leaves } ∧
      ∀ thread, leaves.lookup thread = db.activeLeaves.lookup thread := by
  have hreopens : Reopens codec db := by
    intro row hrow
    obtain ⟨hmem, hmoves, -⟩ := mem_folded.mp hrow
    obtain ⟨move, hmove, hassigns⟩ := assigned_of_mem h.rows (List.mem_filter.mpr ⟨hmem, hmoves⟩)
    exact (hassigns.restores hw hr hmem (h.stored move hmove)).1
  refine ⟨_, rebuild_ok_iff.mpr ⟨hreopens, rfl⟩, fun thread => ?_⟩
  rw [rebuild_lookup, h.assignments hw hr]
  by_cases hselected : thread ∈ db.selectedThreads
  · rw [if_pos hselected, h.leaves thread hselected]
  · rw [if_neg hselected]

/-! ### Reopening after every call -/

/-- What a call brings can be folded when the database is next opened. -/
def FoldableCall (codec : Codec Text) (db : Db Text) (call : Call) : Prop :=
  match call.op with
  | .appendEvents _ records | .appendEventsFenced _ _ records =>
    Foldable codec db (batchRows codec records)
  | .selectBranch coordinates _ => ∀ row ∈ db.eventRecords, row.movesLeaf = true →
      row.coordinates.threadId = coordinates.threadId → restores codec db row = true
  | _ => True

instance (db : Db Text) : (call : Call) → Decidable (FoldableCall codec db call)
  | ⟨_, _, .appendEvents _ _⟩ | ⟨_, _, .appendEventsFenced _ _ _⟩ =>
    inferInstanceAs (Decidable (Foldable _ _ _))
  | ⟨_, _, .selectBranch _ _⟩ => inferInstanceAs (Decidable (∀ row ∈ _, _))
  | ⟨_, _, .append _ _ _ _⟩ | ⟨_, _, .appendTurnInput _ _ _⟩ | ⟨_, _, .cloneBranch _ _ _⟩
  | ⟨_, _, .forkByReference _ _ _⟩ => inferInstanceAs (Decidable True)

theorem sessionEntryEvent_kind (draw : Draw) (entry : SessionEntry)
    (provenance : Option EventProvenance) :
    (sessionEntryEvent draw entry provenance).kind = .sessionEntryAppended := by
  unfold sessionEntryEvent
  split <;> rfl

theorem selectedIn_entries {streamId : EventStreamId} {n : Nat} {records : List NewEventRecord}
    (h : ∀ record ∈ records, record.kind = .sessionEntryAppended) :
    selectedIn ((numbered streamId n records).map (.of codec)) = [] := by
  refine selectedIn_appended fun row hrow => ?_
  obtain ⟨event, hevent, rfl⟩ := List.mem_map.mp hrow
  obtain ⟨record, hrecord, _, rfl⟩ := mem_numbered hevent
  exact congrArg EventKind.asRef (h record hrecord)

/-- Rows that assign stored entries keep a database reopening, where the threads they select a
branch of can be folded from the start. -/
theorem Reopens.assigned (h : Reopens codec db) (hw : Written codec db') (hr : ReadsBack codec db')
    (hentries : db.sessionEntries <+: db'.sessionEntries) {rows : List (EventRow Text)}
    (hevents : db'.eventRecords = db.eventRecords ++ rows)
    (hassigns : List.Forall₂ (Assigns codec) rows moves)
    (hstored : ∀ move ∈ moves, ∀ id, move.2 = some id → HasRow db'.sessionEntries move.1 id)
    (hearlier : ∀ row ∈ db.eventRecords, row.movesLeaf = true →
      row.coordinates.threadId ∈ selectedIn rows → Sqlite.restores codec db row = true) :
    Reopens codec db' := by
  have hgrown : Reopens codec { db with sessionEntries := db'.sessionEntries } :=
    h.mono hentries rfl
  refine (reopens_append { db with sessionEntries := db'.sessionEntries } hevents rfl).mpr
    ⟨hgrown, fun row hrow _ _ => ?_, fun row hrow hm ht => restores_mono hentries (hearlier row hrow hm ht)⟩
  obtain ⟨move, hmove, ha⟩ := assigned_of_mem hassigns hrow
  have hmem : row ∈ db'.eventRecords := hevents ▸ List.mem_append_right _ hrow
  exact (restores_congr rfl rfl rfl rfl).trans (ha.restores hw hr hmem (hstored move hmove)).1

/-- **What can be folded keeps a database reopening.** -/
theorem Reopens.step (h : Reopens codec db) (hcount : Counted db) (hw : Written codec db)
    {call : Call} (hr : ReadsBack codec (Sqlite.step codec call db).2)
    (hcall : FoldableCall codec db call) : Reopens codec (Sqlite.step codec call db).2 := by
  have hw' := hw.step hcount call
  rcases step_cases hcount call with heq | ⟨reply, hok⟩
  · rwa [heq]
  · generalize (Sqlite.step codec call db).2 = db' at hok hr hw'
    cases hok with
    | append _ hentry _ _ | turnInput _ _ hentry _ _ =>
      subst hentry
      refine h.assigned hw' hr (List.prefix_append _ _) rfl
        (.cons (assigns_sessionEntry _ _ _ _ _) .nil) ?_ ?_
      · intro move hmove id hid
        obtain rfl := List.mem_singleton.mp hmove
        cases hid
        exact hasRow_stored _ (List.mem_singleton_self _)
      · intro row _ _ ht
        rw [selectedIn_entries] at ht
        · cases ht
        · intro record hrecord
          obtain rfl := List.mem_singleton.mp hrecord
          exact sessionEntryEvent_kind _ _ _
    | turnAgain => exact h
    | @selectBranch _ _ c leaf prior event _ hpath hevent _ =>
      subst hevent
      refine h.assigned hw' hr List.prefix_rfl rfl
        (.cons (assigns_branchSelected _ _ _ _ _ _) .nil) ?_ ?_
      · intro move hmove id hid
        obtain rfl := List.mem_singleton.mp hmove
        obtain ⟨path, hp⟩ := hpath id hid
        exact hasRow_of_branchPath hp
      · intro row hrow hm ht
        obtain ⟨selects, hselects, -, heq⟩ := mem_selectedIn.mp ht
        obtain rfl := List.mem_singleton.mp hselects
        exact hcall row hrow hm heq.symm
    | cloneNone | fork => exact h.mono List.prefix_rfl rfl
    | @cloneSome _ draws _ _ target _ cloned last _ hcloned hlast _ _ =>
      refine h.assigned hw' hr (List.prefix_append _ _) rfl
        (cloneEventsFrom_zero draws cloned ▸ assigns_clones _ draws cloned _ 0) ?_ ?_
      · intro move hmove id hid
        obtain ⟨entry, he, rfl⟩ := List.mem_map.mp hmove
        cases hid
        exact hasRow_stored _ he
      · intro row _ _ ht
        rw [selectedIn_entries] at ht
        · cases ht
        · intro record hrecord
          rw [← cloneEventsFrom_zero] at hrecord
          obtain ⟨i, hi, rfl⟩ := List.mem_mapIdx.mp hrecord
          exact sessionEntryEvent_kind _ _ _
    | events | fenced =>
      refine Iff.mpr (reopens_append db rfl rfl) ⟨h, ?_⟩
      exact Foldable.congr (content_numbered _ _ _) hcall

/-! ### Whole runs -/

theorem traced_run {calls : List Call} (hops : ∀ call ∈ calls, isSession call.op = true)
    (hclears : Along (step codec) ClearsTraced calls .empty) :
    ∃ moves, Traced codec (run (step codec) calls .empty) moves := by
  have hgen : ∀ (calls : List Call) (db : Db Text), (∀ call ∈ calls, isSession call.op = true) →
      Along (step codec) ClearsTraced calls db → Counted db → (∃ moves, Traced codec db moves) →
      ∃ moves, Traced codec (run (step codec) calls db) moves := by
    intro calls
    induction calls with
    | nil => exact fun _ _ _ _ h => h
    | cons call calls ih =>
      intro db hops hclears hcount ⟨moves, h⟩
      exact ih _ (fun c hc => hops c (.tail _ hc)) hclears.2 (hcount.step call)
        (h.step hcount (hops call List.mem_cons_self) hclears.1)
  exact hgen calls .empty hops hclears counted_empty ⟨[], traced_empty⟩

theorem written_run (codec : Codec Text) (calls : List Call) :
    Written codec (run (step codec) calls .empty) :=
  (run_invariant (P := fun db => Counted db ∧ Written codec db)
    (fun _ call h => ⟨h.1.step call, h.2.step h.1 call⟩) calls
    ⟨counted_empty, by simp [Written, Db.empty]⟩).2

/-- **Active leaves are derivable from the journal.**  After any session operations, among which
every clone without a leaf and every fork targets a thread that has no active leaf or no branch
selection, reopening the store leaves every thread's active leaf as it was. -/
theorem active_leaves_rebuilt (codec : Codec Text) (calls : List Call)
    (hops : ∀ call ∈ calls, isSession call.op = true)
    (hclears : Along (step codec) ClearsTraced calls .empty)
    (hreads : ReadsBack codec (run (step codec) calls .empty)) :
    ∃ db', exec (reopen codec) (run (step codec) calls .empty) = (.ok (), db') ∧
      ∀ thread, db'.activeLeaves.lookup thread =
        (run (step codec) calls .empty).activeLeaves.lookup thread := by
  obtain ⟨moves, htrace⟩ := traced_run hops hclears
  obtain ⟨leaves, hok, hsame⟩ := rebuild_ok (written_run codec calls) hreads htrace
  exact ⟨_, transaction_ok.mpr (execute_ok.mpr hok), hsame⟩

/-! ### Samples -/

/-- An entry in thread 1, selected. -/
def sampleSelected : List Call :=
  [.counted 0 1 (.append (.counted "user" 1) none (.said "first") none),
   .counted 0 2 (.selectBranch (.counted "user" 1) (some (.counted 1)))]

/-- A fork of a thread onto another, reading its live branch. -/
def sampleForkOnto (parent child : Nat) : Op :=
  .forkByReference (.counted "user" parent) (.counted "user" child) (.counted parent child none)

/-- The database after the selection and an operation. -/
def sampleAfter (op : Op) : Db Stored :=
  run (step .tagged) (sampleSelected ++ [.counted 0 3 op]) .empty

/-- The active leaf of thread 1. -/
def sampleLeaf (db : Db Stored) : Option SessionEntryId :=
  db.activeLeaves.lookup (ThreadCoordinates.counted "user" 1).threadId

set_option maxRecDepth 100000 in
/-- A fork onto thread 1, or a clone without a leaf, clears its leaf; reopening the store brings
the selected one back. -/
theorem unjournaled_clear_undone :
    sampleLeaf (sampleAfter (sampleForkOnto 2 1)) = none ∧
    sampleLeaf (exec (reopen .tagged) (sampleAfter (sampleForkOnto 2 1))).2 = some (.counted 1) ∧
    sampleLeaf (sampleAfter (.cloneBranch (.counted "user" 2) none (.counted "user" 1))) = none ∧
    sampleLeaf (exec (reopen .tagged)
      (sampleAfter (.cloneBranch (.counted "user" 2) none (.counted "user" 1)))).2 =
        some (.counted 1) := by
  decide

set_option maxRecDepth 100000 in
/-- A fork of thread 1 onto a new thread leaves its leaf alone. -/
theorem active_leaves_rebuilt_sample :
    ∃ db', exec (reopen .tagged) (sampleAfter (sampleForkOnto 1 2)) = (.ok (), db') ∧
      ∀ thread, db'.activeLeaves.lookup thread =
        (sampleAfter (sampleForkOnto 1 2)).activeLeaves.lookup thread :=
  active_leaves_rebuilt .tagged _ (by decide) (by decide) (readsBack_tagged _)

end Verlet.History.Sqlite
