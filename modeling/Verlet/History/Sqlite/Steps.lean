import Verlet.History.InMemory.Steps
import Verlet.History.Sqlite.Statements

/-!
# History — SQLite store — Steps

What a call can do to the database, said once, in the words of the in-memory store's steps.
-/

namespace Verlet.History.Sqlite
open Support History.InMemory

variable {Text : Type} {codec : Codec Text}

/-! ### The operations -/

/-- The entry's event and the entry are stored, and the entry is the active leaf. -/
def Db.takeEntry (codec : Codec Text) (db : Db Text) (leaseEpoch : Nat) (event : NewEventRecord)
    (entry : SessionEntry) : Db Text :=
  { db.journal codec leaseEpoch (.forThread entry.coordinates) [event] with
    sessionEntries := db.sessionEntries ++ [.of codec entry]
    activeLeaves := db.activeLeaves.insert entry.coordinates.threadId entry.entryId }

variable {db db' : Db Text} {leaseEpoch : Nat} {draw : Draw} {entry : SessionEntry}

theorem storeEntry_ok (hcount : Counted db) {entry' : SessionEntry}
    {provenance : Option EventProvenance} :
    storeEntry codec leaseEpoch draw entry provenance db = .ok (entry', db') ↔
      Storable db.sessionEntries entry ∧
      Journaled db leaseEpoch (.forThread entry.coordinates)
        [sessionEntryEvent draw entry provenance] ∧
      entry' = entry ∧
      db' = db.takeEntry codec leaseEpoch (sessionEntryEvent draw entry provenance) entry := by
  have hn : sqliteNextEventSequence { db with
      journalLeaseEpochs := raiseLease db.journalLeaseEpochs (.forThread entry.coordinates) leaseEpoch }
        (.forThread entry.coordinates) = db.count (.forThread entry.coordinates) + 1 :=
    hcount.next _
  simp only [storeEntry, tx_bind_ok, execute_ok, sqliteEnforceLeaseEpoch_ok, upsertActiveLeaf_ok,
    tx_pure_ok, exists_const]
  constructor
  · rintro ⟨_, ⟨hl, rfl⟩, _, _, h, _, ⟨-, rfl⟩, rfl, rfl⟩
    obtain ⟨hs, ha, rfl⟩ := (sqliteInsertEntry_ok hn).mp h
    exact ⟨hs, ⟨hl, ha⟩, rfl, rfl⟩
  · rintro ⟨hs, ⟨hl, ha⟩, rfl, rfl⟩
    refine ⟨_, ⟨hl, rfl⟩, (), _, (sqliteInsertEntry_ok hn).mpr ⟨hs, ha, rfl⟩, _, ⟨?_, rfl⟩, rfl, rfl⟩
    exact hasEntry_insertEntries (List.mem_singleton_self _)

variable {c : ThreadCoordinates}

theorem appendInner_ok (hcount : Counted db) {parentArg : Option SessionEntryId}
    {kind : SessionEntryKind} {provenance : Option EventProvenance} :
    exec (appendInner codec leaseEpoch draw c parentArg kind provenance) db = (.ok entry, db') ↔
      ∃ parent, resolveParent codec c parentArg db = .ok parent ∧
        entry = SessionEntry.new draw c parent kind ∧ Storable db.sessionEntries entry ∧
        Journaled db leaseEpoch (.forThread c) [sessionEntryEvent draw entry provenance] ∧
        db' = db.takeEntry codec leaseEpoch (sessionEntryEvent draw entry provenance) entry := by
  simp only [appendInner, transaction_ok, query_bind_ok, storeEntry_ok hcount]
  refine exists_congr fun parent => and_congr_right fun _ => ?_
  constructor
  · rintro ⟨hs, hj, rfl, rfl⟩
    exact ⟨rfl, hs, hj, rfl⟩
  · rintro ⟨rfl, hs, hj, rfl⟩
    exact ⟨hs, hj, rfl, rfl⟩

theorem appendTurnInput_ok (hcount : Counted db) {turnId : String} {kind : SessionEntryKind} :
    exec (appendTurnInput codec leaseEpoch draw c turnId kind) db = (.ok entry, db') ↔
      (turnEntryAt codec c.threadId turnId db = .ok (some entry) ∧ entry.coordinates = c ∧
        turnInputKindsMatch entry.kind kind ∧ db' = db) ∨
      ∃ parent, turnEntryAt codec c.threadId turnId db = .ok none ∧
        activeLeaf codec c db = .ok parent ∧
        entry = SessionEntry.forTurn draw c parent turnId kind ∧
        Storable db.sessionEntries entry ∧
        Journaled db leaseEpoch (.forThread c) [sessionEntryEvent draw entry none] ∧
        db' = db.takeEntry codec leaseEpoch (sessionEntryEvent draw entry none) entry := by
  have hkind : ∀ existing : SessionEntry,
      (if turnInputKindsMatch existing.kind kind then .ok ()
        else .error (.storage (.turnInputMismatch turnId)) : HistoryResult Unit) = .ok () ↔
      turnInputKindsMatch existing.kind kind := by
    intro existing
    split <;> simp [*]
  simp only [appendTurnInput, transaction_ok, query_bind_ok]
  cases hturn : turnEntryAt codec c.threadId turnId db with
  | error e => simp
  | ok existing? =>
    cases existing? with
    | some existing =>
      simp only [Except.ok.injEq, exists_eq_left', query_bind_ok, exists_unit_ok,
        validateEntryCoordinates_ok, hkind, tx_pure_ok, exists_const, Option.some.injEq,
        reduceCtorEq, false_and, exists_const, or_false]
      constructor
      · rintro ⟨hc, hk, rfl, rfl⟩
        exact ⟨rfl, hc, hk, rfl⟩
      · rintro ⟨rfl, hc, hk, rfl⟩
        exact ⟨hc, hk, rfl, rfl⟩
    | none =>
      simp only [Except.ok.injEq, exists_eq_left', query_bind_ok, storeEntry_ok hcount,
        reduceCtorEq, false_and, false_or, true_and]
      refine exists_congr fun parent => and_congr_right fun _ => ?_
      constructor
      · rintro ⟨hs, hj, rfl, rfl⟩
        exact ⟨rfl, hs, hj, rfl⟩
      · rintro ⟨rfl, hs, hj, rfl⟩
        exact ⟨hs, hj, rfl, rfl⟩

/-! ### Branches -/

/-- What `sqlite_branch_path` does with one entry id. -/
def loadEntry (codec : Codec Text) (db : Db Text) (c : ThreadCoordinates) (id : SessionEntryId) :
    HistoryResult SessionEntry := do
  let entry ← okOr (.entryNotFound id) (← sqliteLoadEntry codec db c.threadId id)
  validateEntryCoordinates c entry
  return entry

theorem okOr_ok {α : Type} {error : HistoryError} {o : Option α} {a : α} :
    okOr error o = .ok a ↔ o = some a := by
  cases o <;> simp

theorem loadEntry_ok {id : SessionEntryId} :
    loadEntry codec db c id = .ok entry ↔
      sqliteLoadEntry codec db c.threadId id = .ok (some entry) ∧ entry.coordinates = c := by
  simp only [loadEntry, bind_ok, exists_unit_ok, pure_ok, validateEntryCoordinates_ok, okOr_ok]
  constructor
  · rintro ⟨_, hl, _, rfl, hc, rfl⟩
    exact ⟨hl, hc⟩
  · rintro ⟨hl, hc⟩
    exact ⟨_, hl, _, rfl, hc, rfl⟩

variable {leaf : SessionEntryId} {path : List SessionEntry}

theorem sqliteBranchPath_ok :
    sqliteBranchPath codec db c leaf = .ok path ↔
      follow (loadEntry codec db c) (·.parentEntryId) (db.sessionEntries.length + 1) (some leaf) [] =
        some (.ok path) := by
  change Option.getD (follow (loadEntry codec db c) _ _ _ _) _ = _ ↔ _
  cases follow (loadEntry codec db c) (·.parentEntryId) (db.sessionEntries.length + 1) (some leaf) []
  <;> simp

theorem hasEntry_of_load {thread : ThreadId} {id : SessionEntryId}
    (h : sqliteLoadEntry codec db thread id = .ok (some entry)) : db.hasEntry id = true := by
  unfold sqliteLoadEntry at h
  split at h
  · rename_i row hrow
    have hp : row.coordinates.threadId = thread ∧ row.entryId = id := by
      simpa using List.find?_some hrow
    exact hasEntry_iff.mpr ⟨row, List.mem_of_find?_eq_some hrow, hp.2⟩
  · cases h

theorem sqliteBranchPath_leaf (h : sqliteBranchPath codec db c leaf = .ok path) :
    path ≠ [] ∧ db.hasEntry leaf = true := by
  rw [sqliteBranchPath_ok] at h
  obtain ⟨chain, rfl, hne⟩ := follow_gathers h
  obtain ⟨entry, he⟩ := follow_first h
  exact ⟨by simpa using hne rfl, hasEntry_of_load (loadEntry_ok.mp he).1⟩

def Db.moveLeaf (db : Db Text) (thread : ThreadId) (leaf : Option SessionEntryId) : Db Text :=
  { db with activeLeaves := db.activeLeaves.assign thread leaf }

theorem selectBranch_ok (hcount : Counted db) {leaf : Option SessionEntryId} {u : Unit} :
    exec (selectBranch codec leaseEpoch draw c leaf) db = (.ok u, db') ↔
      ∃ prior, activeLeaf codec c db = .ok prior ∧
        (∀ l, leaf = some l → ∃ path, sqliteBranchPath codec db c l = .ok path) ∧
        Journaled db leaseEpoch (.forThread c) [branchSelectedEvent draw c leaf prior] ∧
        db' = (db.journal codec leaseEpoch (.forThread c)
          [branchSelectedEvent draw c leaf prior]).moveLeaf c.threadId leaf := by
  have hn : sqliteNextEventSequence { db with
      journalLeaseEpochs := raiseLease db.journalLeaseEpochs (.forThread c) leaseEpoch }
        (.forThread c) = db.count (.forThread c) + 1 := hcount.next _
  -- the fence and the event, with whatever follows them
  have htail : ∀ (prior : Option SessionEntryId) (k : StoreTx Text Unit),
      (do
        execute (sqliteEnforceLeaseEpoch (.forThread c) leaseEpoch)
        discard <| sqliteInsertEvent codec (.forThread c) (branchSelectedEvent draw c leaf prior)
        k : StoreTx Text Unit) db = .ok (u, db') ↔
      Journaled db leaseEpoch (.forThread c) [branchSelectedEvent draw c leaf prior] ∧
        k (db.journal codec leaseEpoch (.forThread c) [branchSelectedEvent draw c leaf prior]) =
          .ok (u, db') := by
    intro prior k
    simp only [execute_bind_ok, sqliteEnforceLeaseEpoch_ok, discard_bind_ok]
    constructor
    · rintro ⟨_, ⟨hl, rfl⟩, event, _, he, hk⟩
      obtain ⟨ha, -, rfl⟩ := (sqliteInsertEvent_batch hn).mp he
      exact ⟨⟨hl, ha⟩, hk⟩
    · rintro ⟨⟨hl, ha⟩, hk⟩
      exact ⟨_, ⟨hl, rfl⟩, _, _, (sqliteInsertEvent_batch hn).mpr ⟨ha, rfl, rfl⟩, hk⟩
  cases leaf with
  | none =>
    simp only [selectBranch, transaction_ok, query_bind_ok]
    refine exists_congr fun prior => and_congr_right fun _ => ?_
    refine (htail prior (execute (deleteActiveLeaf c.threadId))).trans ?_
    simp only [execute_ok, deleteActiveLeaf, Except.ok.injEq, reduceCtorEq, false_implies,
      implies_true, true_and]
    exact and_congr_right' eq_comm
  | some leaf =>
    simp only [selectBranch, transaction_ok, query_bind_ok]
    refine exists_congr fun prior => and_congr_right fun _ => ?_
    rw [discard_bind_ok]
    simp only [query_ok, Option.some.injEq, forall_eq']
    constructor
    · rintro ⟨path, _, ⟨hp, rfl⟩, h⟩
      obtain ⟨hj, hk⟩ := (htail prior (execute (upsertActiveLeaf c.threadId leaf))).mp h
      exact ⟨⟨path, hp⟩, hj, (upsertActiveLeaf_ok.mp (execute_ok.mp hk)).2⟩
    · rintro ⟨⟨path, hp⟩, hj, rfl⟩
      refine ⟨path, db, ⟨hp, rfl⟩,
        (htail prior (execute (upsertActiveLeaf c.threadId leaf))).mpr ⟨hj, ?_⟩⟩
      exact execute_ok.mpr (upsertActiveLeaf_ok.mpr ⟨(sqliteBranchPath_leaf hp).2, rfl⟩)

/-! ### Clones and forks -/

/-- The events of cloned entries, from the draw at `index` on. -/
def cloneEventsFrom (draws : Nat → Draw) (index : Nat) (entries : List SessionEntry) :
    List NewEventRecord :=
  entries.mapIdx fun i entry => sessionEntryEvent (draws (index + i)) entry none

theorem cloneEventsFrom_zero (draws : Nat → Draw) (entries : List SessionEntry) :
    cloneEventsFrom draws 0 entries = cloneEvents draws entries := by
  simp [cloneEventsFrom, cloneEvents]

theorem cloneEventsFrom_cons (draws : Nat → Draw) (index : Nat) (entry : SessionEntry)
    (entries : List SessionEntry) :
    cloneEventsFrom draws index (entry :: entries) =
      sessionEntryEvent (draws index) entry none :: cloneEventsFrom draws (index + 1) entries := by
  simp [cloneEventsFrom, List.mapIdx_cons, Nat.add_assoc, Nat.add_comm 1]

variable {draws : Nat → Draw} {target : ThreadCoordinates}

theorem insertClones_ok {index : Nat} {parent last : Option SessionEntryId} {n : Nat}
    (hn : sqliteNextEventSequence db (.forThread target) = n + 1) :
    insertClones codec draws target path index parent db = .ok (last, db') ↔
      ∃ cloned, cloned = cloneEntries draws target path index parent ∧
        StorableAll codec db.sessionEntries cloned ∧
        Admissible db.hasEvent (.forThread target) n (cloneEventsFrom draws index cloned) ∧
        last = (cloned.getLast?.map (·.entryId)).or parent ∧
        db' = (db.insertEntries codec cloned).insertEvents codec
          (numbered (.forThread target) n (cloneEventsFrom draws index cloned)) := by
  induction path generalizing index parent last db n with
  | nil =>
    simp only [insertClones, tx_pure_ok, cloneEntries, exists_eq_left, StorableAll,
      cloneEventsFrom, List.mapIdx_nil, numbered, Db.insertEntries, Db.insertEvents, List.map_nil,
      List.append_nil, List.getLast?_nil, Option.map_none, Option.none_or, true_and]
    constructor
    · rintro ⟨rfl, rfl⟩
      exact ⟨admissible_nil _ _, rfl, rfl⟩
    · rintro ⟨-, rfl, rfl⟩
      exact ⟨rfl, rfl⟩
  | cons source path ih =>
    obtain ⟨entry, hentry⟩ : ∃ e, e = SessionEntry.new (draws index) target parent source.kind :=
      ⟨_, rfl⟩
    have hcoords : entry.coordinates = target := by rw [hentry]; rfl
    have hn₀ : sqliteNextEventSequence db (.forThread entry.coordinates) = n + 1 := by
      rw [hcoords, hn]
    -- the entry and its event are in; the rest goes on from there
    obtain ⟨db₁, hdb₁⟩ : ∃ db₁, db₁ = (db.insertEntries codec [entry]).insertEvents codec
        (numbered (.forThread target) n [sessionEntryEvent (draws index) entry none]) := ⟨_, rfl⟩
    have hn₁ : sqliteNextEventSequence db₁ (.forThread target) = ((n + 1 : Nat) : Int) + 1 := by
      have hbefore : sqliteNextEventSequence (db.insertEntries codec [entry])
          (.forThread target) = n + 1 := hn
      rw [hdb₁, next_insertEvents hbefore, if_pos rfl, List.length_singleton]
    have htaken : db₁.hasEvent = fun id => db.hasEvent id ∨
        id = (sessionEntryEvent (draws index) entry none).id := by
      funext id
      rw [hdb₁, hasEvent_insertEvents, map_id_numbered]
      simp only [List.map_cons, List.map_nil, List.mem_singleton]
      rfl
    have hrows : db₁.sessionEntries = db.sessionEntries ++ [.of codec entry] := by
      rw [hdb₁]
      rfl
    have hdb : ∀ rest : List SessionEntry, (db₁.insertEntries codec rest).insertEvents codec
        (numbered (.forThread target) (n + 1) (cloneEventsFrom draws (index + 1) rest)) =
        (db.insertEntries codec (entry :: rest)).insertEvents codec
          (numbered (.forThread target) n (cloneEventsFrom draws index (entry :: rest))) := by
      intro rest
      rw [hdb₁, cloneEventsFrom_cons]
      simp [Db.insertEntries, Db.insertEvents, numbered]
    have hlast : ∀ rest : List SessionEntry,
        (rest.getLast?.map (·.entryId)).or (some entry.entryId) =
          ((entry :: rest).getLast?.map (·.entryId)).or parent := by
      intro rest
      rw [List.getLast?_cons]
      cases rest.getLast? <;> rfl
    simp only [insertClones, cloneEntries, ← hentry, tx_bind_ok, exists_eq_left]
    constructor
    · rintro ⟨_, _, hfirst, hrest⟩
      obtain ⟨hs, ha, rfl⟩ := (sqliteInsertEntry_ok hn₀).mp hfirst
      rw [hcoords] at ha hrest
      rw [← hdb₁] at hrest
      obtain ⟨_, rfl, hss, has, rfl, rfl⟩ := (ih hn₁).mp hrest
      rw [hrows] at hss
      rw [htaken] at has
      obtain ⟨hv, hf, hx, -⟩ := admissible_cons.mp ha
      refine ⟨⟨hs, hss⟩, ?_, hlast _, hdb _⟩
      rw [cloneEventsFrom_cons]
      exact admissible_cons.mpr ⟨hv, hf, hx, has⟩
    · rintro ⟨⟨hs, hss⟩, ha, rfl, rfl⟩
      rw [cloneEventsFrom_cons] at ha
      obtain ⟨hv, hf, hx, has⟩ := admissible_cons.mp ha
      refine ⟨(), db₁, (sqliteInsertEntry_ok hn₀).mpr ⟨hs, ?_, ?_⟩, (ih hn₁).mpr
        ⟨_, rfl, ?_, ?_, (hlast _).symm, (hdb _).symm⟩⟩
      · rw [hcoords]
        exact admissible_cons.mpr ⟨hv, hf, hx, admissible_nil _ _⟩
      · rw [hdb₁, hcoords]
      · rw [hrows]
        exact hss
      · rw [htaken]
        exact has

/-- The target thread holds the cloned entries, is on its own, and the last of them is its leaf. -/
def Db.takeClone (codec : Codec Text) (db : Db Text) (leaseEpoch : Nat) (draws : Nat → Draw)
    (target : ThreadCoordinates) (cloned : List SessionEntry) (last : SessionEntry) : Db Text :=
  { db.journal codec leaseEpoch (.forThread target) (cloneEvents draws cloned) with
    sessionEntries := db.sessionEntries ++ cloned.map (.of codec)
    threadBases := db.threadBases.erase target.threadId
    activeLeaves := db.activeLeaves.insert target.threadId last.entryId }

variable {source : ThreadCoordinates}

theorem cloneBranch_none_ok {leaf : Option SessionEntryId} :
    exec (cloneBranch codec leaseEpoch draws source none target) db = (.ok leaf, db') ↔
      leaf = none ∧ db' = { db with
        threadBases := db.threadBases.erase target.threadId
        activeLeaves := db.activeLeaves.erase target.threadId } := by
  simp only [cloneBranch, transaction_ok, execute_bind_ok, deleteThreadBase, deleteActiveLeaf,
    Except.ok.injEq, exists_eq_left', tx_pure_ok]
  exact and_congr eq_comm eq_comm

theorem cloneBranch_some_ok (hcount : Counted db) {sourceLeaf : SessionEntryId}
    {leaf : Option SessionEntryId} :
    exec (cloneBranch codec leaseEpoch draws source (some sourceLeaf) target) db = (.ok leaf, db') ↔
      ∃ path cloned last, sqliteBranchPath codec db source sourceLeaf = .ok path ∧
        cloned = cloneEntries draws target path 0 none ∧ cloned.getLast? = some last ∧
        StorableAll codec db.sessionEntries cloned ∧
        Journaled db leaseEpoch (.forThread target) (cloneEvents draws cloned) ∧
        leaf = some last.entryId ∧ db' = db.takeClone codec leaseEpoch draws target cloned last := by
  obtain ⟨db₁, hdb₁⟩ : ∃ db₁ : Db Text, db₁ = { db with
      threadBases := db.threadBases.erase target.threadId
      journalLeaseEpochs := raiseLease db.journalLeaseEpochs (.forThread target) leaseEpoch } :=
    ⟨_, rfl⟩
  have hn : sqliteNextEventSequence db₁ (.forThread target) = db.count (.forThread target) + 1 := by
    rw [hdb₁]
    exact hcount.next _
  have hpath : sqliteBranchPath codec
      { db with threadBases := db.threadBases.erase target.threadId } source sourceLeaf =
        sqliteBranchPath codec db source sourceLeaf := rfl
  simp only [cloneBranch, transaction_ok, execute_bind_ok, deleteThreadBase, Except.ok.injEq,
    exists_eq_left', query_bind_ok, hpath, sqliteEnforceLeaseEpoch_ok, ← hdb₁]
  constructor
  · rintro ⟨path, hp, _, ⟨hl, rfl⟩, h⟩
    obtain ⟨latest, db₂, hclones, h⟩ := tx_bind_ok.mp h
    obtain ⟨cloned, hcloned, hss, ha, rfl, rfl⟩ := (insertClones_ok hn).mp hclones
    have hne : cloned ≠ [] := by
      rw [hcloned, ← List.length_pos_iff, length_cloneEntries, List.length_pos_iff]
      exact (sqliteBranchPath_leaf hp).1
    obtain ⟨last, hlast⟩ := Option.isSome_iff_exists.mp (List.getLast?_isSome.mpr hne)
    rw [cloneEventsFrom_zero] at ha h
    simp only [hlast, Option.map_some, Option.some_or, execute_bind_ok, upsertActiveLeaf_ok,
      tx_pure_ok] at h
    obtain ⟨_, ⟨-, rfl⟩, rfl, rfl⟩ := h
    subst hdb₁
    exact ⟨path, cloned, last, hp, hcloned, hlast, hss, ⟨hl, ha⟩, rfl, rfl⟩
  · rintro ⟨path, cloned, last, hp, hcloned, hlast, hss, ⟨hl, ha⟩, rfl, rfl⟩
    have hevents := cloneEventsFrom_zero draws cloned
    refine ⟨path, hp, db₁, ⟨hl, rfl⟩, tx_bind_ok.mpr ⟨some last.entryId, _, (insertClones_ok hn).mpr
      ⟨cloned, hcloned, ?_, ?_, ?_, rfl⟩, ?_⟩⟩
    · rw [hdb₁]
      exact hss
    · rw [hevents, hdb₁]
      exact ha
    · rw [hlast]
      rfl
    · simp only [execute_bind_ok, upsertActiveLeaf_ok, tx_pure_ok, hevents]
      refine ⟨_, ⟨?_, rfl⟩, trivial, ?_⟩
      · exact hasEntry_insertEntries (List.mem_of_getLast? hlast)
      · rw [hdb₁]
        rfl

theorem hasEntry_of_context {context : SessionContext}
    (h : sqliteBuildContext codec db c (some leaf) = .ok context) : db.hasEntry leaf = true := by
  obtain ⟨-, _, path, -, hp, -⟩ := buildContextFrom_ok.mp h
  exact (sqliteBranchPath_leaf hp).2

theorem forkByReference_ok {base : ThreadBaseRef} {u : Unit} :
    exec (forkByReference codec source target base) db = (.ok u, db') ↔
      validateThreadBaseRef source target base = .ok () ∧
      validateSqliteBaseCycle db target.threadId source.threadId = .ok () ∧
      (∀ leaf, base.parentLeafEntryId = some leaf →
        ∃ context, sqliteBuildContext codec db source (some leaf) = .ok context) ∧
      db' = { db with
        activeLeaves := db.activeLeaves.erase target.threadId
        threadBases := db.threadBases.insert base.childThreadId base } := by
  simp only [forkByReference, transaction_ok, query_bind_ok, exists_unit_ok]
  refine and_congr_right fun _ => and_congr_right fun _ => ?_
  cases hleaf : base.parentLeafEntryId with
  | none =>
    simp only [execute_bind_ok, deleteActiveLeaf, Except.ok.injEq, exists_eq_left', execute_ok,
      sqliteInsertThreadBase, hleaf, Option.any_none, Bool.false_eq_true, if_false, reduceCtorEq,
      false_implies, implies_true, true_and]
    exact eq_comm
  | some leaf =>
    simp only [discard_bind_ok, query_ok, execute_bind_ok, deleteActiveLeaf, Except.ok.injEq,
      exists_eq_left', execute_ok, sqliteInsertThreadBase, hleaf, Option.any_some,
      Option.some.injEq, forall_eq']
    constructor
    · rintro ⟨context, _, ⟨hx, rfl⟩, h⟩
      split at h
      · cases h
      · exact ⟨⟨context, hx⟩, (Except.ok.inj h).symm⟩
    · rintro ⟨⟨context, hx⟩, rfl⟩
      refine ⟨context, db, ⟨hx, rfl⟩, if_neg ?_⟩
      have hentry := hasEntry_of_context hx
      simpa [Db.hasEntry] using hentry

variable {streamId : EventStreamId} {records : List NewEventRecord}

theorem appendEvents_ok (hcount : Counted db) {events : List EventRecord} :
    exec (appendEvents codec leaseEpoch streamId records) db = (.ok events, db') ↔
      Journaled db leaseEpoch streamId records ∧
      events = numbered streamId (db.count streamId) records ∧
      db' = db.journal codec leaseEpoch streamId records := by
  have hn : sqliteNextEventSequence { db with
      journalLeaseEpochs := raiseLease db.journalLeaseEpochs streamId leaseEpoch } streamId =
        db.count streamId + 1 := hcount.next _
  simp only [appendEvents, transaction_ok, execute_bind_ok, sqliteEnforceLeaseEpoch_ok]
  constructor
  · rintro ⟨_, ⟨hl, rfl⟩, h⟩
    obtain ⟨ha, rfl, rfl⟩ := (sqliteInsertEvents_ok hn).mp h
    exact ⟨⟨hl, ha⟩, rfl, rfl⟩
  · rintro ⟨⟨hl, ha⟩, rfl, rfl⟩
    exact ⟨_, ⟨hl, rfl⟩, (sqliteInsertEvents_ok hn).mpr ⟨ha, rfl, rfl⟩⟩

variable {expected : EventSequence}

theorem appendEventsFencedInTransaction_ok (hcount : Counted db) {events : List EventRecord} :
    appendEventsFencedInTransaction codec leaseEpoch streamId expected records db =
        .ok (events, db') ↔
      Journaled db leaseEpoch streamId records ∧ expected = db.count streamId + 1 ∧
      events = numbered streamId (db.count streamId) records ∧
      db' = db.journal codec leaseEpoch streamId records := by
  have hn : sqliteNextEventSequence { db with
      journalLeaseEpochs := raiseLease db.journalLeaseEpochs streamId leaseEpoch } streamId =
        db.count streamId + 1 := hcount.next _
  simp only [appendEventsFencedInTransaction, execute_bind_ok, sqliteEnforceLeaseEpoch_ok,
    query_bind_ok, exists_unit_ok]
  constructor
  · rintro ⟨_, ⟨hl, rfl⟩, hseq, h⟩
    obtain ⟨ha, rfl, rfl⟩ := (sqliteInsertEvents_ok hn).mp h
    rw [hn] at hseq
    split at hseq
    · cases hseq
    · rename_i hne
      exact ⟨⟨hl, ha⟩, (not_not.mp hne).symm, rfl, rfl⟩
  · rintro ⟨⟨hl, ha⟩, hseq, rfl, rfl⟩
    refine ⟨_, ⟨hl, rfl⟩, ?_, (sqliteInsertEvents_ok hn).mpr ⟨ha, rfl, rfl⟩⟩
    rw [hn]
    exact if_neg (not_not.mpr hseq.symm)

/-- The error is no conflict of the sequence fence. -/
def NoConflict (e : HistoryError) : Prop := ∀ streamId expected actual,
  e ≠ .appendFenceConflict streamId expected actual

variable {e : HistoryError}

theorem noConflict_of_validate {event : EventRecord} (h : event.validateStreamRecordV1 = .error e) :
    NoConflict e := by
  have hagainst : ∀ (schemaId : String) (schema value : Json) (e : HistoryError),
      validateAgainst schemaId schema value = .error e → NoConflict e := by
    intro schemaId schema value e h
    unfold validateAgainst at h
    split at h
    · cases h
    · cases h
      rintro _ _ _ ⟨⟩
  rcases bind_error.mp h with hrecord | ⟨_, -, hpayload⟩
  · exact hagainst _ _ _ e hrecord
  · split at hpayload
    · exact hagainst _ _ _ e hpayload
    · cases hpayload

theorem sqliteInsertEvent_fails (streamId : EventStreamId) (record : NewEventRecord) :
    FailsWith NoConflict (sqliteInsertEvent codec streamId record) := by
  refine .bind (.query fun _ e h => ?_) fun _ => .bind (.query fun _ e h => ?_) fun _ =>
    .bind (.query fun _ e h => ?_) fun next => .bind (.query fun _ e h => ?_) fun _ =>
    .bind (.execute fun _ e h => ?_) fun _ => .pure _
  · unfold validateNewEvent at h
    split at h <;> cases h
    rintro _ _ _ ⟨⟩
  · split at h <;> cases h
    rintro _ _ _ ⟨⟩
  · cases h
  · exact noConflict_of_validate h
  · unfold insertEventRow at h
    split_ifs at h <;> cases h <;> rintro _ _ _ ⟨⟩

theorem sqliteInsertEvents_fails (streamId : EventStreamId) (records : List NewEventRecord) :
    FailsWith NoConflict (sqliteInsertEvents codec streamId records) := by
  induction records with
  | nil => exact .pure _
  | cons record rs ih =>
    exact .bind (sqliteInsertEvent_fails streamId record) fun _ => .bind ih fun _ => .pure _

/-- **How a fenced append fails**: at the lease epoch, at the sequence, or at the insert. -/
theorem appendEventsFencedInTransaction_error
    (h : appendEventsFencedInTransaction codec leaseEpoch streamId expected records db = .error e) :
    (¬ LeaseAdmits db.journalLeaseEpochs streamId leaseEpoch ∧ NoConflict e) ∨
    (LeaseAdmits db.journalLeaseEpochs streamId leaseEpoch ∧
      sqliteNextEventSequence db streamId ≠ expected ∧
      e = .appendFenceConflict streamId expected (sqliteNextEventSequence db streamId)) ∨
    (LeaseAdmits db.journalLeaseEpochs streamId leaseEpoch ∧
      sqliteNextEventSequence db streamId = expected ∧ NoConflict e) := by
  have h₁ : (execute (sqliteEnforceLeaseEpoch streamId leaseEpoch) db >>= fun r =>
      (query (fun db =>
        let actual := sqliteNextEventSequence db streamId
        if actual ≠ expected then .error (.appendFenceConflict streamId expected actual) else .ok ())
          >>= fun _ => sqliteInsertEvents codec streamId records) r.2) = .error e := h
  rcases bind_error.mp h₁ with hlease | ⟨⟨_, db'⟩, hlease, h₂⟩
  · have hfails : FailsWith NoConflict
        (execute (@sqliteEnforceLeaseEpoch Text streamId leaseEpoch)) := by
      refine .execute fun db e he => ?_
      unfold sqliteEnforceLeaseEpoch at he
      dsimp only at he
      split at he <;> split_ifs at he <;> cases he <;> rintro _ _ _ ⟨⟩
    refine .inl ⟨fun hadmits => ?_, hfails _ _ hlease⟩
    have hok : execute (sqliteEnforceLeaseEpoch streamId leaseEpoch) db = .ok ((), _) :=
      execute_ok.mpr (sqliteEnforceLeaseEpoch_ok.mpr ⟨hadmits, rfl⟩)
    cases hlease.symm.trans hok
  · obtain ⟨hadmits, rfl⟩ := sqliteEnforceLeaseEpoch_ok.mp (execute_ok.mp hlease)
    change (query _ _ >>= fun r => sqliteInsertEvents codec streamId records r.2) = _ at h₂
    rcases bind_error.mp h₂ with hquery | ⟨⟨_, db''⟩, hquery, hinsert⟩
    · unfold query at hquery
      dsimp only at hquery
      split_ifs at hquery with hne
      · cases hquery
        exact .inr (.inl ⟨hadmits, hne, rfl⟩)
      · cases hquery
    · unfold query at hquery
      dsimp only at hquery
      split_ifs at hquery with heq
      · cases hquery
      · exact .inr (.inr ⟨hadmits, not_not.mp heq, sqliteInsertEvents_fails _ _ _ _ hinsert⟩)

/-- **A conflict says what the next sequence is**, and that it is another than the expected one. -/
theorem appendEventsFencedInTransaction_conflict {streamId' : EventStreamId}
    {expected' actual : EventSequence}
    (h : appendEventsFencedInTransaction codec leaseEpoch streamId expected records db =
      .error (.appendFenceConflict streamId' expected' actual)) :
    actual = sqliteNextEventSequence db streamId ∧ actual ≠ expected := by
  rcases appendEventsFencedInTransaction_error h with ⟨-, hplain⟩ | ⟨-, hne, heq⟩ | ⟨-, -, hplain⟩
  · exact absurd rfl (hplain _ _ _)
  · cases heq
    exact ⟨rfl, hne⟩
  · exact absurd rfl (hplain _ _ _)

/-! ### The machine -/

inductive Succeeds (codec : Codec Text) (db : Db Text) : Call → Reply → Db Text → Prop
  | append {epoch draws c parentArg kind provenance parent entry}
      (hparent : resolveParent codec c parentArg db = .ok parent)
      (hentry : entry = SessionEntry.new (draws 0) c parent kind)
      (hrow : Storable db.sessionEntries entry)
      (hj : Journaled db epoch (.forThread c) [sessionEntryEvent (draws 0) entry provenance]) :
      Succeeds codec db ⟨epoch, draws, .append c parentArg kind provenance⟩ (.entry entry)
        (db.takeEntry codec epoch (sessionEntryEvent (draws 0) entry provenance) entry)
  | turnAgain {epoch draws c turnId kind entry}
      (hturn : turnEntryAt codec c.threadId turnId db = .ok (some entry))
      (hc : entry.coordinates = c) (hkind : turnInputKindsMatch entry.kind kind) :
      Succeeds codec db ⟨epoch, draws, .appendTurnInput c turnId kind⟩ (.entry entry) db
  | turnInput {epoch draws c turnId kind parent entry}
      (hturn : turnEntryAt codec c.threadId turnId db = .ok none)
      (hparent : activeLeaf codec c db = .ok parent)
      (hentry : entry = SessionEntry.forTurn (draws 0) c parent turnId kind)
      (hrow : Storable db.sessionEntries entry)
      (hj : Journaled db epoch (.forThread c) [sessionEntryEvent (draws 0) entry none]) :
      Succeeds codec db ⟨epoch, draws, .appendTurnInput c turnId kind⟩ (.entry entry)
        (db.takeEntry codec epoch (sessionEntryEvent (draws 0) entry none) entry)
  | selectBranch {epoch draws c leaf prior event}
      (hprior : activeLeaf codec c db = .ok prior)
      (hpath : ∀ l, leaf = some l → ∃ path, sqliteBranchPath codec db c l = .ok path)
      (hevent : event = branchSelectedEvent (draws 0) c leaf prior)
      (hj : Journaled db epoch (.forThread c) [event]) :
      Succeeds codec db ⟨epoch, draws, .selectBranch c leaf⟩ .unit
        ((db.journal codec epoch (.forThread c) [event]).moveLeaf c.threadId leaf)
  | cloneNone {epoch draws source target} :
      Succeeds codec db ⟨epoch, draws, .cloneBranch source none target⟩ (.leaf none)
        { db with
          threadBases := db.threadBases.erase target.threadId
          activeLeaves := db.activeLeaves.erase target.threadId }
  | cloneSome {epoch draws source sourceLeaf target path cloned last}
      (hpath : sqliteBranchPath codec db source sourceLeaf = .ok path)
      (hcloned : cloned = cloneEntries draws target path 0 none)
      (hlast : cloned.getLast? = some last)
      (hrows : StorableAll codec db.sessionEntries cloned)
      (hj : Journaled db epoch (.forThread target) (cloneEvents draws cloned)) :
      Succeeds codec db ⟨epoch, draws, .cloneBranch source (some sourceLeaf) target⟩
        (.leaf (some last.entryId)) (db.takeClone codec epoch draws target cloned last)
  | fork {epoch draws source target base}
      (hbase : validateThreadBaseRef source target base = .ok ())
      (hcycle : validateSqliteBaseCycle db target.threadId source.threadId = .ok ())
      (hleaf : ∀ leaf, base.parentLeafEntryId = some leaf →
        ∃ context, sqliteBuildContext codec db source (some leaf) = .ok context) :
      Succeeds codec db ⟨epoch, draws, .forkByReference source target base⟩ .unit
        { db with
          activeLeaves := db.activeLeaves.erase target.threadId
          threadBases := db.threadBases.insert base.childThreadId base }
  | events {epoch draws streamId records} (hj : Journaled db epoch streamId records) :
      Succeeds codec db ⟨epoch, draws, .appendEvents streamId records⟩
        (.events (numbered streamId (db.count streamId) records))
        (db.journal codec epoch streamId records)
  | fenced {epoch draws streamId} {expected : EventSequence} {records}
      (hj : Journaled db epoch streamId records) (hseq : expected = db.count streamId + 1) :
      Succeeds codec db ⟨epoch, draws, .appendEventsFenced streamId expected records⟩
        (.events (numbered streamId (db.count streamId) records))
        (db.journal codec epoch streamId records)

variable {call : Call}

theorem step_ok_iff (hcount : Counted db) {reply : Reply} :
    step codec call db = (.ok reply, db') ↔ Succeeds codec db call reply db' := by
  constructor
  · obtain ⟨epoch, draws, op⟩ := call
    intro h
    cases op with
    | append c parentArg kind provenance =>
      obtain ⟨entry, hx, rfl⟩ := exec_map_ok.mp h
      obtain ⟨parent, hp, he, hs, hj, rfl⟩ := (appendInner_ok hcount).mp hx
      exact .append hp he hs hj
    | appendTurnInput c turnId kind =>
      obtain ⟨entry, hx, rfl⟩ := exec_map_ok.mp h
      obtain ⟨ht, hc, hk, rfl⟩ | ⟨parent, ht, hp, he, hs, hj, rfl⟩ :=
        (appendTurnInput_ok hcount).mp hx
      · exact .turnAgain ht hc hk
      · exact .turnInput ht hp he hs hj
    | selectBranch c leaf =>
      obtain ⟨u, hx, rfl⟩ := exec_map_ok.mp h
      obtain ⟨prior, hl, hp, hj, rfl⟩ := (selectBranch_ok hcount).mp hx
      exact .selectBranch hl hp rfl hj
    | cloneBranch source sourceLeaf target =>
      obtain ⟨leaf, hx, rfl⟩ := exec_map_ok.mp h
      cases sourceLeaf with
      | none =>
        obtain ⟨rfl, rfl⟩ := cloneBranch_none_ok.mp hx
        exact .cloneNone
      | some sourceLeaf =>
        obtain ⟨path, cloned, last, hp, hc, hl, hs, hj, rfl, rfl⟩ :=
          (cloneBranch_some_ok hcount).mp hx
        exact .cloneSome hp hc hl hs hj
    | forkByReference source target base =>
      obtain ⟨u, hx, rfl⟩ := exec_map_ok.mp h
      obtain ⟨hb, hc, hl, rfl⟩ := forkByReference_ok.mp hx
      exact .fork hb hc hl
    | appendEvents streamId records =>
      obtain ⟨events, hx, rfl⟩ := exec_map_ok.mp h
      obtain ⟨hj, rfl, rfl⟩ := (appendEvents_ok hcount).mp hx
      exact .events hj
    | appendEventsFenced streamId expected records =>
      obtain ⟨events, hx, rfl⟩ := exec_map_ok.mp h
      obtain ⟨hj, hs, rfl, rfl⟩ :=
        (appendEventsFencedInTransaction_ok hcount).mp (transaction_ok.mp hx)
      exact .fenced hj hs
  · intro h
    cases h with
    | append hp he hs hj =>
      exact exec_map_ok.mpr ⟨_, (appendInner_ok hcount).mpr ⟨_, hp, he, hs, hj, rfl⟩, rfl⟩
    | turnAgain ht hc hk =>
      exact exec_map_ok.mpr ⟨_, (appendTurnInput_ok hcount).mpr (.inl ⟨ht, hc, hk, rfl⟩), rfl⟩
    | turnInput ht hp he hs hj =>
      exact exec_map_ok.mpr
        ⟨_, (appendTurnInput_ok hcount).mpr (.inr ⟨_, ht, hp, he, hs, hj, rfl⟩), rfl⟩
    | selectBranch hl hp he hj =>
      subst he
      exact exec_map_ok.mpr ⟨(), (selectBranch_ok hcount).mpr ⟨_, hl, hp, hj, rfl⟩, rfl⟩
    | cloneNone => exact exec_map_ok.mpr ⟨_, cloneBranch_none_ok.mpr ⟨rfl, rfl⟩, rfl⟩
    | cloneSome hp hc hl hs hj =>
      exact exec_map_ok.mpr
        ⟨_, (cloneBranch_some_ok hcount).mpr ⟨_, _, _, hp, hc, hl, hs, hj, rfl, rfl⟩, rfl⟩
    | fork hb hc hl => exact exec_map_ok.mpr ⟨(), forkByReference_ok.mpr ⟨hb, hc, hl, rfl⟩, rfl⟩
    | events hj => exact exec_map_ok.mpr ⟨_, (appendEvents_ok hcount).mpr ⟨hj, rfl, rfl⟩, rfl⟩
    | fenced hj hs =>
      exact exec_map_ok.mpr ⟨_, transaction_ok.mpr
        ((appendEventsFencedInTransaction_ok hcount).mpr ⟨hj, hs, rfl, rfl⟩), rfl⟩

/-- **A call that fails changes nothing**: each is one transaction. -/
theorem step_error (h : (step codec call db).1 = .error e) : (step codec call db).2 = db := by
  obtain ⟨epoch, draws, op⟩ := call
  have hatomic : Atomic (perform codec ⟨epoch, draws, op⟩) := by
    cases op <;> exact .map _ (atomic_transaction _)
  exact hatomic db e _ (Prod.ext h rfl)

theorem eq_of_step_error (h : step codec call db = (.error e, db')) : db' = db := by
  have hsame : (step codec call db).2 = db := step_error (by rw [h])
  rwa [h] at hsame

theorem step_cases (hcount : Counted db) (call : Call) :
    (step codec call db).2 = db ∨ ∃ reply, Succeeds codec db call reply (step codec call db).2 := by
  rcases h : step codec call db with ⟨_ | reply, db'⟩
  · exact .inl (eq_of_step_error h)
  · exact .inr ⟨reply, (step_ok_iff hcount).mp h⟩

theorem counted_empty : Counted (.empty : Db Text) := fun _ => ⟨0, rfl⟩

theorem Counted.step (h : Counted db) (call : Call) : Counted (step codec call db).2 := by
  rcases step_cases h call with heq | ⟨reply, hok⟩
  · rwa [heq]
  · generalize (Sqlite.step codec call db).2 = db' at hok
    cases hok with
    | append | turnInput | selectBranch | cloneSome | events | fenced => exact h.append rfl
    | turnAgain | cloneNone | fork => exact h

end Verlet.History.Sqlite
