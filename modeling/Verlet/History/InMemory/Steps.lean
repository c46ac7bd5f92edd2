import Verlet.History.InMemory

/-!
# History — In-memory store — Steps

What a call can do to the in-memory store, said once.
-/

namespace Verlet.History.InMemory
open Support

/-! ### What the writes change -/

section Writes

variable (s : Inner) (thread thread' : ThreadId) (entry : SessionEntry)

/-- An entry is found under its own id, in its own thread. -/
theorem entryAt_insertEntry (id : SessionEntryId) :
    (s.insertEntry thread entry).entryAt thread' id =
      if thread' = thread ∧ id = entry.entryId then some entry else s.entryAt thread' id := by
  unfold Inner.entryAt Inner.insertEntry
  rw [Map.lookup_insert]
  by_cases ht : thread' = thread
  · subst ht
    simp only [if_true, Option.bind_some, Map.lookup_insert, true_and]
    cases s.entries.lookup thread' <;> rfl
  · simp [ht]


variable (leaf : SessionEntryId) (base : ThreadBaseRef)

@[simp] theorem activeLeaf_setLeaf :
    (s.setLeaf thread leaf).activeLeaf = s.activeLeaf.insert thread leaf := rfl
@[simp] theorem bases_setLeaf : (s.setLeaf thread leaf).bases = s.bases := rfl
@[simp] theorem events_setLeaf : (s.setLeaf thread leaf).events = s.events := rfl
@[simp] theorem eventIds_setLeaf : (s.setLeaf thread leaf).eventIds = s.eventIds := rfl
@[simp] theorem minimums_setLeaf :
    (s.setLeaf thread leaf).leaseEpochMinimums = s.leaseEpochMinimums := rfl

@[simp] theorem activeLeaf_clearLeaf :
    (s.clearLeaf thread).activeLeaf = s.activeLeaf.erase thread := rfl
@[simp] theorem bases_clearLeaf : (s.clearLeaf thread).bases = s.bases := rfl
@[simp] theorem minimums_clearLeaf :
    (s.clearLeaf thread).leaseEpochMinimums = s.leaseEpochMinimums := rfl

@[simp] theorem activeLeaf_setBase : (s.setBase thread base).activeLeaf = s.activeLeaf := rfl
@[simp] theorem bases_setBase :
    (s.setBase thread base).bases = s.bases.insert thread base := rfl
@[simp] theorem minimums_setBase :
    (s.setBase thread base).leaseEpochMinimums = s.leaseEpochMinimums := rfl

@[simp] theorem activeLeaf_clearBase : (s.clearBase thread).activeLeaf = s.activeLeaf := rfl
@[simp] theorem bases_clearBase : (s.clearBase thread).bases = s.bases.erase thread := rfl
@[simp] theorem events_clearBase : (s.clearBase thread).events = s.events := rfl
@[simp] theorem eventIds_clearBase : (s.clearBase thread).eventIds = s.eventIds := rfl
@[simp] theorem minimums_clearBase :
    (s.clearBase thread).leaseEpochMinimums = s.leaseEpochMinimums := rfl

end Writes

/-- The writes of `append_in_memory_events`, together. -/
def Inner.journal (s : Inner) (leaseEpoch : Nat) (streamId : EventStreamId)
    (records : List NewEventRecord) : Inner :=
  { s with
    events := s.events.insert streamId
      (s.eventsOf streamId ++ numbered streamId (s.eventsOf streamId).length records)
    eventIds := s.eventIds ∪ (records.map (·.id)).toFinset
    leaseEpochMinimums := (raiseInMemoryLeaseEpoch streamId leaseEpoch s).leaseEpochMinimums }

/-- The entries of `clone_branch`, inserted in order. -/
def Inner.insertEntries (s : Inner) (thread : ThreadId) (entries : List SessionEntry) : Inner :=
  entries.foldl (·.insertEntry thread ·) s

section Journal

variable (s : Inner) (leaseEpoch : Nat) (streamId : EventStreamId) (records : List NewEventRecord)

@[simp] theorem activeLeaf_journal :
    (s.journal leaseEpoch streamId records).activeLeaf = s.activeLeaf := rfl
@[simp] theorem bases_journal : (s.journal leaseEpoch streamId records).bases = s.bases := rfl
@[simp] theorem eventIds_journal : (s.journal leaseEpoch streamId records).eventIds =
    s.eventIds ∪ (records.map (·.id)).toFinset := rfl

/-- **An append** goes to the end of its stream, and to no other. -/
theorem eventsOf_journal (streamId' : EventStreamId) :
    (s.journal leaseEpoch streamId records).eventsOf streamId' =
      if streamId' = streamId then
        s.eventsOf streamId ++ numbered streamId (s.eventsOf streamId).length records
      else s.eventsOf streamId' := by
  unfold Inner.journal Inner.eventsOf
  rw [Map.lookup_insert]
  split <;> rfl

/-- A lease epoch that is not zero raises the minimum of the stream. -/
theorem minimums_journal (streamId' : EventStreamId) :
    (s.journal leaseEpoch streamId records).leaseEpochMinimums.lookup streamId' =
      if streamId' = streamId ∧ 0 < leaseEpoch then
        some (max ((s.leaseEpochMinimums.lookup streamId).getD 0) leaseEpoch)
      else s.leaseEpochMinimums.lookup streamId' := by
  unfold Inner.journal raiseInMemoryLeaseEpoch
  by_cases he : 0 < leaseEpoch
  · simp only [he, if_true, and_true, Map.lookup_insert]
    by_cases hs : streamId' = streamId
    · cases s.leaseEpochMinimums.lookup streamId <;> simp [hs]
    · simp [hs]
  · simp [he]

variable (thread thread' : ThreadId) (entries : List SessionEntry)

/-- Inserting entries leaves alone what inserting one does. -/
theorem insertEntries_keeps {β : Type} {part : Inner → β}
    (h : ∀ (s : Inner) entry, part (s.insertEntry thread entry) = part s) :
    part (s.insertEntries thread entries) = part s := by
  induction entries generalizing s with
  | nil => rfl
  | cons entry entries ih => exact (ih (s.insertEntry thread entry)).trans (h s entry)

@[simp] theorem activeLeaf_insertEntries :
    (s.insertEntries thread entries).activeLeaf = s.activeLeaf :=
  insertEntries_keeps s thread entries fun _ _ => rfl

@[simp] theorem bases_insertEntries : (s.insertEntries thread entries).bases = s.bases :=
  insertEntries_keeps s thread entries fun _ _ => rfl

@[simp] theorem events_insertEntries : (s.insertEntries thread entries).events = s.events :=
  insertEntries_keeps s thread entries fun _ _ => rfl

@[simp] theorem eventIds_insertEntries :
    (s.insertEntries thread entries).eventIds = s.eventIds :=
  insertEntries_keeps s thread entries fun _ _ => rfl

@[simp] theorem minimums_insertEntries :
    (s.insertEntries thread entries).leaseEpochMinimums = s.leaseEpochMinimums :=
  insertEntries_keeps s thread entries fun _ _ => rfl

end Journal

/-! ### Appending a batch -/

/-- A batch passes that is well formed, of new ids, each once. -/
theorem checkBatch_ok {eventIds : Finset EventRecordId} {records : List NewEventRecord}
    {batchIds ids : List EventRecordId} :
    checkBatch eventIds records batchIds = .ok ids ↔
      (∀ record ∈ records, validateNewEvent record = .ok ()) ∧
      (∀ record ∈ records, record.id ∉ eventIds ∧ record.id ∉ batchIds) ∧
      (records.map (·.id)).Nodup ∧ ids = (records.map (·.id)).reverse ++ batchIds := by
  induction records generalizing batchIds with
  | nil => simp [checkBatch, eq_comm]
  | cons record rs ih =>
    simp only [checkBatch, bind_ok, exists_unit_ok]
    by_cases hd : record.id ∈ eventIds ∨ record.id ∈ batchIds
    · simp only [hd, if_true, bind_ok, throw_ok, false_and, exists_false, and_false, false_iff]
      rintro ⟨-, hf, -⟩
      exact absurd hd (not_or.mpr (hf record List.mem_cons_self))
    · rw [not_or] at hd
      simp only [hd.1, hd.2, or_self, if_false, ih, List.mem_cons, List.map_cons, List.nodup_cons,
        List.reverse_cons, List.append_assoc, List.singleton_append, not_or, forall_eq_or_imp,
        List.mem_map, not_exists, not_and, not_false_eq_true, true_and]
      constructor
      · rintro ⟨hv, hvs, hf, hn, hids⟩
        exact ⟨⟨hv, hvs⟩, fun r hr => ⟨(hf r hr).1, (hf r hr).2.2⟩,
          ⟨fun r hr => (hf r hr).2.1, hn⟩, hids⟩
      · rintro ⟨⟨hv, hvs⟩, hf, ⟨hne, hn⟩, hids⟩
        exact ⟨hv, hvs, fun r hr => ⟨(hf r hr).1, hne r hr, (hf r hr).2⟩, hn, hids⟩

variable {events : List EventRecord}

/-- The numbered records of a batch must each be valid. -/
theorem numberBatch_ok {streamId : EventStreamId} {len : Nat} {records : List NewEventRecord}
    {index : Nat} :
    numberBatch streamId len records index = .ok events ↔
      events = numbered streamId (len + index) records ∧
      ∀ event ∈ numbered streamId (len + index) records, event.validateStreamRecordV1 = .ok () := by
  induction records generalizing index events with
  | nil => simp [numberBatch, numbered, eq_comm]
  | cons record rs ih =>
    have hseq : ((len : Int) + index + 1) = ((len + index : Nat) : Int) + 1 := by push_cast; ring
    have hlen : len + (index + 1) = len + index + 1 := by ring
    simp only [numberBatch, bind_ok, exists_unit_ok, ih, pure_ok, numbered, List.mem_cons,
      forall_eq_or_imp, hseq, hlen]
    constructor
    · rintro ⟨hv, _, ⟨rfl, hvs⟩, rfl⟩
      exact ⟨rfl, hv, hvs⟩
    · rintro ⟨rfl, hv, hvs⟩
      exact ⟨hv, _, ⟨rfl, hvs⟩, rfl⟩

/-- The handle may write the stream, and the store takes the batch. -/
structure Journaled (s : Inner) (leaseEpoch : Nat) (streamId : EventStreamId)
    (records : List NewEventRecord) : Prop where
  lease : checkInMemoryLeaseEpoch s streamId leaseEpoch = .ok ()
  batch : Admissible (· ∈ s.eventIds) streamId (s.eventsOf streamId).length records

variable {s' s : Inner} {leaseEpoch : Nat}

/-- **What an append does**, when it succeeds. -/
theorem appendInMemoryEvents_ok {streamId : EventStreamId} {records : List NewEventRecord} :
    exec (appendInMemoryEvents streamId records leaseEpoch) s = (.ok events, s') ↔
      Admissible (· ∈ s.eventIds) streamId (s.eventsOf streamId).length records ∧
      events = numbered streamId (s.eventsOf streamId).length records ∧
      s' = s.journal leaseEpoch streamId records := by
  have hwrite : ∀ ids : List EventRecordId, ids = (records.map (·.id)).reverse ++ [] →
      (fun inner : Inner => { inner with eventIds := inner.eventIds ∪ ids.toFinset })
        ((fun inner : Inner => { inner with
          events := inner.events.insert streamId (inner.eventsOf streamId ++
            numbered streamId (s.eventsOf streamId).length records) })
          (raiseInMemoryLeaseEpoch streamId leaseEpoch s)) =
      s.journal leaseEpoch streamId records := by
    rintro _ rfl
    unfold raiseInMemoryLeaseEpoch Inner.journal raiseInMemoryLeaseEpoch
    split <;> simp [Inner.eventsOf]
  simp only [appendInMemoryEvents, exec_reading_bind_ok, checkBatch_ok, numberBatch_ok,
    exec_writing_bind, exec_pure, Prod.mk.injEq, Except.ok.injEq, Nat.add_zero]
  constructor
  · rintro ⟨ids, ⟨hv, hf, hn, hids⟩, _, ⟨rfl, hs⟩, rfl, rfl⟩
    exact ⟨⟨hv, fun r hr => (hf r hr).1, hn, hs⟩, rfl, hwrite ids hids⟩
  · rintro ⟨⟨hv, hf, hn, hs⟩, rfl, rfl⟩
    exact ⟨_, ⟨hv, fun r hr => ⟨hf r hr, List.not_mem_nil⟩, hn, rfl⟩, _, ⟨rfl, hs⟩, rfl,
      hwrite _ rfl⟩

/-- An append that fails writes nothing. -/
theorem atomic_appendInMemoryEvents (streamId : EventStreamId) (records : List NewEventRecord)
    (leaseEpoch : Nat) : Atomic (appendInMemoryEvents streamId records leaseEpoch) := by
  refine .bind_of_readOnly (.reading _) fun ids => .bind_of_readOnly (.reading _) fun events => ?_
  intro s e s' h
  simp only [exec_writing_bind, exec_pure, Prod.mk.injEq, reduceCtorEq, false_and] at h

/-! ### The operations -/

/-- The entry's event and the entry are stored, and the entry is the active leaf. -/
def Inner.takeEntry (s : Inner) (leaseEpoch : Nat) (event : NewEventRecord) (entry : SessionEntry) :
    Inner :=
  ((s.journal leaseEpoch (.forThread entry.coordinates) [event]).insertEntry
    entry.coordinates.threadId entry).setLeaf entry.coordinates.threadId entry.entryId

variable {draw : Draw} {c : ThreadCoordinates}

/-- **What `append` does**, when it succeeds. -/
theorem appendInner_ok {parentArg : Option SessionEntryId}
    {kind : SessionEntryKind} {provenance : Option EventProvenance}
    {entry : SessionEntry} :
    exec (appendInner leaseEpoch draw c parentArg kind provenance) s = (.ok entry, s') ↔
      ∃ parent, resolveParent s c parentArg = .ok parent ∧
        entry = SessionEntry.new draw c parent kind ∧
        Journaled s leaseEpoch (.forThread c) [sessionEntryEvent draw entry provenance] ∧
        s' = s.takeEntry leaseEpoch (sessionEntryEvent draw entry provenance) entry := by
  simp only [appendInner, exec_reading_bind_ok, exec_discard_bind_ok, exists_unit_ok,
    appendInMemoryEvents_ok, exec_writing_bind, exec_pure, Prod.mk.injEq, Except.ok.injEq]
  constructor
  · rintro ⟨parent, hp, hl, events, s₁, ⟨hb, rfl, rfl⟩, rfl, rfl⟩
    exact ⟨parent, hp, rfl, ⟨hl, hb⟩, rfl⟩
  · rintro ⟨parent, hp, rfl, ⟨hl, hb⟩, rfl⟩
    exact ⟨parent, hp, hl, _, _, ⟨hb, rfl, rfl⟩, rfl, rfl⟩

theorem atomic_appendInner (leaseEpoch : Nat) (draw : Draw) (c : ThreadCoordinates)
    (parentArg : Option SessionEntryId) (kind : SessionEntryKind)
    (provenance : Option EventProvenance) :
    Atomic (appendInner leaseEpoch draw c parentArg kind provenance) := by
  refine .bind_of_readOnly (.reading _) fun parent => .bind_of_readOnly (.reading _) fun _ =>
    .bind_of_total (.map _ (atomic_appendInMemoryEvents _ _ _)) fun _ s => ?_
  simp only [exec_writing_bind, exec_pure]
  exact ⟨_, _, rfl⟩

/-- The entry of the turn is there already, or is taken now. -/
theorem appendTurnInput_ok {turnId : String} {kind : SessionEntryKind} {entry : SessionEntry} :
    exec (appendTurnInput leaseEpoch draw c turnId kind) s = (.ok entry, s') ↔
      (s.turnEntryAt c.threadId turnId = some entry ∧ entry.coordinates = c ∧
        turnInputKindsMatch entry.kind kind ∧ s' = s) ∨
      (s.turnEntryAt c.threadId turnId = none ∧
        entry = SessionEntry.forTurn draw c (s.activeLeaf.lookup c.threadId) turnId kind ∧
        Journaled s leaseEpoch (.forThread c) [sessionEntryEvent draw entry none] ∧
        s' = s.takeEntry leaseEpoch (sessionEntryEvent draw entry none) entry) := by
  simp only [appendTurnInput, exec_reading_bind_ok, Except.ok.injEq]
  cases hturn : s.turnEntryAt c.threadId turnId with
  | some existing =>
    simp only [exists_eq_left', exec_reading_bind_ok, exists_unit_ok, validateEntryCoordinates_ok]
    by_cases hk : turnInputKindsMatch existing.kind kind
    · simp only [hk, if_true, exec_pure, Prod.mk.injEq, Except.ok.injEq, Option.some.injEq,
        reduceCtorEq, false_and, or_false]
      constructor
      · rintro ⟨hc, rfl, rfl⟩
        exact ⟨rfl, hc, hk, rfl⟩
      · rintro ⟨rfl, hc, -, rfl⟩
        exact ⟨hc, rfl, rfl⟩
    · simp only [hk, exec_throw, Prod.mk.injEq, reduceCtorEq, false_and, and_false,
        Option.some.injEq, or_false, false_iff, Bool.false_eq_true, if_false]
      rintro ⟨rfl, -, hk', -⟩
      exact hk hk'
  | none =>
    simp only [exists_eq_left', exec_reading_bind_ok, exec_discard_bind_ok, exists_unit_ok,
      appendInMemoryEvents_ok, exec_writing_bind, exec_pure, Prod.mk.injEq, Except.ok.injEq,
      reduceCtorEq, false_and, false_or, true_and]
    constructor
    · rintro ⟨hl, events, s₁, ⟨hb, rfl, rfl⟩, rfl, rfl⟩
      exact ⟨rfl, ⟨hl, hb⟩, rfl⟩
    · rintro ⟨rfl, ⟨hl, hb⟩, rfl⟩
      exact ⟨hl, _, _, ⟨hb, rfl, rfl⟩, rfl, rfl⟩

theorem atomic_appendTurnInput (leaseEpoch : Nat) (draw : Draw) (c : ThreadCoordinates)
    (turnId : String) (kind : SessionEntryKind) :
    Atomic (appendTurnInput leaseEpoch draw c turnId kind) := by
  refine .bind_of_readOnly (.reading _) fun existing? => ?_
  cases existing? with
  | some existing =>
    refine .bind_of_readOnly (.reading _) fun _ => ?_
    split
    · exact .pure _
    · exact .throw _
  | none =>
    refine .bind_of_readOnly (.reading _) fun parent => .bind_of_readOnly (.reading _) fun _ =>
      .bind_of_total (.map _ (atomic_appendInMemoryEvents _ _ _)) fun _ s => ?_
    simp only [exec_writing_bind, exec_pure]
    exact ⟨_, _, rfl⟩

/-- `thread.branch.selected`, from the prior leaf to the new one. -/
def branchSelectedEvent (draw : Draw) (c : ThreadCoordinates) (leaf prior : Option SessionEntryId) :
    NewEventRecord :=
  .witnessed draw c .threadBranchSelected
    (ThreadBranchSelectedPayload.mk c.threadId leaf prior).toValue

/-- The leaf that is selected, or none. -/
def Inner.moveLeaf (s : Inner) (thread : ThreadId) : Option SessionEntryId → Inner
  | some leaf => s.setLeaf thread leaf
  | none      => s.clearLeaf thread

/-- A branch is selected that exists; the selection is journaled. -/
theorem selectBranch_ok {leaf : Option SessionEntryId} {u : Unit} :
    exec (selectBranch leaseEpoch draw c leaf) s = (.ok u, s') ↔
      (∀ l, leaf = some l → ∃ path, s.branchPath c l = .ok path) ∧
      Journaled s leaseEpoch (.forThread c)
        [branchSelectedEvent draw c leaf (s.activeLeaf.lookup c.threadId)] ∧
      s' = (s.journal leaseEpoch (.forThread c)
        [branchSelectedEvent draw c leaf (s.activeLeaf.lookup c.threadId)]).moveLeaf c.threadId leaf
      := by
  cases leaf with
  | none =>
    simp only [selectBranch, exec_reading_bind_ok, Except.ok.injEq, exists_eq_left',
      exists_unit_ok, exec_discard_bind_ok, appendInMemoryEvents_ok, exec_writing, Prod.mk.injEq,
      reduceCtorEq, false_implies, implies_true, true_and]
    constructor
    · rintro ⟨hl, events, s₁, ⟨hb, rfl, rfl⟩, rfl⟩
      exact ⟨⟨hl, hb⟩, rfl⟩
    · rintro ⟨⟨hl, hb⟩, rfl⟩
      exact ⟨hl, _, _, ⟨hb, rfl, rfl⟩, rfl⟩
  | some leaf =>
    simp only [selectBranch, exec_reading_bind_ok, Except.ok.injEq, exists_eq_left',
      exists_unit_ok, exec_discard_bind_ok, appendInMemoryEvents_ok, exec_writing, Prod.mk.injEq,
      exec_reading, Option.some.injEq, forall_eq', true_and]
    constructor
    · rintro ⟨path, _, ⟨hp, rfl⟩, hl, events, s₁, ⟨hb, rfl, rfl⟩, rfl⟩
      exact ⟨⟨path, hp⟩, ⟨hl, hb⟩, rfl⟩
    · rintro ⟨⟨path, hp⟩, ⟨hl, hb⟩, rfl⟩
      exact ⟨path, s, ⟨hp, rfl⟩, hl, _, _, ⟨hb, rfl, rfl⟩, rfl⟩

theorem atomic_selectBranch (leaseEpoch : Nat) (draw : Draw) (c : ThreadCoordinates)
    (leaf : Option SessionEntryId) : Atomic (selectBranch leaseEpoch draw c leaf) := by
  have htail : ∀ prior, Atomic (do
      reading fun inner => checkInMemoryLeaseEpoch inner (.forThread c) leaseEpoch
      discard <| appendInMemoryEvents (.forThread c) [branchSelectedEvent draw c leaf prior]
        leaseEpoch
      match leaf with
      | some leaf => writing (·.setLeaf c.threadId leaf)
      | none => writing (·.clearLeaf c.threadId)) := by
    refine fun prior => .bind_of_readOnly (.reading _) fun _ =>
      .bind_of_total (.map _ (atomic_appendInMemoryEvents _ _ _)) fun _ s => ?_
    cases leaf <;> exact ⟨_, _, rfl⟩
  refine .bind_of_readOnly (.reading _) fun prior => ?_
  cases leaf with
  | none => exact htail prior
  | some leaf => exact .bind_of_readOnly (.map _ (.reading _)) fun _ => htail prior

/-- What `branch_path` does with one entry id. -/
def loadEntry (entriesById : Map SessionEntryId SessionEntry) (c : ThreadCoordinates)
    (id : SessionEntryId) : HistoryResult SessionEntry := do
  let entry ← okOr (.entryNotFound id) (entriesById.lookup id)
  validateEntryCoordinates c entry
  return entry

/-- An entry is loaded that is in the map, under these coordinates. -/
theorem loadEntry_ok {entriesById : Map SessionEntryId SessionEntry} {id : SessionEntryId}
    {entry : SessionEntry} :
    loadEntry entriesById c id = .ok entry ↔
      entriesById.lookup id = some entry ∧ entry.coordinates = c := by
  simp only [loadEntry, bind_ok, exists_unit_ok, pure_ok, validateEntryCoordinates_ok]
  cases hl : entriesById.lookup id with
  | none => simp
  | some e =>
    simp only [okOr_some, Except.ok.injEq, Option.some.injEq]
    constructor
    · rintro ⟨_, rfl, hc, rfl⟩
      exact ⟨rfl, hc⟩
    · rintro ⟨rfl, hc⟩
      exact ⟨e, rfl, hc, rfl⟩

variable {path : List SessionEntry} {leaf : SessionEntryId}

/-- `branch_path` follows the parents from the leaf on. -/
theorem branchPath_ok {entriesById : Map SessionEntryId SessionEntry} :
    branchPath entriesById leaf c = .ok path ↔
      follow (loadEntry entriesById c) (·.parentEntryId) (Map.size entriesById + 1) (some leaf) [] =
        some (.ok path) := by
  change Option.getD (follow (loadEntry entriesById c) _ _ _ _) _ = _ ↔ _
  cases follow (loadEntry entriesById c) (·.parentEntryId) (Map.size entriesById + 1) (some leaf) []
  <;> simp

theorem Inner.branchPath_ok : s.branchPath c leaf = .ok path ↔
      ∃ entriesById, s.entries.lookup c.threadId = some entriesById ∧
        follow (loadEntry entriesById c) (·.parentEntryId) (Map.size entriesById + 1) (some leaf)
          [] = some (.ok path) := by
  simp only [Inner.branchPath, bind_ok, InMemory.branchPath_ok]
  cases s.entries.lookup c.threadId <;> simp

theorem Inner.branchPath_error {e : HistoryError} (h : s.branchPath c leaf = .error e) :
    e = .diverged ∨ e = .entryNotFound leaf ∨ ∃ entriesById id,
      s.entries.lookup c.threadId = some entriesById ∧ loadEntry entriesById c id = .error e := by
  cases hl : s.entries.lookup c.threadId with
  | none =>
    simp only [Inner.branchPath, hl] at h
    cases h
    exact .inr (.inl rfl)
  | some entriesById =>
    simp only [Inner.branchPath, hl, okOr_some] at h
    change Option.getD (follow (loadEntry entriesById c) _ _ _ _) _ = _ at h
    cases hf : follow (loadEntry entriesById c) (·.parentEntryId) (Map.size entriesById + 1)
        (some leaf) [] with
    | none =>
      rw [hf] at h
      cases h
      exact .inl rfl
    | some r =>
      rw [hf] at h
      obtain rfl : r = .error e := h
      obtain ⟨id, hid⟩ := follow_error hf
      exact .inr (.inr ⟨entriesById, id, rfl, hid⟩)

theorem Inner.branchPath_ne_nil (h : s.branchPath c leaf = .ok path) : path ≠ [] := by
  obtain ⟨entriesById, -, hf⟩ := Inner.branchPath_ok.mp h
  obtain ⟨chain, rfl, hne⟩ := follow_gathers hf
  simpa using hne rfl

theorem Inner.branchPath_leaf (h : s.branchPath c leaf = .ok path) :
    ∃ entry, s.entryAt c.threadId leaf = some entry ∧ entry.coordinates = c := by
  obtain ⟨entriesById, hl, hf⟩ := Inner.branchPath_ok.mp h
  obtain ⟨entry, he⟩ := follow_first hf
  obtain ⟨hk, hc⟩ := loadEntry_ok.mp he
  exact ⟨entry, by simp [Inner.entryAt, hl, hk], hc⟩

theorem length_cloneEntries (draws : Nat → Draw) (target : ThreadCoordinates)
    (path : List SessionEntry) (index : Nat) (parent : Option SessionEntryId) :
    (cloneEntries draws target path index parent).length = path.length := by
  induction path generalizing index parent with
  | nil => rfl
  | cons source p ih => simp only [cloneEntries, List.length_cons, ih]

/-- The target thread holds the cloned entries, is on its own, and the last of them is its leaf. -/
def Inner.takeClone (s : Inner) (leaseEpoch : Nat) (draws : Nat → Draw) (target : ThreadCoordinates)
    (cloned : List SessionEntry) (last : SessionEntry) : Inner :=
  (((s.journal leaseEpoch (.forThread target) (cloneEvents draws cloned)).clearBase
    target.threadId).insertEntries target.threadId cloned).setLeaf target.threadId last.entryId

variable {source target : ThreadCoordinates}

theorem cloneBranch_none_ok {draws : Nat → Draw} {leaf : Option SessionEntryId} :
    exec (cloneBranch leaseEpoch draws source none target) s = (.ok leaf, s') ↔
      leaf = none ∧ s' = (s.clearBase target.threadId).clearLeaf target.threadId := by
  simp only [cloneBranch, exec_writing_bind, exec_pure, Prod.mk.injEq, Except.ok.injEq]
  exact and_congr eq_comm eq_comm

/-- **What `clone_branch` does**, when there is a leaf to clone. -/
theorem cloneBranch_some_ok {draws : Nat → Draw} {sourceLeaf : SessionEntryId} {leaf : Option SessionEntryId} :
    exec (cloneBranch leaseEpoch draws source (some sourceLeaf) target) s = (.ok leaf, s') ↔
      ∃ path cloned last, s.branchPath source sourceLeaf = .ok path ∧
        cloned = cloneEntries draws target path 0 none ∧ cloned.getLast? = some last ∧
        Journaled s leaseEpoch (.forThread target) (cloneEvents draws cloned) ∧
        leaf = some last.entryId ∧ s' = s.takeClone leaseEpoch draws target cloned last := by
  simp only [cloneBranch, exec_reading_bind_ok, exists_unit_ok, exec_discard_bind_ok,
    appendInMemoryEvents_ok, exec_writing_bind]
  constructor
  · rintro ⟨path, hp, hl, events, s₁, ⟨hb, rfl, rfl⟩, h⟩
    have hne : cloneEntries draws target path 0 none ≠ [] := by
      rw [← List.length_pos_iff, length_cloneEntries, List.length_pos_iff]
      exact Inner.branchPath_ne_nil hp
    obtain ⟨last, hlast⟩ := Option.isSome_iff_exists.mp (List.getLast?_isSome.mpr hne)
    simp only [hlast, exec_writing_bind, exec_pure, Prod.mk.injEq, Except.ok.injEq,
      Option.map_some] at h
    exact ⟨path, _, last, hp, rfl, hlast, ⟨hl, hb⟩, h.1.symm, h.2.symm⟩
  · rintro ⟨path, _, last, hp, rfl, hlast, ⟨hl, hb⟩, rfl, rfl⟩
    refine ⟨path, hp, hl, _, _, ⟨hb, rfl, rfl⟩, ?_⟩
    simp only [hlast, exec_writing_bind, exec_pure, Option.map_some]
    rfl

theorem atomic_cloneBranch (leaseEpoch : Nat) (draws : Nat → Draw) (source : ThreadCoordinates)
    (sourceLeaf : Option SessionEntryId) (target : ThreadCoordinates) :
    Atomic (cloneBranch leaseEpoch draws source sourceLeaf target) := by
  cases sourceLeaf with
  | none =>
    intro s e s' h
    simp only [cloneBranch, exec_writing_bind, exec_pure, Prod.mk.injEq, reduceCtorEq,
      false_and] at h
  | some sourceLeaf =>
    refine .bind_of_readOnly (.reading _) fun path => .bind_of_readOnly (.reading _) fun _ =>
      .bind_of_total (.map _ (atomic_appendInMemoryEvents _ _ _)) fun _ s => ?_
    simp only [exec_writing_bind]
    cases (cloneEntries draws target path 0 none).getLast? <;> exact ⟨_, _, rfl⟩

/-- A fork is by a valid base that closes no cycle; a leaf that it pins can be read. -/
theorem forkByReference_ok {base : ThreadBaseRef} {u : Unit} :
    exec (forkByReference source target base) s = (.ok u, s') ↔
      validateThreadBaseRef source target base = .ok () ∧
      validateInMemoryBaseCycle s target.threadId source.threadId = .ok () ∧
      (∀ leaf, base.parentLeafEntryId = some leaf →
        ∃ context, buildInMemoryContext s source (some leaf) = .ok context) ∧
      s' = (s.clearLeaf target.threadId).setBase target.threadId base := by
  simp only [forkByReference, exec_reading_bind_ok, exists_unit_ok]
  cases base.parentLeafEntryId with
  | none =>
    simp only [exec_writing_bind, exec_writing, Prod.mk.injEq, true_and, reduceCtorEq,
      false_implies, implies_true]
    exact and_congr_right' (and_congr_right' eq_comm)
  | some leaf =>
    simp only [exec_discard_bind_ok, exec_reading, exec_writing_bind, exec_writing, Prod.mk.injEq,
      true_and, Option.some.injEq, forall_eq']
    constructor
    · rintro ⟨hv, hc, context, _, ⟨hx, rfl⟩, rfl⟩
      exact ⟨hv, hc, ⟨context, hx⟩, rfl⟩
    · rintro ⟨hv, hc, ⟨context, hx⟩, rfl⟩
      exact ⟨hv, hc, context, s, ⟨hx, rfl⟩, rfl⟩

theorem atomic_forkByReference (source target : ThreadCoordinates) (base : ThreadBaseRef) :
    Atomic (forkByReference source target base) := by
  refine .bind_of_readOnly (.reading _) fun _ => .bind_of_readOnly (.reading _) fun _ => ?_
  have htail : Atomic (do
      writing (·.clearLeaf target.threadId)
      writing (·.setBase target.threadId base) : StoreM Unit) := by
    intro s e s' h
    simp only [exec_writing_bind, exec_writing, Prod.mk.injEq, reduceCtorEq, false_and] at h
  cases base.parentLeafEntryId with
  | none => exact htail
  | some leaf => exact .bind_of_readOnly (.map _ (.reading _)) fun _ => htail

theorem appendEvents_ok {streamId : EventStreamId} {records : List NewEventRecord} :
    exec (appendEvents leaseEpoch streamId records) s = (.ok events, s') ↔
      Journaled s leaseEpoch streamId records ∧
      events = numbered streamId (s.eventsOf streamId).length records ∧
      s' = s.journal leaseEpoch streamId records := by
  simp only [appendEvents, exec_reading_bind_ok, exists_unit_ok, appendInMemoryEvents_ok]
  exact ⟨fun ⟨hl, hb, h⟩ => ⟨⟨hl, hb⟩, h⟩, fun ⟨⟨hl, hb⟩, h⟩ => ⟨hl, hb, h⟩⟩

/-- A fenced append succeeds only where it expects to write. -/
theorem appendEventsFenced_ok {streamId : EventStreamId}
    {expected : EventSequence} {records : List NewEventRecord} :
    exec (appendEventsFenced leaseEpoch streamId expected records) s = (.ok events, s') ↔
      Journaled s leaseEpoch streamId records ∧
      expected = (s.eventsOf streamId).length + 1 ∧
      events = numbered streamId (s.eventsOf streamId).length records ∧
      s' = s.journal leaseEpoch streamId records := by
  simp only [appendEventsFenced, exec_reading_bind_ok, exists_unit_ok, appendInMemoryEvents_ok]
  constructor
  · rintro ⟨hl, hseq, hb, h⟩
    split at hseq
    · cases hseq
    · rename_i hne
      exact ⟨⟨hl, hb⟩, (not_not.mp hne).symm, h⟩
  · rintro ⟨⟨hl, hb⟩, hseq, h⟩
    exact ⟨hl, if_neg (not_not.mpr hseq.symm), hb, h⟩

/-! ### The machine -/

/-- **What a call can do**, when it succeeds: one case for each operation and outcome. -/
inductive Succeeds (s : Inner) : Call → Reply → Inner → Prop
  | append {epoch draws c parentArg kind provenance parent entry}
      (hparent : resolveParent s c parentArg = .ok parent)
      (hentry : entry = SessionEntry.new (draws 0) c parent kind)
      (hj : Journaled s epoch (.forThread c) [sessionEntryEvent (draws 0) entry provenance]) :
      Succeeds s ⟨epoch, draws, .append c parentArg kind provenance⟩ (.entry entry)
        (s.takeEntry epoch (sessionEntryEvent (draws 0) entry provenance) entry)
  | turnAgain {epoch draws c turnId kind entry}
      (hturn : s.turnEntryAt c.threadId turnId = some entry) (hc : entry.coordinates = c)
      (hkind : turnInputKindsMatch entry.kind kind) :
      Succeeds s ⟨epoch, draws, .appendTurnInput c turnId kind⟩ (.entry entry) s
  | turnInput {epoch draws c turnId kind entry}
      (hturn : s.turnEntryAt c.threadId turnId = none)
      (hentry : entry =
        SessionEntry.forTurn (draws 0) c (s.activeLeaf.lookup c.threadId) turnId kind)
      (hj : Journaled s epoch (.forThread c) [sessionEntryEvent (draws 0) entry none]) :
      Succeeds s ⟨epoch, draws, .appendTurnInput c turnId kind⟩ (.entry entry)
        (s.takeEntry epoch (sessionEntryEvent (draws 0) entry none) entry)
  | selectBranch {epoch draws c leaf event}
      (hpath : ∀ l, leaf = some l → ∃ path, s.branchPath c l = .ok path)
      (hevent : event = branchSelectedEvent (draws 0) c leaf (s.activeLeaf.lookup c.threadId))
      (hj : Journaled s epoch (.forThread c) [event]) :
      Succeeds s ⟨epoch, draws, .selectBranch c leaf⟩ .unit
        ((s.journal epoch (.forThread c) [event]).moveLeaf c.threadId leaf)
  | cloneNone {epoch draws source target} :
      Succeeds s ⟨epoch, draws, .cloneBranch source none target⟩ (.leaf none)
        ((s.clearBase target.threadId).clearLeaf target.threadId)
  | cloneSome {epoch draws source sourceLeaf target path cloned last}
      (hpath : s.branchPath source sourceLeaf = .ok path)
      (hcloned : cloned = cloneEntries draws target path 0 none)
      (hlast : cloned.getLast? = some last)
      (hj : Journaled s epoch (.forThread target) (cloneEvents draws cloned)) :
      Succeeds s ⟨epoch, draws, .cloneBranch source (some sourceLeaf) target⟩
        (.leaf (some last.entryId)) (s.takeClone epoch draws target cloned last)
  | fork {epoch draws source target base}
      (hbase : validateThreadBaseRef source target base = .ok ())
      (hcycle : validateInMemoryBaseCycle s target.threadId source.threadId = .ok ())
      (hleaf : ∀ leaf, base.parentLeafEntryId = some leaf →
        ∃ context, buildInMemoryContext s source (some leaf) = .ok context) :
      Succeeds s ⟨epoch, draws, .forkByReference source target base⟩ .unit
        ((s.clearLeaf target.threadId).setBase target.threadId base)
  | events {epoch draws streamId records} (hj : Journaled s epoch streamId records) :
      Succeeds s ⟨epoch, draws, .appendEvents streamId records⟩
        (.events (numbered streamId (s.eventsOf streamId).length records))
        (s.journal epoch streamId records)
  | fenced {epoch draws streamId} {expected : EventSequence} {records}
      (hj : Journaled s epoch streamId records)
      (hseq : expected = (s.eventsOf streamId).length + 1) :
      Succeeds s ⟨epoch, draws, .appendEventsFenced streamId expected records⟩
        (.events (numbered streamId (s.eventsOf streamId).length records))
        (s.journal epoch streamId records)

variable {call : Call}

/-- **A call succeeds** in exactly these ways. -/
theorem step_ok_iff {reply : Reply} : step call s = (.ok reply, s') ↔ Succeeds s call reply s' := by
  constructor
  · obtain ⟨epoch, draws, op⟩ := call
    intro h
    cases op with
    | append c parentArg kind provenance =>
      obtain ⟨entry, hx, rfl⟩ := exec_map_ok.mp h
      obtain ⟨parent, hp, he, hj, rfl⟩ := appendInner_ok.mp hx
      exact .append hp he hj
    | appendTurnInput c turnId kind =>
      obtain ⟨entry, hx, rfl⟩ := exec_map_ok.mp h
      obtain ⟨ht, hc, hk, rfl⟩ | ⟨ht, he, hj, rfl⟩ := appendTurnInput_ok.mp hx
      · exact .turnAgain ht hc hk
      · exact .turnInput ht he hj
    | selectBranch c leaf =>
      obtain ⟨u, hx, rfl⟩ := exec_map_ok.mp h
      obtain ⟨hp, hj, rfl⟩ := selectBranch_ok.mp hx
      exact .selectBranch hp rfl hj
    | cloneBranch source sourceLeaf target =>
      obtain ⟨leaf, hx, rfl⟩ := exec_map_ok.mp h
      cases sourceLeaf with
      | none =>
        obtain ⟨rfl, rfl⟩ := cloneBranch_none_ok.mp hx
        exact .cloneNone
      | some sourceLeaf =>
        obtain ⟨path, cloned, last, hp, hc, hl, hj, rfl, rfl⟩ := cloneBranch_some_ok.mp hx
        exact .cloneSome hp hc hl hj
    | forkByReference source target base =>
      obtain ⟨u, hx, rfl⟩ := exec_map_ok.mp h
      obtain ⟨hb, hc, hl, rfl⟩ := forkByReference_ok.mp hx
      exact .fork hb hc hl
    | appendEvents streamId records =>
      obtain ⟨events, hx, rfl⟩ := exec_map_ok.mp h
      obtain ⟨hj, rfl, rfl⟩ := appendEvents_ok.mp hx
      exact .events hj
    | appendEventsFenced streamId expected records =>
      obtain ⟨events, hx, rfl⟩ := exec_map_ok.mp h
      obtain ⟨hj, hs, rfl, rfl⟩ := appendEventsFenced_ok.mp hx
      exact .fenced hj hs
  · intro h
    cases h with
    | append hp he hj => exact exec_map_ok.mpr ⟨_, appendInner_ok.mpr ⟨_, hp, he, hj, rfl⟩, rfl⟩
    | turnAgain ht hc hk =>
      exact exec_map_ok.mpr ⟨_, appendTurnInput_ok.mpr (.inl ⟨ht, hc, hk, rfl⟩), rfl⟩
    | turnInput ht he hj =>
      exact exec_map_ok.mpr ⟨_, appendTurnInput_ok.mpr (.inr ⟨ht, he, hj, rfl⟩), rfl⟩
    | selectBranch hp he hj =>
      subst he
      exact exec_map_ok.mpr ⟨(), selectBranch_ok.mpr ⟨hp, hj, rfl⟩, rfl⟩
    | cloneNone => exact exec_map_ok.mpr ⟨_, cloneBranch_none_ok.mpr ⟨rfl, rfl⟩, rfl⟩
    | cloneSome hp hc hl hj =>
      exact exec_map_ok.mpr
        ⟨_, cloneBranch_some_ok.mpr ⟨_, _, _, hp, hc, hl, hj, rfl, rfl⟩, rfl⟩
    | fork hb hc hl => exact exec_map_ok.mpr ⟨(), forkByReference_ok.mpr ⟨hb, hc, hl, rfl⟩, rfl⟩
    | events hj => exact exec_map_ok.mpr ⟨_, appendEvents_ok.mpr ⟨hj, rfl, rfl⟩, rfl⟩
    | fenced hj hs => exact exec_map_ok.mpr ⟨_, appendEventsFenced_ok.mpr ⟨hj, hs, rfl, rfl⟩, rfl⟩

/-- **A call that fails changes nothing.** -/
theorem step_error {e : HistoryError} (h : (step call s).1 = .error e) : (step call s).2 = s := by
  obtain ⟨epoch, draws, op⟩ := call
  have hatomic : Atomic (perform ⟨epoch, draws, op⟩) := by
    cases op with
    | append => exact .map _ (atomic_appendInner _ _ _ _ _ _)
    | appendTurnInput => exact .map _ (atomic_appendTurnInput _ _ _ _ _)
    | selectBranch => exact .map _ (atomic_selectBranch _ _ _ _)
    | cloneBranch => exact .map _ (atomic_cloneBranch _ _ _ _ _)
    | forkByReference => exact .map _ (atomic_forkByReference _ _ _)
    | appendEvents =>
      exact .map _ (.bind_of_readOnly (.reading _) fun _ => atomic_appendInMemoryEvents _ _ _)
    | appendEventsFenced =>
      exact .map _ (.bind_of_readOnly (.reading _) fun _ =>
        .bind_of_readOnly (.reading _) fun _ => atomic_appendInMemoryEvents _ _ _)
  exact hatomic s e _ (Prod.ext h rfl)

theorem eq_of_step_error {e : HistoryError} (h : step call s = (.error e, s')) : s' = s := by
  have hsame : (step call s).2 = s := step_error (by rw [h])
  rwa [h] at hsame

/-- A call changes nothing, or succeeds. -/
theorem step_cases (s : Inner) (call : Call) :
    (step call s).2 = s ∨ ∃ reply, Succeeds s call reply (step call s).2 := by
  rcases h : step call s with ⟨_ | reply, s'⟩
  · exact .inl (eq_of_step_error h)
  · exact .inr ⟨reply, step_ok_iff.mp h⟩

end Verlet.History.InMemory
