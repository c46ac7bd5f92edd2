import Verlet.Support.Runs
import Verlet.History.Forest
import Verlet.History.InMemory.Steps

/-!
# History — In-memory store — Journal integrity

`Sound` is the invariant of the in-memory store: its streams are a journal, its entries a forest.
Every call keeps it, provided the entry ids the store draws for the call are new (`Fresh`).
-/

namespace Verlet.History.InMemory
open Support

/-! ### Fresh ids -/

/-- Some thread holds an entry under `id`. -/
def Inner.holds (s : Inner) (id : SessionEntryId) : Bool :=
  (Map.values s.entries).any fun entries => (entries.lookup id).isSome

variable {s : Inner} {thread : ThreadId} {id : SessionEntryId} {entry : SessionEntry}

theorem holds_of_entryAt (h : s.entryAt thread id = some entry) : s.holds id := by
  obtain ⟨entries, hl, he⟩ := Option.bind_eq_some_iff.mp h
  refine List.any_eq_true.mpr ⟨entries, Map.mem_values.mpr ⟨thread, hl⟩, ?_⟩
  rw [he]
  rfl

/-- How many entries a call may create. -/
def Inner.created (s : Inner) : Op → Nat
  | .append _ _ _ _ => 1
  | .appendTurnInput _ _ _ => 1
  | .cloneBranch source (some leaf) _ =>
    match s.branchPath source leaf with
    | .ok path => path.length
    | .error _ => 0
  | _ => 0

/-- The entry ids the store draws for the call are stored nowhere, and distinct. -/
def Fresh (s : Inner) (call : Call) : Prop :=
  ∀ i < s.created call.op, ¬ s.holds (call.draws i).entryId ∧
    ∀ j < i, (call.draws i).entryId ≠ (call.draws j).entryId

instance (s : Inner) (call : Call) : Decidable (Fresh s call) :=
  inferInstanceAs (Decidable (∀ i < _, _ ∧ _))

/-! ### The invariant -/

def Inner.entryCount (s : Inner) (thread : ThreadId) : Nat :=
  Map.size ((s.entries.lookup thread).getD ∅)

/-- The streams are a journal and the entries a forest. -/
structure Sound (s : Inner) : Prop where
  journal : Journal s.eventsOf (· ∈ s.eventIds)
  forest : Forest s.entryAt s.entryCount s.activeLeaf.lookup

theorem sound_empty : Sound .empty where
  journal := .empty _
  forest := .empty

theorem eventsOf_journal_eq (s : Inner) (leaseEpoch : Nat) (streamId : EventStreamId)
    (records : List NewEventRecord) :
    (s.journal leaseEpoch streamId records).eventsOf = appendBatch s.eventsOf streamId records :=
  funext fun streamId' => eventsOf_journal s leaseEpoch streamId records streamId'

theorem Sound.journaled (h : Sound s) {leaseEpoch : Nat} {streamId : EventStreamId}
    {records : List NewEventRecord} (hj : Journaled s leaseEpoch streamId records) :
    Sound (s.journal leaseEpoch streamId records) where
  journal := by
    rw [eventsOf_journal_eq]
    have := h.journal.append hj.batch
    simpa only [eventIds_journal, Finset.mem_union, List.mem_toFinset] using this
  forest := h.forest

theorem entryCount_insertEntry (hfresh : s.entryAt thread entry.entryId = none) (thread' : ThreadId) :
    (s.insertEntry thread entry).entryCount thread' =
      if thread' = thread then s.entryCount thread + 1 else s.entryCount thread' := by
  unfold Inner.entryCount Inner.insertEntry
  rw [Map.lookup_insert]
  split
  · refine Map.size_insert_of_fresh ?_
    cases hl : s.entries.lookup thread with
    | none => rfl
    | some entries =>
      rw [Inner.entryAt, hl] at hfresh
      exact hfresh
  · rfl

theorem Sound.insertEntry (h : Sound s) (hfresh : s.entryAt thread entry.entryId = none)
    (hthread : entry.coordinates.threadId = thread)
    (hparent : ∀ parent, entry.parentEntryId = some parent → ∃ e, s.entryAt thread parent = some e) :
    Sound (s.insertEntry thread entry) where
  journal := h.journal
  forest := by
    have := h.forest.insert hfresh hthread hparent
    convert this using 1
    · funext thread' id
      exact entryAt_insertEntry s thread thread' entry id
    · exact funext (entryCount_insertEntry hfresh)
    · rfl

theorem Sound.setLeaf (h : Sound s) {leaf : SessionEntryId}
    (hleaf : ∃ e, s.entryAt thread leaf = some e) : Sound (s.setLeaf thread leaf) where
  journal := h.journal
  forest := h.forest.withLeaves fun thread' id hl => by
    rw [activeLeaf_setLeaf, Map.lookup_insert] at hl
    split at hl
    · rename_i ht
      subst ht
      cases hl
      exact hleaf
    · exact h.forest.leaves thread' id hl

theorem Sound.clearLeaf (h : Sound s) (thread : ThreadId) :
    Sound (s.clearLeaf thread) where
  journal := h.journal
  forest := h.forest.withLeaves fun thread' id hl => by
    rw [activeLeaf_clearLeaf, Map.lookup_erase] at hl
    split at hl
    · cases hl
    · exact h.forest.leaves thread' id hl

theorem Sound.setBase (h : Sound s) (thread : ThreadId) (base : ThreadBaseRef) :
    Sound (s.setBase thread base) :=
  ⟨h.journal, h.forest⟩

theorem Sound.clearBase (h : Sound s) (thread : ThreadId) : Sound (s.clearBase thread) :=
  ⟨h.journal, h.forest⟩

/-! ### One call -/

theorem Sound.resolveParent (h : Sound s) {c : ThreadCoordinates}
    {parentArg : Option SessionEntryId} {parent : SessionEntryId}
    (hr : resolveParent s c parentArg = .ok (some parent)) :
    ∃ entry, s.entryAt c.threadId parent = some entry := by
  cases parentArg with
  | none => exact h.forest.leaves c.threadId parent (Except.ok.inj hr)
  | some asked =>
    simp only [InMemory.resolveParent, bind_ok, exists_unit_ok, pure_ok, Option.some.injEq] at hr
    obtain ⟨entries, he, entry, hl, -, rfl⟩ := hr
    cases ht : s.entries.lookup c.threadId with
    | none => rw [ht] at he; cases he
    | some entries' =>
      rw [ht] at he
      cases he
      cases hk : entries.lookup asked with
      | none => rw [hk] at hl; cases hl
      | some e => exact ⟨e, by simp [Inner.entryAt, ht, hk]⟩

theorem entryAt_of_not_holds (h : ¬ s.holds id) (thread : ThreadId) :
    s.entryAt thread id = none := by
  cases he : s.entryAt thread id with
  | none => rfl
  | some entry => exact absurd (holds_of_entryAt he) h

theorem Sound.takeEntry (h : Sound s) {leaseEpoch : Nat} {event : NewEventRecord}
    (hj : Journaled s leaseEpoch (.forThread entry.coordinates) [event])
    (hfresh : ¬ s.holds entry.entryId)
    (hparent : ∀ parent, entry.parentEntryId = some parent →
      ∃ e, s.entryAt entry.coordinates.threadId parent = some e) :
    Sound (s.takeEntry leaseEpoch event entry) := by
  have hin : Sound ((s.journal leaseEpoch (.forThread entry.coordinates) [event]).insertEntry
      entry.coordinates.threadId entry) :=
    (h.journaled hj).insertEntry (entryAt_of_not_holds hfresh _) rfl hparent
  refine hin.setLeaf ⟨entry, ?_⟩
  rw [entryAt_insertEntry, if_pos ⟨rfl, rfl⟩]

theorem entryAt_insertEntries_of_mem {entries : List SessionEntry}
    (h : entry ∈ entries ∨ ∃ e, s.entryAt thread entry.entryId = some e) :
    ∃ e, (s.insertEntries thread entries).entryAt thread entry.entryId = some e := by
  induction entries generalizing s with
  | nil => exact h.resolve_left List.not_mem_nil
  | cons first rest ih =>
    refine ih (s := s.insertEntry thread first) ?_
    by_cases hid : entry.entryId = first.entryId
    · exact .inr ⟨first, by rw [entryAt_insertEntry, if_pos ⟨rfl, hid⟩]⟩
    · rcases h with h | ⟨e, he⟩
      · rcases List.mem_cons.mp h with rfl | h
        · exact absurd rfl hid
        · exact .inl h
      · exact .inr ⟨e, by rw [entryAt_insertEntry, if_neg (fun hc => hid hc.2), he]⟩

variable {path : List SessionEntry}

/-- What inserting one new entry keeps, inserting a clone keeps: each entry hangs below the one
before it. -/
theorem insertClone_rule {draws : Nat → Draw} {target : ThreadCoordinates} {P : Inner → Prop}
    (hinsert : ∀ s entry, P s → s.entryAt target.threadId entry.entryId = none →
      entry.coordinates = target →
      (∀ p, entry.parentEntryId = some p →
        ∃ e, s.entryAt target.threadId p = some e ∧ e.coordinates = target) →
      P (s.insertEntry target.threadId entry)) {index : Nat} {parent : Option SessionEntryId}
    (h : P s)
    (hfresh : ∀ i < path.length, s.entryAt target.threadId (draws (index + i)).entryId = none)
    (hdistinct : ∀ i < path.length, ∀ j < i,
      (draws (index + i)).entryId ≠ (draws (index + j)).entryId)
    (hparent : ∀ p, parent = some p →
      ∃ e, s.entryAt target.threadId p = some e ∧ e.coordinates = target) :
    P (s.insertEntries target.threadId (cloneEntries draws target path index parent)) := by
  induction path generalizing index parent s with
  | nil => exact h
  | cons source path ih =>
    let entry := SessionEntry.new (draws index) target parent source.kind
    have hnew : s.entryAt target.threadId entry.entryId = none :=
      hfresh 0 (Nat.zero_lt_succ _)
    refine ih (s := s.insertEntry target.threadId entry) (hinsert s entry h hnew rfl hparent)
      (fun i hi => ?_) (fun i hi j hj => ?_) ?_
    · have hi' : i + 1 < (source :: path).length := Nat.succ_lt_succ hi
      have hne := hdistinct (i + 1) hi' 0 (Nat.succ_pos i)
      rw [entryAt_insertEntry, Nat.add_assoc, Nat.add_comm 1 i,
        if_neg (fun hc => hne hc.2), hfresh (i + 1) hi']
    · have := hdistinct (i + 1) (Nat.succ_lt_succ hi) (j + 1) (Nat.succ_lt_succ hj)
      rwa [Nat.add_assoc, Nat.add_assoc, Nat.add_comm 1 i, Nat.add_comm 1 j]
    · rintro p hp
      cases hp
      exact ⟨entry, by rw [entryAt_insertEntry, if_pos ⟨rfl, rfl⟩], rfl⟩

theorem takeClone_rule {P : Inner → Prop} {epoch : Nat} {draws : Nat → Draw}
    {source target : ThreadCoordinates} {sourceLeaf : SessionEntryId}
    (hinsert : ∀ s entry, P s → s.entryAt target.threadId entry.entryId = none →
      entry.coordinates = target →
      (∀ p, entry.parentEntryId = some p →
        ∃ e, s.entryAt target.threadId p = some e ∧ e.coordinates = target) →
      P (s.insertEntry target.threadId entry))
    (hfresh : Fresh s ⟨epoch, draws, .cloneBranch source (some sourceLeaf) target⟩)
    (hpath : s.branchPath source sourceLeaf = .ok path) {s₁ : Inner} (hs₁ : s₁.entries = s.entries)
    (h : P s₁) : P (s₁.insertEntries target.threadId (cloneEntries draws target path 0 none)) := by
  have hcount : s.created (.cloneBranch source (some sourceLeaf) target) = path.length := by
    simp only [Inner.created, hpath]
  refine insertClone_rule hinsert h (fun i hi => ?_) (fun i hi j hj => ?_) (by simp)
  · rw [Nat.zero_add, Inner.entryAt, hs₁]
    exact entryAt_of_not_holds (hfresh i (hcount ▸ hi)).1 _
  · simpa using (hfresh i (hcount ▸ hi)).2 j hj

/-- **One call keeps the invariant.** -/
theorem Sound.step (h : Sound s) {call : Call} (hfresh : Fresh s call) : Sound (step call s).2 := by
  rcases step_cases s call with heq | ⟨reply, hok⟩
  · rwa [heq]
  · generalize (InMemory.step call s).2 = s' at hok
    cases hok with
    | append hparent hentry hj =>
      subst hentry
      refine h.takeEntry hj (hfresh 0 Nat.zero_lt_one).1 fun p hp => ?_
      cases hp
      exact h.resolveParent hparent
    | turnAgain => exact h
    | turnInput hturn hentry hj =>
      subst hentry
      exact h.takeEntry hj (hfresh 0 Nat.zero_lt_one).1 fun p hp => h.forest.leaves _ p hp
    | @selectBranch epoch draws c leaf event hpath hevent hj =>
      cases leaf with
      | none => exact (h.journaled hj).clearLeaf _
      | some l =>
        refine (h.journaled hj).setLeaf ?_
        obtain ⟨path, hpath⟩ := hpath l rfl
        obtain ⟨entry, he, -⟩ := Inner.branchPath_leaf hpath
        exact ⟨entry, he⟩
    | cloneNone => exact (h.clearBase _).clearLeaf _
    | @cloneSome _ _ _ _ target _ _ _ hpath hcloned hlast hj =>
      subst hcloned
      have hin := takeClone_rule (P := Sound)
        (fun s entry hs hnew hc hp => hs.insertEntry hnew (congrArg _ hc) fun p hpp => by
          obtain ⟨e, he, -⟩ := hp p hpp
          exact ⟨e, he⟩)
        hfresh hpath (by rfl) ((h.journaled hj).clearBase target.threadId)
      exact hin.setLeaf (entryAt_insertEntries_of_mem (.inl (List.mem_of_getLast? hlast)))
    | fork => exact (h.clearLeaf _).setBase _ _
    | events hj => exact h.journaled hj
    | fenced hj => exact h.journaled hj

/-! ### Streams grow -/

theorem streams_step (s : Inner) (call : Call) :
    ((step call s).2.eventsOf = s.eventsOf ∧ (step call s).2.eventIds = s.eventIds) ∨
    ∃ streamId records,
      Admissible (· ∈ s.eventIds) streamId (s.eventsOf streamId).length records ∧
      (step call s).2.eventsOf = appendBatch s.eventsOf streamId records ∧
      (step call s).2.eventIds = s.eventIds ∪ (records.map (·.id)).toFinset := by
  have hjournal : ∀ {s₁ : Inner} {epoch streamId records},
      Journaled s epoch streamId records → s₁.events = (s.journal epoch streamId records).events →
      s₁.eventIds = s.eventIds ∪ (records.map (·.id)).toFinset →
      (s₁.eventsOf = s.eventsOf ∧ s₁.eventIds = s.eventIds) ∨ ∃ streamId records,
        Admissible (· ∈ s.eventIds) streamId (s.eventsOf streamId).length records ∧
        s₁.eventsOf = appendBatch s.eventsOf streamId records ∧
        s₁.eventIds = s.eventIds ∪ (records.map (·.id)).toFinset := by
    intro s₁ epoch streamId records hj he hi
    have hev : s₁.eventsOf = (s.journal epoch streamId records).eventsOf := by
      funext streamId'
      rw [Inner.eventsOf, he, Inner.eventsOf]
    exact .inr ⟨streamId, records, hj.batch, by rw [hev, eventsOf_journal_eq], hi⟩
  rcases step_cases s call with heq | ⟨reply, hok⟩
  · rw [heq]
    exact .inl ⟨rfl, rfl⟩
  · generalize (InMemory.step call s).2 = s' at hok
    cases hok with
    | append _ hentry hj => subst hentry; exact hjournal hj rfl rfl
    | turnAgain _ _ _ => exact .inl ⟨rfl, rfl⟩
    | turnInput _ hentry hj => subst hentry; exact hjournal hj rfl rfl
    | @selectBranch _ _ _ leaf _ _ _ hj => cases leaf <;> exact hjournal hj rfl rfl
    | cloneNone => exact .inl ⟨rfl, rfl⟩
    | cloneSome _ _ _ hj =>
      exact hjournal hj (events_insertEntries _ _ _) (eventIds_insertEntries _ _ _)
    | fork _ _ _ => exact .inl ⟨rfl, rfl⟩
    | events hj => exact hjournal hj rfl rfl
    | fenced hj _ => exact hjournal hj rfl rfl

theorem journal_step (h : Journal s.eventsOf (· ∈ s.eventIds)) (call : Call) :
    Journal (step call s).2.eventsOf (· ∈ (step call s).2.eventIds) := by
  rcases streams_step s call with ⟨he, hi⟩ | ⟨streamId, records, ha, he, hi⟩
  · rwa [he, hi]
  · rw [he, hi]
    simpa only [Finset.mem_union, List.mem_toFinset] using h.append ha

theorem prefix_step (s : Inner) (call : Call) (streamId : EventStreamId) :
    s.eventsOf streamId <+: (step call s).2.eventsOf streamId := by
  rcases streams_step s call with ⟨he, -⟩ | ⟨streamId', records, -, he, -⟩
  · rw [he]
  · rw [he]
    exact prefix_appendBatch streamId

/-! ### Entries stay -/

theorem entryAt_insertEntry_of_fresh {thread' : ThreadId} {e : SessionEntry}
    (hfresh : s.entryAt thread entry.entryId = none) (he : s.entryAt thread' id = some e) :
    (s.insertEntry thread entry).entryAt thread' id = some e := by
  rw [entryAt_insertEntry, if_neg, he]
  rintro ⟨rfl, rfl⟩
  rw [hfresh] at he
  cases he

/-- **A stored entry stays**, unchanged. -/
theorem entryAt_step {call : Call} (hfresh : Fresh s call) {e : SessionEntry}
    (he : s.entryAt thread id = some e) : (step call s).2.entryAt thread id = some e := by
  rcases step_cases s call with heq | ⟨reply, hok⟩
  · rwa [heq]
  · generalize (InMemory.step call s).2 = s' at hok
    cases hok with
    | append _ hentry _ =>
      subst hentry
      exact entryAt_insertEntry_of_fresh
        (entryAt_of_not_holds (hfresh 0 Nat.zero_lt_one).1 _) he
    | turnAgain _ _ _ => exact he
    | turnInput _ hentry _ =>
      subst hentry
      exact entryAt_insertEntry_of_fresh
        (entryAt_of_not_holds (hfresh 0 Nat.zero_lt_one).1 _) he
    | @selectBranch _ _ _ leaf _ _ _ _ => cases leaf <;> exact he
    | cloneNone => exact he
    | cloneSome hpath hcloned _ _ =>
      subst hcloned
      exact takeClone_rule (P := fun s => s.entryAt thread id = some e)
        (fun s entry hs hnew _ _ => entryAt_insertEntry_of_fresh hnew hs) hfresh hpath (by rfl) he
    | fork _ _ _ => exact he
    | events _ => exact he
    | fenced _ _ => exact he

theorem branchPath_of_entries {s' : Inner}
    (h : ∀ thread id e, s.entryAt thread id = some e → s'.entryAt thread id = some e)
    {c : ThreadCoordinates} {leaf : SessionEntryId} (hp : s.branchPath c leaf = .ok path) :
    s'.branchPath c leaf = .ok path := by
  obtain ⟨entriesById, hl, hf⟩ := Inner.branchPath_ok.mp hp
  have hentry : ∀ id, s.entryAt c.threadId id = entriesById.lookup id := fun id => by
    simp [Inner.entryAt, hl]
  obtain ⟨first, hfirst⟩ := follow_first hf
  cases hl' : s'.entries.lookup c.threadId with
  | none =>
    have := h c.threadId leaf first ((hentry leaf).trans (loadEntry_ok.mp hfirst).1)
    simp [Inner.entryAt, hl'] at this
  | some entriesById' =>
    have hle : ∀ id e, entriesById.lookup id = some e → entriesById'.lookup id = some e := by
      intro id e he
      have := h c.threadId id e ((hentry id).trans he)
      simpa [Inner.entryAt, hl'] using this
    refine Inner.branchPath_ok.mpr ⟨entriesById', hl', ?_⟩
    refine follow_of_le (fun id e he => ?_)
      (follow_mono (Nat.succ_le_succ (Map.size_le_of_lookup hle)) hf)
    rw [loadEntry_ok] at he ⊢
    exact ⟨hle id e he.1, he.2⟩

/-! ### Branches end -/

theorem loadEntry_ne_diverged (entriesById : Map SessionEntryId SessionEntry)
    (c : ThreadCoordinates) (id : SessionEntryId) :
    loadEntry entriesById c id ≠ .error .diverged := by
  unfold loadEntry validateEntryCoordinates
  cases entriesById.lookup id with
  | none => simp [bind, Except.bind]
  | some entry =>
    simp only [okOr_some, bind, Except.bind]
    split_ifs <;> simp [pure, Except.pure]

/-- **`branch_path` ends.**  The loop of the model never runs out of fuel. -/
theorem Sound.branchPath_ne_diverged (h : Sound s) (c : ThreadCoordinates) (leaf : SessionEntryId) :
    s.branchPath c leaf ≠ .error .diverged := by
  cases hl : s.entries.lookup c.threadId with
  | none => simp [Inner.branchPath, hl, bind, Except.bind]
  | some entriesById =>
    have hentry : ∀ id, s.entryAt c.threadId id = entriesById.lookup id := fun id => by
      simp [Inner.entryAt, hl]
    have hsize : s.entryCount c.threadId = Map.size entriesById := by
      simp [Inner.entryCount, hl]
    obtain ⟨age, hage⟩ := h.forest.aged
    have hends : follow (loadEntry entriesById c) (·.parentEntryId) (Map.size entriesById + 1)
        (some leaf) [] ≠ none := by
      cases hk : entriesById.lookup leaf with
      | none => simp [follow_some, loadEntry, hk, bind, Except.bind]
      | some entry =>
        refine follow_ne_none (age c.threadId) (fun id e parent he hp => ?_) ?_ []
        · rw [loadEntry_ok, ← hentry] at he
          exact ((hage c.threadId id e he.1).2 parent hp).2
        · have := (hage c.threadId leaf entry ((hentry leaf).trans hk)).1
          omega
    intro hdiv
    simp only [Inner.branchPath, hl, okOr_some] at hdiv
    change Option.getD (follow (loadEntry entriesById c) _ _ _ _) _ = _ at hdiv
    cases hf : follow (loadEntry entriesById c) (·.parentEntryId) (Map.size entriesById + 1)
        (some leaf) [] with
    | none => exact hends hf
    | some r =>
      rw [hf] at hdiv
      obtain rfl : r = .error .diverged := hdiv
      obtain ⟨id, hid⟩ := follow_error hf
      exact loadEntry_ne_diverged entriesById c id hid

/-! ### Whole runs -/

theorem sound_run {calls : List Call} (h : Along step Fresh calls .empty) :
    Sound (run step calls .empty) :=
  h.invariant (fun _ _ hs hf => hs.step hf) sound_empty

/-- **Journal integrity.**  After any calls through any handles: each stream carries the sequences
1..n in order, event ids are unique across streams, discharged events have provenance; active
leaves and parents are entries of their own thread, chains of parents end at a root and
`branch_path` ends.  A further call only extends the streams, and one that fails changes
nothing. -/
theorem journal_integrity (calls : List Call) (hfresh : Along step Fresh calls .empty) :
    let s := run step calls .empty
    (∀ streamId, (s.eventsOf streamId).map (·.sequence) =
      (List.range (s.eventsOf streamId).length).map fun i : Nat => (i : EventSequence) + 1) ∧
    (∀ (streamId streamId' : EventStreamId) (i j : Nat) (event event' : EventRecord),
      (s.eventsOf streamId)[i]? = some event → (s.eventsOf streamId')[j]? = some event' →
        event.id = event'.id → streamId = streamId' ∧ i = j) ∧
    (∀ streamId, ∀ event ∈ s.eventsOf streamId, event.origin = .discharged →
      event.provenance.isEmpty = false) ∧
    (∀ thread leaf, s.activeLeaf.lookup thread = some leaf →
      ∃ entry, s.entryAt thread leaf = some entry ∧ entry.entryId = leaf ∧
        entry.coordinates.threadId = thread) ∧
    (∀ thread id entry parent, s.entryAt thread id = some entry →
      entry.parentEntryId = some parent → ∃ entry', s.entryAt thread parent = some entry' ∧
        entry'.entryId = parent ∧ entry'.coordinates.threadId = thread) ∧
    (∀ thread id entry, s.entryAt thread id = some entry → Rooted s.entryAt thread id) ∧
    (∀ c leaf, s.branchPath c leaf ≠ .error .diverged) ∧
    ∀ call, (∀ streamId, s.eventsOf streamId <+: (step call s).2.eventsOf streamId) ∧
      ∀ e, (step call s).1 = .error e → (step call s).2 = s := by
  intro s
  have hs : Sound s := sound_run hfresh
  refine ⟨fun streamId => ?_, hs.journal.unique, hs.journal.provenance, fun thread leaf hl => ?_,
    fun thread id entry parent he hp => ?_, fun thread id entry he => hs.forest.rooted he,
    hs.branchPath_ne_diverged, fun call => ⟨prefix_step s call, fun e he => step_error he⟩⟩
  · refine List.ext_getElem? fun i => ?_
    rw [List.getElem?_map, List.getElem?_map]
    cases hi : (s.eventsOf streamId)[i]? with
    | none =>
      have := List.getElem?_eq_none_iff.mp hi
      rw [List.getElem?_eq_none_iff.mpr (by simpa using this)]
      rfl
    | some event =>
      have hlt := (List.getElem?_eq_some_iff.mp hi).1
      rw [List.getElem?_range hlt]
      exact congrArg some (hs.journal.placed streamId i event hi).2
  · obtain ⟨entry, he⟩ := hs.forest.leaves thread leaf hl
    exact ⟨entry, he, hs.forest.keyed thread leaf entry he⟩
  · obtain ⟨entry', he'⟩ := hs.forest.parent he hp
    exact ⟨entry', he', hs.forest.keyed thread parent entry' he'⟩

/-- A branch is written, rewound, cloned and forked. -/
def sampleCalls : List Call :=
  [.counted 0 1 (.append (.counted "user" 1) none (.said "first") none),
   .counted 2 2 (.appendTurnInput (.counted "user" 1) "turn" (.said "second")),
   .counted 2 3 (.selectBranch (.counted "user" 1) (some (.counted 1))),
   .counted 0 4 (.cloneBranch (.counted "user" 1) (some (.counted 2)) (.counted "user" 2))]

set_option maxRecDepth 100000 in
theorem journal_integrity_sample :
    (((run step sampleCalls .empty).eventsOf (.forThread (.counted "user" 2))).map (·.sequence) =
      (List.range ((run step sampleCalls .empty).eventsOf
        (.forThread (.counted "user" 2))).length).map fun i : Nat => (i : EventSequence) + 1) :=
  (journal_integrity sampleCalls (by decide)).1 _

end Verlet.History.InMemory
