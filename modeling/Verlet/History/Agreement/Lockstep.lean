import Verlet.History.Agreement.Relation

/-!
# History — Agreement — Lockstep

The two stores, call by call: a call succeeds in one where it does in the other, with the same
reply, and leaves them related (`Represents.step`).
-/

namespace Verlet.History.Agreement
open Support
open History.InMemory (Inner Fresh cloneEntries)
open History.Sqlite

variable {Text : Type} {codec : Codec Text} {owner : ThreadId → ThreadCoordinates} {s : Inner}
  {db : Db Text}

/-- Each thread id is used with the coordinates `owner` gives it. -/
def Owned (owner : ThreadId → ThreadCoordinates) : Op → Prop
  | .append c _ _ _ | .appendTurnInput c _ _ | .selectBranch c _ => owner c.threadId = c
  | .cloneBranch source _ target | .forkByReference source target _ =>
    owner source.threadId = source ∧ owner target.threadId = target
  | .appendEvents _ _ | .appendEventsFenced _ _ _ => True

instance (owner : ThreadId → ThreadCoordinates) : (op : Op) → Decidable (Owned owner op)
  | .append _ _ _ _ | .appendTurnInput _ _ _ | .selectBranch _ _ =>
    inferInstanceAs (Decidable (_ = _))
  | .cloneBranch _ _ _ | .forkByReference _ _ _ => inferInstanceAs (Decidable (_ ∧ _))
  | .appendEvents _ _ | .appendEventsFenced _ _ _ => inferInstanceAs (Decidable True)

/-! ### The in-memory store stays regular -/

variable {thread : ThreadId} {id : SessionEntryId}

theorem entryAt_insertEntries_cases {s : Inner} {thread' : ThreadId} {entries : List SessionEntry}
    {e : SessionEntry} (h : (s.insertEntries thread entries).entryAt thread' id = some e) :
    s.entryAt thread' id = some e ∨ thread' = thread ∧ e ∈ entries ∧ e.entryId = id := by
  induction entries generalizing s with
  | nil => exact .inl h
  | cons entry entries ih =>
    rcases ih (s := s.insertEntry thread entry) h with h | ⟨ht, hm, hid⟩
    · rw [InMemory.entryAt_insertEntry] at h
      split at h
      · rename_i hc
        cases h
        exact .inr ⟨hc.1, List.mem_cons_self, hc.2.symm⟩
      · exact .inl h
    · exact .inr ⟨ht, .tail _ hm, hid⟩

theorem Regular.extend (h : Regular owner s) {s' : Inner} (hsound : InMemory.Sound s')
    {c : ThreadCoordinates} (hc : owner c.threadId = c) (new : List SessionEntry)
    (hcoords : ∀ e ∈ new, e.coordinates = c)
    (hcases : ∀ thread id e, s'.entryAt thread id = some e →
      s.entryAt thread id = some e ∨ thread = c.threadId ∧ e ∈ new ∧ e.entryId = id)
    (hturns : ∀ e ∈ new, ∀ turnId, e.turnId = some turnId →
      new = [e] ∧ s.turnEntryAt c.threadId turnId = none)
    (hvalid : ∀ streamId, ∀ event ∈ s'.eventsOf streamId, event.validateStreamRecordV1 = .ok ()) :
    Regular owner s' where
  sound := hsound
  owned thread id e he := by
    rcases hcases thread id e he with he | ⟨rfl, hm, -⟩
    · exact h.owned thread id e he
    · exact (hcoords e hm).trans hc.symm
  turns thread id id' e e' turnId he he' ht ht' := by
    -- an old entry of the thread is of no turn that a new one is of
    have hold : ∀ {id new' old}, old ∈ new → old.turnId = some turnId →
        s.entryAt c.threadId id = some new' → new'.turnId = some turnId → False := by
      intro id new' old hm hto hat htn
      have hnone := (hturns old hm turnId hto).2
      have hid := (h.sound.forest.keyed _ _ _ hat).1
      rw [(turnEntryAt_eq h).mpr ⟨hid ▸ hat, htn⟩] at hnone
      cases hnone
    rcases hcases thread id e he with he | ⟨rfl, hm, hid⟩ <;>
      rcases hcases _ id' e' he' with he' | ⟨ht₂, hm', hid'⟩
    · exact h.turns thread id id' e e' turnId he he' ht ht'
    · subst ht₂
      exact (hold hm' ht' he ht).elim
    · exact (hold hm ht he' ht').elim
    · have hone := (hturns e hm turnId ht).1
      rw [hone, List.mem_singleton] at hm'
      rw [← hid, ← hid', hm']
  valid := hvalid

theorem Regular.valid_step (h : Regular owner s) (call : Call) (streamId : EventStreamId) :
    ∀ event ∈ (InMemory.step call s).2.eventsOf streamId,
      event.validateStreamRecordV1 = .ok () := by
  intro event he
  rcases InMemory.streams_step s call with ⟨hev, -⟩ | ⟨streamId', records, ha, hev, -⟩
  · rw [hev] at he
    exact h.valid streamId event he
  · rw [hev, appendBatch] at he
    split at he
    · rcases List.mem_append.mp he with he | he
      · exact h.valid _ event he
      · exact ha.schema event he
    · exact h.valid streamId event he

variable {draws : Nat → Draw} {target : ThreadCoordinates} {entry : SessionEntry}

theorem turnId_cloneEntries {path : List SessionEntry} {index : Nat}
    {parent : Option SessionEntryId} (h : entry ∈ cloneEntries draws target path index parent) :
    entry.turnId = none := by
  induction path generalizing index parent with
  | nil => cases h
  | cons source path ih =>
    rcases List.mem_cons.mp h with rfl | h
    · rfl
    · exact ih h

variable {epoch : Nat}

theorem Regular.takeEntry (h : Regular owner s) {event : NewEventRecord}
    (hsound : InMemory.Sound (s.takeEntry epoch event entry))
    (hc : owner entry.coordinates.threadId = entry.coordinates)
    (hturn : ∀ turnId, entry.turnId = some turnId →
      s.turnEntryAt entry.coordinates.threadId turnId = none)
    (hvalid : ∀ streamId, ∀ e ∈ (s.takeEntry epoch event entry).eventsOf streamId,
      e.validateStreamRecordV1 = .ok ()) : Regular owner (s.takeEntry epoch event entry) := by
  refine h.extend hsound hc [entry] (fun e he => ?_) (fun thread id e he => ?_)
    (fun e he turnId ht => ?_) hvalid
  · rw [List.mem_singleton.mp he]
  · exact entryAt_insertEntries_cases (s := s) he
  · obtain rfl := List.mem_singleton.mp he
    exact ⟨rfl, hturn turnId ht⟩

/-- **Every call keeps the store regular**, where each thread id is used with its coordinates. -/
theorem Regular.step (h : Regular owner s) {call : Call} (hfresh : Fresh s call)
    (howned : Owned owner call.op) : Regular owner (InMemory.step call s).2 := by
  have hsound := h.sound.step hfresh
  have hvalid := h.valid_step call
  rcases InMemory.step_cases s call with heq | ⟨reply, hok⟩
  · rwa [heq]
  · generalize (InMemory.step call s).2 = s' at hok hsound hvalid
    cases hok with
    | append _ hentry _ =>
      subst hentry
      exact h.takeEntry hsound howned (fun _ ht => by cases ht) hvalid
    | turnAgain => exact h
    | turnInput hturn hentry _ =>
      subst hentry
      refine h.takeEntry hsound howned (fun _ ht => ?_) hvalid
      cases ht
      exact hturn
    | @selectBranch _ _ _ leaf _ _ _ _ =>
      exact ⟨hsound, by cases leaf <;> exact h.owned, by cases leaf <;> exact h.turns, hvalid⟩
    | cloneNone | fork | events | fenced => exact ⟨hsound, h.owned, h.turns, hvalid⟩
    | @cloneSome epoch draws _ _ target path cloned last _ hcloned _ _ =>
      refine h.extend hsound howned.2 cloned
        (fun e he => Sqlite.coordinates_cloneEntries (hcloned ▸ he)) (fun thread id e he => ?_)
        (fun e he turnId ht => ?_) hvalid
      · exact entryAt_insertEntries_cases
          (s := (s.journal epoch (.forThread target) (InMemory.cloneEvents draws cloned)).clearBase
            target.threadId) he
      · rw [hcloned] at he
        rw [turnId_cloneEntries he] at ht
        cases ht

/-! ### Writes keep the stores related -/

variable {rows : List (EntryRow Text)}

theorem SameEntries.insertEntry (h : SameEntries codec s.entryAt rows) (hs : Storable rows entry) :
    SameEntries codec (s.insertEntry entry.coordinates.threadId entry).entryAt
      (rows ++ [.of codec entry]) where
  stored thread id e he := by
    rw [InMemory.entryAt_insertEntry] at he
    split at he
    · cases he
      exact List.mem_append_right _ (List.mem_singleton_self _)
    · exact List.mem_append_left _ (h.stored thread id e he)
  rows row hrow := by
    rcases List.mem_append.mp hrow with hold | hnew
    · obtain ⟨e, rfl, he⟩ := h.rows row hold
      refine ⟨e, rfl, ?_⟩
      rw [InMemory.entryAt_insertEntry, if_neg, he]
      exact fun hc => hs.fresh _ hold hc.2
    · obtain rfl := List.mem_singleton.mp hnew
      refine ⟨entry, rfl, ?_⟩
      rw [InMemory.entryAt_insertEntry, if_pos ⟨rfl, rfl⟩]

theorem SameEntries.insertEntries {entries : List SessionEntry}
    (h : SameEntries codec s.entryAt rows)
    (hthread : ∀ e ∈ entries, e.coordinates.threadId = thread) (hs : StorableAll codec rows entries) :
    SameEntries codec (s.insertEntries thread entries).entryAt
      (rows ++ entries.map (.of codec)) := by
  induction entries generalizing s rows with
  | nil =>
    rw [List.map_nil, List.append_nil]
    exact h
  | cons entry entries ih =>
    have hfirst := hthread entry List.mem_cons_self
    have hin := h.insertEntry hs.1
    rw [hfirst] at hin
    have hrest := ih hin (fun e he => hthread e (.tail _ he)) hs.2
    rw [List.append_assoc, List.singleton_append] at hrest
    exact hrest

variable (h : Represents codec s db)

include h

theorem Represents.raise {streamId : EventStreamId}
    (hl : InMemory.checkInMemoryLeaseEpoch s streamId epoch = .ok ())
    (records : List NewEventRecord) (streamId' : EventStreamId) :
    (Sqlite.raiseLease db.journalLeaseEpochs streamId epoch).lookup streamId' =
      ((s.journal epoch streamId records).leaseEpochMinimums.lookup streamId').map
        fun epoch : Nat => (epoch : Int) := by
  rw [InMemory.minimums_journal]
  have hstored := h.epochs streamId
  have hother := h.epochs streamId'
  -- the epoch presented is no smaller than the one recorded
  have hle : (s.leaseEpochMinimums.lookup streamId).getD 0 ≤ epoch := by
    unfold InMemory.checkInMemoryLeaseEpoch at hl
    cases hm : s.leaseEpochMinimums.lookup streamId with
    | none => exact Nat.zero_le _
    | some minimum =>
      rw [hm] at hl
      by_cases hlt : epoch < minimum
      · simp [hlt] at hl
      · exact not_lt.mp hlt
  have hnat : ((db.journalLeaseEpochs.lookup streamId).getD 0).toNat =
      (s.leaseEpochMinimums.lookup streamId).getD 0 := by
    rw [hstored]
    cases s.leaseEpochMinimums.lookup streamId <;> simp
  unfold Sqlite.raiseLease
  rw [hnat]
  by_cases heq : epoch = (s.leaseEpochMinimums.lookup streamId).getD 0
  · rw [if_pos heq, hother]
    split
    · rename_i hc
      obtain ⟨rfl, hpos⟩ := hc
      cases hm : s.leaseEpochMinimums.lookup streamId' with
      | none => rw [hm] at heq; simp at heq; omega
      | some minimum => rw [hm] at heq; simp [heq]
    · rfl
  · have hpos : 0 < epoch := by omega
    rw [if_neg heq, Map.lookup_insert]
    by_cases hs : streamId' = streamId
    · simp [hs, hpos, max_eq_right hle]
    · simp [hs, hother]

/-- **A batch keeps the stores related.** -/
theorem Represents.journal (hs : InMemory.Sound s)
    {streamId : EventStreamId} {records : List NewEventRecord}
    (hj : InMemory.Journaled s epoch streamId records) :
    Represents codec (s.journal epoch streamId records)
      (db.journal codec epoch streamId records) where
  entries := h.entries
  leaves := h.leaves
  bases := h.bases
  events streamId' := by
    change (List.filter _ (db.eventRecords ++ _)) = _
    rw [List.filter_append, h.events, Sqlite.filter_numbered, h.count hs, InMemory.eventsOf_journal]
    split
    · rename_i hst
      rw [hst, List.map_append]
    · rw [List.append_nil]
  ids id := by
    have hbatch : (db.insertEvents codec (numbered streamId (db.count streamId) records)).hasEvent id
        ↔ id ∈ s.eventIds ∨ id ∈ records.map (·.id) := by
      rw [Sqlite.hasEvent_insertEvents, map_id_numbered, h.ids]
    rw [InMemory.eventIds_journal, Finset.mem_union, List.mem_toFinset]
    exact hbatch
  epochs := h.raise hj.lease records

theorem Represents.takeEntry (hs : InMemory.Sound s) {event : NewEventRecord}
    (hj : InMemory.Journaled s epoch (.forThread entry.coordinates) [event])
    (hrow : Storable db.sessionEntries entry) :
    Represents codec (s.takeEntry epoch event entry) (db.takeEntry codec epoch event entry) where
  entries := h.entries.insertEntry hrow
  leaves := by
    simp only [Sqlite.Db.takeEntry, h.leaves]
    rfl
  bases := h.bases
  events := (h.journal hs hj).events
  ids := (h.journal hs hj).ids
  epochs := (h.journal hs hj).epochs

theorem Represents.takeClone (hs : InMemory.Sound s)
    {cloned : List SessionEntry} {last : SessionEntry}
    (hj : InMemory.Journaled s epoch (.forThread target) (InMemory.cloneEvents draws cloned))
    (htarget : ∀ e ∈ cloned, e.coordinates = target)
    (hrows : StorableAll codec db.sessionEntries cloned) :
    Represents codec (s.takeClone epoch draws target cloned last)
      (db.takeClone codec epoch draws target cloned last) := by
  have hjournal := h.journal hs hj
  have hentries := SameEntries.insertEntries
    (s := (s.journal epoch (.forThread target) (InMemory.cloneEvents draws cloned)).clearBase
      target.threadId) h.entries (fun e he => congrArg _ (htarget e he)) hrows
  refine ⟨hentries, ?_, ?_, fun streamId => ?_, fun id => ?_, fun streamId => ?_⟩
  · simp only [Sqlite.Db.takeClone, Inner.takeClone, InMemory.activeLeaf_setLeaf,
      InMemory.activeLeaf_insertEntries, InMemory.activeLeaf_clearBase, InMemory.activeLeaf_journal,
      h.leaves]
  · simp only [Sqlite.Db.takeClone, Inner.takeClone, InMemory.bases_setLeaf,
      InMemory.bases_insertEntries, InMemory.bases_clearBase, InMemory.bases_journal, h.bases]
  · simp only [Inner.takeClone, Inner.eventsOf, InMemory.events_setLeaf,
      InMemory.events_insertEntries, InMemory.events_clearBase]
    exact hjournal.events streamId
  · simp only [Inner.takeClone, InMemory.eventIds_setLeaf, InMemory.eventIds_insertEntries,
      InMemory.eventIds_clearBase]
    exact hjournal.ids id
  · simp only [Inner.takeClone, InMemory.minimums_setLeaf, InMemory.minimums_insertEntries,
      InMemory.minimums_clearBase]
    exact hjournal.epochs streamId

theorem Represents.moveLeaf (thread : ThreadId) (leaf : Option SessionEntryId) :
    Represents codec (s.moveLeaf thread leaf) (db.moveLeaf thread leaf) := by
  cases leaf with
  | none =>
    refine ⟨h.entries, ?_, h.bases, h.events, h.ids, h.epochs⟩
    simp only [Sqlite.Db.moveLeaf, h.leaves]
    rfl
  | some leaf =>
    refine ⟨h.entries, ?_, h.bases, h.events, h.ids, h.epochs⟩
    simp only [Sqlite.Db.moveLeaf, h.leaves]
    rfl

/-! ### The constraints let new entries in -/

theorem Represents.fresh_row (hid : ¬ s.holds id) :
    ∀ row ∈ db.sessionEntries, row.entryId ≠ id := by
  rintro row hrow rfl
  obtain ⟨entry, rfl, he⟩ := h.entries.rows row hrow
  exact hid (InMemory.holds_of_entryAt he)

theorem Represents.row_of_entry (hs : InMemory.Sound s)
    (he : s.entryAt thread id = some entry) : ∃ row ∈ db.sessionEntries, row.entryId = id :=
  ⟨_, h.entries.stored thread id entry he, (hs.forest.keyed thread id entry he).1⟩

theorem Represents.storable (hs : Regular owner s) (hid : ¬ s.holds entry.entryId)
    (hparent : ∀ parent, entry.parentEntryId = some parent →
      ∃ e, s.entryAt entry.coordinates.threadId parent = some e)
    (hturn : ∀ turnId, entry.turnId = some turnId →
      s.turnEntryAt entry.coordinates.threadId turnId = none) :
    Storable db.sessionEntries entry where
  fresh := h.fresh_row hid
  parent parent hp := by
    obtain ⟨e, he⟩ := hparent parent hp
    exact .inr (h.row_of_entry hs.sound he)
  turn turnId ht row hrow hthread hrt := by
    obtain ⟨e, rfl, he⟩ := h.entries.rows row hrow
    have hnone := hturn turnId ht
    rw [← hthread] at hnone
    have hsome := (turnEntryAt_eq hs).mpr ⟨he, hrt⟩
    exact absurd (hnone.symm.trans hsome) (by simp)

omit h

theorem storableAll_clones {path : List SessionEntry} {index : Nat} {parent : Option SessionEntryId}
    (hfresh : ∀ i < path.length, ∀ row ∈ rows, row.entryId ≠ (draws (index + i)).entryId)
    (hdistinct : ∀ i < path.length, ∀ j < i,
      (draws (index + i)).entryId ≠ (draws (index + j)).entryId)
    (hparent : ∀ p, parent = some p → ∃ row ∈ rows, row.entryId = p) :
    StorableAll codec rows (cloneEntries draws target path index parent) := by
  induction path generalizing index parent rows with
  | nil => trivial
  | cons source path ih =>
    refine ⟨⟨hfresh 0 (Nat.zero_lt_succ _), fun p hp => .inr (hparent p hp), by
      intro turnId ht; cases ht⟩, ih (fun i hi row hrow => ?_) (fun i hi j hj => ?_) ?_⟩
    · have hi' : i + 1 < (source :: path).length := Nat.succ_lt_succ hi
      rw [Nat.add_assoc, Nat.add_comm 1 i]
      rcases List.mem_append.mp hrow with hold | hnew
      · exact hfresh (i + 1) hi' row hold
      · obtain rfl := List.mem_singleton.mp hnew
        exact Ne.symm (hdistinct (i + 1) hi' 0 (Nat.succ_pos i))
    · have := hdistinct (i + 1) (Nat.succ_lt_succ hi) (j + 1) (Nat.succ_lt_succ hj)
      rwa [Nat.add_assoc, Nat.add_assoc, Nat.add_comm 1 i, Nat.add_comm 1 j]
    · rintro p hp
      cases hp
      exact ⟨_, List.mem_append_right _ (List.mem_singleton_self _), rfl⟩

/-! ### One call -/

section Call

variable (h : Represents codec s db) (hs : Regular owner s) (hr : ReadsBack codec db) {call : Call}
  (howned : Owned owner call.op) (hepoch : call.leaseEpoch ≤ Sqlite.i64Max)
include h hs hr howned hepoch

theorem Represents.forward (hfresh : Fresh s call) {reply : Reply} {s' : Inner}
    (hok : InMemory.Succeeds s call reply s') :
    ∃ db', Sqlite.Succeeds codec db call reply db' ∧ Represents codec s' db' := by
  have hcount := h.count hs.sound
  cases hok with
  | @append epoch draws c parentArg kind provenance parent _ hparent hentry hj =>
    subst hentry
    have hrow : Storable db.sessionEntries (.new (draws 0) c parent kind) := by
      refine h.storable hs (hfresh 0 Nat.zero_lt_one).1 (fun p hp => ?_) (fun _ ht => nomatch ht)
      cases hp
      exact hs.sound.resolveParent hparent
    exact ⟨_, .append ((h.resolveParent hs hr howned _).trans hparent) rfl hrow
      ((h.journaled hs.sound hepoch).mpr hj), h.takeEntry hs.sound hj hrow⟩
  | turnAgain hturn hc hkind =>
    exact ⟨db, .turnAgain ((h.turnEntryAt hs hr _ _).trans (congrArg _ hturn)) hc hkind, h⟩
  | @turnInput epoch draws c turnId kind _ hturn hentry hj =>
    subst hentry
    have hrow : Storable db.sessionEntries
        (.forTurn (draws 0) c (s.activeLeaf.lookup c.threadId) turnId kind) := by
      refine h.storable hs (hfresh 0 Nat.zero_lt_one).1
        (fun p hp => hs.sound.forest.leaves _ p hp) (fun _ ht => ?_)
      cases ht
      exact hturn
    exact ⟨_, .turnInput ((h.turnEntryAt hs hr _ _).trans (congrArg _ hturn))
      (h.activeLeaf hs hr howned).1 rfl hrow ((h.journaled hs.sound hepoch).mpr hj),
      h.takeEntry hs.sound hj hrow⟩
  | @selectBranch epoch draws c leaf event hpath hevent hj =>
    subst hevent
    refine ⟨_, .selectBranch (h.activeLeaf hs hr howned).1 (fun l hl => ?_) rfl
      ((h.journaled hs.sound hepoch).mpr hj), ?_⟩
    · obtain ⟨path, hp⟩ := hpath l hl
      exact ⟨path, (h.branchPath hs.sound hr c l).trans hp⟩
    · exact (h.journal hs.sound hj).moveLeaf c.threadId leaf
  | @cloneNone _ _ _ target =>
    refine ⟨_, .cloneNone, h.entries, ?_, ?_, h.events, h.ids, h.epochs⟩
    · simp only [h.leaves]
      rfl
    · simp only [h.bases]
      rfl
  | @cloneSome _ draws source leaf target path _ _ hpath hcloned hlast hj =>
    subst hcloned
    have hcreated : s.created (.cloneBranch source (some leaf) target) = path.length := by
      simp only [Inner.created, hpath]
    have hrows : StorableAll codec db.sessionEntries (cloneEntries draws target path 0 none) := by
      refine storableAll_clones (fun i hi => ?_) (fun i hi j hj => ?_) (by simp)
      · rw [Nat.zero_add]
        exact h.fresh_row (hfresh i (hcreated ▸ hi)).1
      · simpa using (hfresh i (hcreated ▸ hi)).2 j hj
    exact ⟨_, .cloneSome ((h.branchPath hs.sound hr _ _).trans hpath) rfl hlast hrows
      ((h.journaled hs.sound hepoch).mpr hj),
      h.takeClone hs.sound hj (fun e he => Sqlite.coordinates_cloneEntries he) hrows⟩
  | @fork _ _ source target base hbase hcycle hleaf =>
    have hchild : base.childThreadId = target.threadId := (validateThreadBaseRef_ok.mp hbase).2.2.1
    refine ⟨_, .fork hbase ?_ (fun leaf hl => ?_), h.entries, ?_, ?_, h.events, h.ids, h.epochs⟩
    · rw [Sqlite.validateSqliteBaseCycle, h.bases]
      exact hcycle
    · obtain ⟨context, hx⟩ := hleaf leaf hl
      exact ⟨context, (h.buildContext hs.sound hr source (some leaf)).trans hx⟩
    · simp only [h.leaves]
      rfl
    · simp only [h.bases, hchild]
      rfl
  | events hj =>
    rw [← hcount]
    exact ⟨_, .events ((h.journaled hs.sound hepoch).mpr hj), h.journal hs.sound hj⟩
  | fenced hj hseq =>
    rw [← hcount] at hseq ⊢
    exact ⟨_, .fenced ((h.journaled hs.sound hepoch).mpr hj) hseq, h.journal hs.sound hj⟩

theorem Represents.backward {reply : Reply} {db' : Db Text}
    (hok : Sqlite.Succeeds codec db call reply db') : ∃ s', InMemory.Succeeds s call reply s' := by
  have hcount := h.count hs.sound
  cases hok with
  | append hparent hentry _ hj =>
    exact ⟨_, .append ((h.resolveParent hs hr howned _).symm.trans hparent) hentry
      ((h.journaled hs.sound hepoch).mp hj)⟩
  | turnAgain hturn hc hkind =>
    rw [h.turnEntryAt hs hr, Except.ok.injEq] at hturn
    exact ⟨_, .turnAgain hturn hc hkind⟩
  | turnInput hturn hparent hentry _ hj =>
    rw [h.turnEntryAt hs hr, Except.ok.injEq] at hturn
    rw [(h.activeLeaf hs hr howned).1, Except.ok.injEq] at hparent
    subst hparent
    exact ⟨_, .turnInput hturn hentry ((h.journaled hs.sound hepoch).mp hj)⟩
  | selectBranch hprior hpath hevent hj =>
    rw [(h.activeLeaf hs hr howned).1, Except.ok.injEq] at hprior
    subst hprior
    refine ⟨_, .selectBranch (fun l hl => ?_) hevent ((h.journaled hs.sound hepoch).mp hj)⟩
    obtain ⟨path, hp⟩ := hpath l hl
    exact ⟨path, (h.branchPath hs.sound hr _ l).symm.trans hp⟩
  | cloneNone => exact ⟨_, .cloneNone⟩
  | cloneSome hpath hcloned hlast _ hj =>
    exact ⟨_, .cloneSome ((h.branchPath hs.sound hr _ _).symm.trans hpath) hcloned hlast
      ((h.journaled hs.sound hepoch).mp hj)⟩
  | fork hbase hcycle hleaf =>
    rw [Sqlite.validateSqliteBaseCycle, h.bases] at hcycle
    refine ⟨_, .fork hbase hcycle (fun leaf hl => ?_)⟩
    obtain ⟨context, hx⟩ := hleaf leaf hl
    exact ⟨context, (h.buildContext hs.sound hr _ (some leaf)).symm.trans hx⟩
  | events hj =>
    rw [hcount]
    exact ⟨_, .events ((h.journaled hs.sound hepoch).mp hj)⟩
  | fenced hj hseq =>
    rw [hcount] at hseq ⊢
    exact ⟨_, .fenced ((h.journaled hs.sound hepoch).mp hj) hseq⟩

/-- **One call**: the stores succeed or fail together, reply alike, and stay related. -/
theorem Represents.step (hfresh : Fresh s call) :
    (InMemory.step call s).1.toOption = (Sqlite.step codec call db).1.toOption ∧
    Represents codec (InMemory.step call s).2 (Sqlite.step codec call db).2 := by
  have hcounted := h.counted hs.sound
  rcases hin : InMemory.step call s with ⟨_ | reply, s'⟩
  · rcases hsql : Sqlite.step codec call db with ⟨_ | reply, db'⟩
    · rw [InMemory.eq_of_step_error hin, Sqlite.eq_of_step_error hsql]
      exact ⟨rfl, h⟩
    · obtain ⟨s₁, hok⟩ := h.backward hs hr howned hepoch ((Sqlite.step_ok_iff hcounted).mp hsql)
      rw [InMemory.step_ok_iff.mpr hok] at hin
      cases hin
  · obtain ⟨db', hok, hrep⟩ :=
      h.forward hs hr howned hepoch hfresh (InMemory.step_ok_iff.mp hin)
    rw [(Sqlite.step_ok_iff hcounted).mpr hok]
    exact ⟨rfl, hrep⟩

end Call

/-! ### Whole runs -/

theorem represents_empty : Represents codec .empty .empty where
  entries := ⟨by simp [Inner.entryAt, Inner.empty], by simp [Db.empty]⟩
  leaves := rfl
  bases := rfl
  events _ := rfl
  ids := by simp [Db.hasEvent, Db.empty, Inner.empty]
  epochs _ := rfl

theorem regular_empty (owner : ThreadId → ThreadCoordinates) : Regular owner .empty where
  sound := InMemory.sound_empty
  owned := by simp [Inner.entryAt, Inner.empty]
  turns := by simp [Inner.entryAt, Inner.empty]
  valid := by simp [Inner.eventsOf, Inner.empty]

theorem tables_run (codec : Codec Text) {db : Db Text} (h : Sqlite.Counted db) (calls : List Call) :
    db.sessionEntries <+: (run (Sqlite.step codec) calls db).sessionEntries ∧
    db.eventRecords <+: (run (Sqlite.step codec) calls db).eventRecords := by
  induction calls generalizing db with
  | nil => exact ⟨List.prefix_rfl, List.prefix_rfl⟩
  | cons call calls ih =>
    obtain ⟨hentries, hevents⟩ := ih (h.step call)
    exact ⟨(Sqlite.sessionEntries_step h call).trans hentries,
      (Sqlite.eventRecords_step h call).trans hevents⟩

theorem Represents.run {calls : List Call} (h : Represents codec s db) (hs : Regular owner s)
    (howned : ∀ call ∈ calls, Owned owner call.op)
    (hepochs : ∀ call ∈ calls, call.leaseEpoch ≤ Sqlite.i64Max)
    (hfresh : Along InMemory.step Fresh calls s)
    (hr : ReadsBack codec (run (Sqlite.step codec) calls db)) :
    (replies InMemory.step calls s).map Except.toOption =
      (replies (Sqlite.step codec) calls db).map Except.toOption ∧
    Represents codec (Support.run InMemory.step calls s) (Support.run (Sqlite.step codec) calls db) ∧
    Regular owner (Support.run InMemory.step calls s) := by
  induction calls generalizing s db with
  | nil => exact ⟨rfl, h, hs⟩
  | cons call calls ih =>
    obtain ⟨hentries, hevents⟩ := tables_run codec (h.counted hs.sound) (call :: calls)
    have howned₀ := howned call List.mem_cons_self
    obtain ⟨hreply, hnext⟩ := h.step hs (hr.anti hentries hevents) howned₀
      (hepochs call List.mem_cons_self) hfresh.1
    obtain ⟨hreplies, hrep, hreg⟩ := ih hnext (hs.step hfresh.1 howned₀)
      (fun c hc => howned c (.tail _ hc)) (fun c hc => hepochs c (.tail _ hc)) hfresh.2 hr
    refine ⟨?_, hrep, hreg⟩
    simp only [replies, List.map_cons, hreply, hreplies]

/-- **The stores agree.**  Through handles of any lease epochs up to `i64::MAX`, with each thread
id used with one and the same coordinates and the same fresh ids drawn, the stores succeed or fail
together call by call and return the same values, and so does every later read of events, active
leaves and contexts. -/
theorem stores_agree (codec : Codec Text) (owner : ThreadId → ThreadCoordinates)
    (calls : List Call) (howned : ∀ call ∈ calls, Owned owner call.op)
    (hepochs : ∀ call ∈ calls, call.leaseEpoch ≤ Sqlite.i64Max)
    (hfresh : Along InMemory.step Fresh calls .empty)
    (hr : ReadsBack codec (run (Sqlite.step codec) calls .empty)) :
    (replies InMemory.step calls .empty).map Except.toOption =
      (replies (Sqlite.step codec) calls .empty).map Except.toOption ∧
    (∀ streamId fromSequence,
      InMemory.readEvents (run InMemory.step calls .empty) streamId fromSequence =
        Sqlite.readEvents codec (run (Sqlite.step codec) calls .empty) streamId fromSequence) ∧
    (∀ c, owner c.threadId = c →
      InMemory.activeLeaf (run InMemory.step calls .empty) c =
        Sqlite.activeLeaf codec c (run (Sqlite.step codec) calls .empty)) ∧
    ∀ c, InMemory.buildContext (run InMemory.step calls .empty) c =
      Sqlite.buildContext codec (run (Sqlite.step codec) calls .empty) c := by
  obtain ⟨hreplies, hrep, hreg⟩ :=
    represents_empty.run (regular_empty owner) howned hepochs hfresh hr
  refine ⟨hreplies, fun streamId fromSequence => ?_, fun c hc => ?_, fun c => ?_⟩
  · exact (hrep.readEvents hreg hr streamId fromSequence).symm
  · obtain ⟨hsql, hin⟩ := hrep.activeLeaf hreg hr hc
    rw [hsql, hin]
  · exact (hrep.buildContext hreg.sound hr c none).symm

def sampleOwner (thread : ThreadId) : ThreadCoordinates := ⟨"tenant", "user", "session", thread⟩

set_option maxRecDepth 100000 in
theorem stores_agree_sample :
    (replies InMemory.step InMemory.sampleCalls .empty).map Except.toOption =
      (replies (Sqlite.step .tagged) InMemory.sampleCalls .empty).map Except.toOption ∧
    InMemory.buildContext (run InMemory.step InMemory.sampleCalls .empty) (.counted "user" 2) =
      Sqlite.buildContext .tagged (run (Sqlite.step .tagged) InMemory.sampleCalls .empty)
        (.counted "user" 2) := by
  have h := stores_agree .tagged sampleOwner InMemory.sampleCalls (by decide) (by decide)
    (by decide) (Sqlite.readsBack_tagged _)
  exact ⟨h.1, h.2.2.2 _⟩

def sampleMeasured : List Call := [.counted 0 1 (Sqlite.measure ⟨"measures"⟩ 1)]

set_option maxRecDepth 100000 in
/-- **A payload that `serde_json` does not read back** is read as it was from the store in memory,
and as another from the one in SQLite. -/
theorem measure_read_differently :
    (∀ call ∈ sampleMeasured, Owned sampleOwner call.op) ∧
    (∀ call ∈ sampleMeasured, call.leaseEpoch ≤ Sqlite.i64Max) ∧
    Along InMemory.step Fresh sampleMeasured .empty ∧
    payloads (InMemory.readEvents (run InMemory.step sampleMeasured .empty) ⟨"measures"⟩ none) ≠
      payloads (Sqlite.readEvents Codec.tagged.rereading
        (run (Sqlite.step Codec.tagged.rereading) sampleMeasured .empty) ⟨"measures"⟩ none) := by
  decide

end Verlet.History.Agreement
