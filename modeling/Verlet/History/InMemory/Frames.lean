import Verlet.History.InMemory.Fence
import Verlet.History.InMemory.Journal

/-!
# History — The in-memory store — Frames

What a call of the store leaves alone: the threads it does not target.  And what an append and a clone
make of their target.

* `Inner.branchPath_last`, `Inner.branchPath_mem`: a branch ends at its leaf, and is of its thread.
* `kind_of_last_cloneEntries`: a clone ends as its branch does.
-/

namespace Verlet.History.InMemory
open Support

/-! ### Threads -/

variable {thread : ThreadId} {c : ThreadCoordinates}

theorem threadStream_ne (h : c.threadId ≠ thread) : threadStream thread ≠ .forThread c := by
  intro hsame
  have hcoordinates : EventStreamId.forThread c = .forThread ⟨"", "", "", thread⟩ := hsame.symm
  exact h (EventStreamId.forThread_inj.mp hcoordinates)

/-- An append to another stream leaves the thread alone. -/
theorem untouched_journal {s : Inner} {leaseEpoch : Nat} {streamId : EventStreamId}
    {records : List NewEventRecord} (h : threadStream thread ≠ streamId) :
    Untouched thread s (s.journal leaseEpoch streamId records) where
  events := by rw [eventsOf_journal, if_neg h]
  entries _ := rfl
  leaf := rfl
  base := rfl

variable {thread' : ThreadId}

theorem entryAt_insertEntries_other {s : Inner} (h : thread' ≠ thread) (entries : List SessionEntry)
    (id : SessionEntryId) :
    (s.insertEntries thread entries).entryAt thread' id = s.entryAt thread' id := by
  induction entries generalizing s with
  | nil => rfl
  | cons entry entries ih =>
    refine (ih (s := s.insertEntry thread entry)).trans ?_
    rw [entryAt_insertEntry, if_neg fun hsame => h hsame.1]

theorem Untouched.trans {s s' s'' : Inner} (h : Untouched thread s s')
    (h' : Untouched thread s' s'') : Untouched thread s s'' where
  events := h'.events.trans h.events
  entries id := (h'.entries id).trans (h.entries id)
  leaf := h'.leaf.trans h.leaf
  base := h'.base.trans h.base

/-- Entries of another thread leave it alone. -/
theorem untouched_insertEntries {s : Inner} (h : thread ≠ thread') (entries : List SessionEntry) :
    Untouched thread s (s.insertEntries thread' entries) where
  events := by rw [Inner.eventsOf, events_insertEntries, Inner.eventsOf]
  entries id := entryAt_insertEntries_other h entries id
  leaf := by rw [activeLeaf_insertEntries]
  base := by rw [bases_insertEntries]

/-- The leaf of another thread leaves it alone. -/
theorem untouched_setLeaf {s : Inner} (h : thread ≠ thread') (leaf : SessionEntryId) :
    Untouched thread s (s.setLeaf thread' leaf) where
  events := rfl
  entries _ := rfl
  leaf := AList.lookup_insert_ne h
  base := rfl

theorem untouched_clearLeaf {s : Inner} (h : thread ≠ thread') :
    Untouched thread s (s.clearLeaf thread') where
  events := rfl
  entries _ := rfl
  leaf := AList.lookup_erase_ne h
  base := rfl

theorem untouched_setBase {s : Inner} (h : thread ≠ thread') (base : ThreadBaseRef) :
    Untouched thread s (s.setBase thread' base) where
  events := rfl
  entries _ := rfl
  leaf := rfl
  base := AList.lookup_insert_ne h

theorem untouched_clearBase {s : Inner} (h : thread ≠ thread') :
    Untouched thread s (s.clearBase thread') where
  events := rfl
  entries _ := rfl
  leaf := rfl
  base := AList.lookup_erase_ne h

variable {entry : SessionEntry}

/-- An entry taken for another thread leaves this one alone. -/
theorem untouched_takeEntry {s : Inner} {leaseEpoch : Nat} {event : NewEventRecord}
    (h : entry.coordinates.threadId ≠ thread) :
    Untouched thread s (s.takeEntry leaseEpoch event entry) :=
  ((untouched_journal (threadStream_ne h)).trans (untouched_insertEntries h.symm [entry])).trans
    (untouched_setLeaf h.symm _)

/-- **A call leaves alone every thread that it does not target.** -/
theorem untouched_step {s : Inner} {call : Call} (h : ¬ targets thread call.op) :
    Untouched thread s (step call s).2 := by
  rcases step_cases s call with heq | ⟨reply, hok⟩
  · rw [heq]
    exact .refl thread s
  · generalize (InMemory.step call s).2 = s' at hok
    cases hok with
    | append _ hentry _ =>
      subst hentry
      exact untouched_takeEntry h
    | turnAgain => exact .refl thread s
    | turnInput _ hentry _ =>
      subst hentry
      exact untouched_takeEntry h
    | @selectBranch _ _ _ leaf =>
      cases leaf with
      | none =>
        exact (untouched_journal (threadStream_ne h)).trans (untouched_clearLeaf (Ne.symm h))
      | some leaf =>
        exact (untouched_journal (threadStream_ne h)).trans (untouched_setLeaf (Ne.symm h) leaf)
    | cloneNone => exact (untouched_clearBase (Ne.symm h)).trans (untouched_clearLeaf (Ne.symm h))
    | cloneSome =>
      exact (((untouched_journal (threadStream_ne h)).trans
        (untouched_clearBase (Ne.symm h))).trans (untouched_insertEntries (Ne.symm h) _)).trans
          (untouched_setLeaf (Ne.symm h) _)
    | fork => exact (untouched_clearLeaf (Ne.symm h)).trans (untouched_setBase (Ne.symm h) _)
    | events => exact untouched_journal (Ne.symm h)
    | fenced => exact untouched_journal (Ne.symm h)

/-! ### Branches -/

variable {path : List SessionEntry}

/-- **A branch ends at its leaf.** -/
theorem Inner.branchPath_last {s : Inner} {leaf : SessionEntryId}
    (h : s.branchPath c leaf = .ok path) :
    ∃ entry, s.entryAt c.threadId leaf = some entry ∧ path.getLast? = some entry := by
  obtain ⟨entriesById, hl, hf⟩ := Inner.branchPath_ok.mp h
  obtain ⟨entry, he, hlast⟩ := follow_last hf
  exact ⟨entry, by simp [Inner.entryAt, hl, (loadEntry_ok.mp he).1], hlast⟩

/-- The entries of a branch are entries of its thread. -/
theorem Inner.branchPath_mem {s : Inner} {leaf : SessionEntryId}
    (h : s.branchPath c leaf = .ok path) (hentry : entry ∈ path) :
    ∃ id, s.entryAt c.threadId id = some entry := by
  obtain ⟨entriesById, hl, hf⟩ := Inner.branchPath_ok.mp h
  rcases follow_mem hf hentry with hnil | ⟨key, hkey⟩
  · cases hnil
  · exact ⟨key, by simp [Inner.entryAt, hl, (loadEntry_ok.mp hkey).1]⟩

/-! ### Clones -/

/-- Each cloned entry is of the kind of one of the branch. -/
theorem kind_of_mem_cloneEntries {draws : Nat → Draw} {target : ThreadCoordinates} {index : Nat}
    {parent : Option SessionEntryId} (h : entry ∈ cloneEntries draws target path index parent) :
    ∃ source ∈ path, entry.kind = source.kind := by
  induction path generalizing index parent with
  | nil => cases h
  | cons source path ih =>
    rcases List.mem_cons.mp h with rfl | h
    · exact ⟨source, List.mem_cons_self, rfl⟩
    · obtain ⟨found, hfound, hkind⟩ := ih h
      exact ⟨found, List.mem_cons_of_mem _ hfound, hkind⟩

/-- **A clone ends as its branch does.** -/
theorem kind_of_last_cloneEntries {draws : Nat → Draw} {target : ThreadCoordinates} {index : Nat}
    {parent : Option SessionEntryId} {last leaf : SessionEntry}
    (hlast : (cloneEntries draws target path index parent).getLast? = some last)
    (hleaf : path.getLast? = some leaf) : last.kind = leaf.kind := by
  induction path generalizing index parent with
  | nil => cases hleaf
  | cons source path ih =>
    cases path with
    | nil =>
      obtain rfl := Option.some.inj hlast
      obtain rfl := Option.some.inj hleaf
      rfl
    | cons next rest =>
      rw [List.getLast?_cons_cons] at hleaf
      have hnext : (cloneEntries draws target (next :: rest) (index + 1)
          (some (SessionEntry.new (draws index) target parent source.kind).entryId)).getLast? =
          some last := by
        simpa only [cloneEntries, List.getLast?_cons_cons] using hlast
      exact ih hnext hleaf

/-- A clone is journaled entry by entry. -/
theorem mem_cloneEvents {draws : Nat → Draw} {entries : List SessionEntry} {record : NewEventRecord}
    (h : record ∈ cloneEvents draws entries) :
    ∃ draw, ∃ entry ∈ entries, record = sessionEntryEvent draw entry none := by
  obtain ⟨index, hindex, rfl⟩ := List.mem_mapIdx.mp h
  exact ⟨draws index, entries[index], List.getElem_mem hindex, rfl⟩

theorem entryAt_insertEntries_last {s : Inner} {entries : List SessionEntry} {last : SessionEntry}
    (h : entries.getLast? = some last) :
    (s.insertEntries thread entries).entryAt thread last.entryId = some last := by
  obtain ⟨init, rfl⟩ := List.getLast?_eq_some_iff.mp h
  rw [Inner.insertEntries, List.foldl_append]
  exact (entryAt_insertEntry _ _ _ _ _).trans (if_pos ⟨rfl, rfl⟩)

/-! ### The target -/

/-- The entry's event is the last of its stream. -/
theorem eventsOf_takeEntry {s : Inner} {leaseEpoch : Nat} {event : NewEventRecord} :
    (s.takeEntry leaseEpoch event entry).eventsOf (.forThread entry.coordinates) =
      s.eventsOf (.forThread entry.coordinates) ++ [.fromNew (.forThread entry.coordinates)
        ((s.eventsOf (.forThread entry.coordinates)).length + 1) event] := by
  change (s.journal leaseEpoch (.forThread entry.coordinates) [event]).eventsOf _ = _
  rw [eventsOf_journal, if_pos rfl]
  rfl

section
variable {s : Inner} {leaseEpoch : Nat} {draws : Nat → Draw} {target : ThreadCoordinates}
  {cloned : List SessionEntry} {last : SessionEntry}

/-- The clone's events follow those of the target. -/
theorem eventsOf_takeClone :
    (s.takeClone leaseEpoch draws target cloned last).eventsOf (.forThread target) =
      s.eventsOf (.forThread target) ++ numbered (.forThread target)
        (s.eventsOf (.forThread target)).length (cloneEvents draws cloned) := by
  change (Inner.insertEntries _ _ _).eventsOf _ = _
  rw [Inner.eventsOf, events_insertEntries]
  change (s.journal leaseEpoch (.forThread target) (cloneEvents draws cloned)).eventsOf _ = _
  rw [eventsOf_journal, if_pos rfl]

theorem bases_takeClone :
    (s.takeClone leaseEpoch draws target cloned last).bases.lookup target.threadId = none := by
  change (Inner.insertEntries _ _ _).bases.lookup _ = _
  rw [bases_insertEntries]
  exact AList.lookup_erase _ _

theorem activeLeaf_takeClone :
    (s.takeClone leaseEpoch draws target cloned last).activeLeaf.lookup target.threadId =
      some last.entryId :=
  AList.lookup_insert _

theorem entryAt_takeClone (h : cloned.getLast? = some last) :
    (s.takeClone leaseEpoch draws target cloned last).entryAt target.threadId last.entryId =
      some last :=
  entryAt_insertEntries_last h

end

end Verlet.History.InMemory
