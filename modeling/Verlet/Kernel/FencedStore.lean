import Verlet.Kernel.EventStore

/-!
# Kernel — Fenced stores

A store that also takes a batch on a condition: `append_events_fenced` names the sequence that the
batch is to start with, and takes it only where the stream ends just before.

* `fenced_cases`: a fenced append is taken at the end it names, or leaves everything as it was.
-/

namespace Verlet.Kernel
open Support History

def nextSequence (events : List EventRecord) : EventSequence :=
  match events.getLast? with
  | some event => event.sequence + 1
  | none       => 1

variable {streamId : EventStreamId}

theorem nextSequence_eq {events : List EventRecord} (h : Placed streamId events) :
    nextSequence events = (events.length : Int) + 1 := by
  cases hlast : events.getLast? with
  | none => rw [nextSequence, hlast, List.getLast?_eq_none_iff.mp hlast]; rfl
  | some last =>
    rw [List.getLast?_eq_getElem?] at hlast
    have hlt := (List.getElem?_eq_some_iff.mp hlast).1
    have hsequence : last.sequence = ((events.length - 1 : Nat) : Int) + 1 := (h _ last hlast).2
    rw [nextSequence, List.getLast?_eq_getElem?, hlast]
    have hlength : (events.length : Int) = ((events.length - 1 : Nat) : Int) + 1 := by omega
    change last.sequence + 1 = _
    rw [hsequence, ← hlength]

/-- A journal store with `append_events_fenced`. -/
structure FencedStore (σ : Type) extends JournalStore σ where
  appendEventsFenced :
    EventStreamId → EventSequence → List NewEventRecord → σ → HistoryResult (List EventRecord) × σ
  /-- A fenced append that is taken is an append, at the sequence it names. -/
  fences : ∀ {streamId expected records s found s'},
    appendEventsFenced streamId expected records s = (.ok found, s') →
      expected = ((events s streamId).length : Int) + 1 ∧
        appendEvents streamId records s = (.ok found, s')
  refusesFenced : ∀ {streamId expected records s e s'},
    appendEventsFenced streamId expected records s = (.error e, s') → s' = s

variable {σ : Type}

theorem FencedStore.fenced_cases (store : FencedStore σ) (streamId : EventStreamId)
    (expected : EventSequence) (records : List NewEventRecord) (s : σ) :
    (∃ e, store.appendEventsFenced streamId expected records s = (.error e, s)) ∨
    ∃ s', store.appendEventsFenced streamId expected records s =
        (.ok (numbered streamId (store.events s streamId).length records), s') ∧
      expected = ((store.events s streamId).length : Int) + 1 ∧
      Admissible (store.taken s) streamId (store.events s streamId).length records ∧
      store.events s' = appendBatch (store.events s) streamId records ∧
      ∀ id, store.taken s' id ↔ store.taken s id ∨ id ∈ records.map (·.id) := by
  rcases h : store.appendEventsFenced streamId expected records s with ⟨e | found, s'⟩
  · obtain rfl := store.refusesFenced h
    exact .inl ⟨e, rfl⟩
  · obtain ⟨hexpected, happend⟩ := store.fences h
    obtain ⟨hadmissible, rfl, hevents, htaken⟩ := store.appends happend
    exact .inr ⟨s', rfl, hexpected, hadmissible, hevents, htaken⟩

/-- **A batch that is fenced at the end of what was read** is taken only where the stream still ends
there. -/
theorem FencedStore.appended_at_end {store : FencedStore σ} {seen found : List EventRecord}
    {records : List NewEventRecord} {s s' : σ} (hseen : seen <+: store.events s streamId)
    (h : store.appendEventsFenced streamId (nextSequence seen) records s = (.ok found, s')) :
    seen = store.events s streamId ∧ found = numbered streamId seen.length records ∧
      store.events s' = appendBatch (store.events s) streamId records := by
  rcases store.fenced_cases streamId (nextSequence seen) records s with
    ⟨e, hrefused⟩ | ⟨s'', htaken, hexpected, -, hevents, -⟩
  · cases hrefused.symm.trans h
  · obtain ⟨hfound, rfl⟩ := Prod.mk.inj (htaken.symm.trans h)
    obtain rfl := Except.ok.inj hfound
    have hplaced : Placed streamId seen := by
      rw [List.prefix_iff_eq_take.mp hseen]
      exact Placed.take ((store.journal s).placed streamId) _
    have hlength := (nextSequence_eq hplaced).symm.trans hexpected
    obtain rfl := hseen.eq_of_length (Int.ofNat.inj (add_right_cancel hlength))
    exact ⟨rfl, rfl, hevents⟩

/-! ### The in-memory store -/

section
variable {leaseEpoch : Nat}

def InMemoryState.appendFenced (s : InMemoryState leaseEpoch) (streamId : EventStreamId)
    (expected : EventSequence) (records : List NewEventRecord) : InMemoryState leaseEpoch :=
  if expected = ((s.inner.eventsOf streamId).length : Int) + 1 then s.append streamId records else s

theorem InMemoryState.append_of_error {s : InMemoryState leaseEpoch} {records : List NewEventRecord}
    {e : HistoryError}
    (h : (exec (InMemory.appendEvents leaseEpoch streamId records) s.inner).1 = .error e) :
    s.append streamId records = s := by
  have hsame : (s.append streamId records).inner = s.inner := inMemory_append_error (Prod.ext h rfl)
  cases s
  exact (InMemoryState.mk.injEq ..).mpr hsame

theorem exec_appendEventsFenced (s : InMemory.Inner) (streamId : EventStreamId)
    (expected : EventSequence) (records : List NewEventRecord) :
    exec (InMemory.appendEventsFenced leaseEpoch streamId expected records) s =
      match InMemory.checkInMemoryLeaseEpoch s streamId leaseEpoch with
      | .error e => (.error e, s)
      | .ok _    =>
        if expected = ((s.eventsOf streamId).length : Int) + 1 then
          exec (InMemory.appendInMemoryEvents streamId records leaseEpoch) s
        else (.error (.appendFenceConflict streamId expected
          (((s.eventsOf streamId).length : Int) + 1)), s) := by
  rw [InMemory.appendEventsFenced, exec_reading_bind]
  cases InMemory.checkInMemoryLeaseEpoch s streamId leaseEpoch with
  | error e => rfl
  | ok _ =>
    dsimp only
    rw [exec_reading_bind]
    by_cases hend : expected = ((s.eventsOf streamId).length : Int) + 1
    · simp [hend]
    · simp [hend, Ne.symm hend]

end

def inMemoryFenced (leaseEpoch : Nat) : FencedStore (InMemoryState leaseEpoch) where
  toJournalStore := inMemoryStore leaseEpoch
  appendEventsFenced streamId expected records s :=
    ((exec (InMemory.appendEventsFenced leaseEpoch streamId expected records) s.inner).1,
      s.appendFenced streamId expected records)
  fences := by
    intro streamId expected records s found s' h
    obtain ⟨hfound, rfl⟩ := Prod.mk.inj h
    have hok := InMemory.appendEventsFenced_ok.mp (Prod.ext hfound rfl)
    obtain ⟨hjournaled, hexpected, hfound', -⟩ := hok
    refine ⟨hexpected, ?_⟩
    have happend := InMemory.appendEvents_ok.mpr ⟨hjournaled, hfound', rfl⟩
    have hanswer : (exec (InMemory.appendEvents leaseEpoch streamId records) s.inner).1 =
        .ok found := congrArg Prod.fst happend
    rw [InMemoryState.appendFenced, if_pos hexpected]
    exact Prod.ext hanswer rfl
  refusesFenced := by
    intro streamId expected records s e s' h
    obtain ⟨herror, rfl⟩ := Prod.mk.inj h
    rw [InMemoryState.appendFenced]
    split
    · rename_i hend
      refine InMemoryState.append_of_error (e := e) ?_
      rw [exec_appendEventsFenced, checkInMemoryLeaseEpoch_ok, if_pos hend] at herror
      rw [InMemory.appendEvents, exec_reading_bind, checkInMemoryLeaseEpoch_ok]
      exact herror
    · rfl

end Verlet.Kernel
