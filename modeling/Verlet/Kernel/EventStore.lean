import Verlet.History.InMemory.Journal

/-!
# Kernel — Event stores

The store as the kernel uses it: read a stream, append a batch to one.  `JournalStore` says what
the kernel may count on: a read answers the stream, a batch is taken whole and numbered after it or
leaves everything as it was.  A store may refuse; one that `Serves` answers every read and takes
every admissible batch.

* `JournalStore.prefix_append`: an append only extends the streams.
-/

namespace Verlet.Kernel
open Support History

/-- `EventStore`: `read_events` from the start of a stream, and `append_events`. -/
structure EventStore (σ : Type) where
  readEvents : EventStreamId → σ → HistoryResult (List EventRecord)
  appendEvents : EventStreamId → List NewEventRecord → σ → HistoryResult (List EventRecord) × σ

structure JournalStore (σ : Type) extends EventStore σ where
  events : σ → EventStreamId → List EventRecord
  taken : σ → EventRecordId → Prop
  journal : ∀ s, Journal (events s) (taken s)
  reads : ∀ {streamId s found}, readEvents streamId s = .ok found → found = events s streamId
  appends : ∀ {streamId records s found s'}, appendEvents streamId records s = (.ok found, s') →
    Admissible (taken s) streamId (events s streamId).length records ∧
    found = numbered streamId (events s streamId).length records ∧
    events s' = appendBatch (events s) streamId records ∧
    ∀ id, taken s' id ↔ taken s id ∨ id ∈ records.map (·.id)
  refuses : ∀ {streamId records s e s'}, appendEvents streamId records s = (.error e, s') → s' = s

variable {σ : Type}

/-- A store that answers every read and takes every admissible batch. -/
structure JournalStore.Serves (store : JournalStore σ) : Prop where
  answers : ∀ streamId s, store.readEvents streamId s = .ok (store.events s streamId)
  accepts : ∀ {streamId records s},
    Admissible (store.taken s) streamId (store.events s streamId).length records →
      ∃ found s', store.appendEvents streamId records s = (.ok found, s')

namespace JournalStore

variable {store : JournalStore σ}

theorem append_cases (store : JournalStore σ) (streamId : EventStreamId)
    (records : List NewEventRecord) (s : σ) :
    (∃ e, store.appendEvents streamId records s = (.error e, s)) ∨
    ∃ s', store.appendEvents streamId records s =
        (.ok (numbered streamId (store.events s streamId).length records), s') ∧
      Admissible (store.taken s) streamId (store.events s streamId).length records ∧
      store.events s' = appendBatch (store.events s) streamId records ∧
      ∀ id, store.taken s' id ↔ store.taken s id ∨ id ∈ records.map (·.id) := by
  rcases h : store.appendEvents streamId records s with ⟨e | found, s'⟩
  · obtain rfl := store.refuses h
    exact .inl ⟨e, rfl⟩
  · obtain ⟨hadmissible, rfl, hevents, htaken⟩ := store.appends h
    exact .inr ⟨s', rfl, hadmissible, hevents, htaken⟩

/-- **An append only extends the streams.** -/
theorem prefix_append (store : JournalStore σ) (streamId : EventStreamId)
    (records : List NewEventRecord) (s : σ) (streamId' : EventStreamId) :
    store.events s streamId' <+: store.events (store.appendEvents streamId records s).2 streamId' := by
  rcases store.append_cases streamId records s with ⟨e, h⟩ | ⟨s', h, -, hevents, -⟩
  · rw [h]
  · rw [h, hevents]
    exact History.prefix_appendBatch streamId'

end JournalStore

/-! ### The in-memory store -/

/-- A state of the in-memory store that a handle with the epoch may write. -/
structure InMemoryState (leaseEpoch : Nat) where
  inner : InMemory.Inner
  journal : Journal inner.eventsOf (· ∈ inner.eventIds)
  /-- No stream is fenced against the handle. -/
  unfenced : ∀ streamId minimum, inner.leaseEpochMinimums.lookup streamId = some minimum →
    minimum ≤ leaseEpoch

section
variable {leaseEpoch : Nat}

def InMemoryState.empty : InMemoryState leaseEpoch := ⟨.empty, .empty _, fun _ _ h => by cases h⟩

theorem checkInMemoryLeaseEpoch_ok (s : InMemoryState leaseEpoch) (streamId : EventStreamId) :
    InMemory.checkInMemoryLeaseEpoch s.inner streamId leaseEpoch = .ok () := by
  unfold InMemory.checkInMemoryLeaseEpoch
  cases hlookup : s.inner.leaseEpochMinimums.lookup streamId with
  | none => rfl
  | some minimum => exact if_neg (Nat.not_lt.mpr (s.unfenced streamId minimum hlookup))

theorem inMemory_append_ok {s : InMemoryState leaseEpoch} {s' : InMemory.Inner}
    {streamId : EventStreamId} {records : List NewEventRecord} {found : List EventRecord} :
    exec (InMemory.appendEvents leaseEpoch streamId records) s.inner = (.ok found, s') ↔
      Admissible (· ∈ s.inner.eventIds) streamId (s.inner.eventsOf streamId).length records ∧
      found = numbered streamId (s.inner.eventsOf streamId).length records ∧
      s' = s.inner.journal leaseEpoch streamId records := by
  rw [InMemory.appendEvents, exec_reading_bind_ok]
  simp only [checkInMemoryLeaseEpoch_ok, true_and, exists_const,
    InMemory.appendInMemoryEvents_ok]

theorem inMemory_append_error {s s' : InMemory.Inner} {streamId : EventStreamId}
    {records : List NewEventRecord} {e : HistoryError}
    (h : exec (InMemory.appendEvents leaseEpoch streamId records) s = (.error e, s')) :
    s' = s :=
  Atomic.bind_of_readOnly (.reading _)
    (fun _ => InMemory.atomic_appendInMemoryEvents _ _ _) s e s' h

def InMemoryState.append (s : InMemoryState leaseEpoch) (streamId : EventStreamId)
    (records : List NewEventRecord) : InMemoryState leaseEpoch where
  inner := (exec (InMemory.appendEvents leaseEpoch streamId records) s.inner).2
  journal := by
    rcases h : exec (InMemory.appendEvents leaseEpoch streamId records) s.inner with
      ⟨e | found, s'⟩
    · obtain rfl := inMemory_append_error h
      exact s.journal
    · obtain ⟨hadmissible, -, rfl⟩ := inMemory_append_ok.mp h
      have hjournal := s.journal.append hadmissible
      simpa only [InMemory.eventsOf_journal_eq, InMemory.eventIds_journal,
        Finset.mem_union, List.mem_toFinset] using hjournal
  unfenced := by
    rcases h : exec (InMemory.appendEvents leaseEpoch streamId records) s.inner with
      ⟨e | found, s'⟩
    · obtain rfl := inMemory_append_error h
      exact s.unfenced
    · obtain ⟨-, -, rfl⟩ := inMemory_append_ok.mp h
      intro streamId' minimum hlookup
      simp only [InMemory.minimums_journal] at hlookup
      split at hlookup
      · obtain rfl := Option.some.inj hlookup
        refine Nat.max_le.mpr ⟨?_, Nat.le_refl _⟩
        cases hold : s.inner.leaseEpochMinimums.lookup streamId with
        | none => exact Nat.zero_le _
        | some old => exact s.unfenced streamId old hold
      · exact s.unfenced streamId' minimum hlookup

end

def inMemoryStore (leaseEpoch : Nat) : JournalStore (InMemoryState leaseEpoch) where
  readEvents streamId s := InMemory.readEvents s.inner streamId none
  appendEvents streamId records s :=
    ((exec (InMemory.appendEvents leaseEpoch streamId records) s.inner).1,
      s.append streamId records)
  events s := s.inner.eventsOf
  taken s id := id ∈ s.inner.eventIds
  journal s := s.journal
  reads := by
    intro streamId s found h
    simp only [InMemory.readEvents, Except.ok.injEq, List.filter_true] at h
    exact h.symm
  appends := by
    intro streamId records s found s' h
    obtain ⟨hfound, rfl⟩ := Prod.mk.inj h
    obtain ⟨hadmissible, hfound', hs'⟩ := inMemory_append_ok.mp (Prod.ext hfound rfl)
    change (s.append streamId records).inner = _ at hs'
    refine ⟨hadmissible, hfound', ?_, fun id => ?_⟩
    · rw [hs', InMemory.eventsOf_journal_eq]
    · rw [hs', InMemory.eventIds_journal, Finset.mem_union, List.mem_toFinset]
  refuses := by
    intro streamId records s e s' h
    obtain ⟨herror, rfl⟩ := Prod.mk.inj h
    have hsame : (s.append streamId records).inner = s.inner :=
      inMemory_append_error (Prod.ext herror rfl)
    cases s
    exact (InMemoryState.mk.injEq ..).mpr hsame

theorem inMemoryStore_serves (leaseEpoch : Nat) : (inMemoryStore leaseEpoch).Serves where
  answers streamId s := by simp [inMemoryStore, InMemory.readEvents]
  accepts := by
    intro streamId records s hadmissible
    have hok := (inMemory_append_ok (s := s)).mpr ⟨hadmissible, rfl, rfl⟩
    have hfound := congrArg Prod.fst hok
    exact ⟨_, s.append streamId records, Prod.ext hfound rfl⟩

end Verlet.Kernel
