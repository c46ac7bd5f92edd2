import Verlet.Kernel.RuntimeHost.ThreadStarts

/-!
# Kernel — The runtime host — Thread starts — Ownership

Any number of starts, resumes, forks, cancels and shutdowns on one host.  A start owns its
reservation, and then the thread it publishes: nothing else takes the one away, and what takes the
other away never puts it back.

* `rely_of_serves`: no call takes from another caller what it owns.
-/

namespace Verlet.Kernel
open Support
open History (ThreadId)

/-- Callers of one host, each with a request. -/
structure Hosting (ι : Type) where
  config : HostConfig
  requests : ι → HostRequest

variable {context : ThreadContext} {removed : Bool}

namespace Hosting
open HostM

variable {ι : Type}

/-! ### What is true of the maps -/

variable {i : ι} {w w' w'' : HostMaps ι}

/-- A thread is under its own id, no id is in both maps, and no thread has too many children. -/
structure Consistent (maxChildThreads : Option Nat) (w : HostMaps ι) : Prop where
  registered : ∀ id thread, w.threads.lookup id = some thread → thread.threadId = id
  apart : ∀ id, w.threads.lookup id = none ∨ w.reservations.lookup id = none
  capped : ∀ max, maxChildThreads = some max → ∀ parent, w.childCount parent ≤ max

variable {maxChildThreads : Option Nat}

theorem consistent_empty : Consistent maxChildThreads (.empty : HostMaps ι) where
  registered _ _ h := by cases h
  apart _ := .inl rfl
  capped _ _ _ := Nat.zero_le _

/-- **The critical section of a reservation**: where it reserves, the id is new, and the parent has
room for a child. -/
theorem reserveStart_cases {answer : ReserveAnswer ι}
    (h : (answer, w') = w.reserveStart maxChildThreads i context) :
    (answer = .reserved ∧ w' = w.insertReservation i context ∧
      w.threads.lookup context.coordinates.threadId = none ∧
      w.reservations.lookup context.coordinates.threadId = none ∧
      ∀ max parent, maxChildThreads = some max → context.parentThreadId = some parent →
        w.childCount parent < max) ∨
    (answer ≠ .reserved ∧ w' = w) := by
  unfold HostMaps.reserveStart at h
  dsimp only at h
  split at h
  · obtain ⟨rfl, rfl⟩ := Prod.mk.inj h
    exact .inr ⟨nofun, rfl⟩
  · rename_i hnew
    rw [not_or, Option.not_isSome_iff_eq_none, Option.not_isSome_iff_eq_none] at hnew
    split at h
    · rename_i parent max hparent
      split at h
      · obtain ⟨rfl, rfl⟩ := Prod.mk.inj h
        exact .inr ⟨nofun, rfl⟩
      · rename_i hroom
        obtain ⟨rfl, rfl⟩ := Prod.mk.inj h
        refine .inl ⟨rfl, rfl, hnew.1, hnew.2, fun max' parent' hmax hparent' => ?_⟩
        obtain rfl := Option.some.inj hmax
        obtain rfl := Option.some.inj (hparent.symm.trans hparent')
        exact Nat.lt_of_not_le hroom
    · rename_i hopen
      obtain ⟨rfl, rfl⟩ := Prod.mk.inj h
      exact .inl ⟨rfl, rfl, hnew.1, hnew.2, fun max parent hmax hparent =>
        (hopen parent max hparent hmax).elim⟩

theorem Consistent.reserve {answer : ReserveAnswer ι} (h : Consistent maxChildThreads w)
    (hreserve : (answer, w') = w.reserveStart maxChildThreads i context) :
    Consistent maxChildThreads w' := by
  rcases reserveStart_cases hreserve with ⟨-, rfl, hthread, hfresh, hroom⟩ | ⟨-, rfl⟩
  · refine ⟨h.registered, fun id => ?_, fun max hmax parent => ?_⟩
    · by_cases hid : id = context.coordinates.threadId
      · exact .inl (hid ▸ hthread)
      · refine (h.apart id).imp_right fun h => ?_
        exact (AList.lookup_insert_ne hid).trans h
    · have hcount : (w.insertReservation i context).childCount parent = w.childCount parent +
          if context.parentThreadId = some parent then 1 else 0 := by
        unfold HostMaps.childCount HostMaps.insertReservation
        rw [Map.countValues_insert_of_fresh _ hfresh]
        simp only [decide_eq_true_eq]
        omega
      rw [hcount]
      split
      · exact hroom max parent hmax ‹_›
      · exact h.capped max hmax parent
  · exact h

theorem Consistent.release (h : Consistent maxChildThreads w) (threadId : ThreadId) :
    Consistent maxChildThreads (w.releaseStart threadId) where
  registered := h.registered
  apart id := by
    refine (h.apart id).imp_right fun h => ?_
    change (w.reservations.erase threadId).lookup id = none
    rw [Map.lookup_erase]
    split
    · rfl
    · exact h
  capped max hmax parent :=
    Nat.le_trans (Nat.add_le_add_left (Map.countValues_erase_le ..) _) (h.capped max hmax parent)

variable {thread : RuntimeThread ι}

/-- **A publication keeps the count**: the thread is its parent's child in place of its
reservation. -/
theorem Consistent.publish {start : ThreadStartReservationState ι}
    (h : Consistent maxChildThreads w)
    (hheld : w.reservations.lookup context.coordinates.threadId = some start)
    (hparent : start.context.parentThreadId = context.parentThreadId)
    (hpublish : (thread, w') = w.publish i context) : Consistent maxChildThreads w' := by
  obtain ⟨rfl, rfl⟩ := Prod.mk.inj hpublish
  have hfresh : w.threads.lookup context.coordinates.threadId = none :=
    (h.apart _).resolve_right fun hnone => by rw [hheld] at hnone; cases hnone
  refine ⟨fun id thread hthread => ?_, fun id => ?_, fun max hmax parent => ?_⟩
  · change (w.threads.insert context.coordinates.threadId ⟨context, i⟩).lookup id = _ at hthread
    rw [Map.lookup_insert] at hthread
    split at hthread
    · obtain rfl := Option.some.inj hthread
      exact (‹id = _›).symm
    · exact h.registered id thread hthread
  · by_cases hid : id = context.coordinates.threadId
    · refine .inr ?_
      change (w.reservations.erase context.coordinates.threadId).lookup id = none
      rw [Map.lookup_erase, if_pos hid]
    · refine (h.apart id).imp (fun h => ?_) fun h => ?_
      · exact (AList.lookup_insert_ne hid).trans h
      · exact (AList.lookup_erase_ne hid).trans h
  · have hcount := h.capped max hmax parent
    have herase := Map.countValues_erase
      (fun start => decide (start.context.parentThreadId = some parent)) hheld
    unfold HostMaps.childCount at hcount ⊢
    rw [Map.countValues_insert_of_fresh _ hfresh]
    simp only [hparent] at herase ⊢
    omega

/-! ### What a caller owns -/

/-- No reservation is the caller's. -/
def NoReservation (i : ι) (w : HostMaps ι) : Prop :=
  ∀ id start, w.reservations.lookup id = some start → start.settled ≠ i

/-- No registered thread is the caller's. -/
def NoThread (i : ι) (w : HostMaps ι) : Prop :=
  ∀ id thread, w.threads.lookup id = some thread → thread.arc ≠ i

/-- The caller left nothing. -/
structure Free (i : ι) (w : HostMaps ι) : Prop where
  reservation : NoReservation i w
  thread : NoThread i w

theorem free_empty (i : ι) : Free i .empty where
  reservation _ _ h := by cases h
  thread _ _ h := by cases h

/-- The caller holds the reservation of the context's thread. -/
structure Reserving (i : ι) (context : ThreadContext) (w : HostMaps ι) : Prop where
  held : ∃ reserved, w.reservations.lookup context.coordinates.threadId = some ⟨reserved, i⟩ ∧
    reserved.parentThreadId = context.parentThreadId
  only : ∀ id start, w.reservations.lookup id = some start → start.settled = i →
    id = context.coordinates.threadId
  thread : NoThread i w

/-- The caller published the thread, and has published no other. -/
structure Published (i : ι) (thread : RuntimeThread ι) (w : HostMaps ι) : Prop where
  reservation : NoReservation i w
  own : thread.arc = i
  only : ∀ id found, w.threads.lookup id = some found → found.arc = i → id = thread.threadId

/-- What the other callers leave a caller: its reservation, and of its thread at most what was
there. -/
structure Rely (i : ι) (w w' : HostMaps ι) : Prop where
  reservations : ∀ id start, start.settled = i →
    (w'.reservations.lookup id = some start ↔ w.reservations.lookup id = some start)
  threads : ∀ id thread, thread.arc = i → w'.threads.lookup id = some thread →
    w.threads.lookup id = some thread

theorem Rely.refl (i : ι) (w : HostMaps ι) : Rely i w w :=
  ⟨fun _ _ _ => Iff.rfl, fun _ _ _ h => h⟩

theorem Rely.trans (h : Rely i w w') (h' : Rely i w' w'') : Rely i w w'' where
  reservations id start hstart := (h'.reservations id start hstart).trans (h.reservations id start hstart)
  threads id thread harc hthread := h.threads id thread harc (h'.threads id thread harc hthread)

theorem NoReservation.rely (h : NoReservation i w) (hrely : Rely i w w') : NoReservation i w' :=
  fun id start hstart hi => h id start ((hrely.reservations id start hi).mp hstart) hi

theorem NoThread.rely (h : NoThread i w) (hrely : Rely i w w') : NoThread i w' :=
  fun id thread hthread hi => h id thread (hrely.threads id thread hi hthread) hi

theorem Free.rely (h : Free i w) (hrely : Rely i w w') : Free i w' :=
  ⟨h.reservation.rely hrely, h.thread.rely hrely⟩

theorem Reserving.rely (h : Reserving i context w) (hrely : Rely i w w') :
    Reserving i context w' := by
  obtain ⟨reserved, hheld, hparent⟩ := h.held
  refine ⟨⟨reserved, (hrely.reservations _ _ rfl).mpr hheld, hparent⟩, fun id start hstart hi => ?_,
    h.thread.rely hrely⟩
  exact h.only id start ((hrely.reservations id start hi).mp hstart) hi

theorem Published.rely (h : Published i thread w) (hrely : Rely i w w') : Published i thread w' :=
  ⟨h.reservation.rely hrely, h.own, fun id found hfound hi =>
    h.only id found (hrely.threads id found hi hfound) hi⟩

theorem Reserving.same {context' : ThreadContext} (h : Reserving i context w)
    (hid : context'.coordinates.threadId = context.coordinates.threadId)
    (hparent : context'.parentThreadId = context.parentThreadId) : Reserving i context' w := by
  obtain ⟨reserved, hheld, hsame⟩ := h.held
  exact ⟨⟨reserved, hid ▸ hheld, hsame.trans hparent.symm⟩,
    fun id start hstart hi => (h.only id start hstart hi).trans hid.symm, h.thread⟩

/-- What a caller may ask: it reserves where it owns nothing, and releases and publishes what it
reserved. -/
def asks (i : ι) : HostCall ι → HostMaps ι → Prop
  | .reserveStart _, w => Free i w
  | .releaseStart threadId, w =>
    ∃ context, context.coordinates.threadId = threadId ∧ Reserving i context w
  | .publish context, w => Reserving i context w
  | _, _ => True

/-- What a caller ends with: no reservation, and, where it did not succeed, no thread. -/
def ends (i : ι) (result : Except Stopped (Option (RuntimeThread ι))) (w : HostMaps ι) : Prop :=
  NoReservation i w ∧ ∀ stopped, result = .error stopped → NoThread i w

/-! ### One call -/

theorem reserving_insert (h : Free i w) : Reserving i context (w.insertReservation i context) := by
  refine ⟨⟨context, ?_, rfl⟩, fun id start hstart hi => ?_, h.thread⟩
  · exact AList.lookup_insert _
  · change (w.reservations.insert context.coordinates.threadId ⟨context, i⟩).lookup id = _ at hstart
    rw [Map.lookup_insert] at hstart
    split at hstart
    · assumption
    · exact absurd hi (h.reservation id start hstart)

theorem free_release (h : Reserving i context w) :
    Free i (w.releaseStart context.coordinates.threadId) := by
  refine ⟨fun id start hstart hi => ?_, h.thread⟩
  change (w.reservations.erase context.coordinates.threadId).lookup id = _ at hstart
  rw [Map.lookup_erase] at hstart
  split at hstart
  · cases hstart
  · exact ‹id ≠ _› (h.only id start hstart hi)

theorem published_publish (h : Reserving i context w)
    (hpublish : (thread, w') = w.publish i context) : Published i thread w' := by
  obtain ⟨rfl, rfl⟩ := Prod.mk.inj hpublish
  refine ⟨(free_release h).reservation, rfl, fun id found hfound hi => ?_⟩
  change (w.threads.insert context.coordinates.threadId ⟨context, i⟩).lookup id = _ at hfound
  rw [Map.lookup_insert] at hfound
  split at hfound
  · assumption
  · exact absurd hi (h.thread id found hfound)

/-! ### Calls and callers -/

variable [DecidableEq ι]

theorem removeThreadIfCurrent_cases (h : (removed, w') = w.removeThreadIfCurrent thread) :
    (w' = { w with threads := w.threads.erase thread.threadId }) ∨
    (w' = w ∧ ∀ current, w.threads.lookup thread.threadId = some current →
      current.arc ≠ thread.arc) := by
  unfold HostMaps.removeThreadIfCurrent at h
  split at h
  · rename_i current hcurrent
    split at h
    · exact .inl (Prod.mk.inj h).2
    · rename_i hother
      refine .inr ⟨(Prod.mk.inj h).2, fun found hfound => ?_⟩
      obtain rfl := Option.some.inj (hcurrent.symm.trans hfound)
      exact hother
  · rename_i hnone
    refine .inr ⟨(Prod.mk.inj h).2, fun found hfound => ?_⟩
    rw [hnone] at hfound
    cases hfound

theorem Consistent.remove (h : Consistent maxChildThreads w)
    (hremove : (removed, w') = w.removeThreadIfCurrent thread) : Consistent maxChildThreads w' := by
  rcases removeThreadIfCurrent_cases hremove with rfl | ⟨rfl, -⟩
  · refine ⟨fun id found hfound => ?_, fun id => ?_, fun max hmax parent => ?_⟩
    · change (w.threads.erase thread.threadId).lookup id = _ at hfound
      rw [Map.lookup_erase] at hfound
      split at hfound
      · cases hfound
      · exact h.registered id found hfound
    · refine (h.apart id).imp_left fun h => ?_
      change (w.threads.erase thread.threadId).lookup id = none
      rw [Map.lookup_erase]
      split
      · rfl
      · exact h
    · exact Nat.le_trans (Nat.add_le_add_right (Map.countValues_erase_le ..) _)
        (h.capped max hmax parent)
  · exact h

theorem free_remove (h : Published i thread w)
    (hremove : (removed, w') = w.removeThreadIfCurrent thread) : Free i w' := by
  rcases removeThreadIfCurrent_cases hremove with rfl | ⟨rfl, hother⟩
  · refine ⟨h.reservation, fun id found hfound hi => ?_⟩
    change (w.threads.erase thread.threadId).lookup id = _ at hfound
    rw [Map.lookup_erase] at hfound
    split at hfound
    · cases hfound
    · exact ‹id ≠ _› (h.only id found hfound hi)
  · refine ⟨h.reservation, fun id found hfound hi => ?_⟩
    obtain rfl := h.only id found hfound hi
    exact hother found hfound (hi.trans h.own.symm)

section
variable (hosting : Hosting ι)

/-- How the calls are served: the maps are as they are, and whatever else is asked is answered in any
way. -/
def serves (i : ι) : (call : HostCall ι) → HostMaps ι → call.Reply → HostMaps ι → Prop
  | .getThread threadId, w, found, w' => found = w.threads.lookup threadId ∧ w' = w
  | .reserveStart context, w, answer, w' =>
    (answer, w') = w.reserveStart hosting.config.policy.maxChildThreads i context
  | .releaseStart threadId, w, _, w' => w' = w.releaseStart threadId
  | .subscribeStart threadId, w, waiting, w' =>
    waiting = (w.reservations.lookup threadId).isSome ∧ w' = w
  | .publish context, w, thread, w' => (thread, w') = w.publish i context
  | .removeThreadIfCurrent thread, w, removed, w' => (removed, w') = w.removeThreadIfCurrent thread
  | _, w, _, w' => w' = w

def starts (i : ι) (_ : HostMaps ι)
    (p : Proc (HostCall ι) HostCall.Reply (Except Stopped (Option (RuntimeThread ι)))) : Prop :=
  p = (serveRequest hosting.config (hosting.requests i)).run

/-- The callers at work on the host. -/
abbrev Callers (ι : Type) :=
  Pool ι (HostCall ι) HostCall.Reply (Except Stopped (Option (RuntimeThread ι))) (HostMaps ι)

abbrev Reaches (pool : Callers ι) : Prop :=
  Pool.Reachable hosting.starts hosting.serves (fun w w' => w' = w) .empty pool

end

variable {hosting : Hosting ι}

/-- The calls that leave the maps alone. -/
def Aside : HostCall ι → Prop
  | .reserveStart _          => False
  | .releaseStart _          => False
  | .publish _               => False
  | .removeThreadIfCurrent _ => False
  | _                        => True

theorem Aside.serves {call : HostCall ι} (h : Aside call) {r : call.Reply}
    (hserves : hosting.serves i call w r w') : w' = w := by
  cases call <;> first | exact h.elim | exact hserves | exact hserves.2

omit [DecidableEq ι] in
theorem Aside.quiet {call : HostCall ι} (h : Aside call) (w : HostMaps ι) : asks i call w := by
  cases call <;> first | exact h.elim | exact trivial

theorem rely_of_serves {call : HostCall ι} {r : call.Reply} (hasks : asks i call w)
    (hserves : hosting.serves i call w r w') {j : ι} (hj : j ≠ i) : Rely j w w' := by
  cases call with
  | reserveStart context =>
    rcases reserveStart_cases hserves with ⟨-, rfl, -, hfresh, -⟩ | ⟨-, rfl⟩
    · refine ⟨fun id start hstart => ?_, fun _ _ _ h => h⟩
      change (w.reservations.insert context.coordinates.threadId ⟨context, i⟩).lookup id = _ ↔ _
      rw [Map.lookup_insert]
      split
      · rename_i hid
        rw [hid, hfresh]
        exact ⟨fun h => (hj (hstart.symm.trans (congrArg (·.settled) (Option.some.inj h)).symm)).elim,
          nofun⟩
      · exact Iff.rfl
    · exact Rely.refl j _
  | releaseStart threadId =>
    obtain rfl := hserves
    obtain ⟨context, rfl, hheld⟩ := hasks
    obtain ⟨reserved, hlookup, -⟩ := hheld.held
    refine ⟨fun id start hstart => ?_, fun _ _ _ h => h⟩
    change (w.reservations.erase context.coordinates.threadId).lookup id = _ ↔ _
    rw [Map.lookup_erase]
    split
    · rename_i hid
      rw [hid, hlookup]
      exact ⟨nofun, fun h => (hj (hstart.symm.trans (congrArg (·.settled) (Option.some.inj h)).symm)).elim⟩
    · exact Iff.rfl
  | publish context =>
    obtain ⟨rfl, rfl⟩ := Prod.mk.inj hserves
    obtain ⟨reserved, hlookup, -⟩ := hasks.held
    refine ⟨fun id start hstart => ?_, fun id found harc hfound => ?_⟩
    · change (w.reservations.erase context.coordinates.threadId).lookup id = _ ↔ _
      rw [Map.lookup_erase]
      split
      · rename_i hid
        rw [hid, hlookup]
        exact ⟨nofun, fun h =>
          (hj (hstart.symm.trans (congrArg (·.settled) (Option.some.inj h)).symm)).elim⟩
      · exact Iff.rfl
    · change (w.threads.insert context.coordinates.threadId ⟨context, i⟩).lookup id = _ at hfound
      rw [Map.lookup_insert] at hfound
      split at hfound
      · obtain rfl := Option.some.inj hfound
        exact (hj harc.symm).elim
      · exact hfound
  | removeThreadIfCurrent thread =>
    rcases removeThreadIfCurrent_cases hserves with rfl | ⟨rfl, -⟩
    · refine ⟨fun _ _ _ => Iff.rfl, fun id found _ hfound => ?_⟩
      change (w.threads.erase thread.threadId).lookup id = _ at hfound
      rw [Map.lookup_erase] at hfound
      split at hfound
      · cases hfound
      · exact hfound
    · exact Rely.refl j _
  | _ =>
    obtain rfl := Aside.serves (by trivial) hserves
    exact Rely.refl j _

/-- **A call keeps the maps consistent.** -/
theorem Consistent.call (h : Consistent hosting.config.policy.maxChildThreads w)
    {call : HostCall ι} {r : call.Reply} (hasks : asks i call w)
    (hserves : hosting.serves i call w r w') :
    Consistent hosting.config.policy.maxChildThreads w' := by
  cases call with
  | reserveStart context => exact h.reserve hserves
  | releaseStart threadId =>
    obtain rfl := hserves
    exact h.release threadId
  | publish context =>
    obtain ⟨reserved, hheld, hparent⟩ := hasks.held
    exact h.publish hheld hparent hserves
  | removeThreadIfCurrent thread => exact h.remove hserves
  | _ =>
    obtain rfl := Aside.serves (by trivial) hserves
    exact h

end Hosting

end Verlet.Kernel
