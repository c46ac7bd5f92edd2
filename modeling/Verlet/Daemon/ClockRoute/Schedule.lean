import Verlet.History.Sqlite.Streams
import Verlet.Kernel.ControlDecision.Wire
import Verlet.Kernel.MandateLifecycle.Folds
import Verlet.Daemon.ClockRoute.Occurrences

/-!
# Daemon — The clock route — One schedule for all mandates

The schedule is built in one pass over all threads, and any error ends the pass.  The streams are
taken as the daemon wrote them: every start of a mandate by `start_mandate`, every fired occurrence
from a tick of the route itself.  `Schedules` says that the pass ends with every active mandate's
tick in the schedule.
-/

namespace Verlet.Daemon
open Support Kernel History History.Sqlite

variable {Text : Type}

/-! ### What the daemon writes -/

/-- The event has the payload that `start_mandate` gives a request that validated. -/
def WrittenByStart (library : ScheduleLibrary) (codec : ControlCodec) (event : EventRecord) : Prop :=
  ∃ coordinates mandateUuid request expiresAtMs now,
    validateMandateStartRequest library request now = .ok () ∧
    event.payload =
      codec.mandateStarted.toValue (startedPayload coordinates mandateUuid request expiresAtMs)

/-- The occurrence fired: some poll of a route found the mandate's tick due. -/
def FiredBy (library : ScheduleLibrary) (mandate : ActiveMandate) (index : Nat) : Prop :=
  ∃ coordinates fired startedAt now tick, Far now ∧
    nextTickForMandate library coordinates mandate fired startedAt now = .ok (some tick) ∧
    tick.occurrenceIndex = index ∧ tick.scheduledFor ≤ now

/-- The events have a `timer.fired` of the occurrence. -/
def Fires (readTimer : Json → Option TimerFiredPayload) (events : List EventRecord)
    (mandateEventId : EventRecordId) (index : Nat) : Prop :=
  ∃ event ∈ events, event.kind = .timerFired ∧ ∃ payload, readTimer event.payload = some payload ∧
    payload.mandateEventId = mandateEventId ∧ payload.occurrenceIndex = index

/-- The control streams are as the daemon wrote them. -/
structure ClockRoute.Wrote (route : ClockRoute Text) (db : Db Text)
    (events : EventStreamId → List EventRecord) : Prop where
  started : ∀ c ∈ listControlStreamCoordinates db, ∀ event ∈ events (controlStreamId c),
    event.kind = .mandateStarted →
      WrittenByStart route.library route.control event ∧ Far (event.createdAtMs * 1000000)
  fired : ∀ c ∈ listControlStreamCoordinates db, ∀ event ∈ events (controlStreamId c),
    event.kind = .timerFired → ∃ payload, route.readTimer event.payload = some payload ∧
      ∃ mandate, Started route.control c (events (controlStreamId c)) mandate ∧
        mandate.event.id = payload.mandateEventId ∧
        FiredBy route.library mandate payload.occurrenceIndex

/-! ### What is proved -/

/-- The pass ends, with every active mandate's tick in the schedule. -/
def ClockRoute.Schedules (route : ClockRoute Text) (db : Db Text) (now : Instant) : Prop :=
  ∃ heap, route.buildDueSchedule db now = .ok heap ∧
    ∀ c ∈ listControlStreamCoordinates db, ∃ active fired,
      listActiveMandates route.control (route.read db) c = .ok active ∧
      listFiredTimerOccurrences route.codec route.readTimer db (controlStreamId c) = .ok fired ∧
      ∀ mandate ∈ active, ∃ tick,
        nextTickForMandate route.library c mandate fired route.startedAt now = .ok tick ∧
        ∀ t, tick = some t → t ∈ heap

/-- The mandate never stops the pass: an `at` mandate that fired has no further occurrence to give,
and the first occurrence of an interval is one `chrono` can hold. -/
def Lasting (readTimer : Json → Option TimerFiredPayload) (events : List EventRecord)
    (mandate : ActiveMandate) : Prop :=
  match mandate.payload.schedule with
  | some (.at _) => (∃ index, Fires readTimer events mandate.event.id index) →
      ∃ max, mandate.payload.maxOccurrences = some max ∧ max ≤ 1
  | some (.interval everyMs) => (∀ index, ¬ Fires readTimer events mandate.event.id index) →
      mandate.payload.maxOccurrences ≠ some 0 →
      (mandate.event.createdAtMs + everyMs) * 1000000 ≤ maxUtc
  | _ => True

/-! ### Reading -/

variable {now : Instant} {mandate : ActiveMandate}

section
variable {route : ClockRoute Text} {db : Db Text} {events : EventStreamId → List EventRecord}

theorem listActiveMandates_eq (hj : Journals route.codec db events) (c : ThreadCoordinates)
    (hr : ∀ event ∈ events (controlStreamId c), route.codec.Reads event) :
    listActiveMandates route.control (route.read db) c =
      activeMandatesFromEvents route.control c (events (controlStreamId c)) := by
  have hread : route.read db (controlStreamId c) = .ok (events (controlStreamId c)) :=
    (hj.holds _).readEvents_none hr
  rw [listActiveMandates, hread]
  rfl

theorem exists_listFired_ok (hj : Journals route.codec db events) {streamId : EventStreamId}
    (hr : ∀ event ∈ events streamId, route.codec.Reads event)
    (h : ∀ event ∈ events streamId, event.kind = .timerFired →
      ∃ payload, route.readTimer event.payload = some payload) :
    ∃ fired, listFiredTimerOccurrences route.codec route.readTimer db streamId = .ok fired ∧
      ∀ id index, (id, index) ∈ fired ↔ Fires route.readTimer (events streamId) id index := by
  have hrows : ∀ row, (row ∈ (db.eventRecords.filter fun row => row.streamId = streamId ∧
      row.kind = EventKind.timerFired.asRef).insertionSort
        fun row row' => row.sequence ≤ row'.sequence) ↔
      ∃ event ∈ events streamId, event.kind = .timerFired ∧ EventRow.of route.codec event = row := by
    intro row
    have hstream : (row ∈ db.eventRecords ∧ row.streamId = streamId) ↔
        row ∈ (events streamId).map (EventRow.of route.codec) := by
      rw [← hj.rows]
      simp [Sqlite.Db.stream]
    rw [List.mem_insertionSort, List.mem_filter, decide_eq_true_eq, ← and_assoc, hstream,
      List.mem_map]
    constructor
    · rintro ⟨⟨event, he, rfl⟩, hkind⟩
      exact ⟨event, he, EventKind.asRef_injective hkind, rfl⟩
    · rintro ⟨event, he, hkind, rfl⟩
      exact ⟨⟨event, he, rfl⟩, congrArg EventKind.asRef hkind⟩
  have hdecode : ∀ event ∈ events streamId,
      (route.codec.decodeValue (EventRow.of route.codec event).payloadJson).bind route.readTimer =
        route.readTimer event.payload := by
    intro event he
    change (route.codec.decodeValue (route.codec.encodeValue event.payload)).bind _ = _
    rw [(hr event he).payload, Option.bind_some]
  obtain ⟨fired, hfired⟩ : ∃ fired,
      listFiredTimerOccurrences route.codec route.readTimer db streamId = .ok fired := by
    refine exists_mapM_ok.mpr fun row hrow => ?_
    obtain ⟨event, he, hkind, rfl⟩ := (hrows row).mp hrow
    obtain ⟨payload, hpayload⟩ := h event he hkind
    exact ⟨(payload.mandateEventId, payload.occurrenceIndex), by rw [hdecode event he, hpayload]⟩
  refine ⟨fired, hfired, fun id index => ?_⟩
  rw [mem_of_mapM_ok hfired]
  constructor
  · rintro ⟨row, hrow, hread⟩
    obtain ⟨event, he, hkind, rfl⟩ := (hrows row).mp hrow
    obtain ⟨payload, hpayload⟩ := h event he hkind
    rw [hdecode event he, hpayload] at hread
    cases hread
    exact ⟨event, he, hkind, payload, hpayload, rfl, rfl⟩
  · rintro ⟨event, he, hkind, payload, hpayload, rfl, rfl⟩
    exact ⟨_, (hrows _).mpr ⟨event, he, hkind, rfl⟩, by rw [hdecode event he, hpayload]⟩

theorem threadTicks_ok {c : ThreadCoordinates} {ticks : List ScheduledTick}
    (h : route.threadTicks db now c = .ok ticks) :
    ∃ active fired, listActiveMandates route.control (route.read db) c = .ok active ∧
      listFiredTimerOccurrences route.codec route.readTimer db (controlStreamId c) = .ok fired ∧
      ∀ mandate ∈ active, ∃ tick,
        nextTickForMandate route.library c mandate fired route.startedAt now = .ok tick ∧
        ∀ t, tick = some t → t ∈ ticks := by
  obtain ⟨active, hactive, h⟩ := bind_ok.mp h
  obtain ⟨fired, hfired, h⟩ := bind_ok.mp h
  obtain ⟨found, hfound, h⟩ := bind_ok.mp h
  obtain rfl := Except.ok.inj h
  refine ⟨active, fired, hactive, orHistory_ok.mp hfired, fun mandate hmandate => ?_⟩
  obtain ⟨tick, htick⟩ := exists_mapM_ok.mp ⟨found, hfound⟩ mandate hmandate
  refine ⟨tick, htick, fun t ht => ?_⟩
  have hmem : tick ∈ found := (mem_of_mapM_ok hfound).mpr ⟨mandate, hmandate, htick⟩
  exact List.mem_filterMap.mpr ⟨tick, hmem, ht⟩

theorem exists_threadTicks_ok {c : ThreadCoordinates} {active : List ActiveMandate} {fired : Fired}
    (hactive : listActiveMandates route.control (route.read db) c = .ok active)
    (hfired : listFiredTimerOccurrences route.codec route.readTimer db (controlStreamId c) = .ok fired)
    (h : ∀ mandate ∈ active, ∃ tick,
      nextTickForMandate route.library c mandate fired route.startedAt now = .ok tick) :
    ∃ ticks, route.threadTicks db now c = .ok ticks := by
  obtain ⟨found, hfound⟩ := exists_mapM_ok.mpr h
  exact ⟨_, bind_ok.mpr ⟨active, hactive, bind_ok.mpr ⟨fired, orHistory_ok.mpr hfired,
    bind_ok.mpr ⟨found, hfound, rfl⟩⟩⟩⟩

theorem schedules_iff :
    route.Schedules db now ↔ ∀ c ∈ listControlStreamCoordinates db,
      ∃ ticks, route.threadTicks db now c = .ok ticks := by
  constructor
  · rintro ⟨heap, hheap, -⟩
    obtain ⟨found, hfound, -⟩ := bind_ok.mp hheap
    exact exists_mapM_ok.mp ⟨found, hfound⟩
  · intro h
    obtain ⟨found, hfound⟩ := exists_mapM_ok.mpr h
    refine ⟨_, bind_ok.mpr ⟨found, hfound, rfl⟩, fun c hc => ?_⟩
    obtain ⟨ticks, hticks⟩ := h c hc
    obtain ⟨active, fired, hactive, hfired, hall⟩ := threadTicks_ok hticks
    refine ⟨active, fired, hactive, hfired, fun mandate hmandate => ?_⟩
    obtain ⟨tick, htick, hin⟩ := hall mandate hmandate
    refine ⟨tick, htick, fun t ht => (List.mem_insertionSort _).mpr ?_⟩
    have hmem : ticks ∈ found := (mem_of_mapM_ok hfound).mpr ⟨c, hc, hticks⟩
    exact List.mem_flatten.mpr ⟨ticks, hmem, hin t ht⟩

/-! ### One mandate -/

theorem schedule_of_started (hserde : route.control.mandateStarted.RoundTrips)
    (hreads : route.control.mandateStarted.fromValue mandate.event.payload = .ok mandate.payload)
    (hwritten : WrittenByStart route.library route.control mandate.event) :
    ∃ schedule policy now, mandate.payload.schedule = some schedule ∧
      validateSchedule route.library policy now schedule = .ok () := by
  obtain ⟨c, uuid, request, expiresAtMs, now, hvalid, hpayload⟩ := hwritten
  rw [hpayload, hserde] at hreads
  obtain ⟨_, hschedule, -⟩ := bind_ok.mp hvalid
  rw [← Except.ok.inj hreads]
  exact ⟨request.schedule, _, now, rfl, hschedule⟩

theorem exhausted_zero {maxOccurrences : Option Nat} :
    exhausted maxOccurrences 0 = true ↔ maxOccurrences = some 0 := by
  cases maxOccurrences <;> simp [exhausted]

theorem exhausted_one {maxOccurrences : Option Nat} :
    exhausted maxOccurrences 1 = true ↔ ∃ max, maxOccurrences = some max ∧ max ≤ 1 := by
  cases maxOccurrences <;> simp [exhausted]

/-- **The tick of a mandate is computed exactly when it is lasting**: an occurrence that fired lies
in the past, so an interval has another one, and an `at` schedule has none. -/
theorem exists_nextTick_iff_lasting (hlib : Total route.library) {streamEvents : List EventRecord}
    {schedule : MandateSchedulePayload} {policy : MandateCatchUpPolicy} {past : Instant}
    (hschedule : mandate.payload.schedule = some schedule)
    (hvalid : validateSchedule route.library policy past schedule = .ok ())
    (hcreated : Far (mandate.event.createdAtMs * 1000000)) {now : Int} {fired : Fired}
    (hfired : ∀ id index, (id, index) ∈ fired ↔ Fires route.readTimer streamEvents id index)
    (hby : ∀ index, (mandate.event.id, index) ∈ fired → FiredBy route.library mandate index)
    (hstarted : Far route.startedAt) (hnow : Far now) (c : ThreadCoordinates) :
    (∃ tick, nextTickForMandate route.library c mandate fired route.startedAt now = .ok tick) ↔
      Lasting route.readTimer streamEvents mandate := by
  rw [exists_nextTick_ok hlib hschedule hvalid hcreated hstarted hnow]
  have hmin := hcreated.inRange.1
  -- the next index is 0, or follows an occurrence of the schedule in the past
  have hnext : (∀ index, (mandate.event.id, index) ∉ fired) ∧ nextIndex fired mandate.event.id = 0 ∨
      ∃ last before, nextIndex fired mandate.event.id = (last + 1) % 2 ^ 64 ∧
        (mandate.event.id, last) ∈ fired ∧ Far before ∧ ∃ instant : Int, occurrenceAtIndex route.library
          (mandate.event.createdAtMs * 1000000) last schedule = .ok instant ∧ instant ≤ before := by
    by_cases hany : ∃ index, (mandate.event.id, index) ∈ fired
    · obtain ⟨index, hindex⟩ := hany
      obtain ⟨last, hlast, hnext⟩ := nextIndex_of_some hindex
      obtain ⟨_, _, _, before, tick, hbefore, htick, rfl, hle⟩ := hby last hlast
      obtain ⟨schedule', hschedule', hoccurs⟩ := occurs_of_nextTick htick
      obtain rfl : schedule = schedule' := Option.some.inj (hschedule.symm.trans hschedule')
      exact .inr ⟨_, before, hnext, hlast, hbefore, tick.scheduledFor, hoccurs, hle⟩
    · rw [not_exists] at hany
      exact .inl ⟨hany, nextIndex_of_none hany⟩
  unfold Lasting
  simp only [hschedule, ← hfired]
  cases schedule with
  | cron expr tz =>
    simp only [iff_true]
    rcases hnext with ⟨-, hzero⟩ | ⟨last, before, hnext, -, hbefore, instant, hoccurs, hle⟩
    · rw [hzero]
      exact .inr ((occurs_cron hvalid).mpr (hlib.first hvalid _ hcreated))
    · rw [hnext]
      exact .inr (occurs_cron_next hlib hvalid hcreated hbefore hoccurs hle (Nat.mod_le _ _))
  | «at» when =>
    rcases hnext with ⟨hnone, hzero⟩ | ⟨last, before, hnext, hlast, -, instant, hoccurs, -⟩
    · obtain ⟨⟨instant, offset⟩, hparse, -⟩ := bind_ok.mp hvalid
      have hparsed : parseUtc route.library when = .ok instant := by
        rw [parseUtc, orExecution_ok.mp hparse]
        rfl
      rw [hzero]
      exact ⟨fun _ h => absurd h.choose_spec (hnone _),
        fun _ => .inr (occurs_at.mpr ⟨rfl, instant, hparsed⟩)⟩
    · obtain ⟨rfl, -⟩ := occurs_at.mp ⟨instant, hoccurs⟩
      have hend : ¬ Occurs route.library (mandate.event.createdAtMs * 1000000) (.at when) (0 + 1) :=
        fun h => absurd (occurs_at.mp h).1 (Nat.succ_ne_zero 0)
      have hone : (0 + 1) % 2 ^ 64 = 1 := rfl
      rw [hnext, hone, exhausted_one]
      exact ⟨fun h _ => h.resolve_right hend, fun h => .inl (h ⟨_, hlast⟩)⟩
  | interval everyMs =>
    rcases hnext with ⟨hnone, hzero⟩ | ⟨last, before, hnext, hlast, hbefore, instant, hoccurs, hle⟩
    · have hpos : 0 < everyMs := by
        have := require_ok.mp hvalid
        unfold minMandateIntervalMs at this
        omega
      rw [hzero, exhausted_zero, occurs_interval hmin, Nat.zero_add, Nat.mul_one, ← Int.add_mul]
      constructor
      · intro h _ hmax
        exact (h.resolve_left hmax).2
      · intro h
        by_cases hmax : mandate.payload.maxOccurrences = some 0
        · exact .inl hmax
        · exact .inr ⟨hpos, h hnone hmax⟩
    · have hfits := index_fits hmin hoccurs
      rw [hnext, Nat.mod_eq_of_lt hfits]
      exact ⟨fun _ hnone => absurd hlast (hnone _),
        fun _ => .inr (occurs_interval_succ hcreated hbefore hoccurs hle)⟩

/-! ### The whole pass -/

/-- **One pass serves every mandate exactly when no mandate stops it.**  For every database the
daemon wrote, the schedule is built, with the tick of every active mandate in it, if and only if
every revocation of the control streams reads and every active mandate is lasting. -/
theorem schedules_iff_lasting (route : ClockRoute Text) {db : Db Text}
    {events : EventStreamId → List EventRecord} (hj : Journals route.codec db events)
    (hr : ∀ c ∈ listControlStreamCoordinates db, ∀ event ∈ events (controlStreamId c),
      route.codec.Reads event)
    (hserde : route.control.mandateStarted.RoundTrips)
    (hlib : Total route.library) (hw : route.Wrote db events) (hstarted : Far route.startedAt)
    {now : Int} (hnow : Far now) :
    route.Schedules db now ↔ ∀ c ∈ listControlStreamCoordinates db,
      (∀ event ∈ events (controlStreamId c), event.kind = .mandateRevoked →
        ∃ payload, route.control.mandateRevoked.fromValue event.payload = .ok payload) ∧
      ∀ mandate, Started route.control c (events (controlStreamId c)) mandate →
        ¬ RevokedFor route.control c (events (controlStreamId c)) mandate →
        Lasting route.readTimer (events (controlStreamId c)) mandate := by
  rw [schedules_iff]
  refine forall₂_congr fun c hc => ?_
  obtain ⟨fired, hfired, hfires⟩ := exists_listFired_ok hj (hr c hc) (fun event he hkind => by
    obtain ⟨payload, hpayload, -⟩ := hw.fired c hc event he hkind
    exact ⟨payload, hpayload⟩)
  have htick : ∀ mandate, Started route.control c (events (controlStreamId c)) mandate →
      ((∃ tick, nextTickForMandate route.library c mandate fired route.startedAt now = .ok tick) ↔
        Lasting route.readTimer (events (controlStreamId c)) mandate) := by
    intro mandate hmandate
    obtain ⟨hwritten, hcreated⟩ := hw.started c hc mandate.event hmandate.mem hmandate.kind
    obtain ⟨schedule, policy, past, hschedule, hvalid⟩ :=
      schedule_of_started hserde hmandate.reads hwritten
    refine exists_nextTick_iff_lasting hlib hschedule hvalid hcreated hfires ?_ hstarted hnow c
    intro index hindex
    obtain ⟨event, he, hkind, payload, hpayload, hid, rfl⟩ := (hfires _ _).mp hindex
    obtain ⟨payload', hpayload', mandate', hmandate', hid', hby⟩ := hw.fired c hc event he hkind
    obtain rfl : payload = payload' := Option.some.inj (hpayload.symm.trans hpayload')
    obtain rfl := hmandate.unique (hj.journal.nodup _) hmandate' (hid.symm.trans hid'.symm)
    exact hby
  have hlist := listActiveMandates_eq hj c (hr c hc)
  constructor
  · rintro ⟨ticks, hticks⟩
    obtain ⟨active, fired', hactive, hfired', hall⟩ := threadTicks_ok hticks
    obtain rfl : fired = fired' := Except.ok.inj (hfired.symm.trans hfired')
    rw [hlist] at hactive
    refine ⟨fun event he => (exists_activeMandates_ok.mp ⟨active, hactive⟩ event he).revoked, ?_⟩
    intro mandate hmandate hrevoked
    obtain ⟨tick, hok, -⟩ := hall mandate
      ((mem_activeMandates (hj.journal.nodup _) hactive mandate).mpr ⟨hmandate, hrevoked⟩)
    exact (htick mandate hmandate).mp ⟨tick, hok⟩
  · rintro ⟨hrevocations, hlasting⟩
    obtain ⟨active, hactive⟩ : ∃ active,
        activeMandatesFromEvents route.control c (events (controlStreamId c)) = .ok active := by
      refine exists_activeMandates_ok.mpr fun event he => ⟨fun hkind => ?_, hrevocations event he⟩
      obtain ⟨_, _, _, _, _, _, hpayload⟩ := (hw.started c hc event he hkind).1
      exact ⟨_, by rw [hpayload, hserde]⟩
    refine exists_threadTicks_ok (hlist.trans hactive) hfired fun mandate hmandate => ?_
    obtain ⟨hmandate, hrevoked⟩ :=
      (mem_activeMandates (hj.journal.nodup _) hactive mandate).mp hmandate
    exact (htick mandate hmandate).mpr (hlasting mandate hmandate hrevoked)

end

/-! ### A sample route -/

/-- The schedules of a sample run: one instant, and every minute. -/
def sampleLibrary : ScheduleLibrary where
  parseCron expr := if expr = "* * * * *" then .ok () else .error "invalid pattern"
  parseTimezone tz := if tz = "UTC" then .ok () else .error "failed to parse timezone"
  findNextOccurrence _ _ start := .ok ((start / 60000000000 + 1) * 60000000000)
  iterAfter _ _ start index :=
    let minute := (start / 60000000000 + 1 + index) * 60000000000
    if minute ≤ maxUtc then some minute else none
  parseFromRfc3339 text :=
    if text = "1970-01-01T00:01:00Z" then .ok (60000000000, 0)
    else .error "input contains invalid characters"

theorem iterAfter_minutes {expr tz : String} {start : Int} {index : Nat} {instant : Int} :
    sampleLibrary.iterAfter expr tz start index = some instant ↔
      (start / 60000000000 + 1 + index) * 60000000000 = instant ∧ instant ≤ maxUtc := by
  change (if (start / 60000000000 + 1 + index) * 60000000000 ≤ maxUtc then
    some ((start / 60000000000 + 1 + index) * 60000000000) else none) = some instant ↔ _
  split <;> simp <;> omega

theorem minute_increasing (start : Int) (expr tz : String) :
    Increasing (sampleLibrary.iterAfter expr tz start) where
  fused index hnone := by
    cases hnext : sampleLibrary.iterAfter expr tz start (index + 1) with
    | none => rfl
    | some instant =>
      obtain ⟨rfl, hle⟩ := iterAfter_minutes.mp hnext
      rw [iterAfter_minutes.mpr ⟨rfl, by omega⟩] at hnone
      cases hnone
  increases index instant instant' h h' := by
    obtain ⟨rfl, -⟩ := iterAfter_minutes.mp h
    obtain ⟨rfl, -⟩ := iterAfter_minutes.mp h'
    have hminute : (start / 60000000000 + 1 + (index : Int)) * 60000000000 <
        (start / 60000000000 + 1 + ((index + 1 : Nat) : Int)) * 60000000000 := by omega
    exact hminute

theorem sampleLibrary_total : Total sampleLibrary where
  first _ start hstart := by
    have hupper := Far.upper hstart
    exact ⟨_, iterAfter_minutes.mpr ⟨rfl, by unfold maxUtc at *; omega⟩⟩
  next _ start index instant hstart h hfar := by
    obtain ⟨rfl, -⟩ := iterAfter_minutes.mp h
    have hupper := Far.upper hfar
    exact ⟨_, iterAfter_minutes.mpr ⟨rfl, by unfold maxUtc at *; omega⟩⟩
  after := by
    intro _ _ _ _ _ (start : Int) instant h
    obtain ⟨rfl, -⟩ := iterAfter_minutes.mp h
    have hminute : start < (start / 60000000000 + 1 + ((0 : Nat) : Int)) * 60000000000 := by omega
    exact hminute
  increases _ start := minute_increasing start _ _

/-- The payload of a fired timer, as `serde` reads it. -/
def sampleReadTimer (value : Json) : Option TimerFiredPayload :=
  (do
    let fields ← Wire.fieldsOf value
    return ⟨← Wire.required Wire.eventId fields "mandate_event_id",
      ← Wire.required Wire.text fields "scheduled_for",
      ← Wire.required Wire.natural fields "occurrence_index",
      ← Wire.required Wire.flag fields "catch_up"⟩ : Except String TimerFiredPayload).toOption

def sampleRoute : ClockRoute Sqlite.Stored where
  codec := .tagged
  control := .wire fun _ => none
  readTimer := sampleReadTimer
  library := sampleLibrary
  startedAt := 0

def sampleThread : ThreadCoordinates := .counted "user" 1

def sampleStart (schedule : MandateSchedulePayload) (max : Option Nat) : MandateStartedPayload :=
  startedPayload sampleThread ⟨1⟩ ⟨schedule, max, none, none, none, none⟩ none

/-- A mandate at one instant, one for every minute, and the first has fired. -/
def sampleRecords (max : Option Nat) : List NewEventRecord :=
  [.witnessed (.counted 1) sampleThread .mandateStarted
     (Wire.started.toValue (sampleStart (.at "1970-01-01T00:01:00Z") max)),
   .witnessed (.counted 2) sampleThread .mandateStarted
     (Wire.started.toValue (sampleStart (.interval 60000) none)),
   .witnessed (.counted 3) sampleThread .timerFired (Wire.object
     [("mandate_event_id", .str (Draw.counted 1).eventId.uuid.text),
      ("scheduled_for", .str "1970-01-01T00:01:00.000Z"), ("occurrence_index", .num (.int 0)),
      ("catch_up", .bool false)])]

def sampleClockDb (max : Option Nat) : Db Sqlite.Stored :=
  (Sqlite.step .tagged
    (.counted 0 1 (.appendEvents (controlStreamId sampleThread) (sampleRecords max))) .empty).2

def sampleClockEvents (max : Option Nat) : List EventRecord :=
  History.numbered (controlStreamId sampleThread) 0 (sampleRecords max)

def sampleMandates (max : Option Nat) : List ActiveMandate :=
  [⟨.fromNew (controlStreamId sampleThread) 1 (.witnessed (.counted 1) sampleThread .mandateStarted
     (Wire.started.toValue (sampleStart (.at "1970-01-01T00:01:00Z") max))),
     sampleStart (.at "1970-01-01T00:01:00Z") max⟩,
   ⟨.fromNew (controlStreamId sampleThread) 2 (.witnessed (.counted 2) sampleThread .mandateStarted
     (Wire.started.toValue (sampleStart (.interval 60000) none))),
     sampleStart (.interval 60000) none⟩]

set_option maxRecDepth 100000 in
theorem sampleClock_reads : ∀ max ∈ [none, some 1],
    listControlStreamCoordinates (sampleClockDb max) = [sampleThread] ∧
    Sqlite.readEvents .tagged (sampleClockDb max) (controlStreamId sampleThread) none =
      .ok (sampleClockEvents max) := by
  decide

variable {max : Option Nat}

theorem sampleClock_journals (hmax : max ∈ [none, some 1]) :
    ∃ events, Journals .tagged (sampleClockDb max) events ∧
      events (controlStreamId sampleThread) = sampleClockEvents max := by
  have hempty : Journals .tagged (.empty : Db Sqlite.Stored) _ :=
    Sqlite.journals_empty
  obtain ⟨events, hj, -⟩ := hempty.step
    (.counted 0 1 (.appendEvents (controlStreamId sampleThread) (sampleRecords max)))
  refine ⟨events, hj, ?_⟩
  have hread := (hj.holds (controlStreamId sampleThread)).readEvents_none
    fun _ he => hj.reads (Sqlite.readsBack_tagged _) he
  exact Except.ok.inj (hread.symm.trans (sampleClock_reads max hmax).2)

theorem sampleClock_started
    (h : Started sampleRoute.control sampleThread (sampleClockEvents max) mandate) :
    mandate ∈ sampleMandates max := by
  have hreads := h.reads
  obtain ⟨event, payload⟩ := mandate
  rcases List.mem_cons.mp h.mem with rfl | hmem
  · obtain rfl := Except.ok.inj ((Wire.wire_started _).symm.trans hreads)
    exact List.mem_cons_self
  · rcases List.mem_cons.mp hmem with rfl | hmem
    · obtain rfl := Except.ok.inj ((Wire.wire_started _).symm.trans hreads)
      exact .tail _ List.mem_cons_self
    · obtain rfl := List.mem_singleton.mp hmem
      cases h.kind

theorem far_of_small {instant : Int} (h : 0 ≤ instant ∧ instant ≤ 1000000000000000000000) :
    Far instant := by
  refine ⟨?_, ?_⟩
  · unfold minUtc
    omega
  · unfold maxUtc
    omega

set_option maxRecDepth 100000 in
theorem sampleClock_fired : ∀ max ∈ [none, some 1], ∀ mandate ∈ (sampleMandates max).head?,
    nextTickForMandate sampleLibrary sampleThread mandate [] 0 60000000000 =
      .ok (some ⟨sampleThread, (Draw.counted 1).eventId, 60000000000, 0, false⟩) := by
  decide

set_option maxRecDepth 100000 in
theorem sampleClock_wrote (hmax : max ∈ [none, some 1]) {events : EventStreamId → List EventRecord}
    (hevents : events (controlStreamId sampleThread) = sampleClockEvents max) :
    sampleRoute.Wrote (sampleClockDb max) events := by
  have hthread : ∀ c ∈ listControlStreamCoordinates (sampleClockDb max), c = sampleThread := by
    rw [(sampleClock_reads max hmax).1]
    exact fun c hc => List.mem_singleton.mp hc
  refine ⟨fun c hc event he hkind => ?_, fun c hc event he hkind => ?_⟩
  · obtain rfl := hthread c hc
    rw [hevents] at he
    rcases List.mem_cons.mp he with rfl | he
    · have hfar : Far (1 * 1000000) := far_of_small (by decide)
      exact ⟨⟨sampleThread, ⟨1⟩, _, none, 0, rfl, rfl⟩, hfar⟩
    · rcases List.mem_cons.mp he with rfl | he
      · have hfar : Far (2 * 1000000) := far_of_small (by decide)
        exact ⟨⟨sampleThread, ⟨1⟩, _, none, 0, rfl, rfl⟩, hfar⟩
      · obtain rfl := List.mem_singleton.mp he
        cases hkind
  · obtain rfl := hthread c hc
    rw [hevents] at he ⊢
    rcases List.mem_cons.mp he with rfl | he
    · cases hkind
    · rcases List.mem_cons.mp he with rfl | he
      · cases hkind
      · obtain rfl := List.mem_singleton.mp he
        refine ⟨⟨(Draw.counted 1).eventId, "1970-01-01T00:01:00.000Z", 0, false⟩, by decide,
          ⟨.fromNew (controlStreamId sampleThread) 1 (.witnessed (.counted 1) sampleThread
            .mandateStarted (Wire.started.toValue (sampleStart (.at "1970-01-01T00:01:00Z") max))),
            sampleStart (.at "1970-01-01T00:01:00Z") max⟩, ⟨?_, rfl, Wire.wire_started _, rfl⟩, rfl, ?_⟩
        · exact List.mem_cons_self
        · exact ⟨sampleThread, [], 0, 60000000000, _, far_of_small (by decide),
            sampleClock_fired max hmax _ rfl, rfl, Int.le_refl _⟩

theorem sampleClock_unrevoked {event : EventRecord} (he : event ∈ sampleClockEvents max) :
    event.kind ≠ .mandateRevoked := by
  intro hkind
  rcases List.mem_cons.mp he with rfl | he
  · cases hkind
  · rcases List.mem_cons.mp he with rfl | he
    · cases hkind
    · obtain rfl := List.mem_singleton.mp he
      cases hkind

set_option maxRecDepth 100000 in
/-- An `at` mandate without a limit that has fired ends the pass, although the minute of another
mandate is due. -/
theorem fired_at_stops_clock :
    (∃ events, Journals .tagged (sampleClockDb none) events ∧
      sampleRoute.Wrote (sampleClockDb none) events) ∧
    Far sampleRoute.startedAt ∧ Far 120000000000 ∧ Total sampleRoute.library ∧
    (∀ mandate ∈ (sampleMandates none).getLast?,
      nextTickForMandate sampleLibrary sampleThread mandate [((Draw.counted 1).eventId, 0)] 0
        120000000000 =
          .ok (some ⟨sampleThread, (Draw.counted 2).eventId, 60002000000, 0, false⟩)) ∧
    sampleRoute.buildDueSchedule (sampleClockDb none) 120000000000 =
      .error (.runtimeExecution "at schedule has only one occurrence") := by
  refine ⟨?_, far_of_small (by decide), far_of_small (by decide), sampleLibrary_total,
    by decide⟩
  obtain ⟨events, hj, hevents⟩ := sampleClock_journals (List.mem_cons_self (l := [some 1]))
  exact ⟨events, hj, sampleClock_wrote List.mem_cons_self hevents⟩

/-- With a limit of one occurrence the mandate that fired is left out, and the other has its tick. -/
theorem schedules_iff_lasting_limited :
    sampleRoute.Schedules (sampleClockDb (some 1)) 120000000000 := by
  have hmax : some 1 ∈ [none, some 1] := .tail _ List.mem_cons_self
  obtain ⟨events, hj, hevents⟩ := sampleClock_journals hmax
  refine (schedules_iff_lasting sampleRoute hj
    (fun _ _ _ he => hj.reads (Sqlite.readsBack_tagged _) he) Wire.wire_started
    sampleLibrary_total (sampleClock_wrote hmax hevents) (far_of_small (by decide))
    (far_of_small (by decide))).mpr fun c hc => ?_
  rw [(sampleClock_reads _ hmax).1, List.mem_singleton] at hc
  obtain rfl := hc
  rw [hevents]
  refine ⟨fun event he hkind => absurd hkind (sampleClock_unrevoked he), fun mandate hmandate _ => ?_⟩
  rcases List.mem_cons.mp (sampleClock_started hmandate) with rfl | hmem
  · exact fun _ => ⟨1, rfl, Nat.le_refl 1⟩
  · obtain rfl := List.mem_singleton.mp hmem
    exact fun _ _ => (by decide : (2 + 60000 : Int) * 1000000 ≤ maxUtc)

end Verlet.Daemon
