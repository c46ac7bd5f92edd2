import Verlet.Daemon.ClockRoute.Schedule

/-!
# Daemon — The clock route — Which tick is next

What a tick that the route selects is, for every schedule, whatever the start, the occurrences that
fired, the cap and the two instants.

The search forward over an interval goes by whole milliseconds, and instants have nanoseconds: of an
occurrence less than a millisecond before the route's start it makes the next one on time.
-/

namespace Verlet.Daemon
open Support Kernel History
open RemoteStore (VerletResult)

/-! ### The occurrences of a schedule -/

variable {index : Nat} {instant : Int}

section
variable {library : ScheduleLibrary} {start threshold : Int} {schedule : MandateSchedulePayload}
  {maxOccurrences : Option Nat}

def occurrenceOf (library : ScheduleLibrary) (start : Instant) (schedule : MandateSchedulePayload)
    (index : Nat) : Option Instant :=
  (occurrenceAtIndex library start index schedule).toOption

theorem occurrenceOf_some {instant : Instant} :
    occurrenceOf library start schedule index = some instant ↔
      occurrenceAtIndex library start index schedule = .ok instant := by
  unfold occurrenceOf
  cases occurrenceAtIndex library start index schedule <;> simp [Except.toOption]

/-- The occurrences of cron schedules increase, wherever the library is asked for them. -/
def CronIncreases (library : ScheduleLibrary) (start : Instant) (schedule : MandateSchedulePayload) :
    Prop :=
  ∀ expr tz, schedule = .cron expr tz → Increasing (library.iterAfter expr tz start)

theorem cronSchedule_iterAfter {expr tz : String} {instant : Instant}
    (h : occurrenceOf library start (.cron expr tz) index = some instant) :
    library.iterAfter expr tz start index = some instant := by
  obtain ⟨_, -, h⟩ := bind_ok.mp (occurrenceOf_some.mp h)
  exact orFails_ok.mp h

theorem increasing_occurrenceOf (hstart : minUtc ≤ start) (hcron : CronIncreases library start schedule) :
    Increasing (occurrenceOf library start schedule) := by
  cases schedule with
  | interval everyMs =>
    refine ⟨fun index hnone => ?_, fun index instant instant' h h' => ?_⟩
    · cases hnext : occurrenceOf library start (.interval everyMs) (index + 1) with
      | none => rfl
      | some instant =>
        obtain ⟨hpos, hle, -⟩ := (occurrenceAtIndex_interval hstart).mp (occurrenceOf_some.mp hnext)
        have hstep : everyMs * (index + 1) ≤ everyMs * (index + 1 + 1) :=
          Nat.mul_le_mul_left _ (Nat.le_succ _)
        have hoccurs : Occurs library start (.interval everyMs) index :=
          (occurs_interval hstart).mpr
            ⟨hpos, show start + ((everyMs * (index + 1) : Nat) : Int) * 1000000 ≤ maxUtc by omega⟩
        obtain ⟨instant', h'⟩ := hoccurs
        rw [occurrenceOf_some.mpr h'] at hnone
        cases hnone
    · obtain ⟨hpos, -, rfl⟩ := (occurrenceAtIndex_interval hstart).mp (occurrenceOf_some.mp h)
      obtain ⟨-, -, rfl⟩ := (occurrenceAtIndex_interval hstart).mp (occurrenceOf_some.mp h')
      have hstep : everyMs * (index + 1 + 1) = everyMs * (index + 1) + everyMs := Nat.mul_succ _ _
      have hlt : start + ((everyMs * (index + 1) : Nat) : Int) * 1000000 <
          start + ((everyMs * (index + 1 + 1) : Nat) : Int) * 1000000 := by omega
      exact hlt
  | «at» when =>
    have hnone (index : Nat) : occurrenceOf library start (.at when) (index + 1) = none := rfl
    refine ⟨fun index _ => hnone index, fun index instant instant' _ h' => ?_⟩
    rw [hnone] at h'
    cases h'
  | cron expr tz =>
    have hinc := hcron expr tz rfl
    refine ⟨fun index hnone => ?_, fun index instant instant' h h' =>
      hinc.increases index _ _ (cronSchedule_iterAfter h) (cronSchedule_iterAfter h')⟩
    cases hnext : occurrenceOf library start (.cron expr tz) (index + 1) with
    | none => rfl
    | some instant =>
      obtain ⟨_, hcron, h⟩ := bind_ok.mp (occurrenceOf_some.mp hnext)
      obtain ⟨instant', h', -⟩ := hinc.earlier (Nat.le_succ index) (orFails_ok.mp h)
      have hsome : occurrenceAtIndex library start index (.cron expr tz) = .ok instant' :=
        bind_ok.mpr ⟨_, hcron, orFails_ok.mpr h'⟩
      rw [occurrenceOf_some.mpr hsome] at hnone
      cases hnone

/-! ### The searches -/

theorem occurrenceOf_interval {everyMs : Nat} (hstart : minUtc ≤ start) (k : Nat) (instant : Int)
    (h : occurrenceOf library start (.interval everyMs) k = some instant) :
    instant = start + everyMs * 1000000 + ((k * everyMs : Nat) : Int) * 1000000 := by
  obtain ⟨-, -, rfl⟩ := (occurrenceAtIndex_interval hstart).mp (occurrenceOf_some.mp h)
  have hstep : everyMs * (k + 1) = k * everyMs + everyMs := by ring
  omega

theorem interval_first {everyMs : Nat} {α : Type} {rest : Nat → Instant → VerletResult α} {a : α}
    (h : (do
      let everyMs ← rejectZeroInterval everyMs
      let everyMsI64 ← orFails "interval duration overflowed" (fitsI64 everyMs)
      let first ← orFails "interval occurrence timestamp overflowed" (checkedAddMs start everyMsI64)
      rest everyMs first) = .ok a) :
    0 < everyMs ∧ rest everyMs (start + (everyMs : Int) * 1000000) = .ok a := by
  simp only [bind_ok, orFails_ok, rejectZeroInterval_ok, fitsI64_some, checkedAddMs_some] at h
  obtain ⟨_, ⟨hpos, rfl⟩, _, ⟨-, rfl⟩, _, ⟨-, -, rfl⟩, h⟩ := h
  exact ⟨hpos, h⟩

/-- **The search for the latest** ends at the last that the cap allows and that is not after the
threshold. -/
theorem latestOccurrence_ok (hstart : minUtc ≤ start) (hcron : CronIncreases library start schedule)
    {found : Option Nat}
    (h : latestOccurrenceIndexAtOrBefore library start threshold maxOccurrences schedule = .ok found) :
    (∀ k (instant : Int), exhausted maxOccurrences k = false →
      occurrenceOf library start schedule k = some instant → instant ≤ threshold →
      ∃ last, found = some last ∧ k ≤ last) ∧
    ∀ last (instant : Int), found = some last → occurrenceOf library start schedule last = some instant →
      instant ≤ threshold := by
  cases schedule with
  | cron expr tz =>
    obtain ⟨_, hparse, h⟩ := bind_ok.mp h
    obtain ⟨hlast, hreached⟩ := latestCron_ok (hcron expr tz rfl) (by simp) (by simp) h
    refine ⟨fun k instant hcap hinstant hle =>
      hlast k instant hcap (cronSchedule_iterAfter hinstant) hle, fun last instant hfound hinstant => ?_⟩
    obtain ⟨instant', hinstant', hle⟩ := hreached last hfound
    obtain rfl := Option.some.inj (hinstant'.symm.trans (cronSchedule_iterAfter hinstant))
    exact hle
  | «at» when =>
    obtain ⟨due, hdue, h⟩ := bind_ok.mp h
    have hat : ∀ k (instant : Int), occurrenceOf library start (.at when) k = some instant →
        k = 0 ∧ instant = due := by
      intro k instant hinstant
      have hinstant := occurrenceOf_some.mp hinstant
      obtain ⟨rfl, -⟩ := occurs_at.mp ⟨instant, hinstant⟩
      exact ⟨rfl, Except.ok.inj (hinstant.symm.trans hdue)⟩
    rw [pure_ok] at h
    subst h
    constructor
    · intro k instant hcap hinstant hle
      obtain ⟨rfl, rfl⟩ := hat k instant hinstant
      exact ⟨0, if_pos ⟨hle, by simp [hcap]⟩, le_refl _⟩
    · intro last instant hfound hinstant
      obtain ⟨rfl, rfl⟩ := hat last instant hinstant
      split at hfound
      · next hdue => exact hdue.1
      · cases hfound
  | interval everyMs =>
    obtain ⟨hpos, h⟩ := interval_first h
    have hat := @occurrenceOf_interval library start everyMs hstart
    by_cases hearly : threshold < start + everyMs * 1000000
    · rw [if_pos hearly, pure_ok] at h
      subst h
      refine ⟨fun k instant _ hinstant hle => ?_, fun last instant hfound _ => (nomatch hfound)⟩
      have hk := hat k instant hinstant
      omega
    · rw [if_neg hearly] at h
      -- the multiples of the interval in the whole milliseconds since the first
      have hmultiple (k : Nat) : k ≤ (numMilliseconds (threshold - (start + everyMs * 1000000))).toNat
          / everyMs ↔ start + everyMs * 1000000 + ((k * everyMs : Nat) : Int) * 1000000 ≤
            threshold := by
        rw [Nat.le_div_iff_mul_le hpos, le_numMilliseconds_iff (by omega)]
        omega
      generalize (numMilliseconds (threshold - (start + everyMs * 1000000))).toNat / everyMs = whole
        at h hmultiple
      have hcases : found = some whole ∧ maxOccurrences = none ∨
          ∃ max, maxOccurrences = some max ∧ found = if max = 0 then none else
            some (min whole (max - 1)) := by
        cases maxOccurrences with
        | none => exact .inl ⟨(pure_ok.mp h).symm, rfl⟩
        | some max => exact .inr ⟨max, rfl, (pure_ok.mp h).symm⟩
      rcases hcases with ⟨rfl, rfl⟩ | ⟨max, rfl, rfl⟩
      · refine ⟨fun k instant _ hinstant hle => ⟨whole, rfl, (hmultiple k).mpr ?_⟩,
          fun last instant hfound hinstant => ?_⟩
        · rw [← hat k instant hinstant]
          exact hle
        · obtain rfl := Option.some.inj hfound
          rw [hat _ instant hinstant]
          exact (hmultiple whole).mp (le_refl _)
      · by_cases hzero : max = 0
        · subst hzero
          exact ⟨fun k instant hcap => by simp [exhausted] at hcap, fun last instant h => (nomatch h)⟩
        · rw [if_neg hzero]
          refine ⟨fun k instant hcap hinstant hle => ⟨_, rfl, ?_⟩, fun last instant hfound hinstant => ?_⟩
          · rw [hat k instant hinstant] at hle
            simp only [exhausted, Option.any_some, decide_eq_false_iff_not] at hcap
            exact le_min ((hmultiple k).mpr hle) (by omega)
          · obtain rfl := Option.some.inj hfound
            rw [hat _ instant hinstant]
            exact (hmultiple _).mp (min_le_left _ _)

/-- An occurrence of an interval that is before the threshold by less than a millisecond. -/
def JustBefore (schedule : MandateSchedulePayload) (threshold instant : Int) : Prop :=
  (∃ everyMs, schedule = .interval everyMs) ∧ instant < threshold ∧ threshold < instant + 1000000

/-- **The search forward** ends at an occurrence that is late enough, or just before that; none that
is too early is left out. -/
theorem firstOccurrence_ok (hstart : minUtc ≤ start) (hcron : CronIncreases library start schedule)
    {found : Nat} {instant' : Int}
    (hindex : occurrenceOf library start schedule index = some instant)
    (hearly : instant < threshold)
    (hfound : occurrenceOf library start schedule found = some instant')
    (h : firstOccurrenceIndexAtOrAfter library start threshold maxOccurrences schedule =
      .ok (some found)) :
    index ≤ found ∧ (threshold ≤ instant' ∨ JustBefore schedule threshold instant') := by
  have hinc := increasing_occurrenceOf hstart hcron
  -- a late occurrence is after an early one
  have hlate : threshold ≤ instant' →
      index ≤ found ∧ (threshold ≤ instant' ∨ JustBefore schedule threshold instant') := by
    intro hlate
    exact ⟨le_of_lt (hinc.lt_of_lt hindex hfound (lt_of_lt_of_le hearly hlate)), .inl hlate⟩
  cases schedule with
  | cron expr tz =>
    obtain ⟨_, -, h⟩ := bind_ok.mp h
    obtain ⟨late, hsome, hle⟩ := firstCron_some h
    obtain rfl := Option.some.inj (hsome.symm.trans (cronSchedule_iterAfter hfound))
    exact hlate hle
  | «at» when =>
    obtain ⟨due, hdue, h⟩ := bind_ok.mp h
    rw [pure_ok] at h
    split at h
    · next hle =>
      cases h
      obtain rfl := Except.ok.inj ((occurrenceOf_some.mp hfound).symm.trans hdue)
      exact hlate hle.1
    · cases h
  | interval everyMs =>
    obtain ⟨hpos, h⟩ := interval_first h
    have hat := @occurrenceOf_interval library start everyMs hstart
    have hindex := hat index instant hindex
    have hfound := hat found instant' hfound
    have hfirst : ¬ threshold ≤ start + (everyMs : Int) * 1000000 := by
      have hnonneg := Int.natCast_nonneg (index * everyMs)
      generalize ((index * everyMs : Nat) : Int) = offset at hindex hnonneg
      omega
    simp only [if_neg hfirst] at h
    split at h
    · cases h
    · obtain rfl := Option.some.inj (pure_ok.mp h)
      have hms (ms : Nat) : ms ≤ (numMilliseconds (threshold - (start + everyMs * 1000000))).toNat ↔
          (ms : Int) * 1000000 ≤ threshold - (start + everyMs * 1000000) :=
        le_numMilliseconds_iff (by omega)
      generalize (numMilliseconds (threshold - (start + everyMs * 1000000))).toNat = ms at h hms hfound hlate ⊢
      -- the least multiple of the interval that is no less than the milliseconds
      have hceil : ms ≤ (ms + everyMs - 1) / everyMs * everyMs := by
        have hmod := Nat.div_add_mod (ms + everyMs - 1) everyMs
        have hlt := Nat.mod_lt (ms + everyMs - 1) hpos
        rw [Nat.mul_comm]
        omega
      refine ⟨?_, ?_⟩
      · rw [Nat.le_div_iff_mul_le hpos]
        have hle := (hms (index * everyMs)).mpr (by omega)
        omega
      · by_cases hge : threshold ≤ instant'
        · exact .inl hge
        · refine .inr ⟨⟨everyMs, rfl⟩, by omega, ?_⟩
          have hlast := mt (hms (ms + 1)).mpr (by omega)
          omega

end

/-! ### Ticks -/

/-- The occurrence `u64::MAX` has not fired, so the index after the last is one of a `u64`. -/
def Unwrapped (fired : Fired) (id : EventRecordId) : Prop :=
  ∀ index, (id, index) ∈ fired → index + 1 < 2 ^ 64

theorem nextIndex_le_iff {fired : Fired} {id : EventRecordId} (hfits : Unwrapped fired id) :
    nextIndex fired id ≤ index ↔ ∀ earlier, (id, earlier) ∈ fired → earlier < index := by
  have hmem (earlier : Nat) : earlier ∈ (fired.filter fun f => f.1 = id).map (·.2) ↔
      (id, earlier) ∈ fired := by
    simp [List.mem_map, List.mem_filter]
  unfold nextIndex
  cases hmax : ((fired.filter fun f => f.1 = id).map (·.2)).max? with
  | none =>
    refine ⟨fun _ earlier hearlier => ?_, fun _ => Nat.zero_le _⟩
    rw [← hmem, List.max?_eq_none_iff.mp hmax] at hearlier
    cases hearlier
  | some last =>
    obtain ⟨hlast, hle⟩ := List.max?_eq_some_iff.mp hmax
    simp only [Nat.mod_eq_of_lt (hfits last ((hmem last).mp hlast))]
    constructor
    · intro hnext earlier hearlier
      exact lt_of_le_of_lt (hle earlier ((hmem earlier).mpr hearlier)) hnext
    · intro h
      exact h last ((hmem last).mp hlast)

variable {scheduledFor : Int}

section
variable {library : ScheduleLibrary} {coordinates : ThreadCoordinates} {mandate : ActiveMandate}
  {schedule : MandateSchedulePayload} {fired : Fired} {routeStartedAt now : Int}

def startOf (mandate : ActiveMandate) : Instant := mandate.event.createdAtMs * 1000000

/-- An occurrence that has not fired, and that the mandate allows. -/
structure Ahead (library : ScheduleLibrary) (mandate : ActiveMandate)
    (schedule : MandateSchedulePayload) (fired : Fired) (index : Nat) (instant : Int) : Prop where
  unfired : ∀ earlier, (mandate.event.id, earlier) ∈ fired → earlier < index
  capped : ∀ max, mandate.payload.maxOccurrences = some max → index < max
  occurs : occurrenceAtIndex library (startOf mandate) index schedule = .ok instant

/-- **What a tick that is selected should be.** -/
structure Selected (library : ScheduleLibrary) (mandate : ActiveMandate)
    (schedule : MandateSchedulePayload) (fired : Fired) (routeStartedAt now : Int)
    (tick : ScheduledTick) : Prop where
  ahead : Ahead library mandate schedule fired tick.occurrenceIndex tick.scheduledFor
  onTime : MandateCatchUpPolicy.orDefault mandate.payload.catchUp = .skipMissed →
    routeStartedAt ≤ (tick.scheduledFor : Int)
  latest : MandateCatchUpPolicy.orDefault mandate.payload.catchUp = .coalesceMissed →
    (∃ index instant, Ahead library mandate schedule fired index instant ∧ instant < routeStartedAt ∧
      instant ≤ now) →
    (tick.scheduledFor : Int) ≤ now ∧
      ∀ (index : Nat) (instant : Int),
        (∀ max, mandate.payload.maxOccurrences = some max → index < max) →
        occurrenceAtIndex library (startOf mandate) index schedule = .ok instant → instant ≤ now →
        index ≤ tick.occurrenceIndex

/-- The route skips what it missed, and an occurrence of an interval, still ahead, is less than a
millisecond before its start. -/
def JustMissed (library : ScheduleLibrary) (mandate : ActiveMandate)
    (schedule : MandateSchedulePayload) (fired : Fired) (routeStartedAt : Int) : Prop :=
  MandateCatchUpPolicy.orDefault mandate.payload.catchUp = .skipMissed ∧
    inRange (startOf mandate) = true ∧
    ∃ index instant, Ahead library mandate schedule fired index instant ∧
      JustBefore schedule routeStartedAt instant

theorem exhausted_eq_false {maxOccurrences : Option Nat} :
    exhausted maxOccurrences index = false ↔ ∀ max, maxOccurrences = some max → index < max := by
  cases maxOccurrences with
  | none => simp [exhausted]
  | some max => simp [exhausted]

theorem Ahead.next (hfits : Unwrapped fired mandate.event.id)
    (hstart : minUtc ≤ (startOf mandate : Int))
    (hcron : CronIncreases library (startOf mandate) schedule)
    (h : Ahead library mandate schedule fired index instant) :
    ∃ instant', Ahead library mandate schedule fired (nextIndex fired mandate.event.id) instant' ∧
      instant' ≤ instant := by
  have hle := (nextIndex_le_iff hfits).mpr h.unfired
  obtain ⟨instant', hinstant', hle', -⟩ :=
    (increasing_occurrenceOf hstart hcron).earlier hle (occurrenceOf_some.mpr h.occurs)
  exact ⟨instant', ⟨(nextIndex_le_iff hfits).mp (le_refl _),
    fun max hmax => lt_of_le_of_lt hle (h.capped max hmax), occurrenceOf_some.mp hinstant'⟩, hle'⟩

/-- **How a tick is selected.** -/
theorem nextTick_some (hfits : Unwrapped fired mandate.event.id)
    (hschedule : mandate.payload.schedule = some schedule) {tick : ScheduledTick} :
    nextTickForMandate library coordinates mandate fired routeStartedAt now = .ok (some tick) ↔
      inRange (startOf mandate) = true ∧
      ∃ scheduledFor, Ahead library mandate schedule fired (nextIndex fired mandate.event.id)
          scheduledFor ∧
        ∃ index instant, caughtUp library schedule
            (MandateCatchUpPolicy.orDefault mandate.payload.catchUp) mandate.payload.maxOccurrences
            (startOf mandate) routeStartedAt now (nextIndex fired mandate.event.id) scheduledFor =
              .ok (some (index, instant)) ∧
          exhausted mandate.payload.maxOccurrences index = false ∧
          (mandate.event.id, index) ∉ fired ∧
          tick = ⟨coordinates, mandate.event.id, instant, index,
            MandateCatchUpPolicy.orDefault mandate.payload.catchUp = .coalesceMissed ∧
              (instant : Int) < routeStartedAt⟩ := by
  have hstart (start : Instant) : datetimeFromMillis mandate.event.createdAtMs = .ok start ↔
      inRange (startOf mandate) = true ∧ start = startOf mandate := by
    rw [datetimeFromMillis_ok, inRange_iff, and_assoc]
    exact Iff.rfl
  unfold nextTickForMandate
  simp only [hschedule]
  constructor
  · intro h
    obtain ⟨start, hok, h⟩ := bind_ok.mp h
    obtain ⟨hin, rfl⟩ := (hstart start).mp hok
    split at h
    · cases h
    · next hnext =>
      obtain ⟨scheduledFor, hoccurs, h⟩ := bind_ok.mp h
      obtain ⟨found, hcaught, h⟩ := bind_ok.mp h
      rw [Bool.not_eq_true, exhausted_eq_false] at hnext
      refine ⟨hin, scheduledFor, ⟨(nextIndex_le_iff hfits).mp (le_refl _), hnext, hoccurs⟩, ?_⟩
      cases found with
      | none => cases h
      | some found =>
        simp only at h
        split at h
        · cases h
        · next hfresh =>
          rw [not_or, Bool.not_eq_true] at hfresh
          exact ⟨found.1, found.2, hcaught, hfresh.1, hfresh.2,
            (Option.some.inj (pure_ok.mp h)).symm⟩
  · rintro ⟨hin, scheduledFor, hahead, index, instant, hcaught, hcap, hfresh, rfl⟩
    refine bind_ok.mpr ⟨_, (hstart _).mpr ⟨hin, rfl⟩, ?_⟩
    have hnext := exhausted_eq_false.mpr hahead.capped
    simp only [hnext, Bool.false_eq_true, if_false]
    refine bind_ok.mpr ⟨_, hahead.occurs, bind_ok.mpr ⟨_, hcaught, ?_⟩⟩
    simp only [hcap, hfresh, Bool.false_eq_true, or_self, if_false]
    rfl

theorem caughtUp_skip {start : Instant} {maxOccurrences : Option Nat} {next : Nat}
    {instant : Instant} :
    caughtUp library schedule .skipMissed maxOccurrences start routeStartedAt now next scheduledFor =
        .ok (some (index, instant)) ↔
      routeStartedAt ≤ scheduledFor ∧ index = next ∧ instant = scheduledFor ∨
      scheduledFor < routeStartedAt ∧
        firstOccurrenceIndexAtOrAfter library start routeStartedAt maxOccurrences schedule =
          .ok (some index) ∧ occurrenceAtIndex library start index schedule = .ok instant := by
  unfold caughtUp
  by_cases hmissed : scheduledFor < routeStartedAt
  · simp only [hmissed, if_true, not_le.mpr hmissed, false_and, false_or, true_and]
    constructor
    · intro h
      obtain ⟨found, hfound, h⟩ := bind_ok.mp h
      cases found with
      | none => cases h
      | some found =>
        obtain ⟨due, hdue, h⟩ := bind_ok.mp h
        obtain ⟨rfl, rfl⟩ := Prod.mk.inj (Option.some.inj (pure_ok.mp h))
        exact ⟨hfound, hdue⟩
    · rintro ⟨hfound, hdue⟩
      exact bind_ok.mpr ⟨_, hfound, bind_ok.mpr ⟨_, hdue, rfl⟩⟩
  · simp only [hmissed, if_false, not_lt.mp hmissed, false_and, or_false, true_and, Except.ok.injEq,
      Option.some.injEq, Prod.mk.injEq]
    exact and_congr eq_comm eq_comm

/-- **A tick that skips what was missed.** -/
theorem onTime_of_caughtUp (hstart : minUtc ≤ (startOf mandate : Int))
    (hcron : CronIncreases library (startOf mandate) schedule) {next : Nat}
    (hnext : Ahead library mandate schedule fired next scheduledFor)
    (hcaught : caughtUp library schedule .skipMissed mandate.payload.maxOccurrences (startOf mandate)
      routeStartedAt now next scheduledFor = .ok (some (index, instant))) :
    next ≤ index ∧ occurrenceAtIndex library (startOf mandate) index schedule = .ok instant ∧
      (routeStartedAt ≤ instant ∨ JustBefore schedule routeStartedAt instant) := by
  rcases caughtUp_skip.mp hcaught with ⟨hle, rfl, rfl⟩ | ⟨hlt, hfound, hoccurs⟩
  · exact ⟨le_refl _, hnext.occurs, .inl hle⟩
  · obtain ⟨hle, hlate⟩ := firstOccurrence_ok hstart hcron (occurrenceOf_some.mpr hnext.occurs) hlt
      (occurrenceOf_some.mpr hoccurs) hfound
    exact ⟨hle, hoccurs, hlate⟩

/-- **A tick that coalesces what was missed.** -/
theorem latest_of_caughtUp (hstart : minUtc ≤ (startOf mandate : Int))
    (hcron : CronIncreases library (startOf mandate) schedule) {next : Nat}
    (hnext : Ahead library mandate schedule fired next scheduledFor)
    (hcaught : caughtUp library schedule .coalesceMissed mandate.payload.maxOccurrences
      (startOf mandate) routeStartedAt now next scheduledFor = .ok (some (index, instant))) :
    next ≤ index ∧ occurrenceAtIndex library (startOf mandate) index schedule = .ok instant ∧
      (scheduledFor < routeStartedAt → scheduledFor ≤ now → instant ≤ now ∧
        ∀ (k : Nat) (due : Int), exhausted mandate.payload.maxOccurrences k = false →
          occurrenceAtIndex library (startOf mandate) k schedule = .ok due → due ≤ now → k ≤ index) := by
  unfold caughtUp at hcaught
  simp only at hcaught
  split at hcaught
  · next hmissed =>
    obtain ⟨found, hfound, hcaught⟩ := bind_ok.mp hcaught
    obtain ⟨hlast, hreached⟩ := latestOccurrence_ok hstart hcron hfound
    -- the next occurrence is one of those looked for
    obtain ⟨last, rfl, hle⟩ := hlast next scheduledFor (exhausted_eq_false.mpr hnext.capped)
      (occurrenceOf_some.mpr hnext.occurs) hmissed.2
    simp only [if_pos hle] at hcaught
    obtain ⟨due, hdue, hcaught⟩ := bind_ok.mp hcaught
    obtain ⟨rfl, rfl⟩ := Prod.mk.inj (Option.some.inj (pure_ok.mp hcaught))
    refine ⟨hle, hdue, fun _ _ => ⟨hreached last due rfl (occurrenceOf_some.mpr hdue), ?_⟩⟩
    intro k instant hcap hinstant hbefore
    obtain ⟨last', hlast', hk⟩ := hlast k instant hcap (occurrenceOf_some.mpr hinstant) hbefore
    obtain rfl := Option.some.inj hlast'
    exact hk
  · next hnone =>
    obtain ⟨rfl, rfl⟩ := Prod.mk.inj (Option.some.inj (Except.ok.inj hcaught))
    exact ⟨le_refl _, hnext.occurs, fun hlt hle => absurd ⟨hlt, hle⟩ hnone⟩

theorem selected_of_nextTick (hfits : Unwrapped fired mandate.event.id)
    (hschedule : mandate.payload.schedule = some schedule)
    (hcron : CronIncreases library (startOf mandate) schedule)
    (hjust : ¬ JustMissed library mandate schedule fired routeStartedAt) {tick : ScheduledTick}
    (h : nextTickForMandate library coordinates mandate fired routeStartedAt now = .ok (some tick)) :
    Selected library mandate schedule fired routeStartedAt now tick := by
  obtain ⟨hin, scheduledFor, hnext, index, instant, hcaught, hcap, -, rfl⟩ :=
    (nextTick_some hfits hschedule).mp h
  have hstart : minUtc ≤ (startOf mandate : Int) := (of_decide_eq_true hin).1
  have hahead (hle : nextIndex fired mandate.event.id ≤ index)
      (hoccurs : occurrenceAtIndex library (startOf mandate) index schedule = .ok instant) :
      Ahead library mandate schedule fired index instant :=
    ⟨(nextIndex_le_iff hfits).mp hle, exhausted_eq_false.mp hcap, hoccurs⟩
  cases hpolicy : MandateCatchUpPolicy.orDefault mandate.payload.catchUp with
  | skipMissed =>
    rw [hpolicy] at hcaught
    obtain ⟨hle, hoccurs, hlate⟩ := onTime_of_caughtUp hstart hcron hnext hcaught
    refine ⟨hahead hle hoccurs, fun _ => ?_, fun hother => ?_⟩
    · exact hlate.resolve_right fun hbefore =>
      hjust ⟨hpolicy, hin, index, instant, hahead hle hoccurs, hbefore⟩
    · rw [hpolicy] at hother
      cases hother
  | coalesceMissed =>
    rw [hpolicy] at hcaught
    obtain ⟨hle, hoccurs, hlatest⟩ := latest_of_caughtUp hstart hcron hnext hcaught
    refine ⟨hahead hle hoccurs, fun hother => ?_, fun _ hmissed => ?_⟩
    · rw [hpolicy] at hother
      cases hother
    · obtain ⟨k, due, hk, hpast, hdue⟩ := hmissed
      obtain ⟨due', hnext', hle'⟩ := hk.next hfits hstart hcron
      obtain rfl : scheduledFor = due' := Except.ok.inj (hnext.occurs.symm.trans hnext'.occurs)
      obtain ⟨hbefore, hgreatest⟩ := hlatest (lt_of_le_of_lt hle' hpast) (hle'.trans hdue)
      exact ⟨hbefore, fun j instant hj => hgreatest j instant (exhausted_eq_false.mpr hj)⟩

theorem firstOccurrence_justBefore (hstart : minUtc ≤ (startOf mandate : Int))
    (h : Ahead library mandate schedule fired index instant)
    (hbefore : JustBefore schedule routeStartedAt instant) :
    firstOccurrenceIndexAtOrAfter library (startOf mandate) routeStartedAt
      mandate.payload.maxOccurrences schedule = .ok (some index) := by
  obtain ⟨⟨everyMs, rfl⟩, hlt, hgt⟩ := hbefore
  obtain ⟨hpos, -, hinstant⟩ := (occurrenceAtIndex_interval hstart).mp h.occurs
  obtain ⟨hreject, hfits, hadd⟩ := interval_fits hstart (occurs_interval_zero hstart ⟨_, h.occurs⟩)
  simp only [firstOccurrenceIndexAtOrAfter, hreject, hfits, hadd, orFails, bind, Except.bind]
  generalize (startOf mandate : Int) = start at hstart hinstant ⊢
  have hstep : ((everyMs * (index + 1) : Nat) : Int) = (index * everyMs : Nat) + everyMs := by
    push_cast
    ring
  have hnonneg := Int.natCast_nonneg (index * everyMs)
  rw [hstep] at hinstant
  have hlate : ¬ routeStartedAt ≤ start + (everyMs : Int) * 1000000 := by
    generalize ((index * everyMs : Nat) : Int) = offset at hinstant hnonneg
    omega
  have hmultiple : (numMilliseconds (routeStartedAt - (start + everyMs * 1000000))).toNat =
      index * everyMs := by
    generalize index * everyMs = offset at hinstant hnonneg ⊢
    unfold numMilliseconds
    rw [Int.tdiv_eq_ediv_of_nonneg (by omega)]
    omega
  have hindex : (index * everyMs + everyMs - 1) / everyMs = index := by
    rw [Nat.add_sub_assoc (Nat.succ_le_of_lt hpos), Nat.mul_comm, Nat.mul_add_div hpos,
      Nat.div_eq_of_lt (Nat.sub_lt hpos Nat.one_pos), Nat.add_zero]
  have hcap := exhausted_eq_false.mpr h.capped
  rw [if_neg hlate, hmultiple, hindex, hcap]
  rfl

theorem nextTick_of_justMissed (hfits : Unwrapped fired mandate.event.id)
    (hschedule : mandate.payload.schedule = some schedule)
    (hcron : CronIncreases library (startOf mandate) schedule)
    (hjust : JustMissed library mandate schedule fired routeStartedAt) :
    ∃ tick, nextTickForMandate library coordinates mandate fired routeStartedAt now = .ok (some tick) ∧
      (tick.scheduledFor : Int) < routeStartedAt := by
  obtain ⟨hpolicy, hin, index, instant, hahead, hbefore⟩ := hjust
  have hstart : minUtc ≤ (startOf mandate : Int) := (of_decide_eq_true hin).1
  obtain ⟨scheduledFor, hnext, hle⟩ := hahead.next hfits hstart hcron
  refine ⟨_, (nextTick_some hfits hschedule).mpr ⟨hin, scheduledFor, hnext, index, instant, ?_,
    exhausted_eq_false.mpr hahead.capped, fun hfired => absurd (hahead.unfired index hfired) (lt_irrefl _),
    rfl⟩, hbefore.2.1⟩
  rw [hpolicy]
  exact caughtUp_skip.mpr (.inr ⟨lt_of_le_of_lt hle hbefore.2.1,
    firstOccurrence_justBefore hstart hahead hbefore, hahead.occurs⟩)

/-- **Once `u64::MAX` has fired** no tick of a `u64` is as it should be: the index after it wraps. -/
theorem not_selected_of_wrapped (hfits : ¬ Unwrapped fired mandate.event.id) {tick : ScheduledTick}
    (hindex : tick.occurrenceIndex < 2 ^ 64) :
    ¬ Selected library mandate schedule fired routeStartedAt now tick := by
  intro h
  refine hfits fun index hfired => ?_
  have hlater := h.ahead.unfired index hfired
  omega

/-- **The tick that is selected is as its policy asks, just if no occurrence was just missed.**  For every
schedule, start, cap, set of occurrences that fired and pair of instants, with the occurrences of cron
schedules increasing; once the mandate's occurrence `u64::MAX` has fired, no tick is. -/
theorem selects_iff (hschedule : mandate.payload.schedule = some schedule)
    (hcron : CronIncreases library (startOf mandate) schedule) :
    (Unwrapped fired mandate.event.id →
      ((∀ tick, nextTickForMandate library coordinates mandate fired routeStartedAt now =
          .ok (some tick) → Selected library mandate schedule fired routeStartedAt now tick) ↔
        ¬ JustMissed library mandate schedule fired routeStartedAt)) ∧
    (¬ Unwrapped fired mandate.event.id → ∀ tick, tick.occurrenceIndex < 2 ^ 64 →
      nextTickForMandate library coordinates mandate fired routeStartedAt now = .ok (some tick) →
      ¬ Selected library mandate schedule fired routeStartedAt now tick) := by
  refine ⟨fun hfits => ⟨fun h hjust => ?_, fun hjust tick => selected_of_nextTick hfits hschedule hcron hjust⟩,
    fun hfits tick hindex _ => not_selected_of_wrapped hfits hindex⟩
  obtain ⟨tick, htick, hlt⟩ := nextTick_of_justMissed hfits hschedule hcron hjust
  exact absurd hlt (not_lt.mpr ((h tick htick).onTime hjust.1))

end

/-! ### A minute's mandate -/

/-- A mandate of the sample, of its second millisecond. -/
def minuteMandate (schedule : MandateSchedulePayload) : ActiveMandate :=
  ⟨.fromNew (controlStreamId sampleThread) 2 (.witnessed (.counted 2) sampleThread .mandateStarted
    (Wire.started.toValue (sampleStart schedule none))), sampleStart schedule none⟩

def everyMinute : MandateSchedulePayload := .cron "* * * * *" "UTC"

/-- Its occurrence `u64::MAX` has fired. -/
def lastFired : Fired := [((Draw.counted 2).eventId, 2 ^ 64 - 1)]

/-- A cron schedule has its tick on time, at whatever nanosecond the route starts; an interval begins
again after `u64::MAX`. -/
theorem selects_iff_minutes :
    (¬ JustMissed sampleLibrary (minuteMandate everyMinute) everyMinute [] 60000000500 ∧
      ∀ tick, nextTickForMandate sampleLibrary sampleThread (minuteMandate everyMinute) []
          60000000500 60000000500 = .ok (some tick) →
        Selected sampleLibrary (minuteMandate everyMinute) everyMinute [] 60000000500 60000000500 tick) ∧
      ∃ tick, nextTickForMandate sampleLibrary sampleThread (minuteMandate (.interval 60000)) lastFired
          0 0 = .ok (some tick) ∧
        ¬ Selected sampleLibrary (minuteMandate (.interval 60000)) (.interval 60000) lastFired 0 0 tick := by
  have hjust : ¬ JustMissed sampleLibrary (minuteMandate everyMinute) everyMinute [] 60000000500 := by
    rintro ⟨-, -, _, _, -, ⟨_, hinterval⟩, -⟩
    cases hinterval
  have hfits : Unwrapped [] (minuteMandate everyMinute).event.id := fun _ hfired => nomatch hfired
  have hwrapped : ¬ Unwrapped lastFired (minuteMandate (.interval 60000)).event.id :=
    fun hfits => absurd (hfits _ (.head _)) (lt_irrefl _)
  have htick : nextTickForMandate sampleLibrary sampleThread (minuteMandate (.interval 60000)) lastFired
      0 0 = .ok (some ⟨sampleThread, (Draw.counted 2).eventId, 60002000000, 0, false⟩) := by
    decide
  exact ⟨⟨hjust,
    ((selects_iff rfl fun expr tz _ => minute_increasing _ expr tz).1 hfits).mpr hjust⟩, _, htick,
    (selects_iff rfl (by rintro _ _ ⟨⟩)).2 hwrapped _ (by decide) htick⟩

/-- **A route that starts 500 nanoseconds after an occurrence** selects it, although it skips what it
missed. -/
theorem skip_selects_missed :
    ¬ ∀ (library : ScheduleLibrary) (coordinates : ThreadCoordinates) (mandate : ActiveMandate)
      (schedule : MandateSchedulePayload) (fired : Fired) (routeStartedAt now : Int),
      mandate.payload.schedule = some schedule → CronIncreases library (startOf mandate) schedule →
      ∀ tick, nextTickForMandate library coordinates mandate fired routeStartedAt now =
        .ok (some tick) → Selected library mandate schedule fired routeStartedAt now tick := by
  intro h
  have htick : nextTickForMandate sampleLibrary sampleThread (minuteMandate (.interval 60000)) []
      60002000500 60002000500 =
        .ok (some ⟨sampleThread, (Draw.counted 2).eventId, 60002000000, 0, false⟩) := by
    decide
  have hselected := h sampleLibrary sampleThread (minuteMandate (.interval 60000)) (.interval 60000) []
    60002000500 60002000500 rfl (fun expr tz heq => nomatch heq) _ htick
  have hlate : (60002000500 : Int) ≤ 60002000000 := hselected.onTime rfl
  omega

end Verlet.Daemon
