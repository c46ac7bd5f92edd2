import Verlet.Daemon.ClockRoute

/-!
# Daemon — The clock route — Occurrences

When the next tick of a mandate can be computed.  Instants are taken `Far` from the limits of
`chrono`, and the cron library `Total` on the schedules that validated.  The only occurrence that
may then be missing is the next one itself: whatever catching up makes of it exists.
-/

namespace Verlet.Daemon
open Support Kernel History
open RemoteStore (VerletResult)

variable {library : ScheduleLibrary}

/-! ### Assumptions -/

/-- Far from the limits of `chrono`: no more than a quarter of the way there. -/
structure Far (instant : Int) : Prop where
  lower : minUtc ≤ 4 * instant
  upper : 4 * instant ≤ maxUtc

/-- Each is after the one before, and nothing comes after the end. -/
structure Increasing (occurrence : Nat → Option Instant) : Prop where
  fused : ∀ index, occurrence index = none → occurrence (index + 1) = none
  increases : ∀ index instant instant', occurrence index = some instant →
    occurrence (index + 1) = some instant' → instant < instant'

/-- The occurrences of a cron schedule that validated are after the start and increase, and one
follows on every instant far from the limits of `chrono`. -/
structure Total (library : ScheduleLibrary) : Prop where
  first : ∀ {policy now expr tz},
    validateSchedule library policy now (.cron expr tz) = .ok () →
      ∀ start, Far start → ∃ instant, library.iterAfter expr tz start 0 = some instant
  next : ∀ {policy now expr tz},
    validateSchedule library policy now (.cron expr tz) = .ok () →
      ∀ start index instant, Far start → library.iterAfter expr tz start index = some instant →
        Far instant → ∃ instant', library.iterAfter expr tz start (index + 1) = some instant'
  after : ∀ {policy now expr tz},
    validateSchedule library policy now (.cron expr tz) = .ok () →
      ∀ start instant, library.iterAfter expr tz start 0 = some instant → start < instant
  increases : ∀ {policy now expr tz},
    validateSchedule library policy now (.cron expr tz) = .ok () →
      ∀ start, Increasing (library.iterAfter expr tz start)

def Occurs (library : ScheduleLibrary) (start : Instant) (schedule : MandateSchedulePayload)
    (index : Nat) : Prop := ∃ instant, occurrenceAtIndex library start index schedule = .ok instant

/-! ### Checked arithmetic -/

theorem orFails_ok {α : Type} {text : String} {o : Option α} {a : α} :
    orFails text o = .ok a ↔ o = some a := by
  cases o <;> simp [orFails]

theorem orExecution_ok {α : Type} {text : String} {x : Except String α} {a : α} :
    orExecution text x = .ok a ↔ x = .ok a := by
  cases x <;> simp [orExecution]

theorem fitsU64_some {n m : Nat} : fitsU64 n = some m ↔ n < 2 ^ 64 ∧ m = n := by
  unfold fitsU64
  split <;> simp only [*, Option.some.injEq, reduceCtorEq, true_and, false_and, eq_comm]

theorem fitsI64_some {n m : Nat} : fitsI64 n = some m ↔ n < 2 ^ 63 ∧ m = n := by
  unfold fitsI64
  split <;> simp only [*, Option.some.injEq, reduceCtorEq, true_and, false_and, eq_comm]

variable {everyMs : Nat}

theorem rejectZeroInterval_ok {n : Nat} :
    rejectZeroInterval everyMs = .ok n ↔ 0 < everyMs ∧ n = everyMs := by
  unfold rejectZeroInterval
  split
  · simp [*]
  · simp [Nat.pos_iff_ne_zero, *, eq_comm]

variable {instant : Int}

theorem inRange_iff : inRange instant = true ↔ minUtc ≤ instant ∧ instant ≤ maxUtc :=
  decide_eq_true_iff

theorem checkedAddMs_some {start : Int} {ms : Int} :
    checkedAddMs start ms = some instant ↔
      minUtc ≤ start + ms * 1000000 ∧ start + ms * 1000000 ≤ maxUtc ∧
      instant = start + ms * 1000000 := by
  rw [checkedAddMs, Option.ite_none_right_eq_some, inRange_iff, and_assoc, Option.some.injEq,
    @eq_comm _ instant]

theorem datetimeFromMillis_ok {value start : Int} :
    datetimeFromMillis value = .ok start ↔
      minUtc ≤ value * 1000000 ∧ value * 1000000 ≤ maxUtc ∧ start = value * 1000000 := by
  rw [datetimeFromMillis, ← and_assoc, ← inRange_iff]
  split <;> simp [*, eq_comm]

theorem Far.inRange (h : Far instant) : minUtc ≤ instant ∧ instant ≤ maxUtc := by
  have := h.lower
  have := h.upper
  unfold minUtc maxUtc at *
  omega

/-! ### Intervals -/

variable {index : Nat}

/-- **An interval's occurrence exists** when `chrono` can hold it. -/
theorem occurrenceAtIndex_interval {start : Int} (hstart : minUtc ≤ start) :
    occurrenceAtIndex library start index (.interval everyMs) = .ok instant ↔
      0 < everyMs ∧ start + ((everyMs * (index + 1) : Nat) : Int) * 1000000 ≤ maxUtc ∧
      instant = start + ((everyMs * (index + 1) : Nat) : Int) * 1000000 := by
  simp only [occurrenceAtIndex, bind_ok, orFails_ok, fitsU64_some, fitsI64_some,
    rejectZeroInterval_ok, checkedAddMs_some]
  constructor
  · rintro ⟨_, ⟨-, rfl⟩, _, ⟨hpos, rfl⟩, _, ⟨-, rfl⟩, _, ⟨-, rfl⟩, -, hle, rfl⟩
    exact ⟨hpos, hle, rfl⟩
  · rintro ⟨hpos, hle, rfl⟩
    have hoffset : everyMs * (index + 1) < 2 ^ 63 := by
      unfold minUtc at hstart
      unfold maxUtc at hle
      omega
    have hindex : index + 1 ≤ everyMs * (index + 1) := Nat.le_mul_of_pos_left _ hpos
    refine ⟨_, ⟨?_, rfl⟩, _, ⟨hpos, rfl⟩, _, ⟨?_, rfl⟩, _, ⟨hoffset, rfl⟩, ?_, hle, rfl⟩
    · omega
    · omega
    · omega

theorem index_fits {start : Int} (hstart : minUtc ≤ start)
    (h : occurrenceAtIndex library start index (.interval everyMs) = .ok instant) :
    index + 1 < 2 ^ 64 := by
  obtain ⟨hpos, hle, -⟩ := (occurrenceAtIndex_interval hstart).mp h
  have hindex : index + 1 ≤ everyMs * (index + 1) := Nat.le_mul_of_pos_left _ hpos
  unfold minUtc at hstart
  unfold maxUtc at hle
  omega

theorem occurs_interval {start : Int} (hstart : minUtc ≤ start) :
    Occurs library start (.interval everyMs) index ↔
      0 < everyMs ∧ start + ((everyMs * (index + 1) : Nat) : Int) * 1000000 ≤ maxUtc := by
  unfold Occurs
  constructor
  · rintro ⟨instant, h⟩
    obtain ⟨hpos, hle, -⟩ := (occurrenceAtIndex_interval hstart).mp h
    exact ⟨hpos, hle⟩
  · rintro ⟨hpos, hle⟩
    exact ⟨_, (occurrenceAtIndex_interval hstart).mpr ⟨hpos, hle, rfl⟩⟩

theorem occurs_interval_succ {start threshold : Int} (hstart : Far start)
    (hthreshold : Far threshold)
    (h : occurrenceAtIndex library start index (.interval everyMs) = .ok instant)
    (hle : instant ≤ threshold) : Occurs library start (.interval everyMs) (index + 1) := by
  have hmin := hstart.inRange.1
  obtain ⟨hpos, -, rfl⟩ := (occurrenceAtIndex_interval hmin).mp h
  refine (occurs_interval hmin).mpr ⟨hpos, ?_⟩
  have hstep : everyMs * (index + 1 + 1) = everyMs * (index + 1) + everyMs := Nat.mul_succ _ _
  have honce : everyMs ≤ everyMs * (index + 1) := Nat.le_mul_of_pos_right _ (Nat.succ_pos _)
  have hlower := hstart.lower
  have hupper := hthreshold.upper
  rw [hstep]
  unfold minUtc at hlower
  unfold maxUtc at *
  omega

theorem occurs_interval_zero {start : Int} (hstart : minUtc ≤ start)
    (h : Occurs library start (.interval everyMs) index) :
    Occurs library start (.interval everyMs) 0 := by
  obtain ⟨hpos, hle⟩ := (occurs_interval hstart).mp h
  refine (occurs_interval hstart).mpr ⟨hpos, ?_⟩
  have honce : everyMs ≤ everyMs * (index + 1) := Nat.le_mul_of_pos_right _ (Nat.succ_pos _)
  rw [Nat.zero_add, Nat.mul_one]
  omega

theorem interval_fits {start : Int} (hstart : minUtc ≤ start)
    (h : Occurs library start (.interval everyMs) 0) :
    rejectZeroInterval everyMs = .ok everyMs ∧ fitsI64 everyMs = some everyMs ∧
      checkedAddMs start everyMs = some (start + everyMs * 1000000) := by
  obtain ⟨hpos, hle⟩ := (occurs_interval hstart).mp h
  rw [Nat.zero_add, Nat.mul_one] at hle
  refine ⟨rejectZeroInterval_ok.mpr ⟨hpos, rfl⟩, fitsI64_some.mpr ⟨?_, rfl⟩,
    checkedAddMs_some.mpr ⟨by omega, hle, rfl⟩⟩
  unfold minUtc at hstart
  unfold maxUtc at hle
  omega

/-! ### Fixed instants -/

theorem occurs_at {start : Int} {when : String} :
    Occurs library start (.at when) index ↔
      index = 0 ∧ ∃ instant, parseUtc library when = .ok instant := by
  unfold Occurs
  simp only [occurrenceAtIndex]
  split
  · rename_i hpos
    exact ⟨fun ⟨_, h⟩ => (nomatch h), fun h => absurd h.1 (Nat.pos_iff_ne_zero.mp hpos)⟩
  · rename_i hzero
    rw [Nat.pos_iff_ne_zero, not_not] at hzero
    exact ⟨fun h => ⟨hzero, h⟩, fun h => h.2⟩

/-! ### Sequences of occurrences -/

section
variable {occurrence : Nat → Option Instant} {start threshold : Int} {maxOccurrences : Option Nat}

theorem Increasing.earlier (h : Increasing occurrence) {later : Nat} {instant : Instant}
    (hle : index ≤ later) (hlater : occurrence later = some instant) :
    ∃ instant', occurrence index = some instant' ∧ instant' ≤ instant ∧
      (index < later → instant' < instant) := by
  induction hle generalizing instant with
  | refl => exact ⟨instant, hlater, le_refl _, fun hlt => absurd hlt (lt_irrefl _)⟩
  | @step later hle ih =>
    cases hbefore : occurrence later with
    | none =>
      rw [h.fused later hbefore] at hlater
      cases hlater
    | some before =>
      obtain ⟨instant', hinstant', hle', -⟩ := ih hbefore
      have hlt : before < instant := h.increases later before instant hbefore hlater
      have hlt : instant' < instant := lt_of_le_of_lt hle' hlt
      exact ⟨instant', hinstant', le_of_lt hlt, fun _ => hlt⟩

theorem Increasing.lt_of_lt (h : Increasing occurrence) {i j : Nat} {a b : Int}
    (hi : occurrence i = some a) (hj : occurrence j = some b) (hlt : a < b) : i < j := by
  by_contra hge
  obtain ⟨b', hb', hle, -⟩ := h.earlier (Nat.le_of_not_lt hge) hi
  obtain rfl := Option.some.inj (hj.symm.trans hb')
  exact absurd hlt (not_lt.mpr hle)

theorem firstCron_some {fuel found : Nat}
    (h : firstCron occurrence threshold maxOccurrences fuel index = .ok (some found)) :
    ∃ instant : Int, occurrence found = some instant ∧ threshold ≤ instant := by
  induction fuel generalizing index with
  | zero => cases h
  | succ fuel ih =>
    rw [firstCron] at h
    cases hinstant : occurrence index with
    | none =>
      rw [hinstant] at h
      cases h
    | some instant =>
      simp only [hinstant] at h
      split at h
      · cases h
      · split at h
        · next hlate =>
          cases h
          exact ⟨instant, hinstant, hlate⟩
        · exact ih h

theorem exhausted_mono {later : Nat} (hle : index ≤ later)
    (h : exhausted maxOccurrences index = true) : exhausted maxOccurrences later = true := by
  cases maxOccurrences with
  | none => cases h
  | some max =>
    simp only [exhausted, Option.any_some, decide_eq_true_eq] at h ⊢
    exact h.trans hle

theorem latestCron_ok (hinc : Increasing occurrence) {fuel : Nat} {latest found : Option Nat}
    (hbefore : ∀ k < index, ∀ instant : Int, exhausted maxOccurrences k = false →
      occurrence k = some instant → instant ≤ threshold → ∃ last, latest = some last ∧ k ≤ last)
    (hreached : ∀ last, latest = some last →
      ∃ instant : Int, occurrence last = some instant ∧ instant ≤ threshold)
    (h : latestCron occurrence threshold maxOccurrences fuel index latest = .ok found) :
    (∀ k (instant : Int), exhausted maxOccurrences k = false → occurrence k = some instant →
      instant ≤ threshold → ∃ last, found = some last ∧ k ≤ last) ∧
    ∀ last, found = some last → ∃ instant : Int, occurrence last = some instant ∧
      instant ≤ threshold := by
  induction fuel generalizing index latest with
  | zero => cases h
  | succ fuel ih =>
    -- where the search stops, nothing from the index on is a candidate
    have hstop : (∀ k, index ≤ k → ∀ instant : Int, exhausted maxOccurrences k = false →
        occurrence k = some instant → ¬ instant ≤ threshold) → latest = found →
        (∀ k (instant : Int), exhausted maxOccurrences k = false → occurrence k = some instant →
          instant ≤ threshold → ∃ last, found = some last ∧ k ≤ last) ∧
        ∀ last, found = some last → ∃ instant : Int, occurrence last = some instant ∧
          instant ≤ threshold := by
      rintro hnone rfl
      refine ⟨fun k instant hcap hinstant hle => ?_, hreached⟩
      by_cases hk : k < index
      · exact hbefore k hk instant hcap hinstant hle
      · exact absurd hle (hnone k (Nat.le_of_not_lt hk) instant hcap hinstant)
    rw [latestCron] at h
    cases hinstant : occurrence index with
    | none =>
      simp only [hinstant, Except.ok.injEq] at h
      refine hstop (fun k hk instant _ hlater _ => ?_) h
      obtain ⟨_, hsome, -⟩ := hinc.earlier hk hlater
      rw [hinstant] at hsome
      cases hsome
    | some instant =>
      simp only [hinstant] at h
      split at h
      · next hend =>
        simp only [Except.ok.injEq] at h
        refine hstop (fun k hk later hcap hlater hle => ?_) h
        rcases hend with hend | hend
        · rw [exhausted_mono hk hend] at hcap
          cases hcap
        · obtain ⟨instant', hsome, hearlier, -⟩ := hinc.earlier hk hlater
          obtain rfl := Option.some.inj (hinstant.symm.trans hsome)
          exact absurd (hearlier.trans hle) (not_le.mpr hend)
      · next hgoes =>
        rw [not_or, not_lt] at hgoes
        refine ih (fun k hk later hcap hlater hle => ⟨index, rfl, Nat.lt_succ_iff.mp hk⟩)
          (fun last hlast => ?_) h
        obtain rfl := Option.some.inj hlast
        exact ⟨instant, hinstant, hgoes.2⟩

theorem exists_firstCron_ok
    (h : ∀ (index : Nat) (instant : Int), occurrence index = some instant → start + index < instant)
    (fuel index : Nat) (hfuel : (threshold - start).toNat ≤ index + fuel) :
    ∃ found, firstCron occurrence threshold maxOccurrences (fuel + 1) index = .ok found := by
  induction fuel generalizing index with
  | zero =>
    rw [firstCron]
    cases hinstant : occurrence index with
    | none => exact ⟨none, rfl⟩
    | some instant =>
      have hafter := h index instant hinstant
      by_cases hex : exhausted maxOccurrences index = true
      · exact ⟨none, if_pos hex⟩
      · have hpassed : threshold ≤ instant := by omega
        exact ⟨some index, (if_neg hex).trans (if_pos hpassed)⟩
  | succ fuel ih =>
    rw [firstCron]
    cases hinstant : occurrence index with
    | none => exact ⟨none, rfl⟩
    | some instant =>
      have hafter := h index instant hinstant
      by_cases hex : exhausted maxOccurrences index = true
      · exact ⟨none, if_pos hex⟩
      · by_cases hpassed : threshold ≤ instant
        · exact ⟨some index, (if_neg hex).trans (if_pos hpassed)⟩
        · obtain ⟨found, hfound⟩ := ih (index + 1) (by omega)
          exact ⟨found, (if_neg hex).trans ((if_neg hpassed).trans hfound)⟩

theorem exists_latestCron_ok
    (h : ∀ (index : Nat) (instant : Int), occurrence index = some instant → start + index < instant)
    (fuel index : Nat) (latest : Option Nat) (hfuel : (threshold - start).toNat ≤ index + fuel) :
    ∃ found, latestCron occurrence threshold maxOccurrences (fuel + 1) index latest = .ok found := by
  induction fuel generalizing index latest with
  | zero =>
    rw [latestCron]
    cases hinstant : occurrence index with
    | none => exact ⟨latest, rfl⟩
    | some instant =>
      have hafter := h index instant hinstant
      have hpassed : threshold < instant := by omega
      exact ⟨latest, if_pos (.inr hpassed)⟩
  | succ fuel ih =>
    rw [latestCron]
    cases hinstant : occurrence index with
    | none => exact ⟨latest, rfl⟩
    | some instant =>
      have hafter := h index instant hinstant
      by_cases hstop : exhausted maxOccurrences index = true ∨ threshold < instant
      · exact ⟨latest, if_pos hstop⟩
      · obtain ⟨found, hfound⟩ := ih (index + 1) (some index) (by omega)
        exact ⟨found, (if_neg hstop).trans hfound⟩

end

/-! ### Cron schedules -/

section
variable {policy : MandateCatchUpPolicy} {now : Instant} {expr tz : String}

theorem cronSchedule_ok (h : validateSchedule library policy now (.cron expr tz) = .ok ()) :
    cronSchedule library expr tz = .ok () := by
  obtain ⟨_, hcron, hrest⟩ := bind_ok.mp h
  obtain ⟨_, htimezone, -⟩ := bind_ok.mp hrest
  exact bind_ok.mpr ⟨_, hcron, htimezone⟩

theorem Total.spread (hlib : Total library)
    (h : validateSchedule library policy now (.cron expr tz) = .ok ()) (start : Int) (index : Nat)
    (instant : Int) (hinstant : library.iterAfter expr tz start index = some instant) :
    start + index < instant := by
  induction index generalizing instant with
  | zero => simpa using hlib.after h start instant hinstant
  | succ index ih =>
    obtain ⟨earlier, hearlier, -, hlt⟩ : ∃ earlier : Int, _ ∧ _ ∧ (_ → earlier < instant) :=
      (hlib.increases h start).earlier (Nat.le_succ index) hinstant
    have hspread := ih earlier hearlier
    have hlt := hlt (Nat.lt_succ_self index)
    push_cast
    omega

theorem occurs_cron (h : validateSchedule library policy now (.cron expr tz) = .ok ()) {start : Int} :
    Occurs library start (.cron expr tz) index ↔
      ∃ instant, library.iterAfter expr tz start index = some instant := by
  constructor
  · rintro ⟨instant, hinstant⟩
    obtain ⟨_, -, hinstant⟩ := bind_ok.mp hinstant
    exact ⟨instant, orFails_ok.mp hinstant⟩
  · rintro ⟨instant, hinstant⟩
    exact ⟨instant, bind_ok.mpr ⟨_, cronSchedule_ok h, orFails_ok.mpr hinstant⟩⟩

/-- Up to the one after an occurrence that is not late, every occurrence exists. -/
theorem occurs_cron_next (hlib : Total library)
    (h : validateSchedule library policy now (.cron expr tz) = .ok ()) {start limit : Int}
    (hstart : Far start) (hlimit : Far limit) {last : Nat}
    (hlast : occurrenceAtIndex library start last (.cron expr tz) = .ok instant)
    (hle : instant ≤ limit) (hindex : index ≤ last + 1) :
    Occurs library start (.cron expr tz) index := by
  obtain ⟨_, -, hlast⟩ := bind_ok.mp hlast
  have hlast := orFails_ok.mp hlast
  have hspread := hlib.spread h start last instant hlast
  have hlower := hstart.lower
  have hupper := hlimit.upper
  have hfar : Far instant := ⟨by omega, by omega⟩
  obtain ⟨instant', hnext⟩ := hlib.next h start last instant hstart hlast hfar
  obtain ⟨due, hdue, -⟩ := (hlib.increases h start).earlier hindex hnext
  exact (occurs_cron h).mpr ⟨due, hdue⟩

end

/-! ### Catching up -/

section
variable {policy : MandateCatchUpPolicy} {now : Instant} {schedule : MandateSchedulePayload}
  {start threshold : Int} {maxOccurrences : Option Nat}

theorem occurs_zero (hlib : Total library)
    (hvalid : validateSchedule library policy now schedule = .ok ()) (hstart : Far start)
    (h : Occurs library start schedule index) : Occurs library start schedule 0 := by
  cases schedule with
  | cron expr tz => exact (occurs_cron hvalid).mpr (hlib.first hvalid start hstart)
  | interval everyMs => exact occurs_interval_zero hstart.inRange.1 h
  | «at» when =>
    obtain ⟨instant, hinstant⟩ := (occurs_at.mp h).2
    exact occurs_at.mpr ⟨rfl, instant, hinstant⟩

theorem occurs_interval_of_le (hstart : Far start) (hthreshold : Far threshold) (hpos : 0 < everyMs)
    (hle : ((everyMs * (index + 1) : Nat) : Int) * 1000000 ≤ 2 * (threshold - start)) :
    Occurs library start (.interval everyMs) index := by
  refine (occurs_interval hstart.inRange.1).mpr ⟨hpos, ?_⟩
  have hlower := hstart.lower
  have hupper := hthreshold.upper
  unfold minUtc at hlower
  unfold maxUtc at *
  omega

theorem le_numMilliseconds_iff {duration : Int} (h : 0 ≤ duration) {ms : Nat} :
    ms ≤ (numMilliseconds duration).toNat ↔ (ms : Int) * 1000000 ≤ duration := by
  unfold numMilliseconds
  rw [Int.tdiv_eq_ediv_of_nonneg h]
  omega

theorem occurs_interval_within (hstart : Far start) (hthreshold : Far threshold)
    (hzero : Occurs library start (.interval everyMs) 0) (hpassed : start + everyMs * 1000000 ≤ threshold)
    (hle : everyMs * index ≤
      (numMilliseconds (threshold - (start + everyMs * 1000000))).toNat + everyMs) :
    Occurs library start (.interval everyMs) index := by
  refine occurs_interval_of_le hstart hthreshold ((occurs_interval hstart.inRange.1).mp hzero).1 ?_
  have hms : _ ≤ threshold - (start + everyMs * 1000000) :=
    (le_numMilliseconds_iff (by omega)).mp (le_refl _)
  have hstep := Nat.mul_add_one everyMs index
  omega

theorem exists_at_ok {when : String} {p : Instant → Prop} [DecidablePred p]
    (hzero : Occurs library start (.at when) 0) :
    ∃ found, (do
      let when ← parseUtc library when
      return if p when then some 0 else none : VerletResult (Option Nat)) = .ok found ∧
      ∀ index, found = some index → Occurs library start (.at when) index := by
  obtain ⟨instant, hinstant⟩ := hzero
  refine ⟨_, bind_ok.mpr ⟨instant, hinstant, rfl⟩, fun index hindex => ?_⟩
  split at hindex
  · obtain rfl := Option.some.inj hindex
    exact ⟨instant, hinstant⟩
  · cases hindex

/-- **The search forward ends**, at an occurrence of the schedule. -/
theorem exists_firstOccurrence_ok (hlib : Total library)
    (hvalid : validateSchedule library policy now schedule = .ok ()) (hstart : Far start)
    (hthreshold : Far threshold) (hzero : Occurs library start schedule 0) :
    ∃ found, firstOccurrenceIndexAtOrAfter library start threshold maxOccurrences schedule = .ok found ∧
      ∀ index, found = some index → Occurs library start schedule index := by
  cases schedule with
  | cron expr tz =>
    obtain ⟨found, hfound⟩ : ∃ found, firstCron (library.iterAfter expr tz start) threshold
        maxOccurrences ((threshold - start).toNat + 1) 0 = .ok found :=
      exists_firstCron_ok (hlib.spread hvalid start) _ 0 (Nat.le_add_left _ 0)
    refine ⟨found, bind_ok.mpr ⟨_, cronSchedule_ok hvalid, hfound⟩, fun index hindex => ?_⟩
    obtain ⟨instant, hinstant, -⟩ := firstCron_some (hindex ▸ hfound)
    exact (occurs_cron hvalid).mpr ⟨instant, hinstant⟩
  | «at» when => exact exists_at_ok hzero
  | interval everyMs =>
    have hmin := hstart.inRange.1
    obtain ⟨hreject, hfits, hadd⟩ := interval_fits hmin hzero
    simp only [firstOccurrenceIndexAtOrAfter, hreject, hfits, hadd, orFails, bind, Except.bind]
    by_cases hpassed : threshold ≤ start + (everyMs : Int) * 1000000
    · refine ⟨some 0, if_pos hpassed, fun index hindex => ?_⟩
      obtain rfl := Option.some.inj hindex
      exact hzero
    · refine ⟨_, if_neg hpassed, fun index hindex => ?_⟩
      split at hindex
      · cases hindex
      · obtain rfl := Option.some.inj hindex
        -- the occurrence is less than one interval after the threshold
        exact occurs_interval_within hstart hthreshold hzero (by omega)
          ((Nat.mul_div_le _ everyMs).trans (Nat.sub_le _ 1))

/-- **The search for the latest ends**, at an occurrence of the schedule. -/
theorem exists_latestOccurrence_ok (hlib : Total library)
    (hvalid : validateSchedule library policy now schedule = .ok ()) (hstart : Far start)
    (hthreshold : Far threshold) (hzero : Occurs library start schedule 0) :
    ∃ found,
      latestOccurrenceIndexAtOrBefore library start threshold maxOccurrences schedule = .ok found ∧
      ∀ index, found = some index → Occurs library start schedule index := by
  cases schedule with
  | cron expr tz =>
    obtain ⟨found, hfound⟩ : ∃ found, latestCron (library.iterAfter expr tz start) threshold
        maxOccurrences ((threshold - start).toNat + 1) 0 none = .ok found :=
      exists_latestCron_ok (hlib.spread hvalid start) _ 0 none (Nat.le_add_left _ 0)
    have hreached := (latestCron_ok (hlib.increases hvalid start) (by simp) (by simp) hfound).2
    refine ⟨found, bind_ok.mpr ⟨_, cronSchedule_ok hvalid, hfound⟩, fun index hindex => ?_⟩
    obtain ⟨instant, hinstant, -⟩ := hreached index hindex
    exact (occurs_cron hvalid).mpr ⟨instant, hinstant⟩
  | «at» when => exact exists_at_ok hzero
  | interval everyMs =>
    have hmin := hstart.inRange.1
    obtain ⟨hreject, hfits, hadd⟩ := interval_fits hmin hzero
    simp only [latestOccurrenceIndexAtOrBefore, hreject, hfits, hadd, orFails, bind, Except.bind]
    by_cases hbefore : threshold < start + (everyMs : Int) * 1000000
    · exact ⟨none, if_pos hbefore, fun index hindex => (nomatch hindex)⟩
    · -- the occurrence is no later than the threshold
      have hearlier : ∀ index ≤ (numMilliseconds (threshold - (start + everyMs * 1000000))).toNat /
          everyMs, Occurs library start (.interval everyMs) index := by
        exact fun index hindex => occurs_interval_within hstart hthreshold hzero (by omega)
          (((Nat.mul_le_mul_left everyMs hindex).trans (Nat.mul_div_le _ everyMs)).trans
            (Nat.le_add_right _ _))
      cases maxOccurrences with
      | none =>
        refine ⟨_, if_neg hbefore, fun index hindex => ?_⟩
        obtain rfl := Option.some.inj hindex
        exact hearlier _ (Nat.le_refl _)
      | some max =>
        refine ⟨_, if_neg hbefore, fun index hindex => ?_⟩
        split at hindex
        · cases hindex
        · obtain rfl := Option.some.inj hindex
          exact hearlier _ (Nat.min_le_left _ _)

theorem exists_caughtUp_ok (hlib : Total library)
    (hvalid : validateSchedule library policy now schedule = .ok ()) (hstart : Far start)
    {catchUp : MandateCatchUpPolicy} {startedAt now : Int} (hstarted : Far startedAt)
    (hnow : Far now) (h : Occurs library start schedule index) (scheduledFor : Instant) :
    ∃ found, caughtUp library schedule catchUp maxOccurrences start startedAt now index
      scheduledFor = .ok found := by
  have hzero := occurs_zero hlib hvalid hstart h
  unfold caughtUp
  cases catchUp with
  | skipMissed =>
    by_cases hmissed : scheduledFor < startedAt
    · obtain ⟨found, hfound, hoccurs⟩ : ∃ found, firstOccurrenceIndexAtOrAfter library start
          startedAt maxOccurrences schedule = .ok found ∧
          ∀ index, found = some index → Occurs library start schedule index :=
        exists_firstOccurrence_ok hlib hvalid hstart hstarted hzero
      simp only [if_pos hmissed, hfound, bind, Except.bind]
      cases found with
      | none => exact ⟨none, rfl⟩
      | some index' =>
        obtain ⟨instant, hinstant⟩ := hoccurs index' rfl
        exact ⟨some (index', instant), by simp only [hinstant]; rfl⟩
    · exact ⟨_, if_neg hmissed⟩
  | coalesceMissed =>
    by_cases hmissed : scheduledFor < startedAt ∧ scheduledFor ≤ now
    · obtain ⟨found, hfound, hoccurs⟩ : ∃ found, latestOccurrenceIndexAtOrBefore library start
          now maxOccurrences schedule = .ok found ∧
          ∀ index, found = some index → Occurs library start schedule index :=
        exists_latestOccurrence_ok hlib hvalid hstart hnow hzero
      simp only [if_pos hmissed, hfound, bind, Except.bind]
      cases found with
      | none => exact ⟨some (index, scheduledFor), rfl⟩
      | some latest =>
        obtain ⟨instant, hinstant⟩ := hoccurs latest rfl
        by_cases hle : index ≤ latest
        · exact ⟨some (latest, instant), by simp only [if_pos hle, hinstant]; rfl⟩
        · exact ⟨some (index, scheduledFor), by simp only [if_neg hle]; rfl⟩
    · exact ⟨_, if_neg hmissed⟩

theorem occurs_caughtUp {catchUp : MandateCatchUpPolicy} {startedAt now : Instant}
    {scheduledFor : Instant} (h : occurrenceAtIndex library start index schedule = .ok scheduledFor)
    {index' : Nat} {instant : Instant}
    (hcaught : caughtUp library schedule catchUp maxOccurrences start startedAt now index
      scheduledFor = .ok (some (index', instant))) :
    occurrenceAtIndex library start index' schedule = .ok instant := by
  have hsame : (.ok (some (index, scheduledFor)) : VerletResult _) = .ok (some (index', instant)) →
      occurrenceAtIndex library start index' schedule = .ok instant := by
    intro heq
    cases heq
    exact h
  unfold caughtUp at hcaught
  split at hcaught
  · split at hcaught
    · obtain ⟨found, -, hrest⟩ := bind_ok.mp hcaught
      cases found with
      | none => cases hrest
      | some latest =>
        obtain ⟨instant', hinstant, heq⟩ := bind_ok.mp hrest
        cases heq
        exact hinstant
    · exact hsame hcaught
  · split at hcaught
    · obtain ⟨found, -, hrest⟩ := bind_ok.mp hcaught
      cases found with
      | none => exact hsame hrest
      | some latest =>
        simp only at hrest
        split at hrest
        · obtain ⟨instant', hinstant, heq⟩ := bind_ok.mp hrest
          cases heq
          exact hinstant
        · exact hsame hrest
    · exact hsame hcaught

end

/-! ### The next tick -/

section
variable {coordinates : ThreadCoordinates} {mandate : ActiveMandate} {fired : Fired}
  {schedule : MandateSchedulePayload} {startedAt now : Int}

/-- **The next tick is computed** when the mandate is exhausted or its next occurrence exists. -/
theorem exists_nextTick_ok (hlib : Total library) {policy : MandateCatchUpPolicy} {past : Instant}
    (hschedule : mandate.payload.schedule = some schedule)
    (hvalid : validateSchedule library policy past schedule = .ok ())
    (hcreated : Far (mandate.event.createdAtMs * 1000000)) (hstarted : Far startedAt)
    (hnow : Far now) :
    (∃ tick, nextTickForMandate library coordinates mandate fired startedAt now = .ok tick) ↔
      exhausted mandate.payload.maxOccurrences (nextIndex fired mandate.event.id) = true ∨
      Occurs library (mandate.event.createdAtMs * 1000000) schedule
        (nextIndex fired mandate.event.id) := by
  have hstart : datetimeFromMillis mandate.event.createdAtMs =
      .ok (mandate.event.createdAtMs * 1000000) :=
    datetimeFromMillis_ok.mpr ⟨hcreated.inRange.1, hcreated.inRange.2, rfl⟩
  simp only [nextTickForMandate, hschedule, hstart, bind, Except.bind]
  by_cases hex : exhausted mandate.payload.maxOccurrences (nextIndex fired mandate.event.id) = true
  · exact ⟨fun _ => .inl hex, fun _ => ⟨none, if_pos hex⟩⟩
  · simp only [hex, Bool.false_eq_true, false_or]
    constructor
    · rintro ⟨tick, h⟩
      obtain ⟨instant, hinstant, -⟩ := bind_ok.mp h
      exact ⟨instant, hinstant⟩
    · intro hoccurs
      obtain ⟨instant, hinstant⟩ := hoccurs
      obtain ⟨found, hfound⟩ := exists_caughtUp_ok hlib hvalid hcreated hstarted hnow
        ⟨instant, hinstant⟩ instant
      simp only [hinstant]
      rw [hfound]
      cases found with
      | none => exact ⟨none, rfl⟩
      | some found =>
        by_cases hskip : exhausted mandate.payload.maxOccurrences found.1 = true ∨
            (mandate.event.id, found.1) ∈ fired
        · exact ⟨none, if_pos hskip⟩
        · exact ⟨_, if_neg hskip⟩

/-- **A tick is at an occurrence of its schedule.** -/
theorem occurs_of_nextTick {tick : ScheduledTick}
    (h : nextTickForMandate library coordinates mandate fired startedAt now = .ok (some tick)) :
    ∃ schedule, mandate.payload.schedule = some schedule ∧
      occurrenceAtIndex library (mandate.event.createdAtMs * 1000000) tick.occurrenceIndex schedule =
        .ok tick.scheduledFor := by
  unfold nextTickForMandate at h
  split at h
  · cases h
  · rename_i schedule hschedule
    refine ⟨schedule, hschedule, ?_⟩
    obtain ⟨start, hstart, hrest⟩ := bind_ok.mp h
    obtain ⟨-, -, rfl⟩ := datetimeFromMillis_ok.mp hstart
    simp only at hrest
    split at hrest
    · cases hrest
    · obtain ⟨scheduledFor, hscheduled, hrest⟩ := bind_ok.mp hrest
      obtain ⟨found, hcaught, hrest⟩ := bind_ok.mp hrest
      cases found with
      | none => cases hrest
      | some found =>
        have hat := occurs_caughtUp hscheduled hcaught
        simp only at hrest
        split at hrest
        · cases hrest
        · cases hrest
          exact hat

end

/-! ### Fired occurrences -/

theorem nextIndex_of_none {fired : Fired} {id : EventRecordId} (h : ∀ index, (id, index) ∉ fired) :
    nextIndex fired id = 0 := by
  have hnone : (fired.filter fun f => f.1 = id) = [] := by
    refine List.filter_eq_nil_iff.mpr fun f hf => ?_
    rw [decide_eq_true_eq]
    rintro rfl
    exact h f.2 hf
  simp [nextIndex, hnone]

theorem nextIndex_of_some {fired : Fired} {id : EventRecordId} (h : (id, index) ∈ fired) :
    ∃ last, (id, last) ∈ fired ∧ nextIndex fired id = (last + 1) % 2 ^ 64 := by
  have hmem : index ∈ (fired.filter fun f => f.1 = id).map (·.2) :=
    List.mem_map.mpr ⟨(id, index), List.mem_filter.mpr ⟨h, decide_eq_true rfl⟩, rfl⟩
  cases hmax : ((fired.filter fun f => f.1 = id).map (·.2)).max? with
  | none =>
    rw [List.max?_eq_none_iff.mp hmax] at hmem
    cases hmem
  | some last =>
    obtain ⟨⟨id', last'⟩, hlast, rfl⟩ := List.mem_map.mp (List.max?_mem hmax)
    obtain ⟨hfired, hid⟩ := List.mem_filter.mp hlast
    obtain rfl := of_decide_eq_true hid
    exact ⟨last', hfired, by rw [nextIndex, hmax]⟩

end Verlet.Daemon
