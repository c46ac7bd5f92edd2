import Verlet.Kernel.MandateLifecycle

/-!
# Daemon — The clock route

`VerletDaemonClockRoute`: on every poll the route builds one schedule of all active mandates of all
threads, the next tick of each.  The occurrences of a schedule are numbered from 0; the ones that
fired are read back from the control stream, and the next is the one after the last.

A loop over the occurrences of a cron schedule ends at an instant that the occurrences pass.  Where
they are after the start and increase it takes no more rounds than there are nanoseconds between,
which is its fuel here; out of fuel the loop `diverged`, an error that no loop of the source gives.
-/

namespace Verlet.Daemon
open Support Kernel History
open History.Sqlite (Db Codec)
open RemoteStore (VerletError VerletResult)

/-! ### Instants -/

/-- `DateTime::<Utc>::MIN_UTC`. -/
def minUtc : Int := -8334601228800 * 1000000000

/-- `DateTime::<Utc>::MAX_UTC`. -/
def maxUtc : Int := 8210266876799 * 1000000000 + 999999999

/-- `chrono` can hold the instant. -/
def inRange (instant : Instant) : Bool := minUtc ≤ instant ∧ instant ≤ maxUtc

/-- `checked_add_signed`, of milliseconds. -/
def checkedAddMs (start : Instant) (ms : Int) : Option Instant :=
  if inRange (start + ms * 1000000) then some (start + ms * 1000000) else none

def numMilliseconds (duration : Int) : Int := duration.tdiv 1000000

def datetimeFromMillis (value : Int) : VerletResult Instant :=
  if inRange (value * 1000000) then .ok (value * 1000000)
  else .error (.runtimeExecution ("invalid mandate event timestamp " ++ toString value))

variable (library : ScheduleLibrary)

def parseUtc (value : String) : VerletResult Instant :=
  Prod.fst <$> orExecution "invalid RFC3339 instant: " (library.parseFromRfc3339 value)

/-- `ok_or_else(|| VerletError::RuntimeExecution(..))`. -/
def orFails {α : Type} (text : String) : Option α → VerletResult α
  | some a => .ok a
  | none   => .error (.runtimeExecution text)

/-! ### Occurrences -/

/-- `u64`. -/
def fitsU64 (n : Nat) : Option Nat := if n < 2 ^ 64 then some n else none

/-- `i64::try_from`. -/
def fitsI64 (n : Nat) : Option Nat := if n < 2 ^ 63 then some n else none

def rejectZeroInterval (everyMs : Nat) : VerletResult Nat :=
  if everyMs = 0 then
    .error (.runtimeExecution "interval schedule every_ms must be greater than zero")
  else .ok everyMs

def cronSchedule (expr tz : String) : VerletResult Unit := do
  orExecution "malformed cron expression: " (library.parseCron expr)
  orExecution ("unknown IANA timezone " ++ debugText tz ++ ": ") (library.parseTimezone tz)

def occurrenceAtIndex (start : Instant) (index : Nat) :
    MandateSchedulePayload → VerletResult Instant
  | .interval everyMs => do
    let multiplier ← orFails "interval occurrence index overflowed" (fitsU64 (index + 1))
    let everyMs ← rejectZeroInterval everyMs
    let offsetMs ← orFails "interval occurrence offset overflowed" (fitsU64 (everyMs * multiplier))
    let offsetMs ← orFails "interval occurrence offset overflowed" (fitsI64 offsetMs)
    orFails "interval occurrence timestamp overflowed" (checkedAddMs start offsetMs)
  | .at when =>
    if 0 < index then .error (.runtimeExecution "at schedule has only one occurrence")
    else parseUtc library when
  | .cron expr tz => do
    cronSchedule library expr tz
    orFails "cron schedule did not produce an occurrence" (library.iterAfter expr tz start index)

/-- The index is past the last that the mandate allows. -/
def exhausted (maxOccurrences : Option Nat) (index : Nat) : Bool :=
  maxOccurrences.any fun max => max ≤ index

/-- A loop of the source that would not end. -/
def diverged : VerletError := .history (.store .diverged)

/-- The loop of `first_occurrence_index_at_or_after` over a cron schedule. -/
def firstCron (occurrence : Nat → Option Instant) (threshold : Instant) (maxOccurrences : Option Nat) :
    Nat → Nat → VerletResult (Option Nat)
  | 0,        _     => .error diverged
  | fuel + 1, index =>
    match occurrence index with
    | none => .ok none
    | some instant =>
      if exhausted maxOccurrences index then .ok none
      else if threshold ≤ instant then .ok (some index)
      else firstCron occurrence threshold maxOccurrences fuel (index + 1)

def firstOccurrenceIndexAtOrAfter (start threshold : Instant)
    (maxOccurrences : Option Nat) : MandateSchedulePayload → VerletResult (Option Nat)
  | .interval everyMs => do
    let everyMs ← rejectZeroInterval everyMs
    let everyMsI64 ← orFails "interval duration overflowed" (fitsI64 everyMs)
    let first ← orFails "interval occurrence timestamp overflowed" (checkedAddMs start everyMsI64)
    if threshold ≤ first then return some 0
    else
      let index := ((numMilliseconds (threshold - first)).toNat + everyMs - 1) / everyMs
      return if exhausted maxOccurrences index then none else some index
  | .at when => do
    let when ← parseUtc library when
    return if threshold ≤ when ∧ ¬ exhausted maxOccurrences 0 then some 0 else none
  | .cron expr tz => do
    cronSchedule library expr tz
    firstCron (library.iterAfter expr tz start) threshold maxOccurrences
      ((threshold - start).toNat + 1) 0

/-- The loop of `latest_occurrence_index_at_or_before` over a cron schedule. -/
def latestCron (occurrence : Nat → Option Instant) (threshold : Instant)
    (maxOccurrences : Option Nat) : Nat → Nat → Option Nat → VerletResult (Option Nat)
  | 0,        _,     _      => .error diverged
  | fuel + 1, index, latest =>
    match occurrence index with
    | none => .ok latest
    | some instant =>
      if exhausted maxOccurrences index ∨ threshold < instant then .ok latest
      else latestCron occurrence threshold maxOccurrences fuel (index + 1) (some index)

def latestOccurrenceIndexAtOrBefore (start threshold : Instant)
    (maxOccurrences : Option Nat) : MandateSchedulePayload → VerletResult (Option Nat)
  | .interval everyMs => do
    let everyMs ← rejectZeroInterval everyMs
    let everyMsI64 ← orFails "interval duration overflowed" (fitsI64 everyMs)
    let first ← orFails "interval occurrence timestamp overflowed" (checkedAddMs start everyMsI64)
    if threshold < first then return none
    else
      let index := (numMilliseconds (threshold - first)).toNat / everyMs
      match maxOccurrences with
      | none     => return some index
      | some max => return if max = 0 then none else some (min index (max - 1))
  | .at when => do
    let when ← parseUtc library when
    return if when ≤ threshold ∧ ¬ exhausted maxOccurrences 0 then some 0 else none
  | .cron expr tz => do
    cronSchedule library expr tz
    latestCron (library.iterAfter expr tz start) threshold maxOccurrences
      ((threshold - start).toNat + 1) 0 none

/-! ### Ticks -/

structure ScheduledTick where
  coordinates : ThreadCoordinates
  mandateEventId : EventRecordId
  scheduledFor : Instant
  occurrenceIndex : Nat
  catchUp : Bool
deriving DecidableEq

/-- The occurrences that fired: a mandate's start event, and an index. -/
abbrev Fired := List (EventRecordId × Nat)

/-- The occurrence after the last that fired, in a `u64`: a release build wraps to the first one. -/
def nextIndex (fired : Fired) (mandateEventId : EventRecordId) : Nat :=
  match ((fired.filter fun f => f.1 = mandateEventId).map (·.2)).max? with
  | some index => (index + 1) % 2 ^ 64
  | none       => 0

/-- The occurrence that catching up makes of the next one; `none` if none is left. -/
def caughtUp (schedule : MandateSchedulePayload)
    (policy : MandateCatchUpPolicy) (maxOccurrences : Option Nat) (start routeStartedAt now : Instant)
    (index : Nat) (scheduledFor : Instant) : VerletResult (Option (Nat × Instant)) :=
  match policy with
  | .skipMissed =>
    if scheduledFor < routeStartedAt then do
      match ← firstOccurrenceIndexAtOrAfter library start routeStartedAt maxOccurrences schedule with
      | none => return none
      | some index =>
        let scheduledFor ← occurrenceAtIndex library start index schedule
        return some (index, scheduledFor)
    else .ok (some (index, scheduledFor))
  | .coalesceMissed =>
    if scheduledFor < routeStartedAt ∧ scheduledFor ≤ now then do
      match ← latestOccurrenceIndexAtOrBefore library start now maxOccurrences schedule with
      | some latest =>
        if index ≤ latest then
          let scheduledFor ← occurrenceAtIndex library start latest schedule
          return some (latest, scheduledFor)
        else return some (index, scheduledFor)
      | none => return some (index, scheduledFor)
    else .ok (some (index, scheduledFor))

def nextTickForMandate (coordinates : ThreadCoordinates)
    (mandate : ActiveMandate) (fired : Fired) (routeStartedAt now : Instant) :
    VerletResult (Option ScheduledTick) :=
  match mandate.payload.schedule with
  | none => .ok none
  | some schedule => do
    let policy := MandateCatchUpPolicy.orDefault mandate.payload.catchUp
    let maxOccurrences := mandate.payload.maxOccurrences
    let start ← datetimeFromMillis mandate.event.createdAtMs
    let index := nextIndex fired mandate.event.id
    if exhausted maxOccurrences index then return none
    else
      let scheduledFor ← occurrenceAtIndex library start index schedule
      match ← caughtUp library schedule policy maxOccurrences start routeStartedAt now index
          scheduledFor with
      | none => return none
      | some (index, scheduledFor) =>
        if exhausted maxOccurrences index ∨ (mandate.event.id, index) ∈ fired then return none
        else return some ⟨coordinates, mandate.event.id, scheduledFor, index,
          policy = .coalesceMissed ∧ scheduledFor < routeStartedAt⟩

/-! ### The schedule -/

/-- `stream_id LIKE 'control:%'`, which does not tell the cases of ASCII letters apart. -/
def likeControl (streamId : EventStreamId) : Bool :=
  (streamId.text.toList.take 8).map Char.toLower = "control:".toList

/-- The columns of a row, one after the other. -/
def columnsBefore : List String → List String → Bool
  | a :: as, b :: bs => Json.textBefore a.toList b.toList ∨ (a = b ∧ columnsBefore as bs)
  | _,       _       => true

/-- `ORDER BY tenant_id, user_id, session_id, thread_id`. -/
def coordinatesBefore (c c' : ThreadCoordinates) : Bool :=
  columnsBefore [c.tenantId, c.userId, c.sessionId, c.threadId.uuid.text]
    [c'.tenantId, c'.userId, c'.sessionId, c'.threadId.uuid.text]

variable {Text : Type}

def listControlStreamCoordinates (db : Db Text) : List ThreadCoordinates :=
  let rows := db.eventRecords.filter fun row => likeControl row.streamId
  (rows.map (·.coordinates)).dedup.insertionSort fun c c' => coordinatesBefore c c'

/-- `TimerFiredPayload`, as the column is read. -/
structure TimerFiredPayload where
  mandateEventId : EventRecordId
  scheduledFor : String
  occurrenceIndex : Nat
  catchUp : Bool
deriving DecidableEq

/-- `list_fired_timer_occurrences`; `readTimer` is `serde_json` at the payload. -/
def listFiredTimerOccurrences (codec : Codec Text) (readTimer : Json → Option TimerFiredPayload)
    (db : Db Text) (streamId : EventStreamId) : HistoryResult Fired :=
  let rows := db.eventRecords.filter fun row =>
    row.streamId = streamId ∧ row.kind = EventKind.timerFired.asRef
  (rows.insertionSort fun row row' => row.sequence ≤ row'.sequence).mapM fun row =>
    match (codec.decodeValue row.payloadJson).bind readTimer with
    | some payload => .ok (payload.mandateEventId, payload.occurrenceIndex)
    | none         => .error (.codec (.unreadable "payload_json"))

structure ClockRoute (Text : Type) where
  codec : Codec Text
  control : ControlCodec
  readTimer : Json → Option TimerFiredPayload
  library : ScheduleLibrary
  startedAt : Instant

/-- `read_events` of the store, from the start of a stream. -/
def ClockRoute.read (route : ClockRoute Text) (db : Db Text) : Reader := fun streamId =>
  Sqlite.readEvents route.codec db streamId none

def ClockRoute.threadTicks (route : ClockRoute Text) (db : Db Text) (now : Instant)
    (coordinates : ThreadCoordinates) : VerletResult (List ScheduledTick) := do
  let active ← listActiveMandates route.control (route.read db) coordinates
  let fired ← orHistory (listFiredTimerOccurrences route.codec route.readTimer db
    (controlStreamId coordinates))
  let ticks ← active.mapM fun mandate =>
    nextTickForMandate route.library coordinates mandate fired route.startedAt now
  return ticks.filterMap id

/-- `Ord` of a tick: what the heap gives first. -/
def ScheduledTick.before (t t' : ScheduledTick) : Bool :=
  t.scheduledFor < t'.scheduledFor ∨ (t.scheduledFor = t'.scheduledFor ∧
    (t.occurrenceIndex < t'.occurrenceIndex ∨ (t.occurrenceIndex = t'.occurrenceIndex ∧
      ¬ Json.textBefore t'.mandateEventId.uuid.text.toList t.mandateEventId.uuid.text.toList)))

/-- `build_due_schedule`: the heap, in the order it gives its ticks. -/
def ClockRoute.buildDueSchedule (route : ClockRoute Text) (db : Db Text) (now : Instant) :
    VerletResult (List ScheduledTick) := do
  let ticks ← (listControlStreamCoordinates db).mapM (route.threadTicks db now)
  return ticks.flatten.insertionSort fun t t' => t.before t'

end Verlet.Daemon
