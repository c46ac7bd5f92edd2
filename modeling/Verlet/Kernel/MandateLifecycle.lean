import Verlet.Kernel.ControlDecision
import Verlet.Kernel.EventStore

/-!
# Kernel — The mandate lifecycle

`mandate_lifecycle`: a mandate is started and revoked by witnessed facts of the thread's control
stream, and is active while the stream has the one and not the other.  Instants are nanoseconds
since the epoch, as `chrono` holds them; `croner`, `chrono-tz` and `chrono`'s parser are a
`ScheduleLibrary`.
-/

namespace Verlet.Kernel
open Support History
open RemoteStore (VerletError VerletResult)

/-- `chrono::DateTime<Utc>`, in nanoseconds since the epoch. -/
abbrev Instant := Int

def timestampMillis (instant : Instant) : Int := instant / 1000000

/-- What the schedules use of `croner`, `chrono-tz` and `chrono`; a failure is its text. -/
structure ScheduleLibrary where
  /-- `croner::Cron::from_str`. -/
  parseCron : String → Except String Unit
  /-- `tz.parse::<chrono_tz::Tz>()`. -/
  parseTimezone : String → Except String Unit
  /-- `find_next_occurrence`, of an expression in a timezone, strictly after an instant. -/
  findNextOccurrence : String → String → Instant → Except String Instant
  /-- `iter_after(start).nth(index)`. -/
  iterAfter : String → String → Instant → Nat → Option Instant
  /-- `DateTime::parse_from_rfc3339`: the instant, and the offset from UTC in seconds. -/
  parseFromRfc3339 : String → Except String (Instant × Int)

/-- `{:?}` of a text: in quotes, with quotes, backslashes and line breaks escaped. -/
def debugText (text : String) : String :=
  let backslash := Char.ofNat 92
  let escape (c : Char) : List Char :=
    if c.toNat = 34 ∨ c.toNat = 92 then [backslash, c]
    else if c.toNat = 10 then [backslash, 'n']
    else if c.toNat = 13 then [backslash, 'r']
    else if c.toNat = 9 then [backslash, 't']
    else [c]
  String.ofList (Char.ofNat 34 :: text.toList.flatMap escape ++ [Char.ofNat 34])

/-- `VerletError::RuntimeExecution(format!(..))` on a failure. -/
def orExecution {α : Type} (text : String) : Except String α → VerletResult α
  | .ok a      => .ok a
  | .error err => .error (.runtimeExecution (text ++ err))

/-! ### Starting -/

def minMandateIntervalMs : Nat := 60000

def scheduleSnapshotId : String := "schedule.v1"

structure MandateStartRequest where
  schedule : MandateSchedulePayload
  maxOccurrences : Option Nat
  catchUp : Option MandateCatchUpPolicy
  inputTemplate : Option String
  snapshotId : Option String
  expiresAt : Option String

def validateSchedule (library : ScheduleLibrary) (catchUp : MandateCatchUpPolicy) (now : Instant) :
    MandateSchedulePayload → VerletResult Unit
  | .cron expr tz => do
    orExecution "malformed cron expression: " (library.parseCron expr)
    orExecution ("unknown IANA timezone " ++ debugText tz ++ ": ") (library.parseTimezone tz)
    let first ← orExecution "cron expression could not produce an occurrence: "
      (library.findNextOccurrence expr tz now)
    let second ← orExecution "cron expression could not produce a second occurrence: "
      (library.findNextOccurrence expr tz first)
    require (minMandateIntervalMs ≤ (second - first).tdiv 1000000)
      (.runtimeExecution ("cron schedules must have a minimum interval of 60000ms"))
  | .interval everyMs =>
    require (minMandateIntervalMs ≤ everyMs)
      (.runtimeExecution "interval schedules must be at least 60000ms")
  | .at when => do
    let (instant, _) ← orExecution "at schedule requires RFC3339 when: "
      (library.parseFromRfc3339 when)
    require (now ≤ instant ∨ catchUp = .coalesceMissed)
      (.runtimeExecution ("at schedule is in the past; use catch_up = coalesce_missed to witness " ++
        "a missed occurrence"))

def mandateExpiryMs (library : ScheduleLibrary) (now : Instant) :
    Option String → VerletResult (Option Int)
  | none => .ok none
  | some expiresAt => do
    let (parsed, offset) ← orExecution ("mandate expiry " ++ debugText expiresAt ++
      " must be an RFC3339 UTC instant: ") (library.parseFromRfc3339 expiresAt)
    require (offset = 0) (.runtimeExecution ("mandate expiry " ++ debugText expiresAt ++
      " must be an RFC3339 UTC instant"))
    require (now ≤ parsed) (.runtimeExecution ("mandate expiry " ++ expiresAt ++
      " is already expired"))
    return some (timestampMillis parsed)

/-- `unwrap_or_default` of the policy. -/
def MandateCatchUpPolicy.orDefault (catchUp : Option MandateCatchUpPolicy) : MandateCatchUpPolicy :=
  catchUp.getD .skipMissed

def validateMandateStartRequest (library : ScheduleLibrary) (request : MandateStartRequest)
    (now : Instant) : VerletResult Unit := do
  validateSchedule library (.orDefault request.catchUp) now request.schedule
  discard (mandateExpiryMs library now request.expiresAt)

/-- `char::is_whitespace`. -/
def isWhitespace (c : Char) : Bool :=
  let n := c.toNat
  (9 ≤ n ∧ n ≤ 13) ∨ n = 0x20 ∨ n = 0x85 ∨ n = 0xA0 ∨ n = 0x1680 ∨ (0x2000 ≤ n ∧ n ≤ 0x200A) ∨
    n = 0x2028 ∨ n = 0x2029 ∨ n = 0x202F ∨ n = 0x205F ∨ n = 0x3000

def startedPayload (coordinates : ThreadCoordinates) (mandateUuid : Uuid)
    (request : MandateStartRequest) (expiresAtMs : Option Int) : MandateStartedPayload where
  subject := ⟨some coordinates.threadId.uuid.text, none⟩
  mandateId := "mandate-" ++ mandateUuid.text
  snapshotId := (request.snapshotId.filter fun id => ¬ id.toList.all isWhitespace).getD
    scheduleSnapshotId
  threadId := some coordinates.threadId.uuid.text
  maxContinuations := none
  expiresAtMs := expiresAtMs
  schedule := some request.schedule
  maxOccurrences := request.maxOccurrences
  catchUp := some (.orDefault request.catchUp)
  inputTemplate := request.inputTemplate

variable {σ : Type}

/-- `append_events`, at the kernel. -/
def appendTo (store : EventStore σ) (streamId : EventStreamId) (records : List NewEventRecord) :
    Fallible VerletError σ (List EventRecord) := fun s =>
  ((orHistory (store.appendEvents streamId records s).1), (store.appendEvents streamId records s).2)

/-- `appended.pop().ok_or_else(..)`. -/
def lastOr (text : String) (appended : List EventRecord) : VerletResult EventRecord :=
  match appended.getLast? with
  | some event => .ok event
  | none       => .error (historyText text)

/-! ### Listing -/

structure ActiveMandate where
  event : EventRecord
  payload : MandateStartedPayload

variable (codec : ControlCodec)

def decodeStarted (event : EventRecord) : VerletResult MandateStartedPayload :=
  decodeOr codec.mandateStarted event "mandate.started payload is invalid: "

def decodeRevoked (event : EventRecord) : VerletResult MandateRevokedPayload :=
  decodeOr codec.mandateRevoked event "mandate.revoked payload is invalid: "

def mandateTargetsThread (payload : MandateStartedPayload) (coordinates : ThreadCoordinates) : Bool :=
  startedTargetsThread payload coordinates

def revokedTargetsThread (payload : MandateRevokedPayload) (coordinates : ThreadCoordinates) : Bool :=
  match payload.subject.threadId with
  | some threadId => threadId = coordinates.threadId.uuid.text
  | none          => true

/-- What the loop of `active_mandates_from_events` has gathered. -/
structure MandateFold where
  started : Map EventRecordId ActiveMandate
  revokedEventIds : List String
  revokedMandateIds : List String

def MandateFold.empty : MandateFold := ⟨∅, [], []⟩

/-- One event of the loop. -/
def MandateFold.take (coordinates : ThreadCoordinates) (fold : MandateFold)
    (event : EventRecord) : VerletResult MandateFold :=
  match event.kind with
  | .mandateStarted => do
    let payload ← decodeStarted codec event
    if mandateTargetsThread payload coordinates then
      return { fold with started := fold.started.insert event.id ⟨event, payload⟩ }
    else return fold
  | .mandateRevoked => do
    let payload ← decodeRevoked codec event
    if revokedTargetsThread payload coordinates then
      return { fold with
        revokedEventIds := payload.mandateEventId.toList ++ fold.revokedEventIds
        revokedMandateIds := payload.mandateId :: fold.revokedMandateIds }
    else return fold
  | _ => return fold

/-- The mandates that were started and not revoked. -/
def MandateFold.active (fold : MandateFold) : List ActiveMandate :=
  (fold.started.entries.map (·.2)).filter fun mandate =>
    ¬ (mandate.event.id.uuid.text ∈ fold.revokedEventIds ∨
      mandate.payload.mandateId ∈ fold.revokedMandateIds)

/-- By sequence, then by the text of the id: the map's order, sorted by sequence. -/
def ActiveMandate.before (m m' : ActiveMandate) : Bool :=
  m.event.sequence < m'.event.sequence ∨ (m.event.sequence = m'.event.sequence ∧
    ¬ Json.textBefore m'.event.id.uuid.text.toList m.event.id.uuid.text.toList)

def activeMandatesFromEvents (coordinates : ThreadCoordinates)
    (events : List EventRecord) : VerletResult (List ActiveMandate) := do
  let fold ← events.foldlM (MandateFold.take codec coordinates) .empty
  return fold.active.insertionSort fun m m' => m.before m'

def listActiveMandates (read : Reader) (coordinates : ThreadCoordinates) :
    VerletResult (List ActiveMandate) := do
  let events ← orHistory (read (controlStreamId coordinates))
  activeMandatesFromEvents codec coordinates events

/-! ### Revoking -/

inductive MandateRevokeStatus where
  | revoked
  | alreadyRevoked
deriving DecidableEq

structure MandateRevokeReceipt where
  status : MandateRevokeStatus
  startEvent : EventRecord
  revokeEvent : EventRecord
  payload : MandateRevokedPayload

def mandateStartEvent (codec : ControlCodec) (coordinates : ThreadCoordinates)
    (mandateEventId : EventRecordId) : List EventRecord → VerletResult (Option ActiveMandate)
  | []              => .ok none
  | event :: events =>
    if event.id ≠ mandateEventId ∨ event.kind ≠ .mandateStarted then
      mandateStartEvent codec coordinates mandateEventId events
    else do
      let payload ← decodeStarted codec event
      if mandateTargetsThread payload coordinates then return some ⟨event, payload⟩
      else mandateStartEvent codec coordinates mandateEventId events

def revokesMandate (mandateEventId : EventRecordId) (started : MandateStartedPayload)
    (payload : MandateRevokedPayload) : Bool :=
  payload.mandateEventId = some mandateEventId.uuid.text ∨ payload.mandateId = started.mandateId

def mandateRevokedEvent (codec : ControlCodec) (mandateEventId : EventRecordId)
    (started : MandateStartedPayload) :
    List EventRecord → VerletResult (Option (EventRecord × MandateRevokedPayload))
  | []              => .ok none
  | event :: events =>
    if event.kind ≠ .mandateRevoked then mandateRevokedEvent codec mandateEventId started events
    else do
      let payload ← decodeRevoked codec event
      if revokesMandate mandateEventId started payload then return some (event, payload)
      else mandateRevokedEvent codec mandateEventId started events

def revokedPayload (mandateEventId : EventRecordId) (started : MandateStartedPayload) :
    MandateRevokedPayload :=
  ⟨started.subject, started.mandateId, some mandateEventId.uuid.text, started.snapshotId, none⟩

def revokeMandate (store : EventStore σ) (draw : Draw)
    (coordinates : ThreadCoordinates) (mandateEventId : EventRecordId) :
    Fallible VerletError σ MandateRevokeReceipt := do
  let events ← reading fun s => orHistory (store.readEvents (controlStreamId coordinates) s)
  match ← reading fun _ => mandateStartEvent codec coordinates mandateEventId events with
  | none => throw (.runtimeExecution ("mandate event " ++ mandateEventId.uuid.text ++
      " is not active for thread " ++ coordinates.threadId.uuid.text))
  | some start =>
    match ← reading fun _ => mandateRevokedEvent codec mandateEventId start.payload events with
    | some (revokeEvent, payload) =>
      return ⟨.alreadyRevoked, start.event, revokeEvent, payload⟩
    | none =>
      let payload := revokedPayload mandateEventId start.payload
      let appended ← appendTo store (controlStreamId coordinates)
        [.witnessed draw coordinates .mandateRevoked (codec.mandateRevoked.toValue payload)]
      let revokeEvent ← reading fun _ => lastOr "mandate.revoke appended no event" appended
      return ⟨.revoked, start.event, revokeEvent, payload⟩

end Verlet.Kernel
