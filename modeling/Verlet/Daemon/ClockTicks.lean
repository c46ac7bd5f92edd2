import Verlet.Daemon.ClockRoute.Schedule
import Verlet.Daemon.Ingress.Bridge

/-!
# Daemon — Clock ticks

`submit_clock_tick_envelope`: a tick that the queue delivers becomes a `timer.fired` on the control
stream of its thread, unless its mandate is no longer active or its occurrence has fired.  The two
reads and the append are store operations of their own, and the append names no sequence: whatever
went into the stream after the second read is not looked at.

* `Ticking.timer_fires_once`: an occurrence fires once in every run in which no append follows
  another of its occurrence that came after the call's own read.
-/

namespace Verlet.Daemon
open Support Kernel Io History
open RemoteStore (VerletResult)

/-! ### The tick of an envelope -/

/-- `verlet_bridge_error`. -/
def orKernel {α : Type} : VerletResult α → IoResult α
  | .ok a        => .ok a
  | .error error => .error (.ofKernel error)

theorem orKernel_ok {α : Type} {x : VerletResult α} {a : α} : orKernel x = .ok a ↔ x = .ok a := by
  cases x <;> simp [orKernel]

/-- An error that is the text of an `InvalidEnvelope`. -/
def orInvalid {α : Type} : Except String α → IoResult α
  | .ok a       => .ok a
  | .error text => .error (.invalidEnvelope text)

/-- An error whose text follows one of this program. -/
def orText {α : Type} (text : String) : Except String α → IoResult α
  | .ok a      => .ok a
  | .error err => .error (.bridgeText (text ++ err))

/-- `str::parse::<u64>`, a digit at a time. -/
def parseU64 (text : String) : Except String Nat :=
  let digits := match text.toList with
    | '+' :: rest => if rest = [] then text.toList else rest
    | chars       => chars
  if digits = [] then .error "cannot parse integer from empty string"
  else
    digits.foldlM (fun value digit =>
      if ¬ digit.isDigit then .error "invalid digit found in string"
      else if value * 10 + (digit.toNat - 48) < 2 ^ 64 then .ok (value * 10 + (digit.toNat - 48))
      else .error "number too large to fit in target type") 0

/-- `str::parse::<bool>`. -/
def parseBool (text : String) : Except String Bool :=
  if text = "true" then .ok true
  else if text = "false" then .ok false
  else .error "provided string was not `true` or `false`"

/-- What a tick is read with: `serde_json` at the payloads, and the texts of `uuid`'s errors. -/
structure ClockTick where
  control : ControlCodec
  timer : Serde TimerFiredPayload
  uuidError : String → String

namespace ClockTick

variable (tick : ClockTick)

/-- `Uuid::parse_str`. -/
def parseUuid (text : String) : Except String Uuid :=
  match Uuid.parseStr text with
  | some uuid => .ok uuid
  | none      => .error (tick.uuidError text)

end ClockTick

def requiredMetadata (envelope : IngressEnvelope) (key : String) : IoResult String :=
  match envelope.metadata.get? key with
  | some value => .ok value
  | none       => .error (.bridgeText ("clock.tick missing metadata " ++ debugText key))

def clockTickCoordinates (tick : ClockTick) (envelope : IngressEnvelope) :
    IoResult ThreadCoordinates :=
  match envelope.principal with
  | none           => .error (.invalidEnvelope "principal is required")
  | some principal => do
    let sessionId ← requiredMetadata envelope "cooldis_session_id"
    let threadId ← requiredMetadata envelope "verlet_thread_id"
    let uuid ← orText "invalid clock.tick thread id: " (tick.parseUuid threadId)
    return ⟨principal.tenantId, principal.principalId, sessionId, ⟨uuid⟩⟩

def clockTickMetadata (tick : ClockTick) (envelope : IngressEnvelope) : IoResult TimerFiredPayload :=
  do
    let mandateEventId ← requiredMetadata envelope "cooldis_mandate_event_id"
    let mandateEventId ← orKernel (match tick.parseUuid mandateEventId with
      | .ok uuid   => .ok uuid
      | .error err => .error (.runtimeExecution ("mandate_event_id is not a valid event id: " ++ err)))
    let scheduledFor ← requiredMetadata envelope "cooldis_scheduled_for"
    let occurrenceIndex ← requiredMetadata envelope "verlet_occurrence_index"
    let occurrenceIndex ← orText "invalid clock.tick occurrence index: " (parseU64 occurrenceIndex)
    let catchUp ← requiredMetadata envelope "verlet_catch_up"
    let catchUp ← orText "invalid clock.tick catch_up flag: " (parseBool catchUp)
    return ⟨⟨mandateEventId⟩, scheduledFor, occurrenceIndex, catchUp⟩

def timerFiredEnvelopeKind : String := "timer.fired"

def clockTickPayload (tick : ClockTick) (envelope : IngressEnvelope) : IoResult TimerFiredPayload :=
  match envelope.content with
  | .event kind payload =>
    if kind = timerFiredEnvelopeKind then
      orText "invalid clock.tick payload: " (tick.timer.fromValue payload)
    else clockTickMetadata tick envelope
  | _ => clockTickMetadata tick envelope

/-! ### The call -/

/-- The loop over the events: the occurrence has fired. -/
def hasFired (timer : Serde TimerFiredPayload) (fires : TimerFiredPayload) :
    List EventRecord → IoResult Bool
  | []              => .ok false
  | event :: events =>
    if event.kind ≠ .timerFired then hasFired timer fires events
    else do
      let payload ← decodeIo timer "invalid timer.fired payload: " event
      if payload.mandateEventId = fires.mandateEventId ∧
          payload.occurrenceIndex = fires.occurrenceIndex then return true
      else hasFired timer fires events

/-- The `timer.fired` record. -/
def timerFiredRecord (tick : ClockTick) (coordinates : ThreadCoordinates) (fires : TimerFiredPayload)
    (draw : Draw) : NewEventRecord :=
  { NewEventRecord.witnessed draw coordinates .timerFired (tick.timer.toValue fires) with
    provenance := { EventProvenance.empty with
      sourceStreams := [controlStreamId coordinates]
      sourceEventIds := [fires.mandateEventId] } }

def clockTickTarget (coordinates : ThreadCoordinates) : ResolvedIoTarget :=
  .new ⟨coordinates.tenantId, coordinates.userId, coordinates.sessionId,
    some coordinates.threadId.uuid.text⟩

def clockTickReceipt (envelope : IngressEnvelope) (coordinates : ThreadCoordinates) :
    KernelIoReceipt :=
  { KernelIoReceipt.new envelope (clockTickTarget coordinates)
      (.observeOnly "clock tick admitted as timer.fired") with
    threadId := some coordinates.threadId.uuid.text }

/-- `submit_clock_tick_envelope`, of a daemon with a session store. -/
def submitClockTickEnvelope (tick : ClockTick) (envelope : IngressEnvelope) :
    BridgeM KernelIoReceipt := do
  let coordinates ← given (clockTickCoordinates tick envelope)
  given (orInvalid (envelope.requireAttributed (clockTickTarget coordinates)))
  let fires ← given (clockTickPayload tick envelope)
  let answer ← ask (.readEvents (controlStreamId coordinates))
  let active ← given (orKernel (listActiveMandates tick.control (fun _ => answer) coordinates))
  if ¬ active.any (fun mandate => mandate.event.id = fires.mandateEventId) then
    return clockTickReceipt envelope coordinates
  else
    let events ← readEvents (controlStreamId coordinates)
    if ← given (hasFired tick.timer fires events) then
      return clockTickReceipt envelope coordinates
    else
      let draw ← ask .draw
      let _ ← appendEvents (controlStreamId coordinates) [timerFiredRecord tick coordinates fires draw]
      return clockTickReceipt envelope coordinates

/-! ### Occurrences on a stream -/

def FiresAs (timer : Serde TimerFiredPayload) (event : EventRecord) (fires : TimerFiredPayload) :
    Prop :=
  event.kind = .timerFired ∧ ∃ payload, timer.fromValue event.payload = .ok payload ∧
    payload.mandateEventId = fires.mandateEventId ∧
    payload.occurrenceIndex = fires.occurrenceIndex

/-- No occurrence fired twice. -/
def FiresOnce (timer : Serde TimerFiredPayload) (events : List EventRecord) : Prop :=
  events.Pairwise fun event later => ∀ fires, FiresAs timer event fires → ¬ FiresAs timer later fires

variable {timer : Serde TimerFiredPayload} {events : List EventRecord}

theorem not_firesAs_of_hasFired {fires : TimerFiredPayload}
    (h : hasFired timer fires events = .ok false) :
    ∀ event ∈ events, ¬ FiresAs timer event fires := by
  induction events with
  | nil => exact List.forall_mem_nil _
  | cons first rest ih =>
    rw [hasFired] at h
    by_cases hkind : first.kind ≠ .timerFired
    · rw [if_pos hkind] at h
      exact List.forall_mem_cons.mpr ⟨fun hfires => hkind hfires.1, ih h⟩
    · rw [if_neg hkind, bind_ok] at h
      obtain ⟨payload, hpayload, h⟩ := h
      split at h
      · cases h
      · rename_i hother
        refine List.forall_mem_cons.mpr ⟨?_, ih h⟩
        rintro ⟨-, payload', hpayload', hsame⟩
        obtain rfl := Except.ok.inj ((decodeIo_ok.mp hpayload).symm.trans hpayload')
        exact hother hsame

theorem FiresOnce.snoc {event : EventRecord} (h : FiresOnce timer events)
    (hnew : ∀ earlier ∈ events, ∀ fires, FiresAs timer event fires → ¬ FiresAs timer earlier fires) :
    FiresOnce timer (events ++ [event]) := by
  refine List.pairwise_append.mpr ⟨h, List.pairwise_singleton .., ?_⟩
  intro earlier he later hlater fires hfires hfires'
  obtain rfl := List.mem_singleton.mp hlater
  exact hnew earlier he fires hfires' hfires

theorem FiresOnce.append_other {later : List EventRecord} (h : FiresOnce timer events)
    (hlater : ∀ event ∈ later, event.kind ≠ .timerFired) : FiresOnce timer (events ++ later) := by
  refine List.pairwise_append.mpr ⟨h, ?_, ?_⟩
  · exact List.pairwise_of_forall_mem_list fun event he _ _ _ hfires =>
    absurd hfires.1 (hlater event he)
  · exact fun event _ event' he fires _ hfires => hlater event' he hfires.1

/-! ### Any number of calls -/

/-- A store, and what each call has read of it so far. -/
structure ClockWorld (σ ι : Type) where
  store : σ
  reads : ι → List (List EventRecord)

/-- The calls of `submit_clock_tick_envelope`, each for its envelope, and the store they start from. -/
structure Ticking (σ ι : Type) where
  store : JournalStore σ
  tick : ClockTick
  jobs : ι → IngressEnvelope
  start : σ

namespace Ticking

variable {σ ι : Type} [DecidableEq ι] (ticking : Ticking σ ι)

/-- What a call has read, where one more read is answered. -/
def noteRead (reads : ι → List (List EventRecord)) (i : ι) :
    HistoryResult (List EventRecord) → ι → List (List EventRecord)
  | .ok found => Function.update reads i (reads i ++ [found])
  | .error _  => reads

/-- One way to serve the calls: the store does what it does, a draw is the call's own, and nothing
else is there. -/
def serve (draws : ι → Draw) (i : ι) (call : BridgeCall) (w : ClockWorld σ ι) :
    call.Reply × ClockWorld σ ι :=
  match call with
  | .readEvents streamId =>
    let found := ticking.store.readEvents streamId w.store
    (found, { w with reads := noteRead w.reads i found })
  | .appendEvents streamId records =>
    let answered := ticking.store.appendEvents streamId records w.store
    (answered.1, { w with store := answered.2 })
  | .draw => (draws i, w)
  | call  => (call.refused, w)

def serves (i : ι) (call : BridgeCall) (w : ClockWorld σ ι) (r : call.Reply) (w' : ClockWorld σ ι) :
    Prop :=
  ∃ draws, (r, w') = ticking.serve draws i call w

/-- Anything else appends events that are not `timer.fired`. -/
def others (w w' : ClockWorld σ ι) : Prop :=
  w'.reads = w.reads ∧ ∃ streamId records,
    w'.store = (ticking.store.appendEvents streamId records w.store).2 ∧
      ∀ record ∈ records, record.kind ≠ .timerFired

def starts (i : ι) (_ : ClockWorld σ ι)
    (p : Proc BridgeCall BridgeCall.Reply (IoResult KernelIoReceipt)) : Prop :=
  p = (submitClockTickEnvelope ticking.tick (ticking.jobs i)).run

/-- Where an append is taken, the occurrence of the call's tick did not fire on the stream after the
call last read it. -/
def Timely (i : ι) : (call : BridgeCall) → ClockWorld σ ι → call.Reply → Prop
  | .appendEvents streamId _, w, r => (∃ appended, r = .ok appended) →
      ∀ seen, (w.reads i).getLast? = some seen →
        ∀ fires, clockTickPayload ticking.tick (ticking.jobs i) = .ok fires →
          ∀ event ∈ (ticking.store.events w.store streamId).drop seen.length,
            ¬ FiresAs ticking.tick.timer event fires
  | _, _, _ => True

/-- The mandate of the tick is among the active ones. -/
def Active (fires : TimerFiredPayload) (coordinates : ThreadCoordinates) (events : List EventRecord) :
    Prop :=
  ∃ active, listActiveMandates ticking.tick.control (fun _ => .ok events) coordinates = .ok active ∧
    ∃ mandate ∈ active, mandate.event.id = fires.mandateEventId

/-- The append of a call: the one record of its tick, after two reads, the first of which shows the
mandate active and the second no event that fired the occurrence. -/
structure Appends (i : ι) (streamId : EventStreamId) (records : List NewEventRecord)
    (w : ClockWorld σ ι) (fires : TimerFiredPayload) (coordinates : ThreadCoordinates)
    (first second : List EventRecord) : Prop where
  coordinates_ok : clockTickCoordinates ticking.tick (ticking.jobs i) = .ok coordinates
  fires_ok : clockTickPayload ticking.tick (ticking.jobs i) = .ok fires
  streamId_eq : streamId = controlStreamId coordinates
  records_eq : ∃ draw, records = [timerFiredRecord ticking.tick coordinates fires draw]
  reads : w.reads i = [first, second]
  active : ticking.Active fires coordinates first
  unfired : ∀ event ∈ second, ¬ FiresAs ticking.tick.timer event fires
  seen : second <+: ticking.store.events w.store streamId

def asks (i : ι) : BridgeCall → ClockWorld σ ι → Prop
  | .appendEvents streamId records, w => ∃ fires coordinates first second,
      ticking.Appends i streamId records w fires coordinates first second
  | _, _ => True

/-- What the other calls and events leave alone. -/
structure Rely (i : ι) (w w' : ClockWorld σ ι) : Prop where
  grows : ∀ streamId, ticking.store.events w.store streamId <+: ticking.store.events w'.store streamId
  reads : w'.reads i = w.reads i

variable {ticking} {i : ι} {w w' : ClockWorld σ ι}

section
omit [DecidableEq ι]

theorem Rely.refl (i : ι) (w : ClockWorld σ ι) : ticking.Rely i w w :=
  ⟨fun _ => List.prefix_refl _, rfl⟩

theorem Rely.trans {w'' : ClockWorld σ ι} (h : ticking.Rely i w w') (h' : ticking.Rely i w' w'') :
    ticking.Rely i w w'' :=
  ⟨fun streamId => (h.grows streamId).trans (h'.grows streamId), h'.reads.trans h.reads⟩

end

/-! ### What a call asks -/

/-- What a call does. -/
abbrev Does {α : Type} (ticking : Ticking σ ι) (i : ι) (Q : α → ClockWorld σ ι → Prop)
    (p : BridgeM α) (w : ClockWorld σ ι) : Prop :=
  Proc.Does (ticking.Rely i) (ticking.asks i) (ticking.serves i) Q p w

theorem reads_of_serves {streamId : EventStreamId} {r : HistoryResult (List EventRecord)}
    {found : List EventRecord} (h : ticking.serves i (.readEvents streamId) w r w')
    (hr : r = .ok found) : found = ticking.store.events w.store streamId ∧
      w'.store = w.store ∧ w'.reads i = w.reads i ++ [found] := by
  obtain ⟨draws, h⟩ := h
  obtain ⟨rfl, rfl⟩ := Prod.mk.inj h
  refine ⟨ticking.store.reads hr, rfl, ?_⟩
  change noteRead w.reads i _ i = _
  rw [hr]
  exact Function.update_self ..

/-- **A call asks for an append only after two reads** that show its mandate active, and its
occurrence not fired. -/
theorem does_submitClockTickEnvelope (h : w.reads i = []) :
    ticking.Does i (fun _ _ => True) (submitClockTickEnvelope ticking.tick (ticking.jobs i)) w := by
  refine does_given fun coordinates hcoordinates => does_given fun _ _ => ?_
  refine does_given fun fires hfires => ?_
  refine does_ask fun w₁ h₁ => ⟨trivial, fun answer w₂ hserves => ?_⟩
  refine does_given fun active hactive => ?_
  cases hanswer : answer with
  | error e =>
    rw [hanswer] at hactive
    cases hactive
  | ok first =>
  obtain ⟨-, -, hreads⟩ := reads_of_serves hserves hanswer
  rw [h₁.reads, h] at hreads
  split
  · exact Proc.Does.pure fun _ _ => trivial
  · rename_i hany
    have hactive' : ticking.Active fires coordinates first := by
      rw [hanswer] at hactive
      refine ⟨active, orKernel_ok.mp hactive, ?_⟩
      simpa using hany
    refine does_ask fun w₃ h₃ => ⟨trivial, fun answer' w₄ hserves' => ?_⟩
    refine does_given fun second hsecond => ?_
    obtain ⟨rfl, hstore, hreads'⟩ := reads_of_serves hserves' (orBridge_ok.mp hsecond)
    rw [h₃.reads, hreads] at hreads'
    refine does_given fun found hfound => ?_
    cases found with
    | true => exact Proc.Does.pure fun _ _ => trivial
    | false =>
      refine does_ask fun w₅ h₅ => ⟨trivial, fun draw w₆ hserves'' => ?_⟩
      have hquiet : w₆ = w₅ := by
        obtain ⟨draws, hs⟩ := hserves''
        exact (Prod.mk.inj hs).2
      refine does_ask fun w₇ h₇ => ⟨?_, fun answer'' w₈ _ => ?_⟩
      · rw [hquiet] at h₇
        have hlater := h₅.trans h₇
        refine ⟨fires, coordinates, first, _, hcoordinates, hfires, rfl, ⟨draw, rfl⟩, ?_, hactive',
          not_firesAs_of_hasFired hfound, ?_⟩
        · rw [hlater.reads, hreads']
          rfl
        · rw [← hstore]
          exact hlater.grows _
      · exact does_given fun _ _ => Proc.Does.pure fun _ _ => trivial

/-! ### Every call at its own place -/

def servesTimely (ticking : Ticking σ ι) (i : ι) (call : BridgeCall) (w : ClockWorld σ ι)
    (r : call.Reply) (w' : ClockWorld σ ι) : Prop :=
  ticking.Timely i call w r ∧ ticking.serves i call w r w'

/-- The ways of the calls, where this is true of every world. -/
def ways (ticking : Ticking σ ι) (good : ClockWorld σ ι → Prop) :
    Pool.Ways ι BridgeCall BridgeCall.Reply (IoResult KernelIoReceipt) (ClockWorld σ ι) where
  good := good
  waits i w := w.reads i = []
  rely := ticking.Rely
  asks := ticking.asks
  answers := ticking.serves
  ends _ _ _ := True

theorem rely_of_serves {call : BridgeCall} {r : call.Reply} (h : ticking.serves i call w r w') {j : ι}
    (hji : j ≠ i) : ticking.Rely j w w' := by
  obtain ⟨draws, h⟩ := h
  cases call with
  | readEvents streamId =>
    obtain ⟨-, rfl⟩ := Prod.mk.inj h
    refine ⟨fun _ => List.prefix_refl _, ?_⟩
    change noteRead w.reads i _ j = _
    cases ticking.store.readEvents streamId w.store with
    | error e => rfl
    | ok found => exact Function.update_of_ne hji ..
  | appendEvents streamId records =>
    obtain ⟨-, rfl⟩ := Prod.mk.inj h
    exact ⟨fun streamId' => ticking.store.prefix_append streamId records w.store streamId', rfl⟩
  | _ =>
    obtain ⟨-, rfl⟩ := Prod.mk.inj h
    exact .refl j _

omit [DecidableEq ι] in
theorem rely_of_others (h : ticking.others w w') (j : ι) : ticking.Rely j w w' := by
  obtain ⟨hreads, streamId, records, hstore, -⟩ := h
  refine ⟨fun streamId' => ?_, by rw [hreads]⟩
  rw [hstore]
  exact ticking.store.prefix_append streamId records w.store streamId'

/-- **The ways of the calls are sound**, where what is true of every world stays true. -/
theorem sound {good : ClockWorld σ ι → Prop}
    {served : ι → (call : BridgeCall) → ClockWorld σ ι → call.Reply → ClockWorld σ ι → Prop}
    (hserved : ∀ i call w r w', served i call w r w' → ticking.serves i call w r w')
    (hcall : ∀ i call w r w', good w → ticking.asks i call w → served i call w r w' → good w')
    (hother : ∀ w w', good w → ticking.others w w' → good w') :
    (ticking.ways good).Sound ticking.starts served ticking.others where
  refl i w _ := .refl i w
  trans _ _ _ _ h h' := h.trans h'
  waits _ _ _ h hnone := h.reads.trans hnone
  start := by
    rintro i w p - hnone rfl
    exact Proc.Meets.imp (fun _ _ _ => trivial) (does_submitClockTickEnvelope hnone)
  call i call w r w' hgood hask h :=
    ⟨hcall i call w r w' hgood hask h, hserved i call w r w' h,
      fun _ hji => rely_of_serves (hserved i call w r w' h) hji⟩
  other w w' hgood h := ⟨hother w w' hgood h, rely_of_others h⟩

/-- No occurrence has fired twice on any stream. -/
def Once (ticking : Ticking σ ι) (w : ClockWorld σ ι) : Prop :=
  ∀ streamId, FiresOnce ticking.tick.timer (ticking.store.events w.store streamId)

/-- **A timely append fires no occurrence again.** -/
theorem Once.call (hcodec : ticking.tick.timer.RoundTrips) {call : BridgeCall} {r : call.Reply}
    (honce : ticking.Once w) (hask : ticking.asks i call w)
    (h : ticking.servesTimely i call w r w') : ticking.Once w' := by
  obtain ⟨htimely, draws, h⟩ := h
  cases call with
  | readEvents streamId =>
    obtain ⟨-, rfl⟩ := Prod.mk.inj h
    exact honce
  | appendEvents streamId records =>
    obtain ⟨fires, coordinates, first, second, happends⟩ := hask
    obtain ⟨draw, hrecords⟩ := happends.records_eq
    obtain ⟨hanswer, rfl⟩ := Prod.mk.inj h
    intro streamId'
    change FiresOnce _ (ticking.store.events (ticking.store.appendEvents streamId records w.store).2 _)
    rcases ticking.store.append_cases streamId records w.store with ⟨e, hrefused⟩ |
      ⟨s', htaken, -, hevents, -⟩
    · rw [hrefused]
      exact honce streamId'
    · rw [htaken]
      dsimp only
      rw [hevents, appendBatch]
      split
      · rename_i heq
        rw [hrecords]
        refine (honce streamId).snoc fun earlier hearlier fires' hfires' hfired => ?_
        -- The new event fired the call's own occurrence.
        obtain ⟨-, payload, hpayload, hmandate, hindex⟩ := hfires'
        obtain rfl := Except.ok.inj ((hcodec fires).symm.trans hpayload)
        obtain ⟨hkind, payload', hpayload', hmandate', hindex'⟩ := hfired
        have hsame : FiresAs ticking.tick.timer earlier fires :=
          ⟨hkind, payload', hpayload', hmandate'.trans hmandate.symm, hindex'.trans hindex.symm⟩
        -- It was on the stream at the second read, or it came after it.
        obtain ⟨later, hlater⟩ := happends.seen
        rw [← hlater] at hearlier
        rcases List.mem_append.mp hearlier with hseen | hnew
        · exact happends.unfired earlier hseen hsame
        · refine htimely ⟨_, hanswer.trans (congrArg Prod.fst htaken)⟩ second
            (by rw [happends.reads]; rfl) fires happends.fires_ok earlier ?_ hsame
          rw [← hlater, List.drop_left]
          exact hnew
      · exact honce streamId'
  | appendEventsFenced _ _ _ =>
    obtain ⟨-, rfl⟩ := Prod.mk.inj h
    exact honce
  | _ =>
    obtain ⟨-, rfl⟩ := Prod.mk.inj h
    exact honce

omit [DecidableEq ι] in
theorem Once.other (honce : ticking.Once w) (h : ticking.others w w') : ticking.Once w' := by
  obtain ⟨-, streamId, records, hstore, hkinds⟩ := h
  intro streamId'
  rw [hstore]
  rcases ticking.store.append_cases streamId records w.store with ⟨e, hrefused⟩ |
    ⟨s', htaken, -, hevents, -⟩
  · rw [hrefused]
    exact honce streamId'
  · rw [htaken]
    dsimp only
    rw [hevents, appendBatch]
    split
    · refine (honce streamId).append_other fun event he => ?_
      obtain ⟨record, hr, sequence, rfl⟩ := History.mem_numbered he
      exact hkinds record hr
    · exact honce streamId'

/-! ### What is proved -/

/-- The pools that runs of the calls lead to. -/
abbrev Reaches (ticking : Ticking σ ι)
    (pool : Pool ι BridgeCall BridgeCall.Reply (IoResult KernelIoReceipt) (ClockWorld σ ι)) : Prop :=
  pool.Reachable ticking.starts ticking.serves ticking.others ⟨ticking.start, fun _ => []⟩

/-- The pools that runs lead to in which every append is in time. -/
abbrev ReachesTimely (ticking : Ticking σ ι)
    (pool : Pool ι BridgeCall BridgeCall.Reply (IoResult KernelIoReceipt) (ClockWorld σ ι)) : Prop :=
  pool.Reachable ticking.starts ticking.servesTimely ticking.others ⟨ticking.start, fun _ => []⟩

/-- **A timer occurrence fires once** in every run whose appends are in time; and in every run a call
is at an append only after it read its mandate active and its occurrence not fired. -/
theorem timer_fires_once (hcodec : ticking.tick.timer.RoundTrips)
    (hstart : ∀ streamId, FiresOnce ticking.tick.timer (ticking.store.events ticking.start streamId)) :
    (∀ pool, ticking.ReachesTimely pool → ∀ streamId,
      FiresOnce ticking.tick.timer (ticking.store.events pool.state.store streamId)) ∧
    ∀ pool, ticking.Reaches pool → ∀ i streamId records k,
      pool.procs i = some (.call (.appendEvents streamId records) k) →
        ∃ fires coordinates first second,
          ticking.Appends i streamId records pool.state fires coordinates first second := by
  constructor
  · intro pool h
    have hsound : (ticking.ways ticking.Once).Sound ticking.starts ticking.servesTimely
        ticking.others :=
      sound (fun _ _ _ _ _ h => h.2) (fun _ _ _ _ _ honce hask h => honce.call hcodec hask h)
        fun _ _ honce h => honce.other h
    refine (Pool.Reachable.kept hsound ?_ ?_ h).good
    · exact hstart
    · exact fun _ => rfl
  · intro pool h i streamId records k hproc
    have hsound : (ticking.ways fun _ => True).Sound ticking.starts ticking.serves ticking.others :=
      sound (fun _ _ _ _ _ h => h) (fun _ _ _ _ _ _ _ _ => trivial) fun _ _ _ _ => trivial
    refine Pool.Kept.asks (Pool.Reachable.kept hsound trivial ?_ h) hsound hproc
    exact fun _ => rfl

/-! ### A tick delivered twice -/

def timerWire : Serde TimerFiredPayload where
  toValue p := Wire.object [("mandate_event_id", .str p.mandateEventId.uuid.text),
    ("scheduled_for", .str p.scheduledFor), ("occurrence_index", .num (.int p.occurrenceIndex)),
    ("catch_up", .bool p.catchUp)]
  fromValue value := do
    let fields ← Wire.fieldsOf value
    return ⟨← Wire.required Wire.eventId fields "mandate_event_id",
      ← Wire.required Wire.text fields "scheduled_for",
      ← Wire.required Wire.natural fields "occurrence_index",
      ← Wire.required Wire.flag fields "catch_up"⟩

theorem roundTrips_timerWire : timerWire.RoundTrips := by
  intro p
  refine bind_ok.mpr ⟨_, rfl, Wire.reads_eventId.required ?_ <| Wire.reads_text.required ?_ <|
    Wire.reads_natural.required ?_ <| Wire.reads_flag.required ?_ rfl⟩
  all_goals simp [Wire.get?_object]

/-- The first occurrence of the mandate of the sample. -/
def sampleFires : TimerFiredPayload := ⟨(Draw.counted 1).eventId, "1970-01-01T00:01:00.000Z", 0, false⟩

/-- The tick of the sample, as the queue delivers it. -/
def sampleTick : IngressEnvelope where
  id := "tick-1"
  source := ⟨"clock.tick", "clock", []⟩
  conversation := ⟨"clock", .system, none, none, []⟩
  actor := none
  content := .event "timer.fired" (timerWire.toValue sampleFires)
  attachments := []
  dedupeKey := none
  delivery := some ⟨"delivery-1", none, []⟩
  principal := some ⟨"tenant", "user", "route:clock"⟩
  receivedAtMs := 0
  metadata := [("cooldis_session_id", "session"),
    ("verlet_thread_id", sampleThread.threadId.uuid.text)]

def sampleMandate : NewEventRecord :=
  .witnessed (.counted 1) sampleThread .mandateStarted
    (Wire.started.toValue (sampleStart (.interval 60000) none))

/-- Two calls with the one tick, on a thread with the mandate. -/
def sampleTicking : Ticking (InMemoryState 0) (Fin 2) where
  store := inMemoryStore 0
  tick := ⟨.wire fun _ => none, timerWire, fun _ => "invalid"⟩
  jobs _ := sampleTick
  start := InMemoryState.empty.append (controlStreamId sampleThread) [sampleMandate]

/-- The two calls, taken up. -/
def sampleCalls : Pool (Fin 2) BridgeCall BridgeCall.Reply (IoResult KernelIoReceipt)
    (ClockWorld (InMemoryState 0) (Fin 2)) :=
  ((Pool.idle ⟨sampleTicking.start, fun _ => []⟩).set 0
    (submitClockTickEnvelope sampleTicking.tick sampleTick).run ⟨sampleTicking.start, fun _ => []⟩).set
    1 (submitClockTickEnvelope sampleTicking.tick sampleTick).run ⟨sampleTicking.start, fun _ => []⟩

def sampleServe (i : Fin 2) (call : BridgeCall) (w : ClockWorld (InMemoryState 0) (Fin 2)) :
    call.Reply × ClockWorld (InMemoryState 0) (Fin 2) :=
  sampleTicking.serve (fun i => .counted (10 + i)) i call w

/-- The calls after some turns of theirs. -/
def sampleTurns (schedule : List (Fin 2)) :
    Pool (Fin 2) BridgeCall BridgeCall.Reply (IoResult KernelIoReceipt)
      (ClockWorld (InMemoryState 0) (Fin 2)) :=
  schedule.foldl (Pool.turn sampleServe) sampleCalls

theorem reaches_sampleCalls {served : Fin 2 → (call : BridgeCall) →
    ClockWorld (InMemoryState 0) (Fin 2) → call.Reply → ClockWorld (InMemoryState 0) (Fin 2) → Prop} :
    sampleCalls.Reachable sampleTicking.starts served sampleTicking.others
      ⟨sampleTicking.start, fun _ => []⟩ := by
  have h₀ : Pool.Reachable sampleTicking.starts served sampleTicking.others
      ⟨sampleTicking.start, fun _ => []⟩ (.idle ⟨sampleTicking.start, fun _ => []⟩) := .refl
  have h₁ := Pool.Reachable.start (i := 0) h₀ rfl rfl
  exact Pool.Reachable.start (i := 1) h₁ rfl rfl

def appendStream (pool : Pool (Fin 2) BridgeCall BridgeCall.Reply (IoResult KernelIoReceipt)
    (ClockWorld (InMemoryState 0) (Fin 2))) (i : Fin 2) : Option EventStreamId :=
  match pool.procs i with
  | some (.call (.appendEvents streamId _) _) => some streamId
  | _                                         => none

/-- The call is at no append, or has last read all of the stream. -/
def hasRead (pool : Pool (Fin 2) BridgeCall BridgeCall.Reply (IoResult KernelIoReceipt)
    (ClockWorld (InMemoryState 0) (Fin 2))) (i : Fin 2) : Bool :=
  match appendStream pool i, (pool.state.reads i).getLast? with
  | some streamId, some seen =>
    (sampleTicking.store.events pool.state.store streamId).length ≤ seen.length
  | _, _ => true

def allRead (pool : Pool (Fin 2) BridgeCall BridgeCall.Reply (IoResult KernelIoReceipt)
    (ClockWorld (InMemoryState 0) (Fin 2))) : List (Fin 2) → Bool
  | []        => true
  | i :: rest => hasRead pool i && allRead (pool.turn sampleServe i) rest

theorem reachesTimely_of_allRead {schedule : List (Fin 2)}
    {pool : Pool (Fin 2) BridgeCall BridgeCall.Reply (IoResult KernelIoReceipt)
      (ClockWorld (InMemoryState 0) (Fin 2))}
    (h : sampleTicking.ReachesTimely pool) (hread : allRead pool schedule = true) :
    sampleTicking.ReachesTimely (schedule.foldl (Pool.turn sampleServe) pool) := by
  induction schedule generalizing pool with
  | nil => exact h
  | cons i rest ih =>
    rw [allRead, Bool.and_eq_true] at hread
    refine ih (Pool.Reachable.turn h fun call k hproc => ⟨?_, fun i => .counted (10 + i), rfl⟩) hread.2
    cases call with
    | appendEvents streamId records =>
      intro _ seen hseen fires _ event hevent
      have hall := hread.1
      rw [hasRead, appendStream, hproc] at hall
      dsimp only at hall
      rw [hseen] at hall
      rw [List.drop_eq_nil_of_le (of_decide_eq_true hall)] at hevent
      exact (List.not_mem_nil hevent).elim
    | _ => trivial

set_option maxRecDepth 100000 in
/-- **Both calls fire the one occurrence**, where each reads before the other appends. -/
theorem tick_fires_twice : ∃ pool, sampleTicking.Reaches pool ∧
    ¬ FiresOnce timerWire
      (sampleTicking.store.events pool.state.store (controlStreamId sampleThread)) := by
  refine ⟨sampleTurns [0, 0, 1, 1, 0, 0, 1, 1], ?_, ?_⟩
  · exact Pool.Reachable.turns (fun i call w => ⟨fun i => .counted (10 + i), rfl⟩) _
      reaches_sampleCalls
  · have hevents : sampleTicking.store.events (sampleTurns [0, 0, 1, 1, 0, 0, 1, 1]).state.store
        (controlStreamId sampleThread) = numbered (controlStreamId sampleThread) 0 [sampleMandate,
          timerFiredRecord sampleTicking.tick sampleThread sampleFires (.counted 10),
          timerFiredRecord sampleTicking.tick sampleThread sampleFires (.counted 11)] := by
      decide +kernel
    rw [hevents]
    intro honce
    have hpair := (List.pairwise_cons.mp (List.pairwise_cons.mp honce).2).1
    exact hpair _ List.mem_cons_self sampleFires
      ⟨rfl, sampleFires, roundTrips_timerWire sampleFires, rfl, rfl⟩
      ⟨rfl, sampleFires, roundTrips_timerWire sampleFires, rfl, rfl⟩

theorem reachesTimely_sampleTurns {schedule : List (Fin 2)}
    (hread : allRead sampleCalls schedule = true) :
    sampleTicking.ReachesTimely (sampleTurns schedule) :=
  reachesTimely_of_allRead reaches_sampleCalls hread

theorem once_sampleStart : sampleTicking.Once ⟨sampleTicking.start, fun _ => []⟩ := by
  have hempty : sampleTicking.Once ⟨.empty, fun _ => []⟩ := fun _ => List.Pairwise.nil
  refine hempty.other ⟨rfl, controlStreamId sampleThread, [sampleMandate], rfl, ?_⟩
  simp [sampleMandate, NewEventRecord.witnessed]

/-- The first call runs to its end, and then the second. -/
def sampleInTurn : List (Fin 2) := [0, 0, 0, 0, 1, 1, 1, 1]

set_option maxRecDepth 100000 in
theorem allRead_sampleInTurn : allRead sampleCalls sampleInTurn = true := by decide +kernel

set_option maxRecDepth 100000 in
theorem length_sampleInTurn : (sampleTicking.store.events (sampleTurns sampleInTurn).state.store
    (controlStreamId sampleThread)).length = 2 := by
  decide +kernel

/-- Where the second call comes after the first, the occurrence fires once. -/
theorem timer_fires_once_in_turn : sampleTicking.ReachesTimely (sampleTurns sampleInTurn) ∧
    (sampleTicking.store.events (sampleTurns sampleInTurn).state.store
      (controlStreamId sampleThread)).length = 2 ∧
    FiresOnce timerWire (sampleTicking.store.events (sampleTurns sampleInTurn).state.store
      (controlStreamId sampleThread)) := by
  have hreach := reachesTimely_sampleTurns allRead_sampleInTurn
  have hall := @timer_fires_once _ _ _ sampleTicking roundTrips_timerWire once_sampleStart
  exact ⟨hreach, length_sampleInTurn, hall.1 _ hreach (controlStreamId sampleThread)⟩

end Ticking

end Verlet.Daemon
