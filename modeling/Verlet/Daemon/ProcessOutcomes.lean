import Verlet.Daemon.Ingress.Witnesses
import Verlet.Support.Programs

/-!
# Daemon — Process outcomes

Attempts to report what a process came to.  Each builds its outcome envelope anew and first records
its witness on the consumer's control stream.  The id of the envelope is the dispatch's, so that a
later attempt finds the witness of an earlier one, which must have the digest of its own envelope.
-/

namespace Verlet.Daemon
open Support Kernel Io History

variable {σ : Type} {store : FencedStore σ} {bridge : Bridge} {coordinates : ThreadCoordinates}
  {s s' s'' : σ}

theorem index_envelopeDigest (envelope : IngressEnvelope) (messageId : Option String)
    (digest : String) :
    (ingressReceivedPayload envelope messageId digest).index "envelope_digest" = .str digest := by
  cases messageId <;>
    simp [Json.index, ingressReceivedPayload, Wire.object, Json.asObject, Wire.get?_object,
      ingressMessageIdField, ingressDedupeSeenField]

/-! ### A store that others write to -/

/-- How a call is served: the store answers its reads and takes fenced appends as it does, and draws
are any. -/
def storeServes (store : FencedStore σ) :
    (call : BridgeCall) → σ → call.Reply → σ → Prop
  | .readEvents streamId, s, r, s' => r = store.readEvents streamId s ∧ s' = s
  | .appendEventsFenced streamId expected records, s, r, s' =>
    (r, s') = store.appendEventsFenced streamId expected records s
  | _, s, _, s' => s' = s

/-- The others append. -/
def Extends (store : FencedStore σ) (s s' : σ) : Prop :=
  ∀ streamId, store.events s streamId <+: store.events s' streamId

theorem Extends.refl (s : σ) : Extends store s s := fun _ => List.prefix_refl _

theorem Extends.trans (h : Extends store s s') (h' : Extends store s' s'') : Extends store s s'' :=
  fun streamId => (h streamId).trans (h' streamId)

/-- The first witness of the message on the stream has the digest. -/
def Witnessed (store : FencedStore σ) (coordinates : ThreadCoordinates) (messageId digest : String)
    (s : σ) : Prop :=
  ∃ event, (store.events s (controlStreamId coordinates)).find? (isWitnessOf messageId) = some event ∧
    event.payload.index "envelope_digest" = .str digest

theorem Witnessed.mono {messageId digest : String} (h : Witnessed store coordinates messageId digest s)
    (hs : Extends store s s') : Witnessed store coordinates messageId digest s' := by
  obtain ⟨event, hfind, hdigest⟩ := h
  obtain ⟨later, hlater⟩ := hs (controlStreamId coordinates)
  exact ⟨event, by rw [← hlater, List.find?_append, hfind]; rfl, hdigest⟩

abbrev DoesOn {α : Type} (store : FencedStore σ) (Q : α → σ → Prop) (p : BridgeM α) (s : σ) : Prop :=
  Proc.Does (Extends store) (fun _ _ => True) (storeServes store) Q p s

/-- The record of an attempt, and the witness that it would be. -/
def outcomeRecord (coordinates : ThreadCoordinates) (envelope : IngressEnvelope)
    (messageId digest : String) (draw : Draw) : NewEventRecord :=
  .witnessed draw coordinates .ioIngressReceived
    (ingressReceivedPayload envelope (some messageId) digest)

variable {envelope : IngressEnvelope} {messageId digest : String} {draw : Draw}

theorem witnessed_of_existing {events : List EventRecord} {event : EventRecord}
    (hevents : events = store.events s (controlStreamId coordinates))
    (h : existingWitness messageId (outcomeRecord coordinates envelope messageId digest draw) events =
      some (.ok event)) : Witnessed store coordinates messageId digest s := by
  obtain ⟨existing, hfind, hexisting⟩ := Option.map_eq_some_iff.mp h
  split at hexisting
  · cases hexisting
  · rename_i hsame
    exact ⟨existing, hevents ▸ hfind, (not_not.mp hsame).trans
      (index_envelopeDigest envelope (some messageId) digest)⟩

theorem isWitnessOf_outcomeRecord (streamId : EventStreamId) (sequence : EventSequence) :
    isWitnessOf messageId (.fromNew streamId sequence
      (outcomeRecord coordinates envelope messageId digest draw)) = true := by
  rw [isWitnessOf, decide_eq_true_iff]
  refine ⟨rfl, ?_⟩
  change ((ingressReceivedPayload envelope (some messageId) digest).index ingressMessageIdField).asStr = _
  rw [index_ingressMessageId]
  rfl

theorem witnessed_of_appended {events appended : List EventRecord}
    (hread : events <+: store.events s (controlStreamId coordinates))
    (hnone : events.find? (isWitnessOf messageId) = none)
    (h : store.appendEventsFenced (controlStreamId coordinates) (nextSequence events)
      [outcomeRecord coordinates envelope messageId digest draw] s = (.ok appended, s')) :
    Witnessed store coordinates messageId digest s' := by
  obtain ⟨rfl, -, hevents⟩ := FencedStore.appended_at_end hread h
  refine ⟨.fromNew (controlStreamId coordinates)
      ((store.events s (controlStreamId coordinates)).length + 1 : Int)
      (outcomeRecord coordinates envelope messageId digest draw),
    ?_, index_envelopeDigest envelope (some messageId) digest⟩
  rw [hevents, History.appendBatch, if_pos rfl, List.find?_append, hnone]
  exact List.find?_cons_of_pos (isWitnessOf_outcomeRecord _ _)

theorem does_appendEventsFenced {α : Type} {streamId : EventStreamId}
    {expected : EventSequence} {records : List NewEventRecord}
    {f : Option (List EventRecord) → BridgeM α} {Q : α → σ → Prop}
    (htaken : ∀ s₁ s₂ appended, Extends store s s₁ →
      store.appendEventsFenced streamId expected records s₁ = (.ok appended, s₂) →
        ∀ s₃, Extends store s₂ s₃ → DoesOn store Q (f (some appended)) s₃)
    (hconflict : ∀ s₁, Extends store s s₁ → DoesOn store Q (f none) s₁) :
    DoesOn store Q (appendEventsFenced streamId expected records >>= f) s := by
  refine Proc.Does.bind Extends.refl (does_ask fun s₁ hs₁ => ⟨trivial, fun r s₂ hserves => ?_⟩)
  cases r with
  | ok appended => exact Proc.Does.pure fun s₃ hs₃ => htaken s₁ s₂ appended hs₁ hserves.symm s₃ hs₃
  | error error =>
    obtain rfl := store.refusesFenced hserves.symm
    cases error with
    | appendFenceConflict =>
      exact Proc.Does.pure fun s₃ hs₃ => hconflict s₃ (hs₁.trans hs₃)
    | _ => exact Proc.Does.fail

/-- **An attempt that gets its record past the stream** leaves a witness with its digest. -/
theorem does_appendUnless {missing : String} (fuel : Nat) (s : σ) :
    DoesOn store (fun _ => Witnessed store coordinates messageId digest)
      (appendUnless (controlStreamId coordinates) (outcomeRecord coordinates envelope messageId digest draw)
        (existingWitness messageId (outcomeRecord coordinates envelope messageId digest draw)) missing
        fuel) s := by
  induction fuel generalizing s with
  | zero => exact Proc.Does.fail
  | succ fuel ih =>
    rw [appendUnless]
    refine Proc.Does.bind Extends.refl (does_ask fun s₁ hs₁ => ⟨trivial, ?_⟩)
    rintro found _ ⟨rfl, rfl⟩
    refine does_result fun events s₂ hs₂ hevents => ?_
    have hread := store.reads (orBridge_ok.mp hevents)
    cases hexisting : existingWitness messageId
      (outcomeRecord coordinates envelope messageId digest draw) events with
    | some found =>
      refine does_result fun event s₃ hs₃ hfound => ?_
      rw [hfound] at hexisting
      exact (witnessed_of_existing hread hexisting).mono (hs₂.trans hs₃)
    | none =>
      have hnone := Option.map_eq_none_iff.mp hexisting
      refine does_appendEventsFenced (fun s₃ s₄ appended hs₃ htaken s₅ hs₅ => ?_) fun s₃ hs₃ => ih s₃
      have hpre : events <+: store.events s₃ (controlStreamId coordinates) :=
        hread ▸ hs₂.trans hs₃ (controlStreamId coordinates)
      have hwitnessed := witnessed_of_appended hpre hnone htaken
      exact does_result fun event s₆ hs₆ _ => hwitnessed.mono (hs₅.trans hs₆)

/-- An attempt to record a dispatch's outcome, as a report built at a moment. -/
def recordOutcome (bridge : Bridge) (sha256Hex : String → String) (fuel : Nat)
    (coordinates : ThreadCoordinates) (binding : HandleDispatchEnvelope) (report : TerminalReport)
    (nowMs : Nat) : BridgeM EventRecord :=
  let envelope := outcomeEnvelope sha256Hex binding (report.terminal binding) nowMs
  recordIngressReceived bridge fuel coordinates envelope (some envelope.id)

/-- **An attempt that passes leaves a witness with its digest**, for good. -/
theorem does_recordIngressReceived (fuel : Nat) (hdigest : envelopeDigest bridge envelope = .ok digest)
    (s : σ) :
    DoesOn store (fun _ => Witnessed store coordinates messageId digest)
      (recordIngressReceived bridge fuel coordinates envelope (some messageId)) s := by
  rw [recordIngressReceived, hdigest]
  refine does_given fun found hfound => ?_
  obtain rfl := Except.ok.inj hfound
  refine does_ask fun s₁ hs₁ => ⟨trivial, ?_⟩
  rintro draw _ rfl
  exact does_appendUnless fuel _

theorem existingWitness_of_witnessed {events : List EventRecord} {event : EventRecord}
    {found : String} (hfind : events.find? (isWitnessOf messageId) = some event)
    (hevent : event.payload.index "envelope_digest" = .str found) :
    existingWitness messageId (outcomeRecord coordinates envelope messageId digest draw) events =
      some (if found ≠ digest then
        .error (.bridge (.quoted "durable ingress message " messageId " changed envelope digest"))
        else .ok event) := by
  have hrecord : (outcomeRecord coordinates envelope messageId digest draw).payload.index
      "envelope_digest" = .str digest := index_envelopeDigest envelope (some messageId) digest
  rw [existingWitness, hfind, Option.map_some, hevent, hrecord]
  simp only [ne_eq, Json.str.injEq]

/-- **An attempt that finds a witness** passes if that has its digest, and is refused if not. -/
theorem settles_recordIngressReceived (hreads : store.Serves) {found : String} (fuel : Nat)
    (hdigest : envelopeDigest bridge envelope = .ok digest)
    (h : Witnessed store coordinates messageId found s) :
    Proc.Settles (Extends store) (fun _ _ => True) (storeServes store)
      (fun _ _ => found = digest) (fun _ _ => found ≠ digest)
      (recordIngressReceived bridge (fuel + 1) coordinates envelope (some messageId)) s := by
  rw [recordIngressReceived, hdigest]
  refine Proc.Settles.settle (fun a ha => ?_) fun _ herr => by cases herr
  obtain rfl := Except.ok.inj ha
  refine Proc.Settles.await fun s₁ hs₁ => ⟨trivial, ?_⟩
  rintro draw _ rfl
  refine Proc.Settles.bind Extends.refl (fun _ _ _ hne _ => hne) ?_
  refine Proc.Settles.await fun s₂ hs₂ => ⟨trivial, ?_⟩
  rintro _ s₃ ⟨rfl, rfl⟩
  obtain ⟨event, hfind, hevent⟩ := (h.mono hs₁).mono hs₂
  rw [hreads.answers]
  refine Proc.Settles.pure fun s₄ _ => ?_
  have hexisting : existingWitness messageId (outcomeRecord coordinates envelope messageId digest draw)
      _ = _ := existingWitness_of_witnessed hfind hevent
  dsimp only [outcomeRecord] at hexisting
  rw [hexisting]
  by_cases hsame : found = digest
  · rw [if_neg (not_not.mpr hsame)]
    exact fun _ _ => hsame
  · rw [if_pos hsame]
    exact fun _ _ => hsame

/-- **A later attempt passes exactly where it is the same report, built in the same millisecond.**
Whatever others append in between, once an attempt to report a dispatch has recorded its witness and
stops, each later one that is built at the same moment and says the same passes its own record, and
every other is refused. -/
theorem later_attempt_passes_iff {σ : Type} {store : FencedStore σ} (hreads : store.Serves)
    {bridge : Bridge} {sha256Hex : String → String} {coordinates : ThreadCoordinates}
    {binding : HandleDispatchEnvelope} {report later : TerminalReport} {nowMs laterMs : Nat}
    {digest laterDigest : String}
    (hdigest : envelopeDigest bridge
      (outcomeEnvelope sha256Hex binding (report.terminal binding) nowMs) = .ok digest)
    (hlater : envelopeDigest bridge
      (outcomeEnvelope sha256Hex binding (later.terminal binding) laterMs) = .ok laterDigest)
    (hcollides : digest = laterDigest →
      outcomeEnvelope sha256Hex binding (report.terminal binding) nowMs =
        outcomeEnvelope sha256Hex binding (later.terminal binding) laterMs)
    (fuel : Nat) (s : σ) :
    DoesOn store (fun _ s' => ∀ fuel',
        (recordOutcome bridge sha256Hex (fuel' + 1) coordinates binding later laterMs).run.Meets
          (Extends store) (fun _ _ => True) (storeServes store)
          (fun result _ => (∃ event, result = .ok event) ↔
            laterMs = nowMs ∧ later.terminal binding = report.terminal binding) s')
      (recordOutcome bridge sha256Hex fuel coordinates binding report nowMs) s := by
  have hsame : digest = laterDigest ↔
      laterMs = nowMs ∧ later.terminal binding = report.terminal binding := by
    rw [← @outcomeEnvelope_inj _ sha256Hex]
    constructor
    · exact fun h => (hcollides h).symm
    · intro h
      rw [h] at hlater
      exact Except.ok.inj (hdigest.symm.trans hlater)
  refine (does_recordIngressReceived fuel hdigest s).imp fun _ s' hwitnessed fuel' => ?_
  -- the id of the envelope is the dispatch's, whatever else it says
  have hfound : Witnessed store coordinates
      (outcomeEnvelope sha256Hex binding (later.terminal binding) laterMs).id digest s' := hwitnessed
  have hsettles := settles_recordIngressReceived hreads fuel' hlater hfound
  refine Proc.Meets.imp (fun result s'' h => ?_) hsettles
  rw [← hsame]
  cases result with
  | ok event =>
    have hdigests : digest = laterDigest := h
    exact ⟨fun _ => hdigests, fun _ => ⟨event, rfl⟩⟩
  | error e =>
    have hdigests : digest ≠ laterDigest := h
    refine ⟨?_, fun hdigests' => absurd hdigests' hdigests⟩
    rintro ⟨event, ⟨⟩⟩

/-! ### A report that is built again -/

/-- A bridge whose digest of an envelope is that of the moment it was built at. -/
def clockBridge : Bridge where
  outcomes := .wire
  printJson _ := ""
  envelope envelope := .num (.int envelope.receivedAtMs)
  turnInput _ := .null
  canonicalJsonHash value := .ok (if value = .num (.int 0) then "sha256:0" else "sha256:1")

def reportedBinding : HandleDispatchEnvelope where
  dispatchId := ⟨"call-1"⟩
  handle := .process "process-1"
  consumer := .counted "user" 1
  commandDigest := "sha256:command"

def storeServe (call : BridgeCall) (s : InMemoryState 0) : call.Reply × InMemoryState 0 :=
  match call with
  | .readEvents streamId => ((inMemoryFenced 0).readEvents streamId s, s)
  | .appendEventsFenced streamId expected records =>
    (inMemoryFenced 0).appendEventsFenced streamId expected records s
  | .draw => (.counted 1, s)
  | call  => (call.refused, s)

def sampleAttempt (nowMs : Nat) (s : InMemoryState 0) : IoResult EventRecord × InMemoryState 0 :=
  (recordOutcome clockBridge id 1 reportedBinding.consumer reportedBinding
    (.observed (.completed (some 0) true)) nowMs).run.alone storeServe s

/-- **A process outcome is refused**: an attempt records its witness and stops, and the next one is
built a millisecond later. -/
theorem rebuilt_outcome_refused :
    (∃ event, (sampleAttempt 0 .empty).1 = .ok event) ∧
    (sampleAttempt 1 (sampleAttempt 0 .empty).2).1 = .error (.bridge
      (.quoted "durable ingress message " "ing-handle-outcome:call-1" " changed envelope digest")) := by
  refine ⟨⟨_, rfl⟩, ?_⟩
  decide

theorem storeServes_storeServe (call : BridgeCall) (s : InMemoryState 0) :
    storeServes (inMemoryFenced 0) call s (storeServe call s).1 (storeServe call s).2 := by
  cases call <;> first | exact ⟨rfl, rfl⟩ | rfl

/-- An attempt that is built in the same millisecond passes. -/
theorem later_attempt_passes_same : ∃ event,
    (sampleAttempt 0 (sampleAttempt 0 .empty).2).1 = .ok event := by
  have hpasses := @later_attempt_passes_iff _ (inMemoryFenced 0) (inMemoryStore_serves 0) clockBridge
    id reportedBinding.consumer reportedBinding (.observed (.completed (some 0) true))
    (.observed (.completed (some 0) true)) 0 0 _ _ rfl rfl (fun _ => rfl) 1 .empty
  have hlater := Proc.Meets.alone Extends.refl storeServes_storeServe hpasses _ rfl 0
  exact (Proc.Meets.alone Extends.refl storeServes_storeServe hlater).mpr ⟨rfl, rfl⟩

end Verlet.Daemon
