import Verlet.Kernel.ThreadSpawnProjector.Decisions

/-!
# Kernel — The thread spawn projector — Projecting

Any number of dispatches and projections on one parent's control stream.  Between their steps others
append to the stream what decides no correlation id.

What a call may append is said once: behind a fence, what was not decided in what it had read; without
one, what follows its own claim, after it has entered `project_claimed`.  All that is true of the
stream is read from that.

* `Good.call`, `Good.other`: no step breaks what is true, nor what a call relies on.
-/

namespace Verlet.Kernel
open Support Io History

/-- A call at the projector. -/
inductive SpawnEntry where
  | dispatch (call : SpawnDispatch)
  | project (coordinates : ThreadCoordinates)

def SpawnEntry.coordinates : SpawnEntry → ThreadCoordinates
  | .dispatch call       => call.coordinates
  | .project coordinates => coordinates

def SpawnEntry.isDispatch : SpawnEntry → Bool
  | .dispatch _ => true
  | .project _  => false

/-- What a call comes to. -/
abbrev SpawnOutcome := ThreadSpawnDispatchReceipt ⊕ ThreadSpawnProjectionReceipt

/-- The call, run. -/
def SpawnEntry.program (setup : SpawnSetup) (fuel : Nat) : SpawnEntry → SpawnM SpawnOutcome
  | .dispatch call       => do return .inl (← dispatchRequestWithAuthority setup fuel call)
  | .project coordinates => do return .inr (← projectControlStream setup fuel coordinates)

/-- The store; the claims that were appended and the correlation ids whose `project_claimed` was
entered, with who did so; and whom something went wrong for. -/
structure SpawnWorld (σ ι : Type) where
  store : σ
  claims : List (ι × EventRecord)
  entered : List (ι × String)
  mishaps : List ι

/-- Calls on the control stream of one parent, and what others may append there. -/
structure Projecting (σ ι : Type) where
  store : FencedStore σ
  setup : SpawnSetup
  parent : ThreadId
  calls : ι → SpawnEntry
  fuel : ι → Nat
  foreign : EventRecord → Prop
  start : σ
  placed : ∀ i, (calls i).coordinates.threadId = parent
  undeciding : ∀ event, foreign event → isSpawnDecision event = true → rawCorrelation event = none

variable {before : List EventRecord}

theorem mem_of_prefix_append {events later : List EventRecord} {event : EventRecord}
    (h : before ++ [event] <+: events ++ later) : before ++ [event] <+: events ∨ event ∈ later := by
  rcases List.prefix_or_prefix_of_prefix h (List.prefix_append events later) with hold | hnew
  · exact .inl hold
  · rcases List.prefix_concat_iff.mp hnew with hall | hbefore
    · exact .inl (hall ▸ List.prefix_refl _)
    · obtain ⟨since, rfl⟩ := hbefore
      rw [List.append_assoc, List.prefix_append_right_inj] at h
      exact .inr (h.subset (List.mem_append_right _ List.mem_cons_self))

variable {correlationId : String}

namespace Projecting

variable {σ ι : Type} [DecidableEq ι] {projecting : Projecting σ ι} {i j : ι}
  {w w' w'' : SpawnWorld σ ι}

variable (projecting) in
def stream : EventStreamId := ⟨"control:" ++ projecting.parent.uuid.text⟩

omit [DecidableEq ι] in
theorem controlStreamId_eq (i : ι) :
    controlStreamId (projecting.calls i).coordinates = projecting.stream := by
  rw [controlStreamId, projecting.placed i, stream]

variable (projecting)

def events (w : SpawnWorld σ ι) : List EventRecord := projecting.store.events w.store projecting.stream

def startEvents : List EventRecord := projecting.store.events projecting.start projecting.stream

/-! ### Calls on the world -/

/-- What calls are answered by what is not modelled. -/
structure SpawnAnswers where
  draw : Draw
  flag : Bool
  thread : SpawnResult LiveThread
  binding : SpawnResult AgentBinding
  started : SpawnResult (ThreadId × Io.Metadata)
  threadId : ThreadId
  signalId : Uuid
  done : SpawnResult Unit
  joined : Option String

def claimsOf (i : ι) : HistoryResult (List EventRecord) → List (ι × EventRecord)
  | .ok found => (found.filter isSpawnRequestClaim).map fun claim => (i, claim)
  | .error _  => []

/-- A call of a process, with what it is answered. -/
def act (answers : SpawnAnswers) (i : ι) :
    (call : SpawnCall) → SpawnWorld σ ι → call.Reply × SpawnWorld σ ι
  | .readEvents streamId, w => (projecting.store.readEvents streamId w.store, w)
  | .appendEventsFenced streamId expected records, w =>
    let appended := projecting.store.appendEventsFenced streamId expected records w.store
    (appended.1, { w with
      store := appended.2
      claims := claimsOf i appended.1 ++ w.claims })
  | .appendEvents streamId records, w =>
    let appended := projecting.store.appendEvents streamId records w.store
    (appended.1, { w with store := appended.2 })
  | .draw, w => (answers.draw, w)
  | .claimWaitOver, w => (answers.flag, w)
  | .getThread _, w => (answers.thread, w)
  | .enterProjectClaimed _ correlationId, w =>
    ((), { w with entered := (i, correlationId) :: w.entered })
  | .resolveAgentRef _ _, w => (answers.binding, w)
  | .hostAvailable, w => (answers.flag, w)
  | .startThread _ _ _, w => (answers.started, w)
  | .newThreadId, w => (answers.threadId, w)
  | .newSignalId, w => (answers.signalId, w)
  | .runBoundCouplings _, w => (answers.done, w)
  | .recordManifestReceipts _ _, w => (answers.done, w)
  | .submitTurn _ _ _, w => (answers.done, w)
  | .shutdownThread _, w => ((), w)
  | .remoteThreadExecutor, w => (answers.flag, w)
  | .executorSpawn _, w => (answers.done, w)
  | .appendFailedJoin .., w => ((), w)
  | .joinSpawnTask, w => (answers.joined, w)

/-- The call has a claim whose `project_claimed` it has not entered. -/
def hasPending (i : ι) (w : SpawnWorld σ ι) : Bool :=
  w.claims.any fun claim => claim.1 = i ∧
    w.entered.all fun entry => ¬ (entry.1 = i ∧ rawCorrelation claim.2 = some entry.2)

/-- The child of a claim of the call is witnessed. -/
def hasSpawned (i : ι) (w : SpawnWorld σ ι) : Bool :=
  w.claims.any fun claim => claim.1 = i ∧
    (projecting.events w).any fun event =>
      event.kind = .threadSpawned ∧ rawCorrelation event = rawCorrelation claim.2

/-- A failure that comes after the child of a dispatch was witnessed. -/
def failsLate (i : ι) (w : SpawnWorld σ ι) (failed : Bool) : Bool :=
  failed && (projecting.calls i).isDispatch && projecting.hasSpawned i w

/-- Something goes wrong: the store fails; the parent of a claim is not found; a dispatch fails after
its child was witnessed; or the wait for a claim runs out. -/
def mishap (i : ι) : (call : SpawnCall) → call.Reply → SpawnWorld σ ι → Bool
  | .readEvents _,             answer, _ => !Except.isOk answer
  | .appendEvents _ _,         answer, _ => !Except.isOk answer
  | .appendEventsFenced _ _ _, answer, _ =>
    match answer with
    | .ok _ | .error (.appendFenceConflict ..) => false
    | .error _                                 => true
  | .getThread _,                answer, w => !Except.isOk answer && hasPending i w
  | .claimWaitOver,              answer, _ => answer
  | .runBoundCouplings _,        answer, w => projecting.failsLate i w (!Except.isOk answer)
  | .recordManifestReceipts _ _, answer, w => projecting.failsLate i w (!Except.isOk answer)
  | .submitTurn _ _ _,           answer, w => projecting.failsLate i w (!Except.isOk answer)
  | .executorSpawn _,            answer, w => projecting.failsLate i w (!Except.isOk answer)
  | .joinSpawnTask,              answer, w => projecting.failsLate i w (Option.isSome answer)
  | _,                           _,      _ => false

/-- A call of a process, served, and what went wrong noted. -/
def serve (answers : SpawnAnswers) (i : ι) (call : SpawnCall) (w : SpawnWorld σ ι) :
    call.Reply × SpawnWorld σ ι :=
  let served := projecting.act answers i call w
  (served.1, if projecting.mishap i call served.1 w then
    { served.2 with mishaps := i :: served.2.mishaps } else served.2)

def serves (i : ι) (call : SpawnCall) (w : SpawnWorld σ ι) (r : call.Reply) (w' : SpawnWorld σ ι) :
    Prop :=
  ∃ answers, (r, w') = projecting.serve answers i call w

/-- What else happens: others append. -/
def others (w w' : SpawnWorld σ ι) : Prop :=
  (∃ later, projecting.events w' = projecting.events w ++ later ∧
    ∀ event ∈ later, projecting.foreign event) ∧
  w'.claims = w.claims ∧ w'.entered = w.entered ∧ w'.mishaps = w.mishaps

/-- What is taken up. -/
def starts (i : ι) (_ : SpawnWorld σ ι)
    (p : Proc SpawnCall SpawnCall.Reply (SpawnResult SpawnOutcome)) : Prop :=
  p = ((projecting.calls i).program projecting.setup (projecting.fuel i)).run

/-- Nothing is taken up. -/
def begin : SpawnWorld σ ι := ⟨projecting.start, [], [], []⟩

abbrev Calls (σ ι : Type) :=
  Pool ι SpawnCall SpawnCall.Reply (SpawnResult SpawnOutcome) (SpawnWorld σ ι)

/-- What runs of the calls lead to. -/
def Reaches (pool : Calls σ ι) : Prop :=
  Pool.Reachable projecting.starts projecting.serves projecting.others projecting.begin pool

/-! ### What is appended -/

/-- An event that was appended behind a fence, with what had been read before it. -/
inductive Fenced (before : List EventRecord) (event : EventRecord) : Prop
  | request {i : ι} {call : SpawnDispatch} {draw : Draw} {sequence : EventSequence}
      (hcall : projecting.calls i = .dispatch call)
      (hevent : event = .fromNew projecting.stream sequence
        (spawnRequest call.coordinates call.payload draw))
      (hfirst : firstRequest call.dispatchId before = none)
      (hname : checkTaskName call before = .ok ())
  | claim {request : EventRecord} {payload : ThreadSpawnRequestedPayload} {draw : Draw}
      {sequence : EventSequence} (hmem : request ∈ before) (hrequest : isSpawnRequest request = true)
      (hdecode : Wire.spawnRequested.fromValue request.payload = .ok payload)
      (hevent : event = .fromNew projecting.stream sequence (spawnClaim request draw))
      (hundecided : decisions payload.correlationId before = [])
  | denied (hkind : event.kind = .loopDenied)
      (hundecided : ∀ correlationId, rawCorrelation event = some correlationId →
        decisions correlationId before = [])

/-- An event that follows the claim of a correlation id. -/
inductive Follows (correlationId : String) (before : List EventRecord) (event : EventRecord) : Prop
  | spawned {claim : EventRecord} (hkind : event.kind = .threadSpawned)
      (hclaim : isSpawnRequestClaim claim = true) (hdecided : decisions correlationId before = [claim])
  | denied {claim : EventRecord} {rest : List EventRecord} (hkind : event.kind = .loopDenied)
      (hclaim : isSpawnRequestClaim claim = true)
      (hdecided : decisions correlationId before = claim :: rest)
      (hrest : ∀ event ∈ rest, event.kind = .threadSpawned)

/-- What is appended to the stream. -/
inductive Lawful (before : List EventRecord) (event : EventRecord) : Prop
  | foreign (h : projecting.foreign event)
  | fenced (h : projecting.Fenced before event)
  | follows {correlationId : String} (hraw : rawCorrelation event = some correlationId)
      (h : Follows correlationId before event)

/-! ### What is true in every run -/

abbrev decided (correlationId : String) (w : SpawnWorld σ ι) : List EventRecord :=
  decisions correlationId (projecting.events w)

/-- A claim that the call appended is one of the correlation id. -/
def Owns (i : ι) (correlationId : String) (w : SpawnWorld σ ι) : Prop :=
  ∃ claim, (i, claim) ∈ w.claims ∧ rawCorrelation claim = some correlationId

structure Good (w : SpawnWorld σ ι) : Prop where
  started : projecting.startEvents <+: projecting.events w
  lawful : ∀ before event, projecting.startEvents <+: before →
    before ++ [event] <+: projecting.events w → projecting.Lawful before event
  claimed : ∀ i claim, (i, claim) ∈ w.claims → isSpawnRequestClaim claim = true ∧
    ∃ correlationId rest, rawCorrelation claim = some correlationId ∧
      projecting.decided correlationId w = claim :: rest
  apart : w.claims.Pairwise fun a b => rawCorrelation a.2 ≠ rawCorrelation b.2
  entered : ∀ i correlationId, (i, correlationId) ∈ w.entered → Owns i correlationId w
  once : w.entered.Pairwise fun a b => a.2 ≠ b.2
  pending : ∀ i claim correlationId, (i, claim) ∈ w.claims →
    rawCorrelation claim = some correlationId → (i, correlationId) ∉ w.entered →
      projecting.decided correlationId w = [claim]

/-- What the others leave a call. -/
structure Rely (i : ι) (w w' : SpawnWorld σ ι) : Prop where
  grows : projecting.events w <+: projecting.events w'
  claims : ∀ claim, (i, claim) ∈ w'.claims ↔ (i, claim) ∈ w.claims
  entered : ∀ correlationId, (i, correlationId) ∈ w'.entered ↔ (i, correlationId) ∈ w.entered
  decided : ∀ correlationId, Owns i correlationId w →
    projecting.decided correlationId w' = projecting.decided correlationId w
  mishaps : i ∈ w.mishaps → i ∈ w'.mishaps

variable {projecting}

section
omit [DecidableEq ι]

theorem Rely.owns (h : projecting.Rely i w w') :
    Owns i correlationId w' ↔ Owns i correlationId w := by
  constructor
  · rintro ⟨claim, hclaim, hraw⟩
    exact ⟨claim, (h.claims claim).mp hclaim, hraw⟩
  · rintro ⟨claim, hclaim, hraw⟩
    exact ⟨claim, (h.claims claim).mpr hclaim, hraw⟩

theorem Rely.refl (i : ι) (w : SpawnWorld σ ι) : projecting.Rely i w w :=
  ⟨List.prefix_refl _, fun _ => Iff.rfl, fun _ => Iff.rfl, fun _ _ => rfl, id⟩

theorem Rely.trans (h : projecting.Rely i w w') (h' : projecting.Rely i w' w'') :
    projecting.Rely i w w'' where
  grows := h.grows.trans h'.grows
  claims claim := (h'.claims claim).trans (h.claims claim)
  entered correlationId := (h'.entered correlationId).trans (h.entered correlationId)
  decided correlationId howns :=
    (h'.decided correlationId (h.owns.mpr howns)).trans (h.decided correlationId howns)
  mishaps hi := h'.mishaps (h.mishaps hi)

end

/-! ### What one call does -/

variable (projecting) in
/-- What a call of a process may be. -/
def asks (i : ι) : SpawnCall → SpawnWorld σ ι → Prop
  | .appendEventsFenced streamId expected records, w =>
    streamId = projecting.stream ∧ ∃ seen record, records = [record] ∧
      seen <+: projecting.events w ∧ expected = nextSequence seen ∧
        ∀ sequence, projecting.Fenced seen (.fromNew projecting.stream sequence record)
  | .appendEvents streamId records, w =>
    streamId = projecting.stream ∧ ∃ record correlationId, records = [record] ∧
      (i, correlationId) ∈ w.entered ∧ ∀ sequence,
        rawCorrelation (.fromNew projecting.stream sequence record) = some correlationId ∧
        Follows correlationId (projecting.events w) (.fromNew projecting.stream sequence record)
  | .enterProjectClaimed _ correlationId, w =>
    Owns i correlationId w ∧ (i, correlationId) ∉ w.entered
  | _, _ => True

/-- The calls that neither append nor enter. -/
def Quiet : SpawnCall → Prop
  | .appendEventsFenced _ _ _ | .appendEvents _ _ | .enterProjectClaimed _ _ => False
  | _ => True

omit [DecidableEq ι] in
theorem asks_of_quiet {call : SpawnCall} (hquiet : Quiet call) (w : SpawnWorld σ ι) :
    projecting.asks i call w := by
  cases call with
  | appendEventsFenced streamId expected records => exact hquiet.elim
  | appendEvents streamId records => exact hquiet.elim
  | enterProjectClaimed requestEventId correlationId => exact hquiet.elim
  | _ => trivial

/-- What is true but for what went wrong. -/
structure Same (w w' : SpawnWorld σ ι) : Prop where
  store : w'.store = w.store
  claims : w'.claims = w.claims
  entered : w'.entered = w.entered

section
omit [DecidableEq ι]

theorem Good.of_same (h : projecting.Good w) (hsame : Same w w') : projecting.Good w' := by
  obtain ⟨store, claims, entered, mishaps⟩ := w
  obtain ⟨store', claims', entered', mishaps'⟩ := w'
  obtain ⟨rfl, rfl, rfl⟩ := hsame
  exact ⟨h.started, h.lawful, h.claimed, h.apart, h.entered, h.once, h.pending⟩

theorem Rely.of_same (hsame : Same w w') (hmishaps : i ∈ w.mishaps → i ∈ w'.mishaps) :
    projecting.Rely i w w' := by
  obtain ⟨store, claims, entered, mishaps⟩ := w
  obtain ⟨store', claims', entered', mishaps'⟩ := w'
  obtain ⟨rfl, rfl, rfl⟩ := hsame
  exact ⟨List.prefix_refl _, fun _ => Iff.rfl, fun _ => Iff.rfl, fun _ _ => rfl, hmishaps⟩

end

/-- **Serving a call** does what the call does, and notes what went wrong. -/
theorem serves_cases {call : SpawnCall} {r : call.Reply} (h : projecting.serves i call w r w') :
    ∃ answers w₁, projecting.act answers i call w = (r, w₁) ∧ Same w₁ w' ∧
      (∀ j, j ∈ w₁.mishaps → j ∈ w'.mishaps) ∧
        (projecting.mishap i call r w = true → i ∈ w'.mishaps) := by
  obtain ⟨answers, hserve⟩ := h
  rcases hact : projecting.act answers i call w with ⟨r₁, w₁⟩
  simp only [serve, hact] at hserve
  obtain ⟨rfl, rfl⟩ := Prod.mk.inj hserve
  refine ⟨answers, w₁, hact, ?_, ?_, ?_⟩
  · split
    · exact ⟨rfl, rfl, rfl⟩
    · exact ⟨rfl, rfl, rfl⟩
  · intro j hj
    split
    · exact List.mem_cons_of_mem _ hj
    · exact hj
  · intro hmishap
    rw [if_pos hmishap]
    exact List.mem_cons_self

section
omit [DecidableEq ι]

theorem act_of_quiet {call : SpawnCall} (hquiet : Quiet call) (answers : SpawnAnswers)
    (w : SpawnWorld σ ι) : (projecting.act answers i call w).2 = w := by
  cases call with
  | appendEventsFenced streamId expected records => exact hquiet.elim
  | appendEvents streamId records => exact hquiet.elim
  | enterProjectClaimed requestEventId correlationId => exact hquiet.elim
  | _ => rfl

theorem rely_of_others (h : projecting.others w w') (j : ι) : projecting.Rely j w w' := by
  obtain ⟨⟨later, hevents, hforeign⟩, hclaims, hentered, hmishaps⟩ := h
  refine ⟨hevents ▸ List.prefix_append _ _, fun _ => by rw [hclaims], fun _ => by rw [hentered],
    fun correlationId _ => ?_, fun hj => hmishaps ▸ hj⟩
  have hlater : decisions correlationId later = [] := by
    refine decisions_eq_nil fun event hevent => ?_
    rw [Bool.eq_false_iff]
    intro hdecides
    obtain ⟨hdecision, hraw⟩ := decides_iff.mp hdecides
    rw [projecting.undeciding event (hforeign event hevent) hdecision] at hraw
    cases hraw
  rw [decided, hevents, decisions_append, hlater, List.append_nil]

end

/-! ### Each append keeps what is true -/

section
omit [DecidableEq ι]

theorem Good.owner (h : projecting.Good w) (hi : Owns i correlationId w)
    (hj : Owns j correlationId w) : i = j := by
  obtain ⟨claim, hclaim, hraw⟩ := hi
  obtain ⟨claim', hclaim', hraw'⟩ := hj
  have hnodup : (w.claims.map fun claim => rawCorrelation claim.2).Nodup :=
    List.pairwise_map.mpr h.apart
  exact congrArg Prod.fst
    (List.inj_on_of_nodup_map hnodup hclaim hclaim' (hraw.trans hraw'.symm))

theorem Good.decided_ne_nil (h : projecting.Good w) (hi : Owns i correlationId w) :
    projecting.decided correlationId w ≠ [] := by
  obtain ⟨claim, hclaim, hraw⟩ := hi
  obtain ⟨-, correlationId', rest, hraw', hdecided⟩ := h.claimed i claim hclaim
  obtain rfl := Option.some.inj (hraw.symm.trans hraw')
  rw [hdecided]
  exact List.cons_ne_nil _ _

theorem Good.lawful_append (h : projecting.Good w) {event : EventRecord}
    (hevent : projecting.Lawful (projecting.events w) event) {event' : EventRecord}
    (hstart : projecting.startEvents <+: before)
    (hbefore : before ++ [event'] <+: projecting.events w ++ [event]) :
    projecting.Lawful before event' := by
  rcases List.prefix_concat_iff.mp hbefore with hlast | hold
  · obtain ⟨rfl, hsame⟩ := List.append_inj' hlast rfl
    obtain rfl := List.singleton_inj.mp hsame
    exact hevent
  · exact h.lawful before event' hstart hold

/-- **What others append keeps what is true.** -/
theorem Good.other (h : projecting.Good w) (hother : projecting.others w w') :
    projecting.Good w' := by
  have hrely : ∀ i, projecting.Rely i w w' := rely_of_others hother
  obtain ⟨⟨later, hevents, hforeign⟩, hclaims, hentered, -⟩ := hother
  refine ⟨h.started.trans (hevents ▸ List.prefix_append _ _), ?_, ?_, hclaims ▸ h.apart, ?_,
    hentered ▸ h.once, ?_⟩
  · intro before event hstart hbefore
    rw [hevents] at hbefore
    rcases mem_of_prefix_append hbefore with hold | hnew
    · exact h.lawful before event hstart hold
    · exact .foreign (hforeign event hnew)
  · intro i claim hclaim
    rw [hclaims] at hclaim
    obtain ⟨hkind, correlationId, rest, hraw, hdecided⟩ := h.claimed i claim hclaim
    exact ⟨hkind, correlationId, rest, hraw,
      ((hrely i).decided correlationId ⟨claim, hclaim, hraw⟩).trans hdecided⟩
  · intro i correlationId hmem
    exact (hrely i).owns.mpr (h.entered i correlationId (hentered ▸ hmem))
  · intro i claim correlationId hclaim hraw hpending
    rw [hclaims] at hclaim
    rw [hentered] at hpending
    exact ((hrely i).decided correlationId ⟨claim, hclaim, hraw⟩).trans
      (h.pending i claim correlationId hclaim hraw hpending)

theorem Fenced.undecided {event : EventRecord} (h : projecting.Fenced before event)
    (hdecides : decides correlationId event = true) : decisions correlationId before = [] := by
  obtain ⟨hdecision, hraw⟩ := decides_iff.mp hdecides
  cases h with
  | request hcall hevent hfirst hname =>
    subst hevent
    simp [isSpawnDecision, isSpawnRequestClaim, EventRecord.fromNew, spawnRequest,
      NewEventRecord.discharged, threadSpawnProjectorDischargedBy] at hdecision
  | claim hmem hrequest hdecode hevent hundecided =>
    subst hevent
    rw [rawCorrelation_spawnClaim, requested_correlation hdecode] at hraw
    rw [← Option.some.inj hraw]
    exact hundecided
  | denied hkind hundecided => exact hundecided correlationId hraw

theorem Fenced.correlation {event : EventRecord} (h : projecting.Fenced before event)
    (hclaim : isSpawnRequestClaim event = true) :
    ∃ correlationId, rawCorrelation event = some correlationId ∧
      decides correlationId event = true := by
  have hraw : ∃ correlationId, rawCorrelation event = some correlationId := by
    cases h with
    | request hcall hevent hfirst hname =>
      subst hevent
      simp [isSpawnRequestClaim, EventRecord.fromNew, spawnRequest, NewEventRecord.discharged,
        threadSpawnProjectorDischargedBy] at hclaim
    | claim hmem hrequest hdecode hevent hundecided =>
      subst hevent
      exact ⟨_, requested_correlation hdecode⟩
    | denied hkind hundecided => simp [isSpawnRequestClaim, hkind] at hclaim
  obtain ⟨correlationId, hraw⟩ := hraw
  exact ⟨correlationId, hraw, decides_iff.mpr ⟨by simp [isSpawnDecision, hclaim], hraw⟩⟩

end

variable (projecting) in
/-- The call has appended an event, and a claim is noted. -/
structure Appends (i : ι) (claimed : Bool) (event : EventRecord) (w w' : SpawnWorld σ ι) : Prop where
  events : projecting.events w' = projecting.events w ++ [event]
  claims : w'.claims = (if claimed then [(i, event)] else []) ++ w.claims
  entered : w'.entered = w.entered
  mishaps : w'.mishaps = w.mishaps

section
omit [DecidableEq ι]

variable {claimed : Bool} {event : EventRecord}

theorem Appends.decided (h : projecting.Appends i claimed event w w') (correlationId : String) :
    projecting.decided correlationId w' =
      projecting.decided correlationId w ++ decisions correlationId [event] := by
  rw [Projecting.decided, h.events, decisions_append]

theorem Appends.decided_eq (h : projecting.Appends i claimed event w w')
    (hnot : decides correlationId event = false) :
    projecting.decided correlationId w' = projecting.decided correlationId w := by
  rw [h.decided, decisions_single_of_not hnot, List.append_nil]

theorem Appends.decided_concat (h : projecting.Appends i claimed event w w')
    (hdecides : decides correlationId event = true) :
    projecting.decided correlationId w' = projecting.decided correlationId w ++ [event] := by
  rw [h.decided, decisions_single hdecides]

theorem Appends.first (h : projecting.Appends i claimed event w w')
    (hfenced : projecting.Fenced (projecting.events w) event)
    (hdecides : decides correlationId event = true) :
    projecting.decided correlationId w' = [event] := by
  rw [h.decided_concat hdecides, Projecting.decided, hfenced.undecided hdecides]
  rfl

theorem Appends.mem_claims (h : projecting.Appends i claimed event w w') {j : ι}
    {claim : EventRecord} :
    (j, claim) ∈ w'.claims ↔ (claimed = true ∧ j = i ∧ claim = event) ∨ (j, claim) ∈ w.claims := by
  rw [h.claims, List.mem_append]
  cases claimed <;> simp

theorem Appends.owns (h : projecting.Appends i claimed event w w') {j : ι}
    (howns : Owns j correlationId w) : Owns j correlationId w' := by
  obtain ⟨claim, hclaim, hraw⟩ := howns
  exact ⟨claim, h.mem_claims.mpr (.inr hclaim), hraw⟩

theorem Appends.rely (h : projecting.Appends i claimed event w w') {j : ι} (hji : j ≠ i)
    (hnot : ∀ correlationId, Owns j correlationId w → decides correlationId event = false) :
    projecting.Rely j w w' where
  grows := h.events ▸ List.prefix_append _ _
  claims claim := by
    rw [h.mem_claims]
    simp [hji]
  entered correlationId := by rw [h.entered]
  decided correlationId howns := h.decided_eq (hnot correlationId howns)
  mishaps hj := h.mishaps ▸ hj

/-- **A fenced event keeps what is true**, and what the other calls rely on. -/
theorem Good.fenced (h : projecting.Good w)
    (hfenced : projecting.Fenced (projecting.events w) event)
    (happends : projecting.Appends i (isSpawnRequestClaim event) event w w') :
    projecting.Good w' ∧ ∀ j, j ≠ i → projecting.Rely j w w' := by
  have hnot : ∀ j correlationId, Owns j correlationId w → decides correlationId event = false := by
    intro j correlationId howns
    rw [Bool.eq_false_iff]
    exact fun hdecides => h.decided_ne_nil howns (hfenced.undecided hdecides)
  refine ⟨⟨?_, ?_, ?_, ?_, ?_, ?_, ?_⟩, fun j hji => happends.rely hji (hnot j)⟩
  · exact h.started.trans (happends.events ▸ List.prefix_append _ _)
  · intro before event' hstart hbefore
    rw [happends.events] at hbefore
    exact h.lawful_append (.fenced hfenced) hstart hbefore
  · intro j claim hclaim
    rcases happends.mem_claims.mp hclaim with ⟨hkind, -, rfl⟩ | hold
    · obtain ⟨correlationId, hraw, hdecides⟩ := hfenced.correlation hkind
      exact ⟨hkind, correlationId, [], hraw, happends.first hfenced hdecides⟩
    · obtain ⟨hkind, correlationId, rest, hraw, hdecided⟩ := h.claimed j claim hold
      exact ⟨hkind, correlationId, rest, hraw,
        (happends.decided_eq (hnot j correlationId ⟨claim, hold, hraw⟩)).trans hdecided⟩
  · rw [happends.claims, List.pairwise_append]
    refine ⟨?_, h.apart, ?_⟩
    · split
      · exact List.pairwise_singleton ..
      · exact .nil
    · rintro new hnew ⟨j, claim⟩ hclaim hsame
      split at hnew
      · rename_i hkind
        obtain rfl := List.mem_singleton.mp hnew
        obtain ⟨correlationId, hraw, hdecides⟩ := hfenced.correlation hkind
        have howns : Owns j correlationId w := ⟨claim, hclaim, hsame.symm.trans hraw⟩
        rw [hnot j correlationId howns] at hdecides
        cases hdecides
      · exact List.not_mem_nil hnew
  · intro j correlationId hmem
    exact happends.owns (h.entered j correlationId (happends.entered ▸ hmem))
  · exact happends.entered ▸ h.once
  · intro j claim correlationId hclaim hraw hpending
    rw [happends.entered] at hpending
    rcases happends.mem_claims.mp hclaim with ⟨hkind, -, rfl⟩ | hold
    · obtain ⟨correlationId', hraw', hdecides⟩ := hfenced.correlation hkind
      obtain rfl := Option.some.inj (hraw.symm.trans hraw')
      exact happends.first hfenced hdecides
    · exact (happends.decided_eq (hnot j correlationId ⟨claim, hold, hraw⟩)).trans
        (h.pending j claim correlationId hold hraw hpending)

/-- **What follows a claim keeps what is true**, and what the other calls rely on. -/
theorem Good.follows (h : projecting.Good w) (hentered : (i, correlationId) ∈ w.entered)
    (hraw : rawCorrelation event = some correlationId)
    (hfollows : Follows correlationId (projecting.events w) event)
    (happends : projecting.Appends i false event w w') :
    projecting.Good w' ∧ ∀ j, j ≠ i → projecting.Rely j w w' := by
  have howner : ∀ {j correlationId'}, Owns j correlationId' w →
      decides correlationId' event = true → correlationId' = correlationId ∧ j = i := by
    intro j correlationId' howns hdecides
    obtain rfl := Option.some.inj (hraw.symm.trans (decides_iff.mp hdecides).2)
    exact ⟨rfl, h.owner howns (h.entered i correlationId hentered)⟩
  refine ⟨⟨?_, ?_, ?_, ?_, ?_, ?_, ?_⟩, fun j hji => happends.rely hji fun correlationId' howns => ?_⟩
  · exact h.started.trans (happends.events ▸ List.prefix_append _ _)
  · intro before event' hstart hbefore
    rw [happends.events] at hbefore
    exact h.lawful_append (.follows hraw hfollows) hstart hbefore
  · intro j claim hclaim
    rcases happends.mem_claims.mp hclaim with ⟨hfalse, -⟩ | hold
    · cases hfalse
    · obtain ⟨hkind, correlationId', rest, hraw', hdecided⟩ := h.claimed j claim hold
      refine ⟨hkind, correlationId', rest ++ decisions correlationId' [event], hraw', ?_⟩
      rw [happends.decided, hdecided]
      rfl
  · have hclaims : w'.claims = w.claims := happends.claims
    exact hclaims ▸ h.apart
  · intro j correlationId' hmem
    exact happends.owns (h.entered j correlationId' (happends.entered ▸ hmem))
  · exact happends.entered ▸ h.once
  · intro j claim correlationId' hclaim hraw' hpending
    rw [happends.entered] at hpending
    rcases happends.mem_claims.mp hclaim with ⟨hfalse, -⟩ | hold
    · cases hfalse
    · refine (happends.decided_eq ?_).trans (h.pending j claim correlationId' hold hraw' hpending)
      rw [Bool.eq_false_iff]
      intro hdecides
      obtain ⟨rfl, rfl⟩ := howner ⟨claim, hold, hraw'⟩ hdecides
      exact hpending hentered
  · rw [Bool.eq_false_iff]
    exact fun hdecides => hji (howner howns hdecides).2

/-- **An entry keeps what is true**, and what the other calls rely on. -/
theorem Good.enter (h : projecting.Good w) (howns : Owns i correlationId w)
    (hnew : (i, correlationId) ∉ w.entered) :
    projecting.Good { w with entered := (i, correlationId) :: w.entered } := by
  refine ⟨h.started, h.lawful, h.claimed, h.apart, ?_, ?_, ?_⟩
  · intro j correlationId' hmem
    rcases List.mem_cons.mp hmem with hhead | hold
    · obtain ⟨rfl, rfl⟩ := Prod.mk.inj hhead
      exact howns
    · exact h.entered j correlationId' hold
  · refine List.pairwise_cons.mpr ⟨?_, h.once⟩
    rintro ⟨j, correlationId'⟩ hmem rfl
    obtain rfl := h.owner (h.entered j correlationId hmem) howns
    exact hnew hmem
  · intro j claim correlationId' hclaim hraw hpending
    exact h.pending j claim correlationId' hclaim hraw fun hold =>
      hpending (List.mem_cons_of_mem _ hold)

theorem act_appendEventsFenced (answers : SpawnAnswers) (record : NewEventRecord)
    {seen : List EventRecord} (hseen : seen <+: projecting.events w) :
    (∃ e, projecting.act answers i (.appendEventsFenced projecting.stream (nextSequence seen) [record])
        w = (.error e, w)) ∨
    ∃ event w', projecting.act answers i
        (.appendEventsFenced projecting.stream (nextSequence seen) [record]) w = (.ok [event], w') ∧
      event = .fromNew projecting.stream (nextSequence seen) record ∧ seen = projecting.events w ∧
      projecting.Appends i (isSpawnRequestClaim event) event w w' := by
  rcases happend : projecting.store.appendEventsFenced projecting.stream (nextSequence seen) [record]
    w.store with ⟨e | found, store⟩
  · have hsame := projecting.store.refusesFenced happend
    refine .inl ⟨e, ?_⟩
    obtain ⟨store', claims, entered, mishaps⟩ := w
    obtain rfl : store = store' := hsame
    simp only [act, happend]
    rfl
  · obtain ⟨rfl, rfl, hevents⟩ := FencedStore.appended_at_end hseen happend
    have hsequence : nextSequence (projecting.events w) = ((projecting.events w).length : Int) + 1 :=
      nextSequence_eq ((projecting.store.journal w.store).placed projecting.stream)
    refine .inr ⟨_, _, by simp only [act, happend]; rfl, ?_, rfl, ?_⟩
    · exact congrArg (EventRecord.fromNew projecting.stream · record) hsequence.symm
    · refine ⟨?_, ?_, rfl, rfl⟩
      · simp only [events, hevents, appendBatch]
        rfl
      · simp only [claimsOf, numbered, List.filter_cons, List.filter_nil]
        split <;> rfl

theorem act_appendEvents (answers : SpawnAnswers) (record : NewEventRecord) (w : SpawnWorld σ ι) :
    (∃ e, projecting.act answers i (.appendEvents projecting.stream [record]) w = (.error e, w)) ∨
    ∃ sequence w', projecting.act answers i (.appendEvents projecting.stream [record]) w =
        (.ok [.fromNew projecting.stream sequence record], w') ∧
      projecting.Appends i false (.fromNew projecting.stream sequence record) w w' := by
  rcases projecting.store.append_cases projecting.stream [record] w.store with
    ⟨e, hrefused⟩ | ⟨store, htaken, -, hevents, -⟩
  · refine .inl ⟨e, ?_⟩
    simp only [act, hrefused]
  · refine .inr ⟨_, { w with store := store }, by simp only [act, htaken]; rfl, ?_, rfl, rfl, rfl⟩
    simp only [events, hevents, appendBatch]
    rfl

theorem Good.act (h : projecting.Good w) {call : SpawnCall} (hasks : projecting.asks i call w)
    (answers : SpawnAnswers) :
    projecting.Good (projecting.act answers i call w).2 ∧
      ∀ j, j ≠ i → projecting.Rely j w (projecting.act answers i call w).2 := by
  by_cases hquiet : Quiet call
  · rw [act_of_quiet hquiet]
    exact ⟨h, fun j _ => .refl j w⟩
  · cases call with
    | appendEventsFenced streamId expected records =>
      obtain ⟨rfl, seen, record, rfl, hseen, rfl, hfenced⟩ := hasks
      rcases act_appendEventsFenced (i := i) answers record hseen with
        ⟨e, hact⟩ | ⟨event, w', hact, rfl, rfl, happends⟩
      · rw [hact]
        exact ⟨h, fun j _ => .refl j w⟩
      · rw [hact]
        exact h.fenced (hfenced _) happends
    | appendEvents streamId records =>
      obtain ⟨rfl, record, correlationId, rfl, hentered, hfollows⟩ := hasks
      rcases act_appendEvents (i := i) answers record w with ⟨e, hact⟩ | ⟨sequence, w', hact, happends⟩
      · rw [hact]
        exact ⟨h, fun j _ => .refl j w⟩
      · rw [hact]
        exact h.follows hentered (hfollows sequence).1 (hfollows sequence).2 happends
    | enterProjectClaimed requestEventId correlationId =>
      refine ⟨h.enter hasks.1 hasks.2, fun j hji => ?_⟩
      refine ⟨List.prefix_refl _, fun _ => Iff.rfl, fun correlationId' => ?_, fun _ _ => rfl, id⟩
      simp [Projecting.act, hji]
    | _ => exact absurd trivial hquiet

end

/-- **A call keeps what is true**, and what the other calls rely on. -/
theorem Good.call (h : projecting.Good w) {call : SpawnCall} {r : call.Reply}
    (hasks : projecting.asks i call w) (hserves : projecting.serves i call w r w') :
    projecting.Good w' ∧ ∀ j, j ≠ i → projecting.Rely j w w' := by
  obtain ⟨answers, w₁, hact, hsame, hmishaps, -⟩ := serves_cases hserves
  obtain ⟨hgood, hrely⟩ := h.act hasks answers
  rw [hact] at hgood hrely
  exact ⟨hgood.of_same hsame, fun j hji => (hrely j hji).trans (.of_same hsame (hmishaps j))⟩

/-! ### What a call finds of its own -/

theorem rely_of_serves {call : SpawnCall} {r : call.Reply} (hquiet : Quiet call)
    (h : projecting.serves i call w r w') (j : ι) : projecting.Rely j w w' := by
  obtain ⟨answers, w₁, hact, hsame, hmishaps, -⟩ := serves_cases h
  obtain rfl : w = w₁ := (act_of_quiet hquiet answers w).symm.trans (congrArg Prod.snd hact)
  exact .of_same hsame (hmishaps j)

theorem mem_mishaps_of_serves {call : SpawnCall} {r : call.Reply}
    (h : projecting.serves i call w r w') (hmishap : projecting.mishap i call r w = true) :
    i ∈ w'.mishaps := by
  obtain ⟨-, -, -, -, -, hnoted⟩ := serves_cases h
  exact hnoted hmishap

omit [DecidableEq ι] in
theorem grows_act (answers : SpawnAnswers) (call : SpawnCall) (w : SpawnWorld σ ι) :
    projecting.events w <+: projecting.events (projecting.act answers i call w).2 := by
  cases call with
  | appendEventsFenced streamId expected records =>
    rcases projecting.store.fenced_cases streamId expected records w.store with
      ⟨e, hrefused⟩ | ⟨store, htaken, -, -, hevents, -⟩
    · simp [act, events, hrefused]
    · simp only [act, events, htaken, hevents]
      exact History.prefix_appendBatch projecting.stream
  | appendEvents streamId records =>
    exact projecting.store.prefix_append streamId records w.store projecting.stream
  | _ => exact List.prefix_refl _

theorem grows_of_serves {call : SpawnCall} {r : call.Reply} (h : projecting.serves i call w r w') :
    projecting.events w <+: projecting.events w' := by
  obtain ⟨answers, w₁, hact, hsame, -, -⟩ := serves_cases h
  have hgrows := @grows_act σ ι projecting i answers call w
  rw [hact] at hgrows
  rw [events, events, hsame.store]
  exact hgrows

theorem serves_appendEvents {record : NewEventRecord} {r : HistoryResult (List EventRecord)}
    (h : projecting.serves i (.appendEvents projecting.stream [record]) w r w') :
    (∃ e, r = .error e ∧ projecting.Rely i w w' ∧ i ∈ w'.mishaps) ∨
    ∃ sequence w₁, r = .ok [.fromNew projecting.stream sequence record] ∧
      projecting.Appends i false (.fromNew projecting.stream sequence record) w w₁ ∧
        projecting.Rely i w₁ w' := by
  obtain ⟨answers, w₁, hact, hsame, hmishaps, hnoted⟩ := serves_cases h
  rcases act_appendEvents (i := i) answers record w with
    ⟨e, hrefused⟩ | ⟨sequence, w₂, htaken, happends⟩
  · obtain ⟨rfl, rfl⟩ := Prod.mk.inj (hact.symm.trans hrefused)
    exact .inl ⟨e, rfl, .of_same hsame (hmishaps i), hnoted rfl⟩
  · obtain ⟨rfl, rfl⟩ := Prod.mk.inj (hact.symm.trans htaken)
    exact .inr ⟨sequence, _, rfl, happends, .of_same hsame (hmishaps i)⟩

theorem serves_appendEventsFenced {record : NewEventRecord} {seen : List EventRecord}
    {r : HistoryResult (List EventRecord)} (hseen : seen <+: projecting.events w)
    (h : projecting.serves i
      (.appendEventsFenced projecting.stream (nextSequence seen) [record]) w r w') :
    (∃ e, r = .error e ∧ projecting.Rely i w w' ∧
      ((∃ streamId expected actual, e = .appendFenceConflict streamId expected actual) ∨
        i ∈ w'.mishaps)) ∨
    ∃ event w₁, r = .ok [event] ∧
      event = .fromNew projecting.stream (nextSequence seen) record ∧ seen = projecting.events w ∧
      projecting.Appends i (isSpawnRequestClaim event) event w w₁ ∧ projecting.Rely i w₁ w' := by
  obtain ⟨answers, w₁, hact, hsame, hmishaps, hnoted⟩ := serves_cases h
  rcases act_appendEventsFenced (i := i) answers record hseen with
    ⟨e, hrefused⟩ | ⟨event, w₂, htaken, hevent, hall, happends⟩
  · obtain ⟨rfl, rfl⟩ := Prod.mk.inj (hact.symm.trans hrefused)
    refine .inl ⟨e, rfl, .of_same hsame (hmishaps i), ?_⟩
    cases e with
    | appendFenceConflict streamId expected actual => exact .inl ⟨streamId, expected, actual, rfl⟩
    | _ => exact .inr (hnoted rfl)
  · obtain ⟨rfl, rfl⟩ := Prod.mk.inj (hact.symm.trans htaken)
    exact .inr ⟨event, _, rfl, hevent, hall, happends, .of_same hsame (hmishaps i)⟩

end Projecting

end Verlet.Kernel
