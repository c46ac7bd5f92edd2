import Verlet.Kernel.ControlDecision.Continuations
import Verlet.Kernel.MandateLifecycle.Folds
import Verlet.Daemon.ClockRoute.Occurrences

/-!
# Daemon — Revocation

What a revoked mandate still does.  Three loops read the revocations of a control stream, each with
its own filters: the look-up of `revoke_mandate` takes any revocation of the mandate, the list of
active mandates takes those for the thread, a continuation takes the witnessed ones for its loop
and snapshot.  A revocation that the first finds and another passes over makes `revoke_mandate`
answer that the mandate is already revoked, and write nothing.
-/

namespace Verlet.Daemon
open Support Kernel History
open RemoteStore (VerletResult)

variable {σ : Type} {codec : ControlCodec} {coordinates : ThreadCoordinates}
  {mandateEventId : EventRecordId}

/-! ### What a call finds and writes -/

def revokedEvent (codec : ControlCodec) (draw : Draw) (coordinates : ThreadCoordinates)
    (mandateEventId : EventRecordId) (started : MandateStartedPayload) (length : Nat) : EventRecord :=
  .fromNew (controlStreamId coordinates) (length + 1) (.witnessed draw coordinates .mandateRevoked
    (codec.mandateRevoked.toValue (revokedPayload mandateEventId started)))

/-- The events have a revocation that the look-up takes for one of the mandate. -/
def Found (codec : ControlCodec) (events : List EventRecord) (mandateEventId : EventRecordId)
    (started : MandateStartedPayload) : Prop :=
  ∃ event payload, Revocation codec events event payload ∧
    revokesMandate mandateEventId started payload = true

/-- **What a call that succeeds found, and what it wrote.** -/
theorem revokeMandate_ok {store : JournalStore σ} {draw : Draw} {receipt : MandateRevokeReceipt}
    {s s' : σ} (h : exec (revokeMandate codec store.toEventStore draw coordinates mandateEventId) s =
      (.ok receipt, s')) :
    ∃ started, Started codec coordinates (store.events s (controlStreamId coordinates))
        ⟨receipt.startEvent, started⟩ ∧ receipt.startEvent.id = mandateEventId ∧
      ((Found codec (store.events s (controlStreamId coordinates)) mandateEventId started ∧ s' = s) ∨
       (¬ Found codec (store.events s (controlStreamId coordinates)) mandateEventId started ∧
        (∀ event ∈ store.events s (controlStreamId coordinates), event.kind = .mandateRevoked →
          ∃ payload, codec.mandateRevoked.fromValue event.payload = .ok payload) ∧
        store.events s' (controlStreamId coordinates) =
          store.events s (controlStreamId coordinates) ++ [revokedEvent codec draw coordinates
            mandateEventId started (store.events s (controlStreamId coordinates)).length])) := by
  obtain ⟨events, hread, h⟩ := exec_reading_bind_ok.mp h
  obtain rfl := store.reads (orHistory_ok.mp hread)
  obtain ⟨start, hstart, h⟩ := exec_reading_bind_ok.mp h
  cases start with
  | none => cases (Prod.mk.inj h).1
  | some start =>
    obtain ⟨hstarted, hid⟩ := mandateStartEvent_some hstart
    obtain ⟨found, hfound, h⟩ := exec_reading_bind_ok.mp h
    cases found with
    | some found =>
      obtain ⟨revokeEvent, payload⟩ := found
      cases h
      obtain ⟨hrevocation, hrevokes⟩ := mandateRevokedEvent_some hfound
      exact ⟨start.payload, hstarted, hid, .inl ⟨⟨revokeEvent, payload, hrevocation, hrevokes⟩, rfl⟩⟩
    | none =>
      obtain ⟨appended, s₁, happend, h⟩ := exec_bind_ok.mp h
      obtain ⟨revokeEvent, -, h⟩ := exec_reading_bind_ok.mp h
      cases h
      refine ⟨start.payload, hstarted, hid, .inr ⟨?_, fun event he hkind => ?_, ?_⟩⟩
      · rintro ⟨event, payload, hrevocation, hrevokes⟩
        obtain ⟨payload', hreads, hnot⟩ :=
          mandateRevokedEvent_none hfound hrevocation.mem hrevocation.kind
        obtain rfl := Except.ok.inj (hrevocation.reads.symm.trans hreads)
        rw [hrevokes] at hnot
        cases hnot
      · obtain ⟨payload, hreads, -⟩ := mandateRevokedEvent_none hfound he hkind
        exact ⟨payload, hreads⟩
      · rcases store.append_cases (controlStreamId coordinates) [.witnessed draw coordinates
          .mandateRevoked (codec.mandateRevoked.toValue (revokedPayload mandateEventId
            start.payload))] s with ⟨e, hfail⟩ | ⟨s₂, hok, -, hevents, -⟩
        · have hresult := (Prod.mk.inj happend).1
          rw [hfail] at hresult
          cases hresult
        · have hstate := (Prod.mk.inj happend).2
          rw [hok] at hstate
          obtain rfl : s₂ = _ := hstate
          rw [hevents, History.appendBatch, if_pos rfl]
          rfl

/-! ### What is proved -/

/-- The mandate is not listed as active on these events, and no tick is built for it. -/
def Unlisted (codec : ControlCodec) (coordinates : ThreadCoordinates) (mandateEventId : EventRecordId)
    (events : List EventRecord) : Prop :=
  ∀ read : Reader, read (controlStreamId coordinates) = .ok events →
    ∀ active, listActiveMandates codec read coordinates = .ok active → ∀ mandate ∈ active,
      mandate.event.id ≠ mandateEventId ∧ ∀ library fired startedAt now tick,
        nextTickForMandate library coordinates mandate fired startedAt now = .ok (some tick) →
          tick.mandateEventId ≠ mandateEventId

/-- No continuation of the thread is accepted under the mandate's id, on these events and whatever
follows them, except a new start under that id. -/
def Unaccepted (codec : ControlCodec) (coordinates : ThreadCoordinates) (mandateId : String)
    (events : List EventRecord) : Prop :=
  ∀ later, (∀ event ∈ later, event.kind = .mandateStarted → ∀ payload,
      codec.mandateStarted.fromValue event.payload = .ok payload → payload.mandateId ≠ mandateId) →
    ∀ read : Reader, read (controlStreamId coordinates) = .ok (events ++ later) →
      ∀ request, request.coordinates.threadId = coordinates.threadId → ∀ consumed input,
        decideTurnContinuation codec read request ≠ .ok (.accept consumed mandateId input)

/-- Where the look-up finds a revocation of the mandate and the mandates can be listed, some
revocation of it is for the thread. -/
def ListTakes (codec : ControlCodec) (coordinates : ThreadCoordinates) (events : List EventRecord)
    (mandateEventId : EventRecordId) (started : MandateStartedPayload) : Prop :=
  Found codec events mandateEventId started → (∀ event ∈ events, Readable codec event) →
    ∃ event payload, Revocation codec events event payload ∧
      revokesMandate mandateEventId started payload = true ∧
      revokedTargetsThread payload coordinates = true

/-- The request can continue under the mandate's id: the latest mandate for its loop and snapshot
has that id and a budget, and no witnessed revocation for them is of it. -/
structure Continues (codec : ControlCodec) (events : List EventRecord) (mandateId : String)
    (request : TurnContinuationDecisionRequest) (mandate : MandateStartedPayload) : Prop where
  wellFormed : ∀ event ∈ events, ¬ MalformedContinuation codec request.requestEventId event
  latest : latestMatchingMandate codec events request = .ok (some mandate)
  same : mandate.mandateId = mandateId
  budget : mandate.maxContinuations ≠ some 0
  unrevoked : ∀ event ∈ events, event.kind = .mandateRevoked → event.origin = .witnessed →
    ∃ payload, codec.mandateRevoked.fromValue event.payload = .ok payload ∧
      revokesFor request mandate payload = false

/-- Where a request of the thread can continue under the mandate's id, the look-up finds no
revocation, so that one is written, and it is for the loop and snapshot of the request. -/
def ContinuationsTake (codec : ControlCodec) (coordinates : ThreadCoordinates)
    (events : List EventRecord) (mandateEventId : EventRecordId) (started : MandateStartedPayload) :
    Prop :=
  ∀ request mandate, request.coordinates.threadId = coordinates.threadId →
    Continues codec events started.mandateId request mandate →
      ¬ Found codec events mandateEventId started ∧
      started.subject.loopId = some request.subject.loopId ∧
      started.snapshotId = request.snapshotId

/-! ### The list -/

theorem mandateEventId_of_nextTick {library : ScheduleLibrary} {mandate : ActiveMandate}
    {fired : Fired} {startedAt now : Instant} {tick : ScheduledTick}
    (h : nextTickForMandate library coordinates mandate fired startedAt now = .ok (some tick)) :
    tick.mandateEventId = mandate.event.id := by
  unfold nextTickForMandate at h
  split at h
  · cases h
  · obtain ⟨start, -, h⟩ := bind_ok.mp h
    simp only at h
    split at h
    · cases h
    · obtain ⟨scheduledFor, -, h⟩ := bind_ok.mp h
      obtain ⟨found, -, h⟩ := bind_ok.mp h
      cases found with
      | none => cases h
      | some found =>
        simp only at h
        split at h
        · cases h
        · cases h
          rfl

variable {mandate : MandateStartedPayload} {request : TurnContinuationDecisionRequest}
    {mandateId : String}

section
variable {events : List EventRecord} {startEvent : EventRecord} {started : MandateStartedPayload}

theorem unlisted_iff (hids : (events.map (·.id)).Nodup)
    (hstarted : Started codec coordinates events ⟨startEvent, started⟩)
    (hid : startEvent.id = mandateEventId) :
    Unlisted codec coordinates mandateEventId events ↔ ((∀ event ∈ events, Readable codec event) →
      RevokedFor codec coordinates events ⟨startEvent, started⟩) := by
  constructor
  · intro h hreadable
    obtain ⟨active, hactive⟩ := exists_activeMandates_ok.mpr hreadable
    by_contra hrevoked
    have hmem := (mem_activeMandates hids hactive _).mpr ⟨hstarted, hrevoked⟩
    refine (h (fun _ => .ok events) rfl active ?_ _ hmem).1 hid
    exact bind_ok.mpr ⟨events, rfl, hactive⟩
  · intro h read hread active hlist mandate hmem
    obtain ⟨events', hevents, hactive⟩ := bind_ok.mp hlist
    rw [orHistory_ok, hread] at hevents
    obtain rfl := Except.ok.inj hevents
    obtain ⟨hmandate, hrevoked⟩ := (mem_activeMandates hids hactive mandate).mp hmem
    have hne : mandate.event.id ≠ mandateEventId := by
      intro heq
      obtain rfl := hmandate.unique hids hstarted (heq.trans hid.symm)
      exact hrevoked (h (exists_activeMandates_ok.mp ⟨active, hactive⟩))
    refine ⟨hne, fun library fired startedAt now tick htick => ?_⟩
    rw [mandateEventId_of_nextTick htick]
    exact hne

theorem revokedTargetsThread_revokedPayload (h : mandateTargetsThread started coordinates = true) :
    revokedTargetsThread (revokedPayload mandateEventId started) coordinates = true := by
  unfold mandateTargetsThread startedTargetsThread at h
  unfold revokedTargetsThread revokedPayload
  cases hthread : started.subject.threadId with
  | none => rfl
  | some threadId =>
    rw [hthread] at h
    exact h

/-! ### Continuations -/

theorem decideTurnContinuation_eq {read : Reader}
    (hthread : request.coordinates.threadId = coordinates.threadId)
    (hread : read (controlStreamId coordinates) = .ok events) :
    decideTurnContinuation codec read request = turnContinuationDecision codec request events := by
  have hstream : controlStreamId request.coordinates = controlStreamId coordinates := by
    unfold controlStreamId
    rw [hthread]
  unfold decideTurnContinuation
  rw [hstream, hread]
  rfl

theorem continues_of_accept {later : List EventRecord} {consumed : EventRecordId} {input : String}
    (h : turnContinuationDecision codec request (events ++ later) =
      .ok (.accept consumed mandateId input))
    (hlater : ∀ event ∈ later, event.kind = .mandateStarted → ∀ payload,
      codec.mandateStarted.fromValue event.payload = .ok payload → payload.mandateId ≠ mandateId) :
    ∃ mandate, Continues codec events mandateId request mandate := by
  obtain ⟨hnone, continuation, -, -, mandate, hlatest, rfl, hreason, hlapse⟩ :=
    turnContinuationDecision_accept.mp h
  refine ⟨mandate, fun event he => hnone event (List.mem_append_left _ he),
    latestMatchingMandate_of_append hlatest hlater, rfl, fun hbudget => ?_,
    mandateRejectionReason_none.mp (mandateRejectionReason_append.mp hreason).1⟩
  simp [mandateLapse, hbudget] at hlapse

theorem exists_fresh_turn (codec : ControlCodec) (events : List EventRecord) :
    ∃ turn, ∀ event ∈ events, ∀ payload,
      codec.turnContinueRequested.fromValue event.payload = .ok payload →
        payload.subject.parentTurnId ≠ turn := by
  let names := events.filterMap fun event =>
    (codec.turnContinueRequested.fromValue event.payload).toOption.map (·.subject.parentTurnId)
  obtain ⟨turn, hturn⟩ := Infinite.exists_notMem_finset names.toFinset
  refine ⟨turn, fun event he payload hreads heq => hturn ?_⟩
  rw [List.mem_toFinset]
  exact List.mem_filterMap.mpr ⟨event, he, by rw [hreads, ← heq]; rfl⟩

def retimed (request : TurnContinuationDecisionRequest) (mandate : MandateStartedPayload)
    (turn : String) : TurnContinuationDecisionRequest :=
  { request with
    subject := ⟨request.subject.loopId, turn⟩
    nowMs := mandate.expiresAtMs.getD 0
    completedContinuations := 0 }

def askPayload (request : TurnContinuationDecisionRequest) (turn : String) :
    TurnContinueRequestedPayload := ⟨⟨request.subject.loopId, turn⟩, request.snapshotId, "continue"⟩

def askEvent (codec : ControlCodec) (coordinates : ThreadCoordinates)
    (payload : TurnContinueRequestedPayload) (length : Nat) : EventRecord :=
  .fromNew (controlStreamId coordinates) (length + 1) (.witnessed (.counted 0) coordinates
    .turnContinueRequested (codec.turnContinueRequested.toValue payload))

theorem mandateLapse_retimed (hbudget : mandate.maxContinuations ≠ some 0) (turn : String) :
    mandateLapse codec (retimed request mandate turn) mandate = none := by
  have hwithin : mandate.maxContinuations.any
      (fun max => max ≤ (retimed request mandate turn).completedContinuations) = false := by
    cases hmax : mandate.maxContinuations with
    | none => rfl
    | some max =>
      have hpos : max ≠ 0 := fun hzero => hbudget (by rw [hmax, hzero])
      simpa [retimed] using hpos
  unfold mandateLapse
  rw [hwithin]
  cases hexpires : mandate.expiresAtMs with
  | none => rfl
  | some expiresAtMs => simp [retimed, hexpires]

theorem candidates_retimed (hcontinue : codec.turnContinueRequested.RoundTrips) {turn : String}
    (hturn : ∀ event ∈ events, ∀ payload,
      codec.turnContinueRequested.fromValue event.payload = .ok payload →
        payload.subject.parentTurnId ≠ turn) {event : EventRecord}
    (hevent : event = askEvent codec coordinates (askPayload request turn) events.length) :
    candidates (readContinuation codec (retimed request mandate turn)) (events ++ [event]) =
      [(event.id, askPayload request turn)] := by
  have hold : candidates (readContinuation codec (retimed request mandate turn)) events = [] := by
    refine List.eq_nil_iff_forall_not_mem.mpr fun found hfound => ?_
    obtain ⟨e, he, hread⟩ := mem_candidates.mp hfound
    obtain ⟨-, -, hreads, hsubject, -, -⟩ := readContinuation_candidate.mp hread
    exact hturn e he found.2 hreads (congrArg (·.parentTurnId) hsubject)
  have hnew : readContinuation codec (retimed request mandate turn) event =
      .candidate (event.id, askPayload request turn) := by
    subst hevent
    exact readContinuation_candidate.mpr ⟨rfl, .inl rfl, hcontinue _, rfl, rfl, rfl⟩
  rw [candidates_append, hold, List.nil_append]
  simp [candidates, hnew, Reading.candidate?]

theorem accept_of_continues (hcontinue : codec.turnContinueRequested.RoundTrips)
    (hthread : request.coordinates.threadId = coordinates.threadId)
    (h : Continues codec events mandateId request mandate) :
    ¬ Unaccepted codec coordinates mandateId events := by
  obtain ⟨turn, hturn⟩ := exists_fresh_turn codec events
  obtain ⟨event, hevent⟩ : ∃ event,
      event = askEvent codec coordinates (askPayload request turn) events.length := ⟨_, rfl⟩
  have hkind : ∀ e ∈ [event], e.kind = .turnContinueRequested := by
    intro e he
    rw [List.mem_singleton.mp he, hevent]
    rfl
  have hlatest : latestMatchingMandate codec (events ++ [event]) (retimed request mandate turn) =
      .ok (some mandate) := by
    rw [← h.latest]
    refine latestMatchingMandate_congr ?_ rfl rfl rfl
    have hnone : witnessedOf .mandateStarted [event] = [] := by
      refine witnessedOf_eq_nil fun e he hstart => ?_
      rw [hkind e he] at hstart
      cases hstart
    rw [witnessedOf_append, hnone, List.append_nil]
  have hreason : mandateRejectionReason codec (events ++ [event]) (retimed request mandate turn)
      mandate = .ok none := by
    refine mandateRejectionReason_append.mpr ⟨mandateRejectionReason_none.mpr h.unrevoked, ?_⟩
    refine mandateRejectionReason_none.mpr fun e he hrevoked => ?_
    rw [hkind e he] at hrevoked
    cases hrevoked
  have hwell : ∀ e ∈ events ++ [event], ¬ MalformedContinuation codec request.requestEventId e := by
    intro e he hmalformed
    rcases List.mem_append.mp he with hold | hnew
    · exact h.wellFormed e hold hmalformed
    · obtain ⟨err, herr⟩ := hmalformed.unread
      rw [List.mem_singleton.mp hnew, hevent] at herr
      cases (hcontinue (askPayload request turn)).symm.trans herr
  have haccept : turnContinuationDecision codec (retimed request mandate turn) (events ++ [event]) =
      .ok (.accept event.id mandateId "continue") :=
    turnContinuationDecision_accept.mpr ⟨hwell, _, candidates_retimed hcontinue hturn hevent, rfl,
      mandate, hlatest, h.same, hreason, mandateLapse_retimed h.budget turn⟩
  intro hnot
  refine hnot [event] (fun e he hstart => ?_) (fun _ => .ok (events ++ [event])) rfl
    (retimed request mandate turn) hthread event.id "continue" ?_
  · rw [hkind e he] at hstart
    cases hstart
  · have hthread' : (retimed request mandate turn).coordinates.threadId = coordinates.threadId := hthread
    exact (decideTurnContinuation_eq hthread' rfl).trans haccept

/-- **Nothing is accepted under the mandate's id** exactly when no request of the thread can
continue under it. -/
theorem unaccepted_iff (hcontinue : codec.turnContinueRequested.RoundTrips) :
    Unaccepted codec coordinates mandateId events ↔ ∀ request mandate,
      request.coordinates.threadId = coordinates.threadId →
        ¬ Continues codec events mandateId request mandate := by
  constructor
  · intro h request mandate hthread hcan
    exact accept_of_continues hcontinue hthread hcan h
  · intro h later hlater read hread request hthread consumed input haccept
    rw [decideTurnContinuation_eq hthread hread] at haccept
    obtain ⟨mandate, hcan⟩ := continues_of_accept haccept hlater
    exact h request mandate hthread hcan

theorem continues_concat (hrevoked : codec.mandateRevoked.RoundTrips) {draw : Draw} {length : Nat} :
    Continues codec (events ++ [revokedEvent codec draw coordinates mandateEventId started length])
        started.mandateId request mandate ↔
      Continues codec events started.mandateId request mandate ∧
      ¬ (started.subject.loopId = some request.subject.loopId ∧
        started.snapshotId = request.snapshotId) := by
  have hlatest : latestMatchingMandate codec
      (events ++ [revokedEvent codec draw coordinates mandateEventId started length]) request =
        latestMatchingMandate codec events request := by
    refine latestMatchingMandate_congr ?_ rfl rfl rfl
    rw [witnessedOf_append]
    exact List.append_nil _
  constructor
  · rintro ⟨hwell, hfound, hsame, hbudget, hunrevoked⟩
    refine ⟨⟨fun e he => hwell e (List.mem_append_left _ he), hlatest ▸ hfound, hsame, hbudget,
      fun e he => hunrevoked e (List.mem_append_left _ he)⟩, fun hmatch => ?_⟩
    obtain ⟨payload, hreads, hnot⟩ := hunrevoked _ (List.mem_append_right _ List.mem_cons_self) rfl rfl
    obtain rfl := Except.ok.inj ((hrevoked _).symm.trans hreads)
    simp [revokesFor, revokedPayload, hmatch.1, hmatch.2, hsame] at hnot
  · rintro ⟨⟨hwell, hfound, hsame, hbudget, hunrevoked⟩, hnomatch⟩
    refine ⟨fun e he => ?_, hlatest.trans hfound, hsame, hbudget, fun e he => ?_⟩
    · rcases List.mem_append.mp he with hold | hnew
      · exact hwell e hold
      · rintro ⟨hkind, -, -⟩
        rw [List.mem_singleton.mp hnew] at hkind
        cases hkind
    · rcases List.mem_append.mp he with hold | hnew
      · exact hunrevoked e hold
      · intro _ _
        rw [List.mem_singleton.mp hnew]
        refine ⟨_, hrevoked _, decide_eq_false fun hmatch => hnomatch ⟨hmatch.1, hmatch.2.1⟩⟩

end

/-! ### Everywhere -/

/-- **Revocation is effective exactly when the earlier revocations are.**  After a `revoke_mandate`
that succeeds the mandate is not listed, has no tick and lets no continuation pass, if and only if,
before it, a revocation of the mandate that the look-up takes for one is one that the list and the
continuations take, too. -/
theorem revocation_effective_iff (store : JournalStore σ) (hrevoked : codec.mandateRevoked.RoundTrips)
    (hcontinue : codec.turnContinueRequested.RoundTrips) {draw : Draw} {s s' : σ}
    {receipt : MandateRevokeReceipt}
    (h : exec (revokeMandate codec store.toEventStore draw coordinates mandateEventId) s =
      (.ok receipt, s')) {started : MandateStartedPayload}
    (hstart : codec.mandateStarted.fromValue receipt.startEvent.payload = .ok started) :
    Unlisted codec coordinates mandateEventId (store.events s' (controlStreamId coordinates)) ∧
      Unaccepted codec coordinates started.mandateId
        (store.events s' (controlStreamId coordinates)) ↔
    ListTakes codec coordinates (store.events s (controlStreamId coordinates)) mandateEventId started ∧
      ContinuationsTake codec coordinates (store.events s (controlStreamId coordinates))
        mandateEventId started := by
  obtain ⟨started', hstarted, hid, hcall⟩ := revokeMandate_ok h
  obtain rfl : started = started' := Except.ok.inj (hstart.symm.trans hstarted.reads)
  rw [unaccepted_iff hcontinue]
  rcases hcall with ⟨hfound, rfl⟩ | ⟨hnone, hreads, hevents⟩
  · -- nothing was written
    rw [unlisted_iff ((store.journal s').nodup _) hstarted hid]
    refine and_congr ⟨fun hlist _ hreadable => ?_, fun hlist hreadable => ?_⟩
      ⟨fun haccept request mandate hthread hcan => ?_, fun htake request mandate hthread hcan => ?_⟩
    · obtain ⟨event, payload, hrevocation, htargets, hrevokes⟩ := hlist hreadable
      rw [hid] at hrevokes
      exact ⟨event, payload, hrevocation, hrevokes, htargets⟩
    · obtain ⟨event, payload, hrevocation, hrevokes, htargets⟩ := hlist hfound hreadable
      rw [← hid] at hrevokes
      exact ⟨event, payload, hrevocation, htargets, hrevokes⟩
    · exact absurd hcan (haccept request mandate hthread)
    · exact (htake request mandate hthread hcan).1 hfound
  · -- the revocation that was written is one for the thread
    have hstarted' : Started codec coordinates (store.events s' (controlStreamId coordinates))
        ⟨receipt.startEvent, started⟩ := by
      obtain ⟨hmem, hkind, hread, htargets⟩ := hstarted
      rw [hevents]
      exact ⟨List.mem_append_left _ hmem, hkind, hread, htargets⟩
    rw [unlisted_iff ((store.journal s').nodup _) hstarted' hid, hevents]
    refine and_congr ⟨fun _ hfound => absurd hfound hnone, fun _ _ => ?_⟩ ?_
    · refine ⟨_, revokedPayload mandateEventId started,
        ⟨List.mem_append_right _ List.mem_cons_self, rfl, hrevoked _⟩,
        revokedTargetsThread_revokedPayload hstarted.targets, ?_⟩
      exact decide_eq_true (.inr rfl)
    · refine forall₂_congr fun request mandate => imp_congr_right fun _ => ?_
      rw [continues_concat hrevoked, not_and, not_not]
      exact imp_congr_right fun _ => ⟨fun hmatch => ⟨hnone, hmatch⟩, fun htake => htake.2⟩

/-! ### A sample thread -/

def sampleRevoking : ThreadCoordinates := .counted "user" 1

def sampleLoopMandate : MandateStartedPayload :=
  ⟨⟨some sampleRevoking.threadId.uuid.text, some "loop-1"⟩, "mandate-1", "snapshot-a", none, none,
    none, none, none, none, none⟩

/-- A revocation of the mandate by its id, whose subject is another thread and loop. -/
def sampleElsewhere : MandateRevokedPayload :=
  ⟨⟨some "another-thread", some "loop-2"⟩, "mandate-1", none, "snapshot-a", none⟩

def sampleControlStore (records : List NewEventRecord) : InMemoryState 0 :=
  ((inMemoryStore 0).appendEvents (controlStreamId sampleRevoking) records .empty).2

/-- The start of the mandate, and the revocation elsewhere. -/
def sampleStarted : NewEventRecord :=
  .witnessed (.counted 1) sampleRevoking .mandateStarted (Wire.started.toValue sampleLoopMandate)

def sampleRevoked : NewEventRecord :=
  .witnessed (.counted 2) sampleRevoking .mandateRevoked (Wire.revoked.toValue sampleElsewhere)

/-- `revoke_mandate` of the sample's mandate. -/
def sampleRevoke (records : List NewEventRecord) :
    VerletResult MandateRevokeReceipt × InMemoryState 0 :=
  exec (revokeMandate (.wire fun _ => none) (inMemoryStore 0).toEventStore (.counted 3) sampleRevoking
    (Draw.counted 1).eventId) (sampleControlStore records)

def sampleAsk : TurnContinuationDecisionRequest :=
  ⟨sampleRevoking, ⟨"loop-1", "turn-1"⟩, "snapshot-a", (Draw.counted 9).eventId, 0, 0⟩

/-- The control stream after `revoke_mandate`. -/
def sampleControlEvents (records : List NewEventRecord) : List EventRecord :=
  (inMemoryStore 0).events (sampleRevoke records).2 (controlStreamId sampleRevoking)

set_option maxRecDepth 100000 in
/-- A revocation that names another thread and loop makes `revoke_mandate` answer that the mandate is
already revoked; the mandate is still listed as active, and a continuation is accepted under it. -/
theorem revoked_elsewhere_survives :
    (·.status) <$> (sampleRevoke [sampleStarted, sampleRevoked]).1 = .ok .alreadyRevoked ∧
    (·.map (·.event.id)) <$> listActiveMandates (.wire fun _ => none)
      (fun _ => .ok (sampleControlEvents [sampleStarted, sampleRevoked])) sampleRevoking =
        .ok [(Draw.counted 1).eventId] ∧
    decideTurnContinuation (.wire fun _ => none)
      (fun _ => .ok (sampleControlEvents [sampleStarted, sampleRevoked] ++
        [askEvent (.wire fun _ => none) sampleRevoking (askPayload sampleAsk "turn-1") 2])) sampleAsk =
        .ok (.accept (Draw.counted 0).eventId "mandate-1" "continue") := by
  decide

set_option maxRecDepth 100000 in
/-- The first revocation of a mandate is written, and is effective. -/
theorem revocation_effective_iff_first :
    (·.status) <$> (sampleRevoke [sampleStarted]).1 = .ok .revoked ∧
    Unlisted (.wire fun _ => none) sampleRevoking (Draw.counted 1).eventId
      (sampleControlEvents [sampleStarted]) ∧
    Unaccepted (.wire fun _ => none) sampleRevoking "mandate-1"
      (sampleControlEvents [sampleStarted]) := by
  have hstatus : (·.status) <$> (sampleRevoke [sampleStarted]).1 = .ok .revoked := by decide
  refine ⟨hstatus, ?_⟩
  have hbefore : (inMemoryStore 0).events (sampleControlStore [sampleStarted])
      (controlStreamId sampleRevoking) =
        [.fromNew (controlStreamId sampleRevoking) 1 sampleStarted] := by decide
  have hpayload : ∀ event ∈ [EventRecord.fromNew (controlStreamId sampleRevoking) 1 sampleStarted],
      ∀ payload, Wire.started.fromValue event.payload = .ok payload → payload = sampleLoopMandate := by
    intro event he payload hreads
    obtain rfl := List.mem_singleton.mp he
    exact Except.ok.inj (hreads.symm.trans (Wire.wire_started sampleLoopMandate))
  cases hresult : (sampleRevoke [sampleStarted]).1 with
  | error e =>
    rw [hresult] at hstatus
    cases hstatus
  | ok receipt =>
    have hcall : exec (revokeMandate (.wire fun _ => none) (inMemoryStore 0).toEventStore (.counted 3)
        sampleRevoking (Draw.counted 1).eventId) (sampleControlStore [sampleStarted]) =
          (.ok receipt, (sampleRevoke [sampleStarted]).2) := Prod.ext hresult rfl
    obtain ⟨started, hstarted, -, -⟩ := revokeMandate_ok hcall
    have hmem := hstarted.mem
    rw [hbefore] at hmem
    obtain rfl := hpayload _ hmem started hstarted.reads
    refine (revocation_effective_iff (inMemoryStore 0) Wire.wire_revoked Wire.wire_continueRequested
      hcall hstarted.reads).mpr ?_
    rw [hbefore]
    have hnone : ¬ Found (.wire fun _ => none)
        [.fromNew (controlStreamId sampleRevoking) 1 sampleStarted] (Draw.counted 1).eventId
        sampleLoopMandate := by
      rintro ⟨event, payload, ⟨he, hkind, -⟩, -⟩
      rw [List.mem_singleton.mp he] at hkind
      cases hkind
    refine ⟨fun hfound => absurd hfound hnone, fun request mandate _ hcan => ?_⟩
    obtain ⟨⟨event, he, -, -, hreads⟩, hloop, hsnapshot, -⟩ := latestMatchingMandate_some hcan.latest
    obtain rfl := hpayload event he mandate hreads
    exact ⟨hnone, hloop, hsnapshot⟩

end Verlet.Daemon
