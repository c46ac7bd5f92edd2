import Verlet.Kernel.ControlDecision.ToolGate

/-!
# Kernel — Control decisions — Continuations

What `decide_turn_continuation` accepts, as facts about the stream: one request to continue, none
malformed that names it, and the latest mandate for its loop and snapshot neither revoked nor lapsed.
-/

namespace Verlet.Kernel
open Support History

variable {codec : ControlCodec} {request : TurnContinuationDecisionRequest}
  {events : List EventRecord}

variable {event : EventRecord}

theorem mem_witnessedOf {kind : EventKind} :
    event ∈ witnessedOf kind events ↔
      event ∈ events ∧ event.kind = kind ∧ event.origin = .witnessed := by
  simp [witnessedOf]

theorem witnessedOf_append (kind : EventKind) (later : List EventRecord) :
    witnessedOf kind (events ++ later) = witnessedOf kind events ++ witnessedOf kind later :=
  List.filter_append _ _

variable {later : List EventRecord}

theorem witnessedOf_eq_nil {kind : EventKind} (h : ∀ event ∈ later, event.kind ≠ kind) :
    witnessedOf kind later = [] := by
  refine List.filter_eq_nil_iff.mpr fun event he hkind => ?_
  exact h event he (of_decide_eq_true hkind).1

/-! ### Revocations -/

variable {mandate : MandateStartedPayload}

theorem firstRevocation_none :
    firstRevocation codec request mandate events = .ok none ↔
      ∀ event ∈ events, ∃ payload, codec.mandateRevoked.fromValue event.payload = .ok payload ∧
        revokesFor request mandate payload = false := by
  induction events with
  | nil => simp [firstRevocation]
  | cons event events ih =>
    rw [firstRevocation, bind_ok, List.forall_mem_cons, ← ih]
    constructor
    · rintro ⟨payload, hdecode, hrest⟩
      by_cases hrevokes : revokesFor request mandate payload = true
      · rw [if_pos hrevokes] at hrest
        cases hrest
      · rw [if_neg hrevokes] at hrest
        exact ⟨⟨payload, decodeOr_ok.mp hdecode, Bool.eq_false_iff.mpr hrevokes⟩, hrest⟩
    · rintro ⟨⟨payload, hdecode, hrevokes⟩, hrest⟩
      exact ⟨payload, decodeOr_ok.mpr hdecode, by rw [hrevokes]; exact hrest⟩

/-- **No witnessed revocation for the request's loop and snapshot is of the mandate.** -/
theorem mandateRejectionReason_none :
    mandateRejectionReason codec events request mandate = .ok none ↔
      ∀ event ∈ events, event.kind = .mandateRevoked → event.origin = .witnessed →
        ∃ payload, codec.mandateRevoked.fromValue event.payload = .ok payload ∧
          revokesFor request mandate payload = false := by
  rw [mandateRejectionReason, firstRevocation_none]
  constructor
  · intro h event he hkind horigin
    exact h event (mem_witnessedOf.mpr ⟨he, hkind, horigin⟩)
  · intro h event he
    obtain ⟨hmem, hkind, horigin⟩ := mem_witnessedOf.mp he
    exact h event hmem hkind horigin

theorem mandateRejectionReason_append :
    mandateRejectionReason codec (events ++ later) request mandate = .ok none ↔
      mandateRejectionReason codec events request mandate = .ok none ∧
      mandateRejectionReason codec later request mandate = .ok none := by
  simp only [mandateRejectionReason_none, List.forall_mem_append]

/-! ### The mandate -/

theorem foldl_maxByKey_mem {α : Type} (l : List (Int × α)) (x : Int × α) :
    l.foldl (fun best y => if best.1 ≤ y.1 then y else best) x ∈ x :: l := by
  induction l generalizing x with
  | nil => exact List.mem_cons_self
  | cons y l ih =>
    rw [List.foldl_cons]
    by_cases hle : x.1 ≤ y.1
    · rw [if_pos hle]
      exact .tail _ (ih y)
    · rw [if_neg hle]
      rcases List.mem_cons.mp (ih x) with heq | hlater
      · rw [heq]
        exact List.mem_cons_self
      · exact .tail _ (.tail _ hlater)

theorem mem_of_maxByKey {α : Type} {l : List (Int × α)} {best : Int × α} (h : maxByKey l = some best) :
    best ∈ l := by
  cases l with
  | nil => cases h
  | cons x l =>
    obtain rfl := Option.some.inj h
    exact foldl_maxByKey_mem l x

theorem maxByKey_of_append {α : Type} {l later : List (Int × α)} {best : Int × α}
    (h : maxByKey (l ++ later) = some best) (hnot : best ∉ later) : maxByKey l = some best := by
  cases l with
  | nil => exact absurd (mem_of_maxByKey h) hnot
  | cons x l =>
    rw [List.cons_append] at h
    obtain rfl := Option.some.inj h
    rw [List.foldl_append] at hnot ⊢
    rcases List.mem_cons.mp (foldl_maxByKey_mem later _) with heq | hlater
    · rw [heq]
      rfl
    · exact absurd hlater hnot

/-- **The latest mandate** is that of a witnessed start for the loop, snapshot and thread. -/
theorem latestMatchingMandate_some
    (h : latestMatchingMandate codec events request = .ok (some mandate)) :
    (∃ event ∈ events, event.kind = .mandateStarted ∧ event.origin = .witnessed ∧
      codec.mandateStarted.fromValue event.payload = .ok mandate) ∧
    mandate.subject.loopId = some request.subject.loopId ∧
    mandate.snapshotId = request.snapshotId ∧
    startedTargetsThread mandate request.coordinates = true := by
  obtain ⟨started, hstarted, hrest⟩ := bind_ok.mp h
  obtain ⟨⟨sequence, payload⟩, hbest, heq⟩ := Option.map_eq_some_iff.mp (Except.ok.inj hrest)
  obtain rfl : payload = mandate := heq
  obtain ⟨hmem, hmatch⟩ := List.mem_filter.mp (mem_of_maxByKey hbest)
  obtain ⟨event, hevent, hread⟩ := (mem_of_mapM_ok hstarted).mp hmem
  obtain ⟨payload', hdecode, hpair⟩ := bind_ok.mp hread
  cases hpair
  obtain ⟨he, hkind, horigin⟩ := mem_witnessedOf.mp hevent
  exact ⟨⟨event, he, hkind, horigin, decodeOr_ok.mp hdecode⟩, of_decide_eq_true hmatch⟩

theorem latestMatchingMandate_of_append
    (h : latestMatchingMandate codec (events ++ later) request = .ok (some mandate))
    (hlater : ∀ event ∈ later, event.kind = .mandateStarted → ∀ payload,
      codec.mandateStarted.fromValue event.payload = .ok payload →
        payload.mandateId ≠ mandate.mandateId) :
    latestMatchingMandate codec events request = .ok (some mandate) := by
  obtain ⟨started, hstarted, hrest⟩ := bind_ok.mp h
  rw [witnessedOf_append, List.mapM_append] at hstarted
  obtain ⟨first, hfirst, hstarted⟩ := bind_ok.mp hstarted
  obtain ⟨second, hsecond, hstarted⟩ := bind_ok.mp hstarted
  obtain rfl := Except.ok.inj hstarted
  obtain ⟨⟨sequence, payload⟩, hbest, heq⟩ := Option.map_eq_some_iff.mp (Except.ok.inj hrest)
  obtain rfl : payload = mandate := heq
  refine bind_ok.mpr ⟨first, hfirst, ?_⟩
  rw [List.filter_append] at hbest
  refine congrArg (fun best => Except.ok (Option.map (·.2) best))
    (maxByKey_of_append hbest fun hmem => ?_)
  obtain ⟨event, hevent, hread⟩ := (mem_of_mapM_ok hsecond).mp (List.mem_filter.mp hmem).1
  obtain ⟨payload', hdecode, hpair⟩ := bind_ok.mp hread
  cases hpair
  obtain ⟨he, hkind, -⟩ := mem_witnessedOf.mp hevent
  exact hlater event he hkind payload (decodeOr_ok.mp hdecode) rfl

theorem latestMatchingMandate_congr {events' : List EventRecord}
    {request' : TurnContinuationDecisionRequest}
    (hstarts : witnessedOf .mandateStarted events' = witnessedOf .mandateStarted events)
    (hloop : request'.subject.loopId = request.subject.loopId)
    (hsnapshot : request'.snapshotId = request.snapshotId)
    (hthread : request'.coordinates.threadId = request.coordinates.threadId) :
    latestMatchingMandate codec events' request' = latestMatchingMandate codec events request := by
  unfold latestMatchingMandate startedTargetsThread
  rw [hstarts, hloop, hsnapshot, hthread]

/-! ### The decision -/

structure MalformedContinuation (codec : ControlCodec) (requestEventId : EventRecordId)
    (event : EventRecord) : Prop where
  kind : event.kind = .turnContinueRequested
  unread : ∃ err, codec.turnContinueRequested.fromValue event.payload = .error err
  reaches : requestEventId ∈ event.provenance.sourceEventIds

theorem readContinuation_answered :
    (∃ d, readContinuation codec request event = .answered d) ↔
      MalformedContinuation codec request.requestEventId event := by
  unfold readContinuation
  constructor
  · rintro ⟨d, h⟩
    split at h
    · rename_i hkind
      obtain ⟨hreaches, err, herr, -⟩ := readFact_answered.mp h
      exact ⟨hkind, ⟨err, herr⟩, hreaches⟩
    · cases h
  · rintro ⟨hkind, ⟨err, herr⟩, hreaches⟩
    rw [if_pos hkind]
    exact ⟨_, readFact_answered.mpr ⟨hreaches, err, herr, rfl⟩⟩

theorem readContinuation_candidate {found : EventRecordId × TurnContinueRequestedPayload} :
    readContinuation codec request event = .candidate found ↔
      event.kind = .turnContinueRequested ∧ Fresh request.requestEventId event ∧
      codec.turnContinueRequested.fromValue event.payload = .ok found.2 ∧
      found.2.subject = request.subject ∧ found.2.snapshotId = request.snapshotId ∧
      found.1 = event.id := by
  unfold readContinuation
  split
  · rename_i hkind
    rw [readFact_candidate]
    constructor
    · rintro ⟨hfresh, payload, hreads, hconcerns, rfl⟩
      obtain ⟨hsubject, hsnapshot⟩ := of_decide_eq_true hconcerns
      exact ⟨hkind, hfresh, hreads, hsubject, hsnapshot, rfl⟩
    · rintro ⟨-, hfresh, hreads, hsubject, hsnapshot, hid⟩
      exact ⟨hfresh, found.2, hreads, decide_eq_true ⟨hsubject, hsnapshot⟩, Prod.ext hid.symm rfl⟩
  · rename_i hkind
    exact ⟨fun h => (nomatch h), fun h => absurd h.1 hkind⟩

theorem judgeContinuation_accept {consumed consumed' : EventRecordId}
    {continuation : TurnContinueRequestedPayload} {mandateId input : String} :
    judgeContinuation codec events request consumed continuation =
        .ok (.accept consumed' mandateId input) ↔
      consumed = consumed' ∧ continuation.nextTurnInput = input ∧
      ∃ mandate, latestMatchingMandate codec events request = .ok (some mandate) ∧
        mandate.mandateId = mandateId ∧
        mandateRejectionReason codec events request mandate = .ok none ∧
        mandateLapse codec request mandate = none := by
  unfold judgeContinuation
  rw [bind_ok]
  constructor
  · rintro ⟨found, hfound, hrest⟩
    cases found with
    | none => cases hrest
    | some mandate =>
      obtain ⟨reason, hreason, hrest⟩ := bind_ok.mp hrest
      cases reason with
      | some reason => cases hrest
      | none =>
        simp only at hrest
        split at hrest
        · cases hrest
        · rename_i hlapse
          cases hrest
          exact ⟨rfl, rfl, mandate, hfound, rfl, hreason, hlapse⟩
  · rintro ⟨rfl, rfl, mandate, hfound, rfl, hreason, hlapse⟩
    refine ⟨some mandate, hfound, bind_ok.mpr ⟨none, hreason, ?_⟩⟩
    simp only [hlapse]
    rfl

/-- **A continuation is accepted** when the stream has one request for it and no malformed one that
names it, and the latest mandate is neither revoked nor lapsed. -/
theorem turnContinuationDecision_accept {consumed : EventRecordId} {mandateId input : String} :
    turnContinuationDecision codec request events = .ok (.accept consumed mandateId input) ↔
      (∀ event ∈ events, ¬ MalformedContinuation codec request.requestEventId event) ∧
      ∃ continuation,
        candidates (readContinuation codec request) events = [(consumed, continuation)] ∧
        continuation.nextTurnInput = input ∧
        ∃ mandate, latestMatchingMandate codec events request = .ok (some mandate) ∧
          mandate.mandateId = mandateId ∧
          mandateRejectionReason codec events request mandate = .ok none ∧
          mandateLapse codec request mandate = none := by
  have hmalformed : (∀ event ∈ events, ∀ d, readContinuation codec request event ≠ .answered d) ↔
      ∀ event ∈ events, ¬ MalformedContinuation codec request.requestEventId event := by
    simp only [← readContinuation_answered, not_exists, ne_eq]
  unfold turnContinuationDecision
  constructor
  · intro h
    split at h
    · rename_i d hscan
      -- the scan answers with a rejection
      obtain ⟨event, -, hread⟩ := scan_error hscan
      unfold readContinuation at hread
      split at hread
      · obtain ⟨-, err, -, rfl⟩ := readFact_answered.mp hread
        cases h
      · cases hread
    · cases h
    · rename_i first continuation hscan
      obtain ⟨hnone, hfound⟩ := scan_ok.mp hscan
      obtain ⟨rfl, hinput, hmandate⟩ := judgeContinuation_accept.mp h
      exact ⟨hmalformed.mp hnone, continuation, hfound.symm, hinput, hmandate⟩
    · cases h
  · rintro ⟨hnone, continuation, hfound, hinput, hmandate⟩
    rw [scan_ok.mpr ⟨hmalformed.mpr hnone, hfound.symm⟩]
    exact judgeContinuation_accept.mpr ⟨rfl, hinput, hmandate⟩

end Verlet.Kernel
