import Verlet.RemoteStore.Propagation.Protocol

/-!
# Remote store — Propagation — Requests

The endpoint's side of the protocol: whatever else happens at the daemon while it serves a request of
the child, the request asks of the stores what it may, and answers what the child counts on.
-/

namespace Verlet.RemoteStore
open Support History

variable {Text : Type} {streamId : EventStreamId} {log : List EventRecord} {strict : Prop}

/-! ### Validation -/

theorem validateEnvelope_ok {request : SyncPushRequestV1} {index : Nat} {event : EventRecord}
    {record : NewEventRecord} (hs : event.streamId = streamId)
    (h : validateEnvelope request index event.toStreamRecordV1 = .ok record) :
    EventRecord.fromNew streamId event.sequence record = event ∧
      request.expectedNextSequence + index < 2 ^ 63 := by
  have hkind : EventKind.tryFrom event.toStreamRecordV1.kind = some event.kind :=
    EventKind.tryFrom_asRef event.kind
  unfold validateEnvelope at h
  cases hsum : checkedAdd request.expectedNextSequence index with
  | none =>
    rw [hsum] at h
    cases h
  | some sequence =>
    simp only [hsum, hkind, bind_ok, exists_unit_ok, require_ok, pure_ok] at h
    obtain ⟨_, -, -, -, -, -, _, rfl, -, -, rfl⟩ := h
    subst hs
    refine ⟨rfl, ?_⟩
    unfold checkedAdd at hsum
    split_ifs at hsum with hrange
    exact hrange.2

theorem validateEnvelopes_ok {request : SyncPushRequestV1} {events : List EventRecord}
    (start : Nat) {index : Nat} {records : List NewEventRecord}
    (hplaced : ∀ (i : Nat) (event : EventRecord), events[i]? = some event →
      event.streamId = streamId ∧ event.sequence = start + index + i + 1)
    (h : validateEnvelopes request index (events.map (·.toStreamRecordV1)) = .ok records) :
    numbered streamId (start + index) records = events ∧
      ∀ i : Nat, i < events.length → request.expectedNextSequence + (index + i : Nat) < 2 ^ 63 := by
  induction events generalizing index records with
  | nil =>
    cases h
    exact ⟨rfl, fun i hi => absurd hi (Nat.not_lt_zero i)⟩
  | cons event events ih =>
    simp only [List.map_cons, validateEnvelopes, bind_ok, pure_ok] at h
    obtain ⟨record, hfirst, rest, hrest, rfl⟩ := h
    obtain ⟨hstream, hsequence⟩ := hplaced 0 event rfl
    obtain ⟨hevent, hfits⟩ := validateEnvelope_ok hstream hfirst
    obtain ⟨hevents, hrestfits⟩ := @ih (index + 1) rest (fun i event' he => by
      obtain ⟨hs, hq⟩ := hplaced (i + 1) event' he
      refine ⟨hs, hq.trans ?_⟩
      push_cast
      ring) hrest
    refine ⟨?_, fun i hi => ?_⟩
    · rw [numbered, show start + index + 1 = start + (index + 1) from rfl, hevents]
      rw [hsequence] at hevent
      exact congrArg (· :: events) hevent
    · cases i with
      | zero => exact hfits
      | succ i =>
        have := hrestfits i (Nat.lt_of_succ_lt_succ hi)
        rwa [show index + (i + 1) = index + 1 + i by omega]

/-- **A batch of the stream that validates** is what the child reads, within `i64`. -/
theorem validatePushRequest_batch (hp : Placed streamId log) {request : SyncPushRequestV1}
    {start : Nat} {v : View log} (h : IsBatch streamId log request start v)
    {records : List NewEventRecord} (hok : validatePushRequest request = .ok records) :
    records.length = request.records.length ∧
      numbered streamId start records = batchAt log start records.length ∧
      start + request.records.length < 2 ^ 63 := by
  simp only [validatePushRequest, bind_ok, exists_unit_ok, require_ok] at hok
  obtain ⟨-, -, hne, hall⟩ := hok
  have hbound : start + request.records.length ≤ log.length := h.held.trans v.child_le
  rw [h.records] at hall
  obtain ⟨hnumbered, hfits⟩ := validateEnvelopes_ok start
    (fun i event he => by
      rw [batchAt, List.getElem?_take] at he
      split at he
      · rw [List.getElem?_drop] at he
        obtain ⟨hs, hq⟩ := hp _ event he
        refine ⟨hs, hq.trans ?_⟩
        push_cast
        ring
      · cases he) hall
  have hlen : records.length = request.records.length := by
    rw [← @History.length_numbered streamId (start + 0) records, hnumbered,
      length_batchAt hbound]
  refine ⟨hlen, ?_, ?_⟩
  · rw [hlen]
    exact hnumbered
  · have hpos : 0 < request.records.length := List.length_pos_iff.mpr hne
    have hlast := hfits (request.records.length - 1) (by rw [length_batchAt hbound]; omega)
    rw [h.expected] at hlast
    have hlast' : (start : Int) + 1 + (0 + (request.records.length - 1) : Nat) < 2 ^ 63 := hlast
    omega

/-! ### Requests -/

section Requests

variable {endpoint : SyncEndpoint Text} {token : String} {request : SyncPushRequestV1}
  {v : View log}

theorem EndpointCall.meets_of_same {α : Type} {call : EndpointCall}
    {rest : call.Reply → EndpointM α} {Q : α → View log → Prop}
    (hask : ∀ v', EndpointAsks log streamId call v')
    (hsame : ∀ v' answer v'', EndpointAnswers log strict call v' answer v'' → v'' = v')
    (h : ∀ answer v', v.Grows v' →
      (rest answer).Meets View.Grows (EndpointAsks log streamId) (EndpointAnswers log strict) Q v') :
    (EndpointCall.ask call >>= rest).Meets View.Grows (EndpointAsks log streamId)
      (EndpointAnswers log strict) Q v := by
  refine Proc.Meets.perform fun v₁ hv₁ => ⟨hask v₁, fun answer v₂ hanswer => ?_⟩
  obtain rfl := hsame _ _ _ hanswer
  exact h answer v₂ hv₁

theorem reject_meets (reason : SyncPushRejectionReason)
    {Q : VerletResult SyncPushOutcome → View log → Prop}
    (h : ∀ (rejection : SyncPushRejectionV1) (v' : View log), rejection.reason = reason →
      v.Grows v' → Q (.ok (.rejected rejection)) v') :
    (reject endpoint request reason).Meets View.Grows (EndpointAsks log streamId)
      (EndpointAnswers log strict) Q v := by
  refine EndpointCall.meets_of_same (fun _ => trivial) (fun _ _ _ h => h) fun nowMs v₁ hv₁ => ?_
  refine EndpointCall.meets_of_same (fun _ => trivial) (fun _ _ _ h => h) fun _ v₂ hv₂ => ?_
  intro v₃ hv₃
  exact h _ v₃ rfl (.trans _ _ _ hv₁ (.trans _ _ _ hv₂ hv₃))

theorem PushAnswers.of_refused {start : Nat} {rejection : SyncPushRejectionV1}
    (h : ∀ actual, rejection.reason ≠ .sequenceFenceConflict actual) :
    PushAnswers log strict request start (.ok (.rejected rejection)) v where
  accepted := by
    rintro ⟨ack, ⟨⟩⟩
  conflict := by
    rintro _ actual ⟨⟩ hreason
    exact absurd hreason (h actual)

theorem PushAnswers.of_error {start : Nat} (error : VerletError) :
    PushAnswers log strict request start (.error error) v where
  accepted := by
    rintro ⟨ack, ⟨⟩⟩
  conflict := by
    rintro _ _ ⟨⟩

/-- **The fences and the append.** -/
theorem pushRecords_meets {start : Nat} (hbatch : IsBatch streamId log request start v)
    {records : List NewEventRecord} (hlen : records.length = request.records.length)
    (hrecords : numbered streamId start records = batchAt log start records.length)
    (hfits : start + request.records.length < 2 ^ 63) :
    (pushRecords endpoint request records).Meets View.Grows (EndpointAsks log streamId)
      (EndpointAnswers log strict) (PushAnswers log strict request start) v := by
  refine Proc.Meets.perform fun v₁ hv₁ => ⟨?_, fun answer v₂ hanswer => ?_⟩
  · have hb := hbatch.mono hv₁
    exact ⟨hb.stream, start, hb.expected, hrecords, hb.known, hlen ▸ hb.held⟩
  · obtain ⟨happended, hconflict⟩ := hanswer.2 start hbatch.expected
    rw [hlen] at happended hconflict
    rcases answer with error | ack | fence | actual
    · exact fun v₃ _ => .of_error error
    · intro v₃ hv₃
      refine ⟨fun _ => ⟨(happended ⟨ack, rfl⟩).trans hv₃.parent, hfits⟩, ?_⟩
      rintro _ _ ⟨⟩
    · refine reject_meets _ fun rejection v₃ hreason _ => .of_refused fun actual => ?_
      rw [hreason]
      exact SyncPushRejectionReason.noConfusion
    · refine reject_meets _ fun rejection v₃ hreason hv₃ => ⟨?_, ?_⟩
      · rintro ⟨ack, ⟨⟩⟩
      · intro _ _ _ _
        exact ⟨fun hstrict => (hconflict ⟨actual, rfl⟩ hstrict).trans hv₃.parent, hfits⟩

theorem push_meets (hp : Placed streamId log) {start : Nat}
    (hbatch : IsBatch streamId log request start v) :
    (push endpoint token request).Meets View.Grows (EndpointAsks log streamId)
      (EndpointAnswers log strict) (PushAnswers log strict request start) v := by
  refine EndpointCall.meets_of_same (fun _ => trivial) (fun _ _ _ h => h) fun identity v₁ hv₁ => ?_
  have hrefuse : ∀ reason : SyncPushRejectionReason,
      (∀ actual, reason ≠ .sequenceFenceConflict actual) →
      (reject endpoint request reason).Meets View.Grows (EndpointAsks log streamId)
        (EndpointAnswers log strict) (PushAnswers log strict request start) v₁ := by
    intro reason hreason
    refine reject_meets reason fun rejection v₂ hr _ => .of_refused fun actual => ?_
    rw [hr]
    exact hreason actual
  cases identity with
  | none => exact hrefuse _ fun _ => SyncPushRejectionReason.noConfusion
  | some identity =>
    dsimp only
    split
    · exact hrefuse _ fun _ => SyncPushRejectionReason.noConfusion
    · split
      · exact hrefuse _ fun _ => SyncPushRejectionReason.noConfusion
      · cases hv : validatePushRequest request with
        | error detail => exact hrefuse _ fun _ => SyncPushRejectionReason.noConfusion
        | ok records =>
          obtain ⟨hlen, hrecords, hfits⟩ := validatePushRequest_batch hp hbatch hv
          exact pushRecords_meets (hbatch.mono hv₁) hlen hrecords hfits

theorem isPrefix_of_target {stream : EventStreamId}
    (h : (remoteIngressQueueTarget stream).isSome = true) :
    syncIngressQueueStreamPrefix.toList <+: stream.text.toList := by
  unfold remoteIngressQueueTarget at h
  cases hdrop : stream.text.toList.dropPrefix? syncIngressQueueStreamPrefix.toList with
  | none =>
    rw [hdrop] at h
    cases h
  | some rest =>
    simp only [List.dropPrefix?_eq_some_iff, beq_iff_eq] at hdrop
    obtain ⟨_, hrest, rfl⟩ := hdrop
    exact ⟨rest, hrest.symm⟩

/-- **A pull from a place the parent has reached.** -/
theorem pullAfter_meets (hqueue : strict → ¬ syncIngressQueueStreamPrefix.toList <+:
      streamId.text.toList) {cursor : Option StreamCursorV1}
    (hask : SyncAsks log streamId (.pull streamId cursor) v) :
    (pullAfter token streamId cursor).Meets View.Grows (EndpointAsks log streamId)
      (EndpointAnswers log strict) (PullAnswers log strict cursor v) v := by
  obtain ⟨-, start, hcursor, hstart⟩ := hask
  have hfail : ∀ (error : VerletError) (v' : View log),
      (strict → error = notAuthorized) → PullAnswers log strict cursor v (.error error) v' := by
    intro error v' herror
    refine ⟨?_, ?_⟩
    · rintro _ ⟨⟩
    · rintro hstrict _ ⟨⟩
      exact .inl (herror hstrict)
  refine EndpointCall.meets_of_same (fun _ => trivial) (fun _ _ _ h => h) fun identity v₁ hv₁ => ?_
  cases identity with
  | none => exact fun v₂ _ => hfail _ v₂ fun _ => rfl
  | some identity =>
    dsimp only
    split
    · exact fun v₂ _ => hfail _ v₂ fun _ => rfl
    · split
      -- the queue's own stream
      · rename_i htarget
        have hlax : ¬ strict := fun hstrict => hqueue hstrict (isPrefix_of_target htarget)
        intro v₂ hv₂
        refine ⟨trivial, fun answer v₃ hanswer => ?_⟩
        intro v₄ hv₄
        exact ⟨fun records hrecords => .inr ⟨hlax, hanswer.2 records hrecords⟩,
          fun hstrict => absurd hstrict hlax⟩
      · split
        · rename_i hpre
          exact fun v₂ _ => hfail _ v₂ fun hstrict => absurd hpre (hqueue hstrict)
        · intro v₂ hv₂
          have hv₁₂ : v.Grows v₂ := .trans _ _ _ hv₁ hv₂
          refine ⟨⟨rfl, start, hcursor, hstart.trans hv₁₂.parent⟩, fun answer v₃ hanswer => ?_⟩
          obtain ⟨rfl, hread⟩ := hanswer
          intro v₄ hv₄
          refine ⟨fun records hrecords => .inl ⟨v₃.parent, hv₁₂.parent, hv₄.parent, ?_⟩, ?_⟩
          · intro start' hcursor' hstart'
            rw [hread start' hcursor' (hstart'.trans hv₁₂.parent)] at hrecords
            exact (Except.ok.inj hrecords).symm
          · intro _ error herror
            rw [hread start hcursor (hstart.trans hv₁₂.parent)] at herror
            cases herror

/-- **Every request of the child keeps to the protocol.** -/
theorem handler_meets (hp : Placed streamId log) (hqueue : strict →
      ¬ syncIngressQueueStreamPrefix.toList <+: streamId.text.toList) (call : SyncCall)
    (hask : SyncAsks log streamId call v) :
    (call.handler endpoint token).Meets View.Grows (EndpointAsks log streamId)
      (EndpointAnswers log strict) (SyncAnswers log strict call v) v := by
  cases call with
  | renew =>
    refine EndpointCall.meets_of_same (fun _ => trivial) (fun _ _ _ h => h) fun identity v₁ _ => ?_
    cases identity with
    | none => exact fun _ _ => trivial
    | some identity =>
      exact EndpointCall.meets_of_same (fun _ => trivial) (fun _ _ _ h => h)
        fun _ _ _ _ _ => trivial
  | push request =>
    obtain ⟨start, hbatch⟩ := hask
    -- the expected sequence fixes the batch's place
    have hpost : ∀ (answer : VerletResult SyncPushOutcome) (v' : View log),
        PushAnswers log strict request start answer v' →
          SyncAnswers log strict (.push request) v answer v' := by
      intro answer v' hanswer start' hexpected
      have hstart : ((start' : Int) + 1) = start + 1 := hexpected.symm.trans hbatch.expected
      obtain rfl : start' = start := by omega
      exact hanswer
    exact (push_meets hp hbatch).imp hpost
  | pull stream cursor =>
    obtain rfl := hask.1
    exact pullAfter_meets hqueue hask

end Requests

end Verlet.RemoteStore
