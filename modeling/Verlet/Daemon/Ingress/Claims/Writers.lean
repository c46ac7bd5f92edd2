import Verlet.Daemon.Ingress.Claims.Races

/-!
# Daemon — Ingress — Claims — Writers

What each writer of claims and settles asks and answers, whatever the others do between its calls: a
claiming writer makes its claim or is shown the one that covers its envelopes, a settling writer ends
with the settle of its claim.
-/

namespace Verlet.Daemon
open Support Kernel Io History

/-! ### What a writer is shown -/

def IngressOutcomeState.Of (codec : OutcomeCodec) (events : List EventRecord) (claim : EventRecord) :
    IngressOutcomeState → Prop
  | .missing => False
  | .claimed claim' payload => claim' = claim ∧ Claims codec claim payload
  | .settled payload settle => Claims codec claim payload ∧ settle ∈ events ∧
      ∃ settlePayload, Settles codec settle settlePayload ∧ settlePayload.claimEventId = claim.id

/-- The events have a claim that covers the envelopes, and this is its outcome. -/
def FoundState (codec : OutcomeCodec) (events : List EventRecord) (ids : List String)
    (state : IngressOutcomeState) : Prop :=
  ∃ claim ∈ events, state.Of codec events claim ∧ CoveredBy codec events ids claim.id

variable {codec : OutcomeCodec} {seen events : List EventRecord} {ids : List String}
  {state : IngressOutcomeState}

theorem FoundState.of_shows (h : Shows codec seen ids state) (hstate : state ≠ .missing)
    (hsub : ∀ event ∈ seen, event ∈ events) : FoundState codec events ids state := by
  have hcovered : ∀ {claimId : EventRecordId}, CoveredBy codec seen ids claimId →
      CoveredBy codec events ids claimId := by
    intro claimId hc id hid
    obtain ⟨claim, hmem, hrest⟩ := hc id hid
    exact ⟨claim, hsub claim hmem, hrest⟩
  cases state with
  | missing => exact absurd rfl hstate
  | claimed claim payload =>
    obtain ⟨hmem, hclaims, hc, -⟩ := h
    exact ⟨claim, hsub claim hmem, ⟨rfl, hclaims⟩, hcovered hc⟩
  | settled payload settle =>
    obtain ⟨claim, hmem, hclaims, hc, hsettle, settlePayload, hs, hid, -⟩ := h
    exact ⟨claim, hsub claim hmem, ⟨hclaims, hsub settle hsettle, settlePayload, hs, hid⟩,
      hcovered hc⟩

theorem FoundState.mono (h : FoundState codec seen ids state) (hsub : ∀ event ∈ seen, event ∈ events) :
    FoundState codec events ids state := by
  obtain ⟨claim, hmem, hof, hcovered⟩ := h
  refine ⟨claim, hsub claim hmem, ?_, fun id hid => ?_⟩
  · cases state with
    | missing => exact hof
    | claimed claim' payload => exact hof
    | settled payload settle =>
      obtain ⟨hclaims, hsettle, hrest⟩ := hof
      exact ⟨hclaims, hsub settle hsettle, hrest⟩
  · obtain ⟨claim', hmem', hrest⟩ := hcovered id hid
    exact ⟨claim', hsub claim' hmem', hrest⟩

theorem FoundState.of_fold (h : ingressOutcomeFold codec seen ids = .ok state) (hstate : state ≠ .missing)
    (hsub : ∀ event ∈ seen, event ∈ events) : FoundState codec events ids state :=
  .of_shows (shows_of_ok h) hstate hsub

variable {streams : List EventStreamId} {request : ClaimRequest}
    {ownership : Option IngressOwnershipReservation}

namespace Racing

variable {σ ι α β : Type} [DecidableEq ι] {race : Racing σ ι} {i : ι} {w : ClaimWorld σ ι}

/-- The call is served, and the stream stays a ledger. -/
def answers (race : Racing σ ι) (i : ι) (call : BridgeCall) (w : ClaimWorld σ ι) (r : call.Reply)
    (w' : ClaimWorld σ ι) : Prop :=
  race.serves i call w r w' ∧
    (race.Good (race.events w) w.made → race.Good (race.events w') w'.made)

/-- What a program of the writer does. -/
abbrev Does (race : Racing σ ι) (i : ι) (Q : α → ClaimWorld σ ι → Prop) (p : BridgeM α)
    (w : ClaimWorld σ ι) : Prop :=
  Proc.Does (race.Rely i) (race.asks i) (race.answers i) Q p w

/-! ### Calls -/

omit [DecidableEq ι] in
theorem Rely.mem {w' : ClaimWorld σ ι} (h : race.Rely i w w') :
    ∀ event ∈ race.events w, event ∈ race.events w' := fun _ he => h.grows.subset he

theorem quiet_of_stays {call : BridgeCall} (hasks : ∀ w, race.asks i call w)
    (hstays : ∀ w r w', race.serves i call w r w' → w' = w) :
    Quiet (race.Rely i) (race.asks i) (race.answers i) call := by
  intro w
  refine ⟨hasks w, fun r w' hanswer => ?_⟩
  rw [hstays w r w' hanswer.1]
  exact .refl race i w

theorem quiet_sleep : Quiet (race.Rely i) (race.asks i) (race.answers i) .sleep :=
  quiet_of_stays (fun _ => trivial) fun _ _ _ h => h

theorem quiet_draw : Quiet (race.Rely i) (race.asks i) (race.answers i) .draw :=
  quiet_of_stays (fun _ => trivial) fun _ _ _ h => h

theorem does_then {p : BridgeM α} {f : α → BridgeM β} {R : α → ClaimWorld σ ι → Prop}
    {Q : β → ClaimWorld σ ι → Prop} (h : race.Does i R p w)
    (hf : ∀ a w', R a w' → race.Does i Q (f a) w') : race.Does i Q (p >>= f) w :=
  Proc.Does.bind (Rely.refl race i) (h.imp hf)

theorem does_call {p : Proc BridgeCall BridgeCall.Reply (IoResult α)}
    (h : p.Meets (race.Rely i) (race.asks i) (race.answers i) (fun _ w' => race.Rely i w w') w) :
    race.Does i (fun _ w' => race.Rely i w w') (attempt p) w :=
  Proc.Meets.imp (fun _ _ hw _ _ => hw) h

theorem meets_of_stays {call : BridgeCall} (hasks : ∀ w, race.asks i call w)
    (hstays : ∀ w r w', race.serves i call w r w' → w' = w) :
    (Proc.perform call).Meets (race.Rely i) (race.asks i) (race.answers i)
      (fun _ w' => race.Rely i w w') w :=
  (quiet_of_stays hasks hstays).meets (fun _ _ _ => Rely.trans) fun _ _ hw => hw

theorem does_lockClaimAdmission :
    race.Does i (fun _ w' => race.Rely i w w') lockClaimAdmission w :=
  does_call (meets_of_stays (fun _ => trivial) fun _ _ _ (h : _ = _) => h)

theorem does_reservationIsCurrent (reservation : IngressOwnershipReservation) :
    race.Does i (fun _ w' => race.Rely i w w') (reservationIsCurrent reservation) w :=
  does_call (meets_of_stays (fun _ => trivial) fun _ _ _ (h : _ = _) => h)

theorem does_pruneToReservation (reservation : IngressOwnershipReservation) :
    race.Does i (fun _ w' => race.Rely i w w') (pruneToReservation reservation) w :=
  does_call (meets_of_stays (fun _ => trivial) fun _ _ _ (h : _ = _) => h)

theorem does_pruneToStream (keys : List IngressOwnershipKey) (streamId : EventStreamId) :
    race.Does i (fun _ w' => race.Rely i w w') (pruneToStream keys streamId) w :=
  does_call (meets_of_stays (fun _ => trivial) fun _ _ _ (h : _ = _) => h)

theorem does_commitClaimAdmission :
    race.Does i (fun _ w' => race.Rely i w w') commitClaimAdmission w :=
  does_call (meets_of_stays (fun _ => trivial) fun _ _ _ (h : _ = _) => h)

theorem does_lockedOwnershipStreams (keys : List IngressOwnershipKey) :
    race.Does i (fun streams w' => race.Rely i w w' ∧
      ∀ streamId ∈ streams, streamId = race.streamId) (lockedOwnershipStreams keys) w := by
  intro w₁ h₁
  refine ⟨trivial, ?_⟩
  rintro r w₂ ⟨⟨hstreams, rfl⟩, -⟩ w₃ h₃ streams rfl
  exact ⟨h₁.trans h₃, hstreams streams rfl⟩

theorem does_readEvents (streamId : EventStreamId) :
    race.Does i (fun found w' => race.Rely i w w' ∧
      (streamId = race.streamId → found <+: race.events w')) (readEvents streamId) w := by
  refine does_ask fun w₁ h₁ => ⟨trivial, fun r w₂ hanswer => ?_⟩
  obtain ⟨⟨rfl, rfl⟩, -⟩ := hanswer
  refine does_result fun found w' hrely hfound => ⟨h₁.trans hrely, ?_⟩
  rintro rfl
  rw [race.store.reads (orBridge_ok.mp hfound)]
  exact hrely.grows

theorem does_readEventsFrom (cursor : Option StreamCursorV1) :
    race.Does i (fun found w' => race.Rely i w w' ∧ ∀ event ∈ found, event ∈ race.events w')
      (readEventsFrom race.streamId cursor) w := by
  cases cursor with
  | none => exact (does_readEvents race.streamId).imp fun found w' h =>
    ⟨h.1, fun event he => (h.2 rfl).subset he⟩
  | some cursor =>
    refine does_ask fun w₁ h₁ => ⟨trivial, fun r w₂ hanswer => ?_⟩
    obtain ⟨⟨hfilter, rfl⟩, -⟩ := hanswer
    refine does_result fun found w' hrely hfound => ⟨h₁.trans hrely, fun event he => ?_⟩
    rw [hfilter found (orBridge_ok.mp hfound)] at he
    exact hrely.mem event (List.mem_of_mem_filter he)

/-! ### The outcome on the streams of the dedupe keys -/

theorem does_readStreams (hstreams : ∀ streamId ∈ streams, streamId = race.streamId) :
    race.Does i (fun found w' => race.Rely i w w' ∧ ∀ event ∈ found, event ∈ race.events w')
      (readStreams streams) w := by
  induction streams generalizing w with
  | nil => exact Proc.Does.pure fun w' hw => ⟨hw, List.forall_mem_nil _⟩
  | cons stream rest ih =>
    obtain rfl := hstreams stream List.mem_cons_self
    refine does_then (does_readEvents _) ?_
    rintro found w₁ ⟨h₁, hfound⟩
    refine does_then
      (ih fun streamId hm => hstreams streamId (.tail _ hm)) ?_
    rintro later w₂ ⟨h₂, hlater⟩
    refine Proc.Does.pure fun w' hw => ⟨(h₁.trans h₂).trans hw, fun event he => ?_⟩
    refine hw.mem event ?_
    rcases List.mem_append.mp he with he | he
    · exact h₂.mem event ((hfound rfl).subset he)
    · exact hlater event he

variable {ids : List String}

theorem does_ingressOutcomeOnStreams (hstreams : ∀ streamId ∈ streams, streamId = race.streamId) :
    race.Does i (fun state w' => race.Rely i w w' ∧
        (state ≠ .missing → FoundState race.codec (race.events w') ids state))
      (ingressOutcomeOnStreams race.codec streams ids) w := by
  unfold ingressOutcomeOnStreams
  split
  · exact Proc.Does.pure fun w' hw => ⟨hw, fun h => absurd rfl h⟩
  · refine does_then (does_readStreams hstreams) ?_
    rintro found w₁ ⟨h₁, hfound⟩
    refine does_result fun state w' hw hstate => ⟨h₁.trans hw, fun hne => ?_⟩
    exact .of_fold hstate hne fun event he => hw.mem event (hfound event he)

theorem does_readStreamsFrom {cursors : List (EventStreamId × Option StreamCursorV1)}
    (hstreams : ∀ cursor ∈ cursors, cursor.1 = race.streamId) :
    race.Does i (fun found w' => race.Rely i w w' ∧ (∀ event ∈ found.1, event ∈ race.events w') ∧
      ∀ cursor ∈ found.2, cursor.1 = race.streamId) (readStreamsFrom cursors) w := by
  induction cursors generalizing w with
  | nil =>
    exact Proc.Does.pure fun w' hw => ⟨hw, List.forall_mem_nil _,
      fun cursor hc => (List.not_mem_nil hc).elim⟩
  | cons first rest ih =>
    obtain ⟨stream, cursor⟩ := first
    obtain rfl : stream = race.streamId := hstreams _ List.mem_cons_self
    refine does_then (does_readEventsFrom cursor) ?_
    rintro found w₁ ⟨h₁, hfound⟩
    refine does_then
      (ih fun cursor hm => hstreams cursor (.tail _ hm)) ?_
    rintro ⟨later, cursors⟩ w₂ ⟨h₂, hlater, hcursors⟩
    refine Proc.Does.pure fun w' hw => ⟨(h₁.trans h₂).trans hw, fun event he => ?_, ?_⟩
    · refine hw.mem event ?_
      rcases List.mem_append.mp he with he | he
      · exact h₂.mem event (hfound event he)
      · exact hlater event he
    · exact List.forall_mem_cons.mpr ⟨rfl, hcursors⟩

theorem does_ingressOutcomeLoop (fuel : Nat) {seen : List EventRecord}
    {cursors : List (EventStreamId × Option StreamCursorV1)}
    (hseen : ∀ event ∈ seen, event ∈ race.events w)
    (hstreams : ∀ cursor ∈ cursors, cursor.1 = race.streamId) :
    race.Does i (fun state w' => race.Rely i w w' ∧ FoundState race.codec (race.events w') ids state)
      (ingressOutcomeLoop race.codec ids fuel seen cursors) w := by
  induction fuel generalizing w seen cursors with
  | zero => exact Proc.Does.fail
  | succ fuel ih =>
    rw [ingressOutcomeLoop]
    refine does_given fun state hstate => ?_
    split
    · rename_i hne
      refine Proc.Does.pure fun w' hw => ⟨hw, ?_⟩
      exact .of_fold hstate hne fun event he => hw.mem event (hseen event he)
    · refine Quiet.ask (fun _ _ _ => Rely.trans) quiet_sleep fun waited w₁ h₁ => ?_
      split
      · exact Proc.Does.fail
      · refine does_then (does_readStreamsFrom hstreams) ?_
        rintro ⟨later, cursors'⟩ w₂ ⟨h₂, hlater, hcursors⟩
        refine (ih ?_ hcursors).imp fun state w' h => ⟨(h₁.trans h₂).trans h.1, h.2⟩
        intro event he
        rcases List.mem_append.mp he with he | he
        · exact (h₁.trans h₂).mem event (hseen event he)
        · exact hlater event he

theorem does_awaitIngressOutcomeOnStreams (fuel : Nat)
    (hstreams : ∀ streamId ∈ streams, streamId = race.streamId) :
    race.Does i (fun state w' => race.Rely i w w' ∧ FoundState race.codec (race.events w') ids state)
      (awaitIngressOutcomeOnStreams race.codec fuel streams ids) w := by
  refine does_then (does_readStreamsFrom ?_) ?_
  · intro cursor hc
    obtain ⟨streamId, hm, rfl⟩ := List.mem_map.mp hc
    exact hstreams streamId hm
  · rintro ⟨found, cursors⟩ w₁ ⟨h₁, hfound, hcursors⟩
    exact (does_ingressOutcomeLoop fuel hfound hcursors).imp fun state w' h => ⟨h₁.trans h.1, h.2⟩

/-! ### Claims -/

theorem found_of_streamId {state : IngressOutcomeState} {streamId : EventStreamId}
    (h : ingressOutcomeStreamId state = some streamId) : state ≠ .missing := by
  rintro rfl
  cases h

theorem does_admitClaim (fuel : Nat) (ownership : Option IngressOwnershipReservation) :
    race.Does i (fun admitted w' => race.Rely i w w' ∧
        ∀ state, admitted = some state → FoundState race.codec (race.events w') ids state)
      (admitClaim race.codec fuel ids ownership) w := by
  cases ownership with
  | none => exact Proc.Does.pure fun w' hw => ⟨hw, fun state h => by cases h⟩
  | some ownership =>
    refine does_then does_lockClaimAdmission fun _ w₁ h₁ => ?_
    refine does_then (does_lockedOwnershipStreams _) ?_
    rintro streams w₂ ⟨h₂, hstreams⟩
    refine does_then (does_ingressOutcomeOnStreams hstreams) ?_
    rintro state w₃ ⟨h₃, hfound⟩
    have hstart := (h₁.trans h₂).trans h₃
    cases hstate : ingressOutcomeStreamId state with
    | some streamId =>
      refine does_then (does_pruneToStream _ _) fun _ w₄ h₄ => ?_
      refine does_then does_commitClaimAdmission fun _ w₅ h₅ => ?_
      refine Proc.Does.pure fun w' hw => ⟨hstart.trans ((h₄.trans h₅).trans hw), ?_⟩
      rintro state' ⟨⟩
      exact (hfound (found_of_streamId hstate)).mono ((h₄.trans h₅).trans hw).mem
    | none =>
      refine does_then (does_reservationIsCurrent _) fun current w₄ h₄ => ?_
      cases current with
      | true =>
        refine does_then (does_pruneToReservation _) fun _ w₅ h₅ => ?_
        refine Proc.Does.pure fun w' hw => ⟨hstart.trans ((h₄.trans h₅).trans hw), ?_⟩
        rintro state' ⟨⟩
      | false =>
        refine does_then does_commitClaimAdmission fun _ w₅ h₅ => ?_
        refine does_then
          (does_awaitIngressOutcomeOnStreams fuel hstreams) ?_
        rintro state' w₆ ⟨h₆, hfound'⟩
        refine Proc.Does.pure fun w' hw => ⟨?_, ?_⟩
        · exact hstart.trans ((h₄.trans h₅).trans (h₆.trans hw))
        · rintro state'' ⟨⟩
          exact hfound'.mono hw.mem

theorem does_commitAdmission (ownership : Option IngressOwnershipReservation) :
    race.Does i (fun _ w' => race.Rely i w w') (commitAdmission ownership) w := by
  cases ownership with
  | none => exact Proc.Does.pure fun _ hw => hw
  | some _ => exact does_commitClaimAdmission

theorem does_appendEventsFenced {seen : List EventRecord} {records : List NewEventRecord}
    (hseen : seen <+: race.events w) (hnone : w.made i = none)
    (hwrites : race.Writes i seen records) :
    race.Does i (fun appended w' =>
        (appended = none → race.Rely i w w') ∧ ∀ events, appended = some events →
          events = numbered race.streamId seen.length records ∧
          (∀ event ∈ events, event ∈ race.events w') ∧
          w'.made i = events.find? fun event => event.kind = .ioIngressClaimed)
      (appendEventsFenced race.streamId (nextSequence seen) records) w := by
  refine does_ask fun w₁ h₁ => ⟨⟨rfl, h₁.made.trans hnone, seen, hseen.trans h₁.grows, rfl, hwrites⟩, ?_⟩
  rintro r w₂ ⟨⟨hstore, hmade⟩, hgood⟩
  cases r with
  | ok found =>
    obtain ⟨-, hfound, hafter⟩ := appended_of_taken (hseen.trans h₁.grows) hstore.symm
    refine Proc.Does.pure fun w' hw => ⟨(by rintro ⟨⟩), ?_⟩
    rintro events ⟨⟩
    refine ⟨hfound, fun event he => hw.mem event ?_, ?_⟩
    · change event ∈ race.store.events w₂.store race.streamId
      rw [hafter]
      exact List.mem_append_right _ he
    · rw [hw.made, hmade]
      exact note_self (h₁.made.trans hnone)
  | error error =>
    have hstate := race.store.refusesFenced hstore.symm
    obtain rfl : w₂ = w₁ := by
      cases w₁
      exact (ClaimWorld.mk.injEq ..).mpr ⟨hstate, hmade⟩
    cases error with
    | appendFenceConflict _ _ _ =>
      refine Proc.Does.pure fun w' hw => ⟨fun _ => h₁.trans hw, ?_⟩
      rintro events ⟨⟩
    | _ => exact Proc.Does.fail

/-- What a claiming writer ends with. -/
def Appends (race : Racing σ ι) (i : ι) (ids : List String) (append : IngressClaimAppend)
    (w : ClaimWorld σ ι) : Prop :=
  match append with
  | .appended claim => w.made i = some claim
  | .existing state => w.made i = none ∧ FoundState race.codec (race.events w) ids state

theorem does_claimLoop (fuel : Nat) {records : BridgeM (List NewEventRecord)}
    {answer : List EventRecord → IoResult EventRecord} (hstream : request.streamId = race.streamId)
    (hnone : w.made i = none)
    (hrecords : ∀ seen w, (∀ id ∈ request.ingressEnvelopeIds, ¬ Covered race.codec seen id) →
      race.Does i (fun records w' => race.Rely i w w' ∧ race.Writes i seen records) records w)
    (hanswer : ∀ seen records claim, race.Writes i seen records →
      answer (numbered race.streamId seen.length records) = .ok claim →
        (numbered race.streamId seen.length records).find?
          (fun event => event.kind = .ioIngressClaimed) = some claim) :
    race.Does i (race.Appends i request.ingressEnvelopeIds)
      (claimLoop race.codec request ownership records answer fuel) w := by
  induction fuel generalizing w with
  | zero => exact Proc.Does.fail
  | succ fuel ih =>
    rw [claimLoop, hstream]
    refine does_then (does_readEvents _) ?_
    rintro seen w₁ ⟨h₁, hseen⟩
    refine does_given fun state hstate => ?_
    split
    · rename_i hne
      refine does_then (does_commitAdmission ownership) fun _ w₂ h₂ => ?_
      refine Proc.Does.pure fun w' hw => ⟨?_, ?_⟩
      · exact ((h₁.trans h₂).trans hw).made.trans hnone
      · refine .of_fold hstate hne fun event he => (h₂.trans hw).mem event ?_
        exact (hseen rfl).subset he
    · rename_i hmissing
      obtain rfl := not_not.mp hmissing
      have hfree := shows_of_ok hstate
      refine does_then (hrecords seen w₁ hfree) ?_
      rintro records w₂ ⟨h₂, hwrites⟩
      refine does_then (does_appendEventsFenced
        ((hseen rfl).trans h₂.grows) ((h₁.trans h₂).made.trans hnone) hwrites) ?_
      rintro appended w₃ ⟨hrefused, htaken⟩
      cases appended with
      | none => exact ih (((h₁.trans h₂).trans (hrefused rfl)).made.trans hnone)
      | some events =>
        obtain ⟨rfl, -, hmade⟩ := htaken events rfl
        refine does_given fun claim hclaim => ?_
        refine does_then (does_commitAdmission ownership) fun _ w₄ h₄ => ?_
        refine Proc.Does.pure fun w' hw => ?_
        change w'.made i = some claim
        rw [(h₄.trans hw).made, hmade]
        exact hanswer seen records claim hwrites hclaim

theorem does_appendIngressClaim (fuel : Nat) (hjob : race.jobs i = .claim request ownership)
    (hstream : request.streamId = race.streamId) (hnone : w.made i = none) :
    race.Does i (race.Appends i request.ingressEnvelopeIds)
      (appendIngressClaim race.codec fuel request ownership) w := by
  refine does_then (does_admitClaim fuel ownership) ?_
  rintro admitted w₁ ⟨h₁, hadmitted⟩
  cases admitted with
  | some state =>
    refine Proc.Does.pure fun w' hw => ⟨(h₁.trans hw).made.trans hnone, ?_⟩
    exact (hadmitted state rfl).mono hw.mem
  | none =>
    refine does_claimLoop fuel hstream (h₁.made.trans hnone) (fun seen w hfree => ?_) ?_
    · refine Quiet.ask (fun _ _ _ => Rely.trans) quiet_draw fun draw w₂ h₂ => ?_
      exact Proc.Does.pure fun w' hw => ⟨h₂.trans hw, .claim hjob hfree⟩
    · intro seen records claim hwrites hclaim
      cases hwrites with
      | claim hjob' _ => exact Except.ok.inj hclaim ▸ rfl
      | effectFree hjob' _ => cases hjob.symm.trans hjob'
      | settle hjob' _ _ _ => cases hjob.symm.trans hjob'

theorem does_appendEffectFreeIngressOutcome (fuel : Nat)
    (hjob : race.jobs i = .effectFree request ownership)
    (hstream : request.streamId = race.streamId) (hnone : w.made i = none) :
    race.Does i (race.Appends i request.ingressEnvelopeIds)
      (appendEffectFreeIngressOutcome race.codec fuel request ownership) w := by
  refine does_then (does_admitClaim fuel ownership) ?_
  rintro admitted w₁ ⟨h₁, hadmitted⟩
  cases admitted with
  | some state =>
    refine Proc.Does.pure fun w' hw => ⟨(h₁.trans hw).made.trans hnone, ?_⟩
    exact (hadmitted state rfl).mono hw.mem
  | none =>
    refine does_claimLoop fuel hstream (h₁.made.trans hnone) (fun seen w hfree => ?_) ?_
    · refine Quiet.ask (fun _ _ _ => Rely.trans) quiet_draw fun draw w₂ h₂ => ?_
      refine Quiet.ask (fun _ _ _ => Rely.trans) quiet_draw fun draw' w₃ h₃ => ?_
      exact Proc.Does.pure fun w' hw => ⟨(h₂.trans h₃).trans hw, .effectFree hjob hfree⟩
    · intro seen records claim hwrites hclaim
      cases hwrites with
      | claim hjob' _ => cases hjob.symm.trans hjob'
      | effectFree hjob' _ => exact Except.ok.inj hclaim ▸ rfl
      | settle hjob' _ _ _ => cases hjob.symm.trans hjob'

/-! ### Settles -/

def SettleOf (codec : OutcomeCodec) (events : List EventRecord) (claimId : EventRecordId)
    (settle : EventRecord) : Prop :=
  settle ∈ events ∧ ∃ payload, Settles codec settle payload ∧ payload.claimEventId = claimId

theorem settleState_ok {codec : OutcomeCodec} {seen events : List EventRecord}
    {request : SettleRequest} {state : IngressOutcomeState} {found : Option EventRecord}
    (hledger : Ledger codec events) (hunique : (events.map (·.id)).Nodup)
    (hsub : ∀ event ∈ seen, event ∈ events) (hmem : request.claim ∈ events)
    (hclaims : Claims codec request.claim request.claimPayload)
    (hstate : ingressOutcomeFold codec seen request.claimPayload.ingressEnvelopeIds = .ok state)
    (h : settleState request state = .ok found) :
    (∀ settle, found = some settle → SettleOf codec seen request.claim.id settle) ∧
      (found = none → request.claim ∈ seen ∧ ∀ settle ∈ seen, ∀ payload,
        Settles codec settle payload → payload.claimEventId ≠ request.claim.id) := by
  have hshows := shows_of_ok hstate
  cases state with
  | missing => cases h
  | claimed existing payload =>
    rw [settleState] at h
    by_cases heq : existing.id = request.claim.id
    · rw [if_pos heq] at h
      cases h
      obtain ⟨hexisting, -, -, hfree⟩ := hshows
      obtain rfl := eq_of_id hunique (hsub existing hexisting) hmem heq
      exact ⟨(by rintro settle ⟨⟩), fun _ => ⟨hexisting, hfree⟩⟩
    · rw [if_neg heq] at h
      cases h
  | settled payload settle =>
    cases h
    obtain ⟨claim, -, -, hcovered, hsettle, settlePayload, hs, hid, -⟩ := hshows
    refine ⟨?_, (by rintro ⟨⟩)⟩
    rintro settle' ⟨⟩
    refine ⟨hsettle, settlePayload, hs, ?_⟩
    cases hids : request.claimPayload.ingressEnvelopeIds with
    | nil =>
      rw [hids] at hstate
      cases hstate
    | cons id rest =>
      have hin : id ∈ request.claimPayload.ingressEnvelopeIds := by simp [hids]
      obtain ⟨claim', hclaim', payload', hc', hid', heq⟩ := hcovered id hin
      obtain rfl := hledger.claim_unique (hsub claim' hclaim') hmem hc' hclaims hid' hin
      exact hid.trans heq.symm

theorem does_appendIngressSettle (fuel : Nat) {request : SettleRequest}
    (hjob : race.jobs i = .settle request) (hlaw : race.Lawful)
    (hstream : request.streamId = race.streamId) (hnone : w.made i = none)
    (hgood : race.Good (race.events w) w.made) (hmem : request.claim ∈ race.events w)
    (hclaims : Claims race.codec request.claim request.claimPayload) :
    race.Does i (fun settle w' => w'.made i = none ∧
        SettleOf race.codec (race.events w') request.claim.id settle)
      (appendIngressSettle race.codec request fuel) w := by
  induction fuel generalizing w with
  | zero => exact Proc.Does.fail
  | succ fuel ih =>
    rw [appendIngressSettle, hstream]
    refine does_then (does_readEvents _) ?_
    rintro seen w₁ ⟨h₁, hseen⟩
    refine does_given fun state hstate => does_given fun found hfound => ?_
    obtain ⟨hsome, hwrite⟩ := settleState_ok (h₁.good hgood).ledger
      ((race.store.journal w₁.store).nodup race.streamId)
      (fun event he => (hseen rfl).subset he) (h₁.mem _ hmem) hclaims hstate hfound
    cases found with
    | some settle =>
      obtain ⟨hsettle, hpayload⟩ := hsome settle rfl
      refine Proc.Does.pure fun w' hw => ⟨(h₁.trans hw).made.trans hnone, ?_, hpayload⟩
      exact hw.mem _ ((hseen rfl).subset hsettle)
    | none =>
      obtain ⟨hclaim, hfree⟩ := hwrite rfl
      refine Quiet.ask (fun _ _ _ => Rely.trans) quiet_draw fun draw w₂ h₂ => ?_
      refine does_then (does_appendEventsFenced
        ((hseen rfl).trans h₂.grows) ((h₁.trans h₂).made.trans hnone)
        (.settle hjob hclaim hclaims hfree)) ?_
      rintro appended w₃ ⟨hrefused, htaken⟩
      cases appended with
      | none =>
        have h₃ := (h₁.trans h₂).trans (hrefused rfl)
        exact ih (h₃.made.trans hnone) (h₃.good hgood) (h₃.mem _ hmem)
      | some events =>
        obtain ⟨rfl, hevents, hmade⟩ := htaken events rfl
        refine does_result fun settle w' hw hsettle => ⟨hw.made.trans hmade, ?_⟩
        change settleAppended [_] = _ at hsettle
        cases hsettle
        exact ⟨hw.mem _ (hevents _ List.mem_cons_self), request.payload,
          settles_fromNew hlaw.codec request.coordinates request.payload draw _, rfl⟩

/-! ### Every writer at its own place -/

def Ends (race : Racing σ ι) (i : ι) (written : OutcomeWritten) (w : ClaimWorld σ ι) : Prop :=
  match written with
  | .claim append => ∃ request, (race.jobs i).claims = some request ∧
      race.Appends i request.ingressEnvelopeIds append w
  | .settle settle => w.made i = none ∧ ∃ request, race.jobs i = .settle request ∧
      SettleOf race.codec (race.events w) request.claim.id settle

/-- **What each writer does.** -/
theorem does_program (fuel : Nat) (hlaw : race.Lawful)
    (hgood : race.Good (race.events w) w.made) (hnone : w.made i = none)
    (hclaim : ∀ request, race.jobs i = .settle request → request.claim ∈ race.events w ∧
      Claims race.codec request.claim request.claimPayload) :
    race.Does i (race.Ends i) ((race.jobs i).program race.codec fuel) w := by
  have hstream := hlaw.stream i
  have hends : ∀ {append : IngressClaimAppend} {w w' : ClaimWorld σ ι} {ids : List String},
      race.Appends i ids append w → race.Rely i w w' → race.Appends i ids append w' := by
    intro append w w' ids h hw
    cases append with
    | appended claim => exact hw.made.trans h
    | existing state => exact ⟨hw.made.trans h.1, h.2.mono hw.mem⟩
  cases hjob : race.jobs i with
  | claim request ownership =>
    rw [hjob] at hstream
    refine Proc.Does.bind (Rely.refl race i)
      ((does_appendIngressClaim fuel hjob hstream hnone).imp fun append w₁ h₁ => ?_)
    exact Proc.Does.pure fun w' hw => ⟨request, by rw [hjob]; rfl, hends h₁ hw⟩
  | effectFree request ownership =>
    rw [hjob] at hstream
    refine Proc.Does.bind (Rely.refl race i)
      ((does_appendEffectFreeIngressOutcome fuel hjob hstream hnone).imp fun append w₁ h₁ => ?_)
    exact Proc.Does.pure fun w' hw => ⟨request, by rw [hjob]; rfl, hends h₁ hw⟩
  | settle request =>
    rw [hjob] at hstream
    obtain ⟨hmem, hclaims⟩ := hclaim request hjob
    refine Proc.Does.bind (Rely.refl race i) ((does_appendIngressSettle fuel hjob hlaw hstream hnone
      hgood hmem hclaims).imp fun settle w₁ h₁ => ?_)
    refine Proc.Does.pure fun w' hw => ⟨hw.made.trans h₁.1, request, hjob, ?_⟩
    exact ⟨hw.mem _ h₁.2.1, h₁.2.2⟩

def ways (race : Racing σ ι) :
    Pool.Ways ι BridgeCall BridgeCall.Reply (IoResult OutcomeWritten) (ClaimWorld σ ι) where
  good w := race.Good (race.events w) w.made
  waits i w := w.made i = none
  rely := race.Rely
  asks := race.asks
  answers := race.answers
  ends i result w := ∀ written, result = .ok written → race.Ends i written w

theorem sound (hlaw : race.Lawful) : race.ways.Sound race.starts race.serves race.others where
  refl i w _ := .refl race i w
  trans _ _ _ _ h h' := h.trans h'
  waits i w w' h hnone := h.made.trans hnone
  start := by
    rintro i w p hgood hnone ⟨⟨fuel, rfl⟩, hclaim⟩
    exact does_program fuel hlaw hgood hnone hclaim
  call := by
    intro i call w r w' hgood hask hserves
    obtain ⟨hgood', hrely⟩ := good_of_serves hlaw hgood hask hserves
    exact ⟨hgood', ⟨hserves, fun _ => hgood'⟩, hrely⟩
  other := by
    rintro w w' hgood ⟨hmade, streamId, records, hstore, hkinds⟩
    -- The stream is as it was, or has other events after it.
    obtain ⟨later, hlater, hevents⟩ : ∃ later : List EventRecord,
        (∀ event ∈ later, event.kind ≠ .ioIngressClaimed ∧ event.kind ≠ .ioIngressSettled) ∧
        race.events w' = race.events w ++ later := by
      unfold events
      rcases race.store.append_cases streamId records w.store with ⟨e, h⟩ | ⟨s', h, -, hafter, -⟩
      · exact ⟨[], by simp, by rw [hstore, h, List.append_nil]⟩
      · rw [hstore, h]
        dsimp only
        rw [hafter, History.appendBatch]
        split
        · rename_i heq
          refine ⟨numbered streamId (race.store.events w.store streamId).length records, ?_, by rw [heq]⟩
          intro event he
          obtain ⟨record, hr, sequence, rfl⟩ := History.mem_numbered he
          exact hkinds heq.symm record hr
        · exact ⟨[], by simp, (List.append_nil _).symm⟩
    have hgood' : race.Good (race.events w') w'.made := by
      rw [hevents, hmade]
      exact hgood.others hlater
    refine ⟨hgood', fun i => ⟨?_, by rw [hmade], fun _ => hgood'⟩⟩
    rw [hevents]
    exact List.prefix_append ..

end Racing

end Verlet.Daemon
