import Verlet.Kernel.RuntimeHost.LoopContinuation.Races

/-!
# Kernel — The runtime host — Loop continuations — Calls

What one call of `continue_turn_if_requested` does, whatever the others do between its steps: what it
asks is what it may, and where it succeeds its turn has its `turn.submitted`, or it has read the
control stream when nothing had accepted the continuation.
-/

namespace Verlet.Kernel
open Support History
open RemoteStore (VerletResult)
open Function (update update_self)

variable {receipt : LoopContinuationReceipt} {event : EventRecord}
    {payload : TurnContinueRequestedPayload}

namespace Continuing

variable {σ ι : Type} [DecidableEq ι] {continuing : Continuing σ ι} {i : ι}
  {w w' w'' : LoopWorld σ ι} {turnId : String}

/-! ### What a call does -/

variable (continuing) in
/-- What the others leave a call. -/
structure Rely (i : ι) (w w' : LoopWorld σ ι) : Prop where
  grows : ∀ streamId,
    continuing.store.events w.store streamId <+: continuing.store.events w'.store streamId
  reads : w'.reads i = w.reads i
  owes : w'.owes i = w.owes i

section
omit [DecidableEq ι]

theorem Rely.refl (i : ι) (w : LoopWorld σ ι) : continuing.Rely i w w :=
  ⟨fun _ => List.prefix_refl _, rfl, rfl⟩

theorem Rely.trans (h : continuing.Rely i w w') (h' : continuing.Rely i w' w'') :
    continuing.Rely i w w'' :=
  ⟨fun streamId => (h.grows streamId).trans (h'.grows streamId), h'.reads.trans h.reads,
    h'.owes.trans h.owes⟩

theorem Accepted.mono (h : continuing.Accepted w turnId) (hgrows : ∀ streamId,
    continuing.store.events w.store streamId <+: continuing.store.events w'.store streamId) :
    continuing.Accepted w' turnId := by
  obtain ⟨event, hevent, hnames⟩ := h
  exact ⟨event, (hgrows _).subset hevent, hnames⟩

theorem Submitted.mono (h : continuing.Submitted w turnId) (hgrows : ∀ streamId,
    continuing.store.events w.store streamId <+: continuing.store.events w'.store streamId) :
    continuing.Submitted w' turnId := by
  obtain ⟨event, hevent, hsubmits⟩ := h
  exact ⟨event, (hgrows _).subset hevent, hsubmits⟩

end

variable (continuing)

/-- How a call is answered, where all was well before. -/
def answers (i : ι) (call : LoopCall) (w : LoopWorld σ ι) (r : call.Reply) (w' : LoopWorld σ ι) :
    Prop :=
  continuing.serves i call w r w' ∧ continuing.Good w

/-- What a program of a call does; where it fails, the call owes no turn. -/
abbrev Settles {α : Type} (i : ι) (A : α → LoopWorld σ ι → Prop) (p : LoopM α)
    (w : LoopWorld σ ι) : Prop :=
  Proc.Settles (continuing.Rely i) (continuing.asks i) (continuing.answers i) A
    (fun _ w => w.owes i = none) p w

variable {continuing}

section
variable {α β : Type} {A : α → LoopWorld σ ι → Prop} {C : β → LoopWorld σ ι → Prop}

theorem settles_bind {p : LoopM α} {f : α → LoopM β}
    (h : continuing.Settles i (fun a w' => continuing.Settles i C (f a) w') p w) :
    continuing.Settles i C (p >>= f) w :=
  Proc.Settles.bind (Rely.refl i) (fun _ _ _ howes hrely => hrely.owes.trans howes) h

theorem settles_ask {call : LoopCall} {f : call.Reply → LoopM β}
    (h : ∀ w', continuing.Rely i w w' → continuing.asks i call w' ∧
      ∀ r w'', continuing.answers i call w' r w'' → continuing.Settles i C (f r) w'') :
    continuing.Settles i C (LoopM.ask call >>= f) w := h

theorem settles_given {result : VerletResult α} {f : α → LoopM β}
    (hok : ∀ a, result = .ok a → continuing.Settles i C (f a) w)
    (herror : (∀ a, result ≠ .ok a) → w.owes i = none) :
    continuing.Settles i C (LoopM.given result >>= f) w := by
  refine Proc.Settles.settle (fun a ha => hok a (orHost_ok.mp ha)) fun e he w' hrely => ?_
  refine hrely.owes.trans (herror fun a ha => ?_)
  rw [orHost_ok.mpr ha] at he
  cases he

theorem settles_result {result : VerletResult α}
    (hok : ∀ a, result = .ok a → ∀ w', continuing.Rely i w w' → A a w')
    (herror : (∀ a, result ≠ .ok a) → w.owes i = none) :
    continuing.Settles i A (LoopM.given result) w := by
  intro w' hrely
  cases hresult : result with
  | ok a => exact hok a hresult w' hrely
  | error e =>
    refine hrely.owes.trans (herror fun a ha => ?_)
    cases hresult.symm.trans ha

end

theorem settles_appendOne {A : EventRecord → LoopWorld σ ι → Prop} {streamId : EventStreamId}
    {record : NewEventRecord}
    (hasks : ∀ w₁, continuing.Rely i w w₁ → continuing.asks i (.appendEvents streamId [record]) w₁)
    (htaken : ∀ w₁ s' found sequence, continuing.Rely i w w₁ →
      continuing.store.events s' = appendBatch (continuing.store.events w₁.store) streamId [record] →
      (∀ streamId', continuing.store.events w₁.store streamId' <+:
        continuing.store.events s' streamId') →
      ∀ w₂, continuing.Rely i { w₁ with
        store := s'
        owes := update w₁.owes i (owesAfterAppend (continuing.proposals i).nextTurnId
          [record] (w₁.owes i) (.ok found)) } w₂ →
        A (.fromNew streamId sequence record) w₂) :
    continuing.Settles i A (appendOne streamId record) w := by
  refine settles_ask fun w₁ h₁ => ⟨hasks w₁ h₁, ?_⟩
  rintro r w₂ ⟨⟨-, answers, hserve⟩, -⟩
  obtain ⟨rfl, rfl⟩ := Prod.mk.inj hserve
  rcases continuing.store.append_cases streamId [record] w₁.store with ⟨e, hrefused⟩ |
    ⟨s', hok, -, hevents, -⟩
  · rw [hrefused]
    refine settles_result (fun event hevent => ?_) fun _ => update_self ..
    cases hevent
  · rw [hok]
    refine settles_result (fun event hevent w₂ h₂ => ?_) fun hnot => absurd rfl (hnot _)
    obtain rfl := Except.ok.inj hevent
    refine htaken w₁ s' _ _ h₁ hevents (fun streamId' => ?_) w₂ h₂
    rw [hevents]
    exact History.prefix_appendBatch streamId'

/-- **The `turn.submitted`** of a turn that the call owes is on the thread's stream when it goes on. -/
theorem settles_appendLoopTurnSubmittedEvent {acceptedEventId : EventRecordId}
    (haccepted : continuing.Accepted w turnId) (howes : w.owes i = some turnId) :
    continuing.Settles i (fun _ w' => w'.owes i = some turnId ∧ continuing.Accepted w' turnId ∧
        continuing.Submitted w' turnId)
      (appendLoopTurnSubmittedEvent continuing.coordinates turnId acceptedEventId) w := by
  refine settles_ask fun w₁ h₁ => ⟨⟨rfl, haccepted.mono h₁.grows, .inr (h₁.owes.trans howes)⟩, ?_⟩
  rintro r w₂ ⟨⟨-, answers, hserve⟩, -⟩
  obtain ⟨hr, rfl⟩ := Prod.mk.inj hserve
  subst hr
  have howes₁ : w₁.owes i = some turnId := h₁.owes.trans howes
  refine settles_given (fun events hevents => ?_) fun hnot => ?_
  · rw [orHistory_ok] at hevents
    have hthread : events = continuing.thread w₁ := continuing.store.reads hevents
    -- whatever the read finds, the turn is owed after it
    have howed : owesAfterRead turnId (w₁.owes i)
        (continuing.store.readEvents (.forThread continuing.coordinates) w₁.store) =
          some turnId := by
      rw [hevents, howes₁, owesAfterRead, ite_self]
    cases hsubmitted : turnSubmittedEvent turnId events with
    | some existing =>
      refine Proc.Settles.pure fun w₂ h₂ => ⟨?_, haccepted.mono fun streamId =>
        (h₁.grows streamId).trans (h₂.grows streamId), ?_⟩
      · exact h₂.owes.trans ((update_self ..).trans howed)
      · have hsub : continuing.Submitted w₁ turnId := by
          by_contra hunsubmitted
          have hnone := (submitted_iff hthread).mpr hunsubmitted
          rw [hsubmitted] at hnone
          cases hnone
        exact hsub.mono h₂.grows
    | none =>
      refine settles_ask fun w₂ h₂ => ⟨trivial, ?_⟩
      rintro draw w₃ ⟨⟨-, answers', hserve'⟩, -⟩
      obtain ⟨-, rfl⟩ := Prod.mk.inj hserve'
      have howes₂ : w₃.owes i = some turnId := by
        exact h₂.owes.trans ((update_self ..).trans howed)
      refine settles_appendOne (fun w₄ h₄ => .inr ⟨rfl, turnId, h₄.owes.trans howes₂, _, _, rfl⟩) ?_
      intro w₄ s' found sequence h₄ hevents hgrows w₅ h₅
      refine ⟨?_, haccepted.mono fun streamId => ((h₁.grows streamId).trans (h₂.grows streamId)).trans
        (((h₄.grows streamId).trans (hgrows streamId)).trans (h₅.grows streamId)), ?_⟩
      · exact h₅.owes.trans ((update_self ..).trans (h₄.owes.trans howes₂))
      · refine ⟨.fromNew (.forThread continuing.coordinates)
          (((continuing.store.events w₄.store (.forThread continuing.coordinates)).length : Int) + 1)
          (loopTurnSubmitted continuing.coordinates turnId acceptedEventId draw),
          (h₅.grows _).subset ?_, isTurnSubmitted_loopTurnSubmitted.mpr rfl⟩
        dsimp only
        rw [hevents, appendBatch, if_pos rfl]
        exact List.mem_append_right _ (List.mem_singleton_self _)
  · refine (update_self ..).trans ?_
    cases hread : continuing.store.readEvents (.forThread continuing.coordinates) w₁.store with
    | ok events => exact absurd (orHistory_ok.mpr hread) (hnot events)
    | error error => rfl

/-- **A call that owes a turn submits it.** -/
theorem settles_submitContinuation {acceptedEventId : EventRecordId} {threadId : ThreadId}
    {input : String} (haccepted : continuing.Accepted w turnId) (howes : w.owes i = some turnId) :
    continuing.Settles i (fun _ w' => w'.owes i = none ∧ continuing.Accepted w' turnId ∧
        continuing.Submitted w' turnId)
      (submitContinuation threadId continuing.coordinates turnId acceptedEventId input) w := by
  refine settles_bind (Proc.Settles.imp (fun _ w₁ h₁ => ?_) (fun _ _ h => h)
    (settles_appendLoopTurnSubmittedEvent haccepted howes))
  refine settles_ask fun w₂ h₂ => ⟨⟨h₂.owes.trans h₁.1, h₁.2.2.mono h₂.grows⟩, ?_⟩
  rintro r w₃ ⟨⟨-, answers, hserve⟩, -⟩
  obtain ⟨-, rfl⟩ := Prod.mk.inj hserve
  intro w₄ h₄
  have howes₄ : w₄.owes i = none := h₄.owes.trans (update_self ..)
  cases r with
  | ok _ => exact ⟨howes₄, (h₁.2.1.mono h₂.grows).mono h₄.grows, (h₁.2.2.mono h₂.grows).mono h₄.grows⟩
  | error e => exact howes₄

/-! ### A whole call -/

variable (continuing) in
/-- What a call that succeeds has done: its turn has its `turn.submitted`, or it has read the control
stream when nothing had accepted the continuation. -/
def Returned (i : ι) (receipt : LoopContinuationReceipt) (w : LoopWorld σ ι) : Prop :=
  (∃ turnId eventId, receipt = .accepted continuing.subject.loopId continuing.subject.parentTurnId
      turnId eventId ∧ continuing.Accepted w turnId ∧ continuing.Submitted w turnId) ∨
    ∃ seen ∈ w.reads i, ∀ event ∈ seen, ∀ turnId, ¬ continuing.Names event turnId

omit [DecidableEq ι] in
theorem Returned.mono (h : continuing.Returned i receipt w) (hrely : continuing.Rely i w w') :
    continuing.Returned i receipt w' := by
  rcases h with ⟨turnId, eventId, hreceipt, hacc, hsub⟩ | ⟨seen, hseen, hnone⟩
  · exact .inl ⟨turnId, eventId, hreceipt, hacc.mono hrely.grows, hsub.mono hrely.grows⟩
  · exact .inr ⟨seen, hrely.reads ▸ hseen, hnone⟩

variable (continuing) in
/-- What a call succeeds with. -/
def Done (i : ι) (receipt : LoopContinuationReceipt) (w : LoopWorld σ ι) : Prop :=
  w.owes i = none ∧ continuing.Returned i receipt w

theorem settles_done (howes : w.owes i = none) (h : continuing.Returned i receipt w) :
    continuing.Settles i (continuing.Done i)
      (pure receipt : LoopM LoopContinuationReceipt) w :=
  Proc.Settles.pure fun _ hrely => ⟨hrely.owes.trans howes, h.mono hrely⟩

omit [DecidableEq ι] in
theorem control_sorted (w : LoopWorld σ ι) :
    (continuing.control w).Pairwise fun e e' => e.sequence < e'.sequence :=
  Placed.increasing ((continuing.store.journal w.store).placed _)

theorem settles_readControl {α β : Type} {C : β → LoopWorld σ ι → Prop}
    {read : List EventRecord → VerletResult α} {f : α → LoopM β} (howes : w.owes i = none)
    (h : ∀ w₁ w₂ events a, continuing.Rely i w w₁ → continuing.Good w₁ →
      events = continuing.control w₁ → read events = .ok a → w₂.owes i = none →
      w₂.reads i = w.reads i ++ [events] → (∀ streamId,
        continuing.store.events w₁.store streamId <+: continuing.store.events w₂.store streamId) →
      continuing.Settles i C (f a) w₂) :
    continuing.Settles i C (LoopM.ask (.readControlEvents continuing.coordinates) >>= fun answer =>
      LoopM.given (orHistory answer >>= read) >>= f) w := by
  refine settles_ask fun w₁ h₁ => ⟨rfl, ?_⟩
  rintro r w₂ ⟨⟨-, answers, hserve⟩, hgood⟩
  obtain ⟨hr, rfl⟩ := Prod.mk.inj hserve
  subst hr
  have howes₁ : w₁.owes i = none := h₁.owes.trans howes
  refine settles_given (fun a ha => ?_) fun _ => howes₁
  obtain ⟨events, hevents, hread⟩ := bind_ok.mp ha
  rw [orHistory_ok] at hevents
  refine h w₁ _ events a h₁ hgood (continuing.store.reads hevents) hread howes₁ ?_
    fun _ => List.prefix_refl _
  refine (update_self ..).trans ?_
  rw [hevents, h₁.reads]
  rfl

section
omit [DecidableEq ι]

theorem receiptOf_accepted {loopId parentTurnId : String} {eventId : EventRecordId}
    (h : continuing.receiptOf event = .ok (some (.accepted loopId parentTurnId turnId eventId))) :
    loopId = continuing.subject.loopId ∧ parentTurnId = continuing.subject.parentTurnId := by
  unfold receiptOf readReceipt at h
  split at h
  · obtain ⟨payload, -, h⟩ := bind_ok.mp h
    split at h
    · cases h
    · rename_i hsame
      have hsubject : payload.subject = continuing.subject := by
        by_contra hother
        exact hsame (.inl hother)
      cases h
      rw [hsubject]
      exact ⟨rfl, rfl⟩
  · obtain ⟨payload, -, h⟩ := bind_ok.mp h
    split at h <;> cases h
  · cases h

theorem unnamed_of_last {seen : List EventRecord}
    (honce : seen.Pairwise fun event later =>
      ∀ turnId, continuing.Names event turnId → continuing.receiptOf later = .ok none)
    (hlast : LastOf continuing.receiptOf seen event receipt)
    (hreceipt : ∀ turnId, ¬ continuing.Names event turnId) :
    ∀ e ∈ seen, ∀ turnId, ¬ continuing.Names e turnId := by
  obtain ⟨hreads, earlier, later, rfl, hnone⟩ := hlast
  intro e he turnId hnames
  rcases List.mem_append.mp he with he | he
  · -- it would have been the last to say anything
    have hsilent := (List.pairwise_append.mp honce).2.2 e he event (by simp) turnId hnames
    cases hsilent.symm.trans hreads
  · rcases List.mem_cons.mp he with rfl | he
    · exact hreceipt turnId hnames
    · obtain ⟨eventId, hsaid⟩ := hnames
      cases (hnone e he).symm.trans hsaid

end

/-- **A call that finds a receipt** sees to it that an accepted turn has its `turn.submitted`. -/
theorem settles_resumeContinuation {threadId : ThreadId} {input : String} {seen : List EventRecord}
    (howes : w.owes i = none) (hseen : seen ∈ w.reads i) (hpre : seen <+: continuing.control w)
    (honce : seen.Pairwise fun event later =>
      ∀ turnId, continuing.Names event turnId → continuing.receiptOf later = .ok none)
    (hlast : LastOf continuing.receiptOf seen event receipt) :
    continuing.Settles i (continuing.Done i)
      (resumeContinuation threadId continuing.coordinates input receipt) w := by
  cases receipt with
  | accepted loopId parentTurnId turnId acceptedEventId =>
    obtain ⟨rfl, rfl⟩ := receiptOf_accepted hlast.reads
    have hacc : continuing.Accepted w turnId :=
      ⟨event, hpre.subset hlast.mem, acceptedEventId, hlast.reads⟩
    refine settles_ask fun w₁ h₁ => ⟨⟨rfl, hacc.mono h₁.grows, .inl (h₁.owes.trans howes)⟩, ?_⟩
    rintro r w₂ ⟨⟨-, answers, hserve⟩, -⟩
    obtain ⟨hr, rfl⟩ := Prod.mk.inj hserve
    subst hr
    have howes₁ : w₁.owes i = none := h₁.owes.trans howes
    refine settles_given (fun events hevents => ?_) fun hnot => ?_
    · rw [orHistory_ok] at hevents
      have hthread : events = continuing.thread w₁ := continuing.store.reads hevents
      cases hsubmitted : turnSubmittedEvent turnId events with
      | some existing =>
        have hsub : continuing.Submitted w₁ turnId := by
          by_contra hunsubmitted
          have hnone := (submitted_iff hthread).mpr hunsubmitted
          rw [hsubmitted] at hnone
          cases hnone
        refine settles_done ?_ (.inl ⟨turnId, acceptedEventId, rfl, hacc.mono h₁.grows, hsub⟩)
        refine (update_self ..).trans ?_
        rw [hevents, owesAfterRead, hsubmitted]
        exact howes₁
      | none =>
        -- the turn is the call's to submit
        have howed : (update w₁.owes i (owesAfterRead turnId (w₁.owes i)
            (continuing.store.readEvents (.forThread continuing.coordinates) w₁.store))) i =
              some turnId := by
          rw [update_self, hevents, owesAfterRead, hsubmitted]
          rfl
        refine settles_bind (Proc.Settles.imp (fun _ w₂ h₂ => ?_) (fun _ _ h => h)
          (settles_submitContinuation (hacc.mono h₁.grows) howed))
        exact settles_done h₂.1 (.inl ⟨turnId, acceptedEventId, rfl, h₂.2⟩)
    · refine (update_self ..).trans ?_
      cases hread : continuing.store.readEvents (.forThread continuing.coordinates) w₁.store with
      | ok events => exact absurd (orHistory_ok.mpr hread) (hnot events)
      | error error => rfl
  | noRequest =>
    refine settles_done howes (.inr ⟨seen, hseen, unnamed_of_last honce hlast ?_⟩)
    rintro turnId ⟨eventId, h⟩
    cases hlast.reads.symm.trans h
  | rejected loopId parentTurnId reason rejectedEventId =>
    refine settles_done howes (.inr ⟨seen, hseen, unnamed_of_last honce hlast ?_⟩)
    rintro turnId ⟨eventId, h⟩
    cases hlast.reads.symm.trans h

/-- What a call has found of a request that no receipt answers. -/
structure Undecided (continuing : Continuing σ ι) (i : ι) (payload : TurnContinueRequestedPayload)
    (w : LoopWorld σ ι) : Prop where
  owes : w.owes i = none
  subject : payload.subject = continuing.subject
  snapshot : payload.snapshotId = continuing.snapshotId
  asked : ∃ event ∈ continuing.control w, ∃ payload, continuing.Asks event payload
  seen : ∃ seen, (w.reads i)[1]? = some seen ∧ seen <+: continuing.control w ∧
    ∀ event ∈ seen, continuing.receiptOf event = .ok none

section
omit [DecidableEq ι]

theorem Undecided.mono (h : continuing.Undecided i payload w) (hrely : continuing.Rely i w w') :
    continuing.Undecided i payload w' := by
  obtain ⟨event, hevent, hasks⟩ := h.asked
  obtain ⟨seen, hseen, hpre, hnone⟩ := h.seen
  exact ⟨hrely.owes.trans h.owes, h.subject, h.snapshot,
    ⟨event, (hrely.grows _).subset hevent, hasks⟩,
    ⟨seen, hrely.reads ▸ hseen, hpre.trans (hrely.grows _), hnone⟩⟩

theorem Undecided.unnamed (h : continuing.Undecided i payload w) :
    ∃ seen ∈ w.reads i, ∀ event ∈ seen, ∀ turnId, ¬ continuing.Names event turnId := by
  obtain ⟨seen, hseen, -, hnone⟩ := h.seen
  refine ⟨seen, List.mem_of_getElem? hseen, ?_⟩
  rintro event hevent turnId ⟨eventId, hreceipt⟩
  cases (hnone event hevent).symm.trans hreceipt

end

/-- **A call that decides a request** records its decision, and submits the turn that it accepts. -/
theorem settles_applyContinuation {requestEvent : EventRecord} {decision : TurnContinuationDecision}
    (h : continuing.Undecided i payload w) :
    continuing.Settles i (continuing.Done i)
      (applyContinuation (continuing.call i) continuing.coordinates requestEvent payload decision) w := by
  cases decision with
  | noRequest => exact settles_done h.owes (.inr h.unnamed)
  | accept consumed mandateId input =>
    refine settles_bind ?_
    refine settles_ask fun w₁ h₁ => ⟨trivial, ?_⟩
    rintro draw w₂ ⟨⟨-, answers, hserve⟩, -⟩
    obtain ⟨-, rfl⟩ := Prod.mk.inj hserve
    refine settles_appendOne (fun w₃ h₃ => .inl ?_) ?_
    · have hundecided := (h.mono h₁).mono h₃
      exact ⟨rfl, hundecided.owes, hundecided.seen, hundecided.asked, consumed, draw,
        .inl ⟨mandateId, by rw [h.subject, h.snapshot]; rfl⟩⟩
    · intro w₃ s' found sequence h₃ hevents hgrows w₄ h₄
      have howed : w₄.owes i = some (continuing.proposals i).nextTurnId :=
        h₄.owes.trans (update_self ..)
      have hacc : continuing.Accepted w₄ (continuing.proposals i).nextTurnId := by
        refine ⟨.fromNew (controlStreamId continuing.coordinates)
          (((continuing.store.events w₃.store
            (controlStreamId continuing.coordinates)).length : Int) + 1)
          (controlDischarge continuing.coordinates .turnContinuationAccepted
            (Wire.continuationAccepted.toValue ⟨payload.subject, payload.snapshotId, mandateId,
              (continuing.proposals i).nextTurnId, none⟩) consumed draw),
          (h₄.grows _).subset ?_, ?_⟩
        · dsimp only
          rw [hevents, appendBatch, if_pos rfl]
          exact List.mem_append_right _ (List.mem_singleton_self _)
        · rw [h.subject, h.snapshot]
          exact names_accepted.mpr rfl
      refine settles_bind (Proc.Settles.imp (fun _ w₅ h₅ => ?_) (fun _ _ h => h)
        (settles_submitContinuation hacc howed))
      exact settles_done h₅.1 (.inl ⟨_, _, rfl, h₅.2⟩)
  | reject consumed reason failClosed =>
    refine settles_bind ?_
    refine settles_ask fun w₁ h₁ => ⟨trivial, ?_⟩
    rintro draw w₂ ⟨⟨-, answers, hserve⟩, -⟩
    obtain ⟨-, rfl⟩ := Prod.mk.inj hserve
    refine settles_appendOne (fun w₃ h₃ => .inl ?_) ?_
    · have hundecided := (h.mono h₁).mono h₃
      exact ⟨rfl, hundecided.owes, hundecided.seen, hundecided.asked, _, draw,
        .inr ⟨reason, by rw [h.subject, h.snapshot]⟩⟩
    · intro w₃ s' found sequence h₃ hevents hgrows w₄ h₄
      have hundecided := (h.mono h₁).mono h₃
      obtain ⟨seen, hseen, hunnamed⟩ := hundecided.unnamed
      refine settles_done (h₄.owes.trans ((update_self ..).trans hundecided.owes)) ?_
      exact .inr ⟨seen, by rw [h₄.reads]; exact hseen, hunnamed⟩

/-- **A whole call**, from its first step on. -/
theorem settles_continueTurnIfRequested (hreads : w.reads i = []) (howes : w.owes i = none) :
    continuing.Settles i (continuing.Done i)
      (continueTurnIfRequested continuing.codec (continuing.call i)) w := by
  refine settles_ask fun w₁ h₁ => ⟨trivial, ?_⟩
  rintro r w₂ ⟨⟨-, answers, hserve⟩, -⟩
  obtain ⟨rfl, rfl⟩ := Prod.mk.inj hserve
  have howes₁ : w₂.owes i = none := h₁.owes.trans howes
  have hreads₁ : w₂.reads i = [] := h₁.reads.trans hreads
  cases answers.thread with
  | error error => exact fun w₃ h₃ => h₃.owes.trans howes₁
  | ok _ =>
  refine settles_readControl howes₁ ?_
  intro w₃ w₄ first request h₃ hgood hfirst hrequest howes₄ hreads₄ hgrows
  rw [hreads₁, List.nil_append] at hreads₄
  have hsorted : first.Pairwise fun e e' => e.sequence < e'.sequence := by
    rw [hfirst]
    exact control_sorted w₃
  cases request with
  | none =>
    refine settles_done howes₄ (.inr ⟨first, by rw [hreads₄]; exact List.mem_singleton_self _, ?_⟩)
    -- whatever is accepted was asked for, and nothing was
    intro event hevent turnId hnames
    obtain ⟨asking, hasking, payload, found, hasks⟩ :=
      hgood.asked turnId ⟨event, hfirst ▸ hevent, hnames⟩
    cases (latestOf_none hsorted hrequest asking (hfirst ▸ hasking)).symm.trans hasks
  | some found =>
    obtain ⟨requestEvent, payload⟩ := found
    obtain ⟨event, hlast⟩ := latestOf_some hsorted hrequest
    have hasks : continuing.Asks event payload := ⟨requestEvent, hlast.reads⟩
    have hevent : event ∈ continuing.control w₃ := hfirst ▸ hlast.mem
    have hsnapshot : payload.snapshotId = continuing.snapshotId :=
      hgood.snapshot event hevent payload hasks
    have hsubject : payload.subject = continuing.subject := asks_subject hasks
    refine settles_readControl howes₄ ?_
    intro w₅ w₆ second existing h₅ hgood' hsecond hexisting howes₆ hreads₆ hgrows'
    rw [hreads₄] at hreads₆
    rw [hsubject, hsnapshot] at hexisting
    have hpre : second <+: continuing.control w₆ := hsecond ▸ hgrows' _
    have hsorted' : second.Pairwise fun e e' => e.sequence < e'.sequence := by
      rw [hsecond]
      exact control_sorted w₅
    cases existing with
    | some receipt =>
      obtain ⟨last, hlast'⟩ := latestOf_some hsorted' hexisting
      refine settles_resumeContinuation howes₆ ?_ hpre (hsecond ▸ hgood'.once) hlast'
      rw [hreads₆]
      simp
    | none =>
      have hundecided : continuing.Undecided i payload w₆ := by
        refine ⟨howes₆, hsubject, hsnapshot, ⟨event, ?_, payload, hasks⟩,
          second, by rw [hreads₆]; rfl, hpre, latestOf_none hsorted' hexisting⟩
        exact (hgrows' _).subset ((h₅.grows _).subset ((hgrows _).subset hevent))
      refine settles_readControl howes₆ ?_
      intro w₇ w₈ third decision h₇ _ _ _ howes₈ hreads₈ hgrows''
      refine settles_applyContinuation ⟨howes₈, hsubject, hsnapshot, ?_, ?_⟩
      · obtain ⟨asking, hasking, hasks'⟩ := (hundecided.mono h₇).asked
        exact ⟨asking, (hgrows'' _).subset hasking, hasks'⟩
      · refine ⟨second, by rw [hreads₈, hreads₆]; rfl, ?_, latestOf_none hsorted' hexisting⟩
        exact (hpre.trans (h₇.grows _)).trans (hgrows'' _)

end Continuing

end Verlet.Kernel
