import Verlet.Kernel.RuntimeHost.LoopContinuation

/-!
# Kernel — The runtime host — Loop continuations — Races

Any number of `continue_turn_if_requested` calls for one continuation, each proposing a turn of its
own, on a store that others write to as well.  A call may stop anywhere, with its host or alone.  The
acceptance and the `turn.submitted` are each looked for and then appended, with nothing in between to
keep another call out, and a later call takes the `turn.submitted` for the submission.

A step is in time where no call accepts or rejects behind another's acceptance, none finds a turn
without its `turn.submitted` while another is on its way to submit it, and none stops between the
`turn.submitted` and the submission.
-/

namespace Verlet.Kernel
open Support History
open RemoteStore (VerletResult)
open Function (update update_eq_self update_of_ne update_self)

/-- The store, what each call has read of the control stream, the turn that each is on its way to
submit, which calls have stopped, and the turns that were handed to `submit_turn`. -/
structure LoopWorld (σ ι : Type) where
  store : σ
  reads : ι → List (List EventRecord)
  owes : ι → Option String
  stopped : ι → Bool
  handed : List String

/-- What a call brings of its own. -/
structure Proposal where
  nextTurnId : String
  nowMs : Int
  completedContinuations : Nat

/-- Calls for one continuation of a thread, and the store they start from. -/
structure Continuing (σ ι : Type) where
  store : JournalStore σ
  codec : ControlCodec
  coordinates : ThreadCoordinates
  subject : TurnContinuationSubject
  snapshotId : String
  proposals : ι → Proposal
  start : σ

/-- What is answered from outside of the store. -/
structure LoopAnswers where
  thread : Except HostError Unit
  draw : Draw
  submitted : Except HostError Unit

variable {event : EventRecord} {streamId : EventStreamId} {records : List NewEventRecord}

namespace Continuing

variable {σ ι : Type} [DecidableEq ι] (continuing : Continuing σ ι)

def call (i : ι) : ContinueTurn where
  threadId := continuing.coordinates.threadId
  loopId := continuing.subject.loopId
  parentTurnId := continuing.subject.parentTurnId
  nextTurnId := (continuing.proposals i).nextTurnId
  nowMs := (continuing.proposals i).nowMs
  completedContinuations := (continuing.proposals i).completedContinuations

def begin : LoopWorld σ ι := ⟨continuing.start, fun _ => [], fun _ => none, fun _ => false, []⟩

/-! ### Streams -/

def control (w : LoopWorld σ ι) : List EventRecord :=
  continuing.store.events w.store (controlStreamId continuing.coordinates)

def thread (w : LoopWorld σ ι) : List EventRecord :=
  continuing.store.events w.store (.forThread continuing.coordinates)

def receiptOf (event : EventRecord) : VerletResult (Option LoopContinuationReceipt) :=
  readReceipt continuing.subject continuing.snapshotId event

/-- The event accepts the continuation with the turn. -/
def Names (event : EventRecord) (turnId : String) : Prop :=
  ∃ eventId, continuing.receiptOf event = .ok (some
    (.accepted continuing.subject.loopId continuing.subject.parentTurnId turnId eventId))

def Asks (event : EventRecord) (payload : TurnContinueRequestedPayload) : Prop :=
  ∃ found, readContinueRequest continuing.codec continuing.subject.loopId
    continuing.subject.parentTurnId event = .ok (some (found, payload))

def Accepted (w : LoopWorld σ ι) (turnId : String) : Prop :=
  ∃ event ∈ continuing.control w, continuing.Names event turnId

/-- The turn has its `turn.submitted`. -/
def Submitted (w : LoopWorld σ ι) (turnId : String) : Prop :=
  ∃ event ∈ continuing.thread w, isTurnSubmitted turnId event = true

/-! ### How the calls are served -/

/-- The turn that a call is on its way to submit, once the thread's stream was read for it. -/
def owesAfterRead (turnId : String) (owed : Option String) :
    HistoryResult (List EventRecord) → Option String
  | .error _   => none
  | .ok events => if (turnSubmittedEvent turnId events).isNone then some turnId else owed

/-- The turn that a call is on its way to submit after an append. -/
def owesAfterAppend (nextTurnId : String) (records : List NewEventRecord) (owed : Option String) :
    HistoryResult (List EventRecord) → Option String
  | .error _ => none
  | .ok _    =>
    if records.any fun record => record.kind = .turnContinuationAccepted then some nextTurnId else owed

/-- How a call is served: the store does what it does, the rest is any. -/
def serve (answers : LoopAnswers) (i : ι) (call : LoopCall) (w : LoopWorld σ ι) :
    call.Reply × LoopWorld σ ι :=
  match call with
  | .getThread _ => (answers.thread.map fun _ => continuing.coordinates, w)
  | .readControlEvents coordinates =>
    let found := continuing.store.readEvents (controlStreamId coordinates) w.store
    (found, { w with reads := update w.reads i (w.reads i ++ found.toOption.toList) })
  | .readThreadEvents coordinates turnId =>
    let found := continuing.store.readEvents (.forThread coordinates) w.store
    (found, { w with owes := update w.owes i (owesAfterRead turnId (w.owes i) found) })
  | .draw => (answers.draw, w)
  | .appendEvents streamId records =>
    let answered := continuing.store.appendEvents streamId records w.store
    (answered.1, { w with
      store := answered.2
      owes := update w.owes i (owesAfterAppend (continuing.proposals i).nextTurnId
        records (w.owes i) answered.1) })
  | .submitTurn _ turnId _ _ =>
    (answers.submitted, { w with
      owes := update w.owes i none
      handed := w.handed ++ [turnId] })

/-- How the calls are served, as long as they have not stopped. -/
def serves (i : ι) (call : LoopCall) (w : LoopWorld σ ι) (r : call.Reply) (w' : LoopWorld σ ι) :
    Prop :=
  w.stopped i = false ∧ ∃ answers, (r, w') = continuing.serve answers i call w

/-- Calls stop: one whose future is dropped, or all, with the host. -/
def Stops (w w' : LoopWorld σ ι) : Prop :=
  ∃ stopped : ι → Bool, (∀ i, w.stopped i = true → stopped i = true) ∧ w' = { w with stopped }

/-- Others append: neither receipts of a continuation, nor a `turn.submitted` of the accepted turn, nor
a request for the continuation of the turn in another snapshot. -/
def Appends (w w' : LoopWorld σ ι) : Prop :=
  ∃ streamId records, w' = { w with store :=
      (continuing.store.appendEvents streamId records w.store).2 } ∧
    ∀ record ∈ records, record.kind ≠ .turnContinuationAccepted ∧
      record.kind ≠ .turnContinuationRejected ∧
      ∀ sequence, (∀ turnId, continuing.Accepted w turnId →
          isTurnSubmitted turnId (.fromNew streamId sequence record) = false) ∧
        ∀ payload, continuing.Asks (.fromNew streamId sequence record) payload →
          payload.snapshotId = continuing.snapshotId

/-- What else may happen. -/
def others (w w' : LoopWorld σ ι) : Prop := Stops w w' ∨ continuing.Appends w w'

def starts (i : ι) (_ : LoopWorld σ ι)
    (p : Proc LoopCall LoopCall.Reply (Except HostError LoopContinuationReceipt)) : Prop :=
  p = (continueTurnIfRequested continuing.codec (continuing.call i)).run

/-! ### When the steps are in time -/

/-- An append of an acceptance or a rejection that is taken comes behind no acceptance that the call
has not seen. -/
def DecidesInTime (i : ι) : (call : LoopCall) → LoopWorld σ ι → call.Reply → Prop
  | .appendEvents _ records, w, r => (∃ appended, r = .ok appended) →
      (∃ record ∈ records, record.kind = .turnContinuationAccepted ∨
        record.kind = .turnContinuationRejected) →
      ∀ seen, (w.reads i)[1]? = some seen →
        ∀ event ∈ (continuing.control w).drop seen.length, ∀ turnId, ¬ continuing.Names event turnId
  | _, _, _ => True

/-- A call that finds a turn without its `turn.submitted` finds no other on its way to submit it. -/
def ResumesAlone (i : ι) : (call : LoopCall) → LoopWorld σ ι → call.Reply → Prop
  | .readThreadEvents _ turnId, w, r => (∃ found, r = .ok found) → ¬ continuing.Submitted w turnId →
      ∀ j, j ≠ i → w.stopped j = false → w.owes j ≠ some turnId
  | _, _, _ => True

/-- A call that fails on its way to submit a turn fails before its `turn.submitted`. -/
def FailsInTime (i : ι) : LoopCall → LoopWorld σ ι → LoopWorld σ ι → Prop
  | .submitTurn _ _ _ _, _, _ => True
  | _, w, w' => ∀ turnId, w.owes i = some turnId → w'.owes i = none → ¬ continuing.Submitted w turnId

def servesTimely (i : ι) (call : LoopCall) (w : LoopWorld σ ι) (r : call.Reply)
    (w' : LoopWorld σ ι) : Prop :=
  continuing.serves i call w r w' ∧ continuing.DecidesInTime i call w r ∧
    continuing.ResumesAlone i call w r ∧ continuing.FailsInTime i call w w'

/-- Something else happens, and no call stops on its way to submit a turn that has its
`turn.submitted`. -/
def othersTimely (w w' : LoopWorld σ ι) : Prop :=
  continuing.others w w' ∧ ∀ i turnId, w.stopped i = false → w'.stopped i = true →
    w.owes i = some turnId → ¬ continuing.Submitted w turnId

/-! ### What is true of the streams and the calls -/

/-- What is true in every run whose steps are in time. -/
structure Good (w : LoopWorld σ ι) : Prop where
  /-- The requests for the turn name the one snapshot. -/
  snapshot : ∀ event ∈ continuing.control w, ∀ payload, continuing.Asks event payload →
    payload.snapshotId = continuing.snapshotId
  /-- What is accepted was asked for. -/
  asked : ∀ turnId, continuing.Accepted w turnId →
    ∃ event ∈ continuing.control w, ∃ payload, continuing.Asks event payload
  /-- Nothing is said of the continuation once it is accepted. -/
  once : (continuing.control w).Pairwise fun event later =>
    ∀ turnId, continuing.Names event turnId → continuing.receiptOf later = .ok none
  owed : ∀ i turnId, w.owes i = some turnId → continuing.Accepted w turnId
  handed : ∀ turnId ∈ w.handed, continuing.Accepted w turnId ∧ continuing.Submitted w turnId
  nodup : w.handed.Nodup
  /-- One call at most is on its way to submit a turn. -/
  alone : ∀ i j turnId, w.stopped i = false → w.stopped j = false → w.owes i = some turnId →
    w.owes j = some turnId → i = j
  fresh : ∀ i turnId, w.stopped i = false → w.owes i = some turnId → turnId ∉ w.handed
  /-- An accepted turn with its `turn.submitted` is handed over, or about to be. -/
  kept : ∀ turnId, continuing.Accepted w turnId → continuing.Submitted w turnId →
    turnId ∈ w.handed ∨ ∃ i, w.stopped i = false ∧ w.owes i = some turnId

/-- Before the first call: the requests for the turn name the one snapshot, and nothing has accepted
the continuation. -/
structure Ready : Prop where
  snapshot : ∀ event ∈ continuing.control continuing.begin, ∀ payload, continuing.Asks event payload →
    payload.snapshotId = continuing.snapshotId
  unaccepted : ∀ turnId, ¬ continuing.Accepted continuing.begin turnId

variable {continuing} {i : ι} {w w' w'' : LoopWorld σ ι} {turnId : String}

section
omit [DecidableEq ι]

theorem Ready.good (h : continuing.Ready) : continuing.Good continuing.begin where
  snapshot := h.snapshot
  asked turnId haccepted := absurd haccepted (h.unaccepted turnId)
  once := by
    refine List.pairwise_of_forall_mem_list fun event he later _ turnId hnames => ?_
    exact absurd ⟨event, he, hnames⟩ (h.unaccepted turnId)
  owed := nofun
  handed := nofun
  nodup := List.nodup_nil
  alone := nofun
  fresh := nofun
  kept turnId haccepted := absurd haccepted (h.unaccepted turnId)

theorem control_ne_thread (coordinates : ThreadCoordinates) :
    controlStreamId coordinates ≠ .forThread coordinates := by
  intro h
  have htext := congrArg (fun id : EventStreamId => id.text.toList.head?) h
  simp [controlStreamId, EventStreamId.forThread] at htext

end

/-! ### Steps -/

theorem Good.reowe (h : continuing.Good w) {owed : Option String}
    (haccepted : ∀ turnId, owed = some turnId → continuing.Accepted w turnId)
    (halone : ∀ turnId, owed = some turnId → ∀ j, j ≠ i → w.stopped j = false →
      w.owes j ≠ some turnId)
    (hfresh : ∀ turnId, owed = some turnId → turnId ∉ w.handed)
    (hkept : ∀ turnId, w.owes i = some turnId → owed ≠ some turnId →
      ¬ continuing.Submitted w turnId) :
    continuing.Good { w with owes := update w.owes i owed } where
  snapshot := h.snapshot
  asked := h.asked
  once := h.once
  owed j turnId hj := by
    rcases update_eq_some hj with ⟨-, ho⟩ | ⟨-, hj⟩
    · exact haccepted turnId ho
    · exact h.owed j turnId hj
  handed := h.handed
  nodup := h.nodup
  alone j k turnId hj hk hjo hko := by
    rcases update_eq_some hjo with ⟨rfl, ho⟩ | ⟨hji, hjo'⟩
    · rcases update_eq_some hko with ⟨rfl, -⟩ | ⟨hki, hko'⟩
      · rfl
      · exact absurd hko' (halone turnId ho k hki hk)
    · rcases update_eq_some hko with ⟨rfl, ho⟩ | ⟨-, hko'⟩
      · exact absurd hjo' (halone turnId ho j hji hj)
      · exact h.alone j k turnId hj hk hjo' hko'
  fresh j turnId hj hjo := by
    rcases update_eq_some hjo with ⟨-, ho⟩ | ⟨-, hjo⟩
    · exact hfresh turnId ho
    · exact h.fresh j turnId hj hjo
  kept turnId hacc hsub := by
    rcases h.kept turnId hacc hsub with hhanded | ⟨j, hj, hjo⟩
    · exact .inl hhanded
    · by_cases hji : j = i
      · subst hji
        by_cases ho : owed = some turnId
        · exact .inr ⟨j, hj, (update_self ..).trans ho⟩
        · exact absurd hsub (hkept turnId hjo ho)
      · exact .inr ⟨j, hj, (update_of_ne hji ..).trans hjo⟩

variable {s' : σ}

omit [DecidableEq ι] in
theorem Good.extend (h : continuing.Good w) {later laterThread : List EventRecord}
    (hcontrol : continuing.control { w with store := s' } = continuing.control w ++ later)
    (hthread : continuing.thread { w with store := s' } = continuing.thread w ++ laterThread)
    (hunnamed : ∀ event ∈ later, ∀ turnId, ¬ continuing.Names event turnId)
    (hsilent : ∀ event ∈ later, (∃ turnId, continuing.Accepted w turnId) →
      continuing.receiptOf event = .ok none)
    (hsnapshot : ∀ event ∈ later, ∀ payload, continuing.Asks event payload →
      payload.snapshotId = continuing.snapshotId)
    (hsubmitted : ∀ event ∈ laterThread, ∀ turnId, isTurnSubmitted turnId event = true →
      continuing.Accepted w turnId → ∃ i, w.stopped i = false ∧ w.owes i = some turnId) :
    continuing.Good { w with store := s' } := by
  have haccepted : ∀ turnId, continuing.Accepted { w with store := s' } turnId ↔
      continuing.Accepted w turnId := by
    intro turnId
    unfold Accepted
    rw [hcontrol]
    constructor
    · rintro ⟨event, hevent, hnames⟩
      rcases List.mem_append.mp hevent with hevent | hevent
      · exact ⟨event, hevent, hnames⟩
      · exact absurd hnames (hunnamed event hevent turnId)
    · rintro ⟨event, hevent, hnames⟩
      exact ⟨event, List.mem_append_left _ hevent, hnames⟩
  have hgrown : ∀ turnId, continuing.Submitted w turnId →
      continuing.Submitted { w with store := s' } turnId := by
    rintro turnId ⟨event, hevent, hsubmits⟩
    exact ⟨event, hthread ▸ List.mem_append_left _ hevent, hsubmits⟩
  refine ⟨?_, ?_, ?_, ?_, ?_, h.nodup, h.alone, h.fresh, ?_⟩
  · intro event hevent
    rcases List.mem_append.mp (hcontrol ▸ hevent) with hevent | hevent
    · exact h.snapshot event hevent
    · exact hsnapshot event hevent
  · intro turnId hacc
    obtain ⟨event, hevent, hasks⟩ := h.asked turnId ((haccepted turnId).mp hacc)
    exact ⟨event, hcontrol ▸ List.mem_append_left _ hevent, hasks⟩
  · rw [hcontrol, List.pairwise_append]
    refine ⟨h.once, ?_, fun event hevent new hnew turnId hnames => ?_⟩
    · exact List.pairwise_of_forall_mem_list fun event hevent _ _ turnId hnames =>
      absurd hnames (hunnamed event hevent turnId)
    · exact hsilent new hnew ⟨turnId, event, hevent, hnames⟩
  · exact fun i turnId ho => (haccepted turnId).mpr (h.owed i turnId ho)
  · intro turnId hhanded
    obtain ⟨hacc, hsub⟩ := h.handed turnId hhanded
    exact ⟨(haccepted turnId).mpr hacc, hgrown turnId hsub⟩
  · rintro turnId hacc ⟨event, hevent, hsubmits⟩
    have hacc' := (haccepted turnId).mp hacc
    rcases List.mem_append.mp (hthread ▸ hevent) with hevent | hevent
    · exact h.kept turnId hacc' ⟨event, hevent, hsubmits⟩
    · exact .inr (hsubmitted event hevent turnId hsubmits hacc')

theorem Good.accept (h : continuing.Good w) (hunaccepted : ∀ turnId, ¬ continuing.Accepted w turnId)
    (hliving : w.stopped i = false)
    (hcontrol : continuing.control { w with store := s' } = continuing.control w ++ [event])
    (hnames : ∀ other, continuing.Names event other ↔ other = turnId)
    (hsnapshot : ∀ payload, continuing.Asks event payload →
      payload.snapshotId = continuing.snapshotId)
    (hasked : ∃ event ∈ continuing.control w, ∃ payload, continuing.Asks event payload) :
    continuing.Good { w with store := s', owes := update w.owes i (some turnId) } := by
  have haccepted : ∀ other, continuing.Accepted { w with
      store := s', owes := update w.owes i (some turnId) } other ↔ other = turnId := by
    intro other
    change (∃ e ∈ continuing.control { w with store := s' }, _) ↔ _
    rw [hcontrol]
    constructor
    · rintro ⟨e, he, hother⟩
      rcases List.mem_append.mp he with he | he
      · exact absurd ⟨e, he, hother⟩ (hunaccepted other)
      · exact (hnames other).mp (List.mem_singleton.mp he ▸ hother)
    · rintro rfl
      exact ⟨event, by simp, (hnames other).mpr rfl⟩
  -- no call has owed a turn, and none was handed over
  have hnone : ∀ j other, w.owes j ≠ some other := fun j other ho => hunaccepted other (h.owed j other ho)
  have hunhanded : ∀ other, other ∉ w.handed := fun other hmem => hunaccepted other (h.handed other hmem).1
  refine ⟨?_, ?_, ?_, ?_, ?_, h.nodup, ?_, fun j other _ _ => hunhanded other, ?_⟩
  · intro e he
    rcases List.mem_append.mp (hcontrol ▸ he) with he | he
    · exact h.snapshot e he
    · exact List.mem_singleton.mp he ▸ hsnapshot
  · intro other _
    obtain ⟨e, he, hasks⟩ := hasked
    exact ⟨e, hcontrol ▸ List.mem_append_left _ he, hasks⟩
  · change (continuing.control { w with store := s' }).Pairwise _
    rw [hcontrol, List.pairwise_append]
    refine ⟨h.once, List.pairwise_singleton .., fun e he _ _ other hother => ?_⟩
    exact absurd ⟨e, he, hother⟩ (hunaccepted other)
  · intro j other hj
    rcases update_eq_some hj with ⟨-, ho⟩ | ⟨-, hj⟩
    · exact (haccepted other).mpr (Option.some.inj ho).symm
    · exact absurd hj (hnone j other)
  · exact fun other hmem => absurd hmem (hunhanded other)
  · intro j k other _ _ hj hk
    rcases update_eq_some hj with ⟨rfl, -⟩ | ⟨-, hj⟩
    · rcases update_eq_some hk with ⟨rfl, -⟩ | ⟨-, hk⟩
      · rfl
      · exact absurd hk (hnone k other)
    · exact absurd hj (hnone j other)
  · intro other hacc _
    obtain rfl := (haccepted other).mp hacc
    exact .inr ⟨i, hliving, update_self ..⟩

theorem Good.submit (h : continuing.Good w) (hliving : w.stopped i = false)
    (howes : w.owes i = some turnId) (hsubmitted : continuing.Submitted w turnId) :
    continuing.Good { w with
      owes := update w.owes i none, handed := w.handed ++ [turnId] } where
  snapshot := h.snapshot
  asked := h.asked
  once := h.once
  owed j other hj := by
    rcases update_eq_some hj with ⟨-, ⟨⟩⟩ | ⟨-, hj⟩
    exact h.owed j other hj
  handed other hmem := by
    rcases List.mem_append.mp hmem with hmem | hmem
    · exact h.handed other hmem
    · obtain rfl := List.mem_singleton.mp hmem
      exact ⟨h.owed i other howes, hsubmitted⟩
  nodup := by
    rw [List.nodup_append]
    refine ⟨h.nodup, List.nodup_singleton _, ?_⟩
    rintro other hmem _ hsame rfl
    obtain rfl := List.mem_singleton.mp hsame
    exact h.fresh i other hliving howes hmem
  alone j k other hj hk hjo hko := by
    rcases update_eq_some hjo with ⟨-, ⟨⟩⟩ | ⟨-, hjo'⟩
    rcases update_eq_some hko with ⟨-, ⟨⟩⟩ | ⟨-, hko'⟩
    exact h.alone j k other hj hk hjo' hko'
  fresh j other hj hjo hmem := by
    rcases update_eq_some hjo with ⟨-, ⟨⟩⟩ | ⟨hji, hjo'⟩
    rcases List.mem_append.mp hmem with hmem | hmem
    · exact h.fresh j other hj hjo' hmem
    · obtain rfl := List.mem_singleton.mp hmem
      exact hji (h.alone j i other hj hliving hjo' howes)
  kept other hacc hsub := by
    rcases h.kept other hacc hsub with hmem | ⟨j, hj, hjo⟩
    · exact .inl (List.mem_append_left _ hmem)
    · by_cases hji : j = i
      · subst hji
        obtain rfl := Option.some.inj (hjo.symm.trans howes)
        exact .inl (by simp)
      · exact .inr ⟨j, hj, (update_of_ne hji ..).trans hjo⟩

omit [DecidableEq ι] in
theorem Good.stop (h : continuing.Good w) {stopped : ι → Bool}
    (hmore : ∀ i, w.stopped i = true → stopped i = true)
    (htimely : ∀ i turnId, w.stopped i = false → stopped i = true → w.owes i = some turnId →
      ¬ continuing.Submitted w turnId) : continuing.Good { w with stopped } := by
  have hliving : ∀ i, stopped i = false → w.stopped i = false := by
    intro i hi
    by_contra hstopped
    rw [hmore i (Bool.eq_true_of_not_eq_false hstopped)] at hi
    cases hi
  refine ⟨h.snapshot, h.asked, h.once, h.owed, h.handed, h.nodup, ?_, ?_, ?_⟩
  · exact fun i j turnId hi hj => h.alone i j turnId (hliving i hi) (hliving j hj)
  · exact fun i turnId hi => h.fresh i turnId (hliving i hi)
  · intro turnId hacc hsub
    rcases h.kept turnId hacc hsub with hmem | ⟨i, hi, ho⟩
    · exact .inl hmem
    · cases hstopped : stopped i with
      | false => exact .inr ⟨i, hstopped, ho⟩
      | true => exact absurd hsub (htimely i turnId hi hstopped ho)

/-! ### What a call asks -/

variable (continuing)

/-- The append of a decision: nothing was said of the continuation when the call looked. -/
structure Decides (i : ι) (streamId : EventStreamId) (records : List NewEventRecord)
    (w : LoopWorld σ ι) : Prop where
  stream : streamId = controlStreamId continuing.coordinates
  owes : w.owes i = none
  seen : ∃ seen, (w.reads i)[1]? = some seen ∧ seen <+: continuing.control w ∧
    ∀ event ∈ seen, continuing.receiptOf event = .ok none
  asked : ∃ event ∈ continuing.control w, ∃ payload, continuing.Asks event payload
  record : ∃ consumed draw,
    (∃ mandateId, records = [controlDischarge continuing.coordinates .turnContinuationAccepted
      (Wire.continuationAccepted.toValue ⟨continuing.subject, continuing.snapshotId, mandateId,
        (continuing.proposals i).nextTurnId, none⟩) consumed draw]) ∨
    ∃ reason, records = [controlDischarge continuing.coordinates .turnContinuationRejected
      (Wire.continuationRejected.toValue ⟨continuing.subject, continuing.snapshotId, reason, none⟩)
      consumed draw]

/-- The append of the `turn.submitted` of the turn that the call is on its way to submit. -/
structure Records (i : ι) (streamId : EventStreamId) (records : List NewEventRecord)
    (w : LoopWorld σ ι) : Prop where
  stream : streamId = .forThread continuing.coordinates
  record : ∃ turnId, w.owes i = some turnId ∧ ∃ acceptedEventId draw,
    records = [loopTurnSubmitted continuing.coordinates turnId acceptedEventId draw]

def asks (i : ι) : LoopCall → LoopWorld σ ι → Prop
  | .readControlEvents coordinates, _ => coordinates = continuing.coordinates
  | .readThreadEvents coordinates turnId, w => coordinates = continuing.coordinates ∧
      continuing.Accepted w turnId ∧ (w.owes i = none ∨ w.owes i = some turnId)
  | .appendEvents streamId records, w =>
    continuing.Decides i streamId records w ∨ continuing.Records i streamId records w
  | .submitTurn _ turnId _ _, w => w.owes i = some turnId ∧ continuing.Submitted w turnId
  | _, _ => True

variable {continuing}

section
omit [DecidableEq ι]

theorem names_accepted {sequence : EventSequence} {mandateId nextTurnId : String}
    {consumed : EventRecordId} {draw : Draw} :
    continuing.Names (.fromNew streamId sequence (controlDischarge continuing.coordinates
      .turnContinuationAccepted (Wire.continuationAccepted.toValue ⟨continuing.subject,
        continuing.snapshotId, mandateId, nextTurnId, none⟩) consumed draw)) turnId ↔
      turnId = nextTurnId := by
  have hread : decodeOr Wire.continuationAccepted (.fromNew streamId sequence
      (controlDischarge continuing.coordinates .turnContinuationAccepted
        (Wire.continuationAccepted.toValue ⟨continuing.subject, continuing.snapshotId, mandateId,
          nextTurnId, none⟩) consumed draw)) "turn.continuation.accepted payload is invalid: " =
      .ok ⟨continuing.subject, continuing.snapshotId, mandateId, nextTurnId, none⟩ :=
    decodeOr_ok.mpr (Wire.wire_continuationAccepted _)
  have hreceipt : continuing.receiptOf (.fromNew streamId sequence
      (controlDischarge continuing.coordinates .turnContinuationAccepted
        (Wire.continuationAccepted.toValue ⟨continuing.subject, continuing.snapshotId, mandateId,
          nextTurnId, none⟩) consumed draw)) =
      .ok (some (.accepted continuing.subject.loopId continuing.subject.parentTurnId nextTurnId
        draw.eventId)) :=
    bind_ok.mpr ⟨_, hread, if_neg (by simp)⟩
  unfold Names
  rw [hreceipt]
  constructor
  · rintro ⟨eventId, h⟩
    cases h
    rfl
  · rintro rfl
    exact ⟨_, rfl⟩

theorem Names.kind (h : continuing.Names event turnId) :
    event.kind = .turnContinuationAccepted := by
  obtain ⟨eventId, h⟩ := h
  unfold receiptOf readReceipt at h
  split at h
  · assumption
  · obtain ⟨payload, -, h⟩ := bind_ok.mp h
    split at h <;> cases h
  · cases h

theorem receiptOf_none (haccepted : event.kind ≠ .turnContinuationAccepted)
    (hrejected : event.kind ≠ .turnContinuationRejected) :
    continuing.receiptOf event = .ok none := by
  unfold receiptOf readReceipt
  split
  · exact absurd ‹_› haccepted
  · exact absurd ‹_› hrejected
  · rfl

theorem Asks.kind {payload : TurnContinueRequestedPayload} (h : continuing.Asks event payload) :
    event.kind = .turnContinueRequested := by
  obtain ⟨found, h⟩ := h
  by_contra hkind
  rw [readContinueRequest, if_pos hkind] at h
  cases h

theorem asks_subject {payload : TurnContinueRequestedPayload} (h : continuing.Asks event payload) :
    payload.subject = continuing.subject := by
  obtain ⟨found, h⟩ := h
  unfold readContinueRequest at h
  split at h
  · cases h
  · split at h
    · cases h
    · split at h
      · cases h
      · rename_i hsame
        cases h
        simp only [not_or, ne_eq, not_not] at hsame
        cases hsubject : payload.subject with
        | mk loopId parentTurnId =>
          rw [hsubject] at hsame
          obtain ⟨rfl, rfl⟩ :
            loopId = continuing.subject.loopId ∧ parentTurnId = continuing.subject.parentTurnId := hsame
          rfl

end

theorem isTurnSubmitted_loopTurnSubmitted {sequence : EventSequence}
    {coordinates : ThreadCoordinates} {nextTurnId : String} {acceptedEventId : EventRecordId}
    {draw : Draw} :
    isTurnSubmitted turnId (.fromNew streamId sequence
      (loopTurnSubmitted coordinates nextTurnId acceptedEventId draw)) = true ↔
        turnId = nextTurnId := by
  have hpayload : ((EventRecord.fromNew streamId sequence
      (loopTurnSubmitted coordinates nextTurnId acceptedEventId draw)).payload.index "turn_id").asStr =
        some nextTurnId := by
    simp [EventRecord.fromNew, loopTurnSubmitted, NewEventRecord.discharged, Json.index, Wire.object,
      Json.asObject, Wire.get?_object, Json.asStr]
  rw [isTurnSubmitted, decide_eq_true_iff, hpayload, Option.some.injEq]
  exact ⟨fun h => h.2.symm, fun h => ⟨rfl, h.symm⟩⟩

/-! ### Every step in time -/

section
omit [DecidableEq ι]

theorem events_append
    (hevents : continuing.store.events s' =
      appendBatch (continuing.store.events w.store) streamId records) (stream : EventStreamId) :
    continuing.store.events s' stream = continuing.store.events w.store stream ++
      if stream = streamId then
        numbered streamId (continuing.store.events w.store streamId).length records else [] := by
  rw [hevents, appendBatch]
  split
  · rename_i heq
    rw [heq]
  · exact (List.append_nil _).symm

theorem Decides.unaccepted (h : continuing.Decides i streamId records w)
    (htimely : ∀ seen, (w.reads i)[1]? = some seen →
      ∀ event ∈ (continuing.control w).drop seen.length, ∀ turnId, ¬ continuing.Names event turnId) :
    ∀ turnId, ¬ continuing.Accepted w turnId := by
  obtain ⟨seen, hseen, ⟨later, hlater⟩, hnone⟩ := h.seen
  rintro turnId ⟨event, hevent, hnames⟩
  rw [← hlater] at hevent
  rcases List.mem_append.mp hevent with hevent | hevent
  · obtain ⟨eventId, hreceipt⟩ := hnames
    cases (hnone event hevent).symm.trans hreceipt
  · refine htimely seen hseen event ?_ turnId hnames
    rw [← hlater, List.drop_left]
    exact hevent

end

/-- **A decision in time** keeps what is true. -/
theorem Good.decide (h : continuing.Good w) {found : List EventRecord}
    (hliving : w.stopped i = false) (hdecides : continuing.Decides i streamId records w)
    (hunaccepted : ∀ turnId, ¬ continuing.Accepted w turnId)
    (hevents : continuing.store.events s' =
      appendBatch (continuing.store.events w.store) streamId records) :
    continuing.Good { w with
      store := s'
      owes := update w.owes i (owesAfterAppend (continuing.proposals i).nextTurnId records
        (w.owes i) (.ok found)) } := by
  have hcontrol := events_append hevents (controlStreamId continuing.coordinates)
  have hthread := events_append hevents (.forThread continuing.coordinates)
  rw [hdecides.stream, if_pos rfl] at hcontrol
  rw [hdecides.stream, if_neg (control_ne_thread _).symm] at hthread
  obtain ⟨consumed, draw, ⟨mandateId, rfl⟩ | ⟨reason, rfl⟩⟩ := hdecides.record
  · refine h.accept hunaccepted hliving hcontrol (fun other => names_accepted) ?_ hdecides.asked
    intro payload hasks
    cases hasks.kind
  · have howed : owesAfterAppend (continuing.proposals i).nextTurnId [controlDischarge
        continuing.coordinates .turnContinuationRejected (Wire.continuationRejected.toValue
          ⟨continuing.subject, continuing.snapshotId, reason, none⟩) consumed draw] (w.owes i)
        (.ok found) = w.owes i := rfl
    rw [howed, update_eq_self]
    refine h.extend hcontrol hthread ?_ ?_ ?_ (List.forall_mem_nil _)
    · intro event he other hnames
      obtain rfl := List.mem_singleton.mp he
      cases hnames.kind
    · rintro event - ⟨other, hacc⟩
      exact absurd hacc (hunaccepted other)
    · intro event he payload hasks
      obtain rfl := List.mem_singleton.mp he
      cases hasks.kind

/-- **The `turn.submitted`** of the turn that a call is on its way to submit keeps what is true. -/
theorem Good.record (h : continuing.Good w) {found : List EventRecord}
    (hliving : w.stopped i = false) (hrecords : continuing.Records i streamId records w)
    (hevents : continuing.store.events s' =
      appendBatch (continuing.store.events w.store) streamId records) :
    continuing.Good { w with
      store := s'
      owes := update w.owes i (owesAfterAppend (continuing.proposals i).nextTurnId records
        (w.owes i) (.ok found)) } := by
  have hcontrol := events_append hevents (controlStreamId continuing.coordinates)
  have hthread := events_append hevents (.forThread continuing.coordinates)
  rw [hrecords.stream, if_neg (control_ne_thread _)] at hcontrol
  rw [hrecords.stream, if_pos rfl] at hthread
  obtain ⟨turnId, howes, acceptedEventId, draw, rfl⟩ := hrecords.record
  have howed : owesAfterAppend (continuing.proposals i).nextTurnId
      [loopTurnSubmitted continuing.coordinates turnId acceptedEventId draw] (w.owes i) (.ok found) =
        w.owes i := rfl
  rw [howed, update_eq_self]
  refine h.extend hcontrol hthread (List.forall_mem_nil _) (List.forall_mem_nil _)
    (List.forall_mem_nil _) ?_
  intro event he other hsubmits _
  obtain rfl := List.mem_singleton.mp he
  obtain rfl := isTurnSubmitted_loopTurnSubmitted.mp hsubmits
  exact ⟨i, hliving, howes⟩

theorem Good.release (h : continuing.Good w)
    (hfails : ∀ turnId, w.owes i = some turnId → ¬ continuing.Submitted w turnId) :
    continuing.Good { w with owes := update w.owes i none } :=
  h.reowe nofun nofun nofun fun turnId howes _ => hfails turnId howes

omit [DecidableEq ι] in
theorem submitted_iff {events : List EventRecord} (h : events = continuing.thread w) :
    (turnSubmittedEvent turnId events).isNone = true ↔ ¬ continuing.Submitted w turnId := by
  rw [Option.isNone_iff_eq_none, turnSubmittedEvent_none, h, Submitted]
  simp only [not_exists, not_and, Bool.not_eq_true]

/-- **A read of the thread's stream**, in time, keeps what is true. -/
theorem Good.readThread (h : continuing.Good w)
    {r : HistoryResult (List EventRecord)} (hread : ∀ events, r = .ok events →
      events = continuing.thread w)
    (haccepted : continuing.Accepted w turnId) (howes : w.owes i = none ∨ w.owes i = some turnId)
    (halone : (∃ found, r = .ok found) → ¬ continuing.Submitted w turnId →
      ∀ j, j ≠ i → w.stopped j = false → w.owes j ≠ some turnId)
    (hfails : ∀ other, w.owes i = some other → owesAfterRead turnId (w.owes i) r = none →
      ¬ continuing.Submitted w other) :
    continuing.Good { w with
      owes := update w.owes i (owesAfterRead turnId (w.owes i) r) } := by
  cases r with
  | error error => exact h.release fun other ho => hfails other ho rfl
  | ok events =>
    by_cases hnone : (turnSubmittedEvent turnId events).isNone = true
    · have hunsubmitted := (submitted_iff (hread events rfl)).mp hnone
      rw [owesAfterRead, if_pos hnone]
      refine h.reowe ?_ ?_ ?_ ?_
      · rintro _ ⟨⟩
        exact haccepted
      · rintro _ ⟨⟩
        exact halone ⟨events, rfl⟩ hunsubmitted
      · rintro _ ⟨⟩ hmem
        exact hunsubmitted (h.handed turnId hmem).2
      · intro other ho hother
        rcases howes with hnothing | hsame
        · cases hnothing.symm.trans ho
        · exact absurd (hsame.symm.trans ho) hother
    · rw [owesAfterRead, if_neg hnone, update_eq_self]
      exact h

/-- **A call in time** keeps what is true. -/
theorem Good.call (h : continuing.Good w) {call : LoopCall} {r : call.Reply}
    (hasks : continuing.asks i call w) (hserves : continuing.servesTimely i call w r w') :
    continuing.Good w' := by
  obtain ⟨⟨hliving, answers, hserve⟩, hdecides, halone, hfails⟩ := hserves
  cases call with
  | readControlEvents coordinates =>
    obtain ⟨-, rfl⟩ := Prod.mk.inj hserve
    exact ⟨h.snapshot, h.asked, h.once, h.owed, h.handed, h.nodup, h.alone, h.fresh, h.kept⟩
  | readThreadEvents coordinates turnId =>
    obtain ⟨hr, rfl⟩ := Prod.mk.inj hserve
    obtain ⟨rfl, haccepted, howes⟩ := hasks
    subst hr
    refine h.readThread (fun events hevents => continuing.store.reads hevents) haccepted howes halone
      fun other ho hnone => hfails other ho ((update_self ..).trans hnone)
  | appendEvents streamId records =>
    obtain ⟨hr, rfl⟩ := Prod.mk.inj hserve
    rcases continuing.store.append_cases streamId records w.store with ⟨e, hrefused⟩ |
      ⟨s', htaken, -, hevents, -⟩
    · rw [hrefused] at hfails ⊢
      exact h.release fun turnId howes => hfails turnId howes (update_self ..)
    · rw [htaken] at hr ⊢
      rcases hasks with hask | hask
      · refine h.decide hliving hask (hask.unaccepted (hdecides ⟨_, hr⟩ ?_)) hevents
        obtain ⟨consumed, draw, ⟨mandateId, rfl⟩ | ⟨reason, rfl⟩⟩ := hask.record
        · exact ⟨_, List.mem_singleton_self _, .inl rfl⟩
        · exact ⟨_, List.mem_singleton_self _, .inr rfl⟩
      · exact h.record hliving hask hevents
  | submitTurn threadId turnId input mode =>
    obtain ⟨-, rfl⟩ := Prod.mk.inj hserve
    exact h.submit hliving hasks.1 hasks.2
  | _ =>
    obtain ⟨-, rfl⟩ := Prod.mk.inj hserve
    exact h

omit [DecidableEq ι] in
/-- **What else happens in time** keeps what is true. -/
theorem Good.other (h : continuing.Good w) (hother : continuing.othersTimely w w') :
    continuing.Good w' := by
  obtain ⟨⟨stopped, hmore, rfl⟩ | ⟨streamId, records, rfl, hrecords⟩, htimely⟩ := hother
  · exact h.stop hmore htimely
  · rcases continuing.store.append_cases streamId records w.store with ⟨e, hrefused⟩ |
      ⟨s', htaken, -, hevents, -⟩
    · rw [hrefused]
      exact h
    · rw [htaken]
      -- whatever is new on a stream is one of the records
      have hnew : ∀ {id : EventStreamId} {event : EventRecord},
          event ∈ (if id = streamId then
            numbered streamId (continuing.store.events w.store streamId).length records else []) →
          ∃ record ∈ records, ∃ sequence : EventSequence,
            event = .fromNew streamId sequence record := by
        intro id event he
        split at he
        · exact History.mem_numbered he
        · exact (List.not_mem_nil he).elim
      refine h.extend (events_append hevents _) (events_append hevents _) ?_ ?_ ?_ ?_
      · intro event he turnId hnames
        obtain ⟨record, hr, sequence, rfl⟩ := hnew he
        exact (hrecords record hr).1 hnames.kind
      · intro event he _
        obtain ⟨record, hr, sequence, rfl⟩ := hnew he
        exact receiptOf_none (hrecords record hr).1 (hrecords record hr).2.1
      · intro event he payload hasks
        obtain ⟨record, hr, sequence, rfl⟩ := hnew he
        exact ((hrecords record hr).2.2 sequence).2 payload hasks
      · intro event he turnId hsubmits haccepted
        obtain ⟨record, hr, sequence, rfl⟩ := hnew he
        rw [((hrecords record hr).2.2 sequence).1 turnId haccepted] at hsubmits
        cases hsubmits

end Continuing

end Verlet.Kernel
