import Verlet.Kernel.RuntimeHost.LoopContinuation.Calls

/-!
# Kernel — The runtime host — Loop continuations — One turn

Runs of the calls for one continuation.
-/

namespace Verlet.Kernel
open Support History

namespace Continuing

variable {σ ι : Type} [DecidableEq ι] {continuing : Continuing σ ι} {i : ι}
  {w w' w'' : LoopWorld σ ι} {turnId : String}

/-! ### Every call of a run -/

abbrev Calls (σ ι : Type) :=
  Pool ι LoopCall LoopCall.Reply (Except HostError LoopContinuationReceipt) (LoopWorld σ ι)

variable (continuing)

abbrev Reaches (pool : Calls σ ι) : Prop :=
  Pool.Reachable continuing.starts continuing.serves continuing.others continuing.begin pool

abbrev StepTimely : Calls σ ι → Calls σ ι → Prop :=
  Pool.Step continuing.starts continuing.servesTimely continuing.othersTimely

/-- The pools that runs lead to whose steps are in time. -/
abbrev ReachesTimely (pool : Calls σ ι) : Prop :=
  Pool.Reachable continuing.starts continuing.servesTimely continuing.othersTimely continuing.begin pool

/-- The ways of the calls, on a state that is good as it should be. -/
def ways (good : LoopWorld σ ι → Prop) :
    Pool.Ways ι LoopCall LoopCall.Reply (Except HostError LoopContinuationReceipt) (LoopWorld σ ι) where
  good := good
  waits i w := w.reads i = [] ∧ w.owes i = none
  rely := continuing.Rely
  asks := continuing.asks
  answers := continuing.answers
  ends i := Proc.EndsIn (continuing.Done i) fun _ w => w.owes i = none

variable {continuing}

theorem rely_of_serves {call : LoopCall} {r : call.Reply} (h : continuing.serves i call w r w') {j : ι}
    (hji : j ≠ i) : continuing.Rely j w w' := by
  obtain ⟨-, answers, hserve⟩ := h
  cases call with
  | readControlEvents coordinates =>
    obtain ⟨-, rfl⟩ := Prod.mk.inj hserve
    exact ⟨fun _ => List.prefix_refl _, Function.update_of_ne hji .., rfl⟩
  | readThreadEvents coordinates turnId =>
    obtain ⟨-, rfl⟩ := Prod.mk.inj hserve
    exact ⟨fun _ => List.prefix_refl _, rfl, Function.update_of_ne hji ..⟩
  | appendEvents streamId records =>
    obtain ⟨-, rfl⟩ := Prod.mk.inj hserve
    exact ⟨fun streamId' => continuing.store.prefix_append streamId records w.store streamId', rfl,
      Function.update_of_ne hji ..⟩
  | submitTurn threadId turnId input mode =>
    obtain ⟨-, rfl⟩ := Prod.mk.inj hserve
    exact ⟨fun _ => List.prefix_refl _, rfl, Function.update_of_ne hji ..⟩
  | _ =>
    obtain ⟨-, rfl⟩ := Prod.mk.inj hserve
    exact .refl j _

omit [DecidableEq ι] in
theorem rely_of_others (h : continuing.others w w') (j : ι) : continuing.Rely j w w' := by
  rcases h with ⟨stopped, -, rfl⟩ | ⟨streamId, records, rfl, -⟩
  · exact ⟨fun _ => List.prefix_refl _, rfl, rfl⟩
  · exact ⟨fun streamId' => continuing.store.prefix_append streamId records w.store streamId', rfl, rfl⟩

/-- **The ways of the calls are sound**, where what is true beside stays true. -/
theorem sound {also : LoopWorld σ ι → Prop}
    (hcall : ∀ i call w r w', also w → continuing.asks i call w →
      continuing.serves i call w r w' → also w')
    (hother : ∀ w w', also w → continuing.others w w' → also w') :
    (continuing.ways fun w => continuing.Good w ∧ also w).Sound continuing.starts
      continuing.servesTimely continuing.othersTimely where
  refl i w _ := .refl i w
  trans _ _ _ _ h h' := h.trans h'
  waits _ _ _ hrely h := ⟨hrely.reads.trans h.1, hrely.owes.trans h.2⟩
  start _ _ _ _ hwaits hp := hp ▸ settles_continueTurnIfRequested hwaits.1 hwaits.2
  call i call w r w' hgood hasks hserves :=
    ⟨⟨hgood.1.call hasks hserves, hcall i call w r w' hgood.2 hasks hserves.1⟩,
      ⟨hserves.1, hgood.1⟩, fun _ hji => rely_of_serves hserves.1 hji⟩
  other w w' hgood h :=
    ⟨⟨hgood.1.other h, hother w w' hgood.2 h.1⟩, fun j => rely_of_others h.1 j⟩

variable {pool pool' : Calls σ ι}

theorem kept_of_reachesTimely (hready : continuing.Ready) (h : continuing.ReachesTimely pool) :
    Pool.Kept (continuing.ways fun w => continuing.Good w ∧ True) pool :=
  Pool.Reachable.kept (sound (fun _ _ _ _ _ _ _ _ => trivial) fun _ _ _ _ => trivial)
    ⟨hready.good, trivial⟩ (fun _ => ⟨rfl, rfl⟩) h

def UnderWay (pool : Calls σ ι) (i : ι) (turnId : String) : Prop :=
  pool.state.stopped i = false ∧ pool.state.owes i = some turnId ∧
    ∃ call k, pool.procs i = some (.call call k)

theorem underWay_of_owes {good : LoopWorld σ ι → Prop} (h : Pool.Kept (continuing.ways good) pool)
    (hliving : pool.state.stopped i = false) (howes : pool.state.owes i = some turnId) :
    UnderWay pool i turnId := by
  refine ⟨hliving, howes, ?_⟩
  cases hproc : pool.procs i with
  | none => cases (h.waits i hproc).2.symm.trans howes
  | some p =>
    cases p with
    | call call k => exact ⟨call, k, rfl⟩
    | done result =>
      have hends := h.keeps i _ hproc pool.state (Rely.refl i _)
      cases result with
      | ok receipt => cases hends.1.symm.trans howes
      | error error => cases hends.symm.trans howes

variable (continuing) in
/-- The continuation is accepted with the turn, as far as the call has seen. -/
def SeenAccepted (i : ι) (turnId : String) (w : LoopWorld σ ι) : Prop :=
  continuing.Accepted w turnId ∧
    ∀ seen ∈ w.reads i, ∃ event ∈ seen, continuing.Names event turnId

theorem SeenAccepted.call {j : ι} {call : LoopCall} {r : call.Reply}
    (h : continuing.SeenAccepted j turnId w) (hasks : continuing.asks i call w)
    (hserves : continuing.serves i call w r w') : continuing.SeenAccepted j turnId w' := by
  by_cases hji : j = i
  · subst hji
    obtain ⟨-, answers, hserve⟩ := hserves
    cases call with
    | readControlEvents coordinates =>
      obtain rfl : coordinates = continuing.coordinates := hasks
      obtain ⟨-, rfl⟩ := Prod.mk.inj hserve
      refine ⟨h.1, fun seen hseen => ?_⟩
      change seen ∈ Function.update w.reads j _ j at hseen
      rw [Function.update_self] at hseen
      rcases List.mem_append.mp hseen with hseen | hseen
      · exact h.2 seen hseen
      · cases hread : continuing.store.readEvents (controlStreamId continuing.coordinates) w.store with
        | error error =>
          rw [hread] at hseen
          exact (List.not_mem_nil hseen).elim
        | ok found =>
          rw [hread] at hseen
          obtain rfl := List.mem_singleton.mp hseen
          obtain ⟨event, hevent, hnames⟩ := h.1
          exact ⟨event, continuing.store.reads hread ▸ hevent, hnames⟩
    | appendEvents streamId records =>
      obtain ⟨-, rfl⟩ := Prod.mk.inj hserve
      exact ⟨h.1.mono fun _ => continuing.store.prefix_append streamId records w.store _, h.2⟩
    | _ =>
      obtain ⟨-, rfl⟩ := Prod.mk.inj hserve
      exact h
  · have hrely := rely_of_serves hserves hji
    exact ⟨h.1.mono hrely.grows, hrely.reads ▸ h.2⟩

omit [DecidableEq ι] in
theorem SeenAccepted.other {j : ι} (h : continuing.SeenAccepted j turnId w)
    (hother : continuing.others w w') : continuing.SeenAccepted j turnId w' := by
  have hrely := rely_of_others hother j
  exact ⟨h.1.mono hrely.grows, hrely.reads ▸ h.2⟩

/-! ### What is proved -/

variable (continuing) in
/-- One acceptance of the continuation at most. -/
def AcceptedOnce (w : LoopWorld σ ι) : Prop :=
  (continuing.control w).Pairwise fun event later =>
    ∀ turnId turnId', continuing.Names event turnId → ¬ continuing.Names later turnId'

section
omit [DecidableEq ι]

theorem Good.acceptedOnce (h : continuing.Good w) : continuing.AcceptedOnce w := by
  refine h.once.imp fun {event later} hsilent turnId turnId' hnames hnames' => ?_
  obtain ⟨eventId, hreceipt⟩ := hnames'
  cases (hsilent turnId hnames).symm.trans hreceipt

theorem AcceptedOnce.unique (h : continuing.AcceptedOnce w) {turnId' : String}
    (haccepted : continuing.Accepted w turnId) (haccepted' : continuing.Accepted w turnId') :
    turnId = turnId' := by
  obtain ⟨event, hevent, hnames⟩ := haccepted
  obtain ⟨event', hevent', hnames'⟩ := haccepted'
  obtain ⟨m, hm, rfl⟩ := List.mem_iff_getElem.mp hevent
  obtain ⟨n, hn, rfl⟩ := List.mem_iff_getElem.mp hevent'
  have hpair := List.pairwise_iff_getElem.mp h
  rcases Nat.lt_trichotomy m n with hlt | rfl | hgt
  · exact absurd hnames' (hpair m n hm hn hlt turnId turnId' hnames)
  · obtain ⟨eventId, hreceipt⟩ := hnames
    obtain ⟨eventId', hreceipt'⟩ := hnames'
    cases hreceipt.symm.trans hreceipt'
    rfl
  · exact absurd hnames (hpair n m hn hm hgt turnId' turnId hnames')

end

/-- **A call that is taken up once the continuation is accepted** answers with its turn, which is
handed over or about to be. -/
theorem later_call_returns (hready : continuing.Ready) (h : continuing.ReachesTimely pool)
    (hrun : Relation.ReflTransGen continuing.StepTimely pool pool')
    (haccepted : continuing.Accepted pool.state turnId) (hnew : pool.procs i = none)
    {receipt : LoopContinuationReceipt} (hdone : pool'.procs i = some (.done (.ok receipt))) :
    (∃ eventId, receipt = .accepted continuing.subject.loopId continuing.subject.parentTurnId turnId
      eventId) ∧ (turnId ∈ pool'.state.handed ∨ ∃ j, UnderWay pool' j turnId) := by
  have hkept := kept_of_reachesTimely hready h
  have hseen : continuing.SeenAccepted i turnId pool.state :=
    ⟨haccepted, by rw [(hkept.waits i hnew).1]; exact fun seen hseen => (List.not_mem_nil hseen).elim⟩
  have hkept' : Pool.Kept (continuing.ways fun w =>
      continuing.Good w ∧ continuing.SeenAccepted i turnId w) pool' :=
    Pool.Kept.run
      (sound (fun _ _ _ _ _ hw hasks hserves => hw.call hasks hserves)
        fun _ _ hw hother => hw.other hother)
      ⟨⟨hkept.good.1, hseen⟩, hkept.waits, hkept.keeps⟩ hrun
  obtain ⟨-, hreturned⟩ := hkept'.keeps i _ hdone pool'.state (Rely.refl i _)
  have hunique := hkept'.good.1.acceptedOnce
  rcases hreturned with ⟨other, eventId, rfl, hacc, hsub⟩ | ⟨seen, hmem, hnone⟩
  · obtain rfl := hunique.unique hacc hkept'.good.2.1
    refine ⟨⟨eventId, rfl⟩, ?_⟩
    rcases hkept'.good.1.kept other hacc hsub with hhanded | ⟨j, hliving, howes⟩
    · exact .inl hhanded
    · exact .inr ⟨j, underWay_of_owes hkept' hliving howes⟩
  · obtain ⟨event, hevent, hnames⟩ := hkept'.good.2.2 seen hmem
    exact absurd hnames (hnone event hevent turnId)

/-- **An accepted continuation yields one next turn**, in every run whose steps are in time: it is
accepted once, only its turn is handed to `submit_turn`, and that once; an accepted turn with its
`turn.submitted` is handed over or a call is on its way to do so; and every call that comes later and
succeeds answers with that turn, handed over or about to be. -/
theorem continuation_yields_one_turn (continuing : Continuing σ ι) (hready : continuing.Ready)
    (pool : Calls σ ι) (h : continuing.ReachesTimely pool) :
    continuing.AcceptedOnce pool.state ∧
    (∀ turnId ∈ pool.state.handed, continuing.Accepted pool.state turnId) ∧
    pool.state.handed.Nodup ∧
    (∀ turnId, continuing.Accepted pool.state turnId → continuing.Submitted pool.state turnId →
      turnId ∈ pool.state.handed ∨ ∃ i, UnderWay pool i turnId) ∧
    ∀ pool', Relation.ReflTransGen continuing.StepTimely pool pool' → ∀ turnId,
      continuing.Accepted pool.state turnId → ∀ i, pool.procs i = none → ∀ receipt,
        pool'.procs i = some (.done (.ok receipt)) →
          (∃ eventId, receipt = .accepted continuing.subject.loopId continuing.subject.parentTurnId
            turnId eventId) ∧
          (turnId ∈ pool'.state.handed ∨ ∃ j, UnderWay pool' j turnId) := by
  have hkept := kept_of_reachesTimely hready h
  have hgood := hkept.good.1
  refine ⟨hgood.acceptedOnce, fun turnId hmem => (hgood.handed turnId hmem).1, hgood.nodup, ?_, ?_⟩
  · intro turnId haccepted hsubmitted
    rcases hgood.kept turnId haccepted hsubmitted with hhanded | ⟨i, hliving, howes⟩
    · exact .inl hhanded
    · exact .inr ⟨i, underWay_of_owes hkept hliving howes⟩
  · intro pool' hrun turnId haccepted i hnew receipt hdone
    exact later_call_returns hready h hrun haccepted hnew hdone

/-! ### Two calls on one thread -/

def sampleCoordinates : ThreadCoordinates := .counted "user" 1

/-- The request and the mandate of the sample. -/
def sampleRecords : List NewEventRecord :=
  [.witnessed (.counted 1) sampleCoordinates .turnContinueRequested
      (Wire.continueRequested.toValue ⟨⟨"loop-1", "turn-1"⟩, "snapshot-1", "go on"⟩),
    .witnessed (.counted 2) sampleCoordinates .mandateStarted
      (Wire.started.toValue ⟨⟨none, some "loop-1"⟩, "mandate-1", "snapshot-1", none, none, none, none,
        none, none, none⟩)]

/-- Two calls, each with a turn of its own to propose. -/
def sampleContinuing : Continuing (InMemoryState 0) (Fin 2) where
  store := inMemoryStore 0
  codec := .wire fun _ => none
  coordinates := sampleCoordinates
  subject := ⟨"loop-1", "turn-1"⟩
  snapshotId := "snapshot-1"
  proposals i := ⟨if i = 0 then "turn-2" else "turn-3", 0, 0⟩
  start := InMemoryState.empty.append (controlStreamId sampleCoordinates) sampleRecords

/-- How the calls of the sample are served: the thread is there, and a turn is taken.  The draws are
new, as the streams get longer. -/
def sampleServe (i : Fin 2) (call : LoopCall) (w : LoopWorld (InMemoryState 0) (Fin 2)) :
    call.Reply × LoopWorld (InMemoryState 0) (Fin 2) :=
  let draws := 10 + (sampleContinuing.control w).length + (sampleContinuing.thread w).length
  sampleContinuing.serve ⟨.ok (), .counted draws, .ok ()⟩ i call w

def sampleTake (i : Fin 2) (pool : Calls (InMemoryState 0) (Fin 2)) :
    Calls (InMemoryState 0) (Fin 2) :=
  pool.set i (continueTurnIfRequested sampleContinuing.codec (sampleContinuing.call i)).run pool.state

def sampleFirst : Calls (InMemoryState 0) (Fin 2) := sampleTake 0 (.idle sampleContinuing.begin)

/-- Both calls decide, and then both append their acceptance. -/
def sampleTwice : Calls (InMemoryState 0) (Fin 2) :=
  [0, 0, 0, 0, 1, 1, 1, 1, 0, 0, 1, 1].foldl (Pool.turn sampleServe) (sampleTake 1 sampleFirst)

/-- The first call has appended the `turn.submitted`, and is to submit the turn. -/
def sampleAnnounced : Calls (InMemoryState 0) (Fin 2) :=
  [0, 0, 0, 0, 0, 0, 0, 0, 0].foldl (Pool.turn sampleServe) sampleFirst

/-- The host stops there. -/
def sampleCrashed : Calls (InMemoryState 0) (Fin 2) :=
  ⟨{ sampleAnnounced.state with stopped := fun i => i = 0 }, sampleAnnounced.procs⟩

/-- The second call comes after it. -/
def sampleStuck : Calls (InMemoryState 0) (Fin 2) :=
  [1, 1, 1, 1].foldl (Pool.turn sampleServe) (sampleTake 1 sampleCrashed)

def sampleLives (i : Fin 2) (_ : LoopCall) (w : LoopWorld (InMemoryState 0) (Fin 2)) : Bool :=
  !w.stopped i

theorem serves_sampleServe (i : Fin 2) (call : LoopCall) (w : LoopWorld (InMemoryState 0) (Fin 2))
    (h : sampleLives i call w = true) :
    sampleContinuing.serves i call w (sampleServe i call w).1 (sampleServe i call w).2 :=
  ⟨by simpa [sampleLives] using h, _, rfl⟩

theorem reaches_sampleFirst {served : Fin 2 → (call : LoopCall) →
    LoopWorld (InMemoryState 0) (Fin 2) → call.Reply → LoopWorld (InMemoryState 0) (Fin 2) → Prop}
    {happens : LoopWorld (InMemoryState 0) (Fin 2) → LoopWorld (InMemoryState 0) (Fin 2) → Prop} :
    sampleFirst.Reachable sampleContinuing.starts served happens sampleContinuing.begin := by
  have h₀ : Pool.Reachable sampleContinuing.starts served happens sampleContinuing.begin
      (.idle sampleContinuing.begin) := .refl
  exact Pool.Reachable.start (i := 0) h₀ rfl rfl

theorem Reaches.turns {pool : Calls (InMemoryState 0) (Fin 2)} (h : sampleContinuing.Reaches pool)
    {schedule : List (Fin 2)} (hlives : pool.admits sampleServe sampleLives schedule = true) :
    sampleContinuing.Reaches (schedule.foldl (Pool.turn sampleServe) pool) :=
  Pool.Reachable.turns_of_admits (fun i call w => serves_sampleServe i call w) h hlives

set_option maxRecDepth 100000 in
theorem admits_sampleTwice : Pool.admits sampleServe sampleLives
    [0, 0, 0, 0, 1, 1, 1, 1, 0, 0, 1, 1] (sampleTake 1 sampleFirst) = true := by
  decide +kernel

theorem reaches_sampleTwice : sampleContinuing.Reaches sampleTwice :=
  Reaches.turns (Pool.Reachable.start reaches_sampleFirst rfl rfl) admits_sampleTwice

set_option maxRecDepth 100000 in
theorem control_sampleTwice : sampleContinuing.control sampleTwice.state =
    numbered (controlStreamId sampleCoordinates) 0 (sampleRecords ++
      [controlDischarge sampleCoordinates .turnContinuationAccepted
          (Wire.continuationAccepted.toValue ⟨⟨"loop-1", "turn-1"⟩, "snapshot-1", "mandate-1",
            "turn-2", none⟩) (Draw.counted 1).eventId (.counted 12),
        controlDischarge sampleCoordinates .turnContinuationAccepted
          (Wire.continuationAccepted.toValue ⟨⟨"loop-1", "turn-1"⟩, "snapshot-1", "mandate-1",
            "turn-3", none⟩) (Draw.counted 1).eventId (.counted 13)]) := by
  decide +kernel

theorem not_acceptedOnce_sampleTwice : ¬ sampleContinuing.AcceptedOnce sampleTwice.state := by
  unfold AcceptedOnce
  rw [control_sampleTwice]
  intro honce
  have hrest := (List.pairwise_cons.mp (List.pairwise_cons.mp honce).2).2
  have hpair := (List.pairwise_cons.mp hrest).1 _ List.mem_cons_self "turn-2" "turn-3"
  exact hpair (names_accepted.mpr rfl) (names_accepted.mpr rfl)

set_option maxRecDepth 100000 in
theorem runs_sampleStuck :
    Pool.admits sampleServe sampleLives [0, 0, 0, 0, 0, 0, 0, 0, 0] sampleFirst = true ∧
    Pool.admits sampleServe sampleLives [1, 1, 1, 1] (sampleTake 1 sampleCrashed) = true ∧
    sampleStuck.doneWith 1 =
      some (.ok (.accepted "loop-1" "turn-1" "turn-2" (Draw.counted 12).eventId)) ∧
    sampleStuck.state.stopped 0 = true ∧ sampleStuck.state.handed = [] := by
  decide +kernel

theorem procs_sampleCrashed : sampleCrashed.procs 1 = none := rfl

theorem reaches_sampleStuck : sampleContinuing.Reaches sampleStuck := by
  have hannounced : sampleContinuing.Reaches sampleAnnounced :=
    Reaches.turns reaches_sampleFirst runs_sampleStuck.1
  have hcrashed : sampleContinuing.Reaches sampleCrashed :=
    .tail hannounced (.other (.inl ⟨fun i => i = 0, fun i hi => ?_, rfl⟩))
  · exact Reaches.turns (Pool.Reachable.start hcrashed procs_sampleCrashed rfl) runs_sampleStuck.2.1
  · cases hi

/-- **A continuation is accepted twice**, where both calls decide before either appends; **and it is
stuck**, where the host stops once the `turn.submitted` is there: the call that comes after it answers
with the accepted turn, and nobody has handed it over or will. -/
theorem continuation_not_one_turn :
    (∃ pool, sampleContinuing.Reaches pool ∧ ¬ sampleContinuing.AcceptedOnce pool.state) ∧
    ∃ pool, sampleContinuing.Reaches pool ∧
      pool.procs 1 = some (.done (.ok (.accepted "loop-1" "turn-1" "turn-2"
        (Draw.counted 12).eventId))) ∧
      pool.state.stopped 0 = true ∧ pool.state.handed = [] :=
  ⟨⟨sampleTwice, reaches_sampleTwice, not_acceptedOnce_sampleTwice⟩,
    ⟨sampleStuck, reaches_sampleStuck, Pool.procs_of_doneWith runs_sampleStuck.2.2.1,
      runs_sampleStuck.2.2.2⟩⟩

/-- The call has read all of the control stream, or appends no receipt. -/
def sampleReadAll (i : Fin 2) (call : LoopCall) (w : LoopWorld (InMemoryState 0) (Fin 2)) : Bool :=
  match call with
  | .appendEvents _ records =>
    ((w.reads i)[1]?.all fun seen => (sampleContinuing.control w).length ≤ seen.length) ||
      records.all fun record => record.kind ≠ .turnContinuationAccepted ∧
        record.kind ≠ .turnContinuationRejected
  | _ => true

/-- The call submits a turn, or owes none that it does not go on owing. -/
def sampleGoesOn (i : Fin 2) (call : LoopCall) (w : LoopWorld (InMemoryState 0) (Fin 2)) : Bool :=
  match call with
  | .submitTurn _ _ _ _ => true
  | call => (w.owes i).isNone || ((sampleServe i call w).2.owes i).isSome

/-- The call may be made in time: it lives, and no other is on its way to submit a turn. -/
def sampleMay (i : Fin 2) (call : LoopCall) (w : LoopWorld (InMemoryState 0) (Fin 2)) : Bool :=
  sampleLives i call w && sampleReadAll i call w && sampleGoesOn i call w &&
    decide (∀ j, j ≠ i → w.owes j = none)

theorem servesTimely_sampleServe (i : Fin 2) (call : LoopCall)
    (w : LoopWorld (InMemoryState 0) (Fin 2)) (h : sampleMay i call w = true) :
    sampleContinuing.servesTimely i call w (sampleServe i call w).1 (sampleServe i call w).2 := by
  simp only [sampleMay, Bool.and_eq_true, decide_eq_true_eq] at h
  obtain ⟨⟨⟨hlives, hread⟩, hgoes⟩, halone⟩ := h
  refine ⟨serves_sampleServe i call w hlives, ?_, ?_, ?_⟩
  · cases call with
    | appendEvents streamId records =>
      rintro - ⟨record, hrecord, hkind⟩ seen hseen event hevent
      rcases Bool.or_eq_true_iff.mp hread with hall | hnone
      · rw [hseen] at hall
        rw [List.drop_eq_nil_of_le (of_decide_eq_true hall)] at hevent
        exact (List.not_mem_nil hevent).elim
      · obtain ⟨haccepted, hrejected⟩ := of_decide_eq_true (List.all_eq_true.mp hnone record hrecord)
        exact (hkind.elim haccepted hrejected).elim
    | _ => trivial
  · cases call with
    | readThreadEvents coordinates turnId =>
      intro _ _ j hji _ howes
      cases (halone j hji).symm.trans howes
    | _ => trivial
  · cases call with
    | submitTurn threadId turnId input mode => trivial
    | _ =>
      intro turnId howes hnone
      rcases Bool.or_eq_true_iff.mp hgoes with hnothing | hgoes
      · rw [howes] at hnothing
        cases hnothing
      · rw [hnone] at hgoes
        cases hgoes

/-- The first call runs to its end. -/
def sampleYielded : Calls (InMemoryState 0) (Fin 2) :=
  [0, 0, 0, 0, 0, 0, 0, 0, 0, 0].foldl (Pool.turn sampleServe) sampleFirst

/-- The second call comes after it. -/
def sampleInTurn : Calls (InMemoryState 0) (Fin 2) :=
  [1, 1, 1, 1].foldl (Pool.turn sampleServe) (sampleTake 1 sampleYielded)

set_option maxRecDepth 100000 in
theorem runs_sampleInTurn :
    Pool.admits sampleServe sampleMay [0, 0, 0, 0, 0, 0, 0, 0, 0, 0] sampleFirst = true ∧
    sampleYielded.state.handed = ["turn-2"] ∧
    Pool.admits sampleServe sampleMay [1, 1, 1, 1] (sampleTake 1 sampleYielded) = true ∧
    sampleInTurn.doneWith 1 =
      some (.ok (.accepted "loop-1" "turn-1" "turn-2" (Draw.counted 12).eventId)) := by
  decide +kernel

set_option maxRecDepth 100000 in
theorem control_sampleBegin : sampleContinuing.control sampleContinuing.begin =
    numbered (controlStreamId sampleCoordinates) 0 sampleRecords := by
  decide +kernel

theorem ready_sampleContinuing : sampleContinuing.Ready where
  snapshot := by
    rw [control_sampleBegin]
    rintro event hevent payload ⟨found, hasks⟩
    rcases List.mem_cons.mp hevent with rfl | hevent
    · cases hasks
      rfl
    · obtain rfl := List.mem_singleton.mp hevent
      cases hasks
  unaccepted := by
    rintro turnId ⟨event, hevent, hnames⟩
    rw [control_sampleBegin] at hevent
    rcases List.mem_cons.mp hevent with rfl | hevent
    · cases hnames.kind
    · obtain rfl := List.mem_singleton.mp hevent
      cases hnames.kind

/-- Where the first call runs to its end, the second answers with its turn, which is submitted once. -/
theorem continuation_yields_one_turn_sample :
    sampleContinuing.AcceptedOnce sampleYielded.state ∧ sampleYielded.state.handed = ["turn-2"] ∧
    ("turn-2" ∈ sampleInTurn.state.handed ∨ ∃ j, UnderWay sampleInTurn j "turn-2") := by
  have hreach : sampleContinuing.ReachesTimely sampleYielded :=
    Pool.Reachable.turns_of_admits servesTimely_sampleServe reaches_sampleFirst runs_sampleInTurn.1
  have hnew : sampleYielded.procs 1 = none := rfl
  have hrun : Relation.ReflTransGen sampleContinuing.StepTimely sampleYielded sampleInTurn :=
    .head (.start hnew rfl) (Pool.run_of_admits servesTimely_sampleServe runs_sampleInTurn.2.2.1)
  obtain ⟨honce, hhanded, -, -, hlater⟩ :=
    continuation_yields_one_turn sampleContinuing ready_sampleContinuing sampleYielded hreach
  have haccepted : sampleContinuing.Accepted sampleYielded.state "turn-2" :=
    hhanded _ (by rw [runs_sampleInTurn.2.1]; exact List.mem_singleton_self _)
  exact ⟨honce, runs_sampleInTurn.2.1, (hlater sampleInTurn hrun "turn-2" haccepted 1 hnew _
    (Pool.procs_of_doneWith runs_sampleInTurn.2.2.2)).2⟩

end Continuing

end Verlet.Kernel
