import Verlet.History.Envelopes
import Verlet.Kernel.CouplingScheduler.Rounds

/-!
# Kernel — The coupling scheduler — Receipts

Every activation that is taken up leaves one receipt on the control stream, unless the store refuses
what its executor discharged: `validate_discharges` lets discharges through that no store takes, and
then the cycle breaks off.

* `Rounds.keeps`: what a round that succeeds keeps.
-/

namespace Verlet.Kernel
open Support History

variable {σ : Type} {store : JournalStore σ} {scheduler : CouplingScheduler σ}
  {queued : QueuedActivation} {couplingSet : BoundCouplingSet}

/-! ### What is appended -/

def ofStream (streamId : EventStreamId) (events : List EventRecord) : List EventRecord :=
  events.filter fun event => event.streamId = streamId

theorem ofStream_append (streamId : EventStreamId) (events later : List EventRecord) :
    ofStream streamId (events ++ later) = ofStream streamId events ++ ofStream streamId later :=
  List.filter_append ..

variable {records : List NewEventRecord}

theorem streamId_of_mem_numbered {streamId : EventStreamId} {len : Nat} {event : EventRecord}
    (h : event ∈ numbered streamId len records) : event.streamId = streamId := by
  obtain ⟨record, -, sequence, rfl⟩ := History.mem_numbered h
  rfl

theorem appendBatch_eq (events : EventStreamId → List EventRecord) (streamId : EventStreamId)
    (records : List NewEventRecord) (streamId' : EventStreamId) :
    appendBatch events streamId records streamId' = events streamId' ++
      ofStream streamId' (numbered streamId (events streamId).length records) := by
  rw [appendBatch]
  by_cases h : streamId' = streamId
  · rw [if_pos h, h, ofStream, List.filter_eq_self.mpr]
    intro event hevent
    exact decide_eq_true (streamId_of_mem_numbered hevent)
  · rw [if_neg h, ofStream, List.filter_eq_nil_iff.mpr, List.append_nil]
    intro event hevent hsame
    exact h ((of_decide_eq_true hsame).symm.trans (streamId_of_mem_numbered hevent))

/-- What a discharge says, and where it goes. -/
def CouplingDischarge.said (queued : QueuedActivation) (discharge : CouplingDischarge) :
    EventStreamId × EventKind × Json :=
  (streamIdFor queued.triggerEvent.coordinates discharge.stream, discharge.kind, discharge.payload)

def saidBy (event : EventRecord) : EventStreamId × EventKind × Json :=
  (event.streamId, event.kind, event.payload)

theorem map_saidBy_numbered (streamId : EventStreamId) (len : Nat) (records : List NewEventRecord) :
    (numbered streamId len records).map saidBy =
      records.map fun record => (streamId, record.kind, record.payload) := by
  induction records generalizing len with
  | nil => rfl
  | cons record records ih =>
    rw [numbered, List.map_cons, List.map_cons, ih]
    rfl

variable {cycle admitted : Cycle σ} {sourceCut : CouplingSourceCut}
    {sourceEvents : List EventRecord} {discharges : List CouplingDischarge}

theorem Offers.said
    (hoffers : Offers store scheduler queued cycle admitted sourceCut sourceEvents discharges records)
    (len : Nat) :
    (numbered queued.sinkStream len records).map saidBy = discharges.map (·.said queued) := by
  have hstreams := fun discharge hmem =>
    ((validateDischarges_ok hoffers.valid).2 discharge hmem).1
  rw [map_saidBy_numbered, hoffers.records, sinkRecords, List.map_map]
  have hpairs : discharges.map (·.said queued) =
      discharges.zipIdx.map fun pair => pair.1.said queued := by
    calc discharges.map (·.said queued)
        = (discharges.zipIdx.map Prod.fst).map (·.said queued) := by rw [List.zipIdx_map_fst]
      _ = _ := List.map_map
  rw [hpairs]
  refine List.map_congr_left fun pair hpair => ?_
  have hstream := hstreams _ (List.fst_mem_of_mem_zipIdx hpair)
  simp [CouplingDischarge.said, hstream, dischargeRecord, NewEventRecord.discharged,
    QueuedActivation.sinkStream]

/-! ### An activation that settles -/

/-- What an activation that settles leaves of the cycle. -/
structure Settled (store : JournalStore σ) (config : CouplingSchedulerConfig)
    (queued : QueuedActivation) (past : List Attempt) (cycle : Cycle σ) (exit : Exit)
    (settled : Cycle σ) : Prop where
  attempt : ∃ answer, settled.attempts = ⟨queued, answer, exit.sinkEvents, []⟩ :: past ∧
    settled.invoked = cycle.invoked + (if answer.isSome then 1 else 0) ∧
    (exit.status = .completed → ∃ discharges, answer = some (.ok discharges) ∧
      exit.sinkEvents.map saidBy = discharges.map (·.said queued)) ∧
    (exit.status = .skipped → answer = none)
  sink : exit.status ≠ .completed → exit.sinkEvents = []
  shallow : exit.enqueues = true → queued.activation.depth ≤ config.maxDepth
  queue : settled.queue = cycle.queue
  events : ∀ streamId, store.events settled.store streamId =
    store.events cycle.store streamId ++ ofStream streamId exit.sinkEvents
  spent : exit.sinkEvents.length ≤ cycle.remainingDischargeBudget
  budget : settled.remainingDischargeBudget =
    cycle.remainingDischargeBudget - exit.sinkEvents.length

variable {exit : Exit}

theorem Settles.settled {settled : Cycle σ} {past : List Attempt}
    (hpast : cycle.attempts = ⟨queued, none, [], []⟩ :: past)
    (h : Settles store scheduler queued cycle (.ok exit) settled) :
    Settled store scheduler.config queued past cycle exit settled := by
  have hnothing : ∀ streamId, store.events cycle.store streamId =
      store.events cycle.store streamId ++ ofStream streamId [] := fun streamId =>
    (List.append_nil _).symm
  cases h with
  | deep hdeep =>
    exact ⟨⟨none, hpast, rfl, nofun, fun _ => rfl⟩, fun _ => rfl, nofun, rfl, hnothing,
      Nat.zero_le _, rfl⟩
  | exhausted hshallow hcount _ =>
    obtain ⟨perThread, rfl⟩ := (counts_of_exec hcount).eq
    exact ⟨⟨none, hpast, rfl, nofun, fun _ => rfl⟩, fun _ => rfl, fun _ => hshallow, rfl, hnothing,
      Nat.zero_le _, rfl⟩
  | sourceless hadmits hsource =>
    obtain ⟨perTurn, perThread, rfl⟩ := hadmits.eq
    exact ⟨⟨none, hpast, rfl, nofun, nofun⟩, fun _ => rfl, fun _ => hadmits.shallow, rfl, hnothing,
      Nat.zero_le _, rfl⟩
  | @failed _ _ _ answer _ hinvokes hfails =>
    obtain ⟨perTurn, perThread, rfl⟩ := hinvokes.admits.eq
    refine ⟨⟨some answer, ?_, rfl, nofun, nofun⟩, fun _ => rfl, fun _ => hinvokes.admits.shallow, rfl,
      hnothing, Nat.zero_le _, rfl⟩
    simp only [Cycle.answered, Cycle.note, hpast, List.modifyHead_cons]
  | @completed _ _ _ discharges records sinkEvents s hoffers htakes hsink =>
    obtain ⟨perTurn, perThread, rfl⟩ := hoffers.invokes.admits.eq
    have hlength : records.length = discharges.length := by
      rw [hoffers.records, length_sinkRecords]
    refine ⟨⟨some (.ok discharges), ?_, rfl, fun _ => ⟨_, rfl, ?_⟩, nofun⟩, fun h => absurd rfl h,
      fun _ => hoffers.invokes.admits.shallow, rfl, ?_, ?_, rfl⟩
    · simp only [Cycle.answered, Cycle.discharged, Cycle.note, hpast, List.modifyHead_cons]
    · rw [hsink]
      exact hoffers.said _
    · intro streamId
      change store.events s streamId = _
      rw [htakes.events, appendBatch_eq, hsink]
    · rw [hsink, History.length_numbered, hlength]
      exact (validateDischarges_ok hoffers.valid).1

/-! ### A round that succeeds -/

/-- The receipt of an attempt that ended in `exit`. -/
structure Receipted (attempt : Attempt) (exit : Exit) (receipt : EventRecord) : Prop where
  /-- It is the only one. -/
  receipts : attempt.receipts = [receipt]
  stream : receipt.streamId = attempt.queued.controlStream
  kind : receipt.kind = exit.status.receiptKind
  payload : receipt.payload = (runReceipt attempt.queued exit).toValue
  sink : attempt.sinkEvents = exit.sinkEvents
  /-- A completed run appended what the executor discharged. -/
  completed : exit.status = .completed → ∃ discharges, attempt.answer = some (.ok discharges) ∧
    attempt.sinkEvents.map saidBy = discharges.map (·.said attempt.queued)
  /-- Any other run appended nothing. -/
  nothing : exit.status ≠ .completed → attempt.sinkEvents = []
  skipped : exit.status = .skipped → attempt.answer = none

def Attempt.appended (attempt : Attempt) : List EventRecord := attempt.sinkEvents ++ attempt.receipts

/-- The activation is that of its trigger, which its coupling matches. -/
def QueuedActivation.Matched (queued : QueuedActivation) : Prop :=
  queued.activation.triggerEventId = queued.triggerEvent.id ∧
    couplingMatchesEvent queued.coupling queued.triggerEvent = true

/-- What a round that succeeds leaves: the attempt has its receipt, and the activations it leads to
are queued. -/
structure RoundOk (store : JournalStore σ) (config : CouplingSchedulerConfig)
    (couplingSet : BoundCouplingSet) (queued : QueuedActivation) (rest : List QueuedActivation)
    (cycle cycle' : Cycle σ) : Prop where
  attempt : ∃ attempt exit receipt, cycle'.attempts = attempt :: cycle.attempts ∧
    attempt.queued = queued ∧ Receipted attempt exit receipt ∧
    cycle'.invoked = cycle.invoked + (if attempt.answer.isSome then 1 else 0) ∧
    ∀ streamId, store.events cycle'.store streamId =
      store.events cycle.store streamId ++ ofStream streamId attempt.appended
  queue : ∃ later, cycle'.queue = rest ++ later ∧
    (∀ q ∈ later, q.activation.depth = queued.activation.depth + 1 ∧ q.Matched) ∧
    (later ≠ [] → queued.activation.depth ≤ config.maxDepth) ∧
    later.length ≤ couplingSet.couplings.length * (cycle.remainingDischargeBudget + 1)
  budget : cycle'.remainingDischargeBudget ≤ cycle.remainingDischargeBudget

theorem length_takeNew (seen : List ActivationKey) (candidates : List QueuedActivation) :
    (takeNew seen candidates).2.length ≤ candidates.length ∧
      ∀ q ∈ (takeNew seen candidates).2, q ∈ candidates := by
  induction candidates generalizing seen with
  | nil => exact ⟨Nat.le_refl _, fun q hq => hq⟩
  | cons q qs ih =>
    rw [takeNew]
    by_cases hseen : ActivationKey.fromActivation q.activation ∈ seen
    · rw [if_pos hseen]
      exact ⟨Nat.le_succ_of_le (ih seen).1, fun q' hq' => .tail _ ((ih seen).2 q' hq')⟩
    · rw [if_neg hseen]
      obtain ⟨hlength, hmem⟩ := ih (.fromActivation q.activation :: seen)
      refine ⟨Nat.succ_le_succ hlength, fun q' hq' => ?_⟩
      rcases List.mem_cons.mp hq' with rfl | hlater
      · exact List.mem_cons_self
      · exact .tail _ (hmem q' hlater)

theorem length_matchesOf (couplingSet : BoundCouplingSet) (rootDepth : RootDepth)
    (events : List EventRecord) :
    (matchesOf couplingSet rootDepth events).length ≤
      couplingSet.couplings.length * events.length := by
  have hbound : ∀ pairs : List (EventRecord × Nat),
      (pairs.flatMap fun pair =>
        (couplingSet.couplings.filter fun coupling => couplingMatchesEvent coupling pair.1).map
          (queuedActivation couplingSet.snapshotId rootDepth pair.2 pair.1)).length ≤
        couplingSet.couplings.length * pairs.length := by
    intro pairs
    induction pairs with
    | nil => exact Nat.zero_le _
    | cons pair pairs ih =>
      rw [List.flatMap_cons, List.length_append, List.length_map, List.length_cons, Nat.mul_succ,
        Nat.add_comm]
      exact Nat.add_le_add ih (List.length_filter_le _ _)
  have h := hbound events.zipIdx
  rwa [List.length_zipIdx] at h

theorem depth_matchesOf {rootEventId : EventRecordId} {depth : Nat} {events : List EventRecord}
    {q : QueuedActivation} (h : q ∈ matchesOf couplingSet (.inherited rootEventId depth) events) :
    q.activation.depth = depth := by
  obtain ⟨pair, -, hq⟩ := List.mem_flatMap.mp h
  obtain ⟨coupling, -, rfl⟩ := List.mem_map.mp hq
  rfl

theorem matched_matchesOf {rootDepth : RootDepth} {events : List EventRecord} {q : QueuedActivation}
    (h : q ∈ matchesOf couplingSet rootDepth events) : q.Matched := by
  obtain ⟨pair, -, hq⟩ := List.mem_flatMap.mp h
  obtain ⟨coupling, hcoupling, rfl⟩ := List.mem_map.mp hq
  exact ⟨rfl, (List.mem_filter.mp hcoupling).2⟩

theorem queue_enqueueMatches (couplingSet : BoundCouplingSet) (rootDepth : RootDepth)
    (events : List EventRecord) (cycle : Cycle σ) :
    ∃ later, (cycle.enqueueMatches couplingSet rootDepth events).queue = cycle.queue ++ later ∧
      (∀ q ∈ later, q ∈ matchesOf couplingSet rootDepth events) ∧
      later.length ≤ couplingSet.couplings.length * events.length := by
  refine ⟨_, rfl, ?_, ?_⟩
  · intro q hq
    rw [List.mem_insertionSort] at hq
    exact (length_takeNew _ _).2 q hq
  · rw [List.length_insertionSort]
    exact Nat.le_trans (length_takeNew _ _).1 (length_matchesOf ..)

theorem finish_cases (couplingSet : BoundCouplingSet) (queued : QueuedActivation) (exit : Exit)
    (receipt : EventRecord) (cycle : Cycle σ) :
    ∃ later seen runs appendedEvents, cycle.finish couplingSet queued exit [receipt] =
        { cycle with
          queue := cycle.queue ++ later
          seen := seen
          runs := runs
          appendedEvents := appendedEvents } ∧
      (∀ q ∈ later, q.activation.depth = queued.activation.depth + 1 ∧ q.Matched) ∧
      (later ≠ [] → exit.enqueues = true) ∧
      later.length ≤ couplingSet.couplings.length * (exit.sinkEvents.length + 1) := by
  obtain ⟨finished, hfinished⟩ : ∃ finished, finished = cycle.finish couplingSet queued exit [receipt] :=
    ⟨_, rfl⟩
  rw [← hfinished]
  by_cases henqueues : exit.enqueues = true
  · obtain ⟨later, hqueue, hmatches, hlength⟩ := queue_enqueueMatches couplingSet
      (.inherited queued.activation.rootEventId (queued.activation.depth + 1))
      (exit.sinkEvents ++ [receipt]) cycle
    refine ⟨later, finished.seen, finished.runs, finished.appendedEvents, ?_,
      fun q hq => ⟨depth_matchesOf (hmatches q hq), matched_matchesOf (hmatches q hq)⟩,
      fun _ => henqueues, ?_⟩
    · rw [← hqueue, hfinished, Cycle.finish, if_pos henqueues]
      rfl
    · rwa [List.length_append] at hlength
  · refine ⟨[], finished.seen, finished.runs, finished.appendedEvents, ?_,
      fun q hq => (List.not_mem_nil hq).elim, fun h => absurd rfl h, ?_⟩
    · rw [List.append_nil, hfinished, Cycle.finish, if_neg henqueues]
    · rw [List.length_nil]
      exact Nat.zero_le _

variable {cycle' : Cycle σ} {rest : List QueuedActivation}

/-- **A round that succeeds leaves its receipt.** -/
theorem Rounds.ok
    (h : Rounds store scheduler queued couplingSet (cycle.takeUp queued rest) (.ok ()) cycle') :
    RoundOk store scheduler.config couplingSet queued rest cycle cycle' := by
  cases h with
  | @receipted exit settled s hsettle htakes =>
    have hsettled := (settles hsettle).settled rfl
    obtain ⟨answer, hattempts, hinvoked, hcompleted, hskipped⟩ := hsettled.attempt
    obtain ⟨later, seen, runs, appendedEvents, hfinish, hdepth, hlater, hlength⟩ :=
      finish_cases couplingSet queued exit
        (receiptEvent store scheduler queued exit settled)
        (settled.receipted s (receiptEvent store scheduler queued exit settled))
    rw [hfinish]
    refine ⟨⟨⟨queued, answer, exit.sinkEvents, [receiptEvent store scheduler queued exit settled]⟩,
      exit, _, ?_, rfl, ⟨rfl, rfl, rfl, rfl, rfl, hcompleted, hsettled.sink, hskipped⟩, hinvoked, ?_⟩,
      ⟨later, ?_, hdepth, fun h => hsettled.shallow (hlater h), ?_⟩, ?_⟩
    · simp only [Cycle.receipted, Cycle.note, hattempts, List.modifyHead_cons]
    · intro streamId
      change store.events s streamId = _
      rw [htakes.events, appendBatch_eq, hsettled.events, Attempt.appended, ofStream_append,
        List.append_assoc]
      rfl
    · change settled.queue ++ later = _
      rw [hsettled.queue]
      rfl
    · have hspent : exit.sinkEvents.length ≤ cycle.remainingDischargeBudget := hsettled.spent
      exact Nat.le_trans hlength (Nat.mul_le_mul_left _ (Nat.succ_le_succ hspent))
    · change settled.remainingDischargeBudget ≤ _
      rw [hsettled.budget]
      exact Nat.sub_le _ _

/-! ### A cycle -/

/-- What holds of the cycle whenever the loop comes round. -/
structure Kept (store : JournalStore σ) (config : CouplingSchedulerConfig) (s : σ)
    (cycle : Cycle σ) : Prop where
  receipted : ∀ attempt ∈ cycle.attempts, ∃ exit receipt, Receipted attempt exit receipt
  invoked : cycle.invoked = cycle.attempts.countP fun attempt => attempt.answer.isSome
  /-- The store has what was appended for the attempts, and nothing else that is new. -/
  ledger : ∀ streamId, store.events cycle.store streamId = store.events s streamId ++
    ofStream streamId (cycle.attempts.reverse.flatMap Attempt.appended)
  budget : cycle.remainingDischargeBudget ≤ config.maxDischargeEventsPerCycle

theorem Kept.round {s : σ} (hkept : Kept store scheduler.config s cycle)
    (h : RoundOk store scheduler.config couplingSet queued rest cycle cycle') :
    Kept store scheduler.config s cycle' := by
  obtain ⟨attempt, exit, receipt, hattempts, -, hreceipted, hinvoked, hevents⟩ := h.attempt
  refine ⟨?_, ?_, ?_, Nat.le_trans h.budget hkept.budget⟩
  · rw [hattempts]
    exact List.forall_mem_cons.mpr ⟨⟨exit, receipt, hreceipted⟩, hkept.receipted⟩
  · rw [hattempts, List.countP_cons, hinvoked, hkept.invoked]
  · intro streamId
    rw [hevents, hkept.ledger, hattempts, List.reverse_cons, List.flatMap_append, ofStream_append,
      List.append_assoc, List.flatMap_singleton]

/-- **A round lowers the weight of the queue.** -/
theorem weight_round (hqueue : cycle.queue = queued :: rest)
    (hbudget : cycle.remainingDischargeBudget ≤ scheduler.config.maxDischargeEventsPerCycle)
    (h : RoundOk store scheduler.config couplingSet queued rest cycle cycle') :
    cycle'.weight scheduler.config couplingSet < cycle.weight scheduler.config couplingSet := by
  obtain ⟨later, hqueue', hdepth, hshallow, hlength⟩ := h.queue
  obtain ⟨base, hbase⟩ : ∃ base, base = couplingSet.couplings.length *
    (scheduler.config.maxDischargeEventsPerCycle + 1) := ⟨_, rfl⟩
  have hweight : ∀ q, scheduler.config.weight couplingSet q =
      (base + 1) ^ (scheduler.config.maxDepth + 1 - q.activation.depth) := by
    intro q
    rw [CouplingSchedulerConfig.weight, hbase]
  have hlater : (later.map (scheduler.config.weight couplingSet)).sum <
      scheduler.config.weight couplingSet queued := by
    by_cases hnone : later = []
    · rw [hnone, hweight]
      exact Nat.pow_pos (Nat.succ_pos base)
    · -- each new activation is one deeper, and there are at most `base` of them
      have hdeep := hshallow hnone
      have heach : ∀ q ∈ later, scheduler.config.weight couplingSet q =
          (base + 1) ^ (scheduler.config.maxDepth - queued.activation.depth) := by
        intro q hq
        rw [hweight, (hdepth q hq).1, Nat.add_sub_add_right]
      have hcount : later.length ≤ base := by
        rw [hbase]
        exact Nat.le_trans hlength (Nat.mul_le_mul_left _ (Nat.succ_le_succ hbudget))
      have hpos : 0 < (base + 1) ^ (scheduler.config.maxDepth - queued.activation.depth) :=
        Nat.pow_pos (Nat.succ_pos base)
      rw [List.map_congr_left heach, List.map_const', List.sum_replicate_nat, hweight,
        Nat.sub_add_comm hdeep, Nat.pow_succ, Nat.mul_comm]
      exact Nat.mul_lt_mul_of_pos_left (Nat.lt_succ_of_le hcount) hpos
  rw [Cycle.weight, Cycle.weight, hqueue', hqueue, List.map_append, List.sum_append, List.map_cons,
    List.sum_cons, Nat.add_comm]
  exact Nat.add_lt_add_right hlater _

section
variable (store : JournalStore σ) (scheduler : CouplingScheduler σ) (couplingSet : BoundCouplingSet)
  (batch : List EventRecord) (s : σ)

/-- The loop comes round with this cycle. -/
def Head (head : Cycle σ) : Prop :=
  Heads ((scheduler.over store).round couplingSet) (fun cycle => cycle.queue.isEmpty)
    ((scheduler.over store).start couplingSet batch s) head

def TakenUp (queued : QueuedActivation) (cycle : Cycle σ) : Prop :=
  ∃ head rest, Head store scheduler couplingSet batch s head ∧ head.queue = queued :: rest ∧
    cycle = head.takeUp queued rest

/-- **Every activation leaves one receipt.** -/
structure LeavesReceipts : Prop where
  returns : ∃ receipt, ((scheduler.over store).runBatch couplingSet batch s).1 = .ok receipt
  receipted : ∀ attempt ∈ ((scheduler.over store).runBatch couplingSet batch s).2.attempts,
    ∃ exit receipt, Receipted attempt exit receipt
  /-- The invocations of the executor are those of the attempts. -/
  invoked : ((scheduler.over store).runBatch couplingSet batch s).2.invoked =
    ((scheduler.over store).runBatch couplingSet batch s).2.attempts.countP
      fun attempt => attempt.answer.isSome
  /-- The store has what was appended for the attempts, and nothing else that is new. -/
  ledger : ∀ streamId,
    store.events ((scheduler.over store).runBatch couplingSet batch s).2.store streamId =
      store.events s streamId ++ ofStream streamId
        (((scheduler.over store).runBatch couplingSet batch s).2.attempts.reverse.flatMap
          Attempt.appended)
  /-- Whatever is queued runs. -/
  runs : ∀ head, Head store scheduler couplingSet batch s head → ∀ queued ∈ head.queue,
    ∃ attempt ∈ ((scheduler.over store).runBatch couplingSet batch s).2.attempts,
      attempt.queued = queued

end

theorem validateNewEvent_of_run {record : NewEventRecord}
    (h : record.provenance =
      eventProvenance queued.activation queued.coupling sourceCut sourceEvents) :
    History.validateNewEvent record = .ok () := by
  rw [History.validateNewEvent, if_neg]
  rintro ⟨-, hempty⟩
  rw [h] at hempty
  simp [EventProvenance.isEmpty, eventProvenance] at hempty

theorem admissible_receipt {taken : EventRecordId → Prop} (queued : QueuedActivation) (len : Nat)
    (exit : Exit) {draw : Draw}
    (hfresh : ¬ taken draw.eventId) :
    Admissible taken queued.controlStream len [receiptRecord queued exit draw] := by
  refine History.admissible_iff.mpr ⟨?_, ?_, ?_, ?_⟩
  · exact List.forall_mem_singleton.mpr (validateNewEvent_of_run rfl)
  · exact List.forall_mem_singleton.mpr hfresh
  · exact List.nodup_singleton _
  · refine List.forall_mem_singleton.mpr ⟨?_, ?_⟩
    · change ∃ fields, (runReceipt queued exit).toValue = .obj fields
      rw [CouplingRunReceipt.toValue]
      cases (runReceipt queued exit).reason with
      | none => exact ⟨_, rfl⟩
      | some reason => exact ⟨_, rfl⟩
    · intro hkind
      change exit.status.receiptKind = _ at hkind
      cases hstatus : exit.status with
      | completed =>
        rw [hstatus] at hkind
        cases hkind
      | failed =>
        rw [hstatus] at hkind
        cases hkind
      | skipped =>
        rw [hstatus] at hkind
        cases hkind

theorem Offers.admissible {settled : Cycle σ}
    (hoffers : Offers store scheduler queued cycle admitted sourceCut sourceEvents discharges records)
    (h : Settles store scheduler queued cycle (.ok exit) settled) :
    Admissible (store.taken cycle.store) queued.sinkStream
      (store.events cycle.store queued.sinkStream).length records := by
  have hinvokes := hoffers.invokes
  obtain ⟨threadCount, counted, hcount, hquota, -⟩ := hinvokes.admits.counts
  cases h with
  | deep hdeep => exact absurd hinvokes.admits.shallow (Nat.not_le.mpr hdeep)
  | exhausted _ hcount' hquota' =>
    obtain ⟨hsame, -⟩ := Prod.mk.inj (hcount.symm.trans hcount')
    obtain rfl := Except.ok.inj hsame
    rw [hquota] at hquota'
    cases hquota'
  | sourceless _ hsource => cases hsource.symm.trans hinvokes.source
  | failed hinvokes' hfails =>
    have hsource := Except.ok.inj (hinvokes'.source.symm.trans hinvokes.source)
    obtain ⟨rfl, rfl⟩ := Prod.mk.inj hsource
    have hanswer := hinvokes'.answer.trans hinvokes.answer.symm
    cases (hfails discharges hanswer).symm.trans hoffers.valid
  | completed hoffers' htakes _ =>
    have hsource := Except.ok.inj (hoffers'.invokes.source.symm.trans hinvokes.source)
    obtain ⟨rfl, rfl⟩ := Prod.mk.inj hsource
    have hanswer := hoffers'.invokes.answer.trans hinvokes.answer.symm
    obtain rfl := Except.ok.inj hanswer
    have hrecords := hoffers'.records.trans hoffers.records.symm
    rw [← hrecords]
    exact htakes.admissible

/-- **When a round succeeds**, over a store that serves: what is offered can be taken. -/
theorem runActivation_ok_iff (hserves : store.Serves)
    (hfresh : ∀ exit settled, exec ((scheduler.over store).settle queued) cycle = (.ok exit, settled) →
      ¬ store.taken settled.store (scheduler.draws settled.drawn).eventId) :
    (∃ cycle', exec ((scheduler.over store).runActivation couplingSet queued) cycle =
      (.ok (), cycle')) ↔
    ∀ admitted sourceCut sourceEvents discharges records,
      Offers store scheduler queued cycle admitted sourceCut sourceEvents discharges records →
        Admissible (store.taken cycle.store) queued.sinkStream
          (store.events cycle.store queued.sinkStream).length records := by
  constructor
  · rintro ⟨cycle', h⟩ admitted sourceCut sourceEvents discharges records hoffers
    cases runActivation_rounds h with
    | receipted hsettle _ => exact hoffers.admissible (settles hsettle)
  · intro hadmissible
    rcases hround : exec ((scheduler.over store).runActivation couplingSet queued) cycle with
      ⟨e | ⟨⟩, cycle'⟩
    · exfalso
      cases runActivation_rounds hround with
      | unsettled hsettle =>
        cases settles hsettle with
        | uncounted _ hcount =>
          rcases threadCount_cases store scheduler queued cycle with
            ⟨_, _, hok, -⟩ | ⟨e', -, hread⟩
          · cases (Prod.mk.inj (hcount.symm.trans hok)).1
          · cases hread.symm.trans (hserves.answers _ _)
        | refused hoffers _ hrefused =>
          obtain ⟨found, s', htaken⟩ := hserves.accepts (hadmissible _ _ _ _ _ hoffers)
          cases (Prod.mk.inj (hrefused.symm.trans htaken)).1
      | @unreceipted exit settled e' hsettle hrefused =>
        have hreceipt := admissible_receipt queued
          (store.events settled.store queued.controlStream).length exit (hfresh exit settled hsettle)
        obtain ⟨found, s', htaken⟩ := hserves.accepts hreceipt
        cases (Prod.mk.inj (hrefused.symm.trans htaken)).1
    · exact ⟨cycle', rfl⟩

variable {head : Cycle σ}

section
variable {batch : List EventRecord} {s : σ}

variable (store scheduler couplingSet) in
theorem round_takeUp (hgoes : head.queue.isEmpty = false) :
    ∃ queued rest, head.queue = queued :: rest ∧
      exec ((scheduler.over store).round couplingSet) head =
        exec ((scheduler.over store).runActivation couplingSet queued) (head.takeUp queued rest) := by
  cases hqueue : head.queue with
  | nil =>
    rw [hqueue] at hgoes
    cases hgoes
  | cons queued rest =>
    refine ⟨queued, rest, rfl, ?_⟩
    simp only [exec, CouplingScheduler.round, hqueue]

theorem round_ok (hgoes : head.queue.isEmpty = false)
    (h : exec ((scheduler.over store).round couplingSet) head = (.ok (), cycle')) :
    ∃ queued rest, head.queue = queued :: rest ∧
      RoundOk store scheduler.config couplingSet queued rest head cycle' := by
  obtain ⟨queued, rest, hqueue, hround⟩ :=
    round_takeUp store scheduler couplingSet hgoes
  exact ⟨queued, rest, hqueue, (runActivation_rounds (hround.symm.trans h)).ok⟩

theorem Kept.start : Kept store scheduler.config s
    ((scheduler.over store).start couplingSet batch s) where
  receipted := fun _ hattempt => (List.not_mem_nil hattempt).elim
  invoked := rfl
  ledger := fun _ => (List.append_nil _).symm
  budget := Nat.le_refl _

theorem Kept.step (hkept : Kept store scheduler.config s head) (hgoes : head.queue.isEmpty = false)
    (h : exec ((scheduler.over store).round couplingSet) head = (.ok (), cycle')) :
    Kept store scheduler.config s cycle' := by
  obtain ⟨queued, rest, -, hround⟩ := round_ok hgoes h
  exact hkept.round hround

theorem weight_step (hkept : Kept store scheduler.config s head)
    (hgoes : head.queue.isEmpty = false)
    (h : exec ((scheduler.over store).round couplingSet) head = (.ok (), cycle')) :
    cycle'.weight scheduler.config couplingSet < head.weight scheduler.config couplingSet := by
  obtain ⟨queued, rest, hqueue, hround⟩ := round_ok hgoes h
  exact weight_round hqueue hkept.budget hround

theorem queued_step {queued : QueuedActivation}
    (hqueued : queued ∈ cycle.queue ∨ ∃ attempt ∈ cycle.attempts, attempt.queued = queued)
    (hgoes : cycle.queue.isEmpty = false)
    (h : exec ((scheduler.over store).round couplingSet) cycle = (.ok (), cycle')) :
    queued ∈ cycle'.queue ∨ ∃ attempt ∈ cycle'.attempts, attempt.queued = queued := by
  obtain ⟨first, rest, hqueue, hround⟩ := round_ok hgoes h
  obtain ⟨attempt, -, -, hattempts, hfirst, -⟩ := hround.attempt
  obtain ⟨later, hqueue', -⟩ := hround.queue
  rw [hattempts, hqueue']
  rcases hqueued with hmem | ⟨attempt', hmem, heq⟩
  · rw [hqueue] at hmem
    rcases List.mem_cons.mp hmem with rfl | hrest
    · exact .inr ⟨attempt, List.mem_cons_self, hfirst⟩
    · exact .inl (List.mem_append_left _ hrest)
  · exact .inr ⟨attempt', .tail _ hmem, heq⟩

/-- A batch of discharges that a store takes: their ids are new and distinct, and their payloads
objects within the schema of their kind. -/
structure Storable (taken : EventRecordId → Prop) (records : List NewEventRecord) : Prop where
  fresh : ∀ record ∈ records, ¬ taken record.id
  nodup : (records.map (·.id)).Nodup
  payload : ∀ record ∈ records, (∃ fields, record.payload = .obj fields) ∧
    (record.kind = .ioEgressRequested → History.validateAgainst record.kind.payloadSchemaId
      History.ioEgressRequestedPayloadSchemaV1 record.payload = .ok ())

theorem Offers.admissible_iff {taken : EventRecordId → Prop} {len : Nat}
    (hoffers : Offers store scheduler queued cycle admitted sourceCut sourceEvents discharges records) :
    Admissible taken queued.sinkStream len records ↔ Storable taken records := by
  have hvalid : ∀ record ∈ records, History.validateNewEvent record = .ok () := by
    intro record hrecord
    rw [hoffers.records] at hrecord
    obtain ⟨pair, -, rfl⟩ := List.mem_map.mp hrecord
    exact validateNewEvent_of_run rfl
  rw [History.admissible_iff]
  constructor
  · rintro ⟨-, hfresh, hnodup, hpayload⟩
    exact ⟨hfresh, hnodup, hpayload⟩
  · rintro ⟨hfresh, hnodup, hpayload⟩
    exact ⟨hvalid, hfresh, hnodup, hpayload⟩

variable (store scheduler couplingSet batch s) in
theorem runBatch_eq : (scheduler.over store).runBatch couplingSet batch s =
    match loop ((scheduler.over store).round couplingSet) (fun cycle => cycle.queue.isEmpty)
      (.history (.store .diverged))
      (((scheduler.over store).start couplingSet batch s).weight scheduler.config couplingSet + 1)
      ((scheduler.over store).start couplingSet batch s) with
    | (.ok (), cycle)   => (.ok ⟨couplingSet.snapshotId, cycle.runs, cycle.appendedEvents⟩, cycle)
    | (.error e, cycle) => (.error e, cycle) := by
  have hconfig : (scheduler.over store).config = scheduler.config := rfl
  change exec (_ >>= _) _ = _
  rw [exec_bind]
  simp only [exec, hconfig]
  rcases loop ((scheduler.over store).round couplingSet) (fun cycle => cycle.queue.isEmpty)
      (.history (.store .diverged))
      (((scheduler.over store).start couplingSet batch s).weight scheduler.config couplingSet + 1)
      ((scheduler.over store).start couplingSet batch s) with ⟨e | ⟨⟩, final⟩
  · rfl
  · rfl

variable (store scheduler couplingSet batch s) in
/-- **The ways a cycle ends**: with its queue empty, or at the round that failed. -/
theorem runBatch_cases :
    (∃ receipt final, (scheduler.over store).runBatch couplingSet batch s = (.ok receipt, final) ∧
      Head store scheduler couplingSet batch s final ∧ final.queue.isEmpty = true) ∨
    ∃ e head final, (scheduler.over store).runBatch couplingSet batch s = (.error e, final) ∧
      Head store scheduler couplingSet batch s head ∧ head.queue.isEmpty = false ∧
      exec ((scheduler.over store).round couplingSet) head = (.error e, final) := by
  have hends : (∃ final, loop ((scheduler.over store).round couplingSet)
        (fun cycle => cycle.queue.isEmpty) (.history (.store .diverged))
        (((scheduler.over store).start couplingSet batch s).weight scheduler.config couplingSet + 1)
        ((scheduler.over store).start couplingSet batch s) = (.ok (), final) ∧
        Head store scheduler couplingSet batch s final ∧ final.queue.isEmpty = true) ∨
      ∃ head e final, loop ((scheduler.over store).round couplingSet)
        (fun cycle => cycle.queue.isEmpty) (.history (.store .diverged))
        (((scheduler.over store).start couplingSet batch s).weight scheduler.config couplingSet + 1)
        ((scheduler.over store).start couplingSet batch s) = (.error e, final) ∧
        Head store scheduler couplingSet batch s head ∧ head.queue.isEmpty = false ∧
        exec ((scheduler.over store).round couplingSet) head = (.error e, final) :=
    loop_cases (Cycle.weight scheduler.config couplingSet) (fun _ _ => Kept.step)
      (fun _ _ => weight_step) Kept.start (Nat.lt_succ_self _)
  rw [runBatch_eq]
  rcases hends with ⟨final, hfinal, hhead, hdone⟩ | ⟨head, e, final, hfinal, hhead, hgoes, hfails⟩
  · rw [hfinal]
    exact .inl ⟨_, final, rfl, hhead, hdone⟩
  · rw [hfinal]
    exact .inr ⟨e, head, final, rfl, hhead, hgoes, hfails⟩

theorem matched_of_head (h : Head store scheduler couplingSet batch s head)
    {queued : QueuedActivation} (hqueued : queued ∈ head.queue) : queued.Matched := by
  have hall : ∀ q ∈ head.queue, q.Matched := by
    refine Heads.invariant h (P := fun cycle => ∀ q ∈ cycle.queue, q.Matched) ?_ ?_
    · intro cycle cycle' hmatched hgoes hstep
      obtain ⟨first, rest, hqueue, hround⟩ := round_ok hgoes hstep
      obtain ⟨later, hqueue', hlater, -⟩ := hround.queue
      intro q hq
      rw [hqueue'] at hq
      rcases List.mem_append.mp hq with hrest | hnew
      · exact hmatched q (by rw [hqueue]; exact .tail _ hrest)
      · exact (hlater q hnew).2
    · intro q hq
      obtain ⟨later, hqueue, hmatches, -⟩ := queue_enqueueMatches couplingSet .fromEvent batch
        { store := s, queue := [], seen := [], runs := [], appendedEvents := [], perTurnRunCounts := ∅
          perThreadRunCounts := ∅
          remainingDischargeBudget := scheduler.config.maxDischargeEventsPerCycle
          drawn := 0, invoked := 0, attempts := [] }
      have hq' : q ∈ [] ++ later := hqueue ▸ hq
      exact matched_matchesOf (hmatches q hq')
  exact hall queued hqueued

/-- A cycle of one activation takes up no other. -/
theorem takenUp_only {only : QueuedActivation}
    (hfirst : ((scheduler.over store).start couplingSet batch s).queue = [only])
    (hsecond : (exec ((scheduler.over store).round couplingSet)
      ((scheduler.over store).start couplingSet batch s)).2.queue = [])
    (h : TakenUp store scheduler couplingSet batch s queued cycle) :
    queued = only ∧ cycle = ((scheduler.over store).start couplingSet batch s).takeUp only [] := by
  obtain ⟨head, rest, hhead, hqueue, rfl⟩ := h
  have hheads : head = (scheduler.over store).start couplingSet batch s ∨ head.queue = [] := by
    refine Heads.invariant hhead (P := fun head => head = _ ∨ head.queue = []) ?_ (.inl rfl)
    rintro s₁ s₂ (rfl | hnone) hgoes hstep
    · rw [hstep] at hsecond
      exact .inr hsecond
    · rw [hnone] at hgoes
      cases hgoes
  rcases hheads with rfl | hnone
  · obtain ⟨rfl, rfl⟩ := List.cons.inj (hfirst.symm.trans hqueue)
    exact ⟨rfl, rfl⟩
  · rw [hnone] at hqueue
    cases hqueue

/-- **When a cycle leaves every receipt**: whenever it offers discharges to the store, their ids are
new and distinct, and their payloads objects within their schema. -/
theorem every_activation_receipted_iff (store : JournalStore σ) (hserves : store.Serves)
    (scheduler : CouplingScheduler σ) (couplingSet : BoundCouplingSet) (batch : List EventRecord) (s : σ)
    (hfresh : ∀ queued cycle, TakenUp store scheduler couplingSet batch s queued cycle →
      ∀ exit settled, exec ((scheduler.over store).settle queued) cycle = (.ok exit, settled) →
        ¬ store.taken settled.store (scheduler.draws settled.drawn).eventId) :
    LeavesReceipts store scheduler couplingSet batch s ↔
      ∀ queued cycle, TakenUp store scheduler couplingSet batch s queued cycle →
        ∀ admitted sourceCut sourceEvents discharges records,
          Offers store scheduler queued cycle admitted sourceCut sourceEvents discharges records →
            Storable (store.taken cycle.store) records := by
  obtain ⟨start, hstart⟩ : ∃ start, start = (scheduler.over store).start couplingSet batch s := ⟨_, rfl⟩
  have hkept : Kept store scheduler.config s start := by
    rw [hstart]
    exact .start
  have hbatch := runBatch_eq store scheduler couplingSet batch s
  rw [← hstart] at hbatch
  -- the loop ends, and succeeds exactly when every round does
  have hloop : (∃ final, loop ((scheduler.over store).round couplingSet)
      (fun cycle => cycle.queue.isEmpty) (.history (.store .diverged))
      (start.weight scheduler.config couplingSet + 1) start = (.ok (), final)) ↔
      ∀ head, Heads ((scheduler.over store).round couplingSet) (fun cycle => cycle.queue.isEmpty)
        start head → head.queue.isEmpty = false →
          ∃ cycle', exec ((scheduler.over store).round couplingSet) head = (.ok (), cycle') :=
    loop_ok_iff (Cycle.weight scheduler.config couplingSet) (fun _ _ => Kept.step)
      (fun _ _ => weight_step) hkept (Nat.lt_succ_self _)
  refine (Iff.trans ?receipts hloop).trans ?rounds
  case rounds =>
    constructor
    · rintro h queued cycle htaken admitted sourceCut sourceEvents discharges records hoffers
      obtain ⟨head, rest, hhead, hqueue, rfl⟩ := id htaken
      have hgoes : head.queue.isEmpty = false := by
        rw [hqueue]
        rfl
      obtain ⟨first, rest', hqueue', hround⟩ := round_takeUp store scheduler couplingSet hgoes
      obtain ⟨rfl, rfl⟩ := List.cons.inj (hqueue'.symm.trans hqueue)
      have hok := h head (hstart ▸ hhead) hgoes
      rw [hround] at hok
      have hadmissible := (runActivation_ok_iff hserves (hfresh _ _ htaken)).mp hok
      exact hoffers.admissible_iff.mp (hadmissible _ _ _ _ _ hoffers)
    · intro h head hhead hgoes
      obtain ⟨queued, rest, hqueue, hround⟩ := round_takeUp store scheduler couplingSet hgoes
      have htaken : TakenUp store scheduler couplingSet batch s queued (head.takeUp queued rest) :=
        ⟨head, rest, by rw [Head, ← hstart]; exact hhead, hqueue, rfl⟩
      rw [hround]
      refine (runActivation_ok_iff hserves (hfresh _ _ htaken)).mpr ?_
      intro admitted sourceCut sourceEvents discharges records hoffers
      exact hoffers.admissible_iff.mpr (h _ _ htaken _ _ _ _ _ hoffers)
  case receipts =>
    constructor
    · rintro ⟨⟨receipt, hreturns⟩, -, -, -, -⟩
      rw [hbatch] at hreturns
      rcases hresult : loop ((scheduler.over store).round couplingSet)
        (fun cycle => cycle.queue.isEmpty) (.history (.store .diverged))
        (start.weight scheduler.config couplingSet + 1) start with ⟨e | ⟨⟩, final⟩
      · rw [hresult] at hreturns
        cases hreturns
      · exact ⟨final, rfl⟩
    · rintro ⟨final, hfinal⟩
      rw [hfinal] at hbatch
      obtain ⟨hend, hdone⟩ := heads_of_loop_ok hfinal
      have hkeptEnd : Kept store scheduler.config s final :=
        hend.invariant (fun _ _ => Kept.step) hkept
      constructor
      case returns =>
        rw [hbatch]
        exact ⟨_, rfl⟩
      case receipted =>
        rw [hbatch]
        exact hkeptEnd.receipted
      case invoked =>
        rw [hbatch]
        exact hkeptEnd.invoked
      case ledger =>
        rw [hbatch]
        exact hkeptEnd.ledger
      case runs =>
        intro head hhead queued hqueued
        rw [hbatch]
        have hlater := (heads_of_head hfinal (hstart ▸ hhead)).invariant
          (fun _ _ h => queued_step h) (Or.inl hqueued)
        rcases hlater with hmem | hattempted
        · rw [List.isEmpty_iff.mp hdone] at hmem
          cases hmem
        · exact hattempted

end

/-! ### Sample cycles -/

/-- The end of a turn, as a trigger. -/
def sampleTrigger (n : Nat) : EventRecord :=
  .fromNew (.forThread (.counted "user" 1)) (n + 1)
    (.witnessed (.counted n) (.counted "user" 1) .turnCompleted (.obj []))

/-- A coupling on the end of a turn. -/
def sampleCoupling (id : String) (perThread : Option Nat) : BoundCoupling where
  id := id
  role := .projection
  triggerKind := .turnCompleted
  triggerMatch := []
  triggerQuota := ⟨none, perThread⟩
  sourceSelectors := []
  sink := ⟨"memory", [.clientRecordAppended]⟩
  functionRef := "function"
  function := ⟨"function", "hash", none⟩
  budget := ⟨none, none⟩
  config := .obj []
  configHash := "hash"

/-- A scheduler whose executor always answers one discharge, under a chosen id. -/
def sampleScheduler (firstDraw : Nat) (eventId : EventRecordId) (payload : Json) :
    CouplingScheduler (InMemoryState 0) where
  store := (inMemoryStore 0).toEventStore
  executor := fun _ _ => .ok [⟨some eventId, "memory", .clientRecordAppended, payload⟩]
  config := ⟨1, 4⟩
  draws := fun i => .counted (firstDraw + i)
  describe := fun _ => "history"

/-- The executor answers a payload that is no object: the cycle breaks off. -/
theorem refused_discharge_breaks_cycle : (inMemoryStore 0).Serves ∧
    ¬ LeavesReceipts (inMemoryStore 0) (sampleScheduler 10 ⟨⟨7⟩⟩ .null)
      ⟨"snapshot", [sampleCoupling "first" none, sampleCoupling "second" none]⟩ [sampleTrigger 0]
      .empty := by
  refine ⟨inMemoryStore_serves 0, fun h => ?_⟩
  obtain ⟨receipt, hreturns⟩ := h.returns
  have hfails : (((sampleScheduler 10 ⟨⟨7⟩⟩ .null).over (inMemoryStore 0)).runBatch
      ⟨"snapshot", [sampleCoupling "first" none, sampleCoupling "second" none]⟩ [sampleTrigger 0]
      .empty).1.toOption.isNone = true := by
    decide
  rw [hreturns] at hfails
  cases hfails

/-- The coupling set of a sample cycle that goes through. -/
def sampleSet : BoundCouplingSet := ⟨"snapshot", [sampleCoupling "first" (some 1)]⟩

def sampleStart : Cycle (InMemoryState 0) :=
  ((sampleScheduler 10 ⟨⟨7⟩⟩ (.obj [])).over (inMemoryStore 0)).start sampleSet [sampleTrigger 0] .empty

def sampleQueued : QueuedActivation :=
  queuedActivation "snapshot" .fromEvent 0 (sampleTrigger 0) (sampleCoupling "first" (some 1))

theorem takenUp_sample {queued : QueuedActivation} {cycle : Cycle (InMemoryState 0)}
    (h : TakenUp (inMemoryStore 0) (sampleScheduler 10 ⟨⟨7⟩⟩ (.obj [])) sampleSet [sampleTrigger 0]
      .empty queued cycle) : queued = sampleQueued ∧ cycle = sampleStart.takeUp sampleQueued [] :=
  takenUp_only (by decide) (by decide) h

theorem fresh_sample {settled : Cycle (InMemoryState 0)}
    (h : exec (((sampleScheduler 10 ⟨⟨7⟩⟩ (.obj [])).over (inMemoryStore 0)).settle sampleQueued)
      (sampleStart.takeUp sampleQueued []) = (.ok exit, settled)) :
    ¬ (inMemoryStore 0).taken settled.store (Draw.counted (10 + settled.drawn)).eventId := by
  have hnew : ¬ (inMemoryStore 0).taken
      (exec (((sampleScheduler 10 ⟨⟨7⟩⟩ (.obj [])).over (inMemoryStore 0)).settle sampleQueued)
        (sampleStart.takeUp sampleQueued [])).2.store
      (Draw.counted (10 + (exec (((sampleScheduler 10 ⟨⟨7⟩⟩ (.obj [])).over
        (inMemoryStore 0)).settle sampleQueued) (sampleStart.takeUp sampleQueued [])).2.drawn)).eventId := by
    change ¬ (_ ∈ (_ : Finset EventRecordId))
    decide
  rw [h] at hnew
  exact hnew

theorem storable_sample {admitted : Cycle (InMemoryState 0)}
    (h : Offers (inMemoryStore 0) (sampleScheduler 10 ⟨⟨7⟩⟩ (.obj [])) sampleQueued
      (sampleStart.takeUp sampleQueued []) admitted sourceCut sourceEvents discharges records) :
    Storable ((inMemoryStore 0).taken (sampleStart.takeUp sampleQueued []).store) records := by
  have hdischarges : discharges = [⟨some ⟨⟨7⟩⟩, "memory", .clientRecordAppended, .obj []⟩] :=
    Except.ok.inj h.invokes.answer
  have hnew : ¬ (⟨⟨7⟩⟩ : EventRecordId) ∈
      (sampleStart.takeUp sampleQueued []).store.inner.eventIds := by
    decide
  rw [h.records, hdischarges]
  refine ⟨List.forall_mem_singleton.mpr hnew, List.nodup_singleton _, ?_⟩
  refine List.forall_mem_singleton.mpr ⟨⟨[], rfl⟩, fun hkind => ?_⟩
  cases hkind

/-- A cycle whose discharge has a new id and an object payload leaves its receipt. -/
theorem every_activation_receipted_once :
    LeavesReceipts (inMemoryStore 0) (sampleScheduler 10 ⟨⟨7⟩⟩ (.obj [])) sampleSet [sampleTrigger 0]
      .empty := by
  refine (every_activation_receipted_iff (inMemoryStore 0) (inMemoryStore_serves 0)
    (sampleScheduler 10 ⟨⟨7⟩⟩ (.obj [])) sampleSet [sampleTrigger 0] .empty ?_).mpr ?_
  · intro queued cycle htaken exit settled hsettle
    obtain ⟨rfl, rfl⟩ := takenUp_sample htaken
    exact fresh_sample hsettle
  · intro queued cycle htaken admitted sourceCut sourceEvents discharges records hoffers
    obtain ⟨rfl, rfl⟩ := takenUp_sample htaken
    exact storable_sample hoffers

end Verlet.Kernel
