import Verlet.Kernel.CouplingScheduler.Receipts

/-!
# Kernel — The coupling scheduler — Budgets

What a cycle cannot exceed, whatever triggers what and whatever the executor discharges, and however
the cycle ends.  `Within` holds of every cycle, whether its last round succeeded or failed.

* `takeNew_keys`: what is enqueued is new, each key once.
-/

namespace Verlet.Kernel
open Support History
open RemoteStore (VerletError VerletResult)

variable {σ : Type} {store : JournalStore σ} {scheduler : CouplingScheduler σ}
  {queued : QueuedActivation} {couplingSet : BoundCouplingSet}

/-! ### Keys -/

/-- What the scheduler tells activations apart by. -/
def QueuedActivation.activationKey (queued : QueuedActivation) : ActivationKey :=
  .fromActivation queued.activation

theorem takeNew_keys (seen : List ActivationKey) (candidates : List QueuedActivation) :
    ((takeNew seen candidates).2.map (·.activationKey)).Nodup ∧
      (∀ q ∈ (takeNew seen candidates).2, q.activationKey ∉ seen) ∧
      ∀ key, key ∈ (takeNew seen candidates).1 ↔
        key ∈ seen ∨ key ∈ (takeNew seen candidates).2.map (·.activationKey) := by
  induction candidates generalizing seen with
  | nil => simp [takeNew]
  | cons q qs ih =>
    rw [takeNew]
    by_cases hseen : ActivationKey.fromActivation q.activation ∈ seen
    · rw [if_pos hseen]
      exact ih seen
    · rw [if_neg hseen]
      obtain ⟨hnodup, hnew, hmem⟩ := ih (.fromActivation q.activation :: seen)
      have hfresh : ∀ q' ∈ (takeNew (.fromActivation q.activation :: seen) qs).2,
          q'.activationKey ≠ q.activationKey ∧ q'.activationKey ∉ seen := fun q' hq' =>
        not_or.mp fun h => hnew q' hq' (List.mem_cons.mpr h)
      refine ⟨List.nodup_cons.mpr ⟨?_, hnodup⟩, List.forall_mem_cons.mpr
        ⟨hseen, fun q' hq' => (hfresh q' hq').2⟩, fun key => ?_⟩
      · intro hmem
        obtain ⟨q', hq', heq⟩ := List.mem_map.mp hmem
        exact (hfresh q' hq').1 heq
      · rw [hmem, List.map_cons, List.mem_cons, List.mem_cons, or_assoc, or_left_comm]
        rfl

def Cycle.activations (cycle : Cycle σ) : List QueuedActivation :=
  cycle.attempts.map (·.queued) ++ cycle.queue

/-- Each activation of the cycle was seen, once. -/
structure Distinct (cycle : Cycle σ) : Prop where
  nodup : (cycle.activations.map (·.activationKey)).Nodup
  seen : ∀ q ∈ cycle.activations, q.activationKey ∈ cycle.seen

theorem Distinct.enqueueMatches {cycle : Cycle σ} (h : Distinct cycle) (rootDepth : RootDepth)
    (events : List EventRecord) : Distinct (cycle.enqueueMatches couplingSet rootDepth events) := by
  obtain ⟨candidates, hcandidates⟩ :
      ∃ candidates, candidates = matchesOf couplingSet rootDepth events := ⟨_, rfl⟩
  obtain ⟨hnodup, hnew, hmem⟩ := takeNew_keys cycle.seen candidates
  have hperm : List.Perm (cycle.enqueueMatches couplingSet rootDepth events).activations
      (cycle.activations ++ (takeNew cycle.seen candidates).2) := by
    rw [Cycle.activations, Cycle.activations, List.append_assoc, hcandidates]
    exact (List.Perm.append_left _ (List.perm_insertionSort _ _)).append_left _
  have hseen : (cycle.enqueueMatches couplingSet rootDepth events).seen =
      (takeNew cycle.seen candidates).1 := by
    rw [hcandidates]
    rfl
  constructor
  · rw [(hperm.map _).nodup_iff, List.map_append]
    refine h.nodup.append hnodup fun key hkey hlater => ?_
    obtain ⟨q, hq, rfl⟩ := List.mem_map.mp hkey
    obtain ⟨q', hq', heq⟩ := List.mem_map.mp hlater
    exact hnew q' hq' (heq ▸ h.seen q hq)
  · intro q hq
    rw [hseen, hmem]
    rcases List.mem_append.mp (hperm.mem_iff.mp hq) with hq | hq
    · exact .inl (h.seen q hq)
    · exact .inr (List.mem_map_of_mem hq)

/-! ### An activation is tried -/

/-- The events stand where the activation's coupling is bound to discharge, with a kind that it is bound
to. -/
def InSink (queued : QueuedActivation) (events : List EventRecord) : Prop :=
  ∀ event ∈ events, event.streamId = queued.sinkStream ∧ event.kind ∈ queued.coupling.sink.kinds

/-- What trying an activation leaves, whether it settles or fails: `sink` is what it discharged. -/
structure Tried (store : JournalStore σ) (config : CouplingSchedulerConfig)
    (queued : QueuedActivation) (past : List Attempt) (cycle : Cycle σ) (sink : List EventRecord)
    (settled : Cycle σ) : Prop where
  attempt : ∃ answer, settled.attempts = ⟨queued, answer, sink, []⟩ :: past ∧
    (answer.isSome → queued.activation.depth ≤ config.maxDepth) ∧
    settled.invoked = cycle.invoked + (if answer.isSome then 1 else 0)
  queue : settled.queue = cycle.queue
  seen : settled.seen = cycle.seen
  inSink : InSink queued sink
  budget : sink.length + settled.remainingDischargeBudget ≤ cycle.remainingDischargeBudget
  events : ∀ streamId, store.events settled.store streamId =
    store.events cycle.store streamId ++ ofStream streamId sink

theorem Offers.inSink {cycle admitted : Cycle σ} {sourceCut : CouplingSourceCut}
    {sourceEvents : List EventRecord} {discharges : List CouplingDischarge}
    {records : List NewEventRecord}
    (hoffers : Offers store scheduler queued cycle admitted sourceCut sourceEvents discharges records)
    (len : Nat) : InSink queued (numbered queued.sinkStream len records) := by
  intro event hevent
  obtain ⟨discharge, hdischarge, hsaid⟩ := List.mem_map.mp
    (hoffers.said len ▸ List.mem_map_of_mem hevent)
  have hkind : discharge.kind = event.kind := congrArg (·.2.1) hsaid
  exact ⟨streamId_of_mem_numbered hevent,
    hkind ▸ ((validateDischarges_ok hoffers.valid).2 discharge hdischarge).2⟩

theorem Settles.tried {cycle settled : Cycle σ} {result : VerletResult Exit} {past : List Attempt}
    (hpast : cycle.attempts = ⟨queued, none, [], []⟩ :: past)
    (h : Settles store scheduler queued cycle result settled) :
    ∃ sink, Tried store scheduler.config queued past cycle sink settled ∧
      ∀ exit, result = .ok exit → exit.sinkEvents = sink ∧
        (exit.enqueues = true → queued.activation.depth ≤ scheduler.config.maxDepth) := by
  have hnothing : ∀ streamId, store.events cycle.store streamId =
      store.events cycle.store streamId ++ ofStream streamId [] := fun streamId =>
    (List.append_nil _).symm
  have hspent : ([] : List EventRecord).length + cycle.remainingDischargeBudget ≤
      cycle.remainingDischargeBudget := by simp
  have hempty : InSink queued [] := fun _ hevent => (List.not_mem_nil hevent).elim
  cases h with
  | deep =>
    refine ⟨[], ⟨⟨none, hpast, by simp, rfl⟩, rfl, rfl, hempty, hspent, hnothing⟩, ?_⟩
    rintro _ ⟨⟩
    exact ⟨rfl, fun henqueues => absurd henqueues Bool.false_ne_true⟩
  | uncounted =>
    exact ⟨[], ⟨⟨none, hpast, by simp, rfl⟩, rfl, rfl, hempty, hspent, hnothing⟩, by simp⟩
  | exhausted hshallow hcount =>
    obtain ⟨perThread, rfl⟩ := (counts_of_exec hcount).eq
    refine ⟨[], ⟨⟨none, hpast, by simp, rfl⟩, rfl, rfl, hempty, hspent, hnothing⟩, ?_⟩
    rintro _ ⟨⟩
    exact ⟨rfl, fun _ => hshallow⟩
  | sourceless hadmits =>
    obtain ⟨perTurn, perThread, rfl⟩ := hadmits.eq
    refine ⟨[], ⟨⟨none, hpast, by simp, rfl⟩, rfl, rfl, hempty, hspent, hnothing⟩, ?_⟩
    rintro _ ⟨⟩
    exact ⟨rfl, fun _ => hadmits.shallow⟩
  | @failed _ _ _ answer _ hinvokes =>
    have hshallow := hinvokes.admits.shallow
    obtain ⟨perTurn, perThread, rfl⟩ := hinvokes.admits.eq
    refine ⟨[], ⟨⟨some answer, ?_, fun _ => hshallow, rfl⟩, rfl, rfl, hempty, hspent, hnothing⟩, ?_⟩
    · simp only [Cycle.answered, Cycle.note, hpast, List.modifyHead_cons]
    · rintro _ ⟨⟩
      exact ⟨rfl, fun _ => hshallow⟩
  | @refused _ _ _ discharges _ _ hoffers =>
    have hshallow := hoffers.invokes.admits.shallow
    obtain ⟨perTurn, perThread, rfl⟩ := hoffers.invokes.admits.eq
    refine ⟨[], ⟨⟨some (.ok discharges), ?_, fun _ => hshallow, rfl⟩, rfl, rfl, hempty, hspent,
      hnothing⟩, by simp⟩
    simp only [Cycle.answered, Cycle.note, hpast, List.modifyHead_cons]
  | @completed _ _ _ discharges records sinkEvents s hoffers htakes hsink =>
    have hshallow := hoffers.invokes.admits.shallow
    obtain ⟨perTurn, perThread, rfl⟩ := hoffers.invokes.admits.eq
    refine ⟨sinkEvents, ⟨⟨some (.ok discharges), ?_, fun _ => hshallow, rfl⟩, rfl, rfl,
      hsink ▸ hoffers.inSink _, ?_, fun streamId => ?_⟩, ?_⟩
    · simp only [Cycle.answered, Cycle.discharged, Cycle.note, hpast, List.modifyHead_cons]
    · have hlength : sinkEvents.length = discharges.length := by
        rw [hsink, History.length_numbered, hoffers.records, length_sinkRecords]
      rw [hlength]
      change _ + (cycle.remainingDischargeBudget - sinkEvents.length) ≤ _
      rw [hlength, Nat.add_sub_cancel' (validateDischarges_ok hoffers.valid).1]
    · change store.events s streamId = _
      rw [htakes.events, appendBatch_eq, hsink]
    · rintro _ ⟨⟩
      exact ⟨rfl, fun _ => hshallow⟩

/-! ### A cycle -/

/-- The attempt stays within the limits of its coupling and of the scheduler. -/
structure Attempt.Obeys (config : CouplingSchedulerConfig) (attempt : Attempt) : Prop where
  shallow : attempt.answer.isSome → attempt.queued.activation.depth ≤ config.maxDepth
  inSink : InSink attempt.queued attempt.sinkEvents

/-- The activation is of a coupling of the set, and at most one too deep. -/
def QueuedActivation.Bound (config : CouplingSchedulerConfig) (couplingSet : BoundCouplingSet)
    (queued : QueuedActivation) : Prop :=
  queued.coupling ∈ couplingSet.couplings ∧ queued.activation.depth ≤ config.maxDepth + 1

/-- What holds of a cycle, whenever the loop comes round and however it ends. -/
structure Within (store : JournalStore σ) (config : CouplingSchedulerConfig)
    (couplingSet : BoundCouplingSet) (s : σ) (cycle : Cycle σ) : Prop where
  distinct : Distinct cycle
  bound : ∀ q ∈ cycle.activations, q.Bound config couplingSet
  obeys : ∀ attempt ∈ cycle.attempts, attempt.Obeys config
  invoked : cycle.invoked = cycle.attempts.countP fun attempt => attempt.answer.isSome
  budget : (cycle.attempts.flatMap (·.sinkEvents)).length + cycle.remainingDischargeBudget ≤
    config.maxDischargeEventsPerCycle
  ledger : ∀ streamId, store.events cycle.store streamId = store.events s streamId ++
    ofStream streamId (cycle.attempts.reverse.flatMap Attempt.appended)

theorem mem_matchesOf {rootDepth : RootDepth} {events : List EventRecord} {q : QueuedActivation}
    (h : q ∈ matchesOf couplingSet rootDepth events) :
    q.coupling ∈ couplingSet.couplings ∧ ∃ event, q.activation.depth = (rootDepth.of event).2 := by
  obtain ⟨pair, -, hq⟩ := List.mem_flatMap.mp h
  obtain ⟨coupling, hcoupling, rfl⟩ := List.mem_map.mp hq
  exact ⟨(List.mem_filter.mp hcoupling).1, pair.1, rfl⟩

theorem Within.enqueueMatches {config : CouplingSchedulerConfig} {s : σ} {cycle : Cycle σ}
    (h : Within store config couplingSet s cycle) {rootDepth : RootDepth} (events : List EventRecord)
    (hdepth : ∀ event, (rootDepth.of event).2 ≤ config.maxDepth + 1) :
    Within store config couplingSet s (cycle.enqueueMatches couplingSet rootDepth events) := by
  refine ⟨h.distinct.enqueueMatches _ _, ?_, h.obeys, h.invoked, h.budget, h.ledger⟩
  intro q hq
  obtain ⟨later, hqueue, hlater, -⟩ := queue_enqueueMatches couplingSet rootDepth events cycle
  rw [Cycle.activations, hqueue, ← List.append_assoc] at hq
  rcases List.mem_append.mp hq with hq | hq
  · exact h.bound q hq
  · obtain ⟨hcoupling, event, hq⟩ := mem_matchesOf (hlater q hq)
    exact ⟨hcoupling, hq ▸ hdepth event⟩

theorem Within.tried {s : σ} {head settled : Cycle σ} {rest : List QueuedActivation}
    {sink : List EventRecord} (h : Within store scheduler.config couplingSet s head)
    (hqueue : head.queue = queued :: rest)
    (htried : Tried store scheduler.config queued head.attempts (head.takeUp queued rest) sink
      settled) : Within store scheduler.config couplingSet s settled := by
  obtain ⟨answer, hattempts, hshallow, hinvoked⟩ := htried.attempt
  have hrest : settled.queue = rest := htried.queue
  have hactivations : List.Perm settled.activations head.activations := by
    rw [Cycle.activations, Cycle.activations, hattempts, hrest, hqueue]
    exact List.perm_middle.symm
  refine ⟨⟨?_, fun q hq => ?_⟩, fun q hq => h.bound q (hactivations.mem_iff.mp hq), ?_, ?_, ?_,
    fun streamId => ?_⟩
  · rw [(hactivations.map _).nodup_iff]
    exact h.distinct.nodup
  · rw [htried.seen]
    exact h.distinct.seen q (hactivations.mem_iff.mp hq)
  · rw [hattempts]
    exact List.forall_mem_cons.mpr ⟨⟨hshallow, htried.inSink⟩, h.obeys⟩
  · rw [hattempts, List.countP_cons, hinvoked]
    exact congrArg (· + _) h.invoked
  · have hspent : sink.length + settled.remainingDischargeBudget ≤ head.remainingDischargeBudget :=
      htried.budget
    have hbefore := h.budget
    rw [hattempts, List.flatMap_cons, List.length_append]
    change sink.length + _ + _ ≤ _
    omega
  · rw [htried.events, hattempts, List.reverse_cons, List.flatMap_append, ofStream_append,
      ← List.append_assoc]
    exact congrArg₂ (· ++ ·) (h.ledger streamId) (by simp [Attempt.appended])

/-- **A round stays within the budgets**, whether it succeeds or fails. -/
theorem Within.round {s : σ} {head cycle' : Cycle σ} {rest : List QueuedActivation}
    {result : VerletResult Unit} (h : Within store scheduler.config couplingSet s head)
    (hqueue : head.queue = queued :: rest)
    (hround : Rounds store scheduler queued couplingSet (head.takeUp queued rest) result cycle') :
    Within store scheduler.config couplingSet s cycle' := by
  cases hround with
  | unsettled hsettle =>
    obtain ⟨sink, htried, -⟩ := (settles hsettle).tried rfl
    exact h.tried hqueue htried
  | unreceipted hsettle _ =>
    obtain ⟨sink, htried, -⟩ := (settles hsettle).tried rfl
    obtain ⟨hdistinct, hbound, hobeys, hinvoked, hbudget, hledger⟩ := h.tried hqueue htried
    exact ⟨⟨hdistinct.nodup, hdistinct.seen⟩, hbound, hobeys, hinvoked, hbudget, hledger⟩
  | @receipted exit settled s' hsettle htakes =>
    obtain ⟨sink, htried, hexit⟩ := (settles hsettle).tried rfl
    obtain ⟨-, hshallow⟩ := hexit exit rfl
    have hsettled := h.tried hqueue htried
    obtain ⟨answer, hattempts, -, -⟩ := htried.attempt
    have hreceipted : Within store scheduler.config couplingSet s (settled.receipted s'
        (receiptEvent store scheduler queued exit settled)) := by
      have hnoted : (settled.receipted s' (receiptEvent store scheduler queued exit settled)).attempts =
          ⟨queued, answer, sink, [receiptEvent store scheduler queued exit settled]⟩ ::
            head.attempts := by
        simp only [Cycle.receipted, Cycle.note, hattempts, List.modifyHead_cons]
      have hactivations : (settled.receipted s'
          (receiptEvent store scheduler queued exit settled)).activations = settled.activations := by
        rw [Cycle.activations, Cycle.activations, hnoted, hattempts]
        rfl
      obtain ⟨⟨hnodup, hseen⟩, hbound, hobeys, hinvoked, hbudget, hledger⟩ := hsettled
      rw [← hactivations] at hnodup hseen hbound
      rw [hattempts] at hobeys hinvoked hbudget
      refine ⟨⟨hnodup, hseen⟩, hbound, ?_, ?_, ?_, fun streamId => ?_⟩
      · rw [hnoted]
        obtain ⟨hfirst, hpast⟩ := List.forall_mem_cons.mp hobeys
        exact List.forall_mem_cons.mpr ⟨⟨hfirst.shallow, hfirst.inSink⟩, hpast⟩
      · rw [hnoted]
        exact hinvoked
      · rw [hnoted]
        exact hbudget
      · change store.events s' streamId = _
        rw [htakes.events, appendBatch_eq, hledger, hattempts, hnoted]
        simp [Attempt.appended, ofStream_append, receiptEvent, numbered]
    have hfinish : Within store scheduler.config couplingSet s
        (if exit.enqueues then (settled.receipted s'
          (receiptEvent store scheduler queued exit settled)).enqueueMatches couplingSet
            (.inherited queued.activation.rootEventId (queued.activation.depth + 1))
            (exit.sinkEvents ++ [receiptEvent store scheduler queued exit settled])
        else settled.receipted s' (receiptEvent store scheduler queued exit settled)) := by
      split
      · next henqueues =>
        exact hreceipted.enqueueMatches _ fun _ => Nat.succ_le_succ (hshallow henqueues)
      · exact hreceipted
    obtain ⟨hdistinct, hbound, hobeys, hinvoked, hbudget, hledger⟩ := hfinish
    exact ⟨⟨hdistinct.nodup, hdistinct.seen⟩, hbound, hobeys, hinvoked, hbudget, hledger⟩

/-! ### A batch -/

section
variable {batch : List EventRecord} {s : σ}

theorem Within.start : Within store scheduler.config couplingSet s
    ((scheduler.over store).start couplingSet batch s) := by
  have hempty : Within store scheduler.config couplingSet s
      { store := s, queue := [], seen := [], runs := [], appendedEvents := [], perTurnRunCounts := ∅
        perThreadRunCounts := ∅
        remainingDischargeBudget := scheduler.config.maxDischargeEventsPerCycle
        drawn := 0, invoked := 0, attempts := [] } := by
    refine ⟨⟨List.nodup_nil, ?_⟩, ?_, ?_, rfl, Nat.le_of_eq (Nat.zero_add _),
      fun _ => (List.append_nil _).symm⟩ <;> simp [Cycle.activations]
  refine hempty.enqueueMatches batch fun event => ?_
  rw [RootDepth.of, rootDepthFromEvent]
  split <;> simp

theorem Within.of_head {head : Cycle σ} (h : Head store scheduler couplingSet batch s head) :
    Within store scheduler.config couplingSet s head := by
  refine Heads.invariant h (fun cycle cycle' hwithin hgoes hstep => ?_) .start
  obtain ⟨queued, rest, hqueue, htakeUp⟩ := round_takeUp store scheduler couplingSet hgoes
  exact hwithin.round hqueue (runActivation_rounds (htakeUp.symm.trans hstep))

end

/-- **A cycle ends within its budgets.**  For any couplings, batch and executor: the loop ends, with its
queue empty or at a round that fails.  Then the activations taken up are of couplings of the set and are
told apart by their keys, at no depth that a `u32` does not hold; the executor was invoked for some of
them, none above the depth limit; the store has what was appended for them and nothing else that is new,
and of that the sink events are no more than the cycle's budget, each on the stream and of a kind that
its coupling is bound to. -/
theorem cycle_within_budgets (store : JournalStore σ) (scheduler : CouplingScheduler σ)
    (couplingSet : BoundCouplingSet) (batch : List EventRecord) (s : σ)
    (hdepth : scheduler.config.maxDepth < 2 ^ 32 - 1) :
    let result := ((scheduler.over store).runBatch couplingSet batch s).1
    let final := ((scheduler.over store).runBatch couplingSet batch s).2
    ((∃ receipt, result = .ok receipt ∧ final.queue = []) ∨
      ∃ e head, Head store scheduler couplingSet batch s head ∧ head.queue ≠ [] ∧
        exec ((scheduler.over store).round couplingSet) head = (.error e, final) ∧
        result = .error e) ∧
    (final.attempts.map (·.queued.activationKey)).Nodup ∧
    (∀ attempt ∈ final.attempts, attempt.queued.coupling ∈ couplingSet.couplings ∧
      attempt.queued.activation.depth < 2 ^ 32) ∧
    final.invoked = final.attempts.countP (·.answer.isSome) ∧
    (∀ attempt ∈ final.attempts, attempt.answer.isSome →
      attempt.queued.activation.depth ≤ scheduler.config.maxDepth) ∧
    (∀ streamId, store.events final.store streamId = store.events s streamId ++
      ofStream streamId (final.attempts.reverse.flatMap Attempt.appended)) ∧
    (final.attempts.flatMap (·.sinkEvents)).length ≤ scheduler.config.maxDischargeEventsPerCycle ∧
    ∀ attempt ∈ final.attempts, ∀ event ∈ attempt.sinkEvents,
      event.streamId = attempt.queued.sinkStream ∧
        event.kind ∈ attempt.queued.coupling.sink.kinds := by
  intro result final
  obtain ⟨hends, hwithin⟩ : ((∃ receipt, result = .ok receipt ∧ final.queue = []) ∨
      ∃ e head, Head store scheduler couplingSet batch s head ∧ head.queue ≠ [] ∧
        exec ((scheduler.over store).round couplingSet) head = (.error e, final) ∧
        result = .error e) ∧ Within store scheduler.config couplingSet s final := by
    rcases runBatch_cases store scheduler couplingSet batch s with
      ⟨receipt, end', hrun, hhead, hdone⟩ | ⟨e, head, end', hrun, hhead, hgoes, hfails⟩
    · have hfinal : final = end' := congrArg Prod.snd hrun
      exact ⟨.inl ⟨receipt, congrArg Prod.fst hrun, hfinal ▸ List.isEmpty_iff.mp hdone⟩,
        hfinal ▸ .of_head hhead⟩
    · have hfinal : final = end' := congrArg Prod.snd hrun
      obtain ⟨queued, rest, hqueue, htakeUp⟩ := round_takeUp store scheduler couplingSet hgoes
      refine ⟨.inr ⟨e, head, hhead, by simp [hqueue], hfinal ▸ hfails, congrArg Prod.fst hrun⟩, ?_⟩
      rw [hfinal]
      exact (Within.of_head hhead).round hqueue (runActivation_rounds (htakeUp.symm.trans hfails))
  have hactivation : ∀ attempt ∈ final.attempts, attempt.queued ∈ final.activations :=
    fun attempt hattempt => List.mem_append_left _ (List.mem_map_of_mem hattempt)
  refine ⟨hends, ?_, fun attempt hattempt => ?_, hwithin.invoked,
    fun attempt hattempt => (hwithin.obeys attempt hattempt).shallow, hwithin.ledger,
    Nat.le_trans (Nat.le_add_right _ _) hwithin.budget,
    fun attempt hattempt => (hwithin.obeys attempt hattempt).inSink⟩
  · have hnodup := hwithin.distinct.nodup
    rw [Cycle.activations, List.map_append, List.map_map] at hnodup
    exact hnodup.of_append_left
  · obtain ⟨hcoupling, hbound⟩ := hwithin.bound _ (hactivation attempt hattempt)
    exact ⟨hcoupling, by omega⟩

/-! ### A sample cycle -/

/-- A coupling that its own receipts trigger. -/
def sampleEcho : BoundCouplingSet :=
  ⟨"snapshot", [{ sampleCoupling "echo" none with triggerKind := .couplingRunCompleted }]⟩

/-- A scheduler whose executor discharges nothing. -/
def sampleQuiet : CouplingScheduler (InMemoryState 0) :=
  { sampleScheduler 10 ⟨⟨7⟩⟩ .null with executor := fun _ _ => .ok [] }

def sampleReceipt : EventRecord := { sampleTrigger 0 with kind := .couplingRunCompleted }

/-- The attempts of the cycle that the receipt starts. -/
def sampleEchoes : List Attempt :=
  ((sampleQuiet.over (inMemoryStore 0)).runBatch sampleEcho [sampleReceipt] .empty).2.attempts

/-- The coupling runs at the depths 0 and 1, and is skipped at the next. -/
theorem cycle_within_budgets_echo : sampleEchoes.map (·.queued.activation.depth) = [2, 1, 0] ∧
    (sampleEchoes.map (·.queued.activationKey)).Nodup := by
  refine ⟨by decide +kernel, ?_⟩
  have h := cycle_within_budgets (inMemoryStore 0) sampleQuiet sampleEcho [sampleReceipt] .empty
    (by decide)
  exact h.2.1

end Verlet.Kernel
