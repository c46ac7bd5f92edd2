import Verlet.Kernel.CouplingScheduler

/-!
# Kernel — The coupling scheduler — Rounds

What one round of the loop does, over a store that is a journal.  A round takes up an activation,
settles it, and appends its receipt.  `Settles` lists the ways an activation settles, and what each
leaves of the cycle.

* `runActivation_ok`: and then the store takes its receipt, or the round fails.
-/

namespace Verlet.Kernel
open Support History
open RemoteStore (VerletError VerletResult)

variable {σ : Type}

def CouplingScheduler.over (scheduler : CouplingScheduler σ) (store : JournalStore σ) :
    CouplingScheduler σ := { scheduler with store := store.toEventStore }

/-- The stream that a coupling discharges to. -/
def QueuedActivation.sinkStream (queued : QueuedActivation) : EventStreamId :=
  streamIdFor queued.triggerEvent.coordinates queued.coupling.sink.stream

def QueuedActivation.controlStream (queued : QueuedActivation) : EventStreamId :=
  streamIdFor queued.triggerEvent.coordinates "control"

def QueuedActivation.key (queued : QueuedActivation) : ThreadCouplingRunKey :=
  ⟨queued.controlStream, queued.coupling.id⟩

/-! ### Discharges -/

variable {discharges : List CouplingDischarge}

theorem validateDischarges_ok {coupling : BoundCoupling} {budget : Nat}
    (h : validateDischarges coupling discharges budget = .ok ()) :
    discharges.length ≤ budget ∧ ∀ discharge ∈ discharges,
      discharge.stream = coupling.sink.stream ∧ discharge.kind ∈ coupling.sink.kinds := by
  obtain ⟨_, -, h⟩ := bind_ok.mp h
  obtain ⟨_, hlength, h⟩ := bind_ok.mp h
  refine ⟨require_ok.mp hlength, ?_⟩
  intro discharge hmem
  obtain ⟨_, hstream, hkind⟩ := bind_ok.mp (forM_ok.mp h discharge hmem)
  exact ⟨require_ok.mp hstream, require_ok.mp hkind⟩

def sinkRecords (draws : Nat → Draw) (drawn : Nat) (queued : QueuedActivation)
    (provenance : EventProvenance) (discharges : List CouplingDischarge) : List NewEventRecord :=
  discharges.zipIdx.map fun (discharge, i) =>
    dischargeRecord queued provenance (draws (drawn + i)) discharge

theorem length_sinkRecords (draws : Nat → Draw) (drawn : Nat) (queued : QueuedActivation)
    (provenance : EventProvenance) (discharges : List CouplingDischarge) :
    (sinkRecords draws drawn queued provenance discharges).length = discharges.length := by
  simp [sinkRecords]

theorem recordsByStream_eq {draws : Nat → Draw} {drawn : Nat} {queued : QueuedActivation}
    {provenance : EventProvenance} {stream : String}
    (h : ∀ discharge ∈ discharges, discharge.stream = stream) :
    recordsByStream draws drawn queued provenance discharges =
      if discharges = [] then []
      else [(stream, sinkRecords draws drawn queued provenance discharges)] := by
  have hgroup : ∀ (pairs : List (CouplingDischarge × Nat)) (records : List NewEventRecord),
      (∀ pair ∈ pairs, pair.1.stream = stream) →
      pairs.foldl (fun groups (discharge, i) => pushRecord discharge.stream
          (dischargeRecord queued provenance (draws (drawn + i)) discharge) groups)
          [(stream, records)] =
        [(stream, records ++ pairs.map fun (discharge, i) =>
          dischargeRecord queued provenance (draws (drawn + i)) discharge)] := by
    intro pairs
    induction pairs with
    | nil =>
      intro records _
      rw [List.map_nil, List.append_nil]
      rfl
    | cons pair pairs ih =>
      intro records hstream
      obtain ⟨discharge, i⟩ := pair
      have hfirst : discharge.stream = stream := hstream _ List.mem_cons_self
      simp only [List.foldl_cons, hfirst, pushRecord, if_true]
      rw [ih _ fun p hp => hstream p (.tail _ hp), List.map_cons, List.append_assoc]
      rfl
  cases discharges with
  | nil => rfl
  | cons discharge discharges =>
    rw [if_neg (List.cons_ne_nil _ _)]
    have hfirst := h discharge List.mem_cons_self
    have hrest := hgroup (discharges.zipIdx 1)
      [dischargeRecord queued provenance (draws (drawn + 0)) discharge] (by
        intro pair hpair
        exact h _ (.tail _ (List.fst_mem_of_mem_zipIdx hpair)))
    rw [recordsByStream, List.zipIdx_cons, List.foldl_cons]
    simp only [pushRecord, hfirst]
    rw [hrest, sinkRecords, List.zipIdx_cons, List.map_cons]
    rfl

/-! ### The store takes a batch -/

/-- The store takes the batch, and is `s'` then. -/
structure Takes (store : JournalStore σ) (streamId : EventStreamId) (records : List NewEventRecord)
    (s s' : σ) : Prop where
  admissible : Admissible (store.taken s) streamId (store.events s streamId).length records
  events : store.events s' = appendBatch (store.events s) streamId records
  taken : ∀ id, store.taken s' id ↔ store.taken s id ∨ id ∈ records.map (·.id)

theorem takes_nil (store : JournalStore σ) (streamId : EventStreamId) (s : σ) :
    Takes store streamId [] s s where
  admissible := History.admissible_nil _ _
  events := by
    funext streamId'
    rw [appendBatch, numbered, List.append_nil]
    split_ifs with h
    · rw [h]
    · rfl
  taken id := by simp

variable {records : List NewEventRecord}

theorem takes_of_append {store : JournalStore σ} {streamId : EventStreamId} {s s' : σ}
    {found : List EventRecord} (h : store.appendEvents streamId records s = (.ok found, s')) :
    Takes store streamId records s s' ∧
      found = numbered streamId (store.events s streamId).length records := by
  obtain ⟨hadmissible, hfound, hevents, htaken⟩ := store.appends h
  exact ⟨⟨hadmissible, hevents, htaken⟩, hfound⟩

/-! ### An activation settles -/

variable {cycle admitted cycle' : Cycle σ} {result : VerletResult Exit}

section
variable (store : JournalStore σ) (scheduler : CouplingScheduler σ) (queued : QueuedActivation)

/-- The count of a coupling's runs, in a listing of the thread's control stream. -/
def runCount (couplingId : String) (events : List EventRecord) : Nat :=
  events.countP fun event => countedThreadQuotaRun event couplingId

/-- How the runs of the thread are counted, and the cycle that is left. -/
inductive Counts (cycle : Cycle σ) : Option (ThreadCouplingRunKey × Nat) → Cycle σ → Prop
  | unlimited (h : queued.coupling.triggerQuota.perThread = none) : Counts cycle none cycle
  | remembered {count : Nat} (h : queued.coupling.triggerQuota.perThread ≠ none)
      (hcount : cycle.perThreadRunCounts.lookup queued.key = some count) :
      Counts cycle (some (queued.key, count)) cycle
  | rebuilt {count : Nat} (h : queued.coupling.triggerQuota.perThread ≠ none)
      (hcount : cycle.perThreadRunCounts.lookup queued.key = none)
      (hjournal : count = runCount queued.coupling.id
        (store.events cycle.store queued.controlStream) % 2 ^ 32) :
      Counts cycle (some (queued.key, count))
        { cycle with perThreadRunCounts := cycle.perThreadRunCounts.insert queued.key count }

/-- The activation is admitted: neither its depth nor a quota keeps it from running. -/
structure Admits (cycle admitted : Cycle σ) : Prop where
  shallow : queued.activation.depth ≤ scheduler.config.maxDepth
  counts : ∃ threadCount counted,
    exec ((scheduler.over store).threadCount queued) cycle = (.ok threadCount, counted) ∧
    quotaExhausted queued.coupling ((cycle.perTurnRunCounts.lookup queued.coupling.id).getD 0)
      ((threadCount.map (·.2)).getD 0) = false ∧
    admitted = counted.countRun queued threadCount

/-- The executor was invoked, and answered. -/
def Cycle.answered (answer : Except String (List CouplingDischarge)) (cycle : Cycle σ) : Cycle σ :=
  { cycle with invoked := cycle.invoked + 1 }.note fun attempt => { attempt with answer := some answer }

/-- The executor is invoked on the activation, and answers. -/
structure Invokes (cycle admitted : Cycle σ) (sourceCut : CouplingSourceCut)
    (sourceEvents : List EventRecord) (answer : Except String (List CouplingDischarge)) : Prop where
  admits : Admits store scheduler queued cycle admitted
  source : resolveSourceCut (fun streamId => store.readEvents streamId cycle.store) queued.coupling
    queued.triggerEvent = .ok (sourceCut, sourceEvents)
  answer : answer = scheduler.executor cycle.invoked
    ⟨queued.activation, queued.coupling, queued.triggerEvent, sourceCut, sourceEvents⟩

/-- The executor's discharges are valid: these are their records. -/
structure Offers (cycle admitted : Cycle σ) (sourceCut : CouplingSourceCut)
    (sourceEvents : List EventRecord) (discharges : List CouplingDischarge)
    (records : List NewEventRecord) : Prop where
  invokes : Invokes store scheduler queued cycle admitted sourceCut sourceEvents (.ok discharges)
  valid : validateDischarges queued.coupling discharges cycle.remainingDischargeBudget = .ok ()
  records : records = sinkRecords scheduler.draws cycle.drawn queued
    (eventProvenance queued.activation queued.coupling sourceCut sourceEvents) discharges

def Cycle.discharged (s : σ) (sinkEvents : List EventRecord) (cycle : Cycle σ) : Cycle σ :=
  { cycle with
    store := s
    drawn := cycle.drawn + sinkEvents.length
    remainingDischargeBudget := cycle.remainingDischargeBudget - sinkEvents.length }.note
      fun attempt => { attempt with sinkEvents := sinkEvents }

/-- **The ways an activation settles**, and the cycle it leaves. -/
inductive Settles (cycle : Cycle σ) : VerletResult Exit → Cycle σ → Prop
  /-- The depth limit. -/
  | deep (h : scheduler.config.maxDepth < queued.activation.depth) :
      Settles cycle (.ok ⟨.skipped, some "depth_limit_exhausted", [], [], [], false⟩) cycle
  /-- The control stream cannot be read. -/
  | uncounted {e : VerletError} (h : queued.activation.depth ≤ scheduler.config.maxDepth)
      (hcount : exec ((scheduler.over store).threadCount queued) cycle = (.error e, cycle)) :
      Settles cycle (.error e) cycle
  /-- A quota. -/
  | exhausted {threadCount : Option (ThreadCouplingRunKey × Nat)} {counted : Cycle σ}
      (h : queued.activation.depth ≤ scheduler.config.maxDepth)
      (hcount : exec ((scheduler.over store).threadCount queued) cycle = (.ok threadCount, counted))
      (hquota : quotaExhausted queued.coupling
        ((cycle.perTurnRunCounts.lookup queued.coupling.id).getD 0)
        ((threadCount.map (·.2)).getD 0) = true) :
      Settles cycle (.ok ⟨.skipped, some "quota_exhausted", [], [], [], true⟩) counted
  /-- The sources cannot be read. -/
  | sourceless {admitted : Cycle σ} {e : HistoryError}
      (hadmits : Admits store scheduler queued cycle admitted)
      (hsource : resolveSourceCut (fun streamId => store.readEvents streamId cycle.store)
        queued.coupling queued.triggerEvent = .error e) :
      Settles cycle (.ok ⟨.failed, some (scheduler.describe e), [], [], [], true⟩) admitted
  /-- The executor fails, or its discharges are not valid. -/
  | failed {admitted : Cycle σ} {sourceCut : CouplingSourceCut} {sourceEvents : List EventRecord}
      {answer : Except String (List CouplingDischarge)} {reason : String}
      (hinvokes : Invokes store scheduler queued cycle admitted sourceCut sourceEvents answer)
      (hfails : ∀ discharges, answer = .ok discharges →
        validateDischarges queued.coupling discharges cycle.remainingDischargeBudget = .error reason) :
      Settles cycle (.ok ⟨.failed, some reason, sourceCut, sourceEvents, [], true⟩)
        (admitted.answered answer)
  /-- The store refuses the discharges. -/
  | refused {admitted : Cycle σ} {sourceCut : CouplingSourceCut} {sourceEvents : List EventRecord}
      {discharges : List CouplingDischarge} {records : List NewEventRecord} {e : HistoryError}
      (hoffers : Offers store scheduler queued cycle admitted sourceCut sourceEvents discharges records)
      (hsome : records ≠ [])
      (hrefused : store.appendEvents queued.sinkStream records cycle.store = (.error e, cycle.store)) :
      Settles cycle (.error (.history (.store e)))
        { admitted.answered (.ok discharges) with drawn := cycle.drawn + records.length }
  /-- The store takes the discharges. -/
  | completed {admitted : Cycle σ} {sourceCut : CouplingSourceCut} {sourceEvents : List EventRecord}
      {discharges : List CouplingDischarge} {records : List NewEventRecord}
      {sinkEvents : List EventRecord} {s : σ}
      (hoffers : Offers store scheduler queued cycle admitted sourceCut sourceEvents discharges records)
      (htakes : Takes store queued.sinkStream records cycle.store s)
      (hsink : sinkEvents = numbered queued.sinkStream
        (store.events cycle.store queued.sinkStream).length records) :
      Settles cycle (.ok ⟨.completed, none, sourceCut, sourceEvents, sinkEvents, true⟩)
        ((admitted.answered (.ok discharges)).discharged s sinkEvents)

variable {store scheduler queued}

theorem exec_threadRunCount (cycle : Cycle σ) :
    exec ((scheduler.over store).threadRunCount queued) cycle =
      match cycle.perThreadRunCounts.lookup queued.key with
      | some count => (.ok (queued.key, count), cycle)
      | none =>
        match store.readEvents queued.controlStream cycle.store with
        | .error e   => (.error (.history (.store e)), cycle)
        | .ok events => (.ok (queued.key, runCount queued.coupling.id events % 2 ^ 32),
            { cycle with
              perThreadRunCounts := cycle.perThreadRunCounts.insert queued.key
                (runCount queued.coupling.id events % 2 ^ 32) }) := by
  rw [CouplingScheduler.threadRunCount, exec_reading_bind]
  change exec (match cycle.perThreadRunCounts.lookup queued.key with | some count => _ | none => _)
    cycle = _
  cases cycle.perThreadRunCounts.lookup queued.key with
  | some count => rfl
  | none =>
    change exec (reading (fun cycle => orHistory (store.readEvents queued.controlStream cycle.store))
      >>= _) cycle = _
    rw [exec_reading_bind]
    cases store.readEvents queued.controlStream cycle.store with
    | error e => rfl
    | ok events => rfl

variable (store scheduler queued) in
theorem threadCount_cases (cycle : Cycle σ) :
    (∃ threadCount counted,
      exec ((scheduler.over store).threadCount queued) cycle = (.ok threadCount, counted) ∧
      Counts store queued cycle threadCount counted) ∨
    ∃ e, exec ((scheduler.over store).threadCount queued) cycle = (.error (.history (.store e)), cycle) ∧
      store.readEvents queued.controlStream cycle.store = .error e := by
  by_cases hquota : queued.coupling.triggerQuota.perThread = none
  · left
    refine ⟨none, cycle, ?_, .unlimited hquota⟩
    rw [CouplingScheduler.threadCount, if_neg (by rw [hquota]; exact Bool.false_ne_true)]
    rfl
  · rw [CouplingScheduler.threadCount, if_pos (Option.isSome_iff_ne_none.mpr hquota), map_eq_pure_bind,
      exec_bind, exec_threadRunCount]
    cases hcount : cycle.perThreadRunCounts.lookup queued.key with
    | some count => exact .inl ⟨_, _, rfl, .remembered hquota hcount⟩
    | none =>
      cases hread : store.readEvents queued.controlStream cycle.store with
      | error e => exact .inr ⟨e, rfl, rfl⟩
      | ok events =>
        obtain rfl := store.reads hread
        exact .inl ⟨_, _, rfl, .rebuilt hquota hcount rfl⟩

theorem counts_of_exec {counted : Cycle σ} {threadCount : Option (ThreadCouplingRunKey × Nat)}
    (h : exec ((scheduler.over store).threadCount queued) cycle = (.ok threadCount, counted)) :
    Counts store queued cycle threadCount counted := by
  rcases threadCount_cases store scheduler queued cycle with ⟨_, _, hok, hcounts⟩ | ⟨e, herror, -⟩
  · obtain ⟨hcount, rfl⟩ := Prod.mk.inj (hok.symm.trans h)
    obtain rfl := Except.ok.inj hcount
    exact hcounts
  · cases (Prod.mk.inj (herror.symm.trans h)).1

theorem Counts.eq {counted : Cycle σ} {threadCount : Option (ThreadCouplingRunKey × Nat)}
    (h : Counts store queued cycle threadCount counted) :
    ∃ perThread, counted = { cycle with perThreadRunCounts := perThread } := by
  cases h with
  | unlimited => exact ⟨_, rfl⟩
  | remembered => exact ⟨_, rfl⟩
  | rebuilt => exact ⟨_, rfl⟩

theorem Admits.eq (h : Admits store scheduler queued cycle admitted) :
    ∃ perTurn perThread, admitted =
      { cycle with perTurnRunCounts := perTurn, perThreadRunCounts := perThread } := by
  obtain ⟨threadCount, counted, hcount, -, rfl⟩ := h.counts
  obtain ⟨perThread, rfl⟩ := (counts_of_exec hcount).eq
  exact ⟨_, _, rfl⟩

theorem exec_append (streamId : EventStreamId) (records : List NewEventRecord) (cycle : Cycle σ) :
    exec ((scheduler.over store).append streamId records) cycle =
      match store.appendEvents streamId records cycle.store with
      | (.error e, s) => (.error (.history (.store e)),
          { cycle with store := s, drawn := cycle.drawn + records.length })
      | (.ok found, s) => (.ok found,
          { cycle with store := s, drawn := cycle.drawn + records.length }) := by
  have hexec : exec ((scheduler.over store).append streamId records) cycle =
      (orHistory (store.appendEvents streamId records cycle.store).1,
        { cycle with
          store := (store.appendEvents streamId records cycle.store).2
          drawn := cycle.drawn + records.length }) := rfl
  rw [hexec]
  rcases store.appendEvents streamId records cycle.store with ⟨e | found, s⟩
  · rfl
  · rfl

theorem exec_appendSinkEvents {sourceCut : CouplingSourceCut} {sourceEvents : List EventRecord}
    (hstream : ∀ discharge ∈ discharges, discharge.stream = queued.coupling.sink.stream)
    (hrecords : records = sinkRecords scheduler.draws cycle.drawn queued
      (eventProvenance queued.activation queued.coupling sourceCut sourceEvents) discharges) :
    exec ((scheduler.over store).appendSinkEvents queued sourceCut sourceEvents discharges) cycle =
      if discharges = [] then (.ok [], cycle.note fun attempt => { attempt with sinkEvents := [] })
      else match store.appendEvents queued.sinkStream records cycle.store with
        | (.error e, s) => (.error (.history (.store e)),
            { cycle with store := s, drawn := cycle.drawn + records.length })
        | (.ok found, s) => (.ok found,
            { cycle with store := s, drawn := cycle.drawn + records.length }.note
              fun attempt => { attempt with sinkEvents := found }) := by
  rw [CouplingScheduler.appendSinkEvents, exec_reading_bind]
  change exec ((recordsByStream scheduler.draws cycle.drawn queued _ discharges).mapM _ >>= _) cycle = _
  rw [recordsByStream_eq hstream, ← hrecords]
  by_cases hnone : discharges = []
  · rw [if_pos hnone, if_pos hnone]
    rfl
  · have hstream : streamIdFor queued.triggerEvent.coordinates queued.coupling.sink.stream =
        queued.sinkStream := rfl
    rw [if_neg hnone, if_neg hnone]
    simp only [List.mapM_cons, List.mapM_nil, exec_bind, hstream, exec_append]
    rcases store.appendEvents queued.sinkStream records cycle.store with ⟨e | found, s⟩
    · rfl
    · have hflat : [found].flatten = found := by simp
      simp only [exec_pure, hflat, exec_writing]

theorem exec_invoke (request : CouplingInvocation) (cycle : Cycle σ) :
    exec ((scheduler.over store).invoke request) cycle =
      (.ok (scheduler.executor cycle.invoked request),
        cycle.answered (scheduler.executor cycle.invoked request)) := rfl

theorem Offers.settles {answered : Cycle σ} {sourceCut : CouplingSourceCut}
    {sourceEvents : List EventRecord}
    (hoffers : Offers store scheduler queued cycle admitted sourceCut sourceEvents discharges records)
    (hanswered : answered = admitted.answered (.ok discharges))
    (h : exec (do
        let sinkEvents ← (scheduler.over store).appendSinkEvents queued sourceCut sourceEvents discharges
        writing fun cycle => { cycle with
          remainingDischargeBudget := cycle.remainingDischargeBudget - sinkEvents.length }
        return ⟨.completed, none, sourceCut, sourceEvents, sinkEvents, true⟩)
      answered = (result, cycle')) : Settles store scheduler queued cycle result cycle' := by
  obtain ⟨perTurn, perThread, hadmitted⟩ := hoffers.invokes.admits.eq
  have hdrawn : answered.drawn = cycle.drawn := by
    rw [hanswered, hadmitted]
    rfl
  have hstore : answered.store = cycle.store := by
    rw [hanswered, hadmitted]
    rfl
  have hrecords : records = sinkRecords scheduler.draws answered.drawn queued
      (eventProvenance queued.activation queued.coupling sourceCut sourceEvents) discharges := by
    rw [hdrawn]
    exact hoffers.records
  have hstreams := fun discharge hmem =>
    ((validateDischarges_ok hoffers.valid).2 discharge hmem).1
  rw [exec_bind, exec_appendSinkEvents hstreams hrecords, hstore, hdrawn] at h
  by_cases hnone : discharges = []
  · -- nothing is appended
    rw [if_pos hnone] at h
    obtain ⟨rfl, hcycle⟩ := Prod.mk.inj h
    have hempty : records = [] := by
      rw [hrecords, hnone]
      rfl
    have hsink : [] = numbered queued.sinkStream
        (store.events cycle.store queued.sinkStream).length records := by
      rw [hempty]
      rfl
    have hdone := Settles.completed hoffers
      (hempty ▸ takes_nil store queued.sinkStream cycle.store) hsink
    have hend : answered.discharged cycle.store [] = cycle' := by
      rw [← hcycle, ← hstore]
      rfl
    rw [← hanswered, hend] at hdone
    exact hdone
  · rw [if_neg hnone] at h
    rcases happend : store.appendEvents queued.sinkStream records cycle.store with ⟨e | found, s⟩
    · rw [happend] at h
      obtain rfl := store.refuses happend
      obtain ⟨rfl, hcycle⟩ := Prod.mk.inj h
      have hsome : records ≠ [] := by
        rw [← List.length_pos_iff, hrecords, length_sinkRecords]
        exact List.length_pos_iff.mpr hnone
      have hdone := Settles.refused hoffers hsome happend
      have hend : { answered with drawn := cycle.drawn + records.length } = cycle' := by
        rw [← hcycle, ← hstore]
      rw [← hanswered, hend] at hdone
      exact hdone
    · rw [happend] at h
      obtain ⟨rfl, hcycle⟩ := Prod.mk.inj h
      obtain ⟨htakes, hfound⟩ := takes_of_append happend
      have hlength : records.length = found.length := by
        rw [hfound, History.length_numbered]
      have hdone := Settles.completed hoffers htakes hfound
      have hend : answered.discharged s found = cycle' := by
        rw [← hcycle, Cycle.discharged, hdrawn, hlength]
        rfl
      rw [← hanswered, hend] at hdone
      exact hdone

theorem Admits.settles (hadmits : Admits store scheduler queued cycle admitted)
    (h : exec ((scheduler.over store).runAdmitted queued) admitted = (result, cycle')) :
    Settles store scheduler queued cycle result cycle' := by
  obtain ⟨perTurn, perThread, rfl⟩ := hadmits.eq
  have hread : (scheduler.over store).store.readEvents = store.readEvents := rfl
  rw [CouplingScheduler.runAdmitted, exec_reading_bind] at h
  simp only [hread] at h
  cases hsource : resolveSourceCut (fun streamId => store.readEvents streamId cycle.store)
    queued.coupling queued.triggerEvent with
  | error e =>
    rw [hsource] at h
    obtain ⟨rfl, rfl⟩ := Prod.mk.inj h
    exact .sourceless hadmits hsource
  | ok source =>
    obtain ⟨sourceCut, sourceEvents⟩ := source
    rw [hsource] at h
    simp only [exec_bind, exec_invoke] at h
    have hinvokes := Invokes.mk hadmits hsource rfl
    cases hanswer : scheduler.executor cycle.invoked
      ⟨queued.activation, queued.coupling, queued.triggerEvent, sourceCut, sourceEvents⟩ with
    | error reason =>
      rw [hanswer] at h hinvokes
      obtain ⟨rfl, rfl⟩ := Prod.mk.inj h
      exact .failed hinvokes fun discharges hok => by cases hok
    | ok discharges =>
      rw [hanswer] at h hinvokes
      simp only [exec_reading_bind] at h
      change exec (match validateDischarges queued.coupling discharges
        cycle.remainingDischargeBudget with | .error reason => _ | .ok _ => _) _ = _ at h
      cases hvalid : validateDischarges queued.coupling discharges cycle.remainingDischargeBudget with
      | error reason =>
        rw [hvalid] at h
        obtain ⟨rfl, rfl⟩ := Prod.mk.inj h
        refine .failed hinvokes fun discharges' hok => ?_
        cases hok
        exact hvalid
      | ok _ =>
        rw [hvalid] at h
        exact Offers.settles ⟨hinvokes, hvalid, rfl⟩ rfl h

/-- **An activation settles in one of the ways.** -/
theorem settles (h : exec ((scheduler.over store).settle queued) cycle = (result, cycle')) :
    Settles store scheduler queued cycle result cycle' := by
  have hconfig : (scheduler.over store).config = scheduler.config := rfl
  rw [CouplingScheduler.settle, hconfig] at h
  by_cases hdeep : scheduler.config.maxDepth < queued.activation.depth
  · rw [if_pos hdeep] at h
    obtain ⟨rfl, rfl⟩ := Prod.mk.inj h
    exact .deep hdeep
  · have hshallow := Nat.not_lt.mp hdeep
    rw [if_neg hdeep, exec_reading_bind] at h
    simp only [exec_bind] at h
    rcases threadCount_cases store scheduler queued cycle with ⟨threadCount, counted, hcount, -⟩ | ⟨e, hcount, -⟩
    · simp only [hcount] at h
      by_cases hquota : quotaExhausted queued.coupling
          ((cycle.perTurnRunCounts.lookup queued.coupling.id).getD 0)
          ((threadCount.map (·.2)).getD 0) = true
      · rw [if_pos hquota] at h
        obtain ⟨rfl, rfl⟩ := Prod.mk.inj h
        exact .exhausted hshallow hcount hquota
      · rw [if_neg hquota, exec_writing_bind] at h
        have hadmits : Admits store scheduler queued cycle (counted.countRun queued threadCount) :=
          ⟨hshallow, threadCount, counted, hcount, Bool.not_eq_true _ ▸ hquota, rfl⟩
        exact hadmits.settles h
    · simp only [hcount] at h
      obtain ⟨rfl, rfl⟩ := Prod.mk.inj h
      exact .uncounted hshallow hcount

/-! ### A round -/

/-- The receipt of an activation, as it stands on its stream. -/
def receiptEvent (store : JournalStore σ) (scheduler : CouplingScheduler σ)
    (queued : QueuedActivation) (exit : Exit) (settled : Cycle σ) : EventRecord :=
  .fromNew queued.controlStream ((store.events settled.store queued.controlStream).length + 1)
    (receiptRecord queued exit (scheduler.draws settled.drawn))

def Cycle.receipted (s : σ) (receipt : EventRecord) (cycle : Cycle σ) : Cycle σ :=
  { cycle with store := s, drawn := cycle.drawn + 1 }.note
    fun attempt => { attempt with receipts := [receipt] }

variable (store scheduler queued) in
/-- **The ways a round ends**, and the cycle it leaves. -/
inductive Rounds (couplingSet : BoundCouplingSet) (cycle : Cycle σ) : VerletResult Unit → Cycle σ → Prop
  /-- The activation does not settle. -/
  | unsettled {e : VerletError} {cycle' : Cycle σ}
      (hsettle : exec ((scheduler.over store).settle queued) cycle = (.error e, cycle')) :
      Rounds couplingSet cycle (.error e) cycle'
  /-- The store refuses the receipt. -/
  | unreceipted {exit : Exit} {settled : Cycle σ} {e : HistoryError}
      (hsettle : exec ((scheduler.over store).settle queued) cycle = (.ok exit, settled))
      (hrefused : store.appendEvents queued.controlStream
        [receiptRecord queued exit (scheduler.draws settled.drawn)] settled.store =
          (.error e, settled.store)) :
      Rounds couplingSet cycle (.error (.history (.store e))) { settled with drawn := settled.drawn + 1 }
  /-- The store takes the receipt. -/
  | receipted {exit : Exit} {settled : Cycle σ} {s : σ}
      (hsettle : exec ((scheduler.over store).settle queued) cycle = (.ok exit, settled))
      (htakes : Takes store queued.controlStream
        [receiptRecord queued exit (scheduler.draws settled.drawn)] settled.store s) :
      Rounds couplingSet cycle (.ok ()) ((settled.receipted s
        (receiptEvent store scheduler queued exit settled)).finish couplingSet queued exit
          [receiptEvent store scheduler queued exit settled])

theorem runActivation_rounds {couplingSet : BoundCouplingSet} {result : VerletResult Unit}
    (h : exec ((scheduler.over store).runActivation couplingSet queued) cycle = (result, cycle')) :
    Rounds store scheduler queued couplingSet cycle result cycle' := by
  have hdraws : (scheduler.over store).draws = scheduler.draws := rfl
  have hstream : streamIdFor queued.triggerEvent.coordinates "control" = queued.controlStream := rfl
  rw [CouplingScheduler.runActivation, exec_bind] at h
  rcases hsettle : exec ((scheduler.over store).settle queued) cycle with ⟨e | exit, settled⟩
  · rw [hsettle] at h
    obtain ⟨rfl, rfl⟩ := Prod.mk.inj h
    exact .unsettled hsettle
  · rw [hsettle] at h
    simp only [CouplingScheduler.appendRunReceipt, exec_bind, exec_reading, hstream, exec_append,
      hdraws] at h
    rcases happend : store.appendEvents queued.controlStream
      [receiptRecord queued exit (scheduler.draws settled.drawn)] settled.store with ⟨e | found, s⟩
    · rw [happend] at h
      obtain rfl := store.refuses happend
      obtain ⟨rfl, rfl⟩ := Prod.mk.inj h
      exact .unreceipted hsettle happend
    · rw [happend] at h
      obtain ⟨htakes, hfound⟩ := takes_of_append happend
      have hreceipt : found = [receiptEvent store scheduler queued exit settled] := hfound
      subst hreceipt
      obtain ⟨rfl, rfl⟩ := Prod.mk.inj h
      exact .receipted hsettle htakes

end

end Verlet.Kernel
