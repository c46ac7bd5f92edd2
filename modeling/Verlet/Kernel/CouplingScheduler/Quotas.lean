import Verlet.Kernel.CouplingScheduler.Receipts

/-!
# Kernel — The coupling scheduler — Quotas

The lifetime quota of a coupling on a thread, over any sequence of cycles.  A cycle counts the runs
of earlier ones by their receipts, so a cycle that breaks off after it invoked the executor leaves
an invocation that no later cycle counts.

* `Settles.tallied`: what settling an activation does to the counts.
-/

namespace Verlet.Kernel
open Support History
open RemoteStore (VerletResult)

variable {σ : Type} {store : JournalStore σ} {scheduler : CouplingScheduler σ}
  {queued : QueuedActivation} {couplingSet : BoundCouplingSet}

/-! ### Counted receipts -/

theorem runCount_append (couplingId : String) (events later : List EventRecord) :
    runCount couplingId (events ++ later) = runCount couplingId events + runCount couplingId later :=
  List.countP_append

theorem runCount_mono {couplingId : String} {events later : List EventRecord}
    (h : events <+: later) : runCount couplingId events ≤ runCount couplingId later :=
  h.sublist.countP_le

theorem countedThreadQuotaRun_receipt {exit : Exit} {receipt : EventRecord}
    (hkind : receipt.kind = exit.status.receiptKind)
    (hpayload : receipt.payload = (runReceipt queued exit).toValue) (hrun : exit.status ≠ .skipped) :
    countedThreadQuotaRun receipt queued.coupling.id = true := by
  have hid : Json.get? (runReceipt queued exit).fields "coupling_id" =
      some (.str queued.coupling.id) := by
    simp [CouplingRunReceipt.fields, Json.object, runReceipt]
  have hstatus : Json.get? (runReceipt queued exit).fields "status" =
      some (.str exit.status.asRef) := by
    simp [CouplingRunReceipt.fields, Json.object, runReceipt]
  have hfields : ∃ fields, receipt.payload = .obj fields ∧
      Json.get? fields "coupling_id" = some (.str queued.coupling.id) ∧
      Json.get? fields "status" = some (.str exit.status.asRef) := by
    rw [hpayload, CouplingRunReceipt.toValue]
    cases (runReceipt queued exit).reason with
    | none => exact ⟨_, rfl, hid, hstatus⟩
    | some reason => exact ⟨_, rfl, by simp [hid], by simp [hstatus]⟩
  obtain ⟨fields, hobject, hid', hstatus'⟩ := hfields
  have hname : exit.status.asRef ≠ "skipped" := by
    cases hcase : exit.status with
    | completed => decide
    | failed => decide
    | skipped => exact absurd hcase hrun
  have hrecorded : receipt.kind = .couplingRunCompleted ∨ receipt.kind = .couplingRunFailed := by
    rw [hkind]
    cases exit.status with
    | completed => exact .inl rfl
    | failed => exact .inr rfl
    | skipped => exact .inr rfl
  simp [countedThreadQuotaRun, payloadGet, hobject, Json.asObject, hid', hstatus', Json.asStr, hname,
    hrecorded]

/-! ### The counts of a cycle -/

def knownRuns (store : JournalStore σ) (queued : QueuedActivation) (cycle : Cycle σ) : Nat :=
  (cycle.perThreadRunCounts.lookup queued.key).getD
    (runCount queued.coupling.id (store.events cycle.store queued.controlStream) % 2 ^ 32)

/-- The count of the activation's thread is loaded, with `more` runs. -/
structure Loaded (store : JournalStore σ) (queued : QueuedActivation) (more : Nat)
    (cycle cycle' : Cycle σ) : Prop where
  others : ∀ key, key ≠ queued.key →
    cycle'.perThreadRunCounts.lookup key = cycle.perThreadRunCounts.lookup key
  unlimited : queued.coupling.triggerQuota.perThread = none →
    cycle'.perThreadRunCounts = cycle.perThreadRunCounts
  limited : queued.coupling.triggerQuota.perThread ≠ none →
    cycle'.perThreadRunCounts.lookup queued.key = some (knownRuns store queued cycle + more)

variable {cycle : Cycle σ}

theorem Counts.loaded {counted : Cycle σ} {threadCount : Option (ThreadCouplingRunKey × Nat)}
    (h : Counts store queued cycle threadCount counted) : Loaded store queued 0 cycle counted := by
  cases h with
  | unlimited hnone => exact ⟨fun _ _ => rfl, fun _ => rfl, fun hsome => absurd hnone hsome⟩
  | remembered hsome hcount =>
    refine ⟨fun _ _ => rfl, fun _ => rfl, fun _ => ?_⟩
    rw [hcount, knownRuns, hcount]
    rfl
  | rebuilt hsome hcount hjournal =>
    refine ⟨fun key hkey => ?_, fun hnone => absurd hnone hsome, fun _ => ?_⟩
    · rw [Map.lookup_insert, if_neg hkey]
    · rw [Map.lookup_insert, if_pos rfl, knownRuns, hcount, hjournal]
      rfl

theorem Counts.threadCount {counted : Cycle σ} {threadCount : Option (ThreadCouplingRunKey × Nat)}
    (h : Counts store queued cycle threadCount counted) :
    threadCount = if queued.coupling.triggerQuota.perThread = none then none
      else some (queued.key, knownRuns store queued cycle) := by
  cases h with
  | unlimited hnone => rw [if_pos hnone]
  | remembered hsome hcount =>
    rw [if_neg hsome, knownRuns, hcount]
    rfl
  | rebuilt hsome hcount hjournal =>
    rw [if_neg hsome, knownRuns, hcount, hjournal]
    rfl

variable {admitted : Cycle σ}

theorem Admits.loaded (h : Admits store scheduler queued cycle admitted) :
    Loaded store queued 1 cycle admitted := by
  obtain ⟨threadCount, counted, hexec, -, rfl⟩ := h.counts
  have hcounts := counts_of_exec hexec
  have hloaded := hcounts.loaded
  rw [hcounts.threadCount]
  by_cases hquota : queued.coupling.triggerQuota.perThread = none
  · rw [if_pos hquota]
    exact ⟨hloaded.others, hloaded.unlimited, fun hsome => absurd hquota hsome⟩
  · rw [if_neg hquota]
    refine ⟨fun key hkey => ?_, fun hnone => absurd hnone hquota, fun _ => ?_⟩
    · change (AList.insert _ _ _).lookup key = _
      rw [Map.lookup_insert, if_neg hkey]
      exact hloaded.others key hkey
    · change (AList.insert _ _ _).lookup _ = _
      rw [Map.lookup_insert, if_pos rfl, hloaded.limited hquota]
      rfl

theorem Admits.within {limit : Nat} (h : Admits store scheduler queued cycle admitted)
    (hlimit : queued.coupling.triggerQuota.perThread = some limit) :
    knownRuns store queued cycle < limit := by
  obtain ⟨threadCount, counted, hexec, hquota, -⟩ := h.counts
  have hcount := (counts_of_exec hexec).threadCount
  rw [if_neg (by rw [hlimit]; exact Option.some_ne_none limit)] at hcount
  rw [hcount, quotaExhausted, hlimit] at hquota
  simp only [Option.any_some, decide_eq_true_eq, Option.map_some, Option.getD_some,
    decide_eq_false_iff_not, not_or, Nat.not_le] at hquota
  exact hquota.2

/-- What settling an activation does to the attempts, the journal and the counts. -/
structure Tallied (store : JournalStore σ) (scheduler : CouplingScheduler σ)
    (queued : QueuedActivation) (past : List Attempt) (cycle settled : Cycle σ) : Prop where
  attempt : ∃ answer sinkEvents, settled.attempts = ⟨queued, answer, sinkEvents, []⟩ :: past ∧
    (answer.isSome = true → (∃ admitted sourceCut sourceEvents answer,
        Invokes store scheduler queued cycle admitted sourceCut sourceEvents answer) ∧
      Loaded store queued 1 cycle settled ∧
      ∀ limit, queued.coupling.triggerQuota.perThread = some limit →
        knownRuns store queued cycle < limit)
  grows : ∀ streamId, store.events cycle.store streamId <+: store.events settled.store streamId
  loaded : settled.perThreadRunCounts = cycle.perThreadRunCounts ∨
    ∃ more, Loaded store queued more cycle settled

theorem attempts_answered {past : List Attempt} (h : Admits store scheduler queued cycle admitted)
    (hpast : cycle.attempts = ⟨queued, none, [], []⟩ :: past)
    (answer : Except String (List CouplingDischarge)) :
    (admitted.answered answer).attempts = ⟨queued, some answer, [], []⟩ :: past := by
  obtain ⟨perTurn, perThread, rfl⟩ := h.eq
  simp only [Cycle.answered, Cycle.note, hpast, List.modifyHead_cons]

theorem store_answered {answer : Except String (List CouplingDischarge)}
    (h : Admits store scheduler queued cycle admitted) :
    (admitted.answered answer).store = cycle.store := by
  obtain ⟨perTurn, perThread, rfl⟩ := h.eq
  rfl

theorem Settles.tallied {settled : Cycle σ} {result : VerletResult Exit} {past : List Attempt}
    (hpast : cycle.attempts = ⟨queued, none, [], []⟩ :: past)
    (h : Settles store scheduler queued cycle result settled) :
    Tallied store scheduler queued past cycle settled := by
  have hsame : ∀ streamId,
      store.events cycle.store streamId <+: store.events cycle.store streamId :=
    fun streamId => List.prefix_refl _
  cases h with
  | deep _ => exact ⟨⟨none, [], hpast, nofun⟩, hsame, .inl rfl⟩
  | uncounted _ _ => exact ⟨⟨none, [], hpast, nofun⟩, hsame, .inl rfl⟩
  | exhausted _ hcount _ =>
    have hloaded := (counts_of_exec hcount).loaded
    obtain ⟨perThread, rfl⟩ := (counts_of_exec hcount).eq
    exact ⟨⟨none, [], hpast, nofun⟩, hsame, .inr ⟨0, hloaded⟩⟩
  | sourceless hadmits _ =>
    have hloaded := hadmits.loaded
    obtain ⟨perTurn, perThread, rfl⟩ := hadmits.eq
    exact ⟨⟨none, [], hpast, nofun⟩, hsame, .inr ⟨1, hloaded⟩⟩
  | @failed admitted _ _ answer _ hinvokes _ =>
    have hloaded : Loaded store queued 1 cycle (admitted.answered answer) :=
      ⟨hinvokes.admits.loaded.others, hinvokes.admits.loaded.unlimited,
        hinvokes.admits.loaded.limited⟩
    refine ⟨⟨some answer, [], ?_, fun _ => ⟨⟨_, _, _, _, hinvokes⟩, hloaded, ?_⟩⟩, ?_,
      .inr ⟨1, hloaded⟩⟩
    · exact attempts_answered hinvokes.admits hpast answer
    · exact fun limit hlimit => hinvokes.admits.within hlimit
    · rw [store_answered hinvokes.admits]
      exact hsame
  | @refused admitted _ _ discharges records e hoffers _ _ =>
    have hinvokes := hoffers.invokes
    have hloaded : Loaded store queued 1 cycle
        { admitted.answered (.ok discharges) with drawn := cycle.drawn + records.length } :=
      ⟨hinvokes.admits.loaded.others, hinvokes.admits.loaded.unlimited,
        hinvokes.admits.loaded.limited⟩
    refine ⟨⟨some (.ok discharges), [], ?_, fun _ => ⟨⟨_, _, _, _, hinvokes⟩, hloaded, ?_⟩⟩, ?_,
      .inr ⟨1, hloaded⟩⟩
    · exact attempts_answered hinvokes.admits hpast (.ok discharges)
    · exact fun limit hlimit => hinvokes.admits.within hlimit
    · change ∀ streamId, _ <+: store.events (admitted.answered (.ok discharges)).store streamId
      rw [store_answered hinvokes.admits]
      exact hsame
  | @completed admitted _ _ discharges records sinkEvents s hoffers htakes _ =>
    have hinvokes := hoffers.invokes
    have hloaded : Loaded store queued 1 cycle
        ((admitted.answered (.ok discharges)).discharged s sinkEvents) :=
      ⟨hinvokes.admits.loaded.others, hinvokes.admits.loaded.unlimited,
        hinvokes.admits.loaded.limited⟩
    refine ⟨⟨some (.ok discharges), sinkEvents, ?_, fun _ => ⟨⟨_, _, _, _, hinvokes⟩, hloaded, ?_⟩⟩,
      ?_, .inr ⟨1, hloaded⟩⟩
    · rw [Cycle.discharged, Cycle.note]
      simp only [attempts_answered hinvokes.admits hpast (.ok discharges), List.modifyHead_cons]
    · exact fun limit hlimit => hinvokes.admits.within hlimit
    · intro streamId
      change _ <+: store.events s streamId
      rw [htakes.events, appendBatch_eq]
      exact List.prefix_append _ _

/-! ### A quota -/

/-- The lifetime quota of a coupling on a thread, which its control stream stands for. -/
structure ThreadQuota where
  control : EventStreamId
  couplingId : String
  limit : Nat

def ThreadQuota.key (quota : ThreadQuota) : ThreadCouplingRunKey := ⟨quota.control, quota.couplingId⟩

/-- The activation is one of the coupling, on the thread, under the quota. -/
def ThreadQuota.covers (quota : ThreadQuota) (queued : QueuedActivation) : Prop :=
  queued.key = quota.key ∧ queued.coupling.triggerQuota.perThread = some quota.limit

instance (quota : ThreadQuota) (queued : QueuedActivation) : Decidable (quota.covers queued) :=
  inferInstanceAs (Decidable (_ ∧ _))

def ThreadQuota.invocations (quota : ThreadQuota) (attempts : List Attempt) : Nat :=
  attempts.countP fun attempt => attempt.answer.isSome ∧ quota.covers attempt.queued

/-- The activation does not break the cycle off between its invocation and its receipt, and the
thread's receipts can be counted in a `u32`. -/
structure Unbroken (store : JournalStore σ) (scheduler : CouplingScheduler σ) (quota : ThreadQuota)
    (queued : QueuedActivation) (cycle : Cycle σ) : Prop where
  counted : queued.key = quota.key → queued.coupling.triggerQuota.perThread ≠ none →
    runCount quota.couplingId (store.events cycle.store quota.control) < 2 ^ 32
  sink : quota.covers queued → ∀ admitted sourceCut sourceEvents discharges records,
    Offers store scheduler queued cycle admitted sourceCut sourceEvents discharges records →
      records ≠ [] → ∃ found s, store.appendEvents queued.sinkStream records cycle.store = (.ok found, s)
  receipt : quota.covers queued → ∀ admitted sourceCut sourceEvents answer,
    Invokes store scheduler queued cycle admitted sourceCut sourceEvents answer →
      ∀ exit settled, exec ((scheduler.over store).settle queued) cycle = (.ok exit, settled) →
        ∃ found s, store.appendEvents queued.controlStream
          [receiptRecord queued exit (scheduler.draws settled.drawn)] settled.store = (.ok found, s)

/-- The invocations are within the quota, within the receipts, and within what the cycle knows. -/
structure Bounded (store : JournalStore σ) (quota : ThreadQuota) (earlier : List Attempt)
    (cycle : Cycle σ) : Prop where
  limited : quota.invocations (cycle.attempts ++ earlier) ≤ quota.limit
  journaled : quota.invocations (cycle.attempts ++ earlier) ≤
    runCount quota.couplingId (store.events cycle.store quota.control)
  remembered : ∀ count, cycle.perThreadRunCounts.lookup quota.key = some count →
    quota.invocations (cycle.attempts ++ earlier) ≤ count

section
variable {quota : ThreadQuota} {earlier : List Attempt}

theorem invocations_cons (attempt : Attempt) (attempts : List Attempt) :
    quota.invocations (attempt :: attempts) = quota.invocations attempts +
      if attempt.answer.isSome ∧ quota.covers attempt.queued then 1 else 0 := by
  rw [ThreadQuota.invocations, List.countP_cons]
  simp only [decide_eq_true_eq]
  rfl

theorem Bounded.known (h : Bounded store quota earlier cycle) (hkey : queued.key = quota.key)
    (hcounted : runCount quota.couplingId (store.events cycle.store quota.control) < 2 ^ 32) :
    quota.invocations (cycle.attempts ++ earlier) ≤ knownRuns store queued cycle := by
  obtain ⟨hcontrol, hid⟩ := ThreadCouplingRunKey.mk.inj hkey
  rw [knownRuns, hkey, hcontrol, hid]
  cases hcount : cycle.perThreadRunCounts.lookup quota.key with
  | some count => exact h.remembered count hcount
  | none =>
    rw [Option.getD_none, Nat.mod_eq_of_lt hcounted]
    exact h.journaled

/-- What a round leaves is bounded, if an invocation under the quota has a receipt that counts. -/
theorem Bounded.of_tallied {rest : List QueuedActivation} {settled cycle' : Cycle σ}
    {attempt : Attempt} (h : Bounded store quota earlier cycle)
    (hunbroken : Unbroken store scheduler quota queued (cycle.takeUp queued rest))
    (htallied : Tallied store scheduler queued cycle.attempts (cycle.takeUp queued rest) settled)
    (hattempts : cycle'.attempts = attempt :: cycle.attempts) (hqueued : attempt.queued = queued)
    (hanswer : settled.attempts.head?.bind (·.answer) = attempt.answer)
    (hcounts : cycle'.perThreadRunCounts = settled.perThreadRunCounts)
    (hgrows : ∀ streamId, store.events settled.store streamId <+: store.events cycle'.store streamId)
    (hreceipt : attempt.answer.isSome = true → quota.covers queued →
      runCount quota.couplingId (store.events settled.store quota.control) + 1 ≤
        runCount quota.couplingId (store.events cycle'.store quota.control)) :
    Bounded store quota earlier cycle' := by
  obtain ⟨answer, sinkEvents, hsettled, hinvoked⟩ := htallied.attempt
  obtain rfl : answer = attempt.answer := by
    rw [← hanswer, hsettled]
    rfl
  have hjournal : runCount quota.couplingId (store.events cycle.store quota.control) ≤
      runCount quota.couplingId (store.events settled.store quota.control) :=
    runCount_mono (htallied.grows quota.control)
  have hjournal' : runCount quota.couplingId (store.events settled.store quota.control) ≤
      runCount quota.couplingId (store.events cycle'.store quota.control) :=
    runCount_mono (hgrows quota.control)
  -- what the cycle knows is no less than the invocations, where the quota is looked at
  have hknown : queued.key = quota.key → queued.coupling.triggerQuota.perThread ≠ none →
      quota.invocations (cycle.attempts ++ earlier) ≤
        knownRuns store queued (cycle.takeUp queued rest) :=
    fun hkey hsome => h.known hkey (hunbroken.counted hkey hsome)
  have hcount : quota.invocations (cycle'.attempts ++ earlier) =
      quota.invocations (cycle.attempts ++ earlier) +
        if attempt.answer.isSome ∧ quota.covers queued then 1 else 0 := by
    rw [hattempts, List.cons_append, invocations_cons, hqueued]
  by_cases hunder : attempt.answer.isSome = true ∧ quota.covers queued
  · -- an invocation under the quota
    rw [if_pos hunder] at hcount
    obtain ⟨hsome, hkey, hlimit⟩ := hunder
    obtain ⟨-, hloaded, hwithin⟩ := hinvoked hsome
    have hquota : queued.coupling.triggerQuota.perThread ≠ none := by
      rw [hlimit]
      exact Option.some_ne_none _
    have hless := hwithin quota.limit hlimit
    have hle := hknown hkey hquota
    refine ⟨by omega, ?_, ?_⟩
    · have hmore := hreceipt hsome ⟨hkey, hlimit⟩
      have hbefore := h.journaled
      omega
    · intro count hlookup
      rw [hcounts, ← hkey, hloaded.limited hquota] at hlookup
      obtain rfl := Option.some.inj hlookup
      omega
  · -- the invocations stay as they are
    rw [if_neg hunder, Nat.add_zero] at hcount
    refine ⟨?_, ?_, ?_⟩
    · rw [hcount]
      exact h.limited
    · rw [hcount]
      exact Nat.le_trans h.journaled (Nat.le_trans hjournal hjournal')
    · intro count hlookup
      rw [hcount]
      rw [hcounts] at hlookup
      rcases htallied.loaded with hsame | ⟨more, hloaded⟩
      · rw [hsame] at hlookup
        exact h.remembered count hlookup
      · by_cases hkey : quota.key = queued.key
        · by_cases hquota : queued.coupling.triggerQuota.perThread = none
          · rw [hloaded.unlimited hquota] at hlookup
            exact h.remembered count hlookup
          · rw [hkey, hloaded.limited hquota] at hlookup
            obtain rfl := Option.some.inj hlookup
            exact Nat.le_trans (hknown hkey.symm hquota) (Nat.le_add_right _ _)
        · rw [hloaded.others _ hkey] at hlookup
          exact h.remembered count hlookup

/-- **A round keeps the invocations within the quota**, unless it breaks the cycle off. -/
theorem Bounded.round {rest : List QueuedActivation} {cycle' : Cycle σ} {result : VerletResult Unit}
    (h : Bounded store quota earlier cycle)
    (hunbroken : Unbroken store scheduler quota queued (cycle.takeUp queued rest))
    (hround : Rounds store scheduler queued couplingSet (cycle.takeUp queued rest) result cycle') :
    Bounded store quota earlier cycle' := by
  have hsame : ∀ (s : σ) streamId, store.events s streamId <+: store.events s streamId :=
    fun _ _ => List.prefix_refl _
  cases hround with
  | unsettled hsettle =>
    have hsettles := settles hsettle
    have htallied := hsettles.tallied rfl
    obtain ⟨answer, sinkEvents, hattempts, hinvoked⟩ := htallied.attempt
    refine h.of_tallied hunbroken htallied hattempts rfl (by rw [hattempts]; rfl) rfl (hsame _) ?_
    intro hsome hcovers
    obtain ⟨⟨_, _, _, _, hinvokes⟩, -, -⟩ := hinvoked hsome
    -- an invocation that has no result is one whose discharges the store refuses
    exfalso
    cases hsettles with
    | uncounted _ hcount =>
      obtain ⟨_, _, hok, -⟩ := hinvokes.admits.counts
      cases (Prod.mk.inj (hok.symm.trans hcount)).1
    | refused hoffers hnonempty hrefused =>
      obtain ⟨found, s, htaken⟩ := hunbroken.sink hcovers _ _ _ _ _ hoffers hnonempty
      cases (Prod.mk.inj (hrefused.symm.trans htaken)).1
  | @unreceipted exit settled e hsettle hrefused =>
    have htallied := (settles hsettle).tallied rfl
    obtain ⟨answer, sinkEvents, hattempts, hinvoked⟩ := htallied.attempt
    refine h.of_tallied hunbroken htallied hattempts rfl (by rw [hattempts]; rfl) rfl (hsame _) ?_
    intro hsome hcovers
    obtain ⟨⟨_, _, _, _, hinvokes⟩, -, -⟩ := hinvoked hsome
    obtain ⟨found, s, htaken⟩ := hunbroken.receipt hcovers _ _ _ _ hinvokes exit settled hsettle
    cases (Prod.mk.inj (hrefused.symm.trans htaken)).1
  | @receipted exit settled s hsettle htakes =>
    have htallied := (settles hsettle).tallied rfl
    have hsettled := (settles hsettle).settled rfl
    obtain ⟨answer, hattempts, -, -, hskipped⟩ := hsettled.attempt
    have hreceipts : ∀ streamId, store.events s streamId = store.events settled.store streamId ++
        ofStream streamId [receiptEvent store scheduler queued exit settled] := by
      intro streamId
      rw [htakes.events, appendBatch_eq]
      rfl
    obtain ⟨later, seen, runs, appendedEvents, hfinish, -⟩ := finish_cases couplingSet queued exit
      (receiptEvent store scheduler queued exit settled)
      (settled.receipted s (receiptEvent store scheduler queued exit settled))
    rw [hfinish]
    have hattempts' : (settled.receipted s
        (receiptEvent store scheduler queued exit settled)).attempts =
          ⟨queued, answer, exit.sinkEvents, [receiptEvent store scheduler queued exit settled]⟩ ::
            cycle.attempts := by
      simp only [Cycle.receipted, Cycle.note, hattempts, List.modifyHead_cons]
    refine h.of_tallied hunbroken htallied hattempts' rfl (by rw [hattempts]; rfl) rfl ?_ ?_
    · intro streamId
      change _ <+: store.events s streamId
      rw [hreceipts]
      exact List.prefix_append _ _
    · intro hsome hcovers
      obtain ⟨hcontrol, hid⟩ := ThreadCouplingRunKey.mk.inj hcovers.1
      have hrun : exit.status ≠ .skipped := by
        intro hskip
        rw [hskipped hskip] at hsome
        cases hsome
      have hcounts : countedThreadQuotaRun (receiptEvent store scheduler queued exit settled)
          queued.coupling.id = true := countedThreadQuotaRun_receipt rfl rfl hrun
      have hone : runCount queued.coupling.id (ofStream queued.controlStream
          [receiptEvent store scheduler queued exit settled]) = 1 := by
        have hstream : (receiptEvent store scheduler queued exit settled).streamId =
            queued.controlStream := rfl
        simp [runCount, ofStream, hstream, hcounts]
      change _ ≤ runCount quota.couplingId (store.events s quota.control)
      rw [← hcontrol, ← hid, hreceipts, runCount_append, hone]

/-! ### A sequence of cycles -/

/-- A thread's history: the store, and the attempts of the cycles so far, the last first. -/
structure ThreadHistory (σ : Type) where
  store : σ
  attempts : List Attempt

/-- What happens to a thread: a cycle, with its own scheduler, coupling set and batch, or an append
of anyone else. -/
inductive ThreadCall (σ : Type) where
  | runBatch (scheduler : CouplingScheduler σ) (couplingSet : BoundCouplingSet) (batch : List EventRecord)
  | append (streamId : EventStreamId) (records : List NewEventRecord)

def ThreadCall.exec (store : JournalStore σ) : ThreadCall σ → ThreadHistory σ →
    VerletResult Unit × ThreadHistory σ
  | .runBatch scheduler couplingSet batch, history =>
    let (result, cycle) := (scheduler.over store).runBatch couplingSet batch history.store
    (result.map fun _ => (), ⟨cycle.store, cycle.attempts ++ history.attempts⟩)
  | .append streamId records, history =>
    let (result, s) := store.appendEvents streamId records history.store
    ((orHistory result).map fun _ => (), { history with store := s })

/-- No activation of the coupling on the thread breaks its cycle off between invocation and receipt. -/
def ThreadCall.Unbroken (store : JournalStore σ) (quota : ThreadQuota) (history : ThreadHistory σ) :
    ThreadCall σ → Prop
  | .runBatch scheduler couplingSet batch =>
    ∀ queued cycle, TakenUp store scheduler couplingSet batch history.store queued cycle →
      Kernel.Unbroken store scheduler quota queued cycle
  | .append _ _ => True

/-- The invocations of the history are within the quota and the receipts. -/
def ThreadHistory.Within (store : JournalStore σ) (quota : ThreadQuota) (history : ThreadHistory σ) :
    Prop :=
  quota.invocations history.attempts ≤ quota.limit ∧
    quota.invocations history.attempts ≤
      runCount quota.couplingId (store.events history.store quota.control)

theorem Bounded.head {history : ThreadHistory σ} {batch : List EventRecord} {head : Cycle σ}
    (h : history.Within store quota)
    (hunbroken : (ThreadCall.runBatch scheduler couplingSet batch).Unbroken store quota history)
    (hhead : Head store scheduler couplingSet batch history.store head) :
    Bounded store quota history.attempts head := by
  induction hhead with
  | start => exact ⟨h.1, h.2, fun count hlookup => by cases hlookup⟩
  | @next head cycle' hbefore hgoes hstep ih =>
    obtain ⟨queued, rest, hqueue, hround⟩ := round_takeUp store scheduler couplingSet hgoes
    exact ih.round (hunbroken queued _ ⟨head, rest, hbefore, hqueue, rfl⟩)
      (runActivation_rounds (hround.symm.trans hstep))

theorem ThreadHistory.Within.step {history : ThreadHistory σ} {call : ThreadCall σ}
    (h : history.Within store quota) (hunbroken : call.Unbroken store quota history) :
    (call.exec store history).2.Within store quota := by
  cases call with
  | append streamId records =>
    refine ⟨h.1, Nat.le_trans h.2 (runCount_mono ?_)⟩
    exact store.prefix_append streamId records history.store quota.control
  | runBatch scheduler couplingSet batch =>
    have hend : ∃ final, ((scheduler.over store).runBatch couplingSet batch history.store).2 = final ∧
        Bounded store quota history.attempts final := by
      rcases runBatch_cases store scheduler couplingSet batch history.store with
        ⟨receipt, final, hbatch, hhead, -⟩ | ⟨e, head, final, hbatch, hhead, hgoes, hfails⟩
      · exact ⟨final, by rw [hbatch], Bounded.head h hunbroken hhead⟩
      · obtain ⟨queued, rest, hqueue, hround⟩ := round_takeUp store scheduler couplingSet hgoes
        have hbounded := (Bounded.head h hunbroken hhead).round
          (hunbroken queued _ ⟨head, rest, hhead, hqueue, rfl⟩)
          (runActivation_rounds (hround.symm.trans hfails))
        exact ⟨final, by rw [hbatch], hbounded⟩
    obtain ⟨final, rfl, hbounded⟩ := hend
    exact ⟨hbounded.limited, hbounded.journaled⟩

/-- **The lifetime quota of a coupling on a thread holds** over a sequence of cycles, none of which
breaks off between an invocation under the quota and its receipt. -/
theorem thread_quota_holds (store : JournalStore σ) (quota : ThreadQuota) (calls : List (ThreadCall σ))
    (s : σ) (h : Along (ThreadCall.exec store) (fun history call => call.Unbroken store quota history)
      calls ⟨s, []⟩) :
    quota.invocations (run (ThreadCall.exec store) calls ⟨s, []⟩).attempts ≤ quota.limit := by
  have hbounded : (run (ThreadCall.exec store) calls ⟨s, []⟩).Within store quota :=
    h.invariant (fun _ _ hwithin hunbroken => hwithin.step hunbroken)
      ⟨Nat.zero_le _, Nat.zero_le _⟩
  exact hbounded.1

end

/-! ### Sample histories -/

/-- The quota of the sample coupling, of one run over the thread's lifetime. -/
def sampleQuota : ThreadQuota := ⟨sampleQueued.controlStream, "first", 1⟩

def sampleCycle (n firstDraw : Nat) (payload : Json) : ThreadCall (InMemoryState 0) :=
  .runBatch (sampleScheduler firstDraw ⟨⟨7⟩⟩ payload) sampleSet [sampleTrigger n]

/-- The executor answers a payload that is no object, twice: the second cycle does not count the
invocation of the first. -/
theorem broken_cycles_exceed_quota : ¬ sampleQuota.invocations
    (run (ThreadCall.exec (inMemoryStore 0)) [sampleCycle 0 10 .null, sampleCycle 1 20 .null]
      ⟨.empty, []⟩).attempts ≤ sampleQuota.limit := by
  decide

theorem unbroken_first : (sampleCycle 0 10 (.obj [])).Unbroken (inMemoryStore 0) sampleQuota
    ⟨.empty, []⟩ := by
  intro queued cycle htaken
  obtain ⟨rfl, rfl⟩ := takenUp_sample htaken
  constructor
  case counted =>
    intro _ _
    decide
  case sink =>
    intro _ admitted sourceCut sourceEvents discharges records hoffers _
    have hadmissible : Storable ((inMemoryStore 0).taken
        (sampleStart.takeUp sampleQueued []).store) records := storable_sample hoffers
    exact (inMemoryStore_serves 0).accepts (hoffers.admissible_iff.mpr hadmissible)
  case receipt =>
    intro _ admitted sourceCut sourceEvents answer _ exit settled hsettle
    exact (inMemoryStore_serves 0).accepts
      (admissible_receipt sampleQueued _ exit (fresh_sample hsettle))

/-- The second cycle counts the run of the first in the journal, and invokes nothing. -/
theorem unbroken_second : (sampleCycle 1 20 (.obj [])).Unbroken (inMemoryStore 0) sampleQuota
    ((sampleCycle 0 10 (.obj [])).exec (inMemoryStore 0) ⟨.empty, []⟩).2 := by
  intro queued cycle htaken
  obtain ⟨rfl, rfl⟩ : queued = queuedActivation "snapshot" .fromEvent 0 (sampleTrigger 1)
      (sampleCoupling "first" (some 1)) ∧ cycle = _ :=
    takenUp_only (by decide) (by decide) htaken
  constructor
  case counted =>
    intro _ _
    decide
  case sink =>
    intro _ admitted sourceCut sourceEvents discharges records hoffers
    exact absurd (hoffers.invokes.admits.within rfl) (by decide)
  case receipt =>
    intro _ admitted sourceCut sourceEvents answer hinvokes
    exact absurd (hinvokes.admits.within rfl) (by decide)

/-- Two cycles take the coupling up, and it runs once. -/
theorem thread_quota_holds_once : sampleQuota.invocations
    (run (ThreadCall.exec (inMemoryStore 0)) [sampleCycle 0 10 (.obj []), sampleCycle 1 20 (.obj [])]
      ⟨.empty, []⟩).attempts ≤ sampleQuota.limit :=
  thread_quota_holds (inMemoryStore 0) sampleQuota _ _ ⟨unbroken_first, unbroken_second, trivial⟩

end Verlet.Kernel
