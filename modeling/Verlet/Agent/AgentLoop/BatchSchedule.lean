import Mathlib.Logic.Relation
import Verlet.Agent.AgentLoop.World

/-!
# Agent — The agent loop — The schedule of a batch

`execute_tool_call_batch`: a call is launched once the calls that it waits for are completed, and the loop
ends once all are.  What an invocation does is any; the loop awaits its monitor.

* `conflicts_take_turns`: calls that conflict run one after the other, in the order of the batch.
* `global_runs_alone`: a call that needs the whole shares the batch with none.
* `batch_completes`: the loop does not block, and ends with an outcome of each call.
* `witnessed_as_planned`: the holds that requests witness give the schedule that was planned.
-/

namespace Verlet.Agent
open Function Support
open History (EventRecord EventRecordId)
open Kernel (ToolCallRequestedPayload)
open Kernel.Wire

inductive ToolCallMonitorOutcome where
  | settled (outcome : LoopResult PreparedToolCallOutcome)
  | abandoned

/-- What the scheduler knows of the calls, by their place in the batch. -/
structure BatchState where
  calls : Nat → Option WitnessedToolCall
  launched : Nat → Bool
  completed : Nat → Bool
  outcomes : Nat → Option (LoopResult PreparedToolCallOutcome)
  running : List Nat
  completedCount : Nat

/-- What a turn of the loop finds at its head: whether the turn of the agent is cancelled, and what a call
that is not launched draws. -/
structure BatchHead where
  cancelled : Bool
  finishOrder : Nat → Nat
  nowMs : Nat → Int

def cancelledToolCallOutcome (witness : WitnessedToolCall) (finishOrder : Nat)
    (cancellation : Kernel.ToolCallCancellation) (reason : String) (nowMs : Int) : PreparedToolCallOutcome :=
  .completed witness.toolCall.id witness.toolCall.name witness.snapshotId witness.argsFingerprint
    witness.requestEventId finishOrder (some cancellation)
    ⟨toolResultMessage witness.toolCall.id witness.toolCall.name reason true nowMs, [], [], 0⟩

namespace BatchState

def launch (s : BatchState) (index : Nat) : BatchState :=
  { s with launched := update s.launched index true }

def complete (s : BatchState) (index : Nat) (outcome : LoopResult PreparedToolCallOutcome) : BatchState :=
  { s with
    completed := update s.completed index true
    outcomes := update s.outcomes index (some outcome)
    completedCount := s.completedCount + 1 }

/-- What the monitor of a running call brings. -/
def settle (s : BatchState) (index : Nat) (outcome : ToolCallMonitorOutcome) : BatchState :=
  { s with running := s.running.erase index }.complete index
    (match outcome with
      | .settled outcome => outcome
      | .abandoned       => .ok .abandoned)

end BatchState

/-- What `execute_tool_call_batch` is given. -/
structure ToolBatch where
  witnesses : List WitnessedToolCall
  waitEdges : List (List Nat)

namespace ToolBatch

variable (batch : ToolBatch)

def start : BatchState := ⟨(batch.witnesses[·]?), fun _ => false, fun _ => false, fun _ => none, [], 0⟩

/-- A call that is not launched when the turn is cancelled. -/
def cancelUnlaunched (head : BatchHead) (s : BatchState) (index : Nat) : BatchState :=
  match batch.witnesses[index]? with
  | none         => s
  | some witness =>
    if s.launched index then s
    else (s.launch index).complete index (.ok (cancelledToolCallOutcome witness (head.finishOrder index)
      .cancelledAcknowledged "tool call was cancelled before its hold dependencies released"
      (head.nowMs index)))

/-- A call that is launched, if it is not and what it waits for is completed. -/
def launchReady (s : BatchState) (index : Nat) : BatchState :=
  if s.launched index || !((batch.waitEdges.getD index []).all s.completed) then s
  else
    match s.calls index with
    | none => (s.launch index).complete index
        (.error (.execution s!"tool batch scheduler lost call {index} before launch"))
    | some _ => { s.launch index with
        calls := update s.calls index none, running := s.running ++ [index] }

/-- A turn of the loop, up to where it awaits what runs. -/
def head (head : BatchHead) (s : BatchState) : BatchState :=
  let places := List.range batch.witnesses.length
  places.foldl batch.launchReady (if head.cancelled then places.foldl (batch.cancelUnlaunched head) s else s)

/-- The outcomes once the loop has ended. -/
def outcomes (s : BatchState) : List (LoopResult PreparedToolCallOutcome) :=
  (List.range batch.witnesses.length).map fun index =>
    (s.outcomes index).getD (.error (.execution s!"tool batch scheduler did not execute call {index}"))

/-- The outcomes where a monitor fails itself. -/
def failed (err : String) (s : BatchState) : List (LoopResult PreparedToolCallOutcome) :=
  batch.witnesses.mapIdx fun index witness =>
    let called := s!"{witness.toolCall.id}/{witness.toolCall.name}"
    if s.completed index then
      (s.outcomes index).getD
        (.error (.execution s!"tool batch scheduler lost the completed outcome for {called}"))
    else
      .error (.execution s!"tool invocation monitor failed for {called}: {err}")

/-- A turn after which the loop goes on: any running call may be the next that is settled. -/
inductive Step (s : BatchState) : BatchState → Prop
  | settle (head : BatchHead) {index : Nat} (outcome : ToolCallMonitorOutcome)
      (hmore : s.completedCount < batch.witnesses.length) (hrunning : index ∈ (batch.head head s).running) :
      Step s ((batch.head head s).settle index outcome)

/-- How the loop ends: the last state, and what is told of the calls. -/
inductive Ends (s : BatchState) : BatchState → List (LoopResult PreparedToolCallOutcome) → Prop
  | all (hall : batch.witnesses.length ≤ s.completedCount) : Ends s s (batch.outcomes s)
  | idle (head : BatchHead) (hmore : s.completedCount < batch.witnesses.length)
      (hidle : (batch.head head s).running = []) :
      Ends s (batch.head head s) (batch.outcomes (batch.head head s))
  | failed (head : BatchHead) (err : String) (hmore : s.completedCount < batch.witnesses.length)
      (hrunning : (batch.head head s).running ≠ []) :
      Ends s (batch.head head s) (batch.failed err (batch.head head s))

/-- The loop comes from its start to the state. -/
def Reaches : BatchState → Prop := Relation.ReflTransGen batch.Step batch.start

/-! ### What a turn keeps -/

/-- What runs is launched and not completed, and what it waits for is completed. -/
structure Scheduled (s : BatchState) : Prop where
  nodup : s.running.Nodup
  running : ∀ i, i ∈ s.running ↔ i < batch.witnesses.length ∧ s.launched i = true ∧ s.completed i = false
  waits : ∀ i ∈ s.running, ∀ dependency ∈ batch.waitEdges.getD i [], s.completed dependency = true
  calls : ∀ i < batch.witnesses.length, s.launched i = false → (s.calls i).isSome = true
  completed : ∀ i, s.completed i = true → i < batch.witnesses.length ∧ s.launched i = true
  outcomes : ∀ i, (s.outcomes i).isSome = s.completed i
  count : s.completedCount = ((List.range batch.witnesses.length).filter s.completed).length

/-- What is launched or completed stays so, with its outcome. -/
structure Later (s s' : BatchState) : Prop where
  launched : ∀ i, s.launched i = true → s'.launched i = true
  completed : ∀ i, s.completed i = true → s'.completed i = true ∧ s'.outcomes i = s.outcomes i
  count : s.completedCount ≤ s'.completedCount

variable {batch} {s s' s'' : BatchState} {index i j : Nat}

theorem Later.refl (s : BatchState) : Later s s := ⟨fun _ => id, fun _ h => ⟨h, rfl⟩, Nat.le_refl _⟩

theorem Later.trans (h : Later s s') (h' : Later s' s'') : Later s s'' where
  launched i hi := h'.launched i (h.launched i hi)
  completed i hi :=
    have hnext := h.completed i hi
    have hlast := h'.completed i hnext.1
    ⟨hlast.1, hlast.2.trans hnext.2⟩
  count := h.count.trans h'.count

theorem scheduled_start (batch : ToolBatch) : batch.Scheduled batch.start where
  nodup := List.nodup_nil
  running i := by simp [start]
  waits i hi := absurd hi List.not_mem_nil
  calls i hi _ := by simpa [start] using hi
  completed i hi := absurd hi Bool.false_ne_true
  outcomes i := rfl
  count := by simp [start]

theorem update_true_iff {p : Nat → Bool} : update p index true i = true ↔ i = index ∨ p i = true := by
  by_cases hi : i = index <;> simp [hi]

theorem length_filter_update {p : Nat → Bool} {n : Nat} (hindex : index < n) (hp : p index = false) :
    ((List.range n).filter (update p index true)).length = ((List.range n).filter p).length + 1 := by
  induction n with
  | zero => exact absurd hindex (Nat.not_lt_zero index)
  | succ n ih =>
    rw [List.range_succ, List.filter_append, List.filter_append, List.length_append, List.length_append]
    rcases Nat.lt_succ_iff_lt_or_eq.mp hindex with hlt | rfl
    · rw [ih hlt, List.filter_singleton, List.filter_singleton, update_of_ne hlt.ne']
      omega
    · have hbelow : (List.range index).filter (update p index true) = (List.range index).filter p :=
        List.filter_congr fun i hi => update_of_ne (List.mem_range.mp hi).ne _ _
      simp [hbelow, hp]

namespace Scheduled

variable (h : batch.Scheduled s)

include h

/-- **A call that is completed**, whether it was running or not launched. -/
theorem complete (hindex : index < batch.witnesses.length) (hopen : s.completed index = false)
    (outcome : LoopResult PreparedToolCallOutcome) :
    batch.Scheduled (({ s with running := s.running.erase index }.launch index).complete index outcome) ∧
      Later s (({ s with running := s.running.erase index }.launch index).complete index outcome) := by
  refine ⟨⟨h.nodup.erase _, fun i => ?_, fun i hi dependency hd => ?_, fun i hi hlaunched => ?_,
    fun i hi => ?_, fun i => ?_, ?_⟩, ⟨fun i hi => update_true_iff.mpr (.inr hi),
    fun i hi => ⟨update_true_iff.mpr (.inr hi), update_of_ne ?_ _ _⟩, Nat.le_succ _⟩⟩
  · change i ∈ s.running.erase index ↔ _ ∧ update s.launched index true i = true ∧
      update s.completed index true i = false
    rw [h.nodup.mem_erase_iff, h.running]
    by_cases hi : i = index <;> simp [hi]
  · exact update_true_iff.mpr (.inr (h.waits i (List.mem_of_mem_erase hi) dependency hd))
  · change update s.launched index true i = false at hlaunched
    by_cases hi' : i = index
    · simp [hi'] at hlaunched
    · exact h.calls i hi (by simpa [hi'] using hlaunched)
  · rcases update_true_iff.mp hi with rfl | hi
    · exact ⟨hindex, update_true_iff.mpr (.inl rfl)⟩
    · exact ⟨(h.completed i hi).1, update_true_iff.mpr (.inr (h.completed i hi).2)⟩
  · change (update s.outcomes index (some outcome) i).isSome = update s.completed index true i
    by_cases hi : i = index
    · simp [hi]
    · simpa [hi] using h.outcomes i
  · change s.completedCount + 1 = ((List.range _).filter (update s.completed index true)).length
    rw [length_filter_update hindex hopen, h.count]
  · rintro rfl
    cases hopen.symm.trans hi

theorem not_completed (hidle : s.launched index = false) : s.completed index = false := by
  by_contra hdone
  cases hidle.symm.trans (h.completed index (Bool.eq_true_of_not_eq_false hdone)).2

theorem notMem_running (hidle : s.launched index = false) : index ∉ s.running := fun hrunning => by
  cases hidle.symm.trans ((h.running index).mp hrunning).2.1

theorem cancelUnlaunched (head : BatchHead) :
    batch.Scheduled (batch.cancelUnlaunched head s index) ∧
      Later s (batch.cancelUnlaunched head s index) := by
  unfold ToolBatch.cancelUnlaunched
  split
  · exact ⟨h, .refl s⟩
  · next witness hwitness =>
    split
    · exact ⟨h, .refl s⟩
    · next hlaunched =>
      have hidle := Bool.eq_false_of_not_eq_true hlaunched
      have hstep := h.complete (List.getElem?_eq_some_iff.mp hwitness).1 (h.not_completed hidle)
      simp only [List.erase_of_not_mem (h.notMem_running hidle)] at hstep
      exact hstep _

/-- **A call that may be launched**: where what it waits for is completed it is, and the rest stays. -/
theorem launchReady (hindex : index < batch.witnesses.length) :
    batch.Scheduled (batch.launchReady s index) ∧ Later s (batch.launchReady s index) ∧
      (batch.launchReady s index).completed = s.completed ∧
      ((∀ dependency ∈ batch.waitEdges.getD index [], s.completed dependency = true) →
        (batch.launchReady s index).launched index = true) := by
  unfold ToolBatch.launchReady
  split
  · next hkept =>
    refine ⟨h, .refl s, rfl, fun hready => ?_⟩
    rw [List.all_eq_true.mpr hready, Bool.not_true, Bool.or_false] at hkept
    exact hkept
  · next hready =>
    rw [Bool.or_eq_true, Bool.not_eq_true', not_or, Bool.not_eq_true, Bool.not_eq_false, List.all_eq_true]
      at hready
    obtain ⟨hidle, hready⟩ := hready
    have hnew := h.notMem_running hidle
    obtain ⟨call, hcall⟩ := Option.isSome_iff_exists.mp (h.calls index hindex hidle)
    simp only [hcall]
    refine ⟨⟨?_, fun i => ?_, fun i hi => ?_, fun i hi hlaunched => ?_, fun i hi => ?_, h.outcomes, h.count⟩,
      ⟨fun i hi => update_true_iff.mpr (.inr hi), fun _ hi => ⟨hi, rfl⟩, Nat.le_refl _⟩, rfl,
      fun _ => update_true_iff.mpr (.inl rfl)⟩
    · refine List.nodup_append.mpr ⟨h.nodup, List.nodup_singleton index, fun i hi place hplace => ?_⟩
      rintro rfl
      exact hnew (List.mem_singleton.mp hplace ▸ hi)
    · change i ∈ s.running ++ [index] ↔ _ ∧ update s.launched index true i = true ∧ s.completed i = false
      rw [List.mem_append, List.mem_singleton, h.running]
      by_cases hi : i = index
      · simp [hi, hindex, h.not_completed hidle]
      · simp [hi]
    · rcases List.mem_append.mp hi with hi | hi
      · exact h.waits i hi
      · exact List.mem_singleton.mp hi ▸ hready
    · change update s.launched index true i = false at hlaunched
      change (update s.calls index none i).isSome = true
      by_cases hi' : i = index
      · simp [hi'] at hlaunched
      · simpa [hi'] using h.calls i hi (by simpa [hi'] using hlaunched)
    · exact ⟨(h.completed i hi).1, update_true_iff.mpr (.inr (h.completed i hi).2)⟩

omit h in
/-- **The launches of a turn**: nothing is completed, and what is ready runs. -/
theorem launches {places : List Nat} (h : batch.Scheduled s)
    (hplaces : ∀ i ∈ places, i < batch.witnesses.length) :
    batch.Scheduled (places.foldl batch.launchReady s) ∧ Later s (places.foldl batch.launchReady s) ∧
      (places.foldl batch.launchReady s).completed = s.completed ∧
      ∀ i ∈ places, (∀ dependency ∈ batch.waitEdges.getD i [], s.completed dependency = true) →
        (places.foldl batch.launchReady s).launched i = true := by
  induction places generalizing s with
  | nil => exact ⟨h, .refl s, rfl, fun i hi => absurd hi List.not_mem_nil⟩
  | cons place places ih =>
    obtain ⟨hfirst, hlater, hsame, hlaunched⟩ := h.launchReady (hplaces place List.mem_cons_self)
    obtain ⟨hall, hlater', hsame', hlaunched'⟩ := ih hfirst fun i hi => hplaces i (List.mem_cons_of_mem _ hi)
    refine ⟨hall, hlater.trans hlater', hsame'.trans hsame, fun i hi hready => ?_⟩
    rcases List.mem_cons.mp hi with rfl | hi
    · exact hlater'.launched i (hlaunched hready)
    · exact hlaunched' i hi (hsame ▸ hready)

/-- **The head of a turn** leaves launched whatever is ready. -/
theorem head (head : BatchHead) :
    batch.Scheduled (batch.head head s) ∧ Later s (batch.head head s) ∧
      ∀ i < batch.witnesses.length,
        (∀ dependency ∈ batch.waitEdges.getD i [], (batch.head head s).completed dependency = true) →
        (batch.head head s).launched i = true := by
  have hplaces : ∀ i ∈ List.range batch.witnesses.length, i < batch.witnesses.length := fun i =>
    List.mem_range.mp
  unfold ToolBatch.head
  obtain ⟨hs, hlater⟩ : batch.Scheduled (if head.cancelled then
      (List.range batch.witnesses.length).foldl (batch.cancelUnlaunched head) s else s) ∧
      Later s (if head.cancelled then
        (List.range batch.witnesses.length).foldl (batch.cancelUnlaunched head) s else s) := by
    split
    · exact List.foldlRecOn (motive := fun t => batch.Scheduled t ∧ Later s t) _ _ ⟨h, .refl s⟩
        fun _ hs _ _ => ⟨(hs.1.cancelUnlaunched head).1, hs.2.trans (hs.1.cancelUnlaunched head).2⟩
    · exact ⟨h, .refl s⟩
  obtain ⟨hall, hlater', hsame, hlaunched⟩ := hs.launches hplaces
  exact ⟨hall, hlater.trans hlater', fun i hi hready => hlaunched i (List.mem_range.mpr hi) (hsame ▸ hready)⟩

/-- **A monitor that is settled** completes its call. -/
theorem settle (hrunning : index ∈ s.running) (outcome : ToolCallMonitorOutcome) :
    batch.Scheduled (s.settle index outcome) ∧ Later s (s.settle index outcome) := by
  obtain ⟨hindex, hlaunched, hopen⟩ := (h.running index).mp hrunning
  have hsame : update s.launched index true = s.launched := by rw [← hlaunched, update_eq_self]
  have hstep := h.complete hindex hopen
  simp only [BatchState.launch, hsame] at hstep
  exact hstep _

theorem count_le : s.completedCount ≤ batch.witnesses.length := by
  rw [h.count]
  exact (List.length_filter_le _ _).trans_eq List.length_range

theorem completed_of_count (hall : batch.witnesses.length ≤ s.completedCount)
    (hindex : index < batch.witnesses.length) : s.completed index = true := by
  have hfilter : (List.range batch.witnesses.length).filter s.completed = List.range batch.witnesses.length :=
    List.filter_sublist.eq_of_length_le (by rw [List.length_range, ← h.count]; exact hall)
  exact (List.mem_filter.mp (hfilter ▸ List.mem_range.mpr hindex : index ∈ _)).2

end Scheduled

theorem Reaches.scheduled (h : batch.Reaches s) : batch.Scheduled s := by
  induction h with
  | refl => exact scheduled_start batch
  | tail _ hstep ih =>
    obtain ⟨head, outcome, -, hrunning⟩ := hstep
    exact ((ih.head head).1.settle hrunning outcome).1

/-! ### The schedule of the holds -/

/-- The batch as `prepare_tool_results` runs it, by the holds that were witnessed. -/
def ofHolds (witnesses : List WitnessedToolCall) : ToolBatch :=
  ⟨witnesses, batchWaitEdges (witnesses.map (·.holds))⟩

variable {witnesses : List WitnessedToolCall}

/-- What two calls hold conflicts, in the order of the batch. -/
def Conflict (holds : List (List ToolHold)) (i j : Nat) : Prop :=
  i < j ∧ ∃ earlier later, holds[i]? = some earlier ∧ holds[j]? = some later ∧
    holdsConflict earlier later = true

theorem mem_batchWaitEdges {holds : List (List ToolHold)} :
    i ∈ (batchWaitEdges holds).getD j [] ↔ Conflict holds i j := by
  rw [List.getD_eq_getElem?_getD, batchWaitEdges, Conflict, List.getElem?_map, List.getElem?_zipIdx]
  cases hlater : holds[j]? with
  | none => simp
  | some later => cases hearlier : holds[i]? <;> simp [hearlier]

theorem Scheduled.waited (h : batch.Scheduled s) (hwait : i ∈ batch.waitEdges.getD j [])
    (hrunning : j ∈ s.running) : s.completed i = true ∧ i ∉ s.running := by
  have hdone := h.waits j hrunning i hwait
  exact ⟨hdone, fun hi => by cases hdone.symm.trans ((h.running i).mp hi).2.2⟩

/-- **Calls that conflict take turns.**  Whatever finishes first, fails or is cancelled: while the later of two
calls that conflict runs, the earlier one is completed, so they are never in flight at once. -/
theorem conflicts_take_turns (h : (ofHolds witnesses).Reaches s) (head : BatchHead)
    (hconflict : Conflict (witnesses.map (·.holds)) i j)
    (hrunning : j ∈ ((ofHolds witnesses).head head s).running) :
    ((ofHolds witnesses).head head s).completed i = true ∧
      i ∉ ((ofHolds witnesses).head head s).running :=
  (h.scheduled.head head).1.waited (mem_batchWaitEdges.mpr hconflict) hrunning

/-- A call of a shell after one that needs the whole. -/
def sampleBatch : List WitnessedToolCall :=
  ["edit", "bash"].map fun name =>
    ⟨⟨name, name, .null⟩, "unbound", none, ⟨⟨0⟩⟩, deriveToolHolds name .null, .reexecute, none, false⟩

def sampleHead : BatchHead := ⟨false, fun _ => 0, fun _ => 0⟩

theorem sampleBatch_takes_turns :
    let s := ((ofHolds sampleBatch).head sampleHead (ofHolds sampleBatch).start).settle 0 .abandoned
    ((ofHolds sampleBatch).head sampleHead s).completed 0 = true ∧
      0 ∉ ((ofHolds sampleBatch).head sampleHead s).running :=
  @conflicts_take_turns _ 0 1 sampleBatch (.single (.settle sampleHead .abandoned (by decide) (by decide)))
    sampleHead ⟨by decide, _, _, rfl, rfl, by decide⟩ (by decide)

/-- Whatever a call is derived to hold, it holds the whole. -/
theorem global_mem_deriveToolHolds (toolName : String) (arguments : Json) :
    ∃ hold ∈ deriveToolHolds toolName arguments, hold.key = .global := by
  have hfloor (holds : List ToolHold) : ∃ hold ∈ withGlobalFloor holds, hold.key = .global := by
    unfold withGlobalFloor
    split
    · next hany => simpa using hany
    · exact ⟨⟨.global, .shared⟩, by simp, rfl⟩
  unfold deriveToolHolds
  split_ifs
  · exact hfloor _
  · split
    · exact hfloor _
    · exact ⟨_, List.mem_singleton_self _, rfl⟩
  · split
    · exact hfloor _
    · exact ⟨_, List.mem_singleton_self _, rfl⟩
  all_goals exact ⟨_, List.mem_singleton_self _, rfl⟩

theorem holdsConflict_of_global {holds holds' : List ToolHold} {hold hold' : ToolHold} (hhold : hold ∈ holds)
    (hhold' : hold' ∈ holds') (hglobal : hold.key = .global) (hglobal' : hold'.key = .global)
    (hexclusive : hold.access = .exclusive ∨ hold'.access = .exclusive) : holdsConflict holds holds' = true :=
  List.any_eq_true.mpr ⟨hold, hhold, List.any_eq_true.mpr
    ⟨hold', hhold', decide_eq_true ⟨hglobal.trans hglobal'.symm, hexclusive⟩⟩⟩

/-- **A call that needs the whole runs alone**, once the witnessed schedule has been found to be the planned one:
no other call of the batch is in flight with it. -/
theorem global_runs_alone (h : (ofHolds witnesses).Reaches s) (head : BatchHead) {call : WitnessedToolCall}
    (hplanned : planToolCallBatch (witnesses.map (·.toolCall)) = batchWaitEdges (witnesses.map (·.holds)))
    (hcall : witnesses[i]? = some call)
    (hglobal : ⟨.global, .exclusive⟩ ∈ deriveToolHolds call.toolCall.name call.toolCall.arguments)
    (hrunning : i ∈ ((ofHolds witnesses).head head s).running) :
    ((ofHolds witnesses).head head s).running = [i] := by
  have hs := (h.scheduled.head head).1
  have hderived {place : Nat} {other : WitnessedToolCall} (hother : witnesses[place]? = some other) :
      ((witnesses.map (·.toolCall)).map fun call => deriveToolHolds call.name call.arguments)[place]? =
        some (deriveToolHolds other.toolCall.name other.toolCall.arguments) := by
    simp [hother]
  have hwaits {place later : Nat} (hlater : later ∈ ((ofHolds witnesses).head head s).running)
      (hplace : place ∈ ((ofHolds witnesses).head head s).running)
      (hconflict : Conflict
        ((witnesses.map (·.toolCall)).map fun call => deriveToolHolds call.name call.arguments) place later) :
      False := by
    refine (hs.waited ?_ hlater).2 hplace
    rw [ofHolds, ← hplanned]
    exact mem_batchWaitEdges.mpr hconflict
  refine List.Perm.eq_singleton ((List.perm_ext_iff_of_nodup hs.nodup (List.nodup_singleton i)).mpr
    fun j => ⟨fun hj => List.mem_singleton.mpr ?_, fun hj => List.mem_singleton.mp hj ▸ hrunning⟩)
  obtain ⟨other, hother⟩ : ∃ other, witnesses[j]? = some other :=
    ⟨_, List.getElem?_eq_getElem ((hs.running j).mp hj).1⟩
  obtain ⟨hold, hhold, hkey⟩ := global_mem_deriveToolHolds other.toolCall.name other.toolCall.arguments
  rcases Nat.lt_trichotomy i j with hlt | rfl | hlt
  · exact (hwaits hj hrunning ⟨hlt, _, _, hderived hcall, hderived hother,
      holdsConflict_of_global hglobal hhold rfl hkey (.inl rfl)⟩).elim
  · rfl
  · exact (hwaits hrunning hj ⟨hlt, _, _, hderived hother, hderived hcall,
      holdsConflict_of_global hhold hglobal hkey rfl (.inr rfl)⟩).elim

theorem sampleBatch_edits_alone :
    ((ofHolds sampleBatch).head sampleHead (ofHolds sampleBatch).start).running = [0] :=
  global_runs_alone .refl sampleHead rfl rfl (List.mem_singleton_self _) (by decide)

/-- **The loop does not block**: a call waits for earlier ones only, so one runs until all are completed. -/
theorem Scheduled.completed_of_idle (h : (ofHolds witnesses).Scheduled s) (head : BatchHead)
    (hidle : ((ofHolds witnesses).head head s).running = []) (hindex : index < witnesses.length) :
    ((ofHolds witnesses).head head s).completed index = true := by
  obtain ⟨hs, -, hlaunched⟩ := h.head head
  induction index using Nat.strong_induction_on with
  | _ index ih =>
    have hready := hlaunched index hindex fun dependency hdependency =>
      have hlt := (mem_batchWaitEdges.mp hdependency).1
      ih dependency hlt (hlt.trans hindex)
    by_contra hopen
    have hrunning := (hs.running index).mpr ⟨hindex, hready, Bool.eq_false_of_not_eq_true hopen⟩
    rw [hidle] at hrunning
    exact absurd hrunning List.not_mem_nil

theorem outcomes_getElem? (h : batch.Scheduled s) (hdone : s.completed index = true) :
    (batch.outcomes s)[index]? = s.outcomes index := by
  obtain ⟨outcome, houtcome⟩ := Option.isSome_iff_exists.mp ((h.outcomes index).trans hdone)
  simp [ToolBatch.outcomes, (h.completed index hdone).1, houtcome]

theorem failed_getElem? (h : batch.Scheduled s) (err : String) (hdone : s.completed index = true) :
    (batch.failed err s)[index]? = s.outcomes index := by
  obtain ⟨outcome, houtcome⟩ := Option.isSome_iff_exists.mp ((h.outcomes index).trans hdone)
  simp [ToolBatch.failed, (h.completed index hdone).1, hdone, houtcome]

/-- **A batch comes to its end.**  Every turn of the loop completes a call more and keeps what came of the others.
Where it ends, what is told of each completed call is what came of it, and all are completed unless a monitor
failed itself. -/
theorem batch_completes (h : (ofHolds witnesses).Reaches s) :
    (∀ s', (ofHolds witnesses).Step s s' →
      s.completedCount < s'.completedCount ∧ s'.completedCount ≤ witnesses.length ∧ Later s s') ∧
    ∀ s' outcomes, (ofHolds witnesses).Ends s s' outcomes →
      outcomes.length = witnesses.length ∧ Later s s' ∧
      (∀ i, s'.completed i = true → outcomes[i]? = s'.outcomes i) ∧
      ((∀ i < witnesses.length, s'.completed i = true) ∨
        ∃ err, outcomes = (ofHolds witnesses).failed err s') := by
  have hs := h.scheduled
  refine ⟨fun s' hstep => ?_, fun s' outcomes hends => ?_⟩
  · have hnext := Reaches.scheduled (Relation.ReflTransGen.tail h hstep)
    obtain ⟨head, outcome, -, hrunning⟩ := hstep
    obtain ⟨hhead, hlater, -⟩ := hs.head head
    exact ⟨Nat.lt_succ_of_le hlater.count, hnext.count_le, hlater.trans (hhead.settle hrunning outcome).2⟩
  · cases hends with
    | all hall =>
      exact ⟨by simp [ToolBatch.outcomes, ofHolds], .refl s, fun i => outcomes_getElem? hs,
        .inl fun i => hs.completed_of_count hall⟩
    | idle head hmore hidle =>
      obtain ⟨hhead, hlater, -⟩ := hs.head head
      exact ⟨by simp [ToolBatch.outcomes, ofHolds], hlater, fun i => outcomes_getElem? hhead,
        .inl fun i => hs.completed_of_idle head hidle⟩
    | failed head err hmore hrunning =>
      obtain ⟨hhead, hlater, -⟩ := hs.head head
      exact ⟨by simp [ToolBatch.failed, ofHolds], hlater, fun i => failed_getElem? hhead err, .inr ⟨err, rfl⟩⟩

theorem sampleBatch_completes :
    (∀ s', (ofHolds sampleBatch).Step (ofHolds sampleBatch).start s' →
      (ofHolds sampleBatch).start.completedCount < s'.completedCount ∧
        s'.completedCount ≤ sampleBatch.length ∧ Later (ofHolds sampleBatch).start s') ∧
    ∀ s' outcomes, (ofHolds sampleBatch).Ends (ofHolds sampleBatch).start s' outcomes →
      outcomes.length = sampleBatch.length ∧ Later (ofHolds sampleBatch).start s' ∧
      (∀ i, s'.completed i = true → outcomes[i]? = s'.outcomes i) ∧
      ((∀ i < sampleBatch.length, s'.completed i = true) ∨
        ∃ err, outcomes = (ofHolds sampleBatch).failed err s') :=
  batch_completes .refl

end ToolBatch

/-! ### The schedule that was witnessed -/

namespace Wire

theorem reads_toolHoldKey : Reads toolHoldKey.toValue toolHoldKey.fromValue := by
  refine ⟨fun key => ?_, fun key => by cases key <;> simp [toolHoldKey, object]⟩
  cases key <;> rfl

theorem reads_toolHoldAccess : Reads toolHoldAccess.toValue toolHoldAccess.fromValue := by
  refine ⟨fun access => ?_, fun access => by cases access <;> simp [toolHoldAccess]⟩
  cases access <;> rfl

theorem reads_toolHold : Reads toolHold.toValue toolHold.fromValue := by
  refine ⟨fun hold => ?_, fun _ => by simp [toolHold, object]⟩
  exact bind_ok.mpr ⟨_, rfl, reads_toolHoldKey.required (by simp [get?_object]) <|
    reads_toolHoldAccess.required (by simp [get?_object]) rfl⟩

theorem reads_toolSubject : Reads toolSubject.toValue toolSubject.fromValue := by
  refine ⟨fun s => ?_, fun _ => by simp [toolSubject, object]⟩
  exact bind_ok.mpr ⟨_, rfl, reads_text.required (by simp [get?_object]) <|
    reads_text.required (by simp [get?_object]) rfl⟩

end Wire

namespace ToolBatch

/-- A request is read back, and the tool under its second key with it. -/
theorem requested_toolRequestValue (payload : ToolCallRequestedPayload) (hholds : payload.holds ≠ []) :
    loopCodec.toolCallRequested.fromValue (toolRequestValue payload) = .ok payload ∧
      ((toolRequestValue payload).asObject.bind fun fields => Json.get? fields "holds") =
        some (.arr payload.holds) := by
  have hfields : payload.holds.isEmpty = false := List.isEmpty_eq_false_iff.mpr hholds
  have hback : payload.holds.mapM (.ok : Json → Except String Json) = .ok payload.holds :=
    (mapM_ok_map fun _ _ => rfl).trans (congrArg _ (List.map_id _))
  refine ⟨?_, ?_⟩
  · refine bind_ok.mpr ⟨_, rfl, Wire.reads_toolSubject.required ?_ <| reads_text.required ?_ <|
      reads_text.required ?_ <|
      bind_ok.mpr ⟨payload.arguments, by simp [required, get?_object, hfields],
      reads_eventId.option ?_ <| reads_text.option ?_ <|
      bind_ok.mpr ⟨some payload.holds, by
        simpa [option, list, get?_object, hfields] using congrArg (some <$> ·) hback, rfl⟩⟩⟩
    all_goals simp [get?_object, hfields]
  · change Json.get? (Json.insertField "tool" _ (Json.object _)) "holds" = _
    simp [get?_object, hfields]

theorem deriveToolHolds_ne_nil (toolName : String) (arguments : Json) :
    deriveToolHolds toolName arguments ≠ [] := by
  obtain ⟨hold, hhold, -⟩ := global_mem_deriveToolHolds toolName arguments
  exact List.ne_nil_of_mem hhold

variable {φ : Type} (setup : LoopSetup φ)

/-- The call, with what its own request witnesses. -/
def witnessed (snapshotId : String) (call : ProviderToolCall) (requestEventId : EventRecordId) :
    WitnessedToolCall :=
  ⟨call, snapshotId, some (argsFingerprint setup call.name call.arguments), requestEventId,
    deriveToolHolds call.name call.arguments, .reexecute, none, false⟩

theorem witnessToolCall_requested {turnId snapshotId : String} {attachEventId : Option EventRecordId}
    {call : ProviderToolCall} {event : EventRecord}
    (hpayload : event.payload =
      toolRequestValue (toolRequestPayload setup turnId snapshotId attachEventId call)) :
    witnessToolCall snapshotId call event = .ok (witnessed setup snapshotId call event.id) := by
  have hholds : (toolRequestPayload setup turnId snapshotId attachEventId call).holds ≠ [] := by
    simpa [toolRequestPayload] using deriveToolHolds_ne_nil call.name call.arguments
  obtain ⟨hread, hfield⟩ := requested_toolRequestValue _ hholds
  have hdecoded : decodeWitnessedToolHolds event = .ok (deriveToolHolds call.name call.arguments) := by
    have hlist := (reads_list Wire.reads_toolHold).back (deriveToolHolds call.name call.arguments)
    rw [decodeWitnessedToolHolds, hpayload, hfield]
    simp only [toolRequestPayload, hlist]
  rw [witnessToolCall, hdecoded, decodeLoop, Kernel.decodeOr, hpayload, hread]
  rfl

/-- **The schedule that is witnessed is the one that was planned**: where the events of the requests hold what was
appended of them, every call is witnessed as it is, and the calls wait for the same ones. -/
theorem witnessed_as_planned {turnId snapshotId : String} (attach : ProviderToolCall → Option EventRecordId)
    (requests : List (ProviderToolCall × EventRecord))
    (hpayloads : ∀ request ∈ requests, request.2.payload =
      toolRequestValue (toolRequestPayload setup turnId snapshotId (attach request.1) request.1)) :
    ∃ witnesses, (requests.mapM fun (call, requestEvent) => witnessToolCall snapshotId call requestEvent) =
        .ok witnesses ∧
      witnesses.map (·.toolCall) = requests.map (·.1) ∧
      batchWaitEdges (witnesses.map (·.holds)) = planToolCallBatch (requests.map (·.1)) := by
  refine ⟨requests.map fun request => witnessed setup snapshotId request.1 request.2.id,
    mapM_ok_map fun request hrequest => witnessToolCall_requested setup (hpayloads request hrequest), ?_, ?_⟩
  · rw [List.map_map]
    rfl
  · rw [planToolCallBatch, List.map_map, List.map_map]
    rfl

def sampleRequests : List (ProviderToolCall × EventRecord) :=
  sampleBatch.map fun witness => (witness.toolCall, .fromNew (.forThread (sampleCoordinates 2)) 1
    (toolRequestRecord (sampleCoordinates 2)
      (toolRequestPayload sampleSetup "turn" "unbound" none witness.toolCall)
      ⟨sampleUuid 1⟩ (sampleDraw 2)))

theorem sampleRequests_as_planned :
    ∃ witnesses, (sampleRequests.mapM fun (call, requestEvent) => witnessToolCall "unbound" call requestEvent) =
        .ok witnesses ∧
      witnesses.map (·.toolCall) = sampleRequests.map (·.1) ∧
      batchWaitEdges (witnesses.map (·.holds)) = planToolCallBatch (sampleRequests.map (·.1)) :=
  @witnessed_as_planned _ sampleSetup "turn" "unbound" (fun _ => none) sampleRequests fun request hrequest => by
    obtain ⟨witness, -, rfl⟩ := List.mem_map.mp hrequest
    rfl

end ToolBatch
end Verlet.Agent
