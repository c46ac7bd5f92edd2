import Verlet.Agent.AgentLoop.World

/-!
# Agent — The agent loop — Quiet calls

Which programs of a turn make only quiet calls: all that assemble a request, run and record a batch of
tool calls, or look for what was recorded.  What is left are the few that say how the turn ended.
-/

namespace Verlet.Agent
open Support Kernel History
open Proc (Makes)
open LoopM

variable {φ : Type} {setup : LoopSetup φ} {runtime : AgentLoop φ} {turn : AgentTurn}
  {coordinates : ThreadCoordinates} {turnId : String} {fuel : Nat} {P : LoopCall → Prop}

/-! ### The pieces of a program -/

/-- The call appends nothing to a stream, and is no request to the provider. -/
def isPlain : LoopCall → Bool
  | .appendEvents .. | .appendEventsFenced .. | .executeProviderRequest _ => false
  | _ => true

variable {call : LoopCall}

/-- A plain call is quiet. -/
theorem QuietCall.of_plain (h : isPlain call) : QuietCall call := by
  cases call with
  | appendEvents streamId records => cases h
  | appendEventsFenced streamId expected records => cases h
  | executeProviderRequest request => cases h
  | _ => exact ⟨trivial, fun _ h => nomatch h⟩

variable {streamId : EventStreamId} {records : List NewEventRecord}

/-- An append is quiet that says nothing of how the turn ended. -/
theorem QuietCall.append (h : ∀ record ∈ records, isMarkKind record.kind = false) :
    QuietCall (.appendEvents streamId records) := ⟨h, fun _ h => nomatch h⟩

theorem QuietCall.fenced {expected : EventSequence}
    (h : ∀ record ∈ records, isMarkKind record.kind = false) :
    QuietCall (.appendEventsFenced streamId expected records) := ⟨h, fun _ h => nomatch h⟩

theorem makes_ask (h : P call) : Makes P (ask call) := .await h

variable {α : Type}

theorem makes_given {result : LoopResult α} : Makes P (given result) := .settle

theorem makes_fail {error : LoopError} : Makes P (fail error : LoopM α) := .throw

/-- To look at how a program failed takes no call. -/
theorem makes_attempt {p : LoopM α} (h : Makes P p) : Makes P (attempt p) := by
  refine Proc.Only.bind h fun result => ?_
  rcases result with (error | _) | a <;> exact trivial

theorem makes_map {β : Type} {p : LoopM α} {f : α → β} (h : Makes P p) : Makes P (f <$> p) := by
  rw [map_eq_pure_bind]
  exact .bind h fun _ => .pure

/-- **A plain call**, on its own. -/
theorem makes_plain (h : isPlain call) : Makes QuietCall (ask call) :=
  makes_ask (.of_plain h)

theorem makes_readLoopEvents {after : Option EventSequence} :
    Makes QuietCall (readLoopEvents streamId after) :=
  .bind (makes_plain rfl) fun _ => makes_given

/-- One event is appended, and the couplings run. -/
theorem makes_appendLoopEvent {record : NewEventRecord} (h : isMarkKind record.kind = false) :
    Makes QuietCall (appendLoopEvent streamId record) := by
  refine .bind (makes_ask (.append fun r hr => List.mem_singleton.mp hr ▸ h)) fun answer => ?_
  refine .bind makes_given fun found => ?_
  cases found with
  | nil => exact makes_fail
  | cons appended rest => exact .bind (makes_plain rfl) fun _ => .bind makes_given fun _ => .pure

theorem makes_appendThreadEvents (h : ∀ record ∈ records, isMarkKind record.kind = false) :
    Makes QuietCall (appendThreadEvents coordinates records) := by
  refine .bind (makes_ask (.append h)) fun answer => .bind makes_given fun found => ?_
  split
  · exact makes_fail
  · exact .bind (makes_plain rfl) fun _ => .bind makes_given fun _ => .pure

/-! ### Entries and hooks -/

theorem makes_appendAgentLoopSessionEntry {kind : SessionEntryKind}
    {sourceEventIds : List EventRecordId} :
    Makes QuietCall (appendAgentLoopSessionEntry coordinates kind sourceEventIds) := by
  rw [appendAgentLoopSessionEntry]
  split
  · exact makes_fail
  · exact .bind (makes_plain rfl) fun _ => makes_given

/-- Each context of a hook is an entry, unless it is blank. -/
theorem makes_appendHookContexts (contexts : List String) :
    Makes QuietCall (appendHookContexts coordinates contexts) := by
  induction contexts with
  | nil => exact .pure
  | cons context contexts ih =>
    rw [appendHookContexts]
    split
    · exact .bind (makes_plain rfl) fun _ => .bind (makes_plain rfl) fun _ =>
      .bind makes_given fun _ => ih
    · exact ih

theorem makes_appendHookMutationWitnesses (witnesses : List HookMutationWitness) :
    Makes QuietCall (appendHookMutationWitnesses coordinates witnesses) := by
  induction witnesses with
  | nil => exact .pure
  | cons witness witnesses ih =>
    exact .bind (makes_plain rfl) fun _ => .bind makes_given fun _ => ih

/-- The hooks of a prompt leave their witnesses and their contexts. -/
theorem makes_runPromptHooks : Makes QuietCall (runPromptHooks runtime turn) := by
  rw [runPromptHooks]
  split
  · exact .pure
  · exact .bind (makes_plain rfl) fun _ => .bind (makes_appendHookMutationWitnesses _) fun _ =>
    .bind (makes_appendHookContexts _) fun _ => .pure

theorem makes_runStopHooks {lastAssistantMessage : Option String} :
    Makes QuietCall (runStopHooks runtime turn lastAssistantMessage) := by
  rw [runStopHooks]
  split
  · exact .pure
  · exact .bind (makes_plain rfl) fun _ => .bind (makes_appendHookMutationWitnesses _) fun _ =>
    makes_appendHookContexts _

/-! ### The journal -/

theorem makes_activeManifestBindReceipt :
    Makes QuietCall (activeManifestBindReceipt setup coordinates) := by
  refine .bind makes_readLoopEvents fun events => .bind makes_given fun _ => ?_
  split
  · exact .pure
  · exact .bind makes_given fun _ => .pure

theorem makes_decideLoopToolCall {request : ToolDecisionRequest} :
    Makes QuietCall (decideLoopToolCall request) :=
  .bind makes_readLoopEvents fun _ => .pure

variable {snapshotId : String}

/-- The result of a call is looked for in the stream and in the context. -/
theorem makes_existingToolResultMessage {sourceEventId : EventRecordId} {callId : String}
    {fingerprint : Option String} : Makes QuietCall
      (existingToolResultMessage coordinates sourceEventId callId snapshotId fingerprint) := by
  refine .bind makes_readLoopEvents fun events => ?_
  split
  · exact .pure
  · refine .bind makes_given fun request => ?_
    split
    · exact .pure
    · split
      · exact .pure
      · exact .bind (makes_plain rfl) fun _ => .bind makes_given fun _ => .pure

/-- A completion is appended behind a fence, again and again where others append first. -/
theorem makes_appendToolCompletionEvent {payload : ToolCallCompletedPayload} {draw : Draw} :
    Makes QuietCall (appendToolCompletionEvent coordinates payload draw fuel) := by
  induction fuel with
  | zero => exact .throw
  | succ fuel ih =>
    refine .bind makes_readLoopEvents fun existing => .bind makes_given fun found => ?_
    split
    · exact .pure
    · refine .bind (makes_ask (.fenced fun record hrecord => ?_)) fun answer => ?_
      · rw [List.mem_singleton.mp hrecord]
        rfl
      · split
        · exact .pure
        · exact ih
        · exact makes_fail

/-! ### Batches -/

variable {record : ToolCallRecord}

/-- A result is an entry and a completion. -/
theorem makes_appendToolResultMessage {result : CanonicalMessage} {idempotent : Bool} :
    Makes QuietCall
      (appendToolResultMessage fuel coordinates record result idempotent) := by
  rw [appendToolResultMessage]
  split
  case' isTrue => refine .bind makes_existingToolResultMessage fun existing => ?_
  case' isFalse => refine .bind .pure fun existing => ?_
  all_goals
    cases existing with
    | some existing => exact .bind (makes_plain rfl) fun _ => makes_appendToolCompletionEvent
    | none =>
      exact .bind makes_appendAgentLoopSessionEntry fun _ => .bind (makes_plain rfl) fun _ =>
        makes_appendToolCompletionEvent

theorem makes_appendToolExecutionOutcome {outcome : ToolExecutionOutcome} {idempotent : Bool} :
    Makes QuietCall
      (appendToolExecutionOutcome fuel coordinates record outcome idempotent) :=
  .bind (makes_appendHookContexts _) fun _ => .bind makes_appendToolResultMessage fun _ =>
    makes_appendHookContexts _

theorem makes_appendDeniedToolResult {reason : String} :
    Makes QuietCall (appendDeniedToolResult fuel coordinates record reason) :=
  .bind (makes_plain rfl) fun _ => makes_appendToolResultMessage

theorem makes_appendTurnWaitingEvent {callId : String} {waitingOnEventId : EventRecordId}
    {approvalId reason : Option String} : Makes QuietCall
      (appendTurnWaitingEvent coordinates turnId callId snapshotId waitingOnEventId approvalId reason) :=
  .bind (makes_plain rfl) fun _ => .bind (makes_appendLoopEvent rfl) fun _ => .pure

theorem makes_appendPreparedOutcome {outcome : PreparedToolCallOutcome} :
    Makes QuietCall (appendPreparedOutcome fuel coordinates turnId outcome) := by
  cases outcome with
  | completed => exact .bind makes_appendToolExecutionOutcome fun _ => .pure
  | denied => exact .bind makes_appendDeniedToolResult fun _ => .pure
  | suspended => exact .bind makes_appendTurnWaitingEvent fun _ => .pure
  | abandoned => exact .pure

/-- The outcomes are recorded in order; the first failure is kept for the end. -/
theorem makes_appendOutcomes (outcomes : List (LoopResult PreparedToolCallOutcome)) {suspended : Bool}
    {firstError : Option LoopError} : Makes QuietCall
      (appendOutcomes fuel coordinates turnId outcomes suspended firstError) := by
  induction outcomes generalizing suspended firstError with
  | nil => exact .pure
  | cons outcome outcomes ih =>
    cases outcome with
    | error error => exact ih
    | ok outcome => exact .bind makes_appendPreparedOutcome fun _ => ih

theorem makes_appendToolResults {batch : PreparedToolBatch} :
    Makes QuietCall (appendToolResults fuel coordinates turnId batch) := by
  cases batch with
  | noTools => exact .pure
  | outcomes outcomes =>
    refine .bind (makes_appendOutcomes outcomes) fun found => ?_
    rcases found with ⟨suspended, _ | error⟩
    · exact .pure
    · exact makes_fail

theorem makes_toolRequestRecords {assistantEventId : EventRecordId} (calls : List ProviderToolCall) :
    Makes QuietCall
      (toolRequestRecords setup runtime coordinates turnId snapshotId assistantEventId calls) := by
  induction calls with
  | nil => exact .pure
  | cons call calls ih => exact .bind (makes_plain rfl) fun _ => .bind ih fun _ => .pure

/-- What is drawn up for the calls are requests. -/
theorem yields_toolRequestRecords {assistantEventId : EventRecordId} (calls : List ProviderToolCall) :
    Proc.Yields
      (fun records => ∀ record ∈ records, record.kind = .toolCallRequested)
      (toolRequestRecords setup runtime coordinates turnId snapshotId assistantEventId calls) := by
  induction calls with
  | nil => exact .pure fun _ h => nomatch h
  | cons call calls ih =>
    refine .after fun draw => .bind ih fun records hrecords => .pure fun record hrecord => ?_
    rcases List.mem_cons.mp hrecord with rfl | hrecord
    · rfl
    · exact hrecords record hrecord

/-- What a program gives may serve to show which calls the next one makes. -/
theorem makes_bind_yields {β : Type} {Q : α → Prop} {p : LoopM α} {f : α → LoopM β} (h : Makes P p)
    (hyields : Proc.Yields Q p) (hf : ∀ a, Q a → Makes P (f a)) : Makes P (p >>= f) := by
  have hboth : ∀ (q : LoopProc (Except LoopStop α)), q.Only P →
      q.Gives (fun result => ∀ a, result = .ok a → Q a) → (q >>= fun result => match result with
        | .ok a => (f a).run
        | .error stop => .done (.error stop)).Only P := by
    intro q hmakes hgives
    induction q with
    | done result =>
      cases result with
      | ok a => exact hf a (hgives a rfl)
      | error stop => exact trivial
    | call e k ih => exact ⟨hmakes.1, fun r => ih r (hmakes.2 r) (hgives r)⟩
  refine cast (congrArg (Proc.Only P) ?_) (hboth p.run h hyields)
  refine congrArg (p.run >>= ·) (funext fun result => ?_)
  cases result <;> rfl

variable {calls : List ProviderToolCall} {assistantEntryId : SessionEntryId}

theorem makes_appendToolCallRequestedEvents : Makes QuietCall
      (appendToolCallRequestedEvents setup runtime coordinates turnId snapshotId calls
        assistantEntryId) := by
  refine .bind makes_readLoopEvents fun events => ?_
  split
  · exact makes_fail
  · refine makes_bind_yields (makes_toolRequestRecords calls) (yields_toolRequestRecords calls)
      fun records hrecords => makes_appendThreadEvents fun record hrecord => ?_
    rw [hrecords record hrecord]
    rfl

/-- A call that was witnessed is taken up where it was left. -/
theorem makes_recoverToolCall {events : List EventRecord} {call : WitnessedToolCall} :
    Makes QuietCall (recoverToolCall setup coordinates turnId events call) := by
  rw [recoverToolCall]
  split
  · exact .pure
  · refine .bind makes_given fun request => .bind makes_existingToolResultMessage fun result => ?_
    refine .bind (.bind makes_given fun effectClass => ?_) fun effectClass => .pure
    split
    · refine .bind makes_decideLoopToolCall fun decision => ?_
      cases decision <;> exact .pure
    · exact .pure

theorem makes_recoverToolCalls {events : List EventRecord} (calls : List WitnessedToolCall) :
    Makes QuietCall (recoverToolCalls setup coordinates turnId events calls) := by
  induction calls with
  | nil => exact .pure
  | cons call calls ih => exact .bind makes_recoverToolCall fun _ => .bind ih fun _ => .pure

theorem makes_witnessToolBatch :
    Makes QuietCall (witnessToolBatch setup runtime coordinates turnId calls assistantEntryId) := by
  refine .bind makes_activeManifestBindReceipt fun active =>
    .bind makes_appendToolCallRequestedEvents fun requestEvents => .bind makes_given fun witnessed =>
      .bind makes_readLoopEvents fun events => ?_
  split
  · exact makes_recoverToolCalls witnessed
  · exact .pure

/-- **A batch of tool calls** is routed, witnessed and run. -/
theorem makes_prepareToolResults :
    Makes QuietCall (prepareToolResults setup runtime coordinates turnId calls assistantEntryId) := by
  rw [prepareToolResults]
  split
  · exact .pure
  · split
    · exact makes_fail
    · have hrouted : Makes QuietCall (routedToolCalls runtime calls) := by
        rw [routedToolCalls]
        split
        · exact .pure
        · exact .bind (makes_plain rfl) fun _ => .pure
      refine .bind hrouted fun calls => ?_
      split
      · exact .pure
      · refine .bind makes_witnessToolBatch fun witnessed => ?_
        dsimp only
        split
        · exact makes_fail
        · exact .bind (makes_plain rfl) fun _ => .pure

/-! ### Where a turn was interrupted -/

theorem makes_persistedToolRoundsForTurn : Makes QuietCall (persistedToolRoundsForTurn turn) :=
  .bind makes_readLoopEvents fun _ => .bind makes_given fun _ => .pure

theorem makes_loopPendingSuspensions : Makes QuietCall (loopPendingSuspensions coordinates) :=
  .bind makes_readLoopEvents fun _ => .bind makes_readLoopEvents fun _ => makes_given

theorem makes_anyIncomplete {completions : List ToolCallCompletedPayload}
    (requests : List ReplayedRequest) :
    Makes QuietCall (anyIncomplete coordinates completions requests) := by
  induction requests with
  | nil => exact .pure
  | cons request requests ih =>
    exact .bind (.bind makes_existingToolResultMessage fun _ => .pure) fun _ =>
      .bind ih fun _ => .pure

/-- The batch that a turn was interrupted in is read from the stream. -/
theorem makes_pendingWitnessedToolBatchForTurn :
    Makes QuietCall (pendingWitnessedToolBatchForTurn setup coordinates turnId) := by
  refine .bind makes_readLoopEvents fun events => ?_
  split
  · exact .pure
  · split
    · exact makes_fail
    · refine .bind makes_given fun requests => .bind makes_given fun completions =>
      .bind (makes_anyIncomplete _) fun incomplete => ?_
      split
      · exact .pure
      · exact .bind makes_given fun _ => .bind (makes_plain rfl) fun _ => .bind makes_given fun _ =>
        makes_map makes_given

theorem makes_readyCommandsHandled {readyCommandCount handledReadyCommands : Nat} :
    Makes QuietCall (readyCommandsHandled readyCommandCount handledReadyCommands) := by
  rw [readyCommandsHandled]
  split
  · exact .bind (makes_plain rfl) fun _ => .pure
  · exact .pure

/-! ### The request of a round -/

variable {foldIntraTurnSteers : Bool}

/-- The steers of the turn are read from its stream. -/
theorem makes_undeliveredSteers {entries : List SessionEntry} :
    Makes QuietCall (undeliveredSteers turn foldIntraTurnSteers entries) := by
  rw [undeliveredSteers]
  split
  · exact .bind makes_readLoopEvents fun _ => .pure
  · exact .pure

theorem makes_loopToolDefinitions : Makes QuietCall (loopToolDefinitions runtime) := by
  rw [loopToolDefinitions]
  split
  · exact .bind (makes_plain rfl) fun _ => .pure
  · exact .pure

/-- The compiling of a context leaves its receipt. -/
theorem makes_recordContextCompileReceipt {entries : List SessionEntry}
    {sourceCuts : List SessionContextSourceCut} {payload : List (String × Json)} :
    Makes QuietCall (recordContextCompileReceipt setup coordinates entries sourceCuts payload) :=
  .bind (makes_plain rfl) fun _ => .bind makes_given fun _ => .bind (makes_plain rfl) fun _ =>
    .bind (makes_appendLoopEvent rfl) fun _ => .bind (makes_plain rfl) fun _ => makes_given

/-- **The request of a round** is assembled by quiet calls. -/
theorem makes_assembleRound :
    Makes QuietCall (assembleRound setup runtime turn foldIntraTurnSteers) :=
  .bind (makes_plain rfl) fun _ => .bind makes_given fun _ => .bind makes_undeliveredSteers fun _ =>
    .bind (makes_plain rfl) fun _ => .bind makes_given fun _ => .bind (makes_plain rfl) fun _ =>
    .bind makes_given fun _ => .bind makes_given fun _ => .bind makes_given fun _ =>
    .bind makes_loopToolDefinitions fun _ => .bind makes_recordContextCompileReceipt fun _ => .pure

/-- A round appends no end of the turn. -/
theorem makes_runTurn : Makes Unmarked (runTurn setup runtime turn foldIntraTurnSteers) := by
  refine .bind (makes_attempt (Proc.Only.imp (fun _ h => h.1) makes_assembleRound)) fun result => ?_
  cases result with
  | error error => exact .pure
  | ok request => exact makes_ask trivial

end Verlet.Agent
