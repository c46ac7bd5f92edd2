import Verlet.Agent.AgentLoop.Commands
import Verlet.Agent.AgentLoop.RoundRequest

/-!
# Agent — The agent loop — Provider turns

`run_provider_turn`: a turn goes on in rounds, each a request to its provider and the tool calls of the
answer, until an answer calls no tool, a call waits for its controller, or the turn is broken off.  A turn
that was interrupted begins with the batch that it was interrupted in.
-/

namespace Verlet.Agent
open Support Kernel History LoopM

variable {φ : Type} (setup : LoopSetup φ)

/-! ### Where a turn was interrupted -/

def isTurnRequest (turnId : String) (event : EventRecord) : Bool :=
  event.kind = .toolCallRequested ∧
    ((event.payload.index "subject").index "turn_id").asStr = some turnId

/-- The sources of the requests of the turn, each once, that are session entries of it. -/
def assistantBatches (turnId : String) (sessionEntryEventIds : List EventRecordId) :
    List EventRecord → List EventRecordId → LoopResult (List EventRecordId)
  | [],              batches => .ok batches
  | event :: events, batches =>
    if ¬ isTurnRequest turnId event then assistantBatches turnId sessionEntryEventIds events batches
    else
      match event.provenance.sourceEventIds with
      | [] =>
        .error (.history ("tool.call.requested " ++ event.id.uuid.text ++ " for turn " ++ turnId ++
          " has no assistant source event"))
      | assistantEventId :: _ =>
        if assistantEventId ∉ sessionEntryEventIds then
          .error (.history ("tool.call.requested " ++ event.id.uuid.text ++ " for turn " ++ turnId ++
            " references assistant source event " ++ assistantEventId.uuid.text ++
            " outside the active turn"))
        else
          assistantBatches turnId sessionEntryEventIds events
            (if assistantEventId ∈ batches then batches else assistantEventId :: batches)

def persistedToolRoundsForTurn (turn : AgentTurn) : LoopM Nat := do
  let events ← readLoopEvents turn.stream (some turn.turnDeliveryStartSequence)
  let batches ← given (assistantBatches turn.turnId ((events.filter fun event =>
    event.kind = .sessionEntryAppended).map (·.id)) events [])
  return batches.length

/-- `list_pending_tool_call_suspensions`. -/
def loopPendingSuspensions (coordinates : ThreadCoordinates) :
    LoopM (List PendingToolCallSuspension) := do
  let controlEvents ← readLoopEvents (controlStreamId coordinates) none
  let threadEvents ← readLoopEvents (.forThread coordinates) none
  given (orLoop (listPendingToolCallSuspensions loopCodec
    (fun streamId => .ok (if streamId = controlStreamId coordinates then controlEvents
      else threadEvents)) coordinates))

/-- A request of a batch that is replayed, with its event. -/
structure ReplayedRequest where
  sequence : EventSequence
  eventId : EventRecordId
  payload : ToolCallRequestedPayload

/-- The requests of the batch by their call ids, of each the one of the greatest sequence. -/
def noteReplayedRequest (turnId : String) (requests : List (String × ReplayedRequest))
    (event : EventRecord) : LoopResult (List (String × ReplayedRequest)) := do
  let payload ← decodeLoop loopCodec.toolCallRequested ("tool.call.requested " ++
    event.id.uuid.text ++ " payload is invalid during turn replay: ") event
  if payload.subject.turnId ≠ turnId then return requests
  else
    let replayed : ReplayedRequest := ⟨event.sequence, event.id, payload⟩
    match requests.lookup payload.subject.callId with
    | none       => return requests ++ [(payload.subject.callId, replayed)]
    | some noted =>
      if noted.sequence < event.sequence then
        return requests.map fun request =>
          if request.1 = payload.subject.callId then (request.1, replayed) else request
      else return requests

/-- `BTreeMap::values`. -/
def replayedInOrder (requests : List (String × ReplayedRequest)) : List ReplayedRequest :=
  (requests.insertionSort fun p q => ¬ Json.textBefore q.1.toList p.1.toList).map (·.2)

def requestIncomplete (coordinates : ThreadCoordinates) (completions : List ToolCallCompletedPayload)
    (request : ReplayedRequest) : LoopM Bool := do
  let completed := completions.any fun completion =>
    completion.subject = request.payload.subject ∧
      completion.snapshotId = request.payload.snapshotId ∧
        completion.argsFingerprint = request.payload.argsFingerprint
  let result ← existingToolResultMessage coordinates request.eventId request.payload.subject.callId
    request.payload.snapshotId request.payload.argsFingerprint
  return !completed || result.isNone

/-- Every request is looked at, whatever the others are. -/
def anyIncomplete (coordinates : ThreadCoordinates) (completions : List ToolCallCompletedPayload) :
    List ReplayedRequest → LoopM Bool
  | []                  => return false
  | request :: requests => do
    let here ← requestIncomplete coordinates completions request
    let there ← anyIncomplete coordinates completions requests
    return here || there

def checkReplayedRequest (assistantEntryId : String) (calls : List ProviderToolCall)
    (request : ReplayedRequest) : LoopResult Unit :=
  match calls.find? fun call => call.id = request.payload.subject.callId with
  | none =>
    .error (.history ("witnessed assistant batch " ++ assistantEntryId ++ " lost tool call " ++
      request.payload.subject.callId))
  | some call =>
    if call.name ≠ request.payload.toolName ∨ call.arguments ≠ request.payload.arguments ∨
        (request.payload.argsFingerprint.any fun fingerprint =>
          fingerprint ≠ argsFingerprint setup call.name call.arguments) then
      .error (.history ("witnessed assistant batch " ++ assistantEntryId ++
        " disagrees with tool request " ++ request.payload.subject.callId))
    else .ok ()

def assistantEntryIdOf (assistantSourceEventId : EventRecordId) (events : List EventRecord) :
    LoopResult String :=
  match events.find? fun event => event.id = assistantSourceEventId ∧
      event.kind = .sessionEntryAppended with
  | none =>
    .error (.history ("tool request batch source " ++ assistantSourceEventId.uuid.text ++
      " is not an assistant session entry"))
  | some event =>
    match (event.payload.index "entry_id").asStr with
    | none =>
      .error (.history ("assistant session event " ++ assistantSourceEventId.uuid.text ++
        " has no entry_id"))
    | some entryId => .ok entryId

def replayedCalls (assistantEntryId : String) (requests : List ReplayedRequest)
    (entries : List SessionEntry) : LoopResult (List ProviderToolCall × SessionEntryId) := do
  match entries.find? fun entry => entry.entryId.uuid.text = assistantEntryId with
  | none =>
    throw (.history ("assistant session entry " ++ assistantEntryId ++
      " is missing during turn replay"))
  | some entry =>
    match entry.kind with
    | .message message => do
      requests.forM (checkReplayedRequest setup assistantEntryId (toolCallsFromMessage message))
      return (toolCallsFromMessage message, entry.entryId)
    | .modelChange _ _ _ | .compaction _ | .branchSummary _ | .runtime _ _
    | .customContextMessage _ =>
      throw (.history ("tool request batch source " ++ assistantEntryId ++
        " is not a canonical message"))

def pendingWitnessedToolBatchForTurn (coordinates : ThreadCoordinates) (turnId : String) :
    LoopM (Option (List ProviderToolCall × SessionEntryId)) := do
  let events ← readLoopEvents (.forThread coordinates) none
  match latestEvent (events.filter (isTurnRequest turnId)) with
  | none               => return none
  | some latestRequest =>
    match latestRequest.provenance.sourceEventIds with
    | [] =>
      fail (.history ("tool.call.requested " ++ latestRequest.id.uuid.text ++ " for turn " ++
        turnId ++ " has no assistant source event"))
    | assistantSourceEventId :: _ => do
      let requests ← given ((events.filter fun event => event.kind = .toolCallRequested ∧
        event.provenance.sourceEventIds.head? = some assistantSourceEventId).foldlM
          (noteReplayedRequest turnId) [])
      let completions ← given ((events.filter (isTurnCompletion turnId)).mapM fun event =>
        decodeLoop loopCodec.toolCallCompleted ("tool.call.completed " ++ event.id.uuid.text ++
          " payload is invalid during turn replay: ") event)
      let incomplete ← anyIncomplete coordinates completions (replayedInOrder requests)
      if ! incomplete then return none
      else do
        let assistantEntryId ← given (assistantEntryIdOf assistantSourceEventId events)
        let answer ← ask (.buildContext coordinates)
        let context ← given (orLoop (orHistory answer))
        some <$> given (replayedCalls setup assistantEntryId (replayedInOrder requests)
          context.entries)

/-! ### A round -/

def exhaustedToolRoundBudget (maxToolRounds : Option Nat) (completedRounds : Nat) : Option Nat :=
  maxToolRounds.filter fun maxToolRounds => maxToolRounds ≤ completedRounds

def joinedTexts (content : List CanonicalContent) : String :=
  String.join (content.filterMap fun
    | .text text _ => some text
    | .image _ _ | .thinking _ _ _ | .toolCall _ _ _ => none)

def textFromMessage : CanonicalMessage → String
  | .assistant content _ _ _ _ _ _ _ => joinedTexts content
  | .toolResult _ _ content _ _ _    => joinedTexts content
  | .user _ _                        => ""

def runStopHooks (runtime : AgentLoop φ) (turn : AgentTurn) (lastAssistantMessage : Option String) :
    LoopM Unit :=
  if ¬ runtime.hasHookPipeline then return ()
  else do
    let (outcome : HookOutcome) ← ask (.runStop turn.turnId lastAssistantMessage)
    appendHookMutationWitnesses turn.coordinates outcome.mutationWitnesses
    appendHookContexts turn.coordinates outcome.additionalContexts

/-- How a turn is left early. -/
inductive TurnExit where
  /-- The loop of the thread goes on, or it ends. -/
  | left (ends : Bool)
  | failed (code reason : String)

/-- What breaks into the boundary between two rounds. -/
def ActiveProviderCommandOutcome.atBoundary : ActiveProviderCommandOutcome → Option TurnExit
  | .continue           => none
  | .cancelled _        => some (.left false)
  | .shutdown           => some (.left true)
  | .failed code reason => some (.failed code reason)

/-- The commands that were ready have been taken up, and the channel is not closed. -/
def readyCommandsHandled (readyCommandCount handledReadyCommands : Nat) : LoopM Bool :=
  if readyCommandCount ≤ handledReadyCommands then do
    let (closed : Bool) ← ask .commandsClosed
    return !closed
  else return false

/-- The commands that are ready when a round begins; a channel that is closed is drained. -/
def handleReadyCommands (fuel : Nat) (turn : AgentTurn) (readyCommandCount : Nat) :
    Nat → Nat → List ThreadCommand → LoopM (Option TurnExit × List ThreadCommand)
  | 0,         _,                    _               => throw .stillRunning
  | steps + 1, handledReadyCommands, pendingCommands => do
    if ← readyCommandsHandled readyCommandCount handledReadyCommands then
      return (none, pendingCommands)
    else
      match ← ask .tryRecv with
      | .empty => return (none, pendingCommands)
      | .disconnected => do
        let (outcome, pendingCommands) ← handleActiveProviderCommand setup fuel turn false false
          pendingCommands none
        return (outcome.atBoundary, pendingCommands)
      | .received command => do
        let (outcome, pendingCommands) ← handleActiveProviderCommand setup fuel turn false false
          pendingCommands (some command)
        match outcome.atBoundary with
        | some exit => return (some exit, pendingCommands)
        | none      =>
          handleReadyCommands fuel turn readyCommandCount steps (handledReadyCommands + 1)
            pendingCommands

/-- The boundary between two rounds: there is none before the first. -/
def roundBoundary (fuel : Nat) (turn : AgentTurn) (toolRounds : Nat)
    (pendingCommands : List ThreadCommand) : LoopM (Option TurnExit × List ThreadCommand) :=
  if toolRounds = 0 then return (none, pendingCommands)
  else do
    let (readyCommandCount : Nat) ← ask .commandCount
    handleReadyCommands setup fuel turn readyCommandCount fuel 0 pendingCommands

/-- What a round notes while its request is out. -/
structure RoundState where
  cancelledReason : Option String
  shutdownAfterTurn : Bool
  failure : Option (String × String)
  pendingCommands : List ThreadCommand

/-- A round notes what a command came to, and waits on. -/
def RoundState.note (state : RoundState) (outcome : ActiveProviderCommandOutcome)
    (pendingCommands : List ThreadCommand) : RoundState :=
  match outcome with
  | .continue => { state with pendingCommands := pendingCommands }
  | .cancelled reason =>
    { state with cancelledReason := some reason, pendingCommands := pendingCommands }
  | .shutdown           => { state with shutdownAfterTurn := true, pendingCommands := pendingCommands }
  | .failed code reason =>
    { state with failure := some (code, reason), pendingCommands := pendingCommands }

/-- While a request is out: nothing breaks into it, but it may be noted. -/
def handleDuringRequest (fuel : Nat) (turn : AgentTurn) (state : RoundState) :
    Interruption → LoopM (Option Empty × RoundState)
  | .runtimeCancelled =>
    if state.cancelledReason.isSome then return (none, state)
    else do
      ask .cancelTurn
      joinTurn fuel turn .cancelled runtimeCancellationReason
      return (none, { state with cancelledReason := some runtimeCancellationReason })
  | .command command => do
    let (outcome, pendingCommands) ← handleActiveProviderCommand setup fuel turn
      state.cancelledReason.isSome false state.pendingCommands command
    return (none, state.note outcome pendingCommands)

/-- How a round goes on, once its answer is recorded. -/
inductive RoundEnd where
  | stop (lastAssistantText : Option String)
  | toolsAppended
  | suspended
  | failed (code reason : String)
  | exit (exit : TurnExit)

def ToolBatchAwaitOutcome.roundEnd (setup : LoopSetup φ) (lastAssistantText : Option String) :
    ToolBatchAwaitOutcome → RoundEnd
  | .completed (.ok .noTools)         => .stop lastAssistantText
  | .completed (.ok .appendedResults) => .toolsAppended
  | .completed (.ok .suspended)       => .suspended
  | .completed (.error error)         => .failed "tool_router" (setup.errorText error)
  | .cancelled _                      => .exit (.left false)
  | .shutdown                         => .exit (.left true)
  | .failed code reason               => .exit (.failed code reason)

def recordAnswer (fuel : Nat) (runtime : AgentLoop φ) (turn : AgentTurn) (toolRounds : Nat)
    (message : CanonicalMessage) (pendingCommands : List ThreadCommand) :
    LoopM (RoundEnd × List ThreadCommand) := do
  match ← attempt (appendAgentLoopSessionEntry turn.coordinates (.message message)
      [turn.turnSourceEventId]) with
  | .error error => return (.failed "history" (setup.errorText error), pendingCommands)
  | .ok entry    => do
    let calls := toolCallsFromMessage message
    if runtime.hasToolRouter ∧ calls ≠ [] then
      match exhaustedToolRoundBudget runtime.maxToolRounds toolRounds with
      | some maxToolRounds =>
        return (.failed "tool_router" ("tool router exceeded " ++ toString maxToolRounds ++
          " rounds"), pendingCommands)
      | none => do
        let (outcome, pendingCommands) ← appendToolResultsWhileHandlingCommands setup fuel runtime
          turn calls entry.entryId pendingCommands
        return (outcome.roundEnd setup (some (textFromMessage message)), pendingCommands)
    else return (.stop (some (textFromMessage message)), pendingCommands)

def failJoinedTurn (fuel : Nat) (turn : AgentTurn) (joined : Bool) (reason : String)
    (failure : TerminalTurnFailure) : LoopM Unit := do
  if joined then failTurn fuel turn failure
  else do
    joinTurn fuel turn .failed reason
    failTurn fuel turn failure

/-- How a turn is left that a boundary or a batch ends. -/
def leaveTurn (fuel : Nat) (turn : AgentTurn) : TurnExit → LoopM Bool
  | .left ends          => return ends
  | .failed code reason => do
    failMessage fuel turn code reason
    return true

/-- The end of a turn whose last answer calls no tool. -/
def completeTurn (fuel : Nat) (runtime : AgentLoop φ) (turn : AgentTurn)
    (lastAssistantText : Option String) : LoopM Bool := do
  match ← attempt (runStopHooks runtime turn lastAssistantText) with
  | .error error => do
    failJoinedTurn fuel turn false (setup.errorText error)
      (.fromCode "hook_pipeline" (setup.errorText error))
    return true
  | .ok _ => do
    match ← attempt (appendTurnCompletedEvent fuel turn) with
    | .error error => do
      failJoinedTurn fuel turn false (setup.errorText error)
        (.fromCode "history" (setup.errorText error))
      return true
    | .ok _ => return false

/-- What a round came to: the turn is left, or there is another round. -/
inductive RoundStep where
  | left (ends : Bool)
  | another (toolRounds : Nat)

/-- The terminal section of a round whose answer was recorded. -/
def endRound (fuel : Nat) (runtime : AgentLoop φ) (turn : AgentTurn) (toolRounds : Nat)
    (shutdownAfterTurn : Bool) : RoundEnd → LoopM RoundStep
  | .exit exit              => .left <$> leaveTurn fuel turn exit
  | .stop lastAssistantText =>
    if shutdownAfterTurn then return .left true
    else .left <$> completeTurn setup fuel runtime turn lastAssistantText
  | .toolsAppended =>
    if shutdownAfterTurn then return .left true else return .another (toolRounds + 1)
  | .suspended => return .left shutdownAfterTurn
  | .failed code reason =>
    if shutdownAfterTurn then return .left true
    else do
      failJoinedTurn fuel turn false reason (.fromCode code reason)
      return .left true

/-- The terminal section of a round. -/
def concludeRound (fuel : Nat) (runtime : AgentLoop φ) (turn : AgentTurn) (toolRounds : Nat)
    (result : Except TerminalTurnFailure CanonicalMessage) (state : RoundState) :
    LoopM (RoundStep × List ThreadCommand) := do
  if state.cancelledReason.isSome then return (.left false, state.pendingCommands)
  else
    match state.failure with
    | some (code, reason) =>
      if state.shutdownAfterTurn then return (.left true, state.pendingCommands)
      else do
        failJoinedTurn fuel turn true reason (.fromCode code reason)
        return (.left true, state.pendingCommands)
    | none =>
      match result with
      | .error failure => do
        joinTurn fuel turn .failed failure.message
        if state.shutdownAfterTurn then return (.left true, state.pendingCommands)
        else do
          failJoinedTurn fuel turn true failure.message failure
          return (.left true, state.pendingCommands)
      | .ok message => do
        let (roundEnd, pendingCommands) ← recordAnswer setup fuel runtime turn toolRounds message
          state.pendingCommands
        let step ← endRound setup fuel runtime turn toolRounds state.shutdownAfterTurn roundEnd
        return (step, pendingCommands)

/-- The request of a round is out, and what comes is noted. -/
def awaitRound (fuel : Nat) (runtime : AgentLoop φ) (turn : AgentTurn) (toolRounds : Nat)
    (pendingCommands : List ThreadCommand) :
    LoopM (Except TerminalTurnFailure CanonicalMessage × RoundState) := do
  match ← attend (handleDuringRequest setup fuel turn)
      (runTurn setup runtime turn (0 < toolRounds)).run ⟨none, false, none, pendingCommands⟩ with
  | .finished (.ok result) state => return (result, state)
  | .finished (.error error) _ => throw error
  | .interrupted _ outcome _ => nomatch outcome

/-- One turn of the loop of `run_provider_turn`. -/
def providerRound (fuel : Nat) (runtime : AgentLoop φ) (turn : AgentTurn) (toolRounds : Nat)
    (pendingCommands : List ThreadCommand) : LoopM (RoundStep × List ThreadCommand) := do
  match ← roundBoundary setup fuel turn toolRounds pendingCommands with
  | (some exit, pendingCommands) => do
    let ends ← leaveTurn fuel turn exit
    return (.left ends, pendingCommands)
  | (none, pendingCommands) => do
    let (result, state) ← awaitRound setup fuel runtime turn toolRounds pendingCommands
    concludeRound setup fuel runtime turn toolRounds result state

/-- The loop of `run_provider_turn`. -/
def providerRounds (fuel : Nat) (runtime : AgentLoop φ) (turn : AgentTurn) :
    Nat → Nat → List ThreadCommand → LoopM (Bool × List ThreadCommand)
  | 0,          _,          _               => throw .stillRunning
  | rounds + 1, toolRounds, pendingCommands => do
    match ← providerRound setup fuel runtime turn toolRounds pendingCommands with
    | (.left ends, pendingCommands)          => return (ends, pendingCommands)
    | (.another toolRounds, pendingCommands) =>
      providerRounds fuel runtime turn rounds toolRounds pendingCommands

/-! ### The turn -/

def orFailTurn {α : Type} (fuel : Nat) (turn : AgentTurn) (code : String)
    (pendingCommands : List ThreadCommand) (p : LoopM α)
    (next : α → LoopM (Bool × List ThreadCommand)) : LoopM (Bool × List ThreadCommand) := do
  match ← attempt p with
  | .ok a        => next a
  | .error error => do
    failMessage fuel turn code (setup.errorText error)
    return (true, pendingCommands)

def runPromptHooks (runtime : AgentLoop φ) (turn : AgentTurn) : LoopM Bool :=
  if ¬ runtime.hasHookPipeline then return false
  else do
    let (outcome : HookOutcome) ← ask (.runUserPromptSubmit turn.turnId turn.turnInput.content)
    appendHookMutationWitnesses turn.coordinates outcome.mutationWitnesses
    appendHookContexts turn.coordinates outcome.additionalContexts
    return outcome.shouldStop

/-- The batch that the turn was interrupted in is run again, and the rounds go on after it. -/
def replayBatch (fuel : Nat) (runtime : AgentLoop φ) (turn : AgentTurn) (toolRounds : Nat)
    (pendingCommands : List ThreadCommand) (calls : List ProviderToolCall)
    (assistantEntryId : SessionEntryId) : LoopM (Bool × List ThreadCommand) := do
  let (outcome, pendingCommands) ← appendToolResultsWhileHandlingCommands setup fuel runtime turn calls
    assistantEntryId pendingCommands
  match outcome with
  | .completed (.ok .suspended) => return (false, pendingCommands)
  | .completed (.ok .noTools)
  | .completed (.ok .appendedResults) =>
    providerRounds setup fuel runtime turn fuel toolRounds pendingCommands
  | .completed (.error error) => do
    failMessage fuel turn "tool_router" (setup.errorText error)
    return (true, pendingCommands)
  | .cancelled _ => return (false, pendingCommands)
  | .shutdown => return (true, pendingCommands)
  | .failed code reason => do
    failMessage fuel turn code reason
    return (true, pendingCommands)

/-- A turn that has persisted rounds: it waits, or takes up its pending batch, or goes on. -/
def resumeRounds (fuel : Nat) (runtime : AgentLoop φ) (turn : AgentTurn) (toolRounds : Nat)
    (pendingCommands : List ThreadCommand) : LoopM (Bool × List ThreadCommand) :=
  if toolRounds = 0 then providerRounds setup fuel runtime turn fuel toolRounds pendingCommands
  else
    orFailTurn setup fuel turn "history" pendingCommands (loopPendingSuspensions turn.coordinates)
      fun pendingSuspensions => do
        if pendingSuspensions.any fun pending => pending.subject.turnId = turn.turnId then
          return (false, pendingCommands)
        else
          orFailTurn setup fuel turn "history" pendingCommands
            (pendingWitnessedToolBatchForTurn setup turn.coordinates turn.turnId)
            fun
              | none =>
                providerRounds setup fuel runtime turn fuel toolRounds pendingCommands
              | some (calls, assistantEntryId) =>
                replayBatch setup fuel runtime turn toolRounds pendingCommands calls assistantEntryId

/-- `run_provider_turn`: whether the loop of the thread ends, and the commands that it put off. -/
def runProviderTurn (fuel : Nat) (runtime : AgentLoop φ) (turn : AgentTurn)
    (pendingCommands : List ThreadCommand) : LoopM (Bool × List ThreadCommand) :=
  orFailTurn setup fuel turn "history" pendingCommands (persistedToolRoundsForTurn turn)
    fun toolRounds =>
      orFailTurn setup fuel turn "history" pendingCommands
        (activeManifestBindReceipt setup turn.coordinates) fun _ =>
          orFailTurn setup fuel turn "hook_pipeline" pendingCommands (runPromptHooks runtime turn)
            fun stops => do
              if stops then return (true, pendingCommands)
              else resumeRounds setup fuel runtime turn toolRounds pendingCommands

end Verlet.Agent
