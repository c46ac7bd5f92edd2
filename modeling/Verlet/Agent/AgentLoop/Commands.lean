import Verlet.Agent.AgentLoop.ToolBatch

/-!
# Agent — The agent loop — Commands

A turn takes up the commands of its thread while it awaits something: `handle_active_provider_command`
answers one, and the `select!` loops around an await are `attend`.  A call takes its effect when it is
polled, so what is taken up in between comes before a call or after it.

* `attend`: a program, and what comes before each of its calls and before its end.
* `appendToolResultsWhileHandlingCommands`: a batch of tool calls, and the commands that it lets wait
  until its results stand.
-/

namespace Verlet.Agent
open Support Kernel History LoopM

variable {φ : Type} (setup : LoopSetup φ)

/-! ### One command -/

inductive ActiveProviderCommandOutcome where
  | continue
  | cancelled (reason : String)
  | shutdown
  | failed (code reason : String)

def joinTurn (fuel : Nat) (turn : AgentTurn) (terminalState : ThreadTerminalState) (reason : String) :
    LoopM Unit :=
  appendTerminalJoinUntilRecorded turn.thread terminalState (some reason)
    (some turn.turnSourceEventId) fuel

/-- The turn is cancelled: it is joined so unless that was done, or is left for later. -/
def cancelActiveTurn (fuel : Nat) (turn : AgentTurn) (alreadyCancelled deferCancelTerminal : Bool)
    (reason : String) : LoopM ActiveProviderCommandOutcome := do
  if alreadyCancelled then return .continue
  else
    if deferCancelTerminal then return .cancelled reason
    else
      joinTurn fuel turn .cancelled reason
      return .cancelled reason

/-- `append_user_turn_input`, of a steer. -/
def steerEntryKind (input : TurnInput) (timestampMs : Int) : SessionEntryKind :=
  .message (.user input.content timestampMs)

def appendSteer (fuel : Nat) (turn : AgentTurn) (deferCancelTerminal : Bool)
    (command : Submit (List CanonicalContent)) : LoopM ActiveProviderCommandOutcome := do
  let timestampMs ← ask .nowMs
  let answer ← ask (.appendTurnInput turn.coordinates command.turnId
    (steerEntryKind command.input timestampMs))
  match orLoop (orHistory answer) with
  | .ok _        => return .continue
  | .error error => do
    ask .cancelTurn
    if deferCancelTerminal then return .failed "history" (setup.errorText error)
    else
      joinTurn fuel turn .failed (setup.errorText error)
      return .failed "history" (setup.errorText error)

/-- `handle_active_provider_command`, with the commands that are put off until the turn is over. -/
def handleActiveProviderCommand (fuel : Nat) (turn : AgentTurn)
    (alreadyCancelled deferCancelTerminal : Bool) (pendingCommands : List ThreadCommand) :
    Option ThreadCommand → LoopM (ActiveProviderCommandOutcome × List ThreadCommand)
  | some (.cancel reason) => do
    ask .cancelTurn
    let outcome ← cancelActiveTurn fuel turn alreadyCancelled deferCancelTerminal reason
    return (outcome, pendingCommands)
  | some (.cancelTurn watchdogTokenId reason) =>
    if turn.turnInput.turnWatchdog ≠ some watchdogTokenId then return (.continue, pendingCommands)
    else do
      ask .cancelTurn
      let outcome ← cancelActiveTurn fuel turn alreadyCancelled deferCancelTerminal reason
      return (outcome, pendingCommands)
  | some .shutdown | none => do
    ask .cancelTurn
    return (.shutdown, pendingCommands)
  | some (.submit command) =>
    match command.mode with
    | .queue => return (.continue, pendingCommands ++ [.submit command])
    | .steer => do
      let outcome ← appendSteer setup fuel turn deferCancelTerminal command
      return (outcome, pendingCommands)
    | .interrupt => do
      ask .cancelTurn
      let outcome ← cancelActiveTurn fuel turn alreadyCancelled deferCancelTerminal
        ("interrupted by turn " ++ command.turnId)
      return (outcome, .submit { command with mode := .queue } :: pendingCommands)
  | some (.compact turnId trigger summary) =>
    return (.continue, pendingCommands ++ [.compact turnId trigger summary])
  | some (.resumeToolCall turnId callId) =>
    return (.continue, pendingCommands ++ [.resumeToolCall turnId callId])

/-! ### What comes during an await -/

/-- How an await ends: with what was awaited, or with what broke into it and the rest of the program. -/
inductive Attended (α σ γ : Type) where
  | finished (result : α) (state : σ)
  | interrupted (rest : LoopProc α) (outcome : γ) (state : σ)

variable {α σ γ : Type}

/-- The loop takes up what comes, until something breaks into it. -/
def attendTo (handle : σ → Interruption → LoopM (Option γ × σ)) :
    List Interruption → σ → LoopM (Option γ × σ)
  | [],                            state => return (none, state)
  | interruption :: interruptions, state => do
    match ← handle state interruption with
    | (none, state)         => attendTo handle interruptions state
    | (some outcome, state) => return (some outcome, state)

/-- A `select!` loop around an await. -/
def attend (handle : σ → Interruption → LoopM (Option γ × σ)) :
    LoopProc α → σ → LoopM (Attended α σ γ)
  | .done a,     state => do
    let interruptions ← ask .interruptions
    match ← attendTo handle interruptions state with
    | (none, state)         => return .finished a state
    | (some outcome, state) => return .interrupted (.done a) outcome state
  | .call e k,   state => do
    let interruptions ← ask .interruptions
    match ← attendTo handle interruptions state with
    | (none, state) => do
      let answer ← ask e
      attend handle (k answer) state
    | (some outcome, state) => return .interrupted (.call e k) outcome state

/-- What an awaited program came to, where its loops are not still running. -/
def settled {β : Type} : Except LoopStop β → LoopM (LoopResult β)
  | .ok b                  => return .ok b
  | .error (.failed error) => return .error error
  | .error .stillRunning   => throw .stillRunning

def awaitRest {β : Type} (rest : LoopProc (Except LoopStop β)) : LoopM (LoopResult β) :=
  attempt (ExceptT.mk rest)

/-! ### A batch, and the commands that come with it -/

inductive ToolBatchAwaitOutcome where
  | completed (result : LoopResult ToolAppendOutcome)
  | cancelled (reason : String)
  | shutdown
  | failed (code reason : String)

def toolBatchCommandMustWaitForCommit : Option ThreadCommand → Bool
  | some (.submit command)    => command.mode ≠ .queue
  | some (.compact ..)        => false
  | some (.resumeToolCall ..) => false
  | some (.cancel _)          => true
  | some (.cancelTurn ..)     => true
  | some .shutdown            => true
  | none                      => true

def ActiveProviderCommandOutcome.ofBatch :
    ActiveProviderCommandOutcome → Option ToolBatchAwaitOutcome
  | .continue           => none
  | .cancelled reason   => some (.cancelled reason)
  | .shutdown           => some .shutdown
  | .failed code reason => some (.failed code reason)

def handleToolBatchCommand (fuel : Nat) (turn : AgentTurn) (deferCancelTerminal : Bool)
    (pendingCommands : List ThreadCommand) (command : Option ThreadCommand) :
    LoopM (Option ToolBatchAwaitOutcome × List ThreadCommand) := do
  let (outcome, pendingCommands) ← handleActiveProviderCommand setup fuel turn false
    deferCancelTerminal pendingCommands command
  return (outcome.ofBatch, pendingCommands)

def appendDeferredToolBatchTerminal (fuel : Nat) (turn : AgentTurn) :
    ToolBatchAwaitOutcome → LoopM Unit
  | .cancelled reason => joinTurn fuel turn .cancelled reason
  | .failed _ reason => joinTurn fuel turn .failed reason
  | .shutdown | .completed _ => return ()

def runtimeCancellationReason : String := "runtime cancellation requested"

/-- While a batch is prepared: what breaks into it is noted, its join left for later. -/
def handleDuringPreparation (fuel : Nat) (turn : AgentTurn) (pendingCommands : List ThreadCommand) :
    Interruption → LoopM (Option ToolBatchAwaitOutcome × List ThreadCommand)
  | .runtimeCancelled => do
    ask .cancelTurn
    return (some (.cancelled runtimeCancellationReason), pendingCommands)
  | .command command => handleToolBatchCommand setup fuel turn true pendingCommands command

inductive CommitBreak where
  | runtimeCancelled
  | mustWait (command : Option ThreadCommand)
  | outcome (outcome : ToolBatchAwaitOutcome)

/-- While the results of a batch are appended: a command that must wait for them is only noted. -/
def handleDuringCommit (fuel : Nat) (turn : AgentTurn) (pendingCommands : List ThreadCommand) :
    Interruption → LoopM (Option CommitBreak × List ThreadCommand)
  | .runtimeCancelled => return (some .runtimeCancelled, pendingCommands)
  | .command command  =>
    if toolBatchCommandMustWaitForCommit command then
      return (some (.mustWait command), pendingCommands)
    else do
      let (outcome, pendingCommands) ← handleToolBatchCommand setup fuel turn false pendingCommands
        command
      return (outcome.map .outcome, pendingCommands)

/-- A batch that was broken into while it was prepared: it is still run to its end and recorded. -/
def finishBrokenBatch (fuel : Nat) (turn : AgentTurn)
    (preparation : LoopProc (Except LoopStop PreparedToolBatch)) (outcome : ToolBatchAwaitOutcome) :
    LoopM ToolBatchAwaitOutcome := do
  match ← awaitRest preparation with
  | .error error => return .completed (.error error)
  | .ok batch    => do
    match ← attempt (appendToolResults fuel turn.coordinates turn.turnId batch) with
    | .error error => return .completed (.error error)
    | .ok _        => do
      appendDeferredToolBatchTerminal fuel turn outcome
      return outcome

/-- A batch that was broken into while its results were appended. -/
def finishBrokenCommit (fuel : Nat) (turn : AgentTurn)
    (commit : LoopProc (Except LoopStop ToolAppendOutcome)) (pendingCommands : List ThreadCommand)
    (broken : CommitBreak) : LoopM (ToolBatchAwaitOutcome × List ThreadCommand) := do
  match ← awaitRest commit with
  | .error error  => return (.completed (.error error), pendingCommands)
  | .ok committed =>
    match broken with
    | .runtimeCancelled => do
      ask .cancelTurn
      joinTurn fuel turn .cancelled runtimeCancellationReason
      return (.cancelled runtimeCancellationReason, pendingCommands)
    | .mustWait command => do
      let (outcome, pendingCommands) ← handleToolBatchCommand setup fuel turn false
        pendingCommands command
      return (outcome.getD (.completed (.ok committed)), pendingCommands)
    | .outcome outcome => return (outcome, pendingCommands)

/-- The second loop of `append_tool_results_while_handling_commands`. -/
def commitToolBatch (fuel : Nat) (turn : AgentTurn) (batch : PreparedToolBatch)
    (pendingCommands : List ThreadCommand) : LoopM (ToolBatchAwaitOutcome × List ThreadCommand) := do
  match ← attend (handleDuringCommit setup fuel turn)
      (appendToolResults fuel turn.coordinates turn.turnId batch).run pendingCommands with
  | .finished result pendingCommands => do
    let result ← settled result
    return (.completed result, pendingCommands)
  | .interrupted commit broken pendingCommands =>
    finishBrokenCommit setup fuel turn commit pendingCommands broken

def appendToolResultsWhileHandlingCommands (fuel : Nat) (runtime : AgentLoop φ) (turn : AgentTurn)
    (calls : List ProviderToolCall) (assistantEntryId : SessionEntryId)
    (pendingCommands : List ThreadCommand) :
    LoopM (ToolBatchAwaitOutcome × List ThreadCommand) := do
  match ← attend (handleDuringPreparation setup fuel turn)
      (prepareToolResults setup runtime turn.coordinates turn.turnId calls assistantEntryId).run
      pendingCommands with
  | .finished result pendingCommands => do
    match ← settled result with
    | .error error => return (.completed (.error error), pendingCommands)
    | .ok batch    => commitToolBatch setup fuel turn batch pendingCommands
  | .interrupted preparation outcome pendingCommands => do
    let outcome ← finishBrokenBatch fuel turn preparation outcome
    return (outcome, pendingCommands)

end Verlet.Agent
