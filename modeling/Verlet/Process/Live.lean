import Verlet.Contracts.Values
import Verlet.Support.Maps
import Verlet.Support.Pools
import Verlet.Support.Programs

/-!
# Process — The live registry

`AsyncExecutionManager`: the processes that run, by id.  Every method is a program whose calls are the
sections under the lock of the entries, what it reads of a process or of the clock outside it, and its
awaits; between two of them any other method may take a step, a process may record an event, and time goes
by.

A process is named by the place of its handle in `processes`, which outlives its entry.  What a backend does
is its events; that it started, and what it recorded before its entry was inserted, is part of the section
that inserts it.
-/

namespace Verlet.Process
open Support

/-! ### Processes and their events -/

/-- `VerletProcessEventKind`.  The kinds that no snapshot folds are `other`. -/
inductive EventKind where
  | started (command : Option String)
  | stdout (bytes : List UInt8)
  | stderr (bytes : List UInt8)
  | outputTruncated (stdout stderr : Bool)
  | other
  | completed (code : Option Int) (success : Bool)
  | failed (code message : String)
  | cancelled (reason : String)
  | timedOut (timeoutMs : Option Nat) (message : String)

def EventKind.isTerminal : EventKind → Bool
  | .completed _ _ | .failed _ _ | .cancelled _ | .timedOut _ _ => true
  | _ => false

/-- `VerletProcessHandle`, with the token its backend was given. -/
structure ProcessHandle where
  processId : Uuid
  backend : String
  label : String
  cancellation : Nat
  events : List EventKind

/-- `output().terminal`: the last terminal event. -/
def ProcessHandle.terminal (process : ProcessHandle) : Option EventKind :=
  (process.events.filter EventKind.isTerminal).getLast?

inductive ProcessSnapshotStatus where
  | running
  | completed
  | failed
  | timedOut
  | cancelled
deriving DecidableEq

def snapshotStatus : Option EventKind → ProcessSnapshotStatus
  | some (.completed _ _) => .completed
  | some (.failed _ _)    => .failed
  | some (.timedOut _ _)  => .timedOut
  | some (.cancelled _)   => .cancelled
  | _                     => .running

def exitCode : Option EventKind → Option Int
  | some (.completed code _) => code
  | some (.timedOut _ _)     => some 124
  | some (.cancelled _)      => some 130
  | some (.failed _ _)       => some 1
  | _                        => none

structure AsyncProcessSnapshot where
  processId : Uuid
  backend : String
  label : String
  status : ProcessSnapshotStatus
  exitCode : Option Int
  stdout : List UInt8
  stderr : List UInt8
  stdoutTruncated : Bool
  stderrTruncated : Bool
  events : List EventKind

def streamBytes (pick : EventKind → Option (List UInt8)) (events : List EventKind) : List UInt8 :=
  (events.filterMap pick).flatten

def snapshotFromProcess (process : ProcessHandle) (maxOutputBytes : Nat) : AsyncProcessSnapshot :=
  let stdout := streamBytes (fun | .stdout bytes => some bytes | _ => none) process.events
  let stderr := streamBytes (fun | .stderr bytes => some bytes | _ => none) process.events
  { processId := process.processId
    backend := process.backend
    label := process.label
    status := snapshotStatus process.terminal
    exitCode := exitCode process.terminal
    stdout := stdout.take maxOutputBytes
    stderr := stderr.take maxOutputBytes
    stdoutTruncated := process.events.any (fun | .outputTruncated stdout _ => stdout | _ => false) ||
      maxOutputBytes < stdout.length
    stderrTruncated := process.events.any (fun | .outputTruncated _ stderr => stderr | _ => false) ||
      maxOutputBytes < stderr.length
    events := process.events }

def giveReason (reason : String) : List EventKind → List EventKind
  | [] => []
  | .cancelled _ :: earlier => .cancelled reason :: earlier
  | event :: earlier        => event :: giveReason reason earlier

def applyTerminationReason (snapshot : AsyncProcessSnapshot) (reason : Option String) :
    AsyncProcessSnapshot :=
  match reason with
  | none        => snapshot
  | some reason =>
    if snapshot.status = .cancelled then
      { snapshot with events := (giveReason reason snapshot.events.reverse).reverse }
    else snapshot

/-! ### The registry -/

structure AsyncExecutionManagerConfig where
  idleTimeout : Nat
  maxProcesses : Nat

/-- `AsyncProcessStartRequest`, as far as the registry reads it. -/
structure AsyncProcessStartRequest where
  processId : Option Uuid
  backend : String
  label : String
  /-- When its deadline has nothing remaining. -/
  deadline : Nat
  idleTimeout : Option Nat
  outputCapBytes : Nat
  yieldTime : Nat
  retainTerminalUntilAcknowledged : Bool

structure ProcessEntry where
  process : Nat
  stdin : Bool
  cancellation : Nat
  deadline : Nat
  idleTimeout : Nat
  lastUsed : Nat
  terminationReason : Option String
  retainTerminalUntilAcknowledged : Bool

/-- The entries, and what they are about: the handle of every process that was started, the tokens that have
been cancelled, and the time.  `returned` is history: the processes whose terminal snapshot a call has
returned. -/
structure Registry where
  now : Nat
  processes : List ProcessHandle
  cancelled : List Nat
  entries : Map Uuid ProcessEntry
  returned : List Nat

namespace Registry

/-- Nothing has been started. -/
def new : Registry := ⟨0, [], [], ∅, []⟩

variable (s : Registry)

def Terminal (process : Nat) : Prop :=
  ∃ handle, s.processes[process]? = some handle ∧ handle.terminal ≠ none

/-- `output().terminal.is_some()` of the handle of an entry. -/
def isTerminal (process : Nat) : Bool :=
  (s.processes[process]?.bind ProcessHandle.terminal).isSome

/-- `idle_expired`, by a clock that said `now`. -/
def idleExpired (now : Nat) (entry : ProcessEntry) : Bool := entry.idleTimeout < now - entry.lastUsed

def cancel (token : Nat) : Registry := { s with cancelled := token :: s.cancelled }

def record (process : Nat) (event : EventKind) : Registry :=
  { s with processes := s.processes.modify process fun handle =>
      { handle with events := handle.events ++ [event] } }

def update (processId : Uuid) (entry : ProcessEntry) : Registry :=
  { s with entries := s.entries.insert processId entry }

/-- The section of `start_cancellable`, after the backend has started: what it had recorded by then, and
whether it takes input. -/
def register (config : AsyncExecutionManagerConfig) (request : AsyncProcessStartRequest)
    (processId : Uuid) (cancellation : Nat) (events : List EventKind) (stdin : Bool) (s : Registry) :
    Except String Unit × Registry :=
  let handle : ProcessHandle := ⟨processId, request.backend, request.label, cancellation, events⟩
  let s' := { s with processes := s.processes ++ [handle] }
  if config.maxProcesses ≤ s.entries.size then
    (.error "async process limit reached", s'.cancel cancellation)
  else
    (.ok (), s'.update processId {
      process := s.processes.length
      stdin
      cancellation
      deadline := request.deadline
      idleTimeout := request.idleTimeout.getD config.idleTimeout
      lastUsed := s.now
      terminationReason := none
      retainTerminalUntilAcknowledged := request.retainTerminalUntilAcknowledged })

/-- What `cleanup_expired` would do with an entry: remove it, or cancel its process. -/
def expires (now : Nat) (entry : ProcessEntry) : Bool :=
  s.isTerminal entry.process && idleExpired now entry && !entry.retainTerminalUntilAcknowledged

def overdue (now : Nat) (entry : ProcessEntry) : Bool :=
  !s.isTerminal entry.process && (idleExpired now entry || entry.deadline ≤ s.now)

/-- The first section of `cleanup_expired`. -/
def cleanupScan (now : Nat) (s : Registry) : List Uuid × Registry :=
  let listed : List (Uuid × ProcessEntry) := s.entries.entries.map fun e => (e.1, e.2)
  ((listed.filter fun e => s.expires now e.2).map (·.1),
    { s with cancelled := (listed.filter fun e => s.overdue now e.2).map (·.2.cancellation) ++ s.cancelled })

/-- The second section of `cleanup_expired`. -/
def cleanupRemove (remove : List Uuid) (s : Registry) : Registry :=
  { s with entries := remove.foldl (fun entries processId => entries.erase processId) s.entries }

/-- `process {process_id} was not found`. -/
def notFound (processId : Uuid) : String := "process " ++ processId.text ++ " was not found"

def withEntry {α : Type} (processId : Uuid) (f : ProcessEntry → Except String α × Registry)
    (s : Registry) : Except String α × Registry :=
  match s.entries.lookup processId with
  | none       => (.error (notFound processId), s)
  | some entry => f entry

def touch (processId : Uuid) (s : Registry) : Except String Unit × Registry :=
  s.withEntry processId fun entry => (.ok (), s.update processId { entry with lastUsed := s.now })

/-- The section of `write`. -/
def takeStdin (processId : Uuid) (s : Registry) : Except String Nat × Registry :=
  s.withEntry processId fun entry =>
    (if entry.stdin then .ok entry.process
      else .error ("process " ++ processId.text ++ " does not support stdin writes"),
      s.update processId { entry with lastUsed := s.now })

/-- The section of `terminate`, and the `cancel` after it. -/
def terminateEntry (processId : Uuid) (reason : String) (s : Registry) : Except String Unit × Registry :=
  s.withEntry processId fun entry =>
    (.ok (), (s.update processId { entry with lastUsed := s.now, terminationReason := some reason }).cancel
      entry.cancellation)

/-- The section of `acknowledge_terminal`. -/
def acknowledge (processId : Uuid) (s : Registry) : Except String Bool × Registry :=
  match s.entries.lookup processId with
  | none       => (.ok false, s)
  | some entry =>
    if s.isTerminal entry.process then (.ok true, { s with entries := s.entries.erase processId })
    else (.error ("process " ++ processId.text ++ " is not terminal"), s)

def giveBack (process : Nat) (snapshot : AsyncProcessSnapshot) (s : Registry) : Registry :=
  if snapshot.status = .running then s else { s with returned := process :: s.returned }

end Registry

/-! ### The steps of the methods -/

/-- One step of a method. -/
inductive Section where
  | clock
  | cleanupScan (now : Nat)
  | cleanupRemove (remove : List Uuid)
  | nextProcessId
  /-- The backend starts, and the section that inserts the entry. -/
  | register (request : AsyncProcessStartRequest) (processId : Uuid) (cancellation : Nat)
  | touch (processId : Uuid)
  | takeStdin (processId : Uuid)
  /-- `stdin.send`. -/
  | send (process : Nat) (bytes : List UInt8)
  | terminate (processId : Uuid) (reason : String)
  /-- The first section of `wait_for_snapshot` and of `snapshot`. -/
  | look (processId : Uuid)
  /-- `snapshot_from_process`, outside the lock. -/
  | observe (process maxOutputBytes : Nat)
  | terminationReason (processId : Uuid)
  /-- `entries.remove` by a call that has this terminal snapshot of `process`, and returns it. -/
  | removeTerminal (processId : Uuid) (process : Nat) (snapshot : AsyncProcessSnapshot)
  /-- A call returns this snapshot of `process`. -/
  | giveBack (process : Nat) (snapshot : AsyncProcessSnapshot)
  | recv (remaining : Nat)
  /-- Still waiting. -/
  | wait
  | acknowledge (processId : Uuid)

/-- What the first section of `wait_for_snapshot` reads of an entry. -/
structure Looked where
  process : Nat
  retain : Bool
  terminationReason : Option String

def Section.Answer : Section → Type
  | .clock                => Nat
  | .cleanupScan _        => List Uuid
  | .cleanupRemove _      => Unit
  | .nextProcessId        => Uuid
  | .register _ _ _       => Except String Unit
  | .touch _              => Except String Unit
  | .takeStdin _          => Except String Nat
  | .send _ _             => Except String Unit
  | .terminate _ _        => Except String Unit
  | .look _               => Except String Looked
  | .observe _ _          => AsyncProcessSnapshot
  | .terminationReason _  => Option String
  | .removeTerminal _ _ _ => Unit
  | .giveBack _ _         => Unit
  | .recv _               => Unit
  | .wait                 => Empty
  | .acknowledge _        => Except String Bool

/-- How a step may be served. -/
def serves (config : AsyncExecutionManagerConfig) :
    (e : Section) → Registry → e.Answer → Registry → Prop
  | .clock, s, answer, s'           => answer = s.now ∧ s' = s
  | .cleanupScan now, s, answer, s' => (answer, s') = s.cleanupScan now
  | .cleanupRemove remove, s, _, s' => s' = s.cleanupRemove remove
  | .nextProcessId, s, _, s'        => s' = s
  | .register request processId cancellation, s, answer, s' =>
    ((∃ err, answer = .error err) ∧ s' = s) ∨
      ∃ events stdin, (answer, s') = s.register config request processId cancellation events stdin
  | .touch processId, s, answer, s' => (answer, s') = s.touch processId
  | .takeStdin processId, s, answer, s' => (answer, s') = s.takeStdin processId
  | .send _ _, s, _, s' => s' = s
  | .terminate processId reason, s, answer, s' => (answer, s') = s.terminateEntry processId reason
  | .look processId, s, answer, s' =>
    (answer, s') = s.withEntry processId fun entry =>
      (.ok ⟨entry.process, entry.retainTerminalUntilAcknowledged, entry.terminationReason⟩, s)
  | .observe process maxOutputBytes, s, answer, s' =>
    (∀ handle, s.processes[process]? = some handle →
      answer = snapshotFromProcess handle maxOutputBytes) ∧ s' = s
  | .terminationReason processId, s, answer, s' =>
    answer = (s.entries.lookup processId).bind ProcessEntry.terminationReason ∧ s' = s
  | .removeTerminal processId process snapshot, s, _, s' =>
    s' = { s with entries := s.entries.erase processId }.giveBack process snapshot
  | .giveBack process snapshot, s, _, s'  => s' = s.giveBack process snapshot
  | .recv _, s, _, s'                     => s' = s
  | .wait, _, _, _                        => False
  | .acknowledge processId, s, answer, s' => (answer, s') = s.acknowledge processId

/-- What happens besides: time goes by, a process records an event, the owner of a token cancels it. -/
inductive Moves (s : Registry) : Registry → Prop
  | time (elapsed : Nat) : Moves s { s with now := s.now + elapsed }
  | event (process : Nat) (event : EventKind) : Moves s (s.record process event)
  | cancel (token : Nat) : Moves s (s.cancel token)

/-! ### The methods -/

/-- A method of the manager. -/
abbrev ProcessM := ExceptT String (Proc Section Section.Answer)

/-- One step. -/
def ask (e : Section) : ProcessM e.Answer := Proc.await e

/-- What a step answers, or its failure. -/
def orFail {α : Type} (result : Except String α) : ProcessM α := Proc.settle result

/-- The second section of `cleanup_expired`, where there is something to remove. -/
def removeExpired : List Uuid → ProcessM Unit
  | []     => pure ()
  | remove => ask (.cleanupRemove remove)

def cleanupExpired : ProcessM Unit := do
  let now : Nat ← ask .clock
  removeExpired (← ask (.cleanupScan now))

/-- The loop of `wait_for_snapshot`, for at most `rounds` rounds. -/
def waitLoop (processId : Uuid) (looked : Looked) (deadline maxOutputBytes : Nat) :
    Nat → ProcessM AsyncProcessSnapshot
  | 0          => do nomatch ← ask .wait
  | rounds + 1 => do
    let observed : AsyncProcessSnapshot ← ask (.observe looked.process maxOutputBytes)
    let reason : Option String ← ask (.terminationReason processId)
    let snapshot := applyTerminationReason observed reason
    let now : Nat ← ask .clock
    if snapshot.status ≠ .running ∨ deadline ≤ now then
      if snapshot.status ≠ .running ∧ looked.retain = false then
        ask (.removeTerminal processId looked.process snapshot)
      else ask (.giveBack looked.process snapshot)
      return snapshot
    else
      let now : Nat ← ask .clock
      if deadline - now = 0 then
        ask (.giveBack looked.process snapshot)
        return snapshot
      else
        ask (.recv (deadline - now))
        waitLoop processId looked deadline maxOutputBytes rounds

def waitForSnapshot (rounds : Nat) (processId : Uuid) (yieldTime maxOutputBytes : Nat) :
    ProcessM AsyncProcessSnapshot := do
  let looked ← orFail (← ask (.look processId))
  let now : Nat ← ask .clock
  waitLoop processId looked (now + yieldTime) maxOutputBytes rounds

/-- `unwrap_or_else(|| next_process_id())`. -/
def chooseProcessId : Option Uuid → ProcessM Uuid
  | some processId => pure processId
  | none           => ask .nextProcessId

def startCancellable (rounds : Nat) (request : AsyncProcessStartRequest) (cancellation : Nat) :
    ProcessM AsyncProcessSnapshot := do
  cleanupExpired
  let processId ← chooseProcessId request.processId
  orFail (← ask (.register request processId cancellation))
  waitForSnapshot rounds processId request.yieldTime request.outputCapBytes

def poll (rounds : Nat) (processId : Uuid) (yieldTime maxOutputBytes : Nat) :
    ProcessM AsyncProcessSnapshot := do
  orFail (← ask (.touch processId))
  waitForSnapshot rounds processId yieldTime maxOutputBytes

def write (rounds : Nat) (processId : Uuid) (bytes : List UInt8) (yieldTime maxOutputBytes : Nat) :
    ProcessM AsyncProcessSnapshot := do
  let process ← orFail (← ask (.takeStdin processId))
  match ← ask (.send process bytes) with
  | .error _ => throw ("process " ++ processId.text ++ " stdin is closed")
  | .ok _    => waitForSnapshot rounds processId yieldTime maxOutputBytes

def terminate (rounds : Nat) (processId : Uuid) (reason : String) (yieldTime maxOutputBytes : Nat) :
    ProcessM AsyncProcessSnapshot := do
  orFail (← ask (.terminate processId reason))
  waitForSnapshot rounds processId yieldTime maxOutputBytes

def snapshot (processId : Uuid) (maxOutputBytes : Nat) : ProcessM AsyncProcessSnapshot := do
  let looked ← orFail (← ask (.look processId))
  let observed : AsyncProcessSnapshot ← ask (.observe looked.process maxOutputBytes)
  let snapshot := applyTerminationReason observed looked.terminationReason
  ask (.giveBack looked.process snapshot)
  return snapshot

def acknowledgeTerminal (processId : Uuid) : ProcessM Bool := do
  orFail (← ask (.acknowledge processId))

/-- What a call comes to. -/
inductive Outcome where
  | snapshot (snapshot : AsyncProcessSnapshot)
  | acknowledged (found : Bool)
  | cleaned

abbrev Call := Proc Section Section.Answer (Except String Outcome)

/-- The calls that may be made. -/
inductive Starts : Call → Prop
  | startCancellable (rounds : Nat) (request : AsyncProcessStartRequest) (cancellation : Nat) :
      Starts (Outcome.snapshot <$> startCancellable rounds request cancellation).run
  | poll (rounds : Nat) (processId : Uuid) (yieldTime maxOutputBytes : Nat) :
      Starts (Outcome.snapshot <$> poll rounds processId yieldTime maxOutputBytes).run
  | write (rounds : Nat) (processId : Uuid) (bytes : List UInt8) (yieldTime maxOutputBytes : Nat) :
      Starts (Outcome.snapshot <$> write rounds processId bytes yieldTime maxOutputBytes).run
  | terminate (rounds : Nat) (processId : Uuid) (reason : String) (yieldTime maxOutputBytes : Nat) :
      Starts (Outcome.snapshot <$> terminate rounds processId reason yieldTime maxOutputBytes).run
  | snapshot (processId : Uuid) (maxOutputBytes : Nat) :
      Starts (Outcome.snapshot <$> Process.snapshot processId maxOutputBytes).run
  | acknowledgeTerminal (processId : Uuid) :
      Starts (Outcome.acknowledged <$> acknowledgeTerminal processId).run
  | cleanupExpired : Starts ((fun _ => Outcome.cleaned) <$> cleanupExpired).run

abbrev Calls := Pool Nat Section Section.Answer (Except String Outcome) Registry

/-- What runs of the manager lead to. -/
abbrev Reachable (config : AsyncExecutionManagerConfig) (calls : Calls) : Prop :=
  Pool.Reachable (fun _ _ call => Starts call) (fun _ => serves config) Moves Registry.new calls

end Verlet.Process
