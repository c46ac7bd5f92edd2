import Verlet.Kernel.IngressWitness
import Verlet.Kernel.ProcessHandleDispatch
import Verlet.Support.Programs

/-!
# Kernel — Process handle dispatch — Starts

`dispatch_start_inner`: a process starts after its dispatch has been witnessed.  A call that finds the
witness of an earlier one answers from the live registry or fails; one that finds none submits a
witness with a process id of its own, reads the witnesses again, and starts the backend only if the
binding it reads is its own.

The monitor of a process and the delivery of a setup failure go on in tasks of their own; so does the
start, whose result a call waits for.
-/

namespace Verlet.Kernel
open Support Io History RemoteStore

/-! ### Durable witnesses -/

/-- `serde_json::from_value`, with the text of its failure. -/
def decodeAs {α : Type} (serde : Serde α) (text : String) (value : Json) : VerletResult α :=
  match serde.fromValue value with
  | .ok a      => .ok a
  | .error err => .error (historyText (text ++ err))

/-- What an event says of the dispatch, to `fold_dispatch`. -/
def readDispatch (dispatchId : DispatchId) (event : EventRecord) :
    VerletResult (Option HandleDispatchEnvelope) :=
  if event.kind ≠ .ioIngressReceived then .ok none
  else if (((event.payload.index "content").index "payload").index "dispatch_id").asStr ≠
      some dispatchId.text then .ok none
  else do
    let witness ← decodeAs Wire.ingressReceived "decode ingress witness: " event.payload
    match witness.content with
    | none =>
      throw (historyText ("process dispatch " ++ dispatchId.text ++
        " witness omitted its fold content"))
    | some content => do
      let content ← decodeAs Wire.ingressContent "decode process dispatch content: " content
      match content with
      | .event kind payload =>
        if kind ≠ handleDispatchContentKind then
          throw (historyText ("process dispatch " ++ dispatchId.text ++
            " witness has content kind " ++ kind))
        else some <$> decodeAs Wire.dispatchEnvelope "decode process dispatch envelope: " payload
      | _ =>
        throw (historyText ("process dispatch " ++ dispatchId.text ++
          " witness is not event content"))

/-- The loop's step. -/
def keepDispatch (dispatchId : DispatchId) (found : Option HandleDispatchEnvelope)
    (event : EventRecord) : VerletResult (Option HandleDispatchEnvelope) := do
  match ← readDispatch dispatchId event with
  | none         => return found
  | some binding =>
    if found.any fun existing => existing ≠ binding then
      throw (historyText ("process dispatch " ++ dispatchId.text ++
        " has conflicting durable witnesses"))
    else return some binding

/-- `fold_dispatch`, of the consumer's control stream. -/
def foldDispatch (dispatchId : DispatchId) (events : List EventRecord) :
    VerletResult (Option HandleDispatchEnvelope) := events.foldlM (keepDispatch dispatchId) none

variable {dispatchId : DispatchId} {found : Option HandleDispatchEnvelope}

theorem keepDispatch_some {binding : HandleDispatchEnvelope} {event : EventRecord}
    (h : keepDispatch dispatchId (some binding) event = .ok found) : found = some binding := by
  obtain ⟨read, -, h⟩ := bind_ok.mp h
  cases read with
  | none => exact (Except.ok.inj h).symm
  | some other =>
    dsimp only at h
    split at h
    · cases h
    · rename_i hsame
      simp only [Option.any_some, decide_not, Bool.not_eq_true, Bool.not_eq_false',
        decide_eq_true_eq] at hsame
      rw [hsame]
      exact (Except.ok.inj h).symm

variable {events : List EventRecord}

theorem foldlM_keepDispatch_some {binding : HandleDispatchEnvelope}
    (h : events.foldlM (keepDispatch dispatchId) (some binding) = .ok found) :
    found = some binding := by
  induction events with
  | nil => exact (Except.ok.inj h).symm
  | cons event events ih =>
    rw [List.foldlM_cons] at h
    obtain ⟨kept, hkept, h⟩ := bind_ok.mp h
    obtain rfl := keepDispatch_some hkept
    exact ih h

/-- **A binding that is read stays the binding**, wherever one is read. -/
theorem foldDispatch_stable {events' : List EventRecord} {binding : HandleDispatchEnvelope}
    (hpre : events <+: events') (h : foldDispatch dispatchId events = .ok (some binding))
    (h' : foldDispatch dispatchId events' = .ok found) : found = some binding := by
  obtain ⟨later, rfl⟩ := hpre
  rw [foldDispatch, List.foldlM_append] at h'
  obtain ⟨kept, hkept, h'⟩ := bind_ok.mp h'
  obtain rfl : some binding = kept := Except.ok.inj (h.symm.trans hkept)
  exact foldlM_keepDispatch_some h'

theorem foldDispatch_some {binding : HandleDispatchEnvelope}
    (h : foldDispatch dispatchId events = .ok (some binding)) :
    ∃ event ∈ events, readDispatch dispatchId event = .ok (some binding) := by
  unfold foldDispatch at h
  induction events with
  | nil => cases h
  | cons event events ih =>
    rw [List.foldlM_cons] at h
    obtain ⟨kept, hkept, h⟩ := bind_ok.mp h
    obtain ⟨read, hread, hkept⟩ := bind_ok.mp hkept
    cases read with
    | none =>
      obtain rfl : none = kept := Except.ok.inj hkept
      obtain ⟨found, hfound, hreads⟩ := ih h
      exact ⟨found, List.mem_cons_of_mem _ hfound, hreads⟩
    | some first =>
      obtain rfl : some first = kept := Except.ok.inj hkept
      obtain rfl := Option.some.inj (foldlM_keepDispatch_some h)
      exact ⟨event, List.mem_cons_self, hread⟩

/-- `parse_process_handle`, with the texts of `uuid`'s errors. -/
def parseProcessHandle (uuidError : String → String) (binding : HandleDispatchEnvelope) :
    VerletResult Uuid :=
  if binding.handle.kind ≠ .process then
    .error (historyText ("dispatch " ++ binding.dispatchId.text ++ " is not bound to a process handle"))
  else
    match Uuid.parseStr binding.handle.id with
    | some processId => .ok processId
    | none           =>
      .error (historyText ("dispatch " ++ binding.dispatchId.text ++
        " has invalid process handle: " ++ uuidError binding.handle.id))

/-! ### Starts -/

inductive LiveProcessInvocation where
  | hostCommand (command : List String) (cwd : String) (env : List (String × Option String))
      (pipeStdin : Bool)
  | virtualBashScript (script : String)
  | virtualLabel (label : String)

/-- `AsyncProcessStartRequest`: what a dispatch puts into it, and what it passes on. -/
structure AsyncProcessStartRequest where
  processId : Option Uuid
  invocation : LiveProcessInvocation
  outputCapBytes : Nat
  retainTerminalUntilAcknowledged : Bool

/-- `with_process_id` and `retain_terminal_until_acknowledged`. -/
def AsyncProcessStartRequest.dispatched (request : AsyncProcessStartRequest) (processId : Uuid) :
    AsyncProcessStartRequest :=
  { request with
    processId := some processId
    retainTerminalUntilAcknowledged := true }

inductive ProcessSnapshotStatus where
  | running
  | completed
  | failed
  | timedOut
  | cancelled
deriving DecidableEq

structure AsyncProcessOutcome where
  processId : Option Uuid
  status : ProcessSnapshotStatus
deriving DecidableEq

/-- The text of a `VerletProcessError`. -/
abbrev ProcessResult (α : Type) := Except String α

inductive DispatchCall where
  /-- The lock of the dispatch in `locks`, a new one if there is none. -/
  | dispatchLock (dispatchId : DispatchId)
  | lock (lock : Nat)
  | unlock (lock : Nat)
  | readControlEvents (consumer : ThreadCoordinates)
  /-- `VerletProcessId::new`. -/
  | newProcessId
  | nowMs
  | submitProcessHandleEnvelope (envelope : IngressEnvelope)
  | insertBinding (processId : Uuid) (binding : HandleDispatchEnvelope)
  | removeBinding (processId : Uuid)
  /-- The entry of the dispatch in `locks` goes, if it is the lock. -/
  | releaseEntry (dispatchId : DispatchId) (lock : Nat)
  /-- `manager.snapshot`. -/
  | snapshot (processId : Uuid) (outputCapBytes : Nat)
  /-- `terminal_monitors.insert`: the id was not there. -/
  | insertMonitor (processId : Uuid)
  | removeMonitor (processId : Uuid)
  /-- The monitor is accepted. -/
  | spawnMonitor (binding : HandleDispatchEnvelope)
  /-- `deliver_setup_failure`, until it is delivered or its owner stops. -/
  | deliverSetupFailure (binding : HandleDispatchEnvelope) (reason : String)
  | cleanupExpired
  /-- `process_ids.next_process_id`. -/
  | nextProcessId
  /-- `backend.start`. -/
  | backendStart (processId : Uuid) (request : AsyncProcessStartRequest)
  /-- The entry of the process in the manager, if there is room. -/
  | insertEntry (processId : Uuid) (request : AsyncProcessStartRequest)
  | waitForSnapshot (processId : Uuid) (outputCapBytes : Nat)
  /-- The start task: what it failed with, other than its result. -/
  | joinStart

def DispatchCall.Reply : DispatchCall → Type
  | .dispatchLock _                => Nat
  | .lock _                        => Unit
  | .unlock _                      => Unit
  | .readControlEvents _           => HistoryResult (List EventRecord)
  | .newProcessId                  => Uuid
  | .nowMs                         => Nat
  | .submitProcessHandleEnvelope _ => VerletResult Unit
  | .insertBinding _ _             => Unit
  | .removeBinding _               => Unit
  | .releaseEntry _ _              => Unit
  | .snapshot _ _                  => ProcessResult AsyncProcessOutcome
  | .insertMonitor _               => Bool
  | .removeMonitor _               => Unit
  | .spawnMonitor _                => Bool
  | .deliverSetupFailure _ _       => Unit
  | .cleanupExpired                => Unit
  | .nextProcessId                 => Uuid
  | .backendStart _ _              => ProcessResult Unit
  | .insertEntry _ _               => ProcessResult Unit
  | .waitForSnapshot _ _           => ProcessResult AsyncProcessOutcome
  | .joinStart                     => Option String

abbrev DispatchM (α : Type) := ExceptT VerletError (Proc DispatchCall DispatchCall.Reply) α

namespace DispatchM

def ask (call : DispatchCall) : DispatchM call.Reply := Proc.await call

def given {α : Type} (result : VerletResult α) : DispatchM α := Proc.settle result

end DispatchM

open DispatchM

/-- The arguments of `dispatch_start_inner`, and what it finds around it. -/
structure DispatchStart where
  consumer : ThreadCoordinates
  dispatchId : DispatchId
  commandDigest : String
  request : AsyncProcessStartRequest

def DispatchStart.binding (call : DispatchStart) (processId : Uuid) : HandleDispatchEnvelope :=
  ⟨call.dispatchId, .process processId.text, call.consumer, call.commandDigest⟩

/-- `start_cancellable`, of the execution manager. -/
def startCancellable (request : AsyncProcessStartRequest) :
    DispatchM (ProcessResult AsyncProcessOutcome) := do
  let _ ← ask .cleanupExpired
  let processId ← match request.processId with
    | some processId => pure processId
    | none           => ask .nextProcessId
  let spawned ← ask (.backendStart processId request)
  match spawned with
  | .error err => return .error err
  | .ok _      => do
    let inserted ← ask (.insertEntry processId request)
    match inserted with
    | .error err => return .error err
    | .ok _      => ask (.waitForSnapshot processId request.outputCapBytes)

def ensureTerminalMonitor (uuidError : String → String) (binding : HandleDispatchEnvelope) :
    DispatchM Unit :=
  match parseProcessHandle uuidError binding with
  | .error _      => return ()
  | .ok processId => do
    let inserted : Bool ← ask (.insertMonitor processId)
    if inserted then
      let accepted : Bool ← ask (.spawnMonitor binding)
      if accepted then return ()
      else ask (.removeMonitor processId)
    else return ()

def forgetSettledBinding (dispatchId : DispatchId) (processId : Uuid) (lock : Nat) :
    DispatchM Unit := do
  let _ ← ask (.removeBinding processId)
  ask (.releaseEntry dispatchId lock)

def startTask (uuidError : String → String) (call : DispatchStart) (processId : Uuid) (lock : Nat) :
    DispatchM (VerletResult AsyncProcessOutcome) := do
  let started ← startCancellable (call.request.dispatched processId)
  match started with
  | .ok outcome => do
    ensureTerminalMonitor uuidError (call.binding processId)
    return .ok outcome
  | .error err => do
    let _ ← ask (.deliverSetupFailure (call.binding processId) err)
    forgetSettledBinding call.dispatchId processId lock
    return .error (.runtimeExecution err)

def resumeDispatch (uuidError : String → String) (call : DispatchStart) (lock : Nat)
    (binding : HandleDispatchEnvelope) : DispatchM AsyncProcessOutcome := do
  given (validateBinding binding call.consumer call.dispatchId call.commandDigest)
  let processId ← given (parseProcessHandle uuidError binding)
  let _ ← ask (.insertBinding processId binding)
  let snapshot ← ask (.snapshot processId call.request.outputCapBytes)
  match snapshot with
  | .ok outcome => do
    ensureTerminalMonitor uuidError binding
    return outcome
  | .error _ => do
    forgetSettledBinding call.dispatchId processId lock
    throw (.runtimeExecution ("process dispatch " ++ call.dispatchId.text ++
      " is durably claimed by handle " ++ processId.text ++
      ", but its live registry entry is gone; refusing to re-execute"))

def yieldDispatch (uuidError : String → String) (call : DispatchStart) (lock : Nat)
    (folded : HandleDispatchEnvelope) : DispatchM AsyncProcessOutcome := do
  given (validateBinding folded call.consumer call.dispatchId call.commandDigest)
  let originalId ← given (parseProcessHandle uuidError folded)
  let _ ← ask (.insertBinding originalId folded)
  let snapshot ← ask (.snapshot originalId call.request.outputCapBytes)
  match snapshot with
  | .ok outcome => return outcome
  | .error _    => do
    forgetSettledBinding call.dispatchId originalId lock
    throw (.runtimeExecution ("process dispatch " ++ call.dispatchId.text ++
      " lost the durable serialization race and original handle " ++ originalId.text ++
      " is not in this live registry; refusing to re-execute"))

def startDispatch (uuidError : String → String) (call : DispatchStart) (processId : Uuid)
    (lock : Nat) : DispatchM AsyncProcessOutcome := do
  let _ ← ask (.insertBinding processId (call.binding processId))
  let result ← startTask uuidError call processId lock
  let joined ← ask .joinStart
  match joined with
  | some err =>
    throw (.runtimeExecution ("process dispatch " ++ call.dispatchId.text ++
      " start task failed: " ++ err))
  | none => given result

/-- `fold_dispatch`. -/
def readFold (consumer : ThreadCoordinates) (dispatchId : DispatchId) :
    DispatchM (Option HandleDispatchEnvelope) := do
  let answer ← ask (.readControlEvents consumer)
  given (orHistory answer >>= foldDispatch dispatchId)

def bindDispatch (sha256Hex uuidError : String → String) (call : DispatchStart) (lock : Nat) :
    DispatchM AsyncProcessOutcome := do
  let processId ← ask .newProcessId
  let nowMs ← ask .nowMs
  let submitted ← ask (.submitProcessHandleEnvelope
    (dispatchEnvelope sha256Hex (call.binding processId) nowMs))
  given submitted
  match ← readFold call.consumer call.dispatchId with
  | none =>
    throw (historyText ("process dispatch " ++ call.dispatchId.text ++
      " was acknowledged but its durable witness was not observable"))
  | some folded =>
    if folded ≠ call.binding processId then yieldDispatch uuidError call lock folded
    else startDispatch uuidError call processId lock

def dispatchLocked (sha256Hex uuidError : String → String) (call : DispatchStart) (lock : Nat) :
    DispatchM AsyncProcessOutcome := do
  match ← readFold call.consumer call.dispatchId with
  | some binding => resumeDispatch uuidError call lock binding
  | none         => bindDispatch sha256Hex uuidError call lock

def dispatchStartInner (sha256Hex uuidError : String → String) (call : DispatchStart) :
    DispatchM AsyncProcessOutcome := do
  let lock ← ask (.dispatchLock call.dispatchId)
  let _ ← ask (.lock lock)
  Proc.ending (dispatchLocked sha256Hex uuidError call lock)
    (Proc.perform (DispatchCall.unlock lock))

end Verlet.Kernel
