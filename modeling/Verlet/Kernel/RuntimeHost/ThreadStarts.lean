import Verlet.Kernel.RuntimeHost.ThreadContexts
import Verlet.Kernel.RuntimeHost.TurnReservations

/-!
# Kernel — The runtime host — Thread starts

The host's registered threads and the starts that are under way.  A start reserves its thread's id,
and keeps the reservation until its runtime is built and the thread is published, under both locks at
once.  From there on a guard takes the thread out again, unless the start gets to its end.

`fork_thread_from_checkpoint_with_id` finds out first how far an earlier fork of the same child got:
a start identity in the child's events, a cloned branch with its checkpoint, or nothing.

A future may be dropped wherever it awaits.  What its guards then spawn runs on by itself.
-/

namespace Verlet.Kernel
open Support History
open RemoteStore (VerletError VerletResult)

/-- `VerletError`, with what a start fails with besides. -/
inductive StartError where
  | host (error : HostError)
  | threadAlreadyExists (threadId : ThreadId)
  | runtimeFactory (message : String)
  /-- `reconciliation_read_error`. -/
  | reconciliationRead (operation : String) (append read : VerletError)
  | checkpointResumeRequiresRoot (checkpointId : ThreadCheckpointId)
      (threadId parentThreadId : ThreadId)
  | checkpointResumeLineageUnknown (checkpointId : ThreadCheckpointId) (threadId : ThreadId)

/-- `VerletError::History`. -/
def StartError.history (text : String) : StartError := .host (.kernel (historyText text))

inductive ThreadStatus where
  | starting
  | idle
  | running
  | cancelling
  | stopped
  | failed

inductive ThreadLifecycleStatus where
  | starting
  | idle
  | running
  | cancelling
  | stopped
  | failed

/-- The runtime events that starts and shutdowns emit. -/
inductive RuntimeEventKind where
  | timeout (operation : String) (timeoutMs : Nat)
  | policyRejected (code message : String)
  | recovery (action reason : String)
  | subthreadStarted (childThreadId : ThreadId)
  | subthreadFinished (childThreadId : ThreadId) (status : ThreadLifecycleStatus)
  | failed (code message : String)

/-- `RuntimeExecutionPolicy`, as far as starts, cancels and shutdowns read it. -/
structure HostPolicy where
  maxChildThreads : Option Nat
  cancelGraceTimeoutMs : Option Nat
  shutdownGraceTimeoutMs : Option Nat

/-- What a host is made with: its policy, and how a bound coupling set is decoded. -/
structure HostConfig where
  policy : HostPolicy
  decodeCouplingSet : String → Except String Unit

/-- A `RuntimeThread` behind its `Arc`: its context, and which one it is. -/
structure RuntimeThread (ι : Type) where
  context : ThreadContext
  arc : ι

/-- `RuntimeThread::context.coordinates.thread_id`. -/
def RuntimeThread.threadId {ι : Type} (thread : RuntimeThread ι) : ThreadId :=
  thread.context.coordinates.threadId

/-- `ThreadStartReservationState`: its context, and which watch it settles. -/
structure ThreadStartReservationState (ι : Type) where
  context : ThreadContext
  settled : ι

/-! ### The host's maps -/

/-- What the critical section of `reserve_thread_start` comes to. -/
inductive ReserveAnswer (ι : Type) where
  | reserved
  | alreadyExists
  | full (parentThreadId : ThreadId) (childCount maxChildThreads : Nat)
      (parent : Option (RuntimeThread ι))

/-- `RuntimeHostInner::threads` and `thread_start_reservations`. -/
structure HostMaps (ι : Type) where
  threads : Map ThreadId (RuntimeThread ι)
  reservations : Map ThreadId (ThreadStartReservationState ι)

namespace HostMaps

variable {ι : Type}

def empty : HostMaps ι := ⟨∅, ∅⟩

def childCount (maps : HostMaps ι) (parent : ThreadId) : Nat :=
  maps.threads.countValues (fun thread => thread.context.parentThreadId = some parent) +
    maps.reservations.countValues (fun start => start.context.parentThreadId = some parent)

def insertReservation (maps : HostMaps ι) (i : ι) (context : ThreadContext) : HostMaps ι :=
  { maps with reservations := maps.reservations.insert context.coordinates.threadId ⟨context, i⟩ }

/-- The critical section of `reserve_thread_start`, under both locks. -/
def reserveStart (maxChildThreads : Option Nat) (i : ι) (context : ThreadContext)
    (maps : HostMaps ι) : ReserveAnswer ι × HostMaps ι :=
  let threadId := context.coordinates.threadId
  if (maps.threads.lookup threadId).isSome ∨ (maps.reservations.lookup threadId).isSome then
    (.alreadyExists, maps)
  else
    match context.parentThreadId, maxChildThreads with
    | some parent, some max =>
      if max ≤ maps.childCount parent then
        (.full parent (maps.childCount parent) max (maps.threads.lookup parent), maps)
      else (.reserved, maps.insertReservation i context)
    | _, _ => (.reserved, maps.insertReservation i context)

/-- `ThreadStartReservation::drop`. -/
def releaseStart (threadId : ThreadId) (maps : HostMaps ι) : HostMaps ι :=
  { maps with reservations := maps.reservations.erase threadId }

def publish (i : ι) (context : ThreadContext) (maps : HostMaps ι) : RuntimeThread ι × HostMaps ι :=
  (⟨context, i⟩, {
    threads := maps.threads.insert context.coordinates.threadId ⟨context, i⟩
    reservations := maps.reservations.erase context.coordinates.threadId })

variable [DecidableEq ι]

def removeThreadIfCurrent (thread : RuntimeThread ι) (maps : HostMaps ι) : Bool × HostMaps ι :=
  match maps.threads.lookup thread.threadId with
  | some current =>
    if current.arc = thread.arc then
      (true, { maps with threads := maps.threads.erase thread.threadId })
    else (false, maps)
  | none => (false, maps)

end HostMaps

/-! ### Calls -/

inductive HostCall (ι : Type) where
  /-- The caller awaits here: it comes back, or is dropped. -/
  | suspended
  | getThread (threadId : ThreadId)
  | reserveStart (context : ThreadContext)
  | releaseStart (threadId : ThreadId)
  /-- There is a reservation of the id, and it is not settled. -/
  | subscribeStart (threadId : ThreadId)
  | buildRuntime (context : ThreadContext)
  | publish (context : ThreadContext)
  /-- `runtime_start_tx.send`. -/
  | startRuntime (thread : RuntimeThread ι)
  /-- `cancellation.cancel`. -/
  | cancelToken (thread : RuntimeThread ι)
  | abort (thread : RuntimeThread ι)
  | removeThreadIfCurrent (thread : RuntimeThread ι)
  | hasLifecycleSink
  | threadStarted (thread : RuntimeThread ι)
  | emitRuntime (thread : RuntimeThread ι) (kind : RuntimeEventKind)
  | sendShutdown (thread : RuntimeThread ι)
  | sendCancel (thread : RuntimeThread ι) (reason : String)
  | recordSignal (thread : RuntimeThread ι)
  | status (thread : RuntimeThread ι)
  | queuedCommandCount (thread : RuntimeThread ι)
  | setStatus (thread : RuntimeThread ι) (status : ThreadStatus)
  /-- The thread was found neither running nor cancelling within the time. -/
  | cancelledWithin (thread : RuntimeThread ι) (timeoutMs : Nat)
  | waitTimeoutOrAbort (thread : RuntimeThread ι) (timeoutMs : Nat)
  | rememberCheckpoint (checkpoint : ThreadCheckpoint)
  | readEvents (streamId : EventStreamId)
  | activeLeaf (coordinates : ThreadCoordinates)
  | buildContext (coordinates : ThreadCoordinates)
  | append (coordinates : ThreadCoordinates) (kind : SessionEntryKind)
  | cloneBranch (source : ThreadCoordinates) (sourceLeaf : Option SessionEntryId)
      (target : ThreadCoordinates)
  | selectBranch (coordinates : ThreadCoordinates) (leaf : Option SessionEntryId)

variable {ι : Type}

def HostCall.Reply : HostCall ι → Type
  | .suspended               => Awaited Unit
  | .getThread _             => Option (RuntimeThread ι)
  | .reserveStart _          => ReserveAnswer ι
  | .releaseStart _          => Unit
  | .subscribeStart _        => Bool
  | .buildRuntime _          => Except StartError Unit
  | .publish _               => RuntimeThread ι
  | .startRuntime _          => Unit
  | .cancelToken _           => Unit
  | .abort _                 => Unit
  | .removeThreadIfCurrent _ => Bool
  | .hasLifecycleSink        => Bool
  | .threadStarted _         => Except StartError Unit
  | .emitRuntime _ _         => Unit
  | .sendShutdown _          => Except StartError Unit
  | .sendCancel _ _          => Except StartError Unit
  | .recordSignal _          => Unit
  | .status _                => ThreadStatus
  | .queuedCommandCount _    => Nat
  | .setStatus _ _           => Unit
  | .cancelledWithin _ _     => Bool
  | .waitTimeoutOrAbort _ _  => Bool
  | .rememberCheckpoint _    => Unit
  | .readEvents _            => HistoryResult (List EventRecord)
  | .activeLeaf _            => HistoryResult (Option SessionEntryId)
  | .buildContext _          => HistoryResult SessionContext
  | .append _ _              => HistoryResult SessionEntry
  | .cloneBranch _ _ _       => HistoryResult (Option SessionEntryId)
  | .selectBranch _ _        => HistoryResult Unit

/-- How a caller ends that does not succeed. -/
inductive Stopped where
  | failed (error : StartError)
  | dropped
  | panicked
  /-- No end of the source: a loop that has not come to one. -/
  | looping

abbrev HostM (ι α : Type) := ExceptT Stopped (Proc (HostCall ι) HostCall.Reply) α

namespace HostM

def ask (call : HostCall ι) : HostM ι call.Reply := Proc.await call

/-- An await. -/
def suspend : HostM ι Unit := do
  match ← ask .suspended with
  | .ready () => return
  | .dropped  => throw .dropped

def orFail {α : Type} : Except StartError α → HostM ι α
  | .ok a        => return a
  | .error error => throw (.failed error)

def orKernel {α : Type} : VerletResult α → HostM ι α
  | .ok a        => return a
  | .error error => throw (.failed (.host (.kernel error)))

/-- A value, or the panic of an index that is not there. -/
def orPanic {α : Type} : Option α → HostM ι α
  | some a => return a
  | none   => throw .panicked

/-- A call of the store: the caller awaits before it is made and before it answers. -/
def storeCall (call : HostCall ι) : HostM ι call.Reply := do
  suspend
  let reply ← ask call
  suspend
  return reply

end HostM

open HostM

/-! ### Reserving a start -/

def rejectChild (parent : Option (RuntimeThread ι)) (message : String) : HostM ι Unit :=
  match parent with
  | some parent => ask (.emitRuntime parent (.policyRejected "max_child_threads" message))
  | none        => return

def reserveThreadStart (context : ThreadContext) : HostM ι Unit := do
  suspend
  match ← ask (.reserveStart context) with
  | .reserved => return
  | .alreadyExists => throw (.failed (.threadAlreadyExists context.coordinates.threadId))
  | .full parentThreadId childCount maxChildThreads parent => do
    let message := "parent thread already has " ++ toString childCount ++
      " child thread(s); max is " ++ toString maxChildThreads
    rejectChild parent message
    throw (.failed (.host (.threadPolicyViolation parentThreadId "max_child_threads" message)))

def releaseReservation (context : ThreadContext) : HostM ι Unit :=
  ask (.releaseStart context.coordinates.threadId)

def waitForThreadStartReservation (threadId : ThreadId) : HostM ι Unit := do
  let waiting : Bool ← ask (.subscribeStart threadId)
  if waiting then suspend else return

/-! ### A start identity -/

/-- `record_thread_start_identity`, as the entry that it appends. -/
def startIdentityKind (context : ThreadContext) : SessionEntryKind :=
  .runtime "thread_started" (startIdentityPayload context)

/-- The topology and the metadata that a `thread_started` event records, where they can be read;
nothing at all where the payload has them not, and its index panics. -/
def startIdentityOf (event : EventRecord) : Option (Option (ThreadTopology × Metadata)) :=
  match (Json.index event.payload "runtime_payload").asObject with
  | none => some none
  | some payload => do
    match Wire.threadTopology.fromValue (← Json.get? payload "topology") with
    | .error _ => return none
    | .ok topology =>
      match Wire.metadata.fromValue (← Json.get? payload "metadata") with
      | .error _ => return none
      | .ok metadata => return some (topology, metadata)

def appendsRuntimeKind (event : EventRecord) (kind : String) : Bool :=
  event.kind = .sessionEntryAppended ∧ (Json.index event.payload "runtime_kind").asStr = some kind

def threadStartIdentityMatchesContext (event : EventRecord) (context : ThreadContext) :
    Option Bool :=
  if appendsRuntimeKind event "thread_started" then do
    match ← startIdentityOf event with
    | none => return false
    | some (topology, metadata) =>
      return topology = context.topology && metadata = context.metadata
  else some false

/-- `any`, of what may panic. -/
def anyMatches (context : ThreadContext) : List EventRecord → Option Bool
  | []              => some false
  | event :: events => do
    if ← threadStartIdentityMatchesContext event context then return true
    else anyMatches context events

variable (thread : RuntimeThread ι)

/-- One attempt of `record_thread_start_identity_with_reconciliation`: nothing where the identity is
recorded, or its append's error where it is not. -/
def attemptStartIdentity : HostM ι (Option VerletError) := do
  let coordinates := thread.context.coordinates
  let appended : HistoryResult SessionEntry ←
    storeCall (.append coordinates (startIdentityKind thread.context))
  match appended with
  | .ok _ => return none
  | .error error => do
    let read : HistoryResult (List EventRecord) ←
      storeCall (.readEvents (.forThread coordinates))
    match read with
    | .error readError =>
      throw (.failed (.reconciliationRead "thread start identity append"
        (.history (.store error)) (.history (.store readError))))
    | .ok events => do
      let found : Bool ← orPanic (anyMatches thread.context events)
      if found then return none else return some (.history (.store error))

def recordThreadStartIdentityWithReconciliation : HostM ι Unit := do
  match ← attemptStartIdentity thread with
  | none => return
  | some firstError =>
    match ← attemptStartIdentity thread with
    | none   => return
    | some _ => throw (.failed (.host (.kernel firstError)))

def recordThreadStartIdentity : HostM ι Unit := do
  let appended : HistoryResult SessionEntry ←
    storeCall (.append thread.context.coordinates (startIdentityKind thread.context))
  discard <| orKernel (orHistory appended)

inductive StartIdentity where
  | omitted
  | appended
  | reconciled

def recordIdentity : StartIdentity → HostM ι Unit
  | .omitted    => return
  | .appended   => recordThreadStartIdentity thread
  | .reconciled => recordThreadStartIdentityWithReconciliation thread

/-! ### Starting a thread -/

variable (config : HostConfig)

def boundCouplingSetFromMetadata (metadata : Metadata) : Except StartError Unit :=
  match metadata.get? "cooldis.agent.bound_coupling_set" with
  | none => .ok ()
  | some raw =>
    match config.decodeCouplingSet raw with
    | .ok () => .ok ()
    | .error err => .error (.runtimeFactory ("thread bound coupling set is invalid: " ++ err))

/-- What a start gets through while it holds its reservation: the factory, the two awaits of the
services, the coupling set and the lock of the threads. -/
def prepareRuntime (context : ThreadContext) : HostM ι Unit := do
  suspend
  orFail (← ask (.buildRuntime context))
  suspend
  suspend
  orFail (boundCouplingSetFromMetadata config context.metadata)
  suspend

variable (thread : RuntimeThread ι)

/-- The clean-up of an exit with an error, awaited by the start itself. -/
def retract : HostM ι Unit := do
  ask (.cancelToken thread)
  suspend
  ask (.abort thread)
  suspend
  let _ : Bool ← ask (.removeThreadIfCurrent thread)

def retracting {α : Type} (thread : RuntimeThread ι) (p : HostM ι α) : HostM ι α :=
  tryCatch p fun
    | .failed error => do retract thread; throw (.failed error)
    | stopped       => throw stopped

/-- `PublishedThreadStartGuard::drop`, and the task it spawns. -/
def dropPublished : HostM ι Unit := do
  ask (.cancelToken thread)
  ask (.abort thread)
  let _ : Bool ← ask (.removeThreadIfCurrent thread)

def guardingPublished {α : Type} (thread : RuntimeThread ι) (p : HostM ι α) : HostM ι α :=
  tryCatch p fun
    | .failed error => throw (.failed error)
    | stopped       => do dropPublished thread; throw stopped

def notifyLifecycleSink (notify : Bool) (thread : RuntimeThread ι) : HostM ι Unit :=
  if notify then do
    suspend
    let sink : Bool ← ask .hasLifecycleSink
    if sink then do
      suspend
      orFail (← ask (.threadStarted thread))
    else return
  else return

/-- The parent, if it is registered, hears of its child. -/
def announceSubthread : HostM ι Unit :=
  match thread.context.parentThreadId with
  | none => return
  | some parentThreadId => do
    suspend
    let parent : Option (RuntimeThread ι) ← ask (.getThread parentThreadId)
    match parent with
    | some parent => ask (.emitRuntime parent (.subthreadStarted thread.threadId))
    | none        => return

/-- What follows the publication. -/
def finishStart (identity : StartIdentity) (notify : Bool) (thread : RuntimeThread ι) :
    HostM ι (RuntimeThread ι) := do
  retracting thread (recordIdentity thread identity)
  ask (.startRuntime thread)
  retracting thread (notifyLifecycleSink notify thread)
  announceSubthread thread
  return thread

def startReservedThread (identity : StartIdentity) (notify : Bool)
    (context : ThreadContext) : HostM ι (RuntimeThread ι) := do
  Proc.guarding (prepareRuntime config context) (releaseReservation context)
  let thread : RuntimeThread ι ← ask (.publish context)
  guardingPublished thread (finishStart identity notify thread)

/-- `start_thread_with_topology_and_metadata_inner`. -/
def startThread (recordStartIdentity : Bool) (context : ThreadContext) :
    HostM ι (RuntimeThread ι) := do
  reserveThreadStart context
  startReservedThread config (if recordStartIdentity then .appended else .omitted) true context

/-! ### Resuming and forking -/

variable (checkpoint : ThreadCheckpoint)

/-- The lineage that a checkpoint may be resumed with. -/
def requireRootLineage : Except StartError Unit :=
  match checkpoint.lineage with
  | .root => .ok ()
  | .parent parentThreadId =>
    .error (.checkpointResumeRequiresRoot checkpoint.id checkpoint.coordinates.threadId
      parentThreadId)
  | .unknown =>
    .error (.checkpointResumeLineageUnknown checkpoint.id checkpoint.coordinates.threadId)

/-- What a resume does under its reservation. -/
def selectCheckpoint : HostM ι Unit := do
  let selected : HistoryResult Unit ←
    storeCall (.selectBranch checkpoint.coordinates checkpoint.activeEntryId)
  orKernel (orHistory selected)
  suspend
  ask (.rememberCheckpoint checkpoint)

def resumeThreadFromCheckpoint : HostM ι (RuntimeThread ι) := do
  orFail (requireRootLineage checkpoint)
  let context := ThreadContext.withTopologyAndMetadata checkpoint.coordinates .root
    checkpoint.metadata
  reserveThreadStart context
  Proc.guarding (selectCheckpoint checkpoint) (releaseReservation context)
  startReservedThread config .omitted true context

def forkCoordinates (childThreadId : ThreadId) :
    ThreadCoordinates := { checkpoint.coordinates with threadId := childThreadId }

def desiredContext (childThreadId : ThreadId) : ThreadContext :=
  forkContext (forkCoordinates checkpoint childThreadId) checkpoint.coordinates.threadId
    checkpoint.id checkpoint.metadata

def isThreadStarted (event : EventRecord) : Bool :=
  appendsRuntimeKind event "thread_started" &&
    (Json.index event.payload "entry_kind").asStr = some "runtime"

/-- The context of the first start identity of the events that is a fork's of the parent. -/
def durableStart (coordinates : ThreadCoordinates) (parentThreadId : ThreadId) :
    List EventRecord → Option (Option ThreadContext)
  | []              => some none
  | event :: events =>
    if isThreadStarted event then do
      match ← startIdentityOf event with
      | none => durableStart coordinates parentThreadId events
      | some (topology, metadata) =>
        let context := ThreadContext.withTopologyAndMetadata coordinates topology metadata
        if forkChildContextIsCompatible context coordinates parentThreadId then
          return some context
        else durableStart coordinates parentThreadId events
    else durableStart coordinates parentThreadId events

def checkpointPayloadOf (entry : SessionEntry) : Option Json :=
  match entry.kind with
  | .runtime kind payload => if kind = "thread_checkpoint" then some payload else none
  | _ => none

def readCheckpoint (childThreadId : ThreadId) (payload : Json) :
    Except StartError (ThreadCheckpointId × Metadata) := do
  let child := "reserved fork child " ++ childThreadId.uuid.text
  let id ← match (Json.index payload "checkpoint_id").asStr with
    | none => .error (.history (child ++ " has cloned history with an invalid checkpoint"))
    | some id =>
      match Uuid.parseStr id with
      | none => .error (.history (child ++ " checkpoint is invalid: UUID parsing failed"))
      | some uuid => .ok uuid
  let metadata ← match payload.asObject.bind fun fields => Json.get? fields "metadata" with
    | none => .ok []
    | some metadata =>
      match Wire.metadata.fromValue metadata with
      | .error err => .error (.history (child ++ " checkpoint metadata is invalid: " ++ err))
      | .ok metadata => .ok metadata
  return (⟨id⟩, metadata)

/-- The context of a fork whose branch was cloned: that of the last checkpoint of the branch. -/
def clonedContext (checkpoint : ThreadCheckpoint) (childThreadId : ThreadId)
    (entries : List SessionEntry) : Except StartError ThreadContext :=
  match entries.reverse.findSome? checkpointPayloadOf with
  | none => .error (.history ("reserved fork child " ++ childThreadId.uuid.text ++
      " has cloned history without a checkpoint"))
  | some payload =>
    match readCheckpoint childThreadId payload with
    | .error error => .error error
    | .ok (id, metadata) =>
      .ok (forkContext (forkCoordinates checkpoint childThreadId)
        checkpoint.coordinates.threadId id metadata)

/-- The context of a fork that recorded no start identity: of the branch it cloned, or, after it is
cloned, the one it was asked for. -/
def cloneForked (checkpoint : ThreadCheckpoint) (childThreadId : ThreadId) :
    HostM ι ThreadContext := do
  let coordinates := forkCoordinates checkpoint childThreadId
  let leaf : HistoryResult (Option SessionEntryId) ← storeCall (.activeLeaf coordinates)
  if (← orKernel (orHistory leaf)).isSome then do
    let built : HistoryResult SessionContext ← storeCall (.buildContext coordinates)
    let context ← orKernel (orHistory built)
    orFail (clonedContext checkpoint childThreadId context.entries)
  else do
    let cloned : HistoryResult (Option SessionEntryId) ←
      storeCall (.cloneBranch checkpoint.coordinates checkpoint.activeEntryId coordinates)
    discard <| orKernel (orHistory cloned)
    return desiredContext checkpoint childThreadId

/-- What a fork does under its reservation: how far an earlier one got, and the branch. -/
def recoverFork (checkpoint : ThreadCheckpoint) (childThreadId : ThreadId) :
    HostM ι (ThreadContext × StartIdentity) := do
  let coordinates := forkCoordinates checkpoint childThreadId
  let read : HistoryResult (List EventRecord) ← storeCall (.readEvents (.forThread coordinates))
  let events ← orKernel (orHistory read)
  let durable : Option ThreadContext ←
    orPanic (durableStart coordinates checkpoint.coordinates.threadId events.reverse)
  match durable with
  | some context => do
    let leaf : HistoryResult (Option SessionEntryId) ← storeCall (.activeLeaf coordinates)
    discard <| orKernel (orHistory leaf)
    return (context, .omitted)
  | none => do
    let context ← cloneForked checkpoint childThreadId
    return (context, .reconciled)

/-- A reservation of the child; or, where the child has one already, that is waited for. -/
def reserveFork (context : ThreadContext) : HostM ι Bool :=
  tryCatch (do reserveThreadStart context; return true) fun
    | .failed (.threadAlreadyExists existing) =>
      if existing = context.coordinates.threadId then do
        waitForThreadStartReservation existing
        return false
      else throw (.failed (.threadAlreadyExists existing))
    | stopped => throw stopped

/-- `fork_thread_from_checkpoint_with_id_inner`, as far as it goes in so many rounds of its loop. -/
def forkThreadFromCheckpointWithId (config : HostConfig) (notify : Bool)
    (checkpoint : ThreadCheckpoint) (childThreadId : ThreadId) : Nat → HostM ι (RuntimeThread ι)
  | 0 => throw .looping
  | rounds + 1 => do
    let desired := desiredContext checkpoint childThreadId
    suspend
    let registered : Option (RuntimeThread ι) ← ask (.getThread childThreadId)
    match registered with
    | some handle =>
      if forkChildContextIsCompatible handle.context desired.coordinates
          checkpoint.coordinates.threadId then
        return handle
      else
        throw (.failed (.history ("reserved fork child " ++ childThreadId.uuid.text ++
          " has incompatible runtime identity")))
    | none => do
      let reserved : Bool ← reserveFork desired
      if reserved then do
        let (context, identity) ← Proc.guarding (recoverFork checkpoint childThreadId)
          (releaseReservation desired)
        startReservedThread config identity notify context
      else forkThreadFromCheckpointWithId config notify checkpoint childThreadId rounds

/-! ### Cancelling and shutting down -/

def getThread (threadId : ThreadId) : HostM ι (RuntimeThread ι) := do
  suspend
  let found : Option (RuntimeThread ι) ← ask (.getThread threadId)
  match found with
  | some thread => return thread
  | none        => throw (.failed (.host (.threadNotFound threadId)))

/-- `wait_for_shutdown`: the shutdown timed out. -/
def waitForShutdown : HostM ι Bool :=
  match config.policy.shutdownGraceTimeoutMs with
  | none => do
    suspend
    ask (.emitRuntime thread (.recovery "shutdown_completed" "runtime stopped"))
    return false
  | some timeoutMs => do
    suspend
    let stopped : Bool ← ask (.waitTimeoutOrAbort thread timeoutMs)
    if stopped then do
      ask (.emitRuntime thread (.recovery "shutdown_completed" "runtime stopped"))
      return false
    else do
      ask (.emitRuntime thread (.timeout "shutdown" timeoutMs))
      ask (.emitRuntime thread (.recovery "abort_runtime" "shutdown grace timeout elapsed"))
      ask (.cancelToken thread)
      ask (.setStatus thread .failed)
      suspend
      ask (.abort thread)
      return true

/-- The thread hears of its shutdown, or its channel is closed and its token cancelled. -/
def sendShutdown : HostM ι Unit := do
  suspend
  match ← ask (.sendShutdown thread) with
  | .ok () => do
    suspend
    ask (.recordSignal thread)
  | .error (.host (.threadClosed _)) => ask (.cancelToken thread)
  | .error error => throw (.failed error)

/-- The parent, if it is registered, hears that its child finished. -/
def announceFinished (timedOut : Bool) : HostM ι Unit :=
  match thread.context.parentThreadId with
  | none => return
  | some parentThreadId => do
    suspend
    let parent : Option (RuntimeThread ι) ← ask (.getThread parentThreadId)
    match parent with
    | some parent => ask (.emitRuntime parent
        (.subthreadFinished thread.threadId (if timedOut then .failed else .stopped)))
    | none => return

def shutdownThread (threadId : ThreadId) : HostM ι Unit := do
  let thread ← getThread threadId
  ask (.emitRuntime thread (.recovery "shutdown_requested" "shutdown_thread"))
  sendShutdown thread
  let timedOut ← waitForShutdown config thread
  suspend
  let removed : Bool ← ask (.removeThreadIfCurrent thread)
  if removed then announceFinished thread timedOut else return

def waitForCancelGrace : HostM ι Unit :=
  match config.policy.cancelGraceTimeoutMs with
  | none => return
  | some timeoutMs => do
    suspend
    let completed : Bool ← ask (.cancelledWithin thread timeoutMs)
    if completed then
      ask (.emitRuntime thread
        (.recovery "cancel_completed" "runtime returned to a recoverable state"))
    else do
      ask (.emitRuntime thread (.timeout "cancel" timeoutMs))
      ask (.emitRuntime thread (.recovery "abort_runtime" "cancel grace timeout elapsed"))
      ask (.setStatus thread .failed)
      ask (.emitRuntime thread
        (.failed "cancel_timeout" "runtime did not cancel within grace timeout"))
      suspend
      ask (.abort thread)
      throw (.failed (.host (.threadPolicyViolation thread.threadId "cancel_timeout"
        "runtime did not cancel within grace timeout")))

/-- The statuses in which a thread without queued commands has nothing to cancel. -/
def ThreadStatus.rests : ThreadStatus → Bool
  | .starting | .idle | .stopped | .failed => true
  | .running | .cancelling                 => false

/-- `cancel`. -/
def cancelThread (threadId : ThreadId) (reason : String) : HostM ι Unit := do
  let thread ← getThread threadId
  ask (.emitRuntime thread (.recovery "cancel_requested" reason))
  suspend
  ask (.recordSignal thread)
  let status : ThreadStatus ← ask (.status thread)
  let queued : Nat ← ask (.queuedCommandCount thread)
  if status.rests && queued = 0 then return
  else do
    suspend
    orFail (← ask (.sendCancel thread reason))
    waitForCancelGrace config thread

inductive HostRequest where
  | start (recordStartIdentity : Bool) (coordinates : ThreadCoordinates) (topology : ThreadTopology)
      (metadata : Metadata)
  | resume (checkpoint : ThreadCheckpoint)
  | fork (notify : Bool) (checkpoint : ThreadCheckpoint) (childThreadId : ThreadId) (rounds : Nat)
  | shutdown (threadId : ThreadId)
  | cancel (threadId : ThreadId) (reason : String)

def serveRequest : HostRequest → HostM ι (Option (RuntimeThread ι))
  | .start recordStartIdentity coordinates topology metadata =>
    some <$> startThread config recordStartIdentity
      (.withTopologyAndMetadata coordinates topology metadata)
  | .resume checkpoint => some <$> resumeThreadFromCheckpoint config checkpoint
  | .fork notify checkpoint childThreadId rounds =>
    some <$> forkThreadFromCheckpointWithId config notify checkpoint childThreadId rounds
  | .shutdown threadId => (fun _ => none) <$> shutdownThread config threadId
  | .cancel threadId reason => (fun _ => none) <$> cancelThread config threadId reason

end Verlet.Kernel
