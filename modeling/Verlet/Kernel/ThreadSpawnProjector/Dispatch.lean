import Verlet.Kernel.ThreadSpawnProjector.Programs

/-!
# Kernel — The thread spawn projector — Dispatch

The two ways to a child.  `dispatch_request_with_authority` folds its dispatch from the stream: it
answers with the decision if there is one, waits for the one of another's claim, claims a request that
nobody has claimed, or appends the request.  `project_control_stream` goes through the requests of the
stream and takes up each that is not projected already.
-/

namespace Verlet.Kernel
open Support Io History
open RemoteStore (DispatchId)
open SpawnM

/-! ### Dispatches -/

structure ThreadSpawnDispatchReceipt where
  requestEventId : EventRecordId
  handle : HandleId
  dispatchId : DispatchId
  submittedTurnId : Option String
  taskName : Option String

/-- A call of `dispatch_request_with_authority`. -/
structure SpawnDispatch where
  coordinates : ThreadCoordinates
  payload : ThreadSpawnRequestedPayload
  requireSupervisorAttachment : Bool

def SpawnDispatch.dispatchId (call : SpawnDispatch) : DispatchId := ⟨call.payload.correlationId⟩

def decodeSpawnRequest (text : String) (request : EventRecord) :
    SpawnResult ThreadSpawnRequestedPayload :=
  orSpawn (decodeOr Wire.spawnRequested request text)

/-- Another dispatch has the name: a request of the parent under another correlation id. -/
def reservesTaskName (coordinates : ThreadCoordinates) (dispatchId : DispatchId) (taskName : String)
    (event : EventRecord) : Bool :=
  isSpawnRequest event &&
    match Wire.spawnRequested.fromValue event.payload with
    | .error _ => false
    | .ok existing =>
      spawnRequestBelongsToParent event existing coordinates &&
        decide (existing.taskName = some taskName ∧ existing.correlationId ≠ dispatchId.text)

def checkTaskName (call : SpawnDispatch) (events : List EventRecord) : SpawnResult Unit :=
  match call.payload.taskName with
  | none          => .ok ()
  | some taskName =>
    if History.trim taskName = "" then
      .error (.execution "thread_spawn task_name must not be empty")
    else if events.any (reservesTaskName call.coordinates call.dispatchId taskName) then
      .error (.execution ("thread_spawn task_name " ++ debugText taskName ++
        " is already bound under this parent; retry with the original dispatch or choose a new " ++
        "task_name"))
    else .ok ()

inductive DispatchNext where
  | answer (receipt : ThreadSpawnDispatchReceipt)
  /-- Another has claimed the request. -/
  | await
  | claim (request : EventRecord)
  /-- The request is still to be appended. -/
  | request

def foldedRequest (events : List EventRecord) (folded : ThreadSpawnDispatchFold) :
    SpawnResult EventRecord :=
  match events.find? fun event => event.id = folded.requestEventId with
  | some event => .ok event
  | none       =>
    .error (.historyText "folded thread spawn request is absent from its event slice")

def dispatchNext (call : SpawnDispatch) (events : List EventRecord) : SpawnResult DispatchNext :=
  match foldThreadSpawnDispatch events call.dispatchId with
  | none => do
    checkTaskName call events
    return .request
  | some folded => do
    let request ← foldedRequest events folded
    let payload ← decodeSpawnRequest "folded thread spawn request payload decode failed: " request
    if ¬ spawnRequestBelongsToParent request payload call.coordinates then
      throw (.historyText "thread spawn dispatch matched an out-of-scope request record")
    else
      match folded.handle with
      | some handle =>
        return .answer ⟨folded.requestEventId, handle, call.dispatchId, folded.submittedTurnId,
          folded.taskName⟩
      | none =>
        match folded.failureReason with
        | some reason => throw (.execution reason)
        | none        => if folded.claimed then return .await else return .claim request

variable (setup : SpawnSetup)

def dispatchClaimed (call : SpawnDispatch) (request : EventRecord) :
    SpawnM ThreadSpawnDispatchReceipt := do
  let found ← ask (.getThread call.coordinates.threadId)
  let parent ← given found
  let payload ← given (decodeSpawnRequest "thread spawn dispatch payload decode failed: " request)
  let result ← ExceptT.lift (projectClaimed setup (parent.context call.coordinates.threadId) request
    payload call.requireSupervisorAttachment).run
  match result with
  | .ok projected =>
    return ⟨projected.requestEventId, .thread projected.childThreadId, call.dispatchId,
      some projected.submittedTurnId, projected.taskName⟩
  | .error error => do
    let _ ← appendFailure call.coordinates request (some call.dispatchId.text)
      (error.text setup.storeText)
    throw error

/-- An append of the dispatch's own request; the loop goes on whether it is taken or not. -/
def appendSpawnRequest (call : SpawnDispatch) (events : List EventRecord) : SpawnM Unit := do
  let draw ← ask .draw
  let answer ← ask (.appendEventsFenced (controlStreamId call.coordinates) (nextSequence events)
    [spawnRequest call.coordinates call.payload draw])
  match answer with
  | .ok _ | .error (.appendFenceConflict ..) => return ()
  | .error error => throw (.host (.kernel (.history (.store error))))

/-- The loop of `dispatch_request_with_authority`. -/
def dispatchLoop (setup : SpawnSetup) (call : SpawnDispatch) : Nat → SpawnM ThreadSpawnDispatchReceipt
  | 0        => throw divergedSpawn
  | fuel + 1 => do
    let events ← readSpawnEvents (controlStreamId call.coordinates)
    match ← given (dispatchNext call events) with
    | .answer receipt => return receipt
    | .await => do
      let waitOver : Bool ← ask .claimWaitOver
      if waitOver then
        throw (.execution ("thread spawn dispatch " ++ call.dispatchId.text ++
          " is claimed without a terminal decision; refusing to replay the child effect"))
      else dispatchLoop setup call fuel
    | .claim request => do
      match ← claimRequest fuel request call.dispatchId.text events with
      | none   => dispatchLoop setup call fuel
      | some _ => dispatchClaimed setup call request
    | .request => do
      appendSpawnRequest call events
      dispatchLoop setup call fuel

def dispatchRequestWithAuthority (fuel : Nat) (call : SpawnDispatch) :
    SpawnM ThreadSpawnDispatchReceipt :=
  if call.payload.parentThreadId ≠ call.coordinates.threadId then
    throw (.execution ("thread spawn dispatch parent " ++ call.payload.parentThreadId.uuid.text ++
      " does not match control stream " ++ call.coordinates.threadId.uuid.text))
  else dispatchLoop setup call fuel

/-! ### Projections -/

structure ThreadSpawnProjectionFailure where
  requestEventId : EventRecordId
  failureEventId : EventRecordId
  reason : String

structure ThreadSpawnProjectionReceipt where
  projected : List ThreadSpawnProjected
  skipped : List EventRecordId
  failed : List ThreadSpawnProjectionFailure

def recordPreclaimFailure (fuel : Nat) (receipt : ThreadSpawnProjectionReceipt)
    (coordinates : ThreadCoordinates) (request : EventRecord) (correlationId : Option String)
    (reason : String) (decisionEvents : List EventRecord) : SpawnM ThreadSpawnProjectionReceipt := do
  let draw ← ask .draw
  match ← appendFencedDecision request correlationId
    (failureRecord coordinates request correlationId reason draw) fuel decisionEvents with
  | some failureEventId =>
    return { receipt with failed := receipt.failed ++ [⟨request.id, failureEventId, reason⟩] }
  | none => return { receipt with skipped := receipt.skipped ++ [request.id] }

/-- Why a request cannot be claimed, by what it says itself. -/
def misplacedRequest (coordinates : ThreadCoordinates) (request : EventRecord)
    (payload : ThreadSpawnRequestedPayload) : Option String :=
  if request.coordinates.threadId ≠ coordinates.threadId then
    some ("thread.spawn.requested event thread " ++ request.coordinates.threadId.uuid.text ++
      " does not match projected stream " ++ coordinates.threadId.uuid.text)
  else if request.coordinates.scope ≠ coordinates.scope then
    some ((SpawnError.threadScopeMismatch coordinates.threadId coordinates.scope
      request.coordinates.scope).text setup.storeText)
  else if payload.parentThreadId ≠ coordinates.threadId then
    some ("thread.spawn.requested parent_thread_id " ++ payload.parentThreadId.uuid.text ++
      " does not match projected stream " ++ coordinates.threadId.uuid.text)
  else none

/-- A request that is claimed. -/
def projectUnclaimed (fuel : Nat) (coordinates : ThreadCoordinates)
    (receipt : ThreadSpawnProjectionReceipt) (request : EventRecord)
    (payload : ThreadSpawnRequestedPayload) (parent : LiveThread)
    (decisionEvents : List EventRecord) : SpawnM ThreadSpawnProjectionReceipt := do
  match ← claimRequest fuel request payload.correlationId decisionEvents with
  | none   => return { receipt with skipped := receipt.skipped ++ [request.id] }
  | some _ => do
    let result ← ExceptT.lift (projectClaimed setup (parent.context payload.parentThreadId) request
      payload true).run
    match result with
    | .ok projected => return { receipt with projected := receipt.projected ++ [projected] }
    | .error error  => do
      let reason := error.text setup.storeText
      let failure ← appendFailure coordinates request none reason
      return { receipt with failed := receipt.failed ++ [⟨request.id, failure.id, reason⟩] }

/-- A request whose parent is looked up. -/
def projectPlaced (fuel : Nat) (coordinates : ThreadCoordinates)
    (receipt : ThreadSpawnProjectionReceipt) (request : EventRecord)
    (payload : ThreadSpawnRequestedPayload) (decisionEvents : List EventRecord) :
    SpawnM ThreadSpawnProjectionReceipt := do
  let found ← ask (.getThread payload.parentThreadId)
  match found with
  | .error error =>
    recordPreclaimFailure fuel receipt coordinates request (some payload.correlationId)
      (error.text setup.storeText) decisionEvents
  | .ok parent =>
    if parent.scope ≠ coordinates.scope then
      recordPreclaimFailure fuel receipt (scopedCoordinates parent.scope payload.parentThreadId)
        request (some payload.correlationId)
        ((SpawnError.threadScopeMismatch coordinates.threadId coordinates.scope parent.scope).text
          setup.storeText) decisionEvents
    else projectUnclaimed setup fuel coordinates receipt request payload parent decisionEvents

def projectRequest (fuel : Nat) (coordinates : ThreadCoordinates)
    (receipt : ThreadSpawnProjectionReceipt) (request : EventRecord)
    (decisionEvents : List EventRecord) : SpawnM ThreadSpawnProjectionReceipt :=
  match Wire.spawnRequested.fromValue request.payload with
  | .error err =>
    recordPreclaimFailure fuel receipt coordinates request (rawCorrelation request)
      ("invalid thread.spawn.requested payload: " ++ err) decisionEvents
  | .ok payload =>
    if spawnRequestAlreadyProjected decisionEvents request.id (some payload.correlationId) then
      return { receipt with skipped := receipt.skipped ++ [request.id] }
    else
      match misplacedRequest setup coordinates request payload with
      | some reason =>
        recordPreclaimFailure fuel receipt coordinates request (some payload.correlationId) reason
          decisionEvents
      | none =>
        projectPlaced setup fuel coordinates receipt request payload decisionEvents

/-- The requests after the first: the stream is read again before each. -/
def projectRest (setup : SpawnSetup) (fuel : Nat) (coordinates : ThreadCoordinates) :
    List EventRecord → ThreadSpawnProjectionReceipt → SpawnM ThreadSpawnProjectionReceipt
  | [],                  receipt => return receipt
  | request :: requests, receipt => do
    let decisionEvents ← readSpawnEvents (controlStreamId coordinates)
    let receipt ← projectRequest setup fuel coordinates receipt request decisionEvents
    projectRest setup fuel coordinates requests receipt

def projectControlStream (fuel : Nat) (coordinates : ThreadCoordinates) :
    SpawnM ThreadSpawnProjectionReceipt := do
  let events ← readSpawnEvents (controlStreamId coordinates)
  match events.filter isSpawnRequest with
  | []                  => return ⟨[], [], []⟩
  | request :: requests => do
    let receipt ← projectRequest setup fuel coordinates ⟨[], [], []⟩ request events
    projectRest setup fuel coordinates requests receipt

end Verlet.Kernel
