import Verlet.Agent.AgentLoop
import Verlet.Daemon.Ingress.Targets
import Verlet.Io.PgqrsQueue
import Verlet.Kernel.IngressWitness
import Verlet.Kernel.ThreadSpawnProjector.Bindings

/-!
# Daemon — Thread handle ingress

`ThreadHandleIngressAdapter`: what the children of a tenant's threads came to, as ingress envelopes.  A
pass reads every control stream of the tenant and user, folds its joins against its spawn bindings, and
submits an envelope for each that it has not yet acknowledged.  The envelope's target is resolved later,
from the spawn bindings of all control streams.

The control streams grow while a pass reads them, the sink may fail and lose an answer, and a restart
forgets what was acknowledged.
-/

namespace Verlet.Daemon.HandleIngress
open Support Kernel Io History RemoteStore Agent

/-! ### Settlements -/

inductive RuntimeTerminalState where
  | completed
  | cancelled
  | stopped
  | failed
  | timedOut

/-- `HandleTerminalOutcome::from`. -/
def HandleTerminalOutcome.ofRuntime : RuntimeTerminalState → HandleTerminalOutcome
  | .completed                     => .completed
  | .cancelled                     => .cancelled
  | .stopped | .failed | .timedOut => .failed

def terminalProjection (state : ThreadTerminalState) (resultDigest : Option String) :
    RuntimeTerminalState × Option String × Bool :=
  match state with
  | .completed       => (.completed, none, false)
  | .failed          => (.failed, some (resultDigest.getD "child thread failed"), true)
  | .cancelled       => (.cancelled, some (resultDigest.getD "child thread cancelled"), false)
  | .budgetExhausted => (.stopped, some (resultDigest.getD "child thread budget exhausted"), true)

def assistantOf : SessionEntryKind → Option (List CanonicalContent × CanonicalUsage)
  | .message (.assistant content _ _ _ usage _ _ _)
  | .customContextMessage (.assistant content _ _ _ usage _ _ _) => some (content, usage)
  | _ => none

def assistantsOf (context : SessionContext) (child : ThreadId) :
    List (List CanonicalContent × CanonicalUsage) :=
  context.entries.filterMap fun entry =>
    if entry.coordinates.threadId ≠ child then none else assistantOf entry.kind

def resultText (content : List CanonicalContent) : Option Json :=
  let text := String.join (content.filterMap fun | .text text _ => some text | _ => none)
  if text = "" then none else some (.str text)

def latestAssistantResult (context : SessionContext) (child : ThreadId) : Option Json :=
  (assistantsOf context child).reverse.findSome? fun said => resultText said.1

/-- `u64::saturating_add`. -/
def saturatingAdd (a b : Nat) : Nat := min (a + b) (2 ^ 64 - 1)

def totalThreadUsage (context : SessionContext) (child : ThreadId) : RuntimeUsage :=
  (assistantsOf context child).foldl (fun total said =>
    { inputTokens := saturatingAdd total.inputTokens said.2.inputTokens
      outputTokens := saturatingAdd total.outputTokens said.2.outputTokens
      cacheCreationInputTokens :=
        saturatingAdd total.cacheCreationInputTokens said.2.cacheCreationInputTokens
      cacheReadInputTokens := saturatingAdd total.cacheReadInputTokens said.2.cacheReadInputTokens })
    ⟨0, 0, 0, 0⟩

structure ThreadTerminalSettlement where
  consumer : ThreadCoordinates
  dispatchId : DispatchId
  childThreadId : ThreadId
  terminalState : ThreadTerminalState
  resultDigest : Option String
deriving DecidableEq

/-- What is random or of the clock in an envelope. -/
structure EnvelopeSeed where
  id : String
  nowMs : Nat

namespace ThreadTerminalSettlement

variable (settlement : ThreadTerminalSettlement)

/-- The terminal of `ingress_envelope`. -/
def terminal (context : SessionContext) : HandleTerminalEnvelope :=
  let projection := terminalProjection settlement.terminalState settlement.resultDigest
  { dispatchId := settlement.dispatchId
    handle := .thread settlement.childThreadId
    outcome := HandleTerminalOutcome.ofRuntime projection.1
    outcomeReason := projection.2.1
    result := latestAssistantResult context settlement.childThreadId
    resultSchemaId := none
    artifactRefs := []
    usage := some (totalThreadUsage context settlement.childThreadId)
    retryable := projection.2.2 }

def ingressEnvelope (context : SessionContext) (seed : EnvelopeSeed) : IngressEnvelope where
  id := seed.id
  source := ⟨"cooldis.handle", "thread", []⟩
  conversation := ⟨"thread:" ++ settlement.consumer.threadId.uuid.text, .system, none, none, []⟩
  actor := none
  content := .event handleOutcomeContentKind
    (Wire.terminalEnvelope.toValue (settlement.terminal context))
  attachments := []
  dedupeKey := some ⟨handleOutcomeContentKind, settlement.dispatchId.text⟩
  delivery := some ⟨settlement.dispatchId.text, none, []⟩
  principal := some ⟨settlement.consumer.tenantId, settlement.consumer.userId,
    "handle:" ++ settlement.dispatchId.text⟩
  receivedAtMs := seed.nowMs
  metadata := [("cooldis_route_id", handleOutcomeContentKind),
    ("cooldis_route_policy", "queue_per_conversation")]

/-- The thread whose context is assembled. -/
def child : ThreadCoordinates :=
  { settlement.consumer with threadId := settlement.childThreadId }

end ThreadTerminalSettlement

/-- Settlements by the spawn event that they settle. -/
abbrev ThreadTerminalSettlements := Keyed fun settled : String × ThreadTerminalSettlement => settled.1

abbrev SpawnBindings := Keyed fun binding : ThreadHandleBinding => binding.spawnedEventId.uuid.text

def joinsSpawn (joined : EventRecord) : Option String :=
  (joined.payload.index "spawned_event_id").asStr

def settlementOf (consumer : ThreadCoordinates) (joined : EventRecord) (binding : ThreadHandleBinding) :
    VerletResult ThreadTerminalSettlement := do
  let payload ← decodeOr Wire.joined joined "thread handle terminal joined payload decode failed: "
  if binding.consumer ≠ consumer ∨ payload.childThreadId.uuid.text ≠ binding.handle.id then
    throw (historyText ("thread handle terminal join " ++ joined.id.uuid.text ++
      " does not match its spawn binding"))
  else
    return ⟨binding.consumer, binding.dispatchId, payload.childThreadId, payload.terminalState,
      payload.resultDigest⟩

def keepSettlement (settlements : ThreadTerminalSettlements) (spawnedEventId : String)
    (settlement : ThreadTerminalSettlement) : VerletResult ThreadTerminalSettlements :=
  if (settlements.get? spawnedEventId).any fun existing => existing.2 ≠ settlement then
    .error (historyText ("thread handle " ++ settlement.dispatchId.text ++
      " has conflicting terminal settlements"))
  else .ok (settlements.insert (spawnedEventId, settlement))

def takeJoin (consumer : ThreadCoordinates) (bindings : SpawnBindings)
    (settlements : ThreadTerminalSettlements) (joined : EventRecord) :
    VerletResult ThreadTerminalSettlements :=
  match joinsSpawn joined with
  | none                => .ok settlements
  | some spawnedEventId =>
    match bindings.get? spawnedEventId with
    | none         => .ok settlements
    | some binding => do
      keepSettlement settlements spawnedEventId (← settlementOf consumer joined binding)

def foldTerminalSettlements (consumer : ThreadCoordinates) (events : List EventRecord) :
    VerletResult (List ThreadTerminalSettlement) := do
  let found ← foldThreadHandleBindings events
  let bindings : SpawnBindings := found.foldl Keyed.insert .empty
  let joins := events.filter fun event => event.kind = .threadJoined
  let settlements ← joins.foldlM (takeJoin consumer bindings) .empty
  return settlements.values.map (·.2)

/-! ### A pass -/

/-- What a failed operation of a pass says. -/
inductive IngressPollError where
  | verlet (error : VerletError)
  | rejected (reason : String)

structure IngressPollFailure where
  stage : String
  subject : String
  error : IngressPollError

structure IngressPollOutcome where
  enqueued : Nat
  failureCount : Nat
  firstFailure : Option IngressPollFailure

def IngressPollOutcome.recordFailure (outcome : IngressPollOutcome) (stage subject : String)
    (error : IngressPollError) : IngressPollOutcome :=
  { outcome with
    failureCount := outcome.failureCount + 1
    firstFailure := outcome.firstFailure.or (some ⟨stage, subject, error⟩) }

def IngressPollOutcome.recordSettlementFailure (outcome : IngressPollOutcome)
    (settlement : ThreadTerminalSettlement) (stage : String) (error : IngressPollError) :
    IngressPollOutcome :=
  outcome.recordFailure stage ("dispatch " ++ settlement.dispatchId.text ++ " child " ++
    settlement.childThreadId.uuid.text ++ " consumer " ++ (controlStreamId settlement.consumer).text) error

/-- A call of a pass, or of the bridge that resolves a target.  A failure is its text. -/
inductive IngressCall where
  | listControlStreamCoordinates
  | readEvents (streamId : EventStreamId)
  | buildContext (child : ThreadCoordinates)
  /-- A new id, and the clock. -/
  | seed
  | isAcknowledged (dispatchId : String)
  | submit (envelope : IngressEnvelope)
  | acknowledge (dispatchId : String)

def IngressCall.Reply : IngressCall → Type
  | .listControlStreamCoordinates => Except String (List ThreadCoordinates)
  | .readEvents _                 => Except String (List EventRecord)
  | .buildContext _               => Except String SessionContext
  | .seed                         => EnvelopeSeed
  | .isAcknowledged _             => Bool
  | .submit _                     => Except String IngressAck
  | .acknowledge _                => Unit

structure ThreadHandleIngressAdapter where
  tenantId : String
  userId : String

variable (adapter : ThreadHandleIngressAdapter)

def ThreadHandleIngressAdapter.InScope (coordinates : ThreadCoordinates) : Prop :=
  coordinates.tenantId = adapter.tenantId ∧ coordinates.userId = adapter.userId

instance (adapter : ThreadHandleIngressAdapter) (coordinates : ThreadCoordinates) :
    Decidable (adapter.InScope coordinates) := inferInstanceAs (Decidable (_ ∧ _))

/-- A program of the daemon that makes these calls. -/
abbrev IngressM (δ : Type) := ExceptT δ (Proc IngressCall IngressCall.Reply)

def ask {δ : Type} (call : IngressCall) : IngressM δ call.Reply := Proc.await call

/-- What is at hand, or its failure. -/
def given {δ α : Type} (result : Except δ α) : IngressM δ α := Proc.settle result

/-- What the first loop has come to. -/
structure Gathered where
  outcome : IngressPollOutcome
  ready : List ThreadTerminalSettlement

/-- What a stream that was read comes to. -/
def Gathered.take (gathered : Gathered) (consumer : ThreadCoordinates) :
    Except String (List EventRecord) → Gathered
  | .error err => { gathered with
      outcome := gathered.outcome.recordFailure "control stream read" (controlStreamId consumer).text
        (.verlet (historyText err)) }
  | .ok events =>
    match foldTerminalSettlements consumer events with
    | .ok settlements => { gathered with ready := gathered.ready ++ settlements }
    | .error err      => { gathered with
        outcome := gathered.outcome.recordFailure "control stream fold" (controlStreamId consumer).text
          (.verlet err) }

def gatherFrom (consumer : ThreadCoordinates)
    (gathered : Gathered) : IngressM VerletError Gathered :=
  if ¬ adapter.InScope consumer then return gathered
  else do
    let read : Except String (List EventRecord) ← ask (.readEvents (controlStreamId consumer))
    return gathered.take consumer read

/-- The first loop. -/
def gather (adapter : ThreadHandleIngressAdapter) :
    List ThreadCoordinates → Gathered → IngressM VerletError Gathered
  | [],                     gathered => return gathered
  | consumer :: consumers,  gathered => do
    gather adapter consumers (← gatherFrom adapter consumer gathered)

variable (settlement : ThreadTerminalSettlement)

/-- What follows the sink's answer. -/
def takeAck (outcome : IngressPollOutcome) (ack : IngressAck) :
    IngressM VerletError IngressPollOutcome :=
  let outcome' := if ack.accepted then { outcome with enqueued := outcome.enqueued + 1 } else outcome
  if ack.accepted ∨ ack.reason = some "duplicate dedupe key" then do
    let _ : Unit ← ask (.acknowledge settlement.dispatchId.text)
    return outcome'
  else
    return outcome'.recordSettlementFailure settlement "queue rejection"
      (.rejected (ack.reason.getD "unspecified rejection"))

/-- What follows a submission. -/
def takeAnswer (outcome : IngressPollOutcome) :
    Except String IngressAck → IngressM VerletError IngressPollOutcome
  | .error err =>
    return outcome.recordSettlementFailure settlement "queue submit" (.verlet (.runtimeExecution err))
  | .ok ack => takeAck settlement outcome ack

/-- A settlement whose context was assembled. -/
def submitAssembled (outcome : IngressPollOutcome) :
    Except String SessionContext → IngressM VerletError IngressPollOutcome
  | .error err =>
    return outcome.recordSettlementFailure settlement "context assembly" (.verlet (historyText err))
  | .ok context => do
    let seed : EnvelopeSeed ← ask .seed
    let answer : Except String IngressAck ← ask (.submit (settlement.ingressEnvelope context seed))
    takeAnswer settlement outcome answer

def submitOne (outcome : IngressPollOutcome) (settlement : ThreadTerminalSettlement) :
    IngressM VerletError IngressPollOutcome := do
  let acknowledged : Bool ← ask (.isAcknowledged settlement.dispatchId.text)
  if acknowledged then return outcome
  else do
    let assembled : Except String SessionContext ← ask (.buildContext settlement.child)
    submitAssembled settlement outcome assembled

def pollReadyOnce : IngressM VerletError IngressPollOutcome := do
  let listed : Except String (List ThreadCoordinates) ← ask .listControlStreamCoordinates
  let consumers ← given (listed.mapError historyText)
  let gathered ← gather adapter consumers ⟨⟨0, 0, none⟩, []⟩
  gathered.ready.foldlM submitOne gathered.outcome

/-! ### The target of an outcome -/

def witnessedDispatch (event : EventRecord) : Option String :=
  (((event.payload.index "content").index "payload").index "dispatch_id").asStr

/-- `serde_json::from_value`, with the text of its failure. -/
def decodeIo {α : Type} (serde : Serde α) (text : String) (value : Json) : IoResult α :=
  match serde.fromValue value with
  | .ok a      => .ok a
  | .error err => .error (.bridgeText (text ++ err))

variable (terminal : HandleTerminalEnvelope)

/-- A binding of the dispatch, which must be of its handle and of one consumer. -/
def keepConsumer (what mismatch : String)
    (resolved : Option ThreadCoordinates) (handle : HandleId) (consumer : ThreadCoordinates) :
    IoResult (Option ThreadCoordinates) :=
  if handle ≠ terminal.handle then
    .error (.bridgeText (what ++ " outcome " ++ terminal.dispatchId.text ++ " does not match its durable " ++
      mismatch ++ " binding"))
  else if resolved.any fun existing => existing ≠ consumer then
    .error (.bridgeText (what ++ " outcome " ++ terminal.dispatchId.text ++
      " resolves to multiple consumer threads"))
  else .ok (some consumer)

/-- A spawn binding of the stream. -/
def resolveBinding (resolved : Option ThreadCoordinates)
    (binding : ThreadHandleBinding) : IoResult (Option ThreadCoordinates) :=
  if binding.dispatchId ≠ terminal.dispatchId then .ok resolved
  else keepConsumer terminal "handle" "spawn" resolved binding.handle binding.consumer

/-- The stream has a `thread.spawned` of the dispatch. -/
def hasSpawned (dispatchId : DispatchId) (events : List EventRecord) : Bool :=
  events.any fun event => event.kind = .threadSpawned ∧ rawCorrelation event = some dispatchId.text

/-- A stream, for the outcome of a thread. -/
def resolveThread (resolved : Option ThreadCoordinates)
    (events : List EventRecord) : IoResult (Option ThreadCoordinates) :=
  if ¬ hasSpawned terminal.dispatchId events then .ok resolved
  else
    match foldThreadHandleBindings events with
    | .error err   => .error (.ofKernel err)
    | .ok bindings => bindings.foldlM (resolveBinding terminal) resolved

def witnessedBinding (event : EventRecord) : IoResult (Option HandleDispatchEnvelope) := do
  let witness ← decodeIo Wire.ingressReceived "invalid ingress witness payload: " event.payload
  match witness.content with
  | none         => return none
  | some content => do
    match ← decodeIo Wire.ingressContent "invalid witnessed content: " content with
    | .event kind payload =>
      if kind ≠ handleDispatchContentKind then return none
      else
        return some (← decodeIo Wire.dispatchEnvelope "invalid process dispatch witness payload: "
          payload)
    | _ => return none

/-- A witness of the stream, for the outcome of a process. -/
def resolveWitness (resolved : Option ThreadCoordinates)
    (event : EventRecord) : IoResult (Option ThreadCoordinates) :=
  if event.kind ≠ .ioIngressReceived ∨ witnessedDispatch event ≠ some terminal.dispatchId.text then
    .ok resolved
  else do
    match ← witnessedBinding event with
    | none         => return resolved
    | some binding =>
      if binding.dispatchId ≠ terminal.dispatchId then return resolved
      else keepConsumer terminal "process" "dispatch" resolved binding.handle binding.consumer

/-- What a stream resolves the outcome to. -/
def resolveFrom (resolved : Option ThreadCoordinates)
    (events : List EventRecord) : IoResult (Option ThreadCoordinates) :=
  match terminal.handle.kind with
  | .thread  => resolveThread terminal resolved events
  | .process => events.foldlM (resolveWitness terminal) resolved

/-- `verlet_history_error`, of a text. -/
def ioHistory (err : String) : IoError := .bridgeText err

/-- The loop over the control streams. -/
def resolveLoop (adapter : ThreadHandleIngressAdapter) (terminal : HandleTerminalEnvelope) :
    List ThreadCoordinates → Option ThreadCoordinates → IngressM IoError (Option ThreadCoordinates)
  | [],                          resolved => return resolved
  | coordinates :: coordinates', resolved =>
    if ¬ adapter.InScope coordinates then resolveLoop adapter terminal coordinates' resolved
    else do
      let read : Except String (List EventRecord) ← ask (.readEvents (controlStreamId coordinates))
      let events ← given (read.mapError ioHistory)
      let resolved ← given (resolveFrom terminal resolved events)
      resolveLoop adapter terminal coordinates' resolved

/-- What a bridge gives its targets. -/
structure TargetPolicy where
  modelProvider : String
  model : String

def outcomeTarget (policy : TargetPolicy) (envelope : IngressEnvelope) (consumer : ThreadCoordinates) :
    ResolvedIoTarget :=
  { ResolvedIoTarget.new ⟨consumer.tenantId, consumer.userId, consumer.sessionId,
      some consumer.threadId.uuid.text⟩ with
    createThreadIfMissing := false
    providerPolicy := some ⟨policy.modelProvider, policy.model, []⟩
    metadata := [("verlet_source_scope", envelope.source.stableScope)] }

/-- `resolve_handle_outcome_target`, of an envelope whose content is an event with the payload. -/
def resolveHandleOutcomeTarget (policy : TargetPolicy)
    (envelope : IngressEnvelope) (payload : Json) : IngressM IoError ResolvedIoTarget := do
  let terminal ← given (decodeIo Wire.terminalEnvelope "invalid handle outcome payload: " payload)
  let listed : Except String (List ThreadCoordinates) ← ask .listControlStreamCoordinates
  let coordinates ← given (listed.mapError ioHistory)
  match ← resolveLoop adapter terminal coordinates none with
  | none => throw (.bridgeText ("handle outcome " ++ terminal.dispatchId.text ++
      " has no durable spawn binding"))
  | some consumer => return outcomeTarget policy envelope consumer

/-! ### The streams, the sink and the adapter -/

/-- The rows of the event table, what the sink has accepted, and what the adapter has acknowledged. -/
structure IngressWorld where
  rows : List EventRecord
  accepted : List IngressEnvelope
  acknowledged : List String

/-- `read_events`, of the rows. -/
def eventsOf (rows : List EventRecord) (streamId : EventStreamId) : List EventRecord :=
  rows.filter fun row => row.streamId = streamId

/-- `list_control_stream_coordinates`, of the rows. -/
def controlCoordinates (rows : List EventRecord) : List ThreadCoordinates :=
  ((rows.filter fun row => likeControl row.streamId).map (·.coordinates)).dedup.insertionSort
    fun c c' => coordinatesBefore c c'

/-- The record is of a child of the request, under its correlation id: the first under it, and of the
thread of the stream, as the others are. -/
structure WritesSpawned (before : List EventRecord) (event request : EventRecord)
    (requested : ThreadSpawnRequestedPayload) (payload : ThreadSpawnedPayload) : Prop where
  hmem : request ∈ before
  hrequest : requestOf ⟨requested.correlationId⟩ request = some (request, requested)
  hkind : event.kind = .threadSpawned
  hstream : controlStreamId event.coordinates = event.streamId
  hpayload : Wire.spawned.fromValue event.payload = .ok payload
  hparent : payload.parentThreadId = event.coordinates.threadId
  hrequested : requested.parentThreadId = event.coordinates.threadId
  hcorrelation : rawCorrelation event = some requested.correlationId
  hsource : request.id ∈ event.provenance.sourceEventIds
  hfirst : ∀ other ∈ before, other.kind = .threadSpawned →
    rawCorrelation other ≠ some requested.correlationId
  hthread : ∀ other ∈ before, other.kind = .threadSpawned → rawCorrelation other ≠ none →
    other.coordinates = event.coordinates

/-- The record is the first join of the child that `spawned` is of. -/
structure WritesJoined (before : List EventRecord) (event spawned : EventRecord)
    (payload : ThreadJoinedPayload) : Prop where
  hmem : spawned ∈ before
  hspawned : spawned.kind = .threadSpawned
  hchild : (spawned.payload.index "child_thread_id").asStr = some payload.childThreadId.uuid.text
  hkind : event.kind = .threadJoined
  hpayload : Wire.joined.fromValue event.payload = .ok payload
  hspawn : joinsSpawn event = some spawned.id.uuid.text
  hfirst : ∀ other ∈ before, other.kind = .threadJoined → joinsSpawn other ≠ some spawned.id.uuid.text

/-- What stands in a control stream: the requests of distinct dispatches, the children that the projector
appends for them, children that nobody has asked for by a correlation id, joins, and anything else. -/
inductive SpawnWrites (before : List EventRecord) (event : EventRecord) : Prop
  | requested (hrequest : isSpawnRequest event = true)
      (hnew : ∀ dispatchId, requestOf dispatchId event ≠ none →
        before.findSome? (requestOf dispatchId) = none)
  | spawned {request : EventRecord} {requested : ThreadSpawnRequestedPayload}
      {payload : ThreadSpawnedPayload} (hspawned : WritesSpawned before event request requested payload)
  | unbound (hkind : event.kind = .threadSpawned) (hcorrelation : rawCorrelation event = none)
  | joined {spawned : EventRecord} {payload : ThreadJoinedPayload}
      (hjoined : WritesJoined before event spawned payload)
  | other (hrequest : isSpawnRequest event = false) (hspawned : event.kind ≠ .threadSpawned)
      (hjoined : event.kind ≠ .threadJoined)

/-- What happens besides: a record of the tenant and user is appended under a new id, or the daemon restarts. -/
inductive IngressMoves (adapter : ThreadHandleIngressAdapter) (s : IngressWorld) : IngressWorld → Prop
  | append (event : EventRecord) (hid : ∀ row ∈ s.rows, row.id ≠ event.id)
      (hscope : adapter.InScope event.coordinates)
      (hwrites : SpawnWrites (eventsOf s.rows event.streamId) event) :
      IngressMoves adapter s { s with rows := s.rows ++ [event] }
  | restart : IngressMoves adapter s { s with acknowledged := [] }

/-- The sink takes the envelope: it has accepted none under its key. -/
def Accepts (envelope : IngressEnvelope) (s s' : IngressWorld) : Prop :=
  (∀ earlier ∈ s.accepted, earlier.effectiveDedupeKey ≠ envelope.effectiveDedupeKey) ∧
    s' = { s with accepted := s.accepted ++ [envelope] }

/-- How the sink answers. -/
inductive SubmitServes (envelope : IngressEnvelope) (s : IngressWorld) :
    Except String IngressAck → IngressWorld → Prop
  | accepted {s' : IngressWorld} (ack : IngressAck) (haccepted : ack.accepted = true)
      (haccepts : Accepts envelope s s') : SubmitServes envelope s (.ok ack) s'
  | duplicate (ack : IngressAck) (haccepted : ack.accepted = false)
      (hreason : ack.reason = some "duplicate dedupe key")
      (hkey : ∃ earlier ∈ s.accepted, earlier.effectiveDedupeKey = envelope.effectiveDedupeKey) :
      SubmitServes envelope s (.ok ack) s
  | rejected (ack : IngressAck) (haccepted : ack.accepted = false)
      (hreason : ack.reason ≠ some "duplicate dedupe key") : SubmitServes envelope s (.ok ack) s
  | failed (err : String) : SubmitServes envelope s (.error err) s
  /-- It has accepted the envelope, and the answer is lost. -/
  | lost {s' : IngressWorld} (err : String) (haccepts : Accepts envelope s s') :
      SubmitServes envelope s (.error err) s'

def ingressServes : (call : IngressCall) → IngressWorld → call.Reply → IngressWorld → Prop
  | .listControlStreamCoordinates, s, r, s' =>
    ((∃ err, r = .error err) ∨ r = .ok (controlCoordinates s.rows)) ∧ s' = s
  | .readEvents streamId, s, r, s' => ((∃ err, r = .error err) ∨ r = .ok (eventsOf s.rows streamId)) ∧ s' = s
  | .buildContext _, s, _, s' => s' = s
  | .seed, s, _, s' => s' = s
  | .isAcknowledged dispatchId, s, r, s' => r = Decidable.decide (dispatchId ∈ s.acknowledged) ∧ s' = s
  | .submit envelope, s, r, s' => SubmitServes envelope s r s'
  | .acknowledge dispatchId, s, _, s' => s' = { s with acknowledged := dispatchId :: s.acknowledged }

/-- The call is answered: nothing fails, and the sink takes what it has not taken. -/
def Answered : (call : IngressCall) → call.Reply → Prop
  | .listControlStreamCoordinates, r => ∃ listed, r = .ok listed
  | .readEvents _, r => ∃ events, r = .ok events
  | .buildContext _, r => ∃ context, r = .ok context
  | .submit _, r => ∃ ack : IngressAck, r = .ok ack ∧
      (ack.accepted = true ∨ ack.reason = some "duplicate dedupe key")
  | _, _ => True

abbrev Passes := Pool Nat IngressCall IngressCall.Reply (Except VerletError IngressPollOutcome) IngressWorld

/-- Nothing has been written. -/
def IngressWorld.empty : IngressWorld := ⟨[], [], []⟩

/-- What runs of the adapter lead to. -/
abbrev ReachesPasses (passes : Passes) : Prop :=
  Pool.Reachable (fun _ _ pass => pass = (pollReadyOnce adapter).run) (fun _ => ingressServes)
    (IngressMoves adapter) IngressWorld.empty passes

end Verlet.Daemon.HandleIngress
