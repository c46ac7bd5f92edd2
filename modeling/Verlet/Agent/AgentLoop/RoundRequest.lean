import Verlet.Agent.AgentLoop

/-!
# Agent — The agent loop — The request of a round

`AgentLoop::run_turn`: a round reads the session entries of the thread, shows the steers that came during
the turn as contexts of their own, assembles the request of the round, and writes down under
`context.compile.completed` what it was assembled from before it is sent.
-/

namespace Verlet.Agent
open Support Kernel History LoopM

variable {φ : Type} (setup : LoopSetup φ)

/-! ### Steers -/

def admittedEntryIds (events : List EventRecord) (turnDeliveryStartSequence : EventSequence) :
    List String :=
  (events.filter fun event => turnDeliveryStartSequence < event.sequence ∧
    event.kind = .sessionEntryAppended).filterMap fun event => (event.payload.index "entry_id").asStr

/-- The `session_entry_ids` of a receipt. -/
def receiptEntryIds (event : EventRecord) : List String :=
  match event.payload.index "session_entry_ids" with
  | .arr ids => ids.filterMap Json.asStr
  | .null | .bool _ | .num _ | .str _ | .obj _ => []

/-- The entries that a request was assembled from, as the receipts name them. -/
def deliveredEntryIds (events : List EventRecord) : List String :=
  (events.filter fun event => event.kind = .contextCompileCompleted).flatMap receiptEntryIds

def canonicalContentTextProjection (content : List CanonicalContent) : String :=
  "\n".intercalate (content.filterMap fun
    | .text text _ => some text
    | .image _ _ | .thinking _ _ _ | .toolCall _ _ _ => none)

def steeringContext (turnId text : String) : Option String :=
  if History.trim text = "" then none
  else some ("Additional user steering for active turn " ++ turnId ++ ":\n" ++ text)

/-- What an entry is shown as, if it is a steer that no request was assembled with. -/
def steerOf (activeTurnId : String) (admitted delivered : List String) (entry : SessionEntry) :
    Option IntraTurnSteeringContext := do
  let turnId ← entry.turnId
  if turnId = activeTurnId ∨ entry.entryId.uuid.text ∉ admitted ∨
      entry.entryId.uuid.text ∈ delivered then none
  else
    match entry.kind with
    | .message (.user content _) =>
      (steeringContext turnId (canonicalContentTextProjection content)).map (⟨entry.entryId, ·⟩)
    | .message (.assistant _ _ _ _ _ _ _ _) | .message (.toolResult _ _ _ _ _ _)
    | .modelChange _ _ _ | .compaction _ | .branchSummary _ | .runtime _ _
    | .customContextMessage _ => none

def intraTurnSteeringContextsFromEvents (events : List EventRecord) (activeTurnId : String)
    (turnDeliveryStartSequence : EventSequence) (sessionEntries : List SessionEntry) :
    List IntraTurnSteeringContext :=
  sessionEntries.filterMap (steerOf activeTurnId (admittedEntryIds events turnDeliveryStartSequence)
    (deliveredEntryIds events))

/-- `undelivered_intra_turn_steering_contexts`, where steers are folded in. -/
def undeliveredSteers (turn : AgentTurn) (foldIntraTurnSteers : Bool)
    (sessionEntries : List SessionEntry) : LoopM (List IntraTurnSteeringContext) :=
  if foldIntraTurnSteers then do
    let events ← readLoopEvents turn.stream (some turn.turnDeliveryStartSequence)
    return intraTurnSteeringContextsFromEvents events turn.turnId turn.turnDeliveryStartSequence
      sessionEntries
  else return []

/-! ### Receipts -/

def sessionContextSourceCutForEntries (coordinates : ThreadCoordinates)
    (sessionEntries : List SessionEntry) : List SessionContextSourceCut :=
  let entryIds := (sessionEntries.filter fun entry =>
    entry.coordinates.threadId = coordinates.threadId).map (·.entryId)
  if entryIds = [] then [] else [⟨coordinates, .forThread coordinates, false, entryIds⟩]

def contextSourceStreams (sourceCuts : List SessionContextSourceCut) (fallback : EventStreamId) :
    List EventStreamId :=
  let streams := sourceCuts.foldl
    (fun streams cut => if cut.streamId ∈ streams then streams else streams ++ [cut.streamId]) []
  if streams = [] then [fallback] else streams

def primaryContextSourceRange (streamId : EventStreamId)
    (sourceRanges : List ObservationSourceRange) : Option ObservationSourceRange :=
  (sourceRanges.reverse.find? fun range => range.streamId = streamId).or sourceRanges.head?

def contextCompileReceiptPayload (turnId : String) (sessionEntries : List SessionEntry)
    (assembled : AssembledRequest) (segments : List (StaticContextSegment φ)) :
    List (String × Json) :=
  [("turn_id", .str turnId), ("strategy", .str "naive_assembly"), ("strategy_version", .str "v1"),
    ("session_entry_ids", .arr (sessionEntries.map fun entry => .str entry.entryId.uuid.text)),
    ("observation_ids", .arr []),
    ("system_block_count", .num (.int assembled.compiledContext.system.length)),
    ("message_count", .num (.int assembled.compiledContext.messages.length)),
    ("tool_count", .num (.int assembled.compiledContext.tools.length)),
    ("static_context_segments", .arr (segments.map setup.segmentJson)),
    ("diagnostics", setup.diagnosticsJson assembled),
    ("replay_transform", setup.replayTransformJson assembled),
    ("provider_dropped_messages", .num (.int assembled.providerDroppedMessages)),
    ("provider_truncated_text_bytes", .num (.int assembled.providerTruncatedTextBytes)),
    ("provider_retained_text_bytes", .num (.int assembled.providerRetainedTextBytes)),
    ("output_hash", .str (setup.sha256Json (setup.messagesJson assembled.compiledContext.messages)))]

/-- `context_compile_payload_v1`, of a payload without the two keys that it adds. -/
def contextCompilePayloadV1 (payload : List (String × Json)) (streamId : EventStreamId)
    (sourceRanges : List ObservationSourceRange) (sourceStreams : List EventStreamId) : Json :=
  Wire.object (payload ++
    [("schema", .str EventKind.contextCompileCompleted.payloadSchemaId),
      ("read_plan", setup.readPlan streamId sourceRanges sourceStreams)])

/-- The record of `record_context_compile_receipt_with_source_cuts`. -/
def contextCompileRecord (coordinates : ThreadCoordinates) (payload : Json)
    (sourceRanges : List ObservationSourceRange) (sourceStreams : List EventStreamId) (draw : Draw) :
    NewEventRecord :=
  .discharged draw coordinates .contextCompileCompleted payload
    { EventProvenance.empty with
      sourceStreams := sourceStreams
      sourceRange := primaryContextSourceRange (.forThread coordinates) sourceRanges
      sourceRanges := sourceRanges
      dischargedBy := some "projection:context-compiler"
      function := some "naive_assembly/v1" }

/-- `record_context_compile_receipt_with_source_cuts`. -/
def recordContextCompileReceipt (coordinates : ThreadCoordinates) (sessionEntries : List SessionEntry)
    (sourceCuts : List SessionContextSourceCut) (payload : List (String × Json)) : LoopM Unit := do
  let sourceCuts :=
    if sourceCuts = [] then sessionContextSourceCutForEntries coordinates sessionEntries else sourceCuts
  let answer ← ask (.contextSourceRanges sourceCuts)
  let sourceRanges ← given answer
  let sourceStreams := contextSourceStreams sourceCuts (.forThread coordinates)
  let payload := contextCompilePayloadV1 setup payload (.forThread coordinates) sourceRanges
    sourceStreams
  let draw ← ask .draw
  let _ ← appendLoopEvent (.forThread coordinates)
    (contextCompileRecord coordinates payload sourceRanges sourceStreams draw)
  let answer ← ask (.appendObservation coordinates "compiled_context_receipt" payload)
  given (orLoop (orHistory answer))

/-! ### The round -/

/-- `AgentLoop::tool_definitions`: its own, and what else the router has, of each name the first. -/
def loopToolDefinitions (runtime : AgentLoop φ) : LoopM (List ToolDefinition) :=
  if runtime.hasToolRouter then do
    let (routed : List ToolDefinition) ← ask .toolDefinitions
    return routed.foldl
      (fun tools tool => if tool.name ∈ tools.map (·.name) then tools else tools ++ [tool])
      runtime.tools
  else return runtime.tools

/-- `run_turn`, up to the request that it sends. -/
def assembleRound (runtime : AgentLoop φ) (turn : AgentTurn) (foldIntraTurnSteers : Bool) :
    LoopM ProviderRequest := do
  let answer ← ask (.buildContext turn.coordinates)
  let context ← given (orLoop (orHistory answer))
  let steeringContexts ← undeliveredSteers turn foldIntraTurnSteers context.entries
  let answer ← ask (.buildRecallReadPlanContexts turn.coordinates)
  let memoryContexts ← given answer
  let answer ← ask (.buildInstructionReadPlanContexts turn.coordinates)
  let instructionContexts ← given answer
  let skillContextSegments ← given runtime.skillContextSegments
  let staticContextSegments ← given runtime.staticContextSegments
  let tools ← loopToolDefinitions runtime
  let assembled := assembleRequest setup.fractionalBudgetLimit
    { sessionEntries := context.entries
      steeringContexts := steeringContexts
      turnContext := turn.context
      turnAnchorTimestampMs := turn.turnAnchorTimestampMs
      skillContexts := skillContextSegments.map (·.content)
      memoryContexts := memoryContexts
      instructionContexts := instructionContexts
      staticContextSegments := staticContextSegments
      system := runtime.system
      tools := tools
      contextCompilePolicy := runtime.contextCompilePolicy
      endpoint := turn.endpoint }
  recordContextCompileReceipt setup turn.coordinates context.entries context.sourceCuts
    (contextCompileReceiptPayload setup turn.turnId context.entries assembled
      (staticContextSegments ++ skillContextSegments))
  return assembled.request

/-- `AgentLoop::run_turn`. -/
def runTurn (runtime : AgentLoop φ) (turn : AgentTurn) (foldIntraTurnSteers : Bool) :
    LoopM (Except TerminalTurnFailure CanonicalMessage) := do
  match ← attempt (assembleRound setup runtime turn foldIntraTurnSteers) with
  | .error error => return .error (.ofError setup.errorText error)
  | .ok request  => ask (.executeProviderRequest request)

end Verlet.Agent
