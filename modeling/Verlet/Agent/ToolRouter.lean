import Mathlib.Data.String.Basic
import Verlet.Support.Keyed
import Verlet.Support.Programs
import Verlet.Support.Utf8
import Verlet.Kernel.MandateLifecycle

/-!
# Agent — The tool router

`AgentToolRouter`: what tools an agent is shown, and where a call of one goes.  Both searches go over
the aliases of the router, the operation registry and the kernel tool providers, each in its own way.

The registry's `list`, a provider's `tool_definitions` and the router's own tables are data here: nothing
changes them between the two searches.  What a call does is a program over the invocation of a
registered operation, the invocation of a provider and the clock; `serde_json` is a `ToolLibrary`.
Of an operation's projection only what the router reads is kept.
-/

namespace Verlet.Agent
open Support
open Support.Proc (await settle)
open History
open RemoteStore (VerletError VerletResult)
open Kernel (debugText)

/-! ### Operations -/

inductive WasmOperationValueKind where
  | bytes
  | text
  | json

inductive WasmOperationEventKind where
  | none
  | jsonl

structure WasmOperationDefinition where
  id : Nat
  name : String
  input : WasmOperationValueKind
  output : WasmOperationValueKind
  events : WasmOperationEventKind

inductive AbiSinkBinding where
  | invocationOutput
  | durableArtifact (path : Option String)

inductive AbiEventBinding where
  | invocationEvents
  | durableLog (path : Option String)

/-- `AbiOperationContract`, the bindings of its sink and event ports. -/
structure AbiOperationContract where
  sinkPorts : List AbiSinkBinding
  eventPorts : List AbiEventBinding

def AbiOperationContract.fromOperation (operation : WasmOperationDefinition) :
    AbiOperationContract where
  sinkPorts := [.invocationOutput]
  eventPorts := match operation.events with
    | .none  => []
    | .jsonl => [.invocationEvents]

def AbiOperationContract.hasHiddenDurableSink (abi : AbiOperationContract) : Bool :=
  abi.sinkPorts.any (fun port => match port with
    | .durableArtifact _ => true
    | .invocationOutput  => false) ||
  abi.eventPorts.any (fun port => match port with
    | .durableLog _     => true
    | .invocationEvents => false)

/-- The characters of `projection_tool_name_part`, before the trimming. -/
def normalizedPart : Bool → List Char → List Char
  | _,         []      => []
  | separated, c :: cs =>
    if c.isAlphanum then c.toLower :: normalizedPart false cs
    else if separated then normalizedPart true cs
    else '_' :: normalizedPart true cs

def projectionToolNamePart (raw : String) : String :=
  let name := normalizedPart false raw.toList
  String.ofList ((name.dropWhile (· = '_')).reverse.dropWhile (· = '_')).reverse

def projectionToolName (registeredName operationName : String) : String :=
  let registered := projectionToolNamePart registeredName
  let operation := projectionToolNamePart operationName
  if registered = operation then operation else registered ++ "_" ++ operation

structure OperationProjection where
  registeredName : String
  operationName : String
  input : WasmOperationValueKind
  output : WasmOperationValueKind
  /-- `llm_tool.name`. -/
  llmToolName : String
  abi : AbiOperationContract

def OperationProjection.fromOperation (registeredName : String)
    (operation : WasmOperationDefinition) : OperationProjection where
  registeredName
  operationName := operation.name
  input := operation.input
  output := operation.output
  llmToolName := projectionToolName registeredName operation.name
  abi := .fromOperation operation

/-- `RegisteredOperation`: the operations of its manifest, and its metadata. -/
structure RegisteredOperation where
  name : String
  operations : List WasmOperationDefinition
  metadata : List (String × Json)

/-- `projections().operations`. -/
def RegisteredOperation.projections (record : RegisteredOperation) : List OperationProjection :=
  record.operations.map (.fromOperation record.name)

def isKernelRecord (record : RegisteredOperation) : Bool :=
  (record.metadata.lookup "cooldis.runtime.kind").bind Json.asStr = some "kernel"

/-! ### The router -/

/-- `ToolDefinition` of the provider crate. -/
structure ToolDefinition where
  name : String
  description : String
  inputSchema : Json
  cacheControl : Option CacheControl

def ToolDefinition.new (name description : String) (inputSchema : Json) : ToolDefinition :=
  { name, description, inputSchema, cacheControl := none }

structure ToolCallSurface where
  modelInputSchema : Json
  envelopeInputSchema : Json
  argsField : String
  /-- By key, every key once. -/
  boundValues : List (String × Json)

structure OperationToolAlias where
  toolName : String
  registeredName : String
  operationName : String
  attachEventId : Option EventRecordId
  surface : Option ToolCallSurface

/-- `AgentToolRouter`: the registry is its records by name, a provider the tools it defines. -/
structure AgentToolRouter where
  operationRegistry : Keyed RegisteredOperation.name
  kernelToolProviders : List (List ToolDefinition)
  toolAliases : Keyed OperationToolAlias.toolName

namespace AgentToolRouter

/-- `AgentToolRouter::new`. -/
def new (operationRegistry : Keyed RegisteredOperation.name) : AgentToolRouter :=
  { operationRegistry, kernelToolProviders := [], toolAliases := .empty }

def withKernelToolProvider (router : AgentToolRouter) (provider : List ToolDefinition) :
    AgentToolRouter :=
  { router with kernelToolProviders := router.kernelToolProviders ++ [provider] }

def withToolAliases (router : AgentToolRouter) (aliases : List OperationToolAlias) :
    AgentToolRouter :=
  { router with toolAliases := aliases.foldl Keyed.insert router.toolAliases }

variable (router : AgentToolRouter)

def projectionForRegisteredOperation (registeredName operationName : String) :
    Option OperationProjection :=
  router.operationRegistry.values.findSome? fun record =>
    if record.name ≠ registeredName then none
    else record.projections.find? fun projection => projection.operationName = operationName

/-- `projection_for_tool_name`: an alias is looked up and nothing after it. -/
def projectionForToolName (toolName : String) : Option OperationProjection :=
  match router.toolAliases.get? toolName with
  | some entry => router.projectionForRegisteredOperation entry.registeredName entry.operationName
  | none =>
    router.operationRegistry.values.findSome? fun record =>
      if isKernelRecord record then none
      else record.projections.find? fun projection => projection.llmToolName = toolName

/-- `kernel_tool_provider_for_name`, the provider by its place. -/
def kernelToolProviderForName (toolName : String) : Option Nat :=
  router.kernelToolProviders.findIdx? fun definitions =>
    definitions.any fun tool => tool.name = toolName

end AgentToolRouter

/-! ### The tools shown -/

def textInputSchema (description : String) : Json :=
  .obj [("additionalProperties", .bool false),
    ("properties", .obj [("input", .obj [("description", .str description),
      ("type", .str "string")])]),
    ("required", .arr [.str "input"]), ("type", .str "object")]

def inputSchemaForValueKind : WasmOperationValueKind → Json
  | .json  => .obj [("additionalProperties", .bool true), ("type", .str "object")]
  | .text  => textInputSchema "UTF-8 text input for the operation."
  | .bytes => textInputSchema "UTF-8 text that Verlet passes as operation input bytes."

/-- `format!("Run Verlet operation {}/{}.", ..)`. -/
def runDescription (projection : OperationProjection) : String :=
  "Run Verlet operation " ++ projection.registeredName ++ "/" ++ projection.operationName ++ "."

def OperationToolAlias.definition (entry : OperationToolAlias) (projection : OperationProjection) :
    ToolDefinition :=
  .new entry.toolName (runDescription projection)
    (match entry.surface with
      | some surface => surface.modelInputSchema
      | none         => inputSchemaForValueKind projection.input)

def OperationProjection.definition (projection : OperationProjection) : ToolDefinition :=
  .new projection.llmToolName (runDescription projection) (inputSchemaForValueKind projection.input)

namespace AgentToolRouter

variable (router : AgentToolRouter)

/-- `tool_definitions`.  The three loops share the set of names taken; the name of an alias is taken
also where its operation is not registered. -/
def toolDefinitions : List ToolDefinition :=
  let aliased := router.toolAliases.values.map fun entry =>
    (entry.toolName, (router.projectionForRegisteredOperation entry.registeredName
      entry.operationName).map entry.definition)
  let registered := router.operationRegistry.values.flatMap fun record =>
    if isKernelRecord record then []
    else record.projections.map fun projection =>
      (projection.llmToolName, some projection.definition)
  let provided := router.kernelToolProviders.flatMap fun definitions =>
    definitions.map fun tool => (tool.name, some tool)
  granted (aliased ++ registered ++ provided)

end AgentToolRouter

/-! ### Calls -/

/-- `ToolInvocationCancellation`: the token by its identity. -/
structure ToolInvocationCancellation where
  token : Nat
  graceMs : Nat

/-- `AgentKernelToolCall`; what is known of the turn is handed through. -/
structure AgentKernelToolCall (τ : Type) where
  callId : String
  toolName : String
  arguments : Json
  turnContext : Option τ

inductive VerletProcessBackend where
  | virtualBash
  | hostBash
  | remoteLinux
  | wasmOperation
  | sandbox
  | bridge
  | runtimeThread
  | other (name : String)

structure AgentKernelPendingToolCall where
  processId : Uuid
  backend : VerletProcessBackend

inductive AgentKernelToolOutcome where
  | completed (message : Option CanonicalMessage)
  | pending (call : AgentKernelPendingToolCall)

inductive ToolError where
  /-- `VerletError::RuntimeExecution`, of a text of the router. -/
  | runtimeExecution (text : String)
  /-- The same, of a text of the router and that of a schema error. -/
  | rejected (text : String) (err : Schema.ValidationError)
  /-- The error of what was called. -/
  | passedOn (err : VerletError)

/-- What a call of a tool asks of the rest of the host. -/
inductive RouterCall (τ : Type) where
  /-- `ScopedOperationRegistry::invoke_process_with_kernel_metadata`. -/
  | operation (registeredName operationName : String) (input : List UInt8)
      (kernelMetadata : List (String × Json))
  /-- `invoke_tool_call_cancellable` of the provider at this place, or `invoke_tool_call_outcome`
  where there is no cancellation. -/
  | provider (place : Nat) (call : AgentKernelToolCall τ)
      (cancellation : Option ToolInvocationCancellation)
  | nowMs

/-- What is answered: of an operation, its standard output. -/
def RouterReply {τ : Type} : RouterCall τ → Type
  | .operation _ _ _ _ => VerletResult (List UInt8)
  | .provider _ _ _    => VerletResult AgentKernelToolOutcome
  | .nowMs             => Int

abbrev Routing (τ α : Type) := ExceptT ToolError (Proc (RouterCall τ) RouterReply) α

/-- What the calls use of `serde_json`; a failure is its text. -/
structure ToolLibrary where
  toVec : Json → Except String (List UInt8)
  fromSlice : List UInt8 → Option Json
  toText : Json → Option String

/-- `format!("tool {tool_name:?} call {call_id}")`. -/
def callLabel (callId toolName : String) : String :=
  "tool " ++ debugText toolName ++ " call " ++ callId

/-- `validate_json_value_against_schema(..).map_err(..)`. -/
def validated (schema value : Json) (label text : String) : Except ToolError Unit :=
  match Schema.validateJsonValueAgainstSchema schema value label with
  | .ok ()     => .ok ()
  | .error err => .error (.rejected text err)

def assembleSurfaceEnvelope (callId toolName : String) (surface : ToolCallSurface)
    (arguments : Json) : Except ToolError Json := do
  let label := callLabel callId toolName
  match surface.boundValues.find? fun (name, _) =>
      (arguments.asObject.map fun fields => Json.containsKey fields name).getD false with
  | some (name, _) =>
    throw (.runtimeExecution (label ++ " supplied bound parameter " ++ debugText name ++
      "; bound parameters are host-supplied"))
  | none => pure ()
  validated surface.modelInputSchema arguments (label ++ " model arguments")
    (label ++ " arguments failed schema validation: ")
  let envelope ← surface.boundValues.foldlM (fun envelope (name, value) =>
    if Json.containsKey envelope name then
      throw (.runtimeExecution (label ++ " surface args_field " ++ debugText surface.argsField ++
        " collides with bound parameter " ++ debugText name))
    else pure (Json.insertField name value envelope))
    (Json.insertField surface.argsField arguments [])
  validated surface.envelopeInputSchema (.obj envelope) (label ++ " assembled envelope")
    (label ++ " assembled envelope failed schema validation: ")
  return .obj envelope

variable (library : ToolLibrary)

def encodeToolInput (callId toolName : String) (projection : OperationProjection)
    (arguments : Json) : Except ToolError (List UInt8) :=
  let label := callLabel callId toolName
  match projection.input with
  | .json =>
    if arguments.asObject.isNone then
      .error (.runtimeExecution (label ++ " requires object arguments"))
    else
      match library.toVec arguments with
      | .ok bytes  => .ok bytes
      | .error err => .error (.runtimeExecution (label ++ " has invalid JSON input: " ++ err))
  | .text | .bytes =>
    match arguments with
    | .str value => .ok (Utf8.encode value.toList)
    | .obj fields =>
      match (Json.get? fields "input").bind Json.asStr with
      | some value => .ok (Utf8.encode value.toList)
      | none => .error (.runtimeExecution (label ++ " requires a string input field"))
    | _ => .error (.runtimeExecution (label ++ " requires object arguments"))

def decodeToolOutput : WasmOperationValueKind → List UInt8 → String
  | .json, bytes =>
    ((library.fromSlice bytes).bind library.toText).getD (String.ofList (Utf8.lossy bytes))
  | .text, bytes | .bytes, bytes => String.ofList (Utf8.lossy bytes)

/-- `CanonicalMessage::tool_result`, the clock read. -/
def toolResult (callId toolName content : String) (isError : Bool) (nowMs : Int) :
    CanonicalMessage :=
  .toolResult callId toolName [.text content none] isError none nowMs

/-- The error of what was called, passed on by `?`. -/
def passedOn {α : Type} : VerletResult α → Except ToolError α
  | .ok a      => .ok a
  | .error err => .error (.passedOn err)

/-- `format!("unknown tool {tool_name:?}")`. -/
def unknownTool (toolName : String) : ToolError :=
  .runtimeExecution ("unknown tool " ++ debugText toolName)

namespace AgentToolRouter

variable {τ : Type} (router : AgentToolRouter)

def invokeOperation (callId toolName : String) (projection : OperationProjection)
    (arguments : Json) : Routing τ AgentKernelToolOutcome :=
  if projection.abi.hasHiddenDurableSink then
    throw (.runtimeExecution ("tool " ++ debugText toolName ++ " has a hidden durable sink"))
  else do
    let arguments ← settle (match (router.toolAliases.get? toolName).bind (·.surface) with
      | some surface => assembleSurfaceEnvelope callId toolName surface arguments
      | none         => .ok arguments)
    let input ← settle (encodeToolInput library callId toolName projection arguments)
    let reply ← await (RouterCall.operation projection.registeredName projection.operationName input
      [("cooldis.tool_call_id", .str callId), ("cooldis.tool_name", .str toolName)] : RouterCall τ)
    let stdout ← settle (passedOn (reply : VerletResult (List UInt8)))
    let now ← await (RouterCall.nowMs : RouterCall τ)
    return .completed (some (toolResult callId toolName
      (decodeToolOutput library projection.output stdout) false (now : Int)))

def invokeProvider (place : Nat) (call : AgentKernelToolCall τ)
    (cancellation : Option ToolInvocationCancellation) : Routing τ AgentKernelToolOutcome := do
  let reply ← await (RouterCall.provider place call cancellation : RouterCall τ)
  match ← settle (passedOn (reply : VerletResult AgentKernelToolOutcome)) with
  | .completed none => throw (unknownTool call.toolName)
  | outcome         => return outcome

/-- `invoke_tool_call_outcome_message`: a projection, or else a provider. -/
def invokeToolCallOutcomeMessage (turnContext : Option τ) (callId toolName : String)
    (arguments : Json) (cancellation : Option ToolInvocationCancellation) :
    Routing τ AgentKernelToolOutcome :=
  match router.projectionForToolName toolName with
  | some projection => router.invokeOperation library callId toolName projection arguments
  | none =>
    match router.kernelToolProviderForName toolName with
    | some place =>
      invokeProvider place { callId, toolName, arguments, turnContext } cancellation
    | none => throw (unknownTool toolName)

end AgentToolRouter

end Verlet.Agent
