import Verlet.Kernel.ControlDecision.Wire

/-!
# Agent — Tool holds

`tool_holds`: what a tool call holds while it runs, derived from its name and its arguments, and which
calls of a batch wait for which.  A hold occupies its key alone or with others; calls that conflict run
in the order of the batch.
-/

namespace Verlet.Agent
open Support
open Kernel (Serde)
open Kernel.Wire

inductive ToolHoldAccess where
  | shared
  | exclusive
deriving DecidableEq

inductive ToolHoldKey where
  | shellSession
  | kernelThread (taskName : String)
  | mcpServer (server : String)
  | global
deriving DecidableEq

structure ToolHold where
  key : ToolHoldKey
  access : ToolHoldAccess

def withGlobalFloor (holds : List ToolHold) : List ToolHold :=
  if holds.any fun hold => hold.key = .global then holds else holds ++ [⟨.global, .shared⟩]

def namedArgument (arguments : Json) (key : String) : Option String :=
  (arguments.index key).asStr.filter (· ≠ "")

def deriveToolHolds (toolName : String) (arguments : Json) : List ToolHold :=
  if toolName ∈ ["bash", "process_exec", "write_stdin", "process_write", "process_poll",
      "process_terminate"] then
    withGlobalFloor [⟨.shellSession, .exclusive⟩]
  else if toolName ∈ ["thread_spawn", "thread_submit", "thread_wait", "thread_status",
      "thread_cancel"] then
    match namedArgument arguments "task_name" with
    | some taskName => withGlobalFloor [⟨.kernelThread taskName, .exclusive⟩]
    | none          => [⟨.global, .exclusive⟩]
  else if toolName = "tool_call" then
    match namedArgument arguments "universe" with
    | some server => withGlobalFloor [⟨.mcpServer server, .shared⟩]
    | none        => [⟨.global, .exclusive⟩]
  else if toolName ∈ ["tool_search", "tool_describe", "mandate_list"] then [⟨.global, .shared⟩]
  else [⟨.global, .exclusive⟩]

def holdsConflict (holds holds' : List ToolHold) : Bool :=
  holds.any fun left => holds'.any fun right =>
    left.key = right.key ∧ (left.access = .exclusive ∨ right.access = .exclusive)

/-- `batch_wait_edges`: for each call, the earlier ones that it waits for. -/
def batchWaitEdges (holds : List (List ToolHold)) : List (List Nat) :=
  holds.zipIdx.map fun (call, index) =>
    (List.range index).filter fun earlier => (holds[earlier]?.any fun h => holdsConflict h call)

namespace Wire

def toolHoldKey : Serde ToolHoldKey where
  toValue
    | .shellSession          => object [("kind", .str "shell_session")]
    | .kernelThread taskName =>
      object [("kind", .str "kernel_thread"), ("task_name", .str taskName)]
    | .mcpServer server => object [("kind", .str "mcp_server"), ("server", .str server)]
    | .global => object [("kind", .str "global")]
  fromValue value := do
    let fields ← fieldsOf value
    let tag ← required text fields "kind"
    if tag = "shell_session" then return .shellSession
    else if tag = "kernel_thread" then return .kernelThread (← required text fields "task_name")
    else if tag = "mcp_server" then return .mcpServer (← required text fields "server")
    else if tag = "global" then return .global
    else throw s!"unknown variant {tag}"

def toolHoldAccess : Serde ToolHoldAccess where
  toValue
    | .shared    => .str "shared"
    | .exclusive => .str "exclusive"
  fromValue value := do
    let tag ← text value
    if tag = "shared" then return .shared
    else if tag = "exclusive" then return .exclusive
    else throw s!"unknown variant {tag}"

def toolHold : Serde ToolHold where
  toValue h := object [("key", toolHoldKey.toValue h.key), ("access", toolHoldAccess.toValue h.access)]
  fromValue value := do
    let fields ← fieldsOf value
    return ⟨← required toolHoldKey.fromValue fields "key",
      ← required toolHoldAccess.fromValue fields "access"⟩

end Wire

end Verlet.Agent
