import Verlet.Kernel.ControlDecision.Wire

/-!
# Kernel — Handles

A handle is a durable reference to work in flight.  The call that makes one declares a dispatch id;
the handle comes to one terminal outcome, delivered to the consumer as ingress content.
-/

namespace Verlet.Kernel
open Support History
open RemoteStore (DispatchId)

def handleDispatchContentKind : String := "cooldis.handle.dispatch/1"

def handleOutcomeContentKind : String := "cooldis.handle.outcome/1"

inductive HandleKind where
  | thread
  | process
deriving DecidableEq

structure HandleId where
  kind : HandleKind
  id : String
deriving DecidableEq

def HandleId.thread (threadId : ThreadId) : HandleId := ⟨.thread, threadId.uuid.text⟩

def HandleId.process (processId : String) : HandleId := ⟨.process, processId⟩

/-- The dispatch of a process: which handle it has and for whom. -/
structure HandleDispatchEnvelope where
  dispatchId : DispatchId
  handle : HandleId
  consumer : ThreadCoordinates
  commandDigest : String
deriving DecidableEq

inductive HandleTerminalOutcome where
  | completed
  | failed
  | cancelled
deriving DecidableEq

structure RuntimeUsage where
  inputTokens : Nat
  outputTokens : Nat
  cacheCreationInputTokens : Nat
  cacheReadInputTokens : Nat
deriving DecidableEq

structure HandleTerminalEnvelope where
  dispatchId : DispatchId
  handle : HandleId
  outcome : HandleTerminalOutcome
  outcomeReason : Option String
  result : Option Json
  resultSchemaId : Option String
  artifactRefs : List String
  usage : Option RuntimeUsage
  retryable : Bool
deriving DecidableEq

/-! ### On the wire -/

namespace Wire

def handleKind : Serde HandleKind where
  toValue
    | .thread  => .str "thread"
    | .process => .str "process"
  fromValue value := do
    let tag ← text value
    if tag = "thread" then return .thread
    else if tag = "process" then return .process
    else throw s!"unknown variant {tag}"

def handleId : Serde HandleId where
  toValue h := object [("kind", handleKind.toValue h.kind), ("id", .str h.id)]
  fromValue value := do
    let fields ← fieldsOf value
    return ⟨← required handleKind.fromValue fields "kind", ← required text fields "id"⟩

def dispatchId : Serde DispatchId where
  toValue id := .str id.text
  fromValue value := DispatchId.mk <$> text value

def coordinates : Serde ThreadCoordinates where
  toValue := ThreadCoordinates.toValue
  fromValue value := do
    let fields ← fieldsOf value
    return ⟨← required text fields "tenant_id", ← required text fields "user_id",
      ← required text fields "session_id", ← required threadId fields "thread_id"⟩

def dispatchEnvelope : Serde HandleDispatchEnvelope where
  toValue e := object [("dispatch_id", dispatchId.toValue e.dispatchId),
    ("handle", handleId.toValue e.handle), ("consumer", coordinates.toValue e.consumer),
    ("command_digest", .str e.commandDigest)]
  fromValue value := do
    let fields ← fieldsOf value
    return ⟨← required dispatchId.fromValue fields "dispatch_id",
      ← required handleId.fromValue fields "handle",
      ← required coordinates.fromValue fields "consumer", ← required text fields "command_digest"⟩

def terminalOutcome : Serde HandleTerminalOutcome where
  toValue
    | .completed => .str "completed"
    | .failed    => .str "failed"
    | .cancelled => .str "cancelled"
  fromValue value := do
    let tag ← text value
    if tag = "completed" then return .completed
    else if tag = "failed" then return .failed
    else if tag = "cancelled" then return .cancelled
    else throw s!"unknown variant {tag}"

def runtimeUsage : Serde RuntimeUsage where
  toValue u := object [("input_tokens", .num (.int u.inputTokens)),
    ("output_tokens", .num (.int u.outputTokens)),
    ("cache_creation_input_tokens", .num (.int u.cacheCreationInputTokens)),
    ("cache_read_input_tokens", .num (.int u.cacheReadInputTokens))]
  fromValue value := do
    let fields ← fieldsOf value
    return ⟨← required natural fields "input_tokens", ← required natural fields "output_tokens",
      ← required natural fields "cache_creation_input_tokens",
      ← required natural fields "cache_read_input_tokens"⟩

def terminalEnvelope : Serde HandleTerminalEnvelope where
  toValue e := object ([("dispatch_id", dispatchId.toValue e.dispatchId),
    ("handle", handleId.toValue e.handle), ("outcome", terminalOutcome.toValue e.outcome)] ++
      (optional "outcome_reason" .str e.outcomeReason ++ (optional "result" id e.result ++
        (optional "result_schema_id" .str e.resultSchemaId ++
          ((if e.artifactRefs.isEmpty then [] else
            [("artifact_refs", .arr (e.artifactRefs.map .str))]) ++
            (optional "usage" runtimeUsage.toValue e.usage ++ [("retryable", .bool e.retryable)]))))))
  fromValue value := do
    let fields ← fieldsOf value
    return ⟨← required dispatchId.fromValue fields "dispatch_id",
      ← required handleId.fromValue fields "handle",
      ← required terminalOutcome.fromValue fields "outcome",
      ← option text fields "outcome_reason", ← option .ok fields "result",
      ← option text fields "result_schema_id", (← option (list text) fields "artifact_refs").getD [],
      ← option runtimeUsage.fromValue fields "usage", ← required flag fields "retryable"⟩

theorem option_absent {α : Type} {dec : Json → Except String α} {fields : List (String × Json)}
    {key : String} (hkey : Json.get? fields key = none) : option dec fields key = .ok none := by
  rw [option, hkey]

theorem option_value {fields : List (String × Json)} {key : String} {value : Option Json}
    (hkey : Json.get? fields key = value) (hnull : value ≠ some .null) :
    option .ok fields key = .ok value := by
  rw [option, hkey]
  split
  · rfl
  · exact absurd rfl hnull
  · rfl

theorem reads_handleKind : Reads handleKind.toValue handleKind.fromValue := by
  refine ⟨fun kind => ?_, fun kind => by cases kind <;> simp [handleKind]⟩
  cases kind <;> rfl

theorem reads_handleId : Reads handleId.toValue handleId.fromValue := by
  refine ⟨fun h => ?_, fun _ => by simp [handleId, object]⟩
  exact bind_ok.mpr ⟨_, rfl, reads_handleKind.required (by simp [get?_object]) <|
    reads_text.required (by simp [get?_object]) rfl⟩

theorem reads_dispatchId : Reads dispatchId.toValue dispatchId.fromValue :=
  ⟨fun _ => rfl, fun _ => by simp [dispatchId]⟩

theorem reads_terminalOutcome : Reads terminalOutcome.toValue terminalOutcome.fromValue := by
  refine ⟨fun outcome => ?_, fun outcome => by cases outcome <;> simp [terminalOutcome]⟩
  cases outcome <;> rfl

theorem reads_coordinates : Reads coordinates.toValue coordinates.fromValue := by
  refine ⟨fun c => ?_, fun _ => by simp [coordinates, ThreadCoordinates.toValue]⟩
  refine bind_ok.mpr ⟨_, rfl, reads_text.required ?_ <| reads_text.required ?_ <|
    reads_text.required ?_ <| reads_threadId.required ?_ rfl⟩
  all_goals simp [get?_object]

/-- **The record of a dispatch is read back.** -/
theorem reads_dispatchEnvelope : Reads dispatchEnvelope.toValue dispatchEnvelope.fromValue := by
  refine ⟨fun e => ?_, fun _ => by simp [dispatchEnvelope, object]⟩
  refine bind_ok.mpr ⟨_, rfl, reads_dispatchId.required ?_ <| reads_handleId.required ?_ <|
    reads_coordinates.required ?_ <| reads_text.required ?_ rfl⟩
  all_goals simp [get?_object]

end Wire

end Verlet.Kernel
