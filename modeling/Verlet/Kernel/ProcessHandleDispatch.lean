import Verlet.Io.Admission
import Verlet.Kernel.Handles

/-!
# Kernel — Process handle dispatch

The ingress envelopes of a process handle: the one that witnesses its dispatch before the process
starts, and the one that reports what it came to, whether its monitor saw that, its setup failed or a
sweep found it without an owner.  An envelope's id is a hash of its stage and the dispatch id; the
clock, and so the rest of the envelope, is that of the moment it is built.

* `validateBinding_ok`: what a binding that is accepted has to be.
-/

namespace Verlet.Kernel
open Support Io
open History (ThreadCoordinates)
open RemoteStore (DispatchId VerletResult)

/-! ### Bindings -/

def validateBinding (binding : HandleDispatchEnvelope) (consumer : ThreadCoordinates)
    (dispatchId : DispatchId) (commandDigest : String) : VerletResult Unit :=
  if binding.consumer ≠ consumer ∨ binding.dispatchId ≠ dispatchId ∨
      binding.commandDigest ≠ commandDigest ∨ binding.handle.kind ≠ .process then
    .error (.runtimeExecution ("process dispatch " ++ dispatchId.text ++
      " retry does not match its durable request"))
  else .ok ()

variable {binding : HandleDispatchEnvelope}

theorem validateBinding_ok {consumer : ThreadCoordinates} {dispatchId : DispatchId}
    {commandDigest : String} :
    validateBinding binding consumer dispatchId commandDigest = .ok () ↔
      binding.consumer = consumer ∧ binding.dispatchId = dispatchId ∧
        binding.commandDigest = commandDigest ∧ binding.handle.kind = .process := by
  unfold validateBinding
  split
  · rename_i h
    simp only [reduceCtorEq, false_iff]
    tauto
  · rename_i h
    simp only [true_iff]
    tauto

/-! ### Terminal outcomes -/

inductive ProcessTerminalEvent where
  | completed (code : Option Int) (success : Bool)
  | failed (code message : String)
  | cancelled (reason : String)
  | timedOut (timeoutMs : Option Nat) (message : String)

def terminalKindProjection : ProcessTerminalEvent → HandleTerminalOutcome × Option String × Bool
  | .completed _ true => (.completed, some "exit status 0", false)
  | .completed (some code) _ => (.failed, some ("exit status " ++ toString code), false)
  | .completed none _ =>
    (.failed, some "process terminated by signal; exit status unavailable", true)
  | .failed code message        => (.failed, some (code ++ ": " ++ message), true)
  | .timedOut (some ms) message =>
    (.failed, some ("timed out after " ++ toString ms ++ "ms: " ++ message), true)
  | .timedOut none message => (.failed, some ("timed out: " ++ message), true)
  | .cancelled reason => (.cancelled, some reason, false)

/-- A terminal envelope of the binding, with an outcome, its reason and whether to retry. -/
def processTerminal (binding : HandleDispatchEnvelope) (outcome : HandleTerminalOutcome)
    (outcomeReason : Option String) (retryable : Bool) : HandleTerminalEnvelope where
  dispatchId := binding.dispatchId
  handle := binding.handle
  outcome := outcome
  outcomeReason := outcomeReason
  result := none
  resultSchemaId := none
  artifactRefs := []
  usage := none
  retryable := retryable

/-- What an attempt to report a dispatch says of it. -/
inductive TerminalReport where
  /-- The terminal event that a monitor finds last in the snapshot. -/
  | observed (event : ProcessTerminalEvent)
  | setupFailed (reason : String)
  | recovered

/-- The terminal of `terminal_envelope`, `setup_failure_envelope` and `recovery_outcome_envelope`. -/
def TerminalReport.terminal (binding : HandleDispatchEnvelope) :
    TerminalReport → HandleTerminalEnvelope
  | .observed event =>
    let (outcome, outcomeReason, retryable) := terminalKindProjection event
    processTerminal binding outcome outcomeReason retryable
  | .setupFailed reason =>
    processTerminal binding .failed (some ("process setup failed before spawn: " ++ reason)) true
  | .recovered =>
    processTerminal binding .failed
      (some "startup recovery after process observer death; exit status unknown") true

theorem terminalEnvelope_fromValue (binding : HandleDispatchEnvelope)
    (outcome : HandleTerminalOutcome) (outcomeReason : Option String) (retryable : Bool) :
    Wire.terminalEnvelope.fromValue (Wire.terminalEnvelope.toValue
      (processTerminal binding outcome outcomeReason retryable)) =
        .ok (processTerminal binding outcome outcomeReason retryable) := by
  refine bind_ok.mpr ⟨_, rfl, Wire.reads_dispatchId.required ?_ <|
    Wire.reads_handleId.required ?_ <| Wire.reads_terminalOutcome.required ?_ <|
    Wire.reads_text.option ?_ <|
    bind_ok.mpr ⟨none, Wire.option_absent ?_, bind_ok.mpr ⟨none, Wire.option_absent ?_,
    bind_ok.mpr ⟨none, Wire.option_absent ?_, bind_ok.mpr ⟨none, Wire.option_absent ?_,
    Wire.reads_flag.required ?_ rfl⟩⟩⟩⟩⟩
  all_goals simp [Wire.get?_object, processTerminal]

/-! ### Envelopes -/

variable (sha256Hex : String → String)

/-- `deterministic_ingress_id`; the hash is `sha256_hex`. -/
def deterministicIngressId (stage : String) (dispatchId : DispatchId) : String :=
  let digest := (sha256Hex (stage ++ ":" ++ dispatchId.text)).toList
  let digest := if "sha256:".toList.isPrefixOf digest then digest.drop 7 else digest
  "ing-handle-" ++ String.ofList (digest.take 32)

/-- An envelope of a process handle: its stage, content kind, payload and route policy. -/
def handleEnvelope (binding : HandleDispatchEnvelope)
    (stage kind : String) (payload : Json) (routePolicy : String) (nowMs : Nat) : IngressEnvelope where
  id := deterministicIngressId sha256Hex stage binding.dispatchId
  source := ⟨"cooldis.handle", "process", []⟩
  conversation := ⟨"thread:" ++ binding.consumer.threadId.uuid.text, .system, none, none, []⟩
  actor := none
  content := .event kind payload
  attachments := []
  dedupeKey := some ⟨kind, binding.dispatchId.text⟩
  delivery := some ⟨binding.dispatchId.text, none, []⟩
  principal := some ⟨binding.consumer.tenantId, binding.consumer.userId,
    "handle:" ++ binding.dispatchId.text⟩
  receivedAtMs := nowMs
  metadata := [("cooldis_route_id", kind), ("cooldis_route_policy", routePolicy)]

def dispatchEnvelope (binding : HandleDispatchEnvelope) (nowMs : Nat) : IngressEnvelope :=
  handleEnvelope sha256Hex binding "dispatch" handleDispatchContentKind
    (Wire.dispatchEnvelope.toValue binding) "observe_only" nowMs

def outcomeEnvelope (binding : HandleDispatchEnvelope)
    (terminal : HandleTerminalEnvelope) (nowMs : Nat) : IngressEnvelope :=
  handleEnvelope sha256Hex binding "outcome" handleOutcomeContentKind
    (Wire.terminalEnvelope.toValue terminal) "queue_per_conversation" nowMs

theorem handleEnvelope_inj {sha256Hex : String → String} {stage kind routePolicy : String}
    {payload payload' : Json} {nowMs nowMs' : Nat} :
    handleEnvelope sha256Hex binding stage kind payload routePolicy nowMs =
        handleEnvelope sha256Hex binding stage kind payload' routePolicy nowMs' ↔
      payload = payload' ∧ nowMs = nowMs' := by
  simp [handleEnvelope]

theorem terminalReport_fromValue (binding : HandleDispatchEnvelope) (report : TerminalReport) :
    Wire.terminalEnvelope.fromValue (Wire.terminalEnvelope.toValue (report.terminal binding)) =
      .ok (report.terminal binding) := by
  cases report <;> exact terminalEnvelope_fromValue ..

/-- **Outcome envelopes of one dispatch are the same** where they are built in the same millisecond
and say the same of it, and nowhere else. -/
theorem outcomeEnvelope_inj {sha256Hex : String → String} {report report' : TerminalReport}
    {nowMs nowMs' : Nat} :
    outcomeEnvelope sha256Hex binding (report.terminal binding) nowMs =
        outcomeEnvelope sha256Hex binding (report'.terminal binding) nowMs' ↔
      nowMs = nowMs' ∧ report.terminal binding = report'.terminal binding := by
  rw [outcomeEnvelope, outcomeEnvelope, handleEnvelope_inj]
  constructor
  · rintro ⟨hpayload, hnow⟩
    have hread := terminalReport_fromValue binding report
    rw [hpayload, terminalReport_fromValue] at hread
    exact ⟨hnow, (Except.ok.inj hread).symm⟩
  · rintro ⟨hnow, hterminal⟩
    exact ⟨congrArg _ hterminal, hnow⟩

end Verlet.Kernel
