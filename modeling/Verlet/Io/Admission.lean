import Verlet.Io.Envelope
import Verlet.Kernel.MandateLifecycle

/-!
# Io — Admission

What `verlet-io-core` says of an ingress envelope on its way to a thread: where it resolves to, what
turn it makes, whether it names its delivery and its principal, and the decision that admits it.

The text of a JSON value is `serde_json`'s, a parameter.
-/

namespace Verlet.Io
open History
open RemoteStore (VerletError)
open Kernel (debugText)

/-! ### Errors -/

/-- The texts of `IoError::Bridge` and `IoError::Queue`. -/
inductive IoText where
  /-- A text of this program. -/
  | plain (text : String)
  /-- A text of this program about a name that it quotes. -/
  | quoted (before name after : String)
  /-- A text of this program about an event. -/
  | about (before : String) (id : EventRecordId) (after : String)
  /-- The text of a store's error. -/
  | history (error : HistoryError)
  /-- The text of the kernel's error. -/
  | kernel (error : VerletError)
deriving DecidableEq

inductive IoError where
  | invalidEnvelope (text : String)
  | policyRejected (reason : String)
  | queue (text : IoText)
  | bridge (text : IoText)
deriving DecidableEq

abbrev IoResult (α : Type) := Except IoError α

/-- `IoError::Bridge(..)` of a text of this program. -/
def IoError.bridgeText (text : String) : IoError := .bridge (.plain text)

/-- `verlet_history_error`. -/
def IoError.ofHistory (error : HistoryError) : IoError := .bridge (.history error)

/-- `verlet_bridge_error`. -/
def IoError.ofKernel (error : VerletError) : IoError := .bridge (.kernel error)

/-! ### Keys of an envelope -/

def IoSource.stableScope (source : IoSource) : String := source.protocol ++ ":" ++ source.instanceId

def IoConversation.stableKey (conversation : IoConversation) : String :=
  match conversation.externalThreadId with
  | some threadId => conversation.externalConversationId ++ "#" ++ threadId
  | none          => conversation.externalConversationId

def IoDedupeKey.stableKey (key : IoDedupeKey) : String := key.scope ++ ":" ++ key.key

/-- `metadata.get`. -/
def Metadata.get? (metadata : Metadata) (key : String) : Option String := metadata.lookup key

/-- `metadata.insert`: in the order of the keys. -/
def Metadata.insert (key value : String) : Metadata → Metadata
  | []          => [(key, value)]
  | (k, v) :: m =>
    if k = key then (key, value) :: m
    else if Json.textBefore key.toList k.toList then (key, value) :: (k, v) :: m
    else (k, v) :: insert key value m

namespace IngressEnvelope

def effectiveDedupeKey (envelope : IngressEnvelope) : Option IoDedupeKey :=
  envelope.dedupeKey.or
    (envelope.delivery.map fun delivery => ⟨envelope.source.stableScope, delivery.deliveryId⟩)

/-- `require_witnessed`; the failure is the text of its `InvalidEnvelope`. -/
def requireWitnessed (envelope : IngressEnvelope) : Except String Unit :=
  match envelope.delivery with
  | none          => .error "delivery is required"
  | some delivery =>
    if delivery.deliveryId = "" then .error "delivery.delivery_id cannot be empty"
    else if envelope.effectiveDedupeKey = none then .error "effective dedupe key is required"
    else .ok ()

end IngressEnvelope

/-! ### Targets -/

structure ThreadAddress where
  tenantId : String
  userId : String
  sessionId : String
  threadId : Option String

structure ProviderPolicy where
  provider : String
  model : String
  metadata : Metadata

structure ResolvedIoTarget where
  address : ThreadAddress
  createThreadIfMissing : Bool
  parentThreadId : Option String
  providerPolicy : Option ProviderPolicy
  metadata : Metadata

def ResolvedIoTarget.new (address : ThreadAddress) : ResolvedIoTarget := ⟨address, true, none, none, []⟩

/-- `require_attributed`; the failure is the text of its `InvalidEnvelope`. -/
def IngressEnvelope.requireAttributed (envelope : IngressEnvelope) (target : ResolvedIoTarget) :
    Except String Unit := do
  envelope.requireWitnessed
  match envelope.principal with
  | none           => .error "principal is required"
  | some principal =>
    if principal.tenantId ≠ target.address.tenantId then
      .error ("principal tenant " ++ debugText principal.tenantId ++
        " does not match resolved target tenant " ++ debugText target.address.tenantId)
    else .ok ()

/-! ### Decisions -/

structure IoTurnInput where
  text : String
  attachments : List IoAttachment
  providerPolicy : Option ProviderPolicy
  metadata : Metadata

inductive AdmissionMode where
  | queue
  | steer
  | interrupt
  | fork
  | observeOnly
  | reject

inductive AdmissionDecision where
  | queue (turnId : String) (input : IoTurnInput)
  | steer (turnId : String) (expectedActiveTurnId : Option String) (input : IoTurnInput)
  | interrupt (reason : String) (replacementTurnId : Option String)
      (replacement : Option IoTurnInput)
  | fork (childKey : String) (input : IoTurnInput)
  | observeOnly (reason : String)
  | reject (reason : String)

namespace AdmissionDecision

def mode : AdmissionDecision → AdmissionMode
  | .queue ..       => .queue
  | .steer ..       => .steer
  | .interrupt ..   => .interrupt
  | .fork ..        => .fork
  | .observeOnly .. => .observeOnly
  | .reject ..      => .reject

def turnId : AdmissionDecision → Option String
  | .queue turnId _                  => some turnId
  | .steer turnId _ _                => some turnId
  | .interrupt _ replacementTurnId _ => replacementTurnId
  | .fork childKey _                 => some childKey
  | .observeOnly _ | .reject _       => none

end AdmissionDecision

structure KernelIoReceipt where
  envelopeId : String
  target : ResolvedIoTarget
  mode : AdmissionMode
  threadId : Option String
  turnId : Option String
  principal : Option IoPrincipal

def KernelIoReceipt.new (envelope : IngressEnvelope) (target : ResolvedIoTarget)
    (decision : AdmissionDecision) : KernelIoReceipt where
  envelopeId := envelope.id
  target := target
  mode := decision.mode
  threadId := target.address.threadId
  turnId := decision.turnId
  principal := envelope.principal

end Verlet.Io
