import Verlet.Daemon.Ingress.Claims
import Verlet.Daemon.Ingress.Routes
import Verlet.Daemon.Ingress.Wire

/-!
# Daemon — Ingress — Admitting

The witness of an envelope, which a delivery records before its claim.

The witness of a message is recorded once: its record is appended unless an event of its own is
there, which must then say the same.  A record's id and clock are drawn before the first read.
-/

namespace Verlet.Daemon
open Support Kernel Io History

/-! ### The control stream of a handle -/

def getThreadAt (coordinates : ThreadCoordinates) : BridgeM Unit :=
  attempt (Proc.perform (BridgeCall.threadHandle coordinates))

def firstAppended : List EventRecord → IoResult EventRecord
  | event :: _ => .ok event
  | []         => .error (.ofKernel (historyText "event append returned no record"))

/-- `RuntimeThreadHandle::append_control_event`. -/
def appendControlEvent (coordinates : ThreadCoordinates) (record : NewEventRecord) :
    BridgeM EventRecord := do
  let appended ← given (orKernel (orHistory
    (← ask (.appendEvents (controlStreamId coordinates) [record]))))
  let event ← given (firstAppended appended)
  attempt (Proc.perform (BridgeCall.runBoundCouplings event))
  return event

def lastAppended (missing : String) (appended : List EventRecord) : IoResult EventRecord :=
  match appended.getLast? with
  | some event => .ok event
  | none       => .error (.bridgeText missing)

/-- Append the record unless the stream holds what `existing` finds. -/
def appendUnless (streamId : EventStreamId) (record : NewEventRecord)
    (existing : List EventRecord → Option (IoResult EventRecord)) (missing : String) :
    Nat → BridgeM EventRecord
  | 0        => throw divergedIo
  | fuel + 1 => do
    let events ← readEvents streamId
    match existing events with
    | some found => given found
    | none       =>
      match ← appendEventsFenced streamId (nextSequence events) [record] with
      | none          => appendUnless streamId record existing missing fuel
      | some appended => given (lastAppended missing appended)

/-! ### Witnesses -/

def ingressMessageIdField : String := "ingress_message_id"

def ingressDedupeSeenField : String := "dedupe_seen"

def witnessedIngressContent (envelope : IngressEnvelope) : Option Json :=
  match envelope.content with
  | .event kind _ =>
    if kind = handleDispatchContentKind then some (Wire.ingressContent.toValue envelope.content)
    else none
  | _ => none

/-- The payload of `ingress_received_control_record`, with the digest of its envelope. -/
def ingressReceivedPayload (envelope : IngressEnvelope)
    (ingressMessageId : Option String) (envelopeDigest : String) : Json :=
  Wire.object ([("route_id", .str (routeIdForEnvelope envelope))] ++
    Wire.optional "dedupe_key" .str (envelope.effectiveDedupeKey.map (·.stableKey)) ++
    [("external_conversation_id", .str envelope.conversation.externalConversationId)] ++
    Wire.optional "external_actor_id" .str (envelope.actor.map (·.externalActorId)) ++
    Wire.optional "external_message_id" .str (externalMessageId envelope) ++
    Wire.optional "content" id (witnessedIngressContent envelope) ++
    [("envelope_digest", .str envelopeDigest),
      ("schema", .str EventKind.ioIngressReceived.payloadSchemaId)] ++
    match ingressMessageId with
    | some messageId =>
      [(ingressMessageIdField, .str messageId), (ingressDedupeSeenField, .bool false)]
    | none => [])

def envelopeDigest (bridge : Bridge) (envelope : IngressEnvelope) : IoResult String :=
  orKernel (bridge.canonicalJsonHash (bridge.envelope envelope))

def isWitnessOf (messageId : String) (event : EventRecord) : Bool :=
  event.kind = .ioIngressReceived ∧ (event.payload.index ingressMessageIdField).asStr = some messageId

/-- The witness that is there already, which must be of the envelope. -/
def existingWitness (messageId : String) (record : NewEventRecord) (events : List EventRecord) :
    Option (IoResult EventRecord) :=
  (events.find? (isWitnessOf messageId)).map fun existing =>
    if existing.payload.index "envelope_digest" ≠ record.payload.index "envelope_digest" then
      .error (.bridge (.quoted "durable ingress message " messageId " changed envelope digest"))
    else .ok existing

def recordIngressReceived (bridge : Bridge) (fuel : Nat) (coordinates : ThreadCoordinates)
    (envelope : IngressEnvelope) (ingressMessageId : Option String) : BridgeM EventRecord := do
  let digest ← given (envelopeDigest bridge envelope)
  let draw ← ask .draw
  let record := NewEventRecord.witnessed draw coordinates .ioIngressReceived
    (ingressReceivedPayload envelope ingressMessageId digest)
  match ingressMessageId with
  | none => do
    getThreadAt coordinates
    appendControlEvent coordinates record
  | some messageId =>
    appendUnless (controlStreamId coordinates) record (existingWitness messageId record)
      "ingress witness append returned no record" fuel

end Verlet.Daemon
