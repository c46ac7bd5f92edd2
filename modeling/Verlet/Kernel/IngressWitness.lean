import Verlet.Io.Envelope
import Verlet.Kernel.ControlDecision.Wire

/-!
# Kernel — Ingress witnesses on the wire

The codec that `serde` derives for the witness of an ingress envelope and for the content that it may
hold, which is tagged with `type`; an absent option is left out.
-/

namespace Verlet.Kernel
open Support Io

/-- What is witnessed of an envelope. -/
structure IoIngressReceivedPayload where
  routeId : Option String
  dedupeKey : Option String
  externalConversationId : Option String
  externalActorId : Option String
  externalMessageId : Option String
  content : Option Json
  envelopeDigest : String

namespace Wire

def ingressContent : Serde IngressContent where
  toValue
    | .text content => object [("type", .str "text"), ("text", .str content)]
    | .command name args =>
      object ([("type", .str "command"), ("name", .str name)] ++ optional "args" .str args)
    | .event kind payload =>
      object [("type", .str "event"), ("kind", .str kind), ("payload", payload)]
  fromValue value := do
    let fields ← fieldsOf value
    let tag ← required text fields "type"
    if tag = "text" then return .text (← required text fields "text")
    else if tag = "command" then
      return .command (← required text fields "name") (← option text fields "args")
    else if tag = "event" then
      return .event (← required text fields "kind") ((Json.get? fields "payload").getD .null)
    else throw s!"unknown variant {tag}"

/-- The fields of a witness that are there when it is read. -/
def ingressReceived : Serde IoIngressReceivedPayload where
  toValue p := object (optional "route_id" .str p.routeId ++ optional "dedupe_key" .str p.dedupeKey ++
    optional "external_conversation_id" .str p.externalConversationId ++
    optional "external_actor_id" .str p.externalActorId ++
    optional "external_message_id" .str p.externalMessageId ++ optional "content" id p.content ++
    [("envelope_digest", .str p.envelopeDigest)])
  fromValue value := do
    let fields ← fieldsOf value
    return ⟨← option text fields "route_id", ← option text fields "dedupe_key",
      ← option text fields "external_conversation_id", ← option text fields "external_actor_id",
      ← option text fields "external_message_id", ← option .ok fields "content",
      ← required text fields "envelope_digest"⟩

/-- **The content of an event is read back.** -/
theorem ingressContent_fromValue (kind : String) (payload : Json) :
    ingressContent.fromValue (ingressContent.toValue (.event kind payload)) =
      .ok (.event kind payload) := by
  refine bind_ok.mpr ⟨_, rfl, bind_ok.mpr ⟨"event", required_ok reads_text ?_,
    bind_ok.mpr ⟨kind, required_ok reads_text ?_, ?_⟩⟩⟩
  · simp [get?_object]
  · simp [get?_object]
  · simp [get?_object, pure, Except.pure]

end Wire

end Verlet.Kernel
