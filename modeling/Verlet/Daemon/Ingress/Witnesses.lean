import Verlet.Daemon.Ingress.Admitting
import Verlet.Kernel.ProcessHandleDispatch

/-!
# Daemon — Ingress — Witnesses

What the witness of an envelope says when it is read again, and the control streams that the ingress
path writes: the witness of a message goes in where none of that message is there yet, and other
events in between.
-/

namespace Verlet.Daemon
open Support Kernel Io
open History (EventRecord)

variable (envelope : IngressEnvelope)

/-- What `ingress_received_control_record` witnesses of an envelope. -/
def witnessOf (envelopeDigest : String) : IoIngressReceivedPayload where
  routeId := some (routeIdForEnvelope envelope)
  dedupeKey := envelope.effectiveDedupeKey.map (·.stableKey)
  externalConversationId := some envelope.conversation.externalConversationId
  externalActorId := envelope.actor.map (·.externalActorId)
  externalMessageId := externalMessageId envelope
  content := witnessedIngressContent envelope
  envelopeDigest := envelopeDigest

theorem witnessedIngressContent_eq_none {envelope : IngressEnvelope}
    (h : ∀ payload, envelope.content ≠ .event handleDispatchContentKind payload) :
    witnessedIngressContent envelope = none := by
  unfold witnessedIngressContent
  split
  · rename_i kind payload hcontent
    rw [if_neg]
    rintro rfl
    exact h payload hcontent
  · rfl

theorem witnessedIngressContent_of_dispatch {envelope : IngressEnvelope} {payload : Json}
    (h : envelope.content = .event handleDispatchContentKind payload) :
    witnessedIngressContent envelope =
      some (Wire.ingressContent.toValue (.event handleDispatchContentKind payload)) := by
  rw [witnessedIngressContent, h]
  rfl

theorem witnessedIngressContent_ne_null : witnessedIngressContent envelope ≠ some .null := by
  by_cases h : ∃ payload, envelope.content = .event handleDispatchContentKind payload
  · obtain ⟨payload, hcontent⟩ := h
    rw [witnessedIngressContent_of_dispatch hcontent]
    simp [Wire.ingressContent, Wire.object]
  · rw [witnessedIngressContent_eq_none fun payload hcontent => h ⟨payload, hcontent⟩]
    exact (Option.some_ne_none _).symm

/-- **The payload of a witness is read back**, its schema and its message passed over. -/
theorem ingressReceived_fromValue (messageId : Option String) (envelopeDigest : String) :
    Wire.ingressReceived.fromValue (ingressReceivedPayload envelope messageId envelopeDigest) =
      .ok (witnessOf envelope envelopeDigest) := by
  refine bind_ok.mpr ⟨_, rfl, Wire.reads_text.option ?_ <| Wire.reads_text.option ?_ <|
    Wire.reads_text.option ?_ <| Wire.reads_text.option ?_ <| Wire.reads_text.option ?_ <|
    bind_ok.mpr ⟨_, Wire.option_value ?_ (witnessedIngressContent_ne_null envelope),
    Wire.reads_text.required ?_ rfl⟩⟩
  all_goals
    cases messageId <;> simp [Wire.get?_object, ingressMessageIdField, ingressDedupeSeenField]

theorem index_ingressMessageId (messageId envelopeDigest : String) :
    (ingressReceivedPayload envelope (some messageId) envelopeDigest).index ingressMessageIdField =
      .str messageId := by
  simp [Json.index, ingressReceivedPayload, Wire.object, Json.asObject, Wire.get?_object,
    ingressMessageIdField, ingressDedupeSeenField]

/-! ### Written streams -/

/-- An envelope on its way to a control stream, with the message that it came by. -/
structure Arrival where
  envelope : IngressEnvelope
  messageId : Option String

def Arrival.Recorded (bridge : Bridge) (arrival : Arrival) (event : EventRecord) : Prop :=
  event.kind = .ioIngressReceived ∧ ∃ digest, envelopeDigest bridge arrival.envelope = .ok digest ∧
    event.payload = ingressReceivedPayload arrival.envelope arrival.messageId digest

/-- The events of a control stream that the ingress path writes, and what arrived there, in order:
one witness for a message, and events of other kinds in between. -/
inductive Written (bridge : Bridge) : List EventRecord → List Arrival → Prop
  | nil : Written bridge [] []
  | other {events : List EventRecord} {arrivals : List Arrival} {event : EventRecord}
      (h : Written bridge events arrivals) (hkind : event.kind ≠ .ioIngressReceived) :
      Written bridge (events ++ [event]) arrivals
  | witness {events : List EventRecord} {arrivals : List Arrival} {event : EventRecord}
      {arrival : Arrival} (h : Written bridge events arrivals)
      (hrecorded : arrival.Recorded bridge event)
      (hnew : ∀ messageId, arrival.messageId = some messageId →
        events.find? (isWitnessOf messageId) = none) :
      Written bridge (events ++ [event]) (arrivals ++ [arrival])

variable {bridge : Bridge}

theorem isWitnessOf_of_recorded {arrival : Arrival} {event : EventRecord} {messageId : String}
    (h : arrival.Recorded bridge event) (hid : arrival.messageId = some messageId) :
    isWitnessOf messageId event = true := by
  obtain ⟨hkind, digest, -, hpayload⟩ := h
  rw [isWitnessOf, decide_eq_true_iff, hpayload, hid, index_ingressMessageId]
  exact ⟨hkind, rfl⟩

/-- **Every arrival has its witness** on the stream. -/
theorem Written.exists_recorded {events : List EventRecord} {arrivals : List Arrival}
    (h : Written bridge events arrivals) :
    ∀ arrival ∈ arrivals, ∃ event ∈ events, arrival.Recorded bridge event := by
  induction h with
  | nil => exact fun arrival hmem => (List.not_mem_nil hmem).elim
  | other h hkind ih =>
    intro arrival hmem
    obtain ⟨event, hevent, hrecorded⟩ := ih arrival hmem
    exact ⟨event, List.mem_append_left _ hevent, hrecorded⟩
  | @witness events arrivals event arrival h hrecorded hnew ih =>
    intro arrival' hmem
    rcases List.mem_append.mp hmem with hmem | hmem
    · obtain ⟨event', hevent, hrecorded'⟩ := ih arrival' hmem
      exact ⟨event', List.mem_append_left _ hevent, hrecorded'⟩
    · obtain rfl := List.mem_singleton.mp hmem
      exact ⟨event, List.mem_append_right _ (List.mem_singleton_self _), hrecorded⟩

theorem Written.ne_of_new {events : List EventRecord} {arrivals : List Arrival}
    (h : Written bridge events arrivals) {messageId : String}
    (hnew : events.find? (isWitnessOf messageId) = none) :
    ∀ arrival ∈ arrivals, arrival.messageId ≠ some messageId := by
  intro arrival hmem hid
  obtain ⟨event, hevent, hrecorded⟩ := h.exists_recorded arrival hmem
  exact List.find?_eq_none.mp hnew event hevent (isWitnessOf_of_recorded hrecorded hid)

end Verlet.Daemon
