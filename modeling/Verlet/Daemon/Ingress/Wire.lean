import Verlet.Kernel.IngressWitness
import Verlet.Daemon.Ingress.Outcomes

/-!
# Daemon — Ingress — Payloads on the wire

The codec that `serde` derives for claims and settles: the intent is tagged with `outcome`, an absent
option left out.
-/

namespace Verlet.Daemon
open Support Kernel Io Kernel.Wire
open History (ThreadId EventRecordId)

namespace Wire

def intent : Serde IngressOutcomeIntent where
  toValue
    | .turn turnId submissionMode inputDigest =>
      object [("outcome", .str "turn"), ("turn_id", .str turnId),
        ("submission_mode", .str submissionMode), ("input_digest", .str inputDigest)]
    | .fork childKey childThreadId inputDigest =>
      object ([("outcome", .str "fork"), ("child_key", .str childKey)] ++
        (optional "child_thread_id" (fun id : ThreadId => .str id.uuid.text) childThreadId ++
          [("input_digest", .str inputDigest)]))
    | .interrupt replacementTurnId cancelReason inputDigest =>
      object ([("outcome", .str "interrupt")] ++
        (optional "replacement_turn_id" .str replacementTurnId ++
          [("cancel_reason", .str cancelReason), ("input_digest", .str inputDigest)]))
    | .observe reason => object [("outcome", .str "observe"), ("reason", .str reason)]
    | .reject reason  => object [("outcome", .str "reject"), ("reason", .str reason)]
  fromValue value := do
    let fields ← fieldsOf value
    let tag ← required text fields "outcome"
    if tag = "turn" then
      return .turn (← required text fields "turn_id") (← required text fields "submission_mode")
        (← required text fields "input_digest")
    else if tag = "fork" then
      return .fork (← required text fields "child_key") (← option threadId fields "child_thread_id")
        (← required text fields "input_digest")
    else if tag = "interrupt" then
      return .interrupt (← option text fields "replacement_turn_id")
        (← required text fields "cancel_reason") (← required text fields "input_digest")
    else if tag = "observe" then return .observe (← required text fields "reason")
    else if tag = "reject" then return .reject (← required text fields "reason")
    else throw s!"unknown variant {tag}"

def claimed : Serde IoIngressClaimedPayload where
  toValue p := object [("ingress_envelope_ids", .arr (p.ingressEnvelopeIds.map .str)),
    ("ingress_witness_event_ids", .arr (p.ingressWitnessEventIds.map fun id => .str id.uuid.text)),
    ("admission_event_id", .str p.admissionEventId.uuid.text), ("intent", intent.toValue p.intent)]
  fromValue value := do
    let fields ← fieldsOf value
    return ⟨← required (list text) fields "ingress_envelope_ids",
      ← required (list eventId) fields "ingress_witness_event_ids",
      ← required eventId fields "admission_event_id", ← required intent.fromValue fields "intent"⟩

def settledBy : Serde IngressSettledBy where
  toValue
    | .execution => .str "execution"
    | .recovery  => .str "recovery"
  fromValue value := do
    let tag ← text value
    if tag = "execution" then return .execution
    else if tag = "recovery" then return .recovery
    else throw s!"unknown variant {tag}"

def settled : Serde IoIngressSettledPayload where
  toValue p := object ([("claim_event_id", .str p.claimEventId.uuid.text),
    ("ingress_envelope_ids", .arr (p.ingressEnvelopeIds.map .str))] ++
      (optional "evidence_event_id" (fun id : EventRecordId => .str id.uuid.text) p.evidenceEventId ++
        [("settled_by", settledBy.toValue p.settledBy)]))
  fromValue value := do
    let fields ← fieldsOf value
    return ⟨← required eventId fields "claim_event_id",
      ← required (list text) fields "ingress_envelope_ids",
      ← option eventId fields "evidence_event_id", ← required settledBy.fromValue fields "settled_by"⟩

theorem reads_settledBy : Reads settledBy.toValue settledBy.fromValue := by
  refine ⟨fun by_ => ?_, fun by_ => by cases by_ <;> simp [settledBy]⟩
  cases by_ <;> rfl

theorem reads_intent : Reads intent.toValue intent.fromValue := by
  refine ⟨fun i => ?_, fun i => by cases i <;> simp [intent, object]⟩
  cases i with
  | turn turnId submissionMode inputDigest => rfl
  | fork childKey childThreadId inputDigest =>
    refine bind_ok.mpr ⟨_, rfl, bind_ok.mpr ⟨"fork", required_ok reads_text ?_,
      reads_text.required ?_ <| reads_threadId.option ?_ <| reads_text.required ?_ rfl⟩⟩
    all_goals simp [get?_object]
  | interrupt replacementTurnId cancelReason inputDigest =>
    refine bind_ok.mpr ⟨_, rfl, bind_ok.mpr ⟨"interrupt", required_ok reads_text ?_,
      reads_text.option ?_ <| reads_text.required ?_ <| reads_text.required ?_ rfl⟩⟩
    all_goals simp [get?_object]
  | observe reason => rfl
  | reject reason => rfl

end Wire

/-- The codec that `serde` derives. -/
def OutcomeCodec.wire : OutcomeCodec where
  claimed := Wire.claimed
  settled := Wire.settled

/-- **Claims and settles are read back.** -/
theorem roundTrips_wire : OutcomeCodec.wire.RoundTrips where
  claimed := by
    intro p
    exact bind_ok.mpr ⟨_, rfl, (reads_list reads_text).required (by simp [get?_object]) <|
      (reads_list reads_eventId).required (by simp [get?_object]) <|
      reads_eventId.required (by simp [get?_object]) <|
      Wire.reads_intent.required (by simp [get?_object]) rfl⟩
  settled := by
    intro p
    exact bind_ok.mpr ⟨_, rfl, reads_eventId.required (by simp [get?_object]) <|
      (reads_list reads_text).required (by simp [get?_object]) <|
      reads_eventId.option (by simp [get?_object]) <|
      Wire.reads_settledBy.required (by simp [get?_object]) rfl⟩

end Verlet.Daemon
