import Verlet.Contracts.Schema.Meaning
import Verlet.History.Batches

/-!
# History — Envelopes

What the frozen V1 schema asks of an event.  The envelope is built from the event, so only two of
its parts can fail: a payload that is no object, and that of an `io.egress.requested` outside its
own schema.
-/

namespace Verlet.History
open Support Schema

variable {label path : String} {fuel : Nat}

theorem validateSchemaValue_open {value : Json} :
    validateSchemaValue label (fuel + 1) openObjectSchema value path = .ok () ↔
      ∃ fields, value = .obj fields := by
  constructor
  · intro h
    cases value with
    | obj fields => exact ⟨fields, rfl⟩
    | null => cases h
    | bool b => cases h
    | num n => cases h
    | str text => cases h
    | arr items => cases h
  · rintro ⟨fields, rfl⟩
    have hfields : (fields.forM fun _ => (.ok () : Schema.Result Unit)) = .ok () :=
      forM_ok.mpr fun _ _ => rfl
    exact hfields

def coordinatesSchema : Json :=
  objectSchema ["tenant_id", "user_id", "session_id", "thread_id"] false
    [("tenant_id", typeSchema "string"), ("user_id", typeSchema "string"),
      ("session_id", typeSchema "string"), ("thread_id", typeSchema "string")]

theorem validateSchemaValue_coordinates (coordinates : ThreadCoordinates) :
    validateSchemaValue label (fuel + 2) coordinatesSchema coordinates.toValue path = .ok () := rfl

theorem validateSchemaValue_string (text : String) :
    validateSchemaValue label (fuel + 1) (typeSchema "string") (.str text) path = .ok () := rfl

theorem validateSchemaValue_integer (n : Int) :
    validateSchemaValue label (fuel + 1) (typeSchema "integer") (.num (.int n)) path = .ok () := rfl

theorem validateSchemaValue_origin (origin : EventOrigin) :
    validateSchemaValue label (fuel + 1)
      (.obj [("enum", .arr [.str "witnessed", .str "discharged"])]) (.str origin.asRef) path =
        .ok () := by
  cases origin with
  | witnessed => rfl
  | discharged => rfl

theorem validateSchemaValue_schema :
    validateSchemaValue label (fuel + 1) (.obj [("enum", .arr [.str streamRecordSchemaIdV1])])
      (.str streamRecordSchemaIdV1) path = .ok () := rfl

theorem validateSchemaValue_object {schema fields : List (String × Json)}
    (hkeys : checkSchemaKeys schema path label = .ok ())
    (henum : Json.get? schema "enum" = none)
    (htype : Json.get? schema "type" = some (.str "object")) :
    validateSchemaValue label (fuel + 1) (.obj schema) (.obj fields) path =
      validateObjectSchema (validateSchemaValue label fuel) schema (.obj fields) path label := by
  rw [validateSchemaValue]
  change (checkSchemaKeys schema path label >>= _) = _
  rw [hkeys]
  change (checkEnum schema _ path label >>= _) = _
  rw [checkEnum, henum]
  dsimp only [bind, Except.bind]
  rw [htype]
  rfl

/-- What the envelope's schema asks of each of its properties, by name. -/
def streamRecordParts : List (String × Json) :=
  [("coordinates", coordinatesSchema), ("created_at_ms", typeSchema "integer"),
    ("event_id", typeSchema "string"), ("kind", typeSchema "string"),
    ("origin", .obj [("enum", .arr [.str "witnessed", .str "discharged"])]),
    ("payload", openObjectSchema), ("payload_schema", typeSchema "string"),
    ("provenance", openObjectSchema),
    ("schema", .obj [("enum", .arr [.str streamRecordSchemaIdV1])]),
    ("sequence", typeSchema "integer"), ("stream_id", typeSchema "string"),
    ("trace_context", openObjectSchema)]

def streamRecordRequired : List String :=
  ["schema", "event_id", "stream_id", "sequence", "coordinates", "created_at_ms", "kind", "origin",
    "payload_schema", "provenance", "payload"]

/-- The keywords of the envelope's schema, in order. -/
def streamRecordKeywords : List (String × Json) :=
  [("additionalProperties", .bool true), ("properties", .obj streamRecordParts),
    ("required", .arr (streamRecordRequired.map .str)), ("type", .str "object")]

theorem streamRecordSchemaV1_eq : streamRecordSchemaV1 = .obj streamRecordKeywords := rfl

def envelopeFields (event : EventRecord) : List (String × Json) :=
  [("coordinates", event.coordinates.toValue), ("created_at_ms", .num (.int event.createdAtMs)),
    ("event_id", .str event.id.uuid.text), ("kind", .str event.kind.asRef),
    ("origin", .str event.origin.asRef), ("payload", event.payload),
    ("payload_schema", .str event.kind.payloadSchemaId), ("provenance", event.provenance.toValue),
    ("schema", .str streamRecordSchemaIdV1), ("sequence", .num (.int event.sequence)),
    ("stream_id", .str event.streamId.text)]

theorem toStreamRecordV1_toValue (event : EventRecord) :
    event.toStreamRecordV1.toValue = .obj (envelopeFields event) := rfl

theorem validateSchemaValue_record {event : EventRecord} :
    validateSchemaValue label (fuel + 3) streamRecordSchemaV1 event.toStreamRecordV1.toValue path =
      .ok () ↔ ∃ fields, event.payload = .obj fields := by
  have hkeys : checkSchemaKeys streamRecordKeywords path label = .ok () := rfl
  rw [streamRecordSchemaV1_eq, toStreamRecordV1_toValue, validateSchemaValue_object hkeys rfl rfl]
  constructor
  · intro h
    have hmem : ("payload", openObjectSchema) ∈ streamRecordParts := by
      simp [streamRecordParts]
    have hpart : Applies (.obj streamRecordKeywords, .obj (envelopeFields event))
        (openObjectSchema, event.payload) := .property rfl hmem rfl
    rcases (validateObjectSchema_ok h).2 _ _ hpart with hfalse | ⟨path', hpayload⟩
    · cases hfalse
    · exact validateSchemaValue_open.mp hpayload
  · intro hpayload
    have hrequired : requiredNames streamRecordKeywords label path = .ok streamRecordRequired := rfl
    have hparts : propertyParts streamRecordKeywords label path = .ok streamRecordParts := rfl
    rw [validateObjectSchema_eq, hrequired, hparts]
    refine bind_ok.mpr ⟨_, rfl, bind_ok.mpr ⟨_, rfl, bind_ok.mpr ⟨(), rfl, bind_ok.mpr
      ⟨_, rfl, bind_ok.mpr ⟨(), forM_ok.mpr ?_, forM_ok.mpr ?_⟩⟩⟩⟩⟩
    · simp only [streamRecordParts, List.forall_mem_cons]
      refine ⟨validateSchemaValue_coordinates _, validateSchemaValue_integer _,
        validateSchemaValue_string _, validateSchemaValue_string _, validateSchemaValue_origin _,
        validateSchemaValue_open.mpr hpayload, validateSchemaValue_string _,
        validateSchemaValue_open.mpr ⟨_, rfl⟩, validateSchemaValue_schema,
        validateSchemaValue_integer _, validateSchemaValue_string _, rfl, ?_⟩
      intro part hpart
      cases hpart
    · rintro ⟨name, value⟩ -
      change (if Json.containsKey streamRecordParts name then .ok () else .ok ()) = Except.ok ()
      rw [ite_self]

theorem validateAgainst_ok {schemaId : String} {schema value : Json} :
    validateAgainst schemaId schema value = .ok () ↔
      validateJsonValueAgainstSchema schema value schemaId = .ok () := by
  unfold validateAgainst
  rcases validateJsonValueAgainstSchema schema value schemaId with e | ⟨⟩
  · exact ⟨fun h => (nomatch h), fun h => (nomatch h)⟩
  · exact ⟨fun _ => rfl, fun _ => rfl⟩

/-- **The events within the frozen schema.** -/
theorem validateStreamRecordV1_ok {event : EventRecord} :
    event.validateStreamRecordV1 = .ok () ↔ (∃ fields, event.payload = .obj fields) ∧
      (event.kind = .ioEgressRequested → validateAgainst event.kind.payloadSchemaId
        ioEgressRequestedPayloadSchemaV1 event.payload = .ok ()) := by
  have hdepth : maxJsonSchemaSubsetDepth + 1 = 62 + 3 := rfl
  have hschema : validateSchemaInterpretable streamRecordSchemaIdV1 (62 + 3) streamRecordSchemaV1
      "$" = .ok () := rfl
  have hrecord : validateAgainst streamRecordSchemaIdV1 streamRecordSchemaV1
      event.toStreamRecordV1.toValue = .ok () ↔ ∃ fields, event.payload = .obj fields := by
    rw [validateAgainst_ok, validateJsonValueAgainstSchema, hdepth, bind_ok, exists_unit_ok,
      validateSchemaValue_record]
    exact and_iff_right hschema
  rw [EventRecord.validateStreamRecordV1, bind_ok, exists_unit_ok, hrecord]
  refine and_congr_right fun _ => ?_
  by_cases hegress : event.kind = .ioEgressRequested
  · rw [if_pos hegress]
    exact ⟨fun h _ => h, fun h => h hegress⟩
  · rw [if_neg hegress]
    exact iff_of_true rfl fun h => absurd h hegress

/-- **The batches that a store takes**: valid records with new ids, each its own, whose payloads are
objects within their schema. -/
theorem admissible_iff {taken : EventRecordId → Prop} {streamId : EventStreamId} {len : Nat}
    {records : List NewEventRecord} :
    Admissible taken streamId len records ↔
      (∀ record ∈ records, validateNewEvent record = .ok ()) ∧
      (∀ record ∈ records, ¬ taken record.id) ∧ (records.map (·.id)).Nodup ∧
      ∀ record ∈ records, (∃ fields, record.payload = .obj fields) ∧
        (record.kind = .ioEgressRequested → validateAgainst record.kind.payloadSchemaId
          ioEgressRequestedPayloadSchemaV1 record.payload = .ok ()) := by
  constructor
  · rintro ⟨hvalid, hfresh, hnodup, hschema⟩
    refine ⟨hvalid, hfresh, hnodup, fun record hrecord => ?_⟩
    obtain ⟨i, hi⟩ := List.mem_iff_getElem?.mp hrecord
    have hevent : EventRecord.fromNew streamId (len + i + 1) record ∈
        numbered streamId len records :=
      List.mem_of_getElem? (by rw [getElem?_numbered, hi]; rfl)
    exact validateStreamRecordV1_ok.mp (hschema _ hevent)
  · rintro ⟨hvalid, hfresh, hnodup, hschema⟩
    refine ⟨hvalid, hfresh, hnodup, fun event hevent => ?_⟩
    obtain ⟨record, hrecord, sequence, rfl⟩ := mem_numbered hevent
    exact validateStreamRecordV1_ok.mpr (hschema record hrecord)

end Verlet.History
