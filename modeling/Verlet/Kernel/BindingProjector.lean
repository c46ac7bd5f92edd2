import Mathlib.Data.String.Basic
import Verlet.Support.Keyed
import Verlet.Kernel.ControlDecision.Wire

/-!
# Kernel — The binding projector

`binding_projector`: the bindings of a thread, folded from the events that attach and detach them, and
what takes them to the bindings that are wanted.

* `Wire.roundTrips_bindingAttached`, `Wire.roundTrips_bindingDetached`: both payloads are read back.
-/

namespace Verlet.Kernel
open Support
open History (EventRecordId EventRecord)

/-! ### Payloads -/

inductive BindingEffectClass where
  | pure
  | idempotent
  | atMostOnce
deriving DecidableEq

/-- `BTreeSet<String>`. -/
abbrev TextSet := Keyed (id : String → String)

/-- `BTreeMap<String, _>`. -/
abbrev TextMap (α : Type) := Keyed (Prod.fst : String × α → String)

structure BindingAttachmentConfig where
  allowedSecrets : TextSet
  allowedPrivateNetwork : TextMap TextSet
  boundParameters : TextMap Json
deriving DecidableEq

/-- `BindingAttachmentConfig::default`, the one that `is_empty`. -/
def BindingAttachmentConfig.empty : BindingAttachmentConfig := ⟨.empty, .empty, .empty⟩

structure BindingAttachedDirectToolBinding where
  toolName : String
  operation : String
  effectClass : BindingEffectClass
deriving DecidableEq

structure BindingAttachedPayload where
  name : String
  artifactHash : String
  operations : List String
  directTools : List BindingAttachedDirectToolBinding
  attachmentConfig : BindingAttachmentConfig
  effectClass : BindingEffectClass
  requestedBy : String
  decidedBy : String
  decisionEventId : Option EventRecordId
deriving DecidableEq

structure BindingDetachedPayload where
  attachEventId : EventRecordId
  requestedBy : String
  decidedBy : String
  decisionEventId : Option EventRecordId

/-! ### On the wire -/

namespace Wire

/-- `deny_unknown_fields`. -/
def denyUnknown (known : List String) (fields : List (String × Json)) : Except String Unit :=
  match fields.find? fun field => field.1 ∉ known with
  | some field => .error s!"unknown field {field.1}"
  | none       => .ok ()

/-- A field that is left out where it has its default. -/
def skipped {α : Type} [DecidableEq α] (key : String) (enc : α → Json) (default a : α) :
    List (String × Json) :=
  if a = default then [] else [(key, enc a)]

def bindingEffectClass : Serde BindingEffectClass where
  toValue
    | .pure       => .str "pure"
    | .idempotent => .str "idempotent"
    | .atMostOnce => .str "at-most-once"
  fromValue value := do
    let tag ← text value
    if tag = "pure" then return .pure
    else if tag = "idempotent" then return .idempotent
    else if tag = "at-most-once" then return .atMostOnce
    else throw s!"unknown variant {tag}"

def textSet : Serde TextSet where
  toValue set := .arr (set.values.map .str)
  fromValue value := do
    let texts ← list text value
    return texts.foldl Keyed.insert .empty

def textMap {α : Type} (serde : Serde α) : Serde (TextMap α) where
  toValue map := .obj (map.values.map fun (key, a) => (key, serde.toValue a))
  fromValue value := do
    let fields ← fieldsOf value
    let entries ← fields.mapM fun (key, value) => do return (key, ← serde.fromValue value)
    return entries.foldl Keyed.insert .empty

/-- A value as it is. -/
def json : Serde Json := ⟨id, .ok⟩

def bindingAttachmentConfig : Serde BindingAttachmentConfig where
  toValue c := object (skipped "allowed_secrets" textSet.toValue .empty c.allowedSecrets ++
    (skipped "allowed_private_network" (textMap textSet).toValue .empty c.allowedPrivateNetwork ++
      skipped "bound_parameters" (textMap json).toValue .empty c.boundParameters))
  fromValue value := do
    let fields ← fieldsOf value
    denyUnknown ["allowed_secrets", "allowed_private_network", "bound_parameters"] fields
    return ⟨← defaulted textSet.fromValue fields "allowed_secrets" .empty,
      ← defaulted (textMap textSet).fromValue fields "allowed_private_network" .empty,
      ← defaulted (textMap json).fromValue fields "bound_parameters" .empty⟩

def directTool : Serde BindingAttachedDirectToolBinding where
  toValue t := object ([("tool_name", .str t.toolName), ("operation", .str t.operation)] ++
    skipped "effect_class" bindingEffectClass.toValue .atMostOnce t.effectClass)
  fromValue value := do
    let fields ← fieldsOf value
    denyUnknown ["tool_name", "operation", "effect_class"] fields
    return ⟨← required text fields "tool_name", ← required text fields "operation",
      ← defaulted bindingEffectClass.fromValue fields "effect_class" .atMostOnce⟩

def bindingAttached : Serde BindingAttachedPayload where
  toValue p := object ([("name", .str p.name), ("artifact_hash", .str p.artifactHash)] ++
    (skipped "operations" (fun names : List String => .arr (names.map .str)) [] p.operations ++
      (skipped "direct_tools" (fun tools : List BindingAttachedDirectToolBinding =>
          .arr (tools.map directTool.toValue)) [] p.directTools ++
        (skipped "attachment_config" bindingAttachmentConfig.toValue .empty p.attachmentConfig ++
          (skipped "effect_class" bindingEffectClass.toValue .atMostOnce p.effectClass ++
            ([("requested_by", .str p.requestedBy), ("decided_by", .str p.decidedBy)] ++
              optional "decision_event_id" (fun id : EventRecordId => .str id.uuid.text)
                p.decisionEventId))))))
  fromValue value := do
    let fields ← fieldsOf value
    denyUnknown ["name", "artifact_hash", "operations", "direct_tools", "attachment_config",
      "effect_class", "requested_by", "decided_by", "decision_event_id"] fields
    return ⟨← required text fields "name", ← required text fields "artifact_hash",
      ← defaulted (list text) fields "operations" [],
      ← defaulted (list directTool.fromValue) fields "direct_tools" [],
      ← defaulted bindingAttachmentConfig.fromValue fields "attachment_config" .empty,
      ← defaulted bindingEffectClass.fromValue fields "effect_class" .atMostOnce,
      ← required text fields "requested_by", ← required text fields "decided_by",
      ← option eventId fields "decision_event_id"⟩

def bindingDetached : Serde BindingDetachedPayload where
  toValue p := object ([("attach_event_id", .str p.attachEventId.uuid.text),
    ("requested_by", .str p.requestedBy), ("decided_by", .str p.decidedBy)] ++
      optional "decision_event_id" (fun id : EventRecordId => .str id.uuid.text) p.decisionEventId)
  fromValue value := do
    let fields ← fieldsOf value
    denyUnknown ["attach_event_id", "requested_by", "decided_by", "decision_event_id"] fields
    return ⟨← required eventId fields "attach_event_id", ← required text fields "requested_by",
      ← required text fields "decided_by", ← option eventId fields "decision_event_id"⟩

end Wire

/-! ### The projector -/

structure ThreadBinding where
  attachEventId : EventRecordId
  payload : BindingAttachedPayload
deriving DecidableEq

inductive ThreadBindingAnomaly where
  | undecodableAttached (eventId : EventRecordId) (message : String)
  | undecodableDetached (eventId : EventRecordId) (message : String)
  | unknownDetach (detachEventId attachEventId : EventRecordId)
  | alreadyDetached (detachEventId attachEventId : EventRecordId)

structure ThreadBindingsFold where
  active : List ThreadBinding
  anomalies : List ThreadBindingAnomaly

def bindingPayloadIdentityMatches (left right : BindingAttachedPayload) : Bool :=
  left.name = right.name && left.artifactHash = right.artifactHash &&
    left.operations = right.operations && left.directTools = right.directTools &&
    left.attachmentConfig = right.attachmentConfig && left.effectClass = right.effectClass

structure ThreadBindingDelta where
  removedAttachEventIds : List EventRecordId
  addedBindings : List BindingAttachedPayload

def matchFirst (desired : BindingAttachedPayload) :
    List (ThreadBinding × Bool) → Option (List (ThreadBinding × Bool))
  | [] => none
  | (binding, unmatched) :: rest =>
    if unmatched && bindingPayloadIdentityMatches binding.payload desired then
      some ((binding, false) :: rest)
    else (matchFirst desired rest).map ((binding, unmatched) :: ·)

/-- One turn of the loop: `active` beside `unmatched_active`, and `added_bindings`. -/
def reconcileBinding (s : List (ThreadBinding × Bool) × List BindingAttachedPayload)
    (desired : BindingAttachedPayload) : List (ThreadBinding × Bool) × List BindingAttachedPayload :=
  match matchFirst desired s.1 with
  | some marked => (marked, s.2)
  | none        => (s.1, s.2 ++ [desired])

def reconcileThreadBindings (active : List ThreadBinding) (desired : List BindingAttachedPayload) :
    ThreadBindingDelta :=
  let s := desired.foldl reconcileBinding (active.map (·, true), [])
  ⟨(s.1.filter (·.2)).map (·.1.attachEventId), s.2⟩

/-- One event: `folded` and `inactive`. -/
def foldThreadBinding (s : ThreadBindingsFold × List EventRecordId) (event : EventRecord) :
    ThreadBindingsFold × List EventRecordId :=
  match event.kind with
  | .bindingAttached =>
    match Wire.bindingAttached.fromValue event.payload with
    | .ok payload  => ({ s.1 with active := s.1.active ++ [⟨event.id, payload⟩] }, s.2)
    | .error error => ({ s.1 with
        anomalies := s.1.anomalies ++ [.undecodableAttached event.id error] }, s.2)
  | .bindingDetached =>
    match Wire.bindingDetached.fromValue event.payload with
    | .error error => ({ s.1 with
        anomalies := s.1.anomalies ++ [.undecodableDetached event.id error] }, s.2)
    | .ok payload =>
      if s.1.active.any fun binding => binding.attachEventId = payload.attachEventId then
        ({ s.1 with
            active := s.1.active.eraseP fun binding => binding.attachEventId = payload.attachEventId },
          payload.attachEventId :: s.2)
      else if payload.attachEventId ∈ s.2 then
        ({ s.1 with anomalies :=
            s.1.anomalies ++ [.alreadyDetached event.id payload.attachEventId] }, s.2)
      else
        ({ s.1 with anomalies :=
            s.1.anomalies ++ [.unknownDetach event.id payload.attachEventId] }, s.2)
  | _ => s

def foldThreadBindings (events : List EventRecord) : ThreadBindingsFold :=
  (events.foldl foldThreadBinding (⟨[], []⟩, [])).1

/-! ### Payloads are read back -/

variable {key : String} {fields : List (String × Json)} {α : Type}

namespace Wire

theorem keys_insertField {value : Json} {field : String × Json}
    (h : field ∈ Json.insertField key value fields) : field.1 = key ∨ field ∈ fields := by
  induction fields with
  | nil => exact .inl (by rw [List.mem_singleton.mp h])
  | cons first rest ih =>
    rw [Json.insertField] at h
    grind

theorem keys_object {field : String × Json} (h : field ∈ Json.object fields) :
    field.1 ∈ fields.map (·.1) := by
  have hgen : ∀ done : List (String × Json),
      field ∈ fields.foldl (fun m field => Json.insertField field.1 field.2 m) done →
        field.1 ∈ fields.map (·.1) ∨ field ∈ done := by
    clear h
    induction fields with
    | nil => exact fun done h => .inr h
    | cons first rest ih =>
      intro done h
      rcases ih _ h with hrest | hdone
      · exact .inl (List.mem_cons_of_mem _ hrest)
      · rcases keys_insertField hdone with hkey | hdone
        · exact .inl (hkey ▸ List.mem_cons_self)
        · exact .inr hdone
  rcases hgen [] h with hkey | hnone
  · exact hkey
  · cases hnone

theorem denyUnknown_ok {known : List String} (h : ∀ key ∈ fields.map (·.1), key ∈ known) :
    denyUnknown known (Json.object fields) = .ok () := by
  have hnone : ((Json.object fields).find? fun field => field.1 ∉ known) = none := by
    rw [List.find?_eq_none]
    intro field hfield
    simpa using h field.1 (keys_object hfield)
  rw [denyUnknown, hnone]

theorem keys_skipped [DecidableEq α] {enc : α → Json} {default a : α} {key' : String}
    (h : key' ∈ (skipped key enc default a).map (·.1)) : key' = key := by
  unfold skipped at h
  split at h
  · cases h
  · exact List.mem_singleton.mp h

theorem keys_optional {enc : α → Json} {o : Option α} {key' : String}
    (h : key' ∈ (optional key enc o).map (·.1)) : key' = key := by
  cases o with
  | none => cases h
  | some a => exact List.mem_singleton.mp h

theorem Reads.skipped [DecidableEq α] {β : Type} {enc : α → Json} {dec : Json → Except String α}
    {default a : α} {f : α → Except String β} {b : β} (h : Reads enc dec)
    (hkey : Json.get? fields key = if a = default then none else some (enc a)) (hrest : f a = .ok b) :
    (Wire.defaulted dec fields key default >>= f) = .ok b := by
  refine bind_ok.mpr ⟨a, ?_, hrest⟩
  rw [Wire.defaulted, hkey]
  by_cases ha : a = default
  · rw [if_pos ha, ha]
  · rw [if_neg ha]
    exact h.back a

@[simp] theorem foldl_skipped [DecidableEq α] (key key' : String) (enc : α → Json) (default a : α)
    (found : Option Json) :
    (skipped key' enc default a).foldl
        (fun found field => if key = field.1 then some field.2 else found) found =
      if key = key' ∧ a ≠ default then some (enc a) else found := by
  unfold skipped
  by_cases ha : a = default <;> simp [ha]

theorem reads_bindingEffectClass : Reads bindingEffectClass.toValue bindingEffectClass.fromValue := by
  refine ⟨fun c => ?_, fun c => by cases c <;> simp [bindingEffectClass]⟩
  cases c <;> rfl

theorem reads_textSet : Reads textSet.toValue textSet.fromValue := by
  refine ⟨fun set => ?_, fun set => by simp [textSet]⟩
  exact bind_ok.mpr ⟨set.values, (reads_list reads_text).back set.values,
    congrArg Except.ok set.foldl_insert_values⟩

theorem reads_textMap {serde : Serde α} (h : serde.RoundTrips) :
    Reads (textMap serde).toValue (textMap serde).fromValue := by
  refine ⟨fun map => ?_, fun map => by simp [textMap]⟩
  have hentries : ∀ entries : List (String × α),
      (entries.map fun entry => (entry.1, serde.toValue entry.2)).mapM
        (fun field => do return (field.1, ← serde.fromValue field.2)) =
          (.ok entries : Except String (List (String × α))) := by
    intro entries
    induction entries with
    | nil => rfl
    | cons entry entries ih =>
      rw [List.map_cons, List.mapM_cons, ih, h entry.2]
      rfl
  exact bind_ok.mpr ⟨_, rfl, bind_ok.mpr ⟨map.values, hentries map.values,
    congrArg Except.ok map.foldl_insert_values⟩⟩

theorem reads_bindingAttachmentConfig :
    Reads bindingAttachmentConfig.toValue bindingAttachmentConfig.fromValue := by
  refine ⟨fun c => ?_, fun _ => by simp [bindingAttachmentConfig, object]⟩
  refine bind_ok.mpr ⟨_, rfl, bind_ok.mpr ⟨(), denyUnknown_ok fun key hkey => ?_, ?_⟩⟩
  · simp only [List.map_append, List.mem_append] at hkey
    rcases hkey with hkey | hkey | hkey <;> simp [keys_skipped hkey]
  · exact reads_textSet.skipped (by simp [get?_object]) <|
      (reads_textMap reads_textSet.back).skipped (by simp [get?_object]) <|
      (reads_textMap fun _ => rfl).skipped (by simp [get?_object]) rfl

theorem reads_directTool : Reads directTool.toValue directTool.fromValue := by
  refine ⟨fun t => ?_, fun _ => by simp [directTool, object]⟩
  refine bind_ok.mpr ⟨_, rfl, bind_ok.mpr ⟨(), denyUnknown_ok fun key hkey => ?_, ?_⟩⟩
  · simp only [List.map_append, List.mem_append] at hkey
    rcases hkey with hkey | hkey
    · simp at hkey
      rcases hkey with rfl | rfl <;> simp
    · simp [keys_skipped hkey]
  · exact reads_text.required (by simp [get?_object]) <|
      reads_text.required (by simp [get?_object]) <|
      reads_bindingEffectClass.skipped (by simp [get?_object]) rfl

theorem roundTrips_bindingAttached : bindingAttached.RoundTrips := by
  intro p
  refine bind_ok.mpr ⟨_, rfl, bind_ok.mpr ⟨(), denyUnknown_ok fun key hkey => ?_, ?_⟩⟩
  · simp only [List.map_append, List.mem_append] at hkey
    rcases hkey with hkey | hkey | hkey | hkey | hkey | hkey | hkey
    · simp at hkey
      rcases hkey with rfl | rfl <;> simp
    · simp [keys_skipped hkey]
    · simp [keys_skipped hkey]
    · simp [keys_skipped hkey]
    · simp [keys_skipped hkey]
    · simp at hkey
      rcases hkey with rfl | rfl <;> simp
    · simp [keys_optional hkey]
  · exact reads_text.required (by simp [get?_object]) <|
      reads_text.required (by simp [get?_object]) <|
      (reads_list reads_text).skipped (by simp [get?_object]) <|
      (reads_list reads_directTool).skipped (by simp [get?_object]) <|
      reads_bindingAttachmentConfig.skipped (by simp [get?_object]) <|
      reads_bindingEffectClass.skipped (by simp [get?_object]) <|
      reads_text.required (by simp [get?_object]) <| reads_text.required (by simp [get?_object]) <|
      reads_eventId.option (by simp [get?_object]) rfl

theorem roundTrips_bindingDetached : bindingDetached.RoundTrips := by
  intro p
  refine bind_ok.mpr ⟨_, rfl, bind_ok.mpr ⟨(), denyUnknown_ok fun key hkey => ?_, ?_⟩⟩
  · simp only [List.map_append, List.mem_append] at hkey
    rcases hkey with hkey | hkey
    · simp at hkey
      rcases hkey with rfl | rfl | rfl <;> simp
    · simp [keys_optional hkey]
  · exact reads_eventId.required (by simp [get?_object]) <|
      reads_text.required (by simp [get?_object]) <| reads_text.required (by simp [get?_object]) <|
      reads_eventId.option (by simp [get?_object]) rfl

end Wire

end Verlet.Kernel
