import Verlet.Contracts.Schema.Meaning

/-!
# Contracts — Schema — The preflight

A schema is read twice: once on its own (`validate_schema_interpretable`), and once along a value
(`validate_schema_value`).  The two recursions go down the schema in their own ways, and report at
paths of their own.
-/

namespace Verlet.Schema
open Support

/-- The error is about the value, not about the schema. -/
inductive Message.OfValue : Message → Prop where
  | notInEnum (value : Json) : OfValue (.notInEnum value)
  | expected (types : List String) (got : String) : OfValue (.expected types got)
  | missingRequired (property : String) : OfValue (.missingRequired property)
  | unexpectedProperty (name : String) : OfValue (.unexpectedProperty name)
  | itemsDisallowed : OfValue .itemsDisallowed

def FailsOnValue (result : Result Unit) : Prop :=
  ∀ e, result = .error e → e.message.OfValue

theorem FailsOnValue.ok : FailsOnValue (.ok ()) := by
  rintro e ⟨⟩

theorem FailsOnValue.schemaError {label path : String} {message : Message} (h : message.OfValue) :
    FailsOnValue (schemaError label path message) := by
  rintro e ⟨⟩
  exact h

theorem FailsOnValue.of_ok {α : Type} {x : Result α} {f : α → Result Unit} {a : α} (hx : x = .ok a)
    (hf : FailsOnValue (f a)) : FailsOnValue (x >>= f) := by
  rw [hx]
  exact hf

theorem FailsOnValue.bind {x : Result Unit} {f : Unit → Result Unit} (hx : FailsOnValue x)
    (hf : FailsOnValue (f ())) : FailsOnValue (x >>= f) := by
  intro e he
  rcases bind_error.mp he with h | ⟨_, -, h⟩
  · exact hx e h
  · exact hf e h

theorem FailsOnValue.forM {α : Type} {f : α → Result Unit} {l : List α}
    (h : ∀ a ∈ l, FailsOnValue (f a)) : FailsOnValue (l.forM f) := by
  induction l with
  | nil => exact .ok
  | cons a l ih =>
    obtain ⟨ha, hl⟩ := List.forall_mem_cons.mp h
    exact ha.bind (ih hl)

/-! ### What is read without a path -/

theorem validateSchemaTypeName_ok {name label path name' : String} :
    validateSchemaTypeName name label path = .ok name' ↔ name ∈ schemaTypes ∧ name' = name := by
  unfold validateSchemaTypeName
  split
  · next h => simp [h, eq_comm]
  · next h => simp [schemaError, h]

theorem unionTypeNames_anywhere {label path : String} (label' path' : String) {vs : List Json}
    {earlier names : List String} (h : unionTypeNames label path vs earlier = .ok names) :
    unionTypeNames label' path' vs earlier = .ok names := by
  induction vs generalizing earlier with
  | nil => exact h
  | cons v vs ih =>
    simp only [unionTypeNames, bind_ok, orError_ok, validateSchemaTypeName_ok] at h ⊢
    obtain ⟨text, htext, name, hname, hrest⟩ := h
    exact ⟨text, htext, name, hname, ih hrest⟩

theorem schemaTypeNames_anywhere {value : Json} {label path : String} (label' path' : String)
    {names : List String} (h : schemaTypeNames value label path = .ok names) :
    schemaTypeNames value label' path' = .ok names := by
  cases value with
  | str text =>
    simp only [schemaTypeNames, bind_ok, pure_ok, validateSchemaTypeName_ok] at h ⊢
    exact h
  | arr items =>
    cases items with
    | nil => cases h
    | cons item items => exact unionTypeNames_anywhere label' path' h
  | null => cases h
  | bool b => cases h
  | num n => cases h
  | obj fields => cases h

theorem requiredProperties_anywhere {value : Json} {label path : String} (label' path' : String)
    {required : List String} (h : requiredProperties value label path = .ok required) :
    requiredProperties value label' path' = .ok required := by
  simp only [requiredProperties, bind_ok, orError_ok] at h ⊢
  obtain ⟨values, hvalues, hnames⟩ := h
  refine ⟨values, hvalues, ?_⟩
  clear hvalues
  induction values generalizing required with
  | nil => exact hnames
  | cons v values ih =>
    simp only [mapM_cons_ok, orError_ok] at hnames ⊢
    obtain ⟨name, rest, hname, hrest, hrequired⟩ := hnames
    exact ⟨name, rest, hname, ih hrest, hrequired⟩

/-! ### What the preflight establishes -/

/-- A keyword that holds a boolean or a schema holds one of these, and the schema has passed. -/
def SchemaOrFlag (passes : Json → Prop) (value : Json) : Prop :=
  (∃ flag, value = .bool flag) ∨ ∃ fields, value = .obj fields ∧ passes value

/-- A level of a schema that has passed the preflight; `passes` says that the schemas one level down
have. -/
structure Preflighted (passes : Json → Prop) (object : List (String × Json)) : Prop where
  keys : ∀ field ∈ object, isSupportedSchemaKey field.1 = true
  enum : ∀ value, Json.get? object "enum" = some value → ∃ members, value = .arr members
  required : ∀ value label path, Json.get? object "required" = some value →
    ∃ names, requiredProperties value label path = .ok names
  properties : ∀ value, Json.get? object "properties" = some value →
    ∃ parts, value = .obj parts ∧ ∀ part ∈ parts, passes part.2
  additional : ∀ value, Json.get? object "additionalProperties" = some value →
    SchemaOrFlag passes value
  items : ∀ value, Json.get? object "items" = some value → SchemaOrFlag passes value
  untyped : Json.get? object "type" = none → Json.containsKey object "enum" = true
  typed : ∀ value label path, Json.get? object "type" = some value →
    ∃ names, schemaTypeNames value label path = .ok names ∧
      ("array" ∈ names → Json.containsKey object "items" = true)

section
variable {label path : String} {passes : Json → Prop} {object : List (String × Json)}

theorem checkSchemaKeys_ok : checkSchemaKeys object path label = .ok () ↔
    ∀ field ∈ object, isSupportedSchemaKey field.1 = true := by
  simp only [checkSchemaKeys, forM_ok]
  refine forall₂_congr fun field _ => ?_
  split <;> simp_all [schemaError]

/-- `required`, where the schema has it, is a list of names. -/
def requiredKeyword (object : List (String × Json)) (path label : String) : Result Unit :=
  match Json.get? object "required" with
  | some required => discard (requiredProperties required label path)
  | none          => .ok ()

/-- The parts of `properties` pass, where the schema has them. -/
def propertiesKeyword (sub : Json → String → Result Unit) (object : List (String × Json))
    (path label : String) : Result Unit :=
  match Json.get? object "properties" with
  | some properties => do
    let parts ← schemaProperties properties label path
    parts.forM fun (name, part) => sub part s!"{path}.{name}"
  | none => .ok ()

/-- What a keyword holds is a boolean, or a schema that passes. -/
def schemaKeyword (sub : Json → String → Result Unit) (value : Option Json) (below path label : String)
    (message : Message) : Result Unit :=
  match value with
  | some (.bool _) | none => .ok ()
  | some (.obj fields)    => sub (.obj fields) below
  | some _                => schemaError label path message

theorem validateNestedSchemaKeywords_eq {sub : Json → String → Result Unit} :
    validateNestedSchemaKeywords sub object path label = (do
      requiredKeyword object path label
      propertiesKeyword sub object path label
      schemaKeyword sub (Json.get? object "additionalProperties") s!"{path}.*" path label
        .additionalPropertiesMalformed
      schemaKeyword sub (Json.get? object "items") s!"{path}[]" path label .itemsMalformed) := by
  unfold validateNestedSchemaKeywords requiredKeyword propertiesKeyword
  cases Json.get? object "required" <;> cases Json.get? object "properties" <;>
    rcases Json.get? object "additionalProperties" with _ | _ | _ | _ | _ | _ | _ <;>
    simp only [schemaKeyword, bind_assoc] <;> rfl

theorem schemaKeyword_ok {sub : Json → String → Result Unit} {value : Option Json} {below : String}
    {message : Message} (hsub : ∀ part path', sub part path' = .ok () → passes part)
    (h : schemaKeyword sub value below path label message = .ok ()) :
    ∀ held, value = some held → SchemaOrFlag passes held := by
  rintro held rfl
  cases held with
  | bool flag => exact .inl ⟨flag, rfl⟩
  | obj fields => exact .inr ⟨fields, rfl, hsub _ _ h⟩
  | null => cases h
  | num n => cases h
  | str text => cases h
  | arr items => cases h

theorem requiredKeyword_ok (h : requiredKeyword object path label = .ok ()) (value : Json)
    (hvalue : Json.get? object "required" = some value) :
    ∃ names, requiredProperties value label path = .ok names := by
  simp only [requiredKeyword, hvalue] at h
  cases hnames : requiredProperties value label path with
  | ok names => exact ⟨names, rfl⟩
  | error e =>
    rw [hnames] at h
    cases h

theorem propertiesKeyword_ok {sub : Json → String → Result Unit}
    (hsub : ∀ part path', sub part path' = .ok () → passes part)
    (h : propertiesKeyword sub object path label = .ok ()) (value : Json)
    (hvalue : Json.get? object "properties" = some value) :
    ∃ parts, value = .obj parts ∧ ∀ part ∈ parts, passes part.2 := by
  simp only [propertiesKeyword, hvalue, bind_ok, schemaProperties, orError_ok, asObject_some,
    forM_ok] at h
  obtain ⟨parts, rfl, hparts⟩ := h
  exact ⟨parts, rfl, fun part hpart => hsub _ _ (hparts part hpart)⟩

/-- `type` names types, or `enum` stands in for it; where it names `array`, there is `items`. -/
def typeKeyword (object : List (String × Json)) (path label : String) : Result Unit :=
  match Json.get? object "type" with
  | none => if Json.containsKey object "enum" then .ok () else schemaError label path .typeMissing
  | some schemaType => do
    let types ← schemaTypeNames schemaType label path
    types.forM fun name =>
      if name = "array" ∧ ¬ Json.containsKey object "items" then
        schemaError label path .itemsMissing
      else .ok ()

theorem typeKeyword_ok (h : typeKeyword object path label = .ok ()) :
    (Json.get? object "type" = none → Json.containsKey object "enum" = true) ∧
    ∀ value label' path', Json.get? object "type" = some value →
      ∃ names, schemaTypeNames value label' path' = .ok names ∧
        ("array" ∈ names → Json.containsKey object "items" = true) := by
  unfold typeKeyword at h
  cases htype : Json.get? object "type" with
  | none =>
    rw [htype] at h
    refine ⟨fun _ => ?_, fun value _ _ hvalue => (nomatch hvalue)⟩
    by_contra hmissing
    rw [if_neg hmissing] at h
    cases h
  | some types =>
    rw [htype] at h
    refine ⟨fun hnone => (nomatch hnone), fun value label' path' hvalue => ?_⟩
    obtain rfl := Option.some.inj hvalue
    simp only [bind_ok, forM_ok] at h
    obtain ⟨names, hnames, hitems⟩ := h
    refine ⟨names, schemaTypeNames_anywhere label' path' hnames, fun harray => ?_⟩
    by_contra hmissing
    have hchecked := hitems "array" harray
    rw [if_pos ⟨rfl, hmissing⟩] at hchecked
    cases hchecked

/-- **One level of the preflight.** -/
theorem preflighted {fuel : Nat} {schema : Json}
    (h : validateSchemaInterpretable label (fuel + 1) schema path = .ok ()) :
    ∃ object, schema = .obj object ∧
      Preflighted (fun part => ∃ path', validateSchemaInterpretable label fuel part path' = .ok ())
        object := by
  simp only [validateSchemaInterpretable, bind_ok, exists_unit_ok, orError_ok, asObject_some,
    checkSchemaKeys_ok] at h
  obtain ⟨object, rfl, hkeys, h⟩ := h
  -- the enumeration is read first, and then the parts
  have hrest : (∀ value, Json.get? object "enum" = some value → ∃ members, value = .arr members) ∧
      (do validateNestedSchemaKeywords (validateSchemaInterpretable label fuel) object path label
          typeKeyword object path label) = .ok () := by
    rcases henum : Json.get? object "enum" with _ | _ | _ | _ | _ | members | _ <;>
      rw [henum] at h
    · exact ⟨fun value hvalue => (nomatch hvalue), h⟩
    · cases h
    · cases h
    · cases h
    · cases h
    · exact ⟨fun value hvalue => ⟨members, (Option.some.inj hvalue).symm⟩, h⟩
    · cases h
  obtain ⟨henum, hrest⟩ := hrest
  obtain ⟨⟨⟩, hnested, htype⟩ := bind_ok.mp hrest
  obtain ⟨huntyped, htyped⟩ := typeKeyword_ok htype
  rw [validateNestedSchemaKeywords_eq] at hnested
  simp only [bind_ok, exists_unit_ok] at hnested
  obtain ⟨hrequired, hproperties, hadditional, hitems⟩ := hnested
  have hsub : ∀ part path', validateSchemaInterpretable label fuel part path' = .ok () →
      ∃ path', validateSchemaInterpretable label fuel part path' = .ok () := fun _ path' h => ⟨path', h⟩
  refine ⟨object, rfl, hkeys, henum, fun value label' path' hvalue => ?_,
    propertiesKeyword_ok hsub hproperties, schemaKeyword_ok hsub hadditional,
    schemaKeyword_ok hsub hitems, huntyped, htyped⟩
  obtain ⟨names, hnames⟩ := requiredKeyword_ok hrequired value hvalue
  exact ⟨names, requiredProperties_anywhere label' path' hnames⟩

/-! ### Reading a value -/

variable (h : Preflighted passes object)

include h

theorem Preflighted.checkSchemaKeys : checkSchemaKeys object path label = .ok () :=
  checkSchemaKeys_ok.mpr h.keys

theorem Preflighted.requiredNames : ∃ names, requiredNames object label path = .ok names := by
  unfold Schema.requiredNames
  cases hrequired : Json.get? object "required" with
  | none => exact ⟨[], rfl⟩
  | some value => exact h.required value label path hrequired

theorem Preflighted.propertyParts :
    ∃ parts, propertyParts object label path = .ok parts ∧ ∀ part ∈ parts, passes part.2 := by
  cases hproperties : Json.get? object "properties" with
  | none => exact ⟨[], propertyParts_ok.mpr (.inr ⟨hproperties, rfl⟩), by simp⟩
  | some value =>
    obtain ⟨parts, rfl, hparts⟩ := h.properties value hproperties
    exact ⟨parts, propertyParts_ok.mpr (.inl hproperties), hparts⟩

theorem Preflighted.checkEnum (value : Json) :
    FailsOnValue (checkEnum object value path label) := by
  unfold Schema.checkEnum
  cases henum : Json.get? object "enum" with
  | none => exact .ok
  | some enumeration =>
    obtain ⟨members, rfl⟩ := h.enum enumeration henum
    refine .of_ok (orError_ok.mpr rfl) ?_
    split
    · exact .ok
    · exact .schemaError (.notInEnum value)

variable {sub : Json → Json → String → Result Unit}

theorem Preflighted.validateObjectSchema
    (hsub : ∀ part value path', passes part → FailsOnValue (sub part value path'))
    (fields : List (String × Json)) :
    FailsOnValue (validateObjectSchema sub object (.obj fields) path label) := by
  rw [validateObjectSchema_eq]
  obtain ⟨required, hrequired⟩ := @Preflighted.requiredNames label path _ _ h
  obtain ⟨parts, hparts, hpass⟩ := @Preflighted.propertyParts label path _ _ h
  refine .of_ok (orError_ok.mpr rfl) (.of_ok hrequired (.bind (.forM fun property _ => ?_)
    (.of_ok hparts (.bind (.forM fun part hpart => ?_) (.forM fun field _ => ?_)))))
  · split
    · exact .ok
    · exact .schemaError (.missingRequired property)
  · obtain ⟨name, part⟩ := part
    cases hfield : Json.get? fields name with
    | none => simpa only [hfield] using FailsOnValue.ok
    | some value => simpa only [hfield] using hsub part value _ (hpass _ hpart)
  · obtain ⟨name, value⟩ := field
    cases hknown : Json.containsKey parts name with
    | true => simpa only [hknown, if_true] using FailsOnValue.ok
    | false =>
      simp only [hknown, Bool.false_eq_true, if_false]
      -- the property is not named: `additionalProperties` decides
      cases hextra : Json.get? object "additionalProperties" with
      | none => exact .schemaError (.unexpectedProperty name)
      | some extra =>
        rcases h.additional extra hextra with ⟨flag, rfl⟩ | ⟨extra, rfl, hpasses⟩
        · cases flag with
          | true => exact .ok
          | false => exact .schemaError (.unexpectedProperty name)
        · exact hsub _ _ _ hpasses

theorem Preflighted.validateArraySchema
    (hsub : ∀ part value path', passes part → FailsOnValue (sub part value path'))
    (hitems : Json.containsKey object "items" = true) (values : List Json) :
    FailsOnValue (validateArraySchema sub object (.arr values) path label) := by
  obtain ⟨items, hget⟩ := Option.isSome_iff_exists.mp hitems
  refine .of_ok (orError_ok.mpr rfl) (.of_ok (orError_ok.mpr hget) ?_)
  rcases h.items items hget with ⟨flag, rfl⟩ | ⟨fields, rfl, hpasses⟩
  · cases flag with
    | true => exact .ok
    | false =>
      change FailsOnValue (if values.isEmpty then .ok () else _)
      split
      · exact .ok
      · exact .schemaError .itemsDisallowed
  · exact .forM fun item _ => hsub _ _ _ hpasses

end

/-- **The preflight is complete.**  A schema that has passed it fails on the value alone: at the enum, at
the type, at a property missing or not expected, or at an item where there may be none. -/
theorem preflight_complete {label path : String} {fuel : Nat} {schema : Json}
    (h : validateSchemaInterpretable label fuel schema path = .ok ()) (value : Json)
    (label' path' : String) :
    validateSchemaValue label' fuel schema value path' = .ok () ∨
      ∃ e, validateSchemaValue label' fuel schema value path' = .error e ∧ e.message.OfValue := by
  have hfails : ∀ (value : Json) (path' : String),
      FailsOnValue (validateSchemaValue label' fuel schema value path') := by
    induction fuel generalizing schema path with
    | zero => cases h
    | succ fuel ih =>
      intro value path'
      obtain ⟨object, rfl, hlevel⟩ := preflighted h
      have hsub : ∀ part value path'', (∃ path', validateSchemaInterpretable label fuel part path' =
          .ok ()) → FailsOnValue (validateSchemaValue label' fuel part value path'') :=
        fun part value path'' ⟨_, hpart⟩ => ih hpart value path''
      refine .of_ok (orError_ok.mpr rfl) (.of_ok hlevel.checkSchemaKeys (.bind (hlevel.checkEnum value) ?_))
      cases htype : Json.get? object "type" with
      | none =>
        simp only [hlevel.untyped htype, if_true]
        exact .ok
      | some types =>
        obtain ⟨names, hnames, hitems⟩ := hlevel.typed types label' path' htype
        refine .of_ok hnames ?_
        cases hfind : names.find? (schemaValueTypeMatches · value) with
        | none => exact .schemaError (.expected _ _)
        | some name =>
          have hmatches := List.find?_some hfind
          have hof : OfType name value := schemaValueTypeMatches_iff.mp hmatches
          cases hof with
          | object fields => exact hlevel.validateObjectSchema hsub fields
          | array items =>
            exact hlevel.validateArraySchema hsub (hitems (List.mem_of_find?_eq_some hfind)) items
          | null | boolean | number | integer | string => exact .ok
  cases hresult : validateSchemaValue label' fuel schema value path' with
  | ok u => exact .inl rfl
  | error e => exact .inr ⟨e, rfl, hfails value path' e hresult⟩

/-- An array of counts, of which one is a text. -/
theorem preflight_complete_counts :
    validateJsonValueAgainstSchema
        (.obj [("items", .obj [("type", .arr [.str "integer", .str "null"])]), ("type", .str "array")])
        (.arr [.num (.int 3), .str "four"]) "counts" =
      .error ⟨"counts", "$[1]", .expected ["integer", "null"] "string"⟩ ∧
    (validateSchemaValue "counts" (maxJsonSchemaSubsetDepth + 1)
        (.obj [("items", .obj [("type", .arr [.str "integer", .str "null"])]), ("type", .str "array")])
        (.arr [.num (.int 3), .str "four"]) "$" = .ok () ∨
      ∃ e, validateSchemaValue "counts" (maxJsonSchemaSubsetDepth + 1)
        (.obj [("items", .obj [("type", .arr [.str "integer", .str "null"])]), ("type", .str "array")])
        (.arr [.num (.int 3), .str "four"]) "$" = .error e ∧ e.message.OfValue) :=
  ⟨by decide, @preflight_complete "counts" "$" _ _ (by decide) _ "counts" "$"⟩

end Verlet.Schema
