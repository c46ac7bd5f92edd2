import Verlet.Contracts.Values

/-!
# Contracts — Schema

The JSON-schema subset of the runtime boundaries: `type`, `required`, `properties`, `enum`,
`items` and `additionalProperties`.  A schema is itself a JSON tree.  The recursion of the source
is bounded by `MAX_JSON_SCHEMA_SUBSET_DEPTH`; here the bound is the recursion's fuel, `fuel`
being what `depth` leaves of it, so that running out of fuel is the source's own depth error.
-/

namespace Verlet.Schema

def maxJsonSchemaSubsetDepth : Nat := 64

/-- What a `JsonSchemaValidationError` says, one constructor a message of the source. -/
inductive Message where
  | schemaNotObject
  | unsupportedKeyword (key : String)
  | enumNotArray
  | notInEnum (value : Json)
  | typeMissing
  | expected (types : List String) (got : String)
  | unsupportedType (name : String)
  | missingRequired (property : String)
  | unexpectedProperty (name : String)
  | additionalPropertiesMalformed
  | expectedObject (got : String)
  | expectedArray (got : String)
  | itemsMissing
  | itemsDisallowed
  | itemsMalformed
  | typeUnionEmpty
  | typeUnionEntryNotString
  | typeMalformed
  | requiredNotArray
  | requiredEntryNotString
  | propertiesNotObject
  | depthExceeded
  | unknownSchemaId (schemaId : String)
deriving DecidableEq

/-- `JsonSchemaValidationError`. -/
structure ValidationError where
  label : String
  path : String
  message : Message
deriving DecidableEq

abbrev Result (α : Type) := Except ValidationError α

def schemaError {α : Type} (label path : String) (message : Message) : Result α :=
  .error ⟨label, path, message⟩

/-- `ok_or_else(|| schema_error(..))`. -/
def orError {α : Type} (label path : String) (message : Message) : Option α → Result α
  | some a => .ok a
  | none   => schemaError label path message

def isSupportedSchemaKey (key : String) : Bool :=
  key ∈ ["type", "required", "properties", "enum", "items", "additionalProperties", "$schema",
    "$id", "title", "description", "default", "examples", "deprecated", "readOnly", "writeOnly"]

/-- The seven names `validate_schema_type_name` lets through. -/
def schemaTypes : List String :=
  ["object", "array", "string", "number", "integer", "boolean", "null"]

def validateSchemaTypeName (name label path : String) : Result String :=
  if name ∈ schemaTypes then .ok name else schemaError label path (.unsupportedType name)

/-- The loop of `schema_type_names` over a union, each name kept once. -/
def unionTypeNames (label path : String) : List Json → List String → Result (List String)
  | [],          names => .ok names
  | value :: vs, names => do
    let name ← orError label path .typeUnionEntryNotString value.asStr
    let name ← validateSchemaTypeName name label path
    unionTypeNames label path vs (if name ∈ names then names else names ++ [name])

def schemaTypeNames (value : Json) (label path : String) : Result (List String) :=
  match value with
  | .str name => do return [← validateSchemaTypeName name label path]
  | .arr []   => schemaError label path .typeUnionEmpty
  | .arr vs   => unionTypeNames label path vs []
  | _         => schemaError label path .typeMalformed

def requiredProperties (value : Json) (label path : String) : Result (List String) := do
  let values ← orError label path .requiredNotArray value.asArray
  values.mapM fun v => orError label path .requiredEntryNotString v.asStr

def schemaProperties (value : Json) (label path : String) : Result (List (String × Json)) :=
  orError label path .propertiesNotObject value.asObject

/-- `is_json_integer`: an integer token, or a float with no fractional part. -/
def isJsonInteger : Json → Bool
  | .num (.int _)   => true
  | .num (.float q) => q.den = 1
  | _               => false

def schemaValueTypeMatches (schemaType : String) (value : Json) : Bool :=
  match value with
  | .null   => schemaType = "null"
  | .bool _ => schemaType = "boolean"
  | .num _  => schemaType = "number" || (schemaType = "integer" && isJsonInteger value)
  | .str _  => schemaType = "string"
  | .arr _  => schemaType = "array"
  | .obj _  => schemaType = "object"

def jsonTypeName : Json → String
  | .null           => "null"
  | .bool _         => "boolean"
  | .num (.int _)   => "integer"
  | .num (.float _) => "number"
  | .str _          => "string"
  | .arr _          => "array"
  | .obj _          => "object"

/-! ### Schemas -/

/-- The annotation and assertion keywords are all the schema may use. -/
def checkSchemaKeys (fields : List (String × Json)) (path label : String) : Result Unit :=
  fields.forM fun (key, _) =>
    if isSupportedSchemaKey key then .ok () else schemaError label path (.unsupportedKeyword key)

/-- `validate_nested_schema_keywords`; `sub` validates a schema one level down. -/
def validateNestedSchemaKeywords (sub : Json → String → Result Unit)
    (schema : List (String × Json)) (path label : String) : Result Unit := do
  match Json.get? schema "required" with
  | some required => discard (requiredProperties required label path)
  | none => pure ()
  match Json.get? schema "properties" with
  | some properties =>
    let properties ← schemaProperties properties label path
    properties.forM fun (name, propertySchema) => sub propertySchema s!"{path}.{name}"
  | none => pure ()
  match Json.get? schema "additionalProperties" with
  | some (.bool _) | none => pure ()
  | some (.obj extra) => sub (.obj extra) s!"{path}.*"
  | some _ => schemaError label path .additionalPropertiesMalformed
  match Json.get? schema "items" with
  | some (.bool _) | none => pure ()
  | some (.obj items) => sub (.obj items) s!"{path}[]"
  | some _ => schemaError label path .itemsMalformed

def validateSchemaInterpretable (label : String) : Nat → Json → String → Result Unit
  | 0,        _,      path => schemaError label path .depthExceeded
  | fuel + 1, schema, path => do
    let object ← orError label path .schemaNotObject schema.asObject
    checkSchemaKeys object path label
    match Json.get? object "enum" with
    | some (.arr _) | none => pure ()
    | some _ => schemaError label path .enumNotArray
    validateNestedSchemaKeywords (validateSchemaInterpretable label fuel) object path label
    match Json.get? object "type" with
    | none => if Json.containsKey object "enum" then pure () else schemaError label path .typeMissing
    | some schemaType =>
      let types ← schemaTypeNames schemaType label path
      types.forM fun name =>
        if name = "array" ∧ ¬ Json.containsKey object "items" then
          schemaError label path .itemsMissing
        else .ok ()

/-! ### Values against schemas -/

/-- `validate_object_schema`; `sub` validates a value one level down. -/
def validateObjectSchema (sub : Json → Json → String → Result Unit)
    (schema : List (String × Json)) (value : Json) (path label : String) : Result Unit := do
  let fields ← orError label path (.expectedObject (jsonTypeName value)) value.asObject
  let required ← match Json.get? schema "required" with
    | some required => requiredProperties required label path
    | none => pure []
  required.forM fun property =>
    if Json.containsKey fields property then .ok ()
    else schemaError label path (.missingRequired property)
  let properties ← match Json.get? schema "properties" with
    | some properties => schemaProperties properties label path
    | none => pure []
  properties.forM fun (name, propertySchema) =>
    match Json.get? fields name with
    | some propertyValue => sub propertySchema propertyValue s!"{path}.{name}"
    | none => .ok ()
  fields.forM fun (name, propertyValue) =>
    if Json.containsKey properties name then .ok ()
    else match Json.get? schema "additionalProperties" with
      | some (.bool true) => .ok ()
      | some (.bool false) | none => schemaError label path (.unexpectedProperty name)
      | some (.obj extra) => sub (.obj extra) propertyValue s!"{path}.{name}"
      | some _ => schemaError label path .additionalPropertiesMalformed

def validateArraySchema (sub : Json → Json → String → Result Unit)
    (schema : List (String × Json)) (value : Json) (path label : String) : Result Unit := do
  let values ← orError label path (.expectedArray (jsonTypeName value)) value.asArray
  let items ← orError label path .itemsMissing (Json.get? schema "items")
  match items with
  | .bool true  => .ok ()
  | .bool false => if values.isEmpty then .ok () else schemaError label path .itemsDisallowed
  | .obj _      => values.zipIdx.forM fun (item, i) => sub items item s!"{path}[{i}]"
  | _           => schemaError label path .itemsMalformed

def checkEnum (object : List (String × Json)) (value : Json) (path label : String) :
    Result Unit :=
  match Json.get? object "enum" with
  | none => .ok ()
  | some enumeration => do
    let values ← orError label path .enumNotArray enumeration.asArray
    if value ∈ values then .ok () else schemaError label path (.notInEnum value)

def validateSchemaValue (label : String) : Nat → Json → Json → String → Result Unit
  | 0,        _,      _,     path => schemaError label path .depthExceeded
  | fuel + 1, schema, value, path => do
    let object ← orError label path .schemaNotObject schema.asObject
    checkSchemaKeys object path label
    checkEnum object value path label
    match Json.get? object "type" with
    | none => if Json.containsKey object "enum" then pure () else schemaError label path .typeMissing
    | some schemaType =>
      let types ← schemaTypeNames schemaType label path
      match types.find? (schemaValueTypeMatches · value) with
      | some "object" =>
        validateObjectSchema (validateSchemaValue label fuel) object value path label
      | some "array" =>
        validateArraySchema (validateSchemaValue label fuel) object value path label
      | some _ => .ok ()
      | none => schemaError label path (.expected types (jsonTypeName value))

def validateJsonSchemaSubset (schema : Json) (label : String) : Result Unit :=
  validateSchemaInterpretable label (maxJsonSchemaSubsetDepth + 1) schema "$"

def validateJsonValueAgainstSchema (schema value : Json) (label : String) : Result Unit := do
  validateSchemaInterpretable label (maxJsonSchemaSubsetDepth + 1) schema "$"
  validateSchemaValue label (maxJsonSchemaSubsetDepth + 1) schema value "$"

end Verlet.Schema
