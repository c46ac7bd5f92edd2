import Mathlib.Logic.Relation
import Verlet.Support.Fallible
import Verlet.Contracts.Schema

/-!
# Contracts — Schema — What a schema means

The meaning that JSON Schema gives the keywords of the subset, stated on its own, and what the
validator makes of it.  Every keyword is an assertion about the values it applies to: `required`,
`properties` and `additionalProperties` about objects, `items` about arrays, whatever the schema's
`type`.
-/

namespace Verlet

def JsonNumber.denotes : JsonNumber → ℚ
  | .int n   => n
  | .float q => q

mutual
/-- The tree with its numbers as what they denote: JSON's equality is equality of these. -/
def Json.canonical : Json → Json
  | .null       => .null
  | .bool b     => .bool b
  | .num n      => .num (.float n.denotes)
  | .str text   => .str text
  | .arr items  => .arr (canonicalItems items)
  | .obj fields => .obj (canonicalFields fields)

def Json.canonicalItems : List Json → List Json
  | []            => []
  | item :: items => item.canonical :: canonicalItems items

def Json.canonicalFields : List (String × Json) → List (String × Json)
  | []                     => []
  | (key, value) :: fields => (key, value.canonical) :: canonicalFields fields
end

variable {part node : Json}

namespace Schema
open Support

/-! ### The meaning of the keywords -/

/-- The value is of the type of that name; a number without a fractional part is an integer. -/
inductive OfType : String → Json → Prop where
  | null : OfType "null" .null
  | boolean (b : Bool) : OfType "boolean" (.bool b)
  | number (n : JsonNumber) : OfType "number" (.num n)
  | integer (n : JsonNumber) (z : ℤ) (h : n.denotes = z) : OfType "integer" (.num n)
  | string (text : String) : OfType "string" (.str text)
  | array (items : List Json) : OfType "array" (.arr items)
  | object (fields : List (String × Json)) : OfType "object" (.obj fields)

/-- The name stands under `type`, alone or in a union. -/
inductive Names : Json → String → Prop where
  | one (name : String) : Names (.str name) name
  | union {names : List Json} {name : String} (h : .str name ∈ names) : Names (.arr names) name

/-- A part of a schema applies to a part of the value, one level down: what `properties` has for a
property that is there, `additionalProperties` for any other, `items` for the items. -/
inductive Applies : Json × Json → Json × Json → Prop where
  | property {schema parts fields : List (String × Json)} {name : String} {part node : Json}
      (hparts : Json.get? schema "properties" = some (.obj parts)) (hpart : (name, part) ∈ parts)
      (hnode : Json.get? fields name = some node) : Applies (.obj schema, .obj fields) (part, node)
  | additional {schema fields : List (String × Json)} {name : String} {part node : Json}
      (hpart : Json.get? schema "additionalProperties" = some part) (hnode : (name, node) ∈ fields)
      (hother : ∀ parts, Json.get? schema "properties" = some (.obj parts) →
        Json.containsKey parts name = false) : Applies (.obj schema, .obj fields) (part, node)
  | item {schema : List (String × Json)} {part node : Json} {nodes : List Json}
      (hpart : Json.get? schema "items" = some part) (hnode : node ∈ nodes) :
      Applies (.obj schema, .arr nodes) (part, node)

def HasRequired (schema : List (String × Json)) (value : Json) : Prop :=
  ∀ names fields, Json.get? schema "required" = some (.arr names) → value = .obj fields →
    ∀ name, .str name ∈ names → Json.containsKey fields name = true

structure Asserts (schema : List (String × Json)) (value : Json) : Prop where
  type : ∀ types, Json.get? schema "type" = some types → ∃ name, Names types name ∧ OfType name value
  enum : ∀ members, Json.get? schema "enum" = some (.arr members) →
    ∃ member ∈ members, member.canonical = value.canonical
  required : HasRequired schema value

/-- **A value satisfies a schema**: the boolean schema `true`, or an object that holds of the value
and whose parts are satisfied where they apply.  Nothing satisfies `false`. -/
inductive Satisfies : Json → Json → Prop where
  | allowed (value : Json) : Satisfies (.bool true) value
  | asserted {schema : List (String × Json)} {value : Json} (h : Asserts schema value)
      (hparts : ∀ part node, Applies (.obj schema, value) (part, node) → Satisfies part node) :
      Satisfies (.obj schema) value

/-- The part applies to the node, somewhere in the value. -/
def Applied (schema value part node : Json) : Prop :=
  Relation.ReflTransGen Applies (schema, value) (part, node)

theorem Satisfies.step {schema value : Json} (h : Satisfies schema value)
    (happlies : Applies (schema, value) (part, node)) : Satisfies part node := by
  cases h with
  | allowed => cases happlies
  | asserted _ hparts => exact hparts part node happlies

/-- **A value that satisfies a schema satisfies its parts where they apply.** -/
theorem Satisfies.applied {schema value : Json} (h : Satisfies schema value)
    (happlied : Applied schema value part node) : Satisfies part node := by
  have hall : ∀ p q, Relation.ReflTransGen Applies p q → Satisfies p.1 p.2 → Satisfies q.1 q.2 := by
    intro p q hpq hp
    induction hpq with
    | refl => exact hp
    | tail _ hstep ih => exact ih.step hstep
  exact hall _ _ happlied h

/-! ### What the validator reads -/

theorem orError_ok {α : Type} {label path : String} {message : Message} {o : Option α} {a : α} :
    orError label path message o = .ok a ↔ o = some a := by
  cases o <;> simp [orError, schemaError]

theorem asObject_some {value : Json} {fields : List (String × Json)} :
    value.asObject = some fields ↔ value = .obj fields := by
  cases value <;> simp [Json.asObject]

theorem asArray_some {value : Json} {items : List Json} :
    value.asArray = some items ↔ value = .arr items := by
  cases value <;> simp [Json.asArray]

theorem asStr_some {value : Json} {text : String} : value.asStr = some text ↔ value = .str text := by
  cases value <;> simp [Json.asStr]

theorem schemaTypeNames_ok {value : Json} {label path : String} {names : List String}
    (h : schemaTypeNames value label path = .ok names) :
    ∀ name ∈ names, Names value name ∧ name ∈ schemaTypes := by
  have hname : ∀ {name name' : String}, validateSchemaTypeName name label path = .ok name' →
      name' = name ∧ name ∈ schemaTypes := by
    intro name name' hn
    unfold validateSchemaTypeName at hn
    split at hn
    · next hmem => exact ⟨(Except.ok.inj hn).symm, hmem⟩
    · cases hn
  have hunion : ∀ {vs all : List Json} {earlier names : List String},
      unionTypeNames label path vs earlier = .ok names → vs ⊆ all →
      (∀ name ∈ earlier, .str name ∈ all ∧ name ∈ schemaTypes) →
      ∀ name ∈ names, .str name ∈ all ∧ name ∈ schemaTypes := by
    intro vs all
    induction vs with
    | nil =>
      intro earlier names hn _ hearlier
      cases hn
      exact hearlier
    | cons v vs ih =>
      intro earlier names hn hsub hearlier
      simp only [unionTypeNames, bind_ok, orError_ok, asStr_some] at hn
      obtain ⟨text, rfl, name, hvalid, hrest⟩ := hn
      obtain ⟨rfl, hmem⟩ := hname hvalid
      refine ih hrest (List.subset_of_cons_subset hsub) fun name hn => ?_
      split at hn
      · exact hearlier name hn
      · rcases List.mem_append.mp hn with hold | hnew
        · exact hearlier name hold
        · obtain rfl := List.mem_singleton.mp hnew
          exact ⟨hsub List.mem_cons_self, hmem⟩
  intro name hmem
  cases value with
  | str text =>
    simp only [schemaTypeNames, bind_ok, pure_ok] at h
    obtain ⟨valid, hvalid, rfl⟩ := h
    obtain ⟨rfl, htypes⟩ := hname hvalid
    obtain rfl := List.mem_singleton.mp hmem
    exact ⟨.one _, htypes⟩
  | arr items =>
    cases items with
    | nil => cases h
    | cons item items =>
      obtain ⟨hin, htypes⟩ := hunion h (List.Subset.refl _) (by simp) name hmem
      exact ⟨.union hin, htypes⟩
  | null => cases h
  | bool b => cases h
  | num n => cases h
  | obj fields => cases h

theorem schemaValueTypeMatches_iff {name : String} {value : Json} :
    schemaValueTypeMatches name value = true ↔ OfType name value := by
  have hinteger : ∀ n : JsonNumber, isJsonInteger (.num n) = true ↔ ∃ z : ℤ, n.denotes = z := by
    intro n
    cases n with
    | int z => exact ⟨fun _ => ⟨z, rfl⟩, fun _ => rfl⟩
    | float q =>
      simp only [isJsonInteger, decide_eq_true_eq, JsonNumber.denotes]
      exact ⟨fun h => ⟨q.num, (Rat.coe_int_num_of_den_eq_one h).symm⟩, fun ⟨z, h⟩ => by rw [h]; rfl⟩
  cases value with
  | num n =>
    simp only [schemaValueTypeMatches, Bool.or_eq_true, Bool.and_eq_true, decide_eq_true_eq,
      hinteger]
    constructor
    · rintro (rfl | ⟨rfl, z, hz⟩)
      · exact .number n
      · exact .integer n z hz
    · intro h
      cases h with
      | number => exact .inl rfl
      | integer _ z hz => exact .inr ⟨rfl, z, hz⟩
  | null =>
    simp only [schemaValueTypeMatches, decide_eq_true_eq]
    exact ⟨fun h => h ▸ .null, fun h => by cases h; rfl⟩
  | bool b =>
    simp only [schemaValueTypeMatches, decide_eq_true_eq]
    exact ⟨fun h => h ▸ .boolean b, fun h => by cases h; rfl⟩
  | str text =>
    simp only [schemaValueTypeMatches, decide_eq_true_eq]
    exact ⟨fun h => h ▸ .string text, fun h => by cases h; rfl⟩
  | arr items =>
    simp only [schemaValueTypeMatches, decide_eq_true_eq]
    exact ⟨fun h => h ▸ .array items, fun h => by cases h; rfl⟩
  | obj fields =>
    simp only [schemaValueTypeMatches, decide_eq_true_eq]
    exact ⟨fun h => h ▸ .object fields, fun h => by cases h; rfl⟩

/-! ### Soundness -/

/-- The parts of a schema without a `type` ask no more of the values they apply to than that these
are members of the `enum`: the properties required are there, and the parts below are satisfied. -/
def EnumsSuffice (schema value : Json) : Prop :=
  ∀ part node, Applied schema value (.obj part) node → Json.get? part "type" = none →
    HasRequired part node ∧
      ∀ part' node', Applies (.obj part, node) (part', node') → Satisfies part' node'

theorem EnumsSuffice.step {schema value : Json} (h : EnumsSuffice schema value)
    (happlies : Applies (schema, value) (part, node)) : EnumsSuffice part node :=
  fun part' node' happlied => h part' node' (.head happlies happlied)

section
variable {label : String} {sub : Json → Json → String → Result Unit}
  {schema : List (String × Json)} {value : Json} {path : String}

def requiredNames (schema : List (String × Json)) (label path : String) : Result (List String) :=
  match Json.get? schema "required" with
  | some required => requiredProperties required label path
  | none          => .ok []

def propertyParts (schema : List (String × Json)) (label path : String) :
    Result (List (String × Json)) :=
  match Json.get? schema "properties" with
  | some properties => schemaProperties properties label path
  | none            => .ok []

theorem mem_requiredNames {names : List Json} {required : List String} {name : String}
    (hnames : Json.get? schema "required" = some (.arr names))
    (hok : requiredNames schema label path = .ok required) (hname : .str name ∈ names) :
    name ∈ required := by
  simp only [requiredNames, hnames, requiredProperties, Json.asArray, bind_ok, orError_ok,
    Option.some.injEq, exists_eq_left'] at hok
  clear hnames
  induction names generalizing required with
  | nil => cases hname
  | cons v names ih =>
    simp only [List.mapM_cons, bind_ok, pure_ok, orError_ok, asStr_some] at hok
    obtain ⟨text, rfl, rest, hrest, rfl⟩ := hok
    rcases List.mem_cons.mp hname with heq | hlater
    · obtain rfl := Json.str.inj heq
      exact List.mem_cons_self
    · exact .tail _ (ih hlater hrest)

theorem propertyParts_ok {properties : List (String × Json)} :
    propertyParts schema label path = .ok properties ↔
      Json.get? schema "properties" = some (.obj properties) ∨
        Json.get? schema "properties" = none ∧ properties = [] := by
  unfold propertyParts
  cases Json.get? schema "properties" with
  | none => simp [eq_comm]
  | some v => simp [schemaProperties, orError_ok, asObject_some]

theorem validateObjectSchema_eq : validateObjectSchema sub schema value path label = (do
    let fields ← orError label path (.expectedObject (jsonTypeName value)) value.asObject
    let required ← requiredNames schema label path
    required.forM fun property =>
      if Json.containsKey fields property then .ok ()
      else schemaError label path (.missingRequired property)
    let properties ← propertyParts schema label path
    properties.forM fun (name, propertySchema) =>
      match Json.get? fields name with
      | some propertyValue => sub propertySchema propertyValue s!"{path}.{name}"
      | none => .ok ()
    fields.forM fun (name, propertyValue) =>
      if Json.containsKey properties name then .ok ()
      else match Json.get? schema "additionalProperties" with
        | some (.bool true) => .ok ()
        | some (.bool false) | none => schemaError label path (.unexpectedProperty name)
        | some (.obj extra) => sub (.obj extra) propertyValue s!"{path}.{name}"
        | some _ => schemaError label path .additionalPropertiesMalformed) := by
  unfold validateObjectSchema requiredNames propertyParts
  cases Json.get? schema "required" <;> cases Json.get? schema "properties" <;> rfl

theorem validateObjectSchema_ok (hok : validateObjectSchema sub schema value path label = .ok ()) :
    HasRequired schema value ∧ ∀ part node, Applies (.obj schema, value) (part, node) →
      part = .bool true ∨ ∃ path', sub part node path' = .ok () := by
  simp only [validateObjectSchema_eq, bind_ok, exists_unit_ok, orError_ok, asObject_some,
    forM_ok] at hok
  obtain ⟨fields, rfl, required, hrequired, hhas, properties, hproperties, hprops, hextra⟩ := hok
  refine ⟨?_, ?_⟩
  · rintro names _ hnames ⟨⟩ name hname
    have hchecked := hhas name (mem_requiredNames hnames hrequired hname)
    by_contra hmissing
    rw [if_neg hmissing] at hchecked
    cases hchecked
  · intro part node happlies
    cases happlies with
    | @property _ parts _ name _ _ hparts hpart hnode =>
      have hsame : parts = properties := by
        rcases propertyParts_ok.mp hproperties with h | ⟨h, -⟩
        · exact Json.obj.inj (Option.some.inj (hparts.symm.trans h))
        · rw [h] at hparts
          cases hparts
      have hchecked := hprops _ (hsame ▸ hpart)
      rw [hnode] at hchecked
      exact .inr ⟨_, hchecked⟩
    | @additional _ _ name _ _ hpart hnode hother =>
      have hmissing : Json.containsKey properties name = false := by
        rcases propertyParts_ok.mp hproperties with h | ⟨-, rfl⟩
        · exact hother properties h
        · rfl
      have hchecked := hextra _ hnode
      simp only [hmissing, hpart, Bool.false_eq_true, if_false] at hchecked
      cases part with
      | bool b =>
        cases b with
        | true => exact .inl rfl
        | false => cases hchecked
      | obj extra => exact .inr ⟨_, hchecked⟩
      | null => cases hchecked
      | num n => cases hchecked
      | str text => cases hchecked
      | arr items => cases hchecked

theorem validateArraySchema_ok (hok : validateArraySchema sub schema value path label = .ok ()) :
    HasRequired schema value ∧ ∀ part node, Applies (.obj schema, value) (part, node) →
      part = .bool true ∨ ∃ path', sub part node path' = .ok () := by
  simp only [validateArraySchema, bind_ok, orError_ok, asArray_some] at hok
  obtain ⟨nodes, rfl, items, hitems, hok⟩ := hok
  refine ⟨fun names fields _ h => ?_, fun part node happlies => ?_⟩
  · cases h
  · cases happlies with
    | @item _ _ _ _ hpart hnode =>
      obtain rfl := Option.some.inj (hitems.symm.trans hpart)
      cases items with
      | bool b =>
        cases b with
        | true => exact .inl rfl
        | false =>
          -- `items: false` accepts the empty array alone
          rw [List.isEmpty_eq_false_iff.mpr (List.ne_nil_of_mem hnode)] at hok
          cases hok
      | obj fields =>
        obtain ⟨i, hi⟩ := List.mem_iff_getElem?.mp hnode
        have hchecked := forM_ok.mp hok (node, i) (List.mem_zipIdx_iff_getElem?.mpr hi)
        exact .inr ⟨_, hchecked⟩
      | null => cases hok
      | num n => cases hok
      | str text => cases hok
      | arr items => cases hok

end

/-- **What the validator accepts satisfies the schema**, where the enumerations suffice. -/
theorem satisfies_of_validated {label : String} {fuel : Nat} {schema value : Json} {path : String}
    (hok : validateSchemaValue label fuel schema value path = .ok ())
    (henums : EnumsSuffice schema value) : Satisfies schema value := by
  induction fuel generalizing schema value path with
  | zero => cases hok
  | succ fuel ih =>
    simp only [validateSchemaValue, bind_ok, exists_unit_ok, orError_ok, asObject_some] at hok
    obtain ⟨object, rfl, -, henum, htype⟩ := hok
    have hmember : ∀ members, Json.get? object "enum" = some (.arr members) →
        ∃ member ∈ members, member.canonical = value.canonical := by
      intro members hmembers
      simp only [checkEnum, hmembers, bind_ok, orError_ok, Json.asArray, Option.some.injEq,
        exists_eq_left'] at henum
      by_cases hmem : value ∈ members
      · exact ⟨value, hmem, rfl⟩
      · rw [if_neg hmem] at henum
        cases henum
    have hsub : (∀ part node, Applies (.obj object, value) (part, node) → part = .bool true ∨
          ∃ path', validateSchemaValue label fuel part node path' = .ok ()) →
        ∀ part node, Applies (.obj object, value) (part, node) → Satisfies part node := by
      intro hchecked part node happlies
      rcases hchecked part node happlies with rfl | ⟨path', hnode⟩
      · exact .allowed node
      · exact ih hnode (henums.step happlies)
    cases hkey : Json.get? object "type" with
    | none =>
      obtain ⟨hrequired, hparts⟩ := henums object value .refl hkey
      refine .asserted ⟨fun types h => ?_, hmember, hrequired⟩ hparts
      rw [hkey] at h
      cases h
    | some types =>
      simp only [hkey, bind_ok] at htype
      obtain ⟨names, hnames, hmatch⟩ := htype
      cases hfind : names.find? (schemaValueTypeMatches · value) with
      | none =>
        rw [hfind] at hmatch
        cases hmatch
      | some name =>
        have hmatches := List.find?_some hfind
        have hof : OfType name value := schemaValueTypeMatches_iff.mp hmatches
        obtain ⟨hnamed, -⟩ := schemaTypeNames_ok hnames name (List.mem_of_find?_eq_some hfind)
        have htypes : ∀ types', Json.get? object "type" = some types' →
            ∃ name, Names types' name ∧ OfType name value := by
          intro types' h
          obtain rfl := Option.some.inj (hkey.symm.trans h)
          exact ⟨name, hnamed, hof⟩
        rw [hfind] at hmatch
        cases hof with
        | object fields =>
          obtain ⟨hrequired, hchecked⟩ := validateObjectSchema_ok hmatch
          exact .asserted ⟨htypes, hmember, hrequired⟩ (hsub hchecked)
        | array items =>
          obtain ⟨hrequired, hchecked⟩ := validateArraySchema_ok hmatch
          exact .asserted ⟨htypes, hmember, hrequired⟩ (hsub hchecked)
        | _ =>
          -- no other keyword speaks of a value that is no object and no array
          refine .asserted ⟨htypes, hmember, fun _ _ _ h => ?_⟩ fun _ _ happlies => ?_
          · cases h
          · cases happlies

/-- **The validator accepts only what satisfies the schema, except past an `enum` without a
`type`**: what it accepts satisfies the schema if and only if, wherever a part of the schema without
a `type` applies to a part of the value, that part of the value has the properties it requires and
satisfies what it has for properties and items. -/
theorem validated_satisfies_iff (schema value : Json) (label : String)
    (hok : validateJsonValueAgainstSchema schema value label = .ok ()) :
    Satisfies schema value ↔ EnumsSuffice schema value := by
  refine ⟨fun h part node happlied _ => ?_, fun h => ?_⟩
  · cases h.applied happlied with
    | asserted hpart hparts => exact ⟨hpart.required, hparts⟩
  · obtain ⟨_, -, hvalue⟩ := bind_ok.mp hok
    exact satisfies_of_validated hvalue h

/-- A schema that enumerates the empty object and requires a property. -/
def sampleUntyped : Json :=
  .obj [("enum", .arr [.obj []]), ("required", .arr [.str "a"])]

/-- **The validator lets through what the schema forbids**: the `enum` without a `type` ends the
check before `required`. -/
theorem untyped_enum_unsound :
    validateJsonSchemaSubset sampleUntyped "schema" = .ok () ∧
    validateJsonValueAgainstSchema sampleUntyped (.obj []) "schema" = .ok () ∧
    ¬ Satisfies sampleUntyped (.obj []) := by
  refine ⟨by decide, by decide, fun h => ?_⟩
  cases h with
  | asserted hasserts _ =>
    have hmissing := hasserts.required _ [] rfl rfl "a" List.mem_cons_self
    cases hmissing

/-- A schema of an object with a text and an enumerated property. -/
def sampleTyped : Json :=
  .obj [("properties", .obj [("message", .obj [("enum", .arr [.str "hello"])])]),
    ("type", .str "object")]

/-- What the validator accepts against such a schema satisfies it. -/
theorem validated_satisfies_iff_typed :
    validateJsonValueAgainstSchema sampleTyped (.obj [("message", .str "hello")]) "schema" =
      .ok () ∧ Satisfies sampleTyped (.obj [("message", .str "hello")]) := by
  have hok : validateJsonValueAgainstSchema sampleTyped (.obj [("message", .str "hello")])
      "schema" = .ok () := by decide
  refine ⟨hok, (validated_satisfies_iff _ _ _ hok).mpr fun part node happlied huntyped => ?_⟩
  -- the schema itself has a type, and below it a text is all there is
  rcases Relation.ReflTransGen.cases_head happlied with heq | ⟨⟨part₁, node₁⟩, hfirst, hrest⟩
  · cases heq
    cases huntyped
  · have hnode₁ : node₁ = .str "hello" := by
      cases hfirst with
      | @property _ parts _ name _ _ hparts hpart hnode =>
        obtain rfl := Json.obj.inj (Option.some.inj hparts)
        obtain ⟨rfl, -⟩ := Prod.mk.inj (List.mem_singleton.mp hpart)
        exact (Option.some.inj hnode).symm
      | additional hpart => cases hpart
    subst hnode₁
    rcases Relation.ReflTransGen.cases_head hrest with heq | ⟨_, hsecond, -⟩
    · cases heq
      refine ⟨fun _ _ _ h => ?_, fun _ _ happlies => ?_⟩
      · cases h
      · cases happlies
    · cases hsecond

end Schema
end Verlet
