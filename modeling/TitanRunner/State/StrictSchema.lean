import TitanRunner.Validate

/-!
# Closing a schema

`strictify` of `state/strict.js`.  The schemas here tell a keyword that is absent from one that is
empty: an object is closed for a list of properties without entries, and no value matches one of
no alternatives.
-/

namespace TitanRunner

namespace Strictify

open Utf16
open Validate (Keywords)

/-! ## Schemas -/

/-- `additionalProperties` -/
inductive Additional (Schema : Type) where
  | absent
  /-- `false` -/
  | closed
  /-- `true` -/
  | loose
  | each (schema : Schema)

namespace Additional

variable {Schema Other : Type}

def map (change : Schema → Other) : Additional Schema → Additional Other
  | .absent => .absent
  | .closed => .closed
  | .loose => .loose
  | .each schema => .each (change schema)

/-- `false` where nothing is said and properties are listed -/
def close (listed : Bool) : Additional Schema → Additional Schema
  | .absent => if listed then .closed else .absent
  | said => said

/-- `false`, or a schema -/
def bounds : Additional Schema → Bool
  | .absent | .loose => false
  | .closed | .each _ => true

/-- The value of the keyword, if it is there. -/
def toJson : Additional Json → Option Json
  | .absent => none
  | .closed => some (.bool false)
  | .loose => some (.bool true)
  | .each schema => some schema

end Additional

/-- A schema of the validator's keywords; `additional` stands for two of the flags among them. -/
inductive Schema where
  | node (keywords : Keywords) (anyOf : Option (List Schema)) (items : Option Schema)
      (properties : Option (List (Utf16 × Schema))) (additional : Additional Schema)

def anyOfKey : Utf16 := ofString "anyOf"

def itemsKey : Utf16 := ofString "items"

def propertiesKey : Utf16 := ofString "properties"

def additionalKey : Utf16 := ofString "additionalProperties"

/-- `type`, as a text or a list of texts -/
def typeJson (keywords : Keywords) : Option Json :=
  match keywords.types with
  | [] => none
  | [type] =>
      if keywords.listed then some (.array [.string type.name]) else some (.string type.name)
  | types => some (.array (types.map fun type => .string type.name))

/-- The keywords that hold no schema, by their names. -/
def wordFields (keywords : Keywords) : List (Utf16 × Option Json) :=
  let number := fun bound : Nat => Json.number (ofNat bound)
  [(ofString "nullable", if keywords.nullable then some (.bool true) else none),
    (ofString "const", keywords.const),
    (ofString "type", typeJson keywords),
    (ofString "enum", keywords.enum.map .array),
    (ofString "minLength", keywords.minLength.map number),
    (ofString "maxLength", keywords.maxLength.map number),
    (ofString "pattern", keywords.pattern.map fun (source, _) => .string source),
    (ofString "format",
      if keywords.dateTime then some (.string (ofString "date-time")) else none),
    (ofString "minimum", keywords.minimum.map .number),
    (ofString "maximum", keywords.maximum.map .number),
    (ofString "minItems", keywords.minItems.map number),
    (ofString "maxItems", keywords.maxItems.map number),
    (ofString "required",
      if keywords.required.isEmpty then none
      else some (.array (keywords.required.map .string)))]

def words (keywords : Keywords) : List (Utf16 × Json) :=
  (wordFields keywords).filterMap fun field => field.2.map fun value => (field.1, value)

/-- The member of a keyword that is there. -/
def field (key : Utf16) (value : Option Json) : List (Utf16 × Json) :=
  (value.map fun value => (key, value)).toList

/-- The members of a schema. -/
def layout (keywords : Keywords) (anyOf items properties additional : Option Json) :
    List (Utf16 × Json) :=
  words keywords ++ (field anyOfKey anyOf ++ (field itemsKey items ++
    (field propertiesKey properties ++ field additionalKey additional)))

mutual

/-- The schema as the object that it is. -/
def Schema.toJson : Schema → Json
  | .node keywords anyOf items properties additional =>
      .object (layout keywords
        (match anyOf with
          | some schemas => some (.array (allJson schemas))
          | none => none)
        (match items with
          | some schema => some schema.toJson
          | none => none)
        (match properties with
          | some properties => some (.object (propertiesJson properties))
          | none => none)
        (match additional with
          | .absent => none
          | .closed => some (.bool false)
          | .loose => some (.bool true)
          | .each schema => some schema.toJson))

def allJson : List Schema → List Json
  | [] => []
  | schema :: schemas => schema.toJson :: allJson schemas

def propertiesJson : List (Utf16 × Schema) → List (Utf16 × Json)
  | [] => []
  | (name, schema) :: properties => (name, schema.toJson) :: propertiesJson properties

end

/-! ## `strictify` -/

/-- `additionalProperties: false`, where properties are listed and nothing is said. -/
def close (members : List (Utf16 × Json)) : List (Utf16 × Json) :=
  if ((Json.object members).member propertiesKey).any Json.truthy &&
      ((Json.object members).member additionalKey).isNone then
    members ++ [(additionalKey, .bool false)]
  else members

mutual

/-- `strictify`, of a schema whose `properties` is an object and whose `anyOf` is a list. -/
def strictify : Json → Json
  | .array items => .array (strictifyItems items)
  | .object members => .object (close (strictifyMembers members))
  | value => value

def strictifyItems : List Json → List Json
  | [] => []
  | item :: items => strictify item :: strictifyItems items

/-- The members of a schema, each by its key. -/
def strictifyMembers : List (Utf16 × Json) → List (Utf16 × Json)
  | [] => []
  | (key, value) :: members =>
      (key,
        if key = propertiesKey then strictifyProperties value
        else if key = itemsKey ∨ key = additionalKey then strictify value
        else if key = anyOfKey then strictifyAlternatives value
        else value) :: strictifyMembers members

def strictifyProperties : Json → Json
  | .object members => .object (strictifyValues members)
  | value => value

/-- Every member is a schema, whatever its name. -/
def strictifyValues : List (Utf16 × Json) → List (Utf16 × Json)
  | [] => []
  | (name, value) :: members => (name, strictify value) :: strictifyValues members

def strictifyAlternatives : Json → Json
  | .array items => .array (strictifyItems items)
  | value => value

end

mutual

/-- What `strictify` makes of a schema. -/
def Schema.strict : Schema → Schema
  | .node keywords anyOf items properties additional =>
      .node keywords
        (match anyOf with
          | some schemas => some (allStrict schemas)
          | none => none)
        (match items with
          | some schema => some schema.strict
          | none => none)
        (match properties with
          | some properties => some (propertiesStrict properties)
          | none => none)
        ((match additional with
          | .absent => Additional.absent
          | .closed => .closed
          | .loose => .loose
          | .each schema => .each schema.strict).close properties.isSome)

def allStrict : List Schema → List Schema
  | [] => []
  | schema :: schemas => schema.strict :: allStrict schemas

def propertiesStrict : List (Utf16 × Schema) → List (Utf16 × Schema)
  | [] => []
  | (name, schema) :: properties => (name, schema.strict) :: propertiesStrict properties

end

/-- The rule of induction over a schema: what holds of it if it holds of the schemas in it. -/
theorem Schema.induction {motive : Schema → Prop}
    (node : ∀ keywords anyOf items properties additional,
      (∀ schemas, anyOf = some schemas → ∀ schema ∈ schemas, motive schema) →
      (∀ schema, items = some schema → motive schema) →
      (∀ listed, properties = some listed → ∀ name schema, (name, schema) ∈ listed →
        motive schema) →
      (∀ schema, additional = .each schema → motive schema) →
      motive (.node keywords anyOf items properties additional)) :
    ∀ schema, motive schema
  | .node keywords anyOf items properties additional => by
      apply node
      · intro schemas same schema inside
        have less := List.sizeOf_lt_of_mem inside
        exact Schema.induction node schema
      · intro schema same
        exact Schema.induction node schema
      · intro listed same name schema inside
        have less := List.sizeOf_lt_of_mem inside
        exact Schema.induction node schema
      · intro schema same
        exact Schema.induction node schema
termination_by schema => sizeOf schema
decreasing_by
  all_goals subst same
  · simp only [Schema.node.sizeOf_spec, Option.some.sizeOf_spec]
    omega
  · simp only [Schema.node.sizeOf_spec, Option.some.sizeOf_spec]
    omega
  · simp only [Schema.node.sizeOf_spec, Option.some.sizeOf_spec, Prod.mk.sizeOf_spec] at less ⊢
    omega
  · simp only [Schema.node.sizeOf_spec, Additional.each.sizeOf_spec]
    omega

theorem allJson_eq_map (schemas : List Schema) : allJson schemas = schemas.map Schema.toJson := by
  induction schemas with
  | nil => rfl
  | cons schema schemas ih => rw [allJson, ih, List.map_cons]

theorem propertiesJson_eq_map (listed : List (Utf16 × Schema)) :
    propertiesJson listed = listed.map fun entry => (entry.1, entry.2.toJson) := by
  induction listed with
  | nil => rfl
  | cons entry listed ih => rw [propertiesJson, ih, List.map_cons]

theorem toJson_node (keywords : Keywords) (anyOf : Option (List Schema)) (items : Option Schema)
    (properties : Option (List (Utf16 × Schema))) (additional : Additional Schema) :
    (Schema.node keywords anyOf items properties additional).toJson =
      .object (layout keywords (anyOf.map fun schemas => .array (schemas.map Schema.toJson))
        (items.map Schema.toJson)
        (properties.map fun listed => .object (listed.map fun entry => (entry.1, entry.2.toJson)))
        (additional.map Schema.toJson).toJson) := by
  simp only [← allJson_eq_map, ← propertiesJson_eq_map]
  cases anyOf <;> cases items <;> cases properties <;> cases additional <;> rfl

theorem strictifyItems_eq_map (items : List Json) :
    strictifyItems items = items.map strictify := by
  induction items with
  | nil => rfl
  | cons item items ih => rw [strictifyItems, ih, List.map_cons]

theorem strictifyValues_eq_map (members : List (Utf16 × Json)) :
    strictifyValues members = members.map fun entry => (entry.1, strictify entry.2) := by
  induction members with
  | nil => rfl
  | cons entry members ih => rw [strictifyValues, ih, List.map_cons]

theorem allStrict_eq_map (schemas : List Schema) :
    allStrict schemas = schemas.map Schema.strict := by
  induction schemas with
  | nil => rfl
  | cons schema schemas ih => rw [allStrict, ih, List.map_cons]

theorem propertiesStrict_eq_map (listed : List (Utf16 × Schema)) :
    propertiesStrict listed = listed.map fun entry => (entry.1, entry.2.strict) := by
  induction listed with
  | nil => rfl
  | cons entry listed ih => rw [propertiesStrict, ih, List.map_cons]

theorem strict_node (keywords : Keywords) (anyOf : Option (List Schema)) (items : Option Schema)
    (properties : Option (List (Utf16 × Schema))) (additional : Additional Schema) :
    (Schema.node keywords anyOf items properties additional).strict =
      .node keywords (anyOf.map fun schemas => schemas.map Schema.strict)
        (items.map Schema.strict)
        (properties.map fun listed => listed.map fun entry => (entry.1, entry.2.strict))
        ((additional.map Schema.strict).close properties.isSome) := by
  simp only [← allStrict_eq_map, ← propertiesStrict_eq_map]
  cases anyOf <;> cases items <;> cases properties <;> cases additional <;> rfl

section Strictify

variable {members : List (Utf16 × Json)} {keywords : Keywords} {key : Utf16}
variable {anyOf items properties additional value : Option Json}

theorem strictifyMembers_append (left right : List (Utf16 × Json)) :
    strictifyMembers (left ++ right) = strictifyMembers left ++ strictifyMembers right := by
  induction left with
  | nil => rfl
  | cons entry left ih =>
      obtain ⟨key, value⟩ := entry
      rw [List.cons_append, strictifyMembers, strictifyMembers, ih, List.cons_append]

/-- The names of the keywords that hold no schema. -/
def wordNames : List Utf16 := (wordFields {}).map Prod.fst

theorem wordNames_apart : ∀ key ∈ wordNames, key ≠ propertiesKey ∧ key ≠ itemsKey ∧
    key ≠ additionalKey ∧ key ≠ anyOfKey := by decide

theorem key_of_words {entry : Utf16 × Json} (inside : entry ∈ words keywords) :
    entry.1 ∈ wordNames := by
  obtain ⟨field, listed, found⟩ := List.mem_filterMap.1 inside
  obtain ⟨value, -, rfl⟩ := Option.map_eq_some_iff.1 found
  have names : (wordFields keywords).map Prod.fst = wordNames := rfl
  exact names ▸ List.mem_map_of_mem listed

theorem strictifyMembers_words : strictifyMembers (words keywords) = words keywords := by
  have same : ∀ members : List (Utf16 × Json), (∀ entry ∈ members, entry.1 ∈ wordNames) →
      strictifyMembers members = members := by
    intro members
    induction members with
    | nil => intro _; rfl
    | cons entry members ih =>
        intro listed
        obtain ⟨properties, items, additional, anyOf⟩ :=
          wordNames_apart entry.1 (listed entry List.mem_cons_self)
        rw [strictifyMembers, ih fun other inside => listed other (List.mem_cons_of_mem _ inside),
          if_neg properties, if_neg (not_or.2 ⟨items, additional⟩), if_neg anyOf]
  exact same _ fun _ => key_of_words

theorem strictifyMembers_layout :
    strictifyMembers (layout keywords anyOf items properties additional) =
      layout keywords (anyOf.map strictifyAlternatives) (items.map strictify)
        (properties.map strictifyProperties) (additional.map strictify) := by
  have anyOf' : strictifyMembers (field anyOfKey anyOf) =
      field anyOfKey (anyOf.map strictifyAlternatives) := by cases anyOf <;> rfl
  have items' : strictifyMembers (field itemsKey items) = field itemsKey (items.map strictify) := by
    cases items <;> rfl
  have properties' : strictifyMembers (field propertiesKey properties) =
      field propertiesKey (properties.map strictifyProperties) := by cases properties <;> rfl
  have additional' : strictifyMembers (field additionalKey additional) =
      field additionalKey (additional.map strictify) := by cases additional <;> rfl
  simp only [layout, strictifyMembers_append, strictifyMembers_words, anyOf', items', properties',
    additional']

theorem member_append (left right : List (Utf16 × Json)) :
    (Json.object (left ++ right)).member key =
      ((Json.object right).member key).or ((Json.object left).member key) := by
  simp only [Json.member, List.reverse_append, List.find?_append, Option.map_or]

theorem member_field {key' : Utf16} :
    (Json.object (field key' value)).member key = if key' = key then value else none := by
  cases value with
  | none => simp [field, Json.member]
  | some value => by_cases same : key' = key <;> simp [field, Json.member, same]

theorem member_words (apart : key ∉ wordNames) :
    (Json.object (words keywords)).member key = none := by
  simp only [Json.member, Option.map_eq_none_iff, List.find?_eq_none]
  intro entry inside same
  exact apart (eq_of_beq same ▸ key_of_words (List.mem_reverse.1 inside))

theorem close_layout : close (layout keywords anyOf items properties additional) =
    layout keywords anyOf items properties
      (if properties.any Json.truthy && additional.isNone then some (.bool false)
        else additional) := by
  have listed : (Json.object (layout keywords anyOf items properties additional)).member
      propertiesKey = properties := by
    simp only [layout, member_append, member_field,
      member_words (show propertiesKey ∉ wordNames by decide)]
    simp [show additionalKey ≠ propertiesKey by decide,
      show itemsKey ≠ propertiesKey by decide,
      show anyOfKey ≠ propertiesKey by decide]
  have said : (Json.object (layout keywords anyOf items properties additional)).member
      additionalKey = additional := by
    simp only [layout, member_append, member_field,
      member_words (show additionalKey ∉ wordNames by decide)]
    simp [show propertiesKey ≠ additionalKey by decide,
      show itemsKey ≠ additionalKey by decide,
      show anyOfKey ≠ additionalKey by decide]
  rw [close, listed, said]
  split
  next closes =>
    obtain ⟨-, nothing⟩ := Bool.and_eq_true_iff.1 closes
    obtain rfl := Option.isNone_iff_eq_none.1 nothing
    simp [layout, field]
  next => rfl

/-- `strictify` makes of a schema's object the object of the closed schema: no name of a property
is taken for a keyword. -/
theorem strictify_toJson (schema : Schema) : strictify schema.toJson = schema.strict.toJson := by
  induction schema using Schema.induction with
  | node keywords anyOf items properties additional ofAnyOf ofItems ofProperties ofEach =>
      rw [toJson_node, strictify, strictifyMembers_layout, close_layout, strict_node, toJson_node]
      congr 2
      · cases anyOf with
        | none => rfl
        | some schemas =>
            simpa [strictifyAlternatives, strictifyItems_eq_map] using ofAnyOf schemas rfl
      · cases items with
        | none => rfl
        | some schema => simpa using ofItems schema rfl
      · cases properties with
        | none => rfl
        | some properties =>
            simpa [strictifyProperties, strictifyValues_eq_map] using ofProperties properties rfl
      · cases additional with
        | each schema =>
            have same := ofEach schema rfl
            cases properties <;> simp [Additional.toJson, Additional.map, Additional.close, same]
        | absent | closed | loose =>
            cases properties <;>
              simp [Additional.toJson, Additional.map, Additional.close, strictifyProperties,
                Json.truthy, strictify]

end Strictify

end Strictify

end TitanRunner
