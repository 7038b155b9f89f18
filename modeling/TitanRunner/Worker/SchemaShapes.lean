import TitanRunner.Validate.Satisfies
import TitanRunner.Worker.JsonSchema

/-!
# What a schema says to the Worker

The schemas that the keywords of `lib/jsonschema.js` make, as JSON values, and the values that
satisfy them: strictly, so that an object holds only what the schema lists unless it says
otherwise.  A number stands by the text that is printed for it.
-/

namespace TitanRunner

namespace JsonSchema

open Utf16
open Validate (JsonType HasOwn OwnIfInherited)

/-! ## Schemas -/

/-- The keywords that hold no schema. -/
structure Words where
  types : List JsonType := []
  /-- A single type stands in an array as well. -/
  listed : Bool := false
  enum : Option (List Json) := none
  const : Option Json := none
  minLength : Option Utf16 := none
  maxLength : Option Utf16 := none
  pattern : Option Utf16 := none
  minimum : Option Utf16 := none
  maximum : Option Utf16 := none
  minItems : Option Utf16 := none
  maxItems : Option Utf16 := none
  required : List Utf16 := []

/-- A schema; `items` and `additional` hold one schema at most. -/
inductive Shape where
  /-- `true` -/
  | anything
  /-- `false` -/
  | nothing
  | node (words : Words) (anyOf oneOf items : List Shape) (properties : List (Utf16 × Shape))
      (additional : List Shape)

def typeJson (words : Words) : Option Json :=
  match words.types with
  | [] => none
  | [type] =>
      if words.listed then some (.array [.string type.name]) else some (.string type.name)
  | types => some (.array (types.map fun type => .string type.name))

/-- The members that are there. -/
def present (fields : List (Utf16 × Option Json)) : List (Utf16 × Json) :=
  fields.filterMap fun field => field.2.map fun value => (field.1, value)

def arrayUnlessEmpty (items : List Json) : Option Json :=
  if items.isEmpty then none else some (.array items)

/-- The members of a schema, from the JSON values of the schemas in it. -/
def fieldsOf (words : Words) (anyOf oneOf items : List Json) (properties : List (Utf16 × Json))
    (additional : List Json) : List (Utf16 × Option Json) :=
  [(ofString "type", typeJson words),
    (ofString "enum", words.enum.map .array),
    (ofString "const", words.const),
    (ofString "minLength", words.minLength.map .number),
    (ofString "maxLength", words.maxLength.map .number),
    (ofString "pattern", words.pattern.map .string),
    (ofString "minimum", words.minimum.map .number),
    (ofString "maximum", words.maximum.map .number),
    (ofString "minItems", words.minItems.map .number),
    (ofString "maxItems", words.maxItems.map .number),
    (ofString "required", some (.array (words.required.map .string))),
    (ofString "items", items.head?),
    (ofString "properties", some (.object properties)),
    (ofString "additionalProperties", additional.head?),
    (ofString "anyOf", arrayUnlessEmpty anyOf),
    (ofString "oneOf", arrayUnlessEmpty oneOf)]

mutual

def Shape.toJson : Shape → Json
  | .anything => .bool true
  | .nothing => .bool false
  | .node words anyOf oneOf items properties additional =>
      .object (present (fieldsOf words (allJson anyOf) (allJson oneOf) (allJson items)
        (propertiesJson properties) (allJson additional)))

def allJson : List Shape → List Json
  | [] => []
  | shape :: shapes => shape.toJson :: allJson shapes

def propertiesJson : List (Utf16 × Shape) → List (Utf16 × Json)
  | [] => []
  | (key, shape) :: properties => (key, shape.toJson) :: propertiesJson properties

end

mutual

/-- How deep the schemas in a schema are nested. -/
def Shape.height : Shape → Nat
  | .anything | .nothing => 0
  | .node _ anyOf oneOf items properties additional =>
      max (allHeight anyOf) (max (allHeight oneOf) (max (allHeight items)
        (max (propertiesHeight properties) (allHeight additional))))

def allHeight : List Shape → Nat
  | [] => 0
  | shape :: shapes => max (shape.height + 1) (allHeight shapes)

def propertiesHeight : List (Utf16 × Shape) → Nat
  | [] => 0
  | (_, shape) :: properties => max (shape.height + 1) (propertiesHeight properties)

end

/-! ## Values that satisfy a schema -/

/-- What is listed or typed lets a value through. -/
@[mk_iff]
structure Words.Allow (words : Words) (value : Json) : Prop where
  types : words.types ≠ [] → ∃ type ∈ words.types, type.Fits value
  enum : ∀ allowed, words.enum = some allowed → value ∈ allowed
  const : ∀ listed, words.const = some listed → value = listed

/-- The bounds of a value are kept, each by the values it is for. -/
@[mk_iff]
structure Words.Bound (regExp : RegExp) (words : Words) (value : Json) : Prop where
  minLength : ∀ text, value = .string text → ∀ least, words.minLength = some least →
    (Json.decimal least).toRat ≤ text.length
  maxLength : ∀ text, value = .string text → ∀ most, words.maxLength = some most →
    text.length ≤ (Json.decimal most).toRat
  pattern : ∀ text, value = .string text → ∀ pattern, words.pattern = some pattern →
    ∃ test, regExp pattern = some test ∧ test text = true
  minimum : ∀ number, value = .number number → ∀ least, words.minimum = some least →
    (Json.decimal least).toRat ≤ (Json.decimal number).toRat
  maximum : ∀ number, value = .number number → ∀ most, words.maximum = some most →
    (Json.decimal number).toRat ≤ (Json.decimal most).toRat
  minItems : ∀ items, value = .array items → ∀ least, words.minItems = some least →
    (Json.decimal least).toRat ≤ items.length
  maxItems : ∀ items, value = .array items → ∀ most, words.maxItems = some most →
    items.length ≤ (Json.decimal most).toRat
  required : ∀ members, value = .object members → ∀ key ∈ words.required, HasOwn value key

mutual

/-- Every keyword of the schema holds of the value. -/
def Meets (regExp : RegExp) : Shape → Json → Prop
  | .anything, _ => True
  | .nothing, _ => False
  | .node words anyOf oneOf items properties additional, value =>
      words.Allow value ∧ words.Bound regExp value ∧
        (anyOf = [] ∨ MeetsAny regExp anyOf value) ∧
        (oneOf = [] ∨ MeetsOne regExp oneOf value) ∧ ItemsMeet regExp items value ∧
        PropertiesMeet regExp properties value ∧
        ∀ key item, value.member key = some item → key ∉ properties.map Prod.fst →
          OtherMeets regExp additional item

def MeetsAny (regExp : RegExp) : List Shape → Json → Prop
  | [], _ => False
  | shape :: shapes, value => Meets regExp shape value ∨ MeetsAny regExp shapes value

/-- Exactly one schema is met. -/
def MeetsOne (regExp : RegExp) : List Shape → Json → Prop
  | [], _ => False
  | shape :: shapes, value =>
      Meets regExp shape value ∧ ¬ MeetsAny regExp shapes value ∨
        ¬ Meets regExp shape value ∧ MeetsOne regExp shapes value

def ItemsMeet (regExp : RegExp) : List Shape → Json → Prop
  | [], _ => True
  | shape :: _, value => ∀ item ∈ value.array?.getD [], Meets regExp shape item

def PropertiesMeet (regExp : RegExp) : List (Utf16 × Shape) → Json → Prop
  | [], _ => True
  | (key, shape) :: properties, value =>
      (∀ item, value.member key = some item → Meets regExp shape item) ∧
        PropertiesMeet regExp properties value

/-- A member that is not listed is admitted by a schema for it alone. -/
def OtherMeets (regExp : RegExp) : List Shape → Json → Prop
  | [], _ => False
  | shape :: _, item => Meets regExp shape item

end

/-! ## What the validator can tell -/

mutual

/-- Properties have one schema each, and what is listed is a value. -/
def Sound : Shape → Prop
  | .anything | .nothing => True
  | .node words anyOf oneOf items properties additional =>
      (∀ allowed, words.enum = some allowed → ∀ listed ∈ allowed, listed.isProper = true) ∧
        (∀ listed, words.const = some listed → listed.isProper = true) ∧
        (properties.map Prod.fst).Nodup ∧ AllSound anyOf ∧ AllSound oneOf ∧ AllSound items ∧
        PropertiesSound properties ∧ AllSound additional

def AllSound : List Shape → Prop
  | [] => True
  | shape :: shapes => Sound shape ∧ AllSound shapes

def PropertiesSound : List (Utf16 × Shape) → Prop
  | [] => True
  | (_, shape) :: properties => Sound shape ∧ PropertiesSound properties

end

mutual

/-- The names that every object inherits are looked up where the value has them itself, and are
listed where other members are restricted. -/
def Clear : Shape → Json → Prop
  | .anything, _ | .nothing, _ => True
  | .node words anyOf oneOf items properties additional, value =>
      (∀ key ∈ words.required, OwnIfInherited value key) ∧
        (∀ key, HasOwn value key → Inherited.isInherited key = true →
          key ∈ properties.map Prod.fst ∨
            additional.head? = some .anything ∧ key ≠ Inherited.proto) ∧
        AllClear anyOf value ∧ AllClear oneOf value ∧ ItemsClear items value ∧
        PropertiesClear properties value ∧
        ∀ key item, value.member key = some item → key ∉ properties.map Prod.fst →
          OtherClear additional item

def AllClear : List Shape → Json → Prop
  | [], _ => True
  | shape :: shapes, value => Clear shape value ∧ AllClear shapes value

def ItemsClear : List Shape → Json → Prop
  | [], _ => True
  | shape :: _, value => ∀ item ∈ value.array?.getD [], Clear shape item

def PropertiesClear : List (Utf16 × Shape) → Json → Prop
  | [], _ => True
  | (key, shape) :: properties, value =>
      (∀ item, value.member key = some item → Clear shape item) ∧
        PropertiesClear properties value

def OtherClear : List Shape → Json → Prop
  | [], _ => True
  | shape :: _, item => Clear shape item

end

/-! ## Members -/

theorem find?_name {members : List (Utf16 × Json)} {name : Utf16} {value : Json}
    (distinct : (members.map Prod.fst).Nodup) (mem : (name, value) ∈ members) :
    members.find? (fun entry => entry.1 == name) = some (name, value) := by
  induction members with
  | nil => exact absurd mem List.not_mem_nil
  | cons first rest ih =>
      rw [List.map_cons, List.nodup_cons] at distinct
      obtain rfl | mem := List.mem_cons.1 mem
      · simp
      · have other : first.1 ≠ name := fun same =>
          distinct.1 (same ▸ List.mem_map_of_mem (f := Prod.fst) mem)
        rw [List.find?_cons_of_neg (by simpa using other), ih distinct.2 mem]

theorem member_of_mem {members : List (Utf16 × Json)} {name : Utf16} {value : Json}
    (distinct : (members.map Prod.fst).Nodup) (mem : (name, value) ∈ members) :
    (Json.object members).member name = some value := by
  have reversed : (members.reverse.map Prod.fst).Nodup := by
    rwa [List.map_reverse, List.nodup_reverse]
  rw [Json.member, find?_name reversed (List.mem_reverse.2 mem), Option.map_some]

theorem mem_present {fields : List (Utf16 × Option Json)} {name : Utf16} {value : Json} :
    (name, value) ∈ present fields ↔ (name, some value) ∈ fields := by
  rw [present, List.mem_filterMap]
  constructor
  · rintro ⟨field, mem, there⟩
    obtain ⟨found, given, same⟩ := Option.map_eq_some_iff.1 there
    obtain ⟨rfl, rfl⟩ := Prod.mk.inj same
    rwa [← given]
  · intro mem
    exact ⟨_, mem, rfl⟩

theorem names_present (fields : List (Utf16 × Option Json)) :
    ((present fields).map Prod.fst).Sublist (fields.map Prod.fst) := by
  induction fields with
  | nil => exact .slnil
  | cons field fields ih =>
      cases given : field.2 with
      | none =>
          rw [present, List.filterMap_cons_none (by rw [given, Option.map_none])]
          exact ih.cons _
      | some value =>
          rw [present, List.filterMap_cons_some (by rw [given, Option.map_some])]
          exact ih.cons_cons _

/-- A field is the member of its name, where it is there. -/
theorem member_present {fields : List (Utf16 × Option Json)} {name : Utf16} {value : Option Json}
    (distinct : (fields.map Prod.fst).Nodup) (mem : (name, value) ∈ fields) :
    (Json.object (present fields)).member name = value := by
  cases value with
  | some value => exact member_of_mem (distinct.sublist (names_present fields)) (mem_present.2 mem)
  | none =>
      rw [← Option.not_isSome_iff_eq_none]
      intro there
      obtain ⟨entry, inside, same⟩ := List.mem_map.1 (Validate.hasOwn_object.1 there)
      have found : (name, some entry.2) ∈ fields := mem_present.1 (same ▸ inside)
      have both := List.inj_on_of_nodup_map distinct mem found rfl
      simp at both

section Fields

variable {words : Words} {anyOf oneOf items additional : List Json}
  {properties : List (Utf16 × Json)}

theorem distinct_fields :
    ((fieldsOf words anyOf oneOf items properties additional).map Prod.fst).Nodup := by
  have names : (["type", "enum", "const", "minLength", "maxLength", "pattern", "minimum",
      "maximum", "minItems", "maxItems", "required", "items", "properties",
      "additionalProperties", "anyOf", "oneOf"].map ofString).Nodup := by
    decide
  exact names

/-- The members of a schema are its keywords. -/
theorem member_schema {name : String} {value : Option Json}
    (mem : (ofString name, value) ∈ fieldsOf words anyOf oneOf items properties additional) :
    (Json.object (present (fieldsOf words anyOf oneOf items properties additional))).member
      (ofString name) = value :=
  member_present distinct_fields mem

theorem member_ref :
    (Json.object (present (fieldsOf words anyOf oneOf items properties additional))).member
      (ofString "$ref") = none := by
  rw [← Option.not_isSome_iff_eq_none]
  intro there
  have inside := (names_present _).subset (Validate.hasOwn_object.1 there)
  have missing : ofString "$ref" ∉ ["type", "enum", "const", "minLength", "maxLength", "pattern",
      "minimum", "maximum", "minItems", "maxItems", "required", "items", "properties",
      "additionalProperties", "anyOf", "oneOf"].map ofString := by
    decide
  exact missing inside

/-- The keywords of a schema, as they are looked up. -/
structure Reads (schema : Json) (words : Words) (anyOf oneOf items : List Json)
    (properties : List (Utf16 × Json)) (additional : List Json) : Prop where
  ref : schema.member (ofString "$ref") = none
  types : schema.member (ofString "type") = typeJson words
  enum : schema.member (ofString "enum") = words.enum.map .array
  const : schema.member (ofString "const") = words.const
  minLength : schema.member (ofString "minLength") = words.minLength.map .number
  maxLength : schema.member (ofString "maxLength") = words.maxLength.map .number
  pattern : schema.member (ofString "pattern") = words.pattern.map .string
  minimum : schema.member (ofString "minimum") = words.minimum.map .number
  maximum : schema.member (ofString "maximum") = words.maximum.map .number
  minItems : schema.member (ofString "minItems") = words.minItems.map .number
  maxItems : schema.member (ofString "maxItems") = words.maxItems.map .number
  required : schema.member (ofString "required") = some (.array (words.required.map .string))
  items : schema.member (ofString "items") = items.head?
  properties : schema.member (ofString "properties") = some (.object properties)
  additional : schema.member (ofString "additionalProperties") = additional.head?
  anyOf : schema.member (ofString "anyOf") = arrayUnlessEmpty anyOf
  oneOf : schema.member (ofString "oneOf") = arrayUnlessEmpty oneOf

theorem reads_fieldsOf :
    Reads (.object (present (fieldsOf words anyOf oneOf items properties additional))) words anyOf
      oneOf items properties additional := by
  constructor
  case ref => exact member_ref
  all_goals exact member_schema (by simp [fieldsOf])

end Fields

/-! ## Keywords -/

theorem name_injective : Function.Injective JsonType.name := by
  intro left right same
  revert same
  cases left <;> cases right <;> decide

/-- The narrowest type of a value. -/
def kind (value : Json) : JsonType :=
  match value with
  | .null => .null
  | .array _ => .array
  | .number _ => if value.integer?.isSome then .integer else .number
  | .string _ => .string
  | .bool _ => .boolean
  | .object _ => .object

theorem typeOf_eq (value : Json) : typeOf value = (kind value).name := by
  cases value with
  | number text =>
      rw [typeOf, kind]
      split <;> rfl
  | null | array | string | bool | object => rfl

theorem kind_iff (type : JsonType) (value : Json) :
    type = kind value ∨ type = .number ∧ kind value = .integer ↔ type.Fits value := by
  cases value with
  | number text =>
      have whole := @Json.Decimal.isSome_integer_iff (Json.decimal text)
      rw [kind, Json.integer?]
      split
      next integer =>
        have number := whole.1 integer
        cases type <;> simp [JsonType.Fits, number]
      next fraction =>
        have none := mt whole.2 fraction
        cases type <;> simp [JsonType.Fits, none]
  | null | array | string | bool | object => cases type <;> simp [kind, JsonType.Fits]

theorem typeMatches_iff (type : JsonType) (value : Json) :
    typeMatches (.string type.name) value = true ↔ type.Fits value := by
  have number : ofString "number" = JsonType.number.name := rfl
  have integer : ofString "integer" = JsonType.integer.name := rfl
  rw [← kind_iff, typeMatches, typeOf_eq, number, integer]
  simp [Json.string?, name_injective.eq_iff]

theorem typesOf_schema {schema : Json} {words : Words}
    (given : schema.member (ofString "type") = typeJson words) :
    typesOf schema =
      if words.types = [] then none
      else some (words.types.map fun type => .string type.name) := by
  rw [typesOf, given, typeJson]
  cases words.types with
  | nil => rfl
  | cons type types =>
      cases types with
      | nil => cases words.listed <;> rfl
      | cons => rfl

theorem types_none_iff {schema value : Json} {words : Words}
    (given : schema.member (ofString "type") = typeJson words) :
    ((typesOf schema).filter fun types => !types.any (typeMatches · value)) = none ↔
      (words.types ≠ [] → ∃ type ∈ words.types, type.Fits value) := by
  rw [typesOf_schema given, Option.filter_eq_none_iff]
  split
  next none => simp [none]
  next some =>
    have any : (words.types.map fun type => Json.string type.name).any (typeMatches · value) =
        true ↔ ∃ type ∈ words.types, type.Fits value := by
      rw [List.any_map, List.any_eq_true]
      exact exists_congr fun type => and_congr_right fun _ => typeMatches_iff type value
    rw [← any]
    simp [some]

theorem checkBounds_nil_iff {schema : Json} {least most : String} {number : Json.Decimal}
    {path before after : Utf16} {low high : Option Utf16}
    (lower : schema.member (ofString least) = low.map .number)
    (upper : schema.member (ofString most) = high.map .number) :
    checkBounds schema least most number path before after = [] ↔
      (∀ limit, low = some limit → (Json.decimal limit).toRat ≤ number.toRat) ∧
        ∀ limit, high = some limit → number.toRat ≤ (Json.decimal limit).toRat := by
  have notLess (left right : Json.Decimal) :
      left.less right = false ↔ right.toRat ≤ left.toRat := by
    rw [← Bool.not_eq_true, Json.Decimal.less_iff, not_lt]
  rw [checkBounds, bound, bound, lower, upper, List.append_eq_nil_iff]
  cases low <;> cases high <;> simp [notLess]

@[simp] theorem toRat_ofLength (length : Nat) : (ofLength length).toRat = length := by
  simp [ofLength, Json.Decimal.toRat, Json.Decimal.signed]

theorem checkString_nil_iff {regExp : RegExp} {schema : Json} {text path : Utf16} {words : Words}
    (lower : schema.member (ofString "minLength") = words.minLength.map .number)
    (upper : schema.member (ofString "maxLength") = words.maxLength.map .number)
    (given : schema.member (ofString "pattern") = words.pattern.map .string) :
    checkString regExp schema text path = [] ↔
      (∀ least, words.minLength = some least → (Json.decimal least).toRat ≤ text.length) ∧
        (∀ most, words.maxLength = some most → text.length ≤ (Json.decimal most).toRat) ∧
        ∀ pattern, words.pattern = some pattern →
          ∃ test, regExp pattern = some test ∧ test text = true := by
  rw [checkString, List.append_eq_nil_iff, checkBounds_nil_iff lower upper, toRat_ofLength, given,
    and_assoc]
  refine and_congr_right fun _ => and_congr_right fun _ => ?_
  cases words.pattern with
  | none => simp
  | some pattern => cases found : regExp pattern <;> simp [Json.string?, found]

/-- Two proper values have one text only when they are the same. -/
theorem stringify_inj {left right : Json} (leftProper : left.isProper = true)
    (rightProper : right.isProper = true) : left.stringify = right.stringify ↔ left = right := by
  constructor
  · intro same
    have read := Json.parse_stringify leftProper
    rw [same, Json.parse_stringify rightProper] at read
    exact (Option.some.inj read).symm
  · exact congrArg Json.stringify

theorem checkEnum_nil_iff {schema value : Json} {path : Utf16} {words : Words}
    (enumGiven : schema.member (ofString "enum") = words.enum.map .array)
    (constGiven : schema.member (ofString "const") = words.const)
    (enum : ∀ allowed, words.enum = some allowed → ∀ listed ∈ allowed, listed.isProper = true)
    (const : ∀ listed, words.const = some listed → listed.isProper = true)
    (proper : value.isProper = true) :
    checkEnum schema value path = [] ↔
      (∀ allowed, words.enum = some allowed → value ∈ allowed) ∧
        ∀ listed, words.const = some listed → value = listed := by
  rw [checkEnum, List.append_eq_nil_iff, enumGiven, constGiven]
  refine and_congr ?_ ?_
  · cases given : words.enum with
    | none => simp
    | some allowed =>
        have any : (allowed.any fun item => decide (item.stringify = value.stringify)) = true ↔
            value ∈ allowed := by
          rw [List.any_eq_true]
          constructor
          · rintro ⟨item, mem, same⟩
            rwa [← (stringify_inj (enum allowed given item mem) proper).1 (of_decide_eq_true same)]
          · exact fun mem => ⟨value, mem, decide_eq_true rfl⟩
        simp [Json.array?, ← any]
  · cases given : words.const with
    | none => simp
    | some listed =>
        simp [← stringify_inj proper (const listed given), eq_comm]

/-! ## The parts of the walk -/

/-- What `walk` finds about a member, by the properties of the schema and what it says of others. -/
def walkMember (regExp : RegExp) (strict : Bool) (depth : Nat) (properties : Json)
    (additional : Option Json) (name : Utf16) (item : Json) (path : Utf16) : List Utf16 :=
  match property properties name, additional with
  | some known, _ => walk regExp strict depth known item path
  | none, some (.bool false) => [path ++ ofString ": is not a known field"]
  | none, some (.bool true) => []
  | none, some (.object keywords) => walk regExp strict depth (.object keywords) item path
  | none, some (.array _) | none, some .null => []
  | none, _ => if strict then [path ++ ofString ": is not a known field"] else []

/-- The part of `walk` for the kind of value it stands at. -/
def walkValue (regExp : RegExp) (strict : Bool) (depth : Nat) (schema value : Json)
    (path : Utf16) : List Utf16 :=
  match value with
  | .string text => checkString regExp schema text path
  | .number text =>
      checkBounds schema "minimum" "maximum" (Json.decimal text) path (ofString ": must be ") []
  | .array items =>
      checkBounds schema "minItems" "maxItems" (ofLength items.length) path
          (ofString ": must have ") (ofString " items") ++
        (match schema.member (ofString "items") with
          | none => []
          | some itemSchema => items.zipIdx.flatMap fun (item, index) =>
              walk regExp strict depth itemSchema item
                (path ++ ofString "[" ++ ofNat index ++ ofString "]"))
  | .object _ =>
      (((schema.member (ofString "required")).bind Json.array?).getD [] |>.filterMap fun name =>
          let name := Validate.display name
          if has value name then none
          else some (path ++ ofString "." ++ name ++ ofString ": is required")) ++
        (Approvals.entriesOf value).flatMap fun (name, item) =>
          walkMember regExp strict depth
            (((schema.member (ofString "properties")).filter (· matches .object _)).getD (.object []))
            (schema.member (ofString "additionalProperties")) name item
            (path ++ ofString "." ++ name)
  | _ => []

/-- The rest of `walk`, around what is found about the value itself. -/
def walkAround (regExp : RegExp) (strict : Bool) (depth : Nat) (schema value : Json) (path : Utf16)
    (found : List Utf16) : List Utf16 :=
  match (typesOf schema).filter fun types => !types.any (typeMatches · value) with
  | some types =>
      [path ++ ofString ": expected " ++ join (ofString " or ") (types.map Validate.display) ++
        ofString " but got " ++ typeOf value]
  | none =>
      checkEnum schema value path ++ found ++
        (match (schema.member (ofString "anyOf")).bind Json.array? with
          | none => []
          | some schemas =>
              if schemas.any fun schema => (walk regExp strict depth schema value path).isEmpty
              then [] else [path ++ ofString ": matches none of the allowed shapes"]) ++
        match (schema.member (ofString "oneOf")).bind Json.array? with
        | none => []
        | some schemas =>
            if (schemas.filter fun schema =>
              (walk regExp strict depth schema value path).isEmpty).length = 1
            then [] else [path ++ ofString ": must match exactly one of the allowed shapes"]

theorem walk_eq {regExp : RegExp} {strict : Bool} {depth : Nat} {keywords : List (Utf16 × Json)}
    (noRef : (Json.object keywords).member (ofString "$ref") = none) (value : Json)
    (path : Utf16) :
    walk regExp strict (depth + 1) (.object keywords) value path =
      walkAround regExp strict depth (.object keywords) value path
        (walkValue regExp strict depth (.object keywords) value path) := by
  cases value <;> simp only [walk, noRef, Option.any_none, Bool.false_eq_true, if_false] <;> rfl

theorem arrayUnlessEmpty_bind (items : List Json) :
    (arrayUnlessEmpty items).bind Json.array? = if items = [] then none else some items := by
  cases items <;> rfl

section Parts

variable {regExp : RegExp} {depth : Nat} {words : Words} {anyOf oneOf items additional : List Json}
  {properties : List (Utf16 × Json)} {schema value : Json} {path : Utf16} {found : List Utf16}

theorem walkAround_nil_iff (reads : Reads schema words anyOf oneOf items properties additional)
    (enum : ∀ allowed, words.enum = some allowed → ∀ listed ∈ allowed, listed.isProper = true)
    (const : ∀ listed, words.const = some listed → listed.isProper = true)
    (proper : value.isProper = true) :
    walkAround regExp true depth schema value path found = [] ↔
      words.Allow value ∧ found = [] ∧
        (anyOf = [] ∨
          (anyOf.any fun schema => (walk regExp true depth schema value path).isEmpty) = true) ∧
        (oneOf = [] ∨
          (oneOf.filter fun schema =>
            (walk regExp true depth schema value path).isEmpty).length = 1) := by
  rw [walkAround, reads.anyOf, reads.oneOf, arrayUnlessEmpty_bind, arrayUnlessEmpty_bind,
    Words.allow_iff, ← types_none_iff reads.types]
  cases (typesOf schema).filter fun types => !types.any (typeMatches · value) with
  | some types => simp
  | none =>
      simp only [List.append_eq_nil_iff, checkEnum_nil_iff reads.enum reads.const enum const proper]
      cases anyOf <;> cases oneOf <;> simp [and_assoc, -List.any_eq_true, -List.any_eq_false, -List.any_cons]

theorem mem_entriesOf {name : Utf16} {item : Json} (isObject : ∃ members, value = .object members) :
    (name, item) ∈ Approvals.entriesOf value ↔ value.member name = some item := by
  obtain ⟨members, rfl⟩ := isObject
  rw [Approvals.entriesOf, List.mem_filterMap]
  constructor
  · rintro ⟨key, _, found⟩
    obtain ⟨there, given, same⟩ := Option.map_eq_some_iff.1 found
    obtain ⟨rfl, rfl⟩ := Prod.mk.inj same
    exact given
  · intro found
    have own : HasOwn (.object members) name := by rw [HasOwn, found, Option.isSome_some]
    refine ⟨name, ?_, by rw [found, Option.map_some]⟩
    have mem : name ∈ (members.map Prod.fst).reverse.dedup.reverse := by
      rw [List.mem_reverse, List.mem_dedup, List.mem_reverse]
      exact Validate.hasOwn_object.1 own
    rw [List.mem_append, List.mem_insertionSort, List.mem_filter, List.mem_filter]
    cases Approvals.isIndex name with
    | true => exact .inl ⟨mem, rfl⟩
    | false => exact .inr ⟨mem, rfl⟩

theorem has_iff {key : Utf16} (isObject : (Validate.Subject.json value).isObject = true)
    (own : OwnIfInherited value key) : has value key = true ↔ HasOwn value key := by
  rw [has, Bool.or_eq_true]
  exact or_iff_left_of_imp (own isObject)

theorem walkValue_nil_iff (reads : Reads schema words anyOf oneOf items properties additional)
    (own : ∀ key ∈ words.required, OwnIfInherited value key) :
    walkValue regExp true depth schema value path = [] ↔
      words.Bound regExp value ∧
        (∀ itemSchema, items.head? = some itemSchema →
          ∀ entry ∈ (value.array?.getD []).zipIdx, walk regExp true depth itemSchema entry.1
            (path ++ ofString "[" ++ ofNat entry.2 ++ ofString "]") = []) ∧
        ∀ name item, value.member name = some item →
          walkMember regExp true depth (.object properties) additional.head? name item
            (path ++ ofString "." ++ name) = [] := by
  rw [Words.bound_iff]
  cases value with
  | null | bool => simp [walkValue, Json.array?, Json.member]
  | string text =>
      rw [walkValue, checkString_nil_iff reads.minLength reads.maxLength reads.pattern]
      simp [Json.array?, Json.member]
  | number text =>
      rw [walkValue, checkBounds_nil_iff reads.minimum reads.maximum]
      simp [Json.array?, Json.member]
  | array elements =>
      rw [walkValue, List.append_eq_nil_iff, checkBounds_nil_iff reads.minItems reads.maxItems,
        reads.items, toRat_ofLength]
      cases items with
      | nil => simp [Json.array?, Json.member]
      | cons item items => simp [Json.array?, Json.member, and_assoc, List.flatMap_eq_nil_iff]
  | object members =>
      have required : ((words.required.map Json.string).filterMap fun name =>
          if has (.object members) (Validate.display name) then none
          else some (path ++ ofString "." ++ Validate.display name ++ ofString ": is required")) =
            [] ↔ ∀ key ∈ words.required, HasOwn (.object members) key := by
        rw [List.filterMap_eq_nil_iff, List.forall_mem_map]
        refine forall₂_congr fun key mem => ?_
        rw [Validate.display, ← has_iff rfl (own key mem)]
        simp
      rw [walkValue, List.append_eq_nil_iff, reads.required, reads.properties, reads.additional]
      have members' : (Approvals.entriesOf (.object members)).flatMap (fun (name, item) =>
            walkMember regExp true depth (((some (Json.object properties)).filter
              (· matches .object _)).getD (.object [])) additional.head? name item
              (path ++ ofString "." ++ name)) = [] ↔
          ∀ name item, (Json.object members).member name = some item →
            walkMember regExp true depth (.object properties) additional.head? name item
              (path ++ ofString "." ++ name) = [] := by
        rw [List.flatMap_eq_nil_iff]
        constructor
        · intro all name item found
          exact all (name, item) ((mem_entriesOf ⟨members, rfl⟩).2 found)
        · intro all entry mem
          exact all entry.1 entry.2 ((mem_entriesOf ⟨members, rfl⟩).1 mem)
      rw [members']
      simp only [Option.bind_some, Json.array?, Option.getD_some]
      rw [required]
      simp

end Parts

/-! ## Schemas -/

section Members

variable {regExp : RegExp} {depth : Nat} {properties : List (Utf16 × Shape)}
  {additional : List Shape} {name : Utf16} {item : Json} {path : Utf16}

theorem map_fst_propertiesJson (properties : List (Utf16 × Shape)) :
    (propertiesJson properties).map Prod.fst = properties.map Prod.fst := by
  induction properties with
  | nil => rfl
  | cons property properties ih => rw [propertiesJson, List.map_cons, List.map_cons, ih]

theorem mem_propertiesJson {shape : Shape} (mem : (name, shape) ∈ properties) :
    (name, shape.toJson) ∈ propertiesJson properties := by
  induction properties with
  | nil => exact absurd mem List.not_mem_nil
  | cons property properties ih =>
      rw [propertiesJson]
      obtain rfl | mem := List.mem_cons.1 mem
      · exact List.mem_cons_self
      · exact List.mem_cons_of_mem _ (ih mem)

/-- A listed property has its schema. -/
theorem property_listed {shape : Shape} (distinct : (properties.map Prod.fst).Nodup)
    (mem : (name, shape) ∈ properties) :
    property (.object (propertiesJson properties)) name = some shape.toJson := by
  have distinct' : ((propertiesJson properties).map Prod.fst).Nodup := by
    rwa [map_fst_propertiesJson]
  rw [property, member_of_mem distinct' (mem_propertiesJson mem)]

/-- A property that is not listed has no schema, or the one every object inherits. -/
theorem property_unlisted (missing : name ∉ properties.map Prod.fst) :
    property (.object (propertiesJson properties)) name =
      if name = Inherited.proto then some (.object [])
      else if Inherited.isInherited name then some .null
      else none := by
  have none : (Json.object (propertiesJson properties)).member name = none := by
    rw [← Option.not_isSome_iff_eq_none]
    intro there
    rw [← map_fst_propertiesJson] at missing
    exact missing (Validate.hasOwn_object.1 there)
  rw [property, none]

/-- A member is found right by the schema of its name, or by the schema for the others. -/
theorem walkMember_nil_iff (distinct : (properties.map Prod.fst).Nodup)
    (listed : Inherited.isInherited name = true → name ∈ properties.map Prod.fst ∨
      additional.head? = some .anything ∧ name ≠ Inherited.proto)
    (deep : additional ≠ [] → 0 < depth) :
    walkMember regExp true depth (.object (propertiesJson properties)) (allJson additional).head?
        name item path = [] ↔
      (∀ shape, (name, shape) ∈ properties → walk regExp true depth shape.toJson item path = []) ∧
        (name ∉ properties.map Prod.fst → ∃ shape, additional.head? = some shape ∧
          walk regExp true depth shape.toJson item path = []) := by
  by_cases mem : name ∈ properties.map Prod.fst
  · obtain ⟨⟨key, shape⟩, inside, same⟩ := List.mem_map.1 mem
    obtain rfl : key = name := same
    simp only [walkMember, property_listed distinct inside]
    constructor
    · intro none
      refine ⟨fun other mem' => ?_, fun missing => absurd mem missing⟩
      have same := List.inj_on_of_nodup_map distinct inside mem' rfl
      rwa [← (Prod.mk.inj same).2]
    · exact fun each => each.1 shape inside
  · have alone : ∀ shape, (name, shape) ∉ properties := fun shape inside =>
      mem (List.mem_map_of_mem (f := Prod.fst) inside)
    rw [and_iff_right fun shape inside => absurd inside (alone shape), imp_iff_right mem]
    cases inherited : Inherited.isInherited name with
    | true =>
        obtain ⟨anything, notProto⟩ := (listed inherited).resolve_left mem
        have positive : 0 < depth := deep (by rintro rfl; contradiction)
        obtain ⟨depth, rfl⟩ := Nat.exists_eq_succ_of_ne_zero positive.ne'
        simp [walkMember, property_unlisted mem, notProto, inherited, anything, walk,
          Shape.toJson]
    | false =>
        have notProto : name ≠ Inherited.proto := by
          rintro rfl
          revert inherited
          decide
        have missing : property (.object (propertiesJson properties)) name = none := by
          simp [property_unlisted mem, notProto, inherited]
        cases additional with
        | nil => simp [walkMember, missing, allJson]
        | cons shape shapes =>
            obtain ⟨depth, rfl⟩ :=
              Nat.exists_eq_succ_of_ne_zero (deep (List.cons_ne_nil _ _)).ne'
            cases shape with
            | anything | nothing => simp [walkMember, missing, allJson, Shape.toJson, walk]
            | node => simp [walkMember, missing, allJson, Shape.toJson]

end Members

theorem isProper_item {value item : Json} (proper : value.isProper = true)
    (mem : item ∈ value.array?.getD []) : item.isProper = true := by
  cases value with
  | array items => exact (Json.areProper_iff items).1 proper item mem
  | null | bool | number | string | object => exact absurd mem List.not_mem_nil

theorem isProper_member {value item : Json} {name : Utf16} (proper : value.isProper = true)
    (found : value.member name = some item) : item.isProper = true := by
  cases value with
  | object members =>
      rw [Json.member] at found
      obtain ⟨entry, given, rfl⟩ := Option.map_eq_some_iff.1 found
      have mem := List.mem_reverse.1 (List.mem_of_find?_eq_some given)
      exact (Json.areProperMembers_iff members).1 proper entry mem
  | null | bool | number | string | array => contradiction

mutual

/-- The strict validator has nothing to complain about exactly where the schema is met. -/
theorem walk_nil_iff (regExp : RegExp) (shape : Shape) (sound : Sound shape) (depth : Nat)
    (fits : shape.height < depth) (value : Json) (proper : value.isProper = true)
    (clear : Clear shape value) (path : Utf16) :
    walk regExp true depth shape.toJson value path = [] ↔ Meets regExp shape value := by
  obtain ⟨depth, rfl⟩ := Nat.exists_eq_succ_of_ne_zero (Nat.ne_zero_of_lt fits)
  cases shape with
  | anything => simp [Shape.toJson, walk, Meets]
  | nothing => simp [Shape.toJson, walk, Meets]
  | node words anyOf oneOf items properties additional =>
      obtain ⟨enum, const, distinct, anySound, oneSound, itemsSound, propertiesSound,
        additionalSound⟩ := sound
      obtain ⟨own, listed, anyClear, oneClear, itemsClear, propertiesClear, othersClear⟩ := clear
      rw [Shape.height] at fits
      have any := walkAny_iff regExp anyOf anySound depth (by omega) value proper anyClear path
      have one := walkOne_iff regExp oneOf oneSound depth (by omega) value proper oneClear path
      have eachItem :=
        walkItems_iff regExp items itemsSound depth (by omega) value proper itemsClear path
      have each := walkProperties_iff regExp properties propertiesSound depth (by omega) value
        proper propertiesClear path
      have deep : additional ≠ [] → 0 < depth := by
        intro some
        obtain ⟨shape, shapes, rfl⟩ := List.exists_cons_of_ne_nil some
        rw [allHeight] at fits
        omega
      have member (name : Utf16) (item : Json) (found : value.member name = some item) :
          walkMember regExp true depth (.object (propertiesJson properties))
              (allJson additional).head? name item (path ++ ofString "." ++ name) = [] ↔
            (∀ shape, (name, shape) ∈ properties →
              walk regExp true depth shape.toJson item (path ++ ofString "." ++ name) = []) ∧
            (name ∉ properties.map Prod.fst → OtherMeets regExp additional item) := by
        have own : HasOwn value name := by rw [HasOwn, found, Option.isSome_some]
        rw [walkMember_nil_iff distinct (listed name own) deep]
        refine and_congr_right fun _ => forall_congr' fun missing => ?_
        exact walkOther_iff regExp additional additionalSound depth (by omega) item
          (isProper_member proper found) (othersClear name item found missing) _
      have members : (∀ name item, value.member name = some item →
            walkMember regExp true depth (.object (propertiesJson properties))
              (allJson additional).head? name item (path ++ ofString "." ++ name) = []) ↔
          PropertiesMeet regExp properties value ∧
            ∀ key item, value.member key = some item → key ∉ properties.map Prod.fst →
              OtherMeets regExp additional item := by
        rw [← each]
        constructor
        · intro all
          exact ⟨fun name item found => ((member name item found).1 (all name item found)).1,
            fun name item found => ((member name item found).1 (all name item found)).2⟩
        · intro both name item found
          exact (member name item found).2 ⟨both.1 name item found, both.2 name item found⟩
      have anyEmpty : allJson anyOf = [] ↔ anyOf = [] := by cases anyOf <;> simp [allJson]
      have oneEmpty : allJson oneOf = [] ↔ oneOf = [] := by cases oneOf <;> simp [allJson]
      have reads := @reads_fieldsOf words (allJson anyOf) (allJson oneOf) (allJson items)
        (allJson additional) (propertiesJson properties)
      rw [Shape.toJson, walk_eq reads.ref, walkAround_nil_iff reads enum const proper,
        walkValue_nil_iff reads own, Meets, members, eachItem, any, one, anyEmpty, oneEmpty]
      constructor
      · rintro ⟨allow, ⟨bound, items, properties, others⟩, any, one⟩
        exact ⟨allow, bound, any, one, items, properties, others⟩
      · rintro ⟨allow, bound, any, one, items, properties, others⟩
        exact ⟨allow, ⟨bound, items, properties, others⟩, any, one⟩

theorem walkAny_iff (regExp : RegExp) (shapes : List Shape) (sound : AllSound shapes)
    (depth : Nat) (fits : allHeight shapes ≤ depth) (value : Json)
    (proper : value.isProper = true) (clear : AllClear shapes value) (path : Utf16) :
    ((allJson shapes).any fun schema => (walk regExp true depth schema value path).isEmpty) =
      true ↔ MeetsAny regExp shapes value := by
  cases shapes with
  | nil => simp [allJson, MeetsAny]
  | cons shape shapes =>
      rw [allHeight] at fits
      rw [allJson, List.any_cons, Bool.or_eq_true, List.isEmpty_iff, MeetsAny,
        walk_nil_iff regExp shape sound.1 depth (by omega) value proper clear.1 path,
        walkAny_iff regExp shapes sound.2 depth (by omega) value proper clear.2 path]

theorem walkOne_iff (regExp : RegExp) (shapes : List Shape) (sound : AllSound shapes)
    (depth : Nat) (fits : allHeight shapes ≤ depth) (value : Json)
    (proper : value.isProper = true) (clear : AllClear shapes value) (path : Utf16) :
    ((allJson shapes).filter fun schema =>
      (walk regExp true depth schema value path).isEmpty).length = 1 ↔
        MeetsOne regExp shapes value := by
  cases shapes with
  | nil => simp [allJson, MeetsOne]
  | cons shape shapes =>
      rw [allHeight] at fits
      have first := walk_nil_iff regExp shape sound.1 depth (by omega) value proper clear.1 path
      have any := walkAny_iff regExp shapes sound.2 depth (by omega) value proper clear.2 path
      have one := walkOne_iff regExp shapes sound.2 depth (by omega) value proper clear.2 path
      rw [allJson, MeetsOne, ← first, ← any, ← one, List.filter_cons, ← List.isEmpty_iff]
      cases (walk regExp true depth shape.toJson value path).isEmpty with
      | true =>
          rw [if_pos rfl, List.length_cons, Nat.add_eq_right, List.length_eq_zero_iff,
            List.filter_eq_nil_iff]
          simp
      | false => simp

theorem walkItems_iff (regExp : RegExp) (shapes : List Shape) (sound : AllSound shapes)
    (depth : Nat) (fits : allHeight shapes ≤ depth) (value : Json)
    (proper : value.isProper = true) (clear : ItemsClear shapes value) (path : Utf16) :
    (∀ itemSchema, (allJson shapes).head? = some itemSchema →
      ∀ entry ∈ (value.array?.getD []).zipIdx, walk regExp true depth itemSchema entry.1
        (path ++ ofString "[" ++ ofNat entry.2 ++ ofString "]") = []) ↔
      ItemsMeet regExp shapes value := by
  cases shapes with
  | nil => simp [allJson, ItemsMeet]
  | cons shape shapes =>
      rw [allHeight] at fits
      have each (item : Json) (mem : item ∈ value.array?.getD []) (path : Utf16) :
          walk regExp true depth shape.toJson item path = [] ↔ Meets regExp shape item :=
        walk_nil_iff regExp shape sound.1 depth (by omega) item (isProper_item proper mem)
          (clear item mem) path
      rw [allJson, ItemsMeet]
      simp only [List.head?_cons, Option.some.injEq, forall_eq']
      constructor
      · intro none item mem
        obtain ⟨index, lt, rfl⟩ := List.getElem_of_mem mem
        have here := none ((value.array?.getD [])[index], index)
          (List.mem_zipIdx_iff_getElem?.2 (List.getElem?_eq_getElem lt))
        exact (each _ mem _).1 here
      · intro all entry mem
        have inside := List.fst_mem_of_mem_zipIdx mem
        exact (each entry.1 inside _).2 (all entry.1 inside)

theorem walkProperties_iff (regExp : RegExp) (properties : List (Utf16 × Shape))
    (sound : PropertiesSound properties) (depth : Nat) (fits : propertiesHeight properties ≤ depth)
    (value : Json) (proper : value.isProper = true) (clear : PropertiesClear properties value)
    (path : Utf16) :
    (∀ name item, value.member name = some item → ∀ shape, (name, shape) ∈ properties →
      walk regExp true depth shape.toJson item (path ++ ofString "." ++ name) = []) ↔
        PropertiesMeet regExp properties value := by
  cases properties with
  | nil => simp [PropertiesMeet]
  | cons property properties =>
      cases property with
      | mk key shape =>
          rw [propertiesHeight] at fits
          have rest := walkProperties_iff regExp properties sound.2 depth (by omega) value proper
            clear.2 path
          have first (item : Json) (found : value.member key = some item) (path : Utf16) :
              walk regExp true depth shape.toJson item path = [] ↔ Meets regExp shape item :=
            walk_nil_iff regExp shape sound.1 depth (by omega) item (isProper_member proper found)
              (clear.1 item found) path
          rw [PropertiesMeet, ← rest]
          constructor
          · intro all
            exact ⟨fun item found => (first item found _).1 (all key item found shape
                List.mem_cons_self),
              fun name item found other mem => all name item found other
                (List.mem_cons_of_mem _ mem)⟩
          · intro both name item found other mem
            obtain same | mem := List.mem_cons.1 mem
            · obtain ⟨rfl, rfl⟩ := Prod.mk.inj same
              exact (first item found _).2 (both.1 item found)
            · exact both.2 name item found other mem

theorem walkOther_iff (regExp : RegExp) (shapes : List Shape) (sound : AllSound shapes)
    (depth : Nat) (fits : allHeight shapes ≤ depth) (item : Json)
    (proper : item.isProper = true) (clear : OtherClear shapes item) (path : Utf16) :
    (∃ shape, shapes.head? = some shape ∧ walk regExp true depth shape.toJson item path = []) ↔
      OtherMeets regExp shapes item := by
  cases shapes with
  | nil => simp [OtherMeets]
  | cons shape shapes =>
      rw [allHeight] at fits
      rw [OtherMeets,
        ← walk_nil_iff regExp shape sound.1 depth (by omega) item proper clear path]
      simp

end

end JsonSchema

end TitanRunner
