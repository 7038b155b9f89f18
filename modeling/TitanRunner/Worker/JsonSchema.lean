import TitanRunner.Lib.KeyedList
import TitanRunner.Validate
import TitanRunner.Worker.Approvals

/-!
# The schema validator of the Worker

`lib/jsonschema.js`: what the inputs of actions are checked against, and the defaults that fill
them.  The schema is a JSON value itself, and names are looked up as `in` does.
-/

namespace TitanRunner

namespace JsonSchema

open Utf16

/-- `new RegExp(pattern)`, with its test; none where the pattern is not one. -/
abbrev RegExp := Utf16 → Option (Utf16 → Bool)

/-- `typeOf` -/
def typeOf (value : Json) : Utf16 :=
  match value with
  | .null => ofString "null"
  | .array _ => ofString "array"
  | .number _ => if value.integer?.isSome then ofString "integer" else ofString "number"
  | .string _ => ofString "string"
  | .bool _ => ofString "boolean"
  | .object _ => ofString "object"

/-- `typeMatches` -/
def typeMatches (want : Json) (value : Json) : Bool :=
  want.string? = some (typeOf value) ||
    want.string? = some (ofString "number") && typeOf value = ofString "integer"

/-- A bound of the schema, where it is a number. -/
def bound (schema : Json) (name : String) : Option (Json.Decimal × Utf16) :=
  match schema.member (ofString name) with
  | some (.number text) => some (Json.decimal text, text)
  | _ => none

/-- What is wrong where a number lies below or above a bound of the schema. -/
def checkBounds (schema : Json) (least most : String) (number : Json.Decimal) (path before after :
    Utf16) : List Utf16 :=
  (match bound schema least with
    | some (limit, text) =>
        if number.less limit then [path ++ before ++ ofString "at least " ++ text ++ after] else []
    | none => []) ++
  match bound schema most with
  | some (limit, text) =>
      if limit.less number then [path ++ before ++ ofString "at most " ++ text ++ after] else []
  | none => []

def ofLength (length : Nat) : Json.Decimal := ⟨false, length, 0⟩

def checkString (regExp : RegExp) (schema : Json) (text path : Utf16) : List Utf16 :=
  checkBounds schema "minLength" "maxLength" (ofLength text.length) path (ofString ": must have ")
      (ofString " characters") ++
    match (schema.member (ofString "pattern")).bind Json.string? with
    | none => []
    | some pattern =>
        match regExp pattern with
        | none => [path ++ ofString ": the pattern in the schema is not valid"]
        | some test =>
            if test text then [] else [path ++ ofString ": does not match the pattern " ++ pattern]

/-- The types of a schema. -/
def typesOf (schema : Json) : Option (List Json) :=
  (schema.member (ofString "type")).map fun type =>
    match type with
    | .array types => types
    | type => [type]

def checkEnum (schema value : Json) (path : Utf16) : List Utf16 :=
  (match (schema.member (ofString "enum")).bind Json.array? with
    | some allowed =>
        if allowed.any fun item => item.stringify = value.stringify then []
        else [path ++ ofString ": must be one of " ++
          join (ofString ", ") (allowed.map Json.stringify)]
    | none => []) ++
  match schema.member (ofString "const") with
  | some const =>
      if const.stringify = value.stringify then []
      else [path ++ ofString ": must be " ++ const.stringify]
  | none => []

/-- `name in value` -/
def has (value : Json) (name : Utf16) : Bool :=
  (value.member name).isSome || Inherited.isInherited name

/-- A schema among the properties of another one: what every object inherits is a function, or for
`__proto__` an object without keywords. -/
def property (properties : Json) (name : Utf16) : Option Json :=
  match properties.member name with
  | some schema => some schema
  | none =>
      if name = Inherited.proto then some (.object [])
      else if Inherited.isInherited name then some .null
      else none

/-- `MAX_DEPTH` -/
def maxDepth : Nat := 10

/-- `walk`, with the levels that are left -/
def walk (regExp : RegExp) (strict : Bool) : Nat → Json → Json → Utf16 → List Utf16
  | 0, _, _, path => [path ++ ofString ": the schema is nested too deep"]
  | _ + 1, .bool false, _, path => [path ++ ofString ": no value is allowed here"]
  | depth + 1, .object keywords, value, path =>
      let schema := Json.object keywords
      let list := fun name : String => ((schema.member (ofString name)).bind Json.array?).getD []
      if (schema.member (ofString "$ref")).any Json.truthy then
        [path ++ ofString ": $ref is not supported"]
      else
        match (typesOf schema).filter fun types => !types.any (typeMatches · value) with
        | some types => [path ++ ofString ": expected " ++
            join (ofString " or ") (types.map Validate.display) ++ ofString " but got " ++
              typeOf value]
        | none =>
            checkEnum schema value path ++
              (match value with
                | .string text => checkString regExp schema text path
                | .number text => checkBounds schema "minimum" "maximum" (Json.decimal text) path
                    (ofString ": must be ") []
                | .array items =>
                    checkBounds schema "minItems" "maxItems" (ofLength items.length) path
                        (ofString ": must have ") (ofString " items") ++
                      (match schema.member (ofString "items") with
                        | none => []
                        | some itemSchema => items.zipIdx.flatMap fun (item, index) =>
                            walk regExp strict depth itemSchema item
                              (path ++ ofString "[" ++ ofNat index ++ ofString "]"))
                | .object _ =>
                    let properties := ((schema.member (ofString "properties")).filter
                      (· matches .object _)).getD (.object [])
                    let additional := schema.member (ofString "additionalProperties")
                    ((list "required").filterMap fun name =>
                        let name := Validate.display name
                        if has value name then none
                        else some (path ++ ofString "." ++ name ++ ofString ": is required")) ++
                      (Approvals.entriesOf value).flatMap fun (name, item) =>
                        let path := path ++ ofString "." ++ name
                        match property properties name, additional with
                        | some known, _ => walk regExp strict depth known item path
                        | none, some (.bool false) => [path ++ ofString ": is not a known field"]
                        | none, some (.bool true) => []
                        | none, some (.object keywords) =>
                            walk regExp strict depth (.object keywords) item path
                        | none, some (.array _) | none, some .null => []
                        | none, _ =>
                            if strict then [path ++ ofString ": is not a known field"] else []
                | _ => []) ++
              (match (schema.member (ofString "anyOf")).bind Json.array? with
                | none => []
                | some schemas =>
                    if schemas.any fun schema => (walk regExp strict depth schema value path).isEmpty
                    then [] else [path ++ ofString ": matches none of the allowed shapes"]) ++
              match (schema.member (ofString "oneOf")).bind Json.array? with
              | none => []
              | some schemas =>
                  if (schemas.filter fun schema =>
                    (walk regExp strict depth schema value path).isEmpty).length = 1
                  then [] else [path ++ ofString ": must match exactly one of the allowed shapes"]
  | _ + 1, _, _, _ => []

/-- `validate`: the problems of a value. -/
def validate (regExp : RegExp) (schema value : Json) : List Utf16 :=
  walk regExp true (maxDepth + 1) schema value (ofString "$")

mutual

/-- `withDefaults` -/
def withDefaults : Json → Json → Json
  | .object keywords, .object members => .object (fillAll keywords members)
  | _, value => value

/-- The defaults of the properties of a schema. -/
def fillAll : List (Utf16 × Json) → List (Utf16 × Json) → List (Utf16 × Json)
  | [], members => members
  | (name, schema) :: keywords, members =>
      -- the last writing of a keyword counts
      if name = ofString "properties" && !keywords.any (·.1 = name) then
        fillProperties schema members
      else fillAll keywords members

def fillProperties : Json → List (Utf16 × Json) → List (Utf16 × Json)
  | .object properties, members => fillEach properties members
  | _, members => members

def fillEach : List (Utf16 × Json) → List (Utf16 × Json) → List (Utf16 × Json)
  | [], members => members
  | (name, spec) :: properties, members =>
      fillEach properties (
        if !has (.object members) name then
          match spec.member (ofString "default") with
          | some default => KeyedList.insert Prod.fst members (name, default)
          | none => members
        else if (spec.member (ofString "type")).bind Json.string? = some (ofString "object") then
          match (Json.object members).member name with
          | some value => KeyedList.insert Prod.fst members (name, withDefaults spec value)
          | none => members
        else members)

end

end JsonSchema

end TitanRunner
