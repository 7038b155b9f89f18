import TitanRunner.Lib.Inherited
import TitanRunner.Lib.Regex

/-!
# The schema validator

`lib/validate.js`: the part of JSON Schema the state files and the arguments of tools are
described in.  Errors are collected, each with the path of the value it is about.
-/

namespace TitanRunner

namespace Validate

open Regex Utf16

inductive JsonType where
  | string | number | integer | boolean | object | array | null
  deriving DecidableEq, Repr

/-- The word for a type. -/
def JsonType.name : JsonType → Utf16
  | .string => ofString "string"
  | .number => ofString "number"
  | .integer => ofString "integer"
  | .boolean => ofString "boolean"
  | .object => ofString "object"
  | .array => ofString "array"
  | .null => ofString "null"

/-- `TYPE_CHECKS`. -/
def JsonType.admits : JsonType → Json → Bool
  | .string, .string _ => true
  | .number, .number _ => true
  | .integer, value => value.integer?.isSome
  | .boolean, .bool _ => true
  | .object, .object _ => true
  | .array, .array _ => true
  | .null, .null => true
  | _, _ => false

/-- The keywords of a schema that hold no schema. -/
structure Keywords where
  nullable : Bool := false
  const : Option Json := none
  types : List JsonType := []
  /-- The types stand in an array. -/
  listed : Bool := false
  enum : Option (List Json) := none
  minLength : Option Nat := none
  maxLength : Option Nat := none
  /-- The expression, with its source. -/
  pattern : Option (Utf16 × Regex) := none
  /-- `format: 'date-time'`. -/
  dateTime : Bool := false
  /-- The text of the bound, as of every number. -/
  minimum : Option Utf16 := none
  maximum : Option Utf16 := none
  minItems : Option Nat := none
  maxItems : Option Nat := none
  required : List Utf16 := []
  /-- `additionalProperties: false`. -/
  closed : Bool := false
  /-- `additionalProperties: true`. -/
  loose : Bool := false

/-- A schema; `items` and `additional` hold one schema at most. -/
inductive Schema where
  | node (keywords : Keywords) (anyOf items : List Schema) (properties : List (Utf16 × Schema))
      (additional : List Schema)

/-- A schema of keywords alone. -/
def plain (keywords : Keywords) : Schema := .node keywords [] [] [] []

def arrayOf (keywords : Keywords) (items : Schema) : Schema :=
  .node { keywords with types := [.array] } [] [items] [] []

def objectOf (keywords : Keywords) (properties : List (Utf16 × Schema)) : Schema :=
  .node { keywords with types := [.object] } [] [] properties []

/-- `ISO_DATE`. -/
def isoDate : Regex :=
  let twoDigits := Regex.exactly isDigit 2
  seqs [.start, Regex.exactly isDigit 4, text "-", twoDigits, text "-", twoDigits, text "T", twoDigits,
    text ":", twoDigits, text ":", twoDigits,
    maybe (seqs [text ".", .repeat' isDigit 1 (some 3) false]),
    alts [text "Z", seqs [.oneOf (among "+-"), twoDigits, text ":", twoDigits]], .stop]

/-- `===`, for what a schema lists. -/
def same : Json → Json → Bool
  | .null, .null => true
  | .bool left, .bool right => left == right
  | .number left, .number right => (Json.decimal left).same (Json.decimal right)
  | .string left, .string right => left == right
  | _, _ => false

/-- `describe`. -/
def describe : Json → Utf16
  | .null => ofString "null"
  | .array _ => ofString "array"
  | .bool _ => ofString "boolean"
  | .number _ => ofString "number"
  | .string _ => ofString "string"
  | .object _ => ofString "object"

mutual

/-- `String(value)`. -/
def display : Json → Utf16
  | .null => ofString "null"
  | .bool true => ofString "true"
  | .bool false => ofString "false"
  | .number text | .string text => text
  | .array items => join (ofString ",") (displayItems items)
  | .object _ => ofString "[object Object]"

/-- The pieces of a list that is joined. -/
def displayItems : List Json → List Utf16
  | [] => []
  | .null :: items => [] :: displayItems items
  | item :: items => display item :: displayItems items

end

/-- What is looked at: a JSON value, or what every object inherits under a name. -/
inductive Subject where
  | json (value : Json)
  | inherited (name : Utf16)

namespace Subject

instance : Coe Json Subject := ⟨json⟩

def isNull : Subject → Bool
  | json .null => true
  | _ => false

/-- Of what an object inherits only its prototype is an object; the rest are functions. -/
def isObject : Subject → Bool
  | json (.object _) => true
  | json _ => false
  | inherited name => name == Inherited.proto

/-- `value[key]`, where `key in value`.  The prototype has its names as own ones, and no prototype. -/
def read : Subject → Utf16 → Option Subject
  | json value, key =>
      match value.member key with
      | some item => some (json item)
      | none =>
          if (json value).isObject && Inherited.isInherited key then some (inherited key) else none
  | inherited name, key =>
      if (inherited name).isObject && Inherited.isInherited key then
        if key = Inherited.proto then some (json .null) else some (inherited key)
      else none

/-- `Object.keys`: the names in the prototype are not enumerated. -/
def keys : Subject → List Utf16
  | json (.object members) => (members.map Prod.fst).eraseDups
  | _ => []

/-- `===` with what a schema lists. -/
def same (subject : Subject) (listed : Json) : Bool :=
  match subject with
  | json value => Validate.same value listed
  | inherited _ => false

def admits (type : JsonType) : Subject → Bool
  | json value => type.admits value
  | inherited name => decide (type = .object) && (inherited name).isObject

/-- `describe` -/
def describe : Subject → Utf16
  | json value => Validate.describe value
  | inherited name => if (inherited name).isObject then ofString "object" else ofString "function"

/-- `String(value)` -/
def display : Subject → Utf16
  | json value => Validate.display value
  | inherited name =>
      if (inherited name).isObject then ofString "[object Object]"
      else
        let name := if name = ofString "constructor" then ofString "Object" else name
        ofString "function " ++ name ++ ofString "() \x7b [native code] \x7d"

def array? : Subject → Option (List Json)
  | json value => value.array?
  | inherited _ => none

end Subject

/-- An error about the value at a path. -/
def complain (path : Utf16) (problem : Utf16) : Utf16 := path ++ ofString ": " ++ problem

/-- The first keyword that rules a value out altogether. -/
def Keywords.refuse (keywords : Keywords) (subject : Subject) (path : Utf16) : Option Utf16 :=
  match keywords.const.filter fun const => !subject.same const with
  | some const =>
      some (complain path (ofString "expected the constant " ++ const.stringify))
  | none =>
      if !keywords.types.isEmpty && !keywords.types.any subject.admits then
        some (complain path (ofString "expected " ++
          join (ofString " | ") (keywords.types.map JsonType.name) ++ ofString ", got " ++
            subject.describe))
      else
        (keywords.enum.filter fun allowed => !allowed.any subject.same).map fun allowed =>
          complain path (ofString "\"" ++ subject.display.take 40 ++ ofString "\" is not one of " ++
            join (ofString ", ") (displayItems allowed))

/-- An error, if a bound is given and not kept. -/
def bounded {Bound : Type} (path : Utf16) (bound : Option Bound) (broken : Bound → Bool)
    (problem : Bound → Utf16) : List Utf16 :=
  ((bound.filter broken).map fun limit => complain path (problem limit)).toList

/-- What the keywords find wrong with a value of the right type. -/
def Keywords.find (keywords : Keywords) (subject : Subject) (path : Utf16) : List Utf16 :=
  match subject with
  | .json (.string content) =>
      bounded path keywords.minLength (fun least => decide (content.length < least))
          (fun least => ofString "shorter than " ++ ofNat least) ++
        bounded path keywords.maxLength (fun most => decide (most < content.length))
          (fun most => ofString "longer than " ++ ofNat most) ++
        bounded path keywords.pattern (fun (_, regex) => !regex.test content)
          (fun (source, _) => ofString "does not match " ++ source) ++
        (if keywords.dateTime && !isoDate.test content then
          [complain path (ofString "not an ISO 8601 date-time")] else [])
  | .json (.number number) =>
      bounded path keywords.minimum
          (fun least => (Json.decimal number).less (Json.decimal least))
          (fun least => ofString "below minimum " ++ least) ++
        bounded path keywords.maximum
          (fun most => (Json.decimal most).less (Json.decimal number))
          (fun most => ofString "above maximum " ++ most)
  | .json (.array items) =>
      bounded path keywords.minItems (fun least => decide (items.length < least))
          (fun least => ofString "fewer than " ++ ofNat least ++ ofString " items") ++
        bounded path keywords.maxItems (fun most => decide (most < items.length))
          (fun most => ofString "more than " ++ ofNat most ++ ofString " items")
  | .json .null | .json (.bool _) => []
  | .json (.object _) | .inherited _ =>
      if subject.isObject then
        (keywords.required.filter fun key => (subject.read key).isNone).map fun key =>
          complain (path ++ ofString "." ++ key) (ofString "required")
      else []

/-- The members of an object a schema does not know: `in` finds the inherited names as well. -/
def unlisted (properties : List (Utf16 × Schema)) (subject : Subject) : List Utf16 :=
  subject.keys.filter fun key =>
    !((properties.map Prod.fst).contains key || Inherited.isInherited key)

mutual

/-- `validate`. -/
def validate : Schema → Subject → Utf16 → List Utf16
  | .node keywords anyOf items properties additional, subject, path =>
      if keywords.nullable && subject.isNull then []
      else if !anyOf.isEmpty then
        if validateAny anyOf subject path then []
        else [complain path (ofString "matches none of the allowed shapes")]
      else
        match keywords.refuse subject path with
        | some error => [error]
        | none =>
            keywords.find subject path ++ validateItems items subject path ++
              validateProperties properties subject path ++
              (if keywords.closed then
                (unlisted properties subject).map fun key =>
                  complain (path ++ ofString "." ++ key) (ofString "unexpected property")
              else validateAdditional additional (unlisted properties subject) subject path)

/-- Some schema has nothing to complain about. -/
def validateAny : List Schema → Subject → Utf16 → Bool
  | [], _, _ => false
  | schema :: schemas, subject, path =>
      (validate schema subject path).isEmpty || validateAny schemas subject path

def validateItems : List Schema → Subject → Utf16 → List Utf16
  | [], _, _ => []
  | schema :: _, subject, path =>
      (subject.array?.getD []).zipIdx.flatMap fun (item, index) =>
        validate schema (.json item) (path ++ ofString "[" ++ ofNat index ++ ofString "]")

def validateProperties : List (Utf16 × Schema) → Subject → Utf16 → List Utf16
  | [], _, _ => []
  | (key, schema) :: properties, subject, path =>
      (match subject.read key with
        | some item => validate schema item (path ++ ofString "." ++ key)
        | none => []) ++
        validateProperties properties subject path

def validateAdditional : List Schema → List Utf16 → Subject → Utf16 → List Utf16
  | [], _, _, _ => []
  | schema :: _, keys, subject, path =>
      keys.flatMap fun key =>
        match subject.read key with
        | some item => validate schema item (path ++ ofString "." ++ key)
        | none => []

end

/-- `check`: the errors about a value. -/
def check (value : Json) (schema : Schema) : List Utf16 :=
  validate schema (.json value) (ofString "$")

end Validate

end TitanRunner
