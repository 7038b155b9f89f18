import Mathlib.Tactic.MkIffOfInductiveProp
import TitanRunner.Lib.JsonDecimal
import TitanRunner.Validate

/-!
# What a schema says of a value

The meaning of a schema of `lib/validate.js`, keyword by keyword and apart from the validator: a
value satisfies a schema where every keyword holds of it.  Only own members count.
-/

namespace TitanRunner

namespace Validate

open Utf16

/-! ## Values that satisfy a schema -/

/-- What `type` asks for. -/
def JsonType.Fits : JsonType → Json → Prop
  | .string, value => ∃ text, value = .string text
  | .number, value => ∃ text, value = .number text
  | .integer, value => ∃ text, value = .number text ∧ ∃ number : ℤ, (Json.decimal text).toRat = number
  | .boolean, value => ∃ flag, value = .bool flag
  | .object, value => ∃ members, value = .object members
  | .array, value => ∃ items, value = .array items
  | .null, value => value = .null

/-- The value has an own member of this name. -/
def HasOwn (value : Json) (key : Utf16) : Prop := (value.member key).isSome = true

/-- What is listed or typed lets a value through. -/
@[mk_iff]
structure Keywords.Allow (keywords : Keywords) (value : Json) : Prop where
  const : ∀ listed, keywords.const = some listed → value.equal listed = true
  types : keywords.types ≠ [] → ∃ type ∈ keywords.types, type.Fits value
  enum : ∀ allowed, keywords.enum = some allowed → ∃ listed ∈ allowed, value.equal listed = true

/-- The bounds of a value are kept, each by the values it is for. -/
@[mk_iff]
structure Keywords.Bound (keywords : Keywords) (value : Json) : Prop where
  minLength : ∀ text, value = .string text → ∀ least, keywords.minLength = some least →
    least ≤ text.length
  maxLength : ∀ text, value = .string text → ∀ most, keywords.maxLength = some most →
    text.length ≤ most
  pattern : ∀ text, value = .string text → ∀ source regex,
    keywords.pattern = some (source, regex) → regex.test text = true
  dateTime : ∀ text, value = .string text → keywords.dateTime = true → isoDate.test text = true
  minimum : ∀ number, value = .number number → ∀ least, keywords.minimum = some least →
    (Json.decimal least).toRat ≤ (Json.decimal number).toRat
  maximum : ∀ number, value = .number number → ∀ most, keywords.maximum = some most →
    (Json.decimal number).toRat ≤ (Json.decimal most).toRat
  minItems : ∀ items, value = .array items → ∀ least, keywords.minItems = some least →
    least ≤ items.length
  maxItems : ∀ items, value = .array items → ∀ most, keywords.maxItems = some most →
    items.length ≤ most
  required : ∀ members, value = .object members → ∀ key ∈ keywords.required, HasOwn value key

mutual

/-- Every keyword of the schema holds of the value; `nullable` lets null through. -/
def Satisfies : Schema → Json → Prop
  | .node keywords anyOf items properties additional, value =>
      keywords.nullable = true ∧ value = .null ∨
        keywords.Allow value ∧ keywords.Bound value ∧
          (anyOf = [] ∨ SatisfiesAny anyOf value) ∧ ItemsSatisfy items value ∧
          PropertiesSatisfy properties value ∧
            if keywords.closed then ∀ key, HasOwn value key → key ∈ properties.map Prod.fst
            else OthersSatisfy additional (properties.map Prod.fst) value

def SatisfiesAny : List Schema → Json → Prop
  | [], _ => False
  | schema :: schemas, value => Satisfies schema value ∨ SatisfiesAny schemas value

def ItemsSatisfy : List Schema → Json → Prop
  | [], _ => True
  | schema :: _, value => ∀ item ∈ value.array?.getD [], Satisfies schema item

def PropertiesSatisfy : List (Utf16 × Schema) → Json → Prop
  | [], _ => True
  | (key, schema) :: properties, value =>
      (∀ item, value.member key = some item → Satisfies schema item) ∧
        PropertiesSatisfy properties value

/-- The members that are not listed satisfy the schema for them. -/
def OthersSatisfy : List Schema → List Utf16 → Json → Prop
  | [], _, _ => True
  | schema :: _, names, value =>
      ∀ key item, value.member key = some item → key ∉ names → Satisfies schema item

end

/-! ## What the validator can tell -/

/-- A value that `===` compares by what it is. -/
def IsScalar : Json → Prop
  | .null | .bool _ | .number _ | .string _ => True
  | .array _ | .object _ => False

mutual

/-- `const` and `enum` list scalars, and `anyOf` has no other keywords beside it. -/
def Plain : Schema → Prop
  | .node keywords anyOf items properties additional =>
      (∀ listed, keywords.const = some listed → IsScalar listed) ∧
        (∀ allowed, keywords.enum = some allowed → ∀ listed ∈ allowed, IsScalar listed) ∧
        (anyOf = [] ∨ keywords = { nullable := keywords.nullable } ∧ items = [] ∧
          properties = [] ∧ additional = []) ∧
        AllPlain anyOf ∧ AllPlain items ∧ PropertiesPlain properties ∧ AllPlain additional

def AllPlain : List Schema → Prop
  | [] => True
  | schema :: schemas => Plain schema ∧ AllPlain schemas

def PropertiesPlain : List (Utf16 × Schema) → Prop
  | [] => True
  | (_, schema) :: properties => Plain schema ∧ PropertiesPlain properties

end

/-- An object has the name itself, if every object inherits it. -/
def OwnIfInherited (value : Json) (key : Utf16) : Prop :=
  (Subject.json value).isObject = true → Inherited.isInherited key = true → HasOwn value key

/-- No own member that a schema does not list has a name that every object inherits. -/
def ListedIfInherited (value : Json) (names : List Utf16) : Prop :=
  ∀ key, HasOwn value key → Inherited.isInherited key = true → key ∈ names

mutual

/-- Wherever the schema looks up a name that every object inherits, the value has it itself; and
where other members are restricted, those of such a name are listed. -/
def Clear : Schema → Json → Prop
  | .node keywords anyOf items properties additional, value =>
      ClearAll anyOf value ∧ (∀ key ∈ keywords.required, OwnIfInherited value key) ∧
        ItemsClear items value ∧ PropertiesClear properties value ∧
        (keywords.closed = true ∨ additional ≠ [] →
          ListedIfInherited value (properties.map Prod.fst)) ∧
        OthersClear additional (properties.map Prod.fst) value

def ClearAll : List Schema → Json → Prop
  | [], _ => True
  | schema :: schemas, value => Clear schema value ∧ ClearAll schemas value

def ItemsClear : List Schema → Json → Prop
  | [], _ => True
  | schema :: _, value => ∀ item ∈ value.array?.getD [], Clear schema item

def PropertiesClear : List (Utf16 × Schema) → Json → Prop
  | [], _ => True
  | (key, schema) :: properties, value =>
      OwnIfInherited value key ∧ (∀ item, value.member key = some item → Clear schema item) ∧
        PropertiesClear properties value

def OthersClear : List Schema → List Utf16 → Json → Prop
  | [], _, _ => True
  | schema :: _, names, value =>
      ∀ key item, value.member key = some item → key ∉ names → Clear schema item

end

/-! ## Keywords -/

theorem admits_iff (type : JsonType) (value : Json) : type.admits value = true ↔ type.Fits value := by
  cases type with
  | integer =>
      cases value with
      | number text =>
          rw [JsonType.admits, Json.integer?, Json.Decimal.isSome_integer_iff, JsonType.Fits]
          simp
      | null | bool | string | array | object => simp [JsonType.admits, JsonType.Fits, Json.integer?]
  | string | number | boolean | object | array | null =>
      cases value <;> simp [JsonType.admits, JsonType.Fits]

/-- `===` is equality for a scalar that is listed. -/
theorem same_eq_equal {listed : Json} (scalar : IsScalar listed) (value : Json) :
    same value listed = value.equal listed := by
  cases listed with
  | null | bool | number | string => cases value <;> simp [same, Json.equal]
  | array | object => exact scalar.elim

/-- A name that only objects with an own member of it are asked for is looked up as one. -/
theorem read_eq_member {value : Json} {key : Utf16} (own : OwnIfInherited value key) :
    (Subject.json value).read key = (value.member key).map .json := by
  rw [Subject.read]
  cases found : value.member key with
  | some item => rfl
  | none =>
      have missing : ¬ HasOwn value key := by simp [HasOwn, found]
      have never : ((Subject.json value).isObject && Inherited.isInherited key) = false := by
        rw [Bool.and_eq_false_iff]
        by_contra both
        simp only [not_or, Bool.not_eq_false] at both
        exact missing (own both.1 both.2)
      simp [never]

theorem bounded_nil_iff {Bound : Type} {path : Utf16} {bound : Option Bound}
    {broken : Bound → Bool} {problem : Bound → Utf16} :
    bounded path bound broken problem = [] ↔ ∀ limit, bound = some limit → broken limit = false := by
  cases bound with
  | none => simp [bounded]
  | some limit => simp [bounded, Option.filter_some]

/-- The keywords that rule a value out altogether let it through. -/
theorem refuse_none_iff {keywords : Keywords} {value : Json} (path : Utf16)
    (const : ∀ listed, keywords.const = some listed → IsScalar listed)
    (enum : ∀ allowed, keywords.enum = some allowed → ∀ listed ∈ allowed, IsScalar listed) :
    keywords.refuse (.json value) path = none ↔ keywords.Allow value := by
  have constHolds : (keywords.const.filter fun const => !(Subject.json value).same const) = none ↔
      ∀ listed, keywords.const = some listed → value.equal listed = true := by
    rw [Option.filter_eq_none_iff]
    refine forall₂_congr fun listed given => ?_
    rw [Subject.same, same_eq_equal (const listed given)]
    simp
  have typesHold : (!keywords.types.isEmpty && !keywords.types.any (Subject.json value).admits) =
      false ↔ (keywords.types ≠ [] → ∃ type ∈ keywords.types, type.Fits value) := by
    have any : keywords.types.any (Subject.json value).admits = true ↔
        ∃ type ∈ keywords.types, type.Fits value := by
      rw [List.any_eq_true]
      exact exists_congr fun type => and_congr_right fun _ => admits_iff type value
    rw [← any]
    cases keywords.types.any (Subject.json value).admits with
    | true => simp
    | false => simp
  have enumHolds : (keywords.enum.filter fun allowed =>
      !allowed.any (Subject.json value).same) = none ↔
        ∀ allowed, keywords.enum = some allowed →
          ∃ listed ∈ allowed, value.equal listed = true := by
    rw [Option.filter_eq_none_iff]
    refine forall₂_congr fun allowed given => ?_
    rw [Bool.not_eq_true, Bool.not_eq_false', List.any_eq_true]
    refine exists_congr fun listed => and_congr_right fun mem => ?_
    rw [Subject.same, same_eq_equal (enum allowed given listed mem)]
  rw [Keywords.allow_iff, ← constHolds, ← typesHold, ← enumHolds, Keywords.refuse]
  cases keywords.const.filter fun const => !(Subject.json value).same const with
  | some const => simp
  | none =>
      cases !keywords.types.isEmpty && !keywords.types.any (Subject.json value).admits with
      | true => simp
      | false => simp

/-- What is found wrong with a value of the right type is what does not hold. -/
theorem find_nil_iff {keywords : Keywords} {value : Json} {path : Utf16}
    (own : ∀ key ∈ keywords.required, OwnIfInherited value key) :
    keywords.find (.json value) path = [] ↔ keywords.Bound value := by
  rw [Keywords.bound_iff]
  cases value with
  | null | bool => simp [Keywords.find]
  | string text =>
      have date : (keywords.dateTime && !isoDate.test text) = true ↔
          ¬ (keywords.dateTime = true → isoDate.test text = true) := by
        cases keywords.dateTime <;> cases isoDate.test text <;> simp
      simp [Keywords.find, bounded_nil_iff, date]
  | number number =>
      have notLess (left right : Json.Decimal) :
          left.less right = false ↔ right.toRat ≤ left.toRat := by
        rw [← Bool.not_eq_true, Json.Decimal.less_iff, not_lt]
      simp [Keywords.find, bounded_nil_iff, notLess]
  | array items => simp [Keywords.find, bounded_nil_iff]
  | object members =>
      have found : ∀ key ∈ keywords.required,
          ((Subject.json (.object members)).read key).isNone = false ↔
            HasOwn (.object members) key := by
        intro key mem
        rw [read_eq_member (own key mem), HasOwn, Option.isNone_map]
        cases (Json.object members).member key <;> simp
      have isObject : (Subject.json (.object members)).isObject = true := rfl
      have required : (∀ key ∈ keywords.required,
            ¬ ((Subject.json (.object members)).read key).isNone = true) ↔
          ∀ key ∈ keywords.required, HasOwn (.object members) key :=
        forall₂_congr fun key mem => (Bool.not_eq_true _).to_iff.trans (found key mem)
      rw [Keywords.find, if_pos isObject, List.map_eq_nil_iff, List.filter_eq_nil_iff, required]
      simp

theorem hasOwn_object {members : List (Utf16 × Json)} {key : Utf16} :
    HasOwn (.object members) key ↔ key ∈ members.map Prod.fst := by
  rw [HasOwn, Json.member, Option.isSome_map, List.find?_isSome]
  simp

theorem mem_keys {value : Json} {key : Utf16} : key ∈ (Subject.json value).keys ↔ HasOwn value key := by
  cases value with
  | object members => rw [Subject.keys, List.mem_eraseDups, hasOwn_object]
  | null | bool | number | string | array => simp [Subject.keys, HasOwn, Json.member]

/-- Without names that every object inherits, the unlisted members are the own ones. -/
theorem mem_unlisted {properties : List (Utf16 × Schema)} {value : Json} {key : Utf16}
    (listed : ListedIfInherited value (properties.map Prod.fst)) :
    key ∈ unlisted properties (.json value) ↔
      HasOwn value key ∧ key ∉ properties.map Prod.fst := by
  rw [unlisted, List.mem_filter, mem_keys]
  refine and_congr_right fun own => ?_
  rw [Bool.not_eq_true', Bool.or_eq_false_iff, ← Bool.not_eq_true, List.contains_iff_mem,
    ← Bool.not_eq_true]
  exact and_iff_left_of_imp fun missing inherited => missing (listed key own inherited)

/-! ## Schemas -/

/-- Keywords that say nothing but `nullable` hold of every value. -/
theorem hold_of_nullable (nullable : Bool) (value : Json) :
    Keywords.Allow { nullable } value ∧ Keywords.Bound { nullable } value := by
  constructor
  · constructor <;> simp
  · constructor <;> simp

mutual

/-- The validator has nothing to complain about exactly where the schema is satisfied. -/
theorem validate_nil_iff (schema : Schema) (plain : Plain schema) (value : Json)
    (clear : Clear schema value) (path : Utf16) :
    validate schema (.json value) path = [] ↔ Satisfies schema value := by
  cases schema with
  | node keywords anyOf items properties additional =>
      obtain ⟨const, enum, alone, anyPlain, itemsPlain, propertiesPlain, additionalPlain⟩ := plain
      obtain ⟨anyClear, own, itemsClear, propertiesClear, listed, othersClear⟩ := clear
      have any := validateAny_iff anyOf anyPlain value anyClear path
      have eachItem := validateItems_nil_iff items itemsPlain value itemsClear path
      have each :=
        validateProperties_nil_iff properties propertiesPlain value propertiesClear path
      have null : (keywords.nullable && (Subject.json value).isNull) = true ↔
          keywords.nullable = true ∧ value = .null := by
        cases value <;> simp [Subject.isNull]
      have others : (if keywords.closed then
              (unlisted properties (.json value)).map fun key =>
                complain (path ++ ofString "." ++ key) (ofString "unexpected property")
            else validateAdditional additional (unlisted properties (.json value)) (.json value)
              path) = [] ↔
          if keywords.closed then ∀ key, HasOwn value key → key ∈ properties.map Prod.fst
          else OthersSatisfy additional (properties.map Prod.fst) value := by
        split
        next closed =>
          rw [List.map_eq_nil_iff, List.eq_nil_iff_forall_not_mem]
          refine forall_congr' fun key => ?_
          rw [mem_unlisted (listed (.inl closed)), not_and, not_not]
        next =>
          cases additional with
          | nil => simp [validateAdditional, OthersSatisfy]
          | cons schema schemas =>
              exact validateAdditional_nil_iff (schema :: schemas) additionalPlain _ _ value
                (fun key => mem_unlisted (listed (.inr (List.cons_ne_nil _ _)))) othersClear path
      rw [validate, Satisfies]
      split
      next shown => exact iff_of_true rfl (.inl (null.1 shown))
      next hidden =>
        rw [or_iff_right (fun shown => hidden (null.2 shown))]
        cases anyOf with
        | nil =>
            rw [if_neg (by simp), ← refuse_none_iff path const enum]
            cases keywords.refuse (.json value) path with
            | some error => simp
            | none =>
                rw [List.append_eq_nil_iff, List.append_eq_nil_iff, List.append_eq_nil_iff, others,
                  find_nil_iff own, eachItem, each]
                simp [and_assoc]
        | cons schema schemas =>
            obtain ⟨bare, rfl, rfl, rfl⟩ := alone.resolve_left (List.cons_ne_nil _ _)
            have hold := hold_of_nullable keywords.nullable value
            rw [← bare] at hold
            have closed : keywords.closed = false := by rw [bare]
            rw [if_pos (by simp)]
            simp [any, hold, closed, ItemsSatisfy, PropertiesSatisfy, OthersSatisfy]

theorem validateAny_iff (schemas : List Schema) (plain : AllPlain schemas) (value : Json)
    (clear : ClearAll schemas value) (path : Utf16) :
    validateAny schemas (.json value) path = true ↔ SatisfiesAny schemas value := by
  cases schemas with
  | nil => simp [validateAny, SatisfiesAny]
  | cons schema schemas =>
      rw [validateAny, SatisfiesAny, Bool.or_eq_true, List.isEmpty_iff,
        validate_nil_iff schema plain.1 value clear.1 path,
        validateAny_iff schemas plain.2 value clear.2 path]

theorem validateItems_nil_iff (schemas : List Schema) (plain : AllPlain schemas) (value : Json)
    (clear : ItemsClear schemas value) (path : Utf16) :
    validateItems schemas (.json value) path = [] ↔ ItemsSatisfy schemas value := by
  cases schemas with
  | nil => simp [validateItems, ItemsSatisfy]
  | cons schema schemas =>
      have each (item : Json) (mem : item ∈ value.array?.getD []) (path : Utf16) :
          validate schema (.json item) path = [] ↔ Satisfies schema item :=
        validate_nil_iff schema plain.1 item (clear item mem) path
      have items : (Subject.json value).array? = value.array? := rfl
      rw [validateItems, ItemsSatisfy, List.flatMap_eq_nil_iff, items]
      constructor
      · intro none item mem
        obtain ⟨index, lt, rfl⟩ := List.getElem_of_mem mem
        have here := none ((value.array?.getD [])[index], index)
          (List.mem_zipIdx_iff_getElem?.2 (List.getElem?_eq_getElem lt))
        exact (each _ mem _).1 here
      · intro all entry mem
        have inside := List.fst_mem_of_mem_zipIdx mem
        exact (each entry.1 inside _).2 (all entry.1 inside)

theorem validateProperties_nil_iff (properties : List (Utf16 × Schema))
    (plain : PropertiesPlain properties) (value : Json) (clear : PropertiesClear properties value)
    (path : Utf16) :
    validateProperties properties (.json value) path = [] ↔ PropertiesSatisfy properties value := by
  cases properties with
  | nil => simp [validateProperties, PropertiesSatisfy]
  | cons property properties =>
      cases property with
      | mk key schema =>
          obtain ⟨own, itemClear, clear⟩ := clear
          rw [validateProperties, PropertiesSatisfy, List.append_eq_nil_iff,
            validateProperties_nil_iff properties plain.2 value clear path, read_eq_member own]
          refine and_congr_left fun _ => ?_
          cases found : value.member key with
          | none => simp
          | some item =>
              rw [Option.map_some]
              simpa using validate_nil_iff schema plain.1 item (itemClear item found) _

theorem validateAdditional_nil_iff (schemas : List Schema) (plain : AllPlain schemas)
    (names keys : List Utf16) (value : Json)
    (unlisted : ∀ key, key ∈ keys ↔ HasOwn value key ∧ key ∉ names)
    (clear : OthersClear schemas names value) (path : Utf16) :
    validateAdditional schemas keys (.json value) path = [] ↔
      OthersSatisfy schemas names value := by
  cases schemas with
  | nil => simp [validateAdditional, OthersSatisfy]
  | cons schema schemas =>
      rw [validateAdditional, OthersSatisfy, List.flatMap_eq_nil_iff]
      refine forall_congr' fun key => ?_
      rw [unlisted key]
      cases found : value.member key with
      | none => simp [HasOwn, found]
      | some item =>
          have read : (Subject.json value).read key = some (.json item) := by
            rw [Subject.read, found]
          simp only [HasOwn, found, read, Option.isSome_some, true_and, Option.some.injEq,
            forall_eq']
          exact forall_congr' fun missing =>
            validate_nil_iff schema plain.1 item (clear key item found missing) _

end

end Validate

end TitanRunner
