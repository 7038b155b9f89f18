import TitanRunner.Validate.Satisfies

/-!
# Strict schemas of the state files

`state/strict.js`: an object lists every key it may hold.  Of the registered files only those of
the research digest are here.
-/

namespace TitanRunner

namespace StrictSchema

open Utf16 Validate

/-! ## The schemas -/

/-- `STR` -/
def str (max : Nat) : Schema := plain { types := [.string], maxLength := some max }

/-- `NSTR` -/
def nstr (max : Nat) : Schema :=
  plain { types := [.string], maxLength := some max, nullable := true }

/-- `INT` -/
def int : Schema := plain { types := [.integer] }

/-- `ANYSTR` -/
def anyStr (max : Nat) : Schema :=
  arrayOf { maxItems := some 500 } (plain { types := [.string], maxLength := some max })

/-- `obj`: the keys are listed, and required unless they are optional. -/
def obj (properties : List (String × Schema)) (optionals : List String) : Schema :=
  objectOf
    { closed := true
      required :=
        ((properties.map Prod.fst).filter fun key => !optionals.contains key).map ofString }
    (properties.map fun property => (ofString property.1, property.2))

/-- The properties of `RESEARCH`. -/
def researchProperties : List (String × Schema) :=
  [("version", int), ("lastAttemptAt", nstr 40), ("lastStatus", str 60), ("lastReason", nstr 500),
    ("lastDigestDate", nstr 20), ("lastDigestFile", nstr 200), ("provider", nstr 80),
    ("model", nstr 200), ("topicIds", anyStr 80), ("preview", nstr 2000), ("lastDetail", nstr 2000)]

/-- `RESEARCH` -/
def research : Schema := obj researchProperties
  ["lastDigestDate", "lastDigestFile", "provider", "model", "topicIds", "preview", "lastDetail"]

/-- The properties of the digest in `VIEWS.research`. -/
def digestProperties : List (String × Schema) :=
  [("date", str 20), ("file", str 200), ("provider", str 80), ("model", str 200),
    ("topics", anyStr 80), ("preview", str 2000)]

/-- The properties of `VIEWS.research`. -/
def viewProperties : List (String × Schema) :=
  [("version", int), ("updatedAt", str 40), ("lastAttemptAt", nstr 40), ("lastStatus", str 60),
    ("lastReason", nstr 500), ("digest", obj digestProperties [])]

/-- `VIEWS.research` -/
def researchView : Schema := obj viewProperties ["digest"]

/-! ## What they admit -/

section Leaves

variable {value : Json} {path : Utf16} {max : Nat}

theorem str_nil_iff : validate (str max) (.json value) path = [] ↔
    ∃ text, value = .string text ∧ text.length ≤ max := by
  cases value <;>
    simp [str, plain, validate, validateItems, validateProperties, validateAdditional,
      Keywords.refuse, Keywords.find, bounded_nil_iff, Subject.admits, JsonType.admits,
      Subject.isNull]

theorem nstr_nil_iff : validate (nstr max) (.json value) path = [] ↔
    value = .null ∨ ∃ text, value = .string text ∧ text.length ≤ max := by
  cases value <;>
    simp [nstr, plain, validate, validateItems, validateProperties, validateAdditional,
      Keywords.refuse, Keywords.find, bounded_nil_iff, Subject.admits, JsonType.admits,
      Subject.isNull]

theorem int_nil_iff : validate int (.json value) path = [] ↔ value.integer?.isSome = true := by
  cases value with
  | number text =>
      cases whole : (Json.number text).integer?.isSome <;>
        simp [int, plain, validate, validateItems, validateProperties, validateAdditional,
          Keywords.refuse, Keywords.find, bounded_nil_iff, Subject.admits, JsonType.admits,
          Subject.isNull, whole]
  | null | bool | string | array | object =>
      simp [int, plain, validate, Keywords.refuse, Subject.admits, JsonType.admits, Subject.isNull,
        Json.integer?]

theorem anyStr_nil_iff : validate (anyStr max) (.json value) path = [] ↔
    ∃ items, value = .array items ∧ items.length ≤ 500 ∧
      ∀ item ∈ items, ∃ text, item = .string text ∧ text.length ≤ max := by
  cases value with
  | array items =>
      have each : validateItems [str max] (.json (.array items)) path = [] ↔
          ∀ item ∈ items, ∃ text, item = .string text ∧ text.length ≤ max := by
        rw [validateItems, List.flatMap_eq_nil_iff]
        constructor
        · intro none' item mem
          obtain ⟨index, lt, rfl⟩ := List.getElem_of_mem mem
          exact str_nil_iff.1 (none' (items[index], index)
            (List.mem_zipIdx_iff_getElem?.2 (List.getElem?_eq_getElem lt)))
        · intro all entry mem
          exact str_nil_iff.2 (all entry.1 (List.fst_mem_of_mem_zipIdx mem))
      rw [str] at each
      simp [anyStr, arrayOf, validate, validateProperties, validateAdditional, Keywords.refuse,
        Keywords.find, bounded_nil_iff, Subject.admits, JsonType.admits, Subject.isNull, each]
  | null | bool | number | string | object =>
      simp [anyStr, arrayOf, validate, Keywords.refuse, Subject.admits, JsonType.admits,
        Subject.isNull]

end Leaves

/-- An object keeps to its schema where it has what is required, what it has of the listed keys is
in order, and it has no others, except that those every object inherits are overlooked. -/
theorem obj_nil_iff {properties : List (String × Schema)} {optionals : List String}
    (own : ∀ property ∈ properties, Inherited.isInherited (ofString property.1) = false)
    {value : Json} {path : Utf16} :
    validate (obj properties optionals) (.json value) path = [] ↔
      ∃ members, value = .object members ∧
        (∀ property ∈ properties, property.1 ∉ optionals →
          HasOwn value (ofString property.1)) ∧
        (∀ property ∈ properties, ∀ item, value.member (ofString property.1) = some item →
          validate property.2 (.json item) (path ++ ofString "." ++ ofString property.1) = []) ∧
        ∀ key ∈ members.map Prod.fst,
          key ∈ properties.map (fun property => ofString property.1) ∨
            Inherited.isInherited key = true := by
  cases value with
  | null | bool | number | string | array =>
      simp [obj, objectOf, validate, Keywords.refuse, Subject.admits, JsonType.admits,
        Subject.isNull]
  | object members =>
      have inside (property : String × Schema) (listed : property ∈ properties) :
          (Subject.json (.object members)).read (ofString property.1) =
            ((Json.object members).member (ofString property.1)).map .json :=
        read_eq_member fun _ inherited => absurd inherited (by simp [own property listed])
      have required : (Keywords.find
            { types := [.object], closed := true
              required := ((properties.map Prod.fst).filter fun key =>
                !optionals.contains key).map ofString } (.json (.object members)) path = []) ↔
          ∀ property ∈ properties, property.1 ∉ optionals →
            HasOwn (.object members) (ofString property.1) := by
        have isObject : (Subject.json (.object members)).isObject = true := rfl
        rw [Keywords.find, if_pos isObject, List.map_eq_nil_iff, List.filter_eq_nil_iff,
          List.filter_map, List.map_map]
        simp only [List.forall_mem_map, List.mem_filter, and_imp]
        refine forall₂_congr fun property listed => ?_
        simp only [Function.comp_apply, inside property listed, HasOwn]
        cases (Json.object members).member (ofString property.1) <;> simp
      have each : validateProperties
            (properties.map fun property => (ofString property.1, property.2))
            (.json (.object members)) path = [] ↔
          ∀ property ∈ properties, ∀ item,
            (Json.object members).member (ofString property.1) = some item →
              validate property.2 (.json item)
                (path ++ ofString "." ++ ofString property.1) = [] := by
        clear required
        induction properties with
        | nil => simp [validateProperties]
        | cons property properties ih =>
            have later := ih (fun property listed => own property (List.mem_cons_of_mem _ listed))
              (fun property listed => inside property (List.mem_cons_of_mem _ listed))
            rw [List.map_cons, validateProperties, List.append_eq_nil_iff, later,
              List.forall_mem_cons, inside property List.mem_cons_self]
            refine and_congr_left fun _ => ?_
            cases (Json.object members).member (ofString property.1) <;> simp
      have others : (unlisted (properties.map fun property => (ofString property.1, property.2))
            (.json (.object members))).map (fun key =>
              complain (path ++ ofString "." ++ key) (ofString "unexpected property")) = [] ↔
          ∀ key ∈ members.map Prod.fst,
            key ∈ properties.map (fun property => ofString property.1) ∨
              Inherited.isInherited key = true := by
        rw [List.map_eq_nil_iff, unlisted, List.filter_eq_nil_iff, Subject.keys]
        simp only [List.mem_eraseDups, List.map_map]
        refine forall₂_congr fun key _ => ?_
        rw [Bool.not_eq_true, Bool.not_eq_false', Bool.or_eq_true, List.contains_iff_mem]
        rfl
      have admitted : Keywords.refuse
          { types := [.object], closed := true
            required := ((properties.map Prod.fst).filter fun key =>
              !optionals.contains key).map ofString } (.json (.object members)) path = none := by
        simp [Keywords.refuse, Subject.admits, JsonType.admits]
      rw [obj, objectOf, validate, if_neg (by simp), if_neg (by simp), admitted]
      simp only [validateItems, List.append_nil, if_true, List.append_eq_nil_iff, required, each,
        others, Json.object.injEq, exists_eq_left', and_assoc]

/-- A value under a key that no other has. -/
theorem member_of_nodup {members : List (Utf16 × Json)} (distinct : (members.map Prod.fst).Nodup)
    {key : Utf16} {value : Json} (inside : (key, value) ∈ members) :
    (Json.object members).member key = some value := by
  obtain ⟨item, found⟩ := Option.isSome_iff_exists.1
    (hasOwn_object.2 (List.mem_map_of_mem inside) : HasOwn (.object members) key)
  obtain ⟨⟨other, item'⟩, found', rfl⟩ := Option.map_eq_some_iff.1 found
  have passes := List.find?_some found'
  have same : other = key := eq_of_beq passes
  subst same
  have there := List.mem_reverse.1 (List.mem_of_find?_eq_some found')
  have alike := List.inj_on_of_nodup_map distinct there inside rfl
  cases alike
  exact found

/-- An object that has just the listed keys, with a value for each. -/
theorem obj_nil_iff_of_fields {fields : List (String × Schema × Json)} {optionals : List String}
    (keys : List String) (same : fields.map Prod.fst = keys)
    (own : ∀ key ∈ keys, Inherited.isInherited (ofString key) = false)
    (distinct : (keys.map ofString).Nodup) {path : Utf16} :
    validate (obj (fields.map fun field => (field.1, field.2.1)) optionals)
        (.json (.object (fields.map fun field => (ofString field.1, field.2.2)))) path = [] ↔
      ∀ field ∈ fields,
        validate field.2.1 (.json field.2.2) (path ++ ofString "." ++ ofString field.1) = [] := by
  have names : (fields.map fun field => (ofString field.1, field.2.2)).map Prod.fst =
      keys.map ofString := by
    rw [← same, List.map_map, List.map_map]
    rfl
  have member : ∀ field ∈ fields,
      (Json.object (fields.map fun field => (ofString field.1, field.2.2))).member
        (ofString field.1) = some field.2.2 := fun field listed =>
    member_of_nodup (names ▸ distinct) (List.mem_map.2 ⟨field, listed, rfl⟩)
  generalize (fields.map fun field => (ofString field.1, field.2.2)) = members at names member
  have own' : ∀ property ∈ fields.map fun field => (field.1, field.2.1),
      Inherited.isInherited (ofString property.1) = false := by
    intro property listed
    obtain ⟨field, inside, rfl⟩ := List.mem_map.1 listed
    exact own field.1 (same ▸ List.mem_map_of_mem inside)
  rw [obj_nil_iff own']
  simp only [Json.object.injEq, exists_eq_left', List.forall_mem_map, List.map_map]
  constructor
  · rintro ⟨_, each, _⟩ field listed
    exact each field listed _ (member field listed)
  · intro all
    refine ⟨fun field listed _ => ?_, fun field listed item found => ?_,
      fun entry inside => .inl ?_⟩
    · rw [HasOwn, member field listed, Option.isSome_some]
    · rw [member field listed, Option.some.injEq] at found
      exact found ▸ all field listed
    · have among := List.mem_map_of_mem (f := Prod.fst) inside
      rw [names, ← same, List.map_map] at among
      exact among

end StrictSchema

end TitanRunner
