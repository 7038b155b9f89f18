import TitanRunner.State.StrictSchema

/-!
# Closing only closes

`findLooseObjects` of `state/strict.js` and the validator, on the schemas that `strictify` closes:
nothing is loose in a closed schema, and it differs from the schema only in the keys that a list
of properties does not name.
-/

namespace TitanRunner

namespace Strictify

open Utf16
open Validate (Keywords Subject complain)

/-! ## `findLooseObjects` -/

mutual

def findLooseObjects : Schema → Utf16 → List Utf16
  | .node _ anyOf items properties additional, path =>
      (if properties.isSome && !additional.bounds then [path] else []) ++
        (match properties with
          | some properties => looseProperties properties path
          | none => []) ++
        (match items with
          | some schema => findLooseObjects schema (path ++ ofString "[]")
          | none => []) ++
        (match additional with
          | .each schema => findLooseObjects schema (path ++ ofString ".*")
          | _ => []) ++
        (match anyOf with
          | some schemas => looseAlternatives schemas path
          | none => [])

def looseProperties : List (Utf16 × Schema) → Utf16 → List Utf16
  | [], _ => []
  | (name, schema) :: properties, path =>
      findLooseObjects schema (path ++ ofString "." ++ name) ++ looseProperties properties path

def looseAlternatives : List Schema → Utf16 → List Utf16
  | [], _ => []
  | schema :: schemas, path => findLooseObjects schema path ++ looseAlternatives schemas path

end

/-! ## The validator -/

/-- The members of an object that are not listed: `in` finds the inherited names as well. -/
def unlisted (names : List Utf16) (subject : Subject) : List Utf16 :=
  subject.keys.filter fun key => !(names.contains key || Inherited.isInherited key)

/-- The names that `properties` lists. -/
def namesOf (properties : Option (List (Utf16 × Schema))) : List Utf16 :=
  (properties.getD []).map Prod.fst

/-- The path of an item of a list. -/
def itemPath (path : Utf16) (index : Nat) : Utf16 :=
  path ++ ofString "[" ++ ofNat index ++ ofString "]"

/-- What a schema finds wrong with the items of a list. -/
def itemErrors (find : Subject → Utf16 → List Utf16) (subject : Subject) (path : Utf16) :
    List Utf16 :=
  (subject.array?.getD []).zipIdx.flatMap fun (item, index) =>
    find (.json item) (itemPath path index)

/-- What a schema finds wrong with the member of a name, if it is there. -/
def memberErrors (find : Subject → Utf16 → List Utf16) (subject : Subject) (path name : Utf16) :
    List Utf16 :=
  match subject.read name with
  | some item => find item (path ++ ofString "." ++ name)
  | none => []

mutual

/-- `validate` -/
def validate : Schema → Subject → Utf16 → List Utf16
  | .node keywords anyOf items properties additional, subject, path =>
      if keywords.nullable && subject.isNull then []
      else
        match anyOf with
        | some schemas =>
            if validateAny schemas subject path then []
            else [complain path (ofString "matches none of the allowed shapes")]
        | none =>
            match keywords.refuse subject path with
            | some error => [error]
            | none =>
                keywords.find subject path ++
                  (match items with
                    | some schema =>
                        itemErrors (fun item path => validate schema item path) subject path
                    | none => []) ++
                  (match properties with
                    | some properties => validateProperties properties subject path
                    | none => []) ++
                  (match additional with
                    | .closed => (unlisted (namesOf properties) subject).map fun key =>
                        complain (path ++ ofString "." ++ key) (ofString "unexpected property")
                    | .each schema => (unlisted (namesOf properties) subject).flatMap fun key =>
                        memberErrors (fun item path => validate schema item path) subject path key
                    | .absent | .loose => [])

/-- Some schema has nothing to complain about. -/
def validateAny : List Schema → Subject → Utf16 → Bool
  | [], _, _ => false
  | schema :: schemas, subject, path =>
      (validate schema subject path).isEmpty || validateAny schemas subject path

def validateProperties : List (Utf16 × Schema) → Subject → Utf16 → List Utf16
  | [], _, _ => []
  | (key, schema) :: properties, subject, path =>
      memberErrors (fun item path => validate schema item path) subject path key ++
        validateProperties properties subject path

end

/-- `check`: the errors about a value. -/
def check (value : Json) (schema : Schema) : List Utf16 :=
  validate schema (.json value) (ofString "$")

/-! ## The schemas of the validator's own module -/

mutual

/-- A schema in which no keyword is empty but `properties`. -/
def ofSchema : Validate.Schema → Schema
  | .node keywords anyOf items properties additional =>
      .node keywords
        (match anyOf with
          | [] => none
          | schema :: schemas => some (ofSchema schema :: ofSchemas schemas))
        (match items with
          | [] => none
          | schema :: _ => some (ofSchema schema))
        (some (ofProperties properties))
        (if keywords.closed then .closed
          else match additional with
            | [] => if keywords.loose then .loose else .absent
            | schema :: _ => .each (ofSchema schema))

def ofSchemas : List Validate.Schema → List Schema
  | [] => []
  | schema :: schemas => ofSchema schema :: ofSchemas schemas

def ofProperties : List (Utf16 × Validate.Schema) → List (Utf16 × Schema)
  | [] => []
  | (name, schema) :: properties => (name, ofSchema schema) :: ofProperties properties

end

theorem unlisted_ofProperties (properties : List (Utf16 × Validate.Schema)) (subject : Subject) :
    unlisted (namesOf (some (ofProperties properties))) subject =
      Validate.unlisted properties subject := by
  have names : (ofProperties properties).map Prod.fst = properties.map Prod.fst := by
    induction properties with
    | nil => rfl
    | cons entry properties ih => rw [ofProperties, List.map_cons, List.map_cons, ih]
  rw [namesOf, Option.getD_some, names]
  rfl

/-- What is said of the members that are not listed. -/
def additionalErrors (said : Additional (Subject → Utf16 → List Utf16)) (keys : List Utf16)
    (subject : Subject) (path : Utf16) : List Utf16 :=
  match said with
  | .closed => keys.map fun key =>
      complain (path ++ ofString "." ++ key) (ofString "unexpected property")
  | .each find => keys.flatMap (memberErrors find subject path)
  | .absent | .loose => []

/-- A schema without alternatives, part by part. -/
theorem validate_plain (keywords : Keywords) (items : Option Schema)
    (properties : Option (List (Utf16 × Schema))) (additional : Additional Schema)
    (subject : Subject) (path : Utf16) :
    validate (.node keywords none items properties additional) subject path =
      if keywords.nullable && subject.isNull then []
      else
        (keywords.refuse subject path).elim
          (keywords.find subject path ++
            (items.elim [] fun schema => itemErrors (validate schema) subject path) ++
            (properties.elim [] fun listed => validateProperties listed subject path) ++
            additionalErrors (additional.map validate) (unlisted (namesOf properties) subject)
              subject path)
          fun error => [error] := by
  cases items <;> cases properties <;> cases additional <;>
    (rw [validate]; cases keywords.refuse subject path <;> rfl)

theorem ofSchema_plain (keywords : Keywords) (items : List Validate.Schema)
    (properties : List (Utf16 × Validate.Schema)) (additional : List Validate.Schema) :
    ofSchema (.node keywords [] items properties additional) =
      .node keywords none (items.head?.map ofSchema) (some (ofProperties properties))
        (if keywords.closed then .closed
          else additional.head?.elim (if keywords.loose then .loose else .absent) fun schema =>
            .each (ofSchema schema)) := by
  cases items <;> cases additional <;> rfl

mutual

/-- The two validators say the same. -/
theorem validate_ofSchema : ∀ (schema : Validate.Schema) (subject : Subject) (path : Utf16),
    validate (ofSchema schema) subject path = Validate.validate schema subject path
  | .node keywords anyOf items properties additional, subject, path => by
      have any := validateAny_ofSchemas anyOf subject path
      have ofItems : ((items.head?.map ofSchema).elim [] fun schema =>
          itemErrors (validate schema) subject path) =
            Validate.validateItems items subject path := by
        cases items with
        | nil => rfl
        | cons schema _ =>
            have same : validate (ofSchema schema) = Validate.validate schema :=
              funext₂ (validate_ofSchema schema)
            rw [List.head?_cons, Option.map_some, Option.elim_some, same]
            rfl
      have ofEach : additionalErrors
            ((additional.head?.elim (if keywords.loose then .loose else .absent) fun schema =>
              Additional.each (ofSchema schema)).map validate)
            (Validate.unlisted properties subject) subject path =
          Validate.validateAdditional additional (Validate.unlisted properties subject) subject
            path := by
        cases additional with
        | nil => cases keywords.loose <;> simp <;> rfl
        | cons schema _ =>
            have same : validate (ofSchema schema) = Validate.validate schema :=
              funext₂ (validate_ofSchema schema)
            rw [List.head?_cons, Option.elim_some, Additional.map, same]
            rfl
      cases anyOf with
      | cons schema schemas =>
          rw [Validate.validate, ← any]
          cases items <;> cases additional <;> (rw [ofSchema, validate]; rfl)
      | nil =>
          rw [ofSchema_plain, validate_plain, ofItems, unlisted_ofProperties, Option.elim_some,
            validateProperties_ofProperties, Validate.validate]
          cases closed : keywords.closed with
          | false =>
              rw [if_neg Bool.false_ne_true, ofEach]
              cases keywords.refuse subject path <;> rfl
          | true => cases keywords.refuse subject path <;> rfl

theorem validateAny_ofSchemas : ∀ (schemas : List Validate.Schema) (subject : Subject)
    (path : Utf16), validateAny (ofSchemas schemas) subject path =
      Validate.validateAny schemas subject path
  | [], _, _ => rfl
  | schema :: schemas, subject, path => by
      rw [ofSchemas, validateAny, Validate.validateAny, validate_ofSchema schema,
        validateAny_ofSchemas schemas]

theorem validateProperties_ofProperties : ∀ (properties : List (Utf16 × Validate.Schema))
    (subject : Subject) (path : Utf16), validateProperties (ofProperties properties) subject path =
      Validate.validateProperties properties subject path
  | [], _, _ => rfl
  | (name, schema) :: properties, subject, path => by
      rw [ofProperties, validateProperties, Validate.validateProperties,
        validateProperties_ofProperties properties, memberErrors]
      cases subject.read name with
      | none => rfl
      | some item => simp only [validate_ofSchema schema]

end

/-! ## What closing keeps -/

mutual

/-- Nowhere in the schema is `additionalProperties` true. -/
def Schema.tight : Schema → Bool
  | .node _ anyOf items properties additional =>
      (match anyOf with
        | some schemas => allTight schemas
        | none => true) &&
        (match items with
          | some schema => schema.tight
          | none => true) &&
        (match properties with
          | some properties => propertiesTight properties
          | none => true) &&
        (match additional with
          | .absent | .closed => true
          | .loose => false
          | .each schema => schema.tight)

def allTight : List Schema → Bool
  | [] => true
  | schema :: schemas => schema.tight && allTight schemas

def propertiesTight : List (Utf16 × Schema) → Bool
  | [] => true
  | (_, schema) :: properties => schema.tight && propertiesTight properties

end

/-- An object that a list of properties governs holds a key that is not listed; the object stands
in the value where `properties`, `items`, `additionalProperties` and `anyOf` lead to. -/
inductive Stray : Schema → Subject → Prop where
  | here {keywords : Keywords} {items : Option Schema} {listed : List (Utf16 × Schema)}
      {subject : Subject} {key : Utf16} (holds : key ∈ subject.keys)
      (stray : key ∉ listed.map Prod.fst) :
      Stray (.node keywords none items (some listed) .absent) subject
  | item {keywords : Keywords} {schema : Schema}
      {properties : Option (List (Utf16 × Schema))} {additional : Additional Schema}
      {items : List Json} {item : Json} (inside : item ∈ items)
      (later : Stray schema (.json item)) :
      Stray (.node keywords none (some schema) properties additional) (.json (.array items))
  | property {keywords : Keywords} {items : Option Schema} {listed : List (Utf16 × Schema)}
      {additional : Additional Schema} {name : Utf16} {schema : Schema} {subject item : Subject}
      (inside : (name, schema) ∈ listed) (holds : subject.read name = some item)
      (later : Stray schema item) :
      Stray (.node keywords none items (some listed) additional) subject
  | mapped {keywords : Keywords} {items : Option Schema}
      {properties : Option (List (Utf16 × Schema))} {schema : Schema} {subject item : Subject}
      {key : Utf16} (unlisted : key ∈ unlisted (namesOf properties) subject)
      (holds : subject.read key = some item) (later : Stray schema item) :
      Stray (.node keywords none items properties (.each schema)) subject
  | alternative {keywords : Keywords} {schemas : List Schema} {items : Option Schema}
      {properties : Option (List (Utf16 × Schema))} {additional : Additional Schema}
      {schema : Schema} {subject : Subject} (inside : schema ∈ schemas)
      (later : Stray schema subject) :
      Stray (.node keywords (some schemas) items properties additional) subject

section Closing

variable {keywords : Keywords} {anyOf : Option (List Schema)} {items : Option Schema}
variable {properties : Option (List (Utf16 × Schema))} {additional : Additional Schema}
variable {subject : Subject} {path : Utf16}

theorem strict_strict (schema : Schema) : schema.strict.strict = schema.strict := by
  induction schema using Schema.induction with
  | node keywords anyOf items properties additional ofAnyOf ofItems ofProperties ofEach =>
      simp only [strict_node, Option.map_map, Option.isSome_map]
      congr 1
      · cases anyOf with
        | none => rfl
        | some schemas => simpa using ofAnyOf schemas rfl
      · cases items with
        | none => rfl
        | some schema => simpa using ofItems schema rfl
      · cases properties with
        | none => rfl
        | some listed => simpa using ofProperties listed rfl
      · cases additional with
        | each schema => simp [Additional.map, Additional.close, ofEach schema rfl]
        | absent => cases properties <;> rfl
        | closed | loose => rfl

theorem allTight_iff {schemas : List Schema} :
    allTight schemas = true ↔ ∀ schema ∈ schemas, schema.tight = true := by
  induction schemas with
  | nil => simp [allTight]
  | cons schema schemas ih => simp [allTight, ih]

/-- The entries of a list of properties are its first and the later ones. -/
theorem forall_entries_cons {holds : Utf16 → Schema → Prop} {entry : Utf16 × Schema}
    {listed : List (Utf16 × Schema)} :
    (∀ name schema, (name, schema) ∈ entry :: listed → holds name schema) ↔
      holds entry.1 entry.2 ∧ ∀ name schema, (name, schema) ∈ listed → holds name schema := by
  obtain ⟨name, schema⟩ := entry
  simp only [List.mem_cons, Prod.mk.injEq]
  constructor
  · intro all
    exact ⟨all name schema (.inl ⟨rfl, rfl⟩), fun name schema inside =>
      all name schema (.inr inside)⟩
  · rintro ⟨first, later⟩ name' schema' (⟨rfl, rfl⟩ | inside)
    · exact first
    · exact later name' schema' inside

theorem propertiesTight_iff {listed : List (Utf16 × Schema)} :
    propertiesTight listed = true ↔
      ∀ name schema, (name, schema) ∈ listed → schema.tight = true := by
  induction listed with
  | nil => simp [propertiesTight]
  | cons entry listed ih =>
      simp only [propertiesTight, Bool.and_eq_true, ih, forall_entries_cons]

theorem tight_iff : (Schema.node keywords anyOf items properties additional).tight = true ↔
    (∀ schemas, anyOf = some schemas → ∀ schema ∈ schemas, schema.tight = true) ∧
    (∀ schema, items = some schema → schema.tight = true) ∧
    (∀ listed, properties = some listed → ∀ name schema, (name, schema) ∈ listed →
      schema.tight = true) ∧
    additional ≠ .loose ∧ ∀ schema, additional = .each schema → schema.tight = true := by
  cases anyOf <;> cases items <;> cases properties <;> cases additional <;>
    simp [Schema.tight, allTight_iff, propertiesTight_iff, and_assoc]

theorem looseProperties_nil_iff {listed : List (Utf16 × Schema)} :
    looseProperties listed path = [] ↔ ∀ name schema, (name, schema) ∈ listed →
      findLooseObjects schema (path ++ ofString "." ++ name) = [] := by
  induction listed with
  | nil => simp [looseProperties]
  | cons entry listed ih =>
      simp only [looseProperties, List.append_eq_nil_iff, ih, forall_entries_cons]

theorem looseAlternatives_nil_iff {schemas : List Schema} :
    looseAlternatives schemas path = [] ↔
      ∀ schema ∈ schemas, findLooseObjects schema path = [] := by
  induction schemas with
  | nil => simp [looseAlternatives]
  | cons schema schemas ih => simp [looseAlternatives, ih]

/-- Nothing is loose in a schema that is closed where it lists properties, and in whose schemas
nothing is. -/
theorem findLooseObjects_nil_iff :
    findLooseObjects (.node keywords anyOf items properties additional) path = [] ↔
      (properties.isSome = true → additional.bounds = true) ∧
      (∀ listed, properties = some listed → ∀ name schema, (name, schema) ∈ listed →
        findLooseObjects schema (path ++ ofString "." ++ name) = []) ∧
      (∀ schema, items = some schema → findLooseObjects schema (path ++ ofString "[]") = []) ∧
      (∀ schema, additional = .each schema →
        findLooseObjects schema (path ++ ofString ".*") = []) ∧
      ∀ schemas, anyOf = some schemas → ∀ schema ∈ schemas,
        findLooseObjects schema path = [] := by
  cases anyOf <;> cases items <;> cases properties <;> cases additional <;>
    simp [findLooseObjects, looseProperties_nil_iff, looseAlternatives_nil_iff, Additional.bounds]

/-- A schema that is nowhere loose by what it says is closed everywhere by `strictify`. -/
theorem findLooseObjects_strict (schema : Schema) (tight : schema.tight = true) (path : Utf16) :
    findLooseObjects schema.strict path = [] := by
  induction schema using Schema.induction generalizing path with
  | node keywords anyOf items properties additional ofAnyOf ofItems ofProperties ofEach =>
      obtain ⟨tightAnyOf, tightItems, tightProperties, said, tightEach⟩ := tight_iff.1 tight
      rw [strict_node, findLooseObjects_nil_iff]
      refine ⟨?_, ?_, ?_, ?_, ?_⟩
      · intro listed
        rw [Option.isSome_map] at listed
        rw [listed]
        cases additional with
        | loose => exact absurd rfl said
        | absent | closed | each => rfl
      · intro listed same name schema inside
        obtain ⟨old, rfl, rfl⟩ := Option.map_eq_some_iff.1 same
        obtain ⟨⟨name', before⟩, there, equal⟩ := List.mem_map.1 inside
        cases equal
        exact ofProperties old rfl _ before there (tightProperties old rfl _ before there) _
      · intro schema same
        obtain ⟨old, rfl, rfl⟩ := Option.map_eq_some_iff.1 same
        exact ofItems old rfl (tightItems old rfl) _
      · intro schema same
        cases additional with
        | each old =>
            cases same
            exact ofEach old rfl (tightEach old rfl) _
        | absent =>
            cases properties <;> cases same
        | closed | loose => cases same
      · intro schemas same schema inside
        obtain ⟨old, rfl, rfl⟩ := Option.map_eq_some_iff.1 same
        obtain ⟨before, there, rfl⟩ := List.mem_map.1 inside
        exact ofAnyOf old rfl before there (tightAnyOf old rfl before there) path

/-! ## What is accepted -/

theorem validateAny_iff {schemas : List Schema} :
    validateAny schemas subject path = true ↔
      ∃ schema ∈ schemas, validate schema subject path = [] := by
  induction schemas with
  | nil => simp [validateAny]
  | cons schema schemas ih => simp [validateAny, ih]

theorem memberErrors_nil_iff {find : Subject → Utf16 → List Utf16} {name : Utf16} :
    memberErrors find subject path name = [] ↔ ∀ item, subject.read name = some item →
      find item (path ++ ofString "." ++ name) = [] := by
  unfold memberErrors
  cases subject.read name <;> simp

theorem itemErrors_nil_iff {find : Subject → Utf16 → List Utf16} :
    itemErrors find subject path = [] ↔ ∀ list, subject.array? = some list →
      ∀ item index, (item, index) ∈ list.zipIdx → find (.json item) (itemPath path index) = [] := by
  rw [itemErrors, List.flatMap_eq_nil_iff]
  cases subject.array? with
  | none => simp
  | some list =>
      constructor
      · rintro all _ ⟨⟩ item index inside
        exact all (item, index) inside
      · rintro all ⟨item, index⟩ inside
        exact all list rfl item index inside

theorem validateProperties_nil_iff {listed : List (Utf16 × Schema)} :
    validateProperties listed subject path = [] ↔ ∀ name schema, (name, schema) ∈ listed →
      ∀ item, subject.read name = some item →
        validate schema item (path ++ ofString "." ++ name) = [] := by
  induction listed with
  | nil => simp [validateProperties]
  | cons entry listed ih =>
      simp only [validateProperties, List.append_eq_nil_iff, memberErrors_nil_iff, ih,
        forall_entries_cons]

/-- What is accepted by a schema with alternatives. -/
theorem validate_anyOf_iff {schemas : List Schema} :
    validate (.node keywords (some schemas) items properties additional) subject path = [] ↔
      (keywords.nullable && subject.isNull) = true ∨
        ∃ schema ∈ schemas, validate schema subject path = [] := by
  rw [← validateAny_iff]
  cases null : keywords.nullable && subject.isNull with
  | true => simp [validate, null]
  | false =>
      cases any : validateAny schemas subject path <;> simp [validate, null, any]

/-- What the schemas in a schema without alternatives, and the list of its properties, accept. -/
@[mk_iff]
structure Inside (items : Option Schema) (properties : Option (List (Utf16 × Schema)))
    (additional : Additional Schema) (subject : Subject) (path : Utf16) : Prop where
  ofItems : ∀ schema, items = some schema → ∀ list, subject.array? = some list →
    ∀ item index, (item, index) ∈ list.zipIdx →
      validate schema (.json item) (itemPath path index) = []
  ofProperties : ∀ listed, properties = some listed → ∀ name schema, (name, schema) ∈ listed →
    ∀ item, subject.read name = some item → validate schema item (path ++ ofString "." ++ name) = []
  ofClosed : additional = .closed → unlisted (namesOf properties) subject = []
  ofEach : ∀ schema, additional = .each schema → ∀ key ∈ unlisted (namesOf properties) subject,
    ∀ item, subject.read key = some item → validate schema item (path ++ ofString "." ++ key) = []

/-- What is accepted by a schema without alternatives. -/
theorem validate_plain_iff :
    validate (.node keywords none items properties additional) subject path = [] ↔
      (keywords.nullable && subject.isNull) = true ∨
        keywords.refuse subject path = none ∧ keywords.find subject path = [] ∧
          Inside items properties additional subject path := by
  have items' : (items.elim [] fun schema => itemErrors (validate schema) subject path) = [] ↔
      ∀ schema, items = some schema → ∀ list, subject.array? = some list →
        ∀ item index, (item, index) ∈ list.zipIdx →
          validate schema (.json item) (itemPath path index) = [] := by
    cases items <;> simp [itemErrors_nil_iff]
  have properties' : (properties.elim [] fun listed => validateProperties listed subject path) =
      [] ↔ ∀ listed, properties = some listed → ∀ name schema, (name, schema) ∈ listed →
        ∀ item, subject.read name = some item →
          validate schema item (path ++ ofString "." ++ name) = [] := by
    cases properties <;> simp [validateProperties_nil_iff]
  have additional' : additionalErrors (additional.map validate)
        (unlisted (namesOf properties) subject) subject path = [] ↔
      (additional = .closed → unlisted (namesOf properties) subject = []) ∧
      ∀ schema, additional = .each schema → ∀ key ∈ unlisted (namesOf properties) subject,
        ∀ item, subject.read key = some item →
          validate schema item (path ++ ofString "." ++ key) = [] := by
    cases additional <;> simp [additionalErrors, Additional.map, memberErrors_nil_iff]
  rw [validate_plain, inside_iff, ← items', ← properties', ← additional']
  cases keywords.nullable && subject.isNull <;> cases keywords.refuse subject path <;> simp

theorem namesOf_strict : namesOf (properties.map fun listed =>
    listed.map fun entry => (entry.1, entry.2.strict)) = namesOf properties := by
  cases properties with
  | none => rfl
  | some listed => simp [namesOf, Function.comp_def]

theorem of_mem_unlisted {names : List Utf16} {key : Utf16} (inside : key ∈ unlisted names subject) :
    key ∈ subject.keys ∧ key ∉ names := by
  obtain ⟨holds, apart⟩ := List.mem_filter.1 inside
  simp only [Bool.not_or, Bool.and_eq_true, Bool.not_eq_true', List.contains_eq_mem,
    decide_eq_false_iff_not] at apart
  exact ⟨holds, apart.1⟩

/-- What the closed schema accepts the schema accepts. -/
theorem validate_of_strict (schema : Schema) {subject : Subject} {path : Utf16}
    (accepted : validate schema.strict subject path = []) : validate schema subject path = [] := by
  induction schema using Schema.induction generalizing subject path with
  | node keywords anyOf items properties additional ofAnyOf ofItems ofProperties ofEach =>
      rw [strict_node] at accepted
      cases anyOf with
      | some schemas =>
          rw [Option.map_some, validate_anyOf_iff] at accepted
          rw [validate_anyOf_iff]
          refine accepted.imp_right ?_
          rintro ⟨schema, inside, accepted⟩
          obtain ⟨old, there, rfl⟩ := List.mem_map.1 inside
          exact ⟨old, there, ofAnyOf schemas rfl old there accepted⟩
      | none =>
          rw [Option.map_none, validate_plain_iff] at accepted
          rw [validate_plain_iff]
          refine accepted.imp_right fun ⟨refused, found, inside⟩ => ⟨refused, found, ?_⟩
          constructor
          · rintro schema rfl list same item index at'
            exact ofItems schema rfl (inside.ofItems schema.strict rfl list same item index at')
          · rintro listed rfl name schema at' item same
            exact ofProperties listed rfl name schema at' (inside.ofProperties _ rfl name
              schema.strict (List.mem_map_of_mem (f := fun entry => (entry.1, entry.2.strict)) at')
              item same)
          · rintro rfl
            exact namesOf_strict ▸ inside.ofClosed rfl
          · rintro schema rfl key at' item same
            exact ofEach schema rfl (inside.ofEach schema.strict rfl key
              (namesOf_strict.symm ▸ at') item same)

/-- What the schema accepts and the closed schema does not has an object with a key that a list
of properties does not name. -/
theorem stray_of_strict (schema : Schema) {subject : Subject} {path : Utf16}
    (accepted : validate schema subject path = [])
    (rejected : validate schema.strict subject path ≠ []) : Stray schema subject := by
  induction schema using Schema.induction generalizing subject path with
  | node keywords anyOf items properties additional ofAnyOf ofItems ofProperties ofEach =>
      rw [strict_node] at rejected
      cases anyOf with
      | some schemas =>
          rw [validate_anyOf_iff] at accepted
          rw [Option.map_some, ne_eq, validate_anyOf_iff, not_or, not_exists] at rejected
          obtain ⟨schema, inside, accepted⟩ := accepted.resolve_left rejected.1
          have rejected := not_and.1 (rejected.2 schema.strict) (List.mem_map_of_mem inside)
          exact .alternative inside (ofAnyOf schemas rfl schema inside accepted rejected)
      | none =>
          rw [validate_plain_iff] at accepted
          rw [Option.map_none, ne_eq, validate_plain_iff, not_or] at rejected
          obtain ⟨refused, found, inside⟩ := accepted.resolve_left rejected.1
          by_contra calm
          refine rejected.2 ⟨refused, found, ?_⟩
          constructor
          · rintro _ same list array item index at'
            obtain ⟨schema, rfl, rfl⟩ := Option.map_eq_some_iff.1 same
            by_contra wrong
            have accepted := inside.ofItems schema rfl list array item index at'
            have stray := ofItems schema rfl accepted wrong
            cases subject with
            | inherited => cases array
            | json value =>
                cases value with
                | array list' =>
                    cases array
                    exact calm (.item (List.fst_mem_of_mem_zipIdx at') stray)
                | null | bool | number | string | object => cases array
          · rintro _ same name _ at' item read
            obtain ⟨listed, rfl, rfl⟩ := Option.map_eq_some_iff.1 same
            obtain ⟨⟨_, schema⟩, there, ⟨⟩⟩ := List.mem_map.1 at'
            by_contra wrong
            have accepted := inside.ofProperties listed rfl _ schema there item read
            have stray := ofProperties listed rfl _ schema there accepted wrong
            exact calm (.property there read stray)
          · intro closes
            rw [namesOf_strict]
            cases additional with
            | closed => exact inside.ofClosed rfl
            | absent =>
                cases properties with
                | none => cases closes
                | some listed =>
                    by_contra some'
                    obtain ⟨key, at'⟩ := List.exists_mem_of_ne_nil _ some'
                    have ⟨holds, apart⟩ := of_mem_unlisted at'
                    exact calm (.here holds apart)
            | loose | each => cases closes
          · rintro _ same key at' item read
            rw [namesOf_strict] at at'
            cases additional with
            | each schema =>
                cases same
                by_contra wrong
                have accepted := inside.ofEach schema rfl key at' item read
                exact calm (.mapped at' read (ofEach schema rfl accepted wrong))
            | absent => cases properties <;> cases same
            | closed | loose => cases same

end Closing

/-- `strictify` only closes, and closes everywhere: for a schema that nowhere sets
`additionalProperties` to true, no object of the closed schema is loose, closing it again changes
nothing, what it accepts the schema accepts, and what only the schema accepts has an object with
a key that its list of properties does not name. -/
theorem strictify_tightens (schema : Schema) (tight : schema.tight = true) :
    strictify schema.toJson = schema.strict.toJson ∧
    (∀ path, findLooseObjects schema.strict path = []) ∧
    strictify (strictify schema.toJson) = strictify schema.toJson ∧
    schema.strict.strict = schema.strict ∧
    ∀ value, (check value schema.strict = [] → check value schema = []) ∧
      (check value schema = [] → check value schema.strict ≠ [] → Stray schema (.json value)) := by
  refine ⟨strictify_toJson schema, findLooseObjects_strict schema tight, ?_,
    strict_strict schema, fun value => ⟨validate_of_strict schema, stray_of_strict schema⟩⟩
  rw [strictify_toJson, strictify_toJson, strict_strict]

/-- An object with a property that is named as a keyword is. -/
def named : Schema :=
  .node {} none none (some [(propertiesKey, .node {} none none (some []) .absent)]) .absent

theorem strictify_tightens_named : strictify named.toJson = named.strict.toJson ∧
    (∀ path, findLooseObjects named.strict path = []) :=
  ⟨(strictify_tightens named (by decide +kernel)).1,
    (strictify_tightens named (by decide +kernel)).2.1⟩

end Strictify

end TitanRunner
