import TitanRunner.Lib.JsonProper
import TitanRunner.Research.DailyResearch
import TitanRunner.State.DateTime

/-!
# The research files and their strict schemas

What an attempt must find, and be told, for the two files it writes to pass the strict check of the
state folder.
-/

namespace TitanRunner

namespace Research

open Utf16 Redact StateSchema QueueFile StrictSchema Validate

/-! ## What scrubbing leaves of a value -/

section Walk

variable {depth depth' max : Nat} {value : Json} {path : Utf16}

theorem walk_null_iff : walk depth value = .null ↔ value = .null := by
  cases value with
  | null => simp [walk]
  | bool | number | string => simp [walk]
  | array | object =>
      rw [walk]
      split <;> simp

theorem walk_string_iff (shallow : depth < maxDepth) {text : Utf16} :
    walk depth value = .string text ↔
      ∃ content, value = .string content ∧ redactString content = text := by
  cases value with
  | string content => simp [walk]
  | null | bool | number => simp [walk]
  | array | object => simp [walk, Nat.not_le.2 shallow]

theorem walkItems_eq_map (items : List Json) : walkItems depth items = items.map (walk depth) := by
  induction items with
  | nil => rfl
  | cons item items ih => rw [walkItems, ih, List.map_cons]

theorem walk_array_iff (shallow : depth < maxDepth) {items : List Json} :
    walk depth value = .array items ↔
      ∃ content, value = .array content ∧ content.map (walk (depth + 1)) = items := by
  cases value with
  | array content => simp [walk, Nat.not_le.2 shallow, walkItems_eq_map]
  | null | bool | number | string => simp [walk]
  | object => simp [walk, Nat.not_le.2 shallow]

theorem integer?_walk : (walk depth value).integer? = value.integer? := by
  cases value with
  | null | bool | number | string => simp only [walk, Json.integer?]
  | array | object =>
      rw [walk]
      split <;> simp only [Json.integer?]

/-- A text that is short enough as it is stored. -/
def Fits (max : Nat) (value : Json) : Prop :=
  ∃ text, value = .string text ∧ (stored text).length ≤ max

/-- A list of them that is short enough. -/
def AllFit (max : Nat) (value : Json) : Prop :=
  ∃ items, value = .array items ∧ items.length ≤ 500 ∧ ∀ item ∈ items, Fits max item

theorem exists_walk_iff (shallow : depth < maxDepth) (shallow' : depth' < maxDepth) :
    (∃ text, walk depth (walk depth' value) = .string text ∧ text.length ≤ max) ↔
      Fits max value := by
  simp only [walk_string_iff shallow, walk_string_iff shallow', Fits, stored]
  constructor
  · rintro ⟨_, ⟨_, ⟨text, same, rfl⟩, rfl⟩, short⟩
    exact ⟨text, same, short⟩
  · rintro ⟨text, same, short⟩
    exact ⟨_, ⟨_, ⟨text, same, rfl⟩, rfl⟩, short⟩

theorem str_walk_iff (shallow : depth < maxDepth) (shallow' : depth' < maxDepth) :
    validate (str max) (.json (walk depth (walk depth' value))) path = [] ↔ Fits max value :=
  str_nil_iff.trans (exists_walk_iff shallow shallow')

theorem nstr_walk_iff (shallow : depth < maxDepth) (shallow' : depth' < maxDepth) :
    validate (nstr max) (.json (walk depth (walk depth' value))) path = [] ↔
      value = .null ∨ Fits max value := by
  rw [nstr_nil_iff, exists_walk_iff shallow shallow', walk_null_iff, walk_null_iff]

theorem int_walk_iff :
    validate int (.json (walk depth (walk depth' value))) path = [] ↔
      value.integer?.isSome = true := by
  rw [int_nil_iff, integer?_walk, integer?_walk]

theorem anyStr_walk_iff (shallow : depth + 1 < maxDepth) (shallow' : depth' + 1 < maxDepth) :
    validate (anyStr max) (.json (walk depth (walk depth' value))) path = [] ↔
      AllFit max value := by
  rw [anyStr_nil_iff, AllFit]
  simp only [walk_array_iff (Nat.lt_of_succ_lt shallow),
    walk_array_iff (Nat.lt_of_succ_lt shallow')]
  constructor
  · rintro ⟨_, ⟨_, ⟨items, rfl, rfl⟩, rfl⟩, short, all⟩
    refine ⟨items, rfl, by simpa using short, fun item inside => ?_⟩
    exact (exists_walk_iff shallow shallow').1
      (all _ (List.mem_map_of_mem (List.mem_map_of_mem inside)))
  · rintro ⟨items, rfl, short, all⟩
    refine ⟨_, ⟨_, ⟨items, rfl, rfl⟩, rfl⟩, by simpa using short, ?_⟩
    simp only [List.forall_mem_map]
    exact fun item inside => (exists_walk_iff shallow shallow').2 (all item inside)

end Walk

/-! ## Dates -/

/-- A text without addresses, no longer than so much. -/
def Short (max : Nat) (text : Utf16) : Prop := text.length ≤ max ∧ atSign ∉ text

theorem Short.append {max max' : Nat} {text text' : Utf16} (short : Short max text)
    (short' : Short max' text') : Short (max + max') (text ++ text') := by
  refine ⟨?_, fun inside => (List.mem_append.1 inside).elim short.2 short'.2⟩
  rw [List.length_append]
  exact Nat.add_le_add short.1 short'.1

theorem Short.fits {max bound : Nat} {text : Utf16} (short : Short max text) (le : max ≤ bound) :
    Fits bound (.string text) :=
  ⟨text, rfl, (length_stored_le_of_not_mem short.2).trans (short.1.trans le)⟩

theorem short_padded (width number : Nat) :
    Short width ((IsoDate.padded width number).flatMap units) := by
  obtain ⟨digits, length⟩ := isDigits_padded width number
  refine ⟨length.le, fun inside => ?_⟩
  have digit := digits _ inside
  revert digit
  decide

theorem short_at (attempt : Attempt) : Short 27 attempt.at' := by
  obtain ⟨month, day, same⟩ := ofString_toISOString attempt.now
  have year : Short 7 ((IsoDate.yearText (IsoDate.yearOf attempt.now)).flatMap units) := by
    rw [IsoDate.yearText]
    split
    next => exact ⟨(short_padded 4 _).1.trans (by decide), (short_padded 4 _).2⟩
    next =>
      rw [List.flatMap_cons]
      have sign : Short 1 (units (if IsoDate.yearOf attempt.now < 0 then '-' else '+')) := by
        split <;> exact ⟨by decide, by decide⟩
      exact sign.append (short_padded 6 _)
  have rest :
      Short 20 ((afterYear month day (attempt.now % IsoDate.msPerDay)).flatMap Prod.snd) := by
    have mark (string : String) (one : (ofString string).length = 1 ∧ atSign ∉ ofString string) :
        Short 1 (ofString string) := ⟨one.1.le, one.2⟩
    have marks : Short 1 (ofString "-") ∧ Short 1 (ofString "T") ∧ Short 1 (ofString ":") ∧
        Short 1 (ofString ".") ∧ Short 1 (ofString "Z") :=
      ⟨mark "-" (by decide), mark "T" (by decide), mark ":" (by decide), mark "." (by decide),
        mark "Z" (by decide)⟩
    obtain ⟨dash, letter, colon, point, zone⟩ := marks
    simp only [afterYear, List.flatMap_cons, List.flatMap_nil, List.append_nil]
    exact dash.append <| (short_padded 2 _).append <| dash.append <| (short_padded 2 _).append <|
      letter.append <| (short_padded 2 _).append <| colon.append <| (short_padded 2 _).append <|
      colon.append <| (short_padded 2 _).append <| (point.append (short_padded 3 _)).append zone
  rw [Attempt.at', same]
  exact year.append rest

theorem short_date (attempt : Attempt) : Short 10 attempt.date :=
  ⟨List.length_take_le _ _, fun inside => (short_at attempt).2 (List.mem_of_mem_take inside)⟩

theorem date_ne_nil (attempt : Attempt) : attempt.date ≠ [] := by
  obtain ⟨month, day, same⟩ := ofString_toISOString attempt.now
  have dash : ofString "-" ≠ [] := by decide
  rw [Attempt.date, ne_eq, List.take_eq_nil_iff, Attempt.at', same]
  simp [afterYear, dash]

theorem short_digestPath (attempt : Attempt) : Short 36 attempt.digestPath := by
  have first : Short 14 (ofString "state/digests/") := ⟨by decide, by decide⟩
  have last : Short 12 (ofString "-research.md") := ⟨by decide, by decide⟩
  exact first.append ((short_date attempt).append last)

/-! ## The record that is written -/

section Record

variable {members : List (Utf16 × Json)}

theorem own_inherited : ∀ property ∈ researchProperties ++ viewProperties ++ digestProperties,
    Inherited.isInherited (ofString property.1) = false := by decide

theorem member_own {name : Utf16} (differ : name ≠ Inherited.proto) :
    (Json.object (own members)).member name = (Json.object members).member name := by
  simp only [Json.member, own, ← List.filter_reverse, List.find?_filter]
  congr 2
  funext member
  by_cases same : member.1 = name
  · simp [same, differ]
  · simp [same]

theorem member_walkMembers (depth : Nat) (name : Utf16) :
    (Json.object (walkMembers depth members)).member name =
      ((Json.object members).member name).map (walk depth) := by
  rw [walkMembers_eq_map]
  simp only [Json.member, ← List.map_reverse, List.find?_map, Option.map_map]
  rfl

/-- Of the prototype nothing is seen where none is set. -/
theorem prototypeHas_none {name : Utf16} (unset : Inherited.proto ∉ members.map Prod.fst) :
    prototypeHas name members = none := by
  induction members with
  | nil => rfl
  | cons member members ih =>
      obtain ⟨key, value⟩ := member
      rw [List.map_cons, List.mem_cons, not_or] at unset
      rw [prototypeHas, if_neg (by simpa using unset.2), if_neg (Ne.symm unset.1)]

/-- A record with a whole digest, which both files have room for. -/
structure HoldsDigest (members : List (Utf16 × Json)) : Prop where
  lastDigestDate : ∃ text,
    (Json.object members).member (ofString "lastDigestDate") = some (.string text) ∧ text ≠ [] ∧
      Fits 20 (.string text)
  digest : ∀ field ∈ [("lastDigestFile", 200), ("provider", 80), ("model", 200), ("preview", 2000)],
    ∃ value, (Json.object members).member (ofString field.1) = some value ∧ Fits field.2 value
  topicIds : ∀ value, (Json.object members).member (ofString "topicIds") = some value →
    AllFit 80 value
  lastDetail : ∀ value, (Json.object members).member (ofString "lastDetail") = some value →
    value = .null ∨ Fits 2000 value

theorem HoldsDigest.congr {others : List (Utf16 × Json)}
    (same : ∀ name ∈ ["lastDigestDate", "lastDigestFile", "provider", "model", "preview",
      "topicIds", "lastDetail"], (Json.object members).member (ofString name) =
        (Json.object others).member (ofString name))
    (holds : HoldsDigest members) : HoldsDigest others := by
  obtain ⟨date, digest, topicIds, detail⟩ := holds
  rw [same "lastDigestDate" (by simp)] at date
  rw [same "topicIds" (by simp)] at topicIds
  rw [same "lastDetail" (by simp)] at detail
  refine ⟨date, fun field listed => ?_, topicIds, detail⟩
  have among : field.1 ∈ ["lastDigestDate", "lastDigestFile", "provider", "model", "preview",
      "topicIds", "lastDetail"] := by
    have names : [("lastDigestFile", 200), ("provider", 80), ("model", 200), ("preview", 2000)].map
        Prod.fst ⊆ ["lastDigestDate", "lastDigestFile", "provider", "model", "preview", "topicIds",
          "lastDetail"] := by decide
    exact names (List.mem_map_of_mem listed)
  rw [← same field.1 among]
  exact digest field listed

/-- A key that the strict check lets pass. -/
def Listed (key : Utf16) : Prop :=
  key ∈ researchProperties.map (fun property => ofString property.1) ∨
    Inherited.isInherited key = true

/-- A record that passes in both files. -/
structure InOrder (members : List (Utf16 × Json)) : Prop extends HoldsDigest members where
  listed : ∀ key ∈ members.map Prod.fst, Listed key
  version : ∃ value, (Json.object members).member (ofString "version") = some value ∧
    value.integer?.isSome = true
  lastAttemptAt : ∃ value, (Json.object members).member (ofString "lastAttemptAt") = some value ∧
    (value = .null ∨ Fits 40 value)
  lastStatus : ∃ value, (Json.object members).member (ofString "lastStatus") = some value ∧
    Fits 60 value
  lastReason : ∃ value, (Json.object members).member (ofString "lastReason") = some value ∧
    (value = .null ∨ Fits 500 value)

/-- The file, apart from what `__proto__` sets. -/
def fileOf (members : List (Utf16 × Json)) : Json :=
  scrubForState (.object (own (walkMembers 1 members)))

theorem member_fileOf {name : Utf16} (differ : name ≠ Inherited.proto) :
    (fileOf members).member name = ((Json.object members).member name).map (walk 1 ∘ walk 1) := by
  rw [fileOf, member_scrubForState, member_own differ, member_walkMembers, Option.map_map]

theorem fileOf_nil_iff : check (fileOf members) research = [] ↔
    (∀ property ∈ researchProperties, property.1 ∉ ["lastDigestDate", "lastDigestFile", "provider",
        "model", "topicIds", "preview", "lastDetail"] →
      ((Json.object members).member (ofString property.1)).isSome = true) ∧
    (∀ property ∈ researchProperties, ∀ value,
      (Json.object members).member (ofString property.1) = some value →
        validate property.2 (.json (walk 1 (walk 1 value)))
          (ofString "$" ++ ofString "." ++ ofString property.1) = []) ∧
    ∀ key ∈ members.map Prod.fst, Listed key := by
  have own' : ∀ property ∈ researchProperties,
      Inherited.isInherited (ofString property.1) = false := fun property listed =>
    own_inherited property (List.mem_append_left _ (List.mem_append_left _ listed))
  have member (property : String × Schema) (listed : property ∈ researchProperties) :
      (fileOf members).member (ofString property.1) =
        ((Json.object members).member (ofString property.1)).map (walk 1 ∘ walk 1) :=
    member_fileOf fun same => by
      have none' := own' property listed
      rw [same] at none'
      revert none'
      decide
  have shape : fileOf members = .object (walkMembers 1 (own (walkMembers 1 members))) := rfl
  have keys : (walkMembers 1 (own (walkMembers 1 members))).map Prod.fst =
      (members.map Prod.fst).filter fun key => key != Inherited.proto := by
    simp only [walkMembers_eq_map, own, List.map_map, List.filter_map]
    rfl
  have proto : Inherited.isInherited Inherited.proto = true := by decide
  rw [check, research, obj_nil_iff own', shape]
  simp only [Json.object.injEq, exists_eq_left', keys, List.mem_filter, and_imp]
  simp only [← shape]
  refine and_congr ?_ (and_congr ?_ ?_)
  · refine forall₃_congr fun property listed _ => ?_
    rw [HasOwn, member property listed, Option.isSome_map]
  · refine forall₂_congr fun property listed => ?_
    rw [member property listed]
    simp
  · refine forall₂_congr fun key _ => ?_
    rw [Listed]
    by_cases same : key = Inherited.proto
    · simp [same, proto]
    · simp [same]

section View

variable (unset : Inherited.proto ∉ members.map Prod.fst)

include unset

theorem plain_walk {name : Utf16} (differ : name ≠ Inherited.proto) :
    plain (walkMembers 1 members) name = ((Json.object members).member name).map (walk 1) := by
  have keys : (walkMembers 1 members).map Prod.fst = members.map Prod.fst := by
    rw [walkMembers_eq_map, List.map_map]
    rfl
  rw [plain, member_own differ, prototypeHas_none (keys ▸ unset), Option.or_none,
    member_walkMembers]

/-- What is in the record is shown, and otherwise what stands for it. -/
theorem orElse_cases {name : String} (differ : ofString name ≠ Inherited.proto) (otherwise : Json) :
    (∃ value, (Json.object members).member (ofString name) = some value ∧ value ≠ .null ∧
      orElse (walkMembers 1 members) name otherwise = walk 1 value) ∨
    ((∀ value, (Json.object members).member (ofString name) = some value → value = .null) ∧
      orElse (walkMembers 1 members) name otherwise = otherwise) := by
  rw [orElse, plain_walk unset differ]
  cases (Json.object members).member (ofString name) with
  | none => simp
  | some value =>
      by_cases null : value = .null
      · subst null
        simp [walk]
      · left
        refine ⟨value, rfl, null, ?_⟩
        cases walked : walk 1 value with
        | null => exact absurd (walk_null_iff.1 walked) null
        | bool | number | string | array | object => simp [walked]

theorem str_orElse_iff {name : String} (differ : ofString name ≠ Inherited.proto) {depth max : Nat}
    (shallow : depth < maxDepth) {path : Utf16} :
    validate (str max) (.json (walk depth (orElse (walkMembers 1 members) name .null))) path = [] ↔
      ∃ value, (Json.object members).member (ofString name) = some value ∧ Fits max value := by
  rcases orElse_cases unset differ .null with ⟨value, found, _, same⟩ | ⟨none', same⟩
  · rw [same, str_walk_iff shallow (by decide), found]
    simp
  · rw [same, walk, str_nil_iff]
    constructor
    · rintro ⟨_, null, _⟩
      contradiction
    · rintro ⟨value, found, _, text, _⟩
      rw [none' value found] at text
      contradiction

theorem nstr_orElse_iff {name : String} (differ : ofString name ≠ Inherited.proto) {depth max : Nat}
    (shallow : depth < maxDepth) {path : Utf16} :
    validate (nstr max) (.json (walk depth (orElse (walkMembers 1 members) name .null))) path = [] ↔
      ∀ value, (Json.object members).member (ofString name) = some value →
        value = .null ∨ Fits max value := by
  rcases orElse_cases unset differ .null with ⟨value, found, _, same⟩ | ⟨none', same⟩
  · rw [same, nstr_walk_iff shallow (by decide), found]
    simp
  · rw [same, walk, nstr_nil_iff]
    simp only [true_or, true_iff]
    exact fun value found => .inl (none' value found)

theorem anyStr_orElse_iff {name : String} (differ : ofString name ≠ Inherited.proto)
    {depth max : Nat} (shallow : depth + 1 < maxDepth) {path : Utf16} :
    validate (anyStr max) (.json (walk depth (orElse (walkMembers 1 members) name (.array []))))
        path = [] ↔
      ∀ value, (Json.object members).member (ofString name) = some value →
        value = .null ∨ AllFit max value := by
  rcases orElse_cases unset differ (.array []) with ⟨value, found, some', same⟩ | ⟨none', same⟩
  · rw [same, anyStr_walk_iff shallow (by decide), found]
    simp [some']
  · have empty : walk depth (.array []) = .array [] := by
      rw [walk, if_neg (by omega), walkItems]
    rw [same, empty, anyStr_nil_iff]
    simp only [Json.array.injEq, exists_eq_left', List.length_nil, Nat.zero_le, List.not_mem_nil,
      false_implies, implies_true, and_true, true_iff]
    exact fun value found => .inl (none' value found)

/-- The digest is shown where a date is on record. -/
theorem truthy_orElse {text : Utf16}
    (found : (Json.object members).member (ofString "lastDigestDate") = some (.string text)) :
    (orElse (walkMembers 1 members) "lastDigestDate" .null).truthy = true ↔ text ≠ [] := by
  rcases orElse_cases unset (by decide : ofString "lastDigestDate" ≠ Inherited.proto) .null with
    ⟨value, found', _, same⟩ | ⟨none', _⟩
  · obtain rfl := Option.some.inj (found.symm.trans found')
    rw [same, walk, Json.truthy, Bool.not_eq_true', List.isEmpty_eq_false_iff]
    refine ⟨fun some' empty => some' ?_, redactString_ne_nil⟩
    rw [empty]
    decide
  · have null := none' _ found
    contradiction

theorem digestOf_nil_iff {path : Utf16} :
    validate (obj digestProperties []) (.json (walk 1 (digestOf (walkMembers 1 members)))) path =
        [] ↔
      (∃ text, (Json.object members).member (ofString "lastDigestDate") = some (.string text) ∧
        text ≠ [] ∧ Fits 20 (.string text)) ∧
      (∀ field ∈ [("lastDigestFile", 200), ("provider", 80), ("model", 200), ("preview", 2000)],
        ∃ value, (Json.object members).member (ofString field.1) = some value ∧
          Fits field.2 value) ∧
      ∀ value, (Json.object members).member (ofString "topicIds") = some value →
        value = .null ∨ AllFit 80 value := by
  rw [digestOf]
  split
  next shown =>
    have date : (∃ value, (Json.object members).member (ofString "lastDigestDate") = some value ∧
          Fits 20 value) ↔
        ∃ text, (Json.object members).member (ofString "lastDigestDate") = some (.string text) ∧
          text ≠ [] ∧ Fits 20 (.string text) := by
      constructor
      · rintro ⟨_, found, text, rfl, short⟩
        exact ⟨text, found, (truthy_orElse unset found).1 shown, text, rfl, short⟩
      · rintro ⟨text, found, _, fits⟩
        exact ⟨_, found, fits⟩
    have whole := @obj_nil_iff_of_fields
      [("date", str 20, walk 2 (orElse (walkMembers 1 members) "lastDigestDate" .null)),
        ("file", str 200, walk 2 (orElse (walkMembers 1 members) "lastDigestFile" .null)),
        ("provider", str 80, walk 2 (orElse (walkMembers 1 members) "provider" .null)),
        ("model", str 200, walk 2 (orElse (walkMembers 1 members) "model" .null)),
        ("topics", anyStr 80, walk 2 (orElse (walkMembers 1 members) "topicIds" (.array []))),
        ("preview", str 2000, walk 2 (orElse (walkMembers 1 members) "preview" .null))] []
      ["date", "file", "provider", "model", "topics", "preview"] rfl (by decide)
      (by decide) path
    refine whole.trans ?_
    simp only [List.forall_mem_cons, List.not_mem_nil, false_implies, implies_true, and_true]
    rw [str_orElse_iff unset (by decide) (by decide), str_orElse_iff unset (by decide) (by decide),
      str_orElse_iff unset (by decide) (by decide), str_orElse_iff unset (by decide) (by decide),
      str_orElse_iff unset (by decide) (by decide), anyStr_orElse_iff unset (by decide) (by decide),
      date]
    constructor
    · rintro ⟨date, file, provider, model, topics, preview⟩
      exact ⟨date, ⟨file, provider, model, preview⟩, topics⟩
    · rintro ⟨date, ⟨file, provider, model, preview⟩, topics⟩
      exact ⟨date, file, provider, model, topics, preview⟩
  next hidden =>
    have never : validate (obj digestProperties []) (.json (walk 1 .null)) path ≠ [] := by
      rw [walk, ne_eq, obj_nil_iff (by decide)]
      simp
    refine iff_of_false never ?_
    rintro ⟨⟨text, found, some', _⟩, _⟩
    exact hidden ((truthy_orElse unset found).2 some')

/-- The view passes with a whole digest, and a record that is in order. -/
theorem viewOf_nil_iff (attempt : Attempt) :
    check (scrubForState (viewOf attempt (walkMembers 1 members))) researchView = [] ↔
      (∀ value, (Json.object members).member (ofString "lastAttemptAt") = some value →
        value = .null ∨ Fits 40 value) ∧
      (∃ value, (Json.object members).member (ofString "lastStatus") = some value ∧
        Fits 60 value) ∧
      (∀ value, (Json.object members).member (ofString "lastReason") = some value →
        value = .null ∨ Fits 500 value) ∧
      (∃ text, (Json.object members).member (ofString "lastDigestDate") = some (.string text) ∧
        text ≠ [] ∧ Fits 20 (.string text)) ∧
      (∀ field ∈ [("lastDigestFile", 200), ("provider", 80), ("model", 200), ("preview", 2000)],
        ∃ value, (Json.object members).member (ofString field.1) = some value ∧
          Fits field.2 value) ∧
      ∀ value, (Json.object members).member (ofString "topicIds") = some value →
        value = .null ∨ AllFit 80 value := by
  have whole := @obj_nil_iff_of_fields
    [("version", int, walk 1 (numberOf 1)), ("updatedAt", str 40, walk 1 (.string attempt.at')),
      ("lastAttemptAt", nstr 40, walk 1 (orElse (walkMembers 1 members) "lastAttemptAt" .null)),
      ("lastStatus", str 60, walk 1 (orElse (walkMembers 1 members) "lastStatus" .null)),
      ("lastReason", nstr 500, walk 1 (orElse (walkMembers 1 members) "lastReason" .null)),
      ("digest", obj digestProperties [], walk 1 (digestOf (walkMembers 1 members)))] ["digest"]
    ["version", "updatedAt", "lastAttemptAt", "lastStatus", "lastReason", "digest"] rfl
    (by decide) (by decide) (ofString "$")
  refine whole.trans ?_
  simp only [List.forall_mem_cons, List.not_mem_nil, false_implies, implies_true, and_true]
  rw [nstr_orElse_iff unset (by decide) (by decide), nstr_orElse_iff unset (by decide) (by decide),
    str_orElse_iff unset (by decide) (by decide), digestOf_nil_iff unset]
  have version (path : Utf16) : validate int (.json (walk 1 (numberOf 1))) path = [] := by
    rw [int_nil_iff, integer?_walk]
    decide
  have updatedAt (path : Utf16) :
      validate (str 40) (.json (walk 1 (.string attempt.at'))) path = [] := by
    obtain ⟨short, none'⟩ := short_at attempt
    rw [walk, str_nil_iff]
    exact ⟨_, rfl, (length_redactString_le none').trans (short.trans (by decide))⟩
  rw [iff_true_intro (version _), iff_true_intro (updatedAt _), true_and, true_and]
  simp only [List.forall_mem_cons, List.not_mem_nil, false_implies, implies_true, and_true]

end View

/-- Both files pass exactly with a record that is in order. -/
theorem inOrder_iff (unset : Inherited.proto ∉ members.map Prod.fst) (attempt : Attempt) :
    (check (fileOf members) research = [] ∧
      check (scrubForState (viewOf attempt (walkMembers 1 members))) researchView = []) ↔
        InOrder members := by
  have shallow : 1 < maxDepth := by decide
  rw [fileOf_nil_iff, viewOf_nil_iff unset]
  simp only [researchProperties, List.forall_mem_cons, List.not_mem_nil, false_implies,
    implies_true, and_true, int_walk_iff, str_walk_iff shallow shallow, nstr_walk_iff shallow shallow,
    anyStr_walk_iff (Nat.succ_lt_succ_iff.2 (by decide : 1 < 11))
      (Nat.succ_lt_succ_iff.2 (by decide : 1 < 11))]
  constructor
  · rintro ⟨⟨⟨version, attempted, _, reason, _⟩,
      ⟨version', _, _, _, _, _, _, _, topics', _, detail⟩, listed⟩, attempted', status, reason', date, digest, _⟩
    obtain ⟨value, found⟩ := Option.isSome_iff_exists.1 (version (by decide))
    obtain ⟨time, found'⟩ := Option.isSome_iff_exists.1 (attempted (by decide))
    obtain ⟨word, found''⟩ := Option.isSome_iff_exists.1 (reason (by decide))
    exact {
      listed
      version := ⟨value, found, version' value found⟩
      lastAttemptAt := ⟨time, found', attempted' time found'⟩
      lastStatus := status
      lastReason := ⟨word, found'', reason' word found''⟩
      lastDigestDate := date
      digest := by simpa using digest
      topicIds := topics'
      lastDetail := detail }
  · intro order
    have only {name : String} {holds : Json → Prop}
        (some' : ∃ value, (Json.object members).member (ofString name) = some value ∧ holds value) :
        ((Json.object members).member (ofString name)).isSome = true ∧
          ∀ value, (Json.object members).member (ofString name) = some value → holds value := by
      obtain ⟨value, found, held⟩ := some'
      refine ⟨found ▸ rfl, fun other found' => ?_⟩
      obtain rfl := Option.some.inj (found.symm.trans found')
      exact held
    have digest := order.digest
    simp only [List.forall_mem_cons, List.not_mem_nil, false_implies, implies_true, and_true]
      at digest
    obtain ⟨file, provider, model, preview⟩ := digest
    obtain ⟨text, found, some', fits⟩ := order.lastDigestDate
    have date := only ⟨_, found, fits⟩
    refine ⟨⟨⟨?_, ?_, ?_, ?_, ?_⟩, ⟨?_, ?_, ?_, ?_, ?_, ?_, ?_, ?_, ?_, ?_, ?_⟩, order.listed⟩,
      (only order.lastAttemptAt).2, order.lastStatus, (only order.lastReason).2,
      ⟨text, found, some', fits⟩, ⟨file, provider, model, preview⟩,
      fun value found => .inr (order.topicIds value found)⟩
    · exact fun _ => (only order.version).1
    · exact fun _ => (only order.lastAttemptAt).1
    · exact fun _ => (only order.lastStatus).1
    · exact fun _ => (only order.lastReason).1
    · simp
    · exact (only order.version).2
    · exact (only order.lastAttemptAt).2
    · exact (only order.lastStatus).2
    · exact (only order.lastReason).2
    · exact fun value found => .inr (date.2 value found)
    · exact fun value found => .inr ((only file).2 value found)
    · exact fun value found => .inr ((only provider).2 value found)
    · exact fun value found => .inr ((only model).2 value found)
    · exact order.topicIds
    · exact fun value found => .inr ((only preview).2 value found)
    · exact order.lastDetail

end Record

/-! ## What an attempt must find and be told -/

section Attempts

variable {attempt : Attempt} {state : Json} {patch : List (String × Json)}

/-- The patch, as members of an object. -/
def patchMembers (patch : List (String × Json)) : List (Utf16 × Json) :=
  patch.map fun (name, value) => (ofString name, value)

theorem member_recordOf (name : Utf16) :
    (Json.object (recordOf attempt state patch)).member name =
      ((Json.object (patchMembers patch)).member name).or
        (if ofString "lastAttemptAt" = name then some (.string attempt.at')
        else ((Json.object (spread state)).member name).or
          (if ofString "version" = name then some (numberOf 1) else none)) := by
  have first : (Json.object [(ofString "version", numberOf 1)]).member name =
      if ofString "version" = name then some (numberOf 1) else none := by
    by_cases same : ofString "version" = name <;> simp [Json.member, same]
  rw [recordOf, member_merge, member_assign, member_merge, first]
  rfl

/-- The keys of a record are those of the earlier one and those that are put in. -/
theorem mem_keys_recordOf {key : Utf16} :
    key ∈ (recordOf attempt state patch).map Prod.fst ↔
      key ∈ (patchMembers patch).map Prod.fst ∨ key = ofString "lastAttemptAt" ∨
        key ∈ (spread state).map Prod.fst ∨ key = ofString "version" := by
  rw [← hasOwn_object, ← hasOwn_object, ← hasOwn_object, HasOwn, member_recordOf, HasOwn, HasOwn]
  simp only [Option.isSome_or, Bool.or_eq_true, eq_comm (a := key)]
  split
  next same => simp [same]
  next differ =>
    simp only [Option.isSome_or, Bool.or_eq_true, differ, false_or]
    split
    next same => simp [same]
    next differ' => simp [differ']

/-- What an earlier record must hold whatever the attempt comes to. -/
structure Known (members : List (Utf16 × Json)) : Prop where
  listed : ∀ key ∈ members.map Prod.fst, Listed key
  version : ∀ value, (Json.object members).member (ofString "version") = some value →
    value.integer?.isSome = true

/-- Only fields of the record are set. -/
theorem named_of_patch {exit : Exit} (patched : exit.patch attempt = some patch) :
    ∀ entry ∈ patch, entry.1 ∈ researchProperties.map Prod.fst := by
  cases exit <;> cases patched <;> simp [researchProperties]

theorem listed_iff (named : ∀ entry ∈ patch, entry.1 ∈ researchProperties.map Prod.fst) :
    (∀ key ∈ (recordOf attempt state patch).map Prod.fst, Listed key) ↔
      ∀ key ∈ (spread state).map Prod.fst, Listed key := by
  have own' (name : String) (listed : name ∈ researchProperties.map Prod.fst) :
      Listed (ofString name) := by
    obtain ⟨property, inside, rfl⟩ := List.mem_map.1 listed
    exact .inl (List.mem_map.2 ⟨property, inside, rfl⟩)
  constructor
  · exact fun all key inside => all key (mem_keys_recordOf.2 (.inr (.inr (.inl inside))))
  · intro all key inside
    rcases mem_keys_recordOf.1 inside with patched | rfl | earlier | rfl
    · obtain ⟨_, among, rfl⟩ := List.mem_map.1 patched
      obtain ⟨entry, listed, rfl⟩ := List.mem_map.1 among
      exact own' entry.1 (named entry listed)
    · exact own' "lastAttemptAt" (by decide)
    · exact all key earlier
    · exact own' "version" (by decide)

theorem unset_iff (named : ∀ entry ∈ patch, entry.1 ∈ researchProperties.map Prod.fst) :
    Inherited.proto ∉ (recordOf attempt state patch).map Prod.fst ↔
      Inherited.proto ∉ (spread state).map Prod.fst := by
  rw [not_iff_not, mem_keys_recordOf]
  have patched : Inherited.proto ∉ (patchMembers patch).map Prod.fst := by
    intro inside
    obtain ⟨_, among, same⟩ := List.mem_map.1 inside
    obtain ⟨entry, listed, rfl⟩ := List.mem_map.1 among
    have differ : ∀ name ∈ researchProperties.map Prod.fst, ofString name ≠ Inherited.proto := by
      decide
    exact differ entry.1 (named entry listed) same
  have time : Inherited.proto ≠ ofString "lastAttemptAt" := by decide
  have version : Inherited.proto ≠ ofString "version" := by decide
  simp [patched, time, version]

/-- What no exit sets is as it was. -/
theorem member_kept {name : Utf16}
    (unpatched : (Json.object (patchMembers patch)).member name = none)
    (time : ofString "lastAttemptAt" ≠ name) (version : ofString "version" ≠ name) :
    (Json.object (recordOf attempt state patch)).member name =
      (Json.object (spread state)).member name := by
  rw [member_recordOf, unpatched, if_neg time, if_neg version, Option.or_none, Option.none_or]

theorem version_iff
    (unpatched : (Json.object (patchMembers patch)).member (ofString "version") = none) :
    (∃ value, (Json.object (recordOf attempt state patch)).member (ofString "version") =
      some value ∧ value.integer?.isSome = true) ↔
      ∀ value, (Json.object (spread state)).member (ofString "version") = some value →
        value.integer?.isSome = true := by
  rw [member_recordOf, unpatched, if_neg (by decide), if_pos rfl, Option.none_or]
  cases (Json.object (spread state)).member (ofString "version") with
  | some value => simp
  | none =>
      have one : (numberOf 1).integer?.isSome = true := by decide
      simp [one]

theorem attempted (unpatched :
      (Json.object (patchMembers patch)).member (ofString "lastAttemptAt") = none) :
    ∃ value, (Json.object (recordOf attempt state patch)).member (ofString "lastAttemptAt") =
      some value ∧ (value = .null ∨ Fits 40 value) := by
  refine ⟨.string attempt.at', ?_, .inr ((short_at attempt).fits (by decide))⟩
  rw [member_recordOf, unpatched, if_pos rfl, Option.none_or]

/-- A failed attempt leaves a record in order that was so, with a digest, if its reason is short. -/
theorem inOrder_failed {reason : Utf16}
    (failed : (Exit.failed reason).patch attempt = some patch) :
    InOrder (recordOf attempt state patch) ↔
      Known (spread state) ∧ HoldsDigest (spread state) ∧ Fits 500 (.string reason) := by
  have named := named_of_patch failed
  cases failed
  have kept : ∀ name ∈ ["lastDigestDate", "lastDigestFile", "provider", "model", "preview",
      "topicIds", "lastDetail"],
      (Json.object (recordOf attempt state [("lastStatus", .string (ofString "skipped")),
        ("lastReason", .string reason)])).member (ofString name) =
          (Json.object (spread state)).member (ofString name) := by
    simp only [List.forall_mem_cons, List.not_mem_nil, false_implies, implies_true, and_true]
    refine ⟨?_, ?_, ?_, ?_, ?_, ?_, ?_⟩ <;> exact member_kept rfl (by decide) (by decide)
  constructor
  · intro order
    have said := order.lastReason
    rw [member_recordOf] at said
    obtain ⟨value, found, fits⟩ := said
    have recorded : value = .string reason := (Option.some.inj found).symm
    refine ⟨⟨(listed_iff named).1 order.listed, (version_iff rfl).1 order.version⟩,
      order.toHoldsDigest.congr kept, ?_⟩
    rw [recorded] at fits
    exact fits.resolve_left Json.noConfusion
  · rintro ⟨known, holds, fits⟩
    exact {
      holds.congr fun name among => (kept name among).symm with
      listed := (listed_iff named).2 known.listed
      version := (version_iff rfl).2 known.version
      lastAttemptAt := attempted rfl
      lastStatus := by
        rw [member_recordOf]
        exact ⟨.string (ofString "skipped"), rfl, ofString "skipped", rfl, by decide⟩
      lastReason := by
        rw [member_recordOf]
        exact ⟨.string reason, rfl, .inr fits⟩ }

/-- An attempt that is answered leaves a record in order that was so, if the names are short. -/
theorem inOrder_written {provider model preview : Utf16} {topicIds : List Utf16}
    (short : preview.length ≤ 1200)
    (written : (Exit.written provider model topicIds preview).patch attempt = some patch) :
    InOrder (recordOf attempt state patch) ↔
      Known (spread state) ∧ Fits 80 (.string provider) ∧ Fits 200 (.string model) ∧
        AllFit 80 (.array (topicIds.map .string)) := by
  have named := named_of_patch written
  cases written
  constructor
  · intro order
    have said := order.digest ("provider", 80) (by simp)
    have said' := order.digest ("model", 200) (by simp)
    have said'' := order.topicIds (.array (topicIds.map .string))
    rw [member_recordOf] at said said' said''
    obtain ⟨value, found, fits⟩ := said
    obtain ⟨value', found', fits'⟩ := said'
    have recorded : value = .string provider := (Option.some.inj found).symm
    have recorded' : value' = .string model := (Option.some.inj found').symm
    exact ⟨⟨(listed_iff named).1 order.listed, (version_iff rfl).1 order.version⟩,
      recorded ▸ fits, recorded' ▸ fits', said'' rfl⟩
  · rintro ⟨known, fits, fits', allFit⟩
    have fits'' : Fits 2000 (.string preview) :=
      ⟨preview, rfl, (length_stored_le preview).trans (by omega)⟩
    have dated := date_ne_nil attempt
    exact {
      lastDigestDate := by
        simp only [member_recordOf]
        exact ⟨attempt.date, rfl, dated, (short_date attempt).fits (by decide)⟩
      digest := by
        simp only [member_recordOf, List.forall_mem_cons, List.not_mem_nil, false_implies,
          implies_true, and_true]
        exact ⟨⟨_, rfl, (short_digestPath attempt).fits (by decide)⟩, ⟨_, rfl, fits⟩,
          ⟨_, rfl, fits'⟩, ⟨_, rfl, fits''⟩⟩
      topicIds := by
        intro value found
        rw [member_recordOf] at found
        have recorded : value = .array (topicIds.map .string) := (Option.some.inj found).symm
        exact recorded ▸ allFit
      lastDetail := by
        intro value found
        rw [member_recordOf] at found
        exact .inl (Option.some.inj found).symm
      listed := (listed_iff named).2 known.listed
      version := (version_iff rfl).2 known.version
      lastAttemptAt := attempted rfl
      lastStatus := by
        rw [member_recordOf]
        exact ⟨.string (ofString "written"), rfl, ofString "written", rfl, by decide⟩
      lastReason := by
        rw [member_recordOf]
        exact ⟨.null, rfl, .inl rfl⟩ }

/-- After an empty answer the detail is no text. -/
theorem not_inOrder_empty {detail : List (Utf16 × Json)}
    (empty : (Exit.empty (.object detail)).patch attempt = some patch) :
    ¬ InOrder (recordOf attempt state patch) := by
  cases empty
  intro order
  have said := order.lastDetail (.object detail)
  rw [member_recordOf] at said
  rcases said rfl with null | ⟨text, other, _⟩
  · contradiction
  · contradiction

/-- What an exit needs of the earlier record, and of what the provider answered, for the record it
leaves to pass. -/
def Exit.Allows (state : Json) : Exit → Prop
  | .skipped _ => True
  | .failed reason =>
      Known (spread state) ∧ HoldsDigest (spread state) ∧ Fits 500 (.string reason)
  | .empty _ => False
  | .written provider model topicIds _ =>
      Known (spread state) ∧ Fits 80 (.string provider) ∧ Fits 200 (.string model) ∧
        AllFit 80 (.array (topicIds.map .string))

/-- Nothing is recorded, or what became of the call. -/
def Exit.Ends (reply : Reply) (exit : Exit) : Prop :=
  (∃ reason, exit = .skipped reason) ∨ ∃ topicIds, exit = settle topicIds reply

theorem Exit.Ends.ite {reply : Reply} {quiet : Prop} [Decidable quiet] {reason : Utf16}
    {exit : Exit} (ends : exit.Ends reply) : (if quiet then Exit.skipped reason else exit).Ends reply := by
  split
  next => exact .inl ⟨reason, rfl⟩
  next => exact ends

theorem ends_exitOf (parse : Utf16 → Option Int) (attempt : Attempt) (state : Json) :
    (exitOf parse attempt state).Ends attempt.reply := by
  rw [exitOf]
  iterate 11 apply Exit.Ends.ite
  cases (pickTopics attempt.topics attempt.maxTopics attempt.now).mapM id with
  | none => exact .inl ⟨_, rfl⟩
  | some topicIds => exact .inr ⟨topicIds, rfl⟩
/-- The record an attempt leaves is in order exactly where its exit allows it. -/
theorem inOrder_iff_allows {parse : Utf16 → Option Int}
    (patched : (exitOf parse attempt state).patch attempt = some patch) :
    InOrder (recordOf attempt state patch) ↔ (exitOf parse attempt state).Allows state := by
  rcases ends_exitOf parse attempt state with ⟨reason, skipped⟩ | ⟨topicIds, settled⟩
  · rw [skipped] at patched
    contradiction
  · rw [settled] at patched ⊢
    cases reply : attempt.reply with
    | failed failureClass code =>
        rw [reply] at patched
        exact inOrder_failed patched
    | answered text service model tokensUsed =>
        rw [reply, settle] at patched
        rw [settle]
        split at patched
        next few =>
          rw [if_pos few]
          exact iff_of_false (not_inOrder_empty patched) id
        next enough =>
          rw [if_neg enough]
          exact inOrder_written (List.length_take_le _ _) patched

end Attempts

/-! ## Every run of attempts -/

section Runs

/-- What the strict check of the state folder finds in a file is nothing. -/
def Passes (file : StateFile) (text : Utf16) : Prop :=
  ∃ value, Json.parse text = some value ∧ check value file.schema = []

/-- Where an attempt writes, its exit allows it, and the earlier record sets no `__proto__`. -/
def Meets (parse : Utf16 → Option Int) (world : World) (attempt : Attempt) : Prop :=
  IsoDate.isTimeValue attempt.now = true →
    (∃ reason, exitOf parse attempt (readState world.research) = .skipped reason) ∨
      Inherited.proto ∉ (spread (readState world.research)).map Prod.fst ∧
        (exitOf parse attempt (readState world.research)).Allows (readState world.research)

theorem isProper_member {members : List (Utf16 × Json)}
    (proper : Json.areProperMembers members = true) {name : Utf16} {value : Json}
    (found : (Json.object members).member name = some value) : value.isProper = true := by
  obtain ⟨entry, found', rfl⟩ := Option.map_eq_some_iff.1 found
  exact (Json.areProperMembers_iff members).1 proper entry
    (List.mem_reverse.1 (List.mem_of_find?_eq_some found'))

theorem areProperMembers_merge {members others : List (Utf16 × Json)}
    (proper : Json.areProperMembers members = true)
    (proper' : Json.areProperMembers others = true) :
    Json.areProperMembers (merge members others) = true := by
  induction others generalizing members with
  | nil => exact proper
  | cons other others ih =>
      rw [Json.areProperMembers, Bool.and_eq_true] at proper'
      exact ih (areProperMembers_assign proper proper'.1) proper'.2

theorem areProperMembers_readState (text : Option Utf16) :
    Json.areProperMembers (spread (readState text)) = true := by
  rw [readState]
  split
  next members found =>
    obtain ⟨_, _, parsed⟩ := Option.bind_eq_some_iff.1 found
    exact Json.isProper_of_parse parsed
  next items found =>
    obtain ⟨_, _, parsed⟩ := Option.bind_eq_some_iff.1 found
    have proper := (Json.areProper_iff items).1 (Json.isProper_of_parse parsed)
    rw [spread, Json.areProperMembers_iff, List.forall_mem_map]
    exact fun entry inside => proper entry.1 (List.fst_mem_of_mem_zipIdx inside)
  next => rfl

/-- What is recorded of an attempt that may be recorded has no numbers. -/
theorem areProperMembers_patch {attempt : Attempt} {state : Json} {exit : Exit}
    (allows : exit.Allows state) {patch : List (String × Json)}
    (patched : exit.patch attempt = some patch) :
    Json.areProperMembers (patchMembers patch) = true := by
  cases exit with
  | skipped reason => contradiction
  | failed reason =>
      cases patched
      rfl
  | empty detail => exact allows.elim
  | written provider model topicIds preview =>
      cases patched
      have texts : Json.areProper (topicIds.map .string) = true := by
        rw [Json.areProper_iff, List.forall_mem_map]
        exact fun _ _ => rfl
      simp [patchMembers, Json.areProperMembers, Json.isProper, texts]

variable {attempt : Attempt} {state : Json} {patch : List (String × Json)}
  {members : List (Utf16 × Json)}

theorem areProperMembers_recordOf (proper : Json.areProperMembers (spread state) = true)
    (proper' : Json.areProperMembers (patchMembers patch) = true) :
    Json.areProperMembers (recordOf attempt state patch) = true := by
  have one : Json.areProperMembers [(ofString "version", numberOf 1)] = true := by decide
  exact areProperMembers_merge (areProperMembers_assign (areProperMembers_merge one proper) rfl)
    proper'

theorem isProper_fileOf (proper : Json.areProperMembers members = true) :
    (fileOf members).isProper = true := by
  apply isProper_walk
  rw [Json.isProper, Json.areProperMembers_iff]
  intro member inside
  exact (Json.areProperMembers_iff _).1 (areProperMembers_walkMembers 1 members proper) member
    (List.mem_filter.1 inside).1

theorem isProper_viewOf (unset : Inherited.proto ∉ members.map Prod.fst)
    (proper : Json.areProperMembers members = true) :
    (scrubForState (viewOf attempt (walkMembers 1 members))).isProper = true := by
  have each (name : String) (differ : ofString name ≠ Inherited.proto) (otherwise : Json)
      (proper' : otherwise.isProper = true) :
      (orElse (walkMembers 1 members) name otherwise).isProper = true := by
    rcases orElse_cases unset differ otherwise with ⟨value, found, _, same⟩ | ⟨_, same⟩
    · rw [same]
      exact isProper_walk 1 value (isProper_member proper found)
    · rw [same]
      exact proper'
  have digest : (digestOf (walkMembers 1 members)).isProper = true := by
    rw [digestOf]
    split
    next =>
      simp only [Json.isProper, Json.areProperMembers, Bool.and_eq_true, and_true]
      refine ⟨?_, ?_, ?_, ?_, ?_, ?_⟩ <;> exact each _ (by decide) _ rfl
    next => rfl
  have one : (numberOf 1).isProper = true := by decide
  apply isProper_walk
  rw [viewOf]
  simp only [Json.isProper, Json.areProperMembers, Bool.and_eq_true, and_true, digest, true_and]
  exact ⟨one, each _ (by decide) _ rfl, each _ (by decide) _ rfl, each _ (by decide) _ rfl⟩

/-- What an attempt writes, if it does. -/
theorem written_record (world : World) {entry : StateFile × Utf16}
    (inside : entry ∈ (world.record attempt patch).written) :
    entry ∈ world.written ∨
      entry = (.research, serialise (fileOf (recordOf attempt (readState world.research) patch))) ∨
      entry = (.view, serialise (scrubForState (viewOf attempt
        (walkMembers 1 (recordOf attempt (readState world.research) patch))))) := by
  rw [World.record] at inside
  have view (world : World) (payload : Json) (inside : entry ∈ (world.writeView payload).written) :
      entry ∈ world.written ∨ entry = (.view, serialise payload) := by
    rw [World.writeView] at inside
    split at inside
    next => exact .inl inside
    next => exact (List.mem_append.1 inside).imp_right List.mem_singleton.1
  have research (payload : Json) (inside : entry ∈ (world.writeResearch payload).written) :
      entry ∈ world.written ∨ entry = (.research, serialise payload) := by
    rw [World.writeResearch] at inside
    split at inside
    next => exact .inl inside
    next => exact (List.mem_append.1 inside).imp_right List.mem_singleton.1
  rcases view _ _ inside with inside | same
  · exact (research _ inside).imp_right .inl
  · exact .inr (.inr same)

/-- What an attempt writes that meets the condition passes the strict check. -/
theorem attempt_passes {parse : Utf16 → Option Int} {world : World}
    (meets : Meets parse world attempt) {entry : StateFile × Utf16}
    (inside : entry ∈ (world.runDailyResearch parse attempt).written) :
    entry ∈ world.written ∨ Passes entry.1 entry.2 := by
  rw [World.runDailyResearch] at inside
  split at inside
  next time =>
    split at inside
    next => exact .inl inside
    next patch patched =>
      rcases meets time with ⟨reason, skipped⟩ | ⟨unset, allows⟩
      · rw [skipped] at patched
        contradiction
      · have order := (inOrder_iff_allows patched).2 allows
        have unset' : Inherited.proto ∉
            (recordOf attempt (readState world.research) patch).map Prod.fst :=
          (unset_iff (named_of_patch patched)).2 unset
        have proper : Json.areProperMembers
            (recordOf attempt (readState world.research) patch) = true :=
          areProperMembers_recordOf (areProperMembers_readState world.research)
            (areProperMembers_patch allows patched)
        obtain ⟨file, view⟩ := (inOrder_iff unset' attempt).2 order
        rcases written_record world inside with before | rfl | rfl
        · exact .inl before
        · exact .inr ⟨_, parse_serialise (isProper_fileOf proper), file⟩
        · exact .inr ⟨_, parse_serialise (isProper_viewOf unset' proper), view⟩
  next => exact .inl inside

/-- No file is there, and nothing was written yet. -/
def World.fresh : World where
  research := none
  view := none
  written := []

/-- Where no file is there, both are written. -/
theorem written_fresh {parse : Utf16 → Option Int} (time : IsoDate.isTimeValue attempt.now = true)
    (patched : (exitOf parse attempt (readState World.fresh.research)).patch attempt = some patch) :
    (World.fresh.runDailyResearch parse attempt).written.map Prod.fst = [.research, .view] := by
  rw [World.runDailyResearch, if_pos time, patched]
  rfl

/-- The first day of 2026. -/
@[irreducible] def newYear : Int := 1767225600000

def firstAttempt (reply : Reply) : Attempt where
  now := newYear
  topics := [ofString "models"]
  maxTopics := 3
  configuredIds := [ofString "gemini"]
  reply

/-- An answer that is long enough. -/
def usableAnswer : Reply := .answered
  (some (ofString
    "## models\n- Limits change often.\n- A digest must fit into one call.\n- Check the quotas."))
  (some (ofString "gemini")) (some (ofString "gemini-2.5-flash")) (some 949)

/-- After an answer that is written. -/
def usableAnswered : World :=
  World.fresh.runDailyResearch (fun _ => none) (firstAttempt usableAnswer)

/-- After an empty answer. -/
def emptyAnswered : World :=
  World.fresh.runDailyResearch (fun _ => none) (firstAttempt (.answered none none none none))

end Runs

end Research

end TitanRunner
