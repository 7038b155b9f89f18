import TitanRunner.Lib.SplitJoin
import TitanRunner.Lib.UriComponent
import TitanRunner.Validate
import TitanRunner.Worker.Approvals

/-!
# Request templates

`lib/template.js`: references in double braces, what they stand for, and the request that is built
from a specification.
-/

namespace TitanRunner

namespace Template

open Utf16 Approvals

/-! ## References -/

structure Ref where
  scope : Utf16
  path : Utf16
  raw : Bool := false
  deriving DecidableEq

/-- `scope.path` -/
def Ref.name (ref : Ref) : Utf16 := ref.scope ++ ofString "." ++ ref.path

def isPathUnit (unit : UInt16) : Bool :=
  isAlnum unit || unit == 0x5F || unit == 0x2E || unit == 0x2D

/-- The filter behind a reference, if there is one, and the text behind it. -/
def filterAt (text : Utf16) : Bool × Utf16 :=
  match [0x7C].isPrefixOf? text with
  | none => (false, text)
  | some rest =>
      match (ofString "raw").isPrefixOf? (rest.dropWhile isSpaceUnit) with
      | some after => (true, after.dropWhile isSpaceUnit)
      | none => (false, text)

/-- The match of `REF` at the beginning of a text, and the text behind it. -/
def refAt (text : Utf16) : Option (Ref × Utf16) := do
  let opened ← [0x7B, 0x7B].isPrefixOf? text
  let inner := opened.dropWhile isSpaceUnit
  let scope := inner.takeWhile isLower
  let named ← [0x2E].isPrefixOf? (inner.dropWhile isLower)
  let path := named.takeWhile isPathUnit
  let filter := filterAt ((named.dropWhile isPathUnit).dropWhile isSpaceUnit)
  let after ← [0x7D, 0x7D].isPrefixOf? filter.2
  if scope.isEmpty || path.isEmpty then none else some ({ scope, path, raw := filter.1 }, after)

inductive Piece where
  | unit (unit : UInt16)
  | ref (ref : Ref)
  deriving DecidableEq

/-- The matches of `REF` in a text and the units between them, some of which are to be skipped. -/
def piecesFrom : Nat → Utf16 → List Piece
  | _, [] => []
  | skip + 1, _ :: rest => piecesFrom skip rest
  | 0, unit :: rest =>
      match refAt (unit :: rest) with
      | some (ref, after) => .ref ref :: piecesFrom (rest.length - after.length) rest
      | none => .unit unit :: piecesFrom 0 rest

def pieces (text : Utf16) : List Piece := piecesFrom 0 text

/-- `ONLY_REF` -/
def onlyRef (text : Utf16) : Option Ref :=
  match refAt text with
  | some (ref, []) => some ref
  | _ => none

def refsIn (text : Utf16) : List Ref :=
  (pieces text).filterMap fun piece =>
    match piece with
    | .ref ref => some ref
    | .unit _ => none

/-- The units that a reference is written in. -/
def isRefUnit (unit : UInt16) : Bool :=
  unit == 0x7B || unit == 0x7D || unit == 0x7C || isSpaceUnit unit || isPathUnit unit

section Stops

variable {text rest wanted : Utf16} {stop : UInt16} {test : UInt16 → Bool}

theorem isPathUnit_of_isLower {unit : UInt16} (small : isLower unit = true) :
    isPathUnit unit = true := by
  simp only [isPathUnit, isAlnum, small, Bool.true_or]

theorem isPrefixOf?_append_stop (without : stop ∉ wanted) :
    wanted.isPrefixOf? (text ++ stop :: rest) =
      (wanted.isPrefixOf? text).map (· ++ stop :: rest) := by
  induction wanted generalizing text with
  | nil => cases text <;> rfl
  | cons first wanted ih =>
      obtain ⟨other, without⟩ := not_or.1 (mt List.mem_cons.2 without)
      cases text with
      | nil => simp [List.isPrefixOf?, Ne.symm other]
      | cons unit text =>
          simp only [List.cons_append, List.isPrefixOf?]
          split
          · exact ih without
          · rfl

theorem dropWhile_append_stop (stops : test stop = false) :
    (text ++ stop :: rest).dropWhile test = text.dropWhile test ++ stop :: rest := by
  induction text with
  | nil => simp [stops]
  | cons unit text ih =>
      simp only [List.cons_append, List.dropWhile_cons]
      split
      · exact ih
      · rfl

theorem takeWhile_append_stop (stops : test stop = false) :
    (text ++ stop :: rest).takeWhile test = text.takeWhile test := by
  induction text with
  | nil => simp [stops]
  | cons unit text ih =>
      simp only [List.cons_append, List.takeWhile_cons]
      split
      · rw [ih]
      · rfl

theorem not_mem_of_stops (stops : isRefUnit stop = false)
    (every : wanted.all isRefUnit = true) : stop ∉ wanted := by
  intro inside
  rw [List.all_eq_true.1 every stop inside] at stops
  contradiction

theorem filterAt_append_stop (stops : isRefUnit stop = false) :
    filterAt (text ++ stop :: rest) = ((filterAt text).1, (filterAt text).2 ++ stop :: rest) := by
  have blank : isSpaceUnit stop = false := by
    simp only [isRefUnit, Bool.or_eq_false_iff] at stops
    exact stops.1.2
  simp only [filterAt]
  rw [isPrefixOf?_append_stop (not_mem_of_stops stops (by decide))]
  cases [0x7C].isPrefixOf? text with
  | none => rfl
  | some after =>
      simp only [Option.map_some]
      rw [dropWhile_append_stop blank, isPrefixOf?_append_stop (not_mem_of_stops stops (by decide))]
      cases (ofString "raw").isPrefixOf? (after.dropWhile isSpaceUnit) with
      | none => rfl
      | some after =>
          simp only [Option.map_some]
          rw [dropWhile_append_stop blank]

/-- A reference ends before a unit that no reference holds. -/
theorem refAt_append_stop (stops : isRefUnit stop = false) :
    refAt (text ++ stop :: rest) =
      (refAt text).map fun found => (found.1, found.2 ++ stop :: rest) := by
  have parts := stops
  simp only [isRefUnit, Bool.or_eq_false_iff] at parts
  have small : isLower stop = false := by
    cases small : isLower stop with
    | false => rfl
    | true => rw [isPathUnit_of_isLower small] at parts; exact parts.2.symm ▸ rfl
  simp only [refAt]
  rw [isPrefixOf?_append_stop (not_mem_of_stops stops (by decide))]
  cases [0x7B, 0x7B].isPrefixOf? text with
  | none => rfl
  | some opened =>
      simp only [Option.map_some, Option.bind_eq_bind, Option.bind_some]
      rw [dropWhile_append_stop parts.1.2, dropWhile_append_stop small, takeWhile_append_stop small,
        isPrefixOf?_append_stop (not_mem_of_stops stops (by decide))]
      cases [0x2E].isPrefixOf? ((opened.dropWhile isSpaceUnit).dropWhile isLower) with
      | none => rfl
      | some named =>
          simp only [Option.map_some, Option.bind_some]
          rw [takeWhile_append_stop parts.2, dropWhile_append_stop parts.2,
            dropWhile_append_stop parts.1.2, filterAt_append_stop stops,
            isPrefixOf?_append_stop (not_mem_of_stops stops (by decide))]
          cases [0x7D, 0x7D].isPrefixOf?
              (filterAt ((named.dropWhile isPathUnit).dropWhile isSpaceUnit)).2 with
          | none => rfl
          | some after =>
              simp only [Option.map_some, Option.bind_some]
              split <;> rfl

end Stops

theorem refAt_nil : refAt [] = none := rfl

theorem refAt_stop {stop : UInt16} (stops : isRefUnit stop = false) (rest : Utf16) :
    refAt (stop :: rest) = none := by
  rw [← List.nil_append (stop :: rest), refAt_append_stop stops, refAt_nil, Option.map_none]

theorem piecesFrom_append_stop {stop : UInt16} (stops : isRefUnit stop = false) {skip : Nat}
    {text : Utf16} (rest : Utf16) (within : skip ≤ text.length) :
    piecesFrom skip (text ++ stop :: rest) =
      piecesFrom skip text ++ .unit stop :: piecesFrom 0 rest := by
  induction text generalizing skip with
  | nil =>
      obtain rfl := Nat.le_zero.1 within
      rw [List.nil_append, piecesFrom, piecesFrom, refAt_stop stops]
      rfl
  | cons unit text ih =>
      cases skip with
      | succ skip => exact ih (Nat.le_of_succ_le_succ within)
      | zero =>
          rw [List.cons_append, piecesFrom, piecesFrom, ← List.cons_append, refAt_append_stop stops]
          cases refAt (unit :: text) with
          | none =>
              simp only [Option.map_none]
              rw [ih (Nat.zero_le _)]
              rfl
          | some found =>
              simp only [Option.map_some]
              rw [List.length_append, List.length_append, Nat.add_sub_add_right, ih (Nat.sub_le _ _)]
              rfl

theorem pieces_append_stop {stop : UInt16} (stops : isRefUnit stop = false) (text rest : Utf16) :
    pieces (text ++ stop :: rest) = pieces text ++ .unit stop :: pieces rest :=
  piecesFrom_append_stop stops rest (Nat.zero_le _)

theorem refsIn_append_stop {stop : UInt16} (stops : isRefUnit stop = false) (text rest : Utf16) :
    refsIn (text ++ stop :: rest) = refsIn text ++ refsIn rest := by
  rw [refsIn, pieces_append_stop stops, List.filterMap_append]
  rfl

theorem refsIn_join {stop : UInt16} (stops : isRefUnit stop = false) (texts : List Utf16) :
    refsIn (join [stop] texts) = texts.flatMap refsIn := by
  induction texts with
  | nil => rfl
  | cons first texts ih =>
      cases texts with
      | nil => rw [join_singleton, List.flatMap_cons, List.flatMap_nil, List.append_nil]
      | cons second texts =>
          rw [join_cons, List.append_assoc, List.singleton_append, refsIn_append_stop stops, ih]
          rfl

theorem refAt_of_ne {unit : UInt16} (other : unit ≠ 0x7B) (rest : Utf16) :
    refAt (unit :: rest) = none := by
  simp [refAt, List.isPrefixOf?, Ne.symm other]

/-- A text without braces holds no reference. -/
theorem pieces_of_not_mem {text : Utf16} (without : 0x7B ∉ text) :
    pieces text = text.map .unit := by
  induction text with
  | nil => rfl
  | cons unit text ih =>
      obtain ⟨other, without⟩ := not_or.1 (mt List.mem_cons.2 without)
      rw [pieces, piecesFrom, refAt_of_ne (Ne.symm other), List.map_cons, ← ih without]
      rfl

theorem refsIn_of_not_mem {text : Utf16} (without : 0x7B ∉ text) : refsIn text = [] := by
  rw [refsIn, pieces_of_not_mem without, List.filterMap_map]
  exact List.filterMap_eq_nil_iff.2 fun _ _ => rfl

theorem mem_refsIn_of_onlyRef {text : Utf16} {ref : Ref} (only : onlyRef text = some ref) :
    ref ∈ refsIn text := by
  rw [onlyRef] at only
  cases found : refAt text with
  | none =>
      rw [found] at only
      contradiction
  | some match' =>
      obtain ⟨ref', after⟩ := match'
      rw [found] at only
      cases after with
      | cons unit rest => contradiction
      | nil =>
          obtain rfl := Option.some.inj only
          cases text with
          | nil => contradiction
          | cons unit rest =>
              rw [refsIn, pieces, piecesFrom, found]
              exact List.mem_cons_self

mutual

/-- `findRefs` -/
def findRefs : Json → List Ref
  | .string text => refsIn text
  | .array items => findRefsItems items
  | .object members => findRefsMembers members
  | _ => []

def findRefsItems : List Json → List Ref
  | [] => []
  | item :: items => findRefs item ++ findRefsItems items

def findRefsMembers : List (Utf16 × Json) → List Ref
  | [] => []
  | (_, value) :: members => findRefs value ++ findRefsMembers members

end

section Display

mutual

/-- The references in the text of a value are references in the value. -/
theorem refsIn_display (value : Json) (proper : value.isProper = true) :
    refsIn (Validate.display value) ⊆ findRefs value := by
  match value with
  | .null | .bool true | .bool false | .object _ =>
      intro ref inside
      rw [Validate.display, refsIn_of_not_mem (by decide)] at inside
      contradiction
  | .number text =>
      intro ref inside
      rw [Validate.display, refsIn_of_not_mem] at inside
      · contradiction
      · apply Json.not_mem_number _ rfl proper
        intro phase
        cases phase <;> rfl
  | .string text => exact List.Subset.refl _
  | .array items =>
      rw [Validate.display, findRefs]
      have apart : refsIn (join (ofString ",") _) = _ :=
        refsIn_join (by decide : isRefUnit 0x2C = false) (Validate.displayItems items)
      rw [apart]
      exact refsIn_displayItems items proper

theorem refsIn_displayItems (items : List Json) (proper : Json.areProper items = true) :
    (Validate.displayItems items).flatMap refsIn ⊆ findRefsItems items := by
  match items with
  | [] => exact List.Subset.refl _
  | item :: items =>
      obtain ⟨here, later⟩ := Bool.and_eq_true_iff.1 proper
      rw [findRefsItems]
      have first := refsIn_display item here
      have others := refsIn_displayItems items later
      cases item with
      | null =>
          rw [Validate.displayItems, List.flatMap_cons]
          exact List.append_subset.2 ⟨List.nil_subset _,
            List.Subset.trans others (List.subset_append_right _ _)⟩
      | bool | number | string | array | object =>
          rw [Validate.displayItems, List.flatMap_cons]
          · exact List.append_subset.2 ⟨List.Subset.trans first (List.subset_append_left _ _),
              List.Subset.trans others (List.subset_append_right _ _)⟩
          · intro same
            contradiction

end

end Display

/-! ## What a reference stands for -/

/-- A value that a lookup may find: a JSON value, a function that is inherited, or a prototype. -/
inductive Value where
  | json (value : Json)
  | function
  | objectPrototype
  | arrayPrototype

/-- The names in the prototype of all lists, without those of all objects. -/
def arrayNames : List Utf16 :=
  ["at", "concat", "copyWithin", "fill", "find", "findIndex", "findLast", "findLastIndex",
    "lastIndexOf", "pop", "push", "reverse", "shift", "unshift", "slice", "sort", "splice",
    "includes", "indexOf", "join", "keys", "entries", "values", "forEach", "filter", "flat",
    "flatMap", "map", "every", "some", "reduce", "reduceRight", "toReversed", "toSorted",
    "toSpliced", "with"].map ofString

/-- What a name finds in the prototypes behind a value. -/
def inheritedValue (isArray : Bool) (prototype : Value) (name : Utf16) : Option Value :=
  if name = Inherited.proto then some prototype
  else if isArray && arrayNames.contains name || Inherited.isInherited name then some .function
  else none

/-- `part in cur`, with `cur[part]` -/
def Value.get (name : Utf16) : Value → Option Value
  | .json (.object members) =>
      match (Json.object members).member name with
      | some value => some (.json value)
      | none => inheritedValue false .objectPrototype name
  | .json (.array items) =>
      if name = ofString "length" then some (.json (.number (ofNat items.length)))
      else if isIndex name && decide (Json.natOf name < items.length) then
        (items[Json.natOf name]?).map .json
      else inheritedValue true .arrayPrototype name
  | .objectPrototype => inheritedValue false (.json .null) name
  | .arrayPrototype =>
      if name = ofString "length" then some (.json (.number (ofNat 0)))
      else inheritedValue true .objectPrototype name
  | _ => none

inductive Scope where
  | input | config | secret | body
  deriving DecidableEq, Repr

def Scope.name : Scope → Utf16
  | .input => ofString "input"
  | .config => ofString "config"
  | .secret => ofString "secret"
  | .body => ofString "body"

def Scope.ofName? (name : Utf16) : Option Scope :=
  [Scope.input, .config, .secret, .body].find? (·.name = name)

/-- What the scopes stand for; the scope of the body stands for nothing. -/
structure Context where
  input : Json
  config : Json
  secret : Json

def Context.get (context : Context) : Scope → Option Value
  | .input => some (.json context.input)
  | .config => some (.json context.config)
  | .secret => some (.json context.secret)
  | .body => none

inductive TemplateError where
  | unknownScope (scope : Utf16)
  | noValue (ref : Ref)
  | notSimple (ref : Ref)
  | because (message : Utf16)
  deriving DecidableEq

def TemplateError.message : TemplateError → Utf16
  | .unknownScope scope => ofString "unknown reference scope \"" ++ scope ++ ofString "\""
  | .noValue ref => ofString "no value for \x7b\x7b" ++ ref.name ++ ofString "\x7d\x7d"
  | .notSimple ref => ofString "\x7b\x7b" ++ ref.name ++ ofString "\x7d\x7d is not a simple value"
  | .because message => message

/-- An exception: a `TemplateError`, a `HandlerError`, or one of the language. -/
inductive Failure where
  | template (error : TemplateError)
  | handler (message : Utf16)
  | other
  deriving DecidableEq

def lookup (context : Context) (ref : Ref) : Except TemplateError Value :=
  match Scope.ofName? ref.scope with
  | none => .error (.unknownScope ref.scope)
  | some scope =>
      match (split 0x2E ref.path).foldl (fun found name => found.bind (Value.get name))
          (context.get scope) with
      | some value => .ok value
      | none => .error (.noValue ref)

def asText (value : Value) (ref : Ref) : Except TemplateError Utf16 :=
  match value with
  | .json (.string text) => .ok text
  | .json (.number text) => .ok text
  | .json (.bool value) => .ok (Validate.display (.bool value))
  | _ => .error (.notSimple ref)

inductive Mode where
  | text | path | query | header
  deriving DecidableEq, Repr

/-- An exception of the engine itself. -/
def thrown {α : Type} (result : Except TemplateError α) : Except Failure α :=
  result.mapError .template

def expandRef (context : Context) (mode : Mode) (ref : Ref) : Except Failure Utf16 := do
  let value ← thrown (lookup context ref)
  let text ← thrown (asText value ref)
  if (mode = .path || mode = .query) && !ref.raw then
    match UriComponent.encodeURIComponent text with
    | some encoded => .ok encoded
    | none => .error .other
  else .ok text

/-- The text of the pieces of a template. -/
def expandPieces (context : Context) (mode : Mode) : List Piece → Except Failure Utf16
  | [] => .ok []
  | .unit unit :: rest => (expandPieces context mode rest).map (unit :: ·)
  | .ref ref :: rest => do
      let text ← expandRef context mode ref
      (expandPieces context mode rest).map (text ++ ·)

def expandString (template : Utf16) (context : Context) (mode : Mode) : Except Failure Utf16 :=
  expandPieces context mode (pieces template)

/-- What `JSON.stringify` makes of a value: nothing of a function. -/
def Value.written : Value → Option Json
  | .json value => some value
  | .function => none
  | .objectPrototype => some (.object [])
  | .arrayPrototype => some (.array [])

/-- The member is one reference to an input that is missing. -/
def isLeftOut (context : Context) : Json → Bool
  | .string text =>
      match onlyRef text with
      | some ref => ref.scope = Scope.input.name && !(lookup context ref).isOk
      | none => false
  | _ => false

mutual

/-- `expandDeep`, with what `JSON.stringify` makes of the result -/
def expandDeep (context : Context) : Json → Except Failure (Option Json)
  | .string text =>
      match onlyRef text with
      | some ref => thrown ((lookup context ref).map Value.written)
      | none => (expandString text context .text).map fun text => some (.string text)
  | .array items => (expandItems context items).map fun items => some (.array items)
  | .object members => (expandMembers context members).map fun members => some (.object members)
  | value => .ok (some value)

def expandItems (context : Context) : List Json → Except Failure (List Json)
  | [] => .ok []
  | item :: items => do
      let item ← expandDeep context item
      (expandItems context items).map (item.getD .null :: ·)

def expandMembers (context : Context) :
    List (Utf16 × Json) → Except Failure (List (Utf16 × Json))
  | [] => .ok []
  | (name, value) :: members =>
      if isLeftOut context value then expandMembers context members
      else do
        let value ← expandDeep context value
        -- an assignment to `__proto__` makes no member
        let own := if name = Inherited.proto then none else value
        (expandMembers context members).map (own.toList.map (name, ·) ++ ·)

end

/-! ## Requests -/

/-- A request of a manifest. -/
structure RequestSpec where
  method : Option Utf16 := none
  url : Option Utf16 := none
  query : List (Utf16 × Json) := []
  headers : List (Utf16 × Json) := []
  body : Option Json := none
  bodyText : Option Json := none
  telegram : Option Utf16 := none
  /-- Numbers are numbers. -/
  proper : (Json.areProperMembers query && bodyText.all Json.isProper) = true := by decide

def RequestSpec.urlRefs (spec : RequestSpec) : List Ref := refsIn (spec.url.getD [])

def RequestSpec.bodyRefs (spec : RequestSpec) : List Ref :=
  findRefs (spec.body.getD .null) ++ findRefs (spec.bodyText.getD (.string []))

def Ref.isSecret (ref : Ref) : Bool := ref.scope = Scope.secret.name

/-- The refusals of secrets in one place of a request. -/
def misplaced (place : String) (refs : List Ref) : List Utf16 :=
  (refs.filter Ref.isSecret).map fun ref =>
    ofString ("the " ++ place ++ " holds \x7b\x7b") ++ ref.name ++
      ofString "\x7d\x7d. A secret may appear in a header only"

def checkRequestSpec (spec : RequestSpec) (allowSecretInQuery : Bool) : List Utf16 :=
  misplaced "url" spec.urlRefs ++ misplaced "body" spec.bodyRefs ++
    (if allowSecretInQuery then [] else misplaced "query" (findRefsMembers spec.query)) ++
    ((spec.urlRefs ++ findRefsMembers spec.query ++ findRefsMembers spec.headers ++
      spec.bodyRefs).filter fun ref =>
        !([Scope.input, .config, .secret].map Scope.name).contains ref.scope).map fun ref =>
          ofString "unknown reference \x7b\x7b" ++ ref.name ++ ofString "\x7d\x7d"

mutual

/-- `String(value)` throws: an object of its own `toString` is no text. -/
def hasNoText : Json → Bool
  | .object members => members.any fun entry => entry.1 = ofString "toString"
  | .array items => haveNoText items
  | _ => false

def haveNoText : List Json → Bool
  | [] => false
  | item :: items => hasNoText item || haveNoText items

end

/-- `String(value)` as a template, filled -/
def expandValue (context : Context) (mode : Mode) (value : Json) : Except Failure Utf16 :=
  if hasNoText value then .error .other
  else expandString (Validate.display value) context mode

/-- The pair of a key and one value of it. -/
def queryPair (context : Context) (key : Utf16) (value : Json) : Except Failure Utf16 := do
  let encoded ← match UriComponent.encodeURIComponent key with
    | some encoded => .ok encoded
    | none => .error .other
  (expandValue context .query value).map (encoded ++ ofString "=" ++ ·)

/-- `/^no value for \{\{input\./.test(err.message)` -/
def Failure.isMissingInput : Failure → Bool
  | .template error => (ofString "no value for \x7b\x7binput.").isPrefixOf error.message
  | _ => false

/-- The pairs of one key; none where an input is missing. -/
def queryEntry (context : Context) (entry : Utf16 × Json) : Except Failure (List Utf16) :=
  let values := match entry.2 with
    | .array items => items
    | value => [value]
  match values.mapM (queryPair context entry.1) with
  | .ok pairs => .ok pairs
  | .error failure => if failure.isMissingInput then .ok [] else .error failure

structure Built where
  method : Utf16
  url : Utf16
  headers : List (Utf16 × Utf16)
  body : Option Utf16
  contentType : Option Utf16

/-- The text of the address, and of the query behind it. -/
def buildUrl (spec : RequestSpec) (context : Context) : Except Failure Utf16 := do
  let url ← match spec.url with
    | some url => expandString url context .path
    | none => .error .other
  let pairs ← (spec.query.mapM (queryEntry context)).map List.flatten
  if pairs.isEmpty then .ok url
  else .ok (url ++ (if url.contains 0x3F then ofString "&" else ofString "?") ++
    join (ofString "&") pairs)

def RequestSpec.methodName (spec : RequestSpec) : Utf16 :=
  (spec.method.getD (ofString "GET")).map upper
where
  upper (unit : UInt16) : UInt16 := if isLower unit then unit - 0x20 else unit

/-- The body with its type. -/
def buildBody (spec : RequestSpec) (context : Context) :
    Except Failure (Option Utf16 × Option Utf16) :=
  let bodiless := spec.methodName = ofString "GET" || spec.methodName = ofString "HEAD"
  match spec.bodyText.filter fun _ => !bodiless, spec.body.filter fun body =>
      !bodiless && !(body matches .null) with
  | some text, _ => (expandValue context .text text).map fun text =>
      (some text, some (ofString "text/plain; charset=utf-8"))
  | none, some body => (expandDeep context body).map fun body =>
      (body.map Json.stringify, some (ofString "application/json"))
  | none, none => .ok (none, none)

def buildRequest (spec : RequestSpec) (context : Context) : Except Failure Built := do
  let url ← buildUrl spec context
  let headers ← spec.headers.mapM fun entry =>
    (expandValue context .header entry.2).map fun text => (entry.1, text)
  let (body, contentType) ← buildBody spec context
  .ok { method := spec.methodName, url, headers, body, contentType }

/-! ## Other secrets -/

section Secrets

variable {context : Context} {mode : Mode} {ref : Ref} {refs : List Ref}

/-- The context with other secrets. -/
def Context.withSecret (context : Context) (secret : Json) : Context := { context with secret }

/-- No reference is one to a secret. -/
def Public (refs : List Ref) : Prop := ∀ ref ∈ refs, ref.isSecret = false

theorem Public.mono {others : List Ref} (clear : Public refs) (part : others ⊆ refs) :
    Public others :=
  fun ref inside => clear ref (part inside)

theorem Public.append {others : List Ref} (clear : Public (refs ++ others)) :
    Public refs ∧ Public others :=
  ⟨clear.mono (List.subset_append_left _ _), clear.mono (List.subset_append_right _ _)⟩

variable {secret : Json}

theorem lookup_withSecret (clear : ref.isSecret = false) :
    lookup (context.withSecret secret) ref = lookup context ref := by
  rw [lookup, lookup]
  cases named : Scope.ofName? ref.scope with
  | none => rfl
  | some scope =>
      cases scope with
      | input | config | body => rfl
      | secret =>
          have same := List.find?_some named
          simp only [decide_eq_true_eq] at same
          rw [Ref.isSecret, ← same, decide_eq_true rfl] at clear
          contradiction

theorem expandRef_withSecret (clear : ref.isSecret = false) :
    expandRef (context.withSecret secret) mode ref = expandRef context mode ref := by
  rw [expandRef, expandRef, lookup_withSecret clear]

theorem expandPieces_withSecret {pieces : List Piece}
    (clear : ∀ ref, .ref ref ∈ pieces → ref.isSecret = false) :
    expandPieces (context.withSecret secret) mode pieces = expandPieces context mode pieces := by
  induction pieces with
  | nil => rfl
  | cons piece pieces ih =>
      have later := ih fun ref inside => clear ref (List.mem_cons_of_mem _ inside)
      cases piece with
      | unit unit => rw [expandPieces, expandPieces, later]
      | ref ref =>
          rw [expandPieces, expandPieces, later,
            expandRef_withSecret (clear ref List.mem_cons_self)]

theorem mem_refsIn_of_mem_pieces {text : Utf16} (inside : .ref ref ∈ pieces text) :
    ref ∈ refsIn text :=
  List.mem_filterMap.2 ⟨.ref ref, inside, rfl⟩

theorem expandString_withSecret {template : Utf16} (clear : Public (refsIn template)) :
    expandString template (context.withSecret secret) mode =
      expandString template context mode :=
  expandPieces_withSecret fun ref inside => clear ref (mem_refsIn_of_mem_pieces inside)

theorem isLeftOut_withSecret {value : Json} (clear : Public (findRefs value)) :
    isLeftOut (context.withSecret secret) value = isLeftOut context value := by
  cases value with
  | null | bool | number | array | object => rfl
  | string text =>
      rw [isLeftOut, isLeftOut]
      cases only : onlyRef text with
      | none => rfl
      | some ref =>
          simp only
          rw [lookup_withSecret (clear ref (mem_refsIn_of_onlyRef only))]

mutual

theorem expandDeep_withSecret (value : Json) (clear : Public (findRefs value)) :
    expandDeep (context.withSecret secret) value = expandDeep context value := by
  match value with
  | .null | .bool _ | .number _ => simp only [expandDeep]
  | .string text =>
      rw [expandDeep, expandDeep]
      cases only : onlyRef text with
      | none =>
          simp only
          rw [expandString_withSecret clear]
      | some ref =>
          simp only
          rw [lookup_withSecret (clear ref (mem_refsIn_of_onlyRef only))]
  | .array items => rw [expandDeep, expandDeep, expandItems_withSecret items clear]
  | .object members => rw [expandDeep, expandDeep, expandMembers_withSecret members clear]

theorem expandItems_withSecret (items : List Json) (clear : Public (findRefsItems items)) :
    expandItems (context.withSecret secret) items = expandItems context items := by
  match items with
  | [] => rfl
  | item :: items =>
      obtain ⟨here, later⟩ := clear.append
      rw [expandItems, expandItems, expandDeep_withSecret item here,
        expandItems_withSecret items later]

theorem expandMembers_withSecret (members : List (Utf16 × Json))
    (clear : Public (findRefsMembers members)) :
    expandMembers (context.withSecret secret) members = expandMembers context members := by
  match members with
  | [] => rfl
  | (name, value) :: members =>
      obtain ⟨here, later⟩ := clear.append
      rw [expandMembers, expandMembers, isLeftOut_withSecret here,
        expandDeep_withSecret value here, expandMembers_withSecret members later]

end

theorem expandValue_withSecret {value : Json} (proper : value.isProper = true)
    (clear : Public (findRefs value)) :
    expandValue (context.withSecret secret) mode value = expandValue context mode value := by
  rw [expandValue, expandValue, expandString_withSecret (clear.mono (refsIn_display value proper))]

theorem mapM_congr {α β ε : Type} {items : List α} {f g : α → Except ε β}
    (same : ∀ item ∈ items, f item = g item) : items.mapM f = items.mapM g := by
  induction items with
  | nil => rfl
  | cons item items ih =>
      rw [List.mapM_cons, List.mapM_cons, same item List.mem_cons_self,
        ih fun item inside => same item (List.mem_cons_of_mem _ inside)]

theorem findRefs_subset_items {item : Json} {items : List Json} (inside : item ∈ items) :
    findRefs item ⊆ findRefsItems items := by
  induction items with
  | nil => contradiction
  | cons first items ih =>
      rw [findRefsItems]
      cases List.mem_cons.1 inside with
      | inl here => exact here ▸ List.subset_append_left _ _
      | inr later => exact List.Subset.trans (ih later) (List.subset_append_right _ _)

theorem queryEntry_withSecret {entry : Utf16 × Json} (proper : entry.2.isProper = true)
    (clear : Public (findRefs entry.2)) :
    queryEntry (context.withSecret secret) entry = queryEntry context entry := by
  obtain ⟨name, value⟩ := entry
  have pair : ∀ item : Json, item.isProper = true → Public (findRefs item) →
      queryPair (context.withSecret secret) name item = queryPair context name item := by
    intro item proper clear
    rw [queryPair, queryPair, expandValue_withSecret proper clear]
  rw [queryEntry, queryEntry]
  congr 1
  cases value with
  | array items =>
      apply mapM_congr
      intro item inside
      exact pair item ((Json.areProper_iff items).1 proper item inside) (clear.mono (findRefs_subset_items inside))
  | null | bool | number | string | object =>
      apply mapM_congr
      intro item inside
      rw [List.mem_singleton.1 inside]
      exact pair _ proper clear

theorem findRefs_subset_members {entry : Utf16 × Json} {members : List (Utf16 × Json)}
    (inside : entry ∈ members) : findRefs entry.2 ⊆ findRefsMembers members := by
  induction members with
  | nil => contradiction
  | cons first members ih =>
      obtain ⟨name, value⟩ := first
      rw [findRefsMembers]
      cases List.mem_cons.1 inside with
      | inl here => exact here ▸ List.subset_append_left _ _
      | inr later => exact List.Subset.trans (ih later) (List.subset_append_right _ _)

variable {spec : RequestSpec}

/-- The address holds what its references stand for. -/
theorem buildUrl_withSecret (clear : Public spec.urlRefs)
    (clear' : Public (findRefsMembers spec.query)) :
    buildUrl spec (context.withSecret secret) = buildUrl spec context := by
  have proper := (Bool.and_eq_true_iff.1 spec.proper).1
  have entries : spec.query.mapM (queryEntry (context.withSecret secret)) =
      spec.query.mapM (queryEntry context) := by
    apply mapM_congr
    intro entry inside
    exact queryEntry_withSecret ((Json.areProperMembers_iff _).1 proper _ inside)
      (clear'.mono (findRefs_subset_members inside))
  rw [buildUrl, buildUrl, entries]
  cases given : spec.url with
  | none => rfl
  | some url =>
      have clear : Public (refsIn url) := by
        rw [RequestSpec.urlRefs, given] at clear
        exact clear
      simp only
      rw [expandString_withSecret clear]

theorem buildBody_withSecret (clear : Public spec.bodyRefs) :
    buildBody spec (context.withSecret secret) = buildBody spec context := by
  have proper := (Bool.and_eq_true_iff.1 spec.proper).2
  obtain ⟨inBody, inText⟩ := clear.append
  rw [buildBody, buildBody]
  split
  next text _ found =>
    obtain ⟨given, _⟩ := Option.filter_eq_some_iff.1 found
    rw [given] at inText proper
    rw [expandValue_withSecret proper inText]
  next body _ found =>
    obtain ⟨given, _⟩ := Option.filter_eq_some_iff.1 found
    rw [given] at inBody
    rw [expandDeep_withSecret body inBody]
  next => rfl

theorem clear_of_misplaced {place : String} (fine : misplaced place refs = []) : Public refs := by
  intro ref inside
  cases secret : ref.isSecret with
  | false => rfl
  | true =>
      have held := List.map_eq_nil_iff.1 fine
      have kept : ref ∈ refs.filter Ref.isSecret := List.mem_filter.2 ⟨inside, secret⟩
      rw [held] at kept
      contradiction

end Secrets

end Template

end TitanRunner
