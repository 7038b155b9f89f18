import TitanRunner.Redacted
import TitanRunner.Worker.ActionRequest
import TitanRunner.Worker.Chat

/-!
# The result of an action

What becomes of the answer to an action: `connectors/shape.js` keeps the listed fields and cuts
what is too large, `shapeResponse` makes a result of it, and `executeAction` scrubs the data
before `invokeAction` hands it on.
-/

namespace TitanRunner

namespace ActionResult

open Regex Redact Utf16 Masking

/-! ## Scrubbing -/

/-- `RESULT_PATTERNS`: without addresses and the two generic patterns, the last three. -/
def resultPatterns : List Regex := secretPatterns.take 23

/-- Every match of a result pattern in a string, replaced. -/
def scrubText (text : Utf16) : Utf16 :=
  resultPatterns.foldl (fun out pattern => pattern.replaceAll (fun _ => mask) out) text

mutual

def scrubValue (depth : Nat) : Json → Json
  | .string text => .string (scrubText text)
  | .array items => if 10 ≤ depth then .array items else .array (scrubItems (depth + 1) items)
  | .object members =>
      if 10 ≤ depth then .object members else .object (scrubMembers (depth + 1) members)
  | value => value

def scrubItems (depth : Nat) : List Json → List Json
  | [] => []
  | item :: items => scrubValue depth item :: scrubItems depth items

def scrubMembers (depth : Nat) : List (Utf16 × Json) → List (Utf16 × Json)
  | [] => []
  | (name, value) :: members => (name, scrubValue depth value) :: scrubMembers depth members

end

/-! ## Shaping -/

/-- A part of a path: its key, and whether it ends in `[]`. -/
structure Part where
  key : Utf16
  many : Bool := false
  deriving DecidableEq

/-- A path of a `pick` list.  No part of one names what lists or objects inherit. -/
abbrev Path := List Part

def names (paths : List Path) (key : Utf16) : Bool :=
  paths.any fun path => path.head?.any fun part => part.key = key

/-- `key in value`, and the member. -/
def own (value : Json) (key : Utf16) : Option Json := value.member key

/-- `dst[key] = value` -/
def put (dst : Json) (key : Utf16) (value : Json) : Json :=
  match dst with
  | .object members => .object (KeyedList.insert Prod.fst members (key, value))
  | other => other

def pickInto : Path → Json → Json → Json
  | [], _, dst => dst
  | part :: rest, src, dst =>
      match own src part.key, rest with
      | none, _ => dst
      | some value, [] => put dst part.key value
      | some (.array items), rest =>
          let made :=
            match own dst part.key with
            | some (.array made) => made
            | _ => items.map fun _ => .object []
          put dst part.key (.array (List.zipWith (pickInto rest) items made))
      | some (.object members), rest =>
          if part.many then dst
          else
            let made :=
              match own dst part.key with
              | some (.object made) => .object made
              | some (.array made) => .array made
              | _ => .object []
            put dst part.key (pickInto rest (.object members) made)
      | some _, _ => dst

/-- The lists that an answer may wrap its items in. -/
def wrapNames : List Utf16 := ["results", "items", "data", "issues", "values"].map ofString

/-- The member that wraps the items, if no path begins at a member. -/
def wrapOf (paths : List Path) (members : List (Utf16 × Json)) : Option Utf16 :=
  let value := Json.object members
  (wrapNames.find? fun key => ((own value key).bind Json.array?).isSome && !names paths key).filter
    fun _ => paths.all fun path => path.head?.all fun part => (own value part.key).isNone

mutual

def pick (paths : List Path) : Json → Json
  | .array items => .array (pickItems paths items)
  | .object members =>
      match wrapOf paths members with
      | some key =>
          .object [(key, (own (.object (pickLists paths members)) key).getD .null)]
      | none => paths.foldl (fun out path => pickInto path (.object members) out) (.object [])
  | _ => .object []

def pickItems (paths : List Path) : List Json → List Json
  | [] => []
  | item :: items => pick paths item :: pickItems paths items

/-- The lists among the members, picked item by item. -/
def pickLists (paths : List Path) : List (Utf16 × Json) → List (Utf16 × Json)
  | [] => []
  | (name, value) :: members => (name, pickList paths value) :: pickLists paths members

def pickList (paths : List Path) : Json → Json
  | .array items => .array (pickItems paths items)
  | value => value

end

/-- `MAX_RESULT_BYTES` -/
def maxResultBytes : Nat := 32000

mutual

/-- Long strings and long lists are cut. -/
def shrink (limit : Nat) : Json → Json
  | .string text =>
      .string (if limit < text.length then text.take limit ++ ofString "..." else text)
  | .array items => .array ((shrinkItems limit items).take 25)
  | .object members => .object (shrinkMembers limit members)
  | value => value

def shrinkItems (limit : Nat) : List Json → List Json
  | [] => []
  | item :: items => shrink limit item :: shrinkItems limit items

def shrinkMembers (limit : Nat) : List (Utf16 × Json) → List (Utf16 × Json)
  | [] => []
  | (name, value) :: members => (name, shrink limit value) :: shrinkMembers limit members

end

/-- The first of the values, each cut shorter than the one before, that fits. -/
def capFrom (maxBytes : Nat) : List Nat → Json → Json
  | [], _ => .object
      [(ofString "note", .string (ofString "The result was too large to return."))]
  | limit :: limits, value =>
      let cut := shrink limit value
      if cut.stringify.length ≤ maxBytes then cut else capFrom maxBytes limits cut

/-- `capSize`: the value, and whether it was cut. -/
def capSize (value : Json) (maxBytes : Nat) : Json × Bool :=
  if value.stringify.length ≤ maxBytes then (value, false)
  else (capFrom maxBytes [500, 200, 80] value, true)

/-! ## Results -/

inductive Mode where
  | json | text | status
  deriving DecidableEq

/-- What a manifest says of the answer to an action. -/
structure Spec where
  id : Utf16
  name : Utf16
  handler : Option Utf16 := none
  okStatus : List Nat := [200, 201, 202, 204]
  response : Mode := .json
  pick : List Path := []
  /-- `request.graphql`, or `test.expect.noGraphqlErrors` -/
  graphql : Bool := false

structure Reply where
  status : Nat
  text : Utf16
  /-- `contentType` has `json` in it. -/
  typedJson : Bool := false

structure Result where
  ok : Bool
  status : Nat
  data : Option Json := none
  truncated : Option Bool := none
  error : Option Utf16 := none

/-- The `shape` of a handler; `none` if it throws. -/
abbrev Handlers := Utf16 → Option (Reply → Option Result)

/-- What is known of a reply in which JSON is looked for: `none` if it is none. -/
def Reply.parsed (reply : Reply) (response : Mode) : Option Json :=
  if response = .json || reply.typedJson then
    if reply.text.isEmpty then some .null else Json.parse reply.text
  else none

def memberOf (value : Option Json) (name : String) : Option Json :=
  Chat.present (value.bind fun value => value.member (ofString name))

def answered (spec : Spec) (status : Nat) : Utf16 :=
  spec.name ++ ofString " answered " ++ ofNat status

/-- `parsed.message ?? parsed.error?.message ?? …`, as far as it is a text -/
def messageOf (parsed : Option Json) : Option Utf16 :=
  ((memberOf parsed "message").or <| (memberOf (memberOf parsed "error") "message").or <|
    (memberOf parsed "error").or <| (memberOf parsed "description").or <|
      memberOf parsed "detail").bind Json.string?

/-- What the service says went wrong; `none` if the text of it throws. -/
def refusal (spec : Spec) (parsed : Option Json) (status : Nat) : Option (Option Utf16) :=
  if status ∉ spec.okStatus then
    some (some (answered spec status ++ ((messageOf parsed).map fun text =>
      ofString ": " ++ text.take 160).getD []))
  else if spec.id = ofString "telegram" ∧
      ((parsed.bind fun value => value.member (ofString "ok")) matches some (.bool false)) then
    (Chat.textOf (memberOf parsed "description")).map fun text =>
      some (ofString "Telegram refused the call: " ++ text.take 160)
  else
    match (memberOf parsed "errors").bind Json.array? with
    | some errors =>
        if spec.graphql then
          (Chat.textOf (some ((memberOf errors.head? "message").getD
            (.string (ofString "unknown"))))).map fun text =>
              some (spec.name ++ ofString " returned an error: " ++ text.take 160)
        else some none
    | none => some none

/-- The data of an answer that is no refusal. -/
def dataOf (spec : Spec) (reply : Reply) (parsed : Option Json) : Result :=
  match spec.response with
  | .status =>
      { ok := true, status := reply.status
        data := some (.object [(ofString "status", .number (ofNat reply.status))]) }
  | .text =>
      let capped := capSize (.object
        [(ofString "text", .string (reply.text.take maxResultBytes))]) maxResultBytes
      { ok := true, status := reply.status, data := some capped.1, truncated := some capped.2 }
  | .json =>
      match parsed with
      | none =>
          { ok := false, status := reply.status
            error := some (spec.name ++ ofString " did not return JSON.") }
      | some parsed =>
          let picked := if spec.pick.isEmpty then parsed else pick spec.pick parsed
          let capped := capSize picked maxResultBytes
          { ok := true, status := reply.status, data := some capped.1, truncated := some capped.2 }

def shapeResponse (handlers : Handlers) (spec : Spec) (reply : Reply) : Option Result :=
  match (spec.handler.filter fun name => !name.isEmpty).bind handlers with
  | some shape => shape reply
  | none =>
      let parsed := reply.parsed spec.response
      (refusal spec parsed reply.status).map fun refused =>
        match refused with
        | some error => { ok := false, status := reply.status, error := some error }
        | none => dataOf spec reply parsed

/-- Where the result of an action comes from. -/
inductive Source where
  /-- `refreshRemoteTools` or `callRemoteTool`, of a remote server. -/
  | remote (out : Result)
  /-- One request to the service. -/
  | request (reply : Reply)

/-- `executeAction`, from the answer on. -/
def executeAction (handlers : Handlers) (spec : Spec) : Source → Option Result
  | .remote out => some { out with data := out.data.map (scrubValue 0) }
  | .request reply => (shapeResponse handlers spec reply).map fun shaped =>
      if shaped.ok then { shaped with data := shaped.data.map (scrubValue 0) } else shaped

/-- `invokeAction`: the data that a call returns. -/
def returned (handlers : Handlers) (spec : Spec) (source : Source) : Option Json :=
  (executeAction handlers spec source).bind fun result => if result.ok then result.data else none

/-! ## The strings of a value -/

/-- A string stands in a value, under so many lists and objects. -/
inductive StringAt : Json → Nat → Utf16 → Prop where
  | here (text : Utf16) : StringAt (.string text) 0 text
  | item {items : List Json} {item : Json} {under : Nat} {text : Utf16} (inside : item ∈ items)
      (at' : StringAt item under text) : StringAt (.array items) (under + 1) text
  | member {members : List (Utf16 × Json)} {name : Utf16} {value : Json} {under : Nat}
      {text : Utf16} (inside : (name, value) ∈ members) (at' : StringAt value under text) :
      StringAt (.object members) (under + 1) text

/-- What becomes of a string at a depth. -/
def scrubbedAt (depth : Nat) (text : Utf16) : Utf16 := if depth ≤ 10 then scrubText text else text

section Strings

variable {value item : Json} {items : List Json} {members : List (Utf16 × Json)} {name : Utf16}
variable {depth under : Nat} {text : Utf16}

theorem stringAt_string {content : Utf16} :
    StringAt (.string content) under text ↔ under = 0 ∧ text = content := by
  constructor
  · rintro ⟨⟩
    exact ⟨rfl, rfl⟩
  · rintro ⟨rfl, rfl⟩
    exact .here _

theorem stringAt_array : StringAt (.array items) under text ↔
    ∃ item ∈ items, ∃ less, under = less + 1 ∧ StringAt item less text := by
  constructor
  · rintro (_ | ⟨inside, at'⟩)
    exact ⟨_, inside, _, rfl, at'⟩
  · rintro ⟨item, inside, less, rfl, at'⟩
    exact .item inside at'

theorem stringAt_object : StringAt (.object members) under text ↔
    ∃ name value, (name, value) ∈ members ∧
      ∃ less, under = less + 1 ∧ StringAt value less text := by
  constructor
  · rintro (_ | _ | ⟨inside, at'⟩)
    exact ⟨_, _, inside, _, rfl, at'⟩
  · rintro ⟨name, value, inside, less, rfl, at'⟩
    exact .member inside at'

theorem mem_scrubItems : item ∈ scrubItems depth items ↔
    ∃ old ∈ items, item = scrubValue depth old := by
  induction items with
  | nil => simp [scrubItems]
  | cons first items ih => simp [scrubItems, ih]

theorem mem_scrubMembers : (name, value) ∈ scrubMembers depth members ↔
    ∃ old, (name, old) ∈ members ∧ value = scrubValue depth old := by
  induction members with
  | nil => simp [scrubMembers]
  | cons first members ih =>
      obtain ⟨name', old⟩ := first
      simp only [scrubMembers, List.mem_cons, Prod.mk.injEq, ih]
      constructor
      · rintro (⟨rfl, rfl⟩ | ⟨old, inside, rfl⟩)
        · exact ⟨old, .inl ⟨rfl, rfl⟩, rfl⟩
        · exact ⟨old, .inr inside, rfl⟩
      · rintro ⟨old, ⟨rfl, rfl⟩ | inside, rfl⟩
        · exact .inl ⟨rfl, rfl⟩
        · exact .inr ⟨old, inside, rfl⟩

/-- Below ten lists or objects a value is handed on as it is. -/
theorem scrubValue_deep (deep : 10 ≤ depth) (composite : ∀ content, value ≠ .string content) :
    scrubValue depth value = value := by
  cases value with
  | string content => exact absurd rfl (composite content)
  | array | object => simp [scrubValue, deep]
  | null | bool | number => rfl

/-- The strings of a scrubbed value are those of the value, and each that stands under ten
lists and objects at most is scrubbed. -/
theorem stringAt_scrubValue (shallow : depth ≤ 10) : StringAt (scrubValue depth value) under text ↔
    ∃ old, StringAt value under old ∧ text = scrubbedAt (depth + under) old := by
  induction under generalizing value depth with
  | zero =>
      cases value with
      | string content =>
          simp [scrubValue, stringAt_string, scrubbedAt, shallow]
      | array items =>
          unfold scrubValue
          split <;> simp [stringAt_array]
      | object members =>
          unfold scrubValue
          split <;> simp [stringAt_object]
      | null | bool | number =>
          simp only [scrubValue]
          constructor
          · rintro ⟨⟩
          · rintro ⟨_, ⟨⟩, _⟩
  | succ under ih =>
      rcases Nat.lt_or_ge depth 10 with room | deep
      · have next : depth + 1 ≤ 10 := room
        have same : depth + 1 + under = depth + (under + 1) := by omega
        cases value with
        | string content => simp [scrubValue, stringAt_string]
        | array items =>
            rw [scrubValue, if_neg (by omega), stringAt_array]
            simp only [mem_scrubItems, stringAt_array, Nat.add_right_cancel_iff, ← same]
            constructor
            · rintro ⟨_, ⟨old, inside, rfl⟩, less, rfl, at'⟩
              obtain ⟨before, at', equal⟩ := (ih next).mp at'
              exact ⟨before, ⟨old, inside, _, rfl, at'⟩, equal⟩
            · rintro ⟨before, ⟨old, inside, less, rfl, at'⟩, equal⟩
              exact ⟨_, ⟨old, inside, rfl⟩, _, rfl, (ih next).mpr ⟨before, at', equal⟩⟩
        | object members =>
            rw [scrubValue, if_neg (by omega), stringAt_object]
            simp only [mem_scrubMembers, stringAt_object, Nat.add_right_cancel_iff, ← same]
            constructor
            · rintro ⟨name, _, ⟨old, inside, rfl⟩, less, rfl, at'⟩
              obtain ⟨before, at', equal⟩ := (ih next).mp at'
              exact ⟨before, ⟨name, old, inside, _, rfl, at'⟩, equal⟩
            · rintro ⟨before, ⟨name, old, inside, less, rfl, at'⟩, equal⟩
              exact ⟨name, _, ⟨old, inside, rfl⟩, _, rfl,
                (ih next).mpr ⟨before, at', equal⟩⟩
        | null | bool | number =>
            simp only [scrubValue]
            constructor
            · rintro ⟨⟩
            · rintro ⟨_, ⟨⟩, _⟩
      · have beyond : ¬ depth + (under + 1) ≤ 10 := by omega
        have kept : StringAt (scrubValue depth value) (under + 1) text ↔
            StringAt value (under + 1) text := by
          cases value with
          | string content => simp [scrubValue, stringAt_string]
          | _ => rw [scrubValue_deep deep (by rintro content ⟨⟩)]
        rw [kept]
        simp [scrubbedAt, beyond]

end Strings

/-! ## What is returned -/

theorem least_pos_result : ∀ pattern ∈ resultPatterns, 0 < pattern.least :=
  fun pattern listed => least_pos pattern (List.mem_of_mem_take listed)

theorem spares_mask_result : ∀ pattern ∈ resultPatterns, Spares mask pattern :=
  fun pattern listed => spares_mask pattern (List.mem_of_mem_take listed)

/-- The data that a call returns is a scrubbed value. -/
theorem scrubbed_of_returned {handlers : Handlers} {spec : Spec} {source : Source} {data : Json}
    (back : returned handlers spec source = some data) : ∃ value, data = scrubValue 0 value := by
  obtain ⟨result, made, found⟩ := Option.bind_eq_some_iff.mp back
  split at found
  next ok =>
    cases source with
    | remote out =>
        obtain rfl := Option.some.inj made
        obtain ⟨value, -, rfl⟩ := Option.map_eq_some_iff.mp found
        exact ⟨value, rfl⟩
    | request reply =>
        obtain ⟨shaped, -, rfl⟩ := Option.map_eq_some_iff.mp made
        split at found
        · obtain ⟨value, -, rfl⟩ := Option.map_eq_some_iff.mp found
          exact ⟨value, rfl⟩
        next failed => exact absurd ok (by simp_all)
  next => cases found

/-- In the data that a call returns, whatever the service or the remote tool answers, every match
of a result pattern in a string under ten lists and objects at most overlaps or adjoins a mask;
and a string in which no pattern matches is left as it is when it is scrubbed again. -/
theorem returned_masked (handlers : Handlers) (spec : Spec) (source : Source) (data : Json)
    (back : returned handlers spec source = some data) (under : Nat) (shallow : under ≤ 10)
    (text : Utf16) (at' : StringAt data under text) :
    (∀ pattern ∈ resultPatterns, ∀ before piece after, text = before ++ (piece ++ after) →
      Spans pattern (unitBefore none before) piece after.head? →
      Touches mask before piece after) ∧
    ((∀ pattern ∈ resultPatterns, pattern.test text = false) → scrubText text = text) := by
  obtain ⟨value, rfl⟩ := scrubbed_of_returned back
  obtain ⟨old, -, equal⟩ := (stringAt_scrubValue (Nat.zero_le 10)).mp at'
  rw [Nat.zero_add, scrubbedAt, if_pos shallow] at equal
  rw [equal]
  constructor
  · intro pattern listed
    exact masked_foldl least_pos_result spares_mask_result old listed
  · exact fun clean => foldl_of_test clean

def plainSpec : Spec where
  id := ofString "hub"
  name := ofString "Hub"

/-- A text with a token in it. -/
def tokenText : Utf16 := ofString "key ghp_aaaaaaaaaaaaaaaa"

/-- A remote tool gives back a list with the text. -/
def tokenSource : Source :=
  .remote { ok := true, status := 200, data := some (.array [.string tokenText]) }

theorem returned_masked_token :
    returned (fun _ => none) plainSpec tokenSource = some (.array [.string (scrubText tokenText)]) ∧
    ∀ pattern ∈ resultPatterns, ∀ before piece after,
      scrubText tokenText = before ++ (piece ++ after) →
      Spans pattern (unitBefore none before) piece after.head? →
      Touches mask before piece after :=
  ⟨rfl, (returned_masked (fun _ => none) plainSpec tokenSource _ rfl 1 (by decide)
    (scrubText tokenText) (.item List.mem_cons_self (.here _))).1⟩

/-- The mask of a token is taken for the value of a header that is too short without it. -/
def headerText : Utf16 := ofString "authorization: token=a,bcdefghij"

theorem not_returned_clean : ¬ ∀ (handlers : Handlers) (spec : Spec) (source : Source)
    (data : Json), returned handlers spec source = some data →
    ∀ (under : Nat) (text : Utf16), StringAt data under text →
      ∀ pattern ∈ resultPatterns, pattern.test text = false := by
  intro clean
  have found := clean (fun _ => none) plainSpec
    (.remote { ok := true, status := 200, data := some (.string headerText) }) _ rfl 0 _
    (.here (scrubText headerText)) authorizationHeader
    (by simp [resultPatterns, secretPatterns])
  have left : authorizationHeader.test (scrubText headerText) = true := by decide +kernel
  rw [left] at found
  contradiction

end ActionResult

end TitanRunner
