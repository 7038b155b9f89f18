import TitanRunner.Redacted
import TitanRunner.Validate

/-!
# The write gate

`reviewer/githubGatePolicy.js`: every write to GitHub is one of the kinds below, carries the fields
of its kind and no others, and has its free text cleaned.
-/

namespace TitanRunner

namespace GithubGate

open Regex Utf16 Redact Masking Validate

/-- `TEXT_PATTERNS`: all but the two generic ones. -/
def textPatterns : List Regex := secretPatterns.take (secretPatterns.length - 2)

def allowedDispatchEvents : List String :=
  ["titan-pulse", "spawn-subagent", "provision-vm", "provider-selftest", "callback-ping"]

/-- `LABEL_PATTERN` -/
def labelPattern : Regex :=
  seqs [.start, alts [seqs [Regex.text "titan-", .oneOf isLower,
    .repeat' (fun unit => isLower unit || isDigit unit || among "-" unit) 0 (some 40) false],
      Regex.text "host-alert"], .stop]

def removableLabels : List String := ["titan-task"]

def extraSecretNames : List String := ["TITAN_CALLBACK_TOKEN", "TITAN_DIAG_PROBE"]

def maxTextChars : Nat := 60000

def maxTitleChars : Nat := 256

structure Cleaned where
  text : Utf16
  redactions : Nat := 0
  deriving DecidableEq, Repr

def cleanText (text : Utf16) : Cleaned :=
  textPatterns.foldl (fun cleaned pattern =>
    { text := pattern.replaceAll (fun _ => mask) cleaned.text
      redactions := cleaned.redactions + (pattern.matches' cleaned.text).length }) { text := text }

/-! ## Writes and verdicts -/

/-- The method of a request, in capital letters. -/
inductive Method where
  | post | put | patch | delete
  | other (name : Utf16)
  deriving DecidableEq, Repr

def Method.name : Method → Utf16
  | .post => ofString "POST"
  | .put => ofString "PUT"
  | .patch => ofString "PATCH"
  | .delete => ofString "DELETE"
  | .other name => name

structure Request where
  method : Method
  path : Utf16
  body : Option Json

/-- The repository that Runner writes to. -/
structure Context where
  /-- `owner/name` -/
  repository : Utf16
  secretNames : List Utf16
  /-- Why `classifyAction` holds a pull request of this head and title for destructive, if so. -/
  destructive : Utf16 → Utf16 → Option Utf16

inductive Kind where
  | none' | foreign | comment | createIssue | updateIssue | addLabels | removeLabel | createPr
  | closePr | dispatch | putSecret | deleteSecret | unknown
  deriving DecidableEq, Repr

inductive Verdict where
  | blocked (kind : Kind) (reason : Utf16)
  /-- The write goes on, with this body. -/
  | allowed (kind : Kind) (body : Option Json) (redactions : Nat)
  /-- `decodeURIComponent` throws. -/
  | threw

def blocked (kind : Kind) (reason : String) : Verdict := .blocked kind (ofString reason)

/-- `Object.keys` -/
def keysOf : Json → List Utf16
  | .object members => members.map Prod.fst
  | .array items => (List.range items.length).map ofNat
  | _ => []

/-- Some field is none of these. -/
def hasOther (fields : List String) (body : Json) : Bool :=
  (keysOf body).any fun key => !(fields.map ofString).contains key

/-- `body[name] ?? otherwise` -/
def memberOr (otherwise : Json) (name : String) (body : Json) : Json :=
  match body.member (ofString name) with
  | none | some .null => otherwise
  | some value => value

def cleanField (value : Option Json) (max : Nat) (field : String) : Except Utf16 Cleaned :=
  match value with
  | some (.string text) =>
      if max < text.length then
        .error (ofString (field ++ " is longer than ") ++ ofNat max ++ ofString " characters")
      else .ok (cleanText text)
  | _ => .error (ofString (field ++ " must be a string"))

/-- Label names, `least` to five of them. -/
def areLabels (least : Nat) : Json → Bool
  | .array items => least ≤ items.length && items.length ≤ 5 &&
      items.all fun item => item.string?.any labelPattern.test
  | _ => false

/-! ## Escapes of a path -/

/-- The byte of an escape, and what follows it. -/
def escapedByte : Utf16 → Option (Nat × Utf16)
  | 0x25 :: high :: low :: rest => do
      let high ← Json.hexValue high
      let low ← Json.hexValue low
      some (high.toNat * 16 + low.toNat, rest)
  | _ => none

/-- What further bytes of a character add to its code. -/
def escapedTail : Nat → Nat → Utf16 → Option (Nat × Utf16)
  | 0, code, text => some (code, text)
  | count + 1, code, text => do
      let (byte, rest) ← escapedByte text
      if 0x80 ≤ byte ∧ byte < 0xC0 then escapedTail count (code * 64 + (byte - 0x80)) rest else none

/-- How many bytes follow a first byte, the least code of this length, and the bits it holds. -/
def leadingByte (byte : Nat) : Option (Nat × Nat × Nat) :=
  if byte < 0x80 then some (0, 0, byte)
  else if byte < 0xC0 then none
  else if byte < 0xE0 then some (1, 0x80, byte - 0xC0)
  else if byte < 0xF0 then some (2, 0x800, byte - 0xE0)
  else if byte < 0xF8 then some (3, 0x10000, byte - 0xF0)
  else none

def decodeFrom : Nat → Utf16 → Option Utf16
  | 0, _ | _, [] => some []
  | fuel + 1, unit :: rest =>
      if unit ≠ 0x25 then (decodeFrom fuel rest).map (unit :: ·)
      else do
        let (byte, rest) ← escapedByte (unit :: rest)
        let (count, least, bits) ← leadingByte byte
        let (code, rest) ← escapedTail count bits rest
        if least ≤ code ∧ code < 0x110000 ∧ ¬ (0xD800 ≤ code ∧ code < 0xE000) then
          (decodeFrom fuel rest).map (units (Char.ofNat code) ++ ·)
        else none

def decodeURIComponent (text : Utf16) : Option Utf16 := decodeFrom text.length text

example : decodeURIComponent (ofString "titan%2Dtask%E2%82%AC") = some (ofString "titan-task€") := by
  decide +kernel

/-! ## The kinds of writes -/

def checkComment (body : Json) : Verdict :=
  if hasOther ["body"] body then blocked .comment "a comment may carry only a body"
  else
    match cleanField (body.member (ofString "body")) maxTextChars "body" with
    | .error error => .blocked .comment error
    | .ok text => .allowed .comment (some (.object [(ofString "body", .string text.text)]))
        text.redactions

def checkCreateIssue (body : Json) : Verdict :=
  if hasOther ["title", "body", "labels"] body then
    blocked .createIssue "unknown field in the Issue"
  else
    match cleanField (body.member (ofString "title")) maxTitleChars "title" with
    | .error error => .blocked .createIssue error
    | .ok title =>
        match cleanField (some (memberOr (.string []) "body" body)) maxTextChars "body" with
        | .error error => .blocked .createIssue error
        | .ok text =>
            let labels := memberOr (.array []) "labels" body
            if !areLabels 0 labels then
              blocked .createIssue "labels must be titan-* names or host-alert, five at most"
            else
              .allowed .createIssue (some (.object [
                (ofString "title", .string title.text),
                (ofString "body", .string text.text),
                (ofString "labels", labels)]))
                (title.redactions + text.redactions)

/-- The member is one of these texts. -/
def isOneOf (values : List String) (value : Option Json) : Bool :=
  (value.bind Json.string?).any fun text => (values.map ofString).contains text

def issueStates : List String := ["open", "closed"]

def stateReasons : List String := ["completed", "not_planned", "reopened"]

def checkUpdateIssue (body : Json) : Verdict :=
  if hasOther ["state", "state_reason"] body then
    blocked .updateIssue "an Issue update may set only the state"
  else if !isOneOf issueStates (body.member (ofString "state")) then
    blocked .updateIssue "state must be open or closed"
  else if (body.member (ofString "state_reason")).isSome &&
      !isOneOf stateReasons (body.member (ofString "state_reason")) then
    blocked .updateIssue "unknown state_reason"
  else .allowed .updateIssue (some body) 0

def checkAddLabels (body : Json) : Verdict :=
  match (body.member (ofString "labels")).filter (areLabels 1) with
  | none => blocked .addLabels "labels must be titan-* names or host-alert, five at most"
  | some labels => .allowed .addLabels (some (.object [(ofString "labels", labels)])) 0

def checkRemoveLabel (label : Utf16) : Verdict :=
  match decodeURIComponent label with
  | none => .threw
  | some name =>
      if !(removableLabels.map ofString).contains name then
        .blocked .removeLabel (ofString "the label " ++ name ++ ofString " may not be removed")
      else .allowed .removeLabel none 0

def isBranchUnit (unit : UInt16) : Bool := isAlnum unit || among "._-" unit

/-- `/^self-improve\/[A-Za-z0-9._-]+$/` -/
def headPattern : Regex := seqs [.start, Regex.text "self-improve/", atLeast isBranchUnit 1, .stop]

def checkCreatePr (context : Context) (body : Json) : Verdict :=
  if hasOther ["title", "head", "base", "body", "draft"] body then
    blocked .createPr "unknown field in the pull request"
  else
    match body.member (ofString "draft") with
    | some (.bool true) =>
        match ((body.member (ofString "head")).bind Json.string?).filter headPattern.test with
        | none => blocked .createPr "the head branch must start with self-improve/"
        | some head =>
            if !isOneOf ["main"] (body.member (ofString "base")) then
              blocked .createPr "the base branch must be main"
            else
              match cleanField (body.member (ofString "title")) maxTitleChars "title" with
              | .error error => .blocked .createPr error
              | .ok title =>
                  match cleanField (some (memberOr (.string []) "body" body)) maxTextChars
                      "body" with
                  | .error error => .blocked .createPr error
                  | .ok text =>
                      match context.destructive head
                          (((body.member (ofString "title")).bind Json.string?).getD []) with
                      | some reasons => .blocked .createPr
                          (ofString "the pull request text looks destructive: " ++ reasons)
                      | none =>
                          .allowed .createPr (some (.object [
                            (ofString "title", .string title.text),
                            (ofString "head", .string head),
                            (ofString "base", .string (ofString "main")),
                            (ofString "body", .string text.text),
                            (ofString "draft", .bool true)]))
                            (title.redactions + text.redactions)
    | _ => blocked .createPr "a pull request from Runner must be a draft"

def checkClosePr (body : Json) : Verdict :=
  if hasOther ["state"] body || !isOneOf ["closed"] (body.member (ofString "state")) then
    blocked .closePr "a pull request may only be closed"
  else .allowed .closePr (some (.object [(ofString "state", .string (ofString "closed"))])) 0

/-- `String(value)`, where there may be no value. -/
def displayOf : Option Json → Utf16
  | none => ofString "undefined"
  | some value => display value

def checkDispatch (body : Json) : Verdict :=
  if hasOther ["event_type", "client_payload"] body then
    blocked .dispatch "unknown field in the dispatch"
  else
    match ((body.member (ofString "event_type")).bind Json.string?).filter
        (allowedDispatchEvents.map ofString).contains with
    | none => .blocked .dispatch (ofString "the event type " ++
        (displayOf (body.member (ofString "event_type"))).take 40 ++
          ofString " is not on the allowlist")
    | some eventType =>
        match memberOr (.object []) "client_payload" body with
        | .object payload =>
            let json := Json.stringify (.object payload)
            if 20000 < json.length then blocked .dispatch "client_payload is too large"
            else
              match Json.parse (cleanText json).text with
              | none => blocked .dispatch
                  "client_payload holds a secret-shaped string that could not be removed safely"
              | some clean =>
                  .allowed .dispatch (some (.object [
                    (ofString "event_type", .string eventType),
                    (ofString "client_payload", clean)]))
                    (cleanText json).redactions
        | _ => blocked .dispatch "client_payload must be an object"

def isString (value : Option Json) : Bool := (value.bind Json.string?).isSome

/-- A write of an Actions secret, or its removal. -/
def checkSecret (context : Context) (put : Bool) (escaped : Utf16) (body : Json) : Verdict :=
  let kind := if put then Kind.putSecret else .deleteSecret
  match decodeURIComponent escaped with
  | none => .threw
  | some name =>
      if !(context.secretNames ++ extraSecretNames.map ofString).contains name then
        .blocked kind (name ++ ofString " is not a secret that Runner manages")
      else if put && (!isString (body.member (ofString "encrypted_value")) ||
          !isString (body.member (ofString "key_id")) ||
          hasOther ["encrypted_value", "key_id"] body) then
        blocked .putSecret "a secret write must carry only an encrypted value and a key id"
      else .allowed kind (if put then some body else none) 0

/-! ## The paths -/

/-- The rest of a path between two texts, if it is made of these units. -/
def pathPattern (before : String) (class' : UInt16 → Bool) (after : String) : Regex :=
  seqs [.start, Regex.text before, .capture (atLeast class' 1), Regex.text after, .stop]

/-- A piece of a path. -/
def isPieceUnit (unit : UInt16) : Bool := unit != 0x2F

def removeLabelPattern : Regex :=
  seqs [.start, Regex.text "/issues/", atLeast isDigit 1, Regex.text "/labels/",
    .capture (atLeast isPieceUnit 1), .stop]

/-- The first capture of a match. -/
def captured (pattern : Regex) (text : Utf16) : Option Utf16 :=
  (pattern.search none text).bind fun found => found.2.captures.head?

def checkRest (context : Context) (method : Method) (rest : Utf16) (body : Json) : Verdict :=
  if method = .post ∧ (pathPattern "/issues/" isDigit "/comments").test rest then checkComment body
  else if method = .post ∧ rest = ofString "/issues" then checkCreateIssue body
  else if method = .patch ∧ (pathPattern "/issues/" isDigit "").test rest then
    checkUpdateIssue body
  else if method = .post ∧ (pathPattern "/issues/" isDigit "/labels").test rest then
    checkAddLabels body
  else
    match (captured removeLabelPattern rest).filter fun _ => method = .delete with
    | some label => checkRemoveLabel label
    | none =>
        if method = .post ∧ rest = ofString "/pulls" then checkCreatePr context body
        else if method = .patch ∧ (pathPattern "/pulls/" isDigit "").test rest then
          checkClosePr body
        else if method = .post ∧ rest = ofString "/dispatches" then checkDispatch body
        else
          match (captured (pathPattern "/actions/secrets/" isPieceUnit "") rest).filter
              fun _ => method = .put ∨ method = .delete with
          | some name => checkSecret context (method = .put) name body
          | none => .blocked .unknown (ofString "no rule allows " ++ method.name ++
              ofString " " ++
                ((atLeast isDigit 1).replaceAll (fun _ => ofString "N") rest).take 80)

/-- `typeof value === 'object'`, `null` apart -/
def isObjectOrArray : Json → Bool
  | .object _ | .array _ => true
  | _ => false

def checkRestWrite (context : Context) (request : Request) : Verdict :=
  let path := request.path.takeWhile (· != 0x3F)
  let body := (request.body.filter isObjectOrArray).getD (.object [])
  let base := ofString "/repos/" ++ context.repository
  match request.method with
  | .other name => .blocked .none'
      ((if name.isEmpty then ofString "a request" else name) ++
        ofString " is not a write method")
  | method =>
      if !(base ++ ofString "/").isPrefixOf path then
        blocked .foreign "a write may target only this repository"
      else checkRest context method (path.drop base.length) body

/-! ## What a body may hold -/

/-- Text that was cleaned: every match in it touches a mask, and without one it stays as it is. -/
structure MaskedText (text : Utf16) : Prop where
  masked : ∀ pattern ∈ textPatterns, Masked mask pattern text
  stable : (∀ pattern ∈ textPatterns, pattern.test text = false) → (cleanText text).text = text

/-- The fields of free text. -/
def freeTexts : List (Kind × String) :=
  [(.comment, "body"), (.createIssue, "title"), (.createIssue, "body"), (.createPr, "title"),
    (.createPr, "body")]

/-- The fields of fixed values. -/
def fixedTexts : List (Kind × String × List String) :=
  [(.updateIssue, "state", issueStates), (.updateIssue, "state_reason", stateReasons),
    (.closePr, "state", ["closed"]), (.createPr, "base", ["main"]),
    (.dispatch, "event_type", allowedDispatchEvents)]

/-- The fields that a write of each kind may carry, with what they hold. -/
inductive Content : Kind → Utf16 → Json → Prop where
  | text {kind : Kind} {field : String} {text : Utf16} (free : (kind, field) ∈ freeTexts)
      (masked : MaskedText text) : Content kind (ofString field) (.string text)
  | fixed {kind : Kind} {field : String} {values : List String} {text : Utf16}
      (fixed : (kind, field, values) ∈ fixedTexts) (listed : text ∈ values.map ofString) :
      Content kind (ofString field) (.string text)
  | labels {kind : Kind} {items : List Json} (takes : kind = .createIssue ∨ kind = .addLabels)
      (few : items.length ≤ 5)
      (named : ∀ item ∈ items, ∃ label, item = .string label ∧ labelPattern.test label = true) :
      Content kind (ofString "labels") (.array items)
  | head {branch : Utf16} (own : headPattern.test branch = true) :
      Content .createPr (ofString "head") (.string branch)
  | draft : Content .createPr (ofString "draft") (.bool true)
  | payload {payload : List (Utf16 × Json)} {clean : Json}
      (read : Json.parse (cleanText (Json.stringify (.object payload))).text = some clean) :
      Content .dispatch (ofString "client_payload") clean
  | secret {field : String} {text : Utf16} (field' : field ∈ ["encrypted_value", "key_id"]) :
      Content .putSecret (ofString field) (.string text)

/-- What a verdict lets through holds the fields of its kind alone. -/
def Verdict.Sends (verdict : Verdict) : Prop :=
  ∀ kind body redactions, verdict = .allowed kind body redactions →
    ∀ name value, (body.bind fun body => body.member name) = some value → Content kind name value

variable {text : Utf16} {value : Json} {body : Json} {name : Utf16}

theorem text_cleanText (text : Utf16) : (cleanText text).text =
    textPatterns.foldl (fun out pattern => pattern.replaceAll (fun _ => mask) out) text := by
  have texts : ∀ (patterns : List Regex) (cleaned : Cleaned),
      (patterns.foldl (fun cleaned pattern =>
        { text := pattern.replaceAll (fun _ => mask) cleaned.text
          redactions := cleaned.redactions + (pattern.matches' cleaned.text).length :
            Cleaned }) cleaned).text =
        patterns.foldl (fun out pattern => pattern.replaceAll (fun _ => mask) out)
          cleaned.text := by
    intro patterns
    induction patterns with
    | nil => exact fun _ => rfl
    | cons first patterns ih => exact fun _ => ih _
  exact texts textPatterns { text := text }

theorem mem_secretPatterns {pattern : Regex} (listed : pattern ∈ textPatterns) :
    pattern ∈ secretPatterns := by
  rw [textPatterns] at listed
  exact List.mem_of_mem_take listed

theorem maskedText_cleanText (text : Utf16) : MaskedText (cleanText text).text := by
  constructor
  · have long : ∀ pattern ∈ textPatterns, 0 < pattern.least := fun pattern listed =>
      least_pos pattern (mem_secretPatterns listed)
    have spares : ∀ pattern ∈ textPatterns, Spares mask pattern := fun pattern listed =>
      spares_mask pattern (mem_secretPatterns listed)
    rw [text_cleanText]
    intro pattern listed
    exact masked_foldl long spares text listed
  · intro clean
    rw [text_cleanText]
    exact foldl_of_test clean

theorem maskedText_of_cleanField {given : Option Json} {max : Nat} {field : String}
    {cleaned : Cleaned} (ok : cleanField given max field = .ok cleaned) :
    MaskedText cleaned.text := by
  unfold cleanField at ok
  split at ok
  next text =>
    split at ok
    next => cases ok
    next =>
      have same := Except.ok.inj ok
      exact same ▸ maskedText_cleanText text
  next => cases ok

theorem mem_of_member {members : List (Utf16 × Json)}
    (found : (Json.object members).member name = some value) : (name, value) ∈ members := by
  have ⟨entry, here, same⟩ := Option.map_eq_some_iff.1 found
  have named := List.find?_some here
  have inside := List.mem_reverse.1 (List.mem_of_find?_eq_some here)
  rw [beq_iff_eq] at named
  rw [← named, ← same]
  exact inside

/-- The body is built of fields that the kind may carry. -/
theorem sends_object {kind : Kind} {members : List (Utf16 × Json)} {redactions : Nat}
    (all : ∀ entry ∈ members, Content kind entry.1 entry.2) :
    (Verdict.allowed kind (some (.object members)) redactions).Sends := by
  intro kind' body' redactions' same name value found
  cases same
  exact all _ (mem_of_member found)

theorem sends_blocked {kind : Kind} {reason : Utf16} : (Verdict.blocked kind reason).Sends := by
  intro kind' body' redactions' same
  cases same

theorem content_labels {kind : Kind} {least : Nat} (takes : kind = .createIssue ∨ kind = .addLabels)
    (are : areLabels least value = true) : Content kind (ofString "labels") value := by
  cases value with
  | array items =>
    rw [areLabels, Bool.and_eq_true, Bool.and_eq_true, decide_eq_true_eq, decide_eq_true_eq,
      List.all_eq_true] at are
    refine .labels takes are.1.2 ?_
    intro item inside
    have named := are.2 item inside
    cases item with
    | string label => exact ⟨label, rfl, named⟩
    | _ => contradiction
  | _ => contradiction

theorem content_fixed {kind : Kind} {field : String} {values : List String} {given : Option Json}
    (fixed : (kind, field, values) ∈ fixedTexts) (is : isOneOf values given = true)
    (same : given = some value) : Content kind (ofString field) value := by
  subst same
  cases value with
  | string text => exact .fixed fixed (List.contains_iff_mem.1 is)
  | _ => contradiction

/-- A member of a body that has no other fields. -/
theorem mem_fields {fields : List String} (none' : hasOther fields body = false)
    (found : body.member name = some value) : ∃ field ∈ fields, name = ofString field := by
  cases body with
  | object members =>
    have inside := List.mem_map_of_mem (f := Prod.fst) (mem_of_member found)
    have listed := List.any_eq_false.1 none' name inside
    rw [Bool.not_eq_true', Bool.not_eq_false, List.contains_iff_mem, List.mem_map] at listed
    have ⟨field, here, same⟩ := listed
    exact ⟨field, here, same.symm⟩
  | _ => contradiction

theorem sends_checkComment (body : Json) : (checkComment body).Sends := by
  unfold checkComment
  split
  next => exact sends_blocked
  next =>
    split
    next => exact sends_blocked
    next cleaned ok =>
      apply sends_object
      intro entry inside
      cases List.mem_singleton.1 inside
      exact .text (by decide) (maskedText_of_cleanField ok)

theorem sends_checkCreateIssue (body : Json) : (checkCreateIssue body).Sends := by
  unfold checkCreateIssue
  split
  next => exact sends_blocked
  next =>
    split
    next => exact sends_blocked
    next title okTitle =>
      split
      next => exact sends_blocked
      next text okText =>
        dsimp only
        split
        next => exact sends_blocked
        next labels =>
          rw [Bool.not_eq_true', Bool.not_eq_false] at labels
          apply sends_object
          intro entry inside
          cases inside with
          | head => exact .text (by decide) (maskedText_of_cleanField okTitle)
          | tail _ inside =>
            cases inside with
            | head => exact .text (by decide) (maskedText_of_cleanField okText)
            | tail _ inside =>
              cases List.mem_singleton.1 inside
              exact content_labels (.inl rfl) labels

theorem sends_checkUpdateIssue (body : Json) : (checkUpdateIssue body).Sends := by
  unfold checkUpdateIssue
  split
  next => exact sends_blocked
  next none' =>
    split
    next => exact sends_blocked
    next state =>
      split
      next => exact sends_blocked
      next reason =>
        intro kind body' redactions same name value found
        cases same
        rw [Bool.not_eq_true] at none'
        rw [Bool.not_eq_true', Bool.not_eq_false] at state
        have ⟨field, listed, named⟩ := mem_fields none' found
        subst named
        cases listed with
        | head => exact content_fixed (by decide) state found
        | tail _ listed =>
          cases List.mem_singleton.1 listed
          rw [Option.bind_some] at found
          rw [found, Option.isSome_some, Bool.true_and, Bool.not_eq_true', Bool.not_eq_false]
            at reason
          exact content_fixed (by decide) reason rfl

theorem sends_checkAddLabels (body : Json) : (checkAddLabels body).Sends := by
  unfold checkAddLabels
  split
  next => exact sends_blocked
  next labels found =>
    apply sends_object
    intro entry inside
    cases List.mem_singleton.1 inside
    exact content_labels (.inr rfl) (Option.filter_eq_some_iff.1 found).2

/-- A write without a body. -/
theorem sends_none {kind : Kind} {redactions : Nat} :
    (Verdict.allowed kind none redactions).Sends := by
  intro kind' body' redactions' same name value found
  cases same
  contradiction

theorem sends_threw : Verdict.threw.Sends := by
  intro kind' body' redactions' same
  cases same

theorem sends_checkRemoveLabel (label : Utf16) : (checkRemoveLabel label).Sends := by
  unfold checkRemoveLabel
  split
  next => exact sends_threw
  next =>
    split
    next => exact sends_blocked
    next => exact sends_none

theorem sends_checkClosePr (body : Json) : (checkClosePr body).Sends := by
  unfold checkClosePr
  split
  next => exact sends_blocked
  next =>
    apply sends_object
    intro entry inside
    cases List.mem_singleton.1 inside
    exact .fixed (by decide : (Kind.closePr, "state", ["closed"]) ∈ fixedTexts) (by decide)

theorem sends_checkCreatePr (context : Context) (body : Json) :
    (checkCreatePr context body).Sends := by
  unfold checkCreatePr
  split
  next => exact sends_blocked
  next =>
    split
    next =>
      split
      next => exact sends_blocked
      next head found =>
        split
        next => exact sends_blocked
        next =>
          split
          next => exact sends_blocked
          next title okTitle =>
            split
            next => exact sends_blocked
            next text okText =>
              split
              next => exact sends_blocked
              next =>
                apply sends_object
                intro entry inside
                cases inside with
                | head => exact .text (by decide) (maskedText_of_cleanField okTitle)
                | tail _ inside =>
                  cases inside with
                  | head => exact .head (Option.filter_eq_some_iff.1 found).2
                  | tail _ inside =>
                    cases inside with
                    | head =>
                      exact .fixed (by decide : (Kind.createPr, "base", ["main"]) ∈ fixedTexts)
                        (by decide)
                    | tail _ inside =>
                      cases inside with
                      | head => exact .text (by decide) (maskedText_of_cleanField okText)
                      | tail _ inside =>
                        cases List.mem_singleton.1 inside
                        exact .draft
    next => exact sends_blocked

theorem sends_checkDispatch (body : Json) : (checkDispatch body).Sends := by
  unfold checkDispatch
  split
  next => exact sends_blocked
  next =>
    split
    next => exact sends_blocked
    next eventType found =>
      split
      next payload _ =>
        dsimp only
        split
        next => exact sends_blocked
        next =>
          split
          next => exact sends_blocked
          next clean read =>
            apply sends_object
            intro entry inside
            cases inside with
            | head =>
              have listed := (Option.filter_eq_some_iff.1 found).2
              exact .fixed
                (by decide : (Kind.dispatch, "event_type", allowedDispatchEvents) ∈ fixedTexts)
                (List.contains_iff_mem.1 listed)
            | tail _ inside =>
              cases List.mem_singleton.1 inside
              exact .payload read
      next => exact sends_blocked

/-- A body of two texts under the fields of a secret. -/
theorem content_secret {field : String} (listed : field ∈ ["encrypted_value", "key_id"])
    (texts : isString (body.member (ofString "encrypted_value")) = true ∧
      isString (body.member (ofString "key_id")) = true)
    (found : body.member (ofString field) = some value) :
    Content .putSecret (ofString field) value := by
  have text : isString (some value) = true := by
    rw [← found]
    cases listed with
    | head => exact texts.1
    | tail _ listed =>
      cases List.mem_singleton.1 listed
      exact texts.2
  cases value with
  | string text => exact .secret listed
  | _ => contradiction

theorem sends_checkSecret (context : Context) (put : Bool) (escaped : Utf16) (body : Json) :
    (checkSecret context put escaped body).Sends := by
  unfold checkSecret
  dsimp only
  split
  next => exact sends_threw
  next =>
    split
    next => exact sends_blocked
    next =>
      split
      next => exact sends_blocked
      next passes =>
        cases put with
        | false => exact sends_none
        | true =>
          rw [Bool.true_and, Bool.not_eq_true, Bool.or_eq_false_iff, Bool.or_eq_false_iff,
            Bool.not_eq_false', Bool.not_eq_false'] at passes
          intro kind body' redactions same name value found
          cases same
          have ⟨field, listed, named⟩ := mem_fields passes.2 found
          subst named
          exact content_secret listed passes.1 found

theorem sends_checkRest (context : Context) (method : Method) (rest : Utf16) (body : Json) :
    (checkRest context method rest body).Sends := by
  unfold checkRest
  split
  next => exact sends_checkComment body
  next =>
    split
    next => exact sends_checkCreateIssue body
    next =>
      split
      next => exact sends_checkUpdateIssue body
      next =>
        split
        next => exact sends_checkAddLabels body
        next =>
          split
          next label _ => exact sends_checkRemoveLabel label
          next =>
            split
            next => exact sends_checkCreatePr context body
            next =>
              split
              next => exact sends_checkClosePr body
              next =>
                split
                next => exact sends_checkDispatch body
                next =>
                  split
                  next name _ => exact sends_checkSecret context _ name body
                  next => exact sends_blocked

mutual

/-- The strings anywhere in a value. -/
def stringsOf : Json → List Utf16
  | .string text => [text]
  | .array items => stringsOfItems items
  | .object members => stringsOfMembers members
  | _ => []

def stringsOfItems : List Json → List Utf16
  | [] => []
  | item :: items => stringsOf item ++ stringsOfItems items

def stringsOfMembers : List (Utf16 × Json) → List Utf16
  | [] => []
  | (_, value) :: members => stringsOf value ++ stringsOfMembers members

end

/-- No string of what is let through holds a match, so that cleaning it again changes nothing. -/
def Verdict.Clean : Verdict → Prop
  | .allowed _ (some body) _ => ∀ text ∈ stringsOf body,
      (∀ pattern ∈ textPatterns, pattern.test text = false) ∧ (cleanText text).text = text
  | _ => True

instance (verdict : Verdict) : Decidable verdict.Clean := by
  unfold Verdict.Clean
  split <;> infer_instance

def ownRepository : Context where
  repository := ofString "o/r"
  secretNames := []
  destructive _ _ := none

def post (path : String) (members : List (String × Json)) : Request where
  method := .post
  path := ofString ("/repos/o/r" ++ path)
  body := some (.object (members.map fun (name, value) => (ofString name, value)))

end GithubGate

end TitanRunner
