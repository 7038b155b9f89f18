import TitanRunner.Lib.Json
import TitanRunner.Lib.Regex
import TitanRunner.Policy.MiniYaml

/-!
# The safety rules

`policy/safetyRules.js`: the category of an action, the rules file, and whether the rules
ask for a human first.  Where the rules in force came from is shown to people only and is
left out.
-/

namespace TitanRunner

namespace Policy

/-- `ACTION_CATEGORIES`. -/
inductive Category where
  | read | scratchWrite | externalFetch | externalEffect | issueComment | stateAppend
  | gitCommit | fileDelete | credentialChange | stateMutation
  deriving DecidableEq, Repr

def Category.name : Category → String
  | .read => "read"
  | .scratchWrite => "scratch-write"
  | .externalFetch => "external-fetch"
  | .externalEffect => "external-effect"
  | .issueComment => "issue-comment"
  | .stateAppend => "state-append"
  | .gitCommit => "git-commit"
  | .fileDelete => "file-delete"
  | .credentialChange => "credential-change"
  | .stateMutation => "state-mutation"

def actionCategories : List Category :=
  [.read, .scratchWrite, .externalFetch, .externalEffect, .issueComment, .stateAppend,
    .gitCommit, .fileDelete, .credentialChange, .stateMutation]

/-- `HARD_ASK`. -/
def hardAsk : List Category := [.gitCommit, .fileDelete, .credentialChange, .stateMutation]

inductive Default where
  | ask | auto
  deriving DecidableEq, Repr

/-- `SafetyRules`: the categories stand by name, as the file has them. -/
structure SafetyRules where
  version : Nat
  default' : Default
  autoApprove : List String
  alwaysAsk : List String
  warnings : List String
  deriving DecidableEq, Repr

/-- `DEFAULT_SAFETY_RULES`. -/
def defaultSafetyRules : SafetyRules where
  version := 1
  default' := .ask
  autoApprove := ["read", "scratch-write", "external-fetch", "external-effect", "issue-comment",
    "state-append"]
  alwaysAsk := ["git-commit", "file-delete", "credential-change", "state-mutation"]
  warnings := []

/-- `EFFECTS`. -/
inductive Effect where
  | read | localWrite | external
  deriving DecidableEq, Repr

inductive Kind where
  | tool | deliver | selfImprove
  | other (name : String)
  deriving DecidableEq, Repr

/-- What the engine is about to do.  An effect that is not of the table is `none`. -/
structure Action where
  kind : Kind
  toolId : Option String := none
  effect : Option Effect := none
  runId : Option String := none
  args : Option Json := none

/-! ## Classification -/

/-- `BUILTIN_TOOL_CATEGORY`. -/
def builtinToolCategory : String → Option Category
  | "repo_read_file" | "repo_list_files" | "repo_search" => some .read
  | "workspace_write" => some .scratchWrite
  | "http_fetch" => some .externalFetch
  | _ => none

/-- `PATH_ARG_KEYS`. -/
def pathArgKeys : List String :=
  ["path", "file", "filePath", "filename", "target", "dest", "destination", "from", "to"]

/-- `WORD_GROUPS`. -/
def wordGroups : List (Category × List String) := [
  (.credentialChange, ["secret", "secrets", "credential", "credentials", "password", "passwd",
    "token", "apikey", "keychain", "keypair", "gpg", "ssh"]),
  (.fileDelete, ["delete", "remove", "rm", "rmdir", "unlink", "purge", "wipe", "truncate", "shred",
    "erase"]),
  (.gitCommit, ["git", "commit", "push", "merge", "rebase", "cherrypick"])]

section Patterns

open Regex Utf16

/-- One of `CREDENTIAL_PHRASES`: two words with an optional separator. -/
def phrase (first second : String) : Regex :=
  seqs [textNoCase first, maybe (.oneOf (among "-_ ")), textNoCase second]

def notSlash (unit : UInt16) : Bool := unit != 0x2F

/-- `CREDENTIAL_PATH`. -/
def credentialPath : Regex :=
  seqs [alts [.start, text "/"], alts [
    seqs [textNoCase ".env", alts [text ".", .stop]],
    seqs [textNoCase ".npmrc", .stop],
    seqs [textNoCase ".netrc", .stop],
    seqs [textNoCase "id_", alts [textNoCase "rsa", textNoCase "ed25519", textNoCase "ecdsa"]],
    seqs [star notSlash, text ".",
      alts [textNoCase "pem", textNoCase "key", textNoCase "p12", textNoCase "pfx"], .stop],
    seqs [star notSlash,
      alts [textNoCase "secret", textNoCase "credential", textNoCase "password", textNoCase "token"],
      maybe (textNoCase "s"), star notSlash, .stop]]]

/-- `p.replace(/\\/g, '/').replace(/^\.\//, '')`. -/
def normalisePath (path : Utf16) : Utf16 :=
  let path := path.map fun unit => if unit = 0x5C then 0x2F else unit
  if (ofString "./").isPrefixOf path then path.drop 2 else path

/-- `pathArgs`. -/
def pathArgs (args : Option Json) : List Utf16 :=
  let texts : Json → List Utf16
    | .string text => [text]
    | .array items => (items.take 20).filterMap Json.string?
    | _ => []
  let member := fun key => args.bind (Json.member (ofString key))
  (pathArgKeys.flatMap fun key => ((member key).map texts).getD []).map normalisePath

end Patterns

/-- `toLowerCase`, as far as it can give letters of `a-z`. -/
def lowerCase (char : Char) : List Char :=
  if char = '\u212a' then ['k']
  else if char = '\u0130' then ['i', '\u0307']
  else [char.toLower]

/-- `replace(/([a-z])([A-Z])/g, '$1 $2')`. -/
def spaceHumps : List Char → List Char
  | lower :: upper :: rest =>
      if lower.isLower ∧ upper.isUpper then lower :: ' ' :: upper :: spaceHumps rest
      else lower :: spaceHumps (upper :: rest)
  | text => text

/-- `idWords`: the id in lower case, and its words. -/
def idWords (toolId : String) : List String × List Char :=
  let spaced := (spaceHumps toolId.toList).flatMap lowerCase
  (((spaced.splitOnP fun char => !char.isLower).filter (· ≠ [])).map String.ofList, spaced)

/-- Everything that points at a hard-ask category. -/
def hits (words : List String) (spaced : List Char) (paths : List Utf16) (touchesState appends : Bool) :
    List Category :=
  let spaced := Utf16.ofString (String.ofList spaced)
  let byWord := wordGroups.filterMap fun (category, list) =>
    if list.any words.contains then some category else none
  let byPhrase :=
    (if (phrase "api" "key").test spaced || (phrase "private" "key").test spaced then
      [Category.credentialChange] else []) ++
    (if (phrase "cherry" "pick").test spaced then [Category.gitCommit] else [])
  let byPath := paths.flatMap fun path =>
    (if credentialPath.test path then [Category.credentialChange] else []) ++
    (if path = Utf16.ofString ".git" ∨ (Utf16.ofString ".git/").isPrefixOf path then
      [Category.gitCommit] else [])
  let byState := if touchesState && !appends then [Category.stateMutation] else []
  byWord ++ byPhrase ++ byPath ++ byState

/-- `classifyAction`. -/
def classifyAction (action : Action) : Category :=
  match action.kind with
  | .selfImprove => .gitCommit
  | .deliver => .issueComment
  | .tool | .other _ =>
      if action.effect = some .read then .read
      else
        match builtinToolCategory (action.toolId.getD "") with
        | some category => category
        | none =>
            let (words, spaced) := idWords (action.toolId.getD "")
            let paths := pathArgs action.args
            let touchesState := paths.any fun path =>
              decide (path = Utf16.ofString "state") || (Utf16.ofString "state/").isPrefixOf path
            let argument := fun name => action.args.bind (Json.member (Utf16.ofString name))
            let appends := words.contains "append" ||
              (argument "mode").any (fun mode => mode.string? == some (Utf16.ofString "append")) ||
              (argument "append").any fun | .bool true => true | _ => false
            let found := hits words spaced paths touchesState appends
            match [.credentialChange, .fileDelete, .gitCommit, .stateMutation].find?
                fun category : Category => found.contains category with
            | some category => category
            | none =>
                if touchesState then .stateAppend
                else if action.effect = some .localWrite then .scratchWrite
                else .externalEffect

/-! ## The rules file -/

/-- What `parseSafetyRules` throws. -/
inductive RulesError where
  | yaml (error : MiniYaml.YamlError)
  | version (got : Option MiniYaml.Value)
  | default' (got : MiniYaml.Value)
  | list (name : String)
  deriving DecidableEq, Repr

/-- `doc.version !== 1`: the number is read as a double, so what rounds to one counts. -/
def isVersionOne : Option MiniYaml.Value → Bool
  | some (.scalar (.number value)) => decide (1 - 1 / 2 ^ 54 ≤ value ∧ value ≤ 1 + 1 / 2 ^ 53)
  | _ => false

/-- `asList`. -/
def asList (document : MiniYaml.Document) (name : String) : Except RulesError (List String) :=
  match document.get name with
  | none | some (.scalar .null) => .ok []
  | some (.list items) =>
      let texts := items.filterMap fun | .string text => some text | _ => none
      if texts.length = items.length then .ok texts else .error (.list name)
  | some _ => .error (.list name)

/-- `doc.default ?? 'ask'`, checked. -/
def asDefault (document : MiniYaml.Document) : Except RulesError Default :=
  match document.get "default" with
  | none | some (.scalar .null) | some (.scalar (.string "ask")) => .ok .ask
  | some (.scalar (.string "auto")) => .ok .auto
  | some got => .error (.default' got)

def listWarnings (autoApprove alwaysAsk : List String) : List String :=
  let known := fun name => actionCategories.any (·.name = name)
  ((autoApprove ++ alwaysAsk).filter (!known ·)).map
    (fun name => "unknown category \"" ++ name ++ "\" is ignored") ++
  autoApprove.flatMap fun name =>
    (if hardAsk.any (·.name = name) then
      ["\"" ++ name ++ "\" is under auto_approve but is hard-ask: it still needs approval"] else []) ++
    (if alwaysAsk.contains name then
      ["\"" ++ name ++ "\" is in both lists: always_ask wins"] else [])

section Load

-- `JSON.parse` of a text that opens with a double quote, and the messages of the errors.
variable (parseJsonString : String → Option String) (messageOf : RulesError → String)

/-- `parseSafetyRules`. -/
def parseSafetyRules (text : String) : Except RulesError SafetyRules :=
  match MiniYaml.parseYamlSubset parseJsonString text with
  | .error error => .error (.yaml error)
  | .ok document =>
      if isVersionOne (document.get "version") = false then
        .error (.version (document.get "version"))
      else do
        let default' ← asDefault document
        let autoApprove ← asList document "auto_approve"
        let alwaysAsk ← asList document "always_ask"
        return { version := 1, default', autoApprove, alwaysAsk
                 warnings := listWarnings autoApprove alwaysAsk }

/-- What reading the file gives. -/
inductive RulesFile where
  | missing
  | unreadable (path message : String)
  | text (content : String)
  deriving DecidableEq, Repr

/-- `loadSafetyRules`: a file that is missing or broken leaves the built-in rules. -/
def loadSafetyRules : RulesFile → SafetyRules
  | .missing => defaultSafetyRules
  | .unreadable path message =>
      { defaultSafetyRules with warnings := ["could not read " ++ path ++ ": " ++ message] }
  | .text content =>
      match parseSafetyRules parseJsonString content with
      | .ok rules => rules
      | .error error =>
          { defaultSafetyRules with
            warnings := ["config/safety-rules.yml ignored: " ++ messageOf error] }

end Load

/-! ## The verdict of the rules -/

inductive Rule where
  | hardFloor | alwaysAsk | autoApprove | default'
  deriving DecidableEq, Repr

structure Verdict where
  ask : Bool
  hard : Bool
  category : Category
  rule : Rule
  reason : String
  deriving DecidableEq, Repr

/-- `evaluateRules`. -/
def evaluateRules (action : Action) (rules : SafetyRules) : Verdict :=
  let category := classifyAction action
  if hardAsk.contains category then
    { ask := true, hard := true, category, rule := .hardFloor
      reason := category.name ++ " always needs approval" }
  else if rules.alwaysAsk.contains category.name then
    { ask := true, hard := false, category, rule := .alwaysAsk
      reason := category.name ++ " is on the always-ask list" }
  else if rules.autoApprove.contains category.name then
    { ask := false, hard := false, category, rule := .autoApprove
      reason := category.name ++ " is auto-approved" }
  else
    let ask := decide (rules.default' ≠ .auto)
    { ask, hard := false, category, rule := .default'
      reason := category.name ++
        if ask then " is not on the auto-approve list" else " allowed by default" }

section Rules

variable (action : Action) (rules : SafetyRules)

/-- Only the category decides whether a verdict is hard. -/
@[simp] theorem evaluateRules_hard :
    (evaluateRules action rules).hard = hardAsk.contains (classifyAction action) := by
  simp only [evaluateRules]
  split
  next floor => exact floor.symm
  next soft =>
    rw [Bool.not_eq_true] at soft
    rw [soft]
    split
    next => rfl
    next => split <;> rfl

/-- A hard category asks under every rules file. -/
theorem evaluateRules_of_hard (hard : hardAsk.contains (classifyAction action) = true) :
    (evaluateRules action rules).ask = true := by
  simp only [evaluateRules, hard, ↓reduceIte]

/-- The built-in rules ask for the hard categories only. -/
theorem evaluateRules_default_ask :
    (evaluateRules action defaultSafetyRules).ask =
      hardAsk.contains (classifyAction action) := by
  simp only [evaluateRules]
  cases classifyAction action <;> decide

/-- Every rules file asks wherever the built-in rules ask. -/
theorem evaluateRules_ask_of_default
    (asks : (evaluateRules action defaultSafetyRules).ask = true) :
    (evaluateRules action rules).ask = true := by
  rw [evaluateRules_default_ask] at asks
  exact evaluateRules_of_hard action rules asks

end Rules

end Policy

end TitanRunner
