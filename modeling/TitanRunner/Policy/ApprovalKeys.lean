import Mathlib
import TitanRunner.IssueSync
import TitanRunner.Policy.Engine

/-!
# Approval keys

The key that `policy/engine.js` puts in its question, the check that
`postPulseApprovalComment` of `worker/src/schedules.js` makes before it posts a key, the
comment grammar, and the lookup of the recorded approval.
-/

namespace TitanRunner

section Token

/-- A character of an argument after its first one. -/
def isTokenChar (char : Char) : Bool :=
  char.isAlphanum || [':', '_', '.', '-'].contains char

theorem isTokenChar_of_isAlphanum {char : Char} (plain : char.isAlphanum = true) :
    isTokenChar char = true := by
  simp only [isTokenChar, plain, Bool.true_or]

theorem toNat_of_isTokenChar {char : Char} (token : isTokenChar char = true) :
    45 ≤ char.toNat ∧ char.toNat ≤ 122 := by
  have marks : ∀ mark ∈ [':', '_', '.', '-'], 45 ≤ mark.toNat ∧ mark.toNat ≤ 122 := by simp
  simp only [isTokenChar, Char.isAlphanum, Char.isAlpha, Char.isUpper, Char.isLower, Char.isDigit,
    Bool.or_eq_true, Bool.and_eq_true, decide_eq_true_eq, ge_iff_le, UInt32.le_iff_toNat_le,
    List.contains_iff_mem] at token
  cases token with
  | inl letter =>
      change ((65 ≤ char.toNat ∧ char.toNat ≤ 90) ∨ (97 ≤ char.toNat ∧ char.toNat ≤ 122)) ∨
        (48 ≤ char.toNat ∧ char.toNat ≤ 57) at letter
      omega
  | inr mark => exact marks char mark

theorem isSpace_of_isTokenChar {char : Char} (token : isTokenChar char = true) :
    isSpace char = false := by
  have bounds := toNat_of_isTokenChar token
  have spaces : ∀ space ∈ ['\t', '\n', '\x0b', '\x0c', '\r', ' ', '\u00a0', '\u1680', '\u2028',
      '\u2029', '\u202f', '\u205f', '\u3000', '\ufeff'],
      space.toNat < 45 ∨ 122 < space.toNat := by simp
  rw [isSpace, Bool.or_eq_false_iff]
  constructor
  · rw [← Bool.not_eq_true, List.contains_iff_mem]
    intro space
    have outside := spaces char space
    omega
  · simp only [Bool.and_eq_false_iff, decide_eq_false_iff_not]
    omega

theorem isArgument_iff (text : List Char) : isArgument text = true ↔
    (∃ first, text.head? = some first ∧ first.isAlphanum = true) ∧ text.length ≤ 64 ∧
      text.all isTokenChar = true := by
  cases text with
  | nil => simp [isArgument]
  | cons first rest =>
      have tokens : (rest.all fun char => char.isAlphanum || [':', '_', '.', '-'].contains char) =
        rest.all isTokenChar := rfl
      simp only [isArgument, tokens, List.head?_cons, Option.some.injEq, exists_eq_left',
        List.length_cons, List.all_cons, Bool.and_eq_true, decide_eq_true_eq]
      constructor
      · intro ⟨⟨plain, short⟩, all⟩
        exact ⟨plain, by omega, isTokenChar_of_isAlphanum plain, all⟩
      · intro ⟨plain, short, _, all⟩
        exact ⟨⟨plain, by omega⟩, all⟩

/-- Behind a plain front, only the characters of the rest and the length count. -/
theorem isArgument_append_iff {front rest : List Char} (plain : isArgument front = true) :
    isArgument (front ++ rest) = true ↔
      rest.all isTokenChar = true ∧ front.length + rest.length ≤ 64 := by
  have ⟨⟨first, head, alphanum⟩, _, tokens⟩ := (isArgument_iff front).1 plain
  have head' : (front ++ rest).head? = some first := by
    rw [List.head?_append, head, Option.some_or]
  rw [isArgument_iff, List.length_append, List.all_append, tokens, Bool.true_and]
  constructor
  · intro ⟨_, short, rest'⟩
    exact ⟨rest', short⟩
  · intro ⟨rest', short⟩
    exact ⟨⟨first, head', alphanum⟩, short, rest'⟩

end Token

/-! ## A comment that names a key -/

theorem dropWhile_isSpace_of_solid {text : List Char}
    (front : ∀ char ∈ text.head?, isSpace char = false) : text.dropWhile isSpace = text := by
  cases text with
  | nil => rfl
  | cons first rest => simp [front first rfl]

/-- Text without blanks at either end is trimmed to itself. -/
theorem trim_eq_self {text : List Char} (front : ∀ char ∈ text.head?, isSpace char = false)
    (back : ∀ char ∈ text.getLast?, isSpace char = false) : trim text = text := by
  rw [trim, dropWhile_isSpace_of_solid front,
    dropWhile_isSpace_of_solid (by simpa using back), List.reverse_reverse]

/-- A non-empty text without blanks is one word. -/
theorem words_of_solid {text : List Char} (nonempty : text ≠ [])
    (solid : ∀ char ∈ text, isSpace char = false) : words text = [text] := by
  rw [words, List.splitOnP_eq_singleton solid]
  simp [nonempty]

theorem firstLine_of_single {body : String} (nonempty : body.toList ≠ [])
    (single : '\n' ∉ body.toList) (trimmed : trim body.toList = body.toList) :
    firstLine body = body.toList := by
  have lines : body.toList.splitOn '\n' = [body.toList] := by
    apply List.splitOnP_eq_singleton
    intro char inside
    simp only [beq_eq_false_iff_ne]
    intro newline
    exact single (newline ▸ inside)
  simp [firstLine, lines, trimmed, nonempty]

/-- A verb and a text that starts with no blank are matched apart. -/
theorem matchTitan_append {name text : List Char} (named : name ≠ [])
    (letters : ∀ char ∈ name, char.isAlpha = true)
    (front : ∀ char ∈ text.head?, isSpace char = false)
    (oneLine : text.any isLineTerminator = false) :
    matchTitan ("/titan ".toList ++ (name ++ ' ' :: text)) = some (name, text) := by
  have lead : ("/titan ".toList ++ (name ++ ' ' :: text)).take 6 = "/titan".toList := rfl
  have rest : ("/titan ".toList ++ (name ++ ' ' :: text)).drop 6 = ' ' :: (name ++ ' ' :: text) :=
    rfl
  have blank : isSpace ' ' = true := by decide
  have gap : Char.isAlpha ' ' = false := by decide
  have slash : ("/titan".toList).map Char.toLower = "/titan".toList := by decide
  have start : (name ++ ' ' :: text).dropWhile isSpace = name ++ ' ' :: text := by
    apply dropWhile_isSpace_of_solid
    intro char first
    cases name with
    | nil => contradiction
    | cons letter letters' =>
        cases first
        apply isSpace_of_isTokenChar
        apply isTokenChar_of_isAlphanum
        rw [Char.isAlphanum, letters char List.mem_cons_self, Bool.true_or]
  have verb : (name ++ ' ' :: text).takeWhile Char.isAlpha = name := by
    rw [List.takeWhile_append_of_pos letters, List.takeWhile_cons_of_neg (by rw [gap]; decide),
      List.append_nil]
  have args : (name ++ ' ' :: text).dropWhile Char.isAlpha = ' ' :: text := by
    rw [List.dropWhile_append_of_pos letters, List.dropWhile_cons_of_neg (by rw [gap]; decide)]
  rw [matchTitan, lead, rest]
  simp only [slash, ne_eq, not_true_eq_false, if_false, blank, Bool.true_eq_false, start, verb,
    named, args, dropWhile_isSpace_of_solid front, oneLine, Bool.false_eq_true]
/-- The comment that decides on a key. -/
def decisionComment (approve : Bool) (key : String) : String :=
  "/titan " ++ (if approve then "approve" else "deny") ++ " " ++ key

/-- The command it stands for. -/
def decisionCommand (approve : Bool) (key : String) : Command :=
  { verb := if approve then .approve else .deny, args := [key] }

theorem decisionComment_toList (approve : Bool) (key : String) :
    (decisionComment approve key).toList =
      "/titan ".toList ++ ((if approve then "approve" else "deny").toList ++ ' ' :: key.toList) := by
  simp [decisionComment, String.toList_append]

theorem parseTitanCommand_decision {approve : Bool} {key : String}
    (plain : isArgument key.toList = true) :
    parseTitanCommand (decisionComment approve key) = some (decisionCommand approve key) := by
  have ⟨⟨first, head, _⟩, _, tokens⟩ := (isArgument_iff key.toList).1 plain
  have solid : ∀ char ∈ key.toList, isSpace char = false := fun char inside =>
    isSpace_of_isTokenChar (List.all_eq_true.1 tokens char inside)
  have nonempty : key.toList ≠ [] := by
    intro empty
    rw [empty] at head
    contradiction
  have front : ∀ char ∈ key.toList.head?, isSpace char = false := fun char first =>
    solid char (List.mem_of_head? first)
  have back : ∀ char ∈ key.toList.getLast?, isSpace char = false := fun char last =>
    solid char (List.mem_of_getLast? last)
  have ended : ∀ terminator ∈ ['\n', '\r', '\u2028', '\u2029'], isSpace terminator = true := by
    simp [isSpace]
  have oneLine : key.toList.any isLineTerminator = false := by
    rw [List.any_eq_false]
    intro char inside terminates
    have blank := ended char (List.contains_iff_mem.1 terminates)
    rw [solid char inside] at blank
    exact absurd blank Bool.false_ne_true
  have letters : ∀ char ∈ (if approve then "approve" else "deny").toList,
      char.isAlpha = true := by
    cases approve <;> simp
  have named : (if approve then "approve" else "deny").toList ≠ [] := by
    cases approve <;> decide
  have spelled := decisionComment_toList approve key
  have body : firstLine (decisionComment approve key) = (decisionComment approve key).toList := by
    apply firstLine_of_single
    · simp [spelled]
    · have words : '\n' ∉ (if approve then "approve" else "deny").toList := by
        cases approve <;> decide
      have inKey : '\n' ∉ key.toList := by
        intro newline
        have blank := solid '\n' newline
        revert blank
        decide
      simp [spelled, words, inKey]
    · apply trim_eq_self
      · intro char first
        rw [spelled] at first
        cases first
        decide
      · intro char last
        rw [spelled, ← List.append_assoc, List.append_cons, List.getLast?_append_of_ne_nil _ nonempty]
          at last
        exact back char last
  have unmarked : dashboardRetryMarker.toList.isPrefixOf
      (decisionComment approve key).toList = false := by
    rw [spelled]
    rfl
  have matched := matchTitan_append named letters front oneLine
  rw [parseTitanCommand, body, unmarked, spelled, matched]
  have word := words_of_solid nonempty solid
  have trimmed := trim_eq_self front back
  have verb : Verb.ofName? (String.ofList
      ((if approve then "approve" else "deny").toList.map Char.toLower)) =
        some (if approve then Verb.approve else Verb.deny) := by
    cases approve <;> decide
  have count : (if approve then Verb.approve else Verb.deny).args = 1 := by
    cases approve <;> rfl
  simp only [Bool.false_eq_true, if_false, trimmed, word, verb, count, List.length_singleton,
    List.all_cons, List.all_nil, plain, List.map_cons, List.map_nil, String.ofList_toList]
  rfl

/-- A decision on a key is read back exactly when the key is a plain argument. -/
theorem parseTitanCommand_decision_iff {approve : Bool} {key : String} :
    parseTitanCommand (decisionComment approve key) = some (decisionCommand approve key) ↔
      isArgument key.toList = true := by
  constructor
  · intro parsed
    exact (parseTitanCommand_wellFormed parsed).2 key (List.mem_singleton.2 rfl)
  · exact parseTitanCommand_decision

namespace Policy

/-! ## The keys of the engine -/

/-- Eight hexadecimal digits, as `createHash('sha1')…digest('hex').slice(0, 8)` gives. -/
def HexDigest (digest : Json → String) : Prop :=
  ∀ args, (digest args).toList.length = 8 ∧
    (digest args).toList.all (fun char => char.isDigit || ('a' ≤ char && char ≤ 'f')) = true

/-- The parts of an action that its key is made of are plain and short. -/
def Action.Plain (action : Action) : Prop :=
  let id := (action.toolId.getD "undefined").toList
  let run := (action.runId.getD "run").toList
  match action.kind with
  | .tool => id.all isTokenChar = true ∧ id.length ≤ 50
  | .deliver => run.all isTokenChar = true ∧ run.length ≤ 56
  | .selfImprove => run.all isTokenChar = true ∧ run.length ≤ 51
  | .other name =>
      let id := (action.toolId.getD "action").toList
      (∃ first, name.toList.head? = some first ∧ first.isAlphanum = true) ∧
        name.toList.all isTokenChar = true ∧ id.all isTokenChar = true ∧
        name.toList.length + id.length ≤ 63

theorem isTokenChar_of_hex {char : Char}
    (hex : (char.isDigit || ('a' ≤ char && char ≤ 'f')) = true) : isTokenChar char = true := by
  apply isTokenChar_of_isAlphanum
  rw [Char.isAlphanum, Bool.or_eq_true]
  rw [Bool.or_eq_true] at hex
  cases hex with
  | inl digit => exact .inr digit
  | inr letter =>
      left
      simp only [Char.isAlpha, Char.isLower, Bool.or_eq_true, Bool.and_eq_true, decide_eq_true_eq,
        ge_iff_le, Char.le_def, UInt32.le_iff_toNat_le] at letter ⊢
      have upper : 'f'.val.toNat = 102 := rfl
      have lower : 'a'.val.toNat = 97 := rfl
      change _ ∨ 97 ≤ char.val.toNat ∧ char.val.toNat ≤ 122
      omega

variable {digest : Json → String}

theorem approvalKeyFor_isArgument_iff (hex : HexDigest digest) (action : Action) :
    isArgument (approvalKeyFor digest action).toList = true ↔ action.Plain := by
  obtain ⟨eight, digits⟩ := hex (action.args.getD (.object []))
  have tokens : (digest (action.args.getD (.object []))).toList.all isTokenChar = true := by
    rw [List.all_eq_true] at digits ⊢
    intro char inside
    exact isTokenChar_of_hex (digits char inside)
  have colon : isTokenChar ':' = true := by decide
  unfold approvalKeyFor Action.Plain
  cases action.kind with
  | tool =>
      have front : isArgument "tool:".toList = true := by decide
      have length : "tool:".toList.length = 5 := rfl
      rw [String.toList_append, String.toList_append, String.toList_append, List.append_assoc,
        List.append_assoc, isArgument_append_iff front]
      simp only [List.all_append, List.length_append, tokens, eight, length]
      simp [colon]
      omega
  | deliver =>
      have front : isArgument "deliver:".toList = true := by decide
      have length : "deliver:".toList.length = 8 := rfl
      rw [String.toList_append, isArgument_append_iff front, length]
      apply and_congr_right
      omega
  | selfImprove =>
      have front : isArgument "self-improve:".toList = true := by decide
      have length : "self-improve:".toList.length = 13 := rfl
      rw [String.toList_append, isArgument_append_iff front, length]
      apply and_congr_right
      omega
  | other name =>
      simp only [isArgument_iff, String.toList_append, List.all_append, List.length_append,
        List.append_assoc, Bool.and_eq_true]
      cases name.toList with
      | nil => simp [Char.isAlphanum, Char.isAlpha, Char.isUpper, Char.isLower, Char.isDigit]
      | cons first rest =>
          simp [colon]
          intro _
          constructor
          · rintro ⟨short, tokens, id⟩
            exact ⟨tokens, id, by omega⟩
          · rintro ⟨tokens, id, short⟩
            exact ⟨by omega, tokens, id⟩
theorem approvalKeyFor_ne_all (action : Action) : approvalKeyFor digest action ≠ "all" := by
  have colon : ':' ∈ (approvalKeyFor digest action).toList := by
    unfold approvalKeyFor
    split <;> simp [String.toList_append]
  intro all
  rw [all] at colon
  revert colon
  decide

/-! ## What an approval changes -/

/-- `policyTask()`. -/
def policyTask (task : Task) : PolicyTask where
  autonomy := task.autonomy
  approvals := task.approvals

theorem setApproval_eq_insert (approvals : List (String × Approval)) (step : String)
    (approval : Approval) : IssueSync.setApproval approvals step approval =
      KeyedList.insert Prod.fst approvals (step, approval) := by
  have present : approvals.any (·.1 = step) = true ↔ step ∈ approvals.map Prod.fst := by
    simp [List.any_eq_true]
  simp only [IssueSync.setApproval, KeyedList.insert, KeyedList.set, present]

/-- A task whose approval of a key has been recorded. -/
def PolicyTask.approve (task : PolicyTask) (key : String) (approval : Approval) : PolicyTask :=
  { task with approvals := IssueSync.setApproval task.approvals key approval }

@[simp] theorem PolicyTask.exact_approve (task : PolicyTask) (key : String) (approval : Approval)
    (other : String) : (task.approve key approval).exact other =
      if other = key then some approval else task.exact other := by
  simp only [PolicyTask.exact, PolicyTask.approve, setApproval_eq_insert, KeyedList.get_insert]
  split <;> rfl

/-- `applyCommand` records the decision, whatever the status of the task. -/
theorem applyCommand_approve (now : Time) (by' : String) (task : Task) {key : String}
    (short : key.toList.length ≤ 64) :
    ∃ result, IssueSync.applyCommand now by' task (decisionCommand true key) = .ok result ∧
      policyTask result.1 = (policyTask task).approve key
        { decision := .approved, by', at' := now } := by
  have whole : String.ofList (key.toList.take 64) = key := by
    rw [List.take_of_length_le short, String.ofList_toList]
  simp only [IssueSync.applyCommand, decisionCommand, if_true, List.headD_cons, whole]
  split
  next waits =>
    let recorded : Task := { task with
      approvals := IssueSync.setApproval task.approvals key
        { decision := .approved, by', at' := now } }
    have allowed : canTransition recorded.status .pending = true := by
      change canTransition task.status .pending = true
      rw [waits.1]
      decide
    change ∃ result, Except.map _ (transition recorded .pending _) = _ ∧ _
    rw [transition_eq_ok allowed (by decide)]
    refine ⟨_, rfl, ?_⟩
    simp [policyTask, PolicyTask.approve, recorded]
  next =>
    exact ⟨_, rfl, rfl⟩

theorem settle_approved {killSwitch denied safeMode approved ask ask' : Bool} {effect : Effect}
    {autonomy : Autonomy}
    (undenied : settle killSwitch denied effect autonomy safeMode approved ask ≠ .deny) :
    settle killSwitch false effect autonomy safeMode true ask' = .allow := by
  revert undenied
  simp only [settle, Bool.false_eq_true, if_false, if_true]
  split_ifs <;> simp

/-- The approval of a key settles the actions with that key. -/
theorem decide_approve_self {action : Action} {control : Control} {task : PolicyTask}
    {rules : SafetyRules} {key by' : String} {now : Time}
    (same : approvalKeyFor digest action = key)
    (undenied : (decide digest action control task rules).decision ≠ .deny) :
    (decide digest action control (task.approve key { decision := .approved, by', at' := now })
      rules).decision = .allow := by
  rw [decide_decision] at undenied ⊢
  have level : effectiveAutonomy control (task.approve key { decision := .approved, by', at' := now })
      = effectiveAutonomy control task := rfl
  have approved : ∀ hard, isDecision .approved
      (PolicyTask.clearing (task.approve key { decision := .approved, by', at' := now })
        (approvalKeyFor digest action) hard) = true := by
    intro hard
    simp [PolicyTask.clearing, PolicyTask.recorded, isDecision, same]
  have undenied' : isDecision .denied
      (PolicyTask.recorded (task.approve key { decision := .approved, by', at' := now })
        (approvalKeyFor digest action)) = false := by
    simp [PolicyTask.recorded, isDecision, same]
  rw [level, approved, undenied']
  exact settle_approved undenied

/-- An action with another key is decided as before. -/
theorem decide_approve_of_ne {action : Action} {control : Control} {task : PolicyTask}
    {rules : SafetyRules} {key : String} {approval : Approval}
    (other : approvalKeyFor digest action ≠ key) (named : key ≠ "all") :
    decide digest action control (task.approve key approval) rules =
      decide digest action control task rules := by
  have recorded : (task.approve key approval).recorded (approvalKeyFor digest action) =
      task.recorded (approvalKeyFor digest action) := by
    simp [PolicyTask.recorded, other, named.symm]
  have clearing : ∀ hard, (task.approve key approval).clearing (approvalKeyFor digest action) hard =
      task.clearing (approvalKeyFor digest action) hard := by
    intro hard
    rw [PolicyTask.clearing, PolicyTask.clearing, recorded, PolicyTask.exact_approve, if_neg other]
  have level : effectiveAutonomy control (task.approve key approval) =
      effectiveAutonomy control task := rfl
  simp only [decide, recorded, clearing, level]

/-- The round trip of a key: the comment that approves it is read back, the decision is
recorded under the key, no action with the key is asked about or denied that was not denied
before, and every other action is decided as before. -/
structure RoundTrips (digest : Json → String) (key : String) : Prop where
  parsed : parseTitanCommand (decisionComment true key) = some (decisionCommand true key)
  recorded : ∀ (now : Time) (by' : String) (task : Task), ∃ result,
    IssueSync.applyCommand now by' task (decisionCommand true key) = .ok result ∧
      (policyTask result.1).exact key = some { decision := .approved, by', at' := now } ∧
      ∀ (action : Action) (control : Control) (rules : SafetyRules),
        (approvalKeyFor digest action = key →
          (decide digest action control (policyTask task) rules).decision ≠ .deny →
          (decide digest action control (policyTask result.1) rules).decision = .allow) ∧
        (approvalKeyFor digest action ≠ key →
          decide digest action control (policyTask result.1) rules =
            decide digest action control (policyTask task) rules)

theorem roundTrips_of_isArgument {key : String} (plain : isArgument key.toList = true)
    (named : key ≠ "all") : RoundTrips digest key where
  parsed := parseTitanCommand_decision plain
  recorded now by' task := by
    have short := ((isArgument_iff key.toList).1 plain).2.1
    have ⟨result, ran, same⟩ := applyCommand_approve now by' task short
    refine ⟨result, ran, ?_⟩
    rw [same]
    constructor
    · simp
    · intro action control rules
      exact ⟨decide_approve_self, fun other => decide_approve_of_ne other named⟩

/-! ## The comment of the Worker -/

/-- `/^[A-Za-z0-9:_-]{2,80}$/`. -/
def acceptsKey (key : List Char) : Bool :=
  2 ≤ key.length && key.length ≤ 80 &&
    key.all fun char => char.isAlphanum || [':', '_', '-'].contains char

/-- An answer of `postPulseApprovalComment` that refuses. -/
structure Refusal where
  status : Nat
  error : String
  message : String
  deriving DecidableEq, Repr

/-- The comment that `postPulseApprovalComment` hands to GitHub. -/
structure PostedComment where
  issueNumber : Int
  key : String
  approve : Bool
  body : String
  deriving DecidableEq, Repr

/-- `postPulseApprovalComment`, up to the request to GitHub.  The issue number is what
`parseInt` makes of the one given, `none` for `NaN`. -/
def postPulseApprovalComment (issueNumber : Option Int) (key decision : String) :
    Except Refusal PostedComment :=
  match issueNumber.filter (0 < ·) with
  | none => .error ⟨400, "invalid_issue", "Provide a valid GitHub issue number."⟩
  | some issueNumber =>
      let cleanKey := trim key.toList
      if acceptsKey cleanKey = false then
        .error ⟨400, "invalid_key",
          "Provide a valid approval key, such as tool:workspace_write:1a2b3c4d."⟩
      else
        let approve := Decidable.decide (decision ≠ "deny")
        let key := String.ofList cleanKey
        .ok { issueNumber, key, approve, body := decisionComment approve key }

/-- What of a posted key the comment grammar does not take over: its first character and
its length. -/
def FitsGrammar (key : String) : Prop :=
  (∃ first, key.toList.head? = some first ∧ first.isAlphanum = true) ∧ key.toList.length ≤ 64

theorem postPulseApprovalComment_ok {issueNumber : Option Int} {key decision : String}
    {posted : PostedComment}
    (ok : postPulseApprovalComment issueNumber key decision = .ok posted) :
    posted.body = decisionComment posted.approve posted.key ∧
      posted.key.toList.all isTokenChar = true := by
  unfold postPulseApprovalComment at ok
  split at ok
  · contradiction
  · dsimp only at ok
    split at ok
    · contradiction
    next accepted =>
      cases ok
      refine ⟨rfl, ?_⟩
      have marks : ∀ mark ∈ [':', '_', '-'], mark ∈ [':', '_', '.', '-'] := by simp
      simp only [acceptsKey, Bool.not_eq_false, Bool.and_eq_true, List.all_eq_true,
        String.toList_ofList] at accepted ⊢
      intro char inside
      have plain := accepted.2 char inside
      rw [Bool.or_eq_true] at plain
      rw [isTokenChar, Bool.or_eq_true]
      apply plain.imp_right
      intro mark
      exact List.contains_iff_mem.2 (marks char (List.contains_iff_mem.1 mark))

/-- The keys of the engine survive the round trip exactly when their parts are plain and
short; a comment of the Worker is read back with its key exactly when the key starts with a
letter or a digit and has at most 64 characters. -/
theorem approvalKeys_roundTrip_iff (digest : Json → String) (hex : HexDigest digest) :
    (∀ action : Action, RoundTrips digest (approvalKeyFor digest action) ↔ action.Plain) ∧
      ∀ (issueNumber : Option Int) (key decision : String) (posted : PostedComment),
        postPulseApprovalComment issueNumber key decision = .ok posted →
        (parseTitanCommand posted.body = some (decisionCommand posted.approve posted.key) ↔
          FitsGrammar posted.key) := by
  constructor
  · intro action
    rw [← approvalKeyFor_isArgument_iff hex]
    constructor
    · intro trips
      exact parseTitanCommand_decision_iff.1 trips.parsed
    · intro plain
      exact roundTrips_of_isArgument plain (approvalKeyFor_ne_all action)
  · intro issueNumber key decision posted ok
    have ⟨body, tokens⟩ := postPulseApprovalComment_ok ok
    rw [body, parseTitanCommand_decision_iff, isArgument_iff, FitsGrammar]
    constructor
    · intro ⟨starts, short, _⟩
      exact ⟨starts, short⟩
    · intro ⟨starts, short⟩
      exact ⟨starts, short, tokens⟩

theorem approvalKeys_roundTrip_example :
    let digest : Json → String := fun _ => "1a2b3c4d"
    RoundTrips digest (approvalKeyFor digest workspaceWrite) ∧
      parseTitanCommand "/titan deny tool:workspace_write:1a2b3c4d" =
        some (decisionCommand false "tool:workspace_write:1a2b3c4d") := by
  intro digest
  have hex : HexDigest digest := by
    intro args
    decide
  have ⟨engine, worker⟩ := approvalKeys_roundTrip_iff digest hex
  constructor
  · exact (engine workspaceWrite).2 ⟨by decide, by decide⟩
  · have fits : FitsGrammar "tool:workspace_write:1a2b3c4d" :=
      ⟨⟨'t', by decide, by decide⟩, by decide⟩
    have posted : postPulseApprovalComment (some 7) " tool:workspace_write:1a2b3c4d" "deny" =
        .ok { issueNumber := 7, key := "tool:workspace_write:1a2b3c4d", approve := false
              body := "/titan deny tool:workspace_write:1a2b3c4d" } := by
      decide
    exact (worker _ _ _ _ posted).2 fits

/-- The Worker posts a key without the name of its kind, and the runner reads no command. -/
theorem not_approvalKeys_roundTrip :
    ¬ ∀ (issueNumber : Option Int) (key decision : String) (posted : PostedComment),
      postPulseApprovalComment issueNumber key decision = .ok posted →
        parseTitanCommand posted.body =
          some (decisionCommand posted.approve posted.key) := by
  intro trips
  have posted : postPulseApprovalComment (some 7) ":workspace_write:1a2b3c4d" "approve" =
      .ok { issueNumber := 7, key := ":workspace_write:1a2b3c4d", approve := true
            body := decisionComment true ":workspace_write:1a2b3c4d" } := by
    decide
  have parsed := trips _ _ _ _ posted
  simp only at parsed
  rw [parseTitanCommand_decision_iff] at parsed
  revert parsed
  decide

end Policy

end TitanRunner
