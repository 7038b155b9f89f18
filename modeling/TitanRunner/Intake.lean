import TitanRunner.Github
import TitanRunner.Lib.KeyedList
import TitanRunner.Redact
import TitanRunner.Task.Actions

/-!
# Taking tasks in

`syncIssuesIntoTasks` and `addManualTask` of `issueSync.js`.  What is read out of the text of
an issue, and the hash of a task's text, are answers the intake is given.
-/

namespace TitanRunner

namespace Intake

/-- An entry of the issue listing, with what the intake reads of it. -/
structure FiledIssue extends Issue where
  isPullRequest : Bool := false
  labels : List String := []
  htmlUrl : Option String := none
  createdAt : Option Time := none
  actor : Actor := {}
  title : String := ""
  body : String := ""

/-- What `parseTaskYaml` finds in a body.  The validity is in milliseconds. -/
structure Structured where
  title : String
  description : String
  priority : Priority := .normal
  routingHint : RoutingHint := .any
  dependsOn : List TaskId := []
  deadline : Option Time := none
  ttlMs : Option Nat := none
  autonomy : Option Autonomy := none

structure Deps where
  now : Time
  authz : AuthorizationContext
  /-- `maxAttempts`, where it is set. -/
  maxAttempts : Option Nat := none
  /-- `DEFAULT_DUPLICATE_WINDOW_MS`. -/
  duplicateWindowMs : Int := 24 * 3600000
  /-- `parseTaskYaml` of the normalised body. -/
  parseTaskYaml : FiledIssue → Option Structured
  /-- The normalised title, and the normalised body or the title where that is empty. -/
  plain : FiledIssue → String × String
  idempotencyKeyFor : TaskType → String → String → String

/-- `text.slice(0, length)`. -/
def slice (length : Nat) (text : String) : String :=
  Utf16.toText ((Utf16.ofString text).take length)

/-- `scrubForState` of a record.  The dates and the words of fixed lists among its strings are
no secrets. -/
def scrubForState (task : Task) : Task :=
  let scrub := Redact.redactText
  { task with
    id := scrub task.id
    issueUrl := task.issueUrl.map scrub
    author := task.author.map scrub
    title := scrub task.title
    prompt := scrub task.prompt
    runId := task.runId.map scrub
    prUrl := task.prUrl.map scrub
    error := task.error.map scrub
    lease := task.lease.map fun lease => { lease with owner := scrub lease.owner }
    dependsOn := task.dependsOn.map scrub
    parentId := task.parentId.map scrub
    idempotencyKey := task.idempotencyKey.map scrub
    failure := task.failure.map fun failure =>
      { failure with
        class' := scrub failure.class'
        code := failure.code.map scrub
        message := scrub failure.message }
    history := task.history.map fun entry => { entry with reason := entry.reason.map scrub }
    approvals := task.approvals.map fun (key, approval) =>
      (key, { approval with by' := scrub approval.by' })
    duplicateOf := task.duplicateOf.map scrub
    retriedBy := task.retriedBy.map scrub }

/-- `findDuplicate`: a live or recently finished record with the same key. -/
def findDuplicate (tasks : List Task) (key : String) (now : Time) (windowMs : Int) :
    Option Task :=
  tasks.find? fun task =>
    decide (task.idempotencyKey = some key) && decide (task.status ≠ .cancelled) &&
      (!isTerminal task.status ||
        task.completedAt.any fun done => decide (now - done ≤ windowMs))

def issueId (number : Nat) : TaskId := "issue-" ++ toString number

/-- The record an issue becomes, before it is scrubbed. -/
def draftOf (deps : Deps) (issue : FiledIssue) (login : Option String) : Task :=
  let type := if "titan-self-improve" ∈ issue.labels then TaskType.selfImprove else .task
  let structured := deps.parseTaskYaml issue
  let (plainTitle, plainPrompt) := deps.plain issue
  let title := slice 200 (Redact.redactText ((structured.map Structured.title).getD plainTitle))
  let prompt :=
    slice 8000 (Redact.redactText ((structured.map Structured.description).getD plainPrompt))
  { id := issueId issue.number
    type
    issueNumber := some issue.number
    issueUrl := issue.htmlUrl
    author := login
    title
    prompt
    priority := (structured.map Structured.priority).getD .normal
    routingHint := structured.map Structured.routingHint
    createdAt := some deps.now
    maxAttempts := deps.maxAttempts.getD 3
    dependsOn := (structured.map Structured.dependsOn).getD []
    deadline := structured.bind Structured.deadline
    expiresAt := (structured.bind Structured.ttlMs).map fun ttl => deps.now + ttl
    autonomy := structured.bind Structured.autonomy
    idempotencyKey := some (deps.idempotencyKeyFor type title prompt)
    issueUpdatedAtSeen := issue.createdAt }

/-- What is done to the record of a duplicate. -/
def cancelDuplicate (now : Time) (original : Task) : List Action := [
  .move .cancelled {
    now
    by' := some "intake"
    reason := some ("duplicate of " ++ original.id)
    error := some (some ("Duplicate submission: identical to " ++ original.id ++
      (match original.issueUrl with
        | none | some "" => ""
        | some url => " (" ++ url ++ ")") ++ ".")) },
  .write (.duplicateOf original.id)]

/-- What the intake reports beside the queue. -/
structure Report where
  tasks : List Task
  added : Nat := 0
  ignoredIssues : List Nat := []
  duplicates : List TaskId := []

/-- The body of the loop over the listing.  `known` are the ids of the queue when the loop
began. -/
def takeIssue (deps : Deps) (known : List TaskId) (report : Report) (issue : FiledIssue) :
    Except TransitionError Report :=
  if issue.isPullRequest || known.contains (issueId issue.number) then .ok report
  else
    let auth := authorizeActor issue.actor deps.authz
    if auth.ok = false then
      .ok { report with ignoredIssues := report.ignoredIssues ++ [issue.number] }
    else
      let draft := draftOf deps issue auth.login
      let task := scrubForState draft
      match findDuplicate report.tasks (draft.idempotencyKey.getD "") deps.now
          deps.duplicateWindowMs with
      | some original =>
          (Action.performAll task (cancelDuplicate deps.now original)).map fun cancelled =>
            { report with
              tasks := report.tasks ++ [cancelled]
              duplicates := report.duplicates ++ [issueId issue.number] }
      | none => .ok { report with tasks := report.tasks ++ [task], added := report.added + 1 }

/-- `syncIssuesIntoTasks`. -/
def syncIssuesIntoTasks (deps : Deps) (tasks : List Task) (issues : List FiledIssue) :
    Except TransitionError Report :=
  issues.foldlM (takeIssue deps (tasks.map Task.id)) { tasks }

/-- The record of a manually dispatched task, before it is scrubbed. -/
def manualDraft (deps : Deps) (text : String) : Task :=
  let title := slice 120 (Redact.redactText text)
  let prompt := slice 8000 (Redact.redactText text)
  { id := "manual-" ++ toString deps.now
    title
    prompt
    createdAt := some deps.now
    maxAttempts := deps.maxAttempts.getD 3
    idempotencyKey := some (deps.idempotencyKeyFor .task title prompt) }

/-- `addManualTask`. -/
def addManualTask (deps : Deps) (tasks : List Task) (text : String) : List Task :=
  tasks ++ [scrubForState (manualDraft deps text)]

/-! ## What the intake does to the queue -/

@[simp] theorem scrubForState_status (task : Task) :
    (scrubForState task).status = task.status := by
  simp only [scrubForState]

/-- An issue the loop pushes a record for. -/
def Accepts (deps : Deps) (known : List TaskId) (issue : FiledIssue) : Bool :=
  !(issue.isPullRequest || known.contains (issueId issue.number)) &&
    (authorizeActor issue.actor deps.authz).ok

/-- The record that is pushed for an issue. -/
def pushed (deps : Deps) (issue : FiledIssue) : Task :=
  scrubForState (draftOf deps issue (authorizeActor issue.actor deps.authz).login)

/-- What is done to a pushed record right away. -/
def pushedActions (deps : Deps) (tasks : List Task) (issue : FiledIssue) : List Action :=
  let draft := draftOf deps issue (authorizeActor issue.actor deps.authz).login
  match findDuplicate tasks (draft.idempotencyKey.getD "") deps.now deps.duplicateWindowMs with
  | some original => cancelDuplicate deps.now original
  | none => []

theorem pushedActions_allowed (deps : Deps) (tasks : List Task) (issue : FiledIssue) :
    Action.AllowedAll (pushed deps issue) (pushedActions deps tasks issue) := by
  have pending : (pushed deps issue).status = .pending := by
    rw [pushed, scrubForState_status]
    rfl
  rw [Action.allowedAll_iff, pending]
  unfold pushedActions
  dsimp only
  split
  next => exact ⟨⟨by decide, fun waiting => by contradiction⟩, trivial⟩
  next => trivial

/-- One turn of the loop. -/
theorem takeIssue_ok (deps : Deps) (known : List TaskId) (report : Report) (issue : FiledIssue) :
    ∃ after, takeIssue deps known report issue = .ok after ∧
      after.tasks =
        if Accepts deps known issue then
          report.tasks ++ [Action.applyAll (pushed deps issue)
            (pushedActions deps report.tasks issue)]
        else report.tasks := by
  have allowed := pushedActions_allowed deps report.tasks issue
  cases skipped : issue.isPullRequest || known.contains (issueId issue.number) with
  | true =>
      have refused : Accepts deps known issue = false := by rw [Accepts, skipped]; rfl
      exact ⟨report, by rw [takeIssue, if_pos skipped], by rw [refused]; rfl⟩
  | false =>
      have taken' : ¬(issue.isPullRequest || known.contains (issueId issue.number)) = true := by
        rw [skipped]
        exact Bool.noConfusion
      cases trusted : (authorizeActor issue.actor deps.authz).ok with
      | false =>
          have refused : Accepts deps known issue = false := by rw [Accepts, skipped, trusted]; rfl
          rw [takeIssue, if_neg taken']
          dsimp only
          rw [if_pos trusted, refused]
          exact ⟨_, rfl, rfl⟩
      | true =>
          have accepted : Accepts deps known issue = true := by rw [Accepts, skipped, trusted]; rfl
          rw [takeIssue, if_neg taken', accepted]
          dsimp only
          rw [trusted, if_neg (Bool.noConfusion)]
          cases duplicate : findDuplicate report.tasks ((draftOf deps issue
              (authorizeActor issue.actor deps.authz).login).idempotencyKey.getD "") deps.now
              deps.duplicateWindowMs with
          | none =>
              have none' : pushedActions deps report.tasks issue = [] := by
                simp only [pushedActions, duplicate]
              rw [none']
              exact ⟨_, rfl, rfl⟩
          | some original =>
              have cancels : pushedActions deps report.tasks issue =
                  cancelDuplicate deps.now original := by
                simp only [pushedActions, duplicate]
              rw [cancels] at allowed ⊢
              dsimp only
              rw [← pushed, Action.performAll_eq_ok allowed]
              exact ⟨_, rfl, rfl⟩

end Intake

end TitanRunner
