import TitanRunner.Engine.SideEffects
import TitanRunner.Task.Lifecycle

/-!
# Delivering a self-improvement task

`selfImprove.js#proposeSelfImprovement` and the self-improve branch of
`engine/pulse.js#processTaskInner`.  A delivery is a list of writes; a pulse that dies
leaves a prefix of them, and the pulse that resumes the task starts from what it finds.
-/

namespace TitanRunner

namespace SelfImprove

open SideEffects

structure PullRequest where
  number : Nat
  url : String
  deriving DecidableEq, Repr

/-- The `status` of an outcome. -/
inductive OutcomeStatus where
  | prOpen | refused | blocked | noChanges
  deriving DecidableEq, Repr

def OutcomeStatus.text : OutcomeStatus → String
  | .prOpen => "pr-open"
  | .refused => "refused"
  | .blocked => "blocked"
  | .noChanges => "no-changes"

/-- `String(final.status).toUpperCase()`. -/
def OutcomeStatus.code : OutcomeStatus → String
  | .prOpen => "PR-OPEN"
  | .refused => "REFUSED"
  | .blocked => "BLOCKED"
  | .noChanges => "NO-CHANGES"

/-- What `proposeSelfImprovement` resolves to. -/
structure Outcome where
  status : OutcomeStatus
  prNumber : Option Nat := none
  prUrl : Option String := none
  reason : Option String := none
  deriving DecidableEq, Repr

structure ProposedFile where
  path : String
  content : String
  conflict : Bool
  deriving DecidableEq, Repr

/-- What a proposal meets outside: the denylist, the write jail, the reviewer (`none`
lets the change pass, otherwise its reason), and git with the request that opens the
pull request. -/
structure Surroundings where
  findDenylistViolations : List String → List String
  checkRepoRelativePath : String → Option String
  review : List ProposedFile → Option (Option String)
  publish : List ProposedFile → Except String PullRequest

def findUnwritablePaths (around : Surroundings) (files : List ProposedFile) : List String :=
  files.filterMap fun file =>
    (around.checkRepoRelativePath file.path).map fun reason => file.path ++ ": " ++ reason

/-- `proposeSelfImprovement`; an error is an exception.  The client is ready, so an
opened pull request comes back with its number and link. -/
def proposeSelfImprovement (around : Surroundings) (synthesis : List ProposedFile) :
    Except String Outcome :=
  let files := synthesis.filter fun file => !file.conflict
  if files.isEmpty then
    .ok { status := .noChanges, reason := some "The model produced no file changes for this task." }
  else
    let violations := around.findDenylistViolations (files.map ProposedFile.path)
    let unwritable := findUnwritablePaths around files
    if violations.isEmpty = false then
      .ok { status := .refused
            reason := some ("Proposed change touches protected paths: " ++
              ", ".intercalate violations) }
    else if unwritable.isEmpty = false then
      .ok { status := .refused
            reason := some ("Proposed change names paths Runner may never write: " ++
              "; ".intercalate unwritable) }
    else
      match around.review files with
      | some reason =>
          .ok { status := .blocked
                reason := some (reason.getD "Reviewer Gate blocked this change.") }
      | none =>
          match around.publish files with
          | .error message => .error message
          | .ok pr => .ok { status := .prOpen, prNumber := some pr.number, prUrl := some pr.url }

/-- The outcome of a proposal that opened `pr`. -/
def opened (pr : PullRequest) : Outcome :=
  { status := .prOpen, prNumber := some pr.number, prUrl := some pr.url }

/-- A proposal that does not open a pull request says why. -/
theorem proposeSelfImprovement_ok {around : Surroundings} {synthesis : List ProposedFile}
    {outcome : Outcome} (proposed : proposeSelfImprovement around synthesis = .ok outcome) :
    (∃ pr, outcome = opened pr) ∨
      outcome.status ≠ .prOpen ∧ ∃ reason, outcome = { status := outcome.status, reason := some reason } := by
  simp only [proposeSelfImprovement] at proposed
  split at proposed
  next => cases proposed; exact .inr ⟨by simp, _, rfl⟩
  next =>
    split at proposed
    next => cases proposed; exact .inr ⟨by simp, _, rfl⟩
    next =>
      split at proposed
      next => cases proposed; exact .inr ⟨by simp, _, rfl⟩
      next =>
        split at proposed
        next => cases proposed; exact .inr ⟨by simp, _, rfl⟩
        next =>
          split at proposed
          next => contradiction
          next pr _ => cases proposed; exact .inl ⟨pr, rfl⟩

/-- A checkpoint, as far as delivery reads it. -/
structure Checkpoint where
  runId : String
  sideEffects : Ledger
  deriving DecidableEq, Repr

/-- What outlives a pulse: the record in `tasks.json`, the checkpoint file, the comments
of the issue and the pull requests opened for the task. -/
structure Disk where
  saved : Task
  checkpoint : Option Checkpoint
  comments : List String
  pulls : List PullRequest
  deriving DecidableEq, Repr

inductive Write where
  | openPullRequest (pr : PullRequest)
  | record (key : String) (at' : Time)
  | post (body : String)
  | deleteCheckpoint
  | saveTasks (task : Task)
  deriving DecidableEq, Repr

def Disk.write (disk : Disk) : Write → Disk
  | .openPullRequest pr => { disk with pulls := disk.pulls ++ [pr] }
  | .record key at' =>
      { disk with checkpoint := disk.checkpoint.map fun checkpoint =>
          { checkpoint with sideEffects := checkpoint.sideEffects.record key at' } }
  | .post body => { disk with comments := disk.comments ++ [body] }
  | .deleteCheckpoint => { disk with checkpoint := none }
  | .saveTasks task => { disk with saved := task }

def Disk.writes (disk : Disk) (writes : List Write) : Disk := writes.foldl Disk.write disk

/-- What the pulse brings to a delivery: its clock, the redaction of comment texts,
whether the task was resumed, and whether the comment listing is answered. -/
structure Pulse where
  now : Time
  redactString : String → String
  resumed : Bool
  answered : Bool

/-- The writes of `ledger.comment`. -/
def comment (pulse : Pulse) (comments : List String) (ledger : Ledger) (key body : String) :
    List Write :=
  match commentStep ledger pulse.resumed false (listIssueComments pulse.answered comments) key with
  | .skippedLedger | .suppressed => []
  | .skippedRemote => [.record key pulse.now]
  | .post => [.post (commentBody body key), .record key pulse.now]

/-- The record of a task whose pull request is open. -/
def withPullRequest (task : Task) (final : Outcome) : Task :=
  { task with
    prNumber := final.prNumber <|> task.prNumber
    prUrl := final.prUrl <|> task.prUrl }

def refusal (pulse : Pulse) (final : Outcome) : TransitionContext :=
  let error := final.reason.getD final.status.text
  { now := pulse.now
    reason := some ("self-improve " ++ final.status.text)
    error := some (some error)
    failure := some (some {
      class' := if final.status = .refused ∨ final.status = .blocked then "policy_blocked"
        else "permanent"
      code := some final.status.code
      message := error
      at' := pulse.now }) }

/-- The record a delivery leaves.  A claimed task is `running`, which both moves allow. -/
def settle (pulse : Pulse) (task : Task) (final : Outcome) : Task :=
  if final.status = .prOpen then
    moveTask (withPullRequest task final) .prOpen
      { now := pulse.now, reason := some "draft PR opened" }
  else moveTask task .failed (refusal pulse final)

def prComment (task : Task) : String :=
  "TITAN-Runner opened a draft pull request for this self-improvement task: " ++
    task.prUrl.getD "(PR URL unavailable in dry-run)" ++
    "\n\nIt will not be merged automatically — CI (full test suite + the denylist gate) must " ++
    "pass, and a maintainer decides whether to merge."

def refusedComment (pulse : Pulse) (final : Outcome) : String :=
  "TITAN-Runner did not open a pull request for this task: " ++
    pulse.redactString (final.reason.getD final.status.text)

/-- The comment, the end of the checkpoint, and the save of the queue. -/
def conclude (pulse : Pulse) (comments : List String) (checkpoint : Checkpoint) (task : Task)
    (final : Outcome) : List Write :=
  let commented :=
    if final.status = .prOpen then
      comment pulse comments checkpoint.sideEffects ("pr-comment:" ++ checkpoint.runId)
        (prComment (withPullRequest task final))
    else
      comment pulse comments checkpoint.sideEffects ("pr-refused:" ++ checkpoint.runId)
        (refusedComment pulse final)
  commented ++ [.deleteCheckpoint, .saveTasks (settle pulse task final)]

def proposalKey (runId : String) : String := "pr:" ++ runId

/-- What `final` is when `once` did not run: rebuilt from the task record. -/
def recorded (task : Task) : Outcome :=
  { status := .prOpen, prNumber := task.prNumber, prUrl := task.prUrl
    reason := some "recorded on a previous pulse" }

/-- The pull request of an outcome reached GitHub. -/
def Outcome.effect (outcome : Outcome) : List Write :=
  match outcome.prNumber, outcome.prUrl with
  | some number, some url => [.openPullRequest { number, url }]
  | _, _ => []

/-- The writes of the self-improve branch, from the call of `once` on. -/
def deliver (pulse : Pulse) (comments : List String) (checkpoint : Checkpoint) (task : Task)
    (proposal : Outcome) : List Write :=
  let key := proposalKey checkpoint.runId
  if checkpoint.sideEffects.has key then conclude pulse comments checkpoint task (recorded task)
  else
    let checkpoint' := { checkpoint with
      sideEffects := checkpoint.sideEffects.record key pulse.now }
    proposal.effect ++ .record key pulse.now ::
      conclude pulse comments checkpoint' task proposal

/-- `reconcile` gives the task back, the next pulse claims it. -/
def reclaim (pulse : Pulse) (lease : Lease) (task : Task) : Task :=
  let pending := moveTask { task with attempts := task.attempts + 1 } .pending
    { now := pulse.now, by' := some "reconcile" }
  moveTask { pending with lease := some lease, claimedAt := some pulse.now } .running
    { now := pulse.now }

/-- The pulse that finds `disk`: a task that is no longer `running` was saved, any other
is resumed from its checkpoint, or run anew when that is gone. -/
def resume (pulse : Pulse) (lease : Lease) (newRunId : String) (disk : Disk)
    (proposal : Outcome) : Disk :=
  if disk.saved.status = .running then
    let checkpoint := disk.checkpoint.getD { runId := newRunId, sideEffects := [] }
    let pulse := { pulse with resumed := disk.checkpoint.isSome }
    let disk := { disk with checkpoint := some checkpoint }
    disk.writes (deliver pulse disk.comments checkpoint (reclaim pulse lease disk.saved) proposal)
  else disk

/-- What a task record reports. -/
structure Report where
  status : Status
  prNumber : Option Nat
  prUrl : Option String
  error : Option String
  failure : Option (String × Option String × String)
  deriving DecidableEq, Repr

def reportOf (task : Task) : Report where
  status := task.status
  prNumber := task.prNumber
  prUrl := task.prUrl
  error := task.error
  failure := task.failure.map fun failure => (failure.class', failure.code, failure.message)

/-- The record on `disk` reports what `uninterrupted` does, and a pull request it reports
was opened. -/
def Refines (disk uninterrupted : Disk) : Prop :=
  reportOf disk.saved = reportOf uninterrupted.saved ∧
    (disk.saved.status = .prOpen →
      ∃ pr ∈ disk.pulls, disk.saved.prNumber = some pr.number ∧ disk.saved.prUrl = some pr.url)

/-- Whether the ledger on disk says that the proposal was made. -/
def Disk.proposed (disk : Disk) : Bool :=
  disk.checkpoint.any fun checkpoint => checkpoint.sideEffects.has (proposalKey checkpoint.runId)

theorem Disk.writes_append (disk : Disk) (first second : List Write) :
    disk.writes (first ++ second) = (disk.writes first).writes second :=
  List.foldl_append

/-- The writes of a comment: the request and the ledger. -/
def Write.isNote : Write → Bool
  | .record _ _ | .post _ => true
  | _ => false

theorem isNote_of_mem_comment {pulse : Pulse} {comments : List String} {ledger : Ledger}
    {key body : String} {write : Write} (inside : write ∈ comment pulse comments ledger key body) :
    write.isNote = true := by
  simp only [comment] at inside
  split at inside <;> simp at inside
  next => rw [inside]; rfl
  next =>
    cases inside with
    | inl post => rw [post]; rfl
    | inr record => rw [record]; rfl

/-- Comments leave the task record alone and forget no key of the ledger. -/
theorem Disk.writes_notes {writes : List Write} (notes : ∀ write ∈ writes, write.isNote = true)
    (disk : Disk) {checkpoint : Checkpoint} (found : disk.checkpoint = some checkpoint) :
    (disk.writes writes).saved = disk.saved ∧ (disk.writes writes).pulls = disk.pulls ∧
      ∃ later, (disk.writes writes).checkpoint = some later ∧ later.runId = checkpoint.runId ∧
        ∀ key, checkpoint.sideEffects.has key = true → later.sideEffects.has key = true := by
  induction writes generalizing disk checkpoint with
  | nil => exact ⟨rfl, rfl, checkpoint, found, rfl, fun _ has => has⟩
  | cons write rest ih =>
      have noted : write.isNote = true := notes write List.mem_cons_self
      have restNotes : ∀ other ∈ rest, other.isNote = true := fun other inside =>
        notes other (List.mem_cons_of_mem write inside)
      cases write with
      | openPullRequest pr | deleteCheckpoint | saveTasks task => simp [Write.isNote] at noted
      | post body => exact ih restNotes (disk.write (.post body)) found
      | record key at' =>
          have recorded : (disk.write (.record key at')).checkpoint =
              some { checkpoint with sideEffects := checkpoint.sideEffects.record key at' } := by
            simp [Disk.write, found]
          obtain ⟨saved, pulls, later, found', sameRun, kept⟩ := ih restNotes _ recorded
          refine ⟨saved, pulls, later, found', sameRun, ?_⟩
          intro other has
          exact kept other (Ledger.has_record _ _ _ _ has)

/-- What a pulse that died while it delivered `proposal` leaves of `disk`. -/
inductive Left (pulse : Pulse) (disk : Disk) (checkpoint : Checkpoint) (proposal : Outcome)
    (left : Disk) : Prop where
  | unrecorded : left.saved = disk.saved → left.checkpoint = some checkpoint →
      Left pulse disk checkpoint proposal left
  | recorded (later : Checkpoint) : left.saved = disk.saved → left.checkpoint = some later →
      later.sideEffects.has (proposalKey later.runId) = true →
      (∀ pr, proposal = opened pr → pr ∈ left.pulls) →
      Left pulse disk checkpoint proposal left
  | deleted : left.saved = disk.saved → left.checkpoint = none →
      Left pulse disk checkpoint proposal left
  | ended : left.saved = settle pulse disk.saved proposal → left.checkpoint = none →
      (∀ pr, proposal = opened pr → pr ∈ left.pulls) →
      Left pulse disk checkpoint proposal left

theorem Disk.writes_effect (disk : Disk) (proposal : Outcome) :
    (disk.writes proposal.effect).saved = disk.saved ∧
      (disk.writes proposal.effect).checkpoint = disk.checkpoint ∧
      ∀ pr, proposal = opened pr → pr ∈ (disk.writes proposal.effect).pulls := by
  simp only [Outcome.effect]
  split
  next number url sameNumber sameUrl =>
    refine ⟨rfl, rfl, ?_⟩
    intro pr isOpened
    rw [isOpened] at sameNumber sameUrl
    cases sameNumber
    cases sameUrl
    simp [Disk.writes, Disk.write]
  next bare =>
    refine ⟨rfl, rfl, ?_⟩
    intro pr isOpened
    exact (bare pr.number pr.url (by rw [isOpened]; rfl) (by rw [isOpened]; rfl)).elim

theorem Disk.writes_take_effect (disk : Disk) (proposal : Outcome) (count : Nat) :
    (disk.writes (proposal.effect.take count)).saved = disk.saved ∧
      (disk.writes (proposal.effect.take count)).checkpoint = disk.checkpoint := by
  simp only [Outcome.effect]
  split
  next => cases count <;> simp [Disk.writes, Disk.write]
  next => simp [Disk.writes]

/-- A prefix of the closing writes, once the proposal is on record. -/
theorem left_conclude {pulse : Pulse} {disk start : Disk} {checkpoint later : Checkpoint}
    {comments : List String} {proposal : Outcome} (saved : start.saved = disk.saved)
    (found : start.checkpoint = some later)
    (has : later.sideEffects.has (proposalKey later.runId) = true)
    (pulls : ∀ pr, proposal = opened pr → pr ∈ start.pulls) (count : Nat) :
    Left pulse disk checkpoint proposal
      (start.writes ((conclude pulse comments later disk.saved proposal).take count)) := by
  have notes : ∃ notes, (∀ write ∈ notes, write.isNote = true) ∧
      conclude pulse comments later disk.saved proposal =
        notes ++ [.deleteCheckpoint, .saveTasks (settle pulse disk.saved proposal)] := by
    simp only [conclude]
    split
    next => exact ⟨_, fun _ => isNote_of_mem_comment, rfl⟩
    next => exact ⟨_, fun _ => isNote_of_mem_comment, rfl⟩
  obtain ⟨notes, noted, eq⟩ := notes
  rw [eq, List.take_append, Disk.writes_append]
  have taken : ∀ write ∈ notes.take count, write.isNote = true := fun write inside =>
    noted write (List.mem_of_mem_take inside)
  obtain ⟨saved', pulls', latest, found', sameRun, kept⟩ := start.writes_notes taken found
  cases rest : count - notes.length with
  | zero =>
      apply Left.recorded latest
      · exact saved'.trans saved
      · exact found'
      · rw [sameRun]
        exact kept _ has
      · intro pr isOpened
        exact pulls' ▸ pulls pr isOpened
  | succ more =>
      cases more with
      | zero => exact .deleted (saved'.trans saved) rfl
      | succ more =>
          apply Left.ended
          · simp [Disk.writes, Disk.write]
          · simp [Disk.writes, Disk.write]
          · intro pr isOpened
            simpa [Disk.writes, Disk.write] using pulls' ▸ pulls pr isOpened

/-- Every prefix of a delivery leaves one of the four kinds of disk. -/
theorem left_deliver {pulse : Pulse} {disk : Disk} {checkpoint : Checkpoint} {proposal : Outcome}
    (found : disk.checkpoint = some checkpoint)
    (fresh : checkpoint.sideEffects.has (proposalKey checkpoint.runId) = false) (count : Nat) :
    Left pulse disk checkpoint proposal
      (disk.writes ((deliver pulse disk.comments checkpoint disk.saved proposal).take count)) := by
  simp only [deliver, fresh, Bool.false_eq_true, ↓reduceIte]
  rw [List.take_append, Disk.writes_append]
  cases rest : count - proposal.effect.length with
  | zero =>
      obtain ⟨saved, same⟩ := disk.writes_take_effect proposal count
      exact .unrecorded saved (same.trans found)
  | succ more =>
      have whole : proposal.effect.take count = proposal.effect :=
        List.take_of_length_le (by omega)
      obtain ⟨saved, same, pulls⟩ := disk.writes_effect proposal
      rw [whole, List.take_succ_cons]
      change Left pulse disk checkpoint proposal (((disk.writes proposal.effect).write
        (.record (proposalKey checkpoint.runId) pulse.now)).writes _)
      apply left_conclude
      · exact saved
      · simp [Disk.write, same, found]
      · exact Ledger.has_record_self _ _ _
      · exact pulls

theorem mem_pulls_writes {pr : PullRequest} {disk : Disk} (writes : List Write)
    (inside : pr ∈ disk.pulls) : pr ∈ (disk.writes writes).pulls := by
  induction writes generalizing disk with
  | nil => exact inside
  | cons write rest ih =>
      apply ih
      cases write with
      | openPullRequest other => exact List.mem_append_left [other] inside
      | _ => exact inside

/-- A whole delivery saves the settled record. -/
theorem saved_writes_conclude (pulse : Pulse) (disk : Disk) (comments : List String)
    (checkpoint : Checkpoint) (task : Task) (final : Outcome) :
    (disk.writes (conclude pulse comments checkpoint task final)).saved =
      settle pulse task final := by
  simp only [conclude, Disk.writes_append]
  rfl

theorem saved_writes_deliver (pulse : Pulse) (disk : Disk) (comments : List String)
    (checkpoint : Checkpoint) (task : Task) (proposal : Outcome) :
    (disk.writes (deliver pulse comments checkpoint task proposal)).saved =
      settle pulse task
        (if checkpoint.sideEffects.has (proposalKey checkpoint.runId) then recorded task
          else proposal) := by
  simp only [deliver]
  split
  next => exact saved_writes_conclude pulse disk comments checkpoint task _
  next =>
    rw [Disk.writes_append]
    exact saved_writes_conclude pulse (((disk.writes proposal.effect).write _)) comments _ task _

/-- What a record reports after `outcome`, from what it reported before. -/
def Outcome.reportOn (outcome : Outcome) (before : Report) : Report :=
  if outcome.status = .prOpen then
    { before with
      status := .prOpen
      prNumber := outcome.prNumber <|> before.prNumber
      prUrl := outcome.prUrl <|> before.prUrl }
  else
    let error := outcome.reason.getD outcome.status.text
    { before with
      status := .failed
      error := some error
      failure := some
        (if outcome.status = .refused ∨ outcome.status = .blocked then "policy_blocked"
          else "permanent", some outcome.status.code, error) }

/-- A move keeps the reported fields, short of those its context sets. -/
theorem reportOf_moveTask (task : Task) (to' : Status) (ctx : TransitionContext)
    (keeps : to' ≠ .pending ∨ task.status = .running) :
    reportOf (moveTask task to' ctx) =
      { status := to'
        prNumber := task.prNumber
        prUrl := task.prUrl
        error := ctx.error.getD task.error
        failure := (ctx.failure.getD task.failure).map fun failure =>
          (failure.class', failure.code, failure.message) } := by
  simp only [reportOf, moveTask_status, Report.mk.injEq, true_and]
  simp only [moveTask]
  cases keeps with
  | inl other => grind
  | inr running => grind

theorem reportOf_settle (pulse : Pulse) (task : Task) (final : Outcome) :
    reportOf (settle pulse task final) = final.reportOn (reportOf task) := by
  simp only [settle, Outcome.reportOn]
  split
  next => rw [reportOf_moveTask _ _ _ (.inl (by simp))]; rfl
  next => rw [reportOf_moveTask _ _ _ (.inl (by simp))]; rfl

theorem reportOf_reclaim (pulse : Pulse) (lease : Lease) {task : Task}
    (running : task.status = .running) :
    reportOf (reclaim pulse lease task) = reportOf task := by
  simp only [reclaim]
  rw [reportOf_moveTask _ _ _ (.inl (by simp))]
  have pending := reportOf_moveTask { task with attempts := task.attempts + 1 } .pending
    { now := pulse.now, by' := some "reconcile" } (.inr running)
  simp only [reportOf, Report.mk.injEq, Option.getD_none] at pending ⊢
  grind

/-- Two proposals report the same only if they are the same. -/
theorem reportOn_inj {around around' : Surroundings} {synthesis synthesis' : List ProposedFile}
    {outcome outcome' : Outcome} {before : Report}
    (proposed : proposeSelfImprovement around synthesis = .ok outcome)
    (proposed' : proposeSelfImprovement around' synthesis' = .ok outcome')
    (same : outcome'.reportOn before = outcome.reportOn before) : outcome' = outcome := by
  rcases proposeSelfImprovement_ok proposed with ⟨pr, isOpened⟩ | ⟨refused, reason, eq⟩
  · rcases proposeSelfImprovement_ok proposed' with ⟨pr', isOpened'⟩ | ⟨refused', _⟩
    · rw [isOpened, isOpened'] at same ⊢
      simp [Outcome.reportOn, opened] at same
      simp [opened, same]
    · simp [isOpened, Outcome.reportOn, opened, refused'] at same
  · rcases proposeSelfImprovement_ok proposed' with ⟨pr', isOpened'⟩ | ⟨refused', reason', eq'⟩
    · simp [isOpened', Outcome.reportOn, opened, refused] at same
    · rw [eq] at refused same ⊢
      rw [eq'] at refused' same ⊢
      revert refused refused' same
      cases outcome.status <;> cases outcome'.status <;>
        simp [Outcome.reportOn, OutcomeStatus.code]

/-- What is rebuilt from the task record reports what `outcome` did only if that opened
the pull request the record already names. -/
theorem reportOn_recorded_iff {around : Surroundings} {synthesis : List ProposedFile}
    {outcome : Outcome} (proposed : proposeSelfImprovement around synthesis = .ok outcome)
    (task after : Task) (same : reportOf after = reportOf task) :
    (recorded after).reportOn (reportOf task) = outcome.reportOn (reportOf task) ↔
      outcome.status = .prOpen ∧ outcome.prNumber = task.prNumber ∧
        outcome.prUrl = task.prUrl := by
  simp only [reportOf, Report.mk.injEq] at same
  obtain ⟨-, sameNumber, sameUrl, -⟩ := same
  rcases proposeSelfImprovement_ok proposed with ⟨pr, isOpened⟩ | ⟨refused, _⟩
  · simp [Outcome.reportOn, recorded, isOpened, opened, reportOf, sameNumber, sameUrl]
    constructor
    · intro ⟨number, url⟩
      exact ⟨number.symm, url.symm⟩
    · intro ⟨number, url⟩
      exact ⟨number.symm, url.symm⟩
  · simp [Outcome.reportOn, recorded, refused]

/-- A delivery that opens a pull request leaves it open. -/
theorem mem_pulls_deliver {pulse : Pulse} {disk : Disk} {comments : List String}
    {checkpoint : Checkpoint} {task : Task} (pr : PullRequest)
    (fresh : checkpoint.sideEffects.has (proposalKey checkpoint.runId) = false) :
    pr ∈ (disk.writes (deliver pulse comments checkpoint task (opened pr))).pulls := by
  simp only [deliver, fresh, Bool.false_eq_true, ↓reduceIte, Disk.writes_append]
  apply mem_pulls_writes
  exact (disk.writes_effect (opened pr)).2.2 pr rfl

/-- The link a record reports is that of an outcome whose pull request is open. -/
theorem refines_of_opened {around : Surroundings} {synthesis : List ProposedFile}
    {outcome : Outcome} {disk uninterrupted : Disk} {before : Report}
    (proposed : proposeSelfImprovement around synthesis = .ok outcome)
    (reported : reportOf uninterrupted.saved = outcome.reportOn before)
    (same : reportOf disk.saved = reportOf uninterrupted.saved)
    (pulls : ∀ pr, outcome = opened pr → pr ∈ disk.pulls) : Refines disk uninterrupted := by
  refine ⟨same, ?_⟩
  intro isOpen
  have record := same.trans reported
  simp only [reportOf] at record
  rcases proposeSelfImprovement_ok proposed with ⟨pr, isOpened⟩ | ⟨refused, _⟩
  · refine ⟨pr, pulls pr isOpened, ?_⟩
    simp [isOpened, Outcome.reportOn, opened] at record
    exact ⟨record.2.1, record.2.2.1⟩
  · simp [Outcome.reportOn, refused, isOpen] at record

theorem has_of_proposed (left : Disk) (runId : String) :
    (let checkpoint := left.checkpoint.getD { runId, sideEffects := [] }
    checkpoint.sideEffects.has (proposalKey checkpoint.runId)) = left.proposed := by
  cases found : left.checkpoint with
  | none => simp [Disk.proposed, found, Ledger.has]
  | some checkpoint => simp [Disk.proposed, found]

/-- The pulse that resumes reports what its own delivery settles. -/
theorem reportOf_resume (pulse : Pulse) (lease : Lease) (runId : String) {left : Disk}
    (proposal : Outcome) (running : left.saved.status = .running) :
    ∃ after, reportOf after = reportOf left.saved ∧
      reportOf (resume pulse lease runId left proposal).saved =
        (if left.proposed then recorded after else proposal).reportOn (reportOf left.saved) := by
  have base := fun pulse => reportOf_reclaim pulse lease running
  refine ⟨_, base { pulse with resumed := left.checkpoint.isSome }, ?_⟩
  simp only [resume, running, ↓reduceIte, saved_writes_deliver, reportOf_settle, base,
    has_of_proposed left runId]

/-- A pull request that is open stays open, and one that is proposed again is opened. -/
theorem mem_pulls_resume {pulse : Pulse} {lease : Lease} {runId : String} {left : Disk}
    {proposal : Outcome} {pr : PullRequest} (running : left.saved.status = .running)
    (either : pr ∈ left.pulls ∨ left.proposed = false ∧ proposal = opened pr) :
    pr ∈ (resume pulse lease runId left proposal).pulls := by
  simp only [resume, running, ↓reduceIte]
  cases either with
  | inl inside => exact mem_pulls_writes _ inside
  | inr again =>
      rw [again.2]
      apply mem_pulls_deliver
      exact (has_of_proposed left runId).trans again.1

/-- The delivery that was interrupted did no harm: it was saved; or the proposal was on
record and `tasks.json` already named the pull request it opened; or it was not on record
and the second proposal came to the same. -/
def Unharmed (start left : Disk) (outcome outcome' : Outcome) : Prop :=
  left.saved.status ≠ .running ∨
  (left.proposed = true ∧ outcome.status = .prOpen ∧ outcome.prNumber = start.saved.prNumber ∧
    outcome.prUrl = start.saved.prUrl) ∨
  (left.proposed = false ∧ outcome' = outcome)

section Resume

variable {around around' : Surroundings} {synthesis synthesis' : List ProposedFile}
  {outcome outcome' : Outcome} {start left uninterrupted : Disk}

/-- The proposal is on record: the resumed pulse rebuilds the outcome from the task. -/
theorem resume_refines_recorded (pulse : Pulse) (lease : Lease) (runId : String)
    (proposed : proposeSelfImprovement around synthesis = .ok outcome)
    (reported : reportOf uninterrupted.saved = outcome.reportOn (reportOf start.saved))
    (running : left.saved.status = .running) (saved : left.saved = start.saved)
    (onRecord : left.proposed = true) (pulls : ∀ pr, outcome = opened pr → pr ∈ left.pulls) :
    Refines (resume pulse lease runId left outcome') uninterrupted ↔
      outcome.status = .prOpen ∧ outcome.prNumber = start.saved.prNumber ∧
        outcome.prUrl = start.saved.prUrl := by
  obtain ⟨after, same, resumed⟩ := reportOf_resume pulse lease runId outcome' running
  simp only [onRecord, ↓reduceIte, saved] at same resumed
  rw [← reportOn_recorded_iff proposed start.saved after same]
  constructor
  · intro refines
    rw [← resumed, ← reported]
    exact refines.1
  · intro agrees
    apply refines_of_opened proposed reported
    · rw [resumed, agrees, reported]
    · intro pr isOpened
      exact mem_pulls_resume running (.inl (pulls pr isOpened))

/-- The proposal is not on record: the resumed pulse makes its own. -/
theorem resume_refines_reproposed (pulse : Pulse) (lease : Lease) (runId : String)
    (proposed : proposeSelfImprovement around synthesis = .ok outcome)
    (proposed' : proposeSelfImprovement around' synthesis' = .ok outcome')
    (reported : reportOf uninterrupted.saved = outcome.reportOn (reportOf start.saved))
    (running : left.saved.status = .running) (saved : left.saved = start.saved)
    (offRecord : left.proposed = false) :
    Refines (resume pulse lease runId left outcome') uninterrupted ↔ outcome' = outcome := by
  obtain ⟨after, -, resumed⟩ := reportOf_resume pulse lease runId outcome' running
  simp only [offRecord, Bool.false_eq_true, ↓reduceIte, saved] at resumed
  constructor
  · intro refines
    apply reportOn_inj proposed proposed'
    rw [← resumed, ← reported]
    exact refines.1
  · intro agrees
    apply refines_of_opened proposed reported
    · rw [resumed, agrees, reported]
    · intro pr isOpened
      exact mem_pulls_resume running (.inr ⟨offRecord, agrees.trans isOpened⟩)

/-- The pulse that resumes a self-improvement task after a crash at any point of its
delivery ends it as the uninterrupted run would have, exactly when the crash did no harm. -/
theorem resume_refines_iff
    (proposed : proposeSelfImprovement around synthesis = .ok outcome)
    (proposed' : proposeSelfImprovement around' synthesis' = .ok outcome')
    (pulse pulse' : Pulse) (lease : Lease) (runId : String) {checkpoint : Checkpoint}
    (found : start.checkpoint = some checkpoint)
    (fresh : checkpoint.sideEffects.has (proposalKey checkpoint.runId) = false)
    (running : start.saved.status = .running) (count : Nat) :
    let writes := deliver pulse start.comments checkpoint start.saved outcome
    let left := start.writes (writes.take count)
    Refines (resume pulse' lease runId left outcome') (start.writes writes) ↔
      Unharmed start left outcome outcome' := by
  intro writes left
  have reported : reportOf (start.writes writes).saved =
      outcome.reportOn (reportOf start.saved) := by
    rw [saved_writes_deliver, fresh, reportOf_settle]
    rfl
  have kind : Left pulse start checkpoint outcome left := left_deliver found fresh count
  cases kind with
  | ended saved gone pulls =>
      have isOver : left.saved.status ≠ .running := by
        rw [saved, settle]
        split <;> simp
      have same : reportOf left.saved = reportOf (start.writes writes).saved := by
        rw [reported, saved, reportOf_settle]
      simp only [resume, isOver, ↓reduceIte, Unharmed, ne_eq, not_false_eq_true, true_or, iff_true]
      exact refines_of_opened proposed reported same pulls
  | recorded later saved onDisk has pulls =>
      have still : left.saved.status = .running := saved ▸ running
      have onRecord : left.proposed = true := by simp [Disk.proposed, onDisk, has]
      rw [resume_refines_recorded pulse' lease runId proposed reported still saved onRecord pulls]
      simp [Unharmed, still, onRecord]
  | unrecorded saved onDisk =>
      have still : left.saved.status = .running := saved ▸ running
      have offRecord : left.proposed = false := by simp [Disk.proposed, onDisk, fresh]
      rw [resume_refines_reproposed pulse' lease runId proposed proposed' reported still saved
        offRecord]
      simp [Unharmed, still, offRecord]
  | deleted saved gone =>
      have still : left.saved.status = .running := saved ▸ running
      have offRecord : left.proposed = false := by simp [Disk.proposed, gone]
      rw [resume_refines_reproposed pulse' lease runId proposed proposed' reported still saved
        offRecord]
      simp [Unharmed, still, offRecord]

end Resume

section Examples

/-- A denylist that lets nothing pass. -/
def refusing : Surroundings where
  findDenylistViolations := id
  checkRepoRelativePath _ := none
  review _ := none
  publish _ := .error "unreachable"

def workflowFile : ProposedFile :=
  { path := ".github/workflows/ci.yml", content := "", conflict := false }

/-- The outcome of proposing a change to a protected file. -/
def protectedPath : Outcome where
  status := .refused
  reason := some "Proposed change touches protected paths: .github/workflows/ci.yml"

theorem proposed_protectedPath :
    proposeSelfImprovement refusing [workflowFile] = .ok protectedPath := by decide

def quietPulse : Pulse := { now := 5, redactString := id, resumed := false, answered := true }

/-- A claimed task about to deliver. -/
def delivering : Disk where
  saved := { id := "issue-1", type := .selfImprove, issueNumber := some 1, status := .running }
  checkpoint := some { runId := "r1", sideEffects := [] }
  comments := []
  pulls := []

def laterLease : Lease := { owner := "pulse-2", acquiredAt := some 9, expiresAt := some 309 }

/-- A crash before the proposal is on record, and a second proposal that is refused the
same way. -/
theorem resume_refines_iff_refusedTwice :
    Refines
      (resume quietPulse laterLease "r2" (delivering.writes ((deliver quietPulse
        delivering.comments { runId := "r1", sideEffects := [] } delivering.saved
        protectedPath).take 0)) protectedPath)
      (delivering.writes (deliver quietPulse delivering.comments
        { runId := "r1", sideEffects := [] } delivering.saved protectedPath)) :=
  (resume_refines_iff proposed_protectedPath proposed_protectedPath quietPulse quietPulse
    laterLease "r2" rfl rfl rfl 0).2 (.inr (.inr ⟨rfl, rfl⟩))

/-- A crash right after the refusal was put on record: the resumed pulse reports an open
pull request. -/
theorem not_resume_refines :
    ¬ ∀ (around around' : Surroundings) (synthesis synthesis' : List ProposedFile)
      (outcome outcome' : Outcome) (pulse pulse' : Pulse) (lease : Lease) (runId : String)
      (start : Disk) (checkpoint : Checkpoint) (count : Nat),
      proposeSelfImprovement around synthesis = .ok outcome →
      proposeSelfImprovement around' synthesis' = .ok outcome' →
      start.checkpoint = some checkpoint →
      checkpoint.sideEffects.has (proposalKey checkpoint.runId) = false →
      start.saved.status = .running →
      Refines
        (resume pulse' lease runId (start.writes ((deliver pulse start.comments checkpoint
          start.saved outcome).take count)) outcome')
        (start.writes (deliver pulse start.comments checkpoint start.saved outcome)) := by
  intro refines
  have same := (refines refusing refusing [workflowFile] [workflowFile] protectedPath
    protectedPath quietPulse quietPulse laterLease "r2" delivering
    { runId := "r1", sideEffects := [] } 1 proposed_protectedPath proposed_protectedPath
    rfl rfl rfl).1
  have reportedOpen : (reportOf (resume quietPulse laterLease "r2" (delivering.writes
      ((deliver quietPulse delivering.comments { runId := "r1", sideEffects := [] }
        delivering.saved protectedPath).take 1)) protectedPath).saved).status = .prOpen := rfl
  rw [same] at reportedOpen
  have reportedFailed : (reportOf (delivering.writes (deliver quietPulse delivering.comments
      { runId := "r1", sideEffects := [] } delivering.saved protectedPath)).saved).status =
        .failed := rfl
  rw [reportedFailed] at reportedOpen
  contradiction

end Examples

end SelfImprove

end TitanRunner
