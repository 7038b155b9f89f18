import TitanRunner.IssueSync
import TitanRunner.Task.Actions

/-!
# The control sync, as actions on a record

What `reconcileIssueState` and `applyCommand` do to one record, as a row of actions.
-/

namespace TitanRunner

namespace IssueSync

/-- The actions of `applyCommand`. -/
def commandActions (now : Time) (by' : String) (task : Task) (command : Command) : List Action :=
  let move (target : Status) (reason : String) (error : Option (Option String)) : Action :=
    .move target { now, reason := some reason, by' := some by', error }
  match command.verb with
  | .retry =>
      if isTerminal task.status then
        [.write (.attempts 0), move .pending ("retry requested by " ++ by') none,
          .write (.retriedBy by')]
      else []
  | .cancel =>
      if task.status ∈ preemptable then
        [move .cancelled ("cancelled by " ++ by') (some (some ("Cancelled by " ++ by' ++ ".")))]
      else if task.status = .running then [.write (.cancelRequested true)]
      else []
  | .pause =>
      if task.status = .pending ∨ task.status = .waiting then
        [move .paused ("paused by " ++ by') none]
      else if task.status = .running then [.write (.pauseRequested true)]
      else []
  | .resume => if task.status = .paused then [move .pending ("resumed by " ++ by') none] else []
  | .priority =>
      match priorityOfName? (command.args.headD "").toLower with
      | none => []
      | some level => [.write (.priority level)]
  | .approve | .deny =>
      let step := String.ofList ((command.args.headD "all").toList.take 64)
      let decision := if command.verb = .approve then .approved else .denied
      let verb := if command.verb = .approve then "approve" else "deny"
      .write (.approvals (setApproval task.approvals step { decision, by', at' := now })) ::
        if task.status = .waiting ∧ task.waitReason = some .approval then
          [move .pending (verb ++ " by " ++ by' ++ " for " ++ step) none]
        else []

theorem applyCommand_eq (now : Time) (by' : String) (task : Task) (command : Command) :
    (applyCommand now by' task command).map Prod.fst =
      Action.performAll task (commandActions now by' task command) := by
  unfold applyCommand commandActions
  cases command.verb with
  | retry =>
      dsimp only
      split
      next =>
        rw [Action.performAll_write, Action.performAll_move, Patch.apply]
        cases transition { task with attempts := 0 } .pending _ <;> rfl
      next => rfl
  | cancel =>
      dsimp only
      split
      next =>
        rw [Action.performAll_move]
        cases transition task .cancelled _ <;> rfl
      next => split <;> rfl
  | pause =>
      dsimp only
      split
      next =>
        rw [Action.performAll_move]
        cases transition task .paused _ <;> rfl
      next => split <;> rfl
  | resume =>
      dsimp only
      split
      next =>
        rw [Action.performAll_move]
        cases transition task .pending _ <;> rfl
      next => rfl
  | priority =>
      dsimp only
      cases priorityOfName? (command.args.headD "").toLower <;> rfl
  | approve | deny =>
      dsimp only
      split
      next =>
        rw [Action.performAll_write, Action.performAll_move, Patch.apply]
        cases transition { task with approvals := _ } .pending _ <;> rfl
      next => rfl

/-- A command asks for no move that `TRANSITIONS` forbids. -/
theorem commandActions_allowed (now : Time) (by' : String) (task : Task) (command : Command) :
    Action.AllowedAll task (commandActions now by' task command) := by
  have ⟨result, applied⟩ := applyCommand_ok now by' task command
  have performed := applyCommand_eq now by' task command
  rw [applied] at performed
  exact (Action.performAll_ok performed.symm).1

/-- The actions of one comment. -/
def commentActions (deps : Deps) (since completedAt : Option Time) (task : Task)
    (comment : Comment) : List Action :=
  match commandOf since completedAt comment with
  | none => []
  | some command =>
      let auth := authorizeActor comment.actor deps.authz
      if auth.ok = false then []
      else commandActions deps.now (auth.login.getD "") task command

/-- The actions of the comments, each on the record the ones before it left. -/
def commentsActions (deps : Deps) (since completedAt : Option Time) :
    Task → List Comment → List Action
  | _, [] => []
  | task, comment :: rest =>
      let first := commentActions deps since completedAt task comment
      first ++ commentsActions deps since completedAt (Action.applyAll task first) rest

/-- The actions of `reconcileIssueState` on one record. -/
def syncActions (deps : Deps) (listing : List Issue) (task : Task) : List Action :=
  match task.issueNumber with
  | none => []
  | some number =>
      match findIssue listing number with
      | none =>
          if task.status ∈ preemptable then
            [.move .cancelled {
              now := deps.now
              by' := some "issue-closed"
              reason := some "issue closed before the task ran"
              error := some (some ("Cancelled from the dashboard — the originating issue " ++
                "was closed before this task ran.")) }]
          else []
      | some issue =>
          if isBumped task issue = false then []
          else
            let since := seenAt task <|> task.createdAt
            .write (.issueUpdatedAtSeen issue.updatedAt) ::
              commentsActions deps since task.completedAt (markSeen task issue)
                (deps.listComments number since)

theorem commentActions_allowed (deps : Deps) (since completedAt : Option Time) (task : Task)
    (comment : Comment) :
    Action.AllowedAll task (commentActions deps since completedAt task comment) := by
  unfold commentActions
  split
  next => trivial
  next command _ =>
    dsimp only
    split
    next => trivial
    next => exact commandActions_allowed _ _ task command

theorem applyComment_eq (deps : Deps) (since completedAt : Option Time) (report : Report)
    (comment : Comment) :
    (applyComment deps since completedAt report comment).map Report.task =
      .ok (Action.applyAll report.task
        (commentActions deps since completedAt report.task comment)) := by
  cases examined : commandOf since completedAt comment with
  | none => simp only [applyComment, commentActions, examined]; rfl
  | some command =>
      simp only [applyComment, commentActions, examined]
      split
      next => rfl
      next =>
        have performed := applyCommand_eq deps.now
          ((authorizeActor comment.actor deps.authz).login.getD "") report.task command
        rw [Action.performAll_eq_ok (commandActions_allowed _ _ _ _)] at performed
        cases applied : applyCommand deps.now
            ((authorizeActor comment.actor deps.authz).login.getD "") report.task command with
        | error =>
            rw [applied] at performed
            contradiction
        | ok result =>
            rw [applied] at performed
            exact performed

theorem commentsActions_allowed (deps : Deps) (since completedAt : Option Time) (task : Task)
    (comments : List Comment) :
    Action.AllowedAll task (commentsActions deps since completedAt task comments) := by
  induction comments generalizing task with
  | nil => trivial
  | cons comment rest ih =>
      exact (commentActions_allowed deps since completedAt task comment).append (ih _)

theorem applyComments_eq (deps : Deps) (since completedAt : Option Time) (report : Report)
    (comments : List Comment) :
    (comments.foldlM (applyComment deps since completedAt) report).map Report.task =
      .ok (Action.applyAll report.task
        (commentsActions deps since completedAt report.task comments)) := by
  induction comments generalizing report with
  | nil => rfl
  | cons comment rest ih =>
      have first := applyComment_eq deps since completedAt report comment
      cases applied : applyComment deps since completedAt report comment with
      | error =>
          rw [applied] at first
          contradiction
      | ok next =>
          rw [applied] at first
          have same := Except.ok.inj first
          rw [List.foldlM_cons, applied]
          have others := ih next
          rw [same] at others
          rw [commentsActions, Action.applyAll_append]
          exact others

theorem syncActions_allowed (deps : Deps) (listing : List Issue) (task : Task) :
    Action.AllowedAll task (syncActions deps listing task) := by
  unfold syncActions
  split
  next => trivial
  next =>
    split
    next =>
      split
      next live =>
        refine ⟨⟨?_, fun waiting => by contradiction⟩, trivial⟩
        revert live
        cases task.status <;> decide
      next => trivial
    next =>
      split
      next => trivial
      next => exact ⟨trivial, commentsActions_allowed _ _ _ _ _⟩

/-- The sync of a record is its row of actions, and no action throws. -/
theorem reconcileTask_eq (deps : Deps) (listing : List Issue) (task : Task) :
    (reconcileTask deps listing task).map Report.task =
      .ok (Action.applyAll task (syncActions deps listing task)) := by
  cases numbered : task.issueNumber with
  | none => simp only [reconcileTask, syncActions, numbered]; rfl
  | some number =>
      cases listed : findIssue listing number with
      | none =>
          simp only [reconcileTask, syncActions, numbered, listed]
          split
          next live =>
            rw [transition_eq_ok (by revert live; cases task.status <;> decide) (by decide)]
            rfl
          next => rfl
      | some issue =>
          simp only [reconcileTask, syncActions, numbered, listed]
          split
          next => rfl
          next =>
            exact applyComments_eq deps _ _
              { task := markSeen task issue, counts := { commentsFetched := 1 } } _

/-- `reconcileIssueState` never throws, and does its row of actions to each record. -/
theorem reconcileIssueState_eq (deps : Deps) (tasks : List Task) (listing : List Issue) :
    ∃ reports, reconcileIssueState deps tasks listing = .ok reports ∧
      reports.map Report.task =
        tasks.map fun task => Action.applyAll task (syncActions deps listing task) := by
  induction tasks with
  | nil => exact ⟨[], rfl, rfl⟩
  | cons task rest ih =>
      have first := reconcileTask_eq deps listing task
      cases synced : reconcileTask deps listing task with
      | error =>
          rw [synced] at first
          contradiction
      | ok report =>
          rw [synced] at first
          have ⟨reports, others, same⟩ := ih
          refine ⟨report :: reports, ?_, ?_⟩
          · rw [reconcileIssueState] at others
            rw [reconcileIssueState, List.mapM_cons, synced, others]
            rfl
          · rw [List.map_cons, List.map_cons, same]
            exact congrArg (· :: _) (Except.ok.inj first)

end IssueSync

end TitanRunner
