import Mathlib.Data.List.Forall2
import TitanRunner.Control.Commands
import TitanRunner.Github
import TitanRunner.Task.Lifecycle

/-!
# Issue-driven control

`issueSync.js`: `reconcileIssueState` cancels the tasks whose issue is gone from
the listing and applies the `/titan …` commands of authorized commenters.  The
queue is walked task by task; the report of a task holds the task afterwards, the
events it caused and what it adds to the counters.
-/

namespace TitanRunner

namespace IssueSync

/-- `PREEMPTABLE`. -/
def preemptable : List Status := [.pending, .waiting, .paused]

inductive CommandOutcome where
  | retried | ignoredNotTerminal | cancelled | cancelRequested | paused | pauseRequested
  | resumed | prioritySet (priority : Priority) | ignoredBadPriority | approvalRecorded
  | ignored
  deriving DecidableEq, Repr

inductive Event where
  | transition (event : TransitionEvent)
  | rejected (taskId : TaskId) (verb : Verb)
  | command (taskId : TaskId) (verb : Verb) (args : List String) (by' : Option String)
      (outcome : CommandOutcome)
  deriving DecidableEq, Repr

/-- `Priority` by its name in `PRIORITIES`. -/
def priorityOfName? : String → Option Priority
  | "low" => some .low
  | "normal" => some .normal
  | "high" => some .high
  | "urgent" => some .urgent
  | _ => none

/-- `{ ...approvals, [step]: approval }`. -/
def setApproval (approvals : List (String × Approval)) (step : String) (approval : Approval) :
    List (String × Approval) :=
  if approvals.any (·.1 = step) then
    approvals.map fun entry => if entry.1 = step then (step, approval) else entry
  else approvals ++ [(step, approval)]

/-- `applyCommand`, in the name of the login `by'`. -/
def applyCommand (now : Time) (by' : String) (task : Task) (command : Command) :
    Except TransitionError (Task × List Event × CommandOutcome) :=
  let move (task : Task) (target : Status) (reason : String) (error : Option (Option String))
      (after : Task → Task) (outcome : CommandOutcome) :=
    (transition task target { now, reason := some reason, by' := some by', error }).map
      fun moved => (after moved.1, [Event.transition moved.2], outcome)
  match command.verb with
  | .retry =>
      if isTerminal task.status then
        move { task with attempts := 0 } .pending ("retry requested by " ++ by') none
          (fun task => { task with retriedBy := some by' }) .retried
      else .ok (task, [], .ignoredNotTerminal)
  | .cancel =>
      if task.status ∈ preemptable then
        move task .cancelled ("cancelled by " ++ by') (some (some ("Cancelled by " ++ by' ++ ".")))
          id .cancelled
      else if task.status = .running then
        .ok ({ task with cancelRequested := true }, [], .cancelRequested)
      else .ok (task, [], .ignored)
  | .pause =>
      if task.status = .pending ∨ task.status = .waiting then
        move task .paused ("paused by " ++ by') none id .paused
      else if task.status = .running then
        .ok ({ task with pauseRequested := true }, [], .pauseRequested)
      else .ok (task, [], .ignored)
  | .resume =>
      if task.status = .paused then
        move task .pending ("resumed by " ++ by') none id .resumed
      else .ok (task, [], .ignored)
  | .priority =>
      match priorityOfName? (command.args.headD "").toLower with
      | none => .ok (task, [], .ignoredBadPriority)
      | some priority => .ok ({ task with priority }, [], .prioritySet priority)
  | .approve | .deny =>
      let step := String.ofList ((command.args.headD "all").toList.take 64)
      let decision := if command.verb = .approve then .approved else .denied
      let verb := if command.verb = .approve then "approve" else "deny"
      let task := { task with
        approvals := setApproval task.approvals step { decision, by', at' := now } }
      if task.status = .waiting ∧ task.waitReason = some .approval then
        move task .pending (verb ++ " by " ++ by' ++ " for " ++ step) none id .approvalRecorded
      else .ok (task, [], .approvalRecorded)

/-- The counters of `reconcileIssueState`. -/
structure Counts where
  cancelled : Nat := 0
  retried : Nat := 0
  commands : Nat := 0
  rejectedCommands : Nat := 0
  commentsFetched : Nat := 0
  approvals : Nat := 0
  deriving DecidableEq, Repr

def Counts.add (left right : Counts) : Counts where
  cancelled := left.cancelled + right.cancelled
  retried := left.retried + right.retried
  commands := left.commands + right.commands
  rejectedCommands := left.rejectedCommands + right.rejectedCommands
  commentsFetched := left.commentsFetched + right.commentsFetched
  approvals := left.approvals + right.approvals

/-- One task after the sync. -/
structure Report where
  task : Task
  events : List Event := []
  counts : Counts := {}
  deriving DecidableEq, Repr

/-- The task was marked cancelled: `transition` was called with that target. -/
def Report.MarkedCancelled (report : Report) : Prop :=
  ∃ event, Event.transition event ∈ report.events ∧ event.to' = .cancelled

/-- What the sync is given beside the queue and the listing. -/
structure Deps where
  now : Time
  authz : AuthorizationContext
  listComments : Nat → Option Time → List Comment

/-- `seenAt` of a task: the cursor, else the end of its last run, else its creation. -/
def seenAt (task : Task) : Option Time :=
  task.issueUpdatedAtSeen <|> task.completedAt <|> task.createdAt

/-- Whether this bump of the issue is to be examined. -/
def isBumped (task : Task) (issue : Issue) : Bool :=
  match issue.updatedAt with
  | none => false
  | some updatedAt =>
      match seenAt task with
      | none => true
      | some seen => decide (seen < updatedAt)

/-- The comment is not older than the cursor; a `retry` is not older than the end of
the run it asks to repeat.  Dates that do not parse skip neither test. -/
def isFresh (since completedAt : Option Time) (verb : Verb) (createdAt : Option Time) : Bool :=
  let after (bound : Option Time) :=
    match bound, createdAt with
    | some bound, some created => decide (bound < created)
    | _, _ => true
  after since && (verb ≠ .retry || after completedAt)

/-- The command a comment is examined for. -/
def commandOf (since completedAt : Option Time) (comment : Comment) : Option Command :=
  match parseTitanCommand comment.body with
  | none => none
  | some command =>
      if isFresh since completedAt command.verb comment.createdAt then some command else none

/-- The body of the loop over an issue's comments. -/
def applyComment (deps : Deps) (since completedAt : Option Time) (report : Report)
    (comment : Comment) : Except TransitionError Report :=
  match commandOf since completedAt comment with
  | none => .ok report
  | some command =>
      let auth := authorizeActor comment.actor deps.authz
      if auth.ok = false then
        .ok { report with
          events := report.events ++ [.rejected report.task.id command.verb]
          counts := report.counts.add { rejectedCommands := 1 } }
      else
        (applyCommand deps.now (auth.login.getD "") report.task command).map
          fun (task, events, outcome) =>
            { task
              events := report.events ++ events ++
                [.command report.task.id command.verb command.args auth.login outcome]
              counts := report.counts.add {
                commands := 1
                retried := if outcome = .retried then 1 else 0
                approvals := if outcome = .approvalRecorded then 1 else 0 } }

/-- `open.get(number)` of the map built from the listing: the last entry wins. -/
def findIssue (listing : List Issue) (number : Nat) : Option Issue :=
  listing.reverse.find? (·.number = number)

/-- `task.issueUpdatedAtSeen = openIssue.updated_at`. -/
def markSeen (task : Task) (issue : Issue) : Task :=
  { task with issueUpdatedAtSeen := issue.updatedAt }

/-- The body of the loop over the queue. -/
def reconcileTask (deps : Deps) (listing : List Issue) (task : Task) :
    Except TransitionError Report :=
  match task.issueNumber with
  | none => .ok { task }
  | some number =>
      match findIssue listing number with
      | none =>
          if task.status ∈ preemptable then
            (transition task .cancelled {
                now := deps.now
                by' := some "issue-closed"
                reason := some "issue closed before the task ran"
                error := some (some ("Cancelled from the dashboard — the originating issue " ++
                  "was closed before this task ran.")) }).map
              fun moved =>
                { task := moved.1, events := [.transition moved.2], counts := { cancelled := 1 } }
          else .ok { task }
      | some issue =>
          if isBumped task issue = false then .ok { task }
          else
            let since := seenAt task <|> task.createdAt
            (deps.listComments number since).foldlM
              (applyComment deps since task.completedAt)
              { task := markSeen task issue
                counts := { commentsFetched := 1 } }

/-- `reconcileIssueState`: one report for each task of the queue. -/
def reconcileIssueState (deps : Deps) (queue : List Task) (listing : List Issue) :
    Except TransitionError (List Report) :=
  queue.mapM (reconcileTask deps listing)

/-- The counters the call returns. -/
def totalCounts (reports : List Report) : Counts :=
  (reports.map Report.counts).foldl Counts.add {}

/-- The part of a pulse that steers the queue from GitHub: list, then reconcile. -/
def syncControl (deps : Deps) (ready : Bool) (server : Github.Server) (queue : List Task) :
    Except TransitionError (List Report) :=
  reconcileIssueState deps queue (Github.listOpenTaskIssues ready server)

/-- A command never makes an illegal move. -/
theorem applyCommand_ok (now : Time) (by' : String) (task : Task) (command : Command) :
    ∃ result, applyCommand now by' task command = .ok result := by
  unfold applyCommand
  cases command.verb with
  | retry =>
      dsimp only
      split
      next terminal =>
        rw [transition_eq_ok (by revert terminal; cases task.status <;> decide) (by decide)]
        exact ⟨_, rfl⟩
      · exact ⟨_, rfl⟩
  | cancel =>
      dsimp only
      split
      next live =>
        rw [transition_eq_ok (by revert live; cases task.status <;> decide) (by decide)]
        exact ⟨_, rfl⟩
      · split <;> exact ⟨_, rfl⟩
  | pause =>
      dsimp only
      split
      next live =>
        rw [transition_eq_ok (by revert live; cases task.status <;> decide) (by decide)]
        exact ⟨_, rfl⟩
      · split <;> exact ⟨_, rfl⟩
  | resume =>
      dsimp only
      split
      next paused =>
        rw [transition_eq_ok (by rw [paused]; decide) (by decide)]
        exact ⟨_, rfl⟩
      · exact ⟨_, rfl⟩
  | priority => dsimp only; split <;> exact ⟨_, rfl⟩
  | approve | deny =>
      dsimp only
      split
      next waiting =>
        rw [transition_eq_ok (by rw [waiting.1]; decide) (by decide)]
        exact ⟨_, rfl⟩
      · exact ⟨_, rfl⟩

theorem map_eq_ok {α β ε : Type} {result : Except ε α} {function : α → β} {value : β}
    (mapped : result.map function = .ok value) :
    ∃ inner, result = .ok inner ∧ function inner = value := by
  cases result with
  | error => contradiction
  | ok inner => exact ⟨inner, rfl, by simpa [Except.map] using mapped⟩

/-- What a command does to a task that a closed issue could still pre-empt: only
`cancel` marks it cancelled, and every other command leaves it so. -/
theorem applyCommand_live {now : Time} {by' : String} {task : Task} {command : Command}
    {result : Task × List Event × CommandOutcome} (live : task.status ∈ preemptable)
    (applied : applyCommand now by' task command = .ok result) :
    if command.verb = .cancel then
      ∃ event, Event.transition event ∈ result.2.1 ∧ event.to' = .cancelled
    else
      result.1.status ∈ preemptable ∧
        ∀ event, Event.transition event ∈ result.2.1 → event.to' ≠ .cancelled := by
  unfold applyCommand at applied
  cases verb : command.verb with
  | retry =>
      have running : isTerminal task.status = false := by
        revert live; cases task.status <;> decide
      simp only [verb, running] at applied
      cases applied
      exact ⟨live, by simp⟩
  | cancel =>
      simp only [verb, if_pos live] at applied
      obtain ⟨moved, transitioned, rfl⟩ := map_eq_ok applied
      obtain ⟨-, -, event⟩ := transition_ok transitioned
      exact ⟨moved.2, by simp, by simp [event, transitionEvent]⟩
  | pause =>
      simp only [verb] at applied
      split at applied
      · obtain ⟨moved, transitioned, rfl⟩ := map_eq_ok applied
        obtain ⟨-, after, event⟩ := transition_ok transitioned
        simp [after, event, transitionEvent, preemptable]
      · split at applied <;> cases applied <;> exact ⟨live, by simp⟩
  | resume =>
      simp only [verb] at applied
      split at applied
      · obtain ⟨moved, transitioned, rfl⟩ := map_eq_ok applied
        obtain ⟨-, after, event⟩ := transition_ok transitioned
        simp [after, event, transitionEvent, preemptable]
      · cases applied; exact ⟨live, by simp⟩
  | priority =>
      simp only [verb] at applied
      split at applied <;> cases applied <;> exact ⟨live, by simp⟩
  | approve | deny =>
      simp only [verb] at applied
      split at applied
      · obtain ⟨moved, transitioned, rfl⟩ := map_eq_ok applied
        obtain ⟨-, after, event⟩ := transition_ok transitioned
        simp [after, event, transitionEvent, preemptable]
      · cases applied; exact ⟨live, by simp⟩

/-- An authorized, fresh `/titan cancel`. -/
def Cancels (deps : Deps) (since completedAt : Option Time) (comment : Comment) : Prop :=
  (authorizeActor comment.actor deps.authz).ok = true ∧
    ∃ command, commandOf since completedAt comment = some command ∧ command.verb = .cancel

theorem applyComment_ok (deps : Deps) (since completedAt : Option Time) (report : Report)
    (comment : Comment) : ∃ after, applyComment deps since completedAt report comment = .ok after := by
  unfold applyComment
  split
  · exact ⟨_, rfl⟩
  next command _ =>
    dsimp only
    split
    · exact ⟨_, rfl⟩
    · obtain ⟨result, applied⟩ := applyCommand_ok deps.now
        ((authorizeActor comment.actor deps.authz).login.getD "") report.task command
      rw [applied]
      exact ⟨_, rfl⟩

/-- Events are only ever appended. -/
theorem applyComment_events {deps : Deps} {since completedAt : Option Time}
    {report after : Report} {comment : Comment}
    (applied : applyComment deps since completedAt report comment = .ok after) :
    ∀ event ∈ report.events, event ∈ after.events := by
  unfold applyComment at applied
  split at applied
  · cases applied; exact fun _ member => member
  · dsimp only at applied
    split at applied
    · cases applied
      exact fun _ member => List.mem_append_left _ member
    · obtain ⟨result, -, rfl⟩ := map_eq_ok applied
      exact fun _ member => List.mem_append_left _ (List.mem_append_left _ member)

/-- One comment on a live task: the task is marked cancelled exactly by a cancelling
comment, and stays live otherwise. -/
theorem applyComment_live {deps : Deps} {since completedAt : Option Time}
    {report after : Report} {comment : Comment} (live : report.task.status ∈ preemptable)
    (unmarked : ¬ report.MarkedCancelled)
    (applied : applyComment deps since completedAt report comment = .ok after) :
    (after.MarkedCancelled ↔ Cancels deps since completedAt comment) ∧
      (¬ Cancels deps since completedAt comment → after.task.status ∈ preemptable) := by
  unfold applyComment at applied
  split at applied
  next noCommand =>
    cases applied
    simp [Cancels, noCommand, unmarked, live]
  next command isCommand =>
    dsimp only at applied
    split at applied
    next unauthorized =>
      cases applied
      have same : ({ report with
          events := report.events ++ [.rejected report.task.id command.verb]
          counts := report.counts.add { rejectedCommands := 1 } } : Report).MarkedCancelled ↔
          report.MarkedCancelled := by
        simp [Report.MarkedCancelled]
      simp [same, unmarked, Cancels, unauthorized, live]
    next authorized =>
      obtain ⟨⟨task, events, outcome⟩, ran, rfl⟩ := map_eq_ok applied
      have spec := applyCommand_live live ran
      have cancels : Cancels deps since completedAt comment ↔ command.verb = .cancel := by
        simp [Cancels, isCommand, authorized]
      have marked : ∀ event, Event.transition event ∉ report.events ∨ event.to' ≠ .cancelled := by
        intro event
        by_contra both
        exact unmarked ⟨event, by simpa using both⟩
      rw [cancels]
      split at spec
      next verb =>
        obtain ⟨event, member, target⟩ := spec
        exact ⟨iff_of_true ⟨event, by simp [member], target⟩ verb, fun other => absurd verb other⟩
      next verb =>
        refine ⟨iff_of_false ?_ verb, fun _ => spec.1⟩
        rintro ⟨event, member, target⟩
        simp only [List.mem_append, List.mem_singleton, reduceCtorEq, or_false] at member
        rcases member with old | new
        · rcases marked event with absent | other
          · exact absent old
          · exact other target
        · exact spec.2 event new target

theorem applyComments_grow {deps : Deps} {since completedAt : Option Time}
    (comments : List Comment) (report : Report) :
    ∃ after, comments.foldlM (applyComment deps since completedAt) report = .ok after ∧
      ∀ event ∈ report.events, event ∈ after.events := by
  induction comments generalizing report with
  | nil => exact ⟨report, rfl, fun _ member => member⟩
  | cons comment rest ih =>
      obtain ⟨middle, applied⟩ := applyComment_ok deps since completedAt report comment
      obtain ⟨after, ran, kept⟩ := ih middle
      rw [List.foldlM_cons, applied]
      exact ⟨after, ran, fun event member => kept event (applyComment_events applied event member)⟩

/-- All comments on a live task. -/
theorem applyComments_live (deps : Deps) (since completedAt : Option Time)
    (comments : List Comment) (report : Report) (live : report.task.status ∈ preemptable)
    (unmarked : ¬ report.MarkedCancelled) :
    ∃ after, comments.foldlM (applyComment deps since completedAt) report = .ok after ∧
      (after.MarkedCancelled ↔ ∃ comment ∈ comments, Cancels deps since completedAt comment) := by
  induction comments generalizing report with
  | nil => exact ⟨report, rfl, by simp [unmarked]⟩
  | cons comment rest ih =>
      obtain ⟨middle, applied⟩ := applyComment_ok deps since completedAt report comment
      obtain ⟨marked, stillLive⟩ := applyComment_live live unmarked applied
      rw [List.foldlM_cons, applied]
      by_cases cancels : Cancels deps since completedAt comment
      · obtain ⟨event, member, target⟩ := marked.mpr cancels
        obtain ⟨after, ran, kept⟩ := applyComments_grow rest middle
        exact ⟨after, ran, iff_of_true ⟨event, kept _ member, target⟩
          ⟨comment, List.mem_cons_self, cancels⟩⟩
      · obtain ⟨after, ran, iff⟩ := ih middle (stillLive cancels) (mt marked.mp cancels)
        exact ⟨after, ran, by simp [iff, cancels]⟩

theorem findIssue_eq_none {listing : List Issue} {number : Nat} :
    findIssue listing number = none ↔ number ∉ listing.map Issue.number := by
  simp only [findIssue, List.find?_eq_none, List.mem_reverse, decide_eq_true_eq,
    List.mem_map, not_exists, not_and]

/-- The issue was bumped and carries an effective `/titan cancel` for the task. -/
def CommandsCancel (deps : Deps) (listing : List Issue) (task : Task) : Prop :=
  ∃ number issue, task.issueNumber = some number ∧ findIssue listing number = some issue ∧
    isBumped task issue = true ∧
    ∃ comment ∈ deps.listComments number (seenAt task <|> task.createdAt),
      Cancels deps (seenAt task <|> task.createdAt) task.completedAt comment

theorem reconcileTask_ok (deps : Deps) (listing : List Issue) (task : Task) :
    ∃ report, reconcileTask deps listing task = .ok report := by
  unfold reconcileTask
  split
  · exact ⟨_, rfl⟩
  · split
    · split
      next live =>
        rw [transition_eq_ok (by revert live; cases task.status <;> decide) (by decide)]
        exact ⟨_, rfl⟩
      · exact ⟨_, rfl⟩
    · split
      · exact ⟨_, rfl⟩
      · obtain ⟨after, ran, -⟩ := applyComments_grow _ _
        exact ⟨after, ran⟩

/-- A live issue task is marked cancelled exactly when its issue is missing from the
listing or somebody authorized asked for it. -/
theorem reconcileTask_markedCancelled {deps : Deps} {listing : List Issue} {task : Task}
    {report : Report} {number : Nat} (live : task.status ∈ preemptable)
    (fromIssue : task.issueNumber = some number)
    (reconciled : reconcileTask deps listing task = .ok report) :
    report.MarkedCancelled ↔
      number ∉ listing.map Issue.number ∨ CommandsCancel deps listing task := by
  unfold reconcileTask at reconciled
  simp only [fromIssue, if_pos live] at reconciled
  split at reconciled
  next missing =>
    obtain ⟨moved, transitioned, rfl⟩ := map_eq_ok reconciled
    have target := transition_event_to transitioned
    exact iff_of_true ⟨moved.2, List.mem_singleton_self _, target⟩
      (.inl (findIssue_eq_none.mp missing))
  next issue found =>
    have listed : number ∈ listing.map Issue.number := by
      by_contra absent
      simp [findIssue_eq_none.mpr absent] at found
    split at reconciled
    next unbumped =>
      cases reconciled
      simp [Report.MarkedCancelled, CommandsCancel, fromIssue, found, unbumped, listed]
    next bumped =>
      obtain ⟨after, ran, marked⟩ := applyComments_live deps
        (seenAt task <|> task.createdAt) task.completedAt
        (deps.listComments number (seenAt task <|> task.createdAt))
        { task := markSeen task issue, counts := { commentsFetched := 1 } } live (by simp [Report.MarkedCancelled])
      rw [ran] at reconciled
      cases reconciled
      simp only [Bool.not_eq_false] at bumped
      simp [marked, CommandsCancel, fromIssue, found, bumped, listed]

/-- The sync never throws, and reports on each task by itself. -/
theorem reconcileIssueState_ok (deps : Deps) (queue : List Task) (listing : List Issue) :
    ∃ reports, reconcileIssueState deps queue listing = .ok reports ∧
      List.Forall₂ (fun task report => reconcileTask deps listing task = .ok report)
        queue reports := by
  induction queue with
  | nil => exact ⟨[], rfl, .nil⟩
  | cons task rest ih =>
      obtain ⟨report, reconciled⟩ := reconcileTask_ok deps listing task
      obtain ⟨reports, ran, each⟩ := ih
      rw [reconcileIssueState] at ran
      exact ⟨report :: reports, by rw [reconcileIssueState, List.mapM_cons, reconciled, ran]; rfl,
        .cons reconciled each⟩

/-- No live task whose issue is open on the server was marked cancelled. -/
def CancelsOnlyClosed (server : Github.Server) (queue : List Task) (reports : List Report) :
    Prop :=
  List.Forall₂ (fun task report => task.status ∈ preemptable →
      ∀ number, task.issueNumber = some number → server.IsOpen number →
        ¬ report.MarkedCancelled)
    queue reports

theorem forall₂_iff_forall_mem {α β : Type} {relation : α → β → Prop} {good : α → Prop}
    {holds : α → β → Prop} {left : List α} {right : List β}
    (related : List.Forall₂ relation left right)
    (each : ∀ a b, relation a b → (holds a b ↔ good a)) :
    List.Forall₂ holds left right ↔ ∀ a ∈ left, good a := by
  induction related with
  | nil => simp
  | cons head _ ih => simp [each _ _ head, ih]

/-- Per task: no open issue's task is cancelled when its issue was received and nobody
asked for it. -/
theorem keepsOpen_iff {deps : Deps} (server : Github.Server) {listing : List Issue}
    (task : Task) (report : Report)
    (reconciled : reconcileTask deps listing task = .ok report) :
    (task.status ∈ preemptable → ∀ number, task.issueNumber = some number →
        server.IsOpen number → ¬ report.MarkedCancelled) ↔
      (task.status ∈ preemptable → ∀ number, task.issueNumber = some number →
        server.IsOpen number →
          number ∈ listing.map Issue.number ∧ ¬ CommandsCancel deps listing task) := by
  refine forall_congr' fun live => forall_congr' fun number =>
    forall_congr' fun fromIssue => forall_congr' fun _ => ?_
  rw [reconcileTask_markedCancelled live fromIssue reconciled]
  tauto

/-- A pulse cancels no live task whose issue is open exactly when it got an answer to
its one request for the listing, each such issue stands on that first page, and no
authorized comment asks for the cancellation. -/
theorem syncControl_cancelsOnlyClosed_iff (deps : Deps) (ready : Bool)
    (server : Github.Server) (queue : List Task) :
    (∃ reports, syncControl deps ready server queue = .ok reports ∧
        CancelsOnlyClosed server queue reports) ↔
      ∀ task ∈ queue, task.status ∈ preemptable →
        ∀ number, task.issueNumber = some number → server.IsOpen number →
          (ready = true ∧ server.failure = none ∧
            number ∈ (server.openIssues.take Github.issuesPerPage).map Issue.number) ∧
          ¬ CommandsCancel deps (server.openIssues.take Github.issuesPerPage) task := by
  obtain ⟨reports, ran, each⟩ :=
    reconcileIssueState_ok deps queue (Github.listOpenTaskIssues ready server)
  have perTask := forall₂_iff_forall_mem each (keepsOpen_iff server)
  have unique : (∃ reports, syncControl deps ready server queue = .ok reports ∧
      CancelsOnlyClosed server queue reports) ↔ CancelsOnlyClosed server queue reports := by
    simp [syncControl, ran]
  rw [unique, CancelsOnlyClosed, perTask]
  refine forall₂_congr fun task _ => forall_congr' fun live => forall_congr' fun number =>
    forall_congr' fun fromIssue => forall_congr' fun _ => ?_
  rcases Github.listing_cases ready server with ⟨isReady, served, listing⟩ | ⟨missed, listing⟩
  · rw [listing]; simp [isReady, served]
  · rw [listing]
    constructor
    · simp
    · rintro ⟨⟨isReady, served, -⟩, -⟩
      exact absurd ⟨isReady, served⟩ missed

/-- The listing fails while issue 7 is open; and with 51 open issues the last one is
not on the page.  Both times the pending task of an open issue is cancelled. -/
theorem not_cancelsOnlyClosed :
    let deps : Deps := ⟨0, ⟨[], none, false⟩, fun _ _ => []⟩
    (¬ ∃ reports, syncControl deps true ⟨[⟨7, none⟩], some "502"⟩
        [{ id := "issue-7", issueNumber := some 7 }] = .ok reports ∧
      CancelsOnlyClosed ⟨[⟨7, none⟩], some "502"⟩
        [{ id := "issue-7", issueNumber := some 7 }] reports) ∧
    ¬ ∃ reports, syncControl deps true ⟨(List.range 51).map (⟨·, none⟩), none⟩
        [{ id := "issue-50", issueNumber := some 50 }] = .ok reports ∧
      CancelsOnlyClosed ⟨(List.range 51).map (⟨·, none⟩), none⟩
        [{ id := "issue-50", issueNumber := some 50 }] reports := by
  refine ⟨?_, ?_⟩
  · rintro ⟨reports, ran, keeps⟩
    cases ran
    cases keeps with
    | cons head _ =>
        exact head (by decide) 7 rfl (by decide) ⟨_, List.mem_singleton_self _, rfl⟩
  · rintro ⟨reports, ran, keeps⟩
    cases ran
    cases keeps with
    | cons head _ =>
        exact head (by decide) 50 rfl (by decide) ⟨_, List.mem_singleton_self _, rfl⟩

end IssueSync

end TitanRunner
