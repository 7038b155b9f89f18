import TitanRunner.Task.Schema

/-!
# The task state machine

`task/lifecycle.js`: the allowed moves and `transition`, the only writer of a
task's status.  The task is mutated in place in the source; here the moved task
is returned together with the `task.transition` event the call emits.
-/

namespace TitanRunner

/-- `TERMINAL_STATUSES`. -/
def terminalStatuses : List Status :=
  [.complete, .failed, .blocked, .cancelled, .expired, .deadLettered]

def isTerminal (status : Status) : Bool := terminalStatuses.contains status

/-- `TRANSITIONS`: from a status, the allowed targets. -/
def transitions : Status → List Status
  | .pending => [.running, .waiting, .paused, .cancelled, .expired, .deadLettered]
  | .running => [.complete, .failed, .blocked, .cancelled, .waiting, .prOpen,
      .deadLettered, .expired, .pending]
  | .waiting => [.pending, .paused, .cancelled, .expired, .deadLettered]
  | .paused => [.pending, .cancelled, .expired]
  | .prOpen => [.complete, .failed, .cancelled]
  | .complete => [.pending]
  | .failed => [.pending]
  | .blocked => [.pending]
  | .cancelled => [.pending]
  | .expired => [.pending]
  | .deadLettered => [.pending]

def canTransition (from' to' : Status) : Bool := (transitions from').contains to'

/-- `MAX_HISTORY`. -/
def maxHistory : Nat := 40

/-- The context argument of `transition`.  The outer `none` of `error` and
`failure` is JavaScript's `undefined`: the field is left alone. -/
structure TransitionContext where
  now : Time
  reason : Option String := none
  by' : Option String := none
  waitReason : Option WaitReason := none
  wakeAt : Option Time := none
  error : Option (Option String) := none
  failure : Option (Option Failure) := none

/-- The `task.transition` event. -/
structure TransitionEvent where
  taskId : TaskId
  runId : Option String
  attempt : Nat
  from' : Status
  to' : Status
  reason : Option String
  by' : String
  waitReason : Option WaitReason
  wakeAt : Option Time
  failureClass : Option String
  outcome : Option Status
  activeMs : Option Nat
  deriving DecidableEq, Repr

inductive TransitionError where
  | illegal (taskId : TaskId) (from' to' : Status)
  | waitingNeedsReason (taskId : TaskId)
  deriving DecidableEq, Repr

/-- The assignments `transition` makes, once the move is allowed. -/
def moveTask (task : Task) (to' : Status) (ctx : TransitionContext) : Task :=
  let from' := task.status
  let task := { task with
    status := to'
    waitReason := if to' = Status.waiting then ctx.waitReason else none
    wakeAt := if to' = Status.waiting then some (ctx.wakeAt.getD ctx.now) else none }
  let task :=
    if to' = .running then
      { task with startedAt := some (task.startedAt.getD ctx.now), completedAt := none }
    else task
  let task :=
    if to' = .pending then
      let task := { task with lease := none }
      -- a retry from a terminal state starts a fresh life but keeps `attempts`
      if from' ≠ .waiting ∧ from' ≠ .paused ∧ from' ≠ .running then
        { task with
          claimedAt := none, startedAt := none, completedAt := none
          runId := none, error := none, failure := none }
      else task
    else task
  let task :=
    if isTerminal to' || decide (to' = .prOpen) then
      { task with completedAt := some ctx.now, lease := none }
    else task
  let task := { task with
    error := ctx.error.getD task.error
    failure := ctx.failure.getD task.failure }
  let history := task.history ++ [{ at' := ctx.now, from' := some from', to', reason := ctx.reason }]
  { task with history := history.drop (history.length - maxHistory) }

/-- The event of a move, read off the moved task. -/
def transitionEvent (from' : Status) (moved : Task) (ctx : TransitionContext) :
    TransitionEvent where
  taskId := moved.id
  runId := moved.runId
  attempt := moved.attempts
  from'
  to' := moved.status
  reason := ctx.reason
  by' := ctx.by'.getD "engine"
  waitReason := moved.waitReason
  wakeAt := moved.wakeAt
  failureClass := ctx.failure.join.map Failure.class'
  outcome := if isTerminal moved.status then some moved.status else none
  activeMs := if isTerminal moved.status then moved.usage.map Usage.wallMs else none

/-- `transition`. -/
def transition (task : Task) (to' : Status) (ctx : TransitionContext) :
    Except TransitionError (Task × TransitionEvent) :=
  if canTransition task.status to' = false then
    .error (.illegal task.id task.status to')
  else if to' = .waiting ∧ ctx.waitReason = none then
    .error (.waitingNeedsReason task.id)
  else
    let moved := moveTask task to' ctx
    .ok (moved, transitionEvent task.status moved ctx)

@[simp] theorem moveTask_status (task : Task) (to' : Status) (ctx : TransitionContext) :
    (moveTask task to' ctx).status = to' := by
  unfold moveTask
  dsimp only
  split <;> split <;> (try split) <;> split <;> rfl

/-- A move assigns these fields and leaves the others alone. -/
theorem moveTask_eq (task : Task) (to' : Status) (ctx : TransitionContext) :
    moveTask task to' ctx =
      { task with
        status := (moveTask task to' ctx).status
        waitReason := (moveTask task to' ctx).waitReason
        wakeAt := (moveTask task to' ctx).wakeAt
        claimedAt := (moveTask task to' ctx).claimedAt
        startedAt := (moveTask task to' ctx).startedAt
        completedAt := (moveTask task to' ctx).completedAt
        runId := (moveTask task to' ctx).runId
        error := (moveTask task to' ctx).error
        failure := (moveTask task to' ctx).failure
        lease := (moveTask task to' ctx).lease
        history := (moveTask task to' ctx).history } := by
  unfold moveTask
  dsimp only
  split <;> split <;> (try split) <;> split <;> rfl

@[simp] theorem moveTask_id (task : Task) (to' : Status) (ctx : TransitionContext) :
    (moveTask task to' ctx).id = task.id := by
  rw [moveTask_eq]

@[simp] theorem moveTask_issueNumber (task : Task) (to' : Status)
    (ctx : TransitionContext) :
    (moveTask task to' ctx).issueNumber = task.issueNumber := by
  rw [moveTask_eq]

@[simp] theorem moveTask_issueUpdatedAtSeen (task : Task) (to' : Status)
    (ctx : TransitionContext) :
    (moveTask task to' ctx).issueUpdatedAtSeen = task.issueUpdatedAtSeen := by
  rw [moveTask_eq]

@[simp] theorem moveTask_approvals (task : Task) (to' : Status) (ctx : TransitionContext) :
    (moveTask task to' ctx).approvals = task.approvals := by
  rw [moveTask_eq]

@[simp] theorem moveTask_autonomy (task : Task) (to' : Status) (ctx : TransitionContext) :
    (moveTask task to' ctx).autonomy = task.autonomy := by
  rw [moveTask_eq]

@[simp] theorem moveTask_dependsOn (task : Task) (to' : Status) (ctx : TransitionContext) :
    (moveTask task to' ctx).dependsOn = task.dependsOn := by
  rw [moveTask_eq]

@[simp] theorem moveTask_expiresAt (task : Task) (to' : Status) (ctx : TransitionContext) :
    (moveTask task to' ctx).expiresAt = task.expiresAt := by
  rw [moveTask_eq]

@[simp] theorem moveTask_deadline (task : Task) (to' : Status) (ctx : TransitionContext) :
    (moveTask task to' ctx).deadline = task.deadline := by
  rw [moveTask_eq]

@[simp] theorem moveTask_parks (task : Task) (to' : Status) (ctx : TransitionContext) :
    (moveTask task to' ctx).parks = task.parks := by
  rw [moveTask_eq]

@[simp] theorem moveTask_cancelRequested (task : Task) (to' : Status) (ctx : TransitionContext) :
    (moveTask task to' ctx).cancelRequested = task.cancelRequested := by
  rw [moveTask_eq]

@[simp] theorem moveTask_pauseRequested (task : Task) (to' : Status) (ctx : TransitionContext) :
    (moveTask task to' ctx).pauseRequested = task.pauseRequested := by
  rw [moveTask_eq]

/-- The fields a move assigns. -/
theorem moveTask_waitReason (task : Task) (to' : Status) (ctx : TransitionContext) :
    (moveTask task to' ctx).waitReason =
      if to' = .waiting then ctx.waitReason else none := by
  unfold moveTask
  dsimp only
  split <;> split <;> (try split) <;> split <;> rfl

theorem moveTask_wakeAt (task : Task) (to' : Status) (ctx : TransitionContext) :
    (moveTask task to' ctx).wakeAt =
      if to' = .waiting then some (ctx.wakeAt.getD ctx.now) else none := by
  unfold moveTask
  dsimp only
  split <;> split <;> (try split) <;> split <;> rfl

theorem moveTask_completedAt (task : Task) (to' : Status) (ctx : TransitionContext) :
    (moveTask task to' ctx).completedAt =
      if isTerminal to' || decide (to' = .prOpen) then some ctx.now
      else if to' = .running ∨ (to' = .pending ∧
          task.status ≠ .waiting ∧ task.status ≠ .paused ∧ task.status ≠ .running) then none
      else task.completedAt := by
  cases to' with
  | pending =>
      have live : isTerminal .pending = false := rfl
      by_cases fresh : task.status ≠ .waiting ∧ task.status ≠ .paused ∧ task.status ≠ .running
      · simp [moveTask, live, fresh]
      · simp only [moveTask, live, fresh, if_true, if_false, reduceCtorEq, decide_false,
          Bool.or_self, Bool.false_eq_true, false_or, and_false]
  | _ => rfl

theorem moveTask_history (task : Task) (to' : Status) (ctx : TransitionContext) :
    (moveTask task to' ctx).history =
      (task.history ++ [HistoryEntry.mk ctx.now (some task.status) to' ctx.reason]).drop
        (task.history.length + 1 - maxHistory) := by
  have length : (task.history ++ [HistoryEntry.mk ctx.now (some task.status) to'
      ctx.reason]).length = task.history.length + 1 := List.length_append
  unfold moveTask
  dsimp only
  split <;> split <;> (try split) <;> split <;> (simp only [length])

/-- Everything a successful `transition` says: the move was allowed, and the result
is the moved task with its event. -/
theorem transition_ok {task : Task} {to' : Status} {ctx : TransitionContext}
    {result : Task × TransitionEvent} (ok : transition task to' ctx = .ok result) :
    canTransition task.status to' = true ∧ result.1 = moveTask task to' ctx ∧
      result.2 = transitionEvent task.status (moveTask task to' ctx) ctx := by
  unfold transition at ok
  split at ok
  · contradiction
  next allowed =>
    split at ok
    · contradiction
    · cases ok
      exact ⟨by simpa using allowed, rfl, rfl⟩

/-- The event names the target. -/
theorem transition_event_to {task : Task} {target : Status} {ctx : TransitionContext}
    {result : Task × TransitionEvent} (ok : transition task target ctx = .ok result) :
    result.2.to' = target := by
  rw [(transition_ok ok).2.2]
  exact moveTask_status task target ctx

/-- An allowed move to any status but `waiting` succeeds. -/
theorem transition_eq_ok {task : Task} {to' : Status} {ctx : TransitionContext}
    (allowed : canTransition task.status to' = true) (notWaiting : to' ≠ .waiting) :
    transition task to' ctx =
      .ok (moveTask task to' ctx, transitionEvent task.status (moveTask task to' ctx) ctx) := by
  simp [transition, allowed, notWaiting]

end TitanRunner
