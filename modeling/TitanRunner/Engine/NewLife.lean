import TitanRunner.Engine.RunTask
import TitanRunner.IssueActions
import TitanRunner.Task.LiveLease

/-!
# The life that a retry gives

`/titan retry` on a record that has ended (`applyCommand` of `issueSync.js`), and what the engine reads
of the record afterwards: the sweep of `task/reconcile.js`, the hook that drains a run, and the ceiling
of parks in `processTaskInner`.
-/

namespace TitanRunner

namespace NewLife

open RunTask (Turn Answers Parked Result)

/-- What drains a run beside the requests on the record. -/
structure Pressure where
  /-- `budget.shouldDrain()` -/
  budget : Bool
  pulseCallsSpent : Bool
  overBudget : Bool
  deriving DecidableEq, Repr

def Pressure.any (pressure : Pressure) : Bool :=
  pressure.budget || pressure.pulseCallsSpent || pressure.overBudget

/-- `shouldDrain` of `processTaskInner`. -/
def shouldDrain (pressure : Pressure) (task : Task) : Bool :=
  pressure.budget || pressure.pulseCallsSpent || pressure.overBudget || task.cancelRequested ||
    task.pauseRequested

/-- The record that a turn's run takes up. -/
def claimed (task : Task) (turn : Turn) : Task := Action.applyAll task turn.claim

/-- The record as the run leaves it. -/
def left (task : Task) (turn : Turn) : Task :=
  Action.applyAll (claimed task turn) (RunTask.processTaskInner turn.answers (claimed task turn))

/-- The run comes to a result. -/
structure ComesTo (answers : Answers) (result : Result) : Prop where
  withinBudget : answers.overBefore = none
  gate : answers.gate = none
  orchestrated : answers.orchestrated = .ok result

/-- The next sweep at the clock `now` does not end the record. -/
def Outlives (now : Time) (task : Task) : Prop :=
  ∀ (ctx : Reconcile.Context) (tasks : List Task) (leases : TaskId → LeaseFile)
    (checkpoints : List TaskId) (after : Reconcile.State) (index : Nat), ctx.now = now →
    tasks[index]? = some task → Reconcile.reconcile ctx tasks leases checkpoints = .ok after →
    ∃ kept, after.tasks[index]? = some kept ∧ isTerminal kept.status = false

/-- The record has a life before it. -/
structure HasNewLife (now : Time) (maxParks : Nat) (task : Task) : Prop where
  outlives : Outlives now task
  /-- The first park does not dead-letter it. -/
  parks : ∀ turn result parked, turn.answers.maxParks = maxParks → ComesTo turn.answers result →
    result.drained = false → result.parked = some parked → parked.reason ≠ .approval →
    (left task turn).status ≠ .deadLettered
  /-- Nothing on the record drains its first run. -/
  goesOn : ∀ turn pressure, shouldDrain pressure (claimed task turn) = pressure.any
  /-- A first run that is drained is neither cancelled nor paused. -/
  unstopped : ∀ turn result, ComesTo turn.answers result → result.drained = true →
    (left task turn).status ≠ .cancelled ∧ (left task turn).status ≠ .paused

/-- Nothing of an earlier life is left that could end the next one. -/
structure IsUnspent (now : Time) (maxParks : Nat) (task : Task) : Prop where
  notDue : Reconcile.isDue now task = false
  parks : task.parks < maxParks
  uncancelled : task.cancelRequested = false
  unpaused : task.pauseRequested = false

/-! ## The sweep -/

/-- The sweep expires a pending record that is due, and leaves every other one alone. -/
theorem outlives_iff {now : Time} {task : Task} (pending : task.status = .pending) :
    Outlives now task ↔ Reconcile.isDue now task = false := by
  have verdict : ∀ ctx file byId, ctx.now = now →
      isTerminal (Action.applyAll task
        (Reconcile.reconcileTask ctx file byId task).actions).status =
          Reconcile.isDue now task := by
    intro ctx file byId clock
    have live : isTerminal task.status = false := by rw [pending]; rfl
    have closed : task.status ≠ .prOpen := by rw [pending]; decide
    unfold Reconcile.isDue Reconcile.reconcileTask
    rw [live, decide_eq_true closed, Bool.and_true, Bool.and_true, if_neg Bool.false_ne_true, clock]
    cases Reconcile.reached task.expiresAt now with
    | true => exact congrArg isTerminal (moveTask_status task .expired _)
    | false =>
        cases Reconcile.reached task.deadline now with
        | true => exact congrArg isTerminal (moveTask_status task .expired _)
        | false =>
            simp only [Bool.or_false, Bool.false_eq_true, if_false, pending]
            exact live
  constructor
  · intro outlives
    have ⟨after, swept⟩ := Reconcile.exists_reconcile { now, owner := "" } [task]
      (fun _ => .absent) []
    have ⟨kept, there, going⟩ := outlives _ _ _ _ _ 0 rfl rfl swept
    have first : [task][0]? = some task := rfl
    have ⟨file, byId, same⟩ := Reconcile.reconcile_settles swept first
    rw [there, Option.some.injEq] at same
    rw [← verdict { now, owner := "" } file byId rfl, ← same, going]
  · intro fresh ctx tasks leases checkpoints after index clock found swept
    have ⟨file, byId, same⟩ := Reconcile.reconcile_settles swept found
    exact ⟨_, same, (verdict ctx file byId clock).trans fresh⟩

/-! ## The run -/

section Run

variable {task : Task} {turn : Turn} {result : Result} {parked : Parked}

@[simp] theorem claimed_parks : (claimed task turn).parks = task.parks := by
  simp [claimed, Turn.claim, Action.applyAll, Action.apply, Patch.apply]

@[simp] theorem claimed_cancelRequested :
    (claimed task turn).cancelRequested = task.cancelRequested := by
  simp [claimed, Turn.claim, Action.applyAll, Action.apply, Patch.apply]

@[simp] theorem claimed_pauseRequested :
    (claimed task turn).pauseRequested = task.pauseRequested := by
  simp [claimed, Turn.claim, Action.applyAll, Action.apply, Patch.apply]

@[simp] theorem claimed_status : (claimed task turn).status = .running := by
  simp [claimed, Turn.claim, Action.applyAll, Action.apply]

/-- A park dead-letters the record exactly when it is one too many. -/
theorem left_parked (comes : ComesTo turn.answers result) (going : result.drained = false)
    (parks : result.parked = some parked) (provider : parked.reason ≠ .approval) :
    (left task turn).status = .deadLettered ↔ turn.answers.maxParks ≤ task.parks := by
  have actions : RunTask.processTaskInner turn.answers (claimed task turn) =
      .write (.runId turn.answers.runId) :: RunTask.park turn.answers (claimed task turn) parked := by
    simp only [RunTask.processTaskInner, comes.withinBudget, comes.gate, comes.orchestrated, going,
      parks, provider, Bool.false_eq_true, if_false]
  rw [left, actions, RunTask.park, claimed_parks]
  dsimp only
  split
  next ceiling =>
    simp only [Action.applyAll, RunTask.deadLetter, RunTask.recordUsage, List.foldl_cons,
      List.foldl_nil, Action.apply, Action.apply_write_status, Patch.apply, moveTask_status, true_iff]
    omega
  next below =>
    split <;>
      simp only [Action.applyAll, RunTask.recordUsage, List.foldl_cons, List.foldl_nil, Action.apply,
        Patch.apply, moveTask_status, claimed_status, reduceCtorEq, false_iff] <;>
      omega

/-- What the requests on a record make of a run that is drained. -/
theorem left_drained (comes : ComesTo turn.answers result) (drained : result.drained = true) :
    (left task turn).status ≠ .cancelled ∧ (left task turn).status ≠ .paused ↔
      task.cancelRequested = false ∧ task.pauseRequested = false := by
  have actions : RunTask.processTaskInner turn.answers (claimed task turn) =
      .write (.runId turn.answers.runId) :: RunTask.drained turn.answers (claimed task turn) := by
    simp only [RunTask.processTaskInner, comes.withinBudget, comes.gate, comes.orchestrated, drained,
      if_true]
  rw [left, actions, RunTask.drained, claimed_cancelRequested, claimed_pauseRequested]
  cases task.cancelRequested with
  | true =>
      simp [Action.applyAll, Action.apply, Patch.apply]
  | false =>
      cases task.pauseRequested with
      | true => simp [Action.applyAll, Action.apply, Patch.apply]
      | false =>
          cases turn.answers.overAfter <;>
            simp [Action.applyAll, Action.apply, Patch.apply, RunTask.deadLetter, RunTask.wait,
              RunTask.recordUsage]

end Run

/-- A turn whose run comes to a result. -/
def turnWith (maxParks : Nat) (result : Result) : Turn where
  index := 0
  granted := true
  lease := { owner := "pulse-1", acquiredAt := some 0, expiresAt := some 60000 }
  now := 0
  score := "10.00"
  pulseId := "pulse-1"
  lasts := 0
  answers := {
    pulse := { now := 0, redactString := id, resumed := false, answered := true }
    runId := "run-1"
    pulseMaxCalls := 1
    maxParks
    usage := { calls := 0, tokens := 0, wallMs := 0 }
    overBefore := none
    gate := none
    orchestrated := .ok result
    overAfter := none
    pulseCallsSpent := false
    delivery := {
      decision := .allow
      reason := ""
      approvalKey := ""
      autonomy := .autonomous
      source := .level
      category := .read
      rule := .default' }
    proposal := none }

theorem comesTo_turnWith (maxParks : Nat) (result : Result) :
    ComesTo (turnWith maxParks result).answers result := ⟨rfl, rfl, rfl⟩

/-- A pending record has a life before it exactly when nothing is left of an earlier one. -/
theorem hasNewLife_iff {now : Time} {maxParks : Nat} {task : Task}
    (pending : task.status = .pending) :
    HasNewLife now maxParks task ↔ IsUnspent now maxParks task := by
  constructor
  · intro life
    have untouched := (left_drained (comesTo_turnWith maxParks { drained := true }) rfl).1
      (life.unstopped (turnWith maxParks { drained := true }) _ (comesTo_turnWith _ _) rfl)
    let parked : Parked := { reason := .provider, wakeInMs := none, why := "" }
    have kept := life.parks (turnWith maxParks { parked := some parked }) _ parked rfl
      (comesTo_turnWith _ _) rfl rfl (by decide)
    rw [Ne, left_parked (comesTo_turnWith _ _) rfl rfl (by decide)] at kept
    exact ⟨(outlives_iff pending).1 life.outlives, Nat.lt_of_not_le kept, untouched.1, untouched.2⟩
  · intro unspent
    refine ⟨(outlives_iff pending).2 unspent.notDue, ?_, ?_, ?_⟩
    · intro turn result parked ceiling comes going parks provider ended
      rw [left_parked comes going parks provider, ceiling] at ended
      exact absurd unspent.parks (Nat.not_lt.2 ended)
    · intro turn pressure
      simp [shouldDrain, Pressure.any, unspent.uncancelled, unspent.unpaused]
    · exact fun turn result comes drained =>
        (left_drained comes drained).2 ⟨unspent.uncancelled, unspent.unpaused⟩

/-! ## The retry -/

/-- What a retry makes of a record that has ended, as far as an earlier life could be left. -/
structure IsRetried (task after : Task) : Prop where
  pending : after.status = .pending
  expiresAt : after.expiresAt = task.expiresAt
  deadline : after.deadline = task.deadline
  parks : after.parks = task.parks
  cancelRequested : after.cancelRequested = task.cancelRequested
  pauseRequested : after.pauseRequested = task.pauseRequested

theorem isRetried_of_applyCommand {now : Time} {login : String} {task after : Task}
    {command : Command} {events : List IssueSync.Event} {outcome : IssueSync.CommandOutcome}
    (retry : command.verb = .retry) (ended : isTerminal task.status = true)
    (applied : IssueSync.applyCommand now login task command = .ok (after, events, outcome)) :
    IsRetried task after := by
  have performed := IssueSync.applyCommand_eq now login task command
  rw [applied, IssueSync.commandActions, retry, if_pos ended] at performed
  have ⟨_, same⟩ := Action.performAll_ok performed.symm
  subst same
  constructor <;> simp [Action.applyAll, Action.apply, Patch.apply]

/-- A retry gives a record that has ended a new life exactly when nothing is left of the earlier one:
no time to live or deadline that has been reached, parks below the ceiling, and no request. -/
theorem retry_gives_life_iff {now : Time} {maxParks : Nat} {login : String} {task after : Task}
    {command : Command} {events : List IssueSync.Event} {outcome : IssueSync.CommandOutcome}
    (retry : command.verb = .retry) (ended : isTerminal task.status = true)
    (applied : IssueSync.applyCommand now login task command = .ok (after, events, outcome)) :
    HasNewLife now maxParks after ↔ IsUnspent now maxParks task := by
  have retried := isRetried_of_applyCommand retry ended applied
  rw [hasNewLife_iff retried.pending]
  have due : Reconcile.isDue now after = Reconcile.isDue now task := by
    rw [Reconcile.isDue, Reconcile.isDue, retried.expiresAt, retried.deadline]
  constructor
  · intro unspent
    exact ⟨due ▸ unspent.notDue, retried.parks ▸ unspent.parks,
      retried.cancelRequested ▸ unspent.uncancelled, retried.pauseRequested ▸ unspent.unpaused⟩
  · intro unspent
    exact ⟨due.trans unspent.notDue, retried.parks.symm ▸ unspent.parks,
      retried.cancelRequested.trans unspent.uncancelled,
      retried.pauseRequested.trans unspent.unpaused⟩

/-- A record whose second life failed after two parks. -/
def lost : Task where
  id := "issue-7"
  status := .failed
  completedAt := some 4000
  attempts := 3
  expiresAt := some 90000
  parks := 2

theorem retry_gives_life_lost : ∃ after events outcome,
    IssueSync.applyCommand 5000 "octo" lost { verb := .retry, args := [] } =
      .ok (after, events, outcome) ∧ HasNewLife 5000 6 after := by
  have unspent : IsUnspent 5000 6 lost := ⟨rfl, by decide, rfl, rfl⟩
  have applied : ∃ after events outcome,
      IssueSync.applyCommand 5000 "octo" lost { verb := .retry, args := [] } =
        .ok (after, events, outcome) := ⟨_, _, _, rfl⟩
  obtain ⟨after, events, outcome, applied⟩ := applied
  exact ⟨after, events, outcome, applied, (retry_gives_life_iff rfl rfl applied).2 unspent⟩

/-- The time to live of a record is over; the sweep ends it again as soon as it is retried. -/
theorem not_retry_gives_life : ¬ ∀ (now : Time) (login : String) (task after : Task)
    (command : Command) (events : List IssueSync.Event) (outcome : IssueSync.CommandOutcome),
    command.verb = .retry → task.status ∈ [.failed, .deadLettered, .cancelled, .expired] →
    IssueSync.applyCommand now login task command = .ok (after, events, outcome) →
    HasNewLife now 6 after := by
  intro claim
  let expired : Task := { lost with status := .expired }
  have life := claim 91000 "octo" expired _ { verb := .retry, args := [] } _ _ rfl (by decide) rfl
  have ⟨kept, there, going⟩ := life.outlives { now := 91000, owner := "pulse-2" } [_]
    (fun _ => .absent) [] _ 0 rfl rfl rfl
  cases there
  contradiction

end NewLife

end TitanRunner
