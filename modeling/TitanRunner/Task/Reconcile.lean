import Mathlib.Logic.Function.Basic
import TitanRunner.Lib.KeyedList
import TitanRunner.Task.Actions
import TitanRunner.Task.Leases

/-!
# The reconciliation sweep

`task/reconcile.js`: what a dead pulse left behind is found from the queue and the lease
files alone.  The sweep decides about one record after the other; a record that was moved is
seen moved by those after it.
-/

namespace TitanRunner

namespace Reconcile

/-- `DEFAULTS`. -/
structure Ttl where
  approvalTtlMs : Int := 7 * 86400000
  pauseTtlMs : Int := 7 * 86400000
  prOpenTtlMs : Int := 30 * 86400000

structure Context where
  now : Time
  /-- The pulse, in whose name leases are released. -/
  owner : String
  ttl : Ttl := {}

structure Counts where
  reclaimed : Nat := 0
  deadLettered : Nat := 0
  woken : Nat := 0
  expired : Nat := 0
  orphansRemoved : Nat := 0
  dependencyFailed : Nat := 0
  deriving DecidableEq, Repr

def Counts.add (left right : Counts) : Counts where
  reclaimed := left.reclaimed + right.reclaimed
  deadLettered := left.deadLettered + right.deadLettered
  woken := left.woken + right.woken
  expired := left.expired + right.expired
  orphansRemoved := left.orphansRemoved + right.orphansRemoved
  dependencyFailed := left.dependencyFailed + right.dependencyFailed

/-- What the sweep does about one record. -/
structure Verdict where
  actions : List Action := []
  counts : Counts := {}
  releasesLease : Bool := false
  deletesCheckpoint : Bool := false

/-- A date that was reached. -/
def reached (date : Option Time) (now : Time) : Bool := date.any fun date => decide (date ≤ now)

/-- A time that is over since a date. -/
def overdue (since : Option Time) (now : Time) (ttl : Int) : Bool :=
  since.any fun since => decide (ttl < now - since)

/-- `{ ...base, reason, error }`. -/
def context (ctx : Context) (reason : String) (error : Option String) : TransitionContext where
  now := ctx.now
  by' := some "reconcile"
  reason := some reason
  error := error.map some

def expire (ctx : Context) (reason error : String) : Verdict where
  actions := [.move .expired (context ctx reason (some error))]
  counts := { expired := 1 }

/-- The branch for a record some pulse left `running`. -/
def reclaim (ctx : Context) (task : Task) : Verdict :=
  let attempts := task.attempts + 1
  if task.maxAttempts ≤ attempts then
    { actions := [
        .write (.attempts attempts),
        .move .deadLettered { context ctx ("lease expired " ++ toString attempts ++ " times")
            (some ("Dead-lettered: the pulse running this task died " ++ toString attempts ++
              " times (attempt ceiling " ++ toString task.maxAttempts ++ ").")) with
          failure := some (some {
            class' := "poisoned", code := some "LEASE_CHURN"
            message := "repeated pulse deaths while running this task", at' := ctx.now }) }]
      counts := { deadLettered := 1 }
      releasesLease := true
      deletesCheckpoint := true }
  else
    { actions := [
        .write (.attempts attempts),
        .move .pending (context ctx ("lease expired (attempt " ++ toString attempts ++
          "); checkpoint retained") none)]
      counts := { reclaimed := 1 }
      releasesLease := true }

/-- The records a record depends on that are in the queue. -/
def dependencies (byId : List Task) (task : Task) : List Task :=
  task.dependsOn.filterMap (KeyedList.get Task.id byId)

/-- A dependency that ended otherwise than `complete`. -/
def hasFailed (dep : Task) : Bool := isTerminal dep.status && decide (dep.status ≠ .complete)

/-- The branch for `waiting(dependency)`. -/
def awaitDependencies (ctx : Context) (byId : List Task) (task : Task) : Verdict :=
  match (dependencies byId task).find? hasFailed with
  | some dep =>
      let what := dep.id ++ " ended " ++ dep.status.name
      { actions := [.move .deadLettered { context ctx ("dependency " ++ what)
            (some ("Dead-lettered: depends on " ++ dep.id ++ ", which ended " ++
              dep.status.name ++ ".")) with
          failure := some (some {
            class' := "permanent", code := some "DEPENDENCY_FAILED"
            message := "dependency " ++ what, at' := ctx.now }) }]
        counts := { dependencyFailed := 1 } }
  | none =>
      if task.dependsOn.all fun id =>
          (KeyedList.get Task.id byId id).any fun dep => dep.status = .complete then
        { actions := [.move .pending (context ctx "dependencies complete" none)]
          counts := { woken := 1 } }
      else {}

/-- The body of the loop, for the record as it stands and the queue as it stands. -/
def reconcileTask (ctx : Context) (file : LeaseFile) (byId : List Task) (task : Task) : Verdict :=
  if isTerminal task.status then {}
  else if reached task.expiresAt ctx.now && decide (task.status ≠ .prOpen) then
    { expire ctx "ttl expired before completion"
        "Expired: the task passed its TTL before it could finish." with releasesLease := true }
  else if reached task.deadline ctx.now && decide (task.status ≠ .prOpen) then
    { expire ctx "deadline passed"
        "Expired: the deadline passed before the task could finish." with releasesLease := true }
  else
    match task.status with
    | .running =>
        let live := file.read.any fun lease => !lease.isExpired ctx.now
        let mirrorLive := task.lease.any fun lease => !lease.isExpired ctx.now
        if live || mirrorLive then {} else reclaim ctx task
    | .waiting =>
        match task.waitReason with
        | some .dependency => awaitDependencies ctx byId task
        | some .approval =>
            if overdue (task.wakeAt <|> task.createdAt) ctx.now ctx.ttl.approvalTtlMs then
              expire ctx "approval never arrived"
                "Expired: waited for approval past the approval TTL."
            else {}
        | waitReason =>
            if reached task.wakeAt ctx.now then
              { actions := [.move .pending (context ctx
                  ("woke from " ++ (waitReason.map WaitReason.name).getD "null") none)]
                counts := { woken := 1 } }
            else {}
    | .paused =>
        if overdue (task.history.getLast?.elim task.createdAt fun entry => some entry.at') ctx.now
            ctx.ttl.pauseTtlMs then
          expire ctx "paused past the pause TTL" "Expired: paused for longer than the pause TTL."
        else {}
    | .prOpen =>
        if overdue (task.completedAt <|> task.createdAt) ctx.now ctx.ttl.prOpenTtlMs then
          { actions := [.move .cancelled (context ctx "self-improve PR abandoned past its TTL"
              (some ("Cancelled: the pull request stayed open past the PR TTL without a " ++
                "decision.")))]
            counts := { expired := 1 } }
        else {}
    | _ => {}

/-- `LeaseManager.release`. -/
def releaseLease (ctx : Context) (file : LeaseFile) : LeaseFile :=
  if file.heldByOther ctx.owner ctx.now then file else .absent

/-- What the sweep reads and writes. -/
structure State where
  tasks : List Task
  leases : TaskId → LeaseFile
  checkpoints : List TaskId
  counts : Counts := {}

def State.release (state : State) (ctx : Context) (id : TaskId) : State :=
  { state with leases := Function.update state.leases id (releaseLease ctx (state.leases id)) }

/-- A verdict carried out: the moved record joins those that are done. -/
def State.settle (state : State) (ctx : Context) (verdict : Verdict) (task moved : Task) : State :=
  let state := { state with tasks := state.tasks ++ [moved], counts := state.counts.add verdict.counts }
  let state := if verdict.releasesLease then state.release ctx task.id else state
  if verdict.deletesCheckpoint then
    { state with checkpoints := state.checkpoints.filter (· ≠ task.id) }
  else state

/-- The loop over the queue. -/
def sweep (ctx : Context) (state : State) : List Task → Except TransitionError State
  | [] => .ok state
  | task :: rest =>
      let verdict := reconcileTask ctx (state.leases task.id) (state.tasks ++ task :: rest) task
      match Action.performAll task verdict.actions with
      | .error error => .error error
      | .ok moved => sweep ctx (state.settle ctx verdict task moved) rest

/-- Checkpoints and leases with no live record behind them. -/
def removeOrphans (ctx : Context) (state : State) : State :=
  let live := (state.tasks.filter fun task => !isTerminal task.status).map Task.id
  let orphans := state.checkpoints.filter (· ∉ live)
  let state := { state with
    checkpoints := state.checkpoints.filter (· ∈ live)
    counts := state.counts.add { orphansRemoved := orphans.length } }
  state.tasks.foldl (fun state task =>
    if isTerminal task.status && (state.leases task.id).read.isSome then
      { state.release ctx task.id with counts := state.counts.add { orphansRemoved := 1 } }
    else state) state

/-- `reconcile`. -/
def reconcile (ctx : Context) (tasks : List Task) (leases : TaskId → LeaseFile)
    (checkpoints : List TaskId) : Except TransitionError State :=
  (sweep ctx { tasks := [], leases, checkpoints } tasks).map (removeOrphans ctx)

/-! ## What the sweep does to the records -/

/-- A status that does not end a task and is not `pr-open` may expire. -/
theorem expire_allowed {task : Task} (live : isTerminal task.status = false)
    (closed : task.status ≠ .prOpen) (ctx : Context) (reason error : String) :
    Action.AllowedAll task (expire ctx reason error).actions := by
  rw [Action.allowedAll_iff]
  refine ⟨⟨?_, fun waiting => by contradiction⟩, trivial⟩
  revert live closed
  cases task.status <;> decide

theorem reclaim_allowed {task : Task} (running : task.status = .running) (ctx : Context) :
    Action.AllowedAll task (reclaim ctx task).actions := by
  rw [Action.allowedAll_iff, running]
  unfold reclaim
  dsimp only
  split
  next => exact ⟨⟨by decide, fun waiting => by contradiction⟩, trivial⟩
  next => exact ⟨⟨by decide, fun waiting => by contradiction⟩, trivial⟩

theorem awaitDependencies_allowed {task : Task} (waiting : task.status = .waiting)
    (ctx : Context) (byId : List Task) :
    Action.AllowedAll task (awaitDependencies ctx byId task).actions := by
  rw [Action.allowedAll_iff, waiting]
  unfold awaitDependencies
  split
  next => exact ⟨⟨by decide, fun waiting => by contradiction⟩, trivial⟩
  next =>
    split
    next => exact ⟨⟨by decide, fun waiting => by contradiction⟩, trivial⟩
    next => trivial

/-- The sweep asks for no move that `TRANSITIONS` forbids. -/
theorem reconcileTask_allowed (ctx : Context) (file : LeaseFile) (byId : List Task)
    (task : Task) : Action.AllowedAll task (reconcileTask ctx file byId task).actions := by
  unfold reconcileTask
  split
  next => trivial
  next live =>
    have live' : isTerminal task.status = false := by simpa using live
    split
    next due =>
      simp only [Bool.and_eq_true, decide_eq_true_eq] at due
      exact expire_allowed live' due.2 ctx _ _
    next =>
      split
      next due =>
        simp only [Bool.and_eq_true, decide_eq_true_eq] at due
        exact expire_allowed live' due.2 ctx _ _
      next =>
        split
        next running =>
          dsimp only
          split
          next => trivial
          next => exact reclaim_allowed running ctx
        next waiting =>
          have closed : task.status ≠ .prOpen := by simp [waiting]
          split
          next => exact awaitDependencies_allowed waiting ctx byId
          next =>
            split
            next => exact expire_allowed live' closed ctx _ _
            next => trivial
          next =>
            split
            next =>
              rw [Action.allowedAll_iff, waiting]
              exact ⟨⟨by decide, fun waiting => by contradiction⟩, trivial⟩
            next => trivial
        next paused =>
          have closed : task.status ≠ .prOpen := by simp [paused]
          split
          next => exact expire_allowed live' closed ctx _ _
          next => trivial
        next prOpen =>
          split
          next =>
            rw [Action.allowedAll_iff, prOpen]
            exact ⟨⟨by decide, fun waiting => by contradiction⟩, trivial⟩
          next => trivial
        next => trivial

@[simp] theorem settle_tasks (ctx : Context) (state : State) (verdict : Verdict)
    (task moved : Task) :
    (state.settle ctx verdict task moved).tasks = state.tasks ++ [moved] := by
  unfold State.settle
  dsimp only
  split <;> split <;> rfl

@[simp] theorem removeOrphans_tasks (ctx : Context) (state : State) :
    (removeOrphans ctx state).tasks = state.tasks := by
  have keeps : ∀ (tasks : List Task) (state : State), (tasks.foldl (fun state task =>
      if isTerminal task.status && (state.leases task.id).read.isSome then
        { state.release ctx task.id with counts := state.counts.add { orphansRemoved := 1 } }
      else state) state).tasks = state.tasks := by
    intro tasks
    induction tasks with
    | nil => exact fun _ => rfl
    | cons task rest ih =>
        intro state
        rw [List.foldl_cons, ih]
        split <;> rfl
  exact keeps _ _

end Reconcile

end TitanRunner
