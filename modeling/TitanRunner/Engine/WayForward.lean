import Mathlib.Data.Int.ConditionallyCompleteOrder
import Mathlib.Order.Filter.AtTopBot.Basic
import Mathlib.Order.Filter.Finite
import Mathlib.Tactic.Linarith
import TitanRunner.Engine.QueueCoherence
import TitanRunner.Engine.Retention
import TitanRunner.Task.Waiting

/-!
# Every task has a way forward

As the clock advances, rounds of sweep and claims leave no live task where it is, unless it
waits for others that are gone or that wait for it.
-/

namespace TitanRunner

namespace Queue

open TransitionSystem TransitionSystem.System

/-! ## What lets a task wait for others -/

theorem reconcileTask_unparked (ctx : Reconcile.Context) (file : LeaseFile) (byId : List Task)
    (task : Task) :
    ∀ action ∈ (Reconcile.reconcileTask ctx file byId task).actions, ¬ action.Parks := by
  unfold Reconcile.reconcileTask
  split
  next => simp
  next =>
    split
    next => simp [Reconcile.expire, Action.Parks]
    next =>
      split
      next => simp [Reconcile.expire, Action.Parks]
      next =>
        split
        next =>
          dsimp only
          split
          next => simp
          next =>
            unfold Reconcile.reclaim
            dsimp only
            split <;> simp [Action.Parks]
        next =>
          split
          next =>
            unfold Reconcile.awaitDependencies
            split
            next => simp [Action.Parks]
            next => split <;> simp [Action.Parks]
          next => split <;> simp [Reconcile.expire, Action.Parks]
          next => split <;> simp [Action.Parks]
        next => split <;> simp [Reconcile.expire, Action.Parks]
        next => split <;> simp [Action.Parks]
        next => simp

theorem sweepActions_unparked (ctx : Reconcile.Context) (rest : List Task)
    (state : Reconcile.State) : ∀ action ∈ sweepActions ctx state rest, ¬ action.Parks := by
  induction rest generalizing state with
  | nil => simp [sweepActions]
  | cons task rest ih =>
      intro action inside
      rw [sweepActions] at inside
      cases List.mem_append.1 inside with
      | inl first => exact reconcileTask_unparked _ _ _ _ action first
      | inr later => exact ih _ action later

theorem pushedActions_unparked (deps : Intake.Deps) (tasks : List Task)
    (issue : Intake.FiledIssue) :
    ∀ action ∈ Intake.pushedActions deps tasks issue, ¬ action.Parks := by
  unfold Intake.pushedActions
  dsimp only
  split <;> simp [Intake.cancelDuplicate, Action.Parks]

theorem intakeActions_unparked (deps : Intake.Deps) (known : List TaskId)
    (issues : List Intake.FiledIssue) (tasks : List Task) :
    ∀ action ∈ intakeActions deps known tasks issues, ¬ action.Parks := by
  induction issues generalizing tasks with
  | nil => simp [intakeActions]
  | cons issue rest ih =>
      intro action inside
      rw [intakeActions] at inside
      cases List.mem_append.1 inside with
      | inr later => exact ih _ action later
      | inl first =>
          split at first
          next => exact pushedActions_unparked deps tasks issue action first
          next => contradiction

theorem commandActions_unparked (now : Time) (by' : String) (task : Task) (command : Command) :
    ∀ action ∈ IssueSync.commandActions now by' task command, ¬ action.Parks := by
  unfold IssueSync.commandActions
  cases command.verb with
  | retry | resume =>
      dsimp only
      split <;> simp [Action.Parks]
  | cancel | pause =>
      dsimp only
      split
      next => simp [Action.Parks]
      next => split <;> simp [Action.Parks]
  | priority =>
      dsimp only
      split <;> simp [Action.Parks]
  | approve | deny =>
      intro action inside
      cases List.mem_cons.1 inside with
      | inl first =>
          rw [first]
          exact not_false
      | inr later =>
          split at later
          next =>
            rw [List.mem_singleton.1 later]
            simp [Action.Parks]
          next => contradiction

theorem commentsActions_unparked (deps : IssueSync.Deps) (since completedAt : Option Time)
    (comments : List Comment) (task : Task) :
    ∀ action ∈ IssueSync.commentsActions deps since completedAt task comments,
      ¬ action.Parks := by
  induction comments generalizing task with
  | nil => simp [IssueSync.commentsActions]
  | cons comment rest ih =>
      intro action inside
      rw [IssueSync.commentsActions] at inside
      cases List.mem_append.1 inside with
      | inr later => exact ih _ action later
      | inl first =>
          unfold IssueSync.commentActions at first
          split at first
          next => contradiction
          next =>
            dsimp only at first
            split at first
            next => contradiction
            next => exact commandActions_unparked _ _ _ _ action first

theorem syncActions_unparked (deps : IssueSync.Deps) (listing : List Issue) (task : Task) :
    ∀ action ∈ IssueSync.syncActions deps listing task, ¬ action.Parks := by
  unfold IssueSync.syncActions
  split
  next => simp
  next =>
    split
    next => split <;> simp [Action.Parks]
    next =>
      split
      next => simp
      next =>
        intro action inside
        cases List.mem_cons.1 inside with
        | inl first =>
            rw [first]
            exact not_false
        | inr later => exact commentsActions_unparked _ _ _ _ _ action later

/-- Only a turn of the claims lets a task wait for others. -/
theorem actions_unparked (tasks : List Task) {label : Label}
    (other : ∀ turns, label ≠ .claim turns) : ∀ action ∈ actions tasks label, ¬ action.Parks := by
  cases label with
  | reconcile ctx leases checkpoints => exact sweepActions_unparked _ _ _
  | intake deps issues => exact intakeActions_unparked _ _ _ _
  | sync deps listing =>
      intro action inside
      obtain ⟨task, _, among⟩ := List.mem_flatMap.1 inside
      exact syncActions_unparked deps listing task action among
  | control now by' target command =>
      intro action inside
      rw [actions] at inside
      cases found : tasks.find? fun task => decide (task.id = target) with
      | none =>
          rw [found] at inside
          contradiction
      | some task =>
          rw [found] at inside
          exact commandActions_unparked now by' task command action inside
  | revisit now statusOf =>
      intro action inside
      obtain ⟨task, _, among⟩ := List.mem_flatMap.1 inside
      unfold revisitActions at among
      split at among
      next =>
        revert among
        cases statusOf task <;> simp +contextual [RunTask.revisitSelfImprovePr, Action.Parks]
      next => contradiction
  | claim turns => exact absurd rfl (other turns)
  | manual | archive | reload => simp [actions]

section Run

variable (answers : RunTask.Answers)

theorem unparked_of_onItsOwn {action : Action} (own : RunTask.OnItsOwn action) :
    ¬ action.Parks := by
  cases action with
  | write patch => exact not_false
  | move target ctx =>
      rintro ⟨rfl, dependency⟩
      simp [RunTask.OnItsOwn, dependency] at own

theorem park_unparked (task : Task) (parked : RunTask.Parked) :
    ∀ action ∈ RunTask.park answers task parked, ¬ action.Parks := by
  have elsewhere : RunTask.waitReason parked.reason ≠ .dependency := by
    cases parked.reason <;> exact WaitReason.noConfusion
  unfold RunTask.park
  dsimp only
  split
  next => simp [RunTask.deadLetter, RunTask.recordUsage, Action.Parks]
  next => split <;> simp [RunTask.recordUsage, Action.Parks, elsewhere]

/-- A run parks on approval, quota or a provider, never on other tasks. -/
theorem processTaskInner_unparked (task : Task) :
    ∀ action ∈ RunTask.processTaskInner answers task, ¬ action.Parks := by
  unfold RunTask.processTaskInner
  rw [List.forall_mem_cons]
  constructor
  · exact not_false
  · split
    next => simp [RunTask.deadLetter, RunTask.recordUsage, Action.Parks]
    next =>
      split
      next => simp [RunTask.recordUsage, Action.Parks]
      next =>
        split
        next => simp [RunTask.recordUsage, Action.Parks]
        next result _ =>
          split
          next => exact fun action inside => unparked_of_onItsOwn (RunTask.drained_onItsOwn action inside)
          next =>
            split
            next parked _ =>
              split
              next => simp [RunTask.recordUsage, RunTask.askApproval, RunTask.wait, Action.Parks]
              next => exact park_unparked answers task parked
            next => exact fun action inside => unparked_of_onItsOwn (RunTask.deliver_onItsOwn action inside)

end Run

theorem turn_unparked (turn : RunTask.Turn) (byId : List Task) (task : Task)
    (other : Claim.dependencyState task byId ≠ .waiting) :
    ∀ action ∈ turn.actions byId task, ¬ action.Parks := by
  unfold RunTask.Turn.actions
  split
  next => simp [Action.Parks]
  next waiting => exact absurd waiting other
  next => simp [Action.Parks]
  next =>
    split
    next => simp
    next =>
      rw [List.forall_mem_append]
      constructor
      · simp [RunTask.Turn.claim, Action.Parks]
      · intro action inside
        exact processTaskInner_unparked _ _ action (List.mem_of_mem_take inside)

/-! ## What keeps a queue hopeful -/

/-- A task that would wait for its dependencies, and for good, does not come to wait for
itself. -/
def ClosesNoCycle (tasks : List Task) (task : Task) : Prop :=
  Claim.dependencyState task tasks = .waiting → task.expiresAt = none → task.deadline = none →
    ∀ other ∈ task.dependsOn, ¬ Relation.ReflTransGen (WaitsFor tasks) other task.id

/-- The same of every turn, with what the turns before it left. -/
def TurnsCloseNoCycle : List Task → List RunTask.Turn → Prop
  | _, [] => True
  | tasks, turn :: rest =>
      match tasks[turn.index]? with
      | none => TurnsCloseNoCycle tasks rest
      | some task =>
          ClosesNoCycle tasks task ∧
            TurnsCloseNoCycle
              (tasks.set turn.index (Action.applyAll task (turn.actions tasks task))) rest

/-- The steps after which every wait can still end: no turn closes a cycle of waiting tasks,
the retention leaves what is waited for, and a save confuses no two ids. -/
def KeepsHope (tasks : List Task) : Label → Prop
  | .claim turns => TurnsCloseNoCycle tasks turns
  | .archive now options =>
      options.keepMin ≤ (tasks.filter fun task => !Archive.isOld now options task).length →
        ∀ task ∈ tasks, Awaits task → ∀ dep ∈ tasks, dep.id ∈ task.dependsOn →
          Archive.isOld now options dep = false
  | .reload => ∀ first ∈ tasks.map Task.id, ∀ second ∈ tasks.map Task.id,
      Redact.redactText first = Redact.redactText second → first = second
  | _ => True

theorem present_of_waiting {task : Task} {tasks : List Task}
    (waiting : Claim.dependencyState task tasks = .waiting) :
    ∀ id ∈ task.dependsOn, id ∈ tasks.map Task.id := by
  intro id depends
  by_contra gone
  have missing : Claim.dependencyState task tasks = .missing :=
    Archive.dependencyState_missing depends (KeyedList.get_eq_none_iff.2 gone)
  rw [waiting] at missing
  contradiction

theorem hopeful_of_turn {tasks : List Task} (hopeful : Hopeful tasks) {turn : RunTask.Turn}
    {task : Task} (found : tasks[turn.index]? = some task) (pending : task.status = .pending)
    (open' : ClosesNoCycle tasks task) :
    Hopeful (tasks.set turn.index (Action.applyAll task (turn.actions tasks task))) := by
  have allowed := turn.actions_allowed tasks pending
  by_cases waiting : Claim.dependencyState task tasks = .waiting
  · -- the one move that lets a task wait for others
    have parked : turn.actions tasks task =
        [.move .waiting (Claim.skipContext turn.now task .waiting)] := by
      rw [RunTask.Turn.actions, waiting]
    rw [parked]
    by_cases dateless : task.expiresAt = none ∧ task.deadline = none
    · apply hopeful.park found
      · exact moveTask_id _ _ _
      · exact moveTask_dependsOn _ _ _
      · exact present_of_waiting waiting
      · exact open' waiting dateless.1 dateless.2
    · have each : List.Forall₂ Unparked tasks (tasks.set turn.index
          (moveTask task .waiting (Claim.skipContext turn.now task .waiting))) := by
        apply KeyedList.forall₂_set Unparked.refl found
        refine ⟨moveTask_id _ _ _, moveTask_dependsOn _ _ _, ?_⟩
        intro awaits
        apply absurd _ dateless
        constructor
        · rw [← awaits.noTtl, moveTask_expiresAt]
        · rw [← awaits.noDeadline, moveTask_deadline]
      have kept := hopeful.unparked each (List.forall_mem_nil _)
      rwa [List.append_nil] at kept
  · have each : List.Forall₂ Unparked tasks
        (tasks.set turn.index (Action.applyAll task (turn.actions tasks task))) := by
      apply KeyedList.forall₂_set Unparked.refl found
      exact Unparked.of_moved (Action.Moved.of_allowed allowed)
        (turn_unparked turn tasks task waiting)
    have kept := hopeful.unparked each (List.forall_mem_nil _)
    rwa [List.append_nil] at kept

theorem hopeful_of_claims {tasks after : List Task} {turns : List RunTask.Turn}
    (hopeful : Hopeful tasks) (captured : RunTask.Captured tasks turns)
    (open' : TurnsCloseNoCycle tasks turns)
    (ran : RunTask.claimAndRun tasks turns = .ok after) : Hopeful after := by
  induction turns generalizing tasks with
  | nil =>
      cases ran
      exact hopeful
  | cons turn rest ih =>
      have ⟨task, found, pending⟩ := Option.map_eq_some_iff.1 (captured.2 turn List.mem_cons_self)
      have allowed := turn.actions_allowed tasks pending
      rw [TurnsCloseNoCycle, found] at open'
      rw [RunTask.claimAndRun, found] at ran
      dsimp only at ran
      rw [Action.performAll_eq_ok allowed] at ran
      exact ih (hopeful_of_turn hopeful found pending open'.1) (captured_set captured _) open'.2 ran

theorem pushes_awake (tasks : List Task) (label : Label) :
    ∀ record ∈ pushes tasks label, ¬ Awaits record := by
  cases label with
  | intake deps issues =>
      intro record inside awaits
      have ⟨issue, _, same⟩ := List.mem_map.1 inside
      have waiting := awaits.waiting
      rw [← same, Intake.pushed, Intake.scrubForState_status] at waiting
      contradiction
  | manual deps text =>
      intro record inside awaits
      have waiting := awaits.waiting
      rw [List.mem_singleton.1 inside, Intake.scrubForState_status] at waiting
      contradiction
  | reconcile | sync | control | revisit | claim | archive | reload => simp [pushes]

theorem hopeful_of_moved {tasks records fresh : List Task} {label : Label}
    (hopeful : Hopeful tasks) (other : ∀ turns, label ≠ .claim turns)
    (each : List.Forall₂ (Action.Moved (actions tasks label)) tasks records)
    (pushed : ∀ task ∈ fresh, ∃ record ∈ pushes tasks label,
      Action.Moved (actions tasks label) record task) : Hopeful (records ++ fresh) := by
  have unparked := actions_unparked tasks other
  apply hopeful.unparked
  · exact each.imp fun _ _ moved => Unparked.of_moved moved unparked
  · intro task inside awaits
    have ⟨record, among, moved⟩ := pushed task inside
    exact pushes_awake tasks label record among ((Unparked.of_moved moved unparked).awaits awaits)

theorem hopeful_of_archive {tasks : List Task} (hopeful : Hopeful tasks) {now : Time}
    {options : Archive.Options} (meets : KeepsHope tasks (.archive now options)) :
    Hopeful (Archive.archiveOldTasks now options tasks).1 := by
  by_cases room : options.keepMin ≤
      (tasks.filter fun task => !Archive.isOld now options task).length
  · cases Archive.archiveOldTasks_cases now options tasks with
    | inl same => rwa [same]
    | inr moved =>
        rw [moved]
        apply hopeful.filter
        intro task inside awaits dep there depends
        rw [meets room task inside awaits dep there depends]
        rfl
  · have same : (Archive.archiveOldTasks now options tasks).1 = tasks := by
      unfold Archive.archiveOldTasks
      rw [if_pos]
      rw [decide_eq_true (Nat.lt_of_not_le room), Bool.or_true]
    rwa [same]

theorem hopeful_of_reload {tasks : List Task} (hopeful : Hopeful tasks)
    (meets : KeepsHope tasks .reload) : Hopeful (tasks.map Intake.scrubForState) := by
  apply hopeful.map (fun task => (rfl : _ = Redact.redactText task.id))
  · exact fun task => rfl
  · exact fun task awaits =>
      ⟨awaits.waiting, awaits.dependency, awaits.noTtl, awaits.noDeadline⟩
  · exact meets

theorem hopeful_of_next {tasks after : List Task} {label : Label} (hopeful : Hopeful tasks)
    (meets : KeepsHope tasks label) (stepped : next tasks label = some after) :
    Hopeful after := by
  have ⟨enabled, performed, step⟩ := next_step stepped
  by_cases claims : ∃ turns, label = .claim turns
  · have ⟨turns, same⟩ := claims
    subst same
    exact hopeful_of_claims hopeful enabled meets performed
  · cases step with
    | moved records pushed =>
        exact hopeful_of_moved hopeful (fun turns same => claims ⟨turns, same⟩) records pushed
    | archived same =>
        subst same
        exact hopeful_of_archive hopeful meets
    | reloaded same =>
        subst same
        exact hopeful_of_reload hopeful meets

theorem hopeful_of_reachable {tasks : List Task} (reachable : Reachable system KeepsHope tasks) :
    Hopeful tasks := by
  apply reachable.invariant Hopeful
  · intro tasks started
    rw [show tasks = [] from started]
    exact Hopeful.nil
  · intro tasks label after _ hopeful meets stepped
    exact hopeful_of_next hopeful meets stepped

/-! ## Rounds -/

/-- The sweep and the claims that follow it. -/
structure Round where
  ctx : Reconcile.Context
  checkpoints : List TaskId
  turns : List RunTask.Turn

namespace Round

def run (round : Round) (tasks : List Task) (leases : TaskId → LeaseFile) :
    Except TransitionError (List Task) :=
  match Reconcile.reconcile round.ctx tasks leases round.checkpoints with
  | .error error => .error error
  | .ok state => RunTask.claimAndRun state.tasks round.turns

/-- The turns come after the sweep and are for what it left pending, and a lease is granted as
the lease files say. -/
def Lawful (round : Round) (tasks : List Task) (leases : TaskId → LeaseFile) : Prop :=
  ∀ state, Reconcile.reconcile round.ctx tasks leases round.checkpoints = .ok state →
    RunTask.Captured state.tasks round.turns ∧
      ∀ turn ∈ round.turns, round.ctx.now ≤ turn.now ∧
        ∀ task, state.tasks[turn.index]? = some task →
          turn.granted = !(state.leases task.id).heldByOther turn.lease.owner turn.now

end Round

/-- From some time on, no round changes the queue. -/
def IsFixed (ttl : Reconcile.Ttl) (tasks : List Task) (leases : TaskId → LeaseFile) : Prop :=
  ∃ since, ∀ round : Round, since ≤ round.ctx.now → round.ctx.ttl = ttl →
    round.Lawful tasks leases → round.run tasks leases = .ok tasks

/-- The statuses a task is to find its way out of. -/
def isLive (status : Status) : Bool := [.pending, .running, .waiting, .paused].contains status

/-! ## What the clock brings -/

/-- Every date of a record and of its lease has passed. -/
structure Late (ttl : Reconcile.Ttl) (leases : TaskId → LeaseFile) (now : Time) (task : Task) :
    Prop where
  expires : ∀ date ∈ task.expiresAt, date ≤ now
  deadline : ∀ date ∈ task.deadline, date ≤ now
  wakes : ∀ date ∈ task.wakeAt, date ≤ now ∧ ttl.approvalTtlMs < now - date
  completed : ∀ date ∈ task.completedAt, ttl.prOpenTtlMs < now - date
  moved : ∀ entry ∈ task.history.getLast?,
    entry.at' < now ∧ ttl.pauseTtlMs < now - entry.at'
  file : ∀ lease ∈ (leases task.id).read, lease.isExpired now = true
  mirror : ∀ lease ∈ task.lease, lease.isExpired now = true

theorem eventually_past {Item : Type} (item : Option Item) (date : Item → Time) (span : Int) :
    ∀ᶠ now in Filter.atTop, ∀ found ∈ item, date found < now ∧ span < now - date found := by
  cases item with
  | none => simp
  | some found =>
      rw [Filter.eventually_atTop]
      refine ⟨date found + max 0 span + 1, ?_⟩
      intro now after other same
      cases same
      have passed : ∀ then' span now : Int, then' + max 0 span + 1 ≤ now →
          then' < now ∧ span < now - then' := by
        intro then' span now later
        omega
      exact passed _ _ _ after

theorem eventually_expired (item : Option Lease) :
    ∀ᶠ now in Filter.atTop, ∀ lease ∈ item, lease.isExpired now = true := by
  cases item with
  | none => simp
  | some lease =>
      cases expiry : lease.expiresAt with
      | none =>
          apply Filter.Eventually.of_forall
          intro now other same
          cases same
          rw [Lease.isExpired, expiry]
      | some date =>
          rw [Filter.eventually_atTop]
          refine ⟨date, ?_⟩
          intro now after other same
          cases same
          rw [Lease.isExpired, expiry]
          exact decide_eq_true after

theorem eventually_late (ttl : Reconcile.Ttl) (leases : TaskId → LeaseFile) (task : Task) :
    ∀ᶠ now in Filter.atTop, Late ttl leases now task := by
  filter_upwards [eventually_past task.expiresAt id 0, eventually_past task.deadline id 0,
    eventually_past task.wakeAt id ttl.approvalTtlMs,
    eventually_past task.completedAt id ttl.prOpenTtlMs,
    eventually_past task.history.getLast? HistoryEntry.at' ttl.pauseTtlMs,
    eventually_expired (leases task.id).read, eventually_expired task.lease]
    with now expires deadline wakes completed moved file mirror
  exact {
    expires := fun date found => (expires date found).1.le
    deadline := fun date found => (deadline date found).1.le
    wakes := fun date found => ⟨(wakes date found).1.le, (wakes date found).2⟩
    completed := fun date found => (completed date found).2
    moved, file, mirror }

/-! ## What a quiet sweep tells -/

/-- The sweep leaves a record alone, or what it does ends in a move of now. -/
theorem reconcileTask_cases (ctx : Reconcile.Context) (file : LeaseFile) (byId : List Task)
    (task : Task) : Reconcile.reconcileTask ctx file byId task = {} ∨
      ∃ before target moved, (Reconcile.reconcileTask ctx file byId task).actions =
        before ++ [.move target moved] ∧ moved.now = ctx.now := by
  unfold Reconcile.reconcileTask
  split
  next => exact .inl rfl
  next =>
    split
    next => exact .inr ⟨[], _, _, rfl, rfl⟩
    next =>
      split
      next => exact .inr ⟨[], _, _, rfl, rfl⟩
      next =>
        split
        next =>
          dsimp only
          split
          next => exact .inl rfl
          next =>
            unfold Reconcile.reclaim
            dsimp only
            split <;> exact .inr ⟨[_], _, _, rfl, rfl⟩
        next =>
          split
          next =>
            unfold Reconcile.awaitDependencies
            split
            next => exact .inr ⟨[], _, _, rfl, rfl⟩
            next =>
              split
              next => exact .inr ⟨[], _, _, rfl, rfl⟩
              next => exact .inl rfl
          next =>
            split
            next => exact .inr ⟨[], _, _, rfl, rfl⟩
            next => exact .inl rfl
          next =>
            split
            next => exact .inr ⟨[], _, _, rfl, rfl⟩
            next => exact .inl rfl
        next =>
          split
          next => exact .inr ⟨[], _, _, rfl, rfl⟩
          next => exact .inl rfl
        next =>
          split
          next => exact .inr ⟨[], _, _, rfl, rfl⟩
          next => exact .inl rfl
        next => exact .inl rfl

/-- The last entry of the history is of the last move. -/
theorem getLast?_moved (task : Task) (target : Status) (ctx : TransitionContext) :
    (moveTask task target ctx).history.getLast? =
      some ⟨ctx.now, some task.status, target, ctx.reason⟩ := by
  have room : task.history.length + 1 - maxHistory ≤ task.history.length := by
    have some' : 0 < maxHistory := by decide
    omega
  rw [moveTask_history, List.drop_append_of_le_length room, List.getLast?_append_of_ne_nil _
    (List.cons_ne_nil _ _)]
  rfl

/-- What the sweep leaves as it is, it leaves alone. -/
theorem quiet_of_same {ttl : Reconcile.Ttl} {leases : TaskId → LeaseFile}
    {ctx : Reconcile.Context} {task : Task} (late : Late ttl leases ctx.now task)
    (file : LeaseFile) (byId : List Task)
    (same : Action.applyAll task (Reconcile.reconcileTask ctx file byId task).actions = task) :
    Reconcile.reconcileTask ctx file byId task = {} := by
  cases reconcileTask_cases ctx file byId task with
  | inl quiet => exact quiet
  | inr moves =>
      have ⟨before, target, moved, actions, now⟩ := moves
      rw [actions, Action.applyAll_append] at same
      have last : task.history.getLast? = some _ :=
        (congrArg (fun task => task.history.getLast?) same).symm.trans
          (getLast?_moved (Action.applyAll task before) target moved)
      have earlier := (late.moved _ last).1
      rw [← now] at earlier
      exact absurd earlier (lt_irrefl _)

theorem quiet_of_sweep {ttl : Reconcile.Ttl} {leases : TaskId → LeaseFile}
    {ctx : Reconcile.Context} (rest : List Task) (state after : Reconcile.State)
    (late : ∀ task ∈ rest, Late ttl leases ctx.now task)
    (swept : Reconcile.sweep ctx state rest = .ok after)
    (same : after.tasks = state.tasks ++ rest) :
    ∀ task ∈ rest, Reconcile.reconcileTask ctx (state.leases task.id) (state.tasks ++ rest) task =
      {} := by
  induction rest generalizing state with
  | nil => simp
  | cons task rest ih =>
      have allowed := Reconcile.reconcileTask_allowed ctx (state.leases task.id)
        (state.tasks ++ task :: rest) task
      have settled := quiet_of_same (late task List.mem_cons_self) (state.leases task.id)
        (state.tasks ++ task :: rest)
      rw [Reconcile.sweep] at swept
      generalize verdict' : Reconcile.reconcileTask ctx (state.leases task.id)
        (state.tasks ++ task :: rest) task = verdict at allowed settled swept
      rw [Action.performAll_eq_ok allowed] at swept
      change Reconcile.sweep ctx (state.settle ctx verdict task
        (Action.applyAll task verdict.actions)) rest = .ok after at swept
      -- the record that was moved stands where the record stood
      obtain ⟨_, records, swept', tasks, _⟩ := sweep_moved ctx rest
        (state.settle ctx verdict task (Action.applyAll task verdict.actions))
      rw [swept] at swept'
      cases swept'
      rw [Reconcile.settle_tasks, same, List.append_assoc] at tasks
      have stays := (List.cons.inj (List.append_cancel_left tasks)).1.symm
      have quiet := settled stays
      subst quiet
      have ih := ih _ (fun other inside => late other (List.mem_cons_of_mem _ inside)) swept (by
        rw [Reconcile.settle_tasks, same, List.append_assoc]
        rfl)
      rw [Reconcile.settle_tasks, List.append_assoc] at ih
      exact List.forall_mem_cons.2 ⟨verdict', ih⟩

/-- A sweep that has nothing to do. -/
theorem sweep_of_quiet {ctx : Reconcile.Context} (rest : List Task) (state : Reconcile.State)
    (quiet : ∀ task ∈ rest, Reconcile.reconcileTask ctx (state.leases task.id)
      (state.tasks ++ rest) task = {}) :
    ∃ after, Reconcile.sweep ctx state rest = .ok after ∧ after.tasks = state.tasks ++ rest ∧
      after.leases = state.leases := by
  induction rest generalizing state with
  | nil => exact ⟨state, rfl, (List.append_nil _).symm, rfl⟩
  | cons task rest ih =>
      have ⟨first, others⟩ := List.forall_mem_cons.1 quiet
      have settled : (state.settle ctx {} task task).tasks ++ rest =
          state.tasks ++ task :: rest := by
        rw [Reconcile.settle_tasks, List.append_assoc]
        rfl
      have ⟨after, swept, tasks, leases⟩ := ih (state.settle ctx {} task task) (by
        rw [settled]
        exact others)
      refine ⟨after, ?_, by rw [tasks, settled], leases⟩
      rw [Reconcile.sweep, first]
      exact swept

/-- Once its dates have passed, a record that the sweep leaves alone has ended, is pending, or
waits for others. -/
theorem status_of_quiet {leases : TaskId → LeaseFile} {ctx : Reconcile.Context} {task : Task}
    {byId : List Task} (late : Late ctx.ttl leases ctx.now task) (coherent : Coherent task)
    (quiet : Reconcile.reconcileTask ctx (leases task.id) byId task = {}) :
    isTerminal task.status = true ∨ task.status = .pending ∨
      Awaits task ∧ Reconcile.awaitDependencies ctx byId task = {} := by
  have noActions := congrArg Reconcile.Verdict.actions quiet
  have reached : ∀ date : Option Time, (∀ found ∈ date, found ≤ ctx.now) →
      Reconcile.reached date ctx.now = false → date = none := by
    intro date passed unreached
    cases date with
    | none => rfl
    | some found => simp [Reconcile.reached, passed found rfl] at unreached
  unfold Reconcile.reconcileTask at noActions quiet
  by_cases terminal : isTerminal task.status = true
  · exact .inl terminal
  · rw [if_neg terminal] at noActions quiet
    split at noActions
    next => contradiction
    next noTtl =>
      rw [if_neg noTtl] at quiet
      split at noActions
      next => contradiction
      next noDeadline =>
        rw [if_neg noDeadline] at quiet
        have dateless : task.status ≠ .prOpen → task.expiresAt = none ∧ task.deadline = none := by
          intro closed
          constructor
          · exact reached _ late.expires (by simpa [closed] using noTtl)
          · exact reached _ late.deadline (by simpa [closed] using noDeadline)
        cases status : task.status with
        | pending => exact .inr (.inl rfl)
        | running =>
            have file : ((leases task.id).read.any fun lease => !lease.isExpired ctx.now) =
                false := by
              cases read : (leases task.id).read with
              | none => rfl
              | some lease => simp [late.file lease read]
            have mirror : (task.lease.any fun lease => !lease.isExpired ctx.now) = false := by
              cases held : task.lease with
              | none => rfl
              | some lease => simp [late.mirror lease held]
            simp only [status, file, mirror, Bool.or_self, Bool.false_eq_true, if_false] at noActions
            unfold Reconcile.reclaim at noActions
            dsimp only at noActions
            split at noActions <;> contradiction
        | waiting =>
            have ⟨noTtl, noDeadline⟩ := dateless (by rw [status]; exact Status.noConfusion)
            have ⟨asleep, dated⟩ := coherent.asleep status
            have ⟨reason, some'⟩ := Option.isSome_iff_exists.1 asleep
            have ⟨wakeAt, date⟩ := Option.isSome_iff_exists.1 dated
            have ⟨woken, expired⟩ := late.wakes wakeAt date
            simp only [status, some', date] at noActions quiet
            cases reason with
            | dependency => exact .inr (.inr ⟨⟨status, some', noTtl, noDeadline⟩, quiet⟩)
            | approval =>
                have tooLate : Reconcile.overdue (some wakeAt <|> task.createdAt) ctx.now
                    ctx.ttl.approvalTtlMs = true := decide_eq_true expired
                dsimp only at noActions
                rw [if_pos tooLate] at noActions
                contradiction
            | backoff | budget | quota | pulseBudget | provider =>
                have due : Reconcile.reached (some wakeAt) ctx.now = true := decide_eq_true woken
                dsimp only at noActions
                rw [if_pos due] at noActions
                contradiction
        | paused =>
            have moved : task.history ≠ [] := by
              intro none'
              have pending := coherent.recorded.unmoved none'
              rw [status] at pending
              contradiction
            have ⟨entry, last⟩ := Option.ne_none_iff_exists'.1
              (mt List.getLast?_eq_none_iff.1 moved)
            have tooLate : Reconcile.overdue (task.history.getLast?.elim task.createdAt fun entry =>
                some entry.at') ctx.now ctx.ttl.pauseTtlMs = true := by
              rw [last]
              exact decide_eq_true (late.moved entry last).2
            simp only [status] at noActions
            rw [if_pos tooLate] at noActions
            contradiction
        | prOpen =>
            have ⟨done, completed⟩ :=
              Option.isSome_iff_exists.1 (coherent.ended.2 (.inr status))
            have tooLate : Reconcile.overdue (task.completedAt <|> task.createdAt) ctx.now
                ctx.ttl.prOpenTtlMs = true := by
              rw [completed]
              exact decide_eq_true (late.completed done completed)
            simp only [status] at noActions
            rw [if_pos tooLate] at noActions
            contradiction
        | complete | failed | blocked | cancelled | expired | deadLettered =>
            rw [status] at terminal
            exact absurd rfl terminal

/-- Dependencies that have all ended let go of the task that waits for them. -/
theorem awaitDependencies_of_ended {ctx : Reconcile.Context} {byId : List Task} {task : Task}
    (ended : ∀ id ∈ task.dependsOn, ∃ dep, KeyedList.get Task.id byId id = some dep ∧
      isTerminal dep.status = true) : Reconcile.awaitDependencies ctx byId task ≠ {} := by
  intro quiet
  have noActions := congrArg Reconcile.Verdict.actions quiet
  unfold Reconcile.awaitDependencies at noActions
  split at noActions
  next => contradiction
  next unfailed =>
    have complete : (task.dependsOn.all fun id =>
        (KeyedList.get Task.id byId id).any fun dep => dep.status = .complete) = true := by
      rw [List.all_eq_true]
      intro id depends
      have ⟨dep, found, terminal⟩ := ended id depends
      have among : dep ∈ Reconcile.dependencies byId task :=
        List.mem_filterMap.2 ⟨id, depends, found⟩
      have succeeded := List.find?_eq_none.1 unfailed dep among
      rw [Reconcile.hasFailed, terminal, Bool.true_and, decide_eq_true_eq, not_not] at succeeded
      simp [found, succeeded]
    rw [if_pos complete] at noActions
    contradiction

theorem removeOrphans_leases (ctx : Reconcile.Context) (state : Reconcile.State) (id : TaskId) :
    (Reconcile.removeOrphans ctx state).leases id = state.leases id ∨
      (Reconcile.removeOrphans ctx state).leases id = .absent := by
  have keeps : ∀ (tasks : List Task) (state : Reconcile.State), (tasks.foldl (fun state task =>
      if isTerminal task.status && (state.leases task.id).read.isSome then
        { state.release ctx task.id with counts := state.counts.add { orphansRemoved := 1 } }
      else state) state).leases id = state.leases id ∨ (tasks.foldl (fun state task =>
      if isTerminal task.status && (state.leases task.id).read.isSome then
        { state.release ctx task.id with counts := state.counts.add { orphansRemoved := 1 } }
      else state) state).leases id = .absent := by
    intro tasks
    induction tasks with
    | nil => exact fun _ => .inl rfl
    | cons task rest ih =>
        intro state
        rw [List.foldl_cons]
        split
        next =>
          cases ih { state.release ctx task.id with
            counts := state.counts.add { orphansRemoved := 1 } } with
          | inr gone => exact .inr gone
          | inl same =>
              rw [same]
              by_cases here : id = task.id
              · subst here
                simp only [Reconcile.State.release, Function.update_self, Reconcile.releaseLease]
                split
                next => exact .inl rfl
                next => exact .inr rfl
              · left
                simp only [Reconcile.State.release, Function.update_of_ne here]
        next => exact ih state
  exact keeps _ _

/-- An expired lease is nobody's. -/
theorem heldByOther_of_expired {file : LeaseFile} {now : Time}
    (expired : ∀ lease ∈ file.read, lease.isExpired now = true) (owner : String) :
    file.heldByOther owner now = false := by
  unfold LeaseFile.heldByOther
  cases read : file.read with
  | none => rfl
  | some lease => simp [expired lease read]

/-- A turn of a pulse that dies right after the claim. -/
def claimingTurn (index : Nat) (now : Time) : RunTask.Turn :=
  { drainedTurn index now with lasts := 0 }

/-- A pending task does not stay pending in its turn. -/
theorem turn_status (index : Nat) (now : Time) (byId : List Task) (task : Task) :
    (Action.applyAll task ((claimingTurn index now).actions byId task)).status ≠ .pending := by
  have moved : ∀ (task : Task) (target : Status) (ctx : TransitionContext),
      target ≠ .pending → (moveTask task target ctx).status ≠ .pending := by
    intro task target ctx other
    rwa [moveTask_status]
  unfold RunTask.Turn.actions
  split
  next => exact moved _ _ _ Status.noConfusion
  next => exact moved _ _ _ Status.noConfusion
  next => exact moved _ _ _ Status.noConfusion
  next =>
    rw [if_neg (by simp [claimingTurn, drainedTurn])]
    exact moved _ _ _ Status.noConfusion

section Fixed

variable {ttl : Reconcile.Ttl} {tasks : List Task} {leases : TaskId → LeaseFile}

/-- The sweep of a round at a late time finds nothing to do in a fixed queue. -/
theorem quiet_of_isFixed {since now : Time}
    (fixed : ∀ round : Round, since ≤ round.ctx.now → round.ctx.ttl = ttl →
      round.Lawful tasks leases → round.run tasks leases = .ok tasks)
    (after : since ≤ now) (late : ∀ task ∈ tasks, Late ttl leases now task) :
    ∀ task ∈ tasks, Reconcile.reconcileTask { now, owner := "pulse-1", ttl } (leases task.id) tasks
      task = {} := by
  have ⟨state, records, swept, same, _⟩ := sweep_moved { now, owner := "pulse-1", ttl } tasks
    { tasks := [], leases, checkpoints := [] }
  have reconciled : Reconcile.reconcile { now, owner := "pulse-1", ttl } tasks leases [] =
      .ok (Reconcile.removeOrphans { now, owner := "pulse-1", ttl } state) := by
    rw [Reconcile.reconcile, swept]
    rfl
  have kept := fixed { ctx := { now, owner := "pulse-1", ttl }, checkpoints := [], turns := [] }
    after rfl (fun _ _ => ⟨⟨List.nodup_nil, by simp⟩, by simp⟩)
  rw [Round.run, reconciled] at kept
  have unchanged := Except.ok.inj kept
  rw [Reconcile.removeOrphans_tasks] at unchanged
  exact quiet_of_sweep tasks { tasks := [], leases, checkpoints := [] } state late swept unchanged

/-- A fixed queue has no pending task: its turn would come. -/
theorem not_pending_of_isFixed {since now : Time}
    (fixed : ∀ round : Round, since ≤ round.ctx.now → round.ctx.ttl = ttl →
      round.Lawful tasks leases → round.run tasks leases = .ok tasks)
    (after : since ≤ now) (late : ∀ task ∈ tasks, Late ttl leases now task) {task : Task}
    (inside : task ∈ tasks) : task.status ≠ .pending := by
  intro pending
  have ⟨index, found⟩ := List.mem_iff_getElem?.1 inside
  have ⟨state, swept, same, unreleased⟩ := sweep_of_quiet tasks
    { tasks := [], leases, checkpoints := [] } (quiet_of_isFixed fixed after late)
  have same' : (Reconcile.removeOrphans { now, owner := "pulse-1", ttl } state).tasks = tasks := by
    rw [Reconcile.removeOrphans_tasks, same]
    rfl
  have reconciled : Reconcile.reconcile { now, owner := "pulse-1", ttl } tasks leases [] =
      .ok (Reconcile.removeOrphans { now, owner := "pulse-1", ttl } state) := by
    rw [Reconcile.reconcile, swept]
    rfl
  have captured : RunTask.Captured tasks [claimingTurn index now] := by
    constructor
    · exact List.nodup_singleton _
    · intro turn only
      rw [List.mem_singleton.1 only]
      change (tasks[index]?).map Task.status = some .pending
      rw [found, Option.map_some, pending]
  have kept := fixed {
    ctx := { now, owner := "pulse-1", ttl }, checkpoints := []
    turns := [claimingTurn index now] } after rfl (by
      intro state' reconciled'
      rw [reconciled] at reconciled'
      cases reconciled'
      rw [same']
      refine ⟨captured, ?_⟩
      intro turn only
      rw [List.mem_singleton.1 only]
      refine ⟨le_refl _, ?_⟩
      intro other found'
      have among : other ∈ tasks := List.mem_of_getElem? found'
      have free : ((Reconcile.removeOrphans { now, owner := "pulse-1", ttl } state).leases
          other.id).heldByOther "pulse-1" now = false := by
        cases removeOrphans_leases { now, owner := "pulse-1", ttl } state other.id with
        | inr gone =>
            rw [gone]
            rfl
        | inl same =>
            rw [same, unreleased]
            exact heldByOther_of_expired (late other among).file "pulse-1"
      exact (congrArg (!·) free).symm)
  rw [Round.run, reconciled] at kept
  change RunTask.claimAndRun (Reconcile.removeOrphans { now, owner := "pulse-1", ttl } state).tasks
    [claimingTurn index now] = .ok tasks at kept
  rw [same', RunTask.claimAndRun] at kept
  have found' : tasks[(claimingTurn index now).index]? = some task := found
  rw [found'] at kept
  dsimp only at kept
  rw [Action.performAll_eq_ok ((claimingTurn index now).actions_allowed tasks pending)] at kept
  have unchanged : tasks.set index
      (Action.applyAll task ((claimingTurn index now).actions tasks task)) = tasks :=
    Except.ok.inj kept
  have inside' : index < tasks.length := (List.getElem?_eq_some_iff.1 found).1
  have there := congrArg (fun tasks : List Task => tasks[index]?) unchanged
  simp only [List.getElem?_set_self inside', found, Option.some.injEq] at there
  apply turn_status index now tasks task
  rw [there, pending]

end Fixed

/-- Every task waits, without a date, for tasks that wait. -/
def isDeadlocked (tasks : List Task) : Bool :=
  tasks.all fun task =>
    decide (task.status = .waiting) && decide (task.waitReason = some .dependency) &&
      decide (task.expiresAt = none) && decide (task.deadline = none) &&
      !task.dependsOn.isEmpty && task.dependsOn.all fun id =>
        (KeyedList.get Task.id tasks id).any fun dep => dep.status = .waiting

theorem quiet_of_isDeadlocked {tasks : List Task} (deadlocked : isDeadlocked tasks = true)
    (ctx : Reconcile.Context) (file : LeaseFile) {task : Task} (inside : task ∈ tasks) :
    Reconcile.reconcileTask ctx file tasks task = {} ∧ task.status = .waiting := by
  have facts := List.all_eq_true.1 deadlocked task inside
  simp only [Bool.and_eq_true, decide_eq_true_eq, List.all_eq_true, Bool.not_eq_true'] at facts
  have ⟨⟨⟨⟨⟨waiting, dependency⟩, noTtl⟩, noDeadline⟩, some'⟩, waits⟩ := facts
  have unfailed : (Reconcile.dependencies tasks task).find? Reconcile.hasFailed = none := by
    rw [List.find?_eq_none]
    intro dep among
    have ⟨id, depends, found⟩ := List.mem_filterMap.1 among
    have status := waits id depends
    rw [found, Option.any_some, decide_eq_true_eq] at status
    rw [Reconcile.hasFailed, status]
    exact Bool.false_ne_true
  have incomplete : (task.dependsOn.all fun id =>
      (KeyedList.get Task.id tasks id).any fun dep => dep.status = .complete) = false := by
    cases depends : task.dependsOn with
    | nil =>
        rw [depends] at some'
        contradiction
    | cons id rest =>
        have status := waits id (by rw [depends]; exact List.mem_cons_self)
        rw [List.all_cons, Bool.and_eq_false_iff]
        left
        cases found : KeyedList.get Task.id tasks id with
        | none => rfl
        | some dep =>
            rw [found, Option.any_some, decide_eq_true_eq] at status
            rw [Option.any_some, status]
            rfl
  refine ⟨?_, waiting⟩
  have asleep : isTerminal Status.waiting = false := rfl
  have undated : Reconcile.reached none ctx.now = false := rfl
  simp only [Reconcile.reconcileTask, waiting, asleep, noTtl, noDeadline, undated, dependency,
    Bool.false_eq_true, Bool.false_and, if_false, Reconcile.awaitDependencies, unfailed,
    incomplete]

/-- No round ever ends such a wait. -/
theorem isFixed_of_isDeadlocked {tasks : List Task} (deadlocked : isDeadlocked tasks = true)
    (ttl : Reconcile.Ttl) (leases : TaskId → LeaseFile) : IsFixed ttl tasks leases := by
  refine ⟨0, ?_⟩
  intro round _ _ lawful
  obtain ⟨state, swept, same, _⟩ := @sweep_of_quiet round.ctx tasks
    { tasks := [], leases, checkpoints := round.checkpoints }
    (fun task inside => (quiet_of_isDeadlocked deadlocked round.ctx _ inside).1)
  have same' : (Reconcile.removeOrphans round.ctx state).tasks = tasks := by
    rw [Reconcile.removeOrphans_tasks, same]
    rfl
  have reconciled : Reconcile.reconcile round.ctx tasks leases round.checkpoints =
      .ok (Reconcile.removeOrphans round.ctx state) := by
    rw [Reconcile.reconcile, swept]
    rfl
  obtain ⟨captured, _⟩ := lawful _ reconciled
  rw [same'] at captured
  cases turns : round.turns with
  | nil =>
      rw [Round.run, reconciled, turns]
      exact congrArg Except.ok same'
  | cons turn rest =>
      -- a turn is for a pending task, and there is none
      obtain ⟨task, found, pending⟩ := Option.map_eq_some_iff.1
        (captured.2 turn (by rw [turns]; exact List.mem_cons_self))
      have waiting := (quiet_of_isDeadlocked deadlocked round.ctx .absent
        (List.mem_of_getElem? found)).2
      rw [pending] at waiting
      contradiction

/-- Two issues of the owner, each of which names the other as its dependency. -/
def mutualDeps : Intake.Deps :=
  { plainDeps 0 with
    parseTaskYaml := fun issue => some {
      title := issue.title, description := issue.title
      dependsOn := [if issue.number = 1 then "issue-2" else "issue-1"] } }

def filedBy (number : Nat) (title : String) : Intake.FiledIssue where
  number
  actor := { login := some "owner" }
  title

/-- Both are taken in, and both turns let a task wait for the other. -/
def deadlockRun : List Label := [
  .intake mutualDeps [filedBy 1 "Write the parser", filedBy 2 "Write the printer"],
  .claim [drainedTurn 0 1000, drainedTurn 1 1000]]

theorem deadlocked_of_run : (system.exec always [] deadlockRun).any (fun tasks =>
    isDeadlocked tasks && !tasks.isEmpty) = true := by
  decide +kernel

end Queue

end TitanRunner
