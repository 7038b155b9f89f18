import TitanRunner.Engine.RunTask
import TitanRunner.Intake
import TitanRunner.IssueActions
import TitanRunner.State.Archive
import TitanRunner.Task.Reconcile

/-!
# The queue over all its pulses

The queue starts empty, and the parts of the engine that change it take turns: the sweep,
the intake, the control sync and the control workflow, the look at open pull requests, the
claims with their runs, the retention, and the load of the file a save wrote.
-/

namespace TitanRunner

namespace Queue

open TransitionSystem

inductive Label where
  | reconcile (ctx : Reconcile.Context) (leases : TaskId → LeaseFile) (checkpoints : List TaskId)
  | intake (deps : Intake.Deps) (issues : List Intake.FiledIssue)
  | manual (deps : Intake.Deps) (text : String)
  | sync (deps : IssueSync.Deps) (listing : List Issue)
  | control (now : Time) (by' : String) (target : TaskId) (command : Command)
  | revisit (now : Time) (statusOf : Task → RunTask.PullStatus)
  | claim (turns : List RunTask.Turn)
  | archive (now : Time) (options : Archive.Options)
  | reload

/-- The task command of `applyControlAction`, to the first record of the id. -/
def applyControl (now : Time) (by' : String) (target : TaskId) (command : Command) :
    List Task → Except TransitionError (List Task)
  | [] => .ok []
  | task :: rest =>
      if task.id = target then
        (IssueSync.applyCommand now by' task command).map fun (task, _) => task :: rest
      else (applyControl now by' target command rest).map (task :: ·)

/-- The actions of the loop over open pull requests on a record. -/
def revisitActions (now : Time) (statusOf : Task → RunTask.PullStatus) (task : Task) :
    List Action :=
  if task.status = .prOpen then RunTask.revisitSelfImprovePr now (statusOf task) else []

/-- What a part of the engine does to the queue. -/
def perform (tasks : List Task) : Label → Except TransitionError (List Task)
  | .reconcile ctx leases checkpoints =>
      (Reconcile.reconcile ctx tasks leases checkpoints).map Reconcile.State.tasks
  | .intake deps issues => (Intake.syncIssuesIntoTasks deps tasks issues).map Intake.Report.tasks
  | .manual deps text => .ok (Intake.addManualTask deps tasks text)
  | .sync deps listing =>
      (IssueSync.reconcileIssueState deps tasks listing).map (List.map IssueSync.Report.task)
  | .control now by' target command => applyControl now by' target command tasks
  | .revisit now statusOf =>
      tasks.mapM fun task => Action.performAll task (revisitActions now statusOf task)
  | .claim turns => RunTask.claimAndRun tasks turns
  | .archive now options => .ok (Archive.archiveOldTasks now options tasks).1
  | .reload => .ok (tasks.map Intake.scrubForState)

/-- The claims go through what was pending when they began. -/
def Enabled (tasks : List Task) : Label → Prop
  | .claim turns => RunTask.Captured tasks turns
  | _ => True

instance (tasks : List Task) (label : Label) : Decidable (Enabled tasks label) :=
  match label with
  | .claim turns => inferInstanceAs (Decidable (RunTask.Captured tasks turns))
  | .reconcile _ _ _ | .intake _ _ | .manual _ _ | .sync _ _ | .control _ _ _ _ | .revisit _ _
  | .archive _ _ | .reload => .isTrue trivial

def next (tasks : List Task) (label : Label) : Option (List Task) :=
  if Enabled tasks label then (perform tasks label).toOption else none

/-- The queues that arise from an empty one. -/
def system : System (List Task) Label where
  start tasks := tasks = []
  next := next

/-! ## The actions of a step -/

/-- The actions of the sweep, in order. -/
def sweepActions (ctx : Reconcile.Context) (state : Reconcile.State) : List Task → List Action
  | [] => []
  | task :: rest =>
      let verdict :=
        Reconcile.reconcileTask ctx (state.leases task.id) (state.tasks ++ task :: rest) task
      verdict.actions ++ sweepActions ctx
        (state.settle ctx verdict task (Action.applyAll task verdict.actions)) rest

/-- The queue after the intake took one issue. -/
def taken (deps : Intake.Deps) (known : List TaskId) (tasks : List Task)
    (issue : Intake.FiledIssue) : List Task :=
  if Intake.Accepts deps known issue then
    tasks ++ [Action.applyAll (Intake.pushed deps issue) (Intake.pushedActions deps tasks issue)]
  else tasks

/-- The actions of the intake on the records it pushes. -/
def intakeActions (deps : Intake.Deps) (known : List TaskId) :
    List Task → List Intake.FiledIssue → List Action
  | _, [] => []
  | tasks, issue :: rest =>
      (if Intake.Accepts deps known issue then Intake.pushedActions deps tasks issue else []) ++
        intakeActions deps known (taken deps known tasks issue) rest

/-- The actions of the turns, in order. -/
def turnsActions : List Task → List RunTask.Turn → List Action
  | _, [] => []
  | tasks, turn :: rest =>
      match tasks[turn.index]? with
      | none => turnsActions tasks rest
      | some task =>
          let actions := turn.actions tasks task
          actions ++ turnsActions (tasks.set turn.index (Action.applyAll task actions)) rest

/-- Every action a step performs on a record. -/
def actions (tasks : List Task) : Label → List Action
  | .reconcile ctx leases checkpoints =>
      sweepActions ctx { tasks := [], leases, checkpoints } tasks
  | .intake deps issues => intakeActions deps (tasks.map Task.id) tasks issues
  | .sync deps listing => tasks.flatMap (IssueSync.syncActions deps listing)
  | .control now by' target command =>
      ((tasks.find? fun task => task.id = target).elim [] fun task =>
        IssueSync.commandActions now by' task command)
  | .revisit now statusOf => tasks.flatMap (revisitActions now statusOf)
  | .claim turns => turnsActions tasks turns
  | .manual _ _ | .archive _ _ | .reload => []

/-- The records a step pushes, as they are pushed. -/
def pushes (tasks : List Task) : Label → List Task
  | .intake deps issues =>
      (issues.filter (Intake.Accepts deps (tasks.map Task.id))).map (Intake.pushed deps)
  | .manual deps text => [Intake.scrubForState (Intake.manualDraft deps text)]
  | _ => []

/-! ## What a step does -/

/-- What a step leaves: the records as its actions moved them and those it pushed, or what
stays after the retention, or the records as they are read back. -/
inductive Step (tasks : List Task) (label : Label) : List Task → Prop where
  | moved {records fresh : List Task} :
      List.Forall₂ (Action.Moved (actions tasks label)) tasks records →
      (∀ task ∈ fresh, ∃ record ∈ pushes tasks label,
        Action.Moved (actions tasks label) record task) →
      Step tasks label (records ++ fresh)
  | archived {now : Time} {options : Archive.Options} : label = .archive now options →
      Step tasks label (Archive.archiveOldTasks now options tasks).1
  | reloaded : label = .reload → Step tasks label (tasks.map Intake.scrubForState)

theorem sweep_moved (ctx : Reconcile.Context) (rest : List Task) (state : Reconcile.State) :
    ∃ after records, Reconcile.sweep ctx state rest = .ok after ∧
      after.tasks = state.tasks ++ records ∧
      List.Forall₂ (Action.Moved (sweepActions ctx state rest)) rest records := by
  induction rest generalizing state with
  | nil => exact ⟨state, [], rfl, by simp, .nil⟩
  | cons task rest ih =>
      have allowed := Reconcile.reconcileTask_allowed ctx (state.leases task.id)
        (state.tasks ++ task :: rest) task
      rw [Reconcile.sweep, sweepActions]
      generalize Reconcile.reconcileTask ctx (state.leases task.id)
        (state.tasks ++ task :: rest) task = verdict at allowed
      rw [Action.performAll_eq_ok allowed]
      have ⟨after, records, swept, tasks, all⟩ :=
        ih (state.settle ctx verdict task (Action.applyAll task verdict.actions))
      refine ⟨after, Action.applyAll task verdict.actions :: records, swept, ?_, ?_⟩
      · rw [tasks, Reconcile.settle_tasks, List.append_assoc, List.singleton_append]
      · constructor
        · exact (Action.Moved.of_allowed allowed).mono (List.subset_append_left _ _)
        · exact all.imp fun _ _ moved => moved.mono (List.subset_append_right _ _)

theorem intake_moved (deps : Intake.Deps) (known : List TaskId)
    (issues : List Intake.FiledIssue) (report : Intake.Report) :
    ∃ after fresh, issues.foldlM (Intake.takeIssue deps known) report = .ok after ∧
      after.tasks = report.tasks ++ fresh ∧
      ∀ task ∈ fresh,
        ∃ record ∈ (issues.filter (Intake.Accepts deps known)).map (Intake.pushed deps),
          Action.Moved (intakeActions deps known report.tasks issues) record task := by
  induction issues generalizing report with
  | nil => exact ⟨report, [], rfl, by simp, by simp⟩
  | cons issue rest ih =>
      have ⟨next, took, tasks⟩ := Intake.takeIssue_ok deps known report issue
      have ⟨after, fresh, ran, same, each⟩ := ih next
      rw [List.foldlM_cons, took, intakeActions, taken, ← tasks]
      cases accepted : Intake.Accepts deps known issue with
      | false =>
          rw [accepted, if_neg Bool.false_ne_true] at tasks
          refine ⟨after, fresh, ran, by rw [same, tasks], ?_⟩
          rw [List.filter_cons_of_neg (by simp [accepted]), if_neg Bool.false_ne_true]
          exact each
      | true =>
          rw [accepted, if_pos rfl] at tasks
          refine ⟨after, Action.applyAll (Intake.pushed deps issue)
            (Intake.pushedActions deps report.tasks issue) :: fresh, ran, ?_, ?_⟩
          · rw [same, tasks, List.append_assoc, List.singleton_append]
          · rw [List.filter_cons_of_pos accepted, if_pos rfl, List.map_cons]
            intro task inside
            cases List.mem_cons.1 inside with
            | inl first =>
                refine ⟨Intake.pushed deps issue, List.mem_cons_self, ?_⟩
                rw [first]
                exact (Action.Moved.of_allowed (Intake.pushedActions_allowed deps report.tasks
                  issue)).mono (List.subset_append_left _ _)
            | inr later =>
                have ⟨record, among, moved⟩ := each task later
                exact ⟨record, List.mem_cons_of_mem _ among,
                  moved.mono (List.subset_append_right _ _)⟩

theorem unmoved (all : List Action) (tasks : List Task) :
    List.Forall₂ (Action.Moved all) tasks tasks :=
  List.forall₂_same.2 fun task _ => Action.Moved.refl all task

theorem control_moved (now : Time) (by' : String) (target : TaskId) (command : Command)
    (tasks : List Task) :
    ∃ after, applyControl now by' target command tasks = .ok after ∧
      List.Forall₂ (Action.Moved (actions tasks (.control now by' target command))) tasks after := by
  induction tasks with
  | nil => exact ⟨[], rfl, .nil⟩
  | cons task rest ih =>
      rw [applyControl]
      split
      next same =>
        have allowed := IssueSync.commandActions_allowed now by' task command
        have applied := IssueSync.applyCommand_eq now by' task command
        rw [Action.performAll_eq_ok allowed] at applied
        simp only [actions, List.find?_cons, same, decide_true, Option.elim_some]
        cases result : IssueSync.applyCommand now by' task command with
        | error =>
            rw [result] at applied
            contradiction
        | ok outcome =>
            rw [result] at applied
            refine ⟨outcome.1 :: rest, rfl, .cons ?_ (unmoved _ rest)⟩
            rw [Except.ok.inj applied]
            exact Action.Moved.of_allowed allowed
      next apart =>
        have ⟨after, applied, moved⟩ := ih
        simp only [actions, List.find?_cons, apart, decide_false] at moved ⊢
        refine ⟨task :: after, ?_, .cons (Action.Moved.refl _ task) moved⟩
        rw [applied]
        rfl

theorem revisitActions_allowed (now : Time) (statusOf : Task → RunTask.PullStatus)
    (task : Task) : Action.AllowedAll task (revisitActions now statusOf task) := by
  unfold revisitActions
  split
  next open' =>
    rw [Action.allowedAll_iff, open']
    exact RunTask.revisitSelfImprovePr_allowed now (statusOf task)
  next => trivial

/-- Each record moved by actions of its own. -/
theorem each_moved {own : Task → List Action} (tasks : List Task)
    (allowed : ∀ task, Action.AllowedAll task (own task)) :
    List.Forall₂ (Action.Moved (tasks.flatMap own)) tasks
      (tasks.map fun task => Action.applyAll task (own task)) := by
  rw [List.forall₂_map_right_iff, List.forall₂_same]
  intro task inside
  apply (Action.Moved.of_allowed (allowed task)).mono
  intro action among
  exact List.mem_flatMap.2 ⟨task, inside, among⟩

theorem revisit_eq (now : Time) (statusOf : Task → RunTask.PullStatus) (tasks : List Task) :
    perform tasks (.revisit now statusOf) =
      .ok (tasks.map fun task => Action.applyAll task (revisitActions now statusOf task)) := by
  induction tasks with
  | nil => rfl
  | cons task rest ih =>
      rw [perform] at ih ⊢
      rw [List.mapM_cons, Action.performAll_eq_ok (revisitActions_allowed now statusOf task), ih]
      rfl

/-- A turn for a record that is still pending leaves those of the later turns alone. -/
theorem captured_set {tasks : List Task} {turn : RunTask.Turn} {rest : List RunTask.Turn}
    (captured : RunTask.Captured tasks (turn :: rest)) (moved : Task) :
    RunTask.Captured (tasks.set turn.index moved) rest := by
  have ⟨distinct, pending⟩ := captured
  rw [List.map_cons, List.nodup_cons] at distinct
  constructor
  · exact distinct.2
  · intro other later
    have apart : turn.index ≠ other.index := by
      intro same
      exact distinct.1 (same ▸ List.mem_map_of_mem later)
    rw [List.getElem?_set_ne apart]
    exact pending other (List.mem_cons_of_mem _ later)

theorem moved_set {all : List Action} {tasks : List Task} {index : Nat} {task after : Task}
    (found : tasks[index]? = some task) (moved : Action.Moved all task after) :
    List.Forall₂ (Action.Moved all) tasks (tasks.set index after) := by
  induction tasks generalizing index with
  | nil => contradiction
  | cons first rest ih =>
      cases index with
      | zero =>
          cases found
          exact .cons moved (unmoved all rest)
      | succ index => exact .cons (Action.Moved.refl all first) (ih found)

theorem moved_trans {all : List Action} {first second third : List Task}
    (left : List.Forall₂ (Action.Moved all) first second)
    (right : List.Forall₂ (Action.Moved all) second third) :
    List.Forall₂ (Action.Moved all) first third := by
  induction left generalizing third with
  | nil => exact right
  | cons moved _ ih =>
      cases right with
      | cons moved' others => exact .cons (moved.trans moved') (ih others)

theorem claims_moved (turns : List RunTask.Turn) (tasks : List Task)
    (captured : RunTask.Captured tasks turns) :
    ∃ after, RunTask.claimAndRun tasks turns = .ok after ∧
      List.Forall₂ (Action.Moved (turnsActions tasks turns)) tasks after := by
  induction turns generalizing tasks with
  | nil => exact ⟨tasks, rfl, unmoved _ tasks⟩
  | cons turn rest ih =>
      have ⟨task, found, isPending⟩ :=
        Option.map_eq_some_iff.1 (captured.2 turn List.mem_cons_self)
      have allowed := turn.actions_allowed tasks isPending
      have ⟨after, ran, moved⟩ := ih _ (captured_set captured
        (Action.applyAll task (turn.actions tasks task)))
      refine ⟨after, ?_, ?_⟩
      · rw [RunTask.claimAndRun, found]
        dsimp only
        rw [Action.performAll_eq_ok allowed]
        exact ran
      · rw [turnsActions, found]
        have first : Action.Moved (turn.actions tasks task ++ turnsActions (tasks.set turn.index
            (Action.applyAll task (turn.actions tasks task))) rest) task _ :=
          (Action.Moved.of_allowed allowed).mono (List.subset_append_left _ _)
        exact moved_trans (moved_set found first)
          (moved.imp fun _ _ moved => moved.mono (List.subset_append_right _ _))

/-- A step that can be taken never throws. -/
theorem perform_ok {tasks : List Task} {label : Label} (enabled : Enabled tasks label) :
    ∃ after, perform tasks label = .ok after ∧ Step tasks label after := by
  have movedOnly : ∀ {after : List Task},
      List.Forall₂ (Action.Moved (actions tasks label)) tasks after →
      Step tasks label after := by
    intro after moved
    have step : Step tasks label (after ++ []) := .moved moved (List.forall_mem_nil _)
    rwa [List.append_nil] at step
  cases label with
  | reconcile ctx leases checkpoints =>
      have ⟨after, records, swept, same, moved⟩ :=
        sweep_moved ctx tasks { tasks := [], leases, checkpoints }
      refine ⟨records, ?_, movedOnly moved⟩
      rw [perform, Reconcile.reconcile, swept]
      simp only [Except.map, Reconcile.removeOrphans_tasks, same, List.nil_append]
  | intake deps issues =>
      have ⟨after, fresh, ran, same, each⟩ :=
        intake_moved deps (tasks.map Task.id) issues { tasks }
      refine ⟨tasks ++ fresh, ?_, .moved (unmoved _ tasks) each⟩
      rw [perform, Intake.syncIssuesIntoTasks, ran]
      exact congrArg Except.ok same
  | manual deps text =>
      refine ⟨_, rfl, .moved (unmoved _ tasks) ?_⟩
      intro task inside
      exact ⟨task, inside, Action.Moved.refl _ task⟩
  | sync deps listing =>
      have ⟨reports, ran, same⟩ := IssueSync.reconcileIssueState_eq deps tasks listing
      refine ⟨_, ?_, movedOnly (each_moved tasks (IssueSync.syncActions_allowed deps listing))⟩
      rw [perform, ran]
      exact congrArg Except.ok same
  | control now by' target command =>
      have ⟨after, applied, moved⟩ := control_moved now by' target command tasks
      exact ⟨after, applied, movedOnly moved⟩
  | revisit now statusOf =>
      exact ⟨_, revisit_eq now statusOf tasks,
        movedOnly (each_moved tasks (revisitActions_allowed now statusOf))⟩
  | claim turns =>
      have ⟨after, ran, moved⟩ := claims_moved turns tasks enabled
      exact ⟨after, ran, movedOnly moved⟩
  | archive now options => exact ⟨_, rfl, .archived rfl⟩
  | reload => exact ⟨_, rfl, .reloaded rfl⟩

theorem next_step {tasks after : List Task} {label : Label}
    (stepped : next tasks label = some after) :
    Enabled tasks label ∧ perform tasks label = .ok after ∧ Step tasks label after := by
  unfold next at stepped
  split at stepped
  next enabled =>
    have ⟨result, performed, step⟩ := perform_ok enabled
    rw [performed] at stepped
    cases stepped
    exact ⟨enabled, performed, step⟩
  next => contradiction

theorem moved_keeps {holds : Task → Prop} {all : List Action} {tasks records : List Task}
    (each : List.Forall₂ (Action.Moved all) tasks records)
    (kept : ∀ action ∈ all, action.Keeps holds) (start : ∀ task ∈ tasks, holds task) :
    ∀ task ∈ records, holds task := by
  induction each with
  | nil => exact start
  | cons moved _ ih =>
      have ⟨first, rest⟩ := List.forall_mem_cons.1 start
      exact List.forall_mem_cons.2 ⟨moved.keeps kept first, ih rest⟩

/-- What every action of a step keeps, holds of what it pushes and outlasts a save, holds of
every record after the step. -/
theorem Step.keeps {holds : Task → Prop} {tasks after : List Task} {label : Label}
    (step : Step tasks label after) (kept : ∀ action ∈ actions tasks label, action.Keeps holds)
    (fresh : ∀ record ∈ pushes tasks label, holds record)
    (saved : ∀ task, holds task → holds (Intake.scrubForState task))
    (start : ∀ task ∈ tasks, holds task) : ∀ task ∈ after, holds task := by
  cases step with
  | moved records pushed =>
      intro task inside
      cases List.mem_append.1 inside with
      | inl old => exact moved_keeps records kept start task old
      | inr new =>
          have ⟨record, among, came⟩ := pushed task new
          exact came.keeps kept (fresh record among)
  | archived =>
      intro task inside
      exact start task (Archive.mem_archiveOldTasks inside)
  | reloaded =>
      intro task inside
      have ⟨before, among, same⟩ := List.mem_map.1 inside
      exact same ▸ saved before (start before among)

end Queue

end TitanRunner
