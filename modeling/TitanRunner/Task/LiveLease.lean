import TitanRunner.Task.Reconcile

/-!
# Records that a pulse is working on

A running record whose lease is live belongs to a pulse that overlaps with the sweep.  The
sweep leaves it alone, except that a time to live and a deadline end any record that has not
finished.
-/

namespace TitanRunner

namespace Reconcile

/-- The lease file or its mirror on the record is live. -/
def hasLiveLease (now : Time) (file : LeaseFile) (task : Task) : Bool :=
  file.read.any (fun lease => !lease.isExpired now) ||
    task.lease.any fun lease => !lease.isExpired now

/-- The time to live or the deadline has been reached. -/
def isDue (now : Time) (task : Task) : Bool :=
  reached task.expiresAt now || reached task.deadline now

/-- The sweep cannot have given up the lease when it comes to the record: the mirror is live,
another owner holds the file, or no record of this id stands before it. -/
def KeepsLease (ctx : Context) (leases : TaskId → LeaseFile) (before : List Task)
    (task : Task) : Prop :=
  task.lease.any (fun lease => !lease.isExpired ctx.now) = true ∨
    (leases task.id).heldByOther ctx.owner ctx.now = true ∨ task.id ∉ before.map Task.id

/-- The verdict on a running record with a live lease. -/
theorem reconcileTask_live {ctx : Context} {file : LeaseFile} {task : Task}
    (running : task.status = .running) (live : hasLiveLease ctx.now file task = true)
    (byId : List Task) :
    if isDue ctx.now task then
      ∃ reason error,
        (reconcileTask ctx file byId task).actions = (expire ctx reason error).actions
    else reconcileTask ctx file byId task = {} := by
  have ended : isTerminal task.status = false := by rw [running]; rfl
  have closed : task.status ≠ .prOpen := by rw [running]; decide
  unfold isDue reconcileTask
  rw [ended, decide_eq_true closed, Bool.and_true, Bool.and_true, if_neg Bool.false_ne_true]
  cases reached task.expiresAt ctx.now with
  | true => exact ⟨_, _, rfl⟩
  | false =>
      cases reached task.deadline ctx.now with
      | true => exact ⟨_, _, rfl⟩
      | false =>
          simp only [Bool.or_false, Bool.false_eq_true, if_false, running]
          exact if_pos live

theorem settle_leases (ctx : Context) (state : State) (verdict : Verdict) (task moved : Task) :
    (state.settle ctx verdict task moved).leases =
      if verdict.releasesLease then
        Function.update state.leases task.id (releaseLease ctx (state.leases task.id))
      else state.leases := by
  unfold State.settle
  dsimp only
  split <;> split <;> rfl

/-- A lease that another owner holds stays when a verdict is carried out. -/
theorem settle_heldByOther {ctx : Context} {state : State} {id : TaskId}
    (held : (state.leases id).heldByOther ctx.owner ctx.now = true) (verdict : Verdict)
    (task moved : Task) :
    (state.settle ctx verdict task moved).leases id = state.leases id := by
  rw [settle_leases]
  split
  next =>
    rw [Function.update_apply]
    split
    next same =>
      rw [← same, releaseLease, if_pos held]
    next => rfl
  next => rfl

theorem settle_other {ctx : Context} {state : State} {id : TaskId} {task : Task}
    (apart : id ≠ task.id) (verdict : Verdict) (moved : Task) :
    (state.settle ctx verdict task moved).leases id = state.leases id := by
  rw [settle_leases]
  split
  next => exact Function.update_of_ne apart _ _
  next => rfl

/-- One turn of the loop. -/
theorem sweep_cons {ctx : Context} {state after : State} {task : Task} {rest : List Task}
    (swept : sweep ctx state (task :: rest) = .ok after) :
    let verdict := reconcileTask ctx (state.leases task.id) (state.tasks ++ task :: rest) task
    sweep ctx (state.settle ctx verdict task (Action.applyAll task verdict.actions)) rest =
      .ok after := by
  have allowed := reconcileTask_allowed ctx (state.leases task.id) (state.tasks ++ task :: rest)
    task
  rw [sweep] at swept
  simp only [Action.performAll_eq_ok allowed] at swept
  exact swept

/-- Records that are done are not touched again. -/
theorem sweep_prefix {ctx : Context} {rest : List Task} {state after : State}
    (swept : sweep ctx state rest = .ok after) : state.tasks <+: after.tasks := by
  induction rest generalizing state with
  | nil =>
      cases swept
      exact List.prefix_rfl
  | cons task rest ih =>
      have goesOn := ih (sweep_cons swept)
      rw [settle_tasks] at goesOn
      exact (List.prefix_append _ _).trans goesOn

/-- The sweep settles the record at each place by the lease file it then finds. -/
theorem sweep_settles {ctx : Context} {rest : List Task} {state after : State} {index : Nat}
    {task : Task} (swept : sweep ctx state rest = .ok after) (found : rest[index]? = some task) :
    ∃ file byId,
      after.tasks[state.tasks.length + index]? =
        some (Action.applyAll task (reconcileTask ctx file byId task).actions) ∧
      ((state.leases task.id).heldByOther ctx.owner ctx.now = true ∨
        task.id ∉ (rest.take index).map Task.id → file = state.leases task.id) := by
  induction rest generalizing state index with
  | nil => contradiction
  | cons first rest ih =>
      have turn := sweep_cons swept
      cases index with
      | zero =>
          have here : first = task := Option.some.inj found
          subst here
          refine ⟨state.leases first.id, state.tasks ++ first :: rest, ?_, fun _ => rfl⟩
          have done := sweep_prefix turn
          rw [settle_tasks] at done
          have ⟨others, same⟩ := done
          rw [← same, List.append_assoc, Nat.add_zero, List.getElem?_append_right (Nat.le_refl _),
            Nat.sub_self]
          rfl
      | succ index =>
          have ⟨file, byId, settled, same⟩ := ih turn found
          refine ⟨file, byId, ?_, ?_⟩
          · rw [settle_tasks, List.length_append, List.length_singleton] at settled
            rw [← settled]
            congr 1
            omega
          · intro kept
            cases kept with
            | inl held =>
                have still := settle_heldByOther held
                rw [same (.inl _), still]
                rw [still]
                exact held
            | inr apart =>
                rw [List.take_succ_cons, List.map_cons, List.mem_cons, not_or] at apart
                rw [same (.inr apart.2), settle_other apart.1]

/-- The sweep settles every record by some lease file and some state of the queue. -/
theorem reconcile_settles {ctx : Context} {tasks : List Task} {leases : TaskId → LeaseFile}
    {checkpoints : List TaskId} {after : State} {index : Nat} {task : Task}
    (ran : reconcile ctx tasks leases checkpoints = .ok after) (found : tasks[index]? = some task) :
    ∃ file byId, after.tasks[index]? =
      some (Action.applyAll task (reconcileTask ctx file byId task).actions) := by
  unfold reconcile at ran
  cases swept : sweep ctx { tasks := [], leases, checkpoints } tasks with
  | error =>
      rw [swept] at ran
      contradiction
  | ok state =>
      rw [swept] at ran
      cases ran
      have ⟨file, byId, settled, _⟩ := sweep_settles swept found
      rw [List.length_nil, Nat.zero_add] at settled
      exact ⟨file, byId, (congrArg (·[index]?) (removeOrphans_tasks ctx state)).trans settled⟩

/-- The sweep asks for no forbidden move, so it does not throw. -/
theorem exists_reconcile (ctx : Context) (tasks : List Task) (leases : TaskId → LeaseFile)
    (checkpoints : List TaskId) : ∃ after, reconcile ctx tasks leases checkpoints = .ok after := by
  suffices swept : ∀ (rest : List Task) (state : State), ∃ after, sweep ctx state rest = .ok after by
    have ⟨state, ran⟩ := swept tasks { tasks := [], leases, checkpoints }
    exact ⟨_, by rw [reconcile, ran]; rfl⟩
  intro rest
  induction rest with
  | nil => exact fun state => ⟨state, rfl⟩
  | cons task rest ih =>
      intro state
      have allowed := reconcileTask_allowed ctx (state.leases task.id) (state.tasks ++ task :: rest)
        task
      rw [sweep]
      simp only [Action.performAll_eq_ok allowed]
      exact ih _

/-- The sweep keeps a lease that another owner holds. -/
theorem sweep_heldByOther {ctx : Context} {rest : List Task} {state after : State} {id : TaskId}
    (swept : sweep ctx state rest = .ok after)
    (held : (state.leases id).heldByOther ctx.owner ctx.now = true) :
    after.leases id = state.leases id := by
  induction rest generalizing state with
  | nil =>
      cases swept
      rfl
  | cons task rest ih =>
      have still := settle_heldByOther held
      rw [ih (sweep_cons swept) (by rw [still]; exact held), still]

theorem removeOrphans_heldByOther {ctx : Context} {state : State} {id : TaskId}
    (held : (state.leases id).heldByOther ctx.owner ctx.now = true) :
    (removeOrphans ctx state).leases id = state.leases id := by
  unfold removeOrphans
  dsimp only
  suffices kept : ∀ (tasks : List Task) (state : State),
      (state.leases id).heldByOther ctx.owner ctx.now = true →
      (tasks.foldl (fun state task =>
        if isTerminal task.status && (state.leases task.id).read.isSome then
          { state.release ctx task.id with counts := state.counts.add { orphansRemoved := 1 } }
        else state) state).leases id = state.leases id from kept state.tasks _ held
  intro tasks
  induction tasks with
  | nil => exact fun _ _ => rfl
  | cons task rest ih =>
      intro state held
      rw [List.foldl_cons]
      split
      next =>
        have released : (state.release ctx task.id).leases id = state.leases id := by
          rw [State.release]
          dsimp only
          rw [Function.update_apply]
          split
          next same => rw [← same, releaseLease, if_pos held]
          next => rfl
        rw [ih _ (by dsimp only; rw [released]; exact held)]
        exact released
      next => exact ih state held

/-- A running record with a live lease comes out of `reconcile` as it went in, unless its time
to live or its deadline has been reached; then it has expired.  Either way a lease that another
pulse holds stays on file. -/
theorem reconcile_live {ctx : Context} {tasks : List Task} {leases : TaskId → LeaseFile}
    {checkpoints : List TaskId} {after : State} {index : Nat} {task : Task}
    (ran : reconcile ctx tasks leases checkpoints = .ok after)
    (found : tasks[index]? = some task) (running : task.status = .running)
    (live : hasLiveLease ctx.now (leases task.id) task = true)
    (kept : KeepsLease ctx leases (tasks.take index) task) :
    (if isDue ctx.now task then
      ∃ expired, after.tasks[index]? = some expired ∧ expired.status = .expired
    else after.tasks[index]? = some task) ∧
      ((leases task.id).heldByOther ctx.owner ctx.now = true →
        after.leases task.id = leases task.id) := by
  unfold reconcile at ran
  cases swept : sweep ctx { tasks := [], leases, checkpoints } tasks with
  | error =>
      rw [swept] at ran
      contradiction
  | ok state =>
      rw [swept] at ran
      cases ran
      have ⟨file, byId, settled, same⟩ := sweep_settles swept found
      rw [List.length_nil, Nat.zero_add] at settled
      have live' : hasLiveLease ctx.now file task = true := by
        cases kept with
        | inl mirror =>
            rw [hasLiveLease, mirror, Bool.or_true]
        | inr file' =>
            rw [same file']
            exact live
      have verdict := reconcileTask_live running live' byId
      constructor
      · rw [removeOrphans_tasks, settled]
        split
        next due =>
          rw [if_pos due] at verdict
          have ⟨reason, error, actions⟩ := verdict
          refine ⟨_, rfl, ?_⟩
          rw [actions]
          exact moveTask_status task .expired _
        next fresh =>
          rw [if_neg fresh] at verdict
          rw [verdict]
          rfl
      · intro held
        have still := sweep_heldByOther swept held
        rw [removeOrphans_heldByOther (by rw [still]; exact held), still]

/-- A record another pulse works on until 60 s, with a time to live of `expiresAt`. -/
def claimed (expiresAt : Option Time) : Task where
  id := "issue-1"
  status := .running
  expiresAt
  lease := some { owner := "pulse-1", acquiredAt := some 0, expiresAt := some 60000 }

def sweeper : Context where
  now := 20000
  owner := "pulse-2"

theorem reconcile_live_claimed : ∃ after,
    reconcile sweeper [claimed (some 30000)] (fun _ => .absent) [] = .ok after ∧
      after.tasks[0]? = some (claimed (some 30000)) := by
  refine ⟨_, rfl, ?_⟩
  have stays := @reconcile_live sweeper [claimed (some 30000)] (fun _ => .absent) [] _ 0
    (claimed (some 30000)) rfl rfl rfl (by decide) (.inl (by decide))
  exact stays.1

/-- A record whose time to live is over is expired under the pulse that runs it.  With two
records of one id the first of them can also cost the second its lease file. -/
theorem not_reconcile_live :
    (¬ ∀ (ctx : Context) (tasks : List Task) (leases : TaskId → LeaseFile)
        (checkpoints : List TaskId) (after : State) (index : Nat) (task : Task),
      reconcile ctx tasks leases checkpoints = .ok after → tasks[index]? = some task →
      task.status = .running → hasLiveLease ctx.now (leases task.id) task = true →
        after.tasks[index]? = some task) ∧
    ¬ ∀ (ctx : Context) (tasks : List Task) (leases : TaskId → LeaseFile)
        (checkpoints : List TaskId) (after : State) (index : Nat) (task : Task),
      reconcile ctx tasks leases checkpoints = .ok after → tasks[index]? = some task →
      task.status = .running → hasLiveLease ctx.now (leases task.id) task = true →
      isDue ctx.now task = false → after.tasks[index]? = some task := by
  constructor
  · intro all
    have stays := all sweeper [claimed (some 10000)] (fun _ => .absent) [] _ 0
      (claimed (some 10000)) rfl rfl rfl (by decide)
    revert stays
    decide
  · intro all
    let own : LeaseFile :=
      .lease { owner := "pulse-2", acquiredAt := some 0, expiresAt := some 60000 }
    let second : Task := { id := "issue-1", status := .running }
    have stays := all sweeper [claimed (some 10000), second] (fun _ => own) [] _ 1 second
      rfl rfl rfl (by decide) (by decide)
    revert stays
    decide

end Reconcile

end TitanRunner
