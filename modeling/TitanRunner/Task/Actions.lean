import TitanRunner.Task.Lifecycle

/-!
# What the engine does to a task record

Every part of the engine that handles a record does a few things to it in a row: it writes
fields directly, and it moves the record through `transition`.  The parts are given as such
lists of actions, so that what holds of a write and of a move holds of all of them.
-/

namespace TitanRunner

/-- The fields that are written directly, beside `transition`. -/
inductive Patch where
  | attempts (count : Nat)
  | retriedBy (login : String)
  | cancelRequested (value : Bool)
  | pauseRequested (value : Bool)
  | priority (level : Priority)
  | approvals (all : List (String × Approval))
  | issueUpdatedAtSeen (seen : Option Time)
  | duplicateOf (id : TaskId)
  | claim (lease : Lease) (claimedAt : Time)
  | runId (id : String)
  | usage (spent : Usage)
  | parks (count : Nat)
  | pullRequest (number : Option Nat) (url : Option String)
  deriving DecidableEq, Repr

def Patch.apply (task : Task) : Patch → Task
  | .attempts count => { task with attempts := count }
  | .retriedBy login => { task with retriedBy := some login }
  | .cancelRequested value => { task with cancelRequested := value }
  | .pauseRequested value => { task with pauseRequested := value }
  | .priority level => { task with priority := level }
  | .approvals all => { task with approvals := all }
  | .issueUpdatedAtSeen seen => { task with issueUpdatedAtSeen := seen }
  | .duplicateOf id => { task with duplicateOf := some id }
  | .claim lease claimedAt => { task with lease := some lease, claimedAt := some claimedAt }
  | .runId id => { task with runId := some id }
  | .usage spent => { task with usage := some spent }
  | .parks count => { task with parks := count }
  | .pullRequest number url => { task with prNumber := number, prUrl := url }

inductive Action where
  | write (patch : Patch)
  | move (target : Status) (ctx : TransitionContext)

namespace Action

def perform (task : Task) : Action → Except TransitionError Task
  | write patch => .ok (patch.apply task)
  | move target ctx => (transition task target ctx).map Prod.fst

/-- The record an action leaves, when it is allowed. -/
def apply (task : Task) : Action → Task
  | write patch => patch.apply task
  | move target ctx => moveTask task target ctx

/-- `transition` does not throw. -/
def Allowed (task : Task) : Action → Prop
  | write _ => True
  | move target ctx =>
      canTransition task.status target = true ∧ (target = .waiting → ctx.waitReason ≠ none)

/-- Actions in a row; the first that throws ends it. -/
def performAll (task : Task) (actions : List Action) : Except TransitionError Task :=
  actions.foldlM perform task

def applyAll (task : Task) (actions : List Action) : Task := actions.foldl apply task

/-- No action of the row throws. -/
def AllowedAll : Task → List Action → Prop
  | _, [] => True
  | task, action :: rest => action.Allowed task ∧ AllowedAll (action.apply task) rest

/-- The same, read off the status the row starts from. -/
def AllowedFrom : Status → List Action → Prop
  | _, [] => True
  | status, write _ :: rest => AllowedFrom status rest
  | status, move target ctx :: rest =>
      (canTransition status target = true ∧ (target = .waiting → ctx.waitReason ≠ none)) ∧
        AllowedFrom target rest

theorem performAll_write (task : Task) (patch : Patch) (rest : List Action) :
    performAll task (write patch :: rest) = performAll (patch.apply task) rest := rfl

theorem performAll_move (task : Task) (target : Status) (ctx : TransitionContext)
    (rest : List Action) :
    performAll task (move target ctx :: rest) =
      match transition task target ctx with
      | .error error => .error error
      | .ok moved => performAll moved.1 rest := by
  rw [performAll, List.foldlM_cons, perform]
  cases transition task target ctx <;> rfl

theorem perform_eq_ok {task : Task} {action : Action} (allowed : action.Allowed task) :
    action.perform task = .ok (action.apply task) := by
  cases action with
  | write patch => rfl
  | move target ctx =>
      have ⟨can, reason⟩ := allowed
      have reason' : ¬(target = .waiting ∧ ctx.waitReason = none) :=
        fun ⟨waiting, none'⟩ => reason waiting none'
      simp [perform, apply, transition, can, reason', Except.map]

theorem perform_ok {task after : Task} {action : Action}
    (ok : action.perform task = .ok after) :
    action.Allowed task ∧ after = action.apply task := by
  cases action with
  | write patch =>
      cases ok
      exact ⟨trivial, rfl⟩
  | move target ctx =>
      cases moved : transition task target ctx with
      | error =>
          rw [perform, moved] at ok
          contradiction
      | ok result =>
          rw [perform, moved] at ok
          cases ok
          have ⟨can, same, _⟩ := transition_ok moved
          constructor
          · constructor
            · exact can
            · intro waiting none'
              rw [transition, if_neg (by simp [can]), if_pos ⟨waiting, none'⟩] at moved
              contradiction
          · exact same

theorem performAll_eq_ok {task : Task} {actions : List Action}
    (allowed : AllowedAll task actions) : performAll task actions = .ok (applyAll task actions) := by
  induction actions generalizing task with
  | nil => rfl
  | cons action rest ih =>
      have ⟨first, others⟩ := allowed
      rw [performAll, List.foldlM_cons, perform_eq_ok first]
      exact ih others

theorem performAll_ok {task after : Task} {actions : List Action}
    (ok : performAll task actions = .ok after) :
    AllowedAll task actions ∧ after = applyAll task actions := by
  induction actions generalizing task with
  | nil =>
      cases ok
      exact ⟨trivial, rfl⟩
  | cons action rest ih =>
      rw [performAll, List.foldlM_cons] at ok
      cases done : action.perform task with
      | error =>
          rw [done] at ok
          contradiction
      | ok next =>
          rw [done] at ok
          have ⟨allowed, same⟩ := perform_ok done
          subst same
          have ⟨others, result⟩ := ih ok
          exact ⟨⟨allowed, others⟩, result⟩

@[simp] theorem apply_write_status (task : Task) (patch : Patch) :
    (patch.apply task).status = task.status := by
  cases patch <;> rfl

theorem allowedAll_iff (task : Task) (actions : List Action) :
    AllowedAll task actions ↔ AllowedFrom task.status actions := by
  induction actions generalizing task with
  | nil => rfl
  | cons action rest ih =>
      cases action with
      | write patch => simp [AllowedAll, AllowedFrom, Allowed, apply, ih]
      | move target ctx => simp [AllowedAll, AllowedFrom, Allowed, apply, ih]

theorem AllowedFrom.take {status : Status} {actions : List Action}
    (allowed : AllowedFrom status actions) (count : Nat) :
    AllowedFrom status (actions.take count) := by
  induction actions generalizing status count with
  | nil => simp [AllowedFrom]
  | cons action rest ih =>
      cases count with
      | zero => trivial
      | succ count =>
          cases action with
          | write patch => exact ih allowed count
          | move target ctx => exact ⟨allowed.1, ih allowed.2 count⟩

theorem AllowedAll.append {task : Task} {first second : List Action}
    (allowed : AllowedAll task first) (goesOn : AllowedAll (applyAll task first) second) :
    AllowedAll task (first ++ second) := by
  induction first generalizing task with
  | nil => exact goesOn
  | cons action rest ih => exact ⟨allowed.1, ih allowed.2 goesOn⟩

theorem applyAll_append (task : Task) (first second : List Action) :
    applyAll task (first ++ second) = applyAll (applyAll task first) second :=
  List.foldl_append

/-- What holds of a record holds after the action. -/
def Keeps (holds : Task → Prop) (action : Action) : Prop :=
  ∀ task, holds task → action.Allowed task → holds (action.apply task)

/-- What every action of a row keeps, the row keeps. -/
theorem applyAll_keeps {holds : Task → Prop} {actions : List Action}
    (keeps : ∀ action ∈ actions, action.Keeps holds)
    {task : Task} (start : holds task) (allowed : AllowedAll task actions) :
    holds (applyAll task actions) := by
  induction actions generalizing task with
  | nil => exact start
  | cons action rest ih =>
      have ⟨first, others⟩ := allowed
      apply ih
      · intro other inside
        exact keeps other (List.mem_cons_of_mem _ inside)
      · exact keeps action List.mem_cons_self task start first
      · exact others

@[simp] theorem apply_id (task : Task) (action : Action) : (action.apply task).id = task.id := by
  cases action with
  | write patch => cases patch <;> rfl
  | move target ctx => exact moveTask_id task target ctx

@[simp] theorem applyAll_id (task : Task) (actions : List Action) :
    (applyAll task actions).id = task.id := by
  induction actions generalizing task with
  | nil => rfl
  | cons action rest ih =>
      rw [applyAll, List.foldl_cons, ← applyAll, ih, apply_id]

@[simp] theorem apply_issueNumber (task : Task) (action : Action) :
    (action.apply task).issueNumber = task.issueNumber := by
  cases action with
  | write patch => cases patch <;> rfl
  | move target ctx => exact moveTask_issueNumber task target ctx

@[simp] theorem applyAll_issueNumber (task : Task) (actions : List Action) :
    (applyAll task actions).issueNumber = task.issueNumber := by
  induction actions generalizing task with
  | nil => rfl
  | cons action rest ih =>
      rw [applyAll, List.foldl_cons, ← applyAll, ih, apply_issueNumber]

/-- A record came out of another by actions of a list. -/
def Moved (all : List Action) (task after : Task) : Prop :=
  ∃ actions, actions ⊆ all ∧ AllowedAll task actions ∧ after = applyAll task actions

namespace Moved

theorem refl (all : List Action) (task : Task) : Moved all task task :=
  ⟨[], List.nil_subset all, trivial, rfl⟩

theorem trans {all : List Action} {first second third : Task} (left : Moved all first second)
    (right : Moved all second third) : Moved all first third := by
  have ⟨earlier, inside, allowed, same⟩ := left
  have ⟨later, inside', allowed', same'⟩ := right
  refine ⟨earlier ++ later, List.append_subset.2 ⟨inside, inside'⟩, ?_, ?_⟩
  · exact allowed.append (same ▸ allowed')
  · rw [applyAll_append, ← same]
    exact same'

theorem mono {all more : List Action} {task after : Task} (inside : all ⊆ more)
    (moved : Moved all task after) : Moved more task after := by
  have ⟨actions, among, rest⟩ := moved
  exact ⟨actions, List.Subset.trans among inside, rest⟩

theorem of_allowed {task : Task} {actions : List Action} (allowed : AllowedAll task actions) :
    Moved actions task (applyAll task actions) :=
  ⟨actions, List.Subset.refl actions, allowed, rfl⟩

/-- What every action of the list keeps, holds of the record that came out. -/
theorem keeps {all : List Action} {task after : Task} {holds : Task → Prop}
    (moved : Moved all task after) (kept : ∀ action ∈ all, action.Keeps holds)
    (start : holds task) : holds after := by
  have ⟨actions, inside, allowed, same⟩ := moved
  rw [same]
  exact applyAll_keeps (fun action among => kept action (inside among)) start allowed

end Moved

end Action

end TitanRunner
