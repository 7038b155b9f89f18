import TitanRunner.Task.Lifecycle

/-!
# Retention of finished tasks

`archiveOldTasks` of `state/store.js`: records that ended long ago leave the queue for the
monthly archive.
-/

namespace TitanRunner

namespace Archive

structure Options where
  maxAgeDays : Nat := 30
  keepMin : Nat := 20

/-- The record ended more than `maxAgeDays` ago. -/
def isOld (now : Time) (options : Options) (task : Task) : Bool :=
  isTerminal task.status &&
    task.completedAt.any fun done => decide ((options.maxAgeDays : Int) * 86400000 < now - done)

/-- `archiveOldTasks`: the queue and what goes to the archive. -/
def archiveOldTasks (now : Time) (options : Options) (tasks : List Task) :
    List Task × List Task :=
  let keep := tasks.filter fun task => !isOld now options task
  let archive := tasks.filter (isOld now options)
  if archive.isEmpty || decide (keep.length < options.keepMin) then (tasks, [])
  else (keep, archive)

/-- Every record stays in the queue or is archived, and what is archived has ended. -/
theorem archiveOldTasks_cases (now : Time) (options : Options) (tasks : List Task) :
    archiveOldTasks now options tasks = (tasks, []) ∨
      archiveOldTasks now options tasks =
        (tasks.filter fun task => !isOld now options task, tasks.filter (isOld now options)) := by
  unfold archiveOldTasks
  dsimp only
  split
  next => exact .inl rfl
  next => exact .inr rfl

theorem mem_archiveOldTasks {now : Time} {options : Options} {tasks : List Task} {task : Task}
    (kept : task ∈ (archiveOldTasks now options tasks).1) : task ∈ tasks := by
  cases archiveOldTasks_cases now options tasks with
  | inl same => rwa [same] at kept
  | inr moved =>
      rw [moved] at kept
      exact (List.mem_filter.1 kept).1

theorem isTerminal_of_archived {now : Time} {options : Options} {tasks : List Task} {task : Task}
    (archived : task ∈ (archiveOldTasks now options tasks).2) :
    task ∈ tasks ∧ isTerminal task.status = true := by
  cases archiveOldTasks_cases now options tasks with
  | inl same => simp [same] at archived
  | inr moved =>
      rw [moved, List.mem_filter, isOld, Bool.and_eq_true] at archived
      exact ⟨archived.1, archived.2.1⟩

end Archive

end TitanRunner
