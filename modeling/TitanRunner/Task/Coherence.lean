import Mathlib.Data.List.Chain
import TitanRunner.Task.Actions

/-!
# Coherent task records

The fields of a record that go with its status: the wait reason and wake time, the end time,
and the recorded history.
-/

namespace TitanRunner

/-- A history that a record in a status may carry: moves that `TRANSITIONS` allows, each from
where the one before it led, and the last to the status.  A record without any was never
moved. -/
structure Recorded (history : List HistoryEntry) (status : Status) : Prop where
  allowed : ∀ entry ∈ history, ∃ from', entry.from' = some from' ∧
    canTransition from' entry.to' = true
  linked : history.IsChain fun entry next => next.from' = some entry.to'
  ends : ∀ entry ∈ history.getLast?, entry.to' = status
  unmoved : history = [] → status = .pending
  bounded : history.length ≤ maxHistory

structure Coherent (task : Task) : Prop where
  /-- The wait fields are set only while the task waits. -/
  awake : task.status ≠ .waiting → task.waitReason = none ∧ task.wakeAt = none
  asleep : task.status = .waiting → task.waitReason.isSome = true ∧ task.wakeAt.isSome = true
  /-- The end is set exactly while the task has ended or its pull request is open. -/
  ended : task.completedAt.isSome = true ↔ isTerminal task.status = true ∨ task.status = .prOpen
  recorded : Recorded task.history task.status

namespace Coherent

/-- A record as it is taken in. -/
theorem of_new {task : Task} (status : task.status = .pending)
    (waitReason : task.waitReason = none) (wakeAt : task.wakeAt = none)
    (completedAt : task.completedAt = none) (history : task.history = []) : Coherent task where
  awake _ := ⟨waitReason, wakeAt⟩
  asleep waiting := by
    rw [status] at waiting
    contradiction
  ended := by
    rw [completedAt, status]
    decide
  recorded := {
    allowed := by simp [history]
    linked := by simp [history]
    ends := by simp [history]
    unmoved := fun _ => status
    bounded := by simp [history] }

/-- Direct writes touch none of the fields. -/
theorem write {task : Task} (coherent : Coherent task) (patch : Patch) :
    Coherent (patch.apply task) := by
  cases patch <;> exact ⟨coherent.awake, coherent.asleep, coherent.ended, coherent.recorded⟩

end Coherent

/-- A move adds itself to the history. -/
theorem Recorded.move {task : Task} {target : Status} (ctx : TransitionContext)
    (recorded : Recorded task.history task.status)
    (allowed : canTransition task.status target = true) :
    Recorded (moveTask task target ctx).history target := by
  rw [moveTask_history]
  have room : task.history.length + 1 - maxHistory ≤ task.history.length := by
    have bounded := recorded.bounded
    have some' : 0 < maxHistory := by decide
    omega
  rw [List.drop_append_of_le_length room]
  constructor
  · intro entry inside
    rw [List.mem_append, List.mem_singleton] at inside
    cases inside with
    | inl old => exact recorded.allowed entry (List.mem_of_mem_drop old)
    | inr new =>
        subst new
        exact ⟨task.status, rfl, allowed⟩
  · apply (recorded.linked.drop _).append (List.isChain_singleton _)
    intro last atEnd first atStart
    cases atStart
    have lastEntry : last ∈ task.history.getLast? := by
      rw [List.getLast?_drop] at atEnd
      split at atEnd
      next => contradiction
      next => exact atEnd
    rw [recorded.ends last lastEntry]
  · intro entry last
    rw [List.getLast?_append_of_ne_nil _ (List.cons_ne_nil _ _)] at last
    cases last
    rfl
  · intro none'
    simp at none'
  · have bounded := recorded.bounded
    rw [List.length_append, List.length_drop, List.length_singleton]
    omega

/-- A move that leaves the end time alone starts from a record that has not ended. -/
theorem unended_of_canTransition {from' target : Status}
    (allowed : canTransition from' target = true)
    (goesOn : ¬(isTerminal target = true ∨ target = .prOpen))
    (kept : ¬(target = .running ∨ (target = .pending ∧
      from' ≠ .waiting ∧ from' ≠ .paused ∧ from' ≠ .running))) :
    ¬(isTerminal from' = true ∨ from' = .prOpen) := by
  revert allowed goesOn kept
  cases from' <;> cases target <;> decide

theorem Coherent.move {task : Task} {target : Status} {ctx : TransitionContext}
    (coherent : Coherent task) (allowed : canTransition task.status target = true)
    (reason : target = .waiting → ctx.waitReason ≠ none) :
    Coherent (moveTask task target ctx) where
  awake := by
    rw [moveTask_status, moveTask_waitReason, moveTask_wakeAt]
    intro elsewhere
    rw [if_neg elsewhere, if_neg elsewhere]
    exact ⟨rfl, rfl⟩
  asleep := by
    rw [moveTask_status, moveTask_waitReason, moveTask_wakeAt]
    intro waiting
    rw [if_pos waiting, if_pos waiting]
    exact ⟨Option.isSome_iff_ne_none.2 (reason waiting), rfl⟩
  ended := by
    rw [moveTask_status, moveTask_completedAt]
    split
    next ends => simpa using ends
    next goesOn =>
      have goesOn' : ¬(isTerminal target = true ∨ target = .prOpen) := by simpa using goesOn
      apply iff_of_false _ goesOn'
      split
      next => simp
      next kept =>
        intro ended
        exact unended_of_canTransition allowed goesOn' kept (coherent.ended.1 ended)
  recorded := by
    rw [moveTask_status]
    exact coherent.recorded.move ctx allowed

/-- Every action keeps a record coherent. -/
theorem Coherent.apply {task : Task} (coherent : Coherent task) {action : Action}
    (allowed : action.Allowed task) : Coherent (action.apply task) := by
  cases action with
  | write patch => exact coherent.write patch
  | move target ctx => exact coherent.move allowed.1 allowed.2

end TitanRunner
