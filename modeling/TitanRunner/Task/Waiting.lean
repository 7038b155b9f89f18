import TitanRunner.Lib.Acyclic
import TitanRunner.Lib.KeyedList
import TitanRunner.Task.Actions

/-!
# Tasks that wait for others

A record in `waiting(dependency)` without a TTL or a deadline leaves that status only through
its dependencies.
-/

namespace TitanRunner

/-- The task waits for its dependencies, and no date ends the wait. -/
structure Awaits (task : Task) : Prop where
  waiting : task.status = .waiting
  dependency : task.waitReason = some .dependency
  noTtl : task.expiresAt = none
  noDeadline : task.deadline = none

/-- The record of the first id waits for the second one. -/
def WaitsFor (tasks : List Task) (id other : TaskId) : Prop :=
  ∃ task, KeyedList.get Task.id tasks id = some task ∧ Awaits task ∧ other ∈ task.dependsOn

/-- The move into `waiting(dependency)`. -/
def Action.Parks : Action → Prop
  | .write _ => False
  | .move target ctx => target = .waiting ∧ ctx.waitReason = some .dependency

/-- What becomes of a record by other actions. -/
structure Unparked (task after : Task) : Prop where
  id : after.id = task.id
  dependsOn : after.dependsOn = task.dependsOn
  awaits : Awaits after → Awaits task

namespace Unparked

theorem refl (task : Task) : Unparked task task := ⟨rfl, rfl, fun awaits => awaits⟩

theorem write {task after : Task} (patch : Patch) (unparked : Unparked task after) :
    Unparked task (patch.apply after) where
  id := by cases patch <;> exact unparked.id
  dependsOn := by cases patch <;> exact unparked.dependsOn
  awaits awaits := by
    apply unparked.awaits
    cases patch <;>
      exact ⟨awaits.waiting, awaits.dependency, awaits.noTtl, awaits.noDeadline⟩

theorem move {task after : Task} {target : Status} {ctx : TransitionContext}
    (other : ¬ Action.Parks (.move target ctx)) (unparked : Unparked task after) :
    Unparked task (moveTask after target ctx) where
  id := by
    rw [moveTask_id]
    exact unparked.id
  dependsOn := by
    rw [moveTask_dependsOn]
    exact unparked.dependsOn
  awaits awaits := by
    have waiting := awaits.waiting
    have dependency := awaits.dependency
    rw [moveTask_status] at waiting
    rw [moveTask_waitReason, if_pos waiting] at dependency
    exact absurd ⟨waiting, dependency⟩ other

theorem of_moved {all : List Action} {task after : Task} (moved : Action.Moved all task after)
    (others : ∀ action ∈ all, ¬ action.Parks) : Unparked task after := by
  have kept : ∀ action ∈ all, action.Keeps (Unparked task) := by
    intro action inside middle unparked _
    cases action with
    | write patch => exact unparked.write patch
    | move target ctx => exact unparked.move (others _ inside)
  exact moved.keeps kept (refl task)

end Unparked

/-! ## Queues in which every wait can end -/

/-- Whoever waits for others has them in the queue, and no two wait for each other. -/
structure Hopeful (tasks : List Task) : Prop where
  present : ∀ task ∈ tasks, Awaits task → ∀ id ∈ task.dependsOn, id ∈ tasks.map Task.id
  acyclic : Acyclicity.Acyclic (WaitsFor tasks)

namespace Hopeful

theorem nil : Hopeful [] where
  present := by simp
  acyclic node cycle := by
    have ⟨_, step, _⟩ := Relation.TransGen.head'_iff.1 cycle
    have ⟨_, found, _⟩ := step
    contradiction

/-- Records that are not parked, and new ones that do not wait. -/
theorem unparked {tasks records fresh : List Task} (hopeful : Hopeful tasks)
    (each : List.Forall₂ Unparked tasks records) (awake : ∀ task ∈ fresh, ¬ Awaits task) :
    Hopeful (records ++ fresh) := by
  have keeps : ∀ before after, Unparked before after → after.id = before.id :=
    fun _ _ unparked => unparked.id
  have keys := KeyedList.keys_eq_of_forall₂ keeps each
  constructor
  · intro task inside awaits id depends
    rw [List.map_append, keys, List.mem_append]
    cases List.mem_append.1 inside with
    | inr new => exact absurd awaits (awake task new)
    | inl old =>
        have ⟨before, among, same⟩ := KeyedList.exists_of_forall₂ each old
        exact .inl (hopeful.present before among (same.awaits awaits) id (same.dependsOn ▸ depends))
  · apply hopeful.acyclic.mono
    intro id other ⟨task, found, awaits, depends⟩
    rw [KeyedList.get_append] at found
    cases new : KeyedList.get Task.id fresh id with
    | some record =>
        rw [new, Option.some_or] at found
        cases found
        exact absurd awaits (awake task (KeyedList.mem_of_get new))
    | none =>
        rw [new, Option.none_or] at found
        have ⟨before, held, same⟩ := KeyedList.get_of_forall₂ keeps each found
        exact ⟨before, held, same.awaits awaits, same.dependsOn ▸ depends⟩

/-- One record starts to wait for others that are there and do not wait for it. -/
theorem park {tasks : List Task} (hopeful : Hopeful tasks) {index : Nat} {task after : Task}
    (found : tasks[index]? = some task) (id : after.id = task.id)
    (dependsOn : after.dependsOn = task.dependsOn)
    (there : ∀ other ∈ task.dependsOn, other ∈ tasks.map Task.id)
    (apart : ∀ other ∈ task.dependsOn,
      ¬ Relation.ReflTransGen (WaitsFor tasks) other task.id) :
    Hopeful (tasks.set index after) := by
  have keeps : ∀ before record : Task, record = before ∨ before = task ∧ record = after →
      record.id = before.id := by
    intro before record change
    cases change with
    | inl same => rw [same]
    | inr parked => rw [parked.1, parked.2, id]
  have each : List.Forall₂ (fun before record => record = before ∨ before = task ∧ record = after)
      tasks (tasks.set index after) :=
    KeyedList.forall₂_set (fun _ => .inl rfl) found (.inr ⟨rfl, rfl⟩)
  constructor
  · intro record inside awaits other depends
    rw [KeyedList.keys_eq_of_forall₂ keeps each]
    have ⟨before, among, change⟩ := KeyedList.exists_of_forall₂ each inside
    cases change with
    | inl same => exact hopeful.present before among (same ▸ awaits) other (same ▸ depends)
    | inr parked => exact there other (dependsOn ▸ parked.2 ▸ depends)
  · refine hopeful.acyclic.extend (?_ : ∀ first other, WaitsFor _ first other →
      WaitsFor tasks first other ∨
        first = task.id ∧ ¬ Relation.ReflTransGen (WaitsFor tasks) other task.id)
    intro first other ⟨record, held, awaits, depends⟩
    have ⟨before, held', change⟩ := KeyedList.get_of_forall₂ keeps each held
    cases change with
    | inl same => exact .inl ⟨before, held', same ▸ awaits, same ▸ depends⟩
    | inr parked =>
        right
        constructor
        · rw [← KeyedList.key_of_get held', parked.1]
        · exact apart other (dependsOn ▸ parked.2 ▸ depends)

/-- Records are taken away that nobody waits for. -/
theorem filter {tasks : List Task} (hopeful : Hopeful tasks) {keep : Task → Bool}
    (needed : ∀ task ∈ tasks, Awaits task → ∀ dep ∈ tasks, dep.id ∈ task.dependsOn →
      keep dep = true) : Hopeful (tasks.filter keep) := by
  constructor
  · intro task inside awaits id depends
    have among := (List.mem_filter.1 inside).1
    have ⟨dep, there, same⟩ := List.mem_map.1 (hopeful.present task among awaits id depends)
    have kept := needed task among awaits dep there (same ▸ depends)
    exact List.mem_map.2 ⟨dep, List.mem_filter.2 ⟨there, kept⟩, same⟩
  · apply hopeful.acyclic.of_entered
    intro first middle last ⟨task, held, awaits, depends⟩ ⟨dep, held', awaits', depends'⟩
    -- every record of an id that is waited for stays
    have among := (List.mem_filter.1 (KeyedList.mem_of_get held)).1
    have stays : KeyedList.get Task.id (tasks.filter keep) middle =
        KeyedList.get Task.id tasks middle := by
      unfold KeyedList.get
      rw [← List.filter_reverse, List.find?_filter]
      apply List.find?_congr
      intro record inside
      by_cases same : record.id = middle
      · have kept := needed task among awaits record (List.mem_reverse.1 inside) (same ▸ depends)
        simp [same, kept]
      · simp [same]
    exact ⟨dep, stays ▸ held', awaits', depends'⟩

/-- The ids are renamed and still told apart. -/
theorem map {tasks : List Task} (hopeful : Hopeful tasks) {change : Task → Task}
    {rename : TaskId → TaskId} (id : ∀ task, (change task).id = rename task.id)
    (dependsOn : ∀ task, (change task).dependsOn = task.dependsOn.map rename)
    (awaits : ∀ task, Awaits (change task) → Awaits task)
    (apart : ∀ first ∈ tasks.map Task.id, ∀ second ∈ tasks.map Task.id,
      rename first = rename second → first = second) : Hopeful (tasks.map change) := by
  have keys : (tasks.map change).map Task.id = (tasks.map Task.id).map rename := by
    rw [List.map_map, List.map_map]
    exact List.map_congr_left fun task _ => id task
  constructor
  · intro task inside waits other depends
    have ⟨before, among, same⟩ := List.mem_map.1 inside
    rw [← same, dependsOn] at depends
    have ⟨old, depends', same'⟩ := List.mem_map.1 depends
    rw [keys, ← same']
    exact List.mem_map_of_mem (hopeful.present before among (awaits _ (same ▸ waits)) old depends')
  · apply hopeful.acyclic.rename rename { other | other ∈ tasks.map Task.id }
    · exact fun first inside second inside' same => apart first inside second inside' same
    · intro first last ⟨task, held, waits, depends⟩
      have changed : KeyedList.get Task.id (tasks.map change) first =
          (KeyedList.get (fun task => rename task.id) tasks first).map change :=
        KeyedList.get_map Task.id change id
      rw [changed] at held
      have ⟨before, held', same⟩ := Option.map_eq_some_iff.1 held
      have among := KeyedList.mem_of_get held'
      have named := KeyedList.key_of_get held'
      change rename before.id = first at named
      have renamed : KeyedList.get (fun task => rename task.id) tasks (rename before.id) =
          KeyedList.get Task.id tasks before.id :=
        KeyedList.get_rename rename fun record inside same =>
          apart record.id (List.mem_map_of_mem inside) before.id (List.mem_map_of_mem among) same
      rw [← named, renamed] at held'
      rw [← same, dependsOn] at depends
      have ⟨other, depends', renamed⟩ := List.mem_map.1 depends
      have waits' := awaits before (same ▸ waits)
      exact ⟨before.id, List.mem_map_of_mem among, other,
        hopeful.present before among waits' other depends', named, renamed,
        before, held', waits', depends'⟩

/-- Among tasks that wait for others, one waits only for some that do not. -/
theorem exists_free {tasks : List Task} (hopeful : Hopeful tasks) {task : Task}
    (inside : task ∈ tasks) (awaits : Awaits task) :
    ∃ task ∈ tasks, Awaits task ∧ ∀ id ∈ task.dependsOn,
      ∃ dep, KeyedList.get Task.id tasks id = some dep ∧ ¬ Awaits dep := by
  have ⟨held, holds⟩ := KeyedList.exists_get_iff.2 (List.mem_map_of_mem (f := Task.id) inside)
  let nodes : Set TaskId := { id | ∃ task, KeyedList.get Task.id tasks id = some task ∧ Awaits task }
  have finite : nodes.Finite := by
    apply (List.finite_toSet (tasks.map Task.id)).subset
    intro id ⟨task, found, _⟩
    exact KeyedList.mem_keys_of_get found
  -- the dependencies of a task that none of the waiting ones is among
  have free : ∀ task ∈ tasks, Awaits task → (∀ id ∈ task.dependsOn, id ∉ nodes) →
      ∀ id ∈ task.dependsOn, ∃ dep, KeyedList.get Task.id tasks id = some dep ∧ ¬ Awaits dep := by
    intro task inside awaits away id depends
    have ⟨dep, found⟩ := KeyedList.exists_get_iff.2 (hopeful.present task inside awaits id depends)
    exact ⟨dep, found, fun waits => away id depends ⟨dep, found, waits⟩⟩
  by_cases away : ∀ id ∈ task.dependsOn, id ∉ nodes
  · exact ⟨task, inside, awaits, free task inside awaits away⟩
  · have some' : nodes.Nonempty := by
      by_contra none'
      exact away fun id _ among => none' ⟨id, among⟩
    have ⟨last, ⟨record, found, waits⟩, lowest⟩ := hopeful.acyclic.exists_last finite some'
    have among := KeyedList.mem_of_get found
    refine ⟨record, among, waits, free record among waits ?_⟩
    intro id depends node
    exact lowest id node ⟨record, found, waits, depends⟩

end Hopeful

end TitanRunner
