import TitanRunner.Engine.RunTask
import TitanRunner.State.Archive
import TitanRunner.Task.Reconcile

/-!
# What the retention does to the tasks that stay

The sweep and the claims look a dependency up in the queue alone, so a task that waits for a
record the retention takes away finds nothing in its place.
-/

namespace TitanRunner

namespace Archive

/-- The sweep and the claims do the same about a record, whichever of two queues they look
its dependencies up in. -/
def Alike (record : Task) (left right : List Task) : Prop :=
  (∀ turn : RunTask.Turn, turn.actions left record = turn.actions right record) ∧
    ∀ ctx file, Reconcile.reconcileTask ctx file left record =
      Reconcile.reconcileTask ctx file right record

/-- Every dependency is in a queue as complete. -/
def AllComplete (byId : List Task) (record : Task) : Prop :=
  ∀ id ∈ record.dependsOn,
    ∃ dep, KeyedList.get Task.id byId id = some dep ∧ dep.status = .complete

/-- The record is claimed in its turn, or woken by the sweep. -/
def MayRun (byId : List Task) (record : Task) : Prop :=
  Claim.dependencyState record byId = .ready ∧
    ∀ ctx, (Reconcile.awaitDependencies ctx byId record).counts = { woken := 1 }

/-- The complete records of the queue that went to the archive. -/
def archivedComplete (now : Time) (options : Options) (tasks : List Task) : List Task :=
  (archiveOldTasks now options tasks).2.filter fun dep =>
    decide (dep.status = .complete) && decide (KeyedList.get Task.id tasks dep.id = some dep)

/-- Whatever the queue has become later, the tasks that were pending or waiting are treated as
if what was archived complete were still in it. -/
def IsInvisible (now : Time) (options : Options) (tasks : List Task) : Prop :=
  ∀ task ∈ (archiveOldTasks now options tasks).1, task.status = .pending ∨ task.status = .waiting →
    ∀ later record, record ∈ later → record.id = task.id → record.dependsOn = task.dependsOn →
      Alike record later (archivedComplete now options tasks ++ later) ∧
        (AllComplete (archivedComplete now options tasks ++ later) record → MayRun later record)

section Lookup

variable {record : Task} {left right : List Task}

theorem dependencyState_congr (same : ∀ id ∈ record.dependsOn,
    KeyedList.get Task.id left id = KeyedList.get Task.id right id) :
    Claim.dependencyState record left = Claim.dependencyState record right := by
  have deps : record.dependsOn.map (KeyedList.get Task.id left) =
      record.dependsOn.map (KeyedList.get Task.id right) := List.map_congr_left same
  unfold Claim.dependencyState
  rw [deps]

theorem awaitDependencies_congr (ctx : Reconcile.Context) (same : ∀ id ∈ record.dependsOn,
    KeyedList.get Task.id left id = KeyedList.get Task.id right id) :
    Reconcile.awaitDependencies ctx left record =
      Reconcile.awaitDependencies ctx right record := by
  have found : Reconcile.dependencies left record = Reconcile.dependencies right record :=
    List.filterMap_congr same
  have complete : (record.dependsOn.all fun id =>
        (KeyedList.get Task.id left id).any fun dep => dep.status = .complete) =
      record.dependsOn.all fun id =>
        (KeyedList.get Task.id right id).any fun dep => dep.status = .complete := by
    rw [Bool.eq_iff_iff, List.all_eq_true, List.all_eq_true]
    exact forall₂_congr fun id inside => by rw [same id inside]
  unfold Reconcile.awaitDependencies
  rw [found, complete]

/-- Only what its dependencies find in the queue matters for a record. -/
theorem alike_of_get (same : ∀ id ∈ record.dependsOn,
    KeyedList.get Task.id left id = KeyedList.get Task.id right id) : Alike record left right := by
  constructor
  · intro turn
    unfold RunTask.Turn.actions
    rw [dependencyState_congr same]
  · intro ctx file
    unfold Reconcile.reconcileTask
    rw [awaitDependencies_congr ctx same]

theorem dependencyState_of_allComplete (complete : AllComplete left record) :
    Claim.dependencyState record left = .ready := by
  have present : ((record.dependsOn.map (KeyedList.get Task.id left)).any Option.isNone) =
      false := by
    rw [List.any_eq_false]
    intro dep inside
    have ⟨id, among, found⟩ := List.mem_map.1 inside
    have ⟨dep', there, _⟩ := complete id among
    simp [← found, there]
  have unfailed : ((record.dependsOn.map (KeyedList.get Task.id left)).any fun dep =>
      dep.any fun dep => isTerminal dep.status && decide (dep.status ≠ .complete)) = false := by
    rw [List.any_eq_false]
    intro dep inside
    have ⟨id, among, found⟩ := List.mem_map.1 inside
    have ⟨dep', there, done⟩ := complete id among
    simp [← found, there, done]
  have all : ((record.dependsOn.map (KeyedList.get Task.id left)).all fun dep =>
      dep.any fun dep => dep.status = .complete) = true := by
    rw [List.all_eq_true]
    intro dep inside
    have ⟨id, among, found⟩ := List.mem_map.1 inside
    have ⟨dep', there, done⟩ := complete id among
    simp [← found, there, done]
  unfold Claim.dependencyState
  dsimp only
  rw [present, unfailed, all, if_neg Bool.false_ne_true, if_neg Bool.false_ne_true, if_pos rfl]

theorem awaitDependencies_of_allComplete (complete : AllComplete left record)
    (ctx : Reconcile.Context) :
    (Reconcile.awaitDependencies ctx left record).counts = { woken := 1 } := by
  have unfailed : (Reconcile.dependencies left record).find? Reconcile.hasFailed = none := by
    rw [List.find?_eq_none]
    intro dep inside
    have ⟨id, among, found⟩ := List.mem_filterMap.1 inside
    have ⟨dep', there, done⟩ := complete id among
    rw [there] at found
    cases found
    simp [Reconcile.hasFailed, done]
  have all : (record.dependsOn.all fun id =>
      (KeyedList.get Task.id left id).any fun dep => dep.status = .complete) = true := by
    rw [List.all_eq_true]
    intro id among
    have ⟨dep, there, done⟩ := complete id among
    simp [there, done]
  unfold Reconcile.awaitDependencies
  rw [unfailed, all, if_pos rfl]

end Lookup

section Step

variable {now : Time} {options : Options} {tasks : List Task}

/-- What the retention took away as complete. -/
theorem mem_archivedComplete {dep : Task} : dep ∈ archivedComplete now options tasks ↔
    options.keepMin ≤ (tasks.filter fun task => !isOld now options task).length ∧ dep ∈ tasks ∧
      isOld now options dep = true ∧ dep.status = .complete ∧
        KeyedList.get Task.id tasks dep.id = some dep := by
  unfold archivedComplete archiveOldTasks
  dsimp only
  rw [List.mem_filter, Bool.and_eq_true, decide_eq_true_eq, decide_eq_true_eq]
  by_cases few : (tasks.filter fun task => !isOld now options task).length < options.keepMin
  · simp [few]
  · by_cases none' : (tasks.filter (isOld now options)).isEmpty = true
    · have young : dep ∈ tasks → isOld now options dep = false := by
        intro inside
        rw [List.isEmpty_iff, List.filter_eq_nil_iff] at none'
        simpa using none' dep inside
      rw [if_pos (by rw [none', Bool.true_or])]
      constructor
      · intro ⟨inside, _⟩
        contradiction
      · intro ⟨_, inside, old, _⟩
        rw [young inside] at old
        contradiction
    · rw [if_neg (by simp [few, none']), List.mem_filter]
      constructor
      · intro ⟨⟨inside, old⟩, rest⟩
        exact ⟨Nat.le_of_not_lt few, inside, old, rest⟩
      · intro ⟨_, inside, old, rest⟩
        exact ⟨⟨inside, old⟩, rest⟩

/-- A record that has not ended stays. -/
theorem mem_of_live {task : Task} (live : task.status = .pending ∨ task.status = .waiting) :
    task ∈ (archiveOldTasks now options tasks).1 ↔ task ∈ tasks := by
  constructor
  · exact mem_archiveOldTasks
  · intro inside
    have young : isOld now options task = false := by
      cases live with
      | inl pending => rw [isOld, pending]; rfl
      | inr waiting => rw [isOld, waiting]; rfl
    cases archiveOldTasks_cases now options tasks with
    | inl same => rwa [same]
    | inr moved =>
        rw [moved, List.mem_filter, young]
        exact ⟨inside, rfl⟩

/-- A later lookup finds what the queue holds by then, and else what was archived. -/
theorem get_archivedComplete_append (later : List Task) (id : TaskId) :
    KeyedList.get Task.id (archivedComplete now options tasks ++ later) id =
      (KeyedList.get Task.id later id).or
        (KeyedList.get Task.id (archivedComplete now options tasks) id) :=
  KeyedList.get_append _ _

/-- The retention takes no record away as complete that a task which stays depends on. -/
def ShedsNoDependency (now : Time) (options : Options) (tasks : List Task) : Prop :=
  options.keepMin ≤ (tasks.filter fun task => !isOld now options task).length →
    ∀ task ∈ tasks, task.status = .pending ∨ task.status = .waiting →
      ∀ dep ∈ tasks, isOld now options dep = true → dep.status = .complete →
        KeyedList.get Task.id tasks dep.id = some dep → dep.id ∈ task.dependsOn → dep.id = task.id

theorem get_archivedComplete_eq_none (sheds : ShedsNoDependency now options tasks) {task : Task}
    (inside : task ∈ tasks) (live : task.status = .pending ∨ task.status = .waiting) {id : TaskId}
    (depends : id ∈ task.dependsOn) (other : id ≠ task.id) :
    KeyedList.get Task.id (archivedComplete now options tasks) id = none := by
  rw [KeyedList.get_eq_none_iff, List.mem_map]
  intro ⟨dep, archived, same⟩
  have ⟨room, there, old, complete, held⟩ := mem_archivedComplete.1 archived
  apply other
  rw [← same] at depends ⊢
  exact sheds room task inside live dep there old complete held depends

/-- A queue in which a dependency is gone and every other one is complete. -/
def laterQueue (task : Task) (gone : TaskId) : List Task :=
  task :: (task.dependsOn.filter (· ≠ gone)).map fun id => { id, status := .complete }

theorem get_laterQueue_gone {task : Task} {gone : TaskId} (other : gone ≠ task.id) :
    KeyedList.get Task.id (laterQueue task gone) gone = none := by
  rw [KeyedList.get_eq_none_iff, laterQueue, List.map_cons, List.mem_cons, not_or]
  constructor
  · exact other
  · simp

theorem get_laterQueue {task : Task} {gone id : TaskId} (depends : id ∈ task.dependsOn)
    (stays : id ≠ gone) : ∃ dep, KeyedList.get Task.id (laterQueue task gone) id = some dep ∧
      dep.status = .complete := by
  have keyed : id ∈ ((task.dependsOn.filter (· ≠ gone)).map fun id =>
      ({ id, status := .complete } : Task)).map Task.id := by
    simp [depends, stays]
  have ⟨dep, found⟩ := KeyedList.exists_get_iff.2 keyed
  refine ⟨dep, ?_, ?_⟩
  · rw [laterQueue, KeyedList.get_cons, found, Option.some_or]
  · have ⟨_, _, same⟩ := List.mem_map.1 (KeyedList.mem_of_get found)
    rw [← same]

theorem dependencyState_missing {record : Task} {byId : List Task} {id : TaskId}
    (depends : id ∈ record.dependsOn) (gone : KeyedList.get Task.id byId id = none) :
    Claim.dependencyState record byId = .missing := by
  have missing : ((record.dependsOn.map (KeyedList.get Task.id byId)).any Option.isNone) =
      true := by
    rw [List.any_eq_true]
    exact ⟨none, List.mem_map.2 ⟨id, depends, gone⟩, rfl⟩
  unfold Claim.dependencyState
  dsimp only
  rw [missing, if_pos rfl]

/-- The retention is invisible to the tasks that stay exactly when it takes away none of their
dependencies. -/
theorem isInvisible_iff : IsInvisible now options tasks ↔ ShedsNoDependency now options tasks := by
  constructor
  · intro invisible room task inside live dep there old complete held depends
    by_contra other
    have archived : dep ∈ archivedComplete now options tasks :=
      mem_archivedComplete.2 ⟨room, there, old, complete, held⟩
    have ⟨_, runs⟩ := invisible task ((mem_of_live live).2 inside) live
      (laterQueue task dep.id) task List.mem_cons_self rfl rfl
    have all : AllComplete (archivedComplete now options tasks ++ laterQueue task dep.id) task := by
      intro id depends'
      rw [get_archivedComplete_append]
      by_cases same : id = dep.id
      · have keyed : id ∈ (archivedComplete now options tasks).map Task.id := by
          rw [same]
          exact List.mem_map_of_mem archived
        have ⟨found, holds⟩ := KeyedList.exists_get_iff.2 keyed
        rw [same, get_laterQueue_gone other, Option.none_or, ← same]
        exact ⟨found, holds, (mem_archivedComplete.1 (KeyedList.mem_of_get holds)).2.2.2.1⟩
      · have ⟨found, holds, done⟩ := get_laterQueue depends' same
        exact ⟨found, by rw [holds, Option.some_or], done⟩
    have missing := dependencyState_missing depends (get_laterQueue_gone other)
    rw [(runs all).1] at missing
    contradiction
  · intro sheds task kept live later record inside same depends
    have there := (mem_of_live live).1 kept
    have found : ∀ id ∈ record.dependsOn, KeyedList.get Task.id later id =
        KeyedList.get Task.id (archivedComplete now options tasks ++ later) id := by
      intro id among
      rw [get_archivedComplete_append]
      by_cases own : id = task.id
      · -- the record itself is in the later queue
        have keyed : id ∈ later.map Task.id := by
          rw [own, ← same]
          exact List.mem_map_of_mem inside
        have ⟨dep, holds⟩ := KeyedList.exists_get_iff.2 keyed
        rw [holds, Option.some_or]
      · rw [get_archivedComplete_eq_none sheds there live (depends ▸ among) own, Option.or_none]
    refine ⟨alike_of_get found, ?_⟩
    intro all
    have all' : AllComplete later record := by
      intro id among
      rw [found id among]
      exact all id among
    exact ⟨dependencyState_of_allComplete all', awaitDependencies_of_allComplete all'⟩

end Step

def dependent : Task := { id := "issue-2", dependsOn := ["issue-1"] }

def dependency : Task := { id := "issue-1", status := .complete, completedAt := some 0 }

/-- A month-old result, the task that waits for it, and nineteen that were just done. -/
def shedding : List Task :=
  dependency :: dependent :: (List.range 19).map fun number =>
    { id := "issue-" ++ toString (number + 3), status := .complete
      completedAt := some 2600000000 }

/-- The task is dead-lettered for want of a dependency that did complete. -/
theorem not_isInvisible : ¬ ∀ now options tasks, IsInvisible now options tasks := by
  intro all
  have kept : dependent ∈ (archiveOldTasks 2678400000 {} shedding).1 := by decide
  have ⟨_, runs⟩ := all 2678400000 {} shedding dependent kept (.inl rfl)
    (archiveOldTasks 2678400000 {} shedding).1 dependent kept rfl rfl
  have missing : Claim.dependencyState dependent (archiveOldTasks 2678400000 {} shedding).1 =
      .missing := by decide
  have held : KeyedList.get Task.id (archivedComplete 2678400000 {} shedding ++
      (archiveOldTasks 2678400000 {} shedding).1) "issue-1" = some dependency := by
    decide
  have complete : AllComplete (archivedComplete 2678400000 {} shedding ++
      (archiveOldTasks 2678400000 {} shedding).1) dependent := by
    intro id inside
    rw [List.mem_singleton.1 inside]
    exact ⟨dependency, held, rfl⟩
  rw [(runs complete).1] at missing
  contradiction

end Archive

end TitanRunner
