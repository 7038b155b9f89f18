import TitanRunner.Engine.Claim

/-!
# No task is claimed twice

What protects a finished task from the other pulse: as long as that pulse may still
claim the task, none of its saves can take the terminal record off the disk.  Each
step that changes a pulse in memory is summed up by `LocalStep`; a save is the only
step that moves the file.
-/

namespace TitanRunner

namespace Claim

open TransitionSystem

theorem get_tasks (pulse : Pulse) (id : TaskId) :
    KeyedList.get Task.id pulse.tasks id =
      (KeyedList.get Object.id pulse.queue id).map Object.task :=
  KeyedList.get_map Task.id Object.task fun _ => rfl

theorem done_tasks_iff {pulse : Pulse} {id : TaskId} :
    Done pulse.tasks id ↔
      ∃ object, KeyedList.get Object.id pulse.queue id = some object ∧
        isTerminal object.task.status = true := by
  simp only [Done, get_tasks, Option.map_eq_some_iff]
  constructor
  · rintro ⟨_, ⟨object, found, rfl⟩, terminal⟩
    exact ⟨object, found, terminal⟩
  · rintro ⟨object, found, terminal⟩
    exact ⟨_, ⟨object, found, rfl⟩, terminal⟩

/-- The pulse may still claim the task in this run. -/
def Pulse.MayClaim (pulse : Pulse) (id : TaskId) : Prop :=
  match pulse.phase with
  | .preparing => ¬ Done pulse.tasks id
  | _ => id ∈ pulse.runnable

/-- What the code keeps true of a pulse by itself. -/
structure Pulse.Wf (pulse : Pulse) : Prop where
  distinct : (pulse.queue.map Object.id).Nodup
  heldSame : ∀ object ∈ pulse.queue, object.held = true →
    KeyedList.get Task.id pulse.byId object.id = some object.task
  pending : ∀ id ∈ pulse.runnable,
    ∃ task, KeyedList.get Task.id pulse.byId id = some task ∧ task.status = .pending
  once : pulse.runnable.Nodup
  unowned : ∀ id ∈ pulse.runnable, id ∉ pulse.owned
  idle : pulse.phase = .preparing → pulse.runnable = [] ∧ pulse.owned = []
  current : ∀ id, pulse.phase = .claimed id ∨ pulse.phase = .running id →
    id ∉ pulse.runnable ∧
      ∃ task, KeyedList.get Task.id pulse.byId id = some task ∧ task.status = .running

/-- A task still to be claimed is owned by nobody here. -/
theorem Pulse.Wf.not_owned {pulse : Pulse} (wf : pulse.Wf) {id : TaskId}
    (may : pulse.MayClaim id) : id ∉ pulse.owned := by
  unfold Pulse.MayClaim at may
  split at may
  next preparing => simp [(wf.idle preparing).2]
  next => exact wf.unowned id may

/-- A step of the pulse that leaves the file alone. -/
structure LocalStep (before after : Pulse) : Prop where
  snapshot : after.loadedSnapshot = before.loadedSnapshot
  baseline : after.baseline = before.baseline
  mayClaim : ∀ id, after.MayClaim id → before.MayClaim id
  keepsDone : ∀ id, Done before.tasks id → Done after.tasks id
  addsNone : ∀ id, after.MayClaim id → Done after.tasks id → Done before.tasks id

section Assign

variable {pulse : Pulse} {task before : Task} {phase : Phase}

theorem get_queue_assign (id : TaskId) :
    KeyedList.get Object.id (pulse.assign task phase).queue id =
      (KeyedList.get Object.id pulse.queue id).map fun object =>
        if object.id = task.id ∧ object.held = true then { object with task } else object := by
  refine KeyedList.get_map Object.id _ fun object => ?_
  split
  next same => exact same.1.symm
  next => rfl

theorem get_byId_assign (id : TaskId) :
    KeyedList.get Task.id (pulse.assign task phase).byId id =
      (KeyedList.get Task.id pulse.byId id).map fun other =>
        if id = task.id then task else other :=
  KeyedList.get_set task

/-- The queue holds a terminal object of the task only if it is not the captured one,
so a write to the captured object leaves it terminal. -/
theorem done_assign (wf : pulse.Wf)
    (captured : KeyedList.get Task.id pulse.byId task.id = some before)
    (live : isTerminal before.status = false) {id : TaskId} (done : Done pulse.tasks id) :
    Done (pulse.assign task phase).tasks id := by
  obtain ⟨object, found, terminal⟩ := done_tasks_iff.mp done
  refine done_tasks_iff.mpr ⟨object, ?_, terminal⟩
  rw [get_queue_assign, found, Option.map_some, if_neg]
  rintro ⟨same, held⟩
  have sameTask := wf.heldSame object (KeyedList.mem_of_get found) held
  rw [same, captured, Option.some.injEq] at sameTask
  rw [← sameTask, live] at terminal
  contradiction

theorem done_of_done_assign {id : TaskId} (other : id ≠ task.id)
    (done : Done (pulse.assign task phase).tasks id) : Done pulse.tasks id := by
  obtain ⟨object, found, terminal⟩ := done_tasks_iff.mp done
  rw [get_queue_assign] at found
  obtain ⟨old, foundOld, rfl⟩ := Option.map_eq_some_iff.mp found
  refine done_tasks_iff.mpr ⟨old, foundOld, ?_⟩
  rwa [if_neg] at terminal
  rintro ⟨same, -⟩
  exact other (KeyedList.key_of_get foundOld ▸ same)

theorem heldSame_assign (wf : pulse.Wf) :
    ∀ object ∈ (pulse.assign task phase).queue, object.held = true →
      KeyedList.get Task.id (pulse.assign task phase).byId object.id = some object.task := by
  intro object member held
  obtain ⟨old, oldMember, rfl⟩ := List.mem_map.mp member
  rw [get_byId_assign]
  split at held
  next same =>
    rw [if_pos same]
    have sameTask := wf.heldSame old oldMember same.2
    rw [same.1] at sameTask
    simp [Object.id, sameTask]
  next differ =>
    rw [if_neg differ, wf.heldSame old oldMember held]
    have other : old.id ≠ task.id := fun same => differ ⟨same, held⟩
    simp [other]

theorem ids_queue_assign : (pulse.assign task phase).queue.map Object.id = pulse.queue.map Object.id := by
  simp only [Pulse.assign, List.map_map]
  refine List.map_congr_left fun object _ => ?_
  simp only [Function.comp_apply]
  split
  next same => exact same.1.symm
  next => rfl

end Assign

theorem mayClaim_iff (pulse : Pulse) (started : pulse.phase ≠ .preparing) (id : TaskId) :
    pulse.MayClaim id ↔ id ∈ pulse.runnable := by
  unfold Pulse.MayClaim
  split
  next preparing => exact absurd preparing started
  next => rfl

namespace LocalStep

theorem trans {before middle after : Pulse} (first : LocalStep before middle)
    (second : LocalStep middle after) : LocalStep before after where
  snapshot := second.snapshot.trans first.snapshot
  baseline := second.baseline.trans first.baseline
  mayClaim id may := first.mayClaim id (second.mayClaim id may)
  keepsDone id done := second.keepsDone id (first.keepsDone id done)
  addsNone id may done :=
    first.addsNone id (second.mayClaim id may) (second.addsNone id may done)

/-- Moving on without touching the queue, with fewer tasks left to visit. -/
theorem advance {pulse : Pulse} {runnable owned : List TaskId} {phase : Phase}
    (started : phase ≠ .preparing)
    (fewer : ∀ id ∈ runnable, pulse.MayClaim id) :
    LocalStep pulse { pulse with runnable, owned, phase } where
  snapshot := rfl
  baseline := rfl
  mayClaim id may :=
    fewer id ((mayClaim_iff { pulse with runnable, owned, phase } started id).mp may)
  keepsDone _ done := done
  addsNone _ _ done := done

/-- A write to a captured object that is no longer to be visited. -/
theorem assign {pulse : Pulse} {task before : Task} {phase : Phase} (wf : pulse.Wf)
    (captured : KeyedList.get Task.id pulse.byId task.id = some before)
    (live : isTerminal before.status = false) (visited : task.id ∉ pulse.runnable)
    (startedBefore : pulse.phase ≠ .preparing) (started : phase ≠ .preparing) :
    LocalStep pulse (pulse.assign task phase) where
  snapshot := rfl
  baseline := rfl
  mayClaim id may :=
    (mayClaim_iff pulse startedBefore id).mpr ((mayClaim_iff (pulse.assign task phase) started id).mp may)
  keepsDone _ done := done_assign wf captured live done
  addsNone id may done := by
    refine done_of_done_assign ?_ done
    rintro rfl
    exact visited ((mayClaim_iff (pulse.assign task phase) started _).mp may)

end LocalStep

namespace Pulse.Wf

/-- The loop moves on: some tasks are dropped from the list, one may become owned. -/
theorem advance {pulse : Pulse} (wf : pulse.Wf) {runnable owned : List TaskId} {phase : Phase}
    (fewer : runnable.Sublist pulse.runnable) (unowned : ∀ id ∈ runnable, id ∉ owned)
    (started : phase ≠ .preparing)
    (current : ∀ id, phase = .claimed id ∨ phase = .running id →
      pulse.phase = .claimed id ∨ pulse.phase = .running id) :
    ({ pulse with runnable, owned, phase } : Pulse).Wf where
  distinct := wf.distinct
  heldSame := wf.heldSame
  pending id member := wf.pending id (fewer.subset member)
  once := wf.once.sublist fewer
  unowned := unowned
  idle preparing := absurd preparing started
  current id here := by
    obtain ⟨absent, task, captured, running⟩ := wf.current id (current id here)
    exact ⟨fun member => absent (fewer.subset member), task, captured, running⟩

theorem assign {pulse : Pulse} (wf : pulse.Wf) {task before : Task} {phase : Phase}
    (captured : KeyedList.get Task.id pulse.byId task.id = some before)
    (visited : task.id ∉ pulse.runnable) (started : phase ≠ .preparing)
    (current : ∀ id, phase = .claimed id ∨ phase = .running id →
      id = task.id ∧ task.status = .running) :
    (pulse.assign task phase).Wf where
  distinct := by
    simp only [ids_queue_assign]
    exact wf.distinct
  heldSame := heldSame_assign wf
  pending id member := by
    obtain ⟨old, found, pending⟩ := wf.pending id member
    refine ⟨old, ?_, pending⟩
    have other : id ≠ task.id := fun same => visited (same ▸ member)
    rw [get_byId_assign, found, Option.map_some, if_neg other]
  once := wf.once
  unowned := wf.unowned
  idle preparing := absurd preparing started
  current id here := by
    obtain ⟨rfl, running⟩ := current id here
    refine ⟨visited, task, ?_, running⟩
    rw [get_byId_assign, captured, Option.map_some, if_pos rfl]

theorem load {disk : Option (Store.TasksFile Task)}
    (distinct : ((Store.tasksOf disk).map Task.id).Nodup) : (loadPulse disk).Wf where
  distinct := by
    simpa [loadPulse, List.map_map, Function.comp_def, Object.id] using distinct
  heldSame object member held := by
    obtain ⟨task, -, rfl⟩ := List.mem_map.mp member
    contradiction
  pending _ member := by simp [loadPulse] at member
  once := List.nodup_nil
  unowned _ member := by simp [loadPulse] at member
  idle _ := ⟨rfl, rfl⟩
  current _ here := by simp [loadPulse] at here

end Pulse.Wf

/-- `transition` of a captured object, for a pulse past its start. -/
theorem transition_local {pulse : Pulse} {before : Task} (task : Task) (target : Status)
    (ctx : TransitionContext) (phase : Phase) (wf : pulse.Wf)
    (captured : KeyedList.get Task.id pulse.byId task.id = some before)
    (live : isTerminal before.status = false) (visited : task.id ∉ pulse.runnable)
    (startedBefore : pulse.phase ≠ .preparing) (started : phase ≠ .preparing)
    (current : ∀ id, phase = .claimed id ∨ phase = .running id →
      id = task.id ∧ target = .running) :
    LocalStep pulse (pulse.transition task target ctx phase) ∧
      (pulse.transition task target ctx phase).Wf := by
  unfold Pulse.transition
  split
  · refine ⟨.advance (by simp) fun id member => (mayClaim_iff pulse startedBefore id).mpr member,
      wf.advance (.refl _) wf.unowned (by simp) (by simp)⟩
  next moved transitioned =>
    obtain ⟨-, movedEq, -⟩ := transition_ok transitioned
    have sameId : moved.1.id = task.id := by rw [movedEq, moveTask_id]
    have status : moved.1.status = target := by rw [movedEq, moveTask_status]
    rw [← sameId] at captured visited
    refine ⟨.assign wf captured live visited startedBefore started,
      wf.assign captured visited started fun id here => ?_⟩
    rw [sameId, status]
    exact current id here

/-- A turn of the loop leaves the file alone, whatever becomes of the task. -/
theorem visit_local {pulse : Pulse} {id : TaskId} {rest : List TaskId} {task : Task}
    (granted : Bool) (lease : Lease) (now : Time) (score : String) (wf : pulse.Wf)
    (walking : pulse.phase = .walking) (head : pulse.runnable = id :: rest)
    (captured : KeyedList.get Task.id pulse.byId id = some task) :
    LocalStep pulse (pulse.visit id rest task granted lease now score) ∧
      (pulse.visit id rest task granted lease now score).Wf := by
  have started : pulse.phase ≠ .preparing := by simp [walking]
  have sameId : task.id = id := KeyedList.key_of_get captured
  have isPending : task.status = .pending := by
    obtain ⟨other, found, pending⟩ := wf.pending id (by simp [head])
    rw [captured, Option.some.injEq] at found
    exact found ▸ pending
  have live : isTerminal task.status = false := by rw [isPending]; rfl
  have sublist : rest.Sublist pulse.runnable := by simp [head]
  have visited : id ∉ rest := by
    have once := wf.once
    rw [head, List.nodup_cons] at once
    exact once.1
  have fewer : ∀ other ∈ rest, pulse.MayClaim other := fun other member =>
    (mayClaim_iff pulse started other).mpr (sublist.subset member)
  -- the pulse after the list has moved on, with the task owned or not
  have moveOn : ∀ owned : List TaskId, (∀ other ∈ rest, other ∉ owned) →
      LocalStep pulse { pulse with runnable := rest, owned } ∧
        ({ pulse with runnable := rest, owned } : Pulse).Wf := fun owned unowned =>
    ⟨.advance started fewer, wf.advance sublist unowned started fun _ here => here⟩
  have unowned : ∀ other ∈ rest, other ∉ pulse.owned := fun other member =>
    wf.unowned other (sublist.subset member)
  obtain ⟨skipped, skippedWf⟩ := moveOn pulse.owned unowned
  have skip : ∀ target ctx, LocalStep pulse
        (Pulse.transition { pulse with runnable := rest } task target ctx .walking) ∧
      (Pulse.transition { pulse with runnable := rest } task target ctx .walking).Wf := by
    intro target ctx
    obtain ⟨moved, movedWf⟩ := transition_local task target ctx .walking skippedWf
      (sameId ▸ captured) live (sameId ▸ visited) started (by simp) (by simp)
    exact ⟨skipped.trans moved, movedWf⟩
  unfold Pulse.visit
  dsimp only
  split
  · exact skip _ _
  · exact skip _ _
  · exact skip _ _
  · split
    · exact ⟨skipped, skippedWf⟩
    · obtain ⟨claimed, claimedWf⟩ := moveOn (id :: pulse.owned) fun other member => by
        rw [List.mem_cons, not_or]
        exact ⟨fun same => visited (same ▸ member), unowned other member⟩
      obtain ⟨moved, movedWf⟩ := transition_local
        { task with lease := some lease, claimedAt := some now } .running
        { now, reason := some ("claimed (priority " ++ score ++ ")") } (.claimed id) claimedWf
        (sameId ▸ captured) live (sameId ▸ visited) started
        (by simp) (by rintro other (here | here) <;> cases here; exact ⟨sameId.symm, rfl⟩)
      exact ⟨claimed.trans moved, movedWf⟩

/-- While a pulse prepares, it may still claim what is not terminal in its memory. -/
theorem LocalStep.preparing {before after : Pulse} (beforePreparing : before.phase = .preparing)
    (afterPreparing : after.phase = .preparing)
    (snapshot : after.loadedSnapshot = before.loadedSnapshot)
    (baseline : after.baseline = before.baseline)
    (keepsDone : ∀ id, Done before.tasks id → Done after.tasks id) : LocalStep before after := by
  have mayBefore : ∀ id, before.MayClaim id ↔ ¬ Done before.tasks id := fun id => by
    simp [Pulse.MayClaim, beforePreparing]
  have mayAfter : ∀ id, after.MayClaim id ↔ ¬ Done after.tasks id := fun id => by
    simp [Pulse.MayClaim, afterPreparing]
  exact {
    snapshot, baseline, keepsDone
    mayClaim := fun id may => (mayBefore id).mpr fun done =>
      (mayAfter id).mp may (keepsDone id done)
    addsNone := fun id may done => absurd done ((mayAfter id).mp may) }

theorem prepare_local {pulse after : Pulse} {task : Task} (wf : pulse.Wf)
    (preparing : pulse.phase = .preparing) (prepared : pulse.prepare task = some after) :
    LocalStep pulse after ∧ after.Wf := by
  unfold Pulse.prepare at prepared
  split at prepared
  next unknown =>
    cases prepared
    rw [get_tasks, Option.map_eq_none_iff] at unknown
    refine ⟨.preparing preparing preparing rfl rfl fun id done => ?_, ?_⟩
    · obtain ⟨object, found, terminal⟩ := done_tasks_iff.mp done
      refine done_tasks_iff.mpr ⟨object, ?_, terminal⟩
      have other : task.id ≠ id := fun same => by simp [← same, unknown] at found
      simp [KeyedList.get_append, KeyedList.get_cons, Object.id, other, found]
    · refine { wf with distinct := ?_, heldSame := fun object member held => ?_ }
      · rw [List.map_append]
        exact wf.distinct.append (List.nodup_singleton _)
          (by simpa using KeyedList.get_eq_none_iff.mp unknown)
      · rcases List.mem_append.mp member with old | new
        · exact wf.heldSame object old held
        · rw [List.mem_singleton] at new
          simp [new] at held
  next before known =>
    split at prepared
    · contradiction
    next keeps =>
      cases prepared
      refine ⟨.preparing preparing preparing rfl rfl fun id done => ?_, ?_⟩
      · obtain ⟨object, found, terminal⟩ := done_tasks_iff.mp done
        by_cases same : id = task.id
        · subst same
          rw [get_tasks, found, Option.map_some, Option.some.injEq] at known
          refine done_tasks_iff.mpr ⟨⟨task, false⟩, ?_, ?_⟩
          · rw [KeyedList.get_set, found, Option.map_some, Object.id_mk, if_pos rfl]
          · rw [known] at terminal
            simpa [terminal] using keeps
        · refine done_tasks_iff.mpr ⟨object, ?_, terminal⟩
          rw [KeyedList.get_set, found, Option.map_some, Object.id_mk, if_neg same]
      · refine { wf with distinct := ?_, heldSame := fun object member held => ?_ }
        · rw [KeyedList.keys_set]
          exact wf.distinct
        · obtain ⟨old, oldMember, rfl⟩ := List.mem_map.mp member
          split at held
          next => contradiction
          next other =>
            rw [if_neg other]
            exact wf.heldSame old oldMember held

theorem start_local {pulse after : Pulse} {order : List TaskId} (wf : pulse.Wf)
    (preparing : pulse.phase = .preparing) (started : pulse.start order = some after) :
    LocalStep pulse after ∧ after.Wf := by
  have distinct : (pulse.tasks.map Task.id).Nodup := by
    rw [Pulse.tasks, List.map_map]
    exact wf.distinct
  unfold Pulse.start at started
  dsimp only at started
  split at started
  next perm =>
    rw [List.isPerm_iff] at perm
    cases started
    have isPending : ∀ id ∈ order,
        ∃ task, KeyedList.get Task.id pulse.tasks id = some task ∧ task.status = .pending := by
      intro id member
      obtain ⟨task, chosen, rfl⟩ := List.mem_map.mp (perm.subset member)
      rw [List.mem_filter, decide_eq_true_eq] at chosen
      exact ⟨task, (KeyedList.get_eq_some_iff distinct).mpr ⟨chosen.1, rfl⟩, chosen.2⟩
    have sameTasks : (pulse.queue.map fun object : Object => { object with held := true }).map
        Object.task = pulse.tasks := by
      rw [List.map_map]
      rfl
    refine ⟨⟨rfl, rfl, fun id may => ?_, fun id done => ?_, fun id _ done => ?_⟩, ?_⟩
    · simp only [Pulse.MayClaim, preparing]
      obtain ⟨task, found, pending⟩ := isPending id may
      rintro ⟨other, foundOther, terminal⟩
      rw [found, Option.some.injEq] at foundOther
      rw [← foundOther, pending] at terminal
      contradiction
    · rw [Pulse.tasks, sameTasks]
      exact done
    · rwa [Pulse.tasks, sameTasks] at done
    · constructor
      · rw [List.map_map]
        exact wf.distinct
      · intro object member held
        obtain ⟨old, oldMember, rfl⟩ := List.mem_map.mp member
        exact (KeyedList.get_eq_some_iff distinct).mpr ⟨List.mem_map.mpr ⟨old, oldMember, rfl⟩, rfl⟩
      · exact isPending
      · exact perm.nodup_iff.mpr (distinct.sublist (List.filter_sublist.map _))
      · intro id _
        simp [(wf.idle preparing).2]
      · simp
      · simp
  next => contradiction

section Save

variable {scrubber : Scrubber} {pulse : Pulse} {phase : Phase} {now : Time}
  {disk : Option (Store.TasksFile Task)}

/-- The two ways a save goes: without a merge the queue stays, with a merge each task
comes from one of the two sides. -/
theorem get_afterSave (id : TaskId) :
    KeyedList.get Object.id (pulse.afterSave scrubber phase now disk).queue id =
      if Store.mergesOnSave (some pulse.loadedSnapshot) pulse.baseline disk then
        match KeyedList.get Task.id (Store.tasksOf disk) id with
        | none => KeyedList.get Object.id pulse.queue id
        | some theirTask =>
            match KeyedList.get Object.id pulse.queue id with
            | none => some ⟨theirTask, false⟩
            | some mine =>
                if id ∈ pulse.owned ∨
                    KeyedList.get Task.id pulse.loadedSnapshot id = some theirTask
                then some mine
                else some ⟨theirTask, false⟩
      else KeyedList.get Object.id pulse.queue id := by
  simp only [Pulse.afterSave, Store.saveTasks_tasks, Store.candidateTasks]
  split
  · have merged := Store.get_merge scrubber.codec pulse.queue (Store.tasksOf disk)
      pulse.loadedSnapshot pulse.owned id
    have id_eq : scrubber.codec.id = Task.id := rfl
    have idOf_eq : scrubber.codec.idOf = Object.id := rfl
    rw [id_eq, idOf_eq] at merged
    rw [Option.getD_some, merged]
    cases KeyedList.get Task.id (Store.tasksOf disk) id with
    | none => rfl
    | some theirTask => cases KeyedList.get Object.id pulse.queue id <;> rfl
  · rfl

/-- What a save leaves on disk is what it leaves in memory. -/
theorem done_savedDisk (id : TaskId) :
    Done (Store.tasksOf (pulse.savedDisk scrubber now disk)) id ↔
      Done (pulse.afterSave scrubber phase now disk).tasks id := by
  have saved : KeyedList.get Task.id (Store.tasksOf (pulse.savedDisk scrubber now disk)) id =
      (KeyedList.get Object.id (pulse.afterSave scrubber phase now disk).queue id).map
        scrubber.codec.saved := by
    rw [Pulse.savedDisk, Store.tasksOf_saveTasks_disk, Pulse.afterSave, Store.saveTasks_tasks]
    exact KeyedList.get_map Task.id scrubber.codec.saved fun object => scrubber.id_scrub object.task
  rw [done_tasks_iff, Done, saved]
  constructor
  · rintro ⟨task, found, terminal⟩
    obtain ⟨object, foundObject, rfl⟩ := Option.map_eq_some_iff.mp found
    exact ⟨object, foundObject, scrubber.status_scrub object.task ▸ terminal⟩
  · rintro ⟨object, found, terminal⟩
    exact ⟨_, by rw [found]; rfl, (scrubber.status_scrub object.task).symm ▸ terminal⟩

/-- A task terminal on both sides stays terminal. -/
theorem done_afterSave_of_both {id : TaskId} (onDisk : Done (Store.tasksOf disk) id)
    (inMemory : Done pulse.tasks id) : Done (pulse.afterSave scrubber phase now disk).tasks id := by
  obtain ⟨theirTask, foundTheirs, theirsTerminal⟩ := onDisk
  obtain ⟨mine, foundMine, mineTerminal⟩ := done_tasks_iff.mp inMemory
  rw [done_tasks_iff, get_afterSave, foundTheirs, foundMine]
  split
  · dsimp only
    split
    · exact ⟨mine, rfl, mineTerminal⟩
    · exact ⟨_, rfl, theirsTerminal⟩
  · exact ⟨mine, rfl, mineTerminal⟩

/-- A pulse that does not own the task and loaded it unfinished takes a terminal record
over from disk; if it does not merge, it has that record already. -/
theorem done_afterSave_of_disk {id : TaskId} (unowned : id ∉ pulse.owned)
    (loadedLive : ¬ Done pulse.loadedSnapshot id)
    (seen : Done (Store.tasksOf pulse.baseline) id → Done pulse.tasks id)
    (onDisk : Done (Store.tasksOf disk) id) :
    Done (pulse.afterSave scrubber phase now disk).tasks id := by
  obtain ⟨theirTask, foundTheirs, theirsTerminal⟩ := onDisk
  have changed : KeyedList.get Task.id pulse.loadedSnapshot id ≠ some theirTask := fun same =>
    loadedLive ⟨theirTask, same, theirsTerminal⟩
  by_cases merges : Store.mergesOnSave (some pulse.loadedSnapshot) pulse.baseline disk
  · rw [done_tasks_iff, get_afterSave, if_pos merges, foundTheirs]
    cases KeyedList.get Object.id pulse.queue id with
    | none => exact ⟨_, rfl, theirsTerminal⟩
    | some mine => simp [unowned, changed, theirsTerminal]
  · have sameText : disk = pulse.baseline := by
      cases disk with
      | none => simp [Store.tasksOf] at foundTheirs
      | some file =>
          by_contra differ
          have sameTasks : file.tasks = pulse.loadedSnapshot := by
            by_contra differTasks
            exact merges (by simp [Store.mergesOnSave, differ, differTasks])
          exact changed (sameTasks ▸ foundTheirs)
    have inMemory : Done pulse.tasks id := seen (sameText ▸ ⟨theirTask, foundTheirs, theirsTerminal⟩)
    rw [done_tasks_iff, get_afterSave, if_neg merges]
    exact done_tasks_iff.mp inMemory

/-- A save adds no terminal record of its own if the one in memory is on disk. -/
theorem done_disk_of_afterSave {id : TaskId}
    (fresh : Done pulse.tasks id → Done (Store.tasksOf disk) id)
    (done : Done (pulse.afterSave scrubber phase now disk).tasks id) :
    Done (Store.tasksOf disk) id := by
  obtain ⟨object, found, terminal⟩ := done_tasks_iff.mp done
  rw [get_afterSave] at found
  have ours : KeyedList.get Object.id pulse.queue id = some object →
      Done (Store.tasksOf disk) id := fun mine =>
    fresh (done_tasks_iff.mpr ⟨object, mine, terminal⟩)
  split at found
  · split at found
    · exact ours found
    next theirTask foundTheirs =>
      have theirs : some (⟨theirTask, false⟩ : Object) = some object →
          Done (Store.tasksOf disk) id := by
        rintro ⟨⟩
        exact ⟨theirTask, foundTheirs, terminal⟩
      split at found
      · exact theirs found
      next mine foundMine =>
        split at found
        · exact ours (foundMine.trans found)
        · exact theirs found
  · exact ours found

/-- A save puts no captured object into the queue that was not there. -/
theorem mem_queue_afterSave {object : Object}
    (member : object ∈ (pulse.afterSave scrubber phase now disk).queue) :
    object ∈ pulse.queue ∨ object.held = false := by
  simp only [Pulse.afterSave, Store.saveTasks_tasks, Store.candidateTasks] at member
  split at member
  · rcases List.mem_append.mp member with theirs | ours
    · obtain ⟨theirTask, -, rfl⟩ := List.mem_map.mp theirs
      unfold Store.mergeOne
      split
      · exact .inr rfl
      next mine found =>
        dsimp only
        split
        · exact .inl (KeyedList.mem_of_get found)
        · exact .inr rfl
    · exact .inl (List.mem_of_mem_filter ours)
  · exact .inl member

theorem Pulse.Wf.afterSave (wf : pulse.Wf)
    (distinct : ((Store.tasksOf disk).map Task.id).Nodup)
    (saves : pulse.phase.afterSave = some phase) :
    (pulse.afterSave scrubber phase now disk).Wf where
  distinct := by
    simp only [Pulse.afterSave, Store.saveTasks_tasks, Store.candidateTasks]
    split
    · exact Store.nodup_ids_merge scrubber.codec _ _ _ _ wf.distinct distinct
    · exact wf.distinct
  heldSame object member held := by
    rcases mem_queue_afterSave member with old | fresh
    · exact wf.heldSame object old held
    · rw [fresh] at held
      contradiction
  pending := wf.pending
  once := wf.once
  unowned := wf.unowned
  idle preparing := by
    obtain rfl : phase = .preparing := preparing
    cases here : pulse.phase <;> simp [here, Phase.afterSave] at saves
  current id here := by
    refine wf.current id (.inl ?_)
    change phase = .claimed id ∨ phase = .running id at here
    rcases here with rfl | rfl <;>
      cases before : pulse.phase <;> simp [before, Phase.afterSave] at saves
    rw [saves]

theorem nodup_savedDisk (wf : pulse.Wf) (distinct : ((Store.tasksOf disk).map Task.id).Nodup) :
    ((Store.tasksOf (pulse.savedDisk scrubber now disk)).map Task.id).Nodup := by
  rw [Pulse.savedDisk, Store.tasksOf_saveTasks_disk]
  have ids := scrubber.codec.ids_map_saved (Store.candidateTasks scrubber.codec pulse.queue
    (some pulse.loadedSnapshot) pulse.owned pulse.baseline disk)
  have id_eq : scrubber.codec.id = Task.id := rfl
  rw [id_eq] at ids
  rw [ids, Store.candidateTasks]
  split
  · exact Store.nodup_ids_merge scrubber.codec _ _ _ _ wf.distinct distinct
  · exact wf.distinct

end Save

/-- The pulse may still claim the task: it has not loaded the queue yet, or the task is
still ahead of it. -/
def World.Open (world : World) (id : Bool) (task : TaskId) : Prop :=
  ∀ pulse, world.pulses id = some pulse → pulse.MayClaim task

/-- What holds of a task that a pulse may still claim: the pulse loaded it unfinished,
whatever terminal record it has come across is the one on disk, and the other pulse
holds that record too. -/
structure OpenInv (world : World) (id : Bool) (task : TaskId) : Prop where
  loadedLive : ∀ pulse, world.pulses id = some pulse → ¬ Done pulse.loadedSnapshot task
  seen : ∀ pulse, world.pulses id = some pulse →
    Done (Store.tasksOf pulse.baseline) task → Done pulse.tasks task
  fresh : ∀ pulse, world.pulses id = some pulse →
    Done pulse.tasks task → Done (Store.tasksOf world.disk) task
  other : ∀ pulse, world.pulses (!id) = some pulse →
    Done (Store.tasksOf world.disk) task → Done pulse.tasks task
  finished : (!id, task) ∈ world.finished → Done (Store.tasksOf world.disk) task
  logged : (∃ pulse, world.pulses id = some pulse) →
    Done (Store.tasksOf world.disk) task → (!id, task) ∈ world.finished

structure Inv (world : World) : Prop where
  distinct : ((Store.tasksOf world.disk).map Task.id).Nodup
  wf : ∀ id pulse, world.pulses id = some pulse → pulse.Wf
  openTasks : ∀ id task, world.Open id task → OpenInv world id task

theorem eq_not_of_ne {left right : Bool} (differ : left ≠ right) : left = !right := by
  cases left <;> cases right <;> simp_all

/-- A step of one pulse in memory keeps the invariant. -/
theorem Inv.localStep {world after : World} (inv : Inv world) {id : Bool} {pulse moved : Pulse}
    (running : world.pulses id = some pulse) (step : LocalStep pulse moved) (movedWf : moved.Wf)
    (disk : after.disk = world.disk) (finished : after.finished = world.finished)
    (pulses : after.pulses = Function.update world.pulses id (some moved)) : Inv after := by
  have self : after.pulses id = some moved := by rw [pulses, Function.update_self]
  have rest : after.pulses (!id) = world.pulses (!id) := by
    rw [pulses, Function.update_of_ne (by cases id <;> decide)]
  refine ⟨disk ▸ inv.distinct, fun other held found => ?_, fun other task isOpen => ?_⟩
  · by_cases same : other = id
    · subst same
      rw [self, Option.some.injEq] at found
      exact found ▸ movedWf
    · rw [eq_not_of_ne same, rest] at found
      exact inv.wf _ held found
  · by_cases same : other = id
    · subst same
      have may := isOpen moved self
      have old := inv.openTasks other task fun held found => by
        rw [running, Option.some.injEq] at found
        exact found ▸ step.mayClaim task may
      constructor
      · intro held found
        rw [self, Option.some.injEq] at found
        rw [← found, step.snapshot]
        exact old.loadedLive pulse running
      · intro held found
        rw [self, Option.some.injEq] at found
        rw [← found, step.baseline]
        exact fun seen => step.keepsDone task (old.seen pulse running seen)
      · intro held found
        rw [self, Option.some.injEq] at found
        rw [← found, disk]
        exact fun done => old.fresh pulse running (step.addsNone task may done)
      · rw [rest, disk]
        exact old.other
      · rw [finished, disk]
        exact old.finished
      · rw [finished, disk]
        exact fun _ => old.logged ⟨pulse, running⟩
    · obtain rfl := eq_not_of_ne same
      have old := inv.openTasks (!id) task fun held found => isOpen held (rest.trans found)
      constructor
      · rw [rest]
        exact old.loadedLive
      · rw [rest]
        exact old.seen
      · rw [rest, disk]
        exact old.fresh
      · intro held found done
        rw [Bool.not_not, self, Option.some.injEq] at found
        rw [← found]
        rw [disk] at done
        exact step.keepsDone task (old.other pulse (by rw [Bool.not_not]; exact running) done)
      · rw [finished, disk]
        exact old.finished
      · rw [finished, disk, rest]
        exact old.logged

theorem tasks_loadPulse (disk : Option (Store.TasksFile Task)) :
    (loadPulse disk).tasks = Store.tasksOf disk := by
  simp [loadPulse, Pulse.tasks, List.map_map, Function.comp_def]

/-- Loading: what the pulse may still claim is what is not terminal on disk. -/
theorem Inv.load {world : World} (inv : Inv world) {id : Bool} (idle : world.pulses id = none) :
    Inv (world.setPulse id (loadPulse world.disk)) := by
  have self : (world.setPulse id (loadPulse world.disk)).pulses id = some (loadPulse world.disk) :=
    Function.update_self ..
  have rest : (world.setPulse id (loadPulse world.disk)).pulses (!id) = world.pulses (!id) :=
    Function.update_of_ne (by cases id <;> decide) ..
  refine ⟨inv.distinct, fun other held found => ?_, fun other task isOpen => ?_⟩
  · by_cases same : other = id
    · subst same
      rw [self, Option.some.injEq] at found
      exact found ▸ Pulse.Wf.load inv.distinct
    · rw [eq_not_of_ne same, rest] at found
      exact inv.wf _ held found
  · by_cases same : other = id
    · subst same
      have unfinished : ¬ Done (Store.tasksOf world.disk) task := by
        have may : ¬ Done (loadPulse world.disk).tasks task := isOpen _ self
        rwa [tasks_loadPulse] at may
      have old := inv.openTasks other task fun held found => by rw [idle] at found; contradiction
      constructor
      · intro held found
        rw [self, Option.some.injEq] at found
        rw [← found]
        change ¬ Done (loadPulse world.disk).tasks task
        rwa [tasks_loadPulse]
      · intro held found seen
        rw [self, Option.some.injEq] at found
        rw [← found] at seen
        exact absurd seen unfinished
      · intro held found done
        rw [self, Option.some.injEq] at found
        rw [← found, tasks_loadPulse] at done
        exact done
      · exact fun _ _ done => absurd done unfinished
      · exact fun finished => old.finished finished
      · exact fun _ done => absurd done unfinished
    · obtain rfl := eq_not_of_ne same
      have old := inv.openTasks (!id) task fun held found => isOpen held (rest.trans found)
      constructor
      · rw [rest]
        exact old.loadedLive
      · rw [rest]
        exact old.seen
      · rw [rest]
        exact old.fresh
      · intro held found done
        rw [Bool.not_not, self, Option.some.injEq] at found
        rw [← found, tasks_loadPulse]
        exact done
      · exact old.finished
      · rw [rest]
        exact old.logged

theorem mem_newlyDone {before after : List Task} {id : TaskId} :
    id ∈ newlyDone before after ↔ Done after id ∧ ¬ Done before id := by
  rw [newlyDone, List.mem_filter, decide_eq_true_eq]
  constructor
  · exact And.right
  · rintro ⟨⟨task, found, terminal⟩, before⟩
    exact ⟨KeyedList.mem_keys_of_get found, ⟨task, found, terminal⟩, before⟩

/-- The world after a save. -/
def World.afterSave (scrubber : Scrubber) (world : World) (id : Bool) (pulse : Pulse)
    (phase : Phase) (now : Time) : World :=
  let disk := pulse.savedDisk scrubber now world.disk
  { world.setPulse id (pulse.afterSave scrubber phase now world.disk) with
    disk
    finished := (newlyDone (Store.tasksOf world.disk) (Store.tasksOf disk)).map
      (id, ·) ++ world.finished }

theorem mem_finished_afterSave {scrubber : Scrubber} {world : World} {id other : Bool}
    {pulse : Pulse} {phase : Phase} {now : Time} {task : TaskId} :
    (other, task) ∈ (world.afterSave scrubber id pulse phase now).finished ↔
      other = id ∧ Done (Store.tasksOf (pulse.savedDisk scrubber now world.disk)) task ∧
          ¬ Done (Store.tasksOf world.disk) task ∨
        (other, task) ∈ world.finished := by
  simp only [World.afterSave, List.mem_append, List.mem_map, Prod.mk.injEq, mem_newlyDone]
  constructor
  · rintro (⟨_, both, rfl, rfl⟩ | old)
    · exact .inl ⟨rfl, both⟩
    · exact .inr old
  · rintro (⟨rfl, both⟩ | old)
    · exact .inl ⟨task, both, rfl, rfl⟩
    · exact .inr old

/-- A save keeps the invariant.  The saving pulse puts no stale record over a terminal
one it may still claim, and over one the other pulse may still claim it puts a terminal
one. -/
theorem Inv.save {scrubber : Scrubber} {world : World} (inv : Inv world) {id : Bool}
    {pulse : Pulse} {phase : Phase} {now : Time} (running : world.pulses id = some pulse)
    (saves : pulse.phase.afterSave = some phase) :
    Inv (world.afterSave scrubber id pulse phase now) := by
  have wf := inv.wf id pulse running
  have self : (world.afterSave scrubber id pulse phase now).pulses id =
      some (pulse.afterSave scrubber phase now world.disk) := Function.update_self ..
  have rest : (world.afterSave scrubber id pulse phase now).pulses (!id) = world.pulses (!id) :=
    Function.update_of_ne (by cases id <;> decide) ..
  have disk : (world.afterSave scrubber id pulse phase now).disk =
      pulse.savedDisk scrubber now world.disk := rfl
  have onDisk : ∀ task, Done (Store.tasksOf (pulse.savedDisk scrubber now world.disk)) task ↔
      Done (pulse.afterSave scrubber phase now world.disk).tasks task := fun task =>
    done_savedDisk task
  have started : pulse.phase ≠ .preparing := fun preparing => by
    simp [preparing, Phase.afterSave] at saves
  have stillStarted : phase ≠ .preparing := by
    rintro rfl
    cases here : pulse.phase <;> simp [here, Phase.afterSave] at saves
  refine ⟨nodup_savedDisk wf inv.distinct, fun other held found => ?_, fun other task isOpen => ?_⟩
  · by_cases same : other = id
    · subst same
      rw [self, Option.some.injEq] at found
      exact found ▸ wf.afterSave inv.distinct saves
    · rw [eq_not_of_ne same, rest] at found
      exact inv.wf _ held found
  · by_cases same : other = id
    · subst same
      have may : pulse.MayClaim task := by
        have mayAfter := isOpen _ self
        rw [mayClaim_iff _ stillStarted] at mayAfter
        exact (mayClaim_iff pulse started task).mpr mayAfter
      have old := inv.openTasks other task fun held found => by
        rw [running, Option.some.injEq] at found
        exact found ▸ may
      have keeps : Done (Store.tasksOf world.disk) task →
          Done (pulse.afterSave scrubber phase now world.disk).tasks task :=
        done_afterSave_of_disk (wf.not_owned may) (old.loadedLive pulse running)
          (old.seen pulse running)
      have adds : Done (pulse.afterSave scrubber phase now world.disk).tasks task →
          Done (Store.tasksOf world.disk) task :=
        done_disk_of_afterSave (old.fresh pulse running)
      constructor
      · intro held found
        rw [self, Option.some.injEq] at found
        rw [← found]
        exact old.loadedLive pulse running
      · intro held found seen
        rw [self, Option.some.injEq] at found
        rw [← found] at seen ⊢
        rcases Store.saveTasks_baseline scrubber.codec now pulse.queue (some pulse.loadedSnapshot)
          pulse.owned pulse.baseline world.disk with moved | ⟨still, -⟩
        · simp only [Pulse.afterSave, moved] at seen
          exact (onDisk task).mp seen
        · simp only [Pulse.afterSave, still] at seen
          exact keeps (old.fresh pulse running (old.seen pulse running seen))
      · intro held found done
        rw [self, Option.some.injEq] at found
        rw [← found] at done
        rw [disk, onDisk]
        exact done
      · intro held found done
        rw [rest] at found
        rw [disk, onDisk] at done
        exact old.other held found (adds done)
      · rw [disk, onDisk, mem_finished_afterSave]
        rintro (⟨wrong, -⟩ | finished)
        · cases other <;> contradiction
        · exact keeps (old.finished finished)
      · rw [disk, onDisk, mem_finished_afterSave]
        exact fun _ done => .inr (old.logged ⟨pulse, running⟩ (adds done))
    · obtain rfl := eq_not_of_ne same
      have old := inv.openTasks (!id) task fun held found => isOpen held (rest.trans found)
      have keeps : Done (Store.tasksOf world.disk) task →
          Done (pulse.afterSave scrubber phase now world.disk).tasks task := fun done =>
        done_afterSave_of_both done
          (old.other pulse (by rw [Bool.not_not]; exact running) done)
      constructor
      · rw [rest]
        exact old.loadedLive
      · rw [rest]
        exact old.seen
      · rw [rest, disk, onDisk]
        exact fun held found done => keeps (old.fresh held found done)
      · intro held found done
        rw [Bool.not_not, self, Option.some.injEq] at found
        rw [disk, onDisk] at done
        exact found ▸ done
      · rw [disk, onDisk, Bool.not_not, mem_finished_afterSave]
        rintro (⟨-, done, -⟩ | finished)
        · exact (onDisk task).mp done
        · exact keeps (old.finished (by rw [Bool.not_not]; exact finished))
      · rw [disk, rest, Bool.not_not, mem_finished_afterSave]
        intro loaded done
        by_cases before : Done (Store.tasksOf world.disk) task
        · have logged := old.logged loaded before
          rw [Bool.not_not] at logged
          exact .inr logged
        · exact .inl ⟨rfl, done, before⟩

/-- Every step keeps the invariant, and only a claim adds an execution. -/
theorem next_inv {scrubber : Scrubber} {world after : World} {label : Label} (inv : Inv world)
    (stepped : next scrubber world label = some after) :
    Inv after ∧
      (after.executions = world.executions ∨
        ∃ id lease now score pulse taskId rest task, label = .visit id lease now score ∧
          world.pulses id = some pulse ∧ pulse.phase = .walking ∧
          pulse.runnable = taskId :: rest ∧
          KeyedList.get Task.id pulse.byId taskId = some task ∧
          world.claims id pulse task = true ∧
          after.executions = {
            pulse := id, task := taskId
            finishedBy := (world.finished.filter fun entry =>
              decide (entry.2 = taskId)).map Prod.fst } :: world.executions) := by
  cases label with
  | load id =>
      simp only [next] at stepped
      split at stepped
      · contradiction
      next idle =>
        cases stepped
        exact ⟨inv.load idle, .inl rfl⟩
  | prepare id task =>
      simp only [next] at stepped
      split at stepped
      · contradiction
      next pulse running =>
        split at stepped
        next preparing =>
          obtain ⟨moved, prepared, rfl⟩ := Option.map_eq_some_iff.mp stepped
          obtain ⟨step, wf⟩ := prepare_local (inv.wf id pulse running) preparing prepared
          exact ⟨inv.localStep running step wf rfl rfl rfl, .inl rfl⟩
        next => contradiction
  | start id order =>
      simp only [next] at stepped
      split at stepped
      · contradiction
      next pulse running =>
        split at stepped
        next preparing =>
          obtain ⟨moved, started, rfl⟩ := Option.map_eq_some_iff.mp stepped
          obtain ⟨step, wf⟩ := start_local (inv.wf id pulse running) preparing started
          exact ⟨inv.localStep running step wf rfl rfl rfl, .inl rfl⟩
        next => contradiction
  | visit id lease now score =>
      simp only [next] at stepped
      split at stepped
      · contradiction
      next pulse running =>
        split at stepped
        next taskId rest walking head =>
          split at stepped
          · contradiction
          next task captured =>
            obtain ⟨step, wf⟩ := visit_local (world.grants id taskId) lease now score
              (inv.wf id pulse running) walking head captured
            split at stepped
            next claims =>
              cases stepped
              exact ⟨inv.localStep running step wf rfl rfl rfl,
                .inr ⟨id, lease, now, score, pulse, taskId, rest, task, rfl, running, walking,
                  head, captured, claims, rfl⟩⟩
            next =>
              cases stepped
              exact ⟨inv.localStep running step wf rfl rfl rfl, .inl rfl⟩
        next => contradiction
  | process id outcome =>
      simp only [next] at stepped
      split at stepped
      · contradiction
      next pulse running =>
        split at stepped
        next taskId here =>
          split at stepped
          next sameId =>
            cases stepped
            have wf := inv.wf id pulse running
            subst sameId
            obtain ⟨visited, task, captured, isRunning⟩ := wf.current _ (.inr here)
            have live : isTerminal task.status = false := by rw [isRunning]; rfl
            exact ⟨inv.localStep running
              (.assign wf captured live visited (by simp [here]) (by simp))
              (wf.assign captured visited (by simp) (by simp)) rfl rfl rfl, .inl rfl⟩
          next => contradiction
        next => contradiction
  | release id =>
      simp only [next] at stepped
      split at stepped
      · contradiction
      next pulse running =>
        split at stepped
        next taskId here =>
          cases stepped
          have wf := inv.wf id pulse running
          have started : pulse.phase ≠ .preparing := by simp [here]
          exact ⟨inv.localStep running
            (.advance (by simp) fun id member => (mayClaim_iff pulse started id).mpr member)
            (wf.advance (.refl _) wf.unowned (by simp) (by simp)) rfl rfl rfl, .inl rfl⟩
        next => contradiction
  | stop id =>
      simp only [next] at stepped
      split at stepped
      · contradiction
      next pulse running =>
        split at stepped
        next here =>
          cases stepped
          have wf := inv.wf id pulse running
          exact ⟨inv.localStep running (.advance (by simp) (by simp))
            (wf.advance (List.nil_sublist _) (by simp) (by simp) (by simp)) rfl rfl rfl, .inl rfl⟩
        next => contradiction
  | save id now =>
      simp only [next] at stepped
      split at stepped
      · contradiction
      next pulse running =>
        split at stepped
        · contradiction
        next phase saves =>
          cases stepped
          exact ⟨inv.save running saves, .inl rfl⟩
  | lapse taskId =>
      cases stepped
      exact ⟨⟨inv.distinct, inv.wf, fun id task isOpen => by
        have old := inv.openTasks id task isOpen
        exact ⟨old.loadedLive, old.seen, old.fresh, old.other, old.finished, old.logged⟩⟩, .inl rfl⟩

/-- At a claim the other pulse has finished the task before exactly when the record on
disk is terminal. -/
theorem finished_iff_done {world : World} (inv : Inv world) {id : Bool} {pulse : Pulse}
    {taskId : TaskId} {rest : List TaskId} (running : world.pulses id = some pulse)
    (walking : pulse.phase = .walking) (head : pulse.runnable = taskId :: rest) :
    (!id, taskId) ∈ world.finished ↔ Done (Store.tasksOf world.disk) taskId := by
  have isOpen : world.Open id taskId := fun held found => by
    rw [running, Option.some.injEq] at found
    rw [← found, mayClaim_iff pulse (by simp [walking]), head]
    exact List.mem_cons_self
  have here := inv.openTasks id taskId isOpen
  exact ⟨here.finished, here.logged ⟨pulse, running⟩⟩

theorem inv_of_reachable {scrubber : Scrubber} {guard : World → Label → Prop} {world : World}
    (reachable : (system scrubber).Reachable guard world) : Inv world := by
  refine reachable.invariant _ ?_ ?_
  · rintro world ⟨distinct, idle, noneFinished, -⟩
    refine ⟨distinct, fun id pulse running => by simp [idle id] at running, fun id task _ => ?_⟩
    constructor <;> simp [idle, noneFinished]
  · exact fun _ _ _ _ inv _ stepped => (next_inv inv stepped).1

/-- In every run of two pulses in which a task is claimed only while its record on disk
is not terminal, no pulse executes a task that the other one has finished and saved. -/
theorem neverTwice_of_claimsUnfinished {scrubber : Scrubber} {world : World}
    (reachable : (system scrubber).Reachable ClaimsUnfinished world) : NeverTwice world := by
  induction reachable with
  | start started =>
      obtain ⟨-, -, -, noneExecuted⟩ := started
      simp [NeverTwice, noneExecuted]
  | step before guarded stepped ih =>
      have inv := inv_of_reachable before
      obtain ⟨-, same | claim⟩ := next_inv inv stepped
      · rw [NeverTwice, same]
        exact ih
      · obtain ⟨id, lease, now, score, pulse, taskId, rest, task, rfl, running, walking, head,
          captured, claims, executions⟩ := claim
        rw [NeverTwice, executions]
        refine List.forall_mem_cons.mpr ⟨fun other finishedBy => ?_, ih⟩
        by_contra differ
        have unfinished := guarded taskId (by
          simp [World.nextClaim, running, head, captured, claims])
        rw [← finished_iff_done inv running walking head] at unfinished
        simp only [List.mem_map, List.mem_filter, decide_eq_true_eq] at finishedBy
        obtain ⟨⟨who, what⟩, ⟨logged, rfl⟩, rfl⟩ := finishedBy
        exact unfinished (eq_not_of_ne differ ▸ logged)

/-- A scrubber for tasks that hold no secret. -/
def plainScrubber : Scrubber where
  scrub := id
  id_scrub task := Eq.refl task.id
  status_scrub task := Eq.refl task.status

def twoPending : World where
  disk := some ⟨0, [{ id := "issue-1" }, { id := "issue-2" }]⟩
  leases _ := none
  pulses _ := none
  finished := []
  executions := []

theorem twoPending_start : (system plainScrubber).start twoPending :=
  ⟨by decide, fun _ => rfl, rfl, rfl⟩

def lease (owner : String) : Lease := { owner, acquiredAt := some 0, expiresAt := some 1000 }

/-- Both pulses load; the first claims a task, completes it, saves and goes on. -/
def firstRun : List Label :=
  [.load true, .load false, .start true ["issue-1"], .start false ["issue-1"],
    .visit true (lease "first") 1 "1.0", .save true 2,
    .process true { id := "issue-1", status := .complete }, .release true, .save true 3]

def onePending : World :=
  { twoPending with disk := some ⟨0, [{ id := "issue-1" }]⟩ }

theorem onePending_start : (system plainScrubber).start onePending :=
  ⟨by decide, fun _ => rfl, rfl, rfl⟩

/-- The second pulse loaded the queue before the first one finished the task.  The
lease is free again, and the object it captured still says pending. -/
theorem not_neverTwice :
    ¬∀ world, (system plainScrubber).Reachable System.always world → NeverTwice world := by
  intro every
  have ran : ∃ after, (system plainScrubber).exec System.always onePending
      (firstRun ++ [.visit false (lease "second") 4 "1.0"]) = some after ∧
      ⟨false, "issue-1", [true]⟩ ∈ after.executions := ⟨_, rfl, List.mem_cons_self⟩
  obtain ⟨after, ran, executed⟩ := ran
  have once := every after (System.Reachable.of_exec (.start onePending_start) ran)
  exact absurd (once _ executed true List.mem_cons_self) (by decide)

/-- Each pulse runs one of two tasks; the first is refused the lease of the other. -/
def sharedRun : List Label :=
  [.load true, .load false, .start true ["issue-1", "issue-2"],
    .start false ["issue-2", "issue-1"],
    .visit true (lease "first") 1 "1.0", .visit false (lease "second") 1 "1.0",
    .save true 2, .save false 3,
    .process true { id := "issue-1", status := .complete }, .release true, .save true 4,
    .visit true (lease "first") 5 "1.0",
    .process false { id := "issue-2", status := .complete }, .release false, .save false 6,
    .stop true, .stop false, .save false 7, .save true 8]

theorem neverTwice_sharedRun :
    ∃ after, (system plainScrubber).exec ClaimsUnfinished twoPending sharedRun = some after ∧
      after.executions.length = 2 ∧ NeverTwice after := by
  have ran : ∃ after, (system plainScrubber).exec ClaimsUnfinished twoPending sharedRun =
      some after ∧ after.executions.length = 2 := ⟨_, rfl, rfl⟩
  obtain ⟨after, ran, count⟩ := ran
  exact ⟨after, ran, count,
    neverTwice_of_claimsUnfinished (System.Reachable.of_exec (.start twoPending_start) ran)⟩

end Claim

end TitanRunner
