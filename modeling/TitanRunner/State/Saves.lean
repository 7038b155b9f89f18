import Mathlib
import TitanRunner.State.Store

/-!
# Pulses saving one queue file

Any number of pulses load the file, change their copy in memory and save it, in any
order.  For each pulse two facts are recorded that its code cannot see: the tasks
another pulse wrote since its last load or save, and the tasks it moved to the
archive.  Every save is logged together with them, and the law of `saveTasks` is a
property of the log.
-/

namespace TitanRunner

namespace Store

open TransitionSystem

/-- One call of `saveTasks`: what the pulse and the file held before it, and the
tasks on disk after it. -/
structure SaveRecord (Obj Rec : Type) where
  tasks : List Obj
  owned : List TaskId
  touched : List TaskId
  archived : List TaskId
  before : List Rec
  after : List Rec

/-- A pulse between its load and its end. -/
structure Pulse (Obj Rec : Type) where
  tasks : List Obj
  loadedSnapshot : List Rec
  baseline : Option (TasksFile Rec)
  owned : List TaskId
  /-- Written by another pulse since this one last loaded or saved. -/
  touched : List TaskId
  /-- Moved to the archive by this pulse. -/
  archived : List TaskId

structure World (PulseId Obj Rec : Type) where
  disk : Option (TasksFile Rec)
  pulses : PulseId → Option (Pulse Obj Rec)
  saves : List (SaveRecord Obj Rec)

inductive Label (PulseId Obj : Type) where
  | load (pulse : PulseId)
  | change (pulse : PulseId) (object : Obj)
  | add (pulse : PulseId) (object : Obj)
  | own (pulse : PulseId) (id : TaskId)
  | archive (pulse : PulseId) (id : TaskId)
  | save (pulse : PulseId) (now : Time)

variable {PulseId Obj Rec : Type} [DecidableEq PulseId] [DecidableEq Rec]

/-- The tasks whose record on disk a save wrote. -/
def changedIds (codec : Codec Obj Rec) (before after : List Rec) : List TaskId :=
  (after.map codec.id).filter fun id =>
    decide (KeyedList.get codec.id after id ≠ KeyedList.get codec.id before id)

/-- `loadTasks`, and `loadedSnapshot` taken of its result. -/
def loadPulse (codec : Codec Obj Rec) (disk : Option (TasksFile Rec)) : Pulse Obj Rec :=
  let tasks := (tasksOf disk).map codec.fresh
  { tasks, loadedSnapshot := tasks.map codec.read, baseline := disk
    owned := [], touched := [], archived := [] }

/-- The call of `saveTasks` a pulse makes. -/
def Pulse.save (codec : Codec Obj Rec) (pulse : Pulse Obj Rec) (now : Time)
    (disk : Option (TasksFile Rec)) : Saved Obj Rec :=
  saveTasks codec now pulse.tasks (some pulse.loadedSnapshot) pulse.owned pulse.baseline disk

/-- The pulse after its own save. -/
def Pulse.afterSave (codec : Codec Obj Rec) (pulse : Pulse Obj Rec) (now : Time)
    (disk : Option (TasksFile Rec)) : Pulse Obj Rec :=
  let saved := pulse.save codec now disk
  { pulse with tasks := saved.tasks, baseline := saved.baseline, touched := [] }

def Pulse.saveRecord (codec : Codec Obj Rec) (pulse : Pulse Obj Rec) (now : Time)
    (disk : Option (TasksFile Rec)) : SaveRecord Obj Rec where
  tasks := pulse.tasks
  owned := pulse.owned
  touched := pulse.touched
  archived := pulse.archived
  before := tasksOf disk
  after := tasksOf (pulse.save codec now disk).disk

/-- What a save of another pulse adds to a pulse's `touched`. -/
def Pulse.touch (ids : List TaskId) (pulse : Pulse Obj Rec) : Pulse Obj Rec :=
  { pulse with touched := ids ++ pulse.touched }

/-- The steps of the pulses.  A change keeps the id of the task it changes; an added
task onFile an id the queue does not hold yet. -/
def next (codec : Codec Obj Rec) (world : World PulseId Obj Rec) :
    Label PulseId Obj → Option (World PulseId Obj Rec)
  | .load id =>
      some { world with
        pulses := Function.update world.pulses id (some (loadPulse codec world.disk)) }
  | .change id object =>
      match world.pulses id with
      | none => none
      | some pulse =>
          if codec.idOf object ∈ pulse.tasks.map codec.idOf then
            some { world with
              pulses := Function.update world.pulses id (some { pulse with
                tasks := KeyedList.set codec.idOf pulse.tasks object }) }
          else none
  | .add id object =>
      match world.pulses id with
      | none => none
      | some pulse =>
          if codec.idOf object ∈ pulse.tasks.map codec.idOf then none
          else
            some { world with
              pulses := Function.update world.pulses id (some { pulse with
                tasks := pulse.tasks ++ [object] }) }
  | .own id task =>
      match world.pulses id with
      | none => none
      | some pulse =>
          some { world with
            pulses := Function.update world.pulses id (some { pulse with
              owned := task :: pulse.owned }) }
  | .archive id task =>
      match world.pulses id with
      | none => none
      | some pulse =>
          some { world with
            pulses := Function.update world.pulses id (some { pulse with
              tasks := pulse.tasks.filter fun object => decide (codec.idOf object ≠ task)
              archived := task :: pulse.archived }) }
  | .save id now =>
      match world.pulses id with
      | none => none
      | some pulse =>
          let saved := pulse.save codec now world.disk
          let written := changedIds codec (tasksOf world.disk) (tasksOf saved.disk)
          let others := fun other => (world.pulses other).map (Pulse.touch written)
          some {
            disk := saved.disk
            pulses := Function.update others id (some (pulse.afterSave codec now world.disk))
            saves := pulse.saveRecord codec now world.disk :: world.saves }

/-- Any file whose tasks have distinct ids, and no pulse running. -/
def system (codec : Codec Obj Rec) : System (World PulseId Obj Rec) (Label PulseId Obj) where
  start world :=
    ((tasksOf world.disk).map codec.id).Nodup ∧ (∀ id, world.pulses id = none) ∧
      world.saves = []
  next := next codec

/-- A save loses no update. -/
structure SaveRecord.Keeps (codec : Codec Obj Rec) (save : SaveRecord Obj Rec) : Prop where
  ours : ∀ id mine, KeyedList.get codec.idOf save.tasks id = some mine →
    id ∉ save.touched ∨ id ∈ save.owned →
    KeyedList.get codec.id save.after id = some (codec.saved mine)
  theirs : ∀ id theirTask, KeyedList.get codec.id save.before id = some theirTask →
    id ∈ save.touched → id ∉ save.owned →
    id ∈ save.tasks.map codec.idOf ∨ id ∉ save.archived →
    KeyedList.get codec.id save.after id = some (codec.scrub theirTask)
  once : ∀ id, id ∈ save.tasks.map codec.idOf ∨
      id ∈ save.before.map codec.id ∧ id ∉ save.archived →
    (save.after.map codec.id).count id = 1

/-- The merge guesses right: a task this pulse does not own and whose two copies
differ is taken from the file exactly when another pulse wrote it. -/
def Pulse.GuessesRight (codec : Codec Obj Rec) (pulse : Pulse Obj Rec)
    (disk : Option (TasksFile Rec)) : Prop :=
  ∀ id mine theirTask, KeyedList.get codec.idOf pulse.tasks id = some mine →
    KeyedList.get codec.id (tasksOf disk) id = some theirTask →
    id ∉ pulse.owned → codec.saved mine ≠ codec.scrub theirTask →
    (id ∈ pulse.touched ↔
      mergesOnSave (some pulse.loadedSnapshot) pulse.baseline disk = true ∧
        KeyedList.get codec.id pulse.loadedSnapshot id ≠ some theirTask)

/-- The guard of the runs in which every save guesses right. -/
def GuessesRight (codec : Codec Obj Rec) (world : World PulseId Obj Rec) :
    Label PulseId Obj → Prop
  | .save id _ => ∀ pulse, world.pulses id = some pulse → pulse.GuessesRight codec world.disk
  | _ => True

/-- What the code keeps true of a pulse: its ids are distinct, and it knows every task
of the text it loaded and of the text it last saw. -/
structure Pulse.Wf (codec : Codec Obj Rec) (pulse : Pulse Obj Rec) : Prop where
  distinct : (pulse.tasks.map codec.idOf).Nodup
  loaded : ∀ id ∈ pulse.loadedSnapshot.map codec.id,
    id ∈ pulse.tasks.map codec.idOf ∨ id ∈ pulse.archived
  seen : ∀ id ∈ (tasksOf pulse.baseline).map codec.id,
    id ∈ pulse.tasks.map codec.idOf ∨ id ∈ pulse.archived

section Step

variable {codec : Codec Obj Rec} {pulse : Pulse Obj Rec} {disk : Option (TasksFile Rec)}
  {now : Time}

theorem get_saveRecord_after (id : TaskId) :
    KeyedList.get codec.id (pulse.saveRecord codec now disk).after id =
      (KeyedList.get codec.idOf (candidateTasks codec pulse.tasks (some pulse.loadedSnapshot)
        pulse.owned pulse.baseline disk) id).map codec.saved := by
  rw [Pulse.saveRecord, Pulse.save, tasksOf_saveTasks_disk,
    KeyedList.get_map codec.id codec.saved codec.id_saved]

theorem ids_saveRecord_after :
    (pulse.saveRecord codec now disk).after.map codec.id =
      (candidateTasks codec pulse.tasks (some pulse.loadedSnapshot)
        pulse.owned pulse.baseline disk).map codec.idOf := by
  rw [Pulse.saveRecord, Pulse.save, tasksOf_saveTasks_disk, codec.ids_map_saved]

/-- Which copy of a task that both sides have is on disk after the save. -/
theorem get_saveRecord_after_both (now : Time) {id : TaskId} {mine : Obj} {theirTask : Rec}
    (held : KeyedList.get codec.idOf pulse.tasks id = some mine)
    (onFile : KeyedList.get codec.id (tasksOf disk) id = some theirTask) :
    KeyedList.get codec.id (pulse.saveRecord codec now disk).after id =
      if id ∉ pulse.owned ∧
          mergesOnSave (some pulse.loadedSnapshot) pulse.baseline disk = true ∧
          KeyedList.get codec.id pulse.loadedSnapshot id ≠ some theirTask
      then some (codec.scrub theirTask) else some (codec.saved mine) := by
  rw [get_saveRecord_after, candidateTasks]
  split
  next merges =>
    rw [get_merge, onFile, held]
    simp only [Option.getD_some, merges, true_and]
    by_cases owned : id ∈ pulse.owned
    · simp [owned]
    · by_cases unchanged : KeyedList.get codec.id pulse.loadedSnapshot id = some theirTask
      · simp [unchanged]
      · simp [owned, unchanged, Codec.saved, codec.read_fresh]
  next merges =>
    simp [merges, held]

theorem nodup_ids_candidate (wf : pulse.Wf codec)
    (distinct : ((tasksOf disk).map codec.id).Nodup) :
    ((candidateTasks codec pulse.tasks (some pulse.loadedSnapshot)
      pulse.owned pulse.baseline disk).map codec.idOf).Nodup := by
  unfold candidateTasks
  split
  · exact nodup_ids_merge _ _ _ _ _ wf.distinct distinct
  · exact wf.distinct

/-- The candidate keeps every task of the pulse. -/
theorem mem_ids_candidate {id : TaskId} (known : id ∈ pulse.tasks.map codec.idOf) :
    id ∈ (candidateTasks codec pulse.tasks (some pulse.loadedSnapshot)
      pulse.owned pulse.baseline disk).map codec.idOf := by
  unfold candidateTasks
  split
  · exact (mem_ids_merge ..).mpr (.inr known)
  · exact known

/-- A task on disk that the pulse does not know was written under it, so the save
merges; otherwise the pulse archived it. -/
theorem mem_ids_candidate_of_disk {id : TaskId} (wf : pulse.Wf codec)
    (onDisk : id ∈ (tasksOf disk).map codec.id) (kept : id ∉ pulse.archived) :
    id ∈ (candidateTasks codec pulse.tasks (some pulse.loadedSnapshot)
      pulse.owned pulse.baseline disk).map codec.idOf := by
  unfold candidateTasks
  split
  · exact (mem_ids_merge ..).mpr (.inl onDisk)
  next merges =>
    cases disk with
    | none => simp [tasksOf] at onDisk
    | some file =>
        simp only [mergesOnSave, Bool.and_eq_true, decide_eq_true_eq, not_and, not_not] at merges
        by_cases same : some file = pulse.baseline
        · exact (wf.seen id (same ▸ onDisk)).resolve_right kept
        · exact (wf.loaded id (merges same ▸ onDisk)).resolve_right kept

/-- One save loses nothing exactly when its merge guesses right. -/
theorem keeps_iff_guessesRight (wf : pulse.Wf codec)
    (distinct : ((tasksOf disk).map codec.id).Nodup) :
    (pulse.saveRecord codec now disk).Keeps codec ↔ pulse.GuessesRight codec disk := by
  constructor
  · intro keeps id mine theirTask held onFile unowned differ
    have after := get_saveRecord_after_both now held onFile
    by_cases touched : id ∈ pulse.touched
    · have theirs := keeps.theirs id theirTask onFile touched unowned
        (.inl (KeyedList.mem_keys_of_get held))
      rw [theirs] at after
      split at after
      next guess => exact iff_of_true touched guess.2
      next => exact absurd (Option.some.inj after).symm differ
    · have ours := keeps.ours id mine held (.inl touched)
      rw [ours] at after
      split at after
      next => exact absurd (Option.some.inj after) differ
      next guess => exact iff_of_false touched fun both => guess ⟨unowned, both⟩
  · intro right
    have pick : ∀ id mine theirTask, KeyedList.get codec.idOf pulse.tasks id = some mine →
        KeyedList.get codec.id (tasksOf disk) id = some theirTask →
        KeyedList.get codec.id (pulse.saveRecord codec now disk).after id =
          if id ∈ pulse.touched ∧ id ∉ pulse.owned then some (codec.scrub theirTask)
          else some (codec.saved mine) := by
      intro id mine theirTask held onFile
      rw [get_saveRecord_after_both now held onFile]
      by_cases owned : id ∈ pulse.owned
      · simp [owned]
      by_cases same : codec.saved mine = codec.scrub theirTask
      · simp [same]
      · have guess := right id mine theirTask held onFile owned same
        simp [owned, ← guess]
    refine ⟨fun id mine (held : KeyedList.get codec.idOf pulse.tasks id = some mine) unwritten => ?_,
      fun id theirTask (onFile : KeyedList.get codec.id (tasksOf disk) id = some theirTask)
        touched unowned known => ?_,
      fun id known => ?_⟩
    · cases onFile : KeyedList.get codec.id (tasksOf disk) id with
      | some theirTask =>
          rw [pick id mine theirTask held onFile, if_neg (by tauto)]
      | none =>
          rw [get_saveRecord_after, candidateTasks]
          split
          · simp [get_merge, onFile, held]
          · simp [held]
    · cases held : KeyedList.get codec.idOf pulse.tasks id with
      | some mine => rw [pick id mine theirTask held onFile, if_pos ⟨touched, unowned⟩]
      | none =>
          have absent := KeyedList.get_eq_none_iff.mp held
          have present := mem_ids_candidate_of_disk wf (KeyedList.mem_keys_of_get onFile)
            (known.resolve_left absent)
          rw [get_saveRecord_after]
          revert present
          rw [candidateTasks]
          split
          · intro _
            simp [get_merge, onFile, held, Codec.saved, codec.read_fresh]
          · exact fun present => absurd present absent
    · refine List.count_eq_one_of_mem ?_ ?_
      · rw [ids_saveRecord_after]
        exact nodup_ids_candidate wf distinct
      · rw [ids_saveRecord_after]
        rcases known with known | ⟨onDisk, kept⟩
        · exact mem_ids_candidate known
        · exact mem_ids_candidate_of_disk wf onDisk kept

theorem Pulse.Wf.afterSave (wf : pulse.Wf codec)
    (distinct : ((tasksOf disk).map codec.id).Nodup) :
    (pulse.afterSave codec now disk).Wf codec where
  distinct := by
    simp only [Pulse.afterSave, Pulse.save, saveTasks_tasks]
    exact nodup_ids_candidate wf distinct
  loaded id known := by
    simp only [Pulse.afterSave, Pulse.save, saveTasks_tasks]
    exact (wf.loaded id known).imp_left mem_ids_candidate
  seen id known := by
    simp only [Pulse.afterSave, Pulse.save, saveTasks_tasks] at known ⊢
    rcases saveTasks_baseline codec now pulse.tasks (some pulse.loadedSnapshot) pulse.owned
      pulse.baseline disk with moved | ⟨still, -⟩
    · rw [moved, tasksOf_saveTasks_disk, codec.ids_map_saved] at known
      exact .inl known
    · rw [still] at known
      exact (wf.seen id known).imp_left mem_ids_candidate

omit [DecidableEq Rec] in
theorem Pulse.Wf.load (distinct : ((tasksOf disk).map codec.id).Nodup) :
    (loadPulse codec disk).Wf codec := by
  have ids : ((tasksOf disk).map codec.fresh).map codec.idOf = (tasksOf disk).map codec.id := by
    rw [List.map_map]
    exact List.map_congr_left fun record _ => codec.idOf_fresh record
  refine ⟨?_, fun id known => .inl ?_, fun id known => .inl ?_⟩
  · simpa only [loadPulse, ids] using distinct
  · simp only [loadPulse, List.map_map] at known ⊢
    exact known
  · simpa only [loadPulse, ids] using known

omit [DecidableEq Rec] in
theorem Pulse.Wf.change (wf : pulse.Wf codec) (object : Obj) :
    ({ pulse with tasks := KeyedList.set codec.idOf pulse.tasks object }).Wf codec := by
  refine ⟨?_, fun id known => ?_, fun id known => ?_⟩ <;> simp only [KeyedList.keys_set]
  · exact wf.distinct
  · exact wf.loaded id known
  · exact wf.seen id known

omit [DecidableEq Rec] in
theorem Pulse.Wf.add (wf : pulse.Wf codec) {object : Obj}
    (new : codec.idOf object ∉ pulse.tasks.map codec.idOf) :
    ({ pulse with tasks := pulse.tasks ++ [object] }).Wf codec := by
  have grow : ∀ id ∈ pulse.tasks.map codec.idOf,
      id ∈ (pulse.tasks ++ [object]).map codec.idOf := fun id known => by
    rw [List.map_append]
    exact List.mem_append_left _ known
  refine ⟨?_, fun id known => (wf.loaded id known).imp_left (grow id),
    fun id known => (wf.seen id known).imp_left (grow id)⟩
  rw [List.map_append]
  exact wf.distinct.append (List.nodup_singleton _) (by simpa using new)

omit [DecidableEq Rec] in
theorem Pulse.Wf.archive (wf : pulse.Wf codec) (task : TaskId) :
    ({ pulse with
        tasks := pulse.tasks.filter fun object => decide (codec.idOf object ≠ task)
        archived := task :: pulse.archived }).Wf codec := by
  have move : ∀ id, id ∈ pulse.tasks.map codec.idOf ∨ id ∈ pulse.archived →
      id ∈ (pulse.tasks.filter fun object => decide (codec.idOf object ≠ task)).map codec.idOf ∨
        id ∈ task :: pulse.archived := by
    rintro id (known | archived)
    · by_cases same : id = task
      · exact .inr (same ▸ List.mem_cons_self)
      · obtain ⟨object, member, rfl⟩ := List.mem_map.mp known
        exact .inl (List.mem_map_of_mem (List.mem_filter.mpr ⟨member, by simpa using same⟩))
    · exact .inr (List.mem_cons_of_mem _ archived)
  refine ⟨?_, fun id known => move id (wf.loaded id known),
    fun id known => move id (wf.seen id known)⟩
  exact wf.distinct.sublist (List.filter_sublist.map _)

omit [DecidableEq Rec] in
/-- Objects of new ids go to the end of the queue. -/
theorem Pulse.Wf.append (wf : pulse.Wf codec) {objects : List Obj}
    (distinct : (objects.map codec.idOf).Nodup)
    (new : ∀ id ∈ objects.map codec.idOf, id ∉ pulse.tasks.map codec.idOf) :
    ({ pulse with tasks := pulse.tasks ++ objects }).Wf codec := by
  have grow : ∀ id ∈ pulse.tasks.map codec.idOf,
      id ∈ (pulse.tasks ++ objects).map codec.idOf := by
    intro id known
    rw [List.map_append]
    exact List.mem_append_left _ known
  constructor
  · rw [List.map_append]
    exact wf.distinct.append distinct fun id old fresh => new id fresh old
  · exact fun id known => (wf.loaded id known).imp_left (grow id)
  · exact fun id known => (wf.seen id known).imp_left (grow id)

omit [DecidableEq Rec] in
/-- A part of the queue stays, the ids of the rest are archived. -/
theorem Pulse.Wf.split (wf : pulse.Wf codec) {keep archive : List Obj}
    (fewer : keep.Sublist pulse.tasks)
    (all : ∀ object ∈ pulse.tasks, object ∈ keep ∨ object ∈ archive) :
    ({ pulse with
        tasks := keep
        archived := archive.map codec.idOf ++ pulse.archived }).Wf codec := by
  have move : ∀ id, id ∈ pulse.tasks.map codec.idOf ∨ id ∈ pulse.archived →
      id ∈ keep.map codec.idOf ∨ id ∈ archive.map codec.idOf ++ pulse.archived := by
    intro id known
    cases known with
    | inl known =>
        have ⟨object, member, same⟩ := List.mem_map.1 known
        subst same
        cases all object member with
        | inl kept => exact .inl (List.mem_map_of_mem kept)
        | inr gone => exact .inr (List.mem_append_left _ (List.mem_map_of_mem gone))
    | inr archived => exact .inr (List.mem_append_right _ archived)
  constructor
  · exact wf.distinct.sublist (fewer.map _)
  · exact fun id known => move id (wf.loaded id known)
  · exact fun id known => move id (wf.seen id known)

end Step

/-- The invariant of the runs. -/
structure World.Wf (codec : Codec Obj Rec) (world : World PulseId Obj Rec) : Prop where
  distinct : ((tasksOf world.disk).map codec.id).Nodup
  pulses : ∀ id pulse, world.pulses id = some pulse → pulse.Wf codec

omit [DecidableEq Rec] in
theorem World.Wf.update {codec : Codec Obj Rec} {world : World PulseId Obj Rec}
    (wf : world.Wf codec) {id : PulseId} {pulse : Pulse Obj Rec} (after : pulse.Wf codec) :
    ({ world with pulses := Function.update world.pulses id (some pulse) }).Wf codec := by
  refine ⟨wf.distinct, fun other held
    (found : Function.update world.pulses id (some pulse) other = some held) => ?_⟩
  by_cases same : other = id
  · subst same
    rw [Function.update_self] at found
    cases found
    exact after
  · rw [Function.update_of_ne same] at found
    exact wf.pulses other held found

/-- What one step keeps, and what it adds to the log. -/
theorem next_wf {codec : Codec Obj Rec} {world after : World PulseId Obj Rec}
    {label : Label PulseId Obj} (wf : world.Wf codec)
    (stepped : next codec world label = some after) :
    after.Wf codec ∧
      (after.saves = world.saves ∨ ∃ id now pulse, label = .save id now ∧
        world.pulses id = some pulse ∧
        after.saves = pulse.saveRecord codec now world.disk :: world.saves) := by
  cases label with
  | load id =>
      cases stepped
      exact ⟨wf.update (.load wf.distinct), .inl rfl⟩
  | change id object =>
      simp only [next] at stepped
      split at stepped
      · contradiction
      next pulse running =>
        split at stepped
        · cases stepped
          exact ⟨wf.update ((wf.pulses id pulse running).change object), .inl rfl⟩
        · contradiction
  | add id object =>
      simp only [next] at stepped
      split at stepped
      · contradiction
      next pulse running =>
        split at stepped
        · contradiction
        next new =>
          cases stepped
          exact ⟨wf.update ((wf.pulses id pulse running).add new), .inl rfl⟩
  | own id task =>
      simp only [next] at stepped
      split at stepped
      · contradiction
      next pulse running =>
        cases stepped
        have held := wf.pulses id pulse running
        exact ⟨wf.update ⟨held.distinct, held.loaded, held.seen⟩, .inl rfl⟩
  | archive id task =>
      simp only [next] at stepped
      split at stepped
      · contradiction
      next pulse running =>
        cases stepped
        exact ⟨wf.update ((wf.pulses id pulse running).archive task), .inl rfl⟩
  | save id now =>
      simp only [next] at stepped
      split at stepped
      · contradiction
      next pulse running =>
        cases stepped
        have held := wf.pulses id pulse running
        refine ⟨⟨?_, fun other found isFound => ?_⟩, .inr ⟨id, now, pulse, rfl, running, rfl⟩⟩
        · rw [Pulse.save, tasksOf_saveTasks_disk, codec.ids_map_saved]
          exact nodup_ids_candidate held wf.distinct
        · by_cases same : other = id
          · subst same
            simp only [Function.update_self] at isFound
            cases isFound
            exact held.afterSave wf.distinct
          · simp only [Function.update_of_ne same] at isFound
            obtain ⟨before, running', rfl⟩ := Option.map_eq_some_iff.mp isFound
            have beforeWf := wf.pulses other before running'
            exact ⟨beforeWf.distinct, beforeWf.loaded, beforeWf.seen⟩

/-- In every run whose saves all guess right, no save loses an update: what the pulse
changed is on disk unless another pulse wrote it, an owned task is always ours, a task
another pulse wrote is theirs, and no known task is missing or doubled. -/
theorem saves_keep {codec : Codec Obj Rec} {world : World PulseId Obj Rec}
    (reachable : (system codec).Reachable (GuessesRight codec) world) :
    ∀ save ∈ world.saves, save.Keeps codec := by
  suffices kept : world.Wf codec ∧ ∀ save ∈ world.saves, save.Keeps codec from kept.2
  refine reachable.invariant
    (fun world => world.Wf codec ∧ ∀ save ∈ world.saves, save.Keeps codec) ?_ ?_
  · rintro world ⟨distinct, idle, noSaves⟩
    exact ⟨⟨distinct, fun id pulse running => by simp [idle id] at running⟩, by simp [noSaves]⟩
  · rintro world label after - ⟨wf, kept⟩ guarded stepped
    obtain ⟨afterWf, same | ⟨id, now, pulse, rfl, running, saves⟩⟩ := next_wf wf stepped
    · exact ⟨afterWf, same ▸ kept⟩
    · refine ⟨afterWf, fun save member => ?_⟩
      rw [saves, List.mem_cons] at member
      rcases member with rfl | old
      · exact (keeps_iff_guessesRight (wf.pulses id pulse running) wf.distinct).mpr
          (guarded pulse running)
      · exact kept save old

section Runs

variable [DecidableEq Obj]

instance (codec : Codec Obj Rec) (pulse : Pulse Obj Rec) (disk : Option (TasksFile Rec)) :
    Decidable (pulse.GuessesRight codec disk) :=
  decidable_of_iff
    (∀ mine ∈ pulse.tasks, ∀ theirTask ∈ tasksOf disk,
      KeyedList.get codec.idOf pulse.tasks (codec.idOf mine) = some mine →
      KeyedList.get codec.id (tasksOf disk) (codec.idOf mine) = some theirTask →
      codec.idOf mine ∉ pulse.owned → codec.saved mine ≠ codec.scrub theirTask →
      (codec.idOf mine ∈ pulse.touched ↔
        mergesOnSave (some pulse.loadedSnapshot) pulse.baseline disk = true ∧
          KeyedList.get codec.id pulse.loadedSnapshot (codec.idOf mine) ≠ some theirTask))
    ⟨fun bounded id mine theirTask held onFile => by
        obtain rfl := KeyedList.key_of_get held
        exact bounded mine (KeyedList.mem_of_get held) theirTask (KeyedList.mem_of_get onFile)
          held onFile,
      fun right mine _ theirTask _ => right (codec.idOf mine) mine theirTask⟩

instance (codec : Codec Obj Rec) (world : World PulseId Obj Rec) (label : Label PulseId Obj) :
    Decidable (GuessesRight codec world label) :=
  match label with
  | .save id _ =>
      match running : world.pulses id with
      | none => .isTrue fun pulse held => by simp [running] at held
      | some pulse =>
          decidable_of_iff (pulse.GuessesRight codec world.disk)
            ⟨fun right other held => by
              rw [running, Option.some.injEq] at held
              exact held ▸ right, fun right => right pulse running⟩
  | .load _ | .change _ _ | .add _ _ | .own _ _ | .archive _ _ => .isTrue trivial

end Runs

/-- The codec of the queue's tasks; `scrub` is the secret scrubber. -/
def taskCodec (scrub : Task → Task) (id_scrub : ∀ task, (scrub task).id = task.id) :
    Codec Task Task where
  id := Task.id
  read := id
  fresh := id
  scrub
  read_fresh _ := rfl
  id_scrub

/-- Tasks that hold no secret: the scrubber leaves them alone. -/
def plainCodec : Codec Task Task := taskCodec id fun _ => rfl

def twoTasks : World Bool Task Task where
  disk := some ⟨0, [{ id := "issue-1" }, { id := "issue-2" }]⟩
  pulses _ := none
  saves := []

theorem twoTasks_start : (system plainCodec).start twoTasks :=
  ⟨by decide, fun _ => rfl, rfl⟩

/-- Two pulses change one task each; the second save merges, and so does a third save
that brings nothing new. -/
def disjointChanges : List (Label Bool Task) :=
  [.load true, .load false, .change true { id := "issue-1", attempts := 1 }, .save true 1,
    .change false { id := "issue-2", attempts := 2 }, .save false 2, .save true 3]

theorem saves_keep_disjointChanges :
    ∃ after, (system plainCodec).exec (GuessesRight plainCodec) twoTasks disjointChanges =
        some after ∧
      after.saves.length = 3 ∧ ∀ save ∈ after.saves, save.Keeps plainCodec := by
  have ran : ∃ after, (system plainCodec).exec (GuessesRight plainCodec) twoTasks
      disjointChanges = some after ∧ after.saves.length = 3 := ⟨_, rfl, rfl⟩
  obtain ⟨after, ran, count⟩ := ran
  exact ⟨after, ran, count, saves_keep (System.Reachable.of_exec (.start twoTasks_start) ran)⟩

/-- A task nobody owns is changed and saved, then changed again, while another pulse
writes a different task. -/
def changedTwice : List (Label Bool Task) :=
  [.load true, .load false, .change true { id := "issue-1", attempts := 1 }, .save true 1,
    .change true { id := "issue-1", attempts := 5 },
    .change false { id := "issue-2", attempts := 2 }, .save false 2, .save true 3]

/-- Without the side condition the second change is lost. -/
theorem not_saves_keep :
    ¬∀ world : World Bool Task Task, (system plainCodec).Reachable System.always world →
      ∀ save ∈ world.saves, save.Keeps plainCodec := by
  intro every
  have ran : ∃ after, (system plainCodec).exec System.always twoTasks changedTwice = some after ∧
      ∃ save ∈ after.saves,
        KeyedList.get Task.id save.tasks "issue-1" = some { id := "issue-1", attempts := 5 } ∧
        save.touched = ["issue-2"] ∧
        KeyedList.get Task.id save.after "issue-1" = some { id := "issue-1", attempts := 1 } :=
    ⟨_, rfl, _, List.mem_cons_self, rfl, rfl, rfl⟩
  obtain ⟨after, ran, save, logged, held, touched, lost⟩ := ran
  have keeps := every after (System.Reachable.of_exec (.start twoTasks_start) ran) save logged
  have kept := keeps.ours "issue-1" _ held (.inl (by rw [touched]; decide))
  exact absurd (lost.symm.trans kept) (by decide)

end Store

end TitanRunner
