import TitanRunner.Lib.KeyedList
import TitanRunner.Lib.Transition
import TitanRunner.Task.Schema

/-!
# The queue file

`state/store.js`: `loadTasks`, `saveTasks` and the three-way merge by ownership.
The text of a JSON value is compared in the source; here the value itself is.  A
pulse holds objects, the file holds records: `Codec` says how one is read off the
other and what the secret scrubber does to a record on its way to the disk.

The second half runs any number of pulses over one file.  Every save is logged
with what the saving pulse and the file held before it, and the law of `saveTasks`
is a property of that log.
-/

namespace TitanRunner

namespace Store

open TransitionSystem

/-- How the objects of a pulse relate to the records of the file. -/
structure Codec (Obj Rec : Type) where
  id : Rec → TaskId
  /-- `JSON.stringify`. -/
  read : Obj → Rec
  /-- `JSON.parse`. -/
  fresh : Rec → Obj
  /-- `scrubForState`. -/
  scrub : Rec → Rec
  read_fresh : ∀ record, read (fresh record) = record
  id_scrub : ∀ record, id (scrub record) = id record

variable {Obj Rec : Type}

/-- The id of an object. -/
def Codec.idOf (codec : Codec Obj Rec) (object : Obj) : TaskId :=
  codec.id (codec.read object)

@[simp] theorem Codec.idOf_fresh (codec : Codec Obj Rec) (record : Rec) :
    codec.idOf (codec.fresh record) = codec.id record := by
  rw [Codec.idOf, codec.read_fresh]

/-- The record an object becomes on disk. -/
def Codec.saved (codec : Codec Obj Rec) (object : Obj) : Rec :=
  codec.scrub (codec.read object)

@[simp] theorem Codec.id_saved (codec : Codec Obj Rec) (object : Obj) :
    codec.id (codec.saved object) = codec.idOf object :=
  codec.id_scrub _

theorem Codec.ids_map_saved (codec : Codec Obj Rec) (objects : List Obj) :
    (objects.map codec.saved).map codec.id = objects.map codec.idOf := by
  rw [List.map_map]
  exact List.map_congr_left fun object _ => codec.id_saved object

/-- `tasks.json`. -/
structure TasksFile (Rec : Type) where
  updatedAt : Time
  tasks : List Rec
  deriving DecidableEq, Repr

/-- The records of a file that may not exist yet. -/
def tasksOf (file : Option (TasksFile Rec)) : List Rec :=
  match file with
  | none => []
  | some file => file.tasks

variable [DecidableEq Rec]

/-- The choice `mergeTasksByOwnership` makes for a task of the file. -/
def mergeOne (codec : Codec Obj Rec) (ours : List Obj) (loaded : List Rec)
    (owned : List TaskId) (theirTask : Rec) : Obj :=
  match KeyedList.get codec.idOf ours (codec.id theirTask) with
  | none => codec.fresh theirTask
  | some mine =>
      let theirsUnchanged :=
        decide (KeyedList.get codec.id loaded (codec.id theirTask) = some theirTask)
      if codec.id theirTask ∈ owned ∨ theirsUnchanged then mine else codec.fresh theirTask

/-- `mergeTasksByOwnership`: the tasks of the file in its order, then those only we
have. -/
def mergeTasksByOwnership (codec : Codec Obj Rec) (ours : List Obj) (theirs loaded : List Rec)
    (owned : List TaskId) : List Obj :=
  theirs.map (mergeOne codec ours loaded owned) ++
    ours.filter fun ourTask => decide (codec.idOf ourTask ∉ theirs.map codec.id)

/-- Whether `saveTasks` merges: the file is not the text this pulse last read or
wrote, and its tasks are not those the pulse loaded. -/
def mergesOnSave (loadedSnapshot : Option (List Rec)) (baseline disk : Option (TasksFile Rec)) :
    Bool :=
  match loadedSnapshot, disk with
  | some loaded, some previous =>
      let isForeign := decide (disk ≠ baseline)
      isForeign && decide (previous.tasks ≠ loaded)
  | _, _ => false

/-- The queue a save goes on with: merged with the file, or as it was. -/
def candidateTasks (codec : Codec Obj Rec) (tasks : List Obj)
    (loadedSnapshot : Option (List Rec)) (ownedIds : List TaskId)
    (baseline disk : Option (TasksFile Rec)) : List Obj :=
  if mergesOnSave loadedSnapshot baseline disk then
    mergeTasksByOwnership codec tasks (tasksOf disk) (loadedSnapshot.getD []) ownedIds
  else tasks

/-- What a save leaves behind. -/
structure Saved (Obj Rec : Type) where
  tasks : List Obj
  disk : Option (TasksFile Rec)
  baseline : Option (TasksFile Rec)
  written : Bool

/-- `saveTasks`. -/
def saveTasks (codec : Codec Obj Rec) (now : Time) (tasks : List Obj)
    (loadedSnapshot : Option (List Rec)) (ownedIds : List TaskId)
    (baseline disk : Option (TasksFile Rec)) : Saved Obj Rec :=
  let tasks := candidateTasks codec tasks loadedSnapshot ownedIds baseline disk
  let payload := tasks.map codec.saved
  let same := decide (disk.map TasksFile.tasks = some payload)
  if same then { tasks, disk, baseline, written := false }
  else
    let file : TasksFile Rec := { updatedAt := now, tasks := payload }
    { tasks, disk := some file, baseline := some file, written := true }

section Merge

variable (codec : Codec Obj Rec) (ours : List Obj) (theirs loaded : List Rec)
  (owned : List TaskId)

theorem idOf_mergeOne (theirTask : Rec) :
    codec.idOf (mergeOne codec ours loaded owned theirTask) = codec.id theirTask := by
  unfold mergeOne
  split
  · exact codec.idOf_fresh theirTask
  next mine found =>
    dsimp only
    split
    · exact KeyedList.key_of_get found
    · exact codec.idOf_fresh theirTask

/-- What the merge holds for an id. -/
theorem get_merge (id : TaskId) :
    KeyedList.get codec.idOf (mergeTasksByOwnership codec ours theirs loaded owned) id =
      match KeyedList.get codec.id theirs id with
      | none => KeyedList.get codec.idOf ours id
      | some theirTask =>
          match KeyedList.get codec.idOf ours id with
          | none => some (codec.fresh theirTask)
          | some mine =>
              if id ∈ owned ∨ KeyedList.get codec.id loaded id = some theirTask then some mine
              else some (codec.fresh theirTask) := by
  rw [mergeTasksByOwnership, KeyedList.get_append,
    KeyedList.get_filter_key fun id => decide (id ∉ theirs.map codec.id),
    KeyedList.get_map codec.idOf _ (idOf_mergeOne codec ours loaded owned)]
  cases found : KeyedList.get codec.id theirs id with
  | none =>
      have absent := KeyedList.get_eq_none_iff.mp found
      simp [absent]
  | some theirTask =>
      have present := KeyedList.mem_keys_of_get found
      have same := KeyedList.key_of_get found
      simp only [present, not_true_eq_false, decide_false, Bool.false_eq_true, ↓reduceIte,
        Option.none_or, Option.map_some, mergeOne, same, decide_eq_true_eq]
      cases KeyedList.get codec.idOf ours id with
      | none => rfl
      | some mine => simp only; split <;> rfl

theorem ids_merge :
    (mergeTasksByOwnership codec ours theirs loaded owned).map codec.idOf =
      theirs.map codec.id ++
        (ours.map codec.idOf).filter fun id => decide (id ∉ theirs.map codec.id) := by
  rw [mergeTasksByOwnership, List.map_append, List.map_map]
  congr 1
  · exact List.map_congr_left fun theirTask _ => idOf_mergeOne codec ours loaded owned theirTask
  · rw [List.filter_map]
    rfl

theorem nodup_ids_merge (ourIds : (ours.map codec.idOf).Nodup)
    (theirIds : (theirs.map codec.id).Nodup) :
    ((mergeTasksByOwnership codec ours theirs loaded owned).map codec.idOf).Nodup := by
  rw [ids_merge]
  refine List.Nodup.append theirIds (ourIds.filter _) fun id theirId ourId => ?_
  simp only [List.mem_filter, decide_eq_true_eq] at ourId
  exact ourId.2 theirId

theorem mem_ids_merge {id : TaskId} :
    id ∈ (mergeTasksByOwnership codec ours theirs loaded owned).map codec.idOf ↔
      id ∈ theirs.map codec.id ∨ id ∈ ours.map codec.idOf := by
  rw [ids_merge, List.mem_append, List.mem_filter, decide_eq_true_eq]
  tauto

end Merge

section Save

variable {codec : Codec Obj Rec} {now : Time} {tasks : List Obj}
  {loadedSnapshot : Option (List Rec)} {ownedIds : List TaskId}
  {baseline disk : Option (TasksFile Rec)}

theorem saveTasks_tasks :
    (saveTasks codec now tasks loadedSnapshot ownedIds baseline disk).tasks =
      candidateTasks codec tasks loadedSnapshot ownedIds baseline disk := by
  unfold saveTasks
  dsimp only
  split <;> rfl

/-- Whether it writes or finds nothing to write, a save leaves the scrubbed queue on
disk. -/
theorem tasksOf_saveTasks_disk :
    tasksOf (saveTasks codec now tasks loadedSnapshot ownedIds baseline disk).disk =
      (candidateTasks codec tasks loadedSnapshot ownedIds baseline disk).map codec.saved := by
  unfold saveTasks
  dsimp only
  split
  next same =>
    cases disk with
    | none => simp at same
    | some file => simpa [tasksOf] using same
  next => rfl

/-- After a save the baseline is the file, or neither has moved. -/
theorem saveTasks_baseline (codec : Codec Obj Rec) (now : Time) (tasks : List Obj)
    (loadedSnapshot : Option (List Rec)) (ownedIds : List TaskId)
    (baseline disk : Option (TasksFile Rec)) :
    let after := saveTasks codec now tasks loadedSnapshot ownedIds baseline disk
    after.baseline = after.disk ∨ after.baseline = baseline ∧ after.disk = disk := by
  unfold saveTasks
  dsimp only
  split
  · exact .inr ⟨rfl, rfl⟩
  · exact .inl rfl

end Save

end Store

end TitanRunner
