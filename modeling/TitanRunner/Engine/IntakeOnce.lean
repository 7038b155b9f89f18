import TitanRunner.Engine.QueueCoherence
import TitanRunner.State.Saves

/-!
# One record for each issue

Any number of pulses load the queue file, take issues and dispatched tasks in, change their
records, archive what has ended and save, and any of them may stop at any moment.  The archive
is the second place a record lives in, and the intake does not look there.
-/

namespace TitanRunner

namespace IntakeOnce

open TransitionSystem System Store

/-- The records of a queue and of its file.  A save keeps their ids, which are no secrets. -/
def codec : Codec Task Task where
  id := Task.id
  read task := task
  fresh task := task
  scrub task := { Intake.scrubForState task with id := task.id }
  read_fresh _ := rfl
  id_scrub _ := rfl

/-- The month a record is archived under, and its id. -/
def rowKey (task : Task) : Option String × TaskId :=
  (task.completedAt.map fun done => Intake.slice 7 (IsoDate.toISOString done), task.id)

/-- `writeMonthlyArchive`, for the rows of every month.  The order of the lines is left out. -/
def writeArchive (archive rows : List Task) : List Task :=
  (rows.map codec.saved).foldl (KeyedList.insert rowKey) archive

structure World (PulseId : Type) where
  disk : Option (TasksFile Task)
  archive : List Task
  pulses : PulseId → Option (Pulse Task Task)
  /-- The records that came to the disk when the queue file had none of their id. -/
  created : List Task

inductive Label (PulseId : Type) where
  | load (pulse : PulseId)
  | intake (pulse : PulseId) (deps : Intake.Deps) (issues : List Intake.FiledIssue)
  | manual (pulse : PulseId) (deps : Intake.Deps) (text : String)
  | change (pulse : PulseId) (task : Task)
  | own (pulse : PulseId) (id : TaskId)
  | save (pulse : PulseId) (now : Time)
  | finish (pulse : PulseId) (now : Time) (options : Archive.Options)
  | dieArchiving (pulse : PulseId) (now : Time) (options : Archive.Options)
  | die (pulse : PulseId)

variable {PulseId : Type} [DecidableEq PulseId]

def ids (tasks : List Task) : List TaskId := tasks.map Task.id

/-- The records that get a place on the disk without having had one in the queue file. -/
def createdBy (before : Option (TasksFile Task)) (after : List Task) : List Task :=
  after.filter fun task => decide (task.id ∉ ids (tasksOf before))

def World.put (world : World PulseId) (id : PulseId) (pulse : Option (Pulse Task Task)) :
    World PulseId :=
  { world with pulses := Function.update world.pulses id pulse }

/-- The pulse after `archiveOldTasks`, and what goes to the archive. -/
def archiveOld (pulse : Pulse Task Task) (now : Time) (options : Archive.Options) :
    Pulse Task Task × List Task :=
  let (keep, archive) := Archive.archiveOldTasks now options pulse.tasks
  ({ pulse with tasks := keep, archived := ids archive ++ pulse.archived }, archive)

/-- Rows go to the archive, then the queue is saved. -/
def World.flush (world : World PulseId) (id : PulseId) (now : Time)
    (archiving : Pulse Task Task × List Task) : World PulseId :=
  let (pulse, rows) := archiving
  let saved := pulse.save codec now world.disk
  { disk := saved.disk
    archive := writeArchive world.archive rows
    pulses := Function.update world.pulses id (some (pulse.afterSave codec now world.disk))
    created := createdBy world.disk (tasksOf saved.disk ++ rows.map codec.saved) ++
      world.created }

def next (world : World PulseId) : Label PulseId → Option (World PulseId)
  | .load id => some (world.put id (some (loadPulse codec world.disk)))
  | .intake id deps issues =>
      match world.pulses id with
      | none => none
      | some pulse =>
          match Intake.syncIssuesIntoTasks deps pulse.tasks issues with
          | .error _ => none
          | .ok report => some (world.put id (some { pulse with tasks := report.tasks }))
  | .manual id deps text =>
      match world.pulses id with
      | none => none
      | some pulse =>
          some (world.put id (some { pulse with
            tasks := Intake.addManualTask deps pulse.tasks text }))
  | .change id task =>
      match world.pulses id with
      | none => none
      | some pulse =>
          match KeyedList.get Task.id pulse.tasks task.id with
          | none => none
          | some old =>
              if task.issueNumber = old.issueNumber then
                some (world.put id (some { pulse with
                  tasks := KeyedList.set Task.id pulse.tasks task }))
              else none
  | .own id task =>
      match world.pulses id with
      | none => none
      | some pulse => some (world.put id (some { pulse with owned := task :: pulse.owned }))
  | .save id now =>
      match world.pulses id with
      | none => none
      | some pulse => some (world.flush id now (pulse, []))
  | .finish id now options =>
      match world.pulses id with
      | none => none
      | some pulse => some (world.flush id now (archiveOld pulse now options))
  | .dieArchiving id now options =>
      match world.pulses id with
      | none => none
      | some pulse =>
          some { world.put id none with
            archive := writeArchive world.archive (archiveOld pulse now options).2 }
  | .die id => some (world.put id none)

/-- A record of an issue has the id of the issue. -/
def Filed (task : Task) : Prop :=
  ∀ number, task.issueNumber = some number → task.id = Intake.issueId number

/-- Any file and archive with one record for each id, and no pulse running. -/
def system : System (World PulseId) (Label PulseId) where
  start world :=
    (ids (tasksOf world.disk ++ world.archive)).Nodup ∧
      (∀ task ∈ tasksOf world.disk ++ world.archive, Filed task) ∧
      (∀ id, world.pulses id = none) ∧ world.created = tasksOf world.disk ++ world.archive
  next := next

/-- No issue has had two records, and no id two places. -/
structure Once (world : World PulseId) : Prop where
  created : (ids world.created).Nodup
  numbers : (world.created.filterMap Task.issueNumber).Nodup
  distinct : (ids (tasksOf world.disk ++ world.archive)).Nodup

/-- The issues of a listing that the intake makes records for. -/
def acceptedOf (deps : Intake.Deps) (tasks : List Task) (issues : List Intake.FiledIssue) :
    List Intake.FiledIssue :=
  issues.filter (Intake.Accepts deps (ids tasks))

/-- No record of a pulse is in the archive. -/
def Unarchived (archive : List Task) (pulse : Pulse Task Task) : Prop :=
  ∀ id ∈ ids pulse.tasks, id ∉ ids archive

/-- `saveTasks` of the pulse would merge. -/
def merges (disk : Option (TasksFile Task)) (pulse : Pulse Task Task) : Bool :=
  mergesOnSave (some pulse.loadedSnapshot) pulse.baseline disk

/-- The guard of the runs that keep one record for each issue: a listing names an issue once, a
pulse saves no record that is in the archive, and what it archives is out of the queue file
once it is in the archive. -/
def Careful (world : World PulseId) : Label PulseId → Prop
  | .intake id deps issues => ∀ pulse, world.pulses id = some pulse →
      ((acceptedOf deps pulse.tasks issues).map fun issue => issue.number).Nodup ∧
        ∀ issue ∈ acceptedOf deps pulse.tasks issues,
          Redact.redactText (Intake.issueId issue.number) = Intake.issueId issue.number
  | .manual id deps text => ∀ pulse, world.pulses id = some pulse →
      (Intake.scrubForState (Intake.manualDraft deps text)).id ∉ ids pulse.tasks
  | .save id _ => ∀ pulse, world.pulses id = some pulse → Unarchived world.archive pulse
  | .finish id now options => ∀ pulse, world.pulses id = some pulse →
      Unarchived world.archive pulse ∧
        (merges world.disk pulse = true → (archiveOld pulse now options).2 = [])
  | .dieArchiving id now options => ∀ pulse, world.pulses id = some pulse →
      (archiveOld pulse now options).2 = []
  | _ => True

/-! ## What the intake adds -/

/-- The record of an accepted issue, after what is done to a duplicate. -/
def IsRecordOf (issue : Intake.FiledIssue) (task : Task) : Prop :=
  task.id = Redact.redactText (Intake.issueId issue.number) ∧
    task.issueNumber = some issue.number

theorem pushed_isRecordOf (deps : Intake.Deps) (issue : Intake.FiledIssue)
    (actions : List Action) :
    IsRecordOf issue (Action.applyAll (Intake.pushed deps issue) actions) := by
  constructor
  · rw [Action.applyAll_id]
    rfl
  · rw [Action.applyAll_issueNumber]
    rfl

/-- The intake appends one record for each issue it accepts. -/
theorem takeIssues_ok (deps : Intake.Deps) (known : List TaskId)
    (issues : List Intake.FiledIssue) (report : Intake.Report) :
    ∃ after fresh, issues.foldlM (Intake.takeIssue deps known) report = .ok after ∧
      after.tasks = report.tasks ++ fresh ∧
      List.Forall₂ IsRecordOf (issues.filter (Intake.Accepts deps known)) fresh := by
  induction issues generalizing report with
  | nil => exact ⟨report, [], rfl, (List.append_nil _).symm, .nil⟩
  | cons issue rest ih =>
      have ⟨middle, took, tasks⟩ := Intake.takeIssue_ok deps known report issue
      have ⟨after, fresh, ran, same, each⟩ := ih middle
      rw [List.foldlM_cons, took]
      cases accepted : Intake.Accepts deps known issue with
      | false =>
          rw [accepted, if_neg Bool.false_ne_true] at tasks
          rw [List.filter_cons_of_neg (by simp [accepted])]
          exact ⟨after, fresh, ran, by rw [same, tasks], each⟩
      | true =>
          rw [accepted, if_pos rfl] at tasks
          rw [List.filter_cons_of_pos accepted]
          refine ⟨after, _ :: fresh, ran, ?_, .cons (pushed_isRecordOf deps issue
            (Intake.pushedActions deps report.tasks issue)) each⟩
          rw [same, tasks, List.append_assoc, List.singleton_append]

theorem syncIssues_ok (deps : Intake.Deps) (tasks : List Task)
    (issues : List Intake.FiledIssue) :
    ∃ report fresh, Intake.syncIssuesIntoTasks deps tasks issues = .ok report ∧
      report.tasks = tasks ++ fresh ∧
      List.Forall₂ IsRecordOf (acceptedOf deps tasks issues) fresh :=
  takeIssues_ok deps (ids tasks) issues { tasks }

theorem issueId_injective {first second : Nat}
    (same : Intake.issueId first = Intake.issueId second) : first = second := by
  have texts : first.repr = second.repr := (String.append_right_inj _).1 same
  have digits : Nat.toDigits 10 first = Nat.toDigits 10 second := by
    rw [← Nat.toList_repr, texts, Nat.toList_repr]
  have read := fun number : Nat =>
    Nat.ofDigitChars_toDigits (n := number) (by decide : 1 < 10) (Nat.le_refl 10)
  rw [← read first, digits, read second]

/-- The records of issues whose ids are no secrets have the ids of the issues. -/
theorem ids_of_records {issues : List Intake.FiledIssue} {fresh : List Task}
    (each : List.Forall₂ IsRecordOf issues fresh)
    (plain : ∀ issue ∈ issues,
      Redact.redactText (Intake.issueId issue.number) = Intake.issueId issue.number) :
    ids fresh = issues.map (fun issue => Intake.issueId issue.number) ∧
      ∀ task ∈ fresh, Filed task := by
  induction each with
  | nil => exact ⟨rfl, fun task inside => by contradiction⟩
  | @cons issue task rest fresh record _ ih =>
      have ⟨same, filed⟩ := ih fun other inside => plain other (.tail issue inside)
      have id : task.id = Intake.issueId issue.number :=
        record.1.trans (plain issue List.mem_cons_self)
      constructor
      · rw [ids, List.map_cons, List.map_cons, id]
        exact congrArg _ same
      · intro other inside
        cases List.mem_cons.1 inside with
        | inr later => exact filed other later
        | inl first =>
            subst first
            intro number found
            cases record.2.symm.trans found
            exact id

theorem not_known_of_accepted {deps : Intake.Deps} {tasks : List Task}
    {issues : List Intake.FiledIssue} {issue : Intake.FiledIssue}
    (accepted : issue ∈ acceptedOf deps tasks issues) :
    Intake.issueId issue.number ∉ ids tasks := by
  have accepts := (List.mem_filter.1 accepted).2
  simp only [Intake.Accepts, Bool.and_eq_true, Bool.not_eq_true', Bool.or_eq_false_iff] at accepts
  intro known
  have again := List.contains_iff_mem.2 known
  rw [accepts.1.2] at again
  contradiction

/-- What a careful intake adds: records of new, distinct ids. -/
theorem intake_adds {deps : Intake.Deps} {tasks : List Task} {issues : List Intake.FiledIssue}
    (once : ((acceptedOf deps tasks issues).map fun issue => issue.number).Nodup)
    (plain : ∀ issue ∈ acceptedOf deps tasks issues,
      Redact.redactText (Intake.issueId issue.number) = Intake.issueId issue.number) :
    ∃ report fresh, Intake.syncIssuesIntoTasks deps tasks issues = .ok report ∧
      report.tasks = tasks ++ fresh ∧ (ids fresh).Nodup ∧ (∀ id ∈ ids fresh, id ∉ ids tasks) ∧
      ∀ task ∈ fresh, Filed task := by
  have ⟨report, fresh, ran, same, each⟩ := syncIssues_ok deps tasks issues
  have ⟨freshIds, filed⟩ := ids_of_records each plain
  refine ⟨report, fresh, ran, same, ?_, ?_, filed⟩
  · rw [freshIds, ← Function.comp_def Intake.issueId, ← List.map_map]
    exact once.map fun first second => issueId_injective
  · intro id inside
    rw [freshIds] at inside
    have ⟨issue, accepted, same'⟩ := List.mem_map.1 inside
    exact same' ▸ not_known_of_accepted accepted

/-! ## What a run keeps -/

/-- What the runs keep of a pulse. -/
structure Holds (archive : List Task) (pulse : Pulse Task Task) : Prop where
  wf : pulse.Wf codec
  filed : ∀ task ∈ pulse.tasks, Filed task
  archived : ∀ id ∈ pulse.archived, id ∈ ids archive

structure Wf (world : World PulseId) : Prop where
  distinct : (ids (tasksOf world.disk ++ world.archive)).Nodup
  created : (ids world.created).Nodup
  kept : ∀ id ∈ ids world.created, id ∈ ids (tasksOf world.disk ++ world.archive)
  filed : ∀ task ∈ world.created ++ tasksOf world.disk, Filed task
  pulses : ∀ id pulse, world.pulses id = some pulse → Holds world.archive pulse

omit [DecidableEq PulseId] in
/-- Records of distinct ids that carry the id of their issue are of distinct issues. -/
theorem Wf.once {world : World PulseId} (wf : Wf world) : Once world where
  created := wf.created
  distinct := wf.distinct
  numbers := by
    have filed : ∀ task ∈ world.created, Filed task :=
      fun task inside => wf.filed task (List.mem_append_left _ inside)
    have distinct := wf.created
    generalize world.created = created at filed distinct
    induction created with
    | nil => exact List.nodup_nil
    | cons first rest ih =>
        have ⟨here, others⟩ := List.forall_mem_cons.1 filed
        have ⟨apart, distinct'⟩ := List.nodup_cons.1 distinct
        cases filedFor : first.issueNumber with
        | none =>
            rw [List.filterMap_cons_none filedFor]
            exact ih others distinct'
        | some number =>
            rw [List.filterMap_cons_some filedFor, List.nodup_cons]
            constructor
            · intro again
              have ⟨other, inside, same⟩ := List.mem_filterMap.1 again
              apply apart
              rw [here number filedFor, ← others other inside number same]
              exact List.mem_map_of_mem inside
            · exact ih others distinct'

theorem Wf.put {world : World PulseId} (wf : Wf world) {id : PulseId}
    {pulse : Pulse Task Task} (holds : Holds world.archive pulse) :
    Wf (world.put id (some pulse)) := by
  refine ⟨wf.distinct, wf.created, wf.kept, wf.filed, ?_⟩
  intro other found isFound
  simp only [World.put, Function.update_apply] at isFound
  split at isFound
  next =>
    cases isFound
    exact holds
  next => exact wf.pulses other found isFound

theorem Wf.die {world : World PulseId} (wf : Wf world) (id : PulseId) :
    Wf (world.put id none) := by
  refine ⟨wf.distinct, wf.created, wf.kept, wf.filed, ?_⟩
  intro other found isFound
  simp only [World.put, Function.update_apply] at isFound
  split at isFound
  next => contradiction
  next => exact wf.pulses other found isFound

theorem ids_saved (rows : List Task) : ids (rows.map codec.saved) = ids rows :=
  codec.ids_map_saved rows

/-- New rows go to the end of the archive. -/
theorem writeArchive_eq {archive rows : List Task} (distinct : (ids rows).Nodup)
    (new : ∀ id ∈ ids rows, id ∉ ids archive) :
    writeArchive archive rows = archive ++ rows.map codec.saved := by
  rw [← ids_saved] at distinct new
  unfold writeArchive
  generalize rows.map codec.saved = rows at distinct new
  induction rows generalizing archive with
  | nil => exact (List.append_nil archive).symm
  | cons row rest ih =>
      have ⟨apart, distinct'⟩ := List.nodup_cons.1 distinct
      have ⟨here, others⟩ := List.forall_mem_cons.1 new
      have absent : rowKey row ∉ archive.map rowKey := by
        intro there
        have ⟨other, inside, same⟩ := List.mem_map.1 there
        apply here
        rw [← (Prod.mk.inj same).2]
        exact List.mem_map_of_mem inside
      rw [List.foldl_cons, KeyedList.insert, if_neg absent, ih distinct', List.append_assoc,
        List.singleton_append]
      intro id inside
      rw [ids, List.map_append, List.mem_append, List.map_singleton, List.mem_singleton]
      intro known
      cases known with
      | inl old => exact others id inside old
      | inr same => exact apart (same ▸ inside)

/-- What is to hold of a pulse and of the rows it archives before they reach the disk. -/
structure Flushable (world : World PulseId) (pulse : Pulse Task Task) (rows : List Task) :
    Prop where
  wf : pulse.Wf codec
  filed : ∀ task ∈ pulse.tasks ++ rows, Filed task
  archived : ∀ id ∈ pulse.archived, id ∈ ids world.archive ∨ id ∈ ids rows
  distinct : (ids rows).Nodup
  apart : ∀ id ∈ ids rows, id ∉ ids pulse.tasks
  unarchived : ∀ id ∈ ids (pulse.tasks ++ rows), id ∉ ids world.archive
  alone : merges world.disk pulse = true → rows = []

section Flush

variable {world : World PulseId} {pulse : Pulse Task Task} {rows : List Task}

omit [DecidableEq PulseId] in
theorem mem_ids_append {first second : List Task} {id : TaskId} :
    id ∈ ids (first ++ second) ↔ id ∈ ids first ∨ id ∈ ids second := by
  rw [ids, List.map_append, List.mem_append]
  rfl

/-- The queue that is saved: the records of the pulse, and those of the file if it merges. -/
def candidateOf (world : World PulseId) (pulse : Pulse Task Task) : List Task :=
  candidateTasks codec pulse.tasks (some pulse.loadedSnapshot) pulse.owned pulse.baseline
    world.disk

omit [DecidableEq PulseId] in
theorem mem_ids_candidateOf {id : TaskId} (inside : id ∈ ids (candidateOf world pulse)) :
    id ∈ ids pulse.tasks ∨
      merges world.disk pulse = true ∧ id ∈ ids (tasksOf world.disk) := by
  unfold candidateOf candidateTasks at inside
  split at inside
  next foreign =>
    cases (mem_ids_merge codec _ _ _ _).1 inside with
    | inl theirs => exact .inr ⟨foreign, theirs⟩
    | inr ours => exact .inl ours
  next => exact .inl inside

omit [DecidableEq PulseId] in
theorem mem_candidateOf {task : Task} (inside : task ∈ candidateOf world pulse) :
    task ∈ pulse.tasks ∨ task ∈ tasksOf world.disk := by
  unfold candidateOf candidateTasks at inside
  split at inside
  next =>
    cases List.mem_append.1 inside with
    | inr ours => exact .inl (List.mem_filter.1 ours).1
    | inl theirs =>
        obtain ⟨their, among, same⟩ := List.mem_map.1 theirs
        subst same
        unfold mergeOne
        split
        next => exact .inr among
        next mine found =>
          dsimp only
          split
          · exact .inl (KeyedList.mem_of_get found)
          · exact .inr among
  next => exact .inl inside

omit [DecidableEq PulseId] in
/-- The candidate is disjoint from the archive and from the new rows. -/
theorem Flushable.candidate_apart (flushable : Flushable world pulse rows) (wf : Wf world)
    {id : TaskId} (inside : id ∈ ids (candidateOf world pulse)) :
    id ∉ ids world.archive ∧ id ∉ ids rows := by
  cases mem_ids_candidateOf inside with
  | inl ours =>
      constructor
      · exact flushable.unarchived id (mem_ids_append.2 (.inl ours))
      · exact fun archiving => flushable.apart id archiving ours
  | inr theirs =>
      have ⟨foreign, onDisk⟩ := theirs
      constructor
      · intro archived
        have distinct := wf.distinct
        rw [ids, List.map_append, List.nodup_append'] at distinct
        exact distinct.2.2 onDisk archived
      · rw [flushable.alone foreign]
        exact List.not_mem_nil

theorem tasksOf_flush (id : PulseId) (now : Time) :
    tasksOf (world.flush id now (pulse, rows)).disk =
      (candidateOf world pulse).map codec.saved :=
  tasksOf_saveTasks_disk

theorem Flushable.archive_eq (flushable : Flushable world pulse rows) (id : PulseId)
    (now : Time) :
    (world.flush id now (pulse, rows)).archive = world.archive ++ rows.map codec.saved :=
  writeArchive_eq flushable.distinct fun other inside =>
    flushable.unarchived other (mem_ids_append.2 (.inr inside))

omit [DecidableEq PulseId] in
theorem Flushable.distinct_after (flushable : Flushable world pulse rows) (wf : Wf world) :
    (ids (candidateOf world pulse ++ (world.archive ++ rows))).Nodup := by
  have distinct := wf.distinct
  simp only [ids, List.map_append, List.nodup_append'] at distinct ⊢
  have ⟨onDisk, archived, _⟩ := distinct
  refine ⟨nodup_ids_candidate flushable.wf onDisk, ⟨archived, flushable.distinct, ?_⟩, ?_⟩
  · intro id old new
    exact flushable.unarchived id (mem_ids_append.2 (.inr new)) old
  · intro id candidate there
    have ⟨unarchived, apart⟩ := flushable.candidate_apart wf candidate
    cases List.mem_append.1 there with
    | inl old => exact unarchived old
    | inr new => exact apart new

/-- What is on disk after the rows and the queue are written. -/
theorem Flushable.ids_after (flushable : Flushable world pulse rows) (id : PulseId)
    (now : Time) :
    ids (tasksOf (world.flush id now (pulse, rows)).disk ++
        (world.flush id now (pulse, rows)).archive) =
      ids (candidateOf world pulse ++ (world.archive ++ rows)) := by
  rw [tasksOf_flush, flushable.archive_eq]
  simp only [ids, List.map_append]
  exact congrArg₂ _ (ids_saved _) (congrArg _ (ids_saved rows))

omit [DecidableEq PulseId] in
/-- No record is lost between the file, the queue and the archive. -/
theorem Flushable.kept_after (flushable : Flushable world pulse rows) {id : TaskId}
    (known : id ∈ ids (tasksOf world.disk ++ world.archive)) :
    id ∈ ids (candidateOf world pulse ++ (world.archive ++ rows)) := by
  simp only [mem_ids_append] at known ⊢
  cases known with
  | inr archived => exact .inr (.inl archived)
  | inl onDisk =>
      by_cases gone : id ∈ pulse.archived
      · exact .inr (flushable.archived id gone)
      · exact .inl (mem_ids_candidate_of_disk flushable.wf onDisk gone)

omit [DecidableEq PulseId] in
/-- A record that is new to the queue file was never on disk. -/
theorem not_created_of_new (wf : Wf world) {id : TaskId}
    (unarchived : id ∉ ids world.archive) (new : id ∉ ids (tasksOf world.disk)) :
    id ∉ ids world.created := by
  intro created
  cases mem_ids_append.1 (wf.kept id created) with
  | inl onDisk => exact new onDisk
  | inr archived => exact unarchived archived

theorem created_flush (id : PulseId) (now : Time) :
    (world.flush id now (pulse, rows)).created =
      createdBy world.disk ((candidateOf world pulse ++ rows).map codec.saved) ++
        world.created := by
  have disk : tasksOf (world.flush id now (pulse, rows)).disk =
      (candidateOf world pulse).map codec.saved := tasksOf_flush id now
  rw [List.map_append, ← disk]
  rfl

omit [DecidableEq PulseId] in
theorem mem_createdBy {before : Option (TasksFile Task)} {after : List Task} {id : TaskId} :
    id ∈ ids (createdBy before after) ↔ id ∈ ids after ∧ id ∉ ids (tasksOf before) := by
  constructor
  · intro inside
    have ⟨task, among, same⟩ := List.mem_map.1 inside
    have ⟨there, new⟩ := List.mem_filter.1 among
    exact same ▸ ⟨List.mem_map_of_mem there, of_decide_eq_true new⟩
  · intro ⟨inside, new⟩
    have ⟨task, among, same⟩ := List.mem_map.1 inside
    subst same
    exact List.mem_map_of_mem (List.mem_filter.2 ⟨among, decide_eq_true new⟩)

/-- What the write leaves of a pulse that still runs. -/
theorem Holds.afterFlush {archive : List Task} {other : Pulse Task Task}
    (holds : Holds archive other) (rows : List Task) :
    Holds (archive ++ rows.map codec.saved) other :=
  ⟨holds.wf, holds.filed, fun id gone => mem_ids_append.2 (.inl (holds.archived id gone))⟩

theorem filed_saved {task : Task} (filed : Filed task) : Filed (codec.saved task) := filed

theorem Flushable.flush (flushable : Flushable world pulse rows) (wf : Wf world) (id : PulseId)
    (now : Time) : Wf (world.flush id now (pulse, rows)) := by
  have distinct := flushable.distinct_after wf
  have onDisk : ((tasksOf world.disk).map Task.id).Nodup := by
    have both := wf.distinct
    rw [ids, List.map_append, List.nodup_append'] at both
    exact both.1
  have candidateFiled : ∀ task ∈ candidateOf world pulse, Filed task := by
    intro task inside
    cases mem_candidateOf inside with
    | inl ours => exact flushable.filed task (List.mem_append_left _ ours)
    | inr theirs => exact wf.filed task (List.mem_append_right _ theirs)
  refine ⟨?_, ?_, ?_, ?_, ?_⟩
  · rw [flushable.ids_after]
    exact distinct
  · rw [created_flush, ids, List.map_append]
    apply List.Nodup.append
    · have both : (ids ((candidateOf world pulse ++ rows).map codec.saved)).Nodup := by
        rw [ids_saved]
        have fewer := (List.Sublist.refl (candidateOf world pulse)).append
          (List.sublist_append_right world.archive rows)
        exact List.Nodup.sublist (fewer.map Task.id) distinct
      exact both.sublist (List.filter_sublist.map _)
    · exact wf.created
    · intro other new old
      have ⟨inside, absent⟩ := mem_createdBy.1 new
      rw [ids_saved, mem_ids_append] at inside
      apply not_created_of_new wf _ absent old
      cases inside with
      | inl candidate => exact (flushable.candidate_apart wf candidate).1
      | inr archiving => exact flushable.unarchived other (mem_ids_append.2 (.inr archiving))
  · intro other created
    rw [flushable.ids_after]
    rw [created_flush, mem_ids_append] at created
    cases created with
    | inr old => exact flushable.kept_after (wf.kept other old)
    | inl new =>
        have inside := (mem_createdBy.1 new).1
        rw [ids_saved, mem_ids_append] at inside
        simp only [mem_ids_append]
        exact inside.imp_right .inr
  · intro task inside
    rw [created_flush, tasksOf_flush] at inside
    simp only [List.mem_append] at inside
    cases inside with
    | inr saved =>
        have ⟨before, among, same⟩ := List.mem_map.1 saved
        exact same ▸ filed_saved (candidateFiled before among)
    | inl created =>
        cases created with
        | inr old => exact wf.filed task (List.mem_append_left _ old)
        | inl new =>
            have ⟨before, among, same⟩ := List.mem_map.1 (List.mem_filter.1 new).1
            subst same
            apply filed_saved
            cases List.mem_append.1 among with
            | inl candidate => exact candidateFiled before candidate
            | inr archiving => exact flushable.filed before (List.mem_append_right _ archiving)
  · intro other found isFound
    rw [flushable.archive_eq]
    simp only [World.flush, Function.update_apply] at isFound
    split at isFound
    next =>
      cases isFound
      constructor
      · exact flushable.wf.afterSave onDisk
      · rw [Pulse.afterSave, Pulse.save, saveTasks_tasks]
        exact candidateFiled
      · intro gone inside
        rw [mem_ids_append, ids_saved]
        exact flushable.archived gone inside
    next => exact (wf.pulses other found isFound).afterFlush rows

end Flush

theorem mem_archiveOldTasks_or {now : Time} {options : Archive.Options} {tasks : List Task}
    {task : Task} (inside : task ∈ tasks) :
    task ∈ (Archive.archiveOldTasks now options tasks).1 ∨
      task ∈ (Archive.archiveOldTasks now options tasks).2 := by
  cases Archive.archiveOldTasks_cases now options tasks with
  | inl same =>
      rw [same]
      exact .inl inside
  | inr moved =>
      rw [moved]
      cases old : Archive.isOld now options task with
      | true => exact .inr (List.mem_filter.2 ⟨inside, old⟩)
      | false => exact .inl (List.mem_filter.2 ⟨inside, by rw [old]; rfl⟩)

theorem archiveOldTasks_sublist (now : Time) (options : Archive.Options) (tasks : List Task) :
    (Archive.archiveOldTasks now options tasks).1.Sublist tasks ∧
      (Archive.archiveOldTasks now options tasks).2.Sublist tasks := by
  cases Archive.archiveOldTasks_cases now options tasks with
  | inl same =>
      rw [same]
      exact ⟨List.Sublist.refl tasks, List.nil_sublist tasks⟩
  | inr moved =>
      rw [moved]
      exact ⟨List.filter_sublist, List.filter_sublist⟩

/-- What stays in the queue and what is archived have no id in common. -/
theorem archiveOldTasks_apart (now : Time) (options : Archive.Options) {tasks : List Task}
    (distinct : (ids tasks).Nodup) {id : TaskId}
    (archived : id ∈ ids (Archive.archiveOldTasks now options tasks).2) :
    id ∉ ids (Archive.archiveOldTasks now options tasks).1 := by
  intro kept
  cases Archive.archiveOldTasks_cases now options tasks with
  | inl same =>
      rw [same] at archived
      contradiction
  | inr moved =>
      rw [moved] at archived kept
      have ⟨gone, among, same⟩ := List.mem_map.1 archived
      have ⟨stays, among', same'⟩ := List.mem_map.1 kept
      have ⟨inside, old⟩ := List.mem_filter.1 among
      have ⟨inside', young⟩ := List.mem_filter.1 among'
      have one : gone = stays :=
        List.inj_on_of_nodup_map distinct inside inside' (same.trans same'.symm)
      rw [← one, old] at young
      contradiction

section Archiving

variable {world : World PulseId} {pulse : Pulse Task Task}

omit [DecidableEq PulseId] in
theorem Holds.flushable (holds : Holds world.archive pulse)
    (unarchived : Unarchived world.archive pulse) : Flushable world pulse [] where
  wf := holds.wf
  filed task inside := holds.filed task (by simpa using inside)
  archived id gone := .inl (holds.archived id gone)
  distinct := List.nodup_nil
  apart id inside := by contradiction
  unarchived id inside := unarchived id (by simpa using inside)
  alone _ := rfl

omit [DecidableEq PulseId] in
theorem Holds.archiving (holds : Holds world.archive pulse)
    (unarchived : Unarchived world.archive pulse) {now : Time} {options : Archive.Options}
    (alone : merges world.disk pulse = true → (archiveOld pulse now options).2 = []) :
    Flushable world (archiveOld pulse now options).1 (archiveOld pulse now options).2 := by
  have ⟨kept, gone⟩ := archiveOldTasks_sublist now options pulse.tasks
  have known : ∀ task ∈ (archiveOld pulse now options).1.tasks ++
      (archiveOld pulse now options).2, task ∈ pulse.tasks := by
    intro task inside
    cases List.mem_append.1 inside with
    | inl stays => exact kept.subset stays
    | inr archived => exact gone.subset archived
  constructor
  · exact holds.wf.split kept fun task inside => mem_archiveOldTasks_or inside
  · exact fun task inside => holds.filed task (known task inside)
  · intro id archived
    cases List.mem_append.1 archived with
    | inl now' => exact .inr now'
    | inr before => exact .inl (holds.archived id before)
  · exact List.Nodup.sublist (gone.map Task.id) holds.wf.distinct
  · exact fun id archived => archiveOldTasks_apart now options holds.wf.distinct archived
  · intro id inside
    have ⟨task, among, same⟩ := List.mem_map.1 inside
    exact unarchived id (same ▸ List.mem_map_of_mem (known task among))
  · exact alone

omit [DecidableEq PulseId] in
theorem Holds.load (wf : Wf world) : Holds world.archive (loadPulse codec world.disk) := by
  have distinct := wf.distinct
  rw [ids, List.map_append, List.nodup_append'] at distinct
  constructor
  · exact Pulse.Wf.load distinct.1
  · intro task inside
    have ⟨record, among, same⟩ := List.mem_map.1 inside
    exact same ▸ wf.filed record (List.mem_append_right _ among)
  · exact fun id gone => by contradiction

omit [DecidableEq PulseId] in
theorem Holds.append {archive : List Task} (holds : Holds archive pulse) {fresh : List Task}
    (distinct : (ids fresh).Nodup) (new : ∀ id ∈ ids fresh, id ∉ ids pulse.tasks)
    (filed : ∀ task ∈ fresh, Filed task) :
    Holds archive { pulse with tasks := pulse.tasks ++ fresh } where
  wf := holds.wf.append distinct new
  filed task inside := (List.mem_append.1 inside).elim (holds.filed task) (filed task)
  archived := holds.archived

omit [DecidableEq PulseId] in
theorem Holds.change {archive : List Task} (holds : Holds archive pulse) {old task : Task}
    (found : KeyedList.get Task.id pulse.tasks task.id = some old)
    (same : task.issueNumber = old.issueNumber) :
    Holds archive { pulse with tasks := KeyedList.set Task.id pulse.tasks task } where
  wf := holds.wf.change task
  filed other inside := by
    cases KeyedList.mem_of_mem_set inside with
    | inr before => exact holds.filed other before
    | inl changed =>
        intro number filedFor
        rw [changed] at filedFor ⊢
        rw [← KeyedList.key_of_get found]
        exact holds.filed old (KeyedList.mem_of_get found) number (same ▸ filedFor)
  archived := holds.archived

end Archiving

/-- One step. -/
theorem Wf.next {world after : World PulseId} {label : Label PulseId} (wf : Wf world)
    (careful : Careful world label) (stepped : IntakeOnce.next world label = some after) :
    Wf after := by
  cases label with
  | load id =>
      cases stepped
      exact wf.put (.load wf)
  | intake id deps issues =>
      simp only [IntakeOnce.next] at stepped
      split at stepped
      · contradiction
      next pulse running =>
        obtain ⟨once, plain⟩ := careful pulse running
        obtain ⟨report, fresh, ran, same, distinct, new, filed⟩ := intake_adds once plain
        rw [ran] at stepped
        cases stepped
        rw [same]
        exact wf.put ((wf.pulses id pulse running).append distinct new filed)
  | manual id deps text =>
      simp only [IntakeOnce.next] at stepped
      split at stepped
      · contradiction
      next pulse running =>
        cases stepped
        apply wf.put
        apply (wf.pulses id pulse running).append
        · exact List.nodup_singleton _
        · intro other inside
          rw [List.mem_singleton.1 inside]
          exact careful pulse running
        · intro task inside number filedFor
          rw [List.mem_singleton.1 inside] at filedFor
          contradiction
  | change id task =>
      simp only [IntakeOnce.next] at stepped
      split at stepped
      · contradiction
      next pulse running =>
        split at stepped
        · contradiction
        next old found =>
          split at stepped
          next same =>
            cases stepped
            exact wf.put ((wf.pulses id pulse running).change found same)
          next => contradiction
  | own id task =>
      simp only [IntakeOnce.next] at stepped
      split at stepped
      · contradiction
      next pulse running =>
        cases stepped
        have holds := wf.pulses id pulse running
        exact wf.put ⟨⟨holds.wf.distinct, holds.wf.loaded, holds.wf.seen⟩, holds.filed,
          holds.archived⟩
  | save id now =>
      simp only [IntakeOnce.next] at stepped
      split at stepped
      · contradiction
      next pulse running =>
        cases stepped
        exact ((wf.pulses id pulse running).flushable (careful pulse running)).flush wf id now
  | finish id now options =>
      simp only [IntakeOnce.next] at stepped
      split at stepped
      · contradiction
      next pulse running =>
        cases stepped
        obtain ⟨unarchived, alone⟩ := careful pulse running
        exact ((wf.pulses id pulse running).archiving unarchived alone).flush wf id now
  | dieArchiving id now options =>
      simp only [IntakeOnce.next] at stepped
      split at stepped
      · contradiction
      next pulse running =>
        cases stepped
        rw [careful pulse running]
        exact wf.die id
  | die id =>
      cases stepped
      exact wf.die id

/-- In every run whose listings name an issue once, whose pulses save no archived record, and
which archive only what their save takes out of the file, no issue has ever had two records,
and no id is twice in the queue and the archive. -/
theorem once_of_reachable {world : World PulseId}
    (reachable : system.Reachable Careful world) : Once world := by
  suffices wf : Wf world from wf.once
  apply reachable.invariant Wf
  · intro start ⟨distinct, filed, idle, created⟩
    refine ⟨distinct, created ▸ distinct, fun id inside => created ▸ inside, ?_, ?_⟩
    · intro task inside
      rw [created] at inside
      exact filed task ((List.mem_append.1 inside).elim (fun all => all)
        (List.mem_append_left _))
    · intro id pulse running
      rw [idle id] at running
      contradiction
  · intro before label after _ wf careful stepped
    exact wf.next careful stepped

/-! ## Runs -/

omit [DecidableEq PulseId] in
theorem forall_running_iff {world : World PulseId} {id : PulseId}
    {holds : Pulse Task Task → Prop} :
    (∀ pulse ∈ world.pulses id, holds pulse) ↔
      ∀ pulse, world.pulses id = some pulse → holds pulse := Iff.rfl

instance (archive : List Task) (pulse : Pulse Task Task) : Decidable (Unarchived archive pulse) :=
  inferInstanceAs (Decidable (∀ id ∈ ids pulse.tasks, id ∉ ids archive))

instance (world : World PulseId) (label : Label PulseId) : Decidable (Careful world label) :=
  match label with
  | .intake _ _ _ | .manual _ _ _ | .save _ _ | .finish _ _ _ | .dieArchiving _ _ _ =>
      decidable_of_iff _ forall_running_iff
  | .load _ | .change _ _ | .own _ _ | .die _ => isTrue trivial

def openIssue (number : Nat) : Intake.FiledIssue where
  number
  actor := { login := some "owner" }
  title := "Sort " ++ toString number

/-- A queue with one record that ended long ago, of an issue that is still open. -/
def longQueue : World Nat :=
  let ended : Task := {
    id := "issue-1", issueNumber := some 1, status := .failed, completedAt := some 0 }
  let others := (List.range 20).map fun number : Nat =>
    ({ id := Intake.issueId (number + 2), issueNumber := some (number + 2) } : Task)
  { disk := some { updatedAt := 0, tasks := ended :: others }, archive := []
    pulses _ := none, created := ended :: others }

theorem start_longQueue : system.start longQueue := by
  refine ⟨by decide, ?_, fun _ => rfl, (List.append_nil _).symm⟩
  have all : ∀ task ∈ longQueue.created, task.issueNumber.all fun number =>
      decide (task.id = Intake.issueId number) := by decide
  intro task inside number filedFor
  rw [longQueue, List.append_nil] at inside
  have here := all task inside
  rw [filedFor] at here
  exact of_decide_eq_true here

/-- Forty days. -/
def later : Time := 40 * 86400000

/-- Two issues are taken in by two pulses that run at once, and an ended record is archived. -/
def carefulRun : List (Label Nat) := [
  .load 0, .load 1,
  .intake 0 (Queue.plainDeps later) [openIssue 1, openIssue 30, openIssue 31],
  .intake 1 (Queue.plainDeps later) [openIssue 31, openIssue 30],
  .save 0 later, .die 1,
  .finish 0 later {}]

theorem carefulRun_runs : (system.exec Careful longQueue carefulRun).any (fun world =>
    decide (world.created.length = 23) && decide (ids world.archive = ["issue-1"])) = true := by
  decide +kernel

theorem once_of_carefulRun : ∃ world : World Nat, world.created.length = 23 ∧
    ids world.archive = ["issue-1"] ∧ Once world := by
  have ⟨world, reached, ran⟩ := Reachable.exists_of_exec (.start start_longQueue) carefulRun_runs
  rw [Bool.and_eq_true, decide_eq_true_eq, decide_eq_true_eq] at ran
  exact ⟨world, ran.1, ran.2, once_of_reachable reached⟩

/-- The ended record is archived, and the next pulse takes its issue in again. -/
def retakenRun : List (Label Nat) := [
  .load 0, .finish 0 later {},
  .load 1, .intake 1 (Queue.plainDeps later) [openIssue 1], .save 1 later]

theorem retaken_of_run : (system.exec always longQueue retakenRun).any (fun world =>
    decide ((ids world.created).count "issue-1" = 2) &&
      !decide (ids (tasksOf world.disk ++ world.archive)).Nodup) = true := by
  decide +kernel

theorem not_once_of_retakenRun :
    ¬ ∀ world : World Nat, system.Reachable always world → Once world := by
  intro all
  have ⟨world, reached, ran⟩ := Reachable.exists_of_exec (.start start_longQueue) retaken_of_run
  rw [decide_eq_true (all world reached).distinct, Bool.not_true, Bool.and_false] at ran
  contradiction

end IntakeOnce

end TitanRunner
