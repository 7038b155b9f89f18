import TitanRunner.Orchestrator.Scheduler
import TitanRunner.Redact

/-!
# What a checkpoint keeps of a run

`engine/orchestrate.js#snapshotSubtask` cuts the output of a step, and `store.writeJson`
passes every string of a state file through `lib/secretScrub.js#scrubForState`.  The keys
of an object are not strings of it: a subtask is filed under its id as it was.
-/

namespace TitanRunner

namespace Orchestrator

open Redact

/-- `MAX_CHECKPOINT_OUTPUT_CHARS`. -/
def maxCheckpointOutputChars : Nat := 16000

def snapshotSubtask (entry : Entry) : Snapshot where
  state := entry.state
  assignment := entry.assignment
  attempts := entry.attempts
  output := entry.output.map (List.take maxCheckpointOutputChars)
  error := entry.error
  startedAt := entry.startedAt
  completedAt := entry.completedAt
  producers := entry.producers

/-! ## `scrubForState`, type by type -/

def Candidate.scrub (candidate : Candidate) : Candidate where
  modelId := redactString candidate.modelId
  pool := redactString candidate.pool

def Park.scrub (park : Park) : Park where
  reason := park.reason
  wakeInMs := park.wakeInMs
  why := redactString park.why
  approvalKey := park.approvalKey.map redactString

def StepError.scrub (error : StepError) : StepError where
  code := redactString error.code
  class' := redactString error.class'
  message := redactString error.message
  park := error.park.map Park.scrub

def Attempt.scrub (attempt : Attempt) : Attempt where
  modelId := redactString attempt.modelId
  pool := redactString attempt.pool
  ok := attempt.ok
  ms := attempt.ms
  tokensUsed := attempt.tokensUsed
  error := attempt.error.map StepError.scrub

def Snapshot.scrub (snapshot : Snapshot) : Snapshot where
  state := snapshot.state
  assignment := snapshot.assignment.map Candidate.scrub
  attempts := snapshot.attempts.map Attempt.scrub
  output := snapshot.output.map redactString
  error := snapshot.error.map StepError.scrub
  startedAt := snapshot.startedAt
  completedAt := snapshot.completedAt
  producers := snapshot.producers

def Step.scrub (step : Step) : Step where
  id := redactString step.id
  title := redactString step.title
  aspect := redactString step.aspect
  description := redactString step.description
  dependsOn := step.dependsOn.map redactString
  deliverable := redactString step.deliverable
  remediationHint := step.remediationHint.map redactString

def Graph.scrub (graph : Graph) : Graph where
  sharedContext := redactString graph.sharedContext
  tasks := graph.tasks.map Step.scrub
  plannedBy := graph.plannedBy.map redactString
  planner := graph.planner

def Subtasks.scrub (subtasks : Subtasks) : Subtasks :=
  subtasks.map fun (id, snapshot) => (id, snapshot.scrub)

/-- `for (const [id, entry] of tasksById) cp.subtasks[id] = snapshotSubtask(entry)`. -/
def Subtasks.record (subtasks : Subtasks) (entries : Entries) : Subtasks :=
  entries.foldl (fun subtasks entry => subtasks.insert entry.id (snapshotSubtask entry)) subtasks

section Lookup

variable {subtasks : Subtasks} {id : StepId}

theorem Subtasks.get_scrub (subtasks : Subtasks) (id : StepId) :
    subtasks.scrub.get id = (subtasks.get id).map Snapshot.scrub := by
  have lookup : KeyedList.get Prod.fst subtasks.scrub id =
      (KeyedList.get Prod.fst subtasks id).map fun (id, snapshot) => (id, snapshot.scrub) :=
    KeyedList.get_map Prod.fst _ fun _ => rfl
  rw [Subtasks.get, lookup, Subtasks.get, Option.map_map, Option.map_map]
  rfl

theorem Subtasks.get_insert (subtasks : Subtasks) (id : StepId) (snapshot : Snapshot)
    (wanted : StepId) :
    (subtasks.insert id snapshot).get wanted =
      if wanted = id then some snapshot else subtasks.get wanted := by
  simp only [Subtasks.insert, Subtasks.get, KeyedList.get_insert]
  split <;> rfl

/-- The last entry of an id is recorded. -/
theorem Subtasks.get_record (subtasks : Subtasks) (entries : Entries) (id : StepId) :
    (subtasks.record entries).get id =
      ((entries.get id).map snapshotSubtask).or (subtasks.get id) := by
  simp only [Subtasks.record, Entries.get]
  induction entries using List.reverseRecOn with
  | nil => rfl
  | append_singleton rest entry ih =>
      rw [List.foldl_append, List.foldl_cons, List.foldl_nil, Subtasks.get_insert, ih,
        KeyedList.get_append, KeyedList.get_cons, KeyedList.get_nil, Option.none_or]
      by_cases same : id = entry.id
      · simp [same]
      · rw [if_neg same, if_neg (Ne.symm same), Option.none_or]

@[simp] theorem Snapshot.settled_scrub (snapshot : Snapshot) :
    snapshot.scrub.settled = snapshot.settled := by
  cases found : snapshot.error with
  | none => simp [Snapshot.settled, Snapshot.scrub, found]
  | some error => simp [Snapshot.settled, Snapshot.scrub, found, StepError.scrub]

end Lookup

end Orchestrator

end TitanRunner
