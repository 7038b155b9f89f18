import TitanRunner.Lib.KeyedList
import TitanRunner.Lib.Utf16
import TitanRunner.Task.Schema

/-!
# Task graphs and their steps

The plan of a task (`orchestrator/decomposer.js`), and the live entries the scheduler
keeps for its steps (`orchestrator/scheduler.js`).  Texts are lists of UTF-16 code
units, because the engine slices them by `length`.
-/

namespace TitanRunner

namespace Orchestrator

abbrev StepId := Utf16

/-- One task of the graph. -/
structure Step where
  id : StepId
  title : Utf16
  aspect : Utf16
  description : Utf16
  dependsOn : List StepId
  deliverable : Utf16
  remediationHint : Option Utf16 := none
  deriving DecidableEq, Repr

structure Graph where
  sharedContext : Utf16
  tasks : List Step
  plannedBy : Option Utf16
  /-- Ghost: the provider whose answer is the plan; nothing reads it. -/
  planner : Option Utf16 := none
  deriving DecidableEq, Repr

/-- `TASK_STATES`. -/
inductive StepState where
  | pending | queued | running | complete | failed | blocked | cancelled | malformedOutput
  deriving DecidableEq, Repr

def StepState.text : StepState → Utf16
  | .pending => Utf16.ofString "pending"
  | .queued => Utf16.ofString "queued"
  | .running => Utf16.ofString "running"
  | .complete => Utf16.ofString "complete"
  | .failed => Utf16.ofString "failed"
  | .blocked => Utf16.ofString "blocked"
  | .cancelled => Utf16.ofString "cancelled"
  | .malformedOutput => Utf16.ofString "malformed_output"

/-- A model a step can be given to. -/
structure Candidate where
  modelId : Utf16
  pool : Utf16
  deriving DecidableEq, Repr

inductive ParkReason where
  | approval | quota | provider
  deriving DecidableEq, Repr

structure Park where
  reason : ParkReason
  wakeInMs : Nat
  why : Utf16
  approvalKey : Option Utf16
  deriving DecidableEq, Repr

/-- A step's or an attempt's error; only a step's carries a park. -/
structure StepError where
  code : Utf16
  class' : Utf16
  message : Utf16
  park : Option Park := none
  deriving DecidableEq, Repr

structure Attempt where
  modelId : Utf16
  pool : Utf16
  ok : Bool
  ms : Nat
  tokensUsed : Option Nat
  error : Option StepError
  deriving DecidableEq, Repr

/-- A live step: the fields the scheduler adds to the task of the graph. -/
structure Entry where
  step : Step
  state : StepState
  assignment : Option Candidate
  attempts : List Attempt
  output : Option Utf16
  error : Option StepError
  startedAt : Option Time
  completedAt : Option Time
  /-- Ghost: the candidates whose answers went into `output`; nothing reads it. -/
  producers : List Candidate := []
  deriving DecidableEq, Repr

def Entry.id (entry : Entry) : StepId := entry.step.id

/-- `tasksById`: the entries in the order of their first insertion. -/
abbrev Entries := List Entry

def Entries.get (entries : Entries) (id : StepId) : Option Entry :=
  KeyedList.get Entry.id entries id

/-- `tasksById.get(id)?.state`. -/
def Entries.stateOf (entries : Entries) (id : StepId) : Option StepState :=
  (entries.get id).map Entry.state

end Orchestrator

end TitanRunner
