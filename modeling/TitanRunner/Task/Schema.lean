import Mathlib.Data.Option.Basic

/-!
# The shape of the task queue

The records of `state/tasks.json`, version 2 (`state/schema.js`).  A timestamp is
the millisecond value `Date.parse` gives for it; `none` stands for `null` and for
any text that does not parse, which the engine treats alike.
-/

namespace TitanRunner

/-- Milliseconds since the epoch. -/
abbrev Time := Int

abbrev TaskId := String

/-- `TASK_STATUSES`. -/
inductive Status where
  | pending | running | waiting | paused
  | complete | failed | blocked | cancelled | expired | deadLettered
  | prOpen
  deriving DecidableEq, Repr

/-- The word for a status. -/
def Status.name : Status → String
  | .pending => "pending"
  | .running => "running"
  | .waiting => "waiting"
  | .paused => "paused"
  | .complete => "complete"
  | .failed => "failed"
  | .blocked => "blocked"
  | .cancelled => "cancelled"
  | .expired => "expired"
  | .deadLettered => "dead-lettered"
  | .prOpen => "pr-open"

/-- `WAIT_REASONS`. -/
inductive WaitReason where
  | backoff | dependency | approval | budget | quota | pulseBudget | provider
  deriving DecidableEq, Repr

/-- The word for a wait reason. -/
def WaitReason.name : WaitReason → String
  | .backoff => "backoff"
  | .dependency => "dependency"
  | .approval => "approval"
  | .budget => "budget"
  | .quota => "quota"
  | .pulseBudget => "pulse-budget"
  | .provider => "provider"

/-- `PRIORITIES`. -/
inductive Priority where
  | low | normal | high | urgent
  deriving DecidableEq, Repr

inductive TaskType where
  | task | selfImprove
  deriving DecidableEq, Repr

inductive RoutingHint where
  | fast | cheap | careful | any
  deriving DecidableEq, Repr

/-- `AUTONOMY_LEVELS`, least to most permissive. -/
inductive Autonomy where
  | dryRun | propose | approval | autonomous
  deriving DecidableEq, Repr

/-- The content of a lease file, and its mirror on the task record. -/
structure Lease where
  owner : String
  acquiredAt : Option Time
  expiresAt : Option Time
  deriving DecidableEq, Repr

structure Failure where
  class' : String
  code : Option String
  message : String
  at' : Time
  deriving DecidableEq, Repr

structure HistoryEntry where
  at' : Time
  from' : Option Status
  to' : Status
  reason : Option String
  deriving DecidableEq, Repr

structure Usage where
  calls : Nat
  tokens : Nat
  wallMs : Nat
  deriving DecidableEq, Repr

inductive ApprovalDecision where
  | approved | denied
  deriving DecidableEq, Repr

structure Approval where
  decision : ApprovalDecision
  by' : String
  at' : Time
  deriving DecidableEq, Repr

/-- One record of the queue (`TASK_SCHEMA`), with the defaults of
`taskDefaults`. -/
structure Task where
  id : TaskId
  type : TaskType := .task
  issueNumber : Option Nat := none
  issueUrl : Option String := none
  author : Option String := none
  title : String := ""
  prompt : String := ""
  priority : Priority := .normal
  routingHint : Option RoutingHint := none
  status : Status := .pending
  waitReason : Option WaitReason := none
  wakeAt : Option Time := none
  createdAt : Option Time := none
  claimedAt : Option Time := none
  startedAt : Option Time := none
  completedAt : Option Time := none
  runId : Option String := none
  prNumber : Option Nat := none
  prUrl : Option String := none
  error : Option String := none
  attempts : Nat := 0
  maxAttempts : Nat := 3
  lease : Option Lease := none
  dependsOn : List TaskId := []
  parentId : Option TaskId := none
  deadline : Option Time := none
  expiresAt : Option Time := none
  idempotencyKey : Option String := none
  failure : Option Failure := none
  history : List HistoryEntry := []
  autonomy : Option Autonomy := none
  parks : Nat := 0
  usage : Option Usage := none
  cancelRequested : Bool := false
  pauseRequested : Bool := false
  approvals : List (String × Approval) := []
  duplicateOf : Option TaskId := none
  retriedBy : Option String := none
  issueUpdatedAtSeen : Option Time := none
  deriving DecidableEq, Repr

end TitanRunner
