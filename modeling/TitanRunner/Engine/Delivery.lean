import TitanRunner.Lib.Transition
import TitanRunner.Engine.SideEffects
import TitanRunner.Task.Lifecycle

/-!
# Delivering a result

One life of a task: pulses claim it, run it, post its result on the issue and save
its final status, and any of them can be killed between two writes
(`engine/pulse.js#processTaskInner`, `#claimAndRun`, `task/reconcile.js`).

A step of the model is one write that other processes or a later pulse can see: a
file of the state directory, a request that reached GitHub, or a push that makes the
state directory durable.  What a run computes is a label.
-/

namespace TitanRunner

namespace Delivery

open SideEffects TransitionSystem

/-- The two comments that report how a task ended. -/
inductive ResultKind where
  | done | deadLetter
  deriving DecidableEq, Repr

/-- `done:<runId>` and `dead-letter:<runId>`. -/
def ResultKind.key : ResultKind → String → String
  | .done, runId => "done:" ++ runId
  | .deadLetter, runId => "dead-letter:" ++ runId

/-- The parts of a checkpoint that delivery reads. -/
structure Checkpoint where
  runId : String
  sideEffects : Ledger
  deriving DecidableEq, Repr

/-- What the state directory says about the task. -/
structure Disk where
  status : Status
  attempts : Nat
  maxAttempts : Nat
  checkpoint : Option Checkpoint
  deriving DecidableEq, Repr

/-- The statuses a run ends a task in. -/
def endings : List Status :=
  [.complete, .failed, .blocked, .cancelled, .deadLettered, .prOpen]

abbrev Ending := { status : Status // endings.contains status = true }

/-- How the orchestration of one claim turned out. -/
inductive Outcome where
  /-- The run reached delivery; `ok` says whether it succeeded. -/
  | done (ok : Bool)
  /-- `deadLetter`: over budget, parked too often, or a poisoned step. -/
  | deadLetter
  /-- An end that posts no result: refused, cancelled, suppressed, a pull request. -/
  | quiet (status : Ending)
  /-- Parked or paused; the checkpoint is retained. -/
  | parked (paused : Bool)
  deriving DecidableEq, Repr

/-- Where the process is between two writes. -/
inductive Phase where
  | working
  | commenting (kind : ResultKind) (status : Ending)
  | posting (kind : ResultKind) (status : Ending)
  | recording (kind : ResultKind) (status : Ending)
  | closing
  | finishing (status : Ending)
  | saving (status : Status)
  deriving DecidableEq, Repr

/-- The pulse that holds the task: the checkpoint in memory, whether one was found
when the task was claimed, and whether effects are suppressed. -/
structure Process where
  checkpoint : Checkpoint
  forceRemoteCheck : Bool
  suppressed : Bool
  phase : Phase
  deriving DecidableEq, Repr

/-- A result comment that reached GitHub, and its place among the comments. -/
structure Posted where
  kind : ResultKind
  runId : String
  position : Nat
  deriving DecidableEq, Repr

def Posted.key (result : Posted) : String := result.kind.key result.runId

/-- The state directory as the running process sees it, the copy that survives the
machine, the process, and the issue. -/
structure World where
  disk : Disk
  durable : Disk
  process : Option Process
  issueOpen : Bool
  comments : List String
  posted : List Posted
  deriving DecidableEq, Repr

/-- `newCheckpoint`. -/
def newCheckpoint (runId : String) : Checkpoint := { runId, sideEffects := [] }

/-- `claimAndRun`, up to the save that makes the claim visible.  A task whose issue
is closed was cancelled by the sync before this point. -/
def World.claim (world : World) (runId : String) (suppressed : Bool) : Option World :=
  if world.process.isNone ∧ world.issueOpen = true ∧ world.disk.status = .pending then
    some { world with
      disk := { world.disk with status := .running }
      process := some {
        checkpoint := world.disk.checkpoint.getD (newCheckpoint runId)
        forceRemoteCheck := world.disk.checkpoint.isSome
        suppressed
        phase := .working } }
  else none

/-- `store.saveCheckpoint` of the checkpoint in memory. -/
def World.saveCheckpoint (world : World) (process : Process) : World :=
  { world with
    disk := { world.disk with checkpoint := some process.checkpoint }
    process := some process }

/-- `#record`: into the ledger, then `onRecord` persists. -/
def Process.record (process : Process) (key : String) (at' : Time) (phase : Phase) : Process :=
  { process with
    checkpoint := { process.checkpoint with
      sideEffects := process.checkpoint.sideEffects.record key at' }
    phase }

def World.persist (world : World) (process : Process) : Option World :=
  if process.phase = .working then some (world.saveCheckpoint process) else none

/-- Any effect of the run other than a result comment. -/
def World.sideEffect (world : World) (process : Process) (key : String) (at' : Time) :
    Option World :=
  if process.phase = .working then
    some (world.saveCheckpoint (process.record key at' .working))
  else none

/-- What the process does next, once the orchestration has returned. -/
def Outcome.phase : Outcome → Phase
  | .done true => .commenting .done ⟨.complete, rfl⟩
  | .done false => .commenting .done ⟨.failed, rfl⟩
  | .deadLetter => .commenting .deadLetter ⟨.deadLettered, rfl⟩
  | .quiet status => .finishing status
  | .parked paused => .saving (if paused then .paused else .waiting)

def World.conclude (world : World) (process : Process) (outcome : Outcome) : Option World :=
  if process.phase = .working then
    some { world with process := some { process with phase := outcome.phase } }
  else none

/-- A completed task closes its issue after the result comment. -/
def afterComment (status : Ending) : Phase :=
  if status.val = .complete then .closing else .finishing status

/-- `ledger.comment` up to the request that posts. -/
def World.comment (world : World) (process : Process) (answered : Bool) (at' : Time) :
    Option World :=
  match process.phase with
  | .commenting kind status =>
      let key := kind.key process.checkpoint.runId
      match commentStep process.checkpoint.sideEffects process.forceRemoteCheck
          process.suppressed (listIssueComments answered world.comments) key with
      | .skippedLedger | .suppressed =>
          some { world with process := some { process with phase := afterComment status } }
      | .skippedRemote =>
          some (world.saveCheckpoint (process.record key at' (afterComment status)))
      | .post => some { world with process := some { process with phase := .posting kind status } }
  | _ => none

/-- The request that posts reached GitHub. -/
def World.post (world : World) (process : Process) (body : String) : Option World :=
  match process.phase with
  | .posting kind status =>
      let runId := process.checkpoint.runId
      some { world with
        process := some { process with phase := .recording kind status }
        comments := world.comments ++ [commentBody body (kind.key runId)]
        posted := world.posted ++ [{ kind, runId, position := world.comments.length }] }
  | _ => none

def World.record (world : World) (process : Process) (at' : Time) : Option World :=
  match process.phase with
  | .recording kind status =>
      some (world.saveCheckpoint
        (process.record (kind.key process.checkpoint.runId) at' (afterComment status)))
  | _ => none

/-- `ledger.closeIssue`. -/
def World.closeIssue (world : World) (process : Process) (at' : Time) : Option World :=
  if process.phase = .closing then
    let key := "close:" ++ process.checkpoint.runId
    if process.checkpoint.sideEffects.has key || process.suppressed then
      some { world with process := some { process with phase := .finishing ⟨.complete, rfl⟩ } }
    else
      some { world.saveCheckpoint (process.record key at' (.finishing ⟨.complete, rfl⟩)) with
        issueOpen := false }
  else none

/-- `transition` in memory, then `store.deleteCheckpoint`. -/
def World.deleteCheckpoint (world : World) (process : Process) : Option World :=
  match process.phase with
  | .finishing status =>
      some { world with
        disk := { world.disk with checkpoint := none }
        process := some { process with phase := .saving status } }
  | _ => none

/-- The save that makes the new status visible.  A delete that threw is skipped: the
queue is saved at the end of the pulse all the same. -/
def World.save (world : World) (process : Process) : Option World :=
  match process.phase with
  | .finishing status =>
      some { world with disk := { world.disk with status }, process := none }
  | .saving status =>
      some { world with disk := { world.disk with status }, process := none }
  | _ => none

/-- What a later pulse finds: the state directory as the dead pulse left it, or, on a
fresh machine, the copy last pushed. -/
def World.found (world : World) (lost : Bool) : Disk := if lost then world.durable else world.disk

/-- `reconcile` of a `running` task whose lease is gone. -/
def World.reclaim (world : World) : Option World :=
  if world.process.isNone ∧ world.disk.status = .running then
    if world.disk.attempts + 1 ≥ world.disk.maxAttempts then
      -- dead-lettered in memory only, until the queue is saved
      some { world with disk := { world.disk with checkpoint := none } }
    else
      some { world with
        disk := { world.disk with status := .pending, attempts := world.disk.attempts + 1 } }
  else none

/-- A wait that is over, or `/titan resume`. -/
def World.wake (world : World) : Option World :=
  if world.process.isNone ∧ (world.disk.status = .waiting ∨ world.disk.status = .paused) then
    some { world with disk := { world.disk with status := .pending } }
  else none

/-- The ends a task can meet outside a run: a TTL, a closed issue or `/titan cancel`, a
failed dependency, the attempt ceiling, and the decision on an open pull request. -/
def Disk.settlements (disk : Disk) : List Status :=
  match disk.status with
  | .pending | .waiting => [.expired, .cancelled, .deadLettered]
  | .paused => [.expired, .cancelled]
  | .running =>
      if disk.attempts + 1 ≥ disk.maxAttempts then [.expired, .deadLettered] else [.expired]
  | .prOpen => [.complete, .failed, .cancelled]
  | _ => []

def World.settle (world : World) (status : Status) : Option World :=
  if world.process.isNone ∧ world.disk.settlements.contains status = true then
    some { world with disk := { world.disk with status } }
  else none

/-- A checkpoint without a live task is an orphan. -/
def World.sweep (world : World) : Option World :=
  if world.process.isNone ∧ isTerminal world.disk.status = true then
    some { world with disk := { world.disk with checkpoint := none } }
  else none

inductive Label where
  | claim (runId : String) (suppressed : Bool)
  | persist
  | sideEffect (key : String) (at' : Time)
  | conclude (outcome : Outcome)
  | comment (answered : Bool) (at' : Time)
  | post (body : String)
  | record (at' : Time)
  | closeIssue (at' : Time)
  | deleteCheckpoint
  | save
  /-- The pulse dies, or an error ends the run without a transition. -/
  | crash (lost : Bool)
  /-- A push that landed. -/
  | push
  | reclaim
  | wake
  | settle (status : Status)
  | sweep
  | foreignComment (body : String)
  | reopenIssue
  deriving DecidableEq, Repr

def next (world : World) : Label → Option World
  | .claim runId suppressed => world.claim runId suppressed
  | .persist => world.process.bind world.persist
  | .sideEffect key at' => world.process.bind (world.sideEffect · key at')
  | .conclude outcome => world.process.bind (world.conclude · outcome)
  | .comment answered at' => world.process.bind (world.comment · answered at')
  | .post body => world.process.bind (world.post · body)
  | .record at' => world.process.bind (world.record · at')
  | .closeIssue at' => world.process.bind (world.closeIssue · at')
  | .deleteCheckpoint => world.process.bind world.deleteCheckpoint
  | .save => world.process.bind world.save
  | .crash lost => some { world with disk := world.found lost, process := none }
  | .push => some { world with durable := world.disk }
  | .reclaim => world.reclaim
  | .wake => world.wake
  | .settle status => world.settle status
  | .sweep => world.sweep
  | .foreignComment body => some { world with comments := world.comments ++ [body] }
  | .reopenIssue => some { world with issueOpen := true }

/-- A life of the task begins: nothing runs it and no result was posted. -/
def system : System World Label where
  start world := world.process = none ∧ world.posted = []
  next := next

/-- The issue received at most one result comment. -/
def AtMostOnce (world : World) : Prop := world.posted.length ≤ 1

/-- A later pulse can still run the task. -/
def Disk.claimable (disk : Disk) : Bool :=
  match disk.status with
  | .pending | .waiting | .paused => true
  | .running => decide (disk.attempts + 1 < disk.maxAttempts)
  | _ => false

/-- A later pulse does not run the task again, or resumes this run. -/
def Disk.Keeps (disk : Disk) (runId : String) : Prop :=
  disk.claimable = false ∨ disk.checkpoint.map Checkpoint.runId = some runId

instance (disk : Disk) (runId : String) : Decidable (disk.Keeps runId) :=
  inferInstanceAs (Decidable (_ ∨ _))

/-- The comment an outcome posts, if any. -/
def Outcome.resultKind : Outcome → Option ResultKind
  | .done _ => some .done
  | .deadLetter => some .deadLetter
  | _ => none

/-- The side condition of a step, once `result` is on the issue. -/
def Guarded (result : Posted) (world : World) : Label → Prop
  | .crash lost => world.issueOpen = false ∨ (world.found lost).Keeps result.runId
  | .reopenIssue => world.process.isSome ∨ world.disk.Keeps result.runId
  | .conclude outcome =>
      world.process.any Process.suppressed ∨ outcome.resultKind.getD result.kind = result.kind
  | .comment answered _ =>
      world.process.any Process.suppressed ∨
        world.process.any (fun process => process.checkpoint.sideEffects.has result.key) ∨
        (answered = true ∧ result.position < commentsPerPage)
  | _ => True

instance (result : Posted) (world : World) : (label : Label) → Decidable (Guarded result world label)
  | .crash _ => inferInstanceAs (Decidable (_ ∨ _))
  | .reopenIssue => inferInstanceAs (Decidable (_ ∨ _))
  | .conclude _ => inferInstanceAs (Decidable (_ ∨ _))
  | .comment _ _ => inferInstanceAs (Decidable (_ ∨ _ ∨ _))
  | .claim _ _ | .persist | .sideEffect _ _ | .post _ | .record _ | .closeIssue _
  | .deleteCheckpoint | .save | .push | .reclaim | .wake | .settle _ | .sweep
  | .foreignComment _ => .isTrue trivial

def guard (world : World) (label : Label) : Prop :=
  ∀ result ∈ world.posted, Guarded result world label

instance (world : World) (label : Label) : Decidable (guard world label) :=
  inferInstanceAs (Decidable (∀ result ∈ world.posted, Guarded result world label))

/-- What the process that holds the task carries, once `result` is on the issue. -/
def Carries (result : Posted) (disk : Disk) (process : Process) : Prop :=
  process.checkpoint.runId = result.runId ∧
  match process.phase with
  | .working => process.forceRemoteCheck = true ∧ disk.checkpoint.map Checkpoint.runId = some result.runId
  | .commenting kind _ =>
      process.forceRemoteCheck = true ∧ (process.suppressed = true ∨ kind = result.kind)
  | .posting _ _ => False
  | .saving status => status ∈ endings ∨ disk.checkpoint.map Checkpoint.runId = some result.runId
  | _ => True

/-- The invariant of a life whose result is on the issue. -/
structure Delivered (result : Posted) (world : World) : Prop where
  shown : ∃ body, world.comments[result.position]? = some body ∧
    includes body (markerFor result.key) = true
  idle : world.process = none → world.issueOpen = true → world.disk.Keeps result.runId
  active : ∀ process, world.process = some process → Carries result world.disk process

theorem Disk.claimable_ending (disk : Disk) (status : Ending) :
    Disk.claimable { disk with status } = false := by
  obtain ⟨status, listed⟩ := status
  revert listed
  cases status <;> simp [endings, Disk.claimable]

theorem Disk.Keeps.checkpoint {disk : Disk} {runId : String} (keeps : disk.Keeps runId)
    (claimable : disk.claimable = true) :
    ∃ checkpoint, disk.checkpoint = some checkpoint ∧ checkpoint.runId = runId := by
  cases keeps with
  | inl not => simp [claimable] at not
  | inr found => exact Option.map_eq_some_iff.1 found

section Steps

variable {result : Posted} {world after : World} {process : Process}

theorem Delivered.claim {runId : String} {suppressed : Bool} (delivered : Delivered result world)
    (stepped : world.claim runId suppressed = some after) : Delivered result after := by
  simp only [World.claim] at stepped
  split at stepped
  next ready =>
    have claimable : world.disk.claimable = true := by simp [Disk.claimable, ready.2.2]
    have keeps := delivered.idle (by simpa using ready.1) ready.2.1
    obtain ⟨checkpoint, found, same⟩ := keeps.checkpoint claimable
    cases stepped
    constructor
    · exact delivered.shown
    · intro none
      contradiction
    · intro process held
      cases held
      simp [Carries, found, same]
  next => contradiction

/-- A checkpoint of the posted run is on disk once the process has saved it. -/
theorem Delivered.saveCheckpoint (delivered : Delivered result world)
    (same : process.checkpoint.runId = result.runId)
    (probing : process.phase = .working → process.forceRemoteCheck = true)
    (past : ∀ kind status, process.phase ≠ .commenting kind status ∧
      process.phase ≠ .posting kind status) :
    Delivered result (world.saveCheckpoint process) := by
  constructor
  · exact delivered.shown
  · intro none
    contradiction
  · intro held eq
    cases eq
    refine ⟨same, ?_⟩
    have onDisk : (world.saveCheckpoint process).disk.checkpoint.map Checkpoint.runId =
        some result.runId := by simp [World.saveCheckpoint, same]
    cases phase : process.phase with
    | working => exact ⟨probing phase, onDisk⟩
    | commenting kind status => exact ((past kind status).1 phase).elim
    | posting kind status => exact ((past kind status).2 phase).elim
    | recording kind status => trivial
    | closing => trivial
    | finishing status => trivial
    | saving status => exact .inr onDisk

/-- A move of the process that leaves the files alone. -/
theorem Delivered.move (delivered : Delivered result world) {moved : Process}
    (carries : Carries result world.disk moved) :
    Delivered result { world with process := some moved } := by
  constructor
  · exact delivered.shown
  · intro none
    contradiction
  · intro process held
    cases held
    exact carries

theorem Carries.afterComment {disk : Disk} {status : Ending}
    (same : process.checkpoint.runId = result.runId) (phase : process.phase = afterComment status) :
    Carries result disk process := by
  refine ⟨same, ?_⟩
  simp only [Delivery.afterComment] at phase
  split at phase <;> simp only [phase]

/-- The result comment is on record, and the run only has to end. -/
theorem Delivered.recordResult (delivered : Delivered result world)
    (same : process.checkpoint.runId = result.runId) (key : String) (at' : Time)
    (status : Ending) :
    Delivered result (world.saveCheckpoint (process.record key at' (afterComment status))) := by
  apply delivered.saveCheckpoint
  · exact same
  · simp only [Process.record, afterComment]
    split <;> simp
  · simp only [Process.record, afterComment]
    split <;> simp

theorem Delivered.persist (delivered : Delivered result world) (held : world.process = some process)
    (stepped : world.persist process = some after) : Delivered result after := by
  simp only [World.persist] at stepped
  split at stepped
  next working =>
    cases stepped
    have carries := delivered.active process held
    simp only [Carries, working] at carries
    apply delivered.saveCheckpoint carries.1
    · intro _
      exact carries.2.1
    · simp [working]
  next => contradiction

theorem Delivered.sideEffect {key : String} {at' : Time} (delivered : Delivered result world)
    (held : world.process = some process)
    (stepped : world.sideEffect process key at' = some after) : Delivered result after := by
  simp only [World.sideEffect] at stepped
  split at stepped
  next working =>
    cases stepped
    have carries := delivered.active process held
    simp only [Carries, working] at carries
    apply delivered.saveCheckpoint
    · exact carries.1
    · intro _
      exact carries.2.1
    · simp [Process.record]
  next => contradiction

theorem Delivered.conclude {outcome : Outcome} (delivered : Delivered result world)
    (held : world.process = some process)
    (guarded : Guarded result world (.conclude outcome))
    (stepped : world.conclude process outcome = some after) : Delivered result after := by
  simp only [World.conclude] at stepped
  split at stepped
  next working =>
    cases stepped
    have carries := delivered.active process held
    simp only [Carries, working] at carries
    simp only [Guarded, held, Option.any_some] at guarded
    apply delivered.move
    refine ⟨carries.1, ?_⟩
    cases outcome with
    | done ok => cases ok <;> exact ⟨carries.2.1, guarded⟩
    | deadLetter => exact ⟨carries.2.1, guarded⟩
    | quiet status => trivial
    | parked paused => exact .inr carries.2.2
  next => contradiction

/-- A resumed run that has not recorded the posted comment finds it on GitHub. -/
theorem Delivered.commentStep_ne_post (delivered : Delivered result world)
    (resumed : process.forceRemoteCheck = true) {answered : Bool}
    (guarded : process.suppressed = true ∨
      process.checkpoint.sideEffects.has result.key = true ∨
      (answered = true ∧ result.position < commentsPerPage)) :
    commentStep process.checkpoint.sideEffects process.forceRemoteCheck process.suppressed
      (listIssueComments answered world.comments) result.key ≠ .post := by
  obtain ⟨body, shown, marked⟩ := delivered.shown
  simp only [commentStep, resumed, Bool.or_true, Bool.true_and]
  rcases guarded with suppressed | recorded | ⟨answered, onPage⟩
  · rw [suppressed]
    split <;> simp
  · simp [recorded]
  · have found := remoteHas_of_getElem? shown marked onPage
    rw [answered, found]
    split
    · simp
    · split <;> simp

theorem Delivered.comment {answered : Bool} {at' : Time} (delivered : Delivered result world)
    (held : world.process = some process)
    (guarded : Guarded result world (.comment answered at'))
    (stepped : world.comment process answered at' = some after) : Delivered result after := by
  have carries := delivered.active process held
  simp only [Guarded, held, Option.any_some] at guarded
  simp only [World.comment] at stepped
  split at stepped
  next kind status phase =>
    simp only [Carries, phase] at carries
    obtain ⟨same, resumed, agrees⟩ := carries
    split at stepped
    next =>
      cases stepped
      exact delivered.move (Carries.afterComment same rfl)
    next =>
      cases stepped
      exact delivered.move (Carries.afterComment same rfl)
    next =>
      cases stepped
      exact delivered.recordResult same _ at' status
    next posting =>
      exfalso
      rcases agrees with suppressed | kindSame
      · revert posting
        simp only [commentStep, suppressed]
        split <;> simp
      · rw [same, kindSame] at posting
        exact delivered.commentStep_ne_post resumed guarded posting
  next => contradiction

/-- No process is about to post a second result. -/
theorem Delivered.not_post {body : String} (delivered : Delivered result world)
    (held : world.process = some process) : world.post process body ≠ some after := by
  intro stepped
  have carries := delivered.active process held
  simp only [World.post] at stepped
  split at stepped
  next phase => simp [Carries, phase] at carries
  next => contradiction

theorem Delivered.record {at' : Time} (delivered : Delivered result world)
    (held : world.process = some process)
    (stepped : world.record process at' = some after) : Delivered result after := by
  have carries := delivered.active process held
  simp only [World.record] at stepped
  split at stepped
  next status phase =>
    cases stepped
    exact delivered.recordResult carries.1 _ at' status
  next => contradiction

theorem Delivered.closeIssue {at' : Time} (delivered : Delivered result world)
    (held : world.process = some process)
    (stepped : world.closeIssue process at' = some after) : Delivered result after := by
  have carries := delivered.active process held
  simp only [World.closeIssue] at stepped
  split at stepped
  next =>
    split at stepped
    next =>
      cases stepped
      apply delivered.move
      exact ⟨carries.1, trivial⟩
    next =>
      cases stepped
      constructor
      · exact delivered.shown
      · intro none
        contradiction
      · intro moved eq
        cases eq
        exact ⟨carries.1, trivial⟩
  next => contradiction

theorem Delivered.deleteCheckpoint (delivered : Delivered result world)
    (held : world.process = some process)
    (stepped : world.deleteCheckpoint process = some after) : Delivered result after := by
  have carries := delivered.active process held
  simp only [World.deleteCheckpoint] at stepped
  split at stepped
  next status phase =>
    cases stepped
    constructor
    · exact delivered.shown
    · intro none
      contradiction
    · intro moved eq
      cases eq
      exact ⟨carries.1, .inl (List.contains_iff_mem.1 status.property)⟩
  next => contradiction

theorem Delivered.save (delivered : Delivered result world) (held : world.process = some process)
    (stepped : world.save process = some after) : Delivered result after := by
  have carries := delivered.active process held
  simp only [World.save] at stepped
  split at stepped
  next status phase =>
    cases stepped
    exact ⟨delivered.shown, fun _ _ => .inl (Disk.claimable_ending world.disk status), by simp⟩
  next status phase =>
    cases stepped
    refine ⟨delivered.shown, fun _ _ => ?_, by simp⟩
    simp only [Carries, phase] at carries
    cases carries.2 with
    | inl ending => exact .inl (Disk.claimable_ending world.disk ⟨status, List.contains_iff_mem.2 ending⟩)
    | inr onDisk => exact .inr onDisk
  next => contradiction

theorem Delivered.crash {lost : Bool} (delivered : Delivered result world)
    (guarded : Guarded result world (.crash lost)) :
    Delivered result { world with disk := world.found lost, process := none } := by
  refine ⟨delivered.shown, fun _ isOpen => ?_, by simp⟩
  cases guarded with
  | inl closed => simp [closed] at isOpen
  | inr keeps => exact keeps

/-- A write of the reconciling pulse: the task is not being run. -/
theorem Delivered.reconcile {disk : Disk} (delivered : Delivered result world)
    (idle : world.process = none)
    (keeps : world.disk.Keeps result.runId → disk.Keeps result.runId) :
    Delivered result { world with disk } := by
  refine ⟨delivered.shown, fun none isOpen => keeps (delivered.idle none isOpen), ?_⟩
  intro process held
  simp [idle] at held

theorem Delivered.reclaim (delivered : Delivered result world)
    (stepped : world.reclaim = some after) : Delivered result after := by
  simp only [World.reclaim] at stepped
  split at stepped
  next running =>
    have idle : world.process = none := by simpa using running.1
    split at stepped
    next ceiling =>
      cases stepped
      apply delivered.reconcile idle
      intro _
      apply Or.inl
      simp [Disk.claimable, running.2, ceiling]
    next below =>
      cases stepped
      apply delivered.reconcile idle
      intro keeps
      apply Or.inr
      have claimable : world.disk.claimable = true := by
        simp only [Disk.claimable, running.2, decide_eq_true_eq]
        omega
      obtain ⟨checkpoint, found, same⟩ := keeps.checkpoint claimable
      simp [found, same]
  next => contradiction

theorem Delivered.wake (delivered : Delivered result world)
    (stepped : world.wake = some after) : Delivered result after := by
  simp only [World.wake] at stepped
  split at stepped
  next waiting =>
    cases stepped
    apply delivered.reconcile (by simpa using waiting.1)
    intro keeps
    have claimable : world.disk.claimable = true := by
      cases waiting.2 with
      | inl status => simp [Disk.claimable, status]
      | inr status => simp [Disk.claimable, status]
    obtain ⟨checkpoint, found, same⟩ := keeps.checkpoint claimable
    exact .inr (by simp [found, same])
  next => contradiction

theorem Disk.claimable_settlements {disk : Disk} {status : Status}
    (listed : disk.settlements.contains status = true) :
    Disk.claimable { disk with status } = false := by
  simp only [Disk.settlements] at listed
  split at listed <;> (try split at listed) <;> cases status <;>
    simp_all [Disk.claimable]

theorem Delivered.settle {status : Status} (delivered : Delivered result world)
    (stepped : world.settle status = some after) : Delivered result after := by
  simp only [World.settle] at stepped
  split at stepped
  next settled =>
    cases stepped
    apply delivered.reconcile (by simpa using settled.1)
    intro _
    exact .inl (Disk.claimable_settlements settled.2)
  next => contradiction

theorem Delivered.sweep (delivered : Delivered result world)
    (stepped : world.sweep = some after) : Delivered result after := by
  simp only [World.sweep] at stepped
  split at stepped
  next ended =>
    cases stepped
    apply delivered.reconcile (by simpa using ended.1)
    intro _
    apply Or.inl
    have terminal := ended.2
    simp only [Disk.claimable]
    revert terminal
    cases world.disk.status <;> simp [isTerminal, terminalStatuses]
  next => contradiction

theorem Delivered.foreignComment (delivered : Delivered result world) (body : String) :
    Delivered result { world with comments := world.comments ++ [body] } := by
  obtain ⟨shown, found, marked⟩ := delivered.shown
  refine ⟨⟨shown, ?_, marked⟩, delivered.idle, delivered.active⟩
  have inside := (List.getElem?_eq_some_iff.1 found).1
  rw [List.getElem?_append_left inside]
  exact found

theorem Delivered.reopenIssue (delivered : Delivered result world)
    (guarded : Guarded result world .reopenIssue) :
    Delivered result { world with issueOpen := true } := by
  refine ⟨delivered.shown, fun none _ => ?_, delivered.active⟩
  cases guarded with
  | inl active => rw [none] at active; contradiction
  | inr keeps => exact keeps

/-- One step of a life whose result is on the issue. -/
theorem Delivered.next {label : Label} (delivered : Delivered result world)
    (guarded : Guarded result world label) (stepped : Delivery.next world label = some after) :
    Delivered result after := by
  cases label with
  | claim runId suppressed => exact delivered.claim stepped
  | persist =>
      obtain ⟨process, held, stepped⟩ := Option.bind_eq_some_iff.1 stepped
      exact delivered.persist held stepped
  | sideEffect key at' =>
      obtain ⟨process, held, stepped⟩ := Option.bind_eq_some_iff.1 stepped
      exact delivered.sideEffect held stepped
  | conclude outcome =>
      obtain ⟨process, held, stepped⟩ := Option.bind_eq_some_iff.1 stepped
      exact delivered.conclude held guarded stepped
  | comment answered at' =>
      obtain ⟨process, held, stepped⟩ := Option.bind_eq_some_iff.1 stepped
      exact delivered.comment held guarded stepped
  | post body =>
      obtain ⟨process, held, stepped⟩ := Option.bind_eq_some_iff.1 stepped
      exact (delivered.not_post held stepped).elim
  | record at' =>
      obtain ⟨process, held, stepped⟩ := Option.bind_eq_some_iff.1 stepped
      exact delivered.record held stepped
  | closeIssue at' =>
      obtain ⟨process, held, stepped⟩ := Option.bind_eq_some_iff.1 stepped
      exact delivered.closeIssue held stepped
  | deleteCheckpoint =>
      obtain ⟨process, held, stepped⟩ := Option.bind_eq_some_iff.1 stepped
      exact delivered.deleteCheckpoint held stepped
  | save =>
      obtain ⟨process, held, stepped⟩ := Option.bind_eq_some_iff.1 stepped
      exact delivered.save held stepped
  | crash lost =>
      cases stepped
      exact delivered.crash guarded
  | push =>
      cases stepped
      exact ⟨delivered.shown, delivered.idle, delivered.active⟩
  | reclaim => exact delivered.reclaim stepped
  | wake => exact delivered.wake stepped
  | settle status => exact delivered.settle stepped
  | sweep => exact delivered.sweep stepped
  | foreignComment body =>
      cases stepped
      exact delivered.foreignComment body
  | reopenIssue =>
      cases stepped
      exact delivered.reopenIssue guarded

/-- Posting is the only step that adds a result, and it delivers the one it adds. -/
theorem delivered_of_post {body : String} (fresh : world.posted = [])
    (stepped : world.post process body = some after) :
    ∃ result, after.posted = [result] ∧ Delivered result after := by
  simp only [World.post] at stepped
  split at stepped
  next kind status phase =>
    cases stepped
    refine ⟨_, by rw [fresh]; rfl, ?_⟩
    constructor
    · refine ⟨commentBody body (kind.key process.checkpoint.runId), ?_, ?_⟩
      · simp
      · exact includes_commentBody body _
    · intro none
      contradiction
    · intro moved held
      cases held
      exact ⟨rfl, trivial⟩
  next => contradiction

theorem posted_of_next {label : Label} (notPost : ∀ body, label ≠ .post body)
    (stepped : Delivery.next world label = some after) : after.posted = world.posted := by
  cases label with
  | post body => exact (notPost body rfl).elim
  | crash lost | push | foreignComment body | reopenIssue => cases stepped; rfl
  | claim runId suppressed | reclaim | wake | settle status | sweep =>
      simp only [Delivery.next, World.claim, World.reclaim, World.wake, World.settle,
        World.sweep] at stepped
      grind
  | persist | sideEffect key at' | conclude outcome | comment answered at' | record at'
  | closeIssue at' | deleteCheckpoint | save =>
      obtain ⟨process, _, stepped⟩ := Option.bind_eq_some_iff.1 stepped
      simp only [World.persist, World.sideEffect, World.conclude, World.comment, World.record,
        World.closeIssue, World.deleteCheckpoint, World.save, World.saveCheckpoint] at stepped
      grind

end Steps

/-- The invariant of a life: no result yet, or one that every later run respects. -/
def Inv (world : World) : Prop :=
  world.posted = [] ∨ ∃ result, world.posted = [result] ∧ Delivered result world

theorem Inv.next {world after : World} {label : Label} (inv : Inv world)
    (guarded : guard world label) (stepped : Delivery.next world label = some after) :
    Inv after := by
  cases inv with
  | inl fresh =>
      cases label with
      | post body =>
          obtain ⟨process, _, stepped⟩ := Option.bind_eq_some_iff.1 stepped
          exact .inr (delivered_of_post fresh stepped)
      | _ => exact .inl ((posted_of_next (by simp) stepped).trans fresh)
  | inr posted =>
      obtain ⟨result, only, delivered⟩ := posted
      have kept : Delivered result after :=
        delivered.next (guarded result (by simp [only])) stepped
      refine .inr ⟨result, ?_, kept⟩
      cases label with
      | post body =>
          obtain ⟨process, held, stepped⟩ := Option.bind_eq_some_iff.1 stepped
          exact (delivered.not_post held stepped).elim
      | _ => exact (posted_of_next (by simp) stepped).trans only

/-- In every run in which no pulse dies (or loses its files) once a result is on the
issue while the task could be claimed without its checkpoint, no later run reports the
other outcome, and the listing of comments shows the result where the ledger does not
have it, the issue receives at most one result. -/
theorem atMostOnce_of_guarded {world : World} (reachable : system.Reachable guard world) :
    AtMostOnce world := by
  have inv : Inv world := by
    apply reachable.invariant Inv
    · intro start started
      exact .inl started.2
    · intro before label after _ inv guarded stepped
      exact inv.next guarded stepped
  simp only [AtMostOnce]
  cases inv with
  | inl fresh => simp [fresh]
  | inr posted =>
      obtain ⟨result, only, _⟩ := posted
      simp [only]

/-- A pending task that never ran, and an issue without comments. -/
def fresh : World where
  disk := { status := .pending, attempts := 0, maxAttempts := 3, checkpoint := none }
  durable := { status := .pending, attempts := 0, maxAttempts := 3, checkpoint := none }
  process := none
  issueOpen := true
  comments := []
  posted := []

/-- Claim, run to a failed result, post it and delete the checkpoint. -/
def failedRun (runId : String) : List Label :=
  [.claim runId false, .persist, .conclude (.done false), .comment true 1, .post "1 step failed",
    .record 2, .deleteCheckpoint]

/-- A pulse that dies with the result on record: the next one resumes, finds the key in
the ledger and ends the task. -/
theorem atMostOnce_of_guarded_resumed :
    ∃ world, world.posted.length = 1 ∧ world.disk.status = .failed ∧ AtMostOnce world := by
  have ran : ∃ after, system.exec guard fresh
      [.claim "r1" false, .persist, .conclude (.done false), .comment true 1,
        .post "1 step failed", .record 2, .crash false, .reclaim, .claim "r2" false,
        .conclude (.done false), .comment false 3, .deleteCheckpoint, .save] = some after ∧
      after.posted.length = 1 ∧ after.disk.status = .failed := ⟨_, rfl, rfl, rfl⟩
  obtain ⟨after, ran, one, failed⟩ := ran
  have started : system.start fresh := ⟨rfl, rfl⟩
  exact ⟨after, one, failed, atMostOnce_of_guarded (System.Reachable.of_exec (.start started) ran)⟩

/-- The pulse dies between the deletion of the checkpoint and the save of the queue; the
next one reclaims the task and runs it again from nothing. -/
theorem not_atMostOnce :
    ¬ ∀ world, system.Reachable System.always world → AtMostOnce world := by
  intro once
  have ran : ∃ after, system.exec System.always fresh
      (failedRun "r1" ++ [.crash false, .reclaim] ++ failedRun "r2") = some after ∧
      after.posted.length = 2 := ⟨_, rfl, rfl⟩
  obtain ⟨after, ran, twice⟩ := ran
  have started : system.start fresh := ⟨rfl, rfl⟩
  have atMost := once after (System.Reachable.of_exec (.start started) ran)
  simp [AtMostOnce, twice] at atMost

end Delivery

end TitanRunner
