import Mathlib.Logic.Function.Basic
import TitanRunner.State.Store
import TitanRunner.Task.Lifecycle

/-!
# Claiming and running tasks

`claimAndRun` of `engine/pulse.js`, for two pulses over one state directory.  The
loop walks the task objects it captured when it started, while `saveTasks` replaces
objects of the queue by fresh ones from disk.  An object of the queue is therefore
marked as held when it is one of the captured objects: only then does a change that
the loop makes to a task reach the queue.
-/

namespace TitanRunner

namespace Claim

open TransitionSystem

/-- A task object of the queue; `held` if `claimAndRun` captured this very object. -/
structure Object where
  task : Task
  held : Bool
  deriving DecidableEq, Repr

def Object.id (object : Object) : TaskId := object.task.id

@[simp] theorem Object.id_mk (task : Task) (held : Bool) : Object.id ⟨task, held⟩ = task.id :=
  rfl

/-- Objects and records of the queue, with the secret scrubber of the store.  A status
is a word of a fixed list and no secret, so scrubbing keeps it. -/
structure Scrubber where
  scrub : Task → Task
  id_scrub : ∀ task, (scrub task).id = task.id
  status_scrub : ∀ task, (scrub task).status = task.status

def Scrubber.codec (scrubber : Scrubber) : Store.Codec Object Task where
  id := Task.id
  read := Object.task
  fresh task := ⟨task, false⟩
  scrub := scrubber.scrub
  read_fresh _ := rfl
  id_scrub := scrubber.id_scrub

inductive DependencyState where
  | missing | failed | ready | waiting
  deriving DecidableEq, Repr

/-- `dependencyState`. -/
def dependencyState (task : Task) (byId : List Task) : DependencyState :=
  let deps := task.dependsOn.map (KeyedList.get Task.id byId)
  if deps.any Option.isNone then .missing
  else if deps.any fun dep => dep.any fun dep =>
      isTerminal dep.status && decide (dep.status ≠ .complete) then .failed
  else if deps.all fun dep => dep.any fun dep => dep.status = .complete then .ready
  else .waiting

/-- Where a pulse stands. -/
inductive Phase where
  /-- Loaded; reconcile, intake and commands change the queue in memory. -/
  | preparing
  /-- At the head of the loop of `claimAndRun`. -/
  | walking
  /-- Lease held and the task marked running; the save follows. -/
  | claimed (id : TaskId)
  /-- Inside `processTask`. -/
  | running (id : TaskId)
  | processed (id : TaskId)
  /-- Lease released; the save follows. -/
  | released (id : TaskId)
  /-- Past the loop; the last save follows. -/
  | closing
  | ended
  deriving DecidableEq, Repr

structure Pulse where
  /-- `tasksFile.tasks`. -/
  queue : List Object
  loadedSnapshot : List Task
  baseline : Option (Store.TasksFile Task)
  owned : List TaskId := []
  /-- The captured objects: `byId` of `claimAndRun`. -/
  byId : List Task := []
  /-- The captured objects still to be visited, in order of priority. -/
  runnable : List TaskId := []
  phase : Phase := .preparing

/-- A claim that led to `processTask`, with the pulses that had saved the task in a
terminal status before. -/
structure Execution where
  pulse : Bool
  task : TaskId
  finishedBy : List Bool
  deriving DecidableEq, Repr

structure World where
  disk : Option (Store.TasksFile Task)
  leases : TaskId → Option Bool
  /-- `none` before the load. -/
  pulses : Bool → Option Pulse
  /-- Which pulse's save brought which task to a terminal status on disk. -/
  finished : List (Bool × TaskId)
  executions : List Execution

inductive Label where
  | load (pulse : Bool)
  | prepare (pulse : Bool) (task : Task)
  | start (pulse : Bool) (order : List TaskId)
  | visit (pulse : Bool) (lease : Lease) (now : Time) (score : String)
  | process (pulse : Bool) (outcome : Task)
  | release (pulse : Bool)
  | stop (pulse : Bool)
  | save (pulse : Bool) (now : Time)
  | lapse (task : TaskId)

/-- Some record of the id is in a terminal status. -/
def Done (tasks : List Task) (id : TaskId) : Prop :=
  ∃ task, KeyedList.get Task.id tasks id = some task ∧ isTerminal task.status = true

/-- The records of a queue. -/
def Pulse.tasks (pulse : Pulse) : List Task := pulse.queue.map Object.task

/-- `loadTasks` and the snapshot. -/
def loadPulse (disk : Option (Store.TasksFile Task)) : Pulse :=
  let queue := (Store.tasksOf disk).map fun task => ⟨task, false⟩
  { queue, loadedSnapshot := queue.map Object.task, baseline := disk }

/-- A change in memory before the loop: a task is replaced by its next version, or a
new one is added.  None of these passes takes a task out of a terminal status. -/
def Pulse.prepare (pulse : Pulse) (task : Task) : Option Pulse :=
  match KeyedList.get Task.id pulse.tasks task.id with
  | none => some { pulse with queue := pulse.queue ++ [⟨task, false⟩] }
  | some before =>
      if isTerminal before.status = true ∧ isTerminal task.status = false then none
      else
        some { pulse with
          queue := KeyedList.set Object.id pulse.queue ⟨task, false⟩ }

/-- The head of `claimAndRun`: every object is captured, and the pending ones are to
be visited in the order of their scores. -/
def Pulse.start (pulse : Pulse) (order : List TaskId) : Option Pulse :=
  let pending := (pulse.tasks.filter fun task => decide (task.status = .pending)).map Task.id
  if order.isPerm pending then
    some { pulse with
      byId := pulse.tasks
      queue := pulse.queue.map fun object => { object with held := true }
      runnable := order
      phase := .walking }
  else none

/-- A write to a captured object: the queue sees it if it still holds that object. -/
def Pulse.assign (pulse : Pulse) (task : Task) (phase : Phase) : Pulse :=
  { pulse with
    phase
    byId := KeyedList.set Task.id pulse.byId task
    queue := pulse.queue.map fun object =>
      if object.id = task.id ∧ object.held = true then { object with task } else object }

/-- `transition` of a captured object; one that throws ends the loop, and the pulse
goes on to its last save. -/
def Pulse.transition (pulse : Pulse) (task : Task) (target : Status) (ctx : TransitionContext)
    (phase : Phase) : Pulse :=
  match TitanRunner.transition task target ctx with
  | .error _ => { pulse with phase := .closing }
  | .ok moved => pulse.assign moved.1 phase

/-- The context of the transitions that skip a task on account of its dependencies. -/
def skipContext (now : Time) (task : Task) : DependencyState → TransitionContext
  | .missing => {
      now
      reason := some "depends on an unknown task"
      error := some (some ("Dead-lettered: depends on " ++ ", ".intercalate task.dependsOn ++
        ", which does not exist."))
      failure := some (some {
        class' := "permanent", code := some "DEPENDENCY_MISSING"
        message := "unknown dependency", at' := now }) }
  | .failed => {
      now
      reason := some "a dependency failed"
      error := some (some "Dead-lettered: a task this one depends on did not complete.")
      failure := some (some {
        class' := "permanent", code := some "DEPENDENCY_FAILED"
        message := "dependency failed", at' := now }) }
  | .waiting | .ready => {
      now
      reason := some "waiting on dependencies"
      waitReason := some .dependency
      wakeAt := some now }

/-- One turn of the loop, up to the save of the claim.  `granted` says whether the
lease was acquired. -/
def Pulse.visit (pulse : Pulse) (id : TaskId) (rest : List TaskId) (task : Task) (granted : Bool)
    (lease : Lease) (now : Time) (score : String) : Pulse :=
  let pulse := { pulse with runnable := rest }
  match dependencyState task pulse.byId with
  | .missing => pulse.transition task .deadLettered (skipContext now task .missing) .walking
  | .waiting => pulse.transition task .waiting (skipContext now task .waiting) .walking
  | .failed => pulse.transition task .deadLettered (skipContext now task .failed) .walking
  | .ready =>
      if granted = false then pulse
      else
        let task := { task with lease := some lease, claimedAt := some now }
        { pulse with owned := id :: pulse.owned }.transition task .running
          { now, reason := some ("claimed (priority " ++ score ++ ")") } (.claimed id)

/-- The lease can be had: nobody holds it, or the pulse itself. -/
def World.grants (world : World) (pulse : Bool) (task : TaskId) : Bool :=
  decide (world.leases task = none ∨ world.leases task = some pulse)

/-- Whether a turn of the loop leads to `processTask`. -/
def World.claims (world : World) (id : Bool) (pulse : Pulse) (task : Task) : Bool :=
  decide (dependencyState task pulse.byId = .ready) && world.grants id task.id

def World.setPulse (world : World) (id : Bool) (pulse : Pulse) : World :=
  { world with pulses := Function.update world.pulses id (some pulse) }

/-- The phase a save leads to. -/
def Phase.afterSave : Phase → Option Phase
  | .claimed id => some (.running id)
  | .released _ => some .walking
  | .closing => some .ended
  | _ => none

/-- The pulse after `saveTasks`. -/
def Pulse.afterSave (scrubber : Scrubber) (pulse : Pulse) (phase : Phase) (now : Time)
    (disk : Option (Store.TasksFile Task)) : Pulse :=
  let saved := Store.saveTasks scrubber.codec now pulse.queue (some pulse.loadedSnapshot)
    pulse.owned pulse.baseline disk
  { pulse with queue := saved.tasks, baseline := saved.baseline, phase }

def Pulse.savedDisk (scrubber : Scrubber) (pulse : Pulse) (now : Time)
    (disk : Option (Store.TasksFile Task)) : Option (Store.TasksFile Task) :=
  (Store.saveTasks scrubber.codec now pulse.queue (some pulse.loadedSnapshot)
    pulse.owned pulse.baseline disk).disk

instance (tasks : List Task) (id : TaskId) : Decidable (Done tasks id) :=
  match found : KeyedList.get Task.id tasks id with
  | none => .isFalse fun ⟨task, held, _⟩ => by simp [found] at held
  | some task =>
      decidable_of_iff (isTerminal task.status = true)
        ⟨fun terminal => ⟨task, found, terminal⟩, fun ⟨other, held, terminal⟩ => by
          rw [found, Option.some.injEq] at held
          exact held ▸ terminal⟩

/-- The tasks a save brought to a terminal status on disk. -/
def newlyDone (before after : List Task) : List TaskId :=
  (after.map Task.id).filter fun id => decide (Done after id ∧ ¬ Done before id)

/-- The steps of the two pulses. -/
def next (scrubber : Scrubber) (world : World) : Label → Option World
  | .load id =>
      match world.pulses id with
      | some _ => none
      | none => some (world.setPulse id (loadPulse world.disk))
  | .prepare id task =>
      match world.pulses id with
      | none => none
      | some pulse =>
          if pulse.phase = .preparing then (pulse.prepare task).map (world.setPulse id) else none
  | .start id order =>
      match world.pulses id with
      | none => none
      | some pulse =>
          if pulse.phase = .preparing then (pulse.start order).map (world.setPulse id) else none
  | .visit id lease now score =>
      match world.pulses id with
      | none => none
      | some pulse =>
          match pulse.phase, pulse.runnable with
          | .walking, taskId :: rest =>
              match KeyedList.get Task.id pulse.byId taskId with
              | none => none
              | some task =>
                  let after :=
                    pulse.visit taskId rest task (world.grants id taskId) lease now score
                  if world.claims id pulse task then
                    some { world.setPulse id after with
                      leases := Function.update world.leases taskId (some id)
                      executions := {
                        pulse := id, task := taskId
                        finishedBy := (world.finished.filter fun entry =>
                          decide (entry.2 = taskId)).map Prod.fst } :: world.executions }
                  else some (world.setPulse id after)
          | _, _ => none
  | .process id outcome =>
      match world.pulses id with
      | none => none
      | some pulse =>
          match pulse.phase with
          | .running taskId =>
              if outcome.id = taskId then
                some (world.setPulse id (pulse.assign outcome (.processed taskId)))
              else none
          | _ => none
  | .release id =>
      match world.pulses id with
      | none => none
      | some pulse =>
          match pulse.phase with
          | .processed taskId =>
              some { world.setPulse id { pulse with phase := .released taskId } with
                leases := Function.update world.leases taskId none }
          | _ => none
  | .stop id =>
      match world.pulses id with
      | none => none
      | some pulse =>
          if pulse.phase = .preparing ∨ pulse.phase = .walking then
            some (world.setPulse id { pulse with runnable := [], phase := .closing })
          else none
  | .save id now =>
      match world.pulses id with
      | none => none
      | some pulse =>
          match pulse.phase.afterSave with
          | none => none
          | some phase =>
              let disk := pulse.savedDisk scrubber now world.disk
              some { world.setPulse id (pulse.afterSave scrubber phase now world.disk) with
                disk
                finished := (newlyDone (Store.tasksOf world.disk) (Store.tasksOf disk)).map
                  (id, ·) ++ world.finished }
  | .lapse taskId => some { world with leases := Function.update world.leases taskId none }

/-- Any queue file whose tasks have distinct ids, any leases, and no pulse running. -/
def system (scrubber : Scrubber) : System World Label where
  start world :=
    ((Store.tasksOf world.disk).map Task.id).Nodup ∧ (∀ id, world.pulses id = none) ∧
      world.finished = [] ∧ world.executions = []
  next := next scrubber

/-- No pulse has executed a task that the other pulse had already brought to a
terminal status and saved. -/
def NeverTwice (world : World) : Prop :=
  ∀ execution ∈ world.executions, ∀ other ∈ execution.finishedBy, other = execution.pulse

/-- The task a turn of the loop would claim. -/
def World.nextClaim (world : World) (id : Bool) : Option TaskId :=
  match world.pulses id with
  | none => none
  | some pulse =>
      match pulse.runnable with
      | [] => none
      | taskId :: _ =>
          match KeyedList.get Task.id pulse.byId taskId with
          | none => none
          | some task => if world.claims id pulse task then some taskId else none

/-- The check the loop leaves out: the record on disk is not terminal. -/
def ClaimsUnfinished (world : World) : Label → Prop
  | .visit id _ _ _ =>
      ∀ taskId ∈ world.nextClaim id, ¬ Done (Store.tasksOf world.disk) taskId
  | _ => True

instance (world : World) (label : Label) : Decidable (ClaimsUnfinished world label) :=
  match label with
  | .visit id _ _ _ => inferInstanceAs (Decidable
      (∀ taskId ∈ world.nextClaim id, ¬ Done (Store.tasksOf world.disk) taskId))
  | .load _ | .prepare _ _ | .start _ _ | .process _ _ | .release _ | .stop _ | .save _ _
  | .lapse _ => .isTrue trivial

end Claim

end TitanRunner
