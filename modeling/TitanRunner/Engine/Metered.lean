import TitanRunner.Engine.Independence
import Mathlib.Algebra.GroupWithZero.Nat

/-!
# What a task's steps cost

The attempt ceiling of `Scheduler.#runWithRetry` and the table `stepUsage` that
`runOrchestration` keeps in the checkpoint, over the pulses of a task.  Beside the code's own
counters stand what was really spent: every call of a model, every attempt, and how often a
step was given its attempts.
-/

namespace TitanRunner

namespace Metered

open Orchestrator Utf16 TransitionSystem System
open OutputParser (ParseResult)

/-- An entry of `stepUsage`. -/
structure Meter where
  calls : Nat := 0
  tokens : Nat := 0
  deriving DecidableEq, Repr

def Meter.add (left right : Meter) : Meter where
  calls := left.calls + right.calls
  tokens := left.tokens + right.tokens

/-- `stepUsage`; a missing entry is one without calls. -/
abbrev Table := StepId → Meter

def Table.bump (table : Table) (id : StepId) (spent : Meter) : Table :=
  Function.update table id ((table id).add spent)

/-- The sum over the attempts of an entry. -/
def meterOf (attempts : List Attempt) : Meter where
  calls := attempts.length
  tokens := (attempts.map fun attempt => attempt.tokensUsed.getD 0).sum

/-- The entry of the planning calls. -/
def planKey : StepId := ofString "plan"

structure World where
  base : Orchestrate.World
  /-- `stepUsage` of the pulse at work. -/
  usage : Table := fun _ => {}
  /-- `stepUsage` in each version of the checkpoint. -/
  saved : List Table := []
  /-- `maxAttempts - attemptsUsed` of the step in flight. -/
  left : StepId → Nat := fun _ => 0
  /-- The attempts made, by all pulses. -/
  attempts : StepId → Nat := fun _ => 0
  /-- The calls of models made and the tokens they reported, by all pulses. -/
  made : Table := fun _ => {}
  /-- How often the step was given its attempts. -/
  lives : StepId → Nat := fun _ => 0
  /-- The next run of the task is its first, or one that was asked for. -/
  retried : Bool := true

inductive Label where
  /-- The graph is decomposed, at a cost. -/
  | plan (sharedContext : Utf16) (tasks : List Step) (planner : Orchestrate.Planner)
      (spent : Meter)
  /-- The planner's provider is down. -/
  | planParked (spent : Meter)
  /-- The task is explicitly retried. -/
  | retry
  | other (label : Orchestrate.Label)

/-- What a call of a model counts as. -/
def isAttempt : Answer → Bool
  | .toolRound | .toolApproval _ _ => false
  | .toolPoison _ | .usable _ | .unusable _ _ _ => true

/-- The world after a step of the pulses; every version that was written holds the table. -/
def World.follow (world : World) (base : Orchestrate.World) (usage : Table) : World :=
  { world with
    base, usage
    saved := world.saved ++ List.replicate (base.versions.length - world.base.versions.length) usage }

/-- A remediation sent the step back: it dropped its record. -/
def sentBack (before after : Orchestrate.World) (id : StepId) : Bool :=
  match before.process, after.process with
  | some earlier, some later =>
      decide (earlier.checkpoint.remediations < later.checkpoint.remediations) &&
        (later.checkpoint.subtasks.get id).isNone
  | _, _ => false

/-- The `task-state` hook: a step that came to an end adds all its attempts. -/
def usageAfter (usage : Table) (id : StepId) (base : Orchestrate.World) : Table :=
  match base.process with
  | some ⟨_, .running scheduler⟩ =>
      match (scheduler.entries.get id).filter fun entry => Orchestrate.recordedState entry.state with
      | some entry => usage.bump id (meterOf entry.attempts)
      | none => usage
  | _ => usage

/-- The counters of `#runWithRetry` and what is really spent, after an event. -/
def World.count (world : World) (maxAttempts : Nat) : Event → World
  | .dispatch id _ _ => { world with left := Function.update world.left id maxAttempts }
  | .call id answer _ tokensUsed _ =>
      let world := { world with
        made := world.made.bump id { calls := 1, tokens := tokensUsed.getD 0 } }
      if isAttempt answer then
        { world with
          left := Function.update world.left id (world.left id - 1)
          attempts := Function.update world.attempts id (world.attempts id + 1) }
      else world
  | .block _ | .noCandidate _ _ => world

/-- The loop of `#runWithRetry` goes on: `attemptsUsed < maxAttempts`. -/
def World.admits (world : World) : Event → Bool
  | .call id _ _ _ _ => decide (0 < world.left id)
  | _ => true

section Next

variable (parse : Utf16 → ParseResult) (maxRemediations maxAttempts : Nat)

def World.next (world : World) : Label → Option World
  | .plan sharedContext tasks planner spent =>
      (world.base.next parse maxRemediations (.plan sharedContext tasks planner)).map fun base =>
        { world.follow base (world.usage.bump planKey { calls := 1 }) with
          made := world.made.bump planKey spent }
  | .planParked spent =>
      match world.base.process with
      | some ⟨checkpoint, .entered⟩ =>
          if checkpoint.graph = none then
            some { world.follow (world.base.write checkpoint .returned)
                (world.usage.bump planKey { calls := 1 }) with
              made := world.made.bump planKey spent }
          else none
      | _ => none
  | .retry => some { world with retried := true }
  | .other (.plan _ _ _) => none
  | .other (.enter none) =>
      (world.base.next parse maxRemediations (.enter none)).map fun base =>
        { world with
          base
          usage := fun _ => {}
          lives := fun id => if world.retried then world.lives id + 1 else world.lives id
          retried := false }
  | .other (.enter (some version)) =>
      (world.base.next parse maxRemediations (.enter (some version))).map fun base =>
        { world with base, usage := (world.saved[version]?).getD fun _ => {} }
  | .other (.schedule event) =>
      if world.admits event then
        (world.base.next parse maxRemediations (.schedule event)).map fun base =>
          (world.follow base (usageAfter world.usage (Orchestrate.Event.id event) base)).count
            maxAttempts event
      else none
  | .other label =>
      (world.base.next parse maxRemediations label).map fun base =>
        { world.follow base world.usage with
          lives := fun id =>
            if sentBack world.base base id then world.lives id + 1 else world.lives id }

/-- A task whose checkpoint was never written. -/
def system : System World Label where
  start world := world = { base := Orchestrate.World.empty }
  next := World.next parse maxRemediations maxAttempts

end Next

/-! ## The attempt ceiling -/

section Ceiling

variable {parse : Utf16 → ParseResult} {maxRemediations maxAttempts : Nat}

/-- No step has had more attempts than it was given. -/
def CeilingHolds (maxAttempts : Nat) (world : World) : Prop :=
  ∀ id, world.attempts id ≤ maxAttempts * world.lives id

/-- A step is dispatched only while a whole ceiling of what it was given is left. -/
def DispatchesFresh (maxAttempts : Nat) (world : World) : Label → Prop
  | .other (.schedule (.dispatch id _ _)) =>
      world.attempts id + maxAttempts ≤ maxAttempts * world.lives id
  | _ => True

instance (world : World) (label : Label) : Decidable (DispatchesFresh maxAttempts world label) :=
  match label with
  | .other (.schedule (.dispatch _ _ _)) => inferInstanceAs (Decidable (_ ≤ _))
  | .plan _ _ _ _ | .planParked _ | .retry | .other (.enter _) | .other (.plan _ _ _)
  | .other (.begin' _ _) | .other (.schedule (.block _)) | .other (.schedule (.noCandidate _ _))
  | .other (.schedule (.call _ _ _ _ _)) | .other .finish | .other .reuse | .other .verify
  | .other (.report _ _ _ _ _ _ _) | .other .persist | .other .die => isTrue trivial

/-- What a run keeps: the attempts made and those left to the step in flight are within what
the step was given. -/
def Within (maxAttempts : Nat) (world : World) : Prop :=
  ∀ id, world.attempts id + world.left id ≤ maxAttempts * world.lives id

/-- More lives only help. -/
theorem Within.live {world after : World} (within : Within maxAttempts world)
    (attempts : after.attempts = world.attempts) (left : after.left = world.left)
    (lives : ∀ id, world.lives id ≤ after.lives id) : Within maxAttempts after := by
  intro id
  rw [attempts, left]
  exact (within id).trans (Nat.mul_le_mul_left maxAttempts (lives id))

theorem Within.count {world : World} (within : Within maxAttempts world) {event : Event}
    (fresh : DispatchesFresh maxAttempts world (.other (.schedule event)))
    (admitted : world.admits event = true) (base : Orchestrate.World) (usage : Table) :
    Within maxAttempts ((world.follow base usage).count maxAttempts event) := by
  cases event with
  | block id | noCandidate id at' => exact within
  | dispatch id ranked at' =>
      intro other
      simp only [World.count, World.follow, Function.update_apply]
      split
      next same => exact same ▸ fresh
      next => exact within other
  | call id answer ms tokensUsed at' =>
      have some' : 0 < world.left id := of_decide_eq_true admitted
      simp only [World.count]
      split
      next =>
        intro other
        simp only [World.follow, Function.update_apply]
        by_cases same : other = id
        · subst same
          rw [if_pos rfl, if_pos rfl]
          have here := within other
          omega
        · rw [if_neg same, if_neg same]
          exact within other
      next => exact within

/-- One step. -/
theorem Within.next {world after : World} {label : Label} (within : Within maxAttempts world)
    (fresh : DispatchesFresh maxAttempts world label)
    (stepped : world.next parse maxRemediations maxAttempts label = some after) :
    Within maxAttempts after := by
  cases label with
  | plan sharedContext tasks planner spent =>
      have ⟨base, _, same⟩ := Option.map_eq_some_iff.1 stepped
      subst same
      exact within
  | planParked spent =>
      simp only [World.next] at stepped
      split at stepped
      next =>
        split at stepped
        next =>
          cases stepped
          exact within
        next => contradiction
      next => contradiction
  | retry =>
      cases stepped
      exact within
  | other label =>
      cases label with
      | plan => contradiction
      | enter version =>
          cases version with
          | none =>
              have ⟨base, _, same⟩ := Option.map_eq_some_iff.1 stepped
              subst same
              refine within.live ?_ ?_ ?_
              · rfl
              · rfl
              · intro id
                dsimp only
                split
                next => exact Nat.le_succ _
                next => exact Nat.le_refl _
          | some version =>
              have ⟨base, _, same⟩ := Option.map_eq_some_iff.1 stepped
              subst same
              exact within
      | schedule event =>
          simp only [World.next] at stepped
          split at stepped
          next admitted =>
            have ⟨base, _, same⟩ := Option.map_eq_some_iff.1 stepped
            subst same
            exact within.count fresh admitted base _
          next => contradiction
      | begin' | finish | reuse | verify | report | persist | die =>
          have ⟨base, _, same⟩ := Option.map_eq_some_iff.1 stepped
          subst same
          refine within.live ?_ ?_ ?_
          · rfl
          · rfl
          · intro id
            dsimp only
            split
            next => exact Nat.le_succ _
            next => exact Nat.le_refl _

/-- In every run that dispatches a step only while a whole ceiling is left to it, no step has
more attempts over all pulses than it was given. -/
theorem ceiling_of_reachable {world : World}
    (reachable : (system parse maxRemediations maxAttempts).Reachable
      (DispatchesFresh maxAttempts) world) : CeilingHolds maxAttempts world := by
  suffices within : Within maxAttempts world by
    intro id
    exact (Nat.le_add_right _ _).trans (within id)
  apply reachable.invariant (Within maxAttempts)
  · intro start same
    subst same
    intro id
    exact Nat.zero_le _
  · intro before label after _ within fresh stepped
    exact within.next fresh stepped

/-! ### Runs -/

open Orchestrate (onlyStep together)

/-- The provider of a step is down. -/
def providerDown : StepError where
  code := ofString "UPSTREAM_ERROR"
  class' := ofString "provider_down"
  message := ofString "503"

def parked : Park where
  reason := .provider
  wakeInMs := 300000
  why := ofString "no candidate left; the fault is on the provider side"
  approvalKey := none

/-- One call of the only step, with 7 tokens. -/
def callOnly (answer : Answer) : Label :=
  .other (.schedule (.call onlyStep.id answer 5 (some 7) 2))

/-- A plan of one step, which is dispatched. -/
def planned : List Label := [
  .other (.enter none),
  .plan [] [onlyStep] (.registry (ofString "groq")) { calls := 1 },
  .other (.begin' [] []),
  .other (.schedule (.dispatch onlyStep.id [together] 1))]

/-- Three attempts, then the step is parked. -/
def parkedRun : List Label := planned ++ [
  callOnly (.unusable providerDown true .retrySame),
  callOnly (.unusable providerDown true .retrySame),
  callOnly (.unusable providerDown true (.parked parked)),
  .other .finish, .other .die]

/-- The next pulse takes the parked step up and gives it another attempt. -/
def resumedRun : List Label := parkedRun ++ [
  .other (.enter (some 2)), .other (.begin' [] []),
  .other (.schedule (.dispatch onlyStep.id [together] 3)),
  callOnly (.usable (ofString "Hello."))]

def parseNothing : Utf16 → ParseResult := OutputParser.parseTaskOutput fun _ => none

theorem parkedRun_runs :
    ((system parseNothing 1 3).exec (DispatchesFresh 3) { base := Orchestrate.World.empty }
      parkedRun).any (fun world => decide (world.attempts onlyStep.id = 3)) = true := by
  decide

theorem ceiling_of_parkedRun : ∃ world : World,
    world.attempts onlyStep.id = 3 ∧ CeilingHolds 3 world := by
  have ⟨world, reached, ran⟩ := Reachable.exists_of_exec (.start rfl) parkedRun_runs
  exact ⟨world, of_decide_eq_true ran, ceiling_of_reachable reached⟩

theorem resumedRun_runs :
    ((system parseNothing 1 3).exec always { base := Orchestrate.World.empty } resumedRun).any
      (fun world => decide (world.attempts onlyStep.id = 4) &&
        decide (world.lives onlyStep.id = 1)) = true := by
  decide

theorem not_ceiling_of_resumedRun : ¬ ∀ world,
    (system parseNothing 1 3).Reachable always world → CeilingHolds 3 world := by
  intro all
  have ⟨world, reached, ran⟩ := Reachable.exists_of_exec (.start rfl) resumedRun_runs
  have within := all world reached onlyStep.id
  rw [Bool.and_eq_true, decide_eq_true_eq, decide_eq_true_eq] at ran
  rw [ran.1, ran.2] at within
  omega

end Ceiling

/-! ## The table of usage -/

section Account

/-- `stepUsage` on disk. -/
def World.onDisk (world : World) : Table := world.saved.getLast?.getD fun _ => {}

def InFlight (world : World) (id : StepId) : Prop :=
  ∃ checkpoint scheduler, world.base.process = some ⟨checkpoint, .running scheduler⟩ ∧
    id ∈ scheduler.flights.map Flight.id

/-- The table on disk holds what was really spent on every step that is not in flight. -/
def UsageExact (world : World) : Prop :=
  ∀ id, ¬ InFlight world id → world.onDisk id = world.made id

/-- No step that runs again has attempts on record. -/
def startsAnew (checkpoint : Orchestrate.Checkpoint) : Bool :=
  checkpoint.graph.all fun graph => graph.tasks.all fun step =>
    (checkpoint.subtasks.get step.id).all fun prior => prior.settled || prior.attempts.isEmpty

/-- No step in flight has made an attempt. -/
def isIdle (scheduler : Scheduler) : Bool :=
  scheduler.flights.all fun flight =>
    (scheduler.entries.get flight.id).all fun entry => entry.attempts.isEmpty

/-- The pulse at work leaves no attempt behind that is not recorded. -/
def rests : Orchestrate.Stage → Bool
  | .running scheduler => isIdle scheduler
  | .entered | .executed _ | .verifying _ | .returned => true

/-- The guard of the runs whose usage is exact: planning takes one call that reports no tokens, a
pulse goes on from the last checkpoint, a step that runs again has no attempts on record, every
call is an attempt, and no pulse dies over a step that has made one. -/
def Accountable (world : World) : Label → Prop
  | .plan _ _ _ spent | .planParked spent => spent = { calls := 1 }
  | .other (.enter none) => world.saved = []
  | .other (.enter (some version)) => version + 1 = world.saved.length
  | .other (.begin' _ _) => ∀ process ∈ world.base.process, startsAnew process.checkpoint = true
  | .other (.schedule (.call _ answer _ _ _)) => isAttempt answer = true
  | .other .die => ∀ process ∈ world.base.process, rests process.stage = true
  | _ => True

@[simp] theorem Meter.add_zero (meter : Meter) : meter.add {} = meter := rfl

@[simp] theorem Meter.zero_add (meter : Meter) : Meter.add {} meter = meter := by
  simp [Meter.add]

theorem Meter.add_assoc (first second third : Meter) :
    (first.add second).add third = first.add (second.add third) := by
  simp [Meter.add, Nat.add_assoc]

theorem Meter.add_right_comm (first second third : Meter) :
    (first.add second).add third = (first.add third).add second := by
  simp [Meter.add, Nat.add_right_comm]

@[simp] theorem meterOf_nil : meterOf [] = {} := rfl

theorem meterOf_append (attempts : List Attempt) (attempt : Attempt) :
    meterOf (attempts ++ [attempt]) =
      (meterOf attempts).add { calls := 1, tokens := attempt.tokensUsed.getD 0 } := by
  simp [meterOf, Meter.add]

/-- What the step in flight has spent since it was dispatched. -/
def flightMeter (scheduler : Scheduler) (id : StepId) : Meter :=
  if id ∈ scheduler.flights.map Flight.id then
    meterOf ((scheduler.entries.get id).elim [] Entry.attempts)
  else {}

/-- What an event spends on a step. -/
def spentBy (event : Event) (id : StepId) : Meter :=
  match event with
  | .call called _ _ tokensUsed _ =>
      if id = called then { calls := 1, tokens := tokensUsed.getD 0 } else {}
  | _ => {}

/-- What the hook adds to the table after an event. -/
def notedBy (event : Event) (scheduler : Scheduler) (id : StepId) : Meter :=
  if id = Orchestrate.Event.id event then
    match (scheduler.entries.get id).filter fun entry => Orchestrate.recordedState entry.state with
    | some entry => meterOf entry.attempts
    | none => {}
  else {}

/-- The steps that wait have made no attempt. -/
def Fresh (scheduler : Scheduler) : Prop :=
  ∀ id entry, scheduler.entries.get id = some entry → entry.state = .pending →
    entry.attempts = []

section Event

variable {scheduler after : Scheduler} {event : Event} {flight : Flight} {entry moved : Entry}

theorem answer_attempts {answer : Answer} {ms : Nat} {tokensUsed : Option Nat} {at' : Time}
    {goesOn : Option Flight} (attempted : isAttempt answer = true)
    (answered : flight.answer entry answer ms tokensUsed at' = some (moved, goesOn)) :
    meterOf moved.attempts =
      (meterOf entry.attempts).add { calls := 1, tokens := tokensUsed.getD 0 } := by
  have tried (error : Option StepError) :
      meterOf (entry.attempted flight.current ms tokensUsed error).attempts =
        (meterOf entry.attempts).add { calls := 1, tokens := tokensUsed.getD 0 } :=
    meterOf_append _ _
  cases answer with
  | toolRound | toolApproval => contradiction
  | toolPoison failure =>
      cases answered
      exact tried _
  | usable output =>
      cases answered
      exact tried _
  | unusable failure spoke decision =>
      simp only [Flight.answer] at answered
      split at answered
      next =>
        cases answered
        exact tried _
      next =>
        split at answered
        next => contradiction
        next =>
          cases answered
          exact tried _
      next =>
        cases answered
        exact tried _
      next =>
        cases answered
        exact tried _

theorem not_flying_of_pending (coherent : scheduler.Coherent)
    (found : scheduler.entries.get entry.id = some entry) (pending : entry.state = .pending) :
    entry.id ∉ scheduler.flights.map Flight.id := by
  intro flying
  have ⟨flight, inside, same⟩ := List.mem_map.1 flying
  have running := coherent.running inside same found
  rw [pending] at running
  contradiction

/-- A step that is not touched keeps its meter. -/
theorem flightMeter_other {id : StepId} (get : after.entries.get id = scheduler.entries.get id)
    (flying : id ∈ after.flights.map Flight.id ↔ id ∈ scheduler.flights.map Flight.id) :
    flightMeter after id = flightMeter scheduler id := by
  simp only [flightMeter, get, flying]

/-- An event that touches one step keeps the account if it does so at that step. -/
theorem meters_of_set (fresh : Fresh scheduler)
    (found : scheduler.entries.get entry.id = some entry) (sameStep : moved.step = entry.step)
    (set : after.entries = KeyedList.set Entry.id scheduler.entries moved)
    (flying : ∀ id, id ≠ entry.id →
      (id ∈ after.flights.map Flight.id ↔ id ∈ scheduler.flights.map Flight.id))
    (eventId : Orchestrate.Event.id event = entry.id)
    (movedFresh : moved.state = .pending → moved.attempts = [])
    (here : (flightMeter scheduler entry.id).add (spentBy event entry.id) =
      (flightMeter after entry.id).add (notedBy event after entry.id)) :
    Fresh after ∧ ∀ id, (flightMeter scheduler id).add (spentBy event id) =
      (flightMeter after id).add (notedBy event after id) := by
  have get (id : StepId) : after.entries.get id =
      if id = entry.id then some moved else scheduler.entries.get id := by
    rw [set]
    exact Entries.get_set moved found sameStep id
  constructor
  · intro id other there pending
    rw [get] at there
    split at there
    next =>
      cases there
      exact movedFresh pending
    next => exact fresh id other there pending
  · intro id
    by_cases same : id = entry.id
    · exact same ▸ here
    · have unnoted : notedBy event after id = {} := by
        rw [notedBy, eventId, if_neg same]
      have unspent : spentBy event id = {} := by
        cases event with
        | call called answer ms tokensUsed at' =>
            have called' : called = entry.id := eventId
            rw [spentBy, called', if_neg same]
        | block | noCandidate | dispatch => rfl
      have untouched : after.entries.get id = scheduler.entries.get id := by
        rw [get, if_neg same]
      rw [unnoted, unspent, flightMeter_other untouched (flying id same)]

theorem notedBy_of_get (eventId : Orchestrate.Event.id event = entry.id)
    (found : after.entries.get entry.id = some moved) :
    notedBy event after entry.id =
      if Orchestrate.recordedState moved.state then meterOf moved.attempts else {} := by
  rw [notedBy, eventId, if_pos rfl, found]
  cases noted : Orchestrate.recordedState moved.state with
  | true => simp [Option.filter, noted]
  | false => simp [Option.filter, noted]

/-- A step that waits costs nothing when it comes to an end. -/
theorem meters_of_pending (coherent : scheduler.Coherent) (fresh : Fresh scheduler)
    (found : scheduler.entries.get entry.id = some entry) (pending : entry.state = .pending)
    (sameStep : moved.step = entry.step) (sameAttempts : moved.attempts = entry.attempts)
    (eventId : Orchestrate.Event.id event = entry.id) (unspent : spentBy event entry.id = {}) :
    Fresh (scheduler.setEntry moved) ∧ ∀ id,
      (flightMeter scheduler id).add (spentBy event id) =
        (flightMeter (scheduler.setEntry moved) id).add
          (notedBy event (scheduler.setEntry moved) id) := by
  have none' : moved.attempts = [] := sameAttempts.trans (fresh entry.id entry found pending)
  have grounded := not_flying_of_pending coherent found pending
  have get : (scheduler.setEntry moved).entries.get entry.id = some moved := by
    rw [Scheduler.setEntry, Entries.get_set moved found sameStep, if_pos rfl]
  refine meters_of_set fresh found sameStep ?set ?flying eventId (fun _ => none') ?here
  case set => rfl
  case flying =>
    intro id _
    exact Iff.rfl
  case here =>
    have unflown : flightMeter (scheduler.setEntry moved) entry.id = {} := if_neg grounded
    rw [notedBy_of_get eventId get, unflown, flightMeter, if_neg grounded, unspent, none']
    split <;> rfl

/-- What is spent on a step is on its way in a flight, or noted. -/
theorem meters_of_stepped (coherent : scheduler.Coherent) (fresh : Fresh scheduler)
    (attempts : ∀ id answer ms tokensUsed at', event = .call id answer ms tokensUsed at' →
      isAttempt answer = true) (stepped : scheduler.Stepped event after) :
    Fresh after ∧ ∀ id, (flightMeter scheduler id).add (spentBy event id) =
      (flightMeter after id).add (notedBy event after id) := by
  cases stepped with
  | block entry found blocked =>
      exact meters_of_pending coherent fresh found (isBlocked_pending blocked) rfl rfl rfl rfl
  | noCandidate entry at' found ready =>
      exact meters_of_pending coherent fresh found (isReady_pending ready) rfl rfl rfl rfl
  | dispatch entry ranked at' current others found ready distinct ranks =>
      have pending := isReady_pending ready
      have none' := fresh entry.id entry found pending
      have grounded := not_flying_of_pending coherent found pending
      have get : (scheduler.launch (entry.start current at')
          { id := entry.id, current, others, answered := [] }).entries.get entry.id =
          some (entry.start current at') := by
        rw [Scheduler.launch, Entries.get_set (entry.start current at') found rfl, if_pos rfl]
      have sameStep : (entry.start current at').step = entry.step := rfl
      refine meters_of_set fresh found sameStep ?set ?flying rfl ?movedFresh ?here
      case set => rfl
      case flying =>
        intro id away
        rw [Scheduler.launch, List.map_append, List.mem_append, List.map_singleton,
          List.mem_singleton]
        exact ⟨fun either => either.resolve_right away, .inl⟩
      case movedFresh =>
        intro _
        exact none'
      case here =>
        have started : (entry.start current at').attempts = [] := none'
        rw [notedBy_of_get rfl get, flightMeter, if_neg grounded, flightMeter, get,
          Option.elim_some, started]
        split <;> rfl
  | call flight entry moved goesOn answer ms tokensUsed at' flew same found answered =>
      have attempted := attempts entry.id answer ms tokensUsed at' rfl
      have spent := answer_attempts attempted answered
      obtain ⟨sameStep, ends⟩ := Flight.answer_moved answered
      have set : ((scheduler.called flight.current entry.step).settle moved goesOn).entries =
          KeyedList.set Entry.id scheduler.entries moved := Scheduler.entries_settle _ moved goesOn
      have get : ((scheduler.called flight.current entry.step).settle moved goesOn).entries.get
          entry.id = some moved := by
        rw [set, Entries.get_set moved found sameStep, if_pos rfl]
      have flying : entry.id ∈ scheduler.flights.map Flight.id :=
        same ▸ List.mem_map_of_mem flew
      have running := coherent.running flew same found
      have before : (flightMeter scheduler entry.id).add
          (spentBy (.call entry.id answer ms tokensUsed at') entry.id) =
          meterOf moved.attempts := by
        rw [flightMeter, if_pos flying, found, Option.elim_some, spentBy, if_pos rfl, spent]
      cases ends with
      | inl goes =>
          obtain ⟨later, goesOn', sameFlight, sameState⟩ := goes
          subst goesOn'
          have ids : ((scheduler.called flight.current entry.step).settle moved
              (some later)).flights.map Flight.id = scheduler.flights.map Flight.id :=
            KeyedList.keys_set later
          refine meters_of_set fresh found sameStep set ?flying rfl ?movedFresh ?here
          case flying =>
            intro id _
            rw [ids]
          case movedFresh =>
            intro pending
            rw [sameState, running] at pending
            contradiction
          case here =>
            rw [before, notedBy_of_get rfl get, flightMeter, ids, if_pos flying, get, sameState,
              running]
            rfl
      | inr lands =>
          obtain ⟨goesOn', ended⟩ := lands
          subst goesOn'
          have sameId : moved.id = entry.id := congrArg Step.id sameStep
          have landed (id : StepId) : id ∈ ((scheduler.called flight.current entry.step).settle
              moved none).flights.map Flight.id ↔
                id ≠ entry.id ∧ id ∈ scheduler.flights.map Flight.id := by
            simp only [Scheduler.settle, Scheduler.land, Scheduler.called, List.mem_map,
              List.mem_filter, decide_eq_true_eq, sameId]
            constructor
            · rintro ⟨flight, ⟨inside, away⟩, same⟩
              exact ⟨same ▸ away, flight, inside, same⟩
            · rintro ⟨away, flight, inside, same⟩
              exact ⟨flight, ⟨inside, same ▸ away⟩, same⟩
          have noted : Orchestrate.recordedState moved.state = true := by
            cases ended with
            | inl complete => rw [complete]; rfl
            | inr failed => rw [failed]; rfl
          refine meters_of_set fresh found sameStep set ?flying rfl ?movedFresh ?here
          case flying =>
            intro id away
            rw [landed]
            exact ⟨And.right, fun there => ⟨away, there⟩⟩
          case movedFresh =>
            intro pending
            rw [pending] at noted
            contradiction
          case here =>
            have unflown : flightMeter ((scheduler.called flight.current entry.step).settle moved
                none) entry.id = {} := if_neg fun there => ((landed entry.id).1 there).1 rfl
            rw [before, notedBy_of_get rfl get, noted, if_pos rfl, unflown, Meter.zero_add]

end Event

/-- What is on its way in the flights of the pulse at work. -/
def aloft (base : Orchestrate.World) (id : StepId) : Meter :=
  match base.process with
  | some ⟨_, .running scheduler⟩ => flightMeter scheduler id
  | _ => {}

/-- No scheduler runs. -/
def Landed (base : Orchestrate.World) : Prop :=
  ∀ checkpoint scheduler, base.process ≠ some ⟨checkpoint, .running scheduler⟩

theorem Landed.aloft {base : Orchestrate.World} (landed : Landed base) (id : StepId) :
    aloft base id = {} := by
  rw [Metered.aloft]
  split
  next checkpoint scheduler running => exact (landed checkpoint scheduler running).elim
  next => rfl

theorem landed_of_stage {base : Orchestrate.World} {checkpoint : Orchestrate.Checkpoint}
    {stage : Orchestrate.Stage} (working : base.process = some ⟨checkpoint, stage⟩)
    (resting : ∀ scheduler, stage ≠ .running scheduler) : Landed base := by
  intro other scheduler running
  rw [working] at running
  cases running
  exact resting scheduler rfl

/-- What a run keeps: what was spent is on disk or on its way, the pulse at work has the table
that is on disk, and its scheduler starts no step that has attempts on record. -/
structure Balanced (world : World) : Prop where
  spent : ∀ id, world.made id = (world.onDisk id).add (aloft world.base id)
  current : world.base.process.isSome = true → world.usage = world.onDisk
  running : ∀ checkpoint scheduler, world.base.process = some ⟨checkpoint, .running scheduler⟩ →
    scheduler.Coherent ∧ Fresh scheduler

theorem Balanced.usageExact {world : World} (balanced : Balanced world) : UsageExact world := by
  intro id grounded
  have unflown : aloft world.base id = {} := by
    rw [aloft]
    split
    next checkpoint scheduler running =>
      exact if_neg fun flying => grounded ⟨checkpoint, scheduler, running, flying⟩
    next => rfl
  rw [balanced.spent, unflown, Meter.add_zero]

/-- The table on disk is the one of the pulse if it was there already, or was just written. -/
theorem onDisk_follow {world : World} {base : Orchestrate.World} {usage : Table}
    (current : usage = world.onDisk ∨ world.base.versions.length < base.versions.length) :
    (world.follow base usage).onDisk = usage := by
  simp only [World.follow, World.onDisk]
  cases grown : base.versions.length - world.base.versions.length with
  | zero =>
      cases current with
      | inl same => rw [List.replicate_zero, List.append_nil, same, World.onDisk]
      | inr written => omega
  | succ count => rw [List.getLast?_append, List.getLast?_replicate]; rfl

@[simp] theorem bump_apply (table : Table) (id : StepId) (spent : Meter) (other : StepId) :
    table.bump id spent other = (table other).add (if other = id then spent else {}) := by
  rw [Table.bump, Function.update_apply]
  split
  next same => rw [same]
  next => rfl

section World

open Orchestrate (Checkpoint Process Stage Run)

variable {base : Orchestrate.World} {checkpoint : Checkpoint} {world : World}

theorem landed_finished (base : Orchestrate.World) (checkpoint : Checkpoint)
    (scheduler : Scheduler) : Landed (base.finished checkpoint scheduler) := by
  simp only [Orchestrate.World.finished]
  split
  next => exact landed_of_stage rfl (fun _ => by rintro ⟨⟩)
  next =>
    split
    next => exact landed_of_stage rfl (fun _ => by rintro ⟨⟩)
    next =>
      apply landed_of_stage rfl
      intro other
      split <;> rintro ⟨⟩

theorem landed_concluded {parse : Utf16 → ParseResult} {maxRemediations : Nat}
    (base : Orchestrate.World) (checkpoint : Checkpoint) (run : Orchestrate.Run) (verdict : Verify.Verdict)
    (issues : List Verify.Issue) (drain : Bool) :
    Landed (base.concluded parse maxRemediations checkpoint run verdict issues drain) := by
  cases verdict with
  | pass => exact landed_of_stage rfl (fun _ => by rintro ⟨⟩)
  | fail =>
      simp only [Orchestrate.World.concluded]
      split
      next => exact landed_of_stage rfl (fun _ => by rintro ⟨⟩)
      next => exact landed_of_stage rfl (fun _ => by rintro ⟨⟩)

/-- A step that spends nothing keeps the account. -/
theorem Balanced.follow (balanced : Balanced world) (working : world.base.process.isSome = true)
    (sameAloft : ∀ id, aloft base id = aloft world.base id)
    (running : ∀ checkpoint scheduler, base.process = some ⟨checkpoint, .running scheduler⟩ →
      scheduler.Coherent ∧ Fresh scheduler) (lives : StepId → Nat) :
    Balanced { world.follow base world.usage with lives } := by
  have disk : (world.follow base world.usage).onDisk = world.onDisk := by
    rw [onDisk_follow (.inl (balanced.current working))]
    exact balanced.current working
  constructor
  case spent =>
    intro id
    have before := balanced.spent id
    rw [← sameAloft, ← disk] at before
    exact before
  case current =>
    intro _
    exact (balanced.current working).trans disk.symm
  case running => exact running

/-- So does one after which no scheduler runs, if nothing is on its way before. -/
theorem Balanced.landed (balanced : Balanced world) (working : world.base.process.isSome = true)
    (unspent : ∀ id, aloft world.base id = {}) (landed : Landed base) (lives : StepId → Nat) :
    Balanced { world.follow base world.usage with lives } := by
  apply balanced.follow working
  · intro id
    rw [landed.aloft, unspent]
  · intro checkpoint scheduler running
    exact (landed checkpoint scheduler running).elim

/-- What a planning call costs is noted at once. -/
theorem Balanced.planned (balanced : Balanced world)
    (working : world.base.process = some ⟨checkpoint, .entered⟩) (next : Checkpoint)
    {stage : Stage} (resting : ∀ scheduler, stage ≠ .running scheduler) :
    Balanced { world.follow (world.base.write next stage) (world.usage.bump planKey { calls := 1 })
      with made := world.made.bump planKey { calls := 1 } } := by
  have before : Landed world.base := landed_of_stage working (fun _ => nofun)
  have after : Landed (world.base.write next stage) := landed_of_stage rfl resting
  have current := balanced.current (by rw [working]; rfl)
  have written : world.base.versions.length < (world.base.write next stage).versions.length := by
    simp [Orchestrate.World.write]
  have disk : (world.follow (world.base.write next stage)
      (world.usage.bump planKey { calls := 1 })).onDisk =
        world.usage.bump planKey { calls := 1 } := onDisk_follow (.inr written)
  constructor
  case spent =>
    intro id
    have spent := balanced.spent id
    rw [before.aloft, Meter.add_zero] at spent
    calc world.made.bump planKey { calls := 1 } id
        = world.usage.bump planKey { calls := 1 } id := by
          rw [bump_apply, bump_apply, spent, current]
      _ = (world.usage.bump planKey { calls := 1 } id).add
            (aloft (world.base.write next stage) id) := by rw [after.aloft, Meter.add_zero]
      _ = _ := congrArg (Meter.add · _) (congrFun disk id).symm
  case current => exact fun _ => disk.symm
  case running =>
    intro other scheduler running
    exact (after other scheduler running).elim

/-- The hook adds what it notes. -/
theorem usageAfter_scheduled (usage : Table) (base : Orchestrate.World) (checkpoint : Checkpoint)
    (event : Event) (scheduler : Scheduler) (id : StepId) :
    usageAfter usage (Orchestrate.Event.id event)
      (base.scheduled checkpoint (Orchestrate.Event.id event) scheduler) id =
      (usage id).add (notedBy event scheduler id) := by
  have working : (base.scheduled checkpoint (Orchestrate.Event.id event) scheduler).process =
      some ⟨checkpoint.note (Orchestrate.Event.id event) scheduler.entries, .running scheduler⟩ := by
    simp only [Orchestrate.World.scheduled]
    split <;> rfl
  simp only [usageAfter, working, notedBy]
  cases noted : Option.filter (fun entry : Entry => Orchestrate.recordedState entry.state)
      (scheduler.entries.get (Orchestrate.Event.id event)) with
  | some entry =>
      dsimp only
      rw [bump_apply]
      by_cases same : id = Orchestrate.Event.id event
      · rw [if_pos same, if_pos same, same, noted]
      · rw [if_neg same, if_neg same]
  | none =>
      by_cases same : id = Orchestrate.Event.id event
      · rw [if_pos same, same, noted, Meter.add_zero]
      · rw [if_neg same, Meter.add_zero]

/-- The table changes only with a version that is written. -/
theorem written_of_noted {event : Event} {scheduler : Scheduler} {id : StepId}
    (noted : notedBy event scheduler id ≠ {}) :
    world.base.versions.length <
      (world.base.scheduled checkpoint (Orchestrate.Event.id event) scheduler).versions.length := by
  have recorded : ((scheduler.entries.get (Orchestrate.Event.id event)).any fun entry =>
      Orchestrate.recordedState entry.state) = true := by
    rw [notedBy] at noted
    split at noted
    next same =>
      rw [same] at noted
      cases found : scheduler.entries.get (Orchestrate.Event.id event) with
      | none => simp [found] at noted
      | some entry =>
          cases settled : Orchestrate.recordedState entry.state with
          | true => exact settled
          | false => simp [found, Option.filter, settled] at noted
    next => contradiction
  rw [Orchestrate.World.scheduled, if_pos recorded]
  simp [Orchestrate.World.write]

/-- The count touches neither what was there before nor what is stored. -/
theorem count_frame (world : World) (maxAttempts : Nat) (event : Event) :
    (world.count maxAttempts event).base = world.base ∧
      (world.count maxAttempts event).usage = world.usage ∧
      (world.count maxAttempts event).onDisk = world.onDisk := by
  cases event with
  | block | noCandidate | dispatch => exact ⟨rfl, rfl, rfl⟩
  | call id answer ms tokensUsed at' =>
      simp only [World.count]
      split <;> exact ⟨rfl, rfl, rfl⟩

@[simp] theorem count_base (world : World) (maxAttempts : Nat) (event : Event) :
    (world.count maxAttempts event).base = world.base := (count_frame world maxAttempts event).1

@[simp] theorem count_usage (world : World) (maxAttempts : Nat) (event : Event) :
    (world.count maxAttempts event).usage = world.usage :=
  (count_frame world maxAttempts event).2.1

@[simp] theorem count_onDisk (world : World) (maxAttempts : Nat) (event : Event) :
    (world.count maxAttempts event).onDisk = world.onDisk :=
  (count_frame world maxAttempts event).2.2

theorem count_made (world : World) (maxAttempts : Nat) (event : Event) (id : StepId) :
    (world.count maxAttempts event).made id = (world.made id).add (spentBy event id) := by
  cases event with
  | block | noCandidate | dispatch => rfl
  | call called answer ms tokensUsed at' =>
      have bumped := bump_apply world.made called { calls := 1, tokens := tokensUsed.getD 0 } id
      simp only [World.count, spentBy]
      split <;> exact bumped

theorem Balanced.schedule {maxAttempts : Nat} {event : Event} {scheduler after : Scheduler}
    (balanced : Balanced world) (fits : Accountable world (.other (.schedule event)))
    (working : world.base.process = some ⟨checkpoint, .running scheduler⟩)
    (moved : scheduler.next event = some after)
    (to' : base = world.base.scheduled checkpoint (Orchestrate.Event.id event) after) :
    Balanced ((world.follow base (usageAfter world.usage (Orchestrate.Event.id event) base)).count
      maxAttempts event) := by
  obtain ⟨coherent, fresh⟩ := balanced.running checkpoint scheduler working
  have stepped := Scheduler.stepped_of_next moved
  have attempts : ∀ id answer ms tokensUsed at', event = .call id answer ms tokensUsed at' →
      isAttempt answer = true := by
    intro id answer ms tokensUsed at' same
    subst same
    exact fits
  obtain ⟨freshAfter, meters⟩ := meters_of_stepped coherent fresh attempts stepped
  have current := balanced.current (by rw [working]; rfl)
  have working' : base.process =
      some ⟨checkpoint.note (Orchestrate.Event.id event) after.entries, .running after⟩ := by
    rw [to', Orchestrate.World.scheduled]
    split <;> rfl
  have usage (id : StepId) :
      usageAfter world.usage (Orchestrate.Event.id event) base id =
        (world.usage id).add (notedBy event after id) := by
    rw [to']
    exact usageAfter_scheduled world.usage world.base checkpoint event after id
  have disk : (world.follow base
      (usageAfter world.usage (Orchestrate.Event.id event) base)).onDisk =
        usageAfter world.usage (Orchestrate.Event.id event) base := by
    apply onDisk_follow
    by_cases quiet : ∀ id, notedBy event after id = {}
    · left
      funext id
      rw [usage, quiet, Meter.add_zero, current]
    · right
      obtain ⟨id, noted⟩ := not_forall.1 quiet
      rw [to']
      exact written_of_noted noted
  constructor
  case spent =>
    intro id
    have flown : aloft base id = flightMeter after id := by rw [aloft, working']
    have before : aloft world.base id = flightMeter scheduler id := by rw [aloft, working]
    calc ((world.follow base _).count maxAttempts event).made id
        = (world.made id).add (spentBy event id) := count_made _ maxAttempts event id
      _ = ((world.onDisk id).add (flightMeter scheduler id)).add (spentBy event id) := by
          rw [balanced.spent, before]
      _ = (world.onDisk id).add ((flightMeter after id).add (notedBy event after id)) := by
          rw [Meter.add_assoc, meters]
      _ = ((world.usage id).add (notedBy event after id)).add (flightMeter after id) := by
          rw [current, ← Meter.add_assoc, Meter.add_right_comm]
      _ = _ := by rw [count_onDisk, disk, usage, count_base, World.follow, flown]
  case current =>
    intro _
    rw [count_onDisk, disk, count_usage]
    rfl
  case running =>
    intro other scheduler' running
    rw [count_base] at running
    have same := working'.symm.trans running
    cases same
    exact ⟨coherent.next stepped, freshAfter⟩

/-- A pulse takes the task up with the table that is on disk. -/
theorem Balanced.enter (balanced : Balanced world) (idle : world.base.process = none)
    (checkpoint : Checkpoint) {usage : Table} (current : usage = world.onDisk)
    (lives : StepId → Nat) (retried : Bool) :
    Balanced { world with base := world.base.at' checkpoint .entered, usage, lives, retried } := by
  have before : Landed world.base := by
    intro other scheduler running
    rw [idle] at running
    contradiction
  have after : Landed (world.base.at' checkpoint .entered) := landed_of_stage rfl (fun _ => nofun)
  constructor
  case spent =>
    intro id
    have spent := balanced.spent id
    rw [before.aloft, ← after.aloft id] at spent
    exact spent
  case current =>
    intro _
    exact current
  case running =>
    intro other scheduler running
    exact (after other scheduler running).elim

/-- What runs again has no attempts. -/
theorem fresh_start {graph : Graph} {candidateModels : List Candidate}
    (planned : checkpoint.graph = some graph) (anew : startsAnew checkpoint = true) :
    Fresh (.start graph candidateModels checkpoint.subtasks) := by
  intro id entry found pending
  rw [Scheduler.start, get_restoreEntries] at found
  obtain ⟨step, there, same⟩ := Option.map_eq_some_iff.1 found
  subst same
  rw [startsAnew, planned, Option.all_some, List.all_eq_true] at anew
  have known := anew step (KeyedList.mem_of_get there)
  simp only [restoreEntry] at pending ⊢
  split
  next => rfl
  next prior held =>
    rw [held] at pending
    rw [held, Option.all_some, Bool.or_eq_true] at known
    dsimp only at pending
    split at pending
    next settled =>
      have waits : prior.state = .pending := pending
      simp [Snapshot.settled, waits] at settled
    next unsettled =>
      rw [if_neg unsettled]
      exact List.isEmpty_iff.1 (known.resolve_left unsettled)

/-- The flights that have made no attempt carry nothing. -/
theorem flightMeter_of_isIdle {scheduler : Scheduler} (idle : isIdle scheduler = true)
    (id : StepId) : flightMeter scheduler id = {} := by
  rw [flightMeter]
  split
  next flying =>
    have ⟨flight, inside, same⟩ := List.mem_map.1 flying
    have none' := List.all_eq_true.1 idle flight inside
    rw [same] at none'
    cases found : scheduler.entries.get id with
    | none => rfl
    | some entry =>
        rw [found, Option.all_some, List.isEmpty_iff] at none'
        rw [Option.elim_some, none', meterOf_nil]
  next => rfl

theorem flightMeter_of_quiet {scheduler : Scheduler} (quiet : scheduler.quiet = true)
    (id : StepId) : flightMeter scheduler id = {} := by
  apply flightMeter_of_isIdle
  rw [isIdle, List.isEmpty_iff.1 quiet]
  rfl

/-- One step. -/
theorem Balanced.next {parse : Utf16 → ParseResult} {maxRemediations maxAttempts : Nat}
    {after : World} {label : Label} (balanced : Balanced world) (fits : Accountable world label)
    (stepped : world.next parse maxRemediations maxAttempts label = some after) :
    Balanced after := by
  cases label with
  | plan sharedContext tasks planner spent =>
      have ⟨base, went, same⟩ := Option.map_eq_some_iff.1 stepped
      subst same
      have spent' : spent = { calls := 1 } := fits
      subst spent'
      cases Orchestrate.World.stepped_of_next _ _ went with
      | plan checkpoint _ _ _ working unplanned =>
          exact balanced.planned working _ (fun _ => nofun)
  | planParked spent =>
      have spent' : spent = { calls := 1 } := fits
      subst spent'
      simp only [World.next] at stepped
      split at stepped
      next checkpoint working =>
        split at stepped
        next =>
          cases stepped
          exact balanced.planned working checkpoint (fun _ => nofun)
        next => contradiction
      next => contradiction
  | retry =>
      cases stepped
      exact ⟨balanced.spent, balanced.current, balanced.running⟩
  | other label =>
      cases label with
      | plan => contradiction
      | enter version =>
          cases version with
          | none =>
              have ⟨base, went, same⟩ := Option.map_eq_some_iff.1 stepped
              subst same
              cases Orchestrate.World.stepped_of_next _ _ went with
              | enterNew idle =>
                  have unsaved : world.saved = [] := fits
                  apply balanced.enter idle
                  rw [World.onDisk, unsaved]
                  rfl
          | some version =>
              have ⟨base, went, same⟩ := Option.map_eq_some_iff.1 stepped
              subst same
              cases Orchestrate.World.stepped_of_next _ _ went with
              | enter _ checkpoint idle found =>
                  have last : version + 1 = world.saved.length := fits
                  apply balanced.enter idle
                  rw [World.onDisk, List.getLast?_eq_getElem?, ← last, Nat.add_sub_cancel]
      | schedule event =>
          simp only [World.next] at stepped
          split at stepped
          next =>
            have ⟨base, went, same⟩ := Option.map_eq_some_iff.1 stepped
            subst same
            cases Orchestrate.World.stepped_of_next _ _ went with
            | schedule checkpoint scheduler later _ working moved =>
                exact balanced.schedule fits working moved rfl
          next => contradiction
      | begin' freebuff opencode =>
          have ⟨base, went, same⟩ := Option.map_eq_some_iff.1 stepped
          subst same
          cases Orchestrate.World.stepped_of_next _ _ went with
          | begin' checkpoint graph _ _ working planned =>
              have before : Landed world.base := landed_of_stage working (fun _ => nofun)
              apply balanced.follow (by rw [working]; rfl)
              · intro id
                rw [before.aloft]
                exact flightMeter_of_quiet rfl id
              · intro other scheduler running
                cases running
                exact ⟨nofun, fresh_start planned (fits _ working)⟩
      | finish =>
          have ⟨base, went, same⟩ := Option.map_eq_some_iff.1 stepped
          subst same
          cases Orchestrate.World.stepped_of_next _ _ went with
          | finish checkpoint scheduler working quiet =>
              apply balanced.landed (by rw [working]; rfl)
              · intro id
                rw [aloft, working]
                exact flightMeter_of_quiet quiet id
              · exact landed_finished world.base checkpoint scheduler
      | reuse =>
          have ⟨base, went, same⟩ := Option.map_eq_some_iff.1 stepped
          subst same
          cases Orchestrate.World.stepped_of_next _ _ went with
          | reuse checkpoint entries graph verification working planned judged already =>
              have before : Landed world.base := landed_of_stage working (fun _ => nofun)
              exact balanced.landed (by rw [working]; rfl) before.aloft
                (landed_concluded _ _ _ _ _ _) _
      | verify =>
          have ⟨base, went, same⟩ := Option.map_eq_some_iff.1 stepped
          subst same
          cases Orchestrate.World.stepped_of_next _ _ went with
          | verify checkpoint entries working open' =>
              have before : Landed world.base := landed_of_stage working (fun _ => nofun)
              have after : Landed (world.base.write (checkpoint.enterPhase .verifying)
                  (.verifying entries)) := landed_of_stage rfl (fun _ => nofun)
              exact balanced.landed (by rw [working]; rfl) before.aloft after _
      | report enabled hasChat strict checks reply drain at' =>
          have ⟨base, went, same⟩ := Option.map_eq_some_iff.1 stepped
          subst same
          cases Orchestrate.World.stepped_of_next _ _ went with
          | report checkpoint entries graph _ _ _ _ _ _ _ verified working planned verified' =>
              have before : Landed world.base := landed_of_stage working (fun _ => nofun)
              exact balanced.landed (by rw [working]; rfl) before.aloft
                (landed_concluded _ _ _ _ _ _) _
      | persist =>
          have ⟨base, went, same⟩ := Option.map_eq_some_iff.1 stepped
          subst same
          cases Orchestrate.World.stepped_of_next _ _ went with
          | persist checkpoint stage working =>
              apply balanced.follow (by rw [working]; rfl)
              · intro id
                rw [aloft, aloft, working]
                rfl
              · intro other scheduler running
                exact balanced.running other scheduler (working.trans running)
      | die =>
          have ⟨base, went, same⟩ := Option.map_eq_some_iff.1 stepped
          subst same
          cases Orchestrate.World.stepped_of_next _ _ went with
          | die process working =>
              have idle : ∀ id, aloft world.base id = {} := by
                intro id
                rw [aloft]
                split
                next checkpoint scheduler running => exact flightMeter_of_isIdle (fits _ running) id
                next => rfl
              have landed : Landed { world.base with process := none } := by
                intro checkpoint scheduler running
                contradiction
              exact balanced.landed (by rw [working]; rfl) idle landed _

/-- In every run that stays accountable, the table on disk holds what was really spent. -/
theorem usageExact_of_reachable {parse : Utf16 → ParseResult} {maxRemediations maxAttempts : Nat}
    (reachable : (system parse maxRemediations maxAttempts).Reachable Accountable world) :
    UsageExact world := by
  suffices balanced : Balanced world from balanced.usageExact
  apply reachable.invariant Balanced
  · intro start same
    subst same
    constructor
    case spent =>
      intro id
      rfl
    case current =>
      intro working
      contradiction
    case running =>
      intro checkpoint scheduler running
      contradiction
  · intro before label after _ balanced fits stepped
    exact balanced.next fits stepped

end World

/-! ### Runs -/

open Orchestrate (onlyStep together)

instance (world : World) (label : Label) : Decidable (Accountable world label) :=
  match label with
  | .plan _ _ _ _ | .planParked _ => inferInstanceAs (Decidable (_ = _))
  | .other (.enter none) => inferInstanceAs (Decidable (_ = _))
  | .other (.enter (some _)) => inferInstanceAs (Decidable (_ = _))
  | .other (.schedule (.call _ _ _ _ _)) => inferInstanceAs (Decidable (_ = _))
  | .other (.begin' _ _) => inferInstanceAs (Decidable (∀ process ∈ world.base.process,
      startsAnew process.checkpoint = true))
  | .other .die => inferInstanceAs (Decidable (∀ process ∈ world.base.process,
      rests process.stage = true))
  | .retry | .other (.plan _ _ _) | .other (.schedule (.block _))
  | .other (.schedule (.noCandidate _ _)) | .other (.schedule (.dispatch _ _ _)) | .other .finish
  | .other .reuse | .other .verify | .other (.report _ _ _ _ _ _ _) | .other .persist =>
      isTrue trivial

/-- Two attempts, the second with an answer. -/
def answeredRun : List Label := planned ++ [
  callOnly (.unusable providerDown true .retrySame),
  callOnly (.usable (ofString "Hello.")),
  .other .finish, .other .die]

theorem answeredRun_runs :
    ((system parseNothing 1 3).exec Accountable { base := Orchestrate.World.empty }
      answeredRun).any (fun world =>
        decide (world.made onlyStep.id = { calls := 2, tokens := 14 })) = true := by
  decide

theorem usageExact_of_answeredRun : ∃ world : World,
    world.made onlyStep.id = { calls := 2, tokens := 14 } ∧ UsageExact world := by
  have ⟨world, reached, ran⟩ := Reachable.exists_of_exec (.start rfl) answeredRun_runs
  exact ⟨world, of_decide_eq_true ran, usageExact_of_reachable reached⟩

theorem resumedRun_usage :
    ((system parseNothing 1 3).exec always { base := Orchestrate.World.empty }
      (resumedRun ++ [.other .die])).any (fun world =>
        decide (world.base.process = none) &&
        decide (world.made onlyStep.id = { calls := 4, tokens := 28 }) &&
        decide (world.onDisk onlyStep.id = { calls := 7, tokens := 49 })) = true := by
  decide

theorem not_usageExact_of_resumedRun : ¬ ∀ world,
    (system parseNothing 1 3).Reachable always world → UsageExact world := by
  intro all
  have ⟨world, reached, ran⟩ := Reachable.exists_of_exec (.start rfl) resumedRun_usage
  rw [Bool.and_eq_true, Bool.and_eq_true, decide_eq_true_eq, decide_eq_true_eq,
    decide_eq_true_eq] at ran
  have ⟨⟨idle, made⟩, recorded⟩ := ran
  have grounded : ¬ InFlight world onlyStep.id := by
    intro ⟨checkpoint, scheduler, running, _⟩
    rw [idle] at running
    contradiction
  have same := all world reached onlyStep.id grounded
  rw [made, recorded] at same
  contradiction

end Account

end Metered

end TitanRunner
