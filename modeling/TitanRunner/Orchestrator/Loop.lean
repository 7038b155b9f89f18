import TitanRunner.Lib.Transition
import TitanRunner.Orchestrator.Decompose
import TitanRunner.Orchestrator.Scheduler

/-!
# The scheduler's loop

`Scheduler.run` and `#loop` of `orchestrator/scheduler.js`: a round blocks what stands on a
failed step and dispatches what is ready, then the loop waits for a step in flight to
settle.  How the models rank, what a step in flight comes to, and when the hooks speak are
labels; the calls a step in flight makes on its way are those of `Scheduler.next`.
-/

namespace TitanRunner

namespace Orchestrator

open Utf16 TransitionSystem

/-- One step of a pass of `#propagateBlocked`. -/
def Scheduler.blockEntry (scheduler : Scheduler) (entry : Entry) : Scheduler :=
  if isBlocked scheduler.entries entry then scheduler.setEntry entry.block else scheduler

/-- A pass over the live entries. -/
def Scheduler.blockPass (scheduler : Scheduler) : Scheduler :=
  scheduler.entries.foldl Scheduler.blockEntry scheduler

/-- Passes until one changes nothing. -/
def Scheduler.blockPasses : Nat → Scheduler → Scheduler
  | 0, scheduler => scheduler
  | fuel + 1, scheduler =>
      if scheduler.entries.any (isBlocked scheduler.entries) then
        scheduler.blockPass.blockPasses fuel
      else scheduler

/-- `#propagateBlocked`.  Every pass but the last blocks a step. -/
def Scheduler.propagateBlocked (scheduler : Scheduler) : Scheduler :=
  scheduler.blockPasses scheduler.entries.length

/-- `#readyTasks`. -/
def Scheduler.readyTasks (scheduler : Scheduler) : List Entry :=
  scheduler.entries.filter (isReady scheduler.entries)

section Dispatch

variable (ranked : Step → List Candidate)

/-- A step that some model can be given. -/
def hasCandidate (entry : Entry) : Bool := !(distinctModels (ranked entry.step)).isEmpty

/-- One step of the loop of `#dispatchReady`. -/
def Scheduler.dispatchEntry (at' : Time) (scheduler : Scheduler) (entry : Entry) : Scheduler :=
  match distinctModels (ranked entry.step) with
  | [] => scheduler.setEntry (entry.fail noCandidateError at')
  | current :: others =>
      scheduler.launch (entry.start current at')
        { id := entry.id, current, others, answered := [] }

/-- `#dispatchReady`, with the number of steps it dispatched. -/
def Scheduler.dispatchReady (at' : Time) (scheduler : Scheduler) : Scheduler × Nat :=
  (scheduler.readyTasks.foldl (Scheduler.dispatchEntry ranked at') scheduler,
    scheduler.readyTasks.countP (hasCandidate ranked))

end Dispatch

/-- What `#runWithRetry` comes to: the attempts it recorded, and the output or the error it
resolves with. -/
structure Outcome where
  attempts : List Attempt
  result : Except StepError Utf16
  /-- Ghost, as in `Entry`. -/
  producers : List Candidate

def cancelledError : StepError :=
  { code := ofString "CANCELLED", class' := [], message := ofString "Run was cancelled" }

/-- The handler of `#dispatch` for a step that settled. -/
def Entry.settle (entry : Entry) (outcome : Outcome) (cancelled : Bool) (at' : Time) : Entry :=
  let tried := { entry with attempts := entry.attempts ++ outcome.attempts }
  if cancelled then
    let error := match outcome.result with
      | .ok _ => cancelledError
      | .error error => error
    { tried with state := .cancelled, error := some error, completedAt := some at' }
  else
    match outcome.result with
    | .ok output =>
        { tried with
          state := .complete, output := some output, error := none, completedAt := some at'
          producers := outcome.producers }
    | .error error => tried.fail error at'

/-- The entry of a step when the run is cancelled. -/
def Entry.cancel (entry : Entry) : Entry :=
  if entry.state = .pending ∨ entry.state = .queued then { entry with state := .cancelled }
  else entry

/-- `cancel()`: what has not started is cancelled; what is in flight is told to stop. -/
def Scheduler.cancel (scheduler : Scheduler) : Scheduler :=
  { scheduler with entries := scheduler.entries.map Entry.cancel }

/-- Where `#loop` stands: before a round, waiting for a step in flight, or left. -/
inductive Phase where
  | ready | waiting | finished
  deriving DecidableEq, Repr

/-- `RUN_STATES`, as far as a run ends in them. -/
inductive RunState where
  | complete | failed | cancelled | drained
  deriving DecidableEq, Repr

structure Run where
  scheduler : Scheduler
  cancelled : Bool := false
  phase : Phase := .ready

inductive Label where
  /-- The loop goes round; `drain` is what the drain hook says. -/
  | round (drain : Bool) (ranked : Step → List Candidate) (at' : Time)
  /-- A step in flight settles. -/
  | settle (id : StepId) (outcome : Outcome) (at' : Time)
  /-- `cancel()`. -/
  | cancel

/-- The loop after a round: left when nothing was dispatched and nothing is in flight. -/
def phaseAfter (dispatched : Nat) (scheduler : Scheduler) : Phase :=
  if dispatched = 0 ∧ scheduler.flights = [] then .finished else .waiting

/-- A round. -/
def Run.round (run : Run) (drain : Bool) (ranked : Step → List Candidate) (at' : Time) : Run :=
  if run.cancelled then { run with phase := .finished }
  else
    let scheduler := run.scheduler.propagateBlocked
    if drain then { run with scheduler, phase := phaseAfter 0 scheduler }
    else
      let (scheduler, dispatched) := scheduler.dispatchReady ranked at'
      { run with scheduler, phase := phaseAfter dispatched scheduler }

def Run.next (run : Run) : Label → Option Run
  | .round drain ranked at' =>
      if run.phase = .ready ∧
          ∀ entry ∈ run.scheduler.entries, ranked entry.step ⊆ run.scheduler.candidateModels then
        some (run.round drain ranked at')
      else none
  | .settle id outcome at' =>
      (KeyedList.get Flight.id run.scheduler.flights id).bind fun _ =>
        (run.scheduler.entries.get id).map fun entry =>
          { run with
            scheduler := run.scheduler.land (entry.settle outcome run.cancelled at')
            phase := if run.phase = .waiting then .ready else run.phase }
  | .cancel =>
      if run.cancelled then none
      else some { run with cancelled := true, scheduler := run.scheduler.cancel }

/-- `finalState`. -/
def Run.finalState (run : Run) : RunState :=
  if run.cancelled then .cancelled
  else if run.scheduler.drained then .drained
  else if run.scheduler.entries.any fun entry => entry.state = .failed then .failed
  else .complete

/-- The runs of a graph, with what an earlier pulse finished. -/
def loop (graph : Graph) (candidateModels : List Candidate) (resume : Subtasks) :
    System Run Label where
  start run := run = { scheduler := Scheduler.start graph candidateModels resume }
  next := Run.next

/-! ## What a round and a settled step leave alone -/

/-- A state that a step does not leave within a run. -/
def StepState.settled : StepState → Bool
  | .complete | .failed | .blocked | .cancelled | .malformedOutput => true
  | .pending | .queued | .running => false

/-- What one scheduler keeps of another: the steps, and the states of those that are
settled. -/
structure Scheduler.Follows (before after : Scheduler) : Prop where
  steps : ∀ id, (after.entries.get id).map Entry.step = (before.entries.get id).map Entry.step
  settled : ∀ id state, before.entries.stateOf id = some state → state.settled = true →
    after.entries.stateOf id = some state
  candidateModels : after.candidateModels = before.candidateModels

namespace Scheduler.Follows

variable {first middle last scheduler after : Scheduler} {entry moved : Entry}

theorem refl (scheduler : Scheduler) : scheduler.Follows scheduler :=
  ⟨fun _ => rfl, fun _ _ found _ => found, rfl⟩

theorem trans (left : first.Follows middle) (right : middle.Follows last) :
    first.Follows last where
  steps id := (right.steps id).trans (left.steps id)
  settled id state found settled := right.settled id state (left.settled id state found settled) settled
  candidateModels := right.candidateModels.trans left.candidateModels

theorem of_moves (moves : scheduler.Moves after entry moved) : scheduler.Follows after where
  steps := moves.steps
  settled id state found settled := by
    apply moves.stateOf_of_settled id state found
    · intro pending
      rw [pending] at settled
      contradiction
    · intro running
      rw [running] at settled
      contradiction
  candidateModels := moves.candidateModels

end Scheduler.Follows

@[simp] theorem Entry.block_state (entry : Entry) : entry.block.state = .blocked := rfl

@[simp] theorem Entry.fail_state (entry : Entry) (error : StepError) (at' : Time) :
    (entry.fail error at').state = .failed := rfl

@[simp] theorem Entry.start_state (entry : Entry) (current : Candidate) (at' : Time) :
    (entry.start current at').state = .running := rfl

/-- A step and one of its dependencies. -/
def Entries.DependsOn (entries : Entries) (id dependency : StepId) : Prop :=
  ∃ entry, entries.get id = some entry ∧ dependency ∈ entry.step.dependsOn

/-- A step that failed or was cancelled. -/
def Entries.Lost (entries : Entries) (id : StepId) : Prop :=
  entries.stateOf id = some .failed ∨ entries.stateOf id = some .cancelled

/-- The invariant of a run: the steps in flight are those that run, each once and with
complete dependencies, and what is blocked stands on a step that is lost. -/
structure Scheduler.Safe (scheduler : Scheduler) : Prop where
  keyed : (scheduler.entries.map Entry.id).Nodup
  single : (scheduler.flights.map Flight.id).Nodup
  manned : ∀ id, scheduler.entries.stateOf id = some .running ↔
    id ∈ scheduler.flights.map Flight.id
  supplied : ∀ id dependency, scheduler.entries.stateOf id = some .running →
    scheduler.entries.DependsOn id dependency →
    scheduler.entries.stateOf dependency = some .complete
  grounded : ∀ id, scheduler.entries.stateOf id = some .blocked →
    ∃ ancestor, Relation.TransGen scheduler.entries.DependsOn id ancestor ∧
      scheduler.entries.Lost ancestor
  plain : ∀ id, scheduler.entries.stateOf id ≠ some .queued ∧
    scheduler.entries.stateOf id ≠ some .malformedOutput

section Safe

variable {scheduler after : Scheduler} {entry moved : Entry} {id dependency : StepId}

theorem Entries.stateOf_of_get {entries : Entries} (found : entries.get id = some entry) :
    entries.stateOf id = some entry.state := by
  rw [Entries.stateOf, found, Option.map_some]

theorem Scheduler.Safe.get_of_mem (safe : scheduler.Safe) (inside : entry ∈ scheduler.entries) :
    scheduler.entries.get entry.id = some entry :=
  (KeyedList.get_eq_some_iff safe.keyed).2 ⟨inside, rfl⟩

theorem Scheduler.Safe.keyed_set (safe : scheduler.Safe) (moved : Entry) :
    ((KeyedList.set Entry.id scheduler.entries moved).map Entry.id).Nodup := by
  rw [KeyedList.keys_set]
  exact safe.keyed

theorem Scheduler.Follows.dependsOn (follows : scheduler.Follows after) :
    after.entries.DependsOn = scheduler.entries.DependsOn := by
  funext id dependency
  have same := follows.steps id
  have rewritten : ∀ entries : Entries, entries.DependsOn id dependency ↔
      ∃ step, (entries.get id).map Entry.step = some step ∧ dependency ∈ step.dependsOn := by
    intro entries
    simp [Entries.DependsOn, Option.map_eq_some_iff]
  rw [eq_iff_iff, rewritten, rewritten, same]

theorem Scheduler.Follows.lost (follows : scheduler.Follows after)
    (lost : scheduler.entries.Lost id) : after.entries.Lost id :=
  lost.imp (fun failed => follows.settled id _ failed rfl)
    fun cancelled => follows.settled id _ cancelled rfl

theorem Scheduler.Moves.stateOf (moves : scheduler.Moves after entry moved) (id : StepId) :
    after.entries.stateOf id =
      if id = entry.id then some moved.state else scheduler.entries.stateOf id := by
  rw [Entries.stateOf, moves.get id]
  split <;> rfl

/-- A move of one step keeps the invariant if the step ends where it may. -/
theorem Scheduler.Safe.of_moves (safe : scheduler.Safe) (moves : scheduler.Moves after entry moved)
    (keyed : (after.entries.map Entry.id).Nodup) (single : (after.flights.map Flight.id).Nodup)
    (manned : ∀ id, id ∈ after.flights.map Flight.id ↔
      if id = entry.id then moved.state = .running else id ∈ scheduler.flights.map Flight.id)
    (supplied : moved.state = .running → ∀ dependency ∈ entry.step.dependsOn,
      scheduler.entries.stateOf dependency = some .complete)
    (grounded : moved.state = .blocked → ∃ dependency ∈ entry.step.dependsOn,
      scheduler.entries.Lost dependency ∨ scheduler.entries.stateOf dependency = some .blocked)
    (plain : moved.state ≠ .queued ∧ moved.state ≠ .malformedOutput) : after.Safe := by
  have follows := Follows.of_moves moves
  refine ⟨keyed, single, ?_, ?_, ?_, ?_⟩
  · intro id
    rw [moves.stateOf, manned]
    split
    next => rw [Option.some.injEq]
    next => exact safe.manned id
  · intro id dependency running depends
    rw [follows.dependsOn] at depends
    rw [moves.stateOf] at running
    apply follows.settled dependency .complete _ rfl
    split at running
    next same =>
      have ⟨other, found, listed⟩ := depends
      rw [same, moves.found, Option.some.injEq] at found
      exact supplied (Option.some.inj running) dependency (found ▸ listed)
    next => exact safe.supplied id dependency running depends
  · intro id blocked
    rw [follows.dependsOn]
    rw [moves.stateOf] at blocked
    split at blocked
    next same =>
      have ⟨dependency, listed, down⟩ := grounded (Option.some.inj blocked)
      have edge : scheduler.entries.DependsOn id dependency := ⟨entry, same ▸ moves.found, listed⟩
      cases down with
      | inl lost => exact ⟨dependency, .single edge, follows.lost lost⟩
      | inr below =>
          have ⟨ancestor, path, lost⟩ := safe.grounded dependency below
          exact ⟨ancestor, .head edge path, follows.lost lost⟩
    next =>
      have ⟨ancestor, path, lost⟩ := safe.grounded id blocked
      exact ⟨ancestor, path, follows.lost lost⟩
  · intro id
    rw [moves.stateOf]
    split
    next => simpa using plain
    next => exact safe.plain id

/-! ## Blocking -/

/-- The steps that wait to be dispatched. -/
def Scheduler.pendingCount (scheduler : Scheduler) : Nat :=
  scheduler.entries.countP fun entry => entry.state = .pending

/-- What blocking makes of a scheduler: some pending steps are blocked. -/
structure Scheduler.Blocks (before after : Scheduler) : Prop where
  safe : after.Safe
  follows : before.Follows after
  flights : after.flights = before.flights
  states : ∀ id, after.entries.stateOf id = before.entries.stateOf id ∨
    before.entries.stateOf id = some .pending ∧ after.entries.stateOf id = some .blocked
  fewer : after = before ∨ after.pendingCount < before.pendingCount

theorem Scheduler.Blocks.refl (safe : scheduler.Safe) : scheduler.Blocks scheduler :=
  ⟨safe, .refl scheduler, rfl, fun _ => .inl rfl, .inl rfl⟩

theorem Scheduler.Blocks.trans {middle : Scheduler} (left : scheduler.Blocks middle)
    (right : middle.Blocks after) : scheduler.Blocks after where
  safe := right.safe
  follows := left.follows.trans right.follows
  flights := right.flights.trans left.flights
  states id := by
    cases right.states id with
    | inl same => exact same ▸ left.states id
    | inr moved =>
        cases left.states id with
        | inl same => exact .inr ⟨same ▸ moved.1, moved.2⟩
        | inr blocked =>
            rw [blocked.2] at moved
            exact absurd moved.1 (by decide)
  fewer := by
    cases right.fewer with
    | inl same => exact same ▸ left.fewer
    | inr less =>
        cases left.fewer with
        | inl same => exact .inr (same ▸ less)
        | inr less' => exact .inr (less.trans less')

/-- A dependency that is down, as the test of `#propagateBlocked` finds it. -/
theorem isBlocked_iff {entries : Entries} : isBlocked entries entry = true ↔
    entry.state = .pending ∧ ∃ dependency ∈ entry.step.dependsOn,
      entries.Lost dependency ∨ entries.stateOf dependency = some .blocked := by
  have down : ∀ dependency : StepId,
      [some StepState.failed, some .blocked, some .cancelled].contains (entries.stateOf dependency)
        = true ↔ entries.Lost dependency ∨ entries.stateOf dependency = some .blocked := by
    intro dependency
    simp only [List.contains_iff_mem, List.mem_cons, List.not_mem_nil, or_false, Entries.Lost]
    constructor
    · intro found
      cases found with
      | inl failed => exact .inl (.inl failed)
      | inr rest => exact rest.elim .inr fun cancelled => .inl (.inr cancelled)
    · intro found
      cases found with
      | inl lost => exact lost.imp_right .inr
      | inr blocked => exact .inr (.inl blocked)
  simp only [isBlocked, Bool.and_eq_true, decide_eq_true_eq, List.any_eq_true, down]

theorem isReady_iff {entries : Entries} : isReady entries entry = true ↔
    entry.state = .pending ∧ ∀ dependency ∈ entry.step.dependsOn,
      entries.stateOf dependency = some .complete := by
  simp only [isReady, Bool.and_eq_true, decide_eq_true_eq, List.all_eq_true]

theorem isBlocked_of_follows (follows : scheduler.Follows after)
    (blocked : isBlocked scheduler.entries entry = true) :
    isBlocked after.entries entry = true := by
  have ⟨pending, dependency, listed, down⟩ := isBlocked_iff.1 blocked
  refine isBlocked_iff.2 ⟨pending, dependency, listed, ?_⟩
  exact down.imp follows.lost fun found => follows.settled dependency _ found rfl

theorem isReady_of_follows (follows : scheduler.Follows after)
    (ready : isReady scheduler.entries entry = true) : isReady after.entries entry = true := by
  have ⟨pending, complete⟩ := isReady_iff.1 ready
  exact isReady_iff.2 ⟨pending, fun dependency listed =>
    follows.settled dependency _ (complete dependency listed) rfl⟩

/-- Moving a pending step on leaves one pending step less. -/
theorem Scheduler.Safe.pendingCount_set (safe : scheduler.Safe)
    (found : scheduler.entries.get entry.id = some entry) (pending : entry.state = .pending)
    (sameId : moved.id = entry.id) (gone : moved.state ≠ .pending) :
    (KeyedList.set Entry.id scheduler.entries moved).countP (fun entry => entry.state = .pending)
      + 1 = scheduler.pendingCount := by
  have counted := KeyedList.countP_set (fun entry : Entry => decide (entry.state = .pending))
    safe.keyed (KeyedList.mem_of_get found) sameId.symm
  simpa [Scheduler.pendingCount, pending, gone] using counted

theorem Scheduler.Safe.blockEntry (safe : scheduler.Safe)
    (found : scheduler.entries.get entry.id = some entry) :
    scheduler.Blocks (scheduler.blockEntry entry) ∧
      (∀ id, id ≠ entry.id →
        (scheduler.blockEntry entry).entries.get id = scheduler.entries.get id) ∧
      (isBlocked scheduler.entries entry = true →
        (scheduler.blockEntry entry).entries.stateOf entry.id = some .blocked) := by
  rw [Scheduler.blockEntry]
  split
  next blocked =>
    have ⟨pending, down⟩ := isBlocked_iff.1 blocked
    have moves : scheduler.Moves (scheduler.setEntry entry.block) entry entry.block :=
      .of_set found (.inl pending) rfl rfl rfl rfl
    have counted : (scheduler.setEntry entry.block).pendingCount + 1 = scheduler.pendingCount :=
      safe.pendingCount_set found pending rfl (by simp)
    have away : entry.id ∉ scheduler.flights.map Flight.id := by
      rw [← safe.manned, Entries.stateOf_of_get found, pending]
      decide
    refine ⟨⟨?_, .of_moves moves, rfl, ?_, .inr (by omega)⟩, ?_, ?_⟩
    · apply safe.of_moves moves
      · exact safe.keyed_set _
      · exact safe.single
      · intro id
        split
        next same =>
          rw [same]
          exact iff_of_false away (by simp)
        next => exact Iff.rfl
      · intro running
        contradiction
      · exact fun _ => down
      · simp
    · intro id
      rw [moves.stateOf]
      split
      next same =>
        right
        exact ⟨same ▸ (Entries.stateOf_of_get found).trans (congrArg some pending), rfl⟩
      next => exact .inl rfl
    · intro id other
      rw [moves.get, if_neg other]
    · intro _
      rw [moves.stateOf, if_pos rfl, Entry.block_state]
  next unblocked =>
    exact ⟨.refl safe, fun _ _ => rfl, fun blocked => absurd blocked unblocked⟩

/-- A pass blocks what there is to block. -/
theorem Scheduler.Safe.blockPass (safe : scheduler.Safe) :
    scheduler.Blocks scheduler.blockPass ∧
      (scheduler.entries.any (isBlocked scheduler.entries) = true →
        scheduler.blockPass.pendingCount < scheduler.pendingCount) := by
  have found : ∀ entry ∈ scheduler.entries, scheduler.entries.get entry.id = some entry :=
    fun entry inside => safe.get_of_mem inside
  have kept : ∀ state entry, scheduler.Blocks state → state.entries.get entry.id = some entry →
      scheduler.Blocks (state.blockEntry entry) :=
    fun state entry blocks found => blocks.trans (blocks.safe.blockEntry found).1
  have persists : ∀ (state : Scheduler) (entry other : Entry), scheduler.Blocks state →
      state.entries.get entry.id = some entry → state.entries.get other.id = some other →
      other.id ≠ entry.id → (state.blockEntry entry).entries.get other.id = some other := by
    intro state entry other blocks found foundOther apart
    rw [(blocks.safe.blockEntry found).2.1 other.id apart]
    exact foundOther
  have blocks := KeyedList.foldl_each Entry.id (fun after => scheduler.Blocks after)
    (fun after entry => after.entries.get entry.id = some entry) kept persists safe.keyed
    (.refl safe) found
  have made := KeyedList.foldl_makes Entry.id (fun after => scheduler.Blocks after)
    (fun after entry => after.entries.get entry.id = some entry)
    (fun after entry => isBlocked scheduler.entries entry = true →
      after.entries.stateOf entry.id = some .blocked)
    kept persists
    (fun state entry blocks found blocked =>
      (blocks.safe.blockEntry found).2.2 (isBlocked_of_follows blocks.follows blocked))
    (fun state entry other blocks found made blocked =>
      (blocks.safe.blockEntry found).1.follows.settled other.id .blocked (made blocked) rfl)
    safe.keyed (.refl safe) found
  refine ⟨blocks, fun anyBlocked => ?_⟩
  have ⟨entry, inside, blocked⟩ := List.any_eq_true.1 anyBlocked
  cases blocks.fewer with
  | inr less => exact less
  | inl same =>
      have down := made entry inside blocked
      change scheduler.blockPass = scheduler at same
      change scheduler.blockPass.entries.stateOf entry.id = some .blocked at down
      rw [same, Entries.stateOf_of_get (safe.get_of_mem inside), isBlocked_pending blocked] at down
      contradiction

theorem Scheduler.Safe.blockPasses (safe : scheduler.Safe) {fuel : Nat}
    (fuelled : scheduler.pendingCount ≤ fuel) :
    scheduler.Blocks (scheduler.blockPasses fuel) ∧
      ∀ entry ∈ (scheduler.blockPasses fuel).entries,
        isBlocked (scheduler.blockPasses fuel).entries entry = false := by
  induction fuel generalizing scheduler with
  | zero =>
      refine ⟨.refl safe, fun entry inside => ?_⟩
      have nonePending := List.countP_eq_zero.1 (Nat.le_zero.1 fuelled) entry inside
      rw [Bool.eq_false_iff]
      intro blocked
      exact nonePending (by simpa using isBlocked_pending blocked)
  | succ fuel ih =>
      have ⟨blocks, fewer⟩ := safe.blockPass
      rw [Scheduler.blockPasses]
      split
      next some' =>
        have less := fewer some'
        have ⟨rest, quiet⟩ := ih blocks.safe (by omega)
        exact ⟨blocks.trans rest, quiet⟩
      next none' =>
        rw [List.any_eq_true] at none'
        refine ⟨.refl safe, fun entry inside => ?_⟩
        rw [Bool.eq_false_iff]
        intro blocked
        exact none' ⟨entry, inside, blocked⟩

/-- `#propagateBlocked` ends with nothing left to block. -/
theorem Scheduler.Safe.propagateBlocked (safe : scheduler.Safe) :
    scheduler.Blocks scheduler.propagateBlocked ∧
      ∀ entry ∈ scheduler.propagateBlocked.entries,
        isBlocked scheduler.propagateBlocked.entries entry = false :=
  safe.blockPasses List.countP_le_length

/-! ## Dispatching -/

/-- The steps that wait, and those in flight. -/
def Scheduler.unsettled (scheduler : Scheduler) : Nat :=
  scheduler.pendingCount + scheduler.flights.length

/-- A step that waits, with all its dependencies complete. -/
def Entries.Due (entries : Entries) (id : StepId) : Prop :=
  entries.stateOf id = some .pending ∧
    ∀ dependency, entries.DependsOn id dependency → entries.stateOf dependency = some .complete

/-- What dispatching makes of a scheduler: some due steps are in flight or have failed. -/
structure Scheduler.Dispatches (before after : Scheduler) : Prop where
  safe : after.Safe
  follows : before.Follows after
  states : ∀ id, after.entries.stateOf id = before.entries.stateOf id ∨
    before.entries.Due id ∧
      (after.entries.stateOf id = some .failed ∨ after.entries.stateOf id = some .running)
  flown : ∀ id ∈ after.flights.map Flight.id,
    id ∈ before.flights.map Flight.id ∨ before.entries.Due id
  unsettled : after.unsettled ≤ before.unsettled

theorem Scheduler.Dispatches.refl (safe : scheduler.Safe) : scheduler.Dispatches scheduler :=
  ⟨safe, .refl scheduler, fun _ => .inl rfl, fun _ => .inl, le_refl _⟩

/-- A step that is due later was due before. -/
theorem Scheduler.Dispatches.due (dispatches : scheduler.Dispatches after)
    (due : after.entries.Due id) : scheduler.entries.Due id := by
  have unmoved : ∀ other state, after.entries.stateOf other = some state → state ≠ .failed →
      state ≠ .running → scheduler.entries.stateOf other = some state := by
    intro other state found unfailed resting
    cases dispatches.states other with
    | inl same => exact same ▸ found
    | inr moved =>
        cases moved.2 with
        | inl failed => exact absurd (Option.some.inj (found.symm.trans failed)) unfailed
        | inr running => exact absurd (Option.some.inj (found.symm.trans running)) resting
  constructor
  · exact unmoved id .pending due.1 (by decide) (by decide)
  · intro dependency depends
    rw [← dispatches.follows.dependsOn] at depends
    exact unmoved dependency .complete (due.2 dependency depends) (by decide) (by decide)

theorem Scheduler.Dispatches.trans {middle : Scheduler} (left : scheduler.Dispatches middle)
    (right : middle.Dispatches after) : scheduler.Dispatches after where
  safe := right.safe
  follows := left.follows.trans right.follows
  states id := by
    cases right.states id with
    | inl same => exact same ▸ left.states id
    | inr moved => exact .inr ⟨left.due moved.1, moved.2⟩
  flown id flying := by
    cases right.flown id flying with
    | inl before => exact left.flown id before
    | inr due => exact .inr (left.due due)
  unsettled := right.unsettled.trans left.unsettled

theorem due_of_isReady (found : scheduler.entries.get entry.id = some entry)
    (ready : isReady scheduler.entries entry = true) : scheduler.entries.Due entry.id := by
  have ⟨pending, complete⟩ := isReady_iff.1 ready
  constructor
  · rw [Entries.stateOf_of_get found, pending]
  · intro dependency ⟨other, found', listed⟩
    rw [found, Option.some.injEq] at found'
    exact complete dependency (found' ▸ listed)

variable (ranked : Step → List Candidate) (at' : Time)

theorem Scheduler.Safe.dispatchEntry (safe : scheduler.Safe)
    (found : scheduler.entries.get entry.id = some entry)
    (ready : isReady scheduler.entries entry = true) :
    scheduler.Dispatches (scheduler.dispatchEntry ranked at' entry) ∧
      (∀ id, id ≠ entry.id →
        (scheduler.dispatchEntry ranked at' entry).entries.get id = scheduler.entries.get id) ∧
      (scheduler.dispatchEntry ranked at' entry).entries.stateOf entry.id =
        some (if hasCandidate ranked entry then .running else .failed) := by
  have ⟨pending, complete⟩ := isReady_iff.1 ready
  have due := due_of_isReady found ready
  have away : entry.id ∉ scheduler.flights.map Flight.id := by
    rw [← safe.manned, due.1]
    decide
  rw [Scheduler.dispatchEntry]
  split
  next none' =>
    have moves : scheduler.Moves (scheduler.setEntry (entry.fail noCandidateError at')) entry
        (entry.fail noCandidateError at') := .of_set found (.inl pending) rfl rfl rfl rfl
    have counted : (scheduler.setEntry (entry.fail noCandidateError at')).pendingCount + 1 =
        scheduler.pendingCount := safe.pendingCount_set found pending rfl (by simp)
    refine ⟨⟨?_, .of_moves moves, ?_, fun _ => .inl, ?_⟩, ?_, ?_⟩
    · apply safe.of_moves moves
      · exact safe.keyed_set _
      · exact safe.single
      · intro id
        split
        next same =>
          rw [same]
          exact iff_of_false away (by simp)
        next => exact Iff.rfl
      · intro running
        contradiction
      · intro blocked
        contradiction
      · simp
    · intro id
      rw [moves.stateOf]
      split
      next same => exact .inr ⟨same ▸ due, .inl rfl⟩
      next => exact .inl rfl
    · change _ + scheduler.flights.length ≤ _
      rw [Scheduler.unsettled]
      omega
    · intro id other
      rw [moves.get, if_neg other]
    · rw [moves.stateOf, if_pos rfl]
      simp [hasCandidate, none']
  next current others distinct =>
    have moves : scheduler.Moves (scheduler.launch (entry.start current at')
        { id := entry.id, current, others, answered := [] }) entry (entry.start current at') :=
      .of_set found (.inl pending) rfl rfl rfl rfl
    have counted : (scheduler.launch (entry.start current at')
        { id := entry.id, current, others, answered := [] }).pendingCount + 1 =
        scheduler.pendingCount := safe.pendingCount_set found pending rfl (by simp)
    have flown : (scheduler.launch (entry.start current at')
        { id := entry.id, current, others, answered := [] }).flights.map Flight.id =
        scheduler.flights.map Flight.id ++ [entry.id] := by
      simp [Scheduler.launch]
    refine ⟨⟨?_, .of_moves moves, ?_, ?_, ?_⟩, ?_, ?_⟩
    · apply safe.of_moves moves
      · exact safe.keyed_set _
      · rw [flown]
        apply safe.single.append (List.nodup_singleton _)
        simpa using away
      · intro id
        rw [flown, List.mem_append, List.mem_singleton]
        split
        next same => simp [same]
        next other => simp [other]
      · exact fun _ => complete
      · intro blocked
        contradiction
      · simp
    · intro id
      rw [moves.stateOf]
      split
      next same => exact .inr ⟨same ▸ due, .inr rfl⟩
      next => exact .inl rfl
    · intro id flying
      rw [flown, List.mem_append, List.mem_singleton] at flying
      cases flying with
      | inl before => exact .inl before
      | inr same => exact .inr (same ▸ due)
    · have longer : (scheduler.launch (entry.start current at')
          { id := entry.id, current, others, answered := [] }).flights.length =
          scheduler.flights.length + 1 := by
        simp [Scheduler.launch]
      rw [Scheduler.unsettled, Scheduler.unsettled, longer]
      omega
    · intro id other
      rw [moves.get, if_neg other]
    · rw [moves.stateOf, if_pos rfl]
      simp [hasCandidate, distinct]

/-- `#dispatchReady` starts every ready step that has a candidate, and fails the others. -/
theorem Scheduler.Safe.dispatchReady (safe : scheduler.Safe) :
    scheduler.Dispatches (scheduler.dispatchReady ranked at').1 ∧
      ∀ entry ∈ scheduler.readyTasks,
        (scheduler.dispatchReady ranked at').1.entries.stateOf entry.id =
          some (if hasCandidate ranked entry then .running else .failed) := by
  have found : ∀ entry ∈ scheduler.readyTasks,
      scheduler.entries.get entry.id = some entry ∧ isReady scheduler.entries entry = true := by
    intro entry inside
    have ⟨member, ready⟩ := List.mem_filter.1 inside
    exact ⟨safe.get_of_mem member, ready⟩
  have distinct : (scheduler.readyTasks.map Entry.id).Nodup :=
    safe.keyed.sublist (List.filter_sublist.map Entry.id)
  have spec : ∀ (state : Scheduler) (entry : Entry), scheduler.Dispatches state →
      state.entries.get entry.id = some entry ∧ isReady state.entries entry = true →
      state.Dispatches (state.dispatchEntry ranked at' entry) ∧
        (∀ id, id ≠ entry.id →
          (state.dispatchEntry ranked at' entry).entries.get id = state.entries.get id) ∧
        (state.dispatchEntry ranked at' entry).entries.stateOf entry.id =
          some (if hasCandidate ranked entry then .running else .failed) :=
    fun state entry dispatches good => dispatches.safe.dispatchEntry ranked at' good.1 good.2
  have kept : ∀ state entry, scheduler.Dispatches state →
      state.entries.get entry.id = some entry ∧ isReady state.entries entry = true →
      scheduler.Dispatches (state.dispatchEntry ranked at' entry) :=
    fun state entry dispatches good => dispatches.trans (spec state entry dispatches good).1
  have persists : ∀ (state : Scheduler) (entry other : Entry), scheduler.Dispatches state →
      state.entries.get entry.id = some entry ∧ isReady state.entries entry = true →
      state.entries.get other.id = some other ∧ isReady state.entries other = true →
      other.id ≠ entry.id →
      (state.dispatchEntry ranked at' entry).entries.get other.id = some other ∧
        isReady (state.dispatchEntry ranked at' entry).entries other = true := by
    intro state entry other dispatches good goodOther apart
    have one := spec state entry dispatches good
    exact ⟨(one.2.1 other.id apart).trans goodOther.1,
      isReady_of_follows one.1.follows goodOther.2⟩
  constructor
  · exact KeyedList.foldl_each Entry.id (fun after => scheduler.Dispatches after)
      (fun after entry => after.entries.get entry.id = some entry ∧
        isReady after.entries entry = true)
      kept persists distinct (.refl safe) found
  · apply KeyedList.foldl_makes Entry.id (fun after => scheduler.Dispatches after)
      (fun after entry => after.entries.get entry.id = some entry ∧
        isReady after.entries entry = true)
      (fun after entry => after.entries.stateOf entry.id =
        some (if hasCandidate ranked entry then .running else .failed))
      kept persists _ _ distinct (.refl safe) found
    · intro state entry dispatches good
      exact (spec state entry dispatches good).2.2
    · intro state entry other dispatches good made
      cases (spec state entry dispatches good).1.states other.id with
      | inl same => exact same.trans made
      | inr moved =>
          have waits := moved.1.1
          rw [made] at waits
          split at waits <;> contradiction

/-! ## Settling and cancelling -/

@[simp] theorem Entry.settle_step (entry : Entry) (outcome : Outcome) (cancelled : Bool)
    (at' : Time) : (entry.settle outcome cancelled at').step = entry.step := by
  simp only [Entry.settle]
  split
  next => rfl
  next => split <;> rfl

theorem Entry.settle_state (entry : Entry) (outcome : Outcome) (cancelled : Bool) (at' : Time) :
    (entry.settle outcome cancelled at').state = .complete ∨
      (entry.settle outcome cancelled at').state = .failed ∨
      (entry.settle outcome cancelled at').state = .cancelled ∧ cancelled = true := by
  simp only [Entry.settle]
  split
  next on => exact .inr (.inr ⟨rfl, on⟩)
  next =>
    split
    next => exact .inl rfl
    next => exact .inr (.inl rfl)

/-- The entry of a step in flight settles, and the flight ends. -/
theorem Scheduler.Safe.land (safe : scheduler.Safe)
    (found : scheduler.entries.get entry.id = some entry)
    (flying : entry.id ∈ scheduler.flights.map Flight.id) (sameStep : moved.step = entry.step)
    (settled : moved.state = .complete ∨ moved.state = .failed ∨ moved.state = .cancelled) :
    scheduler.Moves (scheduler.land moved) entry moved ∧ (scheduler.land moved).Safe ∧
      (scheduler.land moved).unsettled + 1 = scheduler.unsettled := by
  have running : entry.state = .running := by
    have found' := (safe.manned entry.id).2 flying
    rw [Entries.stateOf_of_get found] at found'
    exact Option.some.inj found'
  have sameId : moved.id = entry.id := congrArg Step.id sameStep
  have moves : scheduler.Moves (scheduler.land moved) entry moved :=
    .of_set found (.inr running) sameStep rfl rfl rfl
  have resting : moved.state ≠ .running ∧ moved.state ≠ .pending ∧ moved.state ≠ .blocked ∧
      moved.state ≠ .queued ∧ moved.state ≠ .malformedOutput := by
    cases settled with
    | inl complete => simp [complete]
    | inr lost => cases lost with
      | inl failed => simp [failed]
      | inr cancelled => simp [cancelled]
  refine ⟨moves, ?_, ?_⟩
  · apply safe.of_moves moves
    · exact safe.keyed_set moved
    · exact safe.single.sublist (List.filter_sublist.map Flight.id)
    · intro id
      have left : id ∈ (scheduler.land moved).flights.map Flight.id ↔
          id ∈ scheduler.flights.map Flight.id ∧ id ≠ moved.id := by
        simp only [Scheduler.land, List.mem_map, List.mem_filter, decide_eq_true_eq]
        constructor
        · rintro ⟨flight, ⟨inside, away⟩, same⟩
          exact ⟨⟨flight, inside, same⟩, same ▸ away⟩
        · rintro ⟨⟨flight, inside, same⟩, away⟩
          exact ⟨flight, ⟨inside, same ▸ away⟩, same⟩
      rw [left, sameId]
      split
      next same => exact iff_of_false (fun both => both.2 same) resting.1
      next other => exact and_iff_left other
    · exact fun again => absurd again resting.1
    · exact fun blocked => absurd blocked resting.2.2.1
    · exact resting.2.2.2
  · have counted := KeyedList.countP_set (fun entry : Entry => decide (entry.state = .pending))
      safe.keyed (KeyedList.mem_of_get found) sameId.symm
    have shorter := KeyedList.length_filter_ne safe.single flying
    simp only [running, resting.2.1, reduceCtorEq, decide_false, Bool.false_eq_true, if_false,
      Nat.add_zero] at counted
    rw [← sameId] at shorter
    change (KeyedList.set Entry.id scheduler.entries moved).countP _ +
      (scheduler.flights.filter fun flight => flight.id ≠ moved.id).length + 1 =
        scheduler.entries.countP _ + scheduler.flights.length
    omega

@[simp] theorem Entry.cancel_step (entry : Entry) : entry.cancel.step = entry.step := by
  simp only [Entry.cancel]
  split <;> rfl

theorem Entry.cancel_id (entry : Entry) : entry.cancel.id = entry.id := by
  simp [Entry.id]

theorem Scheduler.get_cancel (scheduler : Scheduler) (id : StepId) :
    scheduler.cancel.entries.get id = (scheduler.entries.get id).map Entry.cancel :=
  KeyedList.get_map Entry.id Entry.cancel Entry.cancel_id

/-- Cancelling moves the pending steps only. -/
theorem Scheduler.stateOf_cancel (scheduler : Scheduler) (id : StepId) (state : StepState) :
    scheduler.cancel.entries.stateOf id = some state ↔
      scheduler.entries.stateOf id = some state ∧ state ≠ .pending ∧ state ≠ .queued ∨
        state = .cancelled ∧ (scheduler.entries.stateOf id = some .pending ∨
          scheduler.entries.stateOf id = some .queued) := by
  rw [Entries.stateOf, Entries.stateOf, scheduler.get_cancel]
  cases scheduler.entries.get id with
  | none => simp
  | some entry =>
      simp only [Option.map_some, Option.some.injEq, Entry.cancel]
      split
      next waiting =>
        constructor
        · intro same
          exact .inr ⟨same.symm, waiting⟩
        · intro cases'
          cases cases' with
          | inl kept =>
              cases waiting with
              | inl pending => exact absurd (kept.1.symm.trans pending) kept.2.1
              | inr queued => exact absurd (kept.1.symm.trans queued) kept.2.2
          | inr cancelled => exact cancelled.1.symm
      next started =>
        rw [not_or] at started
        constructor
        · intro same
          exact .inl ⟨same, same ▸ started.1, same ▸ started.2⟩
        · intro cases'
          cases cases' with
          | inl kept => exact kept.1
          | inr cancelled => exact absurd cancelled.2 (not_or.2 started)

theorem Scheduler.follows_cancel (scheduler : Scheduler) :
    scheduler.Follows scheduler.cancel where
  steps id := by
    rw [scheduler.get_cancel, Option.map_map]
    congr 1
    funext entry
    exact entry.cancel_step
  settled id state found settled := by
    apply (scheduler.stateOf_cancel id state).2
    refine .inl ⟨found, ?_, ?_⟩ <;>
      · intro same
        rw [same] at settled
        contradiction
  candidateModels := rfl

theorem Scheduler.Safe.cancel (safe : scheduler.Safe) : scheduler.cancel.Safe := by
  have follows := scheduler.follows_cancel
  have keys : scheduler.cancel.entries.map Entry.id = scheduler.entries.map Entry.id := by
    rw [Scheduler.cancel, List.map_map]
    exact List.map_congr_left fun entry _ => entry.cancel_id
  have running : ∀ id, scheduler.cancel.entries.stateOf id = some .running ↔
      scheduler.entries.stateOf id = some .running := by
    intro id
    rw [scheduler.stateOf_cancel]
    simp
  refine ⟨keys ▸ safe.keyed, safe.single, ?_, ?_, ?_, ?_⟩
  · intro id
    rw [running]
    exact safe.manned id
  · intro id dependency flying depends
    rw [follows.dependsOn] at depends
    exact follows.settled dependency _ (safe.supplied id dependency ((running id).1 flying) depends)
      rfl
  · intro id blocked
    rw [follows.dependsOn]
    have before : scheduler.entries.stateOf id = some .blocked := by
      rw [scheduler.stateOf_cancel] at blocked
      simpa using blocked
    have ⟨ancestor, path, lost⟩ := safe.grounded id before
    exact ⟨ancestor, path, follows.lost lost⟩
  · intro id
    have plain := safe.plain id
    constructor
    · rw [ne_eq, scheduler.stateOf_cancel]
      simp
    · rw [ne_eq, scheduler.stateOf_cancel]
      simpa using plain.2

end Safe

/-! ## A run -/

theorem restoreEntry_state (resume : Subtasks) (step : Step) :
    (restoreEntry resume step).state = .pending ∨ (restoreEntry resume step).state = .complete ∨
      (restoreEntry resume step).state = .failed := by
  simp only [restoreEntry]
  split
  next => exact .inl rfl
  next prior _ =>
    split
    next settled =>
      right
      simp only [Snapshot.settled, Bool.or_eq_true, Bool.and_eq_true, decide_eq_true_eq] at settled
      exact settled.imp_right And.left
    next => exact .inl rfl

theorem nodup_restoreEntries (resume : Subtasks) (tasks : List Step) :
    ((restoreEntries resume tasks).map Entry.id).Nodup := by
  simp only [restoreEntries]
  induction tasks using List.reverseRecOn with
  | nil => exact List.nodup_nil
  | append_singleton rest step ih =>
      rw [List.foldl_append]
      exact KeyedList.nodup_keys_insert ih _

variable {graph : Graph} {candidateModels : List Candidate} {resume : Subtasks}

/-- The steps a run starts with are pending, complete or failed. -/
theorem stateOf_start {id : StepId} {state : StepState}
    (found : (Scheduler.start graph candidateModels resume).entries.stateOf id = some state) :
    state = .pending ∨ state = .complete ∨ state = .failed := by
  have ⟨entry, there, same⟩ := Option.map_eq_some_iff.1 found
  have ⟨step, _, restored⟩ := mem_restoreEntries (KeyedList.mem_of_get there)
  rw [← same, restored]
  exact restoreEntry_state resume step

theorem Scheduler.safe_start :
    (Scheduler.start graph candidateModels resume).Safe := by
  have unlike : ∀ id state, state ≠ .pending ∧ state ≠ .complete ∧ state ≠ .failed →
      (Scheduler.start graph candidateModels resume).entries.stateOf id ≠ some state := by
    intro id state other found
    cases stateOf_start found with
    | inl pending => exact other.1 pending
    | inr rest => cases rest with
      | inl complete => exact other.2.1 complete
      | inr failed => exact other.2.2 failed
  refine ⟨nodup_restoreEntries resume graph.tasks, List.nodup_nil, ?_, ?_, ?_, ?_⟩
  · intro id
    exact iff_of_false (unlike id .running (by decide)) (by simp [Scheduler.start])
  · intro id dependency running
    exact absurd running (unlike id .running (by decide))
  · intro id blocked
    exact absurd blocked (unlike id .blocked (by decide))
  · intro id
    exact ⟨unlike id .queued (by decide), unlike id .malformedOutput (by decide)⟩

/-- What a step of a run keeps and starts. -/
structure Run.Goes (before after : Run) : Prop where
  safe : after.scheduler.Safe
  follows : before.scheduler.Follows after.scheduler
  flown : ∀ id ∈ after.scheduler.flights.map Flight.id,
    id ∈ before.scheduler.flights.map Flight.id ∨ before.scheduler.entries.Due id

variable {run after : Run} {label : Label}

/-- A step that is due after blocking was due before. -/
theorem Scheduler.Blocks.due {before after : Scheduler} {id : StepId} (blocks : before.Blocks after)
    (due : after.entries.Due id) : before.entries.Due id := by
  have unmoved : ∀ other state, after.entries.stateOf other = some state → state ≠ .blocked →
      before.entries.stateOf other = some state := by
    intro other state found unblocked
    cases blocks.states other with
    | inl same => exact same ▸ found
    | inr moved => exact absurd (Option.some.inj (found.symm.trans moved.2)) unblocked
  constructor
  · exact unmoved id .pending due.1 (by decide)
  · intro dependency depends
    rw [← blocks.follows.dependsOn] at depends
    exact unmoved dependency .complete (due.2 dependency depends) (by decide)

theorem Run.round_goes (safe : run.scheduler.Safe) (drain : Bool)
    (ranked : Step → List Candidate) (at' : Time) : run.Goes (run.round drain ranked at') := by
  have ⟨blocks, _⟩ := safe.propagateBlocked
  rw [Run.round]
  split
  next => exact ⟨safe, .refl _, fun _ => .inl⟩
  next =>
    split
    next => exact ⟨blocks.safe, blocks.follows, fun id flying => .inl (blocks.flights ▸ flying)⟩
    next =>
      have ⟨dispatches, _⟩ := blocks.safe.dispatchReady ranked at'
      refine ⟨dispatches.safe, blocks.follows.trans dispatches.follows, fun id flying => ?_⟩
      cases dispatches.flown id flying with
      | inl before => exact .inl (blocks.flights ▸ before)
      | inr due => exact .inr (blocks.due due)

theorem Run.next_goes (safe : run.scheduler.Safe) (stepped : run.next label = some after) :
    run.Goes after := by
  cases label with
  | round drain ranked at' =>
      simp only [Run.next] at stepped
      split at stepped
      next =>
        cases stepped
        exact run.round_goes safe drain ranked at'
      next => contradiction
  | settle id outcome at' =>
      have ⟨flight, flying, held⟩ := Option.bind_eq_some_iff.1 stepped
      have ⟨entry, found, made⟩ := Option.map_eq_some_iff.1 held
      subst made
      have sameId : entry.id = id := Entries.id_of_get found
      have inFlight : entry.id ∈ run.scheduler.flights.map Flight.id :=
        sameId ▸ KeyedList.mem_keys_of_get flying
      have settled := entry.settle_state outcome run.cancelled at'
      have ⟨moves, safe', _⟩ := safe.land (sameId ▸ found) inFlight
        (entry.settle_step outcome run.cancelled at')
        (settled.imp_right fun rest => rest.imp_right And.left)
      refine ⟨safe', .of_moves moves, fun other flying => .inl ?_⟩
      exact (List.filter_sublist.map Flight.id).subset flying
  | cancel =>
      simp only [Run.next] at stepped
      split at stepped
      next => contradiction
      next =>
        cases stepped
        exact ⟨safe.cancel, run.scheduler.follows_cancel, fun _ => .inl⟩

/-! ## The loop and its events -/

/-- The schedulers that events lead to. -/
def Scheduler.Steps : Scheduler → Scheduler → Prop :=
  Relation.ReflTransGen fun before after => ∃ event, before.next event = some after

section Events

variable {scheduler : Scheduler} {entry : Entry} {ranked : Step → List Candidate} {at' : Time}

theorem Scheduler.steps_blockEntry (found : scheduler.entries.get entry.id = some entry) :
    scheduler.Steps (scheduler.blockEntry entry) := by
  rw [Scheduler.blockEntry]
  split
  next blocked =>
    apply Relation.ReflTransGen.single
    exact ⟨.block entry.id, by simp [Scheduler.next, found, blocked]⟩
  next => exact .refl

theorem Scheduler.steps_dispatchEntry (found : scheduler.entries.get entry.id = some entry)
    (ready : isReady scheduler.entries entry = true)
    (ranks : ranked entry.step ⊆ scheduler.candidateModels) :
    scheduler.Steps (scheduler.dispatchEntry ranked at' entry) := by
  rw [Scheduler.dispatchEntry]
  apply Relation.ReflTransGen.single
  split
  next => exact ⟨.noCandidate entry.id at', by simp [Scheduler.next, found, ready]⟩
  next current others distinct =>
    refine ⟨.dispatch entry.id (ranked entry.step) at', ?_⟩
    simp [Scheduler.next, found, ready, distinct, ranks]

theorem Scheduler.Safe.steps_blockPass (safe : scheduler.Safe) :
    scheduler.Steps scheduler.blockPass := by
  have steps := KeyedList.foldl_each Entry.id
    (fun after => scheduler.Blocks after ∧ scheduler.Steps after)
    (fun after entry => after.entries.get entry.id = some entry)
    (fun state entry before found =>
      ⟨before.1.trans (before.1.safe.blockEntry found).1,
        before.2.trans (state.steps_blockEntry found)⟩)
    (fun state entry other before found foundOther apart =>
      ((before.1.safe.blockEntry found).2.1 other.id apart).trans foundOther)
    safe.keyed ⟨.refl safe, .refl⟩ fun entry inside => safe.get_of_mem inside
  exact steps.2

theorem Scheduler.Safe.steps_blockPasses (safe : scheduler.Safe) (fuel : Nat) :
    scheduler.Steps (scheduler.blockPasses fuel) := by
  induction fuel generalizing scheduler with
  | zero => exact .refl
  | succ fuel ih =>
      rw [Scheduler.blockPasses]
      split
      next => exact safe.steps_blockPass.trans (ih safe.blockPass.1.safe)
      next => exact .refl

theorem Scheduler.Safe.steps_dispatchReady (safe : scheduler.Safe)
    (ranks : ∀ entry ∈ scheduler.entries, ranked entry.step ⊆ scheduler.candidateModels) :
    scheduler.Steps (scheduler.dispatchReady ranked at').1 := by
  have steps := KeyedList.foldl_each Entry.id
    (fun after => scheduler.Dispatches after ∧ scheduler.Steps after)
    (fun after entry => after.entries.get entry.id = some entry ∧
      isReady after.entries entry = true ∧ ranked entry.step ⊆ scheduler.candidateModels)
    (fun state entry before good =>
      ⟨before.1.trans (before.1.safe.dispatchEntry ranked at' good.1 good.2.1).1,
        before.2.trans (state.steps_dispatchEntry good.1 good.2.1
          (before.1.follows.candidateModels ▸ good.2.2))⟩)
    (fun state entry other before good goodOther apart =>
      have one := before.1.safe.dispatchEntry ranked at' good.1 good.2.1
      ⟨(one.2.1 other.id apart).trans goodOther.1, isReady_of_follows one.1.follows goodOther.2.1,
        goodOther.2.2⟩)
    (safe.keyed.sublist (List.filter_sublist.map Entry.id)) ⟨.refl safe, .refl⟩
    fun entry inside =>
      have ⟨member, ready⟩ := List.mem_filter.1 inside
      ⟨safe.get_of_mem member, ready, ranks entry member⟩
  exact steps.2

/-- A round is made of events of the scheduler. -/
theorem Run.steps_round (safe : run.scheduler.Safe)
    (ranks : ∀ entry ∈ run.scheduler.entries, ranked entry.step ⊆ run.scheduler.candidateModels)
    (drain : Bool) : run.scheduler.Steps (run.round drain ranked at').scheduler := by
  have ⟨blocks, _⟩ := safe.propagateBlocked
  have blocking : run.scheduler.Steps run.scheduler.propagateBlocked := safe.steps_blockPasses _
  rw [Run.round]
  split
  next => exact .refl
  next =>
    split
    next => exact blocking
    next =>
      apply blocking.trans (blocks.safe.steps_dispatchReady _)
      intro entry inside
      have same := blocks.follows.steps entry.id
      rw [blocks.safe.get_of_mem inside, Option.map_some] at same
      have ⟨before, found, step⟩ := Option.map_eq_some_iff.1 same.symm
      rw [blocks.follows.candidateModels, ← step]
      exact ranks before (KeyedList.mem_of_get found)

end Events

/-- The invariant of a run, with the steps it started with. -/
theorem loop_safe (reachable : (loop graph candidateModels resume).Reachable System.always run) :
    run.scheduler.Safe ∧ (Scheduler.start graph candidateModels resume).Follows run.scheduler := by
  apply reachable.invariant fun run => run.scheduler.Safe ∧
    (Scheduler.start graph candidateModels resume).Follows run.scheduler
  · intro run started
    cases started
    exact ⟨Scheduler.safe_start, .refl _⟩
  · intro run label after _ ⟨safe, follows⟩ _ stepped
    have goes := Run.next_goes safe stepped
    exact ⟨goes.safe, follows.trans goes.follows⟩

/-- Whatever a run does, each of its rounds comes to events of the scheduler. -/
theorem steps_of_round {drain : Bool} {ranked : Step → List Candidate} {at' : Time}
    (reachable : (loop graph candidateModels resume).Reachable System.always run)
    (stepped : run.next (.round drain ranked at') = some after) :
    run.scheduler.Steps after.scheduler := by
  rw [Run.next] at stepped
  split at stepped
  next goes =>
    cases stepped
    exact Run.steps_round (loop_safe reachable).1 goes.2 drain
  next => contradiction

theorem follows_of_onward (safe : run.scheduler.Safe)
    (onward : ((loop graph candidateModels resume).onward run).Reachable System.always after) :
    after.scheduler.Safe ∧ run.scheduler.Follows after.scheduler := by
  apply onward.invariant fun later => later.scheduler.Safe ∧ run.scheduler.Follows later.scheduler
  · intro later same
    cases same
    exact ⟨safe, .refl _⟩
  · intro middle label later _ ⟨safe, follows⟩ _ stepped
    have goes := Run.next_goes safe stepped
    exact ⟨goes.safe, follows.trans goes.follows⟩

/-- The dependencies of a step of a run are those of the graph. -/
theorem dependsOn_start (graph : Graph) (candidateModels : List Candidate) (resume : Subtasks)
    (id dependency : StepId) :
    (Scheduler.start graph candidateModels resume).entries.DependsOn id dependency ↔
      dependency ∈ dependenciesOf graph.tasks id := by
  simp only [Entries.DependsOn, Scheduler.start, get_restoreEntries, dependenciesOf]
  cases KeyedList.get Step.id graph.tasks id with
  | none => simp
  | some step => simp

/-- What the dependencies of a graph are owed in a state of a run. -/
structure Run.DependencySafe (graph : Graph) (run : Run) : Prop where
  /-- No step is in flight twice at once. -/
  single : (run.scheduler.flights.map Flight.id).Nodup
  /-- A step is dispatched only while it is pending and its dependencies are complete. -/
  dispatched : ∀ label after, run.next label = some after →
    ∀ id ∈ after.scheduler.flights.map Flight.id, id ∉ run.scheduler.flights.map Flight.id →
      run.scheduler.entries.stateOf id = some .pending ∧
        ∀ dependency ∈ dependenciesOf graph.tasks id,
          run.scheduler.entries.stateOf dependency = some .complete
  /-- What is blocked stands on a step that failed or was cancelled. -/
  blocked : ∀ id, run.scheduler.entries.stateOf id = some .blocked → ∃ ancestor,
    Relation.TransGen (fun id dependency => dependency ∈ dependenciesOf graph.tasks id) id ancestor ∧
      run.scheduler.entries.Lost ancestor

/-- What later states of a run keep: a complete step stays complete, a blocked one blocked,
neither is in flight again, and a lost step is never complete. -/
structure Run.Settles (run later : Run) : Prop where
  complete : ∀ id, run.scheduler.entries.stateOf id = some .complete →
    later.scheduler.entries.stateOf id = some .complete
  blocked : ∀ id, run.scheduler.entries.stateOf id = some .blocked →
    later.scheduler.entries.stateOf id = some .blocked
  grounded : ∀ id, run.scheduler.entries.stateOf id = some .complete ∨
    run.scheduler.entries.stateOf id = some .blocked →
    id ∉ later.scheduler.flights.map Flight.id
  lost : ∀ id, run.scheduler.entries.Lost id → later.scheduler.entries.Lost id ∧
    later.scheduler.entries.stateOf id ≠ some .complete

/-- The scheduler respects the dependencies in every state of every run, whatever the models
answer, in whatever order steps settle, and whenever the hooks or `cancel` speak. -/
theorem dependency_safe (graph : Graph) (candidateModels : List Candidate) (resume : Subtasks)
    {run : Run} (reachable : (loop graph candidateModels resume).Reachable System.always run) :
    run.DependencySafe graph ∧
      ∀ later, ((loop graph candidateModels resume).onward run).Reachable System.always later →
        run.Settles later := by
  have ⟨safe, follows⟩ := loop_safe reachable
  have depends : run.scheduler.entries.DependsOn =
      fun id dependency => dependency ∈ dependenciesOf graph.tasks id := by
    rw [follows.dependsOn]
    funext id dependency
    exact propext (dependsOn_start graph candidateModels resume id dependency)
  constructor
  · refine ⟨safe.single, ?_, ?_⟩
    · intro label after stepped id flying fresh
      cases (Run.next_goes safe stepped).flown id flying with
      | inl before => exact absurd before fresh
      | inr due =>
          refine ⟨due.1, fun dependency listed => due.2 dependency ?_⟩
          rw [depends]
          exact listed
    · intro id blocked
      have grounded := safe.grounded id blocked
      rwa [depends] at grounded
  · intro later onward
    have ⟨safe', follows'⟩ := follows_of_onward safe onward
    refine ⟨fun id found => follows'.settled id _ found rfl,
      fun id found => follows'.settled id _ found rfl, ?_, ?_⟩
    · intro id resting flying
      have running := (safe'.manned id).2 flying
      cases resting with
      | inl complete =>
          rw [follows'.settled id _ complete rfl] at running
          contradiction
      | inr blocked =>
          rw [follows'.settled id _ blocked rfl] at running
          contradiction
    · intro id lost
      have lost' := follows'.lost lost
      refine ⟨lost', fun complete => ?_⟩
      cases lost' with
      | inl failed =>
          rw [complete] at failed
          contradiction
      | inr cancelled =>
          rw [complete] at cancelled
          contradiction

section Chain

/-- A step, and one that depends on it. -/
def chain : Graph where
  sharedContext := []
  tasks := [
    { id := ofString "a", title := ofString "A", aspect := ofString "testing"
      description := ofString "first", dependsOn := [], deliverable := ofString "a" },
    { id := ofString "b", title := ofString "B", aspect := ofString "testing"
      description := ofString "second", dependsOn := [ofString "a"]
      deliverable := ofString "b" }]
  plannedBy := none

def chainModel : Candidate := { modelId := ofString "m", pool := ofString "opencode" }

/-- The first step is dispatched and completes, then the second is dispatched. -/
def chainLabels : List Label := [
  .round false (fun _ => [chainModel]) 0,
  .settle (ofString "a") { attempts := [], result := .ok (ofString "done"), producers := [] } 1,
  .round false (fun _ => [chainModel]) 2]

theorem dependency_safe_chain : ∃ run,
    (loop chain [chainModel] []).exec System.always
      { scheduler := Scheduler.start chain [chainModel] [] } chainLabels = some run ∧
      run.scheduler.flights.map Flight.id = [ofString "b"] ∧ run.DependencySafe chain := by
  refine ⟨_, rfl, by decide, ?_⟩
  have ran : (loop chain [chainModel] []).exec System.always
    { scheduler := Scheduler.start chain [chainModel] [] } chainLabels = some _ := rfl
  exact (dependency_safe chain [chainModel] [] (.of_exec (.start rfl) ran)).1

theorem steps_of_round_chain : ∃ after : Run,
    after.scheduler.flights.map Flight.id = [ofString "a"] ∧
      (Scheduler.start chain [chainModel] []).Steps after.scheduler :=
  have stepped : Run.next { scheduler := Scheduler.start chain [chainModel] [] }
    (.round false (fun _ => [chainModel]) 0) = some _ := rfl
  ⟨_, by decide, steps_of_round (.start rfl) stepped⟩

end Chain

end Orchestrator

end TitanRunner
