import TitanRunner.Orchestrator.Loop

/-!
# How a run ends

Without a drain and without `cancel`, `#loop` takes every step of an accepted graph to an
end, as long as no round of it fails every ready step for want of a candidate while other
steps still wait and nothing is in flight: such a round leaves the loop.
-/

namespace TitanRunner

namespace Orchestrator

open Utf16 TransitionSystem

/-- A label without a drain, a cancel or a deadline. -/
def Label.steady : Label → Bool
  | .round drain _ _ => !drain
  | .settle _ _ _ => true
  | .cancel => false

/-- The runs that nothing interrupts. -/
def steadyLoop (graph : Graph) (candidateModels : List Candidate) (resume : Subtasks) :
    System Run Label where
  start := (loop graph candidateModels resume).start
  next run label := if label.steady then run.next label else none

/-- The loop is left with every step at an end. -/
structure Run.Settled (run : Run) : Prop where
  finished : run.phase = .finished
  terminal : ∀ entry ∈ run.scheduler.entries,
    entry.state = .complete ∨ entry.state = .failed ∨ entry.state = .blocked
  undispatched : run.scheduler.readyTasks = []
  undrained : run.finalState ≠ .drained

/-- A round with nothing in flight that finds no candidate for any ready step, while another
step waits that is not ready. -/
def Run.Strands (run : Run) : Label → Prop
  | .round _ ranked _ =>
      let scheduler := run.scheduler.propagateBlocked
      scheduler.flights = [] ∧ scheduler.readyTasks ≠ [] ∧
        (∀ entry ∈ scheduler.readyTasks, hasCandidate ranked entry = false) ∧
        ∃ entry ∈ scheduler.entries, entry.state = .pending ∧
          isReady scheduler.entries entry = false
  | .settle _ _ _ => False
  | .cancel => False

section Waiting

variable {graph : Graph} {candidateModels : List Candidate} {resume : Subtasks}
  {scheduler : Scheduler}

/-- The step of an entry is the one the graph has for its id. -/
theorem step_of_follows
    (follows : (Scheduler.start graph candidateModels resume).Follows scheduler) (id : StepId) :
    (scheduler.entries.get id).map Entry.step = KeyedList.get Step.id graph.tasks id := by
  rw [follows.steps]
  simp only [Scheduler.start, get_restoreEntries, Option.map_map]
  cases KeyedList.get Step.id graph.tasks id with
  | none => rfl
  | some step => simp

/-- While steps wait and none is in flight, one of them is ready or to be blocked: the
first in the order of the graph. -/
theorem exists_ready_or_blocked (valid : Valid graph.tasks) (safe : scheduler.Safe)
    (follows : (Scheduler.start graph candidateModels resume).Follows scheduler)
    (landed : scheduler.flights = []) {id : StepId}
    (waits : scheduler.entries.stateOf id = some .pending) :
    ∃ entry ∈ scheduler.entries, isReady scheduler.entries entry = true ∨
      isBlocked scheduler.entries entry = true := by
  have ⟨rank, falls⟩ := valid.ranked
  induction height : rank id using Nat.strongRecOn generalizing id with
  | _ size ih =>
      have ⟨entry, found, pending⟩ := Option.map_eq_some_iff.1 waits
      have member := KeyedList.mem_of_get found
      have step := step_of_follows follows id
      rw [found, Option.map_some] at step
      have stepMember := KeyedList.mem_of_get step.symm
      have stepId : entry.step.id = id := KeyedList.key_of_get step.symm
      by_cases complete : ∀ dependency ∈ entry.step.dependsOn,
          scheduler.entries.stateOf dependency = some .complete
      · exact ⟨entry, member, .inl (isReady_iff.2 ⟨pending, complete⟩)⟩
      · simp only [not_forall] at complete
        have ⟨dependency, listed, unfinished⟩ := complete
        have known := valid.known entry.step stepMember dependency listed
        have less := falls entry.step stepMember dependency listed
        have present : ∃ state, scheduler.entries.stateOf dependency = some state := by
          have same := step_of_follows follows dependency
          have ⟨other, there⟩ := KeyedList.exists_get_iff.2 known
          rw [there] at same
          have ⟨entry', found', _⟩ := Option.map_eq_some_iff.1 same
          exact ⟨entry'.state, Entries.stateOf_of_get found'⟩
        have blocked : ∀ down : scheduler.entries.Lost dependency ∨
            scheduler.entries.stateOf dependency = some .blocked,
            isBlocked scheduler.entries entry = true := fun down =>
          isBlocked_iff.2 ⟨pending, dependency, listed, down⟩
        have ⟨state, there⟩ := present
        cases state with
        | pending => exact ih (rank dependency) (height ▸ stepId ▸ less) there rfl
        | complete => exact absurd there unfinished
        | failed => exact ⟨entry, member, .inr (blocked (.inl (.inl there)))⟩
        | cancelled => exact ⟨entry, member, .inr (blocked (.inl (.inr there)))⟩
        | blocked => exact ⟨entry, member, .inr (blocked (.inr there))⟩
        | running =>
            have flying := (safe.manned dependency).1 there
            simp [landed] at flying
        | queued => exact absurd there (safe.plain dependency).1
        | malformedOutput => exact absurd there (safe.plain dependency).2

end Waiting

section Ends

variable {graph : Graph} {candidateModels : List Candidate} {resume : Subtasks} {run after : Run}
  {ranked : Step → List Candidate} {at' : Time}

/-- A run that is left with nothing in flight and nothing waiting is settled. -/
theorem Run.settled_of (safe : run.scheduler.Safe) (live : run.cancelled = false)
    (finished : run.phase = .finished) (landed : run.scheduler.flights = [])
    (uncancelled : ∀ id, run.scheduler.entries.stateOf id ≠ some .cancelled)
    (nonePending : ∀ id, run.scheduler.entries.stateOf id ≠ some .pending) : run.Settled := by
  have terminal : ∀ entry ∈ run.scheduler.entries,
      entry.state = .complete ∨ entry.state = .failed ∨ entry.state = .blocked := by
    intro entry inside
    have there := Entries.stateOf_of_get (safe.get_of_mem inside)
    cases state : entry.state with
    | complete => exact .inl rfl
    | failed => exact .inr (.inl rfl)
    | blocked => exact .inr (.inr rfl)
    | pending => exact absurd (there.trans (congrArg some state)) (nonePending entry.id)
    | cancelled => exact absurd (there.trans (congrArg some state)) (uncancelled entry.id)
    | queued => exact absurd (there.trans (congrArg some state)) (safe.plain entry.id).1
    | malformedOutput => exact absurd (there.trans (congrArg some state)) (safe.plain entry.id).2
    | running =>
        have flying := (safe.manned entry.id).1 (there.trans (congrArg some state))
        simp [landed] at flying
  refine ⟨finished, terminal, ?_, ?_⟩
  · apply List.filter_eq_nil_iff.2
    intro entry inside ready
    exact nonePending entry.id (by
      rw [Entries.stateOf_of_get (safe.get_of_mem inside), isReady_pending ready])
  · have undrained : run.scheduler.drained = false := by
      apply List.any_eq_false.2
      intro entry inside open'
      cases terminal entry inside with
      | inl complete => simp [complete] at open'
      | inr rest => cases rest with
        | inl failed => simp [failed] at open'
        | inr blocked => simp [blocked] at open'
    rw [Run.finalState, live, undrained]
    simp only [Bool.false_eq_true, if_false]
    split <;> simp

/-- What an uninterrupted run is like before, between and after its rounds. -/
structure Run.Steady (graph : Graph) (candidateModels : List Candidate) (resume : Subtasks)
    (run : Run) : Prop where
  safe : run.scheduler.Safe
  follows : (Scheduler.start graph candidateModels resume).Follows run.scheduler
  live : run.cancelled = false
  uncancelled : ∀ id, run.scheduler.entries.stateOf id ≠ some .cancelled
  awaits : run.phase = .waiting → run.scheduler.flights ≠ []
  ended : run.phase = .finished → run.Settled

theorem Run.steady_start :
    Run.Steady graph candidateModels resume
      { scheduler := Scheduler.start graph candidateModels resume } where
  safe := Scheduler.safe_start
  follows := .refl _
  live := rfl
  uncancelled id found := by
    have start := stateOf_start found
    simp at start
  awaits := by simp
  ended := by simp

/-- What stays pending through a round was not ready. -/
theorem pending_after_dispatch {scheduler : Scheduler} (safe : scheduler.Safe) {id : StepId}
    (waits : (scheduler.dispatchReady ranked at').1.entries.stateOf id = some .pending) :
    ∃ entry ∈ scheduler.entries, entry.id = id ∧ entry.state = .pending ∧
      isReady scheduler.entries entry = false := by
  have ⟨dispatches, made⟩ := safe.dispatchReady ranked at'
  have before : scheduler.entries.stateOf id = some .pending := by
    cases dispatches.states id with
    | inl same => exact same ▸ waits
    | inr moved =>
        rw [waits] at moved
        exact absurd moved.2 (by simp)
  have ⟨entry, found, pending⟩ := Option.map_eq_some_iff.1 before
  have entryId : entry.id = id := Entries.id_of_get found
  refine ⟨entry, KeyedList.mem_of_get found, entryId, pending, ?_⟩
  rw [Bool.eq_false_iff]
  intro ready
  have started := made entry (List.mem_filter.2 ⟨KeyedList.mem_of_get found, ready⟩)
  rw [entryId, waits] at started
  split at started <;> contradiction

/-- Dispatching lands nothing. -/
theorem landed_before_dispatch {scheduler : Scheduler} (safe : scheduler.Safe)
    (landed : (scheduler.dispatchReady ranked at').1.flights = []) : scheduler.flights = [] := by
  have ⟨dispatches, _⟩ := safe.dispatchReady ranked at'
  apply List.eq_nil_iff_forall_not_mem.2
  intro flight flying
  have running := (safe.manned flight.id).2 (List.mem_map_of_mem flying)
  have still : (scheduler.dispatchReady ranked at').1.entries.stateOf flight.id =
      some .running := by
    cases dispatches.states flight.id with
    | inl same => exact same.trans running
    | inr moved =>
        have waits := moved.1.1
        rw [running] at waits
        contradiction
  rw [dispatches.safe.manned, landed] at still
  contradiction

/-- A round that does not strand the run keeps it steady and starts no new work. -/
theorem Run.Steady.round (valid : Valid graph.tasks)
    (steady : run.Steady graph candidateModels resume)
    (fine : ¬ run.Strands (.round false ranked at')) :
    (run.round false ranked at').Steady graph candidateModels resume ∧
      (run.round false ranked at').scheduler.unsettled ≤ run.scheduler.unsettled ∧
      (run.round false ranked at').phase ≠ .ready := by
  obtain ⟨blocks, quiet⟩ := steady.safe.propagateBlocked
  obtain ⟨dispatches, made⟩ := blocks.safe.dispatchReady ranked at'
  have unfolded : run.round false ranked at' =
      { run with
        scheduler := (run.scheduler.propagateBlocked.dispatchReady ranked at').1
        phase := phaseAfter (run.scheduler.propagateBlocked.dispatchReady ranked at').2
          (run.scheduler.propagateBlocked.dispatchReady ranked at').1 } := by
    simp [Run.round, steady.live]
  have follows := steady.follows.trans (blocks.follows.trans dispatches.follows)
  have uncancelled : ∀ id,
      (run.scheduler.propagateBlocked.dispatchReady ranked at').1.entries.stateOf id ≠
        some .cancelled := by
    intro id cancelled
    cases dispatches.states id with
    | inr moved =>
        rw [cancelled] at moved
        exact absurd moved.2 (by simp)
    | inl same =>
        rw [cancelled] at same
        cases blocks.states id with
        | inr moved =>
            rw [← same] at moved
            exact absurd moved.2 (by simp)
        | inl same' => exact steady.uncancelled id (same' ▸ same.symm)
  rw [unfolded]
  refine ⟨⟨dispatches.safe, follows, steady.live, uncancelled, ?_, ?_⟩, ?_, ?_⟩
  · -- a step that was dispatched is in flight
    intro waiting landed
    simp only [phaseAfter] at waiting
    split at waiting
    next => contradiction
    next some' =>
      rw [not_and] at some'
      have dispatched : (run.scheduler.propagateBlocked.dispatchReady ranked at').2 ≠ 0 :=
        fun zero => some' zero landed
      obtain ⟨entry, inside, candidate⟩ := List.countP_pos_iff.1 (Nat.pos_of_ne_zero dispatched)
      have started := made entry inside
      rw [if_pos candidate, dispatches.safe.manned, landed] at started
      contradiction
  · intro finished
    simp only [phaseAfter] at finished
    split at finished
    next left =>
      have landed := left.2
      have settled := @Run.settled_of
        { run with
          scheduler := (run.scheduler.propagateBlocked.dispatchReady ranked at').1
          phase := .finished }
        dispatches.safe steady.live rfl landed uncancelled
      rw [phaseAfter, if_pos left]
      apply settled
      -- a step that still waits would have made the round a stranding one
      intro id waits
      obtain ⟨waiting, inside, _, pending, unready⟩ := pending_after_dispatch blocks.safe waits
      have landed' := landed_before_dispatch blocks.safe landed
      apply fine
      refine ⟨landed', ?_, ?_, waiting, inside, pending, unready⟩
      · intro noneReady
        have waits' : run.scheduler.propagateBlocked.entries.stateOf waiting.id =
            some .pending := by
          rw [Entries.stateOf_of_get (blocks.safe.get_of_mem inside), pending]
        obtain ⟨entry, member, readyOrBlocked⟩ := exists_ready_or_blocked valid blocks.safe
          (steady.follows.trans blocks.follows) landed' waits'
        cases readyOrBlocked with
        | inl ready => exact List.filter_eq_nil_iff.1 noneReady entry member ready
        | inr blocked =>
            rw [quiet entry member] at blocked
            contradiction
      · intro entry ready
        have none' := List.countP_eq_zero.1 left.1 entry ready
        simpa using none'
    next => contradiction
  · have fewer : run.scheduler.propagateBlocked.unsettled ≤ run.scheduler.unsettled := by
      rw [Scheduler.unsettled, Scheduler.unsettled, blocks.flights]
      cases blocks.fewer with
      | inl same => rw [same]
      | inr less => omega
    exact dispatches.unsettled.trans fewer
  · simp only [phaseAfter]
    split <;> simp

/-- A step in flight that settles leaves less to do. -/
theorem Run.Steady.settle (steady : run.Steady graph candidateModels resume)
    (unsettled : ¬ run.Settled) {id : StepId} {outcome : Outcome}
    (stepped : run.next (.settle id outcome at') = some after) :
    after.Steady graph candidateModels resume ∧
      after.scheduler.unsettled + 1 = run.scheduler.unsettled ∧ after.phase = .ready := by
  have ⟨flight, flying, held⟩ := Option.bind_eq_some_iff.1 stepped
  have ⟨entry, found, made⟩ := Option.map_eq_some_iff.1 held
  subst made
  have entryId : entry.id = id := Entries.id_of_get found
  have inFlight : entry.id ∈ run.scheduler.flights.map Flight.id :=
    entryId ▸ KeyedList.mem_keys_of_get flying
  have ended := entry.settle_state outcome run.cancelled at'
  have ⟨moves, safe, fewer⟩ := steady.safe.land (entryId ▸ found) inFlight
    (entry.settle_step outcome run.cancelled at') (ended.imp_right fun rest => rest.imp_right And.left)
  have ready : (if run.phase = .waiting then Phase.ready else run.phase) = .ready := by
    cases phase : run.phase with
    | ready => rfl
    | waiting => rfl
    | finished => exact absurd (steady.ended phase) unsettled
  refine ⟨⟨safe, steady.follows.trans (.of_moves moves), steady.live, ?_, ?_, ?_⟩, fewer, ready⟩
  · intro other cancelled
    rw [moves.stateOf] at cancelled
    split at cancelled
    next =>
      rw [Option.some.injEq] at cancelled
      cases ended with
      | inl complete =>
          rw [complete] at cancelled
          contradiction
      | inr rest =>
          cases rest with
          | inl failed =>
              rw [failed] at cancelled
              contradiction
          | inr on =>
              rw [steady.live] at on
              exact Bool.false_ne_true on.2
    next => exact steady.uncancelled other cancelled
  · intro waiting
    rw [ready] at waiting
    contradiction
  · intro finished
    rw [ready] at finished
    contradiction

/-- Short of the end the loop goes round, or some step in flight can settle. -/
theorem Run.Steady.goes (steady : run.Steady graph candidateModels resume)
    (unsettled : ¬ run.Settled) :
    ∃ label after, (steadyLoop graph candidateModels resume).next run label = some after := by
  cases phase : run.phase with
  | finished => exact absurd (steady.ended phase) unsettled
  | ready =>
      exact ⟨.round false (fun _ => []) 0, run.round false (fun _ => []) 0, by
        simp [steadyLoop, Label.steady, Run.next, phase]⟩
  | waiting =>
      obtain ⟨flight, flying⟩ := List.exists_mem_of_ne_nil _ (steady.awaits phase)
      have keyed : flight.id ∈ run.scheduler.flights.map Flight.id := List.mem_map_of_mem flying
      obtain ⟨found, there⟩ := KeyedList.exists_get_iff.2 keyed
      have running := (steady.safe.manned flight.id).2 keyed
      obtain ⟨entry, present, _⟩ := Option.map_eq_some_iff.1 running
      have taken : ((steadyLoop graph candidateModels resume).next run (.settle flight.id
          { attempts := [], result := .error cancelledError, producers := [] } 0)).isSome = true := by
        simp [steadyLoop, Label.steady, Run.next, there, present]
      exact ⟨_, Option.isSome_iff_exists.1 taken⟩

/-- The loop settles every accepted graph, in whatever order the steps in flight settle and
whatever they come to, in every run none of whose rounds strands it. -/
theorem settles_of_not_strands {tasks : List Json} {maxTasks : Nat}
    (accepted : validateTaskGraph (some tasks) maxTasks = some []) (graph : Graph)
    (planned : graph.tasks = tasks.map stepOf) (candidateModels : List Candidate)
    (resume : Subtasks) :
    System.Inevitably (steadyLoop graph candidateModels resume)
      (fun run label => ¬ run.Strands label) Run.Settled
      { scheduler := Scheduler.start graph candidateModels resume } := by
  have valid : Valid graph.tasks := planned ▸ valid_of_validateTaskGraph accepted
  apply System.Inevitably.of_measure (Run.Steady graph candidateModels resume)
    (fun run => 2 * run.scheduler.unsettled + if run.phase = .ready then 1 else 0)
  · intro run steady unsettled
    exact steady.goes unsettled
  · intro run label after steady unsettled fine stepped
    simp only [steadyLoop] at stepped
    split at stepped
    next calm =>
      cases label with
      | cancel => contradiction
      | settle id outcome at' =>
          obtain ⟨steady', fewer, ready⟩ := steady.settle unsettled stepped
          refine ⟨steady', ?_⟩
          rw [if_pos ready]
          split <;> omega
      | round drain ranked at' =>
          have onward : drain = false := by simpa [Label.steady] using calm
          subst onward
          simp only [Run.next] at stepped
          split at stepped
          next may =>
            cases stepped
            obtain ⟨steady', fewer, waits⟩ := steady.round valid fine
            refine ⟨steady', ?_⟩
            rw [if_neg waits, if_pos may.1]
            omega
          next => contradiction
    next => contradiction
  · exact Run.steady_start

end Ends

section Pair

/-- A task as a plan has it. -/
def draft (id : String) (dependsOn : List String) : Json :=
  .object [
    (ofString "id", .string (ofString id)), (ofString "title", .string (ofString "Title")),
    (ofString "aspect", .string (ofString "testing")),
    (ofString "description", .string (ofString "what to do")),
    (ofString "dependsOn", .array (dependsOn.map fun id => .string (ofString id))),
    (ofString "estimatedComplexity", .string (ofString "low")),
    (ofString "deliverable", .string (ofString "a report"))]

/-- A plan of two steps, the second on the first. -/
def pair : List Json := [draft "a" [], draft "b" ["a"]]

def pairGraph : Graph where
  sharedContext := []
  tasks := pair.map stepOf
  plannedBy := none

theorem settles_of_not_strands_pair :
    System.Inevitably (steadyLoop pairGraph [chainModel] [])
      (fun run label => ¬ run.Strands label) Run.Settled
      { scheduler := Scheduler.start pairGraph [chainModel] [] } := by
  have accepted : validateTaskGraph (some pair) 8 = some [] := by decide
  exact settles_of_not_strands accepted pairGraph rfl [chainModel] []

/-- No model can be given the first step: it fails, and the loop leaves the second pending. -/
theorem not_settles : ¬ ∀ (tasks : List Json) (maxTasks : Nat),
    validateTaskGraph (some tasks) maxTasks = some [] →
    ∀ graph : Graph, graph.tasks = tasks.map stepOf →
    ∀ (candidateModels : List Candidate) (resume : Subtasks),
      System.Inevitably (steadyLoop graph candidateModels resume) System.always Run.Settled
        { scheduler := Scheduler.start graph candidateModels resume } := by
  intro settles
  have accepted : validateTaskGraph (some pair) 8 = some [] := by decide
  have run := settles pair 8 accepted pairGraph rfl [chainModel] []
  cases run with
  | here settled => cases settled.finished
  | next _ onward =>
      have stranded := onward (.round false (fun _ => []) 0) _ trivial rfl
      cases stranded with
      | here settled => exact settled.undrained (by decide)
      | next takes _ =>
          have ⟨label, after, stepped⟩ := takes
          cases label with
          | cancel => cases stepped
          | settle id outcome at' => cases stepped
          | round drain ranked at' =>
              simp only [steadyLoop, Run.next] at stepped
              split at stepped
              next =>
                split at stepped
                next may => cases may.1
                next => contradiction
              next => contradiction

end Pair

end Orchestrator

end TitanRunner
