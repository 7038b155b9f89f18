import TitanRunner.Orchestrator.LoopEnds

/-!
# The retry of one step

`retryTask` of `orchestrator/scheduler.js`: a step that ended badly is armed again and
dispatched.  What was blocked because of it stays blocked, since `#propagateBlocked` and
`#readyTasks` look at pending steps only.
-/

namespace TitanRunner

namespace Orchestrator

open Utf16 TransitionSystem

/-- The states `retryTask` takes a step from. -/
def StepState.retriable : StepState → Bool
  | .failed | .blocked | .malformedOutput => true
  | .pending | .queued | .running | .complete | .cancelled => false

def Entry.rearm (entry : Entry) : Entry :=
  { entry with attempts := [], error := none, state := .pending }

/-- `retryTask`; `none` is its `false`. -/
def Run.retryTask (run : Run) (id : StepId) (ranked : Step → List Candidate) (at' : Time) :
    Option Run :=
  if run.cancelled then none
  else
    (run.scheduler.entries.get id).bind fun entry =>
      if entry.state.retriable then
        some { run with
          scheduler := ((run.scheduler.setEntry entry.rearm).dispatchReady ranked at').1 }
      else none

/-! ## What a retry and the run after it leave alone -/

/-- Every step but `id` is settled and as it was, and only `id` may be in flight. -/
structure Scheduler.Alone (before : Scheduler) (id : StepId) (after : Scheduler) : Prop where
  keyed : (after.entries.map Entry.id).Nodup
  settled : ∀ other entry, other ≠ id → before.entries.get other = some entry →
    entry.state.settled = true
  same : ∀ other, other ≠ id → after.entries.get other = before.entries.get other
  flown : ∀ flight ∈ after.flights, flight.id = id

namespace Scheduler.Alone

variable {before scheduler : Scheduler} {id : StepId} {entry : Entry} {flight : Flight}

/-- A step that waits is `id`. -/
theorem id_of_unsettled (alone : before.Alone id scheduler) (inside : entry ∈ scheduler.entries)
    (waits : entry.state.settled = false) : entry.id = id := by
  by_contra other
  have found : scheduler.entries.get entry.id = some entry :=
    (KeyedList.get_eq_some_iff alone.keyed).2 ⟨inside, rfl⟩
  rw [alone.same entry.id other] at found
  rw [alone.settled entry.id entry other found] at waits
  contradiction

theorem setEntry (alone : before.Alone id scheduler) (own : entry.id = id) :
    before.Alone id (scheduler.setEntry entry) where
  keyed := by
    rw [Scheduler.setEntry, KeyedList.keys_set]
    exact alone.keyed
  settled := alone.settled
  same other apart := by
    rw [← alone.same other apart]
    simp only [Scheduler.setEntry, Entries.get, KeyedList.get_set, own, if_neg apart]
    exact Option.map_id'
  flown := alone.flown

theorem launch (alone : before.Alone id scheduler) (own : entry.id = id)
    (flies : flight.id = id) : before.Alone id (scheduler.launch entry flight) where
  keyed := (alone.setEntry own).keyed
  settled := alone.settled
  same := (alone.setEntry own).same
  flown other flying := by
    cases List.mem_append.1 flying with
    | inl earlier => exact alone.flown other earlier
    | inr here => exact List.mem_singleton.1 here ▸ flies

theorem land (alone : before.Alone id scheduler) (own : entry.id = id) :
    before.Alone id (scheduler.land entry) where
  keyed := (alone.setEntry own).keyed
  settled := alone.settled
  same := (alone.setEntry own).same
  flown flight flying := alone.flown flight (List.mem_of_mem_filter flying)

/-- A fold keeps the others alone if each step that waits does. -/
theorem foldl {step : Scheduler → Entry → Scheduler} {records : List Entry}
    (kept : ∀ middle entry, before.Alone id middle → entry ∈ records →
      before.Alone id (step middle entry))
    (alone : before.Alone id scheduler) : before.Alone id (records.foldl step scheduler) := by
  induction records generalizing scheduler with
  | nil => exact alone
  | cons first rest ih =>
      apply ih
      · exact fun middle entry alone inside => kept middle entry alone (.tail first inside)
      · exact kept scheduler first alone List.mem_cons_self

theorem blockPass (alone : before.Alone id scheduler) : before.Alone id scheduler.blockPass := by
  apply alone.foldl
  intro middle entry alone' inside
  rw [Scheduler.blockEntry]
  split
  next blocked =>
    have own := alone.id_of_unsettled inside (by rw [isBlocked_pending blocked]; rfl)
    exact alone'.setEntry own
  next => exact alone'

theorem blockPasses (alone : before.Alone id scheduler) (fuel : Nat) :
    before.Alone id (scheduler.blockPasses fuel) := by
  induction fuel generalizing scheduler with
  | zero => exact alone
  | succ fuel ih =>
      rw [Scheduler.blockPasses]
      split
      next => exact ih alone.blockPass
      next => exact alone

theorem dispatchReady (alone : before.Alone id scheduler) (ranked : Step → List Candidate)
    (at' : Time) : before.Alone id (scheduler.dispatchReady ranked at').1 := by
  apply alone.foldl
  intro middle entry alone' inside
  obtain ⟨member, ready⟩ := List.mem_filter.1 inside
  have own := alone.id_of_unsettled member (by rw [isReady_pending ready]; rfl)
  rw [Scheduler.dispatchEntry]
  split
  next => exact alone'.setEntry own
  next => exact alone'.launch own own

theorem cancel (alone : before.Alone id scheduler) : before.Alone id scheduler.cancel where
  keyed := by
    rw [Scheduler.cancel, List.map_map, List.map_congr_left fun entry _ => entry.cancel_id]
    exact alone.keyed
  settled := alone.settled
  same other apart := by
    rw [Scheduler.get_cancel, alone.same other apart]
    cases found : before.entries.get other with
    | none => rfl
    | some entry =>
        have settled := alone.settled other entry apart found
        rw [Option.map_some, Entry.cancel, if_neg]
        intro waits
        cases waits with
        | inl pending => simp [pending, StepState.settled] at settled
        | inr queued => simp [queued, StepState.settled] at settled
  flown := alone.flown

end Scheduler.Alone

section After

variable {before : Scheduler} {id : StepId} {run after : Run} {label : Label}

/-- No step of a run after the retry touches another step. -/
theorem Run.alone_next (alone : before.Alone id run.scheduler)
    (stepped : run.next label = some after) : before.Alone id after.scheduler := by
  cases label with
  | round drain ranked at' =>
      simp only [Run.next] at stepped
      split at stepped
      next =>
        cases stepped
        have blocked := alone.blockPasses run.scheduler.entries.length
        rw [Run.round]
        split
        next => exact alone
        next =>
          split
          next => exact blocked
          next => exact blocked.dispatchReady ranked at'
      next => contradiction
  | settle other outcome at' =>
      obtain ⟨flight, flying, held⟩ := Option.bind_eq_some_iff.1 stepped
      obtain ⟨entry, found, made⟩ := Option.map_eq_some_iff.1 held
      subst made
      have own : other = id := by
        rw [← KeyedList.key_of_get flying]
        exact alone.flown flight (KeyedList.mem_of_get flying)
      apply alone.land
      rw [Entry.id, Entry.settle_step, ← own]
      exact Entries.id_of_get found
  | cancel =>
      simp only [Run.next] at stepped
      split at stepped
      next => contradiction
      next =>
        cases stepped
        exact alone.cancel

theorem Run.alone_of_onward {graph : Graph} {candidateModels : List Candidate} {resume : Subtasks}
    (alone : before.Alone id run.scheduler)
    (onward : ((loop graph candidateModels resume).onward run).Reachable System.always after) :
    before.Alone id after.scheduler := by
  apply onward.invariant fun later => before.Alone id later.scheduler
  · intro later same
    exact same ▸ alone
  · intro middle label later _ alone' _ stepped
    exact Run.alone_next alone' stepped

end After

/-- A run with every step settled and none in flight. -/
structure Run.AtRest (run : Run) : Prop where
  landed : run.scheduler.flights = []
  settled : ∀ entry ∈ run.scheduler.entries, entry.state.settled = true

section Retry

variable {run retried : Run} {id : StepId} {ranked : Step → List Candidate} {at' : Time}

theorem Run.retryTask_eq (retry : run.retryTask id ranked at' = some retried) :
    run.cancelled = false ∧ ∃ entry, run.scheduler.entries.get id = some entry ∧
      retried = { run with
        scheduler := ((run.scheduler.setEntry entry.rearm).dispatchReady ranked at').1 } := by
  simp only [Run.retryTask] at retry
  split at retry
  next => contradiction
  next live =>
    obtain ⟨entry, found, held⟩ := Option.bind_eq_some_iff.1 retry
    split at held
    next =>
      cases held
      exact ⟨by simpa using live, entry, found, rfl⟩
    next => contradiction

theorem Run.alone_rearm (safe : run.scheduler.Safe) (rest : run.AtRest) {entry : Entry}
    (found : run.scheduler.entries.get id = some entry) :
    run.scheduler.Alone id (run.scheduler.setEntry entry.rearm) := by
  have own : entry.id = id := Entries.id_of_get found
  have own' : entry.rearm.id = id := own
  apply Scheduler.Alone.setEntry _ own'
  refine ⟨safe.keyed, ?_, fun _ _ => rfl, by simp [rest.landed]⟩
  exact fun other entry _ found => rest.settled entry (KeyedList.mem_of_get found)

theorem Run.alone_retryTask (safe : run.scheduler.Safe) (rest : run.AtRest)
    (retry : run.retryTask id ranked at' = some retried) :
    run.scheduler.Alone id retried.scheduler := by
  obtain ⟨_, entry, found, rfl⟩ := Run.retryTask_eq retry
  exact (Run.alone_rearm safe rest found).dispatchReady ranked at'

end Retry

/-! ## What is blocked only because of one step -/

/-- A step stands on what it depends on, directly or through others. -/
def Graph.StandsOn (graph : Graph) : StepId → StepId → Prop :=
  Relation.TransGen fun id dependency => dependency ∈ dependenciesOf graph.tasks id

/-- A blocked step below `id`, all of whose dependencies are complete but for `id` and those
that stand on `id` themselves. -/
structure Run.BlockedOnlyBy (run : Run) (graph : Graph) (other id : StepId) : Prop where
  blocked : run.scheduler.entries.stateOf other = some .blocked
  below : graph.StandsOn other id
  complete : ∀ dependency, graph.StandsOn other dependency → dependency ≠ id →
    ¬ graph.StandsOn dependency id →
    run.scheduler.entries.stateOf dependency = some .complete

/-- A ranking that has a model for every step. -/
structure Scheduler.Supplied (scheduler : Scheduler) (ranked : Step → List Candidate) : Prop where
  known : ∀ entry ∈ scheduler.entries, ranked entry.step ⊆ scheduler.candidateModels
  found : ∀ entry ∈ scheduler.entries, hasCandidate ranked entry = true

/-- A label of a run in which every model answers and nothing interrupts. -/
def Label.succeeds (run : Run) : Label → Prop
  | .round drain ranked _ => drain = false ∧ run.scheduler.Supplied ranked
  | .settle _ outcome _ => outcome.result.isOk = true
  | .cancel => False

/-- The loop is left, and nothing is in flight. -/
structure Run.Ended (run : Run) : Prop where
  finished : run.phase = .finished
  landed : run.scheduler.flights = []

/-- What a retry of `id` is for: in every run after it in which the models answer, what was
blocked only because of `id` ends complete, and no run after it executes a step that does
not stand on `id`. -/
structure Run.Revives (run : Run) (graph : Graph) (candidateModels : List Candidate)
    (resume : Subtasks) (id : StepId) (retried : Run) : Prop where
  revived : ∀ later,
    ((loop graph candidateModels resume).onward retried).Reachable Label.succeeds later →
    later.Ended → ∀ other, run.BlockedOnlyBy graph other id →
      later.scheduler.entries.stateOf other = some .complete
  confined : ∀ later,
    ((loop graph candidateModels resume).onward retried).Reachable System.always later →
    ∀ flight ∈ later.scheduler.flights, flight.id = id ∨ graph.StandsOn flight.id id

section Revival

variable {graph : Graph} {candidateModels : List Candidate} {resume : Subtasks}
  {run retried : Run} {id : StepId} {ranked : Step → List Candidate} {at' : Time}

/-- No step of an accepted graph stands on itself. -/
theorem Graph.not_standsOn_self (valid : Valid graph.tasks) (id : StepId) :
    ¬ graph.StandsOn id id := by
  obtain ⟨rank, falls⟩ := valid.ranked
  have lower : ∀ below above, graph.StandsOn below above → rank above < rank below := by
    intro below above stands
    have edge : ∀ id dependency, dependency ∈ dependenciesOf graph.tasks id →
        rank dependency < rank id := by
      intro id dependency listed
      rw [dependenciesOf] at listed
      cases found : KeyedList.get Step.id graph.tasks id with
      | none => simp [found] at listed
      | some step =>
          rw [found, Option.map_some, Option.getD_some] at listed
          rw [← KeyedList.key_of_get found]
          exact falls step (KeyedList.mem_of_get found) dependency listed
    induction stands with
    | single listed => exact edge _ _ listed
    | tail _ listed ih => exact (edge _ _ listed).trans ih
  intro cycle
  exact (lower id id cycle).false

/-- The step that is retried is dispatched alone if its dependencies are complete. -/
theorem Run.retryTask_launch (safe : run.scheduler.Safe) (rest : run.AtRest)
    (supplied : run.scheduler.Supplied ranked) {entry : Entry}
    (found : run.scheduler.entries.get id = some entry)
    (complete : ∀ dependency ∈ entry.step.dependsOn, dependency ≠ id ∧
      run.scheduler.entries.stateOf dependency = some .complete) :
    ∃ flight started, started.step = entry.step ∧
      ((run.scheduler.setEntry entry.rearm).dispatchReady ranked at').1 =
        (run.scheduler.setEntry entry.rearm).launch started flight := by
  have alone := Run.alone_rearm safe rest found
  have own : entry.id = id := Entries.id_of_get found
  have armed : (run.scheduler.setEntry entry.rearm).entries.get id = some entry.rearm := by
    have set := @Entries.get_set entry _ entry.rearm (by rwa [own]) rfl id
    rwa [if_pos own.symm] at set
  have ready : isReady (run.scheduler.setEntry entry.rearm).entries entry.rearm = true := by
    apply isReady_iff.2 ⟨rfl, _⟩
    intro dependency listed
    obtain ⟨apart, done⟩ := complete dependency listed
    rw [Entries.stateOf, alone.same dependency apart]
    exact done
  have only : (run.scheduler.setEntry entry.rearm).readyTasks = [entry.rearm] := by
    have inside := KeyedList.mem_of_get armed
    rw [Scheduler.readyTasks, List.filter_congr (q := fun other => other = entry.rearm),
      List.filter_eq, List.count_eq_one_of_mem (List.Nodup.of_map Entry.id alone.keyed) inside,
      List.replicate_one]
    intro other member
    rw [Bool.eq_iff_iff, decide_eq_true_iff]
    constructor
    · intro due
      have waits := alone.id_of_unsettled member (by rw [isReady_pending due]; rfl)
      have here : (run.scheduler.setEntry entry.rearm).entries.get other.id = some other :=
        (KeyedList.get_eq_some_iff alone.keyed).2 ⟨member, rfl⟩
      rw [waits, armed, Option.some.injEq] at here
      exact here.symm
    · intro same
      exact same ▸ ready
  have candidate := supplied.found entry (KeyedList.mem_of_get found)
  cases distinct : distinctModels (ranked entry.step) with
  | nil => simp [hasCandidate, distinct] at candidate
  | cons current others =>
      have distinct' : distinctModels (ranked entry.rearm.step) = current :: others := distinct
      refine ⟨{ id := entry.id, current, others, answered := [] },
        entry.rearm.start current at', rfl, ?_⟩
      rw [Scheduler.dispatchReady, only, List.foldl_cons, List.foldl_nil, Scheduler.dispatchEntry]
      simp only [distinct']
      rfl

/-- A round with every step settled and none in flight ends the loop. -/
theorem Run.round_of_atRest (rest : run.AtRest) (drain : Bool) (live : run.cancelled = false) :
    run.round drain ranked at' = { run with phase := .finished } := by
  have unblocked : run.scheduler.propagateBlocked = run.scheduler := by
    have quiet : run.scheduler.entries.any (isBlocked run.scheduler.entries) = false := by
      apply List.any_eq_false.2
      intro entry inside blocked
      have settled := rest.settled entry inside
      rw [isBlocked_pending blocked] at settled
      contradiction
    rw [Scheduler.propagateBlocked]
    cases run.scheduler.entries.length with
    | zero => rfl
    | succ fuel => rw [Scheduler.blockPasses, if_neg (by simp [quiet])]
  have none' : run.scheduler.readyTasks = [] := by
    apply List.filter_eq_nil_iff.2
    intro entry inside ready
    have settled := rest.settled entry inside
    rw [isReady_pending ready] at settled
    contradiction
  simp only [Run.round, live, Bool.false_eq_true, unblocked, Scheduler.dispatchReady,
    none', List.foldl_nil, List.countP_nil, phaseAfter, rest.landed, and_self, if_true, ite_self]

theorem Scheduler.Supplied.of_steps {before after : Scheduler} (supplied : before.Supplied ranked)
    (keyed : (after.entries.map Entry.id).Nodup)
    (steps : ∀ id, (after.entries.get id).map Entry.step = (before.entries.get id).map Entry.step)
    (candidateModels : after.candidateModels = before.candidateModels) :
    after.Supplied ranked := by
  have earlier : ∀ entry ∈ after.entries, ∃ old ∈ before.entries, old.step = entry.step := by
    intro entry inside
    have same := steps entry.id
    rw [Entries.get, (KeyedList.get_eq_some_iff keyed).2 ⟨inside, rfl⟩, Option.map_some] at same
    obtain ⟨old, found, step⟩ := Option.map_eq_some_iff.1 same.symm
    exact ⟨old, KeyedList.mem_of_get found, step⟩
  constructor
  · intro entry inside
    obtain ⟨old, member, same⟩ := earlier entry inside
    rw [candidateModels, ← same]
    exact supplied.known old member
  · intro entry inside
    obtain ⟨old, member, same⟩ := earlier entry inside
    have had := supplied.found old member
    rw [hasCandidate, same] at had
    exact had

/-- The run after the retry in which the step succeeds: it ends, and nothing else moved. -/
theorem Run.retryTask_ends {before : Scheduler} (alone : before.Alone id retried.scheduler)
    (live : retried.cancelled = false) (supplied : retried.scheduler.Supplied ranked)
    {flight : Flight} (flies : retried.scheduler.flights = [flight]) {entry : Entry}
    (found : retried.scheduler.entries.get id = some entry) :
    ∃ later, ((loop graph candidateModels resume).onward retried).Reachable Label.succeeds later ∧
      later.Ended := by
  have flightId : flight.id = id := alone.flown flight (by simp [flies])
  have entryId : entry.id = id := Entries.id_of_get found
  let outcome : Outcome := { attempts := [], result := .ok [], producers := [] }
  let landed : Run :=
    { retried with
      scheduler := retried.scheduler.land (entry.settle outcome retried.cancelled 0)
      phase := if retried.phase = .waiting then .ready else retried.phase }
  have settled : (entry.settle outcome retried.cancelled 0).state = .complete := by
    rw [live]
    rfl
  have settledStep := entry.settle_step outcome retried.cancelled 0
  have stepped : ((loop graph candidateModels resume).onward retried).next retried
      (.settle id outcome 0) = some landed := by
    have flying : KeyedList.get Flight.id retried.scheduler.flights id = some flight := by
      rw [flies, KeyedList.get_cons, if_pos flightId]
      rfl
    change (KeyedList.get Flight.id retried.scheduler.flights id).bind _ = _
    rw [flying, Option.bind_some, found, Option.map_some]
  have answered : Label.succeeds retried (.settle id outcome 0) := rfl
  have reached : ((loop graph candidateModels resume).onward retried).Reachable Label.succeeds
      landed := .step (.start rfl) answered stepped
  have alone' : before.Alone id landed.scheduler :=
    alone.land (by rw [Entry.id, settledStep]; exact entryId)
  have there := Entries.get_set (entry.settle outcome retried.cancelled 0) (entryId ▸ found)
    settledStep
  have rest : landed.AtRest := by
    constructor
    · change retried.scheduler.flights.filter _ = []
      rw [flies, Entry.id, settledStep]
      exact List.filter_eq_nil_iff.2 (by simp [flightId, ← entryId, Entry.id])
    · intro other inside
      by_cases same : other.id = id
      · have here : landed.scheduler.entries.get other.id = some other :=
          (KeyedList.get_eq_some_iff alone'.keyed).2 ⟨inside, rfl⟩
        have set := there other.id
        rw [if_pos (same.trans entryId.symm)] at set
        have is : entry.settle outcome retried.cancelled 0 = other :=
          Option.some.inj (set.symm.trans here)
        rw [← is, settled]
        rfl
      · cases waits : other.state.settled with
        | true => rfl
        | false => exact absurd (alone'.id_of_unsettled inside waits) same
  cases phase : landed.phase with
  | finished => exact ⟨landed, reached, phase, rest.landed⟩
  | waiting =>
      change (if retried.phase = .waiting then Phase.ready else retried.phase) = .waiting at phase
      split at phase
      next => contradiction
      next unlike => exact absurd phase unlike
  | ready =>
      have supplied' : landed.scheduler.Supplied ranked := by
        apply supplied.of_steps alone'.keyed _ rfl
        intro other
        change Option.map _ (Entries.get (KeyedList.set Entry.id retried.scheduler.entries _) other)
          = _
        rw [there other]
        split
        next same => rw [same, entryId, found, Option.map_some, Option.map_some, settledStep]
        next => rfl
      have ended : landed.round false ranked 0 = { landed with phase := .finished } :=
        Run.round_of_atRest rest false live
      have answered' : Label.succeeds landed (.round false ranked 0) := ⟨rfl, supplied'⟩
      refine ⟨landed.round false ranked 0, .step reached answered' ?_, ?_⟩
      · exact if_pos ⟨phase, supplied'.known⟩
      · rw [ended]
        exact ⟨rfl, rest.landed⟩

/-- After a retry of a failed step the region below it is revived exactly when there was
nothing to revive: a blocked step stays blocked whatever comes of the step it waits for. -/
theorem retryTask_revives_iff {tasks : List Json} {maxTasks : Nat}
    (accepted : validateTaskGraph (some tasks) maxTasks = some [])
    (planned : graph.tasks = tasks.map stepOf)
    (reachable : (loop graph candidateModels resume).Reachable System.always run)
    (rest : run.AtRest) (supplied : run.scheduler.Supplied ranked)
    (retry : run.retryTask id ranked at' = some retried) :
    run.Revives graph candidateModels resume id retried ↔
      ∀ other, ¬ run.BlockedOnlyBy graph other id := by
  have valid : Valid graph.tasks := planned ▸ valid_of_validateTaskGraph accepted
  obtain ⟨safe, follows⟩ := loop_safe reachable
  have alone := Run.alone_retryTask safe rest retry
  constructor
  · intro revives other only
    obtain ⟨live, entry, found, made⟩ := Run.retryTask_eq retry
    have own : entry.id = id := Entries.id_of_get found
    have complete : ∀ dependency ∈ entry.step.dependsOn, dependency ≠ id ∧
        run.scheduler.entries.stateOf dependency = some .complete := by
      intro dependency listed
      have edge : dependency ∈ dependenciesOf graph.tasks id := by
        rw [← dependsOn_start graph candidateModels resume, ← follows.dependsOn]
        exact ⟨entry, found, listed⟩
      have above : ¬ graph.StandsOn dependency id :=
        fun cycle => Graph.not_standsOn_self valid id (.head edge cycle)
      have apart : dependency ≠ id :=
        fun same => Graph.not_standsOn_self valid id (.single (same ▸ edge))
      exact ⟨apart, only.complete dependency (only.below.tail edge) apart above⟩
    obtain ⟨flight, started, step, launched⟩ :=
      @Run.retryTask_launch run id ranked at' safe rest supplied entry found complete
    rw [launched] at made
    have armed := @Entries.get_set entry run.scheduler.entries entry.rearm (by rwa [own]) rfl
    have startedId : started.id = id := (congrArg Step.id step).trans own
    have entries : ∀ other, retried.scheduler.entries.get other =
        if other = id then some started else run.scheduler.entries.get other := by
      intro other
      rw [made]
      change KeyedList.get Entry.id (KeyedList.set Entry.id _ started) other = _
      rw [KeyedList.get_set, startedId]
      change (Entries.get (KeyedList.set Entry.id _ entry.rearm) other).map _ = _
      rw [armed, own]
      split
      next => rfl
      next => simp
    have supplied' : retried.scheduler.Supplied ranked := by
      apply supplied.of_steps alone.keyed
      · intro other
        rw [entries]
        split
        next same => rw [same, found, Option.map_some, Option.map_some, step]
        next => rfl
      · rw [made]
        rfl
    have flies : retried.scheduler.flights = [flight] := by
      rw [made]
      change run.scheduler.flights ++ [flight] = [flight]
      rw [rest.landed, List.nil_append]
    have live' : retried.cancelled = false := by
      rw [made]
      exact live
    have there : retried.scheduler.entries.get id = some started := by rw [entries, if_pos rfl]
    obtain ⟨later, reached, ended⟩ := @Run.retryTask_ends graph candidateModels resume retried id
      ranked run.scheduler alone live' supplied' flight flies started there
    have apart : other ≠ id :=
      fun same => Graph.not_standsOn_self valid id (same ▸ only.below)
    have stays : later.scheduler.entries.stateOf other = some .blocked := by
      rw [Entries.stateOf, (Run.alone_of_onward alone reached.toAlways).same other apart]
      exact only.blocked
    rw [revives.revived later reached ended other only] at stays
    contradiction
  · intro nothing
    constructor
    · exact fun _ _ _ other only => absurd only (nothing other)
    · intro later onward flight flying
      exact .inl ((Run.alone_of_onward alone onward).flown flight flying)

end Revival

section Examples

def anyModel : Step → List Candidate := fun _ => [chainModel]

/-- The first step fails, and a round blocks the second. -/
def firstFails : List Label := [
  .round false anyModel 0,
  .settle (ofString "a") { attempts := [], result := .error cancelledError, producers := [] } 1,
  .round false anyModel 2]

/-- The first step completes, and the second fails. -/
def secondFails : List Label := [
  .round false anyModel 0,
  .settle (ofString "a") { attempts := [], result := .ok [], producers := [] } 1,
  .round false anyModel 2,
  .settle (ofString "b") { attempts := [], result := .error cancelledError, producers := [] } 3]

/-- A run of the plan of two steps. -/
def ranPair (labels : List Label) : Option Run :=
  (loop pairGraph [chainModel] []).exec System.always
    { scheduler := Scheduler.start pairGraph [chainModel] [] } labels

theorem supplied_anyModel {scheduler : Scheduler}
    (only : scheduler.candidateModels = [chainModel]) : scheduler.Supplied anyModel where
  known _ _ := only ▸ List.Subset.refl _
  found _ _ := rfl

/-- A run of the plan that comes to rest, and what is checked of it. -/
theorem ranPair_rests (labels : List Label) (check : Run → Bool)
    (checked : (ranPair labels).any (fun run =>
      run.scheduler.flights.isEmpty && (run.scheduler.entries.all fun entry => entry.state.settled) &&
        decide (run.scheduler.candidateModels = [chainModel]) && check run) = true) :
    ∃ run, ranPair labels = some run ∧
      (loop pairGraph [chainModel] []).Reachable System.always run ∧ run.AtRest ∧
      run.scheduler.Supplied anyModel ∧ check run = true := by
  obtain ⟨run, ran, facts⟩ := (Option.any_eq_true _ _).1 checked
  simp only [Bool.and_eq_true, List.isEmpty_iff, List.all_eq_true, decide_eq_true_eq] at facts
  exact ⟨run, ran, .of_exec (.start rfl) ran, ⟨facts.1.1.1, facts.1.1.2⟩,
    supplied_anyModel facts.1.2, facts.2⟩

/-- A retry of the second step, which nothing stands on. -/
theorem retryTask_revives_second : ∃ run retried, ranPair secondFails = some run ∧
    run.retryTask (ofString "b") anyModel 4 = some retried ∧
    run.Revives pairGraph [chainModel] [] (ofString "b") retried := by
  have accepted : validateTaskGraph (some pair) 8 = some [] := by decide
  obtain ⟨run, ran, reachable, rest, supplied, checked⟩ := ranPair_rests secondFails
    (fun run => (run.scheduler.entries.all fun entry => entry.state ≠ .blocked) &&
      (run.retryTask (ofString "b") anyModel 4).isSome) (by decide)
  obtain ⟨unblocked, started⟩ := Bool.and_eq_true_iff.1 checked
  obtain ⟨retried, retry⟩ := Option.isSome_iff_exists.1 started
  refine ⟨run, retried, ran, retry, ?_⟩
  apply (retryTask_revives_iff accepted rfl reachable rest supplied retry).2
  intro other only
  obtain ⟨entry, found, blocked⟩ := Option.map_eq_some_iff.1 only.blocked
  have other' := List.all_eq_true.1 unblocked entry (KeyedList.mem_of_get found)
  simp [blocked] at other'

/-- The first step fails and is retried with success; the second stays blocked. -/
theorem not_retryTask_revives : ¬ ∀ (tasks : List Json) (maxTasks : Nat),
    validateTaskGraph (some tasks) maxTasks = some [] →
    ∀ graph : Graph, graph.tasks = tasks.map stepOf →
    ∀ (candidateModels : List Candidate) (resume : Subtasks) (run : Run),
      (loop graph candidateModels resume).Reachable System.always run → run.AtRest →
    ∀ ranked, run.scheduler.Supplied ranked → ∀ id at' retried,
      run.scheduler.entries.stateOf id = some .failed →
      run.retryTask id ranked at' = some retried →
      run.Revives graph candidateModels resume id retried := by
  intro revives
  have accepted : validateTaskGraph (some pair) 8 = some [] := by decide
  let answer : Label := .settle (ofString "a") { attempts := [], result := .ok [], producers := [] } 5
  obtain ⟨run, ran, reachable, rest, supplied, checked⟩ := ranPair_rests firstFails
    (fun run => decide (run.scheduler.entries.stateOf (ofString "a") = some .failed) &&
      decide (run.scheduler.entries.stateOf (ofString "b") = some .blocked) &&
      (run.retryTask (ofString "a") anyModel 4).any fun retried =>
        (retried.next answer).any fun later => decide (later.phase = .finished) &&
          later.scheduler.flights.isEmpty &&
          decide (later.scheduler.entries.stateOf (ofString "b") = some .blocked))
    (by decide)
  simp only [Bool.and_eq_true, decide_eq_true_eq, Option.any_eq_true, List.isEmpty_iff] at checked
  obtain ⟨⟨failed, blocked⟩, retried, retry, later, stepped, ended, stays⟩ := checked
  have revived := (revives pair 8 accepted pairGraph rfl [chainModel] [] run reachable rest anyModel
    supplied (ofString "a") 4 retried failed retry).revived
  have answered : Label.succeeds retried answer := rfl
  have reached : ((loop pairGraph [chainModel] []).onward retried).Reachable Label.succeeds later :=
    .step (.start rfl) answered stepped
  have only : run.BlockedOnlyBy pairGraph (ofString "b") (ofString "a") := by
    refine ⟨blocked, .single (by decide), ?_⟩
    intro dependency stands apart
    have onlyFirst : dependenciesOf pairGraph.tasks (ofString "b") = [ofString "a"] := by decide
    have none' : dependenciesOf pairGraph.tasks (ofString "a") = [] := by decide
    cases Relation.TransGen.head'_iff.1 stands with
    | intro next both =>
        have first : next = ofString "a" := by simpa [onlyFirst] using both.1
        cases Relation.ReflTransGen.cases_head both.2 with
        | inl same => exact absurd (same.symm.trans first) apart
        | inr further =>
            obtain ⟨above, listed, _⟩ := further
            rw [first, none'] at listed
            contradiction
  rw [revived later reached ⟨ended.1, ended.2⟩ (ofString "b") only] at stays
  contradiction

end Examples

end Orchestrator

end TitanRunner
