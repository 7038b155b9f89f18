import TitanRunner.Orchestrator.Graph

/-!
# The scheduler

`orchestrator/scheduler.js`: steps are dispatched when all their dependencies are
complete, each is asked of one candidate after the other, and a failed dependency
blocks what stands on it.  Any number of steps is in flight at once; which of them
moves next, what its model answers and what the retry policy decides are events.
-/

namespace TitanRunner

namespace Orchestrator

open Utf16

/-- `MAX_DEP_OUTPUT_CHARS`. -/
def maxDepOutputChars : Nat := 8000

/-- `MAX_DEP_BLOCK_CHARS`. -/
def maxDepBlockChars : Nat := 24000

/-- What a checkpoint keeps of a step (`snapshotSubtask`). -/
structure Snapshot where
  state : StepState
  assignment : Option Candidate
  attempts : List Attempt
  output : Option Utf16
  error : Option StepError
  startedAt : Option Time
  completedAt : Option Time
  /-- Ghost, as in `Entry`. -/
  producers : List Candidate := []
  deriving DecidableEq, Repr

/-- The `subtasks` of a checkpoint. -/
abbrev Subtasks := List (StepId × Snapshot)

def Subtasks.get (subtasks : Subtasks) (id : StepId) : Option Snapshot :=
  (KeyedList.get Prod.fst subtasks id).map Prod.snd

def Subtasks.insert (subtasks : Subtasks) (id : StepId) (snapshot : Snapshot) : Subtasks :=
  KeyedList.insert Prod.fst subtasks (id, snapshot)

/-- A settled step: complete, or failed for good. -/
def Snapshot.settled (snapshot : Snapshot) : Bool :=
  decide (snapshot.state = .complete) ||
    (decide (snapshot.state = .failed) && (snapshot.error.bind StepError.park).isNone)

def freshEntry (step : Step) : Entry :=
  { step, state := .pending, assignment := none, attempts := [], output := none, error := none
    startedAt := none, completedAt := none }

/-- The entry a run starts a step with.  A settled step is restored; any other keeps its
attempt record and runs again. -/
def restoreEntry (resume : Subtasks) (step : Step) : Entry :=
  match resume.get step.id with
  | none => freshEntry step
  | some prior =>
      if prior.settled then
        { step, state := prior.state, assignment := prior.assignment, attempts := prior.attempts
          output := prior.output, error := prior.error, startedAt := prior.startedAt
          completedAt := prior.completedAt, producers := prior.producers }
      else { freshEntry step with attempts := prior.attempts }

def restoreEntries (resume : Subtasks) (tasks : List Step) : Entries :=
  tasks.foldl (fun entries step => KeyedList.insert Entry.id entries (restoreEntry resume step)) []

/-- A step in flight (`#runWithRetry`): the candidate it is asked of, those left, and, as
a ghost, those that answered since it was dispatched. -/
structure Flight where
  id : StepId
  current : Candidate
  others : List Candidate
  answered : List Candidate
  deriving DecidableEq, Repr

/-- One call of an adapter. -/
structure Call where
  id : StepId
  candidate : Candidate
  context : Utf16
  deriving DecidableEq, Repr

/-- The scheduler of one run, with the calls it has made. -/
structure Scheduler where
  sharedContext : Utf16
  candidateModels : List Candidate
  entries : Entries
  flights : List Flight
  calls : List Call
  deriving DecidableEq, Repr

def Scheduler.start (graph : Graph) (candidateModels : List Candidate) (resume : Subtasks) :
    Scheduler :=
  { sharedContext := graph.sharedContext, candidateModels
    entries := restoreEntries resume graph.tasks, flights := [], calls := [] }

/-- `!dep || dep.state !== 'complete' || …`: the output a dependent is shown. -/
def depOutput (entries : Entries) (depId : StepId) : Option (Entry × Utf16) :=
  (entries.get depId).bind fun dep =>
    match dep.state, dep.output with
    | .complete, some output => if output.isEmpty then none else some (dep, output)
    | _, _ => none

/-- The loop of `#buildTaskContext` over the dependencies, with the budget left. -/
def contextParts (entries : Entries) : List StepId → Nat → List Utf16
  | [], _ => []
  | depId :: rest, budget =>
      match depOutput entries depId with
      | none => contextParts entries rest budget
      | some (dep, output) =>
          if budget = 0 then []
          else
            let slice := output.take (min maxDepOutputChars budget)
            (ofString "--- Output of completed upstream task \"" ++ dep.id ++ ofString "\" (" ++
              dep.step.title ++ ofString ") ---\n" ++ slice) ::
              contextParts entries rest (budget - slice.length)

def contextHeader : Utf16 :=
  ofString ("The following are the actual outputs of the tasks this task depends on. " ++
    "Build on them directly rather than re-deriving their content from the shared context.")

/-- What the context shows of a dependency. -/
def shown (entries : Entries) (depId : StepId) : Option (StepId × Utf16 × Utf16) :=
  (depOutput entries depId).map fun (dep, output) => (dep.id, dep.step.title, output)

/-- The parts depend on the entries only through what is shown. -/
theorem contextParts_congr {entries entries' : Entries} {deps : List StepId}
    (same : ∀ depId ∈ deps, shown entries depId = shown entries' depId) (budget : Nat) :
    contextParts entries deps budget = contextParts entries' deps budget := by
  induction deps generalizing budget with
  | nil => rfl
  | cons depId rest ih =>
      have restSame := ih fun other inside => same other (List.mem_cons_of_mem depId inside)
      have here := same depId List.mem_cons_self
      simp only [shown] at here
      cases left : depOutput entries depId with
      | none =>
          have right : depOutput entries' depId = none := by simpa [left] using here.symm
          simp only [contextParts, left, right, restSame]
      | some pair =>
          obtain ⟨pair', right, alike⟩ := Option.map_eq_some_iff.1
            (here.symm.trans (congrArg (Option.map _) left))
          simp only [Prod.mk.injEq] at alike
          simp only [contextParts, left, right, alike, restSame]

/-- `#buildTaskContext`. -/
def buildTaskContext (sharedContext : Utf16) (entries : Entries) (step : Step) : Utf16 :=
  let parts := contextParts entries step.dependsOn maxDepBlockChars
  if parts.isEmpty then sharedContext
  else
    let block := contextHeader ++ ofString "\n\n" ++ join (ofString "\n\n") parts
    if sharedContext.isEmpty then block else sharedContext ++ ofString "\n\n" ++ block

def isReady (entries : Entries) (entry : Entry) : Bool :=
  decide (entry.state = .pending) &&
    entry.step.dependsOn.all fun depId => entries.stateOf depId = some .complete

/-- The test of `#propagateBlocked`. -/
def isBlocked (entries : Entries) (entry : Entry) : Bool :=
  decide (entry.state = .pending) &&
    entry.step.dependsOn.any fun depId =>
      [some .failed, some .blocked, some .cancelled].contains (entries.stateOf depId)

/-- `distinct`: the first candidate of each model. -/
def distinctModels : List Candidate → List Candidate
  | [] => []
  | candidate :: rest =>
      candidate :: (distinctModels rest).filter fun other => other.modelId ≠ candidate.modelId

theorem mem_of_mem_distinctModels {candidate : Candidate} {ranked : List Candidate}
    (inside : candidate ∈ distinctModels ranked) : candidate ∈ ranked := by
  induction ranked with
  | nil => exact inside
  | cons first rest ih =>
      cases List.mem_cons.1 inside with
      | inl same => exact same ▸ List.mem_cons_self
      | inr later => exact List.mem_cons_of_mem first (ih (List.mem_of_mem_filter later))

/-- What the retry policy decides after a failed attempt.  `parked` carries the park;
`givenUp` covers the attempt ceiling and a poisoned step. -/
inductive Decision where
  | retrySame | retryNext
  | parked (park : Park)
  | givenUp
  deriving DecidableEq, Repr

/-- How one call of an adapter ended. -/
inductive Answer where
  /-- A tool call that was made; the same model is asked again. -/
  | toolRound
  /-- A tool call that needs approval. -/
  | toolApproval (message approvalKey : Utf16)
  /-- A repeated tool call, or one too many. -/
  | toolPoison (failure : StepError)
  | usable (output : Utf16)
  /-- A failed or unusable attempt; `answered` says whether the model answered at all. -/
  | unusable (failure : StepError) (answered : Bool) (decision : Decision)
  deriving DecidableEq, Repr

inductive Event where
  | block (id : StepId)
  | noCandidate (id : StepId) (at' : Time)
  | dispatch (id : StepId) (ranked : List Candidate) (at' : Time)
  | call (id : StepId) (answer : Answer) (ms : Nat) (tokensUsed : Option Nat) (at' : Time)
  deriving DecidableEq, Repr

/-- `#setState`. -/
def Scheduler.setEntry (scheduler : Scheduler) (entry : Entry) : Scheduler :=
  { scheduler with entries := KeyedList.set Entry.id scheduler.entries entry }

def Scheduler.setFlight (scheduler : Scheduler) (flight : Flight) : Scheduler :=
  { scheduler with flights := KeyedList.set Flight.id scheduler.flights flight }

/-- The start of a flight. -/
def Scheduler.launch (scheduler : Scheduler) (entry : Entry) (flight : Flight) : Scheduler :=
  { scheduler with
    entries := KeyedList.set Entry.id scheduler.entries entry
    flights := scheduler.flights ++ [flight] }

/-- The end of a flight, with the entry it leaves. -/
def Scheduler.land (scheduler : Scheduler) (entry : Entry) : Scheduler :=
  { scheduler with
    entries := KeyedList.set Entry.id scheduler.entries entry
    flights := scheduler.flights.filter fun flight => flight.id ≠ entry.id }

def noCandidateError : StepError :=
  { code := ofString "NO_CANDIDATE", class' := []
    message := ofString "No candidate model available for this task." }

def approvalError (message approvalKey : Utf16) : StepError :=
  { code := ofString "APPROVAL_REQUIRED", class' := ofString "policy_blocked", message
    park := some { reason := .approval, wakeInMs := 0, why := message
                   approvalKey := some approvalKey } }

/-- `task.attempts.push`. -/
def Entry.attempted (entry : Entry) (candidate : Candidate) (ms : Nat) (tokensUsed : Option Nat)
    (error : Option StepError) : Entry :=
  { entry with
    attempts := entry.attempts ++ [{ modelId := candidate.modelId, pool := candidate.pool
                                     ok := error.isNone, ms, tokensUsed, error }] }

def Entry.block (entry : Entry) : Entry := { entry with state := .blocked }

def Entry.start (entry : Entry) (current : Candidate) (at' : Time) : Entry :=
  { entry with state := .running, assignment := some current, startedAt := some at' }

def Entry.fail (entry : Entry) (error : StepError) (at' : Time) : Entry :=
  { entry with state := .failed, error := some error, completedAt := some at' }

/-- `adapter.execute` is called with the context of the step. -/
def Scheduler.called (scheduler : Scheduler) (candidate : Candidate) (step : Step) : Scheduler :=
  { scheduler with
    calls := scheduler.calls ++ [{
      id := step.id, candidate
      context := buildTaskContext scheduler.sharedContext scheduler.entries step }] }

/-- What a call leaves of a step in flight: its entry, and the flight if it goes on. -/
def Flight.answer (flight : Flight) (entry : Entry) (answer : Answer) (ms : Nat)
    (tokensUsed : Option Nat) (at' : Time) : Option (Entry × Option Flight) :=
  let current := flight.current
  let answered := flight.answered ++ [current]
  match answer with
  | .toolRound => some (entry, some { flight with answered })
  | .toolApproval message approvalKey =>
      some (entry.fail (approvalError message approvalKey) at', none)
  | .toolPoison failure =>
      some ((entry.attempted current ms tokensUsed (some failure)).fail failure at', none)
  | .usable output =>
      some ({ entry.attempted current ms tokensUsed none with
        state := .complete, output := some output, error := none, completedAt := some at'
        producers := answered }, none)
  | .unusable failure spoke decision =>
      let tried := entry.attempted current ms tokensUsed (some failure)
      let flight := if spoke then { flight with answered } else flight
      match decision with
      | .retrySame => some (tried, some flight)
      | .retryNext =>
          match flight.others with
          | [] => none
          | next :: others => some (tried, some { flight with current := next, others })
      | .parked park => some (tried.fail { failure with park := some park } at', none)
      | .givenUp => some (tried.fail failure at', none)

/-- The scheduler after a step in flight moved on or landed. -/
def Scheduler.settle (scheduler : Scheduler) (moved : Entry) : Option Flight → Scheduler
  | some flight => (scheduler.setEntry moved).setFlight flight
  | none => scheduler.land moved

/-- One event. -/
def Scheduler.next (scheduler : Scheduler) : Event → Option Scheduler
  | .block id =>
      (scheduler.entries.get id).bind fun entry =>
        if isBlocked scheduler.entries entry then
          some (scheduler.setEntry entry.block)
        else none
  | .noCandidate id at' =>
      (scheduler.entries.get id).bind fun entry =>
        if isReady scheduler.entries entry then
          some (scheduler.setEntry (entry.fail noCandidateError at'))
        else none
  | .dispatch id ranked at' =>
      (scheduler.entries.get id).bind fun entry =>
        match distinctModels ranked with
        | [] => none
        | current :: others =>
            if isReady scheduler.entries entry ∧ ranked ⊆ scheduler.candidateModels then
              some (scheduler.launch (entry.start current at') { id, current, others, answered := [] })
            else none
  | .call id answer ms tokensUsed at' =>
      (KeyedList.get Flight.id scheduler.flights id).bind fun flight =>
        (scheduler.entries.get id).bind fun entry =>
          (flight.answer entry answer ms tokensUsed at').map fun (moved, goesOn) =>
            (scheduler.called flight.current entry.step).settle moved goesOn

/-- Nothing is in flight, so `run` may return: the loop ended, or the drain hook spoke. -/
def Scheduler.quiet (scheduler : Scheduler) : Bool := scheduler.flights.isEmpty

/-- `finalState = 'drained'`. -/
def Scheduler.drained (scheduler : Scheduler) : Bool :=
  scheduler.entries.any fun entry => [.pending, .queued, .running].contains entry.state

/-- The steps in flight are those that run. -/
def Scheduler.Coherent (scheduler : Scheduler) : Prop :=
  ∀ flight ∈ scheduler.flights, scheduler.entries.stateOf flight.id = some .running

section Restore

variable {resume : Subtasks} {tasks : List Step} {step : Step}

@[simp] theorem restoreEntry_step : (restoreEntry resume step).step = step := by
  simp only [restoreEntry]
  split
  next => rfl
  next => split <;> rfl

@[simp] theorem restoreEntry_id : (restoreEntry resume step).id = step.id := by
  simp [Entry.id]

/-- The entry of an id is the restored entry of the last step that has it. -/
theorem get_restoreEntries (resume : Subtasks) (tasks : List Step) (id : StepId) :
    (restoreEntries resume tasks).get id =
      (KeyedList.get Step.id tasks id).map (restoreEntry resume) := by
  simp only [restoreEntries, Entries.get]
  induction tasks using List.reverseRecOn with
  | nil => rfl
  | append_singleton rest step ih =>
      rw [List.foldl_append, List.foldl_cons, List.foldl_nil, KeyedList.get_insert, ih,
        KeyedList.get_append, KeyedList.get_cons, KeyedList.get_nil, Option.none_or,
        restoreEntry_id]
      by_cases same : id = step.id
      · simp [same]
      · rw [if_neg same, if_neg (Ne.symm same), Option.none_or]

theorem mem_restoreEntries {entry : Entry} (inside : entry ∈ restoreEntries resume tasks) :
    ∃ step ∈ tasks, entry = restoreEntry resume step := by
  simp only [restoreEntries] at inside
  induction tasks using List.reverseRecOn with
  | nil => simp at inside
  | append_singleton rest step ih =>
      rw [List.foldl_append] at inside
      cases KeyedList.mem_of_mem_insert inside with
      | inl here => exact ⟨step, List.mem_append_right rest List.mem_cons_self, here⟩
      | inr before =>
          obtain ⟨earlier, member, same⟩ := ih before
          exact ⟨earlier, List.mem_append_left [step] member, same⟩

end Restore

section Next

variable {scheduler after : Scheduler} {event : Event} {flight : Flight} {entry moved : Entry}

theorem Entries.id_of_get {entries : Entries} {id : StepId}
    (found : entries.get id = some entry) : entry.id = id :=
  KeyedList.key_of_get found

/-- What a call leaves is the same step; it runs on with its flight, or is settled. -/
theorem Flight.answer_moved {answer : Answer} {ms : Nat} {tokensUsed : Option Nat} {at' : Time}
    {goesOn : Option Flight}
    (answered : flight.answer entry answer ms tokensUsed at' = some (moved, goesOn)) :
    moved.step = entry.step ∧
      ((∃ next, goesOn = some next ∧ next.id = flight.id ∧ moved.state = entry.state) ∨
        goesOn = none ∧ (moved.state = .complete ∨ moved.state = .failed)) := by
  simp only [Flight.answer] at answered
  split at answered
  next => cases answered; exact ⟨rfl, .inl ⟨_, rfl, rfl, rfl⟩⟩
  next => cases answered; exact ⟨rfl, .inr ⟨rfl, .inr rfl⟩⟩
  next => cases answered; exact ⟨rfl, .inr ⟨rfl, .inr rfl⟩⟩
  next => cases answered; exact ⟨rfl, .inr ⟨rfl, .inl rfl⟩⟩
  next spoke _ =>
    split at answered
    next => cases answered; exact ⟨rfl, .inl ⟨_, rfl, by split <;> rfl, rfl⟩⟩
    next =>
      split at answered
      next => contradiction
      next => cases answered; exact ⟨rfl, .inl ⟨_, rfl, by dsimp only; split <;> rfl, rfl⟩⟩
    next => cases answered; exact ⟨rfl, .inr ⟨rfl, .inr rfl⟩⟩
    next => cases answered; exact ⟨rfl, .inr ⟨rfl, .inr rfl⟩⟩

theorem Entries.get_set {entries : Entries} (moved : Entry)
    (found : entries.get entry.id = some entry) (same : moved.step = entry.step)
    (wanted : StepId) :
    Entries.get (KeyedList.set Entry.id entries moved) wanted =
      if wanted = entry.id then some moved else entries.get wanted := by
  have sameId : moved.id = entry.id := congrArg Step.id same
  simp only [Entries.get] at found ⊢
  rw [KeyedList.get_set, sameId]
  split
  next eq => rw [eq, found, Option.map_some]
  next => simp

theorem Scheduler.entries_settle (scheduler : Scheduler) (moved : Entry)
    (goesOn : Option Flight) :
    (scheduler.settle moved goesOn).entries = KeyedList.set Entry.id scheduler.entries moved := by
  cases goesOn <;> rfl

/-- What an event found, and what it made of it. -/
inductive Scheduler.Stepped (scheduler : Scheduler) : Event → Scheduler → Prop where
  | block (entry : Entry) :
      scheduler.entries.get entry.id = some entry → isBlocked scheduler.entries entry = true →
      Stepped scheduler (.block entry.id) (scheduler.setEntry entry.block)
  | noCandidate (entry : Entry) (at' : Time) :
      scheduler.entries.get entry.id = some entry → isReady scheduler.entries entry = true →
      Stepped scheduler (.noCandidate entry.id at')
        (scheduler.setEntry (entry.fail noCandidateError at'))
  | dispatch (entry : Entry) (ranked : List Candidate) (at' : Time) (current : Candidate)
      (others : List Candidate) :
      scheduler.entries.get entry.id = some entry → isReady scheduler.entries entry = true →
      distinctModels ranked = current :: others → ranked ⊆ scheduler.candidateModels →
      Stepped scheduler (.dispatch entry.id ranked at')
        (scheduler.launch (entry.start current at')
          { id := entry.id, current, others, answered := [] })
  | call (flight : Flight) (entry moved : Entry) (goesOn : Option Flight) (answer : Answer)
      (ms : Nat) (tokensUsed : Option Nat) (at' : Time) :
      flight ∈ scheduler.flights → flight.id = entry.id →
      scheduler.entries.get entry.id = some entry →
      flight.answer entry answer ms tokensUsed at' = some (moved, goesOn) →
      Stepped scheduler (.call entry.id answer ms tokensUsed at')
        ((scheduler.called flight.current entry.step).settle moved goesOn)

theorem Scheduler.stepped_of_next (stepped : scheduler.next event = some after) :
    scheduler.Stepped event after := by
  cases event with
  | block id =>
      obtain ⟨entry, found, made⟩ := Option.bind_eq_some_iff.1 stepped
      obtain rfl := Entries.id_of_get found
      split at made
      next blocked => cases made; exact .block entry found blocked
      next => contradiction
  | noCandidate id at' =>
      obtain ⟨entry, found, made⟩ := Option.bind_eq_some_iff.1 stepped
      obtain rfl := Entries.id_of_get found
      split at made
      next ready => cases made; exact .noCandidate entry at' found ready
      next => contradiction
  | dispatch id ranked at' =>
      obtain ⟨entry, found, made⟩ := Option.bind_eq_some_iff.1 stepped
      obtain rfl := Entries.id_of_get found
      split at made
      next => contradiction
      next current others distinct =>
        split at made
        next ready =>
          cases made
          exact .dispatch entry ranked at' current others found ready.1 distinct ready.2
        next => contradiction
  | call id answer ms tokensUsed at' =>
      obtain ⟨flight, flying, held⟩ := Option.bind_eq_some_iff.1 stepped
      obtain ⟨entry, found, made⟩ := Option.bind_eq_some_iff.1 held
      obtain rfl := Entries.id_of_get found
      obtain ⟨⟨moved, goesOn⟩, answered, rfl⟩ := Option.map_eq_some_iff.1 made
      exact .call flight entry moved goesOn answer ms tokensUsed at' (KeyedList.mem_of_get flying)
        (KeyedList.key_of_get flying) found answered

/-- What one event does to the entries: it moves a single step, one that was pending or
running, and leaves the others alone. -/
structure Scheduler.Moves (scheduler after : Scheduler) (entry moved : Entry) : Prop where
  found : scheduler.entries.get entry.id = some entry
  live : entry.state = .pending ∨ entry.state = .running
  sameStep : moved.step = entry.step
  get : ∀ id, after.entries.get id = if id = entry.id then some moved else scheduler.entries.get id
  sharedContext : after.sharedContext = scheduler.sharedContext
  candidateModels : after.candidateModels = scheduler.candidateModels

theorem Scheduler.Moves.of_set (found : scheduler.entries.get entry.id = some entry)
    (live : entry.state = .pending ∨ entry.state = .running) (sameStep : moved.step = entry.step)
    (set : after.entries = KeyedList.set Entry.id scheduler.entries moved)
    (sharedContext : after.sharedContext = scheduler.sharedContext)
    (candidateModels : after.candidateModels = scheduler.candidateModels) :
    scheduler.Moves after entry moved where
  found := found
  live := live
  sameStep := sameStep
  get := fun id => by rw [set]; exact Entries.get_set moved found sameStep id
  sharedContext := sharedContext
  candidateModels := candidateModels

theorem isReady_pending {entries : Entries} (ready : isReady entries entry = true) :
    entry.state = .pending := by
  simp only [isReady, Bool.and_eq_true, decide_eq_true_eq] at ready
  exact ready.1

theorem isBlocked_pending {entries : Entries} (blocked : isBlocked entries entry = true) :
    entry.state = .pending := by
  simp only [isBlocked, Bool.and_eq_true, decide_eq_true_eq] at blocked
  exact blocked.1

/-- In a coherent scheduler the entry of a flight runs. -/
theorem Scheduler.Coherent.running (coherent : scheduler.Coherent)
    (flying : flight ∈ scheduler.flights) (same : flight.id = entry.id)
    (found : scheduler.entries.get entry.id = some entry) : entry.state = .running := by
  have running := coherent flight flying
  simpa [Entries.stateOf, same, found] using running

theorem Scheduler.Stepped.moves (coherent : scheduler.Coherent)
    (stepped : scheduler.Stepped event after) :
    ∃ entry moved, scheduler.Moves after entry moved := by
  cases stepped with
  | block entry found blocked =>
      exact ⟨entry, entry.block, .of_set found (.inl (isBlocked_pending blocked)) rfl rfl rfl rfl⟩
  | noCandidate entry at' found ready =>
      exact ⟨entry, entry.fail noCandidateError at',
        .of_set found (.inl (isReady_pending ready)) rfl rfl rfl rfl⟩
  | dispatch entry ranked at' current others found ready distinct ranks =>
      exact ⟨entry, entry.start current at',
        .of_set found (.inl (isReady_pending ready)) rfl rfl rfl rfl⟩
  | call flight entry moved goesOn answer ms tokensUsed at' flying same found answered =>
      have running := coherent.running flying same found
      refine ⟨entry, moved, .of_set found (.inr running) (Flight.answer_moved answered).1
        (Scheduler.entries_settle _ moved goesOn) ?_ ?_⟩
      · cases goesOn <;> rfl
      · cases goesOn <;> rfl

/-- A settled step never moves again. -/
theorem Scheduler.Moves.get_of_settled (moves : scheduler.Moves after entry moved)
    {id : StepId} {other : Entry} (found : scheduler.entries.get id = some other)
    (settled : other.state ≠ .pending ∧ other.state ≠ .running) :
    after.entries.get id = some other := by
  rw [moves.get id, if_neg]
  · exact found
  · intro same
    have eq : other = entry := by simpa [same, moves.found] using found.symm
    cases moves.live with
    | inl pending => exact settled.1 (eq ▸ pending)
    | inr running => exact settled.2 (eq ▸ running)

theorem Scheduler.Moves.stateOf_of_settled (moves : scheduler.Moves after entry moved) (id : StepId)
    (state : StepState) (found : scheduler.entries.stateOf id = some state)
    (unpending : state ≠ .pending) (resting : state ≠ .running) :
    after.entries.stateOf id = some state := by
  obtain ⟨other, there, rfl⟩ := Option.map_eq_some_iff.1 found
  rw [Entries.stateOf, moves.get_of_settled there ⟨unpending, resting⟩]
  rfl

theorem Scheduler.Moves.steps (moves : scheduler.Moves after entry moved) (id : StepId) :
    (after.entries.get id).map Entry.step = (scheduler.entries.get id).map Entry.step := by
  rw [moves.get id]
  split
  next same => rw [same, moves.found, Option.map_some, Option.map_some, moves.sameStep]
  next => rfl

theorem Scheduler.Coherent.next (coherent : scheduler.Coherent)
    (stepped : scheduler.Stepped event after) : after.Coherent := by
  have pendingAway : ∀ {flight : Flight} {entry : Entry}, flight ∈ scheduler.flights →
      scheduler.entries.get entry.id = some entry → entry.state = .pending →
      flight.id ≠ entry.id := by
    intro flight entry flying found pending same
    simp [coherent.running flying same found] at pending
  intro other flying
  cases stepped with
  | block entry found blocked =>
      have away := pendingAway flying found (isBlocked_pending blocked)
      have kept := Entries.get_set entry.block found rfl other.id
      rw [if_neg away] at kept
      exact (congrArg (Option.map Entry.state) kept).trans (coherent other flying)
  | noCandidate entry at' found ready =>
      have away := pendingAway flying found (isReady_pending ready)
      have kept := Entries.get_set (entry.fail noCandidateError at') found rfl other.id
      rw [if_neg away] at kept
      exact (congrArg (Option.map Entry.state) kept).trans (coherent other flying)
  | dispatch entry ranked at' current others found ready distinct ranks =>
      have kept := Entries.get_set (entry.start current at') found rfl other.id
      cases List.mem_append.1 flying with
      | inl before =>
          rw [if_neg (pendingAway before found (isReady_pending ready))] at kept
          exact (congrArg (Option.map Entry.state) kept).trans (coherent other before)
      | inr here =>
          rw [List.mem_singleton.1 here, if_pos rfl] at kept
          rw [List.mem_singleton.1 here]
          exact congrArg (Option.map Entry.state) kept
  | call flight entry moved goesOn answer ms tokensUsed at' flew same found answered =>
      obtain ⟨sameStep, later⟩ := Flight.answer_moved answered
      have kept := Entries.get_set moved found sameStep other.id
      rw [Entries.stateOf, Scheduler.entries_settle]
      refine (congrArg (Option.map Entry.state) kept).trans ?_
      rcases later with ⟨next, rfl, sameFlight, sameState⟩ | ⟨rfl, _⟩
      · split
        next => rw [Option.map_some, sameState, coherent.running flew same found]
        next away =>
          obtain ⟨before, member, image⟩ := List.mem_map.1 flying
          split at image
          next => exact (away (by rw [← image, sameFlight, same])).elim
          next => exact image ▸ coherent before member
      · have sameId : moved.id = entry.id := congrArg Step.id sameStep
        obtain ⟨before, away⟩ := List.mem_filter.1 flying
        rw [if_neg (by simpa [sameId] using away)]
        exact coherent other before

end Next

end Orchestrator

end TitanRunner
