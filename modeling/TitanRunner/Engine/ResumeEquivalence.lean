import TitanRunner.Engine.Orchestrate

/-!
# Resuming against never stopping

A run that is parked or killed at any point and resumed from its checkpoint, next to a run
that goes straight through, both with the same answers.  What the two do is told by the
answers alone, so they agree on every step; the outputs agree where the checkpoint has
kept them.
-/

namespace TitanRunner

namespace Orchestrate

open Orchestrator Verify Redact Utf16 TransitionSystem System
open OutputParser (ParseResult parseTaskOutput)

/-! ## Runs that are given the same answers -/

/-- The candidate a step is given to and its usable answer; none for a step that fails. -/
abbrev Script := StepId → Option (Candidate × Utf16)

/-- The answer gives the step what the script says; only a parked step's error has a park. -/
def answerFollows (script : Script) (parks : Bool) (id : StepId) : Answer → Prop
  | .toolRound | .unusable _ _ .retrySame | .unusable _ _ .retryNext => True
  | .toolApproval _ _ | .unusable _ _ (.parked _) => parks = true
  | .toolPoison failure | .unusable failure _ .givenUp => failure.park = none ∧ script id = none
  | .usable output => (script id).map Prod.snd = some output

/-- The event gives a step what the script says.  Where `parks` is set a step may also be
parked. -/
def Follows (script : Script) (parks : Bool) : Event → Prop
  | .block _ => True
  | .noCandidate id _ => script id = none
  | .dispatch id ranked _ =>
      ∀ answer ∈ script id, (distinctModels ranked).head? = some answer.1
  | .call id answer _ _ _ => answerFollows script parks id answer

instance (script : Script) (parks : Bool) (id : StepId) (answer : Answer) :
    Decidable (answerFollows script parks id answer) :=
  match answer with
  | .toolRound | .unusable _ _ .retrySame | .unusable _ _ .retryNext =>
      inferInstanceAs (Decidable True)
  | .toolApproval _ _ | .unusable _ _ (.parked _) => inferInstanceAs (Decidable (parks = true))
  | .toolPoison failure | .unusable failure _ .givenUp =>
      inferInstanceAs (Decidable (failure.park = none ∧ script id = none))
  | .usable output => inferInstanceAs (Decidable ((script id).map Prod.snd = some output))

instance (script : Script) (parks : Bool) (event : Event) :
    Decidable (Follows script parks event) :=
  match event with
  | .block _ => inferInstanceAs (Decidable True)
  | .noCandidate id _ => inferInstanceAs (Decidable (script id = none))
  | .dispatch id ranked _ => inferInstanceAs (Decidable
      (∀ answer ∈ script id, (distinctModels ranked).head? = some answer.1))
  | .call id answer _ _ _ => inferInstanceAs (Decidable (answerFollows script parks id answer))

/-- A scheduler with the subtasks its pulse has noted so far. -/
structure Pulse where
  scheduler : Scheduler
  subtasks : Subtasks
  deriving DecidableEq, Repr

def Pulse.start (graph : Graph) (candidateModels : List Candidate) (subtasks : Subtasks) : Pulse where
  scheduler := .start graph candidateModels subtasks
  subtasks := subtasks

def Pulse.next (pulse : Pulse) (event : Event) : Option Pulse :=
  (pulse.scheduler.next event).map fun scheduler =>
    { scheduler, subtasks := Subtasks.note pulse.subtasks (Event.id event) scheduler.entries }

/-- The runs of one pulse. -/
def pulses (initial : Pulse) : System Pulse Event where
  start := fun pulse => pulse = initial
  next := Pulse.next

def following (script : Script) (parks : Bool) (_ : Pulse) (event : Event) : Prop :=
  Follows script parks event

instance (script : Script) (parks : Bool) (pulse : Pulse) (event : Event) :
    Decidable (following script parks pulse event) :=
  inferInstanceAs (Decidable (Follows script parks event))

/-- The subtasks a pulse leaves on disk: those noted, when it was killed or drained, or all
of them, when steps of it are parked. -/
inductive Pulse.Leaves (pulse : Pulse) : Subtasks → Prop where
  | noted : Leaves pulse pulse.subtasks
  | recorded : pulse.scheduler.quiet = true →
      Leaves pulse (pulse.subtasks.record pulse.scheduler.entries)

/-- Every step has come to an end. -/
def Pulse.Finished (pulse : Pulse) : Prop :=
  pulse.scheduler.quiet = true ∧ pulse.scheduler.drained = false

/-! ## What a script tells of a step -/

def Ready (entries : Entries) (step : Step) : Prop :=
  ∀ depId ∈ step.dependsOn, entries.stateOf depId = some .complete

def Unparked (entry : Entry) : Prop := entry.error.bind StepError.park = none

/-- What the state of a step says of the script and of its dependencies. -/
def Told (script : Script) (parks : Bool) (entries : Entries) (entry : Entry) : Prop :=
  match entry.state with
  | .pending => True
  | .running => Ready entries entry.step ∧
      ∀ answer ∈ script entry.id, entry.assignment = some answer.1
  | .complete => Ready entries entry.step ∧ ∃ answer, script entry.id = some answer ∧
      entry.assignment.map Candidate.modelId = some answer.1.modelId ∧ entry.output = some answer.2
  | .failed => (parks = false → Unparked entry) ∧
      (Unparked entry → Ready entries entry.step ∧ script entry.id = none)
  | .blocked => parks = false → ∃ depId ∈ entry.step.dependsOn,
      entries.stateOf depId = some .failed ∨ entries.stateOf depId = some .blocked
  | .queued | .cancelled | .malformedOutput => False

/-- All steps complete with their answers. -/
def scripted (script : Script) (tasks : List Step) : Entries :=
  tasks.map fun step =>
    { step, state := .complete, assignment := none, attempts := []
      output := (script step.id).map Prod.snd, error := none, startedAt := none, completedAt := none }

/-- A scheduler does with the steps of `graph` what the script tells. -/
structure Tells (script : Script) (parks : Bool) (graph : Graph) (scheduler : Scheduler) : Prop where
  sharedContext : scheduler.sharedContext = graph.sharedContext
  steps : ∀ id, (scheduler.entries.get id).map Entry.step = KeyedList.get Step.id graph.tasks id
  coherent : scheduler.Coherent
  told : ∀ id entry, scheduler.entries.get id = some entry →
    Told script parks scheduler.entries entry
  calls : ∀ call ∈ scheduler.calls, ∃ step, KeyedList.get Step.id graph.tasks call.id = some step ∧
    call.context = buildTaskContext graph.sharedContext (scripted script graph.tasks) step

section Told

variable {script : Script} {parks : Bool} {entries entries' : Entries} {entry moved : Entry}

/-- The states that stay keep what is told. -/
theorem Told.mono (told : Told script parks entries entry)
    (kept : ∀ id state, entries.stateOf id = some state → state ≠ .pending → state ≠ .running →
      entries'.stateOf id = some state) : Told script parks entries' entry := by
  have ready : Ready entries entry.step → Ready entries' entry.step := by
    intro ready depId inside
    exact kept depId .complete (ready depId inside) (by simp) (by simp)
  simp only [Told] at told ⊢
  split
  next => trivial
  next state => rw [state] at told; exact ⟨ready told.1, told.2⟩
  next state => rw [state] at told; exact ⟨ready told.1, told.2⟩
  next state =>
    rw [state] at told
    exact ⟨told.1, fun unparked => ⟨ready (told.2 unparked).1, (told.2 unparked).2⟩⟩
  next state =>
    rw [state] at told
    intro parksNot
    obtain ⟨depId, inside, stuck⟩ := told parksNot
    refine ⟨depId, inside, ?_⟩
    cases stuck with
    | inl failed => exact .inl (kept depId .failed failed (by simp) (by simp))
    | inr blocked => exact .inr (kept depId .blocked blocked (by simp) (by simp))
  all_goals next state => rw [state] at told; exact told

theorem ready_of_isReady (ready : isReady entries entry = true) : Ready entries entry.step := by
  simp only [isReady, Bool.and_eq_true, List.all_eq_true, decide_eq_true_eq] at ready
  exact ready.2

/-- What a call leaves of a running step. -/
theorem Told.answer {flight : Flight} {answer : Answer} {ms : Nat} {tokensUsed : Option Nat}
    {at' : Time} {goesOn : Option Flight} (told : Told script parks entries entry)
    (running : entry.state = .running) (follows : answerFollows script parks entry.id answer)
    (answered : flight.answer entry answer ms tokensUsed at' = some (moved, goesOn)) :
    Told script parks entries moved := by
  have before : Ready entries entry.step ∧
      ∀ answer ∈ script entry.id, entry.assignment = some answer.1 := by
    simpa only [Told, running] using told
  obtain ⟨ready, assigned⟩ := before
  simp only [Flight.answer] at answered
  split at answered
  next => cases answered; exact told
  next message approvalKey =>
    cases answered
    refine ⟨fun never => ?_, fun unparked => ?_⟩
    · rw [show parks = true from follows] at never
      contradiction
    · simp [Unparked, Entry.fail, approvalError] at unparked
  next failure =>
    cases answered
    exact ⟨fun _ => follows.1, fun _ => ⟨ready, follows.2⟩⟩
  next output =>
    cases answered
    obtain ⟨answer, scripted, same⟩ := Option.map_eq_some_iff.1 follows
    refine ⟨ready, answer, scripted, ?_, congrArg some same.symm⟩
    exact congrArg (Option.map Candidate.modelId) (assigned answer scripted)
  next failure spoke decision =>
    split at answered
    next =>
      cases answered
      simp only [Told, Entry.attempted, running]
      exact ⟨ready, assigned⟩
    next =>
      split at answered
      next => contradiction
      next =>
        cases answered
        simp only [Told, Entry.attempted, running]
        exact ⟨ready, assigned⟩
    next park =>
      cases answered
      refine ⟨fun never => ?_, fun unparked => ?_⟩
      · rw [show parks = true from follows] at never
        contradiction
      · simp [Unparked, Entry.fail] at unparked
    next =>
      cases answered
      exact ⟨fun _ => follows.1, fun _ => ⟨ready, follows.2⟩⟩

end Told

section Tells

variable {script : Script} {parks : Bool} {graph : Graph} {scheduler after : Scheduler}
  {event : Event}

/-- What the script shows of a complete dependency. -/
theorem shown_scripted {tasks : List Step} {depId : StepId} {step : Step} {answer : Candidate × Utf16}
    (known : KeyedList.get Step.id tasks depId = some step) (found : script depId = some answer) :
    shown (scripted script tasks) depId =
      if answer.2.isEmpty then none else some (depId, step.title, answer.2) := by
  have entry : (scripted script tasks).get depId = (KeyedList.get Step.id tasks depId).map _ :=
    KeyedList.get_map Entry.id _ fun _ => rfl
  obtain rfl : step.id = depId := KeyedList.key_of_get known
  rw [known, Option.map_some] at entry
  simp only [shown, depOutput, entry, Option.bind_some, found, Option.map_some]
  split <;> rfl

/-- A step whose dependencies are complete is shown what the script says. -/
theorem Tells.context (tells : Tells script parks graph scheduler) {step : Step}
    (ready : Ready scheduler.entries step) :
    buildTaskContext scheduler.sharedContext scheduler.entries step =
      buildTaskContext graph.sharedContext (scripted script graph.tasks) step := by
  have same : ∀ depId ∈ step.dependsOn,
      shown scheduler.entries depId = shown (scripted script graph.tasks) depId := by
    intro depId inside
    obtain ⟨dep, found, state⟩ := Option.map_eq_some_iff.1 (ready depId inside)
    have told := tells.told depId dep found
    simp only [Told, state] at told
    obtain ⟨-, answer, answered, -, output⟩ := told
    obtain rfl := Entries.id_of_get found
    have known : KeyedList.get Step.id graph.tasks dep.id = some dep.step := by
      rw [← tells.steps, found, Option.map_some]
    rw [shown_scripted known answered]
    simp only [shown, depOutput, found, Option.bind_some, state, output]
    split <;> rfl
  simp only [buildTaskContext, tells.sharedContext, contextParts_congr same]

/-- What an event does to the entries and the calls of a scheduler that follows the script. -/
theorem Tells.moves (tells : Tells script parks graph scheduler)
    (follows : Follows script parks event) (stepped : scheduler.Stepped event after) :
    ∃ entry moved, Event.id event = entry.id ∧ scheduler.Moves after entry moved ∧
      Told script parks scheduler.entries moved ∧
      (after.calls = scheduler.calls ∨ ∃ candidate, Ready scheduler.entries entry.step ∧
        after.calls = scheduler.calls ++ [{
          id := entry.step.id, candidate
          context := buildTaskContext scheduler.sharedContext scheduler.entries entry.step }]) := by
  cases stepped with
  | block entry found blocked =>
      refine ⟨entry, entry.block, rfl,
        .of_set found (.inl (isBlocked_pending blocked)) rfl rfl rfl rfl, ?_, .inl rfl⟩
      intro never
      simp only [isBlocked, Bool.and_eq_true, List.any_eq_true, List.contains_eq_mem,
        List.mem_cons, List.not_mem_nil, or_false, decide_eq_true_eq] at blocked
      obtain ⟨-, depId, inside, stuck⟩ := blocked
      refine ⟨depId, inside, ?_⟩
      rcases stuck with failed | blocked | cancelled
      · exact .inl failed
      · exact .inr blocked
      · obtain ⟨dep, found, state⟩ := Option.map_eq_some_iff.1 cancelled
        have told := tells.told depId dep found
        simp only [Told, state] at told
  | noCandidate entry at' found ready =>
      have readyStep := ready_of_isReady ready
      refine ⟨entry, entry.fail noCandidateError at', rfl,
        .of_set found (.inl (isReady_pending ready)) rfl rfl rfl rfl, ?_, .inl rfl⟩
      exact ⟨fun _ => rfl, fun _ => ⟨readyStep, follows⟩⟩
  | dispatch entry ranked at' current others found ready distinct ranks =>
      have readyStep := ready_of_isReady ready
      refine ⟨entry, entry.start current at', rfl,
        .of_set found (.inl (isReady_pending ready)) rfl rfl rfl rfl, ?_, .inl rfl⟩
      refine ⟨readyStep, ?_⟩
      intro answer answered
      have first := follows answer answered
      rw [distinct, List.head?_cons] at first
      exact first
  | call flight entry moved goesOn answer ms tokensUsed at' flying same found answered =>
      have running := tells.coherent.running flying same found
      have told := tells.told entry.id entry found
      have ready : Ready scheduler.entries entry.step := by
        simp only [Told, running] at told
        exact told.1
      refine ⟨entry, moved, rfl, .of_set found (.inr running) (Flight.answer_moved answered).1
        (Scheduler.entries_settle _ moved goesOn) ?_ ?_, told.answer running follows answered,
        .inr ⟨flight.current, ready, ?_⟩⟩
      · cases goesOn <;> rfl
      · cases goesOn <;> rfl
      · cases goesOn <;> rfl

theorem Tells.next (tells : Tells script parks graph scheduler)
    (follows : Follows script parks event) (stepped : scheduler.Stepped event after) :
    Tells script parks graph after := by
  obtain ⟨entry, moved, -, moves, told, calls⟩ := tells.moves follows stepped
  have kept := moves.stateOf_of_settled
  refine ⟨moves.sharedContext.trans tells.sharedContext,
    fun id => (moves.steps id).trans (tells.steps id), tells.coherent.next stepped, ?_, ?_⟩
  · intro id other found
    rw [moves.get id] at found
    split at found
    next => cases found; exact told.mono kept
    next => exact (tells.told id other found).mono kept
  · intro call inside
    rcases calls with unchanged | ⟨candidate, ready, called⟩
    · exact tells.calls call (unchanged ▸ inside)
    · rw [called] at inside
      cases List.mem_append.1 inside with
      | inl before => exact tells.calls call before
      | inr here =>
          obtain rfl := List.mem_singleton.1 here
          refine ⟨entry.step, ?_, tells.context ready⟩
          change KeyedList.get Step.id graph.tasks entry.id = some entry.step
          rw [← tells.steps, moves.found, Option.map_some]

end Tells

/-! ## Two runs of one script come to the same end -/

/-- The steps that came to an end in `scheduler` came to the same end in `other`. -/
def Agrees (parks : Bool) (other scheduler : Scheduler) : Prop :=
  ∀ id entry, scheduler.entries.get id = some entry →
    (entry.state = .complete → other.entries.stateOf id = some .complete) ∧
    (entry.state = .failed → Unparked entry → other.entries.stateOf id = some .failed) ∧
    (entry.state = .blocked → parks = false → other.entries.stateOf id = some .blocked)

section Agrees

variable {script : Script} {parks : Bool} {graph graph' : Graph} {scheduler after other : Scheduler}
  {event : Event}

theorem Tells.get_known (tells : Tells script parks graph scheduler) {id : StepId} {entry : Entry}
    (found : scheduler.entries.get id = some entry) :
    KeyedList.get Step.id graph.tasks id = some entry.step := by
  rw [← tells.steps, found, Option.map_some]

/-- Graphs of one outline have the same steps, up to what the outline leaves out. -/
theorem outline_get (same : graph.tasks.map Step.outline = graph'.tasks.map Step.outline)
    (id : StepId) :
    (KeyedList.get Step.id graph.tasks id).map Step.outline =
      (KeyedList.get Step.id graph'.tasks id).map Step.outline := by
  have lookup : ∀ tasks : List Step, (KeyedList.get Step.id tasks id).map Step.outline =
      KeyedList.get Outline.id (tasks.map Step.outline) id := by
    intro tasks
    exact (KeyedList.get_map Outline.id Step.outline fun _ => rfl).symm
  rw [lookup, lookup, same]

theorem Tells.get_other (tells : Tells script parks graph scheduler)
    (outlines : graph.tasks.map Step.outline = graph'.tasks.map Step.outline)
    (tells' : Tells script false graph' other) {id : StepId} {entry : Entry}
    (found : scheduler.entries.get id = some entry) :
    ∃ entry', other.entries.get id = some entry' ∧
      entry'.step.outline = entry.step.outline := by
  have known := outline_get outlines id
  rw [tells.get_known found, ← tells'.steps, Option.map_map] at known
  obtain ⟨entry', found', same⟩ := Option.map_eq_some_iff.1 known.symm
  exact ⟨entry', found', same⟩

/-- What a finished run that was never parked makes of a step. -/
theorem Tells.settled (tells' : Tells script false graph' other)
    (finished : other.drained = false) {id : StepId} {entry : Entry}
    (found : other.entries.get id = some entry) :
    (other.entries.stateOf id = some .complete ∧ Ready other.entries entry.step ∧
        (script id).isSome = true) ∨
      (other.entries.stateOf id = some .failed ∧ Ready other.entries entry.step ∧
        script id = none) ∨
      (other.entries.stateOf id = some .blocked ∧ ∃ depId ∈ entry.step.dependsOn,
        other.entries.stateOf depId = some .failed ∨
          other.entries.stateOf depId = some .blocked) := by
  have told := tells'.told id entry found
  have state : other.entries.stateOf id = some entry.state := by
    rw [Entries.stateOf, found, Option.map_some]
  have sameId : entry.id = id := Entries.id_of_get found
  have ended := List.any_eq_false.1 finished entry (KeyedList.mem_of_get found)
  simp only [Told] at told
  rw [state]
  split at told
  next pending => simp [pending] at ended
  next running => simp [running] at ended
  next complete =>
    obtain ⟨ready, answer, answered, -⟩ := told
    exact .inl ⟨congrArg some complete, ready, by rw [← sameId, answered]; rfl⟩
  next failed =>
    obtain ⟨ready, answered⟩ := told.2 (told.1 trivial)
    exact .inr (.inl ⟨congrArg some failed, ready, sameId ▸ answered⟩)
  next blocked => exact .inr (.inr ⟨congrArg some blocked, told trivial⟩)
  all_goals contradiction

/-- A step that moved came to the end the other run gives it. -/
theorem Agrees.of_told (agrees : Agrees parks other scheduler)
    (tells : Tells script parks graph scheduler)
    (outlines : graph.tasks.map Step.outline = graph'.tasks.map Step.outline)
    (tells' : Tells script false graph' other) (finished : other.drained = false)
    {entry moved : Entry} (found : scheduler.entries.get entry.id = some entry)
    (sameStep : moved.step = entry.step) (told : Told script parks scheduler.entries moved) :
    (moved.state = .complete → other.entries.stateOf entry.id = some .complete) ∧
    (moved.state = .failed → Unparked moved → other.entries.stateOf entry.id = some .failed) ∧
    (moved.state = .blocked → parks = false →
      other.entries.stateOf entry.id = some .blocked) := by
  obtain ⟨entry', found', alike⟩ := tells.get_other outlines tells' found
  have deps : entry'.step.dependsOn = moved.step.dependsOn := by
    rw [sameStep]
    exact congrArg Outline.dependsOn alike
  have sameId : moved.id = entry.id := congrArg Step.id sameStep
  have settled := tells'.settled finished found'
  -- The dependencies of a ready step are complete in both runs.
  have readyThere : Ready scheduler.entries moved.step → ∀ depId ∈ entry'.step.dependsOn,
      other.entries.stateOf depId = some .complete := by
    intro ready depId inside
    obtain ⟨dep, there, state⟩ := Option.map_eq_some_iff.1 (ready depId (deps ▸ inside))
    exact (agrees depId dep there).1 state
  have unblocked : Ready scheduler.entries moved.step → ¬ ∃ depId ∈ entry'.step.dependsOn,
      other.entries.stateOf depId = some .failed ∨
        other.entries.stateOf depId = some .blocked := by
    rintro ready ⟨depId, inside, stuck⟩
    simp [readyThere ready depId inside] at stuck
  refine ⟨?_, ?_, ?_⟩
  · intro state
    simp only [Told, state] at told
    obtain ⟨ready, answer, answered, -⟩ := told
    rw [sameId] at answered
    rcases settled with ⟨complete, -⟩ | ⟨-, -, unanswered⟩ | ⟨-, stuck⟩
    · exact complete
    · rw [answered] at unanswered
      contradiction
    · exact (unblocked ready stuck).elim
  · intro state unparked
    simp only [Told, state] at told
    obtain ⟨ready, answered⟩ := told.2 unparked
    rw [sameId] at answered
    rcases settled with ⟨-, -, answers⟩ | ⟨failed, -⟩ | ⟨-, stuck⟩
    · rw [answered] at answers
      contradiction
    · exact failed
    · exact (unblocked ready stuck).elim
  · intro state never
    simp only [Told, state] at told
    obtain ⟨depId, inside, stuck⟩ := told never
    have stuckThere : other.entries.stateOf depId = some .failed ∨
        other.entries.stateOf depId = some .blocked := by
      rcases stuck with failed | blocked
      · obtain ⟨dep, there, depState⟩ := Option.map_eq_some_iff.1 failed
        have depTold := tells.told depId dep there
        simp only [Told, depState] at depTold
        exact .inl ((agrees depId dep there).2.1 depState (depTold.1 never))
      · obtain ⟨dep, there, depState⟩ := Option.map_eq_some_iff.1 blocked
        exact .inr ((agrees depId dep there).2.2 depState never)
    rcases settled with ⟨-, ready, -⟩ | ⟨-, ready, -⟩ | ⟨blocked, -⟩
    · simp [ready depId (deps ▸ inside)] at stuckThere
    · simp [ready depId (deps ▸ inside)] at stuckThere
    · exact blocked

theorem Agrees.next (agrees : Agrees parks other scheduler)
    (tells : Tells script parks graph scheduler)
    (outlines : graph.tasks.map Step.outline = graph'.tasks.map Step.outline)
    (tells' : Tells script false graph' other) (finished : other.drained = false)
    (follows : Follows script parks event) (stepped : scheduler.Stepped event after) :
    Agrees parks other after := by
  obtain ⟨entry, moved, -, moves, told, -⟩ := tells.moves follows stepped
  intro id found' isFound
  rw [moves.get id] at isFound
  split at isFound
  next same =>
    cases isFound
    rw [same]
    exact agrees.of_told tells outlines tells' finished moves.found moves.sameStep told
  next => exact agrees id found' isFound

end Agrees

/-! ## What a checkpoint restores -/

/-- The subtasks are those of the steps that came to an end. -/
structure Pulse.Noted (pulse : Pulse) : Prop where
  noted : ∀ id entry, pulse.scheduler.entries.get id = some entry →
    recordedState entry.state = true → pulse.subtasks.get id = some (snapshotSubtask entry)
  only : ∀ id prior, pulse.subtasks.get id = some prior →
    ∃ entry, pulse.scheduler.entries.get id = some entry ∧ recordedState entry.state = true ∧
      prior = snapshotSubtask entry

section Pulses

variable {script : Script} {parks : Bool} {graph : Graph} {models : List Candidate}
  {pulse after : Pulse} {event : Event} {stored : Subtasks}

theorem Pulse.stepped_of_next (stepped : pulse.next event = some after) :
    pulse.scheduler.Stepped event after.scheduler ∧
      after.subtasks = Subtasks.note pulse.subtasks (Event.id event) after.scheduler.entries := by
  obtain ⟨scheduler, moved, rfl⟩ := Option.map_eq_some_iff.1 stepped
  exact ⟨Scheduler.stepped_of_next moved, rfl⟩

theorem Subtasks.get_note (subtasks : Subtasks) (id : StepId) (entries : Entries)
    (wanted : StepId) :
    (Subtasks.note subtasks id entries).get wanted =
      if wanted = id then
        (((entries.get id).filter fun entry => recordedState entry.state).map snapshotSubtask).or
          (subtasks.get id)
      else subtasks.get wanted := by
  simp only [Subtasks.note]
  split
  next entry found =>
    rw [Subtasks.get_insert, found]
    rfl
  next missing =>
    rw [missing]
    split
    next same => rw [same]; rfl
    next => rfl

theorem recordedState_of_live {state : StepState} (live : state = .pending ∨ state = .running) :
    recordedState state = false := by
  cases live with
  | inl pending => rw [pending]; rfl
  | inr running => rw [running]; rfl

theorem Pulse.Noted.next (notes : pulse.Noted) (tells : Tells script parks graph pulse.scheduler)
    (follows : Follows script parks event) (stepped : pulse.next event = some after) :
    after.Noted := by
  obtain ⟨schedulerStepped, subtasks⟩ := Pulse.stepped_of_next stepped
  obtain ⟨entry, moved, sameId, moves, -, -⟩ := tells.moves follows schedulerStepped
  have here : after.scheduler.entries.get entry.id = some moved := by
    rw [moves.get, if_pos rfl]
  constructor
  · intro id other found recorded
    rw [subtasks, Subtasks.get_note, sameId]
    split
    next same =>
      rw [same, here] at found
      cases found
      simp [here, recorded]
    next away =>
      rw [moves.get id, if_neg away] at found
      exact notes.noted id other found recorded
  · intro id prior found
    rw [subtasks, Subtasks.get_note, sameId] at found
    split at found
    next same =>
      rw [same]
      cases recorded : recordedState moved.state with
      | true =>
          rw [here, Option.filter_some, if_pos recorded, Option.map_some, Option.some_or] at found
          exact ⟨moved, here, recorded, (Option.some.inj found).symm⟩
      | false =>
          -- A live step is noted nowhere.
          obtain ⟨before, was, recordedBefore, -⟩ :=
            notes.only entry.id prior (by simpa [here, recorded] using found)
          obtain rfl : entry = before := Option.some.inj (moves.found.symm.trans was)
          rw [recordedState_of_live moves.live] at recordedBefore
          contradiction
    next away =>
      obtain ⟨other, was, rest⟩ := notes.only id prior found
      exact ⟨other, by rw [moves.get id, if_neg away]; exact was, rest⟩

/-- What a run that follows the script is told, in all of its states. -/
theorem told_of_reachable {initial : Pulse}
    (reachable : Reachable (pulses initial) (following script parks) pulse)
    (tells : Tells script parks graph initial.scheduler) :
    Tells script parks graph pulse.scheduler := by
  apply reachable.invariant fun pulse => Tells script parks graph pulse.scheduler
  · rintro _ rfl
    exact tells
  · intro pulse event after _ tells follows stepped
    exact tells.next follows (Pulse.stepped_of_next stepped).1

theorem agrees_of_reachable {initial : Pulse} {other : Scheduler} {graph' : Graph}
    (reachable : Reachable (pulses initial) (following script parks) pulse)
    (tells : Tells script parks graph initial.scheduler)
    (outlines : graph.tasks.map Step.outline = graph'.tasks.map Step.outline)
    (tells' : Tells script false graph' other) (finished : other.drained = false)
    (agrees : Agrees parks other initial.scheduler) : Agrees parks other pulse.scheduler := by
  apply reachable.invariant fun pulse => Agrees parks other pulse.scheduler
  · rintro _ rfl
    exact agrees
  · intro pulse event after before agrees follows stepped
    exact agrees.next (told_of_reachable before tells) outlines tells' finished follows
      (Pulse.stepped_of_next stepped).1

theorem noted_of_reachable {initial : Pulse}
    (reachable : Reachable (pulses initial) (following script parks) pulse)
    (tells : Tells script parks graph initial.scheduler) (notes : initial.Noted) :
    pulse.Noted := by
  apply reachable.invariant Pulse.Noted
  · rintro _ rfl
    exact notes
  · intro pulse event after before notes follows stepped
    exact notes.next (told_of_reachable before tells) follows stepped

/-- A step that came to an end stays as it is. -/
theorem get_of_reachable {initial : Pulse}
    (reachable : Reachable (pulses initial) (following script parks) pulse)
    (coherent : initial.scheduler.Coherent) {id : StepId} {entry : Entry}
    (found : initial.scheduler.entries.get id = some entry)
    (settled : entry.state ≠ .pending ∧ entry.state ≠ .running) :
    pulse.scheduler.entries.get id = some entry := by
  refine (reachable.invariant (fun pulse => pulse.scheduler.Coherent ∧
    pulse.scheduler.entries.get id = some entry) ?_ ?_).2
  · rintro _ rfl
    exact ⟨coherent, found⟩
  · intro pulse event after _ ⟨coherent, found⟩ _ stepped
    have schedulerStepped := (Pulse.stepped_of_next stepped).1
    obtain ⟨_, _, moves⟩ := schedulerStepped.moves coherent
    exact ⟨coherent.next schedulerStepped, moves.get_of_settled found settled⟩

theorem get_start (graph : Graph) (models : List Candidate) (subtasks : Subtasks) (id : StepId) :
    (Pulse.start graph models subtasks).scheduler.entries.get id =
      (KeyedList.get Step.id graph.tasks id).map (restoreEntry subtasks) :=
  get_restoreEntries subtasks graph.tasks id

/-- A scheduler at its start knows the steps of its graph and nothing is in flight. -/
theorem tells_start {subtasks : Subtasks}
    (told : ∀ id entry, (Pulse.start graph models subtasks).scheduler.entries.get id = some entry →
      Told script parks (Pulse.start graph models subtasks).scheduler.entries entry) :
    Tells script parks graph (Pulse.start graph models subtasks).scheduler where
  sharedContext := rfl
  steps := by
    intro wanted
    have same : Entry.step ∘ restoreEntry subtasks = id := funext fun _ => restoreEntry_step
    rw [get_start, Option.map_map, same, Option.map_id]
    rfl
  coherent := by simp [Scheduler.Coherent, Pulse.start, Scheduler.start]
  told := told
  calls := by simp [Pulse.start, Scheduler.start]

theorem get_fresh {id : StepId} {entry : Entry}
    (found : (Pulse.start graph models []).scheduler.entries.get id = some entry) :
    entry.state = .pending := by
  rw [get_start] at found
  obtain ⟨step, -, rfl⟩ := Option.map_eq_some_iff.1 found
  rfl

theorem tells_fresh : Tells script parks graph (Pulse.start graph models []).scheduler := by
  apply tells_start
  intro id entry found
  simp only [Told, get_fresh found]

theorem agrees_fresh (other : Scheduler) :
    Agrees parks other (Pulse.start graph models []).scheduler := by
  intro id entry found
  simp [get_fresh found]

theorem noted_fresh : (Pulse.start graph models []).Noted where
  noted := by
    intro id entry found recorded
    simp [get_fresh found, recordedState] at recorded
  only := by
    intro id prior found
    simp [Pulse.start, Subtasks.get, KeyedList.get] at found

/-- Every step that came to an end is stored with its snapshot, and a stored step that is
settled is such a one. -/
theorem Pulse.Noted.get_stored (notes : pulse.Noted) (leaves : pulse.Leaves stored) :
    (∀ id entry, pulse.scheduler.entries.get id = some entry → recordedState entry.state = true →
        stored.get id = some (snapshotSubtask entry)) ∧
      ∀ id prior, stored.get id = some prior →
        ∃ entry, pulse.scheduler.entries.get id = some entry ∧ prior = snapshotSubtask entry := by
  cases leaves with
  | noted =>
      refine ⟨notes.noted, ?_⟩
      intro id prior found
      obtain ⟨entry, was, -, same⟩ := notes.only id prior found
      exact ⟨entry, was, same⟩
  | recorded quiet =>
      constructor
      · intro id entry found recorded
        rw [Subtasks.get_record, found]
        rfl
      · intro id prior found
        rw [Subtasks.get_record] at found
        cases was : pulse.scheduler.entries.get id with
        | some entry => exact ⟨entry, rfl, by simpa [was] using found.symm⟩
        | none =>
            rw [was] at found
            obtain ⟨entry, there, -⟩ := notes.only id prior (by simpa using found)
            rw [was] at there
            contradiction

end Pulses

/-! ## The equivalence -/

/-- What `synthesize` is given. -/
structure SynthesisInput where
  sharedContext : Utf16
  outline : List Outline
  pieces : List Contribution
  deriving DecidableEq, Repr

def synthesisInput (graph : Graph) (entries : Entries) : SynthesisInput where
  sharedContext := graph.sharedContext
  outline := graph.tasks.map Step.outline
  pieces := graph.tasks.map (contribution entries)

/-- Two runs are alike: the same context in the calls of the same step, the same input for
the synthesizer, the same deliverable. -/
def Alike (graph : Graph) (pulse : Pulse) (graph' : Graph) (pulse' : Pulse) : Prop :=
  (∀ call ∈ pulse.scheduler.calls, ∀ call' ∈ pulse'.scheduler.calls, call.id = call'.id →
    call.context = call'.context) ∧
  synthesisInput graph pulse.scheduler.entries = synthesisInput graph' pulse'.scheduler.entries ∧
  ∀ parse, synthesize parse graph pulse.scheduler.entries =
    synthesize parse graph' pulse'.scheduler.entries

/-- The checkpoint keeps a step's output and model: the output is not cut, and neither is
redacted. -/
def Entry.Survives (entry : Entry) : Prop :=
  (snapshotSubtask entry).scrub.output = entry.output ∧
    (snapshotSubtask entry).scrub.assignment.map Candidate.modelId =
      entry.assignment.map Candidate.modelId

/-- Redaction leaves what is read of the graph, and the steps that are complete survive the
checkpoint. -/
def Survives (graph : Graph) (entries : Entries) : Prop :=
  graph.scrub.sharedContext = graph.sharedContext ∧
    graph.scrub.tasks.map Step.outline = graph.tasks.map Step.outline ∧
    ∀ id entry, entries.get id = some entry → entry.state = .complete → Entry.Survives entry

section Resume

-- What redaction does to a text plays no part here.
attribute [local irreducible] redactString

variable {script : Script} {graph : Graph} {models models' : List Candidate} {parked : Pulse}
  {left : Subtasks}

theorem Pulse.Leaves.restored_complete (leaves : parked.Leaves left) (models' : List Candidate)
    (notes : parked.Noted)
    (tells : Tells script true graph parked.scheduler)
    (outlines : graph.scrub.tasks.map Step.outline = graph.tasks.map Step.outline) {id : StepId}
    {entry : Entry} (found : parked.scheduler.entries.get id = some entry)
    (complete : entry.state = .complete) :
    ∃ restored, (Pulse.start graph.scrub models' left.scrub).scheduler.entries.get id =
        some restored ∧ restored.state = .complete ∧
      restored.output = (snapshotSubtask entry).scrub.output ∧
      restored.assignment = (snapshotSubtask entry).scrub.assignment := by
  have known := outline_get outlines id
  rw [tells.get_known found] at known
  obtain ⟨step, there, -⟩ := Option.map_eq_some_iff.1 known
  have sameId : step.id = id := KeyedList.key_of_get there
  have kept := (notes.get_stored leaves).1 id entry found (by rw [complete]; rfl)
  have settled : (snapshotSubtask entry).scrub.settled = true := by
    rw [Snapshot.settled_scrub]
    simp [Snapshot.settled, snapshotSubtask, complete]
  refine ⟨restoreEntry left.scrub step, ?_, ?_⟩
  · rw [get_start, there, Option.map_some]
  · simp only [restoreEntry, sameId, Subtasks.get_scrub, kept, Option.map_some, settled,
      ↓reduceIte, and_true]
    exact complete

/-- A restored step is one that was complete or failed for good. -/
theorem Pulse.Leaves.of_restored (leaves : parked.Leaves left) (notes : parked.Noted) {id : StepId}
    {restored : Entry}
    (found : (Pulse.start graph.scrub models' left.scrub).scheduler.entries.get id = some restored) :
    restored.state = .pending ∨
      ∃ entry, parked.scheduler.entries.get id = some entry ∧ restored.state = entry.state ∧
        restored.output = (snapshotSubtask entry).scrub.output ∧
        restored.assignment = (snapshotSubtask entry).scrub.assignment ∧
        (entry.state = .complete ∨ entry.state = .failed ∧ Unparked entry ∧ Unparked restored) := by
  rw [get_start] at found
  obtain ⟨step, there, rfl⟩ := Option.map_eq_some_iff.1 found
  obtain rfl : step.id = id := KeyedList.key_of_get there
  cases stored : left.scrub.get step.id with
  | none => exact .inl (by simp only [restoreEntry, stored]; rfl)
  | some prior' =>
      rw [Subtasks.get_scrub] at stored
      obtain ⟨prior, was, rfl⟩ := Option.map_eq_some_iff.1 stored
      obtain ⟨entry, there', rfl⟩ := (notes.get_stored leaves).2 step.id prior was
      rw [← Subtasks.get_scrub] at stored
      cases settled : (snapshotSubtask entry).scrub.settled with
      | false => exact .inl (by simp only [restoreEntry, stored, settled]; rfl)
      | true =>
          have ended : entry.state = .complete ∨ entry.state = .failed ∧ Unparked entry := by
            have isOver : (snapshotSubtask entry).settled = true :=
              (Snapshot.settled_scrub _).symm.trans settled
            simp only [Snapshot.settled, Bool.or_eq_true, Bool.and_eq_true, decide_eq_true_eq,
              Option.isNone_iff_eq_none] at isOver
            exact isOver
          simp only [restoreEntry, stored, settled, ↓reduceIte]
          refine .inr ⟨entry, there', rfl, rfl, rfl, ended.imp_right ?_⟩
          rintro ⟨failed, unparked⟩
          refine ⟨failed, unparked, ?_⟩
          cases error : entry.error with
          | none => simp [Unparked, Snapshot.scrub, snapshotSubtask, error]
          | some error' =>
              have bare : error'.park = none := by simpa [Unparked, error] using unparked
              simp [Unparked, Snapshot.scrub, snapshotSubtask, error, StepError.scrub, bare]

/-- What survives is restored as the script told it. -/
theorem Pulse.Leaves.told_restored (leaves : parked.Leaves left) (notes : parked.Noted)
    (tells : Tells script true graph parked.scheduler)
    (survives : Survives graph parked.scheduler.entries) {id : StepId} {restored : Entry}
    (found : (Pulse.start graph.scrub models' left.scrub).scheduler.entries.get id =
      some restored) :
    Told script false (Pulse.start graph.scrub models' left.scrub).scheduler.entries restored := by
  obtain ⟨-, outlines, kept⟩ := survives
  rcases leaves.of_restored notes found with pending | ⟨entry, was, state, output, assigned, ended⟩
  · simp only [Told, pending]
  have sameDeps : restored.step.dependsOn = entry.step.dependsOn := by
    have known := outline_get outlines id
    rw [tells.get_known was] at known
    obtain ⟨step, there, same⟩ := Option.map_eq_some_iff.1 known
    rw [get_start, there, Option.map_some] at found
    rw [← Option.some.inj found, restoreEntry_step]
    exact congrArg Outline.dependsOn same
  have ready : Ready parked.scheduler.entries entry.step →
      Ready (Pulse.start graph.scrub models' left.scrub).scheduler.entries restored.step := by
    intro ready depId inside
    obtain ⟨dep, there, complete⟩ := Option.map_eq_some_iff.1 (ready depId (sameDeps ▸ inside))
    obtain ⟨depRestored, isRestored, restoredState, -⟩ :=
      leaves.restored_complete models' notes tells outlines there complete
    rw [Entries.stateOf, isRestored, Option.map_some, restoredState]
  have sameId : restored.id = entry.id :=
    (Entries.id_of_get found).trans (Entries.id_of_get was).symm
  have told := tells.told id entry was
  rcases ended with complete | ⟨failed, unparked, restoredUnparked⟩
  · simp only [Told, complete] at told
    simp only [Told, state.trans complete]
    obtain ⟨readyThere, answer, answered, model, text⟩ := told
    obtain ⟨sameOutput, sameModel⟩ := kept id entry was complete
    refine ⟨ready readyThere, answer, ?_, ?_, ?_⟩
    · rw [sameId]
      exact answered
    · rw [assigned, sameModel]
      exact model
    · rw [output, sameOutput]
      exact text
  · simp only [Told, failed] at told
    simp only [Told, state.trans failed]
    obtain ⟨readyThere, unanswered⟩ := told.2 unparked
    exact ⟨fun _ => restoredUnparked, fun _ => ⟨ready readyThere, by rw [sameId]; exact unanswered⟩⟩

theorem Pulse.Leaves.agrees_restored (leaves : parked.Leaves left) (notes : parked.Noted)
    {other : Scheduler} (agrees : Agrees true other parked.scheduler) :
    Agrees false other (Pulse.start graph.scrub models' left.scrub).scheduler := by
  intro id restored found
  rcases leaves.of_restored notes found with pending | ⟨entry, was, state, -, -, ended⟩
  · simp [pending]
  · rw [state]
    rcases ended with complete | ⟨failed, unparked, -⟩
    · simp only [complete]
      exact ⟨fun _ => (agrees id entry was).1 complete, by simp, by simp⟩
    · simp only [failed]
      exact ⟨by simp, fun _ _ => (agrees id entry was).2.1 failed unparked, by simp⟩

end Resume

section Alike

variable {script : Script} {graph graph' : Graph} {pulse pulse' : Pulse}

/-- A contribution reads no more of its step than the outline. -/
theorem map_contribution (tasks : List Step) (entries : Entries) :
    tasks.map (contribution entries) =
      (tasks.map Step.outline).map fun outline => contribution entries outline.step := by
  rw [List.map_map]
  rfl

/-- Finished runs of one script that agree contribute the same. -/
theorem contributions_agree (outlines : graph.tasks.map Step.outline = graph'.tasks.map Step.outline)
    (tells : Tells script false graph pulse.scheduler) (finished : pulse.Finished)
    (tells' : Tells script false graph' pulse'.scheduler)
    (agrees : Agrees false pulse'.scheduler pulse.scheduler) :
    graph.tasks.map (contribution pulse.scheduler.entries) =
      graph'.tasks.map (contribution pulse'.scheduler.entries) := by
  rw [map_contribution graph'.tasks, ← outlines, ← map_contribution graph.tasks]
  apply List.map_congr_left
  intro step inside
  obtain ⟨known, isKnown⟩ :=
    KeyedList.exists_get_iff.2 (List.mem_map_of_mem (f := Step.id) inside)
  have there := tells.steps step.id
  rw [isKnown] at there
  obtain ⟨entry, found, -⟩ := Option.map_eq_some_iff.1 there
  obtain ⟨entry', found', -⟩ := tells.get_other outlines tells' found
  obtain ⟨agreesComplete, agreesFailed, agreesBlocked⟩ := agrees step.id entry found
  have state : pulse.scheduler.entries.stateOf step.id = some entry.state := by
    rw [Entries.stateOf, found, Option.map_some]
  have state' : pulse'.scheduler.entries.stateOf step.id = some entry'.state := by
    rw [Entries.stateOf, found', Option.map_some]
  have told := tells.told step.id entry found
  have told' := tells'.told step.id entry' found'
  have settled := tells.settled finished.2 found
  rw [state, Option.some.injEq, Option.some.injEq, Option.some.injEq] at settled
  rw [state', Option.some.injEq] at agreesComplete agreesFailed agreesBlocked
  simp only [contribution, Entries.completed, state, state', found, found', Option.filter_some]
  rcases settled with ⟨complete, -⟩ | ⟨failed, -⟩ | ⟨blocked, -⟩
  · have complete' := agreesComplete complete
    simp only [Told, complete] at told
    simp only [Told, complete'] at told'
    obtain ⟨-, answer, answered, model, text⟩ := told
    obtain ⟨-, answer', answered', model', text'⟩ := told'
    rw [Entries.id_of_get found] at answered
    rw [Entries.id_of_get found', answered] at answered'
    cases answered'
    simp [complete, complete', model, model', text, text']
  · simp only [Told, failed] at told
    have failed' := agreesFailed failed (told.1 trivial)
    simp [failed, failed']
  · have blocked' := agreesBlocked blocked rfl
    simp [blocked, blocked']

/-- What the script shows of a dependency is told by the outline of its step. -/
theorem shown_of_outline (tasks : List Step) (depId : StepId) :
    shown (scripted script tasks) depId =
      ((KeyedList.get Step.id tasks depId).map Step.outline).bind fun outline =>
        (script outline.id).bind fun answer =>
          if answer.2.isEmpty then none else some (outline.id, outline.title, answer.2) := by
  have entry : (scripted script tasks).get depId = (KeyedList.get Step.id tasks depId).map _ :=
    KeyedList.get_map Entry.id _ fun _ => rfl
  simp only [shown, depOutput, entry]
  cases KeyedList.get Step.id tasks depId with
  | none => rfl
  | some known =>
      simp only [Option.map_some, Option.bind_some, Step.outline]
      cases script known.id with
      | none => rfl
      | some answer =>
          simp only [Option.map_some, Option.bind_some]
          split <;> rfl

/-- Steps of one outline are shown the same. -/
theorem buildTaskContext_outline {step step' : Step} (sharedContext : Utf16)
    (outlines : graph.tasks.map Step.outline = graph'.tasks.map Step.outline)
    (same : step.outline = step'.outline) :
    buildTaskContext sharedContext (scripted script graph.tasks) step =
      buildTaskContext sharedContext (scripted script graph'.tasks) step' := by
  have sameDeps : step.dependsOn = step'.dependsOn := congrArg Outline.dependsOn same
  have sameShown : ∀ depId ∈ step'.dependsOn, shown (scripted script graph.tasks) depId =
      shown (scripted script graph'.tasks) depId := by
    intro depId _
    rw [shown_of_outline, shown_of_outline, outline_get outlines]
  simp only [buildTaskContext, sameDeps, contextParts_congr sameShown]

/-- Calls for the same step are given the same context. -/
theorem contexts_agree (contexts : graph.sharedContext = graph'.sharedContext)
    (outlines : graph.tasks.map Step.outline = graph'.tasks.map Step.outline)
    (tells : Tells script false graph pulse.scheduler)
    (tells' : Tells script false graph' pulse'.scheduler) {call call' : Call}
    (made : call ∈ pulse.scheduler.calls) (made' : call' ∈ pulse'.scheduler.calls)
    (same : call.id = call'.id) : call.context = call'.context := by
  obtain ⟨step, known, context⟩ := tells.calls call made
  obtain ⟨step', known', context'⟩ := tells'.calls call' made'
  have alike := outline_get outlines call.id
  rw [known, same, known', Option.map_some, Option.map_some, Option.some.injEq] at alike
  rw [context, context', contexts, buildTaskContext_outline graph'.sharedContext outlines alike]

/-- What a finished run that goes on from the checkpoint contributes of a step that was
complete shows that the step has survived. -/
theorem survives_of_alike {parked : Pulse} {entry restored entry' : Entry} {id : StepId}
    (told : Told script true parked.scheduler.entries entry) (sameId : entry.id = id)
    (complete : entry.state = .complete)
    (restoredComplete : restored.state = .complete)
    (output : restored.output = (snapshotSubtask entry).scrub.output)
    (assigned : restored.assignment = (snapshotSubtask entry).scrub.assignment)
    (found' : pulse'.scheduler.entries.get id = some entry')
    (told' : Told script false pulse'.scheduler.entries entry')
    (found : pulse.scheduler.entries.get id = some restored) {step step' : Step}
    (known : step.id = id) (known' : step'.id = id)
    (alike : contribution pulse.scheduler.entries step =
      contribution pulse'.scheduler.entries step') : Entry.Survives entry := by
  simp only [contribution, Entries.completed, Entries.stateOf, known, known', found, found',
    Option.map_some, Option.filter_some, restoredComplete, Contribution.mk.injEq,
    Option.some.injEq, decide_true, ↓reduceIte, Option.bind_some] at alike
  obtain ⟨-, -, complete', sameOutput, sameModel⟩ := alike
  rw [← complete'] at sameOutput sameModel
  simp only [Told, complete] at told
  simp only [Told, ← complete'] at told'
  obtain ⟨-, answer, answered, model, text⟩ := told
  obtain ⟨-, answer', answered', model', text'⟩ := told'
  rw [sameId] at answered
  rw [Entries.id_of_get found', answered] at answered'
  cases answered'
  constructor
  · rw [← output, text, ← text']
    simpa using sameOutput
  · rw [← assigned, model, ← model']
    simpa using sameModel

end Alike

/-- A run that is parked or killed anywhere and resumed from its checkpoint ends like one
that was never stopped exactly when redaction leaves the outline of the graph and the
outputs and models of the steps that were complete, and the checkpoint cuts none of these
outputs. -/
theorem resumes_alike_iff (script : Script) (graph : Graph) (models models' models'' : List Candidate)
    (parked resumed uninterrupted : Pulse) (left : Subtasks)
    (cut : Reachable (pulses (.start graph models [])) (following script true) parked)
    (leaves : parked.Leaves left)
    (went : Reachable (pulses (.start graph.scrub models' left.scrub)) (following script false)
      resumed)
    (finished : resumed.Finished)
    (straight : Reachable (pulses (.start graph models'' [])) (following script false)
      uninterrupted)
    (finished' : uninterrupted.Finished) :
    Alike graph.scrub resumed graph uninterrupted ↔
      Survives graph parked.scheduler.entries := by
  have tellsParked := told_of_reachable cut tells_fresh
  have tellsStraight := told_of_reachable straight tells_fresh
  have notes := noted_of_reachable cut tells_fresh noted_fresh
  constructor
  · rintro ⟨-, inputs, -⟩
    simp only [synthesisInput, SynthesisInput.mk.injEq] at inputs
    obtain ⟨contexts, outlines, pieces⟩ := inputs
    refine ⟨contexts, outlines, ?_⟩
    intro id entry found complete
    obtain ⟨restored, isRestored, restoredComplete, output, assigned⟩ :=
      leaves.restored_complete models' notes tellsParked outlines found complete
    have stays : resumed.scheduler.entries.get id = some restored := by
      refine get_of_reachable went (by simp [Scheduler.Coherent, Pulse.start, Scheduler.start])
        isRestored ?_
      simp [restoredComplete]
    obtain ⟨entry', found', -⟩ := tellsParked.get_other rfl tellsStraight found
    have lookup : ∀ (tasks : List Step) (entries : Entries),
        KeyedList.get Contribution.id (tasks.map (contribution entries)) id =
          (KeyedList.get Step.id tasks id).map (contribution entries) := fun tasks entries =>
      KeyedList.get_map Contribution.id _ fun _ => rfl
    have known := tellsParked.get_known found
    have outlined := outline_get outlines id
    rw [known] at outlined
    obtain ⟨step, isStep, -⟩ := Option.map_eq_some_iff.1 outlined
    have alike := (lookup graph.scrub.tasks _).symm.trans
      ((congrArg (KeyedList.get Contribution.id · id) pieces).trans (lookup graph.tasks _))
    rw [isStep, known, Option.map_some, Option.map_some, Option.some.injEq] at alike
    exact survives_of_alike (tellsParked.told id entry found) (Entries.id_of_get found) complete
      restoredComplete output assigned found' (tellsStraight.told id entry' found') stays
      (KeyedList.key_of_get isStep) (KeyedList.key_of_get known) alike
  · intro survives
    obtain ⟨contexts, outlines, -⟩ := id survives
    have tellsResumed := told_of_reachable went
      (tells_start fun id entry found => leaves.told_restored notes tellsParked survives found)
    have agreesParked := agrees_of_reachable cut tells_fresh rfl tellsStraight finished'.2
      (agrees_fresh uninterrupted.scheduler)
    have agrees := agrees_of_reachable went
      (tells_start fun id entry found => leaves.told_restored notes tellsParked survives found)
      outlines tellsStraight finished'.2 (leaves.agrees_restored notes agreesParked)
    have pieces := contributions_agree outlines tellsResumed finished tellsStraight agrees
    refine ⟨?_, ?_, ?_⟩
    · intro call made call' made' same
      exact contexts_agree contexts outlines tellsResumed tellsStraight made made' same
    · simp only [synthesisInput, contexts, outlines, pieces]
    · intro parse
      apply synthesize_congr contexts outlines
      intro step inside
      have overScrub : graph.scrub.tasks.map (contribution resumed.scheduler.entries) =
          graph.scrub.tasks.map (contribution uninterrupted.scheduler.entries) := by
        rw [pieces, map_contribution graph.tasks, map_contribution graph.scrub.tasks, outlines]
      exact congrArg (Contribution.reading parse) (List.map_inj_left.1 overScrub step inside)

instance (entry : Entry) : Decidable (Entry.Survives entry) :=
  inferInstanceAs (Decidable (_ ∧ _))

instance (pulse : Pulse) : Decidable pulse.Finished :=
  inferInstanceAs (Decidable (_ ∧ _))

section Examples

def draftStep : Step where
  id := ofString "task-1"
  title := ofString "Draft"
  aspect := ofString "writing"
  description := ofString "Write a draft."
  dependsOn := []
  deliverable := ofString "A text."

def reviewStep : Step where
  id := ofString "task-2"
  title := ofString "Review"
  aspect := ofString "critique"
  description := ofString "Review the draft."
  dependsOn := [ofString "task-1"]
  deliverable := ofString "A text."

def draftAndReview : Graph where
  sharedContext := ofString "A short story."
  tasks := [draftStep, reviewStep]
  plannedBy := none

def writer : Candidate := { modelId := ofString "groq/llama", pool := ofString "free" }

/-- The draft is `output`. -/
def draftScript (output : String) : Script := fun id =>
  some (writer, if id = draftStep.id then ofString output else ofString "Fine.")

/-- One step is dispatched and answers. -/
def answering (script : Script) (step : Step) : List Event :=
  match script step.id with
  | none => []
  | some (candidate, output) =>
      [.dispatch step.id [candidate] 1, .call step.id (.usable output) 5 none 2]

/-- The pulse killed after the draft, the one that goes on from its checkpoint, and one
that was not stopped. -/
def killedAfterDraft (output : String) : Option (Pulse × Pulse × Pulse) := do
  let script := draftScript output
  let fresh := Pulse.start draftAndReview [writer] []
  let parked ← (pulses fresh).exec (following script true) fresh (answering script draftStep)
  let again := Pulse.start draftAndReview.scrub [writer] parked.subtasks.scrub
  let resumed ← (pulses again).exec (following script false) again (answering script reviewStep)
  let uninterrupted ← (pulses fresh).exec (following script false) fresh
    (answering script draftStep ++ answering script reviewStep)
  return (parked, resumed, uninterrupted)

theorem reachable_of_killedAfterDraft {output : String} {parked resumed uninterrupted : Pulse}
    (ran : killedAfterDraft output = some (parked, resumed, uninterrupted)) :
    Reachable (pulses (.start draftAndReview [writer] [])) (following (draftScript output) true)
        parked ∧
      Reachable (pulses (.start draftAndReview.scrub [writer] parked.subtasks.scrub))
        (following (draftScript output) false) resumed ∧
      Reachable (pulses (.start draftAndReview [writer] []))
        (following (draftScript output) false) uninterrupted := by
  simp only [killedAfterDraft, Option.bind_eq_bind, Option.bind_eq_some_iff, Option.pure_def,
    Option.some.injEq, Prod.mk.injEq] at ran
  obtain ⟨parked, first, resumed, second, uninterrupted, third, rfl, rfl, rfl⟩ := ran
  exact ⟨.of_exec (.start rfl) first, .of_exec (.start rfl) second, .of_exec (.start rfl) third⟩

/-- A short draft without anything to redact comes back as it was. -/
theorem resumes_alike_short : ∃ parked resumed uninterrupted : Pulse,
    killedAfterDraft "Once." = some (parked, resumed, uninterrupted) ∧
      Alike draftAndReview.scrub resumed draftAndReview uninterrupted := by
  have ran : (killedAfterDraft "Once.").any (fun (parked, resumed, uninterrupted) =>
      resumed.Finished ∧ uninterrupted.Finished ∧
        draftAndReview.scrub.sharedContext = draftAndReview.sharedContext ∧
        draftAndReview.scrub.tasks.map Step.outline = draftAndReview.tasks.map Step.outline ∧
        ∀ entry ∈ parked.scheduler.entries, entry.state = .complete → Entry.Survives entry) = true := by
    decide
  obtain ⟨⟨parked, resumed, uninterrupted⟩, killed, holds⟩ := (Option.any_eq_true _ _).1 ran
  obtain ⟨finished, finished', contexts, outlines, kept⟩ := of_decide_eq_true holds
  obtain ⟨cut, went, straight⟩ := reachable_of_killedAfterDraft killed
  refine ⟨parked, resumed, uninterrupted, killed, ?_⟩
  refine (resumes_alike_iff (draftScript "Once.") draftAndReview [writer] [writer] [writer] parked
    resumed uninterrupted parked.subtasks cut .noted went finished straight finished').2 ?_
  refine ⟨contexts, outlines, ?_⟩
  intro id entry found complete
  exact kept entry (KeyedList.mem_of_get found) complete

/-- The draft names a file whose path is as long as a base64 secret: the checkpoint redacts
it. -/
theorem not_resumes_alike : ¬ ∀ (script : Script) (graph : Graph)
    (models models' models'' : List Candidate) (parked resumed uninterrupted : Pulse)
    (left : Subtasks),
    Reachable (pulses (.start graph models [])) (following script true) parked →
    parked.Leaves left →
    Reachable (pulses (.start graph.scrub models' left.scrub)) (following script false) resumed →
    resumed.Finished →
    Reachable (pulses (.start graph models'' [])) (following script false) uninterrupted →
    uninterrupted.Finished → Alike graph.scrub resumed graph uninterrupted := by
  intro alike
  let output := "See src/components/dashboard/widgets/index.js"
  have ran : (killedAfterDraft output).any (fun (_, resumed, uninterrupted) =>
      resumed.Finished ∧ uninterrupted.Finished ∧
        synthesisInput draftAndReview.scrub resumed.scheduler.entries ≠
          synthesisInput draftAndReview uninterrupted.scheduler.entries) = true := by
    decide +kernel
  obtain ⟨⟨parked, resumed, uninterrupted⟩, killed, holds⟩ := (Option.any_eq_true _ _).1 ran
  obtain ⟨finished, finished', differs⟩ := of_decide_eq_true holds
  obtain ⟨cut, went, straight⟩ := reachable_of_killedAfterDraft killed
  exact differs (alike _ _ _ _ _ _ _ _ _ cut .noted went finished straight finished').2.1

end Examples

end Orchestrate

end TitanRunner
