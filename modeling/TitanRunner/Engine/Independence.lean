import TitanRunner.Engine.Orchestrate

/-!
# The judge did not produce the work

Every provider whose answer is part of a plan or of a step's output stays on record under
a model id that `pickJudgeProvider` reads back: an attempt is recorded before a step
completes or moves to another model, and the redaction of a checkpoint leaves the model
ids of the registry's pool as they are.
-/

namespace TitanRunner

namespace Orchestrator

open Verify Redact Utf16

/-! ## Providers and their model ids -/

section Providers

variable {provider : Utf16}

theorem withoutPool_phase2ModelId (direct : provider ∈ failoverOrder) :
    withoutPool (phase2ModelId provider) = provider := by
  revert provider
  decide

theorem redactString_phase2ModelId (direct : provider ∈ failoverOrder) :
    redactString (phase2ModelId provider) = phase2ModelId provider := by
  revert provider
  decide

theorem providersOf_phase2 (direct : provider ∈ failoverOrder) :
    providersOf { modelId := phase2ModelId provider, pool := phase2 } = [provider] := by
  revert provider
  decide

theorem freebuff_ne_phase2 : ofString "freebuff" ≠ phase2 := by decide

theorem opencode_ne_phase2 : ofString "opencode" ≠ phase2 := by decide

theorem freebuff_not_direct : ofString "freebuff" ∉ failoverOrder := by decide

theorem opencode_not_direct : ofString "opencode" ∉ failoverOrder := by decide

theorem chatOrder_direct (direct : provider ∈ failoverOrder) : chatOrder provider = [provider] := by
  revert provider
  decide

end Providers

-- From here on redaction is only known through the lemmas above.
attribute [local irreducible] redactString

/-- The candidates the pools of the engine list. -/
def Listed (candidate : Candidate) : Prop :=
  candidate.pool = ofString "freebuff" ∨ candidate.pool = ofString "opencode" ∨
    ∃ provider ∈ failoverOrder, candidate = { modelId := phase2ModelId provider, pool := phase2 }

theorem listed_of_mem_resolve {freebuff opencode : List Utf16} {candidate : Candidate}
    (inside : candidate ∈ resolveCandidateModels freebuff opencode) : Listed candidate := by
  simp only [resolveCandidateModels, List.mem_append] at inside
  rcases inside with (free | open') | direct
  · obtain ⟨modelId, -, rfl⟩ := List.mem_map.1 free
    exact .inl rfl
  · obtain ⟨modelId, -, rfl⟩ := List.mem_map.1 open'
    exact .inr (.inl rfl)
  · obtain ⟨provider, member, rfl⟩ := List.mem_map.1 direct
    refine .inr (.inr ⟨ofString provider, ?_, rfl⟩)
    revert provider
    decide

/-! ## The record of a step -/

def Attested (attempts : List Attempt) (candidate : Candidate) : Prop :=
  ∃ attempt ∈ attempts, attempt.modelId = candidate.modelId

/-- The producers of an output are listed candidates, and those of the registry's pool
stand in the attempts. -/
def OnRecord (attempts : List Attempt) (producers : List Candidate) : Prop :=
  ∀ candidate ∈ producers, Listed candidate ∧ (candidate.pool = phase2 → Attested attempts candidate)

def Entry.OnRecord (entry : Entry) : Prop := Orchestrator.OnRecord entry.attempts entry.producers

def Snapshot.OnRecord (snapshot : Snapshot) : Prop :=
  Orchestrator.OnRecord snapshot.attempts snapshot.producers

/-- The plan of a direct provider names it. -/
def Graph.OnRecord (graph : Graph) : Prop :=
  ∀ provider ∈ failoverOrder, graph.planner = some provider →
    graph.plannedBy = some (phase2ModelId provider)

/-- The candidates that answered a step in flight are the one that is asked now or stand in
the attempts. -/
structure Flight.Traced (flight : Flight) (attempts : List Attempt) : Prop where
  current : Listed flight.current
  others : ∀ candidate ∈ flight.others, Listed candidate
  answered : ∀ candidate ∈ flight.answered,
    Listed candidate ∧ (candidate = flight.current ∨ Attested attempts candidate)

section Attempts

variable {attempts more : List Attempt} {candidate : Candidate} {producers : List Candidate}

theorem Attested.append (attested : Attested attempts candidate) (more : List Attempt) :
    Attested (attempts ++ more) candidate := by
  obtain ⟨attempt, inside, same⟩ := attested
  exact ⟨attempt, List.mem_append_left more inside, same⟩

theorem OnRecord.append (onRecord : OnRecord attempts producers) (more : List Attempt) :
    OnRecord (attempts ++ more) producers := by
  intro candidate inside
  exact ⟨(onRecord candidate inside).1, fun pooled =>
    ((onRecord candidate inside).2 pooled).append more⟩

theorem Flight.Traced.append {flight : Flight} (traced : flight.Traced attempts)
    (more : List Attempt) : flight.Traced (attempts ++ more) where
  current := traced.current
  others := traced.others
  answered := fun candidate inside =>
    ⟨(traced.answered candidate inside).1,
      (traced.answered candidate inside).2.imp_right fun attested => attested.append more⟩

/-- Redaction leaves the record of the registry's providers as it is. -/
theorem OnRecord.scrub (onRecord : OnRecord attempts producers) :
    OnRecord (attempts.map Attempt.scrub) producers := by
  intro candidate inside
  obtain ⟨listed, attested⟩ := onRecord candidate inside
  refine ⟨listed, ?_⟩
  intro pooled
  obtain ⟨attempt, recorded, same⟩ := attested pooled
  refine ⟨attempt.scrub, List.mem_map_of_mem recorded, ?_⟩
  change redactString attempt.modelId = candidate.modelId
  rw [same]
  rcases listed with free | open' | ⟨provider, direct, rfl⟩
  · exact (freebuff_ne_phase2 (free.symm.trans pooled)).elim
  · exact (opencode_ne_phase2 (open'.symm.trans pooled)).elim
  · exact redactString_phase2ModelId direct

theorem Graph.OnRecord.scrub {graph : Graph} (onRecord : graph.OnRecord) :
    graph.scrub.OnRecord := by
  intro provider direct planned
  have recorded : graph.plannedBy = some (phase2ModelId provider) :=
    onRecord provider direct planned
  change graph.plannedBy.map redactString = some (phase2ModelId provider)
  rw [recorded]
  exact congrArg some (redactString_phase2ModelId direct)

end Attempts

/-! ## The scheduler keeps the record -/

structure Scheduler.Traced (scheduler : Scheduler) : Prop where
  candidates : ∀ candidate ∈ scheduler.candidateModels, Listed candidate
  entries : ∀ entry ∈ scheduler.entries, entry.OnRecord
  flights : ∀ flight ∈ scheduler.flights, ∀ entry, scheduler.entries.get flight.id = some entry →
    flight.Traced entry.attempts

section Scheduler

variable {scheduler after : Scheduler} {event : Event} {flight : Flight} {entry moved : Entry}
  {goesOn : Option Flight}

theorem attested_attempted (entry : Entry) (candidate : Candidate) (ms : Nat)
    (tokensUsed : Option Nat) (error : Option StepError) :
    Attested (entry.attempted candidate ms tokensUsed error).attempts candidate :=
  ⟨_, List.mem_append_right _ List.mem_cons_self, rfl⟩

/-- The candidate that is asked now has answered. -/
theorem Flight.Traced.spoke {attempts : List Attempt} (traced : flight.Traced attempts) :
    ({ flight with answered := flight.answered ++ [flight.current] } : Flight).Traced attempts where
  current := traced.current
  others := traced.others
  answered := by
    intro candidate inside
    cases List.mem_append.1 inside with
    | inl before => exact traced.answered candidate before
    | inr here =>
        obtain rfl := List.mem_singleton.1 here
        exact ⟨traced.current, .inl rfl⟩

/-- The flight moves on to another candidate, with the one that was asked on record. -/
theorem Flight.Traced.hop {attempts : List Attempt} (traced : flight.Traced attempts)
    (attested : Attested attempts flight.current) {next : Candidate} {others : List Candidate}
    (left : flight.others = next :: others) :
    ({ flight with current := next, others } : Flight).Traced attempts where
  current := traced.others next (left ▸ List.mem_cons_self)
  others := fun candidate inside =>
    traced.others candidate (left ▸ List.mem_cons_of_mem next inside)
  answered := by
    intro candidate inside
    obtain ⟨listed, known⟩ := traced.answered candidate inside
    refine ⟨listed, .inr ?_⟩
    cases known with
    | inl same => exact same ▸ attested
    | inr before => exact before

/-- What a call leaves of a traced step: more attempts, an output whose producers stand in
them, and a traced flight. -/
theorem Flight.Traced.answer {answer : Answer} {ms : Nat} {tokensUsed : Option Nat} {at' : Time}
    (traced : flight.Traced entry.attempts) (onRecord : entry.OnRecord)
    (answered : flight.answer entry answer ms tokensUsed at' = some (moved, goesOn)) :
    (∃ more, moved.attempts = entry.attempts ++ more) ∧ moved.OnRecord ∧
      ∀ next, goesOn = some next → next.Traced moved.attempts := by
  simp only [Flight.answer] at answered
  split at answered
  next =>
    cases answered
    refine ⟨⟨[], (List.append_nil _).symm⟩, onRecord, ?_⟩
    rintro next ⟨⟩
    exact traced.spoke
  next =>
    cases answered
    exact ⟨⟨[], (List.append_nil _).symm⟩, onRecord, by simp⟩
  next => cases answered; exact ⟨⟨_, rfl⟩, onRecord.append _, by simp⟩
  next output =>
    cases answered
    refine ⟨⟨_, rfl⟩, ?_, by simp⟩
    intro candidate inside
    obtain ⟨listed, known⟩ := traced.spoke.answered candidate inside
    refine ⟨listed, fun _ => ?_⟩
    cases known with
    | inl same => exact same ▸ attested_attempted entry flight.current ms tokensUsed none
    | inr before => exact before.append _
  next failure spoke decision =>
    have attested : Attested (entry.attempted flight.current ms tokensUsed (some failure)).attempts
        flight.current := attested_attempted entry flight.current ms tokensUsed (some failure)
    have tried : (if spoke then { flight with answered := flight.answered ++ [flight.current] }
        else flight).Traced
          (entry.attempted flight.current ms tokensUsed (some failure)).attempts := by
      split
      next => exact (traced.append _).spoke
      next => exact traced.append _
    split at answered
    next =>
      cases answered
      refine ⟨⟨_, rfl⟩, onRecord.append _, ?_⟩
      rintro next ⟨⟩
      exact tried
    next =>
      split at answered
      next => contradiction
      next next others left =>
        cases answered
        refine ⟨⟨_, rfl⟩, onRecord.append _, ?_⟩
        rintro other ⟨⟩
        apply tried.hop _ left
        split <;> exact attested
    next => cases answered; exact ⟨⟨_, rfl⟩, onRecord.append _, by simp⟩
    next => cases answered; exact ⟨⟨_, rfl⟩, onRecord.append _, by simp⟩

/-- One step has moved on: the entries and the flights are still traced. -/
theorem Scheduler.Traced.set (traced : scheduler.Traced) (moved : Entry)
    (found : scheduler.entries.get entry.id = some entry) (sameStep : moved.step = entry.step)
    (onRecord : moved.OnRecord) (more : ∃ more, moved.attempts = entry.attempts ++ more) :
    (∀ other ∈ KeyedList.set Entry.id scheduler.entries moved, other.OnRecord) ∧
      ∀ flight ∈ scheduler.flights, ∀ other,
        Entries.get (KeyedList.set Entry.id scheduler.entries moved) flight.id = some other →
          flight.Traced other.attempts := by
  constructor
  · intro other inside
    cases KeyedList.mem_of_mem_set inside with
    | inl same => exact same ▸ onRecord
    | inr before => exact traced.entries other before
  · intro flight flying other found'
    rw [Entries.get_set moved found sameStep] at found'
    split at found'
    next same =>
      obtain ⟨more, longer⟩ := more
      cases found'
      rw [longer]
      exact (traced.flights flight flying entry (same ▸ found)).append more
    next => exact traced.flights flight flying other found'

theorem Scheduler.Traced.next (traced : scheduler.Traced)
    (stepped : scheduler.Stepped event after) : after.Traced := by
  cases stepped with
  | block entry found blocked =>
      have onRecord := traced.entries entry (KeyedList.mem_of_get found)
      have kept := traced.set (entry.block) found rfl onRecord
        ⟨[], (List.append_nil _).symm⟩
      exact ⟨traced.candidates, kept.1, kept.2⟩
  | noCandidate entry at' found ready =>
      have onRecord := traced.entries entry (KeyedList.mem_of_get found)
      have kept := traced.set (entry.fail noCandidateError at') found rfl onRecord
        ⟨[], (List.append_nil _).symm⟩
      exact ⟨traced.candidates, kept.1, kept.2⟩
  | dispatch entry ranked at' current others found ready distinct ranks =>
      have onRecord := traced.entries entry (KeyedList.mem_of_get found)
      have kept := traced.set (entry.start current at') found rfl onRecord
        ⟨[], (List.append_nil _).symm⟩
      have listed : ∀ candidate ∈ current :: others, Listed candidate := by
        intro candidate inside
        exact traced.candidates candidate (ranks (mem_of_mem_distinctModels (distinct ▸ inside)))
      refine ⟨traced.candidates, kept.1, ?_⟩
      intro flight flying
      cases List.mem_append.1 flying with
      | inl before => exact kept.2 flight before
      | inr here =>
          obtain rfl := List.mem_singleton.1 here
          intro other _
          exact ⟨listed current List.mem_cons_self,
            fun candidate inside => listed candidate (List.mem_cons_of_mem current inside),
            by simp⟩
  | call flight entry moved goesOn answer ms tokensUsed at' flying same found answered =>
      have onRecord := traced.entries entry (KeyedList.mem_of_get found)
      have traced' := traced.flights flight flying entry (same ▸ found)
      obtain ⟨more, movedOnRecord, later⟩ := traced'.answer onRecord answered
      obtain ⟨sameStep, goesOn'⟩ := Flight.answer_moved answered
      have kept := traced.set moved found sameStep movedOnRecord more
      cases goesOn with
      | none =>
          refine ⟨traced.candidates, kept.1, ?_⟩
          intro other inside
          exact kept.2 other (List.mem_of_mem_filter inside)
      | some next =>
          refine ⟨traced.candidates, kept.1, ?_⟩
          intro other inside
          cases KeyedList.mem_of_mem_set inside with
          | inr before => exact kept.2 other before
          | inl isNext =>
              obtain rfl := isNext
              intro entry' found'
              have sameFlight : other.id = entry.id := by
                rcases goesOn' with ⟨_, ⟨⟩, sameFlight, _⟩ | ⟨_, _⟩
                · exact sameFlight.trans same
                · contradiction
              have isMoved : moved = entry' := by
                have got := (Entries.get_set moved found sameStep other.id).symm.trans found'
                rw [if_pos sameFlight] at got
                exact Option.some.inj got
              exact isMoved ▸ later other rfl

/-- A run starts from what its checkpoint has on record. -/
theorem Scheduler.Traced.start {graph : Graph} {candidateModels : List Candidate}
    {resume : Subtasks} (listed : ∀ candidate ∈ candidateModels, Listed candidate)
    (onRecord : ∀ filed ∈ resume, filed.2.OnRecord) :
    (Scheduler.start graph candidateModels resume).Traced := by
  refine ⟨listed, ?_, by simp [Scheduler.start]⟩
  intro entry inside
  have restored : ∀ step, (restoreEntry resume step).OnRecord := by
    intro step
    simp only [restoreEntry]
    split
    next => intro candidate inside; simp [freshEntry] at inside
    next prior found =>
      split
      next =>
        obtain ⟨filed, inside, rfl⟩ := Option.map_eq_some_iff.1 found
        exact onRecord filed (KeyedList.mem_of_get inside)
      next => intro candidate inside; simp [freshEntry] at inside
  obtain ⟨step, -, rfl⟩ := mem_restoreEntries inside
  exact restored step

end Scheduler

end Orchestrator

namespace Orchestrate

open Orchestrator Verify Utf16 TransitionSystem System
open OutputParser (ParseResult)

/-! ## The pulses keep the record -/

structure Checkpoint.OnRecord (checkpoint : Checkpoint) : Prop where
  graph : ∀ graph, checkpoint.graph = some graph → graph.OnRecord
  subtasks : ∀ filed ∈ checkpoint.subtasks, filed.2.OnRecord

def Stage.OnRecord : Stage → Prop
  | .entered | .returned => True
  | .running scheduler => scheduler.Traced
  | .executed entries | .verifying entries => ∀ entry ∈ entries, entry.OnRecord

structure Verified.OnRecord (verified : Verified) : Prop where
  graph : verified.graph.OnRecord
  entries : ∀ entry ∈ verified.entries, entry.OnRecord
  candidates : verified.options.candidates = failoverOrder

structure World.OnRecord (world : World) : Prop where
  versions : ∀ version ∈ world.versions, version.OnRecord
  process : ∀ process, world.process = some process →
    process.checkpoint.OnRecord ∧ process.stage.OnRecord
  verified : ∀ verified ∈ world.verified, verified.OnRecord

section Checkpoint

variable {checkpoint : Checkpoint} {entries : Entries} {phase : Phase}

theorem Checkpoint.OnRecord.scrub (onRecord : checkpoint.OnRecord) : checkpoint.scrub.OnRecord where
  graph := by
    intro graph found
    obtain ⟨before, was, rfl⟩ := Option.map_eq_some_iff.1 found
    exact (onRecord.graph before was).scrub
  subtasks := by
    intro filed inside
    obtain ⟨before, was, rfl⟩ := List.mem_map.1 inside
    exact (onRecord.subtasks before was).scrub

theorem mem_record {subtasks : Subtasks} {filed : StepId × Snapshot}
    (inside : filed ∈ subtasks.record entries) :
    filed ∈ subtasks ∨ ∃ entry ∈ entries, filed.2 = snapshotSubtask entry := by
  simp only [Subtasks.record] at inside
  induction entries using List.reverseRecOn with
  | nil => exact .inl inside
  | append_singleton rest entry ih =>
      rw [List.foldl_append] at inside
      cases KeyedList.mem_of_mem_insert inside with
      | inl here => exact .inr ⟨entry, List.mem_append_right rest List.mem_cons_self, here ▸ rfl⟩
      | inr before =>
          refine (ih before).imp_right ?_
          rintro ⟨earlier, member, same⟩
          exact ⟨earlier, List.mem_append_left [entry] member, same⟩

theorem Checkpoint.OnRecord.note (onRecord : checkpoint.OnRecord) (id : StepId)
    (entriesOnRecord : ∀ entry ∈ entries, entry.OnRecord) :
    (checkpoint.note id entries).OnRecord where
  graph := onRecord.graph
  subtasks := by
    intro filed inside
    simp only [Checkpoint.note, Subtasks.note] at inside
    split at inside
    next entry found =>
      have member : entry ∈ entries :=
        KeyedList.mem_of_get (Option.filter_eq_some_iff.1 found).1
      cases KeyedList.mem_of_mem_insert inside with
      | inl here => exact here ▸ entriesOnRecord entry member
      | inr before => exact onRecord.subtasks filed before
    next => exact onRecord.subtasks filed inside

theorem Checkpoint.OnRecord.recordAll (onRecord : checkpoint.OnRecord)
    (entriesOnRecord : ∀ entry ∈ entries, entry.OnRecord) :
    (checkpoint.recordAll phase entries).OnRecord where
  graph := onRecord.graph
  subtasks := by
    intro filed inside
    cases mem_record inside with
    | inl before => exact onRecord.subtasks filed before
    | inr here =>
        obtain ⟨entry, member, same⟩ := here
        rw [same]
        exact entriesOnRecord entry member

theorem Checkpoint.OnRecord.remediate (onRecord : checkpoint.OnRecord) {graph : Graph}
    (graphOnRecord : graph.OnRecord) (issues : List Verify.Issue) :
    (checkpoint.remediate graph issues).OnRecord where
  graph := by
    rintro _ ⟨⟩
    exact graphOnRecord
  subtasks := fun filed inside => onRecord.subtasks filed (List.mem_of_mem_filter inside)

end Checkpoint

/-- A plan that a direct provider answered names it. -/
theorem onRecord_plannedGraph (sharedContext : Utf16) (tasks : List Step) (planner : Planner) :
    (plannedGraph sharedContext tasks planner).OnRecord := by
  intro provider direct planned
  cases planner with
  | nobody => contradiction
  | registry service => cases planned; rfl
  | freebuff modelId => cases planned; exact (freebuff_not_direct direct).elim
  | opencode modelId => cases planned; exact (opencode_not_direct direct).elim

section World

variable {world : World} {checkpoint : Checkpoint} {stage : Stage}

theorem World.OnRecord.at' (onRecord : world.OnRecord) (checkpointOnRecord : checkpoint.OnRecord)
    (stageOnRecord : stage.OnRecord) : (world.at' checkpoint stage).OnRecord where
  versions := onRecord.versions
  process := by
    rintro _ ⟨⟩
    exact ⟨checkpointOnRecord, stageOnRecord⟩
  verified := onRecord.verified

theorem World.OnRecord.write (onRecord : world.OnRecord)
    (checkpointOnRecord : checkpoint.OnRecord) (stageOnRecord : stage.OnRecord) :
    (world.write checkpoint stage).OnRecord where
  versions := by
    intro version inside
    cases List.mem_append.1 inside with
    | inl before => exact onRecord.versions version before
    | inr here => exact List.mem_singleton.1 here ▸ checkpointOnRecord.scrub
  process := by
    rintro _ ⟨⟩
    exact ⟨checkpointOnRecord, stageOnRecord⟩
  verified := onRecord.verified

theorem World.OnRecord.scheduled (onRecord : world.OnRecord)
    (checkpointOnRecord : checkpoint.OnRecord) {scheduler : Scheduler} (traced : scheduler.Traced)
    (id : StepId) : (world.scheduled checkpoint id scheduler).OnRecord := by
  have noted := checkpointOnRecord.note id traced.entries
  simp only [World.scheduled]
  split
  next => exact onRecord.write noted traced
  next => exact onRecord.at' noted traced

theorem World.OnRecord.finished (onRecord : world.OnRecord)
    (checkpointOnRecord : checkpoint.OnRecord) {scheduler : Scheduler}
    (traced : scheduler.Traced) : (world.finished checkpoint scheduler).OnRecord := by
  simp only [World.finished]
  split
  next =>
    exact onRecord.write ⟨checkpointOnRecord.graph, checkpointOnRecord.subtasks⟩ trivial
  next =>
    split
    next => exact onRecord.write (checkpointOnRecord.recordAll traced.entries) trivial
    next =>
      apply onRecord.write (checkpointOnRecord.recordAll traced.entries)
      split
      next => trivial
      next => exact traced.entries

variable {parse : Utf16 → ParseResult} {maxRemediations : Nat}

theorem World.OnRecord.concluded (onRecord : world.OnRecord)
    (checkpointOnRecord : checkpoint.OnRecord) {run : Run} (graphOnRecord : run.graph.OnRecord)
    (verdict : Verdict) (issues : List Verify.Issue) (drain : Bool) :
    (world.concluded parse maxRemediations checkpoint run verdict issues drain).OnRecord := by
  simp only [World.concluded]
  split
  next =>
    split
    next => exact onRecord.write (checkpointOnRecord.remediate graphOnRecord issues) trivial
    next => exact onRecord.at' checkpointOnRecord trivial
  next =>
    obtain ⟨versions, process, verified⟩ :
        (world.write (checkpoint.enterPhase .verified) .returned).OnRecord :=
      onRecord.write ⟨checkpointOnRecord.graph, checkpointOnRecord.subtasks⟩ trivial
    exact ⟨versions, process, verified⟩

theorem World.OnRecord.next {after : World} {label : Label} (onRecord : world.OnRecord)
    (stepped : world.Stepped parse maxRemediations label after) : after.OnRecord := by
  cases stepped with
  | enterNew idle => exact onRecord.at' ⟨by simp [newCheckpoint], by simp [newCheckpoint]⟩ trivial
  | enter version checkpoint idle found =>
      exact onRecord.at' (onRecord.versions checkpoint (List.mem_of_getElem? found)) trivial
  | plan checkpoint sharedContext tasks planner working unplanned =>
      obtain ⟨checkpointOnRecord, -⟩ := onRecord.process _ working
      refine onRecord.write ⟨?_, checkpointOnRecord.subtasks⟩ trivial
      rintro _ ⟨⟩
      exact onRecord_plannedGraph sharedContext tasks planner
  | begin' checkpoint graph freebuff opencode working planned =>
      obtain ⟨checkpointOnRecord, -⟩ := onRecord.process _ working
      exact onRecord.at' checkpointOnRecord
        (.start (fun _ => listed_of_mem_resolve) checkpointOnRecord.subtasks)
  | schedule checkpoint scheduler after event working moved =>
      obtain ⟨checkpointOnRecord, traced⟩ := onRecord.process _ working
      exact onRecord.scheduled checkpointOnRecord
        (traced.next (Scheduler.stepped_of_next moved)) _
  | finish checkpoint scheduler working quiet =>
      obtain ⟨checkpointOnRecord, traced⟩ := onRecord.process _ working
      exact onRecord.finished checkpointOnRecord traced
  | reuse checkpoint entries graph verification working planned judged already =>
      obtain ⟨checkpointOnRecord, -⟩ := onRecord.process _ working
      exact onRecord.concluded checkpointOnRecord (checkpointOnRecord.graph graph planned) _ _ _
  | verify checkpoint entries working unjudged =>
      obtain ⟨checkpointOnRecord, entriesOnRecord⟩ := onRecord.process _ working
      exact onRecord.write ⟨checkpointOnRecord.graph, checkpointOnRecord.subtasks⟩ entriesOnRecord
  | report checkpoint entries graph enabled hasChat strict checks reply drain at' verified working
      planned called =>
      obtain ⟨checkpointOnRecord, entriesOnRecord⟩ := onRecord.process _ working
      have graphOnRecord := checkpointOnRecord.graph graph planned
      have added : (world.addVerified verified).OnRecord := by
        refine ⟨onRecord.versions, onRecord.process, ?_⟩
        intro other inside
        cases List.mem_append.1 inside with
        | inl before => exact onRecord.verified other before
        | inr here =>
            rw [List.mem_singleton.1 here, called]
            exact ⟨graphOnRecord, entriesOnRecord, rfl⟩
      have judgedOnRecord : (checkpoint.judge verified at').OnRecord :=
        ⟨checkpointOnRecord.graph, checkpointOnRecord.subtasks⟩
      exact added.concluded judgedOnRecord graphOnRecord _ _ _
  | persist checkpoint stage working =>
      obtain ⟨checkpointOnRecord, stageOnRecord⟩ := onRecord.process _ working
      exact onRecord.write checkpointOnRecord stageOnRecord
  | die process working => exact ⟨onRecord.versions, by simp, onRecord.verified⟩

theorem onRecord_of_reachable
    (reachable : Reachable (system parse maxRemediations) always world) : world.OnRecord := by
  apply reachable.invariant World.OnRecord
  · rintro _ rfl
    exact ⟨by simp [World.empty], by simp [World.empty], by simp [World.empty]⟩
  · intro world label after _ onRecord _ stepped
    exact onRecord.next (World.stepped_of_next parse maxRemediations stepped)

end World

/-! ## Independence -/

/-- The provider's answer is the plan, or part of a step's output. -/
def Verified.Produced (verified : Verified) (provider : Utf16) : Prop :=
  verified.graph.planner = some provider ∨
    ∃ entry ∈ verified.entries, ∃ candidate ∈ entry.producers, provider ∈ providersOf candidate

/-- A direct provider that produced part of the run is counted as used. -/
theorem Verified.OnRecord.used {verified : Verified} (onRecord : verified.OnRecord)
    {provider : Utf16} (direct : provider ∈ failoverOrder) (produced : verified.Produced provider) :
    provider ∈ usedProviders verified.entries [verified.graph.plannedBy] := by
  have recorded : phase2ModelId provider ∈
      [verified.graph.plannedBy].filterMap id ++ verified.entries.flatMap modelIdsOf := by
    rcases produced with planned | ⟨entry, inside, candidate, produces, answers⟩
    · rw [onRecord.graph provider direct planned]
      exact List.mem_append_left _ List.mem_cons_self
    · apply List.mem_append_right
      obtain ⟨listed, attested⟩ := onRecord.entries entry inside candidate produces
      rcases listed with free | open' | ⟨other, otherDirect, rfl⟩
      · simp only [providersOf, if_neg (free ▸ freebuff_ne_phase2), List.mem_singleton] at answers
        exact (freebuff_not_direct (free ▸ answers ▸ direct)).elim
      · simp only [providersOf, if_neg (open' ▸ opencode_ne_phase2), List.mem_singleton] at answers
        exact (opencode_not_direct (open' ▸ answers ▸ direct)).elim
      · rw [providersOf_phase2 otherDirect, List.mem_singleton] at answers
        obtain ⟨attempt, made, same⟩ := attested rfl
        refine List.mem_flatMap.2 ⟨entry, inside, List.mem_append_left _ ?_⟩
        exact List.mem_map.2 ⟨attempt, made, by rw [same, answers]⟩
  refine List.mem_map.2 ⟨phase2ModelId provider, ?_, withoutPool_phase2ModelId direct⟩
  exact List.mem_filter.2 ⟨recorded, rfl⟩

/-- In every life of a task: no provider that the request for a verdict can reach produced
the plan or an output of the judged run; and when every direct provider did, nobody is
asked and the run is marked unjudged. -/
theorem judge_independent {parse : Utf16 → ParseResult} {maxRemediations : Nat} {world : World}
    (reachable : Reachable (system parse maxRemediations) always world) :
    ∀ verified ∈ world.verified,
      (∀ provider, verified.asked = some provider →
        ∀ reached ∈ chatOrder provider, ¬ verified.Produced reached) ∧
      ((∀ provider ∈ failoverOrder, verified.Produced provider) →
        verified.asked = none ∧ verified.report.judge = none ∧
          verified.report.unjudged = true) := by
  intro verified inside
  have onRecord := (onRecord_of_reachable reachable).verified verified inside
  constructor
  · intro provider asked reached route produced
    obtain ⟨candidate, unused⟩ := mem_candidates_of_asked asked
    rw [onRecord.candidates] at candidate
    rw [chatOrder_direct candidate, List.mem_singleton] at route
    exact unused (onRecord.used candidate (route ▸ produced))
  · intro exhausted
    have nobody : verified.asked = none := by
      apply asked_eq_none_of_used
      intro candidate member
      rw [onRecord.candidates] at member
      exact onRecord.used member (exhausted candidate member)
    exact ⟨nobody, unjudged_of_asked_eq_none nobody⟩

section Example

/-- A plan of groq with one step. -/
def onlyStep : Step where
  id := ofString "task-1"
  title := ofString "Greet"
  aspect := ofString "documentation"
  description := ofString "Say hello."
  dependsOn := []
  deliverable := ofString "A greeting."

def together : Candidate := { modelId := phase2ModelId (ofString "together"), pool := phase2 }

/-- The step is completed by together, then the run is verified. -/
def greeting : List Label := [
  .enter none,
  .plan [] [onlyStep] (.registry (ofString "groq")),
  .begin' [] [],
  .schedule (.dispatch onlyStep.id [together] 1),
  .schedule (.call onlyStep.id (.usable (ofString "Hello.")) 5 none 2),
  .finish,
  .verify,
  .report true true false [] (.verdict .pass [] [] none) false 3]

/-- The judge of the greeting is the first provider with no part in it. -/
theorem judge_independent_greeting : ∃ (world : World) (verified : Verified),
    verified ∈ world.verified ∧ verified.asked = some (ofString "openrouter") ∧
      ∀ reached ∈ chatOrder (ofString "openrouter"), ¬ verified.Produced reached := by
  let parse := OutputParser.parseTaskOutput fun _ => none
  have ran : ∃ after, (system parse 1).exec always World.empty greeting = some after ∧
      ∃ verified, verified ∈ after.verified ∧ verified.asked = some (ofString "openrouter") :=
    ⟨_, rfl, _, List.mem_cons_self, rfl⟩
  obtain ⟨world, ran, verified, inside, asked⟩ := ran
  have reachable : Reachable (system parse 1) always world := Reachable.of_exec (.start rfl) ran
  exact ⟨world, verified, inside, asked,
    (judge_independent reachable verified inside).1 _ asked⟩

end Example

end Orchestrate

end TitanRunner
