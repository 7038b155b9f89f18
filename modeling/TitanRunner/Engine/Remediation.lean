import TitanRunner.Engine.Independence

/-!
# Remediation is bounded and exact

The loop of `runOrchestration` after a failed verification: the steps that are sent back are
the least set that is closed downstream of those the report names, a round re-runs these and
no others, and a call makes a bounded number of rounds.
-/

namespace TitanRunner

namespace Orchestrator

/-! ## A scheduler that re-runs some steps -/

/-- The states of a run that nobody cancels. -/
def usualState (state : StepState) : Prop :=
  state = .pending ∨ state = .running ∨ state = .complete ∨ state = .failed ∨ state = .blocked

/-- A scheduler of a graph. -/
structure Scheduler.Regular (graph : Graph) (scheduler : Scheduler) : Prop where
  coherent : scheduler.Coherent
  steps : ∀ id, (scheduler.entries.get id).map Entry.step = KeyedList.get Step.id graph.tasks id
  usual : ∀ id entry, scheduler.entries.get id = some entry → usualState entry.state

/-- What a round that re-runs `targets` has done so far: the other steps are complete and were
not called, and a target that is complete was. -/
structure Scheduler.Reruns (targets : List StepId) (scheduler : Scheduler) : Prop where
  kept : ∀ id entry, id ∉ targets → scheduler.entries.get id = some entry → entry.state = .complete
  called : ∀ call ∈ scheduler.calls, call.id ∈ targets
  rerun : ∀ id entry, id ∈ targets → scheduler.entries.get id = some entry →
    entry.state = .complete → ∃ call ∈ scheduler.calls, call.id = id

section Rounds

variable {graph : Graph} {scheduler after : Scheduler} {event : Event} {targets : List StepId}

theorem usualState_settled {state : StepState} (usual : usualState state)
    (undrained : [.pending, .queued, .running].contains state = false) :
    state = .complete ∨ state = .failed ∨ state = .blocked := by
  rcases usual with rfl | rfl | rest
  · contradiction
  · contradiction
  · exact rest

/-- The state an event leaves its step in. -/
theorem usual_of_stepped (stepped : scheduler.Stepped event after)
    (usual : ∀ id entry, scheduler.entries.get id = some entry → usualState entry.state)
    (id : StepId) (entry : Entry) (found : after.entries.get id = some entry) :
    usualState entry.state := by
  have moved : ∀ {old new : Entry}, scheduler.entries.get old.id = some old → new.step = old.step →
      after.entries = KeyedList.set Entry.id scheduler.entries new → usualState new.state →
      usualState entry.state := by
    intro old new there sameStep set fine
    have here := Entries.get_set new there sameStep id
    rw [← set, found] at here
    split at here
    next =>
      rw [Option.some.inj here]
      exact fine
    next => exact usual id entry here.symm
  cases stepped with
  | block old there blocked => exact @moved old old.block there rfl rfl (by simp [usualState, Entry.block])
  | noCandidate old at' there ready =>
      exact @moved old (old.fail noCandidateError at') there rfl rfl (by simp [usualState, Entry.fail])
  | dispatch old ranked at' current others there ready distinct ranks =>
      exact @moved old (old.start current at') there rfl rfl (by simp [usualState, Entry.start])
  | call flight old new goesOn answer ms tokensUsed at' flying same there answered =>
      obtain ⟨sameStep, later⟩ := Flight.answer_moved answered
      apply moved there sameStep (Scheduler.entries_settle _ new goesOn)
      rcases later with ⟨_, _, _, sameState⟩ | ⟨_, ended⟩
      · rw [sameState]
        exact usual _ old there
      · exact .inr (.inr (ended.imp_right .inl))

theorem Scheduler.Regular.next (regular : scheduler.Regular graph)
    (stepped : scheduler.Stepped event after) : after.Regular graph where
  coherent := regular.coherent.next stepped
  steps id := by
    obtain ⟨entry, moved, moves⟩ := stepped.moves regular.coherent
    rw [moves.steps, regular.steps]
  usual := usual_of_stepped stepped regular.usual

theorem Scheduler.Regular.start (graph : Graph) (candidateModels : List Candidate)
    (resume : Subtasks) : (Scheduler.start graph candidateModels resume).Regular graph where
  coherent := by
    intro flight flying
    contradiction
  steps id := by
    simp only [Scheduler.start, get_restoreEntries, Option.map_map]
    cases KeyedList.get Step.id graph.tasks id <;> simp
  usual id entry found := by
    obtain ⟨step, _, restored⟩ := Option.map_eq_some_iff.1
      ((get_restoreEntries resume graph.tasks id).symm.trans found)
    subst restored
    simp only [restoreEntry]
    split
    next => exact .inl rfl
    next prior _ =>
      split
      next settled =>
        simp only [Snapshot.settled, Bool.or_eq_true, Bool.and_eq_true, decide_eq_true_eq] at settled
        exact .inr (.inr (settled.imp_right fun both => .inl both.1))
      next => exact .inl rfl

/-- A move of one step, with the calls it made. -/
theorem Scheduler.Reruns.moves {entry moved : Entry} (reruns : scheduler.Reruns targets)
    (moves : scheduler.Moves after entry moved) (calls : List Call)
    (made : after.calls = scheduler.calls ++ calls) (own : ∀ call ∈ calls, call.id = entry.id)
    (asked : moved.state = .complete → calls ≠ []) : after.Reruns targets := by
  have target : entry.id ∈ targets := by
    by_contra other
    have complete := reruns.kept entry.id entry other moves.found
    cases moves.live with
    | inl pending =>
        rw [complete] at pending
        contradiction
    | inr running =>
        rw [complete] at running
        contradiction
  have entries : ∀ id other, after.entries.get id = some other →
      id = entry.id ∧ other = moved ∨ scheduler.entries.get id = some other := by
    intro id other found
    rw [moves.get] at found
    split at found
    next same => exact .inl ⟨same, (Option.some.inj found).symm⟩
    next => exact .inr found
  constructor
  · intro id other spared found
    cases entries id other found with
    | inl here => exact absurd (here.1 ▸ target) spared
    | inr before => exact reruns.kept id other spared before
  · intro call inside
    rw [made] at inside
    cases List.mem_append.1 inside with
    | inl before => exact reruns.called call before
    | inr here => exact own call here ▸ target
  · intro id other inside found complete
    rw [made]
    cases entries id other found with
    | inl here =>
        obtain ⟨call, member⟩ := List.exists_mem_of_ne_nil calls (asked (here.2 ▸ complete))
        exact ⟨call, List.mem_append_right _ member, (own call member).trans here.1.symm⟩
    | inr before =>
        obtain ⟨call, member, same⟩ := reruns.rerun id other inside before complete
        exact ⟨call, List.mem_append_left _ member, same⟩

/-- A round calls and moves its targets only. -/
theorem Scheduler.Reruns.next (reruns : scheduler.Reruns targets) (coherent : scheduler.Coherent)
    (stepped : scheduler.Stepped event after) : after.Reruns targets := by
  have uncalled : ∀ {entry moved : Entry}, scheduler.Moves after entry moved →
      after.calls = scheduler.calls → moved.state ≠ .complete → after.Reruns targets := by
    intro entry moved moves same unfinished
    exact reruns.moves moves [] (by rw [same, List.append_nil]) (by simp)
      fun complete => absurd complete unfinished
  cases stepped with
  | block entry found blocked =>
      have moves : scheduler.Moves (scheduler.setEntry entry.block) entry entry.block :=
        .of_set found (.inl (isBlocked_pending blocked)) rfl rfl rfl rfl
      exact uncalled moves rfl (by simp [Entry.block])
  | noCandidate entry at' found ready =>
      have moves : scheduler.Moves (scheduler.setEntry (entry.fail noCandidateError at')) entry
          (entry.fail noCandidateError at') :=
        .of_set found (.inl (isReady_pending ready)) rfl rfl rfl rfl
      exact uncalled moves rfl (by simp [Entry.fail])
  | dispatch entry ranked at' current others found ready distinct ranks =>
      have moves : scheduler.Moves (scheduler.launch (entry.start current at')
          { id := entry.id, current, others, answered := [] }) entry (entry.start current at') :=
        .of_set found (.inl (isReady_pending ready)) rfl rfl rfl rfl
      exact uncalled moves rfl (by simp [Entry.start])
  | call flight entry moved goesOn answer ms tokensUsed at' flying same found answered =>
      have running := coherent.running flying same found
      have moves : scheduler.Moves ((scheduler.called flight.current entry.step).settle moved goesOn)
          entry moved := by
        refine .of_set found (.inr running) (Flight.answer_moved answered).1
          (Scheduler.entries_settle _ moved goesOn) ?_ ?_ <;> cases goesOn <;> rfl
      refine reruns.moves moves [_] (by cases goesOn <;> rfl) ?_ fun _ => List.cons_ne_nil _ _
      intro call inside
      rw [List.mem_singleton.1 inside]
      rfl

/-- A round starts with its targets fresh and the other steps as they were stored. -/
theorem Scheduler.Reruns.start (graph : Graph) (candidateModels : List Candidate)
    {resume : Subtasks} (dropped : ∀ id ∈ targets, resume.get id = none)
    (stored : ∀ step ∈ graph.tasks, step.id ∉ targets →
      ∃ prior, resume.get step.id = some prior ∧ prior.state = .complete) :
    (Scheduler.start graph candidateModels resume).Reruns targets := by
  have restored : ∀ id entry,
      (Scheduler.start graph candidateModels resume).entries.get id = some entry →
      ∃ step ∈ graph.tasks, step.id = id ∧ entry = restoreEntry resume step := by
    intro id entry found
    obtain ⟨step, known, made⟩ := Option.map_eq_some_iff.1
      ((get_restoreEntries resume graph.tasks id).symm.trans found)
    exact ⟨step, KeyedList.mem_of_get known, KeyedList.key_of_get known, made.symm⟩
  constructor
  · intro id entry spared found
    obtain ⟨step, inside, rfl, rfl⟩ := restored id entry found
    obtain ⟨prior, kept, complete⟩ := stored step inside spared
    have settled : prior.settled = true := by simp [Snapshot.settled, complete]
    simp only [restoreEntry, kept, settled, if_true, complete]
  · intro call made
    contradiction
  · intro id entry target found complete
    obtain ⟨step, inside, rfl, rfl⟩ := restored id entry found
    simp [restoreEntry, dropped _ target, freshEntry] at complete

end Rounds

end Orchestrator

namespace Orchestrate

open Orchestrator Verify Redact Utf16 TransitionSystem System
open OutputParser (ParseResult parseTaskOutput)

/-! ## The steps that are sent back -/

/-- What stands on a target is one. -/
def Closed (tasks : List Step) (targets : StepId → Prop) : Prop :=
  ∀ step ∈ tasks, ∀ dependency ∈ step.dependsOn, targets dependency → targets step.id

/-- The least downstream-closed set with the seeds. -/
structure LeastClosed (tasks : List Step) (seeds targets : List StepId) : Prop where
  contains : seeds ⊆ targets
  closed : Closed tasks (· ∈ targets)
  least : ∀ set : StepId → Prop, (∀ id ∈ seeds, set id) → Closed tasks set → ∀ id ∈ targets, set id

/-- The steps of the graph that a report names. -/
def namedSteps (graph : Graph) (issues : List Verify.Issue) : List StepId :=
  (issues.filterMap Verify.Issue.step).filter fun id =>
    !id.isEmpty && (graph.tasks.map Step.id).contains id

/-- The steps a failed verification sends back on their own account: those the report names,
else the code-generation steps, else all. -/
def seedSteps (graph : Graph) (issues : List Verify.Issue) : List StepId :=
  let coding := (graph.tasks.filter fun step => step.aspect = ofString "code-generation").map Step.id
  if (namedSteps graph issues).isEmpty then
    if coding.isEmpty then graph.tasks.map Step.id else coding
  else namedSteps graph issues

section Targets

variable {tasks : List Step} {targets : List StepId} {set : StepId → Prop}

theorem growTargets_cons (step : Step) (rest : List Step) (targets : List StepId) :
    growTargets (step :: rest) targets = growTargets rest
      (if step.id ∈ targets then targets
       else if step.dependsOn.any (· ∈ targets) then targets ++ [step.id] else targets) := rfl

theorem subset_growTargets (tasks : List Step) (targets : List StepId) :
    targets ⊆ growTargets tasks targets := by
  induction tasks generalizing targets with
  | nil => exact List.Subset.refl _
  | cons step rest ih =>
      rw [growTargets_cons]
      refine List.Subset.trans ?_ (ih _)
      split
      next => exact List.Subset.refl _
      next =>
        split
        next => exact List.subset_append_left _ _
        next => exact List.Subset.refl _

/-- A round adds what stands on a target. -/
theorem mem_growTargets {step : Step} {dependency : StepId} (inside : step ∈ tasks)
    (depends : dependency ∈ step.dependsOn) (target : dependency ∈ targets) :
    step.id ∈ growTargets tasks targets := by
  induction tasks generalizing targets with
  | nil => contradiction
  | cons first rest ih =>
      rw [growTargets_cons]
      cases List.mem_cons.1 inside with
      | inl here =>
          subst here
          apply subset_growTargets
          split
          next already => exact already
          next =>
            rw [if_pos (List.any_eq_true.2 ⟨dependency, depends, by simpa using target⟩)]
            exact List.mem_append_right _ (List.mem_singleton_self _)
      | inr later =>
          apply ih later
          split
          next => exact target
          next =>
            split
            next => exact List.mem_append_left _ target
            next => exact target

/-- A round stays inside every closed set. -/
theorem growTargets_least (closed : Closed tasks set) (within : ∀ id ∈ targets, set id) :
    ∀ id ∈ growTargets tasks targets, set id := by
  induction tasks generalizing targets with
  | nil => exact within
  | cons step rest ih =>
      rw [growTargets_cons]
      apply ih fun other inside => closed other (List.mem_cons_of_mem _ inside)
      split
      next => exact within
      next =>
        split
        next stands =>
          intro id inside
          cases List.mem_append.1 inside with
          | inl before => exact within id before
          | inr here =>
              obtain ⟨dependency, depends, target⟩ := List.any_eq_true.1 stands
              rw [List.mem_singleton.1 here]
              exact closed step List.mem_cons_self dependency depends
                (within dependency (of_decide_eq_true target))
        next => exact within

/-- The steps that are no targets yet. -/
def spared (tasks : List Step) (targets : List StepId) : Nat :=
  tasks.countP fun step => step.id ∉ targets

/-- A round that adds nothing found the set closed; any other spares fewer steps. -/
theorem closed_or_spared_lt (tasks : List Step) (targets : List StepId) :
    Closed tasks (· ∈ targets) ∨ spared tasks (growTargets tasks targets) < spared tasks targets := by
  by_cases adds : ∃ step ∈ tasks, step.id ∉ targets ∧ step.id ∈ growTargets tasks targets
  · right
    obtain ⟨step, inside, spare, added⟩ := adds
    have fewer : ∀ part : List Step, spared part (growTargets tasks targets) ≤ spared part targets := by
      intro part
      apply List.countP_mono_left
      intro other _ unspoilt
      simp only [decide_eq_true_eq] at unspoilt ⊢
      exact fun target => unspoilt (subset_growTargets tasks targets target)
    obtain ⟨before, after, split⟩ := List.append_of_mem inside
    have count : ∀ targets, spared tasks targets =
        spared before targets + (spared after targets + if step.id ∉ targets then 1 else 0) := by
      intro targets
      simp [spared, split, List.countP_cons]
    have here : spared tasks (growTargets tasks targets) =
        spared before (growTargets tasks targets) + (spared after (growTargets tasks targets) + 0) := by
      rw [count, if_neg (not_not.2 added)]
    rw [here, count targets, if_pos spare]
    have := fewer before
    have := fewer after
    omega
  · left
    intro step inside dependency depends target
    by_contra spare
    exact adds ⟨step, inside, spare, mem_growTargets inside depends target⟩

theorem closed_iterate (closed : Closed tasks (· ∈ targets)) (rounds : Nat) :
    Closed tasks (· ∈ (growTargets tasks)^[rounds] targets) := by
  induction rounds generalizing targets with
  | zero => exact closed
  | succ rounds ih =>
      rw [Function.iterate_succ_apply]
      apply ih
      intro step inside dependency depends target
      apply subset_growTargets
      exact closed step inside dependency depends
        (growTargets_least closed (fun _ member => member) dependency target)

theorem closed_of_rounds {rounds : Nat} (enough : spared tasks targets ≤ rounds) :
    Closed tasks (· ∈ (growTargets tasks)^[rounds] targets) := by
  induction rounds generalizing targets with
  | zero =>
      intro step inside _ _ _
      have none' := List.countP_eq_zero.1 (Nat.le_zero.1 enough) step inside
      simpa using none'
  | succ rounds ih =>
      cases closed_or_spared_lt tasks targets with
      | inl closed => exact closed_iterate closed _
      | inr fewer =>
          rw [Function.iterate_succ_apply]
          exact ih (by omega)

/-- `remediationTargets` is the least closed set with the seeds. -/
theorem remediationTargets_least (graph : Graph) (issues : List Verify.Issue) :
    LeastClosed graph.tasks (seedSteps graph issues) (remediationTargets graph issues) := by
  have rounds : remediationTargets graph issues =
      (growTargets graph.tasks)^[graph.tasks.length] (seedSteps graph issues) := rfl
  have grown : ∀ (set : StepId → Prop) (targets : List StepId) (rounds : Nat),
      Closed graph.tasks set → (∀ id ∈ targets, set id) →
      ∀ id ∈ (growTargets graph.tasks)^[rounds] targets, set id := by
    intro set targets rounds closed
    induction rounds generalizing targets with
    | zero => exact fun within => within
    | succ rounds ih =>
        intro within
        rw [Function.iterate_succ_apply]
        exact ih _ (growTargets_least closed within)
  have kept : ∀ (targets : List StepId) (rounds : Nat),
      targets ⊆ (growTargets graph.tasks)^[rounds] targets := by
    intro targets rounds
    induction rounds generalizing targets with
    | zero => exact List.Subset.refl _
    | succ rounds ih =>
        rw [Function.iterate_succ_apply]
        exact List.Subset.trans (subset_growTargets _ _) (ih _)
  rw [rounds]
  constructor
  · exact kept _ _
  · exact closed_of_rounds List.countP_le_length
  · exact fun set seeds closed => grown set _ _ closed seeds

end Targets

/-! ## What the checkpoint has of a run that is verified -/

/-- The run of a checkpoint whose steps are all complete and stored. -/
structure Checkpoint.Holds (checkpoint : Checkpoint) (graph : Graph) (entries : Entries) : Prop where
  planned : checkpoint.graph = some graph
  steps : ∀ id, (entries.get id).map Entry.step = KeyedList.get Step.id graph.tasks id
  stored : ∀ id entry, entries.get id = some entry →
    entry.state = .complete ∧ checkpoint.subtasks.get id = some (snapshotSubtask entry)

/-- What is known of a pulse at work. -/
def Process.Tracked (process : Process) : Prop :=
  match process.stage with
  | .entered | .returned => True
  | .running scheduler =>
      ∃ graph, process.checkpoint.graph = some graph ∧ scheduler.Regular graph
  | .executed entries => process.checkpoint.phase = .executed ∧
      ∃ graph, process.checkpoint.Holds graph entries
  | .verifying entries => ∃ graph, process.checkpoint.Holds graph entries

def World.Tracked (world : World) : Prop :=
  ∀ process, world.process = some process → process.Tracked

section Tracked

variable {parse : Utf16 → ParseResult} {maxRemediations : Nat} {world after : World}
  {checkpoint : Checkpoint} {graph : Graph} {entries : Entries} {label : Label}

theorem tracked_at {process : Process} (same : world.process = some process)
    (tracked : process.Tracked) : world.Tracked := by
  intro other found
  rw [same, Option.some.injEq] at found
  exact found ▸ tracked

/-- A run that is synthesized has no step that failed, waits or was blocked. -/
theorem Checkpoint.Holds.recordAll {scheduler : Scheduler} (planned : checkpoint.graph = some graph)
    (regular : scheduler.Regular graph) (undrained : scheduler.drained = false)
    (unfailed : scheduler.entries.any isFailed = false) (phase : Phase) :
    (checkpoint.recordAll phase scheduler.entries).Holds graph scheduler.entries where
  planned := planned
  steps := regular.steps
  stored id entry found := by
    have inside := KeyedList.mem_of_get found
    constructor
    · have on : [StepState.pending, .queued, .running].contains entry.state = false := by
        rw [Bool.eq_false_iff]
        intro waits
        rw [Scheduler.drained, List.any_eq_false] at undrained
        exact undrained entry inside waits
      rw [List.any_eq_false] at unfailed
      have fine := unfailed entry inside
      rcases usualState_settled (regular.usual id entry found) on with complete | failed | blocked
      · exact complete
      · simp [isFailed, failed] at fine
      · simp [isFailed, blocked] at fine
    · change (Subtasks.record _ _).get id = _
      rw [Subtasks.get_record, found]
      rfl

theorem World.Tracked.next (tracked : world.Tracked)
    (stepped : world.Stepped parse maxRemediations label after) : after.Tracked := by
  cases stepped with
  | enterNew idle => exact tracked_at rfl trivial
  | enter version checkpoint idle found => exact tracked_at rfl trivial
  | plan checkpoint sharedContext tasks planner working unplanned => exact tracked_at rfl trivial
  | begin' checkpoint graph freebuff opencode working planned =>
      exact tracked_at rfl ⟨graph, planned, Scheduler.Regular.start _ _ _⟩
  | schedule checkpoint scheduler later event working moved =>
      obtain ⟨graph, planned, regular⟩ := tracked _ working
      have kept : Process.Tracked
          ⟨checkpoint.note (Event.id event) later.entries, .running later⟩ :=
        ⟨graph, planned, regular.next (Scheduler.stepped_of_next moved)⟩
      simp only [World.scheduled]
      split <;> exact tracked_at rfl kept
  | finish checkpoint scheduler working quiet =>
      obtain ⟨graph, planned, regular⟩ := tracked _ working
      simp only [World.finished]
      split
      next => exact tracked_at rfl trivial
      next undrained =>
        split
        next => exact tracked_at rfl trivial
        next =>
          split
          next => exact tracked_at rfl trivial
          next unfailed =>
            refine tracked_at rfl ⟨rfl, graph, ?_⟩
            exact .recordAll planned regular (by simpa using undrained) (by simpa using unfailed) _
  | reuse checkpoint entries graph verification working planned judged already =>
      simp only [World.concluded]
      split
      next => split <;> exact tracked_at rfl trivial
      next => exact tracked_at rfl trivial
  | verify checkpoint entries working open' =>
      obtain ⟨_, graph, holds⟩ := tracked _ working
      exact tracked_at rfl ⟨graph, holds.planned, holds.steps, holds.stored⟩
  | report checkpoint entries graph enabled hasChat strict checks reply drain at' verified working
      planned made =>
      simp only [World.concluded]
      split
      next => split <;> exact tracked_at rfl trivial
      next => exact tracked_at rfl trivial
  | persist checkpoint stage working => exact tracked_at rfl (tracked _ working)
  | die process working =>
      intro other found
      contradiction

theorem tracked_of_reachable
    (reachable : Reachable (system parse maxRemediations) always world) : world.Tracked := by
  apply reachable.invariant World.Tracked
  · intro world started
    rw [started]
    intro process found
    contradiction
  · intro world label after _ tracked _ stepped
    exact tracked.next (World.stepped_of_next parse maxRemediations stepped)

end Tracked

/-! ## The rounds of a call -/

/-- A pulse takes the task up: a call of `runOrchestration`. -/
def Label.isEnter : Label → Bool
  | .enter _ => true
  | _ => false

/-- A scheduler starts. -/
def Label.isBegin : Label → Bool
  | .begin' _ _ => true
  | _ => false

/-- The schedulers a call may still start. -/
def budget (maxRemediations : Nat) (world : World) : Nat :=
  match world.process with
  | none => 0
  | some process =>
      match process.stage with
      | .entered => maxRemediations - process.checkpoint.remediations + 1
      | .running _ | .executed _ | .verifying _ =>
          maxRemediations - process.checkpoint.remediations
      | .returned => 0

section Budget

variable {parse : Utf16 → ParseResult} {maxRemediations : Nat} {world after : World}
  {checkpoint : Checkpoint} {stage : Stage} {label : Label}

theorem budget_of_process {process : Process} (same : world.process = some process) :
    budget maxRemediations world = budget maxRemediations (world.at' process.checkpoint process.stage) := by
  rw [budget, same]
  rfl

theorem budget_concluded (run : Run) (verdict : Verdict) (issues : List Verify.Issue) (drain : Bool) :
    budget maxRemediations
        (world.concluded parse maxRemediations checkpoint run verdict issues drain) ≤
      maxRemediations - checkpoint.remediations := by
  simp only [World.concluded]
  split
  next =>
    split
    next more =>
      change maxRemediations - (checkpoint.remediations + 1) + 1 ≤ _
      omega
    next => exact Nat.zero_le _
  next => exact Nat.zero_le _

theorem budget_next (stepped : world.Stepped parse maxRemediations label after)
    (same : label.isEnter = false) :
    budget maxRemediations after + (if label.isBegin then 1 else 0) ≤ budget maxRemediations world := by
  cases stepped with
  | enterNew idle => contradiction
  | enter version checkpoint idle found => contradiction
  | plan checkpoint sharedContext tasks planner working unplanned =>
      rw [budget_of_process working]
      exact le_refl _
  | begin' checkpoint graph freebuff opencode working planned =>
      rw [budget_of_process working]
      exact le_refl _
  | schedule checkpoint scheduler later event working moved =>
      rw [budget_of_process working]
      simp only [World.scheduled]
      split <;> exact le_refl _
  | finish checkpoint scheduler working quiet =>
      rw [budget_of_process working]
      simp only [World.finished]
      split
      next => exact Nat.zero_le _
      next =>
        split
        next => exact Nat.zero_le _
        next =>
          split
          next => exact Nat.zero_le _
          next => exact le_refl _
  | reuse checkpoint entries graph verification working planned judged already =>
      rw [budget_of_process working]
      exact budget_concluded _ _ _ _
  | verify checkpoint entries working open' =>
      rw [budget_of_process working]
      exact le_refl _
  | report checkpoint entries graph enabled hasChat strict checks reply drain at' verified working
      planned made =>
      rw [budget_of_process working]
      exact budget_concluded _ _ _ _
  | persist checkpoint stage working =>
      rw [budget_of_process working]
      exact le_refl _
  | die process working => exact Nat.zero_le _

/-- The schedulers that labels start, none of which takes the task up anew. -/
theorem rounds_le_budget {labels : List Label} (same : ∀ label ∈ labels, label.isEnter = false)
    (ran : (system parse maxRemediations).exec always world labels = some after) :
    labels.countP Label.isBegin ≤ budget maxRemediations world := by
  induction labels generalizing world with
  | nil => exact Nat.zero_le _
  | cons label rest ih =>
      simp only [exec] at ran
      split at ran
      next =>
        split at ran
        next middle stepped =>
          have here := budget_next (World.stepped_of_next parse maxRemediations stepped)
            (same label List.mem_cons_self)
          have there := ih (fun other inside => same other (List.mem_cons_of_mem _ inside)) ran
          rw [List.countP_cons]
          omega
        next => contradiction
      next => contradiction

end Budget

/-! ## The claim of the loop -/

/-- The labels of one round of the scheduler. -/
def Label.InRound : Label → Prop
  | .persist | .begin' _ _ | .schedule _ => True
  | _ => False

instance (label : Label) : Decidable label.InRound :=
  match label with
  | .persist | .begin' _ _ | .schedule _ => inferInstanceAs (Decidable True)
  | .enter _ | .plan _ _ _ | .finish | .reuse | .verify | .report _ _ _ _ _ _ _ | .die =>
      inferInstanceAs (Decidable False)

section Loop

variable (parse : Utf16 → ParseResult) (maxRemediations : Nat)

/-- The round that starts from here re-runs the targets and nothing else: what it calls are
targets, the other steps are complete throughout, and at its end each target was run again. -/
def World.RerunsExactly (world : World) (targets : List StepId) : Prop :=
  ∀ later, Reachable ((system parse maxRemediations).onward world) (fun _ label => label.InRound)
      later →
    ∀ checkpoint scheduler, later.process = some ⟨checkpoint, .running scheduler⟩ →
      scheduler.Reruns targets ∧
        (scheduler.quiet = true → scheduler.drained = false →
          ∀ id entry, scheduler.entries.get id = some entry →
            entry.state = .complete ∨ entry.state = .failed ∨ entry.state = .blocked)

/-- The run of this round is judged. -/
def World.Judging (world : World) : Prop :=
  ∃ process, world.process = some process ∧
    ((∃ entries, process.stage = .executed entries) ∨ ∃ entries, process.stage = .verifying entries)

/-- A failing report was made by this step. -/
def FailedIn (world after : World) (verified : Verified) : Prop :=
  after.verified = world.verified ++ [verified] ∧ verified.report.verdict = .fail

def Label.drains : Label → Bool
  | .report _ _ _ _ _ drain _ => drain
  | _ => false

/-- What the loop does in a state of a run, for what the seeds of a report are and whether the
drain hook may end it. -/
structure World.Remediates (seeds : Graph → List Verify.Issue → List StepId) (drainEnds : Bool)
    (world : World) : Prop where
  /-- Going round again re-runs the least closed set with the seeds of a failing report. -/
  again : ∀ label after checkpoint, world.Judging →
    world.next parse maxRemediations label = some after →
    after.process = some ⟨checkpoint, .entered⟩ →
    ∃ verified targets, FailedIn world after verified ∧
      LeastClosed verified.graph.tasks (seeds verified.graph verified.report.issues) targets ∧
      after.RerunsExactly parse maxRemediations targets
  /-- A call starts a bounded number of schedulers. -/
  rounds : ∀ version labels after, (∀ label ∈ labels, label.isEnter = false) →
    (system parse maxRemediations).exec always world (.enter version :: labels) = some after →
    labels.countP Label.isBegin ≤ maxRemediations + 1
  /-- A call that ends here without a deliverable ends on a failing report, with no round left
  or, where it may, because the drain hook spoke. -/
  fails : ∀ label after checkpoint, world.Judging →
    world.next parse maxRemediations label = some after →
    after.process = some ⟨checkpoint, .returned⟩ → after.delivered = world.delivered →
    (∃ verified, FailedIn world after verified) ∧
      (maxRemediations ≤ checkpoint.remediations ∨ drainEnds = true ∧ label.drains = true)

end Loop

section Proof

variable {parse : Utf16 → ParseResult} {maxRemediations : Nat} {world after : World}
  {checkpoint : Checkpoint} {graph : Graph} {entries : Entries} {label : Label}

@[simp] theorem Step.hinted_id (targets : List StepId) (hint : Utf16) (step : Step) :
    (Step.hinted targets hint step).id = step.id := by
  simp only [Step.hinted]
  split <;> rfl

/-- The round after a remediation. -/
theorem rerunsExactly_of_remediate (holds : checkpoint.Holds graph entries)
    (issues : List Verify.Issue)
    (sent : after.process = some ⟨checkpoint.remediate graph issues, .entered⟩) :
    after.RerunsExactly parse maxRemediations (remediationTargets graph issues) := by
  let targets := remediationTargets graph issues
  let remediated := checkpoint.remediate graph issues
  let hinted := Step.hinted targets (remediationHint (checkpoint.remediations + 1 + 1) issues)
  have lookup : ∀ id, remediated.subtasks.get id =
      if id ∈ targets then none else checkpoint.subtasks.get id := by
    intro id
    have filtered := @KeyedList.get_filter_key _ _ _ Prod.fst checkpoint.subtasks id
      fun id => decide (id ∉ targets)
    change (KeyedList.get Prod.fst (checkpoint.subtasks.filter _) id).map Prod.snd = _
    rw [filtered]
    by_cases target : id ∈ targets <;> simp [target, Subtasks.get]
  have stored : ∀ step ∈ graph.tasks.map hinted, step.id ∉ targets →
      ∃ prior, remediated.subtasks.get step.id = some prior ∧ prior.state = .complete := by
    intro step inside spared
    obtain ⟨before, member, rfl⟩ := List.mem_map.1 inside
    have sameId : (hinted before).id = before.id := Step.hinted_id _ _ before
    rw [sameId] at spared ⊢
    obtain ⟨known, found⟩ := KeyedList.exists_get_iff.2 (List.mem_map_of_mem (f := Step.id) member)
    obtain ⟨entry, there, _⟩ := Option.map_eq_some_iff.1 ((holds.steps before.id).trans found)
    obtain ⟨complete, kept⟩ := holds.stored before.id entry there
    exact ⟨snapshotSubtask entry, by rw [lookup, if_neg spared, kept], complete⟩
  intro later reachable checkpoint' scheduler working
  have inv : later.process = some ⟨remediated, .entered⟩ ∨
      ∃ checkpoint scheduler, later.process = some ⟨checkpoint, .running scheduler⟩ ∧
        ∃ graph, scheduler.Regular graph ∧ scheduler.Reruns targets := by
    apply reachable.invariant fun later => later.process = some ⟨remediated, .entered⟩ ∨
      ∃ checkpoint scheduler, later.process = some ⟨checkpoint, .running scheduler⟩ ∧
        ∃ graph, scheduler.Regular graph ∧ scheduler.Reruns targets
    · intro world same
      exact .inl (same ▸ sent)
    · intro world label later _ inv inRound stepped
      have cases' := World.stepped_of_next parse maxRemediations stepped
      cases inv with
      | inl entered =>
          cases cases' with
          | begin' checkpoint graph' freebuff opencode working planned =>
              rw [entered, Option.some.injEq, Process.mk.injEq] at working
              obtain ⟨rfl, _⟩ := working
              obtain rfl : graph' = { graph with tasks := graph.tasks.map hinted } :=
                Option.some.inj (planned.symm.trans rfl)
              refine .inr ⟨_, _, rfl, _, Scheduler.Regular.start _ _ _, ?_⟩
              apply Scheduler.Reruns.start
              · intro id target
                rw [lookup, if_pos target]
              · exact stored
          | persist checkpoint stage working =>
              rw [entered, Option.some.injEq] at working
              cases working
              exact .inl rfl
          | schedule checkpoint scheduler later event working moved =>
              rw [entered] at working
              cases working
          | _ => contradiction
      | inr running =>
          obtain ⟨checkpoint, scheduler, same, graph', regular, reruns⟩ := running
          cases cases' with
          | begin' checkpoint graph' freebuff opencode working planned =>
              rw [same] at working
              cases working
          | persist checkpoint stage working =>
              rw [same, Option.some.injEq] at working
              cases working
              exact .inr ⟨_, _, rfl, graph', regular, reruns⟩
          | schedule checkpoint' scheduler' later event working moved =>
              rw [same, Option.some.injEq] at working
              cases working
              have moved' := Scheduler.stepped_of_next moved
              refine .inr ⟨checkpoint.note (Event.id event) later.entries, later, ?_, graph',
                regular.next moved', reruns.next regular.coherent moved'⟩
              simp only [World.scheduled]
              split <;> rfl
          | _ => contradiction
  cases inv with
  | inl entered =>
      rw [entered] at working
      cases working
  | inr running =>
      obtain ⟨_, _, same, graph', regular, reruns⟩ := running
      rw [same, Option.some.injEq, Process.mk.injEq, Stage.running.injEq] at working
      obtain ⟨rfl, rfl⟩ := working
      refine ⟨reruns, fun _ undrained id entry found => ?_⟩
      apply usualState_settled (regular.usual id entry found)
      rw [Bool.eq_false_iff]
      intro waits
      rw [Scheduler.drained, List.any_eq_false] at undrained
      exact undrained entry (KeyedList.mem_of_get found) waits

theorem delivered_ne (run : Run) (issues : List Verify.Issue) (drain : Bool) :
    (world.concluded parse maxRemediations checkpoint run .pass issues drain).delivered ≠
      world.delivered := by
  simp [World.concluded, World.addDelivered, World.write]

/-- The step out of a judged run: a pass delivers, a failing report is on record and goes round
again or ends the call. -/
theorem judging_cases (tracked : world.Tracked) (judging : world.Judging)
    (stepped : world.Stepped parse maxRemediations label after) {process : Process}
    (went : after.process = some process) :
    (∃ entries, process.stage = .executed entries) ∨ (∃ entries, process.stage = .verifying entries) ∨
      (process.stage = .returned ∧ after.delivered ≠ world.delivered) ∨
      ∃ verified checkpoint, FailedIn world after verified ∧
        checkpoint.Holds verified.graph verified.entries ∧
        (process = ⟨checkpoint.remediate verified.graph verified.report.issues, .entered⟩ ∨
          process = ⟨checkpoint, .returned⟩ ∧
            (maxRemediations ≤ checkpoint.remediations ∨ label.drains = true)) := by
  obtain ⟨before, there, judged⟩ := judging
  have stage : ∀ checkpoint stage, world.process = some ⟨checkpoint, stage⟩ →
      (∃ entries, stage = .executed entries) ∨ ∃ entries, stage = .verifying entries := by
    intro checkpoint stage same
    rw [there, Option.some.injEq] at same
    subst same
    exact judged
  cases stepped with
  | enterNew idle =>
      rw [idle] at there
      contradiction
  | enter version checkpoint idle found =>
      rw [idle] at there
      contradiction
  | plan checkpoint sharedContext tasks planner working unplanned =>
      rcases stage _ _ working with ⟨_, same⟩ | ⟨_, same⟩ <;> cases same
  | begin' checkpoint graph freebuff opencode working planned =>
      rcases stage _ _ working with ⟨_, same⟩ | ⟨_, same⟩ <;> cases same
  | schedule checkpoint scheduler later event working moved =>
      rcases stage _ _ working with ⟨_, same⟩ | ⟨_, same⟩ <;> cases same
  | finish checkpoint scheduler working quiet =>
      rcases stage _ _ working with ⟨_, same⟩ | ⟨_, same⟩ <;> cases same
  | reuse checkpoint entries graph verification working planned record already =>
      obtain ⟨phase, _⟩ := tracked _ working
      have passes : verification.verdict = .pass := by
        change checkpoint.phase = .executed at phase
        simp [Checkpoint.alreadyVerified, Checkpoint.passed, phase, record] at already
        exact already.1
      rw [passes] at went ⊢
      cases went
      exact .inr (.inr (.inl ⟨rfl, delivered_ne _ _ _⟩))
  | verify checkpoint entries working open' =>
      cases went
      exact .inr (.inl ⟨entries, rfl⟩)
  | report checkpoint entries graph enabled hasChat strict checks reply drain at' verified working
      planned made =>
      obtain ⟨graph', holds⟩ := tracked _ working
      obtain rfl : graph' = graph := Option.some.inj (holds.planned.symm.trans planned)
      have sameGraph : verified.graph = graph' := by rw [made]
      have sameEntries : verified.entries = entries := by rw [made]
      subst sameGraph
      subst sameEntries
      cases verdict : verified.report.verdict with
      | pass =>
          rw [verdict] at went
          cases went
          exact .inr (.inr (.inl ⟨rfl, @delivered_ne _ _ (world.addVerified verified) _ _ _ _⟩))
      | fail =>
          rw [verdict] at went
          simp only [World.concluded] at went ⊢
          refine .inr (.inr (.inr ⟨verified, checkpoint.judge verified at', ⟨?_, verdict⟩,
            ⟨holds.planned, holds.steps, holds.stored⟩, ?_⟩))
          · split <;> rfl
          · split at went
            next =>
              cases went
              exact .inl rfl
            next ended =>
              cases went
              refine .inr ⟨rfl, ?_⟩
              by_contra more
              rw [not_or, Nat.not_le] at more
              exact ended ⟨more.1, by simpa [Label.drains] using more.2⟩
  | persist checkpoint stage' working =>
      cases went
      exact (stage _ _ working).imp_right .inl
  | die process working => contradiction

/-- The loop re-runs exactly what it sends back, in a bounded number of rounds, and gives up on
a failing report only, with no round left unless the drain hook spoke. -/
theorem remediates (reachable : Reachable (system parse maxRemediations) always world) :
    world.Remediates parse maxRemediations seedSteps true := by
  have tracked := tracked_of_reachable reachable
  constructor
  · intro label after checkpoint judging stepped went
    rcases judging_cases tracked judging (World.stepped_of_next parse maxRemediations stepped) went with
      ⟨_, stage⟩ | ⟨_, stage⟩ | ⟨stage, _⟩ | ⟨verified, before, failed, holds, ways⟩
    · contradiction
    · contradiction
    · contradiction
    · cases ways with
      | inl sent =>
          refine ⟨verified, _, failed, remediationTargets_least _ _, ?_⟩
          exact rerunsExactly_of_remediate holds _ (went.trans (congrArg some sent))
      | inr ended => cases ended.1
  · intro version labels after same ran
    simp only [exec] at ran
    split at ran
    next =>
      split at ran
      next middle stepped =>
        have few := rounds_le_budget same ran
        have most : budget maxRemediations middle ≤ maxRemediations + 1 := by
          cases World.stepped_of_next parse maxRemediations stepped with
          | enterNew idle => exact Nat.succ_le_succ (Nat.sub_le _ _)
          | enter version checkpoint idle found => exact Nat.succ_le_succ (Nat.sub_le _ _)
        exact few.trans most
      next => contradiction
    next => contradiction
  · intro label after checkpoint judging stepped went undelivered
    rcases judging_cases tracked judging (World.stepped_of_next parse maxRemediations stepped) went with
      ⟨_, stage⟩ | ⟨_, stage⟩ | ⟨_, delivered⟩ | ⟨verified, before, failed, holds, ways⟩
    · contradiction
    · contradiction
    · exact absurd undelivered delivered
    · cases ways with
      | inl sent => cases sent
      | inr ended =>
          obtain ⟨same, cause⟩ := ended
          cases same
          exact ⟨⟨verified, failed⟩, cause.imp_right fun drained => ⟨rfl, drained⟩⟩

end Proof

section Greeting

/-- The judge fails the greeting without naming a step. -/
def vagueReport : Label :=
  .report true true false []
    (.verdict .fail (ofString "dull") [{ step := none, problem := ofString "dull" }] none) false 3

/-- The round that follows it. -/
def greetingAgain : List Label := [
  .begin' [] [],
  .schedule (.dispatch onlyStep.id [together] 4),
  .schedule (.call onlyStep.id (.usable (ofString "Hello!")) 5 none 5)]

theorem remediates_greeting : ∃ world,
    (system (parseTaskOutput fun _ => none) 1).exec always World.empty (greeting.take 7) = some world ∧
      world.Judging ∧ world.Remediates (parseTaskOutput fun _ => none) 1 seedSteps true := by
  have ran : ∃ world, (system (parseTaskOutput fun _ => none) 1).exec always World.empty
      (greeting.take 7) = some world ∧ world.Judging := ⟨_, rfl, _, rfl, .inr ⟨_, rfl⟩⟩
  obtain ⟨world, ran, judging⟩ := ran
  exact ⟨world, ran, judging, remediates (.of_exec (.start rfl) ran)⟩

/-- The step is re-run although the report names none. -/
theorem not_remediates_named : ¬ ∀ (parseJson : Utf16 → Option Json) (maxRemediations : Nat)
    (world : World),
    Reachable (system (parseTaskOutput parseJson) maxRemediations) always world →
    world.Remediates (parseTaskOutput parseJson) maxRemediations namedSteps false := by
  intro remediates
  let parse := parseTaskOutput fun _ => none
  have ran : ∃ world after later checkpoint checkpoint' scheduler,
      (system parse 1).exec always World.empty (greeting.take 7) = some world ∧ world.Judging ∧
      world.next parse 1 vagueReport = some after ∧
      after.process = some ⟨checkpoint, .entered⟩ ∧
      (after.verified.all fun verified => namedSteps verified.graph verified.report.issues = []) = true ∧
      ((system parse 1).onward after).exec (fun _ label => label.InRound) after greetingAgain =
        some later ∧
      later.process = some ⟨checkpoint', .running scheduler⟩ ∧ scheduler.calls ≠ [] := by
    refine ⟨_, _, _, _, _, _, rfl, ⟨_, rfl, .inr ⟨_, rfl⟩⟩, rfl, rfl, by decide, rfl, rfl, ?_⟩
    exact List.cons_ne_nil _ _
  obtain ⟨world, after, later, checkpoint, checkpoint', scheduler, ran, judging, stepped, went, unnamed,
    again, working, calls⟩ := ran
  obtain ⟨verified, targets, failed, least, exactly'⟩ :=
    (remediates _ 1 world (.of_exec (.start rfl) ran)).again vagueReport after checkpoint judging
      stepped went
  have named : namedSteps verified.graph verified.report.issues = [] := by
    have inside : verified ∈ after.verified := by
      rw [failed.1]
      exact List.mem_append_right _ (List.mem_singleton_self _)
    simpa using List.all_eq_true.1 unnamed verified inside
  have none' : ∀ id ∈ targets, False := by
    apply least.least fun _ => False
    · rw [named]
      simp
    · exact fun _ _ _ _ target => target
  obtain ⟨call, made⟩ := List.exists_mem_of_ne_nil _ calls
  obtain ⟨reruns, _⟩ := exactly' later (.of_exec (.start rfl) again) checkpoint' scheduler working
  exact none' call.id (reruns.called call made)

end Greeting

end Orchestrate

end TitanRunner
