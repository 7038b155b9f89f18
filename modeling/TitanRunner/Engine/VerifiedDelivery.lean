import TitanRunner.Engine.Orchestrate

/-!
# Only verified work is delivered

A verdict is remembered in the checkpoint, and a later pulse reuses it for what it
restores: the first units of each output, redacted.  The deliverable is the one that was
judged when the checkpoint has kept what the synthesizer reads of the judged run.
-/

namespace TitanRunner

namespace Orchestrate

open Orchestrator Verify Redact Utf16 TransitionSystem System
open OutputParser (ParseResult parseTaskOutput)

section Keeps

variable (parse : Utf16 → ParseResult)

/-- A complete step as the synthesizer reads it: its model and its parsed output. -/
def readAnswer (assignment : Option Candidate) (output : Option Utf16) :
    Option Utf16 × Option ParseResult :=
  (assignment.map Candidate.modelId, (output.filter fun output => !output.isEmpty).map parse)

def Entries.answer (entries : Entries) (id : StepId) : Option (Option Utf16 × Option ParseResult) :=
  (entries.completed id).map fun entry => readAnswer parse entry.assignment entry.output

/-- The answer a step is restored with. -/
def Subtasks.answer (subtasks : Subtasks) (id : StepId) :
    Option (Option Utf16 × Option ParseResult) :=
  ((subtasks.get id).filter fun snapshot => snapshot.state = .complete).map fun snapshot =>
    readAnswer parse snapshot.assignment snapshot.output

/-- A stored graph and its stored steps have kept of a run what the synthesizer reads: the
shared context, the ids, titles and dependencies, and of each step, stored as complete,
the model and the parsed output. -/
def Keeps (graph : Graph) (subtasks : Subtasks) (run : Run) : Prop :=
  graph.sharedContext = run.graph.sharedContext ∧
    graph.tasks.map Step.outline = run.graph.tasks.map Step.outline ∧
    ∀ step ∈ graph.tasks, (Subtasks.answer parse subtasks step.id).isSome = true ∧
      Subtasks.answer parse subtasks step.id = Entries.answer parse run.entries step.id

/-- If the checkpoint says that its run passed, it has kept the run that was judged. -/
def Checkpoint.Kept (checkpoint : Checkpoint) : Prop :=
  checkpoint.passed = true →
    match checkpoint.graph, checkpoint.verification with
    | some graph, some verification => Keeps parse graph checkpoint.subtasks verification.judged
    | _, _ => False

/-- A pulse takes up a run that passed only from a checkpoint that has kept it. -/
def ResumesKept (world : World) : Label → Prop
  | .enter (some version) => ∀ checkpoint ∈ world.versions[version]?, checkpoint.Kept parse
  | _ => True

instance (graph : Graph) (subtasks : Subtasks) (run : Run) :
    Decidable (Keeps parse graph subtasks run) :=
  inferInstanceAs (Decidable (_ ∧ _ ∧ _))

instance (checkpoint : Checkpoint) : Decidable (checkpoint.Kept parse) :=
  match planned : checkpoint.graph, judged : checkpoint.verification with
  | some graph, some verification =>
      decidable_of_iff (checkpoint.passed = true →
        Keeps parse graph checkpoint.subtasks verification.judged)
        (by simp only [Checkpoint.Kept, planned, judged])
  | none, _ => decidable_of_iff (checkpoint.passed = true → False)
      (by simp only [Checkpoint.Kept, planned])
  | some _, none => decidable_of_iff (checkpoint.passed = true → False)
      (by simp only [Checkpoint.Kept, planned, judged])

instance (world : World) (label : Label) : Decidable (ResumesKept parse world label) :=
  match label with
  | .enter (some version) =>
      inferInstanceAs (Decidable (∀ checkpoint ∈ world.versions[version]?, checkpoint.Kept parse))
  | .enter none | .plan _ _ _ | .begin' _ _ | .schedule _ | .finish | .reuse | .verify
  | .report _ _ _ _ _ _ _ | .persist | .die => inferInstanceAs (Decidable True)

end Keeps

/-! ## What is restored -/

section Restored

variable {parse : Utf16 → ParseResult} {entries : Entries} {subtasks : Subtasks}

theorem reading_of_answer {step : Step} {answer : Option Utf16 × Option ParseResult}
    (answered : Entries.answer parse entries step.id = some answer) :
    (contribution entries step).reading parse =
      { id := step.id, title := step.title, state := some .complete
        modelId := answer.1, parsed := answer.2 } := by
  obtain ⟨entry, done, rfl⟩ := Option.map_eq_some_iff.1 answered
  obtain ⟨found, complete⟩ := Option.filter_eq_some_iff.1 done
  have state : entries.stateOf step.id = some .complete := by
    simpa [Entries.stateOf, found] using complete
  simp [Contribution.reading, Contribution.parsed, contribution, done, state, readAnswer]

/-- A step that is stored as complete is restored with its stored answer. -/
theorem answer_restoreEntries {tasks : List Step} {id : StepId} {entry : Entry}
    (found : (restoreEntries subtasks tasks).get id = some entry)
    (stored : (Subtasks.answer parse subtasks id).isSome = true) :
    entry.state = .complete ∧
      Entries.answer parse (restoreEntries subtasks tasks) id =
        Subtasks.answer parse subtasks id := by
  obtain ⟨step, known, restored⟩ := Option.map_eq_some_iff.1
    ((get_restoreEntries subtasks tasks id).symm.trans found)
  obtain rfl : step.id = id := KeyedList.key_of_get known
  simp only [Subtasks.answer, Option.isSome_map, Option.isSome_iff_exists] at stored
  obtain ⟨prior, kept⟩ := stored
  obtain ⟨filed, complete⟩ := Option.filter_eq_some_iff.1 kept
  have settled : prior.settled = true := by
    simpa [Snapshot.settled] using Or.inl (of_decide_eq_true complete)
  simp only [restoreEntry, filed, settled, ↓reduceIte] at restored
  subst restored
  refine ⟨of_decide_eq_true complete, ?_⟩
  simp only [Entries.answer, Entries.completed, found, Subtasks.answer, kept, Option.filter_some,
    if_pos complete, Option.map_some]

end Restored

/-! ## The verdict stays with what it was given for -/

section Verdict

variable (parse : Utf16 → ParseResult)

/-- A deliverable the verifier passed. -/
def Passed (verified : List Verified) (synthesis : Synthesis) : Prop :=
  ∃ call ∈ verified, call.report.verdict = .pass ∧
    synthesize parse call.graph call.entries = synthesis

/-- A passing verdict on record was given, for the run it names. -/
def Checkpoint.Given (verified : List Verified) (checkpoint : Checkpoint) : Prop :=
  ∀ verification, checkpoint.verification = some verification → verification.verdict = .pass →
    ∃ call ∈ verified, call.report.verdict = .pass ∧ call.run = verification.judged

/-- The entries are all complete, with the answers of the run that was judged. -/
def SettledAs (checkpoint : Checkpoint) (entries : Entries) : Prop :=
  ∃ graph verification, checkpoint.graph = some graph ∧
    checkpoint.verification = some verification ∧
    graph.sharedContext = verification.judged.graph.sharedContext ∧
    graph.tasks.map Step.outline = verification.judged.graph.tasks.map Step.outline ∧
    ∀ step ∈ graph.tasks, (Entries.answer parse entries step.id).isSome = true ∧
      Entries.answer parse entries step.id =
        Entries.answer parse verification.judged.entries step.id

/-- What is known of a pulse whose checkpoint says that the run passed. -/
def Process.Sound (process : Process) : Prop :=
  match process.stage with
  | .entered => process.checkpoint.Kept parse
  | .running scheduler => process.checkpoint.passed = true →
      (scheduler.flights = [] ∧
        ∀ id entry, scheduler.entries.get id = some entry → entry.state = .complete) ∧
      SettledAs parse process.checkpoint scheduler.entries
  | .executed entries => process.checkpoint.phase = .executed ∧
      (process.checkpoint.passed = true → SettledAs parse process.checkpoint entries)
  | .verifying _ | .returned => True

structure World.Sound (world : World) : Prop where
  versions : ∀ version ∈ world.versions, version.Given world.verified
  process : ∀ process, world.process = some process →
    process.checkpoint.Given world.verified ∧ process.Sound parse
  delivered : ∀ synthesis ∈ world.delivered, Passed parse world.verified synthesis

end Verdict

section Sound

-- What redaction does to a text plays no part here.
attribute [local irreducible] redactString

variable {parse : Utf16 → ParseResult} {maxRemediations : Nat} {world after : World}
  {checkpoint : Checkpoint} {stage : Stage} {verified : List Verified}

theorem Checkpoint.Given.scrub (given : checkpoint.Given verified) :
    checkpoint.scrub.Given verified := by
  intro verification found passes
  obtain ⟨before, was, rfl⟩ := Option.map_eq_some_iff.1 found
  exact given before was passes

theorem World.Sound.at' (sound : world.Sound parse) (checkpoint : Checkpoint)
    (given : checkpoint.Given world.verified)
    (processSound : Process.Sound parse ⟨checkpoint, stage⟩) :
    (world.at' checkpoint stage).Sound parse where
  versions := sound.versions
  process := by
    rintro _ ⟨⟩
    exact ⟨given, processSound⟩
  delivered := sound.delivered

theorem World.Sound.write (sound : world.Sound parse) (checkpoint : Checkpoint)
    (given : checkpoint.Given world.verified)
    (processSound : Process.Sound parse ⟨checkpoint, stage⟩) :
    (world.write checkpoint stage).Sound parse where
  versions := by
    intro version inside
    cases List.mem_append.1 inside with
    | inl before => exact sound.versions version before
    | inr here => exact List.mem_singleton.1 here ▸ given.scrub
  process := by
    rintro _ ⟨⟩
    exact ⟨given, processSound⟩
  delivered := sound.delivered

theorem Checkpoint.passed_iff : checkpoint.passed = true ↔
    ∃ verification, checkpoint.verification = some verification ∧ verification.verdict = .pass ∧
      verification.round = checkpoint.remediations := by
  cases judged : checkpoint.verification with
  | none => simp [Checkpoint.passed, judged]
  | some verification => simp [Checkpoint.passed, judged]

theorem Checkpoint.Kept.keeps {graph : Graph} (kept : checkpoint.Kept parse)
    (passed : checkpoint.passed = true) (planned : checkpoint.graph = some graph) :
    ∃ verification, checkpoint.verification = some verification ∧
      Keeps parse graph checkpoint.subtasks verification.judged := by
  have keeps := kept passed
  cases judged : checkpoint.verification with
  | none => simp [planned, judged] at keeps
  | some verification => exact ⟨verification, rfl, by simpa [planned, judged] using keeps⟩

/-- A run whose steps are restored from a checkpoint that has kept them. -/
theorem settledAs_start {graph : Graph} (kept : checkpoint.Kept parse)
    (planned : checkpoint.graph = some graph) (candidateModels : List Candidate) :
    Process.Sound parse
      ⟨checkpoint, .running (.start graph candidateModels checkpoint.subtasks)⟩ := by
  intro passed
  obtain ⟨verification, judged, sameContext, sameOutline, answers⟩ := kept.keeps passed planned
  have restored : ∀ id entry, (restoreEntries checkpoint.subtasks graph.tasks).get id = some entry →
      entry.state = .complete ∧
        Entries.answer parse (restoreEntries checkpoint.subtasks graph.tasks) id =
          Subtasks.answer parse checkpoint.subtasks id := by
    intro id entry found
    obtain ⟨step, known, -⟩ := Option.map_eq_some_iff.1
      ((get_restoreEntries checkpoint.subtasks graph.tasks id).symm.trans found)
    obtain rfl := KeyedList.key_of_get known
    exact answer_restoreEntries found (answers step (KeyedList.mem_of_get known)).1
  refine ⟨⟨rfl, fun id entry found => (restored id entry found).1⟩, ?_⟩
  refine ⟨graph, verification, planned, judged, sameContext, sameOutline, ?_⟩
  intro step inside
  obtain ⟨known, found⟩ := KeyedList.exists_get_iff.2 (List.mem_map_of_mem (f := Step.id) inside)
  have present : (restoreEntries checkpoint.subtasks graph.tasks).get step.id =
      some (restoreEntry checkpoint.subtasks known) := by
    rw [get_restoreEntries, found, Option.map_some]
  change (Entries.answer parse (restoreEntries checkpoint.subtasks graph.tasks) step.id).isSome =
    true ∧ Entries.answer parse (restoreEntries checkpoint.subtasks graph.tasks) step.id = _
  rw [(restored step.id _ present).2]
  exact answers step inside

/-- Nothing happens to a run whose steps are all complete. -/
theorem no_event {scheduler after : Scheduler} {event : Event}
    (landed : scheduler.flights = [])
    (complete : ∀ id entry, scheduler.entries.get id = some entry → entry.state = .complete)
    (stepped : scheduler.Stepped event after) : False := by
  cases stepped with
  | block entry found blocked =>
      have pending := isBlocked_pending blocked
      rw [complete entry.id entry found] at pending
      contradiction
  | noCandidate entry at' found ready =>
      have pending := isReady_pending ready
      rw [complete entry.id entry found] at pending
      contradiction
  | dispatch entry ranked at' current others found ready distinct ranks =>
      have pending := isReady_pending ready
      rw [complete entry.id entry found] at pending
      contradiction
  | call flight entry moved goesOn answer ms tokensUsed at' flying same found answered =>
      rw [landed] at flying
      contradiction

/-- A run with the answers of the judged run gives the judged deliverable. -/
theorem SettledAs.synthesize_eq {entries : Entries} {graph : Graph} {verification : Verification}
    (settled : SettledAs parse checkpoint entries) (planned : checkpoint.graph = some graph)
    (judged : checkpoint.verification = some verification) :
    synthesize parse graph entries =
      synthesize parse verification.judged.graph verification.judged.entries := by
  obtain ⟨graph', verification', planned', judged', sameContext, sameOutline, answers⟩ := settled
  obtain rfl : graph' = graph := Option.some.inj (planned'.symm.trans planned)
  obtain rfl : verification' = verification := Option.some.inj (judged'.symm.trans judged)
  apply synthesize_congr sameContext sameOutline
  intro step inside
  obtain ⟨answered, same⟩ := answers step inside
  obtain ⟨answer, found⟩ := Option.isSome_iff_exists.1 answered
  rw [reading_of_answer found, reading_of_answer (same ▸ found)]

theorem World.Sound.scheduled (sound : world.Sound parse) {scheduler later : Scheduler}
    {event : Event} (working : world.process = some ⟨checkpoint, .running scheduler⟩)
    (moved : scheduler.next event = some later) (id : StepId) :
    (world.scheduled checkpoint id later).Sound parse := by
  obtain ⟨given, kept⟩ := sound.process _ working
  have unpassed : checkpoint.passed ≠ true := by
    intro passed
    obtain ⟨⟨landed, complete⟩, -⟩ := kept passed
    exact no_event landed complete (Scheduler.stepped_of_next moved)
  simp only [World.scheduled]
  split
  next =>
    exact sound.write (checkpoint.note id later.entries) given
      fun passed => (unpassed passed).elim
  next =>
    exact sound.at' (checkpoint.note id later.entries) given
      fun passed => (unpassed passed).elim

theorem World.Sound.finished (sound : world.Sound parse) {scheduler : Scheduler}
    (working : world.process = some ⟨checkpoint, .running scheduler⟩) :
    (world.finished checkpoint scheduler).Sound parse := by
  obtain ⟨given, kept⟩ := sound.process _ working
  simp only [World.finished]
  split
  next => exact sound.write (checkpoint.enterPhase .executing) given trivial
  next =>
    split
    next =>
      exact sound.write (checkpoint.recordAll .executing scheduler.entries) given trivial
    next =>
      apply sound.write (checkpoint.recordAll .executed scheduler.entries) given
      split
      next => trivial
      next => exact ⟨rfl, fun passed => (kept passed).2⟩

/-- What follows a verdict: a passed run must be one the verifier passed, a failed one is not
on record as passed. -/
theorem World.Sound.concluded (sound : world.Sound parse) (given : checkpoint.Given world.verified)
    {run : Run} {verdict : Verdict} (issues : List Verify.Issue) (drain : Bool)
    (passes : verdict = .pass → Passed parse world.verified (synthesize parse run.graph run.entries))
    (fails : verdict = .fail → ∀ verification, checkpoint.verification = some verification →
      verification.verdict = .fail) :
    (world.concluded parse maxRemediations checkpoint run verdict issues drain).Sound parse := by
  simp only [World.concluded]
  split
  next =>
    split
    next =>
      apply sound.write (checkpoint.remediate run.graph issues) given
      intro passed
      obtain ⟨verification, found, verdict, -⟩ := Checkpoint.passed_iff.1 passed
      rw [fails rfl verification found] at verdict
      contradiction
    next => exact sound.at' checkpoint given trivial
  next =>
    obtain ⟨versions, process, delivered⟩ :
        (world.write (checkpoint.enterPhase .verified) .returned).Sound parse :=
      sound.write _ given trivial
    refine ⟨versions, process, ?_⟩
    intro synthesis inside
    cases List.mem_append.1 inside with
    | inl before => exact delivered synthesis before
    | inr here => exact List.mem_singleton.1 here ▸ passes rfl

theorem World.Sound.next {label : Label} (sound : world.Sound parse)
    (guarded : ResumesKept parse world label)
    (stepped : world.Stepped parse maxRemediations label after) : after.Sound parse := by
  cases stepped with
  | enterNew idle =>
      apply sound.at'
      · simp [Checkpoint.Given, newCheckpoint]
      · simp [Process.Sound, Checkpoint.Kept, Checkpoint.passed, newCheckpoint]
  | enter version checkpoint idle found =>
      have inside := List.mem_of_getElem? found
      exact sound.at' checkpoint (sound.versions checkpoint inside) (guarded checkpoint found)
  | plan checkpoint sharedContext tasks planner working unplanned =>
      obtain ⟨given, kept⟩ := sound.process _ working
      apply sound.write
        (checkpoint.withPlan (plannedGraph sharedContext tasks planner)) given
      intro passed
      have impossible := kept passed
      simp [unplanned] at impossible
  | begin' checkpoint graph freebuff opencode working planned =>
      obtain ⟨given, kept⟩ := sound.process _ working
      exact sound.at' checkpoint given (settledAs_start kept planned _)
  | schedule checkpoint scheduler later event working moved =>
      exact sound.scheduled working moved _
  | finish checkpoint scheduler working quiet => exact sound.finished working
  | reuse checkpoint entries graph verification working planned judged already =>
      obtain ⟨given, executed, settled⟩ := sound.process _ working
      apply sound.concluded given
      · intro passes
        have phase : checkpoint.phase = .executed := executed
        have passed : checkpoint.passed = true := by
          simpa [Checkpoint.alreadyVerified, phase, judged] using already
        obtain ⟨call, inside, verdict, same⟩ := given verification judged passes
        refine ⟨call, inside, verdict, ?_⟩
        rw [(settled passed).synthesize_eq planned judged, ← same]
        rfl
      · intro fails other found
        obtain rfl := Option.some.inj (judged.symm.trans found)
        exact fails
  | verify checkpoint entries working unjudged =>
      exact sound.write (checkpoint.enterPhase .verifying)
        (sound.process _ working).1 trivial
  | report checkpoint entries graph enabled hasChat strict checks reply drain at' verified working
      planned called =>
      have grows : ∀ call ∈ world.verified, call ∈ (world.addVerified verified).verified :=
        fun call inside => List.mem_append_left [verified] inside
      have added : (world.addVerified verified).Sound parse := by
        refine ⟨?_, ?_, ?_⟩
        · intro version inside verification found passes
          obtain ⟨call, before, rest⟩ := sound.versions version inside verification found passes
          exact ⟨call, grows call before, rest⟩
        · intro process working'
          obtain ⟨given, processSound⟩ := sound.process process working'
          refine ⟨?_, processSound⟩
          intro verification found passes
          obtain ⟨call, before, rest⟩ := given verification found passes
          exact ⟨call, grows call before, rest⟩
        · intro synthesis inside
          obtain ⟨call, before, rest⟩ := sound.delivered synthesis inside
          exact ⟨call, grows call before, rest⟩
      have here : verified ∈ (world.addVerified verified).verified :=
        List.mem_append_right _ List.mem_cons_self
      apply added.concluded
      · rintro verification ⟨⟩ passes
        exact ⟨verified, here, passes, rfl⟩
      · intro passes
        refine ⟨verified, here, passes, ?_⟩
        rw [called]
      · rintro fails verification ⟨⟩
        exact fails
  | persist checkpoint stage working =>
      obtain ⟨given, processSound⟩ := sound.process _ working
      exact sound.write checkpoint given processSound
  | die process working => exact ⟨sound.versions, by simp, sound.delivered⟩

/-- In every life of a task whose pulses take up a passed run only from a checkpoint that
has kept it, whatever `runOrchestration` reports `ok` with is a deliverable the verifier
passed. -/
theorem delivered_passed (reachable : Reachable (system parse maxRemediations) (ResumesKept parse) world) :
    ∀ synthesis ∈ world.delivered, Passed parse world.verified synthesis := by
  have sound : world.Sound parse := by
    apply reachable.invariant (World.Sound parse)
    · rintro _ rfl
      exact ⟨by simp [World.empty], by simp [World.empty], by simp [World.empty]⟩
    · intro world label after _ sound guarded stepped
      exact sound.next guarded (World.stepped_of_next parse maxRemediations stepped)
  exact sound.delivered

end Sound

section Examples

def pageStep : Step where
  id := ofString "task-1"
  title := ofString "Add the widget"
  aspect := ofString "code-generation"
  description := ofString "Export the widget."
  dependsOn := []
  deliverable := ofString "One file."

def worker : Candidate := { modelId := phase2ModelId (ofString "together"), pool := phase2 }

/-- The step answers with `output`, the run is verified, and the delivery waits for an
approval; the next pulse takes the task up from the checkpoint. -/
def approvedLater (output : String) : List Label := [
  .enter none,
  .plan [] [pageStep] (.registry (ofString "groq")),
  .begin' [] [],
  .schedule (.dispatch pageStep.id [worker] 1),
  .schedule (.call pageStep.id (.usable (ofString output)) 5 none 2),
  .finish,
  .verify,
  .report true true false [] (.verdict .pass [] [] none) false 3,
  .persist,
  .die,
  .enter (some 5),
  .begin' [] [],
  .finish,
  .reuse]

/-- An answer without anything to redact is delivered as it was judged. -/
theorem delivered_passed_prose : ∃ world : World, world.delivered.length = 2 ∧
    ∀ synthesis ∈ world.delivered,
      Passed (parseTaskOutput fun _ => none) world.verified synthesis := by
  let parse := parseTaskOutput fun _ => none
  have ran : ∃ after, (system parse 1).exec (ResumesKept parse) World.empty
      (approvedLater "Done.") = some after ∧ after.delivered.length = 2 := ⟨_, rfl, rfl⟩
  obtain ⟨world, ran, delivered⟩ := ran
  exact ⟨world, delivered, delivered_passed (Reachable.of_exec (.start rfl) ran)⟩

/-- An answer with one file, whose path is as long as a base64 secret. -/
def longPath : String :=
  "```\n// file: src/components/dashboard/widgets/index.js\nexport default 1;\n```"

/-- The second pulse delivers the file under another path. -/
theorem not_delivered_passed : ¬ ∀ (parseJson : Utf16 → Option Json) (maxRemediations : Nat)
    (world : World),
    Reachable (system (parseTaskOutput parseJson) maxRemediations) always world →
    ∀ synthesis ∈ world.delivered, Passed (parseTaskOutput parseJson) world.verified synthesis := by
  intro passed
  let parse := parseTaskOutput fun _ => none
  have ran : ((system parse 1).exec always World.empty (approvedLater longPath)).any (fun world =>
      world.delivered.any fun synthesis => world.verified.all fun call =>
        synthesize parse call.graph call.entries ≠ synthesis) = true := by decide +kernel
  obtain ⟨world, ran, other⟩ := (Option.any_eq_true _ _).1 ran
  obtain ⟨synthesis, delivered, differs⟩ := List.any_eq_true.1 other
  obtain ⟨call, inside, -, same⟩ := passed _ 1 world (Reachable.of_exec (.start rfl) ran)
    synthesis delivered
  have different := List.all_eq_true.1 differs call inside
  exact of_decide_eq_true different same

end Examples

end Orchestrate

end TitanRunner
