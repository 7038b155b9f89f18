import TitanRunner.Engine.Snapshot
import TitanRunner.Lib.Transition
import TitanRunner.Orchestrator.Synthesizer
import TitanRunner.Verify

/-!
# One task's orchestration, over its pulses

`engine/orchestrate.js#runOrchestration` with the calls `engine/pulse.js` makes around it:
plan, execute, synthesize, verify, remediate, and the checkpoint that is written on the
way and read back by a later pulse.  A pulse may end after any write, and the next one may
find any version that was written.
-/

namespace TitanRunner

namespace Orchestrate

open Orchestrator Verify Redact Utf16 TransitionSystem
open OutputParser (ParseResult)

/-! ## The checkpoint -/

inductive Phase where
  | planned | executing | executed | verifying | verified
  deriving DecidableEq, Repr

/-- A graph and the entries it was executed to. -/
structure Run where
  graph : Graph
  entries : Entries
  deriving DecidableEq, Repr

structure CheckRecord where
  id : Utf16
  ok : Bool
  detail : Utf16
  deriving DecidableEq, Repr

/-- `cp.verification`. -/
structure Verification where
  verdict : Verdict
  reason : Utf16
  unjudged : Bool
  round : Nat
  at' : Time
  judge : Option Judgement
  checks : List CheckRecord
  /-- Ghost: what was judged; nothing reads it. -/
  judged : Run
  deriving DecidableEq, Repr

structure Checkpoint where
  graph : Option Graph
  phase : Phase
  subtasks : Subtasks
  verification : Option Verification
  remediations : Nat
  deriving DecidableEq, Repr

def newCheckpoint : Checkpoint :=
  { graph := none, phase := .planned, subtasks := [], verification := none, remediations := 0 }

def scrubIssue (issue : Verify.Issue) : Verify.Issue where
  step := issue.step.map redactString
  problem := redactString issue.problem

def scrubJudgement (judge : Judgement) : Judgement where
  verdict := judge.verdict
  reason := judge.reason.map redactString
  provider := redactString judge.provider
  error := judge.error.map redactString
  issues := judge.issues.map scrubIssue

def CheckRecord.scrub (check : CheckRecord) : CheckRecord where
  id := redactString check.id
  ok := check.ok
  detail := redactString check.detail

def Verification.scrub (verification : Verification) : Verification where
  verdict := verification.verdict
  reason := redactString verification.reason
  unjudged := verification.unjudged
  round := verification.round
  at' := verification.at'
  judge := verification.judge.map scrubJudgement
  checks := verification.checks.map CheckRecord.scrub
  judged := verification.judged

/-- What `store.saveCheckpoint` writes. -/
def Checkpoint.scrub (checkpoint : Checkpoint) : Checkpoint where
  graph := checkpoint.graph.map Graph.scrub
  phase := checkpoint.phase
  subtasks := checkpoint.subtasks.scrub
  verification := checkpoint.verification.map Verification.scrub
  remediations := checkpoint.remediations

def Checkpoint.enterPhase (checkpoint : Checkpoint) (phase : Phase) : Checkpoint :=
  { checkpoint with phase }

/-- The verdict on record passes the run of this round. -/
def Checkpoint.passed (checkpoint : Checkpoint) : Bool :=
  checkpoint.verification.any fun verification =>
    decide (verification.verdict = .pass) && decide (verification.round = checkpoint.remediations)

/-- `alreadyVerified && cp.verification`. -/
def Checkpoint.alreadyVerified (checkpoint : Checkpoint) : Bool :=
  (decide (checkpoint.phase = .verified) || checkpoint.passed) && checkpoint.verification.isSome

/-! ## Remediation -/

/-- One round of the loop: what depends on a target becomes one. -/
def growTargets (tasks : List Step) (targets : List StepId) : List StepId :=
  tasks.foldl (fun targets step =>
    if step.id ∈ targets then targets
    else if step.dependsOn.any (· ∈ targets) then targets ++ [step.id] else targets) targets

/-- `remediationTargets`.  Every round of its loop but the last adds a step. -/
def remediationTargets (graph : Graph) (issues : List Verify.Issue) : List StepId :=
  let ids := graph.tasks.map Step.id
  let named := (issues.filterMap Verify.Issue.step).filter fun id => !id.isEmpty && ids.contains id
  let coding := (graph.tasks.filter fun step => step.aspect = ofString "code-generation").map Step.id
  let first := if named.isEmpty then if coding.isEmpty then ids else coding else named
  (growTargets graph.tasks)^[graph.tasks.length] first

def feedbackLine (issue : Verify.Issue) : Utf16 :=
  let step := issue.step.getD []
  ofString "- " ++ (if step.isEmpty then [] else ofString "[" ++ step ++ ofString "] ") ++
    issue.problem

def remediationHint (attempt : Nat) (issues : List Verify.Issue) : Utf16 :=
  ofString "VERIFICATION FEEDBACK (attempt " ++ ofNat attempt ++
    ofString ("): your previous output for this step did not pass verification. Fix these " ++
      "problems and produce the complete deliverable again:\n") ++
    join (ofString "\n") (issues.map feedbackLine)

def Step.hinted (targets : List StepId) (hint : Utf16) (step : Step) : Step :=
  if step.id ∈ targets then { step with remediationHint := some hint } else step

def Checkpoint.remediate (checkpoint : Checkpoint) (graph : Graph) (issues : List Verify.Issue) :
    Checkpoint :=
  let round := checkpoint.remediations + 1
  let targets := remediationTargets graph issues
  { graph := some { graph with
      tasks := graph.tasks.map (Step.hinted targets (remediationHint (round + 1) issues)) }
    phase := .executing
    subtasks := checkpoint.subtasks.filter fun (id, _) => id ∉ targets
    verification := checkpoint.verification
    remediations := round }

/-! ## A pulse at work on the task -/

/-- Where `runOrchestration` stands. -/
inductive Stage where
  /-- It was called, or goes round its loop. -/
  | entered
  | running (scheduler : Scheduler)
  /-- The run was synthesized. -/
  | executed (entries : Entries)
  | verifying (entries : Entries)
  | returned
  deriving DecidableEq, Repr

structure Process where
  checkpoint : Checkpoint
  stage : Stage
  deriving DecidableEq, Repr

/-- One call of `verifyRun`. -/
structure Verified where
  graph : Graph
  entries : Entries
  options : JudgeOptions
  checks : List Check
  reply : Reply
  deriving DecidableEq, Repr

def Verified.report (verified : Verified) : Report :=
  verifyRun verified.options verified.graph verified.entries verified.checks verified.reply

def Verified.asked (verified : Verified) : Option Utf16 :=
  askedProvider verified.options verified.graph verified.entries verified.checks

def Verified.run (verified : Verified) : Run where
  graph := verified.graph
  entries := verified.entries

/-- The versions of the checkpoint written so far, the pulse at work, and as a record the
verifications made and the deliverables that were reported `ok`. -/
structure World where
  versions : List Checkpoint
  process : Option Process
  verified : List Verified
  delivered : List Synthesis
  deriving DecidableEq, Repr

/-- Who answered the planning call, if its answer became the plan. -/
inductive Planner where
  /-- The fallback plan. -/
  | nobody
  /-- The registry's pool, with the provider that served the call. -/
  | registry (service : Utf16)
  | freebuff (modelId : Utf16)
  | opencode (modelId : Utf16)
  deriving DecidableEq, Repr

/-- `result.modelId ?? null`. -/
def Planner.plannedBy : Planner → Option Utf16
  | .nobody => none
  | .registry service => some (phase2ModelId service)
  | .freebuff modelId | .opencode modelId => some modelId

def Planner.provider : Planner → Option Utf16
  | .nobody => none
  | .registry service => some service
  | .freebuff _ => some (ofString "freebuff")
  | .opencode _ => some (ofString "opencode")

/-- The graph `decompose` resolves to. -/
def plannedGraph (sharedContext : Utf16) (tasks : List Step) (planner : Planner) : Graph where
  sharedContext := sharedContext
  tasks := tasks
  plannedBy := planner.plannedBy
  planner := planner.provider

def Checkpoint.withPlan (checkpoint : Checkpoint) (graph : Graph) : Checkpoint :=
  { checkpoint with graph := some graph, phase := .executing }

inductive Label where
  /-- A pulse takes the task up, with a version of its checkpoint or anew. -/
  | enter (version : Option Nat)
  | plan (sharedContext : Utf16) (tasks : List Step) (planner : Planner)
  /-- A scheduler starts; the pools list their models. -/
  | begin' (freebuff opencode : List Utf16)
  | schedule (event : Event)
  /-- `scheduler.run` returns. -/
  | finish
  /-- The verdict on record is used. -/
  | reuse
  | verify
  | report (enabled hasChat strict : Bool) (checks : List Check) (reply : Reply) (drain : Bool)
      (at' : Time)
  /-- The engine writes the checkpoint on its own account. -/
  | persist
  | die
  deriving DecidableEq, Repr

/-- `judgeSettings`. -/
def judgeSettings (enabled hasChat strict : Bool) : JudgeOptions where
  enabled := enabled
  hasChat := hasChat
  candidates := failoverOrder
  strict := strict

/-- `onCheckpoint`: the checkpoint is written, and the pulse goes on. -/
def World.write (world : World) (checkpoint : Checkpoint) (stage : Stage) : World :=
  { world with
    versions := world.versions ++ [checkpoint.scrub]
    process := some { checkpoint, stage } }

def World.at' (world : World) (checkpoint : Checkpoint) (stage : Stage) : World :=
  { world with process := some { checkpoint, stage } }

def World.addVerified (world : World) (verified : Verified) : World :=
  { world with verified := world.verified ++ [verified] }

def World.addDelivered (world : World) (synthesis : Synthesis) : World :=
  { world with delivered := world.delivered ++ [synthesis] }

def Event.id : Event → StepId
  | .block id | .noCandidate id _ | .dispatch id _ _ | .call id _ _ _ _ => id

/-- The states whose arrival is recorded. -/
def recordedState (state : StepState) : Bool :=
  [.complete, .failed, .blocked, .cancelled].contains state

/-- The `task-state` hook: a step that came to an end is put into the checkpoint. -/
def Subtasks.note (subtasks : Subtasks) (id : StepId) (entries : Entries) : Subtasks :=
  match (entries.get id).filter fun entry => recordedState entry.state with
  | some entry => subtasks.insert id (snapshotSubtask entry)
  | none => subtasks

def Checkpoint.note (checkpoint : Checkpoint) (id : StepId) (entries : Entries) : Checkpoint :=
  { checkpoint with subtasks := Subtasks.note checkpoint.subtasks id entries }

def World.scheduled (world : World) (checkpoint : Checkpoint) (id : StepId)
    (scheduler : Scheduler) : World :=
  if (scheduler.entries.get id).any fun entry => recordedState entry.state then
    world.write (checkpoint.note id scheduler.entries) (.running scheduler)
  else world.at' (checkpoint.note id scheduler.entries) (.running scheduler)

def isParked (entry : Entry) : Bool :=
  decide (entry.state = .failed) && (entry.error.bind StepError.park).isSome

/-- `t.state === 'failed' || t.state === 'blocked'`. -/
def isFailed (entry : Entry) : Bool := [.failed, .blocked].contains entry.state

def Checkpoint.recordAll (checkpoint : Checkpoint) (phase : Phase) (entries : Entries) :
    Checkpoint :=
  { checkpoint with phase, subtasks := checkpoint.subtasks.record entries }

/-- What follows the return of `scheduler.run`. -/
def World.finished (world : World) (checkpoint : Checkpoint) (scheduler : Scheduler) : World :=
  if scheduler.drained then world.write (checkpoint.enterPhase .executing) .returned
  else if scheduler.entries.any isParked then
    world.write (checkpoint.recordAll .executing scheduler.entries) .returned
  else
    world.write (checkpoint.recordAll .executed scheduler.entries)
      (if scheduler.entries.any isFailed then .returned else .executed scheduler.entries)

section Step

variable (parse : Utf16 → ParseResult) (maxRemediations : Nat)

/-- What follows a verdict on a run. -/
def World.concluded (world : World) (checkpoint : Checkpoint) (run : Run) (verdict : Verdict)
    (issues : List Verify.Issue) (drain : Bool) : World :=
  match verdict with
  | .fail =>
      if checkpoint.remediations < maxRemediations ∧ drain = false then
        world.write (checkpoint.remediate run.graph issues) .entered
      else world.at' checkpoint .returned
  | .pass =>
      (world.write (checkpoint.enterPhase .verified) .returned).addDelivered
        (synthesize parse run.graph run.entries)

/-- `cp.verification = {…}`. -/
def Checkpoint.judge (checkpoint : Checkpoint) (verified : Verified) (at' : Time) : Checkpoint :=
  let report := verified.report
  { checkpoint with
    verification := some {
      verdict := report.verdict
      reason := report.reason
      unjudged := report.unjudged
      round := checkpoint.remediations
      at'
      judge := report.judge
      checks := report.checks.map fun check =>
        { id := check.id, ok := check.ok, detail := check.detail }
      judged := verified.run } }

/-- The step of a pulse at work. -/
def Process.next (world : World) (process : Process) : Label → Option World
  | .enter _ => none
  | .plan sharedContext tasks planner =>
      match process.stage, process.checkpoint.graph with
      | .entered, none =>
          some (world.write (process.checkpoint.withPlan (plannedGraph sharedContext tasks planner))
            .entered)
      | _, _ => none
  | .begin' freebuff opencode =>
      match process.stage, process.checkpoint.graph with
      | .entered, some graph =>
          some (world.at' process.checkpoint (.running (.start graph
            (resolveCandidateModels freebuff opencode) process.checkpoint.subtasks)))
      | _, _ => none
  | .schedule event =>
      match process.stage with
      | .running scheduler =>
          (scheduler.next event).map (world.scheduled process.checkpoint (Event.id event))
      | _ => none
  | .finish =>
      match process.stage with
      | .running scheduler =>
          if scheduler.quiet then some (world.finished process.checkpoint scheduler) else none
      | _ => none
  | .reuse =>
      match process.stage, process.checkpoint.graph, process.checkpoint.verification with
      | .executed entries, some graph, some verification =>
          if process.checkpoint.alreadyVerified then
            some (world.concluded parse maxRemediations process.checkpoint { graph, entries }
              verification.verdict [] false)
          else none
      | _, _, _ => none
  | .verify =>
      match process.stage with
      | .executed entries =>
          if process.checkpoint.alreadyVerified then none
          else some (world.write (process.checkpoint.enterPhase .verifying) (.verifying entries))
      | _ => none
  | .report enabled hasChat strict checks reply drain at' =>
      match process.stage, process.checkpoint.graph with
      | .verifying entries, some graph =>
          let verified := { graph, entries, options := judgeSettings enabled hasChat strict
                            checks, reply }
          some ((world.addVerified verified).concluded parse maxRemediations
            (process.checkpoint.judge verified at') { graph, entries } verified.report.verdict
            verified.report.issues drain)
      | _, _ => none
  | .persist => some (world.write process.checkpoint process.stage)
  | .die => some { world with process := none }

def World.next (world : World) (label : Label) : Option World :=
  match world.process with
  | some process => process.next parse maxRemediations world label
  | none =>
      match label with
      | .enter none => some (world.at' newCheckpoint .entered)
      | .enter (some version) =>
          world.versions[version]?.map fun checkpoint => world.at' checkpoint .entered
      | _ => none

/-- What a step found, and what it made of it. -/
inductive World.Stepped (world : World) : Label → World → Prop where
  | enterNew :
      world.process = none → Stepped world (.enter none) (world.at' newCheckpoint .entered)
  | enter (version : Nat) (checkpoint : Checkpoint) :
      world.process = none → world.versions[version]? = some checkpoint →
      Stepped world (.enter (some version)) (world.at' checkpoint .entered)
  | plan (checkpoint : Checkpoint) (sharedContext : Utf16) (tasks : List Step)
      (planner : Planner) :
      world.process = some ⟨checkpoint, .entered⟩ → checkpoint.graph = none →
      Stepped world (.plan sharedContext tasks planner)
        (world.write (checkpoint.withPlan (plannedGraph sharedContext tasks planner)) .entered)
  | begin' (checkpoint : Checkpoint) (graph : Graph) (freebuff opencode : List Utf16) :
      world.process = some ⟨checkpoint, .entered⟩ → checkpoint.graph = some graph →
      Stepped world (.begin' freebuff opencode)
        (world.at' checkpoint (.running (.start graph (resolveCandidateModels freebuff opencode)
          checkpoint.subtasks)))
  | schedule (checkpoint : Checkpoint) (scheduler after : Scheduler) (event : Event) :
      world.process = some ⟨checkpoint, .running scheduler⟩ → scheduler.next event = some after →
      Stepped world (.schedule event) (world.scheduled checkpoint (Event.id event) after)
  | finish (checkpoint : Checkpoint) (scheduler : Scheduler) :
      world.process = some ⟨checkpoint, .running scheduler⟩ → scheduler.quiet = true →
      Stepped world .finish (world.finished checkpoint scheduler)
  | reuse (checkpoint : Checkpoint) (entries : Entries) (graph : Graph)
      (verification : Verification) :
      world.process = some ⟨checkpoint, .executed entries⟩ → checkpoint.graph = some graph →
      checkpoint.verification = some verification → checkpoint.alreadyVerified = true →
      Stepped world .reuse (world.concluded parse maxRemediations checkpoint { graph, entries }
        verification.verdict [] false)
  | verify (checkpoint : Checkpoint) (entries : Entries) :
      world.process = some ⟨checkpoint, .executed entries⟩ → checkpoint.alreadyVerified = false →
      Stepped world .verify (world.write (checkpoint.enterPhase .verifying) (.verifying entries))
  | report (checkpoint : Checkpoint) (entries : Entries) (graph : Graph)
      (enabled hasChat strict : Bool) (checks : List Check) (reply : Reply) (drain : Bool)
      (at' : Time) (verified : Verified) :
      world.process = some ⟨checkpoint, .verifying entries⟩ → checkpoint.graph = some graph →
      verified = { graph, entries, options := judgeSettings enabled hasChat strict
                   checks, reply } →
      Stepped world (.report enabled hasChat strict checks reply drain at')
        ((world.addVerified verified).concluded parse maxRemediations
          (checkpoint.judge verified at') { graph, entries } verified.report.verdict
          verified.report.issues drain)
  | persist (checkpoint : Checkpoint) (stage : Stage) :
      world.process = some ⟨checkpoint, stage⟩ →
      Stepped world .persist (world.write checkpoint stage)
  | die (process : Process) :
      world.process = some process → Stepped world .die { world with process := none }

theorem World.stepped_of_next {world after : World} {label : Label}
    (stepped : world.next parse maxRemediations label = some after) :
    world.Stepped parse maxRemediations label after := by
  simp only [World.next] at stepped
  split at stepped
  next process working =>
    obtain ⟨checkpoint, stage⟩ := process
    cases label with
    | enter version => contradiction
    | plan sharedContext tasks planner =>
        simp only [Process.next] at stepped
        split at stepped
        next unplanned => cases stepped; exact .plan checkpoint sharedContext tasks planner working unplanned
        next => contradiction
    | begin' freebuff opencode =>
        simp only [Process.next] at stepped
        split at stepped
        next graph planned => cases stepped; exact .begin' checkpoint graph freebuff opencode working planned
        next => contradiction
    | schedule event =>
        simp only [Process.next] at stepped
        split at stepped
        next scheduler =>
          obtain ⟨later, moved, rfl⟩ := Option.map_eq_some_iff.1 stepped
          exact .schedule checkpoint scheduler later event working moved
        next => contradiction
    | finish =>
        simp only [Process.next] at stepped
        split at stepped
        next scheduler =>
          split at stepped
          next quiet => cases stepped; exact .finish checkpoint scheduler working quiet
          next => contradiction
        next => contradiction
    | reuse =>
        simp only [Process.next] at stepped
        split at stepped
        next entries graph verification planned judged =>
          split at stepped
          next already =>
            cases stepped
            exact .reuse checkpoint entries graph verification working planned judged already
          next => contradiction
        next => contradiction
    | verify =>
        simp only [Process.next] at stepped
        split at stepped
        next entries =>
          split at stepped
          next => contradiction
          next open' =>
            cases stepped
            exact .verify checkpoint entries working (Bool.eq_false_iff.2 open')
        next => contradiction
    | report enabled hasChat strict checks reply drain at' =>
        simp only [Process.next] at stepped
        split at stepped
        next entries graph planned =>
          cases stepped
          exact .report checkpoint entries graph enabled hasChat strict checks reply drain at' _
            working planned rfl
        next => contradiction
    | persist => cases stepped; exact .persist checkpoint stage working
    | die => cases stepped; exact .die _ working
  next idle =>
    split at stepped
    next => cases stepped; exact .enterNew idle
    next version =>
      obtain ⟨checkpoint, found, rfl⟩ := Option.map_eq_some_iff.1 stepped
      exact .enter version checkpoint idle found
    next => contradiction

def World.empty : World := { versions := [], process := none, verified := [], delivered := [] }

/-- The life of a task, from its first pulse on. -/
def system : System World Label where
  start := fun world => world = World.empty
  next := World.next parse maxRemediations

end Step

end Orchestrate

end TitanRunner
