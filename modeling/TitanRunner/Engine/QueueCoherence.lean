import TitanRunner.Engine.Queue
import TitanRunner.Task.Coherence

/-!
# The records of the queue stay coherent

Each record is taken in coherent, and every action that is performed on it keeps it so.  A save
changes words of a record, not its status, its dates or the moves of its history.
-/

namespace TitanRunner

theorem Recorded.map {history : List HistoryEntry} {status : Status}
    (recorded : Recorded history status) (change : HistoryEntry → HistoryEntry)
    (same : ∀ entry, (change entry).from' = entry.from' ∧ (change entry).to' = entry.to') :
    Recorded (history.map change) status where
  allowed entry inside := by
    have ⟨before, among, changed⟩ := List.mem_map.1 inside
    have ⟨from', came, can⟩ := recorded.allowed before among
    refine ⟨from', ?_, ?_⟩
    · rw [← changed, (same before).1, came]
    · rw [← changed, (same before).2]
      exact can
  linked := by
    rw [List.isChain_map]
    apply recorded.linked.imp
    intro entry next linked
    rw [(same next).1, (same entry).2]
    exact linked
  ends entry last := by
    rw [List.getLast?_map, Option.mem_def, Option.map_eq_some_iff] at last
    have ⟨before, atEnd, changed⟩ := last
    rw [← changed, (same before).2]
    exact recorded.ends before atEnd
  unmoved none' := recorded.unmoved (List.map_eq_nil_iff.1 none')
  bounded := by
    rw [List.length_map]
    exact recorded.bounded

namespace Coherent

theorem scrubForState {task : Task} (coherent : Coherent task) :
    Coherent (Intake.scrubForState task) where
  awake := coherent.awake
  asleep := coherent.asleep
  ended := coherent.ended
  recorded := coherent.recorded.map _ fun _ => ⟨rfl, rfl⟩

end Coherent

namespace Queue

open TransitionSystem TransitionSystem.System

theorem pushes_coherent (tasks : List Task) (label : Label) :
    ∀ record ∈ pushes tasks label, Coherent record := by
  cases label with
  | intake deps issues =>
      intro record inside
      have ⟨issue, _, same⟩ := List.mem_map.1 inside
      rw [← same]
      exact Coherent.scrubForState (Coherent.of_new rfl rfl rfl rfl rfl)
  | manual deps text =>
      intro record inside
      rw [List.mem_singleton.1 inside]
      exact Coherent.scrubForState (Coherent.of_new rfl rfl rfl rfl rfl)
  | reconcile | sync | control | revisit | claim | archive | reload => simp [pushes]

theorem coherent_of_step {tasks after : List Task} {label : Label}
    (step : Step tasks label after) (coherent : ∀ task ∈ tasks, Coherent task) :
    ∀ task ∈ after, Coherent task :=
  step.keeps (fun _ _ _ before allowed => before.apply allowed) (pushes_coherent tasks label)
    (fun _ before => before.scrubForState) coherent

theorem all_coherent {tasks : List Task} (reachable : Reachable system always tasks) :
    ∀ task ∈ tasks, Coherent task := by
  apply reachable.invariant fun tasks => ∀ task ∈ tasks, Coherent task
  · intro tasks started
    rw [show tasks = [] from started]
    simp
  · intro tasks label after _ coherent _ stepped
    have ⟨_, _, step⟩ := next_step stepped
    exact coherent_of_step step coherent

/-- In every queue that arises, the records are coherent, and nothing that can be done next
asks for a move that `TRANSITIONS` forbids. -/
theorem coherent_of_reachable {tasks : List Task} (reachable : Reachable system always tasks) :
    (∀ task ∈ tasks, Coherent task) ∧
      ∀ label, Enabled tasks label → ∃ after, perform tasks label = .ok after := by
  constructor
  · exact all_coherent reachable
  · intro label enabled
    have ⟨after, performed, _⟩ := perform_ok enabled
    exact ⟨after, performed⟩

/-- Answers of a run that is stopped when the budget of the pulse is spent. -/
def drainedAnswers (now : Time) : RunTask.Answers where
  pulse := { now, redactString := id, resumed := false, answered := true }
  runId := "run-1"
  pulseMaxCalls := 40
  maxParks := 8
  usage := { calls := 0, tokens := 0, wallMs := 0 }
  overBefore := none
  gate := none
  orchestrated := .ok { drained := true }
  overAfter := none
  pulseCallsSpent := false
  delivery := {
    decision := .allow, reason := "", approvalKey := "", autonomy := .autonomous
    source := .safetyRules, category := .issueComment, rule := .autoApprove }
  proposal := none

/-- A turn of a pulse whose lease lasts a quarter of an hour. -/
def drainedTurn (index : Nat) (now : Time) : RunTask.Turn where
  index
  granted := true
  lease := { owner := "pulse-1", acquiredAt := some now, expiresAt := some (now + 900000) }
  now
  score := "50.0"
  pulseId := "pulse-1"
  answers := drainedAnswers now
  lasts := 8

/-- An intake without structured bodies, of an owner's repository. -/
def plainDeps (now : Time) : Intake.Deps where
  now
  authz := { allowlist := [], repoOwner := some "owner", trustAssociations := false }
  parseTaskYaml _ := none
  plain issue := (issue.title, issue.body)
  idempotencyKeyFor _ title prompt := title ++ prompt

/-- A dispatched task that is claimed, stopped and woken. -/
def wokenRun : List Label := [
  .manual (plainDeps 0) "Sort the numbers",
  .claim [drainedTurn 0 1000],
  .reconcile { now := 2000, owner := "pulse-2" } (fun _ => .absent) []]

theorem coherent_of_wokenRun : ∃ task, system.exec always [] wokenRun = some [task] ∧
    task.history.map HistoryEntry.to' = [.running, .waiting, .pending] ∧ Coherent task := by
  refine ⟨_, rfl, rfl, ?_⟩
  have ran : system.exec always [] wokenRun = some _ := rfl
  have reachable := Reachable.of_exec (.start rfl) ran
  exact (coherent_of_reachable reachable).1 _ List.mem_cons_self

end Queue

end TitanRunner
