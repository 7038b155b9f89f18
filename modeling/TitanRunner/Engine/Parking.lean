import Mathlib.Data.List.MinMax
import TitanRunner.Engine.NewLife
import TitanRunner.Engine.Orchestrate
import TitanRunner.Orchestrator.RetryLoop

/-!
# How long a parked task waits

A failure that can be waited out parks the task: `decompose` throws it, or the retry loop leaves it
on a step, `runOrchestration` sums the steps up, and `processTaskInner` sets the time the record is
to wake.  The ladder of waits is climbed by the parks that are counted on the record; the retry
loop counts none.
-/

namespace TitanRunner

namespace Parking

open Orchestrator (Entry Entries Park ParkReason)
open Orchestrator.RetryLoop (Classified Earned)
open RetryPolicy RunTask
open NewLife (ComesTo claimed left)
open Utf16 (toText)

/-! ## The end of a run -/

/-- `t.state === 'failed' && t.error?.park`, with the error. -/
def parkOf (entry : Entry) : Option (Orchestrator.StepError × Park) :=
  if entry.state = .failed then
    entry.error.bind fun error => error.park.map fun park => (error, park)
  else none

def parkedSteps (entries : Entries) : List (Orchestrator.StepError × Park) :=
  entries.filterMap parkOf

/-- `Math.max(...waits)` -/
def longest (waits : List Nat) : Nat := waits.foldr max 0

/-- `parked` of a run whose steps are not all settled. -/
def parkedRun (steps : List (Orchestrator.StepError × Park)) : Option Parked :=
  let approval := steps.find? fun step => decide (step.2.reason = .approval)
  (approval <|> steps.head?).map fun first => {
    reason :=
      if approval.isSome then .approval
      else if steps.any fun step => decide (step.2.reason = .quota) then .quota
      else .provider
    wakeInMs := some (if approval.isSome then 0 else longest (steps.map fun step => step.2.wakeInMs))
    why := toText first.2.why
    failureClass := some (toText first.1.class')
    code := some (toText first.1.code)
    approvalKey := first.2.approvalKey.map toText }

/-- How the run of a task ends. -/
inductive RunEnd where
  /-- `decompose` threw. -/
  | unplanned (class' : FailureClass) (retryAfterMs : Option Nat) (code : Option String)
      (message : String)
  /-- The scheduler returned; `settled` is what follows when no step is parked. -/
  | executed (entries : Entries) (settled : Result)
  deriving DecidableEq, Repr

/-- What `runOrchestration` resolves to, of a record that has parked so often. -/
def RunEnd.result (parks : Nat) : RunEnd → Except String Result
  | .unplanned class' retryAfterMs code message =>
      match parkFor class' retryAfterMs parks with
      | none => .error message
      | some (reason, wakeInMs, why) =>
          .ok {
            parked := some {
              reason
              wakeInMs := some wakeInMs
              why := toText why
              failureClass := some (toText class'.text)
              code } }
  | .executed entries settled =>
      if entries.any fun entry => [.pending, .queued, .running].contains entry.state then
        .ok { drained := true }
      else
        match parkedRun (parkedSteps entries) with
        | some parked => .ok { parked := some parked }
        | none => .ok { settled with drained := false, parked := none }

/-- A turn whose run ends so. -/
def turnOf (turn : Turn) (ending : RunEnd) (task : Task) : Turn :=
  { turn with answers := { turn.answers with orchestrated := ending.result task.parks } }

/-! ## Histories -/

/-- What happens to a record. -/
inductive Event where
  /-- A pulse claims it and runs it. -/
  | pulse (turn : Turn) (ending : RunEnd)
  /-- Anything else: it is resumed, retried, paused, or a pulse dies. -/
  | between (actions : List Action) (uncounted : ∀ count, .write (.parks count) ∉ actions)

/-- The wait of a record that is parked on the provider side. -/
def waitOf (now : Time) (task : Task) : Option Int :=
  if task.status = .waiting ∧ (task.waitReason = some .provider ∨ task.waitReason = some .quota) then
    task.wakeAt.map fun wakeAt => wakeAt - now
  else none

/-- A record, and how many of its runs in a row have parked it. -/
structure Standing where
  task : Task
  streak : Nat

/-- The record after a run. -/
def Standing.run (standing : Standing) (turn : Turn) (ending : RunEnd) : Task :=
  left standing.task (turnOf turn ending standing.task)

/-- The wait a run ends in. -/
def Standing.wait (standing : Standing) (turn : Turn) (ending : RunEnd) : Option Int :=
  waitOf turn.answers.pulse.now (standing.run turn ending)

def Standing.next (standing : Standing) : Event → Standing
  | .pulse turn ending => {
      task := standing.run turn ending
      streak := if (standing.wait turn ending).isSome then standing.streak + 1 else 0 }
  | .between actions _ => { standing with task := Action.applyAll standing.task actions }

/-- The record after a history; it starts with no park. -/
def Standing.after (task : Task) (history : List Event) : Standing :=
  history.foldl Standing.next { task := { task with parks := 0 }, streak := 0 }

/-! ## What a run does to the count -/

/-- The action parks the record on the provider side, or counts a park. -/
def Counts : Action → Prop
  | .move .waiting ctx => ctx.waitReason = some .provider ∨ ctx.waitReason = some .quota
  | .write (.parks _) => True
  | _ => False

section Counts

variable {answers : Answers} {task : Task} {result : Result} {parked : Parked}

theorem uncounted_of_onItsOwn {action : Action} (own : RunTask.OnItsOwn action) :
    ¬ Counts action := by
  cases action with
  | write patch => cases patch <;> simp_all [Counts, RunTask.OnItsOwn]
  | move target ctx =>
      cases target with
      | waiting => obtain budget | pulse | approval := own <;> simp [Counts, *]
      | _ => exact not_false

/-- The run comes to a park on the provider side. -/
structure ComesToPark (answers : Answers) (parked : Parked) : Prop where
  comes : ∃ result, ComesTo answers result ∧ result.drained = false ∧ result.parked = some parked
  provider : parked.reason ≠ .approval

/-- Only a run that comes to a park counts one. -/
theorem uncounted_or_comesToPark :
    (∀ action ∈ processTaskInner answers task, ¬ Counts action) ∨
      ∃ parked, ComesToPark answers parked := by
  have plain : ¬ Counts (.write (.runId answers.runId)) := id
  unfold processTaskInner
  rw [List.forall_mem_cons]
  split
  next => exact .inl ⟨plain, by simp [RunTask.deadLetter, RunTask.recordUsage, Counts]⟩
  next within =>
    split
    next => exact .inl ⟨plain, by simp [RunTask.recordUsage, Counts]⟩
    next gate =>
      split
      next => exact .inl ⟨plain, by simp [RunTask.recordUsage, Counts]⟩
      next result orchestrated =>
        split
        next => exact .inl ⟨plain, fun action inside =>
            uncounted_of_onItsOwn (RunTask.drained_onItsOwn action inside)⟩
        next going =>
          split
          next parked parks =>
            split
            next =>
              exact .inl ⟨plain, by
                simp [RunTask.recordUsage, RunTask.askApproval, RunTask.wait, Counts]⟩
            next provider =>
              exact .inr ⟨parked, ⟨result, ⟨within, gate, orchestrated⟩,
                Bool.eq_false_of_not_eq_true going, parks⟩, provider⟩
          next => exact .inl ⟨plain, fun action inside =>
              uncounted_of_onItsOwn (RunTask.deliver_onItsOwn action inside)⟩

theorem ComesToPark.actions (comes : ComesToPark answers parked) :
    processTaskInner answers task =
      .write (.runId answers.runId) :: RunTask.park answers task parked := by
  obtain ⟨result, comesTo, going, parks⟩ := comes.comes
  simp only [processTaskInner, comesTo.withinBudget, comesTo.gate, comesTo.orchestrated, going,
    parks, comes.provider, Bool.false_eq_true, if_false]

end Counts

/-! ## What a run leaves of the record -/

/-- The record is parked on the provider side. -/
def Resting (task : Task) : Prop :=
  task.status = .waiting ∧ (task.waitReason = some .provider ∨ task.waitReason = some .quota)

theorem waitOf_eq_none {now : Time} {task : Task} (up : ¬ Resting task) : waitOf now task = none :=
  if_neg up

theorem parks_applyAll {task : Task} {actions : List Action}
    (uncounted : ∀ count, .write (.parks count) ∉ actions) :
    (Action.applyAll task actions).parks = task.parks := by
  induction actions generalizing task with
  | nil => rfl
  | cons action rest ih =>
      have later : (Action.applyAll (action.apply task) rest).parks = (action.apply task).parks :=
        ih fun count inside => uncounted count (List.mem_cons_of_mem action inside)
      refine later.trans ?_
      cases action with
      | move target ctx => exact moveTask_parks task target ctx
      | write patch =>
          cases patch with
          | parks count => exact absurd List.mem_cons_self (uncounted count)
          | _ => rfl

theorem resting_applyAll {task : Task} {actions : List Action}
    (uncounted : ∀ action ∈ actions, ¬ Counts action)
    (rests : Resting (Action.applyAll task actions)) : Resting task := by
  induction actions generalizing task with
  | nil => exact rests
  | cons action rest ih =>
      have here := ih (fun other inside => uncounted other (List.mem_cons_of_mem action inside)) rests
      have plain := uncounted action List.mem_cons_self
      cases action with
      | move target ctx =>
          rw [Action.apply, Resting, moveTask_status, moveTask_waitReason] at here
          obtain ⟨rfl, reason⟩ := here
          exact absurd reason plain
      | write patch => cases patch <;> exact here

section Run

variable {task : Task} {turn : Turn} {parked : Parked}

/-- A run that does not come to a park leaves the count and the record awake. -/
theorem left_uncounted
    (uncounted : ∀ action ∈ processTaskInner turn.answers (claimed task turn), ¬ Counts action) :
    (left task turn).parks = task.parks ∧ ¬ Resting (left task turn) := by
  constructor
  · rw [left, parks_applyAll fun count inside => uncounted _ inside trivial, NewLife.claimed_parks]
  · intro rests
    obtain ⟨waits, _⟩ := resting_applyAll uncounted rests
    rw [NewLife.claimed_status] at waits
    contradiction

/-- A run that comes to a park counts it.  The record then rests until the time that is stored,
unless this park is one too many or no date can hold the time. -/
theorem left_parked (comes : ComesToPark turn.answers parked) :
    (left task turn).parks = task.parks + 1 ∧
      if task.parks + 1 ≤ turn.answers.maxParks ∧
          IsoDate.isTimeValue (wakeTime turn.answers parked) = true then
        Resting (left task turn) ∧ (left task turn).wakeAt = some (wakeTime turn.answers parked)
      else ¬ Resting (left task turn) := by
  rw [left, comes.actions, RunTask.park, NewLife.claimed_parks]
  dsimp only
  split
  next ceiling =>
    rw [if_neg (fun fine => absurd fine.1 (by omega))]
    constructor
    · simp [Action.applyAll, Action.apply, Patch.apply, RunTask.deadLetter, RunTask.recordUsage]
    · simp [Resting, Action.applyAll, Action.apply, Patch.apply, RunTask.deadLetter,
        RunTask.recordUsage]
  next below =>
    split
    next valid =>
      rw [if_pos ⟨by omega, valid⟩]
      have reason : RunTask.waitReason parked.reason = .provider ∨
          RunTask.waitReason parked.reason = .quota := by
        cases given : parked.reason with
        | approval => exact absurd given comes.provider
        | quota => exact .inr rfl
        | provider => exact .inl rfl
      refine ⟨?_, ⟨?_, ?_⟩, ?_⟩
      · simp [Action.applyAll, Action.apply, Patch.apply, RunTask.recordUsage]
      · simp [Action.applyAll, Action.apply]
      · simpa [Action.applyAll, Action.apply, moveTask_waitReason] using reason
      · simp [Action.applyAll, Action.apply, moveTask_wakeAt]
    next invalid =>
      rw [if_neg (fun fine => invalid fine.2)]
      constructor
      · simp [Action.applyAll, Action.apply, Patch.apply, RunTask.recordUsage]
      · simp [Resting, Action.applyAll, Action.apply, Patch.apply, RunTask.recordUsage]

end Run

/-! ## The ladder -/

/-- The wait of the `count`-th park after the first, as `PARK_BACKOFF_MS` has it. -/
def ladder (count : Nat) : Nat := parkBackoffMs.getD (min count (parkBackoffMs.length - 1)) 0

/-- The failures that park the run ask for no wait of their own. -/
def RunEnd.Unasked : RunEnd → Prop
  | .unplanned _ retryAfterMs _ _ => retryAfterMs = none
  | .executed entries _ => ∀ step ∈ parkedSteps entries, step.2.reason ≠ .approval →
      ∃ failure : Classified, failure.retryAfterMs = none ∧ Earned failure step.2

/-- The parks the policy is told of: the record's for a plan, and none for a step. -/
def RunEnd.told (parks : Nat) : RunEnd → Nat
  | .unplanned _ _ _ _ => parks
  | .executed _ _ => 0

/-- The wait of the run is the one the ladder has for it. -/
def Standing.OnLadder (standing : Standing) : RunEnd → Prop
  | .unplanned _ _ _ _ => standing.task.parks = standing.streak ∨
      parkBackoffMs.length - 1 ≤ standing.streak
  | .executed _ _ => standing.streak = 0

section Ladder

variable {standing : Standing} {task : Task} {turn : Turn} {ending : RunEnd} {wait : Int}

/-- The steps of the ladder differ. -/
theorem ladder_inj {one other : Nat} : ladder one = ladder other ↔
    min one (parkBackoffMs.length - 1) = min other (parkBackoffMs.length - 1) := by
  have steps : ∀ one other : Fin 5,
      parkBackoffMs.getD one 0 = parkBackoffMs.getD other 0 ↔ one = other := by decide
  have bound : ∀ count, min count (parkBackoffMs.length - 1) < 5 := fun count =>
    Nat.lt_succ_of_le (Nat.min_le_right _ _)
  have same := steps ⟨_, bound one⟩ ⟨_, bound other⟩
  rwa [Fin.mk.injEq] at same

theorem le_longest {waits : List Nat} {ms : Nat} (inside : ms ∈ waits) : ms ≤ longest waits :=
  List.le_max_of_le inside le_rfl

theorem longest_le {waits : List Nat} {bound : Nat} (all : ∀ ms ∈ waits, ms ≤ bound) :
    longest waits ≤ bound :=
  List.max_le_of_forall_le waits bound all

theorem longest_mem {waits : List Nat} (some' : waits ≠ []) : longest waits ∈ waits := by
  induction waits with
  | nil => contradiction
  | cons wait rest ih =>
      rw [longest, List.foldr_cons, ← longest]
      cases rest with
      | nil => exact List.mem_singleton.2 (max_eq_left (Nat.zero_le wait))
      | cons next rest =>
          cases max_choice wait (longest (next :: rest)) with
          | inl first => exact first.symm ▸ List.mem_cons_self
          | inr later =>
              rw [later]
              exact List.mem_cons_of_mem wait (ih (List.cons_ne_nil next rest))

theorem waitOf_eq_some {now wakeAt : Time} {task : Task} (rests : Resting task)
    (stored : task.wakeAt = some wakeAt) : waitOf now task = some (wakeAt - now) := by
  rw [waitOf, stored]
  exact if_pos rests

/-- A run that parks the record, what it came to, and the wait it stores. -/
theorem wait_cases (parks : standing.wait turn ending = some wait) :
    (standing.run turn ending).parks = standing.task.parks + 1 ∧
      ∃ parked result, ending.result standing.task.parks = .ok result ∧ result.drained = false ∧
        result.parked = some parked ∧ parked.reason ≠ .approval ∧
        wait = max 1000 (parked.wakeInMs.getD 0) := by
  have counts := @uncounted_or_comesToPark (turnOf turn ending standing.task).answers
    (claimed standing.task (turnOf turn ending standing.task))
  rw [Standing.wait] at parks
  cases counts with
  | inl uncounted =>
      rw [Standing.run, waitOf_eq_none (left_uncounted uncounted).2] at parks
      contradiction
  | inr comes =>
      obtain ⟨parked, comes⟩ := comes
      obtain ⟨result, comesTo, going, given⟩ := comes.comes
      obtain ⟨counted, stored⟩ := @left_parked standing.task _ _ comes
      refine ⟨counted, parked, result, comesTo.orchestrated, going, given, comes.provider, ?_⟩
      split at stored
      next =>
        rw [Standing.run, waitOf_eq_some stored.1 stored.2, Option.some.injEq] at parks
        rw [← parks, wakeTime]
        exact add_sub_cancel_left _ _
      next =>
        rw [Standing.run, waitOf_eq_none stored] at parks
        contradiction

/-- Each run in a row that parked the record was counted on it. -/
theorem streak_le_parks (task : Task) (history : List Event) :
    (Standing.after task history).streak ≤ (Standing.after task history).task.parks := by
  have kept : ∀ (history : List Event) (standing : Standing), standing.streak ≤ standing.task.parks →
      (history.foldl Standing.next standing).streak ≤
        (history.foldl Standing.next standing).task.parks := by
    intro history
    induction history with
    | nil => exact fun _ start => start
    | cons event rest ih =>
        intro standing start
        apply ih
        cases event with
        | between actions uncounted =>
            rw [Standing.next, parks_applyAll uncounted]
            exact start
        | pulse turn ending =>
            dsimp only [Standing.next]
            cases parks : standing.wait turn ending with
            | none => exact Nat.zero_le _
            | some wait =>
                rw [(wait_cases parks).1]
                exact Nat.succ_le_succ start
  exact kept history _ (Nat.zero_le _)

/-- The steps that parked a run, when none of them waits for approval. -/
theorem parkedRun_provider {steps : List (Orchestrator.StepError × Park)} {parked : Parked}
    (parks : parkedRun steps = some parked) (provider : parked.reason ≠ .approval) :
    steps ≠ [] ∧ (∀ step ∈ steps, step.2.reason ≠ .approval) ∧
      parked.wakeInMs = some (longest (steps.map fun step => step.2.wakeInMs) : Nat) := by
  rw [parkedRun] at parks
  cases approval : steps.find? fun step => decide (step.2.reason = .approval) with
  | some first =>
      rw [approval] at parks
      exact absurd (congrArg Parked.reason (Option.some.inj parks)).symm provider
  | none =>
      have others : ∀ step ∈ steps, step.2.reason ≠ .approval := by simpa using approval
      rw [approval] at parks
      cases steps with
      | nil => contradiction
      | cons first rest =>
          obtain rfl := Option.some.inj parks
          exact ⟨List.cons_ne_nil _ _, others, rfl⟩

/-- Steps that failed without a Retry-After wait for the first step of the ladder. -/
theorem longest_unasked {entries : Entries} {settled : Result}
    (unasked : (RunEnd.executed entries settled).Unasked) (some' : parkedSteps entries ≠ [])
    (others : ∀ step ∈ parkedSteps entries, step.2.reason ≠ .approval) :
    longest ((parkedSteps entries).map fun step => step.2.wakeInMs) = ladder 0 := by
  have same : ∀ step ∈ parkedSteps entries, step.2.wakeInMs = ladder 0 := by
    intro step inside
    obtain ⟨failure, none', earned⟩ := unasked step inside (others step inside)
    rw [earned.wakeInMs, none']
    rfl
  apply Nat.le_antisymm
  · apply longest_le
    intro ms inside
    obtain ⟨step, among, rfl⟩ := List.mem_map.1 inside
    exact (same step among).le
  · obtain ⟨step, among⟩ := List.exists_mem_of_ne_nil _ some'
    exact same step among ▸ le_longest (List.mem_map_of_mem among)

/-- What a run waits that parks for failures without a Retry-After. -/
theorem wait_unasked (unasked : ending.Unasked) (parks : standing.wait turn ending = some wait) :
    wait = ladder (ending.told standing.task.parks) := by
  have least : ∀ count, 1000 ≤ ladder count := by
    have steps : ∀ step : Fin 5, 1000 ≤ parkBackoffMs.getD step 0 := by decide
    exact fun count => steps ⟨_, Nat.lt_succ_of_le (Nat.min_le_right count _)⟩
  obtain ⟨_, parked, result, ended, going, given, provider, waits⟩ := wait_cases parks
  have enough : parked.wakeInMs = some (ladder (ending.told standing.task.parks) : Int) := by
    cases ending with
    | unplanned class' retryAfterMs code message =>
        obtain rfl : retryAfterMs = none := unasked
        simp only [RunEnd.result, parkFor] at ended
        cases reason : parkable class' with
        | none =>
            rw [reason] at ended
            contradiction
        | some reason' =>
            rw [reason] at ended
            obtain rfl := Except.ok.inj ended
            obtain rfl := Option.some.inj given
            rfl
    | executed entries settled =>
        rw [RunEnd.result] at ended
        split at ended
        next =>
          obtain rfl := Except.ok.inj ended
          contradiction
        next =>
          split at ended
          next parked' runs =>
            obtain rfl := Except.ok.inj ended
            obtain rfl := Option.some.inj given
            obtain ⟨some', others, longestWait⟩ := parkedRun_provider runs provider
            rw [longestWait, longest_unasked unasked some' others]
            rfl
          next =>
            obtain rfl := Except.ok.inj ended
            contradiction
  rw [waits, enough]
  exact max_eq_right (Int.ofNat_le.2 (least _))

end Ladder

/-- In every history, a run that parks the record for failures without a Retry-After waits as the
ladder has it for its place among the parks in a row exactly when it parks for a plan and as many
parks are counted, or the ladder has ended, or when it parks for steps and is the first in a row. -/
theorem park_backoff_iff (task : Task) (history : List Event) (turn : Turn) (ending : RunEnd)
    (wait : Int) (unasked : ending.Unasked)
    (parks : (Standing.after task history).wait turn ending = some wait) :
    wait = ladder (Standing.after task history).streak ↔
      (Standing.after task history).OnLadder ending := by
  have counted := streak_le_parks task history
  rw [wait_unasked unasked parks, Int.ofNat_inj, ladder_inj]
  cases ending with
  | unplanned =>
      rw [Standing.OnLadder, RunEnd.told]
      omega
  | executed =>
      have : 0 < parkBackoffMs.length - 1 := by decide
      rw [Standing.OnLadder, RunEnd.told]
      omega

/-- The park of a step whose only provider is down. -/
def downPark : Park where
  reason := .provider
  wakeInMs := 300000
  why := Utf16.ofString "no candidate left; the fault is on the provider side"
  approvalKey := none

def downError : Orchestrator.StepError where
  code := Utf16.ofString "UPSTREAM_ERROR"
  class' := Utf16.ofString "provider_down"
  message := Utf16.ofString "Groq upstream error (503)"
  park := some downPark

/-- A run that this step parks. -/
def downRun : RunEnd :=
  .executed [{
    step := { id := Utf16.ofString "write", title := [], aspect := [], description := []
              dependsOn := [], deliverable := [] }
    state := .failed
    assignment := none
    attempts := []
    output := none
    error := some downError
    startedAt := some 0
    completedAt := some 1 }] {}

/-- The failure of the step, for which the policy parks it. -/
def downFailure : Classified where
  class' := .providerDown
  code := some (Utf16.ofString "UPSTREAM_ERROR")
  message := Utf16.ofString "Groq upstream error (503)"
  retryAfterMs := none

theorem downRun_unasked : downRun.Unasked := by
  intro step inside _
  obtain rfl : step = (downError, downPark) := List.mem_singleton.1 inside
  let situation : Situation := {
    class' := .providerDown, retryAfterMs := none, sameProviderAttempts := 1, attemptsUsed := 1
    maxAttempts := 3, nextAvailable := false, hops := 0, parks := 0
    random := ⟨0, le_rfl, zero_lt_one⟩ }
  exact ⟨downFailure, rfl, situation, rfl, rfl, rfl, rfl⟩

/-- The turn of a record that may park six times. -/
def downTurn : Turn := NewLife.turnWith 6 {}

/-- The first park of a step waits five minutes, as it should. -/
theorem park_backoff_first : (300000 : Int) = ladder 0 ↔
    (Standing.after { id := "issue-7" } []).OnLadder downRun :=
  park_backoff_iff { id := "issue-7" } [] downTurn downRun 300000 downRun_unasked rfl

/-- The record is resumed. -/
def resumed : Event :=
  .between [.move .pending { now := 300000, reason := some "wake time reached" }] (by simp)

/-- The second park of a step in a row waits five minutes again, not fifteen. -/
theorem not_park_backoff : ¬ ∀ (task : Task) (history : List Event) (turn : Turn)
    (ending : RunEnd) (wait : Int), ending.Unasked →
    (Standing.after task history).wait turn ending = some wait →
    wait = ladder (Standing.after task history).streak := by
  intro claim
  have waits := claim { id := "issue-7" } [.pulse downTurn downRun, resumed] downTurn downRun 300000
    downRun_unasked rfl
  have second : (Standing.after { id := "issue-7" } [.pulse downTurn downRun, resumed]).streak = 1 :=
    rfl
  rw [second] at waits
  contradiction

end Parking

end TitanRunner
