import TitanRunner.Engine.Parking
import TitanRunner.State.DateTime

/-!
# When a parked task wakes

`parseRetryAfter` and `upstreamErrorFrom` of `providers/base.js`, and what becomes of a Retry-After on
its way through the failure, the park of the step and the summary of the run to the record.
-/

namespace TitanRunner

namespace WakeTime

open Orchestrator (Entries Park)
open Orchestrator.RetryLoop (Classified Earned)
open NewLife (ComesTo claimed left)
open Parking RetryPolicy RunTask
open IsoDate (isTimeValue lastOf9999)
open Validate (isDateTime isDateTime_iff)

/-! ## What a provider asks for -/

/-- A Retry-After, as `Number` or `Date.parse` reads it. -/
inductive RetryAfter where
  | seconds (amount : ℚ) (nonneg : 0 ≤ amount)
  | date (when' : Time)

/-- The least number of milliseconds that is `Infinity`. -/
@[irreducible] def infinity : Nat := (2 ^ 54 - 1) * 2 ^ 970

theorem lt_infinity {ms : Nat} (small : ms < 2 ^ 54 - 1) : ms < infinity := by
  have grows : ∀ exponent, 2 ^ 54 - 1 ≤ (2 ^ 54 - 1) * 2 ^ exponent := fun exponent =>
    Nat.le_mul_of_pos_right _ (Nat.two_pow_pos exponent)
  unfold infinity
  exact small.trans_le (grows _)

/-- `parseRetryAfter`.  Who reads the result drops what is not finite. -/
def parseRetryAfter (now : Time) : RetryAfter → Option Nat
  | .seconds amount _ =>
      let ms := RetryPolicy.round (amount * 1000)
      if ms < infinity then some ms else none
  | .date when' => some (when' - now).toNat

/-- The point in time that is asked for. -/
def RetryAfter.due (receivedAt : Time) : RetryAfter → Time
  | .seconds amount _ => receivedAt + RetryPolicy.round (amount * 1000)
  | .date when' => when'

/-- Where a failure comes from. -/
inductive Source where
  /-- An answer of a provider that is not ok. -/
  | answer (status : Nat) (header : Option RetryAfter) (receivedAt : Time)
  /-- The network, a model that is still loading, or a failover over several providers. -/
  | other (retryAfterMs : Option Nat)

/-- A failure of which a run is parked. -/
structure Refusal where
  class' : FailureClass
  source : Source

/-- `retryAfterMs` of the error, as `upstreamErrorFrom` makes it of an answer. -/
def Refusal.retryAfterMs (refusal : Refusal) : Option Nat :=
  match refusal.source with
  | .answer status header receivedAt =>
      if status = 429 ∨ 500 ≤ status then header.bind (parseRetryAfter receivedAt) else none
  | .other retryAfterMs => retryAfterMs

/-- The time the provider asked for. -/
def Refusal.due (refusal : Refusal) : Option Time :=
  match refusal.source with
  | .answer _ header receivedAt => header.map (RetryAfter.due receivedAt)
  | .other _ => none

/-- What is asked for, or the step of the ladder. -/
def Refusal.wait (parks : Nat) (refusal : Refusal) : Nat :=
  match refusal.retryAfterMs with
  | some asked => max asked 1000
  | none => ladder parks

/-! ## The run -/

/-- The parks of a run's steps on the provider side. -/
def providerParks (entries : Entries) : List Park :=
  ((parkedSteps entries).map Prod.snd).filter fun park => decide (park.reason ≠ .approval)

/-- The failures that park a run: the one of its plan, or one for each step that waits. -/
def RefusedBy : RunEnd → List Refusal → Prop
  | .unplanned class' retryAfterMs _ _, refusals => (parkable class').isSome = true ∧
      ∃ refusal, refusals = [refusal] ∧ refusal.class' = class' ∧
        refusal.retryAfterMs = retryAfterMs
  | .executed entries _, refusals => refusals ≠ [] ∧
      List.Forall₂ (fun park refusal => ∃ failure : Classified, failure.class' = refusal.class' ∧
        failure.retryAfterMs = refusal.retryAfterMs ∧ Earned failure park)
        (providerParks entries) refusals

/-- A run of the record is parked for these failures, and nothing else ends it. -/
structure IsParked (task : Task) (turn : Turn) (ending : RunEnd) (refusals : List Refusal) :
    Prop where
  refused : RefusedBy ending refusals
  received : ∀ refusal ∈ refusals, ∀ status header receivedAt,
    refusal.source = .answer status header receivedAt → receivedAt ≤ turn.answers.pulse.now
  clock : 0 ≤ turn.answers.pulse.now ∧ turn.answers.pulse.now ≤ lastOf9999
  withinBudget : turn.answers.overBefore = none ∧ turn.answers.overAfter = none
  gate : turn.answers.gate = none
  parks : task.parks < turn.answers.maxParks
  unstopped : task.cancelRequested = false ∧ task.pauseRequested = false

/-- The record waits for a time that the state files can hold and that no provider finds too early. -/
def Usable (refusals : List Refusal) (task : Task) : Prop :=
  task.status = .waiting ∧ ∃ wakeAt, task.wakeAt = some wakeAt ∧ isDateTime wakeAt = true ∧
    ∀ refusal ∈ refusals, ∀ due ∈ refusal.due, due ≤ wakeAt

/-- Some step is left to run, so that the run is drained, or waits for an approval. -/
def isAtOnce : RunEnd → Bool
  | .unplanned _ _ _ _ => false
  | .executed entries _ =>
      (entries.any fun entry => [.pending, .queued, .running].contains entry.state) ||
        (parkedSteps entries).any fun step => decide (step.2.reason = .approval)

/-- The times that are asked for can be kept. -/
def CanBeKept (now : Time) (parks : Nat) (ending : RunEnd) (refusals : List Refusal) : Prop :=
  if isAtOnce ending then ∀ refusal ∈ refusals, ∀ due ∈ refusal.due, due ≤ now
  else
    (∀ refusal ∈ refusals, now + refusal.wait (ending.told parks) ≤ lastOf9999) ∧
      -- The header is not read: another failure has to wait as long.
      ∀ refusal ∈ refusals, refusal.retryAfterMs = none → ∀ due ∈ refusal.due,
        ∃ other ∈ refusals, due ≤ now + other.wait (ending.told parks)

section Wait

variable {refusal : Refusal} {refusals : List Refusal} {parks : Nat} {now : Time}

theorem round_natCast (number : Nat) : RetryPolicy.round number = number := by
  rw [RetryPolicy.round, Nat.floor_eq_iff (by positivity)]
  exact ⟨by linarith, by linarith⟩

theorem le_wait : 1000 ≤ refusal.wait parks := by
  have steps : ∀ step : Fin 5, 1000 ≤ parkBackoffMs.getD step 0 := by decide
  rw [Refusal.wait]
  split
  next => exact le_max_right _ _
  next => exact steps ⟨_, Nat.lt_succ_of_le (Nat.min_le_right parks _)⟩

theorem due_le_of_parseRetryAfter {receivedAt : Time} {retryAfter : RetryAfter} {asked : Nat}
    (parsed : parseRetryAfter receivedAt retryAfter = some asked) :
    retryAfter.due receivedAt ≤ receivedAt + asked := by
  cases retryAfter with
  | seconds amount nonneg =>
      rw [parseRetryAfter, Option.ite_none_right_eq_some, Option.some.injEq] at parsed
      rw [← parsed.2]
      exact le_refl _
  | date when' =>
      rw [← Option.some.inj parsed, RetryAfter.due]
      exact sub_le_iff_le_add'.1 (Int.self_le_toNat (when' - receivedAt))

/-- A header that is read is kept to. -/
theorem due_le_wait {asked : Nat} {due : Time} (read : refusal.retryAfterMs = some asked)
    (dueAt : due ∈ refusal.due) (received : ∀ status header receivedAt,
      refusal.source = .answer status header receivedAt → receivedAt ≤ now) :
    due ≤ now + refusal.wait parks := by
  have kept : (asked : Int) ≤ refusal.wait parks := by
    rw [Refusal.wait, read]
    exact Int.ofNat_le.2 (le_max_left _ _)
  rw [Refusal.retryAfterMs] at read
  rw [Refusal.due] at dueAt
  split at read
  next status header receivedAt source =>
    have earlier := received status header receivedAt source
    split at read
    next =>
      obtain ⟨retryAfter, rfl, parsed⟩ := Option.bind_eq_some_iff.1 read
      rw [source] at dueAt
      obtain rfl : retryAfter.due receivedAt = due := Option.some.inj dueAt
      exact (due_le_of_parseRetryAfter parsed).trans (add_le_add earlier kept)
    next => contradiction
  next retryAfterMs source =>
    rw [source] at dueAt
    contradiction

/-- When the record wakes that waits for the longest of the waits. -/
theorem usable_longest {wakeAt : Time} (some' : refusals ≠ []) (later : 0 ≤ now)
    (received : ∀ refusal ∈ refusals, ∀ status header receivedAt,
      refusal.source = .answer status header receivedAt → receivedAt ≤ now)
    (wakes : wakeAt = now + longest (refusals.map (Refusal.wait parks))) :
    (isDateTime wakeAt = true ∧ ∀ refusal ∈ refusals, ∀ due ∈ refusal.due, due ≤ wakeAt) ↔
      (∀ refusal ∈ refusals, now + refusal.wait parks ≤ lastOf9999) ∧
        ∀ refusal ∈ refusals, refusal.retryAfterMs = none → ∀ due ∈ refusal.due,
          ∃ other ∈ refusals, due ≤ now + other.wait parks := by
  have least : ∀ other ∈ refusals, now + other.wait parks ≤ wakeAt := by
    intro other inside
    rw [wakes]
    exact add_le_add_right (Int.ofNat_le.2 (le_longest (List.mem_map_of_mem inside))) now
  have reached : ∃ other ∈ refusals, wakeAt = now + other.wait parks := by
    have waits : refusals.map (Refusal.wait parks) ≠ [] := fun none' => some' (List.map_eq_nil_iff.1 none')
    obtain ⟨other, inside, most⟩ := List.mem_map.1 (longest_mem waits)
    exact ⟨other, inside, wakes.trans (by rw [most])⟩
  obtain ⟨last, among, wakesAt⟩ := reached
  have dated : isDateTime wakeAt = true ↔ wakeAt ≤ lastOf9999 := by
    rw [isDateTime_iff, IsoDate.yearOf_le_iff]
    exact and_iff_right (IsoDate.yearOf_nonneg
      (later.trans (wakesAt ▸ Int.le_add_of_nonneg_right (Int.natCast_nonneg _))))
  rw [dated]
  constructor
  · intro ⟨holds, kept⟩
    exact ⟨fun other inside => (least other inside).trans holds,
      fun other inside _ due dueAt => ⟨last, among, wakesAt ▸ kept other inside due dueAt⟩⟩
  · intro ⟨holds, unread⟩
    refine ⟨wakesAt ▸ holds last among, fun other inside due dueAt => ?_⟩
    cases read : other.retryAfterMs with
    | some asked =>
        exact (due_le_wait read dueAt (received other inside)).trans (least other inside)
    | none =>
        obtain ⟨longer, inside', enough⟩ := unread other inside read due dueAt
        exact enough.trans (least longer inside')

end Wait

/-! ## The record -/

section Record

variable {task : Task} {turn : Turn} {ending : RunEnd} {refusals : List Refusal} {parked : Parked}
  {result : Result}

/-- A run that is drained leaves the record waiting for the time at which it ends. -/
theorem left_drained (parks : IsParked task turn ending refusals)
    (ended : ending.result task.parks = .ok result) (drains : result.drained = true) :
    (left task (turnOf turn ending task)).status = .waiting ∧
      (left task (turnOf turn ending task)).wakeAt = some turn.answers.pulse.now := by
  have actions : processTaskInner (turnOf turn ending task).answers
      (claimed task (turnOf turn ending task)) = .write (.runId turn.answers.runId) ::
        RunTask.drained (turnOf turn ending task).answers
          (claimed task (turnOf turn ending task)) := by
    simp only [processTaskInner, turnOf, parks.withinBudget.1, parks.gate, ended, drains, if_true]
  rw [left, actions, RunTask.drained, NewLife.claimed_cancelRequested,
    NewLife.claimed_pauseRequested, parks.unstopped.1, parks.unstopped.2]
  simp [turnOf, parks.withinBudget.2, RunTask.recordUsage, RunTask.wait, Action.applyAll, Action.apply,
    Patch.apply, moveTask_wakeAt]

/-- A run with a step that waits for approval leaves the record waiting for the time at which it
asks. -/
theorem left_asked (parks : IsParked task turn ending refusals)
    (ended : ending.result task.parks = .ok result) (going : result.drained = false)
    (given : result.parked = some parked) (approval : parked.reason = .approval) :
    (left task (turnOf turn ending task)).status = .waiting ∧
      (left task (turnOf turn ending task)).wakeAt = some turn.answers.pulse.now := by
  have actions : processTaskInner (turnOf turn ending task).answers
      (claimed task (turnOf turn ending task)) = [.write (.runId turn.answers.runId),
        recordUsage (turnOf turn ending task).answers,
        askApproval (turnOf turn ending task).answers (parked.approvalKey.getD "null")] := by
    simp only [processTaskInner, turnOf, parks.withinBudget.1, parks.gate, ended, going, given,
      approval, if_true, Bool.false_eq_true, if_false]
  rw [left, actions]
  simp [turnOf, RunTask.recordUsage, RunTask.askApproval, RunTask.wait, Action.applyAll,
    Action.apply, Patch.apply, moveTask_wakeAt]

/-- A park whose time no date can hold leaves the record running. -/
theorem left_undated (comes : ComesToPark turn.answers parked)
    (below : task.parks < turn.answers.maxParks)
    (undated : isTimeValue (wakeTime turn.answers parked) = false) :
    (left task turn).status = .running := by
  rw [left, comes.actions, RunTask.park, NewLife.claimed_parks]
  dsimp only
  rw [if_neg (by omega), if_neg (by rw [undated]; exact Bool.false_ne_true)]
  simp [Action.applyAll, Action.apply, Patch.apply, RunTask.recordUsage]

theorem isTimeValue_of_isDateTime {time : Time} (later : 0 ≤ time)
    (dated : isDateTime time = true) : isTimeValue time = true := by
  have last : time ≤ lastOf9999 := IsoDate.yearOf_le_iff.1 (isDateTime_iff.1 dated).2
  have enough : lastOf9999 ≤ (8640000000000000 : Nat) := by decide
  have size : (time.natAbs : Int) ≤ (8640000000000000 : Nat) :=
    (Int.natAbs_of_nonneg later).le.trans (last.trans enough)
  exact decide_eq_true (Int.ofNat_le.1 size)

/-- The record of a run that comes to a park waits until the time that is stored, when the state
files can hold it. -/
theorem usable_parked (comes : ComesToPark turn.answers parked)
    (below : task.parks < turn.answers.maxParks) (later : 0 ≤ wakeTime turn.answers parked) :
    Usable refusals (left task turn) ↔ isDateTime (wakeTime turn.answers parked) = true ∧
      ∀ refusal ∈ refusals, ∀ due ∈ refusal.due, due ≤ wakeTime turn.answers parked := by
  have stored := (@left_parked task _ _ comes).2
  cases valid : isTimeValue (wakeTime turn.answers parked) with
  | true =>
      rw [if_pos ⟨below, valid⟩] at stored
      obtain ⟨⟨waits, _⟩, wakes⟩ := stored
      rw [Usable, wakes]
      simp [waits]
  | false =>
      have undated : isDateTime (wakeTime turn.answers parked) ≠ true := by
        intro dated
        rw [isTimeValue_of_isDateTime later dated] at valid
        contradiction
      rw [Usable, left_undated comes below valid]
      simp [undated]

/-! ## The summary of the run -/

theorem wait_eq_parkWait (refusal : Refusal) (parks : Nat) :
    refusal.wait parks = parkWait refusal.retryAfterMs parks := by
  rw [Refusal.wait]
  cases refusal.retryAfterMs <;> rfl

theorem ne_approval_of_parkable {class' : FailureClass} {reason : Orchestrator.ParkReason}
    (parks : parkable class' = some reason) : reason ≠ .approval := by
  rintro rfl
  cases class' <;> contradiction

/-- A run that is parked at once is drained or asks for an approval. -/
theorem result_atOnce {parks : Nat} (atOnce : isAtOnce ending = true) :
    ∃ result, ending.result parks = .ok result ∧ (result.drained = true ∨
      result.drained = false ∧ ∃ parked, result.parked = some parked ∧
        parked.reason = .approval) := by
  cases ending with
  | unplanned => contradiction
  | executed entries settled =>
      cases left' : entries.any fun entry => [.pending, .queued, .running].contains entry.state with
      | true => exact ⟨{ drained := true }, by rw [RunEnd.result, left', if_pos rfl], .inl rfl⟩
      | false =>
          rw [isAtOnce, left', Bool.false_or, List.any_eq_true] at atOnce
          cases found : (parkedSteps entries).find? fun step =>
              decide (step.2.reason = .approval) with
          | none =>
              obtain ⟨step, inside, approval⟩ := atOnce
              exact absurd approval (List.find?_eq_none.1 found step inside)
          | some first =>
              have parks : ∃ parked, parkedRun (parkedSteps entries) = some parked ∧
                  parked.reason = .approval := by
                rw [parkedRun, found]
                exact ⟨_, rfl, rfl⟩
              obtain ⟨parked, runs, approval⟩ := parks
              refine ⟨{ parked := some parked }, ?_, .inr ⟨rfl, parked, rfl, approval⟩⟩
              simp only [RunEnd.result, left', runs, Bool.false_eq_true, if_false]

theorem parkedRun_others {steps : List (Orchestrator.StepError × Park)} (some' : steps ≠ [])
    (others : ∀ step ∈ steps, step.2.reason ≠ .approval) :
    ∃ parked, parkedRun steps = some parked ∧ parked.reason ≠ .approval := by
  have unasked : steps.find? (fun step => decide (step.2.reason = .approval)) = none :=
    List.find?_eq_none.2 fun step inside approval => others step inside (of_decide_eq_true approval)
  obtain ⟨first, rest, rfl⟩ := List.exists_cons_of_ne_nil some'
  rw [parkedRun, unasked]
  refine ⟨_, rfl, ?_⟩
  dsimp only
  split
  next => contradiction
  next => split <;> decide

theorem refusals_ne_nil (refused : RefusedBy ending refusals) : refusals ≠ [] := by
  cases ending with
  | unplanned =>
      obtain ⟨_, refusal, rfl, _⟩ := refused
      exact List.cons_ne_nil _ _
  | executed => exact refused.1

/-- Any other run that is parked waits for the longest of the waits of its failures. -/
theorem result_parked {parks : Nat} (refused : RefusedBy ending refusals)
    (later : isAtOnce ending = false) :
    ∃ result parked, ending.result parks = .ok result ∧ result.drained = false ∧
      result.parked = some parked ∧ parked.reason ≠ .approval ∧
      parked.wakeInMs = some (longest (refusals.map (Refusal.wait (ending.told parks))) : Nat) := by
  cases ending with
  | unplanned class' retryAfterMs code message =>
      obtain ⟨parks', refusal, rfl, rfl, rfl⟩ := refused
      obtain ⟨reason, parkable'⟩ := Option.isSome_iff_exists.1 parks'
      have waits : longest [refusal.wait parks] = parkWait refusal.retryAfterMs parks :=
        (max_eq_left (Nat.zero_le _)).trans (wait_eq_parkWait refusal parks)
      simp only [RunEnd.result, parkFor, parkable', Option.map_some]
      exact ⟨_, _, rfl, rfl, rfl, ne_approval_of_parkable parkable',
        congrArg (fun ms : Nat => some (ms : Int)) waits.symm⟩
  | executed entries settled =>
      obtain ⟨some', refused⟩ := refused
      simp only [isAtOnce, Bool.or_eq_false_iff] at later
      obtain ⟨still, none'⟩ := later
      have others : ∀ step ∈ parkedSteps entries, step.2.reason ≠ .approval := by simpa using none'
      have all : providerParks entries = (parkedSteps entries).map Prod.snd := by
        refine List.filter_eq_self.2 fun park inside => ?_
        obtain ⟨step, among, rfl⟩ := List.mem_map.1 inside
        exact decide_eq_true (others step among)
      have waits : (providerParks entries).map Park.wakeInMs = refusals.map (Refusal.wait 0) := by
        rw [← List.forall₂_eq_eq_eq, List.forall₂_map_left_iff, List.forall₂_map_right_iff]
        refine refused.imp fun park refusal earned => ?_
        obtain ⟨failure, -, same, earned⟩ := earned
        rw [earned.wakeInMs, same, wait_eq_parkWait]
      have parks' : parkedSteps entries ≠ [] := by
        intro empty
        rw [all, empty] at refused
        cases refused
        contradiction
      obtain ⟨parked, runs, provider⟩ := parkedRun_others parks' others
      obtain ⟨_, _, longestWait⟩ := parkedRun_provider runs provider
      refine ⟨{ parked := some parked }, parked, ?_, rfl, rfl, provider, ?_⟩
      · simp only [RunEnd.result, still, runs, Bool.false_eq_true, if_false]
      · rw [longestWait, RunEnd.told, ← waits, all, List.map_map]
        rfl

end Record

/-- A provider that asks at the start of the epoch to wait for so many seconds. -/
def limited (seconds : Nat) : Refusal where
  class' := .rateLimited
  source := .answer 429 (some (.seconds seconds (Nat.cast_nonneg seconds))) 0

theorem limited_retryAfterMs {seconds : Nat} (finite : seconds * 1000 < infinity) :
    (limited seconds).retryAfterMs = some (seconds * 1000) := by
  have ms : RetryPolicy.round ((seconds : ℚ) * 1000) = seconds * 1000 := by
    exact_mod_cast round_natCast (seconds * 1000)
  have asked : parseRetryAfter 0 (.seconds seconds (Nat.cast_nonneg seconds)) =
      some (seconds * 1000) := by
    rw [parseRetryAfter, ms, if_pos finite]
  exact asked

/-- A plan that fails so. -/
def unplanned (refusal : Refusal) : RunEnd :=
  .unplanned refusal.class' refusal.retryAfterMs (some "PLAN_FAILED") "planning call failed"

/-- The turn of a record that may park six times, at the start of the epoch. -/
def turn : Turn := NewLife.turnWith 6 {}

theorem isParked_limited (seconds : Nat) :
    IsParked { id := "issue-7" } turn (unplanned (limited seconds)) [limited seconds] where
  refused := ⟨rfl, limited seconds, rfl, rfl, rfl⟩
  received := by
    intro refusal inside status header receivedAt source
    obtain rfl := List.mem_singleton.1 inside
    exact (Source.answer.inj source).2.2.ge
  clock := by decide
  withinBudget := ⟨rfl, rfl⟩
  gate := rfl
  parks := by decide
  unstopped := ⟨rfl, rfl⟩

end WakeTime

end TitanRunner
