import Mathlib.Algebra.Order.Floor.Semiring
import Mathlib.Data.Rat.Floor
import TitanRunner.Orchestrator.Graph

/-!
# The retry policy

`reliability/retryPolicy.js` with the failure classes of `reliability/failures.js`: what is
done after a failed attempt, and how long a task that parks is to wait.
-/

namespace TitanRunner

namespace RetryPolicy

open Orchestrator (ParkReason)
open Utf16

/-- `FAILURE_CLASSES`. -/
inductive FailureClass where
  | transient | rateLimited | providerDown | timeout | malformedOutput | toolError | policyBlocked
  | budgetExhausted | permanent | poisoned | cancelled
  deriving DecidableEq, Repr

def FailureClass.text : FailureClass → Utf16
  | .transient => ofString "transient"
  | .rateLimited => ofString "rate_limited"
  | .providerDown => ofString "provider_down"
  | .timeout => ofString "timeout"
  | .malformedOutput => ofString "malformed_output"
  | .toolError => ofString "tool_error"
  | .policyBlocked => ofString "policy_blocked"
  | .budgetExhausted => ofString "budget_exhausted"
  | .permanent => ofString "permanent"
  | .poisoned => ofString "poisoned"
  | .cancelled => ofString "cancelled"

/-- `PARKABLE`. -/
def parkable : FailureClass → Option ParkReason
  | .rateLimited | .providerDown => some .provider
  | .budgetExhausted => some .quota
  | _ => none

structure Rule where
  sameMax : Nat
  next : Bool
  nextMax : Nat
  baseDelayMs : Nat
  maxDelayMs : Nat
  honorRetryAfter : Bool
  giveUp : Bool := false
  deriving DecidableEq, Repr

/-- A rule of a class that is never retried. -/
def Rule.never : Rule where
  sameMax := 0
  next := false
  nextMax := 0
  baseDelayMs := 0
  maxDelayMs := 0
  honorRetryAfter := false
  giveUp := true

/-- `POLICY`. -/
def policy : FailureClass → Rule
  | .transient => { sameMax := 1, next := true, nextMax := 2, baseDelayMs := 300, maxDelayMs := 4000
                    honorRetryAfter := false }
  | .rateLimited => { sameMax := 1, next := true, nextMax := 2, baseDelayMs := 1000
                      maxDelayMs := 8000, honorRetryAfter := true }
  | .providerDown => { sameMax := 0, next := true, nextMax := 1, baseDelayMs := 500
                       maxDelayMs := 4000, honorRetryAfter := true }
  | .timeout => { sameMax := 0, next := true, nextMax := 2, baseDelayMs := 0, maxDelayMs := 0
                  honorRetryAfter := false }
  | .malformedOutput => { sameMax := 2, next := true, nextMax := 1, baseDelayMs := 0
                          maxDelayMs := 0, honorRetryAfter := false }
  | .toolError => { sameMax := 1, next := false, nextMax := 0, baseDelayMs := 200
                    maxDelayMs := 2000, honorRetryAfter := false }
  | .budgetExhausted => { sameMax := 0, next := true, nextMax := 1, baseDelayMs := 0
                          maxDelayMs := 0, honorRetryAfter := false }
  | .permanent => { sameMax := 0, next := true, nextMax := 2, baseDelayMs := 0, maxDelayMs := 0
                    honorRetryAfter := false }
  | .policyBlocked | .poisoned | .cancelled => .never

/-- `DEFAULT_MAX_INLINE_WAIT_MS`. -/
def defaultMaxInlineWaitMs : Nat := 10000

/-- `PARK_BACKOFF_MS`. -/
def parkBackoffMs : List Nat := [5 * 60000, 15 * 60000, 30 * 60000, 60 * 60000, 3 * 3600000]

/-- What `Math.random` answers. -/
structure Draw where
  value : ℚ
  nonneg : 0 ≤ value
  lt_one : value < 1

/-- `Math.round` of a number that is not negative. -/
def round (number : ℚ) : Nat := ⌊number + 1 / 2⌋₊

def backoffMs (attempt : Nat) (rule : Rule) (random : Draw) : Nat :=
  if rule.maxDelayMs = 0 then 0
  else
    let ceiling := min rule.maxDelayMs (rule.baseDelayMs * 2 ^ min attempt 10)
    round (random.value * ceiling)

/-- How long a task that parks waits: what the server asked for, or the step of the ladder the
earlier parks have led to. -/
def parkWait (retryAfterMs : Option Nat) (parks : Nat) : Nat :=
  match retryAfterMs with
  | some asked => max asked 1000
  | none => parkBackoffMs.getD (min parks (parkBackoffMs.length - 1)) 0

/-- The arguments of `decideRetry`. -/
structure Situation where
  class' : FailureClass
  retryAfterMs : Option Nat
  sameProviderAttempts : Nat
  attemptsUsed : Nat
  maxAttempts : Nat
  nextAvailable : Bool
  hops : Nat
  parks : Nat
  random : Draw

inductive Decision where
  | retrySame (delayMs : Nat) (why : Utf16)
  | retryNext (why : Utf16)
  | park (reason : ParkReason) (wakeInMs : Nat) (why : Utf16)
  | giveUp (why : Utf16)
  deriving DecidableEq, Repr

section Decide

variable (situation : Situation)

/-- `retryAfter` of `decideRetry`. -/
def Situation.honoured : Option Nat :=
  if (policy situation.class').honorRetryAfter then situation.retryAfterMs else none

/-- `retryAfter != null && retryAfter > maxInline`. -/
def Situation.tooLong : Bool := situation.honoured.any (defaultMaxInlineWaitMs < ·)

def Situation.park (reason : ParkReason) (why : Utf16) : Decision :=
  .park reason (parkWait situation.retryAfterMs situation.parks) why

def Situation.named (why : Utf16) : Utf16 := situation.class'.text ++ why

/-- The wait before the same model is tried again. -/
def Situation.delay : Nat :=
  situation.honoured.getD
    (backoffMs (situation.sameProviderAttempts - 1) (policy situation.class') situation.random)

/-- What is left when the same model is not tried again. -/
def moveOn : Decision :=
  let rule := policy situation.class'
  if rule.next && situation.nextAvailable && decide (situation.hops < rule.nextMax) then
    .retryNext (situation.named (ofString ": next candidate (hop " ++ ofNat (situation.hops + 1) ++
      ofString " of " ++ ofNat rule.nextMax ++ ofString ")"))
  else
    match parkable situation.class' with
    | some reason =>
        situation.park reason
          (if situation.tooLong then
            ofString "Retry-After " ++ ofNat (situation.honoured.getD 0) ++
              ofString " ms exceeds the inline cap"
          else if rule.nextMax ≤ situation.hops ∧ situation.nextAvailable = true then
            ofNat (situation.hops + 1) ++
              ofString " provider(s) failed the same way; the fault is widespread"
          else ofString "no candidate left; the fault is on the provider side")
    | none => .giveUp (situation.named (ofString ": no candidate left"))

def decideRetry : Decision :=
  let rule := policy situation.class'
  if rule.giveUp then .giveUp (situation.named (ofString " is never retried"))
  else if situation.maxAttempts ≤ situation.attemptsUsed then
    match parkable situation.class' with
    | some reason =>
        situation.park reason
          (ofString "attempt ceiling reached; the fault is on the provider side")
    | none => .giveUp (ofString "attempt ceiling reached")
  else if situation.sameProviderAttempts ≤ rule.sameMax ∧ situation.tooLong = false ∧
      situation.delay ≤ defaultMaxInlineWaitMs then
    .retrySame situation.delay (situation.named (ofString ": same model, attempt " ++
      ofNat (situation.sameProviderAttempts + 1)))
  else moveOn situation

end Decide

/-- `parkFor`: the park of a failure outside a step. -/
def parkFor (class' : FailureClass) (retryAfterMs : Option Nat) (parks : Nat) :
    Option (ParkReason × Nat × Utf16) :=
  (parkable class').map fun reason =>
    (reason, parkWait retryAfterMs parks, class'.text ++ ofString " outside a step")

section Decided

variable {situation : Situation} {delayMs wakeInMs : Nat} {why : Utf16} {reason : ParkReason}

theorem moveOn_ne_retrySame : moveOn situation ≠ .retrySame delayMs why := by
  rw [moveOn]
  dsimp only [Situation.park]
  split
  next => exact Decision.noConfusion
  next => split <;> exact Decision.noConfusion

/-- When the same model is tried again, and after how long. -/
theorem of_retrySame (decided : decideRetry situation = .retrySame delayMs why) :
    situation.sameProviderAttempts ≤ (policy situation.class').sameMax ∧
      delayMs ≤ defaultMaxInlineWaitMs ∧ ∀ asked ∈ situation.honoured, delayMs = asked := by
  rw [decideRetry] at decided
  dsimp only [Situation.park] at decided
  split at decided
  next => contradiction
  next =>
    split at decided
    next => split at decided <;> contradiction
    next =>
      split at decided
      next few =>
        have same := (Decision.retrySame.inj decided).1
        refine ⟨few.1, same ▸ few.2.2, ?_⟩
        intro asked honoured
        rw [← same, Situation.delay, Option.mem_def.1 honoured]
        rfl
      next => exact absurd decided moveOn_ne_retrySame

theorem of_moveOn_retryNext (decided : moveOn situation = .retryNext why) :
    situation.nextAvailable = true := by
  rw [moveOn] at decided
  dsimp only [Situation.park] at decided
  split at decided
  next goes =>
    rw [Bool.and_eq_true, Bool.and_eq_true] at goes
    exact goes.1.2
  next => split at decided <;> contradiction

theorem of_retryNext (decided : decideRetry situation = .retryNext why) :
    situation.nextAvailable = true := by
  rw [decideRetry] at decided
  dsimp only [Situation.park] at decided
  split at decided
  next => contradiction
  next =>
    split at decided
    next => split at decided <;> contradiction
    next =>
      split at decided
      next => contradiction
      next => exact of_moveOn_retryNext decided

theorem of_moveOn_park (decided : moveOn situation = .park reason wakeInMs why) :
    parkable situation.class' = some reason ∧
      wakeInMs = parkWait situation.retryAfterMs situation.parks := by
  rw [moveOn] at decided
  dsimp only [Situation.park] at decided
  split at decided
  next => contradiction
  next =>
    split at decided
    next parks =>
      have ⟨sameReason, sameWait, _⟩ := Decision.park.inj decided
      exact ⟨sameReason ▸ parks, sameWait.symm⟩
    next => contradiction

/-- A park is of a class that can be waited out, for as long as `parkWait` says. -/
theorem of_park (decided : decideRetry situation = .park reason wakeInMs why) :
    parkable situation.class' = some reason ∧
      wakeInMs = parkWait situation.retryAfterMs situation.parks := by
  rw [decideRetry] at decided
  dsimp only [Situation.park] at decided
  split at decided
  next => contradiction
  next =>
    split at decided
    next =>
      split at decided
      next parks =>
        have ⟨sameReason, sameWait, _⟩ := Decision.park.inj decided
        exact ⟨sameReason ▸ parks, sameWait.symm⟩
      next => contradiction
    next =>
      split at decided
      next => contradiction
      next => exact of_moveOn_park decided

end Decided

end RetryPolicy

end TitanRunner
