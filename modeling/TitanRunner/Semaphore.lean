import Mathlib.Data.Rat.Floor
import Mathlib.Data.ENat.Basic
import TitanRunner.Lib.Transition

/-!
# The counting semaphore

A permit that is given back goes to the first waiter and not to the count.  Callers ask for
permits and give them back in any order, and one caller may hold several.  Between their calls
the event loop runs its microtasks, so a waiter goes on after it was handed its permit.
-/

namespace TitanRunner

open TransitionSystem System

universe u

/-- `Number(max)` -/
inductive Semaphore.Given where
  | nan
  | infinity (negative : Bool)
  | finite (value : Rat)

/-- `Math.max(1, Math.floor(Number(max) || 1))`, where `⊤` is `Infinity`. -/
def Semaphore.maxOf : Given → ℕ∞
  | .nan | .infinity true => 1
  | .infinity false => ⊤
  | .finite value => (max 1 ⌊if value = 0 then 1 else value⌋).toNat

/-- The private fields; a waiter stands for its resolver. -/
structure Semaphore (Caller : Type u) where
  max : ℕ∞
  inFlight : Nat := 0
  queue : List Caller := []

namespace Semaphore

variable {Caller : Type u}

/-- `acquire`, and whether it returns without waiting. -/
def acquire (semaphore : Semaphore Caller) (caller : Caller) : Semaphore Caller × Bool :=
  if semaphore.inFlight < semaphore.max then
    ({ semaphore with inFlight := semaphore.inFlight + 1 }, true)
  else ({ semaphore with queue := semaphore.queue ++ [caller] }, false)

/-- `release`, and the waiter that it resolves. -/
def release (semaphore : Semaphore Caller) : Semaphore Caller × Option Caller :=
  match semaphore.queue with
  | next :: queue => ({ semaphore with queue }, some next)
  -- subtraction stops at zero, as `Math.max(0, …)` does
  | [] => ({ semaphore with inFlight := semaphore.inFlight - 1 }, none)

/-- A microtask. -/
inductive Job (Caller : Type u) where
  /-- `acquire` goes on behind its `await`. -/
  | wake (waiter : Caller)
  /-- The caller of `acquire` goes on. -/
  | resume (caller : Caller) (waited : Bool)

def Job.woken : Job Caller → Option Caller
  | .wake waiter => some waiter
  | .resume _ _ => none

def Job.resumed : Job Caller → Option Caller
  | .resume waiter true => some waiter
  | .resume _ false | .wake _ => none

/-- A semaphore and its callers. -/
structure World (Caller : Type u) where
  semaphore : Semaphore Caller
  /-- One entry for each permit that is held. -/
  holders : List Caller := []
  jobs : List (Job Caller) := []
  /-- The waiters as they arrived. -/
  arrived : List Caller := []
  /-- The waiters as they were handed their permits. -/
  handed : List Caller := []
  /-- The waiters as they went on. -/
  wentOn : List Caller := []

inductive Label (Caller : Type u) where
  | acquire (caller : Caller)
  /-- A holder gives a permit back. -/
  | release (caller : Caller)
  /-- The event loop runs a microtask. -/
  | turn

variable [DecidableEq Caller]

def World.next (world : World Caller) : Label Caller → Option (World Caller)
  | .acquire caller =>
      match world.semaphore.acquire caller with
      | (semaphore, true) => some { world with
          semaphore
          holders := caller :: world.holders
          jobs := world.jobs ++ [.resume caller false] }
      | (semaphore, false) => some { world with semaphore, arrived := world.arrived ++ [caller] }
  | .release caller =>
      if caller ∈ world.holders then
        match world.semaphore.release with
        | (semaphore, some waiter) => some { world with
            semaphore
            holders := waiter :: world.holders.erase caller
            jobs := world.jobs ++ [.wake waiter]
            handed := world.handed ++ [waiter] }
        | (semaphore, none) => some { world with
            semaphore
            holders := world.holders.erase caller }
      else none
  | .turn =>
      match world.jobs with
      | [] => none
      | .wake waiter :: jobs => some { world with jobs := jobs ++ [.resume waiter true] }
      | .resume _ false :: jobs => some { world with jobs }
      | .resume waiter true :: jobs => some { world with
          jobs
          wentOn := world.wentOn ++ [waiter] }

/-- All interleavings of calls and microtasks. -/
def system (Caller : Type u) [DecidableEq Caller] (given : Given) :
    System (World Caller) (Label Caller) where
  start world := world = { semaphore := { max := maxOf given } }
  next := World.next

variable {given : Given} {world after : World Caller} {label : Label Caller}

/-- `inFlight` is an exact count, no permit is free while a waiter is in the queue, and every
waiter is where its arrival puts it. -/
structure World.Sound (max : ℕ∞) (world : World Caller) : Prop where
  limit : world.semaphore.max = max
  counted : world.semaphore.inFlight = world.holders.length
  within : world.semaphore.inFlight ≤ max
  full : world.semaphore.queue ≠ [] → world.semaphore.inFlight = max
  inOrder : world.arrived = world.handed ++ world.semaphore.queue
  onTheWay : world.handed =
    world.wentOn ++ (world.jobs.filterMap Job.resumed ++ world.jobs.filterMap Job.woken)

namespace World.Sound

variable {max : ℕ∞}

theorem acquire {caller : Caller} (sound : world.Sound max)
    (stepped : world.next (.acquire caller) = some after) : after.Sound max := by
  rw [World.next, Semaphore.acquire, sound.limit] at stepped
  by_cases room : (world.semaphore.inFlight : ℕ∞) < max
  · rw [if_pos room] at stepped
    cases stepped
    constructor
    · rfl
    · exact congrArg (· + 1) sound.counted
    · exact Order.add_one_le_of_lt room
    · intro some'
      exact absurd (sound.full some') room.ne
    · exact sound.inOrder
    · simp only [List.filterMap_append, List.filterMap_cons, List.filterMap_nil, Job.resumed,
        Job.woken, List.append_nil]
      exact sound.onTheWay
  · rw [if_neg room] at stepped
    cases stepped
    constructor
    · rfl
    · exact sound.counted
    · exact sound.within
    · intro _
      exact le_antisymm sound.within (not_lt.1 room)
    · rw [sound.inOrder, List.append_assoc]
    · exact sound.onTheWay

theorem release {caller : Caller} (sound : world.Sound max)
    (stepped : world.next (.release caller) = some after) : after.Sound max := by
  rw [World.next] at stepped
  split at stepped
  next holds =>
    have fewer := List.length_erase_of_mem holds
    rw [Semaphore.release] at stepped
    cases queued : world.semaphore.queue with
    | nil =>
        rw [queued] at stepped
        cases stepped
        constructor
        · exact sound.limit
        · rw [fewer, sound.counted]
        · exact le_trans (Nat.cast_le.2 (Nat.sub_le _ _)) sound.within
        · exact fun some' => absurd rfl some'
        · rw [sound.inOrder, queued]
        · exact sound.onTheWay
    | cons waiter queue =>
        rw [queued] at stepped
        cases stepped
        have waits : world.semaphore.queue ≠ [] := queued ▸ List.cons_ne_nil _ _
        constructor
        · exact sound.limit
        · have some' := List.length_pos_of_mem holds
          rw [sound.counted, List.length_cons, fewer]
          omega
        · exact sound.within
        · exact fun _ => sound.full waits
        · rw [sound.inOrder, queued, List.append_assoc, List.singleton_append]
        · simp only [List.filterMap_append, List.filterMap_cons, List.filterMap_nil, Job.resumed,
            Job.woken, List.append_nil]
          rw [sound.onTheWay, List.append_assoc, List.append_assoc]
  next => contradiction

theorem turn (sound : world.Sound max) (stepped : world.next .turn = some after) :
    after.Sound max := by
  have ⟨limit, counted, within, full, inOrder, onTheWay⟩ := sound
  rw [World.next] at stepped
  cases queued : world.jobs with
  | nil =>
      rw [queued] at stepped
      contradiction
  | cons job jobs =>
      rw [queued] at stepped onTheWay
      cases job with
      | wake waiter =>
          cases stepped
          refine ⟨limit, counted, within, full, inOrder, ?_⟩
          simp only [List.filterMap_append, List.filterMap_cons, List.filterMap_nil, Job.resumed,
            Job.woken, List.append_nil] at onTheWay ⊢
          rw [onTheWay, List.append_assoc, List.singleton_append]
      | resume caller waited =>
          cases waited with
          | false =>
              cases stepped
              exact ⟨limit, counted, within, full, inOrder, onTheWay⟩
          | true =>
              cases stepped
              refine ⟨limit, counted, within, full, inOrder, ?_⟩
              rw [onTheWay, List.append_assoc]
              rfl

theorem next (sound : world.Sound max) (stepped : world.next label = some after) :
    after.Sound max := by
  cases label with
  | acquire caller => exact sound.acquire stepped
  | release caller => exact sound.release stepped
  | turn => exact sound.turn stepped

end World.Sound

theorem sound_of_reachable (reached : Reachable (system Caller given) always world) :
    world.Sound (maxOf given) := by
  apply reached.invariant
  · rintro world rfl
    exact ⟨rfl, rfl, zero_le, fun some' => absurd rfl some', rfl, rfl⟩
  · exact fun _ _ _ _ sound _ stepped => sound.next stepped

/-- What the callers rely on. -/
structure World.Fair (max : ℕ∞) (world : World Caller) : Prop where
  atMost : world.holders.length ≤ max
  noneFree : world.semaphore.queue ≠ [] → ¬ (world.holders.length : ℕ∞) < max
  inOrder : world.arrived = world.handed ++ world.semaphore.queue
  wentOnInOrder : List.IsPrefix world.wentOn world.handed

/-- However acquisitions, releases by holders and microtasks interleave, no more than `max`
permits are held, the waiters are handed their permits and go on as they arrived, and none is in
the queue while a permit is free. -/
theorem fair_of_reachable (Caller : Type u) [DecidableEq Caller] (given : Given)
    (world : World Caller) (reached : Reachable (system Caller given) always world) :
    world.Fair (maxOf given) := by
  have sound := sound_of_reachable reached
  constructor
  · exact sound.counted ▸ sound.within
  · intro waits
    rw [← sound.counted, sound.full waits]
    exact lt_irrefl _
  · exact sound.inOrder
  · exact ⟨_, sound.onTheWay.symm⟩

/-- Of two waiters the first is handed the permit that comes back. -/
theorem fair_of_twoWaiters : ∃ world : World Nat, world.holders = [2, 1] ∧
    world.semaphore.queue = [3] ∧ world.wentOn = [2] ∧ world.Fair (maxOf (.finite 2)) := by
  have ran : ((system Nat (.finite 2)).exec always { semaphore := { max := maxOf (.finite 2) } }
      [.acquire 0, .acquire 1, .acquire 2, .acquire 3, .release 0, .turn, .turn, .turn, .turn]).any
      (fun world => decide (world.holders = [2, 1] ∧ world.semaphore.queue = [3] ∧
        world.wentOn = [2])) = true := by decide
  have ⟨world, reached, tested⟩ := Reachable.exists_of_exec (.start rfl) ran
  have ⟨holders, queue, wentOn⟩ := of_decide_eq_true tested
  exact ⟨world, holders, queue, wentOn, fair_of_reachable Nat (.finite 2) world reached⟩

end Semaphore

end TitanRunner
