import Mathlib.Logic.Relation
import Mathlib.Data.Option.Basic

/-!
# Labelled transition systems

A system is a set of start states and a partial step function.  All
nondeterminism sits in the labels, so a concrete run is a list of labels and can
be computed, while properties are proved of every reachable state.

Reachability carries a guard on the state before each step.  The trivial guard
gives the ordinary reachable states; a proper guard gives the states of the runs
whose steps all meet a side condition.
-/

namespace TransitionSystem

universe u v

/-- Start states and a partial, label-driven step function. -/
structure System (State : Type u) (Label : Type v) where
  start : State → Prop
  next : State → Label → Option State

namespace System

variable {State : Type u} {Label : Type v}
variable {system : System State Label} {guard guard' : State → Label → Prop}

/-- States of the runs whose steps all meet `guard`. -/
inductive Reachable (system : System State Label)
    (guard : State → Label → Prop) : State → Prop where
  | start {state : State} : system.start state → Reachable system guard state
  | step {state after : State} {label : Label} :
      Reachable system guard state → guard state label →
      system.next state label = some after → Reachable system guard after

/-- The guard that every step meets. -/
def always : State → Label → Prop := fun _ _ => True

namespace Reachable

/-- The induction rule of a run: what holds at the start and is kept by every
guarded step of a reachable state holds of every reachable state. -/
theorem invariant (inv : State → Prop)
    (atStart : ∀ state, system.start state → inv state)
    (kept : ∀ state label after, Reachable system guard state → inv state →
      guard state label → system.next state label = some after → inv after)
    {state : State} (reachable : Reachable system guard state) : inv state := by
  induction reachable with
  | start started => exact atStart _ started
  | step before guarded stepped ih => exact kept _ _ _ before ih guarded stepped

/-- A weaker guard reaches at least as much. -/
theorem mono (weaker : ∀ state label, guard state label → guard' state label)
    {state : State} (reachable : Reachable system guard state) :
    Reachable system guard' state := by
  induction reachable with
  | start started => exact .start started
  | step _ guarded stepped ih => exact .step ih (weaker _ _ guarded) stepped

theorem toAlways {state : State} (reachable : Reachable system guard state) :
    Reachable system always state :=
  reachable.mono fun _ _ _ => trivial

end Reachable

/-- Run a list of labels, checking the guard before each step. -/
def exec (system : System State Label) (guard : State → Label → Prop)
    [∀ state label, Decidable (guard state label)] :
    State → List Label → Option State
  | state, [] => some state
  | state, label :: rest =>
      if guard state label then
        match system.next state label with
        | some after => exec system guard after rest
        | none => none
      else none

theorem Reachable.of_exec [∀ state label, Decidable (guard state label)]
    {state after : State} {labels : List Label}
    (reachable : Reachable system guard state)
    (ran : system.exec guard state labels = some after) :
    Reachable system guard after := by
  induction labels generalizing state with
  | nil =>
      simp only [exec, Option.some.injEq] at ran
      exact ran ▸ reachable
  | cons label rest ih =>
      simp only [exec] at ran
      split at ran
      next guarded =>
        cases stepped : system.next state label with
        | none => simp [stepped] at ran
        | some middle =>
            simp only [stepped] at ran
            exact ih (reachable.step guarded stepped) ran
      next => simp at ran

/-- A run that is computed, and whose last state passes a test, comes to a reachable state that
passes it. -/
theorem Reachable.exists_of_exec [∀ state label, Decidable (guard state label)]
    {state : State} {labels : List Label} {test : State → Bool}
    (reachable : Reachable system guard state)
    (ran : (system.exec guard state labels).any test = true) :
    ∃ after, Reachable system guard after ∧ test after = true := by
  have ⟨after, executed, tested⟩ := (Option.any_eq_true _ _).1 ran
  exact ⟨after, reachable.of_exec executed, tested⟩

instance (state : State) (label : Label) : Decidable (always state label) :=
  inferInstanceAs (Decidable True)

/-- The runs that go on from a state. -/
def onward (system : System State Label) (state : State) : System State Label :=
  { system with start := (· = state) }

/-- A state that a run comes to from a reachable one is reachable. -/
theorem Reachable.onward {state later : State} (reachable : Reachable system guard state)
    (goes : Reachable (system.onward state) guard later) : Reachable system guard later := by
  induction goes with
  | start same => exact same ▸ reachable
  | step _ guarded stepped ih => exact ih.step guarded stepped

/-- What every run comes to whose steps all meet `guard`: the goal holds, or some step can
be taken and every guarded step leads on to it. -/
inductive Inevitably (system : System State Label) (guard : State → Label → Prop)
    (goal : State → Prop) : State → Prop where
  | here {state : State} : goal state → Inevitably system guard goal state
  | next {state : State} : (∃ label after, system.next state label = some after) →
      (∀ label after, guard state label → system.next state label = some after →
        Inevitably system guard goal after) →
      Inevitably system guard goal state

/-- The rule of a measure: a run reaches the goal if short of it some step can be taken,
and every guarded step keeps the invariant and lowers the measure. -/
theorem Inevitably.of_measure {goal : State → Prop} (inv : State → Prop) (measure : State → Nat)
    (goes : ∀ state, inv state → ¬ goal state → ∃ label after, system.next state label = some after)
    (falls : ∀ state label after, inv state → ¬ goal state → guard state label →
      system.next state label = some after → inv after ∧ measure after < measure state)
    {state : State} (holds : inv state) : Inevitably system guard goal state := by
  induction bound : measure state using Nat.strongRecOn generalizing state with
  | _ size ih =>
      by_cases reached : goal state
      · exact .here reached
      · apply Inevitably.next (goes state holds reached)
        intro label after guarded stepped
        have ⟨kept, less⟩ := falls state label after holds reached guarded stepped
        exact ih (measure after) (bound ▸ less) kept rfl

end System

end TransitionSystem
