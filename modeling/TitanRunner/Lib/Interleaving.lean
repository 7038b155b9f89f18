import TitanRunner.Lib.Transition

/-!
# Requests that share a store

Requests run at the same time against one store.  Each goes through its own program, one
statement after the other, and between two of its statements the others may run.  A statement
is atomic.  What the outside answers, when a statement is made and whether it fails are parts
of the event, so a program is a partial function.

The rule is that of rely and guarantee: what a request knows of the store holds when its own
statements establish it, and when no statement of another request breaks it.  Two requests
may be kept apart, as when one of them alone holds a claim.
-/

namespace Interleaving

open TransitionSystem System

universe u v w x

/-- What a request does at an event. -/
structure Program (Shared : Type u) (Local : Type v) (Event : Type w) where
  /-- A request that has not begun. -/
  idle : Local
  step : Shared → Local → Event → Option (Shared × Local)

/-- The store, and where every request is. -/
structure Pool (Id : Type x) (Shared : Type u) (Local : Type v) where
  shared : Shared
  requests : Id → Local

namespace Program

variable {Id : Type x} {Shared : Type u} {Local : Type v} {Event : Type w} [DecidableEq Id]

/-- The pool after one request took an event. -/
def next (program : Program Shared Local Event) (pool : Pool Id Shared Local)
    (label : Id × Event) : Option (Pool Id Shared Local) :=
  (program.step pool.shared (pool.requests label.1) label.2).map fun after =>
    { shared := after.1, requests := Function.update pool.requests label.1 after.2 }

/-- All interleavings from a store; no request has begun. -/
def system (Id : Type x) [DecidableEq Id] (program : Program Shared Local Event)
    (start : Shared → Prop) : System (Pool Id Shared Local) (Id × Event) where
  start pool := start pool.shared ∧ ∀ id, pool.requests id = program.idle
  next := program.next

/-- A guard on the statement that is made. -/
def onStatement (guard : Shared → Local → Event → Prop) :
    Pool Id Shared Local → Id × Event → Prop := fun pool label =>
  guard pool.shared (pool.requests label.1) label.2

instance {guard : Shared → Local → Event → Prop} [∀ shared here event, Decidable
    (guard shared here event)] (pool : Pool Id Shared Local) (label : Id × Event) :
    Decidable (onStatement guard pool label) :=
  inferInstanceAs (Decidable (guard pool.shared (pool.requests label.1) label.2))

variable {program : Program Shared Local Event} {pool after : Pool Id Shared Local}
  {label : Id × Event}

theorem exists_step (stepped : program.next pool label = some after) :
    ∃ shared here, program.step pool.shared (pool.requests label.1) label.2 =
      some (shared, here) ∧ after = ⟨shared, Function.update pool.requests label.1 here⟩ := by
  have ⟨⟨shared, here⟩, took, same⟩ := Option.map_eq_some_iff.1 stepped
  exact ⟨shared, here, took, same.symm⟩

/-- What is known of the store, what every request knows of it, and what keeps two requests
apart. -/
structure Knows (inv : Shared → Prop) (knows : Shared → Local → Prop) (apart : Local → Local → Prop)
    (pool : Pool Id Shared Local) : Prop where
  shared : inv pool.shared
  each : ∀ id, knows pool.shared (pool.requests id)
  two : ∀ id id', id ≠ id' → apart (pool.requests id) (pool.requests id')

/-- A statement keeps what its own request knows, and what the others know. -/
structure Respects (program : Program Shared Local Event) (guard : Shared → Local → Event → Prop)
    (inv : Shared → Prop) (knows : Shared → Local → Prop) (apart : Local → Local → Prop) :
    Prop where
  symm : ∀ {here other}, apart here other → apart other here
  guarantee : ∀ {shared here event shared' here'}, inv shared → knows shared here →
    guard shared here event → program.step shared here event = some (shared', here') →
      inv shared' ∧ knows shared' here'
  rely : ∀ {shared here event shared' here' other}, inv shared → knows shared here →
    knows shared other → apart here other → guard shared here event →
    program.step shared here event = some (shared', here') →
      knows shared' other ∧ apart here' other

variable {guard : Shared → Local → Event → Prop} {inv : Shared → Prop}
  {knows : Shared → Local → Prop} {apart : Local → Local → Prop} {start : Shared → Prop}

/-- Step lemma of the rule. -/
theorem Respects.next (respects : program.Respects guard inv knows apart)
    (known : Knows inv knows apart pool) (guarded : onStatement guard pool label)
    (stepped : program.next pool label = some after) : Knows inv knows apart after := by
  have ⟨shared, here, took, same⟩ := exists_step stepped
  subst same
  have own := respects.guarantee known.shared (known.each label.1) guarded took
  have others : ∀ id, id ≠ label.1 →
      knows shared (pool.requests id) ∧ apart here (pool.requests id) := fun id other =>
    respects.rely known.shared (known.each label.1) (known.each id)
      (known.two label.1 id (Ne.symm other)) guarded took
  constructor
  · exact own.1
  · intro id
    by_cases acting : id = label.1
    · subst acting
      simp only [Function.update_self]
      exact own.2
    · simp only [Function.update_of_ne acting]
      exact (others id acting).1
  · intro id id' different
    by_cases acting : id = label.1
    · subst acting
      simp only [Function.update_self, Function.update_of_ne (Ne.symm different)]
      exact (others id' (Ne.symm different)).2
    · by_cases acting' : id' = label.1
      · subst acting'
        simp only [Function.update_self, Function.update_of_ne acting]
        exact respects.symm (others id acting).2
      · simp only [Function.update_of_ne acting, Function.update_of_ne acting']
        exact known.two id id' different

/-- Run lemma of the rule. -/
theorem Respects.reachable (respects : program.Respects guard inv knows apart)
    (begins : ∀ shared, start shared → inv shared ∧ knows shared program.idle)
    (idle : apart program.idle program.idle)
    (reached : Reachable (program.system Id start) (onStatement guard) pool) :
    Knows inv knows apart pool := by
  apply reached.invariant
  · intro pool started
    have known := begins _ started.1
    exact ⟨known.1, fun id => started.2 id ▸ known.2, fun id id' _ => by
      rw [started.2 id, started.2 id']
      exact idle⟩
  · exact fun _ _ _ _ known guarded stepped => respects.next known guarded stepped

end Program

end Interleaving
