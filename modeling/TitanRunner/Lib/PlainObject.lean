import TitanRunner.Lib.Inherited
import Mathlib.Logic.Function.Basic

/-!
# Plain objects

Objects as tables: names to values, on a heap, with the prototype that every one of them
inherits from.  Plain access sees what is inherited; the name `__proto__` is an accessor, so
that writing it never makes a member of that name.  Where the name is not used, objects that
are built member by member form trees, and a write changes one branch.
-/

namespace PlainObject

open Utf16

universe u

/-- What a member holds: an object of another kind, which is only stored, or a table. -/
inductive Value (Leaf : Type u) where
  | leaf (leaf : Leaf)
  | table (ref : Nat)
  deriving DecidableEq, Repr

structure Table (Leaf : Type u) where
  own : Utf16 → Option (Value Leaf)
  /-- `[[Prototype]]`; `none` is `null`. -/
  parent : Option (Value Leaf)

structure Heap (Leaf : Type u) where
  tables : Nat → Table Leaf
  /-- The tables from here on are not in use. -/
  next : Nat

/-- `Object.prototype`. -/
def base : Nat := 0

/-- What plain access finds: nothing or a function, a text or a flag, or an object. -/
inductive Found (Leaf : Type u) where
  | nothing
  | plain
  | object (value : Value Leaf)

variable {Leaf : Type u}

/-- `{}`. -/
def Table.empty : Table Leaf where
  own _ := none
  parent := some (.table base)

/-- Only `Object.prototype`. -/
def Heap.initial : Heap Leaf where
  tables ref := if ref = base then { own := fun _ => none, parent := none } else .empty
  next := 1

/-- A new table. -/
def Heap.fresh (heap : Heap Leaf) : Heap Leaf × Nat :=
  ({ heap with next := heap.next + 1 }, heap.next)

section Access

variable (members : Leaf → Utf16 → Bool)

/-- A name looked up along the prototypes. -/
def Heap.find (heap : Heap Leaf) (name : Utf16) : Nat → Value Leaf → Found Leaf
  | 0, _ => .nothing
  | fuel + 1, .leaf leaf => if members leaf name then .plain else heap.find name fuel (.table base)
  | fuel + 1, .table ref =>
      match (heap.tables ref).own name with
      | some value => .object value
      | none =>
          match (heap.tables ref).parent with
          | none => .nothing
          | some parent => heap.find name fuel parent

/-- `table[name]`.  A chain of prototypes has each table once, and at most one leaf. -/
def Heap.get (heap : Heap Leaf) (ref : Nat) (name : Utf16) : Found Leaf :=
  if name = Inherited.proto then
    match (heap.tables ref).parent with
    | none => .nothing
    | some parent => .object parent
  else heap.find members name (heap.next + 2) (.table ref)

end Access

/-- A member of a table. -/
def Heap.put (heap : Heap Leaf) (ref : Nat) (name : Utf16) (value : Value Leaf) : Heap Leaf :=
  { heap with
    tables := Function.update heap.tables ref
      { heap.tables ref with own := Function.update (heap.tables ref).own name (some value) } }

/-- `table[name] = value`; `none` is the exception.  The prototype of `Object.prototype` cannot
be set. -/
def Heap.set (heap : Heap Leaf) (ref : Nat) (name : Utf16) (value : Value Leaf) :
    Option (Heap Leaf) :=
  if name = Inherited.proto then
    if ref = base then none
    else some { heap with
      tables := Function.update heap.tables ref { heap.tables ref with parent := some value } }
  else some (heap.put ref name value)

/-- Members of members, without what is inherited. -/
def Heap.look (heap : Heap Leaf) : Value Leaf → List Utf16 → Option (Value Leaf)
  | value, [] => some value
  | .leaf _, _ :: _ => none
  | .table ref, name :: rest => ((heap.tables ref).own name).bind fun value => heap.look value rest

/-- No table has a member of the accessor's name. -/
def Heap.Proper (heap : Heap Leaf) : Prop :=
  ∀ ref, (heap.tables ref).own Inherited.proto = none

/-- A heap whose prototypes were left alone. -/
structure Heap.Tidy (heap : Heap Leaf) : Prop where
  used : base < heap.next
  bare : ∀ name, (heap.tables base).own name = none
  last : (heap.tables base).parent = none
  parent : ∀ ref, ref ≠ base → (heap.tables ref).parent = some (.table base)
  unused : ∀ ref, heap.next ≤ ref → ∀ name, (heap.tables ref).own name = none
  bound : ∀ ref name child, (heap.tables ref).own name = some (.table child) →
    base < child ∧ child < heap.next

/-- From `ref` every table is reached by one path. -/
def Heap.Single (heap : Heap Leaf) (ref : Nat) : Prop :=
  ∀ path path' child, heap.look (.table ref) path = some (.table child) →
    heap.look (.table ref) path' = some (.table child) → path = path'

/-- What the tables below `ref` keep of a heap, and may change. -/
structure Heap.Grows (before after : Heap Leaf) (ref : Nat) : Prop where
  tidy : after.Tidy
  next : before.next ≤ after.next
  single : after.Single ref
  frame : ∀ other < before.next, (∀ path, before.look (.table ref) path ≠ some (.table other)) →
    after.tables other = before.tables other
  reach : ∀ path other, after.look (.table ref) path = some (.table other) →
    other < before.next → ∃ path', before.look (.table ref) path' = some (.table other)

section Lemmas

variable {heap after : Heap Leaf} {ref child other : Nat} {name : Utf16} {path rest : List Utf16}
  {value : Value Leaf}

@[simp] theorem Heap.look_nil (value : Value Leaf) : heap.look value [] = some value := by
  cases value <;> rfl

@[simp] theorem Heap.look_leaf_cons (leaf : Leaf) : heap.look (.leaf leaf) (name :: rest) = none :=
  rfl

theorem Heap.look_cons : heap.look (.table ref) (name :: rest) =
    ((heap.tables ref).own name).bind fun value => heap.look value rest := rfl

theorem Heap.look_of_own (own : (heap.tables ref).own name = some value) :
    heap.look (.table ref) (name :: rest) = heap.look value rest := by
  rw [Heap.look_cons, own, Option.bind_some]

/-- Where the tables on the way are the same, so is what is found. -/
theorem Heap.look_congr
    (same : ∀ path other, heap.look value path = some (.table other) →
      after.tables other = heap.tables other) (path : List Utf16) :
    after.look value path = heap.look value path := by
  induction path generalizing value with
  | nil => simp
  | cons name rest ih =>
      cases value with
      | leaf => rfl
      | table ref =>
          rw [Heap.look_cons, Heap.look_cons, same [] ref (Heap.look_nil _)]
          cases own : (heap.tables ref).own name with
          | none => rfl
          | some value =>
              apply ih
              intro path other found
              apply same (name :: path)
              rw [Heap.look_of_own own, found]

/-- No path without the accessor's name ends in it. -/
theorem Heap.Proper.look_of_mem (proper : heap.Proper) (inside : Inherited.proto ∈ path) :
    heap.look value path = none := by
  induction path generalizing value with
  | nil => contradiction
  | cons name rest ih =>
      cases value with
      | leaf => rfl
      | table ref =>
          rw [Heap.look_cons]
          by_cases here : name = Inherited.proto
          · rw [here, proper ref, Option.bind_none]
          · have later : Inherited.proto ∈ rest := by
              cases List.mem_cons.1 inside with
              | inl same => exact absurd same.symm here
              | inr later => exact later
            cases (heap.tables ref).own name with
            | none => rfl
            | some value => exact ih later

theorem Heap.Proper.set (proper : heap.Proper) (made : heap.set ref name value = some after) :
    after.Proper := by
  intro other
  rw [Heap.set] at made
  split at made
  next =>
    split at made
    next => contradiction
    next =>
      cases made
      by_cases same : other = ref
      · simp only [same, Function.update_self]
        exact proper ref
      · simp only [Function.update_of_ne same]
        exact proper other
  next named =>
    cases made
    by_cases same : other = ref
    · simp only [Heap.put, same, Function.update_self]
      rw [Function.update_of_ne (Ne.symm named)]
      exact proper ref
    · simp only [Heap.put, Function.update_of_ne same]
      exact proper other

theorem Heap.Proper.fresh (proper : heap.Proper) : heap.fresh.1.Proper := proper

theorem Heap.Tidy.look_lt (tidy : heap.Tidy) (used : ref < heap.next)
    (found : heap.look (.table ref) path = some (.table other)) : other < heap.next := by
  induction path generalizing ref with
  | nil =>
      rw [Heap.look_nil, Option.some.injEq, Value.table.injEq] at found
      exact found ▸ used
  | cons name rest ih =>
      rw [Heap.look_cons] at found
      have ⟨value, own, further⟩ := Option.bind_eq_some_iff.1 found
      cases value with
      | leaf leaf => cases rest <;> simp at further
      | table child => exact ih (tidy.bound ref name child own).2 further

/-- Plain access to a tidy heap sees the own members. -/
theorem Heap.Tidy.get (tidy : heap.Tidy) (members : Leaf → Utf16 → Bool)
    (named : name ≠ Inherited.proto) : heap.get members ref name =
      match (heap.tables ref).own name with
      | some value => .object value
      | none => .nothing := by
  have atBase : ∀ fuel, heap.find members name fuel (.table base) = .nothing := by
    intro fuel
    cases fuel with
    | zero => rfl
    | succ fuel => simp [Heap.find, tidy.bare, tidy.last]
  rw [Heap.get, if_neg named, Heap.find]
  cases (heap.tables ref).own name with
  | some value => rfl
  | none =>
      by_cases here : ref = base
      · simp [here, tidy.last]
      · simp only [tidy.parent ref here]
        exact atBase _

/-- Writing a member again changes nothing. -/
theorem Heap.put_of_own (own : (heap.tables ref).own name = some value) :
    heap.put ref name value = heap := by
  have same : Function.update (heap.tables ref).own name (some value) = (heap.tables ref).own := by
    rw [← own, Function.update_eq_self]
  rw [Heap.put, same, Function.update_eq_self]

theorem Heap.Single.below (single : heap.Single ref)
    (own : (heap.tables ref).own name = some (.table child)) : heap.Single child := by
  intro path path' other found found'
  have same := single (name :: path) (name :: path') other
    (by rw [Heap.look_of_own own, found]) (by rw [Heap.look_of_own own, found'])
  rw [List.cons.injEq] at same
  exact same.2

theorem Heap.Grows.trans {before : Heap Leaf} (left : before.Grows heap ref)
    (right : heap.Grows after ref) : before.Grows after ref where
  tidy := right.tidy
  next := left.next.trans right.next
  single := right.single
  frame other used apart := by
    rw [right.frame other (used.trans_le left.next), left.frame other used apart]
    intro path found
    have ⟨path', found'⟩ := left.reach path other found used
    exact apart path' found'
  reach path other found used := by
    have ⟨path', found'⟩ := right.reach path other found (used.trans_le left.next)
    exact left.reach path' other found' used

/-- A heap in which one branch below `ref` was changed. -/
theorem Heap.Grows.of_branch (tidy : heap.Tidy) (single : heap.Single ref) (used : ref < heap.next)
    (tidy' : after.Tidy) (next : heap.next ≤ after.next)
    (elsewhere : ∀ name' rest, name' ≠ name →
      after.look (.table ref) (name' :: rest) = heap.look (.table ref) (name' :: rest))
    (single' : ∀ rest rest' other, after.look (.table ref) (name :: rest) = some (.table other) →
      after.look (.table ref) (name :: rest') = some (.table other) → rest = rest')
    (reach : ∀ rest other, after.look (.table ref) (name :: rest) = some (.table other) →
      other < heap.next → ∃ rest', heap.look (.table ref) (name :: rest') = some (.table other))
    (frame : ∀ other < heap.next, (∀ path, heap.look (.table ref) path ≠ some (.table other)) →
      after.tables other = heap.tables other) :
    heap.Grows after ref := by
  have here : ∀ {name'} rest other, name' ≠ name →
      after.look (.table ref) (name' :: rest) = some (.table other) →
      heap.look (.table ref) (name' :: rest) = some (.table other) ∧ other < heap.next := by
    intro name' rest other apart found
    rw [elsewhere name' rest apart] at found
    exact ⟨found, tidy.look_lt used found⟩
  -- a table found in the branch is not found elsewhere
  have mixed : ∀ {name'} rest rest' other, name' ≠ name →
      after.look (.table ref) (name :: rest) = some (.table other) →
      after.look (.table ref) (name' :: rest') ≠ some (.table other) := by
    intro name' rest rest' other apart inside outside
    have ⟨found, bound⟩ := here rest' other apart outside
    have ⟨path, found'⟩ := reach rest other inside bound
    have same := single _ _ other found found'
    rw [List.cons.injEq] at same
    exact apart same.1
  have top : ∀ path, path ≠ [] → after.look (.table ref) path ≠ some (.table ref) := by
    intro path more found
    have atRef : heap.look (.table ref) [] = some (.table ref) := Heap.look_nil _
    cases path with
    | nil => contradiction
    | cons name' rest =>
        by_cases same : name' = name
        · subst same
          have ⟨path, found'⟩ := reach rest ref found used
          exact List.cons_ne_nil _ _ (single _ _ ref found' atRef)
        · exact List.cons_ne_nil _ _ (single _ _ ref (here rest ref same found).1 atRef)
  refine ⟨tidy', next, ?_, frame, ?_⟩
  · intro path path' other found found'
    cases path with
    | nil =>
        rw [Heap.look_nil, Option.some.injEq, Value.table.injEq] at found
        subst found
        by_contra more
        exact top path' (Ne.symm more) found'
    | cons first rest =>
        cases path' with
        | nil =>
            rw [Heap.look_nil, Option.some.injEq, Value.table.injEq] at found'
            subst found'
            exact absurd found (top _ (List.cons_ne_nil _ _))
        | cons first' rest' =>
            by_cases same : first = name <;> by_cases same' : first' = name
            · subst same
              subst same'
              rw [single' rest rest' other found found']
            · subst same
              exact absurd found' (mixed rest rest' other same' found)
            · subst same'
              exact absurd found (mixed rest' rest other same found')
            · exact single _ _ other (here rest other same found).1 (here rest' other same' found').1
  · intro path other found bound
    cases path with
    | nil =>
        rw [Heap.look_nil] at found
        exact ⟨[], by rw [Heap.look_nil, found]⟩
    | cons name' rest =>
        by_cases same : name' = name
        · subst same
          have ⟨rest', found'⟩ := reach rest other found bound
          exact ⟨_, found'⟩
        · exact ⟨_, (here rest other same found).1⟩

section Changes

variable (tidy : heap.Tidy) (single : heap.Single ref) (used : ref < heap.next)

include tidy single used

/-- A table below which something changed is not met on the way to another branch. -/
theorem Heap.look_elsewhere {name' : Utf16}
    (frame : ∀ other, (∀ rest, heap.look (.table ref) (name :: rest) ≠ some (.table other)) →
      other < heap.next → other ≠ ref → after.tables other = heap.tables other)
    (atRef : (after.tables ref).own name' = (heap.tables ref).own name') (apart : name' ≠ name)
    (rest : List Utf16) :
    after.look (.table ref) (name' :: rest) = heap.look (.table ref) (name' :: rest) := by
  rw [Heap.look_cons, Heap.look_cons, atRef]
  cases own : (heap.tables ref).own name' with
  | none => rfl
  | some value =>
      apply Heap.look_congr
      intro path other found
      have whole : heap.look (.table ref) (name' :: path) = some (.table other) := by
        rw [Heap.look_of_own own, found]
      apply frame other
      · intro rest inside
        have same := single _ _ other whole inside
        rw [List.cons.injEq] at same
        exact apart same.1
      · exact tidy.look_lt used whole
      · intro same
        subst same
        exact List.cons_ne_nil _ _ (single _ _ other whole (Heap.look_nil _))

/-- What changes below a member of `ref` changes below `ref` only. -/
theorem Heap.Grows.descend (own : (heap.tables ref).own name = some (.table child))
    (grows : heap.Grows after child) :
    heap.Grows after ref ∧ ∀ name' rest, after.look (.table ref) (name' :: rest) =
      if name' = name then after.look (.table child) rest
      else heap.look (.table ref) (name' :: rest) := by
  have below : ∀ {path other}, heap.look (.table child) path = some (.table other) →
      heap.look (.table ref) (name :: path) = some (.table other) := by
    intro path other found
    rw [Heap.look_of_own own, found]
  have away : ∀ path, heap.look (.table child) path ≠ some (.table ref) := by
    intro path found
    exact List.cons_ne_nil _ _ (single _ _ ref (below found) (Heap.look_nil _))
  have atRef : after.tables ref = heap.tables ref := grows.frame ref used away
  have elsewhere : ∀ name' rest, name' ≠ name →
      after.look (.table ref) (name' :: rest) = heap.look (.table ref) (name' :: rest) := by
    intro name' rest apart
    apply Heap.look_elsewhere tidy single used _ (by rw [atRef]) apart
    intro other outside bound _
    apply grows.frame other bound
    intro path found
    exact outside path (below found)
  have inside : ∀ rest, after.look (.table ref) (name :: rest) =
      after.look (.table child) rest := by
    intro rest
    apply Heap.look_of_own
    rw [atRef, own]
  constructor
  · apply Heap.Grows.of_branch tidy single used grows.tidy grows.next elsewhere
    · intro rest rest' other found found'
      rw [inside] at found found'
      exact grows.single rest rest' other found found'
    · intro rest other found bound
      rw [inside] at found
      have ⟨path, found'⟩ := grows.reach rest other found bound
      exact ⟨path, below found'⟩
    · intro other bound outside
      apply grows.frame other bound
      intro path found
      exact outside _ (below found)
  · intro name' rest
    split
    next same => exact same ▸ inside rest
    next apart => exact elsewhere name' rest apart

/-- A member that holds a leaf, or a table not in use before. -/
theorem Heap.Grows.put (top : ref ≠ base) (next : Nat) (longer : heap.next ≤ next)
    (new : ∀ child, value = .table child → heap.next ≤ child ∧ child < next) :
    heap.Grows { heap.put ref name value with next } ref ∧ ∀ name' rest,
      Heap.look { heap.put ref name value with next } (.table ref) (name' :: rest) =
        if name' = name then (if rest = [] then some value else none)
        else heap.look (.table ref) (name' :: rest) := by
  let after : Heap Leaf := { heap.put ref name value with next }
  have atRef : (after.tables ref).own = Function.update (heap.tables ref).own name (some value) := by
    simp [after, Heap.put]
  have others : ∀ other, other ≠ ref → after.tables other = heap.tables other := by
    intro other apart
    simp [after, Heap.put, apart]
  have parents : ∀ other, (after.tables other).parent = (heap.tables other).parent := by
    intro other
    by_cases same : other = ref
    · simp [after, Heap.put, same]
    · rw [others other same]
  have inside : ∀ rest, after.look (.table ref) (name :: rest) =
      if rest = [] then some value else none := by
    intro rest
    rw [Heap.look_of_own (by rw [atRef, Function.update_self])]
    cases rest with
    | nil => simp
    | cons name' rest =>
        cases held : value with
        | leaf => rfl
        | table child =>
            have ⟨fresh, _⟩ := new child held
            have apart : child ≠ ref := by omega
            rw [Heap.look_cons, others child apart, tidy.unused child fresh]
            rfl
  have elsewhere : ∀ name' rest, name' ≠ name →
      after.look (.table ref) (name' :: rest) = heap.look (.table ref) (name' :: rest) := by
    intro name' rest apart
    apply Heap.look_elsewhere tidy single used (fun other _ _ apart => others other apart) _ apart
    rw [atRef, Function.update_of_ne apart]
  have tidy' : after.Tidy := by
    refine ⟨tidy.used.trans_le longer, ?_, ?_, ?_, ?_, ?_⟩
    · rw [others base (Ne.symm top)]
      exact tidy.bare
    · rw [others base (Ne.symm top)]
      exact tidy.last
    · intro other apart
      rw [parents]
      exact tidy.parent other apart
    · intro other fresh
      have apart : other ≠ ref := by
        have fresh' : next ≤ other := fresh
        omega
      rw [others other apart]
      exact tidy.unused other (longer.trans fresh)
    · intro other name' child own
      by_cases same : other = ref
      · rw [same, atRef] at own
        by_cases same' : name' = name
        · rw [same', Function.update_self, Option.some.injEq] at own
          have ⟨fresh, inUse⟩ := new child own
          exact ⟨tidy.used.trans_le fresh, inUse⟩
        · rw [Function.update_of_ne same'] at own
          have ⟨apart, inUse⟩ := tidy.bound ref name' child own
          exact ⟨apart, inUse.trans_le longer⟩
      · rw [others other same] at own
        have ⟨apart, inUse⟩ := tidy.bound other name' child own
        exact ⟨apart, inUse.trans_le longer⟩
  constructor
  · apply Heap.Grows.of_branch tidy single used tidy' longer elsewhere
    · intro rest rest' other found found'
      rw [inside] at found found'
      split at found
      next nil =>
        split at found'
        next nil' => rw [nil, nil']
        next => contradiction
      next => contradiction
    · intro rest other found bound
      rw [inside] at found
      split at found
      next =>
        have fresh := (new other (Option.some.inj found)).1
        omega
      next => contradiction
    · intro other bound outside
      apply others
      intro same
      subst same
      exact outside [] (Heap.look_nil _)
  · intro name' rest
    split
    next same =>
      subst same
      exact inside rest
    next apart => exact elsewhere name' rest apart

end Changes

end Lemmas

end PlainObject
