import Mathlib.Data.List.TakeWhile
import TitanRunner.Lib.RegexMatch
import TitanRunner.Orchestrator.OutputParser

/-!
# What the repair leaves of a text

`stripTrailingCommas` of `lib/jsonRepair.js` knows nothing of strings: it drops every comma
before a closing bracket.
-/

namespace TitanRunner

namespace OutputParser

open Regex Utf16

def comma : UInt16 := 0x2C

def isBracket (unit : UInt16) : Bool := unit == 0x7D || unit == 0x5D

/-- Behind some blanks a bracket closes. -/
def closes (blank : UInt16 → Bool) (text : Utf16) : Bool := (text.dropWhile blank).head?.any isBracket

/-- The text without each comma behind which a bracket closes. -/
def dropCommas (blank : UInt16 → Bool) : Utf16 → Utf16
  | [] => []
  | unit :: rest =>
      if unit == comma && closes blank rest then dropCommas blank rest
      else unit :: dropCommas blank rest

/-- Some comma is dropped. -/
def hasTrailingComma (blank : UInt16 → Bool) : Utf16 → Bool
  | [] => false
  | unit :: rest => (unit == comma && closes blank rest) || hasTrailingComma blank rest

section Drop

variable {blank : UInt16 → Bool} {unit : UInt16} {rest text : Utf16}

theorem closes_iff : closes blank text = true ↔ ∃ bracket rest, isBracket bracket = true ∧
    text.dropWhile blank = bracket :: rest := by
  rw [closes, Option.any_eq_true]
  constructor
  · intro ⟨bracket, first, closing⟩
    have ⟨rest, dropped⟩ := List.head?_eq_some_iff.1 first
    exact ⟨bracket, rest, closing, dropped⟩
  · intro ⟨bracket, rest, closing, dropped⟩
    exact ⟨bracket, dropped ▸ rfl, closing⟩

theorem dropCommas_cons (stays : (unit == comma && closes blank rest) = false) :
    dropCommas blank (unit :: rest) = unit :: dropCommas blank rest := by
  rw [dropCommas, stays, if_neg Bool.false_ne_true]

theorem dropCommas_cons_of_ne (other : unit ≠ comma) :
    dropCommas blank (unit :: rest) = unit :: dropCommas blank rest := by
  apply dropCommas_cons
  rw [beq_false_of_ne other, Bool.false_and]

theorem dropCommas_append_of_not_mem {before : Utf16} (none' : comma ∉ before) (rest : Utf16) :
    dropCommas blank (before ++ rest) = before ++ dropCommas blank rest := by
  induction before with
  | nil => rfl
  | cons unit before ih =>
      have ⟨other, none''⟩ := not_or.1 (fun inside => none' (List.mem_cons.2 inside))
      rw [List.cons_append, dropCommas_cons_of_ne (Ne.symm other), ih none'']
      rfl

theorem length_dropCommas_le (blank : UInt16 → Bool) (text : Utf16) :
    (dropCommas blank text).length ≤ text.length := by
  induction text with
  | nil => exact le_refl _
  | cons unit rest ih =>
      rw [dropCommas, List.length_cons]
      split
      next => exact Nat.le_succ_of_le ih
      next =>
        rw [List.length_cons]
        exact Nat.succ_le_succ ih

theorem dropCommas_eq_self_iff :
    dropCommas blank text = text ↔ hasTrailingComma blank text = false := by
  induction text with
  | nil => exact iff_of_true rfl rfl
  | cons unit rest ih =>
      rw [dropCommas, hasTrailingComma]
      cases (unit == comma && closes blank rest) with
      | false =>
          rw [if_neg Bool.false_ne_true, Bool.false_or, ← ih]
          exact ⟨fun same => (List.cons.inj same).2, congrArg (unit :: ·)⟩
      | true =>
          rw [if_pos rfl, Bool.true_or]
          apply iff_of_false
          · intro same
            have shorter := length_dropCommas_le blank rest
            rw [same, List.length_cons] at shorter
            omega
          · intro same
            contradiction

end Drop

theorem not_mem_takeWhile_isSpaceUnit (text : Utf16) : comma ∉ text.takeWhile isSpaceUnit := by
  intro inside
  have space := List.mem_takeWhile_imp inside
  contradiction

theorem isSpaceUnit_of_isBracket {unit : UInt16} (closing : isBracket unit = true) :
    isSpaceUnit unit = false := by
  rw [isBracket, Bool.or_eq_true, beq_iff_eq, beq_iff_eq] at closing
  cases closing with
  | inl brace => exact brace ▸ rfl
  | inr bracket => exact bracket ▸ rfl

theorem matchAt_trailingComma (before : Option UInt16) (unit : UInt16) (rest : Utf16) :
    trailingComma.matchAt before (unit :: rest) =
      if unit == comma && closes isSpaceUnit rest then some {
        before := (rest.dropWhile isSpaceUnit).head?
        rest := (rest.dropWhile isSpaceUnit).drop 1
        captures := [rest.takeWhile isSpaceUnit ++ (rest.dropWhile isSpaceUnit).take 1] }
      else none := by
  have unfolded : trailingComma.matchAt before (unit :: rest) =
      if unit == comma then
        match' (star isSpaceUnit) { before := some unit, rest } fun cursor =>
          match' (.oneOf (among "\x7d]")) cursor fun after => some { after with
            captures := after.captures ++ [rest.take (rest.length - after.rest.length)] }
      else none := rfl
  have bracket : ∀ unit, among "\x7d]" unit = isBracket unit := by
    intro unit
    rw [isBracket, ← Bool.or_false (unit == 0x5D)]
    rfl
  rw [unfolded]
  cases unit == comma with
  | false => rfl
  | true =>
      rw [if_pos rfl, Bool.true_and, match'_star]
      · cases after : rest.dropWhile isSpaceUnit with
        | nil =>
            rw [closes, after]
            rfl
        | cons first others =>
            have whole : rest = (rest.takeWhile isSpaceUnit ++ [first]) ++ others := by
              rw [List.append_assoc, List.singleton_append, ← after,
                List.takeWhile_append_dropWhile]
            have used : rest.take (rest.length - others.length) =
                rest.takeWhile isSpaceUnit ++ [first] := by
              conv_lhs => rw [whole]
              rw [List.length_append, Nat.add_sub_cancel, List.take_left]
            rw [closes, after, match', List.head?_cons, Option.any_some]
            simp only [bracket, used]
            split <;> rfl
      · intro before first others space
        rw [match']
        simp only [bracket]
        rw [if_neg]
        intro closing
        rw [isSpaceUnit_of_isBracket closing] at space
        exact Bool.false_ne_true space

/-- Where the commas before a bracket are, and what is left of the text around the first. -/
theorem search_trailingComma (before : Option UInt16) (text : Utf16) :
    match trailingComma.search before text with
    | none => dropCommas isSpaceUnit text = text
    | some (skipped, cursor) => cursor.rest.length < text.length ∧
        dropCommas isSpaceUnit text =
          skipped ++ cursor.captures.headD [] ++ dropCommas isSpaceUnit cursor.rest := by
  induction text generalizing before with
  | nil => rfl
  | cons unit rest ih =>
      rw [search, matchAt_trailingComma, dropCommas]
      cases drops : (unit == comma && closes isSpaceUnit rest) with
      | false =>
          simp only [Bool.false_eq_true, if_false]
          have later := ih (some unit)
          cases found : trailingComma.search (some unit) rest with
          | none =>
              rw [found] at later
              exact congrArg (unit :: ·) later
          | some result =>
              rw [found] at later
              obtain ⟨shorter, same⟩ := later
              exact ⟨Nat.lt_succ_of_lt shorter, congrArg (unit :: ·) same⟩
      | true =>
          rw [Bool.and_eq_true] at drops
          obtain ⟨bracket, others, closing, after⟩ := closes_iff.1 drops.2
          have whole : rest = rest.takeWhile isSpaceUnit ++ bracket :: others := by
            rw [← after, List.takeWhile_append_dropWhile]
          simp only [if_true, after]
          constructor
          · rw [whole, List.length_cons, List.length_append, List.length_cons]
            simp only [List.drop_one, List.tail_cons]
            omega
          · have apart : bracket ≠ comma := by
              intro same
              rw [same] at closing
              contradiction
            conv_lhs => rw [whole]
            rw [dropCommas_append_of_not_mem (not_mem_takeWhile_isSpaceUnit rest),
              dropCommas_cons_of_ne apart]
            simp

/-- The repair drops the commas before a bracket. -/
theorem stripTrailingCommas_eq (text : Utf16) :
    stripTrailingCommas text = dropCommas isSpaceUnit text := by
  have general : ∀ fuel before text, text.length ≤ fuel →
      trailingComma.replaceFrom (fun captures => captures.headD []) fuel before text =
        dropCommas isSpaceUnit text := by
    intro fuel
    induction fuel with
    | zero =>
        intro before text short
        rw [List.length_eq_zero_iff.1 (Nat.le_zero.1 short)]
        rfl
    | succ fuel ih =>
        intro before text short
        have searched := search_trailingComma before text
        rw [replaceFrom]
        cases found : trailingComma.search before text with
        | none =>
            rw [found] at searched
            exact searched.symm
        | some result =>
            rw [found] at searched
            have ⟨shorter, same⟩ := searched
            simp only
            rw [same, ih _ _ (by omega)]
  exact general text.length none text (le_refl _)

end OutputParser

end TitanRunner
