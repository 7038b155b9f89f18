import Mathlib.Data.List.TakeWhile
import TitanRunner.Lib.JsonText

/-!
# Natural numbers in JSON

The decimal text of a natural number is a number of JSON, and stands for it.
-/

namespace Json

open Utf16

/-- A digit below ten. -/
def digitUnit (digit : Nat) : UInt16 := UInt16.ofNat (0x30 + digit)

theorem units_digitChar {digit : Nat} (small : digit < 10) :
    Utf16.units digit.digitChar = [digitUnit digit] := by
  have every : ∀ digit : Fin 10, Utf16.units (Nat.digitChar digit) = [digitUnit digit] := by decide
  exact every ⟨digit, small⟩

theorem ofString_ofList (chars : List Char) : ofString (String.ofList chars) = chars.flatMap units := by
  rw [ofString, String.toList_ofList]

/-- The last digit stands behind those of the tenth. -/
theorem ofNat_eq (number : Nat) : ofNat number =
    if number < 10 then [digitUnit number]
    else ofNat (number / 10) ++ [digitUnit (number % 10)] := by
  have text : ∀ number : Nat, ofNat number = (Nat.toDigits 10 number).flatMap units := by
    intro number
    rw [ofNat, Nat.toString_eq_ofList_toDigits, ofString_ofList]
  rw [text, text, Nat.toDigits_eq_if (by decide)]
  split
  next small => rw [List.flatMap_singleton, units_digitChar small]
  next =>
    rw [List.flatMap_append, List.flatMap_singleton, units_digitChar (Nat.mod_lt _ (by decide))]

/-- What holds of the digits holds of the texts that are made of them. -/
theorem ofNat_induction {motive : Nat → Utf16 → Prop}
    (digit : ∀ digit, digit < 10 → motive digit [digitUnit digit])
    (more : ∀ number text, 0 < number → motive number text → ∀ digit, digit < 10 →
      motive (number * 10 + digit) (text ++ [digitUnit digit])) (number : Nat) :
    motive number (ofNat number) := by
  induction number using Nat.strongRecOn with
  | _ number ih =>
      rw [ofNat_eq]
      split
      next small => exact digit number small
      next large =>
        have less : number / 10 < number := by omega
        have grown := more _ _ (by omega) (ih _ less) (number % 10) (Nat.mod_lt _ (by decide))
        have whole : number / 10 * 10 + number % 10 = number := by omega
        rwa [whole] at grown

theorem digit_cases {digit : Nat} (small : digit < 10) :
    isDigit (digitUnit digit) = true ∧ isExponent (digitUnit digit) = false ∧
      (digitUnit digit != 0x2E) = true ∧ (digitUnit digit == 0x2D) = false ∧
      (digitUnit digit - 0x30).toNat = digit ∧
      Phase.start (digitUnit digit) = some (if digit = 0 then .zero else .integer) := by
  have every : ∀ digit : Fin 10, isDigit (digitUnit digit) = true ∧
      isExponent (digitUnit digit) = false ∧ (digitUnit digit != 0x2E) = true ∧
      (digitUnit digit == 0x2D) = false ∧ (digitUnit digit - 0x30).toNat = digit ∧
      Phase.start (digitUnit digit) = some (if (digit : Nat) = 0 then .zero else .integer) := by
    decide
  exact every ⟨digit, small⟩

theorem Phase.run_append (phase : Phase) (first second : Utf16) :
    phase.run (first ++ second) = (phase.run first).bind fun phase => phase.run second := by
  induction first generalizing phase with
  | nil => rfl
  | cons unit rest ih =>
      rw [List.cons_append, Phase.run, Phase.run, Option.bind_assoc]
      exact Option.bind_congr fun _ _ => ih _

/-- The text begins with its only zero, or with another digit. -/
theorem ofNat_starts (number : Nat) : ∃ unit rest, ofNat number = unit :: rest ∧
    (unit == 0x2D) = false ∧ Phase.start unit = some (if number = 0 then .zero else .integer) ∧
      (if number = 0 then rest = [] else Phase.run .integer rest = some .integer) := by
  apply ofNat_induction
    (motive := fun number text => ∃ unit rest, text = unit :: rest ∧
      (unit == 0x2D) = false ∧ Phase.start unit = some (if number = 0 then .zero else .integer) ∧
        (if number = 0 then rest = [] else Phase.run .integer rest = some .integer))
  · intro digit small
    have ⟨_, _, _, minus, _, started⟩ := digit_cases small
    exists digitUnit digit, []
    constructor
    · rfl
    constructor
    · exact minus
    constructor
    · exact started
    · split
      next => rfl
      next => rfl
  · intro number text positive before digit small
    have ⟨unit, rest, same, minus, started, ran⟩ := before
    have ⟨isDigit', _⟩ := digit_cases small
    have larger : number * 10 + digit ≠ 0 := by omega
    rw [if_neg (Nat.ne_of_gt positive)] at started ran
    exists unit, rest ++ [digitUnit digit]
    rw [if_neg larger, if_neg larger]
    constructor
    · rw [same]
      rfl
    constructor
    · exact minus
    constructor
    · exact started
    · rw [Phase.run_append, ran, Option.bind_some, Phase.run, Phase.next, isDigit', if_pos rfl]
      rfl

theorem isNumber_ofNat (number : Nat) : isNumber (ofNat number) = true := by
  have ⟨unit, rest, same, _, started, ran⟩ := ofNat_starts number
  rw [same, isNumber, started, Option.bind_some]
  split at ran
  next zero =>
    rw [ran, if_pos zero]
    rfl
  next other =>
    rw [if_neg other, ran]
    rfl

theorem ofNat_digits (number : Nat) : (∀ unit ∈ ofNat number, isExponent unit = false ∧
    (unit != 0x2E) = true) ∧ natOf (ofNat number) = number := by
  apply ofNat_induction
    (motive := fun number text => (∀ unit ∈ text, isExponent unit = false ∧ (unit != 0x2E) = true) ∧
      natOf text = number)
  · intro digit small
    have ⟨_, exponent, point, _, value, _⟩ := digit_cases small
    constructor
    · exact List.forall_mem_singleton.2 ⟨exponent, point⟩
    · rw [natOf, List.foldl_cons, List.foldl_nil, value]
      omega
  · intro number text _ before digit small
    have ⟨_, exponent, point, _, value, _⟩ := digit_cases small
    constructor
    · intro unit inside
      cases List.mem_append.1 inside with
      | inl earlier => exact before.1 unit earlier
      | inr last =>
          rw [List.mem_singleton.1 last]
          exact ⟨exponent, point⟩
    · rw [natOf, List.foldl_append, ← natOf, before.2, List.foldl_cons, List.foldl_nil, value]

theorem ofNat_injective {number other : Nat} (same : ofNat number = ofNat other) :
    number = other := by
  rw [← (ofNat_digits number).2, same, (ofNat_digits other).2]

theorem isDigit_of_mem_ofNat {number : Nat} {unit : UInt16} (inside : unit ∈ ofNat number) :
    isDigit unit = true := by
  apply ofNat_induction (motive := fun _ text => ∀ unit ∈ text, isDigit unit = true) _ _ number
    unit inside
  · intro digit small
    exact List.forall_mem_singleton.2 (digit_cases small).1
  · intro number text _ before digit small unit inside
    cases List.mem_append.1 inside with
    | inl earlier => exact before unit earlier
    | inr last =>
        rw [List.mem_singleton.1 last]
        exact (digit_cases small).1

theorem decimal_ofNat (number : Nat) :
    decimal (ofNat number) = { negative := false, digits := number, power := 0 } := by
  have ⟨unit, rest, same, minus, _⟩ := ofNat_starts number
  have ⟨plain, value⟩ := ofNat_digits number
  have positive : ((ofNat number).head? == some 0x2D) = false := by
    rw [same]
    exact minus
  have noExponent : ∀ unit ∈ ofNat number, (!isExponent unit) = true := by
    intro unit inside
    rw [(plain unit inside).1]
    rfl
  have noPoint : ∀ unit ∈ ofNat number, (unit != 0x2E) = true := fun unit inside =>
    (plain unit inside).2
  rw [decimal]
  simp only [positive, Bool.false_eq_true, if_false, List.takeWhile_eq_self_iff.2 noExponent,
    List.dropWhile_eq_nil_iff.2 noExponent, List.takeWhile_eq_self_iff.2 noPoint,
    List.dropWhile_eq_nil_iff.2 noPoint, List.drop_nil, List.append_nil, value, List.length_nil]
  rfl

/-- The text stands for the number. -/
theorem integer?_ofNat (number : Nat) : integer? (.number (ofNat number)) = some (number : Int) := by
  rw [integer?, decimal_ofNat]
  simp [Decimal.integer?, Decimal.signed]

end Json
