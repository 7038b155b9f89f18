import TitanRunner.Lib.IsoDate
import TitanRunner.Lib.RegexSpans
import TitanRunner.Validate

/-!
# The date-times of the state files

The texts that `Date.prototype.toISOString` gives, as `lib/validate.js` checks them: the format
`date-time` has years of four digits, and a date has more of them.
-/

namespace TitanRunner

namespace Validate

open IsoDate Regex Utf16

/-- The text of a time passes as a `date-time`. -/
def isDateTime (time : Int) : Bool := isoDate.test (ofString (toISOString time))

/-- A row of decimal digits. -/
def IsDigits (width : Nat) (text : Utf16) : Prop :=
  (∀ unit ∈ text, isDigit unit = true) ∧ text.length = width

theorem isDigits_padded (width number : Nat) : IsDigits width ((padded width number).flatMap units) := by
  have one : ∀ digit : Fin 10, ∃ unit, units (Nat.digitChar digit) = [unit] ∧
      isDigit unit = true := by
    intro digit
    refine ⟨(units (Nat.digitChar digit)).headD 0, ?_⟩
    revert digit
    decide
  induction width generalizing number with
  | zero => exact ⟨by simp [padded], rfl⟩
  | succ width ih =>
      have ⟨digits, length⟩ := ih (number / 10)
      obtain ⟨unit, alone, digit⟩ := one ⟨number % 10, Nat.mod_lt _ (by decide)⟩
      have grown : (padded (width + 1) number).flatMap units =
          (padded width (number / 10)).flatMap units ++ [unit] := by
        rw [padded, List.flatMap_append, ← alone]
        simp
      rw [grown]
      refine ⟨?_, by rw [List.length_append, length]; rfl⟩
      intro other inside
      cases List.mem_append.1 inside with
      | inl earlier => exact digits other earlier
      | inr last => exact List.mem_singleton.1 last ▸ digit

theorem spans_digits {width : Nat} {text : Utf16} (digits : IsDigits width text)
    (before next : Option UInt16) : Spans (Regex.exactly isDigit width) before text next :=
  ⟨digits.1, digits.2.ge, decide_eq_true digits.2.le⟩

/-- The text of a time, after its year. -/
def afterYear (month day : Nat) (clock : Int) : List (Regex × Utf16) :=
  let twoDigits := fun number => (Regex.exactly isDigit 2, (padded 2 number).flatMap units)
  let mark := fun string => (Regex.text string, ofString string)
  let ms := clock.toNat
  [mark "-", twoDigits month, mark "-", twoDigits day, mark "T", twoDigits (ms / 3600000), mark ":",
    twoDigits (ms / 60000 % 60), mark ":", twoDigits (ms / 1000 % 60),
    (maybe (seqs [Regex.text ".", .repeat' isDigit 1 (some 3) false]),
      ofString "." ++ (padded 3 (ms % 1000)).flatMap units),
    (alts [Regex.text "Z", seqs [.oneOf (among "+-"), Regex.exactly isDigit 2, Regex.text ":",
      Regex.exactly isDigit 2]], ofString "Z")]

theorem spans_afterYear (month day : Nat) (clock : Int) : ∀ part ∈ afterYear month day clock,
    ∀ before next, Spans part.1 before part.2 next := by
  simp only [afterYear, List.forall_mem_cons, List.not_mem_nil, false_implies, implies_true, and_true]
  refine ⟨spans_text _, spans_digits (isDigits_padded 2 _), spans_text _,
    spans_digits (isDigits_padded 2 _), spans_text _, spans_digits (isDigits_padded 2 _),
    spans_text _, spans_digits (isDigits_padded 2 _), spans_text _,
    spans_digits (isDigits_padded 2 _), ?_, ?_⟩
  · intro before next
    have ⟨digits, length⟩ := isDigits_padded 3 (clock.toNat % 1000)
    refine .inl ⟨_, _, rfl, spans_text "." _ _, ?_⟩
    refine ⟨_, [], (List.append_nil _).symm, ⟨digits, ?_, ?_⟩, rfl⟩
    · omega
    · exact decide_eq_true length.le
  · exact fun before next => .inl (spans_text "Z" before next)

theorem ofString_toISOString (time : Int) : ∃ month day : Nat, ofString (toISOString time) =
    (yearText (yearOf time)).flatMap units ++
      (afterYear month day (time % msPerDay)).flatMap Prod.snd := by
  refine ⟨(civilOfDays (time / msPerDay)).2.1, (civilOfDays (time / msPerDay)).2.2, ?_⟩
  simp [toISOString, ofString, afterYear, clockText, yearOf]

/-- What passes begins with a digit. -/
theorem digit_of_isoDate {text : Utf16} (passed : isoDate.test text = true) :
    ∃ unit rest, text = unit :: rest ∧ isDigit unit = true := by
  obtain ⟨⟨skipped, cursor⟩, found⟩ := Option.isSome_iff_exists.1 passed
  obtain ⟨rest, rfl, matched⟩ := search_eq_some found
  obtain ⟨piece, rfl, -, none', behind, split, ⟨rfl, atStart⟩, year, after, split', ⟨digits, four, -⟩,
    -⟩ := spans_of_matchAt matched
  obtain rfl := nil_of_unitBefore atStart
  cases year with
  | nil => exact absurd four (by decide)
  | cons unit year =>
      refine ⟨unit, year ++ after ++ cursor.rest, ?_, digits unit List.mem_cons_self⟩
      rw [split, split']
      rfl

/-- A time passes exactly when its year has four digits. -/
theorem isDateTime_iff {time : Int} :
    isDateTime time = true ↔ 0 ≤ yearOf time ∧ yearOf time ≤ 9999 := by
  obtain ⟨month, day, text⟩ := ofString_toISOString time
  rw [isDateTime, text]
  by_cases fourDigits : 0 ≤ yearOf time ∧ yearOf time ≤ 9999
  · refine iff_of_true ?_ fourDigits
    rw [yearText, if_pos fourDigits]
    let parts := (Regex.exactly isDigit 4, (padded 4 (yearOf time).toNat).flatMap units) ::
      afterYear month day (time % msPerDay)
    have each : ∀ part ∈ parts, ∀ before next, Spans part.1 before part.2 next :=
      List.forall_mem_cons.2 ⟨spans_digits (isDigits_padded 4 _), spans_afterYear month day _⟩
    have spans : Spans (seqs (parts.map Prod.fst ++ [.stop])) none (parts.flatMap Prod.snd ++ [])
        none := spans_seqs each ⟨[], [], rfl, ⟨rfl, rfl⟩, rfl⟩
    have same : isoDate = seqs (.start :: (parts.map Prod.fst ++ [.stop])) := by
      simp only [isoDate, parts, afterYear, List.map_cons, List.map_nil, List.cons_append,
        List.nil_append]
    have whole : Spans isoDate none (parts.flatMap Prod.snd ++ []) none :=
      same ▸ ⟨[], _, rfl, ⟨rfl, rfl⟩, spans⟩
    have matched := @matchAt_of_spans isoDate none _ [] whole
    rw [List.append_nil, List.append_nil] at matched
    have found := search_isSome [] matched
    rw [List.nil_append] at found
    exact found
  · refine iff_of_false (fun passed => ?_) fourDigits
    obtain ⟨unit, rest, begins, digit⟩ := digit_of_isoDate passed
    have marks : ∃ sign, units (if yearOf time < 0 then '-' else '+') = [sign] ∧
        isDigit sign = false := by
      split
      next => exact ⟨0x2D, by decide, by decide⟩
      next => exact ⟨0x2B, by decide, by decide⟩
    obtain ⟨sign, mark, other⟩ := marks
    rw [yearText, if_neg fourDigits, List.flatMap_cons, mark, List.cons_append,
      List.cons_append] at begins
    obtain rfl := (List.cons.inj begins).1
    rw [other] at digit
    contradiction

end Validate

end TitanRunner
