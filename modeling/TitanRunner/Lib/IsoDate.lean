import Mathlib.Data.Int.Basic
import Mathlib.Tactic.ByContra

/-!
# Dates in ISO 8601

The text of a point in time in the form `Date.prototype.toISOString` gives it, over
milliseconds since the epoch and the proleptic Gregorian calendar.
-/

namespace IsoDate

def msPerDay : Int := 86400000

/-- The points in time a date can hold. -/
def isTimeValue (time : Int) : Bool := decide (time.natAbs ≤ 8640000000000000)

/-- Year, month and day of a day counted from 1970-01-01.  Years are counted from March, so
that a leap day is the last of its year. -/
def civilOfDays (days : Int) : Int × Nat × Nat :=
  let shifted := days + 719468
  let dayOfEra := (shifted % 146097).toNat
  let yearOfEra := (dayOfEra - dayOfEra / 1460 + dayOfEra / 36524 - dayOfEra / 146096) / 365
  let dayOfYear := dayOfEra - (365 * yearOfEra + yearOfEra / 4 - yearOfEra / 100)
  let march := (5 * dayOfYear + 2) / 153
  let month := if march < 10 then march + 3 else march - 9
  (shifted / 146097 * 400 + yearOfEra + (if month ≤ 2 then 1 else 0), month,
    dayOfYear - (153 * march + 2) / 5 + 1)

/-- The year a point in time falls in. -/
def yearOf (time : Int) : Int := (civilOfDays (time / msPerDay)).1

/-- The last `width` decimal digits of a number. -/
def padded : Nat → Nat → List Char
  | 0, _ => []
  | width + 1, number => padded width (number / 10) ++ [Nat.digitChar (number % 10)]

/-- Four digits, or a sign and six. -/
def yearText (year : Int) : List Char :=
  if 0 ≤ year ∧ year ≤ 9999 then padded 4 year.toNat
  else (if year < 0 then '-' else '+') :: padded 6 year.natAbs

/-- Hours, minutes, seconds and milliseconds of a part of a day. -/
def clockText (ms : Nat) : List Char :=
  padded 2 (ms / 3600000) ++ ':' :: padded 2 (ms / 60000 % 60) ++ ':' ::
    padded 2 (ms / 1000 % 60) ++ '.' :: padded 3 (ms % 1000) ++ ['Z']

/-- `toISOString`. -/
def toISOString (time : Int) : String :=
  let (year, month, day) := civilOfDays (time / msPerDay)
  String.ofList (yearText year ++ '-' :: padded 2 month ++ '-' :: padded 2 day ++ 'T' ::
    clockText (time % msPerDay).toNat)

section Year

variable {time : Int}

/-- A year, from the cycle of 400 years it lies in and the day of that cycle. -/
theorem yearOf_eq (time : Int) : ∃ (era : Int) (day year march : Nat),
    era = (time / 86400000 + 719468) / 146097 ∧
      (day : Int) = (time / 86400000 + 719468) % 146097 ∧
      year = (day - day / 1460 + day / 36524 - day / 146096) / 365 ∧
      march = (5 * (day - (365 * year + year / 4 - year / 100)) + 2) / 153 ∧
      yearOf time =
        era * 400 + year + if (if march < 10 then march + 3 else march - 9) ≤ 2 then 1 else 0 := by
  have known : 0 ≤ (time / 86400000 + 719468) % 146097 := Int.emod_nonneg _ (by decide)
  exact ⟨_, _, _, _, rfl, Int.toNat_of_nonneg known, rfl, rfl, rfl⟩

/-- The last millisecond of the year 9999. -/
def lastOf9999 : Int := 253402300799999

theorem yearOf_le_iff : yearOf time ≤ 9999 ↔ time ≤ lastOf9999 := by
  obtain ⟨era, day, year, march, isEra, isDay, isYear, isMarch, same⟩ := yearOf_eq time
  have fewYears : year ≤ 399 := by omega
  rw [same, lastOf9999]
  constructor
  · intro early
    by_contra late
    have : 24 ≤ era := by omega
    by_cases last : era = 24
    · -- January and February of 10000 still count to the year that began in March.
      have : 146037 ≤ day := by omega
      obtain rfl : year = 399 := by omega
      have : 10 ≤ march := by omega
      split at early <;> split at * <;> omega
    · split at early <;> omega
  · intro early
    by_cases last : era = 24
    · have : day ≤ 146036 := by omega
      by_cases end' : year = 399
      · subst end'
        have : march < 10 := by omega
        rw [if_pos this, if_neg (by omega)]
        omega
      · split <;> omega
    · split <;> omega

theorem yearOf_nonneg (later : 0 ≤ time) : 0 ≤ yearOf time := by
  obtain ⟨era, day, year, march, isEra, -, -, -, same⟩ := yearOf_eq time
  have : 0 ≤ era := by omega
  rw [same]
  split <;> omega

end Year

example : toISOString 951782399999 = "2000-02-28T23:59:59.999Z" := by decide

end IsoDate
