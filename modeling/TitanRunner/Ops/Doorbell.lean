import TitanRunner.Lib.Inherited
import TitanRunner.Lib.IsoDate

/-!
# The doorbell

`ops/doorbell.js`: each of the two timed jobs has two crons, one for either offset of Chicago, and
`planRun` lets a run go on by the hour it is in Chicago when the run happens to start.
-/

namespace TitanRunner

namespace Doorbell

open Utf16
open IsoDate (msPerDay civilOfDays)

def hourMs : Int := 3600000

/-! ## Chicago -/

/-- Days since 1970-01-01, which was a Thursday; Sunday is 0. -/
def dayOfWeek (day : Int) : Int := (day + 4) % 7

/-- Summer time at a date and a time of day by the clock of Chicago without it: from two o'clock of
the second Sunday of March to one o'clock of the first Sunday of November. -/
def summerAt (day time : Int) : Bool :=
  let (_, month, dayOfMonth) := civilOfDays day
  let lastSunday := dayOfMonth - dayOfWeek day
  if month = 3 then decide (8 ≤ lastSunday ∧ ¬ (dayOfMonth = lastSunday ∧ lastSunday ≤ 14 ∧
    time < 2 * hourMs))
  else if month = 11 then decide (lastSunday < 1 ∨ dayOfMonth = lastSunday ∧ lastSunday ≤ 7 ∧
    time < hourMs)
  else decide (3 < month ∧ month < 11)

/-- The clock of Chicago: five hours behind in summer time, six otherwise. -/
def chicagoTime (now : Int) : Int :=
  let standard := now - 6 * hourMs
  if summerAt (standard / msPerDay) (standard % msPerDay) then standard + hourMs else standard

/-- `chicagoParts`: the weekday, from Monday as 1 to Sunday as 7, and the hour. -/
def chicagoParts (now : Int) : Int × Int :=
  ((chicagoTime now / msPerDay + 3) % 7 + 1, chicagoTime now % msPerDay / hourMs)

/-! ## Which job to ring -/

inductive Job where
  | digest | weeklyReview | sweep
  deriving DecidableEq, Repr

def Job.name : Job → Utf16
  | .digest => ofString "digest"
  | .weeklyReview => ofString "weekly-review"
  | .sweep => ofString "sweep"

/-- `JOBS` -/
def jobs : List Job := [.digest, .weeklyReview, .sweep]

/-- What the table of crons holds under a name: a job, or what every object inherits. -/
inductive Scheduled where
  | job (job : Job)
  | inherited (name : Utf16)
  deriving DecidableEq, Repr

/-- `CRONS` -/
def crons : List (Utf16 × Job) :=
  [(ofString "*/15 * * * *", .sweep), (ofString "30 11 * * *", .digest),
    (ofString "30 12 * * *", .digest), (ofString "0 23 * * 0", .weeklyReview),
    (ofString "0 0 * * 1", .weeklyReview)]

/-- `CRONS[name]` -/
def lookup (name : Utf16) : Option Scheduled :=
  match crons.find? fun cron => cron.1 = name with
  | some cron => some (.job cron.2)
  | none => if Inherited.isInherited name then some (.inherited name) else none

structure Plan where
  job : Option Scheduled
  proceed : Bool
  reason : Utf16
  deriving DecidableEq, Repr

def ofInt (number : Int) : Utf16 := ofString (toString number)

/-- `planRun` -/
def planRun (job schedule : Option Utf16) (now : Int) : Plan :=
  match job.filter fun job => !job.isEmpty with
  | some job =>
      match jobs.find? fun known => known.name = job with
      | none => ⟨none, false, ofString "\"" ++ job.take 30 ++ ofString "\" is not a doorbell job"⟩
      | some job => ⟨some (.job job), true, ofString "a manual run"⟩
  | none =>
      match lookup (Utf16.trim (schedule.getD [])) with
      | none => ⟨none, false, ofString "the schedule is not one of the doorbell crons"⟩
      | some scheduled =>
          let (day, hour) := chicagoParts now
          if scheduled = .job .digest ∧ hour ≠ 6 then
            ⟨some scheduled, false, ofString "it is hour " ++ ofInt hour ++
              ofString " in Chicago, not 06. This cron is the other one of the pair"⟩
          else if scheduled = .job .weeklyReview ∧ ¬ (day = 7 ∧ hour = 18) then
            ⟨some scheduled, false, ofString "it is day " ++ ofInt day ++ ofString " hour " ++
              ofInt hour ++
              ofString " in Chicago, not Sunday 18. This cron is the other one of the pair"⟩
          else ⟨some scheduled, true, ofString "on time"⟩

/-! ## The paired runs -/

/-- How long after its cron a run starts: less than an hour. -/
structure Delay where
  ms : Int
  started : 0 ≤ ms
  short : ms < hourMs

/-- A run of a cron at a time goes on, with the job. -/
def Passes (job : Job) (cron : String) (now : Int) : Prop :=
  (planRun none (some (ofString cron)) now).proceed = true ∧
    (planRun none (some (ofString cron)) now).job = some (.job job)

/-- Exactly one of two runs. -/
def OneOf (first second : Prop) : Prop := first ∧ ¬ second ∨ ¬ first ∧ second

/-- The digest is rung once on a day of Chicago: its crons fire at 11:30 and at 12:30. -/
def DigestOnce (day : Int) (first second : Delay) : Prop :=
  OneOf (Passes .digest "30 11 * * *" (day * msPerDay + 11 * hourMs + hourMs / 2 + first.ms))
    (Passes .digest "30 12 * * *" (day * msPerDay + 12 * hourMs + hourMs / 2 + second.ms))

/-- The weekly review is rung once on a Sunday of Chicago: its crons fire at 23:00, and at 00:00 on
Monday. -/
def WeeklyOnce (sunday : Int) (first second : Delay) : Prop :=
  OneOf (Passes .weeklyReview "0 23 * * 0" (sunday * msPerDay + 23 * hourMs + first.ms))
    (Passes .weeklyReview "0 0 * * 1" ((sunday + 1) * msPerDay + second.ms))

/-- Summer time, on a day as a whole: what holds after the change, if there is one. -/
def summerDay (day : Int) : Bool := summerAt day (2 * hourMs)

theorem summerAt_eq {day time : Int} (changed : 2 * hourMs ≤ time) :
    summerAt day time = summerDay day := by
  have early : ¬ time < 2 * hourMs := by omega
  have early' : ¬ time < hourMs := by simp only [hourMs] at *; omega
  have two : ¬ 2 * hourMs < 2 * hourMs := by decide
  have two' : ¬ 2 * hourMs < hourMs := by decide
  simp only [summerDay, summerAt, early, early', two, two', and_false]

/-- The clock of Chicago from two o'clock on, by the clock that has no summer time. -/
theorem chicagoTime_eq {day time : Int} (changed : 2 * hourMs ≤ time) (within : time < msPerDay) :
    chicagoTime (day * msPerDay + 6 * hourMs + time) =
      day * msPerDay + time + if summerDay day then hourMs else 0 := by
  have isDay : (day * msPerDay + 6 * hourMs + time - 6 * hourMs) / msPerDay = day := by
    simp only [msPerDay, hourMs] at *
    omega
  have isTime : (day * msPerDay + 6 * hourMs + time - 6 * hourMs) % msPerDay = time := by
    simp only [msPerDay, hourMs] at *
    omega
  simp only [chicagoTime, isDay, isTime, summerAt_eq changed]
  split <;> omega

theorem chicagoParts_eq {day time : Int} (changed : 2 * hourMs ≤ time)
    (early : time < 23 * hourMs) :
    chicagoParts (day * msPerDay + 6 * hourMs + time) =
      ((day + 3) % 7 + 1, (time + if summerDay day then hourMs else 0) / hourMs) := by
  have within : time < msPerDay := by simp only [msPerDay, hourMs] at *; omega
  rw [chicagoParts, chicagoTime_eq changed within]
  have isDay : (day * msPerDay + time + if summerDay day = true then hourMs else 0) / msPerDay =
      day := by
    simp only [msPerDay, hourMs] at *
    split <;> omega
  have isTime : (day * msPerDay + time + if summerDay day = true then hourMs else 0) % msPerDay =
      time + if summerDay day = true then hourMs else 0 := by
    simp only [msPerDay, hourMs] at *
    split <;> omega
  rw [isDay, isTime]

theorem passes_digest_iff {cron : String} (known : lookup (Utf16.trim (ofString cron)) =
    some (.job .digest)) (now : Int) : Passes .digest cron now ↔ (chicagoParts now).2 = 6 := by
  by_cases right : (chicagoParts now).2 = 6
  · simp [Passes, planRun, known, right]
  · simp [Passes, planRun, known, right]

theorem passes_weekly_iff {cron : String} (known : lookup (Utf16.trim (ofString cron)) =
    some (.job .weeklyReview)) (now : Int) :
    Passes .weeklyReview cron now ↔ (chicagoParts now).1 = 7 ∧ (chicagoParts now).2 = 18 := by
  by_cases right : (chicagoParts now).1 = 7 ∧ (chicagoParts now).2 = 18
  · simp [Passes, planRun, known, right]
  · simp [Passes, planRun, known, right]

/-- When the digest is rung once: in summer the first run has to start within half an hour, in
winter the two runs have to start on the same side of it. -/
def Prompt (day : Int) (first second : Delay) : Prop :=
  if summerDay day then first.ms < hourMs / 2
  else (first.ms < hourMs / 2 ↔ second.ms < hourMs / 2)

theorem digestOnce_iff (day : Int) (first second : Delay) :
    DigestOnce day first second ↔ Prompt day first second := by
  have start := first.started
  have short := first.short
  have start' := second.started
  have short' := second.short
  have early := @chicagoParts_eq day (5 * hourMs + hourMs / 2 + first.ms)
    (by simp only [hourMs] at *; omega) (by simp only [hourMs] at *; omega)
  have late := @chicagoParts_eq day (6 * hourMs + hourMs / 2 + second.ms)
    (by simp only [hourMs] at *; omega) (by simp only [hourMs] at *; omega)
  have isEarly : day * msPerDay + 11 * hourMs + hourMs / 2 + first.ms =
      day * msPerDay + 6 * hourMs + (5 * hourMs + hourMs / 2 + first.ms) := by omega
  have isLate : day * msPerDay + 12 * hourMs + hourMs / 2 + second.ms =
      day * msPerDay + 6 * hourMs + (6 * hourMs + hourMs / 2 + second.ms) := by omega
  rw [DigestOnce, passes_digest_iff (by decide), passes_digest_iff (by decide),
    isEarly, isLate, early, late, OneOf, Prompt]
  simp only [hourMs] at *
  cases summerDay day
  · simp only [Bool.false_eq_true, if_false]
    omega
  · simp only [if_true]
    omega

/-- The weekly review is rung once on every Sunday. -/
theorem weeklyOnce {sunday : Int} (isSunday : dayOfWeek sunday = 0) (first second : Delay) :
    WeeklyOnce sunday first second := by
  have start := first.started
  have short := first.short
  have start' := second.started
  have short' := second.short
  rw [dayOfWeek] at isSunday
  have early := @chicagoParts_eq sunday (17 * hourMs + first.ms)
    (by simp only [hourMs] at *; omega) (by simp only [hourMs] at *; omega)
  have late := @chicagoParts_eq sunday (18 * hourMs + second.ms)
    (by simp only [hourMs] at *; omega) (by simp only [hourMs] at *; omega)
  have isEarly : sunday * msPerDay + 23 * hourMs + first.ms =
      sunday * msPerDay + 6 * hourMs + (17 * hourMs + first.ms) := by omega
  have isLate : (sunday + 1) * msPerDay + second.ms =
      sunday * msPerDay + 6 * hourMs + (18 * hourMs + second.ms) := by
    simp only [msPerDay, hourMs]
    omega
  rw [WeeklyOnce, passes_weekly_iff (by decide), passes_weekly_iff (by decide),
    isEarly, isLate, early, late, OneOf]
  simp only [hourMs] at *
  cases summerDay sunday
  · simp only [Bool.false_eq_true, if_false]
    omega
  · simp only [if_true]
    omega

/-- Both jobs are rung once exactly when the runs of the digest start promptly. -/
theorem rungOnce_iff (day : Int) (first second first' second' : Delay) :
    DigestOnce day first second ∧ (dayOfWeek day = 0 → WeeklyOnce day first' second') ↔
      Prompt day first second := by
  rw [digestOnce_iff, and_iff_left]
  exact fun isSunday => weeklyOnce isSunday first' second'

/-- On 2026-07-15 the first run starts forty minutes late, and the digest is not rung at all. -/
theorem not_digestOnce_late : summerDay 20649 = true ∧
    ¬ DigestOnce 20649 ⟨2400000, by decide, by decide⟩ ⟨0, by decide, by decide⟩ := by
  rw [digestOnce_iff]
  refine ⟨by decide, ?_⟩
  have summer : summerDay 20649 = true := by decide
  rw [Prompt, if_pos summer]
  decide

end Doorbell

end TitanRunner
