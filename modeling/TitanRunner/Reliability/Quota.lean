import Mathlib.Logic.Function.Basic
import TitanRunner.Task.Schema

/-!
# The quota ledger

`QuotaLedger` counts the calls that were recorded for a provider, in a minute and a day that
are anchored on the clock.  A count of a window that is over is dropped when the entry is
next looked at, so all that matters of an entry is what `#windows` makes of it: `used`.
-/

namespace TitanRunner

namespace Quota

/-- The chat providers of the catalog in failover order, and the optional gateway. -/
inductive ProviderId where
  | groq | together | openrouter | gemini | huggingface
  | custom1 | custom2 | custom3
  | omniroute
  deriving DecidableEq, Repr

structure Limit where
  perMinute : Nat
  perDay : Nat
  deriving DecidableEq, Repr

/-- `DEFAULT_LIMITS` -/
def defaultLimits : ProviderId → Option Limit
  | .groq => some ⟨25, 12000⟩
  | .together => some ⟨50, 4000⟩
  | .openrouter => some ⟨15, 180⟩
  | .gemini => some ⟨12, 1200⟩
  | .huggingface => some ⟨25, 800⟩
  | .omniroute => some ⟨60, 10000⟩
  | .custom1 | .custom2 | .custom3 => none

/-- `FALLBACK_LIMIT` -/
def fallbackLimit : Limit := ⟨20, 500⟩

/-- A count since the start of a window, in milliseconds. -/
structure Window where
  start : Nat
  count : Nat
  deriving DecidableEq, Repr

structure Entry where
  minute : Window
  day : Window
  tokens : Nat
  last429At : Option Nat
  deriving DecidableEq, Repr

structure Ledger where
  /-- `this.limits`: the defaults, the injected ones and those of the environment. -/
  limits : ProviderId → Option Limit := defaultLimits
  /-- `Math.ceil(perDay * this.reserveFraction)` -/
  reserveOf : Nat → Nat := fun perDay => (perDay * 15 + 99) / 100
  providers : ProviderId → Option Entry := fun _ => none

/-- The two windows of an entry. -/
inductive Span where
  | minute | day
  deriving DecidableEq, Repr

def Span.ms : Span → Nat
  | .minute => 60000
  | .day => 86400000

/-- The window of a span that a time lies in. -/
def Span.windowOf (span : Span) (now : Nat) : Nat := now / span.ms

def Span.startOf (span : Span) (now : Nat) : Nat := span.windowOf now * span.ms

def Limit.per (limit : Limit) : Span → Nat
  | .minute => limit.perMinute
  | .day => limit.perDay

def Entry.window (entry : Entry) : Span → Window
  | .minute => entry.minute
  | .day => entry.day

/-- A window that is over starts again. -/
def Window.at (window : Window) (start : Nat) : Window :=
  if window.start ≠ start then ⟨start, 0⟩ else window

namespace Ledger

def limitFor (ledger : Ledger) (id : ProviderId) : Limit := (ledger.limits id).getD fallbackLimit

/-- The entry that `#windows` returns. -/
def entryAt (ledger : Ledger) (now : Nat) (id : ProviderId) : Entry :=
  let entry := (ledger.providers id).getD
    ⟨⟨Span.startOf .minute now, 0⟩, ⟨Span.startOf .day now, 0⟩, 0, none⟩
  { entry with
    minute := entry.minute.at (Span.startOf .minute now)
    day := entry.day.at (Span.startOf .day now)
    tokens := if entry.day.start ≠ Span.startOf .day now then 0 else entry.tokens }

def put (ledger : Ledger) (id : ProviderId) (entry : Entry) : Ledger :=
  { ledger with providers := Function.update ledger.providers id (some entry) }

/-- `#windows`: the entry is brought up to date in place. -/
def windows (ledger : Ledger) (now : Nat) (id : ProviderId) : Ledger :=
  ledger.put id (ledger.entryAt now id)

end Ledger

def highPriority : Option Priority → Bool
  | some .high | some .urgent => true
  | _ => false

/-- What `canSpend` returns; `reason` is null when the call may be made. -/
structure Verdict where
  reason : Option String
  minuteLeft : Nat
  dayLeft : Nat
  deriving DecidableEq, Repr

def Verdict.ok (verdict : Verdict) : Bool := verdict.reason.isNone

namespace Ledger

def reserve (ledger : Ledger) (id : ProviderId) (priority : Option Priority) : Nat :=
  if highPriority priority then 0 else ledger.reserveOf (ledger.limitFor id).perDay

/-- The verdict of `canSpend`; the ledger is left as `windows` makes it. -/
def canSpend (ledger : Ledger) (now : Nat) (id : ProviderId) (priority : Option Priority) :
    Verdict :=
  let limit := ledger.limitFor id
  let entry := ledger.entryAt now id
  let minuteLeft := limit.perMinute - entry.minute.count
  let dayLeft := limit.perDay - entry.day.count
  if minuteLeft ≤ 0 then ⟨some "per-minute quota spent", minuteLeft, dayLeft⟩
  else if dayLeft ≤ ledger.reserve id priority then
    ⟨some (if highPriority priority then "daily quota spent"
      else "daily quota down to the high-priority reserve"), minuteLeft, dayLeft⟩
  else ⟨none, minuteLeft, dayLeft⟩

def record (ledger : Ledger) (now : Nat) (id : ProviderId) (tokens status : Option Nat) : Ledger :=
  let entry := ledger.entryAt now id
  ledger.put id
    { minute := { entry.minute with count := entry.minute.count + 1 }
      day := { entry.day with count := entry.day.count + 1 }
      tokens := entry.tokens + tokens.getD 0
      last429At := if status = some 429 then some now else entry.last429At }

/-- The calls that are on record for a provider in the window of a time. -/
def used (ledger : Ledger) (span : Span) (now : Nat) (id : ProviderId) : Nat :=
  ((ledger.entryAt now id).window span).count

variable {ledger : Ledger} {span : Span} {now later : Nat} {id other : ProviderId}

theorem window_entryAt : (ledger.entryAt now id).window span =
    (((ledger.providers id).getD
      ⟨⟨Span.startOf .minute now, 0⟩, ⟨Span.startOf .day now, 0⟩, 0, none⟩).window span).at
      (span.startOf now) := by
  cases span <;> rfl

/-- The entry that was brought up to date is of the current window. -/
theorem start_entryAt : ((ledger.entryAt now id).window span).start = span.startOf now := by
  rw [window_entryAt, Window.at]
  split
  next => rfl
  next same => exact not_not.1 same

theorem at_of_start {window : Window} {start : Nat} (same : window.start = start) :
    window.at start = window := by
  simp [Window.at, same]

/-- What an entry that was stored counts as. -/
theorem used_put (entry : Entry) (current : (entry.window span).start = span.startOf now) :
    (ledger.put id entry).used span now other =
      if other = id then (entry.window span).count else ledger.used span now other := by
  simp only [used, window_entryAt, put, Function.update_apply]
  split
  next => rw [Option.getD_some, at_of_start current]
  next => rfl

/-- Looking at an entry changes no count. -/
@[simp] theorem used_windows :
    (ledger.windows now id).used span now other = ledger.used span now other := by
  rw [windows, used_put _ start_entryAt]
  split
  next same => rw [same, used]
  next => rfl

/-- A record counts one call more, in both windows. -/
theorem used_record (tokens status : Option Nat) :
    (ledger.record now id tokens status).used span now other =
      ledger.used span now other + if other = id then 1 else 0 := by
  rw [record, used_put]
  · split
    next same => subst same; cases span <;> rfl
    next => rfl
  · have start (span : Span) : ((ledger.entryAt now id).window span).start = span.startOf now :=
      start_entryAt
    cases span
    · exact start .minute
    · exact start .day

/-- A count stands as long as its window. -/
theorem used_congr (same : span.windowOf now = span.windowOf later) :
    ledger.used span now id = ledger.used span later id := by
  have start : span.startOf now = span.startOf later := by simp only [Span.startOf, same]
  simp only [used, window_entryAt, start]
  cases ledger.providers id with
  | none =>
      cases span with
      | minute | day => simp only [Option.getD_none, Entry.window, start]
  | some entry => simp only [Option.getD_some]

/-- A call that may be made finds its windows short of the limit and of the reserve. -/
theorem used_of_canSpend {priority : Option Priority}
    (ok : (ledger.canSpend now id priority).ok = true) :
    (∀ span, ledger.used span now id < (ledger.limitFor id).per span) ∧
      ledger.used .day now id + ledger.reserve id priority < (ledger.limitFor id).perDay := by
  simp only [canSpend] at ok
  split at ok
  · contradiction
  · split at ok
    · contradiction
    · next minuteFree dayFree =>
        have minute : ledger.used .minute now id < (ledger.limitFor id).perMinute := by
          simp only [used, Entry.window]; omega
        have day : ledger.used .day now id + ledger.reserve id priority <
            (ledger.limitFor id).perDay := by
          simp only [used, Entry.window]; omega
        constructor
        · intro span
          cases span with
          | minute => exact minute
          | day => exact Nat.lt_of_le_of_lt (Nat.le_add_right _ _) day
        · exact day

end Ledger

end Quota

end TitanRunner
