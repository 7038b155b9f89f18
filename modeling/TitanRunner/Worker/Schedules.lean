import TitanRunner.Lib.Interleaving

/-!
# Schedules

One row of the table `schedules` and the requests of `schedules.js` that run on it in any
interleaving: ticks, runs by hand and edits.  A tick reads a due row, moves `next_run_at`
forward and then queues the task, in separate statements.
-/

namespace TitanRunner

namespace Schedules

open TransitionSystem System Interleaving

/-! ## Run times -/

/-- What `parseCron` makes of an expression. -/
structure Cron where
  minute : List Nat
  hour : List Nat
  dom : List Nat
  month : List Nat
  dow : List Nat
  domWild : Bool
  dowWild : Bool
  deriving DecidableEq, Repr

/-- `zonedParts` -/
structure Parts where
  minute : Nat
  hour : Nat
  dom : Nat
  month : Nat
  dow : Nat

/-- What a minute is in each valid time zone. -/
abbrev Zones := String → Option (Nat → Parts)

def Cron.includes (cron : Cron) (parts : Parts) : Bool :=
  cron.minute.contains parts.minute && cron.hour.contains parts.hour &&
    cron.month.contains parts.month &&
    let domMatch := cron.dom.contains parts.dom
    let dowMatch := cron.dow.contains parts.dow
    if cron.domWild && cron.dowWild then true
    else if cron.domWild then dowMatch
    else if cron.dowWild then domMatch
    else domMatch || dowMatch

inductive Kind where
  | task | dailyBrief
  deriving DecidableEq, Repr

/-- A row of `schedules`.  The expression is kept parsed, and `next_run_at`, which is a whole
minute, as the number of that minute. -/
structure Row where
  cron : Option Cron
  tz : String
  brief : String
  taskType : String
  kind : Kind
  enabled : Bool
  lastRunAt : Option Nat
  nextRunAt : Option Nat
  deriving DecidableEq

/-- The minute of a time in milliseconds. -/
def minuteOf (now : Nat) : Nat := now / 60000

/-- The expression of a row runs in this minute. -/
def occurs (zones : Zones) (row : Row) (minute : Nat) : Bool :=
  match row.cron, zones (if row.tz = "" then "America/Chicago" else row.tz) with
  | some cron, some parts => cron.includes (parts minute)
  | _, _ => false

/-- The first minute that is met within so many steps. -/
def firstFrom (met : Nat → Bool) : Nat → Nat → Option Nat
  | 0, _ => none
  | steps + 1, minute => if met minute then some minute else firstFrom met steps (minute + 1)

/-- `nextCronRuns(row.cron, row.tz, now, 1)[0]`: the search ends after a year. -/
def nextRun (zones : Zones) (row : Row) (now : Nat) : Option Nat :=
  firstFrom (occurs zones row) 525600 (minuteOf now + 1)

theorem le_of_firstFrom {met : Nat → Bool} {steps minute found : Nat}
    (first : firstFrom met steps minute = some found) : minute ≤ found := by
  induction steps generalizing minute with
  | zero => contradiction
  | succ steps ih =>
    rw [firstFrom] at first
    split at first
    next => exact Nat.le_of_eq (Option.some.inj first)
    next => exact Nat.le_of_succ_le (ih first)

theorem lt_nextRun {zones : Zones} {row : Row} {now next : Nat}
    (is : nextRun zones row now = some next) : minuteOf now < next :=
  le_of_firstFrom is

/-- The due time of a row. -/
def Row.dueAt (row : Row) (now : Nat) : Option Nat :=
  if row.enabled then row.nextRunAt.filter fun minute => minute ≤ minuteOf now else none

/-- The due times of a row: `next_run_at`, and the later ones up to now. -/
def dueTimes (zones : Zones) (row : Row) (now : Nat) : List Nat :=
  match row.dueAt now with
  | none => []
  | some due => due ::
      (List.range' (due + 1) (minuteOf now - due)).filter (occurs zones row)

/-! ## Requests -/

/-- What a firing queues. -/
inductive Firing where
  | task (brief taskType : String)
  | dailyBrief
  deriving DecidableEq, Repr

def Row.firing (row : Row) : Firing :=
  match row.kind with
  | .task => .task row.brief row.taskType
  | .dailyBrief => .dailyBrief

/-- The row, and what became of its due times. -/
structure Table where
  row : Row
  /-- What was queued, with the due time that it was queued for. -/
  queued : List (Option Nat × Firing) := []
  /-- The due times that a request took to queue. -/
  taken : List Nat := []
  /-- The due times that `next_run_at` was moved past. -/
  passed : List Nat := []

/-- The due times that something was queued for. -/
def Table.fired (table : Table) : List Nat := table.queued.filterMap Prod.fst

/-- Where a request is. -/
inductive Request where
  | idle
  /-- The tick is before its look for rows without `next_run_at`. -/
  | ticking (now : Nat)
  | filling (now : Nat) (row : Row)
  | filled (now : Nat)
  /-- The tick read the due row. -/
  | due (now : Nat) (row : Row)
  /-- The run by hand read the row. -/
  | running (now : Nat) (row : Row)
  | toggling (now : Nat) (row : Row)
  /-- `next_run_at` was moved, and the task is not queued yet. -/
  | advanced (row : Row) (due : Option Nat)
  | done
  deriving DecidableEq

/-- The fields of an edit. -/
structure Edit where
  cron : Cron
  tz : String
  brief : String
  taskType : String
  enabled : Bool
  deriving DecidableEq

inductive Event where
  | tickSchedules (now : Nat)
  /-- The tick that enables the daily brief for the first time. -/
  | enableBrief (now : Nat)
  | handleRunScheduleNow (now : Nat)
  | handleToggleSchedule (now : Nat)
  | handleSaveSchedule (now : Nat) (edit : Edit)
  /-- The next statement; a tick's look for due rows picks the row, or leaves it to a later one. -/
  | statement (picked : Bool)
  /-- The request fails or is stopped. -/
  | stop
  deriving DecidableEq

/-- `next_run_at` is written at a time, for a due time or for none. -/
def Table.write (zones : Zones) (table : Table) (now : Nat) (row : Row) (due : Option Nat) :
    Table :=
  { table with
    row
    taken := due.toList ++ table.taken
    passed := dueTimes zones table.row now ++ table.passed }

/-- `'30 7 * * *'` -/
def briefCron : Cron where
  minute := [30]
  hour := [7]
  dom := List.range' 1 31
  month := List.range' 1 12
  dow := List.range 7
  domWild := true
  dowWild := true

def Row.edit (zones : Zones) (row : Row) (now : Nat) (edit : Edit) : Row :=
  let edited := { row with
    cron := some edit.cron
    tz := edit.tz
    brief := edit.brief
    taskType := edit.taskType
    enabled := edit.enabled }
  { edited with nextRunAt := nextRun zones edited now }

/-- One statement of a request. -/
def step (zones : Zones) (table : Table) : Request → Event → Option (Table × Request)
  | .idle, .tickSchedules now => some (table, .ticking now)
  | .idle, .enableBrief now =>
      if table.row.kind = .task then none
      else if table.row.nextRunAt.isSome then
        some ({ table with row.enabled := true }, .ticking now)
      else
        let next := nextRun zones
          { table.row with cron := some briefCron, tz := "America/Chicago" } now
        some (table.write zones now { table.row with
          enabled := true
          nextRunAt := next } none, .ticking now)
  | .ticking now, .statement _ =>
      some (table, if table.row.enabled && table.row.nextRunAt.isNone then .filling now table.row
        else .filled now)
  | .filling now row, .statement _ =>
      match nextRun zones row now with
      | some next =>
          some (table.write zones now { table.row with nextRunAt := some next } none, .filled now)
      | none => some (table, .filled now)
  | .filled now, .statement picked =>
      some (table, if picked && (table.row.dueAt now).isSome then .due now table.row else .done)
  | .due now row, .statement _ =>
      some (table.write zones now { table.row with
        lastRunAt := some now
        nextRunAt := nextRun zones row now } (row.dueAt now), .advanced row (row.dueAt now))
  | .idle, .handleRunScheduleNow now => some (table, .running now table.row)
  | .running now row, .statement _ =>
      some (table.write zones now { table.row with
        lastRunAt := some now
        nextRunAt := if row.enabled then nextRun zones row now else row.nextRunAt }
        (row.dueAt now), .advanced row (row.dueAt now))
  | .advanced row due, .statement _ =>
      some ({ table with queued := (due, row.firing) :: table.queued }, .done)
  | .idle, .handleToggleSchedule now => some (table, .toggling now table.row)
  | .toggling now row, .statement _ =>
      some (table.write zones now { table.row with
        enabled := !row.enabled
        nextRunAt := if row.enabled then none else nextRun zones row now } none, .done)
  | .idle, .handleSaveSchedule now edit =>
      some (table.write zones now (table.row.edit zones now edit) none, .done)
  | _, .stop => some (table, .done)
  | _, _ => none

def program (zones : Zones) : Program Table Request Event where
  idle := .idle
  step := step zones

/-- The runs of one schedule, with any number of requests. -/
def system (Id : Type) [DecidableEq Id] (zones : Zones) :
    System (Pool Id Table Request) (Id × Event) :=
  (program zones).system Id fun table => ∃ row, table = { row }

/-! ## Every due time once -/

/-- The columns that a due time comes from are as they were read. -/
def Row.SameTimes (row read : Row) : Prop :=
  row.enabled = read.enabled ∧ row.nextRunAt = read.nextRunAt ∧ row.cron = read.cron ∧
    row.tz = read.tz

instance (row read : Row) : Decidable (row.SameTimes read) := by
  unfold Row.SameTimes
  infer_instance

/-- The clock of a request is not behind a due time that was taken. -/
def Table.Clock (table : Table) (now : Nat) : Prop := ∀ due ∈ table.taken, due ≤ minuteOf now

instance (table : Table) (now : Nat) : Decidable (table.Clock now) :=
  inferInstanceAs (Decidable (∀ due ∈ table.taken, due ≤ minuteOf now))

/-- The side condition of a statement.  What moves `next_run_at` finds the times as it read them,
at most one due time to move past, and a clock that is not behind; an edit finds none; and the
task of a due time is queued once `next_run_at` was moved. -/
def Undisturbed (zones : Zones) (table : Table) : Request → Event → Prop
  | .due now row, .statement _ =>
      table.row.SameTimes row ∧ (dueTimes zones table.row now).length ≤ 1
  | .running now row, .statement _ =>
      table.row.SameTimes row ∧ (dueTimes zones table.row now).length ≤ 1 ∧
        (row.enabled = true → table.Clock now)
  | .toggling now row, .statement _ =>
      table.row.SameTimes row ∧ table.row.dueAt now = none ∧ table.Clock now
  | .idle, .handleSaveSchedule now _ => table.row.dueAt now = none ∧ table.Clock now
  | .filling now _, .statement _ => table.row.nextRunAt = none ∧ table.Clock now
  | .idle, .enableBrief now => table.row.nextRunAt = none → table.Clock now
  | .advanced _ due, .stop => due = none
  | _, _ => True

instance (zones : Zones) (table : Table) (request : Request) (event : Event) :
    Decidable (Undisturbed zones table request event) := by
  unfold Undisturbed
  split <;> infer_instance

variable {zones : Zones} {table after : Table} {request request' other : Request} {event : Event}
  {row read : Row} {now : Nat}

/-- A due time is taken once, queued once, and before any later one is due. -/
structure Sound (table : Table) : Prop where
  taken : table.taken.Nodup
  fired : table.fired.Nodup
  firedTaken : ∀ due ∈ table.fired, due ∈ table.taken
  passed : ∀ due ∈ table.passed, due ∈ table.taken
  ahead : ∀ next, table.row.nextRunAt = some next → ∀ due ∈ table.taken, due < next

/-- The due time that a request took and has not queued. -/
def Request.owes : Request → Option Nat
  | .advanced _ owed => owed
  | _ => none

/-- What a request knows: the due time that it owes is taken and not queued for, and a tick
picked a row that is due. -/
structure Owes (table : Table) (request : Request) : Prop where
  debt : ∀ due, request.owes = some due → due ∈ table.taken ∧ due ∉ table.fired
  picked : ∀ now row, request = .due now row → row.dueAt now ≠ none

/-- No two requests owe the same due time. -/
def Apart (request other : Request) : Prop :=
  ∀ due, request.owes = some due → other.owes ≠ some due

theorem apart_of_none (free : request.owes = none) : Apart request other := by
  intro due owes
  rw [free] at owes
  contradiction

/-- A request that owes nothing, whatever the table. -/
theorem owes_of_none (free : request.owes = none)
    (picked : ∀ now row, request = .due now row → row.dueAt now ≠ none) : Owes table request := by
  refine ⟨?_, picked⟩
  intro due owes
  rw [free] at owes
  contradiction

theorem of_dueAt {due : Nat} (is : row.dueAt now = some due) :
    row.nextRunAt = some due ∧ due ≤ minuteOf now := by
  unfold Row.dueAt at is
  split at is
  next =>
    have ⟨next, met⟩ := Option.filter_eq_some_iff.1 is
    exact ⟨next, of_decide_eq_true met⟩
  next => contradiction

theorem dueAt_of_sameTimes (same : row.SameTimes read) : row.dueAt now = read.dueAt now := by
  unfold Row.dueAt
  rw [same.1, same.2.1]

/-- At most one due time: it is the one of the row. -/
theorem dueTimes_of_length (few : (dueTimes zones row now).length ≤ 1) :
    dueTimes zones row now = (row.dueAt now).toList := by
  unfold dueTimes at few ⊢
  split
  next is =>
    rw [is]
    rfl
  next due is =>
    simp only [is] at few
    rw [is, List.length_eq_zero_iff.1 (Nat.le_zero.1 (Nat.le_of_succ_le_succ few))]
    rfl

theorem dueTimes_of_none (none' : row.dueAt now = none) : dueTimes zones row now = [] := by
  unfold dueTimes
  rw [none']

/-- The due time of the row was taken by nobody. -/
theorem Sound.dueAt_notMem {due : Nat} (sound : Sound table)
    (is : table.row.dueAt now = some due) : due ∉ table.taken := by
  intro listed
  exact Nat.lt_irrefl due (sound.ahead due (of_dueAt is).1 due listed)

/-- `next_run_at` is moved past the due time that is taken, if there is one. -/
theorem Sound.write (sound : Sound table) (few : (dueTimes zones table.row now).length ≤ 1)
    (next : ∀ next, row.nextRunAt = some next → table.Clock now ∧ minuteOf now < next ∨
      table.row.dueAt now = none ∧ table.row.nextRunAt = some next) :
    Sound (table.write zones now row (table.row.dueAt now)) := by
  have times := dueTimes_of_length few
  cases is : table.row.dueAt now with
  | none =>
    rw [is] at times
    refine ⟨sound.taken, sound.fired, sound.firedTaken, ?_, ?_⟩
    · rw [Table.write, times]
      exact sound.passed
    · intro later at' due listed
      cases next later at' with
      | inl ahead => exact Nat.lt_of_le_of_lt (ahead.1 due listed) ahead.2
      | inr same => exact sound.ahead later same.2 due listed
  | some due =>
    rw [is] at times
    refine ⟨List.nodup_cons.2 ⟨sound.dueAt_notMem is, sound.taken⟩, sound.fired,
      fun due' fired => List.mem_cons_of_mem _ (sound.firedTaken due' fired), ?_, ?_⟩
    · rw [Table.write, times]
      intro due' listed
      cases listed with
      | head => exact List.mem_cons_self
      | tail _ listed => exact List.mem_cons_of_mem _ (sound.passed due' listed)
    · intro later at' due' listed
      cases next later at' with
      | inl ahead =>
        have reached : due' ≤ minuteOf now := by
          cases listed with
          | head => exact (of_dueAt is).2
          | tail _ listed => exact ahead.1 due' listed
        exact Nat.lt_of_le_of_lt reached ahead.2
      | inr same =>
        have contrary := is.symm.trans same.1
        contradiction

/-- Before the due time of the row, every clock is ahead of what was taken. -/
theorem Sound.clock (sound : Sound table) {due : Nat} (is : table.row.dueAt now = some due) :
    table.Clock now := by
  intro due' listed
  have less := sound.ahead due (of_dueAt is).1 due' listed
  exact Nat.le_of_lt (Nat.lt_of_lt_of_le less (of_dueAt is).2)

/-- A statement keeps the invariant, and what its own request and the others know. -/
structure Kept (table : Table) (request : Request) (after : Table) (request' : Request) :
    Prop where
  sound : Sound after
  own : Owes after request'
  others : ∀ other, Owes table other → Apart request other →
    Owes after other ∧ Apart request' other

/-- A statement that takes no due time. -/
theorem Kept.of_sound (sound : Sound after) (taken : table.taken ⊆ after.taken)
    (fired : after.fired = table.fired) (free : request'.owes = none)
    (picked : ∀ now row, request' = .due now row → row.dueAt now ≠ none) :
    Kept table request after request' := by
  refine ⟨sound, owes_of_none free picked, ?_⟩
  intro other owes _
  refine ⟨⟨?_, owes.picked⟩, apart_of_none free⟩
  intro due is
  exact ⟨taken (owes.debt due is).1, fired ▸ (owes.debt due is).2⟩

/-- A write that takes no due time, since there is none. -/
theorem Kept.free (sound : Sound table) (none' : table.row.dueAt now = none)
    (clock : table.Clock now) (next : ∀ next, row.nextRunAt = some next → minuteOf now < next)
    (free : request'.owes = none)
    (picked : ∀ now row, request' = .due now row → row.dueAt now ≠ none) :
    Kept table request (table.write zones now row none) request' := by
  have few : (dueTimes zones table.row now).length ≤ 1 := by
    rw [dueTimes_of_none none']
    exact Nat.zero_le 1
  have sound := sound.write few fun later at' => .inl ⟨clock, next later at'⟩
  rw [none'] at sound
  exact .of_sound sound (fun _ listed => listed) rfl free picked

/-- A write that takes the due time of the row, if it has one. -/
theorem Kept.take (sound : Sound table) (same : table.row.SameTimes read)
    (few : (dueTimes zones table.row now).length ≤ 1)
    (next : ∀ next, row.nextRunAt = some next → table.Clock now ∧ minuteOf now < next ∨
      table.row.dueAt now = none ∧ table.row.nextRunAt = some next) :
    Kept table request (table.write zones now row (read.dueAt now))
      (.advanced read (read.dueAt now)) := by
  rw [← dueAt_of_sameTimes same]
  constructor
  · exact sound.write few next
  · refine ⟨?_, nofun⟩
    intro due is
    have mine : table.row.dueAt now = some due := is
    constructor
    · rw [Table.write, mine]
      exact List.mem_cons_self
    · exact fun fired => sound.dueAt_notMem mine (sound.firedTaken due fired)
  · intro other owes _
    constructor
    · refine ⟨?_, owes.picked⟩
      intro due is
      exact ⟨List.mem_append_right _ (owes.debt due is).1, (owes.debt due is).2⟩
    · intro due is theirs
      exact sound.dueAt_notMem is (owes.debt due theirs).1

/-- The task of the due time that a request owes. -/
theorem Kept.fire {firing : Firing} {due : Option Nat} (sound : Sound table)
    (owes : Owes table (.advanced row due)) :
    Kept table (.advanced row due)
      { table with queued := (due, firing) :: table.queued } .done := by
  cases due with
  | none =>
    have same : Sound { table with queued := (none, firing) :: table.queued } :=
      ⟨sound.taken, sound.fired, sound.firedTaken, sound.passed, sound.ahead⟩
    exact .of_sound same (fun _ listed => listed) rfl rfl nofun
  | some due =>
    have mine := owes.debt due rfl
    constructor
    · refine ⟨sound.taken, List.nodup_cons.2 ⟨mine.2, sound.fired⟩, ?_, sound.passed, sound.ahead⟩
      intro due' listed
      cases listed with
      | head => exact mine.1
      | tail _ listed => exact sound.firedTaken due' listed
    · exact owes_of_none rfl nofun
    · intro other owes apart
      refine ⟨⟨?_, owes.picked⟩, apart_of_none rfl⟩
      intro due' is
      refine ⟨(owes.debt due' is).1, ?_⟩
      intro listed
      cases listed with
      | head => exact apart due rfl is
      | tail _ listed => exact (owes.debt due' is).2 listed

theorem not_dueAt_of_none (unset : row.nextRunAt = none) : row.dueAt now = none := by
  unfold Row.dueAt
  rw [unset]
  split <;> rfl

/-- Step lemma. -/
theorem Kept.of_step (sound : Sound table) (owes : Owes table request)
    (undisturbed : Undisturbed zones table request event)
    (took : step zones table request event = some (after, request')) :
    Kept table request after request' := by
  unfold step at took
  split at took
  next =>
    cases took
    exact .of_sound sound (fun _ listed => listed) rfl rfl nofun
  next now =>
    split at took
    next => contradiction
    next =>
      split at took
      next =>
        cases took
        have enabled : Sound { table with row.enabled := true } :=
          ⟨sound.taken, sound.fired, sound.firedTaken, sound.passed, sound.ahead⟩
        exact .of_sound enabled (fun _ listed => listed) rfl rfl nofun
      next unset =>
        cases took
        rw [Option.not_isSome_iff_eq_none] at unset
        exact .free sound (not_dueAt_of_none unset) (undisturbed unset)
          (fun next at' => lt_nextRun at') rfl nofun
  next now =>
    cases took
    split
    next => exact .of_sound sound (fun _ listed => listed) rfl rfl nofun
    next => exact .of_sound sound (fun _ listed => listed) rfl rfl nofun
  next =>
    have ⟨unset, clock⟩ := undisturbed
    split at took
    next next' is =>
      cases took
      refine .free sound (not_dueAt_of_none unset) clock ?_ rfl nofun
      exact fun later at' => Option.some.inj at' ▸ lt_nextRun is
    next =>
      cases took
      exact .of_sound sound (fun _ listed => listed) rfl rfl nofun
  next now picked =>
    cases took
    split
    next isDue =>
      refine .of_sound sound (fun _ listed => listed) rfl rfl ?_
      intro now' row' same
      cases same
      rw [Bool.and_eq_true] at isDue
      exact Option.isSome_iff_ne_none.1 isDue.2
    next => exact .of_sound sound (fun _ listed => listed) rfl rfl nofun
  next now row _ =>
    cases took
    have ⟨same, few⟩ := undisturbed
    have ⟨due, is⟩ := Option.ne_none_iff_exists'.1 (owes.picked now row rfl)
    rw [← dueAt_of_sameTimes same] at is
    exact .take sound same few fun next at' => .inl ⟨sound.clock is, lt_nextRun at'⟩
  next now =>
    cases took
    exact .of_sound sound (fun _ listed => listed) rfl rfl nofun
  next =>
    cases took
    have ⟨same, few, clock⟩ := undisturbed
    refine .take sound same few ?_
    intro next at'
    simp only at at'
    split at at'
    next enabled => exact .inl ⟨clock enabled, lt_nextRun at'⟩
    next disabled =>
      -- a row that is not enabled keeps its time
      refine .inr ⟨?_, same.2.1.trans at'⟩
      rw [dueAt_of_sameTimes same, Row.dueAt, if_neg disabled]
  next =>
    cases took
    exact .fire sound owes
  next now =>
    cases took
    exact .of_sound sound (fun _ listed => listed) rfl rfl nofun
  next =>
    cases took
    have ⟨same, nothing, clock⟩ := undisturbed
    refine .free sound nothing clock ?_ rfl nofun
    intro next at'
    simp only at at'
    split at at'
    next => contradiction
    next => exact lt_nextRun at'
  next now edit =>
    cases took
    have ⟨nothing, clock⟩ := undisturbed
    exact .free sound nothing clock (fun next at' => lt_nextRun at') rfl nofun
  next =>
    cases took
    exact .of_sound sound (fun _ listed => listed) rfl rfl nofun
  next => contradiction

theorem respects : (program zones).Respects (Undisturbed zones) Sound Owes Apart where
  symm apart due theirs mine := apart due mine theirs
  guarantee sound owes undisturbed took := by
    have kept := Kept.of_step sound owes undisturbed took
    exact ⟨kept.sound, kept.own⟩
  rely sound owes other apart undisturbed took :=
    (Kept.of_step sound owes undisturbed took).others _ other apart

/-- A due time that a statement takes is owed by its request, and what a request owes is queued
by its next statement. -/
structure Settles (table : Table) (request : Request) (after : Table) (request' : Request) :
    Prop where
  taken : ∀ due ∈ after.taken, due ∈ table.taken ∨ request'.owes = some due
  owed : ∀ due, request.owes = some due → due ∈ after.fired
  fired : table.fired ⊆ after.fired

theorem Settles.same (free : request.owes = none) (taken : after.taken = table.taken)
    (fired : after.fired = table.fired) : Settles table request after request' := by
  refine ⟨fun due listed => .inl (taken ▸ listed), ?_, fun due listed => fired ▸ listed⟩
  intro due owes
  rw [free] at owes
  contradiction

theorem Settles.take (free : request.owes = none) {due : Option Nat} :
    Settles table request (table.write zones now row due) (.advanced read due) := by
  refine ⟨?_, ?_, fun _ listed => listed⟩
  · intro due' listed
    cases due with
    | none => exact .inl listed
    | some due =>
      cases listed with
      | head => exact .inr rfl
      | tail _ listed => exact .inl listed
  · intro due' owes
    rw [free] at owes
    contradiction

theorem Settles.fire {firing : Firing} {due : Option Nat} :
    Settles table (.advanced row due)
      { table with queued := (due, firing) :: table.queued } .done := by
  refine ⟨fun _ listed => .inl listed, ?_, ?_⟩
  · intro due' is
    have mine : due = some due' := is
    subst mine
    exact List.mem_cons_self
  · intro due' listed
    cases due with
    | none => exact listed
    | some due => exact List.mem_cons_of_mem _ listed

theorem Settles.of_step (undisturbed : Undisturbed zones table request event)
    (took : step zones table request event = some (after, request')) :
    Settles table request after request' := by
  unfold step at took
  split at took
  next =>
    cases took
    exact .same rfl rfl rfl
  next =>
    split at took
    next => contradiction
    next =>
      split at took
      next =>
        cases took
        exact .same rfl rfl rfl
      next =>
        cases took
        exact .same rfl rfl rfl
  next =>
    cases took
    exact .same rfl rfl rfl
  next =>
    split at took
    next =>
      cases took
      exact .same rfl rfl rfl
    next =>
      cases took
      exact .same rfl rfl rfl
  next =>
    cases took
    exact .same rfl rfl rfl
  next =>
    cases took
    exact .take rfl
  next =>
    cases took
    exact .same rfl rfl rfl
  next =>
    cases took
    exact .take rfl
  next =>
    cases took
    exact .fire
  next =>
    cases took
    exact .same rfl rfl rfl
  next =>
    cases took
    exact .same rfl rfl rfl
  next =>
    cases took
    exact .same rfl rfl rfl
  next =>
    cases took
    cases request with
    | advanced row due => exact .same undisturbed rfl rfl
    | _ => exact .same rfl rfl rfl
  next => contradiction

/-- What was taken is queued for, or owed by a request. -/
def Covered {Id : Type} (pool : Pool Id Table Request) : Prop :=
  ∀ due ∈ pool.shared.taken, due ∈ pool.shared.fired ∨
    ∃ id, (pool.requests id).owes = some due

theorem covered_of_reachable {Id : Type} [DecidableEq Id] {pool : Pool Id Table Request}
    (reached : Reachable (system Id zones) (Program.onStatement (Undisturbed zones)) pool) :
    Covered pool := by
  apply reached.invariant Covered
  · intro pool ⟨⟨row, started⟩, _⟩
    rw [Covered, started]
    exact fun _ listed => by contradiction
  · intro pool label after _ covered undisturbed stepped
    have ⟨table, request, took, same⟩ := Program.exists_step stepped
    have settles := Settles.of_step undisturbed took
    subst same
    intro due listed
    cases settles.taken due listed with
    | inr owes => exact .inr ⟨label.1, by simpa only [Function.update_self] using owes⟩
    | inl taken =>
      cases covered due taken with
      | inl fired => exact .inl (settles.fired fired)
      | inr owed =>
        have ⟨id, owes⟩ := owed
        by_cases acting : id = label.1
        · subst acting
          exact .inl (settles.owed due owes)
        · exact .inr ⟨id, by simpa only [Function.update_of_ne acting] using owes⟩

theorem sound_start (row : Row) : Sound { row } ∧ Owes { row } .idle := by
  refine ⟨⟨List.nodup_nil, List.nodup_nil, ?_, ?_, ?_⟩, owes_of_none rfl nofun⟩
  all_goals
    intros
    contradiction

/-- In every run whose statements all meet the side condition, each due time was queued for at
most once, and a due time that `next_run_at` was moved past was queued for, or the request that
moved it is about to. -/
theorem due_times_once (Id : Type) [DecidableEq Id] (zones : Zones) (pool : Pool Id Table Request)
    (reached : Reachable (system Id zones) (Program.onStatement (Undisturbed zones)) pool) :
    pool.shared.fired.Nodup ∧ ∀ due ∈ pool.shared.passed, due ∈ pool.shared.fired ∨
      ∃ id, (pool.requests id).owes = some due := by
  have known := Program.Respects.reachable respects
    (fun table ⟨row, started⟩ => started ▸ sound_start row) (apart_of_none rfl) reached
  refine ⟨known.shared.fired, ?_⟩
  exact fun due passed => covered_of_reachable reached due (known.shared.passed due passed)

/-- A zone in which the clock reads the minutes as they are counted. -/
def plainZone : Zones := fun _ => some fun minute => ⟨minute % 60, minute / 60 % 24, 1, 1, 0⟩

/-- A schedule at every full hour; the first one is due at minute 60. -/
def hourly : Row where
  cron := some ⟨[0], List.range 24, List.range' 1 31, List.range' 1 12, List.range 7, true, true⟩
  tz := ""
  brief := "brief"
  taskType := "general"
  kind := .task
  enabled := true
  lastRunAt := none
  nextRunAt := some 60

/-- The pool before any request. -/
def begun : Pool Nat Table Request := ⟨{ row := hourly }, fun _ => .idle⟩

/-- A tick up to its read of the due row. -/
def reads (id now : Nat) : List (Nat × Event) :=
  [(id, .tickSchedules now), (id, .statement true), (id, .statement true)]

/-- A tick moves `next_run_at` and queues. -/
def fires (id : Nat) : List (Nat × Event) := [(id, .statement true), (id, .statement true)]

/-- Two ticks and a run by hand, one after the other: the first two due times are queued for. -/
theorem due_times_once_fired :
    ∃ pool : Pool Nat Table Request, pool.shared.fired = [120, 60] ∧ pool.shared.fired.Nodup := by
  let labels := reads 0 3630000 ++ fires 0 ++
    (1, .handleRunScheduleNow 4000000) :: fires 1 ++ reads 2 7230000 ++ fires 2
  have ends : ((system Nat plainZone).exec (Program.onStatement (Undisturbed plainZone)) begun
      labels).map (fun pool => pool.shared.fired) = some [120, 60] := by
    decide
  have ⟨pool, ran, is⟩ := Option.map_eq_some_iff.1 ends
  exact ⟨pool, is,
    (due_times_once Nat plainZone pool (.of_exec (.start ⟨⟨hourly, rfl⟩, fun _ => rfl⟩) ran)).1⟩

/-- Two ticks read the due row before one of them moves `next_run_at`: both queue its task. -/
theorem not_due_times_once : ¬ ∀ (zones : Zones) (pool : Pool Nat Table Request),
    Reachable (system Nat zones) always pool →
      pool.shared.fired.Nodup ∧ ∀ due ∈ pool.shared.passed, due ∈ pool.shared.fired ∨
        ∃ id, (pool.requests id).owes = some due := by
  intro claimed
  let labels := reads 0 3630000 ++ reads 1 3640000 ++ fires 0 ++ fires 1
  have ends : ((system Nat plainZone).exec always begun labels).map
      (fun pool => pool.shared.fired) = some [60, 60] := by
    decide
  have ⟨pool, ran, is⟩ := Option.map_eq_some_iff.1 ends
  have once := (claimed plainZone pool (.of_exec (.start ⟨⟨hourly, rfl⟩, fun _ => rfl⟩) ran)).1
  rw [is] at once
  exact absurd once (by decide)

end Schedules

end TitanRunner
