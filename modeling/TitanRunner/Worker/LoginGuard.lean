import TitanRunner.Lib.Interleaving
import Mathlib.Algebra.Group.Nat.Defs

/-!
# The lock-out

The row of one client in `login_limits` (`loginGuard.js`) or in `auth_failures` (`auth.js`), and
the attempts of the client that run on it in any interleaving: each checks the lock, has its
token compared, and then reads the row and writes it back with one failure more.
-/

namespace TitanRunner

namespace LoginGuard

open TransitionSystem System Interleaving

/-- What the two lock-outs differ in. -/
structure Rule where
  windowMs : Nat
  maxFailures : Nat
  /-- The length of a lock, by the strikes before it. -/
  lockMs : Nat → Nat
  /-- A good token deletes the row. -/
  clears : Bool
  /-- The limit for all clients together. -/
  globalMax : Option Nat

/-- The limits of `loginGuard.js`, with the two that can be set. -/
def login (maxFailures globalMax : Nat) : Rule where
  windowMs := 15 * 60000
  maxFailures := maxFailures
  lockMs strikes := min 60 (2 ^ (strikes + 1)) * 60000
  clears := true
  globalMax := some globalMax

/-- `LOCKOUT` -/
def lockout : Rule where
  windowMs := 10 * 60000
  maxFailures := 10
  lockMs strikes := min (24 * 3600000) (15 * 60000 * 2 ^ min strikes 10)
  clears := false
  globalMax := none

structure Row where
  windowStart : Nat
  failures : Nat
  strikes : Nat := 0
  lockedUntil : Option Nat
  deriving DecidableEq

/-- The lock of a row has not ended. -/
def locked (row : Option Row) (now : Nat) : Bool :=
  ((row.bind Row.lockedUntil).filter fun until' => now < until').isSome

/-- The row, if its window has not ended. -/
def current (rule : Rule) (row : Option Row) (now : Nat) : Option Row :=
  row.filter fun row => now ≤ row.windowStart + rule.windowMs

/-- The failures of the window. -/
def counted (rule : Rule) (row : Option Row) (now : Nat) : Nat :=
  ((current rule row now).map Row.failures).getD 0

def strikesOf (row : Option Row) : Nat := (row.map Row.strikes).getD 0

/-- `recordLoginFailure` and `recordAuthFailure`: the row with one failure more. -/
def record (rule : Rule) (row : Option Row) (now : Nat) : Row :=
  let failures := counted rule row now + 1
  let windowStart := ((current rule row now).map Row.windowStart).getD now
  let strikes := strikesOf row
  if rule.maxFailures ≤ failures then
    { windowStart, failures := 0, strikes := strikes + 1
      lockedUntil := some (now + rule.lockMs strikes) }
  else { windowStart, failures, strikes, lockedUntil := none }

/-- `recordLoginFailure`: the row `global` with one failure more. -/
def recordGlobal (globalMax : Nat) (row : Option Row) (now : Nat) : Row :=
  let current := row.filter fun row => now ≤ row.windowStart + 10 * 60000
  let failures := (current.map Row.failures).getD 0 + 1
  let kept := (row.bind Row.lockedUntil).filter fun until' => now < until'
  { windowStart := (current.map Row.windowStart).getD now
    failures := failures
    lockedUntil := if globalMax ≤ failures then kept.or (some (now + 10 * 60000)) else kept }

/-! ## Attempts -/

inductive Entry where
  | refused (now : Nat)
  /-- The client's row was not locked; the token is wrong or right. -/
  | admitted (now : Nat) (wrong : Bool)
  /-- An attempt ended before its wrong token was compared. -/
  | dropped
  | failed (now : Nat)
  | cleared
  deriving DecidableEq

structure Table where
  row : Option Row := none
  global : Option Row := none
  /-- What the attempts did, the last first. -/
  log : List Entry := []
  /-- An attempt was admitted with a wrong token, and its failure is not recorded. -/
  underWay : Bool := false

/-- Where an attempt is. -/
inductive Attempt where
  | idle
  /-- The client's row was not locked. -/
  | unlocked (now : Nat) (wrong : Bool)
  | passed (now : Nat) (wrong : Bool)
  /-- The row was read to record a failure. -/
  | read (now : Nat) (row : Option Row)
  | counted (now : Nat)
  | readGlobal (now : Nat) (row : Option Row)
  | done
  deriving DecidableEq

inductive Event where
  /-- An attempt checks the row of its client. -/
  | check (now : Nat) (wrong : Bool)
  /-- The attempt looks at the row `global`; a known client passes a throttle. -/
  | checkGlobal (known : Bool)
  /-- A wrong token: the row is read.  The login passes the time of its check on, the other
  lock-out looks at the clock again. -/
  | recordFailure (now : Nat)
  /-- A right token. -/
  | recordSuccess
  /-- The next statement of `recordLoginFailure` or `recordAuthFailure`. -/
  | statement
  /-- Other clients write the row `global`. -/
  | others (global : Option Row)
  /-- The attempt fails or is stopped. -/
  | stop
  deriving DecidableEq

/-- An attempt ends before its token was compared. -/
def Table.drop (table : Table) (wrong : Bool) : Table :=
  if wrong then
    { table with
      log := .dropped :: table.log
      underWay := false }
  else table

/-- One statement of an attempt. -/
def step (rule : Rule) (table : Table) : Attempt → Event → Option (Table × Attempt)
  | .idle, .check now wrong =>
      if locked table.row now then some ({ table with log := .refused now :: table.log }, .done)
      else some ({ table with
          log := .admitted now wrong :: table.log
          underWay := table.underWay || wrong },
        if rule.globalMax.isSome then .unlocked now wrong else .passed now wrong)
  | .unlocked now wrong, .checkGlobal known =>
      if locked table.global now && !known then some (table.drop wrong, .done)
      else some (table, .passed now wrong)
  | .passed checked true, .recordFailure now =>
      if checked ≤ now then some (table, .read now table.row) else none
  | .read now row, .statement =>
      some ({ table with
        row := some (record rule row now)
        log := .failed now :: table.log
        underWay := false }, if rule.globalMax.isSome then .counted now else .done)
  | .counted now, .statement => some (table, .readGlobal now table.global)
  | .readGlobal now row, .statement =>
      some ({ table with
        global := rule.globalMax.map fun globalMax => recordGlobal globalMax row now }, .done)
  | .passed _ false, .recordSuccess =>
      if rule.clears then some ({ table with
          row := none
          log := .cleared :: table.log }, .done)
      else some (table, .done)
  | .idle, .others global => some ({ table with global }, .done)
  | .unlocked _ wrong, .stop => some (table.drop wrong, .done)
  | _, .stop => some (table, .done)
  | _, _ => none

def program (rule : Rule) : Program Table Attempt Event where
  idle := .idle
  step := step rule

/-- The attempts of one client that is not yet known to the limits. -/
def system (Id : Type) [DecidableEq Id] (rule : Rule) :
    System (Pool Id Table Attempt) (Id × Event) :=
  (program rule).system Id (· = {})

/-! ## Every failure counts -/

/-- The row that the recorded failures make, one after the other. -/
def replay (rule : Rule) : List Entry → Option Row
  | [] => none
  | .failed now :: earlier => some (record rule (replay rule earlier) now)
  | .cleared :: _ => none
  | _ :: earlier => replay rule earlier

/-- How many wrong tokens were admitted and are neither recorded nor dropped. -/
def unrecorded : List Entry → Nat
  | [] => 0
  | .admitted _ true :: earlier => unrecorded earlier + 1
  | .failed _ :: earlier | .dropped :: earlier => unrecorded earlier - 1
  | _ :: earlier => unrecorded earlier

/-- What came before an entry allows it: nothing is admitted and nothing recorded during a lock,
and an attempt is admitted with every earlier wrong token recorded. -/
def Entry.Allowed (rule : Rule) (earlier : List Entry) : Entry → Prop
  | .admitted now _ => locked (replay rule earlier) now = false ∧ unrecorded earlier = 0
  | .failed now => locked (replay rule earlier) now = false
  | _ => True

def Allowed (rule : Rule) : List Entry → Prop
  | [] => True
  | entry :: earlier => entry.Allowed rule earlier ∧ Allowed rule earlier

/-- The side condition of a statement.  An attempt that passes its check finds no wrong token
under way; a failure is written to the row that was read, and an attempt whose wrong token is
compared is not stopped before. -/
def Serial (table : Table) : Attempt → Event → Prop
  | .idle, .check now _ => locked table.row now = true ∨ table.underWay = false
  | .read _ row, .statement => table.row = row
  | .passed _ true, .stop | .read _ _, .stop => False
  | _, _ => True

instance (table : Table) (attempt : Attempt) (event : Event) :
    Decidable (Serial table attempt event) := by
  unfold Serial
  split <;> infer_instance

variable {rule : Rule} {table after : Table} {attempt attempt' other : Attempt} {event : Event}
  {row : Option Row} {now later : Nat}

/-- A lock that has ended stays ended. -/
theorem not_locked_of_le (open' : locked row now = false) (le : now ≤ later) :
    locked row later = false := by
  unfold locked at open' ⊢
  rw [Option.isSome_eq_false_iff, Option.isNone_iff_eq_none, Option.filter_eq_none_iff] at open' ⊢
  intro until' is ahead
  apply open' until' is
  exact decide_eq_true (Nat.lt_of_le_of_lt le (of_decide_eq_true ahead))

/-- The row is the one that the recorded failures make, and the wrong token under way is the only
one that is not recorded. -/
structure Sound (rule : Rule) (table : Table) : Prop where
  row : table.row = replay rule table.log
  count : unrecorded table.log = if table.underWay then 1 else 0
  allowed : Allowed rule table.log

/-- An attempt whose wrong token is under way. -/
def Attempt.holds : Attempt → Bool
  | .unlocked _ wrong | .passed _ wrong => wrong
  | .read _ _ => true
  | _ => false

/-- What an attempt with a wrong token knows. -/
def Knows' (table : Table) : Attempt → Prop
  | .unlocked now wrong | .passed now wrong =>
      wrong = true → table.underWay = true ∧ locked table.row now = false
  | .read now row => table.underWay = true ∧ locked row now = false
  | _ => True

/-- No two attempts have a wrong token under way. -/
def Alone (attempt other : Attempt) : Prop := ¬ (attempt.holds = true ∧ other.holds = true)

theorem underWay_of_holds (knows : Knows' table attempt) (holds : attempt.holds = true) :
    table.underWay = true := by
  cases attempt with
  | unlocked now wrong => exact (knows holds).1
  | passed now wrong => exact (knows holds).1
  | read now row => exact knows.1
  | _ => contradiction

/-- A statement keeps the invariant, and what its own attempt and the others know. -/
structure Kept (rule : Rule) (table : Table) (attempt : Attempt) (after : Table)
    (attempt' : Attempt) : Prop where
  sound : Sound rule after
  own : Knows' after attempt'
  others : ∀ other, Knows' table other → Alone attempt other →
    Knows' after other ∧ Alone attempt' other

theorem alone_of_free (free : attempt.holds = false) : Alone attempt other := by
  intro both
  rw [free] at both
  exact Bool.false_ne_true both.1

theorem knows_of_free (free : attempt.holds = false) : Knows' table attempt := by
  cases attempt with
  | unlocked now wrong => exact fun is => absurd (free.symm.trans is) Bool.false_ne_true
  | passed now wrong => exact fun is => absurd (free.symm.trans is) Bool.false_ne_true
  | read now row => contradiction
  | _ => trivial

/-- An attempt that stays as far as the row of the client goes. -/
theorem Kept.same (sound : Sound rule after) (underWay : after.underWay = table.underWay)
    (row : after.row = table.row) (own : Knows' after attempt')
    (alone : attempt'.holds = true → attempt.holds = true) :
    Kept rule table attempt after attempt' := by
  refine ⟨sound, own, ?_⟩
  intro other knows apart
  refine ⟨?_, fun both => apart ⟨alone both.1, both.2⟩⟩
  cases other with
  | unlocked now wrong => exact fun is => by rw [underWay, row]; exact knows is
  | passed now wrong => exact fun is => by rw [underWay, row]; exact knows is
  | read now row => exact ⟨underWay ▸ knows.1, knows.2⟩
  | _ => trivial

/-- The attempt that has a wrong token under way settles it. -/
theorem Kept.settle (sound : Sound rule after) (holds : attempt.holds = true)
    (free : attempt'.holds = false) : Kept rule table attempt after attempt' := by
  refine ⟨sound, knows_of_free free, ?_⟩
  intro other knows apart
  have idle : other.holds = false := Bool.eq_false_iff.2 fun is => apart ⟨holds, is⟩
  exact ⟨knows_of_free idle, alone_of_free free⟩

theorem Sound.drop (sound : Sound rule table) {wrong : Bool} (underWay : wrong = true →
    table.underWay = true) : Sound rule (table.drop wrong) := by
  unfold Table.drop
  split
  next is =>
    refine ⟨sound.row, ?_, trivial, sound.allowed⟩
    have one := sound.count
    rw [underWay is, if_pos rfl] at one
    rw [unrecorded, one]
    rfl
  next => exact sound

/-- An attempt with a wrong token under way ends before the token was compared. -/
theorem Kept.drop (sound : Sound rule table) {wrong : Bool}
    (knows : Knows' table (.unlocked now wrong)) :
    Kept rule table (.unlocked now wrong) (table.drop wrong) .done := by
  have dropped := sound.drop fun is => (knows is).1
  cases wrong with
  | true => exact .settle dropped rfl rfl
  | false => exact .same dropped rfl rfl trivial nofun

/-- An attempt is admitted while no wrong token is under way. -/
theorem Kept.admission (sound : Sound rule table) (open' : locked table.row now = false)
    (free : table.underWay = false) {wrong : Bool} :
    Kept rule table .idle
      { table with
        log := .admitted now wrong :: table.log
        underWay := table.underWay || wrong }
      (if rule.globalMax.isSome then .unlocked now wrong else .passed now wrong) := by
  have none' := sound.count
  rw [free, if_neg Bool.false_ne_true] at none'
  constructor
  · refine ⟨sound.row, ?_, ⟨sound.row ▸ open', none'⟩, sound.allowed⟩
    cases wrong with
    | true => simp only [unrecorded, none', Bool.or_true, if_true]
    | false => simp only [unrecorded, none', free, Bool.or_false, if_neg Bool.false_ne_true]
  · have own : wrong = true → (table.underWay || wrong) = true ∧ locked table.row now = false :=
      fun is => ⟨by rw [is, Bool.or_true], open'⟩
    split
    next => exact own
    next => exact own
  · intro other knows _
    have idle : other.holds = false := Bool.eq_false_iff.2 fun is =>
      Bool.false_ne_true (free.symm.trans (underWay_of_holds knows is))
    refine ⟨knows_of_free idle, ?_⟩
    intro both
    exact Bool.false_ne_true (idle.symm.trans both.2)

/-- The failure is recorded in the row that was read, and the row was not locked. -/
theorem Kept.fail (sound : Sound rule table) (same : table.row = row)
    (knows : Knows' table (.read now row)) :
    Kept rule table (.read now row)
      { table with
        row := some (record rule row now)
        log := .failed now :: table.log
        underWay := false }
      (if rule.globalMax.isSome then .counted now else .done) := by
  have ⟨underWay, open'⟩ := knows
  have one := sound.count
  rw [underWay, if_pos rfl] at one
  have read : row = replay rule table.log := same.symm.trans sound.row
  have unlocked : locked (replay rule table.log) now = false := read ▸ open'
  refine .settle ⟨?_, ?_, unlocked, sound.allowed⟩ rfl ?_
  · rw [replay, ← read]
  · rw [unrecorded, one]
    rfl
  · split <;> rfl

/-- A good token clears the row. -/
theorem Kept.clear (sound : Sound rule table) {checked : Nat} :
    Kept rule table (.passed checked false)
      { table with
        row := none
        log := .cleared :: table.log } .done := by
  refine ⟨⟨rfl, sound.count, trivial, sound.allowed⟩, trivial, ?_⟩
  intro other knows _
  refine ⟨?_, alone_of_free rfl⟩
  cases other with
  | unlocked now wrong => exact fun is => ⟨(knows is).1, rfl⟩
  | passed now wrong => exact fun is => ⟨(knows is).1, rfl⟩
  | _ => exact knows

/-- Step lemma. -/
theorem Kept.of_step (sound : Sound rule table) (knows : Knows' table attempt)
    (serial : Serial table attempt event)
    (took : step rule table attempt event = some (after, attempt')) :
    Kept rule table attempt after attempt' := by
  unfold step at took
  split at took
  next now wrong =>
    split at took
    next =>
      cases took
      exact .same ⟨sound.row, sound.count, trivial, sound.allowed⟩ rfl rfl trivial nofun
    next open' =>
      cases took
      rw [Bool.not_eq_true] at open'
      have free : table.underWay = false := serial.resolve_left (by rw [open']; exact nofun)
      exact .admission sound open' free
  next now wrong known =>
    split at took
    next =>
      cases took
      exact .drop sound knows
    next =>
      cases took
      exact .same sound rfl rfl knows id
  next checked now =>
    split at took
    next le =>
      cases took
      have ⟨underWay, open'⟩ := knows rfl
      exact .same sound rfl rfl ⟨underWay, not_locked_of_le open' le⟩ fun _ => rfl
    next => contradiction
  next now row =>
    cases took
    exact .fail sound serial knows
  next =>
    cases took
    exact .same sound rfl rfl trivial nofun
  next =>
    cases took
    exact .same ⟨sound.row, sound.count, sound.allowed⟩ rfl rfl trivial nofun
  next =>
    split at took
    next =>
      cases took
      exact .clear sound
    next =>
      cases took
      exact .same sound rfl rfl trivial nofun
  next =>
    cases took
    exact .same ⟨sound.row, sound.count, sound.allowed⟩ rfl rfl trivial nofun
  next =>
    cases took
    exact .drop sound knows
  next =>
    cases took
    exact .same sound rfl rfl trivial nofun
  next => contradiction

theorem respects : (program rule).Respects Serial (Sound rule) Knows' Alone where
  symm alone both := alone both.symm
  guarantee sound knows serial took := by
    have kept := Kept.of_step sound knows serial took
    exact ⟨kept.sound, kept.own⟩
  rely sound knows other alone serial took :=
    (Kept.of_step sound knows serial took).others _ other alone

/-! ## The lock -/

/-- The failure that fills the window locks the row. -/
theorem locked_record (full : rule.maxFailures ≤ counted rule row now + 1)
    (early : later < now + rule.lockMs (strikesOf row)) :
    locked (some (record rule row now)) later = true := by
  simp only [locked, record, if_pos full, Option.bind_some, Option.filter_some,
    decide_eq_true early, if_true, Option.isSome_some]

def Entry.isRefused : Entry → Bool
  | .refused _ => true
  | _ => false

/-- An attempt that is refused changes nothing. -/
theorem replay_refused {middle earlier : List Entry}
    (refused : ∀ entry ∈ middle, entry.isRefused = true) :
    replay rule (middle ++ earlier) = replay rule earlier := by
  induction middle with
  | nil => rfl
  | cons entry middle ih =>
    have rest := ih fun other listed => refused other (List.mem_cons_of_mem _ listed)
    cases entry with
    | refused now => exact rest
    | _ => exact absurd (refused _ List.mem_cons_self) nofun

theorem Allowed.of_append {later earlier : List Entry} (allowed : Allowed rule (later ++ earlier)) :
    Allowed rule earlier := by
  induction later with
  | nil => exact allowed
  | cons entry later ih => exact ih allowed.2

/-- What the lock-out promises of a row and of what the attempts did: the row counts every failure,
no wrong token but the one under way is unrecorded, nothing is admitted or recorded during a lock,
and behind the failure that fills the window every attempt is refused until the lock ends. -/
structure LocksOut (rule : Rule) (table : Table) : Prop where
  counts : table.row = replay rule table.log
  recorded : unrecorded table.log = if table.underWay then 1 else 0
  allowed : Allowed rule table.log
  refuses : ∀ later middle earlier now checked wrong,
    table.log = later ++ .admitted checked wrong :: (middle ++ .failed now :: earlier) →
    (∀ entry ∈ middle, entry.isRefused = true) →
    rule.maxFailures ≤ counted rule (replay rule earlier) now + 1 →
      now + rule.lockMs (strikesOf (replay rule earlier)) ≤ checked

/-- In every run of attempts that are serial in this sense, the lock-out holds. -/
theorem lockout_holds (Id : Type) [DecidableEq Id] (rule : Rule) (pool : Pool Id Table Attempt)
    (reached : Reachable (system Id rule) (Program.onStatement Serial) pool) :
    LocksOut rule pool.shared := by
  have start : Sound rule {} := ⟨rfl, rfl, trivial⟩
  have known :=
    Program.Respects.reachable respects (fun table started => started ▸ ⟨start, trivial⟩)
    (alone_of_free rfl) reached
  refine ⟨known.shared.row, known.shared.count, known.shared.allowed, ?_⟩
  intro later middle earlier now checked wrong is refused full
  have allowed := known.shared.allowed
  rw [is] at allowed
  have open' := allowed.of_append.1.1
  rw [replay_refused refused, replay] at open'
  apply Nat.le_of_not_lt
  intro early
  exact Bool.false_ne_true (open'.symm.trans (locked_record full early))

/-- The pool before any attempt. -/
def begun : Pool Nat Table Attempt := ⟨{}, fun _ => .idle⟩

/-- An attempt with a wrong token up to its read of the row, and from there. -/
def tries (id now : Nat) : List (Nat × Event) :=
  [(id, .check now true), (id, .checkGlobal false), (id, .recordFailure now)]

def writes (id : Nat) : List (Nat × Event) :=
  [(id, .statement), (id, .statement), (id, .statement)]

/-- Two wrong tokens lock the client, and its next attempt is refused. -/
theorem lockout_holds_locked :
    ∃ pool : Pool Nat Table Attempt, pool.requests 2 = .done ∧
      locked pool.shared.row 1000 = true ∧ LocksOut (login 2 60) pool.shared := by
  let labels := tries 0 0 ++ writes 0 ++ tries 1 1 ++ writes 1 ++ [(2, .check 1000 true)]
  have ends : ((system Nat (login 2 60)).exec (Program.onStatement Serial) begun labels).map
      (fun pool => (pool.requests 2, locked pool.shared.row 1000)) = some (.done, true) := by
    decide
  have ⟨pool, ran, is⟩ := Option.map_eq_some_iff.1 ends
  have ⟨refused, lock⟩ := Prod.mk.inj is
  exact ⟨pool, refused, lock,
    lockout_holds Nat (login 2 60) pool (.of_exec (.start ⟨rfl, fun _ => rfl⟩) ran)⟩

/-- Two attempts read the row before one of them writes it: two failures count as one. -/
theorem not_lockout_holds : ¬ ∀ (rule : Rule) (pool : Pool Nat Table Attempt),
    Reachable (system Nat rule) always pool → LocksOut rule pool.shared := by
  intro claimed
  let labels := tries 0 0 ++ tries 1 1 ++ writes 0 ++ writes 1
  have ends : ((system Nat (login 5 60)).exec always begun labels).map (fun pool =>
      decide (pool.shared.row = replay (login 5 60) pool.shared.log)) = some false := by
    decide
  have ⟨pool, ran, is⟩ := Option.map_eq_some_iff.1 ends
  exact of_decide_eq_false is
    (claimed (login 5 60) pool (.of_exec (.start ⟨rfl, fun _ => rfl⟩) ran)).counts

end LoginGuard

end TitanRunner
