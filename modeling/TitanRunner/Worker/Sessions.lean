import TitanRunner.Lib.Transition
import Mathlib.Logic.Function.Basic
import Mathlib.Order.Defs.LinearOrder

/-!
# Dashboard sessions

The table `sessions` (`sessions.js`) under every sequence of sign-ins, requests, sign-outs
and prunings, at any clock values.  Beside the table runs a ledger that says when each
session was used; the table holds what the ledger says.

Times are milliseconds: the ISO texts of the source are read back as these and are ordered
as these are.  The statements of the database do not fail.
-/

namespace TitanRunner

namespace Sessions

open TransitionSystem System

variable {Token Id : Type} [DecidableEq Id]

/-- `TOUCH_EVERY_MS` -/
def touchEveryMs : Int := 60000

/-- `clampInt`, on the number that the text starts with. -/
def clampInt (parsed : Option Int) (low high fallback : Int) : Int :=
  match parsed with
  | some n => min high (max low n)
  | none => fallback

structure Limits where
  idleMs : Int
  absoluteMs : Int
  deriving DecidableEq

/-- `sessionLimits`, on the numbers of the two Worker variables. -/
def sessionLimits (idleMinutes absoluteHours : Option Int) : Limits where
  idleMs := clampInt idleMinutes 5 1440 30 * 60000
  absoluteMs := clampInt absoluteHours 1 72 12 * 3600000

/-- A row of `sessions`. -/
structure Row (Id : Type) where
  id : Id
  createdAt : Int
  lastSeenAt : Int
  expiresAt : Int
  deriving DecidableEq

abbrev Table (Id : Type) := List (Row Id)

namespace Table

/-- `SELECT … WHERE id = ?` -/
def row (table : Table Id) (id : Id) : Option (Row Id) := table.find? (·.id = id)

/-- `DELETE … WHERE id = ?` -/
def delete (table : Table Id) (id : Id) : Table Id := table.filter (·.id ≠ id)

/-- `UPDATE … SET last_seen_at = ? WHERE id = ?` -/
def touch (table : Table Id) (id : Id) (now : Int) : Table Id :=
  table.map fun row => if row.id = id then { row with lastSeenAt := now } else row

end Table

/-- What `createSession` gives back. -/
structure Created (Token Id : Type) where
  token : Token
  id : Id
  expiresAt : Int
  idleSeconds : Int
  absoluteSeconds : Int
  deriving DecidableEq

/-- `createSession` with the token that was drawn; `none` when the id is taken. -/
def createSession (hash : Token → Id) (limits : Limits) (table : Table Id) (token : Token)
    (now : Int) : Option (Table Id × Created Token Id) :=
  let id := hash token
  let expiresAt := now + limits.absoluteMs
  match table.row id with
  | some _ => none
  | none => some (table ++ [{ id, createdAt := now, lastSeenAt := now, expiresAt }],
      { token, id, expiresAt, idleSeconds := limits.idleMs / 1000
        absoluteSeconds := limits.absoluteMs / 1000 })

inductive Reason where
  | unknown
  | idle
  | absolute
  deriving DecidableEq

inductive Answer (Id : Type) where
  | ok (id : Id) (expiresAt idleExpiresAt : Int)
  | refused (reason : Reason)
  deriving DecidableEq

def Answer.accepted : Answer Id → Bool
  | .ok .. => true
  | .refused _ => false

def lookupSession (hash : Token → Id) (limits : Limits) (table : Table Id) (token : Token)
    (now : Int) : Table Id × Answer Id :=
  let id := hash token
  match table.row id with
  | none => (table, .refused .unknown)
  | some row =>
      if row.expiresAt ≤ now then (table.delete id, .refused .absolute)
      else if limits.idleMs < now - row.lastSeenAt then (table.delete id, .refused .idle)
      else
        let table := if touchEveryMs < now - row.lastSeenAt then table.touch id now else table
        let seen := if touchEveryMs < now - row.lastSeenAt then now else row.lastSeenAt
        (table, .ok id row.expiresAt (min row.expiresAt (seen + limits.idleMs)))

/-- `endSession`, and whether a row was deleted. -/
def endSession (table : Table Id) (id : Id) : Table Id × Bool :=
  (table.delete id, decide (0 < table.length - (table.delete id).length))

/-- `pruneSessions`, and how many rows were deleted. -/
def pruneSessions (limits : Limits) (table : Table Id) (now : Int) : Table Id × Nat :=
  let left := table.filter fun row =>
    ¬ (row.expiresAt < now ∨ row.lastSeenAt < now - limits.idleMs)
  (left, table.length - left.length)

/-! ## The ledger -/

/-- What the ledger says of a session. -/
structure Session where
  created : Int
  expires : Int
  /-- The sign-in, or the last use that came over a minute after the one recorded before. -/
  recorded : Int
  /-- The latest time at which the session was used. -/
  last : Int
  finished : Bool
  deriving DecidableEq

namespace Session

variable {limits : Limits} {session : Session} {now : Int}

def opened (limits : Limits) (now : Int) : Session where
  created := now
  expires := now + limits.absoluteMs
  recorded := now
  last := now
  finished := false

/-- A request at this time is to be accepted. -/
def Live (limits : Limits) (session : Session) (now : Int) : Prop :=
  session.finished = false ∧ now < session.expires ∧ now - session.recorded ≤ limits.idleMs

instance (limits : Limits) (session : Session) (now : Int) :
    Decidable (session.Live limits now) := by
  unfold Live; infer_instance

def used (session : Session) (now : Int) : Session :=
  { session with
    recorded := if touchEveryMs < now - session.recorded then now else session.recorded
    last := max session.last now }

def ended (session : Session) : Session := { session with finished := true }

/-- A request uses a live session and ends any other. -/
def asked (limits : Limits) (session : Session) (now : Int) : Session :=
  if session.Live limits now then session.used now else session.ended

/-- Pruning ends a session whose time has passed. -/
def pruned (limits : Limits) (session : Session) (now : Int) : Session :=
  if session.expires < now ∨ session.recorded < now - limits.idleMs then session.ended
  else session

/-- The moment after which a session that is not used again is idle or expired. -/
def idleAt (limits : Limits) (session : Session) : Int :=
  min session.expires (session.recorded + limits.idleMs)

/-- The row of a session that is not over. -/
def stored (session : Session) (id : Id) : Option (Row Id) :=
  if session.finished then none
  else some { id, createdAt := session.created, lastSeenAt := session.recorded
              expiresAt := session.expires }

@[simp] theorem ended_finished : session.ended.finished = true := rfl

/-- The idle moment is the last at which the session is live, short of its expiry. -/
theorem live_iff_idleAt (open' : session.finished = false) :
    session.Live limits now ↔ now < session.expires ∧ now ≤ session.idleAt limits := by
  have within : now ≤ session.idleAt limits ↔
      now ≤ session.expires ∧ now ≤ session.recorded + limits.idleMs := Int.le_min
  simp only [Live, open', true_and, within]
  omega

/-- The recorded use lags at most a minute behind the latest one. -/
def Sound (session : Session) : Prop :=
  session.recorded ≤ session.last ∧ session.last ≤ session.recorded + touchEveryMs

theorem sound_opened : (opened limits now).Sound := by
  unfold Sound opened touchEveryMs
  dsimp only
  omega

theorem Sound.used (sound : session.Sound) : (session.used now).Sound := by
  unfold Sound Session.used touchEveryMs at *
  dsimp only
  omega

end Session

abbrev Ledger (Id : Type) := Id → Option Session

/-! ## Runs -/

structure State (Id : Type) where
  table : Table Id := []
  ledger : Ledger Id := fun _ => none

inductive Label (Token Id : Type) where
  | signIn (token : Token) (now : Int)
  | request (token : Token) (now : Int)
  | signOut (id : Id)
  | prune (now : Int)
  deriving DecidableEq

/-- The clock that a step reads. -/
def Label.clock : Label Token Id → Option Int
  | .signIn _ now => some now
  | .request _ now => some now
  | .signOut _ => none
  | .prune now => some now

/-- What a step writes in the ledger. -/
def Ledger.next (hash : Token → Id) (limits : Limits) (ledger : Ledger Id) :
    Label Token Id → Ledger Id
  | .signIn token now => Function.update ledger (hash token) (some (.opened limits now))
  | .request token now => Function.update ledger (hash token)
      ((ledger (hash token)).map fun session => session.asked limits now)
  | .signOut id => Function.update ledger id ((ledger id).map Session.ended)
  | .prune now => fun id => (ledger id).map fun session => session.pruned limits now

/-- A step of the code on the table.  A token is drawn from 32 random bytes, so the one of a
sign-in was not drawn before. -/
def next (hash : Token → Id) (limits : Limits) (state : State Id) (label : Label Token Id) :
    Option (State Id) :=
  let ledger := state.ledger.next hash limits label
  match label with
  | .signIn token now =>
      if (state.ledger (hash token)).isSome then none
      else (createSession hash limits state.table token now).map fun made => ⟨made.1, ledger⟩
  | .request token now => some ⟨(lookupSession hash limits state.table token now).1, ledger⟩
  | .signOut id => some ⟨(endSession state.table id).1, ledger⟩
  | .prune now => some ⟨(pruneSessions limits state.table now).1, ledger⟩

def system (hash : Token → Id) (limits : Limits) : System (State Id) (Label Token Id) where
  start := (· = {})
  next := next hash limits

variable {hash : Token → Id} {limits : Limits} {state after : State Id} {table : Table Id}
variable {label : Label Token Id} {token : Token} {id : Id} {now : Int}

/-- What the ledger has the table hold of an id. -/
def State.stored (state : State Id) (id : Id) : Option (Row Id) :=
  (state.ledger id).bind fun session => session.stored id

/-- The table holds the sessions of the ledger that are not over. -/
def Kept (state : State Id) : Prop :=
  ∀ row, row ∈ state.table ↔ state.stored row.id = some row

omit [DecidableEq Id] in
theorem stored_id {row : Row Id} (stored : state.stored id = some row) : row.id = id := by
  obtain ⟨session, -, holds⟩ := Option.bind_eq_some_iff.mp stored
  unfold Session.stored at holds
  split at holds
  · exact absurd holds (by simp)
  · exact Option.some.inj holds ▸ rfl

/-- A `SELECT` finds what the ledger says. -/
theorem Kept.row_eq (kept : Kept state) : state.table.row id = state.stored id := by
  cases found : state.table.row id with
  | some row =>
      have mem : row ∈ state.table := List.mem_of_find?_eq_some found
      have same : row.id = id := by simpa using List.find?_some found
      rw [← (kept row).mp mem, same]
  | none =>
      cases stored : state.stored id with
      | none => rfl
      | some row =>
          have same := stored_id stored
          have mem : row ∈ state.table := (kept row).mpr (same ▸ stored)
          exact absurd (by simpa using same) (List.find?_eq_none.mp found row mem)

/-- A table and a ledger that agree still do when both write the same at one id. -/
theorem Kept.write (kept : Kept state) {session : Option Session}
    (wrote : ∀ row, row ∈ table ↔
      if row.id = id then (session.bind fun session => session.stored id) = some row
      else row ∈ state.table) :
    Kept ⟨table, Function.update state.ledger id session⟩ := by
  intro row
  rw [wrote row]
  by_cases same : row.id = id
  · subst same
    simp [State.stored]
  · simp only [same, if_false, State.stored, ne_eq, not_false_eq_true, Function.update_of_ne]
    exact kept row

theorem Table.mem_delete {row : Row Id} :
    row ∈ table.delete id ↔ row ∈ table ∧ row.id ≠ id := by
  simp [Table.delete]

theorem Kept.delete (kept : Kept state) {session : Option Session}
    (finished : ∀ entry, session = some entry → entry.finished = true) :
    Kept ⟨state.table.delete id, Function.update state.ledger id session⟩ := by
  apply kept.write
  intro row
  rw [Table.mem_delete]
  by_cases same : row.id = id
  · cases session with
    | none => simp [same]
    | some entry => simp [same, Session.stored, finished entry rfl]
  · simp [same]

/-- A write that leaves the row of an id as it is. -/
theorem Kept.keep (kept : Kept state) {session : Option Session}
    (same : (session.bind fun session => session.stored id) = state.stored id) :
    Kept ⟨state.table, Function.update state.ledger id session⟩ := by
  apply kept.write
  intro row
  split
  next equal =>
    rw [same, kept row, equal]
  next => exact Iff.rfl

theorem Kept.signIn (kept : Kept state) (fresh : state.ledger (hash token) = none)
    {made : Table Id × Created Token Id}
    (created : createSession hash limits state.table token now = some made) :
    Kept ⟨made.1, state.ledger.next hash limits (.signIn token now)⟩ := by
  have none' : state.stored (hash token) = none := by simp [State.stored, fresh]
  have absent : state.table.row (hash token) = none := kept.row_eq.trans none'
  simp only [createSession, absent, Option.some.injEq] at created
  subst created
  apply kept.write
  intro row
  by_cases same : row.id = hash token
  · have out : row ∉ state.table := by
      rw [kept row, same, none']
      simp
    simp only [List.mem_append, List.mem_singleton, out, false_or, same, if_true]
    exact ⟨fun equal => congrArg some equal.symm, fun equal => (Option.some.inj equal).symm⟩
  · have other : ∀ created last expires : Int, row ≠ ⟨hash token, created, last, expires⟩ :=
      fun _ _ _ equal => same (equal ▸ rfl)
    simp [same, other]

/-! ## Requests -/

/-- What a request finds, by the ledger: no session, one that is not live, or a live one. -/
theorem lookupSession_refuses {session : Session} (kept : Kept state)
    (known : state.ledger (hash token) = some session) (dead : ¬ session.Live limits now) :
    (lookupSession hash limits state.table token now).2.accepted = false ∧
      ((lookupSession hash limits state.table token now).1 = state.table.delete (hash token) ∨
        session.finished = true ∧
          (lookupSession hash limits state.table token now).1 = state.table) := by
  have found : state.table.row (hash token) = session.stored (hash token) := by
    rw [kept.row_eq, State.stored, known]
    rfl
  cases finished : session.finished with
  | true =>
      simp only [Session.stored, finished, if_true] at found
      simp [lookupSession, found, Answer.accepted]
  | false =>
      simp only [Session.stored, finished, Bool.false_eq_true, if_false] at found
      simp only [Session.Live, finished, true_and] at dead
      simp only [lookupSession, found]
      split
      next => exact ⟨rfl, .inl rfl⟩
      next early =>
          rw [if_pos (by omega)]
          exact ⟨rfl, .inl rfl⟩

theorem lookupSession_accepts {session : Session} (kept : Kept state)
    (known : state.ledger (hash token) = some session) (live : session.Live limits now) :
    lookupSession hash limits state.table token now =
      (if touchEveryMs < now - session.recorded then state.table.touch (hash token) now
        else state.table,
       .ok (hash token) session.expires ((session.used now).idleAt limits)) := by
  have found : state.table.row (hash token) = session.stored (hash token) := by
    rw [kept.row_eq, State.stored, known]
    rfl
  obtain ⟨finished, early, used⟩ := live
  simp only [Session.stored, finished, Bool.false_eq_true, if_false] at found
  simp only [lookupSession, found]
  rw [if_neg (by omega), if_neg (by omega)]
  rfl

theorem lookupSession_unknown (kept : Kept state) (unknown : state.ledger (hash token) = none) :
    lookupSession hash limits state.table token now = (state.table, .refused .unknown) := by
  have found : state.table.row (hash token) = none := by
    rw [kept.row_eq, State.stored, unknown]
    rfl
  simp only [lookupSession, found]

/-! ## The refinement -/

theorem Kept.touch (kept : Kept state) {session : Session}
    (known : state.ledger id = some session) (late : touchEveryMs < now - session.recorded) :
    Kept ⟨state.table.touch id now,
      Function.update state.ledger id (some (session.used now))⟩ := by
  apply kept.write
  intro row
  have stored : state.stored id = session.stored id := by rw [State.stored, known]; rfl
  have moved : (session.used now).stored id =
      (session.stored id).map fun row => { row with lastSeenAt := now } := by
    simp only [Session.stored, Session.used, late, if_true]
    split <;> rfl
  simp only [Table.touch, List.mem_map, Option.bind_some, moved]
  by_cases same : row.id = id
  · simp only [same, if_true, Option.map_eq_some_iff]
    constructor
    · rintro ⟨old, mem, equal⟩
      by_cases here : old.id = id
      · rw [if_pos here] at equal
        exact ⟨old, by rw [← stored, ← here]; exact (kept old).mp mem, equal⟩
      · simp only [here, if_false] at equal
        exact absurd same (equal ▸ here)
    · rintro ⟨old, holds, equal⟩
      have here : old.id = id := stored_id (stored.trans holds)
      refine ⟨old, (kept old).mpr (here ▸ stored.trans holds), ?_⟩
      simpa only [here, if_true] using equal
  · simp only [same, if_false]
    constructor
    · rintro ⟨old, mem, equal⟩
      by_cases here : old.id = id
      · rw [if_pos here] at equal
        exact absurd (equal ▸ here) same
      · simp only [here, if_false] at equal
        exact equal ▸ mem
    · intro mem
      exact ⟨row, mem, by simp [same]⟩

theorem Kept.request (kept : Kept state) :
    Kept ⟨(lookupSession hash limits state.table token now).1,
      state.ledger.next hash limits (.request token now)⟩ := by
  simp only [Ledger.next]
  cases known : state.ledger (hash token) with
  | none =>
      rw [lookupSession_unknown kept known]
      exact kept.keep (by simp [State.stored, known])
  | some session =>
      simp only [Option.map_some, Session.asked]
      split
      next live =>
          rw [lookupSession_accepts kept known live]
          dsimp only
          split
          next late => exact kept.touch known late
          next soon =>
            refine kept.keep ?_
            simp only [State.stored, known, Option.bind_some, Session.stored, Session.used, soon,
              if_false]
      next dead =>
          obtain ⟨-, gone | ⟨finished, same⟩⟩ := lookupSession_refuses kept known dead
          · rw [gone]
            exact kept.delete fun entry equal => Option.some.inj equal ▸ rfl
          · rw [same]
            refine kept.keep ?_
            simp [State.stored, known, Session.stored, finished]

theorem Kept.signOut (kept : Kept state) :
    Kept ⟨(endSession state.table id).1,
      state.ledger.next hash limits (.signOut id : Label Token Id)⟩ := by
  apply kept.delete
  intro entry equal
  obtain ⟨session, -, rfl⟩ := Option.map_eq_some_iff.mp equal
  rfl

theorem Kept.prune (kept : Kept state) :
    Kept ⟨(pruneSessions limits state.table now).1,
      state.ledger.next hash limits (.prune now : Label Token Id)⟩ := by
  intro row
  have pruned (session : Session) : (session.pruned limits now).stored row.id =
      (session.stored row.id).filter fun row =>
        ¬ (row.expiresAt < now ∨ row.lastSeenAt < now - limits.idleMs) := by
    cases finished : session.finished with
    | true =>
        unfold Session.pruned
        split <;> simp [Session.stored, Session.ended, finished]
    | false =>
        by_cases past : session.expires < now ∨ session.recorded < now - limits.idleMs
        · simp [Session.pruned, Session.stored, Session.ended, past, finished, Option.filter]
        · simp [Session.pruned, Session.stored, past, finished, Option.filter]
  have stored : (State.stored ⟨(pruneSessions limits state.table now).1,
        state.ledger.next hash limits (.prune now : Label Token Id)⟩ row.id) =
      (state.stored row.id).filter fun row =>
        ¬ (row.expiresAt < now ∨ row.lastSeenAt < now - limits.idleMs) := by
    simp only [State.stored, Ledger.next]
    cases state.ledger row.id with
    | none => rfl
    | some session => exact pruned session
  rw [stored, Option.filter_eq_some_iff, ← kept row, pruneSessions]
  exact List.mem_filter

theorem Kept.next (kept : Kept state) (stepped : next hash limits state label = some after) :
    Kept after := by
  cases label with
  | signIn token now =>
      simp only [Sessions.next, Option.isSome_iff_ne_none] at stepped
      split at stepped
      · cases stepped
      next fresh =>
        obtain ⟨made, created, rfl⟩ := Option.map_eq_some_iff.mp stepped
        exact kept.signIn (not_not.mp fresh) created
  | request token now => exact Option.some.inj stepped ▸ kept.request
  | signOut id => exact Option.some.inj stepped ▸ kept.signOut
  | prune now => exact Option.some.inj stepped ▸ kept.prune

/-- What a step does to a session of the ledger: nothing, its end, or a use while live. -/
theorem session_next {session : Session} (known : state.ledger id = some session)
    (stepped : next hash limits state label = some after) :
    ∃ later, after.ledger id = some later ∧
      (later = session ∨ later = session.ended ∨
        ∃ now, label.clock = some now ∧ session.Live limits now ∧ later = session.used now) := by
  cases label with
  | signIn token now =>
      simp only [next] at stepped
      split at stepped
      · cases stepped
      next fresh =>
        obtain ⟨made, -, rfl⟩ := Option.map_eq_some_iff.mp stepped
        have other : id ≠ hash token := by
          rintro rfl
          simp [known] at fresh
        exact ⟨session, by simp [Ledger.next, other, known], .inl rfl⟩
  | request token now =>
      cases stepped
      by_cases same : id = hash token
      · subst same
        refine ⟨session.asked limits now, by simp [Ledger.next, known], ?_⟩
        unfold Session.asked
        split
        next live => exact .inr (.inr ⟨now, rfl, live, rfl⟩)
        next => exact .inr (.inl rfl)
      · exact ⟨session, by simp [Ledger.next, same, known], .inl rfl⟩
  | signOut ended =>
      cases stepped
      by_cases same : id = ended
      · subst same
        exact ⟨session.ended, by simp [Ledger.next, known], .inr (.inl rfl)⟩
      · exact ⟨session, by simp [Ledger.next, same, known], .inl rfl⟩
  | prune now =>
      cases stepped
      refine ⟨session.pruned limits now, by simp [Ledger.next, known], ?_⟩
      unfold Session.pruned
      split
      · exact .inr (.inl rfl)
      · exact .inl rfl

/-- A session of the ledger that a step wrote anew was opened by it. -/
theorem known_next {session : Session} (fresh : state.ledger id = none)
    (stepped : next hash limits state label = some after)
    (known : after.ledger id = some session) : ∃ now, session = .opened limits now := by
  cases label with
  | signIn token now =>
      simp only [next] at stepped
      split at stepped
      · cases stepped
      · obtain ⟨made, -, rfl⟩ := Option.map_eq_some_iff.mp stepped
        by_cases same : id = hash token
        · subst same
          simp only [Ledger.next, Function.update_self, Option.some.injEq] at known
          exact ⟨now, known.symm⟩
        · simp [Ledger.next, same, fresh] at known
  | request token now =>
      cases stepped
      by_cases same : id = hash token
      · subst same
        simp [Ledger.next, fresh] at known
      · simp [Ledger.next, same, fresh] at known
  | signOut ended =>
      cases stepped
      by_cases same : id = ended
      · subst same
        simp [Ledger.next, fresh] at known
      · simp [Ledger.next, same, fresh] at known
  | prune now =>
      cases stepped
      simp [Ledger.next, fresh] at known

/-- What holds in every state that a run comes to. -/
structure Good (state : State Id) : Prop where
  kept : Kept state
  sound : ∀ id session, state.ledger id = some session → session.Sound

omit [DecidableEq Id] in
theorem Good.start : Good ({} : State Id) where
  kept _ := by simp [State.stored]
  sound := by simp

theorem Good.next (good : Good state) (stepped : next hash limits state label = some after) :
    Good after where
  kept := good.kept.next stepped
  sound id session known := by
    cases before : state.ledger id with
    | none =>
        obtain ⟨now, rfl⟩ := known_next before stepped known
        exact Session.sound_opened
    | some entry =>
        have sound := good.sound id entry before
        obtain ⟨later, holds, same | finished | ⟨now, -, -, used⟩⟩ := session_next before stepped
        all_goals
          obtain rfl : later = session := Option.some.inj (holds.symm.trans known)
        · exact same ▸ sound
        · exact finished ▸ sound
        · exact used ▸ sound.used

theorem Good.reachable (reachable : Reachable (system hash limits) always state) : Good state :=
  reachable.invariant Good (fun _ empty => empty ▸ .start)
    fun _ _ _ _ good _ stepped => good.next stepped

/-- The steps whose clock reads no less than `now`. -/
def NotBefore (now : Int) (_ : State Id) (label : Label Token Id) : Prop :=
  ∀ clock, label.clock = some clock → now ≤ clock

/-- A session that is over stays over. -/
theorem finished_onward {session : Session} (known : state.ledger id = some session)
    (finished : session.finished = true)
    (goes : Reachable ((system hash limits).onward state) always after) :
    ∃ later, after.ledger id = some later ∧ later.finished = true := by
  refine goes.invariant (fun after => ∃ later, after.ledger id = some later ∧ later.finished = true)
    (fun _ same => same ▸ ⟨session, known, finished⟩) ?_
  rintro middle label after - ⟨entry, holds, finished⟩ - stepped
  obtain ⟨later, follows, same | ended | ⟨_, -, live, -⟩⟩ := session_next holds stepped
  · exact ⟨later, follows, same ▸ finished⟩
  · exact ⟨later, follows, ended ▸ rfl⟩
  · exact absurd finished (by simp [live.1])

/-- A session that is not live is not live again while the clock does not go back. -/
theorem dead_onward {session : Session} (known : state.ledger id = some session)
    (dead : ¬ session.Live limits now)
    (goes : Reachable ((system hash limits).onward state) (NotBefore now) after) :
    ∃ later, after.ledger id = some later ∧ ∀ time, now ≤ time → ¬ later.Live limits time := by
  refine goes.invariant
    (fun after => ∃ later, after.ledger id = some later ∧
      ∀ time, now ≤ time → ¬ later.Live limits time)
    ?_ ?_
  · rintro _ rfl
    refine ⟨session, known, fun time late live => dead ?_⟩
    obtain ⟨open', early, used⟩ := live
    exact ⟨open', by omega, by omega⟩
  · rintro middle label after - ⟨entry, holds, dead⟩ guarded stepped
    obtain ⟨later, follows, same | ended | ⟨clock, read, live, -⟩⟩ := session_next holds stepped
    · exact ⟨later, follows, same ▸ dead⟩
    · exact ⟨later, follows, fun _ _ live => absurd live.1 (by simp [ended])⟩
    · exact absurd live (dead clock (guarded clock read))

theorem accepted_iff (good : Good state) :
    (lookupSession hash limits state.table token now).2.accepted = true ↔
      ∃ session, state.ledger (hash token) = some session ∧ session.Live limits now := by
  cases known : state.ledger (hash token) with
  | none => simp [lookupSession_unknown good.kept known, Answer.accepted]
  | some session =>
      by_cases live : session.Live limits now
      · simp [lookupSession_accepts good.kept known live, Answer.accepted, live]
      · simp [(lookupSession_refuses good.kept known live).1, live]

/-- In every state that a run of sign-ins, requests, sign-outs and prunings comes to, a token
is accepted exactly when its session is not finished, its expiry is ahead, and no more than the
idle limit has passed since its recorded use, which lags at most a minute behind the latest
one.  The answer tells the moment at which the session goes idle.  A session that is finished is
not accepted again, nor is one that is not live, at any later time. -/
theorem sessions_kept (reachable : Reachable (system hash limits) always state) (token : Token)
    (now : Int) :
    let answer := (lookupSession hash limits state.table token now).2
    (answer.accepted = true ↔
      ∃ session, state.ledger (hash token) = some session ∧ session.Live limits now) ∧
    ∀ session, state.ledger (hash token) = some session →
      (session.recorded ≤ session.last ∧ session.last ≤ session.recorded + touchEveryMs) ∧
      (session.Live limits now → ∃ idleExpiresAt,
        answer = .ok (hash token) session.expires idleExpiresAt ∧
        idleExpiresAt = min session.expires ((session.used now).recorded + limits.idleMs) ∧
        ∀ later, (session.used now).Live limits later ↔
          later < session.expires ∧ later ≤ idleExpiresAt) ∧
      (session.finished = true →
        ∀ after, Reachable ((system hash limits).onward state) always after →
          ∀ later, (lookupSession hash limits after.table token later).2.accepted = false) ∧
      (¬ session.Live limits now →
        ∀ after, Reachable ((system hash limits).onward state) (NotBefore now) after →
          ∀ later, now ≤ later →
            (lookupSession hash limits after.table token later).2.accepted = false) := by
  have good := Good.reachable reachable
  refine ⟨accepted_iff good, fun session known => ⟨good.sound _ session known, ?_, ?_, ?_⟩⟩
  · intro live
    refine ⟨(session.used now).idleAt limits, ?_, rfl, fun later => ?_⟩
    · rw [lookupSession_accepts good.kept known live]
    · exact Session.live_iff_idleAt live.1
  · intro finished after goes later
    have ended := finished_onward known finished goes
    rw [Bool.eq_false_iff, ne_eq, accepted_iff (Good.reachable (reachable.onward goes))]
    rintro ⟨entry, holds, live⟩
    obtain ⟨other, same, finished⟩ := ended
    obtain rfl : other = entry := Option.some.inj (same.symm.trans holds)
    exact absurd finished (by simp [live.1])
  · intro dead after goes later late
    have ended := dead_onward known dead goes
    rw [Bool.eq_false_iff, ne_eq, accepted_iff (Good.reachable (reachable.onward goes.toAlways))]
    rintro ⟨entry, holds, live⟩
    obtain ⟨other, same, dead⟩ := ended
    obtain rfl : other = entry := Option.some.inj (same.symm.trans holds)
    exact dead later late live

/-- A token that is its own id, under the limits that no variable sets. -/
def plain : System (State Nat) (Label Nat Nat) :=
  system (fun token => token) (sessionLimits none none)

theorem sessions_kept_half_an_hour : ∃ state,
    plain.exec always {} [.signIn 7 0, .request 7 60000] = some state ∧
      (lookupSession (fun token => token) (sessionLimits none none) state.table 7
        1800000).2.accepted = true := by
  refine ⟨_, rfl, ?_⟩
  have ran : plain.exec always {} [.signIn 7 0, .request 7 60000] = some _ := rfl
  exact (sessions_kept (Reachable.of_exec (.start rfl) ran) 7 1800000).1.mpr
    ⟨_, rfl, by decide⟩

/-- The idle limit is not counted from the last accepted request: a use a minute after the
sign-in is not recorded, and the session ends half an hour after the sign-in. -/
theorem not_idle_since_last : ¬ ∀ (labels : List (Label Nat Nat)) (state : State Nat),
    plain.exec always {} labels = some state →
    ∀ (token : Nat) (now : Int) (session : Session), state.ledger token = some session →
      ((lookupSession (fun token => token) (sessionLimits none none) state.table token
          now).2.accepted = true ↔
        session.finished = false ∧ now < session.expires ∧
          now - session.last ≤ (sessionLimits none none).idleMs) := by
  intro holds
  have refused := holds [.signIn 7 0, .request 7 60000] _ rfl 7 1860000 _ rfl
  exact absurd refused (by decide)

end Sessions

end TitanRunner
