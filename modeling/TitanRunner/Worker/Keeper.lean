import TitanRunner.Lib.Interleaving
import TitanRunner.Lib.Utf16

/-!
# The pulse keeper

The ticks of `keeper.js` over the settings of the pulse, in any interleaving with each other, with
the commands of the owner's chat, with heartbeats and with the button of the dashboard.  The time
of a pulse is that of its tick, as the keeper records it.
-/

namespace TitanRunner

namespace Keeper

open TransitionSystem System Interleaving Utf16

/-- `HEARTBEAT_STALE_MS` -/
def heartbeatStaleMs : Nat := 15 * 60000

/-- `DISPATCH_GAP_MS` -/
def dispatchGapMs : Nat := 14 * 60000

/-- `FAILURE_COOLDOWN_MS` -/
def failureCooldownMs : Nat := 5 * 60000

/-- A pulse that the keeper started, and whether the owner had paused it. -/
structure Pulse where
  at' : Nat
  paused : Bool
  deriving DecidableEq

/-- The settings of the pulse and the owner's flag; the pulses that the keeper started, and whether
a tick is between its decision and its record. -/
structure Store where
  lastHeartbeatAt : Option Nat := none
  lastDispatchAt : Option Nat := none
  lastAttemptAt : Option Nat := none
  lastKeeperError : Utf16 := []
  pausedByOwner : Bool := false
  pulses : List Pulse := []
  underWay : Bool := false

/-! ## The rule -/

structure Decision where
  fire : Bool
  reason : Utf16
  deriving DecidableEq

/-- A time that is not more than `window` ago. -/
def within (now window : Nat) (at' : Option Nat) : Bool := at'.any (now ≤ · + window)

def keeperDecision (now : Nat) (lastHeartbeatAt lastDispatchAt lastAttemptAt : Option Nat) :
    Decision :=
  if within now heartbeatStaleMs lastHeartbeatAt then ⟨false, ofString "The heartbeat is fresh."⟩
  else if within now dispatchGapMs lastDispatchAt then
    ⟨false, ofString "A dispatch went out less than 14 minutes ago."⟩
  else if within now failureCooldownMs lastAttemptAt then
    ⟨false, ofString "The last dispatch failed less than 5 minutes ago."⟩
  else ⟨true, ofString "The heartbeat is older than 15 minutes."⟩

/-- The decision with the settings of the store and a heartbeat. -/
def Store.decision (store : Store) (now : Nat) (lastHeartbeatAt : Option Nat) : Decision :=
  keeperDecision now lastHeartbeatAt store.lastDispatchAt store.lastAttemptAt

/-- The later one of the heartbeats of the settings and of `state/heartbeat.json`. -/
def newer (lastHeartbeatAt raw : Option Nat) : Option Nat :=
  match lastHeartbeatAt, raw with
  | some at', some raw => some (if at' < raw then raw else at')
  | none, raw => raw
  | lastHeartbeatAt, none => lastHeartbeatAt

/-! ## Commands -/

/-- `text.split(/\s+/)[0]` -/
def firstWord (text : Utf16) : Utf16 := text.takeWhile fun unit => !isSpaceUnit unit

/-- `word.replace(/@\w+$/, '')` -/
def dropMention (word : Utf16) : Utf16 :=
  match word.reverse.dropWhile isWord with
  | 0x40 :: before => if before.length + 1 < word.length then before.reverse else word
  | _ => word

def commandOf (text : Utf16) : Utf16 := (dropMention (firstWord (Utf16.trim text))).map lower

/-- `runCommand`, as far as it writes what the keeper may read -/
def runCommand (store : Store) (text : Utf16) : Store :=
  if commandOf text = ofString "/pause" then { store with pausedByOwner := true }
  else if commandOf text = ofString "/resume" then { store with pausedByOwner := false }
  else store

/-! ## Requests -/

inductive Request where
  | idle
  /-- The settings are read, and the rule fires. -/
  | reading (now : Nat) (lastHeartbeatAt lastDispatchAt lastAttemptAt : Option Nat)
  | dispatching (now : Nat)
  | dispatched (now : Nat)
  /-- In the `catch`. -/
  | failed (now : Nat) (message : Utf16)
  | attempted (message : Utf16)
  | recorded (now : Nat)
  /-- `handleRunPulseNow` has started a pulse. -/
  | pressed
  | done
  deriving DecidableEq

inductive Event where
  | tickKeeper (now : Nat)
  /-- The pulse time of `state/heartbeat.json`; none where it cannot be read. -/
  | rawHeartbeatAt (raw : Option Nat)
  /-- GitHub starts a pulse or not, and the call succeeds or throws. -/
  | dispatch (lands : Bool) (thrown : Option Utf16)
  | statement
  /-- A `setSetting` throws. -/
  | throws (message : Utf16)
  | runCommand (text : Utf16)
  | handlePulseHeartbeat (now : Nat)
  | handleRunPulseNow
  | record (now : Nat)
  /-- The Worker is stopped. -/
  | stop
  deriving DecidableEq

def Store.start (store : Store) (now : Nat) : Store :=
  { store with pulses := ⟨now, store.pausedByOwner⟩ :: store.pulses }

def Store.leave (store : Store) : Store := { store with underWay := false }

/-- A tick is between its decision and its record. -/
def Request.holds : Request → Bool
  | .reading .. | .dispatching _ | .dispatched _ => true
  | _ => false

/-- One statement of a request. -/
def step (store : Store) : Request → Event → Option (Store × Request)
  | .idle, .tickKeeper now =>
      some (if (store.decision now store.lastHeartbeatAt).fire then
          ({ store with underWay := true }, .reading now store.lastHeartbeatAt
            store.lastDispatchAt store.lastAttemptAt)
        else (store, .done))
  | .reading now lastHeartbeatAt lastDispatchAt lastAttemptAt, .rawHeartbeatAt raw =>
      some (if (keeperDecision now (newer lastHeartbeatAt raw) lastDispatchAt lastAttemptAt).fire
        then (store, .dispatching now)
        else (store.leave, .done))
  | .dispatching now, .dispatch lands thrown =>
      let store := if lands then store.start now else store
      some (match thrown with
        | none => (store, .dispatched now)
        | some message => (store.leave, .failed now message))
  | .dispatched now, .statement =>
      some ({ store with lastDispatchAt := some now }.leave, .recorded now)
  | .dispatched now, .throws message => some (store.leave, .failed now message)
  | .failed now message, .statement =>
      some ({ store with lastAttemptAt := some now }, .attempted message)
  | .attempted message, .statement =>
      some ({ store with lastKeeperError := message.take 300 }, .done)
  | .recorded _, .statement => some ({ store with lastKeeperError := [] }, .done)
  | .recorded now, .throws message => some (store, .failed now message)
  | .idle, .runCommand text => some (runCommand store text, .done)
  | .idle, .handlePulseHeartbeat now => some ({ store with lastHeartbeatAt := some now }, .done)
  | .idle, .handleRunPulseNow => some (store, .pressed)
  | .pressed, .record now => some ({ store with lastDispatchAt := some now }, .done)
  | request, .stop => some (if request.holds then store.leave else store, .done)
  | _, _ => none

def program : Program Store Request Event where
  idle := .idle
  step := step

/-- The runs from empty settings. -/
def system (Id : Type) [DecidableEq Id] : System (Pool Id Store Request) (Id × Event) :=
  program.system Id fun store => store = {}

/-! ## Obedience -/

def Pulse.Apart (pulse earlier : Pulse) : Prop :=
  earlier.at' + dispatchGapMs ≤ pulse.at' ∨ pulse.at' + dispatchGapMs ≤ earlier.at'

/-- The keeper starts no pulse while it is paused, and no two within the gap. -/
structure Store.Obeys (store : Store) : Prop where
  paused : ∀ pulse ∈ store.pulses, pulse.paused = false
  spaced : store.pulses.Pairwise Pulse.Apart

/-- A tick goes on only if the keeper is not paused and no other tick is between its decision and
its record, in which the owner does not pause it.  A pulse that starts is reported as started and
recorded, and the button records no time before the last one. -/
def Obedient (store : Store) : Request → Event → Prop
  | .idle, .tickKeeper now => (store.decision now store.lastHeartbeatAt).fire = true →
      store.pausedByOwner = false ∧ store.underWay = false
  | .idle, .runCommand text => commandOf text = ofString "/pause" → store.underWay = false
  | .dispatching _, .dispatch lands thrown => lands = true → thrown = none
  | .dispatched _, event => event = .statement
  | .pressed, .record now => ∀ at' ∈ store.lastDispatchAt, at' ≤ now
  | _, _ => True

instance (store : Store) (request : Request) (event : Event) :
    Decidable (Obedient store request event) := by
  unfold Obedient
  split <;> infer_instance

/-! ## What a tick knows -/

/-- The time is recorded, or a later one. -/
def Store.Records (store : Store) (pulse : Pulse) : Prop :=
  ∃ at', store.lastDispatchAt = some at' ∧ pulse.at' ≤ at'

structure Store.Sound (store : Store) : Prop where
  obeys : store.Obeys
  recorded : store.underWay = false → ∀ pulse ∈ store.pulses, store.Records pulse

/-- What a request knows of the store: a tick on its way is alone, the keeper is not paused, and the
pulses before are far enough away, or recorded by what the tick is about to write. -/
def Knows' (store : Store) : Request → Prop
  | .reading now _ _ _ => store.underWay = true ∧ store.pausedByOwner = false ∧
      ∀ pulse ∈ store.pulses, pulse.at' + dispatchGapMs ≤ now ∧ store.Records pulse
  | .dispatching now => store.underWay = true ∧ store.pausedByOwner = false ∧
      ∀ pulse ∈ store.pulses, pulse.at' + dispatchGapMs ≤ now ∧ store.Records pulse
  | .dispatched now => store.underWay = true ∧ store.pausedByOwner = false ∧
      ∀ pulse ∈ store.pulses, pulse.at' ≤ now
  | _ => True

/-- A tick that is under way is the only one. -/
def Apart (request other : Request) : Prop := request.holds = true → other.holds = false

variable {store after : Store} {request request' other : Request} {event : Event} {now : Nat}

/-- A statement that starts no pulse and does not pause the keeper. -/
structure Gentle (store after : Store) : Prop where
  underWay : after.underWay = store.underWay
  pulses : after.pulses = store.pulses
  paused : store.pausedByOwner = false → after.pausedByOwner = false
  records : ∀ pulse, store.Records pulse → after.Records pulse

theorem Gentle.refl : Gentle store store := ⟨rfl, rfl, id, fun _ => id⟩

theorem Store.Sound.of_gentle (sound : store.Sound) (gentle : Gentle store after) :
    after.Sound := by
  refine ⟨⟨?_, ?_⟩, ?_⟩
  · rw [gentle.pulses]
    exact sound.obeys.paused
  · rw [gentle.pulses]
    exact sound.obeys.spaced
  · rw [gentle.pulses, gentle.underWay]
    exact fun free pulse there => gentle.records pulse (sound.recorded free pulse there)

theorem Knows'.of_gentle (knows : Knows' store request) (gentle : Gentle store after) :
    Knows' after request := by
  cases request with
  | reading | dispatching =>
      obtain ⟨alone, free, far⟩ := knows
      refine ⟨gentle.underWay.trans alone, gentle.paused free, ?_⟩
      rw [gentle.pulses]
      exact fun pulse there => ⟨(far pulse there).1, gentle.records pulse (far pulse there).2⟩
  | dispatched =>
      obtain ⟨alone, free, before⟩ := knows
      refine ⟨gentle.underWay.trans alone, gentle.paused free, ?_⟩
      rw [gentle.pulses]
      exact before
  | _ => trivial

theorem Knows'.underWay (knows : Knows' store request) (holds : request.holds = true) :
    store.underWay = true := by
  cases request with
  | reading | dispatching | dispatched => exact knows.1
  | _ => contradiction

/-- The command pauses the keeper only as `/pause`. -/
theorem gentle_runCommand {text : Utf16} (unpaused : commandOf text ≠ ofString "/pause") :
    Gentle store (runCommand store text) := by
  unfold runCommand
  rw [if_neg unpaused]
  split
  next => exact ⟨rfl, rfl, fun _ => rfl, fun _ => id⟩
  next => exact .refl

/-- The settings that no tick under way depends on. -/
theorem gentle_record (later : ∀ at' ∈ store.lastDispatchAt, at' ≤ now) :
    Gentle store { store with lastDispatchAt := some now } := by
  refine ⟨rfl, rfl, id, ?_⟩
  rintro pulse ⟨at', last, before⟩
  exact ⟨now, rfl, before.trans (later at' last)⟩

/-- While a tick is under way, the other requests are gentle and none sets off. -/
theorem gentle_of_step (underWay : store.underWay = true) (free : request.holds = false)
    (obedient : Obedient store request event)
    (took : step store request event = some (after, request')) :
    Gentle store after ∧ request'.holds = false := by
  unfold step at took
  split at took
  next now =>
    split at took
    next fires =>
      rw [(obedient fires).2] at underWay
      contradiction
    next =>
      cases took
      exact ⟨.refl, rfl⟩
  next => contradiction
  next => contradiction
  next => contradiction
  next => contradiction
  next =>
    cases took
    exact ⟨⟨rfl, rfl, id, fun _ => id⟩, rfl⟩
  next =>
    cases took
    exact ⟨⟨rfl, rfl, id, fun _ => id⟩, rfl⟩
  next =>
    cases took
    exact ⟨⟨rfl, rfl, id, fun _ => id⟩, rfl⟩
  next =>
    cases took
    exact ⟨.refl, rfl⟩
  next text =>
    cases took
    refine ⟨gentle_runCommand fun pause => ?_, rfl⟩
    have noTick : store.underWay = false := obedient pause
    rw [noTick] at underWay
    contradiction
  next =>
    cases took
    exact ⟨⟨rfl, rfl, id, fun _ => id⟩, rfl⟩
  next =>
    cases took
    exact ⟨.refl, rfl⟩
  next =>
    cases took
    exact ⟨gentle_record obedient, rfl⟩
  next =>
    cases took
    rw [if_neg (by simp [free])]
    exact ⟨.refl, rfl⟩
  next => contradiction

/-- A tick that fires is far from the last recorded dispatch. -/
theorem far_of_fires {heartbeat dispatch attempt : Option Nat}
    (fires : (keeperDecision now heartbeat dispatch attempt).fire = true) :
    ∀ at' ∈ dispatch, at' + dispatchGapMs ≤ now := by
  intro at' is
  cases is
  by_contra near
  have recent : within now dispatchGapMs (some at') = true :=
    decide_eq_true (Nat.le_of_lt (Nat.lt_of_not_le near))
  unfold keeperDecision at fires
  rw [recent] at fires
  split at fires <;> contradiction

/-- The tick is through, with its pulses recorded. -/
theorem sound_leave (sound : store.Sound) (recorded : ∀ pulse ∈ store.pulses, store.Records pulse) :
    store.leave.Sound := ⟨⟨sound.obeys.paused, sound.obeys.spaced⟩, fun _ => recorded⟩

/-- A pulse starts. -/
theorem sound_start (sound : store.Sound) (knows : Knows' store (.dispatching now)) :
    (store.start now).Sound ∧ Knows' (store.start now) (.dispatched now) := by
  obtain ⟨alone, free, far⟩ := knows
  refine ⟨⟨⟨?_, ?_⟩, ?_⟩, alone, free, ?_⟩
  · intro pulse there
    cases List.mem_cons.1 there with
    | inl this => exact this ▸ free
    | inr before => exact sound.obeys.paused pulse before
  · refine List.pairwise_cons.2 ⟨fun pulse before => .inl (far pulse before).1, sound.obeys.spaced⟩
  · intro held
    cases alone.symm.trans held
  · intro pulse there
    cases List.mem_cons.1 there with
    | inl this => exact this ▸ Nat.le_refl _
    | inr before => exact (Nat.le_add_right _ _).trans (far pulse before).1

/-- Step lemma for the request itself. -/
theorem knows_of_step (sound : store.Sound) (knows : Knows' store request)
    (obedient : Obedient store request event)
    (took : step store request event = some (after, request')) :
    after.Sound ∧ Knows' after request' := by
  unfold step at took
  split at took
  next now =>
    split at took
    next fires =>
      cases took
      have ⟨unpaused, noTick⟩ := obedient fires
      have far : ∀ pulse ∈ store.pulses, pulse.at' + dispatchGapMs ≤ now ∧ store.Records pulse := by
        intro pulse there
        have records := sound.recorded noTick pulse there
        obtain ⟨at', last, before⟩ := records
        exact ⟨(Nat.add_le_add_right before _).trans (far_of_fires fires at' last),
          at', last, before⟩
      refine ⟨⟨⟨sound.obeys.paused, sound.obeys.spaced⟩, ?_⟩, rfl, unpaused, far⟩
      exact fun _ => sound.recorded noTick
    next =>
      cases took
      exact ⟨sound, trivial⟩
  next =>
    split at took
    next =>
      cases took
      exact ⟨sound, knows⟩
    next =>
      cases took
      exact ⟨sound_leave sound fun pulse there => (knows.2.2 pulse there).2, trivial⟩
  next now lands thrown =>
    cases lands with
    | true =>
        have fine : thrown = none := obedient rfl
        subst fine
        cases took
        exact sound_start sound knows
    | false =>
        obtain ⟨alone, free, far⟩ := knows
        cases thrown with
        | none =>
            cases took
            exact ⟨sound, alone, free, fun pulse there =>
              (Nat.le_add_right _ _).trans (far pulse there).1⟩
        | some message =>
            cases took
            exact ⟨sound_leave sound fun pulse there => (far pulse there).2, trivial⟩
  next now =>
    cases took
    refine ⟨⟨⟨sound.obeys.paused, sound.obeys.spaced⟩, ?_⟩, trivial⟩
    exact fun _ pulse there => ⟨now, rfl, knows.2.2 pulse there⟩
  next =>
    have statement : Event.throws _ = .statement := obedient
    contradiction
  next =>
    cases took
    exact ⟨sound.of_gentle ⟨rfl, rfl, id, fun _ => id⟩, trivial⟩
  next =>
    cases took
    exact ⟨sound.of_gentle ⟨rfl, rfl, id, fun _ => id⟩, trivial⟩
  next =>
    cases took
    exact ⟨sound.of_gentle ⟨rfl, rfl, id, fun _ => id⟩, trivial⟩
  next =>
    cases took
    exact ⟨sound, trivial⟩
  next text =>
    cases took
    refine ⟨?_, trivial⟩
    by_cases pause : commandOf text = ofString "/pause"
    · unfold runCommand
      rw [if_pos pause]
      exact ⟨⟨sound.obeys.paused, sound.obeys.spaced⟩, sound.recorded⟩
    · exact sound.of_gentle (gentle_runCommand pause)
  next =>
    cases took
    exact ⟨sound.of_gentle ⟨rfl, rfl, id, fun _ => id⟩, trivial⟩
  next =>
    cases took
    exact ⟨sound, trivial⟩
  next =>
    cases took
    exact ⟨sound.of_gentle (gentle_record obedient), trivial⟩
  next =>
    cases took
    refine ⟨?_, trivial⟩
    cases request with
    | reading | dispatching =>
        exact sound_leave sound fun pulse there => (knows.2.2 pulse there).2
    | dispatched =>
        have statement : Event.stop = .statement := obedient
        contradiction
    | _ => exact sound
  next => contradiction

theorem respects : program.Respects Obedient Store.Sound Knows' Apart where
  symm {here other} apart holds := by
    cases free : here.holds with
    | false => rfl
    | true =>
        rw [apart free] at holds
        contradiction
  guarantee sound knows obedient took := knows_of_step sound knows obedient took
  rely {shared here event shared' here' other} sound knows known apart obedient took := by
    cases holds : other.holds with
    | true =>
        have free : here.holds = false := by
          cases mine : here.holds with
          | false => rfl
          | true =>
              rw [apart mine] at holds
              contradiction
        have ⟨gentle, free'⟩ := gentle_of_step (known.underWay holds) free obedient took
        refine ⟨known.of_gentle gentle, fun mine => ?_⟩
        rw [free'] at mine
        contradiction
    | false =>
        refine ⟨?_, fun _ => holds⟩
        cases other with
        | reading | dispatching | dispatched => contradiction
        | _ => trivial

/-- In every run in which no tick goes on while the keeper is paused or another tick is on its way,
the owner pauses it between ticks, and every pulse is recorded, the keeper obeys. -/
theorem keeper_obeys (Id : Type) [DecidableEq Id] (pool : Pool Id Store Request)
    (reached : Reachable (system Id) (Program.onStatement Obedient) pool) : pool.shared.Obeys := by
  have known := Program.Respects.reachable respects (fun store started => ⟨?_, trivial⟩) ?_ reached
  · exact known.shared.obeys
  · rw [started]
    exact ⟨⟨by rintro _ ⟨⟩, .nil⟩, by rintro _ _ ⟨⟩⟩
  · intro holds
    contradiction

def begun : Pool Nat Store Request := ⟨{}, fun _ => .idle⟩

theorem begun_start : (system Nat).start begun := ⟨rfl, fun _ => rfl⟩

/-- A tick that starts a pulse and records it. -/
def fires (id now : Nat) : List (Nat × Event) :=
  [(id, .tickKeeper now), (id, .rawHeartbeatAt none), (id, .dispatch true none), (id, .statement),
    (id, .statement)]

/-- The keeper starts a pulse, is paused and resumed, and starts the next one. -/
theorem keeper_obeys_resumed : ∃ pool : Pool Nat Store Request,
    pool.shared.pulses.map Pulse.at' = [1860001, 1020000] ∧ pool.shared.Obeys := by
  let labels := fires 0 1020000 ++ [(1, .runCommand (ofString "/pause")),
    (2, .tickKeeper 1300000), (3, .runCommand (ofString "/resume"))] ++ fires 4 1860001
  have ends : ((system Nat).exec (Program.onStatement Obedient) begun labels).map
      (fun pool => pool.shared.pulses.map Pulse.at') = some [1860001, 1020000] := by
    decide
  obtain ⟨pool, ran, pulses⟩ := Option.map_eq_some_iff.1 ends
  exact ⟨pool, pulses, keeper_obeys Nat pool (.of_exec (.start begun_start) ran)⟩

/-- The keeper starts a pulse after `/pause`. -/
theorem not_keeper_obeys : ¬ ∀ pool : Pool Nat Store Request,
    Reachable (system Nat) always pool → pool.shared.Obeys := by
  intro claimed
  let labels := [(0, .runCommand (ofString "/pause"))] ++ fires 1 1020000
  have ends : ((system Nat).exec always begun labels).map
      (fun pool => pool.shared.pulses) = some [⟨1020000, true⟩] := by
    decide
  obtain ⟨pool, ran, pulses⟩ := Option.map_eq_some_iff.1 ends
  have obeys := claimed pool (Reachable.of_exec (.start begun_start) ran)
  have unpaused := obeys.paused ⟨1020000, true⟩ (pulses ▸ List.mem_cons_self)
  contradiction

end Keeper

end TitanRunner
