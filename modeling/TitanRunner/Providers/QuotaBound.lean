import Mathlib.Algebra.BigOperators.Group.List.Basic
import Mathlib.Algebra.GroupWithZero.Nat
import TitanRunner.Providers.Registry

/-!
# What concurrent calls can spend

The ledger counts a call when it ends with an answer or an HTTP status, and `#skipReason`
looks at the ledger before the call is made.  A window therefore holds, beside the calls on
record, those that are under way and those that ended unrecorded; how far it is overdrawn is
counted here, for the minute and the day at once.
-/

namespace TitanRunner

namespace Providers

open Quota TransitionSystem System

def Event.isSent (id : ProviderId) : Event → Bool
  | .sent other _ => decide (other = id)
  | _ => false

def Event.isRecorded (id : ProviderId) : Event → Bool
  | .recorded other _ => decide (other = id)
  | _ => false

def Event.isLost (id : ProviderId) : Event → Bool
  | .lost other _ => decide (other = id)
  | _ => false

/-- The priority and the time of an admission to a provider. -/
def Event.admission (id : ProviderId) : Event → Option (Option Priority × Nat)
  | .admitted other priority time => if other = id then some (priority, time) else none
  | _ => none

/-- How many events of a kind lie in a window. -/
def countIn (kind : Event → Bool) (span : Span) (window : Nat) (trace : List Event) : Nat :=
  trace.countP fun event => kind event && decide (span.windowOf event.time = window)

namespace World

variable (world : World)

/-- The requests that a provider was sent in a window. -/
def requestsIn (span : Span) (window : Nat) (id : ProviderId) : Nat :=
  countIn (Event.isSent id) span window world.trace

/-- The calls of a provider that were recorded in a window. -/
def recordedIn (span : Span) (window : Nat) (id : ProviderId) : Nat :=
  countIn (Event.isRecorded id) span window world.trace

/-- The calls of a provider that ended unrecorded in a window. -/
def lostIn (span : Span) (window : Nat) (id : ProviderId) : Nat :=
  countIn (Event.isLost id) span window world.trace

/-- The requests of the calls that are under way. -/
def sentAt (id : ProviderId) : Nat :=
  (world.calls.map fun call => if call.provider = id then call.sent else 0).sum

/-- The latest admission to a provider. -/
def lastAdmission (id : ProviderId) : Option (Option Priority × Nat) :=
  world.trace.findSome? (Event.admission id)

end World

section Counting

variable {kind : Event → Bool} {span : Span} {window : Nat} {trace : List Event} {event : Event}

theorem countIn_cons : countIn kind span window (event :: trace) = countIn kind span window trace +
    if kind event ∧ span.windowOf event.time = window then 1 else 0 := by
  simp only [countIn, List.countP_cons, Bool.and_eq_true, decide_eq_true_eq]

/-- An event of another window does not count. -/
theorem countIn_cons_of_window (other : span.windowOf event.time ≠ window) :
    countIn kind span window (event :: trace) = countIn kind span window trace := by
  rw [countIn_cons, if_neg fun both => other both.2, Nat.add_zero]

/-- A window that has not begun holds nothing. -/
theorem countIn_eq_zero {now : Nat} (past : ∀ event ∈ trace, event.time ≤ now)
    (later : span.windowOf now < window) : countIn kind span window trace = 0 := by
  apply List.countP_eq_zero.2
  intro event inside both
  have before : span.windowOf event.time ≤ span.windowOf now := Nat.div_le_div_right (past event inside)
  simp only [Bool.and_eq_true, decide_eq_true_eq] at both
  omega

end Counting

section Calls

variable {world : World} {index : Nat} {call : Call} {id : ProviderId}

/-- The call of an index and the others. -/
theorem perm_eraseIdx (found : world.calls[index]? = some call) :
    world.calls.Perm (call :: world.calls.eraseIdx index) := by
  have ⟨inside, same⟩ := List.getElem?_eq_some_iff.1 found
  exact same ▸ (List.getElem_cons_eraseIdx_perm inside).symm

theorem perm_set (found : world.calls[index]? = some call) (after : Call) :
    (world.calls.set index after).Perm (after :: world.calls.eraseIdx index) :=
  have ⟨inside, _⟩ := List.getElem?_eq_some_iff.1 found
  List.set_perm_cons_eraseIdx inside after

theorem mem_of_activeCall (found : world.activeCall index = some call) :
    world.calls[index]? = some call :=
  (Option.filter_eq_some_iff.1 found).1

end Calls

/-- What holds of the trace and the calls under way in every run. -/
structure Accounted (world : World) : Prop where
  past : ∀ event ∈ world.trace, event.time ≤ world.now
  peaked : ∀ id, world.openAt id ≤ world.peak id
  few : ∀ call ∈ world.calls, call.sent ≤ maxRequests call.provider
  onRecord : ∀ span id, world.recordedIn span (span.windowOf world.now) id ≤
    world.ledger.used span world.now id
  /-- A request was sent by a call that ended since the window began or is under way. -/
  spent : ∀ span id, world.requestsIn span (span.windowOf world.now) id ≤
    maxRequests id * (world.recordedIn span (span.windowOf world.now) id +
      world.lostIn span (span.windowOf world.now) id) + world.sentAt id

/-- The windows since `first` hold at most `cap` calls beside those that were open at once and
those that were lost. -/
structure Capped (span : Span) (id : ProviderId) (cap first : Nat) (world : World) : Prop where
  held : world.recordedIn span (span.windowOf world.now) id + world.openAt id ≤ cap + world.peak id
  bounded : ∀ window, first ≤ window → window < span.windowOf world.now →
    world.requestsIn span window id ≤
      maxRequests id * (cap + world.peak id + world.lostIn span window id)

section Bound

variable {world : World} {span : Span} {id : ProviderId} {cap first : Nat}

theorem Accounted.sentAt_le (accounted : Accounted world) (id : ProviderId) :
    world.sentAt id ≤ maxRequests id * world.openAt id := by
  have few := accounted.few
  simp only [World.sentAt, World.openAt]
  generalize world.calls = calls at few ⊢
  induction calls with
  | nil => simp
  | cons call rest ih =>
      have here := few call List.mem_cons_self
      have others := ih fun call inside => few call (List.mem_cons_of_mem _ inside)
      simp only [List.map_cons, List.sum_cons, List.countP_cons, decide_eq_true_eq]
      split
      next same =>
        rw [same] at here
        rw [Nat.mul_add, Nat.mul_one]
        omega
      next => rwa [Nat.zero_add, Nat.add_zero]

/-- The bound, for every window since `first`. -/
theorem Capped.requests_le (capped : Capped span id cap first world)
    (accounted : Accounted world) {window : Nat} (since : first ≤ window) :
    world.requestsIn span window id ≤
      maxRequests id * (cap + world.peak id + world.lostIn span window id) := by
  cases Nat.lt_trichotomy window (span.windowOf world.now) with
  | inl before => exact capped.bounded window since before
  | inr rest =>
      cases rest with
      | inl current =>
          subst current
          calc world.requestsIn span (span.windowOf world.now) id
            _ ≤ maxRequests id * (world.recordedIn span (span.windowOf world.now) id +
                  world.lostIn span (span.windowOf world.now) id) + world.sentAt id :=
                accounted.spent span id
            _ ≤ maxRequests id * (world.recordedIn span (span.windowOf world.now) id +
                  world.lostIn span (span.windowOf world.now) id) +
                  maxRequests id * world.openAt id :=
                Nat.add_le_add_left (accounted.sentAt_le id) _
            _ = maxRequests id * (world.recordedIn span (span.windowOf world.now) id +
                  world.openAt id + world.lostIn span (span.windowOf world.now) id) := by
                rw [← Nat.mul_add, Nat.add_right_comm]
            _ ≤ maxRequests id *
                  (cap + world.peak id + world.lostIn span (span.windowOf world.now) id) :=
                Nat.mul_le_mul_left _ (Nat.add_le_add_right capped.held _)
      | inr later =>
          rw [World.requestsIn, countIn_eq_zero accounted.past later]
          exact Nat.zero_le _

end Bound

/-! ## One step -/

section Steps

variable {world : World} {span : Span} {id : ProviderId} {cap first : Nat}

/-- The clock stays in its window or leaves it for a later one. -/
theorem windowOf_add (span : Span) (now ms : Nat) : span.windowOf now = span.windowOf (now + ms) ∨
    span.windowOf now < span.windowOf (now + ms) :=
  Nat.eq_or_lt_of_le (Nat.div_le_div_right (Nat.le_add_right now ms))

theorem Accounted.tick (accounted : Accounted world) (ms : Nat) :
    Accounted { world with now := world.now + ms } where
  past event inside := Nat.le_trans (accounted.past event inside) (Nat.le_add_right _ _)
  peaked := accounted.peaked
  few := accounted.few
  onRecord span id := by
    cases windowOf_add span world.now ms with
    | inl same =>
        have counted := accounted.onRecord span id
        rw [Ledger.used_congr same] at counted
        rwa [same] at counted
    | inr later => exact Nat.le_trans (Nat.le_of_eq (countIn_eq_zero accounted.past later)) (Nat.zero_le _)
  spent span id := by
    cases windowOf_add span world.now ms with
    | inl same =>
        have spent := accounted.spent span id
        rwa [same] at spent
    | inr later => exact Nat.le_trans (Nat.le_of_eq (countIn_eq_zero accounted.past later)) (Nat.zero_le _)

theorem Capped.tick (capped : Capped span id cap first world) (accounted : Accounted world)
    (ms : Nat) : Capped span id cap first { world with now := world.now + ms } where
  held := by
    cases windowOf_add span world.now ms with
    | inl same =>
        have held := capped.held
        rwa [same] at held
    | inr later =>
        have none : world.recordedIn span (span.windowOf (world.now + ms)) id = 0 :=
          countIn_eq_zero accounted.past later
        calc world.recordedIn span (span.windowOf (world.now + ms)) id + world.openAt id
          _ = world.openAt id := by rw [none, Nat.zero_add]
          _ ≤ cap + world.peak id := Nat.le_trans (accounted.peaked id) (Nat.le_add_left _ _)
  bounded _ since _ := capped.requests_le accounted since

/-- The ledger may be brought up to date. -/
theorem Accounted.withLedger (accounted : Accounted world) {ledger : Ledger}
    (same : ∀ span id, ledger.used span world.now id = world.ledger.used span world.now id) :
    Accounted { world with ledger } where
  past := accounted.past
  peaked := accounted.peaked
  few := accounted.few
  onRecord span id := Nat.le_trans (accounted.onRecord span id) (Nat.le_of_eq (same span id).symm)
  spent := accounted.spent

/-- An admission on the trace changes no count. -/
theorem Accounted.admitted (accounted : Accounted world) (id : ProviderId)
    (priority : Option Priority) :
    Accounted { world with trace := .admitted id priority world.now :: world.trace } where
  past event inside := by
    cases List.mem_cons.1 inside with
    | inl same => exact Nat.le_of_eq (congrArg Event.time same)
    | inr before => exact accounted.past event before
  peaked := accounted.peaked
  few := accounted.few
  onRecord := accounted.onRecord
  spent := accounted.spent

theorem Accounted.push (accounted : Accounted world) {call : Call} (fresh : call.sent = 0) :
    Accounted (world.push call) where
  past := accounted.past
  peaked id := Nat.le_max_right _ _
  few other inside := by
    cases List.mem_cons.1 inside with
    | inl same => rw [same, fresh]; exact Nat.zero_le _
    | inr before => exact accounted.few other before
  onRecord := accounted.onRecord
  spent span id := by
    have same : (world.push call).sentAt id = world.sentAt id := by
      simp only [World.sentAt, World.push, List.map_cons, List.sum_cons, fresh, ite_self,
        Nat.zero_add]
    rw [same]
    exact accounted.spent span id

theorem World.openAt_push (call : Call) (id : ProviderId) : (world.push call).openAt id =
    world.openAt id + if call.provider = id then 1 else 0 := by
  simp only [World.openAt, World.push, List.countP_cons, decide_eq_true_eq]

/-- A call to another provider leaves the cap. -/
theorem Capped.push (capped : Capped span id cap first world) {call : Call}
    (room : call.provider = id → world.recordedIn span (span.windowOf world.now) id ≤ cap) :
    Capped span id cap first (world.push call) where
  held := by
    have peaked : (world.push call).openAt id ≤ (world.push call).peak id := Nat.le_max_right _ _
    have grown : world.peak id ≤ (world.push call).peak id := Nat.le_max_left _ _
    have held := capped.held
    have opened := world.openAt_push call id
    show world.recordedIn span (span.windowOf world.now) id + (world.push call).openAt id ≤ _
    cases decEq call.provider id with
    | isTrue same =>
        have short := room same
        omega
    | isFalse other =>
        rw [if_neg other] at opened
        omega
  bounded window since before := by
    have grown : world.peak id ≤ (world.push call).peak id := Nat.le_max_left _ _
    exact Nat.le_trans (capped.bounded window since before)
      (Nat.mul_le_mul_left _ (Nat.add_le_add_right (Nat.add_le_add_left grown _) _))

/-- A call that finds room opens a cap from its window on. -/
theorem Capped.of_push {call : Call}
    (room : world.recordedIn span (span.windowOf world.now) id ≤ cap) :
    Capped span id cap (span.windowOf world.now) (world.push call) where
  held := Nat.add_le_add room (Nat.le_max_right _ _)
  bounded _ since before := absurd before (Nat.not_lt.2 since)

theorem World.openAt_drop {index : Nat} {call : Call} (event : Event) (id : ProviderId)
    (found : world.calls[index]? = some call) : world.openAt id =
      (world.drop index event).openAt id + if call.provider = id then 1 else 0 := by
  simp only [World.openAt, (perm_eraseIdx found).countP_eq, List.countP_cons, decide_eq_true_eq,
    World.drop]

theorem World.sentAt_drop {index : Nat} {call : Call} (event : Event) (id : ProviderId)
    (found : world.calls[index]? = some call) : world.sentAt id =
      (world.drop index event).sentAt id + if call.provider = id then call.sent else 0 := by
  rw [World.sentAt, ((perm_eraseIdx found).map _).sum_eq, List.map_cons, List.sum_cons,
    Nat.add_comm]
  rfl

/-- The world with a call changed in place. -/
def World.change (world : World) (index : Nat) (call : Call) : World :=
  { world with calls := world.calls.set index call }

theorem World.openAt_change {index : Nat} {call : Call} (later : Call) (id : ProviderId)
    (found : world.calls[index]? = some call) (same : later.provider = call.provider) :
    (world.change index later).openAt id = world.openAt id := by
  simp only [World.openAt, World.change, (perm_eraseIdx found).countP_eq,
    (perm_set found later).countP_eq, List.countP_cons, same]

theorem World.sentAt_change {index : Nat} {call : Call} (later : Call) (id : ProviderId)
    (found : world.calls[index]? = some call) (same : later.provider = call.provider) :
    (world.change index later).sentAt id + (if call.provider = id then call.sent else 0) =
      world.sentAt id + if call.provider = id then later.sent else 0 := by
  simp only [World.sentAt, World.change, ((perm_eraseIdx found).map _).sum_eq,
    ((perm_set found later).map _).sum_eq, List.map_cons, List.sum_cons, same]
  omega

theorem Accounted.change (accounted : Accounted world) {index : Nat} {call later : Call}
    (found : world.calls[index]? = some call) (same : later.provider = call.provider)
    (sent : later.sent = call.sent) : Accounted (world.change index later) where
  past := accounted.past
  peaked id := Nat.le_trans (Nat.le_of_eq (World.openAt_change later id found same)) (accounted.peaked id)
  few other inside := by
    cases List.mem_or_eq_of_mem_set inside with
    | inl before => exact accounted.few other before
    | inr here =>
        rw [here, sent, same]
        exact accounted.few call (List.mem_of_getElem? found)
  onRecord := accounted.onRecord
  spent span id := by
    have changed := World.sentAt_change later id found same
    have spent := accounted.spent span id
    rw [sent] at changed
    rw [show (world.change index later).sentAt id = world.sentAt id by omega]
    exact spent

/-- A request goes out. -/
theorem Accounted.request (accounted : Accounted world) {index : Nat} {call : Call}
    (found : world.calls[index]? = some call) (short : call.sent < maxRequests call.provider) :
    Accounted { world.change index { call with sent := call.sent + 1 } with
      trace := .sent call.provider world.now :: world.trace } where
  past event inside := by
    cases List.mem_cons.1 inside with
    | inl same => exact Nat.le_of_eq (congrArg Event.time same)
    | inr before => exact accounted.past event before
  peaked id := Nat.le_trans (Nat.le_of_eq (World.openAt_change { call with sent := call.sent + 1 } id found rfl)) (accounted.peaked id)
  few other inside := by
    cases List.mem_or_eq_of_mem_set inside with
    | inl before => exact accounted.few other before
    | inr here => rw [here]; exact short
  onRecord := accounted.onRecord
  spent span id := by
    have changed := World.sentAt_change { call with sent := call.sent + 1 } id found rfl
    have spent := accounted.spent span id
    have counted : countIn (Event.isSent id) span (span.windowOf world.now)
        (.sent call.provider world.now :: world.trace) =
        world.requestsIn span (span.windowOf world.now) id +
          if call.provider = id then 1 else 0 := by
      rw [countIn_cons]
      simp only [Event.isSent, Event.time, decide_eq_true_eq, and_true]
      rfl
    apply Nat.le_trans (Nat.le_of_eq counted)
    show _ ≤ maxRequests id * (world.recordedIn span (span.windowOf world.now) id +
      world.lostIn span (span.windowOf world.now) id) +
      (world.change index { call with sent := call.sent + 1 }).sentAt id
    dsimp only at changed
    split
    next same =>
      rw [if_pos same, if_pos same] at changed
      omega
    next other =>
      rw [if_neg other, if_neg other] at changed
      omega

/-- The requests of a call that ends are those of a call that ended. -/
theorem Accounted.spent_drop (accounted : Accounted world) {index : Nat} {call : Call}
    (found : world.calls[index]? = some call) (event : Event) (span : Span) (id : ProviderId) :
    world.requestsIn span (span.windowOf world.now) id ≤
      maxRequests id * (world.recordedIn span (span.windowOf world.now) id +
        world.lostIn span (span.windowOf world.now) id + if call.provider = id then 1 else 0) +
        (world.drop index event).sentAt id := by
  have spent := accounted.spent span id
  have dropped := World.sentAt_drop event id found
  have few := accounted.few call (List.mem_of_getElem? found)
  split
  next same =>
    rw [if_pos same] at dropped
    rw [same] at few
    rw [Nat.mul_add, Nat.mul_one]
    omega
  next other =>
    rw [if_neg other] at dropped
    rw [Nat.add_zero]
    omega

/-- The peak is of calls that were open. -/
theorem Accounted.peaked_drop (accounted : Accounted world) {index : Nat} {call : Call}
    (found : world.calls[index]? = some call) (event : Event) (id : ProviderId) :
    (world.drop index event).openAt id ≤ world.peak id := by
  have peaked := accounted.peaked id
  have dropped := World.openAt_drop event id found
  omega

theorem Accounted.past_cons (accounted : Accounted world) {event : Event}
    (here : event.time = world.now) : ∀ other ∈ event :: world.trace, other.time ≤ world.now := by
  intro other inside
  cases List.mem_cons.1 inside with
  | inl same => exact Nat.le_of_eq (same ▸ here)
  | inr before => exact accounted.past other before

/-- A call ends on record. -/
theorem Accounted.recorded (accounted : Accounted world) {index : Nat} {call : Call}
    (found : world.calls[index]? = some call) (tokens status : Option Nat) :
    Accounted { world.drop index (.recorded call.provider world.now) with
      ledger := world.ledger.record world.now call.provider tokens status } where
  past := accounted.past_cons rfl
  peaked := accounted.peaked_drop found (.recorded call.provider world.now)
  few other inside := accounted.few other (List.mem_of_mem_eraseIdx inside)
  onRecord span id := by
    have counted := accounted.onRecord span id
    show countIn (Event.isRecorded id) span (span.windowOf world.now)
      (.recorded call.provider world.now :: world.trace) ≤
        (world.ledger.record world.now call.provider tokens status).used span world.now id
    rw [countIn_cons, Ledger.used_record]
    simp only [Event.isRecorded, Event.time, decide_eq_true_eq, and_true, eq_comm (a := id)]
    exact Nat.add_le_add_right counted _
  spent span id := by
    apply Nat.le_trans (accounted.spent_drop found (.recorded call.provider world.now) span id)
    apply Nat.add_le_add_right
    apply Nat.mul_le_mul_left
    show _ ≤ countIn (Event.isRecorded id) span (span.windowOf world.now)
      (.recorded call.provider world.now :: world.trace) + _
    rw [countIn_cons]
    simp only [Event.isRecorded, Event.time, decide_eq_true_eq, and_true]
    exact Nat.le_of_eq (Nat.add_right_comm _ _ _)

/-- A call ends unrecorded. -/
theorem Accounted.lost (accounted : Accounted world) {index : Nat} {call : Call}
    (found : world.calls[index]? = some call) :
    Accounted (world.drop index (.lost call.provider world.now)) where
  past := accounted.past_cons rfl
  peaked := accounted.peaked_drop found _
  few other inside := accounted.few other (List.mem_of_mem_eraseIdx inside)
  onRecord := accounted.onRecord
  spent span id := by
    apply Nat.le_trans (accounted.spent_drop found (.lost call.provider world.now) span id)
    apply Nat.add_le_add_right
    apply Nat.mul_le_mul_left
    show _ ≤ world.recordedIn span (span.windowOf world.now) id +
      countIn (Event.isLost id) span (span.windowOf world.now)
        (.lost call.provider world.now :: world.trace)
    rw [countIn_cons]
    simp only [Event.isLost, Event.time, decide_eq_true_eq, and_true]
    exact Nat.le_of_eq (Nat.add_assoc _ _ _)

/-- What happens now leaves the windows that are over. -/
theorem countIn_cons_before {kind : Event → Bool} {window now : Nat} {trace : List Event}
    {event : Event} (here : event.time = now) (before : window < span.windowOf now) :
    countIn kind span window (event :: trace) = countIn kind span window trace := by
  apply countIn_cons_of_window
  rw [here]
  exact Nat.ne_of_gt before

/-- A step that makes no more calls leaves the cap. -/
theorem Capped.of_held (capped : Capped span id cap first world) (after : World) (event : Event)
    (here : event.time = world.now) (trace : after.trace = event :: world.trace)
    (now : after.now = world.now) (peak : after.peak = world.peak)
    (held : after.recordedIn span (span.windowOf world.now) id + after.openAt id ≤
      world.recordedIn span (span.windowOf world.now) id + world.openAt id) :
    Capped span id cap first after where
  held := by
    rw [now, peak]
    exact Nat.le_trans held capped.held
  bounded window since before := by
    rw [now] at before
    rw [World.requestsIn, World.lostIn, trace, countIn_cons_before here before,
      countIn_cons_before here before, peak]
    exact capped.bounded window since before

theorem Capped.recorded (capped : Capped span id cap first world) {index : Nat} {call : Call}
    (found : world.calls[index]? = some call) (ledger : Ledger) :
    Capped span id cap first
      { world.drop index (.recorded call.provider world.now) with ledger } := by
  refine capped.of_held _ (.recorded call.provider world.now) rfl rfl rfl rfl ?_
  show countIn (Event.isRecorded id) span (span.windowOf world.now)
      (.recorded call.provider world.now :: world.trace) +
    (world.drop index (.recorded call.provider world.now)).openAt id ≤ _
  rw [countIn_cons, World.openAt_drop (.recorded call.provider world.now) id found]
  simp only [Event.isRecorded, Event.time, decide_eq_true_eq, and_true]
  exact Nat.le_of_eq (by rw [World.recordedIn]; omega)

theorem Capped.lost (capped : Capped span id cap first world) {index : Nat} {call : Call}
    (found : world.calls[index]? = some call) :
    Capped span id cap first (world.drop index (.lost call.provider world.now)) := by
  refine capped.of_held _ (.lost call.provider world.now) rfl rfl rfl rfl ?_
  rw [World.openAt_drop (.lost call.provider world.now) id found]
  exact Nat.add_le_add_left (Nat.le_add_right _ _) _

theorem Capped.request (capped : Capped span id cap first world) {index : Nat} {call : Call}
    (found : world.calls[index]? = some call) :
    Capped span id cap first { world.change index { call with sent := call.sent + 1 } with
      trace := .sent call.provider world.now :: world.trace } := by
  refine capped.of_held _ (.sent call.provider world.now) rfl rfl rfl rfl ?_
  exact Nat.add_le_add_left (Nat.le_of_eq (World.openAt_change { call with sent := call.sent + 1 } id found rfl)) _

theorem Capped.admitted (capped : Capped span id cap first world) (other : ProviderId)
    (priority : Option Priority) : Capped span id cap first
      { world with trace := .admitted other priority world.now :: world.trace } := by
  refine capped.of_held _ (.admitted other priority world.now) rfl rfl rfl rfl ?_
  exact Nat.le_refl _

theorem Capped.change (capped : Capped span id cap first world) {index : Nat} {call later : Call}
    (found : world.calls[index]? = some call) (same : later.provider = call.provider) :
    Capped span id cap first (world.change index later) where
  held := by
    rw [World.openAt_change later id found same]
    exact capped.held
  bounded := capped.bounded

end Steps

/-! ## The loop over the providers -/

/-- What a look at the ledger leaves as it is. -/
structure Agrees (now : Nat) (ledger after : Ledger) : Prop where
  limits : after.limits = ledger.limits
  reserveOf : after.reserveOf = ledger.reserveOf
  used : ∀ span id, after.used span now id = ledger.used span now id

section Walk

variable {now : Nat} {ledger : Ledger} {readings : Readings} {opts : Options} {id : ProviderId}

theorem Agrees.refl : Agrees now ledger ledger := ⟨rfl, rfl, fun _ _ => rfl⟩

theorem Agrees.trans {middle after : Ledger} (first : Agrees now ledger middle)
    (second : Agrees now middle after) : Agrees now ledger after where
  limits := second.limits.trans first.limits
  reserveOf := second.reserveOf.trans first.reserveOf
  used span id := (second.used span id).trans (first.used span id)

theorem agrees_windows : Agrees now ledger (ledger.windows now id) :=
  ⟨rfl, rfl, fun _ _ => Ledger.used_windows⟩

theorem Agrees.limitFor {after : Ledger} (agrees : Agrees now ledger after) (id : ProviderId) :
    after.limitFor id = ledger.limitFor id := by
  rw [Ledger.limitFor, agrees.limits, Ledger.limitFor]

theorem Agrees.reserve {after : Ledger} (agrees : Agrees now ledger after) (id : ProviderId)
    (priority : Option Priority) : after.reserve id priority = ledger.reserve id priority := by
  rw [Ledger.reserve, agrees.limitFor, agrees.reserveOf, Ledger.reserve]

/-- The ledger has room for one call more. -/
structure HasRoom (ledger : Ledger) (now : Nat) (id : ProviderId) (priority : Option Priority) :
    Prop where
  limit : ∀ span, ledger.used span now id < (ledger.limitFor id).per span
  reserve : ledger.used .day now id + ledger.reserve id priority < (ledger.limitFor id).perDay

theorem HasRoom.of_agrees {after : Ledger} {priority : Option Priority}
    (room : HasRoom after now id priority) (agrees : Agrees now ledger after) :
    HasRoom ledger now id priority where
  limit span := by
    rw [← agrees.used, ← agrees.limitFor]
    exact room.limit span
  reserve := by
    rw [← agrees.used, ← agrees.limitFor, ← agrees.reserve]
    exact room.reserve

theorem agrees_skipReason (ledger : Ledger) (now : Nat) (readings : Readings) (opts : Options)
    (id : ProviderId) : Agrees now ledger (skipReason ledger now readings opts id).1 := by
  simp only [skipReason]
  split
  · exact .refl
  · exact .refl
  · split
    · exact agrees_windows
    · exact agrees_windows

/-- A provider that is not skipped has room. -/
theorem hasRoom_of_skipReason (called : (skipReason ledger now readings opts id).2 = none) :
    HasRoom ledger now id opts.priority := by
  simp only [skipReason] at called
  split at called
  · contradiction
  · contradiction
  · split at called
    · contradiction
    next free =>
      have ok : (ledger.canSpend now id opts.priority).ok = true := by
        rw [Verdict.ok, free]
        rfl
      have ⟨limit, reserve⟩ := Ledger.used_of_canSpend ok
      exact ⟨limit, reserve⟩

theorem agrees_walk {tried : Nat} {rest : List ProviderId} :
    Agrees now ledger (walk now readings opts tried rest ledger).1 := by
  induction rest generalizing ledger with
  | nil => exact .refl
  | cons id rest ih =>
      simp only [walk]
      split
      · exact .refl
      · split
        · have agrees := agrees_skipReason ledger now readings opts id
          split
          next after skip skipped =>
            rw [skipped] at agrees
            exact agrees.trans ih
          next after skipped =>
            rw [skipped] at agrees
            exact agrees
        · exact ih

/-- The loop ends with a call only where there is room. -/
theorem hasRoom_of_walk {tried : Nat} {rest : List ProviderId} {call : Call}
    (walked : (walk now readings opts tried rest ledger).2 = some call) :
    HasRoom ledger now call.provider opts.priority ∧ call.sent = 0 := by
  induction rest generalizing ledger with
  | nil => contradiction
  | cons id rest ih =>
      simp only [walk] at walked
      split at walked
      · contradiction
      · split at walked
        · have agrees := agrees_skipReason ledger now readings opts id
          split at walked
          next after skip skipped =>
            rw [skipped] at agrees
            have ⟨room, fresh⟩ := ih walked
            exact ⟨room.of_agrees agrees, fresh⟩
          next after skipped =>
            cases walked
            exact ⟨hasRoom_of_skipReason (by rw [skipped]), rfl⟩
        · exact ih walked

end Walk

/-! ## Runs -/

/-- The cap of a window: a call is let through while the count is below the limit. -/
def windowCap (ledger : Ledger) (span : Span) (id : ProviderId) : Nat :=
  (ledger.limitFor id).per span - 1

/-- The cap of the day for a priority, whose calls leave the reserve. -/
def reserveCap (ledger : Ledger) (id : ProviderId) (priority : Option Priority) : Nat :=
  (ledger.limitFor id).perDay - ledger.reserve id priority - 1

/-- What every reachable world keeps. -/
structure Kept (world : World) : Prop where
  accounted : Accounted world
  capped : ∀ span id, id ≠ .omniroute →
    Capped span id (windowCap world.ledger span id) 0 world
  reserved : ∀ id priority time, id ≠ .omniroute →
    world.lastAdmission id = some (priority, time) →
    Capped .day id (reserveCap world.ledger id priority) (Span.windowOf .day time) world

namespace Kept

variable {world : World}

theorem withLedger (kept : Kept world) {ledger : Ledger}
    (agrees : Agrees world.now world.ledger ledger) : Kept { world with ledger } where
  accounted := kept.accounted.withLedger agrees.used
  capped span id direct := by
    have capped := kept.capped span id direct
    rw [windowCap, ← agrees.limitFor] at capped
    exact ⟨capped.held, capped.bounded⟩
  reserved id priority time direct last := by
    have capped := kept.reserved id priority time direct last
    rw [reserveCap, ← agrees.limitFor, ← agrees.reserve] at capped
    exact ⟨capped.held, capped.bounded⟩

/-- A call that finds room is admitted. -/
theorem admission (kept : Kept world) {call : Call} {priority : Option Priority}
    (fresh : call.sent = 0) (room : HasRoom world.ledger world.now call.provider priority) :
    Kept { world.push call with
      trace := .admitted call.provider priority world.now :: world.trace } where
  accounted := (kept.accounted.push fresh).admitted call.provider priority
  capped span id direct := by
    apply ((kept.capped span id direct).push _).admitted
    intro same
    have recorded := kept.accounted.onRecord span id
    have free := room.limit span
    rw [same] at free
    exact Nat.le_sub_one_of_lt (Nat.lt_of_le_of_lt recorded free)
  reserved id other time direct last := by
    have recorded := kept.accounted.onRecord .day id
    simp only [World.lastAdmission, List.findSome?_cons, Event.admission] at last
    cases decEq call.provider id with
    | isTrue same =>
        rw [if_pos same] at last
        cases last
        have free := room.reserve
        rw [same] at free
        apply Capped.admitted
        apply Capped.of_push
        show _ ≤ (world.ledger.limitFor id).perDay - world.ledger.reserve id priority - 1
        omega
    | isFalse else' =>
        rw [if_neg else'] at last
        exact ((kept.reserved id other time direct last).push
          fun same => absurd same else').admitted call.provider priority

theorem proceed (kept : Kept world) (readings : Readings) (opts : Options) (tried : Nat)
    (rest : List ProviderId) : Kept (world.proceed readings opts tried rest) := by
  have agrees : Agrees world.now world.ledger
      (walk world.now readings opts tried rest world.ledger).1 := agrees_walk
  simp only [World.proceed]
  split
  next ledger walked =>
    rw [walked] at agrees
    exact kept.withLedger agrees
  next ledger call walked =>
    have ⟨room, fresh⟩ := hasRoom_of_walk (congrArg Prod.snd walked)
    rw [walked] at agrees
    have agreed := kept.withLedger agrees
    apply agreed.admission fresh
    constructor
    · intro span
      rw [agrees.used, agrees.limitFor]
      exact room.limit span
    · rw [agrees.used, agrees.limitFor, agrees.reserve]
      exact room.reserve

theorem recorded (kept : Kept world) {index : Nat} {call : Call}
    (found : world.calls[index]? = some call) (tokens status : Option Nat) :
    Kept { world.drop index (.recorded call.provider world.now) with
      ledger := world.ledger.record world.now call.provider tokens status } where
  accounted := kept.accounted.recorded found tokens status
  capped span id direct := (kept.capped span id direct).recorded found _
  reserved id priority time direct last :=
    (kept.reserved id priority time direct last).recorded found _

theorem lost (kept : Kept world) {index : Nat} {call : Call}
    (found : world.calls[index]? = some call) :
    Kept (world.drop index (.lost call.provider world.now)) where
  accounted := kept.accounted.lost found
  capped span id direct := (kept.capped span id direct).lost found
  reserved id priority time direct last := (kept.reserved id priority time direct last).lost found

theorem next (kept : Kept world) {label : Label} {after : World}
    (stepped : world.next label = some after) : Kept after := by
  cases label with
  | tick ms =>
      cases stepped
      constructor
      · exact kept.accounted.tick ms
      · intro span id direct
        exact (kept.capped span id direct).tick kept.accounted ms
      · intro id priority time direct last
        exact (kept.reserved id priority time direct last).tick kept.accounted ms
  | chat opts readings =>
      simp only [World.next] at stepped
      split at stepped
      · cases stepped
        constructor
        · exact kept.accounted.push rfl
        · intro span id direct
          exact (kept.capped span id direct).push fun same => absurd same.symm direct
        · intro id priority time direct last
          exact (kept.reserved id priority time direct last).push
            fun same => absurd same.symm direct
      · cases stepped
        exact kept.proceed readings opts 0 _
  | acquire index =>
      have ⟨call, found, changed⟩ := Option.bind_eq_some_iff.1 stepped
      split at changed
      · cases changed
        constructor
        · exact kept.accounted.change found rfl rfl
        · intro span id direct
          exact (kept.capped span id direct).change found rfl
        · intro id priority time direct last
          exact (kept.reserved id priority time direct last).change found rfl
      · contradiction
  | request index =>
      have ⟨call, active, changed⟩ := Option.bind_eq_some_iff.1 stepped
      have found := mem_of_activeCall active
      split at changed
      next short =>
        cases changed
        constructor
        · exact kept.accounted.request found short
        · intro span id direct
          exact (kept.capped span id direct).request found
        · intro id priority time direct last
          exact (kept.reserved id priority time direct last).request found
      next => contradiction
  | answer index tokens =>
      have ⟨call, active, same⟩ := Option.map_eq_some_iff.1 stepped
      subst same
      exact kept.recorded (mem_of_activeCall active) tokens none
  | fail index status readings =>
      have ⟨call, active, same⟩ := Option.map_eq_some_iff.1 stepped
      subst same
      split
      · exact (kept.recorded (mem_of_activeCall active) none status).proceed readings _ _ _
      · exact (kept.lost (mem_of_activeCall active)).proceed readings _ _ _
  | abort index =>
      have ⟨call, active, same⟩ := Option.map_eq_some_iff.1 stepped
      subst same
      exact kept.lost (mem_of_activeCall active)

end Kept

theorem kept_of_reachable {world : World} (reachable : Reachable system always world) :
    Kept world := by
  apply reachable.invariant Kept
  · intro world ⟨calls, trace, peak⟩
    have none : ∀ kind span window, countIn kind span window world.trace = 0 := by
      intro kind span window
      rw [trace]
      rfl
    have closed : ∀ id, world.openAt id = 0 := by
      intro id
      rw [World.openAt, calls]
      rfl
    constructor
    · constructor
      · intro event inside
        rw [trace] at inside
        contradiction
      · intro id
        rw [closed]
        exact Nat.zero_le _
      · intro call inside
        rw [calls] at inside
        contradiction
      · intro span id
        rw [World.recordedIn, none]
        exact Nat.zero_le _
      · intro span id
        rw [World.requestsIn, none]
        exact Nat.zero_le _
    · intro span id direct
      constructor
      · rw [World.recordedIn, none, closed]
        exact Nat.zero_le _
      · intro window since before
        rw [World.requestsIn, none]
        exact Nat.zero_le _
    · intro id priority time direct last
      rw [World.lastAdmission, trace] at last
      contradiction
  · intro before label after _ kept _ stepped
    exact kept.next stepped

/-- The requests that a direct provider is sent in a minute or a day overdraw the limit by no
more than the calls that were open at once and the calls that ended unrecorded, each with the
requests that one call may send; after a call without priority the same holds of what the
reserve leaves of the day. -/
theorem requestsIn_le {world : World} (reachable : Reachable system always world)
    {id : ProviderId} (direct : id ≠ .omniroute) :
    (∀ span window, world.requestsIn span window id ≤
      maxRequests id * ((world.ledger.limitFor id).per span - 1 + world.peak id +
        world.lostIn span window id)) ∧
    ∀ priority time, world.lastAdmission id = some (priority, time) →
      highPriority priority = false →
      world.requestsIn .day (Span.windowOf .day time) id ≤
        maxRequests id * ((world.ledger.limitFor id).perDay -
          world.ledger.reserveOf (world.ledger.limitFor id).perDay - 1 + world.peak id +
          world.lostIn .day (Span.windowOf .day time) id) := by
  have kept := kept_of_reachable reachable
  constructor
  · intro span window
    exact (kept.capped span id direct).requests_le kept.accounted (Nat.zero_le _)
  · intro priority time last low
    have bound := (kept.reserved id priority time direct last).requests_le kept.accounted
      (Nat.le_refl _)
    rw [reserveCap, Ledger.reserve, low] at bound
    exact bound

/-- Thirteen calls look at the ledger before the first of them is recorded, with Gemini the only
provider that has a key. -/
def geminiRun : List Label :=
  List.replicate 13 (.chat {} { configured := fun id => decide (id = .gemini) }) ++
    (List.replicate 13 [.acquire 0, .request 0, .answer 0 none]).flatten

/-- The world that the run comes to. -/
def geminiWorld : World := (system.exec always {} geminiRun).getD {}

theorem eq_some_getD {reached : Option World} (ran : reached.isSome = true) :
    reached = some (reached.getD {}) := by
  cases reached with
  | none => contradiction
  | some world => rfl

theorem geminiWorld_facts :
    (system.exec always {} geminiRun).isSome = true ∧
      geminiWorld.requestsIn .minute 0 .gemini = 13 ∧
      geminiWorld.lastAdmission .gemini = some (none, 0) ∧
      (geminiWorld.ledger.limitFor .gemini).per .minute = 12 := by
  decide +kernel

theorem reachable_geminiWorld : Reachable system always geminiWorld :=
  Reachable.of_exec (.start ⟨rfl, rfl, rfl⟩) (eq_some_getD geminiWorld_facts.1)

theorem requestsIn_le_geminiWorld :
    geminiWorld.requestsIn .minute 0 .gemini ≤
      maxRequests .gemini * ((geminiWorld.ledger.limitFor .gemini).per .minute - 1 +
        geminiWorld.peak .gemini + geminiWorld.lostIn .minute 0 .gemini) ∧
    geminiWorld.requestsIn .day (Span.windowOf .day 0) .gemini ≤
      maxRequests .gemini * ((geminiWorld.ledger.limitFor .gemini).perDay -
        geminiWorld.ledger.reserveOf (geminiWorld.ledger.limitFor .gemini).perDay - 1 +
        geminiWorld.peak .gemini + geminiWorld.lostIn .day (Span.windowOf .day 0) .gemini) := by
  have ⟨_, _, last, _⟩ := geminiWorld_facts
  have direct : ProviderId.gemini ≠ .omniroute := by decide
  have ⟨windows, reserved⟩ := requestsIn_le reachable_geminiWorld direct
  exact ⟨windows .minute 0, reserved none 0 last rfl⟩

/-- The limit of Gemini is twelve a minute. -/
theorem not_requestsIn_le_limit : ¬ ∀ world, Reachable system always world → ∀ id span window,
    world.requestsIn span window id ≤ (world.ledger.limitFor id).per span := by
  intro all
  have within := all geminiWorld reachable_geminiWorld .gemini .minute 0
  have ⟨_, requests, _, limit⟩ := geminiWorld_facts
  rw [requests, limit] at within
  contradiction

end Providers

end TitanRunner
