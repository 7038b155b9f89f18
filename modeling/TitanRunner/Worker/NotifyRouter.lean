import TitanRunner.Lib.Interleaving
import TitanRunner.Lib.Utf16
import Mathlib.Data.List.Nodup

/-!
# The notification router

The ticks of `notifyRouter.js` over the tables of the events, the rules, the connections and the
deliveries, in any interleaving with each other and with the owner's changes.  A tick may stop
between any two of its statements, and a channel may get a message and report a failure.
-/

namespace TitanRunner

namespace NotifyRouter

open TransitionSystem System Interleaving Utf16

/-- `SEVERITY` -/
inductive Severity where
  | info | warn | error
  deriving DecidableEq, Repr

def Severity.rank : Severity → Nat
  | .info => 0
  | .warn => 1
  | .error => 2

/-- `BATCH` -/
def batch : Nat := 10

def defaultTz : Utf16 := ofString "America/Chicago"

/-- A row of `events`. -/
structure Record where
  id : Nat
  type : Utf16
  severity : Severity
  title : Utf16
  routed : Bool := false
  deriving DecidableEq

/-- A row of `notify_rules`. -/
structure Rule where
  id : Utf16
  eventPattern : Utf16
  minSeverity : Severity := .info
  connectionIds : List Utf16
  quietStart : Utf16 := []
  quietEnd : Utf16 := []
  tz : Utf16 := []
  dedupeMinutes : Nat := 30
  allowPersonal : Bool := false
  enabled : Bool := true
  deriving DecidableEq

/-- A row of `connections`, as far as the router reads it. -/
structure Connection where
  id : Utf16
  isChannel : Bool := true
  needsReconnect : Bool := false
  deriving DecidableEq

/-- A row of `notify_deliveries`. -/
structure Delivery where
  eventId : Nat
  ruleId : Utf16
  connectionId : Utf16
  at' : Nat
  ok : Bool
  deriving DecidableEq

/-- An event that a channel got for a rule. -/
structure Sent where
  eventId : Nat
  ruleId : Utf16
  connectionId : Utf16
  deriving DecidableEq

/-- The tables, what the channels got, and the events that ticks have taken and not finished. -/
structure Store where
  events : List Record := []
  rules : List Rule := []
  connections : List Connection := []
  deliveries : List Delivery := []
  sent : List Sent := []
  underWay : List Nat := []

/-! ## Rules -/

def patternMatches (pattern type : Utf16) : Bool :=
  pattern = ofString "*" || pattern = type ||
    (ofString ".*").isSuffixOf pattern && pattern.dropLast.isPrefixOf type

/-- The value of two digits. -/
def pair (tens ones : UInt16) : Option Nat :=
  if 0x30 ≤ tens && tens ≤ 0x39 && 0x30 ≤ ones && ones ≤ 0x39 then
    some ((tens - 0x30).toNat * 10 + (ones - 0x30).toNat)
  else none

def toMinutes : Utf16 → Option Nat
  | [a, b, 0x3A, c, d] =>
      match pair a b, pair c d with
      | some hours, some minutes =>
          if hours ≤ 23 && minutes ≤ 59 then some (hours * 60 + minutes) else none
      | _, _ => none
  | _ => none

/-- `inQuietHours`, over the local time of day in a zone -/
def Rule.inQuietHours (minutesInZone : Nat → Utf16 → Nat) (rule : Rule) (date : Nat) : Bool :=
  match toMinutes rule.quietStart, toMinutes rule.quietEnd with
  | some start, some finish =>
      let now := minutesInZone date (if rule.tz.isEmpty then defaultTz else rule.tz)
      if start = finish then false
      else if start < finish then start ≤ now && now < finish
      else start ≤ now || now < finish
  | _, _ => false

/-- The rule sends the event now. -/
def Rule.takes (minutesInZone : Nat → Utf16 → Nat) (now : Nat) (event : Record) (rule : Rule) :
    Bool :=
  patternMatches rule.eventPattern event.type &&
    rule.minSeverity.rank ≤ event.severity.rank &&
    (event.type ≠ ofString "hook.received" || rule.allowPersonal) &&
    (event.severity = .error || !rule.inQuietHours minutesInZone now)

/-- A rule with one of its channels. -/
abbrev Visit := Rule × Utf16

/-- The channels that a tick goes through for an event. -/
def visits (minutesInZone : Nat → Utf16 → Nat) (now : Nat) (rules : List Rule) (event : Record) :
    List Visit :=
  (rules.filter (·.takes minutesInZone now event)).flatMap fun rule =>
    rule.connectionIds.map fun id => (rule, id)

/-! ## Statements -/

/-- The events that are not routed, the oldest first. -/
def Store.unrouted (store : Store) : List Record :=
  (store.events.filter fun event => !event.routed).take batch

def Store.enabledRules (store : Store) : List Rule := store.rules.filter Rule.enabled

def Store.getConnection (store : Store) (id : Utf16) : Option Connection :=
  store.connections.find? (·.id = id)

def Store.deliveredRecently (store : Store) (rule : Rule) (connectionId : Utf16) (event : Record)
    (now : Nat) : Bool :=
  store.deliveries.any fun delivery =>
    delivery.ruleId = rule.id && delivery.connectionId = connectionId && delivery.ok &&
      now < delivery.at' + rule.dedupeMinutes * 60000 &&
      store.events.any fun stored =>
        stored.id = delivery.eventId && stored.type = event.type && stored.title = event.title

def Store.record (store : Store) (delivery : Delivery) : Store :=
  { store with deliveries := delivery :: store.deliveries }

def Store.log (store : Store) (sent : Sent) : Store := { store with sent := sent :: store.sent }

/-- A tick takes events. -/
def Store.take (store : Store) (events : List Record) : Store :=
  { store with underWay := events.map Record.id ++ store.underWay }

/-- A tick is through with events, or it stops. -/
def Store.leave (store : Store) (events : List Record) : Store :=
  { store with underWay := store.underWay.filter fun id => !(events.map Record.id).contains id }

def Store.setRouted (store : Store) (id : Nat) : Store :=
  { store with events := store.events.map fun event =>
      if event.id = id then { event with routed := true } else event }

/-- The id of the next event. -/
def Store.nextId (store : Store) : Nat :=
  (store.events.map Record.id).foldr (fun id after => max (id + 1) after) 1

def Store.emit (store : Store) (type : Utf16) (severity : Severity) (title : Utf16)
    (routed : Bool) : Store :=
  { store with events := store.events ++ [{ id := store.nextId, type, severity, title, routed }] }

/-- `INSERT … ON CONFLICT(id) DO UPDATE` of `saveRule` -/
def Store.saveRule (store : Store) (rule : Rule) : Store :=
  { store with rules :=
      if store.rules.any (·.id = rule.id) then
        store.rules.map fun row => if row.id = rule.id then rule else row
      else store.rules ++ [rule] }

def Store.deleteRule (store : Store) (id : Utf16) : Store :=
  { store with rules := store.rules.filter fun row => row.id ≠ id }

/-! ## Ticks -/

/-- Where a tick is with one event. -/
inductive Stage where
  | begins
  /-- A `notify.custom` event goes to every channel. -/
  | custom (left : List Connection)
  | visiting (left : List Visit)
  | checking (rule : Rule) (connection : Connection) (left : List Visit)
  | sending (rule : Rule) (connection : Connection) (left : List Visit)
  | sent (delivery : Delivery) (left : List Visit)
  deriving DecidableEq

/-- A tick over its events. -/
structure Tick where
  now : Nat
  rules : List Rule
  event : Record
  rest : List Record
  deriving DecidableEq

inductive Request where
  | idle
  | selected (now : Nat) (events : List Record)
  | routing (tick : Tick) (stage : Stage)
  | done
  deriving DecidableEq

inductive Event where
  | routeEvents (now : Nat)
  | statement
  /-- A call of a channel: it gets the message or not, and the call succeeds or not. -/
  | deliver (lands ok : Bool)
  /-- The Worker is stopped, or a statement fails. -/
  | stop
  | emit (type : Utf16) (severity : Severity) (title : Utf16) (routed : Bool)
  | saveRule (rule : Rule)
  | deleteRule (id : Utf16)
  | connect (connections : List Connection)
  deriving DecidableEq

def Tick.events (tick : Tick) : List Record := tick.event :: tick.rest

/-- The events that a tick has taken and not finished. -/
def Request.events : Request → List Record
  | .selected _ events => events
  | .routing tick _ => tick.events
  | _ => []

/-- The tick goes on with its next event. -/
def Tick.next (tick : Tick) : Request :=
  match tick.rest with
  | [] => .done
  | event :: rest => .routing { tick with event, rest } .begins

variable (minutesInZone : Nat → Utf16 → Nat)

def Tick.visits (tick : Tick) : List Visit :=
  NotifyRouter.visits minutesInZone tick.now tick.rules tick.event

/-- One statement of a tick, a change by the owner, or a new event. -/
def step (store : Store) : Request → Event → Option (Store × Request)
  | .idle, .emit type severity title routed =>
      some (store.emit type severity title routed, .done)
  | .idle, .saveRule rule => some (store.saveRule rule, .done)
  | .idle, .deleteRule id => some (store.deleteRule id, .done)
  | .idle, .connect connections => some ({ store with connections }, .done)
  | .idle, .routeEvents now => some (store.take store.unrouted, .selected now store.unrouted)
  | .selected _ [], .statement => some (store, .done)
  | .selected now (event :: rest), .statement =>
      some (store, .routing ⟨now, store.enabledRules, event, rest⟩ .begins)
  | .routing tick .begins, .statement =>
      some (store, .routing tick (
        if tick.event.type = ofString "notify.custom" then
          .custom (store.connections.filter fun row => row.isChannel && !row.needsReconnect)
        else .visiting (tick.visits minutesInZone)))
  | .routing tick (.custom (_ :: left)), .deliver _ _ => some (store, .routing tick (.custom left))
  | .routing tick (.custom []), .statement =>
      some (store, .routing tick (.visiting (tick.visits minutesInZone)))
  | .routing tick (.visiting ((rule, id) :: left)), .statement =>
      some (store, .routing tick (
        match store.getConnection id with
        | none => .visiting left
        | some connection => .checking rule connection left))
  | .routing tick (.checking rule connection left), .statement =>
      some (store, .routing tick (
        if store.deliveredRecently rule connection.id tick.event tick.now then .visiting left
        else .sending rule connection left))
  | .routing tick (.sending rule connection left), .deliver lands ok =>
      let delivery : Delivery := {
        eventId := tick.event.id
        ruleId := rule.id
        connectionId := connection.id
        at' := tick.now
        ok := connection.isChannel && ok }
      some (if connection.isChannel && lands then
          store.log ⟨tick.event.id, rule.id, connection.id⟩
        else store, .routing tick (.sent delivery left))
  | .routing tick (.sent delivery left), .statement =>
      some (store.record delivery, .routing tick (.visiting left))
  | .routing tick (.visiting []), .statement =>
      some ((store.setRouted tick.event.id).leave [tick.event], tick.next)
  | request, .stop => some (store.leave request.events, .done)
  | _, _ => none

def program : Program Store Request Event where
  idle := .idle
  step := step minutesInZone

/-- The runs from empty tables. -/
def system (Id : Type) [DecidableEq Id] : System (Pool Id Store Request) (Id × Event) :=
  (program minutesInZone).system Id fun store => store = {}

/-! ## At most once -/

/-- No event is sent twice for a rule to a channel. -/
def Store.Once (store : Store) : Prop := store.sent.Nodup

/-- Everything that was sent for the events is found by the check of the rules that sent it. -/
def Store.Covers (store : Store) (events : List Record) (now : Nat) : Prop :=
  ∀ event ∈ events, ∀ sent ∈ store.sent, sent.eventId = event.id →
    ∀ rule ∈ store.enabledRules, rule.id = sent.ruleId →
      store.deliveredRecently rule sent.connectionId event now = true

instance (store : Store) (events : List Record) (now : Nat) :
    Decidable (store.Covers events now) := by
  unfold Store.Covers
  infer_instance

/-- No tick takes an event that another one has under way, and what a stopped tick sent is in the
deliveries of the rule's window when the next one reads the rules.  A channel that gets a message
does so for the last time of the rule, or it reports success and the window is not empty. -/
def Calm (store : Store) : Request → Event → Prop
  | .idle, .routeEvents _ => ∀ event ∈ store.unrouted, event.id ∉ store.underWay
  | .selected now events, .statement => store.Covers events now
  | .routing _ (.sending rule connection left), .deliver lands ok =>
      lands = true → (rule, connection.id) ∉ left ∨ ok = true ∧ 0 < rule.dedupeMinutes
  | _, _ => True

instance (store : Store) (request : Request) (event : Event) :
    Decidable (Calm store request event) := by
  unfold Calm
  split <;> infer_instance

/-! ## What a tick knows -/

/-- The columns that the check compares. -/
def Record.heading (event : Record) : Nat × Utf16 × Utf16 := (event.id, event.type, event.title)

def Store.headings (store : Store) : List (Nat × Utf16 × Utf16) :=
  store.events.map Record.heading

/-- The ids of events and of rules are keys, and nothing was sent twice. -/
structure Store.Sound (store : Store) : Prop where
  events : (store.events.map Record.id).Nodup
  rules : (store.rules.map Rule.id).Nodup
  once : store.Once

def Request.ids (request : Request) : List Nat := request.events.map Record.id

/-- The rule and the channel may still be visited for the event of the stage. -/
def Stage.Reaches (rules : List Rule) (rule : Rule) (id : Utf16) : Stage → Prop
  | .begins | .custom _ => rule ∈ rules
  | .visiting left | .sending _ _ left | .sent _ left => (rule, id) ∈ left
  | .checking here connection left => (rule, id) = (here, connection.id) ∨ (rule, id) ∈ left

/-- The rule and the channel may still be visited for the event. -/
def Tick.Ahead (tick : Tick) (stage : Stage) (event : Record) (rule : Rule) (id : Utf16) : Prop :=
  event ∈ tick.rest ∧ rule ∈ tick.rules ∨
    event = tick.event ∧ stage.Reaches tick.rules rule id

/-- The store once the delivery of the stage is recorded. -/
def Store.recorded (store : Store) : Stage → Store
  | .sent delivery _ => store.record delivery
  | _ => store

/-- What was sent is found by the checks to come, and a message that goes out was not sent. -/
structure Tick.Fits (tick : Tick) (store : Store) (stage : Stage) : Prop where
  rules : (tick.rules.map Rule.id).Nodup
  inside : ∀ rule id, stage.Reaches tick.rules rule id → rule ∈ tick.rules
  covered : ∀ event rule id, tick.Ahead stage event rule id →
    ⟨event.id, rule.id, id⟩ ∈ store.sent →
      (store.recorded stage).deliveredRecently rule id event tick.now = true
  fresh : ∀ rule connection left, stage = .sending rule connection left →
    rule ∈ tick.rules ∧ ⟨tick.event.id, rule.id, connection.id⟩ ∉ store.sent

def Request.Fits (store : Store) : Request → Prop
  | .routing tick stage => tick.Fits store stage
  | _ => True

/-- What a request knows of the store. -/
structure Knows' (store : Store) (request : Request) : Prop where
  underWay : request.ids ⊆ store.underWay
  distinct : request.ids.Nodup
  headings : ∀ event ∈ request.events, event.heading ∈ store.headings
  fits : request.Fits store

/-- Two requests hold different events. -/
def Apart (request other : Request) : Prop := ∀ id ∈ request.ids, id ∉ other.ids

variable {minutesInZone} {store after : Store} {request request' other : Request} {event : Event}

theorem knows_done : Knows' store .done := ⟨List.nil_subset _, .nil, nofun, trivial⟩

theorem deliveredRecently_iff {rule : Rule} {id : Utf16} {row : Record} {now : Nat} :
    store.deliveredRecently rule id row now = true ↔ ∃ delivery ∈ store.deliveries,
      (delivery.ruleId = rule.id ∧ delivery.connectionId = id ∧ delivery.ok = true ∧
        now < delivery.at' + rule.dedupeMinutes * 60000) ∧
      (delivery.eventId, row.type, row.title) ∈ store.headings := by
  have found : ∀ delivery : Delivery, (store.events.any fun stored =>
      stored.id = delivery.eventId && stored.type = row.type && stored.title = row.title) = true ↔
        (delivery.eventId, row.type, row.title) ∈ store.headings := by
    intro delivery
    simp only [List.any_eq_true, Bool.and_eq_true, decide_eq_true_eq, Store.headings,
      List.mem_map, Record.heading, Prod.mk.injEq, and_assoc]
  simp only [Store.deliveredRecently, List.any_eq_true, Bool.and_eq_true, decide_eq_true_eq,
    found, and_assoc]

/-- A statement of another request, for the events that it does not hold. -/
structure Grows (store after : Store) (ids : List Nat) : Prop where
  underWay : ∀ id ∈ store.underWay, id ∉ ids → id ∈ after.underWay
  sent : ∀ sent ∈ after.sent, sent ∈ store.sent ∨ sent.eventId ∈ ids
  deliveries : store.deliveries ⊆ after.deliveries
  headings : store.headings ⊆ after.headings

theorem deliveredRecently_mono (deliveries : store.deliveries ⊆ after.deliveries)
    (headings : store.headings ⊆ after.headings) {rule : Rule} {id : Utf16} {row : Record}
    {now : Nat} (found : store.deliveredRecently rule id row now = true) :
    after.deliveredRecently rule id row now = true := by
  obtain ⟨delivery, inside, fine, heading⟩ := deliveredRecently_iff.1 found
  exact deliveredRecently_iff.2 ⟨delivery, deliveries inside, fine, headings heading⟩

theorem Store.recorded_deliveries (deliveries : store.deliveries ⊆ after.deliveries)
    (stage : Stage) : (store.recorded stage).deliveries ⊆ (after.recorded stage).deliveries := by
  cases stage with
  | sent => exact List.cons_subset_cons _ deliveries
  | _ => exact deliveries

@[simp]
theorem Store.headings_recorded (stage : Stage) :
    (store.recorded stage).headings = store.headings := by
  cases stage <;> rfl

/-- The events that a stage may still send are those of its tick. -/
theorem Tick.Ahead.mem {tick : Tick} {stage : Stage} {row : Record} {rule : Rule} {id : Utf16}
    (ahead : tick.Ahead stage row rule id) : row ∈ tick.events := by
  cases ahead with
  | inl rest => exact List.mem_cons_of_mem _ rest.1
  | inr here => exact here.1 ▸ List.mem_cons_self

/-- A request keeps its knowledge when another one makes a statement. -/
theorem Knows'.of_grows {ids : List Nat} (knows : Knows' store other)
    (grows : Grows store after ids) (apart : ∀ id ∈ other.ids, id ∉ ids) : Knows' after other := by
  refine ⟨?_, knows.distinct, fun row own => grows.headings (knows.headings row own), ?_⟩
  · intro id own
    exact grows.underWay id (knows.underWay own) (apart id own)
  · cases other with
    | routing tick stage =>
        have fits : tick.Fits store stage := knows.fits
        have before : ∀ row ∈ tick.events, ∀ rule id,
            (⟨row.id, rule, id⟩ : Sent) ∈ after.sent → ⟨row.id, rule, id⟩ ∈ store.sent := by
          intro row own rule id sent
          cases grows.sent _ sent with
          | inl before => exact before
          | inr acting => exact absurd acting (apart _ (List.mem_map_of_mem own))
        refine ⟨fits.rules, fits.inside, ?_, ?_⟩
        · intro row rule id ahead sent
          have found := fits.covered row rule id ahead (before row ahead.mem _ _ sent)
          apply deliveredRecently_mono (Store.recorded_deliveries grows.deliveries stage) _ found
          simpa using grows.headings
        · intro rule connection left same
          have own := fits.fresh rule connection left same
          exact ⟨own.1, fun sent => own.2 (before _ List.mem_cons_self _ _ sent)⟩
    | _ => trivial

/-- What a statement keeps. -/
structure Keeps (store : Store) (request : Request) (after : Store) (request' : Request) :
    Prop where
  sound : after.Sound
  own : Knows' after request'
  grows : Grows store after request.ids
  ids : ∀ id ∈ request'.ids, id ∈ request.ids ∨ id ∉ store.underWay

theorem Keeps.others (keeps : Keeps store request after request') (knows : Knows' store other)
    (apart : Apart request other) : Knows' after other ∧ Apart request' other := by
  constructor
  · exact knows.of_grows keeps.grows fun id theirs mine => apart id mine theirs
  · intro id mine theirs
    cases keeps.ids id mine with
    | inl held => exact apart id held theirs
    | inr free => exact free (knows.underWay theirs)

theorem Grows.rfl {ids : List Nat} : Grows store store ids :=
  ⟨fun _ there _ => there, fun _ there => .inl there, fun _ => id, fun _ => id⟩

/-- The owner changes a table, or an event is added. -/
theorem Keeps.of_change (sound : after.Sound) (underWay : after.underWay = store.underWay)
    (sent : after.sent = store.sent) (deliveries : after.deliveries = store.deliveries)
    (headings : store.headings ⊆ after.headings) : Keeps store request after .done := by
  refine ⟨sound, knows_done, ⟨?_, ?_, ?_, headings⟩, nofun⟩
  · intro id there _
    exact underWay ▸ there
  · intro send there
    exact .inl (sent ▸ there)
  · rw [deliveries]
    exact fun _ => id

/-! ## Statements -/

theorem lt_nextId {id : Nat} (inside : id ∈ store.events.map Record.id) : id < store.nextId := by
  rw [Store.nextId]
  generalize store.events.map Record.id = ids at inside
  induction ids with
  | nil => contradiction
  | cons first rest ih =>
      rw [List.foldr_cons]
      cases List.mem_cons.1 inside with
      | inl same => omega
      | inr there =>
          have := ih there
          omega

theorem Store.Sound.emit (sound : store.Sound) {type title : Utf16} {severity : Severity}
    {routed : Bool} : (store.emit type severity title routed).Sound := by
  refine ⟨?_, sound.rules, sound.once⟩
  rw [Store.emit, List.map_append, List.nodup_append]
  refine ⟨sound.events, List.nodup_singleton _, ?_⟩
  intro id there id' last same
  rw [List.map_singleton, List.mem_singleton] at last
  have bound := lt_nextId there
  rw [same, last] at bound
  exact bound.ne rfl

theorem Store.Sound.saveRule (sound : store.Sound) {rule : Rule} : (store.saveRule rule).Sound := by
  refine ⟨sound.events, ?_, sound.once⟩
  rw [Store.saveRule]
  dsimp only
  split
  next =>
    have kept : Rule.id ∘ (fun row : Rule => if row.id = rule.id then rule else row) = Rule.id := by
      funext row
      dsimp only [Function.comp]
      split
      next same => exact same.symm
      next => rfl
    rw [List.map_map, kept]
    exact sound.rules
  next absent =>
    rw [List.map_append, List.nodup_append]
    refine ⟨sound.rules, List.nodup_singleton _, ?_⟩
    intro id there id' last same
    obtain ⟨row, inside, is⟩ := List.mem_map.1 there
    rw [List.map_singleton, List.mem_singleton] at last
    exact absent (List.any_eq_true.2
      ⟨row, inside, decide_eq_true (is.trans (same.trans last))⟩)

theorem Store.Sound.deleteRule (sound : store.Sound) {id : Utf16} : (store.deleteRule id).Sound :=
  ⟨sound.events, sound.rules.sublist (List.filter_sublist.map _), sound.once⟩

/-- A tick takes the events that are not routed. -/
theorem Keeps.take {now : Nat} (sound : store.Sound)
    (calm : Calm store .idle (.routeEvents now)) :
    Keeps store .idle (store.take store.unrouted) (.selected now store.unrouted) := by
  have taken : store.unrouted.Sublist store.events :=
    (List.take_sublist _ _).trans List.filter_sublist
  refine ⟨⟨sound.events, sound.rules, sound.once⟩, ⟨?_, ?_, ?_, trivial⟩, ⟨?_, ?_, ?_, ?_⟩, ?_⟩
  · exact List.subset_append_left _ _
  · exact sound.events.sublist (taken.map _)
  · intro row own
    exact List.mem_map_of_mem (taken.subset own)
  · intro id there _
    exact List.mem_append_right _ there
  · exact fun _ there => .inl there
  · exact fun _ => id
  · exact fun _ => id
  · intro id own
    obtain ⟨row, inside, same⟩ := List.mem_map.1 own
    exact .inr (same ▸ calm row inside)

/-- The tick reads the rules. -/
theorem Keeps.begins {now : Nat} {row : Record} {rest : List Record} (sound : store.Sound)
    (knows : Knows' store (.selected now (row :: rest)))
    (calm : Calm store (.selected now (row :: rest)) .statement) :
    Keeps store (.selected now (row :: rest)) store
      (.routing ⟨now, store.enabledRules, row, rest⟩ .begins) := by
  refine ⟨sound, ⟨knows.underWay, knows.distinct, knows.headings, ?_⟩, .rfl, fun _ => .inl⟩
  refine ⟨sound.rules.sublist (List.filter_sublist.map _), fun _ _ => id, ?_, nofun⟩
  intro event rule id ahead sent
  have enabled : rule ∈ store.enabledRules := by
    cases ahead with
    | inl rest => exact rest.2
    | inr here => exact here.2
  exact calm event ahead.mem _ sent rfl rule enabled rfl

/-- The tick goes on with what is left, and the tables stay. -/
theorem Keeps.of_quiet {tick : Tick} {stage stage' : Stage} (sound : store.Sound)
    (knows : Knows' store (.routing tick stage)) (same : store.recorded stage = store)
    (same' : store.recorded stage' = store)
    (fewer : ∀ rule id, stage'.Reaches tick.rules rule id → stage.Reaches tick.rules rule id)
    (fresh : ∀ rule connection left, stage' = .sending rule connection left →
      rule ∈ tick.rules ∧ ⟨tick.event.id, rule.id, connection.id⟩ ∉ store.sent) :
    Keeps store (.routing tick stage) store (.routing tick stage') := by
  have fits : tick.Fits store stage := knows.fits
  refine ⟨sound, ⟨knows.underWay, knows.distinct, knows.headings, ?_⟩, .rfl, fun _ => .inl⟩
  refine ⟨fits.rules, fun rule id here => fits.inside rule id (fewer rule id here), ?_, fresh⟩
  intro event rule id ahead sent
  rw [same', ← same]
  exact fits.covered event rule id (ahead.imp_right fun here => ⟨here.1, fewer rule id here.2⟩) sent

theorem mem_rules_of_visits {now : Nat} {rules : List Rule} {row : Record} {rule : Rule}
    {id : Utf16} (inside : (rule, id) ∈ visits minutesInZone now rules row) : rule ∈ rules := by
  obtain ⟨rule', taken, there⟩ := List.mem_flatMap.1 inside
  obtain ⟨_, _, same⟩ := List.mem_map.1 there
  cases same
  exact (List.mem_filter.1 taken).1

/-- A channel is called. -/
theorem Keeps.deliver {tick : Tick} {rule : Rule} {connection : Connection} {left : List Visit}
    {lands ok : Bool} (sound : store.Sound)
    (knows : Knows' store (.routing tick (.sending rule connection left)))
    (calm : Calm store (.routing tick (.sending rule connection left)) (.deliver lands ok)) :
    Keeps store (.routing tick (.sending rule connection left))
      (if connection.isChannel && lands then store.log ⟨tick.event.id, rule.id, connection.id⟩
        else store)
      (.routing tick (.sent ⟨tick.event.id, rule.id, connection.id, tick.now,
        connection.isChannel && ok⟩ left)) := by
  have fits : tick.Fits store (.sending rule connection left) := knows.fits
  have own := fits.fresh rule connection left rfl
  have old : ∀ event rule' id, tick.Ahead (.sending rule connection left) event rule' id →
      ⟨event.id, rule'.id, id⟩ ∈ store.sent → ∀ delivery,
        (store.record delivery).deliveredRecently rule' id event tick.now = true := by
    intro event rule' id ahead sent delivery
    have found : store.deliveredRecently rule' id event tick.now = true :=
      fits.covered event rule' id ahead sent
    apply deliveredRecently_mono _ _ found
    · exact List.subset_cons_self _ _
    · exact List.Subset.refl _
  split
  next landed =>
    rw [Bool.and_eq_true] at landed
    refine ⟨⟨sound.events, sound.rules, List.nodup_cons.2 ⟨own.2, sound.once⟩⟩,
      ⟨knows.underWay, knows.distinct, knows.headings, fits.rules, fits.inside, ?_, nofun⟩,
      ⟨fun _ there _ => there, ?_, fun _ => id, fun _ => id⟩, fun _ => .inl⟩
    · intro event rule' id ahead sent
      cases List.mem_cons.1 sent with
      | inr before => exact old event rule' id ahead before _
      | inl now =>
          rw [Sent.mk.injEq] at now
          cases ahead with
          | inl rest =>
              -- the events of a tick have different ids
              have distinct := (List.nodup_cons.1 knows.distinct).1
              exact absurd (now.1 ▸ List.mem_map_of_mem rest.1) distinct
          | inr here =>
              obtain ⟨same, inside⟩ := here
              subst same
              have is : rule' = rule := List.inj_on_of_nodup_map fits.rules
                (fits.inside rule' id inside) own.1 now.2.1
              subst is
              have again : (rule', connection.id) ∈ left := now.2.2 ▸ inside
              have ⟨success, window⟩ := (calm landed.2).resolve_left fun no => no again
              refine deliveredRecently_iff.2 ⟨_, List.mem_cons_self, ⟨rfl, now.2.2.symm, ?_, ?_⟩,
                knows.headings _ List.mem_cons_self⟩
              · rw [landed.1, success]
                rfl
              · dsimp only
                omega
    · intro sent there
      cases List.mem_cons.1 there with
      | inl now => exact .inr (now ▸ List.mem_cons_self)
      | inr before => exact .inl before
  next =>
    refine ⟨sound, ⟨knows.underWay, knows.distinct, knows.headings, fits.rules, fits.inside, ?_,
      nofun⟩, .rfl, fun _ => .inl⟩
    exact fun event rule' id ahead sent => old event rule' id ahead sent _

/-- The delivery is recorded. -/
theorem Keeps.record {tick : Tick} {delivery : Delivery} {left : List Visit}
    (sound : store.Sound) (knows : Knows' store (.routing tick (.sent delivery left))) :
    Keeps store (.routing tick (.sent delivery left)) (store.record delivery)
      (.routing tick (.visiting left)) := by
  have fits : tick.Fits store (.sent delivery left) := knows.fits
  refine ⟨⟨sound.events, sound.rules, sound.once⟩, ⟨knows.underWay, knows.distinct,
    knows.headings, fits.rules, fits.inside, fits.covered, nofun⟩, ?_, fun _ => .inl⟩
  exact ⟨fun _ there _ => there, fun _ => .inl, List.subset_cons_self _ _, fun _ => id⟩

theorem mem_leave {rows : List Record} {id : Nat} (there : id ∈ store.underWay)
    (free : id ∉ rows.map Record.id) : id ∈ (store.leave rows).underWay := by
  refine List.mem_filter.2 ⟨there, ?_⟩
  simpa using free

/-- A request stops. -/
theorem Keeps.stop (sound : store.Sound) :
    Keeps store request (store.leave request.events) .done :=
  ⟨⟨sound.events, sound.rules, sound.once⟩, knows_done,
    ⟨fun _ => mem_leave, fun _ => .inl, fun _ => id, fun _ => id⟩, nofun⟩

theorem map_setRouted {id : Nat} {α : Type} (column : Record → α)
    (kept : ∀ row : Record, column { row with routed := true } = column row) :
    (store.setRouted id).events.map column = store.events.map column := by
  rw [Store.setRouted, List.map_map]
  apply List.map_congr_left
  intro row _
  dsimp only [Function.comp]
  split
  next => exact kept row
  next => rfl

/-- The event is routed, and the tick goes on with the next one. -/
theorem Keeps.routed {tick : Tick} (sound : store.Sound)
    (knows : Knows' store (.routing tick (.visiting []))) :
    Keeps store (.routing tick (.visiting []))
      ((store.setRouted tick.event.id).leave [tick.event]) tick.next := by
  have headings : ((store.setRouted tick.event.id).leave [tick.event]).headings =
      store.headings := map_setRouted _ fun _ => rfl
  have fits : tick.Fits store (.visiting []) := knows.fits
  have distinct := List.nodup_cons.1 knows.distinct
  refine ⟨⟨?_, sound.rules, sound.once⟩, ?_, ⟨?_, fun _ => .inl, fun _ => id, ?_⟩, ?_⟩
  · exact (map_setRouted Record.id fun _ => rfl).symm ▸ sound.events
  · unfold Tick.next
    split
    next => exact knows_done
    next row rest left =>
      have sub : (row :: rest).map Record.id = tick.rest.map Record.id := by rw [left]
      refine ⟨?_, ?_, ?_, fits.rules, fun _ _ => id, ?_, nofun⟩
      · intro id own
        have own' : id ∈ tick.rest.map Record.id := sub ▸ own
        refine mem_leave (knows.underWay (List.mem_cons_of_mem _ own')) ?_
        rw [List.map_singleton, List.mem_singleton]
        intro same
        exact distinct.1 (same ▸ own')
      · rw [Request.ids, Request.events, Tick.events, sub]
        exact distinct.2
      · intro event own
        rw [headings]
        exact knows.headings event (List.mem_cons_of_mem _ (left ▸ own))
      · intro event rule id ahead sent
        have inside : event ∈ tick.rest := left ▸ ahead.mem
        have among : rule ∈ tick.rules := by
          cases ahead with
          | inl there => exact there.2
          | inr here => exact here.2
        have found : store.deliveredRecently rule id event tick.now = true :=
          fits.covered event rule id (.inl ⟨inside, among⟩) sent
        apply deliveredRecently_mono _ _ found
        · exact List.Subset.refl _
        · exact fun _ there => headings ▸ there
  · intro id there free
    refine mem_leave there fun same => free ?_
    rw [List.map_singleton, List.mem_singleton] at same
    exact same ▸ List.mem_cons_self
  · rw [headings]
    exact fun _ => id
  · intro id own
    refine .inl ?_
    unfold Tick.next at own
    split at own
    next => contradiction
    next row rest left =>
      refine List.mem_cons_of_mem _ ?_
      rw [left]
      exact own

/-- Step lemma. -/
theorem Keeps.of_step (sound : store.Sound) (knows : Knows' store request)
    (calm : Calm store request event)
    (took : step minutesInZone store request event = some (after, request')) :
    Keeps store request after request' := by
  unfold step at took
  split at took
  next =>
    cases took
    refine .of_change sound.emit rfl rfl rfl ?_
    rw [Store.headings, Store.headings, Store.emit, List.map_append]
    exact List.subset_append_left _ _
  next =>
    cases took
    exact .of_change sound.saveRule rfl rfl rfl (List.Subset.refl _)
  next =>
    cases took
    exact .of_change sound.deleteRule rfl rfl rfl (List.Subset.refl _)
  next =>
    cases took
    exact .of_change ⟨sound.events, sound.rules, sound.once⟩ rfl rfl rfl (List.Subset.refl _)
  next =>
    cases took
    exact .take sound calm
  next =>
    cases took
    exact .of_change sound rfl rfl rfl (List.Subset.refl _)
  next =>
    cases took
    exact .begins sound knows calm
  next tick =>
    cases took
    have into : ∀ stage', stage' = .custom (store.connections.filter fun row =>
        row.isChannel && !row.needsReconnect) ∨ stage' = .visiting (tick.visits minutesInZone) →
          Keeps store (.routing tick .begins) store (.routing tick stage') := by
      rintro stage' (rfl | rfl)
      · exact .of_quiet sound knows rfl rfl (fun _ _ => id) nofun
      · exact .of_quiet sound knows rfl rfl (fun _ _ => mem_rules_of_visits) nofun
    split
    next => exact into _ (.inl rfl)
    next => exact into _ (.inr rfl)
  next =>
    cases took
    exact .of_quiet sound knows rfl rfl (fun _ _ => id) nofun
  next =>
    cases took
    exact .of_quiet sound knows rfl rfl (fun _ _ => mem_rules_of_visits) nofun
  next tick rule id left =>
    cases took
    split
    next => exact .of_quiet sound knows rfl rfl (fun _ _ => List.mem_cons_of_mem _) nofun
    next connection found =>
      have same : connection.id = id := by simpa using List.find?_some found
      refine .of_quiet sound knows rfl rfl ?_ nofun
      intro rule' id' here
      rw [← same]
      exact List.mem_cons.2 here
  next tick rule connection left =>
    cases took
    split
    next => exact .of_quiet sound knows rfl rfl (fun _ _ => .inr) nofun
    next unfound =>
      refine .of_quiet sound knows rfl rfl (fun _ _ => .inr) ?_
      intro rule' connection' left' same
      cases same
      have fits : tick.Fits store (.checking rule connection left) := knows.fits
      refine ⟨fits.inside rule connection.id (.inl rfl), fun sent => unfound ?_⟩
      exact fits.covered tick.event rule connection.id (.inr ⟨rfl, .inl rfl⟩) sent
  next =>
    cases took
    exact .deliver sound knows calm
  next =>
    cases took
    exact .record sound knows
  next =>
    cases took
    exact .routed sound knows
  next =>
    cases took
    exact .stop sound
  next => contradiction

theorem respects : (program minutesInZone).Respects Calm Store.Sound Knows' Apart where
  symm apart id mine theirs := apart id theirs mine
  guarantee sound knows calm took := by
    have keeps := Keeps.of_step sound knows calm took
    exact ⟨keeps.sound, keeps.own⟩
  rely sound knows other apart calm took :=
    (Keeps.of_step sound knows calm took).others other apart

/-- In every run in which no tick takes an event that is under way, and what a stopped tick sent is
found by the next one, no event is sent twice for a rule to a channel. -/
theorem routed_once (minutesInZone : Nat → Utf16 → Nat) (Id : Type) [DecidableEq Id]
    (pool : Pool Id Store Request)
    (reached : Reachable (system minutesInZone Id) (Program.onStatement Calm) pool) :
    pool.shared.Once := by
  have known := Program.Respects.reachable respects (fun store started => ⟨?_, ?_⟩) ?_ reached
  · exact known.shared.once
  · rw [started]
    exact ⟨.nil, .nil, .nil⟩
  · exact ⟨List.nil_subset _, .nil, by rintro _ ⟨⟩, trivial⟩
  · rintro _ ⟨⟩

def begun : Pool Nat Store Request := ⟨{}, fun _ => .idle⟩

theorem begun_start (minutesInZone : Nat → Utf16 → Nat) :
    (system minutesInZone Nat).start begun := ⟨rfl, fun _ => rfl⟩

/-- A rule with one channel, and an event that it takes. -/
def prepared : List (Nat × Event) :=
  [(0, .connect [{ id := ofString "c" }]),
    (1, .saveRule {
      id := ofString "r"
      eventPattern := ofString "*"
      connectionIds := [ofString "c"] }),
    (2, .emit (ofString "task.failed") .error (ofString "T") false)]

/-- A tick up to the call of the channel, and with it. -/
def delivers (id now : Nat) : List (Nat × Event) :=
  [(id, .routeEvents now), (id, .statement), (id, .statement), (id, .statement), (id, .statement),
    (id, .deliver true true)]

/-- A tick is stopped after it recorded its delivery, and the next one finds it. -/
theorem routed_once_stopped : ∃ pool : Pool Nat Store Request,
    pool.shared.sent.length = 1 ∧ pool.shared.unrouted = [] ∧ pool.shared.Once := by
  let labels := prepared ++ delivers 3 600000 ++ [(3, .statement), (3, .stop),
    (4, .routeEvents 900000), (4, .statement), (4, .statement), (4, .statement), (4, .statement),
    (4, .statement)]
  have ends : ((system (fun _ _ => 0) Nat).exec (Program.onStatement Calm) begun labels).map
      (fun pool => (pool.shared.sent.length, pool.shared.unrouted)) = some (1, []) := by
    decide
  obtain ⟨pool, ran, is⟩ := Option.map_eq_some_iff.1 ends
  cases Prod.mk.inj is with
  | intro sent unrouted =>
      exact ⟨pool, sent, unrouted, routed_once (fun _ _ => 0) Nat pool
        (.of_exec (.start (begun_start _)) ran)⟩

/-- Two ticks overlap: both read the event before one of them has recorded its delivery. -/
theorem not_routed_once : ¬ ∀ (minutesInZone : Nat → Utf16 → Nat) (pool : Pool Nat Store Request),
    Reachable (system minutesInZone Nat) always pool → pool.shared.Once := by
  intro claimed
  let labels := prepared ++ delivers 3 600000 ++ delivers 4 600001
  have ends : ((system (fun _ _ => 0) Nat).exec always begun labels).map
      (fun pool => decide pool.shared.sent.Nodup) = some false := by
    decide
  obtain ⟨pool, ran, is⟩ := Option.map_eq_some_iff.1 ends
  exact of_decide_eq_false is
    (claimed _ pool (Reachable.of_exec (.start (begun_start _)) ran))

end NotifyRouter

end TitanRunner
