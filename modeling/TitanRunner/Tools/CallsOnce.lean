import TitanRunner.Tools.Registry

/-!
# Tool calls, once for each task

The effects a task's calls have over any number of pulses, against the ledger that the
checkpoint keeps of them.
-/

namespace TitanRunner

namespace Tools

open Utf16 Validate TransitionSystem System
open Policy (Effect SafetyRules Control PolicyTask)

section Once

variable (registry : List ToolDefinition) (sha1 : Utf16 → String)
  (gate : ToolDefinition → Json → Option Utf16) (rules : SafetyRules)

/-- The policy lets a tool have its effect. -/
def Permits (control : Control) (task : PolicyTask) (definition : ToolDefinition) (args : Json) :
    Prop :=
  (Policy.decide (keyDigest sha1)
    { kind := .tool, toolId := some definition.id, effect := some definition.effect
      args := some args } control task rules).decision = .allow

instance (control : Control) (task : PolicyTask) (definition : ToolDefinition) (args : Json) :
    Decidable (Permits sha1 rules control task definition args) :=
  inferInstanceAs (Decidable (_ = _))

/-- What a call comes to that nothing refuses: its tool and the arguments. -/
def cleared (control : Control) (task : PolicyTask) (call : Call) :
    Option (ToolDefinition × Json) :=
  match KeyedList.get ToolDefinition.id registry call.tool with
  | none => none
  | some definition =>
      match checkToolArgs definition.schema call.args with
      | .error _ => none
      | .ok args =>
          if gate definition args = none ∧ Permits sha1 rules control task definition args then
            some (definition, args)
          else none

/-- The answer from the record. -/
def recordedResult (definition : ToolDefinition) (callId : String) (output : Utf16) : Result where
  ok := true
  output
  error := none
  effect := definition.effect
  callId := some callId
  cached := true
  decision := some .allow

section Invoke

variable {registry sha1 gate rules} {ledger : ToolLedger} {control : Control} {task : PolicyTask}
  {call : Call} {definition : ToolDefinition} {args : Json}

theorem get_of_cleared
    (passed : cleared registry sha1 gate rules control task call = some (definition, args)) :
    KeyedList.get ToolDefinition.id registry definition.id = some definition := by
  unfold cleared at passed
  split at passed
  next => contradiction
  next found registered =>
    split at passed
    next => contradiction
    next =>
      split at passed
      next =>
        cases passed
        rw [KeyedList.key_of_get registered]
        exact registered
      next => contradiction

/-- A call that nothing refuses is answered from the record, or its tool runs. -/
theorem invoke_of_cleared
    (passed : cleared registry sha1 gate rules control task call = some (definition, args)) :
    invoke registry sha1 gate rules ledger control task call =
      match replayed ledger definition (callIdOf sha1 definition.id args) with
      | some output =>
          .finish (recordedResult definition (callIdOf sha1 definition.id args) output)
      | none => .run definition args (callIdOf sha1 definition.id args) := by
  unfold cleared at passed
  split at passed
  next => contradiction
  next found registered =>
    split at passed
    next => contradiction
    next checked valid =>
      split at passed
      next open' =>
        cases passed
        have ⟨ungated, allowed⟩ := open'
        rw [Permits] at allowed
        simp only [invoke, registered, valid, ungated, clear, allowed]
        rfl
      next => contradiction

/-- Only a call that nothing refuses has its tool run. -/
theorem cleared_of_run {callId : String}
    (runs : invoke registry sha1 gate rules ledger control task call =
      .run definition args callId) :
    cleared registry sha1 gate rules control task call = some (definition, args) := by
  unfold invoke at runs
  split at runs
  next => contradiction
  next found registered =>
    split at runs
    next => contradiction
    next checked valid =>
      split at runs
      next => contradiction
      next ungated =>
        simp only [clear] at runs
        split at runs
        next => contradiction
        next => contradiction
        next allowed =>
          split at runs
          next => contradiction
          next =>
            cases runs
            simp only [cleared, registered, valid, ungated, Permits, allowed, and_self, if_true]

end Invoke

/-! ## What is asked of the calls -/

/-- The arguments are equal as JSON values, and the tool is the same. -/
def Repeats (earlier : String × Json) (definition : ToolDefinition) (args : Json) : Prop :=
  earlier.1 = definition.id ∧ earlier.2.equal args = true

/-- The call repeats an effect that the task had before. -/
def World.IsRepeat (world : World) (definition : ToolDefinition) (args : Json) : Prop :=
  ∃ earlier ∈ world.performed, Repeats earlier definition args

/-- No effect took place twice. -/
def World.Once (world : World) : Prop :=
  world.performed.Pairwise fun earlier later =>
    ¬ (earlier.1 = later.1 ∧ earlier.2.equal later.2 = true)

/-- A call that repeats an effect gets the answer on record. -/
def World.Answers (world : World) (control : Control) (task : PolicyTask) (call : Call) : Prop :=
  ∀ definition args, cleared registry sha1 gate rules control task call = some (definition, args) →
    world.IsRepeat definition args →
    ∃ entry, world.ledger.get (callIdOf sha1 definition.id args) = some entry ∧
      entry.ok = true ∧
      invoke registry sha1 gate rules world.ledger control task call =
        .finish (recordedResult definition (callIdOf sha1 definition.id args)
          (entry.output.getD []))

/-- Every entry of a call that went well is on disk. -/
def World.IsSaved (world : World) : Prop :=
  ∀ record ∈ world.ledger, record.2.ok = true →
    (world.saved.get record.1).any LedgerEntry.ok = true

/-- The steps that keep the ledger a record of the effects.  A repeat has its arguments in the
same order as the effect it repeats, and waits for it to settle; a tool that is not idempotent
settles by returning; and the pulse ends with such tools settled and the ledger on disk.  Nothing
is asked of the steps that neither call nor end anything. -/
def Careful (world : World) : Label → Prop
  | .invoke call control task =>
      ∀ passed ∈ cleared registry sha1 gate rules control task call,
        ∀ earlier ∈ world.performed, Repeats earlier passed.1 passed.2 →
          earlier.2.stringify = passed.2.stringify ∧
            ∀ flight ∈ world.flights, flight.definition.id = passed.1.id →
              flight.args.stringify ≠ passed.2.stringify
  | .settle position outcome _ =>
      ∀ flight ∈ world.flights[position]?,
        flight.definition.idempotent = true ∨ outcome.isReturned = true
  | .die =>
      (∀ flight ∈ world.flights, flight.definition.idempotent = true) ∧ world.IsSaved
  | .discard => world.performed = []
  | .enter | .save => True

/-! ## The ledger as a record -/

/-- The effect has an entry in a ledger. -/
def IsRecorded (ledger : ToolLedger) (effect : String × Json) : Prop :=
  ∃ entry, ledger.get (callIdOf sha1 effect.1 effect.2) = some entry ∧ entry.ok = true

/-- The effect's tool is still running. -/
def World.IsAloft (world : World) (effect : String × Json) : Prop :=
  ∃ flight ∈ world.flights, flight.definition.id = effect.1 ∧
    flight.args.stringify = effect.2.stringify

/-- What every careful run keeps: the ledger in use holds each effect that has settled, the one
on disk each effect of the pulses before. -/
structure Recorded (world : World) : Prop where
  flights : ∀ flight ∈ world.flights,
    flight.callId = callIdOf sha1 flight.definition.id flight.args ∧
      KeyedList.get ToolDefinition.id registry flight.definition.id = some flight.definition
  effects : ∀ effect ∈ world.performed, ∃ definition,
    KeyedList.get ToolDefinition.id registry effect.1 = some definition ∧
      definition.idempotent = false
  working : world.working = true →
    ∀ effect ∈ world.performed, world.IsAloft effect ∨ IsRecorded sha1 world.ledger effect
  resting : world.working = false →
    world.flights = [] ∧ ∀ effect ∈ world.performed, IsRecorded sha1 world.saved effect
  once : world.Once

section Keeps

variable {registry sha1 gate rules} {world after : World} {label : Label}

theorem callIdOf_congr (tool : String) {args other : Json}
    (same : args.stringify = other.stringify) :
    callIdOf sha1 tool args = callIdOf sha1 tool other := by
  rw [callIdOf, callIdOf, same]

/-- What the ledger holds of an effect answers its repeats. -/
theorem replayed_of_recorded {ledger : ToolLedger} {effect : String × Json}
    {definition : ToolDefinition} (recorded : IsRecorded sha1 ledger effect)
    (same : effect.1 = definition.id) (acts : definition.idempotent = false) :
    ∃ entry, ledger.get (callIdOf sha1 definition.id effect.2) = some entry ∧ entry.ok = true ∧
      replayed ledger definition (callIdOf sha1 definition.id effect.2) =
        some (entry.output.getD []) := by
  have ⟨entry, found, good⟩ := recorded
  rw [same] at found
  refine ⟨entry, found, good, ?_⟩
  rw [replayed, acts, if_neg Bool.false_ne_true, found, Option.filter_some_pos good,
    Option.map_some]

/-- A repeat that is careful finds the effect it repeats on record. -/
theorem Recorded.isRecorded {control : Control} {task : PolicyTask} {call : Call}
    {definition : ToolDefinition} {args : Json} (recorded : Recorded registry sha1 world)
    (works : world.working = true)
    (careful : Careful registry sha1 gate rules world (.invoke call control task))
    (passed : cleared registry sha1 gate rules control task call = some (definition, args))
    (again : world.IsRepeat definition args) :
    definition.idempotent = false ∧ IsRecorded sha1 world.ledger (definition.id, args) := by
  have ⟨earlier, inside, repeats⟩ := again
  have ⟨text, landed⟩ := careful _ passed earlier inside repeats
  have ⟨registered, found, acts⟩ := recorded.effects earlier inside
  rw [repeats.1, get_of_cleared passed] at found
  cases found
  refine ⟨acts, ?_⟩
  cases recorded.working works earlier inside with
  | inl aloft =>
      have ⟨flight, flying, tool, same⟩ := aloft
      exact absurd (same.trans text) (landed flight flying (tool.trans repeats.1))
  | inr held =>
      rw [IsRecorded, repeats.1, callIdOf_congr definition.id text] at held
      exact held

theorem Recorded.answers {control : Control} {task : PolicyTask} {call : Call}
    (recorded : Recorded registry sha1 world) (works : world.working = true)
    (careful : Careful registry sha1 gate rules world (.invoke call control task)) :
    world.Answers registry sha1 gate rules control task call := by
  intro definition args passed again
  have ⟨acts, held⟩ := recorded.isRecorded works careful passed again
  have ⟨entry, found, good, replays⟩ := replayed_of_recorded held rfl acts
  refine ⟨entry, found, good, ?_⟩
  rw [invoke_of_cleared passed, replays]

/-- A tool starts. -/
theorem Recorded.start {control : Control} {task : PolicyTask} {call : Call}
    {definition : ToolDefinition} {args : Json} {callId : String}
    (recorded : Recorded registry sha1 world) (works : world.working = true)
    (careful : Careful registry sha1 gate rules world (.invoke call control task))
    (runs : invoke registry sha1 gate rules world.ledger control task call =
      .run definition args callId) :
    Recorded registry sha1 (world.start { definition, args, callId }) := by
  have passed := cleared_of_run runs
  have fresh : ¬ world.IsRepeat definition args := by
    intro again
    obtain ⟨entry, _, _, replays⟩ := recorded.answers works careful definition args passed again
    rw [runs] at replays
    contradiction
  have named : callId = callIdOf sha1 definition.id args := by
    rw [invoke_of_cleared passed] at runs
    split at runs
    next => contradiction
    next =>
      cases runs
      rfl
  have mem_performed : ∀ effect ∈ (world.start { definition, args, callId }).performed,
      effect ∈ world.performed ∨ effect = (definition.id, args) ∧ definition.idempotent = false := by
    intro effect inside
    rw [World.start] at inside
    split at inside
    next => exact .inl inside
    next acts =>
      cases List.mem_append.1 inside with
      | inl before => exact .inl before
      | inr here => exact .inr ⟨List.mem_singleton.1 here, Bool.eq_false_iff.2 acts⟩
  constructor
  case flights =>
    intro flight flying
    cases List.mem_append.1 flying with
    | inl before => exact recorded.flights flight before
    | inr here =>
        cases List.mem_singleton.1 here
        exact ⟨named, get_of_cleared passed⟩
  case effects =>
    intro effect inside
    cases mem_performed effect inside with
    | inl before => exact recorded.effects effect before
    | inr here =>
        obtain ⟨same, acts⟩ := here
        exact ⟨definition, same ▸ get_of_cleared passed, acts⟩
  case working =>
    intro _ effect inside
    cases mem_performed effect inside with
    | inl before =>
        cases recorded.working works effect before with
        | inl aloft =>
            obtain ⟨flight, flying, same⟩ := aloft
            exact .inl ⟨flight, List.mem_append_left _ flying, same⟩
        | inr held => exact .inr held
    | inr here =>
        left
        refine ⟨{ definition, args, callId }, List.mem_append_right _ List.mem_cons_self, ?_⟩
        rw [here.1]
        exact ⟨rfl, rfl⟩
  case resting =>
    intro rests
    rw [show (world.start _).working = world.working from rfl, works] at rests
    contradiction
  case once =>
    rw [World.Once, World.start]
    split
    next => exact recorded.once
    next =>
      apply List.pairwise_append.2
      refine ⟨recorded.once, List.pairwise_singleton _ _, ?_⟩
      intro earlier inside later here again
      cases List.mem_singleton.1 here
      exact fresh ⟨earlier, inside, again⟩

/-- A tool settles. -/
theorem Recorded.settle {position : Nat} {outcome : Outcome} {at' : Time} {flight : Flight}
    {results : List Result}
    (recorded : Recorded registry sha1 world) (works : world.working = true)
    (found : world.flights[position]? = some flight)
    (careful : flight.definition.idempotent = true ∨ outcome.isReturned = true) :
    Recorded registry sha1 { world with
      flights := world.flights.eraseIdx position
      ledger := flight.settle world.ledger at' outcome
      results } := by
  have ⟨named, registered⟩ := recorded.flights flight (List.mem_of_getElem? found)
  constructor
  case flights =>
    intro other flying
    exact recorded.flights other (List.mem_of_mem_eraseIdx flying)
  case effects => exact recorded.effects
  case working =>
    intro _ effect inside
    by_cases mine : flight.definition.id = effect.1 ∧ flight.args.stringify = effect.2.stringify
    · -- The tool that settles is the effect's own: its entry is on record now.
      right
      have ⟨tool, text⟩ := mine
      have ⟨definition, same, acts⟩ := recorded.effects effect inside
      rw [← tool, registered] at same
      cases same
      have returned : outcome.isReturned = true := by
        cases careful with
        | inl harmless =>
            rw [acts] at harmless
            contradiction
        | inr returned => exact returned
      refine ⟨flight.entry at' outcome, ?_, ?_⟩
      · rw [Flight.settle, acts, if_neg Bool.false_ne_true, ToolLedger.get_set, named, tool,
          callIdOf_congr _ text, if_pos rfl]
      · cases outcome with
        | returned output => rfl
        | threw message => contradiction
        | timedOut => contradiction
    · cases recorded.working works effect inside with
      | inl aloft =>
          left
          have ⟨other, flying, same⟩ := aloft
          have ⟨index, there⟩ := List.mem_iff_getElem?.1 flying
          refine ⟨other, List.mem_eraseIdx_iff_getElem?.2 ⟨index, ?_, there⟩, same⟩
          intro here
          rw [here, found] at there
          cases there
          exact mine same
      | inr held =>
          right
          have ⟨entry, there, good⟩ := held
          rw [Flight.settle]
          split
          next => exact ⟨entry, there, good⟩
          next acts =>
            by_cases same : callIdOf sha1 effect.1 effect.2 = flight.callId
            · refine ⟨flight.entry at' outcome, ?_, ?_⟩
              · rw [ToolLedger.get_set, if_pos same]
              · cases outcome with
                | returned output => rfl
                | threw message => simp_all [Outcome.isReturned]
                | timedOut => simp_all [Outcome.isReturned]
            · refine ⟨entry, ?_, good⟩
              rw [ToolLedger.get_set, if_neg same]
              exact there
  case resting =>
    intro rests
    rw [works] at rests
    contradiction
  case once => exact recorded.once

/-- What is on disk as well is not lost with the process. -/
theorem isRecorded_of_isSaved {effect : String × Json} (saved : world.IsSaved)
    (held : IsRecorded sha1 world.ledger effect) : IsRecorded sha1 world.saved effect := by
  have ⟨entry, found, good⟩ := held
  have ⟨record, among, same⟩ := Option.map_eq_some_iff.1 found
  have key := KeyedList.key_of_get among
  have kept := saved record (KeyedList.mem_of_get among) (same ▸ good)
  rw [key, Option.any_eq_true] at kept
  exact kept

theorem Recorded.die (recorded : Recorded registry sha1 world) (works : world.working = true)
    (careful : Careful registry sha1 gate rules world .die) :
    Recorded registry sha1 { world with working := false, flights := [] } := by
  have ⟨landed, saved⟩ := careful
  constructor
  case flights =>
    intro flight flying
    contradiction
  case effects => exact recorded.effects
  case working =>
    intro again
    contradiction
  case resting =>
    intro _
    refine ⟨rfl, ?_⟩
    intro effect inside
    cases recorded.working works effect inside with
    | inl aloft =>
        have ⟨flight, flying, tool, _⟩ := aloft
        have ⟨definition, found, acts⟩ := recorded.effects effect inside
        rw [← tool, (recorded.flights flight flying).2] at found
        cases found
        rw [landed flight flying] at acts
        contradiction
    | inr held => exact isRecorded_of_isSaved saved held
  case once => exact recorded.once

theorem Recorded.next (recorded : Recorded registry sha1 world)
    (careful : Careful registry sha1 gate rules world label)
    (stepped : world.next registry sha1 gate rules label = some after) :
    Recorded registry sha1 after := by
  cases label with
  | enter =>
      simp only [World.next] at stepped
      split at stepped
      next => contradiction
      next rests =>
        cases stepped
        have ⟨_, held⟩ := recorded.resting (Bool.eq_false_iff.2 rests)
        exact { recorded with
          flights := nofun
          working := fun _ effect inside => .inr (held effect inside)
          resting := nofun }
  | invoke call control task =>
      simp only [World.next] at stepped
      split at stepped
      next works =>
        split at stepped
        next =>
          cases stepped
          exact { recorded with }
        next definition args callId runs =>
          cases stepped
          exact recorded.start works careful runs
      next => contradiction
  | settle position outcome at' =>
      simp only [World.next] at stepped
      split at stepped
      next works =>
        have ⟨flight, found, same⟩ := Option.map_eq_some_iff.1 stepped
        cases same
        exact recorded.settle works found (careful flight found)
      next => contradiction
  | save =>
      simp only [World.next] at stepped
      split at stepped
      next works =>
        cases stepped
        exact { recorded with resting := fun rests => absurd works (Bool.eq_false_iff.1 rests) }
      next => contradiction
  | die =>
      simp only [World.next] at stepped
      split at stepped
      next works =>
        cases stepped
        exact recorded.die works careful
      next => contradiction
  | discard =>
      cases stepped
      have none' : world.performed = [] := careful
      constructor
      case flights => nofun
      case effects => exact recorded.effects
      case working => nofun
      case resting =>
        intro _
        refine ⟨rfl, ?_⟩
        intro effect inside
        rw [none'] at inside
        contradiction
      case once => exact recorded.once

/-- In every careful run no effect takes place twice, and the next call that repeats one is
answered from the record. -/
theorem oncePerTask_of_reachable
    (reachable : (system registry sha1 gate rules).Reachable (Careful registry sha1 gate rules)
      world) :
    world.Once ∧ ∀ call control task, world.working = true →
      Careful registry sha1 gate rules world (.invoke call control task) →
      world.Answers registry sha1 gate rules control task call := by
  suffices recorded : Recorded registry sha1 world from
    ⟨recorded.once, fun call control task works careful => recorded.answers works careful⟩
  apply reachable.invariant (Recorded registry sha1)
  · intro start same
    subst same
    constructor
    case flights => nofun
    case effects => nofun
    case working => nofun
    case resting =>
      intro _
      exact ⟨rfl, nofun⟩
    case once => exact .nil
  · intro before label after _ recorded careful stepped
    exact recorded.next careful stepped

end Keeps

end Once

/-! ## Runs -/

instance (world : World) : Decidable world.IsSaved :=
  inferInstanceAs (Decidable (∀ record ∈ world.ledger, record.2.ok = true → _ = true))

instance (earlier : String × Json) (definition : ToolDefinition) (args : Json) :
    Decidable (Repeats earlier definition args) :=
  inferInstanceAs (Decidable (_ ∧ _))

instance (registry : List ToolDefinition) (sha1 : Utf16 → String)
    (gate : ToolDefinition → Json → Option Utf16) (rules : SafetyRules) (world : World)
    (label : Label) : Decidable (Careful registry sha1 gate rules world label) :=
  match label with
  | .invoke _ _ _ => inferInstanceAs (Decidable (∀ passed ∈ cleared _ _ _ _ _ _ _,
      ∀ earlier ∈ world.performed, Repeats earlier passed.1 passed.2 → _ ∧
        ∀ flight ∈ world.flights, _ → _ ≠ _))
  | .settle _ _ _ => inferInstanceAs (Decidable (∀ flight ∈ _, _ ∨ _))
  | .die => inferInstanceAs (Decidable ((∀ flight ∈ world.flights, _) ∧ world.IsSaved))
  | .discard => decidable_of_iff (world.performed.isEmpty = true) List.isEmpty_iff
  | .enter | .save => isTrue trivial

/-- `CONNECTOR_CALL_SCHEMA`. -/
def connectorCallSchema : Schema :=
  let nameUnit := fun unit => isLower unit || isDigit unit || unit == 0x5F
  let name := fun longest => Regex.seqs [.start, .oneOf isLower,
    .repeat' nameUnit 1 (some longest) false, .stop]
  let connection := Regex.seqs [.start, Regex.text "c_",
    Regex.exactly (fun unit => isDigit unit || (0x61 ≤ unit && unit ≤ 0x66)) 16, .stop]
  let textOf := fun longest source pattern => plain
    { types := [.string], minLength := some 2, maxLength := some longest
      pattern := some (ofString source, pattern) }
  objectOf { required := [ofString "connector", ofString "action"], closed := true } [
    (ofString "connector", textOf 64 "^[a-z][a-z0-9_]\x7b1,63\x7d$|^c_[0-9a-f]\x7b16\x7d$"
      (.alt (name 63) connection)),
    (ofString "action", textOf 41 "^[a-z][a-z0-9_]\x7b1,40\x7d$" (name 40)),
    (ofString "input", .node { types := [.object] } [] [] [] [plain {}])]

/-- The tool that calls an action of a connected service. -/
def connectorCall : ToolDefinition where
  id := "connector_call"
  effect := .external
  schema := connectorCallSchema
  idempotent := false
  timeoutMs := 27000

def connectorArg : Utf16 × Json := (ofString "connector", .string (ofString "slack"))

def actionArg : Utf16 × Json := (ofString "action", .string (ofString "post_message"))

def inputArg : Utf16 × Json :=
  (ofString "input", .object [(ofString "text", .string (ofString "hi"))])

/-- A message is posted. -/
def posts : Call where
  tool := "connector_call"
  args := some (.object [connectorArg, actionArg, inputArg])

/-- The same call, its keys in another order. -/
def postsToo : Call where
  tool := "connector_call"
  args := some (.object [actionArg, connectorArg, inputArg])

/-- The SHA-1 of the arguments of these calls. -/
def digestOf (text : Utf16) : String :=
  if text = posts.given.stringify then "08f85f0d2eee8122563f6b9a266c3ebdba6d31db"
  else "19bbec79f6f2fc787119a2e86348e666a8c0d54b"

/-- The reviewer gate finds nothing destructive. -/
def quiet : ToolDefinition → Json → Option Utf16 := fun _ _ => none

/-- The message is posted, and the pulse dies after its checkpoint; the next one asks again. -/
def repliedRun : List Label := [.enter, .invoke posts {} {},
  .settle 0 (.returned (.string (ofString "posted"))) 0, .save, .die, .enter]

theorem repliedRun_runs :
    ((system [connectorCall] digestOf quiet Policy.defaultSafetyRules).exec
      (Careful [connectorCall] digestOf quiet Policy.defaultSafetyRules) World.empty
      repliedRun).any (fun world =>
        decide (world.working = true ∧ world.performed.length = 1 ∧
          Careful [connectorCall] digestOf quiet Policy.defaultSafetyRules world
            (.invoke posts {} {}))) = true := by
  decide

theorem oncePerTask_of_repliedRun : ∃ world : World, world.performed.length = 1 ∧ world.Once ∧
    world.Answers [connectorCall] digestOf quiet Policy.defaultSafetyRules {} {} posts := by
  have ⟨world, reached, ran⟩ := Reachable.exists_of_exec (.start rfl) repliedRun_runs
  have ⟨works, single, careful⟩ := of_decide_eq_true ran
  have ⟨once, answers⟩ := oncePerTask_of_reachable reached
  exact ⟨world, single, once, answers posts {} {} works careful⟩

/-- The message is posted, and the model asks again with the keys in another order. -/
def reorderedRun : List Label := [.enter, .invoke posts {} {},
  .settle 0 (.returned (.string (ofString "posted"))) 0, .invoke postsToo {} {}]

theorem reorderedRun_runs :
    ((system [connectorCall] digestOf quiet Policy.defaultSafetyRules).exec always World.empty
      reorderedRun).any (fun world => decide (∃ earlier ∈ world.performed[0]?,
        ∃ later ∈ world.performed[1]?, earlier.1 = later.1 ∧ earlier.2.equal later.2 = true)) =
      true := by
  decide

theorem not_oncePerTask_of_reorderedRun : ¬ ∀ (registry : List ToolDefinition)
    (sha1 : Utf16 → String) (gate : ToolDefinition → Json → Option Utf16) (rules : SafetyRules)
    (world : World), (system registry sha1 gate rules).Reachable always world → world.Once := by
  intro all
  have ⟨world, reached, ran⟩ := Reachable.exists_of_exec (.start rfl) reorderedRun_runs
  have ⟨earlier, first, later, second, same⟩ := of_decide_eq_true ran
  have once := all _ _ _ _ world reached
  have ⟨short, earlier'⟩ := List.getElem?_eq_some_iff.1 first
  have ⟨long, later'⟩ := List.getElem?_eq_some_iff.1 second
  have apart := List.pairwise_iff_getElem.1 once 0 1 short long Nat.zero_lt_one
  rw [earlier', later'] at apart
  exact apart same

end Tools

end TitanRunner
