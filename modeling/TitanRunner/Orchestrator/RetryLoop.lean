import TitanRunner.Orchestrator.Scheduler
import TitanRunner.Reliability.RetryPolicy
import TitanRunner.Tools.CallParser

/-!
# The retry loop of a step

`Scheduler.#runWithRetry` of `orchestrator/scheduler.js` and the loop detector of
`reliability/loopDetector.js`: one call after the other, of one model and then of the next,
until an answer is usable or the policy ends it.  What the adapters, the tools, the dice and
the abort signal do is given round by round.
-/

namespace TitanRunner

namespace Orchestrator

namespace RetryLoop

open RetryPolicy Utf16
open CallParser (ToolCall)

/-! ## The loop detector -/

/-- `maxRepeats` and `noProgressLimit`, and what was counted so far. -/
structure LoopDetector (Signature : Type) where
  maxRepeats : Nat
  noProgressLimit : Nat := 6
  counts : List (Signature × Nat) := []
  noProgress : Nat := 0
  total : Nat := 0

structure Repeat (Signature : Type) where
  signature : Signature
  repeats : Nat
  looping : Bool
  stalled : Bool

section Detector

variable {Signature : Type} [DecidableEq Signature]

/-- `observe` of something that moved nothing forward. -/
def LoopDetector.observe (detector : LoopDetector Signature) (signature : Signature) :
    LoopDetector Signature × Repeat Signature :=
  let repeats := ((KeyedList.get Prod.fst detector.counts signature).map Prod.snd).getD 0 + 1
  let noProgress := detector.noProgress + 1
  ({ detector with
      counts := KeyedList.insert Prod.fst detector.counts (signature, repeats)
      noProgress
      total := detector.total + 1 },
    { signature, repeats, looping := decide (detector.maxRepeats ≤ repeats)
      stalled := decide (detector.noProgressLimit ≤ noProgress) })

end Detector

/-! ## What is given -/

/-- What `classifyFailure` makes of a failure. -/
structure Classified where
  class' : FailureClass
  code : Option Utf16
  message : Utf16
  retryAfterMs : Option Nat
  deriving DecidableEq, Repr

/-- What an adapter's `execute` resolves to. -/
inductive Reply where
  | answered (output : Utf16)
  | failed (failure : Classified)
  deriving DecidableEq, Repr

/-- What `tools.invoke` resolves to. -/
inductive Invoked where
  | output (output : Utf16)
  | error (code message approvalKey : Utf16)
  deriving DecidableEq, Repr

/-- What is given of a round. -/
structure Outcome where
  reply : Reply
  ms : Nat
  invoked : Invoked
  invokedMs : Nat
  random : Draw
  /-- How long a wait lasts that the signal cuts short. -/
  sleptMs : Nat

/-- What a loop detector is shown. -/
inductive Observed where
  | failure (class' : FailureClass) (code : Option Utf16) (message modelId : Utf16)
  | toolCall (call : ToolCall)

structure Setup (Signature : Type) where
  /-- The ranked candidates, of which there is one. -/
  first : Candidate
  others : List Candidate
  maxAttempts : Nat
  maxToolCalls : Nat
  /-- There are tools to call. -/
  tools : Bool
  fingerprint : Observed → Signature
  /-- The moment the signal is aborted; a round has three. -/
  abortsAt : Option Nat
  outcomes : Nat → Outcome

/-- What happens in the loop, with the time that has passed. -/
inductive Happened where
  | called (agent : Option Candidate) (at' : Nat)
  | failed (agent : Option Candidate) (class' : FailureClass) (retryAfterMs : Option Nat)
      (at' : Nat)
  | waited (ms : Nat)
  deriving DecidableEq, Repr

/-- The variables of the loop. -/
structure State (Signature : Type) where
  index : Nat := 0
  sameProviderAttempts : Nat := 0
  attemptsUsed : Nat := 0
  hops : Nat := 0
  toolRounds : Nat := 0
  loop : LoopDetector Signature := { maxRepeats := 2 }
  toolLoop : LoopDetector Signature := { maxRepeats := 3 }
  lastError : Option StepError := none
  clock : Nat := 0
  happened : List Happened := []

structure Result where
  ok : Bool
  output : Option Utf16
  modelId : Option Utf16
  error : Option StepError
  deriving DecidableEq, Repr

/-- How a round ends. -/
inductive Next (Signature : Type) where
  | goOn (state : State Signature)
  | done (state : State Signature) (result : Result)

/-! ## Errors -/

def errorOf (failure : Classified) : StepError where
  code := failure.code.getD (ofString "UPSTREAM_ERROR")
  class' := failure.class'.text
  message := failure.message

def cancelledError : StepError where
  code := ofString "CANCELLED"
  class' := ofString "cancelled"
  message := ofString "Run was cancelled"

def exhaustedError : StepError where
  code := ofString "UPSTREAM_ERROR"
  class' := ofString "transient"
  message := ofString "All attempts failed."

def loopError (call : ToolCall) (repeats : Nat) : StepError where
  code := ofString "LOOP_DETECTED"
  class' := ofString "poisoned"
  message := ofString "the step asked for the same tool call (" ++ call.tool ++ ofString ") " ++
    ofNat repeats ++ ofString " times"

def toolLimitError (maxToolCalls : Nat) : StepError where
  code := ofString "TOOL_LIMIT"
  class' := ofString "poisoned"
  message := ofString "the step made more than " ++ ofNat maxToolCalls ++
    ofString " tool calls without answering"

def noProgressError (failure : Classified) (repeats : Nat) : StepError where
  code := ofString "NO_PROGRESS"
  class' := ofString "poisoned"
  message := ofString "the same failure recurred " ++ ofNat repeats ++ ofString " times: " ++
    failure.message

def codeText : OutputRepair.Code → Utf16
  | .emptyOutput => ofString "EMPTY_OUTPUT"
  | .refusal => ofString "REFUSAL"
  | .malformedOutput => ofString "MALFORMED_OUTPUT"

/-- The failure an answer amounts to that is not usable. -/
def unusableAnswer : OutputRepair.Verdict → Option Classified
  | .ok => none
  | .failed code message =>
      some { class' := .malformedOutput, code := some (codeText code)
             message := (ofString message).take 500, retryAfterMs := none }

/-! ## The loop -/

section Loop

variable {Signature : Type} (setup : Setup Signature)

def Setup.ranked : List Candidate := setup.first :: setup.others

def Setup.distinct : List Candidate := distinctModels setup.ranked

/-- `signal.aborted`. -/
def Setup.aborted (moment : Nat) : Bool := setup.abortsAt.any (· ≤ moment)

def Setup.current (state : State Signature) : Option Candidate := setup.distinct[state.index]?

def Setup.result (state : State Signature) (error : StepError) : Result where
  ok := false
  output := none
  modelId := (setup.current state).map Candidate.modelId
  error := some error

def State.call (state : State Signature) (agent : Option Candidate) (ms : Nat) : State Signature :=
  { state with
    clock := state.clock + ms
    happened := state.happened ++ [.called agent state.clock] }

def State.fail (state : State Signature) (agent : Option Candidate) (class' : FailureClass)
    (retryAfterMs : Option Nat) : State Signature :=
  { state with happened := state.happened ++ [.failed agent class' retryAfterMs state.clock] }

/-- `sleepUnlessAborted`, if there is anything to wait for. -/
def State.wait (state : State Signature) (ms : Nat) : State Signature :=
  { state with clock := state.clock + ms, happened := state.happened ++ [.waited ms] }

def Setup.situation (state : State Signature) (failure : Classified) (random : Draw) :
    Situation where
  class' := failure.class'
  retryAfterMs := failure.retryAfterMs
  sameProviderAttempts := state.sameProviderAttempts
  attemptsUsed := state.attemptsUsed
  maxAttempts := setup.maxAttempts
  nextAvailable := decide (state.index + 1 < setup.distinct.length)
  hops := state.hops
  -- The step has no `parks` of its own.
  parks := 0
  random

/-- How long the wait of a round lasts; the last moment of a round is its end. -/
def Setup.slept (round delayMs sleptMs : Nat) : Nat :=
  if setup.aborted (3 * round + 2) then min sleptMs delayMs else delayMs

/-- What follows the policy's decision. -/
def Setup.decide (round : Nat) (state : State Signature) (failure : Classified)
    (outcome : Outcome) : Next Signature :=
  match decideRetry (setup.situation state failure outcome.random) with
  | .retrySame delayMs _ =>
      .goOn (if delayMs = 0 then state
        else state.wait (setup.slept round delayMs outcome.sleptMs))
  | .retryNext _ =>
      .goOn { state with index := state.index + 1, hops := state.hops + 1
                         sameProviderAttempts := 0 }
  | .park reason wakeInMs why =>
      .done state (setup.result state { errorOf failure with
        park := some { reason, wakeInMs, why, approvalKey := none } })
  | .giveUp _ => .done state (setup.result state (errorOf failure))

variable [DecidableEq Signature]

def approvalRequired : Utf16 := ofString "APPROVAL_REQUIRED"

/-- The tool round. -/
def Setup.toolRound (state : State Signature) (call : ToolCall) (outcome : Outcome) :
    Next Signature :=
  let agent := setup.current state
  let (toolLoop, repeat') := state.toolLoop.observe (setup.fingerprint (.toolCall call))
  let state := { state with toolRounds := state.toolRounds + 1, toolLoop }
  if repeat'.looping then
    .done (state.fail agent .poisoned none) (setup.result state (loopError call repeat'.repeats))
  else if setup.maxToolCalls < state.toolRounds then
    .done (state.fail agent .poisoned none)
      (setup.result state (toolLimitError setup.maxToolCalls))
  else
    let invoked := { state with clock := state.clock + outcome.invokedMs }
    match outcome.invoked with
    | .output _ => .goOn invoked
    | .error code message approvalKey =>
        if code = approvalRequired then
          .done (invoked.fail agent .policyBlocked none)
            (setup.result invoked (approvalError message approvalKey))
        else .goOn invoked

/-- A failed attempt. -/
def Setup.failAttempt (round : Nat) (state : State Signature) (failure : Classified)
    (outcome : Outcome) : Next Signature :=
  let agent := setup.current state
  let state := state.fail agent failure.class' failure.retryAfterMs
  let state := { state with lastError := some (errorOf failure) }
  if setup.aborted (3 * round + 1) then .done state (setup.result state (errorOf failure))
  else
    let (loop, repeat') := state.loop.observe (setup.fingerprint (.failure failure.class'
      failure.code failure.message ((agent.map Candidate.modelId).getD [])))
    let state := { state with loop }
    if repeat'.looping && failure.class' != .malformedOutput && (parkable failure.class').isNone then
      .done state (setup.result state (noProgressError failure repeat'.repeats))
    else setup.decide round state failure outcome

/-- The attempt. -/
def Setup.attempt (round : Nat) (state : State Signature) (failure : Option Classified)
    (output : Utf16) (outcome : Outcome) : Next Signature :=
  let state := { state with attemptsUsed := state.attemptsUsed + 1
                            sameProviderAttempts := state.sameProviderAttempts + 1 }
  match failure with
  | none =>
      .done state { ok := true, output := some output
                    modelId := (setup.current state).map Candidate.modelId, error := none }
  | some failure => setup.failAttempt round state failure outcome

/-- One round: a call, and what follows it. -/
def Setup.round (round : Nat) (state : State Signature) (outcome : Outcome) : Next Signature :=
  let state := state.call (setup.current state) outcome.ms
  match outcome.reply with
  | .failed failure => setup.attempt round state (some failure) [] outcome
  | .answered output =>
      match CallParser.turn setup.tools output with
      | .toolRound call => setup.toolRound state call outcome
      | .output output => setup.attempt round state none output outcome
      | .failed verdict => setup.attempt round state (unusableAnswer verdict) output outcome

/-- The loop; `fuel` bounds the rounds. -/
def Setup.runFrom : Nat → Nat → State Signature → Option (State Signature × Result)
  | 0, _, _ => none
  | fuel + 1, round, state =>
      if state.attemptsUsed < setup.maxAttempts then
        if setup.aborted (3 * round) then some (state, setup.result state cancelledError)
        else
          match setup.round round state (setup.outcomes round) with
          | .done state result => some (state, result)
          | .goOn state => Setup.runFrom fuel (round + 1) state
      else some (state, setup.result state (state.lastError.getD exhaustedError))

/-- `#runWithRetry`. -/
def Setup.runWithRetry : Option (State Signature × Result) :=
  setup.runFrom (setup.maxAttempts + setup.maxToolCalls + 1) 0 {}

end Loop

/-! ## What the loop keeps to -/

/-- The calls among what happened. -/
def Happened.isCall : Happened → Bool
  | .called _ _ => true
  | _ => false

def State.calls {Signature : Type} (state : State Signature) : List Happened :=
  state.happened.filter Happened.isCall

/-- What a failure says about later calls: none of that model after a failure that is final,
and none before the time an honoured Retry-After asks for. -/
def Obeys : Happened → Happened → Prop
  | .failed (some failed) class' retryAfterMs failedAt, .called (some agent) calledAt =>
      agent.modelId = failed.modelId → class' ≠ .permanent ∧ class' ≠ .policyBlocked ∧
        ((policy class').honorRetryAfter = true →
          ∀ asked ∈ retryAfterMs, failedAt + asked ≤ calledAt)
  | _, _ => True

section Sound

variable {Signature : Type} (setup : Setup Signature)

/-- A failure has left its model behind, or the model may be called again at this time. -/
def Setup.Settled (index clock : Nat) (interrupted : Bool) : Happened → Prop
  | .failed agent class' retryAfterMs failedAt => ∃ failed, agent = some failed ∧
      (failed ∈ setup.distinct.take index ∨
        class' ≠ .permanent ∧ class' ≠ .policyBlocked ∧ (interrupted = false →
          (policy class').honorRetryAfter = true →
            ∀ asked ∈ retryAfterMs, failedAt + asked ≤ clock))
  | _ => True

/-- What the log of a run shows. -/
structure Setup.Told (happened : List Happened) : Prop where
  agents : ∀ agent at', .called agent at' ∈ happened →
    ∃ candidate ∈ setup.ranked, agent = some candidate
  obeys : happened.Pairwise Obeys
  waits : ∀ ms, .waited ms ∈ happened → ms ≤ defaultMaxInlineWaitMs

/-- The loop may go on: what it has spent, and what the log lets it do. -/
structure Setup.Sound (state : State Signature) (interrupted : Bool) : Prop where
  told : setup.Told state.happened
  within : state.index < setup.distinct.length
  settled : ∀ event ∈ state.happened, setup.Settled state.index state.clock interrupted event
  counted : state.calls.length = state.attemptsUsed + state.toolRounds
  attempts : state.attemptsUsed ≤ setup.maxAttempts
  tools : state.toolRounds ≤ setup.maxToolCalls

/-- The call of a round was made. -/
structure Setup.Called (state : State Signature) : Prop where
  told : setup.Told state.happened
  within : state.index < setup.distinct.length
  settled : ∀ event ∈ state.happened, setup.Settled state.index state.clock false event
  counted : state.calls.length = state.attemptsUsed + state.toolRounds + 1
  attempts : state.attemptsUsed < setup.maxAttempts
  tools : state.toolRounds ≤ setup.maxToolCalls

/-- The attempt of a round has failed, and the failure is on the log. -/
structure Setup.Failed (state : State Signature) (failure : Classified) (current : Candidate) :
    Prop where
  told : setup.Told state.happened
  here : setup.distinct[state.index]? = some current
  settled : ∀ event ∈ state.happened, setup.Settled state.index state.clock false event ∨
    event = .failed (some current) failure.class' failure.retryAfterMs state.clock
  counted : state.calls.length = state.attemptsUsed + state.toolRounds
  attempts : state.attemptsUsed ≤ setup.maxAttempts
  tools : state.toolRounds ≤ setup.maxToolCalls
  tried : 0 < state.sameProviderAttempts

/-- The loop has ended. -/
structure Setup.Ended (state : State Signature) : Prop where
  told : setup.Told state.happened
  calls : state.calls.length ≤ setup.maxAttempts + (setup.maxToolCalls + 1)

/-- A round ends the loop, or lets it go on with one call more on its account. -/
def Setup.Keeps (round spent : Nat) : Next Signature → Prop
  | .goOn state => setup.Sound state (setup.aborted (3 * (round + 1))) ∧
      state.attemptsUsed + state.toolRounds = spent + 1
  | .done state _ => setup.Ended state

variable {setup}

theorem pairwise_distinctModels (ranked : List Candidate) :
    (distinctModels ranked).Pairwise fun one other => other.modelId ≠ one.modelId := by
  induction ranked with
  | nil => exact .nil
  | cons candidate rest ih =>
      refine .cons ?_ (ih.filter _)
      intro other inside
      simpa using (List.mem_filter.1 inside).2

/-- No candidate before the current one has its model. -/
theorem modelId_ne_of_mem_take {index : Nat} {earlier current : Candidate}
    (inside : earlier ∈ setup.distinct.take index) (here : setup.distinct[index]? = some current) :
    current.modelId ≠ earlier.modelId := by
  have ⟨before, bound⟩ := List.mem_take_iff_getElem.1 inside
  obtain ⟨less, rfl⟩ := bound
  obtain ⟨within, rfl⟩ := List.getElem?_eq_some_iff.1 here
  exact List.pairwise_iff_getElem.1 (pairwise_distinctModels setup.ranked) before index _ _
    (Nat.lt_of_lt_of_le less (Nat.min_le_left _ _))

theorem obeys_of_not_call (event : Happened) {later : Happened} (other : later.isCall = false) :
    Obeys event later := by
  cases later with
  | called => contradiction
  | failed => cases event <;> first | trivial | (next agent _ _ _ => cases agent <;> trivial)
  | waited => cases event <;> first | trivial | (next agent _ _ _ => cases agent <;> trivial)

/-- What was settled allows the call of the current model. -/
theorem obeys_of_settled {index clock : Nat} {event : Happened} {current : Candidate}
    (settled : setup.Settled index clock false event) (here : setup.distinct[index]? = some current) :
    Obeys event (.called (some current) clock) := by
  cases event with
  | called => trivial
  | waited => trivial
  | failed agent class' retryAfterMs failedAt =>
      obtain ⟨failed, rfl, left⟩ := settled
      intro same
      cases left with
      | inl earlier => exact absurd same (modelId_ne_of_mem_take earlier here)
      | inr again => exact ⟨again.1, again.2.1, again.2.2 rfl⟩

theorem Setup.Settled.mono {index clock index' clock' : Nat} {interrupted : Bool} {event : Happened}
    (settled : setup.Settled index clock interrupted event) (moves : index ≤ index')
    (passes : clock ≤ clock') : setup.Settled index' clock' interrupted event := by
  cases event with
  | called => trivial
  | waited => trivial
  | failed agent class' retryAfterMs failedAt =>
      obtain ⟨failed, known, left⟩ := settled
      refine ⟨failed, known, left.imp ?_ ?_⟩
      · exact fun inside => (List.take_sublist_take_left moves).subset inside
      · rintro ⟨hopeful, allowed, waits⟩
        exact ⟨hopeful, allowed, fun rest honours asked inside =>
          (waits rest honours asked inside).trans passes⟩

/-- What holds of a wait that was not cut short holds of any. -/
theorem Setup.Settled.weaken {index clock : Nat} {interrupted : Bool} {event : Happened}
    (settled : setup.Settled index clock false event) :
    setup.Settled index clock interrupted event := by
  cases event with
  | called => trivial
  | waited => trivial
  | failed agent class' retryAfterMs failedAt =>
      obtain ⟨failed, known, left⟩ := settled
      exact ⟨failed, known, left.imp_right fun ⟨hopeful, allowed, waits⟩ =>
        ⟨hopeful, allowed, fun _ => waits rfl⟩⟩

theorem length_calls_call (state : State Signature) (agent : Option Candidate) (ms : Nat) :
    (state.call agent ms).calls.length = state.calls.length + 1 := by
  rw [State.calls, State.call, List.filter_append, List.length_append]
  rfl

theorem calls_fail (state : State Signature) (agent : Option Candidate) (class' : FailureClass)
    (retryAfterMs : Option Nat) : (state.fail agent class' retryAfterMs).calls = state.calls := by
  rw [State.calls, State.fail, List.filter_append]
  exact List.append_nil _

theorem calls_wait (state : State Signature) (ms : Nat) : (state.wait ms).calls = state.calls := by
  rw [State.calls, State.wait, List.filter_append]
  exact List.append_nil _

section Log

variable {happened : List Happened}

theorem Setup.Told.fail (told : setup.Told happened) (agent : Option Candidate)
    (class' : FailureClass) (retryAfterMs : Option Nat) (at' : Nat) :
    setup.Told (happened ++ [.failed agent class' retryAfterMs at']) where
  agents := by simpa using told.agents
  obeys := List.pairwise_append.2 ⟨told.obeys, List.pairwise_singleton .., fun event _ later inside =>
    obeys_of_not_call event (List.mem_singleton.1 inside ▸ rfl)⟩
  waits := by simpa using told.waits

theorem Setup.Told.wait (told : setup.Told happened) {ms : Nat}
    (short : ms ≤ defaultMaxInlineWaitMs) : setup.Told (happened ++ [.waited ms]) where
  agents := by simpa using told.agents
  obeys := List.pairwise_append.2 ⟨told.obeys, List.pairwise_singleton .., fun event _ later inside =>
    obeys_of_not_call event (List.mem_singleton.1 inside ▸ rfl)⟩
  waits other inside := by
    cases List.mem_append.1 inside with
    | inl before => exact told.waits other before
    | inr here => exact Happened.waited.inj (List.mem_singleton.1 here) ▸ short

end Log

section Round

variable {state : State Signature} {round : Nat} {outcome : Outcome}

/-- A call is made of the current candidate, whom no failure forbids. -/
theorem Setup.Sound.call (sound : setup.Sound state false)
    (open' : state.attemptsUsed < setup.maxAttempts) (ms : Nat) :
    setup.Called (state.call (setup.current state) ms) := by
  have ⟨current, here⟩ : ∃ current, setup.current state = some current :=
    ⟨_, List.getElem?_eq_getElem sound.within⟩
  have ranked := mem_of_mem_distinctModels (List.mem_of_getElem? here)
  constructor
  · constructor
    · intro agent at' inside
      cases List.mem_append.1 inside with
      | inl before => exact sound.told.agents agent at' before
      | inr last =>
          have ⟨same, _⟩ := Happened.called.inj (List.mem_singleton.1 last)
          exact ⟨_, ranked, same.trans here⟩
    · refine List.pairwise_append.2 ⟨sound.told.obeys, List.pairwise_singleton .., ?_⟩
      intro event before later inside
      rw [List.mem_singleton.1 inside, here]
      exact obeys_of_settled (sound.settled event before) here
    · simpa [State.call] using sound.told.waits
  · exact sound.within
  · intro event inside
    cases List.mem_append.1 inside with
    | inl before => exact (sound.settled event before).mono le_rfl (Nat.le_add_right _ _)
    | inr last =>
        rw [List.mem_singleton.1 last]
        trivial
  · rw [length_calls_call, sound.counted]
    rfl
  · exact open'
  · exact sound.tools

/-- A round may end after its call. -/
theorem Setup.Called.ended (called : setup.Called state) : setup.Ended state where
  told := called.told
  calls := by
    have := called.counted
    have := called.attempts
    have := called.tools
    omega

/-- A round ends with a failure on the log that was on it after the call. -/
theorem Setup.Called.stops (called : setup.Called state) {other : State Signature} {spent : Nat}
    {agent : Option Candidate} {class' : FailureClass} {retryAfterMs : Option Nat} {result : Result}
    (same : other.happened = state.happened) :
    setup.Keeps round spent (.done (other.fail agent class' retryAfterMs) result) where
  told := by
    rw [State.fail, same]
    exact called.told.fail agent class' retryAfterMs other.clock
  calls := by
    rw [calls_fail, State.calls, same]
    exact called.ended.calls

section Failed

variable {failure : Classified} {current : Candidate}

theorem Setup.Failed.ended (failed : setup.Failed state failure current) : setup.Ended state where
  told := failed.told
  calls := by
    have := failed.counted
    have := failed.attempts
    have := failed.tools
    omega

theorem Setup.Failed.within (failed : setup.Failed state failure current) :
    state.index < setup.distinct.length :=
  (List.getElem?_eq_some_iff.1 failed.here).1

/-- A class that is tried again on the same model is not final. -/
theorem hopeful_of_sameMax {class' : FailureClass} (again : 0 < (policy class').sameMax) :
    class' ≠ .permanent ∧ class' ≠ .policyBlocked := by
  constructor <;> rintro rfl <;> contradiction

/-- After the wait that was asked for the same model may be called again. -/
theorem Setup.Failed.settled_later (failed : setup.Failed state failure current) {delayMs : Nat}
    {why : Utf16}
    (decided : decideRetry (setup.situation state failure outcome.random) = .retrySame delayMs why)
    {clock : Nat} {interrupted : Bool} (passes : state.clock ≤ clock)
    (rested : interrupted = false → state.clock + delayMs ≤ clock) :
    ∀ event ∈ state.happened, setup.Settled state.index clock interrupted event := by
  intro event inside
  have ⟨few, _, exactly⟩ := of_retrySame decided
  have hopeful := hopeful_of_sameMax (failed.tried.trans_le few)
  cases failed.settled event inside with
  | inl settled => exact (settled.mono le_rfl passes).weaken
  | inr same =>
      rw [same]
      refine ⟨current, rfl, .inr ⟨hopeful.1, hopeful.2, ?_⟩⟩
      intro uncut honours asked given
      have honoured : (setup.situation state failure outcome.random).honoured = some asked :=
        (if_pos honours).trans given
      exact exactly asked honoured ▸ rested uncut

theorem aborted_mono {earlier later : Nat} (before : earlier ≤ later)
    (running : setup.aborted later = false) : setup.aborted earlier = false := by
  cases at' : setup.abortsAt with
  | none => simp [Setup.aborted, at']
  | some moment =>
      simp only [Setup.aborted, at', Option.any_some, decide_eq_false_iff_not] at running ⊢
      omega

theorem slept_le (delayMs sleptMs : Nat) : setup.slept round delayMs sleptMs ≤ delayMs := by
  rw [Setup.slept]
  split
  next => exact Nat.min_le_right _ _
  next => exact le_rfl

/-- The same model is called again, after the wait that was asked for. -/
theorem Setup.Failed.retrySame (failed : setup.Failed state failure current) {delayMs : Nat}
    {why : Utf16}
    (decided : decideRetry (setup.situation state failure outcome.random) = .retrySame delayMs why) :
    setup.Sound (if delayMs = 0 then state
      else state.wait (setup.slept round delayMs outcome.sleptMs))
      (setup.aborted (3 * (round + 1))) := by
  split
  next none' =>
    exact {
      told := failed.told
      within := failed.within
      settled := failed.settled_later decided le_rfl fun _ => none' ▸ le_rfl
      counted := failed.counted
      attempts := failed.attempts
      tools := failed.tools }
  next =>
    have short : setup.slept round delayMs outcome.sleptMs ≤ defaultMaxInlineWaitMs :=
      (slept_le delayMs outcome.sleptMs).trans (of_retrySame decided).2.1
    have rested : setup.aborted (3 * (round + 1)) = false →
        state.clock + delayMs ≤ state.clock + setup.slept round delayMs outcome.sleptMs := by
      intro running
      have uncut : setup.aborted (3 * round + 2) = false := aborted_mono (by omega) running
      rw [Setup.slept, uncut]
      exact le_rfl
    have settled := failed.settled_later decided (Nat.le_add_right _ _) rested
    constructor
    · exact failed.told.wait short
    · exact failed.within
    · intro event inside
      cases List.mem_append.1 inside with
      | inl before => exact settled event before
      | inr last =>
          rw [List.mem_singleton.1 last]
          trivial
    · rw [calls_wait]
      exact failed.counted
    · exact failed.attempts
    · exact failed.tools

/-- The next candidate is taken, and what failed stays behind. -/
theorem Setup.Failed.retryNext (failed : setup.Failed state failure current) {why : Utf16}
    (decided : decideRetry (setup.situation state failure outcome.random) = .retryNext why)
    (interrupted : Bool) :
    setup.Sound { state with index := state.index + 1, hops := state.hops + 1
                             sameProviderAttempts := 0 } interrupted where
  told := failed.told
  within := of_decide_eq_true (of_retryNext decided)
  settled event inside := by
    cases failed.settled event inside with
    | inl settled => exact (settled.mono (Nat.le_add_right _ 1) le_rfl).weaken
    | inr same =>
        rw [same]
        refine ⟨current, rfl, .inl (List.mem_take_iff_getElem.2 ⟨state.index, ?_⟩)⟩
        have ⟨within, found⟩ := List.getElem?_eq_some_iff.1 failed.here
        exact ⟨Nat.lt_min.2 ⟨Nat.lt_succ_self _, within⟩, found⟩
  counted := failed.counted
  attempts := failed.attempts
  tools := failed.tools

/-- The policy's decision on a failure that is on the log. -/
theorem Setup.Failed.decide (failed : setup.Failed state failure current) {spent : Nat}
    (count : state.attemptsUsed + state.toolRounds = spent + 1) :
    setup.Keeps round spent (setup.decide round state failure outcome) := by
  rw [Setup.decide]
  split
  next delayMs why decided =>
    refine ⟨failed.retrySame decided, ?_⟩
    split <;> exact count
  next decided => exact ⟨failed.retryNext decided _, count⟩
  next => exact failed.ended
  next => exact failed.ended

end Failed

variable [DecidableEq Signature]

theorem Setup.Called.toolRound (called : setup.Called state) (call : ToolCall) :
    setup.Keeps round (state.attemptsUsed + state.toolRounds) (setup.toolRound state call outcome) := by
  rw [Setup.toolRound]
  dsimp only
  split
  next => exact called.stops (by rfl)
  next =>
    split
    next => exact called.stops (by rfl)
    next few =>
      have goesOn : setup.Keeps round (state.attemptsUsed + state.toolRounds) (.goOn {
          state with
          toolRounds := state.toolRounds + 1
          toolLoop := (state.toolLoop.observe (setup.fingerprint (.toolCall call))).1
          clock := state.clock + outcome.invokedMs }) := by
        refine ⟨⟨called.told, called.within, ?_, ?_, called.attempts.le, Nat.le_of_not_lt few⟩, rfl⟩
        · intro event inside
          exact ((called.settled event inside).mono le_rfl (Nat.le_add_right _ _)).weaken
        · exact called.counted
      split
      next => exact goesOn
      next =>
        split
        next => exact called.stops (by rfl)
        next => exact goesOn

theorem Setup.Called.failAttempt (called : setup.Called state) (failure : Classified) :
    setup.Keeps round (state.attemptsUsed + state.toolRounds)
      (setup.failAttempt round { state with
        attemptsUsed := state.attemptsUsed + 1
        sameProviderAttempts := state.sameProviderAttempts + 1 } failure outcome) := by
  have ⟨current, here⟩ : ∃ current, setup.current state = some current :=
    ⟨_, List.getElem?_eq_getElem called.within⟩
  have told := called.told.fail (some current) failure.class' failure.retryAfterMs state.clock
  have failed : ∀ loop : LoopDetector Signature, setup.Failed { state with
      attemptsUsed := state.attemptsUsed + 1
      sameProviderAttempts := state.sameProviderAttempts + 1
      lastError := some (errorOf failure)
      happened := state.happened ++
        [.failed (setup.current state) failure.class' failure.retryAfterMs state.clock]
      loop } failure current := by
    intro loop
    constructor
    · exact here ▸ told
    · exact here
    · intro event inside
      refine (List.mem_append.1 inside).imp (called.settled event) fun last => ?_
      rw [List.mem_singleton.1 last, here]
    · have same := calls_fail state (setup.current state) failure.class' failure.retryAfterMs
      have := (congrArg List.length same).trans called.counted
      exact this.trans (Nat.add_right_comm _ _ _)
    · exact called.attempts
    · exact called.tools
    · exact Nat.succ_pos _
  rw [Setup.failAttempt]
  dsimp only
  split
  next => exact (failed state.loop).ended
  next =>
    split
    next => exact (failed _).ended
    next => exact (failed _).decide (Nat.add_right_comm _ _ _)

theorem Setup.Called.attempt (called : setup.Called state) (failure : Option Classified)
    (output : Utf16) :
    setup.Keeps round (state.attemptsUsed + state.toolRounds)
      (setup.attempt round state failure output outcome) := by
  cases failure with
  | none => exact ⟨called.told, called.ended.calls⟩
  | some failure => exact called.failAttempt failure

theorem Setup.Sound.keeps (sound : setup.Sound state false)
    (open' : state.attemptsUsed < setup.maxAttempts) :
    setup.Keeps round (state.attemptsUsed + state.toolRounds) (setup.round round state outcome) := by
  have called := sound.call open' outcome.ms
  rw [Setup.round]
  split
  next failure _ => exact called.attempt (some failure) []
  next output _ =>
    split
    next call _ => exact called.toolRound call
    next output _ => exact called.attempt none output
    next verdict _ => exact called.attempt (unusableAnswer verdict) output

end Round

theorem Setup.Sound.ended {state : State Signature} {interrupted : Bool}
    (sound : setup.Sound state interrupted) : setup.Ended state where
  told := sound.told
  calls := by
    have := sound.counted
    have := sound.attempts
    have := sound.tools
    omega

variable [DecidableEq Signature]

/-- From a sound state the loop ends within the rounds that are left on the account. -/
theorem Setup.Sound.runFrom {fuel round : Nat} {state : State Signature}
    (sound : setup.Sound state (setup.aborted (3 * round)))
    (enough : setup.maxAttempts + setup.maxToolCalls < fuel + (state.attemptsUsed + state.toolRounds)) :
    ∃ final result, setup.runFrom fuel round state = some (final, result) ∧ setup.Ended final := by
  induction fuel generalizing round state with
  | zero =>
      have := sound.attempts
      have := sound.tools
      omega
  | succ fuel ih =>
      rw [Setup.runFrom]
      split
      next open' =>
        split
        next => exact ⟨_, _, rfl, sound.ended⟩
        next running =>
          rw [Bool.eq_false_of_not_eq_true running] at sound
          have kept : setup.Keeps round (state.attemptsUsed + state.toolRounds)
              (setup.round round state (setup.outcomes round)) := sound.keeps open'
          cases ends : setup.round round state (setup.outcomes round) with
          | done final result =>
              rw [ends] at kept
              exact ⟨final, result, rfl, kept⟩
          | goOn later =>
              rw [ends] at kept
              obtain ⟨soundLater, spent⟩ := kept
              exact ih soundLater (by omega)
      next => exact ⟨_, _, rfl, sound.ended⟩

end Sound

/-- The loop ends, after at most `maxAttempts` attempts and a tool round for each tool call and
one more; every call is of a candidate, none is of a model that failed for good, none comes
before the time an honoured Retry-After asks for, and no wait is longer than the cap. -/
theorem retry_is_bounded {Signature : Type} [DecidableEq Signature] (setup : Setup Signature) :
    ∃ final result, setup.runWithRetry = some (final, result) ∧
      final.calls.length ≤ setup.maxAttempts + (setup.maxToolCalls + 1) ∧
      (∀ agent at', .called agent at' ∈ final.happened →
        ∃ candidate ∈ setup.ranked, agent = some candidate) ∧
      final.happened.Pairwise Obeys ∧
      ∀ ms, .waited ms ∈ final.happened → ms ≤ defaultMaxInlineWaitMs := by
  have sound : setup.Sound {} (setup.aborted (3 * 0)) := {
    told := ⟨by simp, .nil, by simp⟩
    within := Nat.succ_pos _
    settled := by simp
    counted := rfl
    attempts := Nat.zero_le _
    tools := Nat.zero_le _ }
  have ⟨final, result, ran, ended⟩ := sound.runFrom (Nat.lt_succ_self _)
  exact ⟨final, result, ran, ended.calls, ended.told.agents, ended.told.obeys, ended.told.waits⟩

/-! ## The parks the loop ends in -/

/-- The park is the policy's for the failure, of a step that counts no parks. -/
def Earned (failure : Classified) (park : Park) : Prop :=
  ∃ situation : Situation, situation.parks = 0 ∧ situation.class' = failure.class' ∧
    situation.retryAfterMs = failure.retryAfterMs ∧
    decideRetry situation = .park park.reason park.wakeInMs park.why

/-- A step's park takes no account of earlier ones. -/
theorem Earned.wakeInMs {failure : Classified} {park : Park} (earned : Earned failure park) :
    park.wakeInMs = parkWait failure.retryAfterMs 0 := by
  obtain ⟨situation, none', -, sameWait, decided⟩ := earned
  rw [(of_park decided).2, none', sameWait]

/-! ## The loop and the events of the scheduler

The scheduler takes a step in flight from one call to the next, for whatever the policy decides.
A round of the loop is such an event. -/

section Flight

variable {Signature : Type} (setup : Setup Signature)

/-- The flight stands where the loop does. -/
def Setup.Flies (state : State Signature) (flight : Flight) : Prop :=
  setup.current state = some flight.current ∧
    flight.others = setup.distinct.drop (state.index + 1)

/-- The event leaves the entry and the flight as the round leaves the step. -/
def Setup.Agrees (entry : Entry) (goesOn : Option Flight) : Next Signature → Prop
  | .goOn state => ∃ flight, goesOn = some flight ∧ setup.Flies state flight
  | .done _ result => goesOn = none ∧ entry.error = result.error ∧
      entry.state = if result.ok then .complete else .failed

/-- An answer after which the flight and the entry agree with the round. -/
def Setup.Answers (flight : Flight) (entry : Entry) (ms : Nat) (tokensUsed : Option Nat)
    (at' : Time) (next : Next Signature) : Prop :=
  ∃ answer moved goesOn, flight.answer entry answer ms tokensUsed at' = some (moved, goesOn) ∧
    setup.Agrees moved goesOn next

variable {setup} {state : State Signature} {flight : Flight} {entry : Entry} {ms : Nat}
  {tokensUsed : Option Nat} {at' : Time} {round : Nat} {outcome : Outcome} {failure : Classified}

theorem answers_decide (flies : setup.Flies state flight) :
    setup.Answers flight entry ms tokensUsed at' (setup.decide round state failure outcome) := by
  rw [Setup.decide]
  split
  next =>
    refine ⟨.unusable (errorOf failure) true .retrySame, _, _, rfl, _, rfl, ?_⟩
    split <;> exact flies
  next decided =>
    have within : state.index + 1 < setup.distinct.length := of_decide_eq_true (of_retryNext decided)
    have others := flies.2.trans (List.drop_eq_getElem_cons within)
    refine ⟨.unusable (errorOf failure) true .retryNext,
      entry.attempted flight.current ms tokensUsed (some (errorOf failure)), some {
        flight with
        current := setup.distinct[state.index + 1]
        others := setup.distinct.drop (state.index + 1 + 1)
        answered := flight.answered ++ [flight.current] }, ?_, _, rfl, ?_⟩
    · rw [Flight.answer, others]
      rfl
    · exact ⟨List.getElem?_eq_getElem within, rfl⟩
  next reason wakeInMs why _ =>
    exact ⟨.unusable (errorOf failure) true (.parked
      { reason, wakeInMs, why, approvalKey := none }), _, _, rfl, rfl, rfl, rfl⟩
  next => exact ⟨.unusable (errorOf failure) true .givenUp, _, _, rfl, rfl, rfl, rfl⟩

variable [DecidableEq Signature]

theorem answers_failAttempt (flies : setup.Flies state flight) :
    setup.Answers flight entry ms tokensUsed at'
      (setup.failAttempt round state failure outcome) := by
  rw [Setup.failAttempt]
  dsimp only
  split
  next => exact ⟨.unusable (errorOf failure) true .givenUp, _, _, rfl, rfl, rfl, rfl⟩
  next =>
    split
    next => exact ⟨.unusable (noProgressError failure _) true .givenUp, _, _, rfl, rfl, rfl, rfl⟩
    next => exact answers_decide flies

theorem answers_attempt (flies : setup.Flies state flight) (failure : Option Classified)
    (output : Utf16) : setup.Answers flight entry ms tokensUsed at'
      (setup.attempt round state failure output outcome) := by
  cases failure with
  | none => exact ⟨.usable output, _, _, rfl, rfl, rfl, rfl⟩
  | some failure => exact answers_failAttempt flies

theorem answers_toolRound (flies : setup.Flies state flight) (call : ToolCall) :
    setup.Answers flight entry ms tokensUsed at' (setup.toolRound state call outcome) := by
  rw [Setup.toolRound]
  dsimp only
  split
  next => exact ⟨.toolPoison (loopError call _), _, _, rfl, rfl, rfl, rfl⟩
  next =>
    split
    next => exact ⟨.toolPoison (toolLimitError _), _, _, rfl, rfl, rfl, rfl⟩
    next =>
      split
      next => exact ⟨.toolRound, _, _, rfl, _, rfl, flies⟩
      next code message approvalKey _ =>
        split
        next => exact ⟨.toolApproval message approvalKey, _, _, rfl, rfl, rfl, rfl⟩
        next => exact ⟨.toolRound, _, _, rfl, _, rfl, flies⟩

/-- A round of the loop is an answer the scheduler allows its step in flight. -/
theorem round_answers (flies : setup.Flies state flight) :
    setup.Answers flight entry ms tokensUsed at' (setup.round round state outcome) := by
  have flies' : setup.Flies (state.call (setup.current state) outcome.ms) flight := flies
  rw [Setup.round]
  split
  next failure _ => exact answers_attempt flies' (some failure) []
  next output _ =>
    split
    next call _ => exact answers_toolRound flies' call
    next output _ => exact answers_attempt flies' none output
    next verdict _ => exact answers_attempt flies' (unusableAnswer verdict) output

/-- A flight is answered, call after call. -/
def Answered : Entry × Option Flight → Entry × Option Flight → Prop :=
  Relation.ReflTransGen fun before after => ∃ flight answer ms tokensUsed at',
    before.2 = some flight ∧ flight.answer before.1 answer ms tokensUsed at' = some after

/-- The flight lands as the loop ends, or stands where the loop was cut off between two rounds. -/
def Setup.Ends (setup : Setup Signature) (entry : Entry) (flight : Flight)
    (final : State Signature) (result : Result) : Prop :=
  ∃ moved goesOn, Answered (entry, some flight) (moved, goesOn) ∧
    (setup.Agrees moved goesOn (.done final result) ∨
      result.ok = false ∧ ∃ last, goesOn = some last ∧ setup.Flies final last)

theorem ends_of_runFrom {fuel : Nat} {final : State Signature} {result : Result} (entry : Entry)
    (flies : setup.Flies state flight)
    (ran : setup.runFrom fuel round state = some (final, result)) :
    setup.Ends entry flight final result := by
  induction fuel generalizing round state flight entry with
  | zero => contradiction
  | succ fuel ih =>
      have cut (result : Result) (failed : result.ok = false) :
          setup.Ends entry flight state result :=
        ⟨entry, some flight, .refl, .inr ⟨failed, flight, rfl, flies⟩⟩
      rw [Setup.runFrom] at ran
      split at ran
      next =>
        split at ran
        next => cases ran; exact cut _ rfl
        next =>
          have ⟨answer, moved, goesOn, answered, agrees⟩ :
              setup.Answers flight entry 0 none 0 (setup.round round state (setup.outcomes round)) :=
            round_answers flies
          split at ran
          next ended =>
            cases ran
            rw [ended] at agrees
            exact ⟨moved, goesOn, .single ⟨flight, answer, _, _, _, rfl, answered⟩, .inl agrees⟩
          next later =>
            rw [later] at agrees
            have ⟨next, same, flies'⟩ := agrees
            subst same
            have ⟨landed, left, answers, ends⟩ := ih moved flies' ran
            exact ⟨landed, left, .head ⟨flight, answer, _, _, _, rfl, answered⟩ answers, ends⟩
      next => cases ran; exact cut _ rfl

end Flight

end RetryLoop

end Orchestrator

end TitanRunner
