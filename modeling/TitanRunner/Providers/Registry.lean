import Mathlib.Data.List.Perm.Basic
import TitanRunner.Lib.Transition
import TitanRunner.Reliability.Quota

/-!
# Failover of concurrent calls

`Registry.chat` as steps: what runs between two awaits is one step, and the steps of any
number of calls interleave.  A call looks at the providers in order, asks `#skipReason` about
each, and waits for the first that may be called; when that one fails it goes on behind it.
The trace holds what a provider would see of it: requests, and calls that came to an end with
or without a record in the quota ledger.
-/

namespace TitanRunner

namespace Providers

open Quota TransitionSystem System

/-- `ALL_CHAT_IDS` -/
def allChatIds : List ProviderId :=
  [.groq, .together, .openrouter, .gemini, .huggingface, .custom1, .custom2, .custom3]

/-- `DEFAULT_MAX_PROVIDERS_PER_CALL` -/
def defaultMaxProvidersPerCall : Nat := 3

/-- `MAX_CONCURRENT_PER_PROVIDER` -/
def maxConcurrentPerProvider : Nat := 4

/-- The attempts that `BaseProvider.chat` gives `withRetry`. -/
def networkAttempts : Nat := 2

/-- `MAX_MODEL_TRIES` of OpenRouter. -/
def maxModelTries : Nat := 3

/-- The requests that one call of a provider sends at most: OpenRouter rotates its models. -/
def maxRequests : ProviderId → Nat
  | .openrouter => networkAttempts * maxModelTries
  | _ => networkAttempts

/-- `breakerState` -/
inductive Breaker where
  | closed
  | halfOpen
  | open (reason : String) (lastFailureClass : Option String)
  | disabled (reason : String)
  deriving DecidableEq, Repr

structure Skip where
  reason : String
  cls : String
  deriving DecidableEq, Repr

/-- The ops gate, where one is attached. -/
structure OpsGate where
  skipReason : ProviderId → Bool → Option Skip
  degraded : ProviderId → Bool

/-- What the configuration, the health store and the ops gate answer during a step. -/
structure Readings where
  configured : ProviderId → Bool
  breaker : ProviderId → Breaker := fun _ => .closed
  /-- OpenRouter was checked within the hour and fails more than half of its calls. -/
  openrouterFails : Bool := false
  ops : Option OpsGate := none

/-- The options of a call. -/
structure Options where
  service : Option ProviderId := none
  priority : Option Priority := none
  failover : Option Bool := none
  maxProviders : Option Nat := none

namespace Options

/-- `explicitId`; a service that chat may not route to is none. -/
def explicitId (opts : Options) : Option ProviderId :=
  opts.service.filter fun id => decide (id ∈ allChatIds)

def base (opts : Options) : List ProviderId :=
  match opts.explicitId with
  | some id =>
      if opts.failover.getD false then id :: allChatIds.filter fun other => decide (other ≠ id)
      else [id]
  | none => allChatIds

def limit (opts : Options) : Nat := max 1 (opts.maxProviders.getD defaultMaxProvidersPerCall)

end Options

/-- `#preferGemini`: the entry of Gemini is moved before the one of OpenRouter. -/
def preferGemini (readings : Readings) (order : List ProviderId) : List ProviderId :=
  if !readings.openrouterFails || !order.contains .openrouter || !order.contains .gemini ||
      order.idxOf .gemini < order.idxOf .openrouter then order
  else (order.eraseIdx (order.idxOf .gemini)).insertIdx (order.idxOf .openrouter) .gemini

/-- `rank`: degraded providers go last. -/
def OpsGate.rank (gate : OpsGate) (order : List ProviderId) : List ProviderId :=
  order.filter (fun id => !gate.degraded id) ++ order.filter gate.degraded

def order (opts : Options) (readings : Readings) : List ProviderId :=
  match opts.explicitId, readings.ops with
  | some _, _ => opts.base
  | none, some gate => gate.rank (preferGemini readings opts.base)
  | none, none => preferGemini readings opts.base

/-- A call of `chat`: its options, the direct providers it tried and those it has not looked
at, the provider it waits for, whether it holds a permit there, and the requests it sent
there. -/
structure Call where
  opts : Options
  tried : Nat
  rest : List ProviderId
  provider : ProviderId
  active : Bool := false
  sent : Nat := 0

/-- `#skipReason`, and the ledger it leaves; the quota is asked only where the breaker lets the
call through. -/
def skipReason (ledger : Ledger) (now : Nat) (readings : Readings) (opts : Options)
    (id : ProviderId) : Ledger × Option Skip :=
  let explicit := decide (opts.explicitId = some id)
  match readings.breaker id, explicit with
  | .disabled reason, _ => (ledger, some ⟨"breaker disabled: " ++ reason, "permanent"⟩)
  | .open reason last, false =>
      (ledger, some ⟨"breaker open: " ++ reason, last.getD "provider_down"⟩)
  | _, _ =>
      match (ledger.canSpend now id opts.priority).reason with
      | some reason => (ledger.windows now id, some ⟨"quota: " ++ reason, "budget_exhausted"⟩)
      | none =>
          (ledger.windows now id,
            (readings.ops.bind fun gate => gate.skipReason id explicit).map fun skip =>
              ⟨"ops: " ++ skip.reason, skip.cls⟩)

/-- The loop over the order, up to the next await. -/
def walk (now : Nat) (readings : Readings) (opts : Options) (tried : Nat) :
    List ProviderId → Ledger → Ledger × Option Call
  | [], ledger => (ledger, none)
  | id :: rest, ledger =>
      if opts.limit ≤ tried then (ledger, none)
      else if readings.configured id then
        match skipReason ledger now readings opts id with
        | (ledger, some _) => walk now readings opts tried rest ledger
        | (ledger, none) => (ledger, some { opts, tried := tried + 1, rest, provider := id })
      else walk now readings opts tried rest ledger

inductive Event where
  /-- A call was let through to a provider by `#skipReason`. -/
  | admitted (id : ProviderId) (priority : Option Priority) (time : Nat)
  /-- A request went out. -/
  | sent (id : ProviderId) (time : Nat)
  /-- A call of a provider ended and was recorded. -/
  | recorded (id : ProviderId) (time : Nat)
  /-- A call of a provider ended and was not recorded. -/
  | lost (id : ProviderId) (time : Nat)
  deriving DecidableEq, Repr

def Event.time : Event → Nat
  | .admitted _ _ time | .sent _ time | .recorded _ time | .lost _ time => time

structure World where
  /-- The clock, in milliseconds. -/
  now : Nat := 0
  ledger : Ledger := {}
  calls : List Call := []
  /-- The most calls that were open at a provider at once. -/
  peak : ProviderId → Nat := fun _ => 0
  /-- What happened, the latest first. -/
  trace : List Event := []

inductive Label where
  | tick (ms : Nat)
  /-- `chat` is called. -/
  | chat (opts : Options) (readings : Readings)
  /-- A call gets its permit from the semaphore of its provider. -/
  | acquire (index : Nat)
  /-- A call sends a request. -/
  | request (index : Nat)
  /-- The provider's answer arrives. -/
  | answer (index : Nat) (tokens : Option Nat)
  /-- The call of the provider fails, with or without an HTTP status. -/
  | fail (index : Nat) (status : Option Nat) (readings : Readings)
  /-- The caller's signal is aborted. -/
  | abort (index : Nat)

namespace World

variable (world : World)

/-- The calls that wait for a provider. -/
def openAt (id : ProviderId) : Nat := world.calls.countP fun call => decide (call.provider = id)

/-- The calls that hold a permit of a provider. -/
def activeAt (id : ProviderId) : Nat :=
  world.calls.countP fun call => decide (call.provider = id) && call.active

/-- A call waits for a provider. -/
def push (call : Call) : World :=
  let calls := call :: world.calls
  { world with
    calls
    peak := fun id => max (world.peak id)
      (calls.countP fun call => decide (call.provider = id)) }

/-- A call no longer waits for its provider. -/
def drop (index : Nat) (event : Event) : World :=
  { world with calls := world.calls.eraseIdx index, trace := event :: world.trace }

/-- The loop goes on until a provider is called or none is left. -/
def proceed (readings : Readings) (opts : Options) (tried : Nat) (rest : List ProviderId) :
    World :=
  match walk world.now readings opts tried rest world.ledger with
  | (ledger, none) => { world with ledger }
  | (ledger, some call) =>
      { { world with ledger }.push call with
        trace := .admitted call.provider opts.priority world.now :: world.trace }

/-- The call with an index, if it holds a permit. -/
def activeCall (index : Nat) : Option Call := world.calls[index]?.filter Call.active

def next : Label → Option World
  | .tick ms => some { world with now := world.now + ms }
  | .chat opts readings =>
      if opts.explicitId.isNone && readings.configured .omniroute then
        some (world.push { opts, tried := 0, rest := order opts readings, provider := .omniroute })
      else some (world.proceed readings opts 0 (order opts readings))
  | .acquire index =>
      world.calls[index]?.bind fun call =>
        if !call.active && world.activeAt call.provider < maxConcurrentPerProvider then
          some { world with calls := world.calls.set index { call with active := true } }
        else none
  | .request index =>
      (world.activeCall index).bind fun call =>
        if call.sent < maxRequests call.provider then
          some { world with
            calls := world.calls.set index { call with sent := call.sent + 1 }
            trace := .sent call.provider world.now :: world.trace }
        else none
  | .answer index tokens =>
      (world.activeCall index).map fun call =>
        { world.drop index (.recorded call.provider world.now) with
          ledger := world.ledger.record world.now call.provider tokens none }
  | .fail index status readings =>
      (world.activeCall index).map fun call =>
        if call.provider ≠ .omniroute ∧ status.isSome then
          { world.drop index (.recorded call.provider world.now) with
            ledger := world.ledger.record world.now call.provider none status }.proceed
              readings call.opts call.tried call.rest
        else
          (world.drop index (.lost call.provider world.now)).proceed
            readings call.opts call.tried call.rest
  | .abort index =>
      (world.activeCall index).map fun call =>
        world.drop index (.lost call.provider world.now)

end World

/-- The calls of one process, from any clock and any ledger that was loaded. -/
def system : System World Label where
  start world := world.calls = [] ∧ world.trace = [] ∧ world.peak = fun _ => 0
  next := World.next

end Providers

end TitanRunner
