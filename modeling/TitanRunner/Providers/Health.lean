import TitanRunner.Lib.Transition
import TitanRunner.Redact
import TitanRunner.Task.Schema
import Mathlib.Algebra.Group.Int.Defs
import Mathlib.Logic.Function.Basic

/-!
# The health of the providers

`providers/health.js`: each outcome of a call writes status and cool-down of one record over the
earlier ones, in the order the calls end.  Left out are the running averages (latency and error
rate) and the models that were discovered, which neither predicate reads.
-/

namespace TitanRunner

namespace Health

open Utf16 TransitionSystem System

/-- `PROVIDER_STATUSES` -/
inductive HealthStatus where
  | ok | notConfigured | misconfigured | rateLimited | exhausted | modelInvalid | noPublicApi
  | error | unknown
  deriving DecidableEq, Repr

def HealthStatus.name : HealthStatus → Utf16
  | .ok => ofString "ok"
  | .notConfigured => ofString "not_configured"
  | .misconfigured => ofString "misconfigured"
  | .rateLimited => ofString "rate_limited"
  | .exhausted => ofString "exhausted"
  | .modelInvalid => ofString "model_invalid"
  | .noPublicApi => ofString "no_public_api"
  | .error => ofString "error"
  | .unknown => ofString "unknown"

/-- A record, by default `emptyRecord`. -/
structure Record where
  configured : Bool := false
  status : HealthStatus := .unknown
  lastCheckedAt : Option Time := none
  lastSuccessAt : Option Time := none
  samples : Nat := 0
  consecutiveFailures : Nat := 0
  cooldownUntil : Option Time := none
  lastError : Option Utf16 := none
  model : Option Utf16 := none
  note : Option Utf16 := none
  lastFailureClass : Option Utf16 := none
  deriving DecidableEq

structure Outcome where
  ok : Bool
  model : Option Utf16 := none
  code : Utf16 := []
  status : Option Int := none
  retryAfterMs : Option Int := none
  message : Utf16 := []
  failureClass : Option Utf16 := none
  deriving DecidableEq

/-! ## Outcomes -/

section Patterns

open Regex

/-- `/quota|insufficient[_ -]?(balance|credit)|out of credits/i` -/
def quotaPattern : Regex :=
  alts [textNoCase "quota",
    seqs [textNoCase "insufficient", maybe (.oneOf (among "_ -")),
      alts [textNoCase "balance", textNoCase "credit"]],
    textNoCase "out of credits"]

/-- `/model[_ -]?not[_ -]?found|does not exist|unknown model|invalid model/i` -/
def modelPattern : Regex :=
  alts [seqs [textNoCase "model", maybe (.oneOf (among "_ -")), textNoCase "not",
      maybe (.oneOf (among "_ -")), textNoCase "found"],
    textNoCase "does not exist", textNoCase "unknown model", textNoCase "invalid model"]

end Patterns

/-- The branches of `recordOutcome`. -/
inductive Kind where
  | success | notConfigured | noPublicApi | rejected | rateLimited | exhausted | modelInvalid
  | error
  deriving DecidableEq, Repr

def Outcome.kind (outcome : Outcome) : Kind :=
  if outcome.ok then .success
  else if outcome.code = ofString "NOT_CONFIGURED" then .notConfigured
  else if outcome.code = ofString "NO_PUBLIC_API" then .noPublicApi
  else if outcome.status = some 401 ∨ outcome.status = some 403 ∨
      outcome.code = ofString "UNAUTHORIZED" then .rejected
  else if outcome.status = some 429 ∨ outcome.code = ofString "RATE_LIMITED" then .rateLimited
  else if outcome.status = some 402 ∨ quotaPattern.test outcome.message = true then .exhausted
  else if outcome.status = some 404 ∨ modelPattern.test outcome.message = true then .modelInvalid
  else .error

def Kind.status : Kind → HealthStatus
  | .success => .ok
  | .notConfigured => .notConfigured
  | .noPublicApi => .noPublicApi
  | .rejected => .misconfigured
  | .rateLimited => .rateLimited
  | .exhausted => .exhausted
  | .modelInvalid => .modelInvalid
  | .error => .error

/-- `RATE_LIMIT_MAX_COOLDOWN_MS` -/
def rateLimitMaxCooldownMs : Int := 3600000

/-- `backoffCooldownMs` -/
def backoffCooldownMs (consecutiveFailures : Nat) : Int :=
  min (300000 * 2 ^ (consecutiveFailures - 1)) rateLimitMaxCooldownMs

/-- The cool-down that an outcome starts. -/
def Outcome.cooldownMs (outcome : Outcome) (consecutiveFailures : Nat) : Option Int :=
  match outcome.kind with
  | .rateLimited =>
      some (match outcome.retryAfterMs.filter fun ms => decide (0 < ms) with
        | some ms => min ms rateLimitMaxCooldownMs
        | none => backoffCooldownMs consecutiveFailures)
  | .exhausted => some 86400000
  | .modelInvalid => some 600000
  | .error => some (backoffCooldownMs consecutiveFailures)
  | _ => none

/-- A text that is not empty. -/
def nonEmpty (text : Utf16) : Option Utf16 := if text.isEmpty then none else some text

namespace Record

variable (record : Record)

/-- `recordOutcome` -/
def recordOutcome (now : Time) (outcome : Outcome) : Record :=
  let next := { record with
    configured := true
    lastCheckedAt := some now
    samples := record.samples + 1 }
  if outcome.ok then
    { next with
      status := .ok
      lastSuccessAt := some now
      model := (outcome.model.bind nonEmpty).or record.model
      consecutiveFailures := 0
      cooldownUntil := none
      lastError := none }
  else
    { next with
      configured := decide (outcome.kind ≠ .notConfigured)
      status := outcome.kind.status
      consecutiveFailures := record.consecutiveFailures + 1
      cooldownUntil := (outcome.cooldownMs (record.consecutiveFailures + 1)).map (now + ·)
      lastError := ((nonEmpty outcome.message).map fun message =>
        (Redact.redactString message).take 300).or record.lastError
      lastFailureClass := outcome.failureClass.or record.lastFailureClass
      model := if outcome.kind = .modelInvalid then none else record.model }

/-- `markNotConfigured` -/
def markNotConfigured : Record :=
  { record with configured := false, status := .notConfigured, cooldownUntil := none }

/-- `markConfigured` -/
def markConfigured : Record :=
  if record.configured then record
  else
    { record with
      configured := true
      status := if record.status = .notConfigured then .unknown else record.status }

/-- `markNoPublicApi` -/
def markNoPublicApi (note : Utf16) : Record :=
  { record with
    status := .noPublicApi
    cooldownUntil := none
    note := ((nonEmpty note).map fun note => (Redact.redactString note).take 300).or record.note }

/-- The cool-down still runs. -/
def cooling (now : Time) : Bool := record.cooldownUntil.any fun ends => decide (now < ends)

/-- `isHealthy` -/
def isHealthy (now : Time) : Bool :=
  record.configured && !(record.status = .misconfigured || record.status = .noPublicApi) &&
    !record.cooling now

end Record

inductive BreakerState where
  | closed | opened | halfOpen | disabled
  deriving DecidableEq, Repr

structure Breaker where
  state : BreakerState
  until' : Option Time := none
  reason : Utf16
  deriving DecidableEq

/-- `breakerState` -/
def Record.breakerState (record : Record) (now : Time) : Breaker :=
  if !record.configured || record.status = .notConfigured then
    { state := .disabled, reason := ofString "no API key configured" }
  else if record.status = .noPublicApi then
    { state := .disabled, reason := ofString "no public API to call" }
  else if record.status = .misconfigured then
    { state := .disabled
      reason := ofString "the key was rejected (401/403); needs a human to rotate it" }
  else if record.cooling now then
    { state := .opened
      until' := record.cooldownUntil
      reason := record.status.name ++ ofString " — cooling down after " ++
        ofNat record.consecutiveFailures ++ ofString " consecutive failure(s)" }
  else if 0 < record.consecutiveFailures then
    { state := .halfOpen
      reason := ofString "cooldown over after " ++ ofNat record.consecutiveFailures ++
        ofString " failure(s); next call is a probe" }
  else
    { state := .closed
      reason := if record.status = .ok then ofString "healthy" else ofString "never attempted" }

/-! ## Runs -/

/-- A wait that a rate limit asked for, and the number of outcomes that were recorded before it. -/
structure Wait where
  until' : Time
  since : Nat
  deriving DecidableEq, Repr

/-- Ghost: what was last heard from a provider and still counts. -/
structure Promises where
  /-- The key was rejected; no success since, and the key is not removed. -/
  rejected : Bool := false
  /-- The waits whose time has not passed, with no success of a call that started later. -/
  waits : List Wait := []
  deriving DecidableEq, Repr

structure World where
  now : Time := 0
  records : Utf16 → Option Record := fun _ => none
  /-- Ghost: how many outcomes were recorded. -/
  recorded : Nat := 0
  promises : Utf16 → Promises := fun _ => {}

inductive Label where
  /-- The clock is read; it may have been set back. -/
  | clock (now : Time)
  /-- A call ends that started when so many outcomes had been recorded. -/
  | recordOutcome (id : Utf16) (started : Nat) (outcome : Outcome)
  | markConfigured (id : Utf16)
  | markNotConfigured (id : Utf16)
  | markNoPublicApi (id note : Utf16)

/-- What an outcome makes of the promises of its provider. -/
def Promises.hear (promises : Promises) (now : Time) (started recorded : Nat) (outcome : Outcome) :
    Promises :=
  match outcome.kind with
  | .success => ⟨false, promises.waits.filter fun wait => started ≤ wait.since⟩
  | .notConfigured => { promises with rejected := false }
  | .rejected => { promises with rejected := true }
  | .rateLimited =>
      { promises with
        waits := promises.waits ++ (outcome.retryAfterMs.toList.filter fun ms => 0 < ms).map
          fun ms => ⟨now + ms, recorded⟩ }
  | _ => promises

def Promises.passed (promises : Promises) (now : Time) : Promises :=
  { promises with waits := promises.waits.filter fun wait => now < wait.until' }

namespace World

variable (world : World)

/-- `get` -/
def get (id : Utf16) : Record := (world.records id).getD {}

/-- A record is written, and the promises of its provider. -/
def put (id : Utf16) (record : Record) (promises : Promises) : World :=
  { world with
    records := Function.update world.records id (some record)
    promises := Function.update world.promises id promises }

def next : Label → Option World
  | .clock now =>
      some { world with now, promises := fun id => (world.promises id).passed now }
  | .recordOutcome id started outcome =>
      if started ≤ world.recorded then
        some { world.put id ((world.get id).recordOutcome world.now outcome)
            ((world.promises id).hear world.now started world.recorded outcome) with
          recorded := world.recorded + 1 }
      else none
  | .markConfigured id => some (world.put id (world.get id).markConfigured (world.promises id))
  | .markNotConfigured id =>
      some (world.put id (world.get id).markNotConfigured
        { world.promises id with rejected := false })
  | .markNoPublicApi id note =>
      some (world.put id ((world.get id).markNoPublicApi note) (world.promises id))

end World

/-- All runs from an empty store. -/
def system : System World Label where
  start world := ∃ now, world = { now }
  next := World.next

/-- The breaker holds. -/
structure World.Holds (world : World) : Prop where
  rejected : ∀ id, (world.promises id).rejected = true → (world.get id).isHealthy world.now = false
  waits : ∀ id, (world.promises id).waits ≠ [] → (world.get id).isHealthy world.now = false
  agree : ∀ id, (((world.get id).breakerState world.now).state = .opened ∨
    ((world.get id).breakerState world.now).state = .disabled) ↔
      (world.get id).isHealthy world.now = false

/-- The steps that keep the promises: after a rejection no other failure with a cool-down of its
own is recorded; a failure during a wait cools down at least as long, and a rate limit asks for an
hour at most; a success during a wait is of a call that started after it; and no key is put in
during a wait. -/
def Orderly (world : World) : Label → Prop
  | .recordOutcome id started outcome =>
      (∀ cooldown ∈ outcome.cooldownMs ((world.get id).consecutiveFailures + 1),
        (world.promises id).rejected = false ∧
          (∀ wait ∈ (world.promises id).waits, wait.until' ≤ world.now + cooldown) ∧
          (outcome.kind = .rateLimited →
            ∀ ms ∈ outcome.retryAfterMs, ms ≤ rateLimitMaxCooldownMs)) ∧
        (outcome.kind = .success → ∀ wait ∈ (world.promises id).waits, wait.since < started)
  | .markConfigured id => (world.get id).configured = true ∨ (world.promises id).waits = []
  | _ => True

instance decidableOrderly (world : World) (label : Label) : Decidable (Orderly world label) :=
  match label with
  | .recordOutcome id started outcome => inferInstanceAs (Decidable
      ((∀ cooldown ∈ outcome.cooldownMs ((world.get id).consecutiveFailures + 1),
        (world.promises id).rejected = false ∧
          (∀ wait ∈ (world.promises id).waits, wait.until' ≤ world.now + cooldown) ∧
          (outcome.kind = .rateLimited →
            ∀ ms ∈ outcome.retryAfterMs, ms ≤ rateLimitMaxCooldownMs)) ∧
        (outcome.kind = .success → ∀ wait ∈ (world.promises id).waits, wait.since < started)))
  | .markConfigured id => inferInstanceAs (Decidable
      ((world.get id).configured = true ∨ (world.promises id).waits = []))
  | .clock _ | .markNotConfigured _ | .markNoPublicApi _ _ => isTrue trivial

/-! ## What is kept -/

/-- A status that no clock ends. -/
def Record.Blocked (record : Record) : Prop :=
  record.status = .misconfigured ∨ record.status = .noPublicApi

/-- What a record and the promises of its provider have to do with each other. -/
structure Kept (now : Time) (record : Record) (promises : Promises) : Prop where
  known : record.configured = true → record.status ≠ .notConfigured
  removed : record.configured = false → promises.rejected = false
  rejected : promises.rejected = true → record.Blocked
  waits : record.configured = true → promises.waits ≠ [] → record.Blocked ∨
    ∃ ends, record.cooldownUntil = some ends ∧ ∀ wait ∈ promises.waits, wait.until' ≤ ends
  running : ∀ wait ∈ promises.waits, now < wait.until'

section Predicates

variable {now : Time} {record : Record} {promises : Promises}

theorem Record.isHealthy_of_blocked (blocked : record.Blocked) : record.isHealthy now = false := by
  cases blocked with
  | inl rejected => simp [Record.isHealthy, rejected]
  | inr nothing => simp [Record.isHealthy, nothing]

/-- The two predicates read a record alike, but for a key that is there and called missing. -/
theorem Record.breakerState_iff (known : record.configured = true → record.status ≠ .notConfigured) :
    ((record.breakerState now).state = .opened ∨ (record.breakerState now).state = .disabled) ↔
      record.isHealthy now = false := by
  cases configured : record.configured with
  | false => simp [Record.breakerState, Record.isHealthy, configured]
  | true =>
      have named := known configured
      by_cases nothing : record.status = .noPublicApi
      · simp [Record.breakerState, Record.isHealthy, configured, nothing]
      · by_cases rejected : record.status = .misconfigured
        · simp [Record.breakerState, Record.isHealthy, configured, rejected]
        · cases cooling : record.cooling now with
          | true =>
              simp [Record.breakerState, Record.isHealthy, configured, named, nothing, rejected, cooling]
          | false =>
              by_cases failed : 0 < record.consecutiveFailures <;>
                simp [Record.breakerState, Record.isHealthy, configured, named, nothing, rejected,
                  cooling, failed]

namespace Kept

theorem not_healthy_of_rejected (kept : Kept now record promises) (rejected : promises.rejected = true) :
    record.isHealthy now = false :=
  Record.isHealthy_of_blocked (kept.rejected rejected)

theorem not_healthy_of_waits (kept : Kept now record promises) (waits : promises.waits ≠ []) :
    record.isHealthy now = false := by
  cases configured : record.configured with
  | false => simp [Record.isHealthy, configured]
  | true =>
      cases kept.waits configured waits with
      | inl blocked => exact Record.isHealthy_of_blocked blocked
      | inr cools =>
          obtain ⟨ends, isEnds, reaches⟩ := cools
          obtain ⟨wait, inside⟩ := List.exists_mem_of_ne_nil _ waits
          have later : now < ends := Int.lt_of_lt_of_le (kept.running wait inside) (reaches wait inside)
          simp [Record.isHealthy, Record.cooling, isEnds, later]

/-! ### The operations -/

theorem clock (kept : Kept now record promises) (later : Time) :
    Kept later record (promises.passed later) := by
  have among : ∀ wait ∈ (promises.passed later).waits, wait ∈ promises.waits :=
    fun wait inside => List.mem_of_mem_filter inside
  constructor
  case known => exact kept.known
  case removed => exact kept.removed
  case rejected => exact kept.rejected
  case waits =>
    intro configured some'
    obtain ⟨wait, inside⟩ := List.exists_mem_of_ne_nil _ some'
    have had := kept.waits configured (List.ne_nil_of_mem (among wait inside))
    refine had.imp_right fun cools => ?_
    obtain ⟨ends, isEnds, reaches⟩ := cools
    exact ⟨ends, isEnds, fun wait inside => reaches wait (among wait inside)⟩
  case running =>
    intro wait inside
    simpa using (List.mem_filter.1 inside).2

theorem markNotConfigured (kept : Kept now record promises) :
    Kept now record.markNotConfigured { promises with rejected := false } := by
  constructor
  case known => exact fun configured => absurd configured Bool.false_ne_true
  case removed => exact fun _ => rfl
  case rejected => exact fun rejected => absurd rejected Bool.false_ne_true
  case waits => exact fun configured => absurd configured Bool.false_ne_true
  case running => exact kept.running

theorem markConfigured (kept : Kept now record promises)
    (quiet : record.configured = true ∨ promises.waits = []) :
    Kept now record.markConfigured promises := by
  by_cases configured : record.configured = true
  · rwa [Record.markConfigured, if_pos configured]
  · have none' := quiet.resolve_left configured
    have clear := kept.removed (by simpa using configured)
    rw [Record.markConfigured, if_neg configured]
    constructor
    case known =>
      intro _
      dsimp only
      split
      next => decide
      next named => exact named
    case removed => exact fun missing => absurd missing.symm Bool.false_ne_true
    case rejected => exact fun rejected => absurd (clear.symm.trans rejected) Bool.false_ne_true
    case waits => exact fun _ some' => absurd none' some'
    case running => exact kept.running

theorem markNoPublicApi (kept : Kept now record promises) (note : Utf16) :
    Kept now (record.markNoPublicApi note) promises := by
  have status : (record.markNoPublicApi note).status = .noPublicApi := rfl
  constructor
  case known => exact fun _ same => absurd (status.symm.trans same) (by decide)
  case removed => exact kept.removed
  case rejected => exact fun _ => .inr status
  case waits => exact fun _ _ => .inl (.inr status)
  case running => exact kept.running

end Kept

end Predicates

section Outcomes

variable {now : Time} {record : Record} {promises : Promises} {outcome : Outcome}
  {started recorded : Nat}

theorem Outcome.kind_success_iff : outcome.kind = .success ↔ outcome.ok = true := by
  rw [Outcome.kind]
  split
  next ok => simp [ok]
  next failed =>
    simp only [failed, iff_false, Bool.false_eq_true]
    repeat' split
    all_goals simp

theorem recordOutcome_success (success : outcome.kind = .success) :
    (record.recordOutcome now outcome).configured = true ∧
      (record.recordOutcome now outcome).status = .ok := by
  rw [Record.recordOutcome, if_pos (Outcome.kind_success_iff.1 success)]
  exact ⟨rfl, rfl⟩

theorem recordOutcome_failure (failure : outcome.kind ≠ .success) :
    (record.recordOutcome now outcome).configured = decide (outcome.kind ≠ .notConfigured) ∧
      (record.recordOutcome now outcome).status = outcome.kind.status ∧
      (record.recordOutcome now outcome).cooldownUntil =
        (outcome.cooldownMs (record.consecutiveFailures + 1)).map (now + ·) := by
  rw [Record.recordOutcome, if_neg fun ok => failure (Outcome.kind_success_iff.2 ok)]
  exact ⟨rfl, rfl, rfl⟩

theorem Outcome.kind_of_cooldownMs {cooldown : Int} {failures : Nat}
    (cools : outcome.cooldownMs failures = some cooldown) : outcome.kind = .rateLimited ∨
      outcome.kind = .exhausted ∨ outcome.kind = .modelInvalid ∨ outcome.kind = .error := by
  rw [Outcome.cooldownMs] at cools
  cases same : outcome.kind <;> simp_all

theorem mem_waits_hear (kinds : outcome.kind = .rateLimited ∨ outcome.kind = .exhausted ∨
      outcome.kind = .modelInvalid ∨ outcome.kind = .error) {wait : Wait}
    (inside : wait ∈ (promises.hear now started recorded outcome).waits) :
    wait ∈ promises.waits ∨ outcome.kind = .rateLimited ∧
      ∃ ms, outcome.retryAfterMs = some ms ∧ 0 < ms ∧ wait = ⟨now + ms, recorded⟩ := by
  rcases kinds with same | same | same | same <;> rw [Promises.hear, same] at inside
  · cases List.mem_append.1 inside with
    | inl old => exact .inl old
    | inr new =>
        obtain ⟨ms, chosen, rfl⟩ := List.mem_map.1 new
        obtain ⟨asked, positive⟩ := List.mem_filter.1 chosen
        exact .inr ⟨same, ms, Option.mem_toList.1 asked, by simpa using positive, rfl⟩
  all_goals exact .inl inside

namespace Kept

theorem of_success (success : outcome.kind = .success)
    (later : ∀ wait ∈ promises.waits, wait.since < started) :
    Kept now (record.recordOutcome now outcome) (promises.hear now started recorded outcome) := by
  obtain ⟨configured, status⟩ := @recordOutcome_success now record outcome success
  have cleared : promises.hear now started recorded outcome = ⟨false, []⟩ := by
    have none' : promises.waits.filter (fun wait => started ≤ wait.since) = [] := by
      apply List.filter_eq_nil_iff.2
      intro wait inside
      simpa using later wait inside
    rw [Promises.hear, success]
    exact congrArg (Promises.mk false) none'
  rw [cleared]
  constructor
  case known => exact fun _ same => absurd (status.symm.trans same) (by decide)
  case removed => exact fun _ => rfl
  case rejected => exact fun rejected => absurd rejected Bool.false_ne_true
  case waits => exact fun _ some' => absurd rfl some'
  case running => exact fun wait inside => absurd inside List.not_mem_nil

/-- An outcome that starts no cool-down and is no success stops the provider for good. -/
theorem stopped (kept : Kept now record promises)
    (stops : outcome.kind = .notConfigured ∨ outcome.kind = .noPublicApi ∨
      outcome.kind = .rejected) :
    Kept now (record.recordOutcome now outcome) (promises.hear now started recorded outcome) := by
  have failure : outcome.kind ≠ .success := by
    rcases stops with same | same | same <;> rw [same] <;> decide
  obtain ⟨configured, status, -⟩ := @recordOutcome_failure now record outcome failure
  have waits : (promises.hear now started recorded outcome).waits = promises.waits := by
    rcases stops with same | same | same <;> rw [Promises.hear, same]
  have running := kept.running
  rw [← waits] at running
  rcases stops with same | blocks
  · rw [same] at configured status
    constructor
    case known => exact fun there => absurd (configured.symm.trans there) (by decide)
    case removed =>
      intro _
      rw [Promises.hear, same]
    case rejected =>
      rw [Promises.hear, same]
      exact fun rejected => absurd rejected Bool.false_ne_true
    case waits => exact fun there => absurd (configured.symm.trans there) (by decide)
    case running => exact running
  · have blocked : (record.recordOutcome now outcome).Blocked := by
      rw [Record.Blocked, status]
      rcases blocks with same | same <;> rw [same]
      · exact .inr rfl
      · exact .inl rfl
    constructor
    case known =>
      intro _ same
      rcases blocked with rejected | nothing
      · exact absurd (rejected.symm.trans same) (by decide)
      · exact absurd (nothing.symm.trans same) (by decide)
    case removed =>
      intro missing
      rw [configured] at missing
      rcases blocks with same | same <;> rw [same] at missing <;>
        exact absurd missing (by decide)
    case rejected => exact fun _ => blocked
    case waits => exact fun _ _ => .inl blocked
    case running => exact running

/-- A failure that starts a cool-down, where the key was not rejected and no promise outlasts
it. -/
theorem cooled (kept : Kept now record promises) {cooldown : Int}
    (cools : outcome.cooldownMs (record.consecutiveFailures + 1) = some cooldown)
    (clear : promises.rejected = false)
    (reaches : ∀ wait ∈ promises.waits, wait.until' ≤ now + cooldown)
    (short : outcome.kind = .rateLimited →
      ∀ ms ∈ outcome.retryAfterMs, ms ≤ rateLimitMaxCooldownMs) :
    Kept now (record.recordOutcome now outcome) (promises.hear now started recorded outcome) := by
  have kinds := Outcome.kind_of_cooldownMs cools
  have failure : outcome.kind ≠ .success := by
    rcases kinds with same | same | same | same <;> rw [same] <;> decide
  have there : outcome.kind ≠ .notConfigured := by
    rcases kinds with same | same | same | same <;> rw [same] <;> decide
  have named : outcome.kind.status ≠ .notConfigured := by
    rcases kinds with same | same | same | same <;> rw [same] <;> decide
  obtain ⟨configured, status, ends⟩ := @recordOutcome_failure now record outcome failure
  rw [cools, Option.map_some] at ends
  have still : (promises.hear now started recorded outcome).rejected = false := by
    rcases kinds with same | same | same | same <;> rw [Promises.hear, same] <;> exact clear
  -- What is promised now was promised before, or is what this rate limit asks for.
  have promised : ∀ wait ∈ (promises.hear now started recorded outcome).waits,
      now < wait.until' ∧ wait.until' ≤ now + cooldown := by
    intro wait inside
    cases mem_waits_hear kinds inside with
    | inl old => exact ⟨kept.running wait old, reaches wait old⟩
    | inr new =>
        obtain ⟨limited, ms, asked, positive, rfl⟩ := new
        have bound := short limited ms asked
        rw [Outcome.cooldownMs, limited, asked, Option.filter_some, if_pos (by simpa using positive)]
          at cools
        have same : min ms rateLimitMaxCooldownMs = cooldown := Option.some.inj cools
        rw [Int.min_eq_left bound] at same
        rw [same] at positive ⊢
        exact ⟨Int.lt_add_of_pos_right now positive, Int.le_refl _⟩
  constructor
  case known => exact fun _ same => absurd (status.symm.trans same) named
  case removed => exact fun _ => still
  case rejected => exact fun rejected => absurd (still.symm.trans rejected) Bool.false_ne_true
  case waits => exact fun _ _ => .inr ⟨_, ends, fun wait inside => (promised wait inside).2⟩
  case running => exact fun wait inside => (promised wait inside).1

theorem recordOutcome (kept : Kept now record promises)
    (cools : ∀ cooldown ∈ outcome.cooldownMs (record.consecutiveFailures + 1),
      promises.rejected = false ∧ (∀ wait ∈ promises.waits, wait.until' ≤ now + cooldown) ∧
        (outcome.kind = .rateLimited → ∀ ms ∈ outcome.retryAfterMs, ms ≤ rateLimitMaxCooldownMs))
    (succeeds : outcome.kind = .success → ∀ wait ∈ promises.waits, wait.since < started) :
    Kept now (record.recordOutcome now outcome) (promises.hear now started recorded outcome) := by
  cases isCooldown : outcome.cooldownMs (record.consecutiveFailures + 1) with
  | some cooldown =>
      obtain ⟨clear, reaches, short⟩ := cools cooldown isCooldown
      exact kept.cooled isCooldown clear reaches short
  | none =>
      by_cases success : outcome.kind = .success
      · exact of_success success (succeeds success)
      · apply kept.stopped
        rw [Outcome.cooldownMs] at isCooldown
        cases same : outcome.kind <;> simp_all

end Kept

end Outcomes

/-! ## Every run -/

theorem World.get_put (world : World) (id other : Utf16) (record : Record) (promises : Promises) :
    (world.put id record promises).get other = if other = id then record else world.get other := by
  by_cases same : other = id
  · simp [World.get, World.put, same]
  · simp [World.get, World.put, same]

theorem World.promises_put (world : World) (id other : Utf16) (record : Record)
    (promises : Promises) : (world.put id record promises).promises other =
      if other = id then promises else world.promises other := by
  by_cases same : other = id
  · simp [World.put, same]
  · simp [World.put, same]

def World.AllKept (world : World) : Prop :=
  ∀ id, Kept world.now (world.get id) (world.promises id)

theorem World.AllKept.put {world : World} (all : world.AllKept) {id : Utf16} {record : Record}
    {promises : Promises} (kept : Kept world.now record promises) :
    (world.put id record promises).AllKept := by
  intro other
  rw [World.get_put, World.promises_put]
  by_cases same : other = id
  · rw [if_pos same, if_pos same]
    exact kept
  · rw [if_neg same, if_neg same]
    exact all other

theorem World.AllKept.next {world after : World} {label : Label} (all : world.AllKept)
    (orderly : Orderly world label) (stepped : world.next label = some after) : after.AllKept := by
  cases label with
  | clock now =>
      cases stepped
      exact fun id => (all id).clock now
  | recordOutcome id started outcome =>
      simp only [World.next] at stepped
      split at stepped
      next =>
        cases stepped
        exact all.put ((all id).recordOutcome orderly.1 orderly.2)
      next => contradiction
  | markConfigured id =>
      cases stepped
      exact all.put ((all id).markConfigured orderly)
  | markNotConfigured id =>
      cases stepped
      exact all.put (all id).markNotConfigured
  | markNoPublicApi id note =>
      cases stepped
      exact all.put ((all id).markNoPublicApi note)

theorem World.AllKept.start (now : Time) : World.AllKept { now } := by
  intro id
  constructor
  case known => exact fun configured => absurd configured Bool.false_ne_true
  case removed => exact fun _ => rfl
  case rejected => exact fun rejected => absurd rejected Bool.false_ne_true
  case waits => exact fun configured => absurd configured Bool.false_ne_true
  case running => exact fun wait inside => absurd inside List.not_mem_nil

/-- In every run whose steps are orderly the breaker holds. -/
theorem holds_of_orderly {world : World} (reachable : system.Reachable Orderly world) :
    world.Holds := by
  have all : world.AllKept := by
    refine reachable.invariant World.AllKept ?_ ?_
    · rintro start ⟨now, rfl⟩
      exact .start now
    · exact fun state label after _ all orderly stepped => all.next orderly stepped
  exact ⟨fun id => (all id).not_healthy_of_rejected, fun id => (all id).not_healthy_of_waits,
    fun id => Record.breakerState_iff (all id).known⟩

section Example

def groq : Utf16 := ofString "groq"

def unauthorized : Outcome := { ok := false, status := some 401, code := ofString "UNAUTHORIZED" }

def upstreamError : Outcome := { ok := false, status := some 500, code := ofString "UPSTREAM_ERROR" }

/-- A rate limit that asks for a minute. -/
def limited : Outcome :=
  { ok := false, status := some 429, code := ofString "RATE_LIMITED", retryAfterMs := some 60000 }

/-- Orderly runs: a rate limit and a rejection, each with the answer of a later call. -/
def orderlyRun : List Label :=
  [.markConfigured groq, .recordOutcome groq 0 limited, .clock 59999, .recordOutcome groq 1 { ok := true },
    .recordOutcome groq 2 unauthorized, .clock 900000]

theorem holds_orderlyRun : ∃ world : World,
    system.exec Orderly {} orderlyRun = some world ∧ (world.promises groq).rejected = true ∧
      world.Holds := by
  have ran : (system.exec Orderly {} orderlyRun).any
      (fun world => (world.promises groq).rejected) = true := by decide
  obtain ⟨world, reached, rejected⟩ := (Option.any_eq_true _ _).1 ran
  exact ⟨world, reached, rejected, holds_of_orderly (Reachable.of_exec (.start ⟨0, rfl⟩) reached)⟩

/-- After a rejection an error is recorded of a call that started before it, and ten minutes later
the provider is healthy. -/
def lateError : List Label :=
  [.markConfigured groq, .recordOutcome groq 0 unauthorized, .recordOutcome groq 0 upstreamError,
    .clock 600000]

theorem not_holds_lateError : ∃ world, system.Reachable always world ∧ ¬ world.Holds := by
  have ran : (system.exec always {} lateError).any (fun world =>
      (world.promises groq).rejected && (world.get groq).isHealthy world.now) = true := by
    decide
  obtain ⟨world, reached, tested⟩ := (Option.any_eq_true _ _).1 ran
  rw [Bool.and_eq_true] at tested
  refine ⟨world, Reachable.of_exec (.start ⟨0, rfl⟩) reached, ?_⟩
  intro holds
  exact Bool.false_ne_true ((holds.rejected groq tested.1).symm.trans tested.2)

end Example

end Health

end TitanRunner
