import Mathlib.Data.List.Nodup
import TitanRunner.Providers.Registry

/-!
# Failover of one call

`Registry.chat` as one function of the moments and the answers it meets.  While a call waits for
a provider anything may happen to the clock, the health store, the ops gate and the quota ledger:
the environment says how they stand when the call goes on.  Left out are the decision sink, the
usage reporter and the log, which receive and decide nothing; the record of the success that ends
a call is in `World.next`.
-/

namespace TitanRunner

namespace Providers

namespace Failover

open Quota

/-- The id of a provider in the catalog. -/
def idText : ProviderId → String
  | .groq => "groq"
  | .together => "together"
  | .openrouter => "openrouter"
  | .gemini => "gemini"
  | .huggingface => "huggingface"
  | .custom1 => "custom_1"
  | .custom2 => "custom_2"
  | .custom3 => "custom_3"
  | .omniroute => "omniroute"

/-- What a call reads between two awaits; the ledger is attached by the engine. -/
structure Moment where
  now : Nat
  readings : Readings
  quota : Option Ledger := none

structure Reply where
  model : String
  text : String
  tokensUsed : Option Nat := none
  deriving DecidableEq, Repr

/-- What `classifyFailure` makes of an error. -/
structure Fault where
  cls : String
  code : Option String := none
  status : Option Nat := none
  retryAfterMs : Option Nat := none
  deriving DecidableEq, Repr

/-- How the call of a provider ends; a failure may find that the caller's signal is aborted. -/
inductive Answer where
  | success (reply : Reply)
  | failure (fault : Fault) (aborted : Bool)
  deriving DecidableEq, Repr

/-- How things stand when a call starts or the answer to its `n`-th attempt arrives, before the
call itself has written anything, and the answers to its attempts. -/
structure Environment where
  moment : Nat → Moment
  answer : Nat → Answer

/-- A provider that was asked, and what was read when it was. -/
structure Attempt where
  provider : ProviderId
  moment : Moment

/-- A direct provider, not the gateway. -/
def Attempt.isDirect (attempt : Attempt) : Bool := decide (attempt.provider ≠ .omniroute)

structure Skipped where
  id : ProviderId
  skip : Skip
  deriving DecidableEq, Repr

structure Failed where
  id : ProviderId
  fault : Fault
  deriving DecidableEq, Repr

/-- The error `ALL_PROVIDERS_FAILED`, which is not retryable. -/
structure AllFailed where
  message : String
  retryAfterMs : Option Nat
  failureClass : String
  failures : List Failed
  skipped : List Skipped
  deriving DecidableEq, Repr

inductive Ending where
  | returned (id : ProviderId) (reply : Reply)
  /-- The error of the provider is thrown on, the signal being aborted. -/
  | rethrown (fault : Fault)
  | failed (error : AllFailed)
  deriving DecidableEq, Repr

def Ending.thrown : Ending → Bool
  | .returned _ _ => false
  | .rethrown _ | .failed _ => true

/-- What was tried, and how the call ended. -/
structure ChatRun where
  attempts : List Attempt
  ending : Ending

/-- `tried`, `skipped` and `failures`. -/
structure Progress where
  attempts : List Attempt := []
  skipped : List Skipped := []
  failures : List Failed := []

/-! ## The loop -/

namespace Moment

variable (moment : Moment)

/-- Why a call of a provider would overspend. -/
def spent (id : ProviderId) (priority : Option Priority) : Option String :=
  moment.quota.bind fun ledger => (ledger.canSpend moment.now id priority).reason

/-- `canSpend` brings the entry of a provider up to date. -/
def looked (id : ProviderId) : Moment :=
  { moment with quota := moment.quota.map fun ledger => ledger.windows moment.now id }

/-- A failure with an HTTP status is a call on record. -/
def failed (id : ProviderId) (fault : Fault) : Moment :=
  if fault.status.isSome then
    { moment with
      quota := moment.quota.map fun ledger => ledger.record moment.now id none fault.status }
  else moment

/-- `#skipReason`, and what is left behind. -/
def skipReason (opts : Options) (id : ProviderId) : Moment × Option Skip :=
  match moment.readings.breaker id, decide (opts.explicitId = some id) with
  | .disabled reason, _ => (moment, some ⟨"breaker disabled: " ++ reason, "permanent"⟩)
  | .open reason last, false =>
      (moment, some ⟨"breaker open: " ++ reason, last.getD "provider_down"⟩)
  | _, explicit =>
      match moment.spent id opts.priority with
      | some reason => (moment.looked id, some ⟨"quota: " ++ reason, "budget_exhausted"⟩)
      | none =>
          (moment.looked id,
            (moment.readings.ops.bind fun gate => gate.skipReason id explicit).map fun skip =>
              ⟨"ops: " ++ skip.reason, skip.cls⟩)

end Moment

/-- `aggregateClass` -/
def aggregateClass (classes : List String) (skipped : Nat) : String :=
  if classes = [] then if skipped ≠ 0 then "provider_down" else "permanent"
  else if classes.all fun cls => cls == "permanent" || cls == "policy_blocked" then "permanent"
  else if classes.all fun cls => cls == "budget_exhausted" || cls == "permanent" then
    "budget_exhausted"
  else if classes.contains "rate_limited" then "rate_limited"
  else if classes.contains "provider_down" || classes.contains "timeout" then "provider_down"
  else if classes.all fun cls => cls == "malformed_output" then "malformed_output"
  else "transient"

namespace Progress

variable (progress : Progress)

/-- The direct providers that were tried. -/
def direct : Nat := progress.attempts.countP Attempt.isDirect

def failureClass : String :=
  if progress.failures ≠ [] then
    aggregateClass (progress.failures.map fun failed => failed.fault.cls) progress.skipped.length
  else
    aggregateClass (progress.skipped.map fun skipped => skipped.skip.cls) progress.skipped.length

/-- The shortest wait that a rate limit asked for. -/
def retryAfterMs : Option Nat :=
  ((progress.failures.filter fun failed => failed.fault.cls == "rate_limited").filterMap
    fun failed => failed.fault.retryAfterMs).min?

def message : String :=
  let tried :=
    if progress.attempts = [] then "none configured or healthy"
    else ", ".intercalate (progress.attempts.map fun attempt => idText attempt.provider)
  let skipped :=
    if progress.skipped = [] then ""
    else " (skipped: " ++ "; ".intercalate (progress.skipped.map fun skipped =>
      idText skipped.id ++ " — " ++ skipped.skip.reason) ++ ")"
  "All providers failed for this request (tried: " ++ tried ++ ")" ++ skipped

def giveUp : ChatRun where
  attempts := progress.attempts
  ending := .failed
    { message := progress.message
      retryAfterMs := progress.retryAfterMs
      failureClass := progress.failureClass
      failures := progress.failures
      skipped := progress.skipped }

def pass (id : ProviderId) (skip : Skip) : Progress :=
  { progress with skipped := progress.skipped ++ [⟨id, skip⟩] }

def fail (attempt : Attempt) (fault : Fault) : Progress :=
  { progress with
    attempts := progress.attempts ++ [attempt]
    failures := progress.failures ++ [⟨attempt.provider, fault⟩] }

end Progress

/-- A provider is asked; its failure leaves the call to the rest. -/
def ask (env : Environment) (progress : Progress) (attempt : Attempt)
    (rest : Moment → Progress → ChatRun) : ChatRun :=
  match env.answer progress.attempts.length with
  | .success reply => ⟨progress.attempts ++ [attempt], .returned attempt.provider reply⟩
  | .failure fault true => ⟨progress.attempts ++ [attempt], .rethrown fault⟩
  | .failure fault false =>
      let moment := env.moment (progress.attempts.length + 1)
      rest (if attempt.provider = .omniroute then moment else moment.failed attempt.provider fault)
        (progress.fail attempt fault)

/-- The loop over the order. -/
def loop (opts : Options) (env : Environment) : List ProviderId → Moment → Progress → ChatRun
  | [], _, progress => progress.giveUp
  | id :: rest, moment, progress =>
      if opts.limit ≤ progress.direct then progress.giveUp
      else if moment.readings.configured id then
        match (moment.skipReason opts id).2 with
        | some skip =>
            loop opts env rest (moment.skipReason opts id).1 (progress.pass id skip)
        | none => ask env progress ⟨id, moment⟩ (loop opts env rest)
      else loop opts env rest moment progress

def chat (opts : Options) (env : Environment) : ChatRun :=
  let start := env.moment 0
  let order := order opts start.readings
  if opts.explicitId.isNone && start.readings.configured .omniroute then
    ask env {} ⟨.omniroute, start⟩ (loop opts env order)
  else loop opts env order start {}

/-! ## What a call of the loop does -/

/-- The first `n` attempts failed, and the signal was not aborted. -/
def FailedUpTo (env : Environment) (n : Nat) : Prop :=
  ∀ k < n, ∃ fault, env.answer k = .failure fault false

/-- The provider may be called: it is configured, not disabled, and its quota is not spent. -/
structure Attempt.Callable (opts : Options) (attempt : Attempt) : Prop where
  configured : attempt.moment.readings.configured attempt.provider = true
  enabled : ∀ reason, attempt.moment.readings.breaker attempt.provider ≠ .disabled reason
  affordable : ∀ ledger, attempt.moment.quota = some ledger →
    (ledger.canSpend attempt.moment.now attempt.provider opts.priority).ok = true

/-- How a call ends after its attempts. -/
inductive Settled (env : Environment) : List Attempt → Ending → Prop
  | returned {before : List Attempt} (attempt : Attempt) {reply : Reply}
      (failed : FailedUpTo env before.length)
      (answered : env.answer before.length = .success reply) :
      Settled env (before ++ [attempt]) (.returned attempt.provider reply)
  | rethrown {before : List Attempt} (attempt : Attempt) {fault : Fault}
      (failed : FailedUpTo env before.length)
      (aborted : env.answer before.length = .failure fault true) :
      Settled env (before ++ [attempt]) (.rethrown fault)
  | failed {attempts : List Attempt} {error : AllFailed}
      (failed : FailedUpTo env attempts.length) : Settled env attempts (.failed error)

/-- The call goes on after its attempts, with what it reads then. -/
structure Ready (env : Environment) (moment : Moment) (progress : Progress) : Prop where
  failed : FailedUpTo env progress.attempts.length
  current : moment.readings = (env.moment progress.attempts.length).readings

/-- What became of a provider when all failed: it was asked, skipped or not configured. -/
def Accounted (env : Environment) (run : ChatRun) (error : AllFailed) (id : ProviderId) : Prop :=
  id ∈ run.attempts.map Attempt.provider ∨ id ∈ error.skipped.map Skipped.id ∨
    ∃ k ≤ run.attempts.length, (env.moment k).readings.configured id = false

/-- The attempts that are added on the way through an order. -/
structure Tries (opts : Options) (env : Environment) (progress : Progress)
    (rest : List ProviderId) (run : ChatRun) (more : List Attempt) : Prop where
  attempts : run.attempts = progress.attempts ++ more
  ranked : (more.map Attempt.provider).Sublist rest
  callable : ∀ attempt ∈ more, attempt.provider ≠ .omniroute → attempt.Callable opts
  current : ∀ k attempt, more[k]? = some attempt →
    attempt.moment.readings = (env.moment (progress.attempts.length + k)).readings
  few : progress.direct + more.countP Attempt.isDirect ≤ max opts.limit progress.direct
  settled : Settled env run.attempts run.ending
  skipped : ∀ error, run.ending = .failed error → progress.skipped ⊆ error.skipped
  thorough : ∀ error, run.ending = .failed error →
    opts.limit ≤ run.attempts.countP Attempt.isDirect ∨ ∀ id ∈ rest, Accounted env run error id

section Loop

variable {opts : Options} {env : Environment} {progress : Progress} {moment : Moment}
  {attempt : Attempt} {id : ProviderId} {skip : Skip} {rest : List ProviderId}
  {next : Moment → Progress → ChatRun} {run : ChatRun} {more : List Attempt}

theorem FailedUpTo.succ {n : Nat} {fault : Fault} (failed : FailedUpTo env n)
    (answered : env.answer n = .failure fault false) : FailedUpTo env (n + 1) := by
  intro k lt
  rcases Nat.lt_succ_iff_lt_or_eq.1 lt with lt | rfl
  · exact failed k lt
  · exact ⟨fault, answered⟩

@[simp] theorem Moment.readings_failed {fault : Fault} :
    (moment.failed id fault).readings = moment.readings := by
  rw [Moment.failed]
  split
  next => rfl
  next => rfl

@[simp] theorem Moment.readings_skipReason :
    (moment.skipReason opts id).1.readings = moment.readings := by
  rw [Moment.skipReason]
  split
  next => rfl
  next => rfl
  next => split <;> rfl

/-- `#skipReason` lets a provider through only where it may be called. -/
theorem callable_of_skipReason (configured : moment.readings.configured id = true)
    (free : (moment.skipReason opts id).2 = none) :
    Attempt.Callable opts ⟨id, moment⟩ := by
  have affordable : moment.spent id opts.priority = none → ∀ ledger, moment.quota = some ledger →
      (ledger.canSpend moment.now id opts.priority).ok = true := by
    intro unspent ledger attached
    simpa [Moment.spent, attached, Verdict.ok] using unspent
  rw [Moment.skipReason] at free
  split at free
  next => contradiction
  next => contradiction
  next explicit enabled _ =>
    split at free
    next => contradiction
    next unspent =>
      exact ⟨configured, fun reason disabled => enabled reason disabled, affordable unspent⟩

theorem Ready.skipReason (ready : Ready env moment progress) (opts : Options) (id : ProviderId)
    (skip : Skip) :
    Ready env (moment.skipReason opts id).1 (progress.pass id skip) :=
  ⟨ready.failed, Moment.readings_skipReason.trans ready.current⟩

/-- An attempt is the last one, or the call goes on with one failure more. -/
theorem ask_cases (attempt : Attempt) (next : Moment → Progress → ChatRun)
    (ready : Ready env moment progress) :
    ((ask env progress attempt next).attempts = progress.attempts ++ [attempt] ∧
      Settled env (ask env progress attempt next).attempts
        (ask env progress attempt next).ending ∧
      ∀ error, (ask env progress attempt next).ending ≠ .failed error) ∨
    ∃ later fault, Ready env later (progress.fail attempt fault) ∧
      ask env progress attempt next = next later (progress.fail attempt fault) := by
  rw [ask]
  split
  next reply answered =>
    exact .inl ⟨rfl, .returned attempt ready.failed answered, fun error => Ending.noConfusion⟩
  next fault aborted =>
    exact .inl ⟨rfl, .rethrown attempt ready.failed aborted, fun error => Ending.noConfusion⟩
  next fault answered =>
    refine .inr ⟨_, fault, ⟨?_, ?_⟩, rfl⟩
    · rw [Progress.fail, List.length_append]
      exact ready.failed.succ answered
    · rw [Progress.fail, List.length_append, List.length_singleton]
      split
      next => rfl
      next => exact Moment.readings_failed

theorem Tries.giveUp (ready : Ready env moment progress)
    (ends : opts.limit ≤ progress.direct ∨ rest = []) :
    Tries opts env progress rest progress.giveUp [] where
  attempts := (List.append_nil _).symm
  ranked := List.nil_sublist rest
  callable := fun _ mem => absurd mem List.not_mem_nil
  current := fun _ _ mem => absurd (List.mem_of_getElem? mem) List.not_mem_nil
  few := Nat.le_max_right _ _
  settled := .failed ready.failed
  skipped := fun _ failed => Ending.failed.inj failed ▸ List.Subset.refl _
  thorough := fun _ _ =>
    ends.imp_right fun last _ mem => absurd (last ▸ mem) List.not_mem_nil

theorem Tries.cons (tries : Tries opts env progress rest run more)
    (accounted : ∀ error, run.ending = .failed error → Accounted env run error id) :
    Tries opts env progress (id :: rest) run more :=
  { tries with
    ranked := tries.ranked.cons id
    thorough := fun error failed => (tries.thorough error failed).imp_right fun others =>
      List.forall_mem_cons.2 ⟨accounted error failed, others⟩ }

/-- A provider that is passed over is no attempt. -/
theorem Tries.pass (tries : Tries opts env (progress.pass id skip) rest run more) :
    Tries opts env progress (id :: rest) run more := by
  have skipped : ∀ error, run.ending = .failed error →
      progress.skipped ++ [⟨id, skip⟩] ⊆ error.skipped := tries.skipped
  have kept : Tries opts env progress rest run more :=
    { attempts := tries.attempts
      ranked := tries.ranked
      callable := tries.callable
      current := tries.current
      few := tries.few
      settled := tries.settled
      skipped := fun error failed => (List.append_subset.1 (skipped error failed)).1
      thorough := tries.thorough }
  refine kept.cons fun error failed => .inr (.inl ?_)
  have mem := (List.append_subset.1 (skipped error failed)).2 (List.mem_singleton_self _)
  exact List.mem_map_of_mem (f := Skipped.id) mem

theorem Tries.notConfigured (ready : Ready env moment progress)
    (tries : Tries opts env progress rest run more)
    (missing : moment.readings.configured id = false) :
    Tries opts env progress (id :: rest) run more := by
  refine tries.cons fun error _ => .inr (.inr ⟨progress.attempts.length, ?_, ?_⟩)
  · rw [tries.attempts, List.length_append]
    exact Nat.le_add_right _ _
  · rw [← ready.current, missing]

theorem Tries.ask (ready : Ready env attempt.moment progress)
    (callable : attempt.provider ≠ .omniroute → attempt.Callable opts)
    (free : progress.direct < opts.limit)
    (onward : ∀ later fault, Ready env later (progress.fail attempt fault) →
      ∃ more, Tries opts env (progress.fail attempt fault) rest
        (next later (progress.fail attempt fault)) more) :
    ∃ more, Tries opts env progress (attempt.provider :: rest) (ask env progress attempt next)
      more := by
  have direct : [attempt].countP Attempt.isDirect ≤ 1 := List.countP_le_length
  obtain ⟨attempts, settled, failing⟩ | ⟨later, fault, goesOn, asked⟩ :=
    ask_cases attempt next ready
  · refine ⟨[attempt], attempts, ?_, ?_, ?_, ?_, settled, ?_, ?_⟩
    · exact (List.nil_sublist rest).cons_cons attempt.provider
    · exact fun other mem => List.mem_singleton.1 mem ▸ callable
    · intro k other mem
      cases k with
      | zero => exact Option.some.inj mem ▸ ready.current
      | succ k => contradiction
    · omega
    · exact fun error failed => absurd failed (failing error)
    · exact fun error failed => absurd failed (failing error)
  · obtain ⟨more, tries⟩ := onward later fault goesOn
    have attempts : (next later (progress.fail attempt fault)).attempts =
        progress.attempts ++ attempt :: more := by
      rw [tries.attempts, Progress.fail, List.append_assoc, List.singleton_append]
    rw [asked]
    refine ⟨attempt :: more, attempts, ?_, ?_, ?_, ?_, tries.settled, tries.skipped, ?_⟩
    · exact tries.ranked.cons_cons attempt.provider
    · exact List.forall_mem_cons.2 ⟨callable, tries.callable⟩
    · intro k other mem
      cases k with
      | zero => exact Option.some.inj mem ▸ ready.current
      | succ k =>
          rw [tries.current k other mem, Progress.fail, List.length_append,
            List.length_singleton, Nat.add_assoc, Nat.add_comm 1 k]
    · have few := tries.few
      have fail : (progress.fail attempt fault).direct =
          progress.direct + [attempt].countP Attempt.isDirect := List.countP_append
      rw [← List.singleton_append, List.countP_append]
      omega
    · intro error failed
      refine (tries.thorough error failed).imp_right fun others => List.forall_mem_cons.2 ⟨?_, others⟩
      refine .inl (List.mem_map_of_mem (f := Attempt.provider) ?_)
      rw [attempts]
      exact List.mem_append_right _ List.mem_cons_self

theorem loop_tries (opts : Options) (rest : List ProviderId) (ready : Ready env moment progress) :
    ∃ more, Tries opts env progress rest (loop opts env rest moment progress) more := by
  induction rest generalizing moment progress with
  | nil => exact ⟨[], .giveUp ready (.inr rfl)⟩
  | cons id rest ih =>
      rw [loop]
      split
      next full => exact ⟨[], .giveUp ready (.inl full)⟩
      next free =>
        split
        next configured =>
          split
          next skip _ =>
            obtain ⟨more, tries⟩ := ih (ready.skipReason opts id skip)
            exact ⟨more, tries.pass⟩
          next asked =>
            exact Tries.ask ready (fun _ => callable_of_skipReason configured asked)
              (Nat.not_le.1 free) fun later fault goesOn => ih goesOn
        next missing =>
          obtain ⟨more, tries⟩ := ih ready
          exact ⟨more, tries.notConfigured ready (Bool.eq_false_iff.2 missing)⟩

end Loop

/-! ## The ends of a call -/

section Settled

variable {env : Environment} {attempts : List Attempt} {ending : Ending}

theorem FailedUpTo.not_success {n k : Nat} {reply : Reply} (failed : FailedUpTo env n)
    (lt : k < n) : env.answer k ≠ .success reply := by
  obtain ⟨fault, answered⟩ := failed k lt
  rw [answered]
  exact Answer.noConfusion

/-- All attempts before the last one failed. -/
theorem Settled.failed_before (settled : Settled env attempts ending) :
    FailedUpTo env (attempts.length - 1) := by
  cases settled with
  | returned attempt failed _ | rethrown attempt failed _ =>
      rwa [List.length_append, List.length_singleton, Nat.add_sub_cancel]
  | failed failed => exact fun k lt => failed k (Nat.lt_of_lt_of_le lt (Nat.sub_le _ _))

/-- The last attempt of a call is the one whose answer ended it. -/
theorem lt_or_last {before : List Attempt} {attempt other : Attempt} {k : Nat}
    (mem : (before ++ [attempt])[k]? = some other) :
    k < before.length ∨ k = before.length ∧ other = attempt := by
  rcases Nat.lt_or_ge k before.length with lt | le
  · exact .inl lt
  · rw [List.getElem?_append_right le, List.getElem?_singleton] at mem
    split at mem
    next zero => exact .inr ⟨by omega, (Option.some.inj mem).symm⟩
    next => contradiction

theorem Settled.returned_iff (settled : Settled env attempts ending) (id : ProviderId)
    (reply : Reply) :
    ending = .returned id reply ↔
      ∃ k attempt, attempts[k]? = some attempt ∧ attempt.provider = id ∧
        env.answer k = .success reply := by
  cases settled with
  | @returned before attempt answer failed answered =>
      constructor
      · intro same
        obtain ⟨rfl, rfl⟩ := Ending.returned.inj same
        exact ⟨before.length, attempt, List.getElem?_concat_length, rfl, answered⟩
      · rintro ⟨k, other, mem, rfl, success⟩
        obtain lt | ⟨rfl, rfl⟩ := lt_or_last mem
        · exact absurd success (failed.not_success lt)
        · rw [Answer.success.inj (answered.symm.trans success)]
  | @rethrown before attempt fault failed aborted =>
      refine ⟨Ending.noConfusion, ?_⟩
      rintro ⟨k, other, mem, rfl, success⟩
      obtain lt | ⟨rfl, rfl⟩ := lt_or_last mem
      · exact absurd success (failed.not_success lt)
      · exact Answer.noConfusion (aborted.symm.trans success)
  | failed failed =>
      refine ⟨Ending.noConfusion, ?_⟩
      rintro ⟨k, other, mem, rfl, success⟩
      exact absurd success (failed.not_success (List.getElem?_eq_some_iff.1 mem).1)

theorem Settled.thrown_iff (settled : Settled env attempts ending) :
    ending.thrown = true ↔ ∀ k < attempts.length, ∀ reply, env.answer k ≠ .success reply := by
  constructor
  · intro thrown k lt reply success
    have returned := (settled.returned_iff (attempts[k]).provider reply).2
      ⟨k, attempts[k], List.getElem?_eq_getElem lt, rfl, success⟩
    rw [returned] at thrown
    contradiction
  · intro none
    cases settled with
    | @returned before attempt answer failed answered =>
        have last : before.length < (before ++ [attempt]).length := by
          rw [List.length_append]
          exact Nat.lt_succ_self _
        exact absurd answered (none _ last _)
    | rethrown | failed => rfl

end Settled

/-! ## The order -/

section Order

variable (opts : Options) (readings : Readings)

theorem preferGemini_perm (order : List ProviderId) :
    (preferGemini readings order).Perm order := by
  rw [preferGemini]
  split
  next => exact .refl _
  next swap =>
    simp only [Bool.or_eq_true, not_or, decide_eq_true_eq, Nat.not_lt, Bool.not_eq_true',
      Bool.not_eq_false, List.contains_iff_mem] at swap
    obtain ⟨⟨⟨_, openrouter⟩, gemini⟩, le⟩ := swap
    have lt : order.idxOf .gemini < order.length := List.idxOf_lt_length_of_mem gemini
    have ne : order.idxOf .openrouter ≠ order.idxOf .gemini := fun same =>
      ProviderId.noConfusion ((List.idxOf_inj openrouter).1 same)
    have fits : order.idxOf .openrouter ≤ (order.eraseIdx (order.idxOf .gemini)).length := by
      rw [List.length_eraseIdx_of_lt lt]
      omega
    have taken := List.getElem_cons_eraseIdx_perm lt
    rw [List.getElem_idxOf] at taken
    exact (List.perm_insertIdx _ _ fits).trans taken

theorem rank_perm (gate : OpsGate) (order : List ProviderId) :
    (gate.rank order).Perm order :=
  List.perm_append_comm.trans (List.filter_append_perm gate.degraded order)

theorem order_perm : (order opts readings).Perm opts.base := by
  rw [order]
  split
  next => exact .refl _
  next gate _ _ => exact (rank_perm gate _).trans (preferGemini_perm readings opts.base)
  next => exact preferGemini_perm readings opts.base

theorem base_nodup : opts.base.Nodup := by
  have all : allChatIds.Nodup := by decide
  rw [Options.base]
  split
  next id _ =>
    split
    next =>
      refine List.nodup_cons.2 ⟨fun mem => ?_, all.filter _⟩
      have ne : decide (id ≠ id) = true := (List.mem_filter.1 mem).2
      exact of_decide_eq_true ne rfl
    next => exact List.nodup_singleton id
  next => exact all

theorem base_subset : opts.base ⊆ allChatIds := by
  intro id mem
  rw [Options.base] at mem
  split at mem
  next named explicit =>
    have routable : named ∈ allChatIds := by
      have kept := (Option.filter_eq_some_iff.1 explicit).2
      exact of_decide_eq_true kept
    split at mem
    next =>
      obtain rfl | mem := List.mem_cons.1 mem
      · exact routable
      · exact List.mem_of_mem_filter mem
    next => rwa [List.mem_singleton.1 mem]
  next => exact mem

theorem omniroute_notMem_order : .omniroute ∉ order opts readings := by
  intro mem
  have gateway := base_subset opts ((order_perm opts readings).mem_iff.1 mem)
  revert gateway
  decide

/-- The providers that a call may ask, in the order of its choice: the gateway goes first, for a
call that names no service. -/
def candidates : List ProviderId :=
  if opts.explicitId.isNone && readings.configured .omniroute then
    .omniroute :: order opts readings
  else order opts readings

theorem candidates_nodup : (candidates opts readings).Nodup := by
  have order := (order_perm opts readings).nodup_iff.2 (base_nodup opts)
  rw [candidates]
  split
  next => exact List.nodup_cons.2 ⟨omniroute_notMem_order opts readings, order⟩
  next => exact order

end Order

/-! ## The call -/

/-- What a call of `chat` keeps to. -/
structure Exact (opts : Options) (env : Environment) (run : ChatRun) : Prop where
  /-- Each provider is tried at most once, -/
  once : (run.attempts.map Attempt.provider).Nodup
  /-- in the order of the call, the gateway first; -/
  ranked : (run.attempts.map Attempt.provider).Sublist (candidates opts (env.moment 0).readings)
  /-- at most as many direct ones as the call may try, -/
  few : run.attempts.countP Attempt.isDirect ≤ opts.limit
  /-- each of them one that may be called -/
  callable : ∀ attempt ∈ run.attempts, attempt.provider ≠ .omniroute → attempt.Callable opts
  /-- by what was read when the answer before had arrived; -/
  current : ∀ k attempt, run.attempts[k]? = some attempt →
    attempt.moment.readings = (env.moment k).readings
  /-- and only the named one, where the call names one and did not ask for a failover. -/
  named : ∀ id, opts.explicitId = some id → opts.failover.getD false = false →
    ∀ attempt ∈ run.attempts, attempt.provider = id
  /-- No attempt follows one that did not fail, -/
  failed_before : ∀ k, k + 1 < run.attempts.length → ∃ fault, env.answer k = .failure fault false
  /-- a success is returned, -/
  returned_iff : ∀ id reply, run.ending = .returned id reply ↔
    ∃ k attempt, run.attempts[k]? = some attempt ∧ attempt.provider = id ∧
      env.answer k = .success reply
  /-- and an error is thrown where there was none, -/
  thrown_iff : run.ending.thrown = true ↔
    ∀ k < run.attempts.length, ∀ reply, env.answer k ≠ .success reply
  /-- that all failed only when the limit was reached or no provider was left. -/
  thorough : ∀ error, run.ending = .failed error →
    opts.limit ≤ run.attempts.countP Attempt.isDirect ∨
      ∀ id ∈ candidates opts (env.moment 0).readings, Accounted env run error id

theorem chat_tries (opts : Options) (env : Environment) :
    Tries opts env {} (candidates opts (env.moment 0).readings) (chat opts env)
      (chat opts env).attempts := by
  have ready : Ready env (env.moment 0) {} := ⟨fun k lt => absurd lt (Nat.not_lt_zero k), rfl⟩
  have limit : 0 < opts.limit := Nat.le_max_left _ _
  have tries : ∃ more, Tries opts env {} (candidates opts (env.moment 0).readings)
      (chat opts env) more := by
    rw [chat, candidates]
    split
    next =>
      exact @Tries.ask _ _ _ ⟨.omniroute, env.moment 0⟩ _ _ ready
        (fun direct => absurd rfl direct) limit fun later fault goesOn => loop_tries opts _ goesOn
    next => exact loop_tries opts _ ready
  obtain ⟨more, tries⟩ := tries
  have attempts : (chat opts env).attempts = more := tries.attempts
  rwa [← attempts] at tries

/-- A call that names a provider, without failover, has no other candidate. -/
theorem candidates_named {opts : Options} {id : ProviderId} (explicit : opts.explicitId = some id)
    (alone : opts.failover.getD false = false) (readings : Readings) :
    candidates opts readings = [id] := by
  simp [candidates, order, Options.base, explicit, alone]

/-- The gateway's key was refused, and each provider fails. -/
def allDown : Environment where
  moment _ :=
    { now := 0
      readings :=
        { configured := fun _ => true
          breaker := fun id => if id = .omniroute then .disabled "key refused" else .closed } }
  answer _ := .failure { cls := "provider_down" } false

section Walk

variable {opts : Options} {env : Environment} {moment : Moment} {progress : Progress}
  {ledger : Ledger} {id : ProviderId} {rest : List ProviderId}

/-- With a ledger attached, a provider is skipped as in the model of the concurrent calls. -/
theorem skipReason_eq (attached : moment.quota = some ledger) (opts : Options)
    (id : ProviderId) :
    moment.skipReason opts id =
      ({ moment with
          quota := some (Providers.skipReason ledger moment.now moment.readings opts id).1 },
        (Providers.skipReason ledger moment.now moment.readings opts id).2) := by
  obtain ⟨now, readings, quota⟩ := moment
  subst attached
  simp only [Moment.skipReason, Providers.skipReason, Moment.spent, Moment.looked, Option.map_some,
    Option.bind_some]
  cases readings.breaker id with
  | disabled reason => rfl
  | «open» reason last =>
      cases decide (opts.explicitId = some id) with
      | false => rfl
      | true => cases (ledger.canSpend now id opts.priority).reason <;> rfl
  | closed | halfOpen => cases (ledger.canSpend now id opts.priority).reason <;> rfl

/-- The next attempt is at the provider that the walk of the concurrent calls stops at. -/
theorem loop_walks (ready : Ready env moment progress) (attached : moment.quota = some ledger) :
    (loop opts env rest moment progress).attempts[progress.attempts.length]?.map
        Attempt.provider =
      (walk moment.now moment.readings opts progress.direct rest ledger).2.map Call.provider := by
  induction rest generalizing moment progress ledger with
  | nil => simp [loop, walk, Progress.giveUp]
  | cons id rest ih =>
      rw [loop, walk]
      split
      next => simp [Progress.giveUp]
      next =>
        split
        next =>
          have skipReason := skipReason_eq attached opts id
          generalize Providers.skipReason ledger moment.now moment.readings opts id = passed
            at skipReason
          obtain ⟨later, _ | skip⟩ := passed
          · simp only [skipReason, Option.map_some]
            obtain ⟨attempts, _⟩ | ⟨moment', fault, goesOn, asked⟩ :=
              ask_cases ⟨id, moment⟩ (loop opts env rest) ready
            · rw [attempts, List.getElem?_concat_length, Option.map_some]
            · obtain ⟨more, tries⟩ := loop_tries opts rest goesOn
              rw [asked, tries.attempts, Progress.fail, List.append_assoc,
                List.getElem?_append_right (Nat.le_refl _), Nat.sub_self]
              rfl
          · have attached' : (moment.skipReason opts id).1.quota = some later := by rw [skipReason]
            have passed := ih (ready.skipReason opts id skip) attached'
            rw [skipReason] at passed
            simp only [skipReason]
            exact passed
        next => exact ih ready attached

end Walk

/-- The first provider is at its limit, so the second is asked. -/
theorem loop_walks_pastLimit :
    let moment : Moment := { allDown.moment 0 with
      quota := some { limits := fun | .groq => some ⟨0, 0⟩ | _ => none } }
    (loop {} allDown [.groq, .together] moment {}).attempts[0]?.map Attempt.provider =
      some .together := by
  intro moment
  have ready : Ready allDown moment {} := ⟨fun k lt => absurd lt (Nat.not_lt_zero k), rfl⟩
  exact (@loop_walks {} allDown moment {} _ [.groq, .together] ready rfl).trans (by decide)

end Failover

end Providers

end TitanRunner
