import TitanRunner.Lib.Interleaving
import TitanRunner.Lib.Utf16

/-!
# Sub-agent tasks

One row of the table `subagents` and the requests of `tasks.js` that run on it in any
interleaving: the callbacks of the workflow runs, the reaper, cancels, retries, and the ticks
that dispatch.  A run belongs to the attempt that it was dispatched for; a callback does not
say which attempt that is.
-/

namespace TitanRunner

namespace Tasks

open Utf16 (ofString)
open TransitionSystem System Interleaving

inductive Status where
  | queued | dispatched | running | done | failed
  deriving DecidableEq, Repr

/-- A row of `subagents`, without the columns that no statement here writes. -/
structure Row where
  status : Status := .queued
  provider : Option Utf16 := none
  queuedAt : Nat
  dispatchedAt : Option Nat := none
  startedAt : Option Nat := none
  finishedAt : Option Nat := none
  resultSummary : Option Utf16 := none
  runUrl : Option Utf16 := none
  tokensUsed : Option Int := none
  retryCount : Nat := 0
  deriving DecidableEq

/-- `STUCK_AFTER_MINUTES`, in milliseconds. -/
def stuckAfter : Nat := 25 * 60 * 1000

/-- `COALESCE(started_at, dispatched_at, queued_at)` -/
def Row.since (row : Row) : Nat := (row.startedAt.or row.dispatchedAt).getD row.queuedAt

/-- The terminal statuses. -/
def Status.isTerminal : Status → Bool
  | .done | .failed => true
  | _ => false

inductive Reported where
  | running | done | failed
  deriving DecidableEq, Repr

def Reported.status : Reported → Status
  | .running => .running
  | .done => .done
  | .failed => .failed

/-- The body of a callback that is not refused. -/
structure Callback where
  status : Reported
  provider : Utf16 := []
  tokensUsed : Option Int := none
  resultSummary : Utf16 := []
  runUrl : Utf16 := []
  deriving DecidableEq

def given (text : Utf16) : Option Utf16 := if text.isEmpty then none else some text

/-- `handleInternalStatus`: the `UPDATE` of a callback. -/
def Row.report (row : Row) (callback : Callback) (now : Nat) : Row :=
  { row with
    status := callback.status.status
    provider := (given callback.provider).or row.provider
    tokensUsed := callback.tokensUsed.or row.tokensUsed
    resultSummary := ((given callback.resultSummary).map (List.take 2000)).or row.resultSummary
    runUrl := (given callback.runUrl).or row.runUrl
    startedAt := if callback.status = .running then some now else row.startedAt
    finishedAt := if callback.status = .running then row.finishedAt else some now }

/-- `REASON_DISPATCHED` and `REASON_RUNNING` -/
@[irreducible] def reasonOf (status : Status) : Utf16 :=
  if status = .dispatched then
    ofString "The task was sent to GitHub Actions but did not report back in 25 minutes. " ++
    ofString "Probable causes: the callback was rejected because the token in the repo " ++
    ofString "secrets does not match the Worker, the workflow did not start, or the run " ++
    ofString "failed before it reported. Fix: open Settings and run Repair runner callbacks, " ++
    ofString "check the spawn-subagent runs on the Actions tab, then use Retry."
  else
    ofString "The task started but did not finish in 25 minutes. Probable causes: the run " ++
    ofString "reached its 10 minute limit, or the final callback was rejected. Fix: read the " ++
    ofString "run log on the Actions tab, run Repair runner callbacks in Settings, then use Retry."

/-- `reapStuckTasks`: the `UPDATE` of one status. -/
def Row.reap (row : Row) (status : Status) (now : Nat) : Row :=
  if row.status = status ∧ row.since < now - stuckAfter then
    { row with
      status := .failed
      finishedAt := some now
      resultSummary := some (reasonOf status) }
  else row

/-- `handleRetryTask`: a failed task, or a stuck one. -/
def Row.retryable (row : Row) (now : Nat) : Bool :=
  row.status = .failed ||
    ((row.status = .dispatched || row.status = .running) && row.since < now - stuckAfter)

/-- `handleRetryTask`: its `UPDATE`. -/
def Row.retry (row : Row) : Row :=
  { row with
    status := .queued
    startedAt := none
    finishedAt := none
    resultSummary := none
    runUrl := none
    provider := none
    tokensUsed := none
    dispatchedAt := none
    retryCount := row.retryCount + 1 }

/-- `handleCancelTask`: its `UPDATE`. -/
def Row.cancel (row : Row) (now : Nat) : Row :=
  { row with
    status := .failed
    finishedAt := some now
    resultSummary := some (ofString "Cancelled by the owner before dispatch.") }

/-- `dispatchQueuedTasks`: its `UPDATE`. -/
def Row.markDispatched (row : Row) (now : Nat) : Row :=
  { row with
    status := .dispatched
    dispatchedAt := some now }

/-! ## Requests -/

/-- Who wrote the row. -/
inductive Cause where
  /-- A callback of the run of an attempt. -/
  | callback (attempt : Nat)
  | reaper | retry | cancel | dispatcher
  deriving DecidableEq

inductive Entry where
  /-- GitHub took a dispatch of the attempt. -/
  | dispatched (attempt : Nat)
  | wrote (cause : Cause) (before after : Row)
  deriving DecidableEq

/-- The row, and what happened to it, the last first. -/
structure Table where
  row : Row
  log : List Entry := []
  /-- GitHub took a dispatch that no `UPDATE` has recorded. -/
  inFlight : Bool := false

def Table.write (table : Table) (cause : Cause) (row : Row) : Table :=
  { table with row, log := .wrote cause table.row row :: table.log }

/-- What the call of GitHub comes to. -/
inductive Answer where
  | taken
  /-- GitHub took the dispatch, and the call failed. -/
  | lost
  | refused
  deriving DecidableEq, Repr

/-- Where a request is. -/
inductive Request where
  | idle
  /-- The reaper is between its two statements. -/
  | reaping (now : Nat)
  /-- The cancel read a queued row. -/
  | cancelling
  /-- The retry read a row that it may retry. -/
  | retrying
  /-- The tick picked the row. -/
  | picked
  /-- The tick's dispatch was taken. -/
  | sent
  | done
  deriving DecidableEq

inductive Event where
  | handleInternalStatus (attempt : Nat) (callback : Callback) (now : Nat)
  | reapStuckTasks (now : Nat)
  | handleCancelTask
  | handleRetryTask (now : Nat)
  | dispatchQueuedTasks
  /-- The next statement of the request. -/
  | statement (now : Nat)
  /-- The tick calls GitHub. -/
  | dispatch (answer : Answer)
  /-- The request fails or is stopped. -/
  | stop
  deriving DecidableEq

/-- One statement of a request. -/
def step (table : Table) : Request → Event → Option (Table × Request)
  | .idle, .handleInternalStatus attempt callback now =>
      -- only a run that was dispatched reports
      if .dispatched attempt ∈ table.log then
        some (table.write (.callback attempt) (table.row.report callback now), .done)
      else none
  | .idle, .reapStuckTasks now =>
      some (table.write .reaper (table.row.reap .dispatched now), .reaping now)
  | .reaping now, .statement _ =>
      some (table.write .reaper (table.row.reap .running now), .done)
  | .idle, .handleCancelTask =>
      some (table, if table.row.status = .queued then .cancelling else .done)
  | .cancelling, .statement now => some (table.write .cancel (table.row.cancel now), .done)
  | .idle, .handleRetryTask now =>
      some (table, if table.row.retryable now then .retrying else .done)
  | .retrying, .statement _ => some (table.write .retry table.row.retry, .done)
  | .idle, .dispatchQueuedTasks =>
      some (table, if table.row.status = .queued then .picked else .done)
  | .picked, .dispatch answer =>
      if answer = .refused then some (table, .done)
      else some ({ table with
          log := .dispatched table.row.retryCount :: table.log
          inFlight := true }, if answer = .taken then .sent else .done)
  | .sent, .statement now =>
      some ({ table.write .dispatcher (table.row.markDispatched now) with inFlight := false },
        .done)
  | _, .stop => some (table, .done)
  | _, _ => none

def program : Program Table Request Event where
  idle := .idle
  step := step

/-- The runs of one task that was just queued, with any number of requests. -/
def system (Id : Type) [DecidableEq Id] : System (Pool Id Table Request) (Id × Event) :=
  program.system Id fun table => ∃ now, table = { row := { queuedAt := now } }

/-! ## Statuses over a run -/

/-- Only a retry leaves a terminal status, and the callback of a superseded attempt changes
nothing. -/
structure Entry.Proper (cause : Cause) (before after : Row) : Prop where
  terminal : before.status.isTerminal = true → cause ≠ .retry → after.status = before.status
  superseded : ∀ attempt, cause = .callback attempt → attempt ≠ before.retryCount → after = before

def Proper (log : List Entry) : Prop :=
  ∀ cause before after, .wrote cause before after ∈ log → Entry.Proper cause before after

/-- The side condition of a statement.  A callback is of the current attempt, and the row has not
ended, or as it reports.  A cancel does not find the row done, and a tick that records its
dispatch does not find it ended. -/
def Timely (table : Table) : Request → Event → Prop
  | .idle, .handleInternalStatus attempt callback _ => attempt = table.row.retryCount ∧
      (table.row.status.isTerminal = false ∨ table.row.status = callback.status.status)
  | .cancelling, .statement _ => table.row.status ≠ .done
  | .sent, .statement _ => table.row.status.isTerminal = false
  | _, _ => True

instance (table : Table) (request : Request) (event : Event) :
    Decidable (Timely table request event) := by
  unfold Timely
  split <;> infer_instance

variable {table after : Table} {request request' : Request} {event : Event} {row : Row}

theorem reap_of_terminal {status : Status} {now : Nat} (ended : row.status.isTerminal = true)
    (going : status.isTerminal = false) : row.reap status now = row := by
  unfold Row.reap
  rw [if_neg]
  intro ⟨same, _⟩
  rw [same, going] at ended
  contradiction

theorem Proper.write {cause : Cause} (proper : Proper table.log)
    (entry : Entry.Proper cause table.row row) : Proper (table.write cause row).log := by
  intro cause' before after listed
  cases listed with
  | head => exact entry
  | tail _ listed => exact proper cause' before after listed

theorem Proper.reap {status : Status} {now : Nat} (proper : Proper table.log)
    (going : status.isTerminal = false) :
    Proper (table.write .reaper (table.row.reap status now)).log := by
  apply proper.write
  constructor
  · intro ended _
    rw [reap_of_terminal ended going]
  · exact fun _ is => by contradiction

/-- Step lemma. -/
theorem Proper.step (proper : Proper table.log) (timely : Timely table request event)
    (took : Tasks.step table request event = some (after, request')) : Proper after.log := by
  unfold Tasks.step at took
  split at took
  next attempt callback now =>
    split at took
    next =>
      cases took
      have ⟨current, going⟩ := timely
      apply proper.write
      constructor
      · intro ended _
        cases going with
        | inl going => rw [ended] at going; contradiction
        | inr same => exact same.symm
      · intro attempt' is other
        cases is
        exact absurd current other
    next => contradiction
  next =>
    cases took
    exact proper.reap rfl
  next =>
    cases took
    exact proper.reap rfl
  next =>
    cases took
    exact proper
  next =>
    cases took
    apply proper.write
    constructor
    · intro ended _
      -- short of done, the terminal status is the one that the cancel writes
      cases is : table.row.status with
      | failed => rfl
      | done => exact absurd is timely
      | _ => rw [is] at ended; contradiction
    · exact fun _ is => by contradiction
  next =>
    cases took
    exact proper
  next =>
    cases took
    apply proper.write
    exact ⟨fun _ other => absurd rfl other, fun _ is => by contradiction⟩
  next =>
    cases took
    exact proper
  next answer =>
    split at took
    next =>
      cases took
      exact proper
    next =>
      cases took
      intro cause before after listed
      cases listed with
      | tail _ listed => exact proper cause before after listed
  next now =>
    cases took
    apply proper.write
    constructor
    · intro ended _
      have going : table.row.status.isTerminal = false := timely
      rw [going] at ended
      contradiction
    · exact fun _ is => by contradiction
  next =>
    cases took
    exact proper
  next => contradiction

/-- In every run whose statements are all timely, a terminal status is left by retries alone, and
no superseded attempt changes the task. -/
theorem status_proper (Id : Type) [DecidableEq Id] (pool : Pool Id Table Request)
    (reached : Reachable (system Id) (Program.onStatement Timely) pool) :
    Proper pool.shared.log := by
  apply reached.invariant fun pool : Pool Id Table Request => Proper pool.shared.log
  · intro pool ⟨⟨now, started⟩, _⟩
    rw [started]
    exact fun _ _ _ listed => by contradiction
  · intro pool label after _ proper timely stepped
    have ⟨table, request, took, same⟩ := Program.exists_step stepped
    subst same
    exact proper.step timely took

/-- The pool in which a task was just queued. -/
def begun : Pool Nat Table Request := ⟨{ row := { queuedAt := 0 } }, fun _ => .idle⟩

/-- A tick dispatches and records. -/
def dispatches (id : Nat) : List (Nat × Event) :=
  [(id, .dispatchQueuedTasks), (id, .dispatch .taken), (id, .statement 1)]

/-- Dispatched, failed, retried, dispatched again and done. -/
theorem status_proper_retried :
    ∃ pool : Pool Nat Table Request, pool.shared.row.status = .done ∧
      pool.shared.row.retryCount = 1 ∧ Proper pool.shared.log := by
  let labels := dispatches 0 ++ [(1, .handleInternalStatus 0 { status := .failed } 2),
    (2, .handleRetryTask 3), (2, .statement 3)] ++ dispatches 3 ++
    [(4, .handleInternalStatus 1 { status := .done } 4)]
  have ends : ((system Nat).exec (Program.onStatement Timely) begun labels).map
      (fun pool => (pool.shared.row.status, pool.shared.row.retryCount)) = some (.done, 1) := by
    decide
  have ⟨pool, ran, is⟩ := Option.map_eq_some_iff.1 ends
  have ⟨ended, attempt⟩ := Prod.mk.inj is
  exact ⟨pool, ended, attempt,
    status_proper Nat pool (.of_exec (.start ⟨⟨0, rfl⟩, fun _ => rfl⟩) ran)⟩

/-- The run of the first attempt reports twice after the retry: the task is done without having
been dispatched again, and then runs. -/
theorem not_status_proper : ¬ ∀ pool : Pool Nat Table Request,
    Reachable (system Nat) always pool → Proper pool.shared.log := by
  intro claimed
  let labels := dispatches 0 ++ [(1, .handleInternalStatus 0 { status := .failed } 2),
    (2, .handleRetryTask 3), (2, .statement 3),
    (3, .handleInternalStatus 0 { status := .done } 4),
    (4, .handleInternalStatus 0 { status := .running } 5)]
  have broken : ((system Nat).exec always begun labels).map (fun pool =>
      pool.shared.log.any fun
        | .wrote (.callback 0) before after => before.retryCount == 1 &&
            before.status == .done && after.status == .running
        | _ => false) = some true := by
    decide
  have ⟨pool, ran, is⟩ := Option.map_eq_some_iff.1 broken
  have proper := claimed pool (.of_exec (.start ⟨⟨0, rfl⟩, fun _ => rfl⟩) ran)
  have ⟨entry, listed, bad⟩ := List.any_eq_true.1 is
  cases entry with
  | dispatched => contradiction
  | wrote cause before after =>
    cases cause with
    | callback attempt =>
      cases attempt with
      | zero =>
        simp only [Bool.and_eq_true, beq_iff_eq] at bad
        have kept := (proper _ _ _ listed).terminal (bad.1.2 ▸ rfl) (by decide)
        rw [bad.1.2, bad.2] at kept
        contradiction
      | succ => contradiction
    | _ => contradiction

end Tasks

end TitanRunner
