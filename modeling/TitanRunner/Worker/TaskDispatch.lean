import TitanRunner.Worker.Tasks

/-!
# Dispatched once

A task is dispatched at most once for each time it is queued, and never after a cancel, in every
run in which no statement comes between a dispatch and the `UPDATE` that records it.
-/

namespace TitanRunner

namespace Tasks

open TransitionSystem System Interleaving

/-- What may not come after an earlier entry, for the same queueing: a dispatch after a dispatch,
and after a cancel a dispatch or the record of one. -/
def Conflicts : Entry → Entry → Prop
  | .dispatched attempt, .dispatched earlier => attempt = earlier
  | .dispatched attempt, .wrote .cancel cancelled _ => attempt = cancelled.retryCount
  | .wrote .dispatcher row _, .wrote .cancel cancelled _ => row.retryCount = cancelled.retryCount
  | _, _ => False

instance (later earlier : Entry) : Decidable (Conflicts later earlier) := by
  unfold Conflicts
  split <;> infer_instance

/-- At most one dispatch for each queueing, and none that overtakes a cancel. -/
def DispatchedOnce (log : List Entry) : Prop :=
  log.Pairwise fun later earlier => ¬ Conflicts later earlier

instance (log : List Entry) : Decidable (DispatchedOnce log) :=
  inferInstanceAs (Decidable (log.Pairwise fun later earlier => ¬ Conflicts later earlier))

/-- The side condition of a statement.  A dispatch that GitHub takes finds the row queued, with no
dispatch unrecorded, and its answer arrives; its `UPDATE` does not fail; a cancel's `UPDATE`
finds no dispatch unrecorded. -/
def Recorded (table : Table) : Request → Event → Prop
  | .picked, .dispatch answer => answer = .refused ∨
      answer = .taken ∧ table.row.status = .queued ∧ table.inFlight = false
  | .sent, .stop => False
  | .cancelling, .statement _ => table.inFlight = false
  | _, _ => True

instance (table : Table) (request : Request) (event : Event) :
    Decidable (Recorded table request event) :=
  match request with
  | .picked =>
      match event with
      | .dispatch answer => inferInstanceAs (Decidable (answer = .refused ∨
          answer = .taken ∧ table.row.status = .queued ∧ table.inFlight = false))
      | .handleInternalStatus .. | .reapStuckTasks _ | .handleCancelTask | .handleRetryTask _
      | .dispatchQueuedTasks | .statement _ | .stop => inferInstanceAs (Decidable True)
  | .sent =>
      match event with
      | .stop => inferInstanceAs (Decidable False)
      | .handleInternalStatus .. | .reapStuckTasks _ | .handleCancelTask | .handleRetryTask _
      | .dispatchQueuedTasks | .statement _ | .dispatch _ => inferInstanceAs (Decidable True)
  | .cancelling =>
      match event with
      | .statement _ => inferInstanceAs (Decidable (table.inFlight = false))
      | .handleInternalStatus .. | .reapStuckTasks _ | .handleCancelTask | .handleRetryTask _
      | .dispatchQueuedTasks | .dispatch _ | .stop => inferInstanceAs (Decidable True)
  | .idle | .reaping _ | .retrying | .done => inferInstanceAs (Decidable True)

/-- What the table says of the dispatches so far. -/
structure Tracked (table : Table) : Prop where
  proper : DispatchedOnce table.log
  dispatched : ∀ attempt, .dispatched attempt ∈ table.log → attempt ≤ table.row.retryCount
  wrote : ∀ cause before after, .wrote cause before after ∈ table.log →
    before.retryCount ≤ table.row.retryCount
  /-- A dispatched row is no longer queued once the dispatch is recorded. -/
  current : .dispatched table.row.retryCount ∈ table.log →
    table.row.status ≠ .queued ∨ table.inFlight = true
  cancelled : ∀ before after, .wrote .cancel before after ∈ table.log →
    before.retryCount = table.row.retryCount →
      table.row.status ≠ .queued ∧ table.inFlight = false

/-- A tick that sent knows that its dispatch is the unrecorded one. -/
def Sends (table : Table) : Request → Prop
  | .sent => table.inFlight = true
  | _ => True

/-- No two ticks are between a dispatch and its record. -/
def Alone (request other : Request) : Prop := ¬ (request = .sent ∧ other = .sent)

variable {table after : Table} {request request' other : Request} {event : Event} {row : Row}
  {cause : Cause}

/-- An entry that is neither a dispatch nor its record. -/
def Entry.isQuiet : Entry → Bool
  | .dispatched _ | .wrote .dispatcher _ _ => false
  | _ => true

theorem not_conflicts_of_quiet {later earlier : Entry} (quiet : later.isQuiet = true) :
    ¬ Conflicts later earlier := by
  intro conflicts
  cases later with
  | dispatched => contradiction
  | wrote cause before after =>
    cases cause with
    | dispatcher => contradiction
    | _ => cases earlier <;> contradiction

/-- A statement writes the row and queues nothing that was not queued. -/
theorem Tracked.write (tracked : Tracked table) (quiet : cause ≠ .dispatcher)
    (attempt : row.retryCount = table.row.retryCount)
    (queued : row.status = .queued → table.row.status = .queued)
    (free : cause = .cancel → row.status ≠ .queued ∧ table.inFlight = false) :
    Tracked (table.write cause row) := by
  constructor
  · apply List.pairwise_cons.2
    refine ⟨fun earlier _ => not_conflicts_of_quiet ?_, tracked.proper⟩
    cases cause with
    | dispatcher => exact absurd rfl quiet
    | _ => rfl
  · intro attempt' listed
    cases listed with
    | tail _ listed =>
      have least := tracked.dispatched attempt' listed
      exact attempt ▸ least
  · intro cause' before after listed
    cases listed with
    | head => exact Nat.le_of_eq attempt.symm
    | tail _ listed =>
      have least := tracked.wrote cause' before after listed
      exact attempt ▸ least
  · intro listed
    cases listed with
    | tail _ listed =>
      have current := tracked.current (attempt ▸ listed)
      exact current.imp_left (mt queued)
  · intro before after listed same
    cases listed with
    | head => exact free rfl
    | tail _ listed =>
      have cancelled := tracked.cancelled before after listed (same.trans attempt)
      exact ⟨mt queued cancelled.1, cancelled.2⟩

theorem status_reap {status : Status} {now : Nat}
    (queued : (row.reap status now).status = .queued) :
    row.status = .queued := by
  unfold Row.reap at queued
  split at queued
  next => contradiction
  next => exact queued

theorem retryCount_reap (row : Row) (status : Status) (now : Nat) :
    (row.reap status now).retryCount = row.retryCount := by
  unfold Row.reap
  split <;> rfl

theorem Tracked.retry (tracked : Tracked table) :
    Tracked (table.write .retry table.row.retry) := by
  have more : table.row.retry.retryCount = table.row.retryCount + 1 := rfl
  constructor
  · exact List.pairwise_cons.2 ⟨fun _ _ => not_conflicts_of_quiet rfl, tracked.proper⟩
  · intro attempt listed
    cases listed with
    | tail _ listed => exact Nat.le_succ_of_le (tracked.dispatched attempt listed)
  · intro cause before after listed
    cases listed with
    | head => exact Nat.le_succ _
    | tail _ listed => exact Nat.le_succ_of_le (tracked.wrote cause before after listed)
  · intro listed
    cases listed with
    | tail _ listed => exact absurd (tracked.dispatched _ listed) (Nat.not_succ_le_self _)
  · intro before after listed same
    cases listed with
    | tail _ listed =>
      have less := tracked.wrote .cancel before after listed
      exact absurd (same ▸ less) (Nat.not_succ_le_self _)

/-- GitHub takes the first dispatch of a queueing that was not cancelled. -/
theorem Tracked.send (tracked : Tracked table) (queued : table.row.status = .queued)
    (free : table.inFlight = false) :
    Tracked { table with
      log := .dispatched table.row.retryCount :: table.log
      inFlight := true } := by
  have first : .dispatched table.row.retryCount ∉ table.log := by
    intro listed
    cases tracked.current listed with
    | inl left => exact left queued
    | inr sent => exact Bool.false_ne_true (free.symm.trans sent)
  constructor
  · refine List.pairwise_cons.2 ⟨?_, tracked.proper⟩
    intro earlier listed conflicts
    cases earlier with
    | dispatched attempt => exact first (conflicts ▸ listed)
    | wrote cause before after =>
      cases cause with
      | cancel => exact (tracked.cancelled before after listed conflicts.symm).1 queued
      | _ => exact conflicts
  · intro attempt listed
    cases listed with
    | head => exact Nat.le_refl _
    | tail _ listed => exact tracked.dispatched attempt listed
  · intro cause before after listed
    cases listed with
    | tail _ listed => exact tracked.wrote cause before after listed
  · exact fun _ => .inr rfl
  · intro before after listed same
    cases listed with
    | tail _ listed => exact absurd queued (tracked.cancelled before after listed same).1

/-- The dispatch is recorded. -/
theorem Tracked.record (tracked : Tracked table) (sent : table.inFlight = true) (now : Nat) :
    Tracked { table.write .dispatcher (table.row.markDispatched now) with inFlight := false } := by
  constructor
  · refine List.pairwise_cons.2 ⟨?_, tracked.proper⟩
    intro earlier listed conflicts
    cases earlier with
    | dispatched => exact conflicts
    | wrote cause before after =>
      cases cause with
      | cancel =>
        have free := (tracked.cancelled before after listed conflicts.symm).2
        exact Bool.false_ne_true (free.symm.trans sent)
      | _ => exact conflicts
  · intro attempt listed
    cases listed with
    | tail _ listed => exact tracked.dispatched attempt listed
  · intro cause before after listed
    cases listed with
    | head => exact Nat.le_refl _
    | tail _ listed => exact tracked.wrote cause before after listed
  · intro _
    have dispatched : Status.dispatched ≠ .queued := by decide
    exact .inl dispatched
  · intro before after listed same
    have dispatched : Status.dispatched ≠ .queued := by decide
    exact ⟨dispatched, rfl⟩

/-- A statement keeps the invariant, and what its own request and the others know. -/
structure Keeps (table : Table) (request : Request) (after : Table) (request' : Request) :
    Prop where
  tracked : Tracked after
  own : Sends after request'
  others : ∀ other, Sends table other → Alone request other →
    Sends after other ∧ Alone request' other

theorem alone_of_ne (free : request ≠ .sent) : Alone request other :=
  fun both => free both.1

/-- A statement that leaves the dispatches alone. -/
theorem Keeps.of_tracked (tracked : Tracked after) (same : after.inFlight = table.inFlight)
    (free : request' ≠ .sent) : Keeps table request after request' := by
  refine ⟨tracked, ?_, ?_⟩
  · cases request' with
    | sent => exact absurd rfl free
    | _ => trivial
  · intro other sends _
    refine ⟨?_, alone_of_ne free⟩
    cases other with
    | sent => exact same.trans sends
    | _ => trivial

/-- Step lemma. -/
theorem Keeps.of_step (tracked : Tracked table) (sends : Sends table request)
    (recorded : Recorded table request event)
    (took : step table request event = some (after, request')) :
    Keeps table request after request' := by
  unfold step at took
  split at took
  next attempt callback now =>
    split at took
    next =>
      cases took
      refine .of_tracked (tracked.write nofun rfl ?_ nofun) rfl (by decide)
      intro queued
      cases is : callback.status <;> rw [Row.report, is] at queued <;> contradiction
    next => contradiction
  next now =>
    cases took
    exact .of_tracked (tracked.write (by decide) (retryCount_reap _ _ _) status_reap
      nofun) rfl (by simp)
  next now =>
    cases took
    exact .of_tracked (tracked.write (by decide) (retryCount_reap _ _ _) status_reap
      nofun) rfl (by decide)
  next =>
    cases took
    refine .of_tracked tracked rfl ?_
    split <;> decide
  next now =>
    cases took
    have failed : Status.failed ≠ .queued := by decide
    exact .of_tracked (tracked.write (by decide) rfl (fun queued => absurd queued failed)
      (fun _ => ⟨failed, recorded⟩)) rfl (by decide)
  next =>
    cases took
    refine .of_tracked tracked rfl ?_
    split <;> decide
  next =>
    cases took
    exact .of_tracked tracked.retry rfl (by decide)
  next =>
    cases took
    refine .of_tracked tracked rfl ?_
    split <;> decide
  next answer =>
    split at took
    next =>
      cases took
      exact .of_tracked tracked rfl (by decide)
    next sent =>
      cases took
      have ⟨taken, queued, free⟩ := Or.resolve_left recorded sent
      refine ⟨tracked.send queued free, ?_, ?_⟩
      · rw [if_pos taken]
        rfl
      · intro other sends _
        cases other with
        | sent => exact absurd (free.symm.trans sends) Bool.false_ne_true
        | _ => exact ⟨trivial, fun both => by have := both.2; contradiction⟩
  next now =>
    cases took
    refine ⟨tracked.record sends now, trivial, ?_⟩
    intro other _ alone
    refine ⟨?_, alone_of_ne (by decide)⟩
    cases other with
    | sent => exact absurd ⟨rfl, rfl⟩ alone
    | _ => trivial
  next =>
    cases took
    exact .of_tracked tracked rfl (by decide)
  next => contradiction

theorem respects : program.Respects Recorded Tracked Sends Alone where
  symm alone both := alone both.symm
  guarantee tracked sends recorded took := by
    have keeps := Keeps.of_step tracked sends recorded took
    exact ⟨keeps.tracked, keeps.own⟩
  rely tracked sends other alone recorded took :=
    (Keeps.of_step tracked sends recorded took).others _ other alone

theorem tracked_start (now : Nat) : Tracked { row := { queuedAt := now } } := by
  constructor
  · exact List.Pairwise.nil
  all_goals
    intros
    contradiction

/-- In every run in which no statement comes between a dispatch and its record, a task is
dispatched at most once for each time it is queued, and a cancel is not overtaken. -/
theorem dispatched_once (Id : Type) [DecidableEq Id] (pool : Pool Id Table Request)
    (reached : Reachable (system Id) (Program.onStatement Recorded) pool) :
    DispatchedOnce pool.shared.log := by
  have known := Program.Respects.reachable respects
    (fun table ⟨now, started⟩ => ⟨started ▸ tracked_start now, trivial⟩)
    (fun both => by have := both.1; contradiction) reached
  exact known.shared.proper

/-- Refused, dispatched by the next tick, failed, retried, and cancelled. -/
theorem dispatched_once_cancelled :
    ∃ pool : Pool Nat Table Request, .dispatched 0 ∈ pool.shared.log ∧
      pool.shared.row.status = .failed ∧ pool.shared.row.retryCount = 1 ∧
      DispatchedOnce pool.shared.log := by
  let labels := [(9, .dispatchQueuedTasks), (9, .dispatch .refused)] ++ dispatches 0 ++
    [(1, .handleInternalStatus 0 { status := .failed } 2),
      (2, .handleRetryTask 3), (2, .statement 3), (4, .handleCancelTask), (4, .statement 4)]
  have ends : ((system Nat).exec (Program.onStatement Recorded) begun labels).map (fun pool =>
      (decide (.dispatched 0 ∈ pool.shared.log), pool.shared.row.status,
        pool.shared.row.retryCount)) = some (true, .failed, 1) := by
    decide
  have ⟨pool, ran, is⟩ := Option.map_eq_some_iff.1 ends
  simp only [Prod.mk.injEq, decide_eq_true_eq] at is
  exact ⟨pool, is.1, is.2.1, is.2.2,
    dispatched_once Nat pool (.of_exec (.start ⟨⟨0, rfl⟩, fun _ => rfl⟩) ran)⟩

/-- A tick read the queued row, the cancel is answered, and the tick dispatches the task. -/
theorem not_dispatched_once : ¬ ∀ pool : Pool Nat Table Request,
    Reachable (system Nat) always pool → DispatchedOnce pool.shared.log := by
  intro claimed
  let labels : List (Nat × Event) := [(0, .dispatchQueuedTasks), (1, .handleCancelTask),
    (1, .statement 1), (0, .dispatch .taken), (0, .statement 2)]
  have ends : ((system Nat).exec always begun labels).map (fun pool =>
      decide (DispatchedOnce pool.shared.log)) = some false := by
    decide
  have ⟨pool, ran, is⟩ := Option.map_eq_some_iff.1 ends
  exact of_decide_eq_false is (claimed pool (.of_exec (.start ⟨⟨0, rfl⟩, fun _ => rfl⟩) ran))

end Tasks

end TitanRunner
