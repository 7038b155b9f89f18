import TitanRunner.Engine.Claim
import TitanRunner.Engine.SelfImprove
import TitanRunner.Lib.IsoDate
import TitanRunner.Orchestrator.Graph
import TitanRunner.Policy.Engine
import TitanRunner.Task.Actions

/-!
# One task, from its claim to where the pulse leaves it

`processTaskInner` of `engine/pulse.js` with the turn of `claimAndRun` around it: what is
done to the record, for whatever the reviewer, the orchestration, the policy and GitHub
answer.
-/

namespace TitanRunner

namespace RunTask

/-- `error` of a failed step. -/
structure StepError where
  class' : Option String := none
  code : Option String := none
  message : Option String := none
  deriving DecidableEq, Repr

structure FailedStep where
  id : String
  error : Option StepError
  deriving DecidableEq, Repr

/-- The wait reason a park becomes. -/
def waitReason : Orchestrator.ParkReason → WaitReason
  | .approval => .approval
  | .quota => .quota
  | .provider => .provider

/-- `parked` of a run. -/
structure Parked where
  reason : Orchestrator.ParkReason
  wakeInMs : Option Int
  why : String
  failureClass : Option String := none
  code : Option String := none
  approvalKey : Option String := none
  deriving DecidableEq, Repr

/-- What `runOrchestration` returns, as far as the engine reads it. -/
structure Result where
  ok : Bool := false
  drained : Bool := false
  parked : Option Parked := none
  failedVerification : Bool := false
  verificationReason : Option String := none
  verificationRound : Option Nat := none
  unjudged : Bool := false
  failedStep : Option FailedStep := none
  deriving DecidableEq, Repr

/-- What the code around the run of one task answers. -/
structure Answers where
  pulse : SelfImprove.Pulse
  runId : String
  pulseMaxCalls : Nat
  maxParks : Nat
  usage : Usage
  /-- `overBudget()`, before the run. -/
  overBefore : Option String
  /-- The reason of a gate that blocks. -/
  gate : Option (Option String)
  /-- An error is what `runOrchestration` threw. -/
  orchestrated : Except String Result
  /-- `overBudget()`, of a run that was drained. -/
  overAfter : Option String
  pulseCallsSpent : Bool
  delivery : Policy.Ruling
  /-- `none` if the ledger holds the proposal already. -/
  proposal : Option SelfImprove.Outcome

section Endings

variable (answers : Answers)

def context (reason : String) (error : Option String) (failure : Option Failure) :
    TransitionContext where
  now := answers.pulse.now
  reason := some reason
  error := error.map some
  failure := failure.map some

def failureOf (class' : String) (code : Option String) (message : String) : Failure where
  class'
  code
  message
  at' := answers.pulse.now

/-- `persist`, and the assignment that ends most branches. -/
def recordUsage : Action := .write (.usage answers.usage)

/-- `deadLetter`.  `reason` is the code in lower case with blanks. -/
def deadLetter (code reason class' message : String) : List Action :=
  [.move .deadLettered (context answers reason (some message)
    (some (failureOf answers class' (some code) message))), recordUsage answers]

/-- A wait until the next pulse. -/
def wait (reason : String) (waitReason : WaitReason) : Action :=
  .move .waiting { context answers reason none none with
    waitReason := some waitReason, wakeAt := some answers.pulse.now }

/-- `askApproval`. -/
def askApproval (key : String) : Action := wait answers ("waiting for approval of " ++ key) .approval

/-- A run that was stopped between two steps. -/
def drained (task : Task) : List Action :=
  if task.cancelRequested then
    [.write (.cancelRequested false),
      .move .cancelled (context answers "cancel command honoured at a step boundary"
        (some "Cancelled by an authorized command.") none)]
  else if task.pauseRequested then
    [.write (.pauseRequested false),
      wait answers "pause command honoured at a step boundary" .budget,
      .move .paused (context answers "paused by an authorized command" none none)]
  else
    match answers.overAfter with
    | some spent =>
        deadLetter answers "TASK_BUDGET" "task budget" "budget_exhausted"
          ("Dead-lettered: " ++ spent ++ ".")
    | none =>
        let reason :=
          if answers.pulseCallsSpent then
            "pulse model-call ceiling (" ++ toString answers.pulseMaxCalls ++
              ") reached; checkpoint retained"
          else "pulse budget exhausted; checkpoint retained"
        [recordUsage answers, wait answers reason .pulseBudget]

/-- The class a park for a reason is filed under. -/
def parkClass (reason : Orchestrator.ParkReason) : String :=
  if reason = .quota then "budget_exhausted" else "provider_down"

/-- When a parked task is to wake. -/
def wakeTime (parked : Parked) : Time :=
  answers.pulse.now + max 1000 (parked.wakeInMs.getD 0)

/-- The provider side is the problem.  A wake time that no date can hold is an exception. -/
def park (task : Task) (parked : Parked) : List Action :=
  let parks := task.parks + 1
  .write (.parks parks) ::
    if answers.maxParks < parks then
      deadLetter answers "PARK_CEILING" "park ceiling" (parkClass parked.reason)
        ("Dead-lettered: parked " ++ toString parks ++ " times waiting on " ++
          (waitReason parked.reason).name ++ " (" ++ parked.why ++ ").")
    else
      let wakeAt := wakeTime answers parked
      recordUsage answers ::
        if IsoDate.isTimeValue wakeAt then
          [.move .waiting {
            context answers ("parked on " ++ (waitReason parked.reason).name ++ " (" ++
                parked.why ++ "); wakes at " ++ IsoDate.toISOString wakeAt) none
              (some (failureOf answers (parked.failureClass.getD (parkClass parked.reason))
                parked.code parked.why)) with
            waitReason := some (waitReason parked.reason), wakeAt := some wakeAt }]
        else []

/-- What a run that did not succeed is reported for. -/
def failureMessage (result : Result) : String :=
  if result.failedVerification then
    "Verification failed: " ++ result.verificationReason.getD "unknown"
  else
    ((result.failedStep.bind FailedStep.error).bind StepError.message).getD
      "one or more steps failed"

/-- A run that did not succeed. -/
def fail (result : Result) (reason : String) : Action :=
  let error := result.failedStep.bind FailedStep.error
  let class' :=
    if result.failedVerification then "permanent"
    else (error.bind StepError.class').getD "permanent"
  let code :=
    if result.failedVerification then "VERIFICATION_FAILED"
    else (error.bind StepError.code).getD "STEP_FAILED"
  let message := failureMessage result
  .move .failed (context answers reason (some message)
    (some (failureOf answers class' (some code) message)))

/-- The policy refuses the delivery. -/
def suppressed (task : Task) (result : Result) : List Action :=
  let reason := answers.delivery.reason
  let ending :=
    if answers.delivery.source = .denial then
      .move .cancelled (context answers ("delivery " ++ reason)
        (some ("Cancelled: delivery " ++ reason ++ "."))
        (some (failureOf answers "cancelled" (some "DELIVERY_DENIED") reason)))
    else if task.type = .selfImprove then
      .move .blocked (context answers ("pull request not opened: " ++ reason)
        (some ("Not delivered: " ++ reason ++ "."))
        (some (failureOf answers "policy_blocked" (some "DELIVERY_SUPPRESSED") reason)))
    else if result.ok then
      .move .complete (context answers ("complete; delivery suppressed (" ++ reason ++ ")") none
        none)
    else fail answers result ("failed; delivery suppressed (" ++ reason ++ ")")
  [ending, recordUsage answers]

/-- The self-improve branch. -/
def propose (task : Task) : List Action :=
  let final := answers.proposal.getD (SelfImprove.recorded task)
  if final.status = .prOpen then
    [.write (.pullRequest (final.prNumber <|> task.prNumber) (final.prUrl <|> task.prUrl)),
      .move .prOpen (context answers "draft PR opened" none none), recordUsage answers]
  else [.move .failed (SelfImprove.refusal answers.pulse final), recordUsage answers]

/-- The result goes to the issue. -/
def report (result : Result) : List Action :=
  if result.ok then
    let reason :=
      if result.unjudged then "all steps complete; verified by checks (unjudged)"
      else "all steps complete and verified"
    [.move .complete (context answers reason none none), recordUsage answers]
  else
    match result.failedStep.bind FailedStep.error with
    | some { class' := some "poisoned", message, .. } =>
        deadLetter answers "NO_PROGRESS" "no progress" "poisoned"
          ("Dead-lettered: " ++ message.getD "undefined")
    | _ =>
        if result.failedVerification then
          [fail answers result ("verification failed after " ++
            toString (result.verificationRound.getD 0) ++ " remediation(s)"), recordUsage answers]
        else [fail answers result "a step failed", recordUsage answers]

/-- What follows a run that was not stopped. -/
def deliver (task : Task) (result : Result) : List Action :=
  match answers.delivery.decision with
  | .approve => [recordUsage answers, askApproval answers answers.delivery.approvalKey]
  | .deny => suppressed answers task result
  | .allow =>
      recordUsage answers ::
        if task.type = .selfImprove then propose answers task else report answers result

/-- `processTaskInner`. -/
def processTaskInner (task : Task) : List Action :=
  .write (.runId answers.runId) ::
    match answers.overBefore with
    | some spent =>
        deadLetter answers "TASK_BUDGET" "task budget" "budget_exhausted"
          ("Dead-lettered: " ++ spent ++ ".")
    | none =>
        match answers.gate with
        | some reason =>
            let error := reason.getD "Blocked by the Reviewer Gate."
            [recordUsage answers,
              .move .blocked (context answers "reviewer gate" (some error)
                (some (failureOf answers "policy_blocked" (some "GATE_BLOCK") error))),
              recordUsage answers]
        | none =>
            match answers.orchestrated with
            | .error thrown =>
                let message := answers.pulse.redactString thrown
                [recordUsage answers,
                  .move .failed (context answers "internal error" (some message)
                    (some (failureOf answers "permanent" (some "INTERNAL") message))),
                  recordUsage answers]
            | .ok result =>
                if result.drained then drained answers task
                else
                  match result.parked with
                  | some parked =>
                      if parked.reason = .approval then
                        [recordUsage answers,
                          askApproval answers (parked.approvalKey.getD "null")]
                      else park answers task parked
                  | none => deliver answers task result

end Endings

/-- A turn of the loop of `claimAndRun`, for the record at a place of the queue. -/
structure Turn where
  index : Nat
  /-- The lease could be acquired. -/
  granted : Bool
  lease : Lease
  now : Time
  score : String
  pulseId : String
  answers : Answers
  /-- How many of the run's writes are made before the pulse dies, if it does. -/
  lasts : Nat

def Turn.claim (turn : Turn) : List Action := [
  .write (.claim turn.lease turn.now),
  .move .running {
    now := turn.now
    reason := some ("claimed (priority " ++ turn.score ++ ")")
    by' := some turn.pulseId }]

def Turn.actions (turn : Turn) (byId : List Task) (task : Task) : List Action :=
  match Claim.dependencyState task byId with
  | .missing => [.move .deadLettered (Claim.skipContext turn.now task .missing)]
  | .waiting => [.move .waiting (Claim.skipContext turn.now task .waiting)]
  | .failed => [.move .deadLettered (Claim.skipContext turn.now task .failed)]
  | .ready =>
      if turn.granted = false then []
      else
        turn.claim ++
          (processTaskInner turn.answers (Action.applyAll task turn.claim)).take turn.lasts

/-- `claimAndRun`: the turns in the order of the scores.  A later turn sees what the earlier
ones left. -/
def claimAndRun (tasks : List Task) : List Turn → Except TransitionError (List Task)
  | [] => .ok tasks
  | turn :: rest =>
      match tasks[turn.index]? with
      | none => claimAndRun tasks rest
      | some task =>
          match Action.performAll task (turn.actions tasks task) with
          | .error error => .error error
          | .ok moved => claimAndRun (tasks.set turn.index moved) rest

/-- The turns the loop may take: each is for a record that was pending when the loop began,
and none comes twice. -/
def Captured (tasks : List Task) (turns : List Turn) : Prop :=
  (turns.map Turn.index).Nodup ∧
    ∀ turn ∈ turns, (tasks[turn.index]?.map Task.status) = some .pending

instance (tasks : List Task) (turns : List Turn) : Decidable (Captured tasks turns) :=
  inferInstanceAs (Decidable (_ ∧ _))

/-- `status` of `checkSelfImprovePrStatus`, as far as the engine acts on it. -/
inductive PullStatus where
  | closedFailed | merged | other
  deriving DecidableEq, Repr

/-- `revisitSelfImprovePr`. -/
def revisitSelfImprovePr (now : Time) : PullStatus → List Action
  | .closedFailed =>
      let error := "CI failed on the self-improve PR; it has been closed."
      [.move .failed {
        now
        reason := some "self-improve PR failed CI"
        error := some (some error)
        failure := some (some {
          class' := "permanent", code := some "PR_CI_FAILED", message := error, at' := now }) }]
  | .merged => [.move .complete { now, reason := some "self-improve PR merged" }]
  | .other => []

/-! ## The moves are allowed -/

section Allowed

variable (answers : Answers)

theorem deadLetter_allowed (code reason class' message : String) :
    Action.AllowedFrom .running (deadLetter answers code reason class' message) :=
  ⟨⟨by decide, fun waiting => by contradiction⟩, trivial⟩

theorem drained_allowed (task : Task) : Action.AllowedFrom .running (drained answers task) := by
  unfold drained
  split
  next => exact ⟨⟨by decide, fun waiting => by contradiction⟩, trivial⟩
  next =>
    split
    next =>
      exact ⟨⟨by decide, fun _ => by simp⟩, ⟨by decide, fun waiting => by contradiction⟩, trivial⟩
    next =>
      split
      next => exact deadLetter_allowed answers _ _ _ _
      next => exact ⟨⟨by decide, fun _ => by simp⟩, trivial⟩

theorem park_allowed (task : Task) (parked : Parked) :
    Action.AllowedFrom .running (park answers task parked) := by
  unfold park
  dsimp only
  split
  next => exact deadLetter_allowed answers _ _ _ _
  next =>
    split
    next => exact ⟨⟨by decide, fun _ => by simp⟩, trivial⟩
    next => trivial

theorem suppressed_allowed (task : Task) (result : Result) :
    Action.AllowedFrom .running (suppressed answers task result) := by
  unfold suppressed
  dsimp only
  split
  next => exact ⟨⟨by decide, fun waiting => by contradiction⟩, trivial⟩
  next =>
    split
    next => exact ⟨⟨by decide, fun waiting => by contradiction⟩, trivial⟩
    next => split <;> exact ⟨⟨by decide, fun waiting => by contradiction⟩, trivial⟩

theorem propose_allowed (task : Task) : Action.AllowedFrom .running (propose answers task) := by
  unfold propose
  dsimp only
  split <;> exact ⟨⟨by decide, fun waiting => by contradiction⟩, trivial⟩

theorem report_allowed (result : Result) :
    Action.AllowedFrom .running (report answers result) := by
  unfold report
  split
  next => exact ⟨⟨by decide, fun waiting => by contradiction⟩, trivial⟩
  next =>
    split
    next => exact deadLetter_allowed answers _ _ _ _
    next => split <;> exact ⟨⟨by decide, fun waiting => by contradiction⟩, trivial⟩

theorem deliver_allowed (task : Task) (result : Result) :
    Action.AllowedFrom .running (deliver answers task result) := by
  unfold deliver
  split
  next => exact ⟨⟨by decide, fun _ => by simp⟩, trivial⟩
  next => exact suppressed_allowed answers task result
  next =>
    split
    next => exact propose_allowed answers task
    next => exact report_allowed answers result

/-- The run of a task that is `running` asks for no move that `TRANSITIONS` forbids. -/
theorem processTaskInner_allowed (task : Task) :
    Action.AllowedFrom .running (processTaskInner answers task) := by
  unfold processTaskInner
  split
  next => exact deadLetter_allowed answers _ _ _ _
  next =>
    split
    next => exact ⟨⟨by decide, fun waiting => by contradiction⟩, trivial⟩
    next =>
      split
      next => exact ⟨⟨by decide, fun waiting => by contradiction⟩, trivial⟩
      next result _ =>
        split
        next => exact drained_allowed answers task
        next =>
          split
          next parked _ =>
            split
            next => exact ⟨⟨by decide, fun _ => by simp⟩, trivial⟩
            next => exact park_allowed answers task parked
          next => exact deliver_allowed answers task result

end Allowed

/-- The action waits for nothing but a budget or an approval, and counts no park. -/
def OnItsOwn : Action → Prop
  | .move .waiting ctx => ctx.waitReason = some .budget ∨ ctx.waitReason = some .pulseBudget ∨
      ctx.waitReason = some .approval
  | .write (.parks _) => False
  | _ => True

section OnItsOwn

variable {answers : Answers} {task : Task} {result : Result}

theorem drained_onItsOwn : ∀ action ∈ drained answers task, OnItsOwn action := by
  unfold drained
  split
  next => simp [OnItsOwn]
  next =>
    split
    next => simp [wait, OnItsOwn]
    next =>
      split
      next => simp [deadLetter, recordUsage, OnItsOwn]
      next => simp [recordUsage, wait, OnItsOwn]

theorem deliver_onItsOwn : ∀ action ∈ deliver answers task result, OnItsOwn action := by
  unfold deliver
  split
  next => simp [recordUsage, askApproval, wait, OnItsOwn]
  next =>
    unfold suppressed fail
    dsimp only
    split
    next => simp [recordUsage, OnItsOwn]
    next =>
      split
      next => simp [recordUsage, OnItsOwn]
      next => split <;> simp [recordUsage, OnItsOwn]
  next =>
    split
    next =>
      unfold propose
      dsimp only
      split <;> simp [recordUsage, OnItsOwn]
    next =>
      unfold report fail
      split
      next => simp [recordUsage, OnItsOwn]
      next =>
        split
        next => simp [deadLetter, recordUsage, OnItsOwn]
        next => split <;> simp [recordUsage, OnItsOwn]

end OnItsOwn

/-- A turn for a pending record asks for no forbidden move. -/
theorem Turn.actions_allowed (turn : Turn) (byId : List Task) {task : Task}
    (pending : task.status = .pending) :
    Action.AllowedAll task (turn.actions byId task) := by
  rw [Action.allowedAll_iff, pending]
  unfold Turn.actions
  split
  next => exact ⟨⟨by decide, fun waiting => by contradiction⟩, trivial⟩
  next => exact ⟨⟨by decide, fun _ => by simp [Claim.skipContext]⟩, trivial⟩
  next => exact ⟨⟨by decide, fun waiting => by contradiction⟩, trivial⟩
  next =>
    split
    next => trivial
    next =>
      exact ⟨⟨by decide, fun waiting => by contradiction⟩,
        (processTaskInner_allowed turn.answers _).take _⟩

theorem revisitSelfImprovePr_allowed (now : Time) (outcome : PullStatus) :
    Action.AllowedFrom .prOpen (revisitSelfImprovePr now outcome) := by
  cases outcome with
  | closedFailed => exact ⟨⟨by decide, fun waiting => by contradiction⟩, trivial⟩
  | merged => exact ⟨⟨by decide, fun waiting => by contradiction⟩, trivial⟩
  | other => trivial

end RunTask

end TitanRunner
