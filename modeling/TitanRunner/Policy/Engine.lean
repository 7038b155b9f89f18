import TitanRunner.Policy.SafetyRules
import TitanRunner.Task.Schema

/-!
# The policy engine

`policy/engine.js`: one decision for every side effect the engine is about to cause, from
the control file, the task's own settings, what people have approved, and the safety
rules.
-/

namespace TitanRunner

namespace Policy

def autonomyName : Autonomy → String
  | .dryRun => "dry-run"
  | .propose => "propose"
  | .approval => "approval"
  | .autonomous => "autonomous"

/-- The place of a level in `AUTONOMY_LEVELS`. -/
def rank : Autonomy → Nat
  | .dryRun => 0
  | .propose => 1
  | .approval => 2
  | .autonomous => 3

/-- The control file, as far as the policy reads it.  A level that is not of the table is
`none`. -/
structure Control where
  killSwitch : Bool := false
  safeMode : Bool := false
  autonomy : Option Autonomy := none
  deriving DecidableEq, Repr

/-- The task, as far as the policy reads it. -/
structure PolicyTask where
  autonomy : Option Autonomy := none
  approvals : List (String × Approval) := []
  deriving DecidableEq, Repr

/-- `effectiveAutonomy`. -/
def effectiveAutonomy (control : Control) (task : PolicyTask) : Autonomy :=
  let fromControl := control.autonomy.getD .autonomous
  let fromTask := task.autonomy.getD .autonomous
  if rank fromTask < rank fromControl then fromTask else fromControl

section Key

-- Eight hexadecimal digits of the SHA-1 of the arguments, written as JSON.
variable (digest : Json → String)

/-- `approvalKeyFor`. -/
def approvalKeyFor (action : Action) : String :=
  match action.kind with
  | .tool =>
      "tool:" ++ action.toolId.getD "undefined" ++ ":" ++ digest (action.args.getD (.object []))
  | .deliver => "deliver:" ++ action.runId.getD "run"
  | .selfImprove => "self-improve:" ++ action.runId.getD "run"
  | .other name => name ++ ":" ++ action.toolId.getD "action"

end Key

inductive Decision where
  | deny | approve | allow
  deriving DecidableEq, Repr

/-- From refusing over asking to allowing. -/
def Decision.permissiveness : Decision → Nat
  | .deny => 0
  | .approve => 1
  | .allow => 2

inductive Source where
  | level | denial | approval | safeMode | killSwitch | safetyRules
  deriving DecidableEq, Repr

/-- What `decide` returns. -/
structure Ruling where
  decision : Decision
  reason : String
  approvalKey : String
  autonomy : Autonomy
  source : Source
  category : Category
  rule : Rule
  deriving DecidableEq, Repr

/-- The effect an action is taken to have; an unknown one counts as external. -/
def Action.effect' (action : Action) : Effect := action.effect.getD .external

/-- `effect.replace('_', ' ')`. -/
def Effect.phrase : Effect → String
  | .read => "read"
  | .localWrite => "local write"
  | .external => "external"

/-- `task?.approvals?.[key]`. -/
def PolicyTask.exact (task : PolicyTask) (key : String) : Option Approval :=
  (KeyedList.get Prod.fst task.approvals key).map Prod.snd

/-- The recorded human decision on an effect, or the one on all of them. -/
def PolicyTask.recorded (task : PolicyTask) (key : String) : Option Approval :=
  task.exact key <|> task.exact "all"

/-- The approval that can clear an effect: of a hard-ask category only the one for its
key. -/
def PolicyTask.clearing (task : PolicyTask) (key : String) (hard : Bool) : Option Approval :=
  if hard then task.exact key else task.recorded key

def isDecision (decision : ApprovalDecision) (approval : Option Approval) : Bool :=
  approval.any fun approval => decide (approval.decision = decision)

section Decide

variable (digest : Json → String)

/-- `decide`. -/
def decide (action : Action) (control : Control) (task : PolicyTask) (rules : SafetyRules) :
    Ruling :=
  let autonomy := effectiveAutonomy control task
  let key := approvalKeyFor digest action
  let effect := action.effect'
  let verdict := evaluateRules action rules
  let out (decision : Decision) (reason : String) (source : Source) : Ruling :=
    { decision, reason, approvalKey := key, autonomy, source
      category := verdict.category, rule := verdict.rule }
  let recorded := task.recorded key
  let approval := task.clearing key verdict.hard
  let by' := fun approval : Option Approval => (approval.map Approval.by').getD "an authorized user"
  if control.killSwitch then out .deny "the kill switch is on" .killSwitch
  else if isDecision .denied recorded then out .deny ("denied by " ++ by' recorded) .denial
  else if effect = .read then out .allow "a read has no side effect" .level
  else if autonomy = .dryRun then
    let scope := if effect = .external then "external" else "local"
    out .deny ("autonomy is dry-run: no " ++ scope ++ " side effects") .level
  else if control.safeMode ∧ effect = .external then
    out .deny "safe mode is on: no external side effects" .safeMode
  else if isDecision .approved approval then out .allow ("approved by " ++ by' approval) .approval
  else if verdict.ask then
    out .approve ("safety rules: " ++ verdict.reason ++ "; needs /titan approve " ++ key) .safetyRules
  else if autonomy = .approval then
    out .approve ("autonomy is approval: every " ++ effect.phrase ++ " needs /titan approve " ++ key)
      .level
  else if autonomy = .propose ∧ effect = .external then
    out .approve ("autonomy is propose: an external effect needs /titan approve " ++ key) .level
  else out .allow ("autonomy is " ++ autonomyName autonomy) .level

end Decide

/-! ## The decision as a function of what it reads -/

/-- What is left to the autonomy dial. -/
def dial (autonomy : Autonomy) (effect : Effect) : Decision :=
  if autonomy = .approval then .approve
  else if autonomy = .propose ∧ effect = .external then .approve
  else .allow

/-- The order in which a decision is reached. -/
def settle (killSwitch denied : Bool) (effect : Effect) (autonomy : Autonomy)
    (safeMode approved ask : Bool) : Decision :=
  if killSwitch then .deny
  else if denied then .deny
  else if effect = .read then .allow
  else if autonomy = .dryRun then .deny
  else if safeMode ∧ effect = .external then .deny
  else if approved then .allow
  else if ask then .approve
  else dial autonomy effect

section Settle

variable {digest : Json → String} {action : Action} {control : Control} {task : PolicyTask}
  {rules : SafetyRules}

theorem decide_decision : (decide digest action control task rules).decision =
    settle control.killSwitch (isDecision .denied (task.recorded (approvalKeyFor digest action)))
      action.effect' (effectiveAutonomy control task) control.safeMode
      (isDecision .approved (task.clearing (approvalKeyFor digest action)
        (evaluateRules action rules).hard))
      (evaluateRules action rules).ask := by
  simp only [decide, settle, dial, apply_ite Ruling.decision]

variable {killSwitch denied safeMode approved ask ask' : Bool} {effect : Effect}
  {autonomy autonomy' : Autonomy}

/-- Asking in more cases permits no more. -/
theorem settle_le_of_ask (asks : ask' = true → ask = true) :
    (settle killSwitch denied effect autonomy safeMode approved ask).permissiveness ≤
      (settle killSwitch denied effect autonomy safeMode approved ask').permissiveness := by
  cases ask' with
  | true => rw [asks rfl]
  | false =>
      cases ask with
      | false => exact le_refl _
      | true =>
          simp only [settle]
          split_ifs <;> first | exact le_refl _ | skip
          next =>
            simp only [dial]
            split_ifs <;> decide

/-- An effect that the rules ask about is allowed only with an approval. -/
theorem settle_allow (asks : ask = true) (real : effect ≠ .read)
    (allowed : settle killSwitch denied effect autonomy safeMode approved ask = .allow) :
    approved = true := by
  cases approved with
  | true => rfl
  | false =>
      exfalso
      revert allowed
      simp only [settle, real, asks, Bool.false_eq_true, if_false, if_true]
      split_ifs <;> intro allowed <;> cases allowed

/-- The dial permits no more at a lower level, with one exception: `propose` lets a local
write happen that waits at `approval`. -/
theorem dial_le_iff (lower : rank autonomy ≤ rank autonomy') (acts : autonomy ≠ .dryRun)
    (real : effect ≠ .read) :
    (dial autonomy effect).permissiveness ≤ (dial autonomy' effect).permissiveness ↔
      ¬ (autonomy' = .approval ∧ autonomy = .propose ∧ effect = .localWrite) := by
  revert lower
  cases autonomy <;> cases autonomy' <;> cases effect <;> simp_all <;> decide

theorem settle_le_iff (lower : rank autonomy ≤ rank autonomy') :
    (settle killSwitch denied effect autonomy safeMode approved ask).permissiveness ≤
        (settle killSwitch denied effect autonomy' safeMode approved ask).permissiveness ↔
      ¬ ((autonomy' = .approval ∧ autonomy = .propose ∧ effect = .localWrite) ∧
        killSwitch = false ∧ denied = false ∧ approved = false ∧ ask = false) := by
  cases killSwitch with
  | true => simp [settle]
  | false =>
      cases denied with
      | true => simp [settle]
      | false =>
          by_cases real : effect = .read
          · simp [settle, real]
          · by_cases acts : autonomy = .dryRun
            · simp [settle, real, acts, Decision.permissiveness]
            · have acts' : autonomy' ≠ .dryRun := by
                intro dry
                rw [dry] at lower
                apply acts
                cases autonomy <;> simp [rank] at lower ⊢
              by_cases safe : safeMode = true ∧ effect = .external
              · simp [settle, acts, acts', safe]
              · cases approved with
                | true => simp [settle, real, acts, acts', safe]
                | false =>
                    cases ask with
                    | true => simp [settle, real, acts, acts', safe]
                    | false =>
                        have dialled := dial_le_iff lower acts real
                        simpa [settle, real, acts, acts', safe] using dialled

end Settle

/-! ## A task's own level -/

/-- Neither the kill switch nor a recorded decision nor the safety rules settle the
action, so that the dial does. -/
structure LeftToDial (digest : Json → String) (action : Action) (control : Control)
    (approvals : List (String × Approval)) (rules : SafetyRules) : Prop where
  alive : control.killSwitch = false
  undenied : isDecision .denied
    (PolicyTask.recorded { approvals } (approvalKeyFor digest action)) = false
  unapproved : isDecision .approved (PolicyTask.clearing { approvals } (approvalKeyFor digest action)
    (evaluateRules action rules).hard) = false
  unasked : (evaluateRules action rules).ask = false

theorem effectiveAutonomy_le (control : Control) (task : PolicyTask) :
    rank (effectiveAutonomy control task) ≤ rank (control.autonomy.getD .autonomous) := by
  simp only [effectiveAutonomy]
  split
  next lower => exact lower.le
  next => exact le_refl _

theorem effectiveAutonomy_of_none (control : Control) (approvals : List (String × Approval)) :
    effectiveAutonomy control { approvals } = control.autonomy.getD .autonomous := by
  simp only [effectiveAutonomy, Option.getD_none, ite_eq_right_iff]
  intro lower
  cases level : control.autonomy.getD .autonomous <;> simp [level, rank] at lower

/-- Setting a task's own level makes no decision more permissive, except that `propose`
under the repository's `approval` lets a local write happen that nothing but the dial
decides. -/
theorem task_level_tightens_iff (digest : Json → String) (action : Action) (control : Control)
    (approvals : List (String × Approval)) (rules : SafetyRules) (level : Option Autonomy) :
    (decide digest action control { autonomy := level, approvals } rules).decision.permissiveness ≤
        (decide digest action control { approvals } rules).decision.permissiveness ↔
      ¬ (control.autonomy = some .approval ∧ level = some .propose ∧ action.effect' = .localWrite ∧
        LeftToDial digest action control approvals rules) := by
  let task : PolicyTask := { autonomy := level, approvals }
  have levels : (control.autonomy.getD .autonomous = .approval ∧
      effectiveAutonomy control task = .propose) ↔
        control.autonomy = some .approval ∧ level = some .propose := by
    constructor
    · intro ⟨repo, effective⟩
      have repoLevel : control.autonomy = some .approval := by
        cases set : control.autonomy with
        | none => simp [set] at repo
        | some _ => simpa [set] using repo
      refine ⟨repoLevel, ?_⟩
      cases level with
      | none => simp [task, effectiveAutonomy, repoLevel, rank] at effective
      | some own => cases own <;> simp_all [task, effectiveAutonomy, rank]
    · intro ⟨repo, own⟩
      simp [task, effectiveAutonomy, repo, own, rank]
  rw [decide_decision, decide_decision, effectiveAutonomy_of_none]
  refine (settle_le_iff (effectiveAutonomy_le control task)).trans (not_congr ?_)
  constructor
  · intro ⟨⟨repo, effective, writes⟩, alive, undenied, unapproved, unasked⟩
    have ⟨repoLevel, own⟩ := levels.1 ⟨repo, effective⟩
    exact ⟨repoLevel, own, writes, alive, undenied, unapproved, unasked⟩
  · intro ⟨repoLevel, own, writes, left⟩
    have ⟨repo, effective⟩ := levels.2 ⟨repoLevel, own⟩
    exact ⟨⟨repo, effective, writes⟩, left.alive, left.undenied, left.unapproved, left.unasked⟩

/-- A write to the task's own workspace. -/
def workspaceWrite : Action where
  kind := .tool
  toolId := some "workspace_write"
  effect := some .localWrite

/-- Under `approval` the write waits for a human; the task's own `propose` lets it happen. -/
theorem not_task_level_tightens : ¬ ∀ (digest : Json → String) (action : Action)
    (control : Control) (approvals : List (String × Approval)) (rules : SafetyRules)
    (level : Option Autonomy),
    (decide digest action control { autonomy := level, approvals } rules).decision.permissiveness ≤
      (decide digest action control { approvals } rules).decision.permissiveness := by
  intro tightens
  have loosened := tightens (fun _ => "") workspaceWrite { autonomy := some .approval } []
    defaultSafetyRules (some .propose)
  revert loosened
  decide

/-! ## The hard floor -/

/-- Under every rules file: a hard-ask category still asks, so that no action is both hard
and not to be asked about; an action of a hard-ask category that is no read is allowed only
with the approval of its own key; and the file permits no more than the built-in rules. -/
theorem hard_floor (digest : Json → String) (parseJsonString : String → Option String)
    (messageOf : RulesError → String) (file : RulesFile) (action : Action) (control : Control)
    (task : PolicyTask) :
    let rules := loadSafetyRules parseJsonString messageOf file
    let verdict := evaluateRules action rules
    let floor := evaluateRules action defaultSafetyRules
    let ruling := decide digest action control task rules
    (verdict.hard = true ∧ verdict.ask = false → ruling.decision ≠ .allow) ∧
      (verdict.hard = true ∧ action.effect' ≠ .read → ruling.decision = .allow →
        isDecision .approved (task.exact (approvalKeyFor digest action)) = true) ∧
      verdict.hard = floor.hard ∧ (floor.ask = true → verdict.ask = true) ∧
      ruling.decision.permissiveness ≤
        (decide digest action control task defaultSafetyRules).decision.permissiveness := by
  intro rules verdict floor ruling
  have asks := evaluateRules_ask_of_default action rules
  refine ⟨?_, ?_, ?_, asks, ?_⟩
  · intro ⟨hard, unasked⟩
    have hardAction : hardAsk.contains (classifyAction action) = true :=
      (evaluateRules_hard action rules).symm.trans hard
    rw [evaluateRules_of_hard action rules hardAction] at unasked
    contradiction
  · intro ⟨hard, acts⟩ allowed
    have hardAction : hardAsk.contains (classifyAction action) = true :=
      (evaluateRules_hard action rules).symm.trans hard
    have asked := evaluateRules_of_hard action rules hardAction
    have isHard : (evaluateRules action rules).hard = true := hard
    have settled := decide_decision.symm.trans allowed
    rw [isHard] at settled
    exact settle_allow asked acts settled
  · exact (evaluateRules_hard action rules).trans (evaluateRules_hard action _).symm
  · rw [decide_decision, decide_decision, evaluateRules_hard, evaluateRules_hard]
    exact settle_le_of_ask asks

end Policy

end TitanRunner
