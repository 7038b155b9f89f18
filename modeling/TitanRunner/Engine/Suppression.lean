import Mathlib.Tactic.SplitIfs
import TitanRunner.Engine.SideEffects
import TitanRunner.Lib.Transition

/-!
# Side effects that policy suppresses

The operations of `SideEffectLedger` over the pulses of one run of a task.  Dry-run autonomy
and safe mode suppress the effects of a pulse; a later pulse of the same run may work under a
looser policy.
-/

namespace TitanRunner

namespace Suppression

open SideEffects TransitionSystem System

/-! ## The ledger at work -/

structure SideEffectLedger where
  ledger : Ledger
  forceRemoteCheck : Bool
  /-- The reason, when every effect is held back. -/
  suppressed : Option String
  skipped : Nat := 0
  fired : Nat := 0
  deriving DecidableEq, Repr

inductive Request where
  | comment (issueNumber : Option Nat) (key body : String)
  | closeIssue (issueNumber : Option Nat) (key : String)
  | once (key : String)
  deriving DecidableEq, Repr

def Request.key : Request → String
  | .comment _ key _ | .closeIssue _ key | .once key => key

/-- `!issueNumber`. -/
def Request.isIdle : Request → Bool
  | .comment issueNumber _ _ | .closeIssue issueNumber _ => (issueNumber.getD 0) == 0
  | .once _ => false

/-- How far a request gets before the effect is fired. -/
inductive Step where
  | noop | skippedLedger | suppressed | skippedRemote | fire
  deriving DecidableEq, Repr

/-- `comment`, `closeIssue` and `once` up to the effect itself. -/
def SideEffectLedger.step (effects : SideEffectLedger) (listed : List String) :
    Request → Step
  | .comment issueNumber key body =>
      if (Request.comment issueNumber key body).isIdle then .noop
      else
        match commentStep effects.ledger effects.forceRemoteCheck effects.suppressed.isSome listed
            key with
        | .skippedLedger => .skippedLedger
        | .suppressed => .suppressed
        | .skippedRemote => .skippedRemote
        | .post => .fire
  | .closeIssue issueNumber key =>
      if (Request.closeIssue issueNumber key).isIdle then .noop
      else if effects.ledger.has key then .skippedLedger
      else if effects.suppressed.isSome then .suppressed
      else .fire
  | .once key =>
      if effects.ledger.has key then .skippedLedger
      else if effects.suppressed.isSome then .suppressed
      else .fire

def SideEffectLedger.skip (effects : SideEffectLedger) : SideEffectLedger :=
  { effects with skipped := effects.skipped + 1 }

/-- `#record`. -/
def SideEffectLedger.record (effects : SideEffectLedger) (key : String) (at' : Time) :
    SideEffectLedger :=
  { effects with ledger := effects.ledger.record key at' }

/-! ## The pulses of one run -/

/-- The run's checkpoint on disk, the pulse at work, and the comments of the issue; as a record
the keys that were suppressed, those whose effect fired, and those that did so although they had
been suppressed. -/
structure World where
  saved : Option Ledger
  effects : Option SideEffectLedger
  comments : List String
  suppressed : List String
  fired : List String
  late : List String
  deriving DecidableEq, Repr

/-- How an effect that is fired ends. -/
inductive Ending where
  | recorded
  /-- The request throws. -/
  | refused
  /-- The process dies between the effect and its record. -/
  | lost
  deriving DecidableEq, Repr

inductive Label where
  /-- A pulse takes the run up, under a policy. -/
  | enter (suppressed : Option String)
  /-- `answered`: the listing of the issue's comments is. -/
  | request (request : Request) (answered : Bool) (ending : Ending) (at' : Time)
  /-- The checkpoint is written on another occasion. -/
  | persist
  /-- Somebody else comments on the issue. -/
  | comment (body : String)
  | die
  deriving DecidableEq, Repr

/-- `onRecord` writes the checkpoint. -/
def World.write (world : World) (effects : SideEffectLedger) : World :=
  { world with saved := some effects.ledger, effects := some effects }

/-- The effect of a request is there. -/
def World.fire (world : World) (request : Request) : World :=
  { world with
    comments := match request with
      | .comment _ key body => world.comments ++ [commentBody body key]
      | .closeIssue _ _ | .once _ => world.comments
    fired := world.fired ++ [request.key]
    late := if request.key ∈ world.suppressed then world.late ++ [request.key] else world.late }

/-- A request of the pulse at work. -/
def World.answer (world : World) (effects : SideEffectLedger) (request : Request)
    (answered : Bool) (ending : Ending) (at' : Time) : World :=
  match effects.step (listIssueComments answered world.comments) request with
  | .noop => world
  | .skippedLedger => { world with effects := some effects.skip }
  | .suppressed =>
      { world with
        effects := some effects.skip
        suppressed := world.suppressed ++ [request.key] }
  | .skippedRemote => world.write (effects.skip.record request.key at')
  | .fire =>
      match ending with
      | .recorded =>
          (world.fire request).write
            { effects.record request.key at' with fired := effects.fired + 1 }
      | .refused => world
      | .lost => { world.fire request with effects := none }

def World.next (world : World) : Label → Option World
  | .enter suppressed =>
      if world.effects.isSome then none
      else
        some { world with
          effects := some {
            ledger := world.saved.getD [], forceRemoteCheck := world.saved.isSome, suppressed } }
  | .request request answered ending at' =>
      world.effects.map fun effects => world.answer effects request answered ending at'
  | .persist => world.effects.map world.write
  | .comment body => some { world with comments := world.comments ++ [body] }
  | .die => world.effects.map fun _ => { world with effects := none }

def World.empty : World where
  saved := none
  effects := none
  comments := []
  suppressed := []
  fired := []
  late := []

/-- A run, from its first pulse on. -/
def system : System World Label where
  start := fun world => world = World.empty
  next := World.next

/-! ## What is suppressed stays suppressed, or not -/

/-- The ledger holds the key. -/
def World.onRecord (world : World) (key : String) : Bool :=
  match world.effects with
  | some effects => effects.ledger.has key
  | none => (world.saved.getD []).has key

/-- What was suppressed is on record, and was not fired since. -/
def StaysSuppressed (world : World) : Prop :=
  ∀ key ∈ world.suppressed, world.onRecord key = true ∧ key ∉ world.late

/-- Nothing is suppressed: under a strict policy a request is made only for a key on record, or
without an issue. -/
def HoldsNothingBack (world : World) : Label → Prop
  | .request request _ _ _ => ∀ effects ∈ world.effects, effects.suppressed.isSome = true →
      request.isIdle = true ∨ effects.ledger.has request.key = true
  | .enter _ | .persist | .comment _ | .die => True

section Step

variable {effects : SideEffectLedger} {listed : List String} {request : Request}

/-- GitHub is asked, and shows the marker of the request. -/
def SideEffectLedger.seesRemotely (effects : SideEffectLedger) (listed : List String) :
    Request → Bool
  | .comment _ key _ =>
      (!effects.ledger.isEmpty || effects.forceRemoteCheck) && remoteHas listed key
  | .closeIssue _ _ | .once _ => false

/-- The three operations make the same tests, in the same order. -/
theorem step_eq (effects : SideEffectLedger) (listed : List String) (request : Request) :
    effects.step listed request =
      if request.isIdle = true then .noop
      else if effects.ledger.has request.key = true then .skippedLedger
      else if effects.suppressed.isSome = true then .suppressed
      else if effects.seesRemotely listed request = true then .skippedRemote
      else .fire := by
  cases request with
  | comment issueNumber key body =>
      simp only [SideEffectLedger.step, SideEffectLedger.seesRemotely, commentStep, Request.key]
      split
      next => rfl
      next => split_ifs <;> simp [*]
  | closeIssue issueNumber key => rfl
  | once key => rfl

/-- A request is suppressed exactly when the policy is strict, there is something to do and the
key is not on record. -/
theorem step_suppressed_iff :
    effects.step listed request = .suppressed ↔
      effects.suppressed.isSome = true ∧ request.isIdle = false ∧
        effects.ledger.has request.key = false := by
  rw [step_eq]
  split_ifs <;> simp_all

end Step

/-- A suppressed request leaves its key off the record. -/
theorem not_staysSuppressed_of_suppressed {world : World} {effects : SideEffectLedger}
    {request : Request} {answered : Bool} (ending : Ending) (at' : Time)
    (held : effects.step (listIssueComments answered world.comments) request = .suppressed) :
    ¬ StaysSuppressed (world.answer effects request answered ending at') := by
  intro stays
  have ⟨_, _, unknown⟩ := step_suppressed_iff.1 held
  simp only [World.answer, held] at stays
  have ⟨known, _⟩ := stays request.key (List.mem_append_right _ List.mem_cons_self)
  have known' : effects.ledger.has request.key = true := known
  rw [unknown] at known'
  contradiction

/-- No step but a suppressed request adds a suppressed key. -/
theorem suppressed_next {world after : World} {label : Label}
    (nothing : HoldsNothingBack world label) (stepped : world.next label = some after) :
    after.suppressed = world.suppressed := by
  cases label with
  | enter suppressed =>
      simp only [World.next] at stepped
      split at stepped
      next => contradiction
      next => cases stepped; rfl
  | request request answered ending at' =>
      have ⟨effects, working, same⟩ := Option.map_eq_some_iff.1 stepped
      subst same
      have allowed := nothing effects working
      simp only [World.answer]
      split
      next => rfl
      next => rfl
      next held =>
        have ⟨strict, busy, unknown⟩ := step_suppressed_iff.1 held
        cases allowed strict with
        | inl idle => rw [busy] at idle; contradiction
        | inr known => rw [unknown] at known; contradiction
      next => rfl
      next => cases ending <;> rfl
  | persist =>
      have ⟨effects, working, same⟩ := Option.map_eq_some_iff.1 stepped
      subst same
      rfl
  | comment body => cases stepped; rfl
  | die =>
      have ⟨effects, working, same⟩ := Option.map_eq_some_iff.1 stepped
      subst same
      rfl

/-- The law holds in every state of the runs in which nothing is suppressed, and every step that
suppresses something breaks it. -/
theorem staysSuppressed_exactly (world : World) :
    (system.Reachable HoldsNothingBack world → StaysSuppressed world) ∧
      ∀ label after, ¬ HoldsNothingBack world label → world.next label = some after →
        ¬ StaysSuppressed after := by
  constructor
  · intro reachable
    have none' : world.suppressed = [] := by
      apply reachable.invariant fun world => world.suppressed = []
      · intro start same
        subst same
        rfl
      · intro before label after _ none' nothing stepped
        exact (suppressed_next nothing stepped).trans none'
    intro key inside
    rw [none'] at inside
    contradiction
  · intro label after something stepped
    cases label with
    | enter | persist | comment | die => exact absurd trivial something
    | request request answered ending at' =>
        have ⟨effects, working, same⟩ := Option.map_eq_some_iff.1 stepped
        subst same
        apply not_staysSuppressed_of_suppressed
        apply step_suppressed_iff.2
        apply Classical.byContradiction
        intro missed
        apply something
        intro other there strict
        rw [Option.mem_def, working] at there
        cases there
        cases idle : request.isIdle with
        | true => exact .inl rfl
        | false =>
            cases known : effects.ledger.has request.key with
            | true => exact .inr rfl
            | false => exact (missed ⟨strict, idle, known⟩).elim

/-! ### A run -/

def askApproval : Request :=
  .comment (some 7) "approval:external-write" "TITAN-Runner needs an authorized user's approval."

/-- A pulse in dry-run autonomy suppresses a comment; the next one, under a looser policy, posts
it. -/
def loosenedRun : List Label := [
  .enter (some "autonomy is dry-run"), .request askApproval true .recorded 1, .persist, .die,
  .enter none, .request askApproval true .recorded 2]

theorem loosenedRun_runs :
    (system.exec always World.empty loosenedRun).any (fun world =>
      decide (world.suppressed = [askApproval.key]) &&
        decide (world.late = [askApproval.key])) = true := by
  decide

theorem not_staysSuppressed_of_loosenedRun : ¬ ∀ world,
    system.Reachable always world → StaysSuppressed world := by
  intro all
  have ⟨world, reached, ran⟩ := Reachable.exists_of_exec (.start rfl) loosenedRun_runs
  rw [Bool.and_eq_true, decide_eq_true_eq, decide_eq_true_eq] at ran
  have ⟨_, away⟩ := all world reached askApproval.key (ran.1 ▸ List.mem_cons_self)
  exact away (ran.2 ▸ List.mem_cons_self)

end Suppression

end TitanRunner
