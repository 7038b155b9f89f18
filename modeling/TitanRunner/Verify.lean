import TitanRunner.Lib.Regex
import TitanRunner.Orchestrator.Graph

/-!
# Verification of a finished run

`verify/judge.js`, `verify/verify.js`, and of `providers/registry.js` the rule which
providers a chat request may reach.  What the deterministic checks found and what the
judge answered is given.
-/

namespace TitanRunner

namespace Verify

open Orchestrator Utf16

/-! ## Providers -/

/-- `FAILOVER_ORDER`. -/
def failoverOrder : List Utf16 :=
  ["groq", "together", "openrouter", "gemini", "huggingface"].map ofString

/-- `CUSTOM_ORDER`. -/
def customOrder : List Utf16 := ["custom_1", "custom_2", "custom_3"].map ofString

/-- `ALL_CHAT_IDS`. -/
def allChatIds : List Utf16 := failoverOrder ++ customOrder

/-- The providers `Registry.chat` may reach: a request that names a provider reaches only
that one, any other goes to the gateway and then down the failover order. -/
def chatOrder (service : Utf16) : List Utf16 :=
  if service ∈ allChatIds then [service] else ofString "omniroute" :: allChatIds

/-- `POOL` of the registry's adapter. -/
def phase2 : Utf16 := ofString "phase2"

def phase2ModelId (provider : Utf16) : Utf16 := phase2 ++ ofString ":" ++ provider

/-- `stripPoolPrefix`. -/
def stripPoolPrefix (modelId : Utf16) : Utf16 :=
  ((phase2 ++ ofString ":").isPrefixOf? modelId).getD modelId

/-- The providers that may have given a candidate's answer.  The other pools are their own
providers. -/
def providersOf (candidate : Candidate) : List Utf16 :=
  if candidate.pool = phase2 then chatOrder (stripPoolPrefix candidate.modelId)
  else [candidate.pool]

/-- `#resolveCandidateModels`: the pools in their order; the registry's pool lists its five
providers, the others the models they found. -/
def resolveCandidateModels (freebuff opencode : List Utf16) : List Candidate :=
  (freebuff.map fun modelId => { modelId, pool := ofString "freebuff" }) ++
    (opencode.map fun modelId => { modelId, pool := ofString "opencode" }) ++
    ["groq", "openrouter", "together", "gemini", "huggingface"].map fun provider =>
      { modelId := phase2ModelId (ofString provider), pool := phase2 }

/-! ## The judge -/

inductive Verdict where
  | pass | fail
  deriving DecidableEq, Repr

structure Issue where
  step : Option StepId
  problem : Utf16
  deriving DecidableEq, Repr

structure Judgement where
  verdict : Option Verdict
  reason : Option Utf16
  provider : Utf16
  error : Option Utf16
  issues : List Issue
  deriving DecidableEq, Repr

/-- `/^[a-z0-9]+:/`. -/
def poolPrefix : Regex :=
  Regex.seqs [.start, Regex.atLeast (fun unit => isLower unit || isDigit unit) 1, Regex.text ":"]

/-- `modelId.replace(/^[a-z0-9]+:/, '')`. -/
def withoutPool (modelId : Utf16) : Utf16 := poolPrefix.replaceAll (fun _ => []) modelId

/-- The model ids recorded of a step: its attempts and its assignment. -/
def modelIdsOf (entry : Entry) : List Utf16 :=
  entry.attempts.map Attempt.modelId ++ (entry.assignment.map Candidate.modelId).toList

def usedProviders (entries : Entries) (alsoUsed : List (Option Utf16)) : List Utf16 :=
  ((alsoUsed.filterMap id ++ entries.flatMap modelIdsOf).filter fun modelId =>
    !modelId.isEmpty).map withoutPool

def pickJudgeProvider (entries : Entries) (candidates : List Utf16)
    (alsoUsed : List (Option Utf16)) : Option Utf16 :=
  let used := usedProviders entries alsoUsed
  candidates.find? fun provider => provider ∉ used

/-- How the chat request of the judge ended. -/
inductive Reply where
  | verdict (verdict : Verdict) (reason : Utf16) (issues : List Issue) (service : Option Utf16)
  | unreadable (service : Option Utf16)
  | threw (message : Utf16)
  deriving DecidableEq, Repr

def askJudge (provider : Utf16) : Reply → Judgement
  | .verdict verdict reason issues service =>
      { verdict := some verdict, reason := some reason, provider := service.getD provider
        error := none, issues }
  | .unreadable service =>
      { verdict := none, reason := none, provider := service.getD provider
        error := some (ofString
          "the judge did not answer with a \x7bverdict, reason, issues\x7d object")
        issues := [] }
  | .threw message =>
      { verdict := none, reason := none, provider, error := some (message.take 300), issues := [] }

/-! ## The verification of a run -/

inductive Severity where
  | fail | warn
  deriving DecidableEq, Repr

structure Check where
  id : Utf16
  ok : Bool
  severity : Severity
  detail : Utf16
  steps : List StepId
  deriving DecidableEq, Repr

structure JudgeOptions where
  enabled : Bool
  /-- `typeof judge.chat === 'function'`. -/
  hasChat : Bool
  candidates : List Utf16
  strict : Bool
  deriving DecidableEq, Repr

/-- What `verifyRun` resolves to. -/
structure Report where
  verdict : Verdict
  checks : List Check
  judge : Option Judgement
  issues : List Issue
  unjudged : Bool
  reason : Utf16
  deriving DecidableEq, Repr

def failedChecks (checks : List Check) : List Check :=
  checks.filter fun check => !check.ok && decide (check.severity = .fail)

def checkIssues (check : Check) : List Issue :=
  let problem := check.id ++ ofString ": " ++ check.detail
  if check.steps.isEmpty then [{ step := none, problem }]
  else check.steps.map fun step => { step := some step, problem }

/-- `enabled ? pickJudgeProvider(…) : null`. -/
def judgeProvider (options : JudgeOptions) (graph : Graph) (entries : Entries) : Option Utf16 :=
  if options.enabled && options.hasChat then
    pickJudgeProvider entries options.candidates [graph.plannedBy]
  else none

/-- The provider that is asked for a verdict: none after a failed check. -/
def askedProvider (options : JudgeOptions) (graph : Graph) (entries : Entries)
    (checks : List Check) : Option Utf16 :=
  if (failedChecks checks).isEmpty then judgeProvider options graph entries else none

/-- `a || b` of strings. -/
def orElseText (text : Option Utf16) (otherwise : String) : Utf16 :=
  match text with
  | some (unit :: rest) => unit :: rest
  | _ => ofString otherwise

def noVerdictError (options : JudgeOptions) (judge : Option Judgement) : Utf16 :=
  match judge with
  | some judge => judge.error.getD (ofString "null")
  | none =>
      if options.enabled && options.hasChat then
        ofString "every configured provider produced part of this run; no independent judge is left"
      else ofString "judge disabled"

def verifyRun (options : JudgeOptions) (graph : Graph) (entries : Entries) (checks : List Check)
    (reply : Reply) : Report :=
  if (failedChecks checks).isEmpty then
    let judge := (judgeProvider options graph entries).map fun provider => askJudge provider reply
    match judge.bind Judgement.verdict with
    | some .pass =>
        { verdict := .pass, checks, judge, issues := [], unjudged := false
          reason := orElseText (judge.bind Judgement.reason) "the judge passed the run" }
    | some .fail =>
        let reason := orElseText (judge.bind Judgement.reason) "the judge failed the run"
        let issues := (judge.map Judgement.issues).getD []
        { verdict := .fail, checks, judge
          issues := if issues.isEmpty then [{ step := none, problem := reason }] else issues
          unjudged := false, reason }
    | none =>
        let error := noVerdictError options judge
        if options.strict then
          { verdict := .fail, checks, judge
            issues := [{ step := none
                         problem := ofString "no judge verdict (" ++ error ++ ofString ")" }]
            unjudged := true
            reason := ofString "strict verification and no judge verdict: " ++ error }
        else
          { verdict := .pass, checks, judge, issues := [], unjudged := true
            reason := ofString "deterministic checks passed; unjudged (" ++ error ++ ofString ")" }
  else
    { verdict := .fail, checks, judge := none, issues := (failedChecks checks).flatMap checkIssues
      unjudged := true
      reason := ofString "deterministic checks failed: " ++
        join (ofString ", ") ((failedChecks checks).map Check.id) }

section Judge

variable {options : JudgeOptions} {graph : Graph} {entries : Entries} {checks : List Check}
  {reply : Reply} {provider : Utf16}

/-- The judge is a candidate whose id is on no record. -/
theorem mem_candidates_of_asked
    (asked : askedProvider options graph entries checks = some provider) :
    provider ∈ options.candidates ∧ provider ∉ usedProviders entries [graph.plannedBy] := by
  simp only [askedProvider, judgeProvider, pickJudgeProvider] at asked
  split at asked
  next =>
    split at asked
    next =>
      exact ⟨List.mem_of_find?_eq_some asked, by simpa using List.find?_some asked⟩
    next => contradiction
  next => contradiction

/-- With every candidate on record nobody is asked. -/
theorem asked_eq_none_of_used
    (used : ∀ candidate ∈ options.candidates,
      candidate ∈ usedProviders entries [graph.plannedBy]) :
    askedProvider options graph entries checks = none := by
  simp only [askedProvider, judgeProvider, pickJudgeProvider]
  split
  next =>
    split
    next => simpa using used
    next => rfl
  next => rfl

/-- Without a judge the run is marked unjudged. -/
theorem unjudged_of_asked_eq_none (asked : askedProvider options graph entries checks = none) :
    (verifyRun options graph entries checks reply).judge = none ∧
      (verifyRun options graph entries checks reply).unjudged = true := by
  simp only [askedProvider] at asked
  simp only [verifyRun]
  split
  next passed =>
    rw [if_pos passed] at asked
    simp only [asked, Option.map_none, Option.bind_none]
    split <;> exact ⟨rfl, rfl⟩
  next => exact ⟨rfl, rfl⟩

end Judge

end Verify

end TitanRunner
