import TitanRunner.Lib.JsonText
import TitanRunner.Orchestrator.Synthesizer
import TitanRunner.Redact
import TitanRunner.Verify

/-!
# The deterministic checks

`verify/checks.js`: what is asked of a finished run before any judge.  A check that passes
says something of every file it looks at, and a check that fails names the steps to blame;
the syntax check looks at a bounded number of files of a bounded size.
-/

namespace TitanRunner

namespace Verify

open Orchestrator Utf16 Regex

def maxSyntaxFiles : Nat := 12

def maxSyntaxBytes : Nat := 200 * 1024

/-- `Buffer.byteLength(text)`: a pair of surrogates is four bytes, a lone one three. -/
def byteLength : Utf16 → Nat
  | [] => 0
  | [unit] => unitLength unit
  | unit :: next :: rest =>
      if Json.isHigh unit && Json.isLow next then 4 + byteLength rest
      else unitLength unit + byteLength (next :: rest)
where
  unitLength (unit : UInt16) : Nat := if unit < 0x80 then 1 else if unit < 0x800 then 2 else 3

/-- The phrases of `PLACEHOLDER`. -/
def stubPhrase : Regex :=
  alts [
    seqs [.wordBoundary, textNoCase "TODO", maybe (text ":"), star isSpaceUnit,
      textNoCase "implement", .wordBoundary],
    seqs [.wordBoundary, textNoCase "lorem ipsum", .wordBoundary],
    seqs [.wordBoundary, textNoCase "placeholder ",
      alts [textNoCase "only", textNoCase "content"], .wordBoundary]]

/-- A line that is an ellipsis. -/
def isEllipsis (line : Utf16) : Bool :=
  Utf16.trim line == ofString "..." || Utf16.trim line == ofString "…"

/-- `PLACEHOLDER.test(content)`.  The white space beside the ellipsis may reach into other
lines, but then the ellipsis is also the whole of its own. -/
def isPlaceholder (content : Utf16) : Bool :=
  stubPhrase.test content || (content.splitOnP Utf16.isLineTerminator).any isEllipsis

def isBlank (content : Utf16) : Bool := (Utf16.trim content).isEmpty

def holdsSecret (content : Utf16) : Bool := Redact.secretPatterns.any fun pattern => pattern.test content

/-- `/\.json$/i`. -/
def jsonPath : Regex := seqs [textNoCase ".json", .stop]

/-- `/\.(m|c)?js$/i`. -/
def jsPath : Regex :=
  seqs [text ".", maybe (alts [textNoCase "m", textNoCase "c"]), textNoCase "js", .stop]

/-- The extensions a file is checked under. -/
inductive Grammar where
  | mjs | cjs
  deriving DecidableEq, Repr

/-- `path.toLowerCase().endsWith('.cjs') ? '.cjs' : '.mjs'`. -/
def grammarOf (path : Utf16) : Grammar :=
  if ofString ".cjs" <:+ path.map lower then .cjs else .mjs

/-- What the checks ask of the process they run in. -/
structure Host where
  /-- What `node --check` writes to stderr of a file it refuses. -/
  nodeCheck : Grammar → Utf16 → Option Utf16
  /-- The message of the error `JSON.parse` throws. -/
  parseError : Utf16 → Utf16

structure FinishedRun where
  tasksById : Entries
  synthesis : Option Synthesis
  /-- `checkSyntax !== false`. -/
  checkSyntax : Bool
  deriving DecidableEq, Repr

def FinishedRun.files (run : FinishedRun) : List SynthesisFile :=
  (run.synthesis.map Synthesis.files).getD []

def FinishedRun.conflicts (run : FinishedRun) : List SynthesisConflict :=
  (run.synthesis.map Synthesis.conflicts).getD []

/-- A check as `add` records it. -/
def checkOf (id : String) (severity : Severity) (culprits : Bool) (detail : Utf16)
    (steps : List StepId) : Check where
  id := ofString id
  ok := !culprits
  severity
  detail := detail.take 300
  steps := dedupe (steps.filter fun step => !step.isEmpty)
where
  /-- `[...new Set(steps)]`. -/
  dedupe (steps : List StepId) : List StepId :=
    steps.foldl (fun kept step => if step ∈ kept then kept else kept ++ [step]) []

def listed (names : List Utf16) : Utf16 := join (ofString ", ") names

def FinishedRun.incomplete (run : FinishedRun) : List Entry :=
  run.tasksById.filter fun entry => entry.state ≠ .complete

def FinishedRun.codeSteps (run : FinishedRun) : List Entry :=
  run.tasksById.filter fun entry =>
    entry.step.aspect == ofString "code-generation" && decide (entry.state = .complete)

def FinishedRun.barren (run : FinishedRun) : List Entry :=
  run.codeSteps.filter fun entry => !run.files.any fun file => file.sourceTaskId == entry.id

def stepsComplete (run : FinishedRun) : Check :=
  let bad := run.incomplete
  checkOf "steps-complete" .fail (!bad.isEmpty)
    (if bad.isEmpty then ofNat run.tasksById.length ++ ofString " step(s) complete"
      else ofString "not complete: " ++
        listed (bad.map fun entry => entry.id ++ ofString ":" ++ entry.state.text))
    (bad.map Entry.id)

def noConflicts (run : FinishedRun) : Check :=
  let conflicts := run.conflicts
  checkOf "no-conflicts" .warn (!conflicts.isEmpty)
    (if conflicts.isEmpty then ofString "no conflicting files"
      else ofNat conflicts.length ++ ofString " conflicting file(s), both versions kept")
    (conflicts.flatMap fun conflict => conflict.versions.map Prod.fst)

def codeStepsProduced (run : FinishedRun) : Check :=
  let bad := run.barren
  checkOf "code-steps-produced" .fail (!bad.isEmpty)
    (if bad.isEmpty then ofNat run.codeSteps.length ++ ofString " code step(s) produced files"
      else ofString "no files from: " ++ listed (bad.map Entry.id))
    (bad.map Entry.id)

/-- The check that no file of the run has a defect. -/
def filesWithout (id : String) (bad : List SynthesisFile) (passed : Utf16) (failed : String) : Check :=
  checkOf id .fail (!bad.isEmpty)
    (if bad.isEmpty then passed else ofString failed ++ listed (bad.map SynthesisFile.path))
    (bad.map SynthesisFile.sourceTaskId)

def filesNonEmpty (run : FinishedRun) : Check :=
  filesWithout "files-non-empty" (run.files.filter fun file => isBlank file.content)
    (ofNat run.files.length ++ ofString " file(s) non-empty") "empty: "

def noPlaceholders (run : FinishedRun) : Check :=
  filesWithout "no-placeholders" (run.files.filter fun file => isPlaceholder file.content)
    (ofString "no placeholder content") "placeholder content in: "

def noSecrets (run : FinishedRun) : Check :=
  filesWithout "no-secrets" (run.files.filter fun file => holdsSecret file.content)
    (ofString "no secret-shaped content") "secret-shaped content in: "

section Parsers

variable (host : Host)

def unparsable (file : SynthesisFile) : Bool :=
  jsonPath.test file.path && (Json.parse file.content).isNone

def jsonParses (run : FinishedRun) : Check :=
  let bad := run.files.filter unparsable
  checkOf "json-parses" .fail (!bad.isEmpty)
    (if bad.isEmpty then ofString "every .json file parses"
      else ofString "unparsable: " ++ join (ofString "; ") (bad.map fun file =>
        file.path ++ ofString " (" ++ (host.parseError file.content).take 60 ++ ofString ")"))
    (bad.map SynthesisFile.sourceTaskId)

/-- The JS files that are looked at: the first `MAX_SYNTAX_FILES`. -/
def FinishedRun.js (run : FinishedRun) : List SynthesisFile :=
  (run.files.filter fun file => jsPath.test file.path).take maxSyntaxFiles

def Host.accepts (file : SynthesisFile) : Bool :=
  (host.nodeCheck (grammarOf file.path) file.content).isNone

def tooLarge (file : SynthesisFile) : Bool := byteLength file.content > maxSyntaxBytes

def FinishedRun.badSyntax (run : FinishedRun) : List SynthesisFile :=
  run.js.filter fun file => !tooLarge file && !host.accepts file

/-- `String(err.stderr).split('\n').find((l) => /SyntaxError/.test(l)) ?? 'syntax error'`. -/
def syntaxError (stderr : Utf16) : Utf16 :=
  ((split 0xA stderr).find? (Regex.text "SyntaxError").test).getD (ofString "syntax error")

def jsSyntax (run : FinishedRun) : Check :=
  let bad := run.badSyntax host
  checkOf "js-syntax" .fail (!bad.isEmpty)
    (if bad.isEmpty then ofNat run.js.length ++ ofString " JS file(s) parse"
      else join (ofString "; ") (bad.map fun file =>
        let stderr := (host.nodeCheck (grammarOf file.path) file.content).getD []
        file.path ++ ofString ": " ++ (Utf16.trim (syntaxError stderr)).take 100))
    (bad.map SynthesisFile.sourceTaskId)

def runChecks (run : FinishedRun) : List Check :=
  [stepsComplete run, noConflicts run, codeStepsProduced run, filesNonEmpty run,
    noPlaceholders run, noSecrets run, jsonParses host run] ++
    if run.checkSyntax then [jsSyntax host run] else []

end Parsers

structure Summary where
  ok : Bool
  failed : List Utf16
  warned : List Utf16
  total : Nat
  deriving DecidableEq, Repr

def summarizeChecks (checks : List Check) : Summary where
  ok := (failedChecks checks).isEmpty
  failed := (failedChecks checks).map Check.id
  warned := (checks.filter fun check => !check.ok && decide (check.severity = .warn)).map Check.id
  total := checks.length

/-! ## What the checks say -/

/-- What a run that passes has in common with what was asked of it. -/
structure FinishedRun.Passes (run : FinishedRun) (host : Host) : Prop where
  complete : ∀ entry ∈ run.tasksById, entry.state = .complete
  produced : ∀ entry ∈ run.codeSteps, ∃ file ∈ run.files, file.sourceTaskId = entry.id
  filled : ∀ file ∈ run.files, isBlank file.content = false
  real : ∀ file ∈ run.files, isPlaceholder file.content = false
  safe : ∀ file ∈ run.files, holdsSecret file.content = false
  json : ∀ file ∈ run.files, jsonPath.test file.path = true → (Json.parse file.content).isSome = true
  syntax' : run.checkSyntax = true → ∀ file ∈ run.js, byteLength file.content ≤ maxSyntaxBytes →
    host.accepts file = true

/-- The checks, by name. -/
inductive CheckName where
  | stepsComplete | noConflicts | codeStepsProduced | filesNonEmpty | noPlaceholders | noSecrets
  | jsonParses | jsSyntax
  deriving DecidableEq, Repr

def CheckName.text : CheckName → Utf16
  | .stepsComplete => ofString "steps-complete"
  | .noConflicts => ofString "no-conflicts"
  | .codeStepsProduced => ofString "code-steps-produced"
  | .filesNonEmpty => ofString "files-non-empty"
  | .noPlaceholders => ofString "no-placeholders"
  | .noSecrets => ofString "no-secrets"
  | .jsonParses => ofString "json-parses"
  | .jsSyntax => ofString "js-syntax"

/-- The step made what a check looks for. -/
inductive Blamed (host : Host) (run : FinishedRun) : CheckName → StepId → Prop
  | incomplete {entry : Entry} (inside : entry ∈ run.tasksById)
      (unfinished : entry.state ≠ .complete) : Blamed host run .stepsComplete entry.id
  | conflict {conflict : SynthesisConflict} {version : StepId × Utf16}
      (inside : conflict ∈ run.conflicts) (made : version ∈ conflict.versions) :
      Blamed host run .noConflicts version.1
  | barren {entry : Entry} (inside : entry ∈ run.codeSteps)
      (bare : ∀ file ∈ run.files, file.sourceTaskId ≠ entry.id) :
      Blamed host run .codeStepsProduced entry.id
  | blank {file : SynthesisFile} (inside : file ∈ run.files) (blank : isBlank file.content = true) :
      Blamed host run .filesNonEmpty file.sourceTaskId
  | stub {file : SynthesisFile} (inside : file ∈ run.files)
      (stub : isPlaceholder file.content = true) : Blamed host run .noPlaceholders file.sourceTaskId
  | leaky {file : SynthesisFile} (inside : file ∈ run.files)
      (leaky : holdsSecret file.content = true) : Blamed host run .noSecrets file.sourceTaskId
  | badJson {file : SynthesisFile} (inside : file ∈ run.files)
      (json : jsonPath.test file.path = true) (bad : Json.parse file.content = none) :
      Blamed host run .jsonParses file.sourceTaskId
  | badSyntax {file : SynthesisFile} (inside : file ∈ run.js)
      (small : byteLength file.content ≤ maxSyntaxBytes) (bad : host.accepts file = false) :
      Blamed host run .jsSyntax file.sourceTaskId

section Sound

variable {host : Host} {run : FinishedRun} {step : StepId}

theorem ok_summarizeChecks {checks : List Check} : (summarizeChecks checks).ok = true ↔
    ∀ check ∈ checks, check.severity = .fail → check.ok = true := by
  simp only [summarizeChecks, failedChecks, List.isEmpty_iff, List.filter_eq_nil_iff,
    Bool.and_eq_true, Bool.not_eq_true', decide_eq_true_eq, not_and]
  refine forall₂_congr fun check _ => ⟨fun fine failing => ?_, fun fine bad failing => ?_⟩
  · by_contra bad
    exact fine (Bool.eq_false_of_not_eq_true bad) failing
  · rw [fine failing] at bad
    contradiction

theorem mem_dedupe {steps : List StepId} : step ∈ checkOf.dedupe steps ↔ step ∈ steps := by
  have grown : ∀ kept : List StepId,
      step ∈ steps.foldl (fun kept step => if step ∈ kept then kept else kept ++ [step]) kept ↔
        step ∈ kept ∨ step ∈ steps := by
    induction steps with
    | nil => simp
    | cons first rest ih =>
        intro kept
        rw [List.foldl_cons, ih, List.mem_cons]
        split
        next already =>
          constructor
          · exact Or.imp_right .inr
          · rintro (before | rfl | later)
            · exact .inl before
            · exact .inl already
            · exact .inr later
        next => simp only [List.mem_append, List.mem_singleton, or_assoc]
  rw [checkOf.dedupe]
  simpa using grown []

/-- A check names the steps it is given, each once, and leaves the nameless out. -/
theorem mem_steps_checkOf {id : String} {severity : Severity} {culprits : Bool} {detail : Utf16}
    {steps : List StepId} :
    step ∈ (checkOf id severity culprits detail steps).steps ↔ step ≠ [] ∧ step ∈ steps := by
  rw [checkOf, mem_dedupe, List.mem_filter, Bool.not_eq_true', List.isEmpty_eq_false_iff, and_comm]

/-- The check passes where nothing it looks for was found. -/
theorem ok_checkOf {α : Type} {id : String} {severity : Severity} {bad : List α} {detail : Utf16}
    {steps : List StepId} :
    (checkOf id severity (!bad.isEmpty) detail steps).ok = true ↔ ∀ culprit, culprit ∉ bad := by
  rw [checkOf, Bool.not_not, List.isEmpty_iff, List.eq_nil_iff_forall_not_mem]

theorem ok_stepsComplete :
    (stepsComplete run).ok = true ↔ ∀ entry ∈ run.tasksById, entry.state = .complete := by
  simp [stepsComplete, ok_checkOf, FinishedRun.incomplete]

theorem mem_barren {entry : Entry} : entry ∈ run.barren ↔
    entry ∈ run.codeSteps ∧ ∀ file ∈ run.files, file.sourceTaskId ≠ entry.id := by
  simp [FinishedRun.barren]

theorem ok_codeStepsProduced : (codeStepsProduced run).ok = true ↔
    ∀ entry ∈ run.codeSteps, ∃ file ∈ run.files, file.sourceTaskId = entry.id := by
  simp [codeStepsProduced, ok_checkOf, mem_barren]

/-- A check of every file's content. -/
theorem ok_filesWithout {id failed : String} {passed : Utf16} {bad : SynthesisFile → Bool} :
    (filesWithout id (run.files.filter bad) passed failed).ok = true ↔
      ∀ file ∈ run.files, bad file = false := by
  simp [filesWithout, ok_checkOf]

theorem mem_steps_filesWithout {id failed : String} {passed : Utf16} {bad : SynthesisFile → Bool} :
    step ∈ (filesWithout id (run.files.filter bad) passed failed).steps ↔
      step ≠ [] ∧ ∃ file ∈ run.files, bad file = true ∧ file.sourceTaskId = step := by
  simp [filesWithout, mem_steps_checkOf, and_assoc]

theorem ok_jsonParses : (jsonParses host run).ok = true ↔
    ∀ file ∈ run.files, jsonPath.test file.path = true → (Json.parse file.content).isSome = true := by
  simp [jsonParses, ok_checkOf, unparsable, Option.isSome_iff_ne_none]

theorem mem_badSyntax {file : SynthesisFile} : file ∈ run.badSyntax host ↔ file ∈ run.js ∧
    byteLength file.content ≤ maxSyntaxBytes ∧ host.accepts file = false := by
  simp [FinishedRun.badSyntax, tooLarge]

theorem ok_jsSyntax : (jsSyntax host run).ok = true ↔
    ∀ file ∈ run.js, byteLength file.content ≤ maxSyntaxBytes → host.accepts file = true := by
  simp [jsSyntax, ok_checkOf, mem_badSyntax]

theorem mem_runChecks {check : Check} : check ∈ runChecks host run ↔
    check = stepsComplete run ∨ check = noConflicts run ∨ check = codeStepsProduced run ∨
      check = filesNonEmpty run ∨ check = noPlaceholders run ∨ check = noSecrets run ∨
      check = jsonParses host run ∨ run.checkSyntax = true ∧ check = jsSyntax host run := by
  simp only [runChecks, List.mem_append, List.mem_cons, List.not_mem_nil, or_false, or_assoc]
  cases run.checkSyntax <;> simp

/-- The checks all pass, the warning apart, exactly on the runs that have what they ask for. -/
theorem ok_runChecks : (summarizeChecks (runChecks host run)).ok = true ↔ run.Passes host := by
  rw [ok_summarizeChecks]
  constructor
  · intro fine
    have passed : ∀ check, check ∈ runChecks host run → check.severity = .fail → check.ok = true := fine
    simp only [mem_runChecks] at passed
    exact {
      complete := ok_stepsComplete.1 (passed _ (by simp) rfl)
      produced := ok_codeStepsProduced.1 (passed _ (by simp) rfl)
      filled := ok_filesWithout.1 (passed (filesNonEmpty run) (by simp) rfl)
      real := ok_filesWithout.1 (passed (noPlaceholders run) (by simp) rfl)
      safe := ok_filesWithout.1 (passed (noSecrets run) (by simp) rfl)
      json := ok_jsonParses.1 (passed (jsonParses host run) (by simp) rfl)
      syntax' := fun checked => ok_jsSyntax.1 (passed _ (by simp [checked]) rfl) }
  · intro passes check inside failing
    rcases mem_runChecks.1 inside with rfl | rfl | rfl | rfl | rfl | rfl | rfl | ⟨checked, rfl⟩
    · exact ok_stepsComplete.2 passes.complete
    · contradiction
    · exact ok_codeStepsProduced.2 passes.produced
    · exact ok_filesWithout.2 passes.filled
    · exact ok_filesWithout.2 passes.real
    · exact ok_filesWithout.2 passes.safe
    · exact ok_jsonParses.2 passes.json
    · exact ok_jsSyntax.2 (passes.syntax' checked)

/-! ### Who is blamed -/

theorem mem_steps_stepsComplete : step ∈ (stepsComplete run).steps ↔
    step ≠ [] ∧ Blamed host run .stepsComplete step := by
  refine mem_steps_checkOf.trans (and_congr_right' ⟨fun named => ?_, ?_⟩)
  · obtain ⟨entry, bad, rfl⟩ := List.mem_map.1 named
    rw [FinishedRun.incomplete, List.mem_filter, decide_eq_true_eq] at bad
    exact .incomplete bad.1 bad.2
  · rintro ⟨inside, unfinished⟩
    exact List.mem_map_of_mem (List.mem_filter.2 ⟨inside, decide_eq_true unfinished⟩)

theorem mem_steps_noConflicts : step ∈ (noConflicts run).steps ↔
    step ≠ [] ∧ Blamed host run .noConflicts step := by
  refine mem_steps_checkOf.trans (and_congr_right' ⟨fun named => ?_, fun blamed => ?_⟩)
  · obtain ⟨conflict, bad, made⟩ := List.mem_flatMap.1 named
    obtain ⟨version, versions, rfl⟩ := List.mem_map.1 made
    exact .conflict bad versions
  · cases blamed with
    | conflict inside made => exact List.mem_flatMap.2 ⟨_, inside, List.mem_map_of_mem made⟩

theorem mem_steps_codeStepsProduced : step ∈ (codeStepsProduced run).steps ↔
    step ≠ [] ∧ Blamed host run .codeStepsProduced step := by
  refine mem_steps_checkOf.trans (and_congr_right' ⟨fun named => ?_, fun blamed => ?_⟩)
  · obtain ⟨entry, bad, rfl⟩ := List.mem_map.1 named
    exact .barren (mem_barren.1 bad).1 (mem_barren.1 bad).2
  · cases blamed with
    | barren inside bare => exact List.mem_map_of_mem (mem_barren.2 ⟨inside, bare⟩)

theorem mem_steps_filesNonEmpty : step ∈ (filesNonEmpty run).steps ↔
    step ≠ [] ∧ Blamed host run .filesNonEmpty step := by
  refine mem_steps_filesWithout.trans (and_congr_right' ⟨?_, fun blamed => ?_⟩)
  · rintro ⟨file, inside, bad, rfl⟩
    exact .blank inside bad
  · cases blamed with
    | blank inside bad => exact ⟨_, inside, bad, rfl⟩

theorem mem_steps_noPlaceholders : step ∈ (noPlaceholders run).steps ↔
    step ≠ [] ∧ Blamed host run .noPlaceholders step := by
  refine mem_steps_filesWithout.trans (and_congr_right' ⟨?_, fun blamed => ?_⟩)
  · rintro ⟨file, inside, bad, rfl⟩
    exact .stub inside bad
  · cases blamed with
    | stub inside bad => exact ⟨_, inside, bad, rfl⟩

theorem mem_steps_noSecrets : step ∈ (noSecrets run).steps ↔
    step ≠ [] ∧ Blamed host run .noSecrets step := by
  refine mem_steps_filesWithout.trans (and_congr_right' ⟨?_, fun blamed => ?_⟩)
  · rintro ⟨file, inside, bad, rfl⟩
    exact .leaky inside bad
  · cases blamed with
    | leaky inside bad => exact ⟨_, inside, bad, rfl⟩

theorem mem_steps_jsonParses : step ∈ (jsonParses host run).steps ↔
    step ≠ [] ∧ Blamed host run .jsonParses step := by
  refine mem_steps_checkOf.trans (and_congr_right' ⟨fun named => ?_, fun blamed => ?_⟩)
  · obtain ⟨file, bad, rfl⟩ := List.mem_map.1 named
    rw [List.mem_filter, unparsable, Bool.and_eq_true, Option.isNone_iff_eq_none] at bad
    exact .badJson bad.1 bad.2.1 bad.2.2
  · cases blamed with
    | badJson inside json bad =>
        refine List.mem_map_of_mem (List.mem_filter.2 ⟨inside, ?_⟩)
        rw [unparsable, json, bad]
        rfl

theorem mem_steps_jsSyntax : step ∈ (jsSyntax host run).steps ↔
    step ≠ [] ∧ Blamed host run .jsSyntax step := by
  refine mem_steps_checkOf.trans (and_congr_right' ⟨fun named => ?_, fun blamed => ?_⟩)
  · obtain ⟨file, bad, rfl⟩ := List.mem_map.1 named
    have ⟨inside, small, refused⟩ := mem_badSyntax.1 bad
    exact .badSyntax inside small refused
  · cases blamed with
    | badSyntax inside small bad =>
        exact List.mem_map_of_mem (mem_badSyntax.2 ⟨inside, small, bad⟩)

end Sound

/-- The checks all pass exactly on the runs that have what they ask for, with the syntax of
the files the bounds let through; and a check names the steps to blame. -/
theorem checks_what_it_names (host : Host) (run : FinishedRun) :
    ((summarizeChecks (runChecks host run)).ok = true ↔ run.Passes host) ∧
      ∀ check ∈ runChecks host run, ∃ name : CheckName, check.id = name.text ∧
        ∀ step, step ∈ check.steps ↔ step ≠ [] ∧ Blamed host run name step := by
  refine ⟨ok_runChecks, fun check inside => ?_⟩
  rcases mem_runChecks.1 inside with rfl | rfl | rfl | rfl | rfl | rfl | rfl | ⟨-, rfl⟩
  · exact ⟨.stepsComplete, rfl, fun _ => mem_steps_stepsComplete⟩
  · exact ⟨.noConflicts, rfl, fun _ => mem_steps_noConflicts⟩
  · exact ⟨.codeStepsProduced, rfl, fun _ => mem_steps_codeStepsProduced⟩
  · exact ⟨.filesNonEmpty, rfl, fun _ => mem_steps_filesNonEmpty⟩
  · exact ⟨.noPlaceholders, rfl, fun _ => mem_steps_noPlaceholders⟩
  · exact ⟨.noSecrets, rfl, fun _ => mem_steps_noSecrets⟩
  · exact ⟨.jsonParses, rfl, fun _ => mem_steps_jsonParses⟩
  · exact ⟨.jsSyntax, rfl, fun _ => mem_steps_jsSyntax⟩

/-- Thirteen scripts, the last of which is refused. -/
def thirteenScripts : FinishedRun where
  tasksById := []
  synthesis := some {
    files := (List.replicate 12 (ofString "1") ++ [ofString "("]).map fun content =>
      { path := ofString "a.js", content, sourceTaskId := ofString "write", conflict := false
        conflictsWithPath := none }
    conflicts := []
    markdownSummary := [] }
  checkSyntax := true

/-- A process in which a lone parenthesis is the one text that does not parse. -/
def parenthesisHost : Host where
  nodeCheck _ content := if content = ofString "(" then some (ofString "SyntaxError") else none
  parseError _ := []

/-- A run passes though its thirteenth script does not parse. -/
theorem not_checks_every_script : ¬ ∀ (host : Host) (run : FinishedRun), run.checkSyntax = true →
    (summarizeChecks (runChecks host run)).ok = true →
    ∀ file ∈ run.files, jsPath.test file.path = true → host.accepts file = true := by
  intro every
  have passes : (summarizeChecks (runChecks parenthesisHost thirteenScripts)).ok = true := by
    decide
  have accepted := every parenthesisHost thirteenScripts rfl passes
    { path := ofString "a.js", content := ofString "(", sourceTaskId := ofString "write"
      conflict := false, conflictsWithPath := none } (by decide) (by decide)
  contradiction

end Verify

end TitanRunner
