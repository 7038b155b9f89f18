import TitanRunner.Orchestrator.Graph
import TitanRunner.Orchestrator.OutputParser
import Mathlib.Algebra.GroupWithZero.Nat

/-!
# Synthesis of the deliverable

`orchestrator/synthesizer.js`: the outputs of the completed steps, in topological
order, become one list of files and a summary.  The nested file tree is a second view
of the same files, and is in `SynthesisTree`.
-/

namespace TitanRunner

namespace Orchestrator

open Utf16 OutputParser

/-- The queue loop of `topoOrder`: the ids visited, in order.  Each id is queued at most
once for every step and dependency, which bounds the rounds. -/
def topoVisit (tasks : List Step) :
    Nat → List (StepId × Int) → List StepId → List StepId → List StepId
  | 0, _, _, visited => visited
  | _ + 1, _, [], visited => visited
  | fuel + 1, indegree, id :: queue, visited =>
      if id ∈ visited then topoVisit tasks fuel indegree queue visited
      else
        let (indegree, queue) := tasks.foldl (fun (indegree, queue) step =>
          if id ∈ step.dependsOn then
            let remaining := ((KeyedList.get Prod.fst indegree step.id).map Prod.snd).getD 0 - 1
            (KeyedList.insert Prod.fst indegree (step.id, remaining),
              if remaining = 0 then queue ++ [step.id] else queue)
          else (indegree, queue)) (indegree, queue)
        topoVisit tasks fuel indegree queue (visited ++ [id])

/-- `topoOrder`. -/
def topoOrder (tasks : List Step) : List Step :=
  let known := fun id => id ∈ tasks.map Step.id
  let indegree := tasks.foldl (fun indegree step =>
    KeyedList.insert Prod.fst indegree
      (step.id, ((step.dependsOn.filter fun id => known id).length : Int) +
        ((KeyedList.get Prod.fst indegree step.id).map Prod.snd).getD 0)) []
  let queue := (tasks.filter fun step =>
    ((KeyedList.get Prod.fst indegree step.id).map Prod.snd).getD 0 = 0).map Step.id
  let fuel := tasks.length + queue.length + (tasks.map fun step => step.dependsOn.length).sum
  let visited := topoVisit tasks fuel indegree queue []
  visited.filterMap (KeyedList.get Step.id tasks) ++ tasks.filter fun step => step.id ∉ visited

structure SynthesisFile where
  path : Utf16
  content : Utf16
  sourceTaskId : StepId
  conflict : Bool
  conflictsWithPath : Option Utf16
  deriving DecidableEq, Repr

structure SynthesisConflict where
  path : Utf16
  /-- Task id and resolved path of each version. -/
  versions : List (StepId × Utf16)
  deriving DecidableEq, Repr

structure Synthesis where
  files : List SynthesisFile
  conflicts : List SynthesisConflict
  markdownSummary : Utf16
  deriving DecidableEq, Repr

/-- `path.lastIndexOf(unit)`, or `-1`. -/
def lastIndexOf (wanted : UInt16) (path : Utf16) : Int :=
  match path.reverse.idxOf? wanted with
  | some back => path.length - 1 - back
  | none => -1

def conflictPath (path : Utf16) (taskId : StepId) : Utf16 :=
  let lastDot := lastIndexOf 0x2E path
  if lastDot > lastIndexOf 0x2F path then
    path.take lastDot.toNat ++ ofString "." ++ taskId ++ path.drop lastDot.toNat
  else path ++ ofString "." ++ taskId

/-- What the synthesizer reads of a step: the definition's title and of the live entry its
state, and the answer and the model of a complete one. -/
structure Contribution where
  id : StepId
  title : Utf16
  state : Option StepState
  output : Option Utf16
  modelId : Option Utf16
  deriving DecidableEq, Repr

def Entries.completed (entries : Entries) (id : StepId) : Option Entry :=
  (entries.get id).filter fun entry => entry.state = .complete

def contribution (entries : Entries) (step : Step) : Contribution where
  id := step.id
  title := step.title
  state := entries.stateOf step.id
  output := (entries.completed step.id).bind Entry.output
  modelId := ((entries.completed step.id).bind Entry.assignment).map Candidate.modelId

section Synthesize

variable (parse : Utf16 → ParseResult)

/-- The answer of a completed step, parsed; `none` without a usable answer. -/
def Contribution.parsed (piece : Contribution) : Option ParseResult :=
  if piece.state = some .complete then
    (piece.output.filter fun output => !output.isEmpty).map parse
  else none

def code (content : Utf16) : Utf16 := ofString "`" ++ content ++ ofString "`"

def summaryHead (piece : Contribution) : Utf16 :=
  ofString "- **" ++ piece.title ++ ofString "** (" ++ code piece.id ++ ofString ") — "

def summaryLine (piece : Contribution) : Utf16 :=
  match piece.parsed parse with
  | none =>
      let reason := (piece.state.map StepState.text).getD (ofString "missing")
      summaryHead piece ++ reason ++ ofString ", no output."
  | some parsed =>
      let via := summaryHead piece ++ ofString "completed via " ++
        code (piece.modelId.getD (ofString "unknown model")) ++ ofString "; "
      if parsed.malformed then
        via ++ ofString "output looked like a files-envelope attempt but could not be parsed " ++
          ofString "by any tier (malformed_output)."
      else if parsed.files.isEmpty then
        via ++ ofString "freeform output, no file blocks detected."
      else
        let paths := join (ofString ", ") (parsed.files.map fun file => code file.path)
        let tierNote :=
          if parsed.tier = some 1 then []
          else ofString " (tier " ++ ((parsed.tier.map ofNat).getD (ofString "null")) ++
            ofString " parse)"
        via ++ ofString "produced " ++ ofNat parsed.files.length ++ ofString " file(s)" ++
          tierNote ++ ofString ": " ++ paths ++ ofString "."

/-- The versions of each path, by first appearance. -/
abbrev ByPath := List (Utf16 × List (StepId × Utf16))

def addVersion (id : StepId) (byPath : ByPath) (file : ExtractedFile) : ByPath :=
  let versions := ((KeyedList.get Prod.fst byPath file.path).map Prod.snd).getD []
  KeyedList.insert Prod.fst byPath (file.path, versions ++ [(id, file.content)])

def byPath (pieces : List Contribution) : ByPath :=
  pieces.foldl (fun byPath piece =>
    ((piece.parsed parse).elim [] ParseResult.files).foldl (addVersion piece.id) byPath) []

/-- The files of one path; from the second version on the path carries the task's id. -/
def resolve (path : Utf16) : List (StepId × Utf16) → List SynthesisFile
  | [(taskId, content)] =>
      [{ path, content, sourceTaskId := taskId, conflict := false, conflictsWithPath := none }]
  | versions => versions.mapIdx fun index (taskId, content) =>
      { path := if index = 0 then path else conflictPath path taskId
        content
        sourceTaskId := taskId
        conflict := true
        conflictsWithPath := some path }

def conflictOf (path : Utf16) (files : List SynthesisFile) : Option SynthesisConflict :=
  if files.any SynthesisFile.conflict then
    some { path, versions := files.map fun file => (file.sourceTaskId, file.path) }
  else none

/-- `buildMarkdownSummary`. -/
def buildMarkdownSummary (sharedContext : Utf16) (pieces : List Contribution)
    (conflicts : List SynthesisConflict) (files : List SynthesisFile) : Utf16 :=
  let complete := pieces.filter fun piece => piece.state = some .complete
  let head := [ofString "# Orchestration Summary", [],
    ofNat complete.length ++ ofString "/" ++ ofNat pieces.length ++ ofString " tasks completed.",
    [], ofString "## Tasks", []] ++ pieces.map (summaryLine parse)
  let conflictLines := conflicts.map fun conflict =>
    ofString "- " ++ code conflict.path ++ ofString " was written by " ++
      ofNat conflict.versions.length ++ ofString " tasks: " ++
      join (ofString ", ") (conflict.versions.map fun (taskId, resolved) =>
        code taskId ++ ofString " (kept as " ++ code resolved ++ ofString ")")
  let conflictPart :=
    if conflicts.isEmpty then [] else [[], ofString "## File conflicts", []] ++ conflictLines
  let plain := files.filter fun file => !file.conflict
  let filePart :=
    if files.isEmpty then []
    else [[], ofString "## Files produced", []] ++
      plain.map fun file => ofString "- " ++ code file.path
  let contextPart :=
    if sharedContext.isEmpty then []
    else [[], ofString "## Shared context used for this run", [], sharedContext]
  join [0xA] (head ++ conflictPart ++ filePart ++ contextPart)

/-- Synthesis, from what it reads: the shared context and one contribution a step, in
topological order. -/
def synthesizePieces (sharedContext : Utf16) (pieces : List Contribution) : Synthesis :=
  let resolved := (byPath parse pieces).map fun (path, versions) => (path, resolve path versions)
  let files := resolved.flatMap Prod.snd
  let conflicts := resolved.filterMap fun (path, files) => conflictOf path files
  { files, conflicts
    markdownSummary := buildMarkdownSummary parse sharedContext pieces conflicts files }

/-- `synthesize`. -/
def synthesize (graph : Graph) (entries : Entries) : Synthesis :=
  synthesizePieces parse graph.sharedContext ((topoOrder graph.tasks).map (contribution entries))

end Synthesize

/-! ## What synthesis depends on -/

/-- What the order and the summary read of a step of the graph. -/
structure Outline where
  id : StepId
  title : Utf16
  dependsOn : List StepId
  deriving DecidableEq, Repr

def Step.outline (step : Step) : Outline where
  id := step.id
  title := step.title
  dependsOn := step.dependsOn

/-- The step of an outline. -/
def Outline.step (outline : Outline) : Step where
  id := outline.id
  title := outline.title
  aspect := []
  description := []
  dependsOn := outline.dependsOn
  deliverable := []

section Order

variable {change : Step → Step}

theorem topoVisit_map (sameId : ∀ step, (change step).id = step.id)
    (sameDeps : ∀ step, (change step).dependsOn = step.dependsOn) (tasks : List Step) (fuel : Nat)
    (indegree : List (StepId × Int)) (queue visited : List StepId) :
    topoVisit (tasks.map change) fuel indegree queue visited =
      topoVisit tasks fuel indegree queue visited := by
  induction fuel generalizing indegree queue visited with
  | zero => rfl
  | succ fuel ih =>
      cases queue with
      | nil => rfl
      | cons id queue =>
          simp only [topoVisit, List.foldl_map, sameId, sameDeps, ih]

/-- The order depends only on the ids and the dependencies. -/
theorem topoOrder_map (sameId : ∀ step, (change step).id = step.id)
    (sameDeps : ∀ step, (change step).dependsOn = step.dependsOn) (tasks : List Step) :
    topoOrder (tasks.map change) = (topoOrder tasks).map change := by
  have ids : Step.id ∘ change = Step.id := funext sameId
  have lookup : ∀ id, KeyedList.get Step.id (tasks.map change) id =
      (KeyedList.get Step.id tasks id).map change := fun id =>
    KeyedList.get_map Step.id change sameId
  simp only [topoOrder, topoVisit_map sameId sameDeps, List.foldl_map, List.map_map, List.filter_map,
    List.length_map, List.map_append, List.map_filterMap, ids, sameId, sameDeps,
    Function.comp_def, funext lookup]

/-- Graphs of one outline are ordered alike. -/
theorem outline_topoOrder {tasks tasks' : List Step}
    (same : tasks.map Step.outline = tasks'.map Step.outline) :
    (topoOrder tasks).map Step.outline = (topoOrder tasks').map Step.outline := by
  have whole : ∀ tasks : List Step, (topoOrder tasks).map Step.outline =
      (topoOrder ((tasks.map Step.outline).map Outline.step)).map Step.outline := by
    intro tasks
    have reordered := @topoOrder_map (Outline.step ∘ Step.outline) (fun _ => rfl) (fun _ => rfl)
    rw [List.map_map, reordered, List.map_map]
    rfl
  rw [whole tasks, whole tasks', same]

end Order

/-- A contribution as far as the files and the summary depend on it. -/
structure Reading where
  id : StepId
  title : Utf16
  state : Option StepState
  modelId : Option Utf16
  parsed : Option ParseResult
  deriving DecidableEq, Repr

def Contribution.reading (parse : Utf16 → ParseResult) (piece : Contribution) : Reading where
  id := piece.id
  title := piece.title
  state := piece.state
  modelId := piece.modelId
  parsed := piece.parsed parse

section Reading

variable {parse : Utf16 → ParseResult} {pieces pieces' : List Contribution}

theorem summaryLine_congr {piece piece' : Contribution}
    (same : piece.reading parse = piece'.reading parse) :
    summaryLine parse piece = summaryLine parse piece' := by
  simp only [Contribution.reading, Reading.mk.injEq] at same
  obtain ⟨sameId, sameTitle, sameState, sameModel, sameParsed⟩ := same
  simp only [summaryLine, summaryHead, sameId, sameTitle, sameState, sameModel, sameParsed]

/-- A property that the reading settles is the same for pieces read alike. -/
theorem map_congr_reading {Read : Type} (read : Contribution → Read)
    (settled : ∀ piece piece', piece.reading parse = piece'.reading parse →
      read piece = read piece')
    (same : pieces.map (Contribution.reading parse) = pieces'.map (Contribution.reading parse)) :
    pieces.map read = pieces'.map read := by
  induction pieces generalizing pieces' with
  | nil =>
      cases pieces' with
      | nil => rfl
      | cons piece' rest' => simp at same
  | cons piece rest ih =>
      cases pieces' with
      | nil => simp at same
      | cons piece' rest' =>
          simp only [List.map_cons, List.cons.injEq] at same ⊢
          exact ⟨settled piece piece' same.1, ih same.2⟩

theorem byPath_congr
    (same : pieces.map (Contribution.reading parse) = pieces'.map (Contribution.reading parse)) :
    byPath parse pieces = byPath parse pieces' := by
  let read := fun piece : Contribution =>
    (piece.id, (piece.parsed parse).elim [] ParseResult.files)
  have folded : ∀ pieces, byPath parse pieces =
      (pieces.map read).foldl (fun byPath (id, files) => files.foldl (addVersion id) byPath) [] := by
    intro pieces
    rw [List.foldl_map]
    rfl
  rw [folded, folded, map_congr_reading read ?_ same]
  intro piece piece' alike
  simp only [Contribution.reading, Reading.mk.injEq] at alike
  simp only [read, alike]

/-- Synthesis depends on the pieces only through their readings. -/
theorem synthesizePieces_congr (sharedContext : Utf16)
    (same : pieces.map (Contribution.reading parse) = pieces'.map (Contribution.reading parse)) :
    synthesizePieces parse sharedContext pieces = synthesizePieces parse sharedContext pieces' := by
  have lines : pieces.map (summaryLine parse) = pieces'.map (summaryLine parse) :=
    map_congr_reading _ (fun _ _ => summaryLine_congr) same
  have states : pieces.map Contribution.state = pieces'.map Contribution.state :=
    map_congr_reading _ (fun _ _ alike => congrArg Reading.state alike) same
  have counted : ∀ pieces : List Contribution,
      (pieces.filter fun piece => piece.state = some .complete).length =
        (pieces.map Contribution.state).countP (· = some .complete) := by
    intro pieces
    rw [List.countP_map, List.countP_eq_length_filter]
    rfl
  have lengths : pieces.length = pieces'.length := by
    simpa using congrArg List.length same
  simp only [synthesizePieces, buildMarkdownSummary, byPath_congr same, lines, counted, states,
    lengths]

end Reading

theorem mem_of_mem_topoOrder {tasks : List Step} {step : Step} (inside : step ∈ topoOrder tasks) :
    step ∈ tasks := by
  cases List.mem_append.1 inside with
  | inl visited =>
      obtain ⟨id, _, found⟩ := List.mem_filterMap.1 visited
      exact KeyedList.mem_of_get found
  | inr unvisited => exact List.mem_of_mem_filter unvisited

/-- Synthesis depends on the graph only through its shared context and its outline, and on
the entries through the readings of its steps. -/
theorem synthesize_congr {parse : Utf16 → ParseResult} {graph graph' : Graph}
    {entries entries' : Entries} (sameContext : graph.sharedContext = graph'.sharedContext)
    (sameOutline : graph.tasks.map Step.outline = graph'.tasks.map Step.outline)
    (sameReadings : ∀ step ∈ graph.tasks, (contribution entries step).reading parse =
      (contribution entries' step).reading parse) :
    synthesize parse graph entries = synthesize parse graph' entries' := by
  let ofOutline := fun outline : Outline => contribution entries' outline.step
  have outlined : ∀ tasks : List Step,
      tasks.map (contribution entries') = (tasks.map Step.outline).map ofOutline := by
    intro tasks
    rw [List.map_map]
    rfl
  rw [synthesize, synthesize, sameContext]
  apply synthesizePieces_congr
  calc ((topoOrder graph.tasks).map (contribution entries)).map (Contribution.reading parse)
      = ((topoOrder graph.tasks).map (contribution entries')).map (Contribution.reading parse) := by
        rw [List.map_map, List.map_map]
        exact List.map_congr_left fun step inside => sameReadings step (mem_of_mem_topoOrder inside)
    _ = ((topoOrder graph'.tasks).map (contribution entries')).map
          (Contribution.reading parse) := by
        rw [outlined, outlined, outline_topoOrder sameOutline]

end Orchestrator

end TitanRunner
