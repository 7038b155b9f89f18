import TitanRunner.Lib.DepthFirst
import TitanRunner.Lib.Json
import TitanRunner.Orchestrator.Graph

/-!
# Plans

`orchestrator/decomposer.js`: what a plan that a model wrote must be like before the
scheduler is given it.
-/

namespace TitanRunner

namespace Orchestrator

open Utf16

/-- `ASPECT_CATEGORIES`. -/
def aspectCategories : List Utf16 :=
  ["architecture", "code-generation", "refactoring", "testing", "debugging", "documentation",
    "security-review", "performance", "data-modeling", "devops", "ui-implementation",
    "research"].map ofString

/-- `COMPLEXITY_LEVELS`. -/
def complexityLevels : List Utf16 := ["low", "medium", "high"].map ofString

mutual

/-- A value in a template literal.  A number stands as it was written.  An object with a member
`toString`, which hides what every object inherits, has no text: a template literal throws. -/
def templateText : Json → Option Utf16
  | .null => some (ofString "null")
  | .bool true => some (ofString "true")
  | .bool false => some (ofString "false")
  | .number text => some text
  | .string text => some text
  | .array items => (itemTexts items).map (join (ofString ","))
  | .object members =>
      if ((Json.object members).member (ofString "toString")).isSome then none
      else some (ofString "[object Object]")

/-- The elements of an array in a template literal. -/
def itemTexts : List Json → Option (List Utf16)
  | [] => some []
  | .null :: rest => (itemTexts rest).map ([] :: ·)
  | item :: rest => (templateText item).bind fun text => (itemTexts rest).map (text :: ·)

end

/-- A member that may be missing, in a template literal. -/
def memberText (value : Option Json) : Option Utf16 :=
  match value with
  | none => some (ofString "undefined")
  | some value => templateText value

/-- A member that is a string. -/
def stringMember (name : String) (task : Json) : Option Utf16 :=
  (task.member (ofString name)).bind Json.string?

/-- `t.id`, of a task that is an object with a string `id`. -/
def draftId (task : Json) : Option StepId := stringMember "id" task

/-- The first loop: every task has an id that is not blank, and none twice. -/
def idErrors : List Json → List StepId → List Utf16
  | [], _ => []
  | task :: rest, ids =>
      match draftId task with
      | none => ofString "every task needs a non-empty string \"id\"" :: idErrors rest ids
      | some id =>
          if (Utf16.trim id).isEmpty then
            ofString "every task needs a non-empty string \"id\"" :: idErrors rest ids
          else if id ∈ ids then
            (ofString "duplicate task id \"" ++ id ++ ofString "\"") :: idErrors rest (ids ++ [id])
          else idErrors rest (ids ++ [id])

/-- The set of ids the first loop leaves. -/
def draftIds (tasks : List Json) : List StepId :=
  tasks.filterMap fun task => (draftId task).filter fun id => !(Utf16.trim id).isEmpty

/-- `task "<id>"`. -/
def taskLabel (id : StepId) : Utf16 := ofString "task \"" ++ id ++ ofString "\""

/-- A member that must be one of a list. -/
def memberError (name : String) (allowed : List Utf16) (id : StepId) (task : Json) :
    Option (List Utf16) :=
  if (stringMember name task).any fun text => text ∈ allowed then some []
  else
    (memberText (task.member (ofString name))).map fun text =>
      [taskLabel id ++ ofString (" has an invalid \"" ++ name ++ "\": \"") ++ text ++
        ofString "\""]

/-- A member that must be a text that is not blank. -/
def textError (name : String) (id : StepId) (task : Json) : List Utf16 :=
  if (stringMember name task).any fun text => !(Utf16.trim text).isEmpty then []
  else [taskLabel id ++ ofString (" needs a non-empty \"" ++ name ++ "\"")]

/-- `ids.has(dep)` -/
def names (ids : List StepId) (dependency : Json) : Bool :=
  dependency.string?.any fun dependency => dependency ∈ ids

def dependencyErrors (ids : List StepId) (id : StepId) (task : Json) : Option (List Utf16) :=
  match (task.member (ofString "dependsOn")).bind Json.array? with
  | none =>
      some [taskLabel id ++ ofString " needs \"dependsOn\" to be an array (use [] for none)"]
  | some dependencies =>
      (dependencies.filter fun dependency => !names ids dependency).mapM fun dependency =>
        (templateText dependency).map fun text =>
          taskLabel id ++ ofString " depends on unknown id \"" ++ text ++ ofString "\""

/-- The second loop, which throws where a message does. -/
def fieldErrors (ids : List StepId) (task : Json) : Option (List Utf16) :=
  match draftId task with
  | none => some []
  | some id => do
      let aspect ← memberError "aspect" aspectCategories id task
      let complexity ← memberError "estimatedComplexity" complexityLevels id task
      let dependencies ← dependencyErrors ids id task
      some (aspect ++ complexity ++ textError "title" id task ++ textError "description" id task ++
        textError "deliverable" id task ++ dependencies)

/-- A task of an accepted plan. -/
def stepOf (task : Json) : Step where
  id := (stringMember "id" task).getD []
  title := (stringMember "title" task).getD []
  aspect := (stringMember "aspect" task).getD []
  description := (stringMember "description" task).getD []
  dependsOn := (((task.member (ofString "dependsOn")).bind Json.array?).getD []).filterMap
    Json.string?
  deliverable := (stringMember "deliverable" task).getD []

/-- `byId.get(id)?.dependsOn ?? []`. -/
def dependenciesOf (tasks : List Step) (id : StepId) : List StepId :=
  ((KeyedList.get Step.id tasks id).map Step.dependsOn).getD []

/-- `findCycle`. -/
def findCycle (tasks : List Step) : Option (List StepId) :=
  match DepthFirst.search (dependenciesOf tasks) (tasks.map Step.id) with
  | .error cycle => some cycle
  | .ok _ => none

/-- The errors found before the search for a cycle. -/
def shapeErrors (tasks : List Json) (maxTasks : Nat) : Option (List Utf16) :=
  (tasks.mapM (fieldErrors (draftIds tasks))).map fun fields =>
    (if maxTasks < tasks.length then
        [ofString "graph has " ++ ofNat tasks.length ++
          ofString " tasks, which exceeds maxTasks=" ++ ofNat maxTasks]
      else []) ++
      idErrors tasks [] ++ fields.flatten

/-- The `errors` of `validateTaskGraph`, which accepts when there are none; `none` where it
throws.  Of the tasks, `none` is a value that is no array. -/
def validateTaskGraph (tasks : Option (List Json)) (maxTasks : Nat) : Option (List Utf16) :=
  match tasks with
  | none | some [] => some [ofString "\"tasks\" must be a non-empty array"]
  | some tasks =>
      (shapeErrors tasks maxTasks).map fun errors =>
        if errors = [] then
          match findCycle (tasks.map stepOf) with
          | none => []
          | some cycle => [ofString "dependency cycle detected: " ++ join (ofString " -> ") cycle]
        else errors

/-- A graph that can be run: every step has its own id, depends on steps of the graph, and
comes after them in some order. -/
structure Valid (tasks : List Step) : Prop where
  nonempty : tasks ≠ []
  distinct : (tasks.map Step.id).Nodup
  known : ∀ step ∈ tasks, ∀ dependency ∈ step.dependsOn, dependency ∈ tasks.map Step.id
  ranked : ∃ rank : StepId → Nat, ∀ step ∈ tasks, ∀ dependency ∈ step.dependsOn,
    rank dependency < rank step.id

theorem idErrors_cons {task : Json} {rest : List Json} {seen : List StepId}
    (accepted : idErrors (task :: rest) seen = []) :
    ∃ id, draftId task = some id ∧ (Utf16.trim id).isEmpty = false ∧ id ∉ seen ∧
      idErrors rest (seen ++ [id]) = [] := by
  simp only [idErrors] at accepted
  split at accepted
  next => contradiction
  next id named =>
    split at accepted
    next => contradiction
    next solid =>
      split at accepted
      next => contradiction
      next fresh => exact ⟨id, named, by simpa using solid, fresh, accepted⟩

/-- Without an error of the first loop every task has an id, and the ids are those of the
steps, each once. -/
theorem draftIds_of_idErrors {tasks : List Json} {seen : List StepId}
    (accepted : idErrors tasks seen = []) :
    (∀ task ∈ tasks, (draftId task).isSome = true) ∧
      draftIds tasks = (tasks.map stepOf).map Step.id ∧ (draftIds tasks).Nodup ∧
      ∀ id ∈ draftIds tasks, id ∉ seen := by
  induction tasks generalizing seen with
  | nil => simp [draftIds]
  | cons task rest ih =>
      have ⟨id, named, solid, fresh, restFine⟩ := idErrors_cons accepted
      have ⟨allNamed, same, distinct, apart⟩ := ih restFine
      have first : draftIds (task :: rest) = id :: draftIds rest := by
        apply List.filterMap_cons_some
        rw [named, Option.filter_some, if_pos (by simpa using solid)]
      have stepId : (stepOf task).id = id := by
        change (draftId task).getD [] = id
        rw [named, Option.getD_some]
      rw [first]
      refine ⟨?_, ?_, ?_, ?_⟩
      · intro other inside
        cases List.mem_cons.1 inside with
        | inl here => simp [here, named]
        | inr later => exact allNamed other later
      · rw [List.map_cons, List.map_cons, stepId, same]
      · apply List.nodup_cons.2 ⟨_, distinct⟩
        intro again
        exact apart id again (by simp)
      · intro other inside
        cases List.mem_cons.1 inside with
        | inl here => exact here ▸ fresh
        | inr later =>
            intro before
            exact apart other later (by simp [before])

theorem memberError_nil_iff {name : String} {allowed : List Utf16} {id : StepId} {task : Json} :
    memberError name allowed id task = some [] ↔
      ∃ text ∈ allowed, stringMember name task = some text := by
  rw [memberError]
  cases stringMember name task with
  | none => simp
  | some text =>
      by_cases inside : text ∈ allowed
      · simp [inside]
      · simp [inside]

theorem textError_nil_iff {name : String} {id : StepId} {task : Json} :
    textError name id task = [] ↔
      ∃ text, stringMember name task = some text ∧ Utf16.trim text ≠ [] := by
  rw [textError]
  cases stringMember name task with
  | none => simp
  | some text =>
      by_cases blank : Utf16.trim text = []
      · simp [blank]
      · simp [blank]

/-- A list that is read one by one is read as no items only where it has none. -/
theorem mapM_nil_iff {α β : Type} {read : α → Option β} {items : List α} :
    items.mapM read = some [] ↔ items = [] := by
  cases items with
  | nil => simp
  | cons item rest => simp [List.mapM_cons, Option.bind_eq_some_iff]

theorem names_iff {ids : List StepId} {dependency : Json} :
    names ids dependency = true ↔ ∃ id ∈ ids, dependency = .string id := by
  cases dependency with
  | string text => simp [names, Json.string?]
  | null | bool | number | array | object => simp [names, Json.string?]

theorem dependencyErrors_nil_iff {ids : List StepId} {id : StepId} {task : Json} :
    dependencyErrors ids id task = some [] ↔
      ∃ dependencies, (task.member (ofString "dependsOn")).bind Json.array? = some dependencies ∧
        ∀ dependency ∈ dependencies, ∃ id ∈ ids, dependency = .string id := by
  rw [dependencyErrors]
  cases (task.member (ofString "dependsOn")).bind Json.array? with
  | none => simp
  | some dependencies =>
      simp only [mapM_nil_iff, List.filter_eq_nil_iff, Bool.not_eq_true', Bool.not_eq_false,
        names_iff, Option.some.injEq, exists_eq_left']

/-- What the second loop asks of a task. -/
structure FieldsFine (ids : List StepId) (task : Json) : Prop where
  aspect : ∃ text ∈ aspectCategories, stringMember "aspect" task = some text
  estimatedComplexity : ∃ text ∈ complexityLevels,
    stringMember "estimatedComplexity" task = some text
  title : ∃ text, stringMember "title" task = some text ∧ Utf16.trim text ≠ []
  description : ∃ text, stringMember "description" task = some text ∧ Utf16.trim text ≠ []
  deliverable : ∃ text, stringMember "deliverable" task = some text ∧ Utf16.trim text ≠ []
  dependsOn : ∃ dependencies,
    (task.member (ofString "dependsOn")).bind Json.array? = some dependencies ∧
      ∀ dependency ∈ dependencies, ∃ id ∈ ids, dependency = .string id

theorem fieldErrors_nil_iff {ids : List StepId} {task : Json} {id : StepId}
    (named : draftId task = some id) :
    fieldErrors ids task = some [] ↔ FieldsFine ids task := by
  simp only [fieldErrors, named, Option.bind_eq_bind, Option.bind_eq_some_iff, Option.some.injEq,
    List.append_eq_nil_iff]
  constructor
  · rintro ⟨aspect, aspects, complexity, complexities, dependencies, depends,
      ⟨⟨⟨⟨rfl, rfl⟩, title⟩, description⟩, deliverable⟩, rfl⟩
    exact {
      aspect := memberError_nil_iff.1 aspects
      estimatedComplexity := memberError_nil_iff.1 complexities
      title := textError_nil_iff.1 title
      description := textError_nil_iff.1 description
      deliverable := textError_nil_iff.1 deliverable
      dependsOn := dependencyErrors_nil_iff.1 depends }
  · intro fine
    exact ⟨[], memberError_nil_iff.2 fine.aspect, [],
      memberError_nil_iff.2 fine.estimatedComplexity, [],
      dependencyErrors_nil_iff.2 fine.dependsOn,
      ⟨⟨⟨⟨rfl, rfl⟩, textError_nil_iff.2 fine.title⟩, textError_nil_iff.2 fine.description⟩,
        textError_nil_iff.2 fine.deliverable⟩, rfl⟩

/-- The steps a task depends on, where it is fine, are known. -/
theorem FieldsFine.known {ids : List StepId} {task : Json} (fine : FieldsFine ids task) :
    ∀ dependency ∈ (stepOf task).dependsOn, dependency ∈ ids := by
  obtain ⟨values, listed, each⟩ := fine.dependsOn
  intro dependency inside
  simp only [stepOf, listed, Option.getD_some, List.mem_filterMap] at inside
  obtain ⟨value, member, text⟩ := inside
  obtain ⟨id, there, rfl⟩ := each value member
  exact Option.some.inj text ▸ there

/-- Lists of errors are read as none at all only where each is read as none. -/
theorem mapM_flatten_nil_iff {α β : Type} {read : α → Option (List β)} {items : List α} :
    (∃ lists, items.mapM read = some lists ∧ lists.flatten = []) ↔
      ∀ item ∈ items, read item = some [] := by
  induction items with
  | nil => simp
  | cons item rest ih =>
      rw [List.forall_mem_cons, ← ih]
      simp only [List.mapM_cons, Option.bind_eq_bind, Option.bind_eq_some_iff, Option.pure_def,
        Option.some.injEq]
      constructor
      · rintro ⟨_, ⟨first, here, later, there, rfl⟩, clean⟩
        rw [List.flatten_cons, List.append_eq_nil_iff] at clean
        exact ⟨clean.1 ▸ here, later, there, clean.2⟩
      · rintro ⟨here, later, there, clean⟩
        exact ⟨[] :: later, ⟨[], here, later, there, rfl⟩, by simpa using clean⟩

theorem shapeErrors_nil_iff {tasks : List Json} {maxTasks : Nat} :
    shapeErrors tasks maxTasks = some [] ↔ tasks.length ≤ maxTasks ∧ idErrors tasks [] = [] ∧
      ∀ task ∈ tasks, fieldErrors (draftIds tasks) task = some [] := by
  have few : (if maxTasks < tasks.length then
      [ofString "graph has " ++ ofNat tasks.length ++
        ofString " tasks, which exceeds maxTasks=" ++ ofNat maxTasks]
      else []) = [] ↔ tasks.length ≤ maxTasks := by
    split
    next many => simpa using many
    next fits => simpa using fits
  rw [← mapM_flatten_nil_iff, shapeErrors, Option.map_eq_some_iff]
  simp only [List.append_eq_nil_iff, few, and_assoc]
  constructor
  · rintro ⟨lists, read, fits, ids, clean⟩
    exact ⟨fits, ids, lists, read, clean⟩
  · rintro ⟨fits, ids, lists, read, clean⟩
    exact ⟨lists, read, fits, ids, clean⟩

theorem dependenciesOf_of_mem {tasks : List Step} (distinct : (tasks.map Step.id).Nodup)
    {step : Step} (inside : step ∈ tasks) : dependenciesOf tasks step.id = step.dependsOn := by
  rw [dependenciesOf, (KeyedList.get_eq_some_iff distinct).2 ⟨inside, rfl⟩]
  rfl

/-- A graph without a cycle has a rank that falls from a step to its dependencies. -/
theorem rank_of_findCycle {tasks : List Step} (distinct : (tasks.map Step.id).Nodup)
    (known : ∀ step ∈ tasks, ∀ dependency ∈ step.dependsOn, dependency ∈ tasks.map Step.id)
    (acyclic : findCycle tasks = none) :
    ∃ rank : StepId → Nat, ∀ step ∈ tasks, ∀ dependency ∈ step.dependsOn,
      rank dependency < rank step.id := by
  simp only [findCycle] at acyclic
  split at acyclic
  next => contradiction
  next order searched =>
    have ⟨rank, falls⟩ := DepthFirst.search_rank searched
    refine ⟨rank, fun step inside dependency depends => ?_⟩
    apply falls step.id (List.mem_map_of_mem inside) dependency
    · rwa [dependenciesOf_of_mem distinct inside]
    · exact known step inside dependency depends

/-- What is accepted has no error of either loop, and no cycle. -/
theorem validateTaskGraph_nil_iff {tasks : List Json} {maxTasks : Nat} :
    validateTaskGraph (some tasks) maxTasks = some [] ↔
      tasks ≠ [] ∧ shapeErrors tasks maxTasks = some [] ∧ findCycle (tasks.map stepOf) = none := by
  cases tasks with
  | nil => simp [validateTaskGraph]
  | cons task rest =>
      rw [validateTaskGraph, Option.map_eq_some_iff]
      · constructor
        · rintro ⟨errors, shape, none'⟩
          split at none'
          next clean =>
            split at none'
            next acyclic => exact ⟨by simp, clean ▸ shape, acyclic⟩
            next => contradiction
          next faulty => exact absurd none' faulty
        · rintro ⟨_, shape, acyclic⟩
          refine ⟨[], shape, ?_⟩
          rw [if_pos rfl, acyclic]
      · simp

/-- A graph that is accepted can be run. -/
theorem valid_of_validateTaskGraph {tasks : List Json} {maxTasks : Nat}
    (accepted : validateTaskGraph (some tasks) maxTasks = some []) : Valid (tasks.map stepOf) := by
  obtain ⟨some', shape, acyclic⟩ := validateTaskGraph_nil_iff.1 accepted
  obtain ⟨_, idsFine, fieldsFine⟩ := shapeErrors_nil_iff.1 shape
  have ⟨allNamed, same, distinct, _⟩ := draftIds_of_idErrors idsFine
  rw [same] at distinct
  have known : ∀ step ∈ tasks.map stepOf, ∀ dependency ∈ step.dependsOn,
      dependency ∈ (tasks.map stepOf).map Step.id := by
    intro step inside dependency depends
    have ⟨draft, member, made⟩ := List.mem_map.1 inside
    rw [← same]
    subst made
    have ⟨_, named⟩ := Option.isSome_iff_exists.1 (allNamed draft member)
    exact ((fieldErrors_nil_iff named).1 (fieldsFine draft member)).known dependency depends
  exact ⟨by simpa using some', distinct, known, rank_of_findCycle distinct known acyclic⟩

end Orchestrator

end TitanRunner
