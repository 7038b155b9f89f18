import TitanRunner.Lib.Acyclic
import TitanRunner.Orchestrator.Decompose

/-!
# What a plan must be like

Well-formed plans, apart from `validateTaskGraph` of `orchestrator/decomposer.js`: every task has an
id of its own and fields that are in order, and what the tasks depend on goes round in no circle.
-/

namespace TitanRunner

namespace Orchestrator

open Utf16
open Acyclicity (Acyclic Circuit)

/-! ## Well-formed plans -/

/-- What `dependsOn` lists. -/
def listed (task : Json) : List Json :=
  ((task.member (ofString "dependsOn")).bind Json.array?).getD []

/-- One id names a task that depends on the other. -/
def DependsOn (tasks : List Json) (id other : StepId) : Prop :=
  ∃ task ∈ tasks, stringMember "id" task = some id ∧ Json.string other ∈ listed task

/-- The ids of a plan. -/
def idsOf (tasks : List Json) : List StepId := tasks.filterMap (stringMember "id")

/-- Everything but the way the tasks depend on each other. -/
structure Shaped (tasks : List Json) (maxTasks : Nat) : Prop where
  nonempty : tasks ≠ []
  few : tasks.length ≤ maxTasks
  named : ∀ task ∈ tasks, ∃ id, stringMember "id" task = some id ∧ Utf16.trim id ≠ []
  distinct : (idsOf tasks).Nodup
  fields : ∀ task ∈ tasks, FieldsFine (idsOf tasks) task

/-- A value that is a well-formed plan. -/
def WellFormed (value : Option Json) (maxTasks : Nat) : Prop :=
  ∃ tasks, value = some (.array tasks) ∧ Shaped tasks maxTasks ∧ Acyclic (DependsOn tasks)

/-- `validateTaskGraph` ends and decides whether a value is a well-formed plan, and `findCycle`
whether the tasks of a plan that is in order otherwise depend on each other in a circle. -/
structure Decides (value : Option Json) (maxTasks : Nat) : Prop where
  judged : ∃ errors, validateTaskGraph (value.bind Json.array?) maxTasks = some errors ∧
    (errors = [] ↔ WellFormed value maxTasks)
  searched : ∀ tasks, value = some (.array tasks) → Shaped tasks maxTasks →
    (findCycle (tasks.map stepOf) = none ↔ Acyclic (DependsOn tasks)) ∧
      ∀ cycle, findCycle (tasks.map stepOf) = some cycle → Circuit (DependsOn tasks) cycle

mutual

/-- No object with a member `toString` is in the value, other than inside an object. -/
def hasText : Json → Bool
  | .array items => haveText items
  | .object members => ((Json.object members).member (ofString "toString")).isNone
  | .null | .bool _ | .number _ | .string _ => true

def haveText : List Json → Bool
  | [] => true
  | item :: rest => hasText item && haveText rest

end

/-- The values a message about a task may quote. -/
def quoted (task : Json) : List Json :=
  (task.member (ofString "aspect")).toList ++
    (task.member (ofString "estimatedComplexity")).toList ++ listed task

/-- Every value a message may quote has a text. -/
def Quotable (value : Option Json) : Prop :=
  ∀ tasks, value = some (.array tasks) → ∀ task ∈ tasks, (stringMember "id" task).isSome = true →
    ∀ item ∈ quoted task, hasText item = true

/-! ## The two loops -/

mutual

theorem isSome_templateText (value : Json) : (templateText value).isSome = hasText value := by
  cases value with
  | null | number | string => rfl
  | bool flag => cases flag <;> rfl
  | array items => rw [templateText, hasText, Option.isSome_map, isSome_itemTexts items]
  | object members =>
      rw [templateText, hasText]
      cases (Json.object members).member (ofString "toString") <;> rfl

theorem isSome_itemTexts (items : List Json) : (itemTexts items).isSome = haveText items := by
  cases items with
  | nil => rfl
  | cons item rest =>
      have later := isSome_itemTexts rest
      cases item with
      | null => rw [itemTexts, haveText, Option.isSome_map, later, hasText, Bool.true_and]
      | bool | number | string | array | object =>
          rw [itemTexts, haveText, ← isSome_templateText, ← later]
          · cases templateText _ <;> simp
          · simp

end

/-- A value that is read as a text. -/
theorem hasText_of_stringMember {name : String} {task value : Json} {text : Utf16}
    (there : stringMember name task = some text) (found : task.member (ofString name) = some value) :
    hasText value = true := by
  rw [stringMember, found] at there
  cases value with
  | string => rfl
  | null | bool | number | array | object => cases there

theorem isSome_memberError {name : String} {allowed : List Utf16} {id : StepId} {task : Json} :
    (memberError name allowed id task).isSome = true ↔
      ∀ value ∈ (task.member (ofString name)).toList, hasText value = true := by
  have quotes : (memberText (task.member (ofString name))).isSome = true ↔
      ∀ value ∈ (task.member (ofString name)).toList, hasText value = true := by
    cases task.member (ofString name) with
    | none => simp [memberText]
    | some value => simp [memberText, isSome_templateText]
  rw [memberError]
  split
  next admitted =>
    cases text : stringMember name task with
    | none => simp [text] at admitted
    | some text =>
        refine iff_of_true rfl fun value found => hasText_of_stringMember text ?_
        simpa using found
  next => rw [Option.isSome_map, quotes]

theorem isSome_mapM {α β : Type} {read : α → Option β} {items : List α} :
    (items.mapM read).isSome = true ↔ ∀ item ∈ items, (read item).isSome = true := by
  induction items with
  | nil => simp
  | cons item rest ih =>
      rw [List.forall_mem_cons, ← ih, List.mapM_cons]
      cases read item with
      | none => simp
      | some first => cases rest.mapM read <;> simp

theorem isSome_dependencyErrors {ids : List StepId} {id : StepId} {task : Json} :
    (dependencyErrors ids id task).isSome = true ↔ ∀ item ∈ listed task, hasText item = true := by
  rw [dependencyErrors, listed]
  cases (task.member (ofString "dependsOn")).bind Json.array? with
  | none => simp
  | some dependencies =>
      simp only [isSome_mapM, Option.isSome_map, isSome_templateText, List.mem_filter,
        Option.getD_some, and_imp]
      refine forall₂_congr fun item _ => ⟨fun quotes => ?_, fun text _ => text⟩
      cases known : names ids item with
      | true =>
          obtain ⟨_, _, rfl⟩ := names_iff.1 known
          rfl
      | false => exact quotes (by simp [known])

theorem isSome_fieldErrors {ids : List StepId} {task : Json} :
    (fieldErrors ids task).isSome = true ↔
      ((stringMember "id" task).isSome = true → ∀ item ∈ quoted task, hasText item = true) := by
  rw [fieldErrors, draftId]
  cases stringMember "id" task with
  | none => simp
  | some id =>
      dsimp only
      rw [quoted, List.forall_mem_append, List.forall_mem_append,
        ← @isSome_memberError "aspect" aspectCategories id task,
        ← @isSome_memberError "estimatedComplexity" complexityLevels id task,
        ← @isSome_dependencyErrors ids id task]
      cases memberError "aspect" aspectCategories id task with
      | none => simp
      | some aspect =>
          cases memberError "estimatedComplexity" complexityLevels id task with
          | none => simp
          | some complexity => cases dependencyErrors ids id task <;> simp

theorem isSome_validateTaskGraph {tasks : List Json} {maxTasks : Nat} :
    (validateTaskGraph (some tasks) maxTasks).isSome = true ↔
      ∀ task ∈ tasks, (stringMember "id" task).isSome = true →
        ∀ item ∈ quoted task, hasText item = true := by
  cases tasks with
  | nil => simp [validateTaskGraph]
  | cons task rest =>
      rw [validateTaskGraph, Option.isSome_map, shapeErrors, Option.isSome_map, isSome_mapM]
      · exact forall₂_congr fun _ _ => isSome_fieldErrors
      · simp

/-! ## Plans that are accepted -/

/-- The first loop finds every id, and none twice. -/
theorem idErrors_nil_iff {tasks : List Json} {seen : List StepId} :
    idErrors tasks seen = [] ↔
      (∀ task ∈ tasks, ∃ id, stringMember "id" task = some id ∧ Utf16.trim id ≠ []) ∧
        (idsOf tasks).Nodup ∧ ∀ id ∈ idsOf tasks, id ∉ seen := by
  induction tasks generalizing seen with
  | nil => simp [idErrors, idsOf]
  | cons task rest ih =>
      rw [idErrors, draftId, List.forall_mem_cons, idsOf]
      cases named : stringMember "id" task with
      | none => simp
      | some id =>
          rw [List.filterMap_cons_some named, List.nodup_cons, List.forall_mem_cons]
          by_cases blank : Utf16.trim id = []
          · simp [blank]
          · by_cases again : id ∈ seen
            · simp [blank, again]
            · simp only [blank, again, List.isEmpty_iff, if_false, ih, List.mem_append,
                List.mem_singleton, not_or, Option.some.injEq, ne_eq, exists_eq_left', true_and,
                not_false_eq_true]
              constructor
              · rintro ⟨allNamed, distinct, apart⟩
                exact ⟨allNamed, ⟨fun twice => (apart id twice).2 rfl, distinct⟩,
                  fun other inside => (apart other inside).1⟩
              · rintro ⟨allNamed, ⟨once, distinct⟩, apart⟩
                exact ⟨allNamed, distinct, fun other inside =>
                  ⟨apart other inside, fun same => once (same ▸ inside)⟩⟩

/-- Where every task has an id, the ids are those of the steps. -/
theorem ids_of_named {tasks : List Json}
    (named : ∀ task ∈ tasks, ∃ id, stringMember "id" task = some id ∧ Utf16.trim id ≠ []) :
    (tasks.map stepOf).map Step.id = idsOf tasks ∧ draftIds tasks = idsOf tasks := by
  induction tasks with
  | nil => exact ⟨rfl, rfl⟩
  | cons task rest ih =>
      obtain ⟨⟨id, own, solid⟩, later⟩ := List.forall_mem_cons.1 named
      obtain ⟨steps, drafts⟩ := ih later
      have draft : (draftId task).filter (fun id => !(Utf16.trim id).isEmpty) = some id := by
        rw [draftId, own, Option.filter_some, if_pos (by simpa using solid)]
      rw [idsOf, List.filterMap_cons_some own]
      constructor
      · rw [List.map_cons, List.map_cons, stepOf, own, Option.getD_some]
        exact congrArg (id :: ·) steps
      · exact (List.filterMap_cons_some (f := fun task =>
          (draftId task).filter fun id => !(Utf16.trim id).isEmpty) draft).trans
          (congrArg (id :: ·) drafts)

theorem shapeErrors_nil_iff_shaped {tasks : List Json} {maxTasks : Nat} (some' : tasks ≠ []) :
    shapeErrors tasks maxTasks = some [] ↔ Shaped tasks maxTasks := by
  rw [shapeErrors_nil_iff, idErrors_nil_iff]
  constructor
  · rintro ⟨few, ⟨named, distinct, _⟩, fields⟩
    refine ⟨some', few, named, distinct, fun task inside => ?_⟩
    obtain ⟨id, own, _⟩ := named task inside
    rw [← (ids_of_named named).2]
    exact (fieldErrors_nil_iff own).1 (fields task inside)
  · intro shaped
    refine ⟨shaped.few, ⟨shaped.named, shaped.distinct, by simp⟩, fun task inside => ?_⟩
    obtain ⟨id, own, _⟩ := shaped.named task inside
    rw [(ids_of_named shaped.named).2]
    exact (fieldErrors_nil_iff own).2 (shaped.fields task inside)

section Shaped

variable {tasks : List Json} {maxTasks : Nat}

theorem Shaped.distinctSteps (shaped : Shaped tasks maxTasks) :
    ((tasks.map stepOf).map Step.id).Nodup :=
  (ids_of_named shaped.named).1 ▸ shaped.distinct

theorem Shaped.known (shaped : Shaped tasks maxTasks) :
    ∀ step ∈ tasks.map stepOf, ∀ dependency ∈ step.dependsOn,
      dependency ∈ (tasks.map stepOf).map Step.id := by
  intro step inside
  obtain ⟨task, there, rfl⟩ := List.mem_map.1 inside
  rw [(ids_of_named shaped.named).1]
  exact (shaped.fields task there).known

/-- The steps a step depends on are those its task lists. -/
theorem Shaped.dependsOn_iff (shaped : Shaped tasks maxTasks) {id other : StepId} :
    DependsOn tasks id other ↔ other ∈ dependenciesOf (tasks.map stepOf) id := by
  have steps (task : Json) : other ∈ (stepOf task).dependsOn ↔ Json.string other ∈ listed task := by
    rw [stepOf, listed, List.mem_filterMap]
    constructor
    · rintro ⟨value, inside, text⟩
      cases value with
      | string => exact Option.some.inj text ▸ inside
      | null | bool | number | array | object => cases text
    · exact fun inside => ⟨.string other, inside, rfl⟩
  have own (task : Json) (inside : task ∈ tasks) :
      stringMember "id" task = some (stepOf task).id := by
    obtain ⟨id, named, _⟩ := shaped.named task inside
    rw [stepOf, named, Option.getD_some]
  constructor
  · rintro ⟨task, inside, named, depends⟩
    obtain rfl := Option.some.inj ((own task inside).symm.trans named)
    rw [dependenciesOf_of_mem shaped.distinctSteps (List.mem_map_of_mem inside)]
    exact (steps task).2 depends
  · intro depends
    rw [dependenciesOf] at depends
    cases found : KeyedList.get Step.id (tasks.map stepOf) id with
    | none => simp [found] at depends
    | some step =>
        obtain ⟨there, same⟩ := (KeyedList.get_eq_some_iff shaped.distinctSteps).1 found
        obtain ⟨task, inside, rfl⟩ := List.mem_map.1 there
        rw [found] at depends
        exact ⟨task, inside, same ▸ own task inside, (steps task).1 depends⟩

/-- No circle is found only where there is none. -/
theorem Shaped.acyclic (shaped : Shaped tasks maxTasks)
    (none' : findCycle (tasks.map stepOf) = none) : Acyclic (DependsOn tasks) := by
  obtain ⟨rank, falls⟩ := rank_of_findCycle shaped.distinctSteps shaped.known none'
  apply Acyclicity.acyclic_of_rank rank
  rintro id other ⟨task, inside, named, depends⟩
  have step := List.mem_map_of_mem (f := stepOf) inside
  have edge := shaped.dependsOn_iff.1 ⟨task, inside, named, depends⟩
  have same : (stepOf task).id = id := by rw [stepOf, named, Option.getD_some]
  rw [← same, dependenciesOf_of_mem shaped.distinctSteps step] at edge
  exact same ▸ falls _ step other edge

/-- What is found is a circle. -/
theorem Shaped.circuit (shaped : Shaped tasks maxTasks) {cycle : List StepId}
    (found : findCycle (tasks.map stepOf) = some cycle) : Circuit (DependsOn tasks) cycle := by
  rw [findCycle] at found
  split at found
  next closed =>
    cases found
    obtain ⟨long, back, chained⟩ := DepthFirst.search_closed closed
    exact ⟨long, back, chained.imp fun _ _ => shaped.dependsOn_iff.2⟩
  next => contradiction

theorem Shaped.findCycle_none_iff (shaped : Shaped tasks maxTasks) :
    findCycle (tasks.map stepOf) = none ↔ Acyclic (DependsOn tasks) := by
  refine ⟨shaped.acyclic, fun acyclic => ?_⟩
  cases found : findCycle (tasks.map stepOf) with
  | none => rfl
  | some cycle => exact absurd acyclic (shaped.circuit found).not_acyclic

end Shaped

/-- A plan is accepted exactly where it is well-formed. -/
theorem validateTaskGraph_nil_iff_wellFormed {value : Option Json} {maxTasks : Nat} :
    validateTaskGraph (value.bind Json.array?) maxTasks = some [] ↔ WellFormed value maxTasks := by
  have noList (none' : value.bind Json.array? = none) :
      validateTaskGraph (value.bind Json.array?) maxTasks = some [] ↔
        WellFormed value maxTasks := by
    rw [none', validateTaskGraph]
    refine iff_of_false (by simp) ?_
    rintro ⟨tasks, rfl, _⟩
    cases none'
  cases value with
  | none => exact noList rfl
  | some value =>
      cases value with
      | null | bool | number | string | object => exact noList rfl
      | array tasks =>
          have read : (some (Json.array tasks)).bind Json.array? = some tasks := rfl
          rw [read, validateTaskGraph_nil_iff]
          constructor
          · rintro ⟨some', shape, acyclic⟩
            have shaped := (shapeErrors_nil_iff_shaped some').1 shape
            exact ⟨tasks, rfl, shaped, shaped.acyclic acyclic⟩
          · rintro ⟨_, same, shaped, acyclic⟩
            cases same
            exact ⟨shaped.nonempty, (shapeErrors_nil_iff_shaped shaped.nonempty).2 shaped,
              shaped.findCycle_none_iff.2 acyclic⟩

/-- `validateTaskGraph` decides what a well-formed plan is exactly where each value its messages
may quote has a text: an object with a member `toString` makes it throw. -/
theorem validateTaskGraph_decides_iff (value : Option Json) (maxTasks : Nat) :
    Decides value maxTasks ↔ Quotable value := by
  constructor
  · rintro ⟨⟨errors, ended, _⟩, _⟩ tasks rfl
    exact isSome_validateTaskGraph.1 (Option.isSome_iff_exists.2 ⟨errors, ended⟩)
  · intro quotable
    have ends : (validateTaskGraph (value.bind Json.array?) maxTasks).isSome = true := by
      cases given : value.bind Json.array? with
      | none => rfl
      | some tasks =>
          obtain ⟨value', rfl, list⟩ := Option.bind_eq_some_iff.1 given
          cases value' with
          | array => exact isSome_validateTaskGraph.2 (quotable tasks (by cases list; rfl))
          | null | bool | number | string | object => cases list
    obtain ⟨errors, ended⟩ := Option.isSome_iff_exists.1 ends
    refine ⟨⟨errors, ended, ?_⟩, fun tasks _ shaped =>
      ⟨shaped.findCycle_none_iff, fun _ => shaped.circuit⟩⟩
    rw [← validateTaskGraph_nil_iff_wellFormed, ended, Option.some.injEq]

section Example

/-- A task whose aspect is an object with a member `toString`. -/
def unquotable : Json :=
  .array [.object [(ofString "id", .string (ofString "a")),
    (ofString "aspect", .object [(ofString "toString", .null)])]]

theorem not_decides : ¬ ∀ value maxTasks, Decides value maxTasks := by
  intro decides
  obtain ⟨errors, ended, _⟩ := (decides (some unquotable) 8).judged
  have threw : validateTaskGraph ((some unquotable).bind Json.array?) 8 = none := by decide
  cases threw.symm.trans ended

end Example

end Orchestrator

end TitanRunner
