import TitanRunner.Orchestrator.Decompose
import TitanRunner.Orchestrator.Synthesizer

/-!
# The order of the steps

`topoOrder` on the graphs that `validateTaskGraph` accepts.  The degree of a step counts its
dependencies as they are listed, and falls by one for each that is visited.  A step that lists
one of them twice never gets to zero: the queue does not reach it, nor what depends on it, and
these steps are appended in the order of the graph.
-/

namespace TitanRunner

namespace Orchestrator

open DepthFirst (Topological)
open Utf16

/-- Every step comes after all its dependencies. -/
def InOrder (steps : List Step) : Prop :=
  ∀ front step back, steps = front ++ step :: back →
    ∀ dependency ∈ step.dependsOn, dependency ∈ front.map Step.id

/-- The steps the queue does not reach: one that lists a dependency twice, and one that depends
on such a step, directly or not. -/
inductive HeldBack (tasks : List Step) : StepId → Prop where
  | repeats {step : Step} : step ∈ tasks → ¬ step.dependsOn.Nodup → HeldBack tasks step.id
  | behind {step : Step} {dependency : StepId} :
      step ∈ tasks → dependency ∈ step.dependsOn → HeldBack tasks dependency →
      HeldBack tasks step.id

/-- The graph lists a step that is held back after those of its dependencies that are. -/
def HeldInOrder (tasks : List Step) : Prop :=
  ∀ front step back, tasks = front ++ step :: back → HeldBack tasks step.id →
    ∀ dependency ∈ step.dependsOn, HeldBack tasks dependency → dependency ∈ front.map Step.id

/-! ## Degrees -/

/-- `indegree.get(id) ?? 0` -/
def degreeOf (indegree : List (StepId × Int)) (id : StepId) : Int :=
  ((KeyedList.get Prod.fst indegree id).map Prod.snd).getD 0

theorem degreeOf_insert (indegree : List (StepId × Int)) (id other : StepId) (degree : Int) :
    degreeOf (KeyedList.insert Prod.fst indegree (id, degree)) other =
      if other = id then degree else degreeOf indegree other := by
  rw [degreeOf, KeyedList.get_insert]
  split <;> rfl

section Count

variable {weight : Step → Int} {steps : List Step}

/-- The first loop adds to the degree of each step what the step weighs. -/
def count (weight : Step → Int) (indegree : List (StepId × Int)) (step : Step) :
    List (StepId × Int) :=
  KeyedList.insert Prod.fst indegree (step.id, weight step + degreeOf indegree step.id)

theorem degreeOf_count_of_notMem {id : StepId} (absent : id ∉ steps.map Step.id)
    (indegree : List (StepId × Int)) :
    degreeOf (steps.foldl (count weight) indegree) id = degreeOf indegree id := by
  induction steps generalizing indegree with
  | nil => rfl
  | cons first rest ih =>
      simp only [List.map_cons, List.mem_cons, not_or] at absent
      rw [List.foldl_cons, ih absent.2, count, degreeOf_insert, if_neg absent.1]

theorem degreeOf_count (distinct : (steps.map Step.id).Nodup) {step : Step} (inside : step ∈ steps)
    (indegree : List (StepId × Int)) :
    degreeOf (steps.foldl (count weight) indegree) step.id =
      weight step + degreeOf indegree step.id := by
  induction steps generalizing indegree with
  | nil => contradiction
  | cons first rest ih =>
      obtain ⟨apart, distinct'⟩ := List.nodup_cons.1 distinct
      rw [List.foldl_cons]
      cases List.mem_cons.1 inside with
      | inl here =>
          subst here
          rw [degreeOf_count_of_notMem apart, count, degreeOf_insert, if_pos rfl]
      | inr later =>
          have other : step.id ≠ first.id := fun same => apart (same ▸ List.mem_map_of_mem later)
          rw [ih distinct' later, count, degreeOf_insert, if_neg other]

end Count

/-- What the visit of a step does to a step of the graph: the degree of one that depends on it
falls, and at zero it is queued. -/
def release (visited : StepId) (loop : List (StepId × Int) × List StepId) (step : Step) :
    List (StepId × Int) × List StepId :=
  if visited ∈ step.dependsOn then
    (KeyedList.insert Prod.fst loop.1 (step.id, degreeOf loop.1 step.id - 1),
      if degreeOf loop.1 step.id - 1 = 0 then loop.2 ++ [step.id] else loop.2)
  else loop

/-- A round of the loop. -/
theorem topoVisit_cons {tasks : List Step} {visited : List StepId} {id : StepId}
    (fresh : id ∉ visited) (fuel : Nat) (indegree : List (StepId × Int)) (queue : List StepId) :
    topoVisit tasks (fuel + 1) indegree (id :: queue) visited =
      topoVisit tasks fuel (tasks.foldl (release id) (indegree, queue)).1
        (tasks.foldl (release id) (indegree, queue)).2 (visited ++ [id]) := by
  rw [topoVisit, if_neg fresh]
  rfl

section Release

variable {steps : List Step} {id : StepId}

theorem degreeOf_release (indegree : List (StepId × Int)) (queue : List StepId) (step : Step)
    (other : StepId) : degreeOf (release id (indegree, queue) step).1 other =
      degreeOf indegree other - if step.id = other ∧ id ∈ step.dependsOn then 1 else 0 := by
  by_cases depends : id ∈ step.dependsOn
  · rw [release, if_pos depends, degreeOf_insert]
    by_cases same : other = step.id
    · rw [if_pos same, if_pos ⟨same.symm, depends⟩, same]
    · rw [if_neg same, if_neg (fun both => same both.1.symm), Int.sub_zero]
  · rw [release, if_neg depends, if_neg (fun both => depends both.2), Int.sub_zero]

/-- A round takes one from the degree of each step that depends on the visited one. -/
theorem degreeOf_foldl_release (distinct : (steps.map Step.id).Nodup)
    (indegree : List (StepId × Int)) (queue : List StepId) {step : Step} (inside : step ∈ steps) :
    degreeOf (steps.foldl (release id) (indegree, queue)).1 step.id =
      degreeOf indegree step.id - if id ∈ step.dependsOn then 1 else 0 := by
  have untouched : ∀ {steps : List Step} {other : StepId}, other ∉ steps.map Step.id →
      ∀ loop, degreeOf (steps.foldl (release id) loop).1 other = degreeOf loop.1 other := by
    intro steps other absent
    induction steps with
    | nil => exact fun _ => rfl
    | cons first rest ih =>
        intro loop
        simp only [List.map_cons, List.mem_cons, not_or] at absent
        rw [List.foldl_cons, ih absent.2, degreeOf_release,
          if_neg (fun both => absent.1 both.1.symm), Int.sub_zero]
  induction steps generalizing indegree queue with
  | nil => contradiction
  | cons first rest ih =>
      obtain ⟨apart, distinct'⟩ := List.nodup_cons.1 distinct
      rw [List.foldl_cons]
      cases List.mem_cons.1 inside with
      | inl here =>
          subst here
          rw [untouched apart, degreeOf_release]
          simp
      | inr later =>
          have other : first.id ≠ step.id := fun same => apart (same ▸ List.mem_map_of_mem later)
          rw [ih distinct' _ _ later, degreeOf_release, if_neg (fun both => other both.1), Int.sub_zero]

/-- A round queues the steps whose degree it takes to zero. -/
theorem queue_foldl_release (distinct : (steps.map Step.id).Nodup)
    (indegree : List (StepId × Int)) (queue : List StepId) :
    (steps.foldl (release id) (indegree, queue)).2 = queue ++ (steps.filter fun step =>
      id ∈ step.dependsOn ∧ degreeOf indegree step.id = 1).map Step.id := by
  induction steps generalizing indegree queue with
  | nil => simp
  | cons first rest ih =>
      obtain ⟨apart, distinct'⟩ := List.nodup_cons.1 distinct
      have same : (rest.filter fun step => id ∈ step.dependsOn ∧
          degreeOf (release id (indegree, queue) first).1 step.id = 1) =
          rest.filter fun step => id ∈ step.dependsOn ∧ degreeOf indegree step.id = 1 := by
        apply List.filter_congr
        intro step later
        have other : first.id ≠ step.id := fun same => apart (same ▸ List.mem_map_of_mem later)
        rw [degreeOf_release, if_neg (fun both => other both.1), Int.sub_zero]
      rw [List.foldl_cons, ih distinct', same, List.filter_cons]
      by_cases depends : id ∈ first.dependsOn
      · by_cases last : degreeOf indegree first.id = 1
        · simp [release, depends, last]
        · simp [release, depends, last, Int.sub_eq_zero]
      · simp [release, depends]

end Release

/-- A step's degree is zero when all its dependencies are visited and it lists none twice. -/
theorem degree_eq_zero_iff {visited dependencies : List StepId} (distinct : visited.Nodup) :
    (dependencies.length : Int) - (visited.filter fun id => id ∈ dependencies).length = 0 ↔
      dependencies.Nodup ∧ ∀ dependency ∈ dependencies, dependency ∈ visited := by
  have distinct' := distinct.filter fun id => decide (id ∈ dependencies)
  have among : visited.filter (fun id => id ∈ dependencies) ⊆ dependencies := fun id inside => by
    simpa using (List.mem_filter.1 inside).2
  have fewer := List.subperm_of_subset distinct' among
  constructor
  · intro zero
    have perm := fewer.perm_of_length_le (by omega)
    refine ⟨perm.nodup_iff.1 distinct', ?_⟩
    intro dependency listed
    exact List.mem_of_mem_filter (perm.mem_iff.2 listed)
  · rintro ⟨once, all⟩
    have enough : dependencies ⊆ visited.filter fun id => id ∈ dependencies :=
      fun dependency listed => List.mem_filter.2 ⟨all dependency listed, by simpa using listed⟩
    have less := fewer.length_le
    have more := (List.subperm_of_subset once enough).length_le
    omega

/-! ## The loop -/

/-- What the loop keeps: degrees count the dependencies that are not visited, a step is queued or
visited as soon as its degree is zero, and what is visited is in order. -/
structure Visiting (tasks : List Step) (indegree : List (StepId × Int))
    (queue visited : List StepId) : Prop where
  counted : ∀ step ∈ tasks, degreeOf indegree step.id =
    step.dependsOn.length - (visited.filter fun id => id ∈ step.dependsOn).length
  distinct : (visited ++ queue).Nodup
  known : ∀ id ∈ visited ++ queue, id ∈ tasks.map Step.id
  ready : ∀ step ∈ tasks, step.id ∈ visited ++ queue ↔ degreeOf indegree step.id = 0
  ordered : Topological (dependenciesOf tasks) (tasks.map Step.id) visited

namespace Visiting

variable {tasks : List Step} {indegree : List (StepId × Int)} {queue visited : List StepId}

theorem visited_nodup (loop : Visiting tasks indegree queue visited) : visited.Nodup :=
  (List.nodup_append.1 loop.distinct).1

theorem mem_iff (loop : Visiting tasks indegree queue visited) {step : Step}
    (inside : step ∈ tasks) : step.id ∈ visited ++ queue ↔
      step.dependsOn.Nodup ∧ ∀ dependency ∈ step.dependsOn, dependency ∈ visited := by
  rw [loop.ready step inside, loop.counted step inside, degree_eq_zero_iff loop.visited_nodup]

theorem length_le (loop : Visiting tasks indegree queue visited) :
    visited.length + queue.length ≤ tasks.length := by
  have fewer := List.subperm_of_subset loop.distinct loop.known
  simpa using fewer.length_le

theorem next {id : StepId} (loop : Visiting tasks indegree (id :: queue) visited)
    (distinct : (tasks.map Step.id).Nodup) :
    Visiting tasks (tasks.foldl (release id) (indegree, queue)).1
      (tasks.foldl (release id) (indegree, queue)).2 (visited ++ [id]) := by
  have fresh : id ∉ visited := by
    intro again
    exact List.disjoint_of_nodup_append loop.distinct again List.mem_cons_self
  have released := @queue_foldl_release tasks id distinct indegree queue
  have fallen := @degreeOf_foldl_release tasks id distinct indegree queue
  -- A step that is queued or visited already depends on visited steps only.
  have settled : ∀ step ∈ tasks, step.id ∈ visited ++ id :: queue → id ∉ step.dependsOn := by
    intro step inside old depends
    exact fresh (((loop.mem_iff inside).1 old).2 id depends)
  have regroup : visited ++ [id] ++ (queue ++ (tasks.filter fun step =>
      id ∈ step.dependsOn ∧ degreeOf indegree step.id = 1).map Step.id) =
      (visited ++ id :: queue) ++ (tasks.filter fun step =>
        id ∈ step.dependsOn ∧ degreeOf indegree step.id = 1).map Step.id := by
    simp
  constructor
  case counted =>
    intro step inside
    rw [fallen inside, loop.counted step inside, List.filter_append, List.length_append]
    by_cases depends : id ∈ step.dependsOn
    · simp [depends]
      omega
    · simp [depends]
  case distinct =>
    rw [released, regroup]
    apply loop.distinct.append
    · exact (List.filter_sublist.map Step.id).nodup distinct
    · intro other old new
      obtain ⟨step, chosen, rfl⟩ := List.mem_map.1 new
      obtain ⟨inside, depends⟩ := List.mem_filter.1 chosen
      simp only [decide_eq_true_eq] at depends
      exact settled step inside old depends.1
  case known =>
    rw [released, regroup]
    intro other inside
    cases List.mem_append.1 inside with
    | inl old => exact loop.known other old
    | inr new => exact (List.filter_sublist.map Step.id).subset new
  case ready =>
    intro step inside
    have chosen : step.id ∈ (tasks.filter fun step =>
        id ∈ step.dependsOn ∧ degreeOf indegree step.id = 1).map Step.id ↔
        id ∈ step.dependsOn ∧ degreeOf indegree step.id = 1 := by
      constructor
      · intro new
        obtain ⟨other, chosen, same⟩ := List.mem_map.1 new
        obtain ⟨there, depends⟩ := List.mem_filter.1 chosen
        rw [List.inj_on_of_nodup_map distinct there inside same] at depends
        simpa using depends
      · intro depends
        exact List.mem_map_of_mem (List.mem_filter.2 ⟨inside, by simpa using depends⟩)
    rw [released, regroup, List.mem_append, chosen, fallen inside, loop.ready step inside]
    by_cases depends : id ∈ step.dependsOn
    · have waiting : degreeOf indegree step.id ≠ 0 := fun zero =>
        settled step inside ((loop.ready step inside).2 zero) depends
      simp only [depends, waiting, true_and, false_or, if_true]
      omega
    · simp [depends]
  case ordered =>
    apply loop.ordered.snoc
    intro successor follows _
    have here := loop.known id (by simp)
    obtain ⟨step, inside, rfl⟩ := List.mem_map.1 here
    rw [dependenciesOf_of_mem distinct inside] at follows
    exact ((loop.mem_iff inside).1 (by simp)).2 successor follows

/-- The loop ends with an empty queue. -/
theorem ends (loop : Visiting tasks indegree queue visited) (distinct : (tasks.map Step.id).Nodup)
    {fuel : Nat} (enough : tasks.length ≤ fuel + visited.length) :
    ∃ indegree', Visiting tasks indegree' [] (topoVisit tasks fuel indegree queue visited) := by
  induction fuel generalizing indegree queue visited with
  | zero =>
      have bound := loop.length_le
      have empty : queue = [] := List.length_eq_zero_iff.1 (by omega)
      exact ⟨indegree, empty ▸ loop⟩
  | succ fuel ih =>
      cases queue with
      | nil => exact ⟨indegree, loop⟩
      | cons id queue =>
          have fresh : id ∉ visited := by
            intro again
            exact List.disjoint_of_nodup_append loop.distinct again List.mem_cons_self
          rw [topoVisit_cons fresh]
          apply ih (loop.next distinct)
          rw [List.length_append, List.length_singleton]
          omega

end Visiting

section Order

variable {tasks : List Step}

/-- The steps that are visited. -/
def visits (tasks : List Step) : List StepId :=
  let indegree := tasks.foldl (count fun step =>
    (step.dependsOn.filter fun id => id ∈ tasks.map Step.id).length) []
  let queue := (tasks.filter fun step => degreeOf indegree step.id = 0).map Step.id
  topoVisit tasks (tasks.length + queue.length + (tasks.map fun step => step.dependsOn.length).sum)
    indegree queue []

theorem topoOrder_eq (tasks : List Step) : topoOrder tasks =
    (visits tasks).filterMap (KeyedList.get Step.id tasks) ++
      tasks.filter fun step => step.id ∉ visits tasks := rfl

theorem visits_visiting (valid : Valid tasks) : ∃ indegree, Visiting tasks indegree [] (visits tasks) := by
  have degrees : ∀ step ∈ tasks, degreeOf (tasks.foldl (count fun step =>
      (step.dependsOn.filter fun id => id ∈ tasks.map Step.id).length) []) step.id =
      step.dependsOn.length := by
    intro step inside
    have all : step.dependsOn.filter (fun id => id ∈ tasks.map Step.id) = step.dependsOn :=
      List.filter_eq_self.2 fun id listed => by simpa using valid.known step inside id listed
    rw [degreeOf_count valid.distinct inside, all]
    exact Int.add_zero _
  apply Visiting.ends _ valid.distinct
  · rw [List.length_nil]
    omega
  constructor
  case counted =>
    intro step inside
    rw [degrees step inside]
    simp
  case distinct => exact (List.filter_sublist.map Step.id).nodup valid.distinct
  case known => exact (List.filter_sublist.map Step.id).subset
  case ready =>
    intro step inside
    rw [List.nil_append]
    constructor
    · intro queued
      obtain ⟨other, chosen, same⟩ := List.mem_map.1 queued
      rw [← same]
      simpa using (List.mem_filter.1 chosen).2
    · intro zero
      exact List.mem_map_of_mem (List.mem_filter.2 ⟨inside, by simpa using zero⟩)
  case ordered => exact .nil

theorem mem_visits_iff (valid : Valid tasks) {step : Step} (inside : step ∈ tasks) :
    step.id ∈ visits tasks ↔
      step.dependsOn.Nodup ∧ ∀ dependency ∈ step.dependsOn, dependency ∈ visits tasks := by
  obtain ⟨indegree, loop⟩ := visits_visiting valid
  have reached := loop.mem_iff inside
  rwa [List.append_nil] at reached

/-- What is held back is what is not visited. -/
theorem heldBack_iff (valid : Valid tasks) {id : StepId} (known : id ∈ tasks.map Step.id) :
    HeldBack tasks id ↔ id ∉ visits tasks := by
  constructor
  · intro held
    clear known
    induction held with
    | repeats inside twice => exact fun visited => twice ((mem_visits_iff valid inside).1 visited).1
    | behind inside depends _ ih =>
        exact fun visited => ih (((mem_visits_iff valid inside).1 visited).2 _ depends)
  · obtain ⟨rank, falls⟩ := valid.ranked
    induction same : rank id using Nat.strong_induction_on generalizing id with
    | _ height ih =>
        intro unvisited
        obtain ⟨step, inside, rfl⟩ := List.mem_map.1 known
        rw [mem_visits_iff valid inside, not_and_or] at unvisited
        cases unvisited with
        | inl twice => exact .repeats inside twice
        | inr some' =>
            push Not at some'
            obtain ⟨dependency, depends, unvisited⟩ := some'
            have lower : rank dependency < height := same ▸ falls step inside dependency depends
            exact .behind inside depends
              (ih _ lower (valid.known step inside dependency depends) rfl unvisited)

/-- The visited steps, in their order. -/
theorem map_id_visited (valid : Valid tasks) :
    ((visits tasks).filterMap (KeyedList.get Step.id tasks)).map Step.id = visits tasks := by
  obtain ⟨indegree, loop⟩ := visits_visiting valid
  have known := loop.known
  rw [List.append_nil] at known
  clear loop
  generalize visits tasks = visited at known
  induction visited with
  | nil => rfl
  | cons id rest ih =>
      obtain ⟨step, found⟩ := KeyedList.exists_get_iff.2 (known id List.mem_cons_self)
      rw [List.filterMap_cons_some found, List.map_cons, KeyedList.key_of_get found,
        ih fun other later => known other (.tail id later)]

theorem perm_topoOrder (valid : Valid tasks) : (topoOrder tasks).Perm tasks := by
  have ids := map_id_visited valid
  obtain ⟨indegree, loop⟩ := visits_visiting valid
  have reached : ((visits tasks).filterMap (KeyedList.get Step.id tasks)).Perm
      (tasks.filter fun step => step.id ∈ visits tasks) := by
    rw [List.perm_ext_iff_of_nodup (.of_map Step.id (ids.symm ▸ loop.visited_nodup))
      ((List.Nodup.of_map Step.id valid.distinct).filter _)]
    intro step
    rw [List.mem_filterMap, List.mem_filter, decide_eq_true_eq]
    constructor
    · rintro ⟨id, visited, found⟩
      have same := KeyedList.key_of_get found
      exact ⟨KeyedList.mem_of_get found, same ▸ visited⟩
    · rintro ⟨inside, visited⟩
      exact ⟨step.id, visited, (KeyedList.get_eq_some_iff valid.distinct).2 ⟨inside, rfl⟩⟩
  rw [topoOrder_eq]
  have split := List.filter_append_perm (fun step : Step => decide (step.id ∈ visits tasks)) tasks
  simp only [← decide_not] at split
  exact (reached.append_right _).trans split

theorem inOrder_topoOrder_iff (valid : Valid tasks) :
    InOrder (topoOrder tasks) ↔ HeldInOrder tasks := by
  have ids := map_id_visited valid
  have held := @heldBack_iff tasks valid
  obtain ⟨indegree, loop⟩ := visits_visiting valid
  rw [topoOrder_eq]
  constructor
  · intro ordered front step back same heldBack dependency depends heldToo
    have inside : step ∈ tasks := same ▸ List.mem_append_right _ List.mem_cons_self
    have unvisited := (held (List.mem_map_of_mem inside)).1 heldBack
    have later : tasks.filter (fun step => step.id ∉ visits tasks) =
        (front.filter fun step => step.id ∉ visits tasks) ++
          step :: back.filter fun step => step.id ∉ visits tasks := by
      generalize visits tasks = visited at unvisited
      rw [same, List.filter_append, List.filter_cons_of_pos (by simpa using unvisited)]
    have before := ordered (_ ++ _) step _ (later ▸ (List.append_assoc _ _ _).symm) dependency depends
    rw [List.map_append, ids] at before
    cases List.mem_append.1 before with
    | inl visited =>
        exact absurd visited ((held (valid.known step inside dependency depends)).1 heldToo)
    | inr earlier => exact (List.filter_sublist.map Step.id).subset earlier
  · intro ordered front step back same dependency depends
    have reached : ∀ front back, visits tasks = front ++ step.id :: back → step ∈ tasks →
        dependency ∈ front := by
      intro front back visited inside
      apply loop.ordered.before visited
      · rwa [dependenciesOf_of_mem valid.distinct inside]
      · exact valid.known step inside dependency depends
    -- The step is one of those appended, or one of those visited.
    have appended : ∀ front', tasks.filter (fun step => step.id ∉ visits tasks) =
        front' ++ step :: back → front = (visits tasks).filterMap (KeyedList.get Step.id tasks) ++ front' →
        dependency ∈ front.map Step.id := by
      intro front' rest isFront
      obtain ⟨early, late, whole, isEarly, isLate⟩ := List.filter_eq_append_iff.1 rest
      obtain ⟨skipped, back', isLate', passed, chosen, -⟩ := List.filter_eq_cons_iff.1 isLate
      have whole' : tasks = (early ++ skipped) ++ step :: back' := by
        rw [whole, isLate', List.append_assoc]
      have inside : step ∈ tasks := whole' ▸ List.mem_append_right _ List.mem_cons_self
      rw [decide_eq_true_eq] at chosen
      rw [isFront, List.map_append, ids, List.mem_append]
      by_cases visited : dependency ∈ visits tasks
      · exact .inl visited
      · have known := valid.known step inside dependency depends
        have earlier := ordered _ step _ whole' ((held (List.mem_map_of_mem inside)).2 chosen)
          dependency depends ((held known).2 visited)
        obtain ⟨other, among, rfl⟩ := List.mem_map.1 earlier
        cases List.mem_append.1 among with
        | inl here =>
            rw [← isEarly]
            exact .inr (List.mem_map_of_mem (List.mem_filter.2 ⟨here, by simpa using visited⟩))
        | inr skip => exact absurd (decide_eq_true visited) (passed other skip)
    cases List.append_eq_append_iff.1 same with
    | inl right =>
        obtain ⟨front', isFront, rest⟩ := right
        exact appended front' rest isFront
    | inr left =>
        obtain ⟨middle, isVisited, rest⟩ := left
        cases middle with
        | nil => exact appended [] rest.symm (by simpa using isVisited.symm)
        | cons first middle =>
            obtain ⟨rfl, -⟩ := List.cons.inj rest
            rw [isVisited, List.map_append, List.map_cons] at ids
            have inside : step ∈ tasks := by
              have among : step ∈ (visits tasks).filterMap (KeyedList.get Step.id tasks) :=
                isVisited ▸ List.mem_append_right _ List.mem_cons_self
              obtain ⟨id, -, found⟩ := List.mem_filterMap.1 among
              exact KeyedList.mem_of_get found
            exact reached _ _ ids.symm inside

/-- For a graph that is accepted, `topoOrder` gives the tasks again, each after all its
dependencies, exactly when the graph itself lists the steps that are held back in such an
order. -/
theorem topoOrder_sorts_iff {tasks : List Json} {maxTasks : Nat}
    (accepted : validateTaskGraph (some tasks) maxTasks = some []) :
    (topoOrder (tasks.map stepOf)).Perm (tasks.map stepOf) ∧
        InOrder (topoOrder (tasks.map stepOf)) ↔ HeldInOrder (tasks.map stepOf) := by
  have valid := valid_of_validateTaskGraph accepted
  rw [inOrder_topoOrder_iff valid, and_iff_right (perm_topoOrder valid)]

section Example

/-- A task of a plan. -/
def plannedAs (id : String) (dependsOn : List String) : Json :=
  .object [(ofString "id", .string (ofString id)), (ofString "title", .string (ofString "Title")),
    (ofString "aspect", .string (ofString "testing")),
    (ofString "estimatedComplexity", .string (ofString "low")),
    (ofString "description", .string (ofString "Work")),
    (ofString "deliverable", .string (ofString "Text")),
    (ofString "dependsOn", .array (dependsOn.map fun id => .string (ofString id)))]

/-- A plan that lists a step before the one it depends on, which lists its dependency twice. -/
def twiceListed : List Json := [plannedAs "c" ["b"], plannedAs "b" ["a", "a"], plannedAs "a" []]

/-- The same plan in the other order. -/
def twiceListedLast : List Json := [plannedAs "a" [], plannedAs "b" ["a", "a"], plannedAs "c" ["b"]]

theorem topoOrder_sorts_twiceListedLast :
    (topoOrder (twiceListedLast.map stepOf)).Perm (twiceListedLast.map stepOf) ∧
        InOrder (topoOrder (twiceListedLast.map stepOf)) ↔
      HeldInOrder (twiceListedLast.map stepOf) :=
  @topoOrder_sorts_iff twiceListedLast 5 (by decide)

theorem not_sorts_twiceListed : validateTaskGraph (some twiceListed) 5 = some [] ∧
    ¬ InOrder (topoOrder (twiceListed.map stepOf)) := by
  constructor
  · decide
  · intro ordered
    have order : topoOrder (twiceListed.map stepOf) =
        [stepOf (plannedAs "a" [])] ++ stepOf (plannedAs "c" ["b"]) :: [stepOf (plannedAs "b" ["a", "a"])] := by
      decide
    have before := ordered _ _ _ order (ofString "b") (by decide)
    revert before
    decide

end Example

end Order

end Orchestrator

end TitanRunner
