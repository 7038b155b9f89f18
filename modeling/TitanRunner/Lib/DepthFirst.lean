import Mathlib.Data.List.Chain
import Mathlib.Data.List.Nodup
import Mathlib.Data.List.Perm.Subperm

/-!
# Depth-first search for a cycle

A search over the nodes of a finite graph that keeps the path it is on and the nodes it is
done with.  It finds a closed path, or it leaves an order in which every node comes after
its successors.
-/

namespace DepthFirst

universe u

/-- What a failing fold keeps, if it ends well. -/
theorem foldlM_keeps {State Item Error : Type*} {step : State → Item → Except Error State}
    (inv : State → Prop) {items : List Item} {state after : State}
    (kept : ∀ state item after, item ∈ items → inv state → step state item = .ok after → inv after)
    (holds : inv state) (ran : items.foldlM step state = .ok after) : inv after := by
  induction items generalizing state with
  | nil =>
      cases ran
      exact holds
  | cons item rest ih =>
      rw [List.foldlM_cons] at ran
      cases stepped : step state item with
      | error problem =>
          rw [stepped] at ran
          contradiction
      | ok middle =>
          rw [stepped] at ran
          exact ih (fun state other after inside => kept state other after (.tail item inside))
            (kept state item middle List.mem_cons_self holds stepped) ran

/-- What a failing fold makes of each item, if it ends well and later steps keep it. -/
theorem foldlM_each {State Item Error : Type*} {step : State → Item → Except Error State}
    (inv : State → Prop) (made : Item → State → Prop) {items : List Item} {state after : State}
    (kept : ∀ state item after, inv state → step state item = .ok after → inv after)
    (makes : ∀ state item after, inv state → step state item = .ok after → made item after)
    (lasts : ∀ state item after other, inv state → step state item = .ok after →
      made other state → made other after)
    (holds : inv state) (ran : items.foldlM step state = .ok after) :
    ∀ item ∈ items, made item after := by
  induction items generalizing state with
  | nil =>
      intro item inside
      contradiction
  | cons first rest ih =>
      rw [List.foldlM_cons] at ran
      cases stepped : step state first with
      | error problem =>
          rw [stepped] at ran
          contradiction
      | ok middle =>
          rw [stepped] at ran
          have holds' := kept state first middle holds stepped
          intro item inside
          cases List.mem_cons.1 inside with
          | inr later => exact ih holds' ran item later
          | inl same =>
              have both := foldlM_keeps (fun state => inv state ∧ made item state)
                (fun state item after _ before stepped =>
                  ⟨kept state item after before.1 stepped,
                    lasts state item after _ before.1 stepped before.2⟩)
                ⟨holds', same ▸ makes state first middle holds stepped⟩ ran
              exact both.2

/-- Where a failing fold fails. -/
theorem foldlM_fails {State Item Error : Type*} {step : State → Item → Except Error State}
    {items : List Item} {state : State} {problem : Error}
    (ran : items.foldlM step state = .error problem) :
    ∃ state item, item ∈ items ∧ step state item = .error problem := by
  induction items generalizing state with
  | nil => contradiction
  | cons item rest ih =>
      rw [List.foldlM_cons] at ran
      cases stepped : step state item with
      | error here =>
          rw [stepped] at ran
          cases ran
          exact ⟨state, item, List.mem_cons_self, stepped⟩
      | ok middle =>
          rw [stepped] at ran
          have ⟨before, other, inside, failed⟩ := ih ran
          exact ⟨before, other, .tail item inside, failed⟩

variable {Node : Type u} [DecidableEq Node]

section Search

variable (next : Node → List Node) (nodes : List Node)

/-- Follow an edge from the end of a path: back onto the path, to a node that is new, or to
one that needs no visit. -/
def follow (visit : List Node → Node → Except (List Node) (List Node)) (path done : List Node)
    (successor : Node) : Except (List Node) (List Node) :=
  if successor ∈ path then .error (path.drop (path.idxOf successor) ++ [successor])
  else if successor ∉ done ∧ successor ∈ nodes then visit done successor
  else .ok done

/-- Search from a node, with the path that led to it and the nodes that are done.  The
error is a closed path. -/
def visit : Nat → List Node → List Node → Node → Except (List Node) (List Node)
  | 0, _, _, _ => .error []
  | fuel + 1, stack, done, node =>
      let path := stack ++ [node]
      ((next node).foldlM (follow nodes (visit fuel path) path) done).map fun done => done ++ [node]

/-- Search from every node. -/
def search : Except (List Node) (List Node) :=
  nodes.foldlM (fun done node =>
    if node ∈ done then .ok done else visit next nodes nodes.length [] done node) []

/-- Every node comes after its successors. -/
inductive Topological : List Node → Prop where
  | nil : Topological []
  | snoc {done : List Node} {node : Node} :
      Topological done → (∀ successor ∈ next node, successor ∈ nodes → successor ∈ done) →
      Topological (done ++ [node])

/-- A path that ends where it starts. -/
def Closed (path : List Node) : Prop :=
  2 ≤ path.length ∧ path.head? = path.getLast? ∧
    path.IsChain fun node successor => successor ∈ next node

end Search

variable {next : Node → List Node} {nodes : List Node}

theorem Topological.idxOf_lt {done : List Node} (topological : Topological next nodes done)
    {node successor : Node} (inside : node ∈ done) (follows : successor ∈ next node)
    (known : successor ∈ nodes) : done.idxOf successor < done.idxOf node := by
  induction topological with
  | nil => contradiction
  | snoc before after ih =>
      next done last =>
      by_cases earlier : node ∈ done
      · have less := ih earlier
        have bound := List.idxOf_lt_length_of_mem earlier
        have present : successor ∈ done := List.idxOf_lt_length_iff.1 (less.trans bound)
        rwa [List.idxOf_append_of_mem earlier, List.idxOf_append_of_mem present]
      · have same : node = last := by simpa [earlier] using inside
        have present := after successor (same ▸ follows) known
        rw [List.idxOf_append_of_mem present, List.idxOf_append_of_notMem earlier]
        exact Nat.lt_add_right _ (List.idxOf_lt_length_of_mem present)

/-- What stands before a node holds its successors. -/
theorem Topological.before {done front back : List Node} {node successor : Node}
    (topological : Topological next nodes done) (split : done = front ++ node :: back)
    (follows : successor ∈ next node) (known : successor ∈ nodes) : successor ∈ front := by
  induction topological generalizing front back with
  | nil => simp at split
  | snoc before after ih =>
      next done last =>
      cases List.eq_nil_or_concat back with
      | inl empty =>
          rw [empty] at split
          obtain ⟨rfl, same⟩ := List.append_inj' split rfl
          obtain ⟨rfl, -⟩ := List.cons.inj same
          exact after successor follows known
      | inr more =>
          obtain ⟨back', last', rfl⟩ := more
          rw [List.concat_eq_append, ← List.cons_append, ← List.append_assoc] at split
          exact ih (List.append_inj' split rfl).1

theorem follow_topological {visit : List Node → Node → Except (List Node) (List Node)}
    {path done after : List Node} {successor : Node}
    (visited : ∀ {after}, visit done successor = .ok after →
      Topological next nodes after ∧ done ⊆ after ∧ successor ∈ after)
    (topological : Topological next nodes done)
    (ran : follow nodes visit path done successor = .ok after) :
    Topological next nodes after ∧ done ⊆ after ∧ (successor ∈ nodes → successor ∈ after) := by
  simp only [follow] at ran
  split at ran
  next => contradiction
  next =>
    split at ran
    next =>
      have ⟨ordered, grown, present⟩ := visited ran
      exact ⟨ordered, grown, fun _ => present⟩
    next skipped =>
      cases ran
      refine ⟨topological, List.Subset.refl _, fun known => ?_⟩
      by_contra absent
      exact skipped ⟨absent, known⟩

theorem visit_topological {fuel : Nat} {stack done after : List Node} {node : Node}
    (topological : Topological next nodes done)
    (ran : visit next nodes fuel stack done node = .ok after) :
    Topological next nodes after ∧ done ⊆ after ∧ node ∈ after := by
  induction fuel generalizing stack done after node with
  | zero => contradiction
  | succ fuel ih =>
      have one : ∀ {before successor after}, Topological next nodes before →
          follow nodes (visit next nodes fuel (stack ++ [node])) (stack ++ [node]) before successor
            = .ok after →
          Topological next nodes after ∧ before ⊆ after ∧
            (successor ∈ nodes → successor ∈ after) :=
        fun topological => follow_topological (ih topological) topological
      simp only [visit] at ran
      cases folded : (next node).foldlM
          (follow nodes (visit next nodes fuel (stack ++ [node])) (stack ++ [node])) done with
      | error problem =>
          rw [folded] at ran
          contradiction
      | ok settled =>
          rw [folded] at ran
          cases ran
          have ⟨ordered, grown⟩ := foldlM_keeps
            (fun state => Topological next nodes state ∧ done ⊆ state)
            (fun state item after _ before stepped =>
              have ⟨ordered, grown, _⟩ := one before.1 stepped
              ⟨ordered, List.Subset.trans before.2 grown⟩)
            ⟨topological, List.Subset.refl _⟩ folded
          have covered := foldlM_each (Topological next nodes)
            (fun successor state => successor ∈ nodes → successor ∈ state)
            (fun state item after before stepped => (one before stepped).1)
            (fun state item after before stepped => (one before stepped).2.2)
            (fun state item after other before stepped present known =>
              (one before stepped).2.1 (present known))
            topological folded
          refine ⟨.snoc ordered covered, fun other inside => ?_, ?_⟩
          · exact List.mem_append_left _ (grown inside)
          · exact List.mem_append_right _ List.mem_cons_self

/-- A search that ends well leaves every node after its successors. -/
theorem search_topological {order : List Node} (ran : search next nodes = .ok order) :
    Topological next nodes order ∧ nodes ⊆ order := by
  have one : ∀ {before node after}, Topological next nodes before →
      (if node ∈ before then .ok before else visit next nodes nodes.length [] before node) =
        .ok after →
      Topological next nodes after ∧ before ⊆ after ∧ node ∈ after := by
    intro before node after topological ran
    split at ran
    next present =>
      cases ran
      exact ⟨topological, List.Subset.refl _, present⟩
    next => exact visit_topological topological ran
  constructor
  · exact foldlM_keeps (Topological next nodes)
      (fun state item after _ before stepped => (one before stepped).1) .nil ran
  · exact foldlM_each (Topological next nodes) (fun node state => node ∈ state)
      (fun state item after before stepped => (one before stepped).1)
      (fun state item after before stepped => (one before stepped).2.2)
      (fun state item after other before stepped present => (one before stepped).2.1 present)
      .nil ran

/-- A graph that is searched without finding a cycle has a rank that falls along its
edges. -/
theorem search_rank {order : List Node} (ran : search next nodes = .ok order) :
    ∃ rank : Node → Nat, ∀ node ∈ nodes, ∀ successor ∈ next node, successor ∈ nodes →
      rank successor < rank node := by
  have ⟨topological, covers⟩ := search_topological ran
  exact ⟨order.idxOf, fun node inside successor follows known =>
    topological.idxOf_lt (covers inside) follows known⟩

/-- The path the search is on. -/
structure Walk (next : Node → List Node) (nodes path : List Node) : Prop where
  distinct : path.Nodup
  inside : path ⊆ nodes
  chained : path.IsChain fun node successor => successor ∈ next node

omit [DecidableEq Node] in
theorem Walk.length_le {path : List Node} (walk : Walk next nodes path) :
    path.length ≤ nodes.length :=
  (List.subperm_of_subset walk.distinct walk.inside).length_le

omit [DecidableEq Node] in
theorem Walk.snoc {stack : List Node} {node successor : Node}
    (walk : Walk next nodes (stack ++ [node])) (follows : successor ∈ next node)
    (known : successor ∈ nodes) (fresh : successor ∉ stack ++ [node]) :
    Walk next nodes (stack ++ [node] ++ [successor]) where
  distinct := by
    apply walk.distinct.append (List.nodup_singleton successor)
    simpa using fresh
  inside := by
    intro other inside
    cases List.mem_append.1 inside with
    | inl before => exact walk.inside before
    | inr here => exact List.mem_singleton.1 here ▸ known
  chained := by
    apply walk.chained.append (List.isChain_singleton successor)
    intro last ends first starts
    simp only [List.getLast?_append, List.getLast?_singleton, Option.some_or, Option.mem_some,
      List.head?_cons] at ends starts
    rwa [← ends, ← starts]

theorem Walk.closed {stack : List Node} {node successor : Node}
    (walk : Walk next nodes (stack ++ [node])) (follows : successor ∈ next node)
    (back : successor ∈ stack ++ [node]) :
    Closed next ((stack ++ [node]).drop ((stack ++ [node]).idxOf successor) ++ [successor]) := by
  have within := List.idxOf_lt_length_of_mem back
  have start : ((stack ++ [node]).drop ((stack ++ [node]).idxOf successor)).head? =
      some successor := by
    rw [List.head?_drop, List.getElem?_eq_getElem within, List.getElem_idxOf within]
  refine ⟨?_, ?_, ?_⟩
  · rw [List.length_append, List.length_drop, List.length_singleton]
    omega
  · rw [List.head?_append, start, List.getLast?_append, List.getLast?_singleton, Option.some_or,
      Option.some_or]
  · apply (walk.chained.drop _).append (List.isChain_singleton successor)
    intro last ends first starts
    rw [List.getLast?_drop, if_neg (Nat.not_le.2 within)] at ends
    simp only [List.getLast?_append, List.getLast?_singleton, Option.some_or, Option.mem_some,
      List.head?_cons] at ends starts
    rwa [← ends, ← starts]

/-- There is fuel for every path without repetition, and what is reported is a closed
path. -/
theorem visit_closed {fuel : Nat} {stack done cycle : List Node} {node : Node}
    (walk : Walk next nodes (stack ++ [node])) (fuelled : nodes.length ≤ fuel + stack.length)
    (ran : visit next nodes fuel stack done node = .error cycle) : Closed next cycle := by
  induction fuel generalizing stack done node with
  | zero =>
      have long := walk.length_le
      rw [List.length_append, List.length_singleton] at long
      omega
  | succ fuel ih =>
      simp only [visit] at ran
      cases folded : (next node).foldlM
          (follow nodes (visit next nodes fuel (stack ++ [node])) (stack ++ [node])) done with
      | ok settled =>
          rw [folded] at ran
          contradiction
      | error problem =>
          rw [folded] at ran
          cases ran
          have ⟨before, successor, follows, failed⟩ := foldlM_fails folded
          simp only [follow] at failed
          split at failed
          next back =>
            cases failed
            exact walk.closed follows back
          next fresh =>
            split at failed
            next unseen =>
              apply ih (walk.snoc follows unseen.2 fresh) _ failed
              rw [List.length_append, List.length_singleton]
              omega
            next => contradiction

/-- A search fails only with a closed path. -/
theorem search_closed {cycle : List Node} (ran : search next nodes = .error cycle) :
    Closed next cycle := by
  have ⟨before, node, inside, failed⟩ := foldlM_fails ran
  split at failed
  next => contradiction
  next =>
    apply visit_closed _ (by simp) failed
    exact ⟨List.nodup_singleton node, by simpa using inside, List.isChain_singleton node⟩

end DepthFirst
