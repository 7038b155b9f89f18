import Mathlib.Data.List.Chain
import Mathlib.Logic.Relation
import Mathlib.Order.WellFoundedSet

/-!
# Relations without a cycle

What keeps a relation free of cycles: taking edges away, adding edges out of one node that
none of their targets leads back to, and renaming the nodes.
-/

namespace Acyclicity

open Relation

universe u v

variable {Node : Type u} {Other : Type v} {edge edge' : Node → Node → Prop}

/-- No path leads from a node back to it. -/
def Acyclic (edge : Node → Node → Prop) : Prop := ∀ node, ¬ TransGen edge node node

/-- A path that ends where it starts. -/
structure Circuit (edge : Node → Node → Prop) (path : List Node) : Prop where
  long : 2 ≤ path.length
  back : path.head? = path.getLast?
  chained : path.IsChain edge

/-- A path with more than one node leads from its first to its last. -/
theorem transGen_of_isChain {first second : Node} {rest : List Node}
    (chained : (first :: second :: rest).IsChain edge) {last : Node}
    (ends : (first :: second :: rest).getLast? = some last) : TransGen edge first last := by
  induction rest generalizing first second with
  | nil =>
      have same : second = last := by simpa using ends
      exact .single (same ▸ (List.isChain_cons_cons.1 chained).1)
  | cons third rest ih =>
      have ⟨step, later⟩ := List.isChain_cons_cons.1 chained
      exact .head step (ih later (by rwa [List.getLast?_cons_cons] at ends))

theorem Circuit.not_acyclic {path : List Node} (circuit : Circuit edge path) : ¬ Acyclic edge := by
  intro acyclic
  obtain ⟨long, back, chained⟩ := circuit
  cases path with
  | nil => simp at long
  | cons first rest =>
      cases rest with
      | nil => simp at long
      | cons second rest => exact acyclic first (transGen_of_isChain chained back.symm)

/-- A rank that falls along every edge leaves no cycle. -/
theorem acyclic_of_rank (rank : Node → Nat) (falls : ∀ a b, edge a b → rank b < rank a) :
    Acyclic edge := by
  have lower : ∀ a b, TransGen edge a b → rank b < rank a := by
    intro a b path
    induction path with
    | single step => exact falls _ _ step
    | tail _ step ih => exact (falls _ _ step).trans ih
  exact fun node cycle => (lower node node cycle).false

theorem Acyclic.mono (acyclic : Acyclic edge) (fewer : ∀ a b, edge' a b → edge a b) :
    Acyclic edge' :=
  fun node cycle => acyclic node (TransGen.mono fewer node node cycle)

/-- Edges that are new only where no other edge leads to. -/
theorem Acyclic.of_entered (acyclic : Acyclic edge)
    (old : ∀ a b c, edge' a b → edge' b c → edge b c) : Acyclic edge' := by
  have follow : ∀ first last, ReflTransGen edge' first last → ∀ before, edge' before first →
      ReflTransGen edge first last := by
    intro first last path
    induction path using ReflTransGen.head_induction_on with
    | refl => exact fun _ _ => .refl
    | head step _ ih =>
        intro before entered
        exact .head (old _ _ _ entered step) (ih _ step)
  intro node cycle
  have ⟨next, step, rest⟩ := TransGen.head'_iff.1 cycle
  have ⟨before, _, entered⟩ := TransGen.tail'_iff.1 cycle
  exact acyclic node (TransGen.head' (old _ _ _ entered step) (follow _ _ rest _ step))

section Extend

variable {source : Node}

/-- A path takes old edges only, or old edges up to the node the new ones start from. -/
theorem path_cases (out : ∀ a b, edge' a b → edge a b ∨ a = source) {first last : Node}
    (path : ReflTransGen edge' first last) :
    ReflTransGen edge first last ∨ ReflTransGen edge first source := by
  induction path using ReflTransGen.head_induction_on with
  | refl => exact .inl .refl
  | head step _ ih =>
      cases out _ _ step with
      | inr here => exact .inr (here ▸ .refl)
      | inl old =>
          cases ih with
          | inl direct => exact .inl (.head old direct)
          | inr toSource => exact .inr (.head old toSource)

/-- A path takes old edges only, or it takes a new one. -/
theorem path_split
    (out : ∀ a b, edge' a b → edge a b ∨ a = source ∧ ¬ ReflTransGen edge b source)
    {first last : Node} (path : TransGen edge' first last) :
    TransGen edge first last ∨ ReflTransGen edge' first source ∧
      ∃ target, ¬ ReflTransGen edge target source ∧ ReflTransGen edge' target last := by
  induction path with
  | single step =>
      cases out _ _ step with
      | inl old => exact .inl (.single old)
      | inr new => exact .inr ⟨new.1 ▸ .refl, _, new.2, .refl⟩
  | tail before step ih =>
      cases ih with
      | inr through =>
          have ⟨toSource, target, away, rest⟩ := through
          exact .inr ⟨toSource, target, away, rest.tail step⟩
      | inl direct =>
          cases out _ _ step with
          | inl old => exact .inl (direct.tail old)
          | inr new => exact .inr ⟨new.1 ▸ before.to_reflTransGen, _, new.2, .refl⟩

theorem Acyclic.extend (acyclic : Acyclic edge)
    (out : ∀ a b, edge' a b → edge a b ∨ a = source ∧ ¬ ReflTransGen edge b source) :
    Acyclic edge' := by
  intro node cycle
  cases path_split out cycle with
  | inl direct => exact acyclic node direct
  | inr through =>
      have ⟨toSource, target, away, rest⟩ := through
      have back := path_cases (fun a b step => (out a b step).imp_right And.left)
        (rest.trans toSource)
      exact away (back.elim id id)

end Extend

/-- Nodes renamed by a map that tells the nodes with an edge apart. -/
theorem Acyclic.rename {edge' : Other → Other → Prop} (acyclic : Acyclic edge) (rename : Node → Other)
    (nodes : Set Node) (apart : Set.InjOn rename nodes)
    (came : ∀ a b, edge' a b → ∃ x ∈ nodes, ∃ y ∈ nodes, rename x = a ∧ rename y = b ∧ edge x y) :
    Acyclic edge' := by
  have lift : ∀ a b, TransGen edge' a b →
      ∃ x ∈ nodes, ∃ y ∈ nodes, rename x = a ∧ rename y = b ∧ TransGen edge x y := by
    intro a b path
    induction path with
    | single step =>
        have ⟨x, inside, y, inside', same, same', old⟩ := came _ _ step
        exact ⟨x, inside, y, inside', same, same', .single old⟩
    | tail _ step ih =>
        have ⟨x, inside, y, inside', same, same', path⟩ := ih
        have ⟨y', there, z, inside'', again, same'', old⟩ := came _ _ step
        have middle : y' = y := apart there inside' (again.trans same'.symm)
        subst middle
        exact ⟨x, inside, z, inside'', same, same'', path.tail old⟩
  intro node cycle
  have ⟨x, inside, y, inside', same, same', path⟩ := lift node node cycle
  have one : x = y := apart inside inside' (same.trans same'.symm)
  subst one
  exact acyclic x path

/-- Finitely many nodes have one whose edges all lead elsewhere. -/
theorem Acyclic.exists_last (acyclic : Acyclic edge) {nodes : Set Node} (finite : nodes.Finite)
    (some' : nodes.Nonempty) : ∃ last ∈ nodes, ∀ node ∈ nodes, ¬ edge last node := by
  let later : Node → Node → Prop := fun a b => TransGen edge b a
  have order : IsStrictOrder Node later := {
    irrefl := acyclic
    trans := fun _ _ _ left right => right.trans left }
  have wellFounded := finite.wellFoundedOn (r := later)
  have ⟨start, inside⟩ := some'
  have ⟨last, lowest⟩ := wellFounded.has_min Set.univ ⟨⟨start, inside⟩, trivial⟩
  refine ⟨last.1, last.2, ?_⟩
  intro node there step
  exact lowest.2 ⟨node, there⟩ trivial (.single step)

end Acyclicity
