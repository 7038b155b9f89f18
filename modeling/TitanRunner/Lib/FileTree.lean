import Mathlib.Data.Option.Basic

/-!
# File trees

A tree maps paths to contents.  Two ways of bringing a tree onto another one are
compared: laying it on top, and applying to the other tree what changed between two
versions.  They agree exactly when nothing that was left alone or deleted is
different below.
-/

namespace FileTree

universe u v

/-- A snapshot of files; `none` where there is no file. -/
abbrev Tree (Path : Type u) (Content : Type v) := Path → Option Content

variable {Path : Type u} {Content : Type v}

/-- The tree without files. -/
def empty : Tree Path Content := fun _ => none

/-- All files of `top`, and those of `bottom` that `top` does not have. -/
def overlay (top bottom : Tree Path Content) : Tree Path Content :=
  fun path => (top path).or (bottom path)

/-- Trees laid on each other, the first on top. -/
def overlayAll : List (Tree Path Content) → Tree Path Content
  | [] => empty
  | tree :: rest => overlay tree (overlayAll rest)

/-- The files of `inner` at the chosen paths, and those of `outer` elsewhere. -/
def splice (chosen : Path → Bool) (inner outer : Tree Path Content) : Tree Path Content :=
  fun path => if chosen path then inner path else outer path

/-- What changed between `before` and `after`, applied to `onto`: changed and added
files have their new content, deleted files are gone, the others are those of
`onto`. -/
def applyChanges [DecidableEq Content] (before after onto : Tree Path Content) :
    Tree Path Content :=
  fun path => if after path = before path then onto path else after path

@[simp] theorem overlay_empty (tree : Tree Path Content) : overlay tree empty = tree := by
  funext path
  simp [overlay, empty]

theorem splice_of_chosen {chosen : Path → Bool} {path : Path} (inside : chosen path = true)
    (inner outer : Tree Path Content) : splice chosen inner outer path = inner path := by
  simp [splice, inside]

theorem splice_eq_splice_iff {chosen : Path → Bool} {left right outer : Tree Path Content} :
    splice chosen left outer = splice chosen right outer ↔
      ∀ path, chosen path = true → left path = right path := by
  constructor
  · intro same path inside
    have here := congrFun same path
    rwa [splice_of_chosen inside, splice_of_chosen inside] at here
  · intro agree
    funext path
    cases inside : chosen path with
    | true => rw [splice_of_chosen inside, splice_of_chosen inside, agree path inside]
    | false => simp [splice, inside]

/-- Laying `after` over `between` and that over `onto` applies the changes since
`before` at a path exactly when an unchanged file is the same in `onto`, a deleted one
is in neither tree, and an absent one comes from `onto`. -/
theorem overlay_overlay_eq_applyChanges_iff [DecidableEq Content]
    (before after between onto : Tree Path Content) (path : Path) :
    overlay after (overlay between onto) path = applyChanges before after onto path ↔
      (∀ content, before path = some content → after path = some content →
          onto path = some content) ∧
        (before path ≠ none → after path = none → between path = none ∧ onto path = none) ∧
        (before path = none → after path = none →
          between path = none ∨ between path = onto path) := by
  simp only [overlay, applyChanges]
  cases after path with
  | some new =>
      cases before path with
      | none => simp
      | some old =>
          by_cases same : old = new
          · simp [same, eq_comm]
          · have differ : ¬ new = old := fun equal => same equal.symm
            simp [differ]
  | none =>
      cases before path with
      | some old => simp
      | none => cases between path <;> simp

end FileTree
