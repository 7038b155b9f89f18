import TitanRunner.Tools.Registry
import TitanRunner.Worker.SchemaShapes

/-!
# The validators accept what satisfies the schema

Both validators and the check of a tool's arguments, against what their schemas say.
-/

namespace TitanRunner

namespace Validate

open Utf16
open JsonSchema (RegExp Shape Meets)
open Tools (checkToolArgs strictly)

theorem check_nil_iff {schema : Schema} {value : Json} (plain : Plain schema)
    (clear : Clear schema value) : check value schema = [] ↔ Satisfies schema value :=
  validate_nil_iff schema plain value clear _

/-- Arguments that are accepted are an object without errors. -/
theorem of_checkToolArgs {schema : Schema} {rawArgs : Option Json} {args : Json}
    (accepted : checkToolArgs schema rawArgs = .ok args) :
    args = rawArgs.getD (.object []) ∧ check args (strictly schema) = [] := by
  rw [checkToolArgs] at accepted
  split at accepted
  next =>
    split at accepted
    next none => exact ⟨(Except.ok.inj accepted).symm, Except.ok.inj accepted ▸ none⟩
    next => contradiction
  next => contradiction

/-- Each validator accepts exactly what satisfies the schema, as long as no name that every object
inherits stands for a member; the Worker's looks ten levels deep. -/
theorem validators_sound :
    (∀ schema value, Plain schema → Clear schema value →
      (check value schema = [] ↔ Satisfies schema value)) ∧
    (∀ regExp shape value, JsonSchema.Sound shape → shape.height ≤ JsonSchema.maxDepth →
      value.isProper = true → JsonSchema.Clear shape value →
      (JsonSchema.validate regExp shape.toJson value = [] ↔ Meets regExp shape value)) ∧
    ∀ schema rawArgs args, Plain (strictly schema) → Clear (strictly schema) args →
      checkToolArgs schema rawArgs = .ok args →
        args = rawArgs.getD (.object []) ∧ Satisfies (strictly schema) args := by
  refine ⟨fun schema value => check_nil_iff, ?_, ?_⟩
  · intro regExp shape value sound fits proper clear
    exact JsonSchema.walk_nil_iff regExp shape sound _ (Nat.lt_succ_of_le fits) value proper clear _
  · intro schema rawArgs args plain clear accepted
    obtain ⟨given, none⟩ := of_checkToolArgs accepted
    exact ⟨given, (check_nil_iff plain clear).1 none⟩

section Example

/-- A closed object with one text, which it requires. -/
def named : Schema :=
  objectOf { required := [ofString "name"], closed := true }
    [(ofString "name", plain { types := [.string] })]

/-- The same for the Worker. -/
def namedShape : Shape :=
  .node { types := [.object], required := [ofString "name"] } [] [] []
    [(ofString "name", .node { types := [.string] } [] [] [] [] [])] []

def ada : Json := .object [(ofString "name", .string (ofString "ada"))]

theorem strictly_named : strictly named = named := by
  simp [strictly, named, objectOf]

theorem plain_named : Plain named := by
  simp [named, objectOf, plain, Plain, AllPlain, PropertiesPlain]

theorem clear_ada : Clear named ada ∧ JsonSchema.Clear namedShape ada := by
  have plainName : Inherited.isInherited (ofString "name") = false := by decide
  have own : OwnIfInherited ada (ofString "name") := fun _ inherited => by
    rw [plainName] at inherited
    contradiction
  have listed : ListedIfInherited ada [ofString "name"] := fun key there _ => by
    rw [ada, hasOwn_object] at there
    exact there
  constructor
  · simp only [named, objectOf, plain, Clear, ClearAll, ItemsClear, PropertiesClear, OthersClear]
    simp [own, listed]
  · simp only [namedShape, JsonSchema.Clear, JsonSchema.AllClear, JsonSchema.ItemsClear,
      JsonSchema.PropertiesClear, JsonSchema.OtherClear]
    refine ⟨by simpa using own, fun key there inherited => .inl (listed key there inherited), ?_⟩
    simp [ada, Json.member, HasOwn]

/-- The arguments are let through. -/
theorem checkToolArgs_ada : checkToolArgs named (some ada) = .ok ada := by
  have none : check ada named = [] := by decide
  have isObject : JsonType.object.admits ada = true := rfl
  simp [checkToolArgs, strictly_named, none, isObject]

theorem validators_sound_ada :
    (check ada named = [] ↔ Satisfies named ada) ∧
    (JsonSchema.validate (fun _ => none) namedShape.toJson ada = [] ↔
      Meets (fun _ => none) namedShape ada) ∧
    Satisfies named ada := by
  obtain ⟨runner, worker, tool⟩ := validators_sound
  have sound : JsonSchema.Sound namedShape := by
    simp [namedShape, JsonSchema.Sound, JsonSchema.AllSound, JsonSchema.PropertiesSound]
  have accepted := tool named (some ada) ada
  rw [strictly_named] at accepted
  exact ⟨runner named ada plain_named clear_ada.1,
    worker _ namedShape ada sound (by decide) rfl clear_ada.2,
    (accepted plain_named clear_ada.1 checkToolArgs_ada).2⟩

/-- Nothing but what every object inherits. -/
def builtBy : Json := .object [(ofString "constructor", .null)]

/-- Arrays in arrays. -/
def nested : Nat → Json
  | 0 => .null
  | depth + 1 => .array [nested depth]

def nestedShape : Nat → Shape
  | 0 => .anything
  | depth + 1 => .node {} [] [] [nestedShape depth] [] []

theorem meets_nested (regExp : RegExp) (depth : Nat) :
    Meets regExp (nestedShape depth) (nested depth) := by
  induction depth with
  | zero => trivial
  | succ depth ih =>
      rw [nestedShape, nested, Meets, JsonSchema.Words.allow_iff, JsonSchema.Words.bound_iff]
      simp [JsonSchema.ItemsMeet, JsonSchema.PropertiesMeet, Json.array?, Json.member, ih]

/-- A name that every object inherits passes for a property, and deep arrays for none. -/
theorem not_validators_sound :
    ¬ (∀ schema value, check value schema = [] ↔ Satisfies schema value) ∧
    ¬ (∀ regExp shape, JsonSchema.validate regExp shape.toJson builtBy = [] ↔
      Meets regExp shape builtBy) ∧
    ¬ ∀ regExp shape, JsonSchema.validate regExp shape.toJson (nested 11) = [] ↔
      Meets regExp shape (nested 11) := by
  refine ⟨fun runner => ?_, fun worker => ?_, fun worker => ?_⟩
  · have accepted : check builtBy (objectOf { closed := true } []) = [] := by decide
    have satisfied := (runner _ _).1 accepted
    rw [objectOf, Satisfies] at satisfied
    simp [builtBy, hasOwn_object] at satisfied
  · have accepted : JsonSchema.validate (fun _ => none)
        (Shape.toJson (.node {} [] [] [] [] [])) builtBy = [] := by decide
    have met := (worker _ _).1 accepted
    rw [Meets] at met
    obtain ⟨_, _, _, _, _, _, others⟩ := met
    exact others (ofString "constructor") .null rfl List.not_mem_nil
  · have rejected : JsonSchema.validate (fun _ => none) (nestedShape 11).toJson (nested 11) ≠ [] := by
      decide
    exact rejected ((worker _ _).2 (meets_nested _ 11))

end Example

end Validate

end TitanRunner
