import Mathlib.Data.Option.Basic

/-!
# Who may steer the runner

`security/authorization.js`: an issue or a comment counts only when GitHub vouches
for its author.
-/

namespace TitanRunner

/-- What an issue or comment payload says about its author. -/
structure Actor where
  login : Option String := none
  type : Option String := none
  authorAssociation : Option String := none
  deriving DecidableEq, Repr

structure AuthorizationContext where
  allowlist : List String
  repoOwner : Option String
  trustAssociations : Bool
  deriving DecidableEq, Repr

structure Authorization where
  ok : Bool
  reason : String
  login : Option String
  deriving DecidableEq, Repr

/-- `TRUSTED_ASSOCIATIONS`. -/
def trustedAssociations : List String := ["OWNER", "MEMBER", "COLLABORATOR"]

/-- `NEVER_TRUSTED_LOGINS`. -/
def neverTrustedLogins : List String := ["github-actions[bot]", "dependabot[bot]"]

/-- `authorizeActor`.  Logins and associations are ASCII, so lower-casing is the
ASCII one. -/
def authorizeActor (actor : Actor) (ctx : AuthorizationContext) : Authorization :=
  match actor.login with
  | none => ⟨false, "no author login on the payload", none⟩
  | some "" => ⟨false, "no author login on the payload", none⟩
  | some rawLogin =>
      let login := rawLogin.toLower
      let association := (actor.authorAssociation.getD "").toUpper
      if neverTrustedLogins.contains login ∨ actor.type = some "Bot" then
        ⟨false, "\"" ++ login ++ "\" is a bot account", some login⟩
      else if ctx.repoOwner = some login then ⟨true, "repository owner", some login⟩
      else if ctx.allowlist.contains login then
        ⟨true, "login allowlist (TITAN_TASK_AUTHORS)", some login⟩
      else if ctx.trustAssociations ∧ trustedAssociations.contains association then
        ⟨true, "author_association " ++ association, some login⟩
      else
        ⟨false, "\"" ++ login ++ "\" is not the owner, not allowlisted, and association is \"" ++
          (if association = "" then "NONE" else association) ++ "\"", some login⟩

/-- A person with a login, and the owner, somebody who is listed or, where associations are
trusted, somebody of a trusted one. -/
def Vouched (actor : Actor) (ctx : AuthorizationContext) : Prop :=
  ∃ login ∈ actor.login, login ≠ "" ∧ login.toLower ∉ neverTrustedLogins ∧
    actor.type ≠ some "Bot" ∧ (ctx.repoOwner = some login.toLower ∨ login.toLower ∈ ctx.allowlist ∨
      ctx.trustAssociations = true ∧
        (actor.authorAssociation.getD "").toUpper ∈ trustedAssociations)

/-- Exactly these are authorized, so no configuration lets the pulse's own account steer it. -/
theorem authorizeActor_ok_iff {actor : Actor} {ctx : AuthorizationContext} :
    (authorizeActor actor ctx).ok = true ↔ Vouched actor ctx := by
  unfold authorizeActor Vouched
  split
  next absent => simp [absent]
  next empty => simp [empty]
  next login nonempty present =>
    have named : login ≠ "" := nonempty
    simp only [present, Option.mem_def, Option.some.injEq, exists_eq_left', ne_eq, named,
      not_false_eq_true, true_and, List.contains_eq_mem, decide_eq_true_eq]
    by_cases bot : login.toLower ∈ neverTrustedLogins ∨ actor.type = some "Bot"
    · rw [if_pos bot]
      grind
    · rw [if_neg bot]
      split
      next owner => grind
      next => split <;> grind

end TitanRunner
