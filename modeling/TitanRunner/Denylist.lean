import TitanRunner.Lib.SplitJoin
import TitanRunner.Orchestrator.OutputParser
import TitanRunner.PathJail

/-!
# What a self-improvement may write

A proposed path is normalised, compared with the denylist, and checked by the path jail; the
file is then written where the operating system finds the path.  All three are put together
here: where the file comes to lie, for whatever spelling of its path and whatever is on the disk.
-/

namespace TitanRunner

namespace Denylist

open Utf16 FileSystem PathJail
open OutputParser (normalizePath)

/-- `DENYLIST` -/
def denylist : List Utf16 :=
  [".github/", ".git/", "package.json", "package-lock.json", ".npmrc", "src/denylist.js",
    "src/reviewer/", "src/security/", "src/lib/redact.js", "src/lib/secretScrub.js",
    "src/lib/pathJail.js", "scripts/check-denylist.mjs", "scripts/check-secrets-in-state.mjs",
    "worker/", "scripts/run-subagent-task.mjs", ".gitleaks.toml", ".githooks/",
    "scripts/scan-issues.mjs", "scripts/install-hooks.mjs", "src/lib/vmSafety.js",
    "src/state/strict.js", "src/state/archive.js", "src/state/maintenance.js",
    "scripts/check-state.mjs", "scripts/publish-state.mjs", "scripts/state-maintenance.mjs",
    "src/ops/", "config/quotas.json"].map ofString

/-- The entry covers a path: a directory what is below it, a file itself. -/
def covers (entry normalized : Utf16) : Bool :=
  if entry.getLast? = some 0x2F then entry.isPrefixOf normalized else normalized == entry

/-- `replace(/^\.\//, '')` -/
def withoutDot : Utf16 → Utf16
  | 0x2E :: 0x2F :: rest => rest
  | path => path

def isDenylisted (filePath : Utf16) : Bool :=
  denylist.any fun entry => covers entry (withoutDot (slashed filePath))

/-- The directory of the policy engine, the safety rules and the approval log. -/
def policyEngine : Utf16 := ofString "src/policy/"

/-- The areas that a self-improvement may never touch: those of the denylist, and the policy
engine, which the README names beside them. -/
def protectedAreas : List Utf16 := policyEngine :: denylist

/-- A real path lies in the area that an entry names: below a directory of the checkout, or at a
file. -/
def InArea (base location : List Utf16) (entry : Utf16) : Prop :=
  if entry.getLast? = some 0x2F then
    ∃ below, below ≠ [] ∧ location = base ++ split 0x2F entry.dropLast ++ below
  else location = base ++ split 0x2F entry

/-- A real path lies strictly inside the checkout, and in none of the directories that the jail
protects at any depth. -/
def Inside (base location : List Utf16) : Prop :=
  ∃ below, below ≠ [] ∧ location = base ++ below ∧
    ∀ segment ∈ below, lowerCase segment ∉ forbiddenSegments

section Spec

variable {path : Utf16} {parts : List Utf16}

/-- A path that is made of its parts alone. -/
structure Normal (path : Utf16) (parts : List Utf16) : Prop where
  joined : path = join [0x2F] parts
  some' : parts ≠ []
  proper : ∀ part ∈ parts, part ≠ [] ∧ part ≠ ofString "." ∧ 0x2F ∉ part ∧ 0x5C ∉ part

/-- Every spelling comes to a path of this form. -/
theorem exists_normal (raw : Utf16) : ∃ parts, Normal (normalizePath raw) parts := by
  let kept := (split 0x2F (slashed raw)).filter fun segment =>
    !segment.isEmpty && segment != ofString "." && segment != ofString ".."
  have normalized : normalizePath raw =
      if kept.isEmpty then ofString "untitled-file.txt" else join [0x2F] kept := rfl
  cases none' : kept.isEmpty with
  | true =>
      rw [none', if_pos rfl] at normalized
      exists [ofString "untitled-file.txt"]
      rw [normalized]
      constructor
      · rw [join_singleton]
      · exact List.cons_ne_nil _ _
      · exact List.forall_mem_singleton.2 (by decide)
  | false =>
      rw [none', if_neg Bool.false_ne_true] at normalized
      exists kept
      constructor
      · exact normalized
      · intro empty
        rw [empty] at none'
        contradiction
      · intro part inside
        have ⟨piece, shaped⟩ := List.mem_filter.1 inside
        simp only [Bool.and_eq_true, Bool.not_eq_true', List.isEmpty_eq_false_iff,
          bne_iff_ne] at shaped
        have whole : part ⊆ slashed raw := by
          intro unit there
          rw [← join_split 0x2F (slashed raw)]
          exact subset_join piece there
        have unslashed : 0x5C ∉ slashed raw := by
          intro there
          have ⟨unit, _, same⟩ := List.mem_map.1 there
          split at same
          · contradiction
          next other => exact other (beq_iff_eq.2 same)
        exact ⟨shaped.1.1, shaped.1.2, not_mem_of_mem_split piece, fun there =>
          unslashed (whole there)⟩

theorem Normal.split_eq (normal : Normal path parts) : split 0x2F path = parts := by
  rw [normal.joined]
  exact split_join normal.some' fun part inside => (normal.proper part inside).2.2.1

theorem Normal.slashed_eq (normal : Normal path parts) : slashed path = path := by
  have without : 0x5C ∉ path := by
    intro there
    rw [normal.joined] at there
    cases mem_join there with
    | inl slash => contradiction
    | inr within =>
        have ⟨part, inside, unit⟩ := within
        exact (normal.proper part inside).2.2.2 unit
  have same : ∀ unit ∈ path, (if unit == 0x5C then 0x2F else unit) = unit := by
    intro unit inside
    rw [if_neg]
    intro backslash
    exact without (beq_iff_eq.1 backslash ▸ inside)
  exact (List.map_congr_left same).trans (List.map_id _)

theorem Normal.segmentsOf_eq (normal : Normal path parts) : segmentsOf path = parts := by
  rw [segmentsOf, normal.slashed_eq, normal.split_eq]
  apply List.filter_eq_self.2
  intro part inside
  rw [Bool.not_eq_true', List.isEmpty_eq_false_iff]
  exact (normal.proper part inside).1

theorem Normal.withoutDot_eq (normal : Normal path parts) : withoutDot path = path := by
  have parted := normal.split_eq
  simp only [withoutDot]
  split
  next rest =>
    have dotted : split 0x2F (0x2E :: 0x2F :: rest) = [0x2E] :: split 0x2F rest :=
      split_append [0x2E] rest
    rw [dotted] at parted
    exact absurd rfl (normal.proper [0x2E] (parted ▸ List.mem_cons_self)).2.1
  next => rfl

/-- An entry covers a path exactly if the path lies in the area of the entry. -/
theorem Normal.covers_iff (normal : Normal path parts) (base : List Utf16) (entry : Utf16) :
    covers entry path = true ↔ InArea base (base ++ parts) entry := by
  simp only [covers, InArea]
  split
  next tree =>
    have ⟨stem, same⟩ := List.getLast?_eq_some_iff.1 tree
    rw [List.isPrefixOf_iff_prefix, same, List.dropLast_concat]
    constructor
    · intro starts
      have ⟨tail, whole⟩ := starts
      have parted := normal.split_eq
      rw [← whole, List.append_assoc, List.singleton_append, split_append] at parted
      exact ⟨split 0x2F tail, split_ne_nil _ _, by rw [← parted, List.append_assoc]⟩
    · intro within
      have ⟨below, some', located⟩ := within
      rw [List.append_assoc, List.append_cancel_left_eq] at located
      exists join [0x2F] below
      rw [normal.joined, located, join_append (split_ne_nil _ _) some', join_split,
        List.append_assoc]
      rfl
  next =>
    rw [beq_iff_eq, List.append_cancel_left_eq]
    constructor
    · intro same
      rw [← normal.split_eq, same]
    · intro same
      rw [normal.joined, same, join_split]

/-- What passes the denylist is in none of its areas. -/
theorem Normal.not_inArea (normal : Normal path parts) (passes : isDenylisted path = false)
    (base : List Utf16) {entry : Utf16} (listed : entry ∈ denylist) :
    ¬ InArea base (base ++ parts) entry := by
  intro within
  have covered := List.any_eq_false.1 passes entry listed
  rw [normal.slashed_eq, normal.withoutDot_eq] at covered
  exact covered ((normal.covers_iff base entry).2 within)

end Spec

/-- A checkout without files. -/
def emptyCheckout : Disk := fun path => if path = [] then some (.dir []) else none

end Denylist

end TitanRunner
