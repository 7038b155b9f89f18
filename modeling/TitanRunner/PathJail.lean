import Mathlib.Data.List.Infix
import TitanRunner.Lib.FileSystem
import TitanRunner.Lib.Utf16

/-!
# The path jail

`checkRepoRelativePath` of `src/lib/pathJail.js`: rules about the text of a path and checks
that nothing on the way is a symbolic link.  The checkout is the directory at the real path
`base`, which the operating system finds behind the root that the code is given.
-/

namespace TitanRunner

namespace PathJail

open Utf16 FileSystem

/-- The entries below a checkout, with their contents as bytes. -/
abbrev Disk := FileSystem.Disk Utf16 (List UInt8)

inductive Mode where
  | read | write
  deriving DecidableEq, Repr

/-- `FORBIDDEN_SEGMENTS` -/
def forbiddenSegments : List Utf16 := [".git", ".github", "node_modules"].map ofString

/-- `FORBIDDEN_ROOT_FILES` -/
def forbiddenRootFiles : List Utf16 :=
  ["package.json", "package-lock.json", "npm-shrinkwrap.json", ".npmrc", ".nvmrc",
    ".gitmodules", ".gitattributes", ".gitignore"].map ofString

/-- `MAX_PATH_LENGTH` -/
def maxPathLength : Nat := 240

/-- `toLowerCase`, as far as it leads to ASCII: the Kelvin sign becomes a `k`. -/
def lowerCase (text : Utf16) : Utf16 :=
  text.map fun unit => if unit = 0x212A then 0x6B else lower unit

/-- The endings of credential files. -/
def credentialEndings : List String := [".pem", ".key", ".pfx", "credentials.json", "token.json"]

/-- `FORBIDDEN_NAME_PATTERN`:
`/^\.env(\.|$)|\.pem$|\.key$|\.pfx$|id_rsa|credentials\.json$|token\.json$/i`. -/
def isCredentialName (segment : Utf16) : Bool :=
  let lowered := segment.map lower
  (match (ofString ".env").isPrefixOf? lowered with
    | some rest => rest.isEmpty || rest.head? == some 0x2E
    | none => false) ||
  (credentialEndings.any fun ending => (ofString ending).isSuffixOf lowered) ||
  decide (ofString "id_rsa" <:+: lowered)

def hasControlCharacters (text : Utf16) : Bool :=
  text.any fun unit => decide (unit < 32) || unit == 127

/-- Backslashes are slashes. -/
def slashed (path : Utf16) : Utf16 := path.map fun unit => if unit == 0x5C then 0x2F else unit

/-- `isAbsolute`, a drive letter, or a leading slash. -/
def isAbsolutePath (normalized : Utf16) : Bool :=
  normalized.head? == some 0x2F ||
    match normalized with
    | letter :: colon :: _ => (isLower letter || isUpper letter) && colon == 0x3A
    | _ => false

def segmentsOf (rel : Utf16) : List Utf16 :=
  (split 0x2F (slashed rel)).filter fun segment => !segment.isEmpty

def quoted (segment : Utf16) (reason : String) : Utf16 :=
  ofString "\"" ++ segment ++ ofString ("\" " ++ reason)

/-- Why a segment is refused. -/
def refuseSegment (mode : Mode) (segment : Utf16) : Option Utf16 :=
  if segment = ofString "." ∨ segment = ofString ".." then some (ofString "path traversal segment")
  else if lowerCase segment ∈ forbiddenSegments ∧
      ¬ (mode = .read ∧ lowerCase segment = ofString ".github") then
    some (quoted segment "is a protected directory")
  else if isCredentialName segment then
    some (quoted segment "looks like a credential or environment file")
  else none

/-- Why a path is refused, whatever is on the disk. -/
def refuseText (mode : Mode) (rel : Utf16) : Option Utf16 :=
  if rel.isEmpty then some (ofString "empty path")
  else if maxPathLength < rel.length then
    some (ofString ("path longer than " ++ toString maxPathLength ++ " characters"))
  else if hasControlCharacters rel then some (ofString "path contains control characters")
  else if isAbsolutePath (slashed rel) then some (ofString "absolute paths are not allowed")
  else
    match segmentsOf rel with
    | [] => some (ofString "empty path")
    | first :: rest =>
        ((first :: rest).findSome? (refuseSegment mode)).or
          (if mode = .write ∧ rest = [] ∧ lowerCase first ∈ forbiddenRootFiles then
            some (quoted first "controls what CI installs or runs")
          else if (ofString "..").isPrefixOf first then
            some (ofString "resolved path escapes the checkout")
          else none)

/-- The links that the system follows before it gives up. -/
def maxLinks : Nat := 40

/-- The first ancestor that is a link; what does not exist ends the search. -/
def linkAmong (disk : Disk) (base : List Utf16) : List Utf16 → List Utf16 → Option Utf16
  | _, [] => none
  | above, segment :: rest =>
      match disk.lstat maxLinks base (above ++ [segment]) with
      | none => none
      | some (.link _ _) => some segment
      | some _ => linkAmong disk base (above ++ [segment]) rest

/-- Why a path is refused for what is on the disk. -/
def refuseLinks (disk : Disk) (base segments : List Utf16) : Option Utf16 :=
  match linkAmong disk base [] segments.dropLast with
  | some segment => some (quoted segment "is a symbolic link")
  | none =>
      match disk.lstat maxLinks base segments with
      | some (.link _ _) => some (ofString "target is a symbolic link")
      | _ => none

/-- The segments below the checkout; joined, they are `relative` of the source, and behind the
root `absolute`. -/
def checkRepoRelativePath (disk : Disk) (base : List Utf16) (mode : Mode) (rel : Utf16) :
    Except Utf16 (List Utf16) :=
  match (refuseText mode rel).or (refuseLinks disk base (segmentsOf rel)) with
  | some reason => .error reason
  | none => .ok (segmentsOf rel)

section Spec

variable {disk : Disk} {base segments : List Utf16} {mode : Mode} {rel : Utf16}

theorem ok_iff : checkRepoRelativePath disk base mode rel = .ok segments ↔
    refuseText mode rel = none ∧ refuseLinks disk base (segmentsOf rel) = none ∧
      segmentsOf rel = segments := by
  simp only [checkRepoRelativePath]
  cases refuseText mode rel with
  | some reason => simp
  | none =>
      cases refuseLinks disk base (segmentsOf rel) with
      | some reason => simp
      | none => simp

/-- What the rules about the text leave. -/
theorem accepted_of_refuseText (accepted : refuseText mode rel = none) :
    segmentsOf rel ≠ [] ∧ ∀ segment ∈ segmentsOf rel, refuseSegment mode segment = none := by
  simp only [refuseText] at accepted
  split at accepted
  · contradiction
  split at accepted
  · contradiction
  split at accepted
  · contradiction
  split at accepted
  · contradiction
  split at accepted
  · contradiction
  next first rest parts =>
    rw [parts]
    constructor
    · exact List.cons_ne_nil _ _
    · exact List.findSome?_eq_none_iff.1 (Option.or_eq_none_iff.1 accepted).1

/-- An accepted segment is no protected directory and no credential file. -/
theorem clean_of_refuseSegment {segment : Utf16} (accepted : refuseSegment mode segment = none) :
    (lowerCase segment ∈ forbiddenSegments → mode = .read ∧ lowerCase segment = ofString ".github") ∧
      isCredentialName segment = false := by
  simp only [refuseSegment] at accepted
  split at accepted
  · contradiction
  split at accepted
  · contradiction
  next apart =>
    split at accepted
    · contradiction
    next clean =>
      constructor
      · intro forbidden
        exact Classical.not_not.1 fun other => apart ⟨forbidden, other⟩
      · exact Bool.eq_false_iff.2 clean

/-- A path below plain directories, none of whose steps is a link, is walked without links. -/
theorem walk_ne_link {above ahead : List Utf16} (plain : disk.Plain base above)
    {entries : List Utf16} (directory : disk (base ++ above) = some (.dir entries))
    (ancestors : linkAmong disk base above ahead.dropLast = none)
    (target : ∀ absolute steps, disk.lstat maxLinks base (above ++ ahead) ≠
      some (.link absolute steps)) :
    ∀ dir name rest, disk.walk (base ++ above) (ahead.map .down) ≠ .link dir name rest := by
  intro dir name rest
  have lstat : ∀ segment, disk.lstat maxLinks base (above ++ [segment]) =
      disk (base ++ above ++ [segment]) := by
    intro segment
    simp only [Disk.lstat, List.getLast?_append, List.getLast?_singleton, Option.some_or,
      List.dropLast_append_cons, List.dropLast_singleton, List.append_nil,
      Disk.locate_of_plain plain, Option.bind_some, directory]
  induction ahead generalizing above entries with
  | nil => intro met; contradiction
  | cons segment later ih =>
      simp only [List.map_cons, Disk.walk]
      cases found : disk (base ++ above ++ [segment]) with
      | none => intro met; contradiction
      | some entry =>
          cases entry with
          | link absolute steps =>
              cases later with
              | nil =>
                  rw [lstat, found] at target
                  exact absurd rfl (target absolute steps)
              | cons next later =>
                  simp only [List.dropLast_cons_cons, linkAmong, lstat, found] at ancestors
                  contradiction
          | file content =>
              simp only
              split
              · intro met; contradiction
              · intro met; contradiction
          | dir names =>
              have below : disk.Plain base (above ++ [segment]) := by
                apply Disk.plain_snoc plain (.inl directory) found
                intro absolute steps same
                contradiction
              rw [List.append_assoc] at found ⊢
              apply ih below found
              · cases later with
                | nil => rfl
                | cons next later =>
                    simp only [List.dropLast_cons_cons, linkAmong, lstat, List.append_assoc,
                      found] at ancestors
                    exact ancestors
              · rw [List.append_assoc]
                exact target
              · intro segment'
                simp only [Disk.lstat, List.getLast?_append, List.getLast?_singleton,
                  Option.some_or, List.dropLast_append_cons, List.dropLast_singleton,
                  List.append_nil, Disk.locate_of_plain below, Option.bind_some, found]

/-- An accepted path is walked without links. -/
theorem walk_ne_link_of_ok {entries : List Utf16} (checkout : disk base = some (.dir entries))
    (ok : checkRepoRelativePath disk base mode rel = .ok segments) :
    ∀ dir name rest, disk.walk base (segments.map .down) ≠ .link dir name rest := by
  have ⟨_, unlinked, same⟩ := ok_iff.1 ok
  rw [same] at unlinked
  simp only [refuseLinks] at unlinked
  split at unlinked
  · contradiction
  next ancestors =>
    have target : ∀ absolute steps, disk.lstat maxLinks base ([] ++ segments) ≠
        some (.link absolute steps) := by
      intro absolute steps linked
      rw [List.nil_append] at linked
      rw [linked] at unlinked
      contradiction
    have directory : disk (base ++ []) = some (.dir entries) := by rwa [List.append_nil]
    have walked := walk_ne_link Disk.plain_nil directory ancestors target
    rwa [List.append_nil] at walked

/-- What is read through an accepted path is at the place that the path says. -/
theorem plain_of_ok {entries : List Utf16} (checkout : disk base = some (.dir entries))
    (ok : checkRepoRelativePath disk base mode rel = .ok segments) {links : Nat}
    {location : List Utf16} (located : disk.locate links base (segments.map .down) = some location) :
    disk.Plain base segments := by
  have unlinked := walk_ne_link_of_ok checkout ok
  cases walked : disk.walk base (segments.map .down) with
  | done location => exact Disk.plain_of_walk walked
  | link dir name rest => exact absurd walked (unlinked dir name rest)
  | missing dir name rest =>
      rw [Disk.locate_of_walk, walked] at located
      contradiction
  | notDirectory =>
      rw [Disk.locate_of_walk, walked] at located
      contradiction

/-- What is written through an accepted path is at the place that the path says. -/
theorem destination_of_ok {entries : List Utf16} (checkout : disk base = some (.dir entries))
    (ok : checkRepoRelativePath disk base mode rel = .ok segments) {links : Nat}
    {location : List Utf16}
    (written : disk.destination links base (segments.map .down) = some location) :
    location = base ++ segments := by
  have unlinked := walk_ne_link_of_ok checkout ok
  cases walked : disk.walk base (segments.map .down) with
  | done ended =>
      rw [Disk.destination_of_walk, walked] at written
      cases written
      exact Disk.eq_of_walk walked
  | link dir name rest => exact absurd walked (unlinked dir name rest)
  | missing dir name rest =>
      have ⟨below, same, joined⟩ := Disk.eq_of_missing walked
      rw [Disk.destination_of_walk, walked] at written
      simp only [same, Disk.downward_map, Option.map_some] at written
      cases written
      exact joined
  | notDirectory =>
      rw [Disk.destination_of_walk, walked] at written
      contradiction

end Spec

end PathJail

end TitanRunner
