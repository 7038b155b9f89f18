import Mathlib.Data.List.Sort
import TitanRunner.Lib.SplitJoin
import TitanRunner.PathJail

/-!
# The tools that read the checkout

`repo_read_file`, `repo_list_files` and `repo_search` of `src/tools/builtin.js`, over a disk that
stays as it is during the call.  What the runtime makes of bytes and texts is a parameter.
-/

namespace TitanRunner

namespace Builtin

open Utf16 FileSystem PathJail

/-- `MAX_READ_BYTES` -/
def maxReadBytes : Nat := 64 * 1024

/-- `MAX_LIST_ENTRIES` -/
def maxListEntries : Nat := 200

/-- `MAX_SEARCH_FILES` -/
def maxSearchFiles : Nat := 400

/-- `MAX_SEARCH_HITS` -/
def maxSearchHits : Nat := 60

/-- `MAX_SEARCH_FILE_BYTES` -/
def maxSearchFileBytes : Nat := 256 * 1024

/-- `SKIP_DIRS` -/
def skipDirs : List Utf16 := [".git", "node_modules", ".cache", "dist", "coverage"].map ofString

/-- The functions of the runtime on bytes and texts. -/
structure Runtime where
  /-- `Buffer.toString('utf8')` -/
  decode : List UInt8 → Utf16
  /-- `toLowerCase` -/
  lower : Utf16 → Utf16
  /-- `test` of `new RegExp(query, 'i')`; none if the expression is invalid. -/
  compile : Utf16 → Option (Utf16 → Bool)
  /-- `localeCompare`, at most zero. -/
  before : Utf16 → Utf16 → Bool

/-- A relative path with slashes. -/
def shown (segments : List Utf16) : Utf16 := join [0x2F] segments

section

variable (runtime : Runtime) (disk : Disk) (base : List Utf16)

/-- An error of the file system is an error of the tool. -/
def orThrow {α : Type} : Option α → Except Utf16 α
  | some value => .ok value
  | none => .error (ofString "EIO")

/-- `jailedRead` -/
def jailedRead (rel : Utf16) : Except Utf16 (List Utf16) :=
  (checkRepoRelativePath disk base .read rel).mapError (ofString "refused: " ++ ·)

/-- The text that `repo_read_file` makes of a file's content. -/
def cutText (maxBytes : Option Nat) (content : List UInt8) : Utf16 :=
  let cap := min (maxBytes.getD maxReadBytes) maxReadBytes
  let text := runtime.decode (content.take cap)
  if cap < content.length then
    text ++ ofString "\n…[truncated: " ++ ofNat (content.length - cap) ++ ofString " more bytes]"
  else text

/-- `repo_read_file` -/
def repoReadFile (path : Utf16) (maxBytes : Option Nat) : Except Utf16 Utf16 := do
  let segments ← jailedRead disk base path
  match disk.stat maxLinks base segments with
  | none => .error (ofString "no such file: " ++ shown segments)
  | some (.file _) =>
      (orThrow (disk.readFile maxLinks base segments)).map (cutText runtime maxBytes)
  | some _ => .error (ofString "not a file: " ++ shown segments)

/-- The directory that `path` names; a missing path and `.` name the checkout itself. -/
def directoryOf (path : Option Utf16) : Except Utf16 (List Utf16) :=
  match path with
  | none => .ok []
  | some path =>
      if path.isEmpty || path == ofString "." then .ok [] else jailedRead disk base path

/-- `existsSync(base) && statSync(base).isDirectory()` -/
def isDirectory (segments : List Utf16) : Bool :=
  match disk.stat maxLinks base segments with
  | some (.dir _) => true
  | _ => false

/-- The lines of `repo_list_files`, and the directories it read. -/
structure Listing where
  out : List Utf16 := []
  visited : List (List Utf16) := []
  deriving DecidableEq, Repr

/-- An entry of a directory is listed; `descend` is what is done with a directory. -/
def listEntry (descend : List Utf16 → Listing → Except Utf16 Listing) (dir : List Utf16)
    (listing : Listing) (found : Utf16 × Entry Utf16 (List UInt8)) : Except Utf16 Listing :=
  if maxListEntries ≤ listing.out.length ∨ found.1 ∈ skipDirs then .ok listing
  else
    match found.2 with
    | .dir _ =>
        descend (dir ++ [found.1])
          { listing with out := listing.out ++ [shown (dir ++ [found.1]) ++ [0x2F]] }
    | .file _ => .ok { listing with out := listing.out ++ [shown (dir ++ [found.1])] }
    | .link _ _ => .ok listing

/-- A directory is listed. -/
def listLevel (descend : List Utf16 → Listing → Except Utf16 Listing) (dir : List Utf16)
    (listing : Listing) : Except Utf16 Listing :=
  if maxListEntries ≤ listing.out.length then .ok listing
  else do
    let entries ← orThrow (disk.readdir maxLinks base dir)
    (entries.insertionSort fun left right => runtime.before left.1 right.1 = true).foldlM
      (listEntry descend dir) { listing with visited := dir :: listing.visited }

/-- `walk` of `repo_list_files`, with `depth - 1` levels to go. -/
def listWalk : Nat → List Utf16 → Listing → Except Utf16 Listing
  | 0 => listLevel runtime disk base fun _ listing => .ok listing
  | left + 1 => listLevel runtime disk base (listWalk left)

def listText (out : List Utf16) : Utf16 :=
  if out.isEmpty then ofString "(empty)"
  else join [0x0A] out ++
    if maxListEntries ≤ out.length then ofString "\n…[list truncated]" else []

/-- `repo_list_files`, before its lines are joined by `listText`. -/
def repoListFiles (path : Option Utf16) (depth : Option Nat) : Except Utf16 Listing := do
  let dir ← directoryOf disk base path
  if isDirectory disk base dir then listWalk runtime disk base (depth.getD 2 - 1) dir {}
  else
    .error (ofString "not a directory: " ++
      (path.filter fun path => !path.isEmpty).getD (ofString "."))

/-- A line that matched: the file it is from, its number from zero, and its text. -/
structure Hit where
  segments : List Utf16
  number : Nat
  text : Utf16
  deriving DecidableEq, Repr

def Hit.render (hit : Hit) : Utf16 :=
  shown hit.segments ++ ofString ":" ++ ofNat (hit.number + 1) ++ ofString ": " ++ hit.text

structure Search where
  files : Nat := 0
  hits : List Hit := []
  deriving DecidableEq, Repr

def Search.full (search : Search) : Bool :=
  decide (maxSearchFiles ≤ search.files) || decide (maxSearchHits ≤ search.hits.length)

/-- The lines of a file are matched, up to the limit of hits. -/
def searchLines (matcher : Utf16 → Bool) (segments : List Utf16) (text : Utf16)
    (hits : List Hit) : List Hit :=
  (split 0x0A text).zipIdx.foldl (fun hits (line, number) =>
    if hits.length < maxSearchHits ∧ matcher line then
      hits ++ [{ segments, number, text := (Utf16.trim line).take 200 }]
    else hits) hits

/-- A file that the search comes to. -/
def searchFile (matcher : Utf16 → Bool) (ext : Option Utf16) (dir : List Utf16) (name : Utf16)
    (search : Search) : Except Utf16 Search :=
  if ext.any fun ext => !ext.isSuffixOf (runtime.lower name) then .ok search
  else do
    match ← orThrow (disk.lstat maxLinks base (dir ++ [name])) with
    | .link _ _ => .ok search
    | _ =>
        let content ← orThrow (disk.readFile maxLinks base (dir ++ [name]))
        let search := { search with files := search.files + 1 }
        if maxSearchFileBytes < content.length then .ok search
        else
          match checkRepoRelativePath disk base .read (shown (dir ++ [name])) with
          | .error _ => .ok search
          | .ok _ =>
              .ok { search with
                hits := searchLines matcher (dir ++ [name]) (runtime.decode content) search.hits }

/-- An entry that the search comes to; `descend` is what is done with a directory. -/
def searchEntry (matcher : Utf16 → Bool) (ext : Option Utf16)
    (descend : List Utf16 → Search → Except Utf16 Search) (dir : List Utf16) (search : Search)
    (found : Utf16 × Entry Utf16 (List UInt8)) : Except Utf16 Search :=
  if search.full = true ∨ found.1 ∈ skipDirs then .ok search
  else
    match found.2 with
    | .dir _ => descend (dir ++ [found.1]) search
    | .file _ => searchFile runtime disk base matcher ext dir found.1 search
    | .link _ _ => .ok search

/-- `walk` of `repo_search`; `levels` bounds how deep directories lie in each other. -/
def searchWalk (matcher : Utf16 → Bool) (ext : Option Utf16) :
    Nat → List Utf16 → Search → Except Utf16 Search
  | 0, _, search => .ok search
  | levels + 1, dir, search =>
      if search.full then .ok search
      else do
        let entries ← orThrow (disk.readdir maxLinks base dir)
        entries.foldlM
          (searchEntry runtime disk base matcher ext (searchWalk matcher ext levels) dir) search

/-- `/^\*\.[a-z0-9]+$/i.test(glob) ? glob.slice(1).toLowerCase() : null` -/
def extOf (glob : Option Utf16) : Option Utf16 :=
  match glob with
  | some (0x2A :: 0x2E :: rest) =>
      if !rest.isEmpty && rest.all isAlnum then some (runtime.lower (0x2E :: rest)) else none
  | _ => none

def matcherOf (query : Utf16) (regex : Bool) : Option (Utf16 → Bool) :=
  if regex then runtime.compile query
  else some fun line => decide (runtime.lower query <:+: runtime.lower line)

def searchText (hits : List Hit) : Utf16 :=
  if hits.isEmpty then ofString "(no matches)"
  else join [0x0A] (hits.map Hit.render) ++
    if maxSearchHits ≤ hits.length then ofString "\n…[more matches omitted]" else []

/-- `repo_search`, before its hits are joined by `searchText`. -/
def repoSearch (levels : Nat) (query : Utf16) (regex : Bool) (path glob : Option Utf16) :
    Except Utf16 (List Hit) := do
  match matcherOf runtime query regex with
  | none => .error (ofString "invalid regular expression")
  | some matcher =>
      let dir ← directoryOf disk base path
      if isDirectory disk base dir then
        (searchWalk runtime disk base matcher (extOf runtime glob) levels dir {}).map Search.hits
      else .error (ofString "search path is not a directory")

end

end Builtin

end TitanRunner
