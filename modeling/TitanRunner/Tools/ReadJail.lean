import TitanRunner.Lib.DepthFirst
import TitanRunner.Tools.Builtin

/-!
# The read jail

What the reading tools return comes from regular files of the checkout that lie where their
paths say, behind no link, and whose names are no secret.  The three tools come to a file in
their own ways; the search and the listing carry along that the directory they are in is plain.
-/

namespace TitanRunner

namespace Builtin

open Utf16 FileSystem PathJail

/-- A regular file inside the checkout that a tool may show. -/
structure Readable (disk : Disk) (base segments : List Utf16) (content : List UInt8) : Prop where
  /-- It is reached without a symbolic link, at the place that the segments say. -/
  plain : disk.Plain base segments
  regular : disk (base ++ segments) = some (.file content)
  apart : ∀ segment ∈ segments, lowerCase segment ≠ ofString ".git" ∧
    lowerCase segment ≠ ofString "node_modules"
  harmless : ∀ segment ∈ segments, isCredentialName segment = false

/-- A directory of the checkout that is reached without a symbolic link. -/
structure OpenDirectory (disk : Disk) (base segments : List Utf16) : Prop where
  plain : disk.Plain base segments
  directory : ∃ names, disk (base ++ segments) = some (.dir names)

/-! ## Names -/

section Names

variable {segment : Utf16} {segments : List Utf16}

theorem map_lower_slashed (text : Utf16) : (slashed text).map lower = slashed (text.map lower) := by
  simp only [slashed, List.map_map]
  apply List.map_congr_left
  intro unit _
  simp only [Function.comp_apply, beq_iff_eq]
  cases decEq unit 0x5C with
  | isTrue same =>
      subst same
      rfl
  | isFalse other =>
      have kept : lower unit ≠ 0x5C := fun same => other (eq_of_lower same rfl)
      rw [if_neg other, if_neg kept]

/-- What a name holds in lower case, without a slash or a backslash, one of its pieces holds. -/
theorem exists_piece_lower (before part after : Utf16)
    (holds : segment.map lower = before ++ part ++ after)
    (without : 0x2F ∉ part ∧ 0x5C ∉ part) :
    ∃ piece ∈ split 0x2F (slashed segment), ∃ left right,
      piece.map lower = left ++ part ++ right ∧ (before = [] → left = []) ∧
      (after = [] → right = []) ∧ (after.head? = some 0x2E → right.head? = some 0x2E) := by
  have mapped : (slashed segment).map lower = slashed before ++ part ++ slashed after := by
    have same : slashed part = part := by
      have kept : ∀ unit ∈ part, (if unit == 0x5C then 0x2F else unit) = unit := by
        intro unit inside
        rw [if_neg]
        intro backslash
        exact without.2 (beq_iff_eq.1 backslash ▸ inside)
      exact (List.map_congr_left kept).trans (List.map_id _)
    rw [map_lower_slashed, holds, slashed, List.map_append, List.map_append]
    rw [slashed] at same
    rw [same]
    rfl
  have ⟨front, back, whole, frontLower, backLower⟩ := List.map_eq_append_iff.1 mapped
  have ⟨first, middle, parted, firstLower, middleLower⟩ := List.map_eq_append_iff.1 frontLower
  have unslashed : 0x2F ∉ middle := by
    intro inside
    apply without.1
    rw [← middleLower]
    exact List.mem_map.2 ⟨0x2F, inside, rfl⟩
  have ⟨left, right, inside, atStart, atEnd, next⟩ := exists_piece first middle back unslashed
  rw [← parted, ← whole] at inside
  exists left ++ middle ++ right
  constructor
  · exact inside
  exists left.map lower, right.map lower
  constructor
  · rw [List.map_append, List.map_append, middleLower]
  constructor
  · intro empty
    rw [empty] at firstLower
    rw [atStart (List.map_eq_nil_iff.1 firstLower)]
    rfl
  constructor
  · intro empty
    rw [empty] at backLower
    rw [atEnd (List.map_eq_nil_iff.1 backLower)]
    rfl
  · intro dotted
    have starts : (back.map lower).head? = some 0x2E := by
      rw [backLower]
      cases after with
      | nil => contradiction
      | cons unit rest =>
          cases dotted
          rfl
    rw [List.head?_map, Option.map_eq_some_iff] at starts
    have ⟨unit, here, same⟩ := starts
    have dot : unit = 0x2E := eq_of_lower same rfl
    subst dot
    rw [List.head?_map, next 0x2E (by decide) here]
    rfl

/-- The three shapes of a credential or environment file. -/
theorem isCredentialName_iff : isCredentialName segment = true ↔
    (∃ rest, segment.map lower = ofString ".env" ++ rest ∧
      (rest = [] ∨ rest.head? = some 0x2E)) ∨
    (∃ ending ∈ credentialEndings, ∃ before, segment.map lower = before ++ ofString ending) ∨
    ∃ before after, segment.map lower = before ++ ofString "id_rsa" ++ after := by
  simp only [isCredentialName, Bool.or_eq_true, or_assoc]
  apply or_congr
  · constructor
    · intro shaped
      split at shaped
      next rest found =>
        rw [Bool.or_eq_true, List.isEmpty_iff, beq_iff_eq] at shaped
        exact ⟨rest, (List.isPrefixOf?_eq_some_iff_append_eq.1 found).symm, shaped⟩
      next => contradiction
    · intro ⟨rest, starts, shaped⟩
      rw [List.isPrefixOf?_eq_some_iff_append_eq.2 starts.symm]
      simp only [Bool.or_eq_true, List.isEmpty_iff, beq_iff_eq]
      exact shaped
  apply or_congr
  · rw [List.any_eq_true]
    apply exists_congr
    intro ending
    rw [List.isSuffixOf_iff_suffix]
    apply and_congr_right
    intro _
    constructor
    · intro ⟨before, same⟩
      exact ⟨before, same.symm⟩
    · intro ⟨before, same⟩
      exact ⟨before, same.symm⟩
  · rw [decide_eq_true_eq]
    constructor
    · intro ⟨before, after, same⟩
      exact ⟨before, after, same.symm⟩
    · intro ⟨before, after, same⟩
      exact ⟨before, after, same.symm⟩

/-- A piece of a credential name is one. -/
theorem exists_credentialPiece (credential : isCredentialName segment = true) :
    ∃ piece ∈ split 0x2F (slashed segment), piece ≠ [] ∧ isCredentialName piece = true := by
  have some' : ∀ piece : Utf16, isCredentialName piece = true → piece ≠ [] := by
    intro piece shaped empty
    rw [empty] at shaped
    revert shaped
    decide
  cases isCredentialName_iff.1 credential with
  | inl environment =>
      have ⟨rest, starts, shaped⟩ := environment
      have ⟨piece, inside, left, right, holds, atStart, atEnd, dotted⟩ :=
        exists_piece_lower [] (ofString ".env") rest starts (by decide)
      have named : isCredentialName piece = true := by
        apply isCredentialName_iff.2
        apply Or.inl
        exists right
        constructor
        · rw [holds, atStart rfl, List.nil_append]
        · cases shaped with
          | inl empty => exact .inl (atEnd empty)
          | inr starts => exact .inr (dotted starts)
      exact ⟨piece, inside, some' piece named, named⟩
  | inr others =>
      cases others with
      | inl ends =>
          have ⟨ending, listed, before, same⟩ := ends
          have every : ∀ ending ∈ credentialEndings,
              0x2F ∉ ofString ending ∧ 0x5C ∉ ofString ending := by decide
          have without := every ending listed
          have same' : segment.map lower = before ++ ofString ending ++ [] := by
            rw [same, List.append_nil]
          have ⟨piece, inside, left, right, holds, _, atEnd, _⟩ :=
            exists_piece_lower before (ofString ending) [] same' without
          have named : isCredentialName piece = true := by
            apply isCredentialName_iff.2
            apply Or.inr
            apply Or.inl
            exists ending
            constructor
            · exact listed
            · exact ⟨left, by rw [holds, atEnd rfl, List.append_nil]⟩
          exact ⟨piece, inside, some' piece named, named⟩
      | inr holds' =>
          have ⟨before, after, same⟩ := holds'
          have ⟨piece, inside, left, right, holds, _, _, _⟩ :=
            exists_piece_lower before (ofString "id_rsa") after same (by decide)
          have named : isCredentialName piece = true := by
            apply isCredentialName_iff.2
            apply Or.inr
            apply Or.inr
            exact ⟨left, right, holds⟩
          exact ⟨piece, inside, some' piece named, named⟩

/-- A segment that may be read is no protected directory and no credential file. -/
theorem clean_of_read (accepted : refuseSegment .read segment = none) :
    (lowerCase segment ≠ ofString ".git" ∧ lowerCase segment ≠ ofString "node_modules") ∧
      isCredentialName segment = false := by
  have ⟨allowed, harmless⟩ := clean_of_refuseSegment accepted
  have apart : ∀ name ∈ forbiddenSegments, name ≠ ofString ".github" →
      lowerCase segment ≠ name := by
    intro name listed other same
    exact other (same.symm.trans (allowed (same ▸ listed)).2)
  constructor
  · constructor
    · exact apart _ (by decide) (by decide)
    · exact apart _ (by decide) (by decide)
  · exact harmless

/-- A name whose pieces are all accepted is no protected directory and no credential file. -/
theorem clean_of_pieces (accepted : ∀ piece ∈ split 0x2F (slashed segment), piece ≠ [] →
      refuseSegment .read piece = none) :
    (lowerCase segment ≠ ofString ".git" ∧ lowerCase segment ≠ ofString "node_modules") ∧
      isCredentialName segment = false := by
  have whole : ∀ name : Utf16, 0x2F ∉ name → 0x5C ∉ name → lowerCase segment = name →
      split 0x2F (slashed segment) = [segment] := by
    intro name slash backslash same
    have without : 0x2F ∉ segment ∧ 0x5C ∉ segment := by
      constructor
      · intro inside
        exact slash (same ▸ List.mem_map.2 ⟨0x2F, inside, rfl⟩)
      · intro inside
        exact backslash (same ▸ List.mem_map.2 ⟨0x5C, inside, rfl⟩)
    have kept : slashed segment = segment := by
      have each : ∀ unit ∈ segment, (if unit == 0x5C then 0x2F else unit) = unit := by
        intro unit inside
        rw [if_neg]
        intro there
        exact without.2 (beq_iff_eq.1 there ▸ inside)
      exact (List.map_congr_left each).trans (List.map_id _)
    rw [kept, split_of_not_mem without.1]
  have apart : ∀ name : Utf16, name ≠ [] → 0x2F ∉ name → 0x5C ∉ name →
      lowerCase segment = name →
      lowerCase segment ≠ ofString ".git" ∧ lowerCase segment ≠ ofString "node_modules" := by
    intro name long slash backslash same
    rw [whole name slash backslash same, List.forall_mem_singleton] at accepted
    apply (clean_of_read (accepted _)).1
    intro empty
    rw [empty] at same
    exact long same.symm
  constructor
  · constructor
    · intro same
      exact (apart _ (by decide) (by decide) (by decide) same).1 same
    · intro same
      exact (apart _ (by decide) (by decide) (by decide) same).2 same
  · rw [Bool.eq_false_iff]
    intro credential
    have ⟨piece, inside, some', named⟩ := exists_credentialPiece credential
    have ⟨_, harmless⟩ := clean_of_read (accepted piece inside some')
    rw [named] at harmless
    contradiction

/-- The names of a path that the jail accepts are clean, with backslashes in them or not. -/
theorem clean_of_shown (accepted : refuseText .read (shown segments) = none) {name : Utf16}
    (inside : name ∈ segments) :
    (lowerCase name ≠ ofString ".git" ∧ lowerCase name ≠ ofString "node_modules") ∧
      isCredentialName name = false := by
  apply clean_of_pieces
  intro piece part some'
  apply (accepted_of_refuseText accepted).2
  apply List.mem_filter.2
  constructor
  · have mapped : slashed (shown segments) = join [0x2F] (segments.map slashed) :=
      map_join _ _ _
    rw [mapped]
    exact split_subset_join (List.mem_map_of_mem inside) part
  · rw [Bool.not_eq_true', List.isEmpty_eq_false_iff]
    exact some'

end Names

/-! ## The tools -/

section Tools

variable {disk : Disk} {base segments : List Utf16}

theorem ok_of_jailedRead {rel : Utf16} (ok : jailedRead disk base rel = .ok segments) :
    checkRepoRelativePath disk base .read rel = .ok segments := by
  simp only [jailedRead] at ok
  cases checked : checkRepoRelativePath disk base .read rel with
  | error reason =>
      rw [checked] at ok
      contradiction
  | ok found =>
      rw [checked] at ok
      cases ok
      rfl

theorem file_of_readFile {content : List UInt8} {links : Nat}
    (read : disk.readFile links base segments = some content) :
    disk.stat links base segments = some (.file content) := by
  simp only [Disk.readFile] at read
  split at read
  next found =>
    cases read
    exact found
  next => contradiction

/-- A path that the jail accepts and that names something is plain. -/
theorem plain_of_stat {entries : List Utf16} (checkout : disk base = some (.dir entries))
    {rel : Utf16} (ok : checkRepoRelativePath disk base .read rel = .ok segments)
    {entry : Entry Utf16 (List UInt8)} (found : disk.stat maxLinks base segments = some entry) :
    disk.Plain base segments ∧ disk (base ++ segments) = some entry := by
  have ⟨location, located, there⟩ := Option.bind_eq_some_iff.1 found
  have plain := plain_of_ok checkout ok located
  rw [Disk.locate_of_plain plain] at located
  cases located
  exact ⟨plain, there⟩

/-- What `repo_read_file` returns is from a file that may be shown. -/
theorem readable_of_repoReadFile {runtime : Runtime} {entries : List Utf16}
    (checkout : disk base = some (.dir entries)) {path text : Utf16} {maxBytes : Option Nat}
    (ran : repoReadFile runtime disk base path maxBytes = .ok text) :
    ∃ segments content, Readable disk base segments content ∧
      text = cutText runtime maxBytes content := by
  simp only [repoReadFile] at ran
  cases jailed : jailedRead disk base path with
  | error reason =>
      rw [jailed] at ran
      contradiction
  | ok segments =>
      rw [jailed] at ran
      have ok := ok_of_jailedRead jailed
      have ⟨accepted, _, same⟩ := ok_iff.1 ok
      simp only [bind, Except.bind] at ran
      split at ran
      next => contradiction
      next first stat =>
        cases read : disk.readFile maxLinks base segments with
        | none =>
            rw [read] at ran
            contradiction
        | some content =>
            rw [read] at ran
            cases ran
            have ⟨plain, regular⟩ := plain_of_stat checkout ok (file_of_readFile read)
            have clean := (accepted_of_refuseText accepted).2
            rw [same] at clean
            exists segments, content
            constructor
            · constructor
              · exact plain
              · exact regular
              · intro segment inside
                exact (clean_of_read (clean segment inside)).1
              · intro segment inside
                exact (clean_of_read (clean segment inside)).2
            · rfl
      next => contradiction

/-- An entry of a directory that is read. -/
theorem mem_readdir (opened : OpenDirectory disk base segments)
    {entries : List (Utf16 × Entry Utf16 (List UInt8))}
    (read : disk.readdir maxLinks base segments = some entries)
    {found : Utf16 × Entry Utf16 (List UInt8)} (inside : found ∈ entries) :
    disk (base ++ segments ++ [found.1]) = some found.2 := by
  have ⟨names, directory⟩ := opened.directory
  simp only [Disk.readdir, Disk.locate_of_plain opened.plain, Option.bind_some, directory,
    Option.some.injEq] at read
  rw [← read] at inside
  have ⟨name, _, there⟩ := List.mem_filterMap.1 inside
  have ⟨entry, here, same⟩ := Option.map_eq_some_iff.1 there
  cases same
  exact here

/-- The path to an entry of a directory that is no link. -/
theorem plain_of_entry (opened : OpenDirectory disk base segments) {name : Utf16}
    {entry : Entry Utf16 (List UInt8)} (there : disk (base ++ segments ++ [name]) = some entry)
    (direct : ∀ absolute target, entry ≠ .link absolute target) :
    disk.Plain base (segments ++ [name]) := by
  have ⟨names, directory⟩ := opened.directory
  exact Disk.plain_snoc opened.plain (.inl directory) there direct

theorem openDirectory_of_entry (opened : OpenDirectory disk base segments) {name : Utf16}
    {names : List Utf16} (there : disk (base ++ segments ++ [name]) = some (.dir names)) :
    OpenDirectory disk base (segments ++ [name]) where
  plain := plain_of_entry opened there (by intro absolute target same; contradiction)
  directory := ⟨names, by rw [← List.append_assoc]; exact there⟩

/-- The directory that a tool starts from. -/
theorem openDirectory_of_directoryOf {entries : List Utf16}
    (checkout : disk base = some (.dir entries)) {path : Option Utf16}
    (ok : directoryOf disk base path = .ok segments)
    (directory : isDirectory disk base segments = true) : OpenDirectory disk base segments := by
  have root : OpenDirectory disk base [] :=
    ⟨Disk.plain_nil, entries, by rwa [List.append_nil]⟩
  simp only [directoryOf] at ok
  split at ok
  next =>
    cases ok
    exact root
  next rel =>
    split at ok
    next =>
      cases ok
      exact root
    next =>
      simp only [isDirectory] at directory
      split at directory
      next names found =>
        have ⟨plain, there⟩ := plain_of_stat checkout (ok_of_jailedRead ok) found
        exact ⟨plain, names, there⟩
      next => contradiction

/-- A hit is a line of a file that may be shown. -/
def Sound (runtime : Runtime) (disk : Disk) (base : List Utf16) (hit : Hit) : Prop :=
  ∃ content, Readable disk base hit.segments content ∧
    ∃ line ∈ split 0x0A (runtime.decode content), hit.text = (Utf16.trim line).take 200

theorem mem_searchLines {matcher : Utf16 → Bool} {text : Utf16} {hits : List Hit} {hit : Hit}
    (inside : hit ∈ searchLines matcher segments text hits) :
    hit ∈ hits ∨ hit.segments = segments ∧
      ∃ line ∈ split 0x0A text, hit.text = (Utf16.trim line).take 200 := by
  have each : ∀ numbered ∈ (split 0x0A text).zipIdx, numbered.1 ∈ split 0x0A text := by
    intro numbered member
    exact List.fst_mem_of_mem_zipIdx member
  simp only [searchLines] at inside
  generalize (split 0x0A text).zipIdx = lines at inside each
  induction lines generalizing hits with
  | nil => exact .inl inside
  | cons numbered rest ih =>
      rw [List.foldl_cons] at inside
      have later := ih inside fun other member => each other (List.mem_cons_of_mem _ member)
      cases later with
      | inr here => exact .inr here
      | inl before =>
          split at before
          · cases List.mem_append.1 before with
            | inl earlier => exact .inl earlier
            | inr new =>
                rw [List.mem_singleton.1 new]
                exact .inr ⟨rfl, numbered.1, each numbered List.mem_cons_self, rfl⟩
          · exact .inl before

variable {runtime : Runtime} {matcher : Utf16 → Bool} {ext : Option Utf16}

theorem sound_searchFile (opened : OpenDirectory disk base segments) {name : Utf16}
    {content : List UInt8} (there : disk (base ++ segments ++ [name]) = some (.file content))
    {search after : Search} (sound : ∀ hit ∈ search.hits, Sound runtime disk base hit)
    (ran : searchFile runtime disk base matcher ext segments name search = .ok after) :
    ∀ hit ∈ after.hits, Sound runtime disk base hit := by
  have plain : disk.Plain base (segments ++ [name]) :=
    plain_of_entry opened there (by intro absolute target same; contradiction)
  have regular : disk (base ++ (segments ++ [name])) = some (.file content) := by
    rw [← List.append_assoc]
    exact there
  have read : disk.readFile maxLinks base (segments ++ [name]) = some content := by
    simp only [Disk.readFile, Disk.stat_of_plain plain, regular]
  simp only [searchFile, read, orThrow, bind, Except.bind] at ran
  split at ran
  · cases ran
    exact sound
  · split at ran
    next => contradiction
    next =>
      split at ran
      next =>
        cases ran
        exact sound
      next =>
        split at ran
        next =>
          cases ran
          exact sound
        next =>
          split at ran
          next =>
            cases ran
            exact sound
          next jailed =>
            cases ran
            intro hit inside
            cases mem_searchLines inside with
            | inl before => exact sound hit before
            | inr new =>
                have ⟨named, line, member, cut⟩ := new
                have ⟨accepted, _, _⟩ := ok_iff.1 jailed
                exists content
                rw [named]
                constructor
                · constructor
                  · exact plain
                  · exact regular
                  · intro segment member
                    exact (clean_of_shown accepted member).1
                  · intro segment member
                    exact (clean_of_shown accepted member).2
                · exact ⟨line, member, cut⟩

/-- The search keeps that its hits are sound; the induction is on the levels of directories. -/
theorem sound_searchWalk {levels : Nat} (opened : OpenDirectory disk base segments)
    {search after : Search} (sound : ∀ hit ∈ search.hits, Sound runtime disk base hit)
    (ran : searchWalk runtime disk base matcher ext levels segments search = .ok after) :
    ∀ hit ∈ after.hits, Sound runtime disk base hit := by
  induction levels generalizing segments search after with
  | zero =>
      cases ran
      exact sound
  | succ levels ih =>
      simp only [searchWalk] at ran
      split at ran
      · cases ran
        exact sound
      · cases read : disk.readdir maxLinks base segments with
        | none =>
            rw [read] at ran
            contradiction
        | some entries =>
            rw [read] at ran
            apply DepthFirst.foldlM_keeps (fun search : Search =>
              ∀ hit ∈ search.hits, Sound runtime disk base hit) _ sound ran
            intro search found after inside sound stepped
            have there := mem_readdir opened read inside
            simp only [searchEntry] at stepped
            split at stepped
            · cases stepped
              exact sound
            · cases kind : found.2 with
              | link absolute target =>
                  rw [kind] at stepped
                  cases stepped
                  exact sound
              | file content =>
                  rw [kind] at stepped there
                  exact sound_searchFile opened there sound stepped
              | dir names =>
                  rw [kind] at stepped there
                  exact ih (openDirectory_of_entry opened there) sound stepped

/-- What `repo_search` returns is from files that may be shown. -/
theorem sound_of_repoSearch {entries : List Utf16} (checkout : disk base = some (.dir entries))
    {levels : Nat} {query : Utf16} {regex : Bool} {path glob : Option Utf16} {hits : List Hit}
    (ran : repoSearch runtime disk base levels query regex path glob = .ok hits) :
    ∀ hit ∈ hits, Sound runtime disk base hit := by
  simp only [repoSearch] at ran
  split at ran
  next => contradiction
  next matcher _ =>
    cases directory : directoryOf disk base path with
    | error reason =>
        rw [directory] at ran
        contradiction
    | ok segments =>
        rw [directory] at ran
        simp only [bind, Except.bind] at ran
        split at ran
        next isDir =>
          have opened := openDirectory_of_directoryOf checkout directory isDir
          cases walked : searchWalk runtime disk base matcher (extOf runtime glob) levels segments
              {} with
          | error reason =>
              rw [walked] at ran
              contradiction
          | ok search =>
              rw [walked] at ran
              cases ran
              apply sound_searchWalk opened _ walked
              intro hit inside
              contradiction
        next => contradiction

/-! ## The listing -/

/-- The directories that were read are reached without a link. -/
def Roamed (disk : Disk) (base : List Utf16) (listing : Listing) : Prop :=
  ∀ segments ∈ listing.visited, OpenDirectory disk base segments

/-- Listing a directory keeps it, if going on with the directories in it does. -/
theorem roamed_listLevel {descend : List Utf16 → Listing → Except Utf16 Listing}
    (descends : ∀ segments listing after, OpenDirectory disk base segments →
      Roamed disk base listing → descend segments listing = .ok after → Roamed disk base after)
    (opened : OpenDirectory disk base segments) {listing after : Listing}
    (roamed : Roamed disk base listing)
    (ran : listLevel runtime disk base descend segments listing = .ok after) :
    Roamed disk base after := by
  simp only [listLevel] at ran
  split at ran
  · cases ran
    exact roamed
  · cases read : disk.readdir maxLinks base segments with
    | none =>
        rw [read] at ran
        contradiction
    | some entries =>
        rw [read] at ran
        apply DepthFirst.foldlM_keeps (Roamed disk base) _ _ ran
        · intro listing found after inside roamed stepped
          have there := mem_readdir opened read ((List.mem_insertionSort _).1 inside)
          simp only [listEntry] at stepped
          split at stepped
          · cases stepped
            exact roamed
          · cases kind : found.2 with
            | link absolute target =>
                rw [kind] at stepped
                cases stepped
                exact roamed
            | file content =>
                rw [kind] at stepped
                cases stepped
                exact roamed
            | dir names =>
                rw [kind] at stepped there
                apply descends _ _ _ (openDirectory_of_entry opened there) _ stepped
                exact roamed
        · intro visited inside
          cases List.mem_cons.1 inside with
          | inl here => exact here ▸ opened
          | inr before => exact roamed visited before

theorem roamed_listWalk {left : Nat} {listing after : Listing}
    (opened : OpenDirectory disk base segments) (roamed : Roamed disk base listing)
    (ran : listWalk runtime disk base left segments listing = .ok after) :
    Roamed disk base after := by
  induction left generalizing segments listing after with
  | zero =>
      apply roamed_listLevel _ opened roamed ran
      intro segments listing after _ roamed same
      cases same
      exact roamed
  | succ left ih =>
      apply roamed_listLevel _ opened roamed ran
      intro segments listing after opened roamed walked
      exact ih opened roamed walked

theorem roamed_of_repoListFiles {entries : List Utf16}
    (checkout : disk base = some (.dir entries)) {path : Option Utf16} {depth : Option Nat}
    {listing : Listing} (ran : repoListFiles runtime disk base path depth = .ok listing) :
    Roamed disk base listing := by
  simp only [repoListFiles] at ran
  cases directory : directoryOf disk base path with
  | error reason =>
      rw [directory] at ran
      contradiction
  | ok segments =>
      rw [directory] at ran
      simp only [bind, Except.bind] at ran
      split at ran
      next isDir =>
        apply roamed_listWalk (openDirectory_of_directoryOf checkout directory isDir) _ ran
        intro visited inside
        contradiction
      next => contradiction

/-! ## The three tools together -/

/-- Whatever files, directories and links lie where: a text that is read or found is from files
that may be shown, and a listing reads directories of the checkout only. -/
theorem stays_in_jail (runtime : Runtime) {entries : List Utf16}
    (checkout : disk base = some (.dir entries)) :
    (∀ path maxBytes text, repoReadFile runtime disk base path maxBytes = .ok text →
      ∃ segments content, Readable disk base segments content ∧
        text = cutText runtime maxBytes content) ∧
    (∀ levels query regex path glob text,
      (repoSearch runtime disk base levels query regex path glob).map searchText = .ok text →
      ∃ hits, text = searchText hits ∧ ∀ hit ∈ hits, Sound runtime disk base hit) ∧
    ∀ path depth listing, repoListFiles runtime disk base path depth = .ok listing →
      Roamed disk base listing := by
  constructor
  · intro path maxBytes text ran
    exact readable_of_repoReadFile checkout ran
  constructor
  · intro levels query regex path glob text ran
    cases searched : repoSearch runtime disk base levels query regex path glob with
    | error reason =>
        rw [searched] at ran
        contradiction
    | ok hits =>
        rw [searched] at ran
        cases ran
        exact ⟨hits, rfl, sound_of_repoSearch checkout searched⟩
  · intro path depth listing ran
    exact roamed_of_repoListFiles checkout ran

end Tools

/-- A checkout with a file, and a link beside it that leaves it. -/
def linkedCheckout : Disk := fun path =>
  if path = [ofString "repo"] then some (.dir [ofString "readme.md", ofString "out"])
  else if path = [ofString "repo", ofString "readme.md"] then some (.file [0x68, 0x69])
  else if path = [ofString "repo", ofString "out"] then some (.link false [.up])
  else none

/-- A runtime that knows ASCII, and takes an expression for the text it looks for. -/
def asciiRuntime : Runtime where
  decode := List.map fun byte => byte.toUInt16
  lower := List.map Utf16.lower
  compile query := some fun line => decide (query <:+: line)
  before left right := decide (left ≤ right)

theorem stays_in_jail_linkedCheckout :
    (∃ segments content, Readable linkedCheckout [ofString "repo"] segments content ∧
      ofString "hi" = cutText asciiRuntime none content) ∧
    (∃ hits, ofString "readme.md:1: hi" = searchText hits ∧
      ∀ hit ∈ hits, Sound asciiRuntime linkedCheckout [ofString "repo"] hit) ∧
    Roamed linkedCheckout [ofString "repo"]
      { out := [ofString "readme.md"], visited := [[]] } := by
  have checkout : linkedCheckout [ofString "repo"] =
      some (.dir [ofString "readme.md", ofString "out"]) := by rfl
  have ⟨reads, finds, lists⟩ := stays_in_jail asciiRuntime checkout
  constructor
  · exact reads (ofString "readme.md") none _ (by decide)
  constructor
  · exact finds 2 (ofString "I") false none none _ (by decide)
  · exact lists none none _ (by decide)

end Builtin

end TitanRunner
