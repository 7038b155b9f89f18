import TitanRunner.Lib.Url
import TitanRunner.Worker.ActionRequest

/-!
# The addresses of a custom API

`restBase`, `pathAllowed` and `restUrl` of `connectors/handlers.js`: a path that a model names is
put behind the base address, as far as the owner of the connection allows it.
-/

namespace TitanRunner

namespace RestUrl

open Utf16 Template Url ActionRequest

/-! ## The code -/

/-- `new HandlerError(message)` -/
def handlerError (message : String) : Template.Failure := .handler (ofString message)

/-- `restBase`; an address of another scheme is one that `new URL` takes. -/
def restBase (hosts : HostParser) (otherScheme : Utf16 → Bool) (config : Fields) :
    Except Template.Failure Address :=
  let text := config.shown (ofString "base_url")
  match parse hosts text with
  | none =>
      .error (handlerError (
        if otherScheme text then "The base address must use https."
        else "The base address is not valid."))
  | some base =>
      if base.credentials then
        .error (handlerError "The base address must not hold a user name or a password.")
      else if !base.query.isEmpty || !base.fragment.isEmpty then
        .error (handlerError "The base address must hold no query and no fragment.")
      else .ok base

/-- `pathAllowed` -/
def pathAllowed (path prefixesCsv : Utf16) : Bool :=
  let csv := if prefixesCsv.isEmpty then ofString "/" else prefixesCsv
  (((split 0x2C csv).map Utf16.trim).filter fun start => !start.isEmpty).any fun start =>
    start = ofString "/" || path = start ||
      (if start.getLast? = some 0x2F then start else start ++ ofString "/").isPrefixOf path

/-- The checks of a path. -/
def checkPath (path : Json) (prefixes : Option Utf16) : Except Template.Failure Utf16 :=
  match path with
  | .string path =>
      if !(ofString "/").isPrefixOf path || (ofString "//").isPrefixOf path then
        .error (handlerError "The path must start with one \"/\".")
      else if path.any (fun unit => unit == 0x3F || unit == 0x23 || unit == 0x5C) ||
          (split 0x2F path).any fun segment =>
            segment = ofString ".." || segment = ofString "." then
        .error (handlerError
          "The path must not hold \"..\", \"?\", \"#\", or a backslash.")
      else if prefixes.any fun prefixes => !pathAllowed path prefixes then
        .error (handlerError "The path is outside the allowed paths of this connection.")
      else .ok path
  | _ => .error (handlerError "The path must start with one \"/\".")

/-- The text of a value that a query may hold. -/
def queryText (key : Utf16) : Json → Except Template.Failure Utf16
  | .string text | .number text => .ok text
  | .bool value => .ok (Validate.display (.bool value))
  | _ => .error (.handler (ofString "The query value for \"" ++ key ++
      ofString "\" must be text, a number, or true or false."))

def queryPair (key : Utf16) (item : Json) : Except Template.Failure Utf16 := do
  let text ← queryText key item
  let key ← orThrow (UriComponent.encodeURIComponent key)
  let value ← orThrow (UriComponent.encodeURIComponent text)
  .ok (key ++ ofString "=" ++ value)

/-- The pairs of a query. -/
def queryPairs (query : Json) : Except Template.Failure (List Utf16) :=
  ((Approvals.entriesOf (Approvals.orEmpty query)).flatMap fun (key, value) =>
    match value with
    | .array items => items.map fun item => (key, item)
    | value => [(key, value)]).mapM fun (key, item) => queryPair key item

/-- `base.pathname.replace(/\/+$/, '')` -/
def pathPrefix (base : Address) : Utf16 := base.pathname.rdropWhile (· == 0x2F)

/-- `new URL(base.origin)` -/
def originOf (base : Address) : Address :=
  { base with credentials := false, path := [[]], query := [], fragment := [] }

def restUrl (hosts : HostParser) (base : Address) (path query : Json) (prefixes : Option Utf16) :
    Except Template.Failure Utf16 := do
  let path ← checkPath path prefixes
  let url ← orThrow (parseRooted hosts (originOf base) (pathPrefix base ++ path))
  if url.origin ≠ base.origin then
    .error (handlerError "The path leaves the host of the base address.")
  else
    let pairs ← queryPairs query
    if 20 < pairs.length then .error (handlerError "The query holds too many values.")
    else if pairs.isEmpty then .ok (url.origin ++ url.pathname)
    else .ok (url.origin ++ url.pathname ++ ofString "?" ++ join (ofString "&") pairs)

/-! ## What a path leads to -/

/-- The address is one of the base, with a path behind the base path that is allowed. -/
def IsBelow (hosts : HostParser) (base : Address) (prefixes url : Utf16) : Prop :=
  ∃ read, parse hosts url = some read ∧ read.origin = base.origin ∧
    ∃ behind, read.pathname = pathPrefix base ++ behind ∧ (ofString "/").isPrefixOf behind = true ∧
      pathAllowed behind prefixes = true

/-- The segments of the base path, without the empty ones at its end. -/
def baseSegments (base : Address) : List Utf16 := base.path.rdropWhile List.isEmpty

/-- The segments of a path as a parser sees them: without blanks at its end and without line
breaks. -/
def pathSegments (path : Utf16) : List Utf16 :=
  (((path.rdropWhile isBlank).filter fun unit => !isBreak unit).drop 1).splitOnP isSlash

/-- The segments without the component that is taken for a host, which is the first one behind two
slashes. -/
def behindHost : List Utf16 → List Utf16
  | [] :: second :: rest =>
      match ((second :: rest).dropWhile List.isEmpty).tail with
      | [] => [[]]
      | behind => behind
  | segments => segments

/-- Following the dots of a path, written in whatever way, from the base path leads behind the base
path again, to a path that is allowed. -/
def LeadsBelow (base : Address) (path prefixes : Utf16) : Prop :=
  ∃ behind, behind ≠ [] ∧
    pathOf (behindHost (baseSegments base ++ pathSegments path)) = baseSegments base ++ behind ∧
    pathAllowed (slashed behind) prefixes = true

section Paths

variable {path segments : List Utf16} {text : Utf16}

/-- No segment holds a slash. -/
def Single (path : List Utf16) : Prop := ∀ segment ∈ path, ∀ unit ∈ segment, isSlash unit = false

theorem slashed_append (before after : List Utf16) :
    slashed (before ++ after) = slashed before ++ slashed after :=
  List.flatMap_append

theorem rdropWhile_slashed (single : Single path) :
    (slashed path).rdropWhile (· == 0x2F) = slashed (path.rdropWhile List.isEmpty) := by
  induction path using List.reverseRecOn with
  | nil => rfl
  | append_singleton path last ih =>
      have before : Single path := fun segment inside =>
        single segment (List.mem_append_left _ inside)
      rw [slashed_append]
      rcases List.eq_nil_or_concat' last with rfl | ⟨start, unit, rfl⟩
      · rw [List.rdropWhile_concat_pos _ _ _ rfl, ← ih before]
        exact List.rdropWhile_concat_pos _ _ _ rfl
      · have slashless := single _ (List.mem_append_right _ List.mem_cons_self) unit
          (List.mem_append_right _ List.mem_cons_self)
        have other : ¬ (unit == 0x2F) = true := by
          intro same
          rw [beq_iff_eq] at same
          rw [same] at slashless
          contradiction
        have written : slashed path ++ slashed [start ++ [unit]] =
            (slashed path ++ 0x2F :: start) ++ [unit] := by
          simp [slashed]
        rw [written, List.rdropWhile_concat_neg (fun unit : UInt16 => unit == 0x2F) _ unit other, ← written, ← slashed_append,
          List.rdropWhile_concat_neg]
        simp

theorem pathPrefix_eq {base : Address} (single : Single base.path) :
    pathPrefix base = slashed (baseSegments base) :=
  rdropWhile_slashed single

theorem splitOnP_behind (single : Single path) (rest : Utf16) :
    ((slashed path ++ 0x2F :: rest).drop 1).splitOnP isSlash = path ++ rest.splitOnP isSlash := by
  cases path with
  | nil => rfl
  | cons first path =>
      have opened : (slashed (first :: path) ++ 0x2F :: rest).drop 1 =
          (first ++ slashed path) ++ 0x2F :: rest := by
        simp [slashed]
      have split : (first ++ slashed path).splitOnP isSlash = first :: path :=
        splitOnP_slashed single
      rw [opened, List.splitOnP_append_cons _ _ rfl, split]

/-- A path behind another one is what follows it. -/
theorem exists_behind (single : Single path) (before : Single segments) {behind : Utf16}
    (same : slashed path = slashed segments ++ behind)
    (begins : (ofString "/").isPrefixOf behind = true) :
    ∃ rest, rest ≠ [] ∧ path = segments ++ rest ∧ behind = slashed rest := by
  obtain ⟨more, rfl⟩ := List.isPrefixOf_iff_prefix.1 begins
  cases path with
  | nil =>
      have none' := (List.append_eq_nil_iff.1 same.symm).2
      contradiction
  | cons first path =>
      have read : (first ++ slashed path).splitOnP isSlash =
          segments ++ more.splitOnP isSlash := by
        rw [← splitOnP_behind before more]
        exact congrArg (fun text : Utf16 => (text.drop 1).splitOnP isSlash) same
      have split : (first ++ slashed path).splitOnP isSlash = first :: path :=
        splitOnP_slashed single
      rw [split] at read
      refine ⟨more.splitOnP isSlash, List.splitOnP_ne_nil _ _, read, ?_⟩
      rw [read, slashed_append] at same
      exact (List.append_cancel_left same).symm

/-! ### The path of an address -/

/-- The component behind two slashes is skipped. -/
theorem dropWhile_splitOnP (text : Utf16) :
    ((text.dropWhile isSlash).splitOnP isSlash).dropWhile List.isEmpty =
      (text.splitOnP isSlash).dropWhile List.isEmpty := by
  induction text with
  | nil => rfl
  | cons unit text ih =>
      cases slash : isSlash unit with
      | false => rw [List.dropWhile_cons, slash, if_neg Bool.false_ne_true]
      | true =>
          rw [List.dropWhile_cons, if_pos slash, List.splitOnP_cons_eq_if_modifyHead, if_pos slash,
            List.dropWhile_cons, if_pos List.isEmpty_nil, ih]

theorem isNot_endsAuthority (open' : ∀ unit ∈ text, endsPath unit = false) :
    text.takeWhile (isNot some endsAuthority) = text.takeWhile (fun unit => !isSlash unit) ∧
      text.dropWhile (isNot some endsAuthority) = text.dropWhile fun unit => !isSlash unit := by
  induction text with
  | nil => exact ⟨rfl, rfl⟩
  | cons unit text ih =>
      obtain ⟨taken, dropped⟩ := ih fun unit inside => open' unit (List.mem_cons_of_mem _ inside)
      have same : isNot some endsAuthority unit = !isSlash unit := by
        rw [isNot_some, endsAuthority, open' unit List.mem_cons_self, Bool.or_false]
      rw [List.takeWhile_cons, List.dropWhile_cons, List.takeWhile_cons, List.dropWhile_cons, same,
        taken, dropped]
      exact ⟨rfl, rfl⟩

theorem segmentsOf_open (open' : ∀ unit ∈ text, endsPath unit = false) :
    segmentsOf some text = (text.drop 1).splitOnP isSlash := by
  rw [segmentsOf, List.takeWhile_eq_self_iff.2]
  · rfl
  · intro unit inside
    rw [isNot_some, open' unit inside]
    rfl

/-- The first component behind two slashes is taken for a host. -/
theorem segments_partsBehind (open' : ∀ unit ∈ text, endsPath unit = false)
    (named : (partsBehind some text).host ≠ []) :
    (partsBehind some text).segments = behindHost ([] :: text.splitOnP isSlash) := by
  obtain ⟨piece, pieces, same⟩ := List.exists_cons_of_ne_nil (List.splitOnP_ne_nil isSlash text)
  rw [same, behindHost, ← same, ← dropWhile_splitOnP text]
  have open'' : ∀ unit ∈ text.dropWhile isSlash, endsPath unit = false := fun unit inside =>
    open' unit (List.dropWhile_suffix isSlash |>.subset inside)
  revert named
  simp only [partsBehind]
  have plain : text.dropWhile (is some isSlash) = text.dropWhile isSlash := rfl
  rw [plain]
  generalize text.dropWhile isSlash = rest at open''
  obtain ⟨taken, dropped⟩ := isNot_endsAuthority open''
  rw [taken, dropped]
  intro named
  have parts := List.takeWhile_append_dropWhile (p := fun unit => !isSlash unit) (l := rest)
  obtain ⟨unit, more, some'⟩ : ∃ unit more, rest.takeWhile (fun unit => !isSlash unit) =
      unit :: more := by
    apply List.exists_cons_of_ne_nil
    intro none'
    rw [none'] at named
    exact named rfl
  have single : ∀ unit ∈ rest.takeWhile (fun unit => !isSlash unit), isSlash unit = false := by
    intro unit inside
    have slashless := List.mem_takeWhile_imp inside
    rw [Bool.not_eq_true'] at slashless
    exact slashless
  cases behind : rest.dropWhile fun unit => !isSlash unit with
  | nil =>
      rw [behind, List.append_nil] at parts
      rw [parts] at single some'
      rw [List.splitOnP_eq_singleton single, some']
      rfl
  | cons slash after =>
      have isSlash' : isSlash slash = true := by
        have stops := List.head_dropWhile_not (fun unit => !isSlash unit) (l := rest)
          (behind ▸ List.cons_ne_nil _ _)
        simp only [behind, List.head_cons, Bool.not_eq_false'] at stops
        exact stops
      have after' : ∀ unit ∈ slash :: after, endsPath unit = false := fun unit inside =>
        open'' unit (List.dropWhile_suffix _ |>.subset (behind ▸ inside))
      rw [segmentsOf_open after']
      rw [behind] at parts
      have split : rest.splitOnP isSlash =
          rest.takeWhile (fun unit => !isSlash unit) :: after.splitOnP isSlash := by
        conv_lhs => rw [← parts]
        exact List.splitOnP_append_cons_of_forall_mem single slash isSlash' after
      rw [split, some']
      obtain ⟨piece, pieces, same⟩ :=
        List.exists_cons_of_ne_nil (List.splitOnP_ne_nil isSlash after)
      rw [List.drop_one, List.tail_cons, same]
      rfl

/-- The path that a text behind a base leads to. -/
theorem path_of_parseRooted {hosts : HostParser} {base address : Address} {rest : Utf16}
    (cleaned : clean some text = 0x2F :: rest) (open' : ∀ unit ∈ rest, endsPath unit = false)
    (read : parseRooted hosts base text = some address) :
    address.path = pathOf (behindHost (rest.splitOnP isSlash)) := by
  rw [parseRooted, cleaned] at read
  cases rest with
  | nil =>
      cases read
      rfl
  | cons second rest =>
      simp only at read
      rw [List.splitOnP_cons_eq_if_modifyHead]
      obtain ⟨piece, pieces, same⟩ := List.exists_cons_of_ne_nil (List.splitOnP_ne_nil isSlash rest)
      split at read
      next slash =>
        have named : (partsBehind some (second :: rest)).host ≠ [] := by
          intro none'
          have host := host_of_url read
          rw [none'] at host
          contradiction
        rw [path_of_url read, segments_partsBehind open' named, if_pos slash,
          List.splitOnP_cons_eq_if_modifyHead, if_pos slash, same]
        rfl
      next other =>
        cases read
        have whole : ∀ unit ∈ 0x2F :: second :: rest, endsPath unit = false :=
          List.forall_mem_cons.2 ⟨by decide, open'⟩
        rw [if_neg other, segmentsOf_open whole, List.drop_one, List.tail_cons,
          List.splitOnP_cons_eq_if_modifyHead, if_neg other, same]
        rfl

/-- A path behind the base path, as the parser sees it. -/
theorem clean_behind {path : List Utf16} (every : ∀ segment ∈ path, Written segment)
    (rest : Utf16) :
    clean some (slashed path ++ 0x2F :: rest) =
      slashed path ++ ((0x2F :: rest).rdropWhile isBlank).filter (fun unit => !isBreak unit) := by
  have visible : ∀ unit ∈ slashed path, isBlank unit = false :=
    fun unit inside => (visible_slashed every unit inside).2
  have begins : (slashed path ++ 0x2F :: rest).dropWhile (is some isBlank) =
      slashed path ++ 0x2F :: rest := by
    cases path with
    | nil => rfl
    | cons => rfl
  have stops : isBlank 0x2F = false := by decide
  have ends : (slashed path ++ 0x2F :: rest).rdropWhile (is some isBlank) =
      slashed path ++ (0x2F :: rest).rdropWhile isBlank :=
    rdropWhile_append_of_mem List.mem_cons_self stops
  have kept : (slashed path).filter (fun unit => !isBreak unit) = slashed path := by
    rw [List.filter_eq_self]
    intro unit inside
    cases broken : isBreak unit with
    | false => rfl
    | true =>
        have blank := visible unit inside
        simp only [isBreak, Bool.or_eq_true, beq_iff_eq] at broken
        obtain (rfl | rfl) | rfl := broken <;> contradiction
  rw [clean, begins, ends]
  exact (List.filter_append _ _).trans (congrArg (· ++ _) kept)

end Paths

/-! ## Every address that is returned -/

section Returned

variable {hosts : HostParser} {base address : Address} {path : Json} {query : Json}
  {text prefixes url : Utf16} {limit : Option Utf16}

/-- What a path is that passed its checks. -/
structure Passed (path : Json) (limit : Option Utf16) (text : Utf16) : Prop where
  same : path = .string text
  begins : ∃ rest, text = 0x2F :: rest
  once : (ofString "//").isPrefixOf text = false
  plain : ∀ unit ∈ text, endsPath unit = false
  allowed : ∀ prefixes ∈ limit, pathAllowed text prefixes = true

theorem of_checkPath (passed : checkPath path limit = .ok text) : Passed path limit text := by
  cases path with
  | null | bool | number | array | object => contradiction
  | string given =>
      rw [checkPath] at passed
      split at passed
      · contradiction
      next begins =>
        split at passed
        · contradiction
        next plain =>
          split at passed
          · contradiction
          next allowed =>
            obtain rfl := Except.ok.inj passed
            simp only [Bool.or_eq_true, not_or, Bool.not_eq_true, Bool.not_eq_false'] at begins plain
            obtain ⟨rest, same⟩ := List.isPrefixOf_iff_prefix.1 begins.1
            refine ⟨rfl, ⟨rest, same.symm⟩, begins.2, ?_, ?_⟩
            · intro unit inside
              have here := List.any_eq_false.1 plain.1 unit inside
              simp only [Bool.or_eq_true, beq_iff_eq, not_or] at here
              rw [endsPath, Bool.or_eq_false_iff, beq_eq_false_iff_ne, beq_eq_false_iff_ne]
              exact here.1
            · rintro prefixes rfl
              rw [Option.any_some, Bool.not_eq_true, Bool.not_eq_false'] at allowed
              exact allowed

theorem isBlank_of_isEncoded {unit : UInt16} (encoded : UriComponent.isEncoded unit = true) :
    isBlank unit = false :=
  isBlank_of_plain (isPathPlain_of_isEncoded encoded).1

theorem of_orThrow {value : Option Utf16} {result : Utf16} (made : orThrow value = .ok result) :
    value = some result := by
  cases value with
  | none => contradiction
  | some value =>
      obtain rfl := Except.ok.inj made
      rfl

theorem visible_of_queryPair {key pair : Utf16} {item : Json}
    (made : queryPair key item = .ok pair) : ∀ unit ∈ pair, isBlank unit = false := by
  rw [queryPair] at made
  obtain ⟨text, _, made⟩ := of_bind_ok made
  obtain ⟨name, named, made⟩ := of_bind_ok made
  obtain ⟨value, written, made⟩ := of_bind_ok made
  obtain rfl := Except.ok.inj made
  refine List.forall_mem_append.2 ⟨List.forall_mem_append.2 ⟨?_, ?_⟩, ?_⟩
  · exact fun unit inside =>
      isBlank_of_isEncoded (UriComponent.isEncoded_of_encode (of_orThrow named) unit inside)
  · intro unit inside
    rw [List.mem_singleton.1 inside]
    decide
  · exact fun unit inside =>
      isBlank_of_isEncoded (UriComponent.isEncoded_of_encode (of_orThrow written) unit inside)

theorem exists_of_mapM {α β ε : Type} {items : List α} {f : α → Except ε β} {results : List β}
    (made : items.mapM f = .ok results) : ∀ result ∈ results, ∃ item, f item = .ok result := by
  induction items generalizing results with
  | nil =>
      obtain rfl := Except.ok.inj made
      simp
  | cons item items ih =>
      rw [List.mapM_cons] at made
      obtain ⟨first, here, made⟩ := of_bind_ok made
      obtain ⟨others, later, made⟩ := of_bind_ok made
      obtain rfl := Except.ok.inj made
      exact List.forall_mem_cons.2 ⟨⟨item, here⟩, ih later⟩

/-- The pairs of a query hold no blanks. -/
theorem visible_of_queryPairs {pairs : List Utf16} (made : queryPairs query = .ok pairs) :
    ∀ unit ∈ join (ofString "&") pairs, isBlank unit = false := by
  intro unit inside
  have parted : unit ∈ join [0x26] pairs := inside
  obtain between | ⟨pair, member, within⟩ := mem_join parted
  · rw [between]
    decide
  · obtain ⟨item, made⟩ := exists_of_mapM made pair member
    exact visible_of_queryPair made unit within

/-- What is returned is an address that the parser makes of the path behind the base path, with a
query. -/
theorem of_restUrl (made : restUrl hosts base path query limit = .ok url) :
    ∃ text address tail, checkPath path limit = .ok text ∧
      parseRooted hosts (originOf base) (pathPrefix base ++ text) = some address ∧
      address.origin = base.origin ∧ IsTail tail ∧ (∀ unit ∈ tail, isBlank unit = false) ∧
      url = address.origin ++ address.pathname ++ tail := by
  rw [restUrl] at made
  obtain ⟨text, passed, made⟩ := of_bind_ok made
  obtain ⟨address, read, made⟩ := of_bind_ok made
  have read' : parseRooted hosts (originOf base) (pathPrefix base ++ text) = some address := by
    revert read
    cases parseRooted hosts (originOf base) (pathPrefix base ++ text) with
    | none => exact fun read => by contradiction
    | some found => exact fun read => congrArg some (Except.ok.inj read)
  split at made
  · contradiction
  next kept =>
    obtain ⟨pairs, queried, made⟩ := of_bind_ok made
    refine ⟨text, address, ?_⟩
    split at made
    · contradiction
    · split at made
      · obtain rfl := Except.ok.inj made
        exact ⟨[], passed, read', not_not.1 kept, .inl rfl, by simp, (List.append_nil _).symm⟩
      · obtain rfl := Except.ok.inj made
        refine ⟨ofString "?" ++ join (ofString "&") pairs, passed, read', not_not.1 kept,
          .inr ⟨_, rfl⟩, ?_, List.append_assoc _ _ _⟩
        exact List.forall_mem_cons.2 ⟨by decide, visible_of_queryPairs queried⟩

theorem settled_of_restBase {otherScheme : Utf16 → Bool} {config : Fields}
    (based : restBase hosts otherScheme config = .ok base) : base.Settled hosts := by
  rw [restBase] at based
  split at based
  · contradiction
  next read =>
    split at based
    · contradiction
    · split at based
      · contradiction
      · obtain rfl := Except.ok.inj based
        exact settled_of_parse read

theorem settled_originOf (settled : base.Settled hosts) : (originOf base).Settled hosts :=
  ⟨settled.host, settled.port, List.cons_ne_nil _ _, List.forall_mem_singleton.2 written_nil⟩

theorem single_of_settled (settled : address.Settled hosts) : Single address.path :=
  fun segment inside unit within => ((settled.every segment inside).units unit within).2

theorem written_baseSegments (settled : base.Settled hosts) :
    ∀ segment ∈ baseSegments base, Written segment :=
  fun segment inside => settled.every segment ((List.rdropWhile_prefix List.isEmpty base.path).subset inside)

/-- The path of the address that is returned is where the path leads to from the base path. -/
theorem path_of_restUrl (settled : base.Settled hosts) (passed : checkPath path limit = .ok text)
    (read : parseRooted hosts (originOf base) (pathPrefix base ++ text) = some address) :
    address.path = pathOf (behindHost (baseSegments base ++ pathSegments text)) := by
  obtain ⟨_, ⟨rest, rfl⟩, _, open', _⟩ := of_checkPath passed
  have every := written_baseSegments settled
  have single : Single (baseSegments base) := fun segment inside unit within =>
    ((every segment inside).units unit within).2
  obtain ⟨kept, same⟩ : ∃ kept, (0x2F :: rest).rdropWhile isBlank = 0x2F :: kept := by
    cases ended : (0x2F :: rest).rdropWhile isBlank with
    | nil => exact absurd (List.rdropWhile_eq_nil_iff.1 ended 0x2F List.mem_cons_self) (by decide)
    | cons unit kept =>
        have starts := List.rdropWhile_prefix isBlank (0x2F :: rest)
        rw [ended, List.cons_prefix_cons] at starts
        exact ⟨kept, by rw [starts.1]⟩
  have filtered : (0x2F :: kept).filter (fun unit => !isBreak unit) =
      0x2F :: kept.filter fun unit => !isBreak unit := rfl
  have cleaned := clean_behind every rest
  rw [← pathPrefix_eq (single_of_settled settled), same, filtered,
    pathPrefix_eq (single_of_settled settled)] at cleaned
  have within : ∀ unit ∈ kept.filter fun unit => !isBreak unit, endsPath unit = false := by
    intro unit inside
    have part := (List.rdropWhile_prefix isBlank (0x2F :: rest)).subset
    rw [same] at part
    exact open' unit (part (List.mem_cons_of_mem _ (List.mem_filter.1 inside).1))
  have segments : pathSegments (0x2F :: rest) =
      (kept.filter fun unit => !isBreak unit).splitOnP isSlash := by
    rw [pathSegments, same, filtered]
    rfl
  have split := splitOnP_behind single (kept.filter fun unit => !isBreak unit)
  obtain ⟨text, opened⟩ : ∃ text, slashed (baseSegments base) ++
      0x2F :: kept.filter (fun unit => !isBreak unit) = 0x2F :: text := by
    cases baseSegments base with
    | nil => exact ⟨_, rfl⟩
    | cons first path => exact ⟨_, rfl⟩
  have plain : ∀ unit ∈ text, endsPath unit = false := by
    intro unit inside
    have there : unit ∈ slashed (baseSegments base) ++
        0x2F :: kept.filter (fun unit => !isBreak unit) :=
      opened ▸ List.mem_cons_of_mem _ inside
    cases List.mem_append.1 there with
    | inl before =>
        have visible := (visible_slashed every unit before).1
        rwa [isNot_some, Bool.not_eq_true'] at visible
    | inr after =>
        cases List.mem_cons.1 after with
        | inl slash => rw [slash]; decide
        | inr later => exact within unit later
  rw [opened] at cleaned split
  rw [pathPrefix_eq (single_of_settled settled)] at read
  rw [path_of_parseRooted cleaned plain read, segments, ← split]
  rfl

/-- An address that is returned lies below the base, behind a path that is allowed, exactly if the
path leads there. -/
theorem isBelow_iff (settled : base.Settled hosts)
    (made : restUrl hosts base (.string text) query limit = .ok url) :
    IsBelow hosts base prefixes url ↔ LeadsBelow base text prefixes := by
  obtain ⟨_, address, tail, passed, read, kept, closes, visible, rfl⟩ := of_restUrl made
  cases (of_checkPath passed).same
  have path := path_of_restUrl settled passed read
  have settled' := (settled_originOf settled).rooted read
  have single := single_of_settled settled'
  have before : Single (baseSegments base) := fun segment inside unit within =>
    ((written_baseSegments settled segment inside).units unit within).2
  obtain ⟨again, parsed, origin, pathname⟩ := settled'.parse_eq closes visible
  have prefixed := pathPrefix_eq (single_of_settled settled)
  rw [LeadsBelow, ← path]
  constructor
  · rintro ⟨other, parsed', _, behind, split, begins, allowed⟩
    obtain rfl := Option.some.inj (parsed.symm.trans parsed')
    rw [pathname, Address.pathname, prefixed] at split
    obtain ⟨rest, some', parts, rfl⟩ := exists_behind single before split begins
    exact ⟨rest, some', parts, allowed⟩
  · rintro ⟨rest, some', parts, allowed⟩
    refine ⟨again, parsed, origin.trans kept, slashed rest, ?_, ?_, allowed⟩
    · rw [pathname, Address.pathname, parts, slashed_append, prefixed]
    · obtain ⟨first, more, rfl⟩ := List.exists_cons_of_ne_nil some'
      rfl

/-! ### The configuration -/

/-- `^https://[^\s?#]+$` -/
def acceptsBaseUrl (text : Utf16) : Bool :=
  match (ofString "https://").isPrefixOf? text with
  | some rest => !rest.isEmpty && rest.all fun unit =>
      !isSpaceUnit unit && unit != 0x3F && unit != 0x23
  | none => false

def isPrefixUnit (unit : UInt16) : Bool :=
  isAlnum unit || unit == 0x2E || unit == 0x5F || unit == 0x7E || unit == 0x2F || unit == 0x2D

/-- Paths in letters, digits and a few marks, with commas and spaces between them. -/
def acceptsPrefixes (text : Utf16) : Bool :=
  match split 0x2C text with
  | [] => false
  | first :: others => (first :: others.map (List.dropWhile isSpaceUnit)).all fun start =>
      (ofString "/").isPrefixOf start && start.all isPrefixUnit

def sampleConfig : Fields :=
  [(ofString "base_url", ofString "https://api.example.com/v1"),
    (ofString "path_prefixes", ofString "/items")]

def sampleBase : Address where
  credentials := false
  host := ofString "api.example.com"
  port := none
  path := [ofString "v1"]
  query := []
  fragment := []

end Returned

end RestUrl

end TitanRunner
