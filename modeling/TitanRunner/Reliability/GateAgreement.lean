import TitanRunner.Orchestrator.Deliverable
import TitanRunner.Orchestrator.LegacyBlocks
import TitanRunner.Orchestrator.StrippedJson
import TitanRunner.Reliability.OutputRepair

/-!
# The gate and the synthesizer

The gate for a model's answer and the synthesizer read it with two parsers.  What the gate
accepts the synthesizer never reports malformed.  The two take different files where their
designs differ: the older parser wants an envelope with a usable file, and tries one object only,
unrepaired first.
-/

namespace TitanRunner

namespace OutputRepair

open Regex Utf16
open OutputParser (ExtractedFile ParseResult fenceBodies stripTrailingCommas openBrace backquote
  legacyFile dropCommas ticks)

/-! ## One scan -/

section Scan

variable {depth : Nat} {inString escaped : Bool} {text : Utf16}

theorem balancedFrom_eq (deep : 0 < depth) (plain : inString = false → escaped = false) :
    EnvelopeParser.balancedFrom depth inString escaped text =
      OutputParser.balancedFrom depth inString escaped text := by
  have within : ∀ escaped : Bool, true = false → escaped = false := by
    intro _ same
    contradiction
  induction text generalizing depth inString escaped with
  | nil => rfl
  | cons unit rest ih =>
      rw [EnvelopeParser.balancedFrom, OutputParser.balancedFrom]
      cases inString with
      | true =>
          simp only [if_true, Bool.and_true, Bool.not_true]
          cases escaped with
          | true => simp only [if_true, ih deep (within false)]
          | false =>
              simp only [Bool.false_eq_true, if_false]
              split
              next => rw [ih deep (within true)]
              next =>
                split
                next => rw [ih deep (fun _ => rfl)]
                next => rw [ih deep (within false)]
      | false =>
          rw [plain rfl]
          simp only [Bool.false_eq_true, if_false, Bool.and_false, Bool.not_false]
          split
          next => rw [ih deep (within false)]
          next =>
            split
            next => rw [ih (Nat.succ_pos depth) (fun _ => rfl)]
            next =>
              split
              next =>
                have last : (depth - 1 = 0) = (depth = 1) := propext ⟨by omega, by omega⟩
                simp only [last]
                split
                next => rfl
                next more => rw [ih (by omega) (fun _ => rfl)]
              next => rw [ih deep (fun _ => rfl)]

theorem extractBalancedObject_eq (text : Utf16) :
    EnvelopeParser.extractBalancedObject text = OutputParser.extractBalancedObject text := by
  rw [EnvelopeParser.extractBalancedObject, OutputParser.extractBalancedObject]
  cases found : text.dropWhile (· != openBrace) with
  | nil => rfl
  | cons unit rest =>
      have first : unit = openBrace := by
        have stopped := List.head?_dropWhile_not (· != openBrace) text
        rw [found, List.head?_cons] at stopped
        simpa using stopped
      rw [first]
      have inner : EnvelopeParser.balancedFrom 1 false false rest =
          OutputParser.balancedFrom 1 false false rest :=
        balancedFrom_eq Nat.one_pos (fun _ => rfl)
      exact congrArg (Option.map (openBrace :: ·)) inner

end Scan

/-! ## Objects -/

/-- The objects the lenient repair of the synthesizer tries. -/
def objects : Utf16 → List Utf16
  | [] => []
  | unit :: rest =>
      if unit = openBrace then
        match OutputParser.extractBalancedObject (unit :: rest) with
        | none => []
        | some raw => raw :: objects rest
      else objects rest

theorem head_objects (text : Utf16) :
    (objects text).head? = OutputParser.extractBalancedObject text := by
  induction text with
  | nil => rfl
  | cons unit rest ih =>
      rw [objects]
      split
      next =>
        cases OutputParser.extractBalancedObject (unit :: rest) with
        | none => rfl
        | some raw => rfl
      next other =>
        have skips : (unit :: rest).dropWhile (· != openBrace) = rest.dropWhile (· != openBrace) :=
          List.dropWhile_cons_of_pos (bne_iff_ne.2 other)
        rw [ih, OutputParser.extractBalancedObject, OutputParser.extractBalancedObject, skips]

theorem tryLenientJson_eq (parseJson : Utf16 → Option Json) (text : Utf16) :
    OutputParser.tryLenientJson parseJson text = (objects text).findSome? fun raw =>
      (parseJson (stripTrailingCommas raw)).bind OutputParser.coerceEnvelope := by
  induction text with
  | nil => rfl
  | cons unit rest ih =>
      rw [OutputParser.tryLenientJson, objects]
      split
      next =>
        cases OutputParser.extractBalancedObject (unit :: rest) with
        | none => rfl
        | some raw =>
            simp only [List.findSome?_cons, ih]
            cases (parseJson (stripTrailingCommas raw)).bind OutputParser.coerceEnvelope with
            | none => rfl
            | some files => rfl
      next => exact ih

/-! ## Envelopes -/

/-- The envelope that a text is, with files or without. -/
def envelopeIn (text : Utf16) : Option Json :=
  (Json.parse text).filter fun value => (OutputParser.coerceEnvelope value).isSome

/-- The path of an entry that names a path and a content. -/
def namedPath (entry : Json) : Option Utf16 :=
  match (entry.member (ofString "path")).bind Json.string?,
      (entry.member (ofString "content")).bind Json.string? with
  | some path, some _ => some path
  | _, _ => none

def namedPaths (envelope : Json) : List Utf16 :=
  (((envelope.member (ofString "files")).bind Json.array?).getD []).filterMap namedPath

/-- The envelope names a file, and no path it names is blank. -/
def isUsable (envelope : Json) : Bool :=
  !(namedPaths envelope).isEmpty && (namedPaths envelope).all fun path => !(Utf16.trim path).isEmpty

section Envelope

variable {text : Utf16} {value envelope : Json}

theorem isSome_of_coerceEnvelope {result : EnvelopeParser.EnvelopeResult}
    (coerced : EnvelopeParser.coerceEnvelope value = some result) :
    (OutputParser.coerceEnvelope value).isSome = true := by
  rw [EnvelopeParser.coerceEnvelope] at coerced
  rw [OutputParser.coerceEnvelope, Option.isSome_map]
  split at coerced
  next => contradiction
  next entries found => exact Option.isSome_of_eq_some found

/-- A parser that coerces envelopes only sees only the envelopes. -/
theorem parse_bind {α : Type} {coerce : Json → Option α}
    (only : ∀ value, OutputParser.coerceEnvelope value = none → coerce value = none) (text : Utf16) :
    (Json.parse text).bind coerce = (envelopeIn text).bind coerce := by
  rw [envelopeIn]
  cases Json.parse text with
  | none => rfl
  | some value =>
      rw [Option.filter_some]
      cases found : OutputParser.coerceEnvelope value with
      | none =>
          rw [Option.bind_some, only value found]
          rfl
      | some files => rfl

theorem parse_bind_coerceEnvelope (text : Utf16) :
    (Json.parse text).bind OutputParser.coerceEnvelope =
      (envelopeIn text).bind OutputParser.coerceEnvelope :=
  parse_bind (fun _ none' => none') text

theorem parse_bind_gate (text : Utf16) :
    (Json.parse text).bind EnvelopeParser.coerceEnvelope =
      (envelopeIn text).bind EnvelopeParser.coerceEnvelope := by
  apply parse_bind
  intro value none'
  cases coerced : EnvelopeParser.coerceEnvelope value with
  | none => rfl
  | some result =>
      have found := isSome_of_coerceEnvelope coerced
      rw [none'] at found
      contradiction

theorem coerceEnvelope_of_envelopeIn (found : envelopeIn text = some envelope) :
    Json.parse text = some envelope ∧ (OutputParser.coerceEnvelope envelope).isSome = true :=
  Option.filter_eq_some_iff.1 found

theorem coerceFile_of_namedPath {entry : Json} :
    (OutputParser.coerceFile entry).isSome = (namedPath entry).isSome ∧
      ((∀ path, namedPath entry = some path → (Utf16.trim path).isEmpty = false) →
        EnvelopeParser.coerceFile entry = OutputParser.coerceFile entry) := by
  rw [OutputParser.coerceFile, EnvelopeParser.coerceFile, namedPath]
  cases (entry.member (ofString "path")).bind Json.string? with
  | none => exact ⟨rfl, fun _ => rfl⟩
  | some path =>
      cases (entry.member (ofString "content")).bind Json.string? with
      | none => exact ⟨rfl, fun _ => rfl⟩
      | some content =>
          refine ⟨rfl, fun visible => ?_⟩
          simp only [visible path rfl, Bool.false_eq_true, if_false]

/-- Both parsers take the same files from a usable envelope. -/
theorem coerceEnvelope_of_isUsable (usable : isUsable envelope = true) :
    ∃ files notes, OutputParser.coerceEnvelope envelope = some files ∧
      EnvelopeParser.coerceEnvelope envelope = some { tier := none, files, notes } := by
  rw [isUsable, namedPaths, Bool.and_eq_true, Bool.not_eq_true', List.all_eq_true] at usable
  obtain ⟨some', visible⟩ := usable
  rw [OutputParser.coerceEnvelope, EnvelopeParser.coerceEnvelope]
  cases listed : (envelope.member (ofString "files")).bind Json.array? with
  | none =>
      rw [listed] at some'
      contradiction
  | some entries =>
      rw [listed, Option.getD_some] at some' visible
      have same : entries.filterMap EnvelopeParser.coerceFile =
          entries.filterMap OutputParser.coerceFile := by
        apply List.filterMap_congr
        intro entry among
        apply coerceFile_of_namedPath.2
        intro path named
        have shown := visible path (List.mem_filterMap.2 ⟨entry, among, named⟩)
        rw [Bool.not_eq_true'] at shown
        exact shown
      have filled : (entries.filterMap OutputParser.coerceFile).isEmpty = false := by
        obtain ⟨path, inside⟩ := List.exists_mem_of_ne_nil _ (List.isEmpty_eq_false_iff.1 some')
        obtain ⟨entry, among, named⟩ := List.mem_filterMap.1 inside
        have coerced := coerceFile_of_namedPath.1.trans (Option.isSome_of_eq_some named)
        obtain ⟨file, found⟩ := Option.isSome_iff_exists.1 coerced
        apply List.isEmpty_eq_false_iff.2
        apply List.ne_nil_of_mem
        exact List.mem_filterMap.2 ⟨entry, among, found⟩
      refine ⟨_, ((envelope.member (ofString "notes")).bind Json.string?).getD [], rfl, ?_⟩
      simp only [same, filled, Bool.false_eq_true, if_false]

end Envelope

/-! ## The strict tiers -/

/-- What the first envelope gives is what the first candidate that gives something gives. -/
theorem findSome?_bind {α β γ : Type} {candidates : List α} {envelope : α → Option β}
    {coerce : β → Option γ}
    (coerced : ∀ first, candidates.findSome? envelope = some first → (coerce first).isSome = true) :
    candidates.findSome? (fun candidate => (envelope candidate).bind coerce) =
      (candidates.findSome? envelope).bind coerce := by
  induction candidates with
  | nil => rfl
  | cons candidate candidates ih =>
      rw [List.findSome?_cons] at coerced
      rw [List.findSome?_cons, List.findSome?_cons]
      cases found : envelope candidate with
      | none =>
          rw [found] at coerced
          exact ih coerced
      | some first =>
          rw [found] at coerced
          have ⟨result, same⟩ := Option.isSome_iff_exists.1 (coerced first rfl)
          rw [Option.bind_some, same]

/-- The envelope that a fenced block is, or else the whole text. -/
def strictEnvelope (text : Utf16) : Option Json :=
  (fenceBodies text ++ [text]).findSome? fun candidate => envelopeIn (Utf16.trim candidate)

section Strict

variable {text : Utf16} {envelope : Json} {unit last : UInt16} {rest : Utf16}

theorem isSpaceUnit_of_isSpace (space : Json.isSpace unit = true) : isSpaceUnit unit = true := by
  simp only [Json.isSpace, Bool.or_eq_true, beq_iff_eq] at space
  rcases space with ((same | same) | same) | same <;> rw [same] <;> rfl

theorem visible_of_trim_cons (trimmed : Utf16.trim text = unit :: rest) : isSpaceUnit unit = false := by
  have ⟨spaces, _, whole⟩ := OutputParser.trim_append text
  have first := List.head?_dropWhile_not isSpaceUnit text
  rw [whole, trimmed] at first
  exact first

theorem visible_of_trim_append (trimmed : Utf16.trim text = rest ++ [last]) :
    isSpaceUnit last = false := by
  have behind := List.head?_dropWhile_not isSpaceUnit (text.dropWhile isSpaceUnit).reverse
  rw [Utf16.trim, List.reverse_eq_iff, List.reverse_append] at trimmed
  rw [trimmed] at behind
  exact behind

/-- An envelope without white space around it starts with a brace. -/
theorem head_of_envelopeIn (found : envelopeIn (Utf16.trim text) = some envelope) :
    (Utf16.trim text).head? = some openBrace := by
  have ⟨parsed, coerced⟩ := coerceEnvelope_of_envelopeIn found
  have object : envelope.isObject = true := by
    cases envelope with
    | object members => rfl
    | null | bool | number | string | array => contradiction
  cases trimmed : Utf16.trim text with
  | nil =>
      rw [trimmed] at parsed
      contradiction
  | cons unit rest =>
      rw [trimmed] at parsed
      have visible : Json.isSpace unit = false := by
        apply Bool.eq_false_iff.2
        intro space
        have blank := visible_of_trim_cons trimmed
        rw [isSpaceUnit_of_isSpace space] at blank
        contradiction
      rw [Json.isObject_of_parse visible parsed, beq_iff_eq] at object
      rw [object]
      rfl

theorem tryStrict_eq (text : Utf16) : OutputParser.tryStrict Json.parse text =
    (strictEnvelope text).bind OutputParser.coerceEnvelope := by
  have each : ∀ candidate, (if (Utf16.trim candidate).head? = some openBrace then
      (Json.parse (Utf16.trim candidate)).bind OutputParser.coerceEnvelope else none) =
        (envelopeIn (Utf16.trim candidate)).bind OutputParser.coerceEnvelope := by
    intro candidate
    rw [parse_bind_coerceEnvelope]
    cases found : envelopeIn (Utf16.trim candidate) with
    | none => rw [Option.bind_none, ite_self]
    | some envelope => rw [if_pos (head_of_envelopeIn found)]
  rw [OutputParser.tryStrict, strictEnvelope, ← findSome?_bind]
  · simp only [each]
  · intro first found
    obtain ⟨candidate, _, envelope⟩ := List.exists_of_findSome?_eq_some found
    exact (coerceEnvelope_of_envelopeIn envelope).2

theorem tryStrict_gate (text : Utf16) : EnvelopeParser.tryStrict text =
    (fenceBodies text).findSome? fun candidate => (envelopeIn (Utf16.trim candidate)).bind fun envelope =>
      (EnvelopeParser.coerceEnvelope envelope).map fun result => { result with tier := some 1 } := by
  rw [EnvelopeParser.tryStrict]
  congr
  funext candidate
  simp only [parse_bind_gate]
  cases Utf16.trim candidate with
  | nil => rfl
  | cons unit rest =>
      rw [List.isEmpty_cons, if_neg Bool.false_ne_true]
      cases envelopeIn (unit :: rest) with
      | none => rfl
      | some envelope => rfl

/-- A text that is an envelope is its own first object. -/
theorem extractBalancedObject_of_envelopeIn (found : envelopeIn (Utf16.trim text) = some envelope) :
    OutputParser.extractBalancedObject text = some (Utf16.trim text) := by
  have head := head_of_envelopeIn found
  have ⟨parsed, _⟩ := coerceEnvelope_of_envelopeIn found
  have ⟨within, spaces, whole, blank, cut⟩ := OutputParser.extractBalancedObject_of_parse head parsed
  have bare : spaces = [] := by
    cases List.eq_nil_or_concat spaces with
    | inl empty => exact empty
    | inr longer =>
        have ⟨before, last, same⟩ := longer
        have visible : isSpaceUnit last = false := by
          have ends : Utf16.trim text = (within ++ 0x7D :: before) ++ [last] := by
            rw [whole, same]
            simp
          exact visible_of_trim_append ends
        rw [isSpaceUnit_of_isSpace (blank last (same ▸ by simp))] at visible
        contradiction
  have ⟨behind, _, around⟩ := OutputParser.trim_append text
  have skipped : text.dropWhile (· != openBrace) =
      (text.dropWhile isSpaceUnit).dropWhile (· != openBrace) := by
    conv_lhs => rw [← List.takeWhile_append_dropWhile (p := isSpaceUnit) (l := text)]
    apply List.dropWhile_append_of_pos
    intro unit inside
    rw [bne_iff_ne]
    intro same
    have space := List.mem_takeWhile_imp inside
    rw [same] at space
    contradiction
  have cut' := cut behind
  rw [OutputParser.extractBalancedObject, ← around, ← skipped] at cut'
  rw [OutputParser.extractBalancedObject, cut', whole, bare]

end Strict

/-! ## The lenient tiers -/

/-- The first envelope among the repaired objects. -/
def lenientEnvelope (text : Utf16) : Option Json :=
  (objects text).findSome? fun raw => envelopeIn (stripTrailingCommas raw)

/-- What the old convention gives, if it gives anything. -/
def legacyFiles (text : Utf16) : Option (List ExtractedFile) :=
  let legacy := OutputParser.extractLegacyFileBlocks text
  if legacy.isEmpty then none else some legacy

def withTier (tier : Nat) (envelope : Json) : Option EnvelopeParser.EnvelopeResult :=
  (EnvelopeParser.coerceEnvelope envelope).map fun result => { result with tier := some tier }

section Lenient

variable {text : Utf16} {envelope : Json}

theorem tryLenient_eq (text : Utf16) : OutputParser.tryLenient Json.parse text =
    ((lenientEnvelope text).bind OutputParser.coerceEnvelope <|> legacyFiles text) := by
  rw [OutputParser.tryLenient, tryLenientJson_eq, lenientEnvelope, ← findSome?_bind]
  · simp only [parse_bind_coerceEnvelope]
    rfl
  · intro first found
    obtain ⟨raw, _, envelope⟩ := List.exists_of_findSome?_eq_some found
    exact (coerceEnvelope_of_envelopeIn envelope).2

theorem tryLenient_gate (text : Utf16) : EnvelopeParser.tryLenient text =
    (((objects text).head?.bind fun first =>
        [first, stripTrailingCommas first].findSome? fun attempt =>
          (envelopeIn attempt).bind (withTier 2)) <|>
      (legacyFiles text).map fun files => { tier := some 2, files, notes := [] }) := by
  have tiers : ∀ attempt, ((Json.parse attempt).bind EnvelopeParser.coerceEnvelope).map
      (fun envelope => { envelope with tier := some 2 }) =
        (envelopeIn attempt).bind (withTier 2) := by
    intro attempt
    rw [parse_bind_gate]
    cases envelopeIn attempt with
    | none => rfl
    | some envelope => rfl
  have legacy : EnvelopeParser.extractFileBlocks text =
      OutputParser.extractLegacyFileBlocks text := by
    cases text with
    | nil => rfl
    | cons unit rest => rfl
  rw [EnvelopeParser.tryLenient, extractBalancedObject_eq, head_objects]
  simp only [tiers, legacy, legacyFiles]
  split
  next => rfl
  next => rfl

end Lenient

/-! ## The two readings -/

section Readings

variable {text : Utf16} {envelope : Json}

theorem parseEnvelope_eq (text : Utf16) : EnvelopeParser.parseEnvelope text =
    (EnvelopeParser.tryStrict text <|> EnvelopeParser.tryLenient text).getD
      EnvelopeParser.nothing := by
  cases text with
  | nil => rfl
  | cons unit rest => rfl

/-- What the synthesizer takes, if it takes anything. -/
def taken (text : Utf16) : Option (List ExtractedFile) :=
  (strictEnvelope text).bind OutputParser.coerceEnvelope <|>
    ((lenientEnvelope text).bind OutputParser.coerceEnvelope <|> legacyFiles text)

theorem parseTaskOutput_eq (text : Utf16) :
    (OutputParser.parseTaskOutput Json.parse text).files = (taken text).getD [] ∧
      (OutputParser.parseTaskOutput Json.parse text).malformed =
        ((taken text).isNone && looksLikeAttemptedEnvelope text) := by
  cases text with
  | nil => exact ⟨rfl, rfl⟩
  | cons unit rest =>
      rw [OutputParser.parseTaskOutput, List.isEmpty_cons, if_neg Bool.false_ne_true, taken,
        tryStrict_eq, tryLenient_eq]
      cases (strictEnvelope (unit :: rest)).bind OutputParser.coerceEnvelope with
      | some files => exact ⟨rfl, rfl⟩
      | none =>
          cases (lenientEnvelope (unit :: rest)).bind OutputParser.coerceEnvelope with
          | some files => exact ⟨rfl, rfl⟩
          | none =>
              cases legacyFiles (unit :: rest) with
              | some files => exact ⟨rfl, rfl⟩
              | none => exact ⟨rfl, rfl⟩

theorem envelope_of_findSome? {α : Type} {candidates : List Utf16} {envelopeOf : Utf16 → Utf16}
    {coerce : Json → Option α} {result : α} (found : (candidates.findSome? fun candidate =>
      (envelopeIn (envelopeOf candidate)).bind coerce) = some result) :
    ∃ candidate ∈ candidates, (envelopeIn (envelopeOf candidate)).isSome = true := by
  have ⟨candidate, among, coerced⟩ := List.exists_of_findSome?_eq_some found
  have ⟨envelope, there, _⟩ := Option.bind_eq_some_iff.1 coerced
  exact ⟨candidate, among, Option.isSome_of_eq_some there⟩

/-- A candidate that is an envelope gives files, though perhaps no file. -/
theorem isSome_of_envelope {candidates : List Utf16} {envelopeOf : Utf16 → Utf16} {candidate : Utf16}
    (among : candidate ∈ candidates) (envelope : (envelopeIn (envelopeOf candidate)).isSome = true) :
    ((candidates.findSome? fun candidate => envelopeIn (envelopeOf candidate)).bind
      OutputParser.coerceEnvelope).isSome = true := by
  have some' : (candidates.findSome? fun candidate => envelopeIn (envelopeOf candidate)).isSome =
      true := List.findSome?_isSome_iff.2 ⟨candidate, among, envelope⟩
  have ⟨first, found⟩ := Option.isSome_iff_exists.1 some'
  have ⟨_, _, there⟩ := List.exists_of_findSome?_eq_some found
  rw [found]
  exact (coerceEnvelope_of_envelopeIn there).2

/-- The repair keeps an envelope that needs none. -/
theorem envelopeIn_stripTrailingCommas (envelope : (envelopeIn text).isSome = true) :
    (envelopeIn (stripTrailingCommas text)).isSome = true := by
  have ⟨value, found⟩ := Option.isSome_iff_exists.1 envelope
  have ⟨parsed, coerced⟩ := coerceEnvelope_of_envelopeIn found
  have there : ((Json.parse text).bind OutputParser.coerceEnvelope).isSome = true := by
    rw [parsed]
    exact coerced
  have kept := OutputParser.envelope_dropCommas there
  rw [OutputParser.stripTrailingCommas_eq]
  have ⟨files, there⟩ := Option.isSome_iff_exists.1 kept
  rw [parse_bind_coerceEnvelope] at there
  have ⟨value', found', _⟩ := Option.bind_eq_some_iff.1 there
  exact Option.isSome_of_eq_some found'

/-- Where the gate finds files the synthesizer takes some candidate. -/
theorem isSome_taken
    (found : (EnvelopeParser.tryStrict text <|> EnvelopeParser.tryLenient text).isSome = true) :
    (taken text).isSome = true := by
  have ⟨result, same⟩ := Option.isSome_iff_exists.1 found
  rw [taken]
  apply isSome_orElse
  cases eq_some_of_orElse same with
  | inl strict =>
      left
      rw [tryStrict_gate] at strict
      have ⟨body, inside, envelope⟩ := envelope_of_findSome? strict
      exact isSome_of_envelope (List.mem_append_left _ inside) envelope
  | inr lenient =>
      right
      apply isSome_orElse
      rw [tryLenient_gate] at lenient
      cases eq_some_of_orElse lenient with
      | inl repaired =>
          left
          have ⟨first, head, attempted⟩ := Option.bind_eq_some_iff.1 repaired
          have ⟨others, tried⟩ := List.head?_eq_some_iff.1 head
          have ⟨attempt, among, envelope⟩ := envelope_of_findSome? attempted
          refine isSome_of_envelope (tried ▸ List.mem_cons_self : first ∈ objects text) ?_
          cases List.mem_cons.1 among with
          | inl raw => exact envelopeIn_stripTrailingCommas (raw ▸ envelope)
          | inr stripped => exact List.mem_singleton.1 stripped ▸ envelope
      | inr legacy =>
          right
          have ⟨files, there, _⟩ := Option.map_eq_some_iff.1 legacy
          exact Option.isSome_of_eq_some there

end Readings

/-! ## Agreement -/

/-- The files the gate has in hand when it accepts an answer: it parses only what looks like an
envelope. -/
def seen (text : Utf16) : List ExtractedFile :=
  if looksLikeAttemptedEnvelope text then (EnvelopeParser.parseEnvelope text).files else []

/-- The first envelope is one that both parsers take as it is: the heuristic sees it, it names
files by paths that are not blank, the repair leaves it alone if it needs none, and it is no
later object than the first. -/
def isAgreeable (text : Utf16) : Bool :=
  match strictEnvelope text, objects text with
  | some envelope, _ => looksLikeAttemptedEnvelope text && isUsable envelope
  | none, [] => true
  | none, first :: others =>
      let repaired := stripTrailingCommas first
      match envelopeIn first, envelopeIn repaired with
      | some envelope, _ =>
          looksLikeAttemptedEnvelope text && isUsable envelope && repaired == first
      | none, some envelope => looksLikeAttemptedEnvelope text && isUsable envelope
      | none, none => others.all fun other => (envelopeIn (stripTrailingCommas other)).isNone

/-- The gate accepts the answer, and saw other files than the synthesizer takes. -/
def differs (text : Utf16) : Bool :=
  validateSubtaskOutput (some text) == .ok &&
    (OutputParser.parseTaskOutput Json.parse text).files != seen text

-- A blank path, a comma that the repair takes out of a content, and a key with an escape.
example : [
    "\x7b\"files\":[\x7b\"path\":\" \",\"content\":\"b\"\x7d,\x7b\"path\":\"a\",\"content\":\"b\"\x7d]\x7d",
    "see \x7b\"files\":[\x7b\"path\":\"a\",\"content\":\",]\"\x7d]\x7d",
    "\x7b\"fi\\u006ces\":[\x7b\"path\":\"a\",\"content\":\"b\"\x7d]\x7d"].all
      (fun answer => differs (ofString answer) && !isAgreeable (ofString answer)) = true := by
  decide +kernel

section Agreement

variable {text : Utf16}

theorem parsed_of_accepted (accepted : validateSubtaskOutput (some text) = .ok)
    (looks : looksLikeAttemptedEnvelope text = true) :
    (EnvelopeParser.tryStrict text <|> EnvelopeParser.tryLenient text).isSome = true := by
  rw [validateSubtaskOutput] at accepted
  simp only [Option.getD_some, looks, if_true] at accepted
  split at accepted
  next => contradiction
  next =>
    split at accepted
    next => contradiction
    next =>
      split at accepted
      next => contradiction
      next tier =>
        rw [parseEnvelope_eq] at tier
        cases found : EnvelopeParser.tryStrict text <|> EnvelopeParser.tryLenient text with
        | some result => rfl
        | none =>
            rw [found] at tier
            exact absurd rfl tier

theorem not_malformed (accepted : validateSubtaskOutput (some text) = .ok) :
    (OutputParser.parseTaskOutput Json.parse text).malformed = false := by
  rw [(parseTaskOutput_eq text).2]
  cases looks : looksLikeAttemptedEnvelope text with
  | false => exact Bool.and_false _
  | true =>
      rw [Option.isNone_eq_false_iff.2 (isSome_taken (parsed_of_accepted accepted looks))]
      rfl

/-! ### The files -/

section Files

variable {envelope : Json} {files : List ExtractedFile} {notes : Utf16} {first : Utf16}
  {others : List Utf16}

theorem tryStrict_gate_of_none (none' : strictEnvelope text = none) :
    EnvelopeParser.tryStrict text = none := by
  rw [tryStrict_gate, List.findSome?_eq_none_iff]
  intro body inside
  rw [List.findSome?_eq_none_iff.1 none' body (List.mem_append_left _ inside), Option.bind_none]

theorem seen_of_parsed {tier : Option Nat} (looks : looksLikeAttemptedEnvelope text = true)
    (parsed : (EnvelopeParser.tryStrict text <|> EnvelopeParser.tryLenient text) =
      some { tier, files, notes }) : seen text = files := by
  rw [seen, if_pos looks, parseEnvelope_eq, parsed, Option.getD_some]

theorem withTier_of_coerceEnvelope
    (coerced : EnvelopeParser.coerceEnvelope envelope = some { tier := none, files, notes })
    (tier : Nat) : withTier tier envelope = some { tier := some tier, files, notes } := by
  rw [withTier, coerced]
  rfl

theorem seen_of_strictEnvelope (looks : looksLikeAttemptedEnvelope text = true)
    (found : strictEnvelope text = some envelope)
    (coerced : EnvelopeParser.coerceEnvelope envelope = some { tier := none, files, notes }) :
    seen text = files := by
  have tiered := withTier_of_coerceEnvelope coerced
  rw [strictEnvelope, List.findSome?_append] at found
  cases fenced : (fenceBodies text).findSome? fun candidate => envelopeIn (Utf16.trim candidate) with
  | some first =>
      rw [fenced] at found
      cases found
      have strict : EnvelopeParser.tryStrict text = some { tier := some 1, files, notes } := by
        rw [tryStrict_gate]
        refine (findSome?_bind ?_).trans ?_
        · intro first there
          rw [fenced] at there
          cases there
          exact Option.isSome_of_eq_some (tiered 1)
        · rw [fenced]
          exact tiered 1
      apply seen_of_parsed looks
      rw [strict]
      rfl
  | none =>
      rw [fenced, Option.none_or, List.findSome?_singleton] at found
      have unfenced : EnvelopeParser.tryStrict text = none := by
        rw [tryStrict_gate, List.findSome?_eq_none_iff]
        intro body inside
        rw [List.findSome?_eq_none_iff.1 fenced body inside, Option.bind_none]
      have lenient : EnvelopeParser.tryLenient text = some { tier := some 2, files, notes } := by
        rw [tryLenient_gate, head_objects, extractBalancedObject_of_envelopeIn found,
          Option.bind_some, List.findSome?_cons, found, Option.bind_some, tiered 2]
        rfl
      apply seen_of_parsed looks
      rw [unfenced, lenient]
      rfl

/-- Without an envelope both parsers are left with the old convention. -/
theorem seen_of_legacy (strict : EnvelopeParser.tryStrict text = none)
    (lenient : EnvelopeParser.tryLenient text =
      (legacyFiles text).map fun files => { tier := some 2, files, notes := [] }) :
    seen text = (legacyFiles text).getD [] := by
  cases legacy : legacyFiles text with
  | none =>
      rw [seen, parseEnvelope_eq, strict, lenient, legacy]
      exact ite_self _
  | some files =>
      have blocks : (OutputParser.extractLegacyFileBlocks text).isEmpty = false := by
        rw [legacyFiles] at legacy
        split at legacy
        next => contradiction
        next blocks => exact Bool.eq_false_iff.2 blocks
      apply seen_of_parsed (OutputParser.looksLike_of_legacy blocks)
      rw [strict, lenient, legacy]
      rfl

theorem taken_eq_seen (agreeable : isAgreeable text = true) : (taken text).getD [] = seen text := by
  rw [isAgreeable] at agreeable
  split at agreeable
  next envelope found =>
    rw [Bool.and_eq_true] at agreeable
    have ⟨files, notes, coerced, coerced'⟩ := coerceEnvelope_of_isUsable agreeable.2
    rw [seen_of_strictEnvelope agreeable.1 found coerced', taken, found, Option.bind_some, coerced]
    rfl
  next none' empty =>
    have lenient : lenientEnvelope text = none := by
      rw [lenientEnvelope, empty]
      rfl
    rw [seen_of_legacy (tryStrict_gate_of_none none'), taken, none', lenient]
    · rfl
    · rw [tryLenient_gate, empty]
      rfl
  next first others none' tried =>
    have strict := tryStrict_gate_of_none none'
    have lenient : lenientEnvelope text = (envelopeIn (stripTrailingCommas first)).or
        (others.findSome? fun raw => envelopeIn (stripTrailingCommas raw)) := by
      rw [lenientEnvelope, tried, List.findSome?_cons]
      cases envelopeIn (stripTrailingCommas first) with
      | none => rfl
      | some envelope => rfl
    have attempts : EnvelopeParser.tryLenient text =
        ((((envelopeIn first).bind (withTier 2)).or
          ((envelopeIn (stripTrailingCommas first)).bind (withTier 2))) <|>
            (legacyFiles text).map fun files => { tier := some 2, files, notes := [] }) := by
      rw [tryLenient_gate, tried, List.head?_cons, Option.bind_some, List.findSome?_cons]
      cases (envelopeIn first).bind (withTier 2) with
      | none => rw [List.findSome?_singleton, Option.none_or]
      | some result => rfl
    simp only at agreeable
    split at agreeable
    next envelope raw =>
      rw [Bool.and_eq_true, Bool.and_eq_true, beq_iff_eq] at agreeable
      have ⟨⟨looks, usable⟩, same⟩ := agreeable
      have ⟨files, notes, coerced, coerced'⟩ := coerceEnvelope_of_isUsable usable
      have parsed : (EnvelopeParser.tryStrict text <|> EnvelopeParser.tryLenient text) =
          some { tier := some 2, files, notes } := by
        rw [strict, attempts, raw, Option.bind_some, withTier_of_coerceEnvelope coerced']
        rfl
      rw [seen_of_parsed looks parsed, taken, none', lenient, same, raw, Option.some_or, Option.bind_some, coerced]
      rfl
    next envelope raw stripped =>
      rw [Bool.and_eq_true] at agreeable
      have ⟨looks, usable⟩ := agreeable
      have ⟨files, notes, coerced, coerced'⟩ := coerceEnvelope_of_isUsable usable
      have parsed : (EnvelopeParser.tryStrict text <|> EnvelopeParser.tryLenient text) =
          some { tier := some 2, files, notes } := by
        rw [strict, attempts, raw, stripped, Option.bind_some,
          withTier_of_coerceEnvelope coerced']
        rfl
      rw [seen_of_parsed looks parsed, taken, none', lenient, stripped, Option.some_or, Option.bind_some, coerced]
      rfl
    next raw stripped =>
      have later : others.findSome? (fun raw => envelopeIn (stripTrailingCommas raw)) = none := by
        rw [List.findSome?_eq_none_iff]
        intro other among
        exact Option.isNone_iff_eq_none.1 (List.all_eq_true.1 agreeable other among)
      rw [seen_of_legacy strict, taken, none', lenient, stripped, later]
      · rfl
      · rw [attempts, raw, stripped]
        rfl

end Files

/-- What the gate accepts the synthesizer does not report malformed, and it takes the files that
the gate saw where the first envelope is one for both. -/
theorem synthesizer_agrees (text : Utf16) (accepted : validateSubtaskOutput (some text) = .ok) :
    (OutputParser.parseTaskOutput Json.parse text).malformed = false ∧
      (isAgreeable text = true →
        (OutputParser.parseTaskOutput Json.parse text).files = seen text) := by
  refine ⟨not_malformed accepted, fun agreeable => ?_⟩
  rw [(parseTaskOutput_eq text).1]
  exact taken_eq_seen agreeable

end Agreement

/-- One envelope in a fence, and nothing else. -/
def guideAnswer : Utf16 := ofString
  "```json\n\x7b\"files\":[\x7b\"path\":\"a.md\",\"content\":\"hi\"\x7d],\"notes\":\"\"\x7d\n```"

theorem synthesizer_agrees_guideAnswer :
    (OutputParser.parseTaskOutput Json.parse guideAnswer).malformed = false ∧
      (OutputParser.parseTaskOutput Json.parse guideAnswer).files = seen guideAnswer :=
  have ⟨wellFormed, agrees⟩ := synthesizer_agrees guideAnswer (by decide)
  ⟨wellFormed, agrees (by decide)⟩

/-- An envelope without files before one with a file. -/
def emptyFirst : Utf16 := ofString
  "```json\n\x7b\"files\":[]\x7d\n```\n```json\n\x7b\"files\":[\x7b\"path\":\"a\",\"content\":\"b\"\x7d]\x7d\n```"

/-- An envelope without files is an answer to the synthesizer, and none to the gate. -/
theorem not_synthesizer_agrees : ¬ ∀ text, validateSubtaskOutput (some text) = .ok →
    (OutputParser.parseTaskOutput Json.parse text).malformed = false ∧
      (OutputParser.parseTaskOutput Json.parse text).files = seen text := by
  intro agrees
  have accepted : validateSubtaskOutput (some emptyFirst) = .ok := by decide
  have taken : (OutputParser.parseTaskOutput Json.parse emptyFirst).files = [] := by
    decide
  have saw : (seen emptyFirst).length = 1 := by decide
  have same := (agrees emptyFirst accepted).2
  rw [taken] at same
  rw [← same] at saw
  contradiction

end OutputRepair

end TitanRunner
