import TitanRunner.Orchestrator.BalancedBraces
import TitanRunner.Orchestrator.Fences
import TitanRunner.Orchestrator.TrailingCommas
import Mathlib.Algebra.GroupWithZero.Nat

/-!
# The deliverable's round trip

Files are asked for as a JSON envelope in a fenced block.  The envelope that is written of a
list of files is read again as these files, unless a fence in a content ends the block early
and the repair then takes a comma out of a content.
-/

namespace TitanRunner

namespace OutputParser

open Regex Utf16
open Json (quote quoteUnits quoteUnit isHigh isLow)

/-! ## Commas in quoted text -/

/-- White space that stands for itself in a JSON string. -/
def isRawSpace (unit : UInt16) : Bool := isSpaceUnit unit && !(unit < 0x20)

/-- A text after the repair of the JSON it was quoted in. -/
def thin (text : Utf16) : Utf16 := dropCommas isRawSpace text

section Quote

variable {unit : UInt16} {text rest : Utf16}

/-- What may stand behind the backslash of an escape. -/
def isEscapeUnit (unit : UInt16) : Bool := isWord unit || unit == 0x22 || unit == 0x5C

theorem isEscapeUnit_hexDigit {value : UInt16} (small : value < 16) :
    isEscapeUnit (Json.hexDigit value) = true := by
  have all : ∀ digit : Fin 16, isEscapeUnit (Json.hexDigit (UInt16.ofNat digit)) = true := by decide
  have same : UInt16.ofNat value.toNat = value := UInt16.ofNat_toNat
  rw [← same]
  exact all ⟨value.toNat, UInt16.lt_iff_toNat_lt.1 small⟩

/-- A unit is quoted by itself, or by an escape. -/
theorem quoteUnit_cases (unit : UInt16) :
    quoteUnit unit = [unit] ∧ decide (unit < 0x20) = false ∨
      ∃ others, quoteUnit unit = Json.backslash :: others ∧
        ∀ other ∈ others, isEscapeUnit other = true := by
  unfold quoteUnit
  split
  next marked =>
    right
    refine ⟨[unit], rfl, ?_⟩
    intro other inside
    rw [List.mem_singleton.1 inside]
    rw [Bool.or_eq_true, beq_iff_eq, beq_iff_eq] at marked
    rcases marked with same | same <;> rw [same] <;> rfl
  next =>
    repeat' split
    · exact .inr ⟨[0x62], rfl, List.forall_mem_singleton.2 rfl⟩
    · exact .inr ⟨[0x66], rfl, List.forall_mem_singleton.2 rfl⟩
    · exact .inr ⟨[0x6E], rfl, List.forall_mem_singleton.2 rfl⟩
    · exact .inr ⟨[0x72], rfl, List.forall_mem_singleton.2 rfl⟩
    · exact .inr ⟨[0x74], rfl, List.forall_mem_singleton.2 rfl⟩
    · right
      refine ⟨_, rfl, ?_⟩
      intro other inside
      have bound := unit.toNat_lt
      simp only [List.mem_cons, List.not_mem_nil, or_false] at inside
      rcases inside with same | same | same | same | same
      · exact same ▸ rfl
      all_goals
        rw [same]
        apply isEscapeUnit_hexDigit
        simp only [UInt16.lt_iff_toNat_lt, UInt16.toNat_div, UInt16.toNat_mod, UInt16.toNat_ofNat,
          Nat.reducePow, Nat.reduceMod]
        omega
    next shown =>
      left
      simp only [Bool.or_eq_true, not_or, decide_eq_true_eq] at shown
      exact ⟨rfl, decide_eq_false shown.1.1⟩

theorem mem_quoteUnit {other : UInt16} (inside : other ∈ quoteUnit unit) :
    isEscapeUnit other = true ∨ other = unit ∧ decide (unit < 0x20) = false := by
  cases quoteUnit_cases unit with
  | inl itself =>
      rw [itself.1, List.mem_singleton] at inside
      exact .inr ⟨inside, itself.2⟩
  | inr escaped =>
      have ⟨others, same, all⟩ := escaped
      left
      rw [same] at inside
      cases List.mem_cons.1 inside with
      | inl first => exact first ▸ rfl
      | inr later => exact all other later

theorem quoteUnits_cons (apart : (isHigh unit && rest.head?.any isLow) = false) :
    quoteUnits (unit :: rest) = quoteUnit unit ++ quoteUnits rest := by
  cases rest with
  | nil => rw [quoteUnits, quoteUnits, List.append_nil]
  | cons other rest =>
      rw [List.head?_cons, Option.any_some] at apart
      rw [quoteUnits, apart, if_neg Bool.false_ne_true]

theorem quoteUnits_pair (high : isHigh unit = true) {other : UInt16} (low : isLow other = true) :
    quoteUnits (unit :: other :: rest) = unit :: other :: quoteUnits rest := by
  rw [quoteUnits, high, low, Bool.and_self, if_pos rfl]

theorem isHigh_of_isSpaceUnit (space : isSpaceUnit unit = true) :
    isHigh unit = false ∧ isLow unit = false := by
  simp only [isSpaceUnit, Bool.or_eq_true, Bool.and_eq_true, decide_eq_true_eq, beq_iff_eq,
    UInt16.le_iff_toNat_le, ← UInt16.toNat_inj, UInt16.toNat_ofNat, Nat.reducePow,
    Nat.reduceMod] at space
  simp only [isHigh, isLow, Bool.and_eq_false_iff, decide_eq_false_iff_not,
    UInt16.le_iff_toNat_le, UInt16.toNat_ofNat, Nat.reducePow, Nat.reduceMod]
  omega

theorem isHigh_of_isBracket (closing : isBracket unit = true) :
    isHigh unit = false ∧ isLow unit = false := by
  rw [isBracket, Bool.or_eq_true, beq_iff_eq, beq_iff_eq] at closing
  rcases closing with same | same <;> rw [same] <;> decide

/-- No half of a surrogate pair is a control character. -/
theorem not_control_of_isHigh (high : isHigh unit = true) : decide (unit < 0x20) = false := by
  simp only [isHigh, Bool.and_eq_true, decide_eq_true_eq, UInt16.le_iff_toNat_le,
    UInt16.toNat_ofNat, Nat.reducePow, Nat.reduceMod] at high
  simp only [decide_eq_false_iff_not, UInt16.lt_iff_toNat_lt, UInt16.toNat_ofNat, Nat.reducePow,
    Nat.reduceMod]
  omega

/-- The first unit of a quoted text is its own first unit, which is no control character, or a
backslash. -/
theorem head_quoteUnits (unit : UInt16) (rest : Utf16) :
    ∃ others, quoteUnits (unit :: rest) = Json.backslash :: others ∨
      quoteUnits (unit :: rest) = unit :: others ∧ decide (unit < 0x20) = false := by
  cases apart : isHigh unit && rest.head?.any isLow with
  | true =>
      rw [Bool.and_eq_true, Option.any_eq_true] at apart
      have ⟨high, other, first, low⟩ := apart
      have ⟨others, same⟩ := List.head?_eq_some_iff.1 first
      rw [same, quoteUnits_pair high low]
      exact ⟨_, .inr ⟨rfl, not_control_of_isHigh high⟩⟩
  | false =>
      rw [quoteUnits_cons apart]
      cases quoteUnit_cases unit with
      | inl itself =>
          rw [itself.1]
          exact ⟨_, .inr ⟨rfl, itself.2⟩⟩
      | inr escaped =>
          have ⟨others, same, _⟩ := escaped
          rw [same]
          exact ⟨_, .inl rfl⟩

theorem closes_cons_of_blank {blank : UInt16 → Bool} (here : blank unit = true) :
    closes blank (unit :: rest) = closes blank rest := by
  rw [closes, List.dropWhile_cons_of_pos here, closes]

theorem closes_cons_of_not_blank {blank : UInt16 → Bool} (here : blank unit = false) :
    closes blank (unit :: rest) = isBracket unit := by
  rw [closes, List.dropWhile_cons_of_neg (Bool.eq_false_iff.1 here), List.head?_cons,
    Option.any_some]

theorem quoteUnit_of_plain (quote : unit ≠ 0x22) (escape : unit ≠ 0x5C)
    (control : decide (unit < 0x20) = false) (high : isHigh unit = false)
    (low : isLow unit = false) : quoteUnit unit = [unit] := by
  have apart : ∀ other : UInt16, other < 0x20 → unit ≠ other := by
    intro other less same
    rw [same] at control
    exact of_decide_eq_false control less
  have marked : (unit == Json.quotationMark || unit == Json.backslash) = false :=
    Bool.or_eq_false_iff.2 ⟨beq_false_of_ne quote, beq_false_of_ne escape⟩
  simp [quoteUnit, marked, apart 0x8 (by decide), apart 0xC (by decide), apart 0xA (by decide),
    apart 0xD (by decide), apart 0x9 (by decide), of_decide_eq_false control, high, low]

theorem quoteUnit_of_isRawSpace (space : isRawSpace unit = true) : quoteUnit unit = [unit] := by
  have ⟨wide, control⟩ := Bool.and_eq_true_iff.1 space
  have ⟨high, low⟩ := isHigh_of_isSpaceUnit wide
  apply quoteUnit_of_plain _ _ _ high low
  · intro same
    rw [same] at wide
    contradiction
  · intro same
    rw [same] at wide
    contradiction
  · rw [Bool.not_eq_true'] at control
    exact control

theorem quoteUnit_of_isBracket (closing : isBracket unit = true) : quoteUnit unit = [unit] := by
  rw [isBracket, Bool.or_eq_true, beq_iff_eq, beq_iff_eq] at closing
  rcases closing with same | same <;> rw [same] <;> rfl

/-- What follows a comma within a quoted text decides as it does in the text itself. -/
theorem closes_quoteUnits (text rest : Utf16) :
    closes isSpaceUnit (quoteUnits text ++ 0x22 :: rest) = closes isRawSpace text := by
  induction text with
  | nil => rfl
  | cons unit text ih =>
      cases space : isRawSpace unit with
      | true =>
          have ⟨wide, control⟩ := Bool.and_eq_true_iff.1 space
          rw [closes_cons_of_blank space, ← ih, quoteUnits_cons, quoteUnit_of_isRawSpace space,
            List.cons_append, List.nil_append, List.cons_append, closes_cons_of_blank wide]
          rw [(isHigh_of_isSpaceUnit wide).1, Bool.false_and]
      | false =>
          rw [closes_cons_of_not_blank space]
          have ⟨others, first⟩ := head_quoteUnits unit text
          cases first with
          | inl escaped =>
              rw [escaped, List.cons_append, closes_cons_of_not_blank rfl]
              cases closing : isBracket unit with
              | false => rfl
              | true =>
                  rw [quoteUnits_cons (by rw [(isHigh_of_isBracket closing).1, Bool.false_and]),
                    quoteUnit_of_isBracket closing] at escaped
                  have same := List.head_eq_of_cons_eq escaped
                  rw [same] at closing
                  contradiction
          | inr itself =>
              have wide : isSpaceUnit unit = false := by
                rw [isRawSpace, itself.2, Bool.not_false, Bool.and_true] at space
                exact space
              rw [itself.1, List.cons_append, closes_cons_of_not_blank wide]

theorem thin_cons_of_ne (other : unit ≠ comma) : thin (unit :: text) = unit :: thin text :=
  dropCommas_cons_of_ne other

/-- A comma is dropped before white space or a bracket, so that no surrogate pair comes about. -/
theorem head_thin (apart : text.head?.any isLow = false) : (thin text).head?.any isLow = false := by
  cases text with
  | nil => rfl
  | cons unit text =>
      rw [thin, dropCommas]
      cases drops : (unit == comma && closes isRawSpace text) with
      | false => exact apart
      | true =>
          rw [if_pos rfl]
          rw [Bool.and_eq_true] at drops
          cases text with
          | nil => rfl
          | cons other text =>
              have alone : other ≠ comma ∧ isLow other = false := by
                cases space : isRawSpace other with
                | true =>
                    have wide := (Bool.and_eq_true_iff.1 space).1
                    refine ⟨?_, (isHigh_of_isSpaceUnit wide).2⟩
                    intro same
                    rw [same] at wide
                    contradiction
                | false =>
                    rw [closes_cons_of_not_blank space] at drops
                    refine ⟨?_, (isHigh_of_isBracket drops.2).2⟩
                    intro same
                    rw [same] at drops
                    exact absurd drops.2 Bool.false_ne_true
              rw [dropCommas_cons_of_ne alone.1]
              exact alone.2

/-- One unit that is quoted by itself. -/
theorem dropCommas_quoteUnits_cons (apart : (isHigh unit && text.head?.any isLow) = false)
    (later : dropCommas isSpaceUnit (quoteUnits text ++ 0x22 :: rest) =
      quoteUnits (thin text) ++ 0x22 :: dropCommas isSpaceUnit rest) :
    dropCommas isSpaceUnit (quoteUnits (unit :: text) ++ 0x22 :: rest) =
      quoteUnits (thin (unit :: text)) ++ 0x22 :: dropCommas isSpaceUnit rest := by
  rw [quoteUnits_cons apart, List.append_assoc]
  by_cases same : unit = comma
  · rw [same]
    change dropCommas isSpaceUnit (comma :: (quoteUnits text ++ 0x22 :: rest)) = _
    rw [dropCommas, closes_quoteUnits, thin, dropCommas]
    split
    next => exact later
    next =>
      have single : quoteUnits (comma :: thin text) = quoteUnit comma ++ quoteUnits (thin text) :=
        quoteUnits_cons (Bool.false_and _)
      rw [later, ← thin, single]
      rfl
  · have none' : comma ∉ quoteUnit unit := by
      intro inside
      cases mem_quoteUnit inside with
      | inl escaped => contradiction
      | inr itself => exact same itself.1.symm
    have apart' : (isHigh unit && (thin text).head?.any isLow) = false := by
      cases high : isHigh unit with
      | false => rfl
      | true =>
          rw [high, Bool.true_and] at apart
          rw [Bool.true_and, head_thin apart]
    rw [dropCommas_append_of_not_mem none', later, thin_cons_of_ne same, quoteUnits_cons apart',
      List.append_assoc]

/-- The repair of a quoted text is the repaired text, quoted. -/
theorem dropCommas_quoteUnits (text rest : Utf16) :
    dropCommas isSpaceUnit (quoteUnits text ++ 0x22 :: rest) =
      quoteUnits (thin text) ++ 0x22 :: dropCommas isSpaceUnit rest := by
  have empty : dropCommas isSpaceUnit (quoteUnits [] ++ 0x22 :: rest) =
      quoteUnits (thin []) ++ 0x22 :: dropCommas isSpaceUnit rest :=
    dropCommas_cons_of_ne (by decide)
  induction text using Json.quoteUnits_induction with
  | empty => exact empty
  | single unit => exact dropCommas_quoteUnits_cons (Bool.and_false _) empty
  | pair high low text paired ih =>
      have ⟨isHigh', isLow'⟩ := Bool.and_eq_true_iff.1 paired
      have first : high ≠ comma := by
        intro same
        rw [same] at isHigh'
        contradiction
      have second : low ≠ comma := by
        intro same
        rw [same] at isLow'
        contradiction
      rw [quoteUnits_pair isHigh' isLow', List.cons_append, List.cons_append,
        dropCommas_cons_of_ne first, dropCommas_cons_of_ne second, ih, thin_cons_of_ne first,
        thin_cons_of_ne second, quoteUnits_pair isHigh' isLow']
      rfl
  | lone high low text unpaired ih => exact dropCommas_quoteUnits_cons unpaired ih

theorem dropCommas_quote (text rest : Utf16) : dropCommas isSpaceUnit (quote text ++ rest) =
    quote (thin text) ++ dropCommas isSpaceUnit rest := by
  have behind : quote text ++ rest = 0x22 :: (quoteUnits text ++ 0x22 :: rest) := by
    rw [quote, List.append_assoc]
    rfl
  rw [behind, dropCommas_cons_of_ne (by decide), dropCommas_quoteUnits, quote, List.append_assoc]
  rfl

end Quote

/-! ## The envelope -/

/-- An entry of `files`. -/
def entryOf (file : ExtractedFile) : Json :=
  .object [(ofString "path", .string file.path), (ofString "content", .string file.content)]

/-- The envelope of some files, with or without notes. -/
def envelope (files : List ExtractedFile) (notes : Option Utf16) : Json :=
  .object ((ofString "files", .array (files.map entryOf)) ::
    (notes.map fun text => (ofString "notes", .string text)).toList)

def thinFile (file : ExtractedFile) : ExtractedFile where
  path := thin file.path
  content := thin file.content

section Envelope

open Json (render renderItems renderMembers)

variable {files : List ExtractedFile} {notes : Option Utf16} {rest : Utf16}

theorem render_entryOf (depth : Nat) (file : ExtractedFile) : render [] depth (entryOf file) =
    ofString "\x7b\"path\":" ++ (quote file.path ++ (comma :: (ofString "\"content\":" ++
      (quote file.content ++ [0x7D])))) := by
  simp only [entryOf, render, renderMembers, List.append_assoc]
  rfl

theorem dropCommas_entryOf (depth : Nat) (file : ExtractedFile) :
    dropCommas isSpaceUnit (render [] depth (entryOf file) ++ rest) =
      render [] depth (entryOf (thinFile file)) ++ dropCommas isSpaceUnit rest := by
  have behind : ∀ rest, closes isSpaceUnit (ofString "\"content\":" ++ rest) = false := fun _ => rfl
  rw [render_entryOf, render_entryOf]
  simp only [List.append_assoc, List.cons_append, List.nil_append]
  rw [dropCommas_append_of_not_mem (by decide), dropCommas_quote,
    dropCommas_cons (by rw [behind, Bool.and_false]), dropCommas_append_of_not_mem (by decide),
    dropCommas_quote, dropCommas_cons_of_ne (by decide)]
  rfl

theorem renderItems_cons (depth : Nat) (file : ExtractedFile) (files : List ExtractedFile) :
    renderItems [] depth ((file :: files).map entryOf) =
      comma :: (render [] depth (entryOf file) ++ renderItems [] depth (files.map entryOf)) := by
  rw [List.map_cons, renderItems]
  rfl

theorem dropCommas_renderItems (depth : Nat) (files : List ExtractedFile) (rest : Utf16) :
    dropCommas isSpaceUnit (renderItems [] depth (files.map entryOf) ++ rest) =
      renderItems [] depth ((files.map thinFile).map entryOf) ++ dropCommas isSpaceUnit rest := by
  induction files with
  | nil => rfl
  | cons file files ih =>
      have behind : ∀ rest, closes isSpaceUnit (render [] depth (entryOf file) ++ rest) = false := by
        intro rest
        rw [render_entryOf]
        rfl
      rw [renderItems_cons, List.cons_append, List.append_assoc,
        dropCommas_cons (by rw [behind, Bool.and_false]), dropCommas_entryOf, ih, List.map_cons,
        renderItems_cons, List.cons_append, List.append_assoc]

/-- The entries of `files`, as they are written. -/
def entriesText : List ExtractedFile → Utf16
  | [] => []
  | file :: files => render [] 2 (entryOf file) ++ renderItems [] 2 (files.map entryOf)

def notesText : Option Utf16 → Utf16
  | none => []
  | some text => comma :: (ofString "\"notes\":" ++ quote text)

theorem renderMembers_notes (depth : Nat) (notes : Option Utf16) :
    renderMembers [] depth (notes.map fun text => (ofString "notes", Json.string text)).toList =
      notesText notes := by
  cases notes with
  | none => rfl
  | some text =>
      simp only [Option.map_some, Option.toList_some, renderMembers, render, List.append_nil]
      rfl

theorem stringify_envelope (files : List ExtractedFile) (notes : Option Utf16) :
    (envelope files notes).stringify = ofString "\x7b\"files\":[" ++
      (entriesText files ++ (0x5D :: (notesText notes ++ [0x7D]))) := by
  cases files with
  | nil =>
      simp only [envelope, Json.stringify, List.map_nil, render, renderMembers_notes,
        List.append_assoc]
      rfl
  | cons file files =>
      simp only [envelope, Json.stringify, List.map_cons, render, renderMembers_notes,
        List.append_assoc, entriesText]
      rfl

/-- The repair of an envelope is the envelope of the repaired files. -/
theorem dropCommas_stringify (files : List ExtractedFile) (notes : Option Utf16) :
    dropCommas isSpaceUnit (envelope files notes).stringify =
      (envelope (files.map thinFile) (notes.map thin)).stringify := by
  have entries : ∀ rest, dropCommas isSpaceUnit (entriesText files ++ rest) =
      entriesText (files.map thinFile) ++ dropCommas isSpaceUnit rest := by
    intro rest
    cases files with
    | nil => rfl
    | cons file files =>
        rw [entriesText, List.append_assoc, dropCommas_entryOf, dropCommas_renderItems,
          List.map_cons, entriesText, List.append_assoc]
  have noted : dropCommas isSpaceUnit (notesText notes ++ [0x7D]) =
      notesText (notes.map thin) ++ [0x7D] := by
    cases notes with
    | none => rfl
    | some text =>
        have behind : closes isSpaceUnit (ofString "\"notes\":" ++ (quote text ++ [0x7D])) =
            false := rfl
        rw [notesText, List.cons_append, List.append_assoc,
          dropCommas_cons (by rw [behind, Bool.and_false]),
          dropCommas_append_of_not_mem (by decide), dropCommas_quote]
        simp only [Option.map_some, notesText, List.cons_append, List.append_assoc]
        rfl
  rw [stringify_envelope, stringify_envelope, dropCommas_append_of_not_mem (by decide), entries,
    dropCommas_cons_of_ne (by decide), noted]

theorem isProper_envelope (files : List ExtractedFile) (notes : Option Utf16) :
    (envelope files notes).isProper = true := by
  have entries : Json.areProper (files.map entryOf) = true := by
    induction files with
    | nil => rfl
    | cons file files ih => exact ih
  cases notes with
  | none => simp [envelope, Json.isProper, Json.areProperMembers, entries]
  | some text => simp [envelope, Json.isProper, Json.areProperMembers, entries]

theorem coerceEnvelope_envelope (files : List ExtractedFile) (notes : Option Utf16) :
    coerceEnvelope (envelope files notes) =
      some (files.map fun file => { file with path := normalizePath file.path }) := by
  have entries : (files.map entryOf).filterMap coerceFile =
      files.map fun file => { file with path := normalizePath file.path } := by
    rw [List.filterMap_map, ← List.filterMap_eq_map]
    rfl
  have found : (envelope files notes).member (ofString "files") = some (.array (files.map entryOf)) := by
    cases notes <;> rfl
  rw [coerceEnvelope, found, Option.bind_some, Json.array?, Option.map_some, entries]

end Envelope

/-! ## A fence within a string -/

section Within

open Json (Reader Mode)

variable {reader after : Reader} {unit : UInt16}

/-- A back quote is read within a string only. -/
theorem string_of_next_backquote (spells : Json.Spells reader)
    (went : reader.next backquote = some after) : ∃ read, reader.mode = .string read := by
  have begun : ∀ expect, Reader.begin' expect backquote = none := fun _ => rfl
  rw [Reader.next] at went
  cases mode : reader.mode with
  | between =>
      simp only [mode, begun] at went
      contradiction
  | string read => exact ⟨read, rfl⟩
  | escape read =>
      simp only [mode] at went
      contradiction
  | hex read digits value =>
      simp only [mode] at went
      contradiction
  | number read phase =>
      have stuck : phase.next backquote = none := by cases phase <;> rfl
      simp only [mode, stuck, begun, Option.bind_fun_none, ite_self] at went
      contradiction
  | word rest value =>
      simp only [mode] at went
      split at went
      next => contradiction
      next wanted others =>
        split at went
        next same =>
          have lower := spells _ _ mode wanted List.mem_cons_self
          rw [← beq_iff_eq.1 same] at lower
          contradiction
        next => contradiction

theorem plain_of_isSpaceUnit (space : isSpaceUnit unit = true) :
    unit ≠ Json.quotationMark ∧ Json.unescape unit = none ∧ Json.hexValue unit = none := by
  have apart : ∀ other, isSpaceUnit other = false → (unit == other) = false := by
    intro other foreign
    apply beq_false_of_ne
    intro same
    rw [same, foreign] at space
    contradiction
  refine ⟨?_, ?_, ?_⟩
  · intro same
    rw [same] at space
    contradiction
  · simp [Json.unescape, Json.quotationMark, Json.backslash, apart 0x22 rfl, apart 0x5C rfl,
      apart 0x2F rfl, apart 0x62 rfl, apart 0x66 rfl, apart 0x6E rfl, apart 0x72 rfl, apart 0x74 rfl]
  · simp only [isSpaceUnit, Bool.or_eq_true, Bool.and_eq_true, decide_eq_true_eq, beq_iff_eq,
      UInt16.le_iff_toNat_le, ← UInt16.toNat_inj, UInt16.toNat_ofNat, Nat.reducePow,
      Nat.reduceMod] at space
    rw [Json.hexValue, if_neg, if_neg, if_neg]
    all_goals
      simp only [isDigit, Bool.and_eq_true, decide_eq_true_eq, UInt16.le_iff_toNat_le,
        UInt16.toNat_ofNat, Nat.reducePow, Nat.reduceMod]
      omega

theorem string_of_run_spaces {spaces read : Utf16} (blank : ∀ unit ∈ spaces, isSpaceUnit unit = true)
    (spells : Json.Spells reader) (ran : reader.run spaces = some after)
    (string : after.mode = .string read) : ∃ read, reader.mode = .string read := by
  induction spaces generalizing reader with
  | nil =>
      cases ran
      exact ⟨read, string⟩
  | cons unit spaces ih =>
      have ⟨middle, went, ran'⟩ := Option.bind_eq_some_iff.1 ran
      have ⟨spells', leads⟩ := Json.next_cases spells went
      have ⟨read', string'⟩ := ih (fun other later => blank other (.tail unit later)) spells' ran'
      have ⟨quote, escape, hex⟩ := plain_of_isSpaceUnit (blank unit List.mem_cons_self)
      exact leads read' string' quote escape hex

/-- What stands before a back quote in a JSON text is no JSON text itself, with or without the
white space at its end. -/
theorem parse_before_backquote {kept spaces rest : Utf16} {value : Json}
    (blank : ∀ unit ∈ spaces, isSpaceUnit unit = true)
    (parsed : Json.parse (kept ++ (spaces ++ backquote :: rest)) = some value) :
    Json.parse kept = none := by
  have ⟨last, ran, _⟩ := Option.bind_eq_some_iff.1 parsed
  rw [Json.run_append] at ran
  have ⟨reader, first, ran'⟩ := Option.bind_eq_some_iff.1 ran
  rw [Json.run_append] at ran'
  have ⟨middle, second, ran''⟩ := Option.bind_eq_some_iff.1 ran'
  have ⟨_, went, _⟩ := Option.bind_eq_some_iff.1 ran''
  have spells : Json.Spells reader := Json.Spells.run (show Json.Spells Reader.start from nofun) first
  have ⟨read, string⟩ := string_of_next_backquote (spells.run second) went
  have ⟨read', string'⟩ := string_of_run_spaces blank spells second string
  rw [Json.parse, Reader.read, first, Option.bind_some, Reader.finish, string']

end Within

/-! ## The fenced block -/

/-- A text in a block that is tagged as JSON. -/
def fenced (body : Utf16) : Utf16 := ticks ++ (ofString "json" ++ 0xA :: (body ++ 0xA :: ticks))

/-- Every new line is the last one, before the closing fence. -/
def Late (text : Utf16) : Prop := ∀ before after, text = before ++ 0xA :: after → after = ticks

section Fenced

variable {text body : Utf16}

theorem trim_append (text : Utf16) : ∃ spaces, (∀ unit ∈ spaces, isSpaceUnit unit = true) ∧
    text.dropWhile isSpaceUnit = Utf16.trim text ++ spaces := by
  refine ⟨((text.dropWhile isSpaceUnit).reverse.takeWhile isSpaceUnit).reverse, ?_, ?_⟩
  · intro unit inside
    exact List.mem_takeWhile_imp (List.mem_reverse.1 inside)
  · rw [Utf16.trim, ← List.reverse_append, List.takeWhile_append_dropWhile, List.reverse_reverse]

/-- A text that starts with a unit that is no white space starts so when trimmed. -/
theorem trim_cons {unit : UInt16} (visible : isSpaceUnit unit = false) (rest : Utf16) :
    ∃ kept spaces, Utf16.trim (unit :: rest) = unit :: kept ∧ unit :: rest = unit :: kept ++ spaces ∧
      ∀ unit ∈ spaces, isSpaceUnit unit = true := by
  have ⟨spaces, blank, whole⟩ := trim_append (unit :: rest)
  rw [List.dropWhile_cons_of_neg (Bool.eq_false_iff.1 visible)] at whole
  cases trimmed : Utf16.trim (unit :: rest) with
  | nil =>
      rw [trimmed, List.nil_append] at whole
      have space := blank unit (whole ▸ List.mem_cons_self)
      rw [visible] at space
      contradiction
  | cons first kept =>
      rw [trimmed] at whole
      have same := List.head_eq_of_cons_eq whole
      exact ⟨kept, spaces, same ▸ rfl, same ▸ whole, blank⟩

theorem trim_of_visible {first last : UInt16} {middle spaces : Utf16}
    (visible : isSpaceUnit first = false) (visible' : isSpaceUnit last = false)
    (blank : ∀ unit ∈ spaces, isSpaceUnit unit = true) :
    Utf16.trim (first :: (middle ++ last :: spaces)) = first :: (middle ++ [last]) := by
  have behind : (first :: (middle ++ last :: spaces)).reverse =
      spaces.reverse ++ last :: (middle.reverse ++ [first]) := by simp
  rw [Utf16.trim, List.dropWhile_cons_of_neg (Bool.eq_false_iff.1 visible), behind,
    List.dropWhile_append_of_pos (fun unit inside => blank unit (List.mem_reverse.1 inside)),
    List.dropWhile_cons_of_neg (Bool.eq_false_iff.1 visible')]
  simp

theorem head_trim_fenced (body : Utf16) : (Utf16.trim (fenced body)).head? = some backquote := by
  have visible : isSpaceUnit backquote = false := rfl
  have ⟨kept, _, trimmed, _⟩ := trim_cons visible
    (backquote :: backquote :: (ofString "json" ++ 0xA :: (body ++ 0xA :: ticks)))
  exact (congrArg List.head? trimmed).trans rfl

theorem Late.append {before : Utf16} (late : Late (before ++ text)) : Late text := by
  intro first after same
  apply late (before ++ first) after
  rw [same, List.append_assoc]

theorem late_nil : Late [] := by
  intro before after same
  cases before <;> contradiction

theorem late_of_not_mem (single : 0xA ∉ text) : Late (text ++ 0xA :: ticks) := by
  intro before after same
  exact ((List.append_cons_inj_of_notMem single (by decide)).1 same).2.2.symm

/-- What a block holds behind which no new line is left but the last one. -/
theorem Late.bodies {fuel : Nat} {before : Option UInt16} (late : Late text) :
    ∀ captures ∈ fence.matchesFrom fuel before text, captures.getD 1 [] = [] := by
  induction fuel generalizing before text with
  | zero => exact nofun
  | succ fuel ih =>
      intro captures inside
      rw [matchesFrom] at inside
      split at inside
      next => contradiction
      next skipped cursor found =>
        have ⟨tag, content, captured, whole⟩ := fence_of_search found
        have last : content ++ (ticks ++ cursor.rest) = ticks := by
          apply late (skipped ++ (ticks ++ tag))
          rw [whole]
          simp only [List.append_assoc]
        cases List.mem_cons.1 inside with
        | inl same =>
            have length := congrArg List.length last
            rw [List.length_append, List.length_append] at length
            have none' : content.length = 0 := by omega
            rw [same, captured]
            exact List.length_eq_zero_iff.1 none'
        | inr later =>
            apply ih _ captures later
            have later' : Late (skipped ++ (ticks ++ (tag ++ 0xA :: (content ++ ticks))) ++
                cursor.rest) := by
              intro first after same
              apply late first after
              rw [whole, ← same]
              simp only [List.append_assoc, List.cons_append]
            exact later'.append

/-- The bodies of a fenced text: the text up to its first fence, and nothing else that is not
empty. -/
theorem fenceBodies_fenced {content after : Utf16} (late : Late after)
    (found : splitFirst ticks (body ++ 0xA :: ticks) = some (content, after)) :
    ∃ others, fenceBodies (fenced body) = content :: others ∧ ∀ other ∈ others, other = [] := by
  have matched : fence.matchAt none (fenced body) = some {
      before := some backquote, rest := after, captures := [ofString "json", content] } := by
    have plain : (ofString "json").all (fun unit => unit != 0xA && unit != backquote) = true := rfl
    have tagged : ∀ unit ∈ ofString "json", unit ≠ 0xA ∧ unit ≠ backquote := by
      intro unit inside
      have both := List.all_eq_true.1 plain unit inside
      rw [Bool.and_eq_true, bne_iff_ne, bne_iff_ne] at both
      exact both
    rw [fenced, matchAt_fence tagged, found]
    rfl
  have ⟨fuel, size⟩ : ∃ fuel, (fenced body).length = fuel + 1 := ⟨_, rfl⟩
  refine ⟨(fence.matchesFrom fuel (some backquote) after).map fun captures => captures.getD 1 [],
    ?_, ?_⟩
  · rw [fenceBodies, matches', size, matchesFrom, search_of_matchAt matched]
    rfl
  · intro other inside
    have ⟨captures, among, same⟩ := List.mem_map.1 inside
    exact same ▸ late.bodies captures among

end Fenced

/-! ## The round trip -/

section RoundTrip

variable {files : List ExtractedFile} {notes : Option Utf16}

/-- A file as it is extracted. -/
def normalized (file : ExtractedFile) : ExtractedFile :=
  { file with path := normalizePath file.path }

theorem not_mem_quoteUnit (unit : UInt16) : 0xA ∉ quoteUnit unit := by
  intro inside
  cases mem_quoteUnit inside with
  | inl escaped => contradiction
  | inr itself =>
      have ⟨same, control⟩ := itself
      rw [← same] at control
      contradiction

theorem not_mem_quote (text : Utf16) : 0xA ∉ quote text := by
  have units : 0xA ∉ quoteUnits text := by
    induction text using Json.quoteUnits_induction with
    | empty => exact List.not_mem_nil
    | single unit => exact not_mem_quoteUnit unit
    | pair high low text paired ih =>
        have ⟨isHigh', isLow'⟩ := Bool.and_eq_true_iff.1 paired
        rw [quoteUnits_pair isHigh' isLow', List.mem_cons, List.mem_cons, not_or, not_or]
        refine ⟨?_, ?_, ih⟩
        · intro same
          rw [← same] at isHigh'
          contradiction
        · intro same
          rw [← same] at isLow'
          contradiction
    | lone high low text unpaired ih =>
        rw [quoteUnits_cons unpaired]
        exact List.not_mem_append (not_mem_quoteUnit high) ih
  simp only [quote, List.cons_append, List.mem_cons, List.mem_append, List.not_mem_nil, or_false,
    not_or]
  exact ⟨by decide, units, by decide⟩

theorem not_mem_render_entryOf (depth : Nat) (file : ExtractedFile) :
    0xA ∉ Json.render [] depth (entryOf file) := by
  rw [render_entryOf]
  apply List.not_mem_append (by decide)
  apply List.not_mem_append (not_mem_quote _)
  apply List.not_mem_cons_of_ne_of_not_mem (by decide)
  apply List.not_mem_append (by decide)
  exact List.not_mem_append (not_mem_quote _) (by decide)

/-- An envelope is written on one line. -/
theorem not_mem_stringify (files : List ExtractedFile) (notes : Option Utf16) :
    0xA ∉ (envelope files notes).stringify := by
  have items : ∀ files : List ExtractedFile, 0xA ∉ Json.renderItems [] 2 (files.map entryOf) := by
    intro files
    induction files with
    | nil => exact List.not_mem_nil
    | cons file files ih =>
        rw [renderItems_cons]
        apply List.not_mem_cons_of_ne_of_not_mem (by decide)
        exact List.not_mem_append (not_mem_render_entryOf 2 file) ih
  have entries : 0xA ∉ entriesText files := by
    cases files with
    | nil => exact List.not_mem_nil
    | cons file files => exact List.not_mem_append (not_mem_render_entryOf 2 file) (items files)
  have noted : 0xA ∉ notesText notes := by
    cases notes with
    | none => exact List.not_mem_nil
    | some text =>
        apply List.not_mem_cons_of_ne_of_not_mem (by decide)
        exact List.not_mem_append (by decide) (not_mem_quote text)
  rw [stringify_envelope]
  apply List.not_mem_append (by decide)
  apply List.not_mem_append entries
  apply List.not_mem_cons_of_ne_of_not_mem (by decide)
  exact List.not_mem_append noted (by decide)

/-- The envelope's text, between its braces. -/
theorem stringify_eq (files : List ExtractedFile) (notes : Option Utf16) :
    ∃ middle, (envelope files notes).stringify = openBrace :: (middle ++ [0x7D]) := by
  refine ⟨ofString "\"files\":[" ++ (entriesText files ++ (0x5D :: notesText notes)), ?_⟩
  rw [stringify_envelope]
  simp only [List.append_assoc, List.cons_append]
  rfl

theorem coerce_of_parse (files : List ExtractedFile) (notes : Option Utf16) :
    (Json.parse (envelope files notes).stringify).bind coerceEnvelope =
      some (files.map normalized) := by
  rw [Json.parse_stringify (isProper_envelope files notes), Option.bind_some,
    coerceEnvelope_envelope]
  rfl

/-- Without a fence in it the block is read whole. -/
theorem parse_fenced_of_none
    (none' : splitFirst ticks (envelope files notes).stringify = none) :
    parseTaskOutput Json.parse (fenced (envelope files notes).stringify) =
      { tier := some 1, files := files.map normalized, malformed := false } := by
  have found := splitFirst_of_none none' (show (0xA : UInt16) ∉ ticks by decide)
  have ⟨others, bodies, _⟩ := fenceBodies_fenced late_nil found
  have ⟨middle, same⟩ := stringify_eq files notes
  have trimmed : Utf16.trim ((envelope files notes).stringify ++ [0xA]) =
      (envelope files notes).stringify := by
    have blank : ∀ unit ∈ [0xA], isSpaceUnit unit = true := List.forall_mem_singleton.2 rfl
    rw [same, List.cons_append, List.append_assoc, List.singleton_append,
      trim_of_visible rfl rfl blank]
  have strict : tryStrict Json.parse (fenced (envelope files notes).stringify) =
      some (files.map normalized) := by
    have first : (envelope files notes).stringify.head? = some openBrace := by rw [same]; rfl
    rw [tryStrict, bodies, List.cons_append, List.findSome?_cons, trimmed]
    simp only [first, if_true, coerce_of_parse]
  rw [parseTaskOutput, strict]
  rfl

theorem tryLenientJson_append {before : Utf16} (none' : openBrace ∉ before) (rest : Utf16) :
    tryLenientJson Json.parse (before ++ rest) = tryLenientJson Json.parse rest := by
  induction before with
  | nil => rfl
  | cons unit before ih =>
      have ⟨other, none''⟩ := not_or.1 (fun inside => none' (List.mem_cons.2 inside))
      rw [List.cons_append, tryLenientJson, if_neg (Ne.symm other), ih none'']

/-- A fence in it ends the block early, and the repair takes the whole envelope. -/
theorem parse_fenced_of_some {content after : Utf16}
    (found : splitFirst ticks (envelope files notes).stringify = some (content, after)) :
    parseTaskOutput Json.parse (fenced (envelope files notes).stringify) =
      { tier := some 2, files := (files.map thinFile).map normalized, malformed := false } := by
  have ⟨middle, same⟩ := stringify_eq files notes
  have whole := append_of_splitFirst found
  have single : 0xA ∉ after := by
    intro inside
    apply not_mem_stringify files notes
    rw [whole]
    exact List.mem_append_right _ (List.mem_append_right _ inside)
  have ⟨others, bodies, vain⟩ := fenceBodies_fenced (late_of_not_mem single)
    (splitFirst_append found (0xA :: ticks))
  have strict : tryStrict Json.parse (fenced (envelope files notes).stringify) = none := by
    rw [tryStrict, List.findSome?_eq_none_iff, bodies]
    intro candidate inside
    rcases List.mem_append.1 inside with among | itself
    · cases List.mem_cons.1 among with
      | inl first =>
          rw [first]
          cases content with
          | nil => rfl
          | cons unit rest =>
              have brace : unit = openBrace := by
                rw [same] at whole
                exact (List.head_eq_of_cons_eq whole).symm
              have visible : isSpaceUnit unit = false := by rw [brace]; rfl
              have ⟨kept, spaces, trimmed, split, blank⟩ := trim_cons visible rest
              have parsed : Json.parse ((unit :: kept) ++ (spaces ++ (ticks ++ after))) =
                  some (envelope files notes) := by
                rw [← List.append_assoc, ← split, ← whole]
                exact Json.parse_stringify (isProper_envelope files notes)
              simp only [trimmed, parse_before_backquote blank parsed, Option.bind_none, ite_self]
      | inr other =>
          rw [vain candidate other]
          rfl
    · simp only [List.mem_singleton.1 itself, head_trim_fenced]
      rfl
  have lenient : tryLenientJson Json.parse (fenced (envelope files notes).stringify) =
      some ((files.map thinFile).map normalized) := by
    have before : fenced (envelope files notes).stringify =
        (ticks ++ (ofString "json" ++ [0xA])) ++ ((envelope files notes).stringify ++ 0xA :: ticks) := by
      rw [fenced]
      simp only [List.append_assoc, List.singleton_append]
    have first : (envelope files notes).stringify.head? = some openBrace := by rw [same]; rfl
    have ⟨within, spaces, split, blank, cut⟩ := extractBalancedObject_of_parse first
      (Json.parse_stringify (isProper_envelope files notes))
    have ends : within ++ [0x7D] = (envelope files notes).stringify := by
      cases List.eq_nil_or_concat spaces with
      | inl none' => rw [split, none']
      | inr more =>
          have ⟨init, last, shape⟩ := more
          rw [List.concat_eq_append] at shape
          have lasts : (within ++ 0x7D :: init) ++ [last] = (openBrace :: middle) ++ [0x7D] := by
            rw [List.append_assoc, List.cons_append, List.cons_append, ← same, split, shape]
          have brace := List.head_eq_of_cons_eq (List.append_inj_right' lasts rfl)
          have space := blank last (shape ▸ List.mem_append_right init List.mem_cons_self)
          rw [brace] at space
          contradiction
    have repaired : (Json.parse (stripTrailingCommas (envelope files notes).stringify)).bind
        coerceEnvelope = some ((files.map thinFile).map normalized) := by
      rw [stripTrailingCommas_eq, dropCommas_stringify, coerce_of_parse]
    have cut' := cut (0xA :: ticks)
    rw [ends, same, List.cons_append] at cut'
    rw [before, tryLenientJson_append (by decide)]
    conv_lhs => rw [same, List.cons_append]
    rw [tryLenientJson, if_pos rfl, cut']
    simp only [← same, repaired]
    rfl
  rw [parseTaskOutput, strict, tryLenient, lenient]
  rfl

/-! ### Paths -/

theorem count_split (text : Utf16) {unit at' : UInt16} (other : unit ≠ at') :
    ((split at' text).map (List.count unit)).sum = text.count unit := by
  induction text with
  | nil => rfl
  | cons first rest ih =>
      rw [split]
      split
      next same =>
        rw [List.map_cons, List.sum_cons, ih, List.count_nil, Nat.zero_add,
          List.count_cons_of_ne (same ▸ Ne.symm other)]
      next =>
        cases pieces : split at' rest with
        | nil =>
            rw [pieces] at ih
            have none' : rest.count unit = 0 := ih.symm
            simp only [List.map_cons, List.map_nil, List.sum_cons, List.sum_nil, List.count_cons,
              List.count_nil, none', Nat.add_zero]
        | cons piece pieces' =>
            rw [pieces] at ih
            simp only [List.map_cons, List.sum_cons, List.count_cons] at ih ⊢
            omega

theorem count_join (pieces : List Utf16) {unit at' : UInt16} (other : unit ≠ at') :
    (join [at'] pieces).count unit = (pieces.map (List.count unit)).sum := by
  induction pieces with
  | nil => rfl
  | cons piece pieces ih =>
      cases pieces with
      | nil => simp [join, List.intercalate]
      | cons piece' pieces =>
          have unfolded : join [at'] (piece :: piece' :: pieces) =
              piece ++ (at' :: join [at'] (piece' :: pieces)) := by
            simp [join, List.intercalate]
          rw [unfolded, List.count_append, List.count_cons_of_ne (Ne.symm other), ih]
          simp only [List.map_cons, List.sum_cons]

theorem sum_filter_le (keep : Utf16 → Bool) (unit : UInt16) (pieces : List Utf16) :
    ((pieces.filter keep).map (List.count unit)).sum ≤ (pieces.map (List.count unit)).sum := by
  induction pieces with
  | nil => exact le_refl _
  | cons piece pieces ih =>
      rw [List.filter_cons, List.map_cons, List.sum_cons]
      split
      next =>
        rw [List.map_cons, List.sum_cons]
        exact Nat.add_le_add_left ih _
      next => exact Nat.le_add_left_of_le ih

/-- The segments that are left of a path. -/
def segmentsOf (raw : Utf16) : List Utf16 :=
  (split 0x2F (raw.map fun unit => if unit == 0x5C then 0x2F else unit)).filter fun segment =>
    !segment.isEmpty && segment != ofString "." && segment != ofString ".."

theorem normalizePath_eq (raw : Utf16) : normalizePath raw =
    if (segmentsOf raw).isEmpty then ofString "untitled-file.txt" else join [0x2F] (segmentsOf raw) :=
  rfl

/-- A path has no commas that it had not before. -/
theorem count_normalizePath_le (raw : Utf16) : (normalizePath raw).count comma ≤ raw.count comma := by
  have cleaned : (raw.map fun unit => if unit == 0x5C then 0x2F else unit).count comma =
      raw.count comma := by
    induction raw with
    | nil => rfl
    | cons unit raw ih =>
        rw [List.map_cons, List.count_cons, List.count_cons, ih]
        congr 1
        split
        next slash => rw [beq_iff_eq.1 slash]; rfl
        next => rfl
  rw [normalizePath_eq]
  split
  next => exact Nat.zero_le _
  next =>
    have other : comma ≠ 0x2F := by decide
    rw [count_join _ other, ← cleaned, ← count_split _ other]
    exact sum_filter_le _ _ _

theorem count_dropCommas (blank : UInt16 → Bool) (text : Utf16) :
    (dropCommas blank text).count comma ≤ text.count comma ∧
      (hasTrailingComma blank text = true →
        (dropCommas blank text).count comma < text.count comma) := by
  induction text with
  | nil => exact ⟨le_refl _, nofun⟩
  | cons unit rest ih =>
      have ⟨fewer, less⟩ := ih
      rw [dropCommas, hasTrailingComma]
      cases drops : (unit == comma && closes blank rest) with
      | true =>
          have same := beq_iff_eq.1 (Bool.and_eq_true_iff.1 drops).1
          rw [if_pos rfl, same, List.count_cons_self]
          exact ⟨by omega, fun _ => by omega⟩
      | false =>
          rw [if_neg Bool.false_ne_true, Bool.false_or, List.count_cons, List.count_cons]
          exact ⟨by omega, fun more => by have := less more; omega⟩

/-- A normal path that is read back has lost no comma. -/
theorem hasTrailingComma_of_path {path : Utf16} (same : normalizePath (thin path) = path) :
    hasTrailingComma isRawSpace path = false := by
  cases more : hasTrailingComma isRawSpace path with
  | false => rfl
  | true =>
      have fewer := (count_dropCommas isRawSpace path).2 more
      have kept := count_normalizePath_le (thin path)
      rw [same] at kept
      exact absurd fewer (Nat.not_lt.2 kept)

/-! ### Contents -/

/-- The files that are read out of their envelope in a fenced block are these files if and only
if no fence stands in the envelope, or no comma stands before a closing bracket in a path or a
content. -/
theorem files_survive_iff (files : List ExtractedFile) (notes : Option Utf16)
    (normal : ∀ file ∈ files, normalizePath file.path = file.path) :
    (parseTaskOutput Json.parse (fenced (envelope files notes).stringify)).files = files ↔
      hasFence (envelope files notes).stringify = false ∨
        ∀ file ∈ files, hasTrailingComma isRawSpace file.path = false ∧
          hasTrailingComma isRawSpace file.content = false := by
  have self_iff : ∀ change : ExtractedFile → ExtractedFile,
      files.map change = files ↔ ∀ file ∈ files, change file = file := by
    intro change
    conv_lhs => rhs; rw [← List.map_id files]
    exact List.map_inj_left
  cases found : splitFirst ticks (envelope files notes).stringify with
  | none =>
      apply iff_of_true
      · rw [parse_fenced_of_none found]
        apply (self_iff normalized).2
        intro file inside
        rw [normalized, normal file inside]
      · left
        rw [hasFence, found]
        rfl
  | some pieces =>
      have fence' : hasFence (envelope files notes).stringify ≠ false := by
        rw [hasFence, found]
        nofun
      rw [parse_fenced_of_some found, or_iff_right fence', List.map_map, self_iff]
      apply forall_congr'
      intro file
      apply imp_congr_right
      intro inside
      have expanded : normalized (thinFile file) = file ↔
          normalizePath (thin file.path) = file.path ∧ thin file.content = file.content := by
        cases file
        exact Iff.of_eq (ExtractedFile.mk.injEq _ _ _ _)
      rw [Function.comp_apply, expanded]
      constructor
      · intro ⟨path, content⟩
        exact ⟨hasTrailingComma_of_path path, dropCommas_eq_self_iff.1 content⟩
      · intro ⟨path, content⟩
        refine ⟨?_, dropCommas_eq_self_iff.2 content⟩
        rw [thin, dropCommas_eq_self_iff.2 path]
        exact normal file inside

/-- A guide with code, braces and commas, and a fence. -/
def guide : ExtractedFile where
  path := ofString "docs/guide.md"
  content := ofString "```js\nf(\x7ba: [1, 2], // twice\n\x7d);\n```\n"

theorem guide_survives :
    (∀ file ∈ [guide], normalizePath file.path = file.path) ∧
      (parseTaskOutput Json.parse (fenced (envelope [guide] none).stringify)).files = [guide] := by
  have normal : ∀ file ∈ [guide], normalizePath file.path = file.path := by decide
  exact ⟨normal, (files_survive_iff [guide] none normal).2 (.inr (by decide))⟩

/-- A fence, and then a comma before a bracket. -/
def snippet : ExtractedFile where
  path := ofString "a.md"
  content := ofString "```[1,]"

theorem not_files_survive : ¬ ∀ (files : List ExtractedFile) (notes : Option Utf16),
    (∀ file ∈ files, normalizePath file.path = file.path) →
    (files.map ExtractedFile.path).Nodup →
    (parseTaskOutput Json.parse (fenced (envelope files notes).stringify)).files = files := by
  intro all
  have same := all [snippet] none (by decide) (by decide)
  revert same
  decide

end RoundTrip

end OutputParser

end TitanRunner
