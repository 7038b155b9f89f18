import Mathlib.Data.List.TakeWhile
import TitanRunner.Orchestrator.Fences

/-!
# Blocks of the old convention

A fenced block that names its file in a comment is one that `looksLikeAttemptedEnvelope` sees.
-/

namespace Regex

open Utf16

/-! ## Literal texts -/

section Literal

variable {cursor after : Cursor} {string : String}

theorem goes_text (goes : Goes (text string) cursor after) :
    cursor.rest = ofString string ++ after.rest ∧
      after.before = unitBefore cursor.before (ofString string) := by
  have general : ∀ (units : Utf16) (cursor : Cursor),
      Goes (units.foldr (fun unit rest => .seq (lit unit) rest) .empty) cursor after →
        cursor.rest = units ++ after.rest ∧ after.before = unitBefore cursor.before units := by
    intro units
    induction units with
    | nil =>
        intro cursor goes
        cases goes
        exact ⟨rfl, rfl⟩
    | cons unit units ih =>
        intro cursor goes
        have ⟨middle, ⟨other, same, first, before, _⟩, goes'⟩ := goes
        have ⟨rest, before'⟩ := ih middle goes'
        rw [beq_iff_eq] at same
        refine ⟨?_, ?_⟩
        · rw [first, rest, same]
          rfl
        · rw [before', before, same]
          rfl
  exact general _ cursor goes

theorem goes_textNoCase_iff : Goes (textNoCase string) cursor after ↔
    ∃ used, used.map lower = (ofString string).map lower ∧ cursor.rest = used ++ after.rest ∧
      after.before = unitBefore cursor.before used ∧ after.captures = cursor.captures := by
  have general : ∀ (units : Utf16) (cursor : Cursor),
      Goes (units.foldr (fun unit rest => .seq (.oneOf fun other => lower other == lower unit) rest)
        .empty) cursor after ↔
        ∃ used, used.map lower = units.map lower ∧ cursor.rest = used ++ after.rest ∧
          after.before = unitBefore cursor.before used ∧ after.captures = cursor.captures := by
    intro units
    induction units with
    | nil =>
        intro cursor
        constructor
        · intro goes
          cases goes
          exact ⟨[], rfl, rfl, rfl, rfl⟩
        · rintro ⟨used, same, rest, before, captures⟩
          have empty := List.map_eq_nil_iff.1 same
          rw [empty] at rest before
          cases after
          cases cursor
          simp only [List.nil_append, unitBefore] at rest before captures
          rw [rest, before, captures]
          rfl
    | cons unit units ih =>
        intro cursor
        constructor
        · intro goes
          obtain ⟨middle, ⟨other, alike, first, before, captures⟩, goes'⟩ := goes
          obtain ⟨used, same, rest, before', captures'⟩ := (ih middle).1 goes'
          rw [beq_iff_eq] at alike
          refine ⟨other :: used, ?_, ?_, ?_, captures'.trans captures⟩
          · rw [List.map_cons, List.map_cons, alike, same]
          · rw [first, rest]
            rfl
          · rw [before', before]
            rfl
        · rintro ⟨used, same, rest, before, captures⟩
          cases used with
          | nil => contradiction
          | cons other used =>
              rw [List.map_cons, List.map_cons, List.cons.injEq] at same
              refine ⟨{ before := some other, rest := used ++ after.rest
                        captures := cursor.captures }, ?_, ?_⟩
              · exact ⟨other, beq_iff_eq.2 same.1, rest, rfl, rfl⟩
              · exact (ih _).2 ⟨used, same.2, rfl, before, captures⟩
  exact general _ cursor

end Literal

end Regex

namespace TitanRunner

namespace OutputParser

open Regex Utf16

/-! ## Within the text -/

/-- The body of a fenced block stands in the text, between a new line and a fence. -/
theorem mem_fenceBodies {text body : Utf16} (inside : body ∈ fenceBodies text) :
    ∃ front back, text = front ++ 0xA :: (body ++ (ticks ++ back)) := by
  have general : ∀ fuel before text captures, captures ∈ fence.matchesFrom fuel before text →
      ∃ front back, text = front ++ 0xA :: (captures.getD 1 [] ++ (ticks ++ back)) := by
    intro fuel
    induction fuel with
    | zero =>
        intro _ _ _ inside
        contradiction
    | succ fuel ih =>
        intro before text captures inside
        rw [matchesFrom] at inside
        split at inside
        next => contradiction
        next skipped cursor found =>
          have ⟨tag, content, captured, whole⟩ := fence_of_search found
          cases List.mem_cons.1 inside with
          | inl same =>
              refine ⟨skipped ++ (ticks ++ tag), cursor.rest, ?_⟩
              rw [same, captured, whole]
              simp only [List.append_assoc]
              rfl
          | inr later =>
              have ⟨front, back, behind⟩ := ih _ _ captures later
              refine ⟨skipped ++ (ticks ++ (tag ++ 0xA :: (content ++ (ticks ++ front)))), back, ?_⟩
              rw [whole, behind]
              simp only [List.append_assoc, List.cons_append]
  have ⟨captures, among, same⟩ := List.mem_map.1 inside
  exact same ▸ general _ _ _ captures among

/-! ## The comment -/

/-- No letter, digit or underscore. -/
def IsGap (text : Utf16) : Prop := ∀ unit ∈ text, isWord unit = false

theorem IsGap.append {first second : Utf16} (gap : IsGap first) (gap' : IsGap second) :
    IsGap (first ++ second) := by
  intro unit inside
  cases List.mem_append.1 inside with
  | inl before => exact gap unit before
  | inr behind => exact gap' unit behind

theorem isGap_of_isSpaceUnit {spaces : Utf16} (blank : ∀ unit ∈ spaces, isSpaceUnit unit = true) :
    IsGap spaces := by
  intro unit inside
  have space := blank unit inside
  simp only [isSpaceUnit, Bool.or_eq_true, Bool.and_eq_true, decide_eq_true_eq, beq_iff_eq,
    UInt16.le_iff_toNat_le, ← UInt16.toNat_inj, UInt16.toNat_ofNat, Nat.reducePow,
    Nat.reduceMod] at space
  simp only [isWord, isAlnum, isLower, isUpper, isDigit, Bool.or_eq_false_iff,
    Bool.and_eq_false_iff, decide_eq_false_iff_not, beq_eq_false_iff_ne, ne_eq,
    UInt16.le_iff_toNat_le, ← UInt16.toNat_inj, UInt16.toNat_ofNat, Nat.reducePow, Nat.reduceMod]
  omega

theorem IsGap.unitBefore {gap : Utf16} (isGap : IsGap gap) {before : Option UInt16}
    (outside : isWordAt before = false) : isWordAt (unitBefore before gap) = false := by
  induction gap generalizing before with
  | nil => exact outside
  | cons unit gap ih =>
      apply ih (fun other inside => isGap other (.tail unit inside))
      exact isGap unit List.mem_cons_self

/-- The expression takes no word. -/
def TakesGap (regex : Regex) : Prop := ∀ {cursor after : Cursor}, Goes regex cursor after →
  ∃ gap, IsGap gap ∧ cursor.rest = gap ++ after.rest

theorem takesGap_spaces : TakesGap (star isSpaceUnit) := by
  intro cursor after goes
  have ⟨run, blank, _, _, rest, _⟩ := goes
  exact ⟨run, isGap_of_isSpaceUnit blank, rest⟩

theorem takesGap_text {string : String} (gap : (ofString string).all (!isWord ·) = true) :
    TakesGap (Regex.text string) := by
  intro cursor after goes
  refine ⟨_, ?_, (goes_text goes).1⟩
  intro unit inside
  have outside := List.all_eq_true.1 gap unit inside
  rw [Bool.not_eq_true'] at outside
  exact outside

theorem takesGap_alt {first second : Regex} (gap : TakesGap first) (gap' : TakesGap second) :
    TakesGap (.alt first second) := by
  intro cursor after goes
  cases goes with
  | inl goes => exact gap goes
  | inr goes => exact gap' goes

/-- A comment: white space, its marker, white space and the word. -/
theorem word_of_comment {marker rest : Regex} (marked : TakesGap marker) {cursor after : Cursor}
    (goes : Goes (.seq .start (.seq (star isSpaceUnit) (.seq marker (.seq (star isSpaceUnit)
      (.seq (textNoCase "file:") rest))))) cursor after) :
    ∃ gap word more, cursor.rest = gap ++ (word ++ more) ∧ IsGap gap ∧
      word.map lower = (ofString "file:").map lower := by
  have ⟨first, started, second, spaces, third, mark, fourth, spaces', fifth, named, _⟩ := goes
  cases started.1
  have ⟨gap₁, isGap₁, rest₁⟩ := takesGap_spaces spaces
  have ⟨gap₂, isGap₂, rest₂⟩ := marked mark
  have ⟨gap₃, isGap₃, rest₃⟩ := takesGap_spaces spaces'
  have ⟨word, same, rest₄, _⟩ := goes_textNoCase_iff.1 named
  refine ⟨gap₁ ++ (gap₂ ++ gap₃), word, fifth.rest, ?_, isGap₁.append (isGap₂.append isGap₃), same⟩
  rw [rest₁, rest₂, rest₃, rest₄]
  simp only [List.append_assoc]

/-- A file comment is the word behind a gap. -/
theorem word_of_fileComment {line : Utf16} (matched : (fileComment.matchAt none line).isSome = true) :
    ∃ gap word rest, line = gap ++ (word ++ rest) ∧ IsGap gap ∧
      word.map lower = (ofString "file:").map lower := by
  have ⟨last, found⟩ := Option.isSome_iff_exists.1 matched
  have ⟨after, goes, _⟩ := goes_of_match' found
  cases goes with
  | inl goes =>
      have marked : TakesGap (alts [Regex.text "//", Regex.text "#", Regex.text "--",
          Regex.text ";", Regex.text "%"]) :=
        takesGap_alt (takesGap_text (by decide)) (takesGap_alt (takesGap_text (by decide))
          (takesGap_alt (takesGap_text (by decide)) (takesGap_alt (takesGap_text (by decide))
            (takesGap_text (by decide)))))
      exact word_of_comment marked goes
  | inr goes => exact word_of_comment (takesGap_text (by decide)) goes

theorem isWord_of_lower {unit : UInt16} (same : lower unit = lower 0x66) : isWord unit = true := by
  rw [lower] at same
  split at same
  next upper => rw [isWord, isAlnum, upper, Bool.or_true, Bool.true_or, Bool.true_or]
  next => rw [show unit = 0x66 from same]; rfl

theorem looksLike_of_word {front word back : Utf16} (outside : isWordAt (unitBefore none front) = false)
    (same : word.map lower = (ofString "file:").map lower)
    (visible : ∃ unit ∈ back, isSpaceUnit unit = false) :
    looksLikeAttemptedEnvelope (front ++ (word ++ back)) = true := by
  have ⟨unit, inside, shown⟩ := visible
  cases behind : back.dropWhile isSpaceUnit with
  | nil =>
      rw [List.dropWhile_eq_nil_iff.1 behind unit inside] at shown
      contradiction
  | cons next others =>
      have first : isSpaceUnit next = false := by
        have stopped := List.head?_dropWhile_not isSpaceUnit back
        rw [behind] at stopped
        exact stopped
      have whole : back = back.takeWhile isSpaceUnit ++ next :: others := by
        rw [← behind, List.takeWhile_append_dropWhile]
      have blank : ∀ unit ∈ back.takeWhile isSpaceUnit, isSpaceUnit unit = true :=
        fun unit inside => List.mem_takeWhile_imp inside
      have boundary : Cursor.atBoundary
          { before := unitBefore none front, rest := word ++ back } = true := by
        cases word with
        | nil => contradiction
        | cons letter word =>
            have starts : isWordAt (letter :: word ++ back).head? = true :=
              isWord_of_lower (List.cons.inj same).1
            rw [Cursor.atBoundary, outside, starts]
            rfl
      have found : (seqs [.wordBoundary, textNoCase "file:", star isSpaceUnit,
          .oneOf fun unit => !isSpaceUnit unit]).test (front ++ (word ++ back)) = true := by
        apply test_of_goes front
        refine ⟨_, ⟨rfl, boundary⟩, { before := _, rest := back },
          goes_textNoCase_iff.2 ⟨word, same, rfl, rfl, rfl⟩, ?_⟩
        refine ⟨{ before := _, rest := next :: others },
          ⟨_, blank, Nat.zero_le _, rfl, whole, rfl, rfl⟩, ?_⟩
        exact ⟨{ before := _, rest := others }, ⟨next, congrArg not first, rfl, rfl, rfl⟩, rfl⟩
      rw [looksLikeAttemptedEnvelope, found, Bool.or_true]

/-- What the old convention names files in looks like an attempt to. -/
theorem looksLike_of_legacy {text : Utf16}
    (legacy : (extractLegacyFileBlocks text).isEmpty = false) :
    looksLikeAttemptedEnvelope text = true := by
  have ⟨file, extracted⟩ := List.exists_mem_of_ne_nil _ (List.isEmpty_eq_false_iff.1 legacy)
  have ⟨body, inside, named⟩ := List.mem_filterMap.1 extracted
  have ⟨front, back, whole⟩ := mem_fenceBodies inside
  have matched : (fileComment.matchAt none (body.takeWhile (· != 0xA))).isSome = true := by
    have ⟨_, found, _⟩ := Option.map_eq_some_iff.1 named
    exact Option.isSome_of_eq_some found
  have ⟨gap, word, rest, line, isGap, same⟩ := word_of_fileComment matched
  have around : text = (front ++ 0xA :: gap) ++
      (word ++ (rest ++ (body.dropWhile (· != 0xA) ++ (ticks ++ back)))) := by
    rw [whole]
    conv_lhs => rw [← List.takeWhile_append_dropWhile (p := (· != 0xA)) (l := body), line]
    simp only [List.append_assoc, List.cons_append]
  rw [around]
  apply looksLike_of_word _ same
  · refine ⟨backquote, ?_, rfl⟩
    simp [ticks]
  · rw [unitBefore_append]
    exact isGap.unitBefore rfl

end OutputParser

end TitanRunner
