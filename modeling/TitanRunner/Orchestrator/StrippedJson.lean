import Mathlib.Data.List.Forall2
import TitanRunner.Lib.JsonReader
import TitanRunner.Orchestrator.TrailingCommas

/-!
# A JSON text without its trailing commas

In a text that is JSON as it stands a comma before a closing bracket stands within a string.
The reader of the text without these commas runs beside the reader of the text: the strings
that lost a comma differ, and hold a bracket.
-/

namespace TitanRunner

namespace OutputParser

open Utf16
open Json (Frame Expect Token Mode Reader)

/-! ## Values that differ in commas -/

/-- The text holds a closing bracket. -/
def HasBracket (text : Utf16) : Prop := ∃ unit ∈ text, isBracket unit = true

/-- One string, or two that both hold a bracket. -/
def Close (text text' : Utf16) : Prop := text = text' ∨ HasBracket text ∧ HasBracket text'

def isArray : Json → Bool
  | .array _ => true
  | .null | .bool _ | .number _ | .string _ | .object _ => false

/-- Members in the same order, with close keys, arrays at the same places. -/
def LikeMembers : List (Utf16 × Json) → List (Utf16 × Json) → Prop :=
  List.Forall₂ fun member member' => Close member.1 member'.1 ∧ isArray member.2 = isArray member'.2

/-- Two values with their arrays and the members of objects alike. -/
structure Alike (value value' : Json) : Prop where
  array : isArray value = isArray value'
  object : ∀ members, value = .object members →
    ∃ members', value' = .object members' ∧ LikeMembers members members'

inductive LikeFrame : Frame → Frame → Prop
  | array (items items' : List Json) : LikeFrame (.array items) (.array items')
  | object {members members' : List (Utf16 × Json)} {key key' : Utf16} :
      LikeMembers members members' → Close key key' →
      LikeFrame (.object members key) (.object members' key')

def LikeStack : List Frame → List Frame → Prop := List.Forall₂ LikeFrame

inductive LikeExpect : Expect → Expect → Prop
  | valueNext {stack stack' : List Frame} :
      LikeStack stack stack' → LikeExpect (.valueNext stack) (.valueNext stack')
  | firstItem {stack stack' : List Frame} :
      LikeStack stack stack' → LikeExpect (.firstItem stack) (.firstItem stack')
  | afterItem {items items' : List Json} {stack stack' : List Frame} :
      LikeStack stack stack' → LikeExpect (.afterItem items stack) (.afterItem items' stack')
  | firstMember {stack stack' : List Frame} :
      LikeStack stack stack' → LikeExpect (.firstMember stack) (.firstMember stack')
  | keyNext {members members' : List (Utf16 × Json)} {stack stack' : List Frame} :
      LikeMembers members members' → LikeStack stack stack' →
      LikeExpect (.keyNext members stack) (.keyNext members' stack')
  | colonNext {members members' : List (Utf16 × Json)} {key key' : Utf16}
      {stack stack' : List Frame} :
      LikeMembers members members' → Close key key' → LikeStack stack stack' →
      LikeExpect (.colonNext members key stack) (.colonNext members' key' stack')
  | afterMember {members members' : List (Utf16 × Json)} {stack stack' : List Frame} :
      LikeMembers members members' → LikeStack stack stack' →
      LikeExpect (.afterMember members stack) (.afterMember members' stack')
  | done {value value' : Json} : Alike value value' → LikeExpect (.done value) (.done value')

inductive LikeToken : Token → Token → Prop
  | same (token : Token) : LikeToken token token
  | string {text text' : Utf16} : Close text text' → LikeToken (.string text) (.string text')

section Take

variable {stack stack' : List Frame} {value value' : Json} {token token' : Token}
  {expect expect' after : Expect} {text text' : Utf16}

theorem Close.append (close : Close text text') (more : Utf16) :
    Close (text ++ more) (text' ++ more) := by
  cases close with
  | inl same => exact .inl (same ▸ rfl)
  | inr brackets =>
      have ⟨⟨unit, inside, closing⟩, unit', inside', closing'⟩ := brackets
      exact .inr ⟨⟨unit, List.mem_append_left _ inside, closing⟩,
        unit', List.mem_append_left _ inside', closing'⟩

theorem Alike.refl (value : Json) : Alike value value where
  array := rfl
  object members same := by
    refine ⟨members, same, List.forall₂_same.2 fun member _ => ⟨.inl rfl, rfl⟩⟩

theorem Alike.of_array (items items' : List Json) : Alike (.array items) (.array items') where
  array := rfl
  object _ same := by contradiction

theorem Alike.of_string (text text' : Utf16) : Alike (.string text) (.string text') where
  array := rfl
  object _ same := by contradiction

theorem Alike.of_object {members members' : List (Utf16 × Json)}
    (like : LikeMembers members members') : Alike (.object members) (.object members') where
  array := rfl
  object := by
    intro other same
    cases same
    exact ⟨members', rfl, like⟩

theorem LikeExpect.deliver (like : LikeStack stack stack') (alike : Alike value value') :
    LikeExpect (Json.deliver value stack) (Json.deliver value' stack') := by
  cases like with
  | nil => exact .done alike
  | cons first others =>
      cases first with
      | array items items' => exact .afterItem others
      | object members close =>
          exact .afterMember (List.rel_append members (.cons ⟨close, alike.array⟩ .nil)) others

theorem LikeExpect.startValue (like : LikeStack stack stack') (tokens : LikeToken token token')
    (taken : Json.startValue stack token = some after) :
    ∃ after', Json.startValue stack' token' = some after' ∧ LikeExpect after after' := by
  cases tokens with
  | string close =>
      cases taken
      exact ⟨_, rfl, .deliver like (.of_string _ _)⟩
  | same =>
      cases token with
      | string text =>
          cases taken
          exact ⟨_, rfl, .deliver like (.refl _)⟩
      | atom value =>
          cases taken
          exact ⟨_, rfl, .deliver like (.refl _)⟩
      | openBracket =>
          cases taken
          exact ⟨_, rfl, .firstItem like⟩
      | openBrace =>
          cases taken
          exact ⟨_, rfl, .firstMember like⟩
      | closeBracket | closeBrace | comma | colon => contradiction

theorem LikeExpect.take (like : LikeExpect expect expect') (tokens : LikeToken token token')
    (taken : expect.take token = some after) :
    ∃ after', expect'.take token' = some after' ∧ LikeExpect after after' := by
  cases like with
  | valueNext around => exact LikeExpect.startValue around tokens taken
  | @firstItem stack stack' around =>
      have around' : LikeStack (.array [] :: stack) (.array [] :: stack') :=
        .cons (.array [] []) around
      cases tokens with
      | string close =>
          rw [Json.takes_firstItem stack _ (by simp)] at taken
          rw [Json.takes_firstItem stack' _ (by simp)]
          exact LikeExpect.startValue around' (.string close) taken
      | same =>
          by_cases closed : token = .closeBracket
          · rw [closed] at taken ⊢
            cases taken
            exact ⟨_, rfl, .deliver around (.refl _)⟩
          · rw [Json.takes_firstItem stack _ closed] at taken
            rw [Json.takes_firstItem stack' _ closed]
            exact LikeExpect.startValue around' (.same token) taken
  | afterItem around =>
      cases tokens with
      | string close => contradiction
      | same =>
          cases token with
          | comma =>
              cases taken
              exact ⟨_, rfl, .valueNext (.cons (.array _ _) around)⟩
          | closeBracket =>
              cases taken
              exact ⟨_, rfl, .deliver around (.of_array _ _)⟩
          | openBracket | openBrace | closeBrace | colon | string | atom => contradiction
  | firstMember around =>
      cases tokens with
      | string close =>
          cases taken
          exact ⟨_, rfl, .colonNext .nil close around⟩
      | same =>
          cases token with
          | closeBrace =>
              cases taken
              exact ⟨_, rfl, .deliver around (.refl _)⟩
          | string text =>
              cases taken
              exact ⟨_, rfl, .colonNext .nil (.inl rfl) around⟩
          | openBracket | closeBracket | openBrace | comma | colon | atom => contradiction
  | keyNext members around =>
      cases tokens with
      | string close =>
          cases taken
          exact ⟨_, rfl, .colonNext members close around⟩
      | same =>
          cases token with
          | string text =>
              cases taken
              exact ⟨_, rfl, .colonNext members (.inl rfl) around⟩
          | openBracket | closeBracket | openBrace | closeBrace | comma | colon | atom =>
              contradiction
  | colonNext members close around =>
      cases tokens with
      | string => contradiction
      | same =>
          cases token with
          | colon =>
              cases taken
              exact ⟨_, rfl, .valueNext (.cons (.object members close) around)⟩
          | openBracket | closeBracket | openBrace | closeBrace | comma | string | atom =>
              contradiction
  | afterMember members around =>
      cases tokens with
      | string => contradiction
      | same =>
          cases token with
          | comma =>
              cases taken
              exact ⟨_, rfl, .keyNext members around⟩
          | closeBrace =>
              cases taken
              exact ⟨_, rfl, .deliver around (.of_object members)⟩
          | openBracket | closeBracket | openBrace | colon | string | atom => contradiction
  | done alike =>
      rw [Json.take_done] at taken
      contradiction

end Take

/-! ## Readers beside each other -/

inductive LikeMode : Mode → Mode → Prop
  | between : LikeMode .between .between
  | string {read read' : Utf16} : Close read read' → LikeMode (.string read) (.string read')
  | escape {read read' : Utf16} : Close read read' → LikeMode (.escape read) (.escape read')
  | hex {read read' : Utf16} (digits : Nat) (value : UInt16) : Close read read' →
      LikeMode (.hex read digits value) (.hex read' digits value)
  | number (read : Utf16) (phase : Json.Phase) :
      LikeMode (.number read phase) (.number read phase)
  | word (rest : Utf16) (value : Json) : LikeMode (.word rest value) (.word rest value)

/-- Two readers that take the same units. -/
structure LikeReader (reader reader' : Reader) : Prop where
  mode : LikeMode reader.mode reader'.mode
  expect : LikeExpect reader.expect reader'.expect

/-- Two readers within a string of which one has lost a comma, before the bracket that makes the
strings alike. -/
structure Pending (reader reader' : Reader) (text : Utf16) : Prop where
  string : ∃ read, reader.mode = .string read
  string' : ∃ read, reader'.mode = .string read
  expect : LikeExpect reader.expect reader'.expect
  closing : closes isSpaceUnit text = true

section Readers

variable {reader reader' after : Reader} {expect expect' : Expect} {unit : UInt16} {rest text : Utf16}
  {value : Json}

theorem LikeReader.take {token token' : Token} (like : LikeExpect expect expect')
    (tokens : LikeToken token token') (taken : Reader.take expect token = some after) :
    ∃ after', Reader.take expect' token' = some after' ∧ LikeReader after after' := by
  have ⟨next, took, same⟩ := Option.map_eq_some_iff.1 taken
  have ⟨next', took', like'⟩ := like.take tokens took
  cases same
  refine ⟨{ mode := .between, expect := next' }, ?_, .between, like'⟩
  rw [Reader.take, took']
  rfl

theorem LikeReader.begin (like : LikeExpect expect expect')
    (went : Reader.begin' expect unit = some after) :
    ∃ after', Reader.begin' expect' unit = some after' ∧ LikeReader after after' := by
  rw [Reader.begin'] at went ⊢
  split at went
  next space =>
    cases went
    rw [if_pos space]
    exact ⟨_, rfl, .between, like⟩
  next space =>
    rw [if_neg space]
    split at went
    next quote =>
      cases went
      rw [if_pos quote]
      exact ⟨_, rfl, .string (.inl rfl), like⟩
    next quote =>
      rw [if_neg quote]
      split at went
      next =>
        cases went
        exact ⟨_, rfl, .number _ _, like⟩
      next =>
        cases went
        exact ⟨_, rfl, .word _ _, like⟩
      next =>
        obtain ⟨token, punctuated, taken⟩ := Option.bind_eq_some_iff.1 went
        rw [punctuated]
        exact LikeReader.take like (.same token) taken

theorem LikeReader.next (like : LikeReader reader reader') (went : reader.next unit = some after) :
    ∃ after', reader'.next unit = some after' ∧ LikeReader after after' := by
  obtain ⟨modes, expects⟩ := like
  cases reader with
  | mk mode expect =>
      cases reader' with
      | mk mode' expect' =>
          simp only at modes expects
          rw [Reader.next] at went ⊢
          cases modes with
          | between => exact LikeReader.begin expects went
          | string close =>
              simp only at went ⊢
              split at went
              next quote =>
                rw [if_pos quote]
                exact LikeReader.take expects (.string close) went
              next quote =>
                rw [if_neg quote]
                split at went
                next escape =>
                  cases went
                  rw [if_pos escape]
                  exact ⟨_, rfl, .escape close, expects⟩
                next escape =>
                  rw [if_neg escape]
                  split at went
                  next => contradiction
                  next plain =>
                    cases went
                    rw [if_neg plain]
                    exact ⟨_, rfl, .string (close.append _), expects⟩
          | escape close =>
              simp only at went ⊢
              split at went
              next digits =>
                cases went
                rw [if_pos digits]
                exact ⟨_, rfl, .hex 0 0 close, expects⟩
              next digits =>
                obtain ⟨meant, found, same⟩ := Option.map_eq_some_iff.1 went
                cases same
                rw [if_neg digits, found]
                exact ⟨_, rfl, .string (close.append _), expects⟩
          | hex digits value close =>
              simp only at went ⊢
              obtain ⟨digit, found, same⟩ := Option.map_eq_some_iff.1 went
              rw [found, Option.map_some]
              split at same
              next last =>
                cases same
                rw [if_pos last]
                exact ⟨_, rfl, .string (close.append _), expects⟩
              next last =>
                cases same
                rw [if_neg last]
                exact ⟨_, rfl, .hex _ _ close, expects⟩
          | number read phase =>
              simp only at went ⊢
              split at went
              next =>
                cases went
                exact ⟨_, rfl, .number _ _, expects⟩
              next =>
                split at went
                next accepted =>
                  obtain ⟨next, took, begun⟩ := Option.bind_eq_some_iff.1 went
                  obtain ⟨next', took', like'⟩ := expects.take (.same _) took
                  rw [if_pos accepted, took']
                  exact LikeReader.begin like' begun
                next => contradiction
          | word rest value =>
              simp only at went ⊢
              split at went
              next => contradiction
              next =>
                split at went
                next wanted =>
                  rw [if_pos wanted]
                  split at went
                  next last =>
                    rw [if_pos last]
                    exact LikeReader.take expects (.same _) went
                  next last =>
                    cases went
                    rw [if_neg last]
                    exact ⟨_, rfl, .word _ _, expects⟩
                next => contradiction

theorem LikeReader.finish (like : LikeReader reader reader') (finished : reader.finish = some value) :
    ∃ value', reader'.finish = some value' ∧ Alike value value' := by
  obtain ⟨modes, expects⟩ := like
  cases reader with
  | mk mode expect =>
      cases reader' with
      | mk mode' expect' =>
          simp only at modes expects
          rw [Reader.finish] at finished ⊢
          cases modes with
          | between =>
              cases expects with
              | done alike =>
                  cases finished
                  exact ⟨_, rfl, alike⟩
              | valueNext | firstItem | afterItem | firstMember | keyNext | colonNext |
                afterMember => contradiction
          | number read phase =>
              simp only at finished ⊢
              split at finished
              next accepted =>
                split at finished
                next took =>
                  cases finished
                  obtain ⟨next', took', like'⟩ := expects.take (.same _) took
                  rw [if_pos accepted, took']
                  cases like' with
                  | done alike => exact ⟨_, rfl, alike⟩
                next => contradiction
              next => contradiction
          | string | escape | hex | word => contradiction

/-! ## A dropped comma -/

/-- What a comma between tokens leads to. -/
def Listing : Expect → Prop
  | .valueNext _ | .keyNext _ _ => True
  | .firstItem _ | .afterItem _ _ | .firstMember _ | .colonNext _ _ _ | .afterMember _ _
  | .done _ => False

theorem listing_of_take (taken : expect.take .comma = some expect') : Listing expect' := by
  cases expect with
  | afterItem | afterMember =>
      cases taken
      trivial
  | valueNext | firstItem | firstMember | keyNext | colonNext | done => contradiction

theorem read_cons_of_next (went : reader.next unit = some after) :
    reader.read (unit :: rest) = after.read rest := by
  rw [Reader.read, Reader.run, went, Option.bind_some]
  rfl

theorem read_cons_of_stuck (stuck : reader.next unit = none) : reader.read (unit :: rest) = none := by
  rw [Reader.read, Reader.run, stuck]
  rfl

/-- A unit that is white space to the repair and not to JSON begins no token. -/
theorem begin_of_isSpaceUnit (space : isSpaceUnit unit = true) (other : Json.isSpace unit = false) :
    Reader.begin' expect unit = none := by
  have other' : ∀ visible, isSpaceUnit visible = false → (unit == visible) = false := by
    intro visible shown
    apply beq_false_of_ne
    intro same
    rw [same, shown] at space
    contradiction
  have digit : isDigit unit = false := by
    apply Bool.eq_false_iff.2
    intro digit
    simp only [isDigit, isSpaceUnit, Bool.or_eq_true, Bool.and_eq_true, decide_eq_true_eq,
      beq_iff_eq, UInt16.le_iff_toNat_le, ← UInt16.toNat_inj, UInt16.toNat_ofNat, Nat.reducePow,
      Nat.reduceMod] at digit space
    omega
  have number : Json.Phase.start unit = none := by
    rw [Json.Phase.start, other' 0x2D rfl, other' 0x30 rfl, digit]
    rfl
  have word : Json.startWord unit = none := by
    rw [Json.startWord, other' 0x6E rfl, other' 0x74 rfl, other' 0x66 rfl]
    rfl
  have token : Json.punctuation unit = none := by
    rw [Json.punctuation, other' 0x5B rfl, other' 0x5D rfl, other' 0x7B rfl, other' 0x7D rfl,
      other' 0x2C rfl, other' 0x3A rfl]
    rfl
  rw [Reader.begin', other, other' Json.quotationMark rfl, number, word, token]
  rfl

/-- Outside of strings a comma before a bracket is no JSON. -/
theorem read_closes (listing : Listing expect) (closing : closes isSpaceUnit text = true) :
    Reader.read { mode := .between, expect } text = none := by
  induction text with
  | nil => contradiction
  | cons unit rest ih =>
      by_cases space : isSpaceUnit unit = true
      · have closing' : closes isSpaceUnit rest = true := by
          rw [closes, List.dropWhile_cons_of_pos space] at closing
          exact closing
        cases blank : Json.isSpace unit with
        | true =>
            have went : Reader.next { mode := .between, expect } unit =
                some { mode := .between, expect } := by
              change Reader.begin' expect unit = _
              rw [Reader.begin', blank, if_pos rfl]
            rw [read_cons_of_next went]
            exact ih closing'
        | false => exact read_cons_of_stuck (begin_of_isSpaceUnit space blank)
      · rw [closes, List.dropWhile_cons_of_neg space, List.head?_cons, Option.any_some] at closing
        apply read_cons_of_stuck
        change Reader.begin' expect unit = none
        rw [isBracket, Bool.or_eq_true, beq_iff_eq, beq_iff_eq] at closing
        cases closing with
        | inl brace =>
            rw [brace]
            cases expect with
            | valueNext | keyNext => rfl
            | firstItem | afterItem | firstMember | colonNext | afterMember | done => contradiction
        | inr bracket =>
            rw [bracket]
            cases expect with
            | valueNext | keyNext => rfl
            | firstItem | afterItem | firstMember | colonNext | afterMember | done => contradiction

/-- A reader that gets over a dropped comma is within a string. -/
theorem string_of_dropped (spells : Json.Spells reader) (closing : closes isSpaceUnit rest = true)
    (read : reader.read (comma :: rest) = some value) :
    ∃ before, reader.mode = .string before ∧
      reader.next comma = some { reader with mode := .string (before ++ [comma]) } := by
  obtain ⟨last, ran, finished⟩ := Option.bind_eq_some_iff.1 read
  obtain ⟨after, went, ran'⟩ := Option.bind_eq_some_iff.1 ran
  have read' : after.read rest = some value := Option.bind_eq_some_iff.2 ⟨last, ran', finished⟩
  have outside : ∀ {expect : Expect}, Reader.begin' expect comma ≠ some after := by
    intro expect begun
    obtain ⟨next, took, same⟩ := Option.map_eq_some_iff.1
      (show (expect.take .comma).map _ = some after from begun)
    rw [← same, read_closes (listing_of_take took) closing] at read'
    contradiction
  cases mode : reader.mode with
  | string before =>
      refine ⟨before, rfl, ?_⟩
      rw [Reader.next, mode]
      rfl
  | between =>
      rw [Reader.next, mode] at went
      exact absurd went outside
  | escape before =>
      rw [Reader.next, mode] at went
      contradiction
  | hex before digits value =>
      rw [Reader.next, mode] at went
      contradiction
  | number before phase =>
      rw [Reader.next, mode] at went
      have ends : phase.next comma = none := by cases phase <;> rfl
      simp only [ends] at went
      split at went
      next =>
        obtain ⟨next, took, begun⟩ := Option.bind_eq_some_iff.1 went
        exact absurd begun outside
      next => contradiction
  | word wanted value =>
      rw [Reader.next, mode] at went
      cases wanted with
      | nil => contradiction
      | cons first others =>
          simp only at went
          split at went
          next same =>
            have small := spells _ _ mode first List.mem_cons_self
            rw [← beq_iff_eq.1 same] at small
            contradiction
          next => contradiction

/-- A unit before the bracket. -/
theorem Pending.next (pending : Pending reader reader' (unit :: rest))
    (went : reader.next unit = some after) :
    dropCommas isSpaceUnit (unit :: rest) = unit :: dropCommas isSpaceUnit rest ∧
      ∃ after', reader'.next unit = some after' ∧
        (LikeReader after after' ∨ Pending after after' rest) := by
  have ⟨⟨read, mode⟩, ⟨read', mode'⟩, expects, closing⟩ := pending
  have different : ∀ marked, isSpaceUnit marked = false → isBracket marked = false →
      unit ≠ marked := by
    intro marked visible plain same
    rw [same, closes, List.dropWhile_cons_of_neg (Bool.eq_false_iff.1 visible), List.head?_cons,
      Option.any_some, plain] at closing
    contradiction
  have quote := different Json.quotationMark rfl rfl
  have escape := different Json.backslash rfl rfl
  refine ⟨dropCommas_cons_of_ne (different comma rfl rfl), ?_⟩
  rw [Reader.next, mode] at went
  simp only [beq_false_of_ne quote, beq_false_of_ne escape, Bool.false_eq_true, if_false] at went
  split at went
  next => contradiction
  next plain =>
    cases went
    refine ⟨{ reader' with mode := .string (read' ++ [unit]) }, ?_, ?_⟩
    · rw [Reader.next, mode']
      simp only [beq_false_of_ne quote, beq_false_of_ne escape, Bool.false_eq_true, if_false,
        if_neg plain]
    · by_cases space : isSpaceUnit unit = true
      · right
        refine ⟨⟨_, rfl⟩, ⟨_, rfl⟩, expects, ?_⟩
        rw [closes, List.dropWhile_cons_of_pos space] at closing
        exact closing
      · left
        rw [closes, List.dropWhile_cons_of_neg space, List.head?_cons, Option.any_some] at closing
        have brackets : ∀ read : Utf16, HasBracket (read ++ [unit]) :=
          fun read => ⟨unit, List.mem_append_right _ List.mem_cons_self, closing⟩
        exact ⟨.string (.inr ⟨brackets read, brackets read'⟩), expects⟩

/-- The text without the commas that the repair drops is read to the end where the text is. -/
theorem read_dropCommas (spells : Json.Spells reader)
    (beside : LikeReader reader reader' ∨ Pending reader reader' text)
    (read : reader.read text = some value) :
    ∃ value', reader'.read (dropCommas isSpaceUnit text) = some value' ∧ Alike value value' := by
  induction text generalizing reader reader' with
  | nil =>
      cases beside with
      | inl like => exact like.finish read
      | inr pending => exact absurd pending.closing Bool.false_ne_true
  | cons unit rest ih =>
      obtain ⟨last, ran, finished⟩ := Option.bind_eq_some_iff.1 read
      obtain ⟨after, went, ran'⟩ := Option.bind_eq_some_iff.1 ran
      have read' : after.read rest = some value :=
        Option.bind_eq_some_iff.2 ⟨last, ran', finished⟩
      have spells' := (Json.next_cases spells went).1
      cases beside with
      | inl like =>
          cases drops : unit == comma && closes isSpaceUnit rest with
          | false =>
              obtain ⟨after', went', like'⟩ := like.next went
              rw [dropCommas_cons drops, read_cons_of_next went']
              exact ih spells' (.inl like') read'
          | true =>
              rw [Bool.and_eq_true, beq_iff_eq] at drops
              obtain ⟨same, closing⟩ := drops
              rw [same] at read went
              obtain ⟨before, mode, went'⟩ := string_of_dropped spells closing read
              rw [went'] at went
              cases went
              rw [dropCommas, same, beq_self_eq_true, closing, Bool.and_self, if_pos rfl]
              have mode' : ∃ before', reader'.mode = .string before' := by
                have modes := like.mode
                rw [mode] at modes
                cases modes' : reader'.mode with
                | string before' => exact ⟨before', rfl⟩
                | between | escape | hex | number | word =>
                    rw [modes'] at modes
                    contradiction
              exact ih spells' (.inr ⟨⟨_, rfl⟩, mode', like.expect, closing⟩) read'
      | inr pending =>
          obtain ⟨kept, after', went', beside'⟩ := pending.next went
          rw [kept, read_cons_of_next went']
          exact ih spells' beside' read'

/-- A JSON text stays one without the commas that the repair drops. -/
theorem parse_dropCommas (parsed : Json.parse text = some value) :
    ∃ value', Json.parse (dropCommas isSpaceUnit text) = some value' ∧ Alike value value' := by
  have spells : Json.Spells Reader.start := by
    intro _ _ same
    contradiction
  exact read_dropCommas spells (.inl ⟨.between, .valueNext .nil⟩) parsed

/-! ## Envelopes -/

theorem Close.beq {key key' name : Utf16} (close : Close key key')
    (plain : ∀ unit ∈ name, isBracket unit = false) : (key == name) = (key' == name) := by
  cases close with
  | inl same => rw [same]
  | inr brackets =>
      have apart : ∀ {key : Utf16}, HasBracket key → (key == name) = false := by
        intro key bracket
        have ⟨unit, inside, closing⟩ := bracket
        apply beq_false_of_ne
        intro same
        rw [same] at inside
        rw [plain unit inside] at closing
        contradiction
      rw [apart brackets.1, apart brackets.2]

theorem LikeMembers.find {members members' : List (Utf16 × Json)} {name : Utf16}
    (like : LikeMembers members members') (plain : ∀ unit ∈ name, isBracket unit = false) :
    ((members.find? fun entry => entry.1 == name).map fun entry => isArray entry.2) =
      (members'.find? fun entry => entry.1 == name).map fun entry => isArray entry.2 := by
  induction like with
  | nil => rfl
  | @cons first first' others others' alike _ ih =>
      have ⟨close, arrays⟩ := alike
      rw [List.find?_cons, List.find?_cons, close.beq plain]
      split
      next => rw [Option.map_some, Option.map_some, arrays]
      next => exact ih

theorem isSome_coerceEnvelope (members : List (Utf16 × Json)) :
    (coerceEnvelope (.object members)).isSome =
      ((members.reverse.find? fun entry => entry.1 == ofString "files").map fun entry =>
        isArray entry.2).getD false := by
  have array : ∀ value : Json, value.array?.isSome = isArray value := by
    intro value
    cases value <;> rfl
  rw [coerceEnvelope, Option.isSome_map, Json.member]
  cases members.reverse.find? fun entry => entry.1 == ofString "files" with
  | none => rfl
  | some entry => exact array entry.2

theorem Alike.isSome_coerceEnvelope {value value' : Json} (alike : Alike value value')
    (envelope : (coerceEnvelope value).isSome = true) :
    (coerceEnvelope value').isSome = true := by
  cases value with
  | object members =>
      have ⟨members', same, like⟩ := alike.object members rfl
      have reversed : LikeMembers members.reverse members'.reverse := List.rel_reverse like
      rw [OutputParser.isSome_coerceEnvelope] at envelope
      have plain : ∀ unit ∈ ofString "files", isBracket unit = false :=
        fun unit inside => Bool.eq_false_iff.2 (List.any_eq_false.1 rfl unit inside)
      rw [same, OutputParser.isSome_coerceEnvelope, ← reversed.find plain]
      exact envelope
  | null | bool | number | string | array => contradiction

/-- The repair keeps an envelope that needs none. -/
theorem envelope_dropCommas (envelope : ((Json.parse text).bind coerceEnvelope).isSome = true) :
    ((Json.parse (dropCommas isSpaceUnit text)).bind coerceEnvelope).isSome = true := by
  have ⟨files, found⟩ := Option.isSome_iff_exists.1 envelope
  have ⟨value, parsed, coerced⟩ := Option.bind_eq_some_iff.1 found
  have ⟨value', parsed', alike⟩ := parse_dropCommas parsed
  rw [parsed', Option.bind_some]
  exact alike.isSome_coerceEnvelope (Option.isSome_of_eq_some coerced)

end Readers

end OutputParser

end TitanRunner
