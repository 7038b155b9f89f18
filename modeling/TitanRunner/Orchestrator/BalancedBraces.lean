import TitanRunner.Lib.JsonReader
import TitanRunner.Orchestrator.OutputParser

/-!
# Balanced braces in JSON texts

The scan of braces of `lib/jsonRepair.js` runs beside the JSON reader: of a text that is an
object it finds the end.
-/

namespace TitanRunner

namespace OutputParser

open Utf16

open Json (Frame Expect Token Mode Reader Phase)

def isObjectFrame : Frame → Bool
  | .object _ _ => true
  | .array _ => false

/-- How many objects are open. -/
def openObjects : Expect → Nat
  | .valueNext stack | .firstItem stack | .afterItem _ stack => stack.countP isObjectFrame
  | .firstMember stack | .keyNext _ stack | .colonNext _ _ stack | .afterMember _ stack =>
      stack.countP isObjectFrame + 1
  | .done _ => 0

/-- An object is open around everything else. -/
def InObject (stack : List Frame) : Prop := stack.getLast?.any isObjectFrame = true

/-- The whole text is that of an object, and its end is not read yet. -/
def Rooted : Expect → Prop
  | .valueNext stack | .firstItem stack | .afterItem _ stack => InObject stack
  | .firstMember stack | .keyNext _ stack | .colonNext _ _ stack | .afterMember _ stack =>
      stack = [] ∨ InObject stack
  | .done _ => False

theorem InObject.cons {stack : List Frame} (inside : InObject stack) (frame : Frame) :
    InObject (frame :: stack) := by
  cases stack with
  | nil => contradiction
  | cons other stack =>
      rw [InObject, List.getLast?_cons_cons]
      exact inside

theorem InObject.of_array {items : List Json} {stack : List Frame}
    (inside : InObject (.array items :: stack)) : InObject stack := by
  cases stack with
  | nil => contradiction
  | cons other stack =>
      rw [InObject, List.getLast?_cons_cons] at inside
      exact inside

theorem inObject_of_object {stack : List Frame} (around : stack = [] ∨ InObject stack)
    (members : List (Utf16 × Json)) (key : Utf16) : InObject (.object members key :: stack) := by
  cases around with
  | inl bottom =>
      rw [bottom]
      rfl
  | inr inside => exact inside.cons _

theorem of_inObject_object {members : List (Utf16 × Json)} {key : Utf16} {stack : List Frame}
    (inside : InObject (.object members key :: stack)) : stack = [] ∨ InObject stack := by
  cases stack with
  | nil => exact .inl rfl
  | cons other stack =>
      rw [InObject, List.getLast?_cons_cons] at inside
      exact .inr inside

theorem rooted_deliver {stack : List Frame} (inside : InObject stack) (value : Json) :
    Rooted (Json.deliver value stack) ∧
      openObjects (Json.deliver value stack) = stack.countP isObjectFrame := by
  cases stack with
  | nil => contradiction
  | cons frame stack =>
      cases frame with
      | array items => exact ⟨inside.of_array, (List.countP_cons_of_neg Bool.false_ne_true).symm⟩
      | object members key =>
          exact ⟨of_inObject_object inside, (List.countP_cons_of_pos rfl).symm⟩

/-- What a token does to the number of open objects. -/
def Token.shift : Token → Nat → Nat
  | .openBrace, depth => depth + 1
  | .closeBrace, depth => depth - 1
  | _, depth => depth

theorem rooted_startValue {stack : List Frame} {after : Expect} {token : Token}
    (inside : InObject stack) (taken : Json.startValue stack token = some after) :
    Rooted after ∧ openObjects after = Token.shift token (stack.countP isObjectFrame) := by
  cases token with
  | string text =>
      cases taken
      exact rooted_deliver inside _
  | atom value =>
      cases taken
      exact rooted_deliver inside _
  | openBracket =>
      cases taken
      exact ⟨inside, rfl⟩
  | openBrace =>
      cases taken
      exact ⟨.inr inside, rfl⟩
  | closeBracket => contradiction
  | closeBrace => contradiction
  | comma => contradiction
  | colon => contradiction

/-- The end of an object. -/
theorem rooted_close {stack : List Frame} (around : stack = [] ∨ InObject stack) (value : Json) :
    Rooted (Json.deliver value stack) ∧ openObjects (Json.deliver value stack) =
        Token.shift .closeBrace (stack.countP isObjectFrame + 1) ∨
      stack.countP isObjectFrame + 1 = 1 ∧ ∃ whole, Json.deliver value stack = .done whole := by
  cases around with
  | inl bottom =>
      right
      rw [bottom]
      exact ⟨rfl, value, rfl⟩
  | inr inside => exact .inl (rooted_deliver inside value)

/-- A token goes on inside the object, or it is the brace that closes it. -/
theorem rooted_take {expect after : Expect} {token : Token} (rooted : Rooted expect)
    (taken : expect.take token = some after) :
    Rooted after ∧ openObjects after = Token.shift token (openObjects expect) ∨
      token = .closeBrace ∧ openObjects expect = 1 ∧ ∃ value, after = .done value := by
  cases expect with
  | valueNext stack => exact .inl (rooted_startValue rooted taken)
  | firstItem stack =>
      have counted : (Frame.array [] :: stack).countP isObjectFrame =
          stack.countP isObjectFrame := List.countP_cons_of_neg Bool.false_ne_true
      left
      cases token with
      | closeBracket =>
          cases taken
          exact rooted_deliver rooted _
      | openBracket | closeBrace | openBrace | comma | colon | string text | atom value =>
          rw [Json.takes_firstItem stack _ (by simp)] at taken
          have started := rooted_startValue (rooted.cons (.array [])) taken
          rw [counted] at started
          exact started
  | afterItem items stack =>
      left
      cases token with
      | comma =>
          cases taken
          exact ⟨rooted.cons _, List.countP_cons_of_neg Bool.false_ne_true⟩
      | closeBracket =>
          cases taken
          exact rooted_deliver rooted _
      | openBracket | closeBrace | openBrace | colon | string text | atom value => contradiction
  | firstMember stack =>
      cases token with
      | closeBrace =>
          cases taken
          cases rooted_close rooted (.object []) with
          | inl more => exact .inl more
          | inr last => exact .inr ⟨rfl, last⟩
      | string text =>
          cases taken
          exact .inl ⟨rooted, rfl⟩
      | openBracket | closeBracket | openBrace | comma | colon | atom value => contradiction
  | keyNext members stack =>
      left
      cases token with
      | string text =>
          cases taken
          exact ⟨rooted, rfl⟩
      | openBracket | closeBracket | openBrace | closeBrace | comma | colon | atom value =>
          contradiction
  | colonNext members key stack =>
      left
      cases token with
      | colon =>
          cases taken
          exact ⟨inObject_of_object rooted members key, List.countP_cons_of_pos rfl⟩
      | openBracket | closeBracket | openBrace | closeBrace | comma | string text | atom value =>
          contradiction
  | afterMember members stack =>
      cases token with
      | comma =>
          cases taken
          exact .inl ⟨rooted, rfl⟩
      | closeBrace =>
          cases taken
          cases rooted_close rooted (.object members) with
          | inl more => exact .inl more
          | inr last => exact .inr ⟨rfl, last⟩
      | openBracket | closeBracket | openBrace | colon | string text | atom value => contradiction
  | done value => contradiction

def inString : Mode → Bool
  | .string _ | .escape _ | .hex _ _ _ => true
  | .between | .number _ _ | .word _ _ => false

def isEscaping : Mode → Bool
  | .escape _ => true
  | .between | .number _ _ | .word _ _ | .string _ | .hex _ _ _ => false

/-- The scan of braces from where the reader stands. -/
def scan (reader : Reader) (text : Utf16) : Option Utf16 :=
  balancedFrom (openObjects reader.expect) (inString reader.mode) (isEscaping reader.mode) text

/-- The unit does not bear on braces, outside strings. -/
def isStill (unit : UInt16) : Bool := unit != 0x22 && unit != openBrace && unit != 0x7D

/-- The reader stands within the object that is the whole text. -/
structure Inside (reader : Reader) : Prop where
  rooted : Rooted reader.expect
  word : ∀ rest value, reader.mode = .word rest value → ∀ unit ∈ rest, isStill unit = true

/-- A unit is read: scan and reader both go on, or both come to the end of the object. -/
def Follows (reader : Reader) (unit : UInt16) (after : Reader) : Prop :=
  Inside after ∧ (∀ rest, scan reader (unit :: rest) = (scan after rest).map (unit :: ·)) ∨
    unit = 0x7D ∧ (∀ rest, scan reader (unit :: rest) = some [unit]) ∧
      ∃ value, after = { mode := .between, expect := .done value }

section Scan

variable {depth : Nat} {unit : UInt16} {expect : Expect} {reader after : Reader}

theorem balancedFrom_still (still : isStill unit = true) (rest : Utf16) :
    balancedFrom depth false false (unit :: rest) =
      (balancedFrom depth false false rest).map (unit :: ·) := by
  simp only [isStill, Bool.and_eq_true, bne_iff_ne, ne_eq] at still
  have ⟨⟨quote, open'⟩, close⟩ := still
  simp [balancedFrom, quote, open', close]

/-- Within a string only the quotation mark and the backslash count. -/
theorem balancedFrom_inString (rest : Utf16) : balancedFrom depth true false (unit :: rest) =
    (balancedFrom depth (unit != 0x22) (unit == 0x5C) rest).map (unit :: ·) := by
  by_cases escape : unit = 0x5C
  · subst escape
    rfl
  · by_cases quote : unit = 0x22
    · subst quote
      rfl
    · rw [bne_iff_ne.2 quote, beq_false_of_ne escape]
      simp [balancedFrom, escape, quote]

theorem still_or (unit : UInt16) :
    isStill unit = true ∨ unit = 0x22 ∨ unit = openBrace ∨ unit = 0x7D := by
  by_cases quote : unit = 0x22
  · exact .inr (.inl quote)
  · by_cases open' : unit = openBrace
    · exact .inr (.inr (.inl open'))
    · by_cases close : unit = 0x7D
      · exact .inr (.inr (.inr close))
      · left
        rw [isStill, bne_iff_ne.2 quote, bne_iff_ne.2 open', bne_iff_ne.2 close]
        rfl

/-- What no quotation mark and no brace does, only other units do. -/
theorem still_of (does : UInt16 → Bool) (quote : does 0x22 = false) (open' : does openBrace = false)
    (close : does 0x7D = false) (did : does unit = true) : isStill unit = true := by
  cases still_or unit with
  | inl still => exact still
  | inr marked =>
      exfalso
      rcases marked with same | same | same <;> rw [same] at did <;> simp_all

theorem still_of_start {phase : Phase} (started : Phase.start unit = some phase) :
    isStill unit = true :=
  still_of (fun unit => (Phase.start unit).isSome) rfl rfl rfl
    (Option.isSome_of_eq_some started)

theorem still_of_next {phase after : Phase} (went : phase.next unit = some after) :
    isStill unit = true := by
  apply still_of (fun unit => (phase.next unit).isSome) _ _ _
    (Option.isSome_of_eq_some went)
  all_goals cases phase <;> rfl

theorem still_of_isSpace (space : Json.isSpace unit = true) : isStill unit = true :=
  still_of Json.isSpace rfl rfl rfl space

theorem still_of_startWord {word : Utf16} {value : Json}
    (started : Json.startWord unit = some (word, value)) : isStill unit = true :=
  still_of (fun unit => (Json.startWord unit).isSome) rfl rfl rfl (Option.isSome_of_eq_some started)

theorem punctuation_cases {token : Token} (punctuated : Json.punctuation unit = some token) :
    unit = openBrace ∧ token = .openBrace ∨ unit = 0x7D ∧ token = .closeBrace ∨
      isStill unit = true ∧ ∀ depth, Token.shift token depth = depth := by
  cases still_or unit with
  | inl still =>
      right
      right
      refine ⟨still, ?_⟩
      unfold Json.punctuation at punctuated
      split at punctuated
      next => exact (Option.some.inj punctuated) ▸ fun _ => rfl
      next =>
        split at punctuated
        next => exact (Option.some.inj punctuated) ▸ fun _ => rfl
        next =>
          split at punctuated
          next brace =>
            rw [beq_iff_eq.1 brace] at still
            contradiction
          next =>
            split at punctuated
            next brace =>
              rw [beq_iff_eq.1 brace] at still
              contradiction
            next =>
              split at punctuated
              next => exact (Option.some.inj punctuated) ▸ fun _ => rfl
              next =>
                split at punctuated
                next => exact (Option.some.inj punctuated) ▸ fun _ => rfl
                next => contradiction
  | inr marked =>
      cases marked with
      | inl quote =>
          rw [quote] at punctuated
          contradiction
      | inr brace =>
          cases brace with
          | inl open' =>
              rw [open'] at punctuated
              exact .inl ⟨open', (Option.some.inj punctuated).symm⟩
          | inr close =>
              rw [close] at punctuated
              exact .inr (.inl ⟨close, (Option.some.inj punctuated).symm⟩)

theorem openObjects_pos (rooted : Rooted expect) : 0 < openObjects expect := by
  have counted : ∀ {stack : List Frame}, InObject stack → 0 < stack.countP isObjectFrame := by
    intro stack inside
    rw [InObject, Option.any_eq_true] at inside
    have ⟨frame, last, object⟩ := inside
    exact List.countP_pos_iff.2 ⟨frame, List.mem_of_getLast? last, object⟩
  cases expect with
  | valueNext stack => exact counted rooted
  | firstItem stack => exact counted rooted
  | afterItem items stack => exact counted rooted
  | firstMember stack => exact Nat.succ_pos _
  | keyNext members stack => exact Nat.succ_pos _
  | colonNext members key stack => exact Nat.succ_pos _
  | afterMember members stack => exact Nat.succ_pos _
  | done value => exact absurd rooted id

theorem inside_between (rooted : Rooted expect) : Inside { mode := .between, expect } where
  rooted := rooted
  word := nofun

theorem follows_punctuation {token : Token} {expect' : Expect} (rooted : Rooted expect)
    (punctuated : Json.punctuation unit = some token) (took : expect.take token = some expect') :
    Follows { mode := .between, expect } unit { mode := .between, expect := expect' } := by
  cases rooted_take rooted took with
  | inl goesOn =>
      have ⟨rooted', counted⟩ := goesOn
      left
      refine ⟨inside_between rooted', fun rest => ?_⟩
      rw [scan, scan, counted]
      rcases punctuation_cases punctuated with ⟨brace, same⟩ | ⟨brace, same⟩ | ⟨still, same⟩
      · rw [brace, same]
        rfl
      · have deep : openObjects expect ≠ 1 := by
          intro last
          have positive := openObjects_pos rooted'
          rw [counted, same, last] at positive
          contradiction
        rw [brace, same]
        exact if_neg deep
      · rw [same]
        exact balancedFrom_still still rest
  | inr ends =>
      have ⟨closing, last, value, done⟩ := ends
      right
      rw [done]
      have brace : unit = 0x7D := by
        rcases punctuation_cases punctuated with ⟨_, same⟩ | ⟨brace, _⟩ | ⟨_, same⟩
        · rw [same] at closing
          contradiction
        · exact brace
        · have lower := same 1
          rw [closing] at lower
          contradiction
      refine ⟨brace, fun rest => ?_, value, rfl⟩
      rw [brace]
      exact if_pos last

/-- A unit between tokens. -/
theorem follows_begin (rooted : Rooted expect) (went : Reader.begin' expect unit = some after) :
    Follows { mode := .between, expect } unit after := by
  rw [Reader.begin'] at went
  split at went
  next space =>
    cases went
    left
    exact ⟨inside_between rooted, fun rest => balancedFrom_still (still_of_isSpace space) rest⟩
  next =>
    split at went
    next quote =>
      cases went
      rw [beq_iff_eq] at quote
      left
      refine ⟨⟨rooted, (by intros; contradiction)⟩, fun rest => ?_⟩
      rw [quote]
      rfl
    next =>
      split at went
      next phase started =>
        cases went
        left
        exact ⟨⟨rooted, (by intros; contradiction)⟩,
          fun rest => balancedFrom_still (still_of_start started) rest⟩
      next word value started' started =>
        cases went
        left
        refine ⟨⟨rooted, ?_⟩, fun rest => balancedFrom_still (still_of_startWord started) rest⟩
        intro rest value' same
        cases same
        exact fun other among =>
          still_of isLower rfl rfl rfl (Json.isLower_of_startWord started other among)
      next =>
        obtain ⟨token, punctuated, taken⟩ := Option.bind_eq_some_iff.1 went
        obtain ⟨expect', took, same⟩ := Option.map_eq_some_iff.1 taken
        cases same
        exact follows_punctuation rooted punctuated took

/-- A unit that the reader takes within a string. -/
theorem follows_inString {mode' : Mode} (inside : inString reader.mode = true) (plain : isEscaping reader.mode = false)
    (quote : inString mode' = (unit != 0x22)) (escape : isEscaping mode' = (unit == 0x5C))
    {expect' : Expect} (rooted' : Rooted expect')
    (same : openObjects expect' = openObjects reader.expect)
    (word : ∀ rest value, mode' = .word rest value → ∀ unit ∈ rest, isStill unit = true) :
    Follows reader unit { mode := mode', expect := expect' } := by
  left
  refine ⟨⟨rooted', word⟩, fun rest => ?_⟩
  rw [scan, scan, inside, plain, quote, escape, same]
  exact balancedFrom_inString rest

theorem follows_next (inside : Inside reader) (went : reader.next unit = some after) :
    Follows reader unit after := by
  obtain ⟨rooted, still⟩ := inside
  rw [Reader.next] at went
  cases mode : reader.mode with
  | between =>
      rw [mode] at went
      have follows := follows_begin rooted went
      rw [← mode] at follows
      exact follows
  | string read =>
      rw [mode] at went
      simp only at went
      have stringed : inString reader.mode = true := by rw [mode]; rfl
      have plain : isEscaping reader.mode = false := by rw [mode]; rfl
      split at went
      next quote =>
        rw [beq_iff_eq] at quote
        obtain ⟨expect', took, same⟩ := Option.map_eq_some_iff.1 went
        cases same
        cases rooted_take rooted took with
        | inl goesOn =>
            exact follows_inString stringed plain (quote ▸ rfl) (quote ▸ rfl) goesOn.1 goesOn.2
              (by intros; contradiction)
        | inr ends => cases ends.1
      next notQuote =>
        rw [beq_iff_eq] at notQuote
        split at went
        next escape =>
          cases went
          rw [beq_iff_eq] at escape
          exact follows_inString stringed plain (escape ▸ rfl) (escape ▸ rfl) rooted rfl
            (by intros; contradiction)
        next notEscape =>
          split at went
          next => contradiction
          next =>
            cases went
            refine follows_inString stringed plain ?_ ?_ rooted rfl (by intros; contradiction)
            · exact (bne_iff_ne.2 notQuote).symm
            · exact (Bool.eq_false_iff.2 notEscape).symm
  | escape read =>
      rw [mode] at went
      simp only at went
      have scanned : ∀ rest, scan reader (unit :: rest) =
          (balancedFrom (openObjects reader.expect) true false rest).map (unit :: ·) := by
        intro rest
        rw [scan, mode]
        rfl
      left
      split at went
      next =>
        cases went
        exact ⟨⟨rooted, (by intros; contradiction)⟩, scanned⟩
      next =>
        obtain ⟨meant, _, same⟩ := Option.map_eq_some_iff.1 went
        cases same
        exact ⟨⟨rooted, (by intros; contradiction)⟩, scanned⟩
  | hex read digits value =>
      rw [mode] at went
      simp only at went
      have stringed : inString reader.mode = true := by rw [mode]; rfl
      have plain : isEscaping reader.mode = false := by rw [mode]; rfl
      obtain ⟨digit, valued, same⟩ := Option.map_eq_some_iff.1 went
      have notQuote : (unit != 0x22) = true := by
        rw [bne_iff_ne]
        intro quote
        rw [quote] at valued
        contradiction
      have notEscape : (unit == 0x5C) = false := by
        apply beq_false_of_ne
        intro escape
        rw [escape] at valued
        contradiction
      split at same
      next =>
        cases same
        refine follows_inString stringed plain ?_ ?_ rooted rfl (by intros; contradiction)
        · exact notQuote.symm
        · exact notEscape.symm
      next =>
        cases same
        refine follows_inString stringed plain ?_ ?_ rooted rfl (by intros; contradiction)
        · exact notQuote.symm
        · exact notEscape.symm
  | number read phase =>
      rw [mode] at went
      simp only at went
      split at went
      next phase' went' =>
        cases went
        left
        refine ⟨⟨rooted, (by intros; contradiction)⟩, fun rest => ?_⟩
        rw [scan, mode]
        exact balancedFrom_still (still_of_next went') rest
      next =>
        split at went
        next =>
          obtain ⟨expect', took, begun⟩ := Option.bind_eq_some_iff.1 went
          cases rooted_take rooted took with
          | inl goesOn =>
              obtain ⟨rooted', counted⟩ := goesOn
              have unmoved : ∀ rest, scan reader (unit :: rest) =
                  scan { mode := .between, expect := expect' } (unit :: rest) := by
                intro rest
                rw [scan, scan, mode, counted]
                rfl
              cases follows_begin rooted' begun with
              | inl more => exact .inl ⟨more.1, fun rest => (unmoved rest).trans (more.2 rest)⟩
              | inr last =>
                  obtain ⟨brace, scanned, ended⟩ := last
                  exact .inr ⟨brace, fun rest => (unmoved rest).trans (scanned rest), ended⟩
          | inr ends => cases ends.1
        next => contradiction
  | word rest value =>
      rw [mode] at went
      cases rest with
      | nil => contradiction
      | cons wanted others =>
          simp only at went
          split at went
          next same =>
            rw [beq_iff_eq] at same
            have here : isStill unit = true :=
              same ▸ still _ _ mode wanted List.mem_cons_self
            have scanned : ∀ rest, scan reader (unit :: rest) =
                (balancedFrom (openObjects reader.expect) false false rest).map (unit :: ·) := by
              intro rest
              rw [scan, mode]
              exact balancedFrom_still here rest
            split at went
            next =>
              obtain ⟨expect', took, same⟩ := Option.map_eq_some_iff.1 went
              cases same
              cases rooted_take rooted took with
              | inl goesOn =>
                  obtain ⟨rooted', counted⟩ := goesOn
                  left
                  refine ⟨inside_between rooted', fun rest => ?_⟩
                  rw [scanned rest, scan, counted]
                  rfl
              | inr ends => cases ends.1
            next =>
              cases went
              left
              refine ⟨⟨rooted, ?_⟩, scanned⟩
              intro rest value' same'
              cases same'
              exact fun other among => still _ _ mode other (.tail wanted among)
          next => contradiction

/-- The scan of braces finds the end of an object that the reader reads to its end. -/
theorem scan_of_read {text : Utf16} {value : Json} (inside : Inside reader)
    (read : reader.read text = some value) :
    ∃ within spaces, text = within ++ 0x7D :: spaces ∧ (∀ unit ∈ spaces, Json.isSpace unit = true) ∧
      ∀ more, scan reader (text ++ more) = some (within ++ [0x7D]) := by
  induction text generalizing reader with
  | nil =>
      exfalso
      obtain ⟨rooted, _⟩ := inside
      change reader.finish = some value at read
      rw [Reader.finish] at read
      split at read
      next done =>
        rw [done] at rooted
        exact rooted
      next =>
        split at read
        next =>
          split at read
          next took =>
            cases rooted_take rooted took with
            | inl goesOn => exact goesOn.1
            | inr ends => cases ends.1
          next => contradiction
        next => contradiction
      next => contradiction
  | cons unit rest ih =>
      obtain ⟨last, ran, finished⟩ := Option.bind_eq_some_iff.1 read
      obtain ⟨after, went, ran'⟩ := Option.bind_eq_some_iff.1 ran
      have read' : after.read rest = some value := Option.bind_eq_some_iff.2 ⟨last, ran', finished⟩
      cases follows_next inside went with
      | inl goesOn =>
          obtain ⟨inside', scanned⟩ := goesOn
          obtain ⟨within, spaces, same, blank, found⟩ := ih inside' read'
          refine ⟨unit :: within, spaces, congrArg (unit :: ·) same, blank, fun more => ?_⟩
          rw [List.cons_append, scanned, found more]
          rfl
      | inr ends =>
          obtain ⟨brace, scanned, done, same⟩ := ends
          cases same
          refine ⟨[], rest, congrArg (· :: rest) brace, Json.isSpace_of_read_done read', fun more => ?_⟩
          rw [List.cons_append, scanned, brace]
          rfl

/-- A text that is an object of JSON is the object that the scan of braces cuts out. -/
theorem extractBalancedObject_of_parse {text : Utf16} {value : Json}
    (first : text.head? = some openBrace) (parsed : Json.parse text = some value) :
    ∃ within spaces, text = within ++ 0x7D :: spaces ∧ (∀ unit ∈ spaces, Json.isSpace unit = true) ∧
      ∀ more, extractBalancedObject (text ++ more) = some (within ++ [0x7D]) := by
  have ⟨rest, same⟩ := List.head?_eq_some_iff.1 first
  rw [same] at parsed
  have inside : Inside { mode := .between, expect := .firstMember [] } := ⟨.inl rfl, nofun⟩
  have ⟨within, spaces, whole, blank, found⟩ := scan_of_read inside
    (show Reader.read { mode := .between, expect := .firstMember [] } rest = some value from parsed)
  refine ⟨openBrace :: within, spaces, ?_, blank, fun more => ?_⟩
  · rw [same, whole]
    rfl
  · have scanned : extractBalancedObject (openBrace :: rest ++ more) =
        (scan { mode := .between, expect := .firstMember [] } (rest ++ more)).map
          (openBrace :: ·) := rfl
    rw [same, scanned, found more]
    rfl

end Scan

end OutputParser

end TitanRunner
