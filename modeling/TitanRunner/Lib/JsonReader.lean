import TitanRunner.Lib.JsonText

/-!
# The reader, one unit at a time

What a unit can do to the reader of JSON texts: the words it spells, where strings begin, what
may stand behind the value, and what kind of value the text is.
-/

namespace Json

open Utf16 (isLower)

variable {reader after : Reader} {unit : UInt16}

/-! ## Words and strings -/

theorem isLower_of_startWord {word : Utf16} {value : Json}
    (started : startWord unit = some (word, value)) :
    ∀ other ∈ word, isLower other = true := by
  unfold startWord at started
  split at started
  next =>
    cases started
    exact List.all_eq_true.1 rfl
  next =>
    split at started
    next =>
      cases started
      exact List.all_eq_true.1 rfl
    next =>
      split at started
      next =>
        cases started
        exact List.all_eq_true.1 rfl
      next => contradiction

/-- The words that the reader is in the middle of are spelt in small letters. -/
def Spells (reader : Reader) : Prop :=
  ∀ rest value, reader.mode = .word rest value → ∀ unit ∈ rest, isLower unit = true

theorem begin_cases {expect : Expect} (went : Reader.begin' expect unit = some after) :
    Spells after ∧ ∀ read, after.mode = .string read → unit = quotationMark := by
  rw [Reader.begin'] at went
  split at went
  next =>
    cases went
    exact ⟨by rintro _ _ ⟨⟩, by rintro _ ⟨⟩⟩
  next =>
    split at went
    next quote =>
      cases went
      exact ⟨by rintro _ _ ⟨⟩, fun _ _ => beq_iff_eq.1 quote⟩
    next =>
      split at went
      next =>
        cases went
        exact ⟨by rintro _ _ ⟨⟩, by rintro _ ⟨⟩⟩
      next word value started' started =>
        cases went
        refine ⟨?_, by rintro _ ⟨⟩⟩
        intro rest value' same
        cases same
        exact isLower_of_startWord started
      next =>
        obtain ⟨token, _, taken⟩ := Option.bind_eq_some_iff.1 went
        obtain ⟨expect', _, same⟩ := Option.map_eq_some_iff.1 taken
        cases same
        exact ⟨by rintro _ _ ⟨⟩, by rintro _ ⟨⟩⟩

/-- A unit that no escape has leads into a string only from within the string. -/
theorem next_cases (spells : Spells reader) (went : reader.next unit = some after) :
    Spells after ∧ ∀ read, after.mode = .string read → unit ≠ quotationMark →
      unescape unit = none → hexValue unit = none →
      ∃ read, reader.mode = .string read := by
  rw [Reader.next] at went
  cases mode : reader.mode with
  | between =>
      simp only [mode] at went
      obtain ⟨spells', opens⟩ := begin_cases went
      exact ⟨spells', fun read string quote _ _ => absurd (opens read string) quote⟩
  | string read =>
      refine ⟨?_, fun _ _ _ _ _ => ⟨read, rfl⟩⟩
      simp only [mode] at went
      split at went
      next =>
        obtain ⟨expect', _, same⟩ := Option.map_eq_some_iff.1 went
        cases same
        rintro _ _ ⟨⟩
      next =>
        split at went
        next =>
          cases went
          rintro _ _ ⟨⟩
        next =>
          split at went
          next => contradiction
          next =>
            cases went
            rintro _ _ ⟨⟩
  | escape read =>
      simp only [mode] at went
      split at went
      next =>
        cases went
        exact ⟨by rintro _ _ ⟨⟩, by rintro _ ⟨⟩⟩
      next =>
        obtain ⟨meant, found, same⟩ := Option.map_eq_some_iff.1 went
        cases same
        refine ⟨by rintro _ _ ⟨⟩, ?_⟩
        intro _ _ _ plain
        rw [found] at plain
        contradiction
  | hex read digits value =>
      simp only [mode] at went
      obtain ⟨digit, found, same⟩ := Option.map_eq_some_iff.1 went
      constructor
      · split at same <;> cases same <;> rintro _ _ ⟨⟩
      · intro _ _ _ _ plain
        rw [found] at plain
        contradiction
  | number read phase =>
      simp only [mode] at went
      split at went
      next =>
        cases went
        exact ⟨by rintro _ _ ⟨⟩, by rintro _ ⟨⟩⟩
      next =>
        split at went
        next =>
          obtain ⟨expect', _, begun⟩ := Option.bind_eq_some_iff.1 went
          obtain ⟨spells', opens⟩ := begin_cases begun
          exact ⟨spells', fun read string quote _ _ => absurd (opens read string) quote⟩
        next => contradiction
  | word rest value =>
      simp only [mode] at went
      split at went
      next => contradiction
      next wanted others =>
        split at went
        next =>
          split at went
          next =>
            obtain ⟨expect', _, same⟩ := Option.map_eq_some_iff.1 went
            cases same
            exact ⟨by rintro _ _ ⟨⟩, by rintro _ ⟨⟩⟩
          next =>
            cases went
            refine ⟨?_, by rintro _ ⟨⟩⟩
            intro rest' value' same
            cases same
            exact fun other among => spells _ _ mode other (.tail wanted among)
        next => contradiction

theorem Spells.run {text : Utf16} (spells : Spells reader) (ran : reader.run text = some after) :
    Spells after := by
  induction text generalizing reader with
  | nil =>
      cases ran
      exact spells
  | cons unit text ih =>
      have ⟨middle, went, ran'⟩ := Option.bind_eq_some_iff.1 ran
      exact ih (next_cases spells went).1 ran'

/-! ## Behind the value -/

theorem take_done (value : Json) (token : Token) : Expect.take (.done value) token = none := by
  cases token <;> rfl

/-- A token that begins behind the value never ends. -/
theorem next_done {value : Json} (done : reader.expect = .done value)
    (within : reader.mode ≠ .between) (went : reader.next unit = some after) :
    after.expect = .done value ∧ after.mode ≠ .between := by
  rw [Reader.next] at went
  simp only [done, Reader.take, take_done, Option.map_none, Option.bind_none] at went
  cases mode : reader.mode with
  | between => exact absurd mode within
  | string read =>
      simp only [mode] at went
      split at went
      next => contradiction
      next =>
        split at went
        next =>
          cases went
          exact ⟨rfl, by rintro ⟨⟩⟩
        next =>
          split at went
          next => contradiction
          next =>
            cases went
            exact ⟨rfl, by rintro ⟨⟩⟩
  | escape read =>
      simp only [mode] at went
      split at went
      next =>
        cases went
        exact ⟨rfl, by rintro ⟨⟩⟩
      next =>
        obtain ⟨meant, _, same⟩ := Option.map_eq_some_iff.1 went
        cases same
        exact ⟨rfl, by rintro ⟨⟩⟩
  | hex read digits value =>
      simp only [mode] at went
      obtain ⟨digit, _, same⟩ := Option.map_eq_some_iff.1 went
      split at same <;> cases same <;> exact ⟨rfl, by rintro ⟨⟩⟩
  | number read phase =>
      simp only [mode] at went
      split at went
      next =>
        cases went
        exact ⟨rfl, by rintro ⟨⟩⟩
      next =>
        split at went <;> contradiction
  | word rest value =>
      simp only [mode] at went
      split at went
      next => contradiction
      next =>
        split at went
        next =>
          split at went
          next => contradiction
          next =>
            cases went
            exact ⟨rfl, by rintro ⟨⟩⟩
        next => contradiction

theorem read_stuck {value : Json} (done : reader.expect = .done value)
    (within : reader.mode ≠ .between) (text : Utf16) : reader.read text = none := by
  induction text generalizing reader with
  | nil =>
      have unfinished : reader.finish = none := by
        rw [Reader.finish, done]
        cases mode : reader.mode with
        | between => exact absurd mode within
        | number read phase =>
            simp only [take_done]
            split <;> rfl
        | string | escape | hex | word => rfl
      exact unfinished
  | cons unit rest ih =>
      cases went : reader.next unit with
      | none => rw [Reader.read, Reader.run, went, Option.bind_none, Option.bind_none]
      | some after =>
          obtain ⟨done', within'⟩ := next_done done within went
          rw [Reader.read, Reader.run, went, Option.bind_some]
          exact ih done' within'

/-- Behind the value there is only white space. -/
theorem isSpace_of_read_done {value value' : Json} {text : Utf16}
    (read : Reader.read { mode := .between, expect := .done value } text = some value') :
    ∀ unit ∈ text, isSpace unit = true := by
  induction text with
  | nil => intros; contradiction
  | cons unit rest ih =>
      obtain ⟨last, ran, finished⟩ := Option.bind_eq_some_iff.1 read
      obtain ⟨after, went, ran'⟩ := Option.bind_eq_some_iff.1 ran
      have read' : after.read rest = some value' := Option.bind_eq_some_iff.2 ⟨last, ran', finished⟩
      have unstuck : ∀ {mode}, mode ≠ Mode.between → after ≠ { mode, expect := .done value } := by
        intro mode within same
        rw [same, read_stuck rfl within rest] at read'
        contradiction
      have space : isSpace unit = true ∧
          after = { mode := .between, expect := .done value } := by
        change Reader.begin' (.done value) unit = some after at went
        rw [Reader.begin'] at went
        split at went
        next space => exact ⟨space, (Option.some.inj went).symm⟩
        next =>
          split at went
          next => exact absurd (Option.some.inj went).symm (unstuck (by rintro ⟨⟩))
          next =>
            split at went
            next => exact absurd (Option.some.inj went).symm (unstuck (by rintro ⟨⟩))
            next => exact absurd (Option.some.inj went).symm (unstuck (by rintro ⟨⟩))
            next =>
              obtain ⟨token, _, taken⟩ := Option.bind_eq_some_iff.1 went
              rw [Reader.take, take_done] at taken
              contradiction
      rw [space.2] at read'
      intro other inside
      cases List.mem_cons.1 inside with
      | inl first => exact first ▸ space.1
      | inr later => exact ih read' other later

/-! ## The kind of the value -/

def isObject : Json → Bool
  | .object _ => true
  | .null | .bool _ | .number _ | .string _ | .array _ => false

def Frame.isObject : Frame → Bool
  | .object _ _ => true
  | .array _ => false

/-- A value that begins with the token is an object. -/
def Token.isObject : Token → Bool
  | .openBrace => true
  | .atom value => value.isObject
  | .openBracket | .closeBracket | .closeBrace | .comma | .colon | .string _ => false

def kindOf (stack : List Frame) : Option Bool := stack.getLast?.map Frame.isObject

/-- Whether the whole value is an object, once this is known. -/
def Expect.kind : Expect → Option Bool
  | .valueNext stack => kindOf stack
  | .firstItem stack | .afterItem _ stack => some ((kindOf stack).getD false)
  | .firstMember stack | .keyNext _ stack | .colonNext _ _ stack | .afterMember _ stack =>
      some ((kindOf stack).getD true)
  | .done value => some value.isObject

theorem kindOf_cons (frame : Frame) (stack : List Frame) :
    kindOf (frame :: stack) = some ((kindOf stack).getD frame.isObject) := by
  cases stack with
  | nil => rfl
  | cons other stack =>
      rw [kindOf, kindOf, List.getLast?_cons_cons, List.getLast?_cons]
      rfl

theorem kind_deliver (value : Json) (stack : List Frame) :
    (deliver value stack).kind = some ((kindOf stack).getD value.isObject) := by
  cases stack with
  | nil => rfl
  | cons frame stack =>
      rw [kindOf_cons]
      cases frame <;> rfl

theorem kind_startValue {stack : List Frame} {token : Token} {after : Expect}
    (taken : startValue stack token = some after) :
    after.kind = some ((kindOf stack).getD token.isObject) := by
  cases token with
  | string text =>
      cases taken
      exact kind_deliver _ stack
  | atom value =>
      cases taken
      exact kind_deliver _ stack
  | openBracket | openBrace =>
      cases taken
      rfl
  | closeBracket | closeBrace | comma | colon => contradiction

/-- The first token decides the kind. -/
theorem kind_take {expect after : Expect} {token : Token} (taken : expect.take token = some after) :
    after.kind = some (expect.kind.getD token.isObject) := by
  cases expect with
  | valueNext stack => exact kind_startValue taken
  | firstItem stack =>
      cases token with
      | closeBracket =>
          cases taken
          exact kind_deliver _ stack
      | openBracket | closeBrace | openBrace | comma | colon | string text | atom value =>
          rw [takes_firstItem stack _ (by simp)] at taken
          rw [kind_startValue taken, kindOf_cons]
          rfl
  | afterItem items stack =>
      cases token with
      | comma =>
          cases taken
          exact kindOf_cons _ stack
      | closeBracket =>
          cases taken
          exact kind_deliver _ stack
      | openBracket | closeBrace | openBrace | colon | string text | atom value => contradiction
  | firstMember stack =>
      cases token with
      | closeBrace =>
          cases taken
          exact kind_deliver _ stack
      | string text =>
          cases taken
          rfl
      | openBracket | closeBracket | openBrace | comma | colon | atom value => contradiction
  | keyNext members stack =>
      cases token with
      | string text =>
          cases taken
          rfl
      | openBracket | closeBracket | openBrace | closeBrace | comma | colon | atom value =>
          contradiction
  | colonNext members key stack =>
      cases token with
      | colon =>
          cases taken
          exact kindOf_cons _ stack
      | openBracket | closeBracket | openBrace | closeBrace | comma | string text | atom value =>
          contradiction
  | afterMember members stack =>
      cases token with
      | comma =>
          cases taken
          rfl
      | closeBrace =>
          cases taken
          exact kind_deliver _ stack
      | openBracket | closeBracket | openBrace | colon | string text | atom value => contradiction
  | done value =>
      rw [take_done] at taken
      contradiction

/-- Whether the whole value is an object, if a token has begun. -/
def Reader.kind (reader : Reader) : Option Bool :=
  match reader.mode with
  | .between => reader.expect.kind
  | .word _ value => some (reader.expect.kind.getD value.isObject)
  | .string _ | .escape _ | .hex _ _ _ | .number _ _ => some (reader.expect.kind.getD false)

theorem kind_begin {expect : Expect} {kind : Bool} (decided : expect.kind = some kind)
    (went : Reader.begin' expect unit = some after) : after.kind = some kind := by
  rw [Reader.begin'] at went
  split at went
  next =>
    cases went
    exact decided
  next =>
    split at went
    next =>
      cases went
      simp only [Reader.kind, decided, Option.getD_some]
    next =>
      split at went
      next =>
        cases went
        simp only [Reader.kind, decided, Option.getD_some]
      next =>
        cases went
        simp only [Reader.kind, decided, Option.getD_some]
      next =>
        obtain ⟨token, _, taken⟩ := Option.bind_eq_some_iff.1 went
        obtain ⟨expect', took, same⟩ := Option.map_eq_some_iff.1 taken
        cases same
        exact (kind_take took).trans (by rw [decided, Option.getD_some])

/-- A kind that is known stays. -/
theorem kind_next {kind : Bool} (decided : reader.kind = some kind)
    (went : reader.next unit = some after) : after.kind = some kind := by
  rw [Reader.next] at went
  rw [Reader.kind] at decided
  cases mode : reader.mode with
  | between =>
      simp only [mode] at went decided
      exact kind_begin decided went
  | string read =>
      simp only [mode] at went decided
      split at went
      next =>
        obtain ⟨expect', took, same⟩ := Option.map_eq_some_iff.1 went
        cases same
        exact (kind_take took).trans decided
      next =>
        split at went
        next =>
          cases went
          exact decided
        next =>
          split at went
          next => contradiction
          next =>
            cases went
            exact decided
  | escape read =>
      simp only [mode] at went decided
      split at went
      next =>
        cases went
        exact decided
      next =>
        obtain ⟨meant, _, same⟩ := Option.map_eq_some_iff.1 went
        cases same
        exact decided
  | hex read digits value =>
      simp only [mode] at went decided
      obtain ⟨digit, _, same⟩ := Option.map_eq_some_iff.1 went
      split at same <;> cases same <;> exact decided
  | number read phase =>
      simp only [mode] at went decided
      split at went
      next =>
        cases went
        exact decided
      next =>
        split at went
        next =>
          obtain ⟨expect', took, begun⟩ := Option.bind_eq_some_iff.1 went
          exact kind_begin ((kind_take took).trans decided) begun
        next => contradiction
  | word rest value =>
      simp only [mode] at went decided
      split at went
      next => contradiction
      next =>
        split at went
        next =>
          split at went
          next =>
            obtain ⟨expect', took, same⟩ := Option.map_eq_some_iff.1 went
            cases same
            exact (kind_take took).trans decided
          next =>
            cases went
            exact decided
        next => contradiction

theorem kind_finish {value : Json} {kind : Bool} (decided : reader.kind = some kind)
    (finished : reader.finish = some value) : value.isObject = kind := by
  rw [Reader.finish] at finished
  rw [Reader.kind] at decided
  split at finished
  next mode done =>
    cases finished
    rw [mode, done] at decided
    exact Option.some.inj decided
  next mode =>
    split at finished
    next =>
      split at finished
      next took =>
        cases finished
        rw [mode] at decided
        have known := (kind_take took).trans decided
        exact Option.some.inj known
      next => contradiction
    next => contradiction
  next => contradiction

theorem kind_read {text : Utf16} {value : Json} {kind : Bool} (decided : reader.kind = some kind)
    (read : reader.read text = some value) : value.isObject = kind := by
  induction text generalizing reader with
  | nil => exact kind_finish decided read
  | cons unit text ih =>
      have ⟨last, ran, finished⟩ := Option.bind_eq_some_iff.1 read
      have ⟨after, went, ran'⟩ := Option.bind_eq_some_iff.1 ran
      exact ih (kind_next decided went) (Option.bind_eq_some_iff.2 ⟨last, ran', finished⟩)

theorem isObject_of_punctuation {token : Token} (punctuated : punctuation unit = some token) :
    token.isObject = (unit == 0x7B) := by
  by_cases brace : unit = 0x7B
  · rw [brace] at punctuated ⊢
    cases punctuated
    rfl
  · rw [beq_false_of_ne brace]
    simp only [punctuation, beq_false_of_ne brace] at punctuated
    repeat' split at punctuated
    all_goals cases punctuated <;> first | rfl | contradiction

theorem isObject_of_startWord {word : Utf16} {value : Json}
    (started : startWord unit = some (word, value)) : value.isObject = false := by
  unfold startWord at started
  repeat' split at started
  all_goals cases started <;> rfl

/-- A text that does not begin with white space is an object if and only if it begins with a
brace. -/
theorem isObject_of_parse {rest : Utf16} {value : Json} (visible : isSpace unit = false)
    (parsed : parse (unit :: rest) = some value) : value.isObject = (unit == 0x7B) := by
  obtain ⟨last, ran, finished⟩ := Option.bind_eq_some_iff.1 parsed
  obtain ⟨after, went, ran'⟩ := Option.bind_eq_some_iff.1 ran
  have read : after.read rest = some value := Option.bind_eq_some_iff.2 ⟨last, ran', finished⟩
  apply kind_read _ read
  change Reader.begin' (.valueNext []) unit = some after at went
  have other : ∀ starts : UInt16 → Bool, starts unit = true → starts 0x7B = false →
      (unit == 0x7B) = false := by
    intro starts here there
    apply beq_false_of_ne
    intro same
    rw [same, there] at here
    contradiction
  rw [Reader.begin', visible] at went
  split at went
  next => contradiction
  next =>
    split at went
    next quote =>
      cases went
      rw [beq_iff_eq.1 quote]
      rfl
    next =>
      split at went
      next phase started =>
        cases went
        rw [other (fun unit => (Phase.start unit).isSome) (Option.isSome_of_eq_some started) rfl]
        rfl
      next word value' _ started =>
        cases went
        rw [other (fun unit => (startWord unit).isSome) (Option.isSome_of_eq_some started) rfl]
        exact congrArg some (isObject_of_startWord started)
      next =>
        obtain ⟨token, punctuated, taken⟩ := Option.bind_eq_some_iff.1 went
        obtain ⟨expect', took, same⟩ := Option.map_eq_some_iff.1 taken
        cases same
        rw [← isObject_of_punctuation punctuated]
        exact kind_take took

end Json
