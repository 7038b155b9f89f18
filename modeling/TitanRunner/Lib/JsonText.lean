import TitanRunner.Lib.Json
import Mathlib.Algebra.Group.Int.Defs
import Mathlib.Algebra.Group.Nat.Defs

/-!
# JSON texts

Reading and writing JSON over UTF-16 strings, as `JSON.parse` and `JSON.stringify` do.  The
reader is an automaton with a stack that takes one code unit after the other, so what it makes
of a text follows from what it makes of the text's pieces.
-/

namespace Json

open Utf16 (ofString)

/-! ## Grammar -/

/-- A token; an atom is `null`, a boolean or a number. -/
inductive Token where
  | openBracket | closeBracket | openBrace | closeBrace | comma | colon
  | string (text : Utf16)
  | atom (value : Json)

/-- What is open around a value: an array with the items before it, or an object with the
members before it and its key. -/
inductive Frame where
  | array (items : List Json)
  | object (members : List (Utf16 × Json)) (key : Utf16)

/-- What may come next. -/
inductive Expect where
  | valueNext (stack : List Frame)
  /-- After an opening bracket. -/
  | firstItem (stack : List Frame)
  | afterItem (items : List Json) (stack : List Frame)
  /-- After an opening brace. -/
  | firstMember (stack : List Frame)
  | keyNext (members : List (Utf16 × Json)) (stack : List Frame)
  | colonNext (members : List (Utf16 × Json)) (key : Utf16) (stack : List Frame)
  | afterMember (members : List (Utf16 × Json)) (stack : List Frame)
  | done (value : Json)

/-- A value is complete. -/
def deliver (value : Json) : List Frame → Expect
  | [] => .done value
  | .array items :: stack => .afterItem (items ++ [value]) stack
  | .object members key :: stack => .afterMember (members ++ [(key, value)]) stack

/-- The first token of a value. -/
def startValue (stack : List Frame) : Token → Option Expect
  | .string text => some (deliver (.string text) stack)
  | .atom value => some (deliver value stack)
  | .openBracket => some (.firstItem stack)
  | .openBrace => some (.firstMember stack)
  | .closeBracket | .closeBrace | .comma | .colon => none

def Expect.take : Expect → Token → Option Expect
  | .valueNext stack, token => startValue stack token
  | .firstItem stack, .closeBracket => some (deliver (.array []) stack)
  | .firstItem stack, token => startValue (.array [] :: stack) token
  | .afterItem items stack, .comma => some (.valueNext (.array items :: stack))
  | .afterItem items stack, .closeBracket => some (deliver (.array items) stack)
  | .firstMember stack, .closeBrace => some (deliver (.object []) stack)
  | .firstMember stack, .string text => some (.colonNext [] text stack)
  | .keyNext members stack, .string text => some (.colonNext members text stack)
  | .colonNext members key stack, .colon => some (.valueNext (.object members key :: stack))
  | .afterMember members stack, .comma => some (.keyNext members stack)
  | .afterMember members stack, .closeBrace => some (deliver (.object members) stack)
  | _, _ => none

/-! ## Units -/

def quotationMark : UInt16 := 0x22

def backslash : UInt16 := 0x5C

/-- White space between tokens. -/
def isSpace (unit : UInt16) : Bool := unit == 0x20 || unit == 0x9 || unit == 0xA || unit == 0xD

/-- How far a number has been read. -/
inductive Phase where
  | minus | zero | integer | point | fraction | exponent | sign | power
  deriving DecidableEq, Repr

def Phase.start (unit : UInt16) : Option Phase :=
  if unit == 0x2D then some .minus
  else if unit == 0x30 then some .zero
  else if Utf16.isDigit unit then some .integer
  else none

def isExponent (unit : UInt16) : Bool := unit == 0x65 || unit == 0x45

def Phase.next (phase : Phase) (unit : UInt16) : Option Phase :=
  match phase with
  | .minus => if unit == 0x30 then some .zero else if Utf16.isDigit unit then some .integer else none
  | .zero => if unit == 0x2E then some .point else if isExponent unit then some .exponent else none
  | .integer =>
      if Utf16.isDigit unit then some .integer
      else if unit == 0x2E then some .point
      else if isExponent unit then some .exponent
      else none
  | .point => if Utf16.isDigit unit then some .fraction else none
  | .fraction =>
      if Utf16.isDigit unit then some .fraction
      else if isExponent unit then some .exponent
      else none
  | .exponent =>
      if unit == 0x2B || unit == 0x2D then some .sign
      else if Utf16.isDigit unit then some .power
      else none
  | .sign | .power => if Utf16.isDigit unit then some .power else none

/-- The number may end here. -/
def Phase.accepts : Phase → Bool
  | .zero | .integer | .fraction | .power => true
  | .minus | .point | .exponent | .sign => false

/-- What a letter begins: the rest of the word, and its value. -/
def startWord (unit : UInt16) : Option (Utf16 × Json) :=
  if unit == 0x6E then some (ofString "ull", .null)
  else if unit == 0x74 then some (ofString "rue", .bool true)
  else if unit == 0x66 then some (ofString "alse", .bool false)
  else none

def punctuation (unit : UInt16) : Option Token :=
  if unit == 0x5B then some .openBracket
  else if unit == 0x5D then some .closeBracket
  else if unit == 0x7B then some .openBrace
  else if unit == 0x7D then some .closeBrace
  else if unit == 0x2C then some .comma
  else if unit == 0x3A then some .colon
  else none

/-- The unit an escape of one letter stands for. -/
def unescape (unit : UInt16) : Option UInt16 :=
  if unit == quotationMark || unit == backslash || unit == 0x2F then some unit
  else if unit == 0x62 then some 0x8
  else if unit == 0x66 then some 0xC
  else if unit == 0x6E then some 0xA
  else if unit == 0x72 then some 0xD
  else if unit == 0x74 then some 0x9
  else none

def hexValue (unit : UInt16) : Option UInt16 :=
  if Utf16.isDigit unit then some (unit - 0x30)
  else if 0x61 ≤ unit && unit ≤ 0x66 then some (unit - 0x57)
  else if 0x41 ≤ unit && unit ≤ 0x46 then some (unit - 0x37)
  else none

/-- The phase a text leads to. -/
def Phase.run (phase : Phase) : Utf16 → Option Phase
  | [] => some phase
  | unit :: rest => (phase.next unit).bind fun phase => phase.run rest

/-- The text of a number. -/
def isNumber : Utf16 → Bool
  | [] => false
  | unit :: rest => ((Phase.start unit).bind fun phase => phase.run rest).any Phase.accepts

/-- A unit that no phase takes is in no number. -/
theorem not_mem_run {unit : UInt16} (never : ∀ phase, Phase.next phase unit = none)
    {phase after : Phase} {text : Utf16} (ran : phase.run text = some after) : unit ∉ text := by
  induction text generalizing phase with
  | nil => exact List.not_mem_nil
  | cons first rest ih =>
      have ⟨middle, went, ran'⟩ := Option.bind_eq_some_iff.1 ran
      apply List.not_mem_cons_of_ne_of_not_mem _ (ih ran')
      intro same
      rw [← same, never phase] at went
      contradiction

theorem not_mem_number {unit : UInt16} (never : ∀ phase, Phase.next phase unit = none)
    (starts : Phase.start unit = none) {text : Utf16} (number : isNumber text = true) :
    unit ∉ text := by
  cases text with
  | nil => exact List.not_mem_nil
  | cons first rest =>
      rw [isNumber] at number
      cases started : Phase.start first with
      | none =>
          rw [started] at number
          contradiction
      | some phase =>
          rw [started, Option.bind_some] at number
          obtain ⟨after, ran, _⟩ := (Option.any_eq_true _ _).1 number
          apply List.not_mem_cons_of_ne_of_not_mem _ (not_mem_run never ran)
          intro same
          rw [← same, starts] at started
          contradiction

mutual

/-- Every number has the text of one. -/
def isProper : Json → Bool
  | .null | .bool _ | .string _ => true
  | .number text => isNumber text
  | .array items => areProper items
  | .object members => areProperMembers members

def areProper : List Json → Bool
  | [] => true
  | item :: items => isProper item && areProper items

def areProperMembers : List (Utf16 × Json) → Bool
  | [] => true
  | (_, value) :: members => isProper value && areProperMembers members

end

theorem areProper_iff (items : List Json) :
    areProper items = true ↔ ∀ item ∈ items, item.isProper = true := by
  induction items with
  | nil => simp [areProper]
  | cons item items ih => rw [areProper, Bool.and_eq_true, ih, List.forall_mem_cons]

theorem areProperMembers_iff (members : List (Utf16 × Json)) :
    areProperMembers members = true ↔ ∀ member ∈ members, member.2.isProper = true := by
  induction members with
  | nil => simp [areProperMembers]
  | cons member members ih =>
      rw [areProperMembers, Bool.and_eq_true, ih, List.forall_mem_cons]

/-! ## The reader -/

/-- Where the reader stands within a token. -/
inductive Mode where
  | between
  | string (read : Utf16)
  /-- After a backslash. -/
  | escape (read : Utf16)
  /-- In the digits of a `\u` escape. -/
  | hex (read : Utf16) (digits : Nat) (value : UInt16)
  | number (read : Utf16) (phase : Phase)
  | word (rest : Utf16) (value : Json)

structure Reader where
  mode : Mode
  expect : Expect

def Reader.start : Reader where
  mode := .between
  expect := .valueNext []

/-- A token is complete. -/
def Reader.take (expect : Expect) (token : Token) : Option Reader :=
  (expect.take token).map fun expect => { mode := .between, expect }

/-- A unit between tokens. -/
def Reader.begin' (expect : Expect) (unit : UInt16) : Option Reader :=
  if isSpace unit then some { mode := .between, expect }
  else if unit == quotationMark then some { mode := .string [], expect }
  else
    match Phase.start unit, startWord unit with
    | some phase, _ => some { mode := .number [unit] phase, expect }
    | none, some (rest, value) => some { mode := .word rest value, expect }
    | none, none => (punctuation unit).bind (Reader.take expect)

def Reader.next (reader : Reader) (unit : UInt16) : Option Reader :=
  let expect := reader.expect
  match reader.mode with
  | .between => Reader.begin' expect unit
  | .string read =>
      if unit == quotationMark then Reader.take expect (.string read)
      else if unit == backslash then some { mode := .escape read, expect }
      else if unit < 0x20 then none
      else some { mode := .string (read ++ [unit]), expect }
  | .escape read =>
      if unit == 0x75 then some { mode := .hex read 0 0, expect }
      else (unescape unit).map fun meant => { mode := .string (read ++ [meant]), expect }
  | .hex read digits value =>
      (hexValue unit).map fun digit =>
        let value := value * 16 + digit
        if digits = 3 then { mode := .string (read ++ [value]), expect }
        else { mode := .hex read (digits + 1) value, expect }
  | .number read phase =>
      match phase.next unit with
      | some phase => some { mode := .number (read ++ [unit]) phase, expect }
      | none =>
          if phase.accepts then
            (expect.take (.atom (.number read))).bind fun expect => Reader.begin' expect unit
          else none
  | .word rest value =>
      match rest with
      | [] => none
      | wanted :: rest =>
          if unit == wanted then
            if rest.isEmpty then Reader.take expect (.atom value)
            else some { mode := .word rest value, expect }
          else none

/-- The end of the text. -/
def Reader.finish (reader : Reader) : Option Json :=
  match reader.mode, reader.expect with
  | .between, .done value => some value
  | .number read phase, expect =>
      if phase.accepts then
        match expect.take (.atom (.number read)) with
        | some (.done value) => some value
        | _ => none
      else none
  | _, _ => none

def Reader.run (reader : Reader) : Utf16 → Option Reader
  | [] => some reader
  | unit :: rest => (reader.next unit).bind fun reader => reader.run rest

/-- The value a text completes. -/
def Reader.read (reader : Reader) (text : Utf16) : Option Json :=
  (reader.run text).bind Reader.finish

/-- `JSON.parse`; `none` is its exception. -/
def parse (text : Utf16) : Option Json := Reader.start.read text

/-! ## Writing -/

def isHigh (unit : UInt16) : Bool := 0xD800 ≤ unit && unit ≤ 0xDBFF

def isLow (unit : UInt16) : Bool := 0xDC00 ≤ unit && unit ≤ 0xDFFF

def hexDigit (value : UInt16) : UInt16 := if value < 10 then value + 0x30 else value + 0x57

/-- `\u` and four hexadecimal digits. -/
def hexEscape (unit : UInt16) : Utf16 :=
  [backslash, 0x75, hexDigit (unit / 0x1000), hexDigit (unit / 0x100 % 16),
    hexDigit (unit / 16 % 16), hexDigit (unit % 16)]

/-- A unit that is not part of a surrogate pair, as it stands in a string. -/
def quoteUnit (unit : UInt16) : Utf16 :=
  if unit == quotationMark || unit == backslash then [backslash, unit]
  else if unit == 0x8 then [backslash, 0x62]
  else if unit == 0xC then [backslash, 0x66]
  else if unit == 0xA then [backslash, 0x6E]
  else if unit == 0xD then [backslash, 0x72]
  else if unit == 0x9 then [backslash, 0x74]
  else if unit < 0x20 || isHigh unit || isLow unit then hexEscape unit
  else [unit]

/-- The inside of a string. -/
def quoteUnits : Utf16 → Utf16
  | [] => []
  | [unit] => quoteUnit unit
  | high :: low :: rest =>
      if isHigh high && isLow low then high :: low :: quoteUnits rest
      else quoteUnit high ++ quoteUnits (low :: rest)

def quote (text : Utf16) : Utf16 := quotationMark :: quoteUnits text ++ [quotationMark]

/-- A new line at a depth, if the text is indented. -/
def breakLine (gap : Utf16) (depth : Nat) : Utf16 :=
  if gap.isEmpty then [] else 0xA :: (List.replicate depth gap).flatten

/-- The colon behind a key. -/
def colonOf (gap : Utf16) : Utf16 := if gap.isEmpty then [0x3A] else [0x3A, 0x20]

mutual

/-- `JSON.stringify(value, null, gap)`. -/
def render (gap : Utf16) (depth : Nat) : Json → Utf16
  | .null => ofString "null"
  | .bool true => ofString "true"
  | .bool false => ofString "false"
  | .number text => text
  | .string text => quote text
  | .array [] => ofString "[]"
  | .array (item :: items) =>
      0x5B :: breakLine gap (depth + 1) ++ render gap (depth + 1) item ++
        renderItems gap (depth + 1) items ++ breakLine gap depth ++ [0x5D]
  | .object [] => [0x7B, 0x7D]
  | .object ((key, value) :: members) =>
      0x7B :: breakLine gap (depth + 1) ++ quote key ++ colonOf gap ++
        render gap (depth + 1) value ++ renderMembers gap (depth + 1) members ++
          breakLine gap depth ++ [0x7D]

/-- The items behind the first one. -/
def renderItems (gap : Utf16) (depth : Nat) : List Json → Utf16
  | [] => []
  | item :: items =>
      0x2C :: breakLine gap depth ++ render gap depth item ++ renderItems gap depth items

/-- The members behind the first one. -/
def renderMembers (gap : Utf16) (depth : Nat) : List (Utf16 × Json) → Utf16
  | [] => []
  | (key, value) :: members =>
      0x2C :: breakLine gap depth ++ quote key ++ colonOf gap ++ render gap depth value ++
        renderMembers gap depth members

end

/-- `JSON.stringify(value)`. -/
def stringify (value : Json) : Utf16 := render [] 0 value

section Flat

theorem breakLine_nil (depth : Nat) : breakLine [] depth = [] := rfl

mutual

/-- Without a gap the depth does not show. -/
theorem render_flat (value : Json) (depth : Nat) : render [] depth value = stringify value := by
  match value with
  | .null | .bool true | .bool false | .number _ | .string _ | .array [] | .object [] =>
      rw [stringify, render, render]
  | .array (item :: items) =>
      rw [stringify, render, render]
      simp only [breakLine_nil, render_flat item, renderItems_flat items (depth + 1),
        renderItems_flat items 1]
  | .object ((key, item) :: members) =>
      rw [stringify, render, render]
      simp only [breakLine_nil, render_flat item, renderMembers_flat members (depth + 1),
        renderMembers_flat members 1]

theorem renderItems_flat (items : List Json) (depth : Nat) :
    renderItems [] depth items = renderItems [] 0 items := by
  match items with
  | [] => rw [renderItems, renderItems]
  | item :: items =>
      rw [renderItems, renderItems]
      simp only [breakLine_nil, render_flat item, renderItems_flat items depth]

theorem renderMembers_flat (members : List (Utf16 × Json)) (depth : Nat) :
    renderMembers [] depth members = renderMembers [] 0 members := by
  match members with
  | [] => rw [renderMembers, renderMembers]
  | (key, item) :: members =>
      rw [renderMembers, renderMembers]
      simp only [breakLine_nil, render_flat item, renderMembers_flat members depth]

end

end Flat

/-- `JSON.stringify(value, null, 2)`. -/
def pretty (value : Json) : Utf16 := render [0x20, 0x20] 0 value

/-! ## Numbers -/

/-- A decimal number: its digits, and the power of ten they count. -/
structure Decimal where
  negative : Bool
  digits : Nat
  power : Int
  deriving DecidableEq, Repr

def natOf (digits : Utf16) : Nat :=
  digits.foldl (fun number unit => number * 10 + (unit - 0x30).toNat) 0

/-- An exponent: digits behind a sign. -/
def exponentOf (text : Utf16) : Int :=
  match text with
  | 0x2D :: digits => -natOf digits
  | 0x2B :: digits => natOf digits
  | digits => natOf digits

/-- The number a text stands for. -/
def decimal (text : Utf16) : Decimal :=
  let negative := text.head? == some 0x2D
  let unsigned := if negative then text.drop 1 else text
  let mantissa := unsigned.takeWhile fun unit => !isExponent unit
  let exponent := (unsigned.dropWhile fun unit => !isExponent unit).drop 1
  let whole := mantissa.takeWhile (· != 0x2E)
  let fraction := (mantissa.dropWhile (· != 0x2E)).drop 1
  { negative, digits := natOf (whole ++ fraction)
    power := exponentOf exponent - fraction.length }

def Decimal.signed (decimal : Decimal) : Int :=
  if decimal.negative then -decimal.digits else decimal.digits

/-- The value of a whole number. -/
def Decimal.integer? (decimal : Decimal) : Option Int :=
  let scale : Int := 10 ^ decimal.power.natAbs
  if 0 ≤ decimal.power then some (decimal.signed * scale)
  else if decimal.signed % scale = 0 then some (decimal.signed / scale)
  else none

/-- `left < right` -/
def Decimal.less (left right : Decimal) : Bool :=
  let power := min left.power right.power
  decide (left.signed * 10 ^ (left.power - power).toNat <
    right.signed * 10 ^ (right.power - power).toNat)

/-- Two texts of one number. -/
def Decimal.same (left right : Decimal) : Bool :=
  let power := min left.power right.power
  decide (left.signed * 10 ^ (left.power - power).toNat =
    right.signed * 10 ^ (right.power - power).toNat)

/-- A value that counts as true. -/
def truthy : Json → Bool
  | .null => false
  | .bool value => value
  | .number text => decide ((decimal text).digits ≠ 0)
  | .string text => !text.isEmpty
  | .array _ | .object _ => true

/-- `Number.isInteger`, with the value. -/
def integer? : Json → Option Int
  | .number text => (decimal text).integer?
  | _ => none

mutual

/-- Two writings of one value: members may stand in another order, and a number may be written
otherwise. -/
def equal : Json → Json → Bool
  | .null, .null => true
  | .bool left, .bool right => left == right
  | .number left, .number right => (decimal left).same (decimal right)
  | .string left, .string right => left == right
  | .array left, .array right => equalItems left right
  | .object left, .object right =>
      right.all (fun other => (left.map Prod.fst).contains other.1) && equalMembers left right
  | _, _ => false

def equalItems : List Json → List Json → Bool
  | [], [] => true
  | item :: items, other :: others => equal item other && equalItems items others
  | _, _ => false

/-- Every member that counts has its equal. -/
def equalMembers : List (Utf16 × Json) → List (Utf16 × Json) → Bool
  | [], _ => true
  | (key, value) :: members, others =>
      ((members.map Prod.fst).contains key ||
        match (Json.object others).member key with
        | some other => equal value other
        | none => false) &&
        equalMembers members others

end

example : integer? (.number (ofString "2.50e1")) = some 25 := by decide

/-! ## What is written is read again -/

section Read

variable {reader : Reader} {expect : Expect} {read : Utf16}

theorem run_append (reader : Reader) (before after : Utf16) :
    reader.run (before ++ after) = (reader.run before).bind fun reader => reader.run after := by
  induction before generalizing reader with
  | nil => rfl
  | cons unit rest ih =>
      rw [List.cons_append, Reader.run, Reader.run]
      cases reader.next unit with
      | none => rfl
      | some after => exact ih after

theorem run_cons (unit : UInt16) (rest : Utf16) :
    reader.run (unit :: rest) = (reader.next unit).bind fun reader => reader.run rest := rfl

/-- A unit that stands for itself in a string. -/
def isPlain (unit : UInt16) : Bool :=
  unit != quotationMark && unit != backslash && !(unit < 0x20)

theorem next_plain {unit : UInt16} (plain : isPlain unit = true) :
    Reader.next { mode := .string read, expect } unit =
      some { mode := .string (read ++ [unit]), expect } := by
  simp only [isPlain, Bool.and_eq_true, bne_iff_ne, ne_eq, Bool.not_eq_true',
    decide_eq_false_iff_not] at plain
  simp [Reader.next, plain]

theorem hexValue_hexDigit {value : UInt16} (small : value < 16) :
    hexValue (hexDigit value) = some value := by
  have all : ∀ digit : Fin 16, hexValue (hexDigit (UInt16.ofNat digit)) =
      some (UInt16.ofNat digit) := by decide
  have bound : value.toNat < 16 := UInt16.lt_iff_toNat_lt.1 small
  have same : UInt16.ofNat value.toNat = value := UInt16.ofNat_toNat
  exact same ▸ all ⟨value.toNat, bound⟩

/-- The four digits of an escape. -/
theorem run_hexEscape (unit : UInt16) (rest : Utf16) :
    Reader.run { mode := .string read, expect } (hexEscape unit ++ rest) =
      Reader.run { mode := .string (read ++ [unit]), expect } rest := by
  have first : hexValue (hexDigit (unit / 0x1000)) = some (unit / 0x1000) := by
    apply hexValue_hexDigit
    rw [UInt16.lt_iff_toNat_lt, UInt16.toNat_div]
    have bound := unit.toNat_lt
    simp only [UInt16.toNat_ofNat, Nat.reducePow, Nat.reduceMod]
    omega
  have second : hexValue (hexDigit (unit / 0x100 % 16)) = some (unit / 0x100 % 16) := by
    apply hexValue_hexDigit
    rw [UInt16.lt_iff_toNat_lt, UInt16.toNat_mod]
    exact Nat.mod_lt _ (by decide)
  have third : hexValue (hexDigit (unit / 16 % 16)) = some (unit / 16 % 16) := by
    apply hexValue_hexDigit
    rw [UInt16.lt_iff_toNat_lt, UInt16.toNat_mod]
    exact Nat.mod_lt _ (by decide)
  have fourth : hexValue (hexDigit (unit % 16)) = some (unit % 16) := by
    apply hexValue_hexDigit
    rw [UInt16.lt_iff_toNat_lt, UInt16.toNat_mod]
    exact Nat.mod_lt _ (by decide)
  have whole : (((unit / 0x1000 * 16 + unit / 0x100 % 16) * 16 + unit / 16 % 16) * 16 +
      unit % 16) = unit := by
    rw [← UInt16.toNat_inj]
    simp only [UInt16.toNat_add, UInt16.toNat_mul, UInt16.toNat_div, UInt16.toNat_mod,
      UInt16.toNat_ofNat, Nat.reducePow, Nat.reduceMod]
    have bound := unit.toNat_lt
    omega
  simp [hexEscape, run_cons, Reader.next, backslash, quotationMark, first, second, third, fourth,
    whole]

theorem run_quoteUnit (unit : UInt16) (rest : Utf16) :
    Reader.run { mode := .string read, expect } (quoteUnit unit ++ rest) =
      Reader.run { mode := .string (read ++ [unit]), expect } rest := by
  simp only [quoteUnit]
  split
  next special =>
    rw [Bool.or_eq_true, beq_iff_eq, beq_iff_eq] at special
    cases special with
    | inl same => subst same; rfl
    | inr same => subst same; rfl
  next plain =>
    split
    next same => rw [beq_iff_eq] at same; subst same; rfl
    next =>
      split
      next same => rw [beq_iff_eq] at same; subst same; rfl
      next =>
        split
        next same => rw [beq_iff_eq] at same; subst same; rfl
        next =>
          split
          next same => rw [beq_iff_eq] at same; subst same; rfl
          next =>
            split
            next same => rw [beq_iff_eq] at same; subst same; rfl
            next =>
              split
              next => exact run_hexEscape unit rest
              next shown =>
                have itself : isPlain unit = true := by
                  simp only [Bool.or_eq_true, not_or, beq_iff_eq, decide_eq_true_eq] at plain shown
                  simp [isPlain, plain, shown]
                rw [List.singleton_append, run_cons, next_plain itself]
                rfl

theorem isPlain_of_surrogate {unit : UInt16} (surrogate : (isHigh unit || isLow unit) = true) :
    isPlain unit = true := by
  simp only [isHigh, isLow, Bool.or_eq_true, Bool.and_eq_true, decide_eq_true_eq,
    UInt16.le_iff_toNat_le, UInt16.toNat_ofNat, Nat.reducePow, Nat.reduceMod] at surrogate
  simp only [isPlain, quotationMark, backslash, Bool.and_eq_true, bne_iff_ne, ne_eq,
    Bool.not_eq_true', decide_eq_false_iff_not, UInt16.lt_iff_toNat_lt, ← UInt16.toNat_inj,
    UInt16.toNat_ofNat, Nat.reducePow, Nat.reduceMod]
  omega

/-- Induction along `quoteUnits`: a surrogate pair is quoted at once. -/
theorem quoteUnits_induction {motive : Utf16 → Prop} (empty : motive [])
    (single : ∀ unit, motive [unit])
    (pair : ∀ high low rest, (isHigh high && isLow low) = true → motive rest →
      motive (high :: low :: rest))
    (lone : ∀ high low rest, (isHigh high && isLow low) = false → motive (low :: rest) →
      motive (high :: low :: rest)) : ∀ text, motive text
  | [] => empty
  | [unit] => single unit
  | high :: low :: rest => by
      cases paired : isHigh high && isLow low with
      | true => exact pair high low rest paired (quoteUnits_induction empty single pair lone rest)
      | false =>
          exact lone high low rest paired
            (quoteUnits_induction empty single pair lone (low :: rest))

/-- The inside of a string is read as the string. -/
theorem run_quoteUnits (text rest : Utf16) :
    Reader.run { mode := .string read, expect } (quoteUnits text ++ rest) =
      Reader.run { mode := .string (read ++ text), expect } rest := by
  induction text using quoteUnits_induction generalizing read with
  | empty => rw [quoteUnits, List.nil_append, List.append_nil]
  | single unit => exact run_quoteUnit unit rest
  | pair high low rest' pair ih =>
      rw [Bool.and_eq_true] at pair
      have highPlain : isPlain high = true := isPlain_of_surrogate (by simp [pair])
      have lowPlain : isPlain low = true := isPlain_of_surrogate (by simp [pair])
      rw [quoteUnits, if_pos (by simp [pair]), List.cons_append, List.cons_append, run_cons,
        next_plain highPlain, Option.bind_some, run_cons, next_plain lowPlain, Option.bind_some, ih]
      simp
  | lone high low rest' lone ih =>
      rw [quoteUnits, lone, if_neg Bool.false_ne_true, List.append_assoc, run_quoteUnit, ih, List.append_assoc]
      rfl

theorem run_quote (text rest : Utf16) :
    Reader.run { mode := .between, expect } (quote text ++ rest) =
      (Reader.take expect (.string text)).bind fun reader => reader.run rest := by
  have opened : Reader.next { mode := .between, expect } quotationMark =
      some { mode := .string [], expect } := rfl
  have closed : Reader.next { mode := .string text, expect } quotationMark =
      Reader.take expect (.string text) := rfl
  rw [quote, List.cons_append, List.cons_append, List.append_assoc, run_cons, opened,
    Option.bind_some, run_quoteUnits, List.nil_append, List.singleton_append, run_cons, closed]

theorem run_spaces {spaces : Utf16} (blank : ∀ unit ∈ spaces, isSpace unit = true) (rest : Utf16) :
    Reader.run { mode := .between, expect } (spaces ++ rest) =
      Reader.run { mode := .between, expect } rest := by
  induction spaces with
  | nil => rfl
  | cons unit spaces ih =>
      have skipped : Reader.next { mode := .between, expect } unit =
          some { mode := .between, expect } := by
        simp [Reader.next, Reader.begin', blank unit List.mem_cons_self]
      rw [List.cons_append, run_cons, skipped, Option.bind_some]
      exact ih fun other inside => blank other (List.mem_cons_of_mem unit inside)

theorem run_number {phase after : Phase} {text : Utf16} (went : phase.run text = some after)
    (rest : Utf16) :
    Reader.run { mode := .number read phase, expect } (text ++ rest) =
      Reader.run { mode := .number (read ++ text) after, expect } rest := by
  induction text generalizing phase read with
  | nil =>
      cases went
      rw [List.nil_append, List.append_nil]
  | cons unit text ih =>
      have ⟨next, step, goesOn⟩ := Option.bind_eq_some_iff.1 went
      have stepped : Reader.next { mode := .number read phase, expect } unit =
          some { mode := .number (read ++ [unit]) next, expect } := by
        simp [Reader.next, step]
      rw [List.cons_append, run_cons, stepped, Option.bind_some, ih goesOn, List.append_assoc]
      rfl

theorem begin_number {unit : UInt16} {phase : Phase} (started : Phase.start unit = some phase) :
    Reader.begin' expect unit = some { mode := .number [unit] phase, expect } := by
  have unspaced : isSpace unit = false := by
    by_contra space
    simp only [isSpace, Bool.not_eq_false, Bool.or_eq_true, beq_iff_eq] at space
    obtain ((same | same) | same) | same := space <;> subst same <;> contradiction
  have unquoted : (unit == quotationMark) = false := by
    by_contra quoted
    rw [Bool.not_eq_false, beq_iff_eq] at quoted
    subst quoted
    contradiction
  simp [Reader.begin', unspaced, unquoted, started]

/-- What may stand behind a value: the end, or a unit that is part of no number. -/
def Closed (rest : Utf16) : Prop :=
  ∀ unit ∈ rest.head?, unit = 0x2C ∨ unit = 0x5D ∨ unit = 0x7D ∨ unit = 0xA

theorem Closed.next {rest : Utf16} {unit : UInt16} (closed : Closed (unit :: rest))
    (phase : Phase) : phase.next unit = none := by
  obtain same | same | same | same := closed unit rfl <;> subst same <;> cases phase <;> rfl

theorem read_number {text rest : Utf16} (number : isNumber text = true) (closed : Closed rest) :
    Reader.read { mode := .between, expect } (text ++ rest) =
      (expect.take (.atom (.number text))).bind fun expect =>
        Reader.read { mode := .between, expect } rest := by
  cases text with
  | nil => contradiction
  | cons unit text =>
      rw [isNumber, Option.any_eq_true] at number
      have ⟨after, went, accepted⟩ := number
      have ⟨phase, started, goesOn⟩ := Option.bind_eq_some_iff.1 went
      have first : Reader.next { mode := .between, expect } unit =
          some { mode := .number [unit] phase, expect } := begin_number started
      rw [Reader.read, List.cons_append, run_cons, first, Option.bind_some, run_number goesOn,
        List.singleton_append]
      cases rest with
      | nil =>
          simp only [Reader.run, Option.bind_some, Reader.finish, accepted, ↓reduceIte]
          cases expect.take (.atom (.number (unit :: text))) with
          | none => rfl
          | some expect => cases expect <;> rfl
      | cons close rest =>
          simp only [run_cons, Reader.next, closed.next, accepted, ↓reduceIte]
          cases expect.take (.atom (.number (unit :: text))) with
          | none => rfl
          | some expect => rfl

/-- A value may come next, and goes onto the stack. -/
def Takes (expect : Expect) (stack : List Frame) : Prop :=
  ∀ token, token ≠ .closeBracket → expect.take token = startValue stack token

theorem takes_valueNext (stack : List Frame) : Takes (.valueNext stack) stack := fun _ _ => rfl

theorem takes_firstItem (stack : List Frame) :
    Takes (.firstItem stack) (.array [] :: stack) := by
  intro token open'
  cases token with
  | closeBracket => exact absurd rfl open'
  | openBracket | openBrace | closeBrace | comma | colon | string | atom => rfl

theorem read_string {stack : List Frame} (takes : Takes expect stack) (text rest : Utf16) :
    Reader.read { mode := .between, expect } (quote text ++ rest) =
      Reader.read { mode := .between, expect := deliver (.string text) stack } rest := by
  have taken : Reader.take expect (.string text) =
      some { mode := .between, expect := deliver (.string text) stack } := by
    rw [Reader.take, takes (.string text) (by simp)]
    rfl
  rw [Reader.read, run_quote, taken]
  rfl

/-- A unit that is a token of its own. -/
theorem read_punctuation {unit : UInt16} {token : Token} {after : Expect}
    (is : Reader.begin' expect unit = Reader.take expect token)
    (taken : expect.take token = some after) (rest : Utf16) :
    Reader.read { mode := .between, expect } (unit :: rest) =
      Reader.read { mode := .between, expect := after } rest := by
  have stepped : Reader.next { mode := .between, expect } unit =
      some { mode := .between, expect := after } := by
    rw [Reader.next, is, Reader.take, taken]
    rfl
  rw [Reader.read, run_cons, stepped]
  rfl

theorem read_spaces {spaces : Utf16} (blank : ∀ unit ∈ spaces, isSpace unit = true)
    (rest : Utf16) :
    Reader.read { mode := .between, expect } (spaces ++ rest) =
      Reader.read { mode := .between, expect } rest := by
  rw [Reader.read, run_spaces blank, Reader.read]

variable {gap : Utf16}

theorem blank_breakLine (blank : ∀ unit ∈ gap, isSpace unit = true) (depth : Nat) :
    ∀ unit ∈ breakLine gap depth, isSpace unit = true := by
  intro unit inside
  rw [breakLine] at inside
  split at inside
  next => contradiction
  next =>
    cases List.mem_cons.1 inside with
    | inl same => exact same ▸ rfl
    | inr later =>
        have ⟨part, there, within⟩ := List.mem_flatten.1 later
        exact blank unit (List.eq_of_mem_replicate there ▸ within)

/-- The line that is broken before a closing bracket closes the value before it. -/
theorem closed_breakLine {close : UInt16} (closes : close = 0x2C ∨ close = 0x5D ∨ close = 0x7D)
    (depth : Nat) (rest : Utf16) : Closed (breakLine gap depth ++ close :: rest) := by
  intro unit first
  rw [breakLine] at first
  split at first
  next =>
    cases first
    obtain same | same | same := closes <;> simp [same]
  next =>
    cases first
    simp

theorem closed_renderItems {items : List Json} {depth : Nat} {rest : Utf16}
    (closed : Closed rest) : Closed (renderItems gap depth items ++ rest) := by
  cases items with
  | nil => exact closed
  | cons item items =>
      intro unit first
      rw [renderItems] at first
      cases first
      simp

theorem closed_renderMembers {members : List (Utf16 × Json)} {depth : Nat} {rest : Utf16}
    (closed : Closed rest) : Closed (renderMembers gap depth members ++ rest) := by
  cases members with
  | nil => exact closed
  | cons member members =>
      intro unit first
      rw [renderMembers] at first
      cases first
      simp

/-- The text of a value that is not a number stands for a token of its own. -/
theorem read_atom {stack : List Frame} (takes : Takes expect stack) {value : Json}
    {word : Utf16} (is : ∀ rest, Reader.run { mode := .between, expect } (word ++ rest) =
      (Reader.take expect (.atom value)).bind fun reader => reader.run rest) (rest : Utf16) :
    Reader.read { mode := .between, expect } (word ++ rest) =
      Reader.read { mode := .between, expect := deliver value stack } rest := by
  have taken : Reader.take expect (.atom value) =
      some { mode := .between, expect := deliver value stack } := by
    rw [Reader.take, takes (.atom value) (by simp)]
    rfl
  rw [Reader.read, is, taken]
  rfl

theorem run_null (rest : Utf16) :
    Reader.run { mode := .between, expect } (ofString "null" ++ rest) =
      (Reader.take expect (.atom .null)).bind fun reader => reader.run rest := rfl

theorem run_true (rest : Utf16) :
    Reader.run { mode := .between, expect } (ofString "true" ++ rest) =
      (Reader.take expect (.atom (.bool true))).bind fun reader => reader.run rest := rfl

theorem run_false (rest : Utf16) :
    Reader.run { mode := .between, expect } (ofString "false" ++ rest) =
      (Reader.take expect (.atom (.bool false))).bind fun reader => reader.run rest := rfl

/-- The colon behind a key. -/
theorem read_colonOf (members : List (Utf16 × Json)) (key : Utf16) (stack : List Frame)
    (rest : Utf16) :
    Reader.read { mode := .between, expect := .colonNext members key stack }
        (colonOf gap ++ rest) =
      Reader.read { mode := .between, expect := .valueNext (.object members key :: stack) }
        rest := by
  have colon : Expect.take (.colonNext members key stack) .colon =
      some (.valueNext (.object members key :: stack)) := rfl
  rw [colonOf]
  split
  next => exact read_punctuation rfl colon rest
  next => exact read_punctuation rfl colon (0x20 :: rest)

/-- A key is read as one. -/
theorem read_key {members : List (Utf16 × Json)} {stack : List Frame} {key : Utf16}
    (taken : expect.take (.string key) = some (.colonNext members key stack)) (rest : Utf16) :
    Reader.read { mode := .between, expect } (quote key ++ rest) =
      Reader.read { mode := .between, expect := .colonNext members key stack } rest := by
  rw [Reader.read, run_quote, Reader.take, taken]
  rfl

mutual

theorem read_render (blank : ∀ unit ∈ gap, isSpace unit = true) (value : Json)
    (proper : isProper value = true) {expect : Expect}
    {stack : List Frame} (takes : Takes expect stack) (depth : Nat) {rest : Utf16}
    (closed : Closed rest) :
    Reader.read { mode := .between, expect } (render gap depth value ++ rest) =
      Reader.read { mode := .between, expect := deliver value stack } rest := by
  match value with
  | .null => exact read_atom takes run_null rest
  | .bool true => exact read_atom takes run_true rest
  | .bool false => exact read_atom takes run_false rest
  | .number text =>
      rw [render, read_number proper closed, takes (.atom (.number text)) (by simp)]
      rfl
  | .string text => exact read_string takes text rest
  | .array [] =>
      have opened : expect.take .openBracket = some (.firstItem stack) :=
        takes .openBracket (by simp)
      have empty : Expect.take (.firstItem stack) .closeBracket =
          some (deliver (.array []) stack) := rfl
      exact (read_punctuation rfl opened (0x5D :: rest)).trans (read_punctuation rfl empty rest)
  | .array (item :: items) =>
      rw [isProper, areProper, Bool.and_eq_true] at proper
      have opened : expect.take .openBracket = some (.firstItem stack) :=
        takes .openBracket (by simp)
      have ended : Expect.take (.afterItem (item :: items) stack) .closeBracket =
          some (deliver (.array (item :: items)) stack) := rfl
      have closedAfter := @closed_breakLine gap _ (.inr (.inl rfl)) depth rest
      calc Reader.read { mode := .between, expect }
            (render gap depth (.array (item :: items)) ++ rest)
          = Reader.read { mode := .between, expect := .firstItem stack }
              (breakLine gap (depth + 1) ++ (render gap (depth + 1) item ++
                (renderItems gap (depth + 1) items ++ (breakLine gap depth ++ 0x5D :: rest)))) := by
            rw [render, List.cons_append, List.cons_append, List.cons_append, List.cons_append,
              List.cons_append, read_punctuation rfl opened]
            simp only [List.append_assoc, List.singleton_append]
        _ = Reader.read { mode := .between, expect := .afterItem [item] stack }
              (renderItems gap (depth + 1) items ++ (breakLine gap depth ++ 0x5D :: rest)) := by
            rw [read_spaces (blank_breakLine blank (depth + 1)),
              read_render blank item proper.1 (takes_firstItem stack) (depth + 1)
                (closed_renderItems closedAfter)]
            rfl
        _ = Reader.read { mode := .between, expect := .afterItem (item :: items) stack }
              (breakLine gap depth ++ 0x5D :: rest) :=
            read_renderItems blank items proper.2 [item] stack (depth + 1) closedAfter
        _ = Reader.read { mode := .between, expect := deliver (.array (item :: items)) stack }
              rest := by
            rw [read_spaces (blank_breakLine blank depth), read_punctuation rfl ended]
  | .object [] =>
      have opened : expect.take .openBrace = some (.firstMember stack) :=
        takes .openBrace (by simp)
      have empty : Expect.take (.firstMember stack) .closeBrace =
          some (deliver (.object []) stack) := rfl
      exact (read_punctuation rfl opened (0x7D :: rest)).trans (read_punctuation rfl empty rest)
  | .object ((key, item) :: members) =>
      rw [isProper, areProperMembers, Bool.and_eq_true] at proper
      have opened : expect.take .openBrace = some (.firstMember stack) :=
        takes .openBrace (by simp)
      have named : Expect.take (.firstMember stack) (.string key) =
          some (.colonNext [] key stack) := rfl
      have ended : Expect.take (.afterMember ((key, item) :: members) stack) .closeBrace =
          some (deliver (.object ((key, item) :: members)) stack) := rfl
      have closedAfter := @closed_breakLine gap _ (.inr (.inr rfl)) depth rest
      calc Reader.read { mode := .between, expect }
            (render gap depth (.object ((key, item) :: members)) ++ rest)
          = Reader.read { mode := .between, expect := .firstMember stack }
              (breakLine gap (depth + 1) ++ (quote key ++ (colonOf gap ++
                (render gap (depth + 1) item ++ (renderMembers gap (depth + 1) members ++
                  (breakLine gap depth ++ 0x7D :: rest)))))) := by
            rw [render]
            simp only [List.cons_append]
            rw [read_punctuation rfl opened]
            simp only [List.append_assoc, List.singleton_append]
        _ = Reader.read { mode := .between, expect := .valueNext (.object [] key :: stack) }
              (render gap (depth + 1) item ++ (renderMembers gap (depth + 1) members ++
                (breakLine gap depth ++ 0x7D :: rest))) := by
            rw [read_spaces (blank_breakLine blank (depth + 1)), read_key named, read_colonOf]
        _ = Reader.read { mode := .between, expect := .afterMember [(key, item)] stack }
              (renderMembers gap (depth + 1) members ++ (breakLine gap depth ++ 0x7D :: rest)) := by
            rw [read_render blank item proper.1 (takes_valueNext _) (depth + 1)
              (closed_renderMembers closedAfter)]
            rfl
        _ = Reader.read { mode := .between, expect := .afterMember ((key, item) :: members) stack }
              (breakLine gap depth ++ 0x7D :: rest) :=
            read_renderMembers blank members proper.2 [(key, item)] stack (depth + 1) closedAfter
        _ = Reader.read { mode := .between
                          expect := deliver (.object ((key, item) :: members)) stack } rest := by
            rw [read_spaces (blank_breakLine blank depth), read_punctuation rfl ended]

theorem read_renderItems (blank : ∀ unit ∈ gap, isSpace unit = true) (items : List Json)
    (proper : areProper items = true)
    (before : List Json) (stack : List Frame) (depth : Nat) {rest : Utf16}
    (closed : Closed rest) :
    Reader.read { mode := .between, expect := .afterItem before stack }
        (renderItems gap depth items ++ rest) =
      Reader.read { mode := .between, expect := .afterItem (before ++ items) stack } rest := by
  match items with
  | [] => rw [renderItems, List.append_nil, List.nil_append]
  | item :: items =>
      rw [areProper, Bool.and_eq_true] at proper
      have comma : Expect.take (.afterItem before stack) .comma =
          some (.valueNext (.array before :: stack)) := rfl
      rw [renderItems]
      simp only [List.cons_append, List.append_assoc]
      rw [read_punctuation rfl comma, read_spaces (blank_breakLine blank depth),
        read_render blank item proper.1 (takes_valueNext _) depth (closed_renderItems closed), deliver,
        read_renderItems blank items proper.2 (before ++ [item]) stack depth closed, List.append_assoc]
      rfl

theorem read_renderMembers (blank : ∀ unit ∈ gap, isSpace unit = true)
    (members : List (Utf16 × Json)) (proper : areProperMembers members = true)
    (before : List (Utf16 × Json))
    (stack : List Frame) (depth : Nat) {rest : Utf16} (closed : Closed rest) :
    Reader.read { mode := .between, expect := .afterMember before stack }
        (renderMembers gap depth members ++ rest) =
      Reader.read { mode := .between, expect := .afterMember (before ++ members) stack } rest := by
  match members with
  | [] => rw [renderMembers, List.append_nil, List.nil_append]
  | (key, item) :: members =>
      rw [areProperMembers, Bool.and_eq_true] at proper
      have comma : Expect.take (.afterMember before stack) .comma =
          some (.keyNext before stack) := rfl
      have named : Expect.take (.keyNext before stack) (.string key) =
          some (.colonNext before key stack) := rfl
      rw [renderMembers]
      simp only [List.cons_append, List.append_assoc]
      rw [read_punctuation rfl comma, read_spaces (blank_breakLine blank depth), read_key named,
        read_colonOf, read_render blank item proper.1 (takes_valueNext _) depth
          (closed_renderMembers closed), deliver,
        read_renderMembers blank members proper.2 (before ++ [(key, item)]) stack depth closed,
        List.append_assoc]
      rfl

end

/-- `JSON.parse(JSON.stringify(value, null, gap))` is the value. -/
theorem parse_render (blank : ∀ unit ∈ gap, isSpace unit = true) {value : Json} (proper : isProper value = true) :
    parse (render gap 0 value) = some value := by
  have ended : Closed [] := by
    intro unit first
    contradiction
  have whole := read_render blank value proper (takes_valueNext []) 0 ended
  rw [List.append_nil] at whole
  exact whole

end Read

theorem parse_stringify {value : Json} (proper : isProper value = true) :
    parse (stringify value) = some value := by
  apply parse_render _ proper
  intro unit inside
  contradiction

end Json
