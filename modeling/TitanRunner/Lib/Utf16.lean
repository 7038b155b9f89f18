import Mathlib.Data.List.Infix

/-!
# Strings as lists of UTF-16 code units

A string whose length, slices and equality are those of its code units, as in
languages that index strings by code unit.
-/

/-- A string, by code units. -/
abbrev Utf16 := List UInt16

instance : LawfulBEq Utf16 := inferInstanceAs (LawfulBEq (List UInt16))

namespace Utf16

/-- The one or two code units of a character. -/
def units (char : Char) : Utf16 :=
  if char.toNat < 0x10000 then [char.toNat.toUInt16]
  else
    let offset := char.toNat - 0x10000
    [(0xD800 + offset / 0x400).toUInt16, (0xDC00 + offset % 0x400).toUInt16]

def ofString (string : String) : Utf16 := string.toList.flatMap units

/-- A character of its own, or the replacement character for half of a surrogate pair. -/
def charOfUnit (unit : UInt16) : Char :=
  if 0xD800 ≤ unit && unit ≤ 0xDFFF then '\ufffd' else Char.ofNat unit.toNat

/-- The characters of a string, half a surrogate pair read as the replacement character. -/
def chars : Utf16 → List Char
  | [] => []
  | [unit] => [charOfUnit unit]
  | high :: low :: rest =>
      if 0xD800 ≤ high && high ≤ 0xDBFF && 0xDC00 ≤ low && low ≤ 0xDFFF then
        Char.ofNat (0x10000 + (high.toNat - 0xD800) * 0x400 + (low.toNat - 0xDC00)) :: chars rest
      else charOfUnit high :: chars (low :: rest)

def toText (text : Utf16) : String := String.ofList (chars text)

example : toText (ofString "a\u20ac😀") = "a\u20ac😀" := by decide

/-- White space and line terminators. -/
def isSpaceUnit (unit : UInt16) : Bool :=
  (0x9 ≤ unit && unit ≤ 0xD) || unit == 0x20 || unit == 0xA0 || unit == 0x1680 ||
    (0x2000 ≤ unit && unit ≤ 0x200A) || unit == 0x2028 || unit == 0x2029 || unit == 0x202F ||
    unit == 0x205F || unit == 0x3000 || unit == 0xFEFF

def isLineTerminator (unit : UInt16) : Bool :=
  unit == 0xA || unit == 0xD || unit == 0x2028 || unit == 0x2029

def isDigit (unit : UInt16) : Bool := 0x30 ≤ unit && unit ≤ 0x39

def isLower (unit : UInt16) : Bool := 0x61 ≤ unit && unit ≤ 0x7A

def isUpper (unit : UInt16) : Bool := 0x41 ≤ unit && unit ≤ 0x5A

def isAlnum (unit : UInt16) : Bool := isLower unit || isUpper unit || isDigit unit

/-- Letters, digits and the underscore. -/
def isWord (unit : UInt16) : Bool := isAlnum unit || unit == 0x5F

def lower (unit : UInt16) : UInt16 := if isUpper unit then unit + 0x20 else unit

/-- A unit that is no small letter is of its own case alone. -/
theorem eq_of_lower {unit other : UInt16} (same : lower unit = other)
    (noLetter : isLower other = false) : unit = other := by
  simp only [lower] at same
  cases upper : isUpper unit with
  | false => rwa [upper, if_neg Bool.false_ne_true] at same
  | true =>
      rw [upper, if_pos rfl] at same
      simp only [isUpper, Bool.and_eq_true, decide_eq_true_eq, UInt16.le_iff_toNat_le] at upper
      have least : 0x61 ≤ unit + 0x20 ∧ unit + 0x20 ≤ 0x7A := by
        simp only [UInt16.le_iff_toNat_le, UInt16.toNat_add, UInt16.reduceToNat] at upper ⊢
        omega
      have letter : isLower other = true := by
        rw [← same, isLower, Bool.and_eq_true, decide_eq_true_eq, decide_eq_true_eq]
        exact least
      rw [letter] at noLetter
      contradiction

def trim (text : Utf16) : Utf16 :=
  ((text.dropWhile isSpaceUnit).reverse.dropWhile isSpaceUnit).reverse

/-- The text after the first occurrence of `wanted`, with the text before it. -/
def splitFirst (wanted : Utf16) : Utf16 → Option (Utf16 × Utf16)
  | [] => if wanted.isEmpty then some ([], []) else none
  | unit :: rest =>
      match wanted.isPrefixOf? (unit :: rest) with
      | some after => some ([], after)
      | none => (splitFirst wanted rest).map fun (before, after) => (unit :: before, after)

/-- The pieces between the occurrences of a code unit. -/
def split (at' : UInt16) : Utf16 → List Utf16
  | [] => [[]]
  | unit :: rest =>
      if unit = at' then [] :: split at' rest
      else
        match split at' rest with
        | [] => [[unit]]
        | piece :: pieces => (unit :: piece) :: pieces

def join (between : Utf16) (pieces : List Utf16) : Utf16 := between.intercalate pieces

/-- Decimal digits. -/
def ofNat (number : Nat) : Utf16 := ofString (toString number)

end Utf16
