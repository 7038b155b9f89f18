import TitanRunner.Lib.JsonText

/-!
# Texts as parts of an address

`encodeURIComponent`: letters, digits and a few marks stay, and every other character becomes the
escapes of its bytes.
-/

namespace UriComponent

open Utf16

/-- The bytes of a character. -/
def bytesOf (code : Nat) : List Nat :=
  if code < 0x80 then [code]
  else if code < 0x800 then [0xC0 + code / 64, 0x80 + code % 64]
  else if code < 0x10000 then [0xE0 + code / 4096, 0x80 + code / 64 % 64, 0x80 + code % 64]
  else [0xF0 + code / 262144, 0x80 + code / 4096 % 64, 0x80 + code / 64 % 64, 0x80 + code % 64]

/-- An upper case hexadecimal digit. -/
def hexDigit (value : Nat) : UInt16 := UInt16.ofNat (if value < 10 then 0x30 + value else 0x37 + value)

def escapeByte (byte : Nat) : Utf16 := [0x25, hexDigit (byte / 16 % 16), hexDigit (byte % 16)]

def escape (code : Nat) : Utf16 := (bytesOf code).flatMap escapeByte

/-- The code of a surrogate pair. -/
def pairCode (high low : UInt16) : Nat :=
  0x10000 + (high.toNat - 0xD800) * 0x400 + (low.toNat - 0xDC00)

/-- The units that stay. -/
def isUnreserved (unit : UInt16) : Bool :=
  isAlnum unit || unit == 0x2D || unit == 0x5F || unit == 0x2E || unit == 0x21 || unit == 0x7E ||
    unit == 0x2A || unit == 0x27 || unit == 0x28 || unit == 0x29

/-- `encodeURIComponent`; `none` is its exception, of half a surrogate pair. -/
def encodeURIComponent : Utf16 → Option Utf16
  | [] => some []
  | [unit] =>
      if isUnreserved unit then some [unit]
      else if Json.isHigh unit || Json.isLow unit then none
      else some (escape unit.toNat)
  | high :: low :: rest =>
      if isUnreserved high then (encodeURIComponent (low :: rest)).map (high :: ·)
      else if Json.isHigh high then
        if Json.isLow low then (encodeURIComponent rest).map (escape (pairCode high low) ++ ·)
        else none
      else if Json.isLow high then none
      else (encodeURIComponent (low :: rest)).map (escape high.toNat ++ ·)

example : encodeURIComponent (ofString "a b/é😀") = some (ofString "a%20b%2F%C3%A9%F0%9F%98%80") := by
  decide

/-- The code of a unit that is no pair; half a pair is replaced. -/
def loneCode (unit : UInt16) : Nat :=
  if Json.isHigh unit || Json.isLow unit then 0xFFFD else unit.toNat

/-- The text with its characters escaped, but for the units that stay. -/
def percentEncode (stays : UInt16 → Bool) : Utf16 → Utf16
  | [] => []
  | [unit] => if stays unit then [unit] else escape (loneCode unit)
  | high :: low :: rest =>
      if stays high then high :: percentEncode stays (low :: rest)
      else if Json.isHigh high && Json.isLow low then
        escape (pairCode high low) ++ percentEncode stays rest
      else escape (loneCode high) ++ percentEncode stays (low :: rest)

/-- What an encoded text is made of. -/
def isEncoded (unit : UInt16) : Bool := isUnreserved unit || unit == 0x25

theorem isEncoded_hexDigit {value : Nat} (small : value < 16) : isEncoded (hexDigit value) = true := by
  have every : ∀ value : Fin 16, isEncoded (hexDigit value) = true := by decide
  exact every ⟨value, small⟩

theorem isEncoded_escape {code : Nat} : ∀ unit ∈ escape code, isEncoded unit = true := by
  intro unit inside
  obtain ⟨byte, _, here⟩ := List.mem_flatMap.1 inside
  simp only [escapeByte, List.mem_cons, List.not_mem_nil, or_false] at here
  obtain rfl | rfl | rfl := here
  · decide
  · exact isEncoded_hexDigit (Nat.mod_lt _ (by decide))
  · exact isEncoded_hexDigit (Nat.mod_lt _ (by decide))

theorem isEncoded_of_isUnreserved {unit : UInt16} (stays : isUnreserved unit = true) :
    isEncoded unit = true := by
  rw [isEncoded, stays, Bool.true_or]

theorem isEncoded_of_encode {text encoded : Utf16}
    (made : encodeURIComponent text = some encoded) : ∀ unit ∈ encoded, isEncoded unit = true := by
  fun_induction encodeURIComponent text generalizing encoded with
  | case1 =>
      cases made
      intro unit inside
      contradiction
  | case2 unit stays =>
      cases made
      exact List.forall_mem_singleton.2 (isEncoded_of_isUnreserved stays)
  | case3 => contradiction
  | case4 =>
      cases made
      exact isEncoded_escape
  | case5 high low rest stays ih =>
      obtain ⟨later, further, same⟩ := Option.map_eq_some_iff.1 made
      subst same
      exact List.forall_mem_cons.2 ⟨isEncoded_of_isUnreserved stays, ih further⟩
  | case6 high low rest _ _ _ ih | case9 high low rest _ _ _ ih =>
      obtain ⟨later, further, same⟩ := Option.map_eq_some_iff.1 made
      subst same
      exact List.forall_mem_append.2 ⟨isEncoded_escape, ih further⟩
  | case7 => contradiction
  | case8 => contradiction

section PercentEncode

variable {stays : UInt16 → Bool}

theorem percentEncode_of_stays {text : Utf16} (every : ∀ unit ∈ text, stays unit = true) :
    percentEncode stays text = text := by
  fun_induction percentEncode stays text with
  | case1 => rfl
  | case2 => rfl
  | case3 unit other => exact absurd (every unit List.mem_cons_self) other
  | case4 high low rest _ ih => rw [ih fun unit inside => every unit (List.mem_cons_of_mem _ inside)]
  | case5 high low rest other => exact absurd (every high List.mem_cons_self) other
  | case6 high low rest other => exact absurd (every high List.mem_cons_self) other

theorem mem_percentEncode {text : Utf16} {unit : UInt16}
    (inside : unit ∈ percentEncode stays text) :
    (stays unit = true ∧ unit ∈ text) ∨ isEncoded unit = true := by
  fun_induction percentEncode stays text with
  | case1 => contradiction
  | case2 _ plain =>
      rw [List.mem_singleton.1 inside]
      exact .inl ⟨plain, List.mem_cons_self⟩
  | case3 => exact .inr (isEncoded_escape unit inside)
  | case4 high low rest plain ih =>
      cases List.mem_cons.1 inside with
      | inl here =>
          rw [here]
          exact .inl ⟨plain, List.mem_cons_self⟩
      | inr later => exact (ih later).imp_left fun kept => ⟨kept.1, List.mem_cons_of_mem _ kept.2⟩
  | case5 high low rest _ _ ih =>
      cases List.mem_append.1 inside with
      | inl here => exact .inr (isEncoded_escape unit here)
      | inr later =>
          exact (ih later).imp_left fun kept =>
            ⟨kept.1, List.mem_cons_of_mem _ (List.mem_cons_of_mem _ kept.2)⟩
  | case6 high low rest _ _ ih =>
      cases List.mem_append.1 inside with
      | inl here => exact .inr (isEncoded_escape unit here)
      | inr later => exact (ih later).imp_left fun kept => ⟨kept.1, List.mem_cons_of_mem _ kept.2⟩

end PercentEncode

end UriComponent
