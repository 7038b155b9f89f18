import TitanRunner.Lib.Utf16

/-!
# Bytes to text

The UTF-8 decoder of the Encoding Standard, one byte at a time: what is no character becomes the
replacement character, and a byte that ends an unfinished character begins the next one.  A
`TextDecoder` keeps the unfinished character from one call to the next.
-/

namespace Utf8

/-- How far the decoder is in a character, and which bytes can go on. -/
structure Decoder where
  codePoint : Nat := 0
  bytesNeeded : Nat := 0
  lower : UInt8 := 0x80
  upper : UInt8 := 0xBF
  deriving DecidableEq, Repr

/-- Between two characters. -/
def Decoder.ready : Decoder := {}

def replacement : UInt16 := 0xFFFD

/-- The first byte of a character. -/
def lead (byte : UInt8) : Decoder × Utf16 :=
  if byte ≤ 0x7F then (.ready, [byte.toUInt16])
  else if 0xC2 ≤ byte && byte ≤ 0xDF then
    ({ codePoint := (byte &&& 0x1F).toNat, bytesNeeded := 1 }, [])
  else if 0xE0 ≤ byte && byte ≤ 0xEF then
    ({
      codePoint := (byte &&& 0xF).toNat
      bytesNeeded := 2
      lower := if byte = 0xE0 then 0xA0 else 0x80
      upper := if byte = 0xED then 0x9F else 0xBF }, [])
  else if 0xF0 ≤ byte && byte ≤ 0xF4 then
    ({
      codePoint := (byte &&& 0x7).toNat
      bytesNeeded := 3
      lower := if byte = 0xF0 then 0x90 else 0x80
      upper := if byte = 0xF4 then 0x8F else 0xBF }, [])
  else (.ready, [replacement])

namespace Decoder

/-- One byte. -/
def push (decoder : Decoder) (byte : UInt8) : Decoder × Utf16 :=
  if decoder.bytesNeeded = 0 then lead byte
  else if decoder.lower ≤ byte && byte ≤ decoder.upper then
    let codePoint := decoder.codePoint * 64 + (byte &&& 0x3F).toNat
    if decoder.bytesNeeded = 1 then (.ready, Utf16.units (Char.ofNat codePoint))
    else ({ codePoint, bytesNeeded := decoder.bytesNeeded - 1 }, [])
  else
    -- The byte is no part of this character.
    let led := lead byte
    (led.1, replacement :: led.2)

/-- A chunk of bytes, with the text of the characters that end in it. -/
def feed (decoder : Decoder) : List UInt8 → Decoder × Utf16
  | [] => (decoder, [])
  | byte :: rest =>
      let pushed := decoder.push byte
      let fed := feed pushed.1 rest
      (fed.1, pushed.2 ++ fed.2)

/-- What the end of the bytes makes of an unfinished character. -/
def flush (decoder : Decoder) : Utf16 := if decoder.bytesNeeded = 0 then [] else [replacement]

/-- Chunks are decoded as one: the decoder carries over where they are cut. -/
theorem feed_append (decoder : Decoder) (bytes more : List UInt8) :
    decoder.feed (bytes ++ more) =
      (((decoder.feed bytes).1.feed more).1,
        (decoder.feed bytes).2 ++ ((decoder.feed bytes).1.feed more).2) := by
  induction bytes generalizing decoder with
  | nil => rfl
  | cons byte rest ih => simp only [List.cons_append, feed, ih, List.append_assoc]

end Decoder

/-! ## The mark at the beginning -/

def byteOrderMark : UInt16 := 0xFEFF

/-- A text without the mark it begins with. -/
def stripMark : Utf16 → Utf16
  | [] => []
  | unit :: rest => if unit = byteOrderMark then rest else unit :: rest

/-- The texts are the same but for a mark at the beginning of the first. -/
def Marked (text stripped : Utf16) : Prop := text = stripped ∨ text = byteOrderMark :: stripped

theorem marked_stripMark (text : Utf16) : Marked text (stripMark text) := by
  cases text with
  | nil => exact .inl rfl
  | cons unit rest =>
      rw [stripMark]
      split
      next mark => exact .inr (mark ▸ rfl)
      next => exact .inl rfl

theorem Marked.append {text stripped : Utf16} (marked : Marked text stripped) (more : Utf16) :
    Marked (text ++ more) (stripped ++ more) := by
  cases marked with
  | inl same => exact .inl (same ▸ rfl)
  | inr mark => exact .inr (mark ▸ rfl)

/-- `new TextDecoder().decode(bytes)` -/
def decode (bytes : List UInt8) : Utf16 :=
  let fed := Decoder.ready.feed bytes
  stripMark (fed.2 ++ fed.1.flush)

example : decode [0xEF, 0xBB, 0xBF, 0xE2, 0x82, 0xAC, 0xF0, 0x9F, 0x98, 0x80, 0xE2, 0x61, 0xC3] =
    Utf16.ofString "€😀\ufffda\ufffd" := by decide

/-! ## Chunk by chunk -/

structure TextDecoder where
  within : Decoder := .ready
  /-- The first character has come, and was stripped if it was the mark. -/
  bomSeen : Bool := false
  deriving DecidableEq, Repr

/-- `decode(chunk, { stream: true })` -/
def TextDecoder.decode (decoder : TextDecoder) (chunk : List UInt8) : TextDecoder × Utf16 :=
  let fed := decoder.within.feed chunk
  if decoder.bomSeen || fed.2.isEmpty then ({ decoder with within := fed.1 }, fed.2)
  else ({ within := fed.1, bomSeen := true }, stripMark fed.2)

section TextDecoder

variable {decoder : TextDecoder} {chunk : List UInt8}

/-- No character has come before, or the text of a chunk is what its bytes are decoded to. -/
theorem TextDecoder.decode_text :
    (decoder.decode chunk).2 = (decoder.within.feed chunk).2 ∨
      decoder.bomSeen = false ∧ Marked (decoder.within.feed chunk).2 (decoder.decode chunk).2 := by
  rw [TextDecoder.decode]
  split
  next => exact .inl rfl
  next still =>
    rw [Bool.or_eq_true, not_or] at still
    exact .inr ⟨by simpa using still.1, marked_stripMark _⟩

/-- As long as no character has come, none did before, and the chunk ends none. -/
theorem TextDecoder.decode_bomSeen (unseen : (decoder.decode chunk).1.bomSeen = false) :
    decoder.bomSeen = false ∧ (decoder.within.feed chunk).2 = [] := by
  rw [TextDecoder.decode] at unseen
  split at unseen
  next kept =>
    have same : decoder.bomSeen = false := unseen
    rw [same, Bool.false_or] at kept
    exact ⟨same, List.isEmpty_iff.1 kept⟩
  next => contradiction

end TextDecoder

end Utf8
