import TitanRunner.Lib.Json
import TitanRunner.Lib.Regex

/-!
# Reading files out of a model's answer

`lib/jsonRepair.js` and `orchestrator/outputParser.js`: a strict JSON envelope, then
any balanced object with its trailing commas stripped, then fenced blocks that start
with a `file:` comment.  `JSON.parse` is a parameter; `none` is its exception.  The
synthesizer passes no repair callback, so there is no third tier.
-/

namespace TitanRunner

namespace OutputParser

open Regex Utf16

/-- The back quote. -/
def backquote : UInt16 := 0x60

def openBrace : UInt16 := 0x7B

/-- `FENCE_RE`; the captures are the language tag and the body. -/
def fence : Regex :=
  let quotes := Regex.exactly (· == backquote) 3
  seqs [quotes, .capture (star fun unit => unit != 0xA && unit != backquote), lit 0xA,
    .capture (lazyStar fun _ => true), quotes]

/-- `,(\s*[}\]])`. -/
def trailingComma : Regex :=
  seqs [text ",", .capture (seqs [star isSpaceUnit, .oneOf (among "\x7d]")])]

def stripTrailingCommas (json : Utf16) : Utf16 :=
  trailingComma.replaceAll (fun captures => captures.headD []) json

/-- The scan of `extractBalancedObject` from an opening brace on: the object's text. -/
def balancedFrom (depth : Nat) (inString escapeNext : Bool) : Utf16 → Option Utf16
  | [] => none
  | unit :: rest =>
      let goOn := fun depth inString escapeNext =>
        (balancedFrom depth inString escapeNext rest).map (unit :: ·)
      if escapeNext then goOn depth inString false
      else if unit == 0x5C && inString then goOn depth inString true
      else if unit == 0x22 then goOn depth (!inString) false
      else if inString then goOn depth inString false
      else if unit == openBrace then goOn (depth + 1) inString false
      else if unit == 0x7D then
        if depth = 1 then some [unit] else goOn (depth - 1) inString false
      else goOn depth inString false

/-- `extractBalancedObject`, from the start of the text. -/
def extractBalancedObject (text : Utf16) : Option Utf16 :=
  balancedFrom 0 false false (text.dropWhile (· != openBrace))

structure ExtractedFile where
  path : Utf16
  content : Utf16
  deriving DecidableEq, Repr

/-- What `parseTaskOutput` resolves to, short of the envelope's notes. -/
structure ParseResult where
  tier : Option Nat
  files : List ExtractedFile
  malformed : Bool
  deriving DecidableEq, Repr

def normalizePath (raw : Utf16) : Utf16 :=
  let clean := raw.map fun unit => if unit == 0x5C then 0x2F else unit
  let parts := (split 0x2F clean).filter fun segment =>
    !segment.isEmpty && segment != ofString "." && segment != ofString ".."
  if parts.isEmpty then ofString "untitled-file.txt" else join [0x2F] parts

/-- An entry of the envelope that names a path and a content. -/
def coerceFile (entry : Json) : Option ExtractedFile :=
  match (entry.member (ofString "path")).bind Json.string?,
      (entry.member (ofString "content")).bind Json.string? with
  | some path, some content => some { path := normalizePath path, content }
  | _, _ => none

def coerceEnvelope (candidate : Json) : Option (List ExtractedFile) :=
  ((candidate.member (ofString "files")).bind Json.array?).map (List.filterMap coerceFile)

/-- `FILE_COMMENT_RE`, one expression for each comment style. -/
def fileComment : Regex :=
  let anything := fun unit => !Utf16.isLineTerminator unit
  let path := Regex.capture (.repeat' anything 1 none true)
  let marker := alts [text "//", text "#", text "--", text ";", text "%"]
  alts [
    seqs [.start, star isSpaceUnit, marker, star isSpaceUnit, textNoCase "file:", star isSpaceUnit, path,
      star isSpaceUnit, .stop],
    seqs [.start, star isSpaceUnit, text "<!--", star isSpaceUnit, textNoCase "file:", star isSpaceUnit, path,
      star isSpaceUnit, text "-->", star isSpaceUnit, .stop]]

/-- One fenced block of the old convention. -/
def legacyFile (body : Utf16) : Option ExtractedFile :=
  let first := body.takeWhile (· != 0xA)
  let rest := (body.dropWhile (· != 0xA)).drop 1
  (fileComment.matchAt none first).map fun found =>
    { path := normalizePath (Utf16.trim (found.captures.headD [])), content := rest }

def fenceBodies (text : Utf16) : List Utf16 :=
  (fence.matches' text).map fun captures => captures.getD 1 []

def extractLegacyFileBlocks (text : Utf16) : List ExtractedFile :=
  (fenceBodies text).filterMap legacyFile

def looksLikeAttemptedEnvelope (answer : Utf16) : Bool :=
  let quote := Regex.oneOf (among "'\"")
  (seqs [quote, textNoCase "files", quote, star isSpaceUnit, text ":", star isSpaceUnit,
      text "["]).test answer ||
    (seqs [Regex.exactly (· == backquote) 3, textNoCase "json"]).test answer ||
    (seqs [.wordBoundary, textNoCase "file:", star isSpaceUnit,
      .oneOf fun unit => !isSpaceUnit unit]).test answer

section Parse

variable (parseJson : Utf16 → Option Json)

/-- `tryStrictJson` with `coerceEnvelope`. -/
def tryStrict (text : Utf16) : Option (List ExtractedFile) :=
  (fenceBodies text ++ [text]).findSome? fun candidate =>
    let trimmed := Utf16.trim candidate
    if trimmed.head? = some openBrace then (parseJson trimmed).bind coerceEnvelope else none

/-- `tryLenientJson` with `coerceEnvelope`: each opening brace in turn, until one is
never closed. -/
def tryLenientJson : Utf16 → Option (List ExtractedFile)
  | [] => none
  | unit :: rest =>
      if unit = openBrace then
        match extractBalancedObject (unit :: rest) with
        | none => none
        | some raw =>
            ((parseJson (stripTrailingCommas raw)).bind coerceEnvelope) <|> tryLenientJson rest
      else tryLenientJson rest

def tryLenient (text : Utf16) : Option (List ExtractedFile) :=
  tryLenientJson parseJson text <|>
    let legacy := extractLegacyFileBlocks text
    if legacy.isEmpty then none else some legacy

def parseTaskOutput (text : Utf16) : ParseResult :=
  if text.isEmpty then { tier := none, files := [], malformed := false }
  else
    match tryStrict parseJson text with
    | some files => { tier := some 1, files, malformed := false }
    | none =>
        match tryLenient parseJson text with
        | some files => { tier := some 2, files, malformed := false }
        | none => { tier := none, files := [], malformed := looksLikeAttemptedEnvelope text }

end Parse

end OutputParser

end TitanRunner
