import TitanRunner.Lib.JsonText
import TitanRunner.Orchestrator.OutputParser

/-!
# Reading files out of a task's answer

`orchestrator/envelopeParser.js`, the older of the two parsers.  Its expressions for fences, file
comments and trailing commas and its `normalizePath` are those of `outputParser.js`.
-/

namespace TitanRunner

namespace EnvelopeParser

open Utf16
open OutputParser (ExtractedFile normalizePath fenceBodies legacyFile stripTrailingCommas openBrace)

structure EnvelopeResult where
  tier : Option Nat
  files : List ExtractedFile
  notes : Utf16
  deriving DecidableEq, Repr

/-- All of what the parser can do failed. -/
def nothing : EnvelopeResult where
  tier := none
  files := []
  notes := []

def extractFileBlocks (text : Utf16) : List ExtractedFile :=
  if text.isEmpty then [] else (fenceBodies text).filterMap legacyFile

/-- An entry of the envelope with a path that is not blank, and a content. -/
def coerceFile (entry : Json) : Option ExtractedFile :=
  match (entry.member (ofString "path")).bind Json.string?,
      (entry.member (ofString "content")).bind Json.string? with
  | some path, some content =>
      if (Utf16.trim path).isEmpty then none else some { path := normalizePath path, content }
  | _, _ => none

/-- An envelope names some usable file. -/
def coerceEnvelope (candidate : Json) : Option EnvelopeResult :=
  match (candidate.member (ofString "files")).bind Json.array? with
  | none => none
  | some entries =>
      let files := entries.filterMap coerceFile
      if files.isEmpty then none
      else
        some {
          tier := none, files
          notes := ((candidate.member (ofString "notes")).bind Json.string?).getD [] }

def tryStrict (text : Utf16) : Option EnvelopeResult :=
  (fenceBodies text).findSome? fun block =>
    let body := Utf16.trim block
    if body.isEmpty then none
    else
      ((Json.parse body).bind coerceEnvelope).map fun envelope => { envelope with tier := some 1 }

/-- The scan of `extractBalancedObject` from an opening brace on. -/
def balancedFrom (depth : Nat) (inString escaped : Bool) : Utf16 → Option Utf16
  | [] => none
  | ch :: rest =>
      let goOn := fun depth inString escaped =>
        (balancedFrom depth inString escaped rest).map (ch :: ·)
      if inString then
        if escaped then goOn depth inString false
        else if ch == 0x5C then goOn depth inString true
        else if ch == 0x22 then goOn depth false escaped
        else goOn depth inString escaped
      else if ch == 0x22 then goOn depth true escaped
      else if ch == openBrace then goOn (depth + 1) inString escaped
      else if ch == 0x7D then
        if depth - 1 = 0 then some [ch] else goOn (depth - 1) inString escaped
      else goOn depth inString escaped

def extractBalancedObject (text : Utf16) : Option Utf16 :=
  balancedFrom 0 false false (text.dropWhile (· != openBrace))

def tryLenient (text : Utf16) : Option EnvelopeResult :=
  let repaired := (extractBalancedObject text).bind fun candidateSpan =>
    [candidateSpan, stripTrailingCommas candidateSpan].findSome? fun attempt =>
      ((Json.parse attempt).bind coerceEnvelope).map fun envelope => { envelope with tier := some 2 }
  repaired <|>
    let legacyFiles := extractFileBlocks text
    if legacyFiles.isEmpty then none else some { tier := some 2, files := legacyFiles, notes := [] }

def parseEnvelope (text : Utf16) : EnvelopeResult :=
  if text.isEmpty then nothing else ((tryStrict text) <|> tryLenient text).getD nothing

end EnvelopeParser

end TitanRunner
