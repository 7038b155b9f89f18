import TitanRunner.Orchestrator.EnvelopeParser

/-!
# The gate for a model's answer

`reliability/outputRepair.js`: an answer that is empty, a refusal or a broken envelope is not
taken as the result of a task.
-/

namespace TitanRunner

namespace OutputRepair

open Regex Utf16
open OutputParser (backquote)

inductive Code where
  | emptyOutput | refusal | malformedOutput
  deriving DecidableEq, Repr

inductive Verdict where
  | ok
  | failed (code : Code) (message : String)
  deriving DecidableEq, Repr

/-- `REFUSAL_PATTERNS`. -/
def refusalPatterns : List Regex :=
  let anything := fun unit => !Utf16.isLineTerminator unit
  [
    seqs [.start, star isSpaceUnit, alts [
      seqs [textNoCase "i", .oneOf (among "'\u2019"), textNoCase "m sorry"],
      textNoCase "i am sorry", textNoCase "sorry,"]],
    seqs [.wordBoundary, alts [
        seqs [textNoCase "i can", alts [textNoCase "no", textNoCase "'"], textNoCase "t"],
        textNoCase "i cannot", textNoCase "i am unable to", textNoCase "i'm unable to",
        textNoCase "unable to"],
      textNoCase " ", alts [
        textNoCase "help", textNoCase "assist", textNoCase "comply", textNoCase "do that",
        textNoCase "provide"]],
    seqs [.wordBoundary, textNoCase "as an ai ", maybe (textNoCase "language "), textNoCase "model",
      .wordBoundary, star anything, .wordBoundary,
      alts [textNoCase "cannot", textNoCase "can't", textNoCase "unable"]]]

def minUsefulChars : Nat := 2

def looksLikeAttemptedEnvelope (text : Utf16) : Bool :=
  let quote := Regex.oneOf (among "'\"")
  (seqs [quote, textNoCase "files", quote, star isSpaceUnit, Regex.text ":", star isSpaceUnit,
      Regex.text "["]).test text ||
    (seqs [Regex.exactly (· == backquote) 3, textNoCase "json"]).test text ||
    (seqs [.wordBoundary, textNoCase "file:", star isSpaceUnit,
      .oneOf fun unit => !isSpaceUnit unit]).test text

/-- `none` is an answer that is no string. -/
def validateSubtaskOutput (output : Option Utf16) : Verdict :=
  let text := output.getD []
  if (Utf16.trim text).length < minUsefulChars then
    .failed .emptyOutput "the model returned an empty or near-empty answer"
  else
    let head := text.take 400
    if refusalPatterns.any (·.test head) then
      .failed .refusal "the model declined the task instead of doing it"
    else if looksLikeAttemptedEnvelope text then
      let parsed := EnvelopeParser.parseEnvelope text
      if parsed.tier = none then
        .failed .malformedOutput
          "the output tried to be a files envelope but could not be parsed"
      else .ok
    else .ok

end OutputRepair

end TitanRunner
