import TitanRunner.Lib.Regex

/-!
# Redaction

`lib/redact.js#redactString`: every credential-shaped or address-shaped substring is
replaced before a string reaches a state file.  The patterns stand in the order of
`SECRET_PATTERNS`, which is the order they are applied in.
-/

namespace TitanRunner

namespace Redact

open Regex Utf16

/-- `[A-Za-z0-9` and the units of `extra` `]`. -/
def alnumOr (extra : String) (unit : UInt16) : Bool := isAlnum unit || among extra unit

/-- Anything but white space and the units of `extra`. -/
def visibleBut (extra : String) (unit : UInt16) : Bool := !isSpaceUnit unit && !among extra unit

def isHex (unit : UInt16) : Bool :=
  isDigit unit || (0x61 ≤ unit && unit ≤ 0x66) || (0x41 ≤ unit && unit ≤ 0x46)

/-- `\b`, a literal, and at least `least` units of a class. -/
def token (literal : String) (class' : UInt16 → Bool) (least : Nat) : Regex :=
  seqs [.wordBoundary, text literal, atLeast class' least]

def githubClassic : Regex :=
  seqs [.wordBoundary, text "gh", .oneOf (among "pousr"), text "_", atLeast isAlnum 16]

def slackToken : Regex :=
  seqs [.wordBoundary, text "xox", .oneOf (among "abposr"), text "-", atLeast (alnumOr "-") 10]

def bearer : Regex :=
  seqs [.wordBoundary, textNoCase "bearer", atLeast isSpaceUnit 1, atLeast (alnumOr "._~+/=-") 8]

def authorizationHeader : Regex :=
  seqs [.wordBoundary, textNoCase "authorization", maybe (.oneOf (among "\"'")), star isSpaceUnit,
    .oneOf (among ":="), star isSpaceUnit, maybe (.oneOf (among "\"'")),
    atLeast (visibleBut "\"',\x7d") 8]

def urlParameter : Regex :=
  let separator := maybe (.oneOf (among "_-"))
  seqs [.wordBoundary,
    alts [seqs [textNoCase "api", separator, textNoCase "key"],
      seqs [textNoCase "access", separator, textNoCase "token"],
      textNoCase "token", textNoCase "secret"],
    text "=", atLeast (visibleBut "&\"'\x7b\x7d") 8]

def telegramToken : Regex :=
  seqs [.wordBoundary, .repeat' isDigit 8 (some 10) false, text ":", exactly (alnumOr "_-") 35,
    .wordBoundary]

def linearKey : Regex :=
  seqs [.wordBoundary, text "lin_", alts [text "api", text "oauth"], text "_", atLeast isAlnum 32,
    .wordBoundary]

def slackWebhook : Regex :=
  let upper := fun unit => isUpper unit || isDigit unit
  seqs [text "https://hooks.slack.com/services/T", atLeast upper 1, text "/B", atLeast upper 1,
    text "/", atLeast isAlnum 16]

def discordWebhook : Regex :=
  seqs [text "https://", maybe (alts [text "ptb.", text "canary."]), text "discord",
    maybe (text "app"), text ".com/api/webhooks/", atLeast isDigit 15, text "/",
    atLeast (alnumOr "_-") 20]

def ntfyTopic : Regex :=
  seqs [text "http", maybe (text "s"), text "://ntfy.sh/", atLeast (alnumOr "_-") 6]

def emailAddress : Regex :=
  seqs [.wordBoundary, atLeast (alnumOr "._%+-") 1, text "@", atLeast (alnumOr ".-") 1, text ".",
    atLeast (fun unit => isLower unit || isUpper unit) 2, .wordBoundary]

def longBase64 : Regex :=
  seqs [.wordBoundary, atLeast (alnumOr "+/") 32, .repeat' (among "=") 0 (some 2) false,
    .wordBoundary]

def longHex : Regex := seqs [.wordBoundary, atLeast isHex 32, .wordBoundary]

/-- `SECRET_PATTERNS`. -/
def secretPatterns : List Regex := [
  githubClassic,
  token "github_pat_" isWord 20,
  token "gsk_" isAlnum 20,
  token "hf_" isAlnum 16,
  token "sk-or-v1-" (alnumOr "_-") 16,
  token "sk-ant-" (alnumOr "_-") 16,
  token "sk-" (alnumOr "_-") 16,
  token "AIza" (alnumOr "_-") 16,
  token "AQ." (alnumOr "_-") 20,
  slackToken,
  bearer,
  authorizationHeader,
  urlParameter,
  telegramToken,
  seqs [.wordBoundary, text "secret_", exactly isAlnum 43, .wordBoundary],
  seqs [token "ntn_" isAlnum 30, .wordBoundary],
  linearKey,
  slackWebhook,
  discordWebhook,
  ntfyTopic,
  token "GOCSPX-" (alnumOr "_-") 20,
  token "titan_mcp_" (alnumOr "_-") 40,
  seqs [token "rnd_" isAlnum 20, .wordBoundary],
  emailAddress,
  longBase64,
  longHex]

/-- `MASK`. -/
def mask : Utf16 := ofString "[REDACTED]"

def redactString (string : Utf16) : Utf16 :=
  secretPatterns.foldl (fun out pattern => pattern.replaceAll (fun _ => mask) out) string

/-- `redactString` of a string that is kept by characters. -/
@[irreducible] def redactText (string : String) : String := toText (redactString (ofString string))

end Redact

end TitanRunner
