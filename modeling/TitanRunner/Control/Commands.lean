import Mathlib.Data.List.Basic

/-!
# The `/titan …` command grammar

`control/commands.js`: only the first non-blank line of a comment can be a
command, and only a verb of the fixed table with exactly as many plain tokens as
the verb takes.  A body is a list of characters; the expressions of the source are
spelled out as the scans they perform.
-/

namespace TitanRunner

/-- The verbs of the `COMMANDS` table. -/
inductive Verb where
  | retry | cancel | pause | resume | priority | approve | deny
  deriving DecidableEq, Repr

namespace Verb

/-- `COMMANDS[verb].args`. -/
def args : Verb → Nat
  | retry | cancel | pause | resume => 0
  | priority | approve | deny => 1

/-- The own keys of `COMMANDS`. -/
def ofName? : String → Option Verb
  | "retry" => some retry
  | "cancel" => some cancel
  | "pause" => some pause
  | "resume" => some resume
  | "priority" => some priority
  | "approve" => some approve
  | "deny" => some deny
  | _ => none

end Verb

structure Command where
  verb : Verb
  args : List String
  deriving DecidableEq, Repr

/-- White space and line terminators: what `\s` matches and `trim` removes. -/
def isSpace (char : Char) : Bool :=
  ['\t', '\n', '\x0b', '\x0c', '\r', ' ', '\u00a0', '\u1680', '\u2028', '\u2029',
    '\u202f', '\u205f', '\u3000', '\ufeff'].contains char ||
  (0x2000 ≤ char.toNat && char.toNat ≤ 0x200a)

/-- What `.` does not match. -/
def isLineTerminator (char : Char) : Bool :=
  ['\n', '\r', '\u2028', '\u2029'].contains char

def trim (text : List Char) : List Char :=
  ((text.dropWhile isSpace).reverse.dropWhile isSpace).reverse

/-- `text.split(/\s+/).filter(Boolean)`. -/
def words (text : List Char) : List (List Char) :=
  (text.splitOnP isSpace).filter (· ≠ [])

/-- `ARG_PATTERN`. -/
def isArgument (text : List Char) : Bool :=
  match text with
  | [] => false
  | first :: rest =>
      first.isAlphanum && decide (rest.length ≤ 63) &&
        rest.all fun char => char.isAlphanum || [':', '_', '.', '-'].contains char

/-- `DASHBOARD_RETRY_MARKER`. -/
def dashboardRetryMarker : String :=
  "**Retry requested** from the TITAN-Runner dashboard"

def firstLine (body : String) : List Char :=
  (((body.toList.splitOn '\n').map trim).find? (· ≠ [])).getD []

/-- The match of `/^\/titan\s+([a-z]+)(?:\s+(.*))?$/i`: the verb's letters and the
text of the arguments. -/
def matchTitan (line : List Char) : Option (List Char × List Char) :=
  if (line.take 6).map Char.toLower ≠ "/titan".toList then none
  else
    match line.drop 6 with
    | [] => none
    | gap :: rest =>
        if isSpace gap = false then none
        else
          let rest := rest.dropWhile isSpace
          let verb := rest.takeWhile Char.isAlpha
          if verb = [] then none
          else
            match rest.dropWhile Char.isAlpha with
            | [] => some (verb, [])
            | gap :: rest =>
                if isSpace gap = false then none
                else
                  let args := rest.dropWhile isSpace
                  if args.any isLineTerminator then none else some (verb, args)

/-- `parseTitanCommand`. -/
def parseTitanCommand (body : String) : Option Command :=
  let line := firstLine body
  if dashboardRetryMarker.toList.isPrefixOf line then some ⟨.retry, []⟩
  else
    match matchTitan line with
    | none => none
    | some (name, rest) =>
        match Verb.ofName? (String.ofList (name.map Char.toLower)) with
        | none => none
        | some verb =>
            let args := words (trim rest)
            if args.length ≠ verb.args then none
            else if args.all isArgument = false then none
            else some ⟨verb, args.map String.ofList⟩

/-- A command that is accepted is well formed: as many arguments as its verb takes,
each a plain bounded token. -/
theorem parseTitanCommand_wellFormed {body : String} {command : Command}
    (parsed : parseTitanCommand body = some command) :
    command.args.length = command.verb.args ∧
      ∀ arg ∈ command.args, isArgument arg.toList = true := by
  unfold parseTitanCommand at parsed
  dsimp only at parsed
  split at parsed
  · cases parsed
    exact ⟨rfl, by simp⟩
  · split at parsed
    · contradiction
    · split at parsed
      · contradiction
      · split at parsed
        · contradiction
        next count =>
          split at parsed
          · contradiction
          next plain =>
            cases parsed
            refine ⟨by simpa using count, fun arg member => ?_⟩
            obtain ⟨token, tokenMem, rfl⟩ := List.mem_map.mp member
            simp only [Bool.not_eq_false, List.all_eq_true] at plain
            simpa using plain token tokenMem

end TitanRunner
