import Mathlib.Data.Rat.Defs
import TitanRunner.Control.Commands
import TitanRunner.Lib.KeyedList

/-!
# The YAML subset of the config files

`lib/miniYaml.js`: top-level scalars, lists of scalars and maps of scalars, one line at a
time.  Anything else is an error with its line.
-/

namespace TitanRunner

namespace MiniYaml

/-- `YamlSubsetError`. -/
structure YamlError where
  line : Nat
  problem : String
  deriving DecidableEq, Repr

inductive Scalar where
  | null
  | bool (value : Bool)
  | number (value : Rat)
  | string (text : String)
  deriving DecidableEq, Repr

inductive Value where
  | scalar (value : Scalar)
  | list (items : List Scalar)
  | map (entries : List (String × Scalar))
  deriving DecidableEq, Repr

/-- The object the parser fills; a key is written once. -/
abbrev Document := List (String × Value)

def Document.get (document : Document) (key : String) : Option Value :=
  (KeyedList.get Prod.fst document key).map Prod.snd

/-- `FORBIDDEN_KEYS`. -/
def forbiddenKeys : List String := ["__proto__", "constructor", "prototype"]

/-- The text up to a `#` that opens a comment: outside quotes, at the start or after
white space. -/
def stripComment : (quote before : Option Char) → List Char → List Char
  | _, _, [] => []
  | some quote, _, '\\' :: next :: rest =>
      if quote = '"' then '\\' :: next :: stripComment (some quote) (some next) rest
      else '\\' :: stripComment (some quote) (some '\\') (next :: rest)
  | some quote, _, char :: rest =>
      char :: stripComment (if char = quote then none else some quote) (some char) rest
  | none, before, char :: rest =>
      if char = '"' ∨ char = '\'' then char :: stripComment (some char) (some char) rest
      else if char = '#' ∧ before.all isSpace then []
      else char :: stripComment none (some char) rest

def trimEnd (text : List Char) : List Char := (text.reverse.dropWhile isSpace).reverse

/-- `/^-?\d+(\.\d+)?$/`, with the number it reads. -/
def parseNumber (text : List Char) : Option Rat :=
  let digits (text : List Char) : Nat :=
    text.foldl (fun value digit => 10 * value + (digit.toNat - '0'.toNat)) 0
  let unsigned := if text.head? = some '-' then text.tail else text
  let whole := unsigned.takeWhile Char.isDigit
  let value? : Option Rat :=
    if whole.isEmpty then none
    else
      match unsigned.dropWhile Char.isDigit with
      | [] => some (digits whole)
      | '.' :: fraction =>
          if fraction.isEmpty = false ∧ fraction.all Char.isDigit then
            some (digits whole + (digits fraction : Rat) / 10 ^ fraction.length)
          else none
      | _ => none
  value?.map fun value => if text.head? = some '-' then -value else value

/-- `replace(/''/g, "'")`. -/
def unquoteSingle : List Char → List Char
  | '\'' :: '\'' :: rest => '\'' :: unquoteSingle rest
  | char :: rest => char :: unquoteSingle rest
  | [] => []

/-- The common form of `TOP_KEY` and `SUB_KEY`: a key, a colon and what follows it. -/
def splitKey (isFirst isKey : Char → Bool) (line : List Char) :
    Option (String × Option (List Char)) :=
  match line with
  | [] => none
  | first :: rest =>
      if isFirst first = false then none
      else
        let key := String.ofList (first :: rest.takeWhile isKey)
        match rest.dropWhile isKey with
        | [':'] => some (key, none)
        | ':' :: gap :: rest =>
            let value := rest.dropWhile isSpace
            if isSpace gap = false ∨ value.any isLineTerminator then none
            else some (key, some value)
        | _ => none

/-- `TOP_KEY`. -/
def topKey : List Char → Option (String × Option (List Char)) :=
  splitKey (fun char => char.isAlpha || char == '_')
    fun char => char.isAlphanum || char == '_' || char == '-'

/-- `SUB_KEY`: here a value has to follow. -/
def subKey (line : List Char) : Option (String × List Char) :=
  (splitKey (fun char => char.isAlphanum || char == '_')
    (fun char => char.isAlphanum || char == '_' || char == '.' || char == '-') line).bind
    fun (key, value) => value.map (key, ·)

section Parse

-- `JSON.parse` of a text that opens with a double quote.
variable (parseJsonString : String → Option String)

/-- `parseScalar`. -/
def parseScalar (raw : List Char) (line : Nat) : Except YamlError Scalar :=
  let text := trim raw
  let string := String.ofList text
  match text.head? with
  | some '"' =>
      if text.length < 2 ∨ text.getLast? ≠ some '"' then
        .error ⟨line, "unterminated double-quoted string"⟩
      else
        match parseJsonString string with
        | some value => .ok (.string value)
        | none => .error ⟨line, "invalid escape in double-quoted string"⟩
  | some '\'' =>
      if text.length < 2 ∨ text.getLast? ≠ some '\'' then
        .error ⟨line, "unterminated single-quoted string"⟩
      else .ok (.string (String.ofList (unquoteSingle text.tail.dropLast)))
  | first =>
      if string = "true" then .ok (.bool true)
      else if string = "false" then .ok (.bool false)
      else if string = "null" ∨ string = "~" then .ok .null
      else
        match parseNumber text with
        | some value => .ok (.number value)
        | none =>
            if first.any fun char => ['[', '\x7b', '&', '*', '!', '|', '>'].contains char then
              .error ⟨line, "unsupported YAML construct: " ++ String.ofList (text.take 20)⟩
            else .ok (.string string)

/-- The state of the loop: what has been read, and the key that indented lines belong to.
Its value says whether a list or a map has begun. -/
structure Reading where
  out : Document := []
  current : Option String := none
  deriving DecidableEq, Repr

def readTop (reading : Reading) (body : List Char) (line : Nat) : Except YamlError Reading :=
  match topKey body with
  | none =>
      .error ⟨line, "expected \"key: value\" or \"key:\", got: " ++ String.ofList (body.take 40)⟩
  | some (key, rest) =>
      if forbiddenKeys.contains key then .error ⟨line, "forbidden key: " ++ key⟩
      else if (reading.out.get key).isSome then .error ⟨line, "duplicate key: " ++ key⟩
      else if rest.all fun rest => (trim rest).isEmpty then
        .ok { out := reading.out ++ [(key, .scalar .null)], current := some key }
      else
        (parseScalar parseJsonString (rest.getD []) line).map fun value =>
          { out := reading.out ++ [(key, .scalar value)], current := none }

def readItem (reading : Reading) (key : String) (body : List Char) (line : Nat) :
    Except YamlError Reading :=
  let item := trim (body.drop 2)
  let mapLike := (item.zip item.tail).any fun (char, next) => char == ':' && isSpace next
  let quoted := item.head?.any fun char => char == '"' || char == '\''
  match reading.out.get key with
  | some (.map _) => .error ⟨line, "cannot mix list items and map entries"⟩
  | before =>
      if item.isEmpty then .error ⟨line, "empty list item"⟩
      else if quoted = false ∧ mapLike then .error ⟨line, "lists of maps are not supported"⟩
      else
        let items := match before with
          | some (.list items) => items
          | _ => []
        (parseScalar parseJsonString item line).map fun value =>
          { reading with out := KeyedList.set Prod.fst reading.out (key, .list (items ++ [value])) }

def readEntry (reading : Reading) (key : String) (body : List Char) (line : Nat) :
    Except YamlError Reading :=
  match subKey body with
  | none =>
      .error ⟨line, "expected \"key: value\" or \"- item\", got: " ++ String.ofList (body.take 40)⟩
  | some (name, rest) =>
      match reading.out.get key with
      | some (.list _) => .error ⟨line, "cannot mix list items and map entries"⟩
      | before =>
          let entries := match before with
            | some (.map entries) => entries
            | _ => []
          if forbiddenKeys.contains name then .error ⟨line, "forbidden key: " ++ name⟩
          else if entries.any fun entry => entry.1 == name then
            .error ⟨line, "duplicate key: " ++ name⟩
          else
            (parseScalar parseJsonString rest line).map fun value =>
              { reading with
                out := KeyedList.set Prod.fst reading.out (key, .map (entries ++ [(name, value)])) }

/-- The body of the loop over the lines. -/
def readLine (reading : Reading) (raw : List Char) (line : Nat) : Except YamlError Reading :=
  let stripped := trimEnd (stripComment none none raw)
  let body := trim stripped
  if (raw.dropWhile (· == ' ')).head? = some '\t' then
    .error ⟨line, "tabs are not allowed for indentation"⟩
  else if body.isEmpty then .ok reading
  else if stripped.length = body.length then readTop parseJsonString reading body line
  else
    match reading.current with
    | none => .error ⟨line, "indented line with no parent key"⟩
    | some key =>
        if body = ['-'] ∨ body.take 2 = ['-', ' '] then
          readItem parseJsonString reading key body line
        else readEntry parseJsonString reading key body line

/-- `text.replace(/\r\n?/g, '\n')`. -/
def unixLines : List Char → List Char
  | '\r' :: '\n' :: rest => '\n' :: unixLines rest
  | '\r' :: rest => '\n' :: unixLines rest
  | char :: rest => char :: unixLines rest
  | [] => []

/-- `parseYamlSubset`. -/
def parseYamlSubset (text : String) : Except YamlError Document :=
  let chars := text.toList
  let chars := if chars.head? = some '\ufeff' then chars.tail else chars
  let lines := (unixLines chars).splitOn '\n'
  ((lines.zipIdx 1).foldlM (fun reading (raw, line) => readLine parseJsonString reading raw line)
    {}).map Reading.out

end Parse

end MiniYaml

end TitanRunner
