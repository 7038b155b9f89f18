import TitanRunner.Lib.Utf16

/-!
# JSON values

Values over UTF-16 strings.  The members of an object stand in the order they were
written in; a member that is written again replaces the earlier one.
-/

inductive Json where
  | null
  | bool (value : Bool)
  /-- A number, by its text. -/
  | number (text : Utf16)
  | string (text : Utf16)
  | array (items : List Json)
  | object (members : List (Utf16 × Json))

namespace Json

/-- The member of an object; other values have none. -/
def member (name : Utf16) : Json → Option Json
  | .object members => (members.reverse.find? fun entry => entry.1 == name).map Prod.snd
  | _ => none

def string? : Json → Option Utf16
  | .string text => some text
  | _ => none

def array? : Json → Option (List Json)
  | .array items => some items
  | _ => none

end Json
