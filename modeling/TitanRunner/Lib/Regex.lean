import TitanRunner.Lib.Utf16

/-!
# Backtracking regular expressions

Regular expressions over code units with the priorities of a backtracking matcher: a
match is the first success in the order greedy (or lazy) repetition and the order of
alternatives prescribe.  A repetition repeats a class of units, which keeps the matcher
structural.
-/

/-- `repeat' class' least most`: between `least` and `most` units of the class, as many as
possible, or as few where `lazy` is set. -/
inductive Regex where
  | empty
  | oneOf (class' : UInt16 → Bool)
  | repeat' (class' : UInt16 → Bool) (least : Nat) (most : Option Nat) (lazy : Bool)
  | seq (first second : Regex)
  | alt (first second : Regex)
  | capture (inner : Regex)
  | wordBoundary
  | start
  | stop

namespace Regex

/-- A position in a text: the unit before it, the text after it, the captures so far. -/
structure Cursor where
  before : Option UInt16
  rest : Utf16
  captures : List Utf16 := []
  deriving DecidableEq, Repr

def isWordAt : Option UInt16 → Bool
  | some unit => Utf16.isWord unit
  | none => false

def Cursor.atBoundary (cursor : Cursor) : Bool :=
  isWordAt cursor.before != isWordAt cursor.rest.head?

/-- Continue after each number of class units in the order of preference. -/
def repeatUnits (class' : UInt16 → Bool) (least : Nat) (most : Option Nat) (lazy : Bool)
    (captures : List Utf16) (continue' : Cursor → Option Cursor) :
    Nat → Option UInt16 → Utf16 → Option Cursor
  | count, before, [] =>
      if least ≤ count then continue' { before, rest := [], captures } else none
  | count, before, unit :: rest =>
      let stopHere :=
        if least ≤ count then continue' { before, rest := unit :: rest, captures } else none
      let goOn :=
        if class' unit && most.all (count < ·) then
          repeatUnits class' least most lazy captures continue' (count + 1) (some unit) rest
        else none
      if lazy then stopHere <|> goOn else goOn <|> stopHere

/-- The first success of the expression followed by `continue'`. -/
def match' : Regex → Cursor → (Cursor → Option Cursor) → Option Cursor
  | .empty, cursor, continue' => continue' cursor
  | .oneOf class', cursor, continue' =>
      match cursor.rest with
      | [] => none
      | unit :: rest =>
          if class' unit then
            continue' { before := some unit, rest, captures := cursor.captures }
          else none
  | .repeat' class' least most lazy, cursor, continue' =>
      repeatUnits class' least most lazy cursor.captures continue' 0 cursor.before cursor.rest
  | .seq first second, cursor, continue' =>
      match' first cursor fun cursor => match' second cursor continue'
  | .alt first second, cursor, continue' =>
      match' first cursor continue' <|> match' second cursor continue'
  | .capture inner, cursor, continue' =>
      match' inner cursor fun after =>
        let length := cursor.rest.length - after.rest.length
        continue' { after with captures := after.captures ++ [cursor.rest.take length] }
  | .wordBoundary, cursor, continue' => if cursor.atBoundary then continue' cursor else none
  | .start, cursor, continue' => if cursor.before.isNone then continue' cursor else none
  | .stop, cursor, continue' => if cursor.rest.isEmpty then continue' cursor else none

/-- The match at a position, if there is one: the cursor behind it. -/
def matchAt (regex : Regex) (before : Option UInt16) (rest : Utf16) : Option Cursor :=
  match' regex { before, rest } some

/-- The leftmost match: the text before it, and the cursor behind it. -/
def search (regex : Regex) : Option UInt16 → Utf16 → Option (Utf16 × Cursor)
  | before, [] => (regex.matchAt before []).map fun cursor => ([], cursor)
  | before, unit :: rest =>
      match regex.matchAt before (unit :: rest) with
      | some cursor => some ([], cursor)
      | none => (search regex (some unit) rest).map fun (skipped, cursor) => (unit :: skipped, cursor)

/-- `regex.test(text)`. -/
def test (regex : Regex) (text : Utf16) : Bool := (regex.search none text).isSome

/-- Replace every match, from left to right; `fuel` bounds the number of steps. -/
def replaceFrom (regex : Regex) (replacement : List Utf16 → Utf16) :
    Nat → Option UInt16 → Utf16 → Utf16
  | 0, _, text => text
  | fuel + 1, before, text =>
      match regex.search before text with
      | none => text
      | some (skipped, cursor) =>
          skipped ++ replacement cursor.captures ++
            replaceFrom regex replacement fuel cursor.before cursor.rest

/-- `text.replace(regex, …)` of a global expression without empty matches. -/
def replaceAll (regex : Regex) (replacement : List Utf16 → Utf16) (text : Utf16) : Utf16 :=
  replaceFrom regex replacement text.length none text

/-- The captures of every match, from left to right. -/
def matchesFrom (regex : Regex) : Nat → Option UInt16 → Utf16 → List (List Utf16)
  | 0, _, _ => []
  | fuel + 1, before, text =>
      match regex.search before text with
      | none => []
      | some (_, cursor) =>
          cursor.captures :: matchesFrom regex fuel cursor.before cursor.rest

def matches' (regex : Regex) (text : Utf16) : List (List Utf16) :=
  matchesFrom regex text.length none text

/-! ## Building expressions -/

def lit (unit : UInt16) : Regex := .oneOf (· == unit)

/-- A literal text. -/
def text (string : String) : Regex :=
  (Utf16.ofString string).foldr (fun unit rest => .seq (lit unit) rest) .empty

/-- A literal text in any case. -/
def textNoCase (string : String) : Regex :=
  (Utf16.ofString string).foldr
    (fun unit rest => .seq (.oneOf fun other => Utf16.lower other == Utf16.lower unit) rest) .empty

def seqs (parts : List Regex) : Regex := parts.foldr .seq .empty

def alts : List Regex → Regex
  | [] => .oneOf fun _ => false
  | [part] => part
  | part :: parts => .alt part (alts parts)

def maybe (inner : Regex) : Regex := .alt inner .empty

def star (class' : UInt16 → Bool) : Regex := .repeat' class' 0 none false

def atLeast (class' : UInt16 → Bool) (least : Nat) : Regex := .repeat' class' least none false

def exactly (class' : UInt16 → Bool) (count : Nat) : Regex := .repeat' class' count (some count) false

def lazyStar (class' : UInt16 → Bool) : Regex := .repeat' class' 0 none true

/-- The units of a text. -/
def among (string : String) (unit : UInt16) : Bool := (Utf16.ofString string).contains unit

end Regex
