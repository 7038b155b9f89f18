import TitanRunner.Lib.JsonNumbers
import TitanRunner.Lib.UriComponent
import Mathlib.Data.List.DropRight

/-!
# Addresses

How a standard parser reads an address of the scheme `https`: blanks around it and line breaks in
it are dropped, a backslash is a slash, and dot segments are followed.  A text is read through a
view of its tokens, so that a template with open places is read as its fillings are.
-/

namespace Url

open Utf16

/-! ## Tokens -/

/-- C0 controls and the space. -/
def isBlank (unit : UInt16) : Bool := unit ≤ 0x20

/-- Tabs and newlines. -/
def isBreak (unit : UInt16) : Bool := unit == 0x9 || unit == 0xA || unit == 0xD

def isSlash (unit : UInt16) : Bool := unit == 0x2F || unit == 0x5C

def endsPath (unit : UInt16) : Bool := unit == 0x3F || unit == 0x23

def endsAuthority (unit : UInt16) : Bool := isSlash unit || endsPath unit

def isAt (unit : UInt16) : Bool := unit == 0x40

def isColon (unit : UInt16) : Bool := unit == 0x3A

section View

variable {α : Type} (view : α → Option UInt16)

/-- The token is a unit that passes the test. -/
def is (test : UInt16 → Bool) (token : α) : Bool := (view token).any test

def isNot (test : UInt16 → Bool) (token : α) : Bool := !is view test token

/-- The text without blanks around it and without line breaks. -/
def clean (text : List α) : List α :=
  ((text.dropWhile (is view isBlank)).rdropWhile (is view isBlank)).filter (isNot view isBreak)

/-- What follows a beginning, whose letters may be of either case. -/
def eat : Utf16 → List α → Option (List α)
  | [], rest => some rest
  | _ :: _, [] => none
  | wanted :: more, token :: rest =>
      if is view (fun unit => lower unit == wanted) token then eat more rest else none

/-- A host, and the port with its colon.  A colon between brackets belongs to the host. -/
def splitHost : Bool → List α → List α × List α
  | _, [] => ([], [])
  | inside, token :: rest =>
      if !inside && is view isColon token then ([], token :: rest)
      else
        let (host, port) := splitHost (
          if is view (· == 0x5B) token then true
          else if is view (· == 0x5D) token then false
          else inside) rest
        (token :: host, port)

/-- The segments of what follows the authority. -/
def segmentsOf (behind : List α) : List (List α) :=
  ((behind.takeWhile (isNot view endsPath)).drop 1).splitOnP (is view isSlash)

end View

/-- An address taken apart. -/
structure Parts (α : Type) where
  userinfo : List α
  host : List α
  port : List α
  segments : List (List α)
  /-- The query and the fragment. -/
  tail : List α

section Parts

variable {α : Type} (view : α → Option UInt16)

/-- The parts of what follows the scheme. -/
def partsBehind (text : List α) : Parts α :=
  let rest := text.dropWhile (is view isSlash)
  let authority := rest.takeWhile (isNot view endsAuthority)
  let behind := rest.dropWhile (isNot view endsAuthority)
  let hostPort := authority.rtakeWhile (isNot view isAt)
  { userinfo := authority.take (authority.length - hostPort.length - 1)
    host := (splitHost view false hostPort).1
    port := (splitHost view false hostPort).2
    segments := segmentsOf view behind
    tail := behind.dropWhile (isNot view endsPath) }

def partsOf (text : List α) : Option (Parts α) :=
  (eat view (ofString "https:") (clean view text)).map (partsBehind view)

/-- The text of tokens that are all units. -/
def textOf (tokens : List α) : Option Utf16 := tokens.mapM view

def isDot (text : Utf16) : Bool := [ofString ".", ofString "%2e"].contains (text.map lower)

def isDoubleDot (text : Utf16) : Bool :=
  [ofString "..", ofString ".%2e", ofString "%2e.", ofString "%2e%2e"].contains (text.map lower)

/-- What a dot segment leaves where it is the last one. -/
def lastly (rest : List (List α)) : List (List α) := if rest.isEmpty then [[]] else []

/-- The path that segments lead to. -/
def follow : List (List α) → List (List α) → List (List α)
  | path, [] => path
  | path, segment :: rest =>
      if (textOf view segment).any isDoubleDot then follow (path.dropLast ++ lastly rest) rest
      else if (textOf view segment).any isDot then follow (path ++ lastly rest) rest
      else follow (path ++ [segment]) rest

end Parts

/-! ## Addresses -/

/-- The units that stay in a path. -/
def isPathPlain (unit : UInt16) : Bool :=
  0x20 < unit && unit < 0x7F && unit != 0x22 && unit != 0x23 && unit != 0x3C && unit != 0x3E &&
    unit != 0x3F && unit != 0x5E && unit != 0x60 && unit != 0x7B && unit != 0x7D

def encodePath (segment : Utf16) : Utf16 := UriComponent.percentEncode isPathPlain segment

/-- The units that hosts are written in. -/
def isHostUnit (unit : UInt16) : Bool := !isBlank unit && !endsAuthority unit && !isAt unit

/-- A parser of hosts: domains, which it writes in ASCII, and numeric addresses. -/
structure HostParser where
  parse : Utf16 → Option Utf16
  /-- A host is written so that it reads as itself. -/
  stable : ∀ {text host}, parse text = some host → parse host = some host
  plain : ∀ {text host}, parse text = some host → ∀ unit ∈ host, isHostUnit unit = true
  some' : ∀ {text host}, parse text = some host → host ≠ []
  /-- The colons of a host stand between brackets, which are closed. -/
  whole : ∀ {text host}, parse text = some host → ∀ port : Utf16,
    (port = [] ∨ ∃ digits, port = 0x3A :: digits) →
      splitHost some false (host ++ port) = (host, port)

/-- The host of an address, which must not be empty. -/
def HostParser.read (hosts : HostParser) (text : Utf16) : Option Utf16 :=
  if text.isEmpty then none else hosts.parse text

structure Address where
  credentials : Bool
  host : Utf16
  port : Option Nat
  path : List Utf16
  query : Utf16
  fragment : Utf16
  deriving DecidableEq

/-- The port behind a colon; the default one is none. -/
def portOf : Utf16 → Option (Option Nat)
  | [] => some none
  | _ :: digits =>
      if digits.all isDigit && decide (Json.natOf digits ≤ 65535) then
        some (if digits.isEmpty || Json.natOf digits = 443 then none else some (Json.natOf digits))
      else none

def pathOf (segments : List Utf16) : List Utf16 := (follow some [] segments).map encodePath

/-- The query and the fragment of a tail. -/
def tailOf (tail : Utf16) : Utf16 × Utf16 :=
  let fragment := tail.dropWhile (· != 0x23)
  ((tail.takeWhile (· != 0x23)).drop 1, fragment.drop 1)

def Parts.url (hosts : HostParser) (parts : Parts UInt16) : Option Address := do
  let host ← hosts.read parts.host
  let port ← portOf parts.port
  some {
    credentials := !parts.userinfo.isEmpty && parts.userinfo != [0x3A]
    host
    port
    path := pathOf parts.segments
    query := (tailOf parts.tail).1
    fragment := (tailOf parts.tail).2 }

/-- `new URL(text)`, of the scheme `https` -/
def parse (hosts : HostParser) (text : Utf16) : Option Address :=
  (partsOf some text).bind (Parts.url hosts)

/-- `new URL(text, base)`, of a text that begins with a slash -/
def parseRooted (hosts : HostParser) (base : Address) (text : Utf16) : Option Address :=
  match clean some text with
  | first :: second :: rest =>
      if isSlash second then (partsBehind some (second :: rest)).url hosts
      else
        let tail := (second :: rest).dropWhile (isNot some endsPath)
        some { base with
          path := pathOf (segmentsOf some (first :: second :: rest))
          query := (tailOf tail).1
          fragment := (tailOf tail).2 }
  | text =>
      some { base with path := pathOf (segmentsOf some text), query := [], fragment := [] }

/-- `url.origin` -/
def Address.origin (url : Address) : Utf16 :=
  ofString "https://" ++ url.host ++
    match url.port with
    | none => []
    | some port => 0x3A :: ofNat port

/-- A path as it is written. -/
def slashed (path : List Utf16) : Utf16 := path.flatMap (0x2F :: ·)

/-- `url.pathname` -/
def Address.pathname (url : Address) : Utf16 := slashed url.path

/-- The units of plain domains. -/
def isDomainUnit (unit : UInt16) : Bool :=
  isLower unit || isDigit unit || unit == 0x2D || unit == 0x2E

/-! ## Reading an address again -/

section Ends
variable {α : Type} {test : α → Bool} {before after : List α}

/-- What is dropped from the end stops at the last token that stays. -/
theorem rdropWhile_append_of_mem {token : α} (inside : token ∈ after) (stays : test token = false) :
    (before ++ after).rdropWhile test = before ++ after.rdropWhile test := by
  have left : (after.reverse.dropWhile test).isEmpty = false := by
    cases none' : after.reverse.dropWhile test with
    | cons => rfl
    | nil =>
        have every := List.dropWhile_eq_nil_iff.1 none' token (List.mem_reverse.2 inside)
        rw [every] at stays
        contradiction
  rw [List.rdropWhile, List.reverse_append, List.dropWhile_append, left, if_neg Bool.false_ne_true,
    List.reverse_append, List.reverse_reverse]
  rfl

end Ends


section Written

variable {text : Utf16} {segment : Utf16} {segments path : List Utf16} {unit : UInt16}

theorem is_some (test : UInt16 → Bool) (unit : UInt16) : is some test unit = test unit := rfl

theorem isNot_some (test : UInt16 → Bool) (unit : UInt16) : isNot some test unit = !test unit := rfl

theorem textOf_some (text : Utf16) : textOf some text = some text := by
  induction text with
  | nil => rfl
  | cons unit text ih =>
      rw [textOf] at ih ⊢
      rw [List.mapM_cons, ih]
      rfl

theorem clean_of_plain (plain : ∀ unit ∈ text, isBlank unit = false) : clean some text = text := by
  rw [clean, List.dropWhile_eq_self_iff.2, List.rdropWhile_eq_self_iff.2, List.filter_eq_self.2]
  · intro unit inside
    have visible := plain unit inside
    rw [isNot_some, Bool.not_eq_true']
    cases broken : isBreak unit with
    | false => rfl
    | true =>
        simp only [isBreak, Bool.or_eq_true, beq_iff_eq] at broken
        obtain (rfl | rfl) | rfl := broken <;> contradiction
  · intro some'
    rw [is_some, plain _ (List.getLast_mem some')]
    decide
  · intro some'
    rw [is_some, plain _ (List.getElem_mem some')]
    decide

/-! ### Segments -/

/-- A segment that a written path may hold. -/
structure Written (segment : Utf16) : Prop where
  units : ∀ unit ∈ segment, isPathPlain unit = true ∧ isSlash unit = false
  noDot : isDot segment = false
  noDoubleDot : isDoubleDot segment = false

theorem isPathPlain_of_isEncoded (encoded : UriComponent.isEncoded unit = true) :
    isPathPlain unit = true ∧ isSlash unit = false := by
  simp only [UriComponent.isEncoded, UriComponent.isUnreserved, isAlnum, isLower, isUpper, isDigit,
    isPathPlain, isSlash, Bool.or_eq_true, Bool.and_eq_true, decide_eq_true_eq, beq_iff_eq,
    bne_iff_ne, Bool.or_eq_false_iff, beq_eq_false_iff_ne, ne_eq, ← UInt16.toNat_inj,
    UInt16.le_iff_toNat_le, UInt16.lt_iff_toNat_lt, UInt16.reduceToNat] at encoded ⊢
  omega

theorem encodePath_of_written (written : Written segment) : encodePath segment = segment :=
  UriComponent.percentEncode_of_stays fun unit inside => (written.units unit inside).1

theorem follow_of_written (every : ∀ segment ∈ segments, Written segment) :
    follow some path segments = path ++ segments := by
  induction segments generalizing path with
  | nil => rw [follow, List.append_nil]
  | cons segment rest ih =>
      have here := every segment List.mem_cons_self
      rw [follow, textOf_some, Option.any_some, here.noDoubleDot, Option.any_some, here.noDot,
        if_neg Bool.false_ne_true, if_neg Bool.false_ne_true,
        ih fun segment inside => every segment (List.mem_cons_of_mem _ inside),
        List.append_assoc, List.singleton_append]

theorem follow_ne_nil (some' : segments ≠ []) : follow some path segments ≠ [] := by
  induction segments generalizing path with
  | nil => contradiction
  | cons segment rest ih =>
      cases rest with
      | cons next rest =>
          rw [follow]
          split
          · exact ih (List.cons_ne_nil _ _)
          · split <;> exact ih (List.cons_ne_nil _ _)
      | nil =>
          simp only [follow, lastly]
          split
          · simp
          · split <;> simp


/-! ### Dots -/

/-- The text is written with dots, some of them escaped. -/
def dots : Utf16 → Bool
  | [] => true
  | 0x2E :: rest => dots rest
  | 0x25 :: high :: low :: rest => high == 0x32 && (low == 0x65 || low == 0x45) && dots rest
  | _ => false

theorem dots_cons {text : Utf16} (dotted : dots (unit :: text) = true) (other : unit ≠ 0x2E) :
    unit = 0x25 ∧ ∃ low rest, text = 0x32 :: low :: rest ∧ low ≠ 0x25 ∧ dots rest = true := by
  rw [dots.eq_def] at dotted
  split at dotted
  next same => contradiction
  next rest same => exact absurd (List.cons.inj same).1 other
  next high low rest same =>
    obtain ⟨rfl, rfl⟩ := List.cons.inj same
    simp only [Bool.and_eq_true, Bool.or_eq_true, beq_iff_eq] at dotted
    obtain ⟨⟨rfl, e⟩, later⟩ := dotted
    refine ⟨rfl, low, rest, rfl, ?_, later⟩
    intro percent
    subst percent
    obtain e | e := e <;> contradiction
  next => contradiction

theorem escape_ne_dot {code : Nat} (other : code ≠ 0x2E) (bound : code < 0x200000) :
    ∃ high low rest, UriComponent.escape code = 0x25 :: high :: low :: rest ∧
      (high = 0x32 → low ≠ 0x45 ∧ low ≠ 0x65) := by
  have digit : ∀ value : Fin 16, (UriComponent.hexDigit value = 0x32 → value.val = 2) ∧
      (UriComponent.hexDigit value = 0x45 → value.val = 14) ∧
      UriComponent.hexDigit value ≠ 0x65 := by decide
  obtain ⟨byte, bytes, parts, apart⟩ : ∃ byte bytes, UriComponent.bytesOf code = byte :: bytes ∧
      ¬ (byte / 16 % 16 = 2 ∧ byte % 16 = 14) := by
    rw [UriComponent.bytesOf]
    split
    · exact ⟨_, _, rfl, by omega⟩
    · split
      · exact ⟨_, _, rfl, by omega⟩
      · split
        · exact ⟨_, _, rfl, by omega⟩
        · exact ⟨_, _, rfl, by omega⟩
  refine ⟨UriComponent.hexDigit (byte / 16 % 16), UriComponent.hexDigit (byte % 16),
    bytes.flatMap UriComponent.escapeByte, ?_, ?_⟩
  · rw [UriComponent.escape, parts]
    rfl
  · intro two
    have high := (digit ⟨byte / 16 % 16, Nat.mod_lt _ (by decide)⟩).1 two
    have low := digit ⟨byte % 16, Nat.mod_lt _ (by decide)⟩
    exact ⟨fun fourteen => apart ⟨high, low.2.1 fourteen⟩, low.2.2⟩

theorem not_dots_escape {code : Nat} (other : code ≠ 0x2E) (bound : code < 0x200000)
    (rest : Utf16) : dots (UriComponent.escape code ++ rest) = false := by
  obtain ⟨high, low, more, same, apart⟩ := escape_ne_dot other bound
  rw [same, List.cons_append, List.cons_append, List.cons_append, dots]
  by_cases two : high = 0x32
  · rw [beq_eq_false_iff_ne.2 (apart two).1, beq_eq_false_iff_ne.2 (apart two).2, Bool.or_false,
      Bool.and_false, Bool.false_and]
  · rw [beq_eq_false_iff_ne.2 two, Bool.false_and, Bool.false_and]

theorem loneCode_lt (unit : UInt16) : UriComponent.loneCode unit < 0x200000 := by
  rw [UriComponent.loneCode]
  have small := unit.toNat_lt
  split <;> omega

theorem loneCode_ne_dot (other : isPathPlain unit = false) : UriComponent.loneCode unit ≠ 0x2E := by
  rw [UriComponent.loneCode]
  split
  · decide
  · intro same
    have dot : unit = 0x2E := by
      rw [← UInt16.toNat_inj, same]
      rfl
    subst dot
    contradiction

theorem pairCode_bounds {high low : UInt16} (isHigh : Json.isHigh high = true)
    (isLow : Json.isLow low = true) :
    UriComponent.pairCode high low ≠ 0x2E ∧ UriComponent.pairCode high low < 0x200000 := by
  have above : high.toNat ≤ 0xDBFF :=
    UInt16.le_iff_toNat_le.1 (of_decide_eq_true (Bool.and_eq_true_iff.1 isHigh).2)
  have below : low.toNat ≤ 0xDFFF :=
    UInt16.le_iff_toNat_le.1 (of_decide_eq_true (Bool.and_eq_true_iff.1 isLow).2)
  unfold UriComponent.pairCode
  omega

/-- A text whose escaped form begins with another unit than a percent sign begins with it. -/
theorem encodePath_head {text more : Utf16} (other : unit ≠ 0x25)
    (encoded : encodePath text = unit :: more) :
    ∃ rest, text = unit :: rest ∧ encodePath rest = more := by
  have escaped : ∀ code rest, UriComponent.escape code ++ rest ≠ unit :: more := by
    intro code rest same
    obtain ⟨byte, bytes, parts⟩ : ∃ byte bytes, UriComponent.bytesOf code = byte :: bytes := by
      rw [UriComponent.bytesOf]
      split
      · exact ⟨_, _, rfl⟩
      · split
        · exact ⟨_, _, rfl⟩
        · split <;> exact ⟨_, _, rfl⟩
    rw [UriComponent.escape, parts] at same
    exact other (List.cons.inj same).1.symm
  match text with
  | [] => contradiction
  | [only] =>
      rw [encodePath, UriComponent.percentEncode] at encoded
      split at encoded
      · cases encoded
        exact ⟨[], rfl, rfl⟩
      · rw [← List.append_nil (UriComponent.escape _)] at encoded
        exact absurd encoded (escaped _ _)
  | high :: low :: rest =>
      rw [encodePath, UriComponent.percentEncode] at encoded
      split at encoded
      · cases encoded
        exact ⟨low :: rest, rfl, rfl⟩
      · split at encoded <;> exact absurd encoded (escaped _ _)

/-- What is escaped is no dot. -/
theorem encodePath_of_dots (text : Utf16) (dotted : dots (encodePath text) = true) :
    encodePath text = text := by
  match text with
  | [] => rfl
  | [only] =>
      rw [encodePath, UriComponent.percentEncode] at dotted ⊢
      split at dotted
      next plain => rw [if_pos plain]
      next other =>
        rw [← List.append_nil (UriComponent.escape _), not_dots_escape
          (loneCode_ne_dot (Bool.eq_false_iff.2 other)) (loneCode_lt _)] at dotted
        contradiction
  | high :: low :: rest =>
      by_cases plain : isPathPlain high = true
      · have opened : encodePath (high :: low :: rest) = high :: encodePath (low :: rest) := by
          rw [encodePath, UriComponent.percentEncode, if_pos plain]
          rfl
        rw [opened] at dotted ⊢
        by_cases dot : high = 0x2E
        · subst dot
          rw [dots] at dotted
          rw [encodePath_of_dots (low :: rest) dotted]
        · obtain ⟨_, small, rest', same, letter, later⟩ := dots_cons dotted dot
          obtain ⟨digits, here, next⟩ := encodePath_head (by decide) same
          obtain ⟨behind, here', next'⟩ := encodePath_head letter next
          rw [← next'] at later
          have shorter : behind.length < rest.length + 2 := by
            have length := congrArg List.length here
            rw [here', List.length_cons, List.length_cons, List.length_cons] at length
            omega
          rw [same, here, here', ← next', encodePath_of_dots behind later]
      · rw [encodePath, UriComponent.percentEncode, if_neg plain] at dotted
        split at dotted
        next pair =>
          obtain ⟨isHigh, isLow⟩ := Bool.and_eq_true_iff.1 pair
          obtain ⟨apart, bound⟩ := pairCode_bounds isHigh isLow
          rw [not_dots_escape apart bound] at dotted
          contradiction
        next =>
          rw [not_dots_escape (loneCode_ne_dot (Bool.eq_false_iff.2 plain)) (loneCode_lt _)]
            at dotted
          contradiction
termination_by text.length

theorem lower_eq {wanted : UInt16} (same : lower unit = wanted) :
    unit = wanted ∨ unit = wanted - 0x20 := by
  rw [lower] at same
  split at same
  · right
    rw [← same]
    grind
  · exact .inl same

theorem dots_of_lower (text : Utf16) (dotted : dots (text.map lower) = true) :
    dots text = true := by
  match text with
  | [] => rfl
  | unit :: text =>
      rw [List.map_cons] at dotted
      by_cases dot : lower unit = 0x2E
      · rw [dot, dots] at dotted
        rw [eq_of_lower dot (by decide), dots, dots_of_lower text dotted]
      · obtain ⟨percent, low, rest, same, _, later⟩ := dots_cons dotted dot
        rw [percent, same] at dotted
        obtain ⟨high', rest', rfl, two, same⟩ := List.map_eq_cons_iff.1 same
        obtain ⟨low', rest'', rfl, lowered, same⟩ := List.map_eq_cons_iff.1 same
        subst same
        rw [eq_of_lower percent (by decide), eq_of_lower two (by decide), dots]
        simp only [dots, Bool.and_eq_true, Bool.or_eq_true, beq_iff_eq] at dotted ⊢
        refine ⟨⟨trivial, ?_⟩, dots_of_lower rest'' later⟩
        obtain letter | letter := dotted.1.2
        · exact lower_eq (lowered.trans letter)
        · exact .inr (eq_of_lower (lowered.trans letter) (by decide))
termination_by text.length

theorem dots_of_isDot {text : Utf16} (dot : isDot text = true) : dots text = true := by
  apply dots_of_lower
  rw [isDot, List.contains_iff_mem] at dot
  revert dot
  generalize text.map lower = lowered
  intro dot
  simp only [List.mem_cons, List.not_mem_nil, or_false] at dot
  obtain rfl | rfl := dot <;> decide

theorem dots_of_isDoubleDot {text : Utf16} (dot : isDoubleDot text = true) :
    dots text = true := by
  apply dots_of_lower
  rw [isDoubleDot, List.contains_iff_mem] at dot
  revert dot
  generalize text.map lower = lowered
  intro dot
  simp only [List.mem_cons, List.not_mem_nil, or_false] at dot
  obtain rfl | rfl | rfl | rfl := dot <;> decide

/-- A segment that is no dot segment is written as one that a path may hold. -/
theorem written_encodePath (single : ∀ unit ∈ segment, isSlash unit = false)
    (noDot : isDot segment = false) (noDoubleDot : isDoubleDot segment = false) :
    Written (encodePath segment) := by
  constructor
  · intro unit inside
    obtain ⟨plain, kept⟩ | encoded := UriComponent.mem_percentEncode inside
    · exact ⟨plain, single unit kept⟩
    · exact isPathPlain_of_isEncoded encoded
  · cases dot : isDot (encodePath segment) with
    | false => rfl
    | true => rw [encodePath_of_dots segment (dots_of_isDot dot), noDot] at dot; contradiction
  · cases dot : isDoubleDot (encodePath segment) with
    | false => rfl
    | true =>
        rw [encodePath_of_dots segment (dots_of_isDoubleDot dot), noDoubleDot] at dot
        contradiction

theorem written_nil : Written [] := ⟨by simp, by decide, by decide⟩

/-- What a path leads to is written so that it may be read again. -/
theorem written_follow (before : ∀ segment ∈ path, Written (encodePath segment))
    (single : ∀ segment ∈ segments, ∀ unit ∈ segment, isSlash unit = false) :
    ∀ segment ∈ follow some path segments, Written (encodePath segment) := by
  induction segments generalizing path with
  | nil => exact before
  | cons segment rest ih =>
      have later := fun segment inside => single segment (List.mem_cons_of_mem _ inside)
      have last : ∀ segment ∈ lastly rest, Written (encodePath segment) := by
        intro segment inside
        rw [lastly] at inside
        split at inside
        · rw [List.mem_singleton.1 inside]
          exact written_nil
        · contradiction
      rw [follow, textOf_some]
      split
      next =>
        exact ih (List.forall_mem_append.2
          ⟨fun segment inside => before segment (List.mem_of_mem_dropLast inside), last⟩) later
      next noDoubleDot =>
        split
        next => exact ih (List.forall_mem_append.2 ⟨before, last⟩) later
        next noDot =>
          apply ih _ later
          refine List.forall_mem_append.2 ⟨before, List.forall_mem_singleton.2 ?_⟩
          exact written_encodePath (single segment List.mem_cons_self)
            (Bool.eq_false_iff.2 noDot) (Bool.eq_false_iff.2 noDoubleDot)

theorem written_pathOf (single : ∀ segment ∈ segments, ∀ unit ∈ segment, isSlash unit = false) :
    ∀ segment ∈ pathOf segments, Written segment := by
  intro segment inside
  obtain ⟨raw, reached, rfl⟩ := List.mem_map.1 inside
  have none' : ∀ segment ∈ ([] : List Utf16), Written (encodePath segment) := by simp
  exact written_follow none' single raw reached

theorem pathOf_ne_nil (some' : segments ≠ []) : pathOf segments ≠ [] := by
  rw [pathOf, ne_eq, List.map_eq_nil_iff]
  exact follow_ne_nil some'

theorem pathOf_of_written (every : ∀ segment ∈ segments, Written segment) :
    pathOf segments = segments := by
  rw [pathOf, follow_of_written every, List.nil_append]
  have same : segments.map encodePath = segments.map id :=
    List.map_congr_left fun segment inside => encodePath_of_written (every segment inside)
  rw [same, List.map_id]

theorem not_of_mem_splitOnP {α : Type} {test : α → Bool} {tokens piece : List α}
    (inside : piece ∈ tokens.splitOnP test) : ∀ token ∈ piece, test token = false := by
  induction tokens generalizing piece with
  | nil =>
      rw [List.splitOnP_nil] at inside
      rw [List.mem_singleton.1 inside]
      simp
  | cons token tokens ih =>
      rw [List.splitOnP_cons_eq_if_modifyHead] at inside
      split at inside
      next =>
        cases List.mem_cons.1 inside with
        | inl here => simp [here]
        | inr later => exact ih later
      next other =>
        obtain ⟨first, pieces, same⟩ :=
          List.exists_cons_of_ne_nil (List.splitOnP_ne_nil test tokens)
        rw [same] at inside ih
        cases List.mem_cons.1 inside with
        | inl here =>
            rw [here]
            exact List.forall_mem_cons.2 ⟨Bool.eq_false_iff.2 other, ih List.mem_cons_self⟩
        | inr later => exact ih (List.mem_cons_of_mem _ later)

theorem single_of_mem_segmentsOf (inside : segment ∈ segmentsOf some text) :
    ∀ unit ∈ segment, isSlash unit = false :=
  not_of_mem_splitOnP inside

/-! ### The text of an address -/

theorem slashed_cons (segment : Utf16) (path : List Utf16) :
    slashed (segment :: path) = 0x2F :: (segment ++ slashed path) := rfl

theorem splitOnP_slashed (single : ∀ piece ∈ segment :: path, ∀ unit ∈ piece,
    isSlash unit = false) :
    (segment ++ slashed path).splitOnP (is some isSlash) = segment :: path := by
  induction path generalizing segment with
  | nil =>
      rw [slashed, List.flatMap_nil, List.append_nil]
      exact List.splitOnP_eq_singleton (single segment List.mem_cons_self)
  | cons next path ih =>
      have within : ∀ unit ∈ segment, is some isSlash unit = false :=
        single segment List.mem_cons_self
      rw [slashed_cons, List.splitOnP_append_cons_of_forall_mem within 0x2F rfl, ih]
      exact fun piece inside => single piece (List.mem_cons_of_mem _ inside)

theorem mem_slashed (inside : unit ∈ slashed path) :
    unit = 0x2F ∨ ∃ segment ∈ path, unit ∈ segment := by
  obtain ⟨segment, member, here⟩ := List.mem_flatMap.1 inside
  exact (List.mem_cons.1 here).imp_right fun within => ⟨segment, member, within⟩

/-- What may follow a path. -/
def IsTail (tail : Utf16) : Prop := tail = [] ∨ ∃ query, tail = 0x3F :: query

theorem endsPath_of_plain (plain : isPathPlain unit = true) : endsPath unit = false := by
  cases ends : endsPath unit with
  | false => rfl
  | true =>
      simp only [endsPath, Bool.or_eq_true, beq_iff_eq] at ends
      obtain rfl | rfl := ends <;> contradiction

theorem isBlank_of_plain (plain : isPathPlain unit = true) : isBlank unit = false := by
  simp only [isPathPlain, Bool.and_eq_true, decide_eq_true_eq] at plain
  have above := plain.1.1.1.1.1.1.1.1.1.1
  rw [isBlank, decide_eq_false_iff_not, UInt16.not_le]
  exact above

section Path

variable {tail : Utf16} (every : ∀ segment ∈ path, Written segment)

include every

theorem visible_slashed : ∀ unit ∈ slashed path,
    isNot some endsPath unit = true ∧ isBlank unit = false := by
  intro unit inside
  obtain rfl | ⟨segment, member, within⟩ := mem_slashed inside
  · decide
  · have plain := ((every segment member).units unit within).1
    rw [isNot_some, endsPath_of_plain plain]
    exact ⟨rfl, isBlank_of_plain plain⟩

/-- The segments of a written path are its own. -/
theorem segmentsOf_slashed (some' : path ≠ []) (closes : IsTail tail) :
    segmentsOf some (slashed path ++ tail) = path ∧
      (slashed path ++ tail).dropWhile (isNot some endsPath) = tail := by
  have through := fun unit inside => (visible_slashed every unit inside).1
  have taken : tail.takeWhile (isNot some endsPath) = [] ∧
      tail.dropWhile (isNot some endsPath) = tail := by
    obtain rfl | ⟨query, rfl⟩ := closes
    · exact ⟨rfl, rfl⟩
    · exact ⟨rfl, rfl⟩
  constructor
  · rw [segmentsOf, List.takeWhile_append_of_pos through, taken.1, List.append_nil]
    cases path with
    | nil => contradiction
    | cons first path =>
        exact splitOnP_slashed fun piece inside unit within =>
          ((every piece inside).units unit within).2
  · rw [List.dropWhile_append_of_pos through, taken.2]

end Path

/-- The host and the port of an address. -/
def Address.authority (address : Address) : Utf16 :=
  address.host ++
    match address.port with
    | none => []
    | some port => 0x3A :: ofNat port

theorem Address.origin_eq (address : Address) :
    address.origin = ofString "https://" ++ address.authority :=
  List.append_assoc _ _ _

/-- An address that may be written and read again. -/
structure Address.Settled (hosts : HostParser) (address : Address) : Prop where
  host : hosts.parse address.host = some address.host
  port : ∀ port, address.port = some port → port ≤ 65535 ∧ port ≠ 443
  some' : address.path ≠ []
  every : ∀ segment ∈ address.path, Written segment

section Settled

variable {hosts : HostParser} {address : Address}

theorem portOf_written {port : Nat} (small : port ≤ 65535) (other : port ≠ 443) :
    portOf (0x3A :: ofNat port) = some (some port) := by
  have digits : (ofNat port).all isDigit = true :=
    List.all_eq_true.2 fun unit inside => Json.isDigit_of_mem_ofNat inside
  have filled : (ofNat port).isEmpty = false := by
    obtain ⟨unit, rest, same, _⟩ := Json.ofNat_starts port
    rw [same]
    rfl
  have value := (Json.ofNat_digits port).2
  rw [portOf, digits, value, filled]
  simp [small, other]

theorem isHostUnit_of_isDigit (digit : isDigit unit = true) : isHostUnit unit = true := by
  simp only [isHostUnit, isBlank, endsAuthority, isSlash, endsPath, isAt, isDigit,
    Bool.and_eq_true, Bool.not_eq_true', Bool.or_eq_false_iff, beq_eq_false_iff_ne, ne_eq,
    decide_eq_true_eq, decide_eq_false_iff_not, ← UInt16.toNat_inj, UInt16.le_iff_toNat_le,
    UInt16.reduceToNat] at digit ⊢
  omega

namespace Address.Settled

theorem authority_units (settled : address.Settled hosts) :
    ∀ unit ∈ address.authority, isHostUnit unit = true := by
  intro unit inside
  cases List.mem_append.1 inside with
  | inl here => exact hosts.plain settled.host unit here
  | inr later =>
      cases ported : address.port with
      | none =>
          rw [ported] at later
          contradiction
      | some port =>
          rw [ported] at later
          cases List.mem_cons.1 later with
          | inl colon =>
              rw [colon]
              decide
          | inr digit => exact isHostUnit_of_isDigit (Json.isDigit_of_mem_ofNat digit)

theorem splitHost_authority (settled : address.Settled hosts) :
    splitHost some false address.authority = (address.host,
      match address.port with
      | none => []
      | some port => 0x3A :: ofNat port) := by
  apply hosts.whole settled.host
  cases address.port with
  | none => exact .inl rfl
  | some port => exact .inr ⟨_, rfl⟩

theorem portOf_authority (settled : address.Settled hosts) :
    portOf (match address.port with
      | none => []
      | some port => 0x3A :: ofNat port) = some address.port := by
  cases ported : address.port with
  | none => rfl
  | some port =>
      obtain ⟨small, other⟩ := settled.port port ported
      exact portOf_written small other

variable {tail : Utf16}

theorem partsBehind_eq (settled : address.Settled hosts) (closes : IsTail tail) :
    partsBehind some (ofString "//" ++ (address.authority ++ (address.pathname ++ tail))) =
      { userinfo := []
        host := address.host
        port := (splitHost some false address.authority).2
        segments := address.path
        tail := tail } := by
  have units := settled.authority_units
  obtain ⟨first, path, same⟩ := List.exists_cons_of_ne_nil settled.some'
  obtain ⟨unit, authority, named⟩ : ∃ unit authority, address.authority = unit :: authority := by
    apply List.exists_cons_of_ne_nil
    intro none'
    exact hosts.some' settled.host (List.append_eq_nil_iff.1 none').1
  have through : ∀ unit ∈ address.authority, isNot some endsAuthority unit = true := by
    intro unit inside
    have fine := units unit inside
    simp only [isHostUnit, Bool.and_eq_true] at fine
    rw [isNot_some, fine.1.2]
  have noAt : ∀ unit ∈ address.authority, isNot some isAt unit = true := by
    intro unit inside
    have fine := units unit inside
    simp only [isHostUnit, Bool.and_eq_true] at fine
    rw [isNot_some, fine.2]
  have behind : (address.pathname ++ tail).takeWhile (isNot some endsAuthority) = [] ∧
      (address.pathname ++ tail).dropWhile (isNot some endsAuthority) =
        address.pathname ++ tail := by
    rw [Address.pathname, same, slashed_cons]
    exact ⟨rfl, rfl⟩
  have rest : (ofString "//" ++ (address.authority ++ (address.pathname ++ tail))).dropWhile
      (is some isSlash) = address.authority ++ (address.pathname ++ tail) := by
    have skipped : (ofString "//" ++ (address.authority ++ (address.pathname ++ tail))).dropWhile
        (is some isSlash) =
          (address.authority ++ (address.pathname ++ tail)).dropWhile (is some isSlash) := rfl
    have other : is some isSlash unit = false := by
      have here := through unit (named ▸ List.mem_cons_self)
      rw [isNot_some, endsAuthority, Bool.not_eq_true', Bool.or_eq_false_iff] at here
      exact here.1
    rw [skipped, named, List.cons_append, List.dropWhile_cons, other, if_neg Bool.false_ne_true]
  have hostPort : address.authority.rtakeWhile (isNot some isAt) = address.authority :=
    List.rtakeWhile_eq_self_iff.2 noAt
  obtain ⟨segments, closing⟩ := segmentsOf_slashed settled.every settled.some' closes
  rw [partsBehind]
  simp only [rest, List.takeWhile_append_of_pos through, List.dropWhile_append_of_pos through,
    behind.1, behind.2, List.append_nil, hostPort, settled.splitHost_authority]
  rw [Address.pathname, segments, closing, Nat.sub_self]
  rfl

/-- A settled address is read as it was written. -/
theorem parse_eq (settled : address.Settled hosts) (closes : IsTail tail)
    (visible : ∀ unit ∈ tail, isBlank unit = false) :
    ∃ read, parse hosts (address.origin ++ address.pathname ++ tail) = some read ∧
      read.origin = address.origin ∧ read.pathname = address.pathname := by
  have text : address.origin ++ address.pathname ++ tail = ofString "https:" ++
      (ofString "//" ++ (address.authority ++ (address.pathname ++ tail))) := by
    rw [Address.origin_eq, List.append_assoc, List.append_assoc]
    rfl
  have cleaned : clean some (address.origin ++ address.pathname ++ tail) =
      address.origin ++ address.pathname ++ tail := by
    apply clean_of_plain
    rw [Address.origin_eq]
    refine List.forall_mem_append.2 ⟨List.forall_mem_append.2 ⟨List.forall_mem_append.2
      ⟨?_, ?_⟩, ?_⟩, visible⟩
    · have scheme : (ofString "https://").all (fun unit => !isBlank unit) = true := by
        decide
      intro unit inside
      exact Bool.not_eq_true' _ ▸ List.all_eq_true.1 scheme unit inside
    · intro unit inside
      have fine := settled.authority_units unit inside
      simp only [isHostUnit, Bool.and_eq_true, Bool.not_eq_true'] at fine
      exact fine.1.1
    · exact fun unit inside => (visible_slashed settled.every unit inside).2
  have parts : partsOf some (address.origin ++ address.pathname ++ tail) = some
      (partsBehind some (ofString "//" ++ (address.authority ++ (address.pathname ++ tail)))) := by
    rw [partsOf, cleaned, text]
    rfl
  have named : address.host.isEmpty = false := by
    cases empty : address.host with
    | nil => exact absurd empty (hosts.some' settled.host)
    | cons => rfl
  refine ⟨{ address with
    credentials := false, query := (tailOf tail).1, fragment := (tailOf tail).2 }, ?_, rfl, rfl⟩
  rw [parse, parts, Option.bind_some, settled.partsBehind_eq closes, Parts.url]
  simp only [HostParser.read, named, settled.host, settled.splitHost_authority,
    settled.portOf_authority]
  rw [pathOf_of_written settled.every]
  rfl

end Address.Settled

theorem portOf_settled {text : Utf16} {port : Option Nat} (read : portOf text = some port)
    (number : Nat) (same : port = some number) : number ≤ 65535 ∧ number ≠ 443 := by
  cases text with
  | nil => cases read; contradiction
  | cons colon digits =>
      rw [portOf] at read
      split at read
      next fine =>
        have small := of_decide_eq_true (Bool.and_eq_true_iff.1 fine).2
        have value := (Option.some.inj read).trans same
        split at value
        · contradiction
        · next other =>
            cases value
            simp only [Bool.or_eq_true, decide_eq_true_eq, not_or] at other
            exact ⟨small, other.2⟩
      next => contradiction

theorem path_of_url {parts : Parts UInt16} (made : parts.url hosts = some address) :
    address.path = pathOf parts.segments := by
  rw [Parts.url] at made
  obtain ⟨host, _, made⟩ := Option.bind_eq_some_iff.1 made
  obtain ⟨port, _, made⟩ := Option.bind_eq_some_iff.1 made
  cases made
  rfl

theorem host_of_url {parts : Parts UInt16} (made : parts.url hosts = some address) :
    hosts.read parts.host = some address.host := by
  rw [Parts.url] at made
  obtain ⟨host, named, made⟩ := Option.bind_eq_some_iff.1 made
  obtain ⟨port, _, made⟩ := Option.bind_eq_some_iff.1 made
  cases made
  exact named

/-- What a parser reads is settled. -/
theorem settled_of_url {parts : Parts UInt16} (made : parts.url hosts = some address)
    (some' : parts.segments ≠ [])
    (single : ∀ segment ∈ parts.segments, ∀ unit ∈ segment, isSlash unit = false) :
    address.Settled hosts := by
  rw [Parts.url] at made
  obtain ⟨host, named, made⟩ := Option.bind_eq_some_iff.1 made
  obtain ⟨port, ported, made⟩ := Option.bind_eq_some_iff.1 made
  cases made
  constructor
  · rw [HostParser.read] at named
    split at named
    · contradiction
    · exact hosts.stable named
  · exact portOf_settled ported
  · exact pathOf_ne_nil some'
  · exact written_pathOf single

theorem settled_of_partsBehind (made : (partsBehind some text).url hosts = some address) :
    address.Settled hosts :=
  settled_of_url made (List.splitOnP_ne_nil _ _) fun _ => single_of_mem_segmentsOf

theorem settled_of_parse (read : parse hosts text = some address) : address.Settled hosts := by
  obtain ⟨parts, parted, made⟩ := Option.bind_eq_some_iff.1 read
  obtain ⟨rest, _, rfl⟩ := Option.map_eq_some_iff.1 parted
  exact settled_of_partsBehind made

theorem Address.Settled.rooted {base : Address} (settled : base.Settled hosts)
    (read : parseRooted hosts base text = some address) : address.Settled hosts := by
  have moved : ∀ rest query fragment, Address.Settled hosts { base with
      path := pathOf (segmentsOf some rest), query, fragment } := fun rest _ _ =>
    ⟨settled.host, settled.port, pathOf_ne_nil (List.splitOnP_ne_nil _ _),
      written_pathOf fun _ => single_of_mem_segmentsOf⟩
  rw [parseRooted] at read
  split at read
  next =>
    split at read
    · exact settled_of_partsBehind read
    · cases read
      exact moved _ _ _
  next =>
    cases read
    exact moved _ _ _

end Settled

end Written

/-! ## Plain domains -/

section Domains

variable {text host : Utf16} {unit : UInt16}

/-- A domain in letters, digits, hyphens and full stops. -/
def readDomain (text : Utf16) : Option Utf16 :=
  if (text.map lower).all isDomainUnit && !text.isEmpty then some (text.map lower) else none

theorem isDomainUnit_cases (domain : isDomainUnit unit = true) :
    isHostUnit unit = true ∧ isColon unit = false ∧ isUpper unit = false ∧
      (unit == 0x5B) = false ∧ (unit == 0x5D) = false := by
  simp only [isDomainUnit, isLower, isUpper, isDigit, isHostUnit, isBlank, endsAuthority, isSlash,
    endsPath, isAt, isColon, Bool.or_eq_true, Bool.and_eq_true, Bool.not_eq_true',
    Bool.or_eq_false_iff, Bool.and_eq_false_iff, decide_eq_true_eq, decide_eq_false_iff_not,
    beq_iff_eq, beq_eq_false_iff_ne, ne_eq, ← UInt16.toNat_inj, UInt16.le_iff_toNat_le,
    UInt16.reduceToNat] at domain ⊢
  omega

theorem of_readDomain (read : readDomain text = some host) :
    host ≠ [] ∧ host.map lower = host ∧ ∀ unit ∈ host, isDomainUnit unit = true := by
  rw [readDomain] at read
  split at read
  next fine =>
    obtain rfl := Option.some.inj read
    obtain ⟨every, some'⟩ := Bool.and_eq_true_iff.1 fine
    have domain := List.all_eq_true.1 every
    refine ⟨?_, ?_, domain⟩
    · intro none'
      rw [List.map_eq_nil_iff.1 none'] at some'
      contradiction
    · have same : (text.map lower).map lower = (text.map lower).map id := by
        apply List.map_congr_left
        intro unit inside
        rw [lower, (isDomainUnit_cases (domain unit inside)).2.2.1, if_neg Bool.false_ne_true]
        rfl
      rw [same, List.map_id]
  next => contradiction

theorem splitHost_of_domain (domain : ∀ unit ∈ host, isDomainUnit unit = true)
    {port : Utf16} (closes : port = [] ∨ ∃ digits, port = 0x3A :: digits) :
    splitHost some false (host ++ port) = (host, port) := by
  induction host with
  | nil => obtain rfl | ⟨digits, rfl⟩ := closes <;> rfl
  | cons unit host ih =>
      obtain ⟨_, noColon, _, noOpen, noClose⟩ :=
        isDomainUnit_cases (domain unit List.mem_cons_self)
      have later := ih fun unit inside => domain unit (List.mem_cons_of_mem _ inside)
      simp only [List.cons_append, splitHost, is_some, noColon, noOpen, noClose, Bool.not_false,
        Bool.and_false, Bool.false_eq_true, if_false, later]

/-- A parser that knows plain domains only. -/
def domains : HostParser where
  parse := readDomain
  stable := by
    intro text host read
    obtain ⟨some', same, domain⟩ := of_readDomain read
    rw [readDomain, same, List.all_eq_true.2 domain, if_pos]
    cases host with
    | nil => contradiction
    | cons => rfl
  plain := fun read unit inside => (isDomainUnit_cases ((of_readDomain read).2.2 unit inside)).1
  some' := fun read => (of_readDomain read).1
  whole := fun read _ => splitHost_of_domain (of_readDomain read).2.2

end Domains

end Url
