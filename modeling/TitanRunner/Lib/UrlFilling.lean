import TitanRunner.Lib.Url
import Mathlib.Data.List.Forall2
import Mathlib.Data.List.ModifyLast

/-!
# Addresses with open places

A template of an address is a text some of whose tokens are open.  Its parts are found without the
fillings, and where no filling holds a unit that means something to a parser, they are the parts of
the filled text.  What dots the fillings make is another matter: `astray` follows them.
-/

namespace Url

open Utf16

/-- The unit means nothing to a parser of addresses, but for a dot. -/
def isInert (unit : UInt16) : Bool :=
  !isBlank unit && !endsAuthority unit && !isAt unit && !isColon unit && unit != 0x5B &&
    unit != 0x5D

section Filling

variable {α : Type} (view : α → Option UInt16) (fill : α → Utf16)

/-- Units stand for themselves, and open tokens for texts without units that mean something. -/
structure Fills : Prop where
  unit : ∀ {token unit}, view token = some unit → fill token = [unit]
  inert : ∀ {token}, view token = none → ∀ unit ∈ fill token, isInert unit = true

/-- The filled text. -/
def filled (tokens : List α) : Utf16 := tokens.flatMap fill

/-- The segments of a filled text: the blanks at its end are dropped. -/
def Parts.filled (parts : Parts α) : List Utf16 :=
  let segments := parts.segments.map (Url.filled fill)
  if parts.tail.isEmpty then segments.modifyLast (List.rdropWhile isBlank) else segments

end Filling

section Fills

variable {α : Type} {view : α → Option UInt16} {fill : α → Utf16} {tokens : List α}
  {test : UInt16 → Bool}

/-- The test is about units that mean something. -/
def Passes (test : UInt16 → Bool) : Prop := ∀ unit, isInert unit = true → test unit = false

theorem passes_isBlank : Passes isBlank := by
  intro unit inert
  simp only [isInert, Bool.and_eq_true, Bool.not_eq_true'] at inert
  exact inert.1.1.1.1.1

theorem passes_endsAuthority : Passes endsAuthority := by
  intro unit inert
  simp only [isInert, Bool.and_eq_true, Bool.not_eq_true'] at inert
  exact inert.1.1.1.1.2

theorem passes_isSlash : Passes isSlash := fun unit inert =>
  (Bool.or_eq_false_iff.1 (passes_endsAuthority unit inert)).1

theorem passes_endsPath : Passes endsPath := fun unit inert =>
  (Bool.or_eq_false_iff.1 (passes_endsAuthority unit inert)).2

theorem passes_isAt : Passes isAt := by
  intro unit inert
  simp only [isInert, Bool.and_eq_true, Bool.not_eq_true'] at inert
  exact inert.1.1.1.2

theorem passes_isColon : Passes isColon := by
  intro unit inert
  simp only [isInert, Bool.and_eq_true, Bool.not_eq_true'] at inert
  exact inert.1.1.2

theorem isBlank_of_isBreak {unit : UInt16} (broken : isBreak unit = true) :
    isBlank unit = true := by
  simp only [isBreak, Bool.or_eq_true, beq_iff_eq] at broken
  obtain (rfl | rfl) | rfl := broken <;> decide

theorem passes_isBreak : Passes isBreak := by
  intro unit inert
  cases broken : isBreak unit with
  | false => rfl
  | true =>
      have visible := passes_isBlank unit inert
      rw [isBlank_of_isBreak broken] at visible
      contradiction

theorem filled_cons (token : α) (tokens : List α) :
    filled fill (token :: tokens) = fill token ++ filled fill tokens := rfl

theorem filled_append (before after : List α) :
    filled fill (before ++ after) = filled fill before ++ filled fill after :=
  List.flatMap_append

theorem is_of_view {token : α} {unit : UInt16} (seen : view token = some unit)
    (test : UInt16 → Bool) : is view test token = test unit := by
  rw [is, seen, Option.any_some]

theorem is_of_open {token : α} (open' : view token = none) (test : UInt16 → Bool) :
    is view test token = false := by
  rw [is, open', Option.any_none]

variable (fills : Fills view fill) (passes : Passes test)

include fills

/-- Tokens that are units read as the text they are filled with. -/
theorem filled_of_textOf {text : Utf16} (read : textOf view tokens = some text) :
    filled fill tokens = text := by
  induction tokens generalizing text with
  | nil => exact Option.some.inj read
  | cons token tokens ih =>
      rw [textOf, List.mapM_cons] at read
      obtain ⟨unit, seen, read⟩ := Option.bind_eq_some_iff.1 read
      obtain ⟨rest, later, read⟩ := Option.bind_eq_some_iff.1 read
      obtain rfl := Option.some.inj read
      rw [filled_cons, fills.unit seen, ih later]
      rfl

include passes

theorem isNot_fill {token : α} (open' : view token = none) :
    ∀ unit ∈ fill token, isNot some test unit = true := by
  intro unit inside
  rw [isNot_some, passes unit (fills.inert open' unit inside)]
  rfl

theorem takeWhile_filled :
    (filled fill tokens).takeWhile (isNot some test) =
      filled fill (tokens.takeWhile (isNot view test)) := by
  induction tokens with
  | nil => rfl
  | cons token tokens ih =>
      rw [filled_cons, List.takeWhile_cons]
      cases seen : view token with
      | none =>
          rw [List.takeWhile_append_of_pos (isNot_fill fills passes seen), ih, isNot, is_of_open seen]
          rfl
      | some unit =>
          rw [fills.unit seen, List.singleton_append, List.takeWhile_cons, isNot_some, isNot,
            is_of_view seen]
          cases test unit with
          | true => rfl
          | false => rw [Bool.not_false, if_pos rfl, if_pos rfl, ih, filled_cons, fills.unit seen]; rfl

theorem dropWhile_filled :
    (filled fill tokens).dropWhile (isNot some test) =
      filled fill (tokens.dropWhile (isNot view test)) := by
  induction tokens with
  | nil => rfl
  | cons token tokens ih =>
      rw [filled_cons, List.dropWhile_cons]
      cases seen : view token with
      | none =>
          rw [List.dropWhile_append_of_pos (isNot_fill fills passes seen), ih, isNot, is_of_open seen]
          rfl
      | some unit =>
          rw [fills.unit seen, List.singleton_append, List.dropWhile_cons, isNot_some, isNot,
            is_of_view seen]
          cases test unit with
          | true => rw [Bool.not_true, if_neg Bool.false_ne_true, if_neg Bool.false_ne_true,
              filled_cons, fills.unit seen]; rfl
          | false => rw [Bool.not_false, if_pos rfl, if_pos rfl, ih]

theorem filter_filled :
    (filled fill tokens).filter (isNot some test) =
      filled fill (tokens.filter (isNot view test)) := by
  induction tokens with
  | nil => rfl
  | cons token tokens ih =>
      rw [filled_cons, List.filter_append, ih, List.filter_cons]
      cases seen : view token with
      | none =>
          rw [List.filter_eq_self.2 (isNot_fill fills passes seen), isNot, is_of_open seen]
          rfl
      | some unit =>
          rw [fills.unit seen, List.filter_cons, isNot_some, isNot, is_of_view seen]
          cases test unit with
          | true => rfl
          | false => rw [Bool.not_false, if_pos rfl, if_pos rfl, filled_cons, fills.unit seen]; rfl

theorem splitOnP_filled :
    (filled fill tokens).splitOnP (is some test) =
      (tokens.splitOnP (is view test)).map (filled fill) := by
  induction tokens with
  | nil => rfl
  | cons token tokens ih =>
      obtain ⟨piece, pieces, same⟩ :=
        List.exists_cons_of_ne_nil (List.splitOnP_ne_nil (is view test) tokens)
      rw [same, List.map_cons] at ih
      rw [filled_cons, List.splitOnP_cons_eq_if_modifyHead, same]
      cases seen : view token with
      | some unit =>
          rw [fills.unit seen, List.singleton_append, List.splitOnP_cons_eq_if_modifyHead, ih,
            is_of_view seen, is_some]
          cases test unit with
          | true => rfl
          | false =>
              rw [if_neg Bool.false_ne_true, if_neg Bool.false_ne_true]
              simp only [List.modifyHead_cons, List.map_cons, filled_cons, fills.unit seen]
              rfl
      | none =>
          have through : ∀ unit ∈ fill token, test unit = false := fun unit inside =>
            passes unit (fills.inert seen unit inside)
          rw [is_of_open seen, if_neg Bool.false_ne_true]
          simp only [List.modifyHead_cons, List.map_cons, filled_cons]
          revert through
          generalize fill token = text
          intro through
          induction text with
          | nil => exact ih
          | cons unit text again =>
              rw [List.cons_append, List.splitOnP_cons_eq_if_modifyHead, is_some,
                through unit List.mem_cons_self, if_neg Bool.false_ne_true,
                again fun unit inside => through unit (List.mem_cons_of_mem _ inside)]
              rfl

end Fills

/-! ## Parts of filled texts -/

section Parts

variable {α : Type} {view : α → Option UInt16} {fill : α → Utf16} {tokens : List α}
  {test : UInt16 → Bool}

theorem eat_filled (fills : Fills view fill) {wanted : Utf16} {rest : List α}
    (eaten : eat view wanted tokens = some rest) (more : Utf16) :
    eat some wanted (filled fill tokens ++ more) = some (filled fill rest ++ more) := by
  induction wanted generalizing tokens with
  | nil =>
      obtain rfl := Option.some.inj eaten
      rfl
  | cons unit wanted ih =>
      cases tokens with
      | nil => contradiction
      | cons token tokens =>
          rw [eat] at eaten
          split at eaten
          next same =>
            cases seen : view token with
            | none =>
                rw [is_of_open seen] at same
                contradiction
            | some other =>
                rw [is_of_view seen] at same
                rw [filled_cons, fills.unit seen, List.append_assoc, List.singleton_append, eat,
                  is_some, if_pos same]
                exact ih eaten
          next => contradiction

theorem splitHost_filled (fills : Fills view fill) (inside : Bool) :
    splitHost some inside (filled fill tokens) =
      (filled fill (splitHost view inside tokens).1,
        filled fill (splitHost view inside tokens).2) := by
  induction tokens generalizing inside with
  | nil => rfl
  | cons token tokens ih =>
      cases seen : view token with
      | some unit =>
          rw [filled_cons, fills.unit seen, List.singleton_append, splitHost, splitHost,
            is_of_view seen, is_of_view seen, is_of_view seen, is_some, is_some, is_some]
          split
          · simp only [filled_cons, fills.unit seen]
            rfl
          · simp only [ih, filled_cons, fills.unit seen]
            rfl
      | none =>
          rw [filled_cons, splitHost, is_of_open seen, is_of_open seen, is_of_open seen,
            Bool.and_false, if_neg Bool.false_ne_true, if_neg Bool.false_ne_true,
            if_neg Bool.false_ne_true]
          simp only [filled_cons]
          have inert := fills.inert seen
          revert inert
          generalize fill token = text
          intro inert
          induction text with
          | nil => exact ih inside
          | cons unit text again =>
              have plain := inert unit List.mem_cons_self
              have colon := passes_isColon unit plain
              simp only [isInert, Bool.and_eq_true, bne_iff_ne, ne_eq] at plain
              have later := again fun unit within => inert unit (List.mem_cons_of_mem _ within)
              rw [List.cons_append, splitHost, is_some, is_some, is_some, colon, Bool.and_false,
                if_neg Bool.false_ne_true, beq_eq_false_iff_ne.2 plain.1.2,
                beq_eq_false_iff_ne.2 plain.2, if_neg Bool.false_ne_true,
                if_neg Bool.false_ne_true]
              simp only [later]
              rfl

theorem fills_reverse (fills : Fills view fill) : Fills view fun token => (fill token).reverse := by
  constructor
  · intro token unit seen
    simp only [fills.unit seen]
    rfl
  · intro token open' unit inside
    exact fills.inert open' unit (List.mem_reverse.1 inside)

theorem reverse_filled : (filled fill tokens).reverse =
    filled (fun token => (fill token).reverse) tokens.reverse := by
  induction tokens with
  | nil => rfl
  | cons token tokens ih =>
      rw [filled_cons, List.reverse_append, ih, List.reverse_cons, filled_append]
      simp [filled]

theorem rtakeWhile_filled (fills : Fills view fill) (passes : Passes test) :
    (filled fill tokens).rtakeWhile (isNot some test) =
      filled fill (tokens.rtakeWhile (isNot view test)) := by
  rw [List.rtakeWhile, List.rtakeWhile, reverse_filled,
    takeWhile_filled (fills_reverse fills) passes, reverse_filled]
  simp

theorem segmentsOf_filled (fills : Fills view fill) {behind : List α}
    (begins : ∀ token ∈ behind.head?, is view endsAuthority token = true) :
    segmentsOf some (filled fill behind) =
      (segmentsOf view behind).map (filled fill) := by
  rw [segmentsOf, segmentsOf, takeWhile_filled fills passes_endsPath, ← splitOnP_filled fills
    passes_isSlash]
  congr 1
  cases behind with
  | nil => rfl
  | cons token behind =>
      have ends := begins token rfl
      rw [List.takeWhile_cons]
      split
      · cases seen : view token with
        | none =>
            rw [is_of_open seen] at ends
            contradiction
        | some unit =>
            rw [filled_cons, fills.unit seen]
            rfl
      · rfl

end Parts

/-! ## Tokens that mean nothing -/

section Quiet

variable {α : Type} {view : α → Option UInt16} {fill : α → Utf16} {tokens quiet : List α}
  {test : UInt16 → Bool}

/-- No token means something to a parser. -/
def Quiet (view : α → Option UInt16) (tokens : List α) : Prop :=
  ∀ token ∈ tokens, is view endsAuthority token = false ∧ is view isAt token = false ∧
    is view isColon token = false ∧ is view (· == 0x5B) token = false ∧
      is view (· == 0x5D) token = false

namespace Quiet

theorem slash (still : Quiet view quiet) : ∀ token ∈ quiet, is view isSlash token = false := by
  intro token inside
  have ends := (still token inside).1
  cases seen : view token with
  | none => exact is_of_open seen _
  | some unit =>
      rw [is_of_view seen] at ends ⊢
      exact (Bool.or_eq_false_iff.1 ends).1

theorem endsPath (still : Quiet view quiet) :
    ∀ token ∈ quiet, isNot view Url.endsPath token = true := by
  intro token inside
  have ends := (still token inside).1
  cases seen : view token with
  | none => rw [isNot, is_of_open seen]; rfl
  | some unit =>
      rw [is_of_view seen] at ends
      rw [isNot, is_of_view seen, (Bool.or_eq_false_iff.1 ends).2]
      rfl

theorem endsAuthority (still : Quiet view quiet) :
    ∀ token ∈ quiet, isNot view Url.endsAuthority token = true := by
  intro token inside
  rw [isNot, (still token inside).1]
  rfl

theorem dropWhile_isSlash (still : Quiet view quiet) :
    (tokens ++ quiet).dropWhile (is view isSlash) =
      tokens.dropWhile (is view isSlash) ++ quiet := by
  have stays : quiet.dropWhile (is view isSlash) = quiet := by
    cases quiet with
    | nil => rfl
    | cons token quiet =>
        rw [List.dropWhile_cons, slash still token List.mem_cons_self, if_neg Bool.false_ne_true]
  rw [List.dropWhile_append, stays]
  cases left : tokens.dropWhile (is view isSlash) with
  | nil => rfl
  | cons => rfl

theorem rtakeWhile_isAt (still : Quiet view quiet) :
    (tokens ++ quiet).rtakeWhile (isNot view isAt) =
      tokens.rtakeWhile (isNot view isAt) ++ quiet := by
  have through : ∀ token ∈ quiet.reverse, isNot view isAt token = true := by
    intro token inside
    rw [isNot, (still token (List.mem_reverse.1 inside)).2.1]
    rfl
  rw [List.rtakeWhile, List.reverse_append, List.takeWhile_append_of_pos through,
    List.reverse_append, List.reverse_reverse]
  rfl

theorem splitHost_eq (still : Quiet view quiet) (inside : Bool) :
    splitHost view inside quiet = (quiet, []) := by
  induction quiet generalizing inside with
  | nil => rfl
  | cons token quiet ih =>
      obtain ⟨_, _, colon, open', close⟩ := still token List.mem_cons_self
      rw [splitHost, colon, open', close, Bool.and_false, if_neg Bool.false_ne_true,
        if_neg Bool.false_ne_true, if_neg Bool.false_ne_true,
        ih fun token inside => still token (List.mem_cons_of_mem _ inside)]

/-- Behind a host such tokens belong to the port, or to the host. -/
theorem splitHost_append (still : Quiet view quiet) (inside : Bool) :
    splitHost view inside (tokens ++ quiet) =
      ((splitHost view inside tokens).1, (splitHost view inside tokens).2 ++ quiet) ∨
    (splitHost view inside (tokens ++ quiet)).1 = (splitHost view inside tokens).1 ++ quiet := by
  induction tokens generalizing inside with
  | nil =>
      right
      rw [List.nil_append, splitHost_eq still]
      rfl
  | cons token tokens ih =>
      rw [List.cons_append, splitHost, splitHost]
      split
      · exact .inl rfl
      · obtain port | host := ih (if is view (· == 0x5B) token then true
          else if is view (· == 0x5D) token then false else inside)
        · left
          rw [port]
        · right
          simp only [host]
          rfl

theorem modifyLast_cons_cons {β : Type} (f : β → β) (first second : β) (rest : List β) :
    (first :: second :: rest).modifyLast f = first :: (second :: rest).modifyLast f :=
  List.modifyLast_append_of_right_ne_nil f [first] _ (List.cons_ne_nil _ _)

theorem modifyLast_singleton {β : Type} (f : β → β) (only : β) : [only].modifyLast f = [f only] :=
  List.modifyLast_concat f only []

theorem splitOnP_append {β : Type} {test : β → Bool} {quiet : List β}
    (passes : ∀ token ∈ quiet, test token = false) (tokens : List β) :
    (tokens ++ quiet).splitOnP test = (tokens.splitOnP test).modifyLast (· ++ quiet) := by
  induction tokens with
  | nil => rw [List.nil_append, List.splitOnP_eq_singleton passes, List.splitOnP_nil,
      modifyLast_singleton, List.nil_append]
  | cons token tokens ih =>
      obtain ⟨piece, pieces, same⟩ :=
        List.exists_cons_of_ne_nil (List.splitOnP_ne_nil test tokens)
      rw [List.cons_append, List.splitOnP_cons_eq_if_modifyHead, ih,
        List.splitOnP_cons_eq_if_modifyHead, same]
      split
      · rw [modifyLast_cons_cons]
      · cases pieces with
        | nil =>
            rw [modifyLast_singleton, List.modifyHead_cons, List.modifyHead_cons,
              modifyLast_singleton]
            rfl
        | cons =>
            rw [modifyLast_cons_cons, List.modifyHead_cons, List.modifyHead_cons,
              modifyLast_cons_cons]

/-- The last segment takes them. -/
theorem segmentsOf_append (still : Quiet view quiet) (some' : tokens ≠ []) :
    ((tokens ++ quiet).dropWhile (isNot view Url.endsPath) = [] ∧
      tokens.dropWhile (isNot view Url.endsPath) = [] ∧
      segmentsOf view (tokens ++ quiet) =
        (segmentsOf view tokens).modifyLast (· ++ quiet)) ∨
    ((tokens ++ quiet).dropWhile (isNot view Url.endsPath) ≠ [] ∧
      segmentsOf view (tokens ++ quiet) = segmentsOf view tokens) := by
  have through := endsPath still
  cases left : tokens.dropWhile (isNot view Url.endsPath) with
  | nil =>
      have whole := List.dropWhile_eq_nil_iff.1 left
      have every : ∀ token ∈ tokens ++ quiet, isNot view Url.endsPath token = true :=
        List.forall_mem_append.2 ⟨whole, through⟩
      refine .inl ⟨List.dropWhile_eq_nil_iff.2 every, rfl, ?_⟩
      rw [segmentsOf, segmentsOf, List.takeWhile_eq_self_iff.2 every,
        List.takeWhile_eq_self_iff.2 whole]
      obtain ⟨first, tokens, rfl⟩ := List.exists_cons_of_ne_nil some'
      exact splitOnP_append (slash still) tokens
  | cons token after =>
      have shorter : (tokens.takeWhile (isNot view Url.endsPath)).length ≠ tokens.length := by
        have lengths := congrArg List.length
          (List.takeWhile_append_dropWhile (p := isNot view Url.endsPath) (l := tokens))
        rw [left, List.length_append, List.length_cons] at lengths
        omega
      refine .inr ⟨?_, ?_⟩
      · rw [List.dropWhile_append, left]
        exact List.cons_ne_nil _ _
      · rw [segmentsOf, segmentsOf, List.takeWhile_append, if_neg shorter]

end Quiet

/-- What such tokens at the end change: the port, the host, the last segment or what follows it. -/
theorem partsBehind_append (still : Quiet view quiet) :
    let before := partsBehind view tokens
    let parts := partsBehind view (tokens ++ quiet)
    (parts.host = before.host ∨ parts.host = before.host ++ quiet) ∧
      (parts.tail = [] ∧ parts.segments = before.segments ∧ before.segments = [[]] ∨
       parts.tail = [] ∧ before.tail = [] ∧
        parts.segments = before.segments.modifyLast (· ++ quiet) ∨
       parts.tail ≠ [] ∧ parts.segments = before.segments) := by
  simp only [partsBehind, still.dropWhile_isSlash]
  generalize tokens.dropWhile (is view isSlash) = rest
  have through := still.endsAuthority
  cases left : rest.dropWhile (isNot view endsAuthority) with
  | nil =>
      have whole := List.dropWhile_eq_nil_iff.1 left
      have every : ∀ token ∈ rest ++ quiet, isNot view endsAuthority token = true :=
        List.forall_mem_append.2 ⟨whole, through⟩
      rw [List.takeWhile_eq_self_iff.2 every, List.takeWhile_eq_self_iff.2 whole,
        List.dropWhile_eq_nil_iff.2 every, still.rtakeWhile_isAt]
      refine ⟨?_, .inl ⟨rfl, rfl, rfl⟩⟩
      have apart := @Quiet.splitHost_append _ _ (rest.rtakeWhile (isNot view isAt)) _ still false
      obtain port | host := apart
      · rw [port]
        exact .inl rfl
      · exact .inr host
  | cons token after =>
      have shorter : (rest.takeWhile (isNot view endsAuthority)).length ≠ rest.length := by
        have lengths := congrArg List.length
          (List.takeWhile_append_dropWhile (p := isNot view endsAuthority) (l := rest))
        rw [left, List.length_append, List.length_cons] at lengths
        omega
      have behind : (rest ++ quiet).dropWhile (isNot view endsAuthority) =
          (token :: after) ++ quiet := by
        rw [List.dropWhile_append, left]
        rfl
      rw [List.takeWhile_append, if_neg shorter, behind]
      refine ⟨.inl rfl, .inr ?_⟩
      obtain ⟨closed, closed', same⟩ | ⟨opened, same⟩ :=
        still.segmentsOf_append (List.cons_ne_nil token after)
      · exact .inl ⟨closed, closed', same⟩
      · exact .inr ⟨opened, same⟩

end Quiet

/-! ## Filled addresses -/

section Filled

variable {α : Type} {view : α → Option UInt16} {fill : α → Utf16} {tokens : List α}
  {parts : Parts α} {host : Utf16} (fills : Fills view fill)

include fills

theorem dropWhile_isSlash_filled
    (some' : filled fill ((tokens.dropWhile (is view isSlash)).takeWhile
      (isNot view endsAuthority)) ≠ []) :
    (filled fill tokens).dropWhile (is some isSlash) =
      filled fill (tokens.dropWhile (is view isSlash)) := by
  induction tokens with
  | nil => rfl
  | cons token tokens ih =>
      rw [List.dropWhile_cons] at some' ⊢
      split at some'
      next slash =>
        cases seen : view token with
        | none =>
            rw [is_of_open seen] at slash
            contradiction
        | some unit =>
            rw [is_of_view seen] at slash
            rw [if_pos ((is_of_view seen isSlash).trans slash), filled_cons, fills.unit seen,
              List.singleton_append, List.dropWhile_cons, is_some, if_pos slash, ih some']
      next other =>
        rw [if_neg other]
        rw [← takeWhile_filled fills passes_endsAuthority] at some'
        cases text : filled fill (token :: tokens) with
        | nil => rfl
        | cons unit rest =>
            rw [text, List.takeWhile_cons] at some'
            split at some'
            next plain =>
              rw [isNot_some, Bool.not_eq_true', endsAuthority, Bool.or_eq_false_iff] at plain
              rw [List.dropWhile_cons, is_some, plain.1, if_neg Bool.false_ne_true]
            next => contradiction

/-- The parts of a filled text are filled. -/
theorem partsBehind_filled (named : filled fill (partsBehind view tokens).host ≠ []) :
    (partsBehind some (filled fill tokens)).host = filled fill (partsBehind view tokens).host ∧
      (partsBehind some (filled fill tokens)).segments =
        (partsBehind view tokens).segments.map (filled fill) := by
  have some' : filled fill ((tokens.dropWhile (is view isSlash)).takeWhile
      (isNot view endsAuthority)) ≠ [] := by
    intro none'
    let authority := (tokens.dropWhile (is view isSlash)).takeWhile (isNot view endsAuthority)
    have hostPort := @rtakeWhile_filled _ _ _ authority _ fills passes_isAt
    rw [none'] at hostPort
    apply named
    have split := @splitHost_filled _ _ _ (authority.rtakeWhile (isNot view isAt)) fills false
    rw [← hostPort] at split
    exact (congrArg Prod.fst split).symm
  simp only [partsBehind, dropWhile_isSlash_filled fills some',
    takeWhile_filled fills passes_endsAuthority, dropWhile_filled fills passes_endsAuthority,
    rtakeWhile_filled fills passes_isAt, splitHost_filled fills]
  refine ⟨trivial, segmentsOf_filled fills ?_⟩
  intro token first
  have stops := List.head?_dropWhile_not (isNot view endsAuthority)
    (tokens.dropWhile (is view isSlash))
  rw [Option.mem_def.1 first] at stops
  simpa [isNot] using stops

omit fills in
theorem filter_dropWhile {β : Type} {keep drop : β → Bool}
    (apart : ∀ token, keep token = false → drop token = true) (tokens : List β) :
    (tokens.dropWhile drop).filter keep = (tokens.filter keep).dropWhile drop := by
  induction tokens with
  | nil => rfl
  | cons token tokens ih =>
      rw [List.dropWhile_cons, List.filter_cons]
      split
      next dropped =>
        split
        · rw [List.dropWhile_cons, if_pos dropped, ih]
        · exact ih
      next stays =>
        split
        next kept => rw [List.filter_cons, if_pos kept, List.dropWhile_cons, if_neg stays]
        next lost => exact absurd (apart token (Bool.eq_false_iff.2 lost)) stays

omit fills in
theorem filter_rdropWhile {β : Type} {keep drop : β → Bool}
    (apart : ∀ token, keep token = false → drop token = true) (tokens : List β) :
    (tokens.rdropWhile drop).filter keep = (tokens.filter keep).rdropWhile drop := by
  rw [List.rdropWhile, List.rdropWhile, List.filter_reverse, filter_dropWhile apart,
    List.filter_reverse]

omit fills in
/-- Line breaks may be dropped first. -/
theorem clean_eq (tokens : List α) : clean view tokens =
    ((tokens.filter (isNot view isBreak)).dropWhile (is view isBlank)).rdropWhile
      (is view isBlank) := by
  have apart : ∀ token, isNot view isBreak token = false → is view isBlank token = true := by
    intro token broken
    rw [isNot, Bool.not_eq_false'] at broken
    cases seen : view token with
    | none =>
        rw [is_of_open seen] at broken
        contradiction
    | some unit =>
        rw [is_of_view seen] at broken ⊢
        exact isBlank_of_isBreak broken
  rw [clean, filter_rdropWhile apart, filter_dropWhile apart]

/-- Nothing of the token is visible. -/
def isFaint (fill : α → Utf16) (token : α) : Bool := (fill token).all isBlank

theorem faint_cases {token : α} (faint : isFaint fill token = true) :
    (∃ unit, view token = some unit ∧ isBlank unit = true) ∨ view token = none ∧ fill token = [] := by
  rw [isFaint] at faint
  cases seen : view token with
  | some unit =>
      rw [fills.unit seen, List.all_cons, List.all_nil, Bool.and_true] at faint
      exact .inl ⟨unit, rfl, faint⟩
  | none =>
      right
      cases text : fill token with
      | nil => exact ⟨rfl, rfl⟩
      | cons unit rest =>
          have inert := fills.inert seen unit (text ▸ List.mem_cons_self)
          rw [text] at faint
          have blank := List.all_eq_true.1 faint unit List.mem_cons_self
          rw [passes_isBlank unit inert] at blank
          contradiction

theorem quiet_of_faint (faint : ∀ token ∈ tokens, isFaint fill token = true) :
    Quiet view tokens := by
  intro token inside
  obtain ⟨unit, seen, blank⟩ | ⟨open', _⟩ := faint_cases fills (faint token inside)
  · simp only [is_of_view seen]
    simp only [isBlank, decide_eq_true_eq] at blank
    simp only [endsAuthority, isSlash, endsPath, isAt, isColon, Bool.or_eq_false_iff,
      beq_eq_false_iff_ne, ne_eq, ← UInt16.toNat_inj, UInt16.le_iff_toNat_le,
      UInt16.reduceToNat] at blank ⊢
    omega
  · simp only [is_of_open open', and_self]

theorem rdropWhile_filled :
    (filled fill tokens).rdropWhile isBlank = filled fill (tokens.rdropWhile (isFaint fill)) := by
  induction tokens using List.reverseRecOn with
  | nil => rfl
  | append_singleton tokens token ih =>
      rw [filled_append]
      cases faint : isFaint fill token with
      | true =>
          have blank : ∀ unit ∈ (filled fill [token]).reverse, isBlank unit = true := by
            intro unit inside
            rw [List.mem_reverse, filled_cons] at inside
            rw [isFaint] at faint
            exact List.all_eq_true.1 faint unit (by simpa [filled] using inside)
          rw [List.rdropWhile_concat_pos _ _ _ faint, ← ih, List.rdropWhile, List.reverse_append,
            List.dropWhile_append_of_pos blank]
          rfl
      | false =>
          have stays : ¬ isFaint fill token = true := Bool.eq_false_iff.1 faint
          rw [List.rdropWhile_concat_neg _ _ _ stays, filled_append]
          have visible : ∀ unit ∈ fill token, isBlank unit = false := by
            cases seen : view token with
            | none => exact fun unit inside => passes_isBlank unit (fills.inert seen unit inside)
            | some unit =>
                rw [isFaint, fills.unit seen, List.all_cons, List.all_nil, Bool.and_true] at faint
                rw [fills.unit seen]
                exact List.forall_mem_singleton.2 faint
          have written : filled fill [token] = fill token := List.append_nil _
          rw [written]
          rcases List.eq_nil_or_concat' (fill token) with none' | ⟨start, last, same⟩
          · rw [isFaint, none'] at faint
            contradiction
          · have stays := visible last (same ▸ List.mem_append_right _ List.mem_cons_self)
            rw [same, ← List.append_assoc, List.rdropWhile_concat_neg _ _ _
              (Bool.eq_false_iff.1 stays)]

/-- The text that is read is the filled template, without the tokens at its end that are left
with nothing visible. -/
theorem clean_filled {token : α} {rest : List α} {unit : UInt16}
    (begins : clean view tokens = token :: rest) (seen : view token = some unit)
    (visible : isBlank unit = false) :
    clean some (filled fill tokens) =
      filled fill ((clean view tokens).rdropWhile (isFaint fill)) := by
  have broken : (filled fill tokens).filter (isNot some isBreak) =
      filled fill (tokens.filter (isNot view isBreak)) := filter_filled fills passes_isBreak
  rw [clean_eq] at begins
  rw [clean_eq, clean_eq, broken]
  generalize tokens.filter (isNot view isBreak) = kept at begins
  -- what is dropped in front of the first token is blank in the text as well
  have front : (filled fill kept).dropWhile (is some isBlank) =
      filled fill (kept.dropWhile (is view isBlank)) := by
    have first : ∃ more, kept.dropWhile (is view isBlank) = token :: more := by
      have part := List.rdropWhile_prefix (is view isBlank) (kept.dropWhile (is view isBlank))
      rw [begins] at part
      obtain ⟨more, same⟩ := part
      exact ⟨rest ++ more, same.symm⟩
    clear begins broken
    induction kept with
    | nil => rfl
    | cons other kept ih =>
        rw [List.dropWhile_cons] at first ⊢
        split at first
        next dropped =>
          cases seen' : view other with
          | none =>
              rw [is_of_open seen'] at dropped
              contradiction
          | some unit' =>
              have blank := dropped
              rw [is_of_view seen'] at blank
              rw [if_pos dropped, filled_cons, fills.unit seen', List.singleton_append,
                List.dropWhile_cons, is_some, if_pos blank, ih first]
        next stays =>
          obtain ⟨more, same⟩ := first
          rw [if_neg stays, same, filled_cons, fills.unit seen, List.singleton_append,
            List.dropWhile_cons, is_some, visible, if_neg Bool.false_ne_true]
  rw [front]
  generalize kept.dropWhile (is view isBlank) = text
  have faint : ∀ token, is view isBlank token = true → isFaint fill token = true := by
    intro token blank
    cases seen : view token with
    | none =>
        rw [is_of_open seen] at blank
        contradiction
    | some unit =>
        rw [is_of_view seen] at blank
        rw [isFaint, fills.unit seen, List.all_cons, blank]
        rfl
  have twice : (text.rdropWhile (is view isBlank)).rdropWhile (isFaint fill) =
      text.rdropWhile (isFaint fill) := by
    induction text using List.reverseRecOn with
    | nil => rfl
    | append_singleton text last ih =>
        by_cases blank : is view isBlank last = true
        · rw [List.rdropWhile_concat_pos _ _ _ blank,
            List.rdropWhile_concat_pos _ _ _ (faint last blank), ih]
        · rw [List.rdropWhile_concat_neg _ _ _ blank]
  rw [twice]
  exact rdropWhile_filled fills

omit fills in
theorem eat_suffix {wanted : Utf16} {rest : List α} (eaten : eat view wanted tokens = some rest) :
    rest <:+ tokens := by
  induction wanted generalizing tokens with
  | nil =>
      obtain rfl := Option.some.inj eaten
      exact List.suffix_refl _
  | cons unit wanted ih =>
      cases tokens with
      | nil => contradiction
      | cons token tokens =>
          rw [eat] at eaten
          split at eaten
          · exact (ih eaten).trans (List.suffix_cons _ _)
          · contradiction

/-- A beginning that is visible is read before the tokens that are not. -/
theorem eat_append {wanted : Utf16} {quiet rest : List α}
    (visible : wanted.all (fun unit => !isBlank unit) = true)
    (faint : ∀ token ∈ quiet, isFaint fill token = true)
    (eaten : eat view wanted (tokens ++ quiet) = some rest) :
    ∃ rest', eat view wanted tokens = some rest' ∧ rest = rest' ++ quiet := by
  induction wanted generalizing tokens with
  | nil => exact ⟨tokens, rfl, (Option.some.inj eaten).symm⟩
  | cons unit wanted ih =>
      rw [List.all_cons, Bool.and_eq_true, Bool.not_eq_true'] at visible
      cases tokens with
      | cons token tokens =>
          rw [List.cons_append, eat] at eaten
          rw [eat]
          split at eaten
          next same =>
            rw [if_pos same]
            exact ih visible.2 eaten
          next => contradiction
      | nil =>
          cases quiet with
          | nil => contradiction
          | cons token quiet =>
              rw [List.nil_append, eat] at eaten
              split at eaten
              next same =>
                obtain ⟨other, seen, blank⟩ | ⟨open', _⟩ :=
                  faint_cases fills (faint token List.mem_cons_self)
                · rw [is_of_view seen, beq_iff_eq] at same
                  have small : isUpper other = false := by
                    simp only [isBlank, decide_eq_true_eq, UInt16.le_iff_toNat_le,
                      UInt16.reduceToNat] at blank
                    simp only [isUpper, Bool.and_eq_false_iff, decide_eq_false_iff_not,
                      UInt16.le_iff_toNat_le, UInt16.reduceToNat]
                    omega
                  rw [lower, small, if_neg Bool.false_ne_true] at same
                  rw [← same, blank] at visible
                  exact absurd visible.1 Bool.false_ne_true.symm
                · rw [is_of_open open'] at same
                  contradiction
              next => contradiction

omit fills in
theorem rdropWhile_of_suffix {β : Type} {test : β → Bool} {before after : List β}
    (part : after <:+ before) (same : before.rdropWhile test = before) :
    after.rdropWhile test = after := by
  rw [List.rdropWhile_eq_self_iff] at same ⊢
  intro some'
  obtain ⟨start, rfl⟩ := part
  have last := same (List.append_ne_nil_of_right_ne_nil _ some')
  rwa [List.getLast_append_of_right_ne_nil _ _ some'] at last

omit fills in
theorem eq_of_splitOnP {β : Type} {test : β → Bool} {tokens piece : List β}
    (only : tokens.splitOnP test = [piece]) : piece = tokens := by
  induction tokens generalizing piece with
  | nil => exact (List.singleton_inj.1 only).symm
  | cons token tokens ih =>
      obtain ⟨first, pieces, same⟩ :=
        List.exists_cons_of_ne_nil (List.splitOnP_ne_nil test tokens)
      rw [List.splitOnP_cons_eq_if_modifyHead, same] at only
      split at only
      · simp at only
      · rw [List.modifyHead_cons, List.cons.injEq] at only
        obtain ⟨rfl, rfl⟩ := only
        rw [ih same]

omit fills in
theorem exists_last_splitOnP {β : Type} (test : β → Bool) (tokens : List β) :
    ∃ pieces last, tokens.splitOnP test = pieces ++ [last] ∧ last <:+ tokens := by
  induction tokens with
  | nil => exact ⟨[], [], rfl, List.suffix_refl _⟩
  | cons token tokens ih =>
      obtain ⟨pieces, last, same, part⟩ := ih
      rw [List.splitOnP_cons_eq_if_modifyHead, same]
      split
      · exact ⟨[] :: pieces, last, rfl, part.trans (List.suffix_cons _ _)⟩
      · cases pieces with
        | nil =>
            rw [eq_of_splitOnP same]
            exact ⟨[], _, rfl, List.suffix_refl _⟩
        | cons piece pieces =>
            exact ⟨(token :: piece) :: pieces, last, rfl, part.trans (List.suffix_cons _ _)⟩

omit fills in
/-- Where nothing follows the path, its last segment is the end of the text. -/
theorem getLast_segments_suffix (closed : (partsBehind view tokens).tail = []) :
    ∃ segments last, (partsBehind view tokens).segments = segments ++ [last] ∧
      last <:+ tokens := by
  simp only [partsBehind] at closed ⊢
  have whole := List.dropWhile_eq_nil_iff.1 closed
  have part : (tokens.dropWhile (is view isSlash)).dropWhile (isNot view endsAuthority) <:+
      tokens := (List.dropWhile_suffix _).trans (List.dropWhile_suffix _)
  revert whole part
  generalize (tokens.dropWhile (is view isSlash)).dropWhile (isNot view endsAuthority) = behind
  intro whole part
  rw [segmentsOf, List.takeWhile_eq_self_iff.2 whole]
  obtain ⟨pieces, last, same, within⟩ := exists_last_splitOnP (is view isSlash) (behind.drop 1)
  exact ⟨pieces, last, same, within.trans ((List.drop_suffix 1 _).trans part)⟩

omit fills in
theorem unit_of_eat {token : α} {wanted : UInt16} {more : Utf16} {rest : List α}
    (eaten : eat view (wanted :: more) (token :: tokens) = some rest) :
    ∃ unit, view token = some unit ∧ lower unit = wanted := by
  rw [eat] at eaten
  split at eaten
  next same =>
    obtain ⟨unit, seen, letter⟩ := (Option.any_eq_true _ _).1 same
    exact ⟨unit, seen, beq_iff_eq.1 letter⟩
  next => contradiction

omit fills in
theorem view_of_textOf {text : Utf16} (read : textOf view tokens = some text) :
    ∀ token ∈ tokens, ∃ unit, view token = some unit := by
  induction tokens generalizing text with
  | nil => simp
  | cons token tokens ih =>
      rw [textOf, List.mapM_cons] at read
      obtain ⟨unit, seen, read⟩ := Option.bind_eq_some_iff.1 read
      obtain ⟨rest, later, _⟩ := Option.bind_eq_some_iff.1 read
      exact List.forall_mem_cons.2 ⟨⟨unit, seen⟩, ih later⟩

/-- A template whose host is written out has the host and the segments of each filling. -/
theorem partsOf_filled (read : partsOf view tokens = some parts)
    (literal : textOf view parts.host = some host) (named : host ≠ []) :
    ∃ parts', partsOf some (filled fill tokens) = some parts' ∧ parts'.host = host ∧
      parts'.segments = parts.filled fill := by
  obtain ⟨rest, eaten, rfl⟩ := Option.map_eq_some_iff.1 read
  obtain ⟨token, more, begins, unit, seen, visible⟩ : ∃ token more,
      clean view tokens = token :: more ∧ ∃ unit, view token = some unit ∧
        isBlank unit = false := by
    cases begins : clean view tokens with
    | nil =>
        rw [begins] at eaten
        contradiction
    | cons token more =>
        rw [begins] at eaten
        obtain ⟨unit, seen, letter⟩ := unit_of_eat eaten
        refine ⟨token, more, rfl, unit, seen, ?_⟩
        cases blank : isBlank unit with
        | false => rfl
        | true =>
            obtain rfl | rfl := lower_eq letter <;> contradiction
  have cleaned := clean_filled fills begins seen visible
  have parted := List.rdropWhile_append_rtakeWhile (p := isFaint fill) (l := clean view tokens)
  have faint : ∀ token ∈ (clean view tokens).rtakeWhile (isFaint fill),
      isFaint fill token = true := fun _ => List.mem_rtakeWhile_imp
  have last : ∀ some' : (clean view tokens) ≠ [],
      ¬ is view isBlank ((clean view tokens).getLast some') = true := by
    rw [clean_eq]
    exact List.rdropWhile_last_not _ _
  have ended : ((clean view tokens).rdropWhile (isFaint fill)).rdropWhile (isFaint fill) =
      (clean view tokens).rdropWhile (isFaint fill) := List.rdropWhile_idempotent _ _
  rw [← parted] at eaten last
  revert eaten cleaned faint last ended
  generalize (clean view tokens).rdropWhile (isFaint fill) = text
  generalize (clean view tokens).rtakeWhile (isFaint fill) = quiet
  intro eaten cleaned faint last ended
  obtain ⟨rest', eaten', rfl⟩ := eat_append fills (by decide) faint eaten
  obtain ⟨sameHost, segments⟩ :=
    @partsBehind_append _ _ rest' _ (quiet_of_faint fills faint)
  -- the last token is no blank, so one that shows nothing is open
  have written : (partsBehind view (rest' ++ quiet)).host = (partsBehind view rest').host := by
    cases sameHost with
    | inl same => exact same
    | inr longer =>
        rcases List.eq_nil_or_concat' quiet with rfl | ⟨start, final, rfl⟩
        · rw [longer, List.append_nil]
        · rw [longer] at literal
          have inside : final ∈ (partsBehind view rest').host ++ (start ++ [final]) := by simp
          obtain ⟨unit, seen'⟩ := view_of_textOf literal final inside
          obtain ⟨other, seen'', blank⟩ | ⟨open', _⟩ :=
            faint_cases fills (faint final (by simp))
          · have stays := last (by simp)
            simp only [← List.append_assoc, List.getLast_append_singleton] at stays
            rw [is_of_view seen''] at stays
            exact absurd blank stays
          · rw [open'] at seen'
            contradiction
  rw [written] at literal
  have host' := filled_of_textOf fills literal
  have parsed : partsOf some (filled fill tokens) =
      some (partsBehind some (filled fill rest')) := by
    have eaten'' := eat_filled fills eaten' []
    rw [List.append_nil, List.append_nil] at eaten''
    rw [partsOf, cleaned, eaten'']
    rfl
  obtain ⟨hosts, same⟩ := @partsBehind_filled _ _ _ rest' fills (host' ▸ named)
  refine ⟨_, parsed, hosts.trans host', same.trans ?_⟩
  rw [Parts.filled]
  obtain ⟨closed, same, only⟩ | ⟨closed, closed', same⟩ | ⟨opened, same⟩ := segments
  · rw [closed, same, only]
    rfl
  · obtain ⟨pieces, final, parts, within⟩ := getLast_segments_suffix closed'
    have whole : (filled fill final).rdropWhile isBlank = filled fill final := by
      rw [rdropWhile_filled fills, rdropWhile_of_suffix (within.trans (eat_suffix eaten')) ended]
    have blank : ∀ unit ∈ (filled fill quiet).reverse, isBlank unit = true := by
      intro unit inside
      obtain ⟨token, member, here⟩ := List.mem_flatMap.1 (List.mem_reverse.1 inside)
      exact List.all_eq_true.1 (faint token member) unit here
    have dropped : (filled fill (final ++ quiet)).rdropWhile isBlank = filled fill final := by
      rw [filled_append, List.rdropWhile, List.reverse_append, List.dropWhile_append_of_pos blank]
      exact whole
    rw [closed, same, parts, List.modifyLast_concat, List.map_append, List.map_append]
    simp only [List.isEmpty_nil, if_true, List.map_singleton]
    rw [List.modifyLast_concat, dropped]
  · have filledTail : (partsBehind view (rest' ++ quiet)).tail.isEmpty = false := by
      cases after : (partsBehind view (rest' ++ quiet)).tail with
      | nil => exact absurd after opened
      | cons => rfl
    rw [filledTail, same]
    rfl

end Filled

/-! ## Dots in fillings -/

section Astray

variable {α : Type} (view : α → Option UInt16)

/-- Whether filled segments lead somewhere else than the template: an open segment that is filled
as a dot segment goes missing in the path, or takes another segment along, until the template
itself leaves everything behind.  At the end a dot leaves an empty segment in its place. -/
def astray : Nat → Bool → List (List α × Utf16) → Bool
  | _, lost, [] => lost
  | depth, lost, (segment, text) :: rest =>
      let more := if rest.isEmpty then 1 else 0
      match textOf view segment with
      | some _ =>
          if isDoubleDot text then astray (depth - 1 + more) (lost && decide (1 < depth)) rest
          else if isDot text then astray (depth + more) lost rest
          else astray (depth + 1) lost rest
      | none =>
          if isDoubleDot text then astray (depth + 1) (lost || !(rest.isEmpty && depth == 0)) rest
          else if isDot text then astray (depth + 1) (lost || !rest.isEmpty) rest
          else astray (depth + 1) lost rest

/-- A segment that is written out is filled as it is. -/
def Agrees (segment : List α) (text : Utf16) : Prop :=
  ∀ literal, textOf view segment = some literal → literal = text

/-- Where a template and a filling of it have come to. -/
structure Abreast (path : List (List α)) (texts : List Utf16) (depth : Nat) (lost : Bool) :
    Prop where
  deep : path.length = depth
  behind : lost = true → texts.length < path.length
  level : lost = false → List.Forall₂ (Agrees view) path texts

variable {view} {path : List (List α)} {texts : List Utf16} {depth : Nat} {lost : Bool}

namespace Abreast

theorem length_le (abreast : Abreast view path texts depth lost) :
    texts.length ≤ path.length := by
  cases lost with
  | true => exact Nat.le_of_lt (abreast.behind rfl)
  | false => exact Nat.le_of_eq (abreast.level rfl).length_eq.symm

theorem push (abreast : Abreast view path texts depth lost) {segment : List α} {text : Utf16}
    (agrees : Agrees view segment text) :
    Abreast view (path ++ [segment]) (texts ++ [text]) (depth + 1) lost := by
  constructor
  · rw [List.length_append, abreast.deep]
    rfl
  · intro gone
    have shorter := abreast.behind gone
    simp only [List.length_append, List.length_singleton]
    omega
  · intro kept
    exact List.rel_append (abreast.level kept) (.cons agrees .nil)

/-- Both go up, and what was lost is forgotten where nothing is left. -/
theorem up (abreast : Abreast view path texts depth lost) :
    Abreast view path.dropLast texts.dropLast (depth - 1) (lost && decide (1 < depth)) := by
  have deep := abreast.deep
  constructor
  · rw [List.length_dropLast, deep]
  · intro gone
    obtain ⟨gone, deeper⟩ := Bool.and_eq_true_iff.1 gone
    have shorter := abreast.behind gone
    have deeper := of_decide_eq_true deeper
    simp only [List.length_dropLast]
    omega
  · intro kept
    cases lost with
    | false =>
        have level := abreast.level rfl
        rw [List.dropLast_eq_take, List.dropLast_eq_take, ← level.length_eq]
        exact List.forall₂_take _ level
    | true =>
        have shallow := of_decide_eq_false kept
        have shorter := abreast.behind rfl
        have none' : path.dropLast = [] := by
          rw [← List.length_eq_zero_iff, List.length_dropLast]
          omega
        have none'' : texts.dropLast = [] := by
          rw [← List.length_eq_zero_iff, List.length_dropLast]
          omega
        rw [none', none'']
        exact .nil

theorem agrees_nil : Agrees view [] [] := by
  intro literal read
  exact (Option.some.inj read).symm

theorem lastly (abreast : Abreast view path texts depth lost) (rest : List (List α × Utf16)) :
    Abreast view (path ++ Url.lastly (rest.map Prod.fst)) (texts ++ Url.lastly (rest.map Prod.snd))
      (depth + if rest.isEmpty then 1 else 0) lost := by
  cases rest with
  | nil => exact abreast.push agrees_nil
  | cons =>
      rw [Url.lastly, Url.lastly]
      simpa using abreast

/-- An open segment whose filling takes no place. -/
theorem fallBehind (abreast : Abreast view path texts depth lost) {segment : List α}
    {texts' : List Utf16} (shorter : texts'.length ≤ path.length) :
    Abreast view (path ++ [segment]) texts' (depth + 1) true := by
  constructor
  · rw [List.length_append, abreast.deep]
    rfl
  · intro _
    rw [List.length_append, List.length_singleton]
    omega
  · intro kept
    contradiction

variable {segment : List α} (open' : textOf view segment = none) (rest : List (List α × Utf16))

include open'

theorem pushOpen (abreast : Abreast view path texts depth lost) (text : Utf16) :
    Abreast view (path ++ [segment]) (texts ++ [text]) (depth + 1) lost := by
  apply abreast.push
  intro literal read
  rw [open'] at read
  contradiction

/-- An open segment that is filled with one dot. -/
theorem pushDot (abreast : Abreast view path texts depth lost) :
    Abreast view (path ++ [segment]) (texts ++ Url.lastly (rest.map Prod.snd)) (depth + 1)
      (lost || !rest.isEmpty) := by
  cases rest with
  | nil =>
      have kept : (lost || !List.isEmpty (α := List α × Utf16) []) = lost := Bool.or_false lost
      rw [kept]
      exact abreast.pushOpen open' []
  | cons next rest =>
      have gone : (lost || !(next :: rest).isEmpty) = true := Bool.or_true lost
      have none' : Url.lastly ((next :: rest).map Prod.snd) = [] := rfl
      rw [gone, none', List.append_nil]
      exact abreast.fallBehind abreast.length_le

/-- An open segment that is filled with two dots. -/
theorem pushDoubleDot (abreast : Abreast view path texts depth lost) :
    Abreast view (path ++ [segment]) (texts.dropLast ++ Url.lastly (rest.map Prod.snd)) (depth + 1)
      (lost || !(rest.isEmpty && depth == 0)) := by
  have deep := abreast.deep
  have short := abreast.length_le
  cases rest with
  | cons next rest =>
      have gone : (lost || !((next :: rest).isEmpty && depth == 0)) = true := Bool.or_true lost
      have none' : Url.lastly ((next :: rest).map Prod.snd) = [] := rfl
      rw [gone, none', List.append_nil]
      apply abreast.fallBehind
      rw [List.length_dropLast]
      omega
  | nil =>
      cases depth with
      | zero =>
          have kept : (lost || !(List.isEmpty (α := List α × Utf16) [] && 0 == 0)) = lost :=
            Bool.or_false lost
          have none' : texts = [] := by
            rw [← List.length_eq_zero_iff]
            omega
          have pushed := abreast.pushOpen open' []
          rw [kept]
          rw [none'] at pushed ⊢
          exact pushed
      | succ depth =>
          have gone : (lost || !(List.isEmpty (α := List α × Utf16) [] && depth + 1 == 0)) = true :=
            Bool.or_true lost
          rw [gone]
          apply abreast.fallBehind
          simp only [Url.lastly, List.map_nil, List.isEmpty_nil, if_true, List.length_append,
            List.length_dropLast, List.length_singleton]
          omega

end Abreast

/-- The template and its filling, followed to the end. -/
theorem abreast_follow (pairs : List (List α × Utf16))
    (agree : ∀ pair ∈ pairs, Agrees view pair.1 pair.2)
    (abreast : Abreast view path texts depth lost) :
    ∃ deep, Abreast view (follow view path (pairs.map Prod.fst))
      (follow some texts (pairs.map Prod.snd)) deep (astray view depth lost pairs) := by
  induction pairs generalizing path texts depth lost with
  | nil => exact ⟨depth, abreast⟩
  | cons pair rest ih =>
      obtain ⟨segment, text⟩ := pair
      have later := fun pair inside => agree pair (List.mem_cons_of_mem _ inside)
      have here := agree (segment, text) List.mem_cons_self
      rw [List.map_cons, List.map_cons, follow, follow, astray, textOf_some, Option.any_some,
        Option.any_some]
      cases read : textOf view segment with
      | some literal =>
          obtain rfl := here literal read
          simp only [Option.any_some]
          cases isDoubleDot literal with
          | true => exact ih later (abreast.up.lastly rest)
          | false =>
              cases isDot literal with
              | true => exact ih later (abreast.lastly rest)
              | false => exact ih later (abreast.push here)
      | none =>
          simp only [Option.any_none, Bool.false_eq_true, if_false]
          cases isDoubleDot text with
          | true => exact ih later (abreast.pushDoubleDot read rest)
          | false =>
              cases isDot text with
              | true => exact ih later (abreast.pushDot read rest)
              | false => exact ih later (abreast.pushOpen read text)

theorem exists_at {β γ : Type} {related : β → γ → Prop} {first : List β} {second : List γ}
    (level : List.Forall₂ related first second) {place : Nat} {item : β}
    (here : first[place]? = some item) : ∃ other, second[place]? = some other ∧ related item other := by
  induction level generalizing place with
  | nil => contradiction
  | cons paired _ ih =>
      cases place with
      | zero =>
          obtain rfl := Option.some.inj here
          exact ⟨_, rfl, paired⟩
      | succ place => exact ih here

/-- A path is in place: it is as long as that of the template, and what is written out there stands
where it stood. -/
def InPlace (view : α → Option UInt16) (segments : List (List α)) (path : List Utf16) : Prop :=
  (follow view [] segments).length = path.length ∧
    ∀ (place : Nat) (segment : List α) (literal : Utf16),
      (follow view [] segments)[place]? = some segment → textOf view segment = some literal →
        path[place]? = some (encodePath literal)

/-- A filling stays in place exactly if it does not lead astray. -/
theorem inPlace_iff {segments : List (List α)} {texts : List Utf16}
    (same : segments.length = texts.length)
    (agree : ∀ pair ∈ segments.zip texts, Agrees view pair.1 pair.2) :
    InPlace view segments (pathOf texts) ↔ astray view 0 false (segments.zip texts) = false := by
  have root : Abreast view [] [] 0 false := ⟨rfl, fun gone => by contradiction, fun _ => .nil⟩
  obtain ⟨deep, abreast⟩ := abreast_follow (segments.zip texts) agree root
  rw [List.map_fst_zip (Nat.le_of_eq same), List.map_snd_zip (Nat.le_of_eq same.symm)] at abreast
  constructor
  · intro inPlace
    cases gone : astray view 0 false (segments.zip texts) with
    | false => rfl
    | true =>
        rw [gone] at abreast
        have shorter := abreast.behind rfl
        have level := inPlace.1
        rw [pathOf, List.length_map] at level
        omega
  · intro kept
    have level := abreast.level kept
    refine ⟨?_, ?_⟩
    · rw [pathOf, List.length_map, level.length_eq]
    · intro place segment literal here read
      obtain ⟨text, there, agrees⟩ := exists_at level here
      rw [pathOf, List.getElem?_map, there, Option.map_some, agrees literal read]

variable {fill : α → Utf16} {tokens : List α} {parts : Parts α}

/-- What is written out in a template is filled as it is. -/
theorem agrees_filled (fills : Fills view fill) (read : partsOf view tokens = some parts) :
    parts.segments.length = (parts.filled fill).length ∧
      ∀ pair ∈ parts.segments.zip (parts.filled fill), Agrees view pair.1 pair.2 := by
  have mapped : ∀ segments : List (List α), ∀ pair ∈ segments.zip (segments.map (filled fill)),
      Agrees view pair.1 pair.2 := by
    intro segments
    induction segments with
    | nil => simp
    | cons segment segments ih =>
        rw [List.map_cons, List.zip_cons_cons]
        refine List.forall_mem_cons.2 ⟨?_, ih⟩
        intro literal written
        exact (filled_of_textOf fills written).symm
  obtain ⟨rest, eaten, rfl⟩ := Option.map_eq_some_iff.1 read
  rw [Parts.filled]
  cases closed : (partsBehind view rest).tail with
  | cons token tail => exact ⟨(List.length_map _).symm, mapped _⟩
  | nil =>
      obtain ⟨pieces, last, same, part⟩ := getLast_segments_suffix closed
      simp only [List.isEmpty_nil, if_true, same, List.map_append, List.map_singleton,
        List.modifyLast_concat]
      refine ⟨by simp, ?_⟩
      rw [List.zip_append (List.length_map _).symm]
      refine List.forall_mem_append.2 ⟨mapped pieces, List.forall_mem_singleton.2 ?_⟩
      intro literal written
      have cleaned : (clean view tokens).rdropWhile (is view isBlank) = clean view tokens := by
        rw [clean_eq, List.rdropWhile_idempotent]
      have stays := rdropWhile_of_suffix (part.trans (eat_suffix eaten)) cleaned
      have whole : last.rdropWhile (isFaint fill) = last := by
        rw [List.rdropWhile_eq_self_iff] at stays ⊢
        intro some' faint
        obtain ⟨unit, seen⟩ := view_of_textOf written _ (List.getLast_mem some')
        obtain ⟨other, seen', blank⟩ | ⟨open', _⟩ := faint_cases fills faint
        · exact stays some' ((is_of_view seen' isBlank).trans blank)
        · rw [open'] at seen
          contradiction
      rw [rdropWhile_filled fills, whole, filled_of_textOf fills written]

/-- The path of a filling is in place exactly if its dots do not lead astray. -/
theorem inPlace_filled_iff (fills : Fills view fill) (read : partsOf view tokens = some parts) :
    InPlace view parts.segments (pathOf (parts.filled fill)) ↔
      astray view 0 false (parts.segments.zip (parts.filled fill)) = false :=
  inPlace_iff (agrees_filled fills read).1 (agrees_filled fills read).2

end Astray

end Url
