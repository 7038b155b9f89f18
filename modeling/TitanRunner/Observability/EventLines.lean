import TitanRunner.Observability.Events
import TitanRunner.Orchestrator.Deliverable

/-!
# The lines of an event file

An object is written as one line.  The beginning of such a line is no JSON, whatever a cut
character at its end reads as; so a reader tells whole lines from torn ones.
-/

namespace TitanRunner

namespace EventLog

open Utf16 OutputParser

/-! ## The text of an object -/

section Text

theorem newline_not_mem_number {text : Utf16} (number : Json.isNumber text = true) :
    0x0A ∉ text := by
  apply Json.not_mem_number _ rfl number
  intro phase
  cases phase <;> rfl

mutual

theorem newline_not_mem_render (value : Json) (proper : Json.isProper value = true) (depth : Nat) :
    0x0A ∉ Json.render [] depth value := by
  match value with
  | .null | .bool true | .bool false | .array [] | .object [] =>
      rw [Json.render]
      decide
  | .number text =>
      rw [Json.render]
      exact newline_not_mem_number proper
  | .string text =>
      rw [Json.render]
      exact not_mem_quote text
  | .array (item :: items) =>
      rw [Json.isProper, Json.areProper, Bool.and_eq_true] at proper
      rw [Json.render]
      simp only [Json.breakLine_nil, List.append_assoc, List.cons_append, List.nil_append]
      apply List.not_mem_cons_of_ne_of_not_mem (by decide)
      apply List.not_mem_append (newline_not_mem_render item proper.1 (depth + 1))
      apply List.not_mem_append (newline_not_mem_renderItems items proper.2 (depth + 1))
      decide
  | .object ((key, item) :: members) =>
      rw [Json.isProper, Json.areProperMembers, Bool.and_eq_true] at proper
      rw [Json.render]
      simp only [Json.breakLine_nil, Json.colonOf, List.isEmpty_nil, if_true, List.append_assoc,
        List.cons_append, List.nil_append]
      apply List.not_mem_cons_of_ne_of_not_mem (by decide)
      apply List.not_mem_append (not_mem_quote key)
      apply List.not_mem_cons_of_ne_of_not_mem (by decide)
      apply List.not_mem_append (newline_not_mem_render item proper.1 (depth + 1))
      apply List.not_mem_append (newline_not_mem_renderMembers members proper.2 (depth + 1))
      decide

theorem newline_not_mem_renderItems (items : List Json) (proper : Json.areProper items = true)
    (depth : Nat) : 0x0A ∉ Json.renderItems [] depth items := by
  match items with
  | [] =>
      rw [Json.renderItems]
      exact List.not_mem_nil
  | item :: items =>
      rw [Json.areProper, Bool.and_eq_true] at proper
      rw [Json.renderItems]
      simp only [Json.breakLine_nil, List.cons_append, List.nil_append]
      apply List.not_mem_cons_of_ne_of_not_mem (by decide)
      exact List.not_mem_append (newline_not_mem_render item proper.1 depth)
        (newline_not_mem_renderItems items proper.2 depth)

theorem newline_not_mem_renderMembers (members : List (Utf16 × Json))
    (proper : Json.areProperMembers members = true) (depth : Nat) :
    0x0A ∉ Json.renderMembers [] depth members := by
  match members with
  | [] =>
      rw [Json.renderMembers]
      exact List.not_mem_nil
  | (key, item) :: members =>
      rw [Json.areProperMembers, Bool.and_eq_true] at proper
      rw [Json.renderMembers]
      simp only [Json.breakLine_nil, Json.colonOf, List.isEmpty_nil, if_true, List.append_assoc,
        List.cons_append, List.nil_append]
      apply List.not_mem_cons_of_ne_of_not_mem (by decide)
      apply List.not_mem_append (not_mem_quote key)
      apply List.not_mem_cons_of_ne_of_not_mem (by decide)
      exact List.not_mem_append (newline_not_mem_render item proper.1 depth)
        (newline_not_mem_renderMembers members proper.2 depth)

end

theorem stringify_object (members : List (Utf16 × Json)) :
    ∃ middle, Json.stringify (.object members) = openBrace :: (middle ++ [0x7D]) := by
  rw [Json.stringify]
  cases members with
  | nil => exact ⟨[], by rw [Json.render]; rfl⟩
  | cons member members =>
      rw [Json.render]
      simp only [List.cons_append]
      exact ⟨_, rfl⟩

end Text

/-! ## Whole and torn lines -/

/-- The line of an object. -/
structure Whole (row : Utf16) (event : Json) : Prop where
  object : ∃ members, event = .object members
  proper : Json.isProper event = true
  written : row = Json.stringify event

/-- The beginning of such a line; `junk` is what a cut character reads as. -/
structure Torn (row : Utf16) : Prop where
  begun : ∃ event line kept rest junk, Whole line event ∧ line = kept ++ rest ∧ kept ≠ [] ∧
    rest ≠ [] ∧ row = kept ++ junk ∧ ∀ unit ∈ junk, unit = 0xFFFD

section Rows

variable {row : Utf16} {event : Json}

theorem Whole.shape (whole : Whole row event) : ∃ middle, row = openBrace :: (middle ++ [0x7D]) := by
  have ⟨members, object⟩ := whole.object
  rw [whole.written, object]
  exact stringify_object members

theorem Whole.parse (whole : Whole row event) : Json.parse row = some event := by
  rw [whole.written]
  exact Json.parse_stringify whole.proper

theorem Whole.single (whole : Whole row event) : 0x0A ∉ row := by
  rw [whole.written]
  exact newline_not_mem_render event whole.proper 0

theorem Torn.starts (torn : Torn row) : ∃ rest, row = openBrace :: rest := by
  have ⟨event, line, kept, rest, junk, whole, parts, some', _, same, _⟩ := torn.begun
  have ⟨middle, shape⟩ := whole.shape
  cases kept with
  | nil => exact absurd rfl some'
  | cons unit kept =>
      rw [shape] at parts
      rw [same, ← List.head_eq_of_cons_eq parts]
      exact ⟨kept ++ junk, rfl⟩

theorem Torn.single (torn : Torn row) : 0x0A ∉ row := by
  have ⟨event, line, kept, rest, junk, whole, parts, _, _, same, cut⟩ := torn.begun
  rw [same]
  apply List.not_mem_append
  · intro inside
    apply whole.single
    rw [parts]
    exact List.mem_append_left _ inside
  · intro inside
    have other := cut _ inside
    contradiction

/-- A torn line is no JSON. -/
theorem Torn.parse (torn : Torn row) : Json.parse row = none := by
  have ⟨other, starts⟩ := torn.starts
  have ⟨event, line, kept, rest, junk, whole, parts, _, some', same, cut⟩ := torn.begun
  cases parsed : Json.parse row with
  | none => rfl
  | some value =>
      exfalso
      have first : row.head? = some openBrace := by rw [starts]; rfl
      have ⟨within, spaces, closed, blank, found⟩ := extractBalancedObject_of_parse first parsed
      have ⟨middle, shape⟩ := whole.shape
      have first' : line.head? = some openBrace := by rw [shape]; rfl
      have ⟨within', spaces', closed', blank', found'⟩ :=
        extractBalancedObject_of_parse first' whole.parse
      -- The whole line ends with its closing brace.
      have ends : line = within' ++ [0x7D] := by
        cases List.eq_nil_or_concat spaces' with
        | inl none' => rw [closed', none']
        | inr more =>
            have ⟨earlier, last, same'⟩ := more
            have space := blank' last (by rw [same']; simp)
            rw [same', List.concat_eq_append, ← List.cons_append, ← List.append_assoc,
              shape, ← List.cons_append] at closed'
            have brace := List.append_inj_right' closed' rfl
            cases brace
            contradiction
      -- The torn one ends with a brace or white space, so no character was cut.
      have uncut : junk = [] := by
        cases List.eq_nil_or_concat junk with
        | inl none' => exact none'
        | inr more =>
            exfalso
            have ⟨earlier, last, same'⟩ := more
            have mark := cut last (by rw [same']; simp)
            rw [same, same', List.concat_eq_append, ← List.append_assoc] at closed
            cases List.eq_nil_or_concat spaces with
            | inl none' =>
                rw [none'] at closed
                have brace := List.append_inj_right' closed rfl
                cases brace
                contradiction
            | inr more' =>
                have ⟨earlier', last', same''⟩ := more'
                have space := blank last' (by rw [same'']; simp)
                rw [same'', List.concat_eq_append, ← List.cons_append, ← List.append_assoc] at closed
                have equal := List.append_inj_right' closed rfl
                cases equal
                rw [mark] at space
                contradiction
      rw [uncut, List.append_nil] at same
      have cutOut := found rest
      rw [same, ← parts, ← List.append_nil line, found' [], ← ends] at cutOut
      have lengths := congrArg List.length (Option.some.inj cutOut)
      have counted := congrArg List.length closed
      have counted' := congrArg List.length parts
      have long := List.length_pos_of_ne_nil some'
      rw [same] at counted
      simp only [List.length_append, List.length_cons, List.length_nil] at lengths counted counted'
      omega

/-- A line of a file, whole or torn. -/
def IsRow (row : Utf16) : Prop := (∃ event, Whole row event) ∨ Torn row

theorem IsRow.starts (isRow : IsRow row) : ∃ rest, row = openBrace :: rest := by
  cases isRow with
  | inl whole =>
      have ⟨event, whole⟩ := whole
      have ⟨middle, shape⟩ := whole.shape
      exact ⟨_, shape⟩
  | inr torn => exact torn.starts

theorem IsRow.single (isRow : IsRow row) : 0x0A ∉ row := by
  cases isRow with
  | inl whole =>
      have ⟨event, whole⟩ := whole
      exact whole.single
  | inr torn => exact torn.single

/-- White space that is trimmed off a line makes no JSON of it. -/
theorem IsRow.parse_trim (isRow : IsRow row) : Json.parse (Utf16.trim row) = Json.parse row := by
  cases isRow with
  | inl whole =>
      have ⟨event, whole⟩ := whole
      have ⟨middle, shape⟩ := whole.shape
      have trimmed : Utf16.trim row = row := by
        rw [shape]
        exact trim_of_visible rfl rfl (List.forall_mem_nil _)
      rw [trimmed]
  | inr torn =>
      have ⟨others, starts⟩ := torn.starts
      have ⟨left, spaces, trimmed, whole', blank⟩ := trim_cons (rfl : isSpaceUnit openBrace = false) others
      rw [← starts] at trimmed whole'
      cases List.eq_nil_or_concat spaces with
      | inl none' =>
          rw [none', List.append_nil, ← trimmed] at whole'
          rw [← whole']
      | inr some' =>
          have ⟨earlier, last, same⟩ := some'
          rw [List.concat_eq_append] at same
          have space := blank last (by rw [same]; exact List.mem_concat_self)
          have ⟨event, line, kept, rest, junk, whole, parts, _, behind, row', cut⟩ := torn.begun
          have uncut : junk = [] := by
            cases List.eq_nil_or_concat junk with
            | inl none' => exact none'
            | inr more =>
                have ⟨first, mark, same'⟩ := more
                rw [List.concat_eq_append] at same'
                have replaced := cut mark (by rw [same']; exact List.mem_concat_self)
                rw [row', same', same, ← List.append_assoc, ← List.append_assoc] at whole'
                have equal := List.append_inj_right' whole' rfl
                cases equal
                rw [replaced] at space
                contradiction
          rw [uncut, List.append_nil] at row'
          have shorter : Torn (Utf16.trim row) := by
            constructor
            exists event, line, Utf16.trim row, spaces ++ rest, []
            constructor
            · exact whole
            constructor
            · rw [parts, ← row', trimmed, ← List.append_assoc, ← whole']
            constructor
            · rw [trimmed]
              exact List.cons_ne_nil _ _
            constructor
            · exact List.append_ne_nil_of_right_ne_nil _ behind
            constructor
            · exact (List.append_nil _).symm
            · exact List.forall_mem_nil _
          rw [shorter.parse, torn.parse]

end Rows

/-! ## The text of a file -/

/-- Rows that are ended, and what stands behind the last newline. -/
def glue (rows : List Utf16) (last : Utf16) : Utf16 := (rows.map (· ++ [0x0A])).flatten ++ last

/-- The lines of a file. -/
structure Shows (text : Utf16) (rows : List Utf16) (last : Utf16) : Prop where
  glued : text = glue rows last
  rows : ∀ row ∈ rows, IsRow row
  last : last = [] ∨ IsRow last

section Files

variable {text last row : Utf16} {rows : List Utf16}

theorem glue_cons (first : Utf16) (rows : List Utf16) (last : Utf16) :
    glue (first :: rows) last = first ++ 0x0A :: glue rows last := by
  rw [glue, List.map_cons, List.flatten_cons, List.append_assoc, List.append_assoc]
  rfl

theorem glue_append (rows more : List Utf16) (last : Utf16) :
    glue (rows ++ more) last = glue rows [] ++ glue more last := by
  rw [glue, glue, glue, List.map_append, List.flatten_append, List.append_nil, List.append_assoc]

theorem split_glued (all : ∀ row ∈ rows, 0x0A ∉ row) (single : 0x0A ∉ last) :
    Utf16.split 0x0A (glue rows last) = rows ++ [last] := by
  induction rows with
  | nil => exact split_of_not_mem single
  | cons first rows ih =>
      rw [glue_cons, split_append, split_of_not_mem (all first List.mem_cons_self),
        ih fun row inside => all row (List.mem_cons_of_mem _ inside)]
      rfl

theorem Shows.split (shows' : Shows text rows last) : Utf16.split 0x0A text = rows ++ [last] := by
  have ⟨glued, all, ended⟩ := shows'
  rw [glued]
  apply split_glued
  · intro row inside
    exact (all row inside).single
  · cases ended with
    | inl none' =>
        rw [none']
        exact List.not_mem_nil
    | inr isRow => exact isRow.single

/-- What is read is what is JSON. -/
theorem Shows.readJsonlFile (shows' : Shows text rows last) :
    readJsonlFile text = (rows ++ [last]).filterMap Json.parse := by
  rw [EventLog.readJsonlFile, shows'.split]
  apply List.filterMap_congr
  intro line _
  cases line with
  | nil => rfl
  | cons unit rest => rfl

/-- A file ends a line unless something stands behind its last newline. -/
theorem Shows.needsNewline (shows' : Shows text rows last) :
    (!text.isEmpty && text.getLast? != some 0x0A) = !last.isEmpty := by
  have ⟨glued, _, ended⟩ := shows'
  rw [glued, glue]
  cases ended with
  | inl none' =>
      rw [none', List.append_nil]
      cases List.eq_nil_or_concat rows with
      | inl empty =>
          rw [empty]
          rfl
      | inr some' =>
          have ⟨earlier, final, same⟩ := some'
          rw [same, List.concat_eq_append, List.map_append, List.flatten_append]
          simp
  | inr isRow =>
      have some' : last ≠ [] := by
        have ⟨rest, starts⟩ := isRow.starts
        rw [starts]
        exact List.cons_ne_nil _ _
      have unended : last.getLast? ≠ some 0x0A := fun same =>
        isRow.single (List.mem_of_getLast? same)
      rw [List.getLast?_append_of_ne_nil _ some', bne_iff_ne.2 unended,
        List.isEmpty_eq_false_iff.2 some',
        List.isEmpty_eq_false_iff.2 (List.append_ne_nil_of_right_ne_nil _ some')]
      rfl

/-- The lines with something in them. -/
def filled (rows : List Utf16) (last : Utf16) : List Utf16 :=
  if last.isEmpty then rows else rows ++ [last]

theorem Shows.filled (shows' : Shows text rows last) : ∀ row ∈ filled rows last, IsRow row := by
  intro row inside
  rw [EventLog.filled] at inside
  split at inside
  · exact shows'.rows row inside
  next some' =>
    cases List.mem_append.1 inside with
    | inl earlier => exact shows'.rows row earlier
    | inr here =>
        rw [List.mem_singleton.1 here]
        cases shows'.last with
        | inl none' => exact absurd (List.isEmpty_iff.2 none') some'
        | inr isRow => exact isRow

/-- White space at the end of a text is trimmed off its last line. -/
theorem trim_glue {earlier : List Utf16} {spaces : Utf16} (isRow : IsRow row)
    (all : ∀ row ∈ earlier, IsRow row) (blank : ∀ unit ∈ spaces, isSpaceUnit unit = true) :
    Utf16.trim (glue earlier row ++ spaces) = glue earlier (Utf16.trim row) := by
  have ⟨others, starts⟩ := isRow.starts
  have ⟨rest, begins⟩ : ∃ rest, glue earlier row ++ spaces = openBrace :: rest := by
    cases earlier with
    | nil => exact ⟨others ++ spaces, by rw [starts]; rfl⟩
    | cons first earlier =>
        have ⟨others', starts'⟩ := (all first List.mem_cons_self).starts
        rw [glue_cons, starts']
        exact ⟨_, rfl⟩
  have visible : ¬ isSpaceUnit openBrace = true := Bool.false_ne_true
  have kept : (row.reverse.dropWhile isSpaceUnit).isEmpty = false := by
    rw [List.isEmpty_eq_false_iff]
    intro empty
    rw [starts, List.dropWhile_eq_nil_iff] at empty
    have space := empty openBrace (by rw [List.mem_reverse]; exact List.mem_cons_self)
    contradiction
  have row' : row.dropWhile isSpaceUnit = row := by
    rw [starts, List.dropWhile_cons_of_neg visible]
  have whole : (glue earlier row ++ spaces).dropWhile isSpaceUnit = glue earlier row ++ spaces := by
    rw [begins, List.dropWhile_cons_of_neg visible]
  rw [Utf16.trim, Utf16.trim, whole, row', List.reverse_append,
    List.dropWhile_append_of_pos fun unit inside => blank unit (List.mem_reverse.1 inside), glue,
    List.reverse_append, List.dropWhile_append, kept, if_neg Bool.false_ne_true,
    List.reverse_append, List.reverse_reverse, glue]

/-- A new process looks at the last lines with something in them. -/
theorem Shows.lastLines {α : Type} {read : Utf16 → Option α} (shows' : Shows text rows last)
    (nothing : read [] = none) (trimmed : ∀ row, IsRow row → read (Utf16.trim row) = read row) :
    (lastLines text).findSome? read =
      ((EventLog.filled rows last).reverse.take 5).findSome? read := by
  cases List.eq_nil_or_concat (EventLog.filled rows last) with
  | inl none' =>
      have empty : rows = [] ∧ last = [] := by
        rw [EventLog.filled] at none'
        split at none'
        next empty => exact ⟨none', List.isEmpty_iff.1 empty⟩
        next => simp at none'
      rw [shows'.glued, empty.1, empty.2]
      exact (List.findSome?_singleton.trans nothing : ([[]] : List Utf16).findSome? read = none)
  | inr some' =>
      have ⟨earlier, row, same⟩ := some'
      rw [List.concat_eq_append] at same
      have all := shows'.filled
      rw [same] at all
      have isRow := all row List.mem_concat_self
      have before : ∀ row ∈ earlier, IsRow row := fun row inside =>
        all row (List.mem_append_left _ inside)
      have ⟨spaces, blank, whole⟩ : ∃ spaces, (∀ unit ∈ spaces, isSpaceUnit unit = true) ∧
          text = glue earlier row ++ spaces := by
        rw [EventLog.filled] at same
        split at same
        next empty =>
          have ended : text = glue earlier row ++ [0x0A] := by
            rw [shows'.glued, List.isEmpty_iff.1 empty, same, glue_append, glue_cons]
            simp [glue]
          exact ⟨[0x0A], List.forall_mem_singleton.2 rfl, ended⟩
        next =>
          have ⟨rows', last'⟩ := List.append_inj' same rfl
          cases List.singleton_inj.1 last'
          have ended : text = glue earlier last ++ [] := by
            rw [shows'.glued, rows', List.append_nil]
          exact ⟨[], List.forall_mem_nil _, ended⟩
      have single : 0x0A ∉ Utf16.trim row := by
        have ⟨others, starts⟩ := isRow.starts
        have ⟨left, spaces', trimmed', whole', _⟩ :=
          trim_cons (rfl : isSpaceUnit openBrace = false) others
        rw [starts, trimmed']
        intro inside
        apply isRow.single
        rw [starts, whole']
        exact List.mem_append_left _ inside
      rw [EventLog.lastLines, whole, trim_glue isRow before blank,
        split_glued (fun row inside => (before row inside).single) single, same,
        List.reverse_append, List.reverse_append, List.reverse_singleton, List.reverse_singleton,
        List.singleton_append, List.singleton_append, List.take_succ_cons, List.take_succ_cons,
        List.findSome?_cons, List.findSome?_cons, trimmed row isRow]

end Files

end EventLog

end TitanRunner
