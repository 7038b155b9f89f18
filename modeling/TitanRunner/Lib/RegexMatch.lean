import TitanRunner.Lib.Regex

/-!
# What a match consumes

The language of an expression as a relation between cursors, which forgets the order in which
the matcher tries things, and the repetitions whose end the text after them decides.
-/

namespace Regex

/-- The unit before a position that is reached by reading some units. -/
def unitBefore (before : Option UInt16) : Utf16 → Option UInt16
  | [] => before
  | unit :: rest => unitBefore (some unit) rest

theorem unitBefore_append (before : Option UInt16) (first second : Utf16) :
    unitBefore before (first ++ second) = unitBefore (unitBefore before first) second := by
  induction first generalizing before with
  | nil => rfl
  | cons unit rest ih => exact ih (some unit)

/-- The expression leads from one cursor to another. -/
def Goes : Regex → Cursor → Cursor → Prop
  | .empty, cursor, after => after = cursor
  | .oneOf class', cursor, after => ∃ unit, class' unit = true ∧ cursor.rest = unit :: after.rest ∧
      after.before = some unit ∧ after.captures = cursor.captures
  | .repeat' class' least most _, cursor, after => ∃ run, (∀ unit ∈ run, class' unit = true) ∧
      least ≤ run.length ∧ most.all (run.length ≤ ·) = true ∧ cursor.rest = run ++ after.rest ∧
      after.before = unitBefore cursor.before run ∧ after.captures = cursor.captures
  | .seq first second, cursor, after => ∃ middle, Goes first cursor middle ∧ Goes second middle after
  | .alt first second, cursor, after => Goes first cursor after ∨ Goes second cursor after
  | .capture inner, cursor, after => ∃ middle, Goes inner cursor middle ∧
      after = { middle with captures := middle.captures ++
        [cursor.rest.take (cursor.rest.length - middle.rest.length)] }
  | .wordBoundary, cursor, after => after = cursor ∧ cursor.atBoundary = true
  | .start, cursor, after => after = cursor ∧ cursor.before = none
  | .stop, cursor, after => after = cursor ∧ cursor.rest = []

section Match

variable {continue' : Cursor → Option Cursor} {result : Cursor}

theorem eq_some_of_orElse {α : Type} {first second : Option α} {result : α} (found : (first <|> second) = some result) :
    first = some result ∨ second = some result := by
  cases first with
  | none => exact .inr found
  | some _ => exact .inl found

theorem isSome_orElse {α : Type} {first second : Option α}
    (either : first.isSome = true ∨ second.isSome = true) : (first <|> second).isSome = true := by
  cases first with
  | none => exact either.resolve_left Bool.false_ne_true
  | some _ => rfl

theorem orElse_none {α : Type} (found : Option α) : (found <|> none) = found := by
  cases found with
  | none => rfl
  | some _ => rfl

section Repeat

variable {class' : UInt16 → Bool} {least : Nat} {most : Option Nat} {lazy : Bool}
  {captures : List Utf16} {count : Nat} {before : Option UInt16} {rest : Utf16}

/-- The runs a repetition may take from a count on. -/
def IsRun (class' : UInt16 → Bool) (least : Nat) (most : Option Nat) (count : Nat) (run : Utf16) :
    Prop :=
  (∀ unit ∈ run, class' unit = true) ∧ least ≤ count + run.length ∧
    most.all (count + run.length ≤ ·) = true

theorem IsRun.cons {unit : UInt16} {run : Utf16} (member : class' unit = true)
    (isRun : IsRun class' least most (count + 1) run) :
    IsRun class' least most count (unit :: run) := by
  have ⟨all, enough, bounded⟩ := isRun
  have counted : count + (unit :: run).length = count + 1 + run.length := by
    rw [List.length_cons]
    omega
  refine ⟨?_, counted ▸ enough, counted ▸ bounded⟩
  intro other inside
  cases List.mem_cons.1 inside with
  | inl first => exact first ▸ member
  | inr later => exact all other later

theorem IsRun.of_cons {unit : UInt16} {run : Utf16}
    (isRun : IsRun class' least most count (unit :: run)) :
    class' unit = true ∧ most.all (count < ·) = true ∧
      IsRun class' least most (count + 1) run := by
  have ⟨all, enough, bounded⟩ := isRun
  rw [List.length_cons] at enough bounded
  refine ⟨all unit List.mem_cons_self, ?_, ?_, by omega, ?_⟩
  · cases most with
    | none => rfl
    | some bound =>
        simp only [Option.all_some, decide_eq_true_eq] at bounded ⊢
        omega
  · exact fun other inside => all other (.tail unit inside)
  · rw [Nat.add_right_comm, Nat.add_assoc]
    exact bounded

theorem run_of_repeatUnits (within : most.all (count ≤ ·) = true)
    (found : repeatUnits class' least most lazy captures continue' count before rest =
      some result) :
    ∃ run remains, IsRun class' least most count run ∧ rest = run ++ remains ∧
      continue' { before := unitBefore before run, rest := remains, captures } = some result := by
  induction rest generalizing count before with
  | nil =>
      rw [repeatUnits] at found
      split at found
      next enough => exact ⟨[], [], ⟨nofun, enough, within⟩, rfl, found⟩
      next => contradiction
  | cons unit rest ih =>
      have either : (if least ≤ count then
            continue' { before, rest := unit :: rest, captures } else none) = some result ∨
          (if (class' unit && most.all (count < ·)) = true then
            repeatUnits class' least most lazy captures continue' (count + 1) (some unit) rest
            else none) = some result := by
        rw [repeatUnits] at found
        cases lazy with
        | true => exact eq_some_of_orElse found
        | false => exact (eq_some_of_orElse found).symm
      cases either with
      | inl here =>
          split at here
          next enough => exact ⟨[], unit :: rest, ⟨nofun, enough, within⟩, rfl, here⟩
          next => contradiction
      | inr later =>
          split at later
          next open' =>
            rw [Bool.and_eq_true] at open'
            have ⟨run, remains, isRun, same, done⟩ := ih open'.2 later
            exact ⟨unit :: run, remains, isRun.cons open'.1, congrArg (unit :: ·) same, done⟩
          next => contradiction

theorem repeatUnits_isSome {run remains : Utf16} (isRun : IsRun class' least most count run)
    (done : (continue' { before := unitBefore before run, rest := remains, captures }).isSome =
      true) :
    (repeatUnits class' least most lazy captures continue' count before
      (run ++ remains)).isSome = true := by
  induction run generalizing count before with
  | nil =>
      have enough : least ≤ count := isRun.2.1
      cases remains with
      | nil =>
          rw [List.nil_append, repeatUnits, if_pos enough]
          exact done
      | cons unit rest =>
          rw [List.nil_append, repeatUnits, if_pos enough]
          split
          next => exact isSome_orElse (.inl done)
          next => exact isSome_orElse (.inr done)
  | cons unit run ih =>
      have ⟨member, open', isRun'⟩ := isRun.of_cons
      rw [List.cons_append, repeatUnits, member, open', Bool.true_and, if_pos rfl]
      split
      next => exact isSome_orElse (.inr (ih isRun' done))
      next => exact isSome_orElse (.inl (ih isRun' done))

end Repeat

/-- A match goes where the expression leads. -/
theorem goes_of_match' {regex : Regex} {cursor : Cursor}
    (found : match' regex cursor continue' = some result) :
    ∃ after, Goes regex cursor after ∧ continue' after = some result := by
  induction regex generalizing cursor continue' with
  | empty => exact ⟨cursor, rfl, found⟩
  | oneOf class' =>
      rw [match'] at found
      split at found
      next => contradiction
      next unit rest first =>
        split at found
        next member =>
          refine ⟨{ before := some unit, rest, captures := cursor.captures }, ?_, found⟩
          exact ⟨unit, member, first, rfl, rfl⟩
        next => contradiction
  | repeat' class' least most lazy =>
      have within : most.all (0 ≤ ·) = true := by
        cases most with
        | none => rfl
        | some bound => exact decide_eq_true (Nat.zero_le bound)
      have ⟨run, remains, ⟨all, enough, bounded⟩, same, done⟩ := run_of_repeatUnits within found
      rw [Nat.zero_add] at enough bounded
      refine ⟨{ before := unitBefore cursor.before run, rest := remains
                captures := cursor.captures }, ?_, done⟩
      exact ⟨run, all, enough, bounded, same, rfl, rfl⟩
  | seq first second ihFirst ihSecond =>
      have ⟨middle, goes, found'⟩ := ihFirst found
      have ⟨after, goes', done⟩ := ihSecond found'
      exact ⟨after, ⟨middle, goes, goes'⟩, done⟩
  | alt first second ihFirst ihSecond =>
      cases eq_some_of_orElse found with
      | inl found =>
          have ⟨after, goes, done⟩ := ihFirst found
          exact ⟨after, .inl goes, done⟩
      | inr found =>
          have ⟨after, goes, done⟩ := ihSecond found
          exact ⟨after, .inr goes, done⟩
  | capture inner ih =>
      have ⟨middle, goes, done⟩ := ih found
      exact ⟨_, ⟨middle, goes, rfl⟩, done⟩
  | wordBoundary =>
      rw [match'] at found
      split at found
      next boundary => exact ⟨cursor, ⟨rfl, boundary⟩, found⟩
      next => contradiction
  | start =>
      rw [match'] at found
      split at found
      next first => exact ⟨cursor, ⟨rfl, Option.isNone_iff_eq_none.1 first⟩, found⟩
      next => contradiction
  | stop =>
      rw [match'] at found
      split at found
      next last => exact ⟨cursor, ⟨rfl, List.isEmpty_iff.1 last⟩, found⟩
      next => contradiction

/-- Where the expression leads, some match is found. -/
theorem match'_isSome {regex : Regex} {cursor after : Cursor} (goes : Goes regex cursor after)
    (done : (continue' after).isSome = true) : (match' regex cursor continue').isSome = true := by
  induction regex generalizing cursor after continue' with
  | empty =>
      cases goes
      exact done
  | oneOf class' =>
      have ⟨unit, member, first, before, captures⟩ := goes
      rw [match', first]
      simp only [member, if_true]
      rw [← before, ← captures]
      exact done
  | repeat' class' least most lazy =>
      have ⟨run, all, enough, bounded, same, before, captures⟩ := goes
      rw [match', same]
      apply repeatUnits_isSome ⟨all, (Nat.zero_add _).symm ▸ enough, (Nat.zero_add _).symm ▸ bounded⟩
      rw [← before, ← captures]
      exact done
  | seq first second ihFirst ihSecond =>
      have ⟨middle, goes, goes'⟩ := goes
      exact ihFirst goes (ihSecond goes' done)
  | alt first second ihFirst ihSecond =>
      cases goes with
      | inl goes => exact isSome_orElse (.inl (ihFirst goes done))
      | inr goes => exact isSome_orElse (.inr (ihSecond goes done))
  | capture inner ih =>
      have ⟨middle, inside, same⟩ := goes
      rw [same] at done
      exact ih inside done
  | wordBoundary =>
      have ⟨same, boundary⟩ := goes
      cases same
      rw [match', if_pos boundary]
      exact done
  | start =>
      have ⟨same, first⟩ := goes
      cases same
      rw [match', first]
      exact done
  | stop =>
      have ⟨same, last⟩ := goes
      cases same
      rw [match', last]
      exact done

/-- The text between two cursors. -/
theorem Goes.consumes {regex : Regex} {cursor after : Cursor} (goes : Goes regex cursor after) :
    ∃ used, cursor.rest = used ++ after.rest ∧ after.before = unitBefore cursor.before used := by
  induction regex generalizing cursor after with
  | empty =>
      cases goes
      exact ⟨[], rfl, rfl⟩
  | oneOf class' =>
      have ⟨unit, _, first, before, _⟩ := goes
      exact ⟨[unit], first, before⟩
  | repeat' class' least most lazy =>
      have ⟨run, _, _, _, same, before, _⟩ := goes
      exact ⟨run, same, before⟩
  | seq first second ihFirst ihSecond =>
      have ⟨middle, goes, goes'⟩ := goes
      have ⟨used, same, before⟩ := ihFirst goes
      have ⟨used', same', before'⟩ := ihSecond goes'
      refine ⟨used ++ used', ?_, ?_⟩
      · rw [same, same', List.append_assoc]
      · rw [before', before, unitBefore_append]
  | alt first second ihFirst ihSecond =>
      cases goes with
      | inl goes => exact ihFirst goes
      | inr goes => exact ihSecond goes
  | capture inner ih =>
      have ⟨middle, inside, same⟩ := goes
      have ⟨used, same', before⟩ := ih inside
      rw [same]
      exact ⟨used, same', before⟩
  | wordBoundary =>
      cases goes.1
      exact ⟨[], rfl, rfl⟩
  | start =>
      cases goes.1
      exact ⟨[], rfl, rfl⟩
  | stop =>
      cases goes.1
      exact ⟨[], rfl, rfl⟩

/-- What a captured part of a match has consumed. -/
theorem Goes.captured {inner : Regex} {cursor after : Cursor}
    (goes : Goes (.capture inner) cursor after) :
    ∃ middle used, Goes inner cursor middle ∧ cursor.rest = used ++ after.rest ∧
      after = { middle with captures := middle.captures ++ [used] } := by
  have ⟨middle, inside, same⟩ := goes
  have ⟨used, consumed, _⟩ := inside.consumes
  refine ⟨middle, used, inside, ?_, ?_⟩
  · rw [same]
    exact consumed
  · rw [same, consumed, List.length_append, Nat.add_sub_cancel, List.take_left]

/-! ## Repetitions whose end is plain -/

/-- A greedy repetition that nothing of its class can follow takes all it can. -/
theorem match'_star {class' : UInt16 → Bool} {cursor : Cursor}
    (apart : ∀ before unit rest, class' unit = true →
      continue' { before, rest := unit :: rest, captures := cursor.captures } = none) :
    match' (star class') cursor continue' = continue' {
      before := unitBefore cursor.before (cursor.rest.takeWhile class')
      rest := cursor.rest.dropWhile class'
      captures := cursor.captures } := by
  have general : ∀ rest count before, repeatUnits class' 0 none false cursor.captures continue' count
      before rest = continue' {
        before := unitBefore before (rest.takeWhile class')
        rest := rest.dropWhile class'
        captures := cursor.captures } := by
    intro rest
    induction rest with
    | nil =>
        intro count before
        rw [repeatUnits, if_pos (Nat.zero_le _)]
        rfl
    | cons unit rest ih =>
        intro count before
        rw [repeatUnits, if_pos (Nat.zero_le _), if_neg Bool.false_ne_true]
        cases member : class' unit with
        | false =>
            rw [List.takeWhile_cons_of_neg (Bool.eq_false_iff.1 member),
              List.dropWhile_cons_of_neg (Bool.eq_false_iff.1 member)]
            rfl
        | true =>
            rw [List.takeWhile_cons_of_pos member, List.dropWhile_cons_of_pos member,
              apart before unit rest member]
            simp only [Option.all_none, Bool.and_self, if_true, ih, unitBefore]
            exact orElse_none _
  exact general cursor.rest 0 cursor.before

/-- A greedy repetition takes all it can, where this leads on. -/
theorem match'_star_of_some {class' : UInt16 → Bool} {cursor after : Cursor}
    (leads : continue' {
        before := unitBefore cursor.before (cursor.rest.takeWhile class')
        rest := cursor.rest.dropWhile class'
        captures := cursor.captures } = some after) :
    match' (star class') cursor continue' = some after := by
  have general : ∀ rest count before,
      continue' {
        before := unitBefore before (rest.takeWhile class')
        rest := rest.dropWhile class'
        captures := cursor.captures } = some after →
      repeatUnits class' 0 none false cursor.captures continue' count before rest =
        some after := by
    intro rest
    induction rest with
    | nil =>
        intro count before leads
        rw [repeatUnits, if_pos (Nat.zero_le _)]
        exact leads
    | cons unit rest ih =>
        intro count before leads
        rw [repeatUnits, if_pos (Nat.zero_le _), if_neg Bool.false_ne_true]
        cases member : class' unit with
        | false =>
            rw [List.takeWhile_cons_of_neg (Bool.eq_false_iff.1 member),
              List.dropWhile_cons_of_neg (Bool.eq_false_iff.1 member)] at leads
            exact leads
        | true =>
            rw [List.takeWhile_cons_of_pos member, List.dropWhile_cons_of_pos member] at leads
            rw [Option.all_none, Bool.and_self, if_pos rfl, ih (count + 1) (some unit) leads]
            rfl
  exact general cursor.rest 0 cursor.before leads

/-- A literal text is read off where it stands. -/
theorem match'_text (string : String) {before : Option UInt16} {rest : Utf16}
    {captures : List Utf16} :
    match' (Regex.text string) { before, rest := Utf16.ofString string ++ rest, captures }
        continue' =
      continue' { before := unitBefore before (Utf16.ofString string), rest, captures } := by
  rw [Regex.text]
  generalize Utf16.ofString string = units
  induction units generalizing before with
  | nil => rfl
  | cons unit units ih =>
      rw [List.foldr_cons, match', lit, match']
      simp only [List.cons_append, beq_self_eq_true, if_true]
      exact ih

end Match

/-! ## Search -/

theorem search_eq_some {regex : Regex} {before : Option UInt16} {text skipped : Utf16}
    {cursor : Cursor} (found : regex.search before text = some (skipped, cursor)) :
    ∃ rest, text = skipped ++ rest ∧
      regex.matchAt (unitBefore before skipped) rest = some cursor := by
  induction text generalizing before skipped with
  | nil =>
      have ⟨after, matched, same⟩ := Option.map_eq_some_iff.1 found
      cases same
      exact ⟨[], rfl, matched⟩
  | cons unit text ih =>
      rw [search] at found
      split at found
      next after matched =>
        cases found
        exact ⟨unit :: text, rfl, matched⟩
      next =>
        have ⟨⟨skipped', after⟩, later, same⟩ := Option.map_eq_some_iff.1 found
        cases same
        have ⟨rest, whole, matched⟩ := ih later
        exact ⟨rest, congrArg (unit :: ·) whole, matched⟩

theorem search_of_matchAt {regex : Regex} {before : Option UInt16} {text : Utf16} {cursor : Cursor}
    (matched : regex.matchAt before text = some cursor) :
    regex.search before text = some ([], cursor) := by
  cases text with
  | nil => rw [search, matched, Option.map_some]
  | cons unit rest => rw [search, matched]

theorem search_isSome {regex : Regex} {before : Option UInt16} (skipped : Utf16) {rest : Utf16}
    (matched : (regex.matchAt (unitBefore before skipped) rest).isSome = true) :
    (regex.search before (skipped ++ rest)).isSome = true := by
  induction skipped generalizing before with
  | nil =>
      have ⟨cursor, found⟩ := Option.isSome_iff_exists.1 matched
      exact Option.isSome_of_eq_some (search_of_matchAt found)
  | cons unit skipped ih =>
      rw [List.cons_append, search]
      split
      next => rfl
      next =>
        rw [Option.isSome_map]
        exact ih matched

/-- An expression that leads on from some place in a text is found there. -/
theorem test_of_goes {regex : Regex} (skipped : Utf16) {rest : Utf16} {after : Cursor}
    (goes : Goes regex { before := unitBefore none skipped, rest } after) :
    regex.test (skipped ++ rest) = true :=
  search_isSome skipped (match'_isSome goes rfl)

end Regex
