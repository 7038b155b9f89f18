import TitanRunner.Lib.RegexMatch
import TitanRunner.Orchestrator.OutputParser

/-!
# Fenced blocks

What `FENCE_RE` finds in a text: a block ends at the first fence behind its opening line.
-/

namespace TitanRunner

namespace OutputParser

open Regex Utf16

/-- Three back quotes. -/
def ticks : Utf16 := [backquote, backquote, backquote]

/-- A fence stands somewhere in the text. -/
def hasFence (text : Utf16) : Bool := (splitFirst ticks text).isSome

section Split

variable {wanted text before after : Utf16}

theorem append_of_splitFirst (found : splitFirst wanted text = some (before, after)) :
    text = before ++ (wanted ++ after) := by
  induction text generalizing before with
  | nil =>
      rw [splitFirst] at found
      split at found
      next empty =>
        cases found
        rw [List.isEmpty_iff.1 empty]
        rfl
      next => contradiction
  | cons unit rest ih =>
      rw [splitFirst] at found
      split at found
      next tail starts =>
        cases found
        exact (List.append_eq_of_isPrefixOf?_eq_some starts).symm
      next =>
        have ⟨⟨before', after'⟩, later, same⟩ := Option.map_eq_some_iff.1 found
        cases same
        exact congrArg (unit :: ·) (ih later)

/-- What follows an occurrence does not change which one is the first. -/
theorem splitFirst_append (found : splitFirst wanted text = some (before, after)) (more : Utf16) :
    splitFirst wanted (text ++ more) = some (before, after ++ more) := by
  induction text generalizing before with
  | nil =>
      rw [splitFirst] at found
      split at found
      next empty =>
        cases found
        rw [List.isEmpty_iff.1 empty]
        cases more <;> rfl
      next => contradiction
  | cons unit rest ih =>
      rw [splitFirst] at found
      split at found
      next tail starts =>
        cases found
        have whole := List.append_eq_of_isPrefixOf?_eq_some starts
        have starts' : wanted.isPrefixOf? (unit :: (rest ++ more)) = some (after ++ more) := by
          rw [List.isPrefixOf?_eq_some_iff_append_eq, ← List.append_assoc, whole]
          rfl
        rw [List.cons_append, splitFirst, starts']
      next absent =>
        have ⟨⟨before', after'⟩, later, same⟩ := Option.map_eq_some_iff.1 found
        cases same
        have short : wanted.length ≤ (unit :: rest).length := by
          rw [append_of_splitFirst later]
          simp only [List.length_cons, List.length_append]
          omega
        have absent' : wanted.isPrefixOf? (unit :: (rest ++ more)) = none := by
          cases starts : wanted.isPrefixOf? (unit :: (rest ++ more)) with
          | none => rfl
          | some tail =>
              have begins : wanted <+: (unit :: rest) ++ more :=
                ⟨tail, List.append_eq_of_isPrefixOf?_eq_some starts⟩
              have ⟨tail', whole⟩ :=
                List.prefix_of_prefix_length_le begins (List.prefix_append _ _) short
              rw [List.isPrefixOf?_eq_some_iff_append_eq.2 whole] at absent
              contradiction
        rw [List.cons_append, splitFirst, absent', ih later]
        rfl

/-- A unit that is not of the wanted text cannot be part of an occurrence. -/
theorem splitFirst_of_none {unit : UInt16} (none' : splitFirst wanted text = none)
    (foreign : unit ∉ wanted) :
    splitFirst wanted (text ++ unit :: wanted) = some (text ++ [unit], []) := by
  have itself : splitFirst wanted wanted = some ([], []) := by
    cases wanted with
    | nil => rfl
    | cons first others =>
        rw [splitFirst, List.isPrefixOf?_eq_some_iff_append_eq.2 (List.append_nil _)]
  induction text with
  | nil =>
      have absent : wanted.isPrefixOf? (unit :: wanted) = none := by
        cases starts : wanted.isPrefixOf? (unit :: wanted) with
        | none => rfl
        | some tail =>
            cases wanted with
            | nil => contradiction
            | cons first others =>
                have same := List.head_eq_of_cons_eq (List.append_eq_of_isPrefixOf?_eq_some starts)
                exact absurd (same ▸ List.mem_cons_self) foreign
      rw [List.nil_append, splitFirst, absent, itself]
      rfl
  | cons first rest ih =>
      rw [splitFirst] at none'
      split at none'
      next => contradiction
      next absent =>
        have absent' : wanted.isPrefixOf? (first :: (rest ++ unit :: wanted)) = none := by
          cases starts : wanted.isPrefixOf? (first :: (rest ++ unit :: wanted)) with
          | none => rfl
          | some tail =>
              exfalso
              have begins : wanted <+: (first :: rest) ++ unit :: wanted :=
                ⟨tail, List.append_eq_of_isPrefixOf?_eq_some starts⟩
              cases Nat.lt_or_ge (first :: rest).length wanted.length with
              | inl long =>
                  have longer : (first :: rest ++ [unit]) <+: wanted := by
                    apply List.prefix_of_prefix_length_le _ begins
                    · rw [List.length_append]
                      exact long
                    · exact ⟨wanted, by rw [List.append_assoc]; rfl⟩
                  exact foreign (longer.subset (List.mem_append_right _ List.mem_cons_self))
              | inr short =>
                  have ⟨tail', whole⟩ :=
                    List.prefix_of_prefix_length_le begins (List.prefix_append _ _) short
                  rw [List.isPrefixOf?_eq_some_iff_append_eq.2 whole] at absent
                  contradiction
        rw [List.cons_append, splitFirst, absent', ih (Option.map_eq_none_iff.1 none')]
        rfl

end Split

section Fence

variable {continue' : Cursor → Option Cursor} {cursor : Cursor} {before : Option UInt16}
  {text : Utf16}

theorem match'_ticks : match' (Regex.exactly (· == backquote) 3) cursor continue' =
    (ticks.isPrefixOf? cursor.rest).bind fun rest =>
      continue' { before := some backquote, rest, captures := cursor.captures } := by
  have step : ∀ count before unit rest, count < 3 →
      repeatUnits (· == backquote) 3 (some 3) false cursor.captures continue' count before
          (unit :: rest) =
        if unit == backquote then repeatUnits (· == backquote) 3 (some 3) false cursor.captures
          continue' (count + 1) (some unit) rest else none := by
    intro count before unit rest few
    have more : ¬ 3 ≤ count := Nat.not_le.2 few
    rw [repeatUnits, if_neg more, if_neg Bool.false_ne_true, orElse_none, Option.all_some,
      decide_eq_true few, Bool.and_true]
  have stop : ∀ before rest, repeatUnits (· == backquote) 3 (some 3) false cursor.captures
      continue' 3 before rest = continue' { before, rest, captures := cursor.captures } := by
    intro before rest
    cases rest with
    | nil => rw [repeatUnits, if_pos (le_refl 3)]
    | cons unit rest =>
        rw [repeatUnits, if_pos (le_refl 3), if_neg Bool.false_ne_true, Option.all_some,
          decide_eq_false (lt_irrefl 3), Bool.and_false, if_neg Bool.false_ne_true]
        rfl
  -- On the quotes that are still to come.
  have general : ∀ missing count before rest, count + missing = 3 →
      repeatUnits (· == backquote) 3 (some 3) false cursor.captures continue' count before rest =
        ((List.replicate missing backquote).isPrefixOf? rest).bind fun rest => continue' {
          before := if missing = 0 then before else some backquote, rest
          captures := cursor.captures } := by
    intro missing
    induction missing with
    | zero =>
        intro count before rest whole
        rw [show count = 3 from whole, stop]
        rfl
    | succ missing ih =>
        intro count before rest whole
        have few : count < 3 := by omega
        cases rest with
        | nil =>
            rw [repeatUnits, if_neg (Nat.not_le.2 few)]
            rfl
        | cons unit rest =>
            rw [step count before unit rest few]
            by_cases same : unit = backquote
            · have later := ih (count + 1) (some unit) rest (by omega)
              rw [same] at later ⊢
              rw [beq_self_eq_true, if_pos rfl, later, List.replicate_succ, List.isPrefixOf?,
                beq_self_eq_true, if_pos rfl, ite_self, if_neg (Nat.succ_ne_zero missing)]
            · rw [beq_false_of_ne same, if_neg Bool.false_ne_true, List.replicate_succ,
                List.isPrefixOf?, beq_false_of_ne (Ne.symm same), if_neg Bool.false_ne_true]
              rfl
  exact general 3 0 cursor.before cursor.rest rfl

/-- A lazy repetition ends at the first place that goes on with a fence. -/
theorem match'_lazyStar (cursor : Cursor) (finish : Cursor → Utf16 → Cursor) :
    match' (lazyStar fun _ => true) cursor (fun after =>
        (ticks.isPrefixOf? after.rest).map (finish after)) =
      (splitFirst ticks cursor.rest).map fun (content, rest) => finish
        { before := unitBefore cursor.before content, rest := ticks ++ rest
          captures := cursor.captures } rest := by
  have general : ∀ rest count before, repeatUnits (fun _ => true) 0 none true cursor.captures
      (fun after => (ticks.isPrefixOf? after.rest).map (finish after)) count before rest =
        (splitFirst ticks rest).map fun (content, rest) => finish
          { before := unitBefore before content, rest := ticks ++ rest
            captures := cursor.captures } rest := by
    intro rest
    induction rest with
    | nil =>
        intro count before
        rfl
    | cons unit rest ih =>
        intro count before
        rw [repeatUnits, if_pos (Nat.zero_le _), if_pos rfl, splitFirst]
        simp only [Option.all_none, Bool.and_self, if_true, ih]
        cases starts : ticks.isPrefixOf? (unit :: rest) with
        | some after =>
            rw [← List.append_eq_of_isPrefixOf?_eq_some starts]
            rfl
        | none =>
            simp only [Option.map_none, Option.map_map]
            rfl
  exact general cursor.rest 0 cursor.before

/-- The match at an opening fence. -/
theorem matchAt_fence {tag : Utf16} (tagged : ∀ unit ∈ tag, unit ≠ 0xA ∧ unit ≠ backquote) :
    fence.matchAt before (ticks ++ (tag ++ 0xA :: text)) =
      (splitFirst ticks text).map fun (content, rest) =>
        { before := some backquote, rest, captures := [tag, content] } := by
  have opened : ticks.isPrefixOf? (ticks ++ (tag ++ 0xA :: text)) = some (tag ++ 0xA :: text) :=
    List.isPrefixOf?_eq_some_iff_append_eq.2 rfl
  have inside : ∀ unit ∈ tag, (unit != 0xA && unit != backquote) = true := by
    intro unit among
    have ⟨line, quote⟩ := tagged unit among
    rw [bne_iff_ne.2 line, bne_iff_ne.2 quote]
    rfl
  have took : (tag ++ 0xA :: text).takeWhile (fun unit => unit != 0xA && unit != backquote) = tag := by
    rw [List.takeWhile_append_of_pos inside]
    exact List.append_nil tag
  have left : (tag ++ 0xA :: text).dropWhile (fun unit => unit != 0xA && unit != backquote) =
      0xA :: text := by
    rw [List.dropWhile_append_of_pos inside]
    rfl
  have length : (tag ++ 0xA :: text).length - (0xA :: text).length = tag.length := by
    rw [List.length_append, Nat.add_sub_cancel]
  rw [matchAt, fence]
  simp only [seqs, List.foldr, match', match'_ticks, opened, Option.bind_some]
  rw [match'_star]
  · simp only [took, left, length, List.take_left', lit, match', beq_self_eq_true, if_true]
    have lazily := match'_lazyStar { before := some 0xA, rest := text, captures := [tag] }
      fun after rest => {
        before := some backquote, rest
        captures := after.captures ++ [text.take (text.length - after.rest.length)] }
    refine Eq.trans ?_ (lazily.trans ?_)
    · congr
      funext after
      cases ticks.isPrefixOf? after.rest with
      | none => rfl
      | some rest => rfl
    · cases found : splitFirst ticks text with
      | none => rfl
      | some pieces =>
          have used : text.take (text.length - (ticks ++ pieces.2).length) = pieces.1 := by
            rw [append_of_splitFirst found, List.length_append, Nat.add_sub_cancel, List.take_left]
          rw [Option.map_some, Option.map_some]
          simp only [used]
          rfl
  · intro before' unit rest member
    simp only [lit, match']
    rw [if_neg]
    intro same
    rw [beq_iff_eq.1 same] at member
    contradiction

theorem goes_ticks {after : Cursor} (goes : Goes (Regex.exactly (· == backquote) 3) cursor after) :
    cursor.rest = ticks ++ after.rest ∧ after.captures = cursor.captures := by
  have ⟨run, all, least, most, same, _, captures⟩ := goes
  have three : run.length = 3 := le_antisymm (of_decide_eq_true most) least
  have quotes : run = ticks := by
    apply List.eq_replicate_iff.2 ⟨three, _⟩
    intro unit inside
    exact beq_iff_eq.1 (all unit inside)
  exact ⟨quotes ▸ same, captures⟩

theorem goes_capture_repeat {class' : UInt16 → Bool} {least : Nat} {most : Option Nat} {lazy : Bool}
    {after : Cursor} (goes : Goes (.capture (.repeat' class' least most lazy)) cursor after) :
    ∃ used, cursor.rest = used ++ after.rest ∧ after.captures = cursor.captures ++ [used] := by
  have ⟨middle, used, inside, same, captured⟩ := goes.captured
  have ⟨run, _, _, _, _, _, captures⟩ := inside
  refine ⟨used, same, ?_⟩
  rw [captured, captures]

/-- What a match of the expression is made of. -/
theorem fence_of_search {skipped : Utf16} (found : fence.search before text = some (skipped, cursor)) :
    ∃ tag content, cursor.captures = [tag, content] ∧
      text = skipped ++ (ticks ++ (tag ++ 0xA :: (content ++ (ticks ++ cursor.rest)))) := by
  have ⟨rest, whole, matched⟩ := search_eq_some found
  have ⟨after, goes, same⟩ := goes_of_match' matched
  cases same
  have ⟨first, opening, second, tagged, third, line, fourth, closed, fifth, closing, ended⟩ := goes
  have ⟨rest₁, captures₁⟩ := goes_ticks opening
  have ⟨tag, rest₂, captures₂⟩ := goes_capture_repeat tagged
  have ⟨unit, newline, rest₃, _, captures₃⟩ := line
  have ⟨content, rest₄, captures₄⟩ := goes_capture_repeat closed
  have ⟨rest₅, captures₅⟩ := goes_ticks closing
  cases ended
  refine ⟨tag, content, ?_, ?_⟩
  · rw [captures₅, captures₄, captures₃, captures₂, captures₁]
    rfl
  · rw [beq_iff_eq.1 newline] at rest₃
    rw [whole, ← rest₅, ← rest₄, ← rest₃, ← rest₂, ← rest₁]

end Fence

end OutputParser

end TitanRunner
