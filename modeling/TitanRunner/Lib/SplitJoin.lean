import TitanRunner.Lib.Utf16

/-!
# Splitting and joining

`split` and `join` at a code unit undo each other on pieces that do not hold it.
-/

namespace Utf16

variable {at' unit : UInt16} {text piece : Utf16} {pieces : List Utf16}

theorem split_cons (at' : UInt16) (unit : UInt16) (rest : Utf16) :
    ∃ piece pieces, split at' rest = piece :: pieces ∧
      split at' (unit :: rest) =
        if unit = at' then [] :: piece :: pieces else (unit :: piece) :: pieces := by
  cases parts : split at' rest with
  | nil =>
      cases rest with
      | nil => contradiction
      | cons next rest =>
          simp only [split] at parts
          split at parts
          · contradiction
          · split at parts
            · contradiction
            · contradiction
  | cons piece pieces =>
      exact ⟨piece, pieces, rfl, by simp only [split, parts]⟩

theorem split_ne_nil (at' : UInt16) (text : Utf16) : split at' text ≠ [] := by
  cases text with
  | nil => simp [split]
  | cons unit rest =>
      have ⟨piece, pieces, _, same⟩ := split_cons at' unit rest
      rw [same]
      split
      · simp
      · simp

/-- A text without the unit is one piece. -/
theorem split_of_not_mem (without : at' ∉ text) : split at' text = [text] := by
  induction text with
  | nil => rfl
  | cons unit rest ih =>
      have ⟨other, later⟩ := not_or.1 (List.mem_cons.not.1 without)
      simp only [split, if_neg (Ne.symm other), ih later]

theorem not_mem_of_mem_split (inside : piece ∈ split at' text) : at' ∉ piece := by
  induction text generalizing piece with
  | nil =>
      rw [List.mem_singleton.1 inside]
      exact List.not_mem_nil
  | cons unit rest ih =>
      have ⟨first, others, parts, same⟩ := split_cons at' unit rest
      rw [same] at inside
      split at inside
      · cases List.mem_cons.1 inside with
        | inl here =>
            rw [here]
            exact List.not_mem_nil
        | inr later => exact ih (parts ▸ later)
      next other =>
        cases List.mem_cons.1 inside with
        | inl here =>
            rw [here]
            exact List.not_mem_cons_of_ne_of_not_mem (Ne.symm other)
              (ih (parts ▸ List.mem_cons_self))
        | inr later => exact ih (parts ▸ List.mem_cons_of_mem _ later)

theorem split_append (before after : Utf16) :
    split at' (before ++ at' :: after) = split at' before ++ split at' after := by
  induction before with
  | nil => simp only [List.nil_append, split, if_true, List.singleton_append]
  | cons unit rest ih =>
      have ⟨piece, pieces, parts, same⟩ := split_cons at' unit rest
      simp only [List.cons_append, split, ih, parts]
      split
      · rfl
      · rfl

/-- Where two texts meet, the last piece of the one and the first of the other are one piece. -/
theorem split_glue (at' : UInt16) (before after : Utf16) :
    ∃ earlier last first later, split at' before = earlier ++ [last] ∧
      split at' after = first :: later ∧
      split at' (before ++ after) = earlier ++ (last ++ first) :: later := by
  induction before with
  | nil =>
      cases parts : split at' after with
      | nil => exact absurd parts (split_ne_nil at' after)
      | cons first later => exact ⟨[], [], first, later, rfl, rfl, parts⟩
  | cons unit rest ih =>
      have ⟨earlier, last, first, later, whole, next, glued⟩ := ih
      cases earlier with
      | nil =>
          simp only [List.nil_append] at whole glued
          simp only [List.cons_append, split, whole, glued]
          split
          · exact ⟨[[]], last, first, later, rfl, next, rfl⟩
          · exact ⟨[], unit :: last, first, later, rfl, next, rfl⟩
      | cons piece earlier =>
          simp only [List.cons_append] at whole glued
          simp only [List.cons_append, split, whole, glued]
          split
          · exact ⟨[] :: piece :: earlier, last, first, later, rfl, next, rfl⟩
          · exact ⟨(unit :: piece) :: earlier, last, first, later, rfl, next, rfl⟩

/-- What follows a text is split with its last piece. -/
theorem split_append_last {before last : Utf16} {earlier : List Utf16}
    (parts : split at' before = earlier ++ [last]) (after : Utf16) :
    split at' (before ++ after) = earlier ++ split at' (last ++ after) := by
  have alone : split at' last = [last] :=
    split_of_not_mem (not_mem_of_mem_split (parts ▸ List.mem_append_right _ List.mem_cons_self))
  have ⟨earlier', last', first, later, whole, next, glued⟩ := split_glue at' before after
  have ⟨none', last'', first', later', whole', next', glued'⟩ := split_glue at' last after
  obtain ⟨rfl, same⟩ := List.append_inj' (parts.symm.trans whole) rfl
  obtain ⟨rfl, same'⟩ := List.append_inj' (show [] ++ [last] = none' ++ [last''] from
    alone.symm.trans whole') rfl
  obtain ⟨rfl, rfl⟩ := List.cons.inj (next.symm.trans next')
  obtain rfl := (List.cons.inj same).1
  obtain rfl := (List.cons.inj same').1
  rw [glued, glued', List.nil_append]

/-- A part of a text that does not hold the unit lies in one piece. -/
theorem exists_piece (before part after : Utf16) (without : at' ∉ part) :
    ∃ left right, left ++ part ++ right ∈ split at' (before ++ part ++ after) ∧
      (before = [] → left = []) ∧ (after = [] → right = []) ∧
      ∀ unit, unit ≠ at' → after.head? = some unit → right.head? = some unit := by
  have ⟨earlier, last, first, later, whole, next, glued⟩ :=
    split_glue at' (before ++ part) after
  have ⟨earlier', last', first', later', whole', next', glued'⟩ :=
    split_glue at' before part
  rw [split_of_not_mem without] at next'
  cases next'
  rw [glued'] at whole
  have ⟨same, joined⟩ := List.append_inj' whole rfl
  cases joined
  exists last', first
  constructor
  · rw [glued]
    exact List.mem_append_right _ List.mem_cons_self
  constructor
  · intro empty
    rw [empty] at whole'
    have short := congrArg List.length whole'
    simp only [split, List.length_append, List.length_singleton] at short
    have none' : earlier' = [] := List.eq_nil_of_length_eq_zero (by omega)
    rw [none'] at whole'
    cases whole'
    rfl
  constructor
  · intro empty
    rw [empty] at next
    cases next
    rfl
  · intro unit other starts
    cases after with
    | nil => contradiction
    | cons head rest =>
        cases starts
        have ⟨piece, pieces, _, same⟩ := split_cons at' unit rest
        rw [same, if_neg other] at next
        cases next
        rfl

theorem join_cons (first second : Utf16) (rest : List Utf16) (between : Utf16) :
    join between (first :: second :: rest) = first ++ between ++ join between (second :: rest) := by
  simp [join, List.intercalate]

@[simp] theorem join_singleton (between only : Utf16) : join between [only] = only := by
  simp [join, List.intercalate]

theorem map_join (change : UInt16 → UInt16) (between : Utf16) (pieces : List Utf16) :
    (join between pieces).map change =
      join (between.map change) (pieces.map (List.map change)) := by
  induction pieces with
  | nil => rfl
  | cons first rest ih =>
      cases rest with
      | nil => rw [List.map_singleton, join_singleton, join_singleton]
      | cons second rest =>
          rw [join_cons, List.map_append, List.map_append, ih]
          simp only [List.map_cons, join_cons]

/-- Pieces that do not hold the unit are found again. -/
theorem split_join (some' : pieces ≠ []) (without : ∀ piece ∈ pieces, at' ∉ piece) :
    split at' (join [at'] pieces) = pieces := by
  induction pieces with
  | nil => contradiction
  | cons first rest ih =>
      cases rest with
      | nil => rw [join_singleton, split_of_not_mem (without first List.mem_cons_self)]
      | cons second rest =>
          have later := ih (List.cons_ne_nil _ _) fun piece inside =>
            without piece (List.mem_cons_of_mem _ inside)
          rw [join_cons, List.append_assoc, List.singleton_append, split_append, later,
            split_of_not_mem (without first List.mem_cons_self)]
          rfl

/-- Splitting loses nothing. -/
theorem join_split (at' : UInt16) (text : Utf16) : join [at'] (split at' text) = text := by
  induction text with
  | nil => rfl
  | cons unit rest ih =>
      have ⟨piece, pieces, parts, same⟩ := split_cons at' unit rest
      rw [parts] at ih
      rw [same]
      split
      next here => rw [join_cons, ih, here]; rfl
      next =>
        cases pieces with
        | nil =>
            rw [join_singleton] at ih ⊢
            rw [ih]
        | cons second pieces =>
            rw [join_cons] at ih ⊢
            rw [List.cons_append, List.cons_append, ih]

theorem join_append {first second : List Utf16} (some' : first ≠ []) (some'' : second ≠ []) :
    join [at'] (first ++ second) = join [at'] first ++ at' :: join [at'] second := by
  induction first with
  | nil => contradiction
  | cons piece rest ih =>
      cases rest with
      | nil =>
          cases second with
          | nil => contradiction
          | cons next later => rw [join_singleton, List.singleton_append, join_cons, List.append_assoc]; rfl
      | cons next rest =>
          rw [List.cons_append, List.cons_append, join_cons, ← List.cons_append,
            ih (List.cons_ne_nil _ _), join_cons]
          simp only [List.append_assoc]

theorem mem_join (inside : unit ∈ join [at'] pieces) :
    unit = at' ∨ ∃ piece ∈ pieces, unit ∈ piece := by
  induction pieces with
  | nil => contradiction
  | cons first rest ih =>
      cases rest with
      | nil =>
          rw [join_singleton] at inside
          exact .inr ⟨first, List.mem_cons_self, inside⟩
      | cons second rest =>
          rw [join_cons, List.append_assoc] at inside
          cases List.mem_append.1 inside with
          | inl here => exact .inr ⟨first, List.mem_cons_self, here⟩
          | inr later =>
              cases List.mem_cons.1 later with
              | inl between => exact .inl between
              | inr after =>
                  cases ih after with
                  | inl between => exact .inl between
                  | inr within =>
                      have ⟨piece, member, there⟩ := within
                      exact .inr ⟨piece, List.mem_cons_of_mem _ member, there⟩

/-- A piece is part of the joined text. -/
theorem subset_join (inside : piece ∈ pieces) : piece ⊆ join [at'] pieces := by
  induction pieces with
  | nil => contradiction
  | cons first rest ih =>
      cases rest with
      | nil =>
          rw [List.mem_singleton.1 inside, join_singleton]
          exact List.Subset.refl _
      | cons second rest =>
          rw [join_cons, List.append_assoc]
          cases List.mem_cons.1 inside with
          | inl here =>
              rw [here]
              exact List.subset_append_left _ _
          | inr later =>
              exact List.Subset.trans (ih later)
                (List.Subset.trans (List.subset_cons_self _ _) (List.subset_append_right _ _))

/-- The pieces of a piece are pieces of the joined text. -/
theorem split_subset_join (inside : piece ∈ pieces) :
    split at' piece ⊆ split at' (join [at'] pieces) := by
  induction pieces with
  | nil => contradiction
  | cons first rest ih =>
      cases rest with
      | nil =>
          rw [List.mem_singleton.1 inside, join_singleton]
          exact List.Subset.refl _
      | cons second rest =>
          rw [join_cons, List.append_assoc, List.singleton_append, split_append]
          cases List.mem_cons.1 inside with
          | inl here =>
              rw [here]
              exact List.subset_append_left _ _
          | inr later =>
              exact List.Subset.trans (ih later) (List.subset_append_right _ _)

end Utf16
