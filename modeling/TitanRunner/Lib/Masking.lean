import Mathlib.Data.List.Infix
import TitanRunner.Lib.RegexSpans

/-!
# Masking every match

Expressions are applied to a text one after the other, and every match is replaced by a mask.  An
expression that cuts no mask in two leaves the rest of the text as it was, so in the end every
match overlaps or adjoins a mask.
-/

namespace Masking

open Regex

/-- The cut between two texts goes through an occurrence of the mask. -/
def Splits (mask left right : Utf16) : Prop := ∃ first second, first ≠ [] ∧ second ≠ [] ∧
  mask = first ++ second ∧ first <:+ left ∧ second <+: right

/-- An occurrence of the mask overlaps or adjoins the piece. -/
def Touches (mask before piece after : Utf16) : Prop := ∃ left right,
  before ++ (piece ++ after) = left ++ (mask ++ right) ∧
    left.length ≤ before.length + piece.length ∧ before.length ≤ left.length + mask.length

/-- Every match of the expression touches a mask. -/
def Masked (mask : Utf16) (regex : Regex) (text : Utf16) : Prop :=
  ∀ before piece after, text = before ++ (piece ++ after) →
    Spans regex (unitBefore none before) piece after.head? → Touches mask before piece after

/-- No match begins or ends within an occurrence of the mask. -/
def Spares (mask : Utf16) (regex : Regex) : Prop :=
  ∀ left piece cursor, regex.matchAt (unitBefore none left) (piece ++ cursor.rest) = some cursor →
    ¬ Splits mask left (piece ++ cursor.rest) ∧ ¬ Splits mask (left ++ piece) cursor.rest

/-- The text behind `left`, with every match replaced. -/
inductive Replaced (mask : Utf16) (regex : Regex) : Utf16 → Utf16 → Utf16 → Prop where
  | done {left text : Utf16} (none' : regex.search (unitBefore none left) text = none) :
      Replaced mask regex left text text
  | found {left skipped piece out : Utf16} {cursor : Cursor}
      (first : regex.search (unitBefore none left) (skipped ++ (piece ++ cursor.rest)) =
        some (skipped, cursor))
      (matched : regex.matchAt (unitBefore none (left ++ skipped)) (piece ++ cursor.rest) =
        some cursor)
      (later : Replaced mask regex (left ++ skipped ++ piece) cursor.rest out) :
      Replaced mask regex left (skipped ++ (piece ++ cursor.rest)) (skipped ++ (mask ++ out))

section Replace

variable {mask : Utf16} {regex : Regex} {left text out before piece after : Utf16}

theorem replaced_of_replaceFrom (long : 0 < regex.least) {fuel : Nat}
    (enough : text.length ≤ fuel) :
    Replaced mask regex left text
      (replaceFrom regex (fun _ => mask) fuel (unitBefore none left) text) := by
  induction fuel generalizing left text with
  | zero =>
      have empty := List.eq_nil_of_length_eq_zero (Nat.le_zero.1 enough)
      subst empty
      apply Replaced.done
      cases found : regex.search (unitBefore none left) [] with
      | none => rfl
      | some result =>
          have ⟨rest, whole, matched⟩ := search_eq_some found
          have ⟨piece, same, _, spans⟩ := spans_of_matchAt matched
          have none' := List.append_eq_nil_iff.1 whole.symm
          rw [none'.2] at same
          have short := least_le_of_spans spans
          rw [(List.append_eq_nil_iff.1 same.symm).1, List.length_nil] at short
          omega
  | succ fuel ih =>
      rw [replaceFrom]
      cases found : regex.search (unitBefore none left) text with
      | none => exact .done found
      | some result =>
          have ⟨rest, whole, matched⟩ := search_eq_some found
          have ⟨piece, same, before', spans⟩ := spans_of_matchAt matched
          subst same whole
          rw [← unitBefore_append] at matched before'
          rw [← unitBefore_append] at before'
          have short := least_le_of_spans spans
          simp only [List.length_append] at enough
          have fewer : result.2.rest.length ≤ fuel := by omega
          rw [← List.append_assoc] at before'
          have later : Replaced mask regex (left ++ result.1 ++ piece) result.2.rest
              (replaceFrom regex (fun _ => mask) fuel result.2.before result.2.rest) := by
            rw [before']
            exact ih fewer
          have all := Replaced.found found matched later
          rw [← List.append_assoc result.1 mask] at all
          exact all

/-- What comes before a cut and is no longer than it. -/
theorem exists_append {first second third fourth : Utf16}
    (same : first ++ second = third ++ fourth) (short : first.length ≤ third.length) :
    ∃ between, third = first ++ between ∧ second = between ++ fourth := by
  cases List.append_eq_append_iff.1 same with
  | inl longer =>
      have ⟨between, parts, rest⟩ := longer
      exact ⟨between, parts, rest⟩
  | inr shorter =>
      have ⟨between, parts, rest⟩ := shorter
      have none' : between = [] := by
        apply List.eq_nil_of_length_eq_zero
        rw [parts, List.length_append] at short
        omega
      subst none'
      rw [List.append_nil] at parts
      exact ⟨[], by rw [parts, List.append_nil], rest.symm⟩

/-- A cut goes through an occurrence that begins before it and ends behind it. -/
theorem splits_of_lengths {first second third fourth : Utf16}
    (same : first ++ second = third ++ (mask ++ fourth)) (starts : third.length < first.length)
    (ends : first.length < third.length + mask.length) : Splits mask first second := by
  have ⟨between, parts, rest⟩ := exists_append same.symm (Nat.le_of_lt starts)
  have short : between.length ≤ mask.length := by
    rw [parts, List.length_append] at ends
    omega
  have ⟨others, whole, rest'⟩ := exists_append rest.symm short
  exists between, others
  constructor
  · intro empty
    rw [parts, empty, List.append_nil] at starts
    omega
  constructor
  · intro empty
    rw [parts, whole, empty] at ends
    simp only [List.length_append, List.length_nil] at ends
    omega
  constructor
  · exact whole
  constructor
  · exact ⟨third, parts.symm⟩
  · exact ⟨fourth, rest'.symm⟩

/-- What touches a mask touches it in a longer text. -/
theorem Touches.prepend (touches : Touches mask before piece after) (more : Utf16) :
    Touches mask (more ++ before) piece after := by
  have ⟨first, last, same, begins, ends⟩ := touches
  exists more ++ first, last
  constructor
  · rw [List.append_assoc, same, List.append_assoc]
  · simp only [List.length_append]
    omega

/-- A search finds no later match than the first. -/
theorem matchAt_of_search {before' : Option UInt16} {skipped first second rest : Utf16}
    {cursor : Cursor} (found : regex.search before' (skipped ++ rest) = some (skipped, cursor))
    (parts : skipped = first ++ second) (some' : second ≠ []) :
    regex.matchAt (unitBefore before' first) (second ++ rest) = none := by
  subst parts
  induction first generalizing before' with
  | nil =>
      cases second with
      | nil => exact absurd rfl some'
      | cons unit second =>
          rw [List.nil_append, List.cons_append, search] at found
          split at found
          next => cases found
          next nothing => exact nothing
  | cons unit first ih =>
      rw [List.cons_append, List.cons_append, search] at found
      split at found
      next => cases found
      next =>
        obtain ⟨⟨skipped', cursor'⟩, later, same⟩ := Option.map_eq_some_iff.1 found
        cases same
        exact ih later

/-- A text in which nothing is found has no match anywhere. -/
theorem matchAt_of_search_none {before' : Option UInt16} {first second : Utf16}
    (none' : regex.search before' (first ++ second) = none) :
    regex.matchAt (unitBefore before' first) second = none := by
  cases matched : regex.matchAt (unitBefore before' first) second with
  | none => rfl
  | some cursor =>
      have found := search_isSome first (Option.isSome_of_eq_some matched)
      rw [none'] at found
      contradiction

theorem unitBefore_append_of_ne_nil {first second : Utf16} (some' : second ≠ []) :
    unitBefore none (first ++ second) = unitBefore none second := by
  rw [unitBefore_append]
  cases second with
  | nil => exact absurd rfl some'
  | cons unit second => rfl

theorem Splits.prepend {first second : Utf16} (splits : Splits mask first second) (more : Utf16) :
    Splits mask (more ++ first) second := by
  have ⟨begun, rest, some', some'', parts, ends, starts⟩ := splits
  exact ⟨begun, rest, some', some'', parts, ends.trans (List.suffix_append _ _), starts⟩

/-- A mask that is touched does not begin in front of a cut that goes through none. -/
theorem touches_of_prepend
    (edge : left = [] ∨ before ≠ [] ∧ ¬ Splits mask left (before ++ (piece ++ after)))
    (touches : Touches mask (left ++ before) piece after) : Touches mask before piece after := by
  cases edge with
  | inl none' =>
      rw [none', List.nil_append] at touches
      exact touches
  | inr edge =>
      have ⟨some', uncut⟩ := edge
      have ⟨first, last, same, begins, ends⟩ := touches
      rw [List.append_assoc] at same
      rw [List.length_append] at begins ends
      have long := List.length_pos_of_ne_nil some'
      cases Nat.lt_or_ge first.length left.length with
      | inl starts => exact absurd (splits_of_lengths same starts (by omega)) uncut
      | inr behind =>
          have ⟨between, parts, rest⟩ := exists_append same behind
          rw [parts, List.length_append] at begins ends
          exact ⟨between, last, rest, by omega, by omega⟩

/-- A piece of the new text that touches no mask stands so in the old text, where no match begins
at it; and if it touches a mask there, it does so in the new text. -/
theorem exists_of_replaced (spares : Spares mask regex) (replaced : Replaced mask regex left text out)
    (whole : out = before ++ (piece ++ after)) (untouched : ¬ Touches mask before piece after)
    (some' : piece ≠ []) (edge : left = [] ∨ before ≠ [] ∧ ¬ Splits mask left text) :
    ∃ before' after', text = before' ++ (piece ++ after') ∧
      unitBefore none (left ++ before') = unitBefore none before ∧
      after'.head? = after.head? ∧
      regex.matchAt (unitBefore none before) (piece ++ after') = none ∧
      (Touches mask (left ++ before') piece after' → Touches mask before piece after) := by
  have unit : unitBefore none (left ++ before) = unitBefore none before := by
    cases edge with
    | inl none' => rw [none', List.nil_append]
    | inr edge => exact unitBefore_append_of_ne_nil edge.1
  induction replaced generalizing before with
  | done none' =>
      subst whole
      exists before, after
      constructor
      · rfl
      constructor
      · exact unit
      constructor
      · rfl
      constructor
      · rw [← unit, unitBefore_append]
        exact matchAt_of_search_none none'
      · exact touches_of_prepend edge
  | @found left skipped match' out cursor first matched later ih =>
      have ⟨uncut, uncut'⟩ := spares _ _ _ matched
      cases Nat.lt_or_ge (before ++ piece).length skipped.length with
      | inl within =>
          have same : (before ++ piece) ++ after = skipped ++ (mask ++ out) := by
            rw [whole, List.append_assoc]
          have ⟨more, parts, rest⟩ := exists_append same (Nat.le_of_lt within)
          have some'' : more ≠ [] := by
            intro empty
            rw [parts, empty, List.append_nil] at within
            omega
          have old : skipped ++ (match' ++ cursor.rest) =
              before ++ (piece ++ (more ++ (match' ++ cursor.rest))) := by
            rw [parts]
            simp only [List.append_assoc]
          exists before, more ++ (match' ++ cursor.rest)
          constructor
          · exact old
          constructor
          · exact unit
          constructor
          · rw [rest, List.head?_append_of_ne_nil _ some'', List.head?_append_of_ne_nil _ some'']
          constructor
          · have parts' : skipped = before ++ (piece ++ more) := by rw [parts, List.append_assoc]
            have none' := matchAt_of_search first parts' (List.append_ne_nil_of_left_ne_nil some' _)
            rw [← unitBefore_append, unit, List.append_assoc] at none'
            exact none'
          · intro touches
            rw [old] at edge
            have ⟨begun, last, same', begins, ends⟩ := touches_of_prepend edge touches
            rw [← old] at same'
            rw [List.length_append] at within
            cases Nat.lt_or_ge skipped.length (begun.length + mask.length) with
            | inl beyond =>
                have cut := splits_of_lengths same' (by omega) beyond
                exact absurd (cut.prepend left) uncut
            | inr inside =>
                have joined : (begun ++ mask) ++ last = skipped ++ (match' ++ cursor.rest) := by
                  rw [same', List.append_assoc]
                have short : (begun ++ mask).length ≤ skipped.length := by
                  rw [List.length_append]
                  exact inside
                have ⟨remains, parts', _⟩ := exists_append joined short
                exists begun, remains ++ (mask ++ out)
                constructor
                · rw [← whole, parts']
                  simp only [List.append_assoc]
                · exact ⟨begins, ends⟩
      | inr reaches =>
          cases Nat.lt_or_ge (skipped ++ mask).length before.length with
          | inr short =>
              rw [List.length_append] at reaches short
              exact absurd ⟨skipped, out, whole.symm, reaches, short⟩ untouched
          | inl behind =>
              rw [← List.append_assoc] at whole
              have ⟨before', parts, rest⟩ := exists_append whole (Nat.le_of_lt behind)
              have some'' : before' ≠ [] := by
                intro empty
                rw [parts, empty, List.append_nil] at behind
                omega
              have untouched' : ¬ Touches mask before' piece after := by
                intro touches
                rw [parts] at untouched
                exact untouched (touches.prepend _)
              have ⟨inside, after', old, unit', head, none', touch⟩ := ih rest untouched'
                (.inr ⟨some'', uncut'⟩) (unitBefore_append_of_ne_nil some'')
              have unit'' : unitBefore none before' = unitBefore none before := by
                rw [parts, unitBefore_append_of_ne_nil some'']
              exists skipped ++ (match' ++ inside), after'
              constructor
              · rw [old]
                simp only [List.append_assoc]
              constructor
              · rw [← unit'', ← unit']
                simp only [List.append_assoc]
              constructor
              · exact head
              constructor
              · rw [← unit'']
                exact none'
              · intro touches
                rw [parts]
                apply Touches.prepend
                apply touch
                simp only [List.append_assoc] at touches ⊢
                exact touches

theorem ne_nil_of_spans {before next : Option UInt16} (long : 0 < regex.least)
    (spans : Spans regex before piece next) : piece ≠ [] := by
  have short := least_le_of_spans spans
  intro empty
  rw [empty, List.length_nil] at short
  omega

/-- Every match that is left when an expression is masked touches a mask. -/
theorem masked_replaceAll (long : 0 < regex.least) (spares : Spares mask regex) (text : Utf16) :
    Masked mask regex (regex.replaceAll (fun _ => mask) text) := by
  intro before piece after whole spans
  apply Classical.byContradiction
  intro untouched
  have ⟨_, after', _, _, head, none', _⟩ := exists_of_replaced spares
    (replaced_of_replaceFrom long (le_refl _) : Replaced mask regex [] text _) whole untouched
    (ne_nil_of_spans long spans) (.inl rfl)
  rw [← head] at spans
  have found := matchAt_of_spans spans
  rw [none'] at found
  contradiction

/-- Masking another expression leaves no match that touches no mask. -/
theorem Masked.replaceAll {other : Regex} (masked : Masked mask regex text)
    (long : 0 < regex.least) (long' : 0 < other.least) (spares : Spares mask other) :
    Masked mask regex (other.replaceAll (fun _ => mask) text) := by
  intro before piece after whole spans
  apply Classical.byContradiction
  intro untouched
  have ⟨before', after', old, unit, head, _, touches⟩ := exists_of_replaced spares
    (replaced_of_replaceFrom long' (le_refl _) : Replaced mask other [] text _) whole untouched
    (ne_nil_of_spans long spans) (.inl rfl)
  rw [List.nil_append] at unit touches
  rw [← head, ← unit] at spans
  exact untouched (touches (masked before' piece after' old spans))

/-- When all expressions are masked, every match of any of them touches a mask. -/
theorem masked_foldl {patterns : List Regex} (long : ∀ regex ∈ patterns, 0 < regex.least)
    (spares : ∀ regex ∈ patterns, Spares mask regex) (text : Utf16) {regex : Regex}
    (listed : regex ∈ patterns) :
    Masked mask regex
      (patterns.foldl (fun out regex => regex.replaceAll (fun _ => mask) out) text) := by
  have kept : ∀ (patterns : List Regex) (text : Utf16), Masked mask regex text →
      0 < regex.least → (∀ other ∈ patterns, 0 < other.least) →
      (∀ other ∈ patterns, Spares mask other) → Masked mask regex
        (patterns.foldl (fun out regex => regex.replaceAll (fun _ => mask) out) text) := by
    intro patterns
    induction patterns with
    | nil =>
        intro text masked _ _ _
        exact masked
    | cons other patterns ih =>
        intro text masked long' long spares
        apply ih _ _ long'
        · intro another inside
          exact long another (List.mem_cons_of_mem _ inside)
        · intro another inside
          exact spares another (List.mem_cons_of_mem _ inside)
        · exact masked.replaceAll long' (long other List.mem_cons_self)
            (spares other List.mem_cons_self)
  induction patterns generalizing text with
  | nil => contradiction
  | cons first patterns ih =>
      have long' : ∀ other ∈ patterns, 0 < other.least := fun other inside =>
        long other (List.mem_cons_of_mem _ inside)
      have spares' : ∀ other ∈ patterns, Spares mask other := fun other inside =>
        spares other (List.mem_cons_of_mem _ inside)
      cases List.mem_cons.1 listed with
      | inl here =>
          subst here
          have first := masked_replaceAll (long regex List.mem_cons_self)
            (spares regex List.mem_cons_self) text
          exact kept patterns _ first (long regex List.mem_cons_self) long' spares'
      | inr later => exact ih long' spares' _ later

/-- Where nothing is found nothing is masked. -/
theorem replaceAll_of_test (none' : regex.test text = false) :
    regex.replaceAll (fun _ => mask) text = text := by
  have found : regex.search none text = none := by
    rw [← Option.not_isSome_iff_eq_none, Bool.not_eq_true]
    exact none'
  rw [Regex.replaceAll]
  cases text.length with
  | zero => rfl
  | succ fuel => rw [replaceFrom, found]

theorem foldl_of_test {patterns : List Regex}
    (clean : ∀ regex ∈ patterns, regex.test text = false) :
    patterns.foldl (fun out regex => regex.replaceAll (fun _ => mask) out) text = text := by
  induction patterns with
  | nil => rfl
  | cons first patterns ih =>
      rw [List.foldl_cons, replaceAll_of_test (clean first List.mem_cons_self)]
      exact ih fun regex listed => clean regex (List.mem_cons_of_mem _ listed)

theorem Replaced.ne_nil (some' : mask ≠ []) (replaced : Replaced mask regex left text out)
    (text' : text ≠ []) : out ≠ [] := by
  cases replaced with
  | done => exact text'
  | found first matched later => simp [some']

/-! ## How much longer a text gets -/

/-- The text holds so many matches, apart from each other. -/
inductive Packs (regex : Regex) : Nat → Utf16 → Prop where
  | nil : Packs regex 0 []
  | skip {count : Nat} {text : Utf16} (unit : UInt16) (later : Packs regex count text) :
      Packs regex count (unit :: text)
  | take {count : Nat} {before next : Option UInt16} {piece text : Utf16}
      (spans : Spans regex before piece next) (later : Packs regex count text) :
      Packs regex (count + 1) (piece ++ text)

theorem Packs.zero : ∀ text : Utf16, Packs regex 0 text
  | [] => .nil
  | unit :: text => .skip unit (zero text)

theorem Packs.append {count count' : Nat} {text' : Utf16} (packs : Packs regex count text)
    (packs' : Packs regex count' text') : Packs regex (count + count') (text ++ text') := by
  induction packs with
  | nil =>
      rw [Nat.zero_add]
      exact packs'
  | skip unit _ ih => exact .skip unit ih
  | @take count _ _ piece text spans _ ih =>
      have all := Packs.take spans ih
      rw [← List.append_assoc, Nat.add_right_comm] at all
      exact all

theorem Packs.length_le {count : Nat} (packs : Packs regex count text) :
    count * regex.least ≤ text.length := by
  induction packs with
  | nil => simp
  | skip unit _ ih => exact ih.trans (Nat.le_succ _)
  | take spans _ ih =>
      have here := least_le_of_spans spans
      rw [List.length_append, Nat.succ_mul]
      omega

/-- A unit that is in every match is in a text with a match. -/
theorem Packs.mem {count : Nat} {sign : UInt16}
    (signed : ∀ {before piece next}, Spans regex before piece next → sign ∈ piece)
    (packs : Packs regex count text) (some' : count ≠ 0) : sign ∈ text := by
  induction packs with
  | nil => contradiction
  | skip unit _ ih => exact List.mem_cons_of_mem _ (ih some')
  | take spans => exact List.mem_append_left _ (signed spans)

/-- No match goes over a unit that is in none. -/
theorem Packs.split {count : Nat} {unit : UInt16} (never : regex.mentions unit = false)
    {first second : Utf16} (packs : Packs regex count (first ++ unit :: second)) :
    ∃ left right, count = left + right ∧ Packs regex left first ∧ Packs regex right second := by
  generalize whole : first ++ unit :: second = text at packs
  induction packs generalizing first with
  | nil => simp at whole
  | @skip count text other later ih =>
      cases first with
      | nil =>
          cases whole
          exact ⟨0, count, by simp, .nil, later⟩
      | cons unit' first =>
          obtain ⟨rfl, rest⟩ := List.cons.inj whole
          obtain ⟨left, right, parts, packs, packs'⟩ := ih rest
          exact ⟨left, right, parts, .skip unit' packs, packs'⟩
  | @take count before next piece text spans later ih =>
      have outside : unit ∉ piece := fun inside => by
        rw [mentions_of_spans spans inside] at never
        contradiction
      rcases List.append_eq_append_iff.1 whole with ⟨between, rfl, rest⟩ | ⟨between, rfl, rest⟩
      · cases between with
        | nil =>
            rw [List.append_nil] at spans
            obtain ⟨left, right, parts, packs, packs'⟩ := @ih [] rest
            have all := Packs.take spans packs
            rw [List.append_nil] at all
            exact ⟨left + 1, right, by omega, all, packs'⟩
        | cons other between =>
            obtain ⟨rfl, _⟩ := List.cons.inj rest
            simp at outside
      · obtain ⟨left, right, parts, packs, packs'⟩ := ih rest.symm
        exact ⟨left + 1, right, by omega, .take spans packs, packs'⟩

/-- A mask between two units that are in no match, without the unit that is in every one, parts
the matches before it from those behind it. -/
theorem Packs.split_mask {count : Nat} {sign : UInt16} (opening closing : UInt16) (inner : Utf16)
    (signed : ∀ {before piece next}, Spans regex before piece next → sign ∈ piece)
    (opens : regex.mentions opening = false) (closes : regex.mentions closing = false)
    (unsigned : sign ∉ inner) (same : mask = opening :: (inner ++ [closing])) {first second : Utf16}
    (packs : Packs regex count (first ++ (mask ++ second))) :
    ∃ left right, count = left + right ∧ Packs regex left first ∧ Packs regex right second := by
  have whole : first ++ (mask ++ second) = first ++ opening :: (inner ++ closing :: second) := by
    rw [same]
    simp
  rw [whole] at packs
  obtain ⟨left, others, parts, packs, packs'⟩ := packs.split opens
  obtain ⟨none', right, parts', packsInner, packs'⟩ := packs'.split closes
  have zero : none' = 0 := by
    by_contra some'
    exact unsigned (packsInner.mem signed some')
  exact ⟨left, right, by omega, packs, packs'⟩

/-- With `gain` for every match of an expression, masking leaves no text worth more. -/
theorem Replaced.packs {other : Regex} {gain count : Nat}
    (split : ∀ {count first second}, Packs regex count (first ++ (mask ++ second)) →
      ∃ left right, count = left + right ∧ Packs regex left first ∧ Packs regex right second)
    (long : mask.length ≤ other.least ∨ other = regex ∧ mask.length ≤ regex.least + gain)
    (replaced : Replaced mask other left text out) (packs : Packs regex count out) :
    ∃ more, Packs regex more text ∧ out.length + gain * count ≤ text.length + gain * more := by
  induction replaced generalizing count with
  | done => exact ⟨count, packs, Nat.le_refl _⟩
  | @found _ skipped piece out cursor first matched _ ih =>
      obtain ⟨other', same, _, spans⟩ := spans_of_matchAt matched
      obtain rfl := List.append_cancel_right same
      have short := least_le_of_spans spans
      obtain ⟨before, behind, rfl, packs, packs'⟩ := split packs
      obtain ⟨more, packs'', worth⟩ := ih packs'
      simp only [List.length_append, Nat.mul_add]
      cases long with
      | inl long =>
          refine ⟨before + (0 + more), packs.append ((Packs.zero piece).append packs''), ?_⟩
          simp only [Nat.mul_add]
          omega
      | inr gains =>
          obtain ⟨rfl, gains⟩ := gains
          refine ⟨before + (more + 1), packs.append (.take spans packs''), ?_⟩
          simp only [Nat.mul_add]
          omega

/-! ## Expressions that cut no mask -/

/-- An expression cuts no mask in two that no match can begin in, and whose first unit it does not
know or all of whose units it goes on over. -/
theorem spares_of_starts
    (starts : ∀ count ∈ List.range' 1 (mask.length - 1),
      regex.mayMatch (unitBefore none (mask.take count)) (mask.drop count) (fun _ _ => true) = false)
    (ends : (∀ unit, mask.head? = some unit → regex.mentions unit = false) ∨
      ∀ before text cursor, regex.matchAt before text = some cursor →
        ∀ unit, cursor.rest.head? = some unit → unit ∉ mask) : Spares mask regex := by
  intro left piece cursor matched
  have ⟨piece', same, before, spans⟩ := spans_of_matchAt matched
  have same := List.append_cancel_right same
  subst same
  have uncut : ¬ Splits mask left (piece ++ cursor.rest) := by
    intro ⟨first, second, some', some'', parts, ends', ⟨more, starts'⟩⟩
    have count : first.length ∈ List.range' 1 (mask.length - 1) := by
      have long := List.length_pos_of_ne_nil some'
      have long' := List.length_pos_of_ne_nil some''
      rw [List.mem_range'_1, parts, List.length_append]
      omega
    have none' := starts first.length count
    have ⟨other, whole⟩ := ends'
    rw [parts, List.take_left, List.drop_left, ← unitBefore_append_of_ne_nil some', whole] at none'
    rw [mayMatch_of_spans spans starts' fun _ _ => rfl] at none'
    contradiction
  constructor
  · exact uncut
  · intro ⟨first, second, some', some'', parts, ⟨other, whole⟩, ⟨more, starts'⟩⟩
    have lengths := congrArg List.length whole
    rw [List.length_append, List.length_append] at lengths
    cases Nat.lt_or_ge piece.length first.length with
    | inl longer =>
        have ⟨between, parts', rest⟩ := exists_append whole (by omega)
        apply uncut
        exists between, piece ++ second
        constructor
        · intro empty
          rw [rest, empty, List.nil_append] at longer
          omega
        constructor
        · exact List.append_ne_nil_of_right_ne_nil _ some''
        constructor
        · rw [parts, rest, List.append_assoc]
        constructor
        · exact ⟨other, parts'.symm⟩
        · exact ⟨more, by rw [List.append_assoc, starts']⟩
    | inr shorter =>
        have ⟨between, _, rest⟩ := exists_append whole.symm (by omega)
        cases ends with
        | inl unknown =>
            cases first with
            | nil => exact absurd rfl some'
            | cons unit first =>
                have inside : unit ∈ piece := by
                  rw [rest]
                  exact List.mem_append_right _ List.mem_cons_self
                have known := mentions_of_spans spans inside
                rw [unknown unit (by rw [parts]; rfl)] at known
                contradiction
        | inr goesOn =>
            cases second with
            | nil => exact absurd rfl some''
            | cons unit second =>
                apply goesOn _ _ _ matched unit
                · rw [← starts']
                  rfl
                · rw [parts]
                  exact List.mem_append_right _ List.mem_cons_self

end Replace

end Masking
