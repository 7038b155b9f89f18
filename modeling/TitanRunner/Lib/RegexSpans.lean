import TitanRunner.Lib.RegexMatch

/-!
# What a match depends on

Whether an expression matches a piece of a text depends on the piece, the unit before it and the
unit behind it.  A piece can be compared so between two texts.
-/

namespace Regex

/-- The expression matches a piece between two units. -/
def Spans : Regex → Option UInt16 → Utf16 → Option UInt16 → Prop
  | .empty, _, piece, _ => piece = []
  | .oneOf class', _, piece, _ => ∃ unit, class' unit = true ∧ piece = [unit]
  | .repeat' class' least most _, _, piece, _ => (∀ unit ∈ piece, class' unit = true) ∧
      least ≤ piece.length ∧ most.all (piece.length ≤ ·) = true
  | .seq first second, before, piece, next => ∃ left right, piece = left ++ right ∧
      Spans first before left (right.head?.or next) ∧
      Spans second (unitBefore before left) right next
  | .alt first second, before, piece, next =>
      Spans first before piece next ∨ Spans second before piece next
  | .capture inner, before, piece, next => Spans inner before piece next
  | .wordBoundary, before, piece, next =>
      piece = [] ∧ (isWordAt before != isWordAt next) = true
  | .start, before, piece, _ => piece = [] ∧ before = none
  | .stop, _, piece, next => piece = [] ∧ next = none

section Spans

variable {regex : Regex} {before next : Option UInt16} {piece rest : Utf16} {cursor after : Cursor}

/-- What lies between two cursors is matched. -/
theorem spans_of_goes (goes : Goes regex cursor after) :
    ∃ piece, cursor.rest = piece ++ after.rest ∧ after.before = unitBefore cursor.before piece ∧
      Spans regex cursor.before piece after.rest.head? := by
  induction regex generalizing cursor after with
  | empty =>
      cases goes
      exact ⟨[], rfl, rfl, rfl⟩
  | oneOf class' =>
      have ⟨unit, member, first, before, _⟩ := goes
      exact ⟨[unit], first, before, unit, member, rfl⟩
  | repeat' class' least most lazy =>
      have ⟨run, all, enough, bounded, same, before, _⟩ := goes
      exact ⟨run, same, before, all, enough, bounded⟩
  | seq first second ihFirst ihSecond =>
      have ⟨middle, goes, goes'⟩ := goes
      have ⟨left, same, before, spans⟩ := ihFirst goes
      have ⟨right, same', before', spans'⟩ := ihSecond goes'
      exists left ++ right
      constructor
      · rw [same, same', List.append_assoc]
      constructor
      · rw [before', before, unitBefore_append]
      · rw [same', List.head?_append] at spans
        rw [before] at spans'
        exact ⟨left, right, rfl, spans, spans'⟩
  | alt first second ihFirst ihSecond =>
      cases goes with
      | inl goes =>
          have ⟨piece, same, before, spans⟩ := ihFirst goes
          exact ⟨piece, same, before, .inl spans⟩
      | inr goes =>
          have ⟨piece, same, before, spans⟩ := ihSecond goes
          exact ⟨piece, same, before, .inr spans⟩
  | capture inner ih =>
      have ⟨middle, inside, same⟩ := goes
      have ⟨piece, same', before, spans⟩ := ih inside
      rw [same]
      exact ⟨piece, same', before, spans⟩
  | wordBoundary =>
      have ⟨same, boundary⟩ := goes
      cases same
      exact ⟨[], rfl, rfl, rfl, boundary⟩
  | start =>
      have ⟨same, first⟩ := goes
      cases same
      exact ⟨[], rfl, rfl, rfl, first⟩
  | stop =>
      have ⟨same, last⟩ := goes
      cases same
      rw [last]
      exact ⟨[], rfl, rfl, rfl, rfl⟩

/-- A piece that is matched leads from one cursor to another. -/
theorem goes_of_spans (spans : Spans regex before piece rest.head?) (captures : List Utf16) :
    ∃ after, after.rest = rest ∧ after.before = unitBefore before piece ∧
      Goes regex { before, rest := piece ++ rest, captures } after := by
  induction regex generalizing before piece rest captures with
  | empty =>
      cases spans
      exact ⟨_, rfl, rfl, rfl⟩
  | oneOf class' =>
      have ⟨unit, member, same⟩ := spans
      rw [same]
      exact ⟨{ before := some unit, rest, captures }, rfl, rfl, unit, member, rfl, rfl, rfl⟩
  | repeat' class' least most lazy =>
      have ⟨all, enough, bounded⟩ := spans
      exact ⟨{ before := unitBefore before piece, rest, captures }, rfl, rfl, piece, all, enough,
        bounded, rfl, rfl, rfl⟩
  | seq first second ihFirst ihSecond =>
      have ⟨left, right, same, spans, spans'⟩ := spans
      rw [← List.head?_append] at spans
      have ⟨middle, rest', before', goes⟩ := ihFirst spans captures
      have ⟨after, rest'', before'', goes'⟩ := ihSecond spans' middle.captures
      exists after
      constructor
      · exact rest''
      constructor
      · rw [before'', same, unitBefore_append]
      · exists middle
        constructor
        · rw [same, List.append_assoc]
          exact goes
        · rw [← before', ← rest'] at goes'
          exact goes'
  | alt first second ihFirst ihSecond =>
      cases spans with
      | inl spans =>
          have ⟨after, rest', before', goes⟩ := ihFirst spans captures
          exact ⟨after, rest', before', .inl goes⟩
      | inr spans =>
          have ⟨after, rest', before', goes⟩ := ihSecond spans captures
          exact ⟨after, rest', before', .inr goes⟩
  | capture inner ih =>
      have ⟨middle, rest', before', goes⟩ := ih spans captures
      exact ⟨{ middle with captures := middle.captures ++
          [(piece ++ rest).take ((piece ++ rest).length - middle.rest.length)] },
        rest', before', middle, goes, rfl⟩
  | wordBoundary =>
      have ⟨same, boundary⟩ := spans
      cases same
      exact ⟨_, rfl, rfl, rfl, boundary⟩
  | start =>
      have ⟨same, first⟩ := spans
      cases same
      exact ⟨_, rfl, rfl, rfl, first⟩
  | stop =>
      have ⟨same, last⟩ := spans
      cases same
      exact ⟨_, rfl, rfl, rfl, List.head?_eq_none_iff.1 last⟩

theorem matchAt_of_spans (spans : Spans regex before piece rest.head?) :
    (regex.matchAt before (piece ++ rest)).isSome = true := by
  have ⟨_, _, _, goes⟩ := goes_of_spans spans []
  exact match'_isSome goes rfl

theorem spans_of_matchAt (matched : regex.matchAt before rest = some cursor) :
    ∃ piece, rest = piece ++ cursor.rest ∧ cursor.before = unitBefore before piece ∧
      Spans regex before piece cursor.rest.head? := by
  have ⟨_, goes, same⟩ := goes_of_match' matched
  cases same
  exact spans_of_goes goes

/-! ## Lengths and units -/

/-- No piece that is matched is shorter. -/
def least : Regex → Nat
  | .empty | .wordBoundary | .start | .stop => 0
  | .oneOf _ => 1
  | .repeat' _ least _ _ => least
  | .seq first second => least first + least second
  | .alt first second => min (least first) (least second)
  | .capture inner => least inner

theorem least_le_of_spans (spans : Spans regex before piece next) : regex.least ≤ piece.length := by
  induction regex generalizing before piece next with
  | empty | wordBoundary | start | stop => exact Nat.zero_le _
  | oneOf class' =>
      have ⟨unit, _, same⟩ := spans
      rw [same]
      exact le_refl 1
  | repeat' class' least most lazy => exact spans.2.1
  | seq first second ihFirst ihSecond =>
      have ⟨left, right, same, spans, spans'⟩ := spans
      rw [same, List.length_append, least]
      exact Nat.add_le_add (ihFirst spans) (ihSecond spans')
  | alt first second ihFirst ihSecond =>
      cases spans with
      | inl spans => exact (Nat.min_le_left _ _).trans (ihFirst spans)
      | inr spans => exact (Nat.min_le_right _ _).trans (ihSecond spans)
  | capture inner ih => exact ih spans

/-- Some class of the expression has the unit. -/
def mentions : Regex → UInt16 → Bool
  | .empty, _ | .wordBoundary, _ | .start, _ | .stop, _ => false
  | .oneOf class', unit => class' unit
  | .repeat' class' _ _ _, unit => class' unit
  | .seq first second, unit | .alt first second, unit => mentions first unit || mentions second unit
  | .capture inner, unit => mentions inner unit

theorem mentions_of_spans (spans : Spans regex before piece next) {unit : UInt16}
    (inside : unit ∈ piece) : regex.mentions unit = true := by
  induction regex generalizing before piece next with
  | empty =>
      cases spans
      contradiction
  | wordBoundary | start | stop =>
      rw [spans.1] at inside
      contradiction
  | oneOf class' =>
      have ⟨other, member, same⟩ := spans
      rw [same] at inside
      rw [mentions, List.mem_singleton.1 inside]
      exact member
  | repeat' class' least most lazy => exact spans.1 unit inside
  | seq first second ihFirst ihSecond =>
      have ⟨left, right, same, spans, spans'⟩ := spans
      rw [same] at inside
      rw [mentions, Bool.or_eq_true]
      cases List.mem_append.1 inside with
      | inl inside => exact .inl (ihFirst spans inside)
      | inr inside => exact .inr (ihSecond spans' inside)
  | alt first second ihFirst ihSecond =>
      rw [mentions, Bool.or_eq_true]
      cases spans with
      | inl spans => exact .inl (ihFirst spans inside)
      | inr spans => exact .inr (ihSecond spans inside)
  | capture inner ih => exact ih spans inside

end Spans

/-! ## Texts in parts -/

theorem spans_text (string : String) (before next : Option UInt16) :
    Spans (Regex.text string) before (Utf16.ofString string) next := by
  rw [Regex.text]
  generalize Utf16.ofString string = units
  induction units generalizing before with
  | nil => rfl
  | cons unit units ih =>
      exact ⟨[unit], units, rfl, ⟨unit, beq_self_eq_true unit, rfl⟩, ih _⟩

/-- A row of expressions matches the row of pieces that they match one by one. -/
theorem spans_seqs {parts : List (Regex × Utf16)} {tail : List Regex} {before next : Option UInt16}
    {piece : Utf16} (each : ∀ part ∈ parts, ∀ before next, Spans part.1 before part.2 next)
    (last : Spans (seqs tail) (unitBefore before (parts.flatMap Prod.snd)) piece next) :
    Spans (seqs (parts.map Prod.fst ++ tail)) before (parts.flatMap Prod.snd ++ piece) next := by
  induction parts generalizing before with
  | nil => exact last
  | cons part parts ih =>
      refine ⟨part.2, parts.flatMap Prod.snd ++ piece, ?_, each part List.mem_cons_self _ _, ?_⟩
      · rw [List.flatMap_cons, List.append_assoc]
      · apply ih fun other inside => each other (List.mem_cons_of_mem part inside)
        rwa [List.flatMap_cons, unitBefore_append] at last

/-! ## Whole texts -/

theorem nil_of_unitBefore {before : Option UInt16} {text : Utf16}
    (nothing : unitBefore before text = none) : text = [] := by
  induction text generalizing before with
  | nil => rfl
  | cons unit rest ih =>
      have alone : rest = [] := ih nothing
      subst alone
      exact absurd nothing (Option.some_ne_none unit)

/-- An expression between both ends matches the whole text. -/
theorem spans_of_anchored {body : Regex} {text : Utf16}
    (passed : (seqs [.start, body, .stop]).test text = true) : Spans body none text none := by
  obtain ⟨⟨skipped, cursor⟩, found⟩ := Option.isSome_iff_exists.1 passed
  obtain ⟨rest, whole, matched⟩ := search_eq_some found
  obtain ⟨piece, same, _, first, behind, split, ⟨begins, atStart⟩, inner, stop, split', spans, last,
    empty, parts, ⟨none', atEnd⟩, nothing⟩ := spans_of_matchAt matched
  have skippedNone : skipped = [] := nil_of_unitBefore atStart
  subst skippedNone begins none' nothing
  have restNone : cursor.rest = [] := by
    simpa using atEnd
  simp only [List.nil_append, List.append_nil] at split split' parts
  subst parts
  rw [restNone] at spans same
  rw [List.append_nil] at same
  rw [List.nil_append] at whole
  have inside : text = inner := by
    rw [whole, same, split, split', List.append_nil]
  subst inside
  simpa [unitBefore] using spans

theorem units_of_anchored {body : Regex} {text : Utf16}
    (passed : (seqs [.start, body, .stop]).test text = true) {unit : UInt16}
    (inside : unit ∈ text) : body.mentions unit = true :=
  mentions_of_spans (spans_of_anchored passed) inside

/-! ## Texts of which the beginning is known -/

/-- Some number of units from `count` on may be taken; nothing is known behind the text. -/
def mayRepeat (class' : UInt16 → Bool) (least : Nat) (continue' : Option UInt16 → Utf16 → Bool) :
    Nat → Option UInt16 → Utf16 → Bool
  | _, _, [] => true
  | count, before, unit :: known =>
      (decide (least ≤ count) && continue' before (unit :: known)) ||
        (class' unit && mayRepeat class' least continue' (count + 1) (some unit) known)

/-- A text that starts so may be matched; nothing is known of how it goes on. -/
def mayMatch : Regex → Option UInt16 → Utf16 → (Option UInt16 → Utf16 → Bool) → Bool
  | .empty, before, known, continue' => continue' before known
  | .oneOf _, _, [], _ => true
  | .oneOf class', _, unit :: known, continue' => class' unit && continue' (some unit) known
  | .repeat' class' least _ _, before, known, continue' =>
      mayRepeat class' least continue' 0 before known
  | .seq first second, before, known, continue' =>
      mayMatch first before known fun before known => mayMatch second before known continue'
  | .alt first second, before, known, continue' =>
      mayMatch first before known continue' || mayMatch second before known continue'
  | .capture inner, before, known, continue' => mayMatch inner before known continue'
  | .wordBoundary, _, [], _ => true
  | .wordBoundary, before, unit :: known, continue' =>
      (isWordAt before != Utf16.isWord unit) && continue' before (unit :: known)
  | .start, before, known, continue' => before.isNone && continue' before known
  | .stop, _, known, _ => known.isEmpty

section Known

variable {regex : Regex} {before : Option UInt16} {piece known more rest : Utf16}
  {continue' : Option UInt16 → Utf16 → Bool}

theorem mayRepeat_of_run {class' : UInt16 → Bool} {least count : Nat}
    (all : ∀ unit ∈ piece, class' unit = true) (enough : least ≤ count + piece.length)
    (starts : known ++ more = piece ++ rest)
    (goesOn : ∀ left, known = piece ++ left → continue' (unitBefore before piece) left = true) :
    mayRepeat class' least continue' count before known = true := by
  induction known generalizing piece count before with
  | nil => rfl
  | cons unit known ih =>
      rw [mayRepeat, Bool.or_eq_true, Bool.and_eq_true, Bool.and_eq_true, decide_eq_true_eq]
      cases piece with
      | nil => exact .inl ⟨enough, goesOn (unit :: known) rfl⟩
      | cons first piece =>
          have same := List.head_eq_of_cons_eq starts
          subst same
          apply Or.inr
          constructor
          · exact all unit List.mem_cons_self
          · apply ih
            · intro other inside
              exact all other (List.mem_cons_of_mem _ inside)
            · rw [List.length_cons] at enough
              omega
            · exact List.tail_eq_of_cons_eq starts
            · intro left same
              exact goesOn left (congrArg (unit :: ·) same)

/-- What is matched may be matched as far as the text is known. -/
theorem mayMatch_of_spans (spans : Spans regex before piece rest.head?)
    (starts : known ++ more = piece ++ rest)
    (goesOn : ∀ left, known = piece ++ left → continue' (unitBefore before piece) left = true) :
    mayMatch regex before known continue' = true := by
  induction regex generalizing before piece known rest continue' with
  | empty =>
      cases spans
      exact goesOn known rfl
  | oneOf class' =>
      have ⟨unit, member, same⟩ := spans
      subst same
      cases known with
      | nil => rfl
      | cons first known =>
          have same := List.head_eq_of_cons_eq starts
          subst same
          rw [mayMatch, Bool.and_eq_true]
          exact ⟨member, goesOn known rfl⟩
  | repeat' class' least most lazy =>
      have ⟨all, enough, _⟩ := spans
      exact mayRepeat_of_run all ((Nat.zero_add _).symm ▸ enough) starts goesOn
  | seq first second ihFirst ihSecond =>
      have ⟨left, right, same, first', second'⟩ := spans
      subst same
      rw [← List.head?_append] at first'
      rw [List.append_assoc] at starts
      rw [mayMatch]
      apply ihFirst first' starts
      intro known' same
      subst same
      rw [List.append_assoc] at starts
      apply ihSecond second' (List.append_cancel_left starts)
      intro known'' same
      rw [← unitBefore_append]
      apply goesOn
      rw [same, List.append_assoc]
  | alt first second ihFirst ihSecond =>
      rw [mayMatch, Bool.or_eq_true]
      cases spans with
      | inl spans => exact .inl (ihFirst spans starts goesOn)
      | inr spans => exact .inr (ihSecond spans starts goesOn)
  | capture inner ih => exact ih spans starts goesOn
  | wordBoundary =>
      have ⟨same, boundary⟩ := spans
      subst same
      cases known with
      | nil => rfl
      | cons unit known =>
          rw [List.nil_append] at starts
          rw [← starts] at boundary
          rw [mayMatch, Bool.and_eq_true]
          exact ⟨boundary, goesOn _ rfl⟩
  | start =>
      have ⟨same, first⟩ := spans
      subst same first
      rw [mayMatch, Bool.and_eq_true]
      exact ⟨rfl, goesOn known rfl⟩
  | stop =>
      have ⟨same, last⟩ := spans
      subst same
      rw [List.nil_append, List.head?_eq_none_iff.1 last] at starts
      rw [mayMatch, (List.append_eq_nil_iff.1 starts).1]
      rfl

end Known

/-! ## Greedy ends -/

section Greedy

variable {class' : UInt16 → Bool} {least : Nat} {cursor after : Cursor}

/-- A greedy repetition at the end stops where its class does. -/
theorem head_of_repeatUnits {captures : List Utf16} {count : Nat} {before : Option UInt16}
    {rest : Utf16} (found : repeatUnits class' least none false captures some count before rest =
      some after) : ∀ unit, after.rest.head? = some unit → class' unit = false := by
  induction rest generalizing count before with
  | nil =>
      rw [repeatUnits] at found
      split at found
      next =>
        cases found
        intro unit first
        contradiction
      next => contradiction
  | cons unit rest ih =>
      rw [repeatUnits, if_neg Bool.false_ne_true, Option.all_none, Bool.and_true] at found
      cases member : class' unit with
      | true =>
          rw [member, if_pos rfl] at found
          cases further : repeatUnits class' least none false captures some (count + 1) (some unit)
              rest with
          | some result =>
              rw [further] at found
              cases found
              exact ih further
          | none =>
              rw [further] at found
              -- If one may stop here, one may stop behind the next unit.
              have enough : least ≤ count := by
                apply Classical.byContradiction
                intro few
                rw [if_neg few] at found
                contradiction
              have isRun : IsRun class' least none (count + 1) [] :=
                ⟨(by intros; contradiction), Nat.le_succ_of_le enough, rfl⟩
              have some' : (repeatUnits class' least none false captures some (count + 1)
                  (some unit) ([] ++ rest)).isSome = true := repeatUnits_isSome isRun rfl
              rw [List.nil_append, further] at some'
              contradiction
      | false =>
          rw [member, if_neg Bool.false_ne_true] at found
          cases eq_some_of_orElse found with
          | inl nothing => contradiction
          | inr stopped =>
              split at stopped
              next =>
                cases stopped
                intro unit' first
                cases first
                exact member
              next => contradiction

/-- An expression that ends in a greedy repetition stops where its class does. -/
theorem head_of_seqs {parts : List Regex}
    (found : match' (seqs (parts ++ [atLeast class' least])) cursor some = some after) :
    ∀ unit, after.rest.head? = some unit → class' unit = false := by
  induction parts generalizing cursor with
  | nil => exact head_of_repeatUnits found
  | cons part parts ih =>
      have found' : match' part cursor (fun middle =>
          match' (seqs (parts ++ [atLeast class' least])) middle some) = some after := found
      have ⟨middle, _, later⟩ := goes_of_match' found'
      exact ih later

end Greedy

end Regex
