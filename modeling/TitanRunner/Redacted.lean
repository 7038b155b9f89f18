import TitanRunner.Lib.Masking
import TitanRunner.Redact

/-!
# What redaction leaves

The patterns are applied once each, one after the other.  A mask that is put in ends a word, and it
can itself be taken for a value; so a redacted text may hold matches again, but only beside or
around a mask.
-/

namespace TitanRunner

namespace Redact

open Regex Utf16 Masking

/-- What is seen of the table by going through it: the patterns take some text, only two of them
know brackets and only the one of addresses is shorter than a mask, and no match begins within a
mask, whatever stands behind it. -/
theorem secretPatterns_facts :
    (∀ pattern ∈ secretPatterns, 0 < pattern.least) ∧
    (∀ pattern ∈ secretPatterns.take 11 ++ secretPatterns.drop 13,
      pattern.mentions 0x5B = false) ∧
    (∀ pattern ∈ secretPatterns.take 23 ++ secretPatterns.drop 24,
      mask.length ≤ pattern.least) ∧
    ∀ pattern ∈ secretPatterns, ∀ count ∈ List.range' 1 (mask.length - 1),
      pattern.mayMatch (unitBefore none (mask.take count)) (mask.drop count) (fun _ _ => true) =
        false := by
  decide

theorem least_pos : ∀ pattern ∈ secretPatterns, 0 < pattern.least := secretPatterns_facts.1

/-- An expression that ends in a greedy repetition goes on over a mask of its class. -/
theorem goesOn_of_seqs {pattern : Regex} (parts : List Regex) {class' : UInt16 → Bool} {least : Nat}
    (same : pattern = seqs (parts ++ [atLeast class' least])) (all : mask.all class' = true) :
    ∀ before text cursor, pattern.matchAt before text = some cursor →
      ∀ unit, cursor.rest.head? = some unit → unit ∉ mask := by
  intro before text cursor matched unit first inside
  subst same
  have outside := head_of_seqs matched unit first
  rw [List.all_eq_true.1 all unit inside] at outside
  contradiction

/-- Only two patterns know brackets. -/
theorem mentions_bracket : ∀ pattern ∈ secretPatterns, pattern.mentions 0x5B = false ∨
    pattern = authorizationHeader ∨ pattern = urlParameter := by
  intro pattern listed
  have parts : secretPatterns = secretPatterns.take 11 ++
      ([authorizationHeader, urlParameter] ++ secretPatterns.drop 13) := rfl
  have others := secretPatterns_facts.2.1 pattern
  rw [parts, List.mem_append, List.mem_append] at listed
  rcases listed with listed | listed | listed
  · exact .inl (others (List.mem_append_left _ listed))
  · rw [List.mem_cons, List.mem_singleton] at listed
    exact .inr listed
  · exact .inl (others (List.mem_append_right _ listed))

/-- No pattern cuts a mask in two; the two that know brackets go on over all of it. -/
theorem spares_mask : ∀ pattern ∈ secretPatterns, Spares mask pattern := by
  intro pattern listed
  apply spares_of_starts (secretPatterns_facts.2.2.2 pattern listed)
  cases mentions_bracket pattern listed with
  | inl unknown =>
      apply Or.inl
      intro unit first
      have bracket : mask.head? = some 0x5B := rfl
      rw [bracket] at first
      cases first
      exact unknown
  | inr others =>
      apply Or.inr
      cases others with
      | inl header =>
          apply goesOn_of_seqs [.wordBoundary, textNoCase "authorization",
            maybe (.oneOf (among "\"'")), star isSpaceUnit, .oneOf (among ":="), star isSpaceUnit,
            maybe (.oneOf (among "\"'"))] header
          decide
      | inr parameter =>
          let separator := maybe (.oneOf (among "_-"))
          apply goesOn_of_seqs [.wordBoundary,
            alts [seqs [textNoCase "api", separator, textNoCase "key"],
              seqs [textNoCase "access", separator, textNoCase "token"],
              textNoCase "token", textNoCase "secret"], Regex.text "="] parameter
          decide

/-- Every match of a pattern in a redacted text overlaps or adjoins a mask; without one the text
stays as it is when it is redacted again. -/
theorem redactString_masked (string : Utf16) :
    (∀ pattern ∈ secretPatterns, ∀ before piece after,
      redactString string = before ++ (piece ++ after) →
      Spans pattern (unitBefore none before) piece after.head? →
      Touches mask before piece after) ∧
    ((∀ pattern ∈ secretPatterns, pattern.test (redactString string) = false) →
      redactString (redactString string) = redactString string) := by
  constructor
  · intro pattern listed
    exact masked_foldl least_pos spares_mask string listed
  · exact fun clean => foldl_of_test clean

/-! ## The length of a redacted text -/

/-- Only an address may be shorter than the mask. -/
theorem short_pattern : ∀ pattern ∈ secretPatterns, mask.length ≤ pattern.least ∨
    pattern = emailAddress := by
  intro pattern listed
  have parts : secretPatterns =
      secretPatterns.take 23 ++ emailAddress :: secretPatterns.drop 24 := rfl
  have long := secretPatterns_facts.2.2.1 pattern
  rw [parts, List.mem_append, List.mem_cons] at listed
  rcases listed with listed | same | listed
  · exact .inl (long (List.mem_append_left _ listed))
  · exact .inr same
  · exact .inl (long (List.mem_append_right _ listed))

/-- `@` -/
def atSign : UInt16 := 0x40

/-- An address has its sign. -/
theorem atSign_of_spans {before next : Option UInt16} {piece : Utf16}
    (spans : Spans emailAddress before piece next) : atSign ∈ piece := by
  obtain ⟨_, tail, rfl, _, name, tail', rfl, _, sign, domain, rfl, sign', _⟩ := spans
  obtain ⟨_, _, rfl, ⟨unit, isAt, rfl⟩, rfl⟩ := sign'
  have unit' : unit = atSign := eq_of_beq isAt
  simp [unit']

/-- The length of the shortest address and of a mask, and that an address knows no brackets. -/
theorem emailAddress_facts : emailAddress.least = 6 ∧ mask.length = 10 ∧
    emailAddress.mentions 0x5B = false ∧ emailAddress.mentions 0x5D = false ∧
    atSign ∉ ofString "REDACTED" ∧ mask = 0x5B :: (ofString "REDACTED" ++ [0x5D]) := by
  decide

theorem packs_split {count : Nat} {first second : Utf16}
    (packs : Packs emailAddress count (first ++ (mask ++ second))) :
    ∃ left right, count = left + right ∧ Packs emailAddress left first ∧
      Packs emailAddress right second :=
  have ⟨_, _, opens, closes, unsigned, same⟩ := emailAddress_facts
  packs.split_mask 0x5B 0x5D (ofString "REDACTED") atSign_of_spans opens closes unsigned same

/-- Only addresses make a text longer, by four units each; and none are put in. -/
theorem packs_redactString {string : Utf16} {count : Nat}
    (packs : Packs emailAddress count (redactString string)) :
    ∃ more, Packs emailAddress more string ∧
      (redactString string).length + 4 * count ≤ string.length + 4 * more := by
  have step (patterns : List Regex) (listed : patterns ⊆ secretPatterns) (text : Utf16)
      (packs : Packs emailAddress count
        (patterns.foldl (fun out pattern => pattern.replaceAll (fun _ => mask) out) text)) :
      ∃ more, Packs emailAddress more text ∧
        (patterns.foldl (fun out pattern => pattern.replaceAll (fun _ => mask) out) text).length +
          4 * count ≤ text.length + 4 * more := by
    induction patterns generalizing text with
    | nil => exact ⟨count, packs, Nat.le_refl _⟩
    | cons pattern patterns ih =>
        have here := listed List.mem_cons_self
        obtain ⟨middle, packs', worth⟩ :=
          ih (fun _ mem => listed (List.mem_cons_of_mem _ mem)) _ packs
        have replaced : Replaced mask pattern [] text (pattern.replaceAll (fun _ => mask) text) :=
          replaced_of_replaceFrom (least_pos pattern here) (Nat.le_refl _)
        have long : mask.length ≤ pattern.least ∨
            pattern = emailAddress ∧ mask.length ≤ emailAddress.least + 4 :=
          (short_pattern pattern here).imp_right fun same =>
            ⟨same, by rw [emailAddress_facts.1, emailAddress_facts.2.1]⟩
        obtain ⟨more, packs'', worth'⟩ := replaced.packs packs_split long packs'
        exact ⟨more, packs'', worth.trans worth'⟩
  exact step secretPatterns (List.Subset.refl _) string packs

/-- Without an address a text gets no longer. -/
theorem length_redactString_le {text : Utf16} (none' : atSign ∉ text) :
    (redactString text).length ≤ text.length := by
  obtain ⟨count, packs, worth⟩ := packs_redactString (Packs.zero (redactString text))
  have zero : count = 0 := by
    by_contra some'
    exact none' (packs.mem atSign_of_spans some')
  omega

/-- A text as it stands in a file: it is scrubbed when it is recorded, and when it is written. -/
def stored (text : Utf16) : Utf16 := redactString (redactString text)

theorem packs_stored (text : Utf16) : ∃ count, Packs emailAddress count text ∧
    (stored text).length ≤ text.length + 4 * count := by
  obtain ⟨middle, packs, worth⟩ := packs_redactString (Packs.zero (stored text))
  obtain ⟨count, packs', worth'⟩ := packs_redactString packs
  refine ⟨count, packs', ?_⟩
  rw [stored]
  omega

/-- An address has six units at least. -/
theorem length_stored_le (text : Utf16) :
    (stored text).length ≤ text.length + 4 * (text.length / 6) := by
  obtain ⟨count, packs, worth⟩ := packs_stored text
  have fits := packs.length_le
  rw [emailAddress_facts.1] at fits
  omega

theorem length_stored_le_of_not_mem {text : Utf16} (none' : atSign ∉ text) :
    (stored text).length ≤ text.length := by
  obtain ⟨count, packs, worth⟩ := packs_stored text
  have zero : count = 0 := by
    by_contra some'
    exact none' (packs.mem atSign_of_spans some')
  omega

theorem redactString_ne_nil {string : Utf16} (some' : string ≠ []) : redactString string ≠ [] := by
  have step (patterns : List Regex) (listed : patterns ⊆ secretPatterns) (text : Utf16)
      (some' : text ≠ []) :
      patterns.foldl (fun out pattern => pattern.replaceAll (fun _ => mask) out) text ≠ [] := by
    induction patterns generalizing text with
    | nil => exact some'
    | cons pattern patterns ih =>
        have replaced : Replaced mask pattern [] text (pattern.replaceAll (fun _ => mask) text) :=
          replaced_of_replaceFrom (least_pos pattern (listed List.mem_cons_self)) (Nat.le_refl _)
        exact ih (fun _ mem => listed (List.mem_cons_of_mem _ mem)) _
          (replaced.ne_nil (List.ne_nil_of_length_pos (emailAddress_facts.2.1 ▸ by decide)) some')
  exact step secretPatterns (List.Subset.refl _) string some'

/-! ## What is found again -/

/-- The mask behind `token=` is taken for a token. -/
theorem not_redactString_stable : ¬ ∀ string : Utf16,
    (∀ pattern ∈ secretPatterns, pattern.test (redactString string) = false) ∧
      redactString (redactString string) = redactString string := by
  intro all
  have once : redactString (ofString "token=a@b.co") = ofString "token=[REDACTED]" := by
    decide
  have twice : redactString (ofString "token=[REDACTED]") = mask := by decide
  have same := (all (ofString "token=a@b.co")).2
  rw [once, twice] at same
  revert same
  decide

end Redact

end TitanRunner
