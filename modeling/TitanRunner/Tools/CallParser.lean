import TitanRunner.Orchestrator.Deliverable
import TitanRunner.Reliability.OutputRepair

/-!
# Tool calls in a model's answer

`src/tools/callParser.js`, and what a step does with an answer.  A call that is written as the
prompt asks for is read again, unless a fence in its arguments ends the block early.
-/

namespace TitanRunner

namespace CallParser

open Regex Utf16 OutputParser

/-- `FENCE`; the capture is the body. -/
def callFence : Regex :=
  let quotes := Regex.exactly (· == backquote) 3
  seqs [quotes, maybe (Regex.text "json"), star isSpaceUnit, .capture (lazyStar fun _ => true),
    quotes]

/-- `MAX_ARGS_CHARS` -/
def maxArgsChars : Nat := 8000

def isIdUnit (unit : UInt16) : Bool := isLower unit || isDigit unit || unit == 0x5F

/-- `/^[a-z][a-z0-9_]{1,40}$/` -/
def isToolId : Utf16 → Bool
  | [] => false
  | first :: rest =>
      isLower first && rest.all isIdUnit && decide (1 ≤ rest.length) && decide (rest.length ≤ 40)

structure ToolCall where
  tool : Utf16
  args : Json

/-- `matchAll`: what stands between a match and the one before it, and the cursor behind it. -/
def matchAll (regex : Regex) : Nat → Option UInt16 → Utf16 → List (Utf16 × Cursor)
  | 0, _, _ => []
  | fuel + 1, before, text =>
      match regex.search before text with
      | none => []
      | some (skipped, cursor) =>
          (skipped, cursor) :: matchAll regex fuel cursor.before cursor.rest

/-- The text that is taken for the call. -/
def candidateOf (trimmed : Utf16) : Option Utf16 :=
  match matchAll callFence trimmed.length none trimmed with
  | [(before, fence)] =>
      if (Utf16.trim before).isEmpty && (Utf16.trim fence.rest).isEmpty then
        some (Utf16.trim (fence.captures.headD []))
      else none
  | [] =>
      if trimmed.head? == some openBrace && trimmed.getLast? == some 0x7D then some trimmed
      else none
  | _ => none

/-- The call that an object is. -/
def callOf (parsed : Json) : Option ToolCall :=
  match (parsed.member (ofString "tool")).bind Json.string? with
  | none => none
  | some tool =>
      if !isToolId tool || (parsed.member (ofString "files")).isSome then none
      else
        let args : Json :=
          match parsed.member (ofString "args") with
          | none | some .null => .object []
          | some args => args
        match args with
        | .object members =>
            if maxArgsChars < (Json.stringify (.object members)).length then none
            else some { tool, args := .object members }
        | _ => none

/-- `parseToolCall` -/
def parseToolCall (text : Utf16) : Option ToolCall :=
  let trimmed := Utf16.trim text
  if trimmed.isEmpty || decide (maxArgsChars + 200 < trimmed.length) then none
  else ((candidateOf trimmed).bind Json.parse).bind callOf

/-- What a step does with an answer of its model. -/
inductive Turn where
  /-- The tool is called, and the model is asked again. -/
  | toolRound (call : ToolCall)
  /-- The answer is the step's output. -/
  | output (text : Utf16)
  | failed (verdict : OutputRepair.Verdict)

/-- The acceptance of an answer in `#runWithRetry`; `tools` says if there are any. -/
def turn (tools : Bool) (answer : Utf16) : Turn :=
  match if tools then parseToolCall answer else none with
  | some call => .toolRound call
  | none =>
      match OutputRepair.validateSubtaskOutput (some answer) with
      | .ok => .output answer
      | verdict => .failed verdict

/-- The call as the prompt asks for it. -/
def written (call : ToolCall) : Utf16 :=
  Json.stringify (.object [(ofString "tool", .string call.tool), (ofString "args", call.args)])

/-- Two fences, one behind the other. -/
def hasTwoFences (text : Utf16) : Bool :=
  (splitFirst ticks text).any fun (_, after) => hasFence after

section Fences

variable {text before after : Utf16} {unit : UInt16}

/-- Where a fence stands, the first one ends no later. -/
theorem exists_splitFirst (before after : Utf16) :
    ∃ first middle, splitFirst ticks (before ++ (ticks ++ after)) = some (first, middle ++ after) := by
  induction before with
  | nil =>
      exact ⟨[], [], rfl⟩
  | cons unit before ih =>
      obtain ⟨first, middle, found⟩ := ih
      rw [List.cons_append, splitFirst]
      split
      next rest starts =>
        have whole := List.isPrefixOf?_eq_some_iff_append_eq.1 starts
        have short : after.length ≤ rest.length := by
          have lengths := congrArg List.length whole
          simp only [List.length_append, List.length_cons] at lengths
          omega
        have ends : after <:+ unit :: (before ++ (ticks ++ after)) := by
          exists unit :: (before ++ ticks)
          rw [List.cons_append, List.append_assoc]
        obtain ⟨middle, same⟩ :=
          List.suffix_of_suffix_length_le ends ⟨ticks, whole⟩ short
        exact ⟨[], middle, by rw [same]⟩
      next =>
        rw [found]
        exact ⟨unit :: first, middle, rfl⟩

theorem hasFence_iff : hasFence text = true ↔ ∃ before after, text = before ++ (ticks ++ after) := by
  constructor
  · intro fence
    have ⟨(before, after), found⟩ := Option.isSome_iff_exists.1 fence
    exact ⟨before, after, append_of_splitFirst found⟩
  · intro ⟨before, after, same⟩
    have ⟨first, middle, found⟩ := exists_splitFirst before after
    rw [same, hasFence, found]
    rfl

theorem hasTwoFences_iff : hasTwoFences text = true ↔
    ∃ before middle after, text = before ++ (ticks ++ (middle ++ (ticks ++ after))) := by
  rw [hasTwoFences, Option.any_eq_true]
  constructor
  · intro ⟨(before, after), found, fence⟩
    have ⟨middle, last, same⟩ := hasFence_iff.1 fence
    rw [append_of_splitFirst found]
    exact ⟨before, middle, last, by rw [← same]⟩
  · intro ⟨before, middle, after, same⟩
    have ⟨first, between, found⟩ := exists_splitFirst before (middle ++ (ticks ++ after))
    rw [same, found]
    exists (first, between ++ (middle ++ (ticks ++ after)))
    constructor
    · rfl
    · apply hasFence_iff.2
      exact ⟨between ++ middle, after, by rw [List.append_assoc]⟩

/-- A fence is not begun by other units before it. -/
theorem fence_of_prepend {other : Utf16} (foreign : backquote ∉ other)
    (same : other ++ text = before ++ (ticks ++ after)) :
    ∃ before', text = before' ++ (ticks ++ after) := by
  cases List.append_eq_append_iff.1 same with
  | inl later =>
      have ⟨between, _, rest⟩ := later
      exact ⟨between, rest⟩
  | inr earlier =>
      have ⟨between, parts, rest⟩ := earlier
      cases between with
      | nil => exact ⟨[], rest.symm⟩
      | cons unit between =>
          have quote := List.head_eq_of_cons_eq rest
          rw [parts, ← quote] at foreign
          exact absurd (List.mem_append_right _ List.mem_cons_self) foreign

/-- A fence is not ended by another unit behind it. -/
theorem fence_of_append (foreign : unit ≠ backquote)
    (same : text ++ [unit] = before ++ (ticks ++ after)) :
    ∃ after', text = before ++ (ticks ++ after') := by
  cases List.eq_nil_or_concat after with
  | inl none' =>
      rw [none', List.append_nil] at same
      have last := congrArg List.getLast? same
      rw [List.getLast?_concat, List.getLast?_append] at last
      cases last
      contradiction
  | inr some' =>
      have ⟨after', last, ends⟩ := some'
      rw [ends, List.concat_eq_append, ← List.append_assoc, ← List.append_assoc] at same
      have ⟨same, _⟩ := List.append_inj' same rfl
      rw [List.append_assoc] at same
      exact ⟨after', same⟩

theorem hasFence_around {other : Utf16} (foreign : backquote ∉ other) (foreign' : unit ≠ backquote) :
    hasFence (other ++ (text ++ [unit])) = hasFence text := by
  rw [Bool.eq_iff_iff, hasFence_iff, hasFence_iff]
  constructor
  · intro ⟨before, after, same⟩
    have ⟨before', same'⟩ := fence_of_prepend foreign same
    have ⟨after', inside⟩ := fence_of_append foreign' same'
    exact ⟨before', after', inside⟩
  · intro ⟨before, after, same⟩
    exists other ++ before, after ++ [unit]
    rw [same]
    simp only [List.append_assoc]

theorem hasTwoFences_around {other : Utf16} (foreign : backquote ∉ other)
    (foreign' : unit ≠ backquote) :
    hasTwoFences (other ++ (text ++ [unit])) = hasTwoFences text := by
  rw [Bool.eq_iff_iff, hasTwoFences_iff, hasTwoFences_iff]
  constructor
  · intro ⟨before, middle, after, same⟩
    have ⟨before', same'⟩ := fence_of_prepend foreign same
    have joined : text ++ [unit] = before' ++ (ticks ++ middle) ++ (ticks ++ after) := by
      rw [same']
      simp only [List.append_assoc]
    have ⟨after', inside⟩ := fence_of_append foreign' joined
    exists before', middle, after'
    rw [inside]
    simp only [List.append_assoc]
  · intro ⟨before, middle, after, same⟩
    exists other ++ before, middle, after ++ [unit]
    rw [same]
    simp only [List.append_assoc]

end Fences

section Found

variable {before : Option UInt16} {text content rest : Utf16}

/-- The match at the opening of a block that is tagged as JSON. -/
theorem matchAt_callFence (visible : ∀ unit, text.head? = some unit → isSpaceUnit unit = false)
    (found : splitFirst ticks text = some (content, rest)) :
    callFence.matchAt before (ticks ++ (ofString "json" ++ 0xA :: text)) =
      some { before := some backquote, rest, captures := [content] } := by
  have opened : ticks.isPrefixOf? (ticks ++ (ofString "json" ++ 0xA :: text)) =
      some (ofString "json" ++ 0xA :: text) := List.isPrefixOf?_eq_some_iff_append_eq.2 rfl
  have blank : (0xA :: text).takeWhile isSpaceUnit = [0xA] ∧
      (0xA :: text).dropWhile isSpaceUnit = text := by
    rw [List.takeWhile_cons_of_pos rfl, List.dropWhile_cons_of_pos rfl]
    cases text with
    | nil => exact ⟨rfl, rfl⟩
    | cons unit rest =>
        have ink := Bool.eq_false_iff.1 (visible unit rfl)
        rw [List.takeWhile_cons_of_neg ink, List.dropWhile_cons_of_neg ink]
        exact ⟨rfl, rfl⟩
  rw [matchAt, callFence]
  simp only [seqs, List.foldr, match', maybe, match'_ticks, opened, Option.bind_some, match'_text]
  rw [match'_star_of_some]
  · rfl
  · simp only [blank]
    have lazily := match'_lazyStar { before := some 0xA, rest := text, captures := [] }
      fun after rest => {
        before := some backquote, rest
        captures := after.captures ++ [text.take (text.length - after.rest.length)] }
    rw [found, Option.map_some] at lazily
    refine Eq.trans ?_ (lazily.trans ?_)
    · congr
      funext after
      cases ticks.isPrefixOf? after.rest with
      | none => rfl
      | some rest => rfl
    · have used : text.take (text.length - (ticks ++ rest).length) = content := by
        rw [append_of_splitFirst found, List.length_append, Nat.add_sub_cancel, List.take_left]
      simp only [used]
      rfl

/-- The expression is found where two fences stand. -/
theorem search_callFence : (callFence.search before text).isSome = hasTwoFences text := by
  rw [Bool.eq_iff_iff, hasTwoFences_iff]
  constructor
  · intro found
    have ⟨(skipped, cursor), found⟩ := Option.isSome_iff_exists.1 found
    have ⟨rest, whole, matched⟩ := search_eq_some found
    have ⟨after, goes, _⟩ := goes_of_match' matched
    have ⟨first, opening, second, tagged, third, spaces, fourth, body, fifth, closing, _⟩ := goes
    have ⟨tag, rest₁, _⟩ := tagged.consumes
    have ⟨blank, rest₂, _⟩ := spaces.consumes
    have ⟨content, rest₃, _⟩ := body.consumes
    exists skipped, tag ++ (blank ++ content), fifth.rest
    have opens : rest = ticks ++ first.rest := (goes_ticks opening).1
    rw [whole, opens, rest₁, rest₂, rest₃, (goes_ticks closing).1]
    simp only [List.append_assoc]
  · intro ⟨skipped, middle, after, same⟩
    have quotes : ∀ cursor rest, cursor.rest = ticks ++ rest →
        Goes (Regex.exactly (· == backquote) 3) cursor
          { before := some backquote, rest, captures := cursor.captures } := by
      intro cursor rest starts
      have quotes : ∀ unit ∈ ticks, (unit == backquote) = true := List.all_eq_true.1 rfl
      exact ⟨ticks, quotes, le_refl 3, rfl, starts, rfl, rfl⟩
    rw [same]
    apply search_isSome skipped
    let opened : Cursor := { before := some backquote, rest := middle ++ (ticks ++ after) }
    let read : Cursor :=
      { before := unitBefore (some backquote) middle, rest := ticks ++ after
        captures := [middle] }
    have goes : Goes callFence
        { before := unitBefore before skipped
          rest := ticks ++ (middle ++ (ticks ++ after)) }
        { before := some backquote, rest := after, captures := [middle] } := by
      exists opened
      constructor
      · exact quotes _ _ rfl
      exists opened
      constructor
      · exact .inr rfl
      exists opened
      constructor
      · exact ⟨[], List.forall_mem_nil _, le_refl 0, rfl, rfl, rfl, rfl⟩
      exists read
      constructor
      · exists { before := unitBefore (some backquote) middle, rest := ticks ++ after }
        constructor
        · exact ⟨middle, fun _ _ => rfl, Nat.zero_le _, rfl, rfl, rfl, rfl⟩
        · simp only [read, opened, List.length_append, Nat.add_sub_cancel, List.nil_append,
            List.take_left']
      exists { before := some backquote, rest := after, captures := [middle] }
      constructor
      · exact quotes read after rfl
      · rfl
    exact match'_isSome goes rfl

end Found

/-! ## The text of a call -/

section Written

variable {tool text : Utf16} {members : List (Utf16 × Json)}

theorem plain_of_isIdUnit {unit : UInt16} (named : isIdUnit unit = true) :
    Json.quoteUnit unit = [unit] ∧ Json.isHigh unit = false ∧ unit ≠ backquote := by
  simp only [isIdUnit, isLower, isDigit, Bool.or_eq_true, Bool.and_eq_true, decide_eq_true_eq,
    beq_iff_eq, UInt16.le_iff_toNat_le, ← UInt16.toNat_inj, UInt16.reduceToNat] at named
  have low : Json.isLow unit = false := by
    simp only [Json.isLow, Bool.and_eq_false_iff, decide_eq_false_iff_not, UInt16.le_iff_toNat_le,
      UInt16.reduceToNat]
    omega
  have high : Json.isHigh unit = false := by
    simp only [Json.isHigh, Bool.and_eq_false_iff, decide_eq_false_iff_not,
      UInt16.le_iff_toNat_le, UInt16.reduceToNat]
    omega
  constructor
  · apply quoteUnit_of_plain _ _ _ high low
    · simp only [ne_eq, ← UInt16.toNat_inj, UInt16.reduceToNat]
      omega
    · simp only [ne_eq, ← UInt16.toNat_inj, UInt16.reduceToNat]
      omega
    · simp only [decide_eq_false_iff_not, UInt16.lt_iff_toNat_lt, UInt16.reduceToNat]
      omega
  constructor
  · exact high
  · simp only [ne_eq, ← UInt16.toNat_inj, backquote, UInt16.reduceToNat]
    omega

theorem quoteUnits_of_isIdUnit (named : ∀ unit ∈ text, isIdUnit unit = true) :
    Json.quoteUnits text = text := by
  induction text with
  | nil => rfl
  | cons unit rest ih =>
      have ⟨itself, high, _⟩ := plain_of_isIdUnit (named unit List.mem_cons_self)
      have apart : (Json.isHigh unit && rest.head?.any Json.isLow) = false := by
        rw [high, Bool.false_and]
      rw [quoteUnits_cons apart, itself, ih fun other inside => named other
        (List.mem_cons_of_mem _ inside)]
      rfl

/-- What the name of a tool is made of. -/
theorem isIdUnit_of_isToolId (named : isToolId tool = true) :
    (∀ unit ∈ tool, isIdUnit unit = true) ∧ tool.length ≤ 41 := by
  cases tool with
  | nil => contradiction
  | cons first rest =>
      simp only [isToolId, Bool.and_eq_true, decide_eq_true_eq, List.all_eq_true] at named
      have ⟨⟨⟨letter, all⟩, _⟩, short⟩ := named
      constructor
      · intro unit inside
        cases List.mem_cons.1 inside with
        | inl here => rw [here, isIdUnit, letter, Bool.true_or, Bool.true_or]
        | inr later => exact all unit later
      · rw [List.length_cons]
        omega

/-- The text before the arguments. -/
def opening (tool : Utf16) : Utf16 :=
  ofString "\x7b\"tool\":\"" ++ (tool ++ ofString "\",\"args\":")

theorem written_eq (named : isToolId tool = true) (args : Json) :
    written { tool, args } = opening tool ++ (Json.stringify args ++ [0x7D]) := by
  have ⟨units, _⟩ := isIdUnit_of_isToolId named
  have quoted : Json.quote tool = 0x22 :: (tool ++ [0x22]) := by
    rw [Json.quote, quoteUnits_of_isIdUnit units]
    rfl
  have named : Json.render [] 1 (.string tool) = Json.quote tool := by rw [Json.render]
  rw [written, Json.stringify, Json.render, Json.renderMembers, Json.renderMembers,
    Json.render_flat args, named, quoted]
  simp only [Json.breakLine_nil, opening, List.append_assoc, List.cons_append]
  rfl

theorem backquote_not_mem_opening (named : isToolId tool = true) : backquote ∉ opening tool := by
  have ⟨units, _⟩ := isIdUnit_of_isToolId named
  apply List.not_mem_append (by decide)
  apply List.not_mem_append _ (by decide)
  intro inside
  exact (plain_of_isIdUnit (units _ inside)).2.2 rfl

theorem length_written (named : isToolId tool = true) (args : Json) :
    (written { tool, args }).length ≤ 60 + (Json.stringify args).length := by
  have ⟨_, short⟩ := isIdUnit_of_isToolId named
  have first : (ofString "\x7b\"tool\":\"").length = 9 := by decide
  have last : (ofString "\",\"args\":").length = 9 := by decide
  rw [written_eq named, opening]
  simp only [List.length_append, List.length_singleton, first, last]
  omega

/-- The text is an object's. -/
theorem written_shape (named : isToolId tool = true) (args : Json) :
    ∃ middle, written { tool, args } = openBrace :: (middle ++ [0x7D]) := by
  exists ofString "\"tool\":\"" ++ (tool ++ (ofString "\",\"args\":" ++ Json.stringify args))
  rw [written_eq named, opening]
  simp only [List.append_assoc]
  rfl

/-- Read as JSON the text is the call again. -/
theorem callOf_written (named : isToolId tool = true)
    (proper : Json.isProper (.object members) = true)
    (short : (Json.stringify (.object members)).length ≤ maxArgsChars) :
    (Json.parse (written { tool, args := .object members })).bind callOf =
      some { tool, args := .object members } := by
  have whole : Json.isProper (.object
      [(ofString "tool", .string tool), (ofString "args", .object members)]) = true := by
    rw [Json.isProper, Json.areProperMembers, Json.areProperMembers, proper]
    rfl
  rw [written, Json.parse_stringify whole, Option.bind_some, callOf]
  have files : (ofString "args" == ofString "files") = false ∧
      (ofString "tool" == ofString "files") = false ∧
      (ofString "args" == ofString "tool") = false := by decide
  simp only [Json.member, List.reverse_cons, List.reverse_nil, List.nil_append,
    List.singleton_append, List.find?_cons, files, beq_self_eq_true, Option.map_some,
    Option.bind_some, Json.string?, named, List.find?_nil, Option.map_none, Option.isSome_none,
    Bool.not_true, Bool.or_self, if_false, Bool.false_eq_true, if_neg (Nat.not_lt.2 short)]

end Written

/-! ## What is recognised -/

/-- The answer is taken for the call, and the tool is run. -/
def Recognised (call : ToolCall) (answer : Utf16) : Prop :=
  parseToolCall answer = some call ∧ turn true answer = .toolRound call

theorem recognised_of_parse {call : ToolCall} {answer : Utf16}
    (parsed : parseToolCall answer = some call) : Recognised call answer := by
  constructor
  · exact parsed
  · rw [turn, if_pos rfl, parsed]

section Recognised

variable {tool text : Utf16} {members : List (Utf16 × Json)}

theorem blank_of_trim_nil (empty : Utf16.trim text = []) : ∀ unit ∈ text, isSpaceUnit unit = true := by
  have ⟨spaces, blank, whole⟩ := trim_append text
  rw [empty, List.nil_append] at whole
  intro unit inside
  rw [← List.takeWhile_append_dropWhile (p := isSpaceUnit) (l := text), whole] at inside
  cases List.mem_append.1 inside with
  | inl first => exact List.mem_takeWhile_imp first
  | inr later => exact blank unit later

theorem trim_fenced (body : Utf16) : Utf16.trim (fenced body) = fenced body := by
  have visible : isSpaceUnit backquote = false := rfl
  have shape : fenced body = backquote :: (([backquote, backquote] ++ (ofString "json" ++ 0xA ::
      (body ++ [0xA, backquote, backquote]))) ++ [backquote]) := by
    rw [fenced]
    simp only [ticks, List.append_assoc, List.cons_append, List.nil_append]
  rw [shape]
  exact trim_of_visible visible visible (List.forall_mem_nil _)

theorem matchAll_fenced {body content rest : Utf16}
    (visible : ∀ unit, body.head? = some unit → isSpaceUnit unit = false)
    (some' : body ≠ []) (found : splitFirst ticks (body ++ 0xA :: ticks) = some (content, rest)) :
    ∃ fuel, matchAll callFence (fenced body).length none (fenced body) =
      ([], { before := some backquote, rest, captures := [content] }) ::
        matchAll callFence fuel (some backquote) rest := by
  have visible' : ∀ unit, (body ++ 0xA :: ticks).head? = some unit → isSpaceUnit unit = false := by
    intro unit first
    cases body with
    | nil => exact absurd rfl some'
    | cons first' rest' => exact visible unit first
  have matched : callFence.search none (fenced body) =
      some ([], { before := some backquote, rest, captures := [content] }) :=
    search_of_matchAt (matchAt_callFence visible' found)
  cases length : (fenced body).length with
  | zero =>
      rw [fenced, List.length_append] at length
      contradiction
  | succ fuel =>
      exists fuel
      rw [matchAll, matched]

/-- Without a fence in the arguments the block is read whole. -/
theorem parse_fenced (named : isToolId tool = true)
    (proper : Json.isProper (.object members) = true)
    (short : (Json.stringify (.object members)).length ≤ maxArgsChars)
    (clean : hasFence (Json.stringify (.object members)) = false) :
    parseToolCall (fenced (written { tool, args := .object members })) =
      some { tool, args := .object members } := by
  obtain ⟨middle, shape⟩ := written_shape named (.object members)
  have none' : splitFirst ticks (written { tool, args := .object members }) = none := by
    rw [← Option.not_isSome_iff_eq_none, ← hasFence, written_eq named,
      hasFence_around (backquote_not_mem_opening named) (by decide), clean]
    exact Bool.false_ne_true
  have visible : ∀ unit, (written { tool, args := .object members }).head? = some unit →
      isSpaceUnit unit = false := by
    intro unit first
    rw [shape] at first
    cases first
    rfl
  have some' : written { tool, args := .object members } ≠ [] := by
    rw [shape]
    exact List.cons_ne_nil _ _
  obtain ⟨fuel, all⟩ := matchAll_fenced visible some' (splitFirst_of_none none' (by decide))
  have ended : matchAll callFence fuel (some backquote) [] = [] := by
    have nothing : callFence.search (some backquote) [] = none := by
      rw [← Option.not_isSome_iff_eq_none, search_callFence]
      decide
    cases fuel with
    | zero => rfl
    | succ fuel => rw [matchAll, nothing]
  have trimmed : Utf16.trim (written { tool, args := .object members } ++ [0xA]) =
      written { tool, args := .object members } := by
    have blank : ∀ unit ∈ [0xA], isSpaceUnit unit = true := List.forall_mem_singleton.2 rfl
    rw [shape, List.cons_append, List.append_assoc, List.singleton_append,
      trim_of_visible rfl rfl blank]
  have candidate : candidateOf (fenced (written { tool, args := .object members })) =
      some (written { tool, args := .object members }) := by
    rw [candidateOf, all, ended]
    exact congrArg some trimmed
  have bounded : (fenced (written { tool, args := .object members })).length ≤ maxArgsChars + 200 := by
    have length := length_written named (.object members)
    have tag : (ofString "json").length = 4 := by decide
    have quotes : ticks.length = 3 := rfl
    simp only [fenced, List.length_append, List.length_cons, tag, quotes]
    omega
  rw [parseToolCall]
  simp only [trim_fenced, candidate, Option.bind_some, callOf_written named proper short]
  rw [if_neg]
  rw [Bool.or_eq_true, decide_eq_true_eq, not_or]
  constructor
  · rw [fenced]
    exact Bool.false_ne_true
  · exact Nat.not_lt.2 bounded

/-- A fence in the arguments ends the block early, and leaves some of it behind. -/
theorem parse_fenced_of_fence (named : isToolId tool = true)
    (fence : hasFence (Json.stringify (.object members)) = true) :
    parseToolCall (fenced (written { tool, args := .object members })) = none := by
  obtain ⟨middle, shape⟩ := written_shape named (.object members)
  obtain ⟨⟨content, rest⟩, found⟩ := Option.isSome_iff_exists.1 (by
    rw [← hasFence, written_eq named, hasFence_around (backquote_not_mem_opening named) (by decide)]
    exact fence : (splitFirst ticks (written { tool, args := .object members })).isSome = true)
  have visible : ∀ unit, (written { tool, args := .object members }).head? = some unit →
      isSpaceUnit unit = false := by
    intro unit first
    rw [shape] at first
    cases first
    rfl
  have some' : written { tool, args := .object members } ≠ [] := by
    rw [shape]
    exact List.cons_ne_nil _ _
  obtain ⟨fuel, all⟩ := matchAll_fenced visible some' (splitFirst_append found (0xA :: ticks))
  have left : (Utf16.trim (rest ++ 0xA :: ticks)).isEmpty = false := by
    rw [List.isEmpty_eq_false_iff]
    intro empty
    have blank := blank_of_trim_nil empty backquote (by
      apply List.mem_append_right
      exact List.mem_cons_of_mem _ List.mem_cons_self)
    contradiction
  have candidate : candidateOf (fenced (written { tool, args := .object members })) = none := by
    rw [candidateOf, all]
    cases matchAll callFence fuel (some backquote) (rest ++ 0xA :: ticks) with
    | nil => simp only [left, Bool.and_false, Bool.false_eq_true, if_false]
    | cons next others => rfl
  rw [parseToolCall]
  simp only [trim_fenced, candidate, Option.bind_none, ite_self]

theorem trim_written (named : isToolId tool = true) (args : Json) :
    Utf16.trim (written { tool, args }) = written { tool, args } := by
  have ⟨middle, shape⟩ := written_shape named args
  rw [shape]
  exact trim_of_visible rfl rfl (List.forall_mem_nil _)

/-- A bare call is read unless two fences stand in its arguments. -/
theorem parse_bare (named : isToolId tool = true)
    (proper : Json.isProper (.object members) = true)
    (short : (Json.stringify (.object members)).length ≤ maxArgsChars)
    (clean : hasTwoFences (Json.stringify (.object members)) = false) :
    parseToolCall (written { tool, args := .object members }) =
      some { tool, args := .object members } := by
  have ⟨middle, shape⟩ := written_shape named (.object members)
  have nothing : callFence.search none (written { tool, args := .object members }) = none := by
    rw [← Option.not_isSome_iff_eq_none, search_callFence, written_eq named,
      hasTwoFences_around (backquote_not_mem_opening named) (by decide), clean]
    exact Bool.false_ne_true
  have none' : ∀ fuel, matchAll callFence fuel none
      (written { tool, args := .object members }) = [] := by
    intro fuel
    cases fuel with
    | zero => rfl
    | succ fuel => rw [matchAll, nothing]
  have candidate : candidateOf (written { tool, args := .object members }) =
      some (written { tool, args := .object members }) := by
    have braces : ((written { tool, args := .object members }).head? == some openBrace &&
        (written { tool, args := .object members }).getLast? == some 0x7D) = true := by
      rw [shape, List.head?_cons, ← List.cons_append, List.getLast?_concat]
      rfl
    rw [candidateOf, none', if_pos braces]
  have bounded : (written { tool, args := .object members }).length ≤ maxArgsChars + 200 := by
    have length := length_written named (.object members)
    omega
  rw [parseToolCall]
  simp only [trim_written named, candidate, Option.bind_some, callOf_written named proper short]
  rw [if_neg]
  rw [Bool.or_eq_true, decide_eq_true_eq, not_or]
  constructor
  · rw [shape]
    exact Bool.false_ne_true
  · exact Nat.not_lt.2 bounded

theorem parse_bare_of_fences (named : isToolId tool = true)
    (fences : hasTwoFences (Json.stringify (.object members)) = true) :
    parseToolCall (written { tool, args := .object members }) = none := by
  have ⟨middle, shape⟩ := written_shape named (.object members)
  have found : (callFence.search none (written { tool, args := .object members })).isSome = true := by
    rw [search_callFence, written_eq named,
      hasTwoFences_around (backquote_not_mem_opening named) (by decide)]
    exact fences
  have ⟨(skipped, cursor), found⟩ := Option.isSome_iff_exists.1 found
  -- The text begins with a brace, so something stands before the first fence.
  have before : (Utf16.trim skipped).isEmpty = false := by
    rw [List.isEmpty_eq_false_iff]
    intro empty
    have ⟨rest, whole, matched⟩ := search_eq_some found
    cases skipped with
    | nil =>
        have ⟨after, ⟨first, opening, _⟩, _⟩ := goes_of_match' matched
        have quoted : rest = ticks ++ first.rest := (goes_ticks opening).1
        rw [shape, quoted] at whole
        have same := List.head_eq_of_cons_eq whole
        contradiction
    | cons unit others =>
        have visible := blank_of_trim_nil empty unit List.mem_cons_self
        rw [shape] at whole
        rw [← List.head_eq_of_cons_eq whole] at visible
        contradiction
  have ⟨others, all⟩ : ∃ others, matchAll callFence
      (written { tool, args := .object members }).length none
      (written { tool, args := .object members }) = (skipped, cursor) :: others := by
    cases length : (written { tool, args := .object members }).length with
    | zero =>
        rw [shape] at length
        contradiction
    | succ fuel =>
        exists matchAll callFence fuel cursor.before cursor.rest
        rw [matchAll, found]
  have candidate : candidateOf (written { tool, args := .object members }) = none := by
    rw [candidateOf, all]
    cases others with
    | nil => simp only [before, Bool.false_and, Bool.false_eq_true, if_false]
    | cons next others => rfl
  rw [parseToolCall]
  simp only [trim_written named, candidate, Option.bind_none, ite_self]

/-- A call in a block is recognised unless a fence stands in its arguments, a bare one unless
two do. -/
theorem recognised_iff (named : isToolId tool = true)
    (proper : Json.isProper (.object members) = true)
    (short : (Json.stringify (.object members)).length ≤ maxArgsChars) :
    (Recognised { tool, args := .object members }
        (fenced (written { tool, args := .object members })) ↔
      hasFence (Json.stringify (.object members)) = false) ∧
    (Recognised { tool, args := .object members } (written { tool, args := .object members }) ↔
      hasTwoFences (Json.stringify (.object members)) = false) := by
  constructor
  · constructor
    · intro recognised
      rw [Bool.eq_false_iff]
      intro fence
      have missed := recognised.1
      rw [parse_fenced_of_fence named fence] at missed
      contradiction
    · intro clean
      exact recognised_of_parse (parse_fenced named proper short clean)
  · constructor
    · intro recognised
      rw [Bool.eq_false_iff]
      intro fences
      have missed := recognised.1
      rw [parse_bare_of_fences named fences] at missed
      contradiction
    · intro clean
      exact recognised_of_parse (parse_bare named proper short clean)

end Recognised

/-- A note that shows a piece of code. -/
def note : List (Utf16 × Json) :=
  [(ofString "path", .string (ofString "note.md")),
    (ofString "content", .string (ofString "```\nnpm test\n```"))]

theorem recognised_read :
    Recognised { tool := ofString "repo_list_files", args := .object [] }
      (fenced (written { tool := ofString "repo_list_files", args := .object [] })) := by
  have short : (Json.stringify (.object [])).length ≤ maxArgsChars := by decide
  have proper : Json.isProper (.object []) = true := rfl
  exact (recognised_iff (by decide) proper short).1.2 (by decide)

/-- The call that writes the note is missed in both forms. -/
theorem not_recognised_note :
    ¬ ∀ (tool : Utf16) (members : List (Utf16 × Json)), isToolId tool = true →
      Json.isProper (.object members) = true →
      (Json.stringify (.object members)).length ≤ maxArgsChars →
      Recognised { tool, args := .object members }
        (fenced (written { tool, args := .object members })) ∧
      Recognised { tool, args := .object members } (written { tool, args := .object members }) := by
  intro all
  have ⟨⟨read, _⟩, _⟩ := all (ofString "workspace_write") note (by decide) (by decide)
    (by decide)
  have missed : parseToolCall (fenced (written
      { tool := ofString "workspace_write", args := .object note })) = none :=
    parse_fenced_of_fence (by decide) (by decide)
  rw [missed] at read
  contradiction

/-- The bare call is then the output of the step. -/
example : OutputRepair.validateSubtaskOutput
    (some (written { tool := ofString "workspace_write", args := .object note })) = .ok := by
  decide

end CallParser

end TitanRunner
