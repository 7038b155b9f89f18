import TitanRunner.Lib.JsonNumbers
import TitanRunner.Lib.JsonReader

/-!
# Values that were read

A value that comes from a text has the texts of numbers for its numbers, so it can be written and
read again.
-/

namespace Json

variable {reader after : Reader} {unit : UInt16}

/-- What was read of an open array or object has proper numbers. -/
def Frame.Proper : Frame → Prop
  | .array items => areProper items = true
  | .object members _ => areProperMembers members = true

def Expect.Proper : Expect → Prop
  | .valueNext stack | .firstItem stack | .firstMember stack => ∀ frame ∈ stack, frame.Proper
  | .afterItem items stack => areProper items = true ∧ ∀ frame ∈ stack, frame.Proper
  | .keyNext members stack | .colonNext members _ stack | .afterMember members stack =>
      areProperMembers members = true ∧ ∀ frame ∈ stack, frame.Proper
  | .done value => value.isProper = true

/-- What was read of a token is the beginning of a proper one. -/
def Mode.Proper : Mode → Prop
  | .number read phase => ∃ unit rest start, read = unit :: rest ∧ Phase.start unit = some start ∧
      start.run rest = some phase
  | .word _ value => value.isProper = true
  | .between | .string _ | .escape _ | .hex _ _ _ => True

def Token.Proper : Token → Prop
  | .atom value => value.isProper = true
  | .string _ | .openBracket | .closeBracket | .openBrace | .closeBrace | .comma | .colon => True

theorem proper_deliver (value : Json) (proper : value.isProper = true) {stack : List Frame}
    (all : ∀ frame ∈ stack, frame.Proper) : (deliver value stack).Proper := by
  cases stack with
  | nil => exact proper
  | cons frame stack =>
      obtain ⟨first, rest⟩ := List.forall_mem_cons.1 all
      cases frame with
      | array items =>
          refine ⟨?_, rest⟩
          rw [areProper_iff, List.forall_mem_append]
          exact ⟨(areProper_iff items).1 first, by simpa using proper⟩
      | object members key =>
          refine ⟨?_, rest⟩
          rw [areProperMembers_iff, List.forall_mem_append]
          exact ⟨(areProperMembers_iff members).1 first, by simpa using proper⟩

theorem proper_startValue {stack : List Frame} (all : ∀ frame ∈ stack, frame.Proper) {token : Token}
    (proper : token.Proper) {expect : Expect} (started : startValue stack token = some expect) :
    expect.Proper := by
  cases token with
  | string text =>
      cases started
      exact proper_deliver (.string text) rfl all
  | atom value =>
      cases started
      exact proper_deliver value proper all
  | openBracket | openBrace =>
      cases started
      exact all
  | closeBracket | closeBrace | comma | colon => contradiction

theorem proper_take {expect expect' : Expect} (proper : expect.Proper) {token : Token}
    (proper' : token.Proper) (taken : expect.take token = some expect') : expect'.Proper := by
  cases expect with
  | valueNext stack => exact proper_startValue proper proper' taken
  | firstItem stack =>
      cases token with
      | closeBracket =>
          cases taken
          exact proper_deliver (.array []) rfl proper
      | string | atom | openBracket | openBrace | closeBrace | comma | colon =>
          have none' : Frame.Proper (.array []) := rfl
          exact proper_startValue (List.forall_mem_cons.2 ⟨none', proper⟩) proper' taken
  | afterItem items stack =>
      cases token with
      | comma =>
          cases taken
          exact List.forall_mem_cons.2 proper
      | closeBracket =>
          cases taken
          exact proper_deliver (.array items) proper.1 proper.2
      | string | atom | openBracket | openBrace | closeBrace | colon => contradiction
  | firstMember stack =>
      cases token with
      | closeBrace =>
          cases taken
          exact proper_deliver (.object []) rfl proper
      | string text =>
          cases taken
          exact ⟨rfl, proper⟩
      | atom | openBracket | closeBracket | openBrace | comma | colon => contradiction
  | keyNext members stack =>
      cases token with
      | string text =>
          cases taken
          exact proper
      | atom | openBracket | closeBracket | openBrace | closeBrace | comma | colon => contradiction
  | colonNext members key stack =>
      cases token with
      | colon =>
          cases taken
          exact List.forall_mem_cons.2 proper
      | string | atom | openBracket | closeBracket | openBrace | closeBrace | comma => contradiction
  | afterMember members stack =>
      cases token with
      | comma =>
          cases taken
          exact proper
      | closeBrace =>
          cases taken
          exact proper_deliver (.object members) proper.1 proper.2
      | string | atom | openBracket | closeBracket | openBrace | colon => contradiction
  | done value =>
      rw [take_done] at taken
      contradiction

theorem proper_number {read : Utf16} {phase : Phase} (proper : Mode.Proper (.number read phase))
    (accepts : phase.accepts = true) : Token.Proper (.atom (.number read)) := by
  obtain ⟨unit, rest, start, rfl, started, ran⟩ := proper
  rw [Token.Proper, isProper, isNumber, started, Option.bind_some, ran]
  exact accepts

theorem proper_of_startWord {word : Utf16} {value : Json}
    (started : startWord unit = some (word, value)) : value.isProper = true := by
  unfold startWord at started
  repeat' split at started
  all_goals cases started <;> rfl

theorem proper_of_punctuation {token : Token} (punctuated : punctuation unit = some token) :
    token.Proper := by
  unfold punctuation at punctuated
  repeat' split at punctuated
  all_goals cases punctuated <;> trivial

def Reader.Proper (reader : Reader) : Prop := reader.mode.Proper ∧ reader.expect.Proper

theorem proper_begin {expect : Expect} (proper : expect.Proper)
    (went : Reader.begin' expect unit = some after) : after.Proper := by
  rw [Reader.begin'] at went
  split at went
  next =>
    cases went
    exact ⟨trivial, proper⟩
  next =>
    split at went
    next =>
      cases went
      exact ⟨trivial, proper⟩
    next =>
      split at went
      next phase started =>
        cases went
        exact ⟨⟨unit, [], phase, rfl, started, rfl⟩, proper⟩
      next word value _ started =>
        cases went
        exact ⟨proper_of_startWord started, proper⟩
      next =>
        obtain ⟨token, found, taken⟩ := Option.bind_eq_some_iff.1 went
        obtain ⟨expect', taken', same⟩ := Option.map_eq_some_iff.1 taken
        cases same
        exact ⟨trivial, proper_take proper (proper_of_punctuation found) taken'⟩

theorem proper_next (proper : reader.Proper) (went : reader.next unit = some after) :
    after.Proper := by
  obtain ⟨within, expected⟩ := proper
  rw [Reader.next] at went
  cases mode : reader.mode with
  | between =>
      simp only [mode] at went
      exact proper_begin expected went
  | string read =>
      simp only [mode] at went
      split at went
      next =>
        obtain ⟨expect', taken, same⟩ := Option.map_eq_some_iff.1 went
        cases same
        have token : Token.Proper (.string read) := trivial
        exact ⟨trivial, proper_take expected token taken⟩
      next =>
        split at went
        next =>
          cases went
          exact ⟨trivial, expected⟩
        next =>
          split at went
          next => contradiction
          next =>
            cases went
            exact ⟨trivial, expected⟩
  | escape read =>
      simp only [mode] at went
      split at went
      next =>
        cases went
        exact ⟨trivial, expected⟩
      next =>
        obtain ⟨meant, _, same⟩ := Option.map_eq_some_iff.1 went
        cases same
        exact ⟨trivial, expected⟩
  | hex read digits value =>
      simp only [mode] at went
      obtain ⟨digit, _, same⟩ := Option.map_eq_some_iff.1 went
      split at same <;> cases same <;> exact ⟨trivial, expected⟩
  | number read phase =>
      simp only [mode] at went within
      split at went
      next phase' went' =>
        cases went
        obtain ⟨unit', rest, start, rfl, started, ran⟩ := within
        refine ⟨⟨unit', rest ++ [unit], start, rfl, started, ?_⟩, expected⟩
        rw [Phase.run_append, ran, Option.bind_some, Phase.run, went', Option.bind_some, Phase.run]
      next =>
        split at went
        next accepts =>
          obtain ⟨expect', taken, begun⟩ := Option.bind_eq_some_iff.1 went
          exact proper_begin (proper_take expected (proper_number within accepts) taken) begun
        next => contradiction
  | word rest value =>
      simp only [mode] at went within
      split at went
      next => contradiction
      next wanted others =>
        split at went
        next =>
          split at went
          next =>
            obtain ⟨expect', taken, same⟩ := Option.map_eq_some_iff.1 went
            cases same
            have token : Token.Proper (.atom value) := within
            exact ⟨trivial, proper_take expected token taken⟩
          next =>
            cases went
            exact ⟨within, expected⟩
        next => contradiction

theorem proper_run {text : Utf16} (proper : reader.Proper) (ran : reader.run text = some after) :
    after.Proper := by
  induction text generalizing reader with
  | nil =>
      cases ran
      exact proper
  | cons unit text ih =>
      obtain ⟨middle, went, ran'⟩ := Option.bind_eq_some_iff.1 ran
      exact ih (proper_next proper went) ran'

theorem proper_finish {value : Json} (proper : reader.Proper)
    (finished : reader.finish = some value) : value.isProper = true := by
  obtain ⟨within, expected⟩ := proper
  rw [Reader.finish] at finished
  split at finished
  next done =>
    cases finished
    rw [done] at expected
    exact expected
  next reading =>
    rw [reading] at within
    split at finished
    next accepts =>
      split at finished
      next taken =>
        cases finished
        exact proper_take expected (proper_number within accepts) taken
      next => contradiction
    next => contradiction
  next => contradiction

/-- A value that was read has proper numbers. -/
theorem isProper_of_parse {text : Utf16} {value : Json} (parsed : parse text = some value) :
    value.isProper = true := by
  obtain ⟨last, ran, finished⟩ := Option.bind_eq_some_iff.1 parsed
  have start : Reader.start.Proper := ⟨trivial, fun frame inside => absurd inside List.not_mem_nil⟩
  exact proper_finish (proper_run start ran) finished

end Json
