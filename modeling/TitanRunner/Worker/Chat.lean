import TitanRunner.Lib.Interleaving
import TitanRunner.Lib.SplitJoin
import TitanRunner.Lib.Utf8
import TitanRunner.Validate

/-!
# Chat streams

`extractSseChunk` and `consumeProviderStream` of `worker/src/chat.js`.  Every stream of a Worker
instance is decoded by the one `TextDecoder` of the module; between two chunks of a stream the
others may run.
-/

namespace TitanRunner

namespace Chat

open Interleaving TransitionSystem System Utf16 Utf8

/-! ## One event -/

structure Candidate where
  /-- `candidate.style === 'gemini'` -/
  gemini : Bool
  model : Utf16
  deriving DecidableEq, Repr

structure Piece where
  done : Bool := false
  text : Utf16 := []
  tokensUsed : Option Json := none

/-- `value?.name` -/
def get (name : String) (value : Option Json) : Option Json := value.bind (Json.member (ofString name))

/-- `value?.[0]` -/
def first : Option Json → Option Json
  | some (.array items) => items.head?
  | some (.string (unit :: _)) => some (.string [unit])
  | value => get "0" value

/-- `value ?? undefined` -/
def present : Option Json → Option Json
  | some .null => none
  | found => found

mutual

/-- `String(value)`.  A `toString` that an object has of its own is no function, and it throws. -/
def stringOf : Json → Option Utf16
  | .object members =>
      if members.any fun entry => entry.1 == ofString "toString" then none
      else some (Validate.display (.object members))
  | .array items => (stringsOf items).map (join (ofString ","))
  | value => some (Validate.display value)

/-- The pieces of a list that is joined. -/
def stringsOf : List Json → Option (List Utf16)
  | [] => some []
  | .null :: items => (stringsOf items).map ([] :: ·)
  | item :: items => (stringOf item).bind fun text => (stringsOf items).map (text :: ·)

end

/-- `String(value ?? '')` -/
def textOf (value : Option Json) : Option Utf16 :=
  match present value with
  | none => some []
  | some value => stringOf value

def doneMark : Utf16 := ofString "[DONE]"

/-- `extractSseChunk`; `none` if it throws. -/
def extractSseChunk (candidate : Candidate) (dataLine : Utf16) : Option Piece :=
  if dataLine.isEmpty || decide (dataLine = doneMark) then
    some { done := decide (dataLine = doneMark) }
  else
    match Json.parse dataLine with
    | none => some {}
    | some parsed =>
        if candidate.gemini then
          let tokensUsed := present (get "totalTokenCount" (get "usageMetadata" (some parsed)))
          match present (get "parts" (get "content" (first (get "candidates" (some parsed))))) with
          | none => some { tokensUsed }
          | some (.array parts) =>
              (parts.mapM fun part => textOf (get "text" (some part))).map fun texts =>
                { text := texts.flatten, tokensUsed }
          | some _ => none
        else
          let tokensUsed := present (get "total_tokens" (get "usage" (some parsed)))
          let choice := first (get "choices" (some parsed))
          let delta := present (get "content" (get "delta" choice)) <|> get "content" (get "message" choice)
          (textOf delta).map fun text => { text, tokensUsed }

/-! ## Lines -/

/-- `fullText` and `tokensUsed`, and the calls of `onDelta`. -/
structure Collected where
  fullText : Utf16 := []
  tokensUsed : Option Json := none
  deltas : List Utf16 := []

/-- What `consumeProviderStream` resolves to. -/
structure Answer where
  text : Utf16
  tokensUsed : Option Json
  model : Utf16

inductive Outcome where
  | answered (answer : Answer) (deltas : List Utf16)
  | threw (deltas : List Utf16)

/-- The text that was collected, unless it threw. -/
def Outcome.text : Outcome → Option Utf16
  | .answered answer _ => some answer.text
  | .threw _ => none

/-- Whether the loop goes on after a line. -/
inductive Flow where
  | goOn (collected : Collected)
  | stop (outcome : Outcome)

def dataField : Utf16 := ofString "data:"

section Candidate

variable (candidate : Candidate)

def Collected.answer (collected : Collected) : Outcome :=
  .answered {
    text := collected.fullText
    tokensUsed := collected.tokensUsed
    model := candidate.model } collected.deltas

def Collected.add (collected : Collected) (piece : Piece) : Collected where
  fullText := collected.fullText ++ piece.text
  tokensUsed := piece.tokensUsed <|> collected.tokensUsed
  deltas := if piece.text.isEmpty then collected.deltas else collected.deltas ++ [piece.text]

/-- What is done with a line. -/
def readLine (collected : Collected) (rawLine : Utf16) : Flow :=
  match dataField.isPrefixOf? (Utf16.trim rawLine) with
  | none => .goOn collected
  | some field =>
      match extractSseChunk candidate (Utf16.trim field) with
      | none => .stop (.threw collected.deltas)
      | some piece =>
          if piece.done then .stop ((collected.add piece).answer candidate)
          else .goOn (collected.add piece)

def readLines (collected : Collected) : List Utf16 → Flow
  | [] => .goOn collected
  | line :: lines =>
      match readLine candidate collected line with
      | .goOn collected => readLines collected lines
      | .stop outcome => .stop outcome

/-- What a stream comes to that has ended. -/
def Flow.outcome : Flow → Outcome
  | .goOn collected => collected.answer candidate
  | .stop outcome => outcome

/-- `'\n'` -/
def newline : UInt16 := 0xA

/-- What the bytes of a stream come to that are decoded all at once. -/
def decodedAtOnce (bytes : List UInt8) : Outcome :=
  (readLines candidate {} (split newline (Utf8.decode bytes))).outcome candidate

end Candidate

/-! ## The streams of an instance -/

/-- A call of `consumeProviderStream` in its loop. -/
structure Stream where
  candidate : Candidate
  /-- Ghost: the bytes that were read. -/
  read : List UInt8
  rest : List UInt8
  buf : Utf16
  collected : Collected

inductive Local where
  | idle
  | reading (stream : Stream)
  | finished (candidate : Candidate) (bytes : List UInt8) (outcome : Outcome)
  | broken

inductive Event where
  /-- A provider answers with a stream of these bytes. -/
  | opened (candidate : Candidate) (bytes : List UInt8)
  /-- `reader.read()` resolves to the next bytes. -/
  | chunk (size : Nat)
  /-- It resolves to `done`. -/
  | ended
  /-- It rejects. -/
  | broke

/-- The turn of the loop that follows a chunk. -/
def Stream.take (stream : Stream) (decoder : TextDecoder) (size : Nat) : TextDecoder × Local :=
  let value := stream.rest.take size
  let decoded := decoder.decode value
  let lines := split newline (stream.buf ++ decoded.2)
  (decoded.1,
    match readLines stream.candidate stream.collected lines.dropLast with
    | .goOn collected =>
        .reading {
          stream with
          read := stream.read ++ value
          rest := stream.rest.drop size
          buf := lines.getLastD []
          collected }
    | .stop outcome => .finished stream.candidate (stream.read ++ stream.rest) outcome)

def step (decoder : TextDecoder) : Local → Event → Option (TextDecoder × Local)
  | .idle, .opened candidate bytes =>
      some (decoder, .reading { candidate, read := [], rest := bytes, buf := [], collected := {} })
  | .reading stream, .chunk size => some (stream.take decoder size)
  | .reading stream, .ended =>
      if stream.rest.isEmpty then
        some (decoder, .finished stream.candidate stream.read
          ((readLines stream.candidate stream.collected [stream.buf]).outcome stream.candidate))
      else none
  | .reading _, .broke => some (decoder, .broken)
  | _, _ => none

def program : Program TextDecoder Local Event := { idle := .idle, step }

/-- The streams of a Worker instance; its decoder is new. -/
def system (Id : Type) [DecidableEq Id] : System (Pool Id TextDecoder Local) (Id × Event) :=
  program.system Id (· = {})

/-! ## Lines, in parts -/

section Lines

variable {candidate : Candidate} {collected : Collected}

theorem readLines_append (lines more : List Utf16) :
    readLines candidate collected (lines ++ more) =
      match readLines candidate collected lines with
      | .goOn collected => readLines candidate collected more
      | .stop outcome => .stop outcome := by
  induction lines generalizing collected with
  | nil => rfl
  | cons line rest ih =>
      simp only [List.cons_append, readLines]
      cases readLine candidate collected line with
      | goOn collected => exact ih
      | stop outcome => rfl

/-- A mark at the beginning changes nothing: a line is trimmed before it is read. -/
theorem readLines_marked {text stripped : Utf16} (marked : Marked text stripped) :
    readLines candidate collected (split newline text) =
      readLines candidate collected (split newline stripped) := by
  cases marked with
  | inl same => rw [same]
  | inr mark =>
      have ⟨line, lines, parts⟩ := List.exists_cons_of_ne_nil (split_ne_nil newline stripped)
      have trimmed : Utf16.trim (byteOrderMark :: line) = Utf16.trim line := by
        rw [Utf16.trim, List.dropWhile_cons_of_pos (by decide)]
        rfl
      have other : byteOrderMark ≠ newline := by decide
      simp only [mark, split, if_neg other, parts, readLines, readLine, trimmed]

end Lines

/-! ## What is known of a stream -/

/-- The text of the bytes that were read. -/
def Stream.raw (stream : Stream) : Utf16 := (Decoder.ready.feed stream.read).2

/-- What the loop has come to is what it comes to with the text that was read, but for a mark. -/
structure Stream.InStep (stream : Stream) (seen : Utf16) (earlier : List Utf16) : Prop where
  marked : Marked stream.raw seen
  lines : split newline seen = earlier ++ [stream.buf]
  collected : readLines stream.candidate {} earlier = .goOn stream.collected

/-- What the decoder tells of a request. -/
def Knows (decoder : TextDecoder) : Local → Prop
  | .reading stream => (∃ seen earlier, stream.InStep seen earlier) ∧
      (decoder.bomSeen = false → stream.raw = [])
  | .finished candidate bytes outcome => outcome = decodedAtOnce candidate bytes
  | _ => True

/-- The decoder holds what this very stream has left of a character, and a stream does not end
within one. -/
def Undisturbed (decoder : TextDecoder) : Local → Event → Prop
  | .reading stream, .chunk _ => decoder.within = (Decoder.ready.feed stream.read).1
  | .reading stream, .ended => (Decoder.ready.feed stream.read).1 = .ready
  | _, _ => True

section Step

variable {decoder after : TextDecoder} {here later : Local} {event : Event} {stream : Stream}

/-- The text of a chunk goes on where the text before it ended. -/
theorem marked_chunk {seen : Utf16} {size : Nat} (marked : Marked stream.raw seen)
    (unseen : decoder.bomSeen = false → stream.raw = [])
    (own : decoder.within = (Decoder.ready.feed stream.read).1) :
    Marked (Decoder.ready.feed (stream.read ++ stream.rest.take size)).2
      (seen ++ (decoder.decode (stream.rest.take size)).2) := by
  rw [Decoder.feed_append, ← own]
  cases @TextDecoder.decode_text decoder (stream.rest.take size) with
  | inl same => exact same ▸ marked.append _
  | inr stripped =>
      have none' := unseen stripped.1
      rw [Stream.raw] at none'
      rw [Stream.raw, none'] at marked
      obtain rfl : [] = seen := marked.resolve_right (List.cons_ne_nil _ _).symm
      rw [none']
      exact stripped.2

/-- What a stream comes to, from what its bytes came to so far. -/
theorem decodedAtOnce_eq {candidate : Candidate} {read rest : List UInt8} {seen : Utf16}
    {earlier : List Utf16} {buf : Utf16} (marked : Marked (Decoder.ready.feed read).2 seen)
    (lines : split newline seen = earlier ++ [buf]) :
    decodedAtOnce candidate (read ++ rest) =
      (readLines candidate {} (earlier ++ split newline (buf ++
        (((Decoder.ready.feed read).1.feed rest).2 ++
          ((Decoder.ready.feed read).1.feed rest).1.flush)))).outcome candidate := by
  rw [decodedAtOnce, Utf8.decode, ← readLines_marked (marked_stripMark _), Decoder.feed_append, List.append_assoc,
    readLines_marked (marked.append _), split_append_last lines]

theorem decodedAtOnce_of_stop {candidate : Candidate} {read rest : List UInt8} {seen : Utf16}
    {earlier : List Utf16} {buf : Utf16} {outcome : Outcome}
    (marked : Marked (Decoder.ready.feed read).2 seen) (lines : split newline seen = earlier ++ [buf])
    (stopped : readLines candidate {} earlier = .stop outcome) :
    decodedAtOnce candidate (read ++ rest) = outcome := by
  rw [decodedAtOnce_eq marked lines, readLines_append, stopped]
  rfl

/-- Step lemma, of a chunk. -/
theorem knows_take {seen : Utf16} {earlier : List Utf16} {size : Nat}
    (inStep : stream.InStep seen earlier) (unseen : decoder.bomSeen = false → stream.raw = [])
    (own : decoder.within = (Decoder.ready.feed stream.read).1) :
    Knows (stream.take decoder size).1 (stream.take decoder size).2 := by
  have marked := @marked_chunk decoder stream seen size inStep.marked unseen own
  obtain ⟨lines, last, parts⟩ : ∃ lines last, split newline
      (stream.buf ++ (decoder.decode (stream.rest.take size)).2) = lines ++ [last] :=
    ⟨_, _, (List.dropLast_append_getLast (split_ne_nil newline _)).symm⟩
  have whole : split newline (seen ++ (decoder.decode (stream.rest.take size)).2) =
      (earlier ++ lines) ++ [last] := by
    rw [split_append_last inStep.lines, parts, List.append_assoc]
  have goes := @readLines_append stream.candidate {} earlier lines
  rw [inStep.collected] at goes
  rw [Stream.take]
  dsimp only
  rw [parts, List.dropLast_concat, List.getLastD_concat]
  split
  next collected still =>
    refine ⟨⟨_, _, marked, whole, goes.trans still⟩, fun none' => ?_⟩
    have ⟨before, silent⟩ := TextDecoder.decode_bomSeen none'
    rw [Stream.raw, Decoder.feed_append, ← own, silent]
    exact (List.append_nil _).trans (unseen before)
  next outcome stopped =>
    have rejoined : stream.read ++ stream.rest =
        (stream.read ++ stream.rest.take size) ++ stream.rest.drop size := by
      rw [List.append_assoc, List.take_append_drop]
    rw [Knows, rejoined]
    exact (decodedAtOnce_of_stop marked whole (goes.trans stopped)).symm

/-- Step lemma, of the end of a stream. -/
theorem knows_ended {seen : Utf16} {earlier : List Utf16} (inStep : stream.InStep seen earlier)
    (complete : (Decoder.ready.feed stream.read).1 = .ready) :
    (readLines stream.candidate stream.collected [stream.buf]).outcome stream.candidate =
      decodedAtOnce stream.candidate stream.read := by
  have whole := @decodedAtOnce_eq stream.candidate stream.read [] seen earlier stream.buf
    inStep.marked inStep.lines
  have alone : split newline stream.buf = [stream.buf] :=
    split_of_not_mem (not_mem_of_mem_split
      (inStep.lines ▸ List.mem_append_right _ List.mem_cons_self))
  rw [List.append_nil, complete] at whole
  have flushed : (Decoder.ready.feed []).2 ++ (Decoder.ready.feed []).1.flush = [] := rfl
  rw [whole, flushed, List.append_nil, alone, readLines_append, inStep.collected]

/-- The mark that was seen stays seen. -/
theorem bomSeen_of_step (stepped : step decoder here event = some (after, later))
    (unseen : after.bomSeen = false) : decoder.bomSeen = false := by
  rw [step.eq_def] at stepped
  split at stepped
  next =>
    obtain ⟨rfl, rfl⟩ := Prod.mk.inj (Option.some.inj stepped)
    exact unseen
  next stream size =>
    obtain ⟨rfl, rfl⟩ := Prod.mk.inj (Option.some.inj stepped)
    exact (TextDecoder.decode_bomSeen unseen).1
  next =>
    split at stepped
    next =>
      obtain ⟨rfl, rfl⟩ := Prod.mk.inj (Option.some.inj stepped)
      exact unseen
    next => contradiction
  next =>
    obtain ⟨rfl, rfl⟩ := Prod.mk.inj (Option.some.inj stepped)
    exact unseen
  next => contradiction

theorem respects : program.Respects Undisturbed (fun _ => True) Knows fun _ _ => True where
  symm := id
  guarantee := by
    intro decoder here event after later _ known undisturbed stepped
    refine ⟨trivial, ?_⟩
    change step decoder here event = some (after, later) at stepped
    rw [step.eq_def] at stepped
    split at stepped
    next candidate bytes =>
      obtain ⟨rfl, rfl⟩ := Prod.mk.inj (Option.some.inj stepped)
      exact ⟨⟨[], [], .inl rfl, rfl, rfl⟩, fun _ => rfl⟩
    next stream size =>
      have ⟨⟨seen, earlier, inStep⟩, unseen⟩ := known
      have kept := @knows_take decoder stream seen earlier size inStep unseen undisturbed
      rw [Option.some.inj stepped] at kept
      exact kept
    next stream =>
      have ⟨⟨seen, earlier, inStep⟩, _⟩ := known
      split at stepped
      next =>
        obtain ⟨rfl, rfl⟩ := Prod.mk.inj (Option.some.inj stepped)
        exact knows_ended inStep undisturbed
      next => contradiction
    next =>
      obtain ⟨rfl, rfl⟩ := Prod.mk.inj (Option.some.inj stepped)
      trivial
    next => contradiction
  rely := by
    intro decoder here event after later other _ _ known _ _ stepped
    refine ⟨?_, trivial⟩
    cases other with
    | reading stream =>
        have ⟨inStep, unseen⟩ := known
        exact ⟨inStep, fun none' => unseen (bomSeen_of_step stepped none')⟩
    | idle => trivial
    | finished candidate bytes outcome => exact known
    | broken => trivial

end Step

/-- In every interleaving in which each chunk is decoded when the decoder holds no unfinished
character but this stream's own, and no stream ends within a character, every stream that finishes
comes to what its bytes come to that are decoded all at once. -/
theorem finished_as_decodedAtOnce {Id : Type} [DecidableEq Id] {pool : Pool Id TextDecoder Local}
    (reached : Reachable (system Id) (Program.onStatement Undisturbed) pool) (id : Id)
    (candidate : Candidate) (bytes : List UInt8) (outcome : Outcome)
    (finished : pool.requests id = .finished candidate bytes outcome) :
    outcome = decodedAtOnce candidate bytes := by
  have known := Program.Respects.reachable respects (fun _ _ => ⟨trivial, trivial⟩) trivial reached
  have own := known.each id
  rw [finished] at own
  exact own

/-- An answer of one word, in two characters of which one has two bytes. -/
def answerBytes : List UInt8 :=
  (ofString "data: \x7b\"choices\":[\x7b\"delta\":\x7b\"content\":\"O").map UInt16.toUInt8 ++
    [0xC3, 0xB9] ++ (ofString "\"\x7d\x7d]\x7d\n").map UInt16.toUInt8

def openAi : Candidate where
  gemini := false
  model := ofString "gpt-4o-mini"

instance decidableUndisturbed (decoder : TextDecoder) (here : Local) (event : Event) :
    Decidable (Undisturbed decoder here event) :=
  match here, event with
  | .reading stream, .chunk _ =>
      inferInstanceAs (Decidable (decoder.within = (Decoder.ready.feed stream.read).1))
  | .reading stream, .ended =>
      inferInstanceAs (Decidable ((Decoder.ready.feed stream.read).1 = .ready))
  | .reading _, .opened _ _ | .reading _, .broke => inferInstanceAs (Decidable True)
  | .idle, _ | .finished _ _ _, _ | .broken, _ => inferInstanceAs (Decidable True)

/-- No stream has begun. -/
def begun : Pool Nat TextDecoder Local where
  shared := {}
  requests _ := .idle

/-- The request has finished with this text. -/
def Local.hasText (text : Utf16) : Local → Bool
  | .finished candidate bytes outcome =>
      decide (candidate = openAi) && decide (bytes = answerBytes) && decide (outcome.text = some text)
  | _ => false

theorem exists_finished {guard : TextDecoder → Local → Event → Prop}
    [∀ decoder here event, Decidable (guard decoder here event)] {labels : List (Nat × Event)}
    {text : Utf16} (ran : ((system Nat).exec (Program.onStatement guard) begun labels).any
      (fun pool => (pool.requests 1).hasText text) = true) :
    ∃ pool outcome, Reachable (system Nat) (Program.onStatement guard) pool ∧
      pool.requests 1 = .finished openAi answerBytes outcome ∧ outcome.text = some text := by
  obtain ⟨pool, executed, has⟩ := (Option.any_eq_true _ _).1 ran
  have reached : Reachable (system Nat) (Program.onStatement guard) pool :=
    .of_exec (.start ⟨rfl, fun _ => rfl⟩) executed
  cases finished : pool.requests 1 with
  | finished candidate bytes outcome =>
      simp only [finished, Local.hasText, Bool.and_eq_true, decide_eq_true_eq] at has
      obtain ⟨⟨rfl, rfl⟩, same⟩ := has
      exact ⟨pool, outcome, reached, finished, same⟩
  | _ =>
      rw [finished] at has
      contradiction

/-- Two streams, one of them cut within a character. -/
theorem finished_as_decodedAtOnce_two : ∃ pool outcome,
    Reachable (system Nat) (Program.onStatement Undisturbed) pool ∧
      pool.requests 1 = .finished openAi answerBytes outcome ∧
      outcome.text = some (ofString "Où") ∧ outcome = decodedAtOnce openAi answerBytes := by
  have ⟨pool, outcome, reached, finished, text⟩ := @exists_finished Undisturbed _
    [(0, .opened openAi answerBytes), (1, .opened openAi answerBytes), (0, .chunk 9),
      (1, .chunk 41), (1, .chunk 20), (0, .chunk 60), (1, .ended)] (ofString "Où") (by decide +kernel)
  exact ⟨pool, outcome, reached, finished, text,
    finished_as_decodedAtOnce reached 1 openAi answerBytes outcome finished⟩

/-- A stream that is cut within a character costs another stream its first line. -/
theorem not_finished_as_decodedAtOnce : ¬ ∀ (pool : Pool Nat TextDecoder Local) (id : Nat)
    (candidate : Candidate) (bytes : List UInt8) (outcome : Outcome),
    Reachable (system Nat) always pool →
    pool.requests id = .finished candidate bytes outcome →
    outcome.text = (decodedAtOnce candidate bytes).text := by
  intro claim
  have ⟨pool, outcome, reached, finished, text⟩ := @exists_finished (fun _ _ _ => True) _
    [(0, .opened openAi answerBytes), (1, .opened openAi answerBytes), (0, .chunk 41),
      (1, .chunk 60), (1, .ended)] [] (by decide +kernel)
  have same := claim pool 1 openAi answerBytes outcome (reached.mono fun _ _ _ => trivial) finished
  rw [text] at same
  exact absurd same (by decide +kernel)

end Chat

end TitanRunner
