import TitanRunner.Lib.JsonText
import TitanRunner.Worker.ChatThreads

/-!
# A chat turn

`listChatCandidates` and `runInstantChat` of `worker/src/chat.js`: the providers are asked one after
another until one answers, and the exchange is saved.
-/

namespace TitanRunner

namespace InstantChat

open Utf16 ChatThreads

/-! ## The providers -/

/-- The providers of the catalog that can chat, in its order. -/
def catalogOrder : List Utf16 :=
  ["groq", "together", "openrouter", "gemini", "huggingface", "custom_1", "custom_2",
    "custom_3"].map ofString

/-- A provider that can be asked. -/
structure Candidate where
  id : Utf16
  model : Utf16
  /-- `encodeURIComponent` can write the model into a path that holds one. -/
  builds : Bool
  deriving DecidableEq, Repr

/-- What `listChatCandidates` finds. -/
structure Settings where
  /-- `vaultReady(env)` -/
  vaultReady : Bool
  /-- The providers with a key that is marked for chat; `none` if they cannot be read. -/
  enabled : Option (List Utf16)
  /-- `chat.providerOrder`; `none` if it is not set or cannot be read. -/
  customOrder : Option Utf16
  /-- The model of a provider that is looked at in this place, and whether a request can be built
  with it; `none` without a key or a base URL. -/
  settled : Nat → Utf16 → Option (Utf16 × Bool)

/-- The order of the providers, before anyone is preferred. -/
def customized (raw : Option Utf16) : List Utf16 :=
  match (raw.bind Json.parse).bind Json.array? with
  | none => catalogOrder
  | some parsed =>
      let valid := (parsed.filterMap Json.string?).filter fun id => id ∈ catalogOrder
      valid ++ catalogOrder.filter fun id => id ∉ valid

/-- `order` of `listChatCandidates`. -/
def providerOrder (raw preferredProvider : Option Utf16) : List Utf16 :=
  let order := customized raw
  match preferredProvider.filter fun id => id ∈ order with
  | none => order
  | some preferred => preferred :: order.filter fun id => id ≠ preferred

/-- What the loop of `listChatCandidates` makes of a provider in this place of the order. -/
def Settings.candidate (settings : Settings) (enabled : List Utf16) (entry : Utf16 × Nat) :
    Option Candidate :=
  if entry.1 ∈ enabled then
    (settings.settled entry.2 entry.1).map fun (model, builds) => { id := entry.1, model, builds }
  else none

/-- `listChatCandidates`; `none` if it throws. -/
def listChatCandidates (settings : Settings) (preferredProvider : Option Utf16) :
    Option (List Candidate) :=
  if !settings.vaultReady then some []
  else
    settings.enabled.map fun enabled =>
      if enabled.isEmpty then []
      else
        (providerOrder settings.customOrder preferredProvider).zipIdx.filterMap
          (settings.candidate enabled)

/-! ## The turn -/

/-- What comes of a request. -/
inductive Reply where
  /-- Sending the request or reading the answer throws. -/
  | rejected
  | status (code : Nat)
  | body (text : Utf16) (tokensUsed : Option Int)

structure Request where
  settings : Settings
  prompt : Utf16
  threadId : Option Utf16 := none
  provider : Option Utf16 := none
  /-- The messages of the thread cannot be selected. -/
  historyFails : Bool := false

/-- A call of a provider. -/
structure Call where
  provider : Utf16
  answered : Bool
  deriving DecidableEq, Repr

inductive Outcome where
  | answered (saved : Saved) (text provider model : Utf16) (tokensUsed : Option Int)
  | noChatKey
  | allFailed
  | threw
  deriving DecidableEq, Repr

/-- What a turn did. -/
structure Course where
  calls : List Call := []
  db : Db
  outcome : Outcome

def Course.after (course : Course) (call : Call) : Course :=
  { course with calls := call :: course.calls }

/-- `replace(/\\s+/g, ' ')` -/
def oneSpace : Utf16 → Utf16
  | [] => []
  | unit :: rest =>
      if isSpaceUnit unit then
        match oneSpace rest with
        | 0x20 :: more => 0x20 :: more
        | more => 0x20 :: more
      else unit :: oneSpace rest

def titleOf (prompt : Utf16) : Utf16 :=
  let title := (Utf16.trim (oneSpace prompt)).take 60
  if title.isEmpty then ofString "Chat" else title

section Turn

variable (request : Request) (reply : Nat → Reply) (draw : Nat → Draw)

def exchange (candidate : Candidate) (text : Utf16) (tokensUsed : Option Int) : Exchange where
  threadId := request.threadId
  title := titleOf request.prompt
  userText := request.prompt
  assistantText := text
  provider := candidate.id
  model := candidate.model
  tokensUsed := tokensUsed

/-- The loop of `runInstantChat`, from the candidate of this number on. -/
def tryCandidates : List Candidate → Nat → Db → Course
  | [], _, db => { db, outcome := .allFailed }
  | candidate :: rest, number, db =>
      if !candidate.builds then { db, outcome := .threw }
      else
        match reply number with
        | .rejected | .status _ =>
            (tryCandidates rest (number + 1) db).after ⟨candidate.id, false⟩
        | .body text tokensUsed =>
            if (Utf16.trim text).isEmpty then
              (tryCandidates rest (number + 1) db).after ⟨candidate.id, false⟩
            else
              match saveExchange (exchange request candidate text tokensUsed) (draw number) db with
              | (db, none) => (tryCandidates rest (number + 1) db).after ⟨candidate.id, true⟩
              | (db, some saved) =>
                  { calls := [⟨candidate.id, true⟩]
                    db
                    outcome := .answered saved text candidate.id candidate.model tokensUsed }

/-- `runInstantChat` -/
def runInstantChat (db : Db) : Course :=
  match listChatCandidates request.settings request.provider with
  | none => { db, outcome := .threw }
  | some [] => { db, outcome := .noChatKey }
  | some candidates =>
      if (request.threadId.any fun id => !id.isEmpty) && request.historyFails then
        { db, outcome := .threw }
      else tryCandidates request reply draw candidates 0 db

end Turn

/-! ## What is promised -/

/-- Questions and answers take turns. -/
def alternates : List Role → Bool
  | [] => true
  | .user :: .assistant :: rest => alternates rest
  | _ => false

/-- Every thread is a sequence of exchanges. -/
def Db.Alternates (db : Db) : Prop :=
  ∀ threadId, alternates ((stored db threadId).map Message.role) = true

/-- The messages of an exchange. -/
structure IsExchange (prompt : Utf16) (question answer : Message) : Prop where
  asks : question.role = .user ∧ question.content = prompt
  answers : answer.role = .assistant
  together : question.threadId = answer.threadId

/-- Each provider is called once at most, none after one that answers, and of the exchange all is
stored or nothing. -/
structure AnsweredOnce (request : Request) (before : Db) (course : Course) : Prop where
  once : (course.calls.map Call.provider).Nodup
  last : ∀ front call back, course.calls = front ++ call :: back → call.answered = true → back = []
  whole : course.db.messages = before.messages ∨ ∃ question answer,
    IsExchange request.prompt question answer ∧
      course.db.messages = before.messages ++ [question, answer]
  alternates : Db.Alternates course.db

/-! ## When it is kept -/

/-- The reply is an answer. -/
def Reply.answers : Reply → Bool
  | .rejected | .status _ => false
  | .body text _ => !(Utf16.trim text).isEmpty

section Condition

variable (reply : Nat → Reply)

/-- The providers that are asked up to the first that answers. -/
def asked : List Candidate → Nat → List Utf16
  | [], _ => []
  | candidate :: rest, number =>
      if !candidate.builds then []
      else if (reply number).answers then [candidate.id]
      else candidate.id :: asked rest (number + 1)

/-- The number of the first that answers, and the candidates after it. -/
def answering : List Candidate → Nat → Option (Nat × List Candidate)
  | [], _ => none
  | candidate :: rest, number =>
      if !candidate.builds then none
      else if (reply number).answers then some (number, rest)
      else answering rest (number + 1)

end Condition

/-- The candidates of a turn that gets as far as asking one. -/
def Request.candidates (request : Request) : List Candidate :=
  if (request.threadId.any fun id => !id.isEmpty) && request.historyFails then []
  else (listChatCandidates request.settings request.provider).getD []

/-- No provider comes up again before one answers; and where one does, its exchange is saved, or
nothing of it is and no other provider can be asked. -/
structure Undisturbed (request : Request) (reply : Nat → Reply) (draw : Nat → Draw) (db : Db) :
    Prop where
  once : (asked reply request.candidates 0).Nodup
  saves : ∀ number rest, answering reply request.candidates 0 = some (number, rest) →
    (draw number).failsAt db = none ∨
      (draw number).failsAt db ≠ some .assistant ∧ ∀ next ∈ rest.head?, next.builds = false
  alternates : Db.Alternates db

/-! ## The loop -/

/-- A call without an answer. -/
def Call.silent (provider : Utf16) : Call := ⟨provider, false⟩

def Call.spoken (provider : Utf16) : Call := ⟨provider, true⟩

/-- No call follows the one that is answered, where that is the last. -/
theorem last_spoken_iff {front : List Utf16} {last : Utf16} {later : List Call} :
    (∀ before call back, front.map Call.silent ++ Call.spoken last :: later =
      before ++ call :: back → call.answered = true → back = []) ↔ later = [] := by
  constructor
  · exact fun final => final _ _ _ rfl rfl
  · rintro rfl before call back same answered
    cases List.eq_nil_or_concat back with
    | inl none' => exact none'
    | inr more =>
        obtain ⟨back', other, rfl⟩ := more
        rw [List.concat_eq_append, ← List.cons_append, ← List.append_assoc] at same
        have inside : call ∈ front.map Call.silent := by
          rw [(List.append_inj' same rfl).1]
          simp
        obtain ⟨_, _, rfl⟩ := List.mem_map.1 inside
        cases answered

section Turn

variable {request : Request} {reply : Nat → Reply} {draw : Nat → Draw}

/-- A provider that does not answer is passed over. -/
theorem tryCandidates_pass {candidate : Candidate} {number : Nat} (rest : List Candidate) (db : Db)
    (builds : candidate.builds = true) (silent : (reply number).answers = false) :
    tryCandidates request reply draw (candidate :: rest) number db =
      (tryCandidates request reply draw rest (number + 1) db).after ⟨candidate.id, false⟩ := by
  rw [tryCandidates, builds]
  cases given : reply number with
  | rejected | status => rfl
  | body text tokensUsed =>
      have blank : (Utf16.trim text).isEmpty = true := by simpa [given, Reply.answers] using silent
      simp [blank]

/-- Without an answer the tables stay as they are. -/
theorem tryCandidates_unanswered {candidates : List Candidate} {number : Nat} (db : Db)
    (none' : answering reply candidates number = none) :
    (tryCandidates request reply draw candidates number db).calls =
        (asked reply candidates number).map Call.silent ∧
      (tryCandidates request reply draw candidates number db).db = db := by
  induction candidates generalizing number with
  | nil => exact ⟨rfl, rfl⟩
  | cons candidate rest ih =>
      rw [answering] at none'
      split at none'
      next blocked => rw [tryCandidates, asked, if_pos blocked, if_pos blocked]; exact ⟨rfl, rfl⟩
      next builds =>
        split at none'
        next => contradiction
        next silent =>
          obtain ⟨calls, same⟩ := ih none'
          rw [tryCandidates_pass rest db (by simpa using builds) (by simpa using silent), asked,
            if_neg builds, if_neg silent, Course.after, calls]
          exact ⟨rfl, same⟩

/-- Where one answers, what follows depends on whether the exchange is saved. -/
theorem tryCandidates_answered {candidates rest : List Candidate} {number found : Nat} (db : Db)
    (answered : answering reply candidates number = some (found, rest)) :
    ∃ front last exchange, asked reply candidates number = front ++ [last] ∧
      exchange.userText = request.prompt ∧
      let saved := saveExchange exchange (draw found) db
      let later := tryCandidates request reply draw rest (found + 1) saved.1
      let course := tryCandidates request reply draw candidates number db
      (saved.2 ≠ none → course.calls = front.map Call.silent ++ [Call.spoken last] ∧
        course.db = saved.1) ∧
      (saved.2 = none → course.calls = front.map Call.silent ++ Call.spoken last :: later.calls ∧
        course.db = later.db) := by
  induction candidates generalizing number with
  | nil => contradiction
  | cons candidate more ih =>
      rw [answering] at answered
      split at answered
      next => contradiction
      next builds =>
        split at answered
        next answers =>
          cases answered
          cases given : reply found with
          | rejected | status => simp [given, Reply.answers] at answers
          | body text tokensUsed =>
              have solid : (Utf16.trim text).isEmpty = false := by
                simpa [given, Reply.answers] using answers
              refine ⟨[], candidate.id, exchange request candidate text tokensUsed, ?_, rfl, ?_⟩
              · rw [asked, if_neg builds, if_pos answers]
                rfl
              · rw [tryCandidates, if_neg builds, given]
                dsimp only
                rw [if_neg (by simp [solid])]
                cases ran : saveExchange (exchange request candidate text tokensUsed)
                    (draw found) db with
                | mk after saved =>
                    cases saved with
                    | none => exact ⟨fun other => absurd rfl other, fun _ => ⟨rfl, rfl⟩⟩
                    | some saved => exact ⟨fun _ => ⟨rfl, rfl⟩, fun none' => nomatch none'⟩
        next silent =>
          obtain ⟨front, last, exchange, split, prompt, saves, fails⟩ := ih answered
          refine ⟨candidate.id :: front, last, exchange, ?_, prompt, ?_⟩
          · rw [asked, if_neg builds, if_neg silent, split, List.cons_append]
          · rw [tryCandidates_pass more db (by simpa using builds) (by simpa using silent)]
            dsimp only [Course.after]
            refine ⟨fun saved => ?_, fun none' => ?_⟩
            · obtain ⟨calls, same⟩ := saves saved
              rw [calls, List.map_cons, List.cons_append]
              exact ⟨rfl, same⟩
            · obtain ⟨calls, same⟩ := fails none'
              rw [calls, List.map_cons, List.cons_append]
              exact ⟨rfl, same⟩

/-- No call is made only where no request can be built, and then the tables stay as they are. -/
theorem calls_nil_iff {candidates : List Candidate} {number : Nat} {db : Db} :
    ((tryCandidates request reply draw candidates number db).calls = [] ↔
      ∀ next ∈ candidates.head?, next.builds = false) ∧
    ((tryCandidates request reply draw candidates number db).calls = [] →
      (tryCandidates request reply draw candidates number db).db = db) := by
  cases candidates with
  | nil => simp [tryCandidates]
  | cons candidate rest =>
      cases builds : candidate.builds with
      | false => simp [tryCandidates, builds]
      | true =>
          have called :
              (tryCandidates request reply draw (candidate :: rest) number db).calls ≠ [] := by
            cases answers : (reply number).answers with
            | false =>
                rw [tryCandidates_pass rest db builds answers]
                exact List.cons_ne_nil _ _
            | true =>
                have found : answering reply (candidate :: rest) number = some (number, rest) := by
                  simp [answering, builds, answers]
                obtain ⟨front, last, exchange, _, _, saves, fails⟩ :=
                  @tryCandidates_answered request reply draw _ _ _ _ db found
                by_cases saved : (saveExchange exchange (draw number) db).2 = none
                · rw [(fails saved).1]
                  simp
                · rw [(saves saved).1]
                  simp
          simp [called, builds]

/-- A turn is the loop over the candidates it gets to. -/
theorem runInstantChat_eq (db : Db) :
    (runInstantChat request reply draw db).calls =
        (tryCandidates request reply draw request.candidates 0 db).calls ∧
      (runInstantChat request reply draw db).db =
        (tryCandidates request reply draw request.candidates 0 db).db := by
  rw [runInstantChat, Request.candidates]
  cases listChatCandidates request.settings request.provider with
  | none => simp [tryCandidates]
  | some candidates =>
      cases candidates with
      | nil => simp [tryCandidates]
      | cons candidate rest =>
          dsimp only [Option.getD_some]
          split
          next => exact ⟨rfl, rfl⟩
          next => exact ⟨rfl, rfl⟩

end Turn

theorem AnsweredOnce.congr {request : Request} {before : Db} {course other : Course}
    (kept : AnsweredOnce request before course) (calls : other.calls = course.calls)
    (same : other.db = course.db) : AnsweredOnce request before other where
  once := calls ▸ kept.once
  last := calls ▸ kept.last
  whole := same ▸ kept.whole
  alternates := same ▸ kept.alternates

/-! ## Threads -/

theorem alternates_exchange (roles : List Role) :
    alternates (roles ++ [.user, .assistant]) = alternates roles := by
  fun_induction alternates roles with
  | case1 => rfl
  | case2 rest ih => exact ih
  | case3 roles noneLeft noExchange =>
      cases roles with
      | nil => exact absurd rfl noneLeft
      | cons first rest =>
          cases rest with
          | nil => cases first <;> rfl
          | cons second rest =>
              cases first with
              | system | assistant => rfl
              | user =>
                  cases second with
                  | system | user => rfl
                  | assistant => exact (noExchange rest rfl).elim

/-- A whole exchange leaves every thread a sequence of exchanges, if it was one. -/
theorem alternates_iff {before after : Db} {exchange : Exchange} {draw : Draw}
    (whole : after.messages =
      before.messages ++ [exchange.question draw, exchange.answer draw]) :
    Db.Alternates after ↔ Db.Alternates before := by
  refine forall_congr' fun threadId => ?_
  by_cases here : exchange.thread draw = threadId
  · have roles : (stored after threadId).map Message.role =
        (stored before threadId).map Message.role ++ [.user, .assistant] := by
      simp [stored, whole, Exchange.question, Exchange.answer, here]
    rw [roles, alternates_exchange]
  · have same : stored after threadId = stored before threadId := by
      simp [stored, whole, Exchange.question, Exchange.answer, here]
    rw [same]

theorem alternates_congr {before after : Db} (same : after.messages = before.messages) :
    Db.Alternates after ↔ Db.Alternates before := by
  simp only [Db.Alternates, stored, same]

/-! ## The turn as a whole -/

section Turn

variable {request : Request} {reply : Nat → Reply} {draw : Nat → Draw} {db : Db}

theorem tryCandidates_once_iff :
    AnsweredOnce request db (tryCandidates request reply draw request.candidates 0 db) ↔
      Undisturbed request reply draw db := by
  cases found : answering reply request.candidates 0 with
  | none =>
      obtain ⟨calls, same⟩ := @tryCandidates_unanswered request reply draw _ _ db found
      have names : (tryCandidates request reply draw request.candidates 0 db).calls.map
          Call.provider = asked reply request.candidates 0 := by
        rw [calls, List.map_map]
        exact List.map_id _
      have messages := congrArg Db.messages same
      constructor
      · intro kept
        exact ⟨names ▸ kept.once, fun number rest other => (nomatch found.symm.trans other),
          (alternates_congr messages).1 kept.alternates⟩
      · intro fine
        refine ⟨names ▸ fine.once, ?_, .inl messages, (alternates_congr messages).2 fine.alternates⟩
        intro front call back split answered
        have inside : call ∈ (asked reply request.candidates 0).map Call.silent := by
          rw [← calls, split]
          simp
        obtain ⟨_, _, rfl⟩ := List.mem_map.1 inside
        cases answered
  | some answer =>
      obtain ⟨number, rest⟩ := answer
      obtain ⟨front, last, exchange, split, prompt, saves, fails⟩ :=
        @tryCandidates_answered request reply draw _ _ _ _ db found
      obtain ⟨throws, leaves⟩ := saveExchange_spec exchange (draw number) db
      have names (later : List Call) :
          (front.map Call.silent ++ Call.spoken last :: later).map Call.provider =
            asked reply request.candidates 0 ++ later.map Call.provider := by
        rw [split, List.map_append, List.map_cons, List.map_map, List.append_assoc]
        congr 1
        exact List.map_id _
      cases failing : (draw number).failsAt db with
      | none =>
          obtain ⟨calls, same⟩ := saves (by simp [throws, failing])
          rw [Draw.leaves, failing, ← same] at leaves
          dsimp only at leaves
          have once := names []
          rw [← calls, List.map_nil, List.append_nil] at once
          constructor
          · intro kept
            refine ⟨once ▸ kept.once, fun number' rest' other => ?_,
              (alternates_iff leaves).1 kept.alternates⟩
            cases found.symm.trans other
            exact .inl failing
          · intro fine
            exact ⟨once ▸ fine.once, calls ▸ last_spoken_iff.2 rfl,
              .inr ⟨exchange.question (draw number), exchange.answer (draw number),
                ⟨⟨rfl, prompt⟩, rfl, rfl⟩, leaves⟩,
              (alternates_iff leaves).2 fine.alternates⟩
      | some statement =>
          obtain ⟨calls, same⟩ := fails (by simp [throws, failing])
          obtain ⟨silent, frame⟩ := @calls_nil_iff request reply draw rest (number + 1)
            (saveExchange exchange (draw number) db).1
          have once := names (tryCandidates request reply draw rest (number + 1)
            (saveExchange exchange (draw number) db).1).calls
          rw [← calls] at once
          constructor
          · intro kept
            have ended := last_spoken_iff.1 (calls ▸ kept.last)
            rw [ended, List.map_nil, List.append_nil] at once
            rw [frame ended] at same
            rw [← same, Draw.leaves, failing] at leaves
            have kind : statement ≠ .assistant := by
              rintro rfl
              cases kept.whole with
              | inl none' => simp [none'] at leaves
              | inr both =>
                  obtain ⟨_, _, _, whole⟩ := both
                  simp [whole] at leaves
            have messages : (tryCandidates request reply draw request.candidates 0 db).db.messages =
                db.messages := by
              cases statement with
              | thread | user => exact leaves
              | assistant => exact absurd rfl kind
            refine ⟨once ▸ kept.once, fun number' rest' other => ?_,
              (alternates_congr messages).1 kept.alternates⟩
            cases found.symm.trans other
            rw [failing, ne_eq, Option.some.injEq]
            exact .inr ⟨kind, silent.1 ended⟩
          · intro fine
            have kept := fine.saves number rest found
            rw [failing, ne_eq, Option.some.injEq, or_iff_right (by simp)] at kept
            have ended := silent.2 kept.2
            rw [ended, List.map_nil, List.append_nil] at once
            rw [frame ended] at same
            have messages : (tryCandidates request reply draw request.candidates 0 db).db.messages =
                db.messages := by
              rw [same, leaves, Draw.leaves, failing]
              cases statement with
              | thread | user => rfl
              | assistant => exact absurd rfl kept.1
            exact ⟨once ▸ fine.once, calls ▸ last_spoken_iff.2 ended, .inl messages,
              (alternates_congr messages).2 fine.alternates⟩

end Turn

/-- A turn is answered once and stored whole exactly where it is undisturbed: an order that names a
provider twice has it called twice, and an exchange that cannot be saved is asked for again. -/
theorem answered_once_iff (request : Request) (reply : Nat → Reply) (draw : Nat → Draw) (db : Db) :
    AnsweredOnce request db (runInstantChat request reply draw db) ↔
      Undisturbed request reply draw db := by
  obtain ⟨calls, same⟩ := @runInstantChat_eq request reply draw db
  rw [← tryCandidates_once_iff]
  exact ⟨fun kept => kept.congr calls.symm same.symm, fun kept => kept.congr calls same⟩

/-! ## The order -/

section Example

/-- Groq and Gemini have keys for chat. -/
def settings (customOrder : Option Utf16) : Settings where
  vaultReady := true
  enabled := some [ofString "groq", ofString "gemini"]
  customOrder := customOrder
  settled _ _ := some (ofString "auto", true)

/-- The order names one provider twice. -/
def twice : Request where
  settings := settings (some (ofString "[\"groq\",\"groq\"]"))
  prompt := ofString "Hello"

/-- The answer cannot be stored. -/
def unstored : Nat → Draw := fun number => {
  threadId := ofString "th"
  userMsgId := ofNat (2 * number)
  asstMsgId := ofNat (2 * number + 1)
  now := 0
  later := 0
  failing := some .assistant }

theorem not_answered_once :
    ¬ (∀ request reply draw db, Db.Alternates db →
      ((runInstantChat request reply draw db).calls.map Call.provider).Nodup) ∧
    ¬ ∀ request reply draw db, Db.Alternates db →
      Db.Alternates (runInstantChat request reply draw db).db := by
  have empty : Db.Alternates {} := fun _ => rfl
  constructor
  · intro once
    have twice := once twice (fun _ => .rejected) unstored {} empty
    revert twice
    decide
  · intro kept
    have threads := kept { settings := settings none, prompt := ofString "Hello" }
      (fun _ => .body (ofString "Hi") none) unstored {} empty (ofString "th")
    revert threads
    decide

end Example

end InstantChat

end TitanRunner
