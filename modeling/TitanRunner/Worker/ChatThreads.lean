import TitanRunner.Lib.KeyedList
import TitanRunner.Lib.StableSort
import TitanRunner.Lib.Utf16

/-!
# Chat threads

The tables `chat_threads` and `chat_messages` of `worker/src/chat.js`: how an exchange is saved, and
what a later turn is told of a thread.
-/

namespace TitanRunner

namespace ChatThreads

open Utf16

/-! ## The tables -/

inductive Role where
  | system | user | assistant
  deriving DecidableEq, Repr

/-- A row of `chat_messages`.  The time is the instant its text stands for. -/
structure Message where
  id : Utf16
  threadId : Utf16
  role : Role
  content : Utf16
  provider : Option Utf16 := none
  model : Option Utf16 := none
  tokensUsed : Option Int := none
  at' : Nat
  deriving DecidableEq, Repr

/-- A row of `chat_threads`. -/
structure Thread where
  id : Utf16
  title : Utf16
  provider : Utf16
  model : Utf16
  createdAt : Nat
  updatedAt : Nat
  deriving DecidableEq, Repr

/-- Both tables, each in the order its rows were inserted in. -/
structure Db where
  threads : List Thread := []
  messages : List Message := []
  /-- `id TEXT PRIMARY KEY` -/
  distinct : (messages.map Message.id).Nodup := by simp

/-- `INSERT INTO chat_threads … ON CONFLICT(id) DO UPDATE` -/
def Db.upsert (db : Db) (thread : Thread) : Db :=
  { db with
    threads :=
      match KeyedList.get Thread.id db.threads thread.id with
      | none => db.threads ++ [thread]
      | some old =>
          KeyedList.set Thread.id db.threads
            { old with
              provider := thread.provider
              model := thread.model
              updatedAt := thread.updatedAt } }

@[simp] theorem Db.messages_upsert (db : Db) (thread : Thread) :
    (db.upsert thread).messages = db.messages := rfl

/-- `INSERT INTO chat_messages`, which fails if the id is taken. -/
def Db.insert (db : Db) (message : Message) : Option Db :=
  if fresh : message.id ∉ db.messages.map Message.id then
    some {
      threads := db.threads
      messages := db.messages ++ [message]
      distinct := by
        rw [List.map_append]
        apply db.distinct.append (List.nodup_singleton _)
        simpa using fresh }
  else none

theorem Db.insert_of_fresh {db : Db} {message : Message}
    (fresh : message.id ∉ db.messages.map Message.id) :
    ∃ after, db.insert message = some after ∧ after.messages = db.messages ++ [message] :=
  ⟨_, dif_pos fresh, rfl⟩

/-! ## Saving -/

/-- What `saveExchange` is called with; no thread is an empty one, too. -/
structure Exchange where
  threadId : Option Utf16
  title : Utf16
  userText : Utf16
  assistantText : Utf16
  provider : Utf16
  model : Utf16
  tokensUsed : Option Int

/-- The statements of `saveExchange`. -/
inductive Statement where
  | thread | user | assistant
  deriving DecidableEq, Repr

/-- What a call of `saveExchange` draws from outside: the random ids, the clock when it begins and
when it is about to insert the answer, and the statement that fails, if one does. -/
structure Draw where
  threadId : Utf16
  userMsgId : Utf16
  asstMsgId : Utf16
  now : Nat
  later : Nat
  failing : Option Statement := none

structure Saved where
  threadId : Utf16
  messageId : Utf16
  deriving DecidableEq, Repr

/-- `threadId || …` -/
def Exchange.thread (exchange : Exchange) (draw : Draw) : Utf16 :=
  (exchange.threadId.filter fun id => !id.isEmpty).getD draw.threadId

def Exchange.question (exchange : Exchange) (draw : Draw) : Message where
  id := draw.userMsgId
  threadId := exchange.thread draw
  role := .user
  content := exchange.userText
  at' := draw.now

def Exchange.answer (exchange : Exchange) (draw : Draw) : Message where
  id := draw.asstMsgId
  threadId := exchange.thread draw
  role := .assistant
  content := exchange.assistantText
  provider := some exchange.provider
  model := some exchange.model
  tokensUsed := exchange.tokensUsed
  at' := draw.later + 1

/-- A statement, unless it is the one that fails. -/
def Draw.runs (draw : Draw) (statement : Statement) (made : Option Db) : Option Db :=
  if draw.failing = some statement then none else made

/-- `saveExchange`: the tables afterwards, and what it resolves to unless it throws. -/
def saveExchange (exchange : Exchange) (draw : Draw) (db : Db) : Db × Option Saved :=
  let tid := exchange.thread draw
  let row : Thread := {
    id := tid
    title := exchange.title
    provider := exchange.provider
    model := exchange.model
    createdAt := draw.now
    updatedAt := draw.now }
  match draw.runs .thread (some (db.upsert row)) with
  | none => (db, none)
  | some db =>
      match draw.runs .user (db.insert (exchange.question draw)) with
      | none => (db, none)
      | some db =>
          match draw.runs .assistant (db.insert (exchange.answer draw)) with
          | none => (db, none)
          | some db => (db, some { threadId := tid, messageId := draw.asstMsgId })

/-! ## Reading -/

/-- The messages of a thread as they were stored. -/
def stored (db : Db) (threadId : Utf16) : List Message :=
  db.messages.filter fun message => message.threadId = threadId

/-- The messages of a thread, `ORDER BY at ASC`.  Those of one instant stand as the index of the
table keeps them, the one inserted first before the other. -/
def thread (db : Db) (threadId : Utf16) : List Message :=
  (stored db threadId).insertionSort fun message other => message.at' ≤ other.at'

/-- `LIMIT 20` -/
def historyLimit : Nat := 20

/-- The rows that are selected for a turn: none without a thread. -/
def historyRows (db : Db) (threadId : Option Utf16) : List Message :=
  match threadId.filter fun id => !id.isEmpty with
  | none => []
  | some threadId => (thread db threadId).take historyLimit

/-- A message as a provider is sent it. -/
structure Turn where
  role : Role
  content : Utf16
  deriving DecidableEq, Repr

def Message.turn (message : Message) : Turn := ⟨message.role, message.content⟩

/-- `history` of `runInstantChat`. -/
def instantHistory (db : Db) (threadId system : Option Utf16) (prompt : Utf16) : List Turn :=
  ((system.filter fun text => !text.isEmpty).map fun text => (⟨.system, text⟩ : Turn)).toList ++
    (historyRows db threadId).map Message.turn ++ [⟨.user, prompt⟩]

/-- `history` of `handleChat`. -/
def streamedHistory (db : Db) (threadId : Option Utf16) (prompt : Utf16) : List Turn :=
  (historyRows db threadId).map Message.turn ++ [⟨.user, prompt⟩]

/-! ## What a turn sees -/

/-- Of the messages of a thread a turn is sent the last ones, as many as it may be. -/
structure SeesRecent (db : Db) (threadId : Utf16) (rows : List Message) (before sent : List Turn)
    (prompt : Utf16) : Prop where
  suffix : rows <:+ thread db threadId
  longest : rows.length = min historyLimit (thread db threadId).length
  sent : sent = before ++ rows.map Message.turn ++ [⟨.user, prompt⟩]

/-- The front of a list without repetition is its end only where it is all of it. -/
theorem take_suffix_iff {α : Type} {items : List α} (distinct : items.Nodup) {most : Nat}
    (some' : 0 < most) : items.take most <:+ items ↔ items.length ≤ most := by
  constructor
  · rintro ⟨front, split⟩
    by_contra long
    have lengths := congrArg List.length split
    rw [List.length_append, List.length_take] at lengths
    have start : 0 < items.length := by omega
    have middle : front.length < items.length := by omega
    have first : items[0] = items[front.length] := by
      have within : front.length < (front ++ items.take most).length := by
        rw [List.length_append, List.length_take]
        omega
      have there : (front ++ items.take most)[front.length] = items[0] := by
        rw [List.getElem_append_right (Nat.le_refl _)]
        simp
      rw [← there]
      congr 1
    have same := (distinct.getElem_inj_iff).1 first
    omega
  · intro short
    rw [List.take_of_length_le short]

theorem distinct_thread (db : Db) (threadId : Utf16) : (thread db threadId).Nodup := by
  have messages : db.messages.Nodup := List.Nodup.of_map _ db.distinct
  exact (List.perm_insertionSort _ _).nodup_iff.2 (messages.filter _)

/-- A turn sees the end of the conversation, streamed or not, exactly as long as the thread is no
longer than what a turn may be sent: of a longer one it is sent the beginning. -/
theorem sees_recent_iff (db : Db) {threadId : Utf16} (named : threadId ≠ [])
    (system : Option Utf16) (prompt : Utf16) :
    SeesRecent db threadId (historyRows db (some threadId))
        ((system.filter fun text => !text.isEmpty).map fun text => (⟨.system, text⟩ : Turn)).toList
        (instantHistory db (some threadId) system prompt) prompt ∧
      SeesRecent db threadId (historyRows db (some threadId)) []
        (streamedHistory db (some threadId) prompt) prompt ↔
      (thread db threadId).length ≤ historyLimit := by
  have rows : historyRows db (some threadId) = (thread db threadId).take historyLimit := by
    rw [historyRows, Option.filter_some, if_pos (by simpa using named)]
  have suffix := take_suffix_iff (distinct_thread db threadId) (show 0 < historyLimit by decide)
  rw [← suffix]
  constructor
  · rintro ⟨instant, _⟩
    exact rows ▸ instant.suffix
  · intro ends
    have longest : ((thread db threadId).take historyLimit).length =
        min historyLimit (thread db threadId).length := List.length_take
    exact ⟨⟨rows ▸ ends, rows ▸ longest, rfl⟩, ⟨rows ▸ ends, rows ▸ longest, rfl⟩⟩

/-! ## Exchanges that were saved -/

section Saved

variable {db after : Db} {exchange : Exchange} {draw : Draw} {saved : Saved}

theorem Draw.runs_eq_some {statement : Statement} {made : Option Db} :
    draw.runs statement made = some after ↔ draw.failing ≠ some statement ∧ made = some after := by
  rw [Draw.runs]
  split
  next fails => simp [fails]
  next runs => simp [runs]

/-- The statement of a save that fails first, be it that an id is taken. -/
def Draw.failsAt (draw : Draw) (db : Db) : Option Statement :=
  if draw.failing = some .thread then some .thread
  else if draw.failing = some .user ∨ draw.userMsgId ∈ db.messages.map Message.id then some .user
  else if draw.failing = some .assistant ∨ draw.asstMsgId ∈ db.messages.map Message.id ∨
      draw.asstMsgId = draw.userMsgId then some .assistant
  else none

/-- The messages a save leaves. -/
def Draw.leaves (draw : Draw) (exchange : Exchange) (db : Db) : List Message :=
  match draw.failsAt db with
  | some .thread | some .user => db.messages
  | some .assistant => db.messages ++ [exchange.question draw]
  | none => db.messages ++ [exchange.question draw, exchange.answer draw]

/-- A message is inserted unless the statement fails, or the id is taken. -/
theorem Draw.insert_cases (draw : Draw) (statement : Statement) (db : Db) (message : Message) :
    (draw.failing = some statement ∨ message.id ∈ db.messages.map Message.id) ∧
        draw.runs statement (db.insert message) = none ∨
      ¬ (draw.failing = some statement ∨ message.id ∈ db.messages.map Message.id) ∧
        ∃ after, draw.runs statement (db.insert message) = some after ∧
          after.messages = db.messages ++ [message] := by
  by_cases fails : draw.failing = some statement
  · exact .inl ⟨.inl fails, if_pos fails⟩
  · rw [Draw.runs, if_neg fails]
    by_cases taken : message.id ∈ db.messages.map Message.id
    · exact .inl ⟨.inr taken, dif_neg (not_not.2 taken)⟩
    · exact .inr ⟨not_or.2 ⟨fails, taken⟩, Db.insert_of_fresh taken⟩

/-- A save throws exactly where a statement fails, and leaves what the statements before it made. -/
theorem saveExchange_spec (exchange : Exchange) (draw : Draw) (db : Db) :
    ((saveExchange exchange draw db).2 = none ↔ draw.failsAt db ≠ none) ∧
      (saveExchange exchange draw db).1.messages = draw.leaves exchange db := by
  rw [Draw.leaves, Draw.failsAt, saveExchange]
  by_cases first : draw.failing = some .thread
  · simp [first, Draw.runs]
  · have upserted (made : Db) : draw.runs .thread (some made) = some made :=
      Draw.runs_eq_some.2 ⟨first, rfl⟩
    simp only [upserted, if_neg first]
    generalize rowed : db.upsert _ = withRow
    have same : withRow.messages = db.messages := by rw [← rowed, Db.messages_upsert]
    have questionId : (exchange.question draw).id = draw.userMsgId := rfl
    have asks := draw.insert_cases .user withRow (exchange.question draw)
    rw [questionId] at asks
    rw [← same]
    obtain ⟨fails, none'⟩ | ⟨runs, asked, inserted, question⟩ := asks
    · rw [none', if_pos fails]
      simp
    · have ids : asked.messages.map Message.id =
          withRow.messages.map Message.id ++ [draw.userMsgId] := by
        rw [question, List.map_append]
        rfl
      have taken : (exchange.answer draw).id ∈ asked.messages.map Message.id ↔
          draw.asstMsgId ∈ withRow.messages.map Message.id ∨ draw.asstMsgId = draw.userMsgId := by
        rw [ids, List.mem_append, List.mem_singleton]
        rfl
      have answers := draw.insert_cases .assistant asked (exchange.answer draw)
      rw [taken] at answers
      simp only [inserted, if_neg runs]
      obtain ⟨fails, none'⟩ | ⟨runs', answered, inserted', answer⟩ := answers
      · rw [none', if_pos fails]
        simp [question]
      · rw [inserted', if_neg runs']
        simp [answer, question]

end Saved

section Example

/-- The messages of this many exchanges. -/
def talk (exchanges : Nat) : List Message :=
  (List.range exchanges).flatMap fun number =>
    [{ id := ofNat (2 * number), threadId := ofString "th", role := .user
       content := ofNat number, at' := 10 * number },
     { id := ofNat (2 * number + 1), threadId := ofString "th", role := .assistant
       content := ofNat number, at' := 10 * number + 2 }]

def shortTalk : Db where
  messages := talk 2
  distinct := by decide

def longTalk : Db where
  messages := talk 11
  distinct := by decide

theorem sees_recent_shortTalk :
    SeesRecent shortTalk (ofString "th") (historyRows shortTalk (some (ofString "th"))) []
        (instantHistory shortTalk (some (ofString "th")) none (ofString "And?")) (ofString "And?") ∧
      SeesRecent shortTalk (ofString "th") (historyRows shortTalk (some (ofString "th"))) []
        (streamedHistory shortTalk (some (ofString "th")) (ofString "And?")) (ofString "And?") :=
  (sees_recent_iff shortTalk (by decide) none (ofString "And?")).2 (by decide)

theorem not_sees_recent : ¬ ∀ (db : Db) (threadId prompt : Utf16), threadId ≠ [] →
    SeesRecent db threadId (historyRows db (some threadId)) []
      (streamedHistory db (some threadId) prompt) prompt := by
  intro sees
  have ends := (sees longTalk (ofString "th") [] (by decide)).suffix
  have rows : historyRows longTalk (some (ofString "th")) =
      (thread longTalk (ofString "th")).take historyLimit := rfl
  rw [rows, take_suffix_iff (distinct_thread _ _) (by decide)] at ends
  revert ends
  decide

end Example

end ChatThreads

end TitanRunner
