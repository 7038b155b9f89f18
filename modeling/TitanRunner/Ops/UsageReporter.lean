import TitanRunner.Lib.Transition
import TitanRunner.Worker.UsageIngest
import Mathlib.Algebra.Order.Floor.Defs
import Mathlib.Data.Finset.Card
import Mathlib.Data.Rat.Floor

/-!
# The usage reporter

`UsageReporter` of `ops/usageReporter.js` with the Worker that takes its batches.  Calls are counted
in records that a batch refers to, so a record may change while the batch is under way.  A message
reaches the Worker at any time, never, or more than once, and its answer may be lost.
-/

namespace TitanRunner

namespace UsageReporter

open TransitionSystem System UsageIngest
open Utf16 (ofString ofNat lower join)

/-! ## Records -/

/-- A call of `record`. -/
structure Call where
  provider : Utf16
  model : Option Utf16
  status : UsageIngest.Status
  tokensIn : Option ℚ
  tokensOut : Option ℚ
  remainingRequests : Option ℚ
  remainingTokens : Option ℚ

/-- `providerName` -/
def providerName (id : Utf16) : Utf16 :=
  ((id.map lower).map fun unit => if isNameUnit unit then unit else 0x2D).take 40

def modelPattern : Regex :=
  whole (.seq (.oneOf Utf16.isAlnum) (.repeat' isModelUnit 0 (some 119) false))

/-- `modelName` -/
def modelName (model : Option Utf16) : Utf16 := (model.filter modelPattern.test).getD [0x2A]

/-- `Math.max(0, Math.round(tokens ?? 0))` -/
def tokenCount (tokens : Option ℚ) : Nat := ⌊tokens.getD 0 + 1 / 2⌋₊

/-- A whole number that is not negative. -/
def wholeNumber (value : Option ℚ) : Option Nat :=
  value.bind fun number => if number.den = 1 ∧ 0 ≤ number.num then some number.num.toNat else none

/-- A value of `pending`. -/
structure Row where
  source : Source
  provider : Utf16
  model : Utf16
  requests : Nat := 0
  tokensIn : Nat := 0
  tokensOut : Nat := 0
  status : UsageIngest.Status
  ts : Int
  remainingRequests : Option Nat := none
  remainingTokens : Option Nat := none
  /-- Ghost: the calls that are counted, by the order in which they were recorded. -/
  calls : List Nat := []
  deriving DecidableEq

/-- The key in `pending`. -/
def Row.key (row : Row) : Utf16 × Utf16 × UsageIngest.Status := (row.provider, row.model, row.status)

def Call.key (call : Call) : Utf16 × Utf16 × UsageIngest.Status :=
  (providerName call.provider, modelName call.model, call.status)

/-- A call is counted. -/
def Row.count (row : Row) (call : Call) (now : Int) (id : Nat) : Row :=
  { row with
    requests := row.requests + 1
    tokensIn := row.tokensIn + tokenCount call.tokensIn
    tokensOut := row.tokensOut + tokenCount call.tokensOut
    ts := now
    remainingRequests := wholeNumber call.remainingRequests <|> row.remainingRequests
    remainingTokens := wholeNumber call.remainingTokens <|> row.remainingTokens
    calls := row.calls ++ [id] }

def numberOf (count : Nat) : Json := .number (ofNat count)

/-- A member that may be missing. -/
def memberOf (name : String) (count : Option Nat) : List (Utf16 × Json) :=
  (count.map fun count => (ofString name, numberOf count)).toList

def Row.json (row : Row) : Json :=
  .object ([
    (ofString "source", .string row.source.name),
    (ofString "provider", .string row.provider),
    (ofString "model", .string row.model),
    (ofString "requests", numberOf row.requests),
    (ofString "tokens_in", numberOf row.tokensIn),
    (ofString "tokens_out", numberOf row.tokensOut),
    (ofString "status", .string row.status.name),
    (ofString "ts", .string (iso row.ts))] ++
    memberOf "remaining_requests" row.remainingRequests ++
    memberOf "remaining_tokens" row.remainingTokens)

/-- The body of a request. -/
def bodyText (rows : List Row) : Utf16 := Json.stringify (.array (rows.map Row.json))

/-- The text that the Worker's `dedupeKey` hashes. -/
def Row.dedupeText (row : Row) : Utf16 :=
  join (ofString "|") [row.source.name, row.provider, row.model, iso row.ts, row.status.name,
    ofNat row.requests, ofNat row.tokensIn, ofNat row.tokensOut, numberText row.remainingRequests,
    numberText row.remainingTokens]

/-! ## The reporter and the Worker -/

/-- A call of `flush` that waits for the answer to a message. -/
structure Flush where
  /-- The records of the batch, by their place among all. -/
  batch : List Nat
  message : Nat
  /-- This is the second try. -/
  retried : Bool := false
  deriving DecidableEq

structure State where
  /-- All records there ever were. -/
  objects : List Row := []
  pending : List Nat := []
  sent : Nat := 0
  dropped : Nat := 0
  flushes : List Flush := []
  /-- The batches of all requests, as they were when they were sent. -/
  messages : List (List Row) := []
  /-- The messages that the Worker has answered with 200. -/
  accepted : List Nat := []
  store : Store := {}
  /-- Ghost: how many calls were recorded. -/
  recorded : Nat := 0
  /-- Ghost: the records that the rows of `usage_log` were written for. -/
  counted : List Row := []
  /-- Ghost: the calls of the batches that were reported as dropped. -/
  droppedCalls : List Nat := []

/-- What the reporter and the Worker are set up with. -/
structure Setup where
  platform : Platform
  quotas : Quotas
  /-- `TITAN_WORKER_URL` and `OPS_TOKEN` are set. -/
  enabled : Bool
  source : Source

/-- How `fetchImpl` settles. -/
inductive Reply where
  | ok
  /-- A status from 400 to 499. -/
  | refused
  /-- Any other status, or no answer. -/
  | failed
  deriving DecidableEq, Repr

inductive Label where
  | record (call : Call) (now : Int)
  | flush
  /-- The Worker handles a message; it may stop after any of its writes. -/
  | deliver (message : Nat) (now : Int) (writes : Option Nat)
  | reply (flush : Nat) (reply : Reply)

/-- `MAX_RECORDS` of the reporter. -/
def maxBatch : Nat := 200

def State.rows (state : State) (batch : List Nat) : List Row := batch.filterMap (state.objects[·]?)

/-- The place of a record with this key in `pending`. -/
def State.find (state : State) (key : Utf16 × Utf16 × UsageIngest.Status) : Option Nat :=
  state.pending.find? fun index => state.objects[index]?.any fun row => decide (row.key = key)

section Setup

variable (setup : Setup)

/-- `record` -/
def Setup.record (state : State) (call : Call) (now : Int) : State :=
  match state.find call.key with
  | some index =>
      { state with
        objects := state.objects.modify index (Row.count · call now state.recorded)
        recorded := state.recorded + 1 }
  | none =>
      let row : Row := {
        source := setup.source
        provider := providerName call.provider
        model := modelName call.model
        status := call.status
        ts := now }
      { state with
        objects := state.objects ++ [row.count call now state.recorded]
        pending := state.pending ++ [state.objects.length]
        recorded := state.recorded + 1 }

/-- `flush`, up to its first request. -/
def Setup.flush (state : State) : State :=
  let batch := state.pending.take maxBatch
  if batch.isEmpty then state
  else if !setup.enabled then { state with pending := [] }
  else
    { state with
      messages := state.messages ++ [state.rows batch]
      flushes := state.flushes ++ [{ batch, message := state.messages.length }] }

/-- `#drop` -/
def State.drop (state : State) (index : Nat) (flush : Flush) : State :=
  { state with
    pending := []
    dropped := state.dropped + flush.batch.length
    flushes := state.flushes.eraseIdx index
    droppedCalls := state.droppedCalls ++ (state.rows flush.batch).flatMap Row.calls }

/-- The rest of `flush`, when the request has settled. -/
def State.reply (state : State) (index : Nat) (flush : Flush) : Reply → Option State
  | .ok =>
      if flush.message ∈ state.accepted then
        some { state with
          pending := []
          sent := state.sent + flush.batch.length
          flushes := state.flushes.eraseIdx index }
      else none
  | .refused => some (state.drop index flush)
  | .failed =>
      if flush.retried then some (state.drop index flush)
      else
        some { state with
          messages := state.messages ++ [state.rows flush.batch]
          flushes := state.flushes.set index
            { flush with message := state.messages.length, retried := true } }

def Setup.dedupe (row : Row) : Utf16 := setup.platform.sha256Hex row.dedupeText

/-- The Worker handles a message. -/
def Setup.deliver (state : State) (message : Nat) (rows : List Row) (now : Int)
    (writes : Option Nat) : State :=
  match Json.parse (bodyText rows) with
  | none => state
  | some body =>
      let delivery : Delivery := { now, body, writes }
      let handled := setup.platform.handleOpsUsagePost setup.quotas state.store delivery
      let inserted := handled.1.usageLog.drop state.store.usageLog.length
      { state with
        store := handled.1
        accepted := state.accepted ++
          if handled.2 && !(setup.platform.good delivery).isEmpty then [message] else []
        counted := state.counted ++ rows.filter fun row =>
          inserted.any fun entry => decide (entry.dedupe = setup.dedupe row) }

def Setup.next (state : State) : Label → Option State
  | .record call now => some (setup.record state call now)
  | .flush => some (setup.flush state)
  | .deliver message now writes =>
      state.messages[message]?.map fun rows => setup.deliver state message rows now writes
  | .reply index reply => state.flushes[index]?.bind fun flush => state.reply index flush reply

/-- All interleavings, over any table. -/
def Setup.system : System State Label where
  start state := ∃ store, state = { store }
  next := setup.next

/-- How often a call is counted. -/
def State.timesCounted (state : State) (call : Nat) : Nat :=
  (state.counted.filter fun row => row.calls.contains call).length

/-- Every call is counted once, or reported as dropped. -/
structure Setup.CountsOnce (state : State) : Prop where
  /-- What is counted is a row of the table, with as many requests as it has calls. -/
  logged : ∀ row ∈ state.counted, ∃ entry ∈ state.store.usageLog,
    entry.dedupe = setup.dedupe row ∧ entry.requests = row.calls.length
  atMostOnce : ∀ call, state.timesCounted call ≤ 1
  /-- When nothing waits to be sent. -/
  settled : state.pending = [] → ∀ call < state.recorded,
    state.timesCounted call = 1 ∨ call ∈ state.droppedCalls

/-- The Worker takes the record. -/
def Setup.isGood (now : Int) (row : Row) : Bool :=
  (readRecord row.json).any (setup.platform.isTimely now)

/-- The keys of the records that wait are their own: no other record has one of them, and no row of
the table that was not written for it. -/
structure Setup.Apart (state : State) : Prop where
  messages : ∀ row ∈ state.rows state.pending,
    ∀ other ∈ state.messages.flatten ++ state.rows state.pending,
      setup.dedupe other = setup.dedupe row → other = row
  log : ∀ row ∈ state.rows state.pending, ∀ entry ∈ state.store.usageLog,
    entry.dedupe = setup.dedupe row → row ∈ state.counted

/-- The steps that keep the count. -/
def Setup.Orderly (state : State) : Label → Prop
  | .record _ _ => state.flushes = []
  | .flush => setup.enabled = true ∧ state.pending.length ≤ maxBatch ∧ setup.Apart state
  | .deliver message now _ => ∀ rows ∈ state.messages[message]?,
      (∀ row ∈ rows, setup.isGood now row = true) ∨ ∀ row ∈ rows, setup.isGood now row = false
  | .reply _ _ => True

end Setup

/-! ## What the Worker makes of a message -/

section Worker

variable {row : Row} {record : UsageRecord}

theorem isProper_json (row : Row) : Json.isProper row.json = true := by
  have number : ∀ count, Json.isProper (numberOf count) = true := Json.isNumber_ofNat
  cases remaining : row.remainingRequests <;> cases remaining' : row.remainingTokens <;>
    simp [Row.json, memberOf, remaining, remaining', Json.isProper, Json.areProperMembers, number]

/-- The body is read as it was written. -/
theorem parse_bodyText (rows : List Row) :
    Json.parse (bodyText rows) = some (.array (rows.map Row.json)) := by
  have proper : Json.areProper (rows.map Row.json) = true := by
    induction rows with
    | nil => rfl
    | cons row rest ih => rw [List.map_cons, Json.areProper, isProper_json, ih]; rfl
  exact Json.parse_stringify proper

theorem countOf_numberOf {count found : Nat} (read : countOf (numberOf count) = some found) :
    found = count := by
  simp only [countOf, numberOf, Json.integer?_ofNat] at read
  split at read
  next =>
    rw [Option.some.injEq, Int.toNat_natCast] at read
    exact read.symm
  next => contradiction

theorem optional_memberOf {value : Json} {name : String} {count found : Option Nat}
    (member : value.member (ofString name) = count.map numberOf)
    (read : optional value name = some found) : found = count := by
  simp only [UsageIngest.optional, member] at read
  cases count with
  | none => exact (Option.some.inj read).symm
  | some count =>
      obtain ⟨found, same, rfl⟩ := Option.map_eq_some_iff.1 read
      rw [countOf_numberOf same]

/-- The members of a row. -/
theorem member_json (row : Row) :
    row.json.member (ofString "source") = some (.string row.source.name) ∧
    row.json.member (ofString "provider") = some (.string row.provider) ∧
    row.json.member (ofString "model") = some (.string row.model) ∧
    row.json.member (ofString "requests") = some (numberOf row.requests) ∧
    row.json.member (ofString "tokens_in") = some (numberOf row.tokensIn) ∧
    row.json.member (ofString "tokens_out") = some (numberOf row.tokensOut) ∧
    row.json.member (ofString "status") = some (.string row.status.name) ∧
    row.json.member (ofString "ts") = some (.string (iso row.ts)) ∧
    row.json.member (ofString "remaining_requests") = row.remainingRequests.map numberOf ∧
    row.json.member (ofString "remaining_tokens") = row.remainingTokens.map numberOf := by
  cases remaining : row.remainingRequests <;> cases remaining' : row.remainingTokens <;>
    (rw [Row.json, remaining, remaining']; exact ⟨rfl, rfl, rfl, rfl, rfl, rfl, rfl, rfl, rfl, rfl⟩)

/-- The members that a record was read from. -/
theorem readRecord_members {value : Json} (read : readRecord value = some record) :
    (value.member (ofString "source")).bind Json.string? = some record.source.name ∧
    (value.member (ofString "provider")).bind Json.string? = some record.provider ∧
    (value.member (ofString "model")).bind Json.string? = some record.model ∧
    (value.member (ofString "requests")).bind countOf = some record.requests ∧
    (value.member (ofString "tokens_in")).bind countOf = some record.tokensIn ∧
    (value.member (ofString "tokens_out")).bind countOf = some record.tokensOut ∧
    (value.member (ofString "status")).bind Json.string? = some record.status.name ∧
    (value.member (ofString "ts")).bind Json.string? = some record.ts ∧
    UsageIngest.optional value "remaining_requests" = some record.remainingRequests ∧
    UsageIngest.optional value "remaining_tokens" = some record.remainingTokens := by
  rw [readRecord] at read
  dsimp only at read
  split at read
  next =>
    obtain ⟨source, foundSource, read⟩ := Option.bind_eq_some_iff.1 read
    obtain ⟨provider, isProvider, read⟩ := Option.bind_eq_some_iff.1 read
    obtain ⟨model, isModel, read⟩ := Option.bind_eq_some_iff.1 read
    obtain ⟨requests, isRequests, read⟩ := Option.bind_eq_some_iff.1 read
    obtain ⟨tokensIn, isTokensIn, read⟩ := Option.bind_eq_some_iff.1 read
    obtain ⟨tokensOut, isTokensOut, read⟩ := Option.bind_eq_some_iff.1 read
    obtain ⟨status, foundStatus, read⟩ := Option.bind_eq_some_iff.1 read
    obtain ⟨ts, isTs, read⟩ := Option.bind_eq_some_iff.1 read
    obtain ⟨remaining, isRemaining, read⟩ := Option.bind_eq_some_iff.1 read
    obtain ⟨remaining', isRemaining', made⟩ := Option.bind_eq_some_iff.1 read
    have named : (value.member (ofString "source")).bind Json.string? = some source.name := by
      have found := List.find?_some foundSource
      exact of_decide_eq_true found
    have named' : (value.member (ofString "status")).bind Json.string? = some status.name := by
      have found := List.find?_some foundStatus
      exact of_decide_eq_true found
    split at made
    next =>
      split at made
      next =>
        obtain rfl := Option.some.inj made
        exact ⟨named, isProvider, isModel, isRequests, isTokensIn, isTokensOut, named', isTs,
          isRemaining, isRemaining'⟩
      next => contradiction
    next => contradiction
  next => contradiction

/-- The record that the Worker reads has the text of the row. -/
theorem of_readRecord (read : readRecord row.json = some record) :
    record.dedupeText = row.dedupeText ∧ record.requests = row.requests := by
  obtain ⟨source, provider, model, requests, tokensIn, tokensOut, status, ts, remaining, remaining'⟩ :=
    member_json row
  obtain ⟨source', provider', model', requests', tokensIn', tokensOut', status', ts', optional,
    optional'⟩ := readRecord_members read
  rw [source] at source'
  rw [provider] at provider'
  rw [model] at model'
  rw [requests, Option.bind_some] at requests'
  rw [tokensIn, Option.bind_some] at tokensIn'
  rw [tokensOut, Option.bind_some] at tokensOut'
  rw [status] at status'
  rw [ts] at ts'
  have count := countOf_numberOf requests'
  refine ⟨?_, count⟩
  rw [UsageRecord.dedupeText, UsageRecord.pieces, Row.dedupeText, ← Option.some.inj source',
    ← Option.some.inj provider', ← Option.some.inj model', ← Option.some.inj status',
    ← Option.some.inj ts', count, countOf_numberOf tokensIn', countOf_numberOf tokensOut',
    optional_memberOf remaining optional, optional_memberOf remaining' optional']

/-- What was inserted for records: rows of theirs that no key of the table stood for, and now each
record has a row. -/
structure Inserted (platform : Platform) (log new : List LogRow) (records : List UsageRecord) :
    Prop where
  ofRecords : ∀ entry ∈ new, ∃ record ∈ records, entry.toColumns = platform.columns record
  unseen : ∀ entry ∈ new, ∀ old ∈ log, old.dedupe ≠ entry.dedupe

variable {platform : Platform} {quotas : Quotas} {log : List LogRow} {now : Int}
  {records : List UsageRecord} {store : Store}

theorem insertAll_inserts : ∃ new, (platform.insertAll now log records).1 = log ++ new ∧
    Inserted platform log new records ∧
    ∀ record ∈ records, ∃ entry ∈ log ++ new, entry.dedupe = (platform.columns record).dedupe := by
  induction records generalizing log with
  | nil => exact ⟨[], (List.append_nil _).symm, ⟨by simp, by simp⟩, by simp⟩
  | cons record rest ih =>
      rw [Platform.insertAll]
      dsimp only
      split
      next there =>
        obtain ⟨new, same, inserted, all⟩ := @ih log
        obtain ⟨entry, inside, dedupe⟩ := List.any_eq_true.1 there
        refine ⟨new, same, ⟨fun entry inside => ?_, inserted.unseen⟩, ?_⟩
        · obtain ⟨other, among, columns⟩ := inserted.ofRecords entry inside
          exact ⟨other, .tail record among, columns⟩
        · exact List.forall_mem_cons.2
            ⟨⟨entry, List.mem_append_left _ inside, of_decide_eq_true dedupe⟩, all⟩
      next absent =>
        let first : LogRow := { toColumns := platform.columns record, receivedAt := iso now }
        obtain ⟨new, same, inserted, all⟩ := @ih (log ++ [first])
        have fresh : ∀ old ∈ log, old.dedupe ≠ first.dedupe := fun old inside dedupe =>
          absent (List.any_eq_true.2 ⟨old, inside, decide_eq_true dedupe⟩)
        refine ⟨first :: new, by rw [same, List.append_assoc]; rfl, ⟨?_, ?_⟩, ?_⟩
        · refine List.forall_mem_cons.2 ⟨⟨record, List.mem_cons_self, rfl⟩, fun entry inside => ?_⟩
          obtain ⟨other, among, columns⟩ := inserted.ofRecords entry inside
          exact ⟨other, .tail record among, columns⟩
        · refine List.forall_mem_cons.2 ⟨fresh, fun entry inside old among => ?_⟩
          exact inserted.unseen entry inside old (List.mem_append_left _ among)
        · rw [List.append_assoc] at all
          refine List.forall_mem_cons.2 ⟨⟨first, ?_, rfl⟩, all⟩
          exact List.mem_append_right _ List.mem_cons_self

/-- What a delivery leaves in the table; one that ends leaves a row for each good record. -/
theorem handle_inserts (delivery : Delivery) : ∃ new,
    (platform.handleOpsUsagePost quotas store delivery).1.usageLog = store.usageLog ++ new ∧
    Inserted platform store.usageLog new (platform.good delivery) ∧
    ((platform.handleOpsUsagePost quotas store delivery).2 = true →
      ∀ record ∈ platform.good delivery, ∃ entry ∈ store.usageLog ++ new,
        entry.dedupe = (platform.columns record).dedupe) := by
  have nothing : Inserted platform store.usageLog [] (platform.good delivery) :=
    ⟨by simp, by simp⟩
  rw [Platform.handleOpsUsagePost]
  dsimp only
  split
  next empty =>
    refine ⟨[], (List.append_nil _).symm, nothing, fun _ record inside => ?_⟩
    rw [List.isEmpty_iff.1 empty] at inside
    contradiction
  next =>
    split
    next => exact ⟨[], (List.append_nil _).symm, nothing, fun ended => by contradiction⟩
    next =>
      by_cases stopped : delivery.writes = some 0
      · rw [stopped, perform]
        exact ⟨[], (List.append_nil _).symm, nothing, fun ended => by contradiction⟩
      · obtain ⟨new, same, inserted, all⟩ := @insertAll_inserts platform store.usageLog delivery.now
          (platform.good delivery)
        refine ⟨new, ?_, inserted, fun _ => all⟩
        rw [perform]
        · rw [usageLog_perform]
          · exact same
          · intro write there
            obtain ⟨record, _, inside⟩ := List.mem_flatMap.1 there
            exact quiet_writesOf write inside
        · exact stopped

end Worker

section Deliver

variable {setup : Setup} {state : State} {message : Nat} {rows : List Row} {now : Int}
  {writes : Option Nat}

def messageDelivery (rows : List Row) (now : Int) (writes : Option Nat) : Delivery :=
  { now, body := .array (rows.map Row.json), writes }

theorem good_messageDelivery {platform : Platform} :
    platform.good (messageDelivery rows now writes) =
      if rows = [] ∨ maxRecords < rows.length then []
      else ((rows.map Row.json).filterMap readRecord).filter (platform.isTimely now) := by
  simp only [Platform.good, messageDelivery, List.length_map, Bool.or_eq_true, decide_eq_true_eq,
    List.length_eq_zero_iff]

theorem exists_row_of_good {platform : Platform} {record : UsageRecord}
    (good : record ∈ platform.good (messageDelivery rows now writes)) :
    ∃ row ∈ rows, readRecord row.json = some record ∧ platform.isTimely now record = true := by
  rw [good_messageDelivery] at good
  split at good
  next => contradiction
  next =>
    obtain ⟨read, timely⟩ := List.mem_filter.1 good
    obtain ⟨value, inside, read⟩ := List.mem_filterMap.1 read
    obtain ⟨row, among, rfl⟩ := List.mem_map.1 inside
    exact ⟨row, among, read, timely⟩

theorem exists_good_of_row (few : rows.length ≤ maxBatch) {row : Row} (inside : row ∈ rows)
    (good : setup.isGood now row = true) :
    ∃ record ∈ setup.platform.good (messageDelivery rows now writes),
      readRecord row.json = some record := by
  obtain ⟨record, read, timely⟩ := (Option.any_eq_true _ _).1 good
  have fits : ¬ (rows = [] ∨ maxRecords < rows.length) := by
    have : maxBatch ≤ maxRecords := by decide
    rintro (none' | many)
    · exact List.ne_nil_of_mem inside none'
    · omega
  refine ⟨record, ?_, read⟩
  rw [good_messageDelivery, if_neg fits]
  exact List.mem_filter.2 ⟨List.mem_filterMap.2 ⟨row.json, List.mem_map_of_mem inside, read⟩, timely⟩

/-- What the handling of a message changes. -/
structure Setup.Delivered (setup : Setup) (state : State) (message : Nat) (rows : List Row) (now : Int)
    (new : List LogRow) (accepted : List Nat) : Prop where
  ofRows : ∀ entry ∈ new, ∃ row ∈ rows, setup.isGood now row = true ∧
    entry.dedupe = setup.dedupe row ∧ entry.requests = row.requests
  unseen : ∀ entry ∈ new, ∀ old ∈ state.store.usageLog, old.dedupe ≠ entry.dedupe
  accepted : accepted = state.accepted ∨ accepted = state.accepted ++ [message] ∧
    (∃ row ∈ rows, setup.isGood now row = true) ∧ ∀ row ∈ rows, setup.isGood now row = true →
      ∃ entry ∈ state.store.usageLog ++ new, entry.dedupe = setup.dedupe row

theorem deliver_spec (few : rows.length ≤ maxBatch) : ∃ store new accepted,
    setup.deliver state message rows now writes = {
      state with
      store
      accepted
      counted := state.counted ++ rows.filter fun row =>
        new.any fun entry => decide (entry.dedupe = setup.dedupe row) } ∧
    store.usageLog = state.store.usageLog ++ new ∧
    setup.Delivered state message rows now new accepted := by
  have key : ∀ {row : Row} {record : UsageRecord}, readRecord row.json = some record →
      (setup.platform.columns record).dedupe = setup.dedupe row := fun read =>
    congrArg setup.platform.sha256Hex (of_readRecord read).1
  let handled := setup.platform.handleOpsUsagePost setup.quotas state.store
    (messageDelivery rows now writes)
  obtain ⟨new, same, inserted, all⟩ := @handle_inserts setup.platform setup.quotas state.store
    (messageDelivery rows now writes)
  have delivered : setup.deliver state message rows now writes = {
      state with
      store := handled.1
      accepted := state.accepted ++
        if handled.2 && !(setup.platform.good (messageDelivery rows now writes)).isEmpty then [message]
        else []
      counted := state.counted ++ rows.filter fun row =>
        (handled.1.usageLog.drop state.store.usageLog.length).any fun entry =>
          decide (entry.dedupe = setup.dedupe row) } := by
    rw [Setup.deliver, parse_bodyText]
    rfl
  rw [same, List.drop_left] at delivered
  refine ⟨handled.1, new, _, delivered, same, ⟨fun entry inside => ?_, inserted.unseen, ?_⟩⟩
  · obtain ⟨record, good, columns⟩ := inserted.ofRecords entry inside
    obtain ⟨row, among, read, timely⟩ := exists_row_of_good good
    refine ⟨row, among, ?_, ?_, ?_⟩
    · rw [Setup.isGood, read]
      exact timely
    · exact (congrArg Columns.dedupe columns).trans (key read)
    · exact (congrArg Columns.requests columns).trans (of_readRecord read).2
  · split
    next ended =>
      rw [Bool.and_eq_true, Bool.not_eq_true'] at ended
      refine .inr ⟨rfl, ?_, fun row inside good => ?_⟩
      · obtain ⟨record, good⟩ := List.exists_mem_of_ne_nil _ (List.isEmpty_eq_false_iff.1 ended.2)
        obtain ⟨row, among, read, timely⟩ := exists_row_of_good good
        refine ⟨row, among, ?_⟩
        rw [Setup.isGood, read]
        exact timely
      · obtain ⟨record, among, read⟩ := exists_good_of_row few inside good
        obtain ⟨entry, there, dedupe⟩ := all ended.1 record among
        exact ⟨entry, there, dedupe.trans (key read)⟩
    next => exact .inl (List.append_nil _)

end Deliver

/-! ## What is kept -/

/-- The records: each call is counted in one of them, and those of a message change no more. -/
structure State.Recorded (state : State) : Prop where
  inHeap : ∀ index ∈ state.pending, index < state.objects.length
  nodup : state.pending.Nodup
  own : ∀ (index index' : Nat) (row row' : Row) (call : Nat), state.objects[index]? = some row →
    state.objects[index']? = some row' → call ∈ row.calls → call ∈ row'.calls → index = index'
  below : ∀ row ∈ state.objects, ∀ call ∈ row.calls, call < state.recorded
  requests : ∀ row ∈ state.objects, row.requests = row.calls.length ∧ row.calls ≠ []
  sent : ∀ message ∈ state.messages, ∀ row ∈ message, ∃ index, state.objects[index]? = some row ∧
    (index ∈ state.pending → state.flushes ≠ [])

/-- The flushes and the messages. -/
structure State.Underway (state : State) : Prop where
  batch : ∀ flush ∈ state.flushes, (flush.batch = state.pending ∨ state.pending = []) ∧
    state.messages[flush.message]? = some (state.rows flush.batch)
  sizes : ∀ message ∈ state.messages, message.length ≤ maxBatch ∧ message.Nodup
  accepted : ∀ message ∈ state.accepted, ∃ rows, state.messages[message]? = some rows ∧
    ∀ row ∈ rows, row ∈ state.counted

/-- The table: what is counted has a row, and no other record of a message has that key. -/
structure Setup.Tabled (setup : Setup) (state : State) : Prop where
  keys : ∀ row ∈ state.messages.flatten, ∀ other ∈ state.messages.flatten,
    setup.dedupe other = setup.dedupe row → other = row
  counted : ∀ row ∈ state.counted, row ∈ state.messages.flatten
  nodup : state.counted.Nodup
  logged : ∀ row ∈ state.counted, ∃ entry ∈ state.store.usageLog,
    entry.dedupe = setup.dedupe row ∧ entry.requests = row.calls.length
  own : ∀ row ∈ state.messages.flatten, ∀ entry ∈ state.store.usageLog,
    entry.dedupe = setup.dedupe row → row ∈ state.counted

/-- No call is lost. -/
def State.Kept (state : State) : Prop :=
  ∀ call < state.recorded, (∃ row ∈ state.rows state.pending, call ∈ row.calls) ∨
    (∃ row ∈ state.counted, call ∈ row.calls) ∨ call ∈ state.droppedCalls

structure Setup.Sound (setup : Setup) (state : State) : Prop where
  recorded : state.Recorded
  underway : state.Underway
  tabled : setup.Tabled state
  kept : state.Kept

section Sound

variable {setup : Setup} {state after : State} {row : Row} {call : Call} {now : Int}

theorem mem_rows {batch : List Nat} : row ∈ state.rows batch ↔
    ∃ index ∈ batch, state.objects[index]? = some row := List.mem_filterMap

theorem getElem?_concat_ne {rows : List Row} {other : Nat} (unlike : other ≠ rows.length) :
    (rows ++ [row])[other]? = rows[other]? := by
  rw [List.getElem?_append]
  split
  next => rfl
  next beyond =>
    have later : 1 ≤ other - rows.length := by omega
    rw [List.getElem?_eq_none (by simpa using later), List.getElem?_eq_none (by omega)]

/-- What `record` does to the records: one of those that wait, or a new one, counts the call. -/
structure Counted (state after : State) (index : Nat) (row : Row) : Prop where
  at' : after.objects[index]? = some row
  waits : ∀ other, other ∈ after.pending ↔ other = index ∨ other ∈ state.pending
  nodup : state.pending.Nodup → after.pending.Nodup
  others : ∀ other, other ≠ index → after.objects[other]? = state.objects[other]?
  before : (index = state.objects.length ∧ row.calls = [state.recorded] ∧ row.requests = 1) ∨
    index ∈ state.pending ∧ ∃ earlier, state.objects[index]? = some earlier ∧
      row.calls = earlier.calls ++ [state.recorded] ∧ row.requests = earlier.requests + 1
  same : after = { state with
    objects := after.objects, pending := after.pending, recorded := state.recorded + 1 }

theorem record_spec (inHeap : ∀ index ∈ state.pending, index < state.objects.length) :
    ∃ index row, Counted state (setup.record state call now) index row := by
  rw [Setup.record]
  cases found : state.find call.key with
  | some index =>
      have waits := List.mem_of_find?_eq_some found
      rw [State.find] at found
      have keyed := List.find?_some found
      obtain ⟨row, there, -⟩ := (Option.any_eq_true _ _).1 keyed
      refine ⟨index, row.count call now state.recorded, ?_, ?_, id, ?_, .inr ⟨waits, row, there, ?_⟩,
        rfl⟩
      · rw [List.getElem?_modify_eq, there]
        rfl
      · intro other
        constructor
        · exact .inr
        · rintro (rfl | waits')
          · exact waits
          · exact waits'
      · intro other unlike
        exact List.getElem?_modify_ne _ _ (Ne.symm unlike)
      · exact ⟨rfl, rfl⟩
  | none =>
      refine ⟨state.objects.length, _, List.getElem?_concat_length, ?_, ?_, ?_, .inl ⟨rfl, rfl, rfl⟩,
        rfl⟩
      · intro other
        rw [List.mem_append, List.mem_singleton, or_comm]
      · intro nodup
        refine List.nodup_append.2 ⟨nodup, List.nodup_singleton _, ?_⟩
        intro index waits other last
        rw [List.mem_singleton.1 last]
        exact (inHeap index waits).ne
      · intro other unlike
        exact getElem?_concat_ne unlike

/-- The calls of a record that has counted one more. -/
theorem Counted.calls {index : Nat} (counted : Counted state after index row) {other : Nat}
    {row' : Row} (there : after.objects[other]? = some row') {id : Nat} (inside : id ∈ row'.calls) :
    (other = index ∧ id = state.recorded) ∨
      ∃ earlier, state.objects[other]? = some earlier ∧ id ∈ earlier.calls := by
  by_cases acting : other = index
  · subst acting
    obtain rfl : row = row' := Option.some.inj (counted.at'.symm.trans there)
    cases counted.before with
    | inl new =>
        rw [new.2.1] at inside
        exact .inl ⟨rfl, List.mem_singleton.1 inside⟩
    | inr old =>
        obtain ⟨_, earlier, found, calls, _⟩ := old
        rw [calls] at inside
        cases List.mem_append.1 inside with
        | inl before => exact .inr ⟨earlier, found, before⟩
        | inr last => exact .inl ⟨rfl, List.mem_singleton.1 last⟩
  · exact .inr ⟨row', (counted.others other acting) ▸ there, inside⟩

/-- Step lemma, of a call that is recorded while no flush is under way. -/
theorem Setup.Sound.record (sound : setup.Sound state) (idle : state.flushes = []) :
    setup.Sound (setup.record state call now) := by
  have ⟨recorded, underway, tabled, kept⟩ := sound
  obtain ⟨index, row, counted⟩ := @record_spec setup state call now recorded.inHeap
  generalize setup.record state call now = after at counted
  have apart : ∀ (other : Nat) (row : Row), state.objects[other]? = some row →
      other ∉ state.pending → other ≠ index := by
    rintro other row there apart rfl
    cases counted.before with
    | inl new => simp [new.1] at there
    | inr old => exact apart old.1
  have earlier : ∀ (other : Nat) (row : Row), state.objects[other]? = some row →
      ∀ call ∈ row.calls, call < state.recorded := fun other row there =>
    recorded.below row (List.mem_of_getElem? there)
  rw [counted.same]
  refine ⟨⟨?_, counted.nodup recorded.nodup, ?_, ?_, ?_, ?_⟩, ⟨?_, underway.sizes, underway.accepted⟩,
    ⟨tabled.keys, tabled.counted, tabled.nodup, tabled.logged, tabled.own⟩, ?_⟩
  · intro other waits
    by_cases acting : other = index
    · exact acting ▸ (List.getElem?_eq_some_iff.1 counted.at').1
    · have there := recorded.inHeap other (((counted.waits other).1 waits).resolve_left acting)
      have found := (counted.others other acting).trans (List.getElem?_eq_getElem there)
      exact (List.getElem?_eq_some_iff.1 found).1
  · intro one other row row' id there there' inside inside'
    rcases counted.calls there inside with ⟨here, rfl⟩ | ⟨before, found, among⟩
    · rcases counted.calls there' inside' with ⟨here', _⟩ | ⟨before', found', among'⟩
      · exact here.trans here'.symm
      · exact absurd (earlier other before' found' _ among') (Nat.lt_irrefl _)
    · rcases counted.calls there' inside' with ⟨_, rfl⟩ | ⟨before', found', among'⟩
      · exact absurd (earlier one before found _ among) (Nat.lt_irrefl _)
      · exact recorded.own one other before before' id found found' among among'
  · intro row inside id among
    obtain ⟨other, there⟩ := List.mem_iff_getElem?.1 inside
    rcases counted.calls there among with ⟨_, rfl⟩ | ⟨before, found, among'⟩
    · exact Nat.lt_succ_self _
    · exact Nat.lt_succ_of_lt (earlier other before found _ among')
  · intro row' inside
    obtain ⟨other, there⟩ := List.mem_iff_getElem?.1 inside
    by_cases acting : other = index
    · subst acting
      obtain rfl : row = row' := Option.some.inj (counted.at'.symm.trans there)
      cases counted.before with
      | inl new => simp [new.2]
      | inr old =>
          obtain ⟨_, before, found, calls, requests⟩ := old
          have known := recorded.requests before (List.mem_of_getElem? found)
          simp [calls, requests, known.1]
    · exact recorded.requests row' (List.mem_of_getElem? ((counted.others other acting) ▸ there))
  · intro message sent row' inside
    obtain ⟨other, there, waits⟩ := recorded.sent message sent row' inside
    have settled : other ∉ state.pending := fun waits' => waits waits' idle
    have unlike := apart other row' there settled
    refine ⟨other, (counted.others other unlike).trans there, fun waits' => ?_⟩
    exact absurd (((counted.waits other).1 waits').resolve_left unlike) settled
  · intro flush inside
    rw [idle] at inside
    contradiction
  · intro id small
    by_cases last : id = state.recorded
    · subst last
      refine .inl ⟨row, mem_rows.2 ⟨index, (counted.waits index).2 (.inl rfl), counted.at'⟩, ?_⟩
      cases counted.before with
      | inl new => exact new.2.1 ▸ List.mem_singleton_self _
      | inr old =>
          obtain ⟨_, before, _, calls, _⟩ := old
          exact calls ▸ List.mem_append_right _ (List.mem_singleton_self _)
    · refine (kept id (lt_of_le_of_ne (Nat.le_of_lt_succ small) last)).imp_left fun ⟨row', inside, among⟩ => ?_
      obtain ⟨other, waits, there⟩ := mem_rows.1 inside
      by_cases acting : other = index
      · subst acting
        refine ⟨row, mem_rows.2 ⟨other, (counted.waits other).2 (.inl rfl), counted.at'⟩, ?_⟩
        cases counted.before with
        | inl new => simp [new.1] at there
        | inr old =>
            obtain ⟨_, before, found, calls, _⟩ := old
            obtain rfl : before = row' := Option.some.inj (found.symm.trans there)
            exact calls ▸ List.mem_append_left _ among
      · exact ⟨row', mem_rows.2 ⟨other, (counted.waits other).2 (.inr waits),
          (counted.others other acting).trans there⟩, among⟩

theorem nodup_rows (recorded : state.Recorded) {batch : List Nat} (nodup : batch.Nodup) :
    (state.rows batch).Nodup := by
  refine List.Nodup.filterMap ?_ nodup
  intro index index' row there there'
  obtain ⟨id, inside⟩ := List.exists_mem_of_ne_nil _
    (recorded.requests row (List.mem_of_getElem? there)).2
  exact recorded.own index index' row row id there there' inside inside

theorem length_rows_le (batch : List Nat) : (state.rows batch).length ≤ batch.length :=
  List.length_filterMap_le _ _

/-- Step lemma, of a flush that takes all that waits. -/
theorem Setup.Sound.flush (sound : setup.Sound state) (enabled : setup.enabled = true)
    (few : state.pending.length ≤ maxBatch) (apart : setup.Apart state) :
    setup.Sound (setup.flush state) := by
  have ⟨recorded, underway, tabled, kept⟩ := sound
  rw [Setup.flush, List.take_of_length_le few, enabled]
  split
  next => exact sound
  next =>
    have within : ∀ row ∈ state.messages.flatten ++ state.rows state.pending,
        row ∈ (state.messages ++ [state.rows state.pending]).flatten := by
      simp only [List.flatten_append, List.flatten_singleton, imp_self, implies_true]
    have cases' : ∀ row ∈ (state.messages ++ [state.rows state.pending]).flatten,
        row ∈ state.messages.flatten ∨ row ∈ state.rows state.pending := by
      simp only [List.flatten_append, List.flatten_singleton, List.mem_append, imp_self, implies_true]
    have grows : ∀ {place : Nat} {rows : List Row}, state.messages[place]? = some rows →
        (state.messages ++ [state.rows state.pending])[place]? = some rows := fun found =>
      (List.getElem?_append_left (List.getElem?_eq_some_iff.1 found).1).trans found
    refine ⟨⟨recorded.inHeap, recorded.nodup, recorded.own, recorded.below, recorded.requests, ?_⟩,
      ⟨?_, ?_, ?_⟩, ⟨?_, ?_, tabled.nodup, tabled.logged, ?_⟩, kept⟩
    · intro message sent row inside
      cases List.mem_append.1 sent with
      | inl before =>
          obtain ⟨index, there, waits⟩ := recorded.sent message before row inside
          exact ⟨index, there, fun waits' => List.append_ne_nil_of_left_ne_nil (waits waits') _⟩
      | inr last =>
          obtain rfl := List.mem_singleton.1 last
          obtain ⟨index, _, there⟩ := mem_rows.1 inside
          exact ⟨index, there, fun _ => List.append_ne_nil_of_right_ne_nil _ (List.cons_ne_nil _ _)⟩
    · intro flush inside
      cases List.mem_append.1 inside with
      | inl before =>
          have ⟨batch, message⟩ := underway.batch flush before
          exact ⟨batch, grows message⟩
      | inr last =>
          obtain rfl := List.mem_singleton.1 last
          exact ⟨.inl rfl, List.getElem?_concat_length⟩
    · intro message sent
      cases List.mem_append.1 sent with
      | inl before => exact underway.sizes message before
      | inr last =>
          obtain rfl := List.mem_singleton.1 last
          exact ⟨(length_rows_le _).trans few, nodup_rows recorded recorded.nodup⟩
    · intro message accepted
      obtain ⟨rows, there, all⟩ := underway.accepted message accepted
      exact ⟨rows, grows there, all⟩
    · intro row inside other inside' same
      rcases cases' row inside with before | new
      · rcases cases' other inside' with before' | new'
        · exact tabled.keys row before other before' same
        · exact (apart.messages other new' row (List.mem_append_left _ before) same.symm).symm
      · exact apart.messages row new other (List.mem_append.2 (cases' other inside')) same
    · exact fun row counted => within row (List.mem_append_left _ (tabled.counted row counted))
    · intro row inside entry logged same
      rcases cases' row inside with before | new
      · exact tabled.own row before entry logged same
      · exact apart.log row new entry logged same

theorem requests_of_sent (recorded : state.Recorded) (sent : row ∈ state.messages.flatten) :
    row.requests = row.calls.length := by
  obtain ⟨message, inside, among⟩ := List.mem_flatten.1 sent
  obtain ⟨index, there, -⟩ := recorded.sent message inside row among
  exact (recorded.requests row (List.mem_of_getElem? there)).1

/-- Step lemma, of a message whose records the Worker takes, all or none. -/
theorem Setup.Sound.deliver (sound : setup.Sound state) {message : Nat} {rows : List Row}
    {writes : Option Nat} (there : state.messages[message]? = some rows)
    (taken : (∀ row ∈ rows, setup.isGood now row = true) ∨
      ∀ row ∈ rows, setup.isGood now row = false) :
    setup.Sound (setup.deliver state message rows now writes) := by
  have ⟨recorded, underway, tabled, kept⟩ := sound
  have sent : rows ∈ state.messages := List.mem_of_getElem? there
  have flat : ∀ row ∈ rows, row ∈ state.messages.flatten := fun row inside =>
    List.mem_flatten.2 ⟨rows, sent, inside⟩
  obtain ⟨store, new, accepted, same, log, delivered⟩ := @deliver_spec setup state message rows now
    writes (underway.sizes rows sent).1
  have inserted : ∀ row, (new.any fun entry => decide (entry.dedupe = setup.dedupe row)) = true ↔
      ∃ entry ∈ new, entry.dedupe = setup.dedupe row := by
    simp only [List.any_eq_true, decide_eq_true_eq, implies_true]
  rw [same]
  refine ⟨⟨recorded.inHeap, recorded.nodup, recorded.own, recorded.below, recorded.requests,
    recorded.sent⟩, ⟨underway.batch, underway.sizes, ?_⟩, ⟨tabled.keys, ?_, ?_, ?_, ?_⟩, ?_⟩
  · intro other acc
    have old : other ∈ state.accepted → ∃ rows', state.messages[other]? = some rows' ∧
        ∀ row ∈ rows', row ∈ state.counted ++ rows.filter fun row =>
          new.any fun entry => decide (entry.dedupe = setup.dedupe row) := by
      intro before
      obtain ⟨rows', found, all⟩ := underway.accepted other before
      exact ⟨rows', found, fun row inside => List.mem_append_left _ (all row inside)⟩
    rcases delivered.accepted with unchanged | ⟨grown, ⟨some', among, good⟩, all⟩
    · exact old (unchanged ▸ acc)
    · cases List.mem_append.1 (grown ▸ acc : other ∈ state.accepted ++ [message]) with
      | inl before => exact old before
      | inr last =>
          obtain rfl := List.mem_singleton.1 last
          refine ⟨rows, there, fun row inside => ?_⟩
          have goods := taken.resolve_right fun none' => by
            rw [none' some' among] at good
            contradiction
          obtain ⟨entry, logged, dedupe⟩ := all row inside (goods row inside)
          cases List.mem_append.1 logged with
          | inl before =>
              exact List.mem_append_left _ (tabled.own row (flat row inside) entry before dedupe)
          | inr fresh =>
              exact List.mem_append_right _
                (List.mem_filter.2 ⟨inside, (inserted row).2 ⟨entry, fresh, dedupe⟩⟩)
  · intro row counted
    cases List.mem_append.1 counted with
    | inl before => exact tabled.counted row before
    | inr fresh => exact flat row (List.mem_filter.1 fresh).1
  · refine List.nodup_append.2 ⟨tabled.nodup, (underway.sizes rows sent).2.filter _, ?_⟩
    rintro row before other fresh rfl
    obtain ⟨old, logged, dedupe, -⟩ := tabled.logged row before
    obtain ⟨entry, new', dedupe'⟩ := (inserted row).1 (List.mem_filter.1 fresh).2
    exact delivered.unseen entry new' old logged (dedupe.trans dedupe'.symm)
  · intro row counted
    rw [log]
    cases List.mem_append.1 counted with
    | inl before =>
        obtain ⟨entry, logged, known⟩ := tabled.logged row before
        exact ⟨entry, List.mem_append_left _ logged, known⟩
    | inr fresh =>
        have ⟨inside, marked⟩ := List.mem_filter.1 fresh
        obtain ⟨entry, new', dedupe⟩ := (inserted row).1 marked
        obtain ⟨other, among, _, dedupe', requests⟩ := delivered.ofRows entry new'
        obtain rfl := tabled.keys row (flat row inside) other (flat other among)
          (dedupe'.symm.trans dedupe)
        exact ⟨entry, List.mem_append_right _ new', dedupe,
          requests.trans (requests_of_sent recorded (flat other among))⟩
  · intro row inside entry logged dedupe
    rw [log] at logged
    cases List.mem_append.1 logged with
    | inl before => exact List.mem_append_left _ (tabled.own row inside entry before dedupe)
    | inr fresh =>
        obtain ⟨other, among, _, dedupe', -⟩ := delivered.ofRows entry fresh
        obtain rfl := tabled.keys row inside other (flat other among) (dedupe'.symm.trans dedupe)
        exact List.mem_append_right _
          (List.mem_filter.2 ⟨among, (inserted other).2 ⟨entry, fresh, dedupe⟩⟩)
  · intro call small
    rcases kept call small with waits | ⟨row, counted, among⟩ | lost
    · exact .inl waits
    · exact .inr (.inl ⟨row, List.mem_append_left _ counted, among⟩)
    · exact .inr (.inr lost)

/-- Step lemma, of a flush that ends: nothing waits any more. -/
theorem Setup.Sound.clear (sound : setup.Sound state) {index sent dropped : Nat} {flush : Flush}
    {droppedCalls : List Nat} (under : flush ∈ state.flushes)
    (grows : state.droppedCalls ⊆ droppedCalls)
    (accounted : ∀ row ∈ state.rows flush.batch, row ∈ state.counted ∨
      ∀ call ∈ row.calls, call ∈ droppedCalls) :
    setup.Sound {
      state with
      pending := []
      sent
      dropped
      flushes := state.flushes.eraseIdx index
      droppedCalls } := by
  have ⟨recorded, underway, tabled, kept⟩ := sound
  refine ⟨⟨fun _ waits => by contradiction, List.nodup_nil, recorded.own, recorded.below,
    recorded.requests, ?_⟩, ⟨?_, underway.sizes, underway.accepted⟩,
    ⟨tabled.keys, tabled.counted, tabled.nodup, tabled.logged, tabled.own⟩, ?_⟩
  · intro message inside row among
    obtain ⟨place, there, -⟩ := recorded.sent message inside row among
    exact ⟨place, there, fun waits => by contradiction⟩
  · intro other inside
    exact ⟨.inr rfl, (underway.batch other (List.mem_of_mem_eraseIdx inside)).2⟩
  · intro call small
    rcases kept call small with ⟨row, waits, among⟩ | counted | lost
    · rcases (underway.batch flush under).1 with same | none'
      · rcases accounted row (same ▸ waits) with counted | all
        · exact .inr (.inl ⟨row, counted, among⟩)
        · exact .inr (.inr (all call among))
      · rw [none'] at waits
        contradiction
    · exact .inr (.inl counted)
    · exact .inr (.inr (grows lost))

theorem Setup.Sound.drop (sound : setup.Sound state) {index : Nat} {flush : Flush}
    (under : flush ∈ state.flushes) : setup.Sound (state.drop index flush) :=
  sound.clear under (List.subset_append_left _ _) fun row inside => .inr fun call among =>
    List.mem_append_right _ (List.mem_flatMap.2 ⟨row, inside, among⟩)

/-- Step lemma, of a second try: the batch is what it was at the first. -/
theorem Setup.Sound.retry (sound : setup.Sound state) {index : Nat} {flush : Flush}
    (under : flush ∈ state.flushes) :
    setup.Sound {
      state with
      messages := state.messages ++ [state.rows flush.batch]
      flushes := state.flushes.set index
        { flush with message := state.messages.length, retried := true } } := by
  have ⟨recorded, underway, tabled, kept⟩ := sound
  have ⟨waits, first⟩ := underway.batch flush under
  have again : state.rows flush.batch ∈ state.messages := List.mem_of_getElem? first
  have sent : ∀ message ∈ state.messages ++ [state.rows flush.batch], message ∈ state.messages := by
    intro message inside
    cases List.mem_append.1 inside with
    | inl before => exact before
    | inr last => exact List.mem_singleton.1 last ▸ again
  have flat : ∀ row ∈ (state.messages ++ [state.rows flush.batch]).flatten,
      row ∈ state.messages.flatten := by
    intro row inside
    obtain ⟨message, among, there⟩ := List.mem_flatten.1 inside
    exact List.mem_flatten.2 ⟨message, sent message among, there⟩
  have grows : ∀ {place : Nat} {rows : List Row}, state.messages[place]? = some rows →
      (state.messages ++ [state.rows flush.batch])[place]? = some rows := fun found =>
    (List.getElem?_append_left (List.getElem?_eq_some_iff.1 found).1).trans found
  refine ⟨⟨recorded.inHeap, recorded.nodup, recorded.own, recorded.below, recorded.requests, ?_⟩,
    ⟨?_, fun message inside => underway.sizes message (sent message inside), ?_⟩,
    ⟨fun row inside other inside' => tabled.keys row (flat row inside) other (flat other inside'),
      ?_, tabled.nodup, tabled.logged, fun row inside => tabled.own row (flat row inside)⟩, kept⟩
  · intro message inside row among
    obtain ⟨place, there, busy⟩ := recorded.sent message (sent message inside) row among
    exact ⟨place, there, fun waits' none' => busy waits' ((List.set_eq_nil_iff _ _).1 none')⟩
  · intro other inside
    cases List.mem_or_eq_of_mem_set inside with
    | inl before =>
        have ⟨batch, message⟩ := underway.batch other before
        exact ⟨batch, grows message⟩
    | inr new =>
        subst new
        exact ⟨waits, List.getElem?_concat_length⟩
  · intro message accepted
    obtain ⟨rows, there, all⟩ := underway.accepted message accepted
    exact ⟨rows, grows there, all⟩
  · intro row counted
    obtain ⟨message, inside, among⟩ := List.mem_flatten.1 (tabled.counted row counted)
    exact List.mem_flatten.2 ⟨message, List.mem_append_left _ inside, among⟩

/-- Step lemma, of a request that settles. -/
theorem Setup.Sound.reply (sound : setup.Sound state) {index : Nat} {flush : Flush} {reply : Reply}
    (under : flush ∈ state.flushes) (settled : state.reply index flush reply = some after) :
    setup.Sound after := by
  cases reply with
  | ok =>
      rw [State.reply] at settled
      split at settled
      next answered =>
        obtain rfl := Option.some.inj settled
        obtain ⟨rows, there, all⟩ := sound.underway.accepted flush.message answered
        have same := there.symm.trans (sound.underway.batch flush under).2
        obtain rfl := Option.some.inj same
        exact sound.clear under (fun _ => id) fun row inside => .inl (all row inside)
      next => contradiction
  | refused =>
      obtain rfl := Option.some.inj settled
      exact sound.drop under
  | failed =>
      rw [State.reply] at settled
      split at settled
      next =>
        obtain rfl := Option.some.inj settled
        exact sound.drop under
      next =>
        obtain rfl := Option.some.inj settled
        exact sound.retry under

/-- Step lemma. -/
theorem Setup.Sound.next {label : Label} (sound : setup.Sound state) (orderly : setup.Orderly state label)
    (stepped : setup.next state label = some after) : setup.Sound after := by
  cases label with
  | record call now =>
      obtain rfl := Option.some.inj stepped
      exact sound.record orderly
  | flush =>
      obtain rfl := Option.some.inj stepped
      exact sound.flush orderly.1 orderly.2.1 orderly.2.2
  | deliver message now writes =>
      obtain ⟨rows, there, rfl⟩ := Option.map_eq_some_iff.1 stepped
      exact sound.deliver there (orderly rows there)
  | reply index reply =>
      obtain ⟨flush, there, settled⟩ := Option.bind_eq_some_iff.1 stepped
      exact sound.reply (List.mem_of_getElem? there) settled

theorem sound_start (store : Store) : setup.Sound { store } := by
  constructor
  · constructor <;> simp
  · constructor <;> simp
  · constructor <;> simp
  · intro call small
    contradiction

/-- What is kept accounts for every call. -/
theorem Setup.Sound.countsOnce (sound : setup.Sound state) : setup.CountsOnce state := by
  have ⟨recorded, underway, tabled, kept⟩ := sound
  have alone : ∀ row ∈ state.counted, ∀ other ∈ state.counted, ∀ call ∈ row.calls,
      call ∈ other.calls → row = other := by
    intro row counted other counted' call among among'
    obtain ⟨message, inside, there⟩ := List.mem_flatten.1 (tabled.counted row counted)
    obtain ⟨message', inside', there'⟩ := List.mem_flatten.1 (tabled.counted other counted')
    obtain ⟨index, found, -⟩ := recorded.sent message inside row there
    obtain ⟨index', found', -⟩ := recorded.sent message' inside' other there'
    obtain rfl := recorded.own index index' row other call found found' among among'
    exact Option.some.inj (found.symm.trans found')
  have atMostOnce : ∀ call, state.timesCounted call ≤ 1 := by
    intro call
    have nodup := tabled.nodup.filter fun row : Row => row.calls.contains call
    rw [State.timesCounted, ← List.toFinset_card_of_nodup nodup, Finset.card_le_one]
    intro row inside other inside'
    have ⟨counted, among⟩ := List.mem_filter.1 (List.mem_toFinset.1 inside)
    have ⟨counted', among'⟩ := List.mem_filter.1 (List.mem_toFinset.1 inside')
    exact alone row counted other counted' call (List.contains_iff_mem.1 among)
      (List.contains_iff_mem.1 among')
  refine ⟨tabled.logged, atMostOnce, fun none' call small => ?_⟩
  rcases kept call small with ⟨row, waits, -⟩ | ⟨row, counted, among⟩ | lost
  · rw [none'] at waits
    contradiction
  · have some' : 0 < state.timesCounted call :=
      List.length_pos_of_mem (List.mem_filter.2 ⟨counted, List.contains_iff_mem.2 among⟩)
    exact .inl (le_antisymm (atMostOnce call) some')
  · exact .inr lost

end Sound

/-- In every interleaving in which no call is recorded while a flush is under way, no flush finds more
than two hundred records, the Worker takes all records of a batch or none, and no two records have one
key, every call is counted once, or reported as dropped. -/
theorem counts_once (setup : Setup) (state : State)
    (reached : Reachable setup.system setup.Orderly state) : setup.CountsOnce state := by
  have sound : setup.Sound state := by
    apply reached.invariant
    · rintro state ⟨store, rfl⟩
      exact sound_start store
    · exact fun _ _ _ _ sound orderly stepped => sound.next orderly stepped
  exact sound.countsOnce

/-- A runner that reports to a Worker. -/
def runner : Setup where
  platform := twoTimes
  quotas := []
  enabled := true
  source := .runner

/-- A 429 of a model. -/
def limited (model : String) : Label :=
  .record {
    provider := ofString "groq"
    model := some (ofString model)
    status := .rateLimited
    tokensIn := none
    tokensOut := none
    remainingRequests := none
    remainingTokens := none } 1767607200000

instance decidableApart (setup : Setup) (state : State) : Decidable (setup.Apart state) :=
  decidable_of_iff ((∀ row ∈ state.rows state.pending,
      ∀ other ∈ state.messages.flatten ++ state.rows state.pending,
        setup.dedupe other = setup.dedupe row → other = row) ∧
    ∀ row ∈ state.rows state.pending, ∀ entry ∈ state.store.usageLog,
      entry.dedupe = setup.dedupe row → row ∈ state.counted)
    ⟨fun both => ⟨both.1, both.2⟩, fun apart => ⟨apart.messages, apart.log⟩⟩

instance decidableOrderly (setup : Setup) (state : State) (label : Label) :
    Decidable (setup.Orderly state label) :=
  match label with
  | .record _ _ => decidable_of_iff (state.flushes.length = 0) List.length_eq_zero_iff
  | .flush => inferInstanceAs (Decidable (setup.enabled = true ∧ state.pending.length ≤ maxBatch ∧
      setup.Apart state))
  | .deliver message now _ => inferInstanceAs (Decidable (∀ rows ∈ state.messages[message]?,
      (∀ row ∈ rows, setup.isGood now row = true) ∨ ∀ row ∈ rows, setup.isGood now row = false))
  | .reply _ _ => inferInstanceAs (Decidable True)

theorem runner_start : runner.system.start {} := ⟨{}, rfl⟩

theorem orderlyRun_runs : (runner.system.exec runner.Orderly {}
    [limited "g", .flush, .deliver 0 1767607201000 none, .reply 0 .failed,
      .deliver 1 1767607202000 none, .reply 0 .ok]).any (fun state =>
        decide (state.timesCounted 0 = 1 ∧ state.messages.length = 2)) = true := by
  decide +kernel

theorem clearedRun_runs : (runner.system.exec always {}
    [limited "g", .flush, .deliver 0 1767607201000 none, limited "h", .reply 0 .ok]).any
      (fun state => decide (state.pending = [] ∧ 1 < state.recorded ∧ state.timesCounted 1 = 0 ∧
        1 ∉ state.droppedCalls)) = true := by
  decide +kernel

/-- The answer to a batch is lost, and it is sent again. -/
theorem counts_once_resent : ∃ state, state.timesCounted 0 = 1 ∧ state.messages.length = 2 ∧
    runner.CountsOnce state := by
  have ⟨state, reached, tested⟩ := Reachable.exists_of_exec (.start runner_start) orderlyRun_runs
  have ⟨counted, messages⟩ := of_decide_eq_true tested
  exact ⟨state, counted, messages, counts_once runner state reached⟩

/-- A call that is recorded while a batch is under way is cleared away with it. -/
theorem not_counts_once : ¬ ∀ (setup : Setup) (state : State), setup.enabled = true →
    Reachable setup.system always state → setup.CountsOnce state := by
  intro claim
  have ⟨state, reached, tested⟩ := Reachable.exists_of_exec (.start runner_start) clearedRun_runs
  have ⟨none', recorded, uncounted, unreported⟩ := of_decide_eq_true tested
  rcases (claim runner state rfl reached).settled none' 1 recorded with counted | dropped
  · rw [uncounted] at counted
    contradiction
  · exact unreported dropped

end UsageReporter

end TitanRunner
