import TitanRunner.Lib.Inherited
import TitanRunner.Lib.IsoDate
import TitanRunner.Lib.JsonNumbers
import TitanRunner.Lib.KeyedList
import TitanRunner.Lib.RegexSpans
import TitanRunner.Lib.SplitJoin
import Mathlib.Algebra.GroupWithZero.Nat

/-!
# Usage records

`handleOpsUsagePost` of `ops.js` over the tables `usage_log` and `quota_state`.  Deliveries arrive at
any time and in any order, and each may stop after any of its database writes.
-/

namespace TitanRunner

namespace UsageIngest

open Utf16 Regex

/-! ## Records -/

inductive Source where
  | titan | runner
  deriving DecidableEq, Repr

def Source.name : Source → Utf16
  | .titan => ofString "titan"
  | .runner => ofString "runner"

inductive Status where
  | ok | error | rateLimited
  deriving DecidableEq, Repr

def Status.name : Status → Utf16
  | .ok => ofString "ok"
  | .error => ofString "error"
  | .rateLimited => ofString "rate_limited"

def isNameUnit (unit : UInt16) : Bool := isLower unit || isDigit unit || among "_.-" unit

/-- `NAME` -/
def nameBody : Regex := .seq (.oneOf isLower) (.repeat' isNameUnit 0 (some 39) false)

def isModelUnit (unit : UInt16) : Bool := isAlnum unit || among "._:/@+-" unit

/-- `MODEL` -/
def modelBody : Regex :=
  alts [lit 0x2A, .seq (.oneOf isAlnum) (.repeat' isModelUnit 0 (some 119) false)]

/-- `ISO` -/
def isoBody : Regex :=
  let twoDigits := Regex.exactly isDigit 2
  seqs [Regex.exactly isDigit 4, text "-", twoDigits, text "-", twoDigits, text "T", twoDigits,
    text ":", twoDigits, text ":", twoDigits,
    maybe (seqs [text ".", .repeat' isDigit 1 (some 3) false]),
    alts [text "Z", seqs [.oneOf (among "+-"), twoDigits, text ":", twoDigits]]]

/-- The whole text matches. -/
def whole (body : Regex) : Regex := seqs [.start, body, .stop]

/-- A record that passes `USAGE_RECORD`. -/
structure UsageRecord where
  source : Source
  provider : Utf16
  model : Utf16
  requests : Nat
  tokensIn : Nat
  tokensOut : Nat
  status : Status
  ts : Utf16
  remainingRequests : Option Nat
  remainingTokens : Option Nat
  isName : (whole nameBody).test provider = true
  isModel : (whole modelBody).test model = true
  isIso : (whole isoBody).test ts = true
  deriving DecidableEq

/-- `count` -/
def countOf (value : Json) : Option Nat :=
  match value.integer? with
  | some number => if 0 ≤ number ∧ number ≤ 1000000000 then some number.toNat else none
  | none => none

/-- A member that may be missing. -/
def optional (value : Json) (name : String) : Option (Option Nat) :=
  match value.member (ofString name) with
  | none => some none
  | some value => (countOf value).map some

def fields : List Utf16 :=
  ["source", "provider", "model", "requests", "tokens_in", "tokens_out", "status", "ts",
    "remaining_requests", "remaining_tokens"].map ofString

/-- A member that the schema does not list passes if every object inherits its name: `in` finds it
among the properties.  The schema it finds is a function, which admits any value, or for `__proto__`
an object without keywords. -/
def passesUnlisted : Nat → Utf16 → Json → Bool
  | 0, _, _ => false
  | depth + 1, name, value =>
      Inherited.isInherited name && (name ≠ Inherited.proto ||
        match value with
        | .object members => members.all fun entry =>
            passesUnlisted depth entry.1 ((value.member entry.1).getD .null)
        | _ => true)

/-- The members of an object are listed, or pass. -/
def isClosed (value : Json) : Bool :=
  match value with
  | .object members => members.all fun entry =>
      fields.contains entry.1 || passesUnlisted 10 entry.1 ((value.member entry.1).getD .null)
  | _ => false

/-- `validate(USAGE_RECORD, record)` finds no problem. -/
def readRecord (value : Json) : Option UsageRecord :=
  let member := fun name : String => value.member (ofString name)
  if isClosed value then do
    let source ← [Source.titan, .runner].find? fun source =>
      (member "source").bind Json.string? = some source.name
    let provider ← (member "provider").bind Json.string?
    let model ← (member "model").bind Json.string?
    let requests ← (member "requests").bind countOf
    let tokensIn ← (member "tokens_in").bind countOf
    let tokensOut ← (member "tokens_out").bind countOf
    let status ← [Status.ok, .error, .rateLimited].find? fun status =>
      (member "status").bind Json.string? = some status.name
    let ts ← (member "ts").bind Json.string?
    let remainingRequests ← optional value "remaining_requests"
    let remainingTokens ← optional value "remaining_tokens"
    if proper : (whole nameBody).test provider = true ∧ (whole modelBody).test model = true ∧
        (whole isoBody).test ts = true then
      if ts.length ≤ 40 then
        some {
          source, provider, model, requests, tokensIn, tokensOut, status, ts, remainingRequests
          remainingTokens
          isName := proper.1
          isModel := proper.2.1
          isIso := proper.2.2 }
      else none
    else none
  else none

/-- The text of a count that may be missing. -/
def numberText (count : Option Nat) : Utf16 := (count.map ofNat).getD []

def UsageRecord.pieces (record : UsageRecord) : List Utf16 :=
  [record.source.name, record.provider, record.model, record.ts, record.status.name,
    ofNat record.requests, ofNat record.tokensIn, ofNat record.tokensOut,
    numberText record.remainingRequests, numberText record.remainingTokens]

/-- The text that `dedupeKey` hashes. -/
def UsageRecord.dedupeText (record : UsageRecord) : Utf16 := join (ofString "|") record.pieces

/-! ## The day and the limits -/

/-- What the Worker has from the platform. -/
structure Platform where
  /-- `Date.parse` -/
  dateParse : Utf16 → Option Int
  sha256Hex : Utf16 → Utf16
  /-- The day of Los Angeles that a time falls in, and the start of the next one. -/
  pacificDay : Int → Int × Int

/-- An entry of `config/quotas.json`. -/
structure ProviderLimits where
  /-- `reset` is `pacific-midnight`. -/
  pacific : Bool := false
  /-- The model entries, and whether the scope of each is the provider. -/
  models : List (Utf16 × Bool) := []

abbrev Quotas := List (Utf16 × ProviderLimits)

/-- `String(provider).replace(/_\d+$/, '')` -/
def providerKey (provider : Utf16) : Utf16 :=
  match provider.reverse.dropWhile isDigit with
  | 0x5F :: before => if before.length + 1 < provider.length then before.reverse else provider
  | _ => provider

/-- What `quotas.providers[…]` is. -/
inductive Provider where
  | missing
  | limits (limits : ProviderLimits)
  /-- It is inherited, and has no models. -/
  | inherited

def Quotas.provider (quotas : Quotas) (provider : Utf16) : Provider :=
  match quotas.find? (·.1 = providerKey provider) with
  | some entry => .limits entry.2
  | none =>
      if Inherited.isInherited (providerKey provider) then .inherited else .missing

/-- The key and the scope of the entry for a model. -/
def ProviderLimits.entry (limits : ProviderLimits) (model : Utf16) : Option (Utf16 × Bool) :=
  match limits.models.find? (·.1 = model) with
  | some entry => some entry
  | none =>
      if Inherited.isInherited model then some (model, false)
      else
        let patterns := (limits.models.filter fun entry =>
          entry.1.head? = some 0x2A && 1 < entry.1.length).mergeSort
            fun entry other => other.1.length ≤ entry.1.length
        match patterns.find? fun entry => entry.1.tail.isSuffixOf model with
        | some entry => some entry
        | none => limits.models.find? (·.1 = [0x2A])

/-- `resolveLimit`: the limits with the entry, where there is one; it throws where the provider is
inherited. -/
def Quotas.resolveLimit (quotas : Quotas) (provider model : Utf16) :
    Except Unit (Option (ProviderLimits × Utf16 × Bool)) :=
  match quotas.provider provider with
  | .missing => .ok none
  | .inherited => .error ()
  | .limits limits => .ok ((limits.entry model).map (limits, ·))

def msPerDay : Int := 86400000

/-- `dayWindow`: the start of the day, and of the next one. -/
def Platform.dayWindow (platform : Platform) (pacific : Bool) (now : Int) : Int × Int :=
  if pacific then platform.pacificDay now
  else (now / msPerDay * msPerDay, now / msPerDay * msPerDay + msPerDay)

def iso (time : Int) : Utf16 := ofString (IsoDate.toISOString time)

def Platform.blockedUntilAfter429 (platform : Platform) (quotas : Quotas) (provider : Utf16)
    (time : Int) : Utf16 :=
  let pacific := match quotas.provider provider with
    | .limits limits => limits.pacific
    | _ => false
  iso (platform.dayWindow pacific time).2

/-! ## Tables -/

/-- The columns of `usage_log`, apart from the id and the time of arrival. -/
structure Columns where
  dedupe : Utf16
  source : Source
  provider : Utf16
  model : Utf16
  requests : Nat
  tokensIn : Nat
  tokensOut : Nat
  status : Status
  ts : Utf16
  remainingRequests : Option Nat
  remainingTokens : Option Nat
  deriving DecidableEq

structure LogRow extends Columns where
  receivedAt : Utf16
  deriving DecidableEq

/-- The columns of `quota_state` that a record decides. -/
structure Facts where
  blockedUntil : Option Utf16 := none
  last429At : Option Utf16 := none
  observedRemainingRequests : Option Nat := none
  observedRemainingTokens : Option Nat := none
  observedAt : Option Utf16 := none
  deriving DecidableEq

structure QuotaRow extends Facts where
  provider : Utf16
  model : Utf16
  usedDayAtObservation : Option Nat := none
  deriving DecidableEq

def QuotaRow.key (row : QuotaRow) : Utf16 × Utf16 := (row.provider, row.model)

structure Store where
  usageLog : List LogRow := []
  quotaState : List QuotaRow := []

/-- `new Date(Date.parse(r.ts)).toISOString()`, of a time that can be read -/
def Platform.time (platform : Platform) (record : UsageRecord) : Int :=
  (platform.dateParse record.ts).getD 0

def Platform.columns (platform : Platform) (record : UsageRecord) : Columns where
  dedupe := platform.sha256Hex record.dedupeText
  source := record.source
  provider := record.provider
  model := record.model
  requests := record.requests
  tokensIn := record.tokensIn
  tokensOut := record.tokensOut
  status := record.status
  ts := iso (platform.time record)
  remainingRequests := record.remainingRequests
  remainingTokens := record.remainingTokens

/-- The `INSERT OR IGNORE` of a batch, with the records that are new. -/
def Platform.insertAll (platform : Platform) (now : Int) (log : List LogRow) :
    List UsageRecord → List LogRow × List UsageRecord
  | [] => (log, [])
  | record :: rest =>
      let columns := platform.columns record
      if log.any (·.dedupe = columns.dedupe) then platform.insertAll now log rest
      else
        let (after, new) := platform.insertAll now
          (log ++ [{ toColumns := columns, receivedAt := iso now }]) rest
        (after, record :: new)

def UsageRecord.key (record : UsageRecord) : Utf16 × Utf16 := (record.provider, record.model)

/-- `INSERT INTO quota_state … ON CONFLICT(provider, model) DO UPDATE` -/
def Store.upsert (store : Store) (record : UsageRecord) (change : QuotaRow → QuotaRow) : Store :=
  let row := change ((KeyedList.get QuotaRow.key store.quotaState record.key).getD
    { provider := record.provider, model := record.model })
  let keyed := { row with provider := record.provider, model := record.model }
  { store with quotaState := KeyedList.insert QuotaRow.key store.quotaState keyed }

/-- `matcherFor` -/
def matcherFor (entryKey : Utf16) (ofProvider : Bool) (model other : Utf16) : Bool :=
  if !ofProvider then other = model
  else if entryKey = [0x2A] then true
  else if entryKey.head? = some 0x2A then entryKey.tail.isSuffixOf other
  else other = entryKey

/-- `sumRequests` -/
def sumRequests (rows : List LogRow) (provider : Utf16) (matcher : Utf16 → Bool) (since : Utf16) :
    Nat :=
  ((rows.filter fun row => row.provider = provider && matcher row.model &&
    !decide (row.ts < since)).map (·.requests)).sum

/-- A 429 holds the model until the reset. -/
def Platform.limit (platform : Platform) (quotas : Quotas) (record : UsageRecord) (facts : Facts) :
    Facts :=
  { facts with
    blockedUntil := some (platform.blockedUntilAfter429 quotas record.provider
      (platform.time record))
    last429At := some (iso (platform.time record)) }

/-- A header shows what is left. -/
def Platform.observe (platform : Platform) (record : UsageRecord) (facts : Facts) : Facts :=
  { facts with
    observedRemainingRequests := record.remainingRequests
    observedRemainingTokens := record.remainingTokens
    observedAt := some (iso (platform.time record)) }

def UsageRecord.hasRemaining (record : UsageRecord) : Bool :=
  record.remainingRequests.isSome || record.remainingTokens.isSome

/-- A write, or an exception. -/
abbrev Write := Option (Store → Store)

/-- The write of what is left. -/
def Platform.observation (platform : Platform) (quotas : Quotas) (now : Int)
    (record : UsageRecord) : Write :=
  match quotas.resolveLimit record.provider record.model with
  | .error _ => none
  | .ok found => some fun store =>
      let since := iso (platform.dayWindow (found.any (·.1.pacific)) now).1
      let matcher := match found with
        | some (_, matched, ofProvider) => matcherFor matched ofProvider record.model
        | none => matcherFor [0x2A] false record.model
      let usedDay := sumRequests store.usageLog record.provider matcher since
      store.upsert record fun row =>
        { row with
          toFacts := platform.observe record row.toFacts
          usedDayAtObservation := some usedDay }

/-- The writes that follow a new record. -/
def Platform.writesOf (platform : Platform) (quotas : Quotas) (now : Int) (record : UsageRecord) :
    List Write :=
  (if record.status = .rateLimited then
    [some fun store => store.upsert record fun row =>
      { row with toFacts := platform.limit quotas record row.toFacts }]
  else []) ++
    if record.hasRemaining then [platform.observation quotas now record] else []

/-! ## Deliveries -/

/-- A body that is JSON, at a time, and how many writes are made before the Worker stops, if it
does. -/
structure Delivery where
  now : Int
  body : Json
  writes : Option Nat := none

/-- `MAX_RECORDS` -/
def maxRecords : Nat := 500

/-- The record is not in the future, and not too old. -/
def Platform.isTimely (platform : Platform) (now : Int) (record : UsageRecord) : Bool :=
  (platform.dateParse record.ts).all fun ts =>
    ts ≤ now + 3600000 && now - 40 * msPerDay ≤ ts

/-- The good records of a body. -/
def Platform.good (platform : Platform) (delivery : Delivery) : List UsageRecord :=
  let values := match delivery.body with
    | .array items => items
    | value => [value]
  if values.length = 0 || maxRecords < values.length then []
  else (values.filterMap readRecord).filter (platform.isTimely delivery.now)

/-- Make writes until the Worker stops; false if it does or an exception is thrown. -/
def perform : Option Nat → List Write → Store → Store × Bool
  | _, [], store => (store, true)
  | some 0, _ :: _, store => (store, false)
  | _, none :: _, store => (store, false)
  | left, some write :: rest, store => perform (left.map (· - 1)) rest (write store)

/-- The handler; the answer is true if it comes to its end. -/
def Platform.handleOpsUsagePost (platform : Platform) (quotas : Quotas) (store : Store)
    (delivery : Delivery) : Store × Bool :=
  let good := platform.good delivery
  if good.isEmpty then (store, true)
  -- a date that cannot be read has no text
  else if good.any fun record => (platform.dateParse record.ts).isNone then (store, false)
  else
    let (log, new) := platform.insertAll delivery.now store.usageLog good
    perform delivery.writes
      (some (fun store => { store with usageLog := log }) ::
        new.flatMap (platform.writesOf quotas delivery.now)) store

/-- The deliveries of a history, from empty tables. -/
def Platform.run (platform : Platform) (quotas : Quotas) (history : List Delivery) :
    Store × Bool :=
  history.foldl (fun (store, answered) delivery =>
    let (store, ended) := platform.handleOpsUsagePost quotas store delivery
    (store, answered && ended)) ({}, true)

/-! ## Order of arrival -/

/-- No two of the records have one hash for two texts. -/
def Platform.Distinct (platform : Platform) (records : List UsageRecord) : Prop :=
  ∀ record ∈ records, ∀ other ∈ records,
    platform.sha256Hex record.dedupeText = platform.sha256Hex other.dedupeText →
      record.dedupeText = other.dedupeText

/-- The records that a delivery brings into the table, if they are not there. -/
def Platform.stored (platform : Platform) (delivery : Delivery) : List UsageRecord :=
  if delivery.writes = some 0 ||
      (platform.good delivery).any fun record => (platform.dateParse record.ts).isNone then []
  else platform.good delivery

/-- The records of a history that were brought into the table. -/
def Platform.accepted (platform : Platform) (history : List Delivery) : List UsageRecord :=
  history.flatMap platform.stored

def arrive (seen : List UsageRecord) (record : UsageRecord) : List UsageRecord :=
  if record ∈ seen then seen else seen ++ [record]

/-- The records in the order in which each arrived first. -/
def arrived (records : List UsageRecord) : List UsageRecord := records.foldl arrive []

/-- What a record says of its provider and model. -/
def Platform.tell (platform : Platform) (quotas : Quotas) (facts : Facts) (record : UsageRecord) :
    Facts :=
  let facts := if record.status = .rateLimited then platform.limit quotas record facts else facts
  if record.hasRemaining then platform.observe record facts else facts

/-- What the records say of a provider and a model, the last one that says it. -/
def Platform.factsOf (platform : Platform) (quotas : Quotas) (records : List UsageRecord)
    (key : Utf16 × Utf16) : Facts :=
  (records.filter fun record => record.key = key).foldl (platform.tell quotas) {}

/-- The columns of the row of a provider and a model. -/
def Store.facts (store : Store) (key : Utf16 × Utf16) : Facts :=
  ((KeyedList.get QuotaRow.key store.quotaState key).map QuotaRow.toFacts).getD {}

section Keys

theorem not_mem_ofNat {number : Nat} : 0x7C ∉ ofNat number := by
  intro inside
  have digit := Json.isDigit_of_mem_ofNat inside
  contradiction

theorem ofNat_ne_nil {number : Nat} : ofNat number ≠ [] := by
  obtain ⟨unit, rest, same, _⟩ := Json.ofNat_starts number
  rw [same]
  exact List.cons_ne_nil _ _

theorem not_mem_numberText {count : Option Nat} : 0x7C ∉ numberText count := by
  cases count with
  | none => exact List.not_mem_nil
  | some number => exact not_mem_ofNat

theorem numberText_injective {count other : Option Nat}
    (same : numberText count = numberText other) : count = other := by
  cases count with
  | none =>
      cases other with
      | none => rfl
      | some number => exact absurd same.symm ofNat_ne_nil
  | some number =>
      cases other with
      | none => exact absurd same ofNat_ne_nil
      | some number' => exact congrArg some (Json.ofNat_injective same)

theorem Source.name_injective {source other : Source} (same : source.name = other.name) :
    source = other := by
  revert same
  cases source <;> cases other <;> decide

theorem Status.name_injective {status other : Status} (same : status.name = other.name) :
    status = other := by
  revert same
  cases status <;> cases other <;> decide

/-- The patterns leave no bar in a piece. -/
theorem not_mem_pieces (record : UsageRecord) : ∀ piece ∈ record.pieces, 0x7C ∉ piece := by
  have unmentioned : ∀ body : Regex, ∀ text : Utf16, (whole body).test text = true →
      body.mentions 0x7C = false → 0x7C ∉ text := by
    intro body text passed free inside
    rw [units_of_anchored passed inside] at free
    contradiction
  have source : 0x7C ∉ record.source.name := by
    cases record.source <;> decide
  have status : 0x7C ∉ record.status.name := by
    cases record.status <;> decide
  have provider := unmentioned _ _ record.isName (by decide)
  have model := unmentioned _ _ record.isModel (by decide)
  have ts := unmentioned _ _ record.isIso (by decide)
  simp only [UsageRecord.pieces, List.forall_mem_cons, List.not_mem_nil, false_imp_iff,
    implies_true, and_true]
  exact ⟨source, provider, model, ts, status, not_mem_ofNat, not_mem_ofNat, not_mem_ofNat,
    not_mem_numberText, not_mem_numberText⟩

/-- The text that is hashed tells the record. -/
theorem dedupeText_injective {record other : UsageRecord}
    (same : record.dedupeText = other.dedupeText) : record = other := by
  have pieces : record.pieces = other.pieces := by
    have split : ∀ record : UsageRecord, split 0x7C record.dedupeText = record.pieces :=
      fun record => split_join (List.cons_ne_nil _ _) (not_mem_pieces record)
    rw [← split record, same, split other]
  simp only [UsageRecord.pieces, List.cons.injEq, and_true] at pieces
  obtain ⟨source, provider, model, ts, status, requests, tokensIn, tokensOut, remaining,
    remaining'⟩ := pieces
  rw [UsageRecord.mk.injEq]
  exact ⟨Source.name_injective source, provider, model, Json.ofNat_injective requests,
    Json.ofNat_injective tokensIn, Json.ofNat_injective tokensOut, Status.name_injective status,
    ts, numberText_injective remaining, numberText_injective remaining'⟩

end Keys

section Tables

variable {platform : Platform} {quotas : Quotas} {now : Int} {record : UsageRecord}
  {records seen all : List UsageRecord} {log : List LogRow} {store : Store} {left : Option Nat}

theorem Platform.Distinct.mono (distinct : platform.Distinct all) (sub : records ⊆ all) :
    platform.Distinct records :=
  fun record inside other inside' => distinct record (sub inside) other (sub inside')

/-- A row with the record's key is the record's. -/
theorem any_dedupe_iff (distinct : platform.Distinct all) (seenIn : seen ⊆ all)
    (inside : record ∈ all) (rows : log.map LogRow.toColumns = seen.map platform.columns) :
    (log.any (·.dedupe = (platform.columns record).dedupe)) = true ↔ record ∈ seen := by
  have keys : log.map (·.dedupe) = seen.map fun other => platform.sha256Hex other.dedupeText := by
    have mapped := congrArg (List.map Columns.dedupe) rows
    rwa [List.map_map, List.map_map] at mapped
  have found : (log.any (·.dedupe = (platform.columns record).dedupe)) = true ↔
      platform.sha256Hex record.dedupeText ∈ log.map (·.dedupe) := by
    simp only [List.any_eq_true, decide_eq_true_eq, List.mem_map]
    rfl
  rw [found, keys, List.mem_map]
  constructor
  · rintro ⟨other, there, same⟩
    have text := distinct other (seenIn there) record inside same
    exact dedupeText_injective text ▸ there
  · exact fun there => ⟨record, there, rfl⟩

theorem arrive_subset (inside : record ∈ all) (seenIn : seen ⊆ all) : arrive seen record ⊆ all := by
  unfold arrive
  split
  next => exact seenIn
  next =>
    intro other there
    cases List.mem_append.1 there with
    | inl before => exact seenIn before
    | inr last => exact List.mem_singleton.1 last ▸ inside

/-- The rows of a batch are those of the records that have arrived, and the new ones are reported. -/
theorem insertAll_spec (distinct : platform.Distinct all) (seenIn : seen ⊆ all)
    (within : records ⊆ all) (rows : log.map LogRow.toColumns = seen.map platform.columns) :
    (platform.insertAll now log records).1.map LogRow.toColumns =
        (records.foldl arrive seen).map platform.columns ∧
      records.foldl arrive seen = seen ++ (platform.insertAll now log records).2 := by
  induction records generalizing log seen with
  | nil => exact ⟨rows, (List.append_nil _).symm⟩
  | cons record rest ih =>
      have inside : record ∈ all := within List.mem_cons_self
      have within' : rest ⊆ all := fun other there => within (List.mem_cons_of_mem _ there)
      have known := any_dedupe_iff distinct seenIn inside rows
      rw [Platform.insertAll, List.foldl_cons, arrive]
      dsimp only
      by_cases there : record ∈ seen
      · rw [if_pos there, if_pos (known.2 there)]
        exact ih seenIn within' rows
      · rw [if_neg there, if_neg fun found => there (known.1 found)]
        have seenIn' : seen ++ [record] ⊆ all := by
          have sub := arrive_subset inside seenIn
          rwa [arrive, if_neg there] at sub
        have spec := @ih (seen ++ [record])
          (log ++ [{ toColumns := platform.columns record, receivedAt := iso now }]) seenIn' within'
          (by rw [List.map_append, List.map_append, rows]; rfl)
        refine ⟨spec.1, spec.2.trans ?_⟩
        rw [List.append_assoc, List.singleton_append]

/-- The write leaves the log alone. -/
def Write.Quiet (write : Write) : Prop :=
  ∀ change, write = some change → ∀ store, (change store).usageLog = store.usageLog

theorem usageLog_perform {writes : List Write} (quiet : ∀ write ∈ writes, Write.Quiet write) :
    (perform left writes store).1.usageLog = store.usageLog := by
  induction writes generalizing left store with
  | nil =>
      unfold perform
      rfl
  | cons write rest ih =>
      unfold perform
      split
      next => rfl
      next => rfl
      next => rfl
      next _ change rest' _ same =>
        cases same
        rw [ih fun other there => quiet other (List.mem_cons_of_mem _ there)]
        exact quiet _ List.mem_cons_self change rfl _

theorem quiet_writesOf : ∀ write ∈ platform.writesOf quotas now record, Write.Quiet write := by
  intro write there
  have upsert : ∀ (store : Store) (change : QuotaRow → QuotaRow),
      (store.upsert record change).usageLog = store.usageLog := fun _ _ => rfl
  cases List.mem_append.1 there with
  | inl limited =>
      split at limited
      next =>
        rintro change same store
        cases List.mem_singleton.1 limited
        cases same
        exact upsert _ _
      next => contradiction
  | inr observed =>
      split at observed
      next =>
        rintro change same store
        cases List.mem_singleton.1 observed
        unfold Platform.observation at same
        split at same
        next => contradiction
        next =>
          cases same
          exact upsert _ _
      next => contradiction

/-- What a delivery leaves in the log. -/
theorem usageLog_handle (distinct : platform.Distinct all) (seenIn : seen ⊆ all)
    (rows : store.usageLog.map LogRow.toColumns = seen.map platform.columns) {delivery : Delivery}
    (within : platform.stored delivery ⊆ all) :
    (platform.handleOpsUsagePost quotas store delivery).1.usageLog.map LogRow.toColumns =
      ((platform.stored delivery).foldl arrive seen).map platform.columns := by
  rw [Platform.stored] at within ⊢
  rw [Platform.handleOpsUsagePost]
  dsimp only
  split
  next empty =>
    rw [List.isEmpty_iff.1 empty, ite_self]
    exact rows
  next =>
    split
    next unreadable =>
      rw [unreadable, Bool.or_true, if_pos rfl]
      exact rows
    next readable =>
      rw [Bool.not_eq_true] at readable
      rw [readable, Bool.or_false] at within ⊢
      by_cases stopped : delivery.writes = some 0
      · rw [stopped, if_pos (decide_eq_true rfl), perform]
        exact rows
      · rw [if_neg (by simpa using stopped)] at within ⊢
        rw [perform]
        · rw [usageLog_perform]
          · exact (insertAll_spec distinct seenIn within rows).1
          · intro write there
            obtain ⟨record, _, inside⟩ := List.mem_flatMap.1 there
            exact quiet_writesOf write inside
        · exact stopped

/-- Writes that all succeed are made one after the other. -/
theorem perform_append {first second : List Write}
    (ended : (perform left (first ++ second) store).2 = true) :
    (perform left first store).2 = true ∧ ∃ left',
      perform left (first ++ second) store = perform left' second (perform left first store).1 := by
  induction first generalizing left store with
  | nil =>
      have nothing : perform left [] store = (store, true) := by
        unfold perform
        rfl
      rw [nothing]
      exact ⟨rfl, left, rfl⟩
  | cons write rest ih =>
      rw [List.cons_append] at ended ⊢
      cases write with
      | none =>
          have stops : (perform left (none :: (rest ++ second)) store).2 = false := by
            cases left with
            | none => rfl
            | some left => cases left <;> rfl
          rw [stops] at ended
          contradiction
      | some change =>
          by_cases stopped : left = some 0
          · subst stopped
            contradiction
          · have further : ∀ rest : List Write, perform left (some change :: rest) store =
                perform (left.map (· - 1)) rest (change store) := fun rest => by
              rw [perform]
              exact stopped
            rw [further] at ended ⊢
            rw [further]
            exact ih ended

theorem facts_upsert {change : QuotaRow → QuotaRow} {tell : Facts → Facts}
    (tells : ∀ row, (change row).toFacts = tell row.toFacts) (key : Utf16 × Utf16) :
    (store.upsert record change).facts key =
      if record.key = key then tell (store.facts key) else store.facts key := by
  rw [Store.facts, Store.upsert]
  dsimp only
  rw [KeyedList.get_insert]
  by_cases same : record.key = key
  · have here : key = QuotaRow.key { change ((KeyedList.get QuotaRow.key store.quotaState
        record.key).getD { provider := record.provider, model := record.model }) with
          provider := record.provider, model := record.model } := same.symm
    rw [if_pos here, if_pos same, Option.map_some, Option.getD_some, Store.facts, ← same]
    dsimp only
    rw [tells]
    cases KeyedList.get QuotaRow.key store.quotaState record.key <;> rfl
  · have elsewhere : ¬ key = QuotaRow.key { change ((KeyedList.get QuotaRow.key store.quotaState
        record.key).getD { provider := record.provider, model := record.model }) with
          provider := record.provider, model := record.model } := fun here => same here.symm
    rw [if_neg elsewhere, if_neg same]
    rfl

theorem perform_nil : perform left [] store = (store, true) := by
  unfold perform
  rfl

theorem perform_singleton {write : Write} (ended : (perform left [write] store).2 = true) :
    ∃ change, write = some change ∧ (perform left [write] store).1 = change store := by
  cases write with
  | none =>
      cases left with
      | none => contradiction
      | some left => cases left <;> contradiction
  | some change =>
      refine ⟨change, rfl, ?_⟩
      by_cases stopped : left = some 0
      · subst stopped
        contradiction
      · rw [perform, perform_nil]
        exact stopped

/-- A 429 is told. -/
theorem facts_limit (key : Utf16 × Utf16) :
    (store.upsert record fun row =>
        { row with toFacts := platform.limit quotas record row.toFacts }).facts key =
      if record.key = key then platform.limit quotas record (store.facts key)
      else store.facts key :=
  facts_upsert (fun _ => rfl) key

/-- What is left is told. -/
theorem facts_observation {change : Store → Store}
    (is : platform.observation quotas now record = some change) (key : Utf16 × Utf16) :
    (change store).facts key =
      if record.key = key then platform.observe record (store.facts key) else store.facts key := by
  unfold Platform.observation at is
  split at is
  next => contradiction
  next =>
    cases is
    exact facts_upsert (fun _ => rfl) key

/-- What the writes of one record tell. -/
theorem facts_writesOf (ended : (perform left (platform.writesOf quotas now record) store).2 = true)
    (key : Utf16 × Utf16) :
    (perform left (platform.writesOf quotas now record) store).1.facts key =
      if record.key = key then platform.tell quotas (store.facts key) record
      else store.facts key := by
  rw [Platform.writesOf] at ended ⊢
  obtain ⟨first, left', rest⟩ := perform_append ended
  rw [rest] at ended ⊢
  have limited : ∀ middle, middle = (perform left (if record.status = .rateLimited then
      [some fun store => store.upsert record fun row =>
        { row with toFacts := platform.limit quotas record row.toFacts }] else []) store).1 →
      middle.facts key = if record.key = key then
        (if record.status = .rateLimited then platform.limit quotas record (store.facts key)
          else store.facts key)
      else store.facts key := by
    intro middle is
    split at first
    next is429 =>
      obtain ⟨change, same, made⟩ := perform_singleton first
      cases same
      rw [is, if_pos is429, made, facts_limit, if_pos is429]
    next other =>
      rw [is, if_neg other, if_neg other, perform_nil, ite_self]
  generalize (perform left _ store).1 = middle at limited ended ⊢
  have before := limited middle rfl
  by_cases observes : record.hasRemaining = true
  · rw [if_pos observes] at ended ⊢
    obtain ⟨change, same, made⟩ := perform_singleton ended
    rw [made, facts_observation same, before, Platform.tell, if_pos observes]
    split <;> rfl
  · rw [if_neg observes, perform_nil, before, Platform.tell, if_neg observes]

/-- What the writes of new records tell, one after the other. -/
theorem facts_perform (ended : (perform left
      (records.flatMap (platform.writesOf quotas now)) store).2 = true) (key : Utf16 × Utf16) :
    (perform left (records.flatMap (platform.writesOf quotas now)) store).1.facts key =
      (records.filter fun record => record.key = key).foldl (platform.tell quotas)
        (store.facts key) := by
  induction records generalizing left store with
  | nil =>
      rw [List.flatMap_nil, perform_nil]
      rfl
  | cons record rest ih =>
      rw [List.flatMap_cons] at ended ⊢
      obtain ⟨first, left', same⟩ := perform_append ended
      rw [same] at ended ⊢
      rw [ih ended, facts_writesOf first, List.filter_cons]
      by_cases here : record.key = key
      · rw [if_pos here, if_pos (decide_eq_true here), List.foldl_cons]
      · rw [if_neg here, if_neg (by simpa using here)]

/-- What a delivery that comes to its end tells. -/
theorem facts_handle (distinct : platform.Distinct all) (seenIn : seen ⊆ all)
    (rows : store.usageLog.map LogRow.toColumns = seen.map platform.columns) {delivery : Delivery}
    (within : platform.stored delivery ⊆ all)
    (ended : (platform.handleOpsUsagePost quotas store delivery).2 = true) {key : Utf16 × Utf16}
    (told : store.facts key = platform.factsOf quotas seen key) :
    (platform.handleOpsUsagePost quotas store delivery).1.facts key =
      platform.factsOf quotas ((platform.stored delivery).foldl arrive seen) key := by
  rw [Platform.stored] at within ⊢
  rw [Platform.handleOpsUsagePost] at ended ⊢
  dsimp only at ended ⊢
  split at ended
  next empty =>
    rw [if_pos empty, List.isEmpty_iff.1 empty, ite_self]
    exact told
  next some' =>
    rw [if_neg some']
    split at ended
    next => contradiction
    next readable =>
      rw [if_neg readable]
      rw [Bool.not_eq_true] at readable
      rw [readable, Bool.or_false] at within ⊢
      by_cases stopped : delivery.writes = some 0
      · rw [stopped] at ended
        contradiction
      · have made : ∀ rest : List Write, ∀ change : Store → Store,
            perform delivery.writes (some change :: rest) store =
              perform (delivery.writes.map (· - 1)) rest (change store) := fun rest change => by
          rw [perform]
          exact stopped
        rw [if_neg (by simpa using stopped)] at within ⊢
        rw [made] at ended ⊢
        have spec := (@insertAll_spec _ delivery.now _ _ _ _ distinct seenIn within rows).2
        rw [facts_perform ended, spec, Platform.factsOf, List.filter_append, List.foldl_append]
        exact congrArg (fun facts => List.foldl (platform.tell quotas) facts _) told

/-- What is known of the tables after a history. -/
structure After (platform : Platform) (quotas : Quotas) (history : List Delivery)
    (result : Store × Bool) : Prop where
  rows : result.1.usageLog.map LogRow.toColumns =
    (arrived (platform.accepted history)).map platform.columns
  told : result.2 = true → ∀ key,
    result.1.facts key = platform.factsOf quotas (arrived (platform.accepted history)) key

theorem arrived_subset : arrived records ⊆ records := by
  have sub : ∀ all rest seen : List UsageRecord, seen ⊆ all → rest ⊆ all →
      rest.foldl arrive seen ⊆ all := by
    intro all rest
    induction rest with
    | nil => exact fun _ seenIn _ => seenIn
    | cons record rest ih =>
        intro seen seenIn within
        exact ih _ (arrive_subset (within List.mem_cons_self) seenIn)
          fun _ there => within (List.mem_cons_of_mem _ there)
  exact sub records records [] (List.nil_subset _) (List.Subset.refl _)

/-- Step lemma: one more delivery. -/
theorem After.step {history : List Delivery} {delivery : Delivery} {result : Store × Bool}
    (distinct : platform.Distinct (platform.accepted (history ++ [delivery])))
    (known : After platform quotas history result) :
    After platform quotas (history ++ [delivery])
      ((platform.handleOpsUsagePost quotas result.1 delivery).1,
        result.2 && (platform.handleOpsUsagePost quotas result.1 delivery).2) := by
  have all : platform.accepted (history ++ [delivery]) =
      platform.accepted history ++ platform.stored delivery := by
    simp [Platform.accepted]
  have seenIn : arrived (platform.accepted history) ⊆ platform.accepted (history ++ [delivery]) := by
    rw [all]
    exact fun _ there => List.mem_append_left _ (arrived_subset there)
  have within : platform.stored delivery ⊆ platform.accepted (history ++ [delivery]) := by
    rw [all]
    exact List.subset_append_right _ _
  have next : arrived (platform.accepted (history ++ [delivery])) =
      (platform.stored delivery).foldl arrive (arrived (platform.accepted history)) := by
    rw [all, arrived, List.foldl_append]
    rfl
  constructor
  · rw [next]
    exact usageLog_handle distinct seenIn known.rows within
  · intro ended key
    rw [Bool.and_eq_true] at ended
    rw [next]
    exact facts_handle distinct seenIn known.rows within ended.2 (known.told ended.1 key)

/-- Run lemma. -/
theorem after_run {history : List Delivery}
    (distinct : platform.Distinct (platform.accepted history)) :
    After platform quotas history (platform.run quotas history) := by
  induction history using List.reverseRecOn with
  | nil => exact ⟨rfl, fun _ _ => rfl⟩
  | append_singleton history delivery ih =>
      have before : platform.accepted history ⊆ platform.accepted (history ++ [delivery]) := by
        intro record there
        rw [Platform.accepted, List.flatMap_append]
        exact List.mem_append_left _ there
      have known := (ih (distinct.mono before)).step distinct
      rw [Platform.run, List.foldl_append]
      exact known

theorem mem_arrived : record ∈ arrived records ↔ record ∈ records := by
  have mem : ∀ rest seen : List UsageRecord,
      record ∈ rest.foldl arrive seen ↔ record ∈ seen ∨ record ∈ rest := by
    intro rest
    induction rest with
    | nil => simp
    | cons other rest ih =>
        intro seen
        rw [List.foldl_cons, ih, arrive]
        split
        next there =>
          constructor
          · exact fun found => found.imp_right (List.mem_cons_of_mem _)
          · rintro (before | here)
            · exact .inl before
            · cases List.mem_cons.1 here with
              | inl same => exact .inl (same ▸ there)
              | inr later => exact .inr later
        next => simp only [List.mem_append, List.mem_cons, List.not_mem_nil, or_false, or_assoc]
  rw [arrived, mem]
  simp only [List.not_mem_nil, false_or]

theorem nodup_arrived : (arrived records).Nodup := by
  have nodup : ∀ rest seen : List UsageRecord, seen.Nodup → (rest.foldl arrive seen).Nodup := by
    intro rest
    induction rest with
    | nil => exact fun _ => id
    | cons other rest ih =>
        intro seen distinct
        apply ih
        unfold arrive
        split
        next => exact distinct
        next absent => exact distinct.append (List.nodup_singleton _) (by simpa using absent)
  exact nodup records [] .nil

end Tables

/-- A platform that knows two times and two hashes. -/
def twoTimes : Platform where
  dateParse text :=
    if text = ofString "2026-01-05T10:00:00.000Z" then some 1767607200000
    else if text = ofString "2026-01-06T10:00:00.000Z" then some 1767693600000
    else none
  sha256Hex text :=
    if text = ofString "runner|groq|g|2026-01-05T10:00:00.000Z|rate_limited|1|0|0||" then
      ofString "95a6279bd02b2721786d10f3ab5f14ee7b6885fc771c41db62cc35ccb8d42dd2"
    else if text = ofString "runner|groq|g|2026-01-06T10:00:00.000Z|rate_limited|1|0|0||" then
      ofString "d017517e6504a1940ce6a4ed92c624161ac78017e43b5f9f01382a60d5d783a3"
    else []
  pacificDay now := (now, now)

/-- A 429 that is reported. -/
def reported (ts : String) : Json :=
  .object ([("source", .string (ofString "runner")), ("provider", .string (ofString "groq")),
    ("model", .string (ofString "g")), ("requests", .number (ofString "1")),
    ("tokens_in", .number (ofString "0")), ("tokens_out", .number (ofString "0")),
    ("status", .string (ofString "rate_limited")), ("ts", .string (ofString ts))].map
      fun entry => (ofString entry.1, entry.2))

def older : Json := reported "2026-01-05T10:00:00.000Z"

def later : Json := reported "2026-01-06T10:00:00.000Z"

/-- Deliveries without a stop. -/
def deliver (bodies : List Json) : List Delivery :=
  bodies.map fun body => { now := 1767700000000, body }

theorem mem_iff_of_texts {records records' : List UsageRecord}
    (texts : ∀ text, text ∈ records.map UsageRecord.dedupeText ↔
      text ∈ records'.map UsageRecord.dedupeText) (record : UsageRecord) :
    record ∈ records ↔ record ∈ records' := by
  have injective : Function.Injective UsageRecord.dedupeText := fun _ _ => dedupeText_injective
  rw [← List.mem_map_of_injective injective, texts, List.mem_map_of_injective injective]

theorem mem_pair_iff {α : Type} (first second text : α) :
    (text ∈ [first, second] ↔ text ∈ [second, first]) ∧
      (text ∈ [first, second] ↔ text ∈ [second, first, second]) := by
  simp only [List.mem_cons, List.not_mem_nil, or_false]
  tauto

theorem distinct_of_texts {platform : Platform} {records : List UsageRecord}
    (texts : ∀ text ∈ records.map UsageRecord.dedupeText,
      ∀ other ∈ records.map UsageRecord.dedupeText,
        platform.sha256Hex text = platform.sha256Hex other → text = other) :
    platform.Distinct records :=
  fun _ inside _ inside' => texts _ (List.mem_map_of_mem inside) _ (List.mem_map_of_mem inside')

end UsageIngest

end TitanRunner
