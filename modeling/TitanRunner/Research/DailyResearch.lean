import TitanRunner.Lib.IsoDate
import TitanRunner.Policy.SafetyRules
import TitanRunner.Redacted
import TitanRunner.State.Repair
import TitanRunner.State.Strict

/-!
# The daily research digest

`research/dailyResearch.js`: one attempt a day, and what it leaves in `state/research.json` and
`state/views/research.json`.  The digest itself, the events and the log are left out; of the topics
only their ids are recorded.
-/

namespace TitanRunner

namespace Research

open Utf16 Regex Redact Policy StateSchema QueueFile IsoDate TransitionSystem

/-- `MAX_DIGEST_CHARS` -/
def maxDigestChars : Nat := 6000

/-- `MIN_USABLE_CHARS` -/
def minUsableChars : Nat := 80

/-! ## The text of a digest -/

section Digest

/-- `\r\n?` -/
def carriageReturn : Regex := seqs [lit 0xD, maybe (lit 0xA)]

/-- A code fence around the whole text; the capture is what it holds. -/
def fenced : Regex :=
  seqs [.start, text "```", maybe (alts [text "markdown", text "md"]), text "\n",
    .capture (lazyStar fun _ => true), text "\n```", .stop]

/-- `\s+\S*$` -/
def lastWord : Regex :=
  seqs [atLeast isSpaceUnit 1, star fun unit => !isSpaceUnit unit, .stop]

/-- `body.replace(/\s+\S*$/, '')` -/
def dropLastWord (body : Utf16) : Utf16 :=
  match lastWord.search none body with
  | some (before, cursor) => before ++ cursor.rest
  | none => body

/-- `sanitizeDigestBody` -/
def sanitizeDigestBody (answer : Option Utf16) : Utf16 :=
  let body := Utf16.trim (carriageReturn.replaceAll (fun _ => [0xA]) (answer.getD []))
  let body :=
    match fenced.search none body with
    | some (_, cursor) => Utf16.trim (cursor.captures.headD [])
    | none => body
  let body := redactString body
  if maxDigestChars < body.length then
    dropLastWord (body.take maxDigestChars) ++ ofString "\n\n_(truncated)_"
  else body

end Digest

/-- `pickTopics`: before 1970 there may be no topic at a place. -/
def pickTopics {Topic : Type} (topics : List Topic) (maxTopics : Nat) (date : Int) :
    List (Option Topic) :=
  if topics.length ≤ maxTopics then topics.map some
  else
    let start := (date / msPerDay).tmod topics.length
    (List.range maxTopics).map fun index =>
      let place := (start + index).tmod topics.length
      if place < 0 then none else topics[place.toNat]?

/-! ## One attempt -/

/-- What `registry.chat` comes to: an answer, of which anything may be missing, or an error. -/
inductive Reply where
  | answered (text service model : Option Utf16) (tokensUsed : Option Nat)
  | failed (failureClass code : Option Utf16)
  deriving DecidableEq, Repr

/-- The dependencies of one attempt, and what happens in it. -/
structure Attempt where
  now : Int
  enabled : Bool := true
  dryRun : Bool := false
  killSwitch : Bool := false
  drain : Bool := false
  autonomy : Option Utf16 := none
  shouldStop : Bool := false
  rules : SafetyRules := defaultSafetyRules
  /-- The digest of the day is there. -/
  digestExists : Bool := false
  retryMinutes : Int := 180
  /-- The ids of `topicsConfig`. -/
  topics : List Utf16
  maxTopics : Nat
  configuredIds : List Utf16
  reply : Reply

namespace Attempt

/-- `now.toISOString()` -/
def at' (attempt : Attempt) : Utf16 := ofString (toISOString attempt.now)

def date (attempt : Attempt) : Utf16 := attempt.at'.take 10

def digestFile (attempt : Attempt) : Utf16 := attempt.date ++ ofString "-research.md"

/-- `state/digests/<file>` -/
def digestPath (attempt : Attempt) : Utf16 := ofString "state/digests/" ++ attempt.digestFile

/-- What the safety rules are asked about. -/
def append (attempt : Attempt) : Policy.Action where
  kind := .tool
  toolId := some "daily_research_digest"
  effect := some .localWrite
  args := some (.object [(ofString "path", .string attempt.digestPath),
    (ofString "mode", .string (ofString "append"))])

end Attempt

/-- How an attempt ends, with what is recorded of it. -/
inductive Exit where
  /-- Nothing is recorded. -/
  | skipped (reason : Utf16)
  | failed (reason : Utf16)
  | empty (detail : Json)
  | written (provider model : Utf16) (topicIds : List Utf16) (preview : Utf16)

/-- `readState` of the text of the file, if there is one. -/
def readState (text : Option Utf16) : Json :=
  match text.bind Json.parse with
  | some (.object members) => .object members
  | some (.array items) => .array items
  | _ => .object []

section Run

variable (parse : Utf16 → Option Int)

/-- `state.lastStatus === 'skipped'`, not long ago; `Date.parse` is a parameter. -/
def backsOff (attempt : Attempt) (state : Json) : Bool :=
  let last :=
    match state.member (ofString "lastAttemptAt") with
    | none | some .null => []
    | some value => Validate.display value
  (state.member (ofString "lastStatus")).bind Json.string? == some (ofString "skipped") &&
    (parse last).any fun last => decide (attempt.now - last < attempt.retryMinutes * 60000)

/-- The answer, or the error, of the provider. -/
def settle (topicIds : List Utf16) : Reply → Exit
  | .failed failureClass code =>
      .failed ((failureClass.or code).getD (ofString "provider-error"))
  | .answered text service model tokensUsed =>
      let body := sanitizeDigestBody text
      if body.length < minUsableChars then
        .empty (.object [
          (ofString "provider", (service.map .string).getD .null),
          (ofString "model", (model.map .string).getD .null),
          (ofString "chars", numberOf body.length),
          (ofString "tokensUsed", (tokensUsed.map numberOf).getD .null)])
      else
        .written (service.getD (ofString "unknown")) (model.getD (ofString "unknown")) topicIds
          (body.take 1200)

/-- The way through `runDailyResearch`. -/
def exitOf (attempt : Attempt) (state : Json) : Exit :=
  if !attempt.enabled then .skipped (ofString "disabled")
  else if attempt.dryRun then .skipped (ofString "dry-run")
  else if attempt.killSwitch then .skipped (ofString "kill-switch")
  else if attempt.drain then .skipped (ofString "drain")
  else if attempt.autonomy = some (ofString "dry-run") then .skipped (ofString "autonomy-dry-run")
  else if attempt.shouldStop then .skipped (ofString "pulse-budget")
  else if (evaluateRules attempt.append attempt.rules).ask then .skipped (ofString "safety-rules")
  else if (state.member (ofString "lastDigestDate")).bind Json.string? == some attempt.date ||
      attempt.digestExists then
    .skipped (ofString "already-written")
  else if backsOff parse attempt state then .skipped (ofString "backoff")
  else if attempt.topics = [] then .skipped (ofString "no-topics")
  else if attempt.configuredIds = [] then .skipped (ofString "no-provider")
  else
    match (pickTopics attempt.topics attempt.maxTopics attempt.now).mapM id with
    | none => .skipped (ofString "error")
    | some topicIds => settle topicIds attempt.reply

end Run

/-- The patch an attempt records. -/
def Exit.patch (attempt : Attempt) : Exit → Option (List (String × Json))
  | .skipped _ => none
  | .failed reason =>
      some [("lastStatus", .string (ofString "skipped")), ("lastReason", .string reason)]
  | .empty detail =>
      some [("lastStatus", .string (ofString "skipped")),
        ("lastReason", .string (ofString "empty-response")), ("lastDetail", detail)]
  | .written provider model topicIds preview =>
      some [("lastStatus", .string (ofString "written")), ("lastReason", .null),
        ("lastDigestDate", .string attempt.date), ("lastDigestFile", .string attempt.digestPath),
        ("provider", .string provider), ("model", .string model),
        ("topicIds", .array (topicIds.map .string)), ("preview", .string preview),
        ("lastDetail", .null)]

/-- `{ version: RESEARCH_VERSION, ...state, lastAttemptAt: attempt.at, ...patch }` -/
def recordOf (attempt : Attempt) (state : Json) (patch : List (String × Json)) :
    List (Utf16 × Json) :=
  merge (assign (merge [(ofString "version", numberOf 1)] (spread state))
      (ofString "lastAttemptAt") (.string attempt.at'))
    (patch.map fun (name, value) => (ofString name, value))

/-! ## The scrubbed record -/

section Record

/-- The members that `out[key] = …` makes: `__proto__` is no member but the prototype. -/
def own (members : List (Utf16 × Json)) : List (Utf16 × Json) :=
  members.filter fun member => member.1 != Inherited.proto

mutual

/-- What an object that is a prototype has under a name. -/
def inherits (name : Utf16) : Json → Option Json
  | .object members => ((Json.object (own members)).member name).or (prototypeHas name members)
  | _ => none

/-- What the prototype has that the last `__proto__` sets. -/
def prototypeHas (name : Utf16) : List (Utf16 × Json) → Option Json
  | [] => none
  | (key, value) :: members =>
      if (members.map Prod.fst).contains Inherited.proto then prototypeHas name members
      else if key = Inherited.proto then inherits name value
      else none

end

/-- `next[name]` -/
def plain (members : List (Utf16 × Json)) (name : Utf16) : Option Json :=
  ((Json.object (own members)).member name).or (prototypeHas name members)

end Record

/-- `state[name] ?? otherwise` -/
def orElse (next : List (Utf16 × Json)) (name : String) (otherwise : Json) : Json :=
  match plain next (ofString name) with
  | none | some .null => otherwise
  | some value => value

/-- The digest in the view. -/
def digestOf (next : List (Utf16 × Json)) : Json :=
  if (orElse next "lastDigestDate" .null).truthy then
    .object [
      (ofString "date", orElse next "lastDigestDate" .null),
      (ofString "file", orElse next "lastDigestFile" .null),
      (ofString "provider", orElse next "provider" .null),
      (ofString "model", orElse next "model" .null),
      (ofString "topics", orElse next "topicIds" (.array [])),
      (ofString "preview", orElse next "preview" .null)]
  else .null

/-- What `writeResearchView` shows. -/
def viewOf (attempt : Attempt) (next : List (Utf16 × Json)) : Json := .object [
  (ofString "version", numberOf 1),
  (ofString "updatedAt", .string attempt.at'),
  (ofString "lastAttemptAt", orElse next "lastAttemptAt" .null),
  (ofString "lastStatus", orElse next "lastStatus" .null),
  (ofString "lastReason", orElse next "lastReason" .null),
  (ofString "digest", digestOf next)]

/-! ## The two files -/

inductive StateFile where
  | research | view
  deriving DecidableEq, Repr

/-- The schema `schemaFor` gives for the path of the file. -/
def StateFile.schema : StateFile → Validate.Schema
  | .research => StrictSchema.research
  | .view => StrictSchema.researchView

/-- The texts of the two files, and the texts that were written so far. -/
structure World where
  research : Option Utf16
  view : Option Utf16
  written : List (StateFile × Utf16)
  deriving DecidableEq, Repr

namespace World

/-- `writeJson` of what was scrubbed: a file that is the same is not written. -/
def writeResearch (world : World) (payload : Json) : World :=
  if world.research = some (serialise payload) then world
  else
    { world with
      research := some (serialise payload)
      written := world.written ++ [(.research, serialise payload)] }

/-- `writeView`: nor is one that differs in `updatedAt` alone. -/
def writeView (world : World) (payload : Json) : World :=
  if world.view.map stripUpdatedAt = some (stripUpdatedAt (serialise payload)) then world
  else
    { world with
      view := some (serialise payload)
      written := world.written ++ [(.view, serialise payload)] }

/-- `record` -/
def record (world : World) (attempt : Attempt) (patch : List (String × Json)) : World :=
  let next := walkMembers 1 (recordOf attempt (readState world.research) patch)
  (world.writeResearch (scrubForState (.object (own next)))).writeView
    (scrubForState (viewOf attempt next))

/-- `runDailyResearch`.  A date without a text ends it before anything is read. -/
def runDailyResearch (parse : Utf16 → Option Int) (world : World) (attempt : Attempt) : World :=
  if isTimeValue attempt.now then
    match (exitOf parse attempt (readState world.research)).patch attempt with
    | none => world
    | some patch => world.record attempt patch
  else world

end World

/-- The attempts, from any two files on. -/
def system (parse : Utf16 → Option Int) : System World Attempt where
  start := fun world => world.written = []
  next := fun world attempt => some (world.runDailyResearch parse attempt)

end Research

end TitanRunner
