import TitanRunner.Validate

/-!
# The schema of the queue file

`state/schema.js`: `TASK_SCHEMA`, `TASKS_FILE_SCHEMA`, and the migration that reads files of
the first version.
-/

namespace TitanRunner

namespace StateSchema

open Utf16 Validate

/-- `TASKS_SCHEMA_VERSION`. -/
def tasksSchemaVersion : Nat := 2

def words (texts : List String) : List Json := texts.map fun text => .string (ofString text)

/-- `TASK_STATUSES`. -/
def taskStatuses : List Json := words
  ["pending", "running", "waiting", "paused", "complete", "failed", "blocked", "cancelled",
    "expired", "dead-lettered", "pr-open"]

/-- `WAIT_REASONS`. -/
def waitReasons : List Json := words
  ["backoff", "dependency", "approval", "budget", "quota", "pulse-budget", "provider"]

/-- `PRIORITIES`. -/
def priorities : List Json := words ["low", "normal", "high", "urgent"]

/-- The keywords of a text. -/
def textOf (keywords : Keywords) : Schema := plain { keywords with types := [.string] }

def integerOf (keywords : Keywords) : Schema := plain { keywords with types := [.integer] }

def oneOf (allowed : List Json) : Schema := plain { enum := some allowed }

def oneOfOrNull (allowed : List Json) : Schema :=
  plain { enum := some (allowed ++ [.null]), nullable := true }

def boolean : Schema := plain { types := [.boolean] }

def iso : Schema := textOf { dateTime := true, nullable := true }

/-- A property and its schema. -/
def property (name : String) (schema : Schema) : Utf16 × Schema := (ofString name, schema)

def names (texts : List String) : List Utf16 := texts.map ofString

/-- `TASK_SCHEMA`. -/
def taskSchema : Schema :=
  objectOf { required := names ["id", "type", "title", "prompt", "status", "createdAt"] } [
    property "id" (textOf { minLength := some 1, maxLength := some 120 }),
    property "type" (oneOf (words ["task", "self-improve"])),
    property "issueNumber" (integerOf { nullable := true }),
    property "issueUrl" (textOf { nullable := true, maxLength := some 500 }),
    property "author" (textOf { nullable := true, maxLength := some 80 }),
    property "title" (textOf { maxLength := some 240 }),
    property "prompt" (textOf { maxLength := some 16000 }),
    property "priority" (oneOfOrNull priorities),
    property "routingHint" (oneOfOrNull (words ["fast", "cheap", "careful", "any"])),
    property "status" (oneOf taskStatuses),
    property "waitReason" (oneOfOrNull waitReasons),
    property "wakeAt" iso,
    property "createdAt" (textOf { dateTime := true }),
    property "claimedAt" iso,
    property "startedAt" iso,
    property "completedAt" iso,
    property "runId" (textOf { nullable := true }),
    property "prNumber" (integerOf { nullable := true }),
    property "prUrl" (textOf { nullable := true }),
    property "error" (textOf { nullable := true, maxLength := some 4000 }),
    property "attempts" (integerOf { minimum := some (ofNat 0) }),
    property "maxAttempts" (integerOf { minimum := some (ofNat 1) }),
    property "lease" (objectOf
      { nullable := true, required := names ["owner", "acquiredAt", "expiresAt"] } [
        property "owner" (textOf {}),
        property "acquiredAt" (textOf { dateTime := true }),
        property "expiresAt" (textOf { dateTime := true })]),
    property "dependsOn" (arrayOf { maxItems := some 32 } (textOf {})),
    property "parentId" (textOf { nullable := true }),
    property "deadline" iso,
    property "expiresAt" iso,
    property "idempotencyKey" (textOf { nullable := true, maxLength := some 64 }),
    property "failure" (objectOf { nullable := true } [
      property "class" (textOf {}),
      property "code" (textOf { nullable := true }),
      property "message" (textOf { maxLength := some 2000 }),
      property "at" (textOf {})]),
    property "history" (arrayOf { maxItems := some 40 }
      (objectOf { required := names ["at", "to"] } [
        property "at" (textOf {}),
        property "from" (textOf { nullable := true }),
        property "to" (textOf {}),
        property "reason" (textOf { nullable := true, maxLength := some 300 })])),
    property "autonomy" (oneOfOrNull (words ["dry-run", "propose", "approval", "autonomous"])),
    property "parks" (integerOf { minimum := some (ofNat 0) }),
    property "usage" (objectOf { nullable := true } [
      property "calls" (integerOf {}),
      property "tokens" (integerOf {}),
      property "wallMs" (integerOf {})]),
    property "cancelRequested" boolean,
    property "pauseRequested" boolean,
    property "approvals" (objectOf { nullable := true } []),
    property "duplicateOf" (textOf { nullable := true }),
    property "retriedBy" (textOf { nullable := true }),
    property "issueUpdatedAtSeen" (textOf { nullable := true })]

/-- `TASKS_FILE_SCHEMA`. -/
def tasksFileSchema : Schema :=
  objectOf { required := names ["version", "tasks"] } [
    property "version" (integerOf
      { minimum := some (ofNat 1), maximum := some (ofNat tasksSchemaVersion) }),
    property "updatedAt" (textOf {}),
    property "tasks" (arrayOf {} taskSchema)]

/-! ## The migration -/

def numberOf (value : Nat) : Json := .number (ofNat value)

/-- `object[key] = value`. -/
def assign (members : List (Utf16 × Json)) (key : Utf16) (value : Json) :
    List (Utf16 × Json) :=
  if (members.map Prod.fst).contains key then
    members.map fun member => if member.1 = key then (key, value) else member
  else members ++ [(key, value)]

/-- The members `{ ...value }` copies. -/
def spread : Json → List (Utf16 × Json)
  | .object members => members
  | .array items => items.zipIdx.map fun (item, index) => (ofNat index, item)
  | .string content => content.zipIdx.map fun (unit, index) => (ofNat index, .string [unit])
  | .null | .bool _ | .number _ => []

/-- `{ ...members, ...others }`. -/
def merge (members others : List (Utf16 × Json)) : List (Utf16 × Json) :=
  others.foldl (fun members (key, value) => assign members key value) members

/-- `taskDefaults`. -/
def taskDefaults (maxAttempts : Nat) : List (Utf16 × Json) :=
  [("author", .null), ("priority", .string (ofString "normal")), ("routingHint", .null),
    ("waitReason", .null), ("wakeAt", .null), ("claimedAt", .null), ("startedAt", .null),
    ("completedAt", .null), ("runId", .null), ("prNumber", .null), ("prUrl", .null),
    ("error", .null), ("attempts", numberOf 0), ("maxAttempts", numberOf maxAttempts),
    ("lease", .null), ("dependsOn", .array []), ("parentId", .null), ("deadline", .null),
    ("expiresAt", .null), ("idempotencyKey", .null), ("failure", .null),
    ("history", .array []), ("autonomy", .null)].map fun (name, value) => (ofString name, value)

/-- The value under a key, where it is of a kind. -/
def keepIf (members : List (Utf16 × Json)) (name : String) (admits : Json → Bool)
    (otherwise : Json) : List (Utf16 × Json) :=
  if ((Json.object members).member (ofString name)).any admits then members
  else assign members (ofString name) otherwise

/-- A task of the first version. -/
def migrateTask (maxAttempts : Nat) (task : Json) : Json :=
  let out := merge (taskDefaults maxAttempts) (spread task)
  let out := keepIf out "priority" (fun value => priorities.any (same value))
    (.string (ofString "normal"))
  let out := keepIf out "dependsOn" JsonType.array.admits (.array [])
  let out := keepIf out "history" JsonType.array.admits (.array [])
  let out := keepIf out "attempts" JsonType.integer.admits (numberOf 0)
  .object (keepIf out "maxAttempts" JsonType.integer.admits (numberOf maxAttempts))

/-- The version a file says it has. -/
def versionOf (file : Json) : Int :=
  (((file.member (ofString "version")).bind Json.integer?)).getD 1

/-- `migrateTasks`. -/
def migrateTasks (maxAttempts : Nat) (file : Json) : Json :=
  if tasksSchemaVersion ≤ versionOf file then file
  else
    let tasks := (((file.member (ofString "tasks")).bind Json.array?).getD []).map
      (migrateTask maxAttempts)
    .object (assign (assign (merge [] (spread file)) (ofString "version")
      (numberOf tasksSchemaVersion)) (ofString "tasks") (.array tasks))

end StateSchema

end TitanRunner
