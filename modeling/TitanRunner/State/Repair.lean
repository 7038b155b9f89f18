import TitanRunner.Lib.Transition
import TitanRunner.Redact
import TitanRunner.State.FileSchema

/-!
# The queue file and its backup

`state/store.js`: `readValidated` and `writeJson` over the texts of `tasks.json` and of its
backup, with `loadTasks`, `saveTasks` and `ensureLayout` on top of them.  The queue that is
saved is the one `saveTasks` goes on with, merged with the file on disk or not.
-/

namespace TitanRunner

namespace QueueFile

open Utf16 Validate StateSchema TransitionSystem System

/-! ## `scrubForState` -/

/-- `MAX_DEPTH`. -/
def maxDepth : Nat := 12

mutual

def walk (depth : Nat) : Json → Json
  | .null => .null
  | .bool value => .bool value
  | .number text => .number text
  | .string content => .string (Redact.redactString content)
  | .array items =>
      if maxDepth ≤ depth then .string (ofString "[MaxDepth]")
      else .array (walkItems (depth + 1) items)
  | .object members =>
      if maxDepth ≤ depth then .string (ofString "[MaxDepth]")
      else .object (walkMembers (depth + 1) members)

def walkItems (depth : Nat) : List Json → List Json
  | [] => []
  | item :: items => walk depth item :: walkItems depth items

def walkMembers (depth : Nat) : List (Utf16 × Json) → List (Utf16 × Json)
  | [] => []
  | (key, value) :: members => (key, walk depth value) :: walkMembers depth members

end

def scrubForState (value : Json) : Json := walk 0 value

/-! ## Reading -/

/-- Why a file is corrupt. -/
inductive Corruption where
  | parse
  | schema (errors : List Utf16)
  deriving DecidableEq, Repr

/-- What is on record of a repair; `fromBackup` is `repairedFrom: 'backup'`. -/
structure Repair where
  reason : Corruption
  fromBackup : Bool
  deriving DecidableEq, Repr

/-- The two files, and the bytes that were set aside. -/
structure Files where
  primary : Option Utf16
  backup : Option Utf16
  quarantine : List Utf16
  deriving DecidableEq, Repr

/-- Parse, migrate and validate the text of a file. -/
def attempt (schema : Schema) (migrate : Json → Json) (text : Utf16) : Except Corruption Json :=
  match Json.parse text with
  | none => .error .parse
  | some parsed =>
      match check (migrate parsed) schema with
      | [] => .ok (migrate parsed)
      | error :: errors => .error (.schema ((error :: errors).take 3))

structure Reading where
  value : Json
  files : Files
  repair : Option Repair

/-- `readValidated`. -/
def readValidated (schema : Schema) (migrate : Json → Json) (fallback : Json) (files : Files) :
    Reading :=
  match files.primary with
  | none => { value := fallback, files, repair := none }
  | some text =>
      match attempt schema migrate text with
      | .ok value => { value, files, repair := none }
      | .error reason =>
          let files := { files with quarantine := files.quarantine ++ [text] }
          match files.backup.map (attempt schema migrate) with
          | some (.ok value) => { value, files, repair := some { reason, fromBackup := true } }
          | _ => { value := fallback, files, repair := some { reason, fromBackup := false } }

/-! ## Writing -/

/-- The text of a state file. -/
def serialise (payload : Json) : Utf16 := payload.pretty ++ [0xA]

structure Written where
  payload : Json
  files : Files
  written : Bool

/-- `writeJson` on a file that is backed up; the errors are those it throws with. -/
def writeJson (schema : Option Schema) (data : Json) (files : Files) :
    Except (List Utf16) Written :=
  let payload := scrubForState data
  match (schema.map (check payload)).getD [] with
  | error :: errors => .error ((error :: errors).take 3)
  | [] =>
      let text := serialise payload
      if files.primary = some text then .ok { payload, files, written := false }
      else
        .ok { payload, written := true
              files := { files with primary := some text, backup := files.primary.or files.backup } }

/-! ## The queue -/

/-- `defaultTasksFile`. -/
def defaultTasksFile (now : Utf16) : Json := .object [
  (ofString "version", numberOf tasksSchemaVersion),
  (ofString "updatedAt", .string now),
  (ofString "tasks", .array [])]

/-- `migrateTasks(raw)`, with the default of three attempts. -/
def migrateRaw (file : Json) : Json := migrateTasks 3 file

def attemptTasks (text : Utf16) : Except Corruption Json := attempt tasksFileSchema migrateRaw text

/-- `loadTasks`. -/
def loadTasks (now : Utf16) (files : Files) : Reading :=
  readValidated tasksFileSchema migrateRaw (defaultTasksFile now) files

/-- `"updatedAt": "[^"]*"`. -/
def updatedAtEntry : Regex :=
  .seq (Regex.text "\"updatedAt\": \"") (.seq (Regex.star (· != 0x22)) (Regex.lit 0x22))

/-- `stripUpdatedAt`: the first entry is emptied. -/
def stripUpdatedAt (text : Utf16) : Utf16 :=
  match updatedAtEntry.search none text with
  | none => text
  | some (before, cursor) => before ++ ofString "\"updatedAt\": \"\"" ++ cursor.rest

/-- `{ ...file, version: TASKS_SCHEMA_VERSION }`. -/
def candidateOf (file : List (Utf16 × Json)) : List (Utf16 × Json) :=
  assign file (ofString "version") (numberOf tasksSchemaVersion)

/-- The queue that is handed to `writeJson`. -/
def stamped (file : List (Utf16 × Json)) (now : Utf16) : Json :=
  .object (assign (candidateOf file) (ofString "updatedAt") (.string now))

/-- `saveTasks`, from the merged queue on. -/
def saveTasks (file : List (Utf16 × Json)) (now : Utf16) (files : Files) :
    Except (List Utf16) Written :=
  let payload := scrubForState (.object (candidateOf file))
  if files.primary.map stripUpdatedAt = some (stripUpdatedAt (serialise payload)) then
    .ok { payload, files, written := false }
  else writeJson (some tasksFileSchema) (stamped file now) files

/-! ## Saves and loads in any order -/

/-- The files, the queues that were written so far, and whether the last of them was written
over a corrupt file. -/
structure World where
  files : Files
  written : List Json
  overCorrupt : Bool
  repairs : List Repair

inductive Label where
  /-- `ensureLayout`. -/
  | layout (now : Utf16)
  | load (now : Utf16)
  | save (file : List (Utf16 × Json)) (now : Utf16)
  /-- The primary is damaged. -/
  | corrupt (text : Utf16)

def isCorrupt (text : Utf16) : Bool :=
  match attemptTasks text with
  | .ok _ => false
  | .error _ => true

/-- The world after a write, if it did not throw. -/
def World.write (world : World) : Except (List Utf16) Written → World
  | .error _ => world
  | .ok write =>
      if write.written then
        { world with
          files := write.files
          written := world.written ++ [write.payload]
          overCorrupt := world.files.primary.any isCorrupt }
      else world

/-- Only values of the language are saved: their numbers are numbers. -/
def World.next (world : World) : Label → Option World
  | .layout now =>
      if world.files.primary.isSome then some world
      else some (world.write (writeJson none (defaultTasksFile now) world.files))
  | .load now =>
      let reading := loadTasks now world.files
      some { world with
        files := reading.files, repairs := world.repairs ++ reading.repair.toList }
  | .save file now =>
      if Json.isProper (.object file) then some (world.write (saveTasks file now world.files))
      else none
  | .corrupt text =>
      if world.files.primary.isSome ∧ isCorrupt text = true then
        some { world with files := { world.files with primary := some text } }
      else none

def World.empty : World where
  files := { primary := none, backup := none, quarantine := [] }
  written := []
  overCorrupt := false
  repairs := []

/-- A state directory, from its creation on. -/
def system : System World Label where
  start := fun world => world = World.empty
  next := World.next

/-! ## What is written is read again -/

/-- A queue that comes back from its text. -/
def Readable (queue : Json) : Prop := attemptTasks (serialise queue) = .ok queue

theorem member_append (members : List (Utf16 × Json)) (key name : Utf16) (value : Json) :
    (Json.object (members ++ [(key, value)])).member name =
      if key = name then some value else (Json.object members).member name := by
  simp only [Json.member, List.reverse_append, List.reverse_singleton, List.singleton_append]
  by_cases same : key = name
  · rw [if_pos same, List.find?_cons_of_pos (by simp [same])]
    rfl
  · rw [if_neg same, List.find?_cons_of_neg (by simp [same])]

theorem member_replace (members : List (Utf16 × Json)) (key name : Utf16) (value : Json) :
    (Json.object (members.map fun member => if member.1 = key then (key, value) else member)).member
        name =
      if key = name then
        if key ∈ members.map Prod.fst then some value else none
      else (Json.object members).member name := by
  induction members using List.reverseRecOn with
  | nil =>
      split
      next => rfl
      next => rfl
  | append_singleton rest member ih =>
      have ⟨other, held⟩ := member
      rw [List.map_append, List.map_singleton]
      by_cases here : other = key
      · rw [if_pos here, member_append, here]
        split
        next => simp
        next differ => rw [ih, if_neg differ, member_append, if_neg differ]
      · rw [if_neg here, member_append, member_append, ih]
        have known : key ∈ (rest ++ [(other, held)]).map Prod.fst ↔ key ∈ rest.map Prod.fst := by
          simp [Ne.symm here]
        by_cases same : key = name
        · have away : ¬ other = name := fun also => here (also.trans same.symm)
          rw [if_neg away, if_pos same, if_pos same]
          exact if_congr known.symm rfl rfl
        · rw [if_neg same, if_neg same]

/-- `object[key] = value` is read again. -/
theorem member_assign (members : List (Utf16 × Json)) (key name : Utf16) (value : Json) :
    (Json.object (assign members key value)).member name =
      if key = name then some value else (Json.object members).member name := by
  rw [assign]
  split
  next known =>
    rw [List.contains_iff_mem] at known
    rw [member_replace, if_pos known]
  next => exact member_append members key name value

/-- What is spread over an object comes before what it had. -/
theorem member_merge (members others : List (Utf16 × Json)) (name : Utf16) :
    (Json.object (merge members others)).member name =
      ((Json.object others).member name).or ((Json.object members).member name) := by
  induction others generalizing members with
  | nil => rfl
  | cons other others ih =>
      have later : (Json.object (other :: others)).member name =
          ((Json.object others).member name).or
            (if other.1 = name then some other.2 else none) := by
        simp only [Json.member, List.reverse_cons, List.find?_append]
        cases (others.reverse.find? fun member => member.1 == name) with
        | some found => rfl
        | none => by_cases same : other.1 = name <;> simp [same]
      have first : merge members (other :: others) = merge (assign members other.1 other.2) others :=
        rfl
      rw [first, ih, later, member_assign]
      cases (Json.object others).member name with
      | some found => rfl
      | none => split <;> rfl

theorem walkMembers_eq_map (depth : Nat) (members : List (Utf16 × Json)) :
    walkMembers depth members = members.map fun member => (member.1, walk depth member.2) := by
  induction members with
  | nil => rfl
  | cons member members ih => rw [walkMembers, ih, List.map_cons]

/-- The scrubber leaves the members where they are. -/
theorem member_scrubForState (members : List (Utf16 × Json)) (name : Utf16) :
    (scrubForState (.object members)).member name =
      ((Json.object members).member name).map (walk 1) := by
  have shallow : scrubForState (.object members) = .object (walkMembers 1 members) := rfl
  rw [shallow, walkMembers_eq_map]
  simp only [Json.member, ← List.map_reverse, List.find?_map, Option.map_map]
  rfl

mutual

theorem isProper_walk (depth : Nat) (value : Json) (proper : value.isProper = true) :
    (walk depth value).isProper = true := by
  match value with
  | .null | .bool _ | .string _ => rfl
  | .number text => exact proper
  | .array items =>
      rw [walk]
      split
      next => rfl
      next => exact areProper_walkItems (depth + 1) items proper
  | .object members =>
      rw [walk]
      split
      next => rfl
      next => exact areProperMembers_walkMembers (depth + 1) members proper

theorem areProper_walkItems (depth : Nat) (items : List Json)
    (proper : Json.areProper items = true) : Json.areProper (walkItems depth items) = true := by
  match items with
  | [] => rfl
  | item :: items =>
      rw [Json.areProper, Bool.and_eq_true] at proper
      rw [walkItems, Json.areProper, Bool.and_eq_true]
      exact ⟨isProper_walk depth item proper.1, areProper_walkItems depth items proper.2⟩

theorem areProperMembers_walkMembers (depth : Nat) (members : List (Utf16 × Json))
    (proper : Json.areProperMembers members = true) :
    Json.areProperMembers (walkMembers depth members) = true := by
  match members with
  | [] => rfl
  | (key, value) :: members =>
      rw [Json.areProperMembers, Bool.and_eq_true] at proper
      rw [walkMembers, Json.areProperMembers, Bool.and_eq_true]
      exact ⟨isProper_walk depth value proper.1,
        areProperMembers_walkMembers depth members proper.2⟩

end

theorem areProperMembers_assign {members : List (Utf16 × Json)} {key : Utf16} {value : Json}
    (proper : Json.areProperMembers members = true) (also : value.isProper = true) :
    Json.areProperMembers (assign members key value) = true := by
  rw [Json.areProperMembers_iff] at proper ⊢
  intro member inside
  rw [assign] at inside
  split at inside
  next =>
    have ⟨other, there, same⟩ := List.mem_map.1 inside
    subst same
    split
    next => exact also
    next => exact proper other there
  next =>
    cases List.mem_append.1 inside with
    | inl before => exact proper member before
    | inr here => exact List.mem_singleton.1 here ▸ also

/-- The text of a value ends with a new line. -/
theorem parse_serialise {payload : Json} (proper : payload.isProper = true) :
    Json.parse (serialise payload) = some payload := by
  have blank : ∀ unit ∈ ([0x20, 0x20] : Utf16), Json.isSpace unit = true :=
    List.all_eq_true.1 rfl
  have newLine : ∀ unit ∈ ([0xA] : Utf16), Json.isSpace unit = true := List.all_eq_true.1 rfl
  have closed : Json.Closed [0xA] := by
    intro unit first
    cases first
    simp
  have spaces : Json.Reader.read { mode := .between, expect := .done payload } ([0xA] ++ []) =
      some payload := Json.read_spaces newLine []
  exact (Json.read_render blank payload proper (Json.takes_valueNext []) 0 closed).trans spaces

/-- What is written under the current version and meets the schema is readable. -/
theorem readable_of_check {members : List (Utf16 × Json)}
    (proper : Json.areProperMembers members = true)
    (current : (Json.object members).member (ofString "version") = some (numberOf tasksSchemaVersion))
    (valid : check (scrubForState (.object members)) tasksFileSchema = []) :
    Readable (scrubForState (.object members)) := by
  have properPayload : (scrubForState (.object members)).isProper = true :=
    isProper_walk 0 (.object members) proper
  have version : versionOf (scrubForState (.object members)) = tasksSchemaVersion := by
    rw [versionOf, member_scrubForState, current]
    decide
  have kept : migrateRaw (scrubForState (.object members)) = scrubForState (.object members) := by
    rw [migrateRaw, migrateTasks, if_pos (Int.le_of_eq version.symm)]
  rw [Readable, attemptTasks, attempt, parse_serialise properPayload]
  simp only [kept, valid]

/-- What `writeJson` leaves. -/
theorem writeJson_spec {schema : Option Schema} {data : Json} {files : Files} {write : Written}
    (wrote : writeJson schema data files = .ok write) (new : write.written = true) :
    (schema.map (check (scrubForState data))).getD [] = [] ∧ write.payload = scrubForState data ∧
      write.files.primary = some (serialise (scrubForState data)) ∧
      write.files.backup = files.primary.or files.backup := by
  simp only [writeJson] at wrote
  split at wrote
  next => contradiction
  next valid =>
    split at wrote
    next =>
      cases wrote
      contradiction
    next =>
      cases wrote
      exact ⟨valid, rfl, rfl, rfl⟩

theorem readable_default (now : Utf16) : Readable (scrubForState (defaultTasksFile now)) := by
  apply readable_of_check
  · rfl
  · rfl
  · rfl

theorem readable_save {file : List (Utf16 × Json)} {now : Utf16}
    (proper : Json.isProper (.object file) = true)
    (valid : check (scrubForState (stamped file now)) tasksFileSchema = []) :
    Readable (scrubForState (stamped file now)) := by
  apply readable_of_check _ _ valid
  · apply areProperMembers_assign _ rfl
    apply areProperMembers_assign proper
    decide
  · rw [member_assign, if_neg (by decide), candidateOf, member_assign, if_pos rfl]

/-! ## What every run keeps -/

/-- The last queue written is in the primary, unless that is corrupt; the one before it is in the
backup, unless it was corrupt when it was replaced. -/
structure Kept (world : World) : Prop where
  readable : ∀ queue ∈ world.written, Readable queue
  primary : ∀ text ∈ world.files.primary,
    isCorrupt text = true ∨ ∃ queue, world.written.getLast? = some queue ∧ text = serialise queue
  absent : world.files.primary = none → world.written = []
  backup : world.overCorrupt = false → ∀ queue, world.written.dropLast.getLast? = some queue →
    world.files.backup = some (serialise queue)

/-- One write that `writeJson` made. -/
theorem Kept.write {world : World} (kept : Kept world) {schema : Option Schema} {data : Json}
    (readable : (schema.map (check (scrubForState data))).getD [] = [] →
      Readable (scrubForState data)) :
    Kept (world.write (writeJson schema data world.files)) := by
  cases wrote : writeJson schema data world.files with
  | error errors => exact kept
  | ok write =>
      rw [World.write]
      split
      next new =>
        have ⟨valid, payload, primary, backup⟩ := writeJson_spec wrote new
        rw [payload]
        constructor
        case readable =>
          intro queue inside
          cases List.mem_append.1 inside with
          | inl before => exact kept.readable queue before
          | inr here => exact List.mem_singleton.1 here ▸ readable valid
        case primary =>
          intro text there
          have same : serialise (scrubForState data) = text := Option.some.inj (primary.symm.trans there)
          exact .inr ⟨scrubForState data, List.getLast?_concat, same.symm⟩
        case absent =>
          intro missing
          rw [primary] at missing
          contradiction
        case backup =>
          intro intact queue replaced
          rw [List.dropLast_concat] at replaced
          cases found : world.files.primary with
          | none =>
              rw [kept.absent found] at replaced
              contradiction
          | some text =>
              rw [found, Option.any_some] at intact
              cases kept.primary text found with
              | inl corrupt =>
                  rw [corrupt] at intact
                  contradiction
              | inr held =>
                  have ⟨last, isLast, same⟩ := held
                  have equal : last = queue := Option.some.inj (isLast.symm.trans replaced)
                  rw [backup, found, Option.some_or, same, equal]
      next => exact kept

/-- A load leaves the two files alone. -/
theorem readValidated_files (schema : Schema) (migrate : Json → Json) (fallback : Json)
    (files : Files) :
    (readValidated schema migrate fallback files).files.primary = files.primary ∧
      (readValidated schema migrate fallback files).files.backup = files.backup := by
  simp only [readValidated]
  split
  next => exact ⟨rfl, rfl⟩
  next =>
    split
    next => exact ⟨rfl, rfl⟩
    next => split <;> exact ⟨rfl, rfl⟩

/-- So does a save that has nothing to write, and any other is one of `writeJson`. -/
theorem Kept.save {world : World} (kept : Kept world) {file : List (Utf16 × Json)}
    (proper : Json.isProper (.object file) = true) (now : Utf16) :
    Kept (world.write (saveTasks file now world.files)) := by
  rw [saveTasks]
  split
  next => exact kept
  next => exact kept.write fun valid => readable_save proper valid

/-- One step. -/
theorem Kept.next {world after : World} {label : Label} (kept : Kept world)
    (stepped : world.next label = some after) : Kept after := by
  cases label with
  | layout now =>
      simp only [World.next] at stepped
      split at stepped
      next => cases stepped; exact kept
      next =>
        cases stepped
        exact kept.write fun _ => readable_default now
  | load now =>
      cases stepped
      have ⟨primary, backup⟩ := readValidated_files tasksFileSchema migrateRaw
        (defaultTasksFile now) world.files
      constructor
      case readable => exact kept.readable
      case primary =>
        intro text there
        exact kept.primary text (primary ▸ there)
      case absent =>
        intro missing
        exact kept.absent (primary ▸ missing)
      case backup =>
        intro intact queue replaced
        exact backup.trans (kept.backup intact queue replaced)
  | save file now =>
      simp only [World.next] at stepped
      split at stepped
      next proper =>
        cases stepped
        exact kept.save proper now
      next => contradiction
  | corrupt text =>
      simp only [World.next] at stepped
      split at stepped
      next damaged =>
        cases stepped
        constructor
        case readable => exact kept.readable
        case primary =>
          intro other there
          cases there
          exact .inl damaged.2
        case absent => exact nofun
        case backup => exact kept.backup
      next => contradiction

/-- What loads return: the last queue written where the primary is intact, and else the one
before it, if that was intact when it was replaced; in that case the backup is a valid queue. -/
structure Repaired (world : World) : Prop where
  intact : ∀ text value now, world.files.primary = some text → attemptTasks text = .ok value →
    (loadTasks now world.files).value = value ∧ world.written.getLast? = some value
  corrupt : ∀ text now queue, world.files.primary = some text → isCorrupt text = true →
    world.overCorrupt = false → world.written.dropLast.getLast? = some queue →
    (loadTasks now world.files).value = queue
  backup : ∀ queue, world.overCorrupt = false → world.written.dropLast.getLast? = some queue →
    ∃ text, world.files.backup = some text ∧ attemptTasks text = .ok queue

theorem Kept.repaired {world : World} (kept : Kept world) : Repaired world := by
  have backup : ∀ queue, world.overCorrupt = false →
      world.written.dropLast.getLast? = some queue →
      ∃ text, world.files.backup = some text ∧ attemptTasks text = .ok queue := by
    intro queue intact replaced
    have inside : queue ∈ world.written :=
      List.dropLast_subset _ (List.mem_of_getLast? replaced)
    exact ⟨serialise queue, kept.backup intact queue replaced, kept.readable queue inside⟩
  constructor
  case intact =>
    intro text value now there read
    constructor
    · have read' : attempt tasksFileSchema migrateRaw text = .ok value := read
      simp only [loadTasks, readValidated, there, read']
    · cases kept.primary text there with
      | inl corrupt =>
          rw [isCorrupt, read] at corrupt
          contradiction
      | inr held =>
          have ⟨queue, last, same⟩ := held
          have readable := kept.readable queue (List.mem_of_getLast? last)
          rw [same, readable] at read
          cases read
          exact last
  case corrupt =>
    intro text now queue there corrupt intact replaced
    have ⟨saved, held, read⟩ := backup queue intact replaced
    have read' : attempt tasksFileSchema migrateRaw saved = .ok queue := read
    simp only [loadTasks, readValidated, there, held, Option.map_some, read']
    cases failed : attempt tasksFileSchema migrateRaw text with
    | ok value =>
        have intact' : attemptTasks text = .ok value := failed
        rw [isCorrupt, intact'] at corrupt
        contradiction
    | error reason => rfl
  case backup => exact backup

/-- Every sequence of saves, loads and damage to the primary. -/
theorem repaired_of_reachable {world : World} (reachable : system.Reachable always world) :
    Repaired world := by
  suffices kept : Kept world from kept.repaired
  apply reachable.invariant Kept
  · intro start same
    subst same
    constructor
    case readable => exact fun _ => nofun
    case primary => exact fun _ => nofun
    case absent => exact fun _ => rfl
    case backup => exact fun _ _ => nofun
  · intro before label after _ kept _ stepped
    exact kept.next stepped

/-! ### Runs -/

/-- A load returns the queue of the last save, and once something was saved the backup is a
valid queue. -/
def SelfRepairing (world : World) : Prop :=
  (∀ queue now, world.written.getLast? = some queue →
    (loadTasks now world.files).value = queue) ∧
    (world.written ≠ [] → ∃ text, world.files.backup = some text ∧ isCorrupt text = false)

def clock : Utf16 := ofString "2026-01-01T00:00:00.000Z"

def sampleTask (id : String) : Json := .object [
  (ofString "id", .string (ofString id)),
  (ofString "type", .string (ofString "task")),
  (ofString "title", .string (ofString "Add a readme")),
  (ofString "prompt", .string (ofString "Write it.")),
  (ofString "status", .string (ofString "pending")),
  (ofString "createdAt", .string clock)]

def sampleFile (tasks : List Json) : List (Utf16 × Json) := [
  (ofString "version", numberOf 2),
  (ofString "updatedAt", .string clock),
  (ofString "tasks", .array tasks)]

def taskCount (file : Json) : Nat :=
  (((file.member (ofString "tasks")).bind Json.array?).getD []).length

/-- A queue of one task is replaced by one of two, and the file is cut short. -/
def damagedRun : List Label := [
  .layout clock,
  .save (sampleFile [sampleTask "manual-1"]) clock,
  .save (sampleFile [sampleTask "manual-1", sampleTask "manual-2"]) clock,
  .corrupt (ofString "\x7b \"version\": 2, \"ta")]

theorem damagedRun_runs :
    (system.exec always World.empty damagedRun).any (fun world =>
      world.files.primary.any isCorrupt && !world.overCorrupt &&
        decide (world.written.map taskCount = [0, 1, 2]) &&
        decide (taskCount (loadTasks clock world.files).value = 1)) = true := by
  decide +kernel

theorem repaired_of_damagedRun : ∃ world, world.files.primary.any isCorrupt = true ∧
    world.overCorrupt = false ∧ world.written.map taskCount = [0, 1, 2] ∧ Repaired world := by
  have ⟨world, reached, ran⟩ := Reachable.exists_of_exec (.start rfl) damagedRun_runs
  simp only [Bool.and_eq_true, Bool.not_eq_true', decide_eq_true_eq] at ran
  exact ⟨world, ran.1.1.1, ran.1.1.2, ran.1.2, repaired_of_reachable reached⟩

theorem not_selfRepairing_of_damagedRun : ¬ ∀ world,
    system.Reachable always world → SelfRepairing world := by
  intro all
  have ⟨world, reached, ran⟩ := Reachable.exists_of_exec (.start rfl) damagedRun_runs
  have ⟨loads, _⟩ := all world reached
  simp only [Bool.and_eq_true, Bool.not_eq_true', decide_eq_true_eq] at ran
  have ⟨⟨_, counts⟩, loaded⟩ := ran
  have last : (world.written.getLast?).map taskCount = some 2 := by
    rw [← List.getLast?_map, counts]
    rfl
  have ⟨queue, found, two⟩ := Option.map_eq_some_iff.1 last
  rw [loads queue clock found, two] at loaded
  omega

end QueueFile

end TitanRunner
