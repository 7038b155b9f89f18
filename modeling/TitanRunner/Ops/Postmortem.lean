import TitanRunner.Lib.IsoDate
import TitanRunner.Lib.Transition
import TitanRunner.Lib.Utf16
import TitanRunner.Task.Schema

/-!
# Lessons from failed runs

`appendLesson` and `runPostmortems` over the lessons file, one lesson a line.  What a model or
the template writes about a failure comes from outside, and so do the hashes: the signature of
a failure and the id of a signature.
-/

namespace TitanRunner

namespace Postmortem

open Utf16 TransitionSystem System

/-- `MAX_LESSONS` -/
def maxLessons : Nat := 200

/-- `MAX_RUN_IDS` -/
def maxRunIds : Nat := 5

/-- `SKIP_CODES` -/
def skipCodes : List String := ["DEPENDENCY_FAILED", "DEPENDENCY_MISSING"]

inductive Source where
  | model | template
  deriving DecidableEq, Repr

/-- What is written about a failure: the answer of `writePostmortem` and the category of the
step that failed. -/
structure Draft where
  taskType : Option Utf16
  whatFailed : Utf16
  likelyCause : Utf16
  suggestedFix : Utf16
  source : Source
  deriving DecidableEq, Repr

structure Lesson where
  id : Utf16
  signature : Utf16
  firstSeen : Time
  lastSeen : Time
  count : Nat
  taskType : Option Utf16
  whatFailed : Utf16
  likelyCause : Utf16
  suggestedFix : Utf16
  source : Source
  runIds : List Utf16
  deriving DecidableEq, Repr

inductive Outcome where
  | new | merged | duplicate
  deriving DecidableEq, Repr

/-- The order in which lessons are kept: the most frequent first, then the latest. -/
def byCount (left right : Lesson) : Bool :=
  decide (right.count < left.count) ||
    (left.count == right.count && !decide (left.lastSeen < right.lastSeen))

/-- The order of the file. -/
def byFirstSeen (left right : Lesson) : Bool :=
  decide (left.firstSeen < right.firstSeen) ||
    (left.firstSeen == right.firstSeen && decide (left.id < right.id))

/-- The lessons that are written back. -/
def kept (lessons : List Lesson) : List Lesson :=
  (if maxLessons < lessons.length then (lessons.mergeSort byCount).take maxLessons
    else lessons).mergeSort byFirstSeen

/-- The last elements of a list, `slice(-count)`. -/
def lastOf {α : Type} (count : Nat) (list : List α) : List α := list.drop (list.length - count)

/-- A lesson that gets one more failure. -/
def Lesson.merge (lesson : Lesson) (draft : Draft) (runKey : Utf16) (now : Time) : Lesson :=
  let lesson := { lesson with
    count := lesson.count + 1
    lastSeen := now
    runIds := lastOf maxRunIds (lesson.runIds ++ [runKey]) }
  if draft.source = .model ∧ lesson.source ≠ .model then
    { lesson with
      likelyCause := draft.likelyCause
      suggestedFix := draft.suggestedFix
      source := .model }
  else lesson

/-- The functions that hash. -/
structure Hashes where
  /-- `errorSignature`, of the class, the code and the message. -/
  errorSignature : String → Option String → String → Utf16
  /-- The id of a lesson, from its signature. -/
  lessonId : Utf16 → Utf16

/-- A lesson of a first failure. -/
def Draft.lesson (hashes : Hashes) (draft : Draft) (signature runKey : Utf16) (now : Time) :
    Lesson where
  id := hashes.lessonId signature
  signature
  firstSeen := now
  lastSeen := now
  count := 1
  taskType := draft.taskType
  whatFailed := draft.whatFailed.take 2000
  likelyCause := draft.likelyCause.take 2000
  suggestedFix := draft.suggestedFix.take 2000
  source := draft.source
  runIds := [runKey]

def appendLesson (hashes : Hashes) (lessons : List Lesson) (signature : Utf16) (draft : Draft)
    (runKey : Utf16) (now : Time) : List Lesson × Outcome :=
  let index := lessons.findIdx fun lesson => lesson.signature == signature
  match lessons[index]? with
  | some existing =>
      if existing.runIds.contains runKey then (lessons, .duplicate)
      else (kept (lessons.set index (existing.merge draft runKey now)), .merged)
  | none => (kept (lessons ++ [draft.lesson hashes signature runKey now]), .new)

def Hashes.signatureOf (hashes : Hashes) (failure : Failure) : Utf16 :=
  hashes.errorSignature failure.class' failure.code failure.message

/-- The failure that a task gets a post-mortem for. -/
def failureOf (task : Task) : Option Failure :=
  if task.status = .failed ∨ task.status = .deadLettered then task.failure else none

def isSkipped (failure : Failure) : Bool :=
  skipCodes.contains (failure.code.getD "null").toUpper

/-- `runKey` -/
def runKeyOf (task : Task) (failure : Failure) : Utf16 :=
  (ofString (task.id ++ "@" ++ IsoDate.toISOString failure.at')).take 100

/-- A call of `appendLesson`. -/
structure Entry where
  signature : Utf16
  runKey : Utf16
  outcome : Outcome
  deriving DecidableEq, Repr

/-- A failure: its signature and its run key. -/
abbrev Named := Utf16 × Utf16

def Entry.failure (entry : Entry) : Named := (entry.signature, entry.runKey)

/-- The lessons after a sweep, the calls of `appendLesson`, and the tasks that were skipped. -/
structure Sweep where
  lessons : List Lesson
  log : List Entry := []
  skipped : Nat := 0

/-- The loop of `runPostmortems`: the keys that are known, and the budget that is left. -/
def sweep (hashes : Hashes) (write : Task → Draft) (now : Time) :
    List Task → List Utf16 → Nat → List Lesson → Sweep
  | [], _, _, lessons => { lessons }
  | task :: rest, known, budget, lessons =>
      match failureOf task with
      | none => sweep hashes write now rest known budget lessons
      | some failure =>
          if isSkipped failure then
            let swept := sweep hashes write now rest known budget lessons
            { swept with skipped := swept.skipped + 1 }
          else
            let runKey := runKeyOf task failure
            if known.contains runKey then sweep hashes write now rest known budget lessons
            else
              match budget with
              | 0 => { lessons }
              | budget + 1 =>
                  let signature := hashes.signatureOf failure
                  let (lessons, outcome) :=
                    appendLesson hashes lessons signature (write task) runKey now
                  let swept := sweep hashes write now rest (runKey :: known) budget lessons
                  { swept with log := ⟨signature, runKey, outcome⟩ :: swept.log }

/-- The run keys on file. -/
def knownKeys (lessons : List Lesson) : List Utf16 := lessons.flatMap Lesson.runIds

def runPostmortems (hashes : Hashes) (lessons : List Lesson) (tasks : List Task)
    (write : Task → Draft) (now : Time) (max : Nat) : Sweep :=
  sweep hashes write now tasks (knownKeys lessons) max lessons

/-- The failures that a sweep sees. -/
def failuresOf (hashes : Hashes) (tasks : List Task) : List Named :=
  tasks.filterMap fun task =>
    ((failureOf task).filter fun failure => !isSkipped failure).map fun failure =>
      (hashes.signatureOf failure, runKeyOf task failure)

/-- The lessons file over the pulses, beside the failures that were seen and those that got a
post-mortem, each once. -/
structure World where
  lessons : List Lesson := []
  seen : List Named := []
  written : List Named := []
  deriving DecidableEq

/-- A list of failures that names each once, with some added. -/
def noted (failures added : List Named) : List Named :=
  added.foldl (fun failures failure => failures.insert failure) failures

/-- A pulse over the tasks of the queue. -/
structure Label where
  tasks : List Task
  write : Task → Draft
  now : Time
  max : Nat := 3

def World.next (hashes : Hashes) (world : World) (label : Label) : World :=
  let swept :=
    runPostmortems hashes world.lessons label.tasks label.write label.now label.max
  { lessons := swept.lessons
    seen := noted world.seen (failuresOf hashes label.tasks)
    written := noted world.written (swept.log.map Entry.failure) }

/-- The pulses from an empty file. -/
def system (hashes : Hashes) : System World Label where
  start world := world = {}
  next world label := some (world.next hashes label)

end Postmortem

end TitanRunner
