import TitanRunner.Lib.Transition
import TitanRunner.State.MonthlyArchive

/-!
# The daily maintenance

`runMaintenance` and the retention of the queue over the state directory, one effect on the
disk after the other.  A pass can be cut off between any two effects, and the next one begins
with what is on the disk.  Effects on one directory do not touch another, so what a pass is to
do is computed at its start.
-/

namespace TitanRunner

namespace Archive

open TransitionSystem System
open Utf16 (ofString)

/-- What is archived, each under its own name. -/
inductive Kind where
  | runs | eventSummaries | digests | reviews | tasks
  deriving DecidableEq, Repr

abbrev Kind.Item : Kind → Type
  | .tasks => Task
  | _ => Entry

abbrev Kind.Record : Kind → Type
  | .tasks => Task
  | _ => Json

abbrev Scheme (kind : Kind) := Archival.Scheme kind.Item Utf16 kind.Record Utf16

abbrev Shelf (kind : Kind) := Archival.Shelf kind.Item Utf16 kind.Record

/-- The records of an archive in the order of their keys. -/
def inOrder {Record : Type} (key : Record → Utf16) (left right : Record) : Bool :=
  !decide (key right < key left)

/-- A file of one record, which is for the archive of its month. -/
def RollOptions.scheme (options : RollOptions) : Archival.Scheme Entry Utf16 Json Utf16 where
  entries entry := (options.recordOf entry).toList.map fun record =>
    (((options.dateOf record entry).filter IsoDate.isTimeValue).map monthText, record)
  idOf := options.idOf
  before := inOrder options.idOf

/-- A file of reviews. -/
def reviewsScheme (dates : Dates) : Archival.Scheme Entry Utf16 Json Utf16 where
  entries entry := (recordsOf entry.text).map fun record =>
    ((dateInName entry.file).bind fun date => reviewMonth dates date record, record)
  idOf := reviewId
  before := inOrder reviewKey

/-- `${t.completedAt}|${t.id}` -/
def taskKey (task : Task) : Utf16 :=
  (task.completedAt.elim (ofString "null") fun done => ofString (IsoDate.toISOString done)) ++
    ofString "|" ++ ofString task.id

/-- A task of the queue, as every file under `state/` has it. -/
def tasksScheme : Archival.Scheme Task Utf16 Task Utf16 where
  entries task := [(taskMonth task, Intake.scrubForState task)]
  idOf task := ofString task.id
  before := inOrder taskKey

def scheme (dates : Dates) : (kind : Kind) → Scheme kind
  | .runs => (runsOptions dates).scheme
  | .eventSummaries => (eventSummariesOptions dates).scheme
  | .digests => (digestsOptions dates).scheme
  | .reviews => reviewsScheme dates
  | .tasks => tasksScheme

/-- Effects, each on what is archived of its kind. -/
abbrev Plan := List ((kind : Kind) × Effect kind.Item kind.Record)

def planFor (kind : Kind) (effects : List (Effect kind.Item kind.Record)) : Plan :=
  effects.map (Sigma.mk kind)

/-- The state directory, and what the pass that is going on has still to do. -/
structure World where
  shelf : (kind : Kind) → Shelf kind
  pending : Plan := []

/-- The effects of `runMaintenance`.  What `rollOldFiles` throws for the runs is caught; after
another throw nothing follows. -/
def runMaintenance (dates : Dates) (now : Int) (shelf : (kind : Kind) → Shelf kind) :
    Plan :=
  let runs := rollOldFiles (runsOptions dates) now (shelf .runs).live
  let eventSummaries := rollOldFiles (eventSummariesOptions dates) now (shelf .eventSummaries).live
  let digests := rollOldFiles (digestsOptions dates) now (shelf .digests).live
  let reviews := rollReviewFiles dates (reviewsCutoff now) (shelf .reviews).live
  planFor .runs runs.effects ++ planFor .eventSummaries eventSummaries.effects ++
    if eventSummaries.ends then
      planFor .digests digests.effects ++ if digests.ends then planFor .reviews reviews.effects else []
    else []

inductive Label where
  /-- A pass of the maintenance begins. -/
  | maintain (now : Int)
  /-- The queue is looked through. -/
  | archiveOldTasks (now : Time) (options : Options)
  /-- The next effect is done. -/
  | step
  | crash

/-- What a pass moves, out of what is live. -/
def Label.due (dates : Dates) : Label → (kind : Kind) → List kind.Item → List kind.Item
  | .maintain now, .runs, live => ((runsOptions dates).old now live).map Dated.entry
  | .maintain now, .eventSummaries, live =>
      ((eventSummariesOptions dates).old now live).map Dated.entry
  | .maintain now, .digests, live => ((digestsOptions dates).old now live).map Dated.entry
  | .maintain now, .reviews, live => live.filter (isOldReviews dates (reviewsCutoff now))
  | .archiveOldTasks now options, .tasks, live => (Archive.archiveOldTasks now options live).2
  | _, _, _ => []

def World.next (dates : Dates) (world : World) : Label → Option World
  | .maintain now =>
      if world.pending.isEmpty then
        some { world with pending := runMaintenance dates now world.shelf }
      else none
  | .archiveOldTasks now options =>
      if world.pending.isEmpty then
        some { world with
          pending := planFor .tasks (rollOldTasks now options (world.shelf .tasks).live) }
      else none
  | .step =>
      match world.pending with
      | [] => none
      | ⟨kind, effect⟩ :: rest =>
          some {
            shelf := Function.update world.shelf kind
              ((scheme dates kind).apply (world.shelf kind) effect)
            pending := rest }
  | .crash => some { world with pending := [] }

/-- The names of the files of a directory. -/
def Kind.names : (kind : Kind) → List kind.Item → List Utf16
  | .tasks, _ => []
  | .runs, live | .eventSummaries, live | .digests, live | .reviews, live => live.map Entry.file

/-- A directory has one file of a name, and an archive one record of an id. -/
structure Tidy (dates : Dates) (world : World) : Prop where
  names : ∀ kind : Kind, (kind.names (world.shelf kind).live).Nodup
  distinct : ∀ kind, (scheme dates kind).Distinct (world.shelf kind)

/-- Nothing goes on, and the state directory is as a file system and the archival have it. -/
def system (dates : Dates) : System World Label where
  start world := world.pending = [] ∧ Tidy dates world
  next := World.next dates

end Archive

end TitanRunner
