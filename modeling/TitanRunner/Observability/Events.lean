import TitanRunner.Lib.JsonNumbers
import TitanRunner.Lib.SplitJoin
import TitanRunner.State.Repair

/-!
# The event log

`src/observability/events.js`: one line for each event in a file for each day.  A process goes on
counting from what it finds in the file; one that dies while it appends leaves a part of its line.
-/

namespace TitanRunner

namespace EventLog

open Utf16 TransitionSystem System QueueFile
open StateSchema (assign)

/-- `Number.isInteger(parsed?.seq)`, with the value. -/
def seqOf (event : Json) : Option Int := (event.member (ofString "seq")).bind Json.integer?

/-- The lines that a new process looks at, the last one first. -/
def lastLines (text : Utf16) : List Utf16 := (split 0x0A (Utf16.trim text)).reverse.take 5

/-- The sequence number that a new process finds. -/
def lastSeq (text : Utf16) : Nat :=
  ((lastLines text).findSome? fun line => (Json.parse line).bind seqOf).elim 0 Int.toNat

/-- The events of a file; a line that is no JSON is dropped. -/
def readJsonlFile (text : Utf16) : List Json :=
  (split 0x0A text).filterMap fun line => if line.isEmpty then none else Json.parse line

/-- An `EventLog`, short of its retention and its listeners. -/
structure Log where
  pulseId : Utf16
  seq : Nat := 0
  currentFile : Option Utf16 := none
  needsNewline : Bool := false
  deriving DecidableEq, Repr

/-- What is appended: the time as an ISO text, the type, and the fields as JSON values. -/
structure Entry where
  ts : Utf16
  type : Utf16
  fields : List (Utf16 × Json)
  proper : Json.areProperMembers fields = true

/-- `#fileFor` -/
def fileFor (entry : Entry) : Utf16 := entry.ts.take 10 ++ ofString ".jsonl"

/-- The files of the directory by name; one that does not exist is empty. -/
abbrev Disk := Utf16 → Utf16

/-- `#ensureSeq` -/
def Log.ensureSeq (log : Log) (disk : Disk) (file : Utf16) : Log :=
  if log.currentFile = some file then log
  else
    let text := disk file
    { log with
      currentFile := some file
      needsNewline := !text.isEmpty && text.getLast? != some 0x0A
      seq := max log.seq (lastSeq text) }

/-- `{ ...members, ...fields }` -/
def withFields (members fields : List (Utf16 × Json)) : List (Utf16 × Json) :=
  fields.foldl (fun members field => assign members field.1 field.2) members

/-- The event as it is written, with the number `log.seq`. -/
def eventOf (log : Log) (entry : Entry) : Json :=
  scrubForState (.object (withFields
    [(ofString "seq", .number (ofNat log.seq)), (ofString "ts", .string entry.ts),
      (ofString "type", .string entry.type), (ofString "pulseId", .string log.pulseId)]
    entry.fields))

/-- The log as it is when the event's line is written. -/
def Log.counted (log : Log) (disk : Disk) (entry : Entry) : Log :=
  let log := log.ensureSeq disk (fileFor entry)
  { log with seq := log.seq + 1 }

/-- The line of an event. -/
def lineOf (log : Log) (entry : Entry) : Utf16 :=
  (if log.needsNewline then [0x0A] else []) ++ (Json.stringify (eventOf log entry) ++ [0x0A])

/-- The directory, and the process that is running. -/
structure World where
  disk : Disk := fun _ => []
  log : Option Log := none

/-- What a file's text is followed by. -/
def World.write (world : World) (file text : Utf16) : Disk := fun other =>
  if other = file then world.disk file ++ text else world.disk other

inductive Label where
  /-- A new process; the one before it is gone. -/
  | start (pulseId : Utf16)
  | append (entry : Entry)
  /-- The process dies when `kept` units of the line are written.  A character that was cut in
  its bytes reads as one that stands for it. -/
  | tear (entry : Entry) (kept : Nat) (garbled : Bool)

/-- What is read of a line that was torn. -/
def torn (line : Utf16) (kept : Nat) (garbled : Bool) : Utf16 :=
  line.take kept ++ if garbled then [0xFFFD] else []

def World.next (world : World) : Label → Option World
  | .start pulseId => some { world with log := some { pulseId } }
  | .append entry => world.log.map fun log =>
      let log := log.counted world.disk entry
      { disk := world.write (fileFor entry) (lineOf log entry)
        log := some { log with needsNewline := false } }
  | .tear entry kept garbled => world.log.bind fun log =>
      let line := lineOf (log.counted world.disk entry) entry
      let cut := (line.drop kept).head?.any fun unit => decide (0x80 ≤ unit)
      if kept < line.length ∧ (garbled = true → cut = true) then
        some { disk := world.write (fileFor entry) (torn line kept garbled), log := none }
      else none

def system : System World Label where
  start world := world = {}
  next := World.next

end EventLog

end TitanRunner
