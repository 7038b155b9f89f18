import TitanRunner.Intake
import TitanRunner.Lib.Archival
import TitanRunner.Lib.IsoDate
import TitanRunner.State.Archive
import TitanRunner.Validate

/-!
# Monthly archives

`state/archive.js`, and what `state/maintenance.js` and `archiveOldTasks` of `state/store.js`
do with it.  Old files of `state/` are merged into one archive for each month and deleted.
An archive is taken as the list of its records: its lines are their JSON texts, compressed.
Each function gives what it does to the disk, one thing after the other, and whether it comes
to its end: `toISOString` throws for a time that no date can hold.
-/

namespace TitanRunner

namespace Archive

open Utf16 (ofString)

/-- How texts and numbers are read as times: `Date.parse`, and the whole milliseconds of a
number that is finite. -/
structure Dates where
  parse : Utf16 → Option Int
  ofNumber : Utf16 → Option Int

/-- A value of an object's member in a text. -/
def inText : Option Json → Utf16
  | none => ofString "undefined"
  | some value => Validate.display value

/-- `typeof value === 'number' ? value : Date.parse(String(value ?? ''))`, if it is finite. -/
def Dates.read (dates : Dates) : Option Json → Option Int
  | none | some .null => dates.parse []
  | some (.number text) => dates.ofNumber text
  | some value => dates.parse (Validate.display value)

/-- A value that counts as true. -/
def truthy : Json → Bool
  | .null => false
  | .bool value => value
  | .number text => decide ((Json.decimal text).digits ≠ 0)
  | .string text => !text.isEmpty
  | .array _ | .object _ => true

/-- `new Date(ms).toISOString().slice(0, 7)` -/
def monthText (ms : Int) : Utf16 := (ofString (IsoDate.toISOString ms)).take 7

/-- A file of a directory. -/
structure Entry where
  file : Utf16
  text : Utf16
  mtimeMs : Int
  deriving DecidableEq

abbrev Effect (Item Record : Type) := Archival.Effect Item Utf16 Record

/-- What a function does to the disk. -/
structure Outcome (Item Record : Type) where
  effects : List (Effect Item Record) := []
  /-- It does not throw. -/
  ends : Bool := true

/-- The items by month, in the order of the first of each. -/
def byMonth {Item : Type} (monthOf : Item → Utf16) (items : List Item) :
    List (Utf16 × List Item) :=
  (items.map monthOf).eraseDups.map fun month =>
    (month, items.filter fun item => decide (monthOf item = month))

/-! ## Files of one record -/

structure RollOptions where
  keepDays : Int
  accept : Utf16 → Bool := fun _ => true
  /-- Nothing if the file cannot be read. -/
  read : Entry → Option Json
  dateOf : Json → Entry → Option Int
  idOf : Json → Utf16
  keepNewest : Nat := 0
  maxFiles : Option Nat := none

/-- A file with its record and its time. -/
structure Dated where
  entry : Entry
  record : Json
  ms : Int

/-- The record of a file that is accepted and can be read. -/
def RollOptions.recordOf (options : RollOptions) (entry : Entry) : Option Json :=
  if options.accept entry.file then (options.read entry).filter truthy else none

/-- The dated files of the directory, the newest first. -/
def RollOptions.entries (options : RollOptions) (dir : List Entry) : List Dated :=
  (dir.filterMap fun entry => (options.recordOf entry).bind fun record =>
    (options.dateOf record entry).map fun ms => { entry, record, ms }).insertionSort
      fun left right => right.ms ≤ left.ms

/-- The files that go: not among the newest, and too old or too many. -/
def RollOptions.old (options : RollOptions) (now : Int) (dir : List Entry) : List Dated :=
  let cutoff := now - options.keepDays * 86400000
  ((options.entries dir).zipIdx.filter fun (dated, index) =>
    decide (options.keepNewest ≤ index) &&
      (decide (dated.ms < cutoff) || options.maxFiles.any fun most => decide (most ≤ index))).map
    Prod.fst

/-- `unlinkSync` -/
def unlink {Record : Type} (file : Utf16) : Effect Entry Record :=
  .remove fun entry => decide (entry.file = file)

/-- `rollOldFiles` -/
def rollOldFiles (options : RollOptions) (now : Int) (dir : List Entry) : Outcome Entry Json :=
  let old := options.old now dir
  if old.all fun dated => IsoDate.isTimeValue dated.ms then
    { effects := (byMonth (fun dated => monthText dated.ms) old).flatMap fun (month, list) =>
        .write month (list.map Dated.record) :: list.map fun dated => unlink dated.entry.file }
  else { ends := false }

/-! ## Files of one record a line -/

def isDate (text : Utf16) : Bool :=
  decide (text.length = 10) && (text.take 4).all Utf16.isDigit && text[4]? == some 0x2D &&
    ((text.drop 5).take 2).all Utf16.isDigit && text[7]? == some 0x2D &&
    (text.drop 8).all Utf16.isDigit

/-- The first date in the name of a file. -/
def dateInName : Utf16 → Option Utf16
  | [] => none
  | unit :: rest =>
      if isDate ((unit :: rest).take 10) then some ((unit :: rest).take 10) else dateInName rest

/-- The lines of a file that are not empty. -/
def linesOf (text : Utf16) : List Utf16 :=
  (Utf16.split 0x0A text).filter fun line => !line.isEmpty

/-- The records of the lines that can be read. -/
def recordsOf (text : Utf16) : List Json :=
  (linesOf text).filterMap fun line => (Json.parse line).filter truthy

/-- The month a review is archived under: that of its time, or of the file.  Nothing if it
throws. -/
def reviewMonth (dates : Dates) (date : Utf16) (record : Json) : Option Utf16 :=
  match dates.read (record.member (ofString "ts")) with
  | some ms => if IsoDate.isTimeValue ms then some (monthText ms) else none
  | none =>
      match dates.parse (date ++ ofString "T00:00:00Z") with
      | some ms => if IsoDate.isTimeValue ms then some (monthText ms) else none
      | none => some (ofString "null")

/-- A file that goes: its day is over for long, and every line can be read. -/
def isOldReviews (dates : Dates) (cutoff : Int) (entry : Entry) : Bool :=
  (ofString ".jsonl").isSuffixOf entry.file &&
    (dateInName entry.file).any fun date =>
      !((dates.parse (date ++ ofString "T23:59:59Z")).any fun ms => decide (cutoff ≤ ms)) &&
        decide ((recordsOf entry.text).length = (linesOf entry.text).length)

/-- `rollReviewFiles` -/
def rollReviewFiles (dates : Dates) (cutoff : Int) : List Entry → Outcome Entry Json
  | [] => {}
  | entry :: rest =>
      if isOldReviews dates cutoff entry then
        let date := (dateInName entry.file).getD []
        let records := recordsOf entry.text
        if records.all fun record => (reviewMonth dates date record).isSome then
          let monthOf record := (reviewMonth dates date record).getD []
          let later := rollReviewFiles dates cutoff rest
          { later with
            effects := (byMonth monthOf records).map (fun (month, list) => .write month list) ++
              unlink entry.file :: later.effects }
        else { ends := false }
      else rollReviewFiles dates cutoff rest

/-! ## The directories of `runMaintenance` -/

/-- The record of a file that is one JSON text. -/
def readJson (entry : Entry) : Option Json := Json.parse entry.text

def runsOptions (dates : Dates) : RollOptions where
  keepDays := 14
  accept file := (ofString ".json").isSuffixOf file
  read := readJson
  dateOf run entry :=
    match run.member (ofString "createdAt") with
    | none | some .null => some entry.mtimeMs
    | some date => dates.read (some date)
  idOf run := inText (run.member (ofString "runId"))
  keepNewest := 10
  maxFiles := some 60

def eventSummariesOptions (dates : Dates) : RollOptions where
  keepDays := 90
  accept file := isDate (file.take 10) && decide (file.drop 10 = ofString ".json")
  read := readJson
  dateOf record entry :=
    let date := match record.member (ofString "date") with
      | none | some .null => (dateInName entry.file).getD (ofString "null")
      | some date => Validate.display date
    dates.parse (date ++ ofString "T00:00:00Z")
  idOf record := inText (record.member (ofString "date"))

def digestsOptions (dates : Dates) : RollOptions where
  keepDays := 60
  accept file := (ofString ".md").isSuffixOf file && (dateInName file).isSome
  read entry :=
    some (.object [(ofString "name", .string entry.file), (ofString "text", .string entry.text)])
  dateOf _ entry :=
    dates.parse ((dateInName entry.file).getD (ofString "null") ++ ofString "T00:00:00Z")
  idOf record := inText (record.member (ofString "name"))

/-- `KEEP_DAYS.reviews` -/
def reviewDays : Int := 60

def reviewsCutoff (now : Int) : Int := now - reviewDays * 86400000

/-- `${r.ts}|${r.toolId}|${r.verdict}|${r.layer}` -/
def reviewId (record : Json) : Utf16 :=
  Utf16.join (ofString "|") (["ts", "toolId", "verdict", "layer"].map fun name =>
    inText (record.member (ofString name)))

/-- `${r.ts}|${r.toolId}` -/
def reviewKey (record : Json) : Utf16 :=
  Utf16.join (ofString "|") (["ts", "toolId"].map fun name => inText (record.member (ofString name)))

/-! ## The queue -/

/-- `String(t.completedAt).slice(0, 7)` -/
def taskMonth (task : Task) : Option Utf16 := task.completedAt.map monthText

/-- The archive's part of `archiveOldTasks`, and the save of the queue without the tasks that
went to the archive. -/
def rollOldTasks (now : Time) (options : Options) (tasks : List Task) : List (Effect Task Task) :=
  let archive := (archiveOldTasks now options tasks).2
  if archive.isEmpty then []
  else
    (byMonth (fun task => (taskMonth task).getD []) archive).map
        (fun (month, rows) => .write month (rows.map Intake.scrubForState)) ++
      [.remove fun task => isOld now options task]

end Archive

end TitanRunner
