import TitanRunner.Lib.Interleaving
import TitanRunner.Redact
import TitanRunner.Worker.Broker
import Mathlib.Data.List.Sort

/-!
# Approvals

One row of the table `approvals`: `createApproval` writes it, and `decideApproval`,
`expireApprovals` and `disconnect` run on it in any interleaving.  A request may fail or be
stopped before each of its statements, also after the service was called.
-/

namespace TitanRunner

namespace Approvals

open Utf16 (ofString)
open TransitionSystem System Interleaving Broker

/-! ## What is shown -/

/-- `RESULT_PATTERNS`: the patterns without the e-mail one and the two generic ones. -/
def resultPatterns : List Regex := Redact.secretPatterns.dropLast.dropLast.dropLast

def scrubText (text : Utf16) : Utf16 :=
  resultPatterns.foldl (fun out pattern => pattern.replaceAll (fun _ => Redact.mask) out) text

mutual

/-- `scrubValue`, `depth` levels above the deepest one that is scrubbed. -/
def scrubValue : Nat → Json → Json
  | _, .string text => .string (scrubText text)
  | depth + 1, .array items => .array (scrubItems depth items)
  | depth + 1, .object members => .object (scrubMembers depth members)
  | _, value => value

def scrubItems (depth : Nat) : List Json → List Json
  | [] => []
  | item :: items => scrubValue depth item :: scrubItems depth items

def scrubMembers (depth : Nat) : List (Utf16 × Json) → List (Utf16 × Json)
  | [] => []
  | (name, value) :: members => (name, scrubValue depth value) :: scrubMembers depth members

end

/-- A name that is an array index. -/
def isIndex (name : Utf16) : Bool :=
  name.all Utf16.isDigit && (name == [0x30] || (name.head?.any fun unit => unit != 0x30)) &&
    decide (Json.natOf name < 2 ^ 32 - 1)

/-- `Object.entries`: the array indices in ascending order, then the other names as written. -/
def entriesOf : Json → List (Utf16 × Json)
  | .object members =>
      let names := (members.map Prod.fst).reverse.dedup.reverse
      let ordered := (names.filter isIndex).insertionSort
          (fun left right => Json.natOf left ≤ Json.natOf right) ++
        names.filter fun name => !isIndex name
      ordered.filterMap fun name =>
        ((Json.object members).member name).map fun value => (name, value)
  | .array items =>
      items.zipIdx.map fun (item, index) => (ofString (toString index), item)
  | .string text =>
      text.zipIdx.map fun (unit, index) => (ofString (toString index), .string [unit])
  | _ => []

/-- `input ?? {}` -/
def orEmpty : Json → Json
  | .null => .object []
  | input => input

def textOf : Json → Utf16
  | .string text => text
  | value => Json.stringify value

/-- `previewOf` -/
def previewOf (input : Json) : Utf16 :=
  Utf16.join (ofString ", ") (((entriesOf (scrubValue 10 (orEmpty input))).take 3).map
    fun (name, value) => name ++ ofString "=" ++
      ((Regex.atLeast Utf16.isSpaceUnit 1).replaceAll (fun _ => [0x20]) (textOf value)).take 60)

/-- The text that is shown when a person is asked. -/
def summaryOf (manifest : Manifest) (action : Broker.Action) (input : Json) : Utf16 :=
  let preview := previewOf input
  (ofString (manifest.name ++ ": " ++ action.title) ++
    if preview.isEmpty then [] else ofString " (" ++ preview ++ ofString ")").take 300

/-! ## The row and the requests -/

inductive Status where
  | pending | approved | denied | executed | failed | expired
  deriving DecidableEq, Repr

/-- A row of `approvals`, without the columns that are only shown. -/
structure Row where
  connectionId : String
  connectorId : String
  actionId : String
  summary : Utf16
  inputJson : Utf16
  status : Status
  expiresAt : Nat
  deriving DecidableEq

/-- What a person is asked about.  The input was read from a request, so it is proper. -/
structure Asked where
  connection : Connection
  manifest : Manifest
  action : Broker.Action
  input : Json
  proper : input.isProper = true
  now : Nat

/-- `APPROVAL_HOURS`, in milliseconds. -/
def approvalTime : Nat := 24 * 60 * 60 * 1000

/-- `createApproval`: the row that it inserts. -/
def createApproval (asked : Asked) : Row where
  connectionId := asked.connection.id
  connectorId := asked.manifest.id
  actionId := asked.action.id
  summary := summaryOf asked.manifest asked.action asked.input
  inputJson := Json.stringify (orEmpty asked.input)
  status := .pending
  expiresAt := asked.now + approvalTime

/-- What becomes of an approval. -/
inductive Happening where
  /-- The row went from pending to denied or expired. -/
  | closed (status : Status)
  /-- The call came to the service. -/
  | ran (run : Run)

/-- The row, and what became of it, the last first. -/
structure Table where
  row : Row
  log : List Happening

inductive Decision where
  | approve | deny
  deriving DecidableEq, Repr

/-- Where a request is. -/
inductive Request where
  | idle
  /-- The row was read; it was pending and not too old. -/
  | read (decision : Decision) (row : Row)
  | tooLate
  | denied
  | claimed (row : Row)
  | called (ok : Bool)
  | done

inductive Event where
  | decideApproval (decision : Decision) (now : Nat)
  | expireApprovals (now : Nat)
  | disconnect
  /-- The next statement of `decideApproval`. -/
  | statement
  /-- `invokeAction`, with what it finds and what the service answers. -/
  | invoke (answers : Answers) (ok : Bool)
  /-- The request fails or is stopped. -/
  | stop

/-- `input_json = '{}'` -/
def wiped : Utf16 := ofString "{}"

/-- `UPDATE … SET status = 'expired', input_json = '{}' … AND status = 'pending'` -/
def Table.expire (table : Table) : Table :=
  if table.row.status = .pending then
    { row := { table.row with status := .expired, inputJson := wiped }
      log := .closed .expired :: table.log }
  else table

/-- The call that `decideApproval` makes. -/
def callOf (row : Row) (input : Json) : Call where
  connectionId := row.connectionId
  actionId := row.actionId
  input := input
  caller := { kind := .approval }
  confirm := some (row.connectorId ++ "." ++ row.actionId)

/-- What the call of an approved row comes to, with its outcome. -/
def callApproved (manifests : List Manifest) (row : Row) (answers : Answers) (ok : Bool)
    (table : Table) : Table × Request :=
  match Json.parse row.inputJson with
  | none => (table, .called false)
  | some input =>
      match invokeAction manifests answers (callOf row input) with
      | .ran run => ({ table with log := .ran run :: table.log }, .called ok)
      | .pendingApproval .. => (table, .called true)
      | .threw _ => (table, .called false)

/-- One statement of a request. -/
def step (manifests : List Manifest) (table : Table) : Request → Event → Option (Table × Request)
  | .idle, .decideApproval decision now =>
      if table.row.status ≠ .pending then some (table, .done)
      else if table.row.expiresAt < now then some (table, .tooLate)
      else some (table, .read decision table.row)
  | .idle, .expireApprovals now =>
      some (if table.row.expiresAt < now then table.expire else table, .done)
  | .idle, .disconnect => some (table.expire, .done)
  | .tooLate, .statement => some (table.expire, .done)
  | .read .approve row, .statement =>
      if table.row.status = .pending then
        some ({ table with row.status := .approved }, .claimed row)
      else some (table, .done)
  | .read .deny _, .statement =>
      if table.row.status = .pending then
        some ({ row := { table.row with status := .denied }, log := .closed .denied :: table.log },
          .denied)
      else some (table, .done)
  | .denied, .statement => some ({ table with row.inputJson := wiped }, .done)
  | .claimed row, .invoke answers ok => some (callApproved manifests row answers ok table)
  | .called ok, .statement =>
      some ({ table with
        row.status := if ok then .executed else .failed
        row.inputJson := wiped }, .done)
  | _, .stop => some (table, .done)
  | _, _ => none

def program (manifests : List Manifest) : Program Table Request Event where
  idle := .idle
  step := step manifests

/-- The runs of one approval, with any number of requests. -/
def system (Id : Type) [DecidableEq Id] (manifests : List Manifest) (asked : Asked) :
    System (Pool Id Table Request) (Id × Event) :=
  (program manifests).system Id (· = { row := createApproval asked, log := [] })

/-! ## At most one outcome -/

/-- What a run has to do with what was asked. -/
structure AsAsked (asked : Asked) (run : Run) : Prop where
  action : run.action.id = asked.action.id
  input : run.input = orEmpty asked.input
  authorized : run.risk ≠ .destructive ∧ run.mode ≠ .deny

/-- A pending row is untouched, and nothing became of it yet; nothing ever becomes of it twice. -/
structure Fits (asked : Asked) (table : Table) : Prop where
  summary : table.row.summary = summaryOf asked.manifest asked.action asked.input
  pending : table.row.status = .pending → table.row = createApproval asked ∧ table.log = []
  once : table.log.length ≤ 1
  asAsked : ∀ run, .ran run ∈ table.log → AsAsked asked run

/-- What a request knows: a claim stands until the call is made. -/
def Knows' (asked : Asked) (table : Table) : Request → Prop
  | .read _ row => row = createApproval asked
  | .claimed row => row = createApproval asked ∧ table.row.status ≠ .pending ∧ table.log = []
  | .denied | .called _ => table.row.status ≠ .pending
  | _ => True

def Request.isClaimed : Request → Bool
  | .claimed _ => true
  | _ => false

/-- No two requests hold the claim. -/
def Apart (here other : Request) : Prop := ¬ (here.isClaimed = true ∧ other.isClaimed = true)

variable {manifests : List Manifest} {asked : Asked} {table after : Table}
  {request request' other : Request} {event : Event}

theorem isProper_orEmpty {input : Json} (proper : input.isProper = true) :
    (orEmpty input).isProper = true := by
  cases input with
  | null => rfl
  | _ => exact proper

/-- The approval's call is made with the arguments that were asked about. -/
theorem asAsked_of_ran {answers : Answers} {run : Run} {input : Json}
    (parsed : Json.parse (createApproval asked).inputJson = some input)
    (ran : invokeAction manifests answers (callOf (createApproval asked) input) = .ran run) :
    AsAsked asked run := by
  have same : input = orEmpty asked.input := by
    rw [createApproval, Json.parse_stringify (isProper_orEmpty asked.proper)] at parsed
    exact (Option.some.inj parsed).symm
  have ⟨stored, authorized⟩ := run_authorized ran
  have ⟨connection, found⟩ := stored.action
  constructor
  · have offered := List.find?_some (of_asked found).2.2
    rwa [beq_iff_eq] at offered
  · rw [stored.input]
    exact same
  · constructor
    · intro destructive
      have person := (authorized.destructive destructive).1
      contradiction
    · exact authorized.notDenied

/-- A statement keeps the invariant, and what its own request and the others know. -/
structure Kept (asked : Asked) (table : Table) (request : Request) (after : Table)
    (request' : Request) : Prop where
  fits : Fits asked after
  own : Knows' asked after request'
  others : ∀ other, Knows' asked table other → Apart request other →
    Knows' asked after other ∧ Apart request' other

theorem apart_of_free (free : request.isClaimed = false) : Apart request other := by
  intro both
  rw [free] at both
  exact Bool.false_ne_true both.1

/-- The table as it was. -/
theorem Kept.same (fits : Fits asked table) (own : Knows' asked table request')
    (free : request'.isClaimed = false) : Kept asked table request table request' :=
  ⟨fits, own, fun _ known _ => ⟨known, apart_of_free free⟩⟩

/-- A pending row is closed. -/
theorem Kept.closed {status : Status} {inputJson : Utf16} (fits : Fits asked table)
    (pending : table.row.status = .pending) (closes : status ≠ .pending)
    (own : ∀ after : Table, after.row.status ≠ .pending → Knows' asked after request')
    (free : request'.isClaimed = false) :
    Kept asked table request
      { row := { table.row with status := status, inputJson := inputJson }
        log := .closed status :: table.log } request' := by
  have ⟨_, empty⟩ := fits.pending pending
  constructor
  · constructor
    · exact fits.summary
    · exact fun still => absurd still closes
    · rw [empty]
      exact Nat.le_refl 1
    · rw [empty]
      intro run ran
      simp at ran
  · exact own _ closes
  · intro other known _
    refine ⟨?_, apart_of_free free⟩
    cases other with
    | claimed row => exact absurd pending known.2.1
    | denied => exact absurd pending known
    | called ok => exact absurd pending known
    | _ => exact known

theorem Kept.expired (fits : Fits asked table) : Kept asked table request table.expire .done := by
  unfold Table.expire
  split
  next pending => exact .closed fits pending (by decide) (fun _ _ => trivial) rfl
  next => exact .same fits trivial rfl

/-- A row that is no longer pending is written, and its log is left as it is. -/
theorem Kept.settled {row : Row} (fits : Fits asked table) (settled : row.status ≠ .pending)
    (same : row.summary = table.row.summary) :
    Kept asked table request { table with row } .done := by
  constructor
  · exact ⟨same ▸ fits.summary, fun still => absurd still settled, fits.once, fits.asAsked⟩
  · trivial
  · intro other known _
    refine ⟨?_, apart_of_free rfl⟩
    cases other with
    | claimed row => exact ⟨known.1, settled, known.2.2⟩
    | denied => exact settled
    | called ok => exact settled
    | _ => exact known

/-- The claim: nobody else holds it, since the row was pending. -/
theorem Kept.claim {row : Row} (fits : Fits asked table) (read : row = createApproval asked)
    (pending : table.row.status = .pending) :
    Kept asked table request { table with row.status := .approved } (.claimed row) := by
  have ⟨_, empty⟩ := fits.pending pending
  have approved : Status.approved ≠ .pending := by decide
  constructor
  · exact ⟨fits.summary, fun still => absurd still approved, fits.once, fits.asAsked⟩
  · exact ⟨read, approved, empty⟩
  · intro other known _
    cases other with
    | claimed row => exact absurd pending known.2.1
    | denied => exact absurd pending known
    | called ok => exact absurd pending known
    | _ => exact ⟨known, fun both => Bool.false_ne_true both.2⟩

/-- The call of the one request that holds the claim. -/
theorem Kept.call {row : Row} (answers : Answers) (ok : Bool) (fits : Fits asked table)
    (known : Knows' asked table (.claimed row)) :
    Kept asked table (.claimed row) (callApproved manifests row answers ok table).1
      (callApproved manifests row answers ok table).2 := by
  have ⟨read, settled, empty⟩ := known
  subst read
  unfold callApproved
  split
  next => exact .same fits settled rfl
  next input parsed =>
    split
    next run ran =>
      constructor
      · constructor
        · exact fits.summary
        · exact fun pending => absurd pending settled
        · rw [empty]
          exact Nat.le_refl 1
        · rw [empty]
          intro run' logged
          have same : run' = run := by simpa using logged
          exact same ▸ asAsked_of_ran parsed ran
      · exact settled
      · intro other known apart
        refine ⟨?_, apart_of_free rfl⟩
        cases other with
        | claimed row => exact absurd ⟨rfl, rfl⟩ apart
        | _ => exact known
    next => exact .same fits settled rfl
    next => exact .same fits settled rfl

/-- Step lemma. -/
theorem Kept.of_step (fits : Fits asked table) (known : Knows' asked table request)
    (took : step manifests table request event = some (after, request')) :
    Kept asked table request after request' := by
  unfold step at took
  split at took
  next decision now =>
    split at took
    next =>
      cases took
      exact .same fits trivial rfl
    next pending =>
      split at took
      next =>
        cases took
        exact .same fits trivial rfl
      next =>
        cases took
        exact .same fits (fits.pending (not_not.1 pending)).1 rfl
  next now =>
    cases took
    split
    next => exact .expired fits
    next => exact .same fits trivial rfl
  next =>
    cases took
    exact .expired fits
  next =>
    cases took
    exact .expired fits
  next row =>
    split at took
    next pending =>
      cases took
      exact .claim fits known pending
    next =>
      cases took
      exact .same fits trivial rfl
  next row =>
    split at took
    next pending =>
      cases took
      exact .closed fits pending (by decide) (fun _ settled => settled) rfl
    next =>
      cases took
      exact .same fits trivial rfl
  next =>
    cases took
    exact .settled fits known rfl
  next row answers ok =>
    have kept := @Kept.call manifests asked table row answers ok fits known
    rw [Option.some.inj took] at kept
    exact kept
  next ok =>
    cases took
    refine .settled fits ?_ rfl
    cases ok <;> simp
  next =>
    cases took
    exact .same fits trivial rfl
  next => contradiction

/-- The requests respect what every one of them knows. -/
theorem respects : (program manifests).Respects (fun _ _ _ => True) (Fits asked) (Knows' asked)
    Apart where
  symm apart both := apart both.symm
  guarantee fits known _ took := by
    have kept := Kept.of_step fits known took
    exact ⟨kept.fits, kept.own⟩
  rely fits known other apart _ took := (Kept.of_step fits known took).others _ other apart

/-- The runs among what became of an approval. -/
def runs (log : List Happening) : List Run :=
  log.filterMap fun
    | .ran run => some run
    | .closed _ => none

theorem mem_runs {log : List Happening} {run : Run} : run ∈ runs log ↔ .ran run ∈ log := by
  unfold runs
  rw [List.mem_filterMap]
  constructor
  · intro ⟨happening, listed, is⟩
    cases happening with
    | closed => contradiction
    | ran run' => exact Option.some.inj is ▸ listed
  · exact fun listed => ⟨_, listed, rfl⟩

theorem summaryOf_orEmpty (manifest : Manifest) (action : Broker.Action) (input : Json) :
    summaryOf manifest action (orEmpty input) = summaryOf manifest action input := by
  cases input <;> rfl

theorem fits_start (asked : Asked) :
    Fits asked { row := createApproval asked, log := [] } ∧
      Knows' asked { row := createApproval asked, log := [] } .idle := by
  refine ⟨⟨rfl, fun _ => ⟨rfl, rfl⟩, Nat.zero_le 1, ?_⟩, trivial⟩
  intro run ran
  contradiction

def quadruple : Manifest :=
  ⟨"mcp", "MCP", [⟨"call", "Call", .write, .internal, none, 60⟩]⟩

/-- A question about four arguments; the last one is a text of one unit. -/
def askedOf (last : UInt16) : Asked where
  connection := ⟨"c1", "mcp", .connected⟩
  manifest := quadruple
  action := ⟨"call", "Call", .write, .internal, none, 60⟩
  input := .object [(ofString "a", .number [0x31]), (ofString "b", .number [0x31]),
    (ofString "c", .number [0x31]), (ofString "d", .string [last])]
  proper := rfl
  now := 0

/-- Approved and run. -/
def approves : List (Unit × Event) :=
  [((), .decideApproval .approve 1), ((), .statement),
    ((), .invoke { connection := some ⟨"c1", "mcp", .connected⟩ } true)]

/-- The pool before any request. -/
def begun (asked : Asked) : Pool Unit Table Request :=
  ⟨{ row := createApproval asked, log := [] }, fun _ => .idle⟩

theorem exists_run_of_exec {labels : List (Unit × Event)}
    (ran : ((system Unit manifests asked).exec always (begun asked) labels).map
      (fun pool => (runs pool.shared.log).length) = some 1) :
    ∃ pool : Pool Unit Table Request, Reachable (system Unit manifests asked) always pool ∧
      Fits asked pool.shared ∧ ∃ run ∈ runs pool.shared.log, AsAsked asked run := by
  have ⟨pool, executed, one⟩ := Option.map_eq_some_iff.1 ran
  have reached : Reachable (system Unit manifests asked) always pool :=
    .of_exec (.start ⟨rfl, fun _ => rfl⟩) executed
  have known :=
    Program.Respects.reachable respects (fun table started => started ▸ fits_start asked)
    (fun both => Bool.false_ne_true both.1) (reached.mono fun _ _ _ => trivial)
  have ⟨run, is⟩ := List.length_eq_one_iff.1 one
  have listed : run ∈ runs pool.shared.log := is ▸ List.mem_singleton_self run
  exact ⟨pool, reached, known.shared, run, listed, known.shared.asAsked run (mem_runs.1 listed)⟩

/-- An approved action comes to the service at most once, never once the row was denied or
expired, and with the arguments that the summary is the preview of. -/
theorem approval_runs_once (Id : Type) [DecidableEq Id] (manifests : List Manifest) (asked : Asked)
    (pool : Pool Id Table Request)
    (reached : Reachable (system Id manifests asked) always pool) :
    (runs pool.shared.log).length ≤ 1 ∧
    (∀ status, .closed status ∈ pool.shared.log → runs pool.shared.log = []) ∧
    ∀ run ∈ runs pool.shared.log, run.action.id = asked.action.id ∧
      run.input = orEmpty asked.input ∧
      pool.shared.row.summary = summaryOf asked.manifest asked.action run.input := by
  have known :=
    Program.Respects.reachable respects (fun table started => started ▸ fits_start asked)
    (fun both => Bool.false_ne_true both.1) (reached.mono fun _ _ _ => trivial)
  have few := known.shared.once
  refine ⟨(List.length_filterMap_le _ _).trans few, ?_, ?_⟩
  · intro status closed
    have ⟨before, rest, is⟩ := List.append_of_mem closed
    have alone : before = [] ∧ rest = [] := by
      rw [is, List.length_append, List.length_cons] at few
      exact ⟨List.length_eq_zero_iff.1 (by omega), List.length_eq_zero_iff.1 (by omega)⟩
    rw [is, alone.1, alone.2]
    rfl
  · intro run ran
    have asAsked := known.shared.asAsked run (mem_runs.1 ran)
    refine ⟨asAsked.action, asAsked.input, ?_⟩
    rw [asAsked.input, summaryOf_orEmpty]
    exact known.shared.summary

/-- Approved, run once, with all four arguments. -/
theorem approval_runs_once_approved :
    ∃ pool : Pool Unit Table Request, ∃ run ∈ runs pool.shared.log,
      (runs pool.shared.log).length ≤ 1 ∧ run.input = (askedOf 0x31).input := by
  have ⟨pool, reached, _, run, listed, _⟩ := @exists_run_of_exec [quadruple]
    (askedOf 0x31) approves (by decide)
  have once := approval_runs_once Unit [quadruple] (askedOf 0x31) pool reached
  exact ⟨pool, run, listed, once.1, (once.2.2 run listed).2.1⟩

/-! ## What the summary leaves out -/

/-- The fourth argument is run, and the summary does not show it. -/
theorem not_approval_runs_shown :
    ¬ ∀ (asked asked' : Asked) (pool pool' : Pool Unit Table Request),
      Reachable (system Unit [quadruple] asked) always pool →
      Reachable (system Unit [quadruple] asked') always pool' →
      pool.shared.row.summary = pool'.shared.row.summary →
      ∀ run ∈ runs pool.shared.log, ∀ run' ∈ runs pool'.shared.log,
        run.action.id = run'.action.id → run.input = run'.input := by
  intro claimed
  have ⟨pool, reached, fits, run, listed, asAsked⟩ := @exists_run_of_exec [quadruple]
    (askedOf 0x31) approves (by decide)
  have ⟨pool', reached', fits', run', listed', asAsked'⟩ := @exists_run_of_exec [quadruple]
    (askedOf 0x32) approves (by decide)
  have shown : pool.shared.row.summary = pool'.shared.row.summary := by
    rw [fits.summary, fits'.summary]
    decide
  have same := claimed _ _ pool pool' reached reached' shown run listed run' listed'
    (asAsked.action.trans asAsked'.action.symm)
  rw [asAsked.input, asAsked'.input] at same
  simp [askedOf, orEmpty] at same

end Approvals

end TitanRunner
