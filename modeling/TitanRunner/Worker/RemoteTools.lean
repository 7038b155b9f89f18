import TitanRunner.Lib.Interleaving
import TitanRunner.Lib.KeyedList
import TitanRunner.Validate

/-!
# The tools of a remote server

The rows of `mcp_remote_tools` of one connection.  A refresh writes what the server lists, and the
owner sets the risk of each tool; `mcpClient.js`, with the risk that the broker takes.
-/

namespace TitanRunner

namespace RemoteTools

open TransitionSystem System Interleaving Utf16

inductive Risk where
  | read | write | destructive
  deriving DecidableEq, Repr

def Risk.strictness : Risk → Nat
  | .read => 0
  | .write => 1
  | .destructive => 2

/-- The risk that a text names. -/
def Risk.ofText (text : Utf16) : Option Risk :=
  if text = ofString "read" then some .read
  else if text = ofString "write" then some .write
  else if text = ofString "destructive" then some .destructive
  else none

/-! ## What the server lists -/

structure Tool where
  name : Utf16
  description : Utf16
  inputSchema : Option Json

/-- `MAX_TOOLS` -/
def maxTools : Nat := 200

/-- `MAX_PAGES` -/
def maxPages : Nat := 5

def clip (length : Nat) (text : Utf16) : Utf16 :=
  if text.length > length then text.take (length - 3) ++ ofString "..." else text

/-- `/^[A-Za-z0-9_.:-]{1,100}$/` -/
def isToolName (name : Utf16) : Bool :=
  1 ≤ name.length && name.length ≤ 100 &&
    name.all fun unit => isAlnum unit || Regex.among "_.:-" unit

/-- `value ?? fallback` of a member. -/
def present (value : Json) (name : String) : Option Json :=
  match value.member (ofString name) with
  | some .null => none
  | found => found

/-- An entry of the list, if it is taken. -/
def toolOf (entry : Json) : Option Tool :=
  match entry.member (ofString "name") with
  | some (.string name) =>
      if isToolName name then
        some {
          name
          description := clip 300 (((present entry "description").map Validate.display).getD [])
          inputSchema := present entry "inputSchema" }
      else none
  | _ => none

/-- `result.tools ?? []`; none where the loop over it throws. -/
def entriesOf (result : Json) : Option (List Json) :=
  match result with
  | .null => none
  | _ =>
      match present result "tools" with
      | none => some []
      | some (.array entries) => some entries
      | some (.string _) => some []
      | some _ => none

/-- The entries of a page join the list until it is full. -/
def collect (tools : List Tool) (entries : List Json) : List Tool :=
  entries.foldl (fun tools entry =>
    match toolOf entry with
    | some tool => if tools.length < maxTools then tools ++ [tool] else tools
    | none => tools) tools

/-- The loop over the pages; none where it throws.  The answers of the server are given, and the
call after the last of them fails. -/
def pagesFrom : Nat → List Json → List Tool → Option (List Tool)
  | 0, _, tools => some tools
  | _ + 1, [], _ => none
  | pages + 1, result :: results, tools =>
      match entriesOf result with
      | none => none
      | some entries =>
          let tools := collect tools entries
          if (result.member (ofString "nextCursor")).any Json.truthy then pagesFrom pages results tools
          else some tools

def listRemoteTools (results : List Json) : Option (List Tool) := pagesFrom maxPages results []

/-! ## The table -/

structure Row where
  name : Utf16
  description : Utf16
  inputSchema : Option Utf16
  risk : Risk
  fetchedAt : Nat

/-- What bears on the risk of a tool. -/
inductive Entry where
  | set (name : Utf16) (risk : Risk)
  | removed (name : Utf16)
  deriving DecidableEq

/-- The rows, and what the owner set and the refreshes removed, the latest first. -/
structure Table where
  rows : List Row := []
  log : List Entry := []

def Table.row (table : Table) (name : Utf16) : Option Row := KeyedList.get Row.name table.rows name

def Table.toolRisk (table : Table) (name : Utf16) : Option Risk := (table.row name).map Row.risk

/-- The risk that the broker decides by. -/
def Table.applies (table : Table) (name : Utf16) : Risk := (table.toolRisk name).getD .write

/-- The text that is kept of a schema. -/
def schemaText (schema : Option Json) : Option Utf16 :=
  ((schema.filter Json.truthy).map Json.stringify).filter fun text => text.length ≤ 8000

/-- `INSERT ... ON CONFLICT`: a new row starts with the risk `write`. -/
def Table.upsert (now : Nat) (table : Table) (tool : Tool) : Table :=
  { table with
    rows := KeyedList.insert Row.name table.rows {
      name := tool.name
      description := tool.description
      inputSchema := schemaText tool.inputSchema
      risk := table.applies tool.name
      fetchedAt := now } }

def Table.delete (table : Table) (name : Utf16) : Table :=
  { rows := table.rows.filter fun row => row.name ≠ name
    log := if (table.row name).isSome then .removed name :: table.log else table.log }

/-- The batch of a refresh, which is one transaction: the tools are written, and those that left
are deleted. -/
def Table.refresh (table : Table) (known : List Utf16) (tools : List Tool) (now : Nat) : Table :=
  (known.filter fun name => !tools.any fun tool => tool.name = name).foldl Table.delete
    (tools.foldl (Table.upsert now) table)

/-- `setToolRisk`; the name may be in no row. -/
def Table.setToolRisk (table : Table) (name : Utf16) (risk : Risk) : Table :=
  match table.row name with
  | none => table
  | some row =>
      { rows := KeyedList.set Row.name table.rows { row with risk }
        log := .set name risk :: table.log }

/-! ## Requests -/

inductive Request where
  | idle
  /-- The server's list is read. -/
  | listed (tools : List Tool)
  /-- The rows are read. -/
  | known (tools : List Tool) (known : List (Utf16 × Risk))
  /-- A refresh ended, with what it answers. -/
  | refreshed (tools : List (Utf16 × Utf16 × Risk))
  | done

inductive Event where
  /-- A refresh; the server answers with these results, page by page. -/
  | refreshRemoteTools (results : List Json)
  | setToolRisk (name risk : Utf16)
  | statement (now : Nat)
  | stop

/-- What a refresh answers. -/
def answer (tools : List Tool) (known : List (Utf16 × Risk)) : List (Utf16 × Utf16 × Risk) :=
  tools.map fun tool => (tool.name, tool.description, (known.lookup tool.name).getD .write)

def step (table : Table) : Request → Event → Option (Table × Request)
  | .idle, .refreshRemoteTools results =>
      some (table,
        match listRemoteTools results with
        | none => .done
        | some tools => .listed tools)
  | .listed tools, .statement _ =>
      some (table, .known tools (table.rows.map fun row => (row.name, row.risk)))
  | .known tools known, .statement now =>
      some (table.refresh (known.map Prod.fst) tools now, .refreshed (answer tools known))
  | .idle, .setToolRisk name risk =>
      match Risk.ofText risk with
      | none => some (table, .done)
      | some risk => some (table.setToolRisk name risk, .done)
  | _, .stop => some (table, .done)
  | _, _ => none

def program : Program Table Request Event where
  idle := .idle
  step := step

/-- The runs of one connection, from no tools. -/
def system (Id : Type) [DecidableEq Id] : System (Pool Id Table Request) (Id × Event) :=
  program.system Id fun table => table = {}

/-! ## The risk that stands -/

/-- The risk that the owner set last. -/
def lastSet (name : Utf16) : List Entry → Option Risk
  | [] => none
  | .set other risk :: log => if other = name then some risk else lastSet name log
  | .removed _ :: log => lastSet name log

/-- The risk that the owner set last since the tool was removed last. -/
def standing (name : Utf16) : List Entry → Risk
  | [] => .write
  | .set other risk :: log => if other = name then risk else standing name log
  | .removed other :: log => if other = name then .write else standing name log

/-- The tool was removed after the owner set its risk last. -/
def removedSince (name : Utf16) : List Entry → Bool
  | [] => false
  | .set other _ :: log => other ≠ name && removedSince name log
  | .removed other :: log => other = name || removedSince name log

variable {table : Table} {name : Utf16} {log : List Entry}

theorem set_mem_of_standing_eq_read (reads : standing name log = .read) :
    .set name .read ∈ log := by
  induction log with
  | nil => contradiction
  | cons entry log ih =>
    cases entry with
    | set other risk =>
      rw [standing] at reads
      split at reads
      next same =>
        subst same reads
        exact List.mem_cons_self
      next => exact List.mem_cons_of_mem _ (ih reads)
    | removed other =>
      rw [standing] at reads
      split at reads
      next => contradiction
      next => exact List.mem_cons_of_mem _ (ih reads)

theorem standing_of_lastSet {risk : Risk} (last : lastSet name log = some risk)
    (stays : removedSince name log = false) : standing name log = risk := by
  induction log with
  | nil => contradiction
  | cons entry log ih =>
    cases entry with
    | set other risk' =>
      rw [lastSet] at last
      rw [standing]
      split at last
      next same =>
        rw [if_pos same]
        exact Option.some.inj last
      next differs =>
        rw [if_neg differs]
        simp only [removedSince, ne_eq, differs, not_false_eq_true, decide_true,
          Bool.true_and] at stays
        exact ih last stays
    | removed other =>
      simp only [removedSince, Bool.or_eq_false_iff, decide_eq_false_iff_not] at stays
      rw [standing, if_neg stays.1]
      exact ih last stays.2

/-- The table holds the risk that stands. -/
def Stands (table : Table) : Prop := ∀ name, table.applies name = standing name table.log

theorem applies_upsert (now : Nat) (table : Table) (tool : Tool) (name : Utf16) :
    (table.upsert now tool).applies name = table.applies name := by
  rw [Table.applies, Table.toolRisk, Table.row, Table.upsert, KeyedList.get_insert]
  split
  next same =>
    subst same
    rfl
  next => rfl

theorem Stands.upsert (stands : Stands table) (now : Nat) (tool : Tool) :
    Stands (table.upsert now tool) := fun name =>
  (applies_upsert now table tool name).trans (stands name)

theorem row_delete (name' : Utf16) :
    (table.delete name).row name' = if name' = name then none else table.row name' := by
  have found := @KeyedList.get_filter_key _ _ _ Row.name table.rows name'
    fun other => decide (other ≠ name)
  rw [Table.row, Table.delete]
  refine found.trans ?_
  by_cases same : name' = name
  · simp [same]
  · simp [same, Table.row]

theorem Stands.delete (stands : Stands table) (name : Utf16) : Stands (table.delete name) := by
  intro name'
  rw [Table.applies, Table.toolRisk, row_delete]
  by_cases same : name' = name
  · subst same
    rw [if_pos rfl, Table.delete]
    cases found : table.row name' with
    | none =>
      have stood := stands name'
      rw [Table.applies, Table.toolRisk, found] at stood
      exact stood
    | some row => exact (if_pos rfl).symm
  · rw [if_neg same, Table.delete]
    refine (stands name').trans ?_
    split
    next => exact (if_neg (Ne.symm same)).symm
    next => rfl

theorem Stands.refresh (stands : Stands table) (known : List Utf16) (tools : List Tool)
    (now : Nat) : Stands (table.refresh known tools now) := by
  have upserted : ∀ (tools : List Tool) (table : Table), Stands table →
      Stands (tools.foldl (Table.upsert now) table) := by
    intro tools
    induction tools with
    | nil => exact fun _ => id
    | cons tool tools ih => exact fun table stands => ih _ (stands.upsert now tool)
  have deleted : ∀ (names : List Utf16) (table : Table), Stands table →
      Stands (names.foldl Table.delete table) := by
    intro names
    induction names with
    | nil => exact fun _ => id
    | cons name names ih => exact fun table stands => ih _ (stands.delete name)
  exact deleted _ _ (upserted tools table stands)

theorem Stands.setToolRisk (stands : Stands table) (name : Utf16) (risk : Risk) :
    Stands (table.setToolRisk name risk) := by
  rw [Table.setToolRisk]
  split
  next => exact stands
  next row found =>
    have named := KeyedList.key_of_get found
    intro name'
    rw [Table.applies, Table.toolRisk, Table.row, KeyedList.get_set, standing]
    by_cases same : name = name'
    · subst same
      rw [Table.row] at found
      simp [found, named]
    · rw [if_neg same, ← stands name', Table.applies, Table.toolRisk, Table.row]
      cases KeyedList.get Row.name table.rows name' with
      | none => rfl
      | some other => simp [named, Ne.symm same]

/-- Step lemma. -/
theorem Stands.step {request request' : Request} {event : Event} {after : Table}
    (stands : Stands table) (took : step table request event = some (after, request')) :
    Stands after := by
  unfold RemoteTools.step at took
  split at took
  next =>
    cases took
    exact stands
  next =>
    cases took
    exact stands
  next =>
    cases took
    exact stands.refresh _ _ _
  next =>
    split at took
    next =>
      cases took
      exact stands
    next =>
      cases took
      exact stands.setToolRisk _ _
  next =>
    cases took
    exact stands
  next => contradiction

/-- Run lemma. -/
theorem Stands.reachable {Id : Type} [DecidableEq Id] {pool : Pool Id Table Request}
    (reached : Reachable (system Id) always pool) : Stands pool.shared := by
  apply reached.invariant fun pool => Stands pool.shared
  · intro pool started name
    rw [started.1]
    rfl
  · intro pool label after _ stands _ stepped
    obtain ⟨shared, here, took, same⟩ := Program.exists_step stepped
    subst same
    exact stands.step took

/-- In every run the risk that applies to a tool is the one that the owner set last since a
refresh removed the tool, and `write` when there is none.  So it is `read` only if the owner set
it to `read`, and it is the last one that the owner set unless a refresh removed the tool since. -/
theorem risk_stands (Id : Type) [DecidableEq Id] (pool : Pool Id Table Request)
    (reached : Reachable (system Id) always pool) (name : Utf16) :
    pool.shared.applies name = standing name pool.shared.log ∧
      (pool.shared.applies name = .read → .set name .read ∈ pool.shared.log) ∧
      ∀ risk, lastSet name pool.shared.log = some risk →
        pool.shared.applies name = risk ∨ removedSince name pool.shared.log = true := by
  have stands := Stands.reachable reached name
  refine ⟨stands, ?_, ?_⟩
  · intro reads
    exact set_mem_of_standing_eq_read (stands.symm.trans reads)
  · intro risk last
    cases stays : removedSince name pool.shared.log with
    | true => exact .inr rfl
    | false => exact .inl (stands.trans (standing_of_lastSet last stays))

def begun : Pool Nat Table Request := ⟨{}, fun _ => .idle⟩

theorem begun_start : (system Nat).start begun := ⟨rfl, fun _ => rfl⟩

def echo : Utf16 := ofString "echo"

/-- The server lists one tool, or none. -/
def listing (names : List Utf16) : Json :=
  .object [(ofString "tools", .array (names.map fun name =>
    .object [(ofString "name", .string name)]))]

def refreshes (id : Nat) (names : List Utf16) : List (Nat × Event) :=
  [(id, .refreshRemoteTools [listing names]), (id, .statement 0), (id, .statement 0)]

/-- The owner sets a tool to `read` while a refresh that lists it is under way. -/
theorem risk_stands_read : ∃ pool : Pool Nat Table Request,
    pool.shared.applies echo = .read ∧ .set echo .read ∈ pool.shared.log := by
  let labels : List (Nat × Event) := refreshes 0 [echo] ++
    [(1, .refreshRemoteTools [listing [echo]]), (1, .statement 0),
      (2, .setToolRisk echo (ofString "read")), (1, .statement 0)]
  have ends : ((system Nat).exec always begun labels).map (fun pool =>
      pool.shared.applies echo) = some .read := by
    decide
  obtain ⟨pool, ran, is⟩ := Option.map_eq_some_iff.1 ends
  have reached := Reachable.of_exec (.start begun_start) ran
  exact ⟨pool, is, (risk_stands Nat pool reached echo).2.1 is⟩

/-- The owner sets a tool to `destructive`, the server leaves it out of one list, and the tool is
back with `write`. -/
theorem not_risk_stands : ¬ ∀ pool : Pool Nat Table Request,
    Reachable (system Nat) always pool → ∀ name risk, lastSet name pool.shared.log = some risk →
      risk.strictness ≤ (pool.shared.applies name).strictness := by
  intro claimed
  let labels : List (Nat × Event) := refreshes 0 [echo] ++
    [(1, .setToolRisk echo (ofString "destructive"))] ++ refreshes 2 [] ++ refreshes 3 [echo]
  have ends : ((system Nat).exec always begun labels).map (fun pool =>
      (lastSet echo pool.shared.log, pool.shared.toolRisk echo)) =
        some (some .destructive, some .write) := by
    decide
  obtain ⟨pool, ran, is⟩ := Option.map_eq_some_iff.1 ends
  have reached := Reachable.of_exec (.start begun_start) ran
  cases Prod.mk.inj is with
  | intro last risk =>
    have least := claimed pool reached echo .destructive last
    rw [Table.applies, risk] at least
    contradiction

end RemoteTools

end TitanRunner
