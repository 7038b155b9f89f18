import TitanRunner.Lib.Transition
import TitanRunner.Policy.Engine
import TitanRunner.Redact
import TitanRunner.Validate

/-!
# The tool registry

`tools/registry.js#invoke` and `tools/argCheck.js`: the one way a tool runs.  SHA-1 and the
deterministic layer of the reviewer gate are parameters; how a tool's own code ends is an event.
-/

namespace TitanRunner

namespace Tools

open Utf16 Validate TransitionSystem System
open Policy (Effect SafetyRules Control PolicyTask)

/-! ## The arguments -/

structure FieldError where
  field : Utf16
  message : Utf16
  deriving DecidableEq, Repr

/-- `MAX_FIELD_ERRORS`. -/
def maxFieldErrors : Nat := 20

/-- `fieldOf`. -/
def fieldOf (path : Utf16) : Utf16 :=
  let rest := ((ofString "$.").isPrefixOf? path).getD path
  match (ofString "$").isPrefixOf? rest with
  | some tail => ofString "args" ++ tail
  | none => rest

/-- A line of the validator, with its path turned into a field name. -/
def fieldError (line : Utf16) : FieldError :=
  match splitFirst (ofString ": ") line with
  | some (path, message) => { field := fieldOf path, message }
  | none => { field := fieldOf (ofString "$"), message := line }

/-- A schema of an object that does not say whether it takes other properties takes none. -/
def strictly : Schema → Schema
  | .node keywords anyOf items properties additional =>
      if keywords.types = [.object] ∧ keywords.listed = false ∧ additional.isEmpty = true ∧
          keywords.loose = false then
        .node { keywords with closed := true } anyOf items properties []
      else .node keywords anyOf items properties additional

/-- `checkToolArgs`. -/
def checkToolArgs (schema : Schema) (rawArgs : Option Json) : Except (List FieldError) Json :=
  let args := rawArgs.getD (.object [])
  if JsonType.object.admits args then
    match check args (strictly schema) with
    | [] => .ok args
    | errors => .error ((errors.take maxFieldErrors).map fieldError)
  else
    .error [{ field := ofString "args"
              message := ofString "must be an object, got " ++ describe args }]

/-- `describeFields`. -/
def describeFields (fields : List FieldError) : Utf16 :=
  join (ofString "; ") (fields.map fun error => error.field ++ ofString ": " ++ error.message)

/-! ## The registry -/

/-- A registered tool. -/
structure ToolDefinition where
  id : String
  effect : Effect
  schema : Schema
  /-- Repeating a call is harmless. -/
  idempotent : Bool
  timeoutMs : Nat

/-- An entry of the ledger of tool calls. -/
structure LedgerEntry where
  ok : Bool
  at' : Time
  output : Option Utf16 := none
  error : Option Utf16 := none
  deriving DecidableEq, Repr

/-- `cp.tools`. -/
abbrev ToolLedger := List (String × LedgerEntry)

def ToolLedger.get (ledger : ToolLedger) (callId : String) : Option LedgerEntry :=
  (KeyedList.get Prod.fst ledger callId).map Prod.snd

def ToolLedger.set (ledger : ToolLedger) (callId : String) (entry : LedgerEntry) : ToolLedger :=
  KeyedList.insert Prod.fst ledger (callId, entry)

theorem ToolLedger.get_set (ledger : ToolLedger) (callId wanted : String) (entry : LedgerEntry) :
    (ledger.set callId entry).get wanted =
      if wanted = callId then some entry else ledger.get wanted := by
  rw [ToolLedger.get, ToolLedger.set, KeyedList.get_insert, ToolLedger.get]
  split <;> rfl

structure Call where
  tool : String
  args : Option Json

/-- The arguments a call is taken to have. -/
def Call.given (call : Call) : Json := call.args.getD (.object [])

structure ToolError where
  code : String
  class' : Option String := none
  message : Utf16
  approvalKey : Option String := none
  fields : List FieldError := []
  deriving DecidableEq, Repr

/-- What `invoke` resolves to. -/
structure Result where
  ok : Bool
  output : Utf16
  error : Option ToolError
  effect : Effect
  callId : Option String
  cached : Bool := false
  decision : Option Policy.Decision := none
  deriving DecidableEq, Repr

def failure (effect : Effect) (callId : Option String) (error : ToolError)
    (decision : Option Policy.Decision) : Result :=
  { ok := false, output := [], error := some error, effect, callId, decision }

/-- How far `invoke` gets before the tool's own code: it answers, or the code runs. -/
inductive Progress where
  | finish (result : Result)
  | run (definition : ToolDefinition) (args : Json) (callId : String)

section Invoke

variable (registry : List ToolDefinition)
-- The SHA-1 of a text, in hexadecimal digits.
variable (sha1 : Utf16 → String)
-- The reasons why the reviewer gate calls an action destructive.
variable (gate : ToolDefinition → Json → Option Utf16)
variable (rules : SafetyRules)

/-- `${def.id}:${sha1(JSON.stringify(args)).slice(0, 12)}`. -/
def callIdOf (tool : String) (args : Json) : String :=
  tool ++ ":" ++ String.ofList ((sha1 args.stringify).toList.take 12)

/-- The digest in approval keys. -/
def keyDigest (args : Json) : String := String.ofList ((sha1 args.stringify).toList.take 8)

def unknownTool (tool : String) : Result :=
  let message := ofString "no such tool \"" ++ (ofString tool).take 60 ++ ofString "\""
  let available := join (ofString ", ") ((registry.map fun definition => ofString definition.id).take 12)
  failure .read none
    { code := "TOOL_UNKNOWN"
      message := ofString "tool: " ++ message ++ ofString ". Available tools: " ++ available
      fields := [{ field := ofString "tool", message }] } none

/-- The output on record of a side effect that already ran. -/
def replayed (ledger : ToolLedger) (definition : ToolDefinition) (callId : String) :
    Option Utf16 :=
  if definition.idempotent then none
  else ((ledger.get callId).filter LedgerEntry.ok).map fun entry => entry.output.getD []

/-- The policy and the ledger, for a call that is well formed. -/
def clear (ledger : ToolLedger) (control : Control) (task : PolicyTask)
    (definition : ToolDefinition) (args : Json) : Progress :=
  let callId := callIdOf sha1 definition.id args
  let ruling := Policy.decide (keyDigest sha1)
    { kind := .tool, toolId := some definition.id, effect := some definition.effect
      args := some args } control task rules
  let refuse := fun error => .finish (failure definition.effect (some callId) error (some ruling.decision))
  match ruling.decision with
  | .deny =>
      refuse { code := "TOOL_DENIED", class' := some "policy_blocked"
               message := ofString "not allowed: " ++ ofString ruling.reason }
  | .approve =>
      refuse { code := "APPROVAL_REQUIRED", message := ofString ruling.reason
               approvalKey := some ruling.approvalKey }
  | .allow =>
      match replayed ledger definition callId with
      | some output =>
          .finish { ok := true, output, error := none, effect := definition.effect
                    callId := some callId, cached := true, decision := some .allow }
      | none => .run definition args callId

/-- `invoke`, up to the tool's own code. -/
def invoke (ledger : ToolLedger) (control : Control) (task : PolicyTask) (call : Call) :
    Progress :=
  match KeyedList.get ToolDefinition.id registry call.tool with
  | none => .finish (unknownTool registry call.tool)
  | some definition =>
      match checkToolArgs definition.schema call.args with
      | .error fields =>
          .finish (failure definition.effect (some (callIdOf sha1 definition.id (.object [])))
            { code := "TOOL_INVALID_ARGS", fields
              message := ofString "invalid arguments: " ++ describeFields fields } none)
      | .ok args =>
          match gate definition args with
          | some reasons =>
              .finish (failure definition.effect (some (callIdOf sha1 definition.id args))
                { code := "TOOL_DENIED", class' := some "policy_blocked"
                  message := ofString "refused by the reviewer gate: " ++ reasons } (some .deny))
          | none => clear sha1 rules ledger control task definition args

end Invoke

/-! ## The end of a call -/

/-- How the tool's own code ends for `withTimeout`. -/
inductive Outcome where
  | returned (output : Json)
  | threw (message : Utf16)
  | timedOut

def Outcome.isReturned : Outcome → Bool
  | .returned _ => true
  | .threw _ | .timedOut => false

/-- `MAX_TOOL_OUTPUT_CHARS`. -/
def maxToolOutputChars : Nat := 12000

/-- The output of a tool as it is given on. -/
def capped (output : Json) : Utf16 :=
  let text := Redact.redactString (match output with
    | .string text => text
    | other => other.pretty)
  if maxToolOutputChars < text.length then
    text.take maxToolOutputChars ++ ofString "\n…[truncated " ++
      ofNat (text.length - maxToolOutputChars) ++ ofString " chars]"
  else text

/-- The message of a tool that threw. -/
def thrown (message : Utf16) : Utf16 := (Redact.redactString message).take 500

def timeoutMessage (definition : ToolDefinition) : Utf16 :=
  ofString "tool timed out after " ++ ofNat definition.timeoutMs ++ ofString " ms"

/-- A tool that runs, from its start until `withTimeout` settles. -/
structure Flight where
  definition : ToolDefinition
  args : Json
  callId : String

/-- What goes on record of a call that is not idempotent. -/
def Flight.entry (flight : Flight) (at' : Time) : Outcome → LedgerEntry
  | .returned output => { ok := true, at', output := some ((capped output).take 2000) }
  | .threw message => { ok := false, at', error := some (thrown message) }
  | .timedOut => { ok := false, at', error := some (thrown (timeoutMessage flight.definition)) }

/-- The result a settled call gives. -/
def Flight.result (flight : Flight) (outcome : Outcome) : Result :=
  let failed := fun code message =>
    failure flight.definition.effect (some flight.callId)
      { code, class' := some "tool_error", message } (some .allow)
  match outcome with
  | .returned output =>
      { ok := true, output := capped output, error := none, effect := flight.definition.effect
        callId := some flight.callId, decision := some .allow }
  | .threw message => failed "TOOL_ERROR" (thrown message)
  | .timedOut => failed "TOOL_TIMEOUT" (thrown (timeoutMessage flight.definition))

def Flight.settle (flight : Flight) (ledger : ToolLedger) (at' : Time) (outcome : Outcome) :
    ToolLedger :=
  if flight.definition.idempotent then ledger
  else ledger.set flight.callId (flight.entry at' outcome)

/-! ## The calls of one task -/

/-- The ledger of the pulse at work and the one on disk, the tools that run, and as a record the
effects that are not idempotent and were performed. -/
structure World where
  ledger : ToolLedger
  saved : ToolLedger
  working : Bool
  flights : List Flight
  performed : List (String × Json)
  /-- What the model was told. -/
  results : List Result

inductive Label where
  /-- A pulse takes the task up. -/
  | enter
  | invoke (call : Call) (control : Control) (task : PolicyTask)
  | settle (position : Nat) (outcome : Outcome) (at' : Time)
  /-- The checkpoint is written. -/
  | save
  | die
  /-- The task is given up, and its checkpoint deleted. -/
  | discard

section System

variable (registry : List ToolDefinition) (sha1 : Utf16 → String)
  (gate : ToolDefinition → Json → Option Utf16) (rules : SafetyRules)

/-- A tool's own code starts. -/
def World.start (world : World) (flight : Flight) : World :=
  { world with
    flights := world.flights ++ [flight]
    performed := if flight.definition.idempotent then world.performed
      else world.performed ++ [(flight.definition.id, flight.args)] }

def World.next (world : World) : Label → Option World
  | .enter =>
      if world.working then none
      else some { world with ledger := world.saved, working := true, flights := [] }
  | .invoke call control task =>
      if world.working then
        match invoke registry sha1 gate rules world.ledger control task call with
        | .finish result => some { world with results := world.results ++ [result] }
        | .run definition args callId => some (world.start { definition, args, callId })
      else none
  | .settle position outcome at' =>
      if world.working then
        world.flights[position]?.map fun flight =>
          { world with
            flights := world.flights.eraseIdx position
            ledger := flight.settle world.ledger at' outcome
            results := world.results ++ [flight.result outcome] }
      else none
  | .save => if world.working then some { world with saved := world.ledger } else none
  | .die => if world.working then some { world with working := false, flights := [] } else none
  | .discard => some { world with saved := [], working := false, flights := [] }

def World.empty : World where
  ledger := []
  saved := []
  working := false
  flights := []
  performed := []
  results := []

/-- A task, from its first pulse on. -/
def system : System World Label where
  start := fun world => world = World.empty
  next := World.next registry sha1 gate rules

end System

end Tools

end TitanRunner
