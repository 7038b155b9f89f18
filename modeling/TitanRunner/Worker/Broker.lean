import TitanRunner.Lib.JsonText

/-!
# The connector broker

`decide` and `invokeAction` of `connectors/broker.js`: who may run which action of a connector.
What the tables hold and the outside answers during one call are given; the result is what the
call comes to.
-/

namespace TitanRunner

namespace Broker

open Utf16 (ofString)

inductive Risk where
  | read | write | destructive
  deriving DecidableEq, Repr

inductive Mode where
  | ask | auto | deny
  deriving DecidableEq, Repr

inductive DataClass where
  | public' | internal | personal
  deriving DecidableEq, Repr

/-- The handlers that need more than one request; the others are one. -/
inductive Handler where
  | mcpListTools | mcpCallTool | pure'
  deriving DecidableEq, Repr

structure Action where
  id : String
  title : String
  risk : Risk
  dataClass : DataClass
  handler : Option Handler := none
  perMinute : Nat := 60
  deriving DecidableEq, Repr

structure Manifest where
  id : String
  name : String
  actions : List Action
  deriving DecidableEq, Repr

inductive ConnectionStatus where
  | connected | unverified | error | needsAuthorization | needsReconnect
  deriving DecidableEq, Repr

structure Connection where
  id : String
  connectorId : String
  status : ConnectionStatus
  deriving DecidableEq, Repr

inductive CallerKind where
  | admin | owner | mcp | internal | approval
  /-- Any other word. -/
  | other (kind : String)
  deriving DecidableEq, Repr

structure Caller where
  kind : CallerKind
  id : Option String := none
  scopes : List String := []
  deriving DecidableEq, Repr

structure BrokerError where
  status : Nat
  code : String
  message : Utf16
  deriving DecidableEq, Repr

inductive Verdict where
  | run | approve
  | deny (error : BrokerError)
  deriving DecidableEq, Repr

/-- A signed-in person. -/
def CallerKind.isPerson : CallerKind → Bool
  | .admin | .owner => true
  | _ => false

/-- The scope that a call of this risk needs. -/
def scopeOf : Risk → String
  | .read => "connectors:read"
  | .write | .destructive => "connectors:write"

/-- `decide` -/
def decide' (caller : Caller) (action : Action) (risk : Risk) (mode : Mode) : Verdict :=
  if mode = .deny then
    .deny ⟨403, "action_disabled", ofString "A person turned this action off."⟩
  else if risk = .destructive ∧ caller.kind.isPerson = false then
    .deny ⟨403, "destructive_needs_admin",
      ofString "A destructive action runs only for a person with the admin token."⟩
  else if caller.kind.isPerson = true ∨ caller.kind = .approval then .run
  else if action.dataClass = .personal ∧ caller.kind = .internal then
    .deny ⟨403, "personal_data_forbidden",
      ofString "A sub-agent cannot use an action that handles personal data."⟩
  else if caller.kind = .internal then
    if risk = .read ∧ mode = .auto then .run else .approve
  else if caller.kind = .mcp then
    if scopeOf risk ∉ caller.scopes then
      .deny ⟨403, "scope_missing", ofString ("The token needs the scope " ++ scopeOf risk ++ ".")⟩
    else if action.dataClass = .personal ∧ "personal:read" ∉ caller.scopes then
      .deny ⟨403, "scope_missing",
        ofString "The token needs the scope personal:read for personal data."⟩
    else if mode = .auto then .run
    else .approve
  else .deny ⟨403, "caller_unknown", ofString "This caller is not known."⟩

/-- A tool of a remote server, with the risk that a person set for it. -/
structure Tool where
  name : Utf16
  risk : Risk
  deriving DecidableEq, Repr

/-- `toolRisk` -/
def toolRisk (tools : List Tool) (name : Utf16) : Option Risk :=
  (tools.find? fun tool => tool.name == name).map Tool.risk

/-- `refreshRemoteTools`: a new tool starts with the risk write, a tool that left is removed. -/
def refreshRemoteTools (listed : List Utf16) (tools : List Tool) : List Tool :=
  (tools.filter fun tool => listed.contains tool.name) ++
    (listed.filter fun name => !(tools.any fun tool => tool.name == name)).map fun name =>
      { name, risk := .write }

/-- A call of an action. -/
structure Call where
  connectionId : String
  actionId : String
  input : Json
  caller : Caller
  confirm : Option String := none

/-- What the tables hold and the outside answers during a call. -/
structure Answers where
  /-- `getConnection` -/
  connection : Option Connection
  /-- `listPolicies` -/
  policies : List (String × Mode) := []
  /-- The rows of `mcp_remote_tools` of the connection. -/
  tools : List Tool := []
  /-- What `buildInputCheck` throws. -/
  inputError : Option BrokerError := none
  /-- How many approvals are pending. -/
  pending : Nat := 0
  /-- `takeRate` lets the call through. -/
  rateOk : Bool := true
  /-- The tools that the remote server lists, should it be asked. -/
  listed : List Utf16 := []

/-- A call that comes to the service. -/
structure Run where
  manifest : Manifest
  action : Action
  risk : Risk
  mode : Mode
  input : Json
  /-- The tools that are known when the service is called. -/
  tools : List Tool

inductive Outcome where
  | threw (error : BrokerError)
  | pendingApproval (manifest : Manifest) (action : Action) (risk : Risk)
  | ran (run : Run)

/-- The name of the remote tool that an input asks for. -/
def toolName (input : Json) : Utf16 := ((input.member (ofString "name")).bind Json.string?).getD []

/-- The risk of a call.  That of a remote tool is the one set for the tool, else write. -/
def riskOf (tools : List Tool) (action : Action) (input : Json) : Risk :=
  if action.handler = some .mcpCallTool then (toolRisk tools (toolName input)).getD .write
  else action.risk

/-- The stored mode of an action, or the default one. -/
def modeOf (policies : List (String × Mode)) (action : Action) (risk : Risk) : Mode :=
  (policies.lookup action.id).getD (if risk = .read then .auto else .ask)

/-- `${manifest.id}.${action.id}` -/
def confirmation (manifest : Manifest) (action : Action) : String := manifest.id ++ "." ++ action.id

/-- `MAX_PENDING_APPROVALS` -/
def maxPendingApprovals : Nat := 20

/-- `executeAction`, up to the call of the service. -/
def executeAction (answers : Answers) (run : Run) : Outcome :=
  if run.action.handler = some .mcpCallTool then
    let name := toolName run.input
    let tools := if (toolRisk answers.tools name).isNone then
      refreshRemoteTools answers.listed answers.tools else answers.tools
    if (toolRisk tools name).isNone then
      .threw ⟨404, "unknown_tool",
        ofString "The server has no tool named \"" ++ name ++ ofString "\"."⟩
    else .ran { run with tools }
  else .ran run

/-- `invokeAction` -/
def invokeAction (manifests : List Manifest) (answers : Answers) (call : Call) : Outcome :=
  match answers.connection with
  | none => .threw ⟨404, "not_found", ofString "This connection does not exist."⟩
  | some connection =>
      match manifests.find? fun manifest => manifest.id == connection.connectorId with
      | none => .threw ⟨404, "unknown_action", ofString "This action does not exist."⟩
      | some manifest =>
          match manifest.actions.find? fun action => action.id == call.actionId with
          | none => .threw ⟨404, "unknown_action", ofString "This action does not exist."⟩
          | some action =>
              let risk := riskOf answers.tools action call.input
              let mode := modeOf answers.policies action risk
              let verdict := decide' call.caller action risk mode
              match verdict with
              | .deny error => .threw error
              | .run | .approve =>
                  if risk = .destructive ∧ call.confirm ≠ some (confirmation manifest action) then
                    .threw ⟨400, "confirm_required", ofString ("Send \x7b\"confirm\": \"" ++
                      confirmation manifest action ++ "\"\x7d to run a destructive action.")⟩
                  else if connection.status = .needsReconnect then
                    .threw ⟨409, "needs_reconnect",
                      ofString (manifest.name ++ " needs a new sign in.")⟩
                  else if connection.status = .needsAuthorization then
                    .threw ⟨409, "needs_authorization", ofString "Approve the access first."⟩
                  else
                    match answers.inputError with
                    | some error => .threw error
                    | none =>
                        if verdict = .approve then
                          if maxPendingApprovals ≤ answers.pending then
                            .threw ⟨429, "too_many_pending", ofString
                              "Too many calls wait for approval. Decide some of them first."⟩
                          else .pendingApproval manifest action risk
                        else if answers.rateOk = false then
                          .threw ⟨429, "rate_limited", ofString ("This action allows " ++
                            toString action.perMinute ++ " calls for each minute.")⟩
                        else
                          executeAction answers
                            { manifest, action, risk, mode, input := call.input
                              tools := answers.tools }

/-! ## Authority -/

/-- What the caller of a call that came to the service is allowed. -/
structure Authorized (call : Call) (run : Run) : Prop where
  notDenied : run.mode ≠ .deny
  known : call.caller.kind.isPerson = true ∨ call.caller.kind = .approval ∨
    call.caller.kind = .internal ∨ call.caller.kind = .mcp
  destructive : run.risk = .destructive → call.caller.kind.isPerson = true ∧
    call.confirm = some (confirmation run.manifest run.action)
  internal : call.caller.kind = .internal →
    run.action.dataClass ≠ .personal ∧ run.risk = .read ∧ run.mode = .auto
  mcp : call.caller.kind = .mcp → scopeOf run.risk ∈ call.caller.scopes ∧
    (run.action.dataClass = .personal → "personal:read" ∈ call.caller.scopes)

/-- The action that a call is of, with its connection and connector. -/
def asked (manifests : List Manifest) (answers : Answers) (call : Call) :
    Option (Connection × Manifest × Action) := do
  let connection ← answers.connection
  let manifest ← manifests.find? fun manifest => manifest.id == connection.connectorId
  let action ← manifest.actions.find? fun action => action.id == call.actionId
  return (connection, manifest, action)

/-- What the run is of: the stored risk and mode of the action that was asked for. -/
structure AsStored (manifests : List Manifest) (answers : Answers) (call : Call) (run : Run) :
    Prop where
  action : ∃ connection, asked manifests answers call = some (connection, run.manifest, run.action)
  risk : run.risk = riskOf answers.tools run.action call.input
  mode : run.mode = modeOf answers.policies run.action run.risk
  input : run.input = call.input
  /-- The remote tool that is called still has the risk that was decided about. -/
  tool : run.action.handler = some .mcpCallTool →
    toolRisk run.tools (toolName run.input) = some run.risk

section Decide

variable {caller : Caller} {action : Action} {risk : Risk} {mode : Mode}

/-- Personal data are denied to a sub-agent, whatever the risk and the mode. -/
theorem decide_of_personal (risk : Risk) (mode : Mode) (internal : caller.kind = .internal)
    (personal : action.dataClass = .personal) :
    ∃ error, decide' caller action risk mode = .deny error ∧ error.status = 403 := by
  unfold decide'
  simp only [internal, personal, CallerKind.isPerson, and_true, Bool.false_eq_true,
    reduceCtorEq, or_self, if_true, if_false]
  split
  next => exact ⟨_, rfl, rfl⟩
  next =>
    split
    next => exact ⟨_, rfl, rfl⟩
    next => exact ⟨_, rfl, rfl⟩

/-- A sub-agent runs a read action in the mode auto; any other that is not denied goes to an
approval. -/
theorem decide_internal (internal : caller.kind = .internal) (given : action.dataClass ≠ .personal)
    (allowed : mode ≠ .deny) (safe : risk ≠ .destructive) :
    decide' caller action risk mode =
      if risk = .read ∧ mode = .auto then .run else .approve := by
  simp [decide', internal, given, allowed, safe, CallerKind.isPerson]

/-- What a verdict that lets a call run says of the caller. -/
theorem of_decide_run (runs : decide' caller action risk mode = .run) :
    mode ≠ .deny ∧ (risk = .destructive → caller.kind.isPerson = true) ∧
      (caller.kind.isPerson = true ∨ caller.kind = .approval ∨ caller.kind = .internal ∨
        caller.kind = .mcp) ∧
      (caller.kind = .internal → action.dataClass ≠ .personal ∧ risk = .read ∧ mode = .auto) ∧
      (caller.kind = .mcp → scopeOf risk ∈ caller.scopes ∧
        (action.dataClass = .personal → "personal:read" ∈ caller.scopes)) := by
  unfold decide' at runs
  split at runs
  next => contradiction
  next allowed =>
    split at runs
    next => contradiction
    next safe =>
      have destructive : risk = .destructive → caller.kind.isPerson = true := by
        intro is
        rw [not_and, Bool.not_eq_false] at safe
        exact safe is
      split at runs
      next person =>
        refine ⟨allowed, destructive, person.imp_right .inl, ?_, ?_⟩
        · intro internal
          simp [internal, CallerKind.isPerson] at person
        · intro mcp
          simp [mcp, CallerKind.isPerson] at person
      next =>
        split at runs
        next => contradiction
        next personal =>
          split at runs
          next internal =>
            split at runs
            next reads =>
              refine ⟨allowed, destructive, .inr (.inr (.inl internal)), ?_, ?_⟩
              · exact fun _ => ⟨fun is => personal ⟨is, internal⟩, reads⟩
              · intro mcp
                rw [internal] at mcp
                contradiction
            next => contradiction
          next internal =>
            split at runs
            next mcp =>
              split at runs
              next => contradiction
              next scope =>
                split at runs
                next => contradiction
                next private' =>
                  refine ⟨allowed, destructive, .inr (.inr (.inr mcp)), ?_, ?_⟩
                  · exact fun is => absurd is internal
                  · rw [not_and, not_not] at private'
                    exact fun _ => ⟨not_not.1 scope, private'⟩
            next => contradiction

end Decide

section Invoke

variable {manifests : List Manifest} {answers : Answers} {call : Call} {run : Run}

/-- Nothing but the verdict decides about the call. -/
structure Usable (answers : Answers) (call : Call) (connection : Connection) (manifest : Manifest)
    (action : Action) : Prop where
  connected : connection.status ≠ .needsReconnect ∧ connection.status ≠ .needsAuthorization
  input : answers.inputError = none
  room : answers.pending < maxPendingApprovals
  confirmed : riskOf answers.tools action call.input = .destructive →
    call.confirm = some (confirmation manifest action)

/-- The lookups of a call whose action is found. -/
theorem of_asked {connection : Connection} {manifest : Manifest} {action : Action}
    (found : asked manifests answers call = some (connection, manifest, action)) :
    answers.connection = some connection ∧
      manifests.find? (fun manifest => manifest.id == connection.connectorId) = some manifest ∧
      manifest.actions.find? (fun action => action.id == call.actionId) = some action := by
  simp only [asked, Option.bind_eq_bind, Option.bind_eq_some_iff, Option.pure_def,
    Option.some.injEq, Prod.mk.injEq] at found
  have ⟨_, connected, _, listed, _, offered, here, there, same⟩ := found
  subst here there same
  exact ⟨connected, listed, offered⟩

/-- A call that came to the service passed every check of the broker. -/
theorem of_invokeAction_ran (ran : invokeAction manifests answers call = .ran run) :
    ∃ connection manifest action,
      asked manifests answers call = some (connection, manifest, action) ∧
      let risk := riskOf answers.tools action call.input
      let mode := modeOf answers.policies action risk
      decide' call.caller action risk mode = .run ∧
      (risk = .destructive → call.confirm = some (confirmation manifest action)) ∧
      executeAction answers
        { manifest, action, risk, mode, input := call.input, tools := answers.tools } =
          .ran run := by
  unfold invokeAction at ran
  split at ran
  next => contradiction
  next connection connected =>
    split at ran
    next => contradiction
    next manifest listed =>
      split at ran
      next => contradiction
      next action offered =>
        refine ⟨connection, manifest, action, by simp [asked, connected, listed, offered], ?_⟩
        simp only at ran ⊢
        split at ran
        next => contradiction
        all_goals
          next verdict =>
            rw [verdict] at ran
            split at ran
            next => contradiction
            next confirmed =>
              rw [not_and, not_not] at confirmed
              split at ran
              next => contradiction
              next =>
                split at ran
                next => contradiction
                next =>
                  split at ran
                  next => contradiction
                  next =>
                    simp only [reduceCtorEq, if_true, if_false] at ran
                    split at ran
                    next => contradiction
                    next => first | contradiction | exact ⟨verdict, confirmed, ran⟩

/-- A tool that a listing brings in is a write. -/
theorem toolRisk_refresh_of_new {listed : List Utf16} {tools : List Tool} {name : Utf16}
    {risk : Risk} (new : toolRisk tools name = none)
    (found : toolRisk (refreshRemoteTools listed tools) name = some risk) : risk = .write := by
  simp only [toolRisk, Option.map_eq_none_iff, List.find?_eq_none, beq_iff_eq] at new
  have ⟨tool, first, is⟩ := Option.map_eq_some_iff.1 found
  have named : tool.name = name := by simpa using List.find?_some first
  have listed := List.mem_of_find?_eq_some first
  rw [refreshRemoteTools, List.mem_append] at listed
  cases listed with
  | inl kept => exact absurd named (new tool (List.mem_filter.1 kept).1)
  | inr added =>
    have ⟨_, _, same⟩ := List.mem_map.1 added
    rw [← is, ← same]

/-- The tool that is called is known, and its risk is the one that was decided about: a tool
that was not known before the call is a write. -/
theorem tool_of_executeAction {mode : Mode} {manifest : Manifest} {action : Action} {input : Json}
    (ran : executeAction answers
      { manifest, action, risk := riskOf answers.tools action input, mode, input
        tools := answers.tools } = .ran run) :
    run.manifest = manifest ∧ run.action = action ∧ run.risk = riskOf answers.tools action input ∧
      run.mode = mode ∧ run.input = input ∧ (action.handler = some .mcpCallTool →
        toolRisk run.tools (toolName input) = some run.risk) := by
  unfold executeAction at ran
  split at ran
  next calls =>
    simp only at ran calls
    split at ran
    next new =>
      split at ran
      next => contradiction
      next known =>
        simp only [Outcome.ran.injEq] at ran
        subst ran
        refine ⟨rfl, rfl, rfl, rfl, rfl, fun _ => ?_⟩
        have ⟨risk, is⟩ := Option.ne_none_iff_exists'.1 (mt Option.isNone_iff_eq_none.2 known)
        rw [Option.isNone_iff_eq_none] at new
        simp only [riskOf, calls, if_true, new, Option.getD_none]
        rw [is, toolRisk_refresh_of_new new is]
    next known =>
      simp only [Outcome.ran.injEq] at ran
      subst ran
      refine ⟨rfl, rfl, rfl, rfl, rfl, fun _ => ?_⟩
      have ⟨risk, is⟩ := Option.ne_none_iff_exists'.1 (mt Option.isNone_iff_eq_none.2 known)
      simp only [riskOf, calls, if_true, is, Option.getD_some]
  next other =>
    simp only [Outcome.ran.injEq] at ran
    subst ran
    exact ⟨rfl, rfl, rfl, rfl, rfl, fun is => absurd is other⟩

/-- A call of a denied verdict is refused with it. -/
theorem invokeAction_of_deny {connection : Connection} {manifest : Manifest} {action : Action}
    {error : BrokerError}
    (found : asked manifests answers call = some (connection, manifest, action))
    (denied : decide' call.caller action (riskOf answers.tools action call.input)
      (modeOf answers.policies action (riskOf answers.tools action call.input)) = .deny error) :
    invokeAction manifests answers call = .threw error := by
  have ⟨connected, listed, offered⟩ := of_asked found
  simp only [invokeAction, connected, listed, offered, denied]

/-- A usable call with the verdict approve waits for a person. -/
theorem invokeAction_of_approve {connection : Connection} {manifest : Manifest} {action : Action}
    (found : asked manifests answers call = some (connection, manifest, action))
    (usable : Usable answers call connection manifest action)
    (approve : decide' call.caller action (riskOf answers.tools action call.input)
      (modeOf answers.policies action (riskOf answers.tools action call.input)) = .approve) :
    invokeAction manifests answers call =
      .pendingApproval manifest action (riskOf answers.tools action call.input) := by
  have ⟨connected, listed, offered⟩ := of_asked found
  have confirmed : ¬ (riskOf answers.tools action call.input = .destructive ∧
      call.confirm ≠ some (confirmation manifest action)) := by
    rw [not_and, not_not]
    exact usable.confirmed
  simp only [invokeAction, connected, listed, offered, approve, if_neg confirmed,
    usable.connected.1, usable.connected.2, usable.input, Nat.not_le.2 usable.room, if_true,
    if_false]

/-- The call that came to the service is the one asked for, and its caller is allowed it. -/
theorem run_authorized (ran : invokeAction manifests answers call = .ran run) :
    AsStored manifests answers call run ∧ Authorized call run := by
  have ⟨connection, manifest, action, found, runs, confirmed, executed⟩ :=
    of_invokeAction_ran ran
  have ⟨sameManifest, sameAction, risk, mode, input, tool⟩ := tool_of_executeAction executed
  have ⟨allowed, destructive, known, internal, mcp⟩ := of_decide_run runs
  subst sameManifest sameAction
  rw [← risk] at allowed destructive internal mcp confirmed mode
  rw [← mode] at allowed internal
  constructor
  · exact ⟨⟨connection, found⟩, risk, mode, input, input ▸ tool⟩
  · exact ⟨allowed, known, fun is => ⟨destructive is, confirmed is⟩, internal, mcp⟩

/-- An action comes to the service only on the authority of its caller.  A sub-agent is denied
personal data, and what it may not run itself waits for a person. -/
theorem invokeAction_authority (manifests : List Manifest) (answers : Answers) (call : Call) :
    (∀ run, invokeAction manifests answers call = .ran run →
      AsStored manifests answers call run ∧ Authorized call run) ∧
    (call.caller.kind = .internal → ∀ connection manifest action,
      asked manifests answers call = some (connection, manifest, action) →
      let risk := riskOf answers.tools action call.input
      let mode := modeOf answers.policies action risk
      (action.dataClass = .personal →
        ∃ error, invokeAction manifests answers call = .threw error ∧ error.status = 403) ∧
      (action.dataClass ≠ .personal → mode ≠ .deny → risk ≠ .destructive →
        ¬ (risk = .read ∧ mode = .auto) → Usable answers call connection manifest action →
          invokeAction manifests answers call = .pendingApproval manifest action risk)) := by
  constructor
  · exact fun run ran => run_authorized ran
  · intro internal connection manifest action found
    constructor
    · intro personal
      have ⟨error, denied, status⟩ := decide_of_personal
        (riskOf answers.tools action call.input)
        (modeOf answers.policies action (riskOf answers.tools action call.input)) internal personal
      exact ⟨error, invokeAction_of_deny found denied, status⟩
    · intro given allowed safe asks usable
      apply invokeAction_of_approve found usable
      rw [decide_internal internal given allowed safe, if_neg asks]

/-- A person who confirmed runs a destructive action of a remote tool; nobody else does. -/
theorem invokeAction_authority_destructive :
    let tool : Action := ⟨"call", "Call a tool", .write, .internal, some .mcpCallTool, 60⟩
    let manifest : Manifest := ⟨"mcp", "MCP", [tool]⟩
    let answers : Answers :=
      { connection := some ⟨"c1", "mcp", .connected⟩, tools := [⟨ofString "drop", .destructive⟩] }
    let call : Call := ⟨"c1", "call", .object [(ofString "name", .string (ofString "drop"))],
      { kind := .admin }, some "mcp.call"⟩
    ∃ run, invokeAction [manifest] answers call = .ran run ∧ run.risk = .destructive ∧
      Authorized call run := by
  intro tool manifest answers call
  have ran : invokeAction [manifest] answers call =
      .ran ⟨manifest, tool, .destructive, .ask, call.input, answers.tools⟩ := by
    rfl
  exact ⟨_, ran, rfl, ((invokeAction_authority [manifest] answers call).1 _ ran).2⟩

end Invoke

end Broker

end TitanRunner
