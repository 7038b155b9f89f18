import TitanRunner.Worker.RemoteTools

/-!
# Connecting

`connect` of `connectors/broker.js`, up to what it leaves in the database and at Telegram.  A
connection is written statement by statement, and any of them may fail; a statement that fails
changes nothing.  The protocol version that a remote server is remembered with is left out: no
failure comes of it.
-/

namespace TitanRunner

namespace Connect

open Utf16
open RemoteTools (Tool)

/-! ## The store -/

inductive Status where
  | connected | unverified | needsAuthorization
  deriving DecidableEq, Repr

/-- `config` or `secrets`. -/
abbrev Fields := List (Utf16 × Utf16)

/-- A row of `connections`. -/
structure Row where
  connectorId : Utf16
  label : Utf16
  status : Status
  config : Fields
  secretNames : List Utf16
  meta' : Utf16 → Option Utf16 := fun _ => none

/-- A row of `hooks`. -/
structure Hook where
  id : Utf16
  mode : Utf16
  target : Utf16
  taskBrief : Option Utf16
  deriving DecidableEq

/-- What the tables hold of one connection. -/
structure Held where
  row : Option Row := none
  /-- The sealed secrets, by what they hold. -/
  secrets : Utf16 → Option Utf16 := fun _ => none
  policies : List (Utf16 × Utf16) := []
  tools : Utf16 → Option Tool := fun _ => none
  oauthStates : List Utf16 := []
  hooks : List Hook := []

@[ext]
structure Store (Id : Type) where
  held : Id → Held
  /-- The connection that Telegram sends the updates of the bot to. -/
  webhook : Option Id := none

/-! ## The request -/

/-- The kinds of connectors, each with what it is told or draws on the way. -/
inductive Kind where
  /-- A key, an address or nothing. -/
  | key
  | oauth
  /-- The id and the secret of the hook. -/
  | webhookIn (hookId secret : Utf16)
  /-- The secret of the webhook, and what the bot is called. -/
  | telegram (secret botUsername botName : Utf16)
  /-- The tools that the server lists. -/
  | mcpRemote (tools : List Tool)

def Kind.isOauth : Kind → Bool
  | .oauth => true
  | .key | .webhookIn _ _ | .telegram _ _ _ | .mcpRemote _ => false

/-- The secret that a kind adds to those of the fields. -/
def Kind.ownSecret : Kind → Option Utf16
  | .webhookIn _ _ => some (ofString "hook_secret")
  | .telegram _ _ _ => some (ofString "webhook_secret")
  | .key | .oauth | .mcpRemote _ => none

/-- The fields that passed the checks; no field of a manifest has the name of an added secret. -/
structure Checked (kind : Kind) where
  config : Fields
  secrets : Fields
  distinct : (secrets.map Prod.fst).Nodup
  apart : ∀ name, kind.ownSecret = some name → name ∉ secrets.map Prod.fst

/-- What the test came to. -/
structure Test where
  ok : Option Bool
  deriving DecidableEq

/-- A request for a connector of the catalog. -/
structure Request where
  kind : Kind
  connectorId : Utf16
  /-- `manifest.name` -/
  name : Utf16
  /-- `label`, empty where there is none. -/
  label : Utf16
  vaultReady : Bool
  /-- `none` if the fields or the address are refused. -/
  checked : Option (Checked kind)
  /-- The labels of the connector's connections; `none` if the query fails. -/
  labels : Option (List Utf16)
  /-- `none` if the test throws. -/
  test : Option Test
  saveIfUnverified : Bool

inductive Answer where
  | refused (status : Nat) (code : String)
  | thrown
  /-- What a step threw, after the rows were deleted. -/
  | notSaved
  | saved
  deriving DecidableEq, Repr

/-- `uniqueLabel` -/
def uniqueLabel (taken : List Utf16) (wanted : Utf16) : Option Utf16 :=
  (wanted :: (List.range' 2 48).map fun n => wanted ++ ofString " " ++ ofNat n).find?
    fun label => label ∉ taken

def orElse (text other : Utf16) : Utf16 := if text.isEmpty then other else text

/-- `config[name]`, empty where there is none. -/
def fieldOf (config : Fields) (name : String) : Utf16 :=
  ((config.find? fun field => field.1 = ofString name).map Prod.snd).getD []

def Request.wanted (request : Request) (config : Fields) : Utf16 :=
  let wanted := orElse request.label (orElse (fieldOf config "label") request.name)
  orElse ((Utf16.trim wanted).take 60) request.name

/-- Up to the first statement that writes: an answer, or the row of the connection. -/
def Request.planned (request : Request) : Except Answer (Checked request.kind × Row) :=
  if !request.vaultReady then .error (.refused 503 "vault_not_ready") else
  match request.checked with
  | none => .error (.refused 422 "invalid_fields")
  | some checked =>
      match request.labels with
      | none => .error .thrown
      | some taken =>
          match uniqueLabel taken (request.wanted checked.config) with
          | none => .error (.refused 409 "label_taken")
          | some label =>
              let row := fun status : Status => Row.mk request.connectorId label status
                checked.config (checked.secrets.map Prod.fst) fun _ => none
              if request.kind.isOauth then .ok (checked, row .needsAuthorization)
              else
                match request.test with
                | none => .error .thrown
                | some test =>
                    if test.ok = some false && !request.saveIfUnverified then
                      .error (.refused 422 "test_failed")
                    else
                      .ok (checked, row (if test.ok = some true then .connected else .unverified))

/-! ## The statements -/

/-- What may fail on the way. -/
inductive Step where
  /-- `insertConnection` -/
  | insert (row : Row)
  /-- A secret is sealed and stored. -/
  | secret (name value : Utf16)
  /-- `getConnection` -/
  | read
  | hook (made : Hook)
  /-- `updateConnection`: one name more, and what is told of the connection. -/
  | update (name : Utf16) (patch : Utf16 → Option Utf16)
  | getMe
  | setWebhook
  | listTools
  | readTools
  /-- The batch of `refreshRemoteTools`. -/
  | writeTools (tools : List Tool)

/-- The step leaves something. -/
def Step.writes : Step → Bool
  | .insert _ | .secret _ _ | .hook _ | .update _ _ | .setWebhook => true
  | .read | .getMe | .listTools | .readTools => false
  | .writeTools tools => !tools.isEmpty

def Row.update (row : Row) (name : Utf16) (patch : Utf16 → Option Utf16) : Row :=
  { row with
    secretNames := if name ∈ row.secretNames then row.secretNames else row.secretNames ++ [name]
    meta' := fun key => (patch key).or (row.meta' key) }

/-- What a step writes in the tables. -/
def Step.write (held : Held) : Step → Held
  | .insert row => { held with row := some row }
  | .secret name value => { held with secrets := Function.update held.secrets name (some value) }
  | .hook made => { held with hooks := held.hooks ++ [made] }
  | .update name patch => { held with row := held.row.map fun row => row.update name patch }
  | .writeTools tools =>
      { held with
        tools := fun name => (tools.reverse.find? fun tool => tool.name = name).or
          (held.tools name) }
  | .read | .getMe | .setWebhook | .listTools | .readTools => held

variable {Id : Type} [DecidableEq Id]

def Step.effect (id : Id) (store : Store Id) (step : Step) : Store Id where
  held := Function.update store.held id (step.write (store.held id))
  webhook := match step with
    | .setWebhook => some id
    | _ => store.webhook

/-- `createHook`, for the connection of these fields. -/
def hookOf (config : Fields) (id : Utf16) : Hook where
  id := id
  mode := orElse (fieldOf config "mode") (ofString "hmac")
  target := orElse (fieldOf config "target") (ofString "event")
  taskBrief := (config.find? fun field => field.1 = ofString "task_brief").map Prod.snd

def entry (key : String) (value : Utf16) (other : Utf16) : Option Utf16 :=
  if other = ofString key then some value else none

/-- What a kind tells of the connection. -/
def Kind.told : Kind → Utf16 → Option Utf16
  | .webhookIn hookId _, name => entry "hookId" hookId name
  | .telegram _ botUsername botName, name =>
      (entry "botUsername" (botUsername.take 64) name).or (entry "botName" (botName.take 64) name)
  | .key, _ | .oauth, _ | .mcpRemote _, _ => none

/-- What follows the secrets of the fields. -/
def Kind.script (kind : Kind) (config : Fields) : List Step :=
  match kind with
  | .oauth => []
  | .key => [.read]
  | .webhookIn hookId secret =>
      [.read, .secret (ofString "hook_secret") secret, .hook (hookOf config hookId),
        .update (ofString "hook_secret") kind.told]
  | .telegram secret _ _ =>
      [.read, .getMe, .setWebhook, .secret (ofString "webhook_secret") secret,
        .update (ofString "webhook_secret") kind.told]
  | .mcpRemote tools =>
      [.read, .listTools, .readTools] ++ if tools.isEmpty then [] else [.writeTools tools]

/-- The steps of a request that nothing spoke against. -/
def Request.script (request : Request) (checked : Checked request.kind) (row : Row) : List Step :=
  .insert row :: (checked.secrets.map (fun field => .secret field.1 field.2) ++
    request.kind.script checked.config)

structure Faults where
  step : Step → Bool := fun _ => false
  /-- `deleteConnectionRows` -/
  delete : Bool := false
  /-- The last `getConnection`. -/
  answer : Bool := false

/-- The steps up to the first that fails, and whether all were done. -/
def perform (fails : Step → Bool) (id : Id) : List Step → Store Id → Bool × Store Id
  | [], store => (true, store)
  | step :: rest, store =>
      if fails step then (false, store) else perform fails id rest (step.effect id store)

/-- `deleteConnectionRows` -/
def Store.delete (store : Store Id) (id : Id) : Store Id :=
  { store with held := Function.update store.held id {} }

/-- `connect`, with the id that was drawn. -/
def connect (request : Request) (faults : Faults) (id : Id) (store : Store Id) :
    Answer × Store Id :=
  match request.planned with
  | .error answer => (answer, store)
  | .ok (checked, row) =>
      match perform faults.step id (request.script checked row) store with
      | (true, after) => (if faults.answer then .thrown else .saved, after)
      | (false, after) =>
          if request.kind.isOauth || faults.delete then (.thrown, after)
          else (.notSaved, after.delete id)

/-! ## All or nothing -/

/-- Nothing is left under an id. -/
def Store.Without (store : Store Id) (id : Id) : Prop :=
  store.held id = {} ∧ store.webhook ≠ some id

/-- The stored row has all that the connection was inserted with. -/
structure Row.Kept (row stored : Row) : Prop where
  connectorId : stored.connectorId = row.connectorId
  label : stored.label = row.label
  status : stored.status = row.status
  config : stored.config = row.config
  secretNames : ∀ name ∈ row.secretNames, name ∈ stored.secretNames

/-- The row of a connection, and its secrets; and the hook, the webhook or the tools of its kind. -/
structure Complete (request : Request) (checked : Checked request.kind) (row : Row) (id : Id)
    (store : Store Id) : Prop where
  row : ∃ stored, (store.held id).row = some stored ∧ row.Kept stored ∧
    (∀ name, request.kind.ownSecret = some name → name ∈ stored.secretNames) ∧
    ∀ key value, request.kind.told key = some value → stored.meta' key = some value
  secrets : ∀ field ∈ checked.secrets, (store.held id).secrets field.1 = some field.2
  ofKind : match request.kind with
    | .key | .oauth => True
    | .webhookIn hookId secret =>
        (store.held id).secrets (ofString "hook_secret") = some secret ∧
        hookOf checked.config hookId ∈ (store.held id).hooks
    | .telegram secret _ _ =>
        (store.held id).secrets (ofString "webhook_secret") = some secret ∧
        store.webhook = some id
    | .mcpRemote tools => ∀ tool ∈ tools, ((store.held id).tools tool.name).isSome = true

/-- A complete connection and the others as they were; or no trace of it. -/
def AllOrNothing (request : Request) (id : Id) (before after : Store Id) : Prop :=
  (∃ checked row, request.planned = .ok (checked, row) ∧
    Complete request checked row id after ∧
    ∀ other, other ≠ id → after.held other = before.held other) ∨
  after = before

/-- The steps that were done, and those from the first that fails on. -/
def Faults.done (faults : Faults) (script : List Step) : List Step :=
  script.takeWhile fun step => !faults.step step

def Faults.left (faults : Faults) (script : List Step) : List Step :=
  script.dropWhile fun step => !faults.step step

/-- No step fails; or the rows are deleted, and Telegram was told of no address yet; or, where
they are not deleted, the first step failed or only reads were left. -/
def Undone (request : Request) (faults : Faults) : Prop :=
  ∀ checked row, request.planned = .ok (checked, row) →
    let script := request.script checked row
    faults.left script = [] ∨
      if request.kind.isOauth || faults.delete then
        faults.done script = [] ∨ ∀ step ∈ faults.left script, step.writes = false
      else .setWebhook ∉ faults.done script

/-! ## What a step leaves -/

/-- What there is of a connection once a step was done. -/
def Step.Left (id : Id) (store : Store Id) : Step → Prop
  | .insert row => ∃ stored, (store.held id).row = some stored ∧ row.Kept stored
  | .secret name value => (store.held id).secrets name = some value
  | .hook made => made ∈ (store.held id).hooks
  | .update name patch => ∃ stored, (store.held id).row = some stored ∧
      name ∈ stored.secretNames ∧
      ∀ key value, patch key = some value → stored.meta' key = some value
  | .setWebhook => store.webhook = some id
  | .writeTools tools => ∀ tool ∈ tools, ((store.held id).tools tool.name).isSome = true
  | .read | .getMe | .listTools | .readTools => True

/-- The steps behind the first: no other row, and nothing written twice. -/
structure Orderly (steps : List Step) : Prop where
  once : steps.Nodup
  noInsert : ∀ row, .insert row ∉ steps
  secrets : ∀ name value value', .secret name value ∈ steps → .secret name value' ∈ steps →
    value = value'
  updates : ∀ name patch name' patch', .update name patch ∈ steps → .update name' patch' ∈ steps →
    name = name' ∧ patch = patch'
  tools : ∀ tools tools', .writeTools tools ∈ steps → .writeTools tools' ∈ steps → tools = tools'

section Steps

variable {id : Id} {store : Store Id} {step other : Step} {steps done : List Step} {row : Row}

theorem isSome_effect (there : (store.held id).row.isSome = true) :
    (((step.effect id store).held id).row).isSome = true := by
  cases step <;> simp [Step.effect, Step.write, there]

/-- A step leaves what it is there for, and what others leave is there as before. -/
theorem left_effect (orderly : Orderly steps) (listed : step ∈ steps) (listed' : other ∈ steps)
    (writes : other.writes = true) (there : (store.held id).row.isSome = true) :
    other.Left id (step.effect id store) ↔ step = other ∨ other.Left id store := by
  cases other with
  | insert row => exact absurd listed' (orderly.noInsert row)
  | read | getMe | listTools | readTools => contradiction
  | secret name value =>
      cases step with
      | secret name' value' =>
          by_cases same : name' = name
          · subst same
            have equal := orderly.secrets _ _ _ listed listed'
            simp [Step.Left, Step.effect, Step.write, equal]
          · simp [Step.Left, Step.effect, Step.write, same, Ne.symm same]
      | _ => simp [Step.Left, Step.effect, Step.write]
  | hook made =>
      cases step with
      | hook made' => simp [Step.Left, Step.effect, Step.write, or_comm, eq_comm]
      | _ => simp [Step.Left, Step.effect, Step.write]
  | update name patch =>
      cases step with
      | insert row => exact absurd listed (orderly.noInsert row)
      | update name' patch' =>
          obtain ⟨rfl, rfl⟩ := orderly.updates _ _ _ _ listed listed'
          obtain ⟨stored, found⟩ := Option.isSome_iff_exists.1 there
          refine iff_of_true ?_ (.inl rfl)
          refine ⟨stored.update name' patch', by simp [Step.effect, Step.write, found], ?_, ?_⟩
          · simp only [Row.update]
            split
            next inside => exact inside
            next => simp
          · intro key value told
            simp [Row.update, told]
      | _ => simp [Step.Left, Step.effect, Step.write]
  | setWebhook =>
      cases step <;> simp [Step.Left, Step.effect]
  | writeTools tools =>
      cases step with
      | writeTools tools' =>
          obtain rfl := orderly.tools _ _ listed listed'
          refine iff_of_true ?_ (.inl rfl)
          intro tool inside
          have among : (tools'.reverse.find? fun told => told.name = tool.name).isSome = true :=
            List.find?_isSome.2 ⟨tool, List.mem_reverse.2 inside, decide_eq_true rfl⟩
          simp [Step.effect, Step.write, Option.isSome_or, among]
      | _ => simp [Step.Left, Step.effect, Step.write]

/-- The row that was inserted keeps what it was inserted with. -/
theorem inserted_effect (kept : ∀ row, step ≠ .insert row)
    (inserted : (Step.insert row).Left id store) :
    (Step.insert row).Left id (step.effect id store) := by
  obtain ⟨stored, found, same⟩ := inserted
  cases step with
  | insert row => exact absurd rfl (kept row)
  | update name patch =>
      refine ⟨stored.update name patch, by simp [Step.effect, Step.write, found],
        { same with secretNames := fun name' inside => ?_ }⟩
      simp only [Row.update]
      split
      next => exact same.secretNames name' inside
      next => exact List.mem_append_left _ (same.secretNames name' inside)
  | _ => exact ⟨stored, by simp [Step.effect, Step.write, found], same⟩

theorem inserted_foldl (kept : ∀ row, .insert row ∉ done)
    (inserted : (Step.insert row).Left id store) :
    (Step.insert row).Left id (done.foldl (Step.effect id) store) := by
  induction done generalizing store with
  | nil => exact inserted
  | cons step rest ih =>
      refine ih (fun row inside => kept row (List.mem_cons_of_mem _ inside)) ?_
      exact inserted_effect (fun row same => kept row (same ▸ List.mem_cons_self)) inserted

theorem left_foldl (orderly : Orderly steps) (among : ∀ step ∈ done, step ∈ steps)
    (listed : other ∈ steps) (writes : other.writes = true)
    (there : (store.held id).row.isSome = true) :
    other.Left id (done.foldl (Step.effect id) store) ↔ other ∈ done ∨ other.Left id store := by
  induction done generalizing store with
  | nil => simp
  | cons step rest ih =>
      have inside := among step List.mem_cons_self
      have here := left_effect orderly inside listed writes there
      rw [List.foldl_cons, ih (fun step later => among step (List.mem_cons_of_mem _ later))
        (isSome_effect there), here, List.mem_cons]
      constructor
      · rintro (later | same | before)
        · exact .inl (.inr later)
        · exact .inl (.inl same.symm)
        · exact .inr before
      · rintro ((same | later) | before)
        · exact .inr (.inl same.symm)
        · exact .inl later
        · exact .inr (.inr before)

/-- Only the tables of the connection are written. -/
theorem held_foldl {held : Id} (elsewhere : held ≠ id) :
    (done.foldl (Step.effect id) store).held held = store.held held := by
  induction done generalizing store with
  | nil => rfl
  | cons step rest ih => simp [ih, Step.effect, elsewhere]

theorem webhook_foldl (done : List Step) (store : Store Id) :
    .setWebhook ∈ done ∧ (done.foldl (Step.effect id) store).webhook = some id ∨
      .setWebhook ∉ done ∧ (done.foldl (Step.effect id) store).webhook = store.webhook := by
  induction done generalizing store with
  | nil => simp
  | cons step rest ih =>
      rw [List.foldl_cons]
      obtain ⟨later, told⟩ | ⟨later, same⟩ := ih (step.effect id store)
      · exact .inl ⟨List.mem_cons_of_mem _ later, told⟩
      · cases step with
        | setWebhook => exact .inl ⟨List.mem_cons_self, same⟩
        | _ => exact .inr ⟨by simpa using later, same⟩

theorem perform_eq (fails : Step → Bool) :
    perform fails id steps store =
      ((steps.dropWhile fun step => !fails step).isEmpty,
        (steps.takeWhile fun step => !fails step).foldl (Step.effect id) store) := by
  induction steps generalizing store with
  | nil => rfl
  | cons step rest ih =>
      cases failed : fails step with
      | true => simp [perform, failed]
      | false => simp [perform, failed, ih]

end Steps

/-! ## The script -/

/-- What follows the row. -/
def Checked.tail {kind : Kind} (checked : Checked kind) : List Step :=
  checked.secrets.map (fun field => .secret field.1 field.2) ++ kind.script checked.config

theorem mem_secretSteps {secrets : Fields} {step : Step} :
    step ∈ secrets.map (fun field => .secret field.1 field.2) ↔
      ∃ name value, (name, value) ∈ secrets ∧ step = .secret name value := by
  simp [eq_comm]

section Script

variable {kind : Kind} {config : Fields} {checked : Checked kind} {name value value' : Utf16}

/-- What a kind writes as a secret has the name of its own. -/
theorem ownSecret_of_script (listed : .secret name value ∈ kind.script config) :
    kind.ownSecret = some name := by
  cases kind <;> simp_all [Kind.script, Kind.ownSecret]

theorem ownSecret_of_update {patch : Utf16 → Option Utf16}
    (listed : .update name patch ∈ checked.tail) : kind.ownSecret = some name := by
  cases kind <;> simp_all [Checked.tail, Kind.script, Kind.ownSecret]

theorem not_fields_of_script (listed : .secret name value ∈ kind.script config) :
    .secret name value' ∉ checked.secrets.map fun field => Step.secret field.1 field.2 := by
  intro given
  obtain ⟨_, _, stored, same⟩ := mem_secretSteps.1 given
  cases same
  exact checked.apart name (ownSecret_of_script listed) (List.mem_map_of_mem stored)

theorem script_nodup : (kind.script config).Nodup := by
  cases kind with
  | mcpRemote tools => cases tools <;> simp [Kind.script]
  | _ => simp [Kind.script]

theorem value_unique (listed : .secret name value ∈ kind.script config)
    (listed' : .secret name value' ∈ kind.script config) : value = value' := by
  cases kind <;> simp_all [Kind.script]

theorem orderly_tail (checked : Checked kind) : Orderly checked.tail where
  once := by
    refine List.nodup_append'.2 ⟨?_, script_nodup, ?_⟩
    · refine (List.Nodup.of_map _ checked.distinct).map fun field other same => ?_
      injection same with names values
      exact Prod.ext names values
    · intro step given listed
      obtain ⟨name, value, stored, rfl⟩ := mem_secretSteps.1 given
      exact not_fields_of_script listed given
  noInsert := by
    cases kind <;> simp [Checked.tail, Kind.script]
  secrets name value value' listed listed' := by
    obtain given | given := List.mem_append.1 listed <;>
      obtain given' | given' := List.mem_append.1 listed'
    · obtain ⟨_, _, stored, same⟩ := mem_secretSteps.1 given
      obtain ⟨_, _, stored', same'⟩ := mem_secretSteps.1 given'
      cases same
      cases same'
      exact congrArg Prod.snd (List.inj_on_of_nodup_map checked.distinct stored stored' rfl)
    · exact absurd given (not_fields_of_script given')
    · exact absurd given' (not_fields_of_script given)
    · exact value_unique given given'
  updates := by
    cases kind <;> simp_all [Checked.tail, Kind.script]
  tools := by
    cases kind <;> simp_all [Checked.tail, Kind.script]

end Script

section Outcome

variable {request : Request} {checked : Checked request.kind} {row : Row} {id : Id}
  {store : Store Id}

omit [DecidableEq Id] in
theorem left_script :
    (∀ step ∈ request.script checked row, step.Left id store) ↔
      (Step.insert row).Left id store ∧
      (∀ field ∈ checked.secrets, (store.held id).secrets field.1 = some field.2) ∧
      ∀ step ∈ request.kind.script checked.config, step.Left id store := by
  rw [Request.script, List.forall_mem_cons, List.forall_mem_append, List.forall_mem_map]
  exact Iff.rfl

omit [DecidableEq Id] in
/-- The row says what a kind tells of the connection once it was updated. -/
theorem told_iff (checked : Checked request.kind) :
    ((Step.insert row).Left id store ∧
      ∀ name patch, .update name patch ∈ request.kind.script checked.config →
        (Step.update name patch).Left id store) ↔
    ∃ stored, (store.held id).row = some stored ∧ row.Kept stored ∧
      (∀ name, request.kind.ownSecret = some name → name ∈ stored.secretNames) ∧
      ∀ key value, request.kind.told key = some value → stored.meta' key = some value := by
  constructor
  · rintro ⟨⟨stored, found, same⟩, updated⟩
    refine ⟨stored, found, same, ?_⟩
    revert updated
    generalize checked.config = config'
    cases request.kind <;> simp [Kind.script, Kind.ownSecret, Kind.told, Step.Left, found]
  · rintro ⟨stored, found, same, own, told⟩
    refine ⟨⟨stored, found, same⟩, ?_⟩
    revert own told
    generalize checked.config = config'
    cases request.kind <;> simp_all [Kind.script, Kind.ownSecret, Kind.told, Step.Left]

omit [DecidableEq Id] in
theorem complete_iff :
    Complete request checked row id store ↔
      ∀ step ∈ request.script checked row, step.Left id store := by
  rw [left_script]
  constructor
  · rintro ⟨stored, secrets, ofKind⟩
    obtain ⟨inserted, updated⟩ := (told_iff checked).2 stored
    refine ⟨inserted, secrets, ?_⟩
    revert updated ofKind
    generalize checked.config = config'
    cases request.kind with
    | mcpRemote tools => cases tools <;> simp +contextual [Kind.script, Step.Left]
    | _ => simp +contextual [Kind.script, Step.Left]
  · rintro ⟨inserted, secrets, left⟩
    refine ⟨(told_iff checked).1 ⟨inserted, fun name patch => left _⟩, secrets, ?_⟩
    revert left
    generalize checked.config = config'
    cases request.kind with
    | mcpRemote tools => cases tools <;> simp +contextual [Kind.script, Step.Left]
    | _ => simp +contextual [Kind.script, Step.Left]

omit [DecidableEq Id] in
theorem left_of_reads {step : Step} (reads : step.writes = false) : step.Left id store := by
  cases step <;> simp_all [Step.writes, Step.Left]

theorem row_inserted : (Step.insert row).Left id ((Step.insert row).effect id store) :=
  ⟨row, by simp [Step.effect, Step.write], rfl, rfl, rfl, rfl, fun _ listed => listed⟩

/-- Next to the new row there is nothing yet of what is to follow. -/
theorem not_left_fresh (fresh : store.Without id)
    (names : row.secretNames = checked.secrets.map Prod.fst) {step : Step}
    (listed : step ∈ checked.tail) (writes : step.writes = true) :
    ¬ step.Left id ((Step.insert row).effect id store) := by
  cases step with
  | insert row' => exact absurd listed ((orderly_tail checked).noInsert row')
  | read | getMe | listTools | readTools => contradiction
  | secret name value => simp [Step.Left, Step.effect, Step.write, fresh.1]
  | hook made => simp [Step.Left, Step.effect, Step.write, fresh.1]
  | setWebhook => simpa [Step.Left, Step.effect] using fresh.2
  | update name patch =>
      rintro ⟨stored, found, named, -⟩
      obtain rfl : row = stored := by simpa [Step.effect, Step.write] using found
      exact checked.apart name (ownSecret_of_update listed) (names ▸ named)
  | writeTools tools =>
      intro left
      obtain ⟨tool, inside⟩ : ∃ tool, tool ∈ tools :=
        List.exists_mem_of_ne_nil tools (by simpa [Step.writes] using writes)
      simpa [Step.effect, Step.write, fresh.1] using left tool inside

/-- A connection is complete once no step that writes is left. -/
theorem complete_foldl (fresh : store.Without id)
    (names : row.secretNames = checked.secrets.map Prod.fst) {done left : List Step}
    (parted : done ++ left = checked.tail) :
    Complete request checked row id
        (done.foldl (Step.effect id) ((Step.insert row).effect id store)) ↔
      ∀ step ∈ left, step.writes = false := by
  have orderly := orderly_tail checked
  have there : (((Step.insert row).effect id store).held id).row.isSome = true := by
    simp [Step.effect, Step.write]
  have among : ∀ step ∈ done, step ∈ checked.tail := fun step inside =>
    parted ▸ List.mem_append_left _ inside
  have apart : ∀ step ∈ left, step ∉ done := fun step inside before =>
    List.disjoint_of_nodup_append (parted ▸ orderly.once) before inside
  rw [complete_iff]
  constructor
  · intro whole step inside
    have listed : step ∈ checked.tail := parted ▸ List.mem_append_right _ inside
    by_contra writes
    rw [Bool.not_eq_false] at writes
    obtain before | early := (left_foldl orderly among listed writes there).1
      (whole step (List.mem_cons_of_mem _ listed))
    · exact apart step inside before
    · exact not_left_fresh fresh names listed writes early
  · intro reads step listed
    obtain rfl | (listed : step ∈ checked.tail) := List.mem_cons.1 listed
    · exact inserted_foldl (fun row inside => orderly.noInsert row (among _ inside)) row_inserted
    cases writes : step.writes with
    | false => exact left_of_reads writes
    | true =>
        refine (left_foldl orderly among listed writes there).2 (.inl ?_)
        obtain before | later := List.mem_append.1 (parted.symm ▸ listed)
        · exact before
        · exact absurd (reads step later) (by simp [writes])

end Outcome

/-! ## Connecting -/

section Connecting

variable {request : Request} {faults : Faults} {checked : Checked request.kind} {row : Row}
  {id : Id} {before : Store Id}

theorem planned_names (planned : request.planned = .ok (checked, row)) :
    row.secretNames = checked.secrets.map Prod.fst := by
  revert planned
  fun_cases Request.planned <;> simp_all <;> grind

/-- The deleted rows leave the store as it was, but for what Telegram was told. -/
theorem delete_foldl (fresh : before.Without id) (done : List Step) :
    (done.foldl (Step.effect id) before).delete id = before ↔ .setWebhook ∉ done := by
  obtain ⟨told, webhook⟩ | ⟨untold, webhook⟩ := webhook_foldl done before
  · refine iff_of_false (fun same => fresh.2 ?_) (not_not_intro told)
    exact (congrArg Store.webhook same).symm.trans webhook
  · refine iff_of_true (Store.ext (funext fun held => ?_) webhook) untold
    by_cases own : held = id
    · simp [Store.delete, own, fresh.1]
    · simp [Store.delete, own, held_foldl own]

theorem connect_planned (planned : request.planned = .ok (checked, row)) :
    (connect request faults id before).2 =
      let script := request.script checked row
      let after := (faults.done script).foldl (Step.effect id) before
      if faults.left script = [] ∨ (request.kind.isOauth || faults.delete) = true then after
      else after.delete id := by
  simp only [connect, planned, perform_eq]
  cases left : faults.left (request.script checked row) with
  | nil =>
      simp only [Faults.left] at left
      simp only [left, Faults.done, List.isEmpty_nil, true_or, if_true]
  | cons step rest =>
      simp only [Faults.left] at left
      simp only [left, Faults.done, List.isEmpty_cons, reduceCtorEq, false_or]
      split <;> rfl

omit [DecidableEq Id] in
theorem allOrNothing_of_row (planned : request.planned = .ok (checked, row))
    (fresh : before.Without id) {after : Store Id} (there : (after.held id).row.isSome = true)
    (others : ∀ other, other ≠ id → after.held other = before.held other) :
    AllOrNothing request id before after ↔ Complete request checked row id after := by
  constructor
  · rintro (⟨checked', row', planned', whole, -⟩ | rfl)
    · cases planned.symm.trans planned'
      exact whole
    · simp [fresh.1] at there
  · exact fun whole => .inl ⟨checked, row, planned, whole, others⟩

theorem allOrNothing_of_delete {after : Store Id} :
    AllOrNothing request id before (after.delete id) ↔ after.delete id = before := by
  refine or_iff_right ?_
  rintro ⟨_, _, -, ⟨⟨stored, found, -⟩, -, -⟩, -⟩
  simp [Store.delete] at found

/-- Where the rows stay, the connection is none if nothing was done, and else it is complete if
nothing is left to write. -/
theorem allOrNothing_kept (faults : Faults) (planned : request.planned = .ok (checked, row))
    (fresh : before.Without id) :
    AllOrNothing request id before
        ((faults.done (request.script checked row)).foldl (Step.effect id) before) ↔
      faults.done (request.script checked row) = [] ∨
        ∀ step ∈ faults.left (request.script checked row), step.writes = false := by
  cases failed : faults.step (.insert row) with
  | true =>
      have none : faults.done (request.script checked row) = [] := by
        simp [Faults.done, Request.script, failed]
      rw [none]
      exact iff_of_true (.inr rfl) (.inl rfl)
  | false =>
      have done : faults.done (request.script checked row) =
          .insert row :: checked.tail.takeWhile fun step => !faults.step step := by
        simp [Faults.done, Request.script, failed, Checked.tail]
      have left : faults.left (request.script checked row) =
          checked.tail.dropWhile fun step => !faults.step step := by
        simp [Faults.left, Request.script, failed, Checked.tail]
      rw [done, left, List.foldl_cons, or_iff_right (by simp), ← complete_foldl fresh
        (planned_names planned) List.takeWhile_append_dropWhile]
      refine allOrNothing_of_row planned fresh ?_ fun other elsewhere => ?_
      · have kept : ∀ row, .insert row ∉ checked.tail.takeWhile fun step => !faults.step step :=
          fun row inside => (orderly_tail checked).noInsert row (List.takeWhile_subset _ inside)
        obtain ⟨stored, found, -⟩ := inserted_foldl kept (@row_inserted Id _ row id before)
        simp [found]
      · rw [held_foldl elsewhere]
        simp [Step.effect, elsewhere]

/-- Connecting leaves a complete connection or none just if what was done can be undone. -/
theorem connected_whole_iff (request : Request) (faults : Faults) (id : Id) (before : Store Id)
    (fresh : before.Without id) :
    AllOrNothing request id before (connect request faults id before).2 ↔
      Undone request faults := by
  cases planned : request.planned with
  | error answer =>
      refine iff_of_true (.inr (by simp [connect, planned])) fun checked row planned' => ?_
      cases planned.symm.trans planned'
  | ok found =>
      obtain ⟨checked, row⟩ := found
      have undone : Undone request faults ↔
          faults.left (request.script checked row) = [] ∨
            if request.kind.isOauth || faults.delete then
              faults.done (request.script checked row) = [] ∨
                ∀ step ∈ faults.left (request.script checked row), step.writes = false
            else .setWebhook ∉ faults.done (request.script checked row) := by
        refine ⟨fun all => all checked row planned, fun here checked' row' planned' => ?_⟩
        cases planned.symm.trans planned'
        exact here
      have kept := allOrNothing_kept faults planned fresh
      rw [undone, connect_planned planned]
      by_cases ended : faults.left (request.script checked row) = []
      · rw [if_pos (.inl ended), kept, ended]
        simp
      · split
        next stays => rw [if_pos (.inr stays), kept, or_iff_right ended]
        next deleted =>
            rw [if_neg (not_or.2 ⟨ended, deleted⟩), allOrNothing_of_delete, delete_foldl fresh,
              or_iff_right ended]

end Connecting

/-- The id of an OAuth client is a field that is shown, its secret is sealed. -/
def clientFields : Checked .oauth where
  config := [(ofString "client_id", ofString "id")]
  secrets := [(ofString "client_secret", ofString "secret")]
  distinct := by decide
  apart := by decide

def oauthClient : Request where
  kind := .oauth
  connectorId := ofString "gmail"
  name := ofString "Gmail"
  label := []
  vaultReady := true
  checked := some clientFields
  labels := some []
  test := none
  saveIfUnverified := false

/-- The vault takes nothing. -/
def vaultDown : Faults where
  step
    | .secret _ _ => true
    | _ => false

theorem connected_whole_vault_down :
    AllOrNothing oauthClient 0 { held := fun _ => {} }
        (connect oauthClient vaultDown 0 { held := fun _ => ({} : Held) }).2 ↔
      Undone oauthClient vaultDown :=
  connected_whole_iff oauthClient vaultDown (0 : Nat) { held := fun _ => {} } ⟨rfl, by simp⟩

/-- The row of an OAuth client stays where its secret was not stored. -/
theorem not_connected_whole :
    ¬ ∀ (request : Request) (faults : Faults) (id : Nat) (before : Store Nat),
      before.Without id → AllOrNothing request id before (connect request faults id before).2 := by
  intro whole
  obtain ⟨checked, row, planned, complete, -⟩ | same :=
    whole oauthClient vaultDown 0 { held := fun _ => {} } ⟨rfl, by simp⟩
  · have planned' : oauthClient.planned = .ok (clientFields, {
        connectorId := ofString "gmail"
        label := ofString "Gmail"
        status := .needsAuthorization
        config := clientFields.config
        secretNames := [ofString "client_secret"] }) := rfl
    cases planned'.symm.trans planned
    have stored := complete.secrets (ofString "client_secret", ofString "secret")
      List.mem_cons_self
    exact absurd stored (by decide)
  · have gone := congrArg (fun store => ((store.held 0).row).isSome) same
    exact absurd gone (by decide)

end Connect

end TitanRunner
