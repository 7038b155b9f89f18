import TitanRunner.Lib.Interleaving
import TitanRunner.Lib.Utf16

/-!
# The vault and its key rotation

The records of `vault_records`, the saves and deletions that other requests make, and
`handleVaultRotate`, which reads all records and writes them back one by one.  A ciphertext
opens with the key and the additional data it was sealed with, and with no others.
-/

namespace TitanRunner

namespace Vault

open Utf16 (ofString)
open TransitionSystem System Interleaving

/-! ## Sealing -/

structure Context where
  connectionId : Utf16
  connectorId : Utf16
  deriving DecidableEq

/-- `kek_version`: `KEK_VERSION`, and the 0 that stands for the previous key. -/
inductive Version where
  | zero | one
  deriving DecidableEq, Repr

def Version.digit : Version → UInt16
  | .zero => 0x30
  | .one => 0x31

/-- `aadOf` -/
def aadOf (context : Context) (version : Version) : Utf16 :=
  (context.connectionId ++ [0x7C] ++ context.connectorId ++ [0x7C]) ++ [version.digit]

/-- A ciphertext, by what it was made of. -/
structure Sealed where
  key : Nat
  aad : Utf16
  plaintext : Utf16
  deriving DecidableEq

def decrypt (key : Nat) (aad : Utf16) (sealed : Sealed) : Option Utf16 :=
  if sealed.key = key ∧ sealed.aad = aad then some sealed.plaintext else none

/-- `CONNECTOR_KEK` and `CONNECTOR_KEK_PREV` -/
structure Keys where
  current : Nat
  previous : Option Nat := none

def importKek (keys : Keys) : Version → Option Nat
  | .one => some keys.current
  | .zero => keys.previous

def encryptValue (keys : Keys) (context : Context) (plaintext : Utf16) : Sealed where
  key := keys.current
  aad := aadOf context .one
  plaintext := plaintext

def decryptValue (keys : Keys) (context : Context) (sealed : Sealed) (version : Version) :
    Option Utf16 :=
  (importKek keys version).bind fun key => decrypt key (aadOf context version) sealed

/-- A row of `vault_records`. -/
structure Record where
  id : Utf16
  scope : Utf16
  ownerId : Utf16
  sealed : Sealed
  kekVersion : Version
  deriving DecidableEq

def contextForVaultRow (connMap : List (Utf16 × Utf16)) (record : Record) : Context :=
  if record.scope = ofString "provider_key" then
    ⟨ofString "providerkey:" ++ record.ownerId, ofString "provider-key"⟩
  else ⟨record.ownerId, (connMap.lookup record.ownerId).getD record.scope⟩

/-- What the rotation makes of a record, if it opens. -/
def reseal (keys : Keys) (connMap : List (Utf16 × Utf16)) (record : Record) : Option Sealed :=
  let context := contextForVaultRow connMap record
  let plain := match decryptValue keys context record.sealed record.kekVersion with
    | some plain => some plain
    | none => decryptValue keys context record.sealed .zero
  plain.map (encryptValue keys context)

/-! ## Requests -/

/-- A secret that is saved. -/
structure Secret where
  context : Context
  plaintext : Utf16
  deriving DecidableEq

structure Store where
  records : List Record
  /-- The connections with their connectors. -/
  connections : List (Utf16 × Utf16) := []
  /-- The secret that was saved last under an id. -/
  latest : Utf16 → Option Secret

/-- `iv`, `ciphertext` and `kek_version` of one row are written. -/
def write (records : List Record) (id : Utf16) (sealed : Sealed) : List Record :=
  records.map fun record =>
    if record.id = id then
      { record with
        sealed
        kekVersion := .one }
    else record

/-- Where a request is. -/
inductive Request where
  | idle
  /-- The rotation read the connections. -/
  | mapped (connMap : List (Utf16 × Utf16))
  /-- The rotation has these records left. -/
  | rotating (connMap : List (Utf16 × Utf16)) (rest : List Record)
  /-- The rotation reported success. -/
  | rotated
  | done

inductive Event where
  | putVaultRecord (id scope ownerId : Utf16) (secret : Secret)
  | deleteVaultRecord (id : Utf16)
  | insertConnection (id connectorId : Utf16)
  | deleteConnectionRows (id : Utf16)
  | handleVaultRotate
  /-- The next statement of the rotation. -/
  | statement
  /-- The request fails or is stopped. -/
  | stop

def putVaultRecord (keys : Keys) (store : Store) (id scope ownerId : Utf16) (secret : Secret) :
    Store :=
  let sealed := encryptValue keys secret.context secret.plaintext
  { store with
    records := if store.records.any fun record => record.id = id then
        write store.records id sealed
      else store.records ++ [⟨id, scope, ownerId, sealed, .one⟩]
    latest := Function.update store.latest id (some secret) }

/-- One statement of a request. -/
def step (keys : Keys) (store : Store) : Request → Event → Option (Store × Request)
  | .idle, .putVaultRecord id scope ownerId secret =>
      some (putVaultRecord keys store id scope ownerId secret, .done)
  | .idle, .deleteVaultRecord id =>
      some ({ store with records := store.records.filter fun record => record.id ≠ id }, .done)
  | .idle, .insertConnection id connectorId =>
      some ({ store with connections := (id, connectorId) :: store.connections }, .done)
  | .idle, .deleteConnectionRows id =>
      some ({ store with
        records := store.records.filter fun record =>
          ¬ (record.scope = ofString "connection" ∧ record.ownerId = id)
        connections := store.connections.filter fun connection => connection.1 ≠ id }, .done)
  | .idle, .handleVaultRotate => some (store, .mapped store.connections)
  | .mapped connMap, .statement => some (store, .rotating connMap store.records)
  | .rotating _ [], .statement => some (store, .rotated)
  | .rotating connMap (record :: rest), .statement =>
      match reseal keys connMap record with
      | some sealed =>
          some ({ store with records := write store.records record.id sealed },
            .rotating connMap rest)
      | none => some (store, .done)
  | _, .stop => some (store, .done)
  | _, _ => none

def program (keys : Keys) : Program Store Request Event where
  idle := .idle
  step := step keys

/-! ## What a rotation keeps -/

/-- A record opens to a secret under the current key or the previous one. -/
structure Opens (keys : Keys) (secret : Secret) (record : Record) : Prop where
  key : record.sealed.key = keys.current ∨ keys.previous = some record.sealed.key
  aad : record.sealed.aad = aadOf secret.context record.kekVersion
  plaintext : record.sealed.plaintext = secret.plaintext

/-- Every record opens to what was saved last. -/
def Kept (keys : Keys) (store : Store) : Prop :=
  ∀ record ∈ store.records, ∃ secret, store.latest record.id = some secret ∧
    Opens keys secret record

/-- The runs of a vault whose records open, with any number of requests. -/
def system (Id : Type) [DecidableEq Id] (keys : Keys) :
    System (Pool Id Store Request) (Id × Event) :=
  (program keys).system Id (Kept keys)

/-- The side condition of a statement: the rotation writes a record whose ciphertext is of the
secret that it read. -/
def AsRead (store : Store) : Request → Event → Prop
  | .rotating _ (read :: _), .statement => ∀ record ∈ store.records, record.id = read.id →
      record.sealed.plaintext = read.sealed.plaintext ∧ record.sealed.aad = read.sealed.aad
  | _, _ => True

instance (store : Store) (request : Request) (event : Event) :
    Decidable (AsRead store request event) := by
  unfold AsRead
  split <;> infer_instance

/-- What a rotation knows: the records that are not left to it are under the current key. -/
def Knows' (keys : Keys) (store : Store) : Request → Prop
  | .rotating _ rest => ∀ record ∈ store.records,
      record.sealed.key = keys.current ∨ record.id ∈ rest.map Record.id
  | .rotated => ∀ record ∈ store.records, record.sealed.key = keys.current
  | _ => True

variable {keys : Keys} {store after : Store} {request request' other : Request} {event : Event}

/-- Equal additional data are of one context, whatever the version. -/
theorem aadOf_one {context context' : Context} {version version' : Version}
    (same : aadOf context version = aadOf context' version') :
    aadOf context .one = aadOf context' .one := by
  have parts := List.append_inj_left' same rfl
  unfold aadOf
  rw [parts]

theorem of_decryptValue {context : Context} {sealed : Sealed} {version : Version}
    {plain : Utf16} (opened : decryptValue keys context sealed version = some plain) :
    sealed.aad = aadOf context version ∧ sealed.plaintext = plain := by
  have ⟨key, _, decrypted⟩ := Option.bind_eq_some_iff.1 opened
  unfold decrypt at decrypted
  split at decrypted
  next same => exact ⟨same.2, Option.some.inj decrypted⟩
  next => contradiction

/-- What a rotation writes is the secret that it read, under the current key. -/
theorem of_reseal {connMap : List (Utf16 × Utf16)} {record : Record} {sealed : Sealed}
    (resealed : reseal keys connMap record = some sealed) :
    sealed.key = keys.current ∧ sealed.plaintext = record.sealed.plaintext ∧
      ∃ context version, record.sealed.aad = aadOf context version ∧
        sealed.aad = aadOf context .one := by
  obtain ⟨plain, opened, same⟩ := Option.map_eq_some_iff.1 resealed
  subst same
  split at opened
  next plain' first =>
    obtain ⟨aad, plaintext⟩ := of_decryptValue first
    rw [Option.some.inj opened] at plaintext
    exact ⟨rfl, plaintext.symm, _, _, aad, rfl⟩
  next =>
    obtain ⟨aad, plaintext⟩ := of_decryptValue opened
    exact ⟨rfl, plaintext.symm, _, _, aad, rfl⟩

theorem mem_write {records : List Record} {id : Utf16} {sealed : Sealed} {record : Record}
    (listed : record ∈ write records id sealed) :
    record ∈ records ∧ record.id ≠ id ∨
      ∃ before ∈ records, before.id = id ∧ record = { before with
        sealed
        kekVersion := .one } := by
  have ⟨before, inside, same⟩ := List.mem_map.1 listed
  split at same
  next is => exact .inr ⟨before, inside, is, same.symm⟩
  next other => exact .inl ⟨same ▸ inside, same ▸ other⟩

/-- Fewer records, and the same secrets. -/
theorem Kept.subset (kept : Kept keys store) {connections : List (Utf16 × Utf16)}
    {records : List Record} (fewer : records ⊆ store.records) :
    Kept keys { store with records, connections } :=
  fun record listed => kept record (fewer listed)

/-- The records of a rotation that writes. -/
theorem Kept.write {connMap : List (Utf16 × Utf16)} {read : Record} {sealed : Sealed}
    (kept : Kept keys store) (resealed : reseal keys connMap read = some sealed)
    (asRead : ∀ record ∈ store.records, record.id = read.id →
      record.sealed.plaintext = read.sealed.plaintext ∧ record.sealed.aad = read.sealed.aad) :
    Kept keys { store with records := write store.records read.id sealed } := by
  intro record listed
  have ⟨key, plaintext, context, version, aad, aad'⟩ := of_reseal resealed
  cases mem_write listed with
  | inl other => exact kept record other.1
  | inr written =>
    have ⟨before, inside, is, same⟩ := written
    have ⟨secret, latest, opens⟩ := kept before inside
    have ⟨samePlaintext, sameAad⟩ := asRead before inside is
    subst same
    refine ⟨secret, latest, .inl key, ?_, ?_⟩
    · rw [aad', aadOf_one (aad.symm.trans (sameAad.symm.trans opens.aad))]
    · rw [plaintext, ← samePlaintext, opens.plaintext]

/-- The records after a save: the one that was saved, and the others as they were. -/
theorem mem_putVaultRecord {id scope ownerId : Utf16} {secret : Secret} {record : Record}
    (listed : record ∈ (putVaultRecord keys store id scope ownerId secret).records) :
    record ∈ store.records ∧ record.id ≠ id ∨ record.id = id ∧ record.kekVersion = .one ∧
      record.sealed = encryptValue keys secret.context secret.plaintext := by
  rw [putVaultRecord] at listed
  split at listed
  next =>
    cases mem_write listed with
    | inl other => exact .inl other
    | inr written =>
      have ⟨before, _, is, same⟩ := written
      subst same
      exact .inr ⟨is, rfl, rfl⟩
  next absent =>
    cases List.mem_append.1 listed with
    | inl inside =>
      refine .inl ⟨inside, ?_⟩
      intro is
      exact absent (List.any_eq_true.2 ⟨record, inside, decide_eq_true is⟩)
    | inr new =>
      rw [List.mem_singleton] at new
      subst new
      exact .inr ⟨rfl, rfl, rfl⟩

theorem latest_putVaultRecord (id scope ownerId : Utf16) (secret : Secret) :
    (putVaultRecord keys store id scope ownerId secret).latest =
      Function.update store.latest id (some secret) := rfl

theorem Kept.put (kept : Kept keys store) (id scope ownerId : Utf16) (secret : Secret) :
    Kept keys (putVaultRecord keys store id scope ownerId secret) := by
  intro record listed
  cases mem_putVaultRecord listed with
  | inl other =>
    have ⟨secret', latest, opens⟩ := kept record other.1
    refine ⟨secret', ?_, opens⟩
    rw [latest_putVaultRecord, Function.update_of_ne other.2]
    exact latest
  | inr saved =>
    have ⟨is, version, same⟩ := saved
    refine ⟨secret, ?_, ?_⟩
    · rw [latest_putVaultRecord, is, Function.update_self]
    · constructor
      · exact .inl (by rw [same]; rfl)
      · rw [same, version]
        rfl
      · rw [same]
        rfl

/-- A statement after which every record is as it was, gone, or under the current key. -/
theorem Knows'.rely (renews : ∀ record ∈ after.records, record ∈ store.records ∨
      record.sealed.key = keys.current) (knows : Knows' keys store request) :
    Knows' keys after request := by
  cases request with
  | rotating connMap rest =>
    intro record listed
    cases renews record listed with
    | inl inside => exact knows record inside
    | inr current => exact .inl current
  | rotated =>
    intro record listed
    cases renews record listed with
    | inl inside => exact knows record inside
    | inr current => exact current
  | _ => trivial

/-- Step lemma. -/
theorem step_keeps (kept : Kept keys store) (knows : Knows' keys store request)
    (asRead : AsRead store request event)
    (took : step keys store request event = some (after, request')) :
    Kept keys after ∧ Knows' keys after request' ∧ ∀ record ∈ after.records,
      record ∈ store.records ∨ record.sealed.key = keys.current := by
  unfold step at took
  split at took
  next id scope ownerId secret =>
    cases took
    refine ⟨kept.put id scope ownerId secret, trivial, ?_⟩
    intro record listed
    cases mem_putVaultRecord listed with
    | inl other => exact .inl other.1
    | inr saved => exact .inr (by rw [saved.2.2]; rfl)
  next =>
    cases took
    exact ⟨kept.subset fun _ listed => List.mem_of_mem_filter listed, trivial,
      fun _ listed => .inl (List.mem_of_mem_filter listed)⟩
  next =>
    cases took
    exact ⟨kept, trivial, fun _ listed => .inl listed⟩
  next =>
    cases took
    exact ⟨kept.subset fun _ listed => List.mem_of_mem_filter listed, trivial,
      fun _ listed => .inl (List.mem_of_mem_filter listed)⟩
  next =>
    cases took
    exact ⟨kept, trivial, fun _ listed => .inl listed⟩
  next =>
    cases took
    exact ⟨kept, fun record listed => .inr (List.mem_map_of_mem listed),
      fun _ listed => .inl listed⟩
  next =>
    cases took
    refine ⟨kept, ?_, fun _ listed => .inl listed⟩
    intro record listed
    exact (knows record listed).resolve_right (List.not_mem_nil)
  next connMap read rest =>
    split at took
    next sealed resealed =>
      cases took
      have current := (of_reseal resealed).1
      refine ⟨kept.write resealed asRead, ?_, ?_⟩
      · intro record listed
        cases mem_write listed with
        | inl other =>
          refine (knows record other.1).imp_right ?_
          intro left
          exact (List.mem_cons.1 left).resolve_left other.2
        | inr written =>
          have ⟨before, _, _, same⟩ := written
          exact .inl (same ▸ current)
      · intro record listed
        cases mem_write listed with
        | inl other => exact .inl other.1
        | inr written =>
          have ⟨before, _, _, same⟩ := written
          exact .inr (same ▸ current)
    next =>
      cases took
      exact ⟨kept, trivial, fun _ listed => .inl listed⟩
  next =>
    cases took
    exact ⟨kept, trivial, fun _ listed => .inl listed⟩
  next => contradiction

theorem respects : (program keys).Respects AsRead (Kept keys) (Knows' keys) fun _ _ => True where
  symm _ := trivial
  guarantee kept knows asRead took := by
    have ⟨kept, knows, _⟩ := step_keeps kept knows asRead took
    exact ⟨kept, knows⟩
  rely kept knows other _ asRead took := by
    have ⟨_, _, renews⟩ := step_keeps kept knows asRead took
    exact ⟨other.rely renews, trivial⟩

/-- In every run in which a rotation writes over the secrets that it read, also one that stops,
each record opens to the secret saved last, and after a rotation that reported success all are
under the current key. -/
theorem rotation_keeps (Id : Type) [DecidableEq Id] (keys : Keys) (pool : Pool Id Store Request)
    (reached : Reachable (system Id keys) (Program.onStatement AsRead) pool) :
    (∀ record ∈ pool.shared.records, ∃ secret, pool.shared.latest record.id = some secret ∧
      Opens keys secret record) ∧
    ∀ id, pool.requests id = .rotated →
      ∀ record ∈ pool.shared.records, record.sealed.key = keys.current := by
  have known :=
    Program.Respects.reachable respects (fun store kept => ⟨kept, trivial⟩) trivial reached
  refine ⟨known.shared, ?_⟩
  intro id rotated
  have current := known.each id
  rw [rotated] at current
  exact current

def sampleKeys : Keys := ⟨1, some 0⟩

/-- The secret of a connection, and a vault that holds it under the previous key. -/
def sampleSecret (text : UInt16) : Secret := ⟨⟨[2], [3]⟩, [text]⟩

def sampleStore : Store where
  records := [⟨[1], ofString "connection", [2], ⟨0, aadOf ⟨[2], [3]⟩ .zero, [7]⟩, .zero⟩]
  connections := [([2], [3])]
  latest := fun _ => some (sampleSecret 7)

theorem kept_sampleStore : Kept sampleKeys sampleStore := by
  intro record listed
  have same := List.mem_singleton.1 listed
  subst same
  exact ⟨sampleSecret 7, rfl, .inr rfl, rfl, rfl⟩

def begun : Pool Nat Store Request := ⟨sampleStore, fun _ => .idle⟩

def Request.isRotated : Request → Bool
  | .rotated => true
  | _ => false

theorem eq_rotated (is : request.isRotated = true) : request = .rotated := by
  cases request with
  | rotated => rfl
  | _ => contradiction

/-- Rotated from the previous key, and saved anew. -/
theorem rotation_keeps_saved :
    ∃ pool : Pool Nat Store Request, pool.requests 0 = .rotated ∧
      ∀ record ∈ pool.shared.records, record.sealed.key = 1 := by
  let labels : List (Nat × Event) := [(0, .handleVaultRotate), (0, .statement), (0, .statement),
    (0, .statement), (1, .putVaultRecord [1] (ofString "connection") [2] (sampleSecret 8))]
  have ends : ((system Nat sampleKeys).exec (Program.onStatement AsRead) begun labels).map
      (fun pool => (pool.requests 0).isRotated) = some true := by
    decide
  have ⟨pool, ran, is⟩ := Option.map_eq_some_iff.1 ends
  have rotated := eq_rotated is
  have keeps := rotation_keeps Nat sampleKeys pool
    (.of_exec (.start ⟨kept_sampleStore, fun _ => rfl⟩) ran)
  exact ⟨pool, rotated, keeps.2 0 rotated⟩

/-- A secret is saved after the rotation read its record, and the rotation writes back the older
one. -/
theorem not_rotation_keeps : ¬ ∀ (keys : Keys) (pool : Pool Nat Store Request),
    Reachable (system Nat keys) always pool →
      ∀ record ∈ pool.shared.records, ∃ secret, pool.shared.latest record.id = some secret ∧
        Opens keys secret record := by
  intro claimed
  let labels : List (Nat × Event) := [(0, .handleVaultRotate), (0, .statement),
    (1, .putVaultRecord [1] (ofString "connection") [2] (sampleSecret 8)), (0, .statement)]
  have ends : ((system Nat sampleKeys).exec always begun labels).map (fun pool =>
      (pool.shared.latest [1], pool.shared.records.map fun record =>
        (record.id, record.sealed.plaintext))) = some (some (sampleSecret 8), [([1], [7])]) := by
    decide
  have ⟨pool, ran, is⟩ := Option.map_eq_some_iff.1 ends
  have ⟨latest, records⟩ := Prod.mk.inj is
  have ⟨record, listed, same⟩ := List.mem_map.1 (records ▸ List.mem_singleton_self ([1], [7]))
  have ⟨id, plaintext⟩ := Prod.mk.inj same
  have ⟨secret, saved, opens⟩ := claimed sampleKeys pool
    (.of_exec (.start ⟨kept_sampleStore, fun _ => rfl⟩) ran) record listed
  rw [id, latest] at saved
  rw [← Option.some.inj saved] at opens
  have contrary := plaintext.symm.trans opens.plaintext
  simp [sampleSecret] at contrary

end Vault

end TitanRunner
