import TitanRunner.Lib.Interleaving

/-!
# Proofs of provider keys

`handleSaveKey` and `handleProviderProof` of `worker/src/keys.js` for one provider, in any
interleaving: each save starts a proof under its own request id, and the answer to it may come late,
again, out of order or without the id.  A key goes by the request id of the save that stored it.
-/

namespace TitanRunner

namespace ProviderProof

open TransitionSystem System Interleaving

abbrev RequestId := Nat

inductive ProofResult where
  | ok | failed
  deriving DecidableEq, Repr

/-- The row of `provider_keys`, without the columns that nothing here reads. -/
structure Row where
  proofResult : Option ProofResult := none
  proofRequestId : Option RequestId := none
  /-- Ghost: the key that the proof was started for. -/
  proofKey : Option RequestId := none
  deriving DecidableEq, Repr

/-- What the requests share. -/
structure Shared where
  /-- The key in the Actions secret. -/
  secret : Option RequestId := none
  /-- Ghost: the key saved last, by the save that got past its metadata last. -/
  saved : Option RequestId := none
  row : Option Row := none
  /-- Ghost: the saves that have written the secret and not got to their metadata. -/
  writing : List RequestId := []
  /-- Ghost: the request ids that were given out, and those that a runner was told. -/
  used : List RequestId := []
  started : List RequestId := []
  deriving DecidableEq, Repr

/-- An answer that is about to be stored. -/
structure Proof where
  /-- `body.requestId` -/
  requestId : Option RequestId
  ok : Bool
  /-- Ghost: the key that was tested. -/
  key : RequestId
  /-- The id that was read in the row. -/
  seen : Option RequestId
  deriving DecidableEq, Repr

/-- Where a request is. -/
inductive Request where
  | idle
  /-- The secret is written. -/
  | written (id : RequestId)
  /-- The metadata was written, or could not be. -/
  | recorded (id : RequestId)
  /-- The row was read, and the answer is not ignored. -/
  | proving (proof : Proof)
  | done
  deriving DecidableEq

inductive Event where
  /-- A save comes to write the secret. -/
  | handleSaveKey (id : RequestId)
  /-- Step 12 of a save: it writes the metadata, or fails to. -/
  | metadata (ok : Bool)
  /-- Step 14: a runner is asked to prove the key, or cannot be. -/
  | dispatch (ok : Bool)
  /-- An answer arrives, and the row is read. -/
  | handleProviderProof (requestId : Option RequestId) (ok : Bool) (key : RequestId)
  /-- The answer is stored. -/
  | upsert
  /-- The request fails or is stopped. -/
  | stop
  deriving DecidableEq

/-- A late answer for an older key. -/
def ignored (requestId seen : Option RequestId) : Bool :=
  match requestId, seen with
  | some requestId, some seen => requestId ≠ seen
  | _, _ => false

/-- The row after an answer was stored. -/
def Row.prove (row : Row) (proof : Proof) : Row :=
  { row with
    proofResult := some (if proof.ok then .ok else .failed)
    proofKey := some proof.key }

/-- One statement of a request. -/
def step (shared : Shared) : Request → Event → Option (Shared × Request)
  | .idle, .handleSaveKey id =>
      -- every save has a new id
      if id ∈ shared.used then none
      else
        some ({ shared with
          secret := some id
          writing := id :: shared.writing
          used := id :: shared.used }, .written id)
  | .written id, .metadata ok =>
      some ({ shared with
        saved := some id
        row := if ok then some { proofRequestId := some id } else shared.row
        writing := shared.writing.erase id }, .recorded id)
  | .recorded id, .dispatch ok =>
      some (if ok then { shared with started := id :: shared.started } else shared, .done)
  | .idle, .handleProviderProof requestId ok key =>
      -- an id is one that a runner was told, and its answer is about the key of that save
      if (requestId.all fun id => id ∈ shared.started ∧ id = key) then
        let seen := shared.row.bind Row.proofRequestId
        some (shared, if ignored requestId seen then .done else
          .proving { requestId, ok, key, seen })
      else none
  | .proving proof, .upsert =>
      some ({ shared with row := some ((shared.row.getD {}).prove proof) }, .done)
  | .written id, .stop => some ({ shared with writing := shared.writing.erase id }, .done)
  | _, .stop => some (shared, .done)
  | _, _ => none

def program : Program Shared Request Event where
  idle := .idle
  step := step

/-- The runs of one provider that has no row; a key may have been stored from outside. -/
def system (Id : Type) [DecidableEq Id] : System (Pool Id Shared Request) (Id × Event) :=
  program.system Id fun shared =>
    shared.row = none ∧ shared.writing = [] ∧ shared.saved = shared.secret

/-! ## Whose proof it is -/

/-- A proof that is stored as successful is that of the key saved last, and this is the key in the
secret, unless a save is on its way from the secret to the metadata. -/
def Belongs (shared : Shared) : Prop :=
  (∀ row, shared.row = some row → row.proofResult = some .ok → row.proofKey = shared.saved) ∧
    (shared.writing = [] → shared.saved = shared.secret)

/-- The side condition of a statement.  A save gets from the secret to its metadata, and finds its
own key stored; a success is stored after its request id was compared with that of the row, which
is the same still, or it is that of the key saved last. -/
def Fine (shared : Shared) : Request → Event → Prop
  | .written id, .metadata ok => ok = true ∧ shared.secret = some id
  | .written _, .stop => False
  | .proving proof, .upsert => proof.ok = true →
      (proof.requestId.isSome = true ∧ proof.seen.isSome = true ∧
        shared.row.bind Row.proofRequestId = proof.seen) ∨ shared.saved = some proof.key
  | _, _ => True

instance (shared : Shared) (request : Request) (event : Event) :
    Decidable (Fine shared request event) := by
  unfold Fine
  split <;> infer_instance

/-- The row waits for the proof of the key saved last, which is the one in the secret between two
saves. -/
structure Sound (shared : Shared) : Prop where
  waits : ∀ row, shared.row = some row → ∀ id, row.proofRequestId = some id →
    shared.saved = some id
  proven : ∀ row, shared.row = some row → row.proofResult = some .ok →
    row.proofKey = shared.saved
  stored : shared.writing = [] → shared.saved = shared.secret

/-- An answer that goes by an id is about the key of that id, and was not ignored. -/
def Knows : Request → Prop
  | .proving proof => ∀ id, proof.requestId = some id → proof.key = id ∧
      ∀ seen, proof.seen = some seen → seen = id
  | .idle | .written _ | .recorded _ | .done => True

variable {shared after : Shared} {request request' : Request} {event : Event}

theorem Sound.belongs (sound : Sound shared) : Belongs shared := ⟨sound.proven, sound.stored⟩

/-- An answer that may be stored is about the key saved last. -/
theorem Sound.prove {proof : Proof} (sound : Sound shared) (knows : Knows (.proving proof))
    (fine : Fine shared (.proving proof) .upsert) :
    Sound { shared with row := some ((shared.row.getD {}).prove proof) } := by
  have waits : ∀ id, (shared.row.getD {}).proofRequestId = some id → shared.saved = some id := by
    intro id waiting
    cases here : shared.row with
    | none =>
        rw [here] at waiting
        contradiction
    | some row =>
        rw [here] at waiting
        exact sound.waits row here id waiting
  refine ⟨fun row there => Option.some.inj there ▸ waits, fun row there ok => ?_, sound.stored⟩
  obtain rfl := Option.some.inj there
  have success : proof.ok = true := by
    rw [Row.prove] at ok
    by_contra failed
    simp [failed] at ok
  change some proof.key = shared.saved
  obtain ⟨given, compared, same⟩ | current := fine success
  · obtain ⟨id, given⟩ := Option.isSome_iff_exists.1 given
    obtain ⟨seen, compared⟩ := Option.isSome_iff_exists.1 compared
    obtain ⟨key, agrees⟩ := knows id given
    have waiting : (shared.row.getD {}).proofRequestId = some id := by
      rw [compared, agrees seen compared] at same
      obtain ⟨row, here, waiting⟩ := Option.bind_eq_some_iff.1 same
      rwa [here, Option.getD_some]
    rw [waits id waiting, key]
  · exact current.symm

/-- Step lemma. -/
theorem Sound.step (sound : Sound shared) (knows : Knows request)
    (fine : Fine shared request event)
    (took : ProviderProof.step shared request event = some (after, request')) :
    Sound after ∧ Knows request' := by
  unfold ProviderProof.step at took
  split at took
  next id =>
    split at took
    next => contradiction
    next =>
      cases took
      exact ⟨⟨sound.waits, sound.proven, fun quiet => absurd quiet (List.cons_ne_nil _ _)⟩,
        trivial⟩
  next id ok =>
    cases took
    obtain ⟨rfl, own⟩ := fine
    refine ⟨⟨fun row there id' waiting => ?_, fun row there ok => ?_, fun _ => own.symm⟩, trivial⟩
    · obtain rfl := Option.some.inj there
      exact waiting
    · obtain rfl := Option.some.inj there
      cases ok
  next id ok =>
    cases took
    refine ⟨?_, trivial⟩
    cases ok with
    | true => exact ⟨sound.waits, sound.proven, sound.stored⟩
    | false => exact sound
  next requestId ok key =>
    split at took
    next told =>
      cases took
      refine ⟨sound, ?_⟩
      split
      next => trivial
      next counted =>
        intro id given
        have given : requestId = some id := given
        subst given
        have answers : id ∈ shared.started ∧ id = key := by simpa using told
        refine ⟨answers.2.symm, fun seen read => ?_⟩
        have read : shared.row.bind Row.proofRequestId = some seen := read
        rw [read] at counted
        have same : id = seen := by simpa [ignored] using counted
        exact same.symm
    next => contradiction
  next proof =>
    cases took
    exact ⟨sound.prove knows fine, trivial⟩
  next => exact fine.elim
  next =>
    cases took
    exact ⟨sound, trivial⟩
  next => contradiction

/-- What a request knows is its own. -/
theorem respects : program.Respects Fine Sound (fun _ => Knows) fun _ _ => True where
  symm _ := trivial
  guarantee sound knows fine took := sound.step knows fine took
  rely _ _ other _ _ _ := ⟨other, trivial⟩

/-- In every run whose statements are all fine, a proof that is stored as successful is that of the
key saved last. -/
theorem proof_belongs (Id : Type) [DecidableEq Id] (pool : Pool Id Shared Request)
    (reached : Reachable (system Id) (Program.onStatement Fine) pool) : Belongs pool.shared := by
  have begins : ∀ shared : Shared,
      shared.row = none ∧ shared.writing = [] ∧ shared.saved = shared.secret →
        Sound shared ∧ Knows program.idle := by
    rintro shared ⟨none', _, same⟩
    refine ⟨⟨fun row there => ?_, fun row there => ?_, fun _ => same⟩, trivial⟩
    · rw [none'] at there
      contradiction
    · rw [none'] at there
      contradiction
  exact (Program.Respects.reachable respects begins trivial reached).shared.belongs

/-- No key and no row. -/
def begun : Pool Nat Shared Request := ⟨{}, fun _ => .idle⟩

/-- A save that starts a proof. -/
def saves (request : Nat) (id : RequestId) : List (Nat × Event) :=
  [(request, .handleSaveKey id), (request, .metadata true), (request, .dispatch true)]

/-- A key is saved and proven, and another; the answer to the first comes again and is ignored, the
one to the second is stored. -/
theorem proof_belongs_second : ∃ pool : Pool Nat Shared Request,
    pool.shared.row = some { proofResult := some .ok, proofRequestId := some 2, proofKey := some 2 } ∧
      Belongs pool.shared := by
  let labels := saves 0 1 ++ [(1, .handleProviderProof (some 1) true 1), (1, .upsert)] ++
    saves 2 2 ++ [(3, .handleProviderProof (some 1) true 1),
      (4, .handleProviderProof (some 2) true 2), (4, .upsert)]
  have ends : ((system Nat).exec (Program.onStatement Fine) begun labels).map
      (fun pool => pool.shared.row) =
        some (some { proofResult := some .ok, proofRequestId := some 2, proofKey := some 2 }) := by
    decide
  obtain ⟨pool, ran, row⟩ := Option.map_eq_some_iff.1 ends
  exact ⟨pool, row,
    proof_belongs Nat pool (.of_exec (.start ⟨⟨rfl, rfl, rfl⟩, fun _ => rfl⟩) ran)⟩

/-- The answer to the first save reads the row before the second save, and is stored after it. -/
theorem not_proof_belongs : ¬ ∀ pool : Pool Nat Shared Request,
    Reachable (system Nat) always pool → Belongs pool.shared := by
  intro claimed
  let labels := saves 0 1 ++ [(1, .handleProviderProof (some 1) true 1)] ++ saves 2 2 ++
    [(1, .upsert)]
  have ends : ((system Nat).exec always begun labels).map Pool.shared = some {
      secret := some 2
      saved := some 2
      row := some { proofResult := some .ok, proofRequestId := some 2, proofKey := some 1 }
      used := [2, 1]
      started := [2, 1] } := by
    decide
  obtain ⟨pool, ran, same⟩ := Option.map_eq_some_iff.1 ends
  have belongs := claimed pool (.of_exec (.start ⟨⟨rfl, rfl, rfl⟩, fun _ => rfl⟩) ran)
  rw [same] at belongs
  cases belongs.1 _ rfl rfl

end ProviderProof

end TitanRunner
