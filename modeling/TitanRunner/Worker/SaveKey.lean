import Mathlib.Data.List.Nodup
import Mathlib.Logic.Function.Basic
import TitanRunner.Lib.Utf16

/-!
# Saving a provider key

`handleSaveKey` of `worker/src/keys.js`, up to what GitHub is left with: a key and what belongs to
it are Actions secrets that are sealed and written one after the other.
-/

namespace TitanRunner

namespace SaveKey

open Utf16

/-! ## The catalog -/

/-- The fields of a provider apart from its key. -/
inductive Field where
  | baseUrl | model | chatPath | specialization | label
  deriving DecidableEq, Repr

/-- A provider of the catalog; every secret has a name of its own. -/
structure Entry where
  id : Utf16
  /-- `secrets.key` -/
  key : Utf16
  /-- The other names in `secrets`. -/
  secrets : List (Field × Utf16)
  /-- The names of `inputs`, in order. -/
  fields : List Field
  distinct : fields.Nodup
  names : (key :: secrets.map Prod.snd).Nodup

/-- `entry.secrets[role]` -/
def Entry.secret (entry : Entry) (field : Field) : Option Utf16 :=
  (entry.secrets.find? fun secret => secret.1 = field).map Prod.snd

section Entry

variable {entry : Entry} {field other : Field} {name : Utf16}

theorem Entry.mem_of_secret (named : entry.secret field = some name) :
    (field, name) ∈ entry.secrets := by
  obtain ⟨⟨field', name'⟩, found, rfl⟩ := Option.map_eq_some_iff.1 named
  have same : field' = field := by simpa using List.find?_some found
  exact same ▸ List.mem_of_find?_eq_some found

theorem Entry.apart (named : entry.secret field = some name)
    (named' : entry.secret other = some name) : field = other :=
  congrArg Prod.fst (List.inj_on_of_nodup_map (List.nodup_cons.1 entry.names).2
    (Entry.mem_of_secret named) (Entry.mem_of_secret named') rfl)

theorem Entry.own : entry.secret field ≠ some entry.key := fun named =>
  (List.nodup_cons.1 entry.names).1 (List.mem_map_of_mem (Entry.mem_of_secret named))

end Entry

/-! ## The request -/

/-- `checkProviderKeyValue` -/
def checkProviderKeyValue (value : Utf16) : Option String :=
  if value.isEmpty then some "value is required"
  else if 1024 < value.length then some "value is too long (the limit is 1024 characters)"
  else if !value.all fun unit => 0x21 ≤ unit && unit ≤ 0x7E then
    some "value must be a single token of printable characters with no spaces"
  else none

/-- The `result` of `verifyProviderKey`. -/
inductive CheckResult where
  | ok | rejected | rateLimited | timeout | unreachable | unverifiable | badUrl | error
  deriving DecidableEq, Repr

/-- The body of a request, and what the checks of others say about it. -/
structure Request where
  /-- `getProvider` -/
  entry : Option Entry
  /-- `body.value.trim()` -/
  value : Utf16
  /-- `checkProviderInputs`; `none` if it refuses them. -/
  inputs : Option (Field → Option Utf16)
  /-- `env.GITHUB_PAT` -/
  pat : Bool
  providerCheck : CheckResult
  saveIfUnverified : Bool

/-- Where the writing of the secrets stands. -/
inductive Step where
  | publicKey | sealing | secretWrite
  deriving DecidableEq, Repr

/-- An answer before anything is written. -/
inductive Refusal where
  | error (status : Nat) (code : String)
  | needsConfirm
  deriving DecidableEq, Repr

inductive Answer where
  | refused (refusal : Refusal)
  | githubFailed (step : Step)
  | saved (secretsWritten : List Utf16)
  deriving DecidableEq, Repr

/-- `toWrite`: the secrets of a save, by name. -/
def toWrite (entry : Entry) (value : Utf16) (inputs : Field → Option Utf16) :
    List (Utf16 × Utf16) :=
  (entry.key, value) :: entry.fields.filterMap fun field =>
    (inputs field).bind fun text => (entry.secret field).map fun name => (name, text)

/-- Steps 2 to 9: a refusal, or the secrets to write. -/
def Request.decide (request : Request) : Except Refusal (List (Utf16 × Utf16)) :=
  match request.entry with
  | none => .error (.error 400 "unknown_provider")
  | some entry =>
      if (checkProviderKeyValue request.value).isSome then .error (.error 400 "bad_value")
      else
        match request.inputs with
        | none => .error (.error 400 "bad_input")
        | some inputs =>
            if !request.pat then .error (.error 503 "pat_missing")
            else if request.providerCheck = .rejected then
              .error (.error 422 "provider_rejected")
            else if request.providerCheck = .badUrl then .error (.error 400 "bad_base_url")
            else if request.providerCheck ≠ .ok ∧ !request.saveIfUnverified then
              .error .needsConfirm
            else .ok (toWrite entry request.value inputs)

/-! ## The secrets -/

/-- The Actions secrets, by name. -/
abbrev Secrets := Utf16 → Option Utf16

/-- What fails: fetching the public key, or sealing or writing the secret of this number. -/
structure Faults where
  publicKey : Bool := false
  sealing : Nat → Bool := fun _ => false
  write : Nat → Bool := fun _ => false

def Faults.at' (faults : Faults) (number : Nat) : Bool := faults.sealing number || faults.write number

/-- The loop of step 10, from the secret of this number on; the step that fails, if one does. -/
def writeAll (faults : Faults) : List (Utf16 × Utf16) → Nat → Secrets → Option Step × Secrets
  | [], _, secrets => (none, secrets)
  | (name, plain) :: rest, number, secrets =>
      if faults.sealing number then (some .sealing, secrets)
      else if faults.write number then (some .secretWrite, secrets)
      else writeAll faults rest (number + 1) (Function.update secrets name (some plain))

/-- `handleSaveKey`.  What follows the last write is caught where it fails, and changes no secret. -/
def handleSaveKey (request : Request) (faults : Faults) (secrets : Secrets) : Answer × Secrets :=
  match request.decide with
  | .error refusal => (.refused refusal, secrets)
  | .ok pairs =>
      if faults.publicKey then (.githubFailed .publicKey, secrets)
      else
        match writeAll faults pairs 0 secrets with
        | (some step, secrets) => (.githubFailed step, secrets)
        | (none, secrets) => (.saved (pairs.map Prod.fst), secrets)

/-! ## All or nothing -/

/-- The base URL that stands beside the key is the one it was saved with: a save that brings none
finds none. -/
def Together (request : Request) (names : List Utf16) (secrets : Secrets) : Prop :=
  ∀ entry name, request.entry = some entry → entry.secret .baseUrl = some name → name ∉ names →
    secrets name = none

/-- A save that reports success has stored what it brings, and beside its key no base URL of
another; one that reports a failure has left every secret as it was. -/
def AllOrNothing (request : Request) (before : Secrets) (ended : Answer × Secrets) : Prop :=
  match ended.1 with
  | .saved names => ∃ pairs, request.decide = .ok pairs ∧ names = pairs.map Prod.fst ∧
      (∀ pair ∈ pairs, ended.2 pair.1 = some pair.2) ∧ Together request names ended.2
  | .refused _ | .githubFailed _ => ended.2 = before

/-- The secrets that come before the first at which something fails; `none` if nothing does. -/
def Faults.divide (faults : Faults) : List (Utf16 × Utf16) → Nat → Option (List (Utf16 × Utf16))
  | [], _ => none
  | pair :: rest, number =>
      if faults.at' number then some []
      else (faults.divide rest (number + 1)).map (pair :: ·)

/-- Where something fails, the secrets before it were there already; where nothing does, the save
brings the base URL, or there is none. -/
def Undivided (request : Request) (faults : Faults) (before : Secrets) : Prop :=
  ∀ pairs, request.decide = .ok pairs → faults.publicKey = false →
    match faults.divide pairs 0 with
    | some written => ∀ pair ∈ written, before pair.1 = some pair.2
    | none => Together request (pairs.map Prod.fst) before

/-! ## The loop -/

/-- The secrets after these were written. -/
def putAll (secrets : Secrets) (pairs : List (Utf16 × Utf16)) : Secrets :=
  pairs.foldl (fun secrets pair => Function.update secrets pair.1 (some pair.2)) secrets

theorem writeAll_spec (faults : Faults) (pairs : List (Utf16 × Utf16)) (number : Nat)
    (secrets : Secrets) :
    match faults.divide pairs number with
    | some written => ∃ step,
        writeAll faults pairs number secrets = (some step, putAll secrets written)
    | none => writeAll faults pairs number secrets = (none, putAll secrets pairs) := by
  induction pairs generalizing number secrets with
  | nil => rfl
  | cons pair rest ih =>
      have later := ih (number + 1) (Function.update secrets pair.1 (some pair.2))
      rw [Faults.divide, Faults.at', writeAll]
      cases faults.sealing number with
      | true => exact ⟨.sealing, rfl⟩
      | false =>
          cases faults.write number with
          | true => exact ⟨.secretWrite, rfl⟩
          | false =>
              simp only [Bool.or_self, Bool.false_eq_true, if_false]
              cases divided : faults.divide rest (number + 1) with
              | none =>
                  rw [divided] at later
                  exact later
              | some written =>
                  rw [divided] at later
                  exact later

theorem putAll_of_not_mem {secrets : Secrets} {pairs : List (Utf16 × Utf16)} {name : Utf16}
    (other : name ∉ pairs.map Prod.fst) : putAll secrets pairs name = secrets name := by
  induction pairs generalizing secrets with
  | nil => rfl
  | cons pair rest ih =>
      simp only [List.map_cons, List.mem_cons, not_or] at other
      have later := @ih (Function.update secrets pair.1 (some pair.2)) other.2
      rw [Function.update_of_ne other.1] at later
      exact later

theorem putAll_of_mem {secrets : Secrets} {pairs : List (Utf16 × Utf16)}
    (distinct : (pairs.map Prod.fst).Nodup) :
    ∀ pair ∈ pairs, putAll secrets pairs pair.1 = some pair.2 := by
  induction pairs generalizing secrets with
  | nil => simp
  | cons pair rest ih =>
      obtain ⟨once, distinct⟩ := List.nodup_cons.1 distinct
      intro other inside
      cases List.mem_cons.1 inside with
      | inr later => exact ih distinct other later
      | inl same =>
          subst same
          have kept := @putAll_of_not_mem
            (Function.update secrets other.1 (some other.2)) rest other.1 once
          rw [Function.update_self] at kept
          exact kept

/-- Writing leaves everything as it was only where that was there. -/
theorem putAll_eq_iff {secrets : Secrets} {pairs : List (Utf16 × Utf16)}
    (distinct : (pairs.map Prod.fst).Nodup) :
    putAll secrets pairs = secrets ↔ ∀ pair ∈ pairs, secrets pair.1 = some pair.2 := by
  constructor
  · intro same pair inside
    have put := @putAll_of_mem secrets pairs distinct pair inside
    rwa [same] at put
  · intro there
    funext name
    by_cases inside : name ∈ pairs.map Prod.fst
    · obtain ⟨pair, listed, rfl⟩ := List.mem_map.1 inside
      rw [putAll_of_mem distinct pair listed, there pair listed]
    · exact putAll_of_not_mem inside

theorem isPrefix_of_divide {faults : Faults} {pairs written : List (Utf16 × Utf16)} {number : Nat}
    (divided : faults.divide pairs number = some written) : written <+: pairs := by
  induction pairs generalizing number written with
  | nil => contradiction
  | cons pair rest ih =>
      rw [Faults.divide] at divided
      split at divided
      next =>
        cases divided
        exact List.nil_prefix
      next =>
        obtain ⟨more, later, rfl⟩ := Option.map_eq_some_iff.1 divided
        exact (List.prefix_cons_inj pair).2 (ih later)

theorem names_toWrite (entry : Entry) (value : Utf16) (inputs : Field → Option Utf16) :
    ((toWrite entry value inputs).map Prod.fst).Nodup := by
  have extra : ∀ fields : List Field, fields.Nodup →
      ((fields.filterMap fun field =>
        (inputs field).bind fun text =>
          (entry.secret field).map fun name => (name, text)).map Prod.fst).Nodup := by
    intro fields distinct
    rw [List.map_filterMap]
    refine distinct.filterMap fun field other name named named' => ?_
    simp only [Option.mem_def, Option.map_eq_some_iff, Option.bind_eq_some_iff] at named named'
    obtain ⟨_, ⟨_, _, _, own, rfl⟩, rfl⟩ := named
    obtain ⟨_, ⟨_, _, _, own', rfl⟩, rfl⟩ := named'
    exact Entry.apart own own'
  rw [toWrite, List.map_cons, List.nodup_cons]
  refine ⟨fun again => ?_, extra _ entry.distinct⟩
  obtain ⟨pair, inside, same⟩ := List.mem_map.1 again
  obtain ⟨field, _, made⟩ := List.mem_filterMap.1 inside
  simp only [Option.bind_eq_some_iff, Option.map_eq_some_iff] at made
  obtain ⟨_, _, name, own, rfl⟩ := made
  change name = entry.key at same
  exact Entry.own (same ▸ own)

theorem names_of_decide {request : Request} {pairs : List (Utf16 × Utf16)}
    (decided : request.decide = .ok pairs) : (pairs.map Prod.fst).Nodup := by
  rw [Request.decide] at decided
  split at decided
  next => contradiction
  next entry _ =>
    split at decided
    next => contradiction
    next =>
      split at decided
      next => contradiction
      next inputs _ =>
        split at decided
        next => contradiction
        next =>
          split at decided
          next => contradiction
          next =>
            split at decided
            next => contradiction
            next =>
              split at decided
              next => contradiction
              next =>
                cases decided
                exact names_toWrite entry request.value inputs

/-- The base URL of a provider is among what is written, or as it was. -/
theorem together_putAll {request : Request} {before : Secrets} {pairs : List (Utf16 × Utf16)} :
    Together request (pairs.map Prod.fst) (putAll before pairs) ↔
      Together request (pairs.map Prod.fst) before := by
  refine forall₂_congr fun entry name => forall₃_congr fun _ _ absent => ?_
  rw [putAll_of_not_mem absent]

/-- Saving a key is all or nothing exactly where the save is not divided: a failure after the first
secret leaves new secrets beside old ones, and a save without a base URL leaves the old one. -/
theorem all_or_nothing_iff (request : Request) (faults : Faults) (before : Secrets) :
    AllOrNothing request before (handleSaveKey request faults before) ↔
      Undivided request faults before := by
  rw [handleSaveKey, Undivided]
  cases decided : request.decide with
  | error refusal => exact iff_of_true rfl fun _ other => nomatch other
  | ok pairs =>
      have distinct := names_of_decide decided
      have wrote := writeAll_spec faults pairs 0 before
      cases faults.publicKey with
      | true => exact iff_of_true rfl fun _ _ other => nomatch other
      | false =>
          simp only [Bool.false_eq_true, if_false, Except.ok.injEq, forall_const, forall_eq']
          cases divided : faults.divide pairs 0 with
          | some written =>
              rw [divided] at wrote
              obtain ⟨step, wrote⟩ := wrote
              have distinct' : (written.map Prod.fst).Nodup :=
                List.Nodup.sublist ((isPrefix_of_divide divided).sublist.map _) distinct
              rw [wrote]
              exact putAll_eq_iff distinct'
          | none =>
              rw [divided] at wrote
              dsimp only at wrote
              rw [wrote, ← @together_putAll request before pairs]
              constructor
              · rintro ⟨_, _, _, _, together⟩
                exact together
              · intro together
                exact ⟨pairs, decided, rfl, putAll_of_mem distinct, together⟩

section Example

/-- The entry `custom_1`. -/
def custom : Entry where
  id := ofString "custom_1"
  key := ofString "CUSTOM_1_API_KEY"
  secrets := [(.baseUrl, ofString "CUSTOM_1_BASE_URL"), (.model, ofString "CUSTOM_1_MODEL"),
    (.label, ofString "CUSTOM_1_LABEL")]
  fields := [.label, .baseUrl, .model]
  distinct := by decide
  names := by decide

/-- The entry `opencode`, which has a base URL without being told one. -/
def opencode : Entry where
  id := ofString "opencode"
  key := ofString "OPENCODE_API_KEY"
  secrets := [(.baseUrl, ofString "OPENCODE_BASE_URL"), (.model, ofString "OPENCODE_MODEL")]
  fields := [.baseUrl, .model]
  distinct := by decide
  names := by decide

/-- A save of a key with these fields. -/
def saveOf (entry : Entry) (inputs : Field → Option Utf16) : Request where
  entry := some entry
  value := ofString "ck-1234567890"
  inputs := some inputs
  pat := true
  providerCheck := .ok
  saveIfUnverified := false

/-- The fields of a custom provider. -/
def customFields : Field → Option Utf16
  | .baseUrl => some (ofString "https://llm.example.com/v1")
  | .model => some (ofString "m1")
  | .label => some (ofString "My LLM")
  | .chatPath | .specialization => none

/-- The base URL of an earlier save. -/
def earlier : Secrets := fun name =>
  if name = ofString "OPENCODE_BASE_URL" then some (ofString "https://old.example.com") else none

theorem not_all_or_nothing :
    (¬ ∀ request faults before, AllOrNothing request before (handleSaveKey request faults before)) ∧
      ¬ ∀ request before, AllOrNothing request before (handleSaveKey request {} before) := by
  constructor
  · intro kept
    -- the second write fails
    have same : (handleSaveKey (saveOf custom customFields) { write := fun number => number == 1 }
        fun _ => none).2 = fun _ => none :=
      kept (saveOf custom customFields) { write := fun number => number == 1 } fun _ => none
    have key := congrFun same (ofString "CUSTOM_1_API_KEY")
    revert key
    decide
  · intro kept
    obtain ⟨_, _, _, _, together⟩ : AllOrNothing (saveOf opencode fun _ => none) earlier
        (.saved [ofString "OPENCODE_API_KEY"], Function.update earlier
          (ofString "OPENCODE_API_KEY") (some (ofString "ck-1234567890"))) :=
      kept (saveOf opencode fun _ => none) earlier
    have base := together opencode (ofString "OPENCODE_BASE_URL") rfl rfl (by decide)
    revert base
    decide

end Example

end SaveKey

end TitanRunner
