import TitanRunner.Lib.Interleaving
import TitanRunner.Lib.Utf16

/-!
# The callback token

The rows of `worker_tokens`, the Actions secret `TITAN_CALLBACK_TOKEN` at GitHub, and the requests
of `callback.js` that write both, in any interleaving.  A write of the secret may land and be
reported as failed, or land after its request gave up.
-/

namespace TitanRunner

namespace Callback

open TransitionSystem System Interleaving

/-- `GRACE_MS` -/
def graceMs : Nat := 30 * 60000

/-- `ROTATE_EVERY_MS` -/
def rotateEveryMs : Nat := 30 * 24 * 3600000

/-- `RETRY_AFTER_FAILURE_MS` -/
def retryAfterFailureMs : Nat := 3600000

/-- `LEGACY_WINDOW_MS` -/
def legacyWindowMs : Nat := 30 * 60000

/-- The value of a token.  Its row keeps a hash, which is that of no other value. -/
abbrev Token := Nat

inductive Status where
  | pending | active | retired
  deriving DecidableEq, Repr

/-- A row of `worker_tokens` of the kind `callback`. -/
structure Row where
  token : Token
  status : Status
  createdAt : Nat
  activatedAt : Option Nat := none
  expiresAt : Option Nat := none
  revokedAt : Option Nat := none
  deriving DecidableEq

inductive Reason where
  | missing | scheduled | forced
  deriving DecidableEq, Repr

/-- The rows, the latest first, the settings of the callback, and the secret at GitHub. -/
structure Store where
  rows : List Row := []
  retryAfter : Option Nat := none
  lastError : Utf16 := []
  lastIssueReason : Option Reason := none
  secret : Option Token := none

/-! ## Authentication -/

def Store.findCallbackRow (store : Store) (plain : Token) (now : Nat) : Option Row :=
  store.rows.find? fun row =>
    row.token = plain && row.revokedAt.isNone && row.expiresAt.all (now < ·)

/-- `isLegacyMode`, with `TITAN_STRICT_CALLBACK_AUTH` -/
def Store.isLegacyMode (store : Store) (strict : Bool) (now : Nat) : Bool :=
  if strict then false
  else
    match (store.rows.filterMap Row.activatedAt).min? with
    | none => true
    | some first => now < first + legacyWindowMs

/-- `checkAdminToken` -/
inductive Admin where
  | ok | missing | wrong
  deriving DecidableEq, Repr

inductive Kind where
  | callback | adminLegacy
  deriving DecidableEq, Repr

inductive Auth where
  | ok (kind : Kind)
  | missing | wrong | callbackRequired
  deriving DecidableEq, Repr

/-- The callback header counts when it is there; else the admin token does. -/
def Store.authenticateInternal (store : Store) (strict : Bool) (header : Option Token)
    (admin : Admin) (now : Nat) : Auth :=
  match header with
  | some plain => if (store.findCallbackRow plain now).isSome then .ok .callback else .wrong
  | none =>
      match admin with
      | .ok => if store.isLegacyMode strict now then .ok .adminLegacy else .callbackRequired
      | .wrong => .wrong
      | .missing => .missing

/-! ## Statements -/

/-- An `UPDATE` of the rows that meet a condition. -/
def Store.update (store : Store) (met : Row → Bool) (change : Row → Row) : Store :=
  { store with rows := store.rows.map fun row => if met row then change row else row }

def Store.insert (store : Store) (plain : Token) (now : Nat) : Store :=
  { store with rows := { token := plain, status := .pending, createdAt := now } :: store.rows }

def Store.revoke (store : Store) (plain : Token) (now : Nat) : Store :=
  store.update (·.token = plain) fun row =>
    { row with status := .retired, revokedAt := some now }

def Store.retire (store : Store) (plain : Token) (now : Nat) : Store :=
  store.update (fun row => row.status = .active && row.token ≠ plain) fun row =>
    { row with status := .retired, expiresAt := some (now + graceMs) }

def Store.activate (store : Store) (plain : Token) (now : Nat) : Store :=
  store.update (·.token = plain) fun row =>
    { row with status := .active, activatedAt := some now }

/-- The latest active row. -/
def Store.active (store : Store) : Option Row :=
  store.rows.find? fun row => row.status = .active && row.revokedAt.isNone

/-- A call of `setSetting`. -/
inductive Setting where
  | retryAfter (at' : Option Nat)
  | lastError (message : Utf16)
  | lastIssueReason (reason : Reason)
  deriving DecidableEq

def Store.set (store : Store) : Setting → Store
  | .retryAfter at' => { store with retryAfter := at' }
  | .lastError message => { store with lastError := message }
  | .lastIssueReason reason => { store with lastIssueReason := some reason }

/-! ## Requests -/

/-- Where a request is.  `sent` is the token of a write that was given up and may still land. -/
inductive Request where
  | idle
  | ticking (now : Nat)
  /-- `issueCallbackToken` begins. -/
  | issuing (now : Nat) (reason : Reason)
  | pending (now : Nat) (reason : Reason) (plain : Token)
  /-- In the `catch`. -/
  | failed (now : Nat) (plain : Token) (message : Utf16) (sent : Bool)
  | written (now : Nat) (reason : Reason) (plain : Token)
  | retired (now : Nat) (reason : Reason) (plain : Token)
  | settling (settings : List Setting) (sent : Option Token)
  | stopped (sent : Option Token)
  deriving DecidableEq

/-- What became of a write of the secret that threw. -/
inductive Write where
  | unsent | inFlight | landed
  deriving DecidableEq, Repr

inductive Event where
  | tickCallbackToken (now : Nat)
  | handleRotateCallback (now : Nat)
  /-- The random value and its `INSERT`. -/
  | insert (plain : Token)
  /-- GitHub stored the secret and said so. -/
  | written
  /-- The public key or the write fails. -/
  | throws (message : Utf16) (write : Write)
  /-- A write that was given up lands. -/
  | lands
  | statement
  /-- The Worker is stopped, with a write under way or not. -/
  | stop (sent : Bool)
  deriving DecidableEq

/-- The token of a write that was given up and may still land. -/
def Request.sent : Request → Option Token
  | .failed _ plain _ sent => if sent then some plain else none
  | .settling _ sent => sent
  | .stopped sent => sent
  | _ => none

/-- The request after its late write landed. -/
def Request.landed : Request → Request
  | .failed now plain message _ => .failed now plain message false
  | .settling settings _ => .settling settings none
  | _ => .stopped none

/-- One statement of a request. -/
def step (store : Store) : Request → Event → Option (Store × Request)
  | .idle, .tickCallbackToken now =>
      some (store, if store.retryAfter.any (now < ·) then .stopped none else .ticking now)
  | .ticking now, .statement =>
      some (store,
        match store.active with
        | none => .issuing now .missing
        | some row =>
            if now - row.createdAt > rotateEveryMs then .issuing now .scheduled
            else .stopped none)
  | .idle, .handleRotateCallback now => some (store, .issuing now .forced)
  | .issuing now reason, .insert plain =>
      -- the hash is `UNIQUE`
      if store.rows.any (·.token = plain) then some (store, .stopped none)
      else some (store.insert plain now, .pending now reason plain)
  | .pending now reason plain, .written =>
      some ({ store with secret := some plain }, .written now reason plain)
  | .pending now _ plain, .throws message write =>
      some (if write = .landed then { store with secret := some plain } else store,
        .failed now plain message (write = .inFlight))
  | .pending _ _ plain, .stop sent => some (store, .stopped (if sent then some plain else none))
  | .failed now plain message sent, .statement =>
      some (store.revoke plain now,
        .settling [.retryAfter (some (now + retryAfterFailureMs)), .lastError (message.take 300)]
          (if sent then some plain else none))
  | .written now reason plain, .statement =>
      some (store.retire plain now, .retired now reason plain)
  | .retired now reason plain, .statement =>
      some (store.activate plain now,
        .settling [.lastError [], .retryAfter none, .lastIssueReason reason] none)
  | .settling (setting :: settings) sent, .statement =>
      some (store.set setting, .settling settings sent)
  | request, .lands =>
      request.sent.map fun plain => ({ store with secret := some plain }, request.landed)
  | request, .stop _ => some (store, .stopped request.sent)
  | _, _ => none

def program : Program Store Request Event where
  idle := .idle
  step := step

/-- The runs from an empty table, with no token at GitHub. -/
def system (Id : Type) [DecidableEq Id] : System (Pool Id Store Request) (Id × Event) :=
  program.system Id fun store => store = {}

/-! ## Agreement -/

/-- The token that is stored at GitHub is accepted, whenever and whatever else a call holds. -/
def Store.Agrees (store : Store) : Prop :=
  ∀ plain, store.secret = some plain → ∀ strict admin now,
    store.authenticateInternal strict (some plain) admin now = .ok .callback

/-- The side condition of a statement.  A write that throws has not landed, and a late one has a
row that is not revoked; and what is stored at GitHub when the other rows are retired is not the
token of such a row. -/
def Settled (store : Store) : Request → Event → Prop
  | .pending _ _ _, .throws _ write => write ≠ .landed
  | .failed _ _ _ _, .lands => False
  | .settling _ (some plain), .lands | .stopped (some plain), .lands =>
      ∀ row ∈ store.rows, row.token = plain → row.revokedAt = none
  | .written _ _ plain, .statement =>
      ∀ row ∈ store.rows, row.status = .active → store.secret = some row.token → row.token = plain
  | _, _ => True

instance (store : Store) (request : Request) (event : Event) :
    Decidable (Settled store request event) := by
  unfold Settled
  split <;> infer_instance

variable {store after : Store} {request request' other : Request} {event : Event}
  {plain plain' : Token} {met : Row → Bool} {change : Row → Row} {now : Nat}

/-- A row that does not expire and is not revoked. -/
def Row.isLive (row : Row) : Bool := row.expiresAt.isNone && row.revokedAt.isNone

/-- A row of a token that does not expire, nor will when others are retired. -/
def Row.isWaiting (row : Row) : Bool := row.status ≠ .active && row.expiresAt.isNone

/-- The token has a row that meets a condition. -/
def Store.Has (store : Store) (plain : Token) (met : Row → Bool) : Prop :=
  ∃ row ∈ store.rows, row.token = plain ∧ met row = true

/-- The token at GitHub has a live row. -/
def Store.Stored (store : Store) : Prop :=
  ∀ plain, store.secret = some plain → store.Has plain Row.isLive

theorem agrees_of_stored (stored : store.Stored) : store.Agrees := by
  intro plain secret strict admin now
  obtain ⟨row, inside, same, live⟩ := stored plain secret
  have found : (store.findCallbackRow plain now).isSome = true := by
    rw [Store.findCallbackRow, List.find?_isSome]
    refine ⟨row, inside, ?_⟩
    rw [Row.isLive, Bool.and_eq_true] at live
    simp [same, live.2, Option.isNone_iff_eq_none.1 live.1]
  simp only [Store.authenticateInternal, found, if_true]

/-- The token of a request. -/
def Request.token : Request → Option Token
  | .pending _ _ plain | .failed _ plain _ _ | .written _ _ plain | .retired _ _ plain => some plain
  | .settling _ sent => sent
  | .stopped sent => sent
  | _ => none

/-- What a request knows of its token: it has a row, and while the secret may be written the row
is not active and GitHub does not hold the token. -/
structure Knows' (store : Store) (request : Request) : Prop where
  has : ∀ plain, request.token = some plain → store.Has plain fun _ => true
  pending : ∀ now reason plain, request = .pending now reason plain →
    store.secret ≠ some plain ∧ store.Has plain fun row => row.isWaiting && row.isLive
  failed : ∀ now plain message sent, request = .failed now plain message sent →
    store.secret ≠ some plain
  sent : ∀ plain, request.sent = some plain → store.Has plain Row.isWaiting

/-- No two requests have the same token. -/
def Apart (request other : Request) : Prop :=
  ∀ plain, request.token = some plain → other.token ≠ some plain

/-- What a statement leaves of the token of another request. -/
structure Untouched (store after : Store) (plain : Token) : Prop where
  has : store.Has plain (fun _ => true) → after.Has plain fun _ => true
  waiting : ∀ row ∈ store.rows, row.token = plain → row.status ≠ .active → row ∈ after.rows
  secret : after.secret = some plain → store.secret = some plain

theorem Untouched.of_rows (same : after.rows = store.rows)
    (secret : after.secret = some plain → store.secret = some plain) :
    Untouched store after plain := by
  refine ⟨?_, ?_, secret⟩
  · intro has
    rw [Store.Has, same]
    exact has
  · intro row inside _ _
    exact same ▸ inside

theorem Untouched.insert (now : Nat) : Untouched store (store.insert plain' now) plain := by
  refine ⟨?_, ?_, id⟩
  · intro ⟨row, inside, same, met⟩
    exact ⟨row, List.mem_cons_of_mem _ inside, same, met⟩
  · intro row inside _ _
    exact List.mem_cons_of_mem _ inside

/-- An `UPDATE` that keeps the tokens and meets no row of the token that is not active. -/
theorem Untouched.update (keeps : ∀ row, (change row).token = row.token)
    (unmet : ∀ row, row.token = plain → row.status ≠ .active → met row = false) :
    Untouched store (store.update met change) plain := by
  refine ⟨?_, ?_, id⟩
  · intro ⟨row, inside, same, _⟩
    refine ⟨_, List.mem_map_of_mem inside, ?_, rfl⟩
    split
    next => exact (keeps row).trans same
    next => exact same
  · intro row inside same waits
    have kept : (if met row then change row else row) = row := by
      rw [unmet row same waits, if_neg Bool.false_ne_true]
    exact List.mem_map.2 ⟨row, inside, kept⟩

theorem token_of_sent (sent : request.sent = some plain) : request.token = some plain := by
  cases request with
  | failed now plain' message sent' =>
      simp only [Request.sent] at sent
      split at sent
      next => exact sent
      next => contradiction
  | settling => exact sent
  | stopped => exact sent
  | _ => contradiction

theorem waits_of_isWaiting {row : Row} (waits : row.isWaiting = true) : row.status ≠ .active := by
  rw [Row.isWaiting, Bool.and_eq_true, decide_eq_true_eq] at waits
  exact waits.1

theorem Knows'.of_untouched (knows : Knows' store other)
    (untouched : ∀ plain, other.token = some plain → Untouched store after plain) :
    Knows' after other := by
  constructor
  · intro plain token
    exact (untouched plain token).has (knows.has plain token)
  · intro now reason plain same
    have free := untouched plain (same ▸ rfl)
    obtain ⟨away, row, inside, is, fine⟩ := knows.pending now reason plain same
    have waits := waits_of_isWaiting (Bool.and_eq_true_iff.1 fine).1
    exact ⟨fun stored => away (free.secret stored), row, free.waiting row inside is waits, is, fine⟩
  · intro now plain message sent same stored
    have free := untouched plain (same ▸ rfl)
    exact knows.failed now plain message sent same (free.secret stored)
  · intro plain sent
    have free := untouched plain (token_of_sent sent)
    obtain ⟨row, inside, is, waits⟩ := knows.sent plain sent
    exact ⟨row, free.waiting row inside is (waits_of_isWaiting waits), is, waits⟩

/-- A request that has no token. -/
theorem knows_of_none (free : request.token = none) : Knows' store request := by
  constructor
  · intro plain token
    rw [free] at token
    contradiction
  · intro now reason plain same
    subst same
    contradiction
  · intro now plain message sent same
    subst same
    contradiction
  · intro plain sent
    rw [token_of_sent sent] at free
    contradiction

theorem apart_of_none (free : request.token = none) : Apart request other := by
  intro plain token
  rw [free] at token
  contradiction

/-- A statement keeps what is stored accepted, and what its own request and the others know. -/
structure Keeps (store : Store) (request : Request) (after : Store) (request' : Request) :
    Prop where
  stored : after.Stored
  own : Knows' after request'
  others : ∀ other, Knows' store other → Apart request other →
    Knows' after other ∧ Apart request' other

/-- A statement that leaves the other tokens alone, of a request that keeps its token or drops
it. -/
theorem Keeps.of_untouched (stored : after.Stored) (own : Knows' after request')
    (untouched : ∀ plain, request.token ≠ some plain → Untouched store after plain)
    (token : ∀ plain, request'.token = some plain → request.token = some plain) :
    Keeps store request after request' := by
  refine ⟨stored, own, ?_⟩
  intro other knows apart
  refine ⟨knows.of_untouched ?_, ?_⟩
  · intro plain theirs
    exact untouched plain fun mine => apart plain mine theirs
  · intro plain mine
    exact apart plain (token plain mine)

/-- A statement that changes no row and not the secret. -/
theorem Keeps.of_same (stored : store.Stored) (rows : after.rows = store.rows)
    (secret : after.secret = store.secret) (own : Knows' store request')
    (token : ∀ plain, request'.token = some plain → request.token = some plain) :
    Keeps store request after request' := by
  have untouched : ∀ plain, Untouched store after plain := fun plain =>
    .of_rows rows fun there => secret ▸ there
  refine .of_untouched ?_ (own.of_untouched fun plain _ => untouched plain)
    (fun plain _ => untouched plain) token
  intro plain there
  obtain ⟨row, inside, live⟩ := stored plain (secret ▸ there)
  exact ⟨row, rows ▸ inside, live⟩

theorem Store.Has.update {met' : Row → Bool} (has : store.Has plain met')
    (kept : ∀ row, row.token = plain → met' row = true →
      let row' := if met row then change row else row
      row'.token = plain ∧ met' row' = true) : (store.update met change).Has plain met' := by
  obtain ⟨row, inside, same, fine⟩ := has
  exact ⟨_, List.mem_map_of_mem inside, kept row same fine⟩

/-- The rows of the other tokens are kept when those of one token are changed. -/
theorem untouched_of_token (keeps : ∀ row, (change row).token = row.token)
    (different : plain' ≠ plain) :
    Untouched store (store.update (·.token = plain') change) plain := by
  apply Untouched.update keeps
  intro row same _
  exact decide_eq_false fun theirs => different (theirs.symm.trans same)

variable {reason : Reason} {message : Utf16} {sent : Bool} {settings : List Setting}

theorem Keeps.insert (stored : store.Stored)
    (absent : ¬ store.rows.any (·.token = plain) = true) :
    Keeps store (.issuing now reason) (store.insert plain now) (.pending now reason plain) := by
  have fresh : ∀ met, ¬ store.Has plain met := by
    intro met ⟨row, inside, same, _⟩
    exact absent (List.any_eq_true.2 ⟨row, inside, decide_eq_true same⟩)
  refine ⟨?_, ?_, ?_⟩
  · intro plain' there
    obtain ⟨row, inside, live⟩ := stored plain' there
    exact ⟨row, List.mem_cons_of_mem _ inside, live⟩
  · constructor
    · intro plain' token
      cases token
      exact ⟨_, List.mem_cons_self, rfl, rfl⟩
    · intro now' reason' plain' same
      cases same
      exact ⟨fun there => fresh _ (stored plain there), _, List.mem_cons_self, rfl, rfl⟩
    · intro now' plain' message sent same
      contradiction
    · intro plain' sent
      contradiction
  · intro other knows _
    refine ⟨knows.of_untouched fun _ _ => .insert now, ?_⟩
    intro plain' mine theirs
    cases mine
    exact fresh _ (knows.has plain theirs)

theorem Keeps.written (stored : store.Stored)
    (knows : Knows' store (.pending now reason plain)) :
    Keeps store (.pending now reason plain) { store with secret := some plain }
      (.written now reason plain) := by
  refine .of_untouched ?_ ?_ ?_ fun _ => id
  · intro plain' there
    cases there
    obtain ⟨row, inside, same, fine⟩ := (knows.pending now reason plain rfl).2
    exact ⟨row, inside, same, (Bool.and_eq_true_iff.1 fine).2⟩
  · constructor
    · exact knows.has
    · intros
      contradiction
    · intros
      contradiction
    · intros
      contradiction
  · intro plain' different
    exact .of_rows rfl fun there => absurd there different

theorem Keeps.throws (stored : store.Stored)
    (knows : Knows' store (.pending now reason plain)) :
    Keeps store (.pending now reason plain) store (.failed now plain message sent) := by
  have mine := knows.pending now reason plain rfl
  refine .of_same stored rfl rfl ?_ fun _ => id
  constructor
  · exact knows.has
  · intros
    contradiction
  · intro now' plain' message' sent' same
    cases same
    exact mine.1
  · intro plain' given
    cases token_of_sent given
    obtain ⟨row, inside, same, fine⟩ := mine.2
    exact ⟨row, inside, same, (Bool.and_eq_true_iff.1 fine).1⟩

theorem Keeps.revoke (stored : store.Stored)
    (knows : Knows' store (.failed now plain message sent)) :
    Keeps store (.failed now plain message sent) (store.revoke plain now)
      (.settling settings (if sent then some plain else none)) := by
  have token : ∀ plain', (if sent then some plain else none) = some plain' → plain = plain' := by
    intro plain' given
    split at given
    next => exact Option.some.inj given
    next => contradiction
  refine .of_untouched ?_ ?_ ?_ fun plain' given => congrArg some (token plain' given)
  · intro plain' there
    have different : plain ≠ plain' := by
      intro same
      exact knows.failed now plain message sent rfl (same ▸ there)
    apply (stored plain' there).update
    intro row same live
    rw [if_neg (by simpa [same] using different.symm)]
    exact ⟨same, live⟩
  · constructor
    · intro plain' given
      cases token plain' given
      exact (knows.has plain rfl).update fun row same _ => by
        rw [if_pos (decide_eq_true same)]
        exact ⟨same, rfl⟩
    · intros
      contradiction
    · intros
      contradiction
    · intro plain' given
      cases token plain' given
      refine (knows.sent plain given).update fun row same waits => ?_
      rw [if_pos (decide_eq_true same)]
      rw [Row.isWaiting, Bool.and_eq_true] at waits
      exact ⟨same, by simp [Row.isWaiting, waits.2]⟩
  · intro plain' different
    exact untouched_of_token (fun _ => rfl) fun same => different (congrArg some same)

theorem Keeps.retire (stored : store.Stored) (knows : Knows' store (.written now reason plain))
    (settled : Settled store (.written now reason plain) .statement) :
    Keeps store (.written now reason plain) (store.retire plain now)
      (.retired now reason plain) := by
  refine .of_untouched ?_ ?_ ?_ fun _ => id
  · intro plain' there
    obtain ⟨row, inside, same, live⟩ := stored plain' there
    have unmet : ¬ (row.status = .active && row.token ≠ plain) = true := by
      intro met
      simp only [Bool.and_eq_true, decide_eq_true_eq] at met
      exact met.2 (settled row inside met.1 (there.trans (congrArg some same.symm)))
    exact ⟨row, List.mem_map.2 ⟨row, inside, if_neg unmet⟩, same, live⟩
  · constructor
    · intro plain' given
      cases given
      refine (knows.has plain rfl).update fun row same _ => ?_
      split <;> exact ⟨same, rfl⟩
    · intros
      contradiction
    · intros
      contradiction
    · intros
      contradiction
  · intro plain' _
    rw [Store.retire]
    refine .update (fun _ => rfl) ?_
    intro row _ waits
    simp [waits]

theorem Keeps.activate (stored : store.Stored) :
    Keeps store (.retired now reason plain) (store.activate plain now)
      (.settling settings none) := by
  refine .of_untouched ?_ (knows_of_none rfl) ?_ nofun
  · intro plain' there
    refine (stored plain' there).update fun row same live => ?_
    split <;> exact ⟨same, live⟩
  · intro plain' different
    exact untouched_of_token (fun _ => rfl) fun same => different (congrArg some same)

/-- A write that was given up lands, and its row is not revoked. -/
theorem Keeps.lands (knows : Knows' store request)
    (sent : request.sent = some plain) (settled : Settled store request .lands) :
    Keeps store request { store with secret := some plain } request.landed := by
  have live : ∀ row ∈ store.rows, row.token = plain → row.revokedAt = none := by
    cases request with
    | settling settings sent' =>
        cases sent
        exact settled
    | stopped sent' =>
        cases sent
        exact settled
    | failed => exact settled.elim
    | _ => contradiction
  have free : request.landed.token = none := by
    cases request with
    | failed => exact settled.elim
    | _ => rfl
  refine .of_untouched ?_ (knows_of_none free) ?_ ?_
  · intro plain' there
    cases there
    obtain ⟨row, inside, same, waits⟩ := knows.sent plain sent
    refine ⟨row, inside, same, ?_⟩
    rw [Row.isWaiting, Bool.and_eq_true] at waits
    rw [Row.isLive, waits.2, live row inside same]
    rfl
  · intro plain' different
    refine .of_rows rfl fun there => ?_
    cases there
    exact absurd (token_of_sent sent) different
  · intro plain' token
    rw [free] at token
    contradiction

/-- The Worker stops between two statements. -/
theorem Keeps.stop (stored : store.Stored) (knows : Knows' store request) :
    Keeps store request store (.stopped request.sent) := by
  refine .of_same stored rfl rfl ?_ fun _ => token_of_sent
  constructor
  · intro plain given
    exact knows.has plain (token_of_sent given)
  · intros
    contradiction
  · intros
    contradiction
  · exact knows.sent

/-- Step lemma. -/
theorem Keeps.of_step (stored : store.Stored) (knows : Knows' store request)
    (settled : Settled store request event)
    (took : step store request event = some (after, request')) :
    Keeps store request after request' := by
  unfold step at took
  split at took
  next now =>
    cases took
    refine .of_same stored rfl rfl (knows_of_none ?_) ?_
    · split <;> rfl
    · split <;> nofun
  next now =>
    cases took
    have free : (match store.active with
        | none => Request.issuing now .missing
        | some row =>
            if now - row.createdAt > rotateEveryMs then .issuing now .scheduled
            else .stopped none).token = none := by
      split
      next => rfl
      next => split <;> rfl
    refine .of_same stored rfl rfl (knows_of_none free) ?_
    intro plain token
    rw [free] at token
    contradiction
  next => 
    cases took
    exact .of_same stored rfl rfl (knows_of_none rfl) nofun
  next =>
    split at took
    next =>
      cases took
      exact .of_same stored rfl rfl (knows_of_none rfl) nofun
    next absent =>
      cases took
      exact .insert stored absent
  next =>
    cases took
    exact .written stored knows
  next =>
    cases took
    rw [if_neg settled]
    exact .throws stored knows
  next now reason plain sent =>
    cases took
    have mine := knows.pending now reason plain rfl
    have token : ∀ plain', (if sent = true then some plain else none) = some plain' →
        plain = plain' := by
      intro plain' given
      split at given
      next => exact Option.some.inj given
      next => contradiction
    refine .of_same stored rfl rfl ?_ fun plain' given => congrArg some (token plain' given)
    constructor
    · intro plain' given
      cases token plain' given
      exact knows.has plain rfl
    · intros
      contradiction
    · intros
      contradiction
    · intro plain' given
      cases token plain' given
      obtain ⟨row, inside, same, fine⟩ := mine.2
      exact ⟨row, inside, same, (Bool.and_eq_true_iff.1 fine).1⟩
  next =>
    cases took
    exact .revoke stored knows
  next =>
    cases took
    exact .retire stored knows settled
  next =>
    cases took
    exact .activate stored
  next setting settings sent =>
    cases took
    refine .of_same stored ?_ ?_ ?_ fun _ => id
    · cases setting <;> rfl
    · cases setting <;> rfl
    · exact ⟨knows.has, nofun, nofun, knows.sent⟩
  next =>
    obtain ⟨plain, sent, same⟩ := Option.map_eq_some_iff.1 took
    cases same
    exact .lands knows sent settled
  next =>
    cases took
    exact .stop stored knows
  next => contradiction

theorem respects : program.Respects Settled Store.Stored Knows' Apart where
  symm apart plain mine theirs := apart plain theirs mine
  guarantee stored knows settled took := by
    have keeps := Keeps.of_step stored knows settled took
    exact ⟨keeps.stored, keeps.own⟩
  rely stored knows other apart settled took :=
    (Keeps.of_step stored knows settled took).others _ other apart

/-- In every run in which no write lands that is reported as failed, and no request retires the
row of the token that another one stored meanwhile, GitHub's token is accepted. -/
theorem stays_in_agreement (Id : Type) [DecidableEq Id] (pool : Pool Id Store Request)
    (reached : Reachable (system Id) (Program.onStatement Settled) pool) : pool.shared.Agrees := by
  have known := Program.Respects.reachable respects
    (fun store started => ⟨fun plain there => by rw [started] at there; contradiction,
      knows_of_none rfl⟩)
    (apart_of_none rfl) reached
  exact agrees_of_stored known.shared

def begun : Pool Nat Store Request := ⟨{}, fun _ => .idle⟩

theorem begun_start : (system Nat).start begun := ⟨rfl, fun _ => rfl⟩

/-- A forced rotation with all its statements. -/
def rotates (id : Nat) (now : Nat) (plain : Token) : List (Nat × Event) :=
  [(id, .handleRotateCallback now), (id, .insert plain), (id, .written), (id, .statement),
    (id, .statement)]

/-- The tick makes the first token, a rotation fails and is stopped before its row is revoked,
its write lands, and the next rotation replaces it. -/
theorem stays_in_agreement_rotated : ∃ pool : Pool Nat Store Request,
    pool.shared.secret = some 12 ∧ pool.shared.rows.length = 3 ∧ pool.shared.Agrees := by
  let labels := [(0, .tickCallbackToken 0), (0, .statement), (0, .insert 10), (0, .written),
    (0, .statement), (0, .statement), (1, .handleRotateCallback 5), (1, .insert 11),
    (1, .throws [] .inFlight), (1, .stop false), (1, .lands)] ++ rotates 2 9 12
  have ends : ((system Nat).exec (Program.onStatement Settled) begun labels).map (fun pool =>
      (pool.shared.secret, pool.shared.rows.length)) = some (some 12, 3) := by
    decide
  obtain ⟨pool, ran, is⟩ := Option.map_eq_some_iff.1 ends
  cases Prod.mk.inj is with
  | intro secret rows =>
      exact ⟨pool, secret, rows, stays_in_agreement Nat pool (.of_exec (.start begun_start) ran)⟩

/-- A write lands and is reported as failed: its row is revoked, and the token at GitHub is
refused. -/
theorem not_stays_in_agreement : ¬ ∀ pool : Pool Nat Store Request,
    Reachable (system Nat) always pool → pool.shared.Agrees := by
  intro claimed
  let labels : List (Nat × Event) := rotates 0 0 10 ++
    [(1, .handleRotateCallback 5), (1, .insert 11), (1, .throws [] .landed), (1, .statement)]
  have ends : ((system Nat).exec always begun labels).map (fun pool =>
      (pool.shared.secret, pool.shared.authenticateInternal false (some 11) .missing 6)) =
        some (some 11, .wrong) := by
    decide
  obtain ⟨pool, ran, is⟩ := Option.map_eq_some_iff.1 ends
  have reached := Reachable.of_exec (.start begun_start) ran
  cases Prod.mk.inj is with
  | intro secret wrong =>
      rw [claimed pool reached 11 secret] at wrong
      contradiction

end Callback

end TitanRunner
