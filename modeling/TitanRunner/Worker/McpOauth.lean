import Mathlib.Data.List.Pairwise
import TitanRunner.Lib.Interleaving
import TitanRunner.Lib.Utf16

/-!
# OAuth of the MCP server

The codes and the tokens of the MCP server, with requests to the token endpoint in any
interleaving.  The codes are numbered as they are issued and the token pairs as they are made; a
secret, and a hash of it, goes by its number.
-/

namespace TitanRunner

namespace McpOauth

open TransitionSystem System Interleaving

/-- `ACCESS_TOKEN_TTL_SECONDS`, in milliseconds -/
def accessTokenTtl : Nat := 3600 * 1000

/-- `CODE_TTL_MS` -/
def codeTtl : Nat := 10 * 60000

/-- A `code_challenge`. -/
inductive Challenge where
  /-- What `pkceS256` makes of a verifier. -/
  | s256 (verifier : Utf16)
  /-- A text that is no digest of a verifier. -/
  | text (text : Utf16)
  deriving DecidableEq, Repr

def pkceS256 (verifier : Utf16) : Challenge := .s256 verifier

inductive GrantType where
  | authorizationCode
  | refreshToken
  | other (text : Utf16)
  deriving DecidableEq, Repr

/-- The parameters of a token request.  A secret that is left out or empty is `none`. -/
structure Params where
  grantType : GrantType
  code : Option Nat := none
  codeVerifier : Option Utf16 := none
  redirectUri : Option Utf16 := none
  clientId : Option Utf16 := none
  refreshToken : Option Nat := none
  deriving DecidableEq, Repr

/-- What a code is issued with. -/
structure Issue where
  clientId : Utf16
  clientName : Utf16
  redirectUri : Utf16
  scopes : Utf16
  codeChallenge : Challenge
  createdAt : Nat
  expiresAt : Nat
  deriving DecidableEq, Repr

/-- A row of `mcp_oauth_codes`. -/
structure CodeRow extends Issue where
  usedAt : Option Nat := none
  deriving DecidableEq, Repr

/-- A row of `mcp_tokens`.  Both tokens of the row are of one pair. -/
structure TokenRow where
  /-- The number of the first pair of the row. -/
  id : Nat
  label : Utf16
  pair : Nat
  scopes : Utf16
  clientId : Utf16
  createdAt : Nat
  expiresAt : Nat
  lastUsedAt : Option Nat := none
  revokedAt : Option Nat := none
  deriving DecidableEq, Repr

/-- A grant that was honoured, with the request that asked for it. -/
inductive Grant where
  | exchanged (code : Nat) (params : Params)
  /-- The refresh token of a pair was rotated, in a row. -/
  | rotated (pair id : Nat) (params : Params)
  deriving DecidableEq, Repr

structure Table where
  codes : Nat → Option CodeRow := fun _ => none
  /-- The codes that were issued so far. -/
  issued : Nat := 0
  tokens : List TokenRow := []
  /-- The pairs that were made so far. -/
  pairs : Nat := 0
  grants : List Grant := []

inductive GrantError where
  | codeRequired
  | invalidCode
  | otherClient
  | otherRedirect
  | otherVerifier
  | refreshRequired
  | invalidRefresh
  | unsupported
  deriving DecidableEq, Repr

def GrantError.error : GrantError → String
  | .codeRequired | .refreshRequired => "invalid_request"
  | .invalidCode | .otherRedirect | .otherVerifier | .invalidRefresh => "invalid_grant"
  | .otherClient => "invalid_client"
  | .unsupported => "unsupported_grant_type"

def GrantError.description : GrantError → String
  | .codeRequired => "code and code_verifier are required."
  | .invalidCode => "The authorization code is invalid, expired, or already used."
  | .otherClient => "client_id does not match."
  | .otherRedirect => "redirect_uri does not match."
  | .otherVerifier => "PKCE code_verifier check failed."
  | .refreshRequired => "refresh_token is required."
  | .invalidRefresh => "The refresh token is invalid or revoked."
  | .unsupported => "Supported grant_types: authorization_code, refresh_token."

/-- What a token request is answered. -/
inductive Answer where
  | pair (number : Nat) (scope : Utf16)
  | error (error : GrantError)
  deriving DecidableEq, Repr

/-! ## The token endpoint -/

/-- A parameter that is there, with another value than the stored one. -/
def Differs (param : Option Utf16) (stored : Utf16) : Prop :=
  param.getD [] ≠ [] ∧ stored ≠ param.getD []

instance (param : Option Utf16) (stored : Utf16) : Decidable (Differs param stored) :=
  inferInstanceAs (Decidable (_ ∧ _))

/-- The checks of an exchange. -/
def checkCode (row : CodeRow) (params : Params) (verifier : Utf16) (now : Nat) :
    Option GrantError :=
  if row.usedAt.isSome ∨ row.expiresAt < now then some .invalidCode
  else if Differs params.clientId row.clientId then some .otherClient
  else if Differs params.redirectUri row.redirectUri then some .otherRedirect
  else if pkceS256 verifier ≠ row.codeChallenge then some .otherVerifier
  else none

/-- The code that an exchange may use, with its row as it was read. -/
def findCode (table : Table) (params : Params) (now : Nat) : Except GrantError (Nat × Issue) :=
  match params.code, params.codeVerifier.filter (· ≠ []) with
  | some code, some verifier =>
      match table.codes code with
      | none => .error .invalidCode
      | some row =>
          match checkCode row params verifier now with
          | none => .ok (code, row.toIssue)
          | some error => .error error
  | _, _ => .error .codeRequired

/-- The row of the refresh token that a request brings. -/
def findToken (table : Table) (params : Params) : Except GrantError (Nat × TokenRow) :=
  match params.refreshToken with
  | none => .error .refreshRequired
  | some pair =>
      match table.tokens.find? fun row => row.pair = pair ∧ row.revokedAt = none with
      | none => .error .invalidRefresh
      | some row => .ok (pair, row)

/-- `INSERT INTO mcp_oauth_codes` -/
def Table.issue (table : Table) (issue : Issue) : Table :=
  { table with
    codes := Function.update table.codes table.issued (some { issue with })
    issued := table.issued + 1 }

/-- `UPDATE mcp_oauth_codes SET used_at = ? WHERE code_hash = ?` -/
def Table.use (table : Table) (code now : Nat) : Table :=
  { table with
    codes := Function.update table.codes code
      ((table.codes code).map fun row => { row with usedAt := some now }) }

/-- `INSERT INTO mcp_tokens` -/
def Table.insert (table : Table) (code : Nat) (params : Params) (issue : Issue) (now : Nat) :
    Table :=
  { table with
    tokens := table.tokens ++ [{
      id := table.pairs
      label := issue.clientName ++ Utf16.ofString " (OAuth)"
      pair := table.pairs
      scopes := issue.scopes
      clientId := issue.clientId
      createdAt := now
      expiresAt := now + accessTokenTtl }]
    pairs := table.pairs + 1
    grants := .exchanged code params :: table.grants }

/-- The row with a new pair. -/
def TokenRow.renew (row : TokenRow) (pair now : Nat) : TokenRow :=
  { row with
    pair := pair
    expiresAt := now + accessTokenTtl
    lastUsedAt := some now }

/-- `UPDATE mcp_tokens SET token_hash = ?, refresh_token_hash = ?, … WHERE id = ?` -/
def Table.rotate (table : Table) (pair id : Nat) (params : Params) (now : Nat) : Table :=
  { table with
    tokens := table.tokens.map fun row => if row.id = id then row.renew table.pairs now else row
    pairs := table.pairs + 1
    grants := .rotated pair id params :: table.grants }

/-- `UPDATE mcp_tokens SET revoked_at = ? WHERE id = ? AND revoked_at IS NULL` -/
def Table.revoke (table : Table) (id now : Nat) : Table :=
  { table with
    tokens := table.tokens.map fun row =>
      if row.id = id ∧ row.revokedAt = none then { row with revokedAt := some now } else row }

/-- Where a request is. -/
inductive Request where
  | idle
  /-- The code was read, and its checks passed. -/
  | checked (code : Nat) (params : Params) (issue : Issue)
  /-- The code is marked as used. -/
  | used (code : Nat) (params : Params) (issue : Issue)
  /-- The row of the refresh token was read. -/
  | found (pair : Nat) (params : Params) (row : TokenRow)
  | done (answer : Option Answer)
  deriving DecidableEq

inductive Event where
  /-- A person approves a client. -/
  | handleMcpAuthorizeApprove (clientId clientName redirectUri scopes : Utf16)
      (codeChallenge : Challenge) (now : Nat)
  | handleMcpTokenExchange (params : Params) (now : Nat)
  | revokeMcpToken (id now : Nat)
  /-- The next statement of `handleMcpTokenExchange`. -/
  | statement (now : Nat)
  /-- The request is refused for another reason, fails or is stopped. -/
  | stop
  deriving DecidableEq

/-- One statement of a request. -/
def step (table : Table) : Request → Event → Option (Table × Request)
  | .idle, .handleMcpAuthorizeApprove clientId clientName redirectUri scopes codeChallenge now =>
      some (table.issue {
        clientId := clientId
        clientName := clientName
        redirectUri := redirectUri
        scopes := scopes
        codeChallenge := codeChallenge
        createdAt := now
        expiresAt := now + codeTtl }, .done none)
  | .idle, .revokeMcpToken id now => some (table.revoke id now, .done none)
  | .idle, .handleMcpTokenExchange params now =>
      match params.grantType with
      | .authorizationCode =>
          match findCode table params now with
          | .ok (code, issue) => some (table, .checked code params issue)
          | .error error => some (table, .done (some (.error error)))
      | .refreshToken =>
          match findToken table params with
          | .ok (pair, row) => some (table, .found pair params row)
          | .error error => some (table, .done (some (.error error)))
      | .other _ => some (table, .done (some (.error .unsupported)))
  | .checked code params issue, .statement now =>
      some (table.use code now, .used code params issue)
  | .used code params issue, .statement now =>
      some (table.insert code params issue now, .done (some (.pair table.pairs issue.scopes)))
  | .found pair params row, .statement now =>
      some (table.rotate pair row.id params now, .done (some (.pair table.pairs row.scopes)))
  | _, .stop => some (table, .done none)
  | _, _ => none

def program : Program Table Request Event where
  idle := .idle
  step := step

/-- The runs of a server without codes and tokens, with any number of requests. -/
def system (Id : Type) [DecidableEq Id] : System (Pool Id Table Request) (Id × Event) :=
  program.system Id (· = {})

/-! ## Single use -/

def Grant.code? : Grant → Option Nat
  | .exchanged code _ => some code
  | .rotated .. => none

def Grant.pair? : Grant → Option Nat
  | .exchanged .. => none
  | .rotated pair _ _ => some pair

/-- A request names what a code was issued with. -/
structure Params.Meets (params : Params) (issue : Issue) : Prop where
  clientId : params.clientId = some issue.clientId
  redirectUri : params.redirectUri = some issue.redirectUri
  codeVerifier : params.codeVerifier.map pkceS256 = some issue.codeChallenge

def Table.Issued (table : Table) (code : Nat) (issue : Issue) : Prop :=
  ∃ row, table.codes code = some row ∧ row.toIssue = issue

def Table.Used (table : Table) (code : Nat) : Prop :=
  ∃ row, table.codes code = some row ∧ row.usedAt.isSome

/-- The row is of this client. -/
def Table.Owned (table : Table) (id : Nat) (clientId : Option Utf16) : Prop :=
  ∃ row ∈ table.tokens, row.id = id ∧ clientId = some row.clientId

/-- A grant is bound to what its secret was issued with. -/
def Grant.Bound (table : Table) : Grant → Prop
  | .exchanged code params => ∃ issue, table.Issued code issue ∧ params.Meets issue
  | .rotated _ id params => table.Owned id params.clientId

/-- The codes that gave a pair. -/
def Table.exchanged (table : Table) : List Nat := table.grants.filterMap Grant.code?

/-- The pairs whose refresh token was rotated. -/
def Table.rotated (table : Table) : List Nat := table.grants.filterMap Grant.pair?

/-- Each code gave one pair at most, each refresh token was rotated once at most, every pair comes
from a grant, and every grant is bound. -/
structure Table.SingleUse (table : Table) : Prop where
  exchanged : table.exchanged.Nodup
  rotated : table.rotated.Nodup
  pairs : table.grants.length = table.pairs
  bound : ∀ grant ∈ table.grants, grant.Bound table

/-- The side condition of a statement.  An exchange names a client and a redirect URI, a refresh
comes from the client of the token, and what a request consumes is still what it read: a code that
nobody used, a row that still holds the refresh token. -/
def Single (table : Table) : Request → Event → Prop
  | .idle, .handleMcpTokenExchange params _ =>
      match params.grantType with
      | .authorizationCode => params.clientId.getD [] ≠ [] ∧ params.redirectUri.getD [] ≠ []
      | .refreshToken =>
          ∀ row ∈ table.tokens, params.refreshToken = some row.pair →
            params.clientId = some row.clientId
      | .other _ => True
  | .checked code _ _, .statement _ => ∀ row ∈ table.codes code, row.usedAt = none
  | .found pair _ read, .statement _ => ∀ row ∈ table.tokens, row.id = read.id → row.pair = pair
  | _, _ => True

instance (table : Table) (request : Request) (event : Event) :
    Decidable (Single table request event) := by
  unfold Single
  split
  next => split <;> infer_instance
  all_goals infer_instance

structure Sound (table : Table) : Prop where
  single : table.SingleUse
  new : ∀ code, table.issued ≤ code → table.codes code = none
  distinct : table.tokens.Pairwise fun row other => row.id ≠ other.id ∧ row.pair ≠ other.pair
  made : ∀ row ∈ table.tokens, row.id < table.pairs ∧ row.pair < table.pairs
  used : ∀ code ∈ table.exchanged, table.Used code
  spent : ∀ pair ∈ table.rotated, pair < table.pairs ∧ ∀ row ∈ table.tokens, row.pair ≠ pair

/-- The code that a request has marked as used. -/
def Request.using : Request → Option Nat
  | .used code _ _ => some code
  | _ => none

/-- What a request knows. -/
def Knows' (table : Table) : Request → Prop
  | .checked code params issue => table.Issued code issue ∧ params.Meets issue
  | .used code params issue =>
      table.Issued code issue ∧ params.Meets issue ∧ table.Used code ∧ code ∉ table.exchanged
  | .found _ params row => table.Owned row.id params.clientId
  | _ => True

/-- No two requests use one code. -/
def Alone (request other : Request) : Prop :=
  ∀ code, ¬ (request.using = some code ∧ other.using = some code)

variable {table after : Table} {request request' other : Request} {event : Event}
  {code now pair id : Nat} {params : Params} {given : Issue}

/-- What is issued stays issued, what is used stays used, and a row stays with its client. -/
structure Table.Keeps (table after : Table) : Prop where
  issued : ∀ {code issue}, table.Issued code issue → after.Issued code issue
  used : ∀ {code}, table.Used code → after.Used code
  owned : ∀ {id clientId}, table.Owned id clientId → after.Owned id clientId

namespace Table

theorem Keeps.refl (table : Table) : table.Keeps table := ⟨id, id, id⟩

theorem Keeps.bound (keeps : table.Keeps after) {grant : Grant} (bound : grant.Bound table) :
    grant.Bound after := by
  cases grant with
  | exchanged code params =>
    have ⟨issue, issued, meets⟩ := bound
    exact ⟨issue, keeps.issued issued, meets⟩
  | rotated pair id params => exact keeps.owned bound

/-- A change of the rows that leaves their ids and clients. -/
theorem Owned.map {change : TokenRow → TokenRow} {clientId : Option Utf16}
    (keeps : ∀ row, (change row).id = row.id ∧ (change row).clientId = row.clientId)
    (owned : table.Owned id clientId) (rows : after.tokens = table.tokens.map change) :
    after.Owned id clientId := by
  have ⟨row, inside, named, client⟩ := owned
  refine ⟨change row, rows ▸ List.mem_map_of_mem inside, (keeps row).1.trans named, ?_⟩
  rw [client, (keeps row).2]

theorem keeps_issue (sound : Sound table) : table.Keeps (table.issue given) := by
  have other : ∀ {code row}, table.codes code = some row →
      (table.issue given).codes code = some row := by
    intro code row found
    have apart : code ≠ table.issued := by
      intro same
      rw [sound.new code (Nat.le_of_eq same.symm)] at found
      contradiction
    simpa only [Table.issue, Function.update_of_ne apart] using found
  constructor
  · exact fun ⟨row, found, same⟩ => ⟨row, other found, same⟩
  · exact fun ⟨row, found, used⟩ => ⟨row, other found, used⟩
  · exact id

theorem keeps_use : table.Keeps (table.use code now) := by
  constructor
  · intro code' issue ⟨row, found, same⟩
    by_cases here : code' = code
    · subst here
      exact ⟨{ row with usedAt := some now }, by simp only [Table.use, Function.update_self, found,
        Option.map_some], same⟩
    · exact ⟨row, by simpa only [Table.use, Function.update_of_ne here] using found, same⟩
  · intro code' ⟨row, found, used⟩
    by_cases here : code' = code
    · subst here
      exact ⟨{ row with usedAt := some now }, by simp only [Table.use, Function.update_self, found,
        Option.map_some], rfl⟩
    · exact ⟨row, by simpa only [Table.use, Function.update_of_ne here] using found, used⟩
  · exact id

theorem used_use (issued : table.Issued code given) : (table.use code now).Used code := by
  have ⟨row, found, _⟩ := issued
  exact ⟨{ row with usedAt := some now }, by simp only [Table.use, Function.update_self, found,
    Option.map_some], rfl⟩

theorem keeps_insert : table.Keeps (table.insert code params given now) :=
  ⟨id, id, fun ⟨row, inside, owned⟩ => ⟨row, List.mem_append_left _ inside, owned⟩⟩

theorem keeps_rotate : table.Keeps (table.rotate pair id params now) := by
  refine ⟨fun issued => issued, fun used => used, fun owned => owned.map ?_ rfl⟩
  intro row
  split
  next => exact ⟨rfl, rfl⟩
  next => exact ⟨rfl, rfl⟩

theorem keeps_revoke : table.Keeps (table.revoke id now) := by
  refine ⟨fun issued => issued, fun used => used, fun owned => owned.map ?_ rfl⟩
  intro row
  split
  next => exact ⟨rfl, rfl⟩
  next => exact ⟨rfl, rfl⟩

end Table

namespace Sound

theorem single_of_keeps (sound : Sound table) (keeps : table.Keeps after)
    (grants : after.grants = table.grants) (pairs : after.pairs = table.pairs) :
    after.SingleUse := by
  have single := sound.single
  constructor
  · simpa only [Table.exchanged, grants] using single.exchanged
  · simpa only [Table.rotated, grants] using single.rotated
  · rw [grants, pairs]
    exact single.pairs
  · intro grant inside
    rw [grants] at inside
    exact keeps.bound (single.bound grant inside)

theorem issue (sound : Sound table) : Sound (table.issue given) where
  single := sound.single_of_keeps (Table.keeps_issue sound) rfl rfl
  new code later := by
    have apart : code ≠ table.issued := Nat.ne_of_gt later
    simpa only [Table.issue, Function.update_of_ne apart] using
      sound.new code (Nat.le_of_succ_le later)
  distinct := sound.distinct
  made := sound.made
  used code inside := (Table.keeps_issue sound).used (sound.used code inside)
  spent := sound.spent

theorem use (sound : Sound table) : Sound (table.use code now) where
  single := sound.single_of_keeps Table.keeps_use rfl rfl
  new code' later := by
    by_cases here : code' = code
    · subst here
      simp only [Table.use, Function.update_self, sound.new code' later, Option.map_none]
    · simpa only [Table.use, Function.update_of_ne here] using sound.new code' later
  distinct := sound.distinct
  made := sound.made
  used code' inside := Table.keeps_use.used (sound.used code' inside)
  spent := sound.spent

/-- A code that was marked as used and gave no pair yet gives one. -/
theorem insert (sound : Sound table) (issued : table.Issued code given)
    (meets : params.Meets given) (used : table.Used code) (fresh : code ∉ table.exchanged) :
    Sound (table.insert code params given now) := by
  have single := sound.single
  constructor
  · refine ⟨List.nodup_cons.2 ⟨fresh, single.exchanged⟩, single.rotated,
      congrArg Nat.succ single.pairs, ?_⟩
    intro grant inside
    cases inside with
    | head => exact ⟨given, issued, meets⟩
    | tail _ earlier => exact Table.keeps_insert.bound (single.bound grant earlier)
  · exact sound.new
  · refine List.pairwise_append.2 ⟨sound.distinct, List.pairwise_singleton _ _, ?_⟩
    intro row inside other last
    have made := sound.made row inside
    cases List.mem_singleton.1 last
    exact ⟨Nat.ne_of_lt made.1, Nat.ne_of_lt made.2⟩
  · intro row inside
    cases List.mem_append.1 inside with
    | inl earlier =>
      have made := sound.made row earlier
      exact ⟨Nat.lt_succ_of_lt made.1, Nat.lt_succ_of_lt made.2⟩
    | inr last =>
      cases List.mem_singleton.1 last
      exact ⟨Nat.lt_succ_self _, Nat.lt_succ_self _⟩
  · intro code' inside
    cases inside with
    | head => exact used
    | tail _ earlier => exact sound.used code' earlier
  · intro pair inside
    have ⟨before, gone⟩ := sound.spent pair inside
    refine ⟨Nat.lt_succ_of_lt before, ?_⟩
    intro row inside
    cases List.mem_append.1 inside with
    | inl earlier => exact gone row earlier
    | inr last =>
      cases List.mem_singleton.1 last
      exact Nat.ne_of_gt before

/-- A row that still holds the refresh token gets a new one. -/
theorem rotate (sound : Sound table) (owned : table.Owned id params.clientId)
    (holds : ∀ row ∈ table.tokens, row.id = id → row.pair = pair) :
    Sound (table.rotate pair id params now) := by
  have single := sound.single
  have ⟨holder, held, named, _⟩ := owned
  have pairOf : holder.pair = pair := holds holder held named
  have before : pair < table.pairs := pairOf ▸ (sound.made holder held).2
  have symm : Std.Symm fun row other : TokenRow => row.id ≠ other.id ∧ row.pair ≠ other.pair :=
    ⟨fun _ _ apart => ⟨apart.1.symm, apart.2.symm⟩⟩
  have others : ∀ row ∈ table.tokens, row.id ≠ id → row.pair ≠ pair := by
    intro row inside apart
    have different : row ≠ holder := fun same => apart (same ▸ named)
    exact pairOf ▸ (sound.distinct.forall inside held different).2
  constructor
  · refine ⟨single.exchanged, List.nodup_cons.2 ⟨?_, single.rotated⟩,
      congrArg Nat.succ single.pairs, ?_⟩
    · exact fun listed => (sound.spent pair listed).2 holder held pairOf
    · intro grant inside
      cases inside with
      | head => exact Table.keeps_rotate.owned owned
      | tail _ earlier => exact Table.keeps_rotate.bound (single.bound grant earlier)
  · exact sound.new
  · refine List.pairwise_map.2 (sound.distinct.imp_of_mem ?_)
    intro row other inside inside' apart
    have made := (sound.made row inside).2
    have made' := (sound.made other inside').2
    split
    next here =>
      rw [if_neg fun there => apart.1 (here.trans there.symm)]
      exact ⟨apart.1, Nat.ne_of_gt made'⟩
    next =>
      split
      next => exact ⟨apart.1, Nat.ne_of_lt made⟩
      next => exact apart
  · intro row' inside'
    have ⟨row, inside, same⟩ := List.mem_map.1 inside'
    have made := sound.made row inside
    subst same
    split
    next => exact ⟨Nat.lt_succ_of_lt made.1, Nat.lt_succ_self _⟩
    next => exact ⟨Nat.lt_succ_of_lt made.1, Nat.lt_succ_of_lt made.2⟩
  · exact sound.used
  · intro spent listed
    have old : spent < table.pairs ∧ ∀ row ∈ table.tokens, row.id ≠ id → row.pair ≠ spent := by
      cases listed with
      | head => exact ⟨before, others⟩
      | tail _ earlier =>
        have ⟨less, gone⟩ := sound.spent spent earlier
        exact ⟨less, fun row inside _ => gone row inside⟩
    refine ⟨Nat.lt_succ_of_lt old.1, ?_⟩
    intro row' inside'
    have ⟨row, inside, same⟩ := List.mem_map.1 inside'
    subst same
    split
    next => exact Nat.ne_of_gt old.1
    next apart => exact old.2 row inside apart

theorem revoke (sound : Sound table) : Sound (table.revoke id now) := by
  have same : ∀ row : TokenRow, ∃ at', (if row.id = id ∧ row.revokedAt = none then
      { row with revokedAt := some now } else row) = { row with revokedAt := at' } := by
    intro row
    split
    next => exact ⟨some now, rfl⟩
    next => exact ⟨row.revokedAt, rfl⟩
  constructor
  · exact sound.single_of_keeps Table.keeps_revoke rfl rfl
  · exact sound.new
  · refine List.pairwise_map.2 (sound.distinct.imp ?_)
    intro row other apart
    have ⟨_, row'⟩ := same row
    have ⟨_, other'⟩ := same other
    rw [row', other']
    exact apart
  · intro row' inside'
    have ⟨row, inside, is⟩ := List.mem_map.1 inside'
    have ⟨_, row'⟩ := same row
    rw [← is, row']
    exact sound.made row inside
  · exact sound.used
  · intro spent listed
    refine ⟨(sound.spent spent listed).1, ?_⟩
    intro row' inside'
    have ⟨row, inside, is⟩ := List.mem_map.1 inside'
    have ⟨_, row'⟩ := same row
    rw [← is, row']
    exact (sound.spent spent listed).2 row inside

end Sound

theorem eq_of_not_differs {param : Option Utf16} {stored : Utf16} (there : param.getD [] ≠ [])
    (agrees : ¬ Differs param stored) : param = some stored := by
  have same : stored = param.getD [] := not_not.1 fun other => agrees ⟨there, other⟩
  cases param with
  | none => contradiction
  | some text => exact congrArg some same.symm

/-- A row passes the checks of a request that names a client and a redirect URI. -/
theorem meets_of_checkCode {row : CodeRow} {verifier : Utf16}
    (passed : checkCode row params verifier now = none) (named : params.clientId.getD [] ≠ [])
    (redirected : params.redirectUri.getD [] ≠ [])
    (verified : params.codeVerifier = some verifier) : params.Meets row.toIssue := by
  unfold checkCode at passed
  split at passed
  next => cases passed
  next =>
    split at passed
    next => cases passed
    next client =>
      split at passed
      next => cases passed
      next redirect =>
        split at passed
        next => cases passed
        next challenge =>
          refine ⟨eq_of_not_differs named client, eq_of_not_differs redirected redirect, ?_⟩
          rw [verified, Option.map_some, not_not.1 challenge]

theorem of_findCode (ok : findCode table params now = .ok (code, given))
    (named : params.clientId.getD [] ≠ []) (redirected : params.redirectUri.getD [] ≠ []) :
    table.Issued code given ∧ params.Meets given := by
  unfold findCode at ok
  split at ok
  next verifier _ verified =>
    split at ok
    next => cases ok
    next row found =>
      split at ok
      next passed =>
        cases ok
        have ⟨verified, _⟩ := Option.filter_eq_some_iff.1 verified
        exact ⟨⟨row, found, rfl⟩, meets_of_checkCode passed named redirected verified⟩
      next => cases ok
  next => cases ok

theorem of_findToken {row : TokenRow} (ok : findToken table params = .ok (pair, row)) :
    row ∈ table.tokens ∧ params.refreshToken = some row.pair := by
  unfold findToken at ok
  split at ok
  next => cases ok
  next asked =>
    split at ok
    next => cases ok
    next found =>
      cases ok
      have holds := List.find?_some found
      rw [decide_eq_true_eq] at holds
      exact ⟨List.mem_of_find?_eq_some found, holds.1 ▸ asked⟩

/-- A step keeps the invariant, and what its own request and the others know. -/
structure Kept (table : Table) (request : Request) (after : Table) (request' : Request) :
    Prop where
  sound : Sound after
  own : Knows' after request'
  others : ∀ other, Knows' table other → Alone request other →
    Knows' after other ∧ Alone request' other

/-- What is known of the codes and the rows stays known. -/
theorem Knows'.mono (knows : Knows' table other) (keeps : table.Keeps after)
    (fresh : ∀ code, other.using = some code → code ∉ after.exchanged) : Knows' after other := by
  cases other with
  | checked code params issue => exact ⟨keeps.issued knows.1, knows.2⟩
  | used code params issue =>
    have ⟨issued, meets, used, _⟩ := knows
    exact ⟨keeps.issued issued, meets, keeps.used used, fresh code rfl⟩
  | found pair params row => exact keeps.owned knows
  | _ => trivial

theorem Knows'.fresh (knows : Knows' table other) (using' : other.using = some code) :
    table.Used code ∧ code ∉ table.exchanged := by
  cases other with
  | used =>
    cases using'
    exact knows.2.2
  | _ => contradiction

/-- A step that exchanges no code and starts to use none. -/
theorem Kept.of_keeps (sound : Sound after) (own : Knows' after request')
    (keeps : table.Keeps after) (same : after.exchanged = table.exchanged)
    (idle : request'.using = none) : Kept table request after request' := by
  refine ⟨sound, own, ?_⟩
  intro other knows _
  constructor
  · exact knows.mono keeps fun code uses => same ▸ (knows.fresh uses).2
  · intro code both
    rw [idle] at both
    cases both.1

/-- A code that nobody used is marked as used. -/
theorem Kept.use (sound : Sound table) (issued : table.Issued code given)
    (meets : params.Meets given) (unused : ∀ row ∈ table.codes code, row.usedAt = none) :
    Kept table (.checked code params given) (table.use code now) (.used code params given) := by
  have free : ¬ table.Used code := by
    intro ⟨row, found, used⟩
    rw [unused row found] at used
    contradiction
  refine ⟨sound.use, ⟨Table.keeps_use.issued issued, meets, Table.used_use issued,
    fun exchanged => free (sound.used code exchanged)⟩, ?_⟩
  intro other knows _
  constructor
  · exact knows.mono Table.keeps_use fun code uses => (knows.fresh uses).2
  · intro code' both
    cases both.1
    exact free (knows.fresh both.2).1

/-- A used code gives its pair: nobody else uses it. -/
theorem Kept.insert (sound : Sound table) (knows : Knows' table (.used code params given))
    {answer : Option Answer} :
    Kept table (.used code params given) (table.insert code params given now) (.done answer) := by
  have ⟨issued, meets, used, fresh⟩ := knows
  refine ⟨sound.insert issued meets used fresh, trivial, ?_⟩
  intro other knows alone
  constructor
  · refine knows.mono Table.keeps_insert ?_
    intro code' uses exchanged
    cases exchanged with
    | head => exact alone code ⟨rfl, uses⟩
    | tail _ earlier => exact (knows.fresh uses).2 earlier
  · exact fun _ both => by cases both.1

/-- Step lemma. -/
theorem Kept.of_step (sound : Sound table) (knows : Knows' table request)
    (single : Single table request event)
    (took : step table request event = some (after, request')) :
    Kept table request after request' := by
  unfold step at took
  split at took
  next =>
    cases took
    exact .of_keeps sound.issue trivial (Table.keeps_issue sound) rfl rfl
  next =>
    cases took
    exact .of_keeps sound.revoke trivial Table.keeps_revoke rfl rfl
  next params now =>
    unfold Single at single
    split at took
    next grant =>
      simp only [grant] at single
      split at took
      next ok =>
        cases took
        exact .of_keeps sound (of_findCode ok single.1 single.2) (.refl table) rfl rfl
      next =>
        cases took
        exact .of_keeps sound trivial (.refl table) rfl rfl
    next grant =>
      simp only [grant] at single
      split at took
      next row ok =>
        cases took
        have ⟨inside, asked⟩ := of_findToken ok
        exact .of_keeps sound ⟨row, inside, rfl, single row inside asked⟩ (.refl table) rfl rfl
      next =>
        cases took
        exact .of_keeps sound trivial (.refl table) rfl rfl
    next =>
      cases took
      exact .of_keeps sound trivial (.refl table) rfl rfl
  next =>
    cases took
    exact .use sound knows.1 knows.2 single
  next =>
    cases took
    exact .insert sound knows
  next =>
    cases took
    exact .of_keeps (sound.rotate knows single) trivial Table.keeps_rotate rfl rfl
  next =>
    cases took
    exact .of_keeps sound trivial (.refl table) rfl rfl
  next => contradiction

theorem respects : program.Respects Single Sound Knows' Alone where
  symm alone code both := alone code both.symm
  guarantee sound knows single took := by
    have kept := Kept.of_step sound knows single took
    exact ⟨kept.sound, kept.own⟩
  rely sound knows other alone single took :=
    (Kept.of_step sound knows single took).others _ other alone

theorem Sound.empty : Sound {} where
  single := ⟨List.nodup_nil, List.nodup_nil, rfl, nofun⟩
  new _ _ := rfl
  distinct := .nil
  made := nofun
  used := nofun
  spent := nofun

/-- In every run in which the requests name their client and their redirect URI, and consume what
is still as they read it, each secret is used once and by the one it was issued to. -/
theorem grants_once (Id : Type) [DecidableEq Id] (pool : Pool Id Table Request)
    (reached : Reachable (system Id) (Program.onStatement Single) pool) :
    pool.shared.SingleUse := by
  have known : Program.Knows Sound Knows' Alone pool := by
    apply Program.Respects.reachable respects _ _ reached
    · intro shared empty
      exact ⟨empty ▸ Sound.empty, trivial⟩
    · exact fun _ both => by cases both.1
  exact known.shared.single

def begun : Pool Nat Table Request := ⟨{}, fun _ => .idle⟩

def client : Utf16 := Utf16.ofString "a"

def approve : Event := .handleMcpAuthorizeApprove client client client [] (pkceS256 client) 0

/-- An exchange of the first code. -/
def exchange : Params where
  grantType := .authorizationCode
  code := some 0
  codeVerifier := some client
  redirectUri := some client
  clientId := some client

/-- A refresh with the token of the first pair. -/
def refresh : Params where
  grantType := .refreshToken
  clientId := some client
  refreshToken := some 0

/-- A code is exchanged, and the refresh token of its pair is rotated. -/
theorem grants_once_refreshed :
    ∃ pool : Pool Nat Table Request, pool.shared.SingleUse ∧
      pool.shared.exchanged = [0] ∧ pool.shared.rotated = [0] := by
  let labels : List (Nat × Event) := [(0, approve), (1, .handleMcpTokenExchange exchange 0),
    (1, .statement 0), (1, .statement 0), (2, .handleMcpTokenExchange refresh 0),
    (2, .statement 0)]
  have ends : ((system Nat).exec (Program.onStatement Single) begun labels).map
      (fun pool => (pool.shared.exchanged, pool.shared.rotated)) = some ([0], [0]) := by
    decide
  have ⟨pool, ran, is⟩ := Option.map_eq_some_iff.1 ends
  have ⟨exchanged, rotated⟩ := Prod.mk.inj is
  exact ⟨pool, grants_once Nat pool (.of_exec (.start ⟨rfl, fun _ => rfl⟩) ran), exchanged, rotated⟩

/-- Two exchanges of one code that read it before either marks it as used both get a pair, and a
refresh that names no client is honoured. -/
theorem not_grants_once :
    (¬ ∀ pool : Pool Nat Table Request, Reachable (system Nat) always pool →
      pool.shared.exchanged.Nodup) ∧
    ¬ ∀ pool : Pool Nat Table Request, Reachable (system Nat) always pool →
      ∀ grant ∈ pool.shared.grants, grant.Bound pool.shared := by
  constructor
  · intro claimed
    let labels : List (Nat × Event) := [(0, approve), (1, .handleMcpTokenExchange exchange 0),
      (2, .handleMcpTokenExchange exchange 0), (1, .statement 0), (2, .statement 0),
      (1, .statement 0), (2, .statement 0)]
    have ends : ((system Nat).exec always begun labels).map
        (fun pool => pool.shared.exchanged) = some [0, 0] := by
      decide
    have ⟨pool, ran, is⟩ := Option.map_eq_some_iff.1 ends
    have once := claimed pool (.of_exec (.start ⟨rfl, fun _ => rfl⟩) ran)
    rw [is] at once
    exact absurd once (by decide)
  · intro claimed
    let unnamed : Params := { refresh with clientId := none }
    let labels : List (Nat × Event) := [(0, approve), (1, .handleMcpTokenExchange exchange 0),
      (1, .statement 0), (1, .statement 0), (2, .handleMcpTokenExchange unnamed 0),
      (2, .statement 0)]
    have ends : ((system Nat).exec always begun labels).map
        (fun pool => pool.shared.grants.head?) = some (some (.rotated 0 0 unnamed)) := by
      decide
    have ⟨pool, ran, is⟩ := Option.map_eq_some_iff.1 ends
    have bound := claimed pool (.of_exec (.start ⟨rfl, fun _ => rfl⟩) ran) _
      (List.mem_of_mem_head? is)
    have ⟨_, _, _, client⟩ := bound
    contradiction

end McpOauth

end TitanRunner
