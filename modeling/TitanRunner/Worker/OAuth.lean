import TitanRunner.Lib.Interleaving
import TitanRunner.Worker.Broker

/-!
# Refreshed tokens

The tokens of one connection and the actions that run `ensureAccessToken` on it in any
interleaving, with a provider that takes each refresh token once.  The pairs that the provider
gave out are numbered; a token goes by the number of its pair.
-/

namespace TitanRunner

namespace OAuth

open TransitionSystem System Interleaving
open Broker (ConnectionStatus)

/-- `REFRESH_MARGIN_MS` -/
def refreshMargin : Nat := 2 * 60000

/-- The row of the connection, its two secrets, and the provider. -/
structure Table where
  access : Nat
  refresh : Nat
  status : ConnectionStatus := .connected
  /-- `meta.expiresAt` -/
  expiresAt : Option Nat := none
  /-- The newest pair of the provider; only its refresh token is valid. -/
  newest : Nat

/-- What the token request comes to. -/
inductive Answer where
  | answered
  /-- The provider took the request, and the call failed. -/
  | lost
  /-- A failure for the moment; no token was used. -/
  | failed
  deriving DecidableEq, Repr

/-- Where an action is. -/
inductive Request where
  | idle
  | connected (expiresAt : Option Nat)
  /-- The secrets were read, and the access token is near its end. -/
  | expiring (now refresh : Nat)
  /-- The provider gave a new pair. -/
  | granted (pair expiresAt : Nat)
  | savedAccess (pair expiresAt : Nat)
  | saved (expiresAt : Nat)
  /-- The provider refused the refresh token. -/
  | refused
  | done
  deriving DecidableEq

inductive Event where
  | getConnection
  | loadSecrets (now : Nat)
  /-- The request for a new pair, which lasts so many seconds. -/
  | tokenRequest (answer : Answer) (expiresIn : Nat)
  /-- The next statement of `ensureAccessToken`. -/
  | statement
  /-- The action fails or is stopped. -/
  | stop
  deriving DecidableEq

/-- One step of an action. -/
def step (table : Table) : Request → Event → Option (Table × Request)
  | .idle, .getConnection => some (table, .connected table.expiresAt)
  | .connected expiresAt, .loadSecrets now =>
      some (table, if expiresAt.any fun expires => now + refreshMargin < expires then .done
        else .expiring now table.refresh)
  | .expiring now refresh, .tokenRequest answer expiresIn =>
      if answer = .failed then some (table, .done)
      else if refresh = table.newest then
        some ({ table with newest := table.newest + 1 },
          if answer = .answered then .granted (table.newest + 1) (now + max 60 expiresIn * 1000)
          else .done)
      else some (table, if answer = .answered then .refused else .done)
  | .granted pair expiresAt, .statement =>
      some ({ table with access := pair }, .savedAccess pair expiresAt)
  | .savedAccess pair expiresAt, .statement =>
      some ({ table with refresh := pair }, .saved expiresAt)
  | .saved expiresAt, .statement =>
      some ({ table with
        status := .connected
        expiresAt := some expiresAt }, .done)
  | .refused, .statement => some ({ table with status := .needsReconnect }, .done)
  | _, .stop => some (table, .done)
  | _, _ => none

def program : Program Table Request Event where
  idle := .idle
  step := step

/-- The actions of a connection that holds the newest pair. -/
def system (Id : Type) [DecidableEq Id] : System (Pool Id Table Request) (Id × Event) :=
  program.system Id fun table => table.access = table.newest ∧ table.refresh = table.newest ∧
    table.status ≠ .needsReconnect

/-! ## The newest pair -/

/-- The side condition of a step.  A request that the provider takes brings the valid refresh token
and gets its answer, and an action that was given a pair is not stopped before it saved both
tokens. -/
def Current (table : Table) : Request → Event → Prop
  | .expiring _ refresh, .tokenRequest answer _ => answer = .failed ∨
      answer = .answered ∧ refresh = table.newest
  | .granted _ _, .stop | .savedAccess _ _, .stop => False
  | _, _ => True

instance (table : Table) (request : Request) (event : Event) :
    Decidable (Current table request event) := by
  unfold Current
  split <;> infer_instance

/-- An action between its grant and its last save. -/
def Request.isSaving : Request → Bool
  | .granted _ _ | .savedAccess _ _ => true
  | _ => false

structure Sound (table : Table) : Prop where
  behind : table.refresh ≤ table.newest
  status : table.status ≠ .needsReconnect

/-- What an action knows: a refresh token that was read is not ahead of the stored one, and a new
pair is the newest, with its refresh token not stored yet. -/
def Knows' (table : Table) : Request → Prop
  | .expiring _ refresh => refresh ≤ table.refresh
  | .granted pair _ => pair = table.newest ∧ table.refresh < pair
  | .savedAccess pair _ => pair = table.newest ∧ table.refresh < pair ∧ table.access = pair
  | .refused => False
  | _ => True

/-- No two actions are saving. -/
def Alone (request other : Request) : Prop :=
  ¬ (request.isSaving = true ∧ other.isSaving = true)

variable {table after : Table} {request request' other : Request} {event : Event}

/-- A step keeps the invariant, and what its own action and the others know. -/
structure Kept (table : Table) (request : Request) (after : Table) (request' : Request) :
    Prop where
  sound : Sound after
  own : Knows' after request'
  others : ∀ other, Knows' table other → Alone request other →
    Knows' after other ∧ Alone request' other

/-- A step that leaves the tokens alone. -/
theorem Kept.same (sound : Sound after) (refresh : after.refresh = table.refresh)
    (access : after.access = table.access) (newest : after.newest = table.newest)
    (own : Knows' after request') (idle : request'.isSaving = false) :
    Kept table request after request' := by
  refine ⟨sound, own, ?_⟩
  intro other knows _
  constructor
  · cases other with
    | expiring now read => simpa only [Knows', refresh] using knows
    | granted pair expiresAt => exact ⟨newest ▸ knows.1, refresh ▸ knows.2⟩
    | savedAccess pair expiresAt =>
      exact ⟨newest ▸ knows.1, refresh ▸ knows.2.1, access ▸ knows.2.2⟩
    | _ => exact knows
  · intro both
    exact Bool.false_ne_true (idle.symm.trans both.1)

/-- The provider takes its valid token from an action: nobody else is saving. -/
theorem Kept.grant {now refresh expiresAt : Nat} (sound : Sound table)
    (read : refresh ≤ table.refresh) (valid : refresh = table.newest) :
    Kept table (.expiring now refresh) { table with newest := table.newest + 1 }
      (.granted (table.newest + 1) expiresAt) := by
  have behind := sound.behind
  have stored : table.refresh = table.newest := Nat.le_antisymm behind (valid ▸ read)
  refine ⟨⟨Nat.le_succ_of_le behind, sound.status⟩, ⟨rfl, Nat.lt_succ_of_le behind⟩, ?_⟩
  intro other knows _
  cases other with
  | granted pair expiresAt =>
    have less := knows.2
    rw [knows.1, stored] at less
    exact absurd less (Nat.lt_irrefl _)
  | savedAccess pair expiresAt =>
    have less := knows.2.1
    rw [knows.1, stored] at less
    exact absurd less (Nat.lt_irrefl _)
  | _ => exact ⟨knows, fun both => Bool.false_ne_true both.2⟩

/-- The one action that is saving writes a token. -/
theorem Kept.save (sound : Sound after) (saving : request.isSaving = true)
    (own : Knows' after request') (more : table.refresh ≤ after.refresh) :
    Kept table request after request' := by
  refine ⟨sound, own, ?_⟩
  intro other knows alone
  have idle : other.isSaving = false := Bool.eq_false_iff.2 fun is => alone ⟨saving, is⟩
  constructor
  · cases other with
    | expiring now refresh => exact Nat.le_trans knows more
    | granted pair expiresAt => contradiction
    | savedAccess pair expiresAt => contradiction
    | _ => exact knows
  · intro both
    exact Bool.false_ne_true (idle.symm.trans both.2)

/-- Step lemma. -/
theorem Kept.of_step (sound : Sound table) (knows : Knows' table request)
    (current : Current table request event)
    (took : step table request event = some (after, request')) :
    Kept table request after request' := by
  unfold step at took
  split at took
  next =>
    cases took
    exact .same sound rfl rfl rfl trivial rfl
  next =>
    cases took
    split
    next => exact .same sound rfl rfl rfl trivial rfl
    next => exact .same sound rfl rfl rfl (Nat.le_refl _) rfl
  next now refresh answer expiresIn =>
    split at took
    next =>
      cases took
      exact .same sound rfl rfl rfl trivial rfl
    next taken =>
      have ⟨answered, valid⟩ := Or.resolve_left current taken
      rw [if_pos valid, if_pos answered] at took
      cases took
      exact .grant sound knows valid
  next pair expiresAt =>
    cases took
    exact .save ⟨sound.behind, sound.status⟩ rfl ⟨knows.1, knows.2, rfl⟩ (Nat.le_refl _)
  next pair expiresAt =>
    cases took
    exact .save ⟨Nat.le_of_eq knows.1, sound.status⟩ rfl trivial (Nat.le_of_lt knows.2.1)
  next =>
    cases took
    exact .same ⟨sound.behind, nofun⟩ rfl rfl rfl trivial rfl
  next => exact knows.elim
  next =>
    cases took
    exact .same sound rfl rfl rfl trivial rfl
  next => contradiction

theorem respects : program.Respects Current Sound Knows' Alone where
  symm alone both := alone both.symm
  guarantee sound knows current took := by
    have kept := Kept.of_step sound knows current took
    exact ⟨kept.sound, kept.own⟩
  rely sound knows other alone current took :=
    (Kept.of_step sound knows current took).others _ other alone

/-- Both stored tokens are of the newest pair. -/
def Table.Paired (table : Table) : Prop :=
  table.access = table.newest ∧ table.refresh = table.newest

/-- Behind a step the stored tokens are the newest pair, or the action that took it is saving, or
the step changed no token and its action was not saving. -/
theorem paired_step (knows : Knows' table request) (current : Current table request event)
    (took : step table request event = some (after, request')) :
    after.Paired ∨ request'.isSaving = true ∨
      request.isSaving = false ∧ (table.Paired → after.Paired) := by
  unfold step at took
  split at took
  next =>
    cases took
    exact .inr (.inr ⟨rfl, id⟩)
  next =>
    cases took
    exact .inr (.inr ⟨rfl, id⟩)
  next answer expiresIn =>
    split at took
    next =>
      cases took
      exact .inr (.inr ⟨rfl, id⟩)
    next taken =>
      have ⟨answered, valid⟩ := Or.resolve_left current taken
      rw [if_pos valid, if_pos answered] at took
      cases took
      exact .inr (.inl rfl)
  next =>
    cases took
    exact .inr (.inl rfl)
  next =>
    cases took
    exact .inl ⟨knows.2.2.trans knows.1, knows.1⟩
  next =>
    cases took
    exact .inr (.inr ⟨rfl, id⟩)
  next => exact knows.elim
  next =>
    cases took
    refine .inr (.inr ⟨?_, id⟩)
    cases request with
    | granted => exact current.elim
    | savedAccess => exact current.elim
    | _ => rfl
  next => contradiction

variable {Id : Type} [DecidableEq Id]

theorem knows_of_reachable {pool : Pool Id Table Request}
    (reached : Reachable (system Id) (Program.onStatement Current) pool) :
    Program.Knows Sound Knows' Alone pool :=
  Program.Respects.reachable respects
    (fun _ started => ⟨⟨Nat.le_of_eq started.2.1, started.2.2⟩, trivial⟩)
    (fun both => Bool.false_ne_true both.1) reached

theorem paired_of_reachable {pool : Pool Id Table Request}
    (reached : Reachable (system Id) (Program.onStatement Current) pool) :
    pool.shared.Paired ∨ ∃ id, (pool.requests id).isSaving = true := by
  apply reached.invariant fun pool : Pool Id Table Request =>
    pool.shared.Paired ∨ ∃ id, (pool.requests id).isSaving = true
  · exact fun pool started => .inl ⟨started.1.1, started.1.2.1⟩
  · intro pool label after before paired current stepped
    have ⟨table, request, took, same⟩ := Program.exists_step stepped
    have step := paired_step ((knows_of_reachable before).each label.1) current took
    subst same
    cases step with
    | inl here => exact .inl here
    | inr step =>
      cases step with
      | inl saving => exact .inr ⟨label.1, by simpa only [Function.update_self] using saving⟩
      | inr other =>
        have ⟨idle, keeps⟩ := other
        refine paired.imp keeps ?_
        intro ⟨id, saving⟩
        have apart : id ≠ label.1 := by
          intro acting
          rw [acting, idle] at saving
          contradiction
        exact ⟨id, by simpa only [Function.update_of_ne apart] using saving⟩

/-- In every run in which the provider is asked with its valid refresh token alone, the stored
tokens end as the newest pair, and the connection is never marked as lost. -/
theorem newest_pair (Id : Type) [DecidableEq Id] (pool : Pool Id Table Request)
    (reached : Reachable (system Id) (Program.onStatement Current) pool) :
    ((∀ id, (pool.requests id).isSaving = false) →
      pool.shared.access = pool.shared.newest ∧ pool.shared.refresh = pool.shared.newest) ∧
    pool.shared.status ≠ .needsReconnect := by
  refine ⟨?_, (knows_of_reachable reached).shared.status⟩
  intro still
  apply (paired_of_reachable reached).resolve_right
  intro ⟨id, saving⟩
  exact Bool.false_ne_true ((still id).symm.trans saving)

/-- A connection whose access token has no known end. -/
def begun : Pool Nat Table Request :=
  ⟨{ access := 0, refresh := 0, newest := 0 }, fun _ => .idle⟩

def reads (id : Nat) : List (Nat × Event) := [(id, .getConnection), (id, .loadSecrets 0)]

def saves (id : Nat) : List (Nat × Event) :=
  [(id, .statement), (id, .statement), (id, .statement)]

/-- One action refreshes; another, which read before, meets a failure of the moment. -/
theorem newest_pair_refreshed :
    ∃ pool : Pool Nat Table Request, pool.shared.newest = 1 ∧
      pool.shared.status ≠ .needsReconnect := by
  let labels := reads 0 ++ reads 1 ++ [(0, .tokenRequest .answered 3600)] ++ saves 0 ++
    [(1, .tokenRequest .failed 0)]
  have ends : ((system Nat).exec (Program.onStatement Current) begun labels).map
      (fun pool => pool.shared.newest) = some 1 := by
    decide
  have ⟨pool, ran, is⟩ := Option.map_eq_some_iff.1 ends
  have kept := newest_pair Nat pool (.of_exec (.start ⟨⟨rfl, rfl, by decide⟩, fun _ => rfl⟩) ran)
  exact ⟨pool, is, kept.2⟩

/-- Two actions read the same refresh token: the first one refreshes and saves, the second one is
refused and marks the connection as lost. -/
theorem not_newest_pair : ¬ ∀ pool : Pool Nat Table Request,
    Reachable (system Nat) always pool →
      ((∀ id, (pool.requests id).isSaving = false) →
        pool.shared.access = pool.shared.newest ∧ pool.shared.refresh = pool.shared.newest) ∧
      (0 < pool.shared.newest → pool.shared.status ≠ .needsReconnect) := by
  intro claimed
  let labels := reads 0 ++ reads 1 ++ [(0, .tokenRequest .answered 3600)] ++ saves 0 ++
    [(1, .tokenRequest .answered 0), (1, .statement)]
  have ends : ((system Nat).exec always begun labels).map
      (fun pool => (pool.shared.newest, pool.shared.status)) = some (1, .needsReconnect) := by
    decide
  have ⟨pool, ran, is⟩ := Option.map_eq_some_iff.1 ends
  have ⟨newest, status⟩ := Prod.mk.inj is
  have kept := (claimed pool (.of_exec (.start ⟨⟨rfl, rfl, by decide⟩, fun _ => rfl⟩) ran)).2
  exact kept (newest ▸ Nat.zero_lt_one) status

end OAuth

end TitanRunner
