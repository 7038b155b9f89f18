import TitanRunner.Lib.Interleaving
import TitanRunner.Lib.Utf16
import Mathlib.Data.List.Nodup

/-!
# Inbound hooks

The posts to one hook: `verifyHook` checks the proof of a post, `handleInboundHook` remembers its
nonce in `hook_nonces` and refuses one that is remembered.  `pruneHookNonces` and the retention
delete old nonces on their own timetables.
-/

namespace TitanRunner

namespace Hooks

open Utf16 (ofString)
open TransitionSystem System Interleaving

/-! ## The proof of a post -/

inductive Mode where
  | hmac | github | static
  deriving DecidableEq, Repr

structure Hook where
  mode : Mode
  secret : Utf16

/-- `hmacHex(secret, ${t}.${body})`, by what it was made of. -/
structure Signature where
  secret : Utf16
  t : Int
  body : Utf16
  deriving DecidableEq

/-- `sha256=` and `hmacHex(secret, body)`, by what it was made of. -/
structure HubSignature where
  secret : Utf16
  body : Utf16
  deriving DecidableEq

/-- The headers that prove a post. -/
structure Headers where
  /-- `x-titan-hook-secret` -/
  hookSecret : Option Utf16 := none
  /-- `x-hub-signature-256` -/
  hubSignature : Option HubSignature := none
  /-- `x-github-delivery` -/
  githubDelivery : Option Utf16 := none
  /-- `x-titan-signature`, if it has the form of one -/
  titanSignature : Option (Int × Signature) := none
  deriving DecidableEq

/-- A delivery that can be told from others. -/
inductive Delivery where
  | hmac (v1 : Signature)
  | github (id : Utf16)
  deriving DecidableEq

/-- A nonce, as it is remembered. -/
inductive Nonce where
  | hmac (v1 : Signature)
  | github (text : Utf16)
  deriving DecidableEq

def nonceOf : Delivery → Nonce
  | .hmac v1 => .hmac v1
  | .github id => .github ((ofString "gh:" ++ id).take 80)

/-- `HOOK_WINDOW_SECONDS` -/
def hookWindow : Nat := 300

inductive Proof where
  | ok (delivery : Option Delivery)
  | refused (reason : String)
  deriving DecidableEq

def verifyHook (hook : Hook) (headers : Headers) (body : Utf16) (now : Nat) : Proof :=
  match hook.mode with
  | .static =>
      if headers.hookSecret = some hook.secret ∧ hook.secret ≠ [] then .ok none
      else .refused "bad_secret"
  | .github =>
      if headers.hubSignature ≠ some ⟨hook.secret, body⟩ then .refused "bad_signature"
      else .ok ((headers.githubDelivery.filter fun id => !id.isEmpty).map .github)
  | .hmac =>
      match headers.titanSignature with
      | none => .refused "bad_signature"
      | some (t, v1) =>
          if hookWindow < ((now / 1000 : Nat) - t : Int).natAbs then .refused "old_timestamp"
          else if v1 ≠ ⟨hook.secret, t, body⟩ then .refused "bad_signature"
          else .ok (some (.hmac v1))

/-! ## Posts and clean-ups -/

/-- The rows of `hook_nonces`, and what was accepted. -/
structure Table where
  nonces : List (Nonce × Nat) := []
  /-- The deliveries that were accepted. -/
  accepted : List Delivery := []
  /-- The latest time of a clean-up. -/
  cleanedAt : Nat := 0

/-- Where a request is. -/
inductive Request where
  | idle
  /-- The proof of the post is good. -/
  | verified (delivery : Delivery)
  | done
  deriving DecidableEq

inductive Event where
  | handleInboundHook (headers : Headers) (body : Utf16) (now : Nat)
  /-- `INSERT OR IGNORE INTO hook_nonces` -/
  | remember (at' : Nat)
  | pruneHookNonces (now : Nat)
  /-- The retention, on its statement for `hook_nonces`. -/
  | pruneOldRows (now : Nat)
  /-- The request is refused for another reason, fails or is stopped. -/
  | stop
  deriving DecidableEq

/-- `DELETE FROM hook_nonces WHERE at < ?` -/
def Table.cleanUp (table : Table) (now age : Nat) : Table :=
  { table with
    nonces := table.nonces.filter fun row => ¬ row.2 < now - age
    cleanedAt := max table.cleanedAt now }

/-- The ages at which the two clean-ups delete, in milliseconds. -/
def pruneAge : Nat := 2 * hookWindow * 1000

def retentionAge : Nat := 20 * 60000

/-- One statement of a request. -/
def step (hook : Hook) (table : Table) : Request → Event → Option (Table × Request)
  | .idle, .handleInboundHook headers body now =>
      match verifyHook hook headers body now with
      | .ok (some delivery) => some (table, .verified delivery)
      | .ok none | .refused _ => some (table, .done)
  | .verified delivery, .remember at' =>
      if table.nonces.any fun row => row.1 = nonceOf delivery then some (table, .done)
      else some ({ table with
        nonces := (nonceOf delivery, at') :: table.nonces
        accepted := delivery :: table.accepted }, .done)
  | .idle, .pruneHookNonces now => some (table.cleanUp now pruneAge, .done)
  | .idle, .pruneOldRows now => some (table.cleanUp now retentionAge, .done)
  | _, .stop => some (table, .done)
  | _, _ => none

def program (hook : Hook) : Program Table Request Event where
  idle := .idle
  step := step hook

/-- The runs of one hook that is new, with any number of requests. -/
def system (Id : Type) [DecidableEq Id] (hook : Hook) :
    System (Pool Id Table Request) (Id × Event) :=
  (program hook).system Id (· = {})

/-! ## No replay -/

/-- At this time a post of the nonce is still let through.  An id of GitHub has no window. -/
def Nonce.Live (clock : Nat) : Nonce → Prop
  | .hmac v1 => ((clock / 1000 : Nat) : Int) ≤ v1.t + hookWindow
  | .github _ => True

instance (clock : Nat) (nonce : Nonce) : Decidable (nonce.Live clock) := by
  unfold Nonce.Live
  split <;> infer_instance

/-- The nonces that a clean-up deletes are those of signatures out of their window. -/
def Table.Forgets (table : Table) (now age : Nat) : Prop :=
  ∀ row ∈ table.nonces, row.2 < now - age → ¬ row.1.Live now

instance (table : Table) (now age : Nat) : Decidable (table.Forgets now age) := by
  unfold Table.Forgets
  infer_instance

/-- The side condition of a statement.  A clean-up deletes no nonce that a post may still bring, and
a nonce is not written after a clean-up beyond its window. -/
def Timely (table : Table) : Request → Event → Prop
  | .idle, .pruneHookNonces now => table.Forgets now pruneAge
  | .idle, .pruneOldRows now => table.Forgets now retentionAge
  | .verified delivery, .remember _ => (nonceOf delivery).Live table.cleanedAt
  | _, _ => True

instance (table : Table) (request : Request) (event : Event) :
    Decidable (Timely table request event) := by
  unfold Timely
  split <;> infer_instance

variable {hook : Hook} {table after : Table} {request request' : Request} {event : Event}
  {now age : Nat}

theorem Nonce.Live.anti {nonce : Nonce} {clock later : Nat} (live : nonce.Live later)
    (le : clock ≤ later) : nonce.Live clock := by
  cases nonce with
  | hmac v1 =>
    have seconds := Nat.div_le_div_right (c := 1000) le
    exact Int.le_trans (Int.ofNat_le.2 seconds) live
  | github text => trivial

/-- What was accepted is remembered, or out of its window for good. -/
structure Sound (table : Table) : Prop where
  once : (table.accepted.map nonceOf).Nodup
  remembered : ∀ delivery ∈ table.accepted, (nonceOf delivery).Live table.cleanedAt →
    ∃ at', (nonceOf delivery, at') ∈ table.nonces

theorem Sound.cleanUp (sound : Sound table) (forgets : table.Forgets now age) :
    Sound (table.cleanUp now age) := by
  refine ⟨sound.once, ?_⟩
  intro delivery accepted live
  have ⟨at', inside⟩ := sound.remembered delivery accepted (live.anti (Nat.le_max_left _ _))
  refine ⟨at', List.mem_filter.2 ⟨inside, decide_eq_true ?_⟩⟩
  exact fun old => forgets _ inside old (live.anti (Nat.le_max_right _ _))

theorem Sound.accept {delivery : Delivery} {at' : Nat} (sound : Sound table)
    (live : (nonceOf delivery).Live table.cleanedAt)
    (new : ¬ (table.nonces.any fun row => row.1 = nonceOf delivery) = true) :
    Sound { table with
      nonces := (nonceOf delivery, at') :: table.nonces
      accepted := delivery :: table.accepted } := by
  constructor
  · refine List.nodup_cons.2 ⟨?_, sound.once⟩
    intro listed
    have ⟨earlier, accepted, same⟩ := List.mem_map.1 listed
    have ⟨at', inside⟩ := sound.remembered earlier accepted (same ▸ live)
    exact new (List.any_eq_true.2 ⟨_, inside, decide_eq_true same⟩)
  · intro other accepted live'
    cases accepted with
    | head => exact ⟨at', List.mem_cons_self⟩
    | tail _ accepted =>
      have ⟨at'', inside⟩ := sound.remembered other accepted live'
      exact ⟨at'', List.mem_cons_of_mem _ inside⟩

/-- Step lemma. -/
theorem Sound.step (sound : Sound table) (timely : Timely table request event)
    (took : Hooks.step hook table request event = some (after, request')) : Sound after := by
  unfold Hooks.step at took
  split at took
  next =>
    split at took
    next =>
      cases took
      exact sound
    next =>
      cases took
      exact sound
    next =>
      cases took
      exact sound
  next =>
    split at took
    next =>
      cases took
      exact sound
    next new =>
      cases took
      exact sound.accept timely new
  next =>
    cases took
    exact sound.cleanUp timely
  next =>
    cases took
    exact sound.cleanUp timely
  next =>
    cases took
    exact sound
  next => contradiction

/-- In every run whose clean-ups are timely, no delivery is accepted twice. -/
theorem accepted_once (Id : Type) [DecidableEq Id] (hook : Hook) (pool : Pool Id Table Request)
    (reached : Reachable (system Id hook) (Program.onStatement Timely) pool) :
    pool.shared.accepted.Nodup := by
  have sound : Sound pool.shared := by
    apply reached.invariant fun pool : Pool Id Table Request => Sound pool.shared
    · intro pool started
      rw [started.1]
      exact ⟨List.nodup_nil, fun _ accepted => by contradiction⟩
    · intro pool label after _ sound timely stepped
      have ⟨table, request, took, same⟩ := Program.exists_step stepped
      subst same
      exact sound.step timely took
  exact List.Nodup.of_map nonceOf sound.once

/-- The headers of a signed post, and of a delivery of GitHub. -/
def signed (secret body : Utf16) (t : Int) : Headers :=
  { titanSignature := some (t, ⟨secret, t, body⟩) }

def delivered (secret body : Utf16) (id : String) : Headers :=
  { hubSignature := some ⟨secret, body⟩, githubDelivery := some (ofString id) }

/-- A signed post, a clean-up that forgets it after twenty minutes, and the same post again, which
is too old. -/
theorem accepted_once_signed :
    ∃ pool : Pool Nat Table Request, pool.shared.accepted = [.hmac ⟨[1], 1000, [2]⟩] ∧
      pool.shared.nonces = [] ∧ pool.shared.accepted.Nodup := by
  let labels : List (Nat × Event) := [(0, .handleInboundHook (signed [1] [2] 1000) [2] 1000000),
    (0, .remember 1000100), (1, .pruneOldRows 2300000),
    (2, .handleInboundHook (signed [1] [2] 1000) [2] 2300001)]
  have ends : ((system Nat ⟨.hmac, [1]⟩).exec (Program.onStatement Timely) ⟨{}, fun _ => .idle⟩
      labels).map (fun pool => (pool.shared.accepted, pool.shared.nonces)) =
        some ([.hmac ⟨[1], 1000, [2]⟩], []) := by
    decide
  have ⟨pool, ran, is⟩ := Option.map_eq_some_iff.1 ends
  have ⟨accepted, nonces⟩ := Prod.mk.inj is
  exact ⟨pool, accepted, nonces,
    accepted_once Nat ⟨.hmac, [1]⟩ pool (.of_exec (.start ⟨rfl, fun _ => rfl⟩) ran)⟩

/-- The retention forgets the id of a delivery of GitHub, and the same delivery is accepted
again. -/
theorem not_accepted_once : ¬ ∀ (hook : Hook) (pool : Pool Nat Table Request),
    Reachable (system Nat hook) always pool → pool.shared.accepted.Nodup := by
  intro claimed
  let post : Event := .handleInboundHook (delivered [1] [2] "d") [2] 1000
  let labels : List (Nat × Event) := [(0, post), (0, .remember 1000), (1, .pruneOldRows 1300000),
    (2, post), (2, .remember 1300001)]
  have ends : ((system Nat ⟨.github, [1]⟩).exec always ⟨{}, fun _ => .idle⟩ labels).map
      (fun pool => pool.shared.accepted) =
        some [.github (ofString "d"), .github (ofString "d")] := by
    decide
  have ⟨pool, ran, is⟩ := Option.map_eq_some_iff.1 ends
  have once := claimed ⟨.github, [1]⟩ pool (.of_exec (.start ⟨rfl, fun _ => rfl⟩) ran)
  rw [is] at once
  exact absurd once (by decide)

end Hooks

end TitanRunner
