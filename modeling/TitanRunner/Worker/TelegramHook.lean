import TitanRunner.Lib.Interleaving
import TitanRunner.Lib.Utf16

/-!
# The updates of a bot

`handleTelegramUpdate` and `tryPair` of `telegram.js` for one connection, in any interleaving with
each other, with new pairing codes and with a connect that writes the connection back.  The mark of
the last update is a member of the connection's `meta`, and the pairing code is a setting.
-/

namespace TitanRunner

namespace TelegramHook

open TransitionSystem System Interleaving

/-- `PAIR_MINUTES`, in milliseconds -/
def pairMs : Nat := 10 * 60000

/-- `PAIR_TRIES` -/
def pairTries : Nat := 5

/-- The value of a pairing code.  The setting keeps a hash, which is that of no other code. -/
abbrev Code := Nat

/-- The setting `tg.pair.<connection>`. -/
structure PairState where
  code : Code
  expiresAt : Nat
  tries : Nat := 0
  deriving DecidableEq

/-- What an update holds. -/
inductive Content where
  /-- A message with `/pair` and a code. -/
  | pair (code : Code) (isPrivate : Bool)
  /-- Another message or a button. -/
  | other
  deriving DecidableEq

/-- The handler compares a code. -/
def Content.isGuess : Content → Bool
  | .pair _ isPrivate => isPrivate
  | .other => false

structure Update where
  /-- `update_id`, where it is an integer -/
  id : Option Int
  chatId : Utf16
  content : Content
  deriving DecidableEq

/-- The connection and the setting; the ids whose mark was written, and those that were handled;
the guesses of the code that was made last, and how many of them are not stored yet. -/
structure Store where
  lastUpdateId : Int := -1
  chatId : Option Utf16 := none
  pair : Option PairState := none
  taken : List Int := []
  handled : List Int := []
  guesses : Nat := 0
  comparing : Nat := 0

/-! ## Statements -/

def Store.mark (store : Store) (id : Int) : Store :=
  { store with lastUpdateId := id, taken := id :: store.taken }

/-- The handler of an update begins. -/
def Store.handle (store : Store) (id : Option Int) : Store :=
  { store with handled := id.toList ++ store.handled }

/-- A code is compared with the stored one. -/
def Store.compare (store : Store) : Store :=
  { store with guesses := store.guesses + 1, comparing := store.comparing + 1 }

/-- `setSetting` after a comparison -/
def Store.compared (store : Store) (state : Option PairState) : Store :=
  { store with pair := state, comparing := store.comparing - 1 }

def Store.createPairCode (store : Store) (code : Code) (now : Nat) : Store :=
  { store with pair := some { code, expiresAt := now + pairMs }, guesses := 0, comparing := 0 }

/-! ## Requests -/

inductive Request where
  | idle
  /-- The connection is read, with its mark. -/
  | arrived (update : Update) (last : Int)
  | marked (update : Update)
  /-- In `tryPair`, before the setting is cleared. -/
  | clearing (id : Option Int)
  /-- In `tryPair`, with a wrong or the right code. -/
  | wrong (id : Option Int) (state : PairState)
  | right (id : Option Int) (chatId : Utf16)
  | paired (id : Option Int) (chatId : Utf16)
  | answered (id : Option Int)
  /-- `telegramAfterConnect` holds the connection that it writes back. -/
  | connecting (last : Int)
  | done
  deriving DecidableEq

inductive Event where
  | update (update : Update)
  | statement
  /-- The handler runs. -/
  | handle (now : Nat)
  | createPairCode (code : Code) (now : Nat)
  | connect
  | unpair
  /-- The Worker is stopped, or a statement fails. -/
  | stop
  deriving DecidableEq

/-- `tryPair`, up to the comparison. -/
def tryPair (store : Store) (update : Update) (code : Code) (now : Nat) : Store × Request :=
  match store.pair with
  | none => (store, .answered update.id)
  | some state =>
      if state.expiresAt < now || pairTries ≤ state.tries then (store, .clearing update.id)
      else if code = state.code then (store.compare, .right update.id update.chatId)
      else (store.compare, .wrong update.id state)

/-- `handleMessage` or `handleCallback` -/
def run (store : Store) (update : Update) (now : Nat) : Store × Request :=
  match update.content with
  | .pair code true => tryPair store update code now
  | _ => (store, .answered update.id)

/-- The update is taken, if it has no id or one above the mark that was read. -/
def dedupe (store : Store) (update : Update) (last : Int) : Store × Request :=
  match update.id with
  | none => (store, .marked update)
  | some id =>
      if id ≤ last then (store, .answered update.id) else (store.mark id, .marked update)

/-- One statement of a request. -/
def step (store : Store) : Request → Event → Option (Store × Request)
  | .idle, .update update => some (store, .arrived update store.lastUpdateId)
  | .arrived update last, .statement => some (dedupe store update last)
  | .marked update, .handle now => some (run (store.handle update.id) update now)
  | .clearing id, .statement => some ({ store with pair := none }, .answered id)
  | .wrong id state, .statement =>
      some (store.compared (some { state with tries := state.tries + 1 }), .answered id)
  | .right id chatId, .statement => some (store.compared none, .paired id chatId)
  | .paired id chatId, .statement =>
      some ({ store with chatId := some chatId }, .answered id)
  | .idle, .createPairCode code now => some (store.createPairCode code now, .done)
  | .idle, .connect => some (store, .connecting store.lastUpdateId)
  | .connecting last, .statement => some ({ store with lastUpdateId := last }, .done)
  | .idle, .unpair => some ({ store with chatId := none }, .done)
  | _, .stop => some (store, .done)
  | _, _ => none

def program : Program Store Request Event where
  idle := .idle
  step := step

/-- The runs of a connection that has seen no update. -/
def system (Id : Type) [DecidableEq Id] : System (Pool Id Store Request) (Id × Event) :=
  program.system Id fun store => store = {}

/-! ## Exactly once -/

/-- The update that a request has marked and not begun to handle. -/
def Request.holds : Request → Option Int
  | .marked update => update.id
  | _ => none

/-- No update is handled twice, and one that was answered is handled or about to be. -/
structure Exactly {Id : Type} (pool : Pool Id Store Request) : Prop where
  once : pool.shared.handled.Nodup
  answered : ∀ id update, pool.requests id = .answered (some update) →
    update ∈ pool.shared.handled ∨ ∃ other, (pool.requests other).holds = some update

/-- The code is guessed at most as often as it may be. -/
def Store.FewGuesses (store : Store) : Prop := store.guesses ≤ pairTries

/-- An update that arrives at or below the mark was taken before, the mark is written over the one
that was read, and no request stops between the mark and its handler.  A code is compared while no
other comparison waits for its write, and a wrong guess is written over the state that was read. -/
def Orderly (store : Store) : Request → Event → Prop
  | .idle, .update update => ∀ id, update.id = some id → id ≤ store.lastUpdateId →
      id ∈ store.taken
  | .arrived update last, .statement => (∃ id, update.id = some id ∧ last < id) →
      store.lastUpdateId = last
  | .connecting last, .statement => store.lastUpdateId = last
  | .marked update, .stop => update.id = none
  | .marked update, .handle _ => update.content.isGuess = true → store.comparing = 0
  | .wrong _ state, .statement => store.pair = some state
  | _, _ => True

instance decidableExistsSome {property : Int → Prop} [DecidablePred property] (id : Option Int) :
    Decidable (∃ number, id = some number ∧ property number) :=
  decidable_of_iff (∃ number ∈ id, property number) Iff.rfl

instance (store : Store) (request : Request) (event : Event) :
    Decidable (Orderly store request event) := by
  unfold Orderly
  split <;> infer_instance

/-! ## What a request knows -/

/-- The mark is above what was taken, what was handled was taken, and the guesses are counted but
for those that wait for their write. -/
structure Store.Sound (store : Store) : Prop where
  below : ∀ id ∈ store.taken, id ≤ store.lastUpdateId
  taken : store.handled ⊆ store.taken
  once : store.handled.Nodup
  counted : ∀ state, store.pair = some state → store.guesses ≤ state.tries + store.comparing
  few : store.FewGuesses

/-- The update was taken: the request held it, answered it, or found it below the mark. -/
def Request.claims : Request → Option Int
  | .arrived update last => update.id.filter (· ≤ last)
  | .marked update => update.id
  | .clearing id | .wrong id _ | .right id _ | .paired id _ | .answered id => id
  | _ => none

structure Knows' (store : Store) (request : Request) : Prop where
  claims : ∀ id, request.claims = some id → id ∈ store.taken
  fresh : ∀ id, request.holds = some id → id ∉ store.handled

def Apart (request other : Request) : Prop := ∀ id, request.holds = some id → other.holds ≠ some id

variable {store after : Store} {request request' other : Request} {event : Event}

theorem Request.claims_of_holds {id : Int} (held : request.holds = some id) :
    request.claims = some id := by
  cases request with
  | marked => exact held
  | _ => contradiction

/-- What a statement keeps. -/
structure Keeps (store : Store) (request : Request) (after : Store) (request' : Request) :
    Prop where
  sound : after.Sound
  own : Knows' after request'
  taken : store.taken ⊆ after.taken
  handled : ∀ id ∈ after.handled, id ∈ store.handled ∨ request.holds = some id
  held : ∀ id, request'.holds = some id → request.holds = some id ∨ id ∉ store.taken
  /-- Nothing is lost. -/
  kept : ∀ id, id ∈ after.taken → id ∈ store.taken ∨ request'.holds = some id
  begun : ∀ id, request.holds = some id → id ∈ after.handled ∨ request'.holds = some id
  still : store.handled ⊆ after.handled

theorem Keeps.others (keeps : Keeps store request after request') (knows : Knows' store other)
    (apart : Apart request other) : Knows' after other ∧ Apart request' other := by
  refine ⟨⟨fun id claimed => keeps.taken (knows.claims id claimed), ?_⟩, ?_⟩
  · intro id held handled
    cases keeps.handled id handled with
    | inl before => exact knows.fresh id held before
    | inr mine => exact apart id mine held
  · intro id mine theirs
    cases keeps.held id mine with
    | inl before => exact apart id before theirs
    | inr new => exact new (knows.claims id (Request.claims_of_holds theirs))

/-- A statement of a request that holds no update. -/
theorem Keeps.of_free (sound : after.Sound) (taken : after.taken = store.taken)
    (handled : after.handled = store.handled) (free : request.holds = none)
    (free' : request'.holds = none)
    (claims : ∀ id, request'.claims = some id → id ∈ store.taken) :
    Keeps store request after request' := by
  have none : ∀ id, ¬ request'.holds = some id := by
    intro id held
    rw [free'] at held
    contradiction
  refine ⟨sound, ⟨?_, ?_⟩, ?_, ?_, ?_, ?_, ?_, ?_⟩
  · rw [taken]
    exact claims
  · exact fun id held => absurd held (none id)
  · rw [taken]
    exact List.Subset.refl _
  · rw [handled]
    exact fun _ => .inl
  · exact fun id held => absurd held (none id)
  · rw [taken]
    exact fun _ => .inl
  · intro id held
    rw [free] at held
    contradiction
  · rw [handled]
    exact List.Subset.refl _

/-- The mark is written over the one that was read. -/
theorem Keeps.mark {update : Update} {last id : Int} (sound : store.Sound)
    (is : update.id = some id) (above : last < id) (same : store.lastUpdateId = last) :
    Keeps store (.arrived update last) (store.mark id) (.marked update) := by
  have new : id ∉ store.taken := by
    intro there
    have := sound.below id there
    omega
  have only : ∀ id', (Request.marked update).holds = some id' → id' = id := by
    intro id' held
    exact Option.some.inj (held.symm.trans is)
  refine ⟨⟨?_, ?_, sound.once, sound.counted, sound.few⟩, ⟨?_, ?_⟩, ?_, fun _ => .inl, ?_, ?_, ?_,
    List.Subset.refl _⟩
  · intro id' there
    cases List.mem_cons.1 there with
    | inl this => exact Int.le_of_eq this
    | inr before =>
        have bound := sound.below id' before
        exact Int.le_trans (same ▸ bound) (Int.le_of_lt above)
  · exact fun _ handled => List.mem_cons_of_mem _ (sound.taken handled)
  · intro id' claimed
    cases only id' claimed
    exact List.mem_cons_self
  · intro id' held handled
    cases only id' held
    exact new (sound.taken handled)
  · exact List.subset_cons_self _ _
  · intro id' held
    cases only id' held
    exact .inr new
  · intro id' there
    cases List.mem_cons.1 there with
    | inl this => exact .inr (this ▸ is)
    | inr before => exact .inl before
  · intro id' held
    contradiction

theorem Store.Sound.handle {id : Option Int} (sound : store.Sound)
    (knows : ∀ id', id = some id' → id' ∈ store.taken ∧ id' ∉ store.handled) :
    (store.handle id).Sound := by
  refine ⟨sound.below, ?_, ?_, sound.counted, sound.few⟩
  · intro id' there
    cases List.mem_append.1 there with
    | inl this => exact (knows id' (Option.mem_toList.1 this)).1
    | inr before => exact sound.taken before
  · rw [Store.handle]
    cases id with
    | none => exact sound.once
    | some id' => exact List.nodup_cons.2 ⟨(knows id' rfl).2, sound.once⟩

/-- A handler leaves what was taken and handled, and answers its update. -/
theorem run_spec (store : Store) (update : Update) (now : Nat) :
    (run store update now).1.taken = store.taken ∧
      (run store update now).1.handled = store.handled ∧
      (run store update now).2.holds = none ∧
      (run store update now).2.claims = update.id := by
  unfold run tryPair
  repeat' split
  all_goals exact ⟨rfl, rfl, rfl, rfl⟩

theorem Store.Sound.compare {state : PairState} (sound : store.Sound)
    (is : store.pair = some state) (alone : store.comparing = 0) (few : state.tries < pairTries) :
    store.compare.Sound := by
  have counted := sound.counted state is
  refine ⟨sound.below, sound.taken, sound.once, ?_, ?_⟩
  · intro state' same
    cases is.symm.trans same
    rw [Store.compare]
    dsimp only
    omega
  · rw [Store.FewGuesses, Store.compare]
    dsimp only
    omega

theorem Store.Sound.run {update : Update} {now : Nat} (sound : store.Sound)
    (alone : update.content.isGuess = true → store.comparing = 0) :
    (run store update now).1.Sound := by
  unfold TelegramHook.run
  split
  next code guess =>
    have alone : store.comparing = 0 := alone (by rw [guess]; rfl)
    unfold tryPair
    split
    next => exact sound
    next state is =>
      split
      next => exact sound
      next fine =>
        have few : state.tries < pairTries := by
          simp only [Bool.or_eq_true, decide_eq_true_eq, not_or] at fine
          exact Nat.lt_of_not_le fine.2
        split
        next => exact sound.compare is alone few
        next => exact sound.compare is alone few
  next => exact sound

/-- The handler runs. -/
theorem Keeps.handle {update : Update} {now : Nat} (sound : store.Sound)
    (knows : Knows' store (.marked update))
    (alone : update.content.isGuess = true → store.comparing = 0) :
    Keeps store (.marked update) (run (store.handle update.id) update now).1
      (run (store.handle update.id) update now).2 := by
  have ⟨taken, handled, free, claims⟩ := run_spec (store.handle update.id) update now
  have sound' : (store.handle update.id).Sound :=
    sound.handle fun id is => ⟨knows.claims id is, knows.fresh id is⟩
  have none : ∀ id, ¬ (run (store.handle update.id) update now).2.holds = some id := by
    intro id held
    rw [free] at held
    contradiction
  refine ⟨sound'.run alone, ⟨?_, ?_⟩, ?_, ?_, ?_, ?_, ?_, ?_⟩
  · rw [taken, claims]
    exact knows.claims
  · exact fun id held => absurd held (none id)
  · rw [taken]
    exact List.Subset.refl _
  · rw [handled]
    intro id there
    cases List.mem_append.1 there with
    | inl this => exact .inr (Option.mem_toList.1 this)
    | inr before => exact .inl before
  · exact fun id held => absurd held (none id)
  · rw [taken]
    exact fun _ => .inl
  · rw [handled]
    exact fun id held => .inl (List.mem_append_left _ (Option.mem_toList.2 held))
  · rw [handled]
    exact List.subset_append_right _ _

/-- A wrong guess is counted. -/
theorem Store.Sound.compared {state : PairState} (sound : store.Sound)
    (same : store.pair = some state) :
    (store.compared (some { state with tries := state.tries + 1 })).Sound := by
  have counted := sound.counted state same
  refine ⟨sound.below, sound.taken, sound.once, ?_, sound.few⟩
  intro state' is
  cases is
  rw [Store.compared]
  dsimp only
  omega

theorem Keeps.of_pair {result : Store × Request} (keeps : Keeps store request result.1 result.2)
    (took : some result = some (after, request')) : Keeps store request after request' := by
  cases took
  exact keeps

theorem Keeps.dedupe {update : Update} {last : Int} (sound : store.Sound)
    (knows : Knows' store (.arrived update last))
    (orderly : Orderly store (.arrived update last) .statement) :
    Keeps store (.arrived update last) (dedupe store update last).1
      (dedupe store update last).2 := by
  unfold TelegramHook.dedupe
  split
  next is =>
    have free : (Request.marked update).holds = none := is
    refine .of_free sound rfl rfl rfl free ?_
    intro id claimed
    cases claimed.symm.trans is
  next id is =>
    split
    next below =>
      refine .of_free sound rfl rfl rfl rfl ?_
      intro id' same
      cases same.symm.trans is
      refine knows.claims id ?_
      rw [Request.claims, is, Option.filter_some, if_pos (decide_eq_true below)]
    next above =>
      have above' : last < id := Int.lt_of_not_ge above
      exact .mark sound is above' (orderly ⟨id, is, above'⟩)

/-- Step lemma. -/
theorem Keeps.of_step (sound : store.Sound) (knows : Knows' store request)
    (orderly : Orderly store request event)
    (took : step store request event = some (after, request')) :
    Keeps store request after request' := by
  have none : ∀ state : PairState, ¬ (none : Option PairState) = some state := nofun
  unfold step at took
  split at took
  next update =>
    cases took
    refine .of_free sound rfl rfl rfl rfl ?_
    intro id claimed
    have ⟨is, below⟩ := Option.filter_eq_some_iff.1 claimed
    exact orderly id is (of_decide_eq_true below)
  next => exact .of_pair (.dedupe sound knows orderly) took
  next => exact .of_pair (.handle sound knows orderly) took
  next =>
    cases took
    exact .of_free ⟨sound.below, sound.taken, sound.once, fun state same => absurd same (none state),
      sound.few⟩ rfl rfl rfl rfl knows.claims
  next =>
    cases took
    exact .of_free (sound.compared orderly) rfl rfl rfl rfl knows.claims
  next =>
    cases took
    exact .of_free ⟨sound.below, sound.taken, sound.once, fun state same => absurd same (none state),
      sound.few⟩ rfl rfl rfl rfl knows.claims
  next =>
    cases took
    exact .of_free ⟨sound.below, sound.taken, sound.once, sound.counted, sound.few⟩ rfl rfl rfl rfl
      knows.claims
  next =>
    cases took
    refine .of_free ⟨sound.below, sound.taken, sound.once, ?_, Nat.zero_le _⟩ rfl rfl rfl rfl ?_
    · exact fun _ _ => Nat.zero_le _
    · intros
      contradiction
  next =>
    cases took
    refine .of_free sound rfl rfl rfl rfl ?_
    intros
    contradiction
  next last =>
    cases took
    have same : store.lastUpdateId = last := orderly
    refine .of_free ⟨?_, sound.taken, sound.once, sound.counted, sound.few⟩ rfl rfl rfl rfl ?_
    · rw [← same]
      exact sound.below
    · intros
      contradiction
  next =>
    cases took
    refine .of_free ⟨sound.below, sound.taken, sound.once, sound.counted, sound.few⟩ rfl rfl rfl
      rfl ?_
    intros
    contradiction
  next =>
    cases took
    have free : request.holds = Option.none := by
      cases request with
      | marked => exact orderly
      | _ => rfl
    refine .of_free sound rfl rfl free rfl ?_
    intros
    contradiction
  next => contradiction

theorem respects : program.Respects Orderly Store.Sound Knows' Apart where
  symm apart id mine theirs := apart id theirs mine
  guarantee sound knows orderly took := by
    have keeps := Keeps.of_step sound knows orderly took
    exact ⟨keeps.sound, keeps.own⟩
  rely sound knows other apart orderly took :=
    (Keeps.of_step sound knows orderly took).others other apart

variable {Id : Type} [DecidableEq Id]

/-- What is known of a pool, with nothing lost. -/
structure Good (pool : Pool Id Store Request) : Prop where
  known : Program.Knows Store.Sound Knows' Apart pool
  kept : ∀ id ∈ pool.shared.taken, id ∈ pool.shared.handled ∨
    ∃ other, (pool.requests other).holds = some id

/-- Run lemma: what is taken is handled, or held by a request. -/
theorem good_of_reachable {pool : Pool Id Store Request}
    (reached : Reachable (system Id) (Program.onStatement Orderly) pool) : Good pool := by
  apply reached.invariant
  · rintro pool ⟨started, idle⟩
    have none : ∀ id, pool.requests id = .idle := idle
    refine ⟨⟨?_, ?_, ?_⟩, ?_⟩
    · rw [started]
      exact ⟨by rintro _ ⟨⟩, List.nil_subset _, .nil, by rintro _ ⟨⟩, Nat.zero_le _⟩
    · intro id
      rw [none id]
      exact ⟨by rintro _ ⟨⟩, by rintro _ ⟨⟩⟩
    · intro id id' _
      rw [none id]
      rintro _ ⟨⟩
    · rw [started]
      rintro _ ⟨⟩
  · intro pool label after _ good orderly stepped
    refine ⟨respects.next good.known orderly stepped, ?_⟩
    obtain ⟨shared, here, took, same⟩ := Program.exists_step stepped
    subst same
    have keeps := Keeps.of_step good.known.shared (good.known.each label.1) orderly took
    have here' : (Function.update pool.requests label.1 here label.1).holds = here.holds := by
      rw [Function.update_self]
    intro id there
    cases keeps.kept id there with
    | inr mine => exact .inr ⟨label.1, here'.trans mine⟩
    | inl before =>
        cases good.kept id before with
        | inl handled => exact .inl (keeps.still handled)
        | inr held =>
            obtain ⟨other, held⟩ := held
            by_cases acting : other = label.1
            · cases keeps.begun id (acting ▸ held) with
              | inl handled => exact .inl handled
              | inr mine => exact .inr ⟨label.1, here'.trans mine⟩
            · refine .inr ⟨other, ?_⟩
              dsimp only
              rw [Function.update_of_ne acting]
              exact held

/-- In every run in which updates arrive in order or again, no request reads the mark or the code
while another one is about to write it, and none stops before its handler, each update is handled
exactly once and the code is guessed at most five times. -/
theorem handled_exactly (Id : Type) [DecidableEq Id] (pool : Pool Id Store Request)
    (reached : Reachable (system Id) (Program.onStatement Orderly) pool) :
    Exactly pool ∧ pool.shared.FewGuesses := by
  have good := good_of_reachable reached
  refine ⟨⟨good.known.shared.once, ?_⟩, good.known.shared.few⟩
  intro id update answered
  apply good.kept
  apply (good.known.each id).claims
  rw [answered]
  rfl

def begun (Id : Type) : Pool Id Store Request := ⟨{}, fun _ => .idle⟩

theorem begun_start (Id : Type) [DecidableEq Id] : (system Id).start (begun Id) :=
  ⟨rfl, fun _ => rfl⟩

/-- A request that takes an update and runs its handler. -/
def handles {Id : Type} (id : Id) (number : Int) (content : Content) : List (Id × Event) :=
  [(id, .update ⟨some number, [], content⟩), (id, .statement), (id, .handle 5)]

/-- A code is made, a wrong guess is counted, the update arrives again, and the right guess pairs the
chat. -/
theorem handled_exactly_paired : ∃ pool : Pool Nat Store Request,
    pool.shared.handled = [8, 7] ∧ pool.shared.chatId = some [] ∧
      Exactly pool ∧ pool.shared.FewGuesses := by
  let labels := [(0, .createPairCode 1234 0)] ++ handles 1 7 (.pair 1111 true) ++
    [(1, .statement), (2, .update ⟨some 7, [], .pair 1111 true⟩), (2, .statement)] ++
    handles 3 8 (.pair 1234 true) ++ [(3, .statement), (3, .statement)]
  have ends : ((system Nat).exec (Program.onStatement Orderly) (begun Nat) labels).map
      (fun pool => (pool.shared.handled, pool.shared.chatId)) = some ([8, 7], some []) := by
    decide
  obtain ⟨pool, ran, is⟩ := Option.map_eq_some_iff.1 ends
  cases Prod.mk.inj is with
  | intro handled chatId =>
      exact ⟨pool, handled, chatId,
        handled_exactly Nat pool (.of_exec (.start (begun_start Nat)) ran)⟩

/-- A later update arrives first: the earlier one is answered as a duplicate, and never handled. -/
theorem not_handled_exactly : ¬ ∀ (Id : Type) [DecidableEq Id] (pool : Pool Id Store Request),
    Reachable (system Id) always pool → Exactly pool ∧ pool.shared.FewGuesses := by
  intro claimed
  let labels := handles false 8 .other ++ [(true, .update ⟨some 7, [], .other⟩), (true, .statement)]
  have ends : ((system Bool).exec always (begun Bool) labels).map (fun pool =>
      (pool.requests true, decide (7 ∈ pool.shared.handled ∨
        ∃ other, (pool.requests other).holds = some 7))) = some (.answered (some 7), false) := by
    decide
  obtain ⟨pool, ran, is⟩ := Option.map_eq_some_iff.1 ends
  have exactly := (claimed Bool pool (Reachable.of_exec (.start (begun_start Bool)) ran)).1
  cases Prod.mk.inj is with
  | intro answered lost => exact of_decide_eq_false lost (exactly.answered true 7 answered)

end TelegramHook

end TitanRunner
