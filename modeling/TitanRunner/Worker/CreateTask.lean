import TitanRunner.Lib.Interleaving
import TitanRunner.Lib.Utf16

/-!
# Creating a task once

`handleCreateTask` of `worker/src/tasks.js`: any number of requests, each with an idempotency key,
that look the key up, insert a task and store its id under the key.  A request that is refused for
what is in its body reads and writes nothing, and is left out.
-/

namespace TitanRunner

namespace CreateTask

open Utf16 TransitionSystem System Interleaving

abbrev TaskId := Nat

/-- `idem`: what counts of a key. -/
def idemOf (raw : Utf16) : Utf16 := (Utf16.trim raw).take 80

/-- The tables. -/
structure Shared where
  /-- The tasks, each with the key it was created for. -/
  tasks : List (TaskId × Utf16) := []
  /-- `settings`, under `idem.task.<key>`. -/
  settings : Utf16 → Option TaskId := fun _ => none
  /-- Ghost: a request is between its look-up of the key and the end of its store. -/
  busy : Utf16 → Bool := fun _ => false

/-- The tasks that were created for a key. -/
def Shared.created (shared : Shared) (idem : Utf16) : List TaskId :=
  (shared.tasks.filter fun task => task.2 = idem).map Prod.fst

/-- Where a request is. -/
inductive Request where
  | idle
  /-- No task was found for the key. -/
  | looked (idem : Utf16)
  | inserted (idem : Utf16) (task : TaskId)
  /-- `{ ok: true, id }` -/
  | answered (idem : Utf16) (task : TaskId)
  /-- It throws. -/
  | failed (idem : Utf16)
  /-- It was stopped. -/
  | gone
  deriving DecidableEq

/-- What comes of an `INSERT`. -/
inductive Insertion where
  | made
  /-- The row is there, and the statement fails all the same. -/
  | lost
  | refused
  deriving DecidableEq, Repr

inductive Event where
  /-- A request with this key arrives, and looks it up or fails to. -/
  | handleCreateTask (raw : Utf16) (looks : Bool)
  /-- `queueTask` -/
  | queueTask (task : TaskId) (insertion : Insertion)
  /-- The id is stored under the key, or is not. -/
  | store (stores : Bool)
  | stop
  deriving DecidableEq

/-- One statement of a request. -/
def step (shared : Shared) : Request → Event → Option (Shared × Request)
  | .idle, .handleCreateTask raw looks =>
      let idem := idemOf raw
      match if looks ∧ idem ≠ [] then shared.settings idem else none with
      | some task => some (shared, .answered idem task)
      | none =>
          some ({ shared with busy := Function.update shared.busy idem true }, .looked idem)
  | .looked idem, .queueTask task insertion =>
      -- the ids are random
      if task ∈ shared.tasks.map Prod.fst then none
      else
        match insertion with
        | .made => some ({ shared with tasks := shared.tasks ++ [(task, idem)] }, .inserted idem task)
        | .lost => some ({ shared with tasks := shared.tasks ++ [(task, idem)] }, .failed idem)
        | .refused => some (shared, .failed idem)
  | .inserted idem task, .store stores =>
      some ({ shared with
        settings :=
          if stores ∧ idem ≠ [] then Function.update shared.settings idem (some task)
          else shared.settings
        busy := Function.update shared.busy idem false }, .answered idem task)
  | .looked idem, .stop =>
      some ({ shared with busy := Function.update shared.busy idem false }, .gone)
  | _, .stop => some (shared, .gone)
  | _, _ => none

def program : Program Shared Request Event where
  idle := .idle
  step := step

/-- The runs of the requests against a Worker that has created nothing under a key. -/
def system (Id : Type) [DecidableEq Id] : System (Pool Id Shared Request) (Id × Event) :=
  program.system Id fun shared => shared.tasks = [] ∧ (∀ idem, shared.settings idem = none) ∧
    ∀ idem, shared.busy idem = false

/-! ## Once for each key -/

/-- At most one task is created for the key, and every request with it that has ended was answered
with that task. -/
structure Once {Id : Type} (pool : Pool Id Shared Request) (idem : Utf16) : Prop where
  atMost : (pool.shared.created idem).length ≤ 1
  answered : ∀ id task, pool.requests id = .answered idem task →
    pool.shared.created idem = [task]
  fails : ∀ id, pool.requests id ≠ .failed idem

/-- The side condition of a statement.  A key is looked up while no other request with it is between
its look-up and its store, and the look-up fails only where nothing is stored; the insert and the
store do not fail, and no request is stopped between them. -/
def Alone (shared : Shared) : Request → Event → Prop
  | .idle, .handleCreateTask raw looks => shared.busy (idemOf raw) = false ∧
      (looks = true ∨ shared.settings (idemOf raw) = none) ∧ idemOf raw ≠ []
  | .looked _, .queueTask _ insertion => insertion = .made
  | .inserted _ _, .store stores => stores = true
  | .inserted _ _, .stop => False
  | _, _ => True

instance (shared : Shared) (request : Request) (event : Event) :
    Decidable (Alone shared request event) := by
  unfold Alone
  split <;> infer_instance

/-- The key a request is between its look-up and its store with. -/
def Request.holds : Request → Option Utf16
  | .looked idem | .inserted idem _ => some idem
  | .idle | .answered _ _ | .failed _ | .gone => none

/-- A key has the task that is stored for it, and none before its store unless it is busy. -/
structure Sound (shared : Shared) : Prop where
  atMost : ∀ idem, (shared.created idem).length ≤ 1
  stored : ∀ idem task, shared.settings idem = some task → shared.created idem = [task]
  free : ∀ idem, shared.busy idem = false → shared.settings idem = none → shared.created idem = []
  busy : ∀ idem, shared.busy idem = true → shared.settings idem = none

/-- What a request knows of its key. -/
def Knows (shared : Shared) : Request → Prop
  | .looked idem => shared.busy idem = true ∧ shared.created idem = [] ∧ idem ≠ []
  | .inserted idem task => shared.busy idem = true ∧ shared.created idem = [task] ∧ idem ≠ []
  | .answered idem task => shared.settings idem = some task
  | .failed _ => False
  | .idle | .gone => True

/-- No two requests hold one key. -/
def Apart (here other : Request) : Prop := ∀ idem, here.holds = some idem → other.holds ≠ some idem

def Shared.mark (shared : Shared) (idem : Utf16) (busy : Bool) : Shared :=
  { shared with busy := Function.update shared.busy idem busy }

def Shared.insert (shared : Shared) (idem : Utf16) (task : TaskId) : Shared :=
  { shared with tasks := shared.tasks ++ [(task, idem)] }

def Shared.store (shared : Shared) (idem : Utf16) (task : TaskId) : Shared :=
  { shared with settings := Function.update shared.settings idem (some task) }

section Fields

variable (shared : Shared) (idem idem' : Utf16) (task : TaskId) (busy : Bool)

@[simp] theorem mark_busy : (shared.mark idem busy).busy idem' =
    if idem' = idem then busy else shared.busy idem' :=
  Function.update_apply shared.busy idem busy idem'

@[simp] theorem mark_settings : (shared.mark idem busy).settings = shared.settings := rfl

@[simp] theorem mark_created : (shared.mark idem busy).created idem' = shared.created idem' := rfl

@[simp] theorem insert_busy : (shared.insert idem task).busy = shared.busy := rfl

@[simp] theorem insert_settings : (shared.insert idem task).settings = shared.settings := rfl

@[simp] theorem insert_created : (shared.insert idem task).created idem' =
    if idem = idem' then shared.created idem' ++ [task] else shared.created idem' := by
  by_cases same : idem = idem'
  · simp [Shared.created, Shared.insert, same]
  · simp [Shared.created, Shared.insert, same]

@[simp] theorem store_busy : (shared.store idem task).busy = shared.busy := rfl

@[simp] theorem store_settings : (shared.store idem task).settings idem' =
    if idem' = idem then some task else shared.settings idem' :=
  Function.update_apply shared.settings idem (some task) idem'

@[simp] theorem store_created : (shared.store idem task).created idem' = shared.created idem' :=
  rfl

end Fields

/-- What a statement does that meets the condition. -/
inductive Takes (shared : Shared) : Request → Shared → Request → Prop where
  | ends {here : Request} : here.holds = none → Takes shared here shared .gone
  | finds {idem : Utf16} {task : TaskId} : shared.settings idem = some task →
      Takes shared .idle shared (.answered idem task)
  | looks {idem : Utf16} : idem ≠ [] → shared.busy idem = false → shared.settings idem = none →
      Takes shared .idle (shared.mark idem true) (.looked idem)
  | inserts {idem : Utf16} {task : TaskId} :
      Takes shared (.looked idem) (shared.insert idem task) (.inserted idem task)
  | stores {idem : Utf16} {task : TaskId} :
      Takes shared (.inserted idem task) ((shared.store idem task).mark idem false)
        (.answered idem task)
  | leaves {idem : Utf16} : Takes shared (.looked idem) (shared.mark idem false) .gone

section Step

variable {shared after : Shared} {here here' other : Request} {event : Event}

theorem Alone.takes (alone : Alone shared here event) (knows : Knows shared here)
    (took : step shared here event = some (after, here')) : Takes shared here after here' := by
  unfold step at took
  split at took
  next raw looks =>
    obtain ⟨quiet, looked, named⟩ := alone
    dsimp only at took
    split at took
    next task found =>
      cases took
      apply Takes.finds
      split at found
      next => exact found
      next => contradiction
    next missing =>
      cases took
      apply Takes.looks named quiet
      cases looked with
      | inl looks => simpa [looks, named] using missing
      | inr none' => exact none'
  next idem task insertion =>
    split at took
    next => contradiction
    next =>
      cases alone
      cases took
      exact .inserts
  next idem task stores =>
    cases alone
    cases took
    rw [if_pos ⟨rfl, knows.2.2⟩]
    exact .stores
  next idem =>
    cases took
    exact .leaves
  next other =>
    cases took
    cases here with
    | idle | answered | failed | gone => exact .ends rfl
    | looked idem => exact absurd rfl (other idem)
    | inserted => exact alone.elim
  next => contradiction

/-- A statement keeps what holds of the tables, and what its own request knows. -/
theorem Sound.takes (sound : Sound shared) (knows : Knows shared here)
    (takes : Takes shared here after here') : Sound after ∧ Knows after here' := by
  cases takes with
  | ends _ => exact ⟨sound, trivial⟩
  | finds found => exact ⟨sound, found⟩
  | @looks idem named quiet none' =>
      refine ⟨⟨sound.atMost, sound.stored, fun idem' free => ?_, fun idem' busy => ?_⟩, by simp,
        sound.free idem quiet none', named⟩
      · by_cases same : idem' = idem
        · simp [same] at free
        · exact sound.free idem' (by simpa [same] using free)
      · by_cases same : idem' = idem
        · exact same ▸ none'
        · exact sound.busy idem' (by simpa [same] using busy)
  | @inserts idem task =>
      obtain ⟨busy, empty, named⟩ := knows
      have none' := sound.busy idem busy
      refine ⟨⟨fun idem' => ?_, fun idem' task' found => ?_, fun idem' free missing => ?_,
        sound.busy⟩, busy, by simp [empty], named⟩
      · by_cases same : idem = idem'
        · subst same
          simp [empty]
        · simpa [same] using sound.atMost idem'
      · have other : idem ≠ idem' := by
          rintro rfl
          cases none'.symm.trans found
        rw [insert_created, if_neg other]
        exact sound.stored idem' task' found
      · have other : idem ≠ idem' := by
          rintro rfl
          cases busy.symm.trans free
        rw [insert_created, if_neg other]
        exact sound.free idem' free missing
  | @stores idem task =>
      obtain ⟨_, only, _⟩ := knows
      refine ⟨⟨sound.atMost, fun idem' task' found => ?_, fun idem' free missing => ?_,
        fun idem' busy => ?_⟩, by simp [Knows]⟩
      · by_cases same : idem' = idem
        · subst same
          have task' : task = task' := by simpa using found
          exact task' ▸ only
        · exact sound.stored idem' task' (by simpa [same] using found)
      · by_cases same : idem' = idem
        · simp [same] at missing
        · exact sound.free idem' (by simpa [same] using free) (by simpa [same] using missing)
      · by_cases same : idem' = idem
        · simp [same] at busy
        · have before := sound.busy idem' (by simpa [same] using busy)
          simpa [same] using before
  | @leaves idem =>
      obtain ⟨_, empty, _⟩ := knows
      refine ⟨⟨sound.atMost, sound.stored, fun idem' free missing => ?_, fun idem' busy => ?_⟩, trivial⟩
      · by_cases same : idem' = idem
        · exact same ▸ empty
        · exact sound.free idem' (by simpa [same] using free) missing
      · by_cases same : idem' = idem
        · simp [same] at busy
        · exact sound.busy idem' (by simpa [same] using busy)

/-- What a request knows stays as long as the key it holds is left alone. -/
theorem Knows.frame (known : Knows shared other)
    (busy : ∀ idem, other.holds = some idem → after.busy idem = shared.busy idem)
    (created : ∀ idem, other.holds = some idem → after.created idem = shared.created idem)
    (settings : ∀ idem task, shared.settings idem = some task → after.settings idem = some task) :
    Knows after other := by
  cases other with
  | idle | gone => trivial
  | failed => exact known
  | answered idem task => exact settings idem task known
  | looked idem =>
      obtain ⟨held, empty, named⟩ := known
      exact ⟨(busy idem rfl).trans held, (created idem rfl).trans empty, named⟩
  | inserted idem task =>
      obtain ⟨held, only, named⟩ := known
      exact ⟨(busy idem rfl).trans held, (created idem rfl).trans only, named⟩

/-- A request that holds a key keeps it busy. -/
theorem Knows.busy (known : Knows shared other) {idem : Utf16} (holds : other.holds = some idem) :
    shared.busy idem = true := by
  cases other with
  | looked | inserted =>
      cases holds
      exact known.1
  | idle | answered | failed | gone => cases holds

theorem Sound.rely (sound : Sound shared) (knows : Knows shared here)
    (known : Knows shared other) (apart : Apart here other) (takes : Takes shared here after here') :
    Knows after other ∧ Apart here' other := by
  cases takes with
  | ends _ => exact ⟨known, fun idem holds => nomatch holds⟩
  | finds _ => exact ⟨known, fun idem holds => nomatch holds⟩
  | @looks idem named quiet none' =>
      have free : ∀ idem', other.holds = some idem' → idem' ≠ idem := by
        rintro idem' holds rfl
        cases quiet.symm.trans (known.busy holds)
      refine ⟨known.frame (fun idem' holds => by simp [free idem' holds]) (fun _ _ => rfl)
        fun _ _ found => found, ?_⟩
      intro idem' holds holds'
      cases holds
      exact free _ holds' rfl
  | @inserts idem task =>
      have free : ∀ idem', other.holds = some idem' → idem ≠ idem' := by
        rintro idem' holds rfl
        exact apart idem rfl holds
      refine ⟨known.frame (fun _ _ => rfl) (fun idem' holds => by simp [free idem' holds])
        fun _ _ found => found, ?_⟩
      intro idem' holds holds'
      cases holds
      exact free _ holds' rfl
  | @stores idem task =>
      have free : ∀ idem', other.holds = some idem' → idem' ≠ idem := by
        rintro idem' holds rfl
        exact apart idem' rfl holds
      have none' := sound.busy idem knows.1
      refine ⟨known.frame (fun idem' holds => by simp [free idem' holds]) (fun _ _ => rfl) ?_,
        fun idem' holds => nomatch holds⟩
      intro idem' task' found
      have different : idem' ≠ idem := by
        rintro rfl
        cases none'.symm.trans found
      simpa [different] using found
  | @leaves idem =>
      have free : ∀ idem', other.holds = some idem' → idem' ≠ idem := by
        rintro idem' holds rfl
        exact apart idem' rfl holds
      exact ⟨known.frame (fun idem' holds => by simp [free idem' holds]) (fun _ _ => rfl)
        fun _ _ found => found, fun idem' holds => nomatch holds⟩

end Step

theorem respects : program.Respects Alone Sound Knows Apart where
  symm apart := fun idem holds holds' => apart idem holds' holds
  guarantee sound knows alone took := sound.takes knows (alone.takes knows took)
  rely sound knows known apart alone took := sound.rely knows known apart (alone.takes knows took)

/-- In every run whose statements all meet the condition, at most one task is created for a key,
and every request with the key that has ended was answered with it. -/
theorem created_once (Id : Type) [DecidableEq Id] (pool : Pool Id Shared Request)
    (reached : Reachable (system Id) (Program.onStatement Alone) pool) (idem : Utf16) :
    Once pool idem := by
  have begins : ∀ shared : Shared, (shared.tasks = [] ∧ (∀ idem, shared.settings idem = none) ∧
      ∀ idem, shared.busy idem = false) → Sound shared ∧ Knows shared program.idle := by
    rintro shared ⟨empty, missing, free⟩
    have none' : ∀ idem, shared.created idem = [] := fun idem => by
      rw [Shared.created, empty]
      rfl
    refine ⟨⟨fun idem => ?_, fun idem task found => ?_, fun idem _ _ => none' idem,
      fun idem _ => missing idem⟩, trivial⟩
    · rw [none' idem]
      exact Nat.zero_le 1
    · rw [missing idem] at found
      contradiction
  have known := Program.Respects.reachable respects begins (fun _ holds => nomatch holds) reached
  refine ⟨known.shared.atMost idem, fun id task answered => ?_, fun id failed => ?_⟩
  · have own := known.each id
    rw [answered] at own
    exact known.shared.stored idem task own
  · have own := known.each id
    rw [failed] at own
    exact own

/-- Nothing is created. -/
def begun : Pool Nat Shared Request := ⟨{}, fun _ => .idle⟩

/-- The key of an example. -/
def key : Utf16 := ofString "idem-key-1"

/-- Two requests one after the other: the second is answered with the task of the first. -/
theorem created_once_again : ∃ pool : Pool Nat Shared Request,
    pool.requests 1 = .answered key 7 ∧ Once pool key := by
  let labels : List (Nat × Event) := [(0, .handleCreateTask key true), (0, .queueTask 7 .made),
    (0, .store true), (1, .handleCreateTask key true)]
  have ends : ((system Nat).exec (Program.onStatement Alone) begun labels).map
      (fun pool => pool.requests 1) = some (.answered key 7) := by
    decide
  obtain ⟨pool, ran, answered⟩ := Option.map_eq_some_iff.1 ends
  exact ⟨pool, answered, created_once Nat pool
    (.of_exec (.start ⟨⟨rfl, fun _ => rfl, fun _ => rfl⟩, fun _ => rfl⟩) ran) key⟩

/-- Two requests that look the key up before either has inserted a task. -/
theorem not_created_once : ¬ ∀ (pool : Pool Nat Shared Request) (idem : Utf16), idem ≠ [] →
    Reachable (system Nat) always pool → Once pool idem := by
  intro claimed
  let labels : List (Nat × Event) := [(0, .handleCreateTask key true),
    (1, .handleCreateTask key true), (0, .queueTask 7 .made), (1, .queueTask 8 .made)]
  have ends : ((system Nat).exec always begun labels).map
      (fun pool => pool.shared.created key) = some [7, 8] := by
    decide
  obtain ⟨pool, ran, created⟩ := Option.map_eq_some_iff.1 ends
  have once := (claimed pool key (by decide)
    (.of_exec (.start ⟨⟨rfl, fun _ => rfl, fun _ => rfl⟩, fun _ => rfl⟩) ran)).atMost
  rw [created] at once
  revert once
  decide

end CreateTask

end TitanRunner
