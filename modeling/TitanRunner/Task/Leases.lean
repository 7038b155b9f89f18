import Mathlib.Tactic.Linarith
import TitanRunner.Lib.Transition
import TitanRunner.Task.Schema

/-!
# Leases

`task/leases.js`: the lock on one task is one file, created exclusively and
replaced by an atomic rename.  Every call of a `LeaseManager` is modelled as the
file operations it makes, one step each, so that the calls of several managers
interleave at that grain.

The system below is about one lease path.  Managers are named by their owner,
share one clock, and run one call at a time.
-/

namespace TitanRunner

open TransitionSystem

/-- Content of a lease path.  A file that does not parse is `torn`; one that was
created exclusively and not yet written carries its writer, whose open descriptor
still points at it. -/
inductive LeaseFile where
  | absent
  | torn (writer : Option String)
  | lease (content : Lease)
  deriving DecidableEq, Repr

/-- `LeaseManager.isExpired` of a parsed lease. -/
def Lease.isExpired (lease : Lease) (now : Time) : Bool :=
  match lease.expiresAt with
  | none => true
  | some expiresAt => decide (expiresAt ≤ now)

theorem Lease.isExpired_mono {lease : Lease} {now later : Time}
    (expired : lease.isExpired now = true) (order : now ≤ later) :
    lease.isExpired later = true := by
  unfold Lease.isExpired at *
  cases expiry : lease.expiresAt with
  | none => rfl
  | some expiresAt =>
      simp only [expiry, decide_eq_true_eq] at expired ⊢
      exact expired.trans order

/-- `LeaseManager.read`: a torn file is treated as no lease. -/
def LeaseFile.read : LeaseFile → Option Lease
  | .lease content => some content
  | _ => none

/-- The test `existing && !isExpired(existing) && existing.owner !== this.owner`
that `acquire`, `renew` and `release` share. -/
def LeaseFile.heldByOther (file : LeaseFile) (owner : String) (now : Time) : Bool :=
  match file.read with
  | none => false
  | some existing => !existing.isExpired now && existing.owner != owner

theorem LeaseFile.heldByOther_eq_false {file : LeaseFile} {owner : String} {now : Time}
    (free : file.heldByOther owner now = false) {content : Lease}
    (present : file = .lease content) :
    content.owner = owner ∨ content.isExpired now = true := by
  subst present
  simp only [heldByOther, read, Bool.and_eq_false_iff, Bool.not_eq_eq_eq_not,
    Bool.not_false, bne_eq_false_iff_eq] at free
  exact free.symm

namespace LeaseManager

/-- Where a manager stands in its current call.  `seen` is the file content the
call has read. -/
inductive Call where
  | idle
  | acquireCreate (lease : Lease)
  | acquireWrite (lease : Lease)
  | acquireRead (lease : Lease)
  | acquireTmp (lease : Lease) (seen : LeaseFile)
  | acquireRename (lease : Lease) (seen : LeaseFile)
  | renewRead
  | renewTmp (lease : Lease) (seen : LeaseFile)
  | renewRename (lease : Lease) (seen : LeaseFile)
  | releaseRead
  | releaseExists (seen : LeaseFile)
  | releaseUnlink (seen : LeaseFile)
  deriving DecidableEq, Repr

/-- One lease path, the clock, and the managers.  `granted` is the expiry of the
lease an owner was last told it holds: set when `acquire` answers ok, moved by
`renew`, given up by `release`. -/
structure World where
  file : LeaseFile
  now : Time
  call : String → Call
  granted : String → Option Time

inductive Method where
  | acquire | renew | release
  deriving DecidableEq, Repr

inductive Label where
  | tick (elapsed : Nat)
  | begin (owner : String) (method : Method)
  | operate (owner : String)
  deriving DecidableEq, Repr

namespace World

def setCall (world : World) (owner : String) (call : Call) : World :=
  { world with call := fun query => if query = owner then call else world.call query }

def setGranted (world : World) (owner : String) (granted : Option Time) : World :=
  { world with
    granted := fun query => if query = owner then granted else world.granted query }

@[simp] theorem setCall_file (world : World) (owner : String) (call : Call) :
    (world.setCall owner call).file = world.file := rfl

@[simp] theorem setCall_now (world : World) (owner : String) (call : Call) :
    (world.setCall owner call).now = world.now := rfl

@[simp] theorem setCall_granted (world : World) (owner : String) (call : Call) :
    (world.setCall owner call).granted = world.granted := rfl

@[simp] theorem setCall_call (world : World) (owner query : String) (call : Call) :
    (world.setCall owner call).call query =
      if query = owner then call else world.call query := rfl

@[simp] theorem setGranted_file (world : World) (owner : String) (granted : Option Time) :
    (world.setGranted owner granted).file = world.file := rfl

@[simp] theorem setGranted_now (world : World) (owner : String) (granted : Option Time) :
    (world.setGranted owner granted).now = world.now := rfl

@[simp] theorem setGranted_call (world : World) (owner : String) (granted : Option Time) :
    (world.setGranted owner granted).call = world.call := rfl

@[simp] theorem setGranted_granted (world : World) (owner query : String)
    (granted : Option Time) :
    (world.setGranted owner granted).granted query =
      if query = owner then granted else world.granted query := rfl

end World

/-- A lease of `owner` from `now` on, for the manager's time to live. -/
def freshLease (ttlMs : String → Int) (owner : String) (now : Time) : Lease :=
  { owner, acquiredAt := some now, expiresAt := some (now + ttlMs owner) }

/-- The lease `renew` writes: a renewal of one's own lease keeps its start. -/
def renewedLease (ttlMs : String → Int) (owner : String) (now : Time)
    (file : LeaseFile) : Lease :=
  match file.read with
  | some existing =>
      if existing.owner = owner then
        { freshLease ttlMs owner now with acquiredAt := existing.acquiredAt }
      else freshLease ttlMs owner now
  | none => freshLease ttlMs owner now

/-- A call starts.  `acquire` fixes its lease text before it touches the file;
a caller of `release` has given the lease up. -/
def begin (ttlMs : String → Int) (world : World) (owner : String) : Method → World
  | .acquire => world.setCall owner (.acquireCreate (freshLease ttlMs owner world.now))
  | .renew => world.setCall owner .renewRead
  | .release => (world.setGranted owner none).setCall owner .releaseRead

/-- The next file operation of the owner's call. -/
def operate (ttlMs : String → Int) (world : World) (owner : String) : Option World :=
  match world.call owner with
  | .idle => none
  -- writeFileSync(path, text, { flag: 'wx' }) opens, then writes
  | .acquireCreate lease =>
      if world.file = .absent then
        some ({ world with file := .torn (some owner) }.setCall owner (.acquireWrite lease))
      else some (world.setCall owner (.acquireRead lease))
  | .acquireWrite lease =>
      -- the write lands in the path only while the path still names that inode
      let file := if world.file = .torn (some owner) then .lease lease else world.file
      some (({ world with file }.setGranted owner lease.expiresAt).setCall owner .idle)
  | .acquireRead lease =>
      if world.file.heldByOther owner world.now then some (world.setCall owner .idle)
      else some (world.setCall owner (.acquireTmp lease world.file))
  | .acquireTmp lease seen => some (world.setCall owner (.acquireRename lease seen))
  | .acquireRename lease _ =>
      some (({ world with file := .lease lease }.setGranted owner lease.expiresAt).setCall
        owner .idle)
  | .renewRead =>
      if world.file.heldByOther owner world.now then some (world.setCall owner .idle)
      else some (world.setCall owner
        (.renewTmp (renewedLease ttlMs owner world.now world.file) world.file))
  | .renewTmp lease seen => some (world.setCall owner (.renewRename lease seen))
  | .renewRename lease _ =>
      let granted := if (world.granted owner).isSome then lease.expiresAt else none
      some (({ world with file := .lease lease }.setGranted owner granted).setCall owner .idle)
  | .releaseRead =>
      if world.file.heldByOther owner world.now then some (world.setCall owner .idle)
      else some (world.setCall owner (.releaseExists world.file))
  | .releaseExists seen =>
      if world.file = .absent then some (world.setCall owner .idle)
      else some (world.setCall owner (.releaseUnlink seen))
  | .releaseUnlink _ => some ({ world with file := .absent }.setCall owner .idle)

def next (ttlMs : String → Int) (world : World) : Label → Option World
  | .tick elapsed => some { world with now := world.now + elapsed }
  | .begin owner method =>
      if world.call owner = .idle then some (begin ttlMs world owner method) else none
  | .operate owner => operate ttlMs world owner

/-- Any number of managers, all idle and none holding a lease, over any lease file
left behind by earlier processes. -/
def system (ttlMs : String → Int) : System World Label where
  start := fun world =>
    (∀ owner, world.call owner = .idle) ∧ (∀ owner, world.granted owner = none) ∧
      ∀ writer, world.file ≠ .torn (some writer)
  next := next ttlMs

/-- The owner was told ok by `acquire`, has not given the lease up, and its
validity has not run out. -/
def Holds (world : World) (owner : String) : Prop :=
  ∃ expiresAt, world.granted owner = some expiresAt ∧ world.now < expiresAt

/-- No two owners hold the lease at the same time. -/
def MutualExclusion (world : World) : Prop :=
  ∀ left right, Holds world left → Holds world right → left = right

/-! ## When the operations of two calls do not cross -/

/-- The file is not in the window between an exclusive create and its write. -/
def NotBeingWritten (file : LeaseFile) : Prop :=
  ∀ writer, file ≠ .torn (some writer)

instance (file : LeaseFile) : Decidable (NotBeingWritten file) :=
  match file with
  | .absent => isTrue fun _ equal => nomatch equal
  | .lease _ => isTrue fun _ equal => nomatch equal
  | .torn none => isTrue fun _ equal => nomatch equal
  | .torn (some writer) => isFalse fun every => every writer rfl

/-- The side condition on a file operation: nobody reads a file that is being
written, and a rename or an unlink finds the file as its own call read it. -/
def Uncrossed (world : World) : Label → Prop
  | .operate owner =>
      match world.call owner with
      | .acquireRead _ | .renewRead | .releaseRead => NotBeingWritten world.file
      | .acquireRename _ seen | .renewRename _ seen | .releaseUnlink seen =>
          world.file = seen
      | _ => True
  | _ => True

instance (world : World) (label : Label) : Decidable (Uncrossed world label) := by
  cases label with
  | operate owner =>
      simp only [Uncrossed]
      split <;> infer_instance
  | _ => exact inferInstanceAs (Decidable True)

/-- What a call has established about the file it is about to replace or remove:
it held no live lease of another owner, and nobody was writing it. -/
def Replaceable (owner : String) (now : Time) (seen : LeaseFile) : Prop :=
  (∀ content, seen = .lease content →
    content.owner = owner ∨ content.isExpired now = true) ∧ NotBeingWritten seen

theorem Replaceable.later {owner : String} {now later : Time} {seen : LeaseFile}
    (replaceable : Replaceable owner now seen) (order : now ≤ later) :
    Replaceable owner later seen := by
  refine ⟨fun content equal => ?_, replaceable.2⟩
  exact (replaceable.1 content equal).imp_right fun expired =>
    Lease.isExpired_mono expired order

/-- What the program position of a manager says about the world. -/
def CallOk (world : World) (owner : String) : Call → Prop
  | .idle | .renewRead => True
  | .acquireCreate lease | .acquireRead lease => lease.owner = owner
  | .acquireWrite lease => lease.owner = owner ∧ world.file = .torn (some owner)
  | .acquireTmp lease seen | .acquireRename lease seen
  | .renewTmp lease seen | .renewRename lease seen =>
      lease.owner = owner ∧ Replaceable owner world.now seen
  | .releaseRead => world.granted owner = none
  | .releaseExists seen | .releaseUnlink seen =>
      world.granted owner = none ∧ Replaceable owner world.now seen

/-- The file names the owner as holder at least until `expiresAt`. -/
def Covers (file : LeaseFile) (owner : String) (expiresAt : Time) : Prop :=
  ∃ content until', file = .lease content ∧ content.owner = owner ∧
    content.expiresAt = some until' ∧ expiresAt ≤ until'

/-- The invariant of uncrossed runs. -/
structure Inv (world : World) : Prop where
  /-- every live grant is backed by the file -/
  backed : ∀ owner expiresAt, world.granted owner = some expiresAt →
    world.now < expiresAt → Covers world.file owner expiresAt
  calls : ∀ owner, CallOk world owner (world.call owner)

theorem Inv.mutualExclusion {world : World} (inv : Inv world) :
    MutualExclusion world := by
  rintro left right ⟨leftExpiry, leftGranted, leftLive⟩ ⟨rightExpiry, rightGranted, rightLive⟩
  obtain ⟨content, _, fileEq, leftOwner, _⟩ := inv.backed left leftExpiry leftGranted leftLive
  obtain ⟨content', _, fileEq', rightOwner, _⟩ :=
    inv.backed right rightExpiry rightGranted rightLive
  have contentEq : content = content' := by
    rw [fileEq] at fileEq'
    exact LeaseFile.lease.inj fileEq'
  rw [← leftOwner, ← rightOwner, contentEq]

/-- A file that a call may replace backs no live grant of anybody else. -/
theorem Replaceable.not_covers {world : World} {owner other : String} {expiresAt : Time}
    (replaceable : Replaceable owner world.now world.file) (different : other ≠ owner)
    (live : world.now < expiresAt) : ¬Covers world.file other expiresAt := by
  rintro ⟨content, until', fileEq, ownerEq, expiryEq, order⟩
  rcases replaceable.1 content fileEq with same | expired
  · exact different (ownerEq.symm.trans same)
  · simp only [Lease.isExpired, expiryEq, decide_eq_true_eq] at expired
    linarith

theorem renewedLease_owner (ttlMs : String → Int) (owner : String) (now : Time)
    (file : LeaseFile) : (renewedLease ttlMs owner now file).owner = owner := by
  unfold renewedLease
  split
  · split <;> rfl
  · rfl

theorem replaceable_of_read {owner : String} {now : Time} {file : LeaseFile}
    (free : file.heldByOther owner now = false) (written : NotBeingWritten file) :
    Replaceable owner now file :=
  ⟨fun _ present => LeaseFile.heldByOther_eq_false free present, written⟩

/-- A manager's position stays in order when only the clock moves on. -/
theorem CallOk.later {world : World} {owner : String} {later : Time} {call : Call}
    (ok : CallOk world owner call) (order : world.now ≤ later) :
    CallOk { world with now := later } owner call := by
  cases call with
  | acquireTmp | acquireRename | renewTmp | renewRename =>
      exact ⟨ok.1, ok.2.later order⟩
  | releaseExists | releaseUnlink => exact ⟨ok.1, ok.2.later order⟩
  | _ => exact ok

/-- A manager's position stays in order when another manager moves the file,
unless the position owns the file being written. -/
theorem CallOk.other {world world' : World} {owner : String} {call : Call}
    (ok : CallOk world owner call) (nowEq : world'.now = world.now)
    (grantedEq : world'.granted owner = world.granted owner)
    (fileOk : world.file = .torn (some owner) → world'.file = world.file) :
    CallOk world' owner call := by
  cases call with
  | acquireWrite lease => exact ⟨ok.1, (fileOk ok.2).trans ok.2⟩
  | acquireTmp | acquireRename | renewTmp | renewRename =>
      exact ⟨ok.1, nowEq ▸ ok.2⟩
  | releaseRead => exact grantedEq.trans ok
  | releaseExists | releaseUnlink => exact ⟨grantedEq.trans ok.1, nowEq ▸ ok.2⟩
  | idle | acquireCreate | acquireRead | renewRead => exact ok

/-- One file operation of `owner` keeps the invariant if it leaves the live grants
of the others backed, backs its own, and leaves a file that another manager is
writing alone. -/
theorem Inv.of_operation {world world' : World} (inv : Inv world) (owner : String)
    (nowEq : world'.now = world.now)
    (callEq : ∀ other, other ≠ owner → world'.call other = world.call other)
    (grantedEq : ∀ other, other ≠ owner → world'.granted other = world.granted other)
    (othersBacked : ∀ other expiresAt, other ≠ owner → world.now < expiresAt →
      Covers world.file other expiresAt → Covers world'.file other expiresAt)
    (ownBacked : ∀ expiresAt, world'.granted owner = some expiresAt →
      world.now < expiresAt → Covers world'.file owner expiresAt)
    (writersKept : ∀ other, other ≠ owner → world.file = .torn (some other) →
      world'.file = world.file)
    (ownCall : CallOk world' owner (world'.call owner)) : Inv world' := by
  constructor
  · intro other expiresAt granted live
    rw [nowEq] at live
    by_cases same : other = owner
    · subst same
      exact ownBacked expiresAt granted live
    · rw [grantedEq other same] at granted
      exact othersBacked other expiresAt same live (inv.backed other expiresAt granted live)
  · intro other
    by_cases same : other = owner
    · exact same ▸ ownCall
    · rw [callEq other same]
      exact (inv.calls other).other nowEq (grantedEq other same) (writersKept other same)

/-- An operation that only moves its owner's program position. -/
theorem Inv.setCall {world : World} {owner : String} {call : Call} (inv : Inv world)
    (ok : CallOk world owner call) : Inv (world.setCall owner call) := by
  apply inv.of_operation owner
  · rfl
  · intro other different
    simp [different]
  · intro other _
    rfl
  · intro _ _ _ _ covered
    exact covered
  · exact fun expiresAt granted live => inv.backed owner expiresAt granted live
  · intro _ _ _
    rfl
  · simp only [World.setCall_call, if_true]
    exact ok.other rfl rfl fun _ => rfl

/-- A rename that puts a lease of `owner` over a replaceable file. -/
theorem Inv.rename {world : World} {owner : String} {lease : Lease}
    {granted : Option Time} (inv : Inv world) (ownerEq : lease.owner = owner)
    (replaceable : Replaceable owner world.now world.file)
    (grantedEq : granted = lease.expiresAt ∨ granted = none) :
    Inv (({ world with file := .lease lease }.setGranted owner granted).setCall
      owner .idle) := by
  apply inv.of_operation owner
  · rfl
  · intro other different
    simp [different]
  · intro other different
    simp [different]
  · intro other expiresAt different live covered
    exact absurd covered (replaceable.not_covers different live)
  · intro expiresAt grantedOwn _
    simp only [World.setCall_granted, World.setGranted_granted, if_true] at grantedOwn
    rcases grantedEq with same | gone
    · exact ⟨lease, expiresAt, rfl, ownerEq, same.symm.trans grantedOwn, le_rfl⟩
    · rw [gone] at grantedOwn
      contradiction
  · intro other _ written
    exact absurd written (replaceable.2 other)
  · simp [CallOk]

theorem Inv.create {world : World} {owner : String} {lease : Lease} (inv : Inv world)
    (absent : world.file = .absent) (ownerEq : lease.owner = owner) :
    Inv ({ world with file := .torn (some owner) }.setCall owner (.acquireWrite lease)) := by
  have uncovered : ∀ other expiresAt, ¬Covers world.file other expiresAt := by
    rintro other expiresAt ⟨content, _, fileEq, _⟩
    rw [absent] at fileEq
    contradiction
  apply inv.of_operation owner
  · rfl
  · intro other different
    simp [different]
  · intro other _
    rfl
  · intro other expiresAt _ _ covered
    exact absurd covered (uncovered other expiresAt)
  · intro expiresAt granted live
    exact absurd (inv.backed owner expiresAt granted live) (uncovered owner expiresAt)
  · intro other _ written
    rw [absent] at written
    contradiction
  · simp [CallOk, ownerEq]

theorem Inv.write {world : World} {owner : String} {lease : Lease} (inv : Inv world)
    (writing : world.file = .torn (some owner)) (ownerEq : lease.owner = owner) :
    Inv (({ world with file := .lease lease }.setGranted owner lease.expiresAt).setCall
      owner .idle) := by
  apply inv.of_operation owner
  · rfl
  · intro other different
    simp [different]
  · intro other different
    simp [different]
  · rintro other expiresAt _ _ ⟨content, _, fileEq, _⟩
    rw [writing] at fileEq
    contradiction
  · intro expiresAt granted _
    simp only [World.setCall_granted, World.setGranted_granted, if_true] at granted
    exact ⟨lease, expiresAt, rfl, ownerEq, granted, le_rfl⟩
  · intro other different written
    rw [writing] at written
    simp only [LeaseFile.torn.injEq, Option.some.injEq] at written
    exact absurd written.symm different
  · simp [CallOk]

theorem Inv.unlink {world : World} {owner : String} (inv : Inv world)
    (notGranted : world.granted owner = none)
    (replaceable : Replaceable owner world.now world.file) :
    Inv ({ world with file := .absent }.setCall owner .idle) := by
  apply inv.of_operation owner
  · rfl
  · intro other different
    simp [different]
  · intro other _
    rfl
  · intro other expiresAt different live covered
    exact absurd covered (replaceable.not_covers different live)
  · intro expiresAt granted _
    exact absurd (notGranted.symm.trans granted) (by simp)
  · intro other _ written
    exact absurd written (replaceable.2 other)
  · simp [CallOk]

/-- Every uncrossed file operation keeps the invariant. -/
theorem Inv.operate {ttlMs : String → Int} {world after : World} {owner : String}
    (inv : Inv world) (uncrossed : Uncrossed world (.operate owner))
    (stepped : LeaseManager.operate ttlMs world owner = some after) : Inv after := by
  have ok := inv.calls owner
  simp only [Uncrossed] at uncrossed
  unfold LeaseManager.operate at stepped
  cases position : world.call owner with
  | idle => simp [position] at stepped
  | acquireCreate lease =>
      simp only [position, CallOk] at ok stepped
      split at stepped <;> cases stepped
      next absent => exact inv.create absent ok
      next => exact inv.setCall ok
  | acquireWrite lease =>
      simp only [position, CallOk] at ok stepped
      simp only [ok.2, if_true, Option.some.injEq] at stepped
      exact stepped ▸ inv.write ok.2 ok.1
  | acquireRead lease =>
      simp only [position, CallOk] at ok stepped uncrossed
      split at stepped <;> cases stepped
      next => exact inv.setCall trivial
      next free =>
        exact inv.setCall ⟨ok, replaceable_of_read (by simpa using free) uncrossed⟩
  | acquireTmp lease seen =>
      simp only [position, CallOk] at ok stepped
      cases stepped
      exact inv.setCall ok
  | acquireRename lease seen =>
      simp only [position, CallOk] at ok stepped uncrossed
      cases stepped
      exact inv.rename ok.1 (uncrossed ▸ ok.2) (.inl rfl)
  | renewRead =>
      simp only [position] at stepped uncrossed
      split at stepped <;> cases stepped
      next => exact inv.setCall trivial
      next free =>
        exact inv.setCall ⟨renewedLease_owner ..,
          replaceable_of_read (by simpa using free) uncrossed⟩
  | renewTmp lease seen =>
      simp only [position, CallOk] at ok stepped
      cases stepped
      exact inv.setCall ok
  | renewRename lease seen =>
      simp only [position, CallOk] at ok stepped uncrossed
      cases stepped
      refine inv.rename ok.1 (uncrossed ▸ ok.2) ?_
      split
      · exact .inl rfl
      · exact .inr rfl
  | releaseRead =>
      simp only [position, CallOk] at ok stepped uncrossed
      split at stepped <;> cases stepped
      next => exact inv.setCall trivial
      next free =>
        exact inv.setCall ⟨ok, replaceable_of_read (by simpa using free) uncrossed⟩
  | releaseExists seen =>
      simp only [position, CallOk] at ok stepped
      split at stepped <;> cases stepped
      next => exact inv.setCall trivial
      next => exact inv.setCall ok
  | releaseUnlink seen =>
      simp only [position, CallOk] at ok stepped uncrossed
      cases stepped
      exact inv.unlink ok.1 (uncrossed ▸ ok.2)

theorem Inv.begin {ttlMs : String → Int} {world : World} {owner : String}
    {method : Method} (inv : Inv world) :
    Inv (LeaseManager.begin ttlMs world owner method) := by
  cases method with
  | acquire => exact inv.setCall rfl
  | renew => exact inv.setCall trivial
  | release =>
      have givenUp : Inv (world.setGranted owner none) := by
        constructor
        · intro other expiresAt granted live
          simp only [World.setGranted_granted] at granted
          split at granted
          · contradiction
          · exact inv.backed other expiresAt granted live
        · intro other
          have ok := inv.calls other
          rw [World.setGranted_call]
          cases position : world.call other with
          | releaseRead | releaseExists | releaseUnlink =>
              simp only [position, CallOk] at ok
              simp [CallOk, ok]
          | _ =>
              rw [position] at ok
              exact ok
      exact givenUp.setCall (by simp [CallOk])

theorem Inv.tick {world : World} (inv : Inv world) (elapsed : Nat) :
    Inv { world with now := world.now + elapsed } := by
  have order : world.now ≤ world.now + elapsed := by linarith
  constructor
  · intro owner expiresAt granted live
    exact inv.backed owner expiresAt granted (order.trans_lt live)
  · exact fun owner => (inv.calls owner).later order

theorem Inv.next {ttlMs : String → Int} {world after : World} {label : Label}
    (inv : Inv world) (uncrossed : Uncrossed world label)
    (stepped : LeaseManager.next ttlMs world label = some after) : Inv after := by
  cases label with
  | tick elapsed =>
      cases stepped
      exact inv.tick elapsed
  | begin owner method =>
      simp only [LeaseManager.next] at stepped
      split at stepped
      · cases stepped
        exact inv.begin
      · contradiction
  | operate owner => exact inv.operate uncrossed stepped

theorem inv_of_reachable {ttlMs : String → Int} {world : World}
    (reachable : (system ttlMs).Reachable Uncrossed world) : Inv world := by
  refine reachable.invariant _ ?_ ?_
  · rintro world ⟨idle, notGranted, _⟩
    constructor
    · intro owner expiresAt granted
      simp [notGranted owner] at granted
    · intro owner
      simp [idle owner, CallOk]
  · intro _ _ _ _ inv uncrossed stepped
    exact inv.next uncrossed stepped

/-- Lease mutual exclusion, in every run whose calls do not cross: from any lease
file, and for any number of managers with any times to live. -/
theorem mutualExclusion_of_uncrossed (ttlMs : String → Int) (world : World)
    (reachable : (system ttlMs).Reachable Uncrossed world) : MutualExclusion world :=
  (inv_of_reachable reachable).mutualExclusion

/-- A lease file left behind by a pulse that died, already expired. -/
def expiredStart : World where
  file := .lease { owner := "dead", acquiredAt := some 0, expiresAt := some 10 }
  now := 20
  call := fun _ => .idle
  granted := fun _ => none

/-- Two takeovers whose reads both come before either rename. -/
def takeoverRace : List Label :=
  [.begin "a" .acquire, .begin "b" .acquire, .operate "a", .operate "b",
    .operate "a", .operate "b", .operate "a", .operate "b", .operate "a", .operate "b"]

/-- Without the side condition two owners are told ok for the same expired lease. -/
theorem not_mutualExclusion :
    ¬∀ (ttlMs : String → Int) (world : World),
      (system ttlMs).Reachable System.always world → MutualExclusion world := by
  intro every
  have raced : ∃ after,
      (system fun _ => 1000).exec System.always expiredStart takeoverRace = some after ∧
        after.granted "a" = some 1020 ∧ after.granted "b" = some 1020 ∧ after.now = 20 :=
    ⟨_, rfl, rfl, rfl, rfl⟩
  obtain ⟨after, ran, grantedLeft, grantedRight, nowEq⟩ := raced
  have started : (system fun _ => 1000).start expiredStart :=
    ⟨fun _ => rfl, fun _ => rfl, fun _ => by simp [expiredStart]⟩
  have exclusive := every _ after (System.Reachable.of_exec (.start started) ran)
  have live : after.now < 1020 := by rw [nowEq]; decide
  exact absurd (exclusive "a" "b" ⟨1020, grantedLeft, live⟩ ⟨1020, grantedRight, live⟩)
    (by decide)

/-- A takeover that is not crossed: the expired lease goes to one owner, and the
next caller is refused. -/
def takeover : List Label :=
  [.begin "a" .acquire, .operate "a", .operate "a", .operate "a", .operate "a",
    .begin "b" .acquire, .operate "b", .operate "b"]

theorem mutualExclusion_of_uncrossed_takeover :
    ∃ after, (system fun _ => 1000).exec Uncrossed expiredStart takeover = some after ∧
      Holds after "a" ∧ after.call "b" = .idle ∧ MutualExclusion after := by
  have started : (system fun _ => 1000).start expiredStart :=
    ⟨fun _ => rfl, fun _ => rfl, fun _ => by simp [expiredStart]⟩
  have ran : ∃ after,
      (system fun _ => 1000).exec Uncrossed expiredStart takeover = some after ∧
        after.granted "a" = some 1020 ∧ after.now = 20 ∧ after.call "b" = .idle :=
    ⟨_, rfl, rfl, rfl, rfl⟩
  obtain ⟨after, ran, granted, nowEq, idle⟩ := ran
  refine ⟨after, ran, ⟨1020, granted, by rw [nowEq]; decide⟩, idle, ?_⟩
  exact mutualExclusion_of_uncrossed (fun _ => 1000) after
    (System.Reachable.of_exec (.start started) ran)

end LeaseManager

end TitanRunner
