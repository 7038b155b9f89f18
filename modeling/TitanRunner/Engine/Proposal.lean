import Mathlib.Data.List.TakeWhile
import TitanRunner.Engine.Checkpointer

/-!
# A self-improvement attempt in the checkout

`proposeSelfImprovement` of `selfImprove.js`: the proposed files are written, staged,
committed and pushed on a branch of their own, and whatever happens the original branch is
checked out at the end.  What the jail, the reviewer, git and GitHub answer is the world the
attempt runs in.
-/

namespace TitanRunner

namespace Proposal

open FileTree Checkpointer

variable {Path Content : Type}

/-- A checkout: the branches, the one that is checked out, the index and the working tree. -/
structure Checkout (Path Content : Type) where
  branch : String
  tips : String → Option (Tree Path Content)
  index : Tree Path Content
  work : Tree Path Content
  born : (tips branch).isSome = true

namespace Checkout

/-- The commit the branch is at. -/
def head (checkout : Checkout Path Content) : Tree Path Content :=
  (checkout.tips checkout.branch).get checkout.born

/-- What the checkpointer sees of the checkout. -/
def repo (checkout : Checkout Path Content) : Repo Path Content where
  head := checkout.head
  index := checkout.index
  work := checkout.work

/-- A branch set to a commit, and checked out. -/
def setTip (checkout : Checkout Path Content) (branch : String) (tree : Tree Path Content) :
    Checkout Path Content where
  branch
  tips := fun name => if name = branch then some tree else checkout.tips name
  index := checkout.index
  work := checkout.work
  born := by simp

/-- `git checkout -b <branch>`, of a branch that does not exist. -/
def createBranch (checkout : Checkout Path Content) (branch : String) :
    Option (Checkout Path Content) :=
  if (checkout.tips branch).isSome then none else some (checkout.setTip branch checkout.head)

/-- `git commit`, on the branch that is checked out. -/
def commit (checkout : Checkout Path Content) : Checkout Path Content :=
  checkout.setTip checkout.branch checkout.index

section Switch

variable [DecidableEq Content]

/-- Git leaves a path alone when both commits agree on it, or the index has what the target
has. -/
def keeps (checkout : Checkout Path Content) (target : Tree Path Content) (path : Path) : Bool :=
  decide (target path = checkout.head path) || decide (checkout.index path = target path)

/-- A change that switching to the target would lose. -/
def conflicts (checkout : Checkout Path Content) (target : Tree Path Content) (path : Path) :
    Bool :=
  !checkout.keeps target path &&
    !(decide (checkout.index path = checkout.head path) &&
      decide (checkout.work path = checkout.index path))

/-- `git checkout <branch>`, over the files git looks at: staged and modified files are
carried over, and nothing happens if one of them conflicts. -/
def switch (paths : List Path) (checkout : Checkout Path Content) (branch : String) :
    Checkout Path Content :=
  if known : (checkout.tips branch).isSome = true then
    let target := (checkout.tips branch).get known
    if paths.any (checkout.conflicts target) then checkout
    else
      { branch, tips := checkout.tips
        index := fun path => if checkout.keeps target path then checkout.index path else target path
        work := fun path => if checkout.keeps target path then checkout.work path else target path
        born := known }
  else checkout

end Switch

section Write

variable [DecidableEq Path]

/-- `writeFileSync`. -/
def write (checkout : Checkout Path Content) (path : Path) (content : Content) :
    Checkout Path Content :=
  { checkout with work := fun other => if other = path then some content else checkout.work other }

/-- `git add -- <paths>`. -/
def add (checkout : Checkout Path Content) (added : Path → Bool) : Checkout Path Content :=
  { checkout with index := splice added checkout.work checkout.index }

end Write

end Checkout

inductive CommitError where
  | nothingStaged | outsideRoots | secret | commitFailed
  deriving DecidableEq, Repr

section Gate

variable [DecidableEq Content]

/-- The checks of `gatedCommit`.  `secret` is the verdict of `findSecretsInDiff` on what is
staged, and `commits` whether git makes the commit. -/
def gatedCommit (paths : List Path) (roots : Option (Path → Bool))
    (secret : Tree Path Content → Tree Path Content → Bool) (commits : Bool)
    (repo : Repo Path Content) : Except CommitError Unit :=
  let staged := paths.filter fun path => repo.index path ≠ repo.head path
  if staged.isEmpty then .error .nothingStaged
  else if roots.any fun inRoots => staged.any fun path => !inRoots path then .error .outsideRoots
  else if secret repo.head repo.index then .error .secret
  else if commits = false then .error .commitFailed
  else .ok ()

end Gate

/-- A file of the synthesis. -/
structure ProposedFile (Path Content : Type) where
  path : Path
  content : Content
  conflict : Bool := false

/-- What the code around an attempt answers. -/
structure World (Path Content : Type) where
  /-- `isDenylisted`. -/
  denied : Path → Bool
  /-- `checkRepoRelativePath`, before the branch is created. -/
  writable : Path → Bool
  /-- `reviewAction` blocks. -/
  blocks : Bool
  /-- The gate and git make the branch. -/
  branches : Bool
  /-- `checkRepoRelativePath`, at write time, and the write itself. -/
  jail : Path → Bool
  /-- `git add`: `none` if it goes through, and what it staged if it fails. -/
  adds : Option (Path → Bool)
  secret : Tree Path Content → Tree Path Content → Bool
  commits : Bool
  pushes : Bool
  /-- GitHub opens the pull request. -/
  opens : Bool

/-- Where an attempt throws. -/
inductive Stage where
  | branch | write | add
  | commit (error : CommitError)
  | push | pullRequest
  deriving DecidableEq, Repr

inductive Outcome where
  | noChanges | refused | blocked | prOpen
  | threw (stage : Stage)
  deriving DecidableEq, Repr

section Propose

variable [DecidableEq Path] [DecidableEq Content]

/-- The loop over the files: each is checked again, then written. -/
def writeFiles (jail : Path → Bool) : List (ProposedFile Path Content) →
    Checkout Path Content → Checkout Path Content × Bool
  | [], checkout => (checkout, true)
  | file :: rest, checkout =>
      if jail file.path then writeFiles jail rest (checkout.write file.path file.content)
      else (checkout, false)

/-- `files.map((f) => f.path)`, as a test. -/
def listed (files : List (ProposedFile Path Content)) (path : Path) : Bool :=
  files.any fun file => file.path = path

/-- The body of the `try`. -/
def attempt (paths : List Path) (world : World Path Content) (branch : String)
    (files : List (ProposedFile Path Content)) (checkout : Checkout Path Content) :
    Checkout Path Content × Outcome :=
  match (if world.branches then checkout.createBranch branch else none) with
  | none => (checkout, .threw .branch)
  | some checkout =>
      let (checkout, allWritten) := writeFiles world.jail files checkout
      if allWritten = false then (checkout, .threw .write)
      else
        match world.adds with
        | some selected =>
            (checkout.add fun path => listed files path && selected path, .threw .add)
        | none =>
            let checkout := checkout.add (listed files)
            match gatedCommit paths none world.secret world.commits checkout.repo with
            | .error error => (checkout, .threw (.commit error))
            | .ok () =>
                let checkout := checkout.commit
                if world.pushes = false then (checkout, .threw .push)
                else if world.opens = false then (checkout, .threw .pullRequest)
                else (checkout, .prOpen)

/-- `proposeSelfImprovement`. -/
def proposeSelfImprovement (paths : List Path) (world : World Path Content) (branch : String)
    (files : List (ProposedFile Path Content)) (checkout : Checkout Path Content) :
    Checkout Path Content × Outcome :=
  let files := files.filter fun file => !file.conflict
  if files.isEmpty then (checkout, .noChanges)
  else if files.any fun file => world.denied file.path then (checkout, .refused)
  else if files.any fun file => !world.writable file.path then (checkout, .refused)
  else if world.blocks then (checkout, .blocked)
  else
    let (after, outcome) := attempt paths world branch files checkout
    (after.switch paths checkout.branch, outcome)

end Propose

/-! ## What git carries over -/

namespace Checkout

@[simp] theorem head_setTip (checkout : Checkout Path Content) (branch : String)
    (tree : Tree Path Content) : (checkout.setTip branch tree).head = tree := by
  simp [head, setTip]

theorem tips_head (checkout : Checkout Path Content) :
    checkout.tips checkout.branch = some checkout.head := by
  simp [head]

theorem tips_setTip_of_ne (checkout : Checkout Path Content) {branch other : String}
    (apart : other ≠ branch) (tree : Tree Path Content) :
    (checkout.setTip branch tree).tips other = checkout.tips other := by
  simp [setTip, apart]

variable [DecidableEq Content]

/-- Switching between branches at one commit changes neither index nor working tree. -/
theorem switch_of_same_tip (paths : List Path) (checkout : Checkout Path Content)
    {branch : String} (same : checkout.tips branch = some checkout.head) :
    (checkout.switch paths branch).branch = branch ∧
      (checkout.switch paths branch).tips = checkout.tips ∧
      (checkout.switch paths branch).index = checkout.index ∧
      (checkout.switch paths branch).work = checkout.work := by
  have known : (checkout.tips branch).isSome = true := by
    rw [same]
    rfl
  have target : (checkout.tips branch).get known = checkout.head := by
    simp [same]
  have keeps : ∀ path, checkout.keeps checkout.head path = true := by
    intro path
    simp [Checkout.keeps]
  have quiet : paths.any (checkout.conflicts checkout.head) = false := by
    apply List.any_eq_false.2
    intro path _
    simp [Checkout.conflicts, keeps]
  rw [switch, dif_pos known]
  simp [target, quiet, keeps]

/-- Switching to another commit: with a conflict nothing happens, otherwise each path is
carried over or taken from the target. -/
theorem switch_eq (paths : List Path) (checkout : Checkout Path Content) {branch : String}
    {target : Tree Path Content} (tip : checkout.tips branch = some target) :
    if paths.any (checkout.conflicts target) then
      checkout.switch paths branch = checkout
    else
      (checkout.switch paths branch).branch = branch ∧
        (checkout.switch paths branch).tips = checkout.tips ∧
        ∀ path,
          (checkout.switch paths branch).index path =
              (if checkout.keeps target path then checkout.index path else target path) ∧
            (checkout.switch paths branch).work path =
              (if checkout.keeps target path then checkout.work path else target path) := by
  have known : (checkout.tips branch).isSome = true := by
    rw [tip]
    rfl
  have target' : (checkout.tips branch).get known = target := by
    simp [tip]
  split
  next conflict => simp [switch, known, target', conflict]
  next quiet => simp [switch, known, target', quiet]

end Checkout

/-! ## What an attempt writes -/

section Written

variable [DecidableEq Path]

/-- The working tree after some files were written. -/
def written (files : List (ProposedFile Path Content)) (work : Tree Path Content) :
    Tree Path Content :=
  files.foldl (fun work file other => if other = file.path then some file.content else work other)
    work

theorem writeFiles_eq (jail : Path → Bool) (files : List (ProposedFile Path Content))
    (checkout : Checkout Path Content) :
    writeFiles jail files checkout =
      ({ checkout with work := written (files.takeWhile fun file => jail file.path) checkout.work },
        files.all fun file => jail file.path) := by
  induction files generalizing checkout with
  | nil => rfl
  | cons file rest ih =>
      cases allowed : jail file.path with
      | true =>
          simp only [writeFiles, ih, allowed, if_true, List.takeWhile_cons, List.all_cons,
            Bool.true_and]
          rfl
      | false =>
          simp only [writeFiles, allowed, Bool.false_eq_true, if_false, List.takeWhile_cons,
            List.all_cons, Bool.false_and]
          rfl

theorem written_of_not_listed (files : List (ProposedFile Path Content))
    (work : Tree Path Content) {path : Path} (other : listed files path = false) :
    written files work path = work path := by
  induction files generalizing work with
  | nil => rfl
  | cons file rest ih =>
      simp only [listed, List.any_cons, Bool.or_eq_false_iff, decide_eq_false_iff_not] at other
      have ⟨apart, others⟩ := other
      rw [written, List.foldl_cons, ← written, ih _ others]
      simp [Ne.symm apart]

/-- The attempt gets as far as its branch. -/
def Begins (world : World Path Content) (branch : String)
    (files : List (ProposedFile Path Content)) (before : Checkout Path Content) : Prop :=
  files ≠ [] ∧ (∀ file ∈ files, world.denied file.path = false ∧ world.writable file.path = true) ∧
    world.blocks = false ∧ world.branches = true ∧ before.tips branch = none

/-- The files that are written: those before the first that the jail refuses. -/
def writes (world : World Path Content) (files : List (ProposedFile Path Content)) :
    List (ProposedFile Path Content) :=
  files.takeWhile fun file => world.jail file.path

/-- The paths that are staged: none unless every file was written. -/
def stages (world : World Path Content) (files : List (ProposedFile Path Content))
    (path : Path) : Bool :=
  (files.all fun file => world.jail file.path) && listed files path &&
    world.adds.all fun selected => selected path

/-- The checkout on the new branch, with what was written and staged. -/
def Checkout.drafted (checkout : Checkout Path Content) (branch : String)
    (written' : List (ProposedFile Path Content)) (staged : Path → Bool) :
    Checkout Path Content :=
  { checkout.setTip branch checkout.head with
    work := written written' checkout.work
    index := splice staged (written written' checkout.work) checkout.index }

/-- The attempt gets as far as its commit. -/
def Lands [DecidableEq Content] (paths : List Path) (world : World Path Content)
    (files : List (ProposedFile Path Content)) (before : Checkout Path Content) : Prop :=
  (∀ file ∈ files, world.jail file.path = true) ∧ world.adds = none ∧
    gatedCommit paths none world.secret world.commits
      ⟨before.head, splice (listed files) (written files before.work) before.index,
        written files before.work⟩ = .ok ()

/-- What an attempt leaves, before the original branch is checked out again. -/
theorem attempt_eq [DecidableEq Content] (paths : List Path) (world : World Path Content)
    (branch : String) (files : List (ProposedFile Path Content)) (before : Checkout Path Content) :
    (¬(world.branches = true ∧ before.tips branch = none) →
      (attempt paths world branch files before).1 = before) ∧
    (world.branches = true ∧ before.tips branch = none →
      (¬Lands paths world files before →
        (attempt paths world branch files before).1 =
          before.drafted branch (writes world files) (stages world files)) ∧
      (Lands paths world files before →
        (attempt paths world branch files before).1 =
          (before.drafted branch files (listed files)).commit)) := by
  constructor
  · intro unmade
    have none' : (if world.branches then before.createBranch branch else none) = none := by
      split
      next made =>
        have taken : (before.tips branch).isSome = true := by
          by_contra free
          exact unmade ⟨made, by simpa using free⟩
        simp [Checkout.createBranch, taken]
      next => rfl
    simp [attempt, none']
  · intro ⟨made, free⟩
    have created : (if world.branches then before.createBranch branch else none) =
        some (before.setTip branch before.head) := by
      simp [made, Checkout.createBranch, free]
    rw [attempt, created]
    simp only [writeFiles_eq]
    cases all : files.all fun file => world.jail file.path with
    | false =>
        have stays : ¬Lands paths world files before := by
          intro ⟨every, _⟩
          rw [List.all_eq_true.2 every] at all
          contradiction
        have nothing : stages world files = fun _ => false := by
          funext path
          simp [stages, all]
        simp only [stays, not_false_eq_true, true_implies, false_implies, and_true, if_true,
          nothing]
        rfl
    | true =>
        have whole : writes world files = files := by
          apply List.takeWhile_eq_self_iff.2
          simpa using all
        have every : ∀ file ∈ files, world.jail file.path = true := List.all_eq_true.1 all
        simp only [Bool.true_eq_false, if_false]
        rw [← writes, whole]
        cases adds : world.adds with
        | some selected =>
            have stays : ¬Lands paths world files before := by
              intro ⟨_, none', _⟩
              rw [none'] at adds
              contradiction
            have some' : stages world files = fun path => listed files path && selected path := by
              funext path
              simp [stages, all, adds]
            simp only [stays, not_false_eq_true, true_implies, false_implies, and_true, some']
            rfl
        | none =>
            have every' : stages world files = listed files := by
              funext path
              simp [stages, all, adds]
            have seen : (before.drafted branch files (listed files)).repo =
                ⟨before.head, splice (listed files) (written files before.work) before.index,
                  written files before.work⟩ := by
              simp [Checkout.repo, Checkout.drafted, Checkout.head, Checkout.setTip]
            rw [every']
            dsimp only
            split
            next error gate =>
              have gate' : gatedCommit paths none world.secret world.commits
                  (before.drafted branch files (listed files)).repo = .error error := gate
              rw [seen] at gate'
              have stays : ¬Lands paths world files before := by
                intro ⟨_, _, lands⟩
                rw [lands] at gate'
                contradiction
              simp only [stays, not_false_eq_true, true_implies, false_implies, and_true]
              rfl
            next gate =>
              have gate' : gatedCommit paths none world.secret world.commits
                  (before.drafted branch files (listed files)).repo = .ok () := gate
              rw [seen] at gate'
              have lands : Lands paths world files before := ⟨every, adds, gate'⟩
              simp only [lands, not_true_eq_false, false_implies, true_and, true_implies]
              split
              next => rfl
              next => split <;> rfl

end Written


/-! ## Checkpoints after an attempt -/

section Trace

variable [DecidableEq Content]

/-- The gate on the commit of a checkpoint, after the state directory was written to. -/
def checkpointGate (inState : Path → Bool) (paths : List Path)
    (secret : Tree Path Content → Tree Path Content → Bool) (commits : Bool)
    (later : Tree Path Content) (repo : Repo Path Content) : Except CommitError Unit :=
  gatedCommit paths (some inState) secret commits
    (Repo.addAll inState { repo with work := splice inState later repo.work })

/-- No later checkpoint is blocked for files outside the state directory. -/
def OpenToCheckpoints (inState : Path → Bool) (paths : List Path) (repo : Repo Path Content) :
    Prop :=
  ∀ secret commits later,
    checkpointGate inState paths secret commits later repo ≠ .error .outsideRoots

/-- The gate blocks for the roots exactly when a staged file is outside them. -/
theorem gatedCommit_outsideRoots_iff (paths : List Path) (inRoots : Path → Bool)
    (secret : Tree Path Content → Tree Path Content → Bool) (commits : Bool)
    (repo : Repo Path Content) :
    gatedCommit paths (some inRoots) secret commits repo = .error .outsideRoots ↔
      ∃ path ∈ paths, repo.index path ≠ repo.head path ∧ inRoots path = false := by
  have bad : ((paths.filter fun path => repo.index path ≠ repo.head path).any
      fun path => !inRoots path) = true ↔
        ∃ path ∈ paths, repo.index path ≠ repo.head path ∧ inRoots path = false := by
    simp [List.any_eq_true]
  rw [← bad, gatedCommit]
  simp only [Option.any_some]
  split
  next none' =>
    rw [List.isEmpty_iff.1 none']
    simp
  next =>
    split
    next outside => exact iff_of_true rfl outside
    next inside =>
      apply iff_of_false _ inside
      split
      next => simp
      next => split <;> simp

theorem openToCheckpoints_iff (inState : Path → Bool) (paths : List Path)
    (repo : Repo Path Content) : OpenToCheckpoints inState paths repo ↔
      ∀ path ∈ paths, inState path = false → repo.index path = repo.head path := by
  have outside : ∀ (later : Tree Path Content) (path : Path), inState path = false →
      (Repo.addAll inState { repo with work := splice inState later repo.work }).index path =
        repo.index path := by
    intro later path away
    simp [Repo.addAll, splice, away]
  simp only [OpenToCheckpoints, checkpointGate, ne_eq, gatedCommit_outsideRoots_iff]
  constructor
  · intro opens path inside away
    by_contra differs
    apply opens (fun _ _ => false) true repo.work
    exact ⟨path, inside, by rwa [outside repo.work path away], away⟩
  · rintro clean _ _ later ⟨path, inside, differs, away⟩
    rw [outside later path away] at differs
    exact differs (clean path inside away)

/-- What an attempt must find for it to leave no trace.  As long as nothing is committed, git
carries over what was written and staged, and it must have been there before; once it is
committed, going back loses what was already changed or staged. -/
def FindsItDone [DecidableEq Path] (inState : Path → Bool) (paths : List Path)
    (world : World Path Content) (branch : String) (files : List (ProposedFile Path Content))
    (before : Checkout Path Content) : Prop :=
  Begins world branch files before →
    (¬Lands paths world files before → ∀ path, inState path = false →
      written (writes world files) before.work path = before.work path ∧
        (stages world files path = true → before.index path = before.work path)) ∧
    (Lands paths world files before →
      (∀ path, inState path = false → before.index path = before.head path ∧
        (listed files path = true → before.work path = before.head path)) ∧
      ∀ path ∈ paths, inState path = true → listed files path = false →
        before.index path = before.head path ∨ before.work path = before.index path)

/-- An attempt that left no trace: the branch is checked out that was, index and working tree
are what they were outside the state directory, and checkpoints pass if they did. -/
structure NoTrace (inState : Path → Bool) (paths : List Path) (before after : Checkout Path Content) :
    Prop where
  branch : after.branch = before.branch
  outside : ∀ path, inState path = false →
    after.index path = before.index path ∧ after.work path = before.work path
  checkpoints : OpenToCheckpoints inState paths before.repo →
    OpenToCheckpoints inState paths after.repo

theorem NoTrace.of_same (inState : Path → Bool) (paths : List Path)
    {before after : Checkout Path Content} (branch : after.branch = before.branch)
    (tips : after.tips before.branch = some before.head)
    (outside : ∀ path, inState path = false →
      after.index path = before.index path ∧ after.work path = before.work path) :
    NoTrace inState paths before after where
  branch
  outside
  checkpoints := by
    have head : after.head = before.head := by
      have own := after.tips_head
      rw [branch, tips] at own
      exact (Option.some.inj own).symm
    simp only [openToCheckpoints_iff]
    intro opens path inside away
    calc after.index path
      _ = before.index path := (outside path away).1
      _ = before.head path := opens path inside away
      _ = after.head path := by rw [head]

variable [DecidableEq Path]

/-- Before the commit: the index and the working tree come back as they were left. -/
theorem noTrace_drafted_iff (inState : Path → Bool) (paths : List Path) {branch : String}
    (written' : List (ProposedFile Path Content)) (staged : Path → Bool)
    {before : Checkout Path Content} (free : before.tips branch = none) :
    NoTrace inState paths before
        ((before.drafted branch written' staged).switch paths before.branch) ↔
      ∀ path, inState path = false →
        written written' before.work path = before.work path ∧
          (staged path = true → before.index path = before.work path) := by
  have apart : before.branch ≠ branch := by
    intro same
    have own := before.tips_head
    rw [same, free] at own
    contradiction
  have tip : (before.drafted branch written' staged).tips before.branch = some before.head := by
    rw [Checkout.drafted, Checkout.tips_setTip_of_ne before apart, Checkout.tips_head]
  have head : (before.drafted branch written' staged).head = before.head :=
    Checkout.head_setTip before branch before.head
  have same : (before.drafted branch written' staged).tips before.branch =
      some (before.drafted branch written' staged).head := by rw [tip, head]
  obtain ⟨back, tips, index, work⟩ := Checkout.switch_of_same_tip paths
    (before.drafted branch written' staged) same
  have left : ∀ path, inState path = false →
      ((((before.drafted branch written' staged).switch paths before.branch).index path =
          before.index path ∧
        ((before.drafted branch written' staged).switch paths before.branch).work path =
          before.work path) ↔
      (written written' before.work path = before.work path ∧
        (staged path = true → before.index path = before.work path))) := by
    intro path _
    rw [index, work]
    simp only [Checkout.drafted, splice]
    cases staged path with
    | false => simp
    | true =>
        simp only [if_true, true_implies]
        constructor
        · rintro ⟨same, kept⟩
          exact ⟨kept, by rw [← same, kept]⟩
        · rintro ⟨kept, same⟩
          exact ⟨by rw [kept, same], kept⟩
  constructor
  · intro clean path away
    exact (left path away).1 (clean.outside path away)
  · intro done
    apply NoTrace.of_same inState paths back (by rw [tips, tip])
    intro path away
    exact (left path away).2 (done path away)

/-- After the commit: going back takes the old commit's files, unless git refuses to lose a
change. -/
theorem noTrace_committed_iff (inState : Path → Bool) (paths : List Path) {branch : String}
    (files : List (ProposedFile Path Content)) {before : Checkout Path Content}
    (free : before.tips branch = none) :
    NoTrace inState paths before
        ((before.drafted branch files (listed files)).commit.switch paths before.branch) ↔
      (∀ path, inState path = false → before.index path = before.head path ∧
        (listed files path = true → before.work path = before.head path)) ∧
      ∀ path ∈ paths, inState path = true → listed files path = false →
        before.index path = before.head path ∨ before.work path = before.index path := by
  have apart : before.branch ≠ branch := by
    intro same
    have own := before.tips_head
    rw [same, free] at own
    contradiction
  have apart' : before.branch ≠ (before.drafted branch files (listed files)).branch := apart
  have tip : (before.drafted branch files (listed files)).commit.tips before.branch =
      some before.head := by
    rw [Checkout.commit, Checkout.tips_setTip_of_ne _ apart', Checkout.drafted,
      Checkout.tips_setTip_of_ne before apart, Checkout.tips_head]
  have head : (before.drafted branch files (listed files)).commit.head =
      (before.drafted branch files (listed files)).commit.index :=
    Checkout.head_setTip _ _ _
  have committed : ∀ path, if listed files path then
      (before.drafted branch files (listed files)).commit.index path =
        (before.drafted branch files (listed files)).commit.work path
    else
      (before.drafted branch files (listed files)).commit.index path = before.index path ∧
        (before.drafted branch files (listed files)).commit.work path = before.work path := by
    intro path
    cases known : listed files path with
    | true => simp [Checkout.commit, Checkout.setTip, Checkout.drafted, splice, known]
    | false =>
        simp [Checkout.commit, Checkout.setTip, Checkout.drafted, splice, known,
          written_of_not_listed files before.work known]
  have here : (before.drafted branch files (listed files)).commit.branch = branch := rfl
  generalize (before.drafted branch files (listed files)).commit = made
    at tip head committed here ⊢
  have keeps : ∀ path, made.keeps before.head path = true ↔ before.head path = made.index path := by
    intro path
    simp only [Checkout.keeps, head, Bool.or_eq_true, decide_eq_true_eq]
    exact ⟨fun either => either.elim id Eq.symm, .inl⟩
  have conflicts : ∀ path, made.conflicts before.head path = true ↔
      listed files path = false ∧ before.index path ≠ before.head path ∧
        before.work path ≠ before.index path := by
    intro path
    have lost : made.conflicts before.head path = true ↔
        before.head path ≠ made.index path ∧ made.work path ≠ made.index path := by
      simp only [Checkout.conflicts, head, Bool.and_eq_true, Bool.not_eq_true', decide_true,
        Bool.true_and, Bool.eq_false_iff, ne_eq, decide_eq_true_eq, keeps]
    have came := committed path
    rw [lost]
    cases known : listed files path with
    | true =>
        simp only [known, if_true] at came
        simp [came]
    | false =>
        simp only [known, Bool.false_eq_true, if_false] at came
        simp [came, eq_comm]
  have moved := Checkout.switch_eq paths made tip
  split at moved
  next stuck =>
    obtain ⟨path, inside, conflict⟩ := List.any_eq_true.1 stuck
    obtain ⟨unlisted, staged, changed⟩ := (conflicts path).1 conflict
    rw [moved]
    apply iff_of_false
    · intro clean
      have back := clean.branch
      rw [here] at back
      exact apart back.symm
    · rintro ⟨clean, carried⟩
      cases area : inState path with
      | false => exact staged (clean path area).1
      | true => exact (carried path inside area unlisted).elim staged changed
  next quiet =>
    obtain ⟨back, tips, files'⟩ := moved
    have carried : ∀ path ∈ paths, inState path = true → listed files path = false →
        before.index path = before.head path ∨ before.work path = before.index path := by
      intro path inside _ unlisted
      by_contra neither
      simp only [not_or] at neither
      exact quiet (List.any_eq_true.2 ⟨path, inside, (conflicts path).2
        ⟨unlisted, neither.1, neither.2⟩⟩)
    have left : ∀ path,
        ((made.switch paths before.branch).index path = before.index path ∧
          (made.switch paths before.branch).work path = before.work path) ↔
        (before.index path = before.head path ∧
          (listed files path = true → before.work path = before.head path)) := by
      intro path
      obtain ⟨index, work⟩ := files' path
      have came := committed path
      rw [index, work]
      cases known : listed files path with
      | true =>
          simp only [known, if_true] at came
          by_cases kept : before.head path = made.index path
          · simp [(keeps path).2 kept, ← came, ← kept, eq_comm]
          · simp [mt (keeps path).1 kept, eq_comm]
      | false =>
          simp only [known, Bool.false_eq_true, if_false] at came
          by_cases kept : before.head path = made.index path
          · simp [(keeps path).2 kept, came.2, ← came.1, ← kept]
          · have staged : before.head path ≠ before.index path := by rwa [came.1] at kept
            simp [mt (keeps path).1 kept, staged, Ne.symm staged]
    constructor
    · intro clean
      constructor
      · intro path away
        exact (left path).1 (clean.outside path away)
      · exact carried
    · rintro ⟨clean, _⟩
      apply NoTrace.of_same inState paths back (by rw [tips, tip])
      intro path away
      exact (left path).2 (clean path away)

/-- Where a whole attempt leaves the checkout. -/
theorem proposeSelfImprovement_eq (paths : List Path) (world : World Path Content)
    (branch : String) (files : List (ProposedFile Path Content)) (before : Checkout Path Content) :
    let kept := files.filter fun file => !file.conflict
    let after := (proposeSelfImprovement paths world branch files before).1
    (¬Begins world branch kept before →
      after = before ∨ after = before.switch paths before.branch) ∧
    (Begins world branch kept before →
      (¬Lands paths world kept before →
        after = (before.drafted branch (writes world kept) (stages world kept)).switch paths
          before.branch) ∧
      (Lands paths world kept before →
        after = (before.drafted branch kept (listed kept)).commit.switch paths
          before.branch)) := by
  intro kept after
  have ⟨unmade, made⟩ := attempt_eq paths world branch kept before
  have unfolded : after = (proposeSelfImprovement paths world branch files before).1 := rfl
  rw [proposeSelfImprovement] at unfolded
  constructor
  · intro idle
    rw [unfolded]
    split
    next => exact .inl rfl
    next some' =>
      split
      next => exact .inl rfl
      next allowed =>
        split
        next => exact .inl rfl
        next inside =>
          split
          next => exact .inl rfl
          next passed =>
            have free : ¬(world.branches = true ∧ before.tips branch = none) := by
              intro ⟨branches, absent⟩
              apply idle
              have present : kept ≠ [] := fun none' => some' (List.isEmpty_iff.2 none')
              have passes : world.blocks = false := by simpa using passed
              apply And.intro present
              constructor
              · intro file member
                constructor
                · by_contra denied
                  exact allowed (List.any_eq_true.2 ⟨file, member, by simpa using denied⟩)
                · by_contra refused
                  exact inside (List.any_eq_true.2 ⟨file, member, by simpa using refused⟩)
              · exact ⟨passes, branches, absent⟩
            right
            dsimp only
            rw [unmade free]
  · intro ⟨present, writable, passes, branches, absent⟩
    have ⟨stays, lands⟩ := made ⟨branches, absent⟩
    have some' : ¬kept.isEmpty = true := fun none' => present (List.isEmpty_iff.1 none')
    have allowed : ¬(kept.any fun file => world.denied file.path) = true := by
      intro denied
      have ⟨file, member, bad⟩ := List.any_eq_true.1 denied
      rw [(writable file member).1] at bad
      contradiction
    have inside : ¬(kept.any fun file => !world.writable file.path) = true := by
      intro refused
      have ⟨file, member, bad⟩ := List.any_eq_true.1 refused
      rw [(writable file member).2] at bad
      contradiction
    have passed : ¬world.blocks = true := by simp [passes]
    rw [unfolded, if_neg some', if_neg allowed, if_neg inside, if_neg passed]
    constructor
    · intro unlanded
      rw [← stays unlanded]
    · intro landed
      rw [← lands landed]

/-- An attempt leaves no trace exactly when what it does was already there. -/
theorem noTrace_iff_findsItDone (inState : Path → Bool) (paths : List Path)
    (world : World Path Content) (branch : String) (files : List (ProposedFile Path Content))
    (before : Checkout Path Content) :
    NoTrace inState paths before (proposeSelfImprovement paths world branch files before).1 ↔
      FindsItDone inState paths world branch (files.filter fun file => !file.conflict) before := by
  have ⟨idle, begun⟩ := proposeSelfImprovement_eq paths world branch files before
  by_cases begins : Begins world branch (files.filter fun file => !file.conflict) before
  · have ⟨stays, lands⟩ := begun begins
    have free : before.tips branch = none := begins.2.2.2.2
    by_cases landed : Lands paths world (files.filter fun file => !file.conflict) before
    · rw [lands landed, noTrace_committed_iff inState paths _ free]
      simp [FindsItDone, begins, landed]
    · rw [stays landed, noTrace_drafted_iff inState paths _ _ free]
      simp [FindsItDone, begins, landed]
  · apply iff_of_true
    · have ⟨back, tips, index, work⟩ :=
        Checkout.switch_of_same_tip paths before before.tips_head
      cases idle begins with
      | inl same =>
          rw [same]
          exact NoTrace.of_same inState paths rfl before.tips_head (fun _ _ => ⟨rfl, rfl⟩)
      | inr same =>
          rw [same]
          apply NoTrace.of_same inState paths back (by rw [tips, before.tips_head])
          intro path _
          rw [index, work]
          exact ⟨rfl, rfl⟩
    · intro begins'
      exact absurd begins' begins

end Trace

/-- A clean checkout of the main branch. -/
def clean : Checkout String String where
  branch := "main"
  tips := fun name => if name = "main" then some (fun _ => none) else none
  index := fun _ => none
  work := fun _ => none
  born := rfl

/-- A world that lets everything through, but where a staged key looks like a secret. -/
def spots : World String String where
  denied := fun _ => false
  writable := fun _ => true
  blocks := false
  branches := true
  jail := fun _ => true
  adds := none
  secret := fun _ index => index "src/a.js" = some "key"
  commits := true
  pushes := true
  opens := true

/-- A proposal whose commit is blocked stays behind, staged on the original branch, and
blocks the next checkpoint. -/
theorem leaves_trace_of_blocked_commit :
    let paths := ["src/a.js", "state/tasks.json"]
    let inState := fun path => decide (path = "state/tasks.json")
    let result := proposeSelfImprovement paths spots "self-improve/1" [⟨"src/a.js", "key", false⟩]
      clean
    result.2 = .threw (.commit .secret) ∧
      result.1.work "src/a.js" = some "key" ∧ clean.work "src/a.js" = none ∧
      ¬NoTrace inState paths clean result.1 ∧
      checkpointGate inState paths spots.secret true clean.work clean.repo ≠
        .error .outsideRoots ∧
      checkpointGate inState paths spots.secret true clean.work result.1.repo =
        .error .outsideRoots := by
  intro paths inState result
  have left : result.1.work "src/a.js" = some "key" := by decide
  have absent : clean.work "src/a.js" = none := rfl
  constructor
  · decide
  constructor
  · exact left
  constructor
  · exact absent
  constructor
  · intro traceless
    have away : inState "src/a.js" = false := by decide
    have same := (traceless.outside "src/a.js" away).2
    rw [left, absent] at same
    contradiction
  constructor
  · decide
  · decide

end Proposal

end TitanRunner
