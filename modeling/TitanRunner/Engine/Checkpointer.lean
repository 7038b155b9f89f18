import TitanRunner.Lib.FileTree
import TitanRunner.Task.Schema

/-!
# The git checkpointer

`engine/checkpointer.js` in git mode: the state directory is committed and pushed;
when `pull --rebase` fails, the commit is built again on the remote tip from a
temporary index.  A repository is its HEAD tree, its index and its working tree, and
each git command the code runs is one function on them.
-/

namespace TitanRunner

namespace Checkpointer

open FileTree

structure Repo (Path Content : Type) where
  head : Tree Path Content
  index : Tree Path Content
  work : Tree Path Content

variable {Path Content : Type}

section Git

variable (inState : Path → Bool)

/-- `git add -A -- state`. -/
def Repo.addAll (repo : Repo Path Content) : Repo Path Content :=
  { repo with index := splice inState repo.work repo.index }

/-- `git diff --cached --name-only -- state`. -/
def Repo.staged [DecidableEq Content] (repo : Repo Path Content) (path : Path) : Bool :=
  inState path && decide (repo.index path ≠ repo.head path)

/-- `git commit`. -/
def Repo.commit (repo : Repo Path Content) : Repo Path Content :=
  { repo with head := repo.index }

/-- `git ls-tree -r --name-only <tree> -- state`. -/
def lsTree (tree : Tree Path Content) (path : Path) : Bool :=
  inState path && (tree path).isSome

/-- `git ls-files --deleted -- state`: in the index, not in the working tree. -/
def Repo.lsDeleted (repo : Repo Path Content) (path : Path) : Bool :=
  inState path && (repo.index path).isSome && (repo.work path).isNone

/-- `git rm --cached` of some paths. -/
def rmCached (removed : Path → Bool) (index : Tree Path Content) : Tree Path Content :=
  fun path => if removed path then none else index path

/-- `git add --ignore-removal -- state`. -/
def addIgnoreRemoval (work index : Tree Path Content) : Tree Path Content :=
  splice inState (overlay work index) index

/-- `git reset --soft <target>`, `git reset`, `git checkout -- state`. -/
def Repo.resetTo (repo : Repo Path Content) (target : Tree Path Content) : Repo Path Content where
  head := target
  index := target
  work := splice inState (overlay target repo.work) repo.work

/-- The end of a `pull --rebase --autostash` that went through with HEAD at `tree`. -/
def Repo.rebaseTo (repo : Repo Path Content) (tree : Tree Path Content) : Repo Path Content where
  head := tree
  index := tree
  work := splice inState tree repo.work

/-- `#reapplyOnRemote`: the repository afterwards and the tree committed on the remote
tip. -/
def reapplyOnRemote (repo : Repo Path Content) (remoteTip : Tree Path Content) :
    Repo Path Content × Tree Path Content :=
  let oursBefore := lsTree inState repo.head
  let inRemote := lsTree inState remoteTip
  let missing := repo.lsDeleted inState
  let removed := fun path => oursBefore path && missing path && inRemote path
  let tree := addIgnoreRemoval inState repo.work (rmCached removed remoteTip)
  (repo.resetTo inState tree, tree)

end Git

/-- How one attempt to push goes: the pull, then the push. -/
inductive Pull (Path Content : Type) where
  | rebased (tree : Tree Path Content)
  | conflict (remoteTip : Tree Path Content)
  /-- The remote cannot be reached, so the fetch after the failed pull throws. -/
  | offline

structure Attempt (Path Content : Type) where
  pull : Pull Path Content
  accepted : Bool

/-- What the attempts did: the trees re-applied on remote tips, the last one first. -/
structure Pushed (Path Content : Type) where
  repo : Repo Path Content
  pushed : Bool := false
  reapplied : List (Tree Path Content) := []

section Push

variable (inState : Path → Bool)

/-- The body of the loop of `#pushWithRetry`. -/
def pushOnce (state : Pushed Path Content) (attempt : Attempt Path Content) :
    Pushed Path Content :=
  if state.pushed then state
  else
    match attempt.pull with
    | .offline => state
    | .rebased tree =>
        { state with repo := state.repo.rebaseTo inState tree, pushed := attempt.accepted }
    | .conflict remoteTip =>
        let (repo, tree) := reapplyOnRemote inState state.repo remoteTip
        { repo, pushed := attempt.accepted, reapplied := tree :: state.reapplied }

/-- `#pushWithRetry`: at most three attempts. -/
def pushWithRetry (repo : Repo Path Content) (attempts : List (Attempt Path Content)) :
    Pushed Path Content :=
  (attempts.take 3).foldl (pushOnce inState) { repo }

inductive Skipped where
  | rateLimited | nothingChanged | commitFailed
  deriving DecidableEq, Repr

/-- `checkpoint`, in git mode.  `paths` lists the files git looks at, and `gate` is the
verdict of the reviewer gate on the commit. -/
def checkpoint [DecidableEq Content] (paths : List Path) (minIntervalMs : Int)
    (lastCommitAt now : Time) (force gate : Bool) (repo : Repo Path Content)
    (attempts : List (Attempt Path Content)) : Except Skipped (Pushed Path Content) :=
  if force = false ∧ now - lastCommitAt < minIntervalMs then .error .rateLimited
  else
    let repo := repo.addAll inState
    if paths.all fun path => !repo.staged inState path then .error .nothingChanged
    else if gate = false then .error .commitFailed
    else .ok (pushWithRetry inState repo.commit attempts)

end Push

section Reapply

variable {inState : Path → Bool}

/-- Index and working tree agree on the state directory, so that no removal is left to
be found. -/
def Repo.Settled (inState : Path → Bool) (repo : Repo Path Content) : Prop :=
  ∀ path, inState path = true → repo.index path = repo.work path

theorem settled_commit_addAll (inState : Path → Bool) (repo : Repo Path Content) :
    (repo.addAll inState).commit.Settled inState := by
  intro path inside
  exact splice_of_chosen inside repo.work repo.index

theorem lsDeleted_eq_false {repo : Repo Path Content} (settled : repo.Settled inState)
    (path : Path) : repo.lsDeleted inState path = false := by
  cases inside : inState path with
  | false => simp [Repo.lsDeleted, inside]
  | true =>
      simp only [Repo.lsDeleted, settled path inside]
      cases repo.work path <;> simp

/-- The committed tree is the remote tip under the whole state directory. -/
theorem reapplyOnRemote_tree {repo : Repo Path Content} (settled : repo.Settled inState)
    (remoteTip : Tree Path Content) :
    (reapplyOnRemote inState repo remoteTip).2 =
      splice inState (overlay repo.work remoteTip) remoteTip := by
  have nothingRemoved : rmCached (fun path => lsTree inState repo.head path &&
      repo.lsDeleted inState path && lsTree inState remoteTip path) remoteTip = remoteTip := by
    funext path
    simp [rmCached, lsDeleted_eq_false settled path]
  simp only [reapplyOnRemote, nothingRemoved, addIgnoreRemoval]

theorem reapplyOnRemote_work {repo : Repo Path Content} (settled : repo.Settled inState)
    (remoteTip : Tree Path Content) {path : Path} (inside : inState path = true) :
    (reapplyOnRemote inState repo remoteTip).1.work path =
      overlay repo.work remoteTip path := by
  have tree := reapplyOnRemote_tree settled remoteTip
  have work : (reapplyOnRemote inState repo remoteTip).1.work path =
      overlay (reapplyOnRemote inState repo remoteTip).2 repo.work path :=
    splice_of_chosen inside _ _
  rw [work, tree]
  simp only [overlay, splice_of_chosen inside]
  cases repo.work path <;> simp

theorem settled_reapplyOnRemote {repo : Repo Path Content} (settled : repo.Settled inState)
    (remoteTip : Tree Path Content) :
    (reapplyOnRemote inState repo remoteTip).1.Settled inState := by
  intro path inside
  have tree := congrFun (reapplyOnRemote_tree settled remoteTip) path
  rw [splice_of_chosen inside] at tree
  rw [reapplyOnRemote_work settled remoteTip inside, ← tree]
  rfl

/-- Attempts that all end in a conflict and a rejected push. -/
def rejected (remoteTips : List (Tree Path Content)) : List (Attempt Path Content) :=
  remoteTips.map fun remoteTip => ⟨.conflict remoteTip, false⟩

/-- After some rejected attempts the state directory holds, under this pulse's files,
those of every remote tip met on the way. -/
theorem foldl_rejected {repo : Repo Path Content} (settled : repo.Settled inState)
    (remoteTips reapplied : List (Tree Path Content)) :
    ∃ trees, ∃ after : Repo Path Content,
      (rejected remoteTips).foldl (pushOnce inState) { repo, reapplied } =
        { repo := after, reapplied := trees } ∧
      after.Settled inState ∧
      ∀ path, inState path = true →
        after.work path = overlay repo.work (overlayAll remoteTips) path := by
  induction remoteTips generalizing repo reapplied with
  | nil =>
      refine ⟨reapplied, repo, rfl, settled, ?_⟩
      intro path inside
      simp [overlayAll]
  | cons remoteTip rest ih =>
      obtain ⟨trees, after, ran, afterSettled, work⟩ :=
        ih (settled_reapplyOnRemote settled remoteTip)
          ((reapplyOnRemote inState repo remoteTip).2 :: reapplied)
      refine ⟨trees, after, ran, afterSettled, ?_⟩
      intro path inside
      rw [work path inside]
      simp only [overlay, overlayAll, reapplyOnRemote_work settled remoteTip inside,
        Option.or_assoc]

/-- The remote tip with this pulse's own changes to the state directory applied:
what changed between the tree the pulse started from and its working tree. -/
def ownChanges [DecidableEq Content] (inState : Path → Bool)
    (started work remoteTip : Tree Path Content) : Tree Path Content :=
  splice inState (applyChanges started work remoteTip) remoteTip

/-- The condition under which re-applying keeps both sides: the remote has the same
version of every state file the pulse left alone, no tip met so far has a file the
pulse deleted, and a file met on an earlier tip has not changed since. -/
def KeepsBoth (inState : Path → Bool) (started work : Tree Path Content)
    (earlierTips : List (Tree Path Content)) (remoteTip : Tree Path Content) : Prop :=
  ∀ path, inState path = true →
    (∀ content, started path = some content → work path = some content →
        remoteTip path = some content) ∧
      (started path ≠ none → work path = none →
        overlayAll earlierTips path = none ∧ remoteTip path = none) ∧
      (started path = none → work path = none →
        overlayAll earlierTips path = none ∨ overlayAll earlierTips path = remoteTip path)

theorem foldl_reapplied_iff [DecidableEq Content] (inState : Path → Bool)
    (started : Tree Path Content) (repo : Repo Path Content)
    (earlierTips : List (Tree Path Content)) (remoteTip : Tree Path Content) (accepted : Bool) :
    ((rejected earlierTips ++ [Attempt.mk (.conflict remoteTip) accepted]).foldl
        (pushOnce inState) { repo := (repo.addAll inState).commit }).reapplied.head? =
        some (ownChanges inState started repo.work remoteTip) ↔
      KeepsBoth inState started repo.work earlierTips remoteTip := by
  obtain ⟨trees, after, ran, settled, work⟩ :=
    foldl_rejected (settled_commit_addAll inState repo) earlierTips []
  have last : ((rejected earlierTips ++ [Attempt.mk (.conflict remoteTip) accepted]).foldl
      (pushOnce inState) { repo := (repo.addAll inState).commit }).reapplied.head? =
      some (splice inState (overlay after.work remoteTip) remoteTip) := by
    rw [List.foldl_append, ran, List.foldl_cons, List.foldl_nil]
    simp only [pushOnce, Bool.false_eq_true, ↓reduceIte, List.head?_cons,
      reapplyOnRemote_tree settled]
  rw [last, Option.some.injEq, ownChanges, splice_eq_splice_iff]
  apply forall_congr'
  intro path
  apply forall_congr'
  intro inside
  rw [← overlay_overlay_eq_applyChanges_iff started repo.work]
  have here : overlay after.work remoteTip path =
      overlay repo.work (overlay (overlayAll earlierTips) remoteTip) path := by
    simp only [overlay, work path inside, Option.or_assoc]
    rfl
  rw [here]

end Reapply

/-- The tree with the listed files. -/
def treeOf (files : List (String × String)) : Tree String String :=
  fun path => (files.find? fun file => file.1 = path).map Prod.snd

/-- The checkout after `started` was committed, with other files in the working tree. -/
def checkout (started work : Tree String String) : Repo String String where
  head := started
  index := started
  work

def queueStart : Tree String String :=
  treeOf [("state/tasks.json", "0"), ("state/leases/issue-1.json", "held")]

def addedWork : Tree String String :=
  treeOf [("state/tasks.json", "1"), ("state/runs/1.json", "run")]

def addedTip : Tree String String :=
  treeOf [("state/tasks.json", "3"), ("state/providers.json", "p")]

theorem keepsBoth_added : KeepsBoth (fun _ => true) (treeOf [("state/tasks.json", "0")]) addedWork
    [treeOf [("state/tasks.json", "2")]] addedTip := by
  intro path _
  by_cases onQueue : path = "state/tasks.json"
  · subst onQueue
    simp [treeOf, addedWork]
  · have other : ¬ "state/tasks.json" = path := fun same => onQueue same.symm
    simp [treeOf, overlayAll, overlay, empty, other]

end Checkpointer

end TitanRunner
