import Mathlib.Data.List.Infix
import TitanRunner.Task.Schema

/-!
# Idempotent side effects

`engine/sideEffects.js`: an effect carries a key and is recorded in the ledger of the
task's checkpoint once it has fired.  A comment is also looked for on GitHub, by the
marker it ends with, when the ledger may be behind.
-/

namespace TitanRunner

namespace SideEffects

/-- `checkpoint.sideEffects`: the keys on record and when they were recorded. -/
abbrev Ledger := List (String × Time)

def markerFor (key : String) : String := "<!-- titan:" ++ key ++ " -->"

def Ledger.has (ledger : Ledger) (key : String) : Bool := ledger.any fun entry => entry.1 = key

def Ledger.record (ledger : Ledger) (key : String) (at' : Time) : Ledger :=
  ledger ++ [(key, at')]

/-- `body.includes(marker)`. -/
def includes (body marker : String) : Bool := decide (marker.toList <:+: body.toList)

/-- The body of a comment as it is posted. -/
def commentBody (body key : String) : String := body ++ "\n" ++ markerFor key

/-- `per_page` of the comment listing; the endpoint lists oldest first. -/
def commentsPerPage : Nat := 100

/-- `listIssueComments`: one page, or nothing when the request fails. -/
def listIssueComments (answered : Bool) (comments : List String) : List String :=
  if answered then comments.take commentsPerPage else []

/-- `#remoteHas`. -/
def remoteHas (listed : List String) (key : String) : Bool :=
  listed.any fun body => includes body (markerFor key)

/-- What `comment` does before it may post. -/
inductive CommentStep where
  | skippedLedger | suppressed | skippedRemote | post
  deriving DecidableEq, Repr

/-- `comment` up to the request that posts. -/
def commentStep (ledger : Ledger) (forceRemoteCheck suppressed : Bool) (listed : List String)
    (key : String) : CommentStep :=
  if ledger.has key then .skippedLedger
  else if suppressed then .suppressed
  else if (!ledger.isEmpty || forceRemoteCheck) && remoteHas listed key then .skippedRemote
  else .post

theorem Ledger.has_record_self (ledger : Ledger) (key : String) (at' : Time) :
    (ledger.record key at').has key = true := by
  simp [Ledger.has, Ledger.record]

theorem Ledger.has_record (ledger : Ledger) (key other : String) (at' : Time)
    (recorded : ledger.has key = true) : (ledger.record other at').has key = true := by
  simp only [Ledger.has, Ledger.record, List.any_append, Bool.or_eq_true] at recorded ⊢
  exact .inl recorded

/-- A comment carries the marker of its key. -/
theorem includes_commentBody (body key : String) :
    includes (commentBody body key) (markerFor key) = true := by
  simp only [includes, commentBody, String.toList_append, decide_eq_true_eq]
  exact (List.suffix_append _ _).isInfix

/-- A listing that was answered shows every comment of its page. -/
theorem remoteHas_of_getElem? {comments : List String} {position : Nat} {body key : String}
    (posted : comments[position]? = some body) (marked : includes body (markerFor key) = true)
    (onPage : position < commentsPerPage) :
    remoteHas (listIssueComments true comments) key = true := by
  simp only [remoteHas, listIssueComments, ↓reduceIte, List.any_eq_true]
  refine ⟨body, ?_, marked⟩
  apply List.mem_of_getElem? (i := position)
  rw [List.getElem?_take, if_pos onPage]
  exact posted

end SideEffects

end TitanRunner
