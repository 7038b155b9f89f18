import TitanRunner.Security.Authorization
import TitanRunner.Task.Schema

/-!
# The GitHub client's reads

`github.js`: the listing of open task issues and of an issue's comments.  A request
is answered with a page or fails; the client turns both a failure and a missing
token into an empty list.
-/

namespace TitanRunner

/-- The fields of an issue payload that the control sync reads. -/
structure Issue where
  number : Nat
  updatedAt : Option Time := none
  deriving DecidableEq, Repr

structure Comment where
  body : String
  createdAt : Option Time := none
  actor : Actor := {}
  deriving DecidableEq, Repr

namespace Github

/-- `per_page` of the issue listing. -/
def issuesPerPage : Nat := 50

/-- What the service holds and how it answers the listing: the open issues that
carry the label, in the order the endpoint returns them, and the error of a request
that fails. -/
structure Server where
  openIssues : List Issue
  failure : Option String := none
  deriving DecidableEq, Repr

/-- One request for the listing: at most one page. -/
def Server.get (server : Server) : Except String (List Issue) :=
  match server.failure with
  | some error => .error error
  | none => .ok (server.openIssues.take issuesPerPage)

/-- `listOpenTaskIssues`. -/
def listOpenTaskIssues (ready : Bool) (server : Server) : List Issue :=
  if ready = false then []
  else
    match server.get with
    | .ok issues => issues
    | .error _ => []

/-- `per_page` of the comment listing. -/
def commentsPerPage : Nat := 100

/-- A comment the service returns for `since`: it was updated then or later.  A comment nobody
edits was updated when it was created. -/
def isSince (since : Option Time) (comment : Comment) : Bool :=
  match since, comment.createdAt with
  | some since, some created => decide (since ≤ created)
  | _, _ => true

/-- `listIssueComments`: the first page of the comments of an issue, oldest first. -/
def listIssueComments (ready : Bool) (failure : Option String) (comments : List Comment)
    (since : Option Time) : List Comment :=
  if ready = false then []
  else
    match failure with
    | some _ => []
    | none => (comments.filter (isSince since)).take commentsPerPage

/-- The issue is open and labelled. -/
def Server.IsOpen (server : Server) (number : Nat) : Prop :=
  number ∈ server.openIssues.map Issue.number

instance (server : Server) (number : Nat) : Decidable (server.IsOpen number) :=
  inferInstanceAs (Decidable (number ∈ server.openIssues.map Issue.number))

/-- The listing is the first page, or empty when no request was made or answered. -/
theorem listing_cases (ready : Bool) (server : Server) :
    (ready = true ∧ server.failure = none ∧
        listOpenTaskIssues ready server = server.openIssues.take issuesPerPage) ∨
      ¬ (ready = true ∧ server.failure = none) ∧ listOpenTaskIssues ready server = [] := by
  cases ready with
  | false => exact .inr ⟨by simp, rfl⟩
  | true =>
      cases failed : server.failure with
      | none => exact .inl ⟨rfl, rfl, by simp [listOpenTaskIssues, Server.get, failed]⟩
      | some error => exact .inr ⟨by simp, by simp [listOpenTaskIssues, Server.get, failed]⟩

end Github

end TitanRunner
