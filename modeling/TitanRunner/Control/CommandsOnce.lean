import TitanRunner.IssueActions
import TitanRunner.Lib.Transition

/-!
# Commands posted on issues

Comments are posted at any time while pulse after pulse lists the issues and then, one record
after the other, the comments of each issue that was bumped.  What the control sync applied to
a record is logged beside it.  Progress is the cursor `issueUpdatedAtSeen`, a date of whole
seconds that is taken from the listing of the issues.
-/

namespace TitanRunner

namespace CommandsOnce

open TransitionSystem System IssueSync

/-- A comment as the service keeps it. -/
structure Post where
  createdAt : Time
  body : String
  actor : Actor
  deriving DecidableEq, Repr

def Post.comment (post : Post) : Comment where
  body := post.body
  createdAt := some post.createdAt
  actor := post.actor

structure IssueState where
  createdAt : Time
  updatedAt : Time
  isOpen : Bool := true
  posts : List Post := []
  deriving DecidableEq, Repr

/-- A record of the queue and the comments that were applied to it. -/
structure Entry where
  task : Task
  applied : List Post := []
  deriving DecidableEq, Repr

structure World where
  clock : Time := 0
  issues : Nat → Option IssueState := fun _ => none
  /-- What the pulse that is at work was told of the issues. -/
  listing : List Issue := []
  entries : List Entry := []

inductive Label where
  | tick (clock : Time)
  | file (number : Nat)
  | bump (number : Nat) (isOpen : Bool)
  | post (number : Nat) (body : String) (actor : Actor)
  | know (task : Task)
  | list (numbers : List Nat)
  | examine (index : Nat) (ready : Bool) (failure : Option String)
  | change (index : Nat) (task : Task)

/-- Dates of the service are whole seconds. -/
def second (clock : Time) : Time := clock / 1000 * 1000

def World.setIssue (world : World) (number : Nat) (issue : IssueState) : World :=
  { world with issues := fun other => if other = number then some issue else world.issues other }

/-- The page of comments a request gets. -/
def pageOf (ready : Bool) (failure : Option String) (posts : List Post) (since : Option Time) :
    List Post :=
  if ready = true ∧ failure = none then
    (posts.filter fun post => Github.isSince since post.comment).take Github.commentsPerPage
  else []

def postsOf (world : World) (number : Nat) : List Post :=
  ((world.issues number).map IssueState.posts).getD []

variable (authz : AuthorizationContext)

/-- What the sync is given when it examines a record. -/
def depsOf (world : World) (ready : Bool) (failure : Option String) : Deps where
  now := world.clock
  authz
  listComments number since :=
    Github.listIssueComments ready failure ((postsOf world number).map Post.comment) since

/-- The comments of a page whose commands are applied. -/
def appliedBy (since completedAt : Option Time) (page : List Post) : List Post :=
  page.filter fun post =>
    (commandOf since completedAt post.comment).isSome && (authorizeActor post.actor authz).ok

/-- What the examination of a record applies to it. -/
def examined (world : World) (ready : Bool) (failure : Option String) (task : Task) :
    List Post :=
  match task.issueNumber with
  | none => []
  | some number =>
      match findIssue world.listing number with
      | none => []
      | some issue =>
          if isBumped task issue = false then []
          else
            let since := seenAt task <|> task.createdAt
            appliedBy authz since task.completedAt
              (pageOf ready failure (postsOf world number) since)

def next (world : World) : Label → Option World
  | .tick clock => if world.clock ≤ clock then some { world with clock } else none
  | .file number =>
      match world.issues number with
      | some _ => none
      | none =>
          some (world.setIssue number {
            createdAt := second world.clock, updatedAt := second world.clock })
  | .bump number isOpen =>
      match world.issues number with
      | none => none
      | some issue =>
          some (world.setIssue number { issue with updatedAt := second world.clock, isOpen })
  | .post number body actor =>
      match world.issues number with
      | none => none
      | some issue =>
          some (world.setIssue number { issue with
            updatedAt := second world.clock
            posts := issue.posts ++ [{ createdAt := second world.clock, body, actor }] })
  | .know task =>
      match task.issueNumber with
      | none => none
      | some number =>
          match world.issues number with
          | none => none
          | some issue =>
              if task.issueUpdatedAtSeen = some issue.createdAt ∧
                  some number ∉ world.entries.map (fun entry => entry.task.issueNumber) then
                some { world with entries := world.entries ++ [{ task }] }
              else none
  | .list numbers =>
      some { world with
        listing := numbers.filterMap fun number =>
          match world.issues number with
          | none => none
          | some issue =>
              if issue.isOpen then some { number, updatedAt := some issue.updatedAt } else none }
  | .examine index ready failure =>
      match world.entries[index]? with
      | none => none
      | some entry =>
          match reconcileTask (depsOf authz world ready failure) world.listing entry.task with
          | .error _ => none
          | .ok report =>
              some { world with
                entries := world.entries.set index {
                  task := report.task
                  applied := entry.applied ++
                    examined authz world ready failure entry.task } }
  | .change index task =>
      match world.entries[index]? with
      | none => none
      | some entry =>
          if task.issueNumber = entry.task.issueNumber ∧
              task.issueUpdatedAtSeen = entry.task.issueUpdatedAtSeen then
            some { world with entries := world.entries.set index { entry with task } }
          else none

/-- No issue is filed yet. -/
def system : System World Label where
  start world :=
    (∀ number, world.issues number = none) ∧ world.listing = [] ∧ world.entries = []
  next := next authz

/-- A command of somebody who may give it. -/
def isCommand (post : Post) : Bool :=
  (parseTitanCommand post.body).isSome && (authorizeActor post.actor authz).ok

/-- The comment is newer than the cursor of the record. -/
def IsAhead (task : Task) (post : Post) : Prop :=
  ∀ seen ∈ task.issueUpdatedAtSeen, seen < post.createdAt

instance (task : Task) (post : Post) : Decidable (IsAhead task post) :=
  inferInstanceAs (Decidable (∀ seen ∈ task.issueUpdatedAtSeen, seen < post.createdAt))

/-- The commands on an issue are applied in their order, none twice and none passed over: what
has not been applied is newer than the cursor and has bumped the issue. -/
def AppliedInOrder (issue : IssueState) (entry : Entry) : Prop :=
  ∃ later, issue.posts.filter (isCommand authz) = entry.applied ++ later ∧
    ∀ post ∈ later, IsAhead entry.task post ∧ post.createdAt ≤ issue.updatedAt

def AllInOrder (world : World) : Prop :=
  ∀ entry ∈ world.entries, ∀ number issue, entry.task.issueNumber = some number →
    world.issues number = some issue → AppliedInOrder authz issue entry

/-- A retry that was posted before the end of the run it would repeat. -/
def IsStaleRetry (task : Task) (post : Post) : Prop :=
  ∃ command ∈ parseTitanCommand post.body, command.verb = .retry ∧
    ∃ done ∈ task.completedAt, post.createdAt ≤ done

instance (task : Task) (post : Post) : Decidable (IsStaleRetry task post) :=
  inferInstanceAs (Decidable (∃ command ∈ parseTitanCommand post.body, command.verb = .retry ∧
    ∃ done ∈ task.completedAt, post.createdAt ≤ done))

/-- The examination of a bumped issue gets hold of every command on it that is newer than the
cursor; none of these is newer than the listed date of the issue, and none is a retry of an
earlier life of the task. -/
def CatchesUp (ready : Bool) (failure : Option String) (task : Task) (listed : Issue)
    (posts : List Post) : Prop :=
  let since := seenAt task <|> task.createdAt
  let fresh := posts.filter fun post => Github.isSince since post.comment
  (∀ post ∈ fresh.drop (pageOf ready failure posts since).length,
      isCommand authz post = false) ∧
    ∀ post ∈ posts, isCommand authz post = true → IsAhead task post →
      (∀ updatedAt ∈ listed.updatedAt, post.createdAt ≤ updatedAt) ∧ ¬ IsStaleRetry task post

instance (ready : Bool) (failure : Option String) (task : Task) (listed : Issue)
    (posts : List Post) : Decidable (CatchesUp authz ready failure task listed posts) :=
  inferInstanceAs (Decidable (_ ∧ _))

/-- The guard of the runs that apply every command once. -/
def Careful (world : World) : Label → Prop
  | .post number body actor =>
      let post : Post := { createdAt := second world.clock, body, actor }
      isCommand authz post = true → ∀ entry ∈ world.entries,
        entry.task.issueNumber = some number → IsAhead entry.task post
  | .know task => ∀ number ∈ task.issueNumber, ∀ issue ∈ world.issues number,
      ∀ post ∈ issue.posts, isCommand authz post = true → issue.createdAt < post.createdAt
  | .examine index ready failure => ∀ entry ∈ world.entries[index]?,
      ∀ number ∈ entry.task.issueNumber, ∀ listed ∈ findIssue world.listing number,
        isBumped entry.task listed = true → ∀ issue ∈ world.issues number,
          CatchesUp authz ready failure entry.task listed issue.posts
  | _ => True

instance (world : World) (label : Label) : Decidable (Careful authz world label) :=
  match label with
  | .post _ _ _ => inferInstanceAs (Decidable (_ → _))
  | .know task => inferInstanceAs (Decidable (∀ number ∈ task.issueNumber,
      ∀ issue ∈ world.issues number, ∀ post ∈ issue.posts, _ → _))
  | .examine index ready failure =>
      inferInstanceAs (Decidable (∀ entry ∈ world.entries[index]?,
        ∀ number ∈ entry.task.issueNumber, ∀ listed ∈ findIssue world.listing number,
          isBumped entry.task listed = true → ∀ issue ∈ world.issues number,
            CatchesUp authz ready failure entry.task listed issue.posts))
  | .tick _ | .file _ | .bump _ _ | .list _ | .change _ _ => isTrue trivial

/-! ## One examination -/

/-- An action writes the cursor only when it is the cursor it writes. -/
def keepsCursor : Action → Bool
  | .write (.issueUpdatedAtSeen _) => false
  | _ => true

theorem apply_issueUpdatedAtSeen (task : Task) {action : Action}
    (keeps : keepsCursor action = true) :
    (action.apply task).issueUpdatedAtSeen = task.issueUpdatedAtSeen := by
  cases action with
  | move target ctx => exact moveTask_issueUpdatedAtSeen task target ctx
  | write patch =>
      cases patch with
      | issueUpdatedAtSeen => contradiction
      | _ => rfl

theorem applyAll_issueUpdatedAtSeen (task : Task) {actions : List Action}
    (keeps : actions.all keepsCursor = true) :
    (Action.applyAll task actions).issueUpdatedAtSeen = task.issueUpdatedAtSeen := by
  induction actions generalizing task with
  | nil => rfl
  | cons action rest ih =>
      rw [List.all_cons, Bool.and_eq_true] at keeps
      rw [Action.applyAll, List.foldl_cons, ← Action.applyAll, ih _ keeps.2,
        apply_issueUpdatedAtSeen task keeps.1]

theorem commandActions_keepsCursor (now : Time) (by' : String) (task : Task)
    (command : Command) : (commandActions now by' task command).all keepsCursor = true := by
  unfold commandActions
  cases command.verb with
  | retry | resume =>
      dsimp only
      split <;> rfl
  | cancel | pause =>
      dsimp only
      split
      next => rfl
      next => split <;> rfl
  | priority =>
      dsimp only
      split <;> rfl
  | approve | deny =>
      simp only [List.all_cons, keepsCursor, Bool.true_and]
      split <;> rfl

theorem commentsActions_keepsCursor (deps : Deps) (since completedAt : Option Time)
    (task : Task) (comments : List Comment) :
    (commentsActions deps since completedAt task comments).all keepsCursor = true := by
  induction comments generalizing task with
  | nil => rfl
  | cons comment rest ih =>
      rw [commentsActions, List.all_append, ih, Bool.and_true]
      unfold commentActions
      split
      next => rfl
      next =>
        dsimp only
        split
        next => rfl
        next => exact commandActions_keepsCursor _ _ _ _

/-- The record after its examination. -/
theorem reconcileTask_cursor {deps : Deps} {listing : List Issue} {task : Task}
    {report : Report} (ran : reconcileTask deps listing task = .ok report) :
    report.task.issueNumber = task.issueNumber ∧
      report.task.issueUpdatedAtSeen =
        match task.issueNumber.bind (findIssue listing) with
        | none => task.issueUpdatedAtSeen
        | some issue =>
            if isBumped task issue then issue.updatedAt else task.issueUpdatedAtSeen := by
  have same := reconcileTask_eq deps listing task
  rw [ran] at same
  have same' := Except.ok.inj same
  constructor
  · rw [same', Action.applyAll_issueNumber]
  · rw [same', syncActions]
    cases task.issueNumber with
    | none => rfl
    | some number =>
        rw [Option.bind_some]
        cases listed : findIssue listing number with
        | none =>
            simp only [listed]
            apply applyAll_issueUpdatedAtSeen
            split <;> rfl
        | some issue =>
            simp only [listed]
            cases bumped : isBumped task issue with
            | false => simp only [if_true, Bool.false_eq_true, if_false]; rfl
            | true =>
                rw [if_neg (by simp), if_pos rfl, Action.applyAll, List.foldl_cons,
                  ← Action.applyAll, applyAll_issueUpdatedAtSeen]
                · rfl
                · exact commentsActions_keepsCursor _ _ _ _ _

/-! ## What a careful run keeps -/

/-- What is newer than a cursor follows what is not. -/
theorem filter_split {posts : List Post} (sorted : posts.Pairwise fun first second =>
      first.createdAt ≤ second.createdAt) (seen : Time) :
    posts = posts.filter (fun post => decide (post.createdAt ≤ seen)) ++
      posts.filter fun post => decide (seen < post.createdAt) := by
  induction sorted with
  | nil => rfl
  | @cons post rest after _ ih =>
      by_cases old : post.createdAt ≤ seen
      · rw [List.filter_cons_of_pos (by simpa using old),
          List.filter_cons_of_neg (by simpa using old), List.cons_append, ← ih]
      · have none' : rest.filter (fun other => decide (other.createdAt ≤ seen)) = [] := by
          apply List.filter_eq_nil_iff.2
          intro other inside
          rw [decide_eq_true_eq, Int.not_le]
          exact Int.lt_of_lt_of_le (Int.not_le.1 old) (after other inside)
        rw [none', List.nil_append] at ih
        rw [List.filter_cons_of_neg (by simpa using old), none', List.nil_append,
          List.filter_cons_of_pos (by simpa using old), ← ih]

/-- The commands of an issue that are not newer than a date. -/
def commandsUntil (posts : List Post) (seen : Time) : List Post :=
  (posts.filter (isCommand authz)).filter fun post => decide (post.createdAt ≤ seen)

/-- What the runs keep of an issue. -/
structure IssueState.Wf (issue : IssueState) : Prop where
  sorted : issue.posts.Pairwise fun first second => first.createdAt ≤ second.createdAt
  bumped : ∀ post ∈ issue.posts, post.createdAt ≤ issue.updatedAt

/-- What the runs keep of a record: what was applied is what is not newer than its cursor. -/
structure Entry.Wf (issues : Nat → Option IssueState) (entry : Entry) : Prop where
  known : ∃ number issue seen, entry.task.issueNumber = some number ∧
    issues number = some issue ∧ entry.task.issueUpdatedAtSeen = some seen ∧
    entry.applied = commandsUntil authz issue.posts seen

structure Wf (world : World) : Prop where
  issues : ∀ number issue, world.issues number = some issue →
    issue.Wf ∧ issue.updatedAt ≤ second world.clock
  listing : ∀ issue ∈ world.listing, ∃ updatedAt, issue.updatedAt = some updatedAt
  entries : ∀ entry ∈ world.entries, entry.Wf authz world.issues

variable {authz}

theorem Wf.inOrder {world : World} (wf : Wf authz world) : AllInOrder authz world := by
  intro entry inside number issue fromIssue found
  have ⟨number', issue', seen, fromIssue', found', cursor, applied⟩ :=
    (wf.entries entry inside).known
  cases fromIssue.symm.trans fromIssue'
  cases found.symm.trans found'
  have ⟨kept, _⟩ := wf.issues number issue found
  have sorted := kept.sorted.filter (isCommand authz)
  refine ⟨(issue.posts.filter (isCommand authz)).filter fun post =>
    decide (seen < post.createdAt), ?_, ?_⟩
  · rw [applied]
    exact filter_split sorted seen
  · intro post later
    have ⟨command, ahead⟩ := List.mem_filter.1 later
    constructor
    · intro seen' cursor'
      cases cursor.symm.trans cursor'
      exact of_decide_eq_true ahead
    · exact kept.bumped post (List.mem_filter.1 command).1

theorem second_mono {earlier later : Time} (passed : earlier ≤ later) :
    second earlier ≤ second later := by
  unfold second Time at *
  omega

theorem commandsUntil_append {posts : List Post} {post : Post} {seen : Time}
    (ahead : isCommand authz post = true → seen < post.createdAt) :
    commandsUntil authz (posts ++ [post]) seen = commandsUntil authz posts seen := by
  rw [commandsUntil, List.filter_append, List.filter_append]
  have none' : ([post].filter (isCommand authz)).filter
      (fun post => decide (post.createdAt ≤ seen)) = [] := by
    cases command : isCommand authz post with
    | false => rw [List.filter_cons_of_neg (by simp [command])]; rfl
    | true =>
        have later := ahead command
        rw [List.filter_cons_of_pos command, List.filter_nil, List.filter_cons_of_neg]
        · rfl
        · simpa using later
  rw [none', List.append_nil]
  rfl

theorem commandOf_isSome_iff {since completedAt : Option Time} {post : Post} :
    (commandOf since completedAt post.comment).isSome = true ↔
      ∃ command, parseTitanCommand post.body = some command ∧
        isFresh since completedAt command.verb (some post.createdAt) = true := by
  rw [commandOf]
  constructor
  · intro found
    split at found
    next => contradiction
    next command parsed =>
      split at found
      next fresh => exact ⟨command, parsed, fresh⟩
      next => contradiction
  · intro ⟨command, parsed, fresh⟩
    have parsed' : parseTitanCommand post.comment.body = some command := parsed
    have fresh' : isFresh since completedAt command.verb post.comment.createdAt = true := fresh
    simp only [parsed', fresh', if_true, Option.isSome_some]

/-- A comment newer than the cursor is applied unless it is a stale retry. -/
theorem applies_iff {task : Task} {seen : Time} {post : Post}
    (honoured : isCommand authz post = true → seen < post.createdAt → ¬ IsStaleRetry task post) :
    ((commandOf (some seen) task.completedAt post.comment).isSome &&
        (authorizeActor post.actor authz).ok) = true ↔
      isCommand authz post = true ∧ seen < post.createdAt := by
  rw [Bool.and_eq_true, commandOf_isSome_iff]
  constructor
  · intro ⟨⟨command, parsed, fresh⟩, trusted⟩
    simp only [isFresh, Bool.and_eq_true, decide_eq_true_eq] at fresh
    constructor
    · rw [isCommand, parsed, trusted]
      rfl
    · exact fresh.1
  · intro ⟨isCommand', newer⟩
    have current := honoured isCommand' newer
    rw [isCommand, Bool.and_eq_true, Option.isSome_iff_exists] at isCommand'
    have ⟨⟨command, parsed⟩, trusted⟩ := isCommand'
    refine ⟨⟨command, parsed, ?_⟩, trusted⟩
    simp only [isFresh, Bool.and_eq_true, decide_eq_true_eq, Bool.or_eq_true]
    refine ⟨newer, ?_⟩
    by_cases retry : command.verb = .retry
    · right
      cases done : task.completedAt with
      | none => rfl
      | some ended =>
          apply decide_eq_true
          apply Int.not_le.1
          intro stale
          exact current ⟨command, parsed, retry, ended, done, stale⟩
    · exact .inl retry

theorem pageOf_eq_take (ready : Bool) (failure : Option String) (posts : List Post)
    (since : Option Time) :
    pageOf ready failure posts since =
      (posts.filter fun post => Github.isSince since post.comment).take
        (pageOf ready failure posts since).length := by
  unfold pageOf
  split
  next => rw [List.length_take, List.take_eq_take_min, ← List.take_eq_take_min]
  next => rfl

/-- The commands a page gives, when it holds every command that is newer than the cursor and
none of them is a stale retry. -/
theorem appliedBy_page {task : Task} {listed : Issue} {posts : List Post} {ready : Bool}
    {failure : Option String} {seen : Time} (cursor : task.issueUpdatedAtSeen = some seen)
    (caught : CatchesUp authz ready failure task listed posts) :
    appliedBy authz (some seen) task.completedAt (pageOf ready failure posts (some seen)) =
      (posts.filter (isCommand authz)).filter fun post => decide (seen < post.createdAt) := by
  have since : (seenAt task <|> task.createdAt) = some seen := by
    rw [seenAt, cursor]
    rfl
  have ⟨missed, ahead⟩ := caught
  rw [since] at missed
  have none' : appliedBy authz (some seen) task.completedAt
      ((posts.filter fun post => Github.isSince (some seen) post.comment).drop
        (pageOf ready failure posts (some seen)).length) = [] := by
    apply List.filter_eq_nil_iff.2
    intro post inside applies
    rw [Bool.and_eq_true, commandOf_isSome_iff] at applies
    have ⟨⟨command, parsed, _⟩, trusted⟩ := applies
    have refused := missed post inside
    rw [isCommand, parsed, trusted] at refused
    contradiction
  calc appliedBy authz (some seen) task.completedAt (pageOf ready failure posts (some seen))
    _ = appliedBy authz (some seen) task.completedAt
          (posts.filter fun post => Github.isSince (some seen) post.comment) := by
        conv_rhs => rw [← List.take_append_drop (pageOf ready failure posts (some seen)).length
          (posts.filter fun post => Github.isSince (some seen) post.comment)]
        rw [← pageOf_eq_take]
        rw [appliedBy] at none'
        rw [appliedBy, appliedBy, List.filter_append, none', List.append_nil]
    _ = (posts.filter (isCommand authz)).filter fun post => decide (seen < post.createdAt) := by
        rw [appliedBy, List.filter_filter, List.filter_filter]
        apply List.filter_congr
        intro post inside
        have applies : ((commandOf (some seen) task.completedAt post.comment).isSome &&
            (authorizeActor post.actor authz).ok) = true ↔
              isCommand authz post = true ∧ seen < post.createdAt :=
          applies_iff fun command newer => (ahead post inside command fun seen' same => by
            cases cursor.symm.trans same
            exact newer).2
        rw [Bool.eq_iff_iff, Bool.and_eq_true _ (Github.isSince _ _), applies,
          Bool.and_eq_true (decide _), decide_eq_true_eq]
        constructor
        · exact fun ⟨⟨command, newer⟩, _⟩ => ⟨newer, command⟩
        · intro ⟨newer, command⟩
          exact ⟨⟨command, newer⟩, decide_eq_true (Int.le_of_lt newer)⟩

/-- The commands up to the listed date are those up to the cursor and the newer ones. -/
theorem commandsUntil_bump {task : Task} {listed : Issue} {issue : IssueState} {ready : Bool}
    {failure : Option String} {seen updatedAt : Time} (kept : issue.Wf)
    (cursor : task.issueUpdatedAtSeen = some seen) (dated : listed.updatedAt = some updatedAt)
    (bumped : isBumped task listed = true)
    (caught : CatchesUp authz ready failure task listed issue.posts) :
    commandsUntil authz issue.posts updatedAt = issue.posts.filter (isCommand authz) ∧
      commandsUntil authz issue.posts seen ++
          (issue.posts.filter (isCommand authz)).filter
            (fun post => decide (seen < post.createdAt)) =
        issue.posts.filter (isCommand authz) := by
  have newer : seen < updatedAt := by
    rw [isBumped, dated, seenAt, cursor] at bumped
    exact of_decide_eq_true bumped
  constructor
  · apply List.filter_eq_self.2
    intro post inside
    have ⟨among, command⟩ := List.mem_filter.1 inside
    apply decide_eq_true
    by_cases old : post.createdAt ≤ seen
    · exact Int.le_trans old (Int.le_of_lt newer)
    · have ahead : IsAhead task post := by
        intro seen' same
        cases cursor.symm.trans same
        exact Int.not_le.1 old
      exact (caught.2 post among command ahead).1 updatedAt dated
  · exact (filter_split (kept.sorted.filter (isCommand authz)) seen).symm

theorem isBumped_listed {listing : List Issue} {number : Nat} {issue : Issue}
    (found : findIssue listing number = some issue) : issue ∈ listing :=
  List.mem_reverse.1 (List.mem_of_find?_eq_some found)

/-- After the examination of a bumped issue every command on it has been applied. -/
theorem applied_examined {world : World} (wf : Wf authz world) {entry : Entry}
    (held : entry.Wf authz world.issues) {number : Nat} {listed : Issue} {issue : IssueState}
    {ready : Bool} {failure : Option String} (fromIssue : entry.task.issueNumber = some number)
    (shown : findIssue world.listing number = some listed)
    (bumped : isBumped entry.task listed = true) (found : world.issues number = some issue)
    (caught : CatchesUp authz ready failure entry.task listed issue.posts) :
    ∃ updatedAt, listed.updatedAt = some updatedAt ∧
      entry.applied ++ examined authz world ready failure entry.task =
        issue.posts.filter (isCommand authz) ∧
      commandsUntil authz issue.posts updatedAt = issue.posts.filter (isCommand authz) := by
  have ⟨number', issue', seen, fromIssue', found', cursor, applied⟩ := held.known
  cases fromIssue.symm.trans fromIssue'
  cases found.symm.trans found'
  have ⟨updatedAt, dated⟩ := wf.listing listed (isBumped_listed shown)
  have ⟨kept, _⟩ := wf.issues number issue found
  have ⟨all, parts⟩ := commandsUntil_bump kept cursor dated bumped caught
  have since : (seenAt entry.task <|> entry.task.createdAt) = some seen := by
    rw [seenAt, cursor]
    rfl
  have fetched : examined authz world ready failure entry.task =
      (issue.posts.filter (isCommand authz)).filter
        fun post => decide (seen < post.createdAt) := by
    simp only [examined, fromIssue, shown, bumped, Bool.true_eq_false, if_false, since,
      postsOf, found, Option.map_some, Option.getD_some]
    exact appliedBy_page cursor caught
  refine ⟨updatedAt, dated, ?_, all⟩
  rw [fetched, applied, parts]

/-- An entry after its examination. -/
theorem entry_examined {world : World} (wf : Wf authz world) {entry : Entry}
    (held : entry.Wf authz world.issues) {ready : Bool} {failure : Option String}
    (caught : ∀ number listed issue, entry.task.issueNumber = some number →
      findIssue world.listing number = some listed → isBumped entry.task listed = true →
      world.issues number = some issue →
        CatchesUp authz ready failure entry.task listed issue.posts)
    {report : Report} (ran : reconcileTask (depsOf authz world ready failure) world.listing
      entry.task = .ok report) :
    Entry.Wf authz world.issues {
      task := report.task
      applied := entry.applied ++ examined authz world ready failure entry.task } := by
  have ⟨number, issue, seen, fromIssue, found, cursor, applied⟩ := held.known
  have ⟨sameNumber, afterCursor⟩ := reconcileTask_cursor ran
  rw [fromIssue] at sameNumber
  rw [fromIssue, Option.bind_some] at afterCursor
  have unchanged (cursor' : report.task.issueUpdatedAtSeen = some seen)
      (nothing : examined authz world ready failure entry.task = []) :
      Entry.Wf authz world.issues {
        task := report.task
        applied := entry.applied ++ examined authz world ready failure entry.task } := by
    rw [nothing, List.append_nil]
    exact ⟨number, issue, seen, sameNumber, found, cursor', applied⟩
  cases shown : findIssue world.listing number with
  | none =>
      rw [shown] at afterCursor
      apply unchanged (afterCursor.trans cursor)
      simp only [examined, fromIssue, shown]
  | some listed =>
      rw [shown] at afterCursor
      cases bumped : isBumped entry.task listed with
      | false =>
          simp only [bumped] at afterCursor
          apply unchanged (afterCursor.trans cursor)
          simp only [examined, fromIssue, shown, bumped, if_true]
      | true =>
          simp only [bumped, if_true] at afterCursor
          have ⟨updatedAt, dated, every, all⟩ := applied_examined wf held fromIssue shown bumped
            found (caught number listed issue fromIssue shown bumped found)
          exact ⟨number, issue, updatedAt, sameNumber, found, afterCursor.trans dated,
            every.trans all.symm⟩

theorem Wf.setIssue {world : World} (wf : Wf authz world) {number : Nat} {issue : IssueState}
    (kept : issue.Wf) (dated : issue.updatedAt ≤ second world.clock)
    (same : ∀ entry ∈ world.entries, entry.task.issueNumber = some number → ∀ old seen,
      world.issues number = some old → entry.task.issueUpdatedAtSeen = some seen →
        commandsUntil authz issue.posts seen = commandsUntil authz old.posts seen) :
    Wf authz (world.setIssue number issue) where
  listing := wf.listing
  issues other found isFound := by
    simp only [World.setIssue] at isFound
    split at isFound
    next =>
      cases isFound
      exact ⟨kept, dated⟩
    next => exact wf.issues other found isFound
  entries entry inside := by
    have ⟨own, before, seen, fromIssue, found, cursor, applied⟩ := (wf.entries entry inside).known
    by_cases here : own = number
    · subst here
      refine ⟨own, issue, seen, fromIssue, if_pos rfl, cursor, ?_⟩
      rw [applied, same entry inside fromIssue before seen found cursor]
    · exact ⟨own, before, seen, fromIssue, (if_neg here).trans found, cursor, applied⟩

theorem Wf.setEntry {world : World} (wf : Wf authz world) {index : Nat} {entry : Entry}
    (held : entry.Wf authz world.issues) :
    Wf authz { world with entries := world.entries.set index entry } where
  listing := wf.listing
  issues := wf.issues
  entries other inside := by
    cases List.mem_or_eq_of_mem_set inside with
    | inl old => exact wf.entries other old
    | inr same => exact same ▸ held

/-- One step. -/
theorem Wf.next {world after : World} {label : Label} (wf : Wf authz world)
    (careful : Careful authz world label)
    (stepped : CommandsOnce.next authz world label = some after) : Wf authz after := by
  cases label with
  | tick clock =>
      simp only [CommandsOnce.next] at stepped
      split at stepped
      next passed =>
        cases stepped
        refine ⟨fun number issue found => ?_, wf.listing, wf.entries⟩
        have ⟨kept, dated⟩ := wf.issues number issue found
        exact ⟨kept, Int.le_trans dated (second_mono passed)⟩
      next => contradiction
  | file number =>
      simp only [CommandsOnce.next] at stepped
      split at stepped
      next => contradiction
      next absent =>
        cases stepped
        apply wf.setIssue
        · exact ⟨.nil, fun post inside => by contradiction⟩
        · exact Int.le_refl _
        · intro entry _ _ old seen found
          rw [absent] at found
          contradiction
  | bump number isOpen =>
      simp only [CommandsOnce.next] at stepped
      split at stepped
      next => contradiction
      next issue found =>
        cases stepped
        have ⟨kept, dated⟩ := wf.issues number issue found
        apply wf.setIssue
        · exact ⟨kept.sorted, fun post inside => Int.le_trans (kept.bumped post inside) dated⟩
        · exact Int.le_refl _
        · intro entry _ _ old seen found' _
          cases found.symm.trans found'
          rfl
  | post number body actor =>
      simp only [CommandsOnce.next] at stepped
      split at stepped
      next => contradiction
      next issue found =>
        cases stepped
        have ⟨kept, dated⟩ := wf.issues number issue found
        have before : ∀ post ∈ issue.posts, post.createdAt ≤ second world.clock :=
          fun post inside => Int.le_trans (kept.bumped post inside) dated
        apply wf.setIssue
        · constructor
          · apply List.pairwise_append.2
            refine ⟨kept.sorted, List.pairwise_singleton _ _, ?_⟩
            intro post old new fresh
            rw [List.mem_singleton.1 fresh]
            exact before post old
          · intro post inside
            cases List.mem_append.1 inside with
            | inl old => exact before post old
            | inr fresh => exact Int.le_of_eq (congrArg Post.createdAt (List.mem_singleton.1 fresh))
        · exact Int.le_refl _
        · intro entry inside fromIssue old seen found' cursor
          cases found.symm.trans found'
          apply commandsUntil_append
          intro command
          exact careful command entry inside fromIssue seen cursor
  | know task =>
      simp only [CommandsOnce.next] at stepped
      split at stepped
      next => contradiction
      next number fromIssue =>
        split at stepped
        next => contradiction
        next issue found =>
          split at stepped
          next cursor =>
            cases stepped
            refine ⟨wf.issues, wf.listing, fun entry inside => ?_⟩
            cases List.mem_append.1 inside with
            | inl old => exact wf.entries entry old
            | inr new =>
                rw [List.mem_singleton.1 new]
                refine ⟨number, issue, issue.createdAt, fromIssue, found, cursor.1, ?_⟩
                symm
                apply List.filter_eq_nil_iff.2
                intro post among
                have ⟨posted, command⟩ := List.mem_filter.1 among
                have ahead := careful number fromIssue issue found post posted command
                rw [decide_eq_true_eq]
                exact Int.not_le.2 ahead
          next => contradiction
  | list numbers =>
      cases stepped
      refine ⟨wf.issues, fun listed inside => ?_, wf.entries⟩
      have ⟨number, _, shown⟩ := List.mem_filterMap.1 inside
      split at shown
      next => contradiction
      next issue _ =>
        split at shown
        next =>
          cases shown
          exact ⟨issue.updatedAt, rfl⟩
        next => contradiction
  | examine index ready failure =>
      simp only [CommandsOnce.next] at stepped
      split at stepped
      next => contradiction
      next entry found =>
        split at stepped
        next => contradiction
        next report ran =>
          cases stepped
          have held := wf.entries entry (List.mem_of_getElem? found)
          apply wf.setEntry
          apply entry_examined wf held _ ran
          intro number listed issue fromIssue shown bumped
          exact careful entry found number fromIssue listed shown bumped issue
  | change index task =>
      simp only [CommandsOnce.next] at stepped
      split at stepped
      next => contradiction
      next entry found =>
        split at stepped
        next same =>
          cases stepped
          apply wf.setEntry
          have ⟨number, issue, seen, fromIssue, known, cursor, applied⟩ :=
            (wf.entries entry (List.mem_of_getElem? found)).known
          exact ⟨number, issue, seen, same.1.trans fromIssue, known, same.2.trans cursor, applied⟩
        next => contradiction

/-- A careful examination of a bumped issue leaves no command unapplied that was posted on it. -/
def LeavesNone (authz : AuthorizationContext) (world : World) : Prop :=
  ∀ index ready failure after entry number listed issue,
    Careful authz world (.examine index ready failure) →
    CommandsOnce.next authz world (.examine index ready failure) = some after →
    world.entries[index]? = some entry → entry.task.issueNumber = some number →
    findIssue world.listing number = some listed → isBumped entry.task listed = true →
    world.issues number = some issue →
      ∃ examined, after.entries[index]? = some examined ∧
        examined.applied = issue.posts.filter (isCommand authz)

theorem Wf.leavesNone {world : World} (wf : Wf authz world) : LeavesNone authz world := by
  intro index ready failure after entry number listed issue careful stepped found fromIssue
    shown bumped filed
  have held := wf.entries entry (List.mem_of_getElem? found)
  have ⟨_, _, every, _⟩ := applied_examined wf held fromIssue shown bumped filed
    (careful entry found number fromIssue listed shown bumped issue filed)
  simp only [CommandsOnce.next, found] at stepped
  split at stepped
  next => contradiction
  next report _ =>
    cases stepped
    have inside := (List.getElem?_eq_some_iff.1 found).1
    exact ⟨_, List.getElem?_set_self inside, every⟩

/-- In every run whose examinations catch up, and in which nobody posts a command in the second
the cursor stands at, the commands of an issue are applied in their order, each once: what is
not applied yet is ahead of the cursor, and the next examination applies it. -/
theorem appliedOnce_of_reachable {world : World}
    (reachable : (system authz).Reachable (Careful authz) world) :
    AllInOrder authz world ∧ LeavesNone authz world := by
  suffices wf : Wf authz world from ⟨wf.inOrder, wf.leavesNone⟩
  apply reachable.invariant (Wf authz)
  · intro start ⟨unfiled, unlisted, empty⟩
    constructor
    · intro number issue found
      rw [unfiled number] at found
      contradiction
    · rw [unlisted]
      exact fun issue inside => by contradiction
    · rw [empty]
      exact fun entry inside => by contradiction
  · intro before label after _ wf careful stepped
    exact wf.next careful stepped

/-! ## Who steers -/

/-- What an examination applies was posted on the issue of the record, as a command, by somebody
who is vouched for; and the record comes out as if nothing else had been posted. -/
structure Steered (authz : AuthorizationContext) (world : World) (ready : Bool)
    (failure : Option String) (task : Task) : Prop where
  vouched : ∀ post ∈ examined authz world ready failure task,
    (∃ number ∈ task.issueNumber, post ∈ postsOf world number) ∧
      (parseTitanCommand post.body).isSome = true ∧ Vouched post.actor authz
  alone : (reconcileTask (depsOf authz world ready failure) world.listing task).map Report.task =
    (reconcileTask { depsOf authz world ready failure with
      listComments := fun _ _ => (examined authz world ready failure task).map Post.comment }
        world.listing task).map Report.task

/-- The comments that are not applied do nothing. -/
theorem commentsActions_appliedBy (deps : Deps)
    (listComments : Nat → Option Time → List Comment) (since completedAt : Option Time)
    (page : List Post) (task : Task) :
    commentsActions { deps with listComments } since completedAt task
        ((appliedBy deps.authz since completedAt page).map Post.comment) =
      commentsActions deps since completedAt task (page.map Post.comment) := by
  induction page generalizing task with
  | nil => rfl
  | cons post rest ih =>
      rw [appliedBy, List.map_cons, commentsActions, List.filter_cons]
      split
      next =>
        rw [List.map_cons, commentsActions]
        exact congrArg _ (ih _)
      next passedOver =>
        have nothing : commentActions deps since completedAt task post.comment = [] := by
          rw [commentActions]
          split
          next => rfl
          next found =>
            rw [found, Option.isSome_some, Bool.true_and, Bool.not_eq_true] at passedOver
            exact if_pos passedOver
        rw [nothing]
        exact ih task

theorem steered_examined (authz : AuthorizationContext) (world : World) (ready : Bool)
    (failure : Option String) (task : Task) : Steered authz world ready failure task := by
  constructor
  · intro post applies
    rw [examined] at applies
    split at applies
    next => contradiction
    next number fromIssue =>
      split at applies
      next => contradiction
      next =>
        split at applies
        next => contradiction
        next =>
          have ⟨fetched, taken⟩ := List.mem_filter.1 applies
          rw [Bool.and_eq_true, commandOf_isSome_iff, authorizeActor_ok_iff] at taken
          have ⟨⟨command, parsed, _⟩, vouched⟩ := taken
          rw [pageOf_eq_take] at fetched
          have posted := (List.mem_filter.1 (List.mem_of_mem_take fetched)).1
          exact ⟨⟨number, fromIssue, posted⟩, parsed ▸ rfl, vouched⟩
  · rw [reconcileTask_eq, reconcileTask_eq, syncActions, syncActions]
    split
    next => rfl
    next number fromIssue =>
      split
      next => rfl
      next issue listed =>
        split
        next => rfl
        next bumped =>
          have page (since : Option Time) : (depsOf authz world ready failure).listComments number
              since = (pageOf ready failure (postsOf world number) since).map Post.comment := by
            simp only [depsOf, Github.listIssueComments, pageOf]
            cases ready <;> cases failure <;> simp [List.filter_map, List.map_take]
            rfl
          simp only [examined, fromIssue, listed, if_neg bumped, page]
          exact congrArg (fun actions => Except.ok (Action.applyAll task (_ :: actions)))
            (commentsActions_appliedBy _ _ _ _ _ _).symm

/-! ## Runs -/

def owner : Actor := { login := some "owner" }

def ownersAuthz : AuthorizationContext where
  allowlist := []
  repoOwner := some "owner"
  trustAssociations := false

def issueTask : Task where
  id := "issue-1"
  issueNumber := some 1
  createdAt := some 500
  issueUpdatedAtSeen := some 0

/-- Two comments in one second, then one that is posted after a pulse. -/
def orderlyRun : List Label := [
  .file 1, .know issueTask,
  .tick 5200, .post 1 "/titan priority high" owner, .post 1 "/titan pause" owner,
  .list [1], .examine 0 true none,
  .tick 9000, .post 1 "/titan resume" owner, .post 1 "Thank you" owner,
  .list [1], .examine 0 true none]

/-- A command is posted after the issues were listed and before the comments were. -/
def replayRun : List Label := [
  .file 1, .know issueTask,
  .tick 5000, .post 1 "/titan pause" owner,
  .list [1],
  .tick 6000, .post 1 "/titan resume" owner,
  .examine 0 true none,
  .list [1], .examine 0 true none]

theorem start_empty : (system ownersAuthz).start {} := ⟨fun _ => rfl, rfl, rfl⟩

theorem orderlyRun_runs :
    ((system ownersAuthz).exec (Careful ownersAuthz) {} orderlyRun).any (fun world =>
      decide (world.entries.map (fun entry => entry.applied.map Post.body) =
        [["/titan priority high", "/titan pause", "/titan resume"]])) = true := by
  decide +kernel

theorem appliedOnce_of_orderlyRun : ∃ world : World,
    world.entries.map (fun entry => entry.applied.map Post.body) =
      [["/titan priority high", "/titan pause", "/titan resume"]] ∧
    AllInOrder ownersAuthz world ∧ LeavesNone ownersAuthz world := by
  have ⟨world, reached, ran⟩ := System.Reachable.exists_of_exec (.start start_empty) orderlyRun_runs
  exact ⟨world, of_decide_eq_true ran, appliedOnce_of_reachable reached⟩

/-- What is applied twice is not applied in order. -/
theorem replayed_of_run : ((system ownersAuthz).exec always {} replayRun).any (fun world =>
    world.entries.any fun entry => decide (entry.task.issueNumber = some 1) &&
      (world.issues 1).any fun issue =>
        decide ((issue.posts.filter (isCommand ownersAuthz)).length < entry.applied.length)) =
      true := by
  decide +kernel

theorem not_appliedOnce_of_replayRun :
    ¬ ∀ world, (system ownersAuthz).Reachable always world → AllInOrder ownersAuthz world := by
  intro all
  have ⟨world, reached, ran⟩ := System.Reachable.exists_of_exec (.start start_empty) replayed_of_run
  rw [List.any_eq_true] at ran
  have ⟨entry, inside, twice⟩ := ran
  rw [Bool.and_eq_true, decide_eq_true_eq] at twice
  cases filed : world.issues 1 with
  | none =>
      rw [filed] at twice
      exact Bool.noConfusion twice.2
  | some issue =>
      rw [filed] at twice
      have ⟨later, same, _⟩ := all world reached entry inside 1 issue twice.1 filed
      have more := of_decide_eq_true twice.2
      rw [same, List.length_append] at more
      omega

end CommandsOnce

end TitanRunner
