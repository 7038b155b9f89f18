import TitanRunner.State.Maintenance

/-!
# Archival keeps the records

Each of the functions that roll files into archives moves them: it files the records of a file
before it deletes the file.  From that, and as long as one id is one record, no pass and no
crash within one changes what the state directory and the archives hold together.
-/

namespace TitanRunner

namespace Archive

open TransitionSystem System
open Utf16 (ofString)

section Groups

variable {Item : Type} {monthOf : Item → Utf16} {items : List Item}

theorem mem_byMonth {month : Utf16} {list : List Item} :
    (month, list) ∈ byMonth monthOf items ↔
      (∃ item ∈ items, monthOf item = month) ∧
        list = items.filter fun item => decide (monthOf item = month) := by
  simp only [byMonth, List.mem_map, List.mem_eraseDups, Prod.mk.injEq]
  constructor
  · intro found
    have ⟨month', inside, same, list'⟩ := found
    exact ⟨same ▸ inside, same ▸ list'.symm⟩
  · intro found
    exact ⟨month, found.1, rfl, found.2.symm⟩

theorem mem_of_mem_byMonth {group : Utf16 × List Item} (inside : group ∈ byMonth monthOf items)
    {item : Item} (here : item ∈ group.2) : item ∈ items ∧ monthOf item = group.1 := by
  rw [(mem_byMonth.1 inside).2, List.mem_filter, decide_eq_true_eq] at here
  exact here

theorem exists_mem_byMonth (monthOf : Item → Utf16) {item : Item} (inside : item ∈ items) :
    ∃ group ∈ byMonth monthOf items, monthOf item = group.1 ∧ item ∈ group.2 := by
  refine ⟨_, mem_byMonth.2 ⟨⟨item, inside, rfl⟩, rfl⟩, rfl, ?_⟩
  exact List.mem_filter.2 ⟨inside, decide_eq_true rfl⟩

end Groups

/-- Files of one name are one file. -/
theorem eq_of_file {dir : List Entry} (names : (dir.map Entry.file).Nodup) {entry other : Entry}
    (inside : entry ∈ dir) (inside' : other ∈ dir) (same : entry.file = other.file) :
    entry = other :=
  List.inj_on_of_nodup_map names inside inside' same

section Files

variable {options : RollOptions} {now : Int} {dir : List Entry}

theorem mem_old {dated : Dated} (inside : dated ∈ options.old now dir) :
    dated.entry ∈ dir ∧ options.recordOf dated.entry = some dated.record ∧
      options.dateOf dated.record dated.entry = some dated.ms := by
  have ⟨⟨_, index⟩, chosen, same⟩ := List.mem_map.1 inside
  cases same
  have among := (List.mem_zipIdx_iff_getElem?.1 (List.mem_filter.1 chosen).1)
  have among' := (List.mem_insertionSort _).1 (List.mem_of_getElem? among)
  have ⟨entry, here, read⟩ := List.mem_filterMap.1 among'
  have ⟨record, recorded, dated'⟩ := Option.bind_eq_some_iff.1 read
  have ⟨ms, timed, made⟩ := Option.map_eq_some_iff.1 dated'
  cases made
  exact ⟨here, recorded, timed⟩

theorem entries_of_old {dated : Dated} (inside : dated ∈ options.old now dir)
    (held : IsoDate.isTimeValue dated.ms = true) :
    options.scheme.entries dated.entry = [(some (monthText dated.ms), dated.record)] := by
  have ⟨_, recorded, timed⟩ := mem_old inside
  simp only [RollOptions.scheme, recorded, timed, Option.toList_some, List.map_cons, List.map_nil,
    Option.filter_some, held, if_pos, Option.map_some]

/-- `rollOldFiles` moves the old files. -/
theorem rollOldFiles_moves (names : (dir.map Entry.file).Nodup) :
    options.scheme.Moves dir ((options.old now dir).map Dated.entry)
      (rollOldFiles options now dir).effects := by
  have within : (options.old now dir).map Dated.entry ⊆ dir := by
    intro entry inside
    have ⟨dated, here, same⟩ := List.mem_map.1 inside
    exact same ▸ (mem_old here).1
  unfold rollOldFiles
  dsimp only
  split
  next held =>
    rw [List.all_eq_true] at held
    constructor
    · exact within
    · intro month record inside
      have ⟨records, among, here⟩ := Archival.mem_written inside
      have ⟨group, grouped, effect⟩ := List.mem_flatMap.1 among
      cases List.mem_cons.1 effect with
      | inl first =>
          cases first
          have ⟨dated, listed, same⟩ := List.mem_map.1 here
          have ⟨old, month'⟩ := mem_of_mem_byMonth grouped listed
          apply Archival.mem_filing.2
          refine ⟨dated.entry, List.mem_map_of_mem old, ?_⟩
          rw [entries_of_old old (held dated old), month', same]
          exact List.mem_singleton_self _
      | inr later =>
          have ⟨dated, _, unlinked⟩ := List.mem_map.1 later
          contradiction
    · apply Archival.Scheme.covered_flatMap
      intro group grouped
      have covered : options.scheme.Covered dir (fun _ _ => False) _ :=
        Archival.Scheme.covered_of_writes [(group.1, group.2.map Dated.record)]
          (group.2.map fun dated entry => decide (entry.file = dated.entry.file)) ?_
      · rw [List.map_map] at covered
        exact covered
      intro entry inside gone leaves goes at' here
      right
      have ⟨dated, listed, same⟩ := List.mem_map.1 leaves
      have ⟨old, month⟩ := mem_of_mem_byMonth grouped listed
      rw [← same, decide_eq_true_eq] at goes
      have entry' := eq_of_file names inside (mem_old old).1 goes
      rw [entry', entries_of_old old (held dated old), List.mem_singleton] at here
      refine ⟨_, List.mem_singleton_self _, ?_⟩
      rw [here]
      exact ⟨congrArg some month, List.mem_map_of_mem listed⟩
  next => exact Archival.Scheme.Moves.nothing within

end Files

section Reviews

variable {dates : Dates} {cutoff : Int} {dir rest : List Entry}

/-- A file of reviews is moved when its groups are filed. -/
theorem reviews_move (names : (dir.map Entry.file).Nodup) {entry : Entry} (inside : entry ∈ dir)
    {date : Utf16} (dated : dateInName entry.file = some date)
    (timed : (recordsOf entry.text).all (fun record =>
      (reviewMonth dates date record).isSome) = true) :
    (reviewsScheme dates).Moves dir [entry]
      ((byMonth (fun record => (reviewMonth dates date record).getD []) (recordsOf entry.text)).map
        (fun group => .write group.1 group.2) ++ [unlink entry.file]) := by
  have month : ∀ record ∈ recordsOf entry.text, (dateInName entry.file).bind (fun date =>
      reviewMonth dates date record) = some ((reviewMonth dates date record).getD []) := by
    intro record here
    have ⟨month, is⟩ := Option.isSome_iff_exists.1 (List.all_eq_true.1 timed record here)
    rw [dated, Option.bind_some, is, Option.getD_some]
  apply Archival.Scheme.moves_of_groups
  · exact fun other only => List.mem_singleton.1 only ▸ inside
  · intro group grouped record listed
    have ⟨here, same⟩ := mem_of_mem_byMonth grouped listed
    refine ⟨entry, List.mem_singleton_self _, List.mem_map.2 ⟨record, here, ?_⟩⟩
    rw [month record here, same]
  · intro other inside' goes found at'
    cases eq_of_file names inside' inside (of_decide_eq_true goes)
    have ⟨record, here, same⟩ := List.mem_map.1 at'
    have ⟨group, grouped, is, listed⟩ :=
      exists_mem_byMonth (fun record => (reviewMonth dates date record).getD []) here
    refine ⟨group, grouped, ?_⟩
    rw [← same, month record here, is]
    exact ⟨rfl, listed⟩

/-- `rollReviewFiles` moves the old files, those it comes to before it throws. -/
theorem rollReviewFiles_moves (names : (dir.map Entry.file).Nodup) (within : rest ⊆ dir) :
    (reviewsScheme dates).Moves dir (rest.filter (isOldReviews dates cutoff))
      (rollReviewFiles dates cutoff rest).effects := by
  have within' : rest.filter (isOldReviews dates cutoff) ⊆ dir :=
    fun entry inside => within (List.mem_filter.1 inside).1
  induction rest with
  | nil => exact Archival.Scheme.Moves.nothing within'
  | cons entry others ih =>
      have ih := ih (List.subset_of_cons_subset within)
        fun other inside => within (List.mem_cons_of_mem _ (List.mem_filter.1 inside).1)
      rw [rollReviewFiles, List.filter_cons]
      split
      next old =>
        have dated : ∃ date, dateInName entry.file = some date := by
          unfold isOldReviews at old
          cases named : dateInName entry.file with
          | some date => exact ⟨date, rfl⟩
          | none => simp [named] at old
        have ⟨date, dated⟩ := dated
        simp only [dated, Option.getD_some]
        split
        next timed =>
          rw [List.append_cons]
          have moves : (reviewsScheme dates).Moves dir [entry]
              ((byMonth (fun record => (reviewMonth dates date record).getD [])
                (recordsOf entry.text)).map (fun group => .write group.1 group.2) ++
                  [unlink entry.file]) :=
            reviews_move names (within List.mem_cons_self) dated timed
          exact moves.append ih
        next =>
          apply Archival.Scheme.Moves.nothing
          rw [List.filter_cons, if_pos old] at within'
          exact within'
      next => exact ih

end Reviews

/-- `archiveOldTasks` and the save that follows it move the old tasks. -/
theorem rollOldTasks_moves (now : Time) (options : Options) (tasks : List Task) :
    tasksScheme.Moves tasks (archiveOldTasks now options tasks).2 (rollOldTasks now options tasks) := by
  have within : (archiveOldTasks now options tasks).2 ⊆ tasks :=
    fun task archived => (isTerminal_of_archived archived).1
  unfold rollOldTasks
  dsimp only
  split
  next => exact Archival.Scheme.Moves.nothing within
  next some' =>
    have archived : (archiveOldTasks now options tasks).2 = tasks.filter (isOld now options) := by
      cases archiveOldTasks_cases now options tasks with
      | inl same => simp [same] at some'
      | inr moved => rw [moved]
    have month : ∀ task ∈ tasks.filter (isOld now options),
        taskMonth task = some ((taskMonth task).getD []) := by
      intro task old
      have old := (List.mem_filter.1 old).2
      rw [isOld, Bool.and_eq_true, Option.any_eq_true] at old
      obtain ⟨done, completed, _⟩ := old.2
      rw [taskMonth, completed, Option.map_some, Option.getD_some]
    have moves : tasksScheme.Moves tasks (tasks.filter (isOld now options)) _ :=
      Archival.Scheme.moves_of_groups
        ((byMonth (fun task => (taskMonth task).getD []) (tasks.filter (isOld now options))).map
          fun group => (group.1, group.2.map Intake.scrubForState))
        (isOld now options) (archived ▸ within) ?_ ?_
    · rw [List.map_map] at moves
      rw [archived]
      exact moves
    · intro group grouped record listed
      obtain ⟨group', inside, same⟩ := List.mem_map.1 grouped
      cases same
      obtain ⟨task, here, scrubbed⟩ := List.mem_map.1 listed
      obtain ⟨old, is⟩ := mem_of_mem_byMonth inside here
      refine ⟨task, old, List.mem_singleton.2 ?_⟩
      rw [month task old, is, scrubbed]
    · intro task inside goes entry at'
      have old := List.mem_filter.2 ⟨inside, goes⟩
      obtain ⟨group, grouped, is, listed⟩ :=
        exists_mem_byMonth (fun task => (taskMonth task).getD []) old
      refine ⟨_, List.mem_map_of_mem grouped, ?_⟩
      rw [tasksScheme, List.mem_singleton] at at'
      rw [at', month task old, is]
      exact ⟨rfl, List.mem_map_of_mem listed⟩

/-- What is left to do for one kind. -/
def pendingOf (kind : Kind) (pending : Plan) : List (Effect kind.Item kind.Record) :=
  pending.filterMap fun ⟨other, effect⟩ => if same : other = kind then some (same ▸ effect) else none

section Pending

variable {kind other : Kind} {pending rest : Plan}

theorem pendingOf_nil : pendingOf kind [] = [] := rfl

theorem pendingOf_append :
    pendingOf kind (pending ++ rest) = pendingOf kind pending ++ pendingOf kind rest :=
  List.filterMap_append

theorem pendingOf_cons_same (effect : Effect kind.Item kind.Record) :
    pendingOf kind (⟨kind, effect⟩ :: rest) = effect :: pendingOf kind rest :=
  List.filterMap_cons_some (dif_pos rfl)

theorem pendingOf_cons_other (apart : other ≠ kind) (effect : Effect other.Item other.Record) :
    pendingOf kind (⟨other, effect⟩ :: rest) = pendingOf kind rest :=
  List.filterMap_cons_none (dif_neg apart)

theorem pendingOf_planFor_same (effects : List (Effect kind.Item kind.Record)) :
    pendingOf kind (planFor kind effects) = effects := by
  induction effects with
  | nil => rfl
  | cons effect others ih =>
      rw [planFor, List.map_cons, pendingOf_cons_same]
      exact congrArg _ ih

theorem pendingOf_planFor_other (apart : other ≠ kind) (effects : List (Effect other.Item other.Record)) :
    pendingOf kind (planFor other effects) = [] := by
  induction effects with
  | nil => rfl
  | cons effect others ih =>
      rw [planFor, List.map_cons, pendingOf_cons_other apart]
      exact ih

end Pending

variable {dates : Dates} {world after : World}

/-- A maintenance pass moves the files that are due. -/
theorem runMaintenance_moves (tidy : Tidy dates world) (now : Int) (kind : Kind) :
    (scheme dates kind).Moves (world.shelf kind).live
      ((Label.maintain now).due dates kind (world.shelf kind).live)
      (pendingOf kind (runMaintenance dates now world.shelf)) := by
  have names := tidy.names kind
  cases kind with
  | runs =>
      simp (disch := decide) only [runMaintenance, pendingOf_append, apply_ite (pendingOf _),
        pendingOf_planFor_same, pendingOf_planFor_other, pendingOf_nil, List.append_nil, ite_self]
      exact rollOldFiles_moves names
  | eventSummaries =>
      simp (disch := decide) only [runMaintenance, pendingOf_append, apply_ite (pendingOf _),
        pendingOf_planFor_same, pendingOf_planFor_other, pendingOf_nil, List.append_nil, List.nil_append,
        ite_self]
      exact rollOldFiles_moves names
  | digests =>
      simp (disch := decide) only [runMaintenance, pendingOf_append, apply_ite (pendingOf _),
        pendingOf_planFor_same, pendingOf_planFor_other, pendingOf_nil, List.append_nil, List.nil_append,
        ite_self]
      have moves : (scheme dates .digests).Moves _ _
        (rollOldFiles (digestsOptions dates) now _).effects := rollOldFiles_moves names
      split
      next => exact moves
      next => exact .nothing moves.within
  | reviews =>
      simp (disch := decide) only [runMaintenance, pendingOf_append, apply_ite (pendingOf _),
        pendingOf_planFor_same, pendingOf_planFor_other, pendingOf_nil, List.nil_append]
      have moves : (scheme dates .reviews).Moves _ _
        (rollReviewFiles dates (reviewsCutoff now) _).effects :=
          rollReviewFiles_moves names (List.Subset.refl _)
      split
      next =>
        split
        next => exact moves
        next => exact .nothing moves.within
      next => exact .nothing moves.within
  | tasks =>
      simp (disch := decide) only [runMaintenance, pendingOf_append, apply_ite (pendingOf _),
        pendingOf_planFor_other, pendingOf_nil, List.append_nil, ite_self]
      exact .nothing (List.nil_subset _)

/-- What comes together in an archive, by the pass that begins, has one id only if it is one
record. -/
def ToldApart (dates : Dates) (world : World) (label : Label) : Prop :=
  ∀ kind month, Archival.Told (scheme dates kind).idOf
    ((world.shelf kind).archived month ++
      (scheme dates kind).filing month (label.due dates kind (world.shelf kind).live))

/-- The state directory is as it is to be, and what is left of a pass keeps the union. -/
structure Kept (dates : Dates) (world : World) : Prop where
  tidy : Tidy dates world
  sound : ∀ kind, (scheme dates kind).Sound (world.shelf kind) (pendingOf kind world.pending)

/-- Nothing is left of a pass. -/
theorem Tidy.kept (tidy : Tidy dates world) (rest : world.pending = []) : Kept dates world where
  tidy := tidy
  sound kind := by
    rw [rest]
    exact (tidy.distinct kind).sound

/-- The next effect is on what is archived of its kind, and on nothing else. -/
theorem next_step {kind : Kind} {effect : Effect kind.Item kind.Record} {rest : Plan}
    (left : world.pending = ⟨kind, effect⟩ :: rest) (stepped : world.next dates .step = some after) :
    after.pending = rest ∧
      after.shelf kind = (scheme dates kind).apply (world.shelf kind) effect ∧
      ∀ other, other ≠ kind → after.shelf other = world.shelf other := by
  simp only [World.next, left, Option.some.injEq] at stepped
  subst stepped
  constructor
  · rfl
  constructor
  · exact Function.update_self _ _ _
  · exact fun other apart => Function.update_of_ne apart _ _

/-- What a label that begins or cuts off a pass does. -/
theorem next_plan {label : Label} (stepped : world.next dates label = some after) :
    label = .step ∨ after.shelf = world.shelf ∧
      (after.pending = [] ∨
        (∃ now, label = .maintain now ∧ after.pending = runMaintenance dates now world.shelf) ∨
        ∃ now options, label = .archiveOldTasks now options ∧
          after.pending = planFor .tasks (rollOldTasks now options (world.shelf .tasks).live)) := by
  cases label with
  | step => exact .inl rfl
  | crash =>
      cases stepped
      exact .inr ⟨rfl, .inl rfl⟩
  | maintain now =>
      simp only [World.next] at stepped
      split at stepped
      next =>
        cases stepped
        exact .inr ⟨rfl, .inr (.inl ⟨now, rfl, rfl⟩)⟩
      next => contradiction
  | archiveOldTasks now options =>
      simp only [World.next] at stepped
      split at stepped
      next =>
        cases stepped
        exact .inr ⟨rfl, .inr (.inr ⟨now, options, rfl, rfl⟩)⟩
      next => contradiction

theorem exists_first (stepped : world.next dates .step = some after) :
    ∃ kind effect rest, world.pending = ⟨kind, effect⟩ :: rest := by
  cases left : world.pending with
  | nil => simp [World.next, left] at stepped
  | cons first rest => exact ⟨first.1, first.2, rest, rfl⟩

/-- Step lemma: the union is the same after a step. -/
theorem Kept.holds_iff (kept : Kept dates world) {label : Label}
    (stepped : world.next dates label = some after) (kind : Kind) (month : Option Utf16)
    (record : kind.Record) :
    (scheme dates kind).Holds (after.shelf kind) month record ↔
      (scheme dates kind).Holds (world.shelf kind) month record := by
  cases next_plan stepped with
  | inr planned => rw [planned.1]
  | inl step =>
      subst step
      have ⟨other, effect, rest, left⟩ := exists_first stepped
      have ⟨_, here, elsewhere⟩ := next_step left stepped
      by_cases same : kind = other
      · subst same
        have sound := kept.sound kind
        rw [left, pendingOf_cons_same] at sound
        rw [here]
        exact sound.holds_iff month record
      · rw [elsewhere kind same]

theorem names_apply {kind : Kind} {effect : Effect kind.Item kind.Record} {shelf : Shelf kind}
    (names : (kind.names shelf.live).Nodup) :
    (kind.names ((scheme dates kind).apply shelf effect).live).Nodup := by
  have fewer : (((scheme dates kind).apply shelf effect).live).Sublist shelf.live :=
    Archival.live_apply
  cases kind with
  | tasks => exact List.nodup_nil
  | runs | eventSummaries | digests | reviews => exact names.sublist (fewer.map Entry.file)

/-- Step lemma: the state directory stays tidy. -/
theorem Tidy.next (tidy : Tidy dates world) {label : Label}
    (stepped : world.next dates label = some after) : Tidy dates after := by
  cases next_plan stepped with
  | inr planned => exact ⟨planned.1 ▸ tidy.names, planned.1 ▸ tidy.distinct⟩
  | inl step =>
      subst step
      have ⟨other, effect, rest, left⟩ := exists_first stepped
      have ⟨_, here, elsewhere⟩ := next_step left stepped
      constructor
      · intro kind
        by_cases same : kind = other
        · subst same
          rw [here]
          exact names_apply (tidy.names kind)
        · rw [elsewhere kind same]
          exact tidy.names kind
      · intro kind
        by_cases same : kind = other
        · subst same
          rw [here]
          exact (tidy.distinct kind).apply effect
        · rw [elsewhere kind same]
          exact tidy.distinct kind

/-- Step lemma: what is left of a pass keeps the union. -/
theorem Kept.next (kept : Kept dates world) {label : Label} (told : ToldApart dates world label)
    (stepped : world.next dates label = some after) : Kept dates after where
  tidy := kept.tidy.next stepped
  sound kind := by
    cases next_plan stepped with
    | inl step =>
        subst step
        have ⟨other, effect, rest, left⟩ := exists_first stepped
        have ⟨rest', here, elsewhere⟩ := next_step left stepped
        have sound := kept.sound kind
        rw [left] at sound
        rw [rest']
        by_cases same : kind = other
        · subst same
          rw [pendingOf_cons_same] at sound
          rw [here]
          exact sound.apply
        · rw [pendingOf_cons_other (Ne.symm same)] at sound
          rw [elsewhere kind same]
          exact sound
    | inr planned =>
        rw [planned.1]
        cases planned.2 with
        | inl nothing =>
            rw [nothing]
            exact (kept.tidy.distinct kind).sound
        | inr begun =>
            cases begun with
            | inl maintained =>
                have ⟨now, same, plan⟩ := maintained
                rw [plan]
                exact (runMaintenance_moves kept.tidy now kind).sound (same ▸ told kind)
            | inr archived =>
                have ⟨now, options, same, plan⟩ := archived
                rw [plan]
                by_cases tasks : kind = .tasks
                · subst tasks
                  subst same
                  rw [pendingOf_planFor_same]
                  exact (rollOldTasks_moves now options _).sound (told .tasks)
                · rw [pendingOf_planFor_other (Ne.symm tasks)]
                  exact (kept.tidy.distinct kind).sound

/-- In every run whose passes meet records that are told apart, the records in live files and
archives are at every point those of any earlier point, each for its archive, whatever crashes
there are; and no archive has a record twice. -/
theorem union_kept {before : World} (reached : Reachable (system dates) (ToldApart dates) before)
    (later : Reachable ((system dates).onward before) (ToldApart dates) after) (kind : Kind) :
    (∀ month record, (scheme dates kind).Holds (after.shelf kind) month record ↔
      (scheme dates kind).Holds (before.shelf kind) month record) ∧
        (scheme dates kind).Distinct (after.shelf kind) := by
  have kept : Kept dates before := by
    apply reached.invariant
    · exact fun world started => started.2.kept started.1
    · exact fun world label after _ kept told stepped => kept.next told stepped
  have both : Kept dates after ∧ ∀ month record,
      (scheme dates kind).Holds (after.shelf kind) month record ↔
        (scheme dates kind).Holds (before.shelf kind) month record := by
    apply later.invariant fun world => Kept dates world ∧ ∀ month record,
      (scheme dates kind).Holds (world.shelf kind) month record ↔
        (scheme dates kind).Holds (before.shelf kind) month record
    · intro world started
      cases started
      exact ⟨kept, fun _ _ => Iff.rfl⟩
    · intro world label after _ inv told stepped
      constructor
      · exact inv.1.next told stepped
      · intro month record
        exact (inv.1.holds_iff stepped kind month record).trans (inv.2 month record)
  exact ⟨both.2, both.1.tidy.distinct kind⟩

/-- Between the start of one pass and the next the ids of the archives are enough. -/
theorem Tidy.toldApart (tidy : Tidy dates world) {label : Label}
    (idle : ∀ kind live, label.due dates kind live = []) : ToldApart dates world label := by
  intro kind month
  rw [idle]
  exact (List.append_nil _).symm ▸ Archival.Told.of_nodup (tidy.distinct kind month)

/-- The line of a review. -/
@[irreducible] def reviewLine (layer reason : String) : Utf16 :=
  Json.stringify (.object [(ofString "ts", .string (ofString "2026-01-05T10:00:00.000Z")),
    (ofString "toolId", .string (ofString "shell")),
    (ofString "classification", .string (ofString "caution")),
    (ofString "verdict", .string (ofString "allow")), (ofString "layer", .number (ofString layer)),
    (ofString "matchedRules", .array []), (ofString "failMode", .null),
    (ofString "reason", .string (ofString reason)), (ofString "suggestion", .null)])

/-- Two reviews of one tool in one millisecond. -/
def crowdedReviews (layer : String) : Entry where
  file := ofString "reviews-2026-01-05.jsonl"
  text := reviewLine "2" "lists files" ++ 0xA :: reviewLine layer "reads a file" ++ [0xA]
  mtimeMs := 1767607200000

/-- `Date.parse`, of the times that are read there. -/
def crowdedDates : Dates where
  parse text :=
    if text = ofString "2026-01-05T10:00:00.000Z" then some 1767607200000
    else if text = ofString "2026-01-05T23:59:59Z" then some 1767657599000
    else none
  ofNumber _ := none

def crowded (layer : String) : World where
  shelf
    | .reviews => { live := [crowdedReviews layer], archived := fun _ => [] }
    | .runs | .eventSummaries | .digests | .tasks => { live := [], archived := fun _ => [] }

theorem tidy_crowded (layer : String) : Tidy crowdedDates (crowded layer) where
  names kind := by
    cases kind with
    | reviews => exact List.nodup_singleton _
    | runs | eventSummaries | digests | tasks => exact List.nodup_nil
  distinct kind month := by
    cases kind with
    | runs | eventSummaries | digests | reviews | tasks => exact List.nodup_nil

/-- The reviews are being archived. -/
def archivingCrowded : World :=
  { crowded "1" with pending := runMaintenance crowdedDates 1775000000000 (crowded "1").shelf }

theorem crowded_facts :
    ((recordsOf (crowdedReviews "1").text).map reviewId).Nodup ∧
    (World.next crowdedDates archivingCrowded .step).isSome = true ∧
    (((system crowdedDates).onward (crowded "2")).exec always (crowded "2")
      [.maintain 1775000000000, .step, .step]).any (fun world =>
        decide ((world.shelf .reviews).live.length = 0 ∧
          ((world.shelf .reviews).archived (ofString "2026-01")).map Json.stringify =
            [reviewLine "2" "reads a file"])) = true ∧
    (some (ofString "2026-01"), reviewLine "2" "lists files") ∈
      (recordsOf (crowdedReviews "2").text).map (fun record =>
        (((dateInName (crowdedReviews "2").file).bind fun date =>
          reviewMonth crowdedDates date record), record.stringify)) ∧
    reviewLine "2" "lists files" ≠ reviewLine "2" "reads a file" := by
  decide +kernel

theorem told_crowded : ToldApart crowdedDates (crowded "1") (.maintain 1775000000000) := by
  intro kind month
  cases kind with
  | runs | eventSummaries | digests | tasks =>
      intro record inside
      contradiction
  | reviews =>
      apply (Archival.Told.of_nodup crowded_facts.1).mono
      intro record inside
      have ⟨entry, due, at'⟩ := Archival.mem_filing.1 inside
      cases List.mem_singleton.1 (List.mem_filter.1 due).1
      have ⟨other, here, same⟩ := List.mem_map.1 at'
      exact (Prod.mk.inj same).2 ▸ here

/-- Cut off between the archive and the file, the records are in both. -/
theorem union_kept_crowded :
    ∃ after, (system crowdedDates).exec always (crowded "1")
        [.maintain 1775000000000, .step, .crash] = some after ∧
      (∀ month record, (scheme crowdedDates .reviews).Holds (after.shelf .reviews) month record ↔
        (scheme crowdedDates .reviews).Holds ((crowded "1").shelf .reviews) month record) ∧
      (scheme crowdedDates .reviews).Distinct (after.shelf .reviews) := by
  obtain ⟨written, stepped⟩ := Option.isSome_iff_exists.1 crowded_facts.2.1
  have tidy := tidy_crowded "1"
  have tidy' : Tidy crowdedDates archivingCrowded := ⟨tidy.names, tidy.distinct⟩
  refine ⟨{ written with pending := [] }, ?_, ?_⟩
  · have first : (system crowdedDates).next (crowded "1") (.maintain 1775000000000) =
        some archivingCrowded := rfl
    have second : (system crowdedDates).next archivingCrowded .step = some written := stepped
    simp only [exec, if_pos (show always _ _ from trivial), first, second]
    rfl
  · apply union_kept (.start ⟨rfl, tidy⟩)
    have maintained : Reachable ((system crowdedDates).onward (crowded "1"))
        (ToldApart crowdedDates) archivingCrowded := .step (.start rfl) told_crowded rfl
    have idle : ToldApart crowdedDates archivingCrowded .step := tidy'.toldApart fun _ _ => rfl
    have archived : Reachable ((system crowdedDates).onward (crowded "1"))
        (ToldApart crowdedDates) written := maintained.step idle stepped
    have told : ToldApart crowdedDates written .crash :=
      (tidy'.next stepped).toldApart fun _ _ => rfl
    exact archived.step told rfl

/-- Of two reviews with one id the archive has only one, and the file is gone. -/
theorem not_union_kept : ∃ before after : World, (system crowdedDates).start before ∧
    Reachable ((system crowdedDates).onward before) always after ∧
      ∃ month record, (scheme crowdedDates .reviews).Holds (before.shelf .reviews) month record ∧
        ¬ (scheme crowdedDates .reviews).Holds (after.shelf .reviews) month record := by
  have ⟨_, _, ran, held, apart⟩ := crowded_facts
  have ⟨after, reached, shown⟩ := Reachable.exists_of_exec (.start rfl) ran
  have ⟨gone, archived⟩ := of_decide_eq_true shown
  have ⟨record, inside, same⟩ := List.mem_map.1 held
  rw [Prod.mk.injEq] at same
  refine ⟨crowded "2", after, ⟨rfl, tidy_crowded "2"⟩, reached,
    some (ofString "2026-01"), record, ?_, ?_⟩
  · have entry : (some (ofString "2026-01"), record) ∈
        (reviewsScheme crowdedDates).entries (crowdedReviews "2") :=
      List.mem_map.2 ⟨record, inside, Prod.ext same.1 rfl⟩
    exact .inl ⟨crowdedReviews "2", List.mem_singleton_self _, entry⟩
  · intro holds
    cases holds with
    | inl lives =>
        have ⟨item, live, _⟩ := lives
        rw [List.length_eq_zero_iff.1 gone] at live
        contradiction
    | inr stored =>
        have ⟨month, month', filed⟩ := stored
        cases month'
        have listed := List.mem_map_of_mem (f := Json.stringify) filed
        rw [archived, same.2, List.mem_singleton] at listed
        exact apart listed

end Archive

end TitanRunner
