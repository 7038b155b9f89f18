import Mathlib.Data.Finset.Dedup
import Mathlib.Data.Finset.Card
import Mathlib.Data.List.Perm.Basic
import TitanRunner.Ops.Postmortem

/-!
# The counts of the lessons

A lesson remembers the run keys of its last five failures, and the file the 200 most frequent
lessons.  While every failure that a pulse sees is remembered or new, and the file has room,
each count is the number of distinct failures that were written up under its signature.
-/

namespace TitanRunner

namespace Postmortem

open Utf16 TransitionSystem System

/-- The distinct failures of a signature, of a list that names each once. -/
def ofSignature (failures : List Named) (signature : Utf16) : Nat :=
  failures.countP fun failure => decide (failure.1 = signature)

/-- The file counts the failures that were written up. -/
structure Exact (lessons : List Lesson) (written : List Named) : Prop where
  distinct : (lessons.map Lesson.signature).Nodup
  counted : ∀ lesson ∈ lessons, lesson.count = ofSignature written lesson.signature
  present : ∀ failure ∈ written, ∃ lesson ∈ lessons, lesson.signature = failure.1

theorem Exact.perm {lessons after : List Lesson} {written : List Named}
    (exact' : Exact lessons written) (perm : after.Perm lessons) : Exact after written where
  distinct := (perm.map Lesson.signature).nodup_iff.2 exact'.distinct
  counted lesson inside := exact'.counted lesson (perm.mem_iff.1 inside)
  present failure inside := by
    have ⟨lesson, onFile, same⟩ := exact'.present failure inside
    exact ⟨lesson, perm.mem_iff.2 onFile, same⟩

section Append

variable {hashes : Hashes} {lessons : List Lesson} {signature runKey : Utf16} {draft : Draft}
  {now : Time}

theorem kept_perm (room : lessons.length ≤ maxLessons) : (kept lessons).Perm lessons := by
  rw [kept, if_neg (Nat.not_lt.2 room)]
  exact List.mergeSort_perm lessons _

theorem merge_signature (lesson : Lesson) :
    (lesson.merge draft runKey now).signature = lesson.signature := by
  simp only [Lesson.merge]
  split
  · rfl
  · rfl

theorem merge_count (lesson : Lesson) :
    (lesson.merge draft runKey now).count = lesson.count + 1 := by
  simp only [Lesson.merge]
  split
  · rfl
  · rfl

theorem mem_merge_runIds {lesson : Lesson} {key : Utf16}
    (inside : key ∈ (lesson.merge draft runKey now).runIds) : key = runKey ∨ key ∈ lesson.runIds := by
  have dropped : key ∈ lastOf maxRunIds (lesson.runIds ++ [runKey]) := by
    simp only [Lesson.merge] at inside
    split at inside
    · exact inside
    · exact inside
  cases List.mem_append.1 (List.mem_of_mem_drop dropped) with
  | inl before => exact .inr before
  | inr last => exact .inl (List.mem_singleton.1 last)

/-- What `appendLesson` does with a key that no lesson remembers, where the file has room. -/
theorem appendLesson_cases (hashes : Hashes) (draft : Draft) (now : Time)
    (fresh : ∀ lesson ∈ lessons, runKey ∉ lesson.runIds)
    (room : signature ∉ lessons.map Lesson.signature → lessons.length < maxLessons)
    (fits : lessons.length ≤ maxLessons) :
    (∃ existing rest, existing.signature = signature ∧ lessons.Perm (existing :: rest) ∧
      (appendLesson hashes lessons signature draft runKey now).1.Perm
        (existing.merge draft runKey now :: rest)) ∨
    (signature ∉ lessons.map Lesson.signature ∧
      (appendLesson hashes lessons signature draft runKey now).1.Perm
        (draft.lesson hashes signature runKey now :: lessons)) := by
  simp only [appendLesson]
  split
  next existing found =>
    have ⟨inside, same⟩ := List.getElem?_eq_some_iff.1 found
    have named : existing.signature = signature := by
      have holds := List.findIdx_getElem (w := inside)
      rw [same] at holds
      exact beq_iff_eq.1 holds
    have unknown : existing.runIds.contains runKey = false := by
      have missing := fresh existing (List.mem_of_getElem? found)
      rw [← Bool.not_eq_true, List.contains_iff_mem]
      exact missing
    rw [unknown]
    apply Or.inl
    exists existing, lessons.eraseIdx (lessons.findIdx fun lesson => lesson.signature == signature)
    constructor
    · exact named
    constructor
    · exact same ▸ (List.getElem_cons_eraseIdx_perm inside).symm
    · apply (kept_perm _).trans (List.set_perm_cons_eraseIdx inside _)
      rw [List.length_set]
      exact fits
  next missing =>
    have absent : signature ∉ lessons.map Lesson.signature := by
      intro inside
      have ⟨lesson, onFile, same⟩ := List.mem_map.1 inside
      have short : (lessons.findIdx fun lesson => lesson.signature == signature) < lessons.length :=
        List.findIdx_lt_length_of_exists ⟨lesson, onFile, beq_iff_eq.2 same⟩
      rw [List.getElem?_eq_getElem short] at missing
      contradiction
    apply Or.inr
    constructor
    · exact absent
    apply (kept_perm _).trans List.perm_append_comm
    rw [List.length_append]
    exact room absent

theorem ofSignature_cons (failure : Named) (written : List Named) (signature : Utf16) :
    ofSignature (failure :: written) signature =
      ofSignature written signature + if failure.1 = signature then 1 else 0 := by
  simp only [ofSignature, List.countP_cons, decide_eq_true_eq]

/-- A failure that is new is counted. -/
theorem Exact.append {written : List Named} (exact' : Exact lessons written)
    (fresh : ∀ lesson ∈ lessons, runKey ∉ lesson.runIds)
    (room : signature ∉ lessons.map Lesson.signature → lessons.length < maxLessons)
    (fits : lessons.length ≤ maxLessons) :
    Exact (appendLesson hashes lessons signature draft runKey now).1
      ((signature, runKey) :: written) := by
  cases appendLesson_cases hashes draft now fresh room fits with
  | inl merged =>
      have ⟨existing, rest, named, before, after⟩ := merged
      have ⟨distinct, counted, present⟩ := exact'.perm before.symm
      simp only [List.map_cons, List.nodup_cons, named] at distinct
      apply Exact.perm _ after
      constructor
      · simp only [List.map_cons, List.nodup_cons, merge_signature, named]
        exact distinct
      · intro lesson inside
        rw [ofSignature_cons]
        cases List.mem_cons.1 inside with
        | inl here =>
            rw [here, merge_count, merge_signature, if_pos named.symm,
              counted existing List.mem_cons_self]
        | inr other =>
            have apart : signature ≠ lesson.signature := by
              intro same
              exact distinct.1 (same ▸ List.mem_map_of_mem other)
            rw [if_neg apart, Nat.add_zero]
            exact counted lesson (List.mem_cons_of_mem _ other)
      · intro failure inside
        cases List.mem_cons.1 inside with
        | inl here =>
            exists existing.merge draft runKey now
            rw [here, merge_signature]
            exact ⟨List.mem_cons_self, named⟩
        | inr earlier =>
            have ⟨lesson, onFile, same⟩ := present failure earlier
            cases List.mem_cons.1 onFile with
            | inl here =>
                exists existing.merge draft runKey now
                rw [merge_signature, ← same, here]
                exact ⟨List.mem_cons_self, rfl⟩
            | inr other => exact ⟨lesson, List.mem_cons_of_mem _ other, same⟩
  | inr added =>
      have ⟨absent, after⟩ := added
      have none : ofSignature written signature = 0 := by
        apply List.countP_eq_zero.2
        intro failure inside same
        have ⟨lesson, onFile, named⟩ := exact'.present failure inside
        apply absent
        rw [← of_decide_eq_true same, ← named]
        exact List.mem_map_of_mem onFile
      apply Exact.perm _ after
      constructor
      · simp only [List.map_cons, List.nodup_cons]
        exact ⟨absent, exact'.distinct⟩
      · intro lesson inside
        rw [ofSignature_cons]
        cases List.mem_cons.1 inside with
        | inl here =>
            rw [here]
            simp only [Draft.lesson, none, if_true]
        | inr other =>
            have apart : signature ≠ lesson.signature := by
              intro same
              exact absent (same ▸ List.mem_map_of_mem other)
            rw [if_neg apart, Nat.add_zero]
            exact exact'.counted lesson other
      · intro failure inside
        cases List.mem_cons.1 inside with
        | inl here =>
            exists draft.lesson hashes signature runKey now
            rw [here]
            exact ⟨List.mem_cons_self, rfl⟩
        | inr earlier =>
            have ⟨lesson, onFile, same⟩ := exact'.present failure earlier
            exact ⟨lesson, List.mem_cons_of_mem _ onFile, same⟩

/-- A lesson remembers no key but those it did and the new one. -/
theorem knownKeys_append (fresh : ∀ lesson ∈ lessons, runKey ∉ lesson.runIds)
    (room : signature ∉ lessons.map Lesson.signature → lessons.length < maxLessons)
    (fits : lessons.length ≤ maxLessons) :
    knownKeys (appendLesson hashes lessons signature draft runKey now).1 ⊆
      runKey :: knownKeys lessons := by
  intro key inside
  have ⟨lesson, onFile, remembered⟩ := List.mem_flatMap.1 inside
  cases appendLesson_cases hashes draft now fresh room fits with
  | inl merged =>
      have ⟨existing, rest, named, before, after⟩ := merged
      cases List.mem_cons.1 (after.mem_iff.1 onFile) with
      | inl here =>
          rw [here] at remembered
          cases mem_merge_runIds remembered with
          | inl new => exact List.mem_cons.2 (.inl new)
          | inr old =>
              apply List.mem_cons_of_mem
              exact List.mem_flatMap.2 ⟨existing, before.mem_iff.2 List.mem_cons_self, old⟩
      | inr other =>
          apply List.mem_cons_of_mem
          exact List.mem_flatMap.2
            ⟨lesson, before.mem_iff.2 (List.mem_cons_of_mem _ other), remembered⟩
  | inr added =>
      cases List.mem_cons.1 (added.2.mem_iff.1 onFile) with
      | inl here =>
          rw [here] at remembered
          exact List.mem_cons.2 (.inl (List.mem_singleton.1 remembered))
      | inr other =>
          exact List.mem_cons_of_mem _ (List.mem_flatMap.2 ⟨lesson, other, remembered⟩)

/-- The signatures on file after a call are those before it and the new one. -/
theorem signatures_append (fresh : ∀ lesson ∈ lessons, runKey ∉ lesson.runIds)
    (room : signature ∉ lessons.map Lesson.signature → lessons.length < maxLessons)
    (fits : lessons.length ≤ maxLessons) :
    (appendLesson hashes lessons signature draft runKey now).1.map Lesson.signature ⊆
      signature :: lessons.map Lesson.signature := by
  cases appendLesson_cases hashes draft now fresh room fits with
  | inl merged =>
      have ⟨existing, rest, named, before, after⟩ := merged
      apply List.Subset.trans (after.map Lesson.signature).subset
      rw [List.map_cons, merge_signature]
      exact List.Subset.trans (before.map Lesson.signature).symm.subset (List.subset_cons_self _ _)
  | inr added => exact (added.2.map Lesson.signature).subset

end Append

/-! ## A sweep -/

/-- The signatures on file and those of a list of tasks. -/
def signaturesWith (hashes : Hashes) (lessons : List Lesson) (tasks : List Task) :
    Finset Utf16 :=
  (lessons.map Lesson.signature ++ (failuresOf hashes tasks).map Prod.fst).toFinset

/-- What the rest of a sweep starts from. -/
structure Ready (hashes : Hashes) (tasks : List Task) (known : List Utf16)
    (lessons : List Lesson) (written : List Named) : Prop where
  exact' : Exact lessons written
  known' : knownKeys lessons ⊆ known
  onFile : ∀ failure ∈ failuresOf hashes tasks, failure ∈ written → failure.2 ∈ known
  room : (signaturesWith hashes lessons tasks).card ≤ maxLessons

section Sweep

variable {hashes : Hashes} {task : Task} {rest : List Task} {known : List Utf16}
  {lessons : List Lesson} {written : List Named} {failure : Failure}

theorem failuresOf_cons (failed : failureOf task = some failure)
    (counts : isSkipped failure = false) : failuresOf hashes (task :: rest) =
      (hashes.signatureOf failure, runKeyOf task failure) :: failuresOf hashes rest := by
  simp [failuresOf, failed, counts, Option.filter]

theorem failuresOf_subset : failuresOf hashes rest ⊆ failuresOf hashes (task :: rest) := by
  intro named inside
  simp only [failuresOf, List.filterMap_cons]
  split
  · exact inside
  · exact List.mem_cons_of_mem _ inside

/-- A task may be passed. -/
theorem Ready.tail (ready : Ready hashes (task :: rest) known lessons written) :
    Ready hashes rest known lessons written where
  exact' := ready.exact'
  known' := ready.known'
  onFile named inside := ready.onFile named (failuresOf_subset inside)
  room := by
    apply Nat.le_trans (Finset.card_le_card _) ready.room
    intro signature inside
    simp only [signaturesWith, List.mem_toFinset, List.mem_append] at inside ⊢
    cases inside with
    | inl onFile => exact .inl onFile
    | inr ahead =>
        have ⟨named, there, same⟩ := List.mem_map.1 ahead
        exact .inr (List.mem_map.2 ⟨named, failuresOf_subset there, same⟩)

theorem Ready.fits {tasks : List Task} (ready : Ready hashes tasks known lessons written) :
    lessons.length ≤ maxLessons := by
  calc lessons.length
    _ = (lessons.map Lesson.signature).toFinset.card := by
        rw [List.toFinset_card_of_nodup ready.exact'.distinct, List.length_map]
    _ ≤ (signaturesWith hashes lessons tasks).card := by
        apply Finset.card_le_card
        intro signature inside
        simp only [signaturesWith, List.mem_toFinset, List.mem_append] at inside ⊢
        exact .inl inside
    _ ≤ maxLessons := ready.room

/-- The signature of a failure that is seen has room. -/
theorem Ready.short {tasks : List Task} (ready : Ready hashes tasks known lessons written)
    {named : Named} (inside : named ∈ failuresOf hashes tasks)
    (absent : named.1 ∉ lessons.map Lesson.signature) : lessons.length < maxLessons := by
  have distinct : (named.1 :: lessons.map Lesson.signature).Nodup :=
    List.nodup_cons.2 ⟨absent, ready.exact'.distinct⟩
  calc lessons.length + 1
    _ = (named.1 :: lessons.map Lesson.signature).toFinset.card := by
        rw [List.toFinset_card_of_nodup distinct, List.length_cons, List.length_map]
    _ ≤ (signaturesWith hashes lessons tasks).card := by
        apply Finset.card_le_card
        intro signature there
        simp only [signaturesWith, List.mem_toFinset, List.mem_append, List.mem_cons] at there ⊢
        cases there with
        | inl here => exact .inr (here ▸ List.mem_map_of_mem inside)
        | inr onFile => exact .inl onFile
    _ ≤ maxLessons := ready.room

/-- A failure with a key that is not known is written up. -/
theorem Ready.append (ready : Ready hashes (task :: rest) known lessons written)
    (failed : failureOf task = some failure) (counts : isSkipped failure = false)
    (unknown : runKeyOf task failure ∉ known) (draft : Draft) (now : Time) :
    Ready hashes rest (runKeyOf task failure :: known)
      (appendLesson hashes lessons (hashes.signatureOf failure) draft (runKeyOf task failure)
        now).1
      ((hashes.signatureOf failure, runKeyOf task failure) :: written) := by
  have seen : (hashes.signatureOf failure, runKeyOf task failure) ∈
      failuresOf hashes (task :: rest) := by
    rw [failuresOf_cons failed counts]
    exact List.mem_cons_self
  have fresh : ∀ lesson ∈ lessons, runKeyOf task failure ∉ lesson.runIds := by
    intro lesson onFile remembered
    exact unknown (ready.known' (List.mem_flatMap.2 ⟨lesson, onFile, remembered⟩))
  have room := ready.short seen
  have fits := ready.fits
  constructor
  · exact ready.exact'.append fresh room fits
  · exact List.Subset.trans (knownKeys_append fresh room fits)
      (List.cons_subset_cons _ ready.known')
  · intro named ahead before
    cases List.mem_cons.1 before with
    | inl here =>
        rw [here]
        exact List.mem_cons_self
    | inr earlier =>
        exact List.mem_cons_of_mem _ (ready.onFile named (failuresOf_subset ahead) earlier)
  · apply Nat.le_trans (Finset.card_le_card _) ready.room
    intro signature inside
    simp only [signaturesWith, List.mem_toFinset, List.mem_append] at inside ⊢
    cases inside with
    | inl onFile =>
        cases List.mem_cons.1 (signatures_append fresh room fits onFile) with
        | inl here => exact .inr (List.mem_map.2 ⟨_, seen, here.symm⟩)
        | inr before => exact .inl before
    | inr ahead =>
        have ⟨named, there, same⟩ := List.mem_map.1 ahead
        exact .inr (List.mem_map.2 ⟨named, failuresOf_subset there, same⟩)

/-- A sweep keeps the counts, and writes up only what it sees, each failure once. -/
theorem Ready.sweep {tasks : List Task} (ready : Ready hashes tasks known lessons written)
    (write : Task → Draft) (now : Time) (budget : Nat) :
    Exact (sweep hashes write now tasks known budget lessons).lessons
      (noted written
        ((sweep hashes write now tasks known budget lessons).log.map Entry.failure)) := by
  induction tasks generalizing known budget lessons written with
  | nil => exact ready.exact'
  | cons task rest ih =>
      simp only [Postmortem.sweep]
      cases failed : failureOf task with
      | none => exact ih ready.tail budget
      | some failure =>
          cases skipped : isSkipped failure with
          | true =>
              simp only [skipped, if_true]
              exact ih ready.tail budget
          | false =>
              simp only [skipped, Bool.false_eq_true, if_false]
              split
              next => exact ih ready.tail budget
              next unknown =>
                have unknown : runKeyOf task failure ∉ known := by
                  intro inside
                  exact unknown (List.contains_iff_mem.2 inside)
                cases budget with
                | zero => exact ready.exact'
                | succ budget =>
                    have new : (hashes.signatureOf failure, runKeyOf task failure) ∉ written := by
                      intro before
                      apply unknown
                      apply ready.onFile (hashes.signatureOf failure, runKeyOf task failure) _ before
                      rw [failuresOf_cons failed skipped]
                      exact List.mem_cons_self
                    have swept := ih (ready.append failed skipped unknown (write task) now) budget
                    rw [← List.insert_of_not_mem new] at swept
                    exact swept

/-- A sweep over failures that are on file does nothing. -/
theorem sweep_of_known {tasks : List Task}
    (onFile : ∀ named ∈ failuresOf hashes tasks, named.2 ∈ known)
    (write : Task → Draft) (now : Time) (budget : Nat) :
    (sweep hashes write now tasks known budget lessons).lessons = lessons := by
  induction tasks with
  | nil => rfl
  | cons task rest ih =>
      have later := ih fun named inside => onFile named (failuresOf_subset inside)
      simp only [sweep]
      cases failed : failureOf task with
      | none => exact later
      | some failure =>
          cases skipped : isSkipped failure with
          | true =>
              simp only [skipped, if_true]
              exact later
          | false =>
              have here : runKeyOf task failure ∈ known := by
                apply onFile (hashes.signatureOf failure, runKeyOf task failure)
                rw [failuresOf_cons failed skipped]
                exact List.mem_cons_self
              simp only [skipped, Bool.false_eq_true, if_false, List.contains_iff_mem.2 here, if_true]
              exact later

/-- The calls of a sweep are about failures that it sees. -/
theorem mem_failuresOf_of_log {tasks : List Task} {write : Task → Draft} {now : Time}
    {budget : Nat} {entry : Entry}
    (called : entry ∈ (sweep hashes write now tasks known budget lessons).log) :
    entry.failure ∈ failuresOf hashes tasks := by
  induction tasks generalizing known budget lessons with
  | nil => contradiction
  | cons task rest ih =>
      simp only [sweep] at called
      cases failed : failureOf task with
      | none =>
          rw [failed] at called
          exact failuresOf_subset (ih called)
      | some failure =>
          rw [failed] at called
          cases skipped : isSkipped failure with
          | true =>
              simp only [skipped, if_true] at called
              exact failuresOf_subset (ih called)
          | false =>
              simp only [skipped, Bool.false_eq_true, if_false] at called
              split at called
              next => exact failuresOf_subset (ih called)
              next =>
                cases budget with
                | zero => contradiction
                | succ budget =>
                    cases List.mem_cons.1 called with
                    | inl here =>
                        rw [here, failuresOf_cons failed skipped]
                        exact List.mem_cons_self
                    | inr later => exact failuresOf_subset (ih later)

end Sweep

/-! ## Runs -/

/-- The counts of the file are right: of every signature the failures that were written up, each
once; and where none of the failures seen is left over, all those that were seen. -/
structure CountsExact (world : World) : Prop where
  once : world.written.Nodup
  counted : ∀ lesson ∈ world.lessons, lesson.count = ofSignature world.written lesson.signature
  present : ∀ failure ∈ world.written, ∃ lesson ∈ world.lessons, lesson.signature = failure.1
  complete : (∀ failure ∈ world.seen, failure ∈ world.written) →
    ∀ lesson ∈ world.lessons, lesson.count = ofSignature world.seen lesson.signature

/-- No failure that a pulse sees was written up and forgotten, and the file has room for the
signatures that it sees. -/
structure Remembers (hashes : Hashes) (world : World) (label : Label) : Prop where
  onFile : ∀ failure ∈ failuresOf hashes label.tasks, failure ∈ world.written →
    failure.2 ∈ knownKeys world.lessons
  room : (signaturesWith hashes world.lessons label.tasks).card ≤ maxLessons

instance (hashes : Hashes) (world : World) (label : Label) :
    Decidable (Remembers hashes world label) :=
  decidable_of_iff
    ((∀ failure ∈ failuresOf hashes label.tasks, failure ∈ world.written →
        failure.2 ∈ knownKeys world.lessons) ∧
      (signaturesWith hashes world.lessons label.tasks).card ≤ maxLessons)
    ⟨fun both => ⟨both.1, both.2⟩, fun remembers => ⟨remembers.onFile, remembers.room⟩⟩

/-- What every run keeps in which the pulses remember. -/
structure Kept (world : World) : Prop where
  exact' : Exact world.lessons world.written
  writtenOnce : world.written.Nodup
  seenOnce : world.seen.Nodup
  within : world.written ⊆ world.seen

section Runs

variable {hashes : Hashes} {world : World} {label : Label}

theorem nodup_noted {failures : List Named} (distinct : failures.Nodup) (added : List Named) :
    (noted failures added).Nodup := by
  induction added generalizing failures with
  | nil => exact distinct
  | cons failure rest ih => exact ih distinct.insert

theorem mem_noted {failures added : List Named} {wanted : Named} :
    wanted ∈ noted failures added ↔ wanted ∈ failures ∨ wanted ∈ added := by
  induction added generalizing failures with
  | nil => simp [noted]
  | cons failure rest ih =>
      rw [noted, List.foldl_cons, ← noted, ih, List.mem_insert_iff, List.mem_cons]
      grind

theorem Kept.ready (kept : Kept world) (remembers : Remembers hashes world label) :
    Ready hashes label.tasks (knownKeys world.lessons) world.lessons world.written where
  exact' := kept.exact'
  known' := List.Subset.refl _
  onFile := remembers.onFile
  room := remembers.room

theorem Kept.next (kept : Kept world) (remembers : Remembers hashes world label) :
    Kept (world.next hashes label) where
  exact' := (kept.ready remembers).sweep label.write label.now label.max
  writtenOnce := nodup_noted kept.writtenOnce _
  seenOnce := nodup_noted kept.seenOnce _
  within := by
    intro failure inside
    cases mem_noted.1 inside with
    | inl before => exact mem_noted.2 (.inl (kept.within before))
    | inr added =>
        have ⟨entry, called, same⟩ := List.mem_map.1 added
        exact mem_noted.2 (.inr (same ▸ mem_failuresOf_of_log called))

theorem kept_of_reachable (reachable : Reachable (system hashes) (Remembers hashes) world) :
    Kept world := by
  apply reachable.invariant Kept
  · intro start same
    rw [show start = {} from same]
    constructor
    · constructor
      · exact List.nodup_nil
      · intro lesson inside
        contradiction
      · intro failure inside
        contradiction
    · exact List.nodup_nil
    · exact List.nodup_nil
    · exact List.Subset.refl _
  · intro before label after _ kept remembers stepped
    cases stepped
    exact kept.next remembers

/-- In the runs whose pulses remember, the counts are right in every state, and a pulse over
failures that were all written up leaves the file as it is. -/
theorem countsExact_of_remembers
    (reachable : Reachable (system hashes) (Remembers hashes) world) :
    CountsExact world ∧
      ∀ label, Remembers hashes world label →
        (∀ failure ∈ failuresOf hashes label.tasks, failure ∈ world.written) →
        (world.next hashes label).lessons = world.lessons := by
  have kept := kept_of_reachable reachable
  constructor
  · constructor
    · exact kept.writtenOnce
    · exact kept.exact'.counted
    · exact kept.exact'.present
    · intro all lesson inside
      have perm : world.written.Perm world.seen :=
        (List.perm_ext_iff_of_nodup kept.writtenOnce kept.seenOnce).2 fun failure =>
          ⟨fun written => kept.within written, all failure⟩
      rw [kept.exact'.counted lesson inside, ofSignature, ofSignature, perm.countP_eq]
  · intro label remembers all
    apply sweep_of_known
    intro failure inside
    exact remembers.onFile failure inside (all failure inside)

end Runs

/-! ## A lesson with six failures -/

/-- Signatures that are told apart by the code. -/
def plainHashes : Hashes where
  errorSignature _ code _ := ofString (code.getD "UNKNOWN")
  lessonId signature := signature

/-- Tasks that failed in the same way, one after the other. -/
def failedTasks (count : Nat) : List Task :=
  (List.range count).map fun number =>
    { id := "issue-" ++ toString number
      status := .failed
      failure := some
        { class' := "rate_limited", code := some "RATE_LIMITED", message := "", at' := number } }

def plainDraft : Draft where
  taskType := none
  whatFailed := ofString "A task failed."
  likelyCause := ofString "The provider answered 429."
  suggestedFix := ofString "Wait for the reset."
  source := .template

/-- Pulses over the same failures. -/
def pulses (failures count : Nat) : List Label :=
  List.replicate count { tasks := failedTasks failures, write := fun _ => plainDraft, now := 0 }

/-- The counts and the failures that were written up. -/
def World.counts (world : World) : List Nat × Nat :=
  (world.lessons.map Lesson.count, world.written.length)

theorem pulses_run :
    ((system plainHashes).exec (Remembers plainHashes) {} (pulses 2 1)).isSome = true ∧
      ((system plainHashes).exec always {} (pulses 6 3)).any
        (fun world => decide (world.counts = ([7], 6))) = true := by
  decide +kernel

theorem countsExact_of_twoFailures :
    ∃ world, (system plainHashes).exec (Remembers plainHashes) {} (pulses 2 1) = some world ∧
      CountsExact world := by
  have ⟨world, reached⟩ := Option.isSome_iff_exists.1 pulses_run.1
  exact ⟨world, reached, (countsExact_of_remembers (.of_exec (.start rfl) reached)).1⟩

/-- Three pulses over six failures of one signature count seven. -/
theorem not_countsExact_of_sixFailures :
    ¬ ∀ world, Reachable (system plainHashes) always world → CountsExact world := by
  intro all
  have ⟨world, reached, ran⟩ := Reachable.exists_of_exec (.start rfl) pulses_run.2
  have ⟨counts, number⟩ := Prod.mk.inj (of_decide_eq_true ran)
  have inside : 7 ∈ world.lessons.map Lesson.count := counts ▸ List.mem_cons_self
  have ⟨lesson, onFile, seven⟩ := List.mem_map.1 inside
  have counted := (all world reached).counted lesson onFile
  have few : ofSignature world.written lesson.signature ≤ world.written.length :=
    List.countP_le_length
  omega

end Postmortem

end TitanRunner
