import TitanRunner.Lib.PlainObject
import TitanRunner.Lib.SplitJoin
import TitanRunner.Orchestrator.Synthesizer

/-!
# The file tree of the synthesis

`addToTree` and `fileTree` of `orchestrator/synthesizer.js`: the files are hung into nested plain
objects by the segments of their paths.  A directory is told from a file by the member `path`,
and the name `__proto__` reaches the prototype of all objects.
-/

namespace TitanRunner

namespace Orchestrator

open Utf16 OutputParser PlainObject

/-- The members of a file's object. -/
def SynthesisFile.members (file : SynthesisFile) (name : Utf16) : Bool :=
  [ofString "path", ofString "content", ofString "sourceTaskId", ofString "conflict"].contains name ||
    (decide (name = ofString "conflictsWithPath") && file.conflictsWithPath.isSome)

def pathName : Utf16 := ofString "path"

/-- `node[seg] && typeof node[seg] === 'object' && !node[seg].path`.  The path of a file is never
empty. -/
def enter (heap : Heap SynthesisFile) (ref : Nat) (segment : Utf16) : Option Nat :=
  match heap.get SynthesisFile.members ref segment with
  | .object (.table child) =>
      match heap.get SynthesisFile.members child pathName with
      | .nothing => some child
      | .plain | .object _ => none
  | .object (.leaf _) | .plain | .nothing => none

/-- `addToTree`, from a node on; `none` is the exception. -/
def addToTree (file : SynthesisFile) :
    Heap SynthesisFile → Nat → List Utf16 → Option (Heap SynthesisFile)
  | heap, _, [] => some heap
  | heap, ref, [last] => heap.set ref last (.leaf file)
  | heap, ref, segment :: next :: rest =>
      match enter heap ref segment with
      | some child =>
          (heap.set ref segment (.table child)).bind fun heap =>
            addToTree file heap child (next :: rest)
      | none =>
          let (heap, child) := heap.fresh
          (heap.set ref segment (.table child)).bind fun heap =>
            addToTree file heap child (next :: rest)

def SynthesisFile.segments (file : SynthesisFile) : List Utf16 := split 0x2F file.path

/-- The table of `fileTree`. -/
def root : Nat := 1

/-- `fileTree` with the files in the order in which they are added. -/
def fileTree (files : List SynthesisFile) : Option (Heap SynthesisFile) :=
  files.foldlM (fun heap file => addToTree file heap root file.segments) Heap.initial.fresh.1

/-! ## What a tree shows -/

/-- What is found under a path. -/
inductive Kind where
  | directory
  | file (file : SynthesisFile)
  deriving DecidableEq, Repr

def kindOf : Value SynthesisFile → Kind
  | .leaf file => .file file
  | .table _ => .directory

/-- A tree as a table of paths. -/
abbrev View := List Utf16 → Option Kind

/-- What the tree below a node shows. -/
def viewOf (heap : Heap SynthesisFile) (ref : Nat) : View :=
  fun path => (heap.look (.table ref) path).map kindOf

def emptyView : View := fun path => if path = [] then some .directory else none

/-- The directory a name leads into: the one there is, unless it has an entry `path`, or a new
one. -/
def View.below (view : View) (segment : Utf16) : View :=
  if view [segment] = some .directory ∧ view [segment, pathName] = none then
    fun path => view (segment :: path)
  else emptyView

/-- A file hung into a tree. -/
def View.graft (view : View) (file : SynthesisFile) : List Utf16 → View
  | [] => view
  | [last] => fun
      | [] => view []
      | segment :: rest =>
          if segment = last then (if rest = [] then some (.file file) else none)
          else view (segment :: rest)
  | first :: next :: rest => fun
      | [] => view []
      | segment :: path =>
          if segment = first then (view.below first).graft file (next :: rest) path
          else view (segment :: path)

section Refinement

variable {heap : Heap SynthesisFile} {ref : Nat} {file : SynthesisFile} {segments : List Utf16}

@[simp] theorem viewOf_nil : viewOf heap ref [] = some .directory := by
  simp [viewOf, kindOf]

theorem viewOf_singleton_iff {segment : Utf16} :
    viewOf heap ref [segment] = some .directory ↔
      ∃ child, (heap.tables ref).own segment = some (.table child) := by
  rw [viewOf, Heap.look_cons]
  cases (heap.tables ref).own segment with
  | none => simp
  | some value => cases value <;> simp [kindOf]

theorem viewOf_cons {child : Nat} {segment : Utf16} {path : List Utf16}
    (own : (heap.tables ref).own segment = some (.table child)) :
    viewOf heap ref (segment :: path) = viewOf heap child path := by
  rw [viewOf, viewOf, Heap.look_of_own own]

/-- On a tidy heap the loop of `addToTree` goes on into what its view says. -/
theorem enter_cases (tidy : heap.Tidy) {segment : Utf16} (named : segment ≠ Inherited.proto) :
    (∃ child, enter heap ref segment = some child ∧
      (heap.tables ref).own segment = some (.table child) ∧
      (viewOf heap ref).below segment = viewOf heap child) ∨
    enter heap ref segment = none ∧ (viewOf heap ref).below segment = emptyView := by
  have named' : pathName ≠ Inherited.proto := by decide
  rw [enter, tidy.get _ named]
  cases own : (heap.tables ref).own segment with
  | none =>
      right
      refine ⟨rfl, if_neg fun both => ?_⟩
      obtain ⟨child, own'⟩ := viewOf_singleton_iff.1 both.1
      rw [own] at own'
      contradiction
  | some value =>
      cases value with
      | leaf other =>
          right
          refine ⟨rfl, if_neg fun both => ?_⟩
          obtain ⟨child, own'⟩ := viewOf_singleton_iff.1 both.1
          simp [own] at own'
      | table child =>
          have directory : viewOf heap ref [segment] = some .directory :=
            viewOf_singleton_iff.2 ⟨child, own⟩
          have inside : viewOf heap ref [segment, pathName] = viewOf heap child [pathName] :=
            viewOf_cons own
          simp only [tidy.get _ named']
          cases there : (heap.tables child).own pathName with
          | none =>
              left
              refine ⟨child, rfl, rfl, ?_⟩
              rw [View.below, if_pos]
              · funext path
                exact viewOf_cons own
              · refine ⟨directory, ?_⟩
                rw [inside, viewOf, Heap.look_cons, there]
                rfl
          | some value =>
              right
              refine ⟨rfl, if_neg fun both => ?_⟩
              have shown := both.2
              rw [inside, viewOf, Heap.look_of_own there, Heap.look_nil] at shown
              exact Option.some_ne_none _ shown

/-- The view of a node, one of whose members leads into another tree. -/
theorem viewOf_descend {after : Heap SynthesisFile} {first : Utf16} {child : Nat}
    (look : ∀ name rest, after.look (.table ref) (name :: rest) =
      if name = first then after.look (.table child) rest
      else heap.look (.table ref) (name :: rest)) :
    viewOf after ref = fun
      | [] => viewOf heap ref []
      | segment :: path =>
          if segment = first then viewOf after child path else viewOf heap ref (segment :: path) := by
  funext path
  cases path with
  | nil => simp
  | cons segment path =>
      change Option.map kindOf (after.look _ (segment :: path)) = _
      rw [look segment path]
      dsimp only [viewOf]
      split <;> rfl

/-- `addToTree` hangs a file into the tree, and leaves alone what is not below the node. -/
theorem addToTree_graft (tidy : heap.Tidy) (single : heap.Single ref) (used : ref < heap.next)
    (top : ref ≠ base) (named : Inherited.proto ∉ segments) (some' : segments ≠ []) :
    ∃ after, addToTree file heap ref segments = some after ∧ heap.Grows after ref ∧
      viewOf after ref = (viewOf heap ref).graft file segments := by
  induction segments generalizing heap ref with
  | nil => contradiction
  | cons first rest ih =>
      obtain ⟨named', namedRest⟩ := not_or.1 (List.mem_cons.not.1 named)
      have named'' : first ≠ Inherited.proto := Ne.symm named'
      cases rest with
      | nil =>
          obtain ⟨grows, look⟩ := @Heap.Grows.put _ heap ref first (.leaf file) tidy single used top
            heap.next (le_refl _) (by simp)
          refine ⟨heap.put ref first (.leaf file), ?_, grows, ?_⟩
          · exact if_neg named''
          · funext path
            cases path with
            | nil => simp [View.graft]
            | cons segment path =>
                change Option.map kindOf (Heap.look _ _ (segment :: path)) = _
                have here : (heap.put ref first (.leaf file)).look (.table ref) (segment :: path) = _ :=
                  look segment path
                rw [here]
                simp only [View.graft]
                split
                next => split <;> rfl
                next => rfl
      | cons next rest =>
          rw [addToTree]
          cases @enter_cases heap ref tidy first named'' with
          | inl old =>
              obtain ⟨child, entered, own, below⟩ := old
              obtain ⟨apart, bound⟩ := tidy.bound ref first child own
              obtain ⟨after, added, grows, view⟩ := ih tidy (single.below own) bound
                (Nat.ne_of_gt apart) namedRest (List.cons_ne_nil _ _)
              obtain ⟨grows', look⟩ := Heap.Grows.descend tidy single used own grows
              refine ⟨after, ?_, grows', ?_⟩
              · rw [entered]
                simp only [Heap.set, if_neg named'', Heap.put_of_own own, Option.bind_some, added]
              · rw [viewOf_descend look, view, View.graft, below]
          | inr new =>
              obtain ⟨notEntered, below⟩ := new
              let linked : Heap SynthesisFile :=
                { heap.put ref first (.table heap.next) with next := heap.next + 1 }
              obtain ⟨link, linkLook⟩ := @Heap.Grows.put _ heap ref first (.table heap.next) tidy single
                used top (heap.next + 1) (Nat.le_succ _) (by
                  intro child same
                  cases same
                  exact ⟨le_refl _, Nat.lt_succ_self _⟩)
              have own : (linked.tables ref).own first = some (.table heap.next) := by
                simp [linked, Heap.put]
              have fresh : viewOf linked heap.next = emptyView := by
                funext path
                rw [← viewOf_cons own, viewOf, linkLook, if_pos rfl, emptyView]
                split <;> rfl
              obtain ⟨after, added, grows, view⟩ := ih link.tidy (link.single.below own)
                (Nat.lt_succ_self _) (Nat.ne_of_gt tidy.used) namedRest (List.cons_ne_nil _ _)
              obtain ⟨grows', look⟩ := Heap.Grows.descend link.tidy link.single (used.trans_le link.next)
                own grows
              refine ⟨after, ?_, link.trans grows', ?_⟩
              · rw [notEntered]
                simp only [Heap.set, if_neg named'', Option.bind_some]
                exact added
              · rw [viewOf_descend look, view, fresh, View.graft, below]
                funext path
                cases path with
                | nil => simp
                | cons segment path =>
                    dsimp only
                    split
                    next => rfl
                    next apart => rw [viewOf, linkLook, if_neg apart, viewOf]

end Refinement

/-! ## What one file leaves of the others -/

/-- The root is a directory, and so is what something lies below. -/
structure View.Sound (view : View) : Prop where
  root : view [] = some .directory
  closed : ∀ path rest, rest ≠ [] → view (path ++ rest) ≠ none → view path = some .directory

/-- What hanging in a file takes away: what lies below it, what it lies below, and what shares
a directory with it that has an entry `path`. -/
def View.Ruins (view : View) (segments path : List Utf16) : Prop :=
  segments <+: path ∨ path <+: segments ∨
    ∃ directory, directory ≠ [] ∧ directory <+: segments ∧ directory ≠ segments ∧
      directory <+: path ∧ view (directory ++ [pathName]) ≠ none

namespace View

variable {view : View} {file found : SynthesisFile} {segments path : List Utf16} {segment : Utf16}

theorem sound_emptyView : Sound emptyView where
  root := rfl
  closed path rest more there := by simp [emptyView, more] at there

theorem Sound.below (sound : view.Sound) (segment : Utf16) : (view.below segment).Sound := by
  rw [View.below]
  split
  next kept => exact ⟨kept.1, fun path rest => sound.closed (segment :: path) rest⟩
  next => exact sound_emptyView

@[simp] theorem graft_root : view.graft file segments [] = view [] := by
  match segments with
  | [] => rfl
  | [_] => rfl
  | _ :: _ :: _ => rfl

theorem Sound.graft (sound : view.Sound) (file : SynthesisFile) (segments : List Utf16) :
    (view.graft file segments).Sound := by
  refine ⟨by rw [graft_root, sound.root], ?_⟩
  induction segments generalizing view with
  | nil => exact sound.closed
  | cons first others ih =>
      intro path rest more there
      cases path with
      | nil => rw [graft_root, sound.root]
      | cons segment path =>
          cases others with
          | nil =>
              simp only [View.graft, List.cons_append] at there ⊢
              split at there
              next => simp [more] at there
              next apart =>
                rw [if_neg apart]
                exact sound.closed (segment :: path) rest more there
          | cons next others =>
              simp only [View.graft, List.cons_append] at there ⊢
              split at there
              next same =>
                rw [if_pos same]
                exact ih (sound.below first) path rest more there
              next apart =>
                rw [if_neg apart]
                exact sound.closed (segment :: path) rest more there

theorem graft_self (some' : segments ≠ []) :
    view.graft file segments segments = some (.file file) := by
  induction segments generalizing view with
  | nil => contradiction
  | cons first rest ih =>
      cases rest with
      | nil => simp [View.graft]
      | cons next rest => simpa [View.graft] using ih (List.cons_ne_nil next rest)

/-- Nothing appears but the file and the directories it lies in. -/
theorem graft_from (there : view.graft file segments path ≠ none) :
    view path ≠ none ∨ path <+: segments := by
  induction segments generalizing view path with
  | nil => exact .inl there
  | cons first others ih =>
      cases path with
      | nil => exact .inr List.nil_prefix
      | cons segment path =>
          rw [List.cons_prefix_cons]
          cases others with
          | nil =>
              simp only [View.graft] at there
              split at there
              next same =>
                split at there
                next nil => exact .inr ⟨same, nil ▸ List.nil_prefix⟩
                next => contradiction
              next => exact .inl there
          | cons next others =>
              simp only [View.graft] at there
              split at there
              next same =>
                subst same
                cases ih there with
                | inr below => exact .inr ⟨rfl, below⟩
                | inl before =>
                    rw [View.below] at before
                    split at before
                    next => exact .inl before
                    next =>
                      simp only [emptyView] at before
                      split at before
                      next nil => exact .inr ⟨rfl, nil ▸ List.nil_prefix⟩
                      next => contradiction
              next => exact .inl there

/-- Below a directory both lie in, a file takes away the same, or all of it. -/
theorem ruins_cons (some' : segments ≠ []) :
    view.Ruins (segment :: segments) (segment :: path) ↔
      view [segment, pathName] ≠ none ∨
        Ruins (fun rest => view (segment :: rest)) segments path := by
  simp only [Ruins, List.cons_prefix_cons, true_and]
  constructor
  · rintro (inside | above | ⟨directory, more, onWay, apart, shared, entry⟩)
    · exact .inr (.inl inside)
    · exact .inr (.inr (.inl above))
    · cases directory with
      | nil => contradiction
      | cons first directory =>
          obtain ⟨rfl, further⟩ := List.cons_prefix_cons.1 onWay
          have shared' := (List.cons_prefix_cons.1 shared).2
          cases directory with
          | nil => exact .inl entry
          | cons second directory =>
              exact .inr (.inr (.inr ⟨second :: directory, List.cons_ne_nil _ _, further,
                fun same => apart (congrArg _ same), shared', entry⟩))
  · rintro (entry | inside | above | ⟨directory, more, onWay, apart, shared, entry⟩)
    · refine .inr (.inr ⟨[segment], List.cons_ne_nil _ _, ?_, ?_, ?_, entry⟩)
      · exact List.cons_prefix_cons.2 ⟨rfl, List.nil_prefix⟩
      · intro same
        rw [List.cons.injEq] at same
        exact some' same.2.symm
      · exact List.cons_prefix_cons.2 ⟨rfl, List.nil_prefix⟩
    · exact .inl inside
    · exact .inr (.inl above)
    · refine .inr (.inr ⟨segment :: directory, List.cons_ne_nil _ _, ?_, ?_, ?_, entry⟩)
      · exact List.cons_prefix_cons.2 ⟨rfl, onWay⟩
      · intro same
        rw [List.cons.injEq] at same
        exact apart same.2
      · exact List.cons_prefix_cons.2 ⟨rfl, shared⟩

theorem ruins_of_head_ne {first : Utf16} {rest : List Utf16} (apart : segment ≠ first) :
    ¬ view.Ruins (first :: rest) (segment :: path) := by
  rintro (inside | above | ⟨directory, more, onWay, _, shared, _⟩)
  · exact apart (List.cons_prefix_cons.1 inside).1.symm
  · exact apart (List.cons_prefix_cons.1 above).1
  · cases directory with
    | nil => contradiction
    | cons name directory =>
        have same := (List.cons_prefix_cons.1 onWay).1
        have same' := (List.cons_prefix_cons.1 shared).1
        exact apart (same'.symm.trans same)

/-- Another file is found after the change exactly where it was found before and is not taken
away. -/
theorem graft_file_iff (sound : view.Sound) (other : path ≠ segments) (some' : segments ≠ []) :
    view.graft file segments path = some (.file found) ↔
      view path = some (.file found) ∧ ¬ view.Ruins segments path := by
  induction segments generalizing view path with
  | nil => contradiction
  | cons first rest ih =>
      cases path with
      | nil => simp [sound.root]
      | cons segment path =>
          by_cases same : segment = first
          · subst same
            have other' : path ≠ rest := fun same => other (congrArg _ same)
            cases rest with
            | nil =>
                have below : view.Ruins [segment] (segment :: path) :=
                  .inl (List.cons_prefix_cons.2 ⟨rfl, List.nil_prefix⟩)
                simp [View.graft, other', below]
            | cons next rest =>
                simp only [View.graft, if_true]
                rw [ih (sound.below segment) other' (List.cons_ne_nil _ _),
                  ruins_cons (List.cons_ne_nil _ _), View.below]
                split
                next kept => simp [kept.2]
                next gone =>
                  apply iff_of_false
                  · rintro ⟨there, intact⟩
                    have more : path ≠ [] := fun nil => intact (.inr (.inl (nil ▸ List.nil_prefix)))
                    simp [emptyView, more] at there
                  · rintro ⟨there, intact⟩
                    rw [not_or] at intact
                    have more : path ≠ [] :=
                      fun nil => intact.2 (.inr (.inl (nil ▸ List.nil_prefix)))
                    have directory := sound.closed [segment] path more (by
                      rw [List.singleton_append, there]
                      exact Option.some_ne_none _)
                    exact gone ⟨directory, not_not.1 intact.1⟩
          · have apart : ¬ view.Ruins (first :: rest) (segment :: path) := ruins_of_head_ne same
            cases rest with
            | nil => simp [View.graft, same, apart]
            | cons next rest => simp [View.graft, same, apart]

end View

/-! ## The tree of a list of files -/

/-- What the tree of a list of files shows. -/
def grown (files : List SynthesisFile) : View :=
  files.foldl (fun view file => view.graft file file.segments) emptyView

theorem grown_append (files : List SynthesisFile) (file : SynthesisFile) :
    grown (files ++ [file]) = (grown files).graft file file.segments := by
  simp [grown]

theorem SynthesisFile.segments_ne_nil (file : SynthesisFile) : file.segments ≠ [] :=
  split_ne_nil 0x2F file.path

theorem sound_grown (files : List SynthesisFile) : (grown files).Sound := by
  induction files using List.reverseRecOn with
  | nil => exact View.sound_emptyView
  | append_singleton files file ih =>
      rw [grown_append]
      exact ih.graft file file.segments

theorem grown_from {files : List SynthesisFile} {path : List Utf16}
    (there : grown files path ≠ none) : path = [] ∨ ∃ file ∈ files, path <+: file.segments := by
  induction files using List.reverseRecOn with
  | nil =>
      simp only [grown, List.foldl_nil, emptyView] at there
      split at there
      next nil => exact .inl nil
      next => contradiction
  | append_singleton files file ih =>
      rw [grown_append] at there
      cases View.graft_from there with
      | inl before => exact (ih before).imp_right fun ⟨other, inside, below⟩ =>
          ⟨other, List.mem_append_left _ inside, below⟩
      | inr below => exact .inr ⟨file, by simp, below⟩

/-- The loop over the files builds what `grown` says, as long as no name is the accessor's. -/
theorem foldlM_addToTree {files : List SynthesisFile} {heap : Heap SynthesisFile} {ref : Nat}
    (tidy : heap.Tidy) (single : heap.Single ref) (used : ref < heap.next) (top : ref ≠ base)
    (named : ∀ file ∈ files, Inherited.proto ∉ file.segments) :
    ∃ after, files.foldlM (fun heap file => addToTree file heap ref file.segments) heap = some after ∧
      viewOf after ref =
        files.foldl (fun view file => view.graft file file.segments) (viewOf heap ref) := by
  induction files generalizing heap with
  | nil => exact ⟨heap, rfl, rfl⟩
  | cons file rest ih =>
      obtain ⟨middle, added, grows, view⟩ : ∃ middle,
          addToTree file heap ref file.segments = some middle ∧ heap.Grows middle ref ∧
            viewOf middle ref = (viewOf heap ref).graft file file.segments :=
        addToTree_graft tidy single used top (named file List.mem_cons_self) file.segments_ne_nil
      obtain ⟨after, built, view'⟩ := ih grows.tidy grows.single (used.trans_le grows.next)
        fun other inside => named other (.tail file inside)
      refine ⟨after, ?_, ?_⟩
      · rw [List.foldlM_cons, added]
        exact built
      · rw [view', view, List.foldl_cons]

theorem tidy_initial : (Heap.initial.fresh.1 : Heap SynthesisFile).Tidy := by
  refine ⟨by decide, fun _ => rfl, rfl, ?_, ?_, ?_⟩
  · intro ref apart
    simp [Heap.fresh, Heap.initial, apart, Table.empty]
  all_goals
    intro ref
    by_cases same : ref = base <;> simp [Heap.fresh, Heap.initial, same, Table.empty]

theorem look_initial {path : List Utf16} :
    (Heap.initial.fresh.1 : Heap SynthesisFile).look (.table root) path =
      if path = [] then some (.table root) else none := by
  cases path with
  | nil => simp
  | cons name rest => rfl

theorem fileTree_grown {files : List SynthesisFile}
    (named : ∀ file ∈ files, Inherited.proto ∉ file.segments) :
    ∃ heap, fileTree files = some heap ∧ viewOf heap root = grown files := by
  have single : (Heap.initial.fresh.1 : Heap SynthesisFile).Single root := by
    intro path path' child found found'
    rw [look_initial] at found found'
    split at found
    next nil =>
      split at found'
      next nil' => rw [nil, nil']
      next => contradiction
    next => contradiction
  have empty : viewOf (Heap.initial.fresh.1 : Heap SynthesisFile) root = emptyView := by
    funext path
    rw [viewOf, look_initial, emptyView]
    split <;> rfl
  obtain ⟨after, built, view⟩ := foldlM_addToTree tidy_initial single (by decide) (by decide) named
  exact ⟨after, built, by rw [view, empty, grown]⟩

/-- No tree that is built has a member of the accessor's name. -/
theorem proper_addToTree {file : SynthesisFile} {heap after : Heap SynthesisFile} {ref : Nat}
    {segments : List Utf16} (proper : heap.Proper)
    (added : addToTree file heap ref segments = some after) : after.Proper := by
  induction segments generalizing heap ref with
  | nil =>
      cases added
      exact proper
  | cons first rest ih =>
      cases rest with
      | nil => exact proper.set added
      | cons next rest =>
          rw [addToTree] at added
          split at added
          next =>
            obtain ⟨middle, set, further⟩ := Option.bind_eq_some_iff.1 added
            exact ih (proper.set set) further
          next =>
            obtain ⟨middle, set, further⟩ := Option.bind_eq_some_iff.1 added
            exact ih (Heap.Proper.set proper.fresh set) further

theorem proper_fileTree {files : List SynthesisFile} {heap : Heap SynthesisFile}
    (built : fileTree files = some heap) : heap.Proper := by
  have kept : ∀ (files : List SynthesisFile) (before : Heap SynthesisFile), before.Proper →
      files.foldlM (fun heap file => addToTree file heap root file.segments) before = some heap →
      heap.Proper := by
    intro files
    induction files with
    | nil =>
        intro before proper same
        cases same
        exact proper
    | cons file rest ih =>
        intro before proper made
        rw [List.foldlM_cons] at made
        obtain ⟨middle, added, further⟩ := Option.bind_eq_some_iff.1 made
        exact ih middle (proper_addToTree proper added) further
  apply kept files _ _ built
  intro ref
  by_cases same : ref = base <;> simp [Heap.fresh, Heap.initial, same, Table.empty]

/-- Two paths that can lie in one tree, the first hung in earlier. -/
def Apart (earlier later : List Utf16) : Prop :=
  ¬ earlier <+: later ∧ ¬ later <+: earlier ∧
    ∀ directory ∈ later.inits, directory ≠ [] → ¬ directory ++ [pathName] <+: earlier

/-- A tree shows all its files exactly when their paths can lie in one tree. -/
theorem grown_shows_iff (files : List SynthesisFile) :
    ((files.map SynthesisFile.segments).Nodup ∧
      ∀ file ∈ files, grown files file.segments = some (.file file)) ↔
      (files.map SynthesisFile.segments).Pairwise Apart := by
  induction files using List.reverseRecOn with
  | nil => simp
  | append_singleton files last ih =>
      have some' := last.segments_ne_nil
      rw [List.map_append, List.map_singleton, List.pairwise_append, ← ih]
      constructor
      · rintro ⟨distinct, shown⟩
        have apart : ∀ file ∈ files, file.segments ≠ last.segments := by
          intro file inside same
          obtain ⟨_, _, disjoint⟩ := List.nodup_append.1 distinct
          exact disjoint _ (List.mem_map_of_mem inside) _ (List.mem_singleton_self _) same
        have before : ∀ file ∈ files, grown files file.segments = some (.file file) ∧
            ¬ (grown files).Ruins last.segments file.segments := by
          intro file inside
          have here := shown file (List.mem_append_left _ inside)
          rw [grown_append] at here
          exact (View.graft_file_iff (sound_grown files) (apart file inside) some').1 here
        refine ⟨⟨(List.nodup_append.1 distinct).1, fun file inside => (before file inside).1⟩,
          List.pairwise_singleton _ _, ?_⟩
        intro earlier inside later isLast
        rw [List.mem_singleton] at isLast
        subst isLast
        obtain ⟨file, member, rfl⟩ := List.mem_map.1 inside
        obtain ⟨there, intact⟩ := before file member
        refine ⟨fun below => intact (.inr (.inl below)), fun above => intact (.inl above), ?_⟩
        intro directory onWay more entry
        rw [List.mem_inits] at onWay
        have inDirectory : directory <+: file.segments :=
          (List.prefix_append directory [pathName]).trans entry
        by_cases whole : directory = last.segments
        · exact intact (.inl (whole ▸ inDirectory))
        · refine intact (.inr (.inr ⟨directory, more, onWay, whole, inDirectory, ?_⟩))
          obtain ⟨rest, same⟩ := entry
          intro absent
          by_cases end' : rest = []
          · rw [end', List.append_nil] at same
            rw [same, there] at absent
            contradiction
          · have directory' := (sound_grown files).closed _ rest end' (by
              rw [same, there]
              exact Option.some_ne_none _)
            rw [directory'] at absent
            contradiction
      · rintro ⟨⟨distinct, shown⟩, _, apart⟩
        have apart' : ∀ file ∈ files, Apart file.segments last.segments := fun file inside =>
          apart _ (List.mem_map_of_mem inside) _ (List.mem_singleton_self _)
        constructor
        · apply distinct.append (List.nodup_singleton _)
          intro segments inside isLast
          obtain ⟨file, member, rfl⟩ := List.mem_map.1 inside
          have below := (apart' file member).1
          rw [List.mem_singleton.1 isLast] at below
          exact below (List.prefix_refl _)
        · intro file inside
          rw [grown_append]
          cases List.mem_append.1 inside with
          | inr isLast =>
              rw [List.mem_singleton.1 isLast]
              exact View.graft_self some'
          | inl earlier =>
              obtain ⟨unlike, above, entries⟩ := apart' file earlier
              apply (View.graft_file_iff (sound_grown files) _ some').2 ⟨shown file earlier, _⟩
              · intro same
                exact unlike (same ▸ List.prefix_refl _)
              · rintro (inside' | below | ⟨directory, more, onWay, _, _, entry⟩)
                · exact above inside'
                · exact unlike below
                · cases grown_from entry with
                  | inl nil => simp at nil
                  | inr from' =>
                      obtain ⟨other, member, there⟩ := from'
                      exact (apart' other member).2.2 directory ((List.mem_inits _ _).2 onWay) more
                        there

/-- Paths without the accessor's name that can lie in one tree, in the order in which they are
hung in. -/
def Separate (paths : List Utf16) : Prop :=
  (paths.map (split 0x2F)).Pairwise Apart ∧ ∀ path ∈ paths, Inherited.proto ∉ split 0x2F path

/-- The tree shows a file: its path leads to it through own members. -/
def Shows (heap : Heap SynthesisFile) (file : SynthesisFile) : Prop :=
  heap.look (.table root) file.segments = some (.leaf file)

theorem shows_iff {heap : Heap SynthesisFile} {file : SynthesisFile} :
    Shows heap file ↔ viewOf heap root file.segments = some (.file file) := by
  rw [Shows, viewOf]
  cases heap.look (.table root) file.segments with
  | none => simp
  | some value => cases value <;> simp [kindOf]

/-- The files have different paths and the tree is built and shows them all. -/
theorem fileTree_shows_iff (files : List SynthesisFile) :
    ((files.map SynthesisFile.path).Nodup ∧
      ∃ heap, fileTree files = some heap ∧ ∀ file ∈ files, Shows heap file) ↔
      Separate (files.map SynthesisFile.path) := by
  have sameSegments : files.map SynthesisFile.segments =
      (files.map SynthesisFile.path).map (split 0x2F) := by
    rw [List.map_map]
    rfl
  have injective : Function.Injective (split 0x2F) := by
    intro path path' same
    rw [← join_split 0x2F path, ← join_split 0x2F path', same]
  have distinct : (files.map SynthesisFile.path).Nodup ↔ (files.map SynthesisFile.segments).Nodup := by
    rw [sameSegments, List.nodup_map_iff injective]
  rw [Separate, ← sameSegments, ← grown_shows_iff, distinct, List.forall_mem_map]
  constructor
  · rintro ⟨different, heap, built, shown⟩
    have named : ∀ file ∈ files, Inherited.proto ∉ file.segments := by
      intro file inside mentioned
      have there := shown file inside
      rw [Shows, (proper_fileTree built).look_of_mem mentioned] at there
      contradiction
    obtain ⟨heap', built', view⟩ := fileTree_grown named
    rw [built, Option.some.injEq] at built'
    subst built'
    refine ⟨⟨different, fun file inside => ?_⟩, named⟩
    rw [← view]
    exact shows_iff.1 (shown file inside)
  · rintro ⟨⟨different, shown⟩, named⟩
    obtain ⟨heap, built, view⟩ := fileTree_grown named
    refine ⟨different, heap, built, fun file inside => ?_⟩
    rw [shows_iff, view]
    exact shown file inside

/-! ## The names outputs are kept under -/

section Produced

variable (parse : Utf16 → ParseResult)

/-- What the completed steps produced, in the order in which it is read. -/
def produced (pieces : List Contribution) : List (StepId × ExtractedFile) :=
  pieces.flatMap fun piece =>
    ((piece.parsed parse).elim [] ParseResult.files).map fun file => (piece.id, file)

/-- The outputs for one path. -/
def writtenTo (outputs : List (StepId × ExtractedFile)) (path : Utf16) :
    List (StepId × ExtractedFile) :=
  outputs.filter fun output => output.2.path = path

/-- The names outputs are kept under: the first one for a path has the path, every later one
carries the id of its step. -/
def keptNames (outputs : List (StepId × ExtractedFile)) : List Utf16 :=
  (outputs.map fun output => output.2.path).eraseDups.flatMap fun path =>
    match writtenTo outputs path with
    | [] => []
    | _ :: later => path :: later.map fun output => conflictPath path output.1

def versionOf (output : StepId × ExtractedFile) : StepId × Utf16 := (output.1, output.2.content)

theorem get_byPaths (outputs : List (StepId × ExtractedFile)) (path : Utf16) (paths : List Utf16) :
    KeyedList.get Prod.fst
        (paths.map fun path => (path, (writtenTo outputs path).map versionOf)) path =
      if path ∈ paths then some (path, (writtenTo outputs path).map versionOf) else none := by
  induction paths using List.reverseRecOn with
  | nil => rfl
  | append_singleton paths last ih =>
      rw [List.map_append, KeyedList.get_append, ih, List.map_singleton, KeyedList.get_cons,
        KeyedList.get_nil, Option.none_or]
      by_cases same : last = path
      · simp [same]
      · have apart : path ≠ last := Ne.symm same
        simp [same, apart]

theorem writtenTo_append (outputs : List (StepId × ExtractedFile)) (last : StepId × ExtractedFile)
    (path : Utf16) : writtenTo (outputs ++ [last]) path =
      writtenTo outputs path ++ if last.2.path = path then [last] else [] := by
  rw [writtenTo, List.filter_append, writtenTo]
  congr 1
  by_cases same : last.2.path = path <;> simp [same]

theorem writtenTo_eq_nil {outputs : List (StepId × ExtractedFile)} {path : Utf16}
    (absent : path ∉ outputs.map fun output => output.2.path) : writtenTo outputs path = [] := by
  apply List.filter_eq_nil_iff.2
  intro output inside same
  exact absent (List.mem_map.2 ⟨output, inside, by simpa using same⟩)

/-- The versions of each path, by first appearance. -/
theorem byPath_eq (pieces : List Contribution) : byPath parse pieces =
    ((produced parse pieces).map fun output => output.2.path).eraseDups.map fun path =>
      (path, (writtenTo (produced parse pieces) path).map versionOf) := by
  have folded : byPath parse pieces = (produced parse pieces).foldl
      (fun byPath output => addVersion output.1 byPath output.2) [] := by
    rw [produced, List.foldl_flatMap]
    simp only [List.foldl_map, byPath]
  rw [folded]
  induction produced parse pieces using List.reverseRecOn with
  | nil => rfl
  | append_singleton outputs last ih =>
      rw [List.foldl_append, ih, List.foldl_cons, List.foldl_nil, addVersion, get_byPaths,
        List.map_append, List.map_singleton, List.eraseDups_append]
      by_cases known : last.2.path ∈ outputs.map fun output => output.2.path
      · have known' := List.mem_eraseDups.2 known
        have none' : [last.2.path].removeAll (outputs.map fun output => output.2.path) = [] := by
          simpa [List.removeAll] using known
        have here : last.2.path ∈ ((outputs.map fun output => output.2.path).eraseDups.map
            fun path => (path, (writtenTo outputs path).map versionOf)).map Prod.fst := by
          simpa [List.map_map, Function.comp_def] using known'
        rw [none', List.eraseDups_nil, List.append_nil, if_pos known', KeyedList.insert, if_pos here,
          KeyedList.set, List.map_map]
        apply List.map_congr_left
        intro path _
        simp only [Function.comp_apply, writtenTo_append, List.map_append]
        by_cases same : path = last.2.path
        · simp [same, versionOf]
        · simp [same, Ne.symm same]
      · have known' := List.mem_eraseDups.not.2 known
        have all : [last.2.path].removeAll (outputs.map fun output => output.2.path) =
            [last.2.path] := by
          simpa [List.removeAll] using known
        have here : last.2.path ∉ ((outputs.map fun output => output.2.path).eraseDups.map
            fun path => (path, (writtenTo outputs path).map versionOf)).map Prod.fst := by
          simpa [List.map_map, Function.comp_def] using known'
        rw [all, if_neg known', KeyedList.insert, if_neg here, List.map_append]
        congr 1
        · apply List.map_congr_left
          intro path inside
          have apart : last.2.path ≠ path := fun same => known' (same ▸ inside)
          simp [writtenTo_append, apart]
        · rw [List.eraseDups_cons, List.filter_nil, List.eraseDups_nil, List.map_singleton,
            writtenTo_append, writtenTo_eq_nil known, if_pos rfl]
          rfl

end Produced

theorem path_resolve (path : Utf16) (versions : List (StepId × Utf16)) :
    (resolve path versions).map SynthesisFile.path =
      match versions with
      | [] => []
      | _ :: later => path :: later.map fun version => conflictPath path version.1 := by
  match versions with
  | [] => rfl
  | [_] => rfl
  | _ :: next :: later =>
      have constant : ∀ {File : Type} (make : StepId × Utf16 → File),
          later.mapIdx (fun _ version => make version) = later.map make := by
        intro File make
        exact List.ext_getElem? fun index => by simp
      simp [resolve, constant]

/-- Every version is kept, under its path or as a conflict with it. -/
theorem exists_resolved {path : Utf16} {versions : List (StepId × Utf16)}
    {version : StepId × Utf16} (inside : version ∈ versions) :
    ∃ file ∈ resolve path versions, file.sourceTaskId = version.1 ∧ file.content = version.2 ∧
      (file.path = path ∨ file.conflictsWithPath = some path) := by
  match versions with
  | [] => contradiction
  | [only] =>
      rw [List.mem_singleton.1 inside]
      exact ⟨_, List.mem_singleton_self _, rfl, rfl, .inl rfl⟩
  | first :: next :: later =>
      obtain ⟨index, bound, same⟩ := List.mem_iff_getElem.1 inside
      refine ⟨_, List.mem_mapIdx.2 ⟨index, bound, rfl⟩, ?_⟩
      simp [same]

/-- Nothing is lost: the files have different paths, every output is among them, and the tree
shows each of them. -/
structure Synthesis.Lossless (synthesis : Synthesis) (outputs : List (StepId × ExtractedFile)) :
    Prop where
  distinct : (synthesis.files.map SynthesisFile.path).Nodup
  present : ∀ output ∈ outputs, ∃ file ∈ synthesis.files, file.sourceTaskId = output.1 ∧
    file.content = output.2.content ∧
    (file.path = output.2.path ∨ file.conflictsWithPath = some output.2.path)
  shown : ∃ heap, fileTree synthesis.files = some heap ∧ ∀ file ∈ synthesis.files, Shows heap file

/-- What the steps of a graph produced. -/
def outputsOf (parseJson : Utf16 → Option Json) (graph : Graph) (entries : Entries) :
    List (StepId × ExtractedFile) :=
  produced (parseTaskOutput parseJson) ((topoOrder graph.tasks).map (contribution entries))

/-- Synthesis loses nothing exactly when the names the outputs are kept under can lie in one
tree. -/
theorem synthesize_lossless_iff (parseJson : Utf16 → Option Json) (graph : Graph)
    (entries : Entries) :
    (synthesize (parseTaskOutput parseJson) graph entries).Lossless
        (outputsOf parseJson graph entries) ↔
      Separate (keptNames (outputsOf parseJson graph entries)) := by
  let outputs := outputsOf parseJson graph entries
  let files := (synthesize (parseTaskOutput parseJson) graph entries).files
  have made : files = ((outputs.map fun output => output.2.path).eraseDups.map fun path =>
      (path, (writtenTo outputs path).map versionOf)).flatMap
        fun entry => resolve entry.1 entry.2 := by
    change List.flatMap Prod.snd (List.map _ (byPath _ _)) = _
    rw [byPath_eq, List.flatMap_map]
    rfl
  have named : files.map SynthesisFile.path = keptNames outputs := by
    rw [made, List.flatMap_map, List.map_flatMap, keptNames]
    congr 1
    funext path
    rw [path_resolve]
    cases writtenTo outputs path with
    | nil => rfl
    | cons first later => simp [versionOf]
  have present : ∀ output ∈ outputs, ∃ file ∈ files, file.sourceTaskId = output.1 ∧
      file.content = output.2.content ∧
      (file.path = output.2.path ∨ file.conflictsWithPath = some output.2.path) := by
    intro output inside
    have version : versionOf output ∈ (writtenTo outputs output.2.path).map versionOf :=
      List.mem_map_of_mem (List.mem_filter.2 ⟨inside, by simp⟩)
    obtain ⟨file, resolved, kept⟩ := @exists_resolved output.2.path _ _ version
    have listed : output.2.path ∈ (outputs.map fun output => output.2.path).eraseDups :=
      List.mem_eraseDups.2 (List.mem_map_of_mem inside)
    refine ⟨file, ?_, kept⟩
    rw [made, List.mem_flatMap]
    exact ⟨_, List.mem_map_of_mem listed, resolved⟩
  have shows := fileTree_shows_iff files
  rw [named] at shows
  constructor
  · intro lossless
    apply shows.1
    rw [← named]
    exact ⟨lossless.distinct, lossless.shown⟩
  · intro separate
    obtain ⟨distinct, shown⟩ := shows.2 separate
    rw [← named] at distinct
    exact ⟨distinct, present, shown⟩

section Thrice

/-- A plan of one step. -/
def soleStep : Step where
  id := ofString "t"
  title := ofString "T"
  aspect := ofString "code_generation"
  description := []
  dependsOn := []
  deliverable := []

/-- The step answered with three files for one path. -/
def writtenThrice : Entries :=
  [{ step := soleStep, state := .complete, assignment := none, attempts := []
     output := some (ofString ("\x7b\"files\":[\x7b\"path\":\"a\",\"content\":\"1\"\x7d," ++
       "\x7b\"path\":\"a\",\"content\":\"2\"\x7d,\x7b\"path\":\"a\",\"content\":\"3\"\x7d]\x7d"))
     error := none, startedAt := none, completedAt := none }]

/-- The second and the third file are both kept as `a.t`. -/
theorem not_synthesize_lossless : ¬ ∀ (parseJson : Utf16 → Option Json) (graph : Graph)
    (entries : Entries), (synthesize (parseTaskOutput parseJson) graph entries).Lossless
      (outputsOf parseJson graph entries) := by
  intro lossless
  have distinct := (lossless Json.parse { sharedContext := [], tasks := [soleStep], plannedBy := none }
    writtenThrice).distinct
  revert distinct
  decide

end Thrice

end Orchestrator

end TitanRunner
