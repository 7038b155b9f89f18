import Mathlib.Data.List.Basic

/-!
# Directories, files and symbolic links

A disk gives the entry at each real path.  The operating system follows a path step by step;
at a symbolic link it goes on with the link's target.  A walk that meets no link ends where its
steps say: that is all a program has to check that wants to know which file it opens.
-/

namespace FileSystem

universe u v

/-- A step of a path. -/
inductive Step (Name : Type u) where
  | up
  | down (name : Name)
  deriving DecidableEq, Repr

inductive Entry (Name : Type u) (Content : Type v) where
  | file (content : Content)
  /-- A directory and the names in it. -/
  | dir (names : List Name)
  /-- A symbolic link; an absolute target is walked from the root. -/
  | link (absolute : Bool) (target : List (Step Name))

/-- The entry at a real path, whose steps all go down. -/
abbrev Disk (Name : Type u) (Content : Type v) := List Name → Option (Entry Name Content)

/-- Where a walk along the entries ends that follows no link. -/
inductive Walk (Name : Type u) where
  | done (location : List Name)
  /-- There is no entry of that name in the directory; steps are left. -/
  | missing (dir : List Name) (name : Name) (rest : List (Step Name))
  | link (dir : List Name) (name : Name) (rest : List (Step Name))
  /-- A file stands where a directory should. -/
  | notDirectory

variable {Name : Type u} {Content : Type v}

namespace Disk

variable (disk : Disk Name Content)

def walk : List Name → List (Step Name) → Walk Name
  | here, [] => .done here
  | here, .up :: rest => walk here.dropLast rest
  | here, .down name :: rest =>
      match disk (here ++ [name]) with
      | none => .missing here name rest
      | some (.link _ _) => .link here name rest
      | some (.dir _) => walk (here ++ [name]) rest
      | some (.file _) => if rest.isEmpty then .done (here ++ [name]) else .notDirectory

/-- The directory and the steps that a walk goes on with behind a link. -/
def behind (dir : List Name) (name : Name) (rest : List (Step Name)) :
    Option (List Name × List (Step Name)) :=
  match disk (dir ++ [name]) with
  | some (.link absolute target) => some (if absolute then [] else dir, target ++ rest)
  | _ => none

/-- The real path of an existing entry; `links` bounds the links that are followed. -/
def locate : Nat → List Name → List (Step Name) → Option (List Name)
  | links, here, steps =>
      match disk.walk here steps with
      | .done location => some location
      | .link dir name rest =>
          match links with
          | 0 => none
          | links + 1 => (disk.behind dir name rest).bind fun (dir, steps) => locate links dir steps
      | .missing _ _ _ | .notDirectory => none

/-- The names of steps that all go down. -/
def downward : List (Step Name) → Option (List Name)
  | [] => some []
  | .down name :: rest => (downward rest).map (name :: ·)
  | .up :: _ => none

/-- The real path of a file that is written, with the directories above it made where they are
missing. -/
def destination : Nat → List Name → List (Step Name) → Option (List Name)
  | links, here, steps =>
      match disk.walk here steps with
      | .done location => some location
      | .missing dir name rest => (downward rest).map fun names => dir ++ name :: names
      | .link dir name rest =>
          match links with
          | 0 => none
          | links + 1 =>
              (disk.behind dir name rest).bind fun (dir, steps) => destination links dir steps
      | .notDirectory => none

/-- `stat`: the entry behind a path below a directory. -/
def stat (links : Nat) (base names : List Name) : Option (Entry Name Content) :=
  (disk.locate links base (names.map .down)).bind disk

/-- `lstat`: the entry that a path below a directory names, be it a link. -/
def lstat (links : Nat) (base : List Name) (names : List Name) : Option (Entry Name Content) :=
  match names.getLast? with
  | none => disk base
  | some last =>
      (disk.locate links base (names.dropLast.map .down)).bind fun dir =>
        match disk dir with
        | some (.dir _) => disk (dir ++ [last])
        | _ => none

def readFile (links : Nat) (base names : List Name) : Option Content :=
  match disk.stat links base names with
  | some (.file content) => some content
  | _ => none

/-- `readdir` with the kind of each entry, which is the one of `lstat`. -/
def readdir (links : Nat) (base names : List Name) : Option (List (Name × Entry Name Content)) :=
  (disk.locate links base (names.map .down)).bind fun dir =>
    match disk dir with
    | some (.dir names) =>
        some (names.filterMap fun name => (disk (dir ++ [name])).map fun entry => (name, entry))
    | _ => none

/-- A path that meets no link on the way to what is there. -/
def Plain (base names : List Name) : Prop := disk.walk base (names.map .down) = .done (base ++ names)

variable {disk} {links : Nat} {base names : List Name} {name : Name}

theorem plain_nil : disk.Plain base [] := by
  simp [Plain, walk]

/-- A walk that ends somewhere ends where its names say. -/
theorem eq_of_walk {location : List Name}
    (ended : disk.walk base (names.map .down) = .done location) : location = base ++ names := by
  induction names generalizing base with
  | nil =>
      cases ended
      exact (List.append_nil _).symm
  | cons name rest ih =>
      simp only [List.map_cons, walk] at ended
      split at ended
      · contradiction
      · contradiction
      · rw [ih ended, List.append_assoc]
        rfl
      · split at ended
        next last =>
          cases ended
          rw [List.isEmpty_iff, List.map_eq_nil_iff] at last
          rw [last]
        next => contradiction

theorem plain_of_walk {location : List Name}
    (ended : disk.walk base (names.map .down) = .done location) : disk.Plain base names := by
  rw [Plain, ← eq_of_walk ended]
  exact ended

/-- A walk that stops where something is missing is about to make the path its names say. -/
theorem eq_of_missing {dir : List Name} {rest : List (Step Name)}
    (ended : disk.walk base (names.map .down) = .missing dir name rest) :
    ∃ below, rest = below.map .down ∧ dir ++ name :: below = base ++ names := by
  induction names generalizing base with
  | nil => contradiction
  | cons first later ih =>
      simp only [List.map_cons, walk] at ended
      split at ended
      · cases ended
        exact ⟨later, rfl, rfl⟩
      · contradiction
      · have ⟨below, same, joined⟩ := ih ended
        rw [List.append_assoc] at joined
        exact ⟨below, same, joined⟩
      · split at ended
        next => contradiction
        next => contradiction

theorem downward_map (names : List Name) : downward (names.map Step.down) = some names := by
  induction names with
  | nil => rfl
  | cons name rest ih => rw [List.map_cons, downward, ih, Option.map_some]

theorem locate_of_walk {steps : List (Step Name)} :
    disk.locate links base steps =
      match disk.walk base steps, links with
      | .done location, _ => some location
      | .link dir name rest, links + 1 =>
          (disk.behind dir name rest).bind fun (dir, steps) => disk.locate links dir steps
      | _, _ => none := by
  cases links with
  | zero =>
      rw [locate]
      cases disk.walk base steps with
      | done _ | missing _ _ _ | link _ _ _ | notDirectory => rfl
  | succ links =>
      rw [locate]
      cases disk.walk base steps with
      | done _ | missing _ _ _ | link _ _ _ | notDirectory => rfl

theorem destination_of_walk {steps : List (Step Name)} :
    disk.destination links base steps =
      match disk.walk base steps, links with
      | .done location, _ => some location
      | .missing dir name rest, _ => (downward rest).map fun names => dir ++ name :: names
      | .link dir name rest, links + 1 =>
          (disk.behind dir name rest).bind fun (dir, steps) => disk.destination links dir steps
      | _, _ => none := by
  cases links with
  | zero =>
      rw [destination]
      cases disk.walk base steps with
      | done _ | missing _ _ _ | link _ _ _ | notDirectory => rfl
  | succ links =>
      rw [destination]
      cases disk.walk base steps with
      | done _ | missing _ _ _ | link _ _ _ | notDirectory => rfl

/-- A plain path is located where it says, whatever number of links may be followed. -/
theorem locate_of_plain (plain : disk.Plain base names) :
    disk.locate links base (names.map .down) = some (base ++ names) := by
  rw [locate_of_walk, plain]

theorem stat_of_plain (plain : disk.Plain base names) :
    disk.stat links base names = disk (base ++ names) := by
  rw [stat, locate_of_plain plain, Option.bind_some]

/-- A walk goes on behind a directory that a plain path comes to. -/
theorem walk_append (plain : disk.Plain base names) {entries : List Name}
    (directory : disk (base ++ names) = some (.dir entries) ∨ names = []) (more : List Name) :
    disk.walk base ((names ++ more).map .down) = disk.walk (base ++ names) (more.map .down) := by
  induction names generalizing base with
  | nil => rw [List.nil_append, List.append_nil]
  | cons first rest ih =>
      have joined : base ++ first :: rest = base ++ [first] ++ rest := List.append_cons _ _ _
      simp only [Plain, List.map_cons, List.cons_append, walk] at plain ⊢
      cases found : disk (base ++ [first]) with
      | none =>
          rw [found] at plain
          contradiction
      | some entry =>
          rw [found] at plain
          cases entry with
          | link absolute target => contradiction
          | dir entries' =>
              rw [joined] at directory ⊢
              apply ih (plain_of_walk plain)
              cases directory with
              | inl directory => exact .inl directory
              | inr none' => contradiction
          | file content =>
              cases rest with
              | nil =>
                  cases directory with
                  | inl directory =>
                      rw [found] at directory
                      cases directory
                  | inr none' => contradiction
              | cons second rest => contradiction

/-- A plain path to a directory goes on to an entry there that is no link. -/
theorem plain_snoc (plain : disk.Plain base names) {entries : List Name}
    (directory : disk (base ++ names) = some (.dir entries) ∨ names = [])
    {entry : Entry Name Content} (found : disk (base ++ names ++ [name]) = some entry)
    (direct : ∀ absolute target, entry ≠ .link absolute target) :
    disk.Plain base (names ++ [name]) := by
  rw [Plain, walk_append plain directory, ← List.append_assoc]
  simp only [List.map_cons, List.map_nil, walk, found]
  cases entry with
  | link absolute target => exact absurd rfl (direct absolute target)
  | dir entries => rfl
  | file content => rfl

end Disk

end FileSystem
