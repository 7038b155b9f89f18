import TitanRunner.Observability.EventLines

/-!
# The order of the events

The events of a file count up as long as each process that opens a file finds one of its events
among the last five lines, or counts further already.  Five torn lines one after the other hide
the events before them, and the count begins again.
-/

namespace TitanRunner

namespace EventLog

open Utf16 TransitionSystem System QueueFile
open StateSchema (assign)

/-- The events of a file count up. -/
def CountsUp (text : Utf16) : Prop := ∃ numbers : List Int,
  (readJsonlFile text).map seqOf = numbers.map some ∧ numbers.Pairwise (· < ·)

/-- One of the last five lines is an event, or no event has a number above the log's. -/
def recovers (log : Log) (text : Utf16) : Bool :=
  ((lastLines text).any fun line => (Json.parse line).isSome) ||
    (readJsonlFile text).all fun event => (seqOf event).all fun number : Int => decide (number ≤ log.seq)

/-- An entry without a number of its own, in a file that is open or recovers. -/
def Follows (world : World) (entry : Entry) : Prop :=
  ofString "seq" ∉ entry.fields.map Prod.fst ∧
    (world.log.all fun log => log.currentFile == some (fileFor entry) ||
      recovers log (world.disk (fileFor entry))) = true

/-- The side condition of a step. -/
def Recovers (world : World) : Label → Prop
  | .start _ => True
  | .append entry | .tear entry _ _ => Follows world entry

instance (world : World) (label : Label) : Decidable (Recovers world label) :=
  match label with
  | .start _ => inferInstanceAs (Decidable True)
  | .append _ | .tear _ _ _ => inferInstanceAs (Decidable (_ ∧ _))

/-! ## The number of an event -/

section Event

variable {log : Log} {entry : Entry}

theorem member_withFields {name : Utf16} (members fields : List (Utf16 × Json))
    (other : name ∉ fields.map Prod.fst) :
    (Json.object (withFields members fields)).member name = (Json.object members).member name := by
  induction fields generalizing members with
  | nil => rfl
  | cons field fields ih =>
      have ⟨here, later⟩ := not_or.1 (List.mem_cons.not.1 other)
      have rest := ih (assign members field.1 field.2) later
      rw [member_assign, if_neg fun same => here same.symm] at rest
      exact rest

theorem seqOf_eventOf (other : ofString "seq" ∉ entry.fields.map Prod.fst) :
    seqOf (eventOf log entry) = some (log.seq : Int) := by
  have found : ∀ members : List (Utf16 × Json), (ofString "seq") ∉ members.map Prod.fst →
      ∀ value, (Json.object ((ofString "seq", value) :: members)).member (ofString "seq") =
        some value := by
    intro members absent value
    have nothing : members.reverse.find? (fun member => member.1 == ofString "seq") = none := by
      rw [List.find?_eq_none]
      intro member inside same
      apply absent
      rw [← beq_iff_eq.1 same]
      exact List.mem_map_of_mem (List.mem_reverse.1 inside)
    rw [Json.member, List.reverse_cons, List.find?_append, nothing, Option.none_or,
      List.find?_cons, beq_self_eq_true]
    rfl
  have names : ofString "seq" ∉ [ofString "ts", ofString "type", ofString "pulseId"] := by
    decide
  have itself := found [(ofString "ts", .string entry.ts), (ofString "type", .string entry.type),
    (ofString "pulseId", .string log.pulseId)] names (.number (ofNat log.seq))
  rw [seqOf, eventOf, member_scrubForState, member_withFields _ _ other, itself,
    Option.map_some, Option.bind_some]
  exact Json.integer?_ofNat log.seq

theorem proper_eventOf : (eventOf log entry).isProper = true := by
  apply isProper_walk
  rw [Json.isProper]
  have kept : ∀ fields members, Json.areProperMembers fields = true →
      Json.areProperMembers members = true →
      Json.areProperMembers (withFields members fields) = true := by
    intro fields
    induction fields with
    | nil =>
        intro members _ proper
        exact proper
    | cons field fields ih =>
        intro members proper' proper
        rw [Json.areProperMembers, Bool.and_eq_true] at proper'
        exact ih _ proper'.2 (areProperMembers_assign proper proper'.1)
  apply kept _ _ entry.proper
  rw [Json.areProperMembers, Json.isProper, Json.isNumber_ofNat]
  rfl

/-- The line of an event is the line of an object. -/
theorem whole_eventOf : Whole (Json.stringify (eventOf log entry)) (eventOf log entry) where
  object := ⟨_, rfl⟩
  proper := proper_eventOf
  written := rfl

end Event

/-! ## One file -/

/-- A file whose events have these numbers. -/
structure Filed (text : Utf16) (numbers : List Int) : Prop where
  shows' : ∃ rows last, Shows text rows last
  numbered : (readJsonlFile text).map seqOf = numbers.map some
  up : numbers.Pairwise (· < ·)

section File

variable {text : Utf16} {numbers : List Int} {log : Log} {rows : List Utf16} {last : Utf16}

theorem filed_nil : Filed [] [] where
  shows' := ⟨[], [], rfl, List.forall_mem_nil _, .inl rfl⟩
  numbered := rfl
  up := .nil

theorem filterMap_filled {α : Type} (read : Utf16 → Option α) (nothing : read [] = none) :
    (filled rows last).filterMap read = (rows ++ [last]).filterMap read := by
  rw [filled]
  split
  next empty =>
    rw [List.isEmpty_iff.1 empty, List.filterMap_append, List.filterMap_cons, nothing,
      List.filterMap_nil, List.append_nil]
  next => rfl

/-- The numbers, read off the lines. -/
theorem Filed.numbers_eq (filed : Filed text numbers) (shows' : Shows text rows last) :
    (filled rows last).filterMap (fun line => (Json.parse line).bind seqOf) = numbers := by
  have all : (filled rows last).filterMap Json.parse = readJsonlFile text := by
    rw [filterMap_filled Json.parse rfl, shows'.readJsonlFile]
  have some' : ((readJsonlFile text).map seqOf).filterMap id = numbers := by
    rw [filed.numbered, List.filterMap_map]
    exact List.filterMap_some
  rw [← some', List.filterMap_map, ← all, List.filterMap_filterMap]
  rfl

theorem le_getLast {number : Int} (up : numbers.Pairwise (· < ·))
    (final : numbers.getLast? = some number) : ∀ other ∈ numbers, other ≤ number := by
  have ⟨earlier, same⟩ := List.getLast?_eq_some_iff.1 final
  rw [same] at up ⊢
  intro other inside
  cases List.mem_append.1 inside with
  | inl before => exact Int.le_of_lt ((List.pairwise_append.1 up).2.2 other before number
      List.mem_cons_self)
  | inr here => exact Int.le_of_eq (List.mem_singleton.1 here)

/-- Where an event stands among the last lines, its number is found, and none is higher. -/
theorem Filed.le_lastSeq (filed : Filed text numbers)
    (found : ((lastLines text).any fun line => (Json.parse line).isSome) = true) :
    ∀ number ∈ numbers, number ≤ lastSeq text := by
  have ⟨rows, last, shows'⟩ := filed.shows'
  have looked : (lastLines text).findSome? (fun line => (Json.parse line).bind seqOf) =
      ((filled rows last).reverse.take 5).findSome? fun line => (Json.parse line).bind seqOf := by
    apply shows'.lastLines rfl
    intro row isRow
    rw [isRow.parse_trim]
  have looked' : (lastLines text).findSome? Json.parse =
      ((filled rows last).reverse.take 5).findSome? Json.parse :=
    shows'.lastLines rfl fun row isRow => isRow.parse_trim
  have seen : ((filled rows last).reverse.take 5).findSome? Json.parse ≠ none := by
    rw [← looked', ne_eq, List.findSome?_eq_none_iff]
    intro nothing
    have ⟨line, inside, some'⟩ := List.any_eq_true.1 found
    rw [nothing line inside] at some'
    contradiction
  have some' : ((filled rows last).reverse.take 5).findSome?
      (fun line => (Json.parse line).bind seqOf) ≠ none := by
    intro nothing
    apply seen
    rw [List.findSome?_eq_none_iff] at nothing ⊢
    intro line inside
    cases parsed : Json.parse line with
    | none => rfl
    | some event =>
        have read : event ∈ readJsonlFile text := by
          rw [shows'.readJsonlFile, ← filterMap_filled Json.parse rfl]
          exact List.mem_filterMap.2 ⟨line, List.mem_reverse.1 (List.mem_of_mem_take inside), parsed⟩
        have number : seqOf event ∈ numbers.map some := by
          rw [← filed.numbered]
          exact List.mem_map_of_mem read
        have ⟨value, _, same⟩ := List.mem_map.1 number
        have none' := nothing line inside
        rw [parsed, Option.bind_some, ← same] at none'
        contradiction
  have ⟨number, first⟩ := Option.ne_none_iff_exists'.1 some'
  have final : numbers.getLast? = some number := by
    rw [← filed.numbers_eq shows', ← List.head?_reverse, ← List.filterMap_reverse,
      List.head?_filterMap]
    rw [← List.take_append_drop 5 (filled rows last).reverse, List.findSome?_append, first]
    rfl
  intro other inside
  have least := le_getLast filed.up final other inside
  rw [lastSeq, looked, first]
  exact Int.le_trans least (Int.self_le_toNat number)

/-- A log that recovers counts on. -/
theorem Filed.le_ensureSeq (filed : Filed text numbers) (recovers' : recovers log text = true) :
    ∀ number ∈ numbers, number ≤ (max log.seq (lastSeq text) : Nat) := by
  intro number inside
  cases Bool.or_eq_true_iff.1 recovers' with
  | inl found =>
      have least := filed.le_lastSeq found number inside
      omega
  | inr below =>
      have listed : some number ∈ (readJsonlFile text).map seqOf := by
        rw [filed.numbered]
        exact List.mem_map_of_mem inside
      have ⟨event, read, same⟩ := List.mem_map.1 listed
      have least := List.all_eq_true.1 below event read
      rw [same, Option.all_some, decide_eq_true_eq] at least
      omega

/-! ## What is appended to it -/

/-- The file goes on to lines of these events. -/
structure Grown (text after : Utf16) (events : List Json) : Prop where
  shows' : ∃ rows last, Shows after rows last
  read : readJsonlFile after = readJsonlFile text ++ events

theorem glue_filled (rows : List Utf16) (last rest : Utf16) :
    glue rows last ++ ((if last.isEmpty then [] else [0x0A]) ++ rest) =
      glue (filled rows last) rest := by
  rw [filled]
  split
  next empty => rw [List.isEmpty_iff.1 empty, glue, glue, List.append_nil, List.nil_append]
  next =>
    rw [glue_append, glue_cons]
    simp [glue]

/-- A row is appended, and perhaps ended. -/
theorem Shows.grown {row : Utf16} {more : List Utf16} {final : Utf16} (shows' : Shows text rows last)
    (all : ∀ row ∈ more, IsRow row) (ended : final = [] ∨ IsRow final)
    (same : row = glue more final) :
    Shows (text ++ ((if last.isEmpty then [] else [0x0A]) ++ row)) (EventLog.filled rows last ++ more) final ∧
      Grown text (text ++ ((if last.isEmpty then [] else [0x0A]) ++ row))
        ((more ++ [final]).filterMap Json.parse) := by
  have after : Shows (text ++ ((if last.isEmpty then [] else [0x0A]) ++ row))
      (EventLog.filled rows last ++ more) final := by
    constructor
    · rw [shows'.glued, glue_filled, same, glue_append, glue]
      simp [glue]
    · intro row inside
      cases List.mem_append.1 inside with
      | inl earlier => exact shows'.filled row earlier
      | inr new => exact all row new
    · exact ended
  constructor
  · exact after
  · constructor
    · exact ⟨_, _, after⟩
    · have before : (EventLog.filled rows last).filterMap Json.parse =
          (rows ++ [last]).filterMap Json.parse := filterMap_filled Json.parse rfl
      rw [after.readJsonlFile, shows'.readJsonlFile, List.append_assoc, List.filterMap_append, before]

theorem Filed.of_grown {after : Utf16} {events : List Json} {more : List Int}
    (filed : Filed text numbers) (grown : Grown text after events)
    (numbered : events.map seqOf = more.map some) (higher : ∀ number ∈ numbers, ∀ other ∈ more,
      number < other) (up : more.Pairwise (· < ·)) : Filed after (numbers ++ more) where
  shows' := grown.shows'
  numbered := by rw [grown.read, List.map_append, filed.numbered, numbered, List.map_append]
  up := List.pairwise_append.2 ⟨filed.up, up, higher⟩

theorem Filed.unique {others : List Int} (filed : Filed text numbers) (filed' : Filed text others) :
    numbers = others := by
  have same := filed.numbered.symm.trans filed'.numbered
  exact List.map_injective_iff.2 (Option.some_injective _) same

theorem Shows.unique {rows' : List Utf16} {last' : Utf16} (shows' : Shows text rows last)
    (shows'' : Shows text rows' last') : last = last' := by
  have same := shows'.split.symm.trans shows''.split
  exact List.singleton_inj.1 (List.append_inj' same rfl).2

end File

/-! ## Runs -/

/-- What holds in every state of a run that recovers. -/
structure Kept (world : World) : Prop where
  filed : ∀ file, ∃ numbers, Filed (world.disk file) numbers
  /-- The file that a process has open ends with a newline, and its numbers are counted. -/
  current : ∀ log file, world.log = some log → log.currentFile = some file →
    log.needsNewline = false ∧ (∃ rows, Shows (world.disk file) rows []) ∧
      ∀ numbers, Filed (world.disk file) numbers → ∀ number ∈ numbers, number ≤ log.seq

section Step

variable {world after : World} {log : Log} {entry : Entry} {rows : List Utf16} {last : Utf16}
  {numbers : List Int}

theorem currentFile_counted : (log.counted world.disk entry).currentFile = some (fileFor entry) := by
  simp only [Log.counted, Log.ensureSeq]
  split
  next same => exact same
  next => rfl

/-- A newline is written first where a line is torn. -/
theorem Kept.needsNewline (kept : Kept world) (running : world.log = some log)
    (shows' : Shows (world.disk (fileFor entry)) rows last) :
    (log.counted world.disk entry).needsNewline = !last.isEmpty := by
  simp only [Log.counted, Log.ensureSeq]
  split
  next same =>
    have ⟨ended, ⟨rows', shows''⟩, _⟩ := kept.current log _ running same
    rw [shows'.unique shows'']
    exact ended
  next => exact shows'.needsNewline

theorem Kept.lineOf (kept : Kept world) (running : world.log = some log)
    (shows' : Shows (world.disk (fileFor entry)) rows last) :
    lineOf (log.counted world.disk entry) entry = (if last.isEmpty then [] else [0x0A]) ++
      (Json.stringify (eventOf (log.counted world.disk entry) entry) ++ [0x0A]) := by
  rw [EventLog.lineOf, kept.needsNewline running shows']
  cases last.isEmpty with
  | true => rfl
  | false => rfl

/-- The next number is above those of the file. -/
theorem Kept.less (kept : Kept world) (running : world.log = some log) (follows : Follows world entry)
    (filed : Filed (world.disk (fileFor entry)) numbers) :
    ∀ number ∈ numbers, number < ((log.counted world.disk entry).seq : Int) := by
  intro number inside
  simp only [Log.counted, Log.ensureSeq]
  split
  next same =>
    have ⟨_, _, below⟩ := kept.current log _ running same
    have least := below numbers filed number inside
    omega
  next other =>
    have ⟨_, recovers'⟩ := follows
    rw [running, Option.all_some, Bool.or_eq_true, beq_iff_eq] at recovers'
    have least := filed.le_ensureSeq (recovers'.resolve_left other) number inside
    simp only
    omega

/-- A whole line is written. -/
theorem Kept.appended (kept : Kept world) (running : world.log = some log) (entry : Entry) :
    (∃ rows, Shows (world.disk (fileFor entry) ++ EventLog.lineOf (log.counted world.disk entry) entry)
        rows []) ∧
      Grown (world.disk (fileFor entry))
        (world.disk (fileFor entry) ++ EventLog.lineOf (log.counted world.disk entry) entry)
        [eventOf (log.counted world.disk entry) entry] := by
  have ⟨numbers, filed⟩ := kept.filed (fileFor entry)
  have ⟨rows, last, shows'⟩ := filed.shows'
  rw [kept.lineOf running shows']
  generalize log.counted world.disk entry = log'
  have whole : Whole (Json.stringify (eventOf log' entry)) (eventOf log' entry) := whole_eventOf
  have same : Json.stringify (eventOf log' entry) ++ [0x0A] =
      glue [Json.stringify (eventOf log' entry)] [] := by
    rw [glue_cons]
    rfl
  have ⟨after, grown⟩ := shows'.grown (List.forall_mem_singleton.2 (.inl ⟨_, whole⟩)) (.inl rfl) same
  constructor
  · exact ⟨_, after⟩
  · rw [List.singleton_append, List.filterMap_cons, whole.parse] at grown
    exact grown

/-- A part of a line is written: nothing that is read, or the event short of its newline. -/
theorem Kept.torn (kept : Kept world) (running : world.log = some log) {count : Nat} {garbled : Bool}
    (short : count < (EventLog.lineOf (log.counted world.disk entry) entry).length)
    (cut : garbled = true → (((EventLog.lineOf (log.counted world.disk entry) entry).drop
      count).head?.any fun unit => decide (0x80 ≤ unit)) = true) :
    ∃ events, (events = [] ∨ events = [eventOf (log.counted world.disk entry) entry]) ∧
      Grown (world.disk (fileFor entry)) (world.disk (fileFor entry) ++
        EventLog.torn (EventLog.lineOf (log.counted world.disk entry) entry) count garbled)
        events := by
  have ⟨numbers, filed⟩ := kept.filed (fileFor entry)
  have ⟨rows, last, shows'⟩ := filed.shows'
  rw [kept.lineOf running shows'] at short cut ⊢
  generalize log.counted world.disk entry = log' at short cut ⊢
  have whole : Whole (Json.stringify (eventOf log' entry)) (eventOf log' entry) := whole_eventOf
  have ⟨middle, shape⟩ := whole.shape
  generalize Json.stringify (eventOf log' entry) = line at whole shape short cut ⊢
  generalize newline' : (if last.isEmpty then [] else [0x0A] : Utf16) = newline at short cut ⊢
  have uncut : ∀ unit : UInt16, decide (0x80 ≤ unit) = false →
      ((newline ++ (line ++ [0x0A])).drop count).head? = some unit → garbled = false := by
    intro unit ascii first
    cases garbled with
    | false => rfl
    | true =>
        have wide := cut rfl
        rw [first, Option.any_some, ascii] at wide
        contradiction
  cases Nat.lt_or_ge count newline.length with
  | inl before =>
      -- Not even the newline is written.
      have single : newline = [0x0A] ∧ count = 0 := by
        rw [← newline'] at before ⊢
        split at before
        next => contradiction
        next some' => exact ⟨if_neg some', Nat.lt_one_iff.1 before⟩
      have plain := uncut 0x0A rfl (by rw [single.1, single.2]; rfl)
      exists []
      constructor
      · exact .inl rfl
      · rw [EventLog.torn, plain, single.2, List.take_zero, if_neg Bool.false_ne_true,
          List.append_nil, List.append_nil]
        exact ⟨⟨rows, last, shows'⟩, (List.append_nil _).symm⟩
  | inr behind =>
      have ⟨more, counted⟩ := Nat.exists_eq_add_of_le behind
      have written : EventLog.torn (newline ++ (line ++ [0x0A])) count garbled =
          newline ++ ((line ++ [0x0A]).take more ++ if garbled then [0xFFFD] else []) := by
        rw [EventLog.torn, counted, List.take_length_add_append, List.append_assoc]
      rw [counted, List.drop_length_add_append] at uncut
      rw [counted, List.length_append, List.length_append, List.length_singleton] at short
      rw [written, ← newline']
      cases Nat.lt_trichotomy more line.length with
      | inl within =>
          have partly : (line ++ [0x0A]).take more = line.take more :=
            List.take_append_of_le_length (Nat.le_of_lt within)
          exists []
          constructor
          · exact .inl rfl
          cases more with
          | zero =>
              -- The newline alone is written.
              have plain := uncut OutputParser.openBrace rfl (by rw [shape]; rfl)
              have ⟨_, grown⟩ := shows'.grown (List.forall_mem_nil _) (.inl rfl)
                (rfl : [] = glue [] [])
              rw [plain]
              exact grown
          | succ more =>
              have row : Torn (line.take (more + 1) ++ if garbled then [0xFFFD] else []) := by
                constructor
                exists eventOf log' entry, line, line.take (more + 1), line.drop (more + 1),
                  if garbled then [0xFFFD] else []
                constructor
                · exact whole
                constructor
                · exact (List.take_append_drop _ _).symm
                constructor
                · rw [shape]
                  exact List.cons_ne_nil _ _
                constructor
                · rw [ne_eq, List.drop_eq_nil_iff]
                  omega
                constructor
                · rfl
                · cases garbled with
                  | true => exact List.forall_mem_singleton.2 rfl
                  | false => exact List.forall_mem_nil _
              have ⟨_, grown⟩ := shows'.grown (List.forall_mem_nil _) (.inr (.inr row))
                (rfl : _ = glue [] (line.take (more + 1) ++ if garbled then [0xFFFD] else []))
              rw [List.nil_append, List.filterMap_cons, row.parse, List.filterMap_nil] at grown
              rw [partly]
              exact grown
      | inr reaches =>
          have all : more = line.length := by omega
          subst all
          have plain := uncut 0x0A rfl (by rw [List.drop_left]; rfl)
          have ⟨_, grown⟩ := shows'.grown (List.forall_mem_nil _) (.inr (.inl ⟨_, whole⟩))
            (rfl : line = glue [] line)
          rw [List.nil_append, List.filterMap_cons, whole.parse] at grown
          exists [eventOf log' entry]
          constructor
          · exact .inr rfl
          · rw [plain, List.take_left, if_neg Bool.false_ne_true, List.append_nil]
            exact grown

theorem write_same (world : World) (file text : Utf16) :
    world.write file text file = world.disk file ++ text := if_pos rfl

theorem write_other (world : World) {file other : Utf16} (text : Utf16) (apart : other ≠ file) :
    world.write file text other = world.disk other := if_neg apart

/-- The numbers of a file that grew by an event of the next number. -/
theorem Kept.filed_append (kept : Kept world) (running : world.log = some log)
    (follows : Follows world entry) (filed : Filed (world.disk (fileFor entry)) numbers)
    {text : Utf16} (grown : Grown (world.disk (fileFor entry)) text
      [eventOf (log.counted world.disk entry) entry]) :
    Filed text (numbers ++ [((log.counted world.disk entry).seq : Int)]) := by
  apply filed.of_grown grown
  · rw [List.map_singleton, List.map_singleton, seqOf_eventOf follows.1]
  · intro number inside other here
    rw [List.mem_singleton.1 here]
    exact kept.less running follows filed number inside
  · exact List.pairwise_singleton _ _

theorem next_append (stepped : world.next (.append entry) = some after) :
    ∃ log, world.log = some log ∧
      after.disk = world.write (fileFor entry)
        (EventLog.lineOf (log.counted world.disk entry) entry) ∧
      after.log = some { log.counted world.disk entry with needsNewline := false } := by
  have ⟨log, running, same⟩ := Option.map_eq_some_iff.1 stepped
  cases same
  exact ⟨log, running, rfl, rfl⟩

theorem next_tear {count : Nat} {garbled : Bool}
    (stepped : world.next (.tear entry count garbled) = some after) :
    ∃ log, world.log = some log ∧
      count < (EventLog.lineOf (log.counted world.disk entry) entry).length ∧
      (garbled = true → (((EventLog.lineOf (log.counted world.disk entry) entry).drop
        count).head?.any fun unit => decide (0x80 ≤ unit)) = true) ∧
      after.disk = world.write (fileFor entry)
        (EventLog.torn (EventLog.lineOf (log.counted world.disk entry) entry) count garbled) ∧
      after.log = none := by
  have ⟨log, running, same⟩ := Option.bind_eq_some_iff.1 stepped
  dsimp only at same
  split at same
  next possible =>
    cases same
    exact ⟨log, running, possible.1, possible.2, rfl, rfl⟩
  next => contradiction

theorem Kept.next {label : Label} (kept : Kept world) (recovers' : Recovers world label)
    (stepped : world.next label = some after) : Kept after := by
  cases label with
  | start pulseId =>
      cases stepped
      constructor
      · exact kept.filed
      · intro log file running open'
        cases running
        contradiction
  | append entry =>
      have ⟨log, running, disk, log'⟩ := next_append stepped
      have ⟨numbers, filed⟩ := kept.filed (fileFor entry)
      have ⟨ended, grown⟩ := kept.appended running entry
      have filed' := kept.filed_append running recovers' filed grown
      constructor
      · intro file
        rw [disk]
        cases decEq file (fileFor entry) with
        | isTrue same =>
            rw [same, write_same]
            exact ⟨_, filed'⟩
        | isFalse apart =>
            rw [write_other world _ apart]
            exact kept.filed file
      · intro log'' file running' open'
        rw [log'] at running'
        cases running'
        cases (currentFile_counted.symm.trans open' : some (fileFor entry) = some file)
        rw [disk, write_same]
        constructor
        · rfl
        constructor
        · exact ended
        · intro others filed'' number inside
          rw [← filed'.unique filed''] at inside
          cases List.mem_append.1 inside with
          | inl earlier => exact Int.le_of_lt (kept.less running recovers' filed number earlier)
          | inr here => exact Int.le_of_eq (List.mem_singleton.1 here)
  | tear entry count garbled =>
      have ⟨log, running, short, cut, disk, log'⟩ := next_tear stepped
      have ⟨numbers, filed⟩ := kept.filed (fileFor entry)
      have ⟨events, either, grown⟩ := kept.torn running short cut
      constructor
      · intro file
        rw [disk]
        cases decEq file (fileFor entry) with
        | isTrue same =>
            rw [same, write_same]
            cases either with
            | inl none' =>
                rw [none'] at grown
                exact ⟨numbers ++ [], filed.of_grown grown rfl (fun _ _ _ => nofun) .nil⟩
            | inr written =>
                rw [written] at grown
                exact ⟨_, kept.filed_append running recovers' filed grown⟩
        | isFalse apart =>
            rw [write_other world _ apart]
            exact kept.filed file
      · intro log'' file running'
        rw [log'] at running'
        contradiction

end Step

theorem kept_of_reachable {world : World} (reachable : Reachable system Recovers world) :
    Kept world := by
  apply reachable.invariant Kept
  · intro world started
    cases started
    constructor
    · intro file
      exact ⟨[], filed_nil⟩
    · intro log file running
      contradiction
  · intro world label after _ kept recovers' stepped
    exact kept.next recovers' stepped

/-- In a run whose processes recover, the events of each file count up, and an event that is
appended is read behind those before it. -/
theorem countsUp_of_recovers {world : World} (reachable : Reachable system Recovers world) :
    (∀ file, CountsUp (world.disk file)) ∧
      ∀ entry after, world.next (.append entry) = some after → ∃ log, world.log = some log ∧
        readJsonlFile (after.disk (fileFor entry)) =
          readJsonlFile (world.disk (fileFor entry)) ++
            [eventOf (log.counted world.disk entry) entry] := by
  have kept := kept_of_reachable reachable
  constructor
  · intro file
    have ⟨numbers, filed⟩ := kept.filed file
    exact ⟨numbers, filed.numbered, filed.up⟩
  · intro entry after stepped
    have ⟨log, running, disk, _⟩ := next_append stepped
    have ⟨_, grown⟩ := kept.appended running entry
    exists log
    constructor
    · exact running
    · rw [disk, write_same]
      exact grown.read

/-! ## Five torn lines -/

/-- An entry without fields. -/
def plainEntry : Entry where
  ts := ofString "2026-01-01T00:00:00.000Z"
  type := ofString "pulse.started"
  fields := []
  proper := rfl

/-- A process appends, some that follow die while they write, and one appends again. -/
def tornRun (count : Nat) : List Label :=
  [.start [], .append plainEntry] ++
    (List.replicate count [.start [], .tear plainEntry 3 false]).flatten ++
      [.start [], .append plainEntry]

/-- The numbers in the file. -/
def World.numbers (world : World) : List (Option Int) :=
  (readJsonlFile (world.disk (fileFor plainEntry))).map seqOf

theorem tornRun_runs :
    (system.exec Recovers {} (tornRun 4)).isSome = true ∧
      (system.exec always {} (tornRun 5)).any
        (fun world => decide (world.numbers = [some 1, some 1])) = true := by
  decide +kernel

theorem countsUp_of_fourTorn :
    ∃ world, system.exec Recovers {} (tornRun 4) = some world ∧
      ∀ file, CountsUp (world.disk file) := by
  have ⟨world, reached⟩ := Option.isSome_iff_exists.1 tornRun_runs.1
  exact ⟨world, reached, (countsUp_of_recovers (.of_exec (.start rfl) reached)).1⟩

/-- Behind five torn lines the count begins again. -/
theorem not_countsUp_of_fiveTorn :
    ¬ ∀ world, Reachable system always world → ∀ file, CountsUp (world.disk file) := by
  intro all
  have ⟨world, reached, ran⟩ := Reachable.exists_of_exec (.start rfl) tornRun_runs.2
  have numbers : world.numbers = [some 1, some 1] := of_decide_eq_true ran
  have ⟨counted, same, up⟩ := all world reached (fileFor plainEntry)
  have listed : counted.map some = [some 1, some 1] := same.symm.trans numbers
  have ⟨first, rest, parts, one, later⟩ := List.map_eq_cons_iff.1 listed
  have ⟨second, rest', parts', one', _⟩ := List.map_eq_cons_iff.1 later
  cases one
  cases one'
  rw [parts, parts'] at up
  exact absurd ((List.pairwise_cons.1 up).1 1 List.mem_cons_self) (Int.lt_irrefl 1)

end EventLog

end TitanRunner
