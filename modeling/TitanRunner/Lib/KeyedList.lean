import Mathlib.Data.List.Find
import Mathlib.Data.List.Forall2
import Mathlib.Data.List.Nodup

/-!
# Lists of records that carry their key

A queue of records is looked up the way a map built from it is: an entry that
stands later replaces an earlier one of the same key.  Lookup is computed through
`map`, `filter` and append, so that a statement about an operation on the list is a
statement about what each key finds.
-/

namespace KeyedList

universe u v w

variable {Record : Type u} {Other : Type v} {Key : Type w} [DecidableEq Key]

/-- The record a map built from the list holds for a key. -/
def get (key : Record → Key) (records : List Record) (wanted : Key) : Option Record :=
  records.reverse.find? fun record => key record = wanted

variable {key : Record → Key} {records : List Record} {wanted : Key}

@[simp] theorem get_nil : get key [] wanted = none := rfl

theorem get_append (left right : List Record) :
    get key (left ++ right) wanted = (get key right wanted).or (get key left wanted) := by
  simp [get, List.find?_append]

theorem get_cons (record : Record) :
    get key (record :: records) wanted =
      (get key records wanted).or (if key record = wanted then some record else none) := by
  rw [← List.singleton_append, get_append]
  congr 1
  simp only [get, List.reverse_singleton, List.find?_singleton, decide_eq_true_eq]

theorem mem_of_get {record : Record} (found : get key records wanted = some record) :
    record ∈ records :=
  List.mem_reverse.mp (List.mem_of_find?_eq_some found)

theorem key_of_get {record : Record} (found : get key records wanted = some record) :
    key record = wanted := by
  simpa using List.find?_some found

theorem get_eq_none_iff : get key records wanted = none ↔ wanted ∉ records.map key := by
  simp only [get, List.find?_eq_none, List.mem_reverse, decide_eq_true_eq, List.mem_map,
    not_exists, not_and]

theorem mem_keys_of_get {record : Record} (found : get key records wanted = some record) :
    wanted ∈ records.map key :=
  key_of_get found ▸ List.mem_map_of_mem (mem_of_get found)

theorem exists_get_iff : (∃ record, get key records wanted = some record) ↔
    wanted ∈ records.map key := by
  rw [← Option.isSome_iff_exists, Option.isSome_iff_ne_none, ne_eq, get_eq_none_iff, not_not]

/-- Among records of distinct keys lookup is membership. -/
theorem get_eq_some_iff (distinct : (records.map key).Nodup) {record : Record} :
    get key records wanted = some record ↔ record ∈ records ∧ key record = wanted := by
  constructor
  · exact fun found => ⟨mem_of_get found, key_of_get found⟩
  · rintro ⟨member, rfl⟩
    obtain ⟨other, found⟩ := exists_get_iff.mpr (List.mem_map_of_mem (f := key) member)
    rw [found, List.inj_on_of_nodup_map distinct (mem_of_get found) member (key_of_get found)]

/-- A map of the records that keeps the keys. -/
theorem get_map (otherKey : Other → Key) (change : Record → Other)
    (keeps : ∀ record, otherKey (change record) = key record) :
    get otherKey (records.map change) wanted = (get key records wanted).map change := by
  simp only [get, ← List.map_reverse, List.find?_map]
  congr 2
  funext record
  simp [keeps]

omit [DecidableEq Key] in
theorem keys_eq_of_forall₂ {related : Record → Record → Prop}
    (keeps : ∀ before after, related before after → key after = key before)
    {after : List Record} (all : List.Forall₂ related records after) :
    after.map key = records.map key := by
  induction all with
  | nil => rfl
  | cons first _ ih => rw [List.map_cons, List.map_cons, keeps _ _ first, ih]

omit [DecidableEq Key] in
theorem exists_of_forall₂ {related : Record → Record → Prop} {after : List Record}
    (all : List.Forall₂ related records after) {found : Record} (inside : found ∈ after) :
    ∃ before ∈ records, related before found := by
  induction all with
  | nil => contradiction
  | cons here _ ih =>
      cases List.mem_cons.1 inside with
      | inl first => exact ⟨_, List.mem_cons_self, first ▸ here⟩
      | inr later =>
          have ⟨before, among, same⟩ := ih later
          exact ⟨before, List.mem_cons_of_mem _ among, same⟩

omit [DecidableEq Key] in
/-- One place is changed, the others stay. -/
theorem forall₂_set {related : Record → Record → Prop} (refl : ∀ record, related record record)
    {index : Nat} {record after : Record} (found : records[index]? = some record)
    (changed : related record after) :
    List.Forall₂ related records (records.set index after) := by
  induction records generalizing index with
  | nil => contradiction
  | cons first rest ih =>
      cases index with
      | zero =>
          cases found
          exact .cons changed (List.forall₂_same.2 fun other _ => refl other)
      | succ index => exact .cons (refl first) (ih found)

/-- Records that are related place by place. -/
theorem get_of_forall₂ {related : Record → Record → Prop}
    (keeps : ∀ before after, related before after → key after = key before)
    {after : List Record} (all : List.Forall₂ related records after) {found : Record}
    (there : get key after wanted = some found) :
    ∃ before, get key records wanted = some before ∧ related before found := by
  induction all with
  | nil => contradiction
  | @cons first first' rest rest' here others ih =>
      rw [get_cons] at there ⊢
      cases later : get key rest' wanted with
      | some other =>
          rw [later, Option.some_or] at there
          have ⟨before, held, same⟩ := ih (later.trans there)
          exact ⟨before, by rw [held, Option.some_or], same⟩
      | none =>
          rw [later, Option.none_or] at there
          split at there
          next same =>
            cases there
            have none' : get key rest wanted = none := by
              rw [get_eq_none_iff, ← keys_eq_of_forall₂ keeps others, ← get_eq_none_iff]
              exact later
            refine ⟨first, ?_, here⟩
            rw [none', Option.none_or, if_pos ((keeps _ _ here).symm.trans same)]
          next => contradiction

/-- Keys that are renamed and still told apart. -/
theorem get_rename (rename : Key → Key) (apart : ∀ record ∈ records, rename (key record) =
      rename wanted → key record = wanted) :
    get (fun record => rename (key record)) records (rename wanted) = get key records wanted := by
  unfold get
  apply List.find?_congr
  intro record inside
  rw [decide_eq_decide]
  constructor
  · exact apart record (List.mem_reverse.1 inside)
  · exact fun same => congrArg rename same

theorem get_filter_key (keep : Key → Bool) :
    get key (records.filter fun record => keep (key record)) wanted =
      if keep wanted then get key records wanted else none := by
  induction records with
  | nil => simp
  | cons record rest ih =>
      by_cases same : key record = wanted
      · subst same
        cases kept : keep (key record) <;>
          simp [get_cons, kept, ih]
      · rw [get_cons, if_neg same, Option.or_none, ← ih, List.filter_cons]
        split
        · rw [get_cons, if_neg same, Option.or_none]
        · rfl

/-- Replace the record of a key. -/
def set (key : Record → Key) (records : List Record) (record : Record) : List Record :=
  records.map fun other => if key other = key record then record else other

theorem keys_set (record : Record) : (set key records record).map key = records.map key := by
  simp only [set, List.map_map]
  refine List.map_congr_left fun other _ => ?_
  simp only [Function.comp_apply]
  split
  next same => exact same.symm
  next => rfl

theorem get_set (record : Record) :
    get key (set key records record) wanted =
      (get key records wanted).map fun other =>
        if wanted = key record then record else other := by
  have keeps : ∀ other, key (if key other = key record then record else other) = key other := by
    intro other
    split
    next same => exact same.symm
    next => rfl
  rw [set, get_map key _ keeps]
  cases found : get key records wanted with
  | none => rfl
  | some other => simp [key_of_get found]

theorem mem_of_mem_set {record other : Record} (inside : other ∈ set key records record) :
    other = record ∨ other ∈ records := by
  obtain ⟨before, member, rfl⟩ := List.mem_map.mp inside
  split
  next => exact .inl rfl
  next => exact .inr member

theorem set_of_absent {record : Record} (absent : key record ∉ records.map key) :
    set key records record = records := by
  rw [set]
  conv_rhs => rw [← List.map_id records]
  apply List.map_congr_left
  intro other inside
  rw [if_neg]
  · rfl
  · intro same
    exact absent (same ▸ List.mem_map_of_mem inside)

/-- Replacing the record of a key changes a count by the two records. -/
theorem countP_set (test : Record → Bool) (distinct : (records.map key).Nodup)
    {old record : Record} (inside : old ∈ records) (same : key old = key record) :
    (set key records record).countP test + (if test old then 1 else 0) =
      records.countP test + (if test record then 1 else 0) := by
  induction records with
  | nil => contradiction
  | cons first rest ih =>
      have ⟨apart, distinct'⟩ := List.nodup_cons.1 distinct
      have unfolded : set key (first :: rest) record =
          (if key first = key record then record else first) :: set key rest record := rfl
      rw [unfolded, List.countP_cons, List.countP_cons]
      by_cases here : key first = key record
      · have old' : old = first := by
          cases List.mem_cons.1 inside with
          | inl first' => exact first'
          | inr later =>
              have again : key old ∈ rest.map key := List.mem_map_of_mem later
              rw [same, ← here] at again
              contradiction
        rw [if_pos here, set_of_absent (here ▸ apart), old']
        omega
      · have later : old ∈ rest := by
          cases List.mem_cons.1 inside with
          | inl first' => exact absurd (first' ▸ same) here
          | inr later => exact later
        have counted := ih distinct' later
        rw [if_neg here]
        omega

/-- Insert into a map: the record of a key that is there is replaced in its place, a new
key goes to the end. -/
def insert (key : Record → Key) (records : List Record) (record : Record) : List Record :=
  if key record ∈ records.map key then set key records record else records ++ [record]

theorem mem_of_mem_insert {record other : Record} (inside : other ∈ insert key records record) :
    other = record ∨ other ∈ records := by
  simp only [insert] at inside
  split at inside
  next => exact mem_of_mem_set inside
  next =>
    cases List.mem_append.mp inside with
    | inl before => exact .inr before
    | inr here => exact .inl (List.mem_singleton.mp here)

theorem get_insert (record : Record) :
    get key (insert key records record) wanted =
      if wanted = key record then some record else get key records wanted := by
  simp only [insert]
  split
  next present =>
    rw [get_set]
    split
    next same =>
      obtain ⟨other, found⟩ := exists_get_iff.mpr present
      rw [same, found]
      rfl
    next => simp
  next =>
    rw [get_append, get_cons, get_nil, Option.none_or]
    split
    next same => rw [if_pos same.symm, Option.some_or]
    next other => rw [if_neg (Ne.symm other), Option.none_or]

theorem nodup_keys_insert (distinct : (records.map key).Nodup) (record : Record) :
    ((insert key records record).map key).Nodup := by
  simp only [insert]
  split
  next => rwa [keys_set]
  next absent =>
    rw [List.map_append, List.map_singleton]
    apply distinct.append (List.nodup_singleton _)
    simpa using absent

/-- Removing the record of a key makes the list one shorter. -/
theorem length_filter_ne (distinct : (records.map key).Nodup) (inside : wanted ∈ records.map key) :
    (records.filter fun record => key record ≠ wanted).length + 1 = records.length := by
  induction records with
  | nil => contradiction
  | cons first rest ih =>
      have ⟨apart, distinct'⟩ := List.nodup_cons.1 distinct
      by_cases here : key first = wanted
      · have untouched : (rest.filter fun record => key record ≠ wanted) = rest := by
          apply List.filter_eq_self.2
          intro other later
          simp only [ne_eq, decide_not, Bool.not_eq_true', decide_eq_false_iff_not]
          intro same
          exact apart (here ▸ same ▸ List.mem_map_of_mem later)
        rw [List.filter_cons_of_neg (by simp [here]), untouched, List.length_cons]
      · have later : wanted ∈ rest.map key := by
          cases List.mem_cons.1 inside with
          | inl same => exact absurd same.symm here
          | inr later => exact later
        rw [List.filter_cons_of_pos (by simp [here]), List.length_cons, List.length_cons,
          ih distinct' later]

omit [DecidableEq Key] in
/-- A fold over records of distinct keys: a step may rely on what holds of its record if
the steps for other records do not spoil it. -/
theorem foldl_each {State : Type*} {step : State → Record → State} (key : Record → Key)
    (inv : State → Prop) (good : State → Record → Prop)
    (kept : ∀ state record, inv state → good state record → inv (step state record))
    (persists : ∀ state record other, inv state → good state record → good state other →
      key other ≠ key record → good (step state record) other)
    (distinct : (records.map key).Nodup) {state : State} (holds : inv state)
    (all : ∀ record ∈ records, good state record) : inv (records.foldl step state) := by
  induction records generalizing state with
  | nil => exact holds
  | cons first rest ih =>
      have ⟨apart, distinct'⟩ := List.nodup_cons.1 distinct
      have here := all first List.mem_cons_self
      apply ih distinct' (kept state first holds here)
      intro other inside
      apply persists state first other holds here (all other (.tail first inside))
      intro same
      exact apart (same ▸ List.mem_map_of_mem inside)

omit [DecidableEq Key] in
/-- What such a fold makes of each record, if later steps keep it. -/
theorem foldl_makes {State : Type*} {step : State → Record → State} (key : Record → Key)
    (inv : State → Prop) (good made : State → Record → Prop)
    (kept : ∀ state record, inv state → good state record → inv (step state record))
    (persists : ∀ state record other, inv state → good state record → good state other →
      key other ≠ key record → good (step state record) other)
    (makes : ∀ state record, inv state → good state record → made (step state record) record)
    (lasts : ∀ state record other, inv state → good state record → made state other →
      made (step state record) other)
    (distinct : (records.map key).Nodup) {state : State} (holds : inv state)
    (all : ∀ record ∈ records, good state record) :
    ∀ record ∈ records, made (records.foldl step state) record := by
  induction records generalizing state with
  | nil =>
      intro record inside
      contradiction
  | cons first rest ih =>
      have ⟨apart, distinct'⟩ := List.nodup_cons.1 distinct
      have here := all first List.mem_cons_self
      have holds' := kept state first holds here
      have all' : ∀ other ∈ rest, good (step state first) other := by
        intro other inside
        apply persists state first other holds here (all other (.tail first inside))
        intro same
        exact apart (same ▸ List.mem_map_of_mem inside)
      intro record inside
      cases List.mem_cons.1 inside with
      | inr later => exact ih distinct' holds' all' record later
      | inl same =>
          have both := foldl_each key (fun state => inv state ∧ made state record) good
            (fun state other before here =>
              ⟨kept state other before.1 here, lasts state other record before.1 here before.2⟩)
            (fun state other another before => persists state other another before.1)
            distinct' ⟨holds', same ▸ makes state first holds here⟩ all'
          exact both.2

end KeyedList
