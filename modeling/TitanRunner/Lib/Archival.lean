import Mathlib.Data.List.Induction
import Mathlib.Data.List.Sort
import Mathlib.Logic.Function.Basic
import TitanRunner.Lib.KeyedList

/-!
# Moving records from live items into archives

Records stand in live items and are moved to archives: each is merged by its id into the
archive of its label, and the item goes afterwards.  What a move does is a list of effects,
each of them done at once; a crash leaves the rest undone.  The point is the union of both
places.  It stays as it was through every effect as long as an item goes only when its
records are filed, and records that meet in one archive have one id only if they are the same.
-/

namespace Archival

universe u v w x

variable {Item : Type u} {Label : Type v} {Record : Type w} {Id : Type x}

/-- What a map holds after the records are put in by their ids, one after the other. -/
def collect [DecidableEq Id] (idOf : Record → Id) (records : List Record) : List Record :=
  records.foldl (KeyedList.insert idOf) []

section Collect

variable [DecidableEq Id] {idOf : Record → Id} {records : List Record}

theorem collect_append (record : Record) :
    collect idOf (records ++ [record]) = KeyedList.insert idOf (collect idOf records) record := by
  rw [collect, List.foldl_append]
  rfl

theorem get_collect (wanted : Id) :
    KeyedList.get idOf (collect idOf records) wanted = KeyedList.get idOf records wanted := by
  induction records using List.reverseRecOn with
  | nil => rfl
  | append_singleton records record ih =>
      rw [collect_append, KeyedList.get_insert, KeyedList.get_append, KeyedList.get_cons,
        KeyedList.get_nil, Option.none_or, ih]
      split
      next same => rw [if_pos same.symm, Option.some_or]
      next apart => rw [if_neg (Ne.symm apart), Option.none_or]

theorem nodup_collect : ((collect idOf records).map idOf).Nodup := by
  induction records using List.reverseRecOn with
  | nil => exact List.nodup_nil
  | append_singleton records record ih =>
      rw [collect_append]
      exact KeyedList.nodup_keys_insert ih record

theorem mem_of_mem_collect {record : Record} (inside : record ∈ collect idOf records) :
    record ∈ records := by
  have found : KeyedList.get idOf (collect idOf records) (idOf record) = some record :=
    (KeyedList.get_eq_some_iff nodup_collect).2 ⟨inside, rfl⟩
  rw [get_collect] at found
  exact KeyedList.mem_of_get found

end Collect

/-- One id, one record. -/
def Told (idOf : Record → Id) (records : List Record) : Prop :=
  ∀ record ∈ records, ∀ other ∈ records, idOf record = idOf other → record = other

theorem Told.mono {idOf : Record → Id} {records fewer : List Record} (told : Told idOf records)
    (within : fewer ⊆ records) : Told idOf fewer :=
  fun record inside other inside' => told record (within inside) other (within inside')

theorem Told.of_nodup {idOf : Record → Id} {records : List Record}
    (distinct : (records.map idOf).Nodup) : Told idOf records :=
  fun _ inside _ inside' same => List.inj_on_of_nodup_map distinct inside inside' same

theorem Told.mem_collect [DecidableEq Id] {idOf : Record → Id} {records : List Record}
    (told : Told idOf records) {record : Record} (inside : record ∈ records) :
    record ∈ collect idOf records := by
  have ⟨other, found⟩ := KeyedList.exists_get_iff.2 (List.mem_map_of_mem (f := idOf) inside)
  have same := told _ (KeyedList.mem_of_get found) _ inside (KeyedList.key_of_get found)
  rw [← get_collect, same] at found
  exact KeyedList.mem_of_get found

/-- How records are read off an item, each with the archive it is for; how they are told
apart; and in which order an archive lists them. -/
structure Scheme (Item : Type u) (Label : Type v) (Record : Type w) (Id : Type x) where
  entries : Item → List (Option Label × Record)
  idOf : Record → Id
  before : Record → Record → Bool

/-- What is live, and what is archived. -/
structure Shelf (Item : Type u) (Label : Type v) (Record : Type w) where
  live : List Item
  archived : Label → List Record

inductive Effect (Item : Type u) (Label : Type v) (Record : Type w) where
  /-- The records are merged into the archive. -/
  | write (label : Label) (records : List Record)
  /-- The items are gone. -/
  | remove (gone : Item → Bool)

/-- The records by id, a later one in the place of an earlier one, in order. -/
def Scheme.merge [DecidableEq Id] (scheme : Scheme Item Label Record Id)
    (existing records : List Record) : List Record :=
  (collect scheme.idOf (existing ++ records)).insertionSort fun left right =>
    scheme.before left right = true

/-- The shelf after an effect. -/
def Scheme.apply [DecidableEq Label] [DecidableEq Id] (scheme : Scheme Item Label Record Id)
    (shelf : Shelf Item Label Record) : Effect Item Label Record → Shelf Item Label Record
  | .write label records =>
      { shelf with
        archived := Function.update shelf.archived label
          (scheme.merge (shelf.archived label) records) }
  | .remove gone => { shelf with live := shelf.live.filter fun item => !gone item }

/-- The union: the record stands in the archive, or in a live item and is for it. -/
def Scheme.Holds (scheme : Scheme Item Label Record Id) (shelf : Shelf Item Label Record)
    (label : Option Label) (record : Record) : Prop :=
  (∃ item ∈ shelf.live, (label, record) ∈ scheme.entries item) ∨
    ∃ name, label = some name ∧ record ∈ shelf.archived name

/-- No archive has two records of one id. -/
def Scheme.Distinct (scheme : Scheme Item Label Record Id) (shelf : Shelf Item Label Record) : Prop :=
  ∀ label, ((shelf.archived label).map scheme.idOf).Nodup

/-- What the effects write to an archive. -/
def written [DecidableEq Label] (label : Label) : List (Effect Item Label Record) → List Record
  | [] => []
  | .write label' records :: rest =>
      (if label' = label then records else []) ++ written label rest
  | .remove _ :: rest => written label rest

/-- The records of items that are for an archive. -/
def Scheme.filing [DecidableEq Label] (scheme : Scheme Item Label Record Id) (label : Label)
    (items : List Item) : List Record :=
  (items.flatMap scheme.entries).filterMap fun entry =>
    if entry.1 = some label then some entry.2 else none

/-- Every item that goes has all its records filed before. -/
def Scheme.Covered (scheme : Scheme Item Label Record Id) (live : List Item) :
    (Option Label → Record → Prop) → List (Effect Item Label Record) → Prop
  | _, [] => True
  | filed, .write label records :: rest =>
      scheme.Covered live (fun name record =>
        filed name record ∨ name = some label ∧ record ∈ records) rest
  | filed, .remove gone :: rest =>
      (∀ item ∈ live, gone item = true → ∀ entry ∈ scheme.entries item, filed entry.1 entry.2) ∧
        scheme.Covered live filed rest

section Rules

variable [DecidableEq Label] {scheme : Scheme Item Label Record Id}
  {shelf : Shelf Item Label Record} {effects rest : List (Effect Item Label Record)}
  {live fewer : List Item} {filed more : Option Label → Record → Prop}

theorem written_append (label : Label) :
    written label (effects ++ rest) = written label effects ++ written label rest := by
  induction effects with
  | nil => rfl
  | cons effect others ih =>
      cases effect with
      | write other records =>
          rw [List.cons_append, written, written, ih, List.append_assoc]
      | remove gone => exact ih

theorem mem_written {label : Label} {record : Record} (inside : record ∈ written label effects) :
    ∃ records, Effect.write label records ∈ effects ∧ record ∈ records := by
  induction effects with
  | nil => contradiction
  | cons effect others ih =>
      cases effect with
      | remove gone =>
          have ⟨records, among, here⟩ := ih inside
          exact ⟨records, .tail _ among, here⟩
      | write other records =>
          cases List.mem_append.1 inside with
          | inr later =>
              have ⟨records', among, here⟩ := ih later
              exact ⟨records', .tail _ among, here⟩
          | inl first =>
              split at first
              next same => exact ⟨records, same ▸ List.mem_cons_self, first⟩
              next => contradiction

theorem mem_filing {label : Label} {record : Record} {items : List Item} :
    record ∈ scheme.filing label items ↔
      ∃ item ∈ items, (some label, record) ∈ scheme.entries item := by
  simp only [Scheme.filing, List.mem_filterMap, List.mem_flatMap]
  constructor
  · intro found
    have ⟨entry, ⟨item, inside, at'⟩, chosen⟩ := found
    split at chosen
    next same =>
      cases chosen
      exact ⟨item, inside, same ▸ at'⟩
    next => contradiction
  · intro found
    have ⟨item, inside, at'⟩ := found
    exact ⟨(some label, record), ⟨item, inside, at'⟩, if_pos rfl⟩

omit [DecidableEq Label] in
/-- More that is filed and less that is live is covered as well. -/
theorem Scheme.Covered.mono (covered : scheme.Covered live filed effects) (within : fewer ⊆ live)
    (still : ∀ name record, filed name record → more name record) :
    scheme.Covered fewer more effects := by
  induction effects generalizing filed more with
  | nil => trivial
  | cons effect others ih =>
      cases effect with
      | write label records =>
          apply ih covered
          intro name record before
          exact before.imp_left (still name record)
      | remove gone =>
          constructor
          · intro item inside leaves entry at'
            exact still _ _ (covered.1 item (within inside) leaves entry at')
          · exact ih covered.2 still

omit [DecidableEq Label] in
theorem Scheme.Covered.append (first : scheme.Covered live filed effects)
    (second : scheme.Covered live filed rest) : scheme.Covered live filed (effects ++ rest) := by
  induction effects generalizing filed with
  | nil => exact second
  | cons effect others ih =>
      cases effect with
      | write label records =>
          apply ih first
          exact second.mono (List.Subset.refl _) fun _ _ => .inl
      | remove gone => exact ⟨first.1, ih first.2 second⟩

omit [DecidableEq Label] in
theorem Scheme.covered_flatMap {Batch : Type*} {plan : Batch → List (Effect Item Label Record)}
    {batches : List Batch} (each : ∀ batch ∈ batches, scheme.Covered live filed (plan batch)) :
    scheme.Covered live filed (batches.flatMap plan) := by
  induction batches with
  | nil => trivial
  | cons batch others ih =>
      rw [List.flatMap_cons]
      apply Scheme.Covered.append (each batch List.mem_cons_self)
      exact ih fun other inside => each other (.tail batch inside)

omit [DecidableEq Label] in
/-- Archives that are written first cover the items that go afterwards. -/
theorem Scheme.covered_of_writes (groups : List (Label × List Record)) (leaves : List (Item → Bool))
    (all : ∀ item ∈ live, ∀ gone ∈ leaves, gone item = true → ∀ entry ∈ scheme.entries item,
      filed entry.1 entry.2 ∨
        ∃ group ∈ groups, entry.1 = some group.1 ∧ entry.2 ∈ group.2) :
    scheme.Covered live filed
      (groups.map (fun group => .write group.1 group.2) ++ leaves.map .remove) := by
  induction groups generalizing filed with
  | nil =>
      rw [List.map_nil, List.nil_append]
      induction leaves with
      | nil => trivial
      | cons gone others ih =>
          constructor
          · intro item inside leaves entry at'
            cases all item inside gone List.mem_cons_self leaves entry at' with
            | inl already => exact already
            | inr among =>
                have ⟨group, none', _⟩ := among
                contradiction
          · apply ih
            intro item inside gone' later
            exact all item inside gone' (.tail gone later)
  | cons group others ih =>
      apply ih
      intro item inside gone leave leaves entry at'
      cases all item inside gone leave leaves entry at' with
      | inl already => exact .inl (.inl already)
      | inr among =>
          have ⟨group', inside', same⟩ := among
          cases List.mem_cons.1 inside' with
          | inl first => exact .inl (.inr (first ▸ same))
          | inr later => exact .inr ⟨group', later, same⟩

/-- Effects that keep the union: in no archive two records come to share an id, what is
written is in the union already, and every item that goes has its records filed. -/
structure Scheme.Sound (scheme : Scheme Item Label Record Id) (shelf : Shelf Item Label Record)
    (pending : List (Effect Item Label Record)) : Prop where
  told : ∀ label, Told scheme.idOf (shelf.archived label ++ written label pending)
  drawn : ∀ label, ∀ record ∈ written label pending, scheme.Holds shelf (some label) record
  covered : scheme.Covered shelf.live
    (fun name record => ∃ label, name = some label ∧ record ∈ shelf.archived label) pending

/-- With nothing left to do it is enough that the ids of an archive are distinct. -/
theorem Scheme.Distinct.sound (distinct : scheme.Distinct shelf) : scheme.Sound shelf [] where
  told label := by
    rw [written, List.append_nil]
    exact Told.of_nodup (distinct label)
  drawn label record inside := by contradiction
  covered := trivial

/-- Effects that move items: what they write are records of these, for their archives, and an
item goes when it is filed. -/
structure Scheme.Moves (scheme : Scheme Item Label Record Id) (live items : List Item)
    (effects : List (Effect Item Label Record)) : Prop where
  within : items ⊆ live
  filed : ∀ label, written label effects ⊆ scheme.filing label items
  covered : scheme.Covered live (fun _ _ => False) effects

theorem Scheme.Moves.nothing {items : List Item} (within : items ⊆ live) :
    scheme.Moves live items [] where
  within := within
  filed _ := List.nil_subset _
  covered := trivial

/-- One move after the other. -/
theorem Scheme.Moves.append {items others : List Item} (first : scheme.Moves live items effects)
    (second : scheme.Moves live others rest) :
    scheme.Moves live (items ++ others) (effects ++ rest) where
  within := List.append_subset.2 ⟨first.within, second.within⟩
  filed label record inside := by
    rw [written_append] at inside
    have ⟨item, here, at'⟩ : ∃ item ∈ items ++ others, (some label, record) ∈ scheme.entries item := by
      cases List.mem_append.1 inside with
      | inl now =>
          have ⟨item, here, at'⟩ := mem_filing.1 (first.filed label now)
          exact ⟨item, List.mem_append_left _ here, at'⟩
      | inr later =>
          have ⟨item, here, at'⟩ := mem_filing.1 (second.filed label later)
          exact ⟨item, List.mem_append_right _ here, at'⟩
    exact mem_filing.2 ⟨item, here, at'⟩
  covered := first.covered.append second.covered

/-- Items are moved when groups of their records are written, and then they go. -/
theorem Scheme.moves_of_groups {items : List Item} (groups : List (Label × List Record))
    (gone : Item → Bool) (within : items ⊆ live)
    (drawn : ∀ group ∈ groups, ∀ record ∈ group.2, ∃ item ∈ items,
      (some group.1, record) ∈ scheme.entries item)
    (all : ∀ item ∈ live, gone item = true → ∀ entry ∈ scheme.entries item,
      ∃ group ∈ groups, entry.1 = some group.1 ∧ entry.2 ∈ group.2) :
    scheme.Moves live items
      (groups.map (fun group => .write group.1 group.2) ++ [.remove gone]) where
  within := within
  filed label record inside := by
    have ⟨records, among, here⟩ := mem_written inside
    cases List.mem_append.1 among with
    | inl writes =>
        have ⟨group, listed, same⟩ := List.mem_map.1 writes
        cases same
        exact mem_filing.2 (drawn group listed record here)
    | inr leaves => cases List.mem_singleton.1 leaves
  covered := by
    apply Scheme.covered_of_writes groups [gone]
    intro item inside gone' only leaves entry at'
    cases List.mem_singleton.1 only
    exact .inr (all item inside leaves entry at')

/-- Moving items is sound, if what comes together in an archive is told apart. -/
theorem Scheme.Moves.sound {items : List Item} (moves : scheme.Moves shelf.live items effects)
    (told : ∀ label, Told scheme.idOf (shelf.archived label ++ scheme.filing label items)) :
    scheme.Sound shelf effects where
  told label := by
    apply (told label).mono
    apply List.append_subset.2
    constructor
    · exact List.subset_append_left _ _
    · exact List.subset_append_of_subset_right _ (moves.filed label)
  drawn label record inside := by
    have ⟨item, here, at'⟩ := mem_filing.1 (moves.filed label inside)
    exact .inl ⟨item, moves.within here, at'⟩
  covered := moves.covered.mono (List.Subset.refl _) fun _ _ never => never.elim

variable [DecidableEq Id]

omit [DecidableEq Label] in
theorem mem_merge {existing records : List Record} {record : Record}
    (told : Told scheme.idOf (existing ++ records)) :
    record ∈ scheme.merge existing records ↔ record ∈ existing ∨ record ∈ records := by
  rw [Scheme.merge, List.mem_insertionSort, ← List.mem_append]
  constructor
  · exact mem_of_mem_collect
  · exact told.mem_collect

omit [DecidableEq Label] in
theorem mem_of_mem_merge {existing records : List Record} {record : Record}
    (inside : record ∈ scheme.merge existing records) : record ∈ existing ∨ record ∈ records :=
  List.mem_append.1 (mem_of_mem_collect ((List.mem_insertionSort _).1 inside))

omit [DecidableEq Label] in
theorem nodup_merge (existing records : List Record) :
    ((scheme.merge existing records).map scheme.idOf).Nodup := by
  have sorted := List.perm_insertionSort (fun left right => scheme.before left right = true)
    (collect scheme.idOf (existing ++ records))
  exact (sorted.map scheme.idOf).nodup_iff.2 nodup_collect

/-- Every effect leaves the archives with distinct ids. -/
theorem Scheme.Distinct.apply (distinct : scheme.Distinct shelf)
    (effect : Effect Item Label Record) : scheme.Distinct (scheme.apply shelf effect) := by
  cases effect with
  | remove gone => exact distinct
  | write label records =>
      intro other
      simp only [Scheme.apply, Function.update_apply]
      split
      next => exact nodup_merge _ _
      next => exact distinct other

variable {effect : Effect Item Label Record}

/-- Nothing becomes live. -/
theorem live_apply : ((scheme.apply shelf effect).live).Sublist shelf.live := by
  cases effect with
  | write label records => exact List.Sublist.refl _
  | remove gone => exact List.filter_sublist

/-- An archive and what is still to be written to it only lose what has been done. -/
theorem subset_apply (label : Label) :
    (scheme.apply shelf effect).archived label ++ written label rest ⊆
      shelf.archived label ++ written label (effect :: rest) := by
  intro record inside
  cases effect with
  | remove gone => exact inside
  | write other records =>
      simp only [Scheme.apply, Function.update_apply, List.mem_append, written] at inside ⊢
      split at inside
      next same =>
        subst same
        rw [if_pos rfl]
        cases inside with
        | inl now => exact (mem_of_mem_merge now).imp_right .inl
        | inr later => exact .inr (.inr later)
      next => exact inside.imp_right .inr

/-- An archive loses nothing. -/
theorem Scheme.Sound.archived (sound : scheme.Sound shelf (effect :: rest)) {label : Label}
    {record : Record} (inside : record ∈ shelf.archived label) :
    record ∈ (scheme.apply shelf effect).archived label := by
  cases effect with
  | remove gone => exact inside
  | write other records =>
      simp only [Scheme.apply, Function.update_apply]
      split
      next same =>
        subst same
        apply (mem_merge ?_).2 (.inl inside)
        apply (sound.told label).mono
        simp only [written, if_pos, List.append_subset]
        constructor
        · exact List.subset_append_left _ _
        · exact List.subset_append_of_subset_right _ (List.subset_append_left _ _)
      next => exact inside

/-- What is written is in the archive. -/
theorem Scheme.Sound.wrote {label : Label} {records : List Record}
    (sound : scheme.Sound shelf (.write label records :: rest)) {record : Record}
    (inside : record ∈ records) :
    record ∈ (scheme.apply shelf (.write label records)).archived label := by
  simp only [Scheme.apply, Function.update_self]
  apply (mem_merge ?_).2 (.inr inside)
  apply (sound.told label).mono
  simp only [written, if_pos, List.append_subset]
  constructor
  · exact List.subset_append_left _ _
  · exact List.subset_append_of_subset_right _ (List.subset_append_left _ _)

/-- Step lemma: an effect keeps the union. -/
theorem Scheme.Sound.holds_iff (sound : scheme.Sound shelf (effect :: rest))
    (label : Option Label) (record : Record) :
    scheme.Holds (scheme.apply shelf effect) label record ↔ scheme.Holds shelf label record := by
  constructor
  · intro held
    cases held with
    | inl lives =>
        have ⟨item, inside, at'⟩ := lives
        cases effect with
        | write other records => exact .inl ⟨item, inside, at'⟩
        | remove gone => exact .inl ⟨item, (List.mem_filter.1 inside).1, at'⟩
    | inr stored =>
        have ⟨name, same, inside⟩ := stored
        have either : record ∈ shelf.archived name ++ written name (effect :: rest) :=
          subset_apply name (List.mem_append_left _ inside)
        cases List.mem_append.1 either with
        | inl before => exact .inr ⟨name, same, before⟩
        | inr fresh => exact same ▸ sound.drawn name record fresh
  · intro held
    cases held with
    | inr stored =>
        have ⟨name, same, inside⟩ := stored
        exact .inr ⟨name, same, sound.archived inside⟩
    | inl lives =>
        have ⟨item, inside, at'⟩ := lives
        cases effect with
        | write other records => exact .inl ⟨item, inside, at'⟩
        | remove gone =>
            cases leaves : gone item with
            | false => exact .inl ⟨item, List.mem_filter.2 ⟨inside, by rw [leaves]; rfl⟩, at'⟩
            | true => exact .inr (sound.covered.1 item inside leaves (label, record) at')

/-- Step lemma: what is left to do stays sound. -/
theorem Scheme.Sound.apply (sound : scheme.Sound shelf (effect :: rest)) :
    scheme.Sound (scheme.apply shelf effect) rest where
  told label := (sound.told label).mono (subset_apply label)
  drawn label record inside := by
    rw [sound.holds_iff]
    apply sound.drawn
    cases effect with
    | remove gone => exact inside
    | write other records => exact List.mem_append_right _ inside
  covered := by
    cases effect with
    | write label records =>
        have covered := sound.covered
        simp only [Scheme.Covered] at covered
        apply covered.mono (List.Subset.refl _)
        intro name record filed
        cases filed with
        | inl before =>
            have ⟨label', same, inside⟩ := before
            exact ⟨label', same, sound.archived inside⟩
        | inr now => exact ⟨label, now.1, sound.wrote now.2⟩
    | remove gone => exact sound.covered.2.mono List.filter_sublist.subset fun _ _ filed => filed

end Rules

end Archival
