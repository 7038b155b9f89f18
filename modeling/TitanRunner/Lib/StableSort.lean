import Mathlib.Data.List.Sort

/-!
# Pairs of a stable sort

A stable sort swaps two records exactly when the order does not let the first stand before the
second.  So what holds of every pair of the sorted list can be read off the list that is sorted.
-/

namespace StableSort

universe u

variable {Record : Type u} {before : Record → Record → Prop} [DecidableRel before]
  {related : Record → Record → Prop} {records : List Record}

theorem pairwise_orderedInsert_iff [IsTrans Record before] (sorted : records.Pairwise before)
    (record : Record) : (records.orderedInsert before record).Pairwise related ↔
      records.Pairwise related ∧ ∀ other ∈ records,
        (before record other → related record other) ∧
          (¬ before record other → related other record) := by
  induction records with
  | nil => simp
  | cons first rest ih =>
      obtain ⟨least, sorted'⟩ := List.pairwise_cons.1 sorted
      by_cases here : before record first
      · have all : ∀ other ∈ first :: rest, before record other := by
          intro other inside
          cases List.mem_cons.1 inside with
          | inl same => exact same ▸ here
          | inr later => exact Trans.trans here (least other later)
        rw [List.orderedInsert_cons_of_le _ _ here, List.pairwise_cons, and_comm, and_congr_right]
        intro _
        apply forall₂_congr
        intro other inside
        simp [all other inside]
      · rw [List.orderedInsert_of_not_le _ _ here, List.pairwise_cons, ih sorted',
          List.pairwise_cons]
        simp only [List.mem_orderedInsert, List.mem_cons, forall_eq_or_imp, here, false_implies,
          not_false_eq_true, true_implies, true_and]
        tauto

/-- What holds of every pair of the sorted list. -/
theorem pairwise_insertionSort_iff [IsTrans Record before] [Std.Total before] :
    (records.insertionSort before).Pairwise related ↔
      records.Pairwise fun first second => (before first second → related first second) ∧
        (¬ before first second → related second first) := by
  induction records with
  | nil => simp
  | cons first rest ih =>
      rw [List.insertionSort_cons,
        pairwise_orderedInsert_iff (List.pairwise_insertionSort before rest), ih, List.pairwise_cons,
        and_comm]
      simp only [List.mem_insertionSort]

end StableSort
