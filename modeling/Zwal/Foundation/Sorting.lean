import Mathlib

/-! # Sorting by a key

A sort whose order among equal keys is left open, such as `std::sort`. Where all
keys differ its result is determined. -/

namespace Zwal

structure SortBy {Item : Type} (key : Item → Nat) where
  run : List Item → List Item
  perm : ∀ items, (run items).Perm items
  sorted : ∀ items, (run items).Pairwise fun first second => key first ≤ key second

namespace SortBy

variable {Item : Type} {key : Item → Nat}

def mergeSort (key : Item → Nat) : SortBy key where
  run items := items.mergeSort fun first second => key first ≤ key second
  perm items := List.mergeSort_perm items _
  sorted items := by
    have sorted : (items.mergeSort fun first second => decide (key first ≤ key second)).Pairwise
        fun first second => decide (key first ≤ key second) = true :=
      List.pairwise_mergeSort (by simp only [decide_eq_true_eq]; omega)
        (by simp only [Bool.or_eq_true, decide_eq_true_eq]; omega) items
    simpa only [decide_eq_true_eq] using sorted

def insertionSort (key : Item → Nat) : SortBy key where
  run items := items.insertionSort fun first second => key first ≤ key second
  perm items := List.perm_insertionSort _ items
  sorted items := by
    have total : Std.Total fun first second : Item => key first ≤ key second :=
      ⟨fun first second => Nat.le_total (key first) (key second)⟩
    have transitive : IsTrans Item fun first second => key first ≤ key second :=
      ⟨fun _ _ _ => Nat.le_trans⟩
    exact List.pairwise_insertionSort _ items

theorem run_eq (sort : SortBy key) {items ordered : List Item} (perm : ordered.Perm items)
    (strict : ordered.Pairwise fun first second => key first < key second) :
    sort.run items = ordered := by
  have samePerm : (sort.run items).Perm ordered := (sort.perm items).trans perm.symm
  have distinct : (ordered.map key).Nodup :=
    List.pairwise_map.mpr (strict.imp fun less => Nat.ne_of_lt less)
  refine samePerm.eq_of_pairwise (fun first second inRun inOrdered le ge => ?_)
    (sort.sorted items) (strict.imp fun less => Nat.le_of_lt less)
  exact List.inj_on_of_nodup_map distinct (samePerm.subset inRun) inOrdered (Nat.le_antisymm le ge)

theorem strict (sort : SortBy key) {items : List Item} (distinct : (items.map key).Nodup) :
    (sort.run items).Pairwise fun first second => key first < key second := by
  have apart : (sort.run items).Pairwise fun first second => key first ≠ key second :=
    List.pairwise_map.mp (((sort.perm items).map key).nodup_iff.mpr distinct)
  exact (sort.sorted items).imp₂ (fun _ _ le ne => Nat.lt_of_le_of_ne le ne) apart

end SortBy

end Zwal
