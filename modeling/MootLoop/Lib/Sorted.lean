import Mathlib.Data.List.Forall2
import Mathlib.Data.List.Sort

/-! Sorting and the pointwise order of lists: sorting two lists, one pointwise below the other, keeps it below. -/

namespace List

variable {α : Type} [LinearOrder α] {a b x y : α} {xs ys : List α}

theorem forall₂_cons_orderedInsert (sorted : (x :: xs).Pairwise (· ≤ ·)) (le : x ≤ b) (below : Forall₂ (· ≤ ·) xs ys) :
    Forall₂ (· ≤ ·) (x :: xs) (ys.orderedInsert (· ≤ ·) b) := by
  induction below generalizing x with
  | nil => exact .cons le .nil
  | @cons x' y' xs ys le' below ih =>
    obtain ⟨first, rest⟩ := pairwise_cons.mp sorted
    rw [orderedInsert_cons]
    split
    · exact .cons le (.cons le' below)
    · rename_i after
      have x_le : x ≤ y' := le_trans (first x' mem_cons_self) le'
      exact .cons x_le (ih rest (le_trans le' (le_of_not_ge after)))

theorem forall₂_orderedInsert_cons (sorted : (y :: ys).Pairwise (· ≤ ·)) (le : a ≤ y) (below : Forall₂ (· ≤ ·) xs ys) :
    Forall₂ (· ≤ ·) (xs.orderedInsert (· ≤ ·) a) (y :: ys) := by
  induction below generalizing y with
  | nil => exact .cons le .nil
  | @cons x' y' xs ys le' below ih =>
    obtain ⟨first, rest⟩ := pairwise_cons.mp sorted
    rw [orderedInsert_cons]
    split
    · exact .cons le (.cons le' below)
    · rename_i after
      have x_le : x' ≤ y := le_trans (le_of_not_ge after) le
      exact .cons x_le (ih rest (le_trans le (first y' mem_cons_self)))

theorem forall₂_orderedInsert (sorted : xs.Pairwise (· ≤ ·)) (sorted' : ys.Pairwise (· ≤ ·)) (le : a ≤ b)
    (below : Forall₂ (· ≤ ·) xs ys) :
    Forall₂ (· ≤ ·) (xs.orderedInsert (· ≤ ·) a) (ys.orderedInsert (· ≤ ·) b) := by
  induction below with
  | nil => exact .cons le .nil
  | @cons x' y' xs ys le' below ih =>
    rw [orderedInsert_cons, orderedInsert_cons]
    split
    · split
      · exact .cons le (.cons le' below)
      · rename_i before after
        exact .cons (le_trans before le') (forall₂_cons_orderedInsert sorted (le_trans le' (le_of_not_ge after)) below)
    · rename_i after
      split
      · rename_i before
        have x_le : x' ≤ b := le_trans (le_of_not_ge after) le
        exact .cons x_le (forall₂_orderedInsert_cons sorted' (le_trans le before) below)
      · exact .cons le' (ih (pairwise_cons.mp sorted).2 (pairwise_cons.mp sorted').2)

theorem forall₂_insertionSort (below : Forall₂ (· ≤ ·) xs ys) :
    Forall₂ (· ≤ ·) (xs.insertionSort (· ≤ ·)) (ys.insertionSort (· ≤ ·)) := by
  induction below with
  | nil => exact .nil
  | cons le below ih =>
    rw [insertionSort_cons, insertionSort_cons]
    exact forall₂_orderedInsert (pairwise_insertionSort _ _) (pairwise_insertionSort _ _) le ih

/-- Sorting does not see the order the elements came in. -/
theorem Perm.insertionSort_eq (same : xs.Perm ys) : xs.insertionSort (· ≤ ·) = ys.insertionSort (· ≤ ·) := by
  have sorted : (xs.insertionSort (· ≤ ·)).Perm (ys.insertionSort (· ≤ ·)) :=
    (perm_insertionSort _ xs).trans (same.trans (perm_insertionSort _ ys).symm)
  exact sorted.eq_of_pairwise' (pairwise_insertionSort _ _) (pairwise_insertionSort _ _)

theorem Forall₂.getD_le {d : α} (below : Forall₂ (· ≤ ·) xs ys) (i : Nat) : xs.getD i d ≤ ys.getD i d := by
  induction below generalizing i with
  | nil => exact le_refl _
  | cons le _ ih =>
    cases i with
    | zero => exact le
    | succ i => exact ih i

end List
