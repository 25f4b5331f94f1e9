import MootLoop.Lib.Sorted

/-! Sorting by a key: a stable sort, whose result depends on the order of its input only where keys are equal. -/

namespace List

variable {α κ : Type} [LinearOrder κ]

/-- The elements in the order of their keys, equal keys in the order they came. -/
def sortBy (key : α → κ) (xs : List α) : List α := xs.insertionSort fun a b => key a ≤ key b

variable {key : α → κ} {xs ys : List α}

theorem sortBy_perm (key : α → κ) (xs : List α) : (xs.sortBy key).Perm xs := perm_insertionSort _ xs

@[simp] theorem mem_sortBy {a : α} : a ∈ xs.sortBy key ↔ a ∈ xs := (sortBy_perm key xs).mem_iff

theorem pairwise_sortBy (key : α → κ) (xs : List α) : (xs.sortBy key).Pairwise fun a b => key a ≤ key b := by
  have total : Std.Total fun a b : α => key a ≤ key b := ⟨fun a b => le_total (key a) (key b)⟩
  have trans : IsTrans α fun a b => key a ≤ key b := ⟨fun _ _ _ => le_trans⟩
  exact pairwise_insertionSort _ xs

/-- The keys come out sorted, whatever the elements beside them. -/
theorem map_sortBy (key : α → κ) (xs : List α) : (xs.sortBy key).map key = (xs.map key).insertionSort (· ≤ ·) := by
  have sorted : ((xs.sortBy key).map key).Pairwise (· ≤ ·) := pairwise_map.mpr (pairwise_sortBy key xs)
  have same : ((xs.sortBy key).map key).Perm ((xs.map key).insertionSort (· ≤ ·)) :=
    ((sortBy_perm key xs).map key).trans (perm_insertionSort _ _).symm
  exact same.eq_of_pairwise' sorted (pairwise_insertionSort _ _)

/-- With distinct keys the sort does not see the order its input came in. -/
theorem Perm.sortBy_eq (same : xs.Perm ys) (distinct : (xs.map key).Nodup) : xs.sortBy key = ys.sortBy key := by
  have perm : (xs.sortBy key).Perm (ys.sortBy key) := (sortBy_perm key xs).trans (same.trans (sortBy_perm key ys).symm)
  refine perm.eq_of_pairwise ?_ (pairwise_sortBy key xs) (pairwise_sortBy key ys)
  intro a b mem mem' le ge
  have in_xs : a ∈ xs := mem_sortBy.mp mem
  have in_xs' : b ∈ xs := same.mem_iff.mpr (mem_sortBy.mp mem')
  exact inj_on_of_nodup_map distinct in_xs in_xs' (le_antisymm le ge)

end List
