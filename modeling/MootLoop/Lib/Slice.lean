import Mathlib.Data.List.TakeDrop

/-! `text[start:stop]` of a list: its length and elements, a slice of a slice, and how far a trim of it reaches. -/

namespace Slice

variable {α : Type} {text : List α} {start stop start' stop' : Nat}

/-- `text[start:stop]`. -/
def slice (text : List α) (start stop : Nat) : List α := (text.drop start).take (stop - start)

theorem length_slice (within : stop ≤ text.length) : (slice text start stop).length = stop - start := by
  rw [slice, List.length_take, List.length_drop]
  omega

theorem length_slice_le : (slice text start stop).length ≤ stop - start := List.length_take_le _ _

/-- A slice of a slice is a slice, moved by where the outer one starts. -/
theorem slice_slice (within : start + stop' ≤ stop) :
    slice (slice text start stop) start' stop' = slice text (start + start') (start + stop') := by
  rw [slice, slice, slice, List.drop_take, List.drop_drop, List.take_take]
  congr 1
  omega

theorem slice_length : slice text start text.length = text.drop start := by
  rw [slice, ← List.length_drop, List.take_length]

theorem getElem?_slice {i : Nat} (before : start + i < stop) : (slice text start stop)[i]? = text[start + i]? := by
  rw [slice, List.getElem?_take_of_lt (by omega), List.getElem?_drop]

/-! ### Trims -/

/-- A trim stops at an element that is not trimmed. -/
theorem length_takeWhile_le {p : α → Bool} {a : α} {i : Nat} (at_i : text[i]? = some a) (keep : p a = false) :
    (text.takeWhile p).length ≤ i := by
  induction text generalizing i with
  | nil => exact Nat.zero_le _
  | cons b text ih =>
    rw [List.takeWhile_cons]
    split
    · rename_i trimmed
      cases i with
      | zero =>
        cases at_i
        rw [trimmed] at keep
        cases keep
      | succ i => exact Nat.succ_le_succ (ih at_i)
    · exact Nat.zero_le _

/-- The element a trim stops at is not trimmed. -/
theorem kept_of_takeWhile {p : α → Bool} {a : α} (at_stop : text[(text.takeWhile p).length]? = some a) : p a = false := by
  induction text with
  | nil => cases at_stop
  | cons b text ih =>
    rw [List.takeWhile_cons] at at_stop
    split at at_stop
    · exact ih at_stop
    · rename_i kept
      cases at_stop
      exact Bool.not_eq_true _ ▸ kept

end Slice
