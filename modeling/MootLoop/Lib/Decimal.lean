import Mathlib.Data.List.Basic
import Mathlib.Order.Basic
import Mathlib.Tactic.IntervalCases
import Mathlib.Tactic.Ring

/-! Numbers as decimal digits of a fixed width: they read back, and texts of such numbers are ordered as the numbers
    are. -/

namespace Decimal

/-- The last digits of a number, so many of them. -/
def digits : Nat → Nat → List Char
  | 0, _ => []
  | width + 1, n => digits width (n / 10) ++ [Nat.digitChar (n % 10)]

/-- What the digits of a text count to. -/
def value (text : List Char) : Nat := text.foldl (fun n c => n * 10 + (c.toNat - 48)) 0

/-- A number of so many digits, and the text after it. -/
def number (width : Nat) (text : List Char) : Option (Nat × List Char) :=
  if (text.take width).length = width ∧ (text.take width).all Char.isDigit then
    some (value (text.take width), text.drop width)
  else none

theorem length_digits (width n : Nat) : (digits width n).length = width := by
  induction width generalizing n with
  | zero => rfl
  | succ width ih => simp [digits, ih]

theorem digits_all (width n : Nat) : (digits width n).all Char.isDigit = true := by
  induction width generalizing n with
  | zero => rfl
  | succ width ih =>
    have last : (Nat.digitChar (n % 10)).isDigit = true := by
      have bound : n % 10 < 10 := Nat.mod_lt _ (by decide)
      generalize n % 10 = d at bound
      interval_cases d <;> rfl
    simp [digits, ih, last]

theorem value_digits {width n : Nat} (h : n < 10 ^ width) : value (digits width n) = n := by
  induction width generalizing n with
  | zero =>
    rw [pow_zero] at h
    obtain rfl : n = 0 := by omega
    rfl
  | succ width ih =>
    rw [pow_succ] at h
    have high : value (digits width (n / 10)) = n / 10 := ih (Nat.div_lt_of_lt_mul (by rwa [mul_comm]))
    rw [value] at high ⊢
    rw [digits, List.foldl_append, high, List.foldl_cons, List.foldl_nil, Nat.toNat_digitChar_of_lt_ten (Nat.mod_lt _ (by decide))]
    omega

theorem number_digits {width n : Nat} (h : n < 10 ^ width) (rest : List Char) :
    number width (digits width n ++ rest) = some (n, rest) := by
  have taken : (digits width n ++ rest).take width = digits width n := List.take_left' (length_digits width n)
  rw [number, taken, if_pos ⟨length_digits width n, digits_all width n⟩, value_digits h,
    List.drop_left' (length_digits width n)]

/-! ### Order -/

/-- Texts that start with parts of one length are ordered by these parts first. -/
theorem append_lt_append {a b r s : List Char} (lengths : a.length = b.length) :
    a ++ r < b ++ s ↔ a < b ∨ a = b ∧ r < s := by
  induction a generalizing b with
  | nil =>
    obtain rfl := List.eq_nil_of_length_eq_zero lengths.symm
    simp
  | cons c a ih =>
    cases b with
    | nil => cases lengths
    | cons d b =>
      rw [List.cons_append, List.cons_append, List.cons_lt_cons_iff, List.cons_lt_cons_iff,
        ih (Nat.succ.inj lengths), List.cons.injEq]
      tauto

theorem digits_inj {width n m : Nat} (hn : n < 10 ^ width) (hm : m < 10 ^ width) :
    digits width n = digits width m ↔ n = m :=
  ⟨fun same => by rw [← value_digits hn, ← value_digits hm, same], fun same => by rw [same]⟩

theorem digits_lt {width n m : Nat} (hn : n < 10 ^ width) (hm : m < 10 ^ width) :
    digits width n < digits width m ↔ n < m := by
  induction width generalizing n m with
  | zero =>
    rw [pow_zero] at hn hm
    simp only [digits, List.not_lt_nil, false_iff]
    omega
  | succ width ih =>
    rw [pow_succ] at hn hm
    have hn' : n / 10 < 10 ^ width := Nat.div_lt_of_lt_mul (by rwa [mul_comm])
    have hm' : m / 10 < 10 ^ width := Nat.div_lt_of_lt_mul (by rwa [mul_comm])
    have last : [Nat.digitChar (n % 10)] < [Nat.digitChar (m % 10)] ↔ n % 10 < m % 10 := by
      have bound : n % 10 < 10 := Nat.mod_lt _ (by decide)
      have bound' : m % 10 < 10 := Nat.mod_lt _ (by decide)
      rw [List.cons_lt_cons_iff, Char.lt_def, UInt32.lt_iff_toNat_lt]
      have codes := Nat.toNat_digitChar_of_lt_ten bound
      have codes' := Nat.toNat_digitChar_of_lt_ten bound'
      rw [Char.toNat] at codes codes'
      simp only [List.not_lt_nil, and_false, or_false]
      omega
    rw [digits, digits, append_lt_append (by rw [length_digits, length_digits]), ih hn' hm', digits_inj hn' hm', last]
    omega

end Decimal
