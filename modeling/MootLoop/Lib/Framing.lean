import Mathlib.Data.List.Basic
import Mathlib.Tactic.Ring

/-! Framing of byte strings by their length: what is framed can be split off the front of any longer string, so a
    sequence of frames determines what was framed. -/

namespace Framing

/-- A number in so many bytes, the most significant first. -/
def big_endian : Nat → Nat → List UInt8
  | 0, _ => []
  | width + 1, n => big_endian width (n / 256) ++ [UInt8.ofNat (n % 256)]

theorem length_big_endian (width n : Nat) : (big_endian width n).length = width := by
  induction width generalizing n with
  | zero => rfl
  | succ width ih => simp [big_endian, ih]

theorem big_endian_inj {width n m : Nat} (hn : n < 256 ^ width) (hm : m < 256 ^ width)
    (same : big_endian width n = big_endian width m) : n = m := by
  induction width generalizing n m with
  | zero =>
    rw [pow_zero] at hn hm
    omega
  | succ width ih =>
    obtain ⟨high, low⟩ := List.append_inj' same rfl
    rw [pow_succ] at hn hm
    have high := ih (Nat.div_lt_of_lt_mul (by rwa [mul_comm])) (Nat.div_lt_of_lt_mul (by rwa [mul_comm])) high
    have low : n % 256 = m % 256 := by simpa using congrArg UInt8.toNat (List.singleton_inj.mp low)
    omega

/-- A byte string after its length, if the length fits. -/
def framed (width : Nat) (bytes : List UInt8) : Option (List UInt8) :=
  if bytes.length < 256 ^ width then some (big_endian width bytes.length ++ bytes) else none

theorem framed_append_inj {width : Nat} {a b fa fb rest rest' : List UInt8} (ha : framed width a = some fa)
    (hb : framed width b = some fb) (same : fa ++ rest = fb ++ rest') : a = b ∧ rest = rest' := by
  unfold framed at ha hb
  split at ha
  · split at hb
    · rename_i short short'
      obtain rfl := Option.some.inj ha
      obtain rfl := Option.some.inj hb
      rw [List.append_assoc, List.append_assoc] at same
      obtain ⟨lengths, same⟩ := List.append_inj same (by rw [length_big_endian, length_big_endian])
      exact List.append_inj same (big_endian_inj short short' lengths)
    · cases hb
  · cases ha

theorem framed_ne_nil {width : Nat} (wide : 0 < width) {a fa : List UInt8} (ha : framed width a = some fa) : fa ≠ [] := by
  unfold framed at ha
  split at ha
  · obtain rfl := Option.some.inj ha
    intro empty
    have length := congrArg List.length (List.append_eq_nil_iff.mp empty).1
    rw [length_big_endian, List.length_nil] at length
    omega
  · cases ha

end Framing
