import MootLoop.Lib.Decimal
import MootLoop.Common
import Mathlib.Data.String.Basic

/-! Instants in UTC, the text `datetime.isoformat` writes for them, and how it is read back. The text has no fraction
    when there are no microseconds. -/

namespace MootLoop
open Decimal

/-- A `datetime` in UTC. -/
structure DateTime where
  year : Nat
  month : Nat
  day : Nat
  hour : Nat
  minute : Nat
  second : Nat
  microsecond : Nat
  valid : year ≤ 9999 ∧ month ≤ 12 ∧ day ≤ 31 ∧ hour < 24 ∧ minute < 60 ∧ second < 60 ∧ microsecond < 1000000
  deriving DecidableEq, Repr

namespace DateTime

/-- A number that grows with the time. -/
def order (t : DateTime) : Nat :=
  (((((t.year * 13 + t.month) * 32 + t.day) * 24 + t.hour) * 60 + t.minute) * 60 + t.second) * 1000000 + t.microsecond

instance : LE DateTime := ⟨fun a b => a.order ≤ b.order⟩
instance : LT DateTime := ⟨fun a b => a.order < b.order⟩
instance (a b : DateTime) : Decidable (a ≤ b) := inferInstanceAs (Decidable (a.order ≤ b.order))
instance (a b : DateTime) : Decidable (a < b) := inferInstanceAs (Decidable (a.order < b.order))

/-- What `isoformat` writes after the seconds. -/
def suffix (microsecond : Nat) : List Char :=
  if microsecond = 0 then "+00:00".toList else '.' :: (digits 6 microsecond ++ "+00:00".toList)

def iso_chars (t : DateTime) : List Char :=
  digits 4 t.year ++ '-' :: (digits 2 t.month ++ '-' :: (digits 2 t.day ++ 'T' :: (digits 2 t.hour ++
    ':' :: (digits 2 t.minute ++ ':' :: (digits 2 t.second ++ suffix t.microsecond)))))

/-- `isoformat`. -/
def isoformat (t : DateTime) : String := String.ofList t.iso_chars

end DateTime

/-- The text after a character. -/
def skip (c : Char) : List Char → Option (List Char)
  | d :: rest => if c = d then some rest else none
  | [] => none

/-- The microseconds at the end of a time stamp. -/
def read_suffix : List Char → Option Nat
  | '.' :: rest => do
    let (microsecond, rest) ← number 6 rest
    if rest = "+00:00".toList then some microsecond else none
  | rest => if rest = "+00:00".toList then some 0 else none

/-- `datetime.fromisoformat`, of the texts `isoformat` writes. -/
def fromisoformat (text : String) : Option DateTime := do
  let (year, rest) ← number 4 text.toList
  let (month, rest) ← number 2 (← skip '-' rest)
  let (day, rest) ← number 2 (← skip '-' rest)
  let (hour, rest) ← number 2 (← skip 'T' rest)
  let (minute, rest) ← number 2 (← skip ':' rest)
  let (second, rest) ← number 2 (← skip ':' rest)
  let microsecond ← read_suffix rest
  if valid : year ≤ 9999 ∧ month ≤ 12 ∧ day ≤ 31 ∧ hour < 24 ∧ minute < 60 ∧ second < 60 ∧ microsecond < 1000000 then
    some ⟨year, month, day, hour, minute, second, microsecond, valid⟩
  else none

/-! ### Reading back -/

theorem bind_of {α β : Type} {x : Option α} {a : α} (h : x = some a) (f : α → Option β) : x >>= f = f a := by
  rw [h]
  rfl

theorem read_suffix_suffix {microsecond : Nat} (h : microsecond < 1000000) :
    read_suffix (DateTime.suffix microsecond) = some microsecond := by
  unfold DateTime.suffix
  split
  · rename_i none
    rw [none]
    rfl
  · exact (bind_of (number_digits (show microsecond < 10 ^ 6 from h) _) _).trans rfl

theorem fromisoformat_isoformat (t : DateTime) : fromisoformat t.isoformat = some t := by
  obtain ⟨year, month, day, hour, minute, second, microsecond⟩ := t.valid
  have year := number_digits (show t.year < 10 ^ 4 by omega)
  have month := number_digits (show t.month < 10 ^ 2 by omega)
  have day := number_digits (show t.day < 10 ^ 2 by omega)
  have hour := number_digits (show t.hour < 10 ^ 2 by omega)
  have minute := number_digits (show t.minute < 10 ^ 2 by omega)
  have second := number_digits (show t.second < 10 ^ 2 by omega)
  have microsecond := read_suffix_suffix microsecond
  rw [fromisoformat, DateTime.isoformat, String.toList_ofList, DateTime.iso_chars]
  refine (bind_of (year _) _).trans ?_
  refine (bind_of rfl _).trans <| (bind_of (month _) _).trans ?_
  refine (bind_of rfl _).trans <| (bind_of (day _) _).trans ?_
  refine (bind_of rfl _).trans <| (bind_of (hour _) _).trans ?_
  refine (bind_of rfl _).trans <| (bind_of (minute _) _).trans ?_
  refine (bind_of rfl _).trans <| (bind_of (second _) _).trans ?_
  exact (bind_of microsecond _).trans (dif_pos t.valid)

theorem isoformat_injective : Function.Injective DateTime.isoformat := fun a b same => by
  have back := congrArg fromisoformat same
  rw [fromisoformat_isoformat, fromisoformat_isoformat] at back
  exact Option.some.inj back

/-! ### Order -/

theorem suffix_lt {n m : Nat} (hn : n < 1000000) (hm : m < 1000000) : DateTime.suffix n < DateTime.suffix m ↔ n < m := by
  unfold DateTime.suffix
  split
  · rename_i first
    split
    · rename_i second
      simp [first, second]
    · rename_i later
      have sooner : "+00:00".toList < '.' :: (digits 6 m ++ "+00:00".toList) := by
        rw [show "+00:00".toList = '+' :: "00:00".toList from rfl, List.cons_lt_cons_iff]
        exact .inl (by decide)
      simp only [sooner, true_iff]
      omega
  · split
    · rename_i later first
      have later : ¬ ('.' :: (digits 6 n ++ "+00:00".toList) < "+00:00".toList) := by
        rw [show "+00:00".toList = '+' :: "00:00".toList from rfl, List.cons_lt_cons_iff]
        rintro (before | ⟨same, -⟩)
        · exact absurd before (by decide)
        · exact absurd same (by decide)
      simp only [later, false_iff]
      omega
    · rw [List.cons_lt_cons_iff, append_lt_append (by rw [length_digits, length_digits]), digits_lt hn hm]
      simp

/-- Two places of a comparison are one, in a base the lower digits are below. -/
theorem carry {n n' m m' k : Nat} {rest : Prop} (hm : m < k) (hm' : m' < k) :
    (n < n' ∨ n = n' ∧ (m < m' ∨ m = m' ∧ rest)) ↔ (n * k + m < n' * k + m' ∨ n * k + m = n' * k + m' ∧ rest) := by
  rcases Nat.lt_trichotomy n n' with less | rfl | more
  · have := Nat.mul_le_mul_right k (Nat.succ_le_of_lt less)
    rw [Nat.succ_mul] at this
    constructor
    · exact fun _ => .inl (by omega)
    · exact fun _ => .inl less
  · constructor
    · rintro (less | ⟨-, less | ⟨rfl, here⟩⟩)
      · exact absurd less (Nat.lt_irrefl n)
      · exact .inl (by omega)
      · exact .inr ⟨rfl, here⟩
    · rintro (less | ⟨same, here⟩)
      · exact .inr ⟨rfl, .inl (by omega)⟩
      · exact .inr ⟨rfl, .inr ⟨by omega, here⟩⟩
  · have := Nat.mul_le_mul_right k (Nat.succ_le_of_lt more)
    rw [Nat.succ_mul] at this
    constructor
    · rintro (less | ⟨same, -⟩) <;> omega
    · rintro (less | ⟨same, -⟩) <;> omega

/-- The texts are ordered as the instants are. -/
theorem isoformat_lt_iff (a b : DateTime) : a.isoformat < b.isoformat ↔ a < b := by
  have block : ∀ {width n m : Nat} {c : Char} {r s : List Char}, n < 10 ^ width → m < 10 ^ width →
      (digits width n ++ c :: r < digits width m ++ c :: s ↔ n < m ∨ n = m ∧ r < s) := by
    intro width n m c r s hn hm
    rw [append_lt_append (by rw [length_digits, length_digits]), digits_lt hn hm, digits_inj hn hm, List.cons_lt_cons_iff]
    simp
  obtain ⟨year, month, day, hour, minute, second, microsecond⟩ := a.valid
  obtain ⟨year', month', day', hour', minute', second', microsecond'⟩ := b.valid
  have seconds : digits 2 a.second ++ DateTime.suffix a.microsecond < digits 2 b.second ++ DateTime.suffix b.microsecond ↔
      a.second < b.second ∨ a.second = b.second ∧ a.microsecond < b.microsecond := by
    rw [append_lt_append (by rw [length_digits, length_digits]), digits_lt (by omega) (by omega),
      digits_inj (by omega) (by omega), suffix_lt microsecond microsecond']
  rw [String.lt_iff_toList_lt, DateTime.isoformat, DateTime.isoformat, String.toList_ofList, String.toList_ofList,
    DateTime.iso_chars, DateTime.iso_chars, block (by omega) (by omega), block (by omega) (by omega),
    block (by omega) (by omega), block (by omega) (by omega), block (by omega) (by omega), seconds]
  show _ ↔ a.order < b.order
  rw [carry (k := 13) (by omega) (by omega), carry (k := 32) (by omega) (by omega), carry (k := 24) (by omega) (by omega),
    carry (k := 60) (by omega) (by omega), carry (k := 60) (by omega) (by omega)]
  unfold DateTime.order
  omega

end MootLoop
