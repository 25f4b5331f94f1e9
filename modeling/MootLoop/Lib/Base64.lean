import Mathlib.Data.List.Basic

/-! Base64 in the URL-safe alphabet: the writer, the text without its padding, and a reader that passes over what is no
    letter and stops at the padding. -/

namespace Base64

/-! ### Letters -/

/-- The letter of six bits. -/
def letter (bits : Nat) : Char :=
  if bits < 26 then Char.ofNat (65 + bits)
  else if bits < 52 then Char.ofNat (71 + bits)
  else if bits < 62 then Char.ofNat (bits - 4)
  else if bits = 62 then '-' else '_'

/-- The six bits of a letter of this alphabet or of the plain one. -/
def bits? (c : Char) : Option Nat :=
  let n := c.toNat
  if 65 ≤ n ∧ n ≤ 90 then some (n - 65)
  else if 97 ≤ n ∧ n ≤ 122 then some (n - 71)
  else if 48 ≤ n ∧ n ≤ 57 then some (n + 4)
  else if c = '-' ∨ c = '+' then some 62
  else if c = '_' ∨ c = '/' then some 63
  else none

theorem bits_letter : ∀ bits < 64, bits? (letter bits) = some bits := by decide

/-- A letter is no padding, no dot and no character outside ASCII. -/
theorem letter_plain : ∀ bits < 64, letter bits ≠ '=' ∧ letter bits ≠ '.' ∧ (letter bits).toNat < 128 := by decide

/-! ### Writing -/

/-- Three bytes are four letters. Padding stands for what one or two bytes at the end leave open. -/
def encode : List UInt8 → List Char
  | [] => []
  | [a] => [letter (a.toNat / 4), letter (a.toNat % 4 * 16), '=', '=']
  | [a, b] => [letter (a.toNat / 4), letter (a.toNat % 4 * 16 + b.toNat / 16), letter (b.toNat % 16 * 4), '=']
  | a :: b :: c :: rest =>
    letter (a.toNat / 4) :: letter (a.toNat % 4 * 16 + b.toNat / 16) :: letter (b.toNat % 16 * 4 + c.toNat / 64) ::
      letter (c.toNat % 64) :: encode rest

/-- The text without the padding at its end. -/
def unpadded (text : List Char) : List Char := (text.reverse.dropWhile (· = '=')).reverse

/-- The text with as much padding as its length leaves open. -/
def padded (text : List Char) : List Char := text ++ List.replicate ((4 - text.length % 4) % 4) '='

/-! ### Reading -/

/-- The bytes from a place in a group of four letters on. `left` holds the bits that are read and belong to no byte yet,
    `pads` counts the padding since the last letter. -/
def decode_from : Nat → Nat → Nat → List Char → Option (List UInt8)
  | place, _, _, [] => if place = 0 then some [] else none
  | place, left, pads, c :: text =>
    if c = '=' then
      if 2 ≤ place then
        if 4 ≤ place + (pads + 1) then some [] else decode_from place left (pads + 1) text
      else decode_from place left pads text
    else
      match bits? c with
      | none => decode_from place left pads text
      | some bits =>
        match place with
        | 0 => decode_from 1 bits 0 text
        | 1 => (decode_from 2 (bits % 16) 0 text).map (UInt8.ofNat (left * 4 + bits / 16) :: ·)
        | 2 => (decode_from 3 (bits % 4) 0 text).map (UInt8.ofNat (left * 16 + bits / 4) :: ·)
        | _ => (decode_from 0 0 0 text).map (UInt8.ofNat (left * 64 + bits) :: ·)

def decode (text : List Char) : Option (List UInt8) := decode_from 0 0 0 text

/-! ### Reading back -/

section
variable {left pads bits : Nat} {text : List Char}

theorem decode_first (six : bits < 64) : decode_from 0 left pads (letter bits :: text) = decode_from 1 bits 0 text := by
  rw [decode_from, if_neg (letter_plain bits six).1, bits_letter bits six]
  rfl

theorem decode_second (six : bits < 64) :
    decode_from 1 left pads (letter bits :: text) =
      (decode_from 2 (bits % 16) 0 text).map (UInt8.ofNat (left * 4 + bits / 16) :: ·) := by
  rw [decode_from, if_neg (letter_plain bits six).1, bits_letter bits six]
  rfl

theorem decode_third (six : bits < 64) :
    decode_from 2 left pads (letter bits :: text) =
      (decode_from 3 (bits % 4) 0 text).map (UInt8.ofNat (left * 16 + bits / 4) :: ·) := by
  rw [decode_from, if_neg (letter_plain bits six).1, bits_letter bits six]
  rfl

theorem decode_fourth (six : bits < 64) :
    decode_from 3 left pads (letter bits :: text) =
      (decode_from 0 0 0 text).map (UInt8.ofNat (left * 64 + bits) :: ·) := by
  rw [decode_from, if_neg (letter_plain bits six).1, bits_letter bits six]
  rfl

end

theorem byte_eq {a : UInt8} {n : Nat} (same : n = a.toNat) : UInt8.ofNat n = a := by
  rw [same, UInt8.ofNat_toNat]

/-- The reader takes the padded text of any bytes back to them. -/
theorem decode_encode (raw : List UInt8) : decode (encode raw) = some raw := by
  have bound (a : UInt8) : a.toNat < 256 := a.toNat_lt
  have from_start : ∀ left pads, decode_from 0 left pads (encode raw) = some raw := by
    induction raw using encode.induct with
    | case1 => exact fun _ _ => rfl
    | case2 a =>
      intro left pads
      have a_byte := bound a
      rw [encode, decode_first (by omega), decode_second (by omega), byte_eq (a := a) (by omega)]
      rfl
    | case3 a b =>
      intro left pads
      have a_byte := bound a
      have b_byte := bound b
      rw [encode, decode_first (by omega), decode_second (by omega), decode_third (by omega),
        byte_eq (a := a) (by omega), byte_eq (a := b) (by omega)]
      rfl
    | case4 a b c rest ih =>
      intro left pads
      have a_byte := bound a
      have b_byte := bound b
      have c_byte := bound c
      rw [encode, decode_first (by omega), decode_second (by omega), decode_third (by omega), decode_fourth (by omega),
        byte_eq (a := a) (by omega), byte_eq (a := b) (by omega), byte_eq (a := c) (by omega), ih]
      rfl
  exact from_start 0 0

/-- A text is letters and at most three signs of padding, and fills groups of four. -/
theorem encode_split (raw : List UInt8) : ∃ letters pads, encode raw = letters ++ List.replicate pads '=' ∧ pads < 4 ∧
    (∀ c ∈ letters, ∃ bits < 64, c = letter bits) ∧ (letters.length + pads) % 4 = 0 := by
  have bound (a : UInt8) : a.toNat < 256 := a.toNat_lt
  induction raw using encode.induct with
  | case1 => exact ⟨[], 0, rfl, by decide, fun _ mem => absurd mem List.not_mem_nil, rfl⟩
  | case2 a =>
    have a_byte := bound a
    refine ⟨[_, _], 2, rfl, by decide, ?_, by simp⟩
    simp only [List.forall_mem_cons]
    exact ⟨⟨_, by omega, rfl⟩, ⟨_, by omega, rfl⟩, fun _ mem => absurd mem List.not_mem_nil⟩
  | case3 a b =>
    have a_byte := bound a
    have b_byte := bound b
    refine ⟨[_, _, _], 1, rfl, by decide, ?_, by simp⟩
    simp only [List.forall_mem_cons]
    exact ⟨⟨_, by omega, rfl⟩, ⟨_, by omega, rfl⟩, ⟨_, by omega, rfl⟩, fun _ mem => absurd mem List.not_mem_nil⟩
  | case4 a b c rest ih =>
    have a_byte := bound a
    have b_byte := bound b
    have c_byte := bound c
    obtain ⟨letters, pads, split, few, each, groups⟩ := ih
    refine ⟨_ :: _ :: _ :: _ :: letters, pads, by rw [encode, split]; rfl, few, ?_, ?_⟩
    · simp only [List.forall_mem_cons]
      exact ⟨⟨_, by omega, rfl⟩, ⟨_, by omega, rfl⟩, ⟨_, by omega, rfl⟩, ⟨_, by omega, rfl⟩, each⟩
    · simp only [List.length_cons]
      omega

theorem unpadded_eq {letters : List Char} (each : ∀ c ∈ letters, ∃ bits < 64, c = letter bits) (pads : Nat) :
    unpadded (letters ++ List.replicate pads '=') = letters := by
  have all_pads : ∀ c ∈ List.replicate pads '=', decide (c = '=') = true := by
    intro c mem
    rw [List.eq_of_mem_replicate mem]
    rfl
  rw [unpadded, List.reverse_append, List.reverse_replicate, List.dropWhile_append_of_pos all_pads]
  have stops : letters.reverse.dropWhile (fun c => decide (c = '=')) = letters.reverse := by
    cases last : letters.reverse with
    | nil => rfl
    | cons c rest =>
      obtain ⟨bits, six, rfl⟩ := each c (List.mem_reverse.mp (last ▸ List.mem_cons_self))
      exact List.dropWhile_cons_of_neg (by simpa using (letter_plain bits six).1)
  rw [stops, List.reverse_reverse]

/-- Stripping the padding loses nothing. -/
theorem padded_unpadded (raw : List UInt8) : padded (unpadded (encode raw)) = encode raw := by
  obtain ⟨letters, pads, split, few, each, groups⟩ := encode_split raw
  have open_places : (4 - letters.length % 4) % 4 = pads := by omega
  rw [split, unpadded_eq each, padded, open_places]

/-- The text without its padding is letters only. -/
theorem mem_unpadded {raw : List UInt8} {c : Char} (mem : c ∈ unpadded (encode raw)) : ∃ bits < 64, c = letter bits := by
  obtain ⟨letters, pads, split, -, each, -⟩ := encode_split raw
  rw [split, unpadded_eq each] at mem
  exact each c mem

end Base64
