import MootLoop.Attest

/-! Text as Python reads it: line endings made one, and the lines of `str.splitlines`, which ends a line at more
    characters than `\n`. -/

namespace MootLoop

/-- The characters `str.splitlines` ends a line at. -/
def isLineBreak (c : Char) : Bool :=
  let n := c.toNat
  (10 ≤ n && n ≤ 13) || (28 ≤ n && n ≤ 30) || n == 133 || n == 8232 || n == 8233

/-- `str.splitlines`; `line` is what the current line has so far. -/
def splitlines_from (line : List Char) : List Char → List (List Char)
  | [] => if line = [] then [] else [line]
  | '\r' :: '\n' :: rest => line :: splitlines_from [] rest
  | c :: rest => if isLineBreak c then line :: splitlines_from [] rest else splitlines_from (line ++ [c]) rest

def splitlines (text : List Char) : List (List Char) := splitlines_from [] text

/-- The next line, the line and the paragraph separator end a line for `str.splitlines`, and JSON leaves them raw. -/
def isSeparator (c : Char) : Bool := c.toNat = 133 || c.toNat = 8232 || c.toNat = 8233

/-! ### Lines -/

theorem isLineBreak_high {c : Char} (visible : 32 ≤ c.toNat) : isLineBreak c = isSeparator c := by
  unfold isLineBreak isSeparator
  rw [Bool.eq_iff_iff]
  simp only [Bool.or_eq_true, Bool.and_eq_true, decide_eq_true_eq, beq_iff_eq]
  omega

theorem isSeparator_high {c : Char} (h : isSeparator c = true) : 127 ≤ c.toNat := by
  simp only [isSeparator, Bool.or_eq_true, decide_eq_true_eq] at h
  omega

/-- A text without carriage returns is read as it is. -/
theorem normalize_newlines_of_no_cr {text : List Char} (none_in : '\r' ∉ text) : normalize_newlines text = text := by
  induction text with
  | nil => rfl
  | cons c text ih =>
    have ne : c ≠ '\r' := fun same => none_in (by simp [same])
    rw [normalize_newlines, ih fun mem => none_in (List.mem_cons_of_mem _ mem)]
    · exact fun _ same => absurd same ne
    · exact fun same => absurd same ne

theorem splitlines_from_cons {line rest : List Char} {c : Char} (ne : c ≠ '\r') :
    splitlines_from line (c :: rest) =
      if isLineBreak c then line :: splitlines_from [] rest else splitlines_from (line ++ [c]) rest := by
  rw [splitlines_from]
  exact fun _ same => absurd same ne

/-- Where a line ends, another starts. -/
theorem splitlines_from_break {front rest : List Char} {c : Char} (none_in : '\r' ∉ front) (ne : c ≠ '\r')
    (ends : isLineBreak c = true) (line : List Char) :
    ∃ lines, splitlines_from line (front ++ c :: rest) = lines ++ splitlines_from [] rest := by
  induction front generalizing line with
  | nil => exact ⟨[line], by rw [List.nil_append, splitlines_from_cons ne, if_pos ends]; rfl⟩
  | cons d front ih =>
    have tail := fun mem => none_in (List.mem_cons_of_mem d mem)
    rw [List.cons_append, splitlines_from_cons fun same => none_in (by simp [same])]
    split
    · obtain ⟨lines, split⟩ := ih tail []
      exact ⟨line :: lines, by rw [split]; rfl⟩
    · exact ih tail _

theorem splitlines_from_line_append {rest : List Char} (none_in : ∀ c ∈ rest, isLineBreak c = false)
    (line more : List Char) :
    splitlines_from line (rest ++ '\n' :: more) = (line ++ rest) :: splitlines_from [] more := by
  induction rest generalizing line with
  | nil => rw [List.nil_append, splitlines_from_cons (by decide), if_pos (by decide), List.append_nil]
  | cons c rest ih =>
    have here := none_in c List.mem_cons_self
    have ne : c ≠ '\r' := by
      rintro rfl
      exact absurd here (by decide)
    rw [List.cons_append, splitlines_from_cons ne, here]
    simp only [Bool.false_eq_true, if_false]
    rw [ih (fun d mem => none_in d (List.mem_cons_of_mem _ mem))]
    simp

theorem splitlines_from_line {rest : List Char} (none_in : ∀ c ∈ rest, isLineBreak c = false) (line : List Char) :
    splitlines_from line (rest ++ ['\n']) = [line ++ rest] :=
  splitlines_from_line_append none_in line []

/-- Lines without a break in them are the lines of the text they make. -/
theorem splitlines_lines {lines : List (List Char)} (none_in : ∀ line ∈ lines, ∀ c ∈ line, isLineBreak c = false) :
    splitlines (lines.flatMap (· ++ ['\n'])) = lines := by
  induction lines with
  | nil => rfl
  | cons line lines ih =>
    rw [List.flatMap_cons, List.append_assoc, List.singleton_append, splitlines,
      splitlines_from_line_append (none_in line List.mem_cons_self), List.nil_append, ← splitlines,
      ih fun line mem => none_in line (List.mem_cons_of_mem _ mem)]

end MootLoop
