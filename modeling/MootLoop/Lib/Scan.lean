import Mathlib.Data.List.Infix

/-! All matches of a pattern in a text, left to right and without overlap. Where no match begins inside another
    one, they are the matches at all places of the text. -/

namespace Scan

variable {α : Type}

/-- The matches from the first place past `skip`; `read` is the match that begins a text, if one does. -/
def findall (read : List α → Option (List α)) : Nat → List α → List (List α)
  | _, [] => []
  | skip + 1, _ :: rest => findall read skip rest
  | 0, a :: rest =>
    match read (a :: rest) with
    | some found => found :: findall read (found.length - 1) rest
    | none => findall read 0 rest

/-- No match begins inside another. -/
def Separate (read : List α → Option (List α)) : Prop :=
  ∀ text found, read text = some found → ∀ k, 0 < k → k < found.length → read (text.drop k) = none

variable {read : List α → Option (List α)}

/-- Places where no match begins may be skipped. -/
theorem findall_skip {skip : Nat} {text : List α} (none_skipped : ∀ k < skip, read (text.drop k) = none) :
    findall read skip text = findall read 0 text := by
  induction text generalizing skip with
  | nil => cases skip <;> rfl
  | cons a rest ih =>
    cases skip with
    | zero => rfl
    | succ skip =>
      have here : read (a :: rest) = none := none_skipped 0 (Nat.succ_pos skip)
      have later : ∀ k < skip, read (rest.drop k) = none := fun k lt =>
        none_skipped (k + 1) (Nat.succ_lt_succ lt)
      rw [findall, findall, here]
      exact ih later

theorem findall_cons (separate : Separate read) (a : α) (rest : List α) :
    findall read 0 (a :: rest) = (read (a :: rest)).toList ++ findall read 0 rest := by
  rw [findall]
  split
  · next found reads =>
    have inside : ∀ k < found.length - 1, read (rest.drop k) = none := fun k lt =>
      separate _ _ reads (k + 1) (Nat.succ_pos k) (by omega)
    rw [findall_skip inside, reads]
    rfl
  · next reads =>
    rw [reads]
    rfl

/-- The matches are those at all places. -/
theorem mem_findall (separate : Separate read) {text found : List α} :
    found ∈ findall read 0 text ↔ ∃ rest, rest <:+ text ∧ rest ≠ [] ∧ read rest = some found := by
  induction text with
  | nil =>
    refine ⟨fun mem => absurd mem List.not_mem_nil, ?_⟩
    rintro ⟨rest, suffix, nonempty, -⟩
    exact absurd (List.suffix_nil.mp suffix) nonempty
  | cons a rest ih =>
    rw [findall_cons separate, List.mem_append, ih, Option.mem_toList]
    constructor
    · rintro (here | ⟨later, suffix, nonempty, reads⟩)
      · exact ⟨a :: rest, List.suffix_refl _, by simp, here⟩
      · exact ⟨later, suffix.trans (List.suffix_cons a rest), nonempty, reads⟩
    · rintro ⟨later, suffix, nonempty, reads⟩
      rcases List.suffix_cons_iff.mp suffix with rfl | suffix
      · exact Or.inl reads
      · exact Or.inr ⟨later, suffix, nonempty, reads⟩

end Scan
