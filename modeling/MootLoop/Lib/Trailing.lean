import Mathlib.Data.List.DropRight
import Mathlib.Data.List.GetD
import Mathlib.Data.List.SplitOn

/-! Lists up to what trails: elements a predicate holds of at the end, and empty lines after the last line of a text. -/

namespace Trailing

variable {α : Type}

/-- A common start, each continued by trailing elements only. -/
def Same (p : α → Bool) (l l' : List α) : Prop :=
  ∃ core tail tail', (∀ a ∈ tail, p a = true) ∧ (∀ a ∈ tail', p a = true) ∧ l = core ++ tail ∧ l' = core ++ tail'

theorem rdropWhile_append {p : α → Bool} {core tail : List α} (trails : ∀ a ∈ tail, p a = true) :
    (core ++ tail).rdropWhile p = core.rdropWhile p := by
  induction tail using List.reverseRecOn with
  | nil => rw [List.append_nil]
  | append_singleton tail a ih =>
    rw [← List.append_assoc, List.rdropWhile_concat_pos _ _ _ (trails a (by simp))]
    exact ih fun b mem => trails b (List.mem_append_left _ mem)

theorem split_trailing (p : α → Bool) (l : List α) : ∃ tail, (∀ a ∈ tail, p a = true) ∧ l = l.rdropWhile p ++ tail :=
  ⟨l.rtakeWhile p, fun _ => List.mem_rtakeWhile_imp, List.rdropWhile_append_rtakeWhile.symm⟩

/-- Two lists are the same up to what trails exactly when they are without it. -/
theorem same_iff {p : α → Bool} {l l' : List α} : Same p l l' ↔ l.rdropWhile p = l'.rdropWhile p := by
  constructor
  · rintro ⟨core, tail, tail', trails, trails', rfl, rfl⟩
    rw [rdropWhile_append trails, rdropWhile_append trails']
  · intro same
    obtain ⟨tail, trails, split⟩ := split_trailing p l
    obtain ⟨tail', trails', split'⟩ := split_trailing p l'
    exact ⟨l.rdropWhile p, tail, tail', trails, trails', split, by rw [same]; exact split'⟩

/-! ### Empty lines at the end -/

/-- The lines up to the last that is not empty. -/
def trim (lines : List (List α)) : List (List α) := lines.rdropWhile List.isEmpty

theorem trim_snoc_nil (lines : List (List α)) : trim (lines ++ [[]]) = trim lines :=
  List.rdropWhile_concat_pos _ _ _ rfl

theorem trim_snoc_of_ne {lines : List (List α)} {line : List α} (ne : line ≠ []) :
    trim (lines ++ [line]) = lines ++ [line] :=
  List.rdropWhile_concat_neg _ _ _ (by simpa using ne)

theorem getD_snoc_nil (lines : List (List α)) (i : Nat) : (lines ++ [[]]).getD i [] = lines.getD i [] := by
  rcases Nat.lt_or_ge i lines.length with lt | ge
  · rw [List.getD_append _ _ _ _ lt]
  · rw [List.getD_append_right _ _ _ _ ge, List.getD_eq_default _ _ ge]
    cases i - lines.length <;> rfl

theorem getD_trim (lines : List (List α)) (i : Nat) : (trim lines).getD i [] = lines.getD i [] := by
  induction lines using List.reverseRecOn with
  | nil => rfl
  | append_singleton lines line ih =>
    rcases eq_or_ne line [] with rfl | ne
    · rw [trim_snoc_nil, ih, getD_snoc_nil]
    · rw [trim_snoc_of_ne ne]

/-- The last of the trimmed lines is not empty. -/
theorem getD_trim_last (lines : List (List α)) (some_line : trim lines ≠ []) :
    (trim lines).getD ((trim lines).length - 1) [] ≠ [] := by
  have last := List.rdropWhile_last_not List.isEmpty lines some_line
  have room : (trim lines).length - 1 < (trim lines).length := Nat.sub_one_lt (by simpa using some_line)
  rw [List.getD_eq_getElem _ _ room, ← List.getLast_eq_getElem some_line]
  exact fun empty => last (by rw [List.isEmpty_iff]; exact empty)

theorem trim_length_le {lines lines' : List (List α)} (same : ∀ i, lines.getD i [] = lines'.getD i []) :
    (trim lines).length ≤ (trim lines').length := by
  rcases eq_or_ne (trim lines) [] with none_left | some_line
  · rw [none_left]
    exact Nat.zero_le _
  · by_contra shorter
    refine getD_trim_last lines some_line ?_
    rw [getD_trim, same, ← getD_trim lines', List.getD_eq_default]
    omega

/-- Line by line the same lines have the same lines before the empty ones at their end. -/
theorem trim_eq_iff {lines lines' : List (List α)} :
    trim lines = trim lines' ↔ ∀ i, lines.getD i [] = lines'.getD i [] := by
  constructor
  · intro same i
    rw [← getD_trim, same, getD_trim]
  · intro same
    refine List.ext_getElem (Nat.le_antisymm (trim_length_le same) (trim_length_le fun i => (same i).symm)) fun i left right => ?_
    rw [← List.getD_eq_getElem _ [] left, ← List.getD_eq_getElem _ [] right, getD_trim, getD_trim, same]

/-! ### Lines joined to a text -/

variable [DecidableEq α] {nl : α}

omit [DecidableEq α] in
theorem not_mem_intercalate {lines : List (List α)} {a : α} (ne : a ≠ nl) (apart : ∀ line ∈ lines, a ∉ line) :
    a ∉ [nl].intercalate lines := by
  induction lines with
  | nil => exact List.not_mem_nil
  | cons first rest ih =>
    have here := apart first List.mem_cons_self
    have later := ih fun line mem => apart line (List.mem_cons_of_mem _ mem)
    rcases eq_or_ne rest [] with rfl | more
    · simpa using here
    · rw [List.intercalate_cons_of_ne_nil more]
      simp [here, ne, later]

omit [DecidableEq α] in
theorem intercalate_snoc {lines : List (List α)} (line : List α) (some_line : lines ≠ []) :
    [nl].intercalate (lines ++ [line]) = [nl].intercalate lines ++ nl :: line := by
  induction lines with
  | nil => exact absurd rfl some_line
  | cons first rest ih =>
    rcases eq_or_ne rest [] with rfl | more
    · simp
    · rw [List.cons_append, List.intercalate_cons_of_ne_nil (by simp), ih more, List.intercalate_cons_of_ne_nil more]
      simp

/-- Without the separators at its end, a text is joined from its lines up to the last that is not empty. -/
theorem rdropWhile_intercalate {lines : List (List α)} (apart : ∀ line ∈ lines, nl ∉ line) :
    ([nl].intercalate lines).rdropWhile (· = nl) = [nl].intercalate (trim lines) := by
  induction lines using List.reverseRecOn with
  | nil => rfl
  | append_singleton lines line ih =>
    have ih := ih fun line mem => apart line (List.mem_append_left _ mem)
    rcases eq_or_ne line [] with rfl | ne
    · rw [trim_snoc_nil, ← ih]
      rcases eq_or_ne lines [] with rfl | some_line
      · rfl
      · rw [intercalate_snoc [] some_line, List.rdropWhile_concat_pos _ _ _ (by simp)]
    · rw [trim_snoc_of_ne ne]
      obtain ⟨front, last, rfl⟩ := (List.eq_nil_or_concat' line).resolve_left ne
      have stays : last ≠ nl := by
        rintro rfl
        exact apart (front ++ [last]) (by simp) (by simp)
      have joined : ∃ before, [nl].intercalate (lines ++ [front ++ [last]]) = before ++ [last] := by
        rcases eq_or_ne lines [] with rfl | some_line
        · exact ⟨front, by simp⟩
        · exact ⟨[nl].intercalate lines ++ nl :: front, by rw [intercalate_snoc _ some_line]; simp⟩
      obtain ⟨before, joined⟩ := joined
      rw [joined, List.rdropWhile_concat_neg _ _ _ (by simpa using stays)]

theorem splitOn_trim {lines : List (List α)} (apart : ∀ line ∈ lines, nl ∉ line) (some_line : trim lines ≠ []) :
    ([nl].intercalate (trim lines)).splitOn nl = trim lines :=
  List.splitOn_intercalate nl (fun line mem => apart line ((List.rdropWhile_prefix _ _).subset mem)) some_line

theorem intercalate_trim_eq_nil {lines : List (List α)} (apart : ∀ line ∈ lines, nl ∉ line)
    (empty : [nl].intercalate (trim lines) = []) : trim lines = [] := by
  by_contra some_line
  have split := splitOn_trim apart some_line
  rw [empty, List.splitOn_nil] at split
  have last := getD_trim_last lines some_line
  rw [← split] at last
  exact last rfl

/-- Trimmed lines joined to the same text are the same. -/
theorem intercalate_trim_inj {lines lines' : List (List α)} (apart : ∀ line ∈ lines, nl ∉ line)
    (apart' : ∀ line ∈ lines', nl ∉ line) (same : [nl].intercalate (trim lines) = [nl].intercalate (trim lines')) :
    trim lines = trim lines' := by
  rcases eq_or_ne (trim lines) [] with none_left | some_line
  · rw [none_left, List.intercalate_nil] at same
    rw [none_left, intercalate_trim_eq_nil apart' same.symm]
  · rcases eq_or_ne (trim lines') [] with none_left | some_line'
    · rw [none_left, List.intercalate_nil] at same
      exact absurd (intercalate_trim_eq_nil apart same) some_line
    · rw [← splitOn_trim apart some_line, same, splitOn_trim apart' some_line']

end Trailing
