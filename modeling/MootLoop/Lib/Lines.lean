import Mathlib.Data.List.Induction
import Mathlib.Data.List.Infix

/-! Logs of terminated records in one sequence of symbols: the committed prefix, which ends with the last terminator,
    and the complete lines in it. What follows the committed prefix is a torn record. -/

namespace Lines

variable {α : Type} [DecidableEq α] (nl : α)

/-- Empty, or ended by a terminator. -/
def Terminated (l : List α) : Prop := l = [] ∨ l.getLast? = some nl

/-- The prefix that ends with the last terminator. -/
def committed (l : List α) : List α := (l.reverse.dropWhile (· ≠ nl)).reverse

/-- The complete lines, without their terminators; `line` is what the current one has so far. -/
def complete_from (line : List α) : List α → List (List α)
  | [] => []
  | a :: rest => if a = nl then line :: complete_from [] rest else complete_from (line ++ [a]) rest

def complete (l : List α) : List (List α) := complete_from nl [] l

variable {nl}

/-! ### The committed prefix -/

theorem Terminated.append {l m : List α} (hl : Terminated nl l) (hm : Terminated nl m) : Terminated nl (l ++ m) := by
  rcases hm with rfl | hm
  · simpa using hl
  · exact .inr (by simp [List.getLast?_append, hm])

theorem terminated_snoc (l : List α) : Terminated nl (l ++ [nl]) := .inr (by simp)

theorem committed_nil : committed nl [] = [] := rfl

theorem committed_snoc_nl (l : List α) : committed nl (l ++ [nl]) = l ++ [nl] := by
  simp [committed]

theorem committed_snoc {l : List α} {a : α} (ne : a ≠ nl) : committed nl (l ++ [a]) = committed nl l := by
  simp [committed, ne]

theorem committed_terminated (l : List α) : Terminated nl (committed nl l) := by
  induction l using List.reverseRecOn with
  | nil => exact .inl rfl
  | append_singleton l a ih =>
    by_cases end_ : a = nl
    · subst end_
      rw [committed_snoc_nl]
      exact terminated_snoc l
    · rwa [committed_snoc end_]

theorem committed_initial (l : List α) : committed nl l <+: l := by
  induction l using List.reverseRecOn with
  | nil => exact List.prefix_rfl
  | append_singleton l a ih =>
    by_cases end_ : a = nl
    · subst end_
      rw [committed_snoc_nl]
    · rw [committed_snoc end_]
      exact ih.trans (List.prefix_append l [a])

theorem Terminated.committed {l : List α} (h : Terminated nl l) : committed nl l = l := by
  rcases h with rfl | h
  · rfl
  · obtain ⟨front, rfl⟩ := List.getLast?_eq_some_iff.mp h
    exact committed_snoc_nl front

/-- Nothing after a terminated prefix takes from it. -/
theorem committed_append {l m : List α} (h : Terminated nl l) : committed nl (l ++ m) = l ++ committed nl m := by
  induction m using List.reverseRecOn with
  | nil => simpa [committed_nil] using h.committed
  | append_singleton m a ih =>
    rw [← List.append_assoc]
    by_cases end_ : a = nl
    · subst end_
      rw [committed_snoc_nl, committed_snoc_nl, List.append_assoc]
    · rw [committed_snoc end_, committed_snoc end_, ih]

/-- Every terminated prefix lies in the committed one. -/
theorem Terminated.prefix_committed {p l : List α} (terminated : Terminated nl p) (h : p <+: l) :
    p <+: Lines.committed nl l := by
  obtain ⟨rest, rfl⟩ := h
  rw [committed_append terminated]
  exact List.prefix_append p _

theorem committed_eq_nil {l : List α} (h : nl ∉ l) : committed nl l = [] := by
  induction l using List.reverseRecOn with
  | nil => rfl
  | append_singleton l a ih =>
    have ne : a ≠ nl := fun same => h (by simp [same])
    rw [committed_snoc ne]
    exact ih fun mem => h (List.mem_append_left _ mem)

/-! ### Complete lines -/

theorem complete_from_append (line l m : List α) (h : Terminated nl l) (started : l = [] → line = []) :
    complete_from nl line (l ++ m) = complete_from nl line l ++ complete_from nl [] m := by
  induction l generalizing line with
  | nil => simp [started rfl, complete_from]
  | cons a l ih =>
    have tail : Terminated nl l := by
      cases l with
      | nil => exact .inl rfl
      | cons b l => exact .inr (by simpa [Terminated] using h)
    by_cases end_ : a = nl
    · simp only [List.cons_append, complete_from, if_pos end_]
      rw [ih [] tail fun _ => rfl]
    · have goes_on : l ≠ [] := by
        rintro rfl
        simp [Terminated, end_] at h
      simp only [List.cons_append, complete_from, if_neg end_]
      exact ih (line ++ [a]) tail fun empty => absurd empty goes_on

theorem complete_append {l m : List α} (h : Terminated nl l) : complete nl (l ++ m) = complete nl l ++ complete nl m :=
  complete_from_append [] l m h fun _ => rfl

theorem complete_from_no_nl (line : List α) {l : List α} (h : nl ∉ l) : complete_from nl line l = [] := by
  induction l generalizing line with
  | nil => rfl
  | cons a l ih =>
    have ne : a ≠ nl := fun same => h (by simp [same])
    rw [complete_from, if_neg ne]
    exact ih _ fun mem => h (List.mem_cons_of_mem _ mem)

/-- The torn tail has no complete line. -/
theorem complete_committed (l : List α) : complete nl (committed nl l) = complete nl l := by
  obtain ⟨tail, split⟩ : committed nl l <+: l := committed_initial l
  have torn : nl ∉ tail := by
    intro mem
    obtain ⟨front, back, rfl⟩ := List.append_of_mem mem
    have longer : committed nl l ++ (front ++ [nl]) <+: committed nl l := by
      refine Terminated.prefix_committed (.append (committed_terminated l) (terminated_snoc front)) ?_
      exact ⟨back, by simpa using split⟩
    have length := longer.length_le
    simp only [List.length_append, List.length_singleton] at length
    omega
  conv_rhs => rw [← split]
  rw [complete_append (committed_terminated l), complete, complete, complete_from_no_nl _ torn, List.append_nil]

theorem complete_from_record (line record : List α) (h : nl ∉ record) :
    complete_from nl line (record ++ [nl]) = [line ++ record] := by
  induction record generalizing line with
  | nil => simp [complete_from]
  | cons a record ih =>
    have ne : a ≠ nl := fun same => h (by simp [same])
    rw [List.cons_append, complete_from, if_neg ne, ih _ fun mem => h (List.mem_cons_of_mem _ mem)]
    simp

/-- A record without the terminator is one line. -/
theorem complete_record {record : List α} (h : nl ∉ record) : complete nl (record ++ [nl]) = [record] :=
  complete_from_record [] record h

end Lines
