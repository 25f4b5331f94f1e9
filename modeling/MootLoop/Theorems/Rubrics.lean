import MootLoop.Lib.Sorted
import MootLoop.Theorems.Runs
import Mathlib.Algebra.Order.BigOperators.Group.List
import Mathlib.Data.Option.Basic
import Mathlib.Tactic.Linarith
import Mathlib.Tactic.Positivity

/-! The final rubric score: a weighted mean of medians. It lies in `[0, 1]`, does not see the order of the judges, and
    never falls when a judge raises a score. -/

namespace MootLoop.Rubric

open List (Forall₂)

/-! ### Medians -/

theorem median_perm {xs ys : List Rat} (same : xs.Perm ys) : median xs = median ys := by
  simp only [median, same.insertionSort_eq]

theorem median_mono {xs ys : List Rat} (below : Forall₂ (· ≤ ·) xs ys) : median xs ≤ median ys := by
  have sorted := List.forall₂_insertionSort below
  simp only [median, sorted.length_eq]
  split
  · exact sorted.getD_le _
  · have low := sorted.getD_le (d := 0) ((ys.insertionSort (· ≤ ·)).length / 2 - 1)
    have high := sorted.getD_le (d := 0) ((ys.insertionSort (· ≤ ·)).length / 2)
    linarith

theorem median_bounds {values : List Rat} (bounds : ∀ v ∈ values, 0 ≤ v ∧ v ≤ 5) :
    0 ≤ median values ∧ median values ≤ 5 := by
  have entry (i : Nat) :
      0 ≤ (values.insertionSort (· ≤ ·)).getD i 0 ∧ (values.insertionSort (· ≤ ·)).getD i 0 ≤ 5 := by
    rw [List.getD_eq_getElem?_getD]
    cases at_i : (values.insertionSort (· ≤ ·))[i]? with
    | none => exact ⟨le_refl _, by norm_num⟩
    | some v => exact bounds v ((List.mem_insertionSort _).mp (List.mem_of_getElem? at_i))
  simp only [median]
  split
  · exact entry _
  · obtain ⟨low, low'⟩ := entry ((values.insertionSort (· ≤ ·)).length / 2 - 1)
    obtain ⟨high, high'⟩ := entry ((values.insertionSort (· ≤ ·)).length / 2)
    constructor <;> linarith

/-! ### Weighted means -/

/-- The mean of scores out of five, by their weights. -/
def weighted_mean (scored : List (Rat × Rat)) : Rat :=
  if (scored.map (·.1)).sum > 0 then (scored.map fun ws => ws.1 * (ws.2 / 5)).sum / (scored.map (·.1)).sum else 0

/-- The same weights, with scores at least as high. -/
def Outscored (a b : Rat × Rat) : Prop := a.1 = b.1 ∧ a.2 ≤ b.2

theorem weighted_mean_bounds {scored : List (Rat × Rat)} (weights : ∀ ws ∈ scored, 0 ≤ ws.1)
    (scores : ∀ ws ∈ scored, 0 ≤ ws.2 ∧ ws.2 ≤ 5) : 0 ≤ weighted_mean scored ∧ weighted_mean scored ≤ 1 := by
  unfold weighted_mean
  split
  · rename_i pos
    have num_nonneg : 0 ≤ (scored.map fun ws => ws.1 * (ws.2 / 5)).sum := by
      refine List.sum_nonneg fun v mem => ?_
      obtain ⟨ws, in_scored, rfl⟩ := List.mem_map.mp mem
      exact mul_nonneg (weights ws in_scored) (div_nonneg (scores ws in_scored).1 (by norm_num))
    have num_le : (scored.map fun ws => ws.1 * (ws.2 / 5)).sum ≤ (scored.map (·.1)).sum := by
      refine List.sum_le_sum fun ws in_scored => ?_
      have share : ws.2 / 5 ≤ 1 := by linarith [(scores ws in_scored).2]
      exact mul_le_of_le_one_right (weights ws in_scored) share
    exact ⟨div_nonneg num_nonneg pos.le, div_le_one_of_le₀ num_le pos.le⟩
  · exact ⟨le_refl _, by norm_num⟩

theorem weighted_mean_mono {scored scored' : List (Rat × Rat)} (weights : ∀ ws ∈ scored, 0 ≤ ws.1)
    (raised : Forall₂ Outscored scored scored') : weighted_mean scored ≤ weighted_mean scored' := by
  have sums : (scored.map (·.1)).sum = (scored'.map (·.1)).sum ∧
      (scored.map fun ws => ws.1 * (ws.2 / 5)).sum ≤ (scored'.map fun ws => ws.1 * (ws.2 / 5)).sum := by
    induction raised with
    | nil => exact ⟨rfl, le_refl _⟩
    | @cons a b as bs higher _ ih =>
      obtain ⟨same, le⟩ := higher
      obtain ⟨denoms, nums⟩ := ih fun ws mem => weights ws (List.mem_cons_of_mem _ mem)
      have first : a.1 * (a.2 / 5) ≤ b.1 * (b.2 / 5) := by
        rw [← same]
        exact mul_le_mul_of_nonneg_left (by linarith) (weights a List.mem_cons_self)
      simp only [List.map_cons, List.sum_cons]
      exact ⟨by rw [same, denoms], add_le_add first nums⟩
  unfold weighted_mean
  rw [← sums.1]
  split
  · rename_i pos
    exact div_le_div_of_nonneg_right sums.2 pos.le
  · exact le_refl _

/-! ### The panel -/

variable {rubric : Rubric} {panel panel' : List (List (String × Nat))} {code : String}

/-- The scores the judges give a criterion. -/
def panel_scores (panel : List (List (String × Nat))) (id : String) : List Rat :=
  panel.filterMap fun judge => (judge.lookup id).map fun score : Nat => (score : Rat)

def panel_median (panel : List (List (String × Nat))) (id : String) : Option Rat :=
  if panel_scores panel id = [] then none else some (median (panel_scores panel id))

/-- The weight and the median of each criterion that some judge scored. -/
def scored (rubric : Rubric) (panel : List (List (String × Nat))) (code : String) : List (Rat × Rat) :=
  (rubric.correctness_criteria code).filterMap fun crit => (panel_median panel crit.id).map fun score => (crit.weight, score)

theorem aggregate_panel_snd :
    (rubric.aggregate_panel panel code).2 =
      (rubric.correctness_criteria code).filterMap fun crit => (panel_median panel crit.id).map (crit.id, ·) := by
  refine List.filterMap_congr fun crit _ => ?_
  have vals : (panel.filterMap fun judge => (judge.lookup crit.id).map fun score => (score : Rat)) =
      panel_scores panel crit.id := List.filterMap_congr fun judge _ => by cases judge.lookup crit.id <;> rfl
  simp only [panel_median, vals]
  split <;> rfl

theorem lookup_medians {criteria : List Criterion} {f : String → Option Rat} {crit : Criterion} (mem : crit ∈ criteria) :
    (criteria.filterMap fun c => (f c.id).map (c.id, ·)).lookup crit.id = f crit.id := by
  induction criteria with
  | nil => cases mem
  | cons c criteria ih =>
    by_cases same : crit.id = c.id
    · cases median : f c.id with
      | some score => simp [median, same]
      | none =>
        rw [List.filterMap_cons_none (by rw [median]; rfl)]
        by_cases later : crit ∈ criteria
        · exact ih later
        · rw [same, median, List.lookup_eq_none_iff]
          intro entry entry_mem
          obtain ⟨c', _, entry_eq⟩ := List.mem_filterMap.mp entry_mem
          obtain ⟨score, score_eq, rfl⟩ := Option.map_eq_some_iff.mp entry_eq
          refine bne_iff_ne.mpr fun eq : c.id = c'.id => ?_
          rw [← eq, median] at score_eq
          cases score_eq
    · have later : crit ∈ criteria := (List.mem_cons.mp mem).resolve_left fun eq => same (congrArg Criterion.id eq)
      cases median : f c.id with
      | some score => simpa [median, List.lookup_cons, beq_eq_false_iff_ne.mpr same] using ih later
      | none => simpa [median] using ih later

/-- The composite is the weighted mean of the criteria's medians. -/
theorem aggregate_panel_fst : (rubric.aggregate_panel panel code).1 = weighted_mean (rubric.scored panel code) := by
  have scores : ((rubric.correctness_criteria code).filterMap fun crit =>
      ((rubric.aggregate_panel panel code).2.lookup crit.id).map fun score => (crit.weight, score)) =
      rubric.scored panel code := by
    refine List.filterMap_congr fun crit mem => ?_
    rw [aggregate_panel_snd, lookup_medians mem]
  change rubric.weighted_score (rubric.aggregate_panel panel code).2 code = _
  simp only [weighted_score, scores, weighted_mean]

theorem weight_nonneg (weights : ∀ c ∈ rubric.criteria, 0 ≤ c.weight) :
    ∀ ws ∈ rubric.scored panel code, 0 ≤ ws.1 := by
  intro ws mem
  obtain ⟨crit, in_code, ws_eq⟩ := List.mem_filterMap.mp mem
  obtain ⟨score, _, rfl⟩ := Option.map_eq_some_iff.mp ws_eq
  exact weights crit (List.mem_of_mem_filter in_code)

theorem score_bounds (scores : ∀ judge ∈ panel, ∀ entry ∈ judge, entry.2 ≤ 5) :
    ∀ ws ∈ rubric.scored panel code, 0 ≤ ws.2 ∧ ws.2 ≤ 5 := by
  intro ws mem
  obtain ⟨crit, _, ws_eq⟩ := List.mem_filterMap.mp mem
  obtain ⟨score, median_eq, rfl⟩ := Option.map_eq_some_iff.mp ws_eq
  unfold panel_median at median_eq
  split at median_eq
  · cases median_eq
  · cases median_eq
    refine median_bounds fun v v_mem => ?_
    obtain ⟨judge, in_panel, v_eq⟩ := List.mem_filterMap.mp v_mem
    obtain ⟨s, found, rfl⟩ := Option.map_eq_some_iff.mp v_eq
    obtain ⟨before, after, judge_eq, _⟩ := List.lookup_eq_some_iff.mp found
    have le : s ≤ 5 := scores judge in_panel (crit.id, s) (by simp [judge_eq])
    exact ⟨Nat.cast_nonneg s, by exact_mod_cast le⟩

/-! ### Order and monotonicity -/

theorem panel_median_perm (same : panel.Perm panel') (id : String) : panel_median panel' id = panel_median panel id := by
  have scores : (panel_scores panel id).Perm (panel_scores panel' id) := same.filterMap _
  unfold panel_median
  rw [median_perm scores]
  by_cases none_scored : panel_scores panel id = []
  · rw [none_scored] at scores
    rw [if_pos none_scored, if_pos (List.nil_perm.mp scores)]
  · have some_scored : panel_scores panel' id ≠ [] := by
      intro h
      rw [h] at scores
      exact none_scored (List.perm_nil.mp scores)
    rw [if_neg none_scored, if_neg some_scored]

theorem aggregate_panel_perm (same : panel.Perm panel') :
    rubric.aggregate_panel panel' code = rubric.aggregate_panel panel code := by
  refine Prod.ext ?_ ?_
  · simp only [aggregate_panel_fst, scored, panel_median_perm same]
  · simp only [aggregate_panel_snd, panel_median_perm same]

/-- The judge scores the same criteria, each at least as high. -/
def Raised (judge judge' : List (String × Nat)) : Prop :=
  ∀ id, Option.Rel (· ≤ ·) (judge.lookup id) (judge'.lookup id)

theorem panel_scores_mono (raised : Forall₂ Raised panel panel') (id : String) :
    Forall₂ (· ≤ ·) (panel_scores panel id) (panel_scores panel' id) := by
  unfold panel_scores
  induction raised with
  | nil => exact .nil
  | @cons judge judge' _ _ higher _ ih =>
    have rel := higher id
    cases found : judge.lookup id <;> cases found' : judge'.lookup id <;> rw [found, found'] at rel
    · simpa [found, found'] using ih
    · cases rel
    · cases rel
    · cases rel with
      | some le => simpa [found, found'] using ⟨le, ih⟩

theorem scored_mono (raised : Forall₂ Raised panel panel') :
    Forall₂ Outscored (rubric.scored panel code) (rubric.scored panel' code) := by
  unfold scored
  induction rubric.correctness_criteria code with
  | nil => exact .nil
  | cons crit criteria ih =>
    have scores := panel_scores_mono raised crit.id
    by_cases none_scored : panel_scores panel crit.id = []
    · have none_scored' : panel_scores panel' crit.id = [] := by
        rw [none_scored] at scores
        exact List.forall₂_nil_left_iff.mp scores
      simpa [panel_median, none_scored, none_scored'] using ih
    · have some_scored : panel_scores panel' crit.id ≠ [] := by
        intro h
        rw [h] at scores
        exact none_scored (List.forall₂_nil_right_iff.mp scores)
      simp only [List.filterMap_cons, panel_median, if_neg none_scored, if_neg some_scored, Option.map_some]
      exact .cons ⟨rfl, median_mono scores⟩ ih

theorem final_gate_pass_iff {x : Externals} {threshold : Rat} :
    (final_gate x rubric panel code threshold).status = .pass ↔ threshold ≤ (rubric.aggregate_panel panel code).1 := by
  by_cases reached : threshold ≤ (rubric.aggregate_panel panel code).1
  · simp [final_gate, reached]
  · simp [final_gate, reached]

namespace Sample

def two_criteria : Rubric where
  rubric_id := "answers"
  version := "1"
  criteria := [⟨"accuracy", "Accuracy", "True to the record", .correct, 2, "rog"⟩,
    ⟨"clarity", "Clarity", "Plain words", .correct, 1, "all"⟩]

/-- The second judge leaves clarity out. -/
def seats : List (List (String × Nat)) := [[("accuracy", 2), ("clarity", 5)], [("accuracy", 4)]]

def higher_seats : List (List (String × Nat)) := [[("accuracy", 3), ("clarity", 5)], [("accuracy", 4)]]

theorem seats_raised : Forall₂ Raised seats higher_seats := by
  refine .cons (fun id => ?_) (.cons (fun id => ?_) .nil)
  · by_cases accuracy : id = "accuracy"
    · subst accuracy
      exact .some (by decide)
    · have same : List.lookup id [("accuracy", 2), ("clarity", 5)] = List.lookup id [("accuracy", 3), ("clarity", 5)] := by
        simp only [List.lookup_cons, beq_eq_false_iff_ne.mpr accuracy]
      rw [same]
      cases List.lookup id [("accuracy", 3), ("clarity", 5)] with
      | none => exact .none
      | some score => exact .some (Nat.le_refl score)
  · cases List.lookup id [("accuracy", 4)] with
    | none => exact .none
    | some score => exact .some (Nat.le_refl score)

end Sample

end MootLoop.Rubric
