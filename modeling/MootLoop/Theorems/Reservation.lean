import MootLoop.Budget
import Mathlib.Tactic.Linarith
import Mathlib.Tactic.Ring
import Mathlib.Tactic.NormNum

/-! When the reserved cost of a turn covers the metered one: the output rate is five times the input rate in every
    row of the price table, so tokens compare by weight, and only the surcharge on cache writes can break the bound. -/

namespace MootLoop

variable {model : String} {on : Date}

/-- The first date any row of the table is in effect. -/
def PRICES_FROM : Date := date 2025 1 1

/-- The rows of the table: none is in effect before its first date, and output costs five times input. -/
theorem prices_rows : ∀ entry ∈ PRICES, ∀ w ∈ entry.2,
    PRICES_FROM ≤ w.effective_from ∧ 0 < w.input_per_mtok ∧ w.output_per_mtok = 5 * w.input_per_mtok := by
  decide +kernel

theorem prices_not_free : ∀ entry ∈ PRICES, entry.1 ∉ FREE_MODELS := by decide

/-- The rates of a row in effect. -/
def RowRates (on : Date) (rates : Rat × Rat) : Prop :=
  ∃ entry ∈ PRICES, ∃ w ∈ entry.2, w.covers on = true ∧ rates = (w.input_per_mtok, w.output_per_mtok)

theorem RowRates.dated {rates : Rat × Rat} (h : RowRates on rates) :
    PRICES_FROM ≤ on ∧ 0 < rates.1 ∧ rates.2 = 5 * rates.1 := by
  obtain ⟨entry, listed, w, row, covers, rfl⟩ := h
  obtain ⟨first, positive, ratio⟩ := prices_rows entry listed w row
  simp only [PriceWindow.covers, Bool.decide_and, Bool.and_eq_true, decide_eq_true_eq] at covers
  exact ⟨first.trans covers.1, positive, ratio⟩

theorem price_for_row {price : Rat × Rat} (h : price_for model on = some price) :
    RowRates on price ∧ normalize_model model ∉ FREE_MODELS := by
  simp only [price_for, Option.map_eq_some_iff] at h
  obtain ⟨w, found, rfl⟩ := h
  have mem := List.mem_of_find?_eq_some found
  have covers : w.covers on = true := by simpa using List.find?_some found
  generalize normalize_model model = key at mem ⊢
  cases row : PRICES.lookup key with
  | none => simp [row] at mem
  | some windows =>
    rw [row, Option.getD_some] at mem
    obtain ⟨before, after, split, -⟩ := List.lookup_eq_some_iff.mp row
    have listed : (key, windows) ∈ PRICES := by rw [split]; simp
    have paid := prices_not_free (key, windows) listed
    exact ⟨⟨(key, windows), listed, w, mem, covers, rfl⟩, paid⟩

theorem rate_for_priced {price : Rat × Rat} (h : price_for model on = some price) : rate_for model on = price := by
  unfold rate_for
  simp only [h]

theorem rate_for_free (h : price_for model on = none) (free : normalize_model model ∈ FREE_MODELS) :
    rate_for model on = (0, 0) := by
  unfold rate_for
  simp only [h, free, if_true]

theorem rate_for_unpriced (h : price_for model on = none) (paid : normalize_model model ∉ FREE_MODELS) :
    rate_for model on = most_expensive_rate on := by
  unfold rate_for
  simp only [h, paid, if_false]

/-- A pick among rates is one of them. -/
theorem pick_mem (rest : List (Rat × Rat)) (best : Rat × Rat) :
    rest.foldl (fun best rate => if best.2 < rate.2 then rate else best) best ∈ best :: rest := by
  induction rest generalizing best with
  | nil => exact List.mem_singleton_self _
  | cons rate rest ih =>
    rw [List.foldl_cons]
    by_cases dearer : best.2 < rate.2
    · rw [if_pos dearer]
      exact List.mem_cons_of_mem _ (ih rate)
    · rw [if_neg dearer]
      rcases List.mem_cons.mp (ih best) with same | later
      · exact List.mem_cons.mpr (.inl same)
      · exact List.mem_cons_of_mem _ (List.mem_cons_of_mem _ later)

/-- From its first date on the table always has a row in effect. -/
theorem most_expensive_rate_row (priced : PRICES_FROM ≤ on) : RowRates on (most_expensive_rate on) := by
  have opus : (⟨date 2025 1 1, none, 5, 25⟩ : PriceWindow) ∈ (PRICES.flatMap (·.2)).filter (·.covers on) := by
    refine List.mem_filter.mpr ⟨by decide, ?_⟩
    have covers : PRICES_FROM ≤ on ∧ True := ⟨priced, trivial⟩
    simpa [PriceWindow.covers, PRICES_FROM] using covers
  have mem : most_expensive_rate on ∈
      ((PRICES.flatMap (·.2)).filter (·.covers on)).map fun w => (w.input_per_mtok, w.output_per_mtok) := by
    simp only [most_expensive_rate]
    split
    · next empty =>
      rw [List.map_eq_nil_iff] at empty
      rw [empty] at opus
      cases opus
    · next first rest listed =>
      rw [listed]
      exact pick_mem rest first
  obtain ⟨w, covered, same⟩ := List.mem_map.mp mem
  obtain ⟨row, covers⟩ := List.mem_filter.mp covered
  obtain ⟨entry, listed, row⟩ := List.mem_flatMap.mp row
  exact ⟨entry, listed, w, row, covers, same.symm⟩

theorem most_expensive_rate_unpriced (early : on < PRICES_FROM) : most_expensive_rate on = (0, 0) := by
  have none_covers : (PRICES.flatMap (·.2)).filter (·.covers on) = [] := by
    refine List.filter_eq_nil_iff.mpr fun w mem covers => ?_
    obtain ⟨entry, listed, row⟩ := List.mem_flatMap.mp mem
    have dated := RowRates.dated ⟨entry, listed, w, row, covers, rfl⟩
    exact absurd dated.1 (Nat.not_le.mpr early)
  simp only [most_expensive_rate, none_covers, List.map_nil]

/-- A model meters at nothing when it is free or the date is before the table, and otherwise at a row's rates. -/
theorem rate_for_cases (model : String) (on : Date) :
    ((normalize_model model ∈ FREE_MODELS ∨ on < PRICES_FROM) ∧ rate_for model on = (0, 0)) ∨
      (¬(normalize_model model ∈ FREE_MODELS ∨ on < PRICES_FROM) ∧ RowRates on (rate_for model on)) := by
  cases priced : price_for model on with
  | some price =>
    obtain ⟨row, paid⟩ := price_for_row priced
    rw [rate_for_priced priced]
    exact .inr ⟨not_or.mpr ⟨paid, Nat.not_lt.mpr row.dated.1⟩, row⟩
  | none =>
    by_cases free : normalize_model model ∈ FREE_MODELS
    · exact .inl ⟨.inl free, rate_for_free priced free⟩
    · rw [rate_for_unpriced priced free]
      rcases Nat.lt_or_ge on PRICES_FROM with early | dated
      · exact .inl ⟨.inr early, most_expensive_rate_unpriced early⟩
      · exact .inr ⟨not_or.mpr ⟨free, Nat.not_lt.mpr dated⟩, most_expensive_rate_row dated⟩

/-- At a row's rates the bound compares token counts by weight, in twentieths of an input token. -/
theorem cost_le_iff_weight {rates : Rat × Rat} (positive : 0 < rates.1) (ratio : rates.2 = 5 * rates.1)
    (same : rate_for model on = rates) (usage : TokenUsage) :
    cost_of usage model on ≤ max_plausible_cost model on ↔
      20 * usage.input_tokens + 25 * usage.cache_write + 2 * usage.cache_read + 100 * usage.output_tokens ≤ 10400000 := by
  have cost : cost_of usage model on = rates.1 / 20000000 * ((20 * usage.input_tokens + 25 * usage.cache_write +
      2 * usage.cache_read + 100 * usage.output_tokens : Nat) : Rat) := by
    simp only [cost_of, same, ratio]
    push_cast
    ring
  have bound : max_plausible_cost model on = rates.1 / 20000000 * ((10400000 : Nat) : Rat) := by
    simp only [max_plausible_cost, same, ratio]
    norm_num
    ring
  have unit : 0 < rates.1 / 20000000 := by positivity
  rw [cost, bound, mul_le_mul_iff_right₀ unit, Nat.cast_le]

namespace Sample

def cached (cache_write output_tokens : Nat) : TokenUsage where
  input_tokens := 0
  cache_read := 0
  cache_write
  output_tokens
  model := MODEL_OPUS

end Sample

end MootLoop
