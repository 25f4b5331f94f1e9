import MootLoop.Events
import Mathlib.Tactic.Positivity

/-! Cost metering: the dated price table, the four-bucket cost of a call and the most a call may
    plausibly cost. -/

namespace MootLoop

/-- A dated price row, in dollars per million tokens. -/
structure PriceWindow where
  effective_from : Date
  effective_to : Option Date
  input_per_mtok : Rat
  output_per_mtok : Rat
  deriving DecidableEq, Repr

def PriceWindow.covers (window : PriceWindow) (on : Date) : Bool :=
  window.effective_from ≤ on ∧ window.effective_to.all (on ≤ ·)

def MODEL_OPUS := "claude-opus-4-8"
def MODEL_SONNET := "claude-sonnet-5"
def MODEL_HAIKU := "claude-haiku-4-5"
def MODEL_FABLE := "claude-fable-5"

def PRICES : List (String × List PriceWindow) :=
  [(MODEL_OPUS, [⟨date 2025 1 1, none, 5, 25⟩]),
   (MODEL_SONNET, [⟨date 2025 1 1, some (date 2026 8 31), 2, 10⟩, ⟨date 2026 9 1, none, 3, 15⟩]),
   (MODEL_HAIKU, [⟨date 2025 1 1, none, 1, 5⟩]),
   (MODEL_FABLE, [⟨date 2025 1 1, none, 10, 50⟩])]

/-- Models that cost nothing. -/
def FREE_MODELS : List String := ["fake", "seat", ""]

/-- The price-table key of a model id: stripped, without a `-dddddddd` date suffix. -/
def normalize_model (model : String) : String :=
  let chars := (strip model).toList
  let suffix := chars.drop (chars.length - 9)
  if suffix.length = 9 ∧ suffix.head? = some '-' ∧ suffix.tail.all Char.isDigit then
    String.ofList (chars.take (chars.length - 9))
  else strip model

/-- The rates of a model on a date, if it is priced. -/
def price_for (model : String) (on : Date) : Option (Rat × Rat) :=
  ((((PRICES.lookup (normalize_model model)).getD []).find? (·.covers on)).map
    fun window => (window.input_per_mtok, window.output_per_mtok))

/-- The first rates with the highest output price, `(0, 0)` of none. -/
def most_expensive_rate (on : Date) : Rat × Rat :=
  let rates := ((PRICES.flatMap (·.2)).filter (·.covers on)).map fun w => (w.input_per_mtok, w.output_per_mtok)
  match rates with
  | [] => (0, 0)
  | first :: rest => rest.foldl (fun best rate => if best.2 < rate.2 then rate else best) first

/-- The rates to meter a model at: an unpriced model costs the most there is, unless it is free. -/
def rate_for (model : String) (on : Date) : Rat × Rat :=
  match price_for model on with
  | some price => price
  | none => if normalize_model model ∈ FREE_MODELS then (0, 0) else most_expensive_rate on

/-- The metered cost of one call. -/
def cost_of (usage : TokenUsage) (model : String) (on : Date) : Rat :=
  let (rate_in, rate_out) := rate_for model on
  (usage.input_tokens * rate_in + usage.cache_write * (125 / 100) * rate_in +
    usage.cache_read * (10 / 100) * rate_in + usage.output_tokens * rate_out) / 1000000

/-- A conservative upper bound for one turn at a model's rates. -/
def max_plausible_cost (model : String) (on : Date) : Rat :=
  let (rate_in, rate_out) := rate_for model on
  (200000 * rate_in + 64000 * rate_out) / 1000000

/-! ### Rates are not negative -/

theorem prices_nonneg : ∀ entry ∈ PRICES, ∀ w ∈ entry.2, 0 ≤ w.input_per_mtok ∧ 0 ≤ w.output_per_mtok := by
  decide

theorem most_expensive_rate_nonneg (on : Date) : 0 ≤ (most_expensive_rate on).1 ∧ 0 ≤ (most_expensive_rate on).2 := by
  have listed : ∀ rate ∈ ((PRICES.flatMap (·.2)).filter (·.covers on)).map
      (fun w => (w.input_per_mtok, w.output_per_mtok)), 0 ≤ rate.1 ∧ 0 ≤ rate.2 := by
    intro rate hr
    obtain ⟨w, hw, rfl⟩ := List.mem_map.mp hr
    obtain ⟨entry, he, hw⟩ := List.mem_flatMap.mp (List.mem_filter.mp hw).1
    exact prices_nonneg entry he w hw
  simp only [most_expensive_rate]
  split
  · decide
  · next first rest h =>
    rw [h] at listed
    -- the pick stays among the listed rates
    have pick : ∀ (l : List (Rat × Rat)) (best : Rat × Rat), (0 ≤ best.1 ∧ 0 ≤ best.2) →
        (∀ rate ∈ l, 0 ≤ rate.1 ∧ 0 ≤ rate.2) →
        0 ≤ (l.foldl (fun best rate => if best.2 < rate.2 then rate else best) best).1 ∧
        0 ≤ (l.foldl (fun best rate => if best.2 < rate.2 then rate else best) best).2 := by
      intro l
      induction l with
      | nil => exact fun _ h _ => h
      | cons rate l ih =>
        intro best hb hl
        refine ih _ ?_ (fun r hr => hl r (by simp [hr]))
        dsimp only
        split
        · exact hl rate (by simp)
        · exact hb
    exact pick rest first (listed first (by simp)) (fun r hr => listed r (by simp [hr]))

/-- No model has a negative rate. -/
theorem rate_for_nonneg (model : String) (on : Date) : 0 ≤ (rate_for model on).1 ∧ 0 ≤ (rate_for model on).2 := by
  unfold rate_for
  split
  · next price h =>
    simp only [price_for, Option.map_eq_some_iff] at h
    obtain ⟨window, found, rfl⟩ := h
    have mem := List.mem_of_find?_eq_some found
    cases row : PRICES.lookup (normalize_model model) with
    | none => simp [row] at mem
    | some windows =>
      rw [row, Option.getD_some] at mem
      obtain ⟨before, after, split, _⟩ := List.lookup_eq_some_iff.mp row
      have listed : (normalize_model model, windows) ∈ PRICES := by rw [split]; simp
      exact prices_nonneg _ listed window mem
  · split
    · decide
    · exact most_expensive_rate_nonneg on

theorem max_plausible_cost_nonneg (model : String) (on : Date) : 0 ≤ max_plausible_cost model on := by
  have rates := rate_for_nonneg model on
  unfold max_plausible_cost
  generalize rate_for model on = rate at rates
  obtain ⟨rate_in, rate_out⟩ := rate
  obtain ⟨hin, hout⟩ := rates
  simp only at hin hout ⊢
  positivity

end MootLoop
