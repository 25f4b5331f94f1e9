import Mathlib.Algebra.Order.BigOperators.Group.List
import MootLoop.Budget
import MootLoop.Stages

/-! What a run may come to before it starts: the most turns a request can take under its pipeline, and the range of
    calls and dollars that a pre-run estimate shows. -/

namespace MootLoop

/-- Maximum provider calls per request for an exact effective graph. -/
def pipeline_turn_ceiling (config : TaskAdapterConfig) (rubric_enabled : Bool) : Nat :=
  let stages := config.stages
  let ap := config.loop_caps.associate_partner
  let partner_calls :=
    if .partner_loop ∈ stages then 2 * ap + (if rubric_enabled then ap else 0) else 1
  partner_calls
    + (if .oc_attack ∈ stages then config.loop_caps.oc else 0)
    + (if .bolster ∈ stages then config.loop_caps.bolster else 0)
    + (if .judge_panel ∈ stages ∨ .narrative_assessment ∈ stages then config.panels.judges else 0)
    + (if .restructure ∈ stages then config.loop_caps.restructure else 0)
    + (if .jury_panel ∈ stages ∧ config.panels.jury then config.panels.jurors else 0)
    + (if .rubric_gate ∈ stages then config.panels.rubric_judges else 0)

/-! ### The pre-run estimate -/

/-- Per-call token assumptions a pre-run estimate rests on. -/
structure EstimateAssumptions where
  uncached_in : Nat := 8000
  cache_read : Nat := 15000
  out_personas : Nat := 1500
  out_judges : Nat := 800
  out_rubric : Nat := 600
  out_cite : Nat := 400
  objections_per_request : Nat := 3
  derail_factor : Rat := 11 / 10
  deriving DecidableEq, Repr

def EstimateAssumptions.output_for (assume : EstimateAssumptions) : Role → Nat
  | .personas => assume.out_personas
  | .judges => assume.out_judges
  | .rubric => assume.out_rubric
  | .cite => assume.out_cite

structure StageEstimate where
  stage : String
  role : Role
  model : String
  min_calls : Int
  max_calls : Int
  min_usd : Rat
  max_usd : Rat
  deriving DecidableEq, Repr

structure EstimateRange where
  tier : String
  requests : Nat
  min_usd : Rat
  max_usd : Rat
  breakdown : List StageEstimate
  deriving DecidableEq, Repr

/-- The model of each role in a budget tier: personas stay on one model, the others move down the ladder. -/
def TIERS : List (String × List (Role × String)) :=
  [("no-budget", [(.personas, MODEL_OPUS), (.judges, MODEL_OPUS), (.rubric, MODEL_OPUS), (.cite, MODEL_OPUS)]),
   ("moderate", [(.personas, MODEL_OPUS), (.judges, MODEL_SONNET), (.rubric, MODEL_SONNET), (.cite, MODEL_HAIKU)]),
   ("low", [(.personas, MODEL_OPUS), (.judges, MODEL_HAIKU), (.rubric, MODEL_HAIKU), (.cite, MODEL_HAIKU)])]

/-- `tier_models`, with the text of its `BudgetError`. -/
def models_of_tier (tier : String) : Except String (List (Role × String)) :=
  match TIERS.lookup tier with
  | some models => .ok models
  | none => .error s!"unknown budget tier '{tier}'; known tiers: low, moderate, no-budget"

def _call_cost (role : Role) (model : String) (on : Date) (assume : EstimateAssumptions) : Rat :=
  cost_of { input_tokens := assume.uncached_in, cache_read := assume.cache_read, cache_write := 0,
            output_tokens := assume.output_for role, model } model on

/-- A stage's calls per request: the fewest, where every loop converges after one round, and the most. -/
structure PlannedCalls where
  stage : String
  role : Role
  min_per : Int
  max_per : Int
  deriving DecidableEq, Repr

/-- The rows one stage adds to the plan of an estimate. -/
def stage_calls (config : TaskAdapterConfig) (obj : Nat) (stage : StageName) : List PlannedCalls :=
  let ap : Int := config.loop_caps.associate_partner
  let judges := config.panels.judges
  let jurors := if config.panels.jury then config.panels.jurors else 0
  match stage with
  | .associate_draft => [⟨stage.value, .personas, 1, 1⟩]
  | .partner_loop =>
    [⟨"partner_loop:redraft", .personas, 0, ap - 1⟩, ⟨"partner_loop:critique", .personas, 1, ap⟩] ++
      if "rubric" ∈ config.gates then [⟨"partner_loop:rubric", .rubric, 1, ap⟩] else []
  | .oc_attack => [⟨stage.value, .personas, config.loop_caps.oc, config.loop_caps.oc⟩]
  | .bolster => [⟨stage.value, .personas, config.loop_caps.bolster, config.loop_caps.bolster⟩]
  | .narrative_assessment => [⟨stage.value, .judges, judges, judges⟩]
  | .judge_panel => [⟨stage.value, .judges, judges * obj, judges * obj⟩]
  -- a costed restructure fires only when an objection is weak
  | .restructure => [⟨stage.value, .personas, 0, config.loop_caps.restructure⟩]
  | .jury_panel => if jurors ≠ 0 then [⟨stage.value, .judges, jurors, jurors⟩] else []
  | .rubric_gate => [⟨stage.value, .rubric, config.panels.rubric_judges, config.panels.rubric_judges⟩]
  | .assemble | .citation_proposition => []

/-- The row of an estimate, with its cost before rounding. -/
def stage_estimate (models : List (Role × String)) (request_count : Nat) (on : Date) (assume : EstimateAssumptions)
    (planned : PlannedCalls) : StageEstimate :=
  let model := (models.lookup planned.role).getD ""
  let per_call := _call_cost planned.role model on assume
  let min_calls := planned.min_per * request_count
  let max_calls := planned.max_per * request_count
  { stage := planned.stage, role := planned.role, model, min_calls, max_calls,
    min_usd := min_calls * per_call * assume.derail_factor, max_usd := max_calls * per_call * assume.derail_factor }

/-- Pre-run cost range for a task; `round4` is `round(…, 4)`. -/
def estimate_run (round4 : Rat → Rat) (request_count : Nat) (config : TaskAdapterConfig) (tier : String) (on : Date)
    (assume : EstimateAssumptions) : Except String EstimateRange := do
  let models ← models_of_tier tier
  let plan := config.stages.flatMap (stage_calls config assume.objections_per_request)
  let rows := plan.map (stage_estimate models request_count on assume)
  return {
    tier, requests := request_count
    min_usd := round4 (rows.map (·.min_usd)).sum
    max_usd := round4 (rows.map (·.max_usd)).sum
    breakdown := rows.map fun row => { row with min_usd := round4 row.min_usd, max_usd := round4 row.max_usd } }

end MootLoop
