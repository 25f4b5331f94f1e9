import MootLoop.Externals
import MootLoop.Matter
import Mathlib.Algebra.Order.Ring.Rat

/-! Launch configuration: the task adapter, the rubric, the compiled pipeline, the served units,
    and the run context every later operation reads from the launch snapshot. -/

namespace MootLoop

/-! ### Rubric -/

inductive CriterionKind where
  | present
  | correct
  deriving DecidableEq, Repr

structure Criterion where
  id : String
  name : String
  description : String
  kind : CriterionKind
  weight : Rat
  applies_to : String
  deriving DecidableEq, Repr

structure Rubric where
  rubric_id : String
  version : String
  criteria : List Criterion
  deriving DecidableEq, Repr

namespace Rubric

def for_code (rubric : Rubric) (kind : CriterionKind) (code : String) : List Criterion :=
  rubric.criteria.filter fun c => c.kind = kind ∧ (c.applies_to = code ∨ c.applies_to = "all")

def presence_criteria (rubric : Rubric) (code : String) : List Criterion := rubric.for_code .present code
def correctness_criteria (rubric : Rubric) (code : String) : List Criterion := rubric.for_code .correct code

/-- Weighted correctness score in `[0, 1]`, over the applicable criteria that have a score. -/
def weighted_score (rubric : Rubric) (scores : List (String × Rat)) (code : String) : Rat :=
  let scored := (rubric.correctness_criteria code).filterMap fun crit =>
    (scores.lookup crit.id).map fun score => (crit.weight, score)
  let num := (scored.map fun ws => ws.1 * (ws.2 / 5)).sum
  let denom := (scored.map (·.1)).sum
  if denom > 0 then num / denom else 0

/-- `_median`, of a list that is not empty. -/
def median (values : List Rat) : Rat :=
  let ordered := values.insertionSort (· ≤ ·)
  let mid := ordered.length / 2
  if ordered.length % 2 = 1 then ordered.getD mid 0
  else (ordered.getD (mid - 1) 0 + ordered.getD mid 0) / 2

/-- Median-per-criterion aggregation across the judge panel, and the medians it was built from. -/
def aggregate_panel (rubric : Rubric) (panel : List (List (String × Nat))) (code : String) :
    Rat × List (String × Rat) :=
  let per_criterion := (rubric.correctness_criteria code).filterMap fun crit =>
    let vals := panel.filterMap fun judge => (judge.lookup crit.id).map fun score => (score : Rat)
    if vals = [] then none else some (crit.id, median vals)
  (rubric.weighted_score per_criterion code, per_criterion)

/-- The final rubric gate: pass iff the weighted median composite reaches the threshold. -/
def final_gate (x : Externals) (rubric : Rubric) (panel : List (List (String × Nat))) (code : String)
    (threshold : Rat) : GateResult :=
  let (composite, per_criterion) := rubric.aggregate_panel panel code
  let entries := (per_criterion.insertionSort fun a b => a.1 ≤ b.1).map fun entry =>
    s!"{entry.1}={x.format_general entry.2}"
  let locator := if entries = [] then none else some (", ".intercalate entries)
  let composite_text := x.format_fixed3 composite
  let threshold_text := x.format_fixed3 threshold
  if composite ≥ threshold then
    { gate := "rubric", status := .pass,
      findings := [{ code := "rubric_met", locator,
                     message := s!"weighted median {composite_text} >= {threshold_text}" }] }
  else
    { gate := "rubric", status := .fail,
      findings := [{ code := "rubric_below_threshold", locator,
                     message := s!"weighted median {composite_text} < {threshold_text}" }] }

end Rubric

/-! ### Task adapter configuration -/

structure LoopCaps where
  associate_partner : Nat := 2
  oc : Nat := 1
  bolster : Nat := 1
  restructure : Nat := 1
  deriving DecidableEq, Repr

structure PanelConfig where
  judges : Nat := 3
  jury : Bool := false
  jurors : Nat := 0
  rubric_judges : Nat := 3
  deriving DecidableEq, Repr

structure ConvergenceConfig where
  score_delta_floor : Rat := 2 / 100
  material_change_floor : Rat := 10 / 100
  coverage_floor : Rat := 80 / 100
  deriving DecidableEq, Repr

structure TaskAdapterConfig where
  task : String
  input_family : InputFamily := .discovery
  stages : List StageName
  loop_caps : LoopCaps := {}
  panels : PanelConfig := {}
  convergence : ConvergenceConfig := {}
  gates : List String
  rubric_id : String
  rubric_threshold : Rat := 75 / 100
  restructure_threshold : Rat := 1 / 2
  deriving DecidableEq, Repr

/-- The task-specific instructions the stages inject. -/
structure TaskAdapter where
  task : String
  draft_directive : String
  judge_question : String
  deriving DecidableEq, Repr

inductive PipelineStrategy where
  | thin_full
  | deep_core
  | adversarial_first
  deriving DecidableEq, Repr

def SELECTABLE_PIPELINE_PERSONAS : List PersonaName :=
  [.associate, .partner, .oc_associate, .oc_partner, .judge, .rubric_judge]

/-- What `ResolvedPipeline` and its configuration validate: panel sizes, ownership and the stage graph. -/
structure OwnsPipeline (strategy : PipelineStrategy) (config : TaskAdapterConfig)
    (drafting : PersonaName) (oc active : List PersonaName) : Prop where
  rounds_pos : 1 ≤ config.loop_caps.associate_partner
  judges_pos : 1 ≤ config.panels.judges
  rubric_judges_pos : 1 ≤ config.panels.rubric_judges
  jurors_pos : config.panels.jury = true → 1 ≤ config.panels.jurors
  drafting_active : drafting ∈ active
  oc_active : oc = [.oc_associate, .oc_partner].filter (· ∈ active)
  selectable : active = SELECTABLE_PIPELINE_PERSONAS.filter (· ∈ active)
  stages_nodup : config.stages.Nodup
  ends_with_assemble : config.stages.getLast? = some .assemble
  known : .citation_proposition ∉ config.stages
  drafts : .associate_draft ∈ config.stages
  partner_owned : .partner ∈ active → .partner_loop ∈ config.stages
  oc_owned : oc ≠ [] ↔ .oc_attack ∈ config.stages
  judge_owned : .judge ∈ active ↔ .judge_panel ∈ config.stages ∨ .narrative_assessment ∈ config.stages
  rubric_owned : .rubric_judge ∈ active ↔ .rubric_gate ∈ config.stages
  rubric_gated : .rubric_gate ∈ config.stages ↔ "rubric" ∈ config.gates
  deep_core : strategy = .deep_core → .associate ∈ active ∧ .partner ∈ active ∧
    3 ≤ config.loop_caps.associate_partner ∧
    ∀ stage ∈ [.oc_attack, .judge_panel, .narrative_assessment, .rubric_gate], stage ∈ config.stages →
      config.stages.idxOf .partner_loop ≤ config.stages.idxOf stage
  adversarial : strategy = .adversarial_first → oc ≠ [] ∧
    (.partner_loop ∈ config.stages → config.stages.idxOf .oc_attack ≤ config.stages.idxOf .partner_loop)

/-- The graph and owners committed at launch. -/
structure ResolvedPipeline where
  strategy : PipelineStrategy
  effective_config : TaskAdapterConfig
  drafting_persona : PersonaName
  oc_personas : List PersonaName
  active_personas : List PersonaName
  owns : OwnsPipeline strategy effective_config drafting_persona oc_personas active_personas

def ResolvedPipeline.rubric_judge_enabled (pipeline : ResolvedPipeline) : Bool :=
  .rubric_judge ∈ pipeline.active_personas

/-! ### Facts -/

structure Fact where
  fact_id : FactId
  statement : String
  quotes : List String := []
  version : Nat := 1
  deriving DecidableEq, Repr

structure DocumentEvidence where
  source_id : String
  text : String
  deriving DecidableEq, Repr

/-! ### The run context -/

inductive RunMode where
  | autonomous
  | gated
  | observed
  deriving DecidableEq, Repr

/-- The launch snapshot of one run, as `load_run_context` returns it. -/
structure RunContext where
  run_id : RunId
  task : String
  rubric : Rubric
  adapter : TaskAdapter
  pipeline : ResolvedPipeline
  request_sets : List RequestSet := []
  document_units : List DocumentUnit := []
  facts : List Fact
  evidence : List DocumentEvidence := []
  corpus_text : String := ""
  assembled_context : List AssembledContextItem := []
  matter : MatterConfig
  run_mode : RunMode := .autonomous
  max_attempts : Nat := 3
  hard_cap_usd : Option Rat := none
  tier_models : List (Role × String)
  persona_bodies : List (PersonaName × String)
  request_identity : RequestIdentity request_sets
  document_identity : (document_units.map (·.unit_id)).Nodup

namespace RunContext

def config (context : RunContext) : TaskAdapterConfig := context.pipeline.effective_config

def task_units (context : RunContext) : List TaskUnit :=
  if context.config.input_family = .document then context.document_units.map .document
  else (units_of context.request_sets).map .request

/-- No two units share an identity. -/
theorem units_nodup (context : RunContext) : (context.task_units.map TaskUnit.request_id).Nodup := by
  unfold task_units
  split
  · simpa [Function.comp_def, TaskUnit.request_id] using context.document_identity
  · simpa [Function.comp_def, TaskUnit.request_id] using context.request_identity.units_nodup

end RunContext

end MootLoop
