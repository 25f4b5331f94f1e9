import MootLoop.Orchestrator

/-! What the planner is asked to guarantee: the slots it plans turns for, the outputs a turn may be completed with,
    and the order of stages under which every stage finds what it reads. -/

namespace MootLoop

/-! ### Slots -/

/-- A logical turn slot of a request, numbered from one within its kind. -/
inductive Slot where
  | draft (r : Nat)
  | critique (r : Nat)
  | oc_attack (k : Nat)
  | bolster (k : Nat)
  | judge (j : Nat)
  | rubric_loop (r : Nat)
  | rubric_final (m : Nat)
  | restructure (k : Nat)
  | jury (j : Nat)
  deriving DecidableEq, Repr

namespace Slot

def seq (l : SlotLayout) : Slot → Nat
  | .draft r => l.draft r
  | .critique r => l.critique r
  | .oc_attack k => l.oc_slot k
  | .bolster k => l.bolster_slot k
  | .judge j => l.judge_slot j
  | .rubric_loop r => l.rubric_loop r
  | .rubric_final m => l.rubric_final m
  | .restructure k => l.restructure_slot k
  | .jury j => l.jury_slot j

def number : Slot → Nat
  | .draft n | .critique n | .oc_attack n | .bolster n | .judge n | .rubric_loop n | .rubric_final n
  | .restructure n | .jury n => n

/-- How many slots of its kind the layout has. -/
def room (l : SlotLayout) : Slot → Nat
  | .draft _ | .critique _ | .rubric_loop _ => l.ap
  | .oc_attack _ => l.oc
  | .bolster _ => l.bolster
  | .judge _ => l.judges
  | .rubric_final _ => l.rubric_panel
  | .restructure _ => l.restructure
  | .jury _ => l.jurors

/-- The layout has the slot. -/
def Within (l : SlotLayout) (slot : Slot) : Prop := 1 ≤ slot.number ∧ slot.number ≤ slot.room l

/-- The schema a slot's output is validated by; both panels sit in the judges' slots. -/
def schema (panel : SchemaName) : Slot → SchemaName
  | .draft _ | .bolster _ | .restructure _ => .draft
  | .critique _ | .oc_attack _ => .critique
  | .judge _ => panel
  | .rubric_loop _ | .rubric_final _ => .rubric_score
  | .jury _ => .juror

/-- The stages that plan a slot. -/
def planned_by : Slot → List StageName
  | .draft r => if r = 1 then [.associate_draft] else [.partner_loop]
  | .critique _ | .rubric_loop _ => [.partner_loop]
  | .oc_attack _ => [.oc_attack]
  | .bolster _ => [.bolster]
  | .judge _ => [.judge_panel, .narrative_assessment]
  | .rubric_final _ => [.rubric_gate]
  | .restructure _ => [.restructure]
  | .jury _ => [.jury_panel]

end Slot

/-- The outputs a schema validates. -/
def SchemaName.accepts : SchemaName → TurnOutput → Bool
  | .draft, .draft _ | .critique, .critique _ | .judge, .judge _ | .narrative_assessment, .narrative _
  | .juror, .juror _ | .rubric_score, .rubric _ | .cite_check, .cite_check _ => true
  | _, _ => false

/-! ### Stage orders -/

/-- The panel that rules first, whose outputs the judges' slots then have. -/
def first_panel (stages : List StageName) : Option StageName :=
  stages.find? fun stage => stage = .judge_panel ∨ stage = .narrative_assessment

def panel_schema (stages : List StageName) : SchemaName :=
  if first_panel stages = some .narrative_assessment then .narrative_assessment else .judge

/-- Whether the stages before a stage leave what it reads: a draft to review, a panel to restructure from, a draft
    to show the jury. -/
def prepared (config : TaskAdapterConfig) (before : List StageName) : StageName → Bool
  | .partner_loop => .associate_draft ∈ before
  | .restructure =>
    match first_panel before with
    | some .judge_panel => true
    | some _ => config.input_family = .document
    | none => false
  | .jury_panel =>
    !config.panels.jury || .associate_draft ∈ before || (.bolster ∈ before && 1 ≤ config.loop_caps.bolster)
  | _ => true

/-- Every stage is prepared by the stages before it. -/
def well_ordered_from (config : TaskAdapterConfig) : List StageName → List StageName → Bool
  | _, [] => true
  | before, stage :: rest => prepared config before stage && well_ordered_from config (before ++ [stage]) rest

def WellOrdered (config : TaskAdapterConfig) : Prop := well_ordered_from config [] config.stages = true

instance (config : TaskAdapterConfig) : Decidable (WellOrdered config) := inferInstanceAs (Decidable (_ = true))

/-- The graphs of the shipped task adapters. -/
def SHIPPED_GRAPHS : InputFamily → List (List StageName)
  | .discovery =>
    [[.associate_draft, .partner_loop, .oc_attack, .bolster, .judge_panel, .restructure, .jury_panel, .rubric_gate, .assemble],
     [.associate_draft, .oc_attack, .bolster, .partner_loop, .judge_panel, .restructure, .jury_panel, .rubric_gate, .assemble]]
  | .document =>
    [[.associate_draft, .partner_loop, .oc_attack, .bolster, .narrative_assessment, .rubric_gate, .assemble],
     [.associate_draft, .oc_attack, .bolster, .partner_loop, .narrative_assessment, .rubric_gate, .assemble]]

/-- What `compile_pipeline` leaves of a graph when the partner, opposing counsel, the judge or the rubric judge is
    bypassed. -/
def compiled_stages (graph : List StageName) (partner oc judge rubric : Bool) : List StageName :=
  graph.filter fun stage =>
    match stage with
    | .partner_loop => partner
    | .oc_attack | .bolster => oc
    | .judge_panel | .narrative_assessment | .restructure => judge
    | .rubric_gate => rubric
    | _ => true

/-- The compiled stage lists of the shipped graphs. -/
def SHIPPED_SHAPES (family : InputFamily) : List (List StageName) :=
  (SHIPPED_GRAPHS family).flatMap fun graph =>
    [true, false].flatMap fun partner => [true, false].flatMap fun oc =>
      [true, false].flatMap fun judge => [true, false].map fun rubric => compiled_stages graph partner oc judge rubric

/-! ### Completing planned turns -/

variable (x : Externals)

/-- The operative draft, if it is shown to a jury, fits the jury's prompt. -/
def StageContext.JuryFits (ctx : StageContext) : Prop :=
  ctx.config.panels.jury = true → ∀ draft, ctx.operative_draft = some draft →
    (x.json_dumps draft.output).utf8ByteSize ≤ MAX_JURY_DRAFT_BYTES

/-- `validate_presence_criteria`: every deterministic criterion of the rubric has a checker. -/
def Rubric.Known (rubric : Rubric) : Prop := ∀ c ∈ rubric.criteria, c.kind = .present → (presence_check x c.id).isSome

/-- One planned turn of some request is completed, with an output its schema accepts. -/
inductive Completes (context : RunContext) (state : RunState) : RunState → Prop
  | turn {tier_models : List (Role × String)} {assembled_context : List AssembledContextItem} {ctx : StageContext}
      {specs : List TurnSpec} {spec : TurnSpec} {output : TurnOutput} {gate_results : List GateResult}
      {completed_at : String} (unit : ctx ∈ contexts context state tier_models assembled_context)
      (planned : plan_request x ctx = .ok specs) (chosen : spec ∈ specs)
      (valid : spec.output_schema_name.accepts output = true) :
      Completes context state (state.apply (.turn_completed { spec, output, gate_results, completed_at }))

/-- Planning is sound at a state: no request's planning raises, nothing is planned that is completed or planned
    already, and a request plans nothing exactly when it is complete. -/
structure PlansSoundly (context : RunContext) (state : RunState) (tier_models : List (Role × String))
    (assembled_context : List AssembledContextItem) : Prop where
  never_raises : ∃ plans, (contexts context state tier_models assembled_context).mapM (plan_request x) = .ok plans ∧
    (plans.flatten.map (·.turn_id)).Nodup ∧ ∀ spec ∈ plans.flatten, state.is_completed spec.turn_id = false
  never_wedges : ∀ ctx ∈ contexts context state tier_models assembled_context, ∃ specs complete,
    plan_request x ctx = .ok specs ∧ request_complete x ctx = .ok complete ∧ (specs = [] ↔ complete = true)

/-- Planning a request neither raises nor leaves it incomplete with nothing planned. -/
def StageContext.NeverStuck (ctx : StageContext) : Prop :=
  ∃ specs complete, plan_request x ctx = .ok specs ∧ request_complete x ctx = .ok complete ∧ (specs = [] → complete = true)

/-- Every draft of a run that shows drafts to a jury fits the jury's prompt. -/
def DraftsFit (context : RunContext) (state : RunState) : Prop :=
  context.config.panels.jury = true → ∀ record ∈ state.completed_turns.values, ∀ draft, record.output = .draft draft →
    (x.json_dumps record.output).utf8ByteSize ≤ MAX_JURY_DRAFT_BYTES

end MootLoop
