import MootLoop.Panels
import MootLoop.Events

/-! Per-request stage behaviours. A request advances through the stages of its pipeline; each stage
    knows when it is complete and which turns must run next. Turn ids are a function of a per-request
    slot layout, so a discarded turn is planned again under the same id. -/

namespace MootLoop

def JUDGE_LENSES : List String := ["correctness", "strategy", "grounding"]
def JUROR_LENSES : List String := ["clarity", "chronology", "credibility", "persuasion", "practicality"]
def MAX_JURY_DRAFT_BYTES : Nat := 32 * 1024

/-! ### Slot layout -/

/-- Maps logical turn slots to stable per-request sequence numbers. -/
structure SlotLayout where
  run_id : RunId
  req_index : Nat
  ap : Nat
  oc : Nat
  bolster : Nat
  judges : Nat
  rubric_panel : Nat
  restructure : Nat := 0
  jurors : Nat := 0
  deriving DecidableEq, Repr

namespace SlotLayout

def block (l : SlotLayout) : Nat :=
  2 * l.ap + l.oc + l.bolster + l.judges + l.ap + l.rubric_panel + l.restructure + l.jurors

def base (l : SlotLayout) : Nat := l.req_index * l.block

def draft (l : SlotLayout) (r : Nat) : Nat := l.base + 2 * (r - 1)
def critique (l : SlotLayout) (r : Nat) : Nat := l.base + 2 * (r - 1) + 1
def oc_slot (l : SlotLayout) (k : Nat) : Nat := l.base + 2 * l.ap + (k - 1)
def bolster_slot (l : SlotLayout) (k : Nat) : Nat := l.base + 2 * l.ap + l.oc + (k - 1)
def judge_slot (l : SlotLayout) (j : Nat) : Nat := l.base + 2 * l.ap + l.oc + l.bolster + (j - 1)
def rubric_base (l : SlotLayout) : Nat := l.base + 2 * l.ap + l.oc + l.bolster + l.judges
def rubric_loop (l : SlotLayout) (r : Nat) : Nat := l.rubric_base + (r - 1)
def rubric_final (l : SlotLayout) (m : Nat) : Nat := l.rubric_base + l.ap + (m - 1)
def restructure_slot (l : SlotLayout) (k : Nat) : Nat := l.rubric_base + l.ap + l.rubric_panel + (k - 1)
def jury_slot (l : SlotLayout) (j : Nat) : Nat :=
  l.rubric_base + l.ap + l.rubric_panel + l.restructure + (j - 1)

def turn_id (l : SlotLayout) (seq : Nat) : TurnId := l.run_id ++ "-t" ++ pad4 seq

end SlotLayout

/-! ### Stage context -/

/-- The inputs one request's stages see. -/
structure StageContext where
  run : RunContext
  req_index : Nat
  request : TaskUnit
  state : RunState
  tier_models : List (Role × String) := []
  assembled_context : List AssembledContextItem := []

/-- `1, …, n`. -/
def upto (n : Nat) : List Nat := List.range' 1 n

/-- `n, …, 1`. -/
def downfrom (n : Nat) : List Nat := (upto n).reverse

/-- Items whose task and persona scopes admit the turn; personas outside the drafting side only see
    items that name them. -/
def items_for_turn (items : List AssembledContextItem) (task : String) (persona : PersonaName) :
    List AssembledContextItem :=
  let in_task := fun (item : AssembledContextItem) => item.task_scope.isEmpty || task ∈ item.task_scope
  if persona = .associate ∨ persona = .partner then
    items.filter fun item => in_task item && (item.persona_scope.isEmpty || persona ∈ item.persona_scope)
  else
    items.filter fun item => persona ∈ item.persona_scope && in_task item

namespace StageContext
variable (ctx : StageContext)

def config : TaskAdapterConfig := ctx.run.config

def layout : SlotLayout where
  run_id := ctx.run.run_id
  req_index := ctx.req_index
  ap := ctx.config.loop_caps.associate_partner
  oc := ctx.config.loop_caps.oc
  bolster := ctx.config.loop_caps.bolster
  judges := ctx.config.panels.judges
  rubric_panel := ctx.config.panels.rubric_judges
  restructure := ctx.config.loop_caps.restructure
  jurors := if ctx.config.panels.jury then ctx.config.panels.jurors else 0

/-- The request family code, for rubric scoping. -/
def code : String :=
  match ctx.request with
  | .document _ => "document"
  | .request item => code_from_request_id item.request_id

def done (seq : Nat) : Bool := ctx.state.is_completed (ctx.layout.turn_id seq)

/-- The completed record of a slot; a slot that has none raises. -/
def record (seq : Nat) : Except Error TurnRecord :=
  match ctx.state.completed_turns.get? (ctx.layout.turn_id seq) with
  | some record => .ok record
  | none => .error (.value s!"no completed turn {ctx.layout.turn_id seq}")

/-- The completed record of a slot, if any. -/
def record? (seq : Nat) : Option TurnRecord := ctx.state.completed_turns.get? (ctx.layout.turn_id seq)

def attempt (seq : Nat) : Nat := (ctx.state.discarded.get? (ctx.layout.turn_id seq)).getD 0 + 1

def fact_ids : List FactId :=
  if ctx.config.input_family = .document then
    (ctx.assembled_context.filter fun item => "document:".toList.isPrefixOf item.context_id.toList).map fun item =>
      String.ofList ((item.provenance_locator.toList.reverse.takeWhile (· ≠ '#')).reverse)
  else ctx.run.facts.map (·.fact_id)

/-- The applicable correctness criteria, as shown to the rubric judge. -/
def correctness_payload : List CriterionPayload :=
  (ctx.run.rubric.correctness_criteria ctx.code).map fun c =>
    { id := c.id, name := c.name, description := c.description }

/-- The injected inputs every stage starts from. -/
def base_context (persona : PersonaName) : PromptContext where
  request_id := some ctx.request.request_id
  request_text := some ctx.request.text
  input_family := some ctx.config.input_family
  required_sections := some ((ctx.run.rubric.presence_criteria ctx.code).map (·.name))
  approved_context := some (items_for_turn ctx.assembled_context ctx.run.adapter.task persona)

/-- The spec of a slot's next attempt; a redo carries the last discard's detail. -/
def spec (seq : Nat) (persona : PersonaName) (stage : StageName) (schema : SchemaName)
    (extra : PromptContext → PromptContext) : TurnSpec :=
  let context := extra (ctx.base_context persona)
  let feedback := ctx.state.discard_details.get? (ctx.layout.turn_id seq)
  let context :=
    if ctx.attempt seq > 1 then { context with previous_attempt_rejected_because := feedback } else context
  { turn_id := ctx.layout.turn_id seq, run_id := ctx.run.run_id, persona,
    request_id := some ctx.request.request_id, stage, prompt_context := context,
    output_schema_name := schema, attempt := ctx.attempt seq,
    model := ctx.tier_models.lookup persona.role }

/-! ### Draft accessors -/

/-- The record of the first of these slots that is done. -/
def first_done (slots : List Nat) : Option TurnRecord := slots.findSome? ctx.record?

/-- The most recent associate draft of the partner loop. -/
def latest_draft : Option TurnRecord :=
  ctx.first_done ((downfrom ctx.config.loop_caps.associate_partner).map ctx.layout.draft)

def bolster_slots_down : List Nat := (downfrom ctx.config.loop_caps.bolster).map ctx.layout.bolster_slot

/-- The draft reviewed in a partner round, including an adversarial-first bolster. -/
def partner_draft (round_number : Nat) : Except Error TurnRecord :=
  let bolstered :=
    if round_number = 1 ∧ ctx.run.pipeline.strategy = .adversarial_first then
      ctx.first_done ctx.bolster_slots_down
    else none
  match bolstered with
  | some record => .ok record
  | none => ctx.record (ctx.layout.draft round_number)

/-- The draft the judge panel ruled on, before any restructure. -/
def judged_draft : Option TurnRecord :=
  let redrafted :=
    if ctx.run.pipeline.strategy = .adversarial_first then
      ctx.first_done (((downfrom ctx.config.loop_caps.associate_partner).filter (1 < ·)).map ctx.layout.draft)
    else none
  (redrafted.or (ctx.first_done ctx.bolster_slots_down)).or ctx.latest_draft

/-- The request's current response: a restructured draft if there is one, else the judged draft. -/
def operative_draft : Option TurnRecord :=
  (ctx.first_done ((downfrom ctx.config.loop_caps.restructure).map ctx.layout.restructure_slot)).or
    ctx.judged_draft

variable (x : Externals)

/-- The judge panel folded into per-objection survival distributions. -/
def panel_results : Except Error (List PanelResult) :=
  if ctx.config.input_family = .document then .ok []
  else
    match ctx.judged_draft with
    | none => .ok []
    | some record => do
      let draft ← record.output.as_draft
      let judged := (upto ctx.config.panels.judges).filterMap fun j => ctx.record? (ctx.layout.judge_slot j)
      let judge_outputs ← judged.mapM fun record => record.output.as_judge
      return fold_objection_results x ctx.run.run_id ctx.request.request_id draft.objections judge_outputs

/-- The convergence inputs of one round. -/
def round_state (rr : Nat) : Except Error RoundState := do
  let draft ← (← ctx.partner_draft rr).output.as_draft
  let scored ← (← ctx.record (ctx.layout.rubric_loop rr)).output.as_rubric
  let scores := scored.scores.map fun s => (s.criterion_id, (s.score : Rat))
  let cov ← coverage x draft ctx.run.rubric ctx.code ctx.request.text
  return { score := ctx.run.rubric.weighted_score scores.reverse ctx.code, coverage := cov,
           text := draft.response_text }

/-- Whether the partner loop has converged, not merely hit its cap, by round `r`. -/
def converged_at (r : Nat) : Except Error Bool := do
  let history ← (upto r).mapM (ctx.round_state x)
  let decision := evaluate_convergence x ctx.config.convergence history ctx.config.loop_caps.associate_partner
  return decision.converged && decision.reason = .converged

def role_directive (instruction : String) : String := ctx.run.adapter.draft_directive ++ "\n\n" ++ instruction

/-- `_draft_context`. -/
def draft_context (base : PromptContext) : PromptContext :=
  { base with directive := ctx.run.adapter.draft_directive, fact_ids := some ctx.fact_ids }

/-- `_rubric_context`. -/
def rubric_context (draft : Option TurnOutput) (base : PromptContext) : PromptContext :=
  { base with
    directive := ctx.role_directive "Score the draft against ONLY the injected correctness criteria, one criterion at a time, quoting evidence. Ignore length and style."
    rubric_id := some ctx.run.rubric.rubric_id
    rubric_version := some ctx.run.rubric.version
    criteria := some ctx.correctness_payload
    draft }

end StageContext

end MootLoop
