import MootLoop.Planner

/-! The drafting turns of a request in the order they were completed, and the orders of stages and the caps under which
    the draft accessors of the stages find the newest of them. -/

namespace MootLoop

/-- A step of a run: a planned turn is completed, or the journal takes an event that completes none. -/
inductive Advances (x : Externals) (context : RunContext) (state : RunState) : RunState → Prop
  | turn {state' : RunState} (completes : Completes x context state state') : Advances x context state state'
  | other (event : JournalEvent) (no_turn : ∀ record, event ≠ .turn_completed record) :
      Advances x context state (state.apply event)

/-! ### Drafting turns -/

def Slot.drafts : Slot → Bool
  | .draft _ | .bolster _ | .restructure _ => true
  | _ => false

namespace SlotLayout

/-- The slots of a layout whose turns draft. -/
def drafting_slots (l : SlotLayout) : List Slot :=
  (upto l.ap).map .draft ++ (upto l.bolster).map .bolster ++ (upto l.restructure).map .restructure

def drafting_turns (l : SlotLayout) : List TurnId := l.drafting_slots.map fun slot => l.turn_id (slot.seq l)

end SlotLayout

/-- The most recently completed drafting turn of the request: completed turns are kept in the order of completion. -/
def StageContext.newest_draft (ctx : StageContext) : Option TurnRecord :=
  (ctx.state.completed_turns.entries.filter fun entry => entry.1 ∈ ctx.layout.drafting_turns).getLast?.map (·.2)

/-! ### Orders of stages -/

/-- If both stages are listed, the first is listed before the second. -/
def Precedes (stages : List StageName) (first second : StageName) : Prop :=
  first ∈ stages → first ∈ stages.takeWhile (· ≠ second)

instance (stages : List StageName) (first second : StageName) : Decidable (Precedes stages first second) :=
  inferInstanceAs (Decidable (_ → _))

/-- The drafting stages other than the restructure. -/
def DRAFTING_STAGES : List StageName := [.associate_draft, .partner_loop, .bolster]

/-- Every drafting stage other than the restructure comes before the panel. -/
def DraftsBefore (stages : List StageName) (panel : StageName) : Prop :=
  ∀ stage ∈ DRAFTING_STAGES, Precedes stages stage panel

instance (stages : List StageName) (panel : StageName) : Decidable (DraftsBefore stages panel) :=
  inferInstanceAs (Decidable (∀ stage ∈ _, _))

/-- The judge panel is listed after the drafting stages, and the restructure after it. -/
structure JudgedBetween (stages : List StageName) : Prop where
  listed : .judge_panel ∈ stages
  drafted : DraftsBefore stages .judge_panel
  restructured : Precedes stages .judge_panel .restructure

/-- The bolster has its place in the priorities of `judged_draft`: after the first draft, and after the partner loop's
    redrafts, or before them when the strategy is adversarial-first. -/
def BolsterInOrder (strategy : PipelineStrategy) (config : TaskAdapterConfig) : Prop :=
  .bolster ∈ config.stages → 1 ≤ config.loop_caps.bolster →
    Precedes config.stages .associate_draft .bolster ∧
    (.partner_loop ∈ config.stages → 2 ≤ config.loop_caps.associate_partner →
      if strategy = .adversarial_first then Precedes config.stages .bolster .partner_loop
      else Precedes config.stages .partner_loop .bolster)

instance (strategy : PipelineStrategy) (config : TaskAdapterConfig) : Decidable (BolsterInOrder strategy config) :=
  inferInstanceAs (Decidable (_ → _ → _ ∧ (_ → _ → _)))

/-- The caps and the places of the bolster and the restructure at which every stage finds the newest draft. -/
structure FreshInOrder (strategy : PipelineStrategy) (config : TaskAdapterConfig) : Prop where
  bolster : .bolster ∈ config.stages → 1 ≤ config.loop_caps.bolster →
    config.loop_caps.bolster = 1 ∧ Precedes config.stages .associate_draft .bolster ∧
    (1 ≤ config.loop_caps.oc → Precedes config.stages .oc_attack .bolster) ∧
    (.partner_loop ∈ config.stages →
      if strategy = .adversarial_first then 2 ≤ config.loop_caps.associate_partner →
        Precedes config.stages .bolster .partner_loop
      else Precedes config.stages .partner_loop .bolster)
  restructure : .restructure ∈ config.stages → 1 ≤ config.loop_caps.restructure →
    config.loop_caps.restructure = 1 ∧
    (1 ≤ config.loop_caps.oc → Precedes config.stages .oc_attack .restructure)

/-- A drafting turn, if not the request's first, revises the newest draft; any other turn is shown it. -/
def StageContext.ShowsNewest (ctx : StageContext) (spec : TurnSpec) : Prop :=
  if spec.output_schema_name = .draft then
    ctx.newest_draft ≠ none → spec.prompt_context.previous_draft = ctx.newest_draft.map (·.output)
  else spec.prompt_context.draft = ctx.newest_draft.map (·.output)

end MootLoop
