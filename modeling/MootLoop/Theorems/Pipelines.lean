import MootLoop.Theorems.Planning

/-! Planner progress: under an order of stages in which every stage finds what it reads, a request is complete or
    has turns to plan, and every run of the planner comes to an end. -/

namespace MootLoop

variable {x : Externals}

/-! ### One request -/

namespace StageContext
variable {ctx : StageContext}

/-- These stages of the request are complete. -/
def Completed (x : Externals) (ctx : StageContext) (before : List StageName) : Prop :=
  ∀ name ∈ before, ∀ stage, STAGES x name = some stage → stage.is_complete ctx = .ok true

theorem Completed.snoc {before : List StageName} {name : StageName} (h : ctx.Completed x before)
    (complete : ∀ stage, STAGES x name = some stage → stage.is_complete ctx = .ok true) :
    ctx.Completed x (before ++ [name]) := by
  intro n mem
  rcases List.mem_append.mp mem with earlier | last
  · exact h n earlier
  · rw [List.mem_singleton.mp last]
    exact complete

theorem Completed.judges {before : List StageName} (h : ctx.Completed x before) {panel : StageName}
    (found : first_panel before = some panel) : judges_done ctx = true := by
  have mem := List.mem_of_find?_eq_some found
  have kind : panel = .judge_panel ∨ panel = .narrative_assessment := by simpa using List.find?_some found
  rcases kind with rfl | rfl
  · exact Except.ok.inj (h _ mem JudgePanelStage rfl)
  · exact Except.ok.inj (h _ mem NarrativeAssessmentStage rfl)

theorem first_panel_append {before rest : List StageName} {panel : StageName} (found : first_panel before = some panel) :
    first_panel (before ++ rest) = some panel := by
  unfold first_panel at found ⊢
  rw [List.find?_append, found]
  rfl

theorem first_panel_here {before rest : List StageName} {name : StageName} (none_before : first_panel before = none)
    (kind : name = .judge_panel ∨ name = .narrative_assessment) : first_panel (before ++ name :: rest) = some name := by
  unfold first_panel at none_before ⊢
  rw [List.find?_append, none_before, List.find?_cons_of_pos (by simpa using kind)]
  rfl

/-- A prepared stage of the request does its part, once the stages before it are complete. -/
theorem stage_progresses (typed : ctx.Typed) (known : ctx.run.rubric.Known x) {before rest : List StageName}
    {name : StageName} (stages : ctx.config.stages = before ++ name :: rest)
    (ready : prepared ctx.config before name = true) (complete : ctx.Completed x before) (per_request : name ≠ .assemble) :
    ∃ stage, STAGES x name = some stage ∧ ctx.Progresses x name stage := by
  have owns := ctx.run.pipeline.owns
  have rounds : 1 ≤ ctx.layout.ap := owns.rounds_pos
  have listed : name ∈ ctx.config.stages := by simp [stages]
  have drafted : .associate_draft ∈ before → ctx.done (ctx.layout.draft 1) = true :=
    fun mem => Except.ok.inj (complete _ mem AssociateDraftStage rfl)
  cases name with
  | associate_draft => exact ⟨_, rfl, associate_draft_progresses rounds⟩
  | partner_loop => exact ⟨_, rfl, typed.partner_loop_progresses known rounds (drafted (by simpa [prepared] using ready))⟩
  | oc_attack => exact ⟨_, rfl, oc_attack_progresses (owns.oc_owned.mpr listed)⟩
  | bolster => exact ⟨_, rfl, bolster_progresses⟩
  | judge_panel =>
    refine ⟨_, rfl, judge_panel_progresses ?_⟩
    cases earlier : first_panel before with
    | none => exact .inl (by simp [panel, panel_schema, stages, first_panel_here earlier (.inl rfl)])
    | some panel => exact .inr (complete.judges earlier)
  | narrative_assessment =>
    refine ⟨_, rfl, narrative_assessment_progresses ?_⟩
    cases earlier : first_panel before with
    | none => exact .inl (by simp [panel, panel_schema, stages, first_panel_here earlier (.inr rfl)])
    | some panel => exact .inr (complete.judges earlier)
  | restructure =>
    cases earlier : first_panel before with
    | none => simp [prepared, earlier] at ready
    | some panel =>
      refine ⟨_, rfl, typed.restructure_progresses (complete.judges earlier) ?_⟩
      by_cases judged : panel = .judge_panel
      · refine .inr ?_
        simp [StageContext.panel, panel_schema, stages, first_panel_append earlier, judged]
      · refine .inl ?_
        cases panel <;> simp_all [prepared]
  | jury_panel =>
    refine ⟨_, rfl, jury_panel_progresses fun jury => ?_⟩
    have source : .associate_draft ∈ before ∨ .bolster ∈ before ∧ 1 ≤ ctx.config.loop_caps.bolster := by
      simpa [prepared, jury] using ready
    refine operative_of_judged ?_
    rcases source with associate | ⟨bolster, cap⟩
    · have latest := latest_draft_isSome owns.rounds_pos (drafted associate)
      simp [judged_draft, latest]
    · have passes := Except.ok.inj (complete _ bolster BolsterStage rfl)
      have first : ctx.done (ctx.layout.bolster_slot 1) = true :=
        List.all_eq_true.mp passes _ (List.mem_map.mpr ⟨1, mem_upto.mpr ⟨Nat.le_refl 1, cap⟩, rfl⟩)
      have bolstered : (ctx.first_done ctx.bolster_slots_down).isSome = true :=
        first_done_isSome (List.mem_map.mpr ⟨1, mem_downfrom.mpr ⟨Nat.le_refl 1, cap⟩, rfl⟩) first
      simp [judged_draft, bolstered]
  | rubric_gate => exact ⟨_, rfl, rubric_gate_progresses⟩
  | assemble => exact absurd rfl per_request
  | citation_proposition => exact absurd listed owns.known

theorem ordered_stages_ok {names : List StageName} (known : ∀ name ∈ names, name ≠ .citation_proposition) :
    ∃ stages, ordered_stages x names = .ok stages := by
  induction names with
  | nil => exact ⟨[], rfl⟩
  | cons name rest ih =>
    obtain ⟨stages, tail⟩ := ih fun other mem => known other (List.mem_cons_of_mem _ mem)
    by_cases assemble : name = .assemble
    · exact ⟨stages, by simp only [ordered_stages, if_pos assemble, tail]⟩
    · obtain ⟨stage, named⟩ : ∃ stage, STAGES x name = some stage := by
        have known := known name List.mem_cons_self
        cases name <;> first | exact ⟨_, rfl⟩ | contradiction
      exact ⟨(name, stage) :: stages, by simp only [ordered_stages, if_neg assemble, named, tail, bind, Except.bind]; rfl⟩

/-- What the walk over the stages finds: every stage complete, or the first that is not, with its turns. -/
def Walks (x : Externals) (ctx : StageContext) (stages : List (StageName × Stage)) : Prop :=
  first_incomplete ctx stages = .ok none ∨
  ∃ name stage, first_incomplete ctx stages = .ok (some (name, stage)) ∧ ctx.Advances x name (stage.plan ctx)

theorem walks (typed : ctx.Typed) (known : ctx.run.rubric.Known x) (rest : List StageName) :
    ∀ before, ctx.config.stages = before ++ rest → well_ordered_from ctx.config before rest = true →
      ctx.Completed x before → ∃ stages, ordered_stages x rest = .ok stages ∧ ctx.Walks x stages := by
  induction rest with
  | nil => exact fun _ _ _ _ => ⟨[], rfl, .inl rfl⟩
  | cons name rest ih =>
    intro before split well complete
    obtain ⟨ready, well⟩ : prepared ctx.config before name = true ∧
        well_ordered_from ctx.config (before ++ [name]) rest = true := by
      simpa [well_ordered_from] using well
    have split' : ctx.config.stages = before ++ [name] ++ rest := by simp [split]
    by_cases assemble : name = .assemble
    · have skipped : ctx.Completed x (before ++ [name]) := complete.snoc fun stage found => by simp [assemble, STAGES] at found
      obtain ⟨stages, ordered, walk⟩ := ih (before ++ [name]) split' well skipped
      exact ⟨stages, by simp only [ordered_stages, if_pos assemble, ordered], walk⟩
    · obtain ⟨stage, named, progress⟩ := stage_progresses typed known split ready complete assemble
      have ordered (stages) (tail : ordered_stages x rest = .ok stages) :
          ordered_stages x (name :: rest) = .ok ((name, stage) :: stages) := by
        simp only [ordered_stages, if_neg assemble, named, tail, bind, Except.bind]
        rfl
      rcases progress with done | ⟨undone, advances⟩
      · have complete : ctx.Completed x (before ++ [name]) := complete.snoc fun stage' found => by
          rw [named] at found
          exact Option.some.inj found ▸ done
        obtain ⟨stages, tail, walk⟩ := ih (before ++ [name]) split' well complete
        refine ⟨_, ordered stages tail, ?_⟩
        simpa only [Walks, first_incomplete, done, bind, Except.bind, if_true] using walk
      · obtain ⟨stages, tail⟩ : ∃ stages, ordered_stages x rest = .ok stages :=
          ordered_stages_ok fun other mem => ctx.run.pipeline.owns.known ∘ fun same => by
            have listed : other ∈ ctx.config.stages := by simp [split, mem]
            exact same ▸ listed
        refine ⟨_, ordered stages tail, .inr ⟨name, stage, ?_, advances⟩⟩
        simp only [first_incomplete, undone, bind, Except.bind, Bool.false_eq_true, if_false]
        rfl

/-- A request whose stages are well ordered is complete and plans nothing, or its first incomplete stage plans. -/
theorem plans_or_complete (typed : ctx.Typed) (known : ctx.run.rubric.Known x) (well : WellOrdered ctx.config) :
    plan_request x ctx = .ok [] ∧ request_complete x ctx = .ok true ∨
    ∃ name, ctx.Advances x name (plan_request x ctx) ∧ request_complete x ctx = .ok false := by
  obtain ⟨stages, ordered, walk⟩ := walks typed known ctx.config.stages [] rfl well fun name mem => by cases mem
  rcases walk with complete | ⟨name, stage, first, advances⟩
  · refine .inl ⟨?_, ?_⟩
    · simp only [plan_request, ordered, complete, bind, Except.bind]
      rfl
    · simp only [request_complete, ordered, complete, bind, Except.bind]
      rfl
  · refine .inr ⟨name, ?_, ?_⟩
    · simpa only [plan_request, ordered, first, bind, Except.bind] using advances
    · simp only [request_complete, ordered, first, bind, Except.bind]
      rfl

theorem first_incomplete_none {names : List StageName} : ∀ {stages}, ordered_stages x names = .ok stages →
    first_incomplete ctx stages = .ok none → ctx.Completed x names := by
  induction names with
  | nil => exact fun _ _ name mem => by cases mem
  | cons name rest ih =>
    intro stages ordered walk
    by_cases assemble : name = .assemble
    · rw [ordered_stages, if_pos assemble] at ordered
      intro n mem stage named
      rcases List.mem_cons.mp mem with rfl | later
      · simp [assemble, STAGES] at named
      · exact ih ordered walk n later stage named
    · rw [ordered_stages, if_neg assemble] at ordered
      split at ordered
      · cases ordered
      · rename_i stage named
        cases tail : ordered_stages x rest with
        | error e => simp [tail, bind, Except.bind] at ordered
        | ok others =>
          rw [tail] at ordered
          rw [← Except.ok.inj ordered] at walk
          cases done : stage.is_complete ctx with
          | error e => simp [first_incomplete, done, bind, Except.bind] at walk
          | ok complete =>
            cases complete with
            | false => simp [first_incomplete, done, bind, Except.bind, pure, Except.pure] at walk
            | true =>
              simp only [first_incomplete, done, bind, Except.bind, if_true] at walk
              intro n mem other named'
              rcases List.mem_cons.mp mem with rfl | later
              · rw [named] at named'
                exact Option.some.inj named' ▸ done
              · exact ih tail walk n later other named'

theorem first_incomplete_some {names : List StageName} {name : StageName} {stage : Stage} :
    ∀ {stages} before, ctx.Completed x before → ordered_stages x names = .ok stages →
      first_incomplete ctx stages = .ok (some (name, stage)) →
      ∃ between rest, names = between ++ name :: rest ∧ ctx.Completed x (before ++ between) ∧
        STAGES x name = some stage ∧ stage.is_complete ctx = .ok false := by
  induction names with
  | nil =>
    intro stages before _ ordered walk
    rw [← Except.ok.inj ordered] at walk
    cases walk
  | cons head rest ih =>
    intro stages before complete ordered walk
    have goes_on : ctx.Completed x (before ++ [head]) → ∀ {others}, ordered_stages x rest = .ok others →
        first_incomplete ctx others = .ok (some (name, stage)) → ∃ between tail, head :: rest = between ++ name :: tail ∧
          ctx.Completed x (before ++ between) ∧ STAGES x name = some stage ∧ stage.is_complete ctx = .ok false := by
      intro complete others tail walk
      obtain ⟨between, tail, split, complete, found⟩ := ih (before ++ [head]) complete tail walk
      exact ⟨head :: between, tail, by simp [split], by simpa using complete, found⟩
    by_cases assemble : head = .assemble
    · rw [ordered_stages, if_pos assemble] at ordered
      exact goes_on (complete.snoc fun stage named => by simp [assemble, STAGES] at named) ordered walk
    · rw [ordered_stages, if_neg assemble] at ordered
      split at ordered
      · cases ordered
      · rename_i here named
        cases tail : ordered_stages x rest with
        | error e => simp [tail, bind, Except.bind] at ordered
        | ok others =>
          rw [tail] at ordered
          rw [← Except.ok.inj ordered] at walk
          cases done : here.is_complete ctx with
          | error e => simp [first_incomplete, done, bind, Except.bind] at walk
          | ok finished =>
            simp only [first_incomplete, done, bind, Except.bind] at walk
            cases finished with
            | true =>
              refine goes_on (complete.snoc fun other named' => ?_) tail walk
              rw [named] at named'
              exact Option.some.inj named' ▸ done
            | false =>
              obtain ⟨rfl, rfl⟩ : head = name ∧ here = stage := by simpa [pure, Except.pure] using walk
              exact ⟨[], rest, rfl, by simpa using complete, named, done⟩

/-- The stage a request's turns are planned by: it is not complete, and the stages before it are. -/
structure Plays (x : Externals) (ctx : StageContext) (before : List StageName) (name : StageName)
    (rest : List StageName) (stage : Stage) (specs : List TurnSpec) (slots : List Slot) : Prop where
  order : ctx.config.stages = before ++ name :: rest
  complete : ctx.Completed x before
  named : STAGES x name = some stage
  incomplete : stage.is_complete ctx = .ok false
  planned : stage.plan ctx = .ok specs
  plans : ctx.Plans name specs slots

/-- Planning that does not raise plans nothing, or open slots of the stage at play. -/
theorem plays_of_planned (typed : ctx.Typed) (known : ctx.run.rubric.Known x) {specs : List TurnSpec}
    (planned : plan_request x ctx = .ok specs) :
    specs = [] ∨ ∃ before name rest stage slots, ctx.Plays x before name rest stage specs slots := by
  have owns := ctx.run.pipeline.owns
  cases ordered : ordered_stages x ctx.config.stages with
  | error e => simp [plan_request, ordered, bind, Except.bind] at planned
  | ok stages =>
    cases walk : first_incomplete ctx stages with
    | error e => simp [plan_request, ordered, walk, bind, Except.bind] at planned
    | ok found =>
      simp only [plan_request, ordered, walk, bind, Except.bind] at planned
      rcases found with - | ⟨name, stage⟩
      · exact .inl (Except.ok.inj planned).symm
      · obtain ⟨before, rest, order, complete, named, incomplete⟩ :=
          first_incomplete_some [] (fun name mem => by cases mem) ordered walk
        simp only [List.nil_append] at complete
        have plays : ∀ slots, ctx.Plans name specs slots → _ := fun slots plans =>
          show ∃ before name rest stage slots, ctx.Plays x before name rest stage specs slots from
            ⟨before, name, rest, stage, slots, order, complete, named, incomplete, planned, plans⟩
        have planned : stage.plan ctx = .ok specs := planned
        have of_progress : ctx.Progresses x name stage → ∃ slots, ctx.Plans name specs slots := by
          rintro (done | ⟨-, advances⟩)
          · rw [incomplete] at done
            cases done
          · rw [planned] at advances
            exact advances
        have of_ready (ready : prepared ctx.config before name = true) (per_request : name ≠ .assemble) :
            ∃ slots, ctx.Plans name specs slots := by
          obtain ⟨stage', named', progress⟩ := stage_progresses typed known order ready complete per_request
          rw [named] at named'
          exact of_progress (Option.some.inj named' ▸ progress)
        cases name with
        | partner_loop =>
          obtain rfl : PartnerLoopStage x = stage := Option.some.inj named
          have drafted := drafted_of_plan owns.rounds_pos planned
          obtain ⟨slots, turns⟩ := of_progress (typed.partner_loop_progresses known owns.rounds_pos drafted)
          exact .inr (plays slots turns)
        | restructure =>
          obtain rfl : RestructureStage x = stage := Option.some.inj named
          rcases restructure_of_plan planned with nothing | ⟨⟨slots, turns⟩, -⟩
          · exact .inl nothing
          · exact .inr (plays slots turns)
        | jury_panel =>
          obtain rfl : JuryPanelStage x = stage := Option.some.inj named
          obtain ⟨slots, turns⟩ := of_progress (jury_panel_progresses fun jury => operative_of_plan planned jury)
          exact .inr (plays slots turns)
        | assemble => cases named
        | citation_proposition => cases named
        | _ =>
          obtain ⟨slots, turns⟩ := of_ready rfl (by simp)
          exact .inr (plays slots turns)

end StageContext

/-! ### The requests of a run -/

variable {context : RunContext} {state state' : RunState} {tier_models : List (Role × String)}
  {assembled_context : List AssembledContextItem} {ctx : StageContext}

theorem mem_contexts : ctx ∈ contexts context state tier_models assembled_context ↔
    ∃ unit, context.task_units[ctx.req_index]? = some unit ∧
      ctx = { run := context, req_index := ctx.req_index, request := unit, state, tier_models, assembled_context } := by
  simp only [contexts, List.mem_map, Prod.exists, List.mem_zipIdx_iff_getElem?]
  constructor
  · rintro ⟨unit, i, found, rfl⟩
    exact ⟨unit, found, rfl⟩
  · rintro ⟨unit, found, eq⟩
    exact ⟨unit, ctx.req_index, found, eq.symm⟩

/-- The sequence numbers of a run's requests. -/
def RunContext.layout (context : RunContext) (req_index : Nat) : SlotLayout where
  run_id := context.run_id
  req_index
  ap := context.config.loop_caps.associate_partner
  oc := context.config.loop_caps.oc
  bolster := context.config.loop_caps.bolster
  judges := context.config.panels.judges
  rubric_panel := context.config.panels.rubric_judges
  restructure := context.config.loop_caps.restructure
  jurors := if context.config.panels.jury then context.config.panels.jurors else 0

theorem layout_of_mem (unit : ctx ∈ contexts context state tier_models assembled_context) :
    ctx.layout = context.layout ctx.req_index := by
  obtain ⟨_, -, eq⟩ := mem_contexts.mp unit
  rw [eq]
  rfl

theorem state_of_mem (unit : ctx ∈ contexts context state tier_models assembled_context) : ctx.state = state := by
  obtain ⟨_, -, eq⟩ := mem_contexts.mp unit
  rw [eq]

theorem run_of_mem (unit : ctx ∈ contexts context state tier_models assembled_context) : ctx.run = context := by
  obtain ⟨_, -, eq⟩ := mem_contexts.mp unit
  rw [eq]

/-- Every request's completed slots hold outputs their schemas accept. -/
def RunContext.Typed (context : RunContext) (state : RunState) : Prop :=
  ∀ req_index < context.task_units.length, ∀ slot : Slot, slot.Within (context.layout req_index) → ∀ record,
    state.completed_turns.get? ((context.layout req_index).turn_id (slot.seq (context.layout req_index))) = some record →
    (slot.schema (panel_schema context.config.stages)).accepts record.output = true

theorem RunContext.Typed.of_mem (typed : context.Typed state)
    (unit : ctx ∈ contexts context state tier_models assembled_context) : ctx.Typed := by
  obtain ⟨request, found, eq⟩ := mem_contexts.mp unit
  intro slot within record done
  rw [StageContext.record?, state_of_mem unit] at done
  rw [layout_of_mem unit] at within done
  rw [StageContext.panel, StageContext.config, run_of_mem unit]
  exact typed _ (List.getElem?_eq_some_iff.mp found).1 slot within record done

/-- Slots of a run with one turn id are one slot of one request. -/
theorem slot_of_turn_id {i j : Nat} {a b : Slot} (within : a.Within (context.layout i))
    (within' : b.Within (context.layout j))
    (same : (context.layout i).turn_id (a.seq (context.layout i)) = (context.layout j).turn_id (b.seq (context.layout j))) :
    i = j ∧ a = b := by
  have seq : a.seq (context.layout i) = b.seq (context.layout j) :=
    SlotLayout.turn_id_injective (l := context.layout i) same
  have index := within.index
  rw [seq] at index
  have request : i = j := index.symm.trans within'.index
  subst request
  exact ⟨rfl, within.seq_injective within' seq⟩

/-- A step of the planner: one open slot of one request, of the stage at play, takes an output of its schema. -/
structure Fills (x : Externals) (context : RunContext) (state : RunState) (ctx : StageContext) (before : List StageName)
    (name : StageName) (rest : List StageName) (slot : Slot) (record : TurnRecord) : Prop where
  bound : ctx.req_index < context.task_units.length
  layout : ctx.layout = context.layout ctx.req_index
  config : ctx.config = context.config
  state_eq : ctx.state = state
  plays : ∃ stage specs slots, ctx.Plays x before name rest stage specs slots ∧ slot ∈ slots
  within : slot.Within (context.layout ctx.req_index)
  turn : record.spec.turn_id = (context.layout ctx.req_index).turn_id (slot.seq (context.layout ctx.req_index))
  undone : state.is_completed record.spec.turn_id = false
  accepted : (slot.schema (panel_schema context.config.stages)).accepts record.output = true

theorem Completes.fills (step : Completes x context state state') (typed : context.Typed state)
    (known : context.rubric.Known x) : ∃ ctx before name rest slot record,
      Fills x context state ctx before name rest slot record ∧ state' = state.apply (.turn_completed record) := by
  obtain ⟨unit, planned, chosen, valid⟩ := step
  rename_i ctx specs spec output gate_results completed_at
  have run := run_of_mem unit
  have layout := layout_of_mem unit
  obtain ⟨request, found, -⟩ := mem_contexts.mp unit
  have config : ctx.config = context.config := congrArg RunContext.config run
  rcases StageContext.plays_of_planned (typed.of_mem unit) (run ▸ known) planned with
    rfl | ⟨before, name, rest, stage, slots, plays⟩
  · cases chosen
  · obtain ⟨slot, mem, turn, -, schema, -⟩ := plays.plans.slot_of chosen
    refine ⟨ctx, before, name, rest, slot, _, ⟨(List.getElem?_eq_some_iff.mp found).1, layout, config, state_of_mem unit,
      ⟨stage, specs, slots, plays, mem⟩, layout ▸ plays.plans.within slot mem, layout ▸ turn, ?_, ?_⟩, rfl⟩
    · rw [turn, ← state_of_mem unit]
      exact plays.plans.undone slot mem
    · rw [schema, StageContext.panel, config] at valid
      exact valid

theorem get?_turn_completed {record : TurnRecord} {turn_id : TurnId} :
    (state.apply (.turn_completed record)).completed_turns.get? turn_id =
      if turn_id = record.spec.turn_id then some record else state.completed_turns.get? turn_id :=
  Dict.get?_insert _ _ _ _

/-- Completing planned turns keeps every slot's output in its schema. -/
theorem RunContext.Typed.completes (typed : context.Typed state) (known : context.rubric.Known x)
    (step : Completes x context state state') : context.Typed state' := by
  obtain ⟨ctx, before, name, rest, slot, record, fills, rfl⟩ := step.fills typed known
  intro j bound other within found done
  rw [get?_turn_completed] at done
  split at done
  · rename_i same
    obtain ⟨-, rfl⟩ := slot_of_turn_id within fills.within (same.trans fills.turn)
    exact Option.some.inj done ▸ fills.accepted
  · exact typed j bound other within found done

theorem RunContext.Typed.run {start : RunState} (fresh : start.completed_turns = ∅) (known : context.rubric.Known x)
    (run : Relation.ReflTransGen (Completes x context) start state) :
    context.Typed state := by
  induction run with
  | refl =>
    intro _ _ _ _ record done
    simp [fresh] at done
  | tail _ step ih => exact ih.completes known step

/-- The sequence numbers of the run whose turns are open. -/
def RunContext.open_turns (context : RunContext) (state : RunState) : Finset Nat :=
  (Finset.range (context.task_units.length * (context.layout 0).block)).filter fun seq =>
    state.is_completed ((context.layout 0).turn_id seq) = false

/-- A completed turn leaves fewer open. -/
theorem Completes.fewer (step : Completes x context state state') (typed : context.Typed state)
    (known : context.rubric.Known x) : (context.open_turns state').card < (context.open_turns state).card := by
  obtain ⟨ctx, before, name, rest, slot, record, fills, rfl⟩ := step.fills typed known
  obtain ⟨bound, within, undone⟩ := And.intro fills.bound (And.intro fills.within fills.undone)
  have seq_bound : slot.seq (context.layout ctx.req_index) < context.task_units.length * (context.layout 0).block := by
    have high := within.bounds.2
    have block : (context.layout ctx.req_index).block = (context.layout 0).block := rfl
    have base : (context.layout ctx.req_index).base = ctx.req_index * (context.layout 0).block := rfl
    have room : (ctx.req_index + 1) * (context.layout 0).block ≤ context.task_units.length * (context.layout 0).block :=
      Nat.mul_le_mul_right _ bound
    rw [Nat.add_mul, Nat.one_mul] at room
    omega
  have turn : record.spec.turn_id = (context.layout 0).turn_id (slot.seq (context.layout ctx.req_index)) := fills.turn
  refine Finset.card_lt_card (Finset.ssubset_iff_of_subset ?_ |>.mpr ⟨slot.seq (context.layout ctx.req_index), ?_, ?_⟩)
  · intro seq mem
    obtain ⟨range, open_after⟩ := Finset.mem_filter.mp mem
    refine Finset.mem_filter.mpr ⟨range, ?_⟩
    simp only [RunState.is_completed, Dict.contains, get?_turn_completed] at open_after ⊢
    split at open_after
    · cases open_after
    · exact open_after
  · exact Finset.mem_filter.mpr ⟨Finset.mem_range.mpr seq_bound, turn ▸ undone⟩
  · intro mem
    have open_after := (Finset.mem_filter.mp mem).2
    simp [RunState.is_completed, Dict.contains, get?_turn_completed, turn] at open_after

/-- No run of the planner goes on for ever. -/
theorem completes_terminates {start : RunState} (fresh : start.completed_turns = ∅) (known : context.rubric.Known x)
    (run : Nat → RunState) (starts : run 0 = start) :
    ∃ n, ¬Completes x context (run n) (run (n + 1)) := by
  by_contra forever
  push_neg at forever
  have reached (n : Nat) : Relation.ReflTransGen (Completes x context) start (run n) := by
    induction n with
    | zero => exact starts ▸ .refl
    | succ n ih => exact ih.tail (forever n)
  have left (n : Nat) : (context.open_turns (run n)).card + n ≤ (context.open_turns start).card := by
    induction n with
    | zero => simp [starts]
    | succ n ih =>
      have fewer := (forever n).fewer (.run fresh known (reached n)) known
      omega
  have none_left := left ((context.open_turns start).card + 1)
  omega

/-! ### Sound planning -/

theorem StageContext.Plans.turns_nodup {stage : StageName} {specs : List TurnSpec} {slots : List Slot}
    (plans : ctx.Plans stage specs slots) : (specs.map (·.turn_id)).Nodup := by
  have turns : specs.map (·.turn_id) = slots.map fun slot => ctx.layout.turn_id (slot.seq ctx.layout) := by
    rw [← List.forall₂_eq_eq_eq, List.forall₂_map_left_iff, List.forall₂_map_right_iff]
    exact plans.fitted.flip.imp fun spec slot h => h.1
  rw [turns]
  refine plans.nodup.map_on fun a mem b mem' same => ?_
  exact (plans.within a mem).seq_injective (plans.within b mem') (SlotLayout.turn_id_injective same)

/-- The turns a request plans are open slots of its own, whether or not it plans any. -/
theorem planned_slots (typed : context.Typed state) (known : context.rubric.Known x)
    (unit : ctx ∈ contexts context state tier_models assembled_context) {specs : List TurnSpec}
    (planned : plan_request x ctx = .ok specs) : (specs.map (·.turn_id)).Nodup ∧ ∀ spec ∈ specs,
      ∃ slot : Slot, slot.Within (context.layout ctx.req_index) ∧
        spec.turn_id = (context.layout ctx.req_index).turn_id (slot.seq (context.layout ctx.req_index)) ∧
        state.is_completed spec.turn_id = false := by
  have run := run_of_mem unit
  have layout := layout_of_mem unit
  rcases StageContext.plays_of_planned (typed.of_mem unit) (run ▸ known) planned with
    rfl | ⟨before, name, rest, stage, slots, plays⟩
  · exact ⟨List.nodup_nil, fun _ mem => by cases mem⟩
  · refine ⟨plays.plans.turns_nodup, fun spec mem => ?_⟩
    obtain ⟨slot, mem, turn, -⟩ := plays.plans.slot_of mem
    refine ⟨slot, layout ▸ plays.plans.within slot mem, layout ▸ turn, ?_⟩
    rw [turn, ← state_of_mem unit]
    exact plays.plans.undone slot mem

theorem contexts_apart : (contexts context state tier_models assembled_context).Pairwise
    fun ctx ctx' => ctx.req_index ≠ ctx'.req_index := by
  have indices : (contexts context state tier_models assembled_context).map (·.req_index) =
      List.range' 0 context.task_units.length := by
    simp only [contexts, List.map_map]
    exact List.zipIdx_map_snd 0 context.task_units
  have nodup : ((contexts context state tier_models assembled_context).map (·.req_index)).Nodup :=
    indices ▸ List.nodup_range'
  exact List.pairwise_map.mp nodup

/-- No turn is planned twice, for one request or for two, and none that is completed. -/
theorem plans_apart (typed : context.Typed state) (known : context.rubric.Known x) {plans : List (List TurnSpec)} (each : List.Forall₂ (fun ctx specs => plan_request x ctx = .ok specs)
      (contexts context state tier_models assembled_context) plans) :
    (plans.flatten.map (·.turn_id)).Nodup ∧ ∀ spec ∈ plans.flatten, state.is_completed spec.turn_id = false := by
  have at_index (i : Nat) (bound : i < plans.length) : ∃ ctx, (contexts context state tier_models assembled_context)[i]? = some ctx ∧
      ctx ∈ contexts context state tier_models assembled_context ∧ plan_request x ctx = .ok plans[i] := by
    have bound' : i < (contexts context state tier_models assembled_context).length := each.length_eq ▸ bound
    exact ⟨_, List.getElem?_eq_getElem bound', List.getElem_mem bound', each.get bound' bound⟩
  refine ⟨?_, ?_⟩
  · rw [List.map_flatten, List.nodup_flatten, List.pairwise_map]
    refine ⟨?_, List.pairwise_iff_getElem.mpr fun i j bi bj lt => ?_⟩
    · intro turns mem
      obtain ⟨specs, among, rfl⟩ := List.mem_map.mp mem
      obtain ⟨i, bound, rfl⟩ := List.mem_iff_getElem.mp among
      obtain ⟨ctx, -, unit, planned⟩ := at_index i bound
      exact (planned_slots typed known unit planned).1
    · -- turns of two requests are apart, since their slots are
      obtain ⟨ctx, at_i, unit, planned⟩ := at_index i bi
      obtain ⟨ctx', at_j, unit', planned'⟩ := at_index j bj
      obtain ⟨ci, eq_i⟩ := List.getElem?_eq_some_iff.mp at_i
      obtain ⟨cj, eq_j⟩ := List.getElem?_eq_some_iff.mp at_j
      have apart : ctx.req_index ≠ ctx'.req_index := eq_i ▸ eq_j ▸ List.pairwise_iff_getElem.mp contexts_apart i j ci cj lt
      rw [List.disjoint_left]
      intro turn mem mem'
      obtain ⟨spec, chosen, rfl⟩ := List.mem_map.mp mem
      obtain ⟨spec', chosen', same⟩ := List.mem_map.mp mem'
      obtain ⟨slot, within, turn, -⟩ := (planned_slots typed known unit planned).2 spec chosen
      obtain ⟨slot', within', turn', -⟩ := (planned_slots typed known unit' planned').2 spec' chosen'
      exact apart (slot_of_turn_id within within' ((turn.symm.trans same.symm).trans turn')).1
  · intro spec mem
    obtain ⟨specs, mem, chosen⟩ := List.mem_flatten.mp mem
    obtain ⟨i, bound, rfl⟩ := List.mem_iff_getElem.mp mem
    obtain ⟨ctx, -, unit, planned⟩ := at_index i bound
    obtain ⟨slot, -, -, undone⟩ := (planned_slots typed known unit planned).2 spec chosen
    exact undone

/-- Planning is sound wherever the slots hold what their schemas accept and the jury can be prompted. -/
theorem plans_soundly (typed : context.Typed state) (known : context.rubric.Known x) (well : WellOrdered context.config)
    (fits : ∀ ctx ∈ read_contexts context state, ctx.JuryFits x) :
    PlansSoundly x context state tier_models assembled_context := by
  have decided : ∀ ctx ∈ contexts context state tier_models assembled_context, ∃ specs complete,
      plan_request x ctx = .ok specs ∧ request_complete x ctx = .ok complete ∧ (specs = [] ↔ complete = true) := by
    intro ctx unit
    have run := run_of_mem unit
    have config : ctx.config = context.config := congrArg RunContext.config run
    have fits : ctx.JuryFits x := by
      obtain ⟨request, found, eq⟩ := mem_contexts.mp unit
      have fits := fits { run := context, req_index := ctx.req_index, request, state } (mem_contexts.mpr ⟨request, found, rfl⟩)
      rw [eq]
      exact fits
    rcases StageContext.plans_or_complete (typed.of_mem unit) (run ▸ known) (config ▸ well) with
      ⟨nothing, complete⟩ | ⟨name, advances, incomplete⟩
    · exact ⟨[], true, nothing, complete, by simp⟩
    · cases planned : plan_request x ctx with
      | error e =>
        rw [planned] at advances
        exact absurd fits advances
      | ok specs =>
        rw [planned] at advances
        obtain ⟨slots, plans⟩ := advances
        refine ⟨specs, false, rfl, incomplete, ?_⟩
        have some_slot := plans.nonempty
        have length := plans.fitted.length_eq
        cases specs <;> simp_all
  refine ⟨?_, decided⟩
  have planned : ∀ ctx ∈ contexts context state tier_models assembled_context, ∃ specs, plan_request x ctx = .ok specs :=
    fun ctx unit => by
      obtain ⟨specs, -, planned, -⟩ := decided ctx unit
      exact ⟨specs, planned⟩
  obtain ⟨plans, walked, each⟩ := Walk.mapM_total planned
  exact ⟨plans, walked, plans_apart typed known each⟩

end MootLoop
