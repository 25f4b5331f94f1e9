import MootLoop.Theorems.Pipelines
import MootLoop.Theorems.Runs

/-! Every shipped pipeline runs to completion; an accepted pipeline does exactly when its stages are well ordered. -/

namespace MootLoop

section
variable {x : Externals} {context : RunContext} {start state state' : RunState}

/-! ### The shipped pipelines -/

/-- The configuration of a family that asks the most of the order of its stages. -/
def strictest (family : InputFamily) : TaskAdapterConfig :=
  { task := "", input_family := family, stages := [], loop_caps := { bolster := 0 }, panels := { jury := true }, gates := [],
    rubric_id := "" }

theorem prepared_of_strictest {config : TaskAdapterConfig} {before : List StageName} {name : StageName}
    (h : prepared (strictest config.input_family) before name = true) : prepared config before name = true := by
  cases name with
  | partner_loop => exact h
  | restructure => exact h
  | jury_panel =>
    have drafted : .associate_draft ∈ before := by simpa [prepared, strictest] using h
    simp [prepared, drafted]
  | _ => rfl

theorem well_ordered_of_strictest {config : TaskAdapterConfig} (rest : List StageName) :
    ∀ before, well_ordered_from (strictest config.input_family) before rest = true →
      well_ordered_from config before rest = true := by
  induction rest with
  | nil => exact fun _ _ => rfl
  | cons name rest ih =>
    intro before well
    simp only [well_ordered_from, Bool.and_eq_true] at well ⊢
    exact ⟨prepared_of_strictest well.1, ih _ well.2⟩

theorem shipped_shapes_ordered (family : InputFamily) :
    ∀ stages ∈ SHIPPED_SHAPES family, well_ordered_from (strictest family) [] stages = true := by
  cases family <;> decide +kernel

/-- Every shipped pipeline, whoever is bypassed, has its stages in order. -/
theorem shipped_well_ordered {config : TaskAdapterConfig} (shape : config.stages ∈ SHIPPED_SHAPES config.input_family) :
    WellOrdered config :=
  well_ordered_of_strictest _ [] (shipped_shapes_ordered _ _ shape)

/-! ### Planner progress -/

theorem exists_accepted (schema : SchemaName) : ∃ output, schema.accepts output = true := by
  cases schema
  · exact ⟨.draft default, rfl⟩
  · exact ⟨.critique { verdict := .approve, self_assessment := "" }, rfl⟩
  · exact ⟨.judge { self_assessment := "" }, rfl⟩
  · exact ⟨.narrative { disposition := .supported, reasons := [], limitations := [], self_assessment := "" }, rfl⟩
  · exact ⟨.juror { comprehension_score := 1, persuasion_score := 1, self_assessment := "" }, rfl⟩
  · exact ⟨.rubric { overall_notes := "", self_assessment := "" }, rfl⟩
  · exact ⟨.cite_check { status := .supported, reasoning := "", self_assessment := "" }, rfl⟩

/-- In a run of a shipped pipeline, planning never raises, plans each open turn once and nothing exactly when the
    request is complete; the run stops only when every request is, and it does stop. -/
theorem planner_progress (shape : context.config.stages ∈ SHIPPED_SHAPES context.config.input_family)
    (known : context.rubric.Known x) (fresh : start.completed_turns = ∅)
    (reached : Relation.ReflTransGen (Completes x context) start state)
    (fits : ∀ ctx ∈ read_contexts context state, ctx.JuryFits x) :
    (∀ tier_models assembled_context, PlansSoundly x context state tier_models assembled_context) ∧
    ((∀ state', ¬Completes x context state state') →
      ∀ ctx ∈ read_contexts context state, request_complete x ctx = .ok true) ∧
    ∀ run : Nat → RunState, run 0 = start → ∃ n, ¬Completes x context (run n) (run (n + 1)) := by
  have typed := RunContext.Typed.run fresh known reached
  have sound (tier_models assembled_context) : PlansSoundly x context state tier_models assembled_context :=
    plans_soundly typed known (shipped_well_ordered shape) fits
  refine ⟨sound, fun stuck ctx unit => ?_, completes_terminates fresh known⟩
  obtain ⟨specs, complete, planned, decided, settled⟩ := (sound [] []).never_wedges ctx unit
  cases specs with
  | nil => exact decided.trans (congrArg _ (settled.mp rfl))
  | cons spec specs =>
    obtain ⟨output, valid⟩ := exists_accepted spec.output_schema_name
    have step : Completes x context state
        (state.apply (.turn_completed { spec, output, gate_results := [], completed_at := "" })) :=
      .turn unit planned List.mem_cons_self valid
    exact absurd step (stuck _)

/-! ### Slots no turn fills -/

/-- No open slot of a kind is filled. -/
def Untouched (context : RunContext) (kind : Slot → Prop) (state : RunState) : Prop :=
  ∀ i < context.task_units.length, ∀ slot, kind slot → slot.Within (context.layout i) →
    state.is_completed ((context.layout i).turn_id (slot.seq (context.layout i))) = false

theorem Untouched.completes {kind : Slot → Prop} (untouched : Untouched context kind state) (typed : context.Typed state)
    (known : context.rubric.Known x) (step : Completes x context state state')
    (spared : ∀ ctx before name rest slot record, Fills x context state ctx before name rest slot record → ¬kind slot) :
    Untouched context kind state' := by
  obtain ⟨ctx, before, name, rest, slot, record, fills, rfl⟩ := step.fills typed known
  intro i bound other chosen within
  have before_step := untouched i bound other chosen within
  simp only [RunState.is_completed, Dict.contains, get?_turn_completed] at before_step ⊢
  split
  · rename_i same
    obtain ⟨-, rfl⟩ := slot_of_turn_id within fills.within (same.trans fills.turn)
    exact absurd chosen (spared _ _ _ _ _ _ fills)
  · exact before_step

theorem Untouched.run {kind : Slot → Prop} (fresh : start.completed_turns = ∅) (known : context.rubric.Known x)
    (reached : Relation.ReflTransGen (Completes x context) start state)
    (spared : ∀ state, Untouched context kind state → ∀ ctx before name rest slot record,
      Fills x context state ctx before name rest slot record → ¬kind slot) : Untouched context kind state := by
  induction reached with
  | refl =>
    intro _ _ _ _ _
    simp [RunState.is_completed, Dict.contains, fresh]
  | tail earlier step ih => exact ih.completes (.run fresh known earlier) known step (spared _ ih)

/-- Two places in a list without repetitions: what is not before the first, nor there, is after it. -/
theorem mem_of_nodup_split {stages before rest before' rest' : List StageName} {a b : StageName} (nodup : stages.Nodup)
    (split : stages = before ++ a :: rest) (split' : stages = before' ++ b :: rest') (late : b ∉ before) (ne : a ≠ b) :
    a ∈ before' := by
  have listed : a ∈ before' ++ b :: rest' := by simp [← split', split]
  rcases List.mem_append.mp listed with earlier | later
  · exact earlier
  · exfalso
    have later : a ∈ rest' := (List.mem_cons.mp later).resolve_left ne
    subst split
    rcases List.append_eq_append_iff.mp split' with ⟨between, rfl, tail⟩ | ⟨between, rfl, tail⟩
    · -- `b` is after `a`, which then occurs twice
      cases between with
      | nil => exact ne (List.cons.inj (by simpa using tail)).1
      | cons head between =>
        obtain ⟨rfl, rfl⟩ : a = head ∧ rest = between ++ b :: rest' := by simpa using tail
        have alone := (List.nodup_cons.mp (List.nodup_append.mp nodup).2.1).1
        exact alone (List.mem_append_right _ (List.mem_cons_of_mem _ later))
    · cases between with
      | nil => exact ne (List.cons.inj (by simpa using tail)).1.symm
      | cons head between =>
        obtain ⟨rfl, -⟩ : b = head ∧ rest' = between ++ a :: rest := by simpa using tail
        exact late (by simp)

/-! ### Stages a sound pipeline has in order -/

theorem well_ordered_of_splits {config : TaskAdapterConfig} (rest : List StageName) :
    ∀ before, (∀ between name tail, rest = between ++ name :: tail → prepared config (before ++ between) name = true) →
      well_ordered_from config before rest = true := by
  induction rest with
  | nil => exact fun _ _ => rfl
  | cons name rest ih =>
    intro before ready
    simp only [well_ordered_from, Bool.and_eq_true]
    refine ⟨by simpa using ready [] name rest rfl, ih (before ++ [name]) fun between other tail split => ?_⟩
    simpa using ready (name :: between) other tail (by simp [split])

section Sound
variable (known : context.rubric.Known x) (reached : Relation.ReflTransGen (Completes x context) start state)
  (fresh : start.completed_turns = ∅) {i : Nat} {request : TaskUnit} (unit : context.task_units[i]? = some request)
  (complete : StageContext.Completed x { run := context, req_index := i, request, state } context.config.stages)
  {before rest : List StageName}
include known reached fresh unit complete

theorem drafted_at_end : state.is_completed ((context.layout i).turn_id ((context.layout i).draft 1)) = true :=
  Except.ok.inj (complete _ context.pipeline.owns.drafts AssociateDraftStage rfl)

/-- A partner loop that settles reviews a draft made before it. -/
theorem partner_loop_prepared (split : context.config.stages = before ++ .partner_loop :: rest) :
    .associate_draft ∈ before := by
  have owns := context.pipeline.owns
  by_contra late
  have untouched : Untouched context (· = .draft 1) state := by
    refine .run fresh known reached fun state untouched ctx before' name rest' slot record fills chosen => ?_
    subst chosen
    obtain ⟨stage, specs, slots, plays, mem⟩ := fills.plays
    have owned : name = .associate_draft := by simpa [Slot.planned_by] using plays.plans.owned _ mem
    subst owned
    have earlier := mem_of_nodup_split owns.stages_nodup split (fills.config ▸ plays.order) late (by decide)
    have rounds : 1 ≤ ctx.layout.ap := ctx.run.pipeline.owns.rounds_pos
    have drafted := StageContext.drafted_of_settled rounds (plays.complete _ earlier _ rfl)
    have open_slot := plays.plans.undone _ mem
    exact absurd (drafted.symm.trans open_slot) (by decide)
  have drafted := drafted_at_end known reached fresh unit complete
  have open_slot := untouched i (List.getElem?_eq_some_iff.mp unit).1 (.draft 1) rfl ⟨Nat.le_refl 1, owns.rounds_pos⟩
  exact absurd (drafted.symm.trans open_slot) (by decide)

/-- A restructure that completes has a panel's rulings before it. -/
theorem restructure_prepared (split : context.config.stages = before ++ .restructure :: rest) :
    prepared context.config before .restructure = true := by
  have owns := context.pipeline.owns
  have judged := StageContext.judged_of_restructured (complete .restructure (by simp [split]) (RestructureStage x) rfl)
  cases first : first_panel before with
  | none =>
    exfalso
    have late : ∀ name ∈ before, name ≠ .judge_panel ∧ name ≠ .narrative_assessment := by
      simpa [first_panel, List.find?_eq_none] using first
    have untouched : Untouched context (fun slot => ∃ j, slot = .judge j) state := by
      refine .run fresh known reached fun state untouched ctx before' name rest' slot record fills ⟨j, chosen⟩ => ?_
      subst chosen
      obtain ⟨stage, specs, slots, plays, mem⟩ := fills.plays
      have owned : name = .judge_panel ∨ name = .narrative_assessment := by
        simpa [Slot.planned_by] using plays.plans.owned _ mem
      have later : name ∉ before := fun mem => owned.elim (late name mem).1 (late name mem).2
      have ne : .restructure ≠ name := by rcases owned with rfl | rfl <;> decide
      have earlier := mem_of_nodup_split owns.stages_nodup split (fills.config ▸ plays.order) later ne
      have judged := StageContext.judged_of_restructured (plays.complete _ earlier (RestructureStage x) rfl)
      have within := plays.plans.within _ mem
      have seated := StageContext.judges_done_iff.mp judged j within.1 within.2
      have open_slot := plays.plans.undone _ mem
      exact absurd (seated.symm.trans open_slot) (by decide)
    have seated := StageContext.judges_done_iff.mp judged 1 (Nat.le_refl 1) owns.judges_pos
    have open_slot := untouched i (List.getElem?_eq_some_iff.mp unit).1 (.judge 1) ⟨1, rfl⟩ ⟨Nat.le_refl 1, owns.judges_pos⟩
    exact absurd (seated.symm.trans open_slot) (by decide)
  | some panel =>
    by_cases document : context.config.input_family = .document
    · simp only [prepared, first, document]
      split <;> simp_all
    · have kind : panel = .judge_panel ∨ panel = .narrative_assessment := by simpa using List.find?_some first
      rcases kind with rfl | rfl
      · simp [prepared, first]
      · exfalso
        have typed := RunContext.Typed.run fresh known reached
        have unit_ctx : { run := context, req_index := i, request, state : StageContext } ∈ contexts context state [] [] :=
          mem_contexts.mpr ⟨request, unit, rfl⟩
        have panel : StageContext.panel { run := context, req_index := i, request, state } = .narrative_assessment := by
          have here : first_panel context.config.stages = some .narrative_assessment :=
            split ▸ StageContext.first_panel_append first
          simp [StageContext.panel, panel_schema, StageContext.config, here]
        have drafted : (StageContext.latest_draft { run := context, req_index := i, request, state }).isSome = true :=
          StageContext.latest_draft_isSome owns.rounds_pos (drafted_at_end known reached fresh unit complete)
        obtain ⟨e, raises⟩ := (typed.of_mem unit_ctx).restructure_raises (x := x) document panel owns.judges_pos judged
          (by simp [StageContext.judged_draft, drafted])
        have completes := complete .restructure (by simp [split]) (RestructureStage x) rfl
        rw [raises] at completes
        cases completes

/-- A jury that is heard has a draft made before it. -/
theorem jury_panel_prepared (split : context.config.stages = before ++ .jury_panel :: rest) :
    prepared context.config before .jury_panel = true := by
  have owns := context.pipeline.owns
  by_contra unready
  obtain ⟨⟨jury, late⟩, no_bolster⟩ : (context.config.panels.jury = true ∧ .associate_draft ∉ before) ∧
      (.bolster ∈ before → context.config.loop_caps.bolster = 0) := by simpa [prepared] using unready
  have jurors : 1 ≤ context.config.panels.jurors := owns.jurors_pos jury
  have seats : 1 ≤ (context.layout i).jurors := by simpa [RunContext.layout, jury] using jurors
  have bound := (List.getElem?_eq_some_iff.mp unit).1
  have untouched : Untouched context
      (fun slot => (∃ j, slot = .jury j) ∨ slot.schema (panel_schema context.config.stages) = .draft) state := by
    refine .run fresh known reached fun state untouched ctx before' name rest' slot record fills chosen => ?_
    obtain ⟨stage, specs, slots, plays, mem⟩ := fills.plays
    have jury : ctx.config.panels.jury = true := fills.config ▸ jury
    -- as long as no draft is there, no juror can be prompted, and none is reached before the drafts are
    have undrafted : ctx.operative_draft = none := by
      by_contra drafted
      obtain ⟨record, found⟩ := Option.ne_none_iff_exists'.mp drafted
      obtain ⟨other, within, schema, done⟩ := StageContext.draft_in_of_operative found
      rw [StageContext.panel, fills.config] at schema
      rw [fills.layout] at within done
      have open_slot := untouched ctx.req_index fills.bound other (.inr schema) within
      rw [← fills.state_eq, ← fills.layout] at open_slot
      have done : ctx.done (other.seq ctx.layout) = true := by simp [StageContext.done_eq, fills.layout, done]
      exact absurd (done.symm.trans open_slot) (by decide)
    have unheard : .jury_panel ∉ before' := by
      intro earlier
      have heard := StageContext.jurors_of_complete (plays.complete _ earlier (JuryPanelStage x) rfl) jury
        (fills.config ▸ jurors)
      have open_slot := untouched ctx.req_index fills.bound (.jury 1) (.inl ⟨1, rfl⟩) ⟨Nat.le_refl 1, seats⟩
      rw [← fills.state_eq, ← fills.layout] at open_slot
      exact absurd (heard.symm.trans open_slot) (by decide)
    have order := fills.config ▸ plays.order
    have owned := plays.plans.owned _ mem
    cases slot with
    | jury j =>
      have owned : name = .jury_panel := by simpa [Slot.planned_by] using owned
      subst owned
      obtain rfl : JuryPanelStage x = stage := Option.some.inj plays.named
      have drafted := StageContext.operative_of_plan plays.planned jury
      simp [undrafted] at drafted
    | draft r =>
      by_cases first : r = 1
      · have owned : name = .associate_draft := by simpa [Slot.planned_by, first] using owned
        subst owned
        exact unheard (mem_of_nodup_split owns.stages_nodup split order late (by decide))
      · have owned : name = .partner_loop := by simpa [Slot.planned_by, first] using owned
        subst owned
        obtain rfl : PartnerLoopStage x = stage := Option.some.inj plays.named
        have rounds : 1 ≤ ctx.layout.ap := ctx.run.pipeline.owns.rounds_pos
        have drafted := StageContext.drafted_of_plan rounds plays.planned
        have latest := StageContext.latest_draft_isSome rounds drafted
        have judged : ctx.judged_draft.isSome = true := by simp [StageContext.judged_draft, latest]
        have operative := StageContext.operative_of_judged judged
        simp [undrafted] at operative
    | bolster k =>
      have owned : name = .bolster := by simpa [Slot.planned_by] using owned
      subst owned
      have within : 1 ≤ k ∧ k ≤ context.config.loop_caps.bolster := fills.within
      have late : .bolster ∉ before := fun earlier => by
        have none_left := no_bolster earlier
        omega
      exact unheard (mem_of_nodup_split owns.stages_nodup split order late (by decide))
    | restructure k =>
      have owned : name = .restructure := by simpa [Slot.planned_by] using owned
      subst owned
      obtain rfl : RestructureStage x = stage := Option.some.inj plays.named
      rcases StageContext.restructure_of_plan plays.planned with rfl | ⟨-, judged⟩
      · have none_planned := plays.plans.fitted.length_eq
        exact plays.plans.nonempty (List.length_eq_zero_iff.mp none_planned)
      · have operative := StageContext.operative_of_judged judged
        simp [undrafted] at operative
    | judge j =>
      rcases chosen with ⟨j', same⟩ | schema
      · cases same
      · simp only [Slot.schema, panel_schema] at schema
        split at schema <;> cases schema
    | _ => rcases chosen with ⟨j', same⟩ | schema <;> contradiction
  have drafted := drafted_at_end known reached fresh unit complete
  have open_slot := untouched i bound (.draft 1) (.inr rfl) ⟨Nat.le_refl 1, owns.rounds_pos⟩
  exact absurd (drafted.symm.trans open_slot) (by decide)

end Sound

/-! ### Accepted pipelines -/

theorem exists_accepted_fitting (some_draft : ∃ draft, (x.json_dumps (.draft draft)).utf8ByteSize ≤ MAX_JURY_DRAFT_BYTES)
    (schema : SchemaName) : ∃ output, schema.accepts output = true ∧
      ∀ draft, output = .draft draft → (x.json_dumps output).utf8ByteSize ≤ MAX_JURY_DRAFT_BYTES := by
  by_cases drafts : schema = .draft
  · subst drafts
    obtain ⟨draft, small⟩ := some_draft
    exact ⟨.draft draft, rfl, fun _ _ => small⟩
  · obtain ⟨output, accepted⟩ := exists_accepted schema
    refine ⟨output, accepted, fun draft out => ?_⟩
    subst out
    cases schema <;> simp [SchemaName.accepts] at accepted drafts

theorem DraftsFit.turn_completed {record : TurnRecord} (fits : DraftsFit x context state)
    (small : ∀ draft, record.output = .draft draft → (x.json_dumps record.output).utf8ByteSize ≤ MAX_JURY_DRAFT_BYTES) :
    DraftsFit x context (state.apply (.turn_completed record)) := by
  intro jury other mem
  obtain ⟨turn_id, found⟩ := Dict.mem_values.mp mem
  rw [get?_turn_completed] at found
  split at found
  · exact Option.some.inj found ▸ small
  · exact fits jury other (Dict.mem_values.mpr ⟨turn_id, found⟩)

theorem DraftsFit.jury_fits (fits : DraftsFit x context state) (typed : context.Typed state) :
    ∀ ctx ∈ read_contexts context state, ctx.JuryFits x := by
  intro ctx unit jury record operative
  have drafted := StageContext.draft_in_of_operative operative
  obtain ⟨draft, out⟩ := (typed.of_mem unit).draft_in drafted
  obtain ⟨slot, -, -, found⟩ := drafted
  rw [StageContext.record?, state_of_mem unit] at found
  rw [StageContext.config, run_of_mem unit] at jury
  exact fits jury record (Dict.mem_values.mpr ⟨_, found⟩) draft out

/-- A request of a run that never gets stuck can be brought to its end. -/
theorem reaches_completion (known : context.rubric.Known x)
    (some_draft : ∃ draft, (x.json_dumps (.draft draft)).utf8ByteSize ≤ MAX_JURY_DRAFT_BYTES)
    (sound : ∀ state, Relation.ReflTransGen (Completes x context) {} state → DraftsFit x context state →
      ∀ ctx ∈ read_contexts context state, ctx.NeverStuck x)
    {i : Nat} {request : TaskUnit} (unit : context.task_units[i]? = some request) (left : Nat) :
    ∀ state, (context.open_turns state).card = left → Relation.ReflTransGen (Completes x context) {} state →
      DraftsFit x context state → ∃ state, Relation.ReflTransGen (Completes x context) {} state ∧
        StageContext.Completed x { run := context, req_index := i, request, state } context.config.stages := by
  induction left using Nat.strong_induction_on with
  | _ left ih =>
    intro state size reached fits
    have typed := RunContext.Typed.run rfl known reached
    have mem : { run := context, req_index := i, request, state : StageContext } ∈ read_contexts context state :=
      mem_contexts.mpr ⟨request, unit, rfl⟩
    obtain ⟨specs, complete, planned, decided, settled⟩ := sound state reached fits _ mem
    cases specs with
    | nil =>
      -- nothing is planned, so the request is complete, stage by stage
      rw [settled rfl] at decided
      refine ⟨state, reached, ?_⟩
      cases ordered : ordered_stages x context.config.stages with
      | error e =>
        simp only [request_complete, StageContext.config, ordered, bind, Except.bind] at decided
        cases decided
      | ok stages =>
        simp only [request_complete, StageContext.config, ordered, bind, Except.bind] at decided
        split at decided
        · cases decided
        · rename_i found walk
          have none_left : found = none := by simpa [pure, Except.pure] using decided
          subst none_left
          exact StageContext.first_incomplete_none ordered walk
    | cons spec specs =>
      obtain ⟨output, valid, small⟩ := exists_accepted_fitting some_draft spec.output_schema_name
      have step : Completes x context state
          (state.apply (.turn_completed { spec, output, gate_results := [], completed_at := "" })) :=
        .turn mem planned List.mem_cons_self valid
      exact ih _ (size ▸ step.fewer typed known) _ rfl (reached.tail step) (fits.turn_completed small)

/-- An accepted pipeline never raises in its planner and never gets stuck exactly when its stages are well ordered
    (or the run has nothing to serve). -/
theorem pipeline_never_stuck_iff (known : context.rubric.Known x)
    (some_draft : ∃ draft, (x.json_dumps (.draft draft)).utf8ByteSize ≤ MAX_JURY_DRAFT_BYTES) :
    (∀ state, Relation.ReflTransGen (Completes x context) {} state → DraftsFit x context state →
      ∀ tier_models assembled_context, ∀ ctx ∈ contexts context state tier_models assembled_context, ctx.NeverStuck x) ↔
    (context.task_units = [] ∨ WellOrdered context.config) := by
  constructor
  · intro sound
    by_cases served : context.task_units = []
    · exact .inl served
    · refine .inr ?_
      obtain ⟨request, unit⟩ : ∃ request, context.task_units[0]? = some request := by
        cases units : context.task_units with
        | nil => exact absurd units served
        | cons request rest => exact ⟨request, by simp⟩
      have no_drafts : DraftsFit x context {} := by
        intro _ record mem
        cases mem
      obtain ⟨state, reached, complete⟩ := reaches_completion known some_draft
        (fun state reached fits => sound state reached fits [] []) unit _ {} rfl .refl no_drafts
      refine well_ordered_of_splits _ [] fun before name rest split => ?_
      cases name with
      | partner_loop =>
        have drafted := partner_loop_prepared known reached rfl unit complete split
        simpa [prepared] using drafted
      | restructure => exact restructure_prepared known reached rfl unit complete split
      | jury_panel => exact jury_panel_prepared known reached rfl unit complete split
      | _ => rfl
  · intro ordered state reached fits tier_models assembled_context ctx unit
    rcases ordered with nothing | well
    · obtain ⟨request, found, -⟩ := mem_contexts.mp unit
      simp [nothing] at found
    · have typed := RunContext.Typed.run rfl known reached
      have sound : PlansSoundly x context state tier_models assembled_context :=
        plans_soundly typed known well (fits.jury_fits typed)
      obtain ⟨specs, complete, planned, decided, settled⟩ := sound.never_wedges ctx unit
      exact ⟨specs, complete, planned, decided, settled.mp⟩

end

/-! ### Sample pipelines -/

namespace Sample

theorem rubric_known (cap : Option Rat) : (context cap).rubric.Known externals := fun _ mem => by cases mem

/-- The first request of the sample run. -/
def first_request (run : RunContext) (state : RunState) : StageContext where
  run
  req_index := 0
  request := .request { request_id := "ROG-1", number := 1, text := "Where?" }
  state

/-- The state once the first request's draft is in. -/
def first_drafted : RunState :=
  RunState.apply {} (.turn_completed
    { spec := (first_request (context none) {}).spec 0 .associate .associate_draft .draft fun base =>
        { (first_request (context none) {}).draft_context base with round := some 1 },
      output := .draft draft, completed_at := "" })

theorem first_draft_completes : Completes externals (context none) {} first_drafted := by
  have unit : first_request (context none) {} ∈ contexts (context none) {} [] [] := mem_contexts.mpr ⟨_, rfl, rfl⟩
  exact .turn unit rfl List.mem_cons_self rfl

theorem first_drafted_progresses :
    (∀ tier_models assembled_context, PlansSoundly externals (context none) first_drafted tier_models assembled_context) ∧
    ((∀ state', ¬Completes externals (context none) first_drafted state') →
      ∀ ctx ∈ read_contexts (context none) first_drafted, request_complete externals ctx = .ok true) ∧
    ∀ run : Nat → RunState, run 0 = {} → ∃ n, ¬Completes externals (context none) (run n) (run (n + 1)) :=
  planner_progress (by decide) (rubric_known none) rfl (.single first_draft_completes) fun ctx unit jury => by
    rw [StageContext.config, run_of_mem unit] at jury
    cases jury

/-- An accepted pipeline whose partner reviews before anyone drafts. -/
def backwards : RunContext :=
  { context none with
    pipeline :=
      { strategy := .thin_full
        effective_config :=
          { task := "discovery-responses", stages := [.partner_loop, .associate_draft, .assemble],
            loop_caps := { oc := 0, bolster := 0, restructure := 0 },
            gates := ["degeneracy", "completeness", "fabrication"], rubric_id := "discovery-responses-v1.0" }
        drafting_persona := .associate
        oc_personas := []
        active_personas := [.associate, .partner]
        owns := by constructor <;> decide } }

theorem backwards_gets_stuck :
    ¬∀ state, Relation.ReflTransGen (Completes externals backwards) {} state → DraftsFit externals backwards state →
      ∀ tier_models assembled_context, ∀ ctx ∈ contexts backwards state tier_models assembled_context,
        ctx.NeverStuck externals := by
  intro sound
  have no_drafts : DraftsFit externals backwards {} := fun jury => by cases jury
  obtain ⟨specs, complete, planned, -⟩ :=
    sound {} .refl no_drafts [] [] (first_request backwards {}) (mem_contexts.mpr ⟨_, rfl, rfl⟩)
  have raises : plan_request externals (first_request backwards {}) = .error (.value "instructions") := rfl
  rw [raises] at planned
  cases planned

theorem backwards_never_stuck_iff :
    (∀ state, Relation.ReflTransGen (Completes externals backwards) {} state → DraftsFit externals backwards state →
      ∀ tier_models assembled_context, ∀ ctx ∈ contexts backwards state tier_models assembled_context,
        ctx.NeverStuck externals) ↔
    (backwards.task_units = [] ∨ WellOrdered backwards.config) :=
  pipeline_never_stuck_iff (rubric_known none) ⟨draft, by decide⟩

end Sample

end MootLoop
