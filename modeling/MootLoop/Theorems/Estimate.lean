import MootLoop.Estimate
import MootLoop.Theorems.DraftOrder
import MootLoop.Theorems.Progress

/-! Turn ceilings: in every run a request completes at most as many turns as the ceiling of its pipeline, and the calls
    a pre-run estimate shows cover the turns of the whole run. -/

namespace MootLoop

variable {x : Externals} {context : RunContext} {state state' : RunState} {ctx : StageContext}
  {tier_models : List (Role × String)} {assembled_context : List AssembledContextItem}

/-! ### The turns a pipeline owes -/

/-- A slot a pipeline has turns for: one of its stages plans it, and a rubric round only where the rubric judge sits. -/
def RunContext.Owes (context : RunContext) (slot : Slot) : Prop :=
  (∃ planner ∈ slot.planned_by, planner ∈ context.config.stages) ∧
    ∀ r, slot = .rubric_loop r → context.pipeline.rubric_judge_enabled = true

/-- Those slots, as the ceiling counts them. -/
def owed_slots (config : TaskAdapterConfig) (rubric_enabled : Bool) : List Slot :=
  let stages := config.stages
  let rounds := upto config.loop_caps.associate_partner
  (if .partner_loop ∈ stages then
      rounds.map .draft ++ rounds.map .critique ++ (if rubric_enabled then rounds.map .rubric_loop else [])
    else [.draft 1])
  ++ (if .oc_attack ∈ stages then (upto config.loop_caps.oc).map .oc_attack else [])
  ++ (if .bolster ∈ stages then (upto config.loop_caps.bolster).map .bolster else [])
  ++ (if .judge_panel ∈ stages ∨ .narrative_assessment ∈ stages then (upto config.panels.judges).map .judge else [])
  ++ (if .restructure ∈ stages then (upto config.loop_caps.restructure).map .restructure else [])
  ++ (if .jury_panel ∈ stages ∧ config.panels.jury then (upto config.panels.jurors).map .jury else [])
  ++ (if .rubric_gate ∈ stages then (upto config.panels.rubric_judges).map .rubric_final else [])

theorem length_upto (n : Nat) : (upto n).length = n := List.length_range'

theorem length_owed_slots (config : TaskAdapterConfig) (rubric_enabled : Bool) :
    (owed_slots config rubric_enabled).length = pipeline_turn_ceiling config rubric_enabled := by
  have count (c : Prop) [Decidable c] (slots : List Slot) :
      (if c then slots else []).length = if c then slots.length else 0 := by
    split <;> rfl
  have loop (c : Prop) [Decidable c] (slots : List Slot) :
      (if c then slots else [.draft 1]).length = if c then slots.length else 1 := by
    split <;> rfl
  simp only [owed_slots, pipeline_turn_ceiling, List.length_append, List.length_map, length_upto, count, loop,
    Nat.two_mul]

theorem mem_owed_slots {i : Nat} {slot : Slot} (within : slot.Within (context.layout i)) (owes : context.Owes slot) :
    slot ∈ owed_slots context.config context.pipeline.rubric_judge_enabled := by
  obtain ⟨⟨planner, plans, listed⟩, scored⟩ := owes
  obtain ⟨pos, room⟩ := within
  cases slot with
  | draft r =>
    by_cases loop : .partner_loop ∈ context.config.stages
    · have mem : r ∈ upto context.config.loop_caps.associate_partner := StageContext.mem_upto.mpr ⟨pos, room⟩
      simp [owed_slots, loop, mem]
    · have first : r = 1 := by
        by_contra later
        rw [Slot.planned_by, if_neg later] at plans
        cases List.mem_singleton.mp plans
        exact loop listed
      simp [owed_slots, loop, first]
  | critique r =>
    cases List.mem_singleton.mp plans
    have mem : r ∈ upto context.config.loop_caps.associate_partner := StageContext.mem_upto.mpr ⟨pos, room⟩
    simp [owed_slots, listed, mem]
  | rubric_loop r =>
    cases List.mem_singleton.mp plans
    have mem : r ∈ upto context.config.loop_caps.associate_partner := StageContext.mem_upto.mpr ⟨pos, room⟩
    simp [owed_slots, listed, mem, scored r rfl]
  | oc_attack k =>
    cases List.mem_singleton.mp plans
    have mem : k ∈ upto context.config.loop_caps.oc := StageContext.mem_upto.mpr ⟨pos, room⟩
    simp [owed_slots, listed, mem]
  | bolster k =>
    cases List.mem_singleton.mp plans
    have mem : k ∈ upto context.config.loop_caps.bolster := StageContext.mem_upto.mpr ⟨pos, room⟩
    simp [owed_slots, listed, mem]
  | judge j =>
    have mem : j ∈ upto context.config.panels.judges := StageContext.mem_upto.mpr ⟨pos, room⟩
    have panel : .judge_panel ∈ context.config.stages ∨ .narrative_assessment ∈ context.config.stages := by
      rcases List.mem_cons.mp plans with rfl | plans
      · exact .inl listed
      · cases List.mem_singleton.mp plans
        exact .inr listed
    simp [owed_slots, panel, mem]
  | restructure k =>
    cases List.mem_singleton.mp plans
    have mem : k ∈ upto context.config.loop_caps.restructure := StageContext.mem_upto.mpr ⟨pos, room⟩
    simp [owed_slots, listed, mem]
  | jury j =>
    cases List.mem_singleton.mp plans
    cases jury : context.config.panels.jury with
    | false =>
      have none : (Slot.jury j).room (context.layout i) = 0 := by simp [Slot.room, RunContext.layout, jury]
      rw [none] at room
      exact absurd (Nat.le_trans pos room) (by decide)
    | true =>
      have seats : (Slot.jury j).room (context.layout i) = context.config.panels.jurors := by
        simp [Slot.room, RunContext.layout, jury]
      rw [seats] at room
      have mem : j ∈ upto context.config.panels.jurors := StageContext.mem_upto.mpr ⟨pos, room⟩
      simp [owed_slots, listed, jury, mem]
  | rubric_final m =>
    cases List.mem_singleton.mp plans
    have mem : m ∈ upto context.config.panels.rubric_judges := StageContext.mem_upto.mpr ⟨pos, room⟩
    simp [owed_slots, listed, mem]

/-! ### Only owed turns are planned -/

/-- Without the rubric judge the partner loop plans nothing for it. -/
theorem plan_from_unscored (disabled : ctx.run.pipeline.rubric_judge_enabled = false) (rounds : List Nat) :
    ∀ {specs}, PartnerLoopStage.plan_from x ctx rounds = .ok specs →
      ∀ spec ∈ specs, spec.output_schema_name ≠ .rubric_score := by
  induction rounds with
  | nil =>
    rintro specs ⟨⟩ spec ⟨⟩
  | cons r rest ih =>
    intro specs planned spec mem
    rw [PartnerLoopStage.plan_from, disabled, Bool.false_and] at planned
    split at planned
    · obtain ⟨drafted, redraft, planned⟩ := bind_ok planned
      cases planned
      cases List.mem_singleton.mp mem
      rw [PartnerLoopStage.redraft] at redraft
      split at redraft
      · cases redraft
      · obtain ⟨record, -, redraft⟩ := bind_ok redraft
        obtain ⟨prior, -, redraft⟩ := bind_ok redraft
        obtain ⟨previous, -, redraft⟩ := bind_ok redraft
        cases redraft
        intro scored
        cases scored
    · split at planned
      · obtain ⟨draft, -, planned⟩ := bind_ok planned
        cases planned
        cases List.mem_singleton.mp mem
        intro scored
        cases scored
      · rw [if_neg Bool.false_ne_true] at planned
        obtain ⟨settled, -, planned⟩ := bind_ok planned
        split at planned
        · cases planned
          cases mem
        · exact ih planned spec mem

/-- Every turn planned for a request is one its pipeline owes. -/
theorem planned_owed {specs : List TurnSpec} (planned : plan_request x ctx = .ok specs) :
    ∀ spec ∈ specs, ∃ slot, slot.Within ctx.layout ∧ ctx.run.Owes slot ∧
      spec.turn_id = ctx.layout.turn_id (slot.seq ctx.layout) := by
  obtain ⟨stages, ordered, planned⟩ := bind_ok planned
  obtain ⟨first, walk, planned⟩ := bind_ok planned
  rcases first with - | ⟨name, stage⟩
  · cases planned
    exact fun _ mem => absurd mem List.not_mem_nil
  · obtain ⟨before, rest, order, -, found, incomplete⟩ :=
      StageContext.first_incomplete_some [] (fun _ mem => absurd mem List.not_mem_nil) ordered walk
    intro spec mem
    obtain ⟨slot, at_slot, -⟩ := StageContext.stage_plans found incomplete planned spec mem
    have listed : name ∈ ctx.config.stages := by
      rw [order]
      exact List.mem_append_right _ List.mem_cons_self
    refine ⟨slot, at_slot.within, ⟨⟨name, at_slot.owned, listed⟩, ?_⟩, at_slot.turn_id⟩
    rintro r rfl
    cases List.mem_singleton.mp at_slot.owned
    cases found
    by_contra disabled
    exact plan_from_unscored (Bool.eq_false_iff.mpr disabled) _ planned spec mem at_slot.schema

/-- Every completed turn is one the pipeline of its request owes. -/
def RunContext.Within (context : RunContext) (state : RunState) : Prop :=
  ∀ turn_id ∈ state.completed_turns.keys, ∃ i < context.task_units.length, ∃ slot, slot.Within (context.layout i) ∧
    context.Owes slot ∧ turn_id = (context.layout i).turn_id (slot.seq (context.layout i))

theorem Advances.within (step : Advances x context state state') (within : context.Within state) :
    context.Within state' := by
  cases step with
  | turn completes =>
    obtain ⟨unit, planned, chosen, -⟩ := completes
    intro turn_id mem
    rw [RunState.apply, Dict.keys_insert] at mem
    have old_or_new := mem
    split at old_or_new
    · exact within turn_id old_or_new
    · rcases List.mem_append.mp old_or_new with old | new
      · exact within turn_id old
      · obtain ⟨slot, room, owes, named⟩ := planned_owed planned _ chosen
        obtain ⟨request, found, -⟩ := mem_contexts.mp unit
        rw [layout_of_mem unit] at room named
        rw [run_of_mem unit] at owes
        exact ⟨_, (List.getElem?_eq_some_iff.mp found).1, slot, room, owes, (List.mem_singleton.mp new).trans named⟩
  | other event no_turn =>
    have same : (state.apply event).completed_turns = state.completed_turns := by
      cases event with
      | turn_completed record => exact absurd rfl (no_turn record)
      | run_resumed => simp only [RunState.apply]; split <;> rfl
      | _ => rfl
    rw [RunContext.Within, same]
    exact within

theorem within_of_reachable (reached : Relation.ReflTransGen (Advances x context) {} state) : context.Within state := by
  induction reached with
  | refl => exact fun _ mem => absurd mem List.not_mem_nil
  | tail _ step ih => exact step.within ih

/-! ### Counting them -/

/-- The turns of a request's block that are completed. -/
def StageContext.completed (ctx : StageContext) : List Nat :=
  (List.range' ctx.layout.base ctx.layout.block).filter ctx.done

/-- In every run, a request completes at most as many turns as its pipeline's ceiling. -/
theorem request_within_ceiling (reached : Relation.ReflTransGen (Advances x context) {} state)
    (unit : ctx ∈ contexts context state tier_models assembled_context) :
    ctx.completed.length ≤ pipeline_turn_ceiling context.config context.pipeline.rubric_judge_enabled := by
  rw [← length_owed_slots, ← List.length_map (Slot.seq ctx.layout)]
  refine (List.subperm_of_subset (List.Nodup.filter _ List.nodup_range') ?_).length_le
  intro seq mem
  obtain ⟨block, done⟩ := List.mem_filter.mp mem
  obtain ⟨record, found⟩ := Dict.contains_iff.mp done
  rw [state_of_mem unit] at found
  obtain ⟨i, -, slot, room, owes, named⟩ := within_of_reachable reached _ (Dict.mem_keys.mpr ⟨record, found⟩)
  rw [layout_of_mem unit] at named block ⊢
  have same : seq = slot.seq (context.layout i) := SlotLayout.turn_id_injective named
  obtain ⟨low, high⟩ := List.mem_range'_1.mp block
  have index : ctx.req_index = i := by
    have size : (context.layout ctx.req_index).block = (context.layout i).block := rfl
    have base : (context.layout ctx.req_index).base = ctx.req_index * (context.layout i).block := rfl
    have here : seq / (context.layout i).block = ctx.req_index := by
      refine Nat.div_eq_of_lt_le (by omega) ?_
      rw [Nat.succ_mul]
      omega
    rw [← here, same]
    exact room.index
  rw [index, same]
  exact List.mem_map_of_mem (mem_owed_slots room owes)

theorem request_within_ceiling_first :
    (Sample.first_request (Sample.context none) Sample.first_drafted).completed.length ≤
      pipeline_turn_ceiling (Sample.context none).config (Sample.context none).pipeline.rubric_judge_enabled :=
  @request_within_ceiling Sample.externals _ _ _ [] [] (.single (.turn Sample.first_draft_completes))
    (mem_contexts.mpr ⟨_, rfl, rfl⟩)

/-- In every run, all requests together complete at most the ceiling for each. -/
theorem run_within_ceiling (reached : Relation.ReflTransGen (Advances x context) {} state) :
    state.completed_turns.keys.length ≤
      context.task_units.length * pipeline_turn_ceiling context.config context.pipeline.rubric_judge_enabled := by
  have slots : ((List.range context.task_units.length).flatMap fun i =>
      (owed_slots context.config context.pipeline.rubric_judge_enabled).map fun slot =>
        (context.layout i).turn_id (slot.seq (context.layout i))).length =
      context.task_units.length * pipeline_turn_ceiling context.config context.pipeline.rubric_judge_enabled := by
    simp [List.length_flatMap, length_owed_slots]
  rw [← slots]
  refine (List.subperm_of_subset state.completed_turns.nodup ?_).length_le
  intro turn_id mem
  obtain ⟨i, bound, slot, room, owes, rfl⟩ := within_of_reachable reached turn_id mem
  exact List.mem_flatMap.mpr ⟨i, List.mem_range.mpr bound, List.mem_map_of_mem (mem_owed_slots room owes)⟩

/-! ### The estimate -/

def ALL_STAGES : List StageName :=
  [.associate_draft, .partner_loop, .oc_attack, .bolster, .judge_panel, .narrative_assessment, .restructure,
   .jury_panel, .rubric_gate, .assemble, .citation_proposition]

theorem mem_all_stages (stage : StageName) : stage ∈ ALL_STAGES := by
  cases stage <;> decide

/-- A sum over the stages of a graph is a sum over all stages. -/
theorem sum_stages {stages : List StageName} (nodup : stages.Nodup) (f : StageName → Int) :
    (stages.map f).sum = (ALL_STAGES.map fun stage => if stage ∈ stages then f stage else 0).sum := by
  have filtered (all : List StageName) : ((all.filter (· ∈ stages)).map f).sum =
      (all.map fun stage => if stage ∈ stages then f stage else 0).sum := by
    induction all with
    | nil => rfl
    | cons stage rest ih => by_cases listed : stage ∈ stages <;> simp [listed, ih]
  have same : stages.Perm (ALL_STAGES.filter (· ∈ stages)) := by
    refine (List.perm_ext_iff_of_nodup nodup (List.Nodup.filter _ (by decide))).mpr fun stage => ?_
    simp [mem_all_stages]
  rw [(same.map f).sum_eq, filtered]

/-- The most calls the rows of a stage show for a request. -/
def max_per (config : TaskAdapterConfig) (obj : Nat) (stage : StageName) : Int :=
  ((stage_calls config obj stage).map (·.max_per)).sum

/-- The rows of an estimate show at least the ceiling for each request. -/
theorem ceiling_le_max_per {config : TaskAdapterConfig} (nodup : config.stages.Nodup)
    (drafts : .associate_draft ∈ config.stages) {obj : Nat} (objections : 1 ≤ obj) :
    (pipeline_turn_ceiling config ("rubric" ∈ config.gates) : Int) ≤ (config.stages.map (max_per config obj)).sum := by
  have partner : max_per config obj .associate_draft +
      (if .partner_loop ∈ config.stages then max_per config obj .partner_loop else 0) =
        ((if .partner_loop ∈ config.stages then 2 * config.loop_caps.associate_partner +
          (if "rubric" ∈ config.gates then config.loop_caps.associate_partner else 0) else 1 : Nat) : Int) := by
    by_cases loop : .partner_loop ∈ config.stages <;> by_cases rubric : "rubric" ∈ config.gates <;>
      simp [max_per, stage_calls, loop, rubric] <;> omega
  have judges : ((if .judge_panel ∈ config.stages ∨ .narrative_assessment ∈ config.stages then config.panels.judges
      else 0 : Nat) : Int) ≤ (if .judge_panel ∈ config.stages then max_per config obj .judge_panel else 0) +
        (if .narrative_assessment ∈ config.stages then max_per config obj .narrative_assessment else 0) := by
    have more : (config.panels.judges : Int) ≤ config.panels.judges * obj :=
      le_mul_of_one_le_right (Int.natCast_nonneg _) (by exact_mod_cast objections)
    by_cases panel : .judge_panel ∈ config.stages <;> by_cases narrative : .narrative_assessment ∈ config.stages <;>
      simp [max_per, stage_calls, panel, narrative] <;> omega
  have jury : ((if .jury_panel ∈ config.stages ∧ config.panels.jury then config.panels.jurors else 0 : Nat) : Int) =
      if .jury_panel ∈ config.stages then max_per config obj .jury_panel else 0 := by
    by_cases panel : .jury_panel ∈ config.stages <;> cases sits : config.panels.jury <;>
      by_cases empty : config.panels.jurors = 0 <;> simp [max_per, stage_calls, panel, sits, empty]
  have single (stage : StageName) (calls : Nat) (shown : max_per config obj stage = calls) :
      ((if stage ∈ config.stages then calls else 0 : Nat) : Int) =
        if stage ∈ config.stages then max_per config obj stage else 0 := by
    rw [shown]
    split <;> rfl
  have oc := single .oc_attack config.loop_caps.oc (by simp [max_per, stage_calls])
  have bolster := single .bolster config.loop_caps.bolster (by simp [max_per, stage_calls])
  have restructure := single .restructure config.loop_caps.restructure (by simp [max_per, stage_calls])
  have rubric_gate := single .rubric_gate config.panels.rubric_judges (by simp [max_per, stage_calls])
  have assemble : max_per config obj .assemble = 0 := rfl
  have check : max_per config obj .citation_proposition = 0 := rfl
  rw [sum_stages nodup]
  simp only [ALL_STAGES, List.map_cons, List.map_nil, List.sum_cons, List.sum_nil, if_pos drafts,
    pipeline_turn_ceiling, Nat.cast_add, decide_eq_true_eq, assemble, check, ite_self, oc, bolster, restructure,
    rubric_gate, jury] at partner ⊢
  omega

/-- A pre-run estimate that allows an objection a request shows at least the ceiling for each request. -/
theorem ceiling_le_estimate {config : TaskAdapterConfig} (nodup : config.stages.Nodup)
    (drafts : .associate_draft ∈ config.stages) {round4 : Rat → Rat} {requests : Nat} {tier : String} {on : Date}
    {assume : EstimateAssumptions} (objections : 1 ≤ assume.objections_per_request) {range : EstimateRange}
    (estimated : estimate_run round4 requests config tier on assume = .ok range) :
    ((requests * pipeline_turn_ceiling config ("rubric" ∈ config.gates) : Nat) : Int) ≤
      (range.breakdown.map (·.max_calls)).sum := by
  obtain ⟨models, -, shown⟩ := bind_ok estimated
  cases shown
  have rows (plan : List PlannedCalls) : ((plan.map (stage_estimate models requests on assume)).map (·.max_calls)).sum =
      requests * (plan.map (·.max_per)).sum := by
    induction plan with
    | nil => simp
    | cons row rest ih =>
      simp only [List.map_cons, List.sum_cons, ih, stage_estimate, Int.mul_add, Int.mul_comm row.max_per]
  have planned (stages : List StageName) : (stages.map (max_per config assume.objections_per_request)).sum =
      ((stages.flatMap (stage_calls config assume.objections_per_request)).map (·.max_per)).sum := by
    induction stages with
    | nil => rfl
    | cons stage rest ih => simp [max_per, ih]
  simp only [List.map_map, Function.comp_def] at rows ⊢
  rw [rows, ← planned, Nat.cast_mul]
  exact mul_le_mul_of_nonneg_left (ceiling_le_max_per nodup drafts objections) (Int.natCast_nonneg _)

/-- What a pre-run estimate shows covers every run: with at least one objection a request allowed for, the turns
    completed in any reachable state are no more than the calls of its rows. -/
theorem estimate_covers_run (reached : Relation.ReflTransGen (Advances x context) {} state) {round4 : Rat → Rat}
    {tier : String} {on : Date} {assume : EstimateAssumptions} (objections : 1 ≤ assume.objections_per_request)
    {range : EstimateRange}
    (estimated : estimate_run round4 context.task_units.length context.config tier on assume = .ok range) :
    (state.completed_turns.keys.length : Int) ≤ (range.breakdown.map (·.max_calls)).sum := by
  have owns := context.pipeline.owns
  have rubric : context.pipeline.rubric_judge_enabled = decide ("rubric" ∈ context.config.gates) := by
    rw [ResolvedPipeline.rubric_judge_enabled, RunContext.config, decide_eq_decide]
    exact owns.rubric_owned.trans owns.rubric_gated
  have ran := run_within_ceiling reached
  have shown := ceiling_le_estimate owns.stages_nodup owns.drafts objections estimated
  rw [rubric] at ran
  exact le_trans (Int.ofNat_le.mpr ran) shown

theorem estimate_covers_run_first : ∃ range,
    estimate_run id (Sample.context none).task_units.length (Sample.context none).config "low" (date 2026 1 5) {} =
      .ok range ∧
      (Sample.first_drafted.completed_turns.keys.length : Int) ≤ (range.breakdown.map (·.max_calls)).sum :=
  ⟨_, rfl, @estimate_covers_run Sample.externals _ _ (.single (.turn Sample.first_draft_completes)) id "low"
    (date 2026 1 5) {} (by decide) _ rfl⟩

end MootLoop
