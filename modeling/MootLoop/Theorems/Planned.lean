import MootLoop.Theorems.Pipelines

/-! What every planned turn is, whatever the state it is planned in: an open slot of its request, planned by a stage
    the slot belongs to, under that stage's name and the slot's schema, and never the check of a citation. -/

namespace MootLoop

variable {x : Externals} {ctx : StageContext} {name : StageName} {stage : Stage} {specs : List TurnSpec}

namespace StageContext

/-- The schema the judges' slots have under a stage. -/
def seat_schema (stage : StageName) : SchemaName :=
  if stage = .narrative_assessment then .narrative_assessment else .judge

/-- A turn a stage plans for an open slot of the request. -/
structure PlannedAt (ctx : StageContext) (stage : StageName) (slot : Slot) (spec : TurnSpec) : Prop where
  within : slot.Within ctx.layout
  owned : stage ∈ slot.planned_by
  undone : ctx.done (slot.seq ctx.layout) = false
  turn_id : spec.turn_id = ctx.layout.turn_id (slot.seq ctx.layout)
  staged : spec.stage = stage
  schema : spec.output_schema_name = slot.schema (seat_schema stage)
  request : spec.request_id = some ctx.request.request_id
  unchecked : spec.prompt_context.check = none

/-- What a planned turn is shown, by its slot, and what was done before it. -/
def Shows (ctx : StageContext) (spec : TurnSpec) : Slot → Prop
  | .draft r => r = 1 ∨ PartnerLoopStage.round_done ctx (r - 1) = true ∧
      ∃ previous, ctx.partner_draft (r - 1) = .ok previous ∧ spec.prompt_context.previous_draft = some previous.output
  | .critique r | .rubric_loop r => PartnerLoopStage.round_done ctx r = false ∧ ctx.done (ctx.layout.draft r) = true ∧
      ∃ draft, ctx.partner_draft r = .ok draft ∧ spec.prompt_context.draft = some draft.output
  | .oc_attack _ => spec.prompt_context.draft = ctx.latest_draft.map (·.output)
  | .bolster k => (∀ k', 1 ≤ k' → k' < k → ctx.done (ctx.layout.bolster_slot k') = true) ∧
      spec.prompt_context.previous_draft = ctx.latest_draft.map (·.output)
  | .judge _ | .rubric_final _ | .jury _ => spec.prompt_context.draft = ctx.operative_draft.map (·.output)
  | .restructure k => (∀ k', 1 ≤ k' → k' < k → ctx.done (ctx.layout.restructure_slot k') = true) ∧
      spec.prompt_context.previous_draft = ctx.judged_draft.map (·.output) ∧
      ∃ j, 1 ≤ j ∧ j ≤ ctx.layout.judges ∧ ctx.done (ctx.layout.judge_slot j) = true

theorem spec_draft {seq : Nat} {persona : PersonaName} {schema : SchemaName} {extra : PromptContext → PromptContext} :
    (ctx.spec seq persona name schema extra).prompt_context.draft = (extra (ctx.base_context persona)).draft := by
  simp only [spec]
  split <;> rfl

theorem spec_previous_draft {seq : Nat} {persona : PersonaName} {schema : SchemaName}
    {extra : PromptContext → PromptContext} :
    (ctx.spec seq persona name schema extra).prompt_context.previous_draft =
      (extra (ctx.base_context persona)).previous_draft := by
  simp only [spec]
  split <;> rfl

/-- A spec of the request's own is planned for its slot, when it carries no check. -/
theorem planned_at {slot : Slot} {persona : PersonaName} {schema : SchemaName} {extra : PromptContext → PromptContext}
    (within : slot.Within ctx.layout) (owned : name ∈ slot.planned_by) (undone : ctx.done (slot.seq ctx.layout) = false)
    (fits : schema = slot.schema (seat_schema name))
    (unchecked : (extra (ctx.base_context persona)).check = none) :
    ctx.PlannedAt name slot (ctx.spec (slot.seq ctx.layout) persona name schema extra) where
  within := within
  owned := owned
  undone := undone
  turn_id := rfl
  staged := rfl
  schema := fits
  request := rfl
  unchecked := by
    simp only [spec]
    split <;> exact unchecked

/-- The open seats of a panel are planned for their slots. -/
theorem planned_seats {seats : Nat} (slot : Nat → Slot) {persona : PersonaName} {schema : SchemaName}
    {extra : Nat → PromptContext → PromptContext}
    (within : ∀ j, 1 ≤ j → j ≤ seats → (slot j).Within ctx.layout) (owned : ∀ j, name ∈ (slot j).planned_by)
    (fits : ∀ j, schema = (slot j).schema (seat_schema name))
    (unchecked : ∀ j, (extra j (ctx.base_context persona)).check = none)
    (shows : ∀ j, ctx.Shows (ctx.spec ((slot j).seq ctx.layout) persona name schema (extra j)) (slot j)) :
    ∀ spec ∈ ctx.open_seats seats (fun j => (slot j).seq ctx.layout) fun j seq => ctx.spec seq persona name schema (extra j),
      ∃ slot, ctx.PlannedAt name slot spec ∧ ctx.Shows spec slot := by
  intro spec mem
  obtain ⟨j, open_seat, rfl⟩ := List.mem_map.mp mem
  obtain ⟨seat, undone⟩ := List.mem_filter.mp open_seat
  obtain ⟨pos, le⟩ := mem_upto.mp seat
  exact ⟨slot j, planned_at (within j pos le) (owned j) (by simpa using undone) (fits j) (unchecked j), shows j⟩

theorem found_open {n k : Nat} {slot : Nat → Nat} (found : (upto n).find? (fun k => !ctx.done (slot k)) = some k) :
    (1 ≤ k ∧ k ≤ n) ∧ ctx.done (slot k) = false ∧ ∀ k', 1 ≤ k' → k' < k → ctx.done (slot k') = true := by
  obtain ⟨undone, room, passed⟩ := List.find?_range'_eq_some.mp found
  exact ⟨mem_upto.mp room, by simpa using undone, fun k' pos lt => by simpa using passed k' pos lt⟩

/-- A restructure's findings rest on a ruling. -/
theorem ruled_of_weak {weak : List PanelResult} (found : RestructureStage.weak x ctx = .ok weak) (some_weak : weak ≠ []) :
    ∃ j, 1 ≤ j ∧ j ≤ ctx.layout.judges ∧ ctx.done (ctx.layout.judge_slot j) = true := by
  by_contra silent
  have unjudged : (upto ctx.config.panels.judges).filterMap (fun j => ctx.record? (ctx.layout.judge_slot j)) = [] := by
    refine List.filterMap_eq_nil_iff.mpr fun j mem => ?_
    obtain ⟨pos, le⟩ := mem_upto.mp mem
    by_contra ruled
    exact silent ⟨j, pos, le, by rw [done_eq]; exact Option.isSome_iff_ne_none.mpr ruled⟩
  obtain ⟨results, folded, found⟩ := bind_ok found
  cases found
  apply some_weak
  have unvoted : ∀ r ∈ results, r.total_votes = 0 := by
    rw [panel_results] at folded
    split at folded
    · cases folded
      exact fun _ mem => absurd mem List.not_mem_nil
    · split at folded
      · cases folded
        exact fun _ mem => absurd mem List.not_mem_nil
      · obtain ⟨draft, -, folded⟩ := bind_ok folded
        simp only [unjudged] at folded
        cases folded
        intro r mem
        obtain ⟨entry, -, rfl⟩ := List.mem_map.mp mem
        rfl
  refine List.filter_eq_nil_iff.mpr fun r mem => ?_
  simp [unvoted r mem]

/-- The partner loop plans the first open turn of a round from `r` on. -/
theorem planned_rounds (left : Nat) : ∀ r, 1 ≤ r → r + left ≤ ctx.layout.ap + 1 →
    (r ≠ 1 → PartnerLoopStage.round_done ctx (r - 1) = true) → ∀ {specs},
    PartnerLoopStage.plan_from x ctx (List.range' r left) = .ok specs →
      ∀ spec ∈ specs, ∃ slot, ctx.PlannedAt .partner_loop slot spec ∧ ctx.Shows spec slot := by
  induction left with
  | zero =>
    intro r pos room before specs planned
    cases planned
    exact fun _ mem => absurd mem List.not_mem_nil
  | succ left ih =>
    intro r pos room before specs planned
    have here : 1 ≤ r ∧ r ≤ ctx.layout.ap := ⟨pos, by omega⟩
    rw [List.range'_succ, PartnerLoopStage.plan_from] at planned
    split at planned
    · next open_draft =>
      obtain ⟨spec, drafted, planned⟩ := bind_ok planned
      cases planned
      intro _ mem
      obtain rfl := List.mem_singleton.mp mem
      rw [PartnerLoopStage.redraft] at drafted
      split at drafted
      · cases drafted
      · next later =>
        obtain ⟨record, -, drafted⟩ := bind_ok drafted
        obtain ⟨prior, -, drafted⟩ := bind_ok drafted
        obtain ⟨previous, found, drafted⟩ := bind_ok drafted
        cases drafted
        exact ⟨.draft r, planned_at here (by simp [Slot.planned_by, later]) (by simpa [Slot.seq] using open_draft) rfl rfl,
          .inr ⟨before later, previous, found, spec_previous_draft⟩⟩
    · next drafted =>
      have drafted : ctx.done (ctx.layout.draft r) = true := by simpa using drafted
      split at planned
      · next open_critique =>
        obtain ⟨draft, found, planned⟩ := bind_ok planned
        cases planned
        intro _ mem
        obtain rfl := List.mem_singleton.mp mem
        have undone : ctx.done (ctx.layout.critique r) = false := by simpa using open_critique
        exact ⟨.critique r, planned_at here (by simp [Slot.planned_by]) undone rfl rfl,
          by simp [PartnerLoopStage.round_done, undone], drafted, draft, found, spec_draft⟩
      · next reviewed =>
        split at planned
        · next open_score =>
          obtain ⟨draft, found, planned⟩ := bind_ok planned
          cases planned
          intro _ mem
          obtain rfl := List.mem_singleton.mp mem
          obtain ⟨enabled, undone⟩ := Bool.and_eq_true_iff.mp open_score
          have undone : ctx.done (ctx.layout.rubric_loop r) = false := by simpa using undone
          exact ⟨.rubric_loop r, planned_at here (by simp [Slot.planned_by]) undone rfl rfl,
            by simp [PartnerLoopStage.round_done, enabled, undone], drafted, draft, found, spec_draft⟩
        · next scored =>
          obtain ⟨settled, -, planned⟩ := bind_ok planned
          split at planned
          · cases planned
            exact fun _ mem => absurd mem List.not_mem_nil
          · have round : PartnerLoopStage.round_done ctx r = true :=
              round_done_iff.mpr ⟨drafted, by simpa using reviewed, fun enabled => by simpa [enabled] using scored⟩
            exact ih (r + 1) (by omega) (by omega) (fun _ => round) planned

/-- Whatever an incomplete stage plans is planned for open slots of its own. -/
theorem stage_plans (found : STAGES x name = some stage) (incomplete : stage.is_complete ctx = .ok false)
    (planned : stage.plan ctx = .ok specs) :
    ∀ spec ∈ specs, ∃ slot, ctx.PlannedAt name slot spec ∧ ctx.Shows spec slot := by
  have rounds : 1 ≤ ctx.layout.ap := ctx.run.pipeline.owns.rounds_pos
  have nothing : ∀ spec ∈ ([] : List TurnSpec), ∃ slot, ctx.PlannedAt name slot spec ∧ ctx.Shows spec slot :=
    fun _ mem => absurd mem List.not_mem_nil
  have judges : ∀ schema, schema = seat_schema name → name = .judge_panel ∨ name = .narrative_assessment →
      ∀ spec ∈ judge_seats ctx name schema, ∃ slot, ctx.PlannedAt name slot spec ∧ ctx.Shows spec slot :=
    fun schema fits kind => planned_seats .judge (fun j pos le => ⟨pos, le⟩)
      (fun j => by simpa [Slot.planned_by] using kind) (fun _ => fits) (fun _ => rfl) fun _ => spec_draft
  cases name with
  | associate_draft =>
    cases found
    cases planned
    intro _ mem
    obtain rfl := List.mem_singleton.mp mem
    exact ⟨.draft 1, planned_at ⟨Nat.le_refl 1, rounds⟩ (by simp [Slot.planned_by]) (Except.ok.inj incomplete) rfl rfl,
      .inl rfl⟩
  | partner_loop =>
    cases found
    exact planned_rounds _ 1 (Nat.le_refl 1) (Nat.le_of_eq (Nat.add_comm 1 _)) (fun later => absurd rfl later) planned
  | oc_attack =>
    cases found
    simp only [OCAttackStage] at planned
    split at planned
    · cases planned
      exact nothing
    · next k at_k =>
      obtain ⟨room, undone, -⟩ := found_open at_k
      split at planned
      · cases planned
      · cases planned
        intro _ mem
        obtain rfl := List.mem_singleton.mp mem
        exact ⟨.oc_attack k, planned_at room (by simp [Slot.planned_by]) undone rfl rfl, spec_draft⟩
  | bolster =>
    cases found
    simp only [BolsterStage] at planned
    split at planned
    · cases planned
      exact nothing
    · next k at_k =>
      obtain ⟨room, undone, passed⟩ := found_open at_k
      cases planned
      intro _ mem
      obtain rfl := List.mem_singleton.mp mem
      exact ⟨.bolster k, planned_at room (by simp [Slot.planned_by]) undone rfl rfl, passed, spec_previous_draft⟩
  | judge_panel =>
    cases found
    cases planned
    exact judges _ rfl (.inl rfl)
  | narrative_assessment =>
    cases found
    cases planned
    exact judges _ rfl (.inr rfl)
  | restructure =>
    cases found
    obtain ⟨weak, found, planned⟩ := bind_ok planned
    split at planned
    · cases planned
      exact nothing
    · next some_weak =>
      split at planned
      · cases planned
        exact nothing
      · next k at_k =>
        obtain ⟨room, undone, passed⟩ := found_open at_k
        cases planned
        intro _ mem
        obtain rfl := List.mem_singleton.mp mem
        exact ⟨.restructure k, planned_at room (by simp [Slot.planned_by]) undone rfl rfl, passed, spec_previous_draft,
          ruled_of_weak found fun none_weak => some_weak (by rw [none_weak]; rfl)⟩
  | jury_panel =>
    cases found
    simp only [JuryPanelStage] at planned
    split at planned
    · cases planned
      exact nothing
    · next jury =>
      have jury : ctx.config.panels.jury = true := by simpa using jury
      split at planned
      · cases planned
      · next operative =>
        split at planned
        · cases planned
        · cases planned
          refine planned_seats .jury (fun j pos le => ⟨pos, ?_⟩) (fun j => by simp [Slot.planned_by])
            (fun _ => rfl) (fun _ => rfl) fun _ => spec_draft.trans (by rw [operative]; rfl)
          simpa [Slot.room, layout, jury, Slot.number] using le
  | rubric_gate =>
    cases found
    cases planned
    exact planned_seats .rubric_final (fun j pos le => ⟨pos, le⟩) (fun j => by simp [Slot.planned_by])
      (fun _ => rfl) (fun _ => rfl) fun _ => spec_draft
  | assemble => cases found
  | citation_proposition => cases found

/-- A turn of the request's stage at play: that stage is not complete, and those listed before it are. -/
structure DrivenBy (x : Externals) (ctx : StageContext) (before : List StageName) (name : StageName) (slot : Slot)
    (spec : TurnSpec) : Prop where
  order : ∃ rest, ctx.config.stages = before ++ name :: rest
  complete : ctx.Completed x before
  incomplete : ∃ stage, STAGES x name = some stage ∧ stage.is_complete ctx = .ok false
  planned : ctx.PlannedAt name slot spec
  shows : ctx.Shows spec slot

/-- The turns of a request are planned for open slots by the first of its stages that is not complete. -/
theorem request_plans (planned : plan_request x ctx = .ok specs) :
    ∀ spec ∈ specs, ∃ before name slot, ctx.DrivenBy x before name slot spec := by
  obtain ⟨stages, ordered, planned⟩ := bind_ok planned
  obtain ⟨first, walk, planned⟩ := bind_ok planned
  rcases first with - | ⟨name, stage⟩
  · cases planned
    exact fun _ mem => absurd mem List.not_mem_nil
  · obtain ⟨before, rest, order, complete, found, incomplete⟩ :=
      first_incomplete_some [] (fun _ mem => absurd mem List.not_mem_nil) ordered walk
    intro spec mem
    obtain ⟨slot, planned, shows⟩ := stage_plans found incomplete planned spec mem
    exact ⟨before, name, slot, ⟨rest, order⟩, complete, ⟨stage, found, incomplete⟩, planned, shows⟩

end StageContext

/-- Every turn planned for a run is planned for an open slot of one of its requests. -/
theorem run_plans {context : RunContext} {state : RunState} (planned : plan_run x context state = .ok specs) :
    ∀ spec ∈ specs, ∃ ctx ∈ contexts context state context.tier_models context.assembled_context,
      ∃ before name slot, ctx.DrivenBy x before name slot spec := by
  rw [plan_run, plan] at planned
  split at planned
  · cases planned
    exact fun _ mem => absurd mem List.not_mem_nil
  · obtain ⟨plans, each, planned⟩ := bind_ok planned
    cases planned
    intro spec mem
    obtain ⟨plan, member, mem⟩ := List.mem_flatten.mp mem
    obtain ⟨ctx, unit, planned⟩ := Walk.mem_of_mapM each member
    exact ⟨ctx, unit, StageContext.request_plans planned spec mem⟩

end MootLoop
