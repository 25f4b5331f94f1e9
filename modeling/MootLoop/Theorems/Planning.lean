import MootLoop.Lib.Walk
import MootLoop.Theorems.Slots

/-! What each stage plans. A stage whose data is there never raises: it is complete, or it plans open slots of
    its own, each once. -/

namespace MootLoop

variable {x : Externals} {ctx : StageContext}

/-! ### Typed states -/

namespace SchemaName
variable {output : TurnOutput}

theorem draft_accepts (h : draft.accepts output = true) : ∃ o, output = .draft o := by
  cases output <;> simp [accepts] at h ⊢

theorem critique_accepts (h : critique.accepts output = true) : ∃ o, output = .critique o := by
  cases output <;> simp [accepts] at h ⊢

theorem judge_accepts (h : judge.accepts output = true) : ∃ o, output = .judge o := by
  cases output <;> simp [accepts] at h ⊢

theorem rubric_accepts (h : rubric_score.accepts output = true) : ∃ o, output = .rubric o := by
  cases output <;> simp [accepts] at h ⊢

end SchemaName

namespace StageContext

def panel (ctx : StageContext) : SchemaName := panel_schema ctx.config.stages

/-- Every completed slot of the request holds an output its schema accepts. -/
def Typed (ctx : StageContext) : Prop :=
  ∀ slot : Slot, slot.Within ctx.layout → ∀ record, ctx.record? (slot.seq ctx.layout) = some record →
    (slot.schema ctx.panel).accepts record.output = true

/-- What a stage plans: open slots of its own, each once, under the schemas of the slots. -/
structure Plans (ctx : StageContext) (stage : StageName) (specs : List TurnSpec) (slots : List Slot) : Prop where
  nonempty : slots ≠ []
  nodup : slots.Nodup
  within : ∀ slot ∈ slots, slot.Within ctx.layout
  owned : ∀ slot ∈ slots, stage ∈ slot.planned_by
  undone : ∀ slot ∈ slots, ctx.done (slot.seq ctx.layout) = false
  fitted : List.Forall₂ (fun slot spec =>
    spec.turn_id = ctx.layout.turn_id (slot.seq ctx.layout) ∧ spec.stage = stage ∧
      spec.output_schema_name = slot.schema ctx.panel ∧ spec.request_id = some ctx.request.request_id) slots specs

theorem Plans.single {stage : StageName} (slot : Slot) (spec : TurnSpec) (within : slot.Within ctx.layout)
    (owned : stage ∈ slot.planned_by) (undone : ctx.done (slot.seq ctx.layout) = false)
    (turn : spec.turn_id = ctx.layout.turn_id (slot.seq ctx.layout)) (staged : spec.stage = stage)
    (schema : spec.output_schema_name = slot.schema ctx.panel)
    (request : spec.request_id = some ctx.request.request_id) : ctx.Plans stage [spec] [slot] where
  nonempty := List.cons_ne_nil _ _
  nodup := List.nodup_singleton _
  within := by simpa using within
  owned := by simpa using owned
  undone := by simpa using undone
  fitted := .cons ⟨turn, staged, schema, request⟩ .nil

theorem Plans.slot_of {stage : StageName} {specs : List TurnSpec} {slots : List Slot} (plans : ctx.Plans stage specs slots)
    {spec : TurnSpec} (mem : spec ∈ specs) : ∃ slot ∈ slots, spec.turn_id = ctx.layout.turn_id (slot.seq ctx.layout) ∧
      spec.stage = stage ∧ spec.output_schema_name = slot.schema ctx.panel ∧
      spec.request_id = some ctx.request.request_id := by
  obtain ⟨i, bound, rfl⟩ := List.mem_iff_getElem.mp mem
  have room : i < slots.length := plans.fitted.length_eq ▸ bound
  exact ⟨slots[i], List.getElem_mem room, plans.fitted.get room bound⟩

/-- Planning a stage gives turns of its own, or raises for an operative draft that does not fit the jury's prompt. -/
def Advances (x : Externals) (ctx : StageContext) (name : StageName) : Except Error (List TurnSpec) → Prop
  | .ok specs => ∃ slots, ctx.Plans name specs slots
  | .error _ => ¬ctx.JuryFits x

/-- The stage does its part: it is complete, or it plans. -/
def Progresses (x : Externals) (ctx : StageContext) (name : StageName) (stage : Stage) : Prop :=
  stage.is_complete ctx = .ok true ∨ stage.is_complete ctx = .ok false ∧ ctx.Advances x name (stage.plan ctx)

theorem Progresses.planned {name : StageName} {stage : Stage} (specs : List TurnSpec) (slots : List Slot)
    (incomplete : stage.is_complete ctx = .ok false) (planned : stage.plan ctx = .ok specs)
    (plans : ctx.Plans name specs slots) : ctx.Progresses x name stage :=
  .inr ⟨incomplete, planned ▸ ⟨slots, plans⟩⟩

theorem done_eq (seq : Nat) : ctx.done seq = (ctx.record? seq).isSome := rfl

theorem exists_record {seq : Nat} (h : ctx.done seq = true) : ∃ record, ctx.record? seq = some record :=
  Option.isSome_iff_exists.mp h

theorem record_eq {seq : Nat} {record : TurnRecord} (h : ctx.record? seq = some record) : ctx.record seq = .ok record := by
  have found : ctx.state.completed_turns.get? (ctx.layout.turn_id seq) = some record := h
  simp only [StageContext.record, found]

theorem mem_upto {n k : Nat} : k ∈ upto n ↔ 1 ≤ k ∧ k ≤ n := by
  simp only [upto, List.mem_range'_1]
  omega

theorem mem_downfrom {n k : Nat} : k ∈ downfrom n ↔ 1 ≤ k ∧ k ≤ n := by
  simp only [downfrom, List.mem_reverse, mem_upto]

theorem first_done_eq_some {slots : List Nat} {record : TurnRecord} (h : ctx.first_done slots = some record) :
    ∃ seq ∈ slots, ctx.record? seq = some record := List.exists_of_findSome?_eq_some h

theorem first_done_isSome {slots : List Nat} {seq : Nat} (mem : seq ∈ slots) (done : ctx.done seq = true) :
    (ctx.first_done slots).isSome = true := by
  rw [first_done, List.findSome?_isSome_iff]
  exact ⟨seq, mem, done⟩

/-! ### Drafts -/

/-- The done slot a draft was taken from. -/
def DraftIn (ctx : StageContext) (record : TurnRecord) : Prop :=
  ∃ slot : Slot, slot.Within ctx.layout ∧ slot.schema ctx.panel = .draft ∧
    ctx.record? (slot.seq ctx.layout) = some record

theorem draft_in_of_rounds {rounds : List Nat} (room : ∀ r ∈ rounds, 1 ≤ r ∧ r ≤ ctx.layout.ap) {record : TurnRecord}
    (h : ctx.first_done (rounds.map ctx.layout.draft) = some record) : ctx.DraftIn record := by
  obtain ⟨seq, mem, found⟩ := first_done_eq_some h
  obtain ⟨r, round, rfl⟩ := List.mem_map.mp mem
  exact ⟨.draft r, room r round, rfl, found⟩

theorem draft_in_of_bolster {record : TurnRecord} (h : ctx.first_done ctx.bolster_slots_down = some record) :
    ctx.DraftIn record := by
  obtain ⟨seq, mem, found⟩ := first_done_eq_some h
  obtain ⟨k, room, rfl⟩ := List.mem_map.mp mem
  exact ⟨.bolster k, mem_downfrom.mp room, rfl, found⟩

theorem draft_in_of_judged {record : TurnRecord} (h : ctx.judged_draft = some record) : ctx.DraftIn record := by
  simp only [judged_draft, Option.or_eq_some_iff] at h
  rcases h with (redrafted | ⟨-, bolstered⟩) | ⟨-, latest⟩
  · split at redrafted
    · exact draft_in_of_rounds (fun r mem => mem_downfrom.mp (List.mem_of_mem_filter mem)) redrafted
    · cases redrafted
  · exact draft_in_of_bolster bolstered
  · exact draft_in_of_rounds (fun r mem => mem_downfrom.mp mem) latest

theorem draft_in_of_operative {record : TurnRecord} (h : ctx.operative_draft = some record) : ctx.DraftIn record := by
  simp only [operative_draft, Option.or_eq_some_iff] at h
  rcases h with restructured | ⟨-, judged⟩
  · obtain ⟨seq, mem, found⟩ := first_done_eq_some restructured
    obtain ⟨k, room, rfl⟩ := List.mem_map.mp mem
    exact ⟨.restructure k, mem_downfrom.mp room, rfl, found⟩
  · exact draft_in_of_judged judged

theorem Typed.draft_in (typed : ctx.Typed) {record : TurnRecord} (h : ctx.DraftIn record) :
    ∃ draft, record.output = .draft draft := by
  obtain ⟨slot, within, schema, found⟩ := h
  have accepted := typed slot within record found
  rw [schema] at accepted
  exact SchemaName.draft_accepts accepted

theorem latest_draft_isSome (rounds : 1 ≤ ctx.config.loop_caps.associate_partner)
    (drafted : ctx.done (ctx.layout.draft 1) = true) : ctx.latest_draft.isSome = true :=
  first_done_isSome (List.mem_map.mpr ⟨1, mem_downfrom.mpr ⟨Nat.le_refl 1, rounds⟩, rfl⟩) drafted

theorem operative_of_judged (h : ctx.judged_draft.isSome = true) : ctx.operative_draft.isSome = true := by
  simp [operative_draft, h]

/-! ### Panels and single passes -/

theorem not_all_done {slots : List Nat} (h : ctx.all_done slots = false) : ∃ seq ∈ slots, ctx.done seq = false := by
  simpa [all_done] using h

/-- A panel plans its open seats. -/
theorem plans_open_seats {stage : StageName} {seats : Nat} {slot : Nat → Slot} {spec : Nat → Nat → TurnSpec}
    (slot_injective : Function.Injective slot) (within : ∀ j, 1 ≤ j → j ≤ seats → (slot j).Within ctx.layout)
    (owned : ∀ j, stage ∈ (slot j).planned_by)
    (fitted : ∀ j seq, (spec j seq).turn_id = ctx.layout.turn_id seq ∧ (spec j seq).stage = stage ∧
      (spec j seq).output_schema_name = (slot j).schema ctx.panel ∧
      (spec j seq).request_id = some ctx.request.request_id)
    (incomplete : ctx.all_done ((upto seats).map fun j => (slot j).seq ctx.layout) = false) :
    ctx.Plans stage (ctx.open_seats seats (fun j => (slot j).seq ctx.layout) spec)
      (((upto seats).filter fun j => !ctx.done ((slot j).seq ctx.layout)).map slot) where
  nonempty := by
    obtain ⟨seq, mem, undone⟩ := not_all_done incomplete
    obtain ⟨j, room, rfl⟩ := List.mem_map.mp mem
    exact List.ne_nil_of_mem (List.mem_map.mpr ⟨j, List.mem_filter.mpr ⟨room, by simp [undone]⟩, rfl⟩)
  nodup := (List.Nodup.filter _ List.nodup_range').map slot_injective
  within := by
    intro s mem
    obtain ⟨j, room, rfl⟩ := List.mem_map.mp mem
    obtain ⟨pos, le⟩ := mem_upto.mp (List.mem_of_mem_filter room)
    exact within j pos le
  owned := by
    intro s mem
    obtain ⟨j, -, rfl⟩ := List.mem_map.mp mem
    exact owned j
  undone := by
    intro s mem
    obtain ⟨j, room, rfl⟩ := List.mem_map.mp mem
    simpa using (List.mem_filter.mp room).2
  fitted := by
    simp only [open_seats, List.forall₂_map_left_iff, List.forall₂_map_right_iff, List.forall₂_same]
    exact fun j _ => fitted j _

theorem panel_progresses {name : StageName} {stage : Stage} {seats : Nat} (slot : Nat → Slot) {spec : Nat → Nat → TurnSpec}
    (slot_injective : Function.Injective slot) (within : ∀ j, 1 ≤ j → j ≤ seats → (slot j).Within ctx.layout)
    (owned : ∀ j, name ∈ (slot j).planned_by)
    (completes : stage.is_complete ctx = .ok (ctx.all_done ((upto seats).map fun j => (slot j).seq ctx.layout)))
    (planned : stage.plan ctx = .ok (ctx.open_seats seats (fun j => (slot j).seq ctx.layout) spec))
    (fitted : ctx.all_done ((upto seats).map fun j => (slot j).seq ctx.layout) = false →
      ∀ j seq, (spec j seq).turn_id = ctx.layout.turn_id seq ∧ (spec j seq).stage = name ∧
        (spec j seq).output_schema_name = (slot j).schema ctx.panel ∧
        (spec j seq).request_id = some ctx.request.request_id) : ctx.Progresses x name stage := by
  rcases Bool.eq_false_or_eq_true (ctx.all_done ((upto seats).map fun j => (slot j).seq ctx.layout)) with done | undone
  · exact .inl (completes.trans (congrArg _ done))
  · exact .planned _ _ (completes.trans (congrArg _ undone)) planned
      (plans_open_seats slot_injective within owned (fitted undone) undone)

/-- The first open slot of a pass, the one a stage plans. -/
theorem find_open {n : Nat} {slot : Nat → Nat} (h : ctx.all_done ((upto n).map slot) = false) :
    ∃ k, (upto n).find? (fun k => !ctx.done (slot k)) = some k ∧ (1 ≤ k ∧ k ≤ n) ∧ ctx.done (slot k) = false := by
  obtain ⟨seq, mem, undone⟩ := not_all_done h
  obtain ⟨j, room, rfl⟩ := List.mem_map.mp mem
  have exists_open : ((upto n).find? fun k => !ctx.done (slot k)).isSome = true := by
    rw [List.find?_isSome]
    exact ⟨j, room, by simp [undone]⟩
  obtain ⟨k, found⟩ := Option.isSome_iff_exists.mp exists_open
  exact ⟨k, found, mem_upto.mp (List.mem_of_find?_eq_some found), by simpa using List.find?_some found⟩

/-! ### The stages -/

theorem associate_draft_progresses (rounds : 1 ≤ ctx.layout.ap) : ctx.Progresses x .associate_draft AssociateDraftStage := by
  rcases Bool.eq_false_or_eq_true (ctx.done (ctx.layout.draft 1)) with done | undone
  · exact .inl (congrArg Except.ok done)
  · refine .planned _ [.draft 1] (congrArg Except.ok undone) rfl ?_
    exact .single (.draft 1) _ ⟨Nat.le_refl 1, rounds⟩ (by simp [Slot.planned_by]) undone rfl rfl rfl rfl

theorem oc_attack_progresses (owned : ctx.run.pipeline.oc_personas ≠ []) : ctx.Progresses x .oc_attack OCAttackStage := by
  rcases Bool.eq_false_or_eq_true (ctx.all_done ((upto ctx.config.loop_caps.oc).map ctx.layout.oc_slot)) with done | undone
  · exact .inl (congrArg Except.ok done)
  · obtain ⟨k, found, room, undone_k⟩ := find_open undone
    have nonempty : (k - 1) % ctx.run.pipeline.oc_personas.length < ctx.run.pipeline.oc_personas.length :=
      Nat.mod_lt _ (List.length_pos_iff.mpr owned)
    refine .planned ?specs [.oc_attack k] (congrArg Except.ok undone) ?planned ?plans
    case planned =>
      simp only [OCAttackStage, found, List.getElem?_eq_getElem nonempty]
      rfl
    case plans => exact .single (.oc_attack k) _ room (by simp [Slot.planned_by]) undone_k rfl rfl rfl rfl

theorem bolster_progresses : ctx.Progresses x .bolster BolsterStage := by
  rcases Bool.eq_false_or_eq_true (ctx.all_done ((upto ctx.config.loop_caps.bolster).map ctx.layout.bolster_slot))
    with done | undone
  · exact .inl (congrArg Except.ok done)
  · obtain ⟨k, found, room, undone_k⟩ := find_open undone
    refine .planned ?specs [.bolster k] (congrArg Except.ok undone) ?planned ?plans
    case planned =>
      simp only [BolsterStage, found]
      rfl
    case plans => exact .single (.bolster k) _ room (by simp [Slot.planned_by]) undone_k rfl rfl rfl rfl

theorem judge_panel_progresses (panel : ctx.panel = .judge ∨ judges_done ctx = true) :
    ctx.Progresses x .judge_panel JudgePanelStage := by
  refine panel_progresses .judge (fun a b h => by cases h; rfl) (fun j pos le => ⟨pos, le⟩)
    (fun j => by simp [Slot.planned_by]) rfl rfl fun undone j seq => ⟨rfl, rfl, ?_, rfl⟩
  have undone : judges_done ctx = false := undone
  exact (panel.resolve_right (by simp [undone])).symm

theorem narrative_assessment_progresses (panel : ctx.panel = .narrative_assessment ∨ judges_done ctx = true) :
    ctx.Progresses x .narrative_assessment NarrativeAssessmentStage := by
  refine panel_progresses .judge (fun a b h => by cases h; rfl) (fun j pos le => ⟨pos, le⟩)
    (fun j => by simp [Slot.planned_by]) rfl rfl fun undone j seq => ⟨rfl, rfl, ?_, rfl⟩
  have undone : judges_done ctx = false := undone
  exact (panel.resolve_right (by simp [undone])).symm

theorem rubric_gate_progresses : ctx.Progresses x .rubric_gate RubricGateStage :=
  panel_progresses .rubric_final (fun a b h => by cases h; rfl) (fun j pos le => ⟨pos, le⟩)
    (fun j => by simp [Slot.planned_by]) rfl rfl fun _ j seq => ⟨rfl, rfl, rfl, rfl⟩

theorem jury_panel_progresses (operative : ctx.config.panels.jury = true → ctx.operative_draft.isSome = true) :
    ctx.Progresses x .jury_panel (JuryPanelStage x) := by
  rcases Bool.eq_false_or_eq_true ctx.config.panels.jury with jury | unused
  · obtain ⟨draft, found⟩ := Option.isSome_iff_exists.mp (operative jury)
    by_cases small : MAX_JURY_DRAFT_BYTES < (x.json_dumps draft.output).utf8ByteSize
    · rcases Bool.eq_false_or_eq_true (ctx.all_done ((upto ctx.config.panels.jurors).map ctx.layout.jury_slot))
        with done | undone
      · exact .inl (by simp [JuryPanelStage, jury, done])
      · refine .inr ⟨by simp [JuryPanelStage, jury, undone], ?_⟩
        simp only [JuryPanelStage, jury, found, Bool.not_true, Bool.false_eq_true, if_false, if_pos small]
        exact fun fits => Nat.not_le.mpr small (fits jury draft found)
    · refine panel_progresses .jury (fun a b h => by cases h; rfl) (fun j pos le => ⟨pos, ?_⟩)
        (fun j => by simp [Slot.planned_by]) (by simp only [JuryPanelStage, jury, Bool.not_true, Bool.false_or]; rfl)
        (by simp only [JuryPanelStage, jury, found, Bool.not_true, Bool.false_eq_true, if_false, if_neg small]; rfl)
        fun _ j seq => ⟨rfl, rfl, rfl, rfl⟩
      simpa [Slot.room, Slot.number, layout, jury] using le
  · exact .inl (by simp [JuryPanelStage, unused])

/-! ### Restructuring -/

theorem judges_done_iff : judges_done ctx = true ↔
    ∀ j, 1 ≤ j → j ≤ ctx.config.panels.judges → ctx.done (ctx.layout.judge_slot j) = true := by
  simp only [judges_done, all_done, List.all_eq_true, List.mem_map, mem_upto, forall_exists_index, and_imp]
  exact ⟨fun h j pos le => h _ j pos le rfl, fun h _ j pos le eq => eq ▸ h j pos le⟩

/-- Once the seats hold rulings, or the task has no objections to rule on, the panel's findings can be read. -/
theorem Typed.weak_ok (typed : ctx.Typed) (ruled : ctx.config.input_family = .document ∨ ctx.panel = .judge) :
    ∃ weak, RestructureStage.weak x ctx = .ok weak := by
  have results : ∃ results, ctx.panel_results x = .ok results := by
    unfold panel_results
    split
    · exact ⟨[], rfl⟩
    · rename_i discovery
      have panel := ruled.resolve_left discovery
      split
      · exact ⟨[], rfl⟩
      · rename_i record judged
        obtain ⟨draft, out⟩ := typed.draft_in (draft_in_of_judged judged)
        have rulings : ∀ record ∈ (upto ctx.config.panels.judges).filterMap fun j => ctx.record? (ctx.layout.judge_slot j),
            ∃ ruled, record.output.as_judge = .ok ruled := by
          intro record mem
          obtain ⟨j, room, found⟩ := List.mem_filterMap.mp mem
          have accepted := typed (.judge j) (mem_upto.mp room) record found
          rw [Slot.schema, panel] at accepted
          obtain ⟨ruled, out⟩ := SchemaName.judge_accepts accepted
          exact ⟨ruled, by rw [out]; rfl⟩
        obtain ⟨outputs, read, -⟩ := Walk.mapM_total rulings
        exact ⟨_, by simp only [out, TurnOutput.as_draft, read, bind, Except.bind]; rfl⟩
  obtain ⟨results, ok⟩ := results
  exact ⟨_, by simp only [RestructureStage.weak, ok, bind, Except.bind]; rfl⟩

theorem Typed.restructure_progresses (typed : ctx.Typed) (judged : judges_done ctx = true)
    (ruled : ctx.config.input_family = .document ∨ ctx.panel = .judge) :
    ctx.Progresses x .restructure (RestructureStage x) := by
  obtain ⟨weak, ok⟩ := typed.weak_ok (x := x) ruled
  by_cases strong : weak = []
  · exact .inl (by simp [RestructureStage, judged, ok, strong, bind, Except.bind, pure, Except.pure])
  · rcases Bool.eq_false_or_eq_true
      (ctx.all_done ((upto ctx.config.loop_caps.restructure).map ctx.layout.restructure_slot)) with done | undone
    · exact .inl (by simp [RestructureStage, judged, ok, strong, done, bind, Except.bind, pure, Except.pure])
    · obtain ⟨k, found, room, undone_k⟩ := find_open undone
      refine .planned ?specs [.restructure k]
        (by simp [RestructureStage, judged, ok, strong, undone, bind, Except.bind, pure, Except.pure]) ?planned ?plans
      case planned =>
        simp only [RestructureStage, ok, List.isEmpty_iff, strong, found, bind, Except.bind]
        rfl
      case plans => exact .single (.restructure k) _ room (by simp [Slot.planned_by]) undone_k rfl rfl rfl rfl

/-! ### Partner rounds -/

theorem coverage_ok {rubric : Rubric} (known : rubric.Known x) (draft : DraftOutput) (code text : String) :
    ∃ cov, coverage x draft rubric code text = .ok cov := by
  have checked : (rubric.criteria.filter fun c => c.kind = .present ∧ (presence_check x c.id).isNone).map (·.id) = [] := by
    simp only [List.map_eq_nil_iff, List.filter_eq_nil_iff, decide_eq_true_eq, not_and]
    intro c mem present
    exact fun missing => absurd (known c mem present) (by simp [Option.isNone_iff_eq_none.mp missing])
  simp only [coverage, applicable_checks, checked, ne_eq, not_true_eq_false, if_false, bind, Except.bind]
  split
  · exact ⟨1, rfl⟩
  · exact ⟨_, rfl⟩

/-- Every round up to `r` is done. -/
def RoundsDone (ctx : StageContext) (r : Nat) : Prop := ∀ rr, 1 ≤ rr → rr ≤ r → PartnerLoopStage.round_done ctx rr = true

theorem round_done_iff {r : Nat} : PartnerLoopStage.round_done ctx r = true ↔ ctx.done (ctx.layout.draft r) = true ∧
    ctx.done (ctx.layout.critique r) = true ∧
    (ctx.run.pipeline.rubric_judge_enabled = true → ctx.done (ctx.layout.rubric_loop r) = true) := by
  simp only [PartnerLoopStage.round_done, Bool.and_eq_true, Bool.or_eq_true, Bool.not_eq_true', and_assoc]
  cases ctx.run.pipeline.rubric_judge_enabled <;> simp

theorem RoundsDone.succ {r : Nat} (h : ctx.RoundsDone (r - 1)) (finished : PartnerLoopStage.round_done ctx r = true) :
    ctx.RoundsDone r := by
  intro rr pos le
  rcases Nat.lt_or_ge rr r with lt | ge
  · exact h rr pos (by omega)
  · exact Nat.le_antisymm le ge ▸ finished

namespace Typed
variable (typed : ctx.Typed) (known : ctx.run.rubric.Known x) {r : Nat}
include typed

theorem partner_draft_ok (room : 1 ≤ r ∧ r ≤ ctx.layout.ap) (drafted : ctx.done (ctx.layout.draft r) = true) :
    ∃ record, ctx.partner_draft r = .ok record ∧ ∃ draft, record.output = .draft draft := by
  unfold partner_draft
  dsimp only
  split
  · rename_i record bolstered
    split at bolstered
    · exact ⟨record, rfl, typed.draft_in (draft_in_of_bolster bolstered)⟩
    · cases bolstered
  · obtain ⟨record, found⟩ := exists_record drafted
    exact ⟨record, record_eq found, SchemaName.draft_accepts (typed (.draft r) room record found)⟩

theorem critique_ok (room : 1 ≤ r ∧ r ≤ ctx.layout.ap) (reviewed : ctx.done (ctx.layout.critique r) = true) :
    ∃ record critique, ctx.record (ctx.layout.critique r) = .ok record ∧ record.output.as_critique = .ok critique := by
  obtain ⟨record, found⟩ := exists_record reviewed
  obtain ⟨critique, out⟩ := SchemaName.critique_accepts (typed (.critique r) room record found)
  exact ⟨record, critique, record_eq found, by rw [out]; rfl⟩

include known

theorem round_state_ok (room : 1 ≤ r ∧ r ≤ ctx.layout.ap) (drafted : ctx.done (ctx.layout.draft r) = true)
    (scored : ctx.done (ctx.layout.rubric_loop r) = true) : ∃ round, ctx.round_state x r = .ok round := by
  obtain ⟨record, found, draft, out⟩ := typed.partner_draft_ok room drafted
  obtain ⟨rubric_record, rubric_found⟩ := exists_record scored
  obtain ⟨scores, rubric_out⟩ := SchemaName.rubric_accepts (typed (.rubric_loop r) room rubric_record rubric_found)
  obtain ⟨cov, covered⟩ := coverage_ok known draft ctx.code ctx.request.text
  refine ⟨?round, ?read⟩
  case read =>
    simp only [round_state, found, out, TurnOutput.as_draft, record_eq rubric_found, rubric_out, TurnOutput.as_rubric,
      covered, bind, Except.bind]
    rfl

/-- A round whose turns, and those of the rounds before it, are done either settles the loop or does not; the last
    one does. -/
theorem settles_ok (room : 1 ≤ r ∧ r ≤ ctx.layout.ap) (rounds : ctx.RoundsDone r) :
    ∃ settled, PartnerLoopStage.settles x ctx r = .ok settled ∧ (r = ctx.layout.ap → settled = true) := by
  obtain ⟨-, reviewed, -⟩ := round_done_iff.mp (rounds r room.1 (Nat.le_refl r))
  obtain ⟨record, critique, found, out⟩ := typed.critique_ok room reviewed
  have converges : ctx.run.pipeline.rubric_judge_enabled = true → ∃ converged, ctx.converged_at x r = .ok converged := by
    intro enabled
    have history : ∀ rr ∈ upto r, ∃ round, ctx.round_state x rr = .ok round := by
      intro rr mem
      obtain ⟨pos, le⟩ := mem_upto.mp mem
      obtain ⟨drafted, -, scored⟩ := round_done_iff.mp (rounds rr pos le)
      exact typed.round_state_ok known ⟨pos, Nat.le_trans le room.2⟩ drafted (scored enabled)
    obtain ⟨states, read, -⟩ := Walk.mapM_total history
    exact ⟨_, by simp only [converged_at, read, bind, Except.bind]; rfl⟩
  have read : ∃ converged, PartnerLoopStage.settles x ctx r = .ok (r = ctx.config.loop_caps.associate_partner ||
      (PartnerLoopStage.minimum_rounds ctx ≤ r && (critique.verdict = .approve || converged))) := by
    by_cases enabled : ctx.run.pipeline.rubric_judge_enabled = true
    · obtain ⟨converged, ok⟩ := converges enabled
      exact ⟨converged, by simp only [PartnerLoopStage.settles, found, out, if_pos enabled, ok, bind, Except.bind]; rfl⟩
    · exact ⟨false, by simp only [PartnerLoopStage.settles, found, out, if_neg enabled, bind, Except.bind]; rfl⟩
  obtain ⟨converged, read⟩ := read
  refine ⟨_, read, fun last => ?_⟩
  have cap : r = ctx.config.loop_caps.associate_partner := last
  simp [cap]

omit known in
/-- The first open slot of a round, while the rounds before it are done, is what the loop plans. -/
theorem plans_open_round (room : 1 ≤ r ∧ r ≤ ctx.layout.ap) (before : ctx.RoundsDone (r - 1))
    (started : r = 1 → ctx.done (ctx.layout.draft 1) = true) (rest : List Nat)
    (unfinished : PartnerLoopStage.round_done ctx r = false) :
    ∃ specs slots, PartnerLoopStage.plan_from x ctx (r :: rest) = .ok specs ∧ ctx.Plans .partner_loop specs slots := by
  rcases Bool.eq_false_or_eq_true (ctx.done (ctx.layout.draft r)) with drafted | undrafted
  · obtain ⟨draft, found, -⟩ := typed.partner_draft_ok room drafted
    rcases Bool.eq_false_or_eq_true (ctx.done (ctx.layout.critique r)) with reviewed | unreviewed
    · -- only the rubric judge's turn of the round is open
      have scored : ctx.run.pipeline.rubric_judge_enabled = true ∧ ctx.done (ctx.layout.rubric_loop r) = false := by
        simpa [PartnerLoopStage.round_done, drafted, reviewed] using unfinished
      refine ⟨?scoring, [.rubric_loop r], ?planned, ?plans⟩
      case planned =>
        simp only [PartnerLoopStage.plan_from, drafted, reviewed, scored, found, Bool.not_true, Bool.not_false,
          Bool.false_eq_true, if_false, Bool.and_self, if_true, bind, Except.bind]
        rfl
      case plans => exact .single (.rubric_loop r) _ room (by simp [Slot.planned_by]) scored.2 rfl rfl rfl rfl
    · refine ⟨?review, [.critique r], ?planned, ?plans⟩
      case planned =>
        simp only [PartnerLoopStage.plan_from, drafted, unreviewed, found, Bool.not_true, Bool.not_false,
          Bool.false_eq_true, if_false, if_true, bind, Except.bind]
        rfl
      case plans => exact .single (.critique r) _ room (by simp [Slot.planned_by]) unreviewed rfl rfl rfl rfl
  · -- the first draft is the associate's, so this round redrafts on the critique before it
    have later : r ≠ 1 := fun first => by simp [first, started first] at undrafted
    have room' : 1 ≤ r - 1 ∧ r - 1 ≤ ctx.layout.ap := by omega
    obtain ⟨drafted, reviewed, -⟩ := round_done_iff.mp (before (r - 1) room'.1 (Nat.le_refl _))
    obtain ⟨record, critique, found, out⟩ := typed.critique_ok room' reviewed
    obtain ⟨previous, previously, -⟩ := typed.partner_draft_ok room' drafted
    refine ⟨?redraft, [.draft r], ?planned, ?plans⟩
    case planned =>
      simp only [PartnerLoopStage.plan_from, undrafted, Bool.not_false, if_true, PartnerLoopStage.redraft, if_neg later,
        found, out, previously, bind, Except.bind]
      rfl
    case plans => exact .single (.draft r) _ room (by simp [Slot.planned_by, later]) undrafted rfl rfl rfl rfl

/-- The walk over the rounds left settles or finds an open slot: the last round always settles. -/
theorem rounds_progress (left : Nat) : ∀ r, 1 ≤ r → r + left = ctx.layout.ap → ctx.RoundsDone (r - 1) →
    (r = 1 → ctx.done (ctx.layout.draft 1) = true) →
    (∃ m, PartnerLoopStage.settled_from x ctx (List.range' r (left + 1)) = .ok (some m)) ∨
    PartnerLoopStage.settled_from x ctx (List.range' r (left + 1)) = .ok none ∧ ∃ specs slots,
      PartnerLoopStage.plan_from x ctx (List.range' r (left + 1)) = .ok specs ∧ ctx.Plans .partner_loop specs slots := by
  induction left with
  | zero =>
    intro r pos last before started
    have room : 1 ≤ r ∧ r ≤ ctx.layout.ap := ⟨pos, by omega⟩
    rcases Bool.eq_false_or_eq_true (PartnerLoopStage.round_done ctx r) with finished | unfinished
    · obtain ⟨settled, ok, final⟩ := typed.settles_ok known room (before.succ finished)
      have settled : settled = true := final (by omega)
      refine .inl ⟨r, ?_⟩
      simp only [List.range'_succ, PartnerLoopStage.settled_from, finished, if_true, ok, settled, bind, Except.bind]
      rfl
    · refine .inr ⟨?_, typed.plans_open_round room before started _ unfinished⟩
      simp only [List.range'_succ, PartnerLoopStage.settled_from, unfinished, Bool.false_eq_true, if_false]
  | succ left ih =>
    intro r pos rest before started
    have room : 1 ≤ r ∧ r ≤ ctx.layout.ap := ⟨pos, by omega⟩
    rw [List.range'_succ]
    rcases Bool.eq_false_or_eq_true (PartnerLoopStage.round_done ctx r) with finished | unfinished
    · obtain ⟨settled, ok, -⟩ := typed.settles_ok known room (before.succ finished)
      obtain ⟨drafted, reviewed, scored⟩ := round_done_iff.mp finished
      have scored : (ctx.run.pipeline.rubric_judge_enabled && !ctx.done (ctx.layout.rubric_loop r)) = false := by
        cases enabled : ctx.run.pipeline.rubric_judge_enabled <;> simp [enabled, scored]
      cases settled with
      | true =>
        refine .inl ⟨r, ?_⟩
        simp only [PartnerLoopStage.settled_from, finished, if_true, ok, bind, Except.bind]
        rfl
      | false =>
        simp only [PartnerLoopStage.settled_from, PartnerLoopStage.plan_from, finished, drafted, reviewed, scored, ok,
          Bool.not_true, Bool.false_eq_true, if_false, if_true, bind, Except.bind]
        exact ih (r + 1) (by omega) (by omega) (by simpa using before.succ finished) (by omega)
    · refine .inr ⟨?_, typed.plans_open_round room before started _ unfinished⟩
      simp only [PartnerLoopStage.settled_from, unfinished, Bool.false_eq_true, if_false]

theorem partner_loop_progresses (rounds : 1 ≤ ctx.layout.ap) (drafted : ctx.done (ctx.layout.draft 1) = true) :
    ctx.Progresses x .partner_loop (PartnerLoopStage x) := by
  have walk := typed.rounds_progress known (ctx.layout.ap - 1) 1 (Nat.le_refl 1) (by omega)
    (fun rr pos le => absurd le (by omega)) fun _ => drafted
  rw [Nat.sub_add_cancel rounds] at walk
  rcases walk with ⟨m, settled⟩ | ⟨unsettled, planned⟩
  · refine .inl ?_
    have settled : PartnerLoopStage.settled_round x ctx = .ok (some m) := settled
    simp only [PartnerLoopStage, settled, bind, Except.bind]
    rfl
  · obtain ⟨specs, slots, planned, plans⟩ := planned
    refine .planned specs slots ?_ planned plans
    have unsettled : PartnerLoopStage.settled_round x ctx = .ok none := unsettled
    simp only [PartnerLoopStage, unsettled, bind, Except.bind]
    rfl

end Typed

/-! ### What a stage that plans has found -/

/-- Only a drafted request has partner rounds planned: the first draft is no redraft. -/
theorem drafted_of_plan {specs : List TurnSpec} (rounds : 1 ≤ ctx.layout.ap)
    (planned : (PartnerLoopStage x).plan ctx = .ok specs) : ctx.done (ctx.layout.draft 1) = true := by
  by_contra undrafted
  have undrafted : ctx.done (ctx.layout.draft 1) = false := by simpa using undrafted
  obtain ⟨left, rounds⟩ := Nat.exists_eq_add_of_le' rounds
  have rounds : ctx.config.loop_caps.associate_partner = left + 1 := rounds
  simp only [PartnerLoopStage, upto, rounds, List.range'_succ, PartnerLoopStage.plan_from, undrafted, Bool.not_false,
    if_true, PartnerLoopStage.redraft, bind, Except.bind] at planned
  cases planned

theorem operative_of_plan {specs : List TurnSpec} (planned : (JuryPanelStage x).plan ctx = .ok specs)
    (jury : ctx.config.panels.jury = true) : ctx.operative_draft.isSome = true := by
  cases operative : ctx.operative_draft with
  | some draft => rfl
  | none =>
    simp only [JuryPanelStage, jury, operative, Bool.not_true, Bool.false_eq_true, if_false] at planned
    cases planned

/-- A restructure plans nothing, or a redraft of the draft the panel ruled on. -/
theorem restructure_of_plan {specs : List TurnSpec} (planned : (RestructureStage x).plan ctx = .ok specs) :
    specs = [] ∨ (∃ slots, ctx.Plans .restructure specs slots) ∧ ctx.judged_draft.isSome = true := by
  simp only [RestructureStage, bind, Except.bind] at planned
  split at planned
  · cases planned
  · rename_i weak found
    split at planned
    · exact .inl (Except.ok.inj planned).symm
    · rename_i strong
      split at planned
      · exact .inl (Except.ok.inj planned).symm
      · rename_i k first
        refine .inr ⟨⟨[.restructure k], ?_⟩, ?_⟩
        · have room := mem_upto.mp (List.mem_of_find?_eq_some first)
          have undone : ctx.done (ctx.layout.restructure_slot k) = false := by simpa using List.find?_some first
          rw [← Except.ok.inj planned]
          exact .single (.restructure k) _ room (by simp [Slot.planned_by]) undone rfl rfl rfl rfl
        · cases judged : ctx.judged_draft with
          | some draft => rfl
          | none =>
            -- without a draft to rule on there are no findings
            have nothing : ctx.panel_results x = .ok [] := by
              simp only [panel_results, judged]
              split <;> rfl
            simp only [RestructureStage.weak, nothing, bind, Except.bind, List.filter_nil] at found
            rw [← Except.ok.inj found] at strong
            exact absurd rfl strong

/-! ### What a complete stage has left -/

theorem drafted_of_settled (rounds : 1 ≤ ctx.layout.ap) (complete : (PartnerLoopStage x).is_complete ctx = .ok true) :
    ctx.done (ctx.layout.draft 1) = true := by
  by_contra undrafted
  have undrafted : PartnerLoopStage.round_done ctx 1 = false := by simp [PartnerLoopStage.round_done, undrafted]
  obtain ⟨left, rounds⟩ := Nat.exists_eq_add_of_le' rounds
  have rounds : ctx.config.loop_caps.associate_partner = left + 1 := rounds
  simp only [PartnerLoopStage, PartnerLoopStage.settled_round, upto, rounds, List.range'_succ, PartnerLoopStage.settled_from,
    undrafted, Bool.false_eq_true, if_false, bind, Except.bind] at complete
  cases complete

theorem judged_of_restructured (complete : (RestructureStage x).is_complete ctx = .ok true) : judges_done ctx = true := by
  cases judged : judges_done ctx with
  | true => rfl
  | false =>
    simp only [RestructureStage, judged, Bool.not_false, if_true] at complete
    cases complete

theorem jurors_of_complete (complete : (JuryPanelStage x).is_complete ctx = .ok true) (jury : ctx.config.panels.jury = true)
    (jurors : 1 ≤ ctx.config.panels.jurors) : ctx.done (ctx.layout.jury_slot 1) = true := by
  have seats : ctx.all_done ((upto ctx.config.panels.jurors).map ctx.layout.jury_slot) = true := by
    simpa [JuryPanelStage, jury] using complete
  exact List.all_eq_true.mp seats _ (List.mem_map.mpr ⟨1, mem_upto.mpr ⟨Nat.le_refl 1, jurors⟩, rfl⟩)

/-- A draft cannot be restructured on narrative assessments: reading them as rulings raises. -/
theorem Typed.restructure_raises (typed : ctx.Typed) (discovery : ctx.config.input_family ≠ .document)
    (panel : ctx.panel = .narrative_assessment) (judges : 1 ≤ ctx.config.panels.judges) (judged : judges_done ctx = true)
    (drafted : ctx.judged_draft.isSome = true) : ∃ e, (RestructureStage x).is_complete ctx = .error e := by
  obtain ⟨record, found⟩ := Option.isSome_iff_exists.mp drafted
  obtain ⟨draft, out⟩ := typed.draft_in (draft_in_of_judged found)
  obtain ⟨left, judges⟩ := Nat.exists_eq_add_of_le' judges
  obtain ⟨first, seat⟩ := exists_record (judges_done_iff.mp judged 1 (Nat.le_refl 1) (by omega))
  have accepted := typed (.judge 1) ⟨Nat.le_refl 1, show 1 ≤ ctx.config.panels.judges by omega⟩ first seat
  rw [Slot.schema, panel] at accepted
  have unread : ∃ e, first.output.as_judge = .error e := by
    cases out : first.output <;> simp [out, SchemaName.accepts] at accepted
    exact ⟨_, rfl⟩
  obtain ⟨e, unread⟩ := unread
  refine ⟨e, ?_⟩
  have raises : ctx.panel_results x = .error e := by
    simp only [panel_results, if_neg discovery, found, out, TurnOutput.as_draft, judges, upto, List.range'_succ,
      List.filterMap_cons, seat, List.mapM_cons, unread, bind, Except.bind]
  simp only [RestructureStage, judged, RestructureStage.weak, raises, Bool.not_true, Bool.false_eq_true, if_false, bind,
    Except.bind]

end StageContext

end MootLoop
