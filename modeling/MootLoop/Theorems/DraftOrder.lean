import Mathlib.Data.List.TakeWhile
import MootLoop.Drafts
import MootLoop.Theorems.Planned

/-! What the order of stages leaves of a run: what is complete when a slot is filled, and, where the stages are in the
    order of the draft accessors, that the operative draft is the newest one and the judged draft the one the judges saw. -/

namespace MootLoop

variable {x : Externals}

/-! ### Stages listed before others -/

theorem mem_before {stages before rest : List StageName} {first second : StageName} (nodup : stages.Nodup)
    (split : stages = before ++ second :: rest) (precedes : Precedes stages first second) (listed : first ∈ stages) :
    first ∈ before := by
  have alone : ∀ name ∈ before, name ≠ second := by
    rintro name mem rfl
    rw [split] at nodup
    exact List.disjoint_of_nodup_append nodup mem List.mem_cons_self
  have taken : stages.takeWhile (· ≠ second) = before := by
    rw [split, List.takeWhile_append_of_pos fun name mem => by simpa using alone name mem]
    simp
  exact taken ▸ precedes listed

theorem not_precedes_self {stages : List StageName} {name : StageName} (listed : name ∈ stages) :
    ¬Precedes stages name name := by
  intro precedes
  have differs := List.mem_takeWhile_imp (precedes listed)
  simp at differs

/-- Listed before every stage that plans the slot. -/
def Slot.After (stages : List StageName) (slot : Slot) (name : StageName) : Prop :=
  ∀ planner ∈ slot.planned_by, Precedes stages name planner

namespace StageContext
variable {ctx ctx' : StageContext}

/-- The completed turn of a slot. -/
def held (ctx : StageContext) (slot : Slot) : Option TurnRecord := ctx.record? (slot.seq ctx.layout)

/-- A later view of the same request. -/
structure Follows (ctx ctx' : StageContext) : Prop where
  run : ctx'.run = ctx.run
  request : ctx'.request = ctx.request
  index : ctx'.req_index = ctx.req_index
  kept : ∀ {seq : Nat} {record : TurnRecord}, ctx.record? seq = some record → ctx'.record? seq = some record

namespace Follows
variable (h : ctx.Follows ctx')
include h

theorem config : ctx'.config = ctx.config := congrArg RunContext.config h.run

theorem layout : ctx'.layout = ctx.layout := by
  simp only [StageContext.layout, h.config, h.run, h.index]

theorem done {seq : Nat} (done : ctx.done seq = true) : ctx'.done seq = true := by
  obtain ⟨record, found⟩ := exists_record done
  rw [done_eq, h.kept found]
  rfl

theorem all_done {slots : List Nat} (done : ctx.all_done slots = true) : ctx'.all_done slots = true :=
  List.all_eq_true.mpr fun seq mem => h.done (List.all_eq_true.mp done seq mem)

theorem record {seq : Nat} {record : TurnRecord} (found : ctx.record seq = .ok record) :
    ctx'.record seq = .ok record := by
  cases held : ctx.record? seq with
  | none =>
    simp only [StageContext.record, show ctx.state.completed_turns.get? (ctx.layout.turn_id seq) = none from held] at found
    cases found
  | some record' =>
    rw [record_eq held] at found
    cases found
    exact record_eq (h.kept held)

theorem round_done {r : Nat} (done : PartnerLoopStage.round_done ctx r = true) :
    PartnerLoopStage.round_done ctx' r = true := by
  obtain ⟨drafted, reviewed, scored⟩ := round_done_iff.mp done
  rw [round_done_iff, h.layout, h.run]
  exact ⟨h.done drafted, h.done reviewed, fun enabled => h.done (scored enabled)⟩

end Follows

/-- What the partner reviews does not change. -/
def SameReviews (ctx ctx' : StageContext) : Prop :=
  ∀ r record, ctx.partner_draft r = .ok record → ctx'.partner_draft r = .ok record

namespace Follows
variable (h : ctx.Follows ctx') (reviews : ctx.SameReviews ctx')
include h reviews

theorem round_state {r : Nat} {round : RoundState} (ok : ctx.round_state x r = .ok round) :
    ctx'.round_state x r = .ok round := by
  obtain ⟨reviewed, found, ok⟩ := bind_ok ok
  obtain ⟨draft, read, ok⟩ := bind_ok ok
  obtain ⟨scored, held, ok⟩ := bind_ok ok
  obtain ⟨rubric, scores, ok⟩ := bind_ok ok
  obtain ⟨cov, covered, ok⟩ := bind_ok ok
  cases ok
  have code : ctx'.code = ctx.code := by simp only [StageContext.code, h.request]
  rw [StageContext.round_state, h.layout, h.run, code, h.request, reviews r _ found]
  simp only [bind, Except.bind, read, h.record held, scores, covered]
  rfl

theorem converged_at {r : Nat} {converged : Bool} (ok : ctx.converged_at x r = .ok converged) :
    ctx'.converged_at x r = .ok converged := by
  obtain ⟨history, rounds, ok⟩ := bind_ok ok
  rw [StageContext.converged_at, Walk.mapM_mono (fun _ _ => h.round_state reviews) rounds, h.config]
  exact ok

theorem settles {r : Nat} {settled : Bool} (ok : PartnerLoopStage.settles x ctx r = .ok settled) :
    PartnerLoopStage.settles x ctx' r = .ok settled := by
  obtain ⟨reviewed, held, ok⟩ := bind_ok ok
  obtain ⟨critique, read, ok⟩ := bind_ok ok
  have rounds : PartnerLoopStage.minimum_rounds ctx' = PartnerLoopStage.minimum_rounds ctx := by
    simp only [PartnerLoopStage.minimum_rounds, h.run]
  simp only [PartnerLoopStage.settles, h.layout, h.record held, read, h.config, rounds, h.run, bind, Except.bind]
  simp only [bind, Except.bind] at ok
  split at ok
  · next enabled =>
    cases decided : ctx.converged_at x r with
    | error e => simp [decided] at ok
    | ok converged =>
      rw [if_pos enabled, h.converged_at reviews decided]
      simpa only [decided] using ok
  · next disabled =>
    rw [if_neg disabled]
    exact ok

theorem settled_from {rounds : List Nat} {r : Nat} (ok : PartnerLoopStage.settled_from x ctx rounds = .ok (some r)) :
    PartnerLoopStage.settled_from x ctx' rounds = .ok (some r) := by
  induction rounds with
  | nil => cases ok
  | cons first rest ih =>
    rw [PartnerLoopStage.settled_from] at ok ⊢
    split at ok
    · next done =>
      obtain ⟨settled, decided, ok⟩ := bind_ok ok
      rw [if_pos (h.round_done done), h.settles reviews decided]
      cases settled with
      | true => exact ok
      | false => exact ih ok
    · cases ok

/-- A settled partner loop stays settled while what it reviewed stays as it was. -/
theorem settled (complete : (PartnerLoopStage x).is_complete ctx = .ok true) :
    (PartnerLoopStage x).is_complete ctx' = .ok true := by
  obtain ⟨round, found, complete⟩ := bind_ok complete
  cases round with
  | none => cases complete
  | some r =>
    have again : PartnerLoopStage.settled_round x ctx' = .ok (some r) := by
      rw [PartnerLoopStage.settled_round, h.config]
      exact h.settled_from reviews found
    simp only [PartnerLoopStage, again, bind, Except.bind]
    rfl

end Follows

/-- What a complete stage leaves done for good; of the partner loop, its first round. -/
def Finished (ctx : StageContext) : StageName → Prop
  | .associate_draft => ctx.done (ctx.layout.draft 1) = true
  | .partner_loop => PartnerLoopStage.round_done ctx 1 = true
  | .oc_attack => ctx.all_done ((upto ctx.config.loop_caps.oc).map ctx.layout.oc_slot) = true
  | .bolster => ctx.all_done ((upto ctx.config.loop_caps.bolster).map ctx.layout.bolster_slot) = true
  | .judge_panel | .narrative_assessment => judges_done ctx = true
  | _ => True

theorem Finished.follows {name : StageName} (finished : ctx.Finished name) (h : ctx.Follows ctx') :
    ctx'.Finished name := by
  cases name with
  | associate_draft =>
    simp only [Finished, h.layout] at finished ⊢
    exact h.done finished
  | partner_loop => exact h.round_done finished
  | oc_attack =>
    simp only [Finished, h.layout, h.config] at finished ⊢
    exact h.all_done finished
  | bolster =>
    simp only [Finished, h.layout, h.config] at finished ⊢
    exact h.all_done finished
  | judge_panel =>
    simp only [Finished, judges_done, h.layout, h.config] at finished ⊢
    exact h.all_done finished
  | narrative_assessment =>
    simp only [Finished, judges_done, h.layout, h.config] at finished ⊢
    exact h.all_done finished
  | _ => trivial

theorem first_round_of_settled (complete : (PartnerLoopStage x).is_complete ctx = .ok true) :
    PartnerLoopStage.round_done ctx 1 = true := by
  by_contra undone
  obtain ⟨left, rounds⟩ := Nat.exists_eq_add_of_le' ctx.run.pipeline.owns.rounds_pos
  have rounds : ctx.config.loop_caps.associate_partner = left + 1 := rounds
  simp only [PartnerLoopStage, PartnerLoopStage.settled_round, upto, rounds, List.range'_succ, PartnerLoopStage.settled_from,
    undone, Bool.false_eq_true, if_false, bind, Except.bind] at complete
  cases complete

theorem Completed.finished {before : List StageName} (complete : ctx.Completed x before) {name : StageName}
    (mem : name ∈ before) : ctx.Finished name := by
  have done := complete name mem
  cases name with
  | associate_draft => exact Except.ok.inj (done AssociateDraftStage rfl)
  | partner_loop => exact first_round_of_settled (done (PartnerLoopStage x) rfl)
  | oc_attack => exact Except.ok.inj (done OCAttackStage rfl)
  | bolster => exact Except.ok.inj (done BolsterStage rfl)
  | judge_panel => exact Except.ok.inj (done JudgePanelStage rfl)
  | narrative_assessment => exact Except.ok.inj (done NarrativeAssessmentStage rfl)
  | _ => trivial

/-! ### One step of one request -/

/-- A step of the run as one request sees it: its slots stay as they are, or a turn its stage at play planned fills the
    slot it was planned for. -/
inductive Moves (x : Externals) (ctx ctx' : StageContext) : Prop
  | still (follows : ctx.Follows ctx') (same : ∀ slot, slot.Within ctx.layout → ctx'.held slot = ctx.held slot)
      (newest : ctx'.newest_draft = ctx.newest_draft)
  | filled {before : List StageName} {name : StageName} {slot : Slot} {record : TurnRecord}
      (driven : ctx.DrivenBy x before name slot record.spec) (follows : ctx.Follows ctx')
      (held : ∀ other, other.Within ctx.layout → ctx'.held other = if other = slot then some record else ctx.held other)
      (newest : ctx'.newest_draft = if slot.drafts then some record else ctx.newest_draft)

theorem Moves.follows (moves : ctx.Moves x ctx') : ctx.Follows ctx' := by
  cases moves with
  | still follows => exact follows
  | filled driven follows => exact follows

end StageContext

theorem mem_drafting_slots {l : SlotLayout} {slot : Slot} :
    slot ∈ l.drafting_slots ↔ slot.drafts = true ∧ slot.Within l := by
  simp only [SlotLayout.drafting_slots, List.mem_append, List.mem_map, StageContext.mem_upto]
  cases slot <;> simp [Slot.drafts, Slot.Within, Slot.number, Slot.room]

section Steps
variable {context : RunContext} {state state' : RunState} {tier_models : List (Role × String)}
  {assembled_context : List AssembledContextItem} {ctx ctx' : StageContext}

/-- A slot's turn drafts for a request when the slot is one of its drafting slots. -/
theorem mem_drafting_turns {i j : Nat} {slot : Slot} (within : slot.Within (context.layout i)) :
    (context.layout i).turn_id (slot.seq (context.layout i)) ∈ (context.layout j).drafting_turns ↔
      i = j ∧ slot.drafts = true := by
  constructor
  · intro mem
    obtain ⟨other, drafting, same⟩ := List.mem_map.mp mem
    obtain ⟨drafts, within'⟩ := mem_drafting_slots.mp drafting
    obtain ⟨rfl, rfl⟩ := slot_of_turn_id within' within same
    exact ⟨rfl, drafts⟩
  · rintro ⟨rfl, drafts⟩
    exact List.mem_map.mpr ⟨slot, mem_drafting_slots.mpr ⟨drafts, within⟩, rfl⟩

theorem newest_turn_completed {record : TurnRecord} (fresh : state.is_completed record.spec.turn_id = false)
    (here : ctx.state = state) (there : ctx'.state = state.apply (.turn_completed record)) (layout : ctx'.layout = ctx.layout) :
    ctx'.newest_draft =
      if record.spec.turn_id ∈ ctx.layout.drafting_turns then some record else ctx.newest_draft := by
  have entries : ctx'.state.completed_turns.entries = ctx.state.completed_turns.entries ++ [(record.spec.turn_id, record)] := by
    rw [there, here]
    exact Dict.entries_insert_fresh fresh
  rw [StageContext.newest_draft, StageContext.newest_draft, entries, layout, List.filter_append]
  split
  · next drafts => simp [drafts]
  · next other => simp [other]

theorem held_of_mem (unit : ctx ∈ contexts context state tier_models assembled_context) (slot : Slot) :
    ctx.held slot = state.completed_turns.get?
      ((context.layout ctx.req_index).turn_id (slot.seq (context.layout ctx.req_index))) := by
  rw [StageContext.held, StageContext.record?, layout_of_mem unit, state_of_mem unit]

/-- The same request before the step. -/
theorem mem_contexts_before (unit : ctx' ∈ contexts context state' tier_models assembled_context) (state : RunState) :
    { ctx' with state } ∈ contexts context state tier_models assembled_context := by
  obtain ⟨request, found, eq⟩ := mem_contexts.mp unit
  refine mem_contexts.mpr ⟨request, found, ?_⟩
  rw [eq]

theorem still_of_same (unit : ctx' ∈ contexts context state' tier_models assembled_context)
    (same : state'.completed_turns = state.completed_turns) : StageContext.Moves x { ctx' with state } ctx' := by
  have state_eq : ctx'.state.completed_turns = state.completed_turns := by rw [state_of_mem unit, same]
  have record (seq : Nat) : ctx'.record? seq = StageContext.record? { ctx' with state } seq := by
    rw [StageContext.record?, StageContext.record?, state_eq]
    rfl
  refine .still ⟨rfl, rfl, rfl, fun held => (record _).trans held⟩ (fun slot _ => record _) ?_
  rw [StageContext.newest_draft, StageContext.newest_draft, state_eq]
  rfl

section Completed
variable {record : TurnRecord} {before : List StageName} {name : StageName} {slot : Slot}
  {tier_models' : List (Role × String)} {assembled_context' : List AssembledContextItem}

theorem kept_of_fresh (fresh : state.is_completed record.spec.turn_id = false) {turn_id : TurnId} {held : TurnRecord}
    (found : state.completed_turns.get? turn_id = some held) :
    (state.apply (.turn_completed record)).completed_turns.get? turn_id = some held := by
  rw [get?_turn_completed, if_neg, found]
  rintro rfl
  simp [RunState.is_completed, Dict.contains, found] at fresh

/-- What a completed turn is to the request it was planned for. -/
theorem filled_of_same_request (unit : ctx ∈ contexts context state tier_models assembled_context)
    (unit' : ctx' ∈ contexts context (state.apply (.turn_completed record)) tier_models' assembled_context')
    (driven : ctx.DrivenBy x before name slot record.spec) (same : ctx.req_index = ctx'.req_index) : ctx.Moves x ctx' := by
  have at_layout := layout_of_mem unit
  have within : slot.Within (context.layout ctx.req_index) := at_layout ▸ driven.planned.within
  have turn : record.spec.turn_id = (context.layout ctx.req_index).turn_id (slot.seq (context.layout ctx.req_index)) :=
    at_layout ▸ driven.planned.turn_id
  have fresh : state.is_completed record.spec.turn_id = false := by
    rw [driven.planned.turn_id, ← state_of_mem unit]
    exact driven.planned.undone
  obtain ⟨request, found, eq⟩ := mem_contexts.mp unit
  obtain ⟨request', found', eq'⟩ := mem_contexts.mp unit'
  have request_eq : request = request' := by
    rw [same, found'] at found
    exact (Option.some.inj found).symm
  have layout : ctx'.layout = ctx.layout := by rw [layout_of_mem unit', at_layout, same]
  refine .filled driven ⟨(run_of_mem unit').trans (run_of_mem unit).symm, ?_, same.symm, fun {seq held} found => ?_⟩ ?_ ?_
  · rw [eq, eq', request_eq]
  · rw [StageContext.record?, layout, state_of_mem unit']
    rw [StageContext.record?, state_of_mem unit] at found
    exact kept_of_fresh fresh found
  · intro other within'
    rw [at_layout] at within'
    rw [held_of_mem unit', held_of_mem unit, get?_turn_completed, ← same]
    have iff : (context.layout ctx.req_index).turn_id (other.seq (context.layout ctx.req_index)) = record.spec.turn_id ↔
        other = slot := by
      rw [turn]
      exact ⟨fun eq => (slot_of_turn_id within' within eq).2, fun eq => eq ▸ rfl⟩
    simp only [iff]
  · rw [newest_turn_completed fresh (state_of_mem unit) (state_of_mem unit') layout, at_layout]
    simp only [turn, mem_drafting_turns within, true_and]

/-- A completed turn leaves the slots of the other requests as they are. -/
theorem still_of_other_request (unit : ctx ∈ contexts context state tier_models assembled_context)
    (unit' : ctx' ∈ contexts context (state.apply (.turn_completed record)) tier_models' assembled_context')
    (driven : ctx.DrivenBy x before name slot record.spec) (other : ctx.req_index ≠ ctx'.req_index) :
    StageContext.Moves x { ctx' with state } ctx' := by
  have at_layout := layout_of_mem unit
  have within : slot.Within (context.layout ctx.req_index) := at_layout ▸ driven.planned.within
  have turn : record.spec.turn_id = (context.layout ctx.req_index).turn_id (slot.seq (context.layout ctx.req_index)) :=
    at_layout ▸ driven.planned.turn_id
  have fresh : state.is_completed record.spec.turn_id = false := by
    rw [driven.planned.turn_id, ← state_of_mem unit]
    exact driven.planned.undone
  have layout : ctx'.layout = context.layout ctx'.req_index := layout_of_mem unit'
  refine .still ⟨rfl, rfl, rfl, fun {seq held} found => ?_⟩ ?_ ?_
  · rw [StageContext.record?, state_of_mem unit']
    exact kept_of_fresh fresh found
  · intro slot' within'
    have within' : slot'.Within (context.layout ctx'.req_index) := layout ▸ within'
    rw [held_of_mem unit', held_of_mem (mem_contexts_before unit' state), get?_turn_completed, if_neg]
    intro eq
    exact other (slot_of_turn_id within' within (eq.trans turn)).1.symm
  · have earlier : StageContext.state { ctx' with state } = state := rfl
    rw [newest_turn_completed fresh earlier (state_of_mem unit') rfl, if_neg]
    intro drafts
    have drafts : record.spec.turn_id ∈ (context.layout ctx'.req_index).drafting_turns := layout ▸ drafts
    rw [turn, mem_drafting_turns within] at drafts
    exact other drafts.1

end Completed

/-- What a step of the run is to one of its requests. -/
theorem Advances.moves (step : Advances x context state state')
    (unit : ctx' ∈ contexts context state' tier_models assembled_context) :
    ∃ tier_models assembled_context, ∃ ctx ∈ contexts context state tier_models assembled_context, ctx.Moves x ctx' := by
  cases step with
  | other event no_turn =>
    refine ⟨_, _, _, mem_contexts_before unit state, still_of_same unit ?_⟩
    cases event with
    | turn_completed record => exact absurd rfl (no_turn record)
    | run_resumed => simp only [RunState.apply]; split <;> rfl
    | _ => rfl
  | turn completes =>
    obtain ⟨planner, planned, chosen, -⟩ := completes
    obtain ⟨before, name, slot, driven⟩ := StageContext.request_plans planned _ chosen
    rename_i planning _ _ _ _ _
    by_cases same : planning.req_index = ctx'.req_index
    · exact ⟨_, _, planning, planner, filled_of_same_request planner unit driven same⟩
    · exact ⟨_, _, _, mem_contexts_before unit state, still_of_other_request planner unit driven same⟩

/-- What holds of a request none of whose turns is completed, and is kept by every step, holds in every run. -/
theorem reachable_request {I : StageContext → Prop} (start : ∀ ctx : StageContext, ctx.state.completed_turns = ∅ → I ctx)
    (keeps : ∀ ctx ctx', I ctx → StageContext.Moves x ctx ctx' → I ctx')
    (reached : Relation.ReflTransGen (Advances x context) {} state)
    (unit : ctx ∈ contexts context state tier_models assembled_context) : I ctx := by
  induction reached generalizing ctx tier_models assembled_context with
  | refl =>
    refine start ctx ?_
    rw [state_of_mem unit]
  | tail _ step ih =>
    obtain ⟨tier_models, assembled_context, before, earlier, moves⟩ := step.moves unit
    exact keeps before ctx (ih earlier) moves

end Steps

/-! ### What the order of stages leaves of every run -/

namespace StageContext
variable {ctx ctx' : StageContext}

/-- A slot of the request whose turn is completed. -/
def Filled (ctx : StageContext) (slot : Slot) : Prop :=
  slot.Within ctx.layout ∧ ctx.done (slot.seq ctx.layout) = true

theorem filled_iff_held {slot : Slot} (within : slot.Within ctx.layout) :
    ctx.Filled slot ↔ (ctx.held slot).isSome = true := by
  rw [Filled, done_eq]
  exact and_iff_right within

theorem Filled.follows {slot : Slot} (filled : ctx.Filled slot) (h : ctx.Follows ctx') : ctx'.Filled slot := by
  rw [Filled, h.layout]
  exact ⟨filled.1, h.done filled.2⟩

theorem DrivenBy.open {before : List StageName} {name : StageName} {slot : Slot} {spec : TurnSpec}
    (driven : ctx.DrivenBy x before name slot spec) : ¬ctx.Filled slot := by
  rintro ⟨-, done⟩
  rw [driven.planned.undone] at done
  cases done

theorem DrivenBy.listed {before : List StageName} {name : StageName} {slot : Slot} {spec : TurnSpec}
    (driven : ctx.DrivenBy x before name slot spec) : name ∈ ctx.config.stages := by
  obtain ⟨rest, order⟩ := driven.order
  rw [order]
  exact List.mem_append_right _ List.mem_cons_self

/-- A stage listed before those that plan the slot is complete when the slot's turn is planned. -/
theorem DrivenBy.earlier {before : List StageName} {name : StageName} {slot : Slot} {spec : TurnSpec}
    (driven : ctx.DrivenBy x before name slot spec) {stage : StageName} (listed : stage ∈ ctx.config.stages)
    (after : slot.After ctx.config.stages stage) : stage ∈ before := by
  obtain ⟨rest, order⟩ := driven.order
  exact mem_before ctx.run.pipeline.owns.stages_nodup order (after name driven.planned.owned) listed

/-- A slot is filled after a step when it was before, or when the step filled it. -/
theorem Moves.filled_before (moves : ctx.Moves x ctx') {slot : Slot} (filled : ctx'.Filled slot) :
    ctx.Filled slot ∨ ∃ before name spec, ctx.DrivenBy x before name slot spec := by
  have layout := moves.follows.layout
  have within : slot.Within ctx.layout := layout ▸ filled.1
  have held : (ctx'.held slot).isSome = true := (filled_iff_held filled.1).mp filled
  cases moves with
  | still _ same =>
    rw [same slot within] at held
    exact .inl ((filled_iff_held within).mpr held)
  | filled driven _ updated =>
    rw [updated slot within] at held
    split at held
    · next this =>
      subst this
      exact .inr ⟨_, _, _, driven⟩
    · exact .inl ((filled_iff_held within).mpr held)

theorem first_done_congr {slots : List Nat} (same : ∀ seq ∈ slots, ctx'.record? seq = ctx.record? seq) :
    ctx'.first_done slots = ctx.first_done slots := by
  rw [first_done, first_done, ← List.head?_filterMap, ← List.head?_filterMap, List.filterMap_congr same]

/-- The partner reviews what it reviewed while no bolster is filled, or the strategy shows it no bolster. -/
theorem Follows.same_reviews (h : ctx.Follows ctx')
    (same : ctx.run.pipeline.strategy = .adversarial_first → ∀ k, (Slot.bolster k).Within ctx.layout →
      ctx'.held (.bolster k) = ctx.held (.bolster k)) : ctx.SameReviews ctx' := by
  intro r record found
  rw [partner_draft, h.run]
  rw [partner_draft] at found
  by_cases first : r = 1 ∧ ctx.run.pipeline.strategy = .adversarial_first
  · have bolsters : ctx'.first_done ctx'.bolster_slots_down = ctx.first_done ctx.bolster_slots_down := by
      rw [bolster_slots_down, bolster_slots_down, h.layout, h.config]
      refine first_done_congr fun seq mem => ?_
      obtain ⟨k, member, rfl⟩ := List.mem_map.mp mem
      have held := same first.2 k (mem_downfrom.mp member)
      rw [StageContext.held, h.layout] at held
      exact held
    simp only [if_pos first, bolsters, h.layout] at found ⊢
    split at found
    · exact found
    · exact h.record found
  · simp only [if_neg first, h.layout] at found ⊢
    exact h.record found

theorem Moves.same_reviews (moves : ctx.Moves x ctx')
    (unbolstered : ∀ {before name k spec}, ctx.DrivenBy x before name (.bolster k) spec →
      ctx.run.pipeline.strategy ≠ .adversarial_first) : ctx.SameReviews ctx' := by
  refine moves.follows.same_reviews fun adversarial k within => ?_
  cases moves with
  | still _ same => exact same _ within
  | filled driven _ held =>
    rw [held _ within]
    split
    · next this =>
      subst this
      exact absurd adversarial (unbolstered driven)
    · rfl

/-- What is done of a request whose slots were filled in the order of its stages. -/
structure Ordered (x : Externals) (ctx : StageContext) : Prop where
  listed : ∀ {slot}, ctx.Filled slot → ∃ planner ∈ slot.planned_by, planner ∈ ctx.config.stages
  finished : ∀ {slot}, ctx.Filled slot → ∀ {name}, name ∈ ctx.config.stages → slot.After ctx.config.stages name →
    ctx.Finished name
  -- an adversarial-first bolster changes what the first round reviewed, and with it what settles the loop
  settled : ∀ {slot}, ctx.Filled slot → .partner_loop ∈ ctx.config.stages →
    slot.After ctx.config.stages .partner_loop →
    (ctx.run.pipeline.strategy = .adversarial_first → .bolster ∈ ctx.config.stages →
      slot.After ctx.config.stages .bolster) →
    (PartnerLoopStage x).is_complete ctx = .ok true
  redrafted : ∀ {r}, 1 ≤ r → ctx.Filled (.draft (r + 1)) → PartnerLoopStage.round_done ctx r = true
  bolstered : ∀ {k k'}, 1 ≤ k' → k' < k → ctx.Filled (.bolster k) → ctx.Filled (.bolster k')
  restructured : ∀ {k k'}, 1 ≤ k' → k' < k → ctx.Filled (.restructure k) → ctx.Filled (.restructure k')
  ruled : ∀ {k}, ctx.Filled (.restructure k) → ∃ j, ctx.Filled (.judge j)

theorem Ordered.start (none_done : ctx.state.completed_turns = ∅) : ctx.Ordered x := by
  have empty (slot : Slot) : ¬ctx.Filled slot := by
    rintro ⟨-, done⟩
    rw [done_eq, record?, none_done] at done
    cases done
  exact ⟨fun filled => absurd filled (empty _), fun filled => absurd filled (empty _), fun filled => absurd filled (empty _),
    fun _ filled => absurd filled (empty _), fun _ _ filled => absurd filled (empty _),
    fun _ _ filled => absurd filled (empty _), fun filled => absurd filled (empty _)⟩

/-- Every step of a run fills the slots of a request in the order of its stages. -/
theorem Ordered.moves (ordered : ctx.Ordered x) (moves : ctx.Moves x ctx') : ctx'.Ordered x := by
  have h := moves.follows
  have layout := h.layout
  have config := h.config
  refine ⟨fun {slot} filled => ?_, fun {slot} filled name listed after => ?_,
    fun {slot} filled listed after bolstered => ?_, fun {r} pos filled => ?_, fun {k k'} pos lt filled => ?_,
    fun {k k'} pos lt filled => ?_, fun {k} filled => ?_⟩
  · rw [config]
    rcases moves.filled_before filled with old | ⟨before, planner, spec, driven⟩
    · exact ordered.listed old
    · exact ⟨planner, driven.planned.owned, driven.listed⟩
  · rw [config] at listed after
    rcases moves.filled_before filled with old | ⟨before, planner, spec, driven⟩
    · exact (ordered.finished old listed after).follows h
    · exact (driven.complete.finished (driven.earlier listed after)).follows h
  · rw [config] at listed after bolstered
    rw [h.run] at bolstered
    rcases moves.filled_before filled with old | ⟨before, planner, spec, driven⟩
    · refine h.settled (moves.same_reviews fun driven adversarial => ?_) (ordered.settled old listed after bolstered)
      have bolster : .bolster ∈ ctx.config.stages := by
        have owned := List.mem_singleton.mp driven.planned.owned
        exact owned ▸ driven.listed
      have done := ordered.finished old bolster (bolstered adversarial bolster)
      exact driven.open ⟨driven.planned.within,
        List.all_eq_true.mp done _ (List.mem_map_of_mem (mem_upto.mpr driven.planned.within))⟩
    · refine h.settled (moves.same_reviews fun other adversarial => ?_)
        (driven.complete _ (driven.earlier listed after) _ rfl)
      have bolster : .bolster ∈ ctx.config.stages := by
        have owned := List.mem_singleton.mp other.planned.owned
        exact owned ▸ other.listed
      have done := driven.complete.finished (driven.earlier bolster (bolstered adversarial bolster))
      exact other.open ⟨other.planned.within,
        List.all_eq_true.mp done _ (List.mem_map_of_mem (mem_upto.mpr other.planned.within))⟩
  · rcases moves.filled_before filled with old | ⟨before, planner, spec, driven⟩
    · exact h.round_done (ordered.redrafted pos old)
    · rcases driven.shows with first | ⟨done, -⟩
      · omega
      · exact h.round_done done
  · rcases moves.filled_before filled with old | ⟨before, planner, spec, driven⟩
    · exact (ordered.bolstered pos lt old).follows h
    · have within : k ≤ ctx.layout.bolster := driven.planned.within.2
      have earlier : (Slot.bolster k').Within ctx.layout := ⟨pos, by simp only [Slot.number, Slot.room]; omega⟩
      exact Filled.follows ⟨earlier, driven.shows.1 k' pos lt⟩ h
  · rcases moves.filled_before filled with old | ⟨before, planner, spec, driven⟩
    · exact (ordered.restructured pos lt old).follows h
    · have within : k ≤ ctx.layout.restructure := driven.planned.within.2
      have earlier : (Slot.restructure k').Within ctx.layout := ⟨pos, by simp only [Slot.number, Slot.room]; omega⟩
      exact Filled.follows ⟨earlier, driven.shows.1 k' pos lt⟩ h
  · rcases moves.filled_before filled with old | ⟨before, planner, spec, driven⟩
    · obtain ⟨j, ruled⟩ := ordered.ruled old
      exact ⟨j, ruled.follows h⟩
    · obtain ⟨j, pos, le, done⟩ := driven.shows.2.2
      exact ⟨j, Filled.follows ⟨⟨pos, le⟩, done⟩ h⟩

/-! ### The draft accessors, by the slots that are filled -/

theorem held_eq_none {slot : Slot} (within : slot.Within ctx.layout) (unfilled : ¬ctx.Filled slot) :
    ctx.held slot = none := by
  rw [filled_iff_held within] at unfilled
  exact Option.not_isSome_iff_eq_none.mp unfilled

theorem filled_of_held {slot : Slot} {record : TurnRecord} (within : slot.Within ctx.layout)
    (held : ctx.held slot = some record) : ctx.Filled slot :=
  (filled_iff_held within).mpr (held ▸ rfl)

theorem downfrom_sorted (n : Nat) : (downfrom n).Pairwise (· > ·) := by
  rw [downfrom, List.pairwise_reverse]
  exact List.pairwise_lt_range'

/-- The last filled slot of a kind is the one the accessors find. -/
theorem first_done_last (slot : Nat → Slot) {n k : Nat} {record : TurnRecord} (pos : 1 ≤ k) (le : k ≤ n)
    (held : ctx.held (slot k) = some record) (later : ∀ k', k < k' → k' ≤ n → ctx.held (slot k') = none) :
    ctx.first_done ((downfrom n).map fun k => (slot k).seq ctx.layout) = some record := by
  obtain ⟨before, after, split⟩ := List.append_of_mem (mem_downfrom.mpr ⟨pos, le⟩)
  have sorted := downfrom_sorted n
  rw [split] at sorted
  have passed : before.findSome? (fun k => ctx.held (slot k)) = none := by
    refine List.findSome?_eq_none_iff.mpr fun k' mem => ?_
    have gt : k < k' := (List.pairwise_append.mp sorted).2.2 k' mem k List.mem_cons_self
    have room : k' ∈ downfrom n := split ▸ List.mem_append_left _ mem
    exact later k' gt (mem_downfrom.mp room).2
  rw [first_done, List.findSome?_map, split, List.findSome?_append]
  have none_before : before.findSome? (ctx.record? ∘ fun k => (slot k).seq ctx.layout) = none := passed
  have found : (ctx.record? ∘ fun k => (slot k).seq ctx.layout) k = some record := held
  rw [none_before, List.findSome?_cons, found]
  rfl

theorem first_done_none (slot : Nat → Slot) {numbers : List Nat} (unheld : ∀ k ∈ numbers, ctx.held (slot k) = none) :
    ctx.first_done (numbers.map fun k => (slot k).seq ctx.layout) = none := by
  rw [first_done, List.findSome?_map]
  exact List.findSome?_eq_none_iff.mpr unheld

theorem latest_draft_last {r : Nat} {record : TurnRecord} (within : (Slot.draft r).Within ctx.layout)
    (held : ctx.held (.draft r) = some record) (later : ∀ r', r < r' → ¬ctx.Filled (.draft r')) :
    ctx.latest_draft = some record :=
  first_done_last .draft within.1 within.2 held fun r' gt le =>
    held_eq_none ⟨by simp only [Slot.number]; omega, le⟩ (later r' gt)

theorem bolsters_last {k : Nat} {record : TurnRecord} (within : (Slot.bolster k).Within ctx.layout)
    (held : ctx.held (.bolster k) = some record) (later : ∀ k', k < k' → ¬ctx.Filled (.bolster k')) :
    ctx.first_done ctx.bolster_slots_down = some record :=
  first_done_last .bolster within.1 within.2 held fun k' gt le =>
    held_eq_none ⟨by simp only [Slot.number]; omega, le⟩ (later k' gt)

theorem bolsters_none (unbolstered : ∀ k, ¬ctx.Filled (.bolster k)) : ctx.first_done ctx.bolster_slots_down = none :=
  first_done_none .bolster fun k mem => held_eq_none (mem_downfrom.mp mem) (unbolstered k)

/-- The redrafts an adversarial-first loop puts before its bolsters. -/
def redrafts (ctx : StageContext) : Option TurnRecord :=
  ctx.first_done (((downfrom ctx.config.loop_caps.associate_partner).filter (1 < ·)).map ctx.layout.draft)

theorem redrafts_none (undrafted : ∀ r, 1 < r → ¬ctx.Filled (.draft r)) : ctx.redrafts = none :=
  first_done_none .draft fun r mem => by
    obtain ⟨room, later⟩ := List.mem_filter.mp mem
    exact held_eq_none (mem_downfrom.mp room) (undrafted r (of_decide_eq_true later))

theorem latest_draft_of_redrafts {record : TurnRecord} (redrafted : ctx.redrafts = some record) :
    ctx.latest_draft = some record := by
  have split (n : Nat) : downfrom (n + 1) = (downfrom (n + 1)).filter (1 < ·) ++ [1] := by
    have rest : (List.range' 2 n).reverse.filter (1 < ·) = (List.range' 2 n).reverse := by
      refine List.filter_eq_self.mpr fun r mem => ?_
      have ge := (List.mem_range'_1.mp (List.mem_reverse.mp mem)).1
      exact decide_eq_true (by omega)
    rw [downfrom, upto, List.range'_succ, List.reverse_cons, List.filter_append, rest]
    simp
  obtain ⟨left, rounds⟩ := Nat.exists_eq_add_of_le' ctx.run.pipeline.owns.rounds_pos
  have rounds : ctx.config.loop_caps.associate_partner = left + 1 := rounds
  rw [redrafts, first_done, rounds] at redrafted
  rw [latest_draft, first_done, rounds, split, List.map_append, List.findSome?_append, redrafted]
  rfl

theorem judged_draft_eq : ctx.judged_draft = ((if ctx.run.pipeline.strategy = .adversarial_first then ctx.redrafts
    else none).or (ctx.first_done ctx.bolster_slots_down)).or ctx.latest_draft := rfl

theorem judged_draft_unbolstered (unbolstered : ∀ k, ¬ctx.Filled (.bolster k)) :
    ctx.judged_draft = ctx.latest_draft := by
  rw [judged_draft_eq, bolsters_none unbolstered, Option.or_none]
  split
  · cases redrafted : ctx.redrafts with
    | none => rfl
    | some record => rw [latest_draft_of_redrafts redrafted, Option.some_or]
  · rfl

theorem judged_draft_redrafted {r : Nat} {record : TurnRecord} (adversarial : ctx.run.pipeline.strategy = .adversarial_first)
    (later : 1 < r) (within : (Slot.draft r).Within ctx.layout) (held : ctx.held (.draft r) = some record)
    (last : ∀ r', r < r' → ¬ctx.Filled (.draft r')) : ctx.judged_draft = some record := by
  have found : ctx.redrafts = some record := by
    cases redrafted : ctx.redrafts with
    | some other =>
      rw [← latest_draft_of_redrafts redrafted]
      exact latest_draft_last within held last
    | none =>
      have unheld := List.findSome?_eq_none_iff.mp redrafted (ctx.layout.draft r)
        (List.mem_map_of_mem (List.mem_filter.mpr ⟨mem_downfrom.mpr within, decide_eq_true later⟩))
      rw [StageContext.held, Slot.seq, unheld] at held
      cases held
  rw [judged_draft_eq, if_pos adversarial, found]
  rfl

theorem judged_draft_bolstered {k : Nat} {record : TurnRecord} (within : (Slot.bolster k).Within ctx.layout)
    (held : ctx.held (.bolster k) = some record) (last : ∀ k', k < k' → ¬ctx.Filled (.bolster k'))
    (first : ctx.run.pipeline.strategy = .adversarial_first → ∀ r, 1 < r → ¬ctx.Filled (.draft r)) :
    ctx.judged_draft = some record := by
  rw [judged_draft_eq, bolsters_last within held last]
  split
  · next adversarial =>
    rw [redrafts_none (first adversarial)]
    rfl
  · rfl

theorem operative_draft_restructured {k : Nat} {record : TurnRecord} (within : (Slot.restructure k).Within ctx.layout)
    (held : ctx.held (.restructure k) = some record) (last : ∀ k', k < k' → ¬ctx.Filled (.restructure k')) :
    ctx.operative_draft = some record := by
  have found : ctx.first_done ((downfrom ctx.config.loop_caps.restructure).map ctx.layout.restructure_slot) =
      some record :=
    first_done_last .restructure within.1 within.2 held fun k' gt le =>
      held_eq_none ⟨by simp only [Slot.number]; omega, le⟩ (last k' gt)
  rw [operative_draft, found]
  rfl

theorem operative_draft_unrestructured (unrestructured : ∀ k, ¬ctx.Filled (.restructure k)) :
    ctx.operative_draft = ctx.judged_draft := by
  have none_found : ctx.first_done ((downfrom ctx.config.loop_caps.restructure).map ctx.layout.restructure_slot) = none :=
    first_done_none .restructure fun k mem => held_eq_none (mem_downfrom.mp mem) (unrestructured k)
  rw [operative_draft, none_found]
  rfl

end StageContext

end MootLoop
