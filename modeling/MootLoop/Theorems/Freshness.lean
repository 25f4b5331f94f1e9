import MootLoop.Theorems.DraftOrder
import MootLoop.Theorems.Progress

/-! The draft accessors over whole runs: where the stages are in their order, the operative draft is the newest one, the
    judged draft is the one the judges saw, and every planned turn is shown the newest draft. -/

namespace MootLoop

variable {x : Externals}

theorem FreshInOrder.bolster_in_order {strategy : PipelineStrategy} {config : TaskAdapterConfig}
    (fresh : FreshInOrder strategy config) : BolsterInOrder strategy config := by
  intro listed room
  obtain ⟨-, drafted, -, placed⟩ := fresh.bolster listed room
  refine ⟨drafted, fun partner rounds => ?_⟩
  have placed := placed partner
  split at placed
  · next adversarial =>
    rw [if_pos adversarial]
    exact placed rounds
  · next plain =>
    rw [if_neg plain]
    exact placed

namespace StageContext
variable {ctx ctx' : StageContext}

/-! ### What is not yet done when a drafting turn is planned -/

theorem Ordered.drafted (ordered : ctx.Ordered x) {r r' : Nat} (pos : 1 ≤ r) (le : r ≤ r') (filled : ctx.Filled (.draft r')) :
    ctx.Filled (.draft r) := by
  induction r', le using Nat.le_induction with
  | base => exact filled
  | succ n le ih =>
    have done := (round_done_iff.mp (ordered.redrafted (by omega) filled)).1
    have room : n + 1 ≤ ctx.layout.ap := filled.1.2
    exact ih ⟨⟨by simp only [Slot.number]; omega, by simp only [Slot.number, Slot.room]; omega⟩, done⟩

theorem Ordered.later_undrafted (ordered : ctx.Ordered x) {r r' : Nat} (pos : 1 ≤ r) (undone : ctx.done (ctx.layout.draft r) = false)
    (le : r ≤ r') : ¬ctx.Filled (.draft r') := by
  intro filled
  have done := (ordered.drafted pos le filled).2
  rw [Slot.seq, undone] at done
  cases done

section Ruled
variable (ordered : ctx.Ordered x) (judged_last : DraftsBefore ctx.config.stages .judge_panel)
  (assessed_last : DraftsBefore ctx.config.stages .narrative_assessment)
include ordered judged_last assessed_last

/-- Once a judge has ruled, the drafting stages are complete. -/
theorem Ordered.complete_of_ruled {j : Nat} (ruled : ctx.Filled (.judge j)) {name : StageName}
    (drafting : name ∈ DRAFTING_STAGES) (listed : name ∈ ctx.config.stages) {stage : Stage} (found : STAGES x name = some stage) :
    stage.is_complete ctx = .ok true := by
  have after {name : StageName} (drafting : name ∈ DRAFTING_STAGES) : (Slot.judge j).After ctx.config.stages name := by
    intro planner plans
    rcases List.mem_pair.mp plans with rfl | rfl
    · exact judged_last _ drafting
    · exact assessed_last _ drafting
  have finished := ordered.finished ruled listed (after drafting)
  cases name with
  | associate_draft =>
    cases found
    exact congrArg Except.ok finished
  | bolster =>
    cases found
    exact congrArg Except.ok finished
  | partner_loop =>
    cases found
    exact ordered.settled ruled listed (after drafting) fun _ _ => after (by decide)
  | _ => exact absurd drafting (by decide)

variable {before : List StageName} {name : StageName} {slot : Slot} {spec : TurnSpec}
  (driven : ctx.DrivenBy x before name slot spec) (drafting : name ∈ DRAFTING_STAGES)
include driven drafting

theorem DrivenBy.unruled {j : Nat} : ¬ctx.Filled (.judge j) := by
  intro ruled
  obtain ⟨stage, found, incomplete⟩ := driven.incomplete
  have complete := ordered.complete_of_ruled judged_last assessed_last ruled drafting driven.listed found
  rw [incomplete] at complete
  cases complete

theorem DrivenBy.unrestructured {k : Nat} : ¬ctx.Filled (.restructure k) := by
  intro restructured
  obtain ⟨j, ruled⟩ := ordered.ruled restructured
  exact driven.unruled ordered judged_last assessed_last drafting ruled

end Ruled

section Driven
variable {before : List StageName} {name : StageName} {spec : TurnSpec}

theorem DrivenBy.stage_of_draft {r : Nat} (driven : ctx.DrivenBy x before name (.draft r) spec) :
    r = 1 ∧ name = .associate_draft ∨ 1 < r ∧ name = .partner_loop := by
  have pos : 1 ≤ r := driven.planned.within.1
  have owned := driven.planned.owned
  rw [Slot.planned_by] at owned
  split at owned
  · next first => exact .inl ⟨first, List.mem_singleton.mp owned⟩
  · next later => exact .inr ⟨by omega, List.mem_singleton.mp owned⟩

theorem bolster_listed (ordered : ctx.Ordered x) {k : Nat} (filled : ctx.Filled (.bolster k)) :
    .bolster ∈ ctx.config.stages ∧ 1 ≤ ctx.config.loop_caps.bolster := by
  obtain ⟨planner, owned, listed⟩ := ordered.listed filled
  obtain rfl := List.mem_singleton.mp owned
  exact ⟨listed, Nat.le_trans filled.1.1 filled.1.2⟩

theorem redraft_listed (ordered : ctx.Ordered x) {r : Nat} (later : 1 < r) (filled : ctx.Filled (.draft r)) :
    .partner_loop ∈ ctx.config.stages ∧ 2 ≤ ctx.config.loop_caps.associate_partner := by
  obtain ⟨planner, owned, listed⟩ := ordered.listed filled
  rw [Slot.planned_by, if_neg (by omega)] at owned
  obtain rfl := List.mem_singleton.mp owned
  exact ⟨listed, Nat.le_trans later filled.1.2⟩

/-- No bolster is done while the first draft is planned. -/
theorem DrivenBy.first_unbolstered (ordered : ctx.Ordered x)
    (in_order : BolsterInOrder ctx.run.pipeline.strategy ctx.config)
    (driven : ctx.DrivenBy x before .associate_draft (.draft 1) spec) (k : Nat) : ¬ctx.Filled (.bolster k) := by
  intro filled
  obtain ⟨listed, room⟩ := bolster_listed ordered filled
  have done := ordered.finished filled driven.listed fun planner owned => by
    obtain rfl := List.mem_singleton.mp owned
    exact (in_order listed room).1
  exact driven.open ⟨driven.planned.within, done⟩

/-- Where the partner loop comes before the bolster, no bolster is done while the loop plans. -/
theorem DrivenBy.loop_unbolstered (ordered : ctx.Ordered x) (plain : ctx.run.pipeline.strategy ≠ .adversarial_first)
    {slot : Slot} (driven : ctx.DrivenBy x before .partner_loop slot spec)
    (precedes : Precedes ctx.config.stages .partner_loop .bolster) (k : Nat) : ¬ctx.Filled (.bolster k) := by
  intro filled
  have complete := ordered.settled filled driven.listed
    (fun planner owned => by
      obtain rfl := List.mem_singleton.mp owned
      exact precedes)
    fun adversarial => absurd adversarial plain
  obtain ⟨stage, found, incomplete⟩ := driven.incomplete
  cases found
  rw [incomplete] at complete
  cases complete

/-- Where the bolster comes before the partner loop, no redraft is done while the bolster plans. -/
theorem DrivenBy.bolster_unredrafted (ordered : ctx.Ordered x) {k : Nat} (driven : ctx.DrivenBy x before .bolster (.bolster k) spec)
    (precedes : .partner_loop ∈ ctx.config.stages → 2 ≤ ctx.config.loop_caps.associate_partner →
      Precedes ctx.config.stages .bolster .partner_loop) (r : Nat) (later : 1 < r) : ¬ctx.Filled (.draft r) := by
  intro filled
  obtain ⟨listed, rounds⟩ := redraft_listed ordered later filled
  have done := ordered.finished filled driven.listed fun planner owned => by
    rw [Slot.planned_by, if_neg (by omega)] at owned
    obtain rfl := List.mem_singleton.mp owned
    exact precedes listed rounds
  exact driven.open ⟨driven.planned.within,
    List.all_eq_true.mp done _ (List.mem_map_of_mem (mem_upto.mpr driven.planned.within))⟩

end Driven

/-! ### The operative draft is the newest -/

theorem Follows.latest_draft_eq (h : ctx.Follows ctx')
    (drafts : ∀ r, (Slot.draft r).Within ctx.layout → ctx'.held (.draft r) = ctx.held (.draft r)) :
    ctx'.latest_draft = ctx.latest_draft := by
  rw [latest_draft, latest_draft, h.layout, h.config]
  refine first_done_congr fun seq mem => ?_
  obtain ⟨r, member, rfl⟩ := List.mem_map.mp mem
  have held := drafts r (mem_downfrom.mp member)
  rw [StageContext.held, h.layout] at held
  exact held

theorem Follows.judged_draft_eq (h : ctx.Follows ctx')
    (drafts : ∀ r, (Slot.draft r).Within ctx.layout → ctx'.held (.draft r) = ctx.held (.draft r))
    (bolsters : ∀ k, (Slot.bolster k).Within ctx.layout → ctx'.held (.bolster k) = ctx.held (.bolster k)) :
    ctx'.judged_draft = ctx.judged_draft := by
  have redrafts : ctx'.redrafts = ctx.redrafts := by
    rw [redrafts, redrafts, h.layout, h.config]
    refine first_done_congr fun seq mem => ?_
    obtain ⟨r, member, rfl⟩ := List.mem_map.mp mem
    have held := drafts r (mem_downfrom.mp (List.mem_of_mem_filter member))
    rw [StageContext.held, h.layout] at held
    exact held
  have bolstered : ctx'.first_done ctx'.bolster_slots_down = ctx.first_done ctx.bolster_slots_down := by
    rw [bolster_slots_down, bolster_slots_down, h.layout, h.config]
    refine first_done_congr fun seq mem => ?_
    obtain ⟨k, member, rfl⟩ := List.mem_map.mp mem
    have held := bolsters k (mem_downfrom.mp member)
    rw [StageContext.held, h.layout] at held
    exact held
  rw [StageContext.judged_draft_eq, StageContext.judged_draft_eq, h.run, redrafts, bolstered, h.latest_draft_eq drafts]

theorem Follows.operative_draft_eq (h : ctx.Follows ctx')
    (same : ∀ slot : Slot, slot.drafts = true → slot.Within ctx.layout → ctx'.held slot = ctx.held slot) :
    ctx'.operative_draft = ctx.operative_draft := by
  have restructured : ctx'.first_done ((downfrom ctx'.config.loop_caps.restructure).map ctx'.layout.restructure_slot) =
      ctx.first_done ((downfrom ctx.config.loop_caps.restructure).map ctx.layout.restructure_slot) := by
    rw [h.layout, h.config]
    refine first_done_congr fun seq mem => ?_
    obtain ⟨k, member, rfl⟩ := List.mem_map.mp mem
    have held := same (.restructure k) rfl (mem_downfrom.mp member)
    rw [StageContext.held, h.layout] at held
    exact held
  rw [operative_draft, operative_draft, restructured,
    h.judged_draft_eq (fun r => same (.draft r) rfl) fun k => same (.bolster k) rfl]

section Current
variable (ordered : ctx.Ordered x) (judged_last : DraftsBefore ctx.config.stages .judge_panel)
  (assessed_last : DraftsBefore ctx.config.stages .narrative_assessment)
  (in_order : BolsterInOrder ctx.run.pipeline.strategy ctx.config)
include ordered judged_last assessed_last in_order

/-- A drafting turn that is completed becomes the operative draft. -/
theorem DrivenBy.becomes_operative {before : List StageName} {name : StageName} {slot : Slot} {record : TurnRecord}
    (driven : ctx.DrivenBy x before name slot record.spec) (h : ctx.Follows ctx')
    (held : ∀ other, other.Within ctx.layout → ctx'.held other = if other = slot then some record else ctx.held other)
    (drafts : slot.drafts = true) : ctx'.operative_draft = some record := by
  have within : slot.Within ctx'.layout := h.layout ▸ driven.planned.within
  have here : ctx'.held slot = some record := by rw [held slot driven.planned.within, if_pos rfl]
  have old {other : Slot} (ne : other ≠ slot) (filled : ctx'.Filled other) : ctx.Filled other := by
    have room : other.Within ctx.layout := h.layout ▸ filled.1
    rw [filled_iff_held filled.1, held other room, if_neg ne] at filled
    exact (filled_iff_held room).mpr filled
  cases slot with
  | draft r =>
    have later_open (r' : Nat) (later : r < r') : ¬ctx'.Filled (.draft r') := fun filled =>
      ordered.later_undrafted within.1 driven.planned.undone (Nat.le_of_lt later) (old (by simp; omega) filled)
    rcases driven.stage_of_draft with ⟨rfl, rfl⟩ | ⟨later, rfl⟩
    · rw [operative_draft_unrestructured fun k filled =>
        driven.unrestructured ordered judged_last assessed_last (by decide) (old (by simp) filled)]
      rw [judged_draft_unbolstered fun k filled => driven.first_unbolstered ordered in_order k (old (by simp) filled)]
      exact latest_draft_last within here later_open
    · rw [operative_draft_unrestructured fun k filled =>
        driven.unrestructured ordered judged_last assessed_last (by decide) (old (by simp) filled)]
      by_cases adversarial : ctx.run.pipeline.strategy = .adversarial_first
      · exact judged_draft_redrafted (h.run ▸ adversarial) later within here later_open
      · rw [judged_draft_unbolstered]
        · exact latest_draft_last within here later_open
        · intro k filled
          obtain ⟨listed, room⟩ := bolster_listed ordered (old (by simp) filled)
          have precedes := (in_order listed room).2 driven.listed (Nat.le_trans later driven.planned.within.2)
          rw [if_neg adversarial] at precedes
          exact driven.loop_unbolstered ordered adversarial precedes k (old (by simp) filled)
  | bolster k =>
    have owned : name = .bolster := List.mem_singleton.mp driven.planned.owned
    subst owned
    rw [operative_draft_unrestructured fun k filled =>
      driven.unrestructured ordered judged_last assessed_last (by decide) (old (by simp) filled)]
    refine judged_draft_bolstered within here (fun k' later filled => ?_) fun adversarial r later filled => ?_
    · exact driven.open (ordered.bolstered within.1 later (old (by simp; omega) filled))
    · refine driven.bolster_unredrafted ordered (fun listed rounds => ?_) r later (old (by simp) filled)
      have precedes := (in_order driven.listed (Nat.le_trans within.1 driven.planned.within.2)).2 listed rounds
      rwa [if_pos (h.run ▸ adversarial)] at precedes
  | restructure k =>
    refine operative_draft_restructured within here fun k' later filled => ?_
    exact driven.open (ordered.restructured within.1 later (old (by simp; omega) filled))
  | _ => cases drafts

theorem Moves.operative_newest (moves : ctx.Moves x ctx') (current : ctx.operative_draft = ctx.newest_draft) :
    ctx'.operative_draft = ctx'.newest_draft := by
  cases moves with
  | still h same newest =>
    rw [newest, ← current]
    exact h.operative_draft_eq fun slot _ => same slot
  | @filled before name slot record driven h held newest =>
    rw [newest]
    split
    · next drafts => exact driven.becomes_operative ordered judged_last assessed_last in_order h held drafts
    · next other =>
      rw [← current]
      refine h.operative_draft_eq fun slot' drafts within => ?_
      rw [held slot' within, if_neg]
      rintro rfl
      exact other drafts

end Current

/-! ### What the judges saw -/

/-- Every judge who has ruled was shown the draft that is now the judged one. -/
def Saw (ctx : StageContext) : Prop :=
  ∀ {j record}, (Slot.judge j).Within ctx.layout → ctx.held (.judge j) = some record →
    record.spec.prompt_context.draft = ctx.judged_draft.map (·.output)

/-- While a judge has yet to rule, there is no restructure where that stage follows the panel. -/
theorem DrivenBy.judged_operative {before : List StageName} {name : StageName} {j : Nat} {spec : TurnSpec}
    (ordered : ctx.Ordered x) (listed : .judge_panel ∈ ctx.config.stages)
    (restructured : Precedes ctx.config.stages .judge_panel .restructure)
    (driven : ctx.DrivenBy x before name (.judge j) spec) : ctx.operative_draft = ctx.judged_draft := by
  refine operative_draft_unrestructured fun k filled => ?_
  have done := ordered.finished filled listed fun planner owned => by
    obtain rfl := List.mem_singleton.mp owned
    exact restructured
  exact driven.open ⟨driven.planned.within,
    List.all_eq_true.mp done _ (List.mem_map_of_mem (mem_upto.mpr driven.planned.within))⟩

theorem Moves.saw (ordered : ctx.Ordered x) (between : JudgedBetween ctx.config.stages)
    (assessed_last : DraftsBefore ctx.config.stages .narrative_assessment) (moves : ctx.Moves x ctx') (saw : ctx.Saw) :
    ctx'.Saw := by
  intro j record within held'
  have room : (Slot.judge j).Within ctx.layout := moves.follows.layout ▸ within
  cases moves with
  | still h same =>
    rw [h.judged_draft_eq (fun r => same (.draft r)) fun k => same (.bolster k)]
    exact saw room (same _ room ▸ held')
  | @filled before name slot other driven h held =>
    -- a later drafting turn would find the stage that plans it complete
    have unchanged (not_drafted : ∀ r, slot ≠ .draft r) (not_bolstered : ∀ k, slot ≠ .bolster k) :
        ctx'.judged_draft = ctx.judged_draft := by
      refine h.judged_draft_eq (fun r within => ?_) fun k within => ?_
      · rw [held _ within, if_neg (not_drafted r).symm]
      · rw [held _ within, if_neg (not_bolstered k).symm]
    rw [held _ room] at held'
    split at held'
    · next this =>
      subst this
      cases held'
      rw [unchanged (by simp) (by simp), ← driven.judged_operative ordered between.listed between.restructured]
      exact driven.shows
    · have ruled := filled_of_held room held'
      rw [unchanged (fun r drafted => ?_) fun k bolstered => ?_]
      · exact saw room held'
      · subst drafted
        refine driven.unruled ordered between.drafted assessed_last ?_ ruled
        rcases driven.stage_of_draft with ⟨-, rfl⟩ | ⟨-, rfl⟩ <;> decide
      · subst bolstered
        refine driven.unruled ordered between.drafted assessed_last ?_ ruled
        rw [List.mem_singleton.mp driven.planned.owned]
        decide

/-- A ruling leaves a judged draft. -/
theorem Ordered.judged_of_ruled {j : Nat} (ordered : ctx.Ordered x) (drafted : DraftsBefore ctx.config.stages .judge_panel)
    (assessed_last : DraftsBefore ctx.config.stages .narrative_assessment) (ruled : ctx.Filled (.judge j)) :
    ∃ draft, ctx.judged_draft = some draft := by
  have drafting : StageName.associate_draft ∈ DRAFTING_STAGES := by decide
  have complete := ordered.complete_of_ruled drafted assessed_last ruled drafting ctx.run.pipeline.owns.drafts rfl
  have done : ctx.done (ctx.layout.draft 1) = true := Except.ok.inj complete
  have latest := latest_draft_isSome ctx.run.pipeline.owns.rounds_pos done
  exact Option.isSome_iff_exists.mp (by rw [judged_draft_eq, Option.isSome_or, latest, Bool.or_true])

/-! ### What a planned turn is shown -/

/-- Opposing counsel attacks the operative draft. -/
theorem DrivenBy.attack_operative (ordered : ctx.Ordered x)
    (fresh : FreshInOrder ctx.run.pipeline.strategy ctx.config) {before : List StageName} {name : StageName} {k : Nat}
    {spec : TurnSpec} (driven : ctx.DrivenBy x before name (.oc_attack k) spec) :
    ctx.operative_draft = ctx.latest_draft := by
  obtain rfl := List.mem_singleton.mp driven.planned.owned
  have room : 1 ≤ ctx.config.loop_caps.oc := Nat.le_trans driven.planned.within.1 driven.planned.within.2
  have unattacked : ¬ctx.Finished .oc_attack := fun done =>
    driven.open ⟨driven.planned.within,
      List.all_eq_true.mp done _ (List.mem_map_of_mem (mem_upto.mpr driven.planned.within))⟩
  rw [operative_draft_unrestructured, judged_draft_unbolstered]
  · intro k' filled
    obtain ⟨listed, bolsters⟩ := bolster_listed ordered filled
    refine unattacked (ordered.finished filled driven.listed fun planner owned => ?_)
    obtain rfl := List.mem_singleton.mp owned
    exact (fresh.bolster listed bolsters).2.2.1 room
  · intro k' filled
    obtain ⟨planner, owned, listed⟩ := ordered.listed filled
    obtain rfl := List.mem_singleton.mp owned
    refine unattacked (ordered.finished filled driven.listed fun planner owned => ?_)
    obtain rfl := List.mem_singleton.mp owned
    exact (fresh.restructure listed (Nat.le_trans filled.1.1 filled.1.2)).2 room

section Fresh
variable (ordered : ctx.Ordered x) (judged_last : DraftsBefore ctx.config.stages .judge_panel)
  (assessed_last : DraftsBefore ctx.config.stages .narrative_assessment)
  (fresh : FreshInOrder ctx.run.pipeline.strategy ctx.config)
variable {before : List StageName} {name : StageName} {slot : Slot} {spec : TurnSpec}
include ordered judged_last assessed_last fresh

/-- What the partner reviews while its loop plans is the operative draft. -/
theorem DrivenBy.partner_draft_operative (driven : ctx.DrivenBy x before .partner_loop slot spec) {r : Nat}
    (filled : ctx.Filled (.draft r)) (last : ∀ r', r < r' → ¬ctx.Filled (.draft r')) {record : TurnRecord}
    (shown : ctx.partner_draft r = .ok record) : ctx.operative_draft = some record := by
  rw [operative_draft_unrestructured fun k =>
    driven.unrestructured ordered judged_last assessed_last (by decide)]
  obtain ⟨drafted, held⟩ := exists_record filled.2
  have pos : 1 ≤ r := filled.1.1
  rw [partner_draft] at shown
  by_cases adversarial : ctx.run.pipeline.strategy = .adversarial_first
  · by_cases first : r = 1
    · subst first
      rw [judged_draft_eq, if_pos adversarial, redrafts_none last, Option.none_or]
      simp only [adversarial, and_self, if_true] at shown
      split at shown
      · next bolstered =>
        cases shown
        rw [bolstered]
        rfl
      · next unbolstered =>
        rw [unbolstered, Option.none_or]
        rw [show ctx.record (ctx.layout.draft 1) = .ok drafted from record_eq held] at shown
        cases shown
        exact latest_draft_last filled.1 held last
    · simp only [first, false_and, if_false] at shown
      rw [show ctx.record (ctx.layout.draft r) = .ok drafted from record_eq held] at shown
      cases shown
      exact judged_draft_redrafted adversarial (by omega) filled.1 held last
  · simp only [adversarial, and_false, if_false] at shown
    rw [show ctx.record (ctx.layout.draft r) = .ok drafted from record_eq held] at shown
    cases shown
    rw [judged_draft_unbolstered]
    · exact latest_draft_last filled.1 held last
    · intro k bolstered
      obtain ⟨listed, room⟩ := bolster_listed ordered bolstered
      have placed := (fresh.bolster listed room).2.2.2 driven.listed
      rw [if_neg adversarial] at placed
      exact driven.loop_unbolstered ordered adversarial placed k bolstered

/-- The review of a round that is not done is shown the operative draft. -/
theorem DrivenBy.review_operative (driven : ctx.DrivenBy x before .partner_loop slot spec) {r : Nat}
    (open_round : PartnerLoopStage.round_done ctx r = false) (within : (Slot.draft r).Within ctx.layout)
    (done : ctx.done (ctx.layout.draft r) = true) {record : TurnRecord} (shown : ctx.partner_draft r = .ok record) :
    ctx.operative_draft = some record := by
  refine driven.partner_draft_operative ordered judged_last assessed_last fresh ⟨within, done⟩ (fun r' later filled => ?_)
    shown
  have next_draft := ordered.drafted (Nat.le_add_left 1 r) later filled
  have reviewed := ordered.redrafted within.1 next_draft
  rw [Slot.number, open_round] at reviewed
  cases reviewed

/-- A turn planned for a slot of the request is shown its operative draft. -/
theorem DrivenBy.shows_operative (driven : ctx.DrivenBy x before name slot spec) :
    if slot.drafts then
      ctx.operative_draft ≠ none → spec.prompt_context.previous_draft = ctx.operative_draft.map (·.output)
    else spec.prompt_context.draft = ctx.operative_draft.map (·.output) := by
  have shows := driven.shows
  cases slot with
  | draft r =>
    intro some_draft
    have later_open (r' : Nat) (later : r ≤ r') : ¬ctx.Filled (.draft r') :=
      ordered.later_undrafted driven.planned.within.1 driven.planned.undone later
    rcases driven.stage_of_draft with ⟨rfl, rfl⟩ | ⟨later, rfl⟩
    · -- nothing is drafted yet
      refine absurd ?_ some_draft
      rw [operative_draft_unrestructured fun k =>
        driven.unrestructured ordered judged_last assessed_last (by decide)]
      rw [judged_draft_unbolstered (driven.first_unbolstered ordered fresh.bolster_in_order)]
      exact first_done_none .draft fun r mem =>
        held_eq_none (mem_downfrom.mp mem) (later_open r (mem_downfrom.mp mem).1)
    · rcases shows with rfl | ⟨done, previous, shown, revised⟩
      · omega
      · have room : r ≤ ctx.layout.ap := driven.planned.within.2
        have within : (Slot.draft (r - 1)).Within ctx.layout :=
          ⟨by simp only [Slot.number]; omega, by simp only [Slot.number, Slot.room]; omega⟩
        have current := driven.partner_draft_operative ordered judged_last assessed_last fresh
          ⟨within, (round_done_iff.mp done).1⟩ (fun r' later => later_open r' (by omega)) shown
        rw [revised, current]
        rfl
  | critique r =>
    obtain ⟨open_round, done, draft, shown, reviewed⟩ := shows
    obtain rfl := List.mem_singleton.mp driven.planned.owned
    have current := driven.review_operative ordered judged_last assessed_last fresh open_round driven.planned.within done shown
    rw [current]
    exact reviewed
  | rubric_loop r =>
    obtain ⟨open_round, done, draft, shown, reviewed⟩ := shows
    obtain rfl := List.mem_singleton.mp driven.planned.owned
    have current := driven.review_operative ordered judged_last assessed_last fresh open_round driven.planned.within done shown
    rw [current]
    exact reviewed
  | oc_attack k =>
    rw [driven.attack_operative ordered fresh]
    exact shows
  | bolster k =>
    intro _
    obtain rfl := List.mem_singleton.mp driven.planned.owned
    have room : k ≤ ctx.config.loop_caps.bolster := driven.planned.within.2
    have pos : 1 ≤ k := driven.planned.within.1
    rw [operative_draft_unrestructured fun k =>
      driven.unrestructured ordered judged_last assessed_last (by decide), judged_draft_unbolstered]
    · exact shows.2
    · intro k' filled
      have one := (fresh.bolster driven.listed (by omega)).1
      have room' : k' ≤ ctx.config.loop_caps.bolster := filled.1.2
      have pos' : 1 ≤ k' := filled.1.1
      obtain rfl : k' = k := by omega
      exact driven.open filled
  | restructure k =>
    intro _
    obtain rfl := List.mem_singleton.mp driven.planned.owned
    have room : k ≤ ctx.config.loop_caps.restructure := driven.planned.within.2
    have pos : 1 ≤ k := driven.planned.within.1
    rw [operative_draft_unrestructured]
    · exact shows.2.1
    · intro k' filled
      have one := (fresh.restructure driven.listed (by omega)).1
      have room' : k' ≤ ctx.config.loop_caps.restructure := filled.1.2
      have pos' : 1 ≤ k' := filled.1.1
      obtain rfl : k' = k := by omega
      exact driven.open filled
  | judge j => exact shows
  | rubric_final m => exact shows
  | jury j => exact shows

end Fresh

theorem drafts_iff_schema {slot : Slot} : slot.schema (seat_schema name) = .draft ↔ slot.drafts = true := by
  cases slot <;> simp only [Slot.schema, Slot.drafts, seat_schema] <;> first | decide | (split <;> decide)

end StageContext

section Runs
variable {context : RunContext} {state : RunState} {tier_models : List (Role × String)}
  {assembled_context : List AssembledContextItem} {ctx : StageContext}

theorem ordered_of_reachable (reached : Relation.ReflTransGen (Advances x context) {} state)
    (unit : ctx ∈ contexts context state tier_models assembled_context) : ctx.Ordered x :=
  reachable_request (fun _ => .start) (fun _ _ ordered moves => ordered.moves moves) reached unit

/-- In every run whose stages are in the order of the accessors, the operative draft is the newest. -/
theorem operative_newest_of_reachable (judged_last : DraftsBefore context.config.stages .judge_panel)
    (assessed_last : DraftsBefore context.config.stages .narrative_assessment)
    (in_order : BolsterInOrder context.pipeline.strategy context.config)
    (reached : Relation.ReflTransGen (Advances x context) {} state)
    (unit : ctx ∈ contexts context state tier_models assembled_context) : ctx.operative_draft = ctx.newest_draft := by
  suffices both : ctx.run = context → ctx.Ordered x ∧ ctx.operative_draft = ctx.newest_draft from
    (both (run_of_mem unit)).2
  refine reachable_request (I := fun c => c.run = context → c.Ordered x ∧ c.operative_draft = c.newest_draft)
    (fun ctx none_done _ => ⟨.start none_done, ?_⟩) (fun ctx ctx' held moves run => ?_) reached unit
  · have undone {slots : List Nat} : ctx.first_done slots = none :=
      List.findSome?_eq_none_iff.mpr fun seq _ => by
        rw [StageContext.record?, none_done]
        rfl
    have newest : ctx.newest_draft = none := by
      rw [StageContext.newest_draft, none_done]
      rfl
    rw [newest, StageContext.operative_draft, StageContext.judged_draft, StageContext.latest_draft]
    simp only [undone, ite_self, Option.or_none]
  · obtain ⟨ordered, current⟩ := held (moves.follows.run ▸ run)
    have same : ctx.run = context := moves.follows.run ▸ run
    have config : ctx.config = context.config := congrArg RunContext.config same
    refine ⟨ordered.moves moves, moves.operative_newest ordered ?_ ?_ ?_ current⟩
    · exact config ▸ judged_last
    · exact config ▸ assessed_last
    · rw [same, config]
      exact in_order

/-- The judged draft is the draft the judges saw, and the operative draft the newest, in every state of every run whose
    pipeline drafts before it judges and has its bolster in the order of the accessors. -/
theorem judges_saw_judged_draft (between : JudgedBetween context.config.stages)
    (assessed_last : DraftsBefore context.config.stages .narrative_assessment)
    (in_order : BolsterInOrder context.pipeline.strategy context.config)
    (reached : Relation.ReflTransGen (Advances x context) {} state)
    (unit : ctx ∈ contexts context state tier_models assembled_context) :
    (∀ j record, (Slot.judge j).Within ctx.layout → ctx.held (.judge j) = some record →
      ∃ draft, ctx.judged_draft = some draft ∧ record.spec.prompt_context.draft = some draft.output) ∧
    ctx.operative_draft = ctx.newest_draft := by
  refine ⟨fun j record within held => ?_, operative_newest_of_reachable between.drafted assessed_last in_order reached unit⟩
  have ordered := ordered_of_reachable reached unit
  have config : ctx.config = context.config := congrArg RunContext.config (run_of_mem unit)
  obtain ⟨draft, judged⟩ := ordered.judged_of_ruled (config ▸ between.drafted) (config ▸ assessed_last)
    (StageContext.filled_of_held within held)
  refine ⟨draft, judged, ?_⟩
  suffices both : ctx.run = context → ctx.Ordered x ∧ ctx.Saw by
    rw [(both (run_of_mem unit)).2 within held, judged]
    rfl
  refine reachable_request (I := fun c => c.run = context → c.Ordered x ∧ c.Saw)
    (fun ctx none_done _ => ⟨.start none_done, fun {j record} _ held => ?_⟩) (fun ctx ctx' kept moves run => ?_) reached unit
  · rw [StageContext.held, StageContext.record?, none_done] at held
    cases held
  · obtain ⟨ordered, saw⟩ := kept (moves.follows.run ▸ run)
    have config : ctx.config = context.config := congrArg RunContext.config (moves.follows.run ▸ run)
    exact ⟨ordered.moves moves, moves.saw ordered (config ▸ between) (config ▸ assessed_last) saw⟩

/-- Every turn planned in a run is shown the newest draft, where the drafting stages come before the panels and the
    bolster and the restructure have their place and at most one round. -/
theorem planned_turns_show_newest (judged_last : DraftsBefore context.config.stages .judge_panel)
    (assessed_last : DraftsBefore context.config.stages .narrative_assessment)
    (fresh : FreshInOrder context.pipeline.strategy context.config)
    (reached : Relation.ReflTransGen (Advances x context) {} state)
    (unit : ctx ∈ contexts context state tier_models assembled_context) {specs : List TurnSpec}
    (planned : plan_request x ctx = .ok specs) : ∀ spec ∈ specs, ctx.ShowsNewest spec := by
  intro spec mem
  obtain ⟨before, name, slot, driven⟩ := StageContext.request_plans planned spec mem
  have run := run_of_mem unit
  have config : ctx.config = context.config := congrArg RunContext.config run
  have shows := driven.shows_operative (ordered_of_reachable reached unit) (config ▸ judged_last) (config ▸ assessed_last)
    (by rw [run, config]; exact fresh)
  rw [operative_newest_of_reachable judged_last assessed_last fresh.bolster_in_order reached unit] at shows
  rw [StageContext.ShowsNewest, driven.planned.schema]
  simp only [StageContext.drafts_iff_schema]
  exact shows

end Runs

/-! ### Sample pipelines -/

namespace Sample

/-- The associate, the partner, an opponent and one judge at work on these stages. -/
def drafting_bench (stages : List StageName) (loop_caps : LoopCaps)
    (owns : OwnsPipeline .thin_full
      { task := "discovery-responses", stages, loop_caps, panels := { judges := 1 },
        gates := ["degeneracy", "completeness", "fabrication"], rubric_id := "discovery-responses-v1.0" }
      .associate [.oc_associate] [.associate, .partner, .oc_associate, .judge]) : RunContext :=
  { context none with
    pipeline :=
      { strategy := .thin_full, effective_config := _, drafting_persona := _, oc_personas := _, active_personas := _, owns } }

/-- The next planned turn of the first request is completed with an output. -/
def answer_next (run : RunContext) (state : RunState) (output : TurnOutput) : Option RunState :=
  match plan_request externals (first_request run state) with
  | .ok (spec :: _) =>
    if spec.output_schema_name.accepts output then
      some (state.apply (.turn_completed { spec, output, completed_at := "" }))
    else none
  | _ => none

theorem advances_of_answers {run : RunContext}
    (unit : ∀ state, first_request run state ∈ contexts run state [] []) {outputs : List TurnOutput} :
    ∀ {state state' : RunState}, outputs.foldlM (answer_next run) state = some state' →
      Relation.ReflTransGen (Advances externals run) state state' := by
  induction outputs with
  | nil =>
    rintro state _ ⟨⟩
    exact .refl
  | cons output rest ih =>
    intro state state' completed
    rw [List.foldlM_cons] at completed
    obtain ⟨next, first, completed⟩ := Option.bind_eq_some_iff.mp completed
    refine .head ?_ (ih completed)
    rw [answer_next] at first
    split at first
    · next spec specs planned =>
      split at first
      · next valid =>
        cases first
        exact .turn (.turn (unit state) planned List.mem_cons_self valid)
      · cases first
    · cases first

def critique (verdict : CritiqueVerdict) : TurnOutput := .critique { verdict, self_assessment := "ok" }

def redraft (response_text : String) : TurnOutput := .draft { draft with response_text }

def judgment : TurnOutput := .judge { self_assessment := "ok" }

/-- The bolster comes after the partner loop. -/
def in_order : RunContext :=
  drafting_bench [.associate_draft, .partner_loop, .oc_attack, .bolster, .judge_panel, .restructure, .assemble] {}
    (by constructor <;> decide)

/-- The bolster comes before the partner loop, as adversarial-first has it, but the strategy is another. -/
def swapped : RunContext :=
  drafting_bench [.associate_draft, .oc_attack, .bolster, .partner_loop, .judge_panel, .restructure, .assemble] {}
    (by constructor <;> decide)

/-- Two bolsters answer_next one attack. -/
def twice_bolstered : RunContext :=
  drafting_bench [.associate_draft, .partner_loop, .oc_attack, .bolster, .judge_panel, .restructure, .assemble] { bolster := 2 }
    (by constructor <;> decide)

/-- The state these answers lead to. -/
def state_after (run : RunContext) (outputs : List TurnOutput) : RunState := (outputs.foldlM (answer_next run) {}).getD {}

def judged_answers : List TurnOutput :=
  [.draft draft, critique .approve, critique .revise, redraft "Bolstered.", judgment]

def swapped_answers : List TurnOutput :=
  [.draft draft, critique .revise, redraft "Bolstered.", critique .revise, redraft "Redrafted.", critique .approve, judgment]

theorem first_of_drafting_bench {stages : List StageName} {loop_caps : LoopCaps} (owns) (state : RunState) :
    first_request (drafting_bench stages loop_caps owns) state ∈ contexts (drafting_bench stages loop_caps owns) state [] [] :=
  mem_contexts.mpr ⟨_, rfl, rfl⟩

theorem judged_in_order :
    Relation.ReflTransGen (Advances externals in_order) {} (state_after in_order judged_answers) :=
  advances_of_answers (first_of_drafting_bench _) (show judged_answers.foldlM (answer_next in_order) {} = some _ from rfl)

theorem bolstered_in_order :
    (∀ j record, (Slot.judge j).Within (first_request in_order (state_after in_order judged_answers)).layout →
      (first_request in_order (state_after in_order judged_answers)).held (.judge j) = some record →
      ∃ draft, (first_request in_order (state_after in_order judged_answers)).judged_draft = some draft ∧
        record.spec.prompt_context.draft = some draft.output) ∧
    (first_request in_order (state_after in_order judged_answers)).operative_draft =
      (first_request in_order (state_after in_order judged_answers)).newest_draft :=
  judges_saw_judged_draft ⟨by decide, by decide, by decide⟩ (by decide) (by decide) judged_in_order (first_of_drafting_bench _ _)

theorem swapped_bolster_outlives_redraft :
    ¬∀ run : RunContext, JudgedBetween run.config.stages → ∀ state, Relation.ReflTransGen (Advances externals run) {} state →
      ∀ tier_models assembled_context, ∀ ctx ∈ contexts run state tier_models assembled_context, judges_done ctx = true →
        (∀ j record, (Slot.judge j).Within ctx.layout → ctx.held (.judge j) = some record →
          ∃ draft, ctx.judged_draft = some draft ∧ record.spec.prompt_context.draft = some draft.output) ∧
        ctx.operative_draft = ctx.newest_draft := by
  intro claim
  have reached : Relation.ReflTransGen (Advances externals swapped) {} (state_after swapped swapped_answers) :=
    advances_of_answers (first_of_drafting_bench _) (show swapped_answers.foldlM (answer_next swapped) {} = some _ from rfl)
  obtain ⟨-, current⟩ := claim swapped ⟨by decide, by decide, by decide⟩ _ reached [] [] _ (first_of_drafting_bench _ _) rfl
  have outputs : some (redraft "Bolstered.") = some (redraft "Redrafted.") :=
    congrArg (Option.map TurnRecord.output) current
  exact absurd outputs (by decide)

theorem review_shows_draft : ∃ spec,
    plan_request externals (first_request in_order (state_after in_order [.draft draft])) = .ok [spec] ∧
    (first_request in_order (state_after in_order [.draft draft])).ShowsNewest spec :=
  ⟨_, rfl, planned_turns_show_newest (by decide) (by decide) ⟨by decide, by decide⟩
    (advances_of_answers (first_of_drafting_bench _) (show [.draft draft].foldlM (answer_next in_order) {} = some _ from rfl))
    (first_of_drafting_bench _ _) rfl _ List.mem_cons_self⟩

theorem second_bolster_skips_first :
    ¬∀ run : RunContext, DraftsBefore run.config.stages .judge_panel → DraftsBefore run.config.stages .narrative_assessment →
      ∀ state, Relation.ReflTransGen (Advances externals run) {} state →
        ∀ tier_models assembled_context, ∀ ctx ∈ contexts run state tier_models assembled_context, ∀ specs,
          plan_request externals ctx = .ok specs → ∀ spec ∈ specs, ctx.ShowsNewest spec := by
  intro claim
  have reached : Relation.ReflTransGen (Advances externals twice_bolstered) {}
      (state_after twice_bolstered [.draft draft, critique .approve, critique .revise, redraft "Bolstered."]) :=
    advances_of_answers (first_of_drafting_bench _)
      (show [.draft draft, critique .approve, critique .revise, redraft "Bolstered."].foldlM (answer_next twice_bolstered) {} =
        some _ from rfl)
  have shows := claim twice_bolstered (by decide) (by decide) _ reached [] [] _ (first_of_drafting_bench _ _) _ rfl _ List.mem_cons_self
  have revised : some (TurnOutput.draft draft) = some (redraft "Bolstered.") :=
    (if_pos rfl).mp shows nofun
  exact absurd revised (by decide)

end Sample

end MootLoop
