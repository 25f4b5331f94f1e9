import MootLoop.Sidecars
import MootLoop.Theorems.Slots

/-! A decision's sidecar holds the decision as it was first recorded, in runs whose resolutions find the sidecar they
    leave alone. -/

namespace MootLoop.Sidecars
open Durable Transition

variable {run_id : RunId} {s s' : DecisionFiles}

/-! ### The log -/

theorem folded_snoc (log : List Decision) (d : Decision) :
    folded_decisions (log ++ [d]) = (folded_decisions log).insert d.decision_id d := by
  rw [folded_decisions, List.foldl_append]
  rfl

/-- The first record of a decision. -/
def first_record (log : List Decision) (decision_id : DecisionId) : Option Decision :=
  log.find? (·.decision_id = decision_id)

theorem first_record_snoc (log : List Decision) (d : Decision) (decision_id : DecisionId) :
    first_record (log ++ [d]) decision_id =
      (first_record log decision_id).or (if d.decision_id = decision_id then some d else none) := by
  rw [first_record, List.find?_append]
  congr 1
  by_cases same : d.decision_id = decision_id <;> simp [same]

theorem mem_folded_keys {log : List Decision} {decision_id : DecisionId} :
    decision_id ∈ (folded_decisions log).keys ↔ (first_record log decision_id).isSome = true := by
  induction log using List.reverseRecOn with
  | nil => simp [folded_decisions, first_record]
  | append_singleton log d ih =>
    have met : decision_id ∈ (folded_decisions (log ++ [d])).keys ↔
        decision_id = d.decision_id ∨ decision_id ∈ (folded_decisions log).keys := by
      rw [folded_snoc, Dict.keys_insert]
      split
      · rename_i known
        exact ⟨.inr, fun h => h.elim (fun same => same ▸ known) id⟩
      · rw [List.mem_append, List.mem_singleton, or_comm]
    rw [met, ih, first_record_snoc, Option.isSome_or, Bool.or_eq_true, or_comm, eq_comm (a := decision_id)]
    by_cases same : d.decision_id = decision_id <;> simp [same]

/-- A decision as it is proposed. -/
def Proposed (d : Decision) : Prop := d.status = .open ∧ d.resolution = none

theorem make_decision_id_injective {i j : Nat} (same : make_decision_id run_id i = make_decision_id run_id j) : i = j := by
  have chars := congrArg String.toList same
  simp only [make_decision_id, String.toList_append] at chars
  exact pad4_injective (String.toList_inj.mp (List.append_cancel_left chars))

/-! ### What a derivation proposes -/

/-- Decisions as proposed, numbered on from `start`. -/
structure Numbered (run_id : RunId) (start : Nat) (created : List Decision) : Prop where
  proposed : ∀ d ∈ created, Proposed d
  ids : created.map (·.decision_id) = (List.range' start created.length).map (make_decision_id run_id)

theorem Numbered.nil {start : Nat} : Numbered run_id start [] := ⟨by simp, rfl⟩

theorem Numbered.snoc {start : Nat} {created : List Decision} {d : Decision} (numbered : Numbered run_id start created)
    (proposed : Proposed d) (id : d.decision_id = make_decision_id run_id (start + created.length)) :
    Numbered run_id start (created ++ [d]) := by
  constructor
  · intro d' mem
    rcases List.mem_append.mp mem with mem | mem
    · exact numbered.proposed d' mem
    · rw [List.mem_singleton.mp mem]
      exact proposed
  · rw [List.map_append, numbered.ids, List.length_append, List.length_singleton, List.range'_concat, List.map_append,
      List.map_singleton, List.map_singleton, id, Nat.one_mul]

theorem derived (document : Bool) (existing : List Decision) (drafts : List (TurnSpec × DraftOutput)) :
    Numbered run_id (folded_decisions existing).keys.length (derive_decisions run_id document existing drafts) := by
  have lengths : (folded_decisions existing).keys.length = (folded_decisions existing).values.length := by
    simp [Dict.values, Dict.keys]
  rw [lengths, derive_decisions]
  generalize (folded_decisions existing).values = known
  refine List.foldlRecOn _ _ Numbered.nil ?_
  rintro created numbered ⟨kind, request_id, proposal⟩ -
  dsimp only
  split
  · exact numbered
  · exact numbered.snoc ⟨rfl, rfl⟩ rfl

/-! ### What the store keeps -/

/-- Decisions are numbered as they are first recorded, that record is as proposed, and a sidecar is that record. -/
structure Kept (run_id : RunId) (s : DecisionFiles) : Prop where
  numbered : (folded_decisions s.log).keys =
    (List.range (folded_decisions s.log).keys.length).map (make_decision_id run_id)
  proposed : ∀ id d, first_record s.log id = some d → Proposed d
  originals : ∀ id d, s.sidecars.get? id = some d → first_record s.log id = some d

/-- A line is about a decision of the log or proposes the next one; a sidecar is the first record of its decision, and
    there was none. -/
def Permitted (run_id : RunId) (s : DecisionFiles) : FileWrite → Prop
  | .line d => d.decision_id ∈ (folded_decisions s.log).keys ∨
      (Proposed d ∧ d.decision_id = make_decision_id run_id (folded_decisions s.log).keys.length)
  | .sidecar d => first_record s.log d.decision_id = some d ∧ s.sidecars.contains d.decision_id = false

theorem Kept.fresh (kept : Kept run_id s) :
    make_decision_id run_id (folded_decisions s.log).keys.length ∉ (folded_decisions s.log).keys := by
  rw [kept.numbered, List.mem_map]
  rintro ⟨i, mem, same⟩
  have lt := List.mem_range.mp mem
  rw [← kept.numbered] at same
  rw [make_decision_id_injective same] at lt
  exact Nat.lt_irrefl _ lt

theorem first_record_kept {log : List Decision} {id : DecisionId} {d d' : Decision} (first : first_record log id = some d) :
    first_record (log ++ [d']) id = some d := by
  rw [first_record_snoc, first, Option.some_or]

theorem Kept.commit {w : FileWrite} (kept : Kept run_id s) (permitted : Permitted run_id s w) :
    Kept run_id (commit s w) := by
  obtain ⟨numbered, proposed, originals⟩ := kept
  cases w with
  | line d =>
    refine ⟨?_, ?_, fun id d' held => first_record_kept (originals id d' held)⟩
    · rw [commit_line, folded_snoc, Dict.keys_insert]
      split
      · exact numbered
      · rename_i unknown
        obtain ⟨-, id⟩ := permitted.resolve_left unknown
        rw [List.length_append, List.length_singleton, List.range_succ, List.map_append, ← numbered, List.map_singleton, id]
    · intro id d' first
      rw [commit_line, first_record_snoc] at first
      rcases Option.or_eq_some_iff.mp first with known | ⟨unknown, here⟩
      · exact proposed id d' known
      · split at here
        · rename_i same
          cases here
          have out : d.decision_id ∉ (folded_decisions s.log).keys := by
            rw [mem_folded_keys, same, unknown]
            exact Bool.false_ne_true
          exact (permitted.resolve_left out).1
        · cases here
  | sidecar d =>
    refine ⟨numbered, proposed, ?_⟩
    intro id d' held
    rw [commit_sidecar, Dict.get?_insert] at held
    split at held
    · rename_i same
      cases held
      rw [same]
      exact permitted.1
    · exact originals id d' held

/-- Sidecars are never replaced. -/
def Keeps (s s' : DecisionFiles) : Prop := ∀ id d, s.sidecars.get? id = some d → s'.sidecars.get? id = some d

theorem Keeps.commit {w : FileWrite} (keeps : Keeps s s') (permitted : Permitted run_id s' w) : Keeps s (commit s' w) := by
  intro id d held
  have held' := keeps id d held
  cases w with
  | line d' => exact held'
  | sidecar d' =>
    have other : id ≠ d'.decision_id := by
      rintro rfl
      have present : s'.sidecars.contains d'.decision_id = true := Dict.contains_iff.mpr ⟨d, held'⟩
      rw [permitted.2] at present
      cases present
    rw [commit_sidecar, Dict.get?_insert_ne _ other]
    exact held'

/-! ### The operations -/

/-- An append of the next proposed decision, or of a record of a decision that has its sidecar. -/
theorem append_permitted {d : Decision} (kept : Kept run_id s)
    (next : (Proposed d ∧ d.decision_id = make_decision_id run_id (folded_decisions s.log).keys.length) ∨
      s.sidecars.contains d.decision_id = true) :
    wp (Permitted run_id) (append d) (fun _ s' => Kept run_id s' ∧
      (folded_decisions s'.log).keys = (folded_decisions (s.log ++ [d])).keys) s := by
  have line : Permitted run_id s (.line d) := by
    rcases next with next | present
    · exact .inr next
    · obtain ⟨original, held⟩ := Dict.contains_iff.mp present
      refine .inl (mem_folded_keys.mpr ?_)
      rw [kept.originals _ _ held]
      rfl
  have kept' := kept.commit line
  simp only [append, wp_bind, wp_write, wp_read, wp_when]
  refine ⟨line, fun absent => ?_, fun _ => ⟨kept', rfl⟩⟩
  rw [commit_line] at absent
  have sidecar : Permitted run_id (commit s (FileWrite.line d)) (.sidecar d) := by
    refine ⟨?_, absent⟩
    rcases next with ⟨-, id⟩ | present
    · have unknown : first_record s.log d.decision_id = none := by
        have out := kept.fresh
        rwa [← id, mem_folded_keys, Option.not_isSome_iff_eq_none] at out
      rw [commit_line, first_record_snoc, unknown, if_pos rfl, Option.none_or]
    · rw [present] at absent
      cases absent
  exact ⟨sidecar, kept'.commit sidecar, rfl⟩

theorem derive_permitted {created : List Decision} (kept : Kept run_id s)
    (numbered : Numbered run_id (folded_decisions s.log).keys.length created) :
    wp (Permitted run_id) (Prog.forEach created append) (fun _ _ => True) s := by
  induction created generalizing s with
  | nil => exact ⟨trivial, trivial⟩
  | cons d created ih =>
    obtain ⟨proposed, ids⟩ := numbered
    rw [List.map_cons, List.length_cons, List.range'_succ, List.map_cons] at ids
    obtain ⟨id, ids⟩ := List.cons.inj ids
    have fresh : d.decision_id ∉ (folded_decisions s.log).keys := id ▸ kept.fresh
    rw [Prog.forEach, wp_bind]
    refine (append_permitted kept (.inl ⟨proposed d List.mem_cons_self, id⟩)).post ?_
    rintro (e | _) s' ⟨kept', keys⟩
    · trivial
    · refine ih kept' ⟨fun d' mem => proposed d' (List.mem_cons_of_mem _ mem), ?_⟩
      rw [keys, folded_snoc, Dict.keys_insert, if_neg fresh, List.length_append]
      exact ids

theorem folded_id {log : List Decision} {id : DecisionId} {d : Decision}
    (known : (folded_decisions log).get? id = some d) : d.decision_id = id := by
  induction log using List.reverseRecOn with
  | nil => simp [folded_decisions] at known
  | append_singleton log d' ih =>
    rw [folded_snoc, Dict.get?_insert] at known
    split at known
    · rename_i same
      cases known
      exact same.symm
    · exact ih known

theorem resolution_record_some {log : List Decision} {id : DecisionId} {action : ResolutionAction} {key : Option String}
    {note decided_by source now : String} {resolved : Decision}
    (records : resolution_record log id action key note decided_by source now = .ok (some resolved)) :
    ∃ decision, (folded_decisions log).get? id = some decision ∧ decision.status = .open ∧
      offered decision action key = true ∧ resolved.decision_id = decision.decision_id := by
  rw [resolution_record] at records
  split at records
  · cases records
  rename_i decision known
  split at records
  · cases records
  rename_i keyed
  dsimp only at records
  split at records
  · cases records
  rename_i chosen
  split at records
  · rename_i is_open
    cases records
    refine ⟨decision, known, is_open, ?_, rfl⟩
    rw [offered, Bool.and_eq_true]
    constructor
    · by_cases modify : action = .modify
      · have given := not_and.mp keyed modify
        simp [not_or.mp given]
      · simp [modify]
    · cases choice : chosen_key decision action key with
      | none => rfl
      | some k => simpa [choice] using chosen
  · split at records <;> cases records

theorem resolution_record_offered {log : List Decision} {id : DecisionId} {action : ResolutionAction} {key : Option String}
    {note decided_by source now : String} {decision : Decision} (known : (folded_decisions log).get? id = some decision)
    (is_open : decision.status = .open) (offers : offered decision action key = true) :
    ∃ requested, resolution_record log id action key note decided_by source now =
      .ok (some { decision with status := STATUS_FOR_ACTION action, resolution := some requested }) := by
  rw [offered, Bool.and_eq_true] at offers
  obtain ⟨keyed, choice⟩ := offers
  have unkeyed : ¬(action = .modify ∧ (key = none ∨ key = some "")) := by
    simpa [not_and, imp_iff_not_or] using keyed
  have chosen : ¬((chosen_key decision action key).any fun k => !decision.proposal.options.any (·.key = k)) = true := by
    cases held : chosen_key decision action key with
    | none => simp
    | some k => simpa [held] using choice
  rw [resolution_record, known]
  dsimp only
  rw [if_neg unkeyed, if_neg chosen, if_pos is_open]
  exact ⟨_, rfl⟩

/-- A covered operation makes permitted writes only. -/
theorem op_permitted {op : Op} (kept : Kept run_id s) (covered : Covered s op) :
    wp (Permitted run_id) (op.run run_id) (fun _ _ => True) s := by
  cases op with
  | derive drafts document =>
    simp only [Op.run, derive_drafts_and_store, wp_bind, wp_read]
    exact derive_permitted kept (derived document s.log drafts)
  | resolve id action key note decided_by source now =>
    simp only [Op.run, resolve, wp_bind, wp_read, wp_lift]
    rcases records : resolution_record s.log id action key note decided_by source now with e | none | resolved
    · trivial
    · exact (wp_pure _).mpr trivial
    · obtain ⟨decision, known, is_open, offers, same⟩ := resolution_record_some records
      have id_eq : decision.decision_id = id := folded_id known
      have present : s.sidecars.contains resolved.decision_id = true := by
        rw [same, id_eq]
        exact covered decision known is_open offers
      exact (append_permitted kept (.inr present)).post fun _ _ _ => trivial

theorem kept_start (run_id : RunId) : Kept run_id {} := ⟨rfl, by simp [first_record], by simp⟩

/-- What a covered operation leaves, run to its end or cut off. -/
theorem step_kept {op : Op} (kept : Kept run_id s) (covered : Covered s op) (step : Step run_id s op s') :
    Kept run_id s' ∧ Keeps s s' := by
  have invariant := (op_permitted kept covered).crash (I := fun s' => Kept run_id s' ∧ Keeps s s')
    (fun s' w held permitted => ⟨held.1.commit permitted, held.2.commit permitted⟩) ⟨kept, fun _ _ held => held⟩ step
  exact invariant

abbrev CoveredStep (run_id : RunId) : DecisionFiles → Op → DecisionFiles → Prop :=
  Meeting (Step run_id) fun s op _ => Covered s op

theorem run_kept {trace : List Op} (run : Run (CoveredStep run_id) s trace s') (kept : Kept run_id s) :
    Kept run_id s' ∧ Keeps s s' := by
  refine run.invariant (I := fun s' => Kept run_id s' ∧ Keeps s s') ?_ ⟨kept, fun _ _ held => held⟩
  rintro s₁ op s₂ ⟨kept₁, keeps₁⟩ ⟨step, covered⟩
  obtain ⟨kept₂, keeps₂⟩ := step_kept kept₁ covered step
  exact ⟨kept₂, fun id d held => keeps₂ id d (keeps₁ id d held)⟩

/-- In runs whose every recorded resolution finds the sidecar of its decision, a sidecar is its decision as first
    recorded, open, and stays so. -/
theorem sidecars_original (run_id : RunId) {trace trace' : List Op} (run : Run (CoveredStep run_id) {} trace s)
    (later : Run (CoveredStep run_id) s trace' s') {id : DecisionId} {d : Decision}
    (sidecar : s.sidecars.get? id = some d) :
    first_record s.log id = some d ∧ Proposed d ∧ s'.sidecars.get? id = some d ∧ first_record s'.log id = some d := by
  obtain ⟨kept, -⟩ := run_kept run (kept_start run_id)
  obtain ⟨kept', keeps⟩ := run_kept later kept
  have first := kept.originals id d sidecar
  have sidecar' := keeps id d sidecar
  exact ⟨first, kept.proposed id d first, sidecar', kept'.originals id d sidecar'⟩

/-- A resolution that is not covered, run to its end, leaves the resolved record as the sidecar. -/
theorem uncovered_resolves {id : DecisionId} {action : ResolutionAction} {key : Option String}
    {note decided_by source now : String} (uncovered : ¬Covered s (.resolve id action key note decided_by source now)) :
    ∃ d, (((Op.resolve id action key note decided_by source now).run run_id).final s).sidecars.get? id = some d ∧
      ¬Proposed d := by
  rw [Covered] at uncovered
  push Not at uncovered
  obtain ⟨decision, known, is_open, offers, absent⟩ := uncovered
  obtain ⟨requested, records⟩ :=
    @resolution_record_offered s.log id action key note decided_by source now decision known is_open offers
  have missing : s.sidecars.contains decision.decision_id = false := by
    rw [folded_id known]
    exact Bool.eq_false_iff.mpr absent
  have ends : wp (fun _ _ => True) ((Op.resolve id action key note decided_by source now).run run_id)
      (fun _ s' => ∃ d, s'.sidecars.get? id = some d ∧ ¬Proposed d) s := by
    simp only [Op.run, resolve, wp_bind, wp_read, wp_lift, records, append, wp_write, wp_when]
    refine ⟨trivial, fun _ => ⟨trivial, ?_⟩, fun present => absurd missing (by simpa using present)⟩
    refine ⟨{ decision with status := STATUS_FOR_ACTION action, resolution := some requested }, ?_, ?_⟩
    · rw [commit_sidecar, ← folded_id known]
      exact Dict.get?_insert_self _ _ _
    · rintro ⟨-, resolved⟩
      cases resolved
  exact ends.2

/-! ### A crash between the two writes -/

namespace Sample

/-- A draft of a document task with an assertion it could not ground: it implies one call. -/
def ungrounded_draft : TurnSpec × DraftOutput :=
  ({ turn_id := "run-1-associate-1", run_id := "run-1", persona := .associate, request_id := some "motion-1",
     stage := .associate_draft, prompt_context := {}, output_schema_name := .draft },
   { response_text := "The notice was late.", attorney_gate_items := ["the date of the notice"],
     self_assessment := "One date is unsupported." })

def derive_call : Op := .derive [ungrounded_draft] true

def approve_call : Op := .resolve "dec-run-1-0000" .approve none "" "counsel" "cli" "2026-03-01T10:00:00Z"

/-- The call as it is proposed. -/
def assertion_call : Decision where
  decision_id := "dec-run-1-0000"
  run_id := "run-1"
  request_id := some "motion-1"
  kind := .unsupported_assertion
  proposal := unsupported_assertion_proposal "motion-1" "the date of the notice"

/-- The call as it is resolved. -/
def approved_call : Decision where
  decision_id := "dec-run-1-0000"
  run_id := "run-1"
  request_id := some "motion-1"
  kind := .unsupported_assertion
  proposal := unsupported_assertion_proposal "motion-1" "the date of the notice"
  status := .approved
  resolution := some
    { action := .approve, chosen_key := some "obtain_support", decided_by := "counsel", source := "cli",
      decided_at := "2026-03-01T10:00:00Z" }

/-- The store with the call resolved, and a sidecar. -/
def resolved_files (sidecar : Decision) : DecisionFiles where
  log := [assertion_call, approved_call]
  sidecars := (∅ : Dict DecisionId Decision).insert "dec-run-1-0000" sidecar

end Sample

open Sample

/-- A crash after the line of the derivation and before its sidecar; the resolution then writes the sidecar. -/
theorem resolution_becomes_sidecar :
    Run (Step "run-1") {} [derive_call, approve_call] (resolved_files approved_call) ∧
    (resolved_files approved_call).sidecars.get? "dec-run-1-0000" = some approved_call ∧
    first_record (resolved_files approved_call).log "dec-run-1-0000" = some assertion_call ∧
    ¬Proposed approved_call := by
  have derived : Step "run-1" {} derive_call { log := [assertion_call] } :=
    ⟨[.line assertion_call], ⟨[.sidecar assertion_call], by decide⟩, rfl⟩
  have resolved : Step "run-1" { log := [assertion_call] } approve_call (resolved_files approved_call) :=
    ⟨[.line approved_call, .sidecar approved_call], ⟨[], by decide⟩, rfl⟩
  exact ⟨(Run.one derived).snoc resolved, rfl, rfl, by simp [Proposed, approved_call]⟩

theorem sidecars_original_call :
    ∃ s, Run (CoveredStep "run-1") {} [derive_call] s ∧
      s.sidecars.get? "dec-run-1-0000" = some assertion_call ∧
      (resolved_files assertion_call).sidecars.get? "dec-run-1-0000" = some assertion_call := by
  have derived : CoveredStep "run-1" {} derive_call
      { log := [assertion_call], sidecars := (∅ : Dict DecisionId Decision).insert "dec-run-1-0000" assertion_call } :=
    ⟨⟨[.line assertion_call, .sidecar assertion_call], ⟨[], by decide⟩, rfl⟩, trivial⟩
  have resolved : CoveredStep "run-1"
      { log := [assertion_call], sidecars := (∅ : Dict DecisionId Decision).insert "dec-run-1-0000" assertion_call }
      approve_call (resolved_files assertion_call) :=
    ⟨⟨[.line approved_call], ⟨[], by decide⟩, rfl⟩, fun _ _ _ _ => rfl⟩
  have held : ((∅ : Dict DecisionId Decision).insert "dec-run-1-0000" assertion_call).get? "dec-run-1-0000" =
      some assertion_call := rfl
  obtain ⟨-, -, sidecar, -⟩ := sidecars_original "run-1" (Run.one derived) (Run.one resolved) held
  exact ⟨_, Run.one derived, held, sidecar⟩

end MootLoop.Sidecars
