import MootLoop.Theorems.Coherence

/-! What a step may put on record: which turns it may complete, and which gates it may journal a verdict of. -/

namespace MootLoop
open Durable

variable {x : Externals} {t : Publishing} {C : Write → Prop}

/-- The write completes a turn or journals a verdict. -/
def Write.Records : Write → Prop
  | .journal (.turn_completed _) | .journal (.gate_evaluated _ _) => True
  | _ => False

/-- The write puts a verdict on a proposition in the ledger. -/
def Write.Proposes : Write → Prop
  | .proposition _ => True
  | _ => False

/-- The kind of write takes in everything that neither records nor proposes, and the verdicts of rubric panels. -/
structure Tacit (C : Write → Prop) : Prop where
  plain : ∀ w, ¬w.Records → ¬w.Proposes → C w
  rubric : ∀ turn_id result, result.gate = "rubric" → C (.journal (.gate_evaluated turn_id result))

/-- The kind of write takes in everything that records nothing, and the verdicts of rubric panels. -/
structure Quiet (C : Write → Prop) : Prop where
  plain : ∀ w, ¬w.Records → C w
  rubric : ∀ turn_id result, result.gate = "rubric" → C (.journal (.gate_evaluated turn_id result))

theorem Quiet.tacit (quiet : Quiet C) : Tacit C := ⟨fun w records _ => quiet.plain w records, quiet.rubric⟩

namespace Tacit
variable (tacit : Tacit C)
include tacit

theorem append {event : JournalEvent} (h : ¬(Write.journal event).Records) : Only C (append event) :=
  only_append (tacit.plain _ h id)

theorem of_publishes {α : Type} {p : VaultM α} (h : Only Write.Publishes p) : Only C p :=
  h.mono fun w publishes => tacit.plain w (by cases w <;> first | exact publishes.elim | exact id)
    (by cases w <;> first | exact publishes.elim | exact id)

theorem of_attests {α : Type} {p : VaultM α} (h : Only Write.Attests p) : Only C p :=
  h.mono fun w attests => tacit.plain w (by cases w <;> first | exact attests.elim | exact id)
    (by cases w <;> first | exact attests.elim | exact id)

/-! ### The orchestrator -/

theorem write_turn_body (record : TurnRecord) : Only C (write_turn_body record) := by
  refine .bind .read fun s => ?_
  split
  · exact .bind (.write (tacit.plain _ id id)) fun _ => .pure _
  · exact .ite (.pure _) (.throw _)

theorem derive_drafts_and_store (run_id : RunId) (drafts : List (TurnSpec × DraftOutput)) (document : Bool) :
    Only C (derive_drafts_and_store run_id drafts document) :=
  .bind .read fun _ => .forEach fun _ _ => .write (tacit.plain _ id id)

theorem derive_decisions_of (context : RunContext) (record : TurnRecord) : Only C (derive_decisions_of context record) := by
  unfold MootLoop.derive_decisions_of
  split
  · exact tacit.derive_drafts_and_store _ _ _
  · exact .pure _

theorem maybe_emit_rubric_gate (context : RunContext) (spec : TurnSpec) :
    Only C (maybe_emit_rubric_gate x context spec) := by
  refine .ite (.pure _) (.bind only_load_state fun state => ?_)
  split
  · exact .pure _
  · next ctx _ =>
    refine .ite (.pure _) (.bind only_read_events fun events => .ite (.pure _) ?_)
    refine .bind (.lift _) fun panel => only_append (tacit.rubric _ _ ?_)
    unfold Rubric.final_gate
    dsimp only
    split <;> rfl

theorem cap_transition (context : RunContext) : Only C (cap_transition x context) :=
  .bind only_load_state fun _ => .ite (.pure _) (.bind (.lift _) fun _ => tacit.append id)

theorem finalize (context : RunContext) : Only C (finalize x context) := by
  refine .bind only_load_state fun state => .ite (.pure _) (.bind (.lift _) fun complete => .ite (.pure _) ?_)
  refine .bind (tacit.derive_drafts_and_store _ _ _) fun _ => .bind (.forEach fun _ _ => tacit.maybe_emit_rubric_gate _ _)
    fun _ => .bind .read fun _ => ?_
  exact .ite (.ite (tacit.append id) (.pure _)) (tacit.append id)

theorem maybe_checkpoint (context : RunContext) : Only C (maybe_checkpoint x context) := by
  have decisions (state : RunState) : Only C (maybe_checkpoint.checkpoint_decisions context state) :=
    .bind .read fun _ => .ite (tacit.append id) (.pure _)
  refine .bind only_load_state fun state => .ite (.pure _) (.bind (.lift _) fun specs => ?_)
  split
  · exact .ite (tacit.append id) (decisions _)
  · exact decisions _

theorem settle (context : RunContext) : Only C (settle x context) :=
  .bind only_load_state fun _ => .ite (tacit.cap_transition context)
    (.bind (tacit.finalize context) fun _ => tacit.maybe_checkpoint context)

theorem book_spend (turn_id : TurnId) (usage : Option TokenUsage) (model : Option String) (now : String)
    (dedupe : Bool) (provider_call_id : Option String) :
    Only C (book_spend x turn_id usage model now dedupe provider_call_id) := by
  unfold MootLoop.book_spend
  cases usage with
  | none => exact .pure _
  | some usage => exact .bind only_read_events fun _ => .ite (.pure _) (.bind (.lift _) fun _ => tacit.append id)

theorem discard (context : RunContext) (spec : TurnSpec) (reason detail : String) (usage : Option TokenUsage)
    (now : String) (provider_call_id : Option String) :
    Only C (discard x context spec reason detail usage now provider_call_id) :=
  .bind (tacit.book_spend _ _ _ _ _ _) fun _ => .bind only_load_state fun _ => .bind (tacit.append id) fun _ =>
    .bind (.when (tacit.append id)) fun _ => .pure _

end Tacit

/-- The body of a turn is the record as given, or one already there that differs in its time alone. -/
theorem written_body {record written : TurnRecord} {s : Vault} (h : (write_turn_body record s).2 = .ok written) :
    ∃ at_, written = { record with completed_at := at_ } := by
  have kept : wp (fun _ _ => True) (write_turn_body record)
      (fun r _ => ∀ written, r = .ok written → ∃ at_, written = { record with completed_at := at_ }) s := by
    simp only [write_turn_body, wp_bind, wp_read]
    split
    · simp only [wp_bind, wp_write, wp_pure]
      refine ⟨trivial, fun written same => ?_⟩
      cases same
      exact ⟨record.completed_at, rfl⟩
    · next existing _ =>
      simp only [wp_ite, wp_pure, wp_throw]
      refine ⟨fun same written returned => ?_, fun _ _ returned => by cases returned⟩
      cases returned
      exact ⟨_, same⟩
  exact kept.2 written h

namespace Tacit
variable (tacit : Tacit C)
include tacit

theorem accept_turn (context : RunContext) (spec : TurnSpec) (output : TurnOutput) (gate_results : List GateResult)
    (state : RunState) (usage : Option TokenUsage) (now : String) (provider_call_id : Option String)
    (completes : ∀ at_, C (.journal (.turn_completed { spec, output, gate_results, completed_at := at_ }))) :
    Only C (accept_turn x context spec output gate_results state usage now provider_call_id) := by
  refine .bind (.when (tacit.append id)) fun _ => .bind_of (tacit.write_turn_body _) fun s record body => ?_
  obtain ⟨at_, rfl⟩ := written_body body
  refine .bind (tacit.derive_decisions_of _ _) fun _ => .bind (tacit.book_spend _ _ _ _ _ _) fun _ => ?_
  exact .bind (only_append (completes at_)) fun _ => .bind (tacit.maybe_emit_rubric_gate _ _) fun _ =>
    .bind (tacit.settle context) fun _ => .pure _

end Tacit

/-! ### The verdicts of a turn -/

/-- A gate run has verdicts of its gates only. -/
theorem run_ordered_gates {γ : Type} {gates : List (Gate γ)} {context : γ} {definitions : List GateDefinition}
    {results : List GateResult} {ran : GateRun} (h : Gate.run_ordered gates context definitions results = .ok ran) :
    ∀ result ∈ ran.results, result ∈ results ∨ ∃ gate ∈ gates, result.gate = gate.definition.name := by
  induction definitions generalizing results with
  | nil =>
    cases h
    exact fun result mem => .inl mem
  | cons definition rest ih =>
    rw [Gate.run_ordered] at h
    split at h
    · cases h
    · next gate found =>
      have named : gate.definition.name = definition.name := by simpa using List.find?_some found
      have mem := List.mem_of_find?_eq_some found
      split at h
      · cases evaluated : gate.evaluate context with
        | error e => simp [evaluated, bind, Except.bind] at h
        | ok result =>
          simp only [evaluated, bind, Except.bind] at h
          have own {results' : List GateResult} {r : GateResult} (h : r ∈ results' ++ [result])
              (same : result.gate = definition.name) : r ∈ results' ∨ ∃ gate ∈ gates, r.gate = gate.definition.name := by
            rcases List.mem_append.mp h with before | last
            · exact .inl before
            · rw [List.mem_singleton.mp last]
              exact .inr ⟨gate, mem, same.trans named.symm⟩
          split at h
          · cases h
          · next same =>
            split at h
            · cases h
              exact fun r mem => own mem (not_not.mp same)
            · intro r mem
              rcases ih h r mem with before | known
              · exact own before (not_not.mp same)
              · exact .inr known
      · exact ih h

/-- The gates evaluated on a turn. -/
def TURN_GATE_NAMES : List String := ["degeneracy", "completeness", "fabrication"]

theorem evaluate_turn_gates_names {names : List String} {context : TurnGateContext} {ran : GateRun}
    (h : evaluate_turn_gates x names context = .ok ran) : ∀ result ∈ ran.results, result.gate ∈ TURN_GATE_NAMES := by
  simp only [evaluate_turn_gates, Gate.run, bind, Except.bind] at h
  split at h
  · cases h
  · split at h
    · cases h
    · intro result mem
      rcases run_ordered_gates h result mem with before | ⟨gate, known, same⟩
      · cases before
      · rw [same]
        simp only [TURN_GATES, List.mem_cons, List.not_mem_nil, or_false] at known
        rcases known with rfl | rfl | rfl <;> simp [DegeneracyGate, CompletenessGate, FabricationGate, TURN_GATE_NAMES]

namespace Tacit
variable (tacit : Tacit C)
include tacit

/-- Recording a turn journals its verdicts, and completes it with the output its schema and gates accept. -/
theorem record_spec (context : RunContext) (spec : TurnSpec) (raw_text : String) (usage : Option TokenUsage)
    (now : String) (state : RunState) (provider_call_id : Option String)
    (verdicts : ∀ result, result.gate ∈ TURN_GATE_NAMES → C (.journal (.gate_evaluated spec.turn_id result)))
    (completes : ∀ output gate_results at_, judge x context spec raw_text = .ok (.accepted output gate_results) →
      C (.journal (.turn_completed { spec, output, gate_results, completed_at := at_ }))) :
    Only C (record_spec x context spec raw_text usage now state provider_call_id) := by
  unfold MootLoop.record_spec
  unfold judge at completes
  split
  · exact .bind (tacit.discard _ _ _ _ _ _ _) fun _ => .pure _
  · next output valid =>
    simp only [valid] at completes
    refine .bind_of (.lift _) fun s gate_run gated => ?_
    have gates : evaluate_turn_gates x context.config.gates (turn_gate_context context spec output) = .ok gate_run := gated
    simp only [gates, bind, Except.bind] at completes
    refine .bind (.forEach fun result mem => only_append (verdicts result (evaluate_turn_gates_names gates result mem)))
      fun _ => ?_
    dsimp only
    split
    · exact .bind (tacit.discard _ _ _ _ _ _ _) fun _ => .pure _
    · next other =>
      refine .bind (tacit.accept_turn _ _ _ _ _ _ _ _ fun at_ => completes output gate_run.results at_ ?_) fun _ => .pure _
      split
      · next halt last => exact absurd last (other _ _ halt)
      · rfl

end Tacit

/-! ### Other programs -/

theorem only_append_verdict {record : PropositionVerificationRecord} (proposes : C (.proposition record)) :
    Only C (append_verdict record) := by
  refine .bind .read fun s => ?_
  split
  · exact .pure _
  · exact .write proposes

def Command.records : Command → Bool
  | .record_turn _ _ _ _ _ | .verify_citations _ _ _ => true
  | _ => false

def WorkerAction.records (phase : WorkerPhase) (action : WorkerAction) : Bool :=
  match phase, action with
  | .returned _ _ _, .record _ _ | .cite_returned _ _ _ _ _ _ _, .record _ _ | .citing _ _ [] _, .check _ _ => true
  | _, _ => false

/-- The check a worker's action opens. -/
def WorkerAction.opens (phase : WorkerPhase) (action : WorkerAction) : Option (Bool × PropositionEvidenceBundle × String) :=
  match phase, action with
  | .citing _ _ (bundle :: _) _, .check free now => some (free, bundle, now)
  | _, _ => none

def DriverAction.records : DriverAction → Bool
  | .record _ => true
  | _ => false

namespace Tacit
variable (tacit : Tacit C)
include tacit

theorem finalize_if_ready : Only C (finalize_if_ready x) :=
  .bind only_load_state fun _ => .ite (.pure _) (.bind only_load_run_context fun context => tacit.finalize context)

theorem plan_read : Only C (plan_read x) :=
  .bind only_load_run_context fun _ => .bind only_load_state fun _ =>
    .ite (.pure _) (.ite (.pure _) (.bind (.lift _) fun _ => .pure _))

theorem plan_cap (free : Bool) : Only C (plan_cap x free) :=
  only_with_lock (.bind only_load_run_context fun context => tacit.cap_transition context)

theorem resolve (free : Bool) (decision_id : DecisionId) (action : ResolutionAction) (key : Option String)
    (note decided_by source now : String) : Only C (resolve x free decision_id action key note decided_by source now) := by
  have journaled (decision : Decision) (resolution : DecisionResolution) :
      Only C (do record_resolution_event decision resolution; MootLoop.finalize_if_ready x) := by
    refine .bind (.bind only_read_events fun events => ?_) fun _ => tacit.finalize_if_ready
    dsimp only
    split
    · exact tacit.append id
    · exact .ite (.pure _) (.throw _)
  refine only_with_lock (.bind only_load_run_context fun _ => .bind .read fun s => ?_)
  split
  · exact .throw _
  · refine .ite (.throw _) (.ite (.throw _) (.ite ?_ ?_))
    · split
      · exact .throw _
      · exact .ite (.throw _) (journaled _ _)
    · exact .bind (.write (tacit.plain _ id id)) fun _ => journaled _ _

theorem verify_all (citations : List Citation) (now : Instant) (max_cache_age_days : Nat)
    (outcome : Citation → VerificationRecord) : Only C (verify_all x citations now max_cache_age_days outcome) :=
  .bind .read fun _ => .forEach fun _ _ => .write (tacit.plain _ id id)

theorem prepare_run_proposition_checks (now : String) (lookup : AuthorityLookup) :
    Only C (prepare_run_proposition_checks x now lookup) := by
  refine .bind ?_ fun context => .bind .read fun _ => .bind (.lift _) fun _ => .bind (.lift _) fun _ =>
    .ite (.throw _) (.pure _)
  exact .bind only_load_run_context fun _ => .bind only_load_state fun _ => .ite (.throw _) (.pure _)

/-- Opening a check writes an intent, or the verdict of a completed turn that the ledger lacks. -/
theorem open_check {v : Vault} (free : Bool) (bundle : PropositionEvidenceBundle) (now : String)
    (recovers : ∀ context completed output verdict, v.run_context = .ok context →
      v.state.completed_turns.get? (build_check_spec context bundle).turn_id = some completed →
      completed.output = .cite_check output → check_record bundle output now = .ok verdict → C (.proposition verdict)) :
    wp (fun _ w => C w) (open_check x free bundle now) (fun _ _ => True) v := by
  unfold MootLoop.open_check
  simp only [wp_bind, wp_load_run_context]
  cases loaded : v.run_context with
  | error e => trivial
  | ok context =>
    simp only [wp_read, wp_ite, wp_pure]
    refine ⟨fun _ => trivial, fun _ => ?_⟩
    split
    · next completed found =>
      refine (Only.wp (P := fun _ w => C w) (.bind ?_ fun _ => .pure _) fun _ _ c => c).post fun _ _ _ => trivial
      unfold recover_verdict
      split
      · next output shape =>
        refine .bind_of (.lift _) fun s verdict valid => only_append_verdict ?_
        exact recovers context completed output verdict loaded found shape valid
      · exact .throw _
    · refine (Only.wp (P := fun _ w => C w) ?_ fun _ _ c => c).post fun _ _ _ => trivial
      refine only_with_lock (.bind only_load_state fun state => .ite (.pure _) ?_)
      exact .bind (.when (.bind (.lift _) fun _ => tacit.append id)) fun _ => .pure _

/-- A command records nothing unless it is one to record a turn or to verify citations. -/
theorem command (free : Bool) {command : Command} (other : command.records = false) :
    Only C (command_prog x t free command) := by
  cases command with
  | start_run sha256 context =>
    refine only_with_lock (.bind .read fun s => .ite (.throw _) ?_)
    exact .bind (.write (tacit.plain _ id id)) fun _ => .bind (tacit.append id) fun _ => tacit.finalize context
  | plan_next =>
    refine .bind (.bind tacit.plan_read fun planned => ?_) fun _ => .pure _
    cases planned with
    | specs specs => exact .pure _
    | over_cap => exact .bind (tacit.plan_cap free) fun _ => .pure _
  | record_turn => cases other
  | pause_run => exact only_with_lock (.bind only_load_run_context fun _ => .bind only_load_state fun _ =>
      .ite (.throw _) (tacit.append id))
  | resume_run => exact only_with_lock (.bind only_load_run_context fun _ => .bind only_load_state fun _ =>
      .ite (.throw _) (tacit.append id))
  | continue_run => exact only_with_lock (.bind only_load_run_context fun _ => .bind only_load_state fun _ =>
      .ite (.throw _) (.bind only_read_events fun _ => tacit.append id))
  | raise_cap => exact only_with_lock (.bind only_load_run_context fun _ => tacit.append id)
  | reopen_run => exact .ite (.throw _) (only_with_lock (.bind only_load_run_context fun _ =>
      .bind only_load_state fun _ => .ite (.throw _) (.ite (.throw _) (tacit.append id))))
  | resolve => exact tacit.resolve _ _ _ _ _ _ _ _
  | verify_citations => cases other
  | curate => exact .write (tacit.plain _ id id)
  | attest reviewer now => exact tacit.of_attests (attest_attests free reviewer now)
  | check_attestation now => exact tacit.of_attests (check_attestation_attests free now)
  | export_run pandoc force_draft now =>
    exact .bind (tacit.of_publishes (export_run_publishes free pandoc force_draft now)) fun _ => .pure _
  | record_access => exact .bind .read fun _ => .write (tacit.plain _ id id)
  | edit_deliverable => exact .write (tacit.plain _ id id)
  | delete_deliverable => exact .write (tacit.plain _ id id)
  | edit_matter => exact .write (tacit.plain _ id id)

/-- A worker's action records nothing unless it records a turn, or opens or closes a set of checks. -/
theorem worker {max_attempts : Nat} {phase : WorkerPhase} {action : WorkerAction} {p : VaultM WorkerPhase}
    (acts : worker_action x max_attempts phase action = some p)
    (other : action.records phase = false) (unopened : action.opens phase = none) : Only C p := by
  unfold worker_action at acts
  split at acts
  case h_2 =>
    cases acts
    unfold dispatch
    split
    · exact .pure _
    · exact .pure _
    · exact .bind (tacit.prepare_run_proposition_checks _ _) fun _ => .pure _
    · exact .throw _
    · refine .bind only_load_state fun _ => .bind (.when ?_) fun _ => .pure _
      exact only_with_lock (.bind only_load_run_context fun _ => .bind only_load_state fun _ =>
        .ite (.throw _) (tacit.append id))
  case h_4 => cases acts; exact .bind tacit.plan_read fun planned => by split <;> exact .pure _
  case h_5 => cases acts; exact .bind (tacit.plan_cap _) fun _ => .ite (.throw _) (.pure _)
  case h_6 => cases acts; exact only_with_lock (.bind tacit.finalize_if_ready fun _ => .pure _)
  case h_7 =>
    cases acts
    exact .bind (only_with_lock (.bind only_load_run_context fun _ => tacit.append id)) fun _ => .pure _
  case h_8 =>
    cases acts
    refine .bind only_load_run_context fun context => .bind tacit.plan_read fun planned => ?_
    cases planned with
    | over_cap => exact .pure _
    | specs specs => exact .bind (.lift _) fun _ => .bind (.lift _) fun _ => .pure _
  case h_11 => split at acts <;> cases acts <;> first | exact .pure _ | exact .ite (.pure _) (.pure _)
  case h_12 => cases other
  case h_14 =>
    cases acts
    exact .bind (only_with_lock (.bind only_load_run_context fun _ => .bind only_load_state fun _ =>
      .ite (.throw _) (tacit.append id))) fun _ => .pure _
  case h_15 =>
    cases acts
    exact .bind (only_with_lock (.bind only_load_run_context fun _ => tacit.append id)) fun _ => .pure _
  case h_16 =>
    cases acts
    exact .ite (.pure _) (.bind (.attempt (only_with_lock (.bind only_load_run_context fun _ => tacit.append id)))
      fun _ => .pure _)
  case h_17 =>
    cases acts
    rename_i bundles _ _ _
    cases bundles with
    | nil => cases other
    | cons bundle rest => cases unopened
  case h_20 => split at acts <;> cases acts <;> exact .pure _
  case h_21 => cases other
  case h_22 =>
    obtain ⟨item, _, rfl⟩ := Option.map_eq_some_iff.mp acts
    exact .pure _
  case h_23 => cases acts
  all_goals cases acts; exact .pure _

/-- The driver records nothing but turns. -/
theorem driver {phase : DriverPhase} {action : DriverAction} {p : VaultM DriverPhase}
    (acts : driver_action x phase action = some p)
    (other : action.records = false) : Only C p := by
  unfold driver_action at acts
  split at acts
  case h_1 => cases acts; exact only_with_lock (.bind only_load_run_context fun _ => .pure _)
  case h_2 =>
    cases acts
    refine .bind only_load_run_context fun context => .bind only_load_state fun state => .ite (.pure _) ?_
    refine .ite (.bind (tacit.cap_transition context) fun _ => .pure _) (.bind (.lift _) fun specs => ?_)
    split
    · exact .bind (tacit.finalize context) fun _ => .pure _
    · exact .pure _
  case h_3 =>
    cases acts
    unfold drive_next
    split
    · exact .pure _
    · exact .bind only_load_state fun _ => .ite (.pure _) (.pure _)
  case h_5 => split at acts <;> cases acts <;> exact .pure _
  case h_6 => cases other
  case h_7 => cases acts
  all_goals cases acts; exact .pure _

end Tacit

/-! ### Steps -/

/-- The turn a step records: the one a command or a worker finds planned under its id and not completed, or
    the one the driver holds, with the raw output it records. -/
inductive Recorder (x : Externals) (v : Vault) : Label → RunContext → TurnSpec → String → Prop
  | command {free dies : Bool} {turn_id : TurnId} {raw_text now : String} {usage : Option TokenUsage}
      {provider_call_id : Option String} {context : RunContext} {specs : List TurnSpec} {spec : TurnSpec}
      (loaded : v.run_context = .ok context) (fresh : v.state.completed_turns.get? turn_id = none)
      (planned : plan_run x context v.state = .ok specs) (found : find_spec_in specs turn_id = .ok spec) :
      Recorder x v (.command free (.record_turn turn_id raw_text usage now provider_call_id) dies) context spec raw_text
  | worker {w : Nat} {free dies : Bool} {item : WorkItem} {asked : TurnSpec} {result : RawTurnResult} {now : String}
      {context : RunContext} {specs : List TurnSpec} {spec : TurnSpec}
      (loaded : v.run_context = .ok context) (fresh : v.state.completed_turns.get? asked.turn_id = none)
      (planned : plan_run x context v.state = .ok specs) (found : find_spec_in specs asked.turn_id = .ok spec) :
      Recorder x v (.worker w (.returned item asked result) (.record free now) dies) context spec result.text
  | driver {dies : Bool} {spec : TurnSpec} {fresh : RunState} {rest : List TurnSpec} {result : RawTurnResult}
      {now : String} {context : RunContext} (loaded : v.run_context = .ok context) :
      Recorder x v (.driver (.returned spec fresh rest result) (.record now) dies) context spec result.text

/-- The bundle whose check a step records. -/
def Label.checks : Label → Option (PropositionEvidenceBundle × RawTurnResult × String)
  | .worker _ (.cite_returned _ _ bundle _ result _ _) (.record _ now) _ => some (bundle, result, now)
  | _ => none

/-- The steps that journal a verdict on citations. -/
def Label.verifies : Label → Bool
  | .command _ (.verify_citations _ _ _) _ | .worker _ (.citing _ _ [] _) (.check _ _) _ => true
  | _ => false

theorem record_turn_only {v : Vault} (tacit : Tacit C) {free : Bool} {turn_id : TurnId} {raw_text now : String}
    {usage : Option TokenUsage} {provider_call_id : Option String}
    (turn : ∀ context specs spec, v.run_context = .ok context → v.state.completed_turns.get? turn_id = none →
      plan_run x context v.state = .ok specs → find_spec_in specs turn_id = .ok spec →
      (∀ result, result.gate ∈ TURN_GATE_NAMES → C (.journal (.gate_evaluated spec.turn_id result))) ∧
      ∀ output gate_results at_, judge x context spec raw_text = .ok (.accepted output gate_results) →
        C (.journal (.turn_completed { spec, output, gate_results, completed_at := at_ }))) :
    wp (fun _ w => C w) (record_turn x free turn_id raw_text usage now provider_call_id) (fun _ _ => True) v := by
  have permitted {α : Type} {p : VaultM α} {s : Vault} (h : Only C p) : wp (fun _ w => C w) p (fun _ _ => True) s :=
    (h.wp fun _ _ c => c).post fun _ _ _ => trivial
  refine wp_with_lock.mpr ⟨fun _ => ?_, fun _ => trivial⟩
  simp only [wp_bind, wp_load_run_context, wp_load_state]
  cases loaded : v.run_context with
  | error e => trivial
  | ok context =>
    dsimp only
    split
    · exact permitted (.bind (tacit.book_spend _ _ _ _ _ _) fun _ => .bind (tacit.finalize context) fun _ => .pure _)
    · next fresh =>
      simp only [wp_bind, wp_lift]
      cases planned : plan_run x context v.state with
      | error e => trivial
      | ok specs =>
        dsimp only
        cases found : find_spec_in specs turn_id with
        | error e => trivial
        | ok spec =>
          obtain ⟨verdicts, completes⟩ := turn context specs spec loaded fresh planned found
          exact permitted (tacit.record_spec context spec raw_text usage now v.state provider_call_id verdicts completes)

theorem record_completed_check_only (tacit : Tacit C) {context : RunContext} {bundle : PropositionEvidenceBundle}
    {result : RawTurnResult} {now : String}
    (completes : ∀ output verdict at_, validate_check_result x bundle result.text now = .ok (output, verdict) →
      C (.journal (.turn_completed
        { spec := build_check_spec context bundle, output := .cite_check output, completed_at := at_ })))
    (proposes : ∀ output verdict, validate_check_result x bundle result.text now = .ok (output, verdict) →
      C (.proposition verdict)) :
    Only C (record_completed_check x context bundle result now) := by
  refine .bind_of (.lift _) fun s validated valid => ?_
  obtain ⟨output, verdict⟩ := validated
  refine .bind only_load_state fun state => .bind (.when ?_) fun _ =>
    only_append_verdict (proposes output verdict valid)
  refine .bind_of (tacit.write_turn_body _) fun s' record body => ?_
  obtain ⟨at_, rfl⟩ := written_body body
  exact .bind (tacit.book_spend _ _ _ _ _ _) fun _ => only_append (completes output verdict at_ valid)

theorem verify_run_citations_only (tacit : Tacit C) {now : String} {outcome : Citation → VerificationRecord}
    {max_cache_age_days : Nat}
    (verdict : ∀ turn_id result, result.gate = "citation" → C (.journal (.gate_evaluated turn_id result))) :
    Only C (verify_run_citations x now outcome max_cache_age_days) := by
  refine .bind only_load_run_context fun context => .bind only_load_state fun state => .bind (.lift _) fun citations =>
    .bind (.lift _) fun instant => .bind (tacit.verify_all _ _ _ _) fun _ => .bind .read fun s => only_append (verdict _ _ ?_)
  simp only [citation_gate, gate_of_findings]
  split
  · rfl
  · split <;> rfl

/-- The verdict on a run's citations is one of that name. -/
theorem citation_export_gate_named {v : Vault} {now : String} {max_cache_age_days : Nat} {result : GateResult}
    (h : citation_export_gate x v now max_cache_age_days = .ok result) : result.gate = "citation" := by
  simp only [citation_export_gate, citation_export_verdict, bind, Except.bind] at h
  repeat' split at h
  all_goals cases h
  rfl

theorem close_checks_only (tacit : Tacit C) {prepared : PreparedPropositionChecks}
    {unresolved : List CitationProposition} {now : String}
    (verdict : ∀ turn_id result, result.gate = "citation" ∨ result.gate = "citation_propositions" →
      C (.journal (.gate_evaluated turn_id result))) :
    Only C (close_checks x prepared unresolved now) := by
  refine .bind only_load_run_context fun context => .bind .read fun s => .bind (only_append (verdict _ _ (.inr ?_))) fun _ =>
    .bind .read fun s' => .bind_of (.lift _) fun s'' combined gated => only_append (verdict _ _ (.inl ?_))
  · simp only [proposition_gate, gate_of_findings]
    split
    · rfl
    · split <;> rfl
  · exact citation_export_gate_named gated

/-- The check a step opens. -/
def Label.opens : Label → Option (Bool × PropositionEvidenceBundle × String)
  | .worker _ phase action _ => action.opens phase
  | _ => none

/-- A step writes what its kind takes in, when that has everything but turns and verdicts, and the turns and
    verdicts the step may record. -/
theorem Step.permits {max_attempts : Nat} {s s' : System} {label : Label} (step : Step x t max_attempts s label s')
    (coherent : Coherent s) (tacit : Tacit C)
    (turn : ∀ context spec raw_text, Recorder x s.vault label context spec raw_text →
      (∀ result, result.gate ∈ TURN_GATE_NAMES → C (.journal (.gate_evaluated spec.turn_id result))) ∧
      ∀ output gate_results at_, judge x context spec raw_text = .ok (.accepted output gate_results) →
        C (.journal (.turn_completed { spec, output, gate_results, completed_at := at_ })))
    (check : ∀ context bundle result now, label.checks = some (bundle, result, now) → s.vault.run_context = .ok context →
      ∀ output verdict at_, validate_check_result x bundle result.text now = .ok (output, verdict) →
        C (.journal (.turn_completed
          { spec := build_check_spec context bundle, output := .cite_check output, completed_at := at_ })))
    (proposed : ∀ context bundle result now, label.checks = some (bundle, result, now) →
      s.vault.run_context = .ok context → ∀ output verdict,
        validate_check_result x bundle result.text now = .ok (output, verdict) → C (.proposition verdict))
    (recovered : ∀ free bundle now, label.opens = some (free, bundle, now) → ∀ context completed output verdict,
      s.vault.run_context = .ok context →
      s.vault.state.completed_turns.get? (build_check_spec context bundle).turn_id = some completed →
      completed.output = .cite_check output → check_record bundle output now = .ok verdict → C (.proposition verdict))
    (verdict : label.verifies = true → ∀ turn_id result,
      result.gate = "citation" ∨ result.gate = "citation_propositions" → C (.journal (.gate_evaluated turn_id result))) :
    ∃ ws, Path (fun v w => Guarded label.verbs v w ∧ C w) s.vault ws ∧ s'.vault = commits s.vault ws := by
  have permitted {α : Type} {p : VaultM α} {v : Vault} (h : Only C p) : wp (fun _ w => C w) p (fun _ _ => True) v :=
    (h.wp fun _ _ c => c).post fun _ _ _ => trivial
  have discarding {α β : Type} {p : VaultM α} {b : β} {v : Vault} (h : wp (fun _ w => C w) p (fun _ _ => True) v) :
      wp (fun _ w => C w) (do let _ ← p; return b) (fun _ _ => True) v := by
    simp only [wp_bind, wp_pure]
    refine h.post ?_
    rintro (e | _) _ _ <;> trivial
  cases step with
  | @command free command dies v lock leaves =>
    refine leaves.path ((command_guarded free command).permits ?_)
    by_cases records : command.records = true
    · cases command with
      | record_turn turn_id raw_text usage now id =>
        refine discarding (record_turn_only tacit fun context specs spec loaded fresh planned found => ?_)
        exact turn context spec raw_text (.command loaded fresh planned found)
      | verify_citations now outcome days =>
        exact permitted (verify_run_citations_only tacit fun turn_id result named => verdict rfl turn_id result (.inl named))
      | _ => cases records
    · exact permitted (tacit.command free (by simpa using records))
  | @worker w action p dies v acts lock leaves =>
    refine leaves.path ((worker_guarded acts).permits ?_)
    by_cases records : action.records (s.workers w) = true
    · unfold WorkerAction.records at records
      split at records
      · next item asked result free now phase =>
        rw [phase] at acts
        cases acts
        refine discarding (record_turn_only tacit fun context specs spec loaded fresh planned found => ?_)
        exact turn context spec _ (phase ▸ .worker loaded fresh planned found)
      · next item prepared bundle spec result bundles unresolved free now phase =>
        rw [phase] at acts
        cases acts
        simp only [wp_bind, wp_load_run_context]
        cases loaded : s.vault.run_context with
        | error e => trivial
        | ok context =>
          have checks : (Label.worker w (s.workers w) (.record free now) dies).checks = some (bundle, result, now) := by
            simp [phase, Label.checks]
          exact (wp_bind _ _).mp (permitted (.bind (record_completed_check_only tacit
            (check context bundle result now checks loaded) (proposed context bundle result now checks loaded))
            fun _ => .pure _))
      · next item prepared unresolved free now phase =>
        rw [phase] at acts
        cases acts
        exact permitted (.bind (close_checks_only tacit (verdict (by simp [phase, Label.verifies]))) fun _ => .pure _)
      · cases records
    · cases opens : action.opens (s.workers w) with
      | none => exact permitted (tacit.worker acts (by simpa using records) opens)
      | some opened =>
        unfold WorkerAction.opens at opens
        split at opens
        · next item prepared bundle rest unresolved free now phase =>
          cases opens
          rw [phase] at acts
          cases acts
          refine (wp_bind _ _).mpr ((wp_attempt _).mpr ?_)
          refine (tacit.open_check free bundle now (recovered free bundle now (by
            simp [phase, Label.opens, WorkerAction.opens]))).post ?_
          intro opened v' _
          rcases opened with (_ | _) | _ | _ | _ <;> trivial
        · cases opens
  | @driver action p dies v acts lock leaves =>
    refine leaves.path ((driver_guarded acts coherent.driving).permits ?_)
    by_cases records : action.records = true
    · cases action with
      | record now =>
        cases phase : s.driver <;> rw [phase] at acts <;> try cases acts
        rename_i spec fresh rest result
        simp only [wp_bind, wp_load_run_context]
        cases loaded : s.vault.run_context with
        | error e => trivial
        | ok context =>
          obtain ⟨verdicts, completes⟩ := turn context spec result.text (phase ▸ .driver loaded)
          refine (wp_bind _ _).mp (permitted (.bind (tacit.record_spec _ _ _ _ _ _ _ verdicts completes) fun _ => .pure _))
      | _ => cases records
    · exact permitted (tacit.driver acts (by simpa using records))

/-- For a kind of write that has every verdict on a proposition, the turns and the run's verdicts are left. -/
theorem Step.only {max_attempts : Nat} {s s' : System} {label : Label} (step : Step x t max_attempts s label s')
    (coherent : Coherent s) (quiet : Quiet C)
    (turn : ∀ context spec raw_text, Recorder x s.vault label context spec raw_text →
      (∀ result, result.gate ∈ TURN_GATE_NAMES → C (.journal (.gate_evaluated spec.turn_id result))) ∧
      ∀ output gate_results at_, judge x context spec raw_text = .ok (.accepted output gate_results) →
        C (.journal (.turn_completed { spec, output, gate_results, completed_at := at_ })))
    (check : ∀ context bundle result now, label.checks = some (bundle, result, now) → s.vault.run_context = .ok context →
      ∀ output verdict at_, validate_check_result x bundle result.text now = .ok (output, verdict) →
        C (.journal (.turn_completed
          { spec := build_check_spec context bundle, output := .cite_check output, completed_at := at_ })))
    (verdict : label.verifies = true → ∀ turn_id result,
      result.gate = "citation" ∨ result.gate = "citation_propositions" → C (.journal (.gate_evaluated turn_id result))) :
    ∃ ws, Path (fun v w => Guarded label.verbs v w ∧ C w) s.vault ws ∧ s'.vault = commits s.vault ws :=
  step.permits coherent quiet.tacit turn check (fun _ _ _ _ _ _ _ _ _ => quiet.plain _ id)
    (fun _ _ _ _ _ _ _ _ _ _ _ _ => quiet.plain _ id) verdict

end MootLoop
