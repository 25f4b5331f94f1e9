import MootLoop.Theorems.Programs

/-! The actors of the system: the lifecycle writes each may make, and that an actor who finds the run
    lock held makes none. -/

namespace MootLoop
open Durable

variable {x : Externals} {t : Publishing} {v : Vault}

section
variable {verbs : Verb → Prop}

/-! ### Commands -/

theorem start_run_guarded (start : verbs .start) (free : Bool) (sha256 : Digest) (context : RunContext) :
    wp (Guarded verbs) (start_run x free sha256 context) (fun _ _ => True) v := by
  refine wp_with_lock.mpr ⟨fun _ => ?_, fun _ => trivial⟩
  simp only [wp_bind, wp_read, wp_ite, wp_throw, wp_write, wp_append]
  refine ⟨fun _ => trivial, fun fresh => ?_⟩
  have empty : v.journal = [] := not_not.mp fresh
  refine ⟨⟨empty, start⟩, ⟨empty, start⟩, finalize_guarded context⟩

theorem plan_next_guarded (free : Bool) : wp (Guarded verbs) (plan_next x free) (fun _ _ => True) v := by
  simp only [plan_next, wp_bind]
  refine wp_of_calm plan_read_calm ?_
  rintro (e | planned) v₁ _
  · trivial
  cases planned with
  | specs specs => trivial
  | over_cap =>
    simp only [wp_bind, plan_cap, wp_with_lock, wp_load_run_context, wp_pure]
    refine ⟨fun _ => ?_, fun _ => trivial⟩
    cases v₁.run_context with
    | error e => trivial
    | ok context =>
      refine (cap_transition_guarded context).post ?_
      rintro (e | _) _ _ <;> trivial

theorem plan_cap_guarded (free : Bool) : wp (Guarded verbs) (plan_cap x free) (fun _ _ => True) v := by
  simp only [plan_cap, wp_with_lock, wp_bind, wp_load_run_context]
  refine ⟨fun _ => ?_, fun _ => trivial⟩
  cases v.run_context with
  | error e => trivial
  | ok context => exact (cap_transition_guarded context).post fun _ _ _ => trivial

theorem finalize_if_ready_guarded : wp (Guarded verbs) (finalize_if_ready x) (fun _ _ => True) v := by
  simp only [finalize_if_ready, wp_bind, wp_load_state, wp_ite, wp_pure, wp_load_run_context]
  refine ⟨fun _ => trivial, fun _ => ?_⟩
  cases v.run_context with
  | error e => trivial
  | ok context => exact finalize_guarded context

theorem pause_run_guarded {reason : String} (pause : verbs (.pause reason)) (free : Bool) :
    wp (Guarded verbs) (pause_run free reason) (fun _ _ => True) v := by
  simp only [pause_run, wp_with_lock, wp_bind, wp_load_run_context, wp_load_state, wp_ite, wp_throw, wp_append]
  refine ⟨fun _ => ?_, fun _ => trivial⟩
  cases v.run_context with
  | error e => trivial
  | ok context => exact ⟨fun _ => trivial, fun live => ⟨⟨by simpa using live, pause⟩, trivial⟩⟩

theorem resume_run_guarded (resume : verbs .resume) (free : Bool) :
    wp (Guarded verbs) (resume_run free) (fun _ _ => True) v := by
  simp only [resume_run, wp_with_lock, wp_bind, wp_load_run_context, wp_load_state, wp_ite, wp_throw, wp_append]
  refine ⟨fun _ => ?_, fun _ => trivial⟩
  cases v.run_context with
  | error e => trivial
  | ok context => exact ⟨fun _ => trivial, fun paused => ⟨⟨not_not.mp paused, resume⟩, trivial⟩⟩

theorem continue_run_guarded (continue_ : verbs .continue_) (free : Bool) :
    wp (Guarded verbs) (continue_run free) (fun _ _ => True) v := by
  simp only [continue_run, wp_with_lock, wp_bind, wp_load_run_context, wp_load_state, wp_ite, wp_throw,
    wp_read_events, wp_append]
  refine ⟨fun _ => ?_, fun _ => trivial⟩
  cases v.run_context with
  | error e => trivial
  | ok context => exact ⟨fun _ => trivial, fun held => ⟨⟨not_not.mp held, continue_⟩, trivial⟩⟩

theorem raise_cap_command_guarded {to_usd : Rat} (raise_cap : verbs (.raise_cap to_usd)) (free : Bool) :
    wp (Guarded verbs) (raise_cap_command free to_usd) (fun _ _ => True) v := by
  simp only [raise_cap_command, MootLoop.raise_cap, wp_with_lock, wp_bind, wp_load_run_context, wp_append]
  refine ⟨fun _ => ?_, fun _ => trivial⟩
  cases v.run_context with
  | error e => trivial
  | ok context => exact ⟨raise_cap, trivial⟩

theorem reopen_run_guarded (reopen : verbs .reopen) (free : Bool) (reason : String) (grant_attempts : Nat)
    (reopened_by : String) :
    wp (Guarded verbs) (reopen_run free reason grant_attempts reopened_by) (fun _ _ => True) v := by
  simp only [reopen_run, wp_ite, wp_throw, wp_with_lock, wp_bind, wp_load_run_context, wp_load_state]
  refine ⟨fun _ => trivial, fun _ => ⟨fun _ => ?_, fun _ => trivial⟩⟩
  cases v.run_context with
  | error e => trivial
  | ok context =>
    refine ⟨fun _ => trivial, fun attention => ?_⟩
    simp only [wp_ite, wp_throw, wp_append]
    exact ⟨fun _ => trivial, fun _ => ⟨⟨not_not.mp attention, reopen⟩, trivial⟩⟩

theorem finish_needs_attention_guarded (attend : verbs .attend) (free : Bool) :
    wp (Guarded verbs) (finish_needs_attention free) (fun _ _ => True) v := by
  simp only [finish_needs_attention, wp_with_lock, wp_bind, wp_load_run_context, wp_append]
  refine ⟨fun _ => ?_, fun _ => trivial⟩
  cases v.run_context with
  | error e => trivial
  | ok context => exact ⟨.inr attend, trivial⟩

theorem record_turn_intent_guarded (reserve : verbs .reserve) (free : Bool) (turn_id : TurnId) (model : String)
    (on : Date) :
    wp (Guarded verbs) (record_turn_intent free { turn_id, model, max_plausible_usd := max_plausible_cost model on })
      (fun _ _ => True) v := by
  simp only [record_turn_intent, wp_with_lock, wp_bind, wp_load_run_context, wp_append]
  refine ⟨fun _ => ?_, fun _ => trivial⟩
  cases v.run_context with
  | error e => trivial
  | ok context =>
    simp only [Guarded, reserve, and_true]
    exact max_plausible_cost_nonneg model on

theorem resolve_guarded (free : Bool) (decision_id : DecisionId) (action : ResolutionAction) (key : Option String)
    (note decided_by source now : String) :
    wp (Guarded verbs) (resolve x free decision_id action key note decided_by source now) (fun _ _ => True) v := by
  have journaled (decision : Decision) (resolution : DecisionResolution) (s : Vault) :
      wp (Guarded verbs) (do record_resolution_event decision resolution; finalize_if_ready x) (fun _ _ => True) s := by
    rw [wp_bind]
    refine wp_of_calm (record_resolution_event_calm _ _) ?_
    rintro (e | _) _ _
    · trivial
    · exact finalize_if_ready_guarded
  refine wp_with_lock.mpr ⟨fun _ => ?_, fun _ => trivial⟩
  simp only [wp_bind, wp_load_run_context, wp_read]
  cases v.run_context with
  | error e => trivial
  | ok context =>
    dsimp only
    split
    · trivial
    · next decision _ =>
      simp only [wp_ite, wp_throw]
      refine ⟨fun _ => trivial, fun _ => ⟨fun _ => trivial, fun _ => ⟨fun _ => ?_, fun _ => ?_⟩⟩⟩
      · split
        · trivial
        · simp only [wp_ite, wp_throw]
          exact ⟨fun _ => trivial, fun _ => journaled _ _ _⟩
      · simp only [wp_bind, wp_write]
        exact ⟨trivial, (wp_bind _ _).mp (journaled _ _ _)⟩

end

/-- The lifecycle writes a command may make. -/
def Command.verbs : Command → Verb → Prop
  | .start_run _ _ => (· = .start)
  | .record_turn _ _ _ _ _ => (· = .book)
  | .pause_run reason => (· = .pause reason)
  | .resume_run => (· = .resume)
  | .continue_run => (· = .continue_)
  | .raise_cap to_usd => (· = .raise_cap to_usd)
  | .reopen_run _ _ _ => (· = .reopen)
  | _ => fun _ => False

theorem record_access_calm (ts actor action matter_id resource : String) :
    Only Write.Calm (record_access t ts actor action matter_id resource) :=
  .bind .read fun _ => .write trivial

theorem command_guarded (free : Bool) (command : Command) :
    wp (Guarded command.verbs) (command_prog x t free command) (fun _ _ => True) v := by
  have discarding {α : Type} {verbs : Verb → Prop} {p : VaultM α} (h : wp (Guarded verbs) p (fun _ _ => True) v) :
      wp (Guarded verbs) (do let _ ← p; return ()) (fun _ _ => True) v := by
    simp only [wp_bind, wp_pure]
    refine h.post ?_
    rintro (e | _) _ _ <;> trivial
  cases command with
  | start_run sha256 context => exact start_run_guarded (by rfl) free sha256 context
  | plan_next => exact discarding (plan_next_guarded free)
  | record_turn turn_id raw_text usage now id => exact discarding (record_turn_guarded (by rfl) free turn_id raw_text usage now id)
  | pause_run reason => exact pause_run_guarded (by rfl) free
  | resume_run => exact resume_run_guarded (by rfl) free
  | continue_run => exact continue_run_guarded (by rfl) free
  | raise_cap to_usd => exact raise_cap_command_guarded (by rfl) free
  | reopen_run reason grant by_ => exact reopen_run_guarded (by rfl) free reason grant by_
  | resolve id action key note by_ source now => exact resolve_guarded free id action key note by_ source now
  | verify_citations now outcome days => exact calm_guarded (verify_run_citations_calm now outcome days)
  | curate record => exact calm_guarded (.write trivial)
  | attest reviewer now => exact calm_guarded ((attest_attests free reviewer now).mono fun _ => Write.Attests.calm)
  | check_attestation now =>
    exact calm_guarded ((check_attestation_attests free now).mono fun _ => Write.Attests.calm)
  | export_run pandoc force_draft now =>
    exact discarding (calm_guarded ((export_run_publishes free pandoc force_draft now).mono fun _ => Write.Publishes.calm))
  | record_access ts actor action matter_id resource =>
    exact calm_guarded (record_access_calm ts actor action matter_id resource)
  | edit_deliverable path text => exact calm_guarded (.write trivial)
  | delete_deliverable path => exact calm_guarded (.write trivial)
  | edit_matter matter => exact calm_guarded (.write trivial)

/-- A command that finds the lock held keeps the lifecycle. -/
theorem command_calm_of_busy (command : Command) : Only Write.Calm (command_prog x t false command) := by
  cases command with
  | start_run => exact .throw _
  | plan_next =>
    refine .bind (.bind plan_read_calm fun planned => ?_) fun _ => .pure _
    cases planned with
    | specs specs => exact .pure _
    | over_cap => exact .bind (.throw _) fun _ => .pure _
  | record_turn => exact .bind (.throw _) fun _ => .pure _
  | pause_run => exact .throw _
  | resume_run => exact .throw _
  | continue_run => exact .throw _
  | raise_cap => exact .throw _
  | reopen_run => exact .ite (.throw _) (.throw _)
  | resolve => exact .throw _
  | verify_citations now outcome days => exact verify_run_citations_calm now outcome days
  | curate => exact .write trivial
  | attest => exact .throw _
  | check_attestation => exact .throw _
  | export_run => exact .bind (.throw _) fun _ => .pure _
  | record_access => exact record_access_calm _ _ _ _ _
  | edit_deliverable => exact .write trivial
  | delete_deliverable => exact .write trivial
  | edit_matter => exact .write trivial

/-! ### Workers -/

/-- The lifecycle writes a worker's action may make. -/
def WorkerAction.verbs : WorkerAction → Verb → Prop
  | .dispatch _ _ _ => (· = .resume)
  | .reserve _ _ | .check _ _ => (· = .reserve)
  | .record _ _ => (· = .book)
  | .pause _ => (· = .pause "capacity")
  | .attend _ | .poison _ => (· = .attend)
  | _ => fun _ => False

section
variable {verbs : Verb → Prop}

theorem dispatch_guarded (resume : verbs .resume) (item : WorkItem) (free : Bool) (now : String)
    (lookup : AuthorityLookup) : wp (Guarded verbs) (dispatch x item free now lookup) (fun _ _ => True) v := by
  unfold dispatch
  split
  · trivial
  · trivial
  · exact calm_guarded (.bind (prepare_run_proposition_checks_calm now lookup) fun _ => .pure _)
  · trivial
  · simp only [wp_bind, wp_load_state, wp_when, wp_pure]
    refine ⟨fun _ => (resume_run_guarded resume free).post ?_, fun _ => trivial⟩
    rintro (e | _) _ _ <;> trivial

/-- The dispatch takes the branch that resumes the run: a turn item, of a run paused for capacity. -/
def resumes (v : Vault) (item : WorkItem) (free : Bool) : Prop :=
  item.kind = .run_turn ∧ free = true ∧ v.state.status = .paused ∧ v.state.pause_reason = some "capacity"

theorem dispatch_guarded_of_not_resumes (item : WorkItem) (free : Bool) (now : String) (lookup : AuthorityLookup)
    (other : ¬resumes v item free) : wp (Guarded verbs) (dispatch x item free now lookup) (fun _ _ => True) v := by
  unfold dispatch
  split
  · trivial
  · trivial
  · exact calm_guarded (.bind (prepare_run_proposition_checks_calm now lookup) fun _ => .pure _)
  · trivial
  · next kind =>
    simp only [wp_bind, wp_load_state, wp_when, wp_pure]
    refine ⟨fun capacity => wp_with_lock.mpr ⟨fun entry => ?_, fun _ => trivial⟩, fun _ => trivial⟩
    exact absurd ⟨kind, entry, capacity⟩ other

theorem assemble_prompt_calm (item : WorkItem) (spec : TurnSpec) : Only Write.Calm (assemble_prompt x item spec) := by
  refine .bind only_load_run_context fun context => .bind plan_read_calm fun planned => ?_
  cases planned with
  | over_cap => exact .pure _
  | specs specs => exact .bind (.lift _) fun _ => .bind (.lift _) fun _ => .pure _

theorem recover_verdict_calm (bundle : PropositionEvidenceBundle) (now : String) (completed : TurnRecord) :
    Only Write.Calm (recover_verdict bundle now completed) := by
  unfold recover_verdict
  split
  · exact .bind (.lift _) fun _ => append_verdict_calm _
  · exact .throw _

/-- A check is opened within the cap, its cost reserved, and under the lock. -/
theorem open_check_guarded (reserve : verbs .reserve) (free : Bool) (bundle : PropositionEvidenceBundle) (now : String) :
    wp (Guarded verbs) (open_check x free bundle now) (fun _ _ => True) v := by
  simp only [open_check, wp_bind, wp_load_run_context]
  cases v.run_context with
  | error e => trivial
  | ok context =>
    simp only [wp_read, wp_ite, wp_pure]
    refine ⟨fun _ => trivial, fun _ => ?_⟩
    split
    · exact calm_guarded (.bind (recover_verdict_calm _ _ _) fun _ => .pure _)
    · simp only [wp_with_lock, wp_bind, wp_load_state, wp_ite, wp_pure, wp_when, wp_lift, wp_append]
      refine ⟨fun _ => ⟨fun _ => trivial, fun _ => ⟨fun _ => ?_, fun _ => trivial⟩⟩, fun _ => trivial⟩
      cases date_of x now with
      | error e => trivial
      | ok on =>
        simp only [Guarded, reserve, and_true]
        exact max_plausible_cost_nonneg _ on

theorem check_bundle_guarded (reserve : verbs .reserve) (free : Bool) (now : String) (item : WorkItem)
    (prepared : PreparedPropositionChecks) (unresolved : List CitationProposition)
    (bundles : List PropositionEvidenceBundle) :
    wp (Guarded verbs) (check_bundle x free now item prepared unresolved bundles) (fun _ _ => True) v := by
  cases bundles with
  | nil => exact calm_guarded (.bind (close_checks_calm _ _ _) fun _ => .pure _)
  | cons bundle rest =>
    simp only [check_bundle, wp_bind, wp_attempt]
    refine (open_check_guarded reserve free bundle now).post ?_
    intro r v' _
    split <;> trivial

theorem record_completed_check_guarded (book : verbs .book) (context : RunContext)
    (bundle : PropositionEvidenceBundle) (result : RawTurnResult) (now : String) :
    wp (Guarded verbs) (record_completed_check x context bundle result now) (fun _ _ => True) v := by
  simp only [record_completed_check, wp_bind, wp_lift]
  cases validate_check_result x bundle result.text now with
  | error e => trivial
  | ok validated =>
    simp only [wp_load_state, wp_when, wp_bind]
    have verdict (s : Vault) : wp (Guarded verbs) (append_verdict validated.2) (fun _ _ => True) s :=
      calm_guarded (append_verdict_calm _)
    refine ⟨fun _ => wp_of_calm (write_turn_body_calm _) ?_, fun _ => verdict _⟩
    rintro (e | record) v₁ _
    · trivial
    refine (book_spend_guarded book _ _ _ _ _ _).post ?_
    rintro (e | _) v₂ _
    · trivial
    · exact (wp_append _).mpr ⟨trivial, verdict _⟩

end

/-- Every action of a worker keeps to its verbs. -/
theorem worker_guarded {max_attempts : Nat} {phase : WorkerPhase} {action : WorkerAction} {p : VaultM WorkerPhase}
    (acts : worker_action x max_attempts phase action = some p) :
    wp (Guarded action.verbs) p (fun _ _ => True) v := by
  have then_return {verbs : Verb → Prop} {α : Type} {q : VaultM α} {next : WorkerPhase} {s : Vault}
      (h : wp (Guarded verbs) q (fun _ _ => True) s) : wp (Guarded verbs) (do let _ ← q; return next) (fun _ _ => True) s := by
    simp only [wp_bind, wp_pure]
    refine h.post ?_
    rintro (e | _) _ _ <;> trivial
  unfold worker_action at acts
  split at acts
  case h_2 => cases acts; exact dispatch_guarded (by rfl) _ _ _ _
  case h_4 =>
    cases acts
    exact calm_guarded (.bind plan_read_calm fun planned => by split <;> exact .pure _)
  case h_5 =>
    cases acts
    rw [wp_bind]
    refine (plan_cap_guarded _).post ?_
    rintro (e | _) s _
    · trivial
    · exact (wp_ite _ _ _).mpr ⟨fun _ => (wp_throw _).mpr trivial, fun _ => (wp_pure _).mpr trivial⟩
  case h_6 =>
    cases acts
    exact wp_with_lock.mpr ⟨fun _ => then_return finalize_if_ready_guarded, fun _ => trivial⟩
  case h_7 => cases acts; exact then_return (record_turn_intent_guarded (by rfl) _ _ _ _)
  case h_8 => cases acts; exact calm_guarded (assemble_prompt_calm _ _)
  case h_11 => split at acts <;> cases acts <;> trivial
  case h_12 => cases acts; exact then_return (record_turn_guarded (by rfl) _ _ _ _ _ _)
  case h_14 => cases acts; exact then_return (pause_run_guarded (by rfl) _)
  case h_15 => cases acts; exact then_return (finish_needs_attention_guarded (by rfl) _)
  case h_16 =>
    cases acts
    refine (wp_ite _ _ _).mpr ⟨fun _ => (wp_pure _).mpr trivial, fun _ => then_return ?_⟩
    exact (wp_attempt _).mpr (finish_needs_attention_guarded (by rfl) _)
  case h_17 => cases acts; exact check_bundle_guarded (by rfl) _ _ _ _ _ _
  case h_20 => split at acts <;> cases acts <;> trivial
  case h_21 =>
    cases acts
    simp only [wp_bind, wp_load_run_context]
    cases v.run_context with
    | error e => trivial
    | ok context =>
      refine (record_completed_check_guarded (by rfl) _ _ _ _).post ?_
      rintro (e | _) _ _ <;> trivial
  case h_22 =>
    obtain ⟨item, _, rfl⟩ := Option.map_eq_some_iff.mp acts
    trivial
  case h_23 => cases acts
  all_goals cases acts; trivial

/-- A worker that finds the lock held, and does not hold it itself, keeps the lifecycle. -/
theorem worker_calm_of_busy {max_attempts : Nat} {phase : WorkerPhase} {action : WorkerAction}
    {p : VaultM WorkerPhase} (acts : worker_action x max_attempts phase action = some p)
    (outside : phase.holds_lock = false) (busy : action.free = false) : Only Write.Calm p := by
  unfold worker_action at acts
  split at acts
  case h_2 =>
    cases acts
    cases busy
    unfold dispatch
    split
    · exact .pure _
    · exact .pure _
    · exact .bind (prepare_run_proposition_checks_calm _ _) fun _ => .pure _
    · exact .throw _
    · exact .bind only_load_state fun _ => .bind (.when (.throw _)) fun _ => .pure _
  case h_4 => cases acts; exact .bind plan_read_calm fun planned => by split <;> exact .pure _
  case h_5 => cases acts; cases busy; exact .bind (.throw _) fun _ => .ite (.throw _) (.pure _)
  case h_6 => cases acts; cases busy; exact .throw _
  case h_7 => cases acts; cases busy; exact .bind (.throw _) fun _ => .pure _
  case h_8 => cases acts; exact assemble_prompt_calm _ _
  case h_11 => split at acts <;> cases acts <;> first | exact .pure _ | exact .ite (.pure _) (.pure _)
  case h_12 => cases acts; cases busy; exact .bind (.throw _) fun _ => .pure _
  case h_14 => cases acts; cases busy; exact .bind (.throw _) fun _ => .pure _
  case h_15 => cases acts; cases busy; exact .bind (.throw _) fun _ => .pure _
  case h_16 => cases acts; cases busy; exact .ite (.pure _) (.bind (.attempt (.throw _)) fun _ => .pure _)
  case h_17 =>
    cases acts
    cases busy
    rename_i bundles _ _
    cases bundles with
    | nil => exact .bind (close_checks_calm _ _ _) fun _ => .pure _
    | cons bundle rest =>
      refine .bind (.attempt ?_) fun opened => by split <;> first | exact .pure _ | exact .throw _
      refine .bind only_load_run_context fun _ => .bind .read fun _ => .ite (.pure _) ?_
      split
      · exact .bind (recover_verdict_calm _ _ _) fun _ => .pure _
      · exact .throw _
  case h_20 => split at acts <;> cases acts <;> exact .pure _
  case h_21 => cases outside
  case h_22 =>
    obtain ⟨item, _, rfl⟩ := Option.map_eq_some_iff.mp acts
    exact .pure _
  case h_23 => cases acts
  all_goals cases acts; exact .pure _

/-! ### The driver -/

/-- The lifecycle writes a driver's action may make. -/
def DriverAction.verbs : DriverAction → Verb → Prop
  | .record _ => (· = .book)
  | _ => fun _ => False

/-- The phases between the plan of a turn and the end of its recording. -/
def DriverPhase.turning : DriverPhase → Bool
  | .ready _ _ _ | .calling _ _ _ | .returned _ _ _ _ => true
  | _ => false

/-- Every action of the driver keeps to its verbs; it records only while the run is running. -/
theorem driver_guarded {phase : DriverPhase} {action : DriverAction} {p : VaultM DriverPhase}
    (acts : driver_action x phase action = some p)
    (running : phase.turning = true → v.state.status = .running) :
    wp (Guarded action.verbs) p (fun _ _ => True) v := by
  unfold driver_action at acts
  split at acts
  case h_1 =>
    cases acts
    exact calm_guarded (only_with_lock (.bind only_load_run_context fun _ => .pure _))
  case h_2 =>
    cases acts
    simp only [drive_iterate, wp_bind, wp_load_run_context, wp_load_state]
    cases v.run_context with
    | error e => trivial
    | ok context =>
      simp only [wp_ite, wp_pure, wp_bind, wp_lift]
      refine ⟨fun _ => trivial, fun _ => ⟨fun _ => (cap_transition_guarded context).post ?_, fun _ => ?_⟩⟩
      · rintro (e | _) _ _ <;> trivial
      · cases plan_run x context v.state with
        | error e => trivial
        | ok specs =>
          dsimp only
          split
          · simp only [wp_bind, wp_pure]
            refine (finalize_guarded context).post ?_
            rintro (e | _) _ _ <;> trivial
          · trivial
  case h_3 =>
    cases acts
    refine calm_guarded ?_
    unfold drive_next
    split
    · exact .pure _
    · exact .bind only_load_state fun _ => .ite (.pure _) (.pure _)
  case h_5 => split at acts <;> cases acts <;> trivial
  case h_6 =>
    cases acts
    simp only [wp_bind, wp_load_run_context]
    cases v.run_context with
    | error e => trivial
    | ok context =>
      refine (record_spec_guarded (by rfl) (running rfl) context _ _ _ _ _ _).post ?_
      rintro (e | _) _ _ <;> trivial
  case h_7 => cases acts
  all_goals cases acts; trivial

end MootLoop
