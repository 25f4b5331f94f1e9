import MootLoop.Theorems.Writes

/-! One specification for each program of the vault: which lifecycle writes it may make, and what it
    checks before each. Everything the system does is derived from these, never from the programs. -/

namespace MootLoop
open Durable

variable {x : Externals} {t : Publishing} {v : Vault} {verbs : Verb → Prop}

/-! ### Calm programs -/

section
variable {α : Type} {C : Write → Prop}

theorem only_append {event : JournalEvent} (h : C (.journal event)) : Only C (append event) := .write h

theorem only_load_state : Only C load_state := .bind .read fun _ => .pure _
theorem only_read_events : Only C read_events := .bind .read fun _ => .pure _
theorem only_load_run_context : Only C load_run_context := .bind .read fun _ => .lift _

theorem only_with_lock {free : Bool} {body : VaultM α} (h : Only C body) : Only C (with_lock free body) :=
  .ite h (.throw _)

end

theorem stage_started_calm (stage : StageName) : Only Write.Calm (append (.stage_started stage)) := .write trivial
theorem turn_completed_calm (record : TurnRecord) : Only Write.Calm (append (.turn_completed record)) := .write trivial

theorem write_turn_body_calm (record : TurnRecord) : Only Write.Calm (write_turn_body record) := by
  refine .bind .read fun s => ?_
  split
  · exact .bind (.write trivial) fun _ => .pure _
  · exact .ite (.pure _) (.throw _)

theorem derive_drafts_and_store_calm (run_id : RunId) (drafts : List (TurnSpec × DraftOutput)) (document : Bool) :
    Only Write.Calm (derive_drafts_and_store run_id drafts document) :=
  .bind .read fun _ => .forEach fun _ _ => .write trivial

theorem maybe_emit_rubric_gate_calm (context : RunContext) (spec : TurnSpec) :
    Only Write.Calm (maybe_emit_rubric_gate x context spec) := by
  refine .ite (.pure _) (.bind only_load_state fun state => ?_)
  split
  · exact .pure _
  · refine .ite (.pure _) (.bind only_read_events fun events => .ite (.pure _) ?_)
    exact .bind (.lift _) fun _ => only_append trivial

theorem record_resolution_event_calm (decision : Decision) (resolution : DecisionResolution) :
    Only Write.Calm (record_resolution_event decision resolution) := by
  refine .bind only_read_events fun events => ?_
  dsimp only
  split
  · exact only_append trivial
  · exact .ite (.pure _) (.throw _)

theorem verify_all_calm (citations : List Citation) (now : Instant) (max_cache_age_days : Nat)
    (outcome : Citation → VerificationRecord) : Only Write.Calm (verify_all x citations now max_cache_age_days outcome) :=
  .bind .read fun _ => .forEach fun _ _ => .write trivial

theorem verify_run_citations_calm (now : String) (outcome : Citation → VerificationRecord)
    (max_cache_age_days : Nat) : Only Write.Calm (verify_run_citations x now outcome max_cache_age_days) :=
  .bind only_load_run_context fun _ => .bind only_load_state fun _ => .bind (.lift _) fun _ =>
    .bind (.lift _) fun _ => .bind (verify_all_calm _ _ _ _) fun _ => .bind .read fun _ => only_append trivial

theorem append_verdict_calm (record : PropositionVerificationRecord) : Only Write.Calm (append_verdict record) := by
  refine .bind .read fun s => ?_
  split
  · exact .pure _
  · exact .write trivial

theorem prepare_run_proposition_checks_calm (now : String) (lookup : AuthorityLookup) :
    Only Write.Calm (prepare_run_proposition_checks x now lookup) := by
  refine .bind ?_ fun context => .bind .read fun _ => .bind (.lift _) fun _ => .bind (.lift _) fun _ =>
    .ite (.throw _) (.pure _)
  exact .bind only_load_run_context fun _ => .bind only_load_state fun _ => .ite (.throw _) (.pure _)

theorem close_checks_calm (prepared : PreparedPropositionChecks) (unresolved : List CitationProposition)
    (now : String) : Only Write.Calm (close_checks x prepared unresolved now) :=
  .bind only_load_run_context fun _ => .bind .read fun _ => .bind (only_append trivial) fun _ =>
    .bind .read fun _ => .bind (.lift _) fun _ => only_append trivial

theorem plan_read_calm : Only Write.Calm (plan_read x) :=
  .bind only_load_run_context fun _ => .bind only_load_state fun _ =>
    .ite (.pure _) (.ite (.pure _) (.bind (.lift _) fun _ => .pure _))

/-! ### Review and export -/

/-- The writes of an export: deliverables and a seal. -/
def Write.Publishes : Write → Prop
  | .deliverable _ _ | .unlink _ | .export_seal _ => True
  | _ => False

theorem Write.Publishes.calm {w : Write} (h : w.Publishes) : w.Calm := by
  cases w with
  | journal _ | manifest _ _ => exact h.elim
  | _ => trivial

section
variable {α : Type}

theorem retire_clean_docx_publishes : Only Write.Publishes retire_clean_docx :=
  .bind .read fun _ => .forEach fun _ _ => .write trivial

theorem render_set_publishes (is_draft : Bool) (label source : String) (result : ExportResult) :
    Only Write.Publishes (render_set t is_draft label source result) := by
  refine .bind (.bind .read fun s => ?_) fun text => .bind (.lift _) fun docx => .bind (.write trivial) fun _ =>
    .ite (.bind (.write trivial) fun _ => .pure _) (.pure _)
  split
  · exact .pure _
  · exact .throw _

theorem render_sets_publishes (is_draft : Bool) (sources : List (String × String)) (result : ExportResult) :
    Only Write.Publishes (render_sets t is_draft sources result) := by
  induction sources generalizing result with
  | nil => exact .pure _
  | cons source rest ih => exact .bind (render_set_publishes is_draft _ _ result) fun rendered => ih rendered

theorem build_court_master_publishes (context : RunContext) (now : String) :
    Only Write.Publishes (build_court_master x context now) :=
  .bind .read fun _ => .bind (.lift _) fun _ => .write trivial

theorem build_set_masters_publishes (context : RunContext) (now : String) :
    Only Write.Publishes (build_set_masters x context now) :=
  .forEach fun _ _ => .bind .read fun _ => .bind (.lift _) fun _ => .write trivial

theorem build_pages_publishes (context : RunContext) (now : String) :
    Only Write.Publishes (build_pages t context now) :=
  .bind (.when (.bind .read fun _ => .write trivial)) fun _ =>
    .bind .read fun _ => .bind (.write trivial) fun _ => .bind .read fun _ => .bind (.write trivial) fun _ =>
    .bind .read fun _ => .bind (.write trivial) fun _ => .pure _

theorem build_deliverables_publishes (context : RunContext) (now : String) :
    Only Write.Publishes (build_deliverables x t context now) :=
  .bind .read fun _ => .bind (.lift _) fun _ =>
    .bind (.when (build_court_master_publishes context now)) fun _ =>
    .bind (build_pages_publishes context now) fun _ =>
    .bind (.when (build_set_masters_publishes context now)) fun _ =>
    .bind .read fun _ => .bind (.lift _) fun _ => .bind (.lift _) fun _ => .pure _

theorem record_export_seal_locked_publishes (now : String) :
    Only Write.Publishes (record_export_seal_locked t now) := by
  refine .bind .read fun s => .bind (.lift _) fun check => ?_
  split
  · exact .ite (.throw _) (.write trivial)
  · exact .throw _

theorem publish_publishes (context : RunContext) (built : ExportResult) (pandoc force_draft : Bool) (now : String) :
    Only Write.Publishes (publish t context built pandoc force_draft now) :=
  .ite (.bind retire_clean_docx_publishes fun _ => .pure _)
    (.bind (.when retire_clean_docx_publishes) fun _ => .ite (.pure _)
      (.bind (render_sets_publishes _ _ _) fun _ =>
        .ite
          (.ite (.bind (record_export_seal_locked_publishes now) fun _ => .pure _)
            (.bind retire_clean_docx_publishes fun _ => .pure _))
          (.pure _)))

theorem render_draft_from_sealed_publishes (pandoc : Bool) (result : ExportResult) :
    Only Write.Publishes (render_draft_from_sealed t pandoc result) :=
  .ite (render_sets_publishes _ _ _) (.pure _)

theorem export_run_publishes (free pandoc force_draft : Bool) (now : String) :
    Only Write.Publishes (export_run x t free pandoc force_draft now) :=
  only_with_lock <| .bind only_load_run_context fun context => .bind .read fun _ => .bind (.lift _) fun _ =>
    .ite
      (.bind (.lift _) fun _ => .ite (.throw _) (.ite (render_draft_from_sealed_publishes pandoc _) (.pure _)))
      (.bind (build_deliverables_publishes context now) fun _ => publish_publishes context _ pandoc force_draft now)

/-- The write of an attestation. -/
def Write.Attests : Write → Prop
  | .attestation _ => True
  | _ => False

theorem attest_attests (free : Bool) (reviewer now : String) : Only Write.Attests (attest t free reviewer now) := by
  refine only_with_lock <| .bind only_load_run_context fun context => .bind .read fun s =>
    .ite (.throw _) (.ite (.throw _) ?_)
  split
  · exact .throw _
  · exact .bind (.lift _) fun _ => .write trivial

theorem check_attestation_attests (free : Bool) (now : String) : Only Write.Attests (check_attestation t free now) :=
  only_with_lock <| .bind .read fun _ => .bind (.lift _) fun _ =>
    .ite (.bind only_load_run_context fun _ => .bind (.lift _) fun _ => .write trivial) (.pure _)

theorem Write.Attests.calm {w : Write} (h : w.Attests) : w.Calm := by
  cases w with
  | journal _ | manifest _ _ => exact h.elim
  | _ => trivial

end

/-! ### The orchestrator -/

theorem cap_transition_guarded (context : RunContext) :
    wp (Guarded verbs) (cap_transition x context) (fun r v' => r = .ok () → v'.state.status ≠ .running) v := by
  simp only [cap_transition, wp_bind, wp_load_state, wp_ite, wp_pure, wp_lift, wp_append]
  refine ⟨fun stopped _ => by simpa [RunState.finished] using stopped, fun running => ?_⟩
  cases unfinished_units x context v.state with
  | error e => simp
  | ok _ => exact ⟨by simpa [RunState.finished, Guarded] using running, fun _ => by simp [RunState.apply]⟩

/-- The checks of `finalize` still hold after its calm writes. -/
theorem finalize_guarded (context : RunContext) : wp (Guarded verbs) (finalize x context) (fun _ _ => True) v := by
  simp only [finalize, wp_bind, wp_load_state, wp_ite, wp_pure, wp_lift]
  refine ⟨fun _ => trivial, fun live => ?_⟩
  cases (read_contexts context v.state).allM (request_complete x) with
  | error e => trivial
  | ok complete =>
    refine ⟨fun _ => trivial, fun _ => wp_of_calm (derive_drafts_and_store_calm _ _ _) ?_⟩
    rintro (e | _) v₁ kept₁
    · trivial
    refine wp_of_calm (.forEach fun _ _ => maybe_emit_rubric_gate_calm _ _) ?_
    rintro (e | _) v₂ kept₂
    · trivial
    have status : v₂.state.status = v.state.status := kept₂.status.trans kept₁.status
    simp only [wp_read, wp_ite, wp_append, wp_pure, Guarded, status, and_true]
    refine ⟨fun _ => ⟨fun fresh => ?_, fun _ => trivial⟩, fun _ => ?_⟩
    · by_contra other
      exact live ⟨other, fresh⟩
    · by_contra other
      exact live (not_or.mp other)

theorem maybe_checkpoint_guarded (context : RunContext) :
    wp (Guarded verbs) (maybe_checkpoint x context) (fun _ _ => True) v := by
  simp only [maybe_checkpoint, wp_bind, wp_load_state, wp_ite, wp_pure, wp_lift]
  refine ⟨fun _ => trivial, fun live => ?_⟩
  have running : v.state.status = .running := by
    by_contra other
    exact live (.inr other)
  have decisions : wp (Guarded verbs) (maybe_checkpoint.checkpoint_decisions context v.state) (fun _ _ => True) v := by
    simp only [maybe_checkpoint.checkpoint_decisions, wp_bind, wp_read, wp_ite, wp_append, wp_pure, Guarded]
    exact ⟨fun _ => ⟨running, trivial⟩, fun _ => trivial⟩
  cases plan x context v.state context.tier_models [] with
  | error e => trivial
  | ok specs =>
    dsimp only
    split
    · simp only [wp_ite, wp_append, Guarded]
      exact ⟨fun _ => ⟨running, trivial⟩, fun _ => decisions⟩
    · exact decisions

/-- After the follow-up of an accepted turn, the run is stopped or within its cap. -/
theorem settle_guarded (context : RunContext) :
    wp (Guarded verbs) (settle x context)
      (fun r v' => r = .ok () → v'.state.status ≠ .running ∨ over_cap v'.state context = false) v := by
  -- with no verb of its own, the follow-up leaves the budget as the check found it
  refine wp.mono (P := Guarded fun _ => False) ?_ (fun _ _ h => h.mono fun _ none => none.elim) fun _ _ h => h
  simp only [settle, wp_bind, wp_load_state, wp_ite]
  refine ⟨fun _ => (cap_transition_guarded context).post fun _ _ h ok => .inl (h ok), fun within => ?_⟩
  refine (wp_same_budget (by simp) (finalize_guarded context)).post ?_
  rintro (e | _) v₁ ⟨_, same₁⟩
  · simp
  refine (wp_same_budget (by simp) (maybe_checkpoint_guarded context)).post ?_
  rintro r v₂ ⟨_, same₂⟩ _
  exact .inr (by rw [(same₁.trans same₂).over_cap]; simpa using within)

/-- The spend event `book_spend` appends, if any, or what it raises. -/
def booking (x : Externals) (v : Vault) (turn_id : TurnId) (usage : Option TokenUsage) (model : Option String)
    (now : String) (dedupe : Bool) (provider_call_id : Option String) : Except Error (Option SpendRecorded) :=
  match usage with
  | none => .ok none
  | some usage =>
    if dedupe && already_booked v.journal turn_id usage provider_call_id then .ok none
    else (date_of x now).map fun on => some (spend_event turn_id usage model on provider_call_id)

/-- The store after an optional spend event. -/
def Vault.booked (v : Vault) (spend : Option SpendRecorded) : Vault :=
  spend.elim v fun e => v.commit (.journal (.spend_recorded e))

theorem wp_book_spend {P : Vault → Write → Prop} {Q : Except Error Unit → Vault → Prop} {turn_id : TurnId}
    {usage : Option TokenUsage} {model : Option String} {now : String} {dedupe : Bool}
    {provider_call_id : Option String} :
    wp P (book_spend x turn_id usage model now dedupe provider_call_id) Q v ↔
      match booking x v turn_id usage model now dedupe provider_call_id with
      | .error e => Q (.error e) v
      | .ok spend => (∀ e, spend = some e → P v (.journal (.spend_recorded e))) ∧ Q (.ok ()) (v.booked spend) := by
  cases usage with
  | none => simp [book_spend, booking, Vault.booked]
  | some usage =>
    simp only [book_spend, booking, wp_bind, wp_read_events, wp_ite, wp_pure, wp_lift, wp_append]
    by_cases found : (dedupe && already_booked v.journal turn_id usage provider_call_id) = true
    · simp [found, Vault.booked]
    · cases on : date_of x now <;> simp [found, on, Except.map, Vault.booked]

theorem book_spend_guarded (book : verbs .book) (turn_id : TurnId) (usage : Option TokenUsage) (model : Option String)
    (now : String) (dedupe : Bool) (provider_call_id : Option String) :
    wp (Guarded verbs) (book_spend x turn_id usage model now dedupe provider_call_id) (fun _ _ => True) v := by
  rw [wp_book_spend]
  split
  · trivial
  · exact ⟨fun _ _ => book, trivial⟩

theorem state_booked_status (v : Vault) (spend : Option SpendRecorded) :
    (v.booked spend).state.status = v.state.status := by
  cases spend with
  | none => rfl
  | some e => simp [Vault.booked, RunState.apply]

/-- What a discard leaves: the attempt counted, and the run halted once the ceiling is reached. -/
theorem discard_guarded (book : verbs .book) (running : v.state.status = .running) (context : RunContext)
    (spec : TurnSpec) (reason detail : String) (usage : Option TokenUsage) (now : String)
    (provider_call_id : Option String) :
    wp (Guarded verbs) (discard x context spec reason detail usage now provider_call_id) (fun _ _ => True) v := by
  simp only [discard, wp_bind, wp_book_spend, wp_load_state, wp_append, wp_when, wp_pure]
  cases booking x v spec.turn_id usage spec.model now false provider_call_id with
  | error e => trivial
  | ok spend =>
    refine ⟨fun _ _ => book, trivial, fun _ => ⟨.inl ?_, trivial⟩, fun _ => trivial⟩
    rw [state_commit_journal]
    exact (state_booked_status v spend).trans running

theorem derive_decisions_of_calm (context : RunContext) (record : TurnRecord) :
    Only Write.Calm (derive_decisions_of context record) := by
  unfold derive_decisions_of
  split
  · exact derive_drafts_and_store_calm _ _ _
  · exact .pure _

/-- The recording of an accepted turn up to its completion: calm but for the spend. -/
theorem accept_turn_guarded (book : verbs .book) (context : RunContext) (spec : TurnSpec) (output : TurnOutput)
    (gate_results : List GateResult) (state : RunState) (usage : Option TokenUsage) (now : String)
    (provider_call_id : Option String) :
    wp (Guarded verbs) (accept_turn x context spec output gate_results state usage now provider_call_id)
      (fun r v' => (∃ record, r = .ok record) → v'.state.status ≠ .running ∨ over_cap v'.state context = false) v := by
  simp only [accept_turn, wp_bind]
  refine wp_of_calm (.when (stage_started_calm _)) ?_
  rintro (e | _) v₁ _
  · simp
  refine wp_of_calm (write_turn_body_calm _) ?_
  rintro (e | record) v₂ _
  · simp
  refine wp_of_calm (derive_decisions_of_calm _ _) ?_
  rintro (e | _) v₃ _
  · simp
  refine (book_spend_guarded book _ _ _ _ _ _).post ?_
  rintro (e | _) v₄ _
  · simp
  refine wp_of_calm (turn_completed_calm _) ?_
  rintro (e | _) v₅ _
  · simp
  refine wp_of_calm (maybe_emit_rubric_gate_calm _ _) ?_
  rintro (e | _) v₆ _
  · simp
  refine (settle_guarded context).post ?_
  rintro (e | _) v₇ settled
  · simp
  · simpa using settled

/-! ### Recording -/

/-- What becomes of a raw output: refused by its schema, halted by a gate, or accepted. -/
inductive Judged where
  | invalid (errors : List (String × String))
  | halted (results : List GateResult) (gate : GateResult)
  | accepted (output : TurnOutput) (results : List GateResult)

/-- The validation and the gates of `_record_spec`; they write nothing. -/
def judge (x : Externals) (context : RunContext) (spec : TurnSpec) (raw_text : String) : Except Error Judged :=
  match x.model_validate_json spec.output_schema_name raw_text with
  | .error errors => .ok (.invalid errors)
  | .ok output => do
    let gate_run ← evaluate_turn_gates x context.config.gates (turn_gate_context context spec output)
    match gate_run.halted_by, gate_run.results.getLast? with
    | some _, some gate => return .halted gate_run.results gate
    | _, _ => return .accepted output gate_run.results

/-- Whether the turn is discarded. -/
def discards (x : Externals) (context : RunContext) (spec : TurnSpec) (raw_text : String) : Bool :=
  match judge x context spec raw_text with
  | .ok (.invalid _) | .ok (.halted _ _) => true
  | _ => false

/-- The store after the verdicts of a turn's gates. -/
def Vault.gated (v : Vault) (turn_id : TurnId) (results : List GateResult) : Vault :=
  commits v (results.map fun result => .journal (.gate_evaluated turn_id result))

theorem kept_gated (v : Vault) (turn_id : TurnId) (results : List GateResult) : Kept v (v.gated turn_id results) := by
  refine kept_of_calm fun w hw => ?_
  obtain ⟨result, _, rfl⟩ := List.mem_map.mp hw
  trivial

theorem state_gated (v : Vault) (turn_id : TurnId) (results : List GateResult) :
    (v.gated turn_id results).state = v.state := by
  induction results generalizing v with
  | nil => rfl
  | cons result rest ih => exact (ih _).trans (state_commit_journal v _)

/-- The rule of recording: the turn is discarded or accepted in the store its verdicts leave, and
    nothing is written when the gates raise. -/
theorem wp_record_spec {P : Vault → Write → Prop} {Q : Except Error Recorded → Vault → Prop} {context : RunContext}
    {spec : TurnSpec} {raw_text : String} {usage : Option TokenUsage} {now : String} {state : RunState}
    {provider_call_id : Option String}
    (verdicts : ∀ s result, P s (.journal (.gate_evaluated spec.turn_id result)))
    (discarded : discards x context spec raw_text = true → ∀ results reason detail,
      wp P (discard x context spec reason detail usage now provider_call_id)
        (fun r v' => Q (r.map Recorded.discarded) v') (v.gated spec.turn_id results))
    (accepted : ∀ output results, judge x context spec raw_text = .ok (.accepted output results) →
      wp P (accept_turn x context spec output results state usage now provider_call_id)
        (fun r v' => Q (r.map Recorded.completed) v') (v.gated spec.turn_id results))
    (raised : ∀ e, judge x context spec raw_text = .error e → Q (.error e) v) :
    wp P (record_spec x context spec raw_text usage now state provider_call_id) Q v := by
  have follows {α : Type} {p : VaultM α} {f : α → Recorded} {s : Vault} (h : wp P p (fun r v' => Q (r.map f) v') s) :
      wp P (p >>= fun a => pure (f a)) Q s := by
    simp only [wp_bind, wp_pure]
    refine h.post ?_
    rintro (e | a) v' q
    · exact q
    · exact q
  unfold record_spec
  unfold discards at discarded
  unfold judge at discarded accepted raised
  cases valid : x.model_validate_json spec.output_schema_name raw_text with
  | error errors =>
    simp only [valid] at discarded
    exact follows (discarded trivial [] _ _)
  | ok output =>
    simp only [valid] at discarded accepted raised
    simp only [wp_bind, wp_lift]
    cases gates : evaluate_turn_gates x context.config.gates (turn_gate_context context spec output) with
    | error e => exact raised e (by simp [gates, bind, Except.bind])
    | ok gate_run =>
      simp only [gates, bind, Except.bind] at discarded accepted
      have path : Path P v (gate_run.results.map fun result => Write.journal (.gate_evaluated spec.turn_id result)) :=
        (path_of_only (C := fun w => ∀ s, P s w) (fun w hw => by
          obtain ⟨result, _, rfl⟩ := List.mem_map.mp hw
          exact fun s => verdicts s result)).mono fun s w h => h s
      refine (wp_forEach_write _).mpr ⟨path, ?_⟩
      dsimp only
      split
      · next halt last =>
        simp only [halt, last, pure, Except.pure] at discarded
        exact follows (discarded trivial _ _ _)
      · next other =>
        refine follows (accepted output gate_run.results ?_)
        split
        · next halt last => exact absurd last (other _ _ halt)
        · rfl

theorem record_spec_guarded (book : verbs .book) (running : v.state.status = .running) (context : RunContext)
    (spec : TurnSpec) (raw_text : String) (usage : Option TokenUsage) (now : String) (state : RunState)
    (provider_call_id : Option String) :
    wp (Guarded verbs) (record_spec x context spec raw_text usage now state provider_call_id) (fun _ _ => True) v :=
  wp_record_spec (fun _ _ => trivial)
    (fun _ _ _ _ => discard_guarded book ((kept_gated _ _ _).status.trans running) context spec _ _ usage now
      provider_call_id)
    (fun _ _ _ => (accept_turn_guarded book context spec _ _ state usage now provider_call_id).post fun _ _ _ => trivial)
    (fun _ _ => trivial)

/-- A turn is planned only in a run that is running. -/
theorem plan_run_running {context : RunContext} {state : RunState} {specs : List TurnSpec} {spec : TurnSpec}
    (planned : plan_run x context state = .ok specs) (mem : spec ∈ specs) : state.status = .running := by
  by_contra stopped
  simp only [plan_run, plan, stopped, ne_eq, not_false_eq_true, if_true, Except.ok.injEq] at planned
  simp [← planned] at mem

theorem find_spec_in_mem {specs : List TurnSpec} {turn_id : TurnId} {spec : TurnSpec}
    (found : find_spec_in specs turn_id = .ok spec) : spec ∈ specs ∧ spec.turn_id = turn_id := by
  unfold find_spec_in at found
  split at found
  · next hit =>
    cases found
    exact ⟨List.mem_of_find?_eq_some hit, by simpa using List.find?_some hit⟩
  · cases found

theorem record_turn_guarded (book : verbs .book) (free : Bool) (turn_id : TurnId) (raw_text : String)
    (usage : Option TokenUsage) (now : String) (provider_call_id : Option String) :
    wp (Guarded verbs) (record_turn x free turn_id raw_text usage now provider_call_id) (fun _ _ => True) v := by
  refine wp_with_lock.mpr ⟨fun _ => ?_, fun _ => trivial⟩
  simp only [wp_bind, wp_load_run_context, wp_load_state]
  cases v.run_context with
  | error e => trivial
  | ok context =>
    dsimp only
    split
    · simp only [wp_bind, wp_pure]
      refine (book_spend_guarded book _ _ _ _ _ _).post ?_
      rintro (e | _) v' _
      · trivial
      · refine (finalize_guarded context).post ?_
        rintro (e | _) _ _ <;> trivial
    · simp only [wp_bind, wp_lift]
      cases planned : plan_run x context v.state with
      | error e => trivial
      | ok specs =>
        dsimp only
        cases found : find_spec_in specs turn_id with
        | error e => trivial
        | ok spec =>
          exact record_spec_guarded book (plan_run_running planned (find_spec_in_mem found).1) context spec raw_text
            usage now v.state provider_call_id

end MootLoop
