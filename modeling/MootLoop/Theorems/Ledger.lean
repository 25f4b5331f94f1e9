import MootLoop.GateLedger

/-! What a green gate ledger says of a vault, in terms of the verdicts recorded on the journal rather than of
    the ledger's fold over them. -/

namespace MootLoop

variable {t : Publishing} {v : Vault} {context : RunContext} {doc : GateLedgerDoc}

/-! ### Recorded verdicts -/

/-- A verdict the journal has for a request, on a completed turn of it. -/
structure RecordedVerdict where
  request_id : RequestId
  turn_id : TurnId
  gate : String
  status : GateStatus

def recorded_verdict (state : RunState) : JournalEvent → Option RecordedVerdict
  | .gate_evaluated turn_id result =>
    if result.gate = "citation" then none
    else ((state.completed_turns.get? turn_id).bind (·.spec.request_id)).map fun request_id =>
      ⟨request_id, turn_id, result.gate, result.status⟩
  | _ => none

def recorded_verdicts (events : List JournalEvent) (state : RunState) : List RecordedVerdict :=
  events.filterMap (recorded_verdict state)

def citation_verdict : JournalEvent → Option GateStatus
  | .gate_evaluated _ result => if result.gate = "citation" then some result.status else none
  | _ => none

/-- The citation verdicts of the journal, the last one last. -/
def citation_verdicts (events : List JournalEvent) : List GateStatus := events.filterMap citation_verdict

/-- The last verdict of a gate on a turn. -/
def last_on_turn (verdicts : List RecordedVerdict) (turn_id : TurnId) (gate : String) : Option GateStatus :=
  ((verdicts.filter fun r => r.turn_id = turn_id ∧ r.gate = gate).getLast?).map (·.status)

/-- The verdicts of a gate for a request. -/
def for_request (verdicts : List RecordedVerdict) (request_id : RequestId) (gate : String) : List GateStatus :=
  (verdicts.filter fun r => r.request_id = request_id ∧ r.gate = gate).map (·.status)

/-- The worst of some statuses. -/
def worst_of (statuses : List GateStatus) : Option GateStatus :=
  statuses.foldl (fun was status => some (was.elim status fun was => worse was status)) none

theorem worse_eq_pass {a b : GateStatus} : worse a b = .pass ↔ a = .pass ∧ b = .pass := by
  cases a <;> cases b <;> decide

theorem worst_of_snoc (statuses : List GateStatus) (status : GateStatus) :
    worst_of (statuses ++ [status]) = some ((worst_of statuses).elim status fun was => worse was status) := by
  simp [worst_of]

/-- The worst is a pass where there is one and all are. -/
theorem worst_of_eq_pass {statuses : List GateStatus} :
    worst_of statuses = some .pass ↔ statuses ≠ [] ∧ ∀ status ∈ statuses, status = .pass := by
  induction statuses using List.reverseRecOn with
  | nil => simp [worst_of]
  | append_singleton rest status ih =>
    rw [worst_of_snoc]
    rcases List.eq_nil_or_concat rest with rfl | ⟨before, last, rfl⟩
    · simp [worst_of]
    · obtain ⟨was, worst⟩ : ∃ was, worst_of (before.concat last) = some was := by
        rw [List.concat_eq_append, worst_of_snoc]
        exact ⟨_, rfl⟩
      rw [worst] at ih ⊢
      simp only [Option.elim_some, Option.some.injEq, worse_eq_pass] at ih ⊢
      rw [ih]
      simp [List.concat_eq_append, or_imp, forall_and, and_assoc]

theorem worst_of_eq_none {statuses : List GateStatus} : worst_of statuses = none ↔ statuses = [] := by
  rcases List.eq_nil_or_concat statuses with rfl | ⟨before, last, rfl⟩
  · simp [worst_of]
  · rw [List.concat_eq_append, worst_of_snoc]
    simp

/-! ### The fold -/

/-- A verdict of a dictionary of dictionaries. -/
def read_verdict {κ : Type} [DecidableEq κ] (d : Dict κ (Dict String GateStatus)) (key : κ) (gate : String) :
    Option GateStatus := ((d.get? key).getD ∅).get? gate

theorem read_verdict_insert {κ : Type} [DecidableEq κ] (d : Dict κ (Dict String GateStatus)) (key key' : κ)
    (gate gate' : String) (status : GateStatus) :
    read_verdict (d.insert key (((d.get? key).getD ∅).insert gate status)) key' gate' =
      if key' = key ∧ gate' = gate then some status else read_verdict d key' gate' := by
  unfold read_verdict
  by_cases same : key' = key
  · subst same
    simp [Dict.get?_insert]
  · simp [Dict.get?_insert_ne _ same, same]

theorem last_on_turn_snoc (verdicts : List RecordedVerdict) (r : RecordedVerdict) (turn_id : TurnId) (gate : String) :
    last_on_turn (verdicts ++ [r]) turn_id gate =
      if turn_id = r.turn_id ∧ gate = r.gate then some r.status else last_on_turn verdicts turn_id gate := by
  unfold last_on_turn
  by_cases this : turn_id = r.turn_id ∧ gate = r.gate
  · simp [this]
  · have other : ¬(r.turn_id = turn_id ∧ r.gate = gate) := fun h => this ⟨h.1.symm, h.2.symm⟩
    simp [this, other]

theorem for_request_snoc (verdicts : List RecordedVerdict) (r : RecordedVerdict) (request_id : RequestId)
    (gate : String) :
    for_request (verdicts ++ [r]) request_id gate =
      if request_id = r.request_id ∧ gate = r.gate then for_request verdicts request_id gate ++ [r.status]
      else for_request verdicts request_id gate := by
  unfold for_request
  by_cases this : request_id = r.request_id ∧ gate = r.gate
  · simp [this]
  · have other : ¬(r.request_id = request_id ∧ r.gate = gate) := fun h => this ⟨h.1.symm, h.2.symm⟩
    simp [this, other]

/-- What the fold has read is the last verdict of each turn, the worst of each request, and the last
    citation verdict. -/
structure Folds (events : List JournalEvent) (state : RunState) (folded : TurnGateFold) : Prop where
  per_turn : ∀ turn_id gate, read_verdict folded.per_turn turn_id gate =
    last_on_turn (recorded_verdicts events state) turn_id gate
  worst : ∀ request_id gate, read_verdict folded.worst request_id gate =
    worst_of (for_request (recorded_verdicts events state) request_id gate)
  citation : folded.citation_status = (citation_verdicts events).getLast?.getD .pending

/-- An event that records nothing leaves the fold. -/
theorem Folds.skip {events : List JournalEvent} {state : RunState} {folded : TurnGateFold} {event : JournalEvent}
    (h : Folds events state folded) (unrecorded : recorded_verdict state event = none)
    (uncited : citation_verdict event = none) : Folds (events ++ [event]) state folded := by
  have recorded : recorded_verdicts (events ++ [event]) state = recorded_verdicts events state := by
    simp [recorded_verdicts, unrecorded]
  have cited : citation_verdicts (events ++ [event]) = citation_verdicts events := by simp [citation_verdicts, uncited]
  exact ⟨recorded ▸ h.per_turn, recorded ▸ h.worst, cited ▸ h.citation⟩

theorem Folds.apply {events : List JournalEvent} {state : RunState} {folded : TurnGateFold} (h : Folds events state folded)
    (event : JournalEvent) : Folds (events ++ [event]) state (folded.apply state event) := by
  cases event with
  | gate_evaluated turn_id result =>
    by_cases citation : result.gate = "citation"
    · have recorded : recorded_verdicts (events ++ [.gate_evaluated turn_id result]) state =
          recorded_verdicts events state := by simp [recorded_verdicts, recorded_verdict, citation]
      simp only [TurnGateFold.apply, citation, if_true]
      refine ⟨recorded ▸ h.per_turn, recorded ▸ h.worst, ?_⟩
      simp [citation_verdicts, citation_verdict, citation]
    · cases owner : (state.completed_turns.get? turn_id).bind (·.spec.request_id) with
      | none =>
        simp only [TurnGateFold.apply, citation, if_false, owner]
        exact h.skip (by simp [recorded_verdict, owner]) (by simp [citation_verdict, citation])
      | some request_id =>
        have recorded : recorded_verdicts (events ++ [.gate_evaluated turn_id result]) state =
            recorded_verdicts events state ++ [⟨request_id, turn_id, result.gate, result.status⟩] := by
          simp [recorded_verdicts, recorded_verdict, citation, owner]
        simp only [TurnGateFold.apply, citation, if_false, owner]
        refine ⟨fun turn gate => ?_, fun request gate => ?_, ?_⟩
        · rw [recorded, last_on_turn_snoc, read_verdict_insert, h.per_turn]
        · rw [recorded, for_request_snoc, read_verdict_insert, h.worst]
          by_cases this : request = request_id ∧ gate = result.gate
          · obtain ⟨rfl, rfl⟩ := this
            have was := h.worst request result.gate
            unfold read_verdict at was
            simp only [and_self, if_true, was, worst_of_snoc]
            cases worst_of (for_request (recorded_verdicts events state) request result.gate) <;> rfl
          · simp [this]
        · simp [citation_verdicts, citation_verdict, citation, h.citation]
  | _ => exact h.skip rfl rfl

theorem turn_gate_fold_folds (events : List JournalEvent) (state : RunState) :
    Folds events state (turn_gate_fold events state) := by
  induction events using List.reverseRecOn with
  | nil => exact ⟨fun _ _ => rfl, fun _ _ => rfl, rfl⟩
  | append_singleton events event ih =>
    rw [turn_gate_fold, List.foldl_append]
    exact ih.apply event

/-- The verdict on the operative draft passes if there is one, else every verdict for the request does. -/
def GatePasses (verdicts : List RecordedVerdict) (operative : Option TurnId) (request_id : RequestId)
    (gate : String) : Prop :=
  for_request verdicts request_id gate ≠ [] ∧
    match operative.bind fun turn_id => last_on_turn verdicts turn_id gate with
    | some status => status = .pass
    | none => ∀ status ∈ for_request verdicts request_id gate, status = .pass

theorem verdict_eq_pass {events : List JournalEvent} {state : RunState} {operative_turn : List (RequestId × TurnId)}
    {request_id : RequestId} {gate : String} :
    (turn_gate_fold events state).verdict operative_turn request_id gate = some .pass ↔
      GatePasses (recorded_verdicts events state) (operative_turn.lookup request_id) request_id gate := by
  have folds := turn_gate_fold_folds events state
  have worst := folds.worst request_id gate
  have on_operative : (((operative_turn.lookup request_id).bind (turn_gate_fold events state).per_turn.get?).getD ∅).get?
      gate = (operative_turn.lookup request_id).bind fun turn_id =>
        last_on_turn (recorded_verdicts events state) turn_id gate := by
    cases operative_turn.lookup request_id with
    | none => rfl
    | some turn_id => exact folds.per_turn turn_id gate
  unfold read_verdict at worst
  simp only [TurnGateFold.verdict, GatePasses, worst, on_operative]
  cases was : worst_of (for_request (recorded_verdicts events state) request_id gate) with
  | none => simp [worst_of_eq_none.mp was]
  | some was_status =>
    have recorded : for_request (recorded_verdicts events state) request_id gate ≠ [] := by
      intro none
      rw [worst_of_eq_none.mpr none] at was
      cases was
    cases (operative_turn.lookup request_id).bind fun turn_id =>
        last_on_turn (recorded_verdicts events state) turn_id gate with
    | some status => simp [recorded]
    | none =>
      simp only [Option.getD_none, ← was, worst_of_eq_pass]

/-! ### A green ledger -/

theorem add_blockers_nil (passes : String → Bool) (gates blockers : List String) :
    gates.foldl (fun blockers gate => if passes gate = false ∧ gate ∉ blockers then blockers ++ [gate] else blockers)
      blockers = [] ↔ blockers = [] ∧ ∀ gate ∈ gates, passes gate = true := by
  induction gates generalizing blockers with
  | nil => simp
  | cons gate rest ih =>
    rw [List.foldl_cons, ih]
    by_cases blocked : passes gate = false ∧ gate ∉ blockers
    · simp [blocked]
    · rw [if_neg blocked]
      simp only [List.mem_cons, forall_eq_or_imp]
      constructor
      · rintro ⟨empty, rest⟩
        refine ⟨empty, ?_, rest⟩
        simpa [empty] using blocked
      · rintro ⟨empty, -, rest⟩
        exact ⟨empty, rest⟩

theorem ledger_blockers_nil {gates : List (RequestId × GateRow)} {decisions attestation citation : GateStatus}
    {blocking : List String} :
    ledger_blockers gates decisions attestation citation blocking = [] ↔
      (decisions = .pass ∧ attestation = .pass ∧ citation = .pass) ∧
        ∀ entry ∈ gates, ∀ gate ∈ blocking, (entry.2.turn_gates.lookup gate).getD .pending = .pass := by
  have rows (blockers : List String) :
      gates.foldl (fun blockers entry => blocking.foldl (fun blockers gate =>
        if ((entry.2.turn_gates.lookup gate).getD .pending).blocks ∧ gate ∉ blockers then blockers ++ [gate]
        else blockers) blockers) blockers = [] ↔
      blockers = [] ∧ ∀ entry ∈ gates, ∀ gate ∈ blocking, (entry.2.turn_gates.lookup gate).getD .pending = .pass := by
    induction gates generalizing blockers with
    | nil => simp
    | cons entry rest ih =>
      have row := add_blockers_nil
        (fun gate => decide ((entry.2.turn_gates.lookup gate).getD .pending = .pass)) blocking blockers
      simp only [decide_eq_false_iff_not, decide_eq_true_eq] at row
      simp only [GateStatus.blocks, decide_not, Bool.not_eq_true', decide_eq_false_iff_not] at ih ⊢
      rw [List.foldl_cons, ih, row]
      simp [and_assoc]
  rw [ledger_blockers, rows]
  refine and_congr_left fun _ => ?_
  cases decisions <;> cases attestation <;> cases citation <;> decide

theorem lookup_map_self {β : Type} {gates : List String} {f : String → β} {gate : String} (mem : gate ∈ gates) :
    (gates.map fun gate => (gate, f gate)).lookup gate = some (f gate) := by
  induction gates with
  | nil => cases mem
  | cons first rest ih =>
    by_cases same : gate = first
    · subst same
      simp
    · have other : (gate == first) = false := by simpa using same
      simp only [List.map_cons, List.lookup_cons, other]
      exact ih ((List.mem_cons.mp mem).resolve_left same)

/-- No decision blocks when none is open and the drafts establish what each closed one selected. -/
theorem blocking_decisions_nil {decisions : List Decision} {drafts : List (RequestId × Option DraftOutput)} :
    blocking_decisions decisions (decision_revision_requirements decisions drafts) = [] ↔
      ∀ d ∈ decisions, d.status ≠ .open ∧ outcome_established d drafts = true := by
  simp only [blocking_decisions, List.filter_eq_nil_iff, decide_eq_true_eq, not_or]
  refine ⟨fun unblocked d mem => ⟨(unblocked d mem).1, ?_⟩, fun settled d mem => ⟨(settled d mem).1, ?_⟩⟩
  · by_contra unestablished
    refine (unblocked d mem).2 ?_
    simp only [decision_revision_requirements, List.map_map, List.mem_map, List.mem_filter]
    exact ⟨d, ⟨mem, by simp [(unblocked d mem).1, unestablished]⟩, rfl⟩
  · have unrevised : decision_revision_requirements decisions drafts = [] := by
      simp only [decision_revision_requirements, List.map_eq_nil_iff, List.filter_eq_nil_iff]
      intro d mem
      simp [(settled d mem).2]
    simp [unrevised]

/-- What a clean export may be made of: every unit passes every configured blocking gate, every decision
    is settled and established by the operative drafts, the last citation verdict passes, and the
    attestation is valid. -/
structure Exportable (t : Publishing) (v : Vault) (context : RunContext) : Prop where
  gates : ∀ unit ∈ context.task_units, ∀ gate ∈ blocking_turn_gates context,
    GatePasses (recorded_verdicts v.journal v.state)
      ((operative_draft_turn_ids context v.state).lookup unit.request_id) unit.request_id gate
  decisions : ∃ drafts, drafts_by_request context v.state = .ok drafts ∧
    ∀ d ∈ (folded_decisions v.decisions).values, d.status ≠ .open ∧ outcome_established d drafts = true
  citations : (citation_verdicts v.journal).getLast? = some .pass
  attestation : ∃ check, attestation_state t v = .ok check ∧ check.status = .valid

/-- The ledger is green exactly for such a vault. -/
theorem export_ready_iff (loaded : v.run_context = .ok context) (built : build_ledger t v = .ok doc) :
    doc.export_ready = true ↔ Exportable t v context := by
  simp only [build_ledger, loaded, bind, Except.bind, pure, Except.pure] at built
  cases drafted : drafts_by_request context v.state with
  | error e => rw [drafted] at built; cases built
  | ok drafts =>
    rw [drafted] at built
    dsimp only at built
    cases attested : attestation_state t v with
    | error e => rw [attested] at built; cases built
    | ok check =>
      rw [attested] at built
      cases built
      have folds := turn_gate_fold_folds v.journal v.state
      have cited : (turn_gate_fold v.journal v.state).citation_status = .pass ↔
          (citation_verdicts v.journal).getLast? = some .pass := by
        rw [folds.citation]
        cases (citation_verdicts v.journal).getLast? <;> simp
      have settled : (if blocking_decisions (folded_decisions v.decisions).values (decision_revision_requirements
          (folded_decisions v.decisions).values drafts) = [] then GateStatus.pass else .fail) = .pass ↔
            ∀ d ∈ (folded_decisions v.decisions).values, d.status ≠ .open ∧ outcome_established d drafts = true := by
        rw [← blocking_decisions_nil]
        split <;> simp_all
      have valid : check.status.gate = .pass ↔ check.status = .valid := by
        cases check.status <;> simp [AttestationCheckStatus.gate]
      have verdict (unit : TaskUnit) {gate : String} (blocking : gate ∈ blocking_turn_gates context) :
          (((configured_turn_gates context).map fun gate => (gate, ((turn_gate_fold v.journal v.state).verdict
            (operative_draft_turn_ids context v.state) unit.request_id gate).getD .pending)).lookup gate).getD .pending =
              .pass ↔ GatePasses (recorded_verdicts v.journal v.state)
                ((operative_draft_turn_ids context v.state).lookup unit.request_id) unit.request_id gate := by
        have configured : gate ∈ configured_turn_gates context := by
          simpa using (List.mem_filter.mp blocking).2
        rw [lookup_map_self configured, ← verdict_eq_pass]
        cases (turn_gate_fold v.journal v.state).verdict (operative_draft_turn_ids context v.state) unit.request_id
          gate <;> simp
      simp only [decide_eq_true_eq, ledger_blockers_nil, cited, settled, valid, List.forall_mem_map]
      refine ⟨?_, fun h => ⟨⟨?_, ?_, h.citations⟩, ?_⟩⟩
      · rintro ⟨⟨settled, valid, cited⟩, gates⟩
        exact ⟨fun unit mem gate blocking => (verdict unit blocking).mp (gates unit mem gate blocking),
          ⟨drafts, drafted, settled⟩, cited, ⟨check, attested, valid⟩⟩
      · obtain ⟨drafts', same, settled⟩ := h.decisions
        rw [drafted] at same
        cases same
        exact settled
      · obtain ⟨check', same, valid⟩ := h.attestation
        rw [attested] at same
        cases same
        exact valid
      · exact fun unit mem gate blocking => (verdict unit blocking).mpr (h.gates unit mem gate blocking)

end MootLoop
