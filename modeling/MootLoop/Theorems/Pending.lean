import MootLoop.Theorems.Ledger
import MootLoop.Theorems.Runs

/-! A pending fabrication verdict and the citation gate. The ledger folds the two apart: verifying the
    citations of a draft turns the citation verdict to a pass, and leaves the draft's own verdict pending. -/

namespace MootLoop
open Durable

variable {t : Publishing} {v : Vault} {context : RunContext}

/-! ### The verdict on the operative draft -/

/-- The last verdict of a gate for a request on its operative draft. -/
def operative_verdict (verdicts : List RecordedVerdict) (operative : Option TurnId) (request_id : RequestId)
    (gate : String) : Option GateStatus :=
  operative.bind fun turn_id =>
    ((verdicts.filter fun r => r.request_id = request_id ∧ r.turn_id = turn_id ∧ r.gate = gate).getLast?).map (·.status)

theorem recorded_verdict_request {state : RunState} {event : JournalEvent} {r : RecordedVerdict}
    (h : recorded_verdict state event = some r) :
    (state.completed_turns.get? r.turn_id).bind (·.spec.request_id) = some r.request_id := by
  unfold recorded_verdict at h
  split at h
  · split at h
    · cases h
    · obtain ⟨request_id, owner, rfl⟩ := Option.map_eq_some_iff.mp h
      exact owner
  · cases h

/-- Verdicts on one turn are for one request. -/
theorem recorded_request_unique {events : List JournalEvent} {state : RunState} {r r' : RecordedVerdict}
    (h : r ∈ recorded_verdicts events state) (h' : r' ∈ recorded_verdicts events state) (same : r'.turn_id = r.turn_id) :
    r'.request_id = r.request_id := by
  obtain ⟨event, -, recorded⟩ := List.mem_filterMap.mp h
  obtain ⟨event', -, recorded'⟩ := List.mem_filterMap.mp h'
  have owner := recorded_verdict_request recorded
  have owner' := recorded_verdict_request recorded'
  rw [same, owner] at owner'
  exact (Option.some.inj owner').symm

/-- Where the operative draft has a verdict of the request, that verdict decides the gate. -/
theorem gate_passes_of_operative {events : List JournalEvent} {state : RunState} {operative : Option TurnId}
    {request_id : RequestId} {gate : String} {status : GateStatus}
    (h : operative_verdict (recorded_verdicts events state) operative request_id gate = some status) :
    GatePasses (recorded_verdicts events state) operative request_id gate ↔ status = .pass := by
  obtain ⟨turn_id, rfl, found⟩ := Option.bind_eq_some_iff.mp h
  obtain ⟨r, last, rfl⟩ := Option.map_eq_some_iff.mp found
  obtain ⟨recorded, owned⟩ := List.mem_filter.mp (List.mem_of_getLast? last)
  obtain ⟨rfl, rfl, rfl⟩ : r.request_id = request_id ∧ r.turn_id = turn_id ∧ r.gate = gate := by simpa using owned
  have on_turn : last_on_turn (recorded_verdicts events state) r.turn_id r.gate = some r.status := by
    have same : (recorded_verdicts events state).filter (fun q => q.turn_id = r.turn_id ∧ q.gate = r.gate) =
        (recorded_verdicts events state).filter
          (fun q => q.request_id = r.request_id ∧ q.turn_id = r.turn_id ∧ q.gate = r.gate) := by
      refine List.filter_congr fun q mem => ?_
      simp only [decide_eq_decide]
      exact ⟨fun h => ⟨recorded_request_unique recorded mem h.1, h⟩, fun h => h.2⟩
    rw [last_on_turn, same, last]
    rfl
  have counted : for_request (recorded_verdicts events state) r.request_id r.gate ≠ [] := by
    intro none
    have absent := List.filter_eq_nil_iff.mp (List.map_eq_nil_iff.mp none) r recorded
    simp at absent
  simp [GatePasses, on_turn, counted]

/-! ### Cleared of failures -/

/-- Nothing fails: each unit has an operative draft whose last fabrication verdict is a pass or pending,
    every other gate passes, every decision is settled, and the attestation is valid. -/
structure Cleared (t : Publishing) (v : Vault) (context : RunContext) : Prop where
  fabrication : "fabrication" ∈ context.config.gates → ∀ unit ∈ context.task_units, ∃ status,
    operative_verdict (recorded_verdicts v.journal v.state)
      ((operative_draft_turn_ids context v.state).lookup unit.request_id) unit.request_id "fabrication" = some status ∧
    status ≠ .fail
  rubric : "rubric" ∈ context.config.gates → ∀ unit ∈ context.task_units,
    GatePasses (recorded_verdicts v.journal v.state)
      ((operative_draft_turn_ids context v.state).lookup unit.request_id) unit.request_id "rubric"
  decisions : ∃ drafts, drafts_by_request context v.state = .ok drafts ∧
    ∀ d ∈ (folded_decisions v.decisions).values, d.status ≠ .open ∧ outcome_established d drafts = true
  citations : (citation_verdicts v.journal).getLast? = some .pass
  attestation : ∃ check, attestation_state t v = .ok check ∧ check.status = .valid

instance decidable_ok {ε α : Type} {P : α → Prop} [DecidablePred P] : (r : Except ε α) → Decidable (∃ a, r = .ok a ∧ P a)
  | .error _ => isFalse (by simp)
  | .ok a => decidable_of_iff (P a) (by simp)

instance decidable_gate_passes {verdicts : List RecordedVerdict} {operative : Option TurnId} {request_id : RequestId}
    {gate : String} : Decidable (GatePasses verdicts operative request_id gate) :=
  @instDecidableAnd _ _ inferInstance <|
    match operative.bind fun turn_id => last_on_turn verdicts turn_id gate with
    | some status => inferInstanceAs (Decidable (status = .pass))
    | none => inferInstanceAs (Decidable (∀ status ∈ for_request verdicts request_id gate, status = .pass))

instance decidable_some {α : Type} {P : α → Prop} [DecidablePred P] : (o : Option α) → Decidable (∃ a, o = some a ∧ P a)
  | none => isFalse (by simp)
  | some a => decidable_of_iff (P a) (by simp)

instance decidable_cleared : Decidable (Cleared t v context) :=
  decidable_of_iff (_ ∧ _ ∧ _ ∧ _ ∧ _)
    ⟨fun ⟨a, b, c, d, e⟩ => ⟨a, b, c, d, e⟩, fun ⟨a, b, c, d, e⟩ => ⟨a, b, c, d, e⟩⟩

theorem mem_blocking_turn_gates {gate : String} :
    gate ∈ blocking_turn_gates context ↔ (gate = "fabrication" ∨ gate = "rubric") ∧ gate ∈ context.config.gates := by
  simp only [blocking_turn_gates, configured_turn_gates, BLOCKING_TURN_GATES, LEDGER_TURN_GATES, List.mem_filter,
    List.mem_cons, List.not_mem_nil, or_false, decide_eq_true_eq]
  constructor
  · rintro ⟨named, -, configured⟩
    exact ⟨named, configured⟩
  · rintro ⟨named, configured⟩
    exact ⟨named, .inr (.inr named), configured⟩

/-- The ledger is built whenever what it reads can be read. -/
theorem build_ledger_ok (loaded : v.run_context = .ok context) {drafts : List (RequestId × Option DraftOutput)}
    (drafted : drafts_by_request context v.state = .ok drafts) {check : AttestationCheck}
    (attested : attestation_state t v = .ok check) : ∃ doc, build_ledger t v = .ok doc := by
  simp only [build_ledger, loaded, drafted, attested, bind, Except.bind, pure, Except.pure]
  exact ⟨_, rfl⟩

/-- With nothing failing, the ledger is green exactly when no operative draft's fabrication verdict is
    pending. -/
theorem pending_fabrication_blocks (loaded : v.run_context = .ok context) (cleared : Cleared t v context) :
    ∃ doc, build_ledger t v = .ok doc ∧
      (doc.export_ready = true ↔ ("fabrication" ∈ context.config.gates → ∀ unit ∈ context.task_units,
        operative_verdict (recorded_verdicts v.journal v.state)
          ((operative_draft_turn_ids context v.state).lookup unit.request_id) unit.request_id "fabrication" =
            some .pass)) := by
  obtain ⟨drafts, drafted, settled⟩ := cleared.decisions
  obtain ⟨check, attested, valid⟩ := cleared.attestation
  obtain ⟨doc, built⟩ := build_ledger_ok loaded drafted attested
  refine ⟨doc, built, ?_⟩
  rw [export_ready_iff loaded built]
  constructor
  · intro exportable configured unit mem
    obtain ⟨status, last, -⟩ := cleared.fabrication configured unit mem
    have passes := exportable.gates unit mem "fabrication" (mem_blocking_turn_gates.mpr ⟨.inl rfl, configured⟩)
    rw [last, (gate_passes_of_operative last).mp passes]
  · intro passing
    refine ⟨fun unit mem gate blocking => ?_, ⟨drafts, drafted, settled⟩, cleared.citations, ⟨check, attested, valid⟩⟩
    obtain ⟨rfl | rfl, configured⟩ := mem_blocking_turn_gates.mp blocking
    · exact (gate_passes_of_operative (passing configured unit mem)).mpr rfl
    · exact cleared.rubric configured unit mem

namespace Sample

def CITE : String := "410 U.S. 113"

def CITING : String := "\x7b\"response_text\":\"Denied.\",\"candidate_citations\":[\"410 U.S. 113\"],\"attorney_gate_items\":[\"dates\"],\"self_assessment\":\"ok\"\x7d"

/-- A draft that cites authority for its denial. -/
def citing : DraftOutput := { draft with candidate_citations := [CITE] }

def ANSWERING : String := "\x7b\"response_text\":\"410 U.S. 113\",\"attorney_gate_items\":[\"dates\"],\"self_assessment\":\"ok\"\x7d"

/-- A draft that cites authority in its answer. -/
def answering : DraftOutput := { draft with response_text := CITE }

def OBJECTING : String := "\x7b\"response_text\":\"Denied.\",\"objections\":[\x7b\"basis\":\"scope\",\"text\":\"410 U.S. 113\"\x7d],\"attorney_gate_items\":[\"dates\"],\"self_assessment\":\"ok\"\x7d"

/-- A draft that cites authority in its objection. -/
def objecting : DraftOutput := { draft with objections := [{ basis := "scope", text := CITE }] }

/-- These are valid drafts too, and `CITE` is a case. -/
def citing_externals : Externals :=
  { externals with
    model_validate_json := fun schema raw =>
      match [(CITING, citing), (ANSWERING, answering), (OBJECTING, objecting)].lookup raw with
      | some output => if schema = .draft then .ok (.draft output) else .error [("", "Invalid JSON")]
      | none => externals.model_validate_json schema raw
    find_citations := fun text =>
      if text = CITE then [{ raw_text := CITE, normalized := CITE, authority_type := .case, start := 0, stop := 12 }]
      else [] }

/-- Digests that tell apart the evidence of one run: texts by themselves, logs by their lengths. -/
def digest : Evidence → Digest
  | .bytes text => "bytes:" ++ text
  | .matter matter => "matter:" ++ matter.state
  | .master canonical matter => "master:" ++ canonical ++ matter
  | .ledger records => "ledger:" ++ pad4 records.length
  | .journal events bodies => "journal:" ++ pad4 events.length ++ pad4 bodies.length
  | .decisions records => "decisions:" ++ pad4 records.length
  | .facts facts => "facts:" ++ pad4 facts.length
  | .attestation record => "attestation:" ++ record.attestation_id ++ record.master_sha256 ++ record.attested_at
  | .artifacts artifacts => "artifacts:" ++ "".intercalate (artifacts.map fun artifact => artifact.path ++ artifact.sha256)
  | .audit_entry entry => "audit:" ++ entry.prev_hash ++ entry.ts ++ entry.action

def hashing : Publishing := { publishing with digest }

/-- One interrogatory. -/
def single : RunContext :=
  { Sample.context none with
    request_sets := [{ request_type := .interrogatory, set_number := 1, title := "First Interrogatories",
                       items := [{ request_id := "ROG-1", number := 1, text := "Where?" }] }]
    request_identity := by constructor <;> decide }

/-- A curated record of the citation. -/
def confirmed (citation : Citation) : VerificationRecord where
  citation_id := citation.citation_id
  status := .verified
  source := .curated
  verified_at := "2026-01-05"

def verify : Act := .command (.verify_citations "2026-01-05" confirmed 30)

/-- The attorney waives objections and attests each assertion of a single draft. -/
def settle_decisions : List Act :=
  [.command (.resolve "dec-r-0000" .approve none "" "A. Jones" "cli" "2026-01-05"),
   .command (.resolve "dec-r-0001" .modify (some "attest_anyway") "" "A. Jones" "cli" "2026-01-05")]

/-- The attorney writes the master by hand and attests it. -/
def review : List Act :=
  [.command (.edit_deliverable MASTER_PATH "Denied."), .command (.attest "A. Jones" "2026-01-05")]

/-- A citing draft is recorded, verified, decided, reviewed and attested. -/
def cite_and_review : List Act :=
  [.command (.start_run "d" single), .command (.record_turn "r-t0000" CITING none "2026-01-05" none), verify] ++
    settle_decisions ++ review

/-- The same with a draft that cites nothing. -/
def answer_and_review : List Act :=
  [.command (.start_run "d" single), drafted "r-t0000", verify] ++ settle_decisions ++ review

theorem answer_and_review_cleared : (desk.acts citing_externals hashing 3 answer_and_review).any (fun r =>
    decide (∃ context, r.2.vault.run_context = .ok context ∧ Cleared hashing r.2.vault context ∧
      ("fabrication" ∈ context.config.gates → ∀ unit ∈ context.task_units,
        operative_verdict (recorded_verdicts r.2.vault.journal r.2.vault.state)
          ((operative_draft_turn_ids context r.2.vault.state).lookup unit.request_id) unit.request_id "fabrication" =
            some .pass))) = true := by decide +kernel

/-- With no citation in it, the reviewed draft can be exported. -/
theorem pending_fabrication_blocks_uncited :
    ∃ trace s context, Reachable citing_externals hashing 3 trace s ∧ s.vault.run_context = .ok context ∧
      Cleared hashing s.vault context ∧ ∃ doc, build_ledger hashing s.vault = .ok doc ∧ doc.export_ready = true := by
  obtain ⟨⟨labels, d⟩, ran, checked⟩ := (Option.any_eq_true _ _).mp answer_and_review_cleared
  obtain ⟨context, loaded, cleared, passing⟩ := of_decide_eq_true checked
  obtain ⟨doc, built, ready⟩ := pending_fabrication_blocks loaded cleared
  exact ⟨_, _, context, Desk.reachable_of_acts ran, loaded, cleared, doc, built, ready.mpr passing⟩

theorem cite_and_review_cleared : (desk.acts citing_externals hashing 3 cite_and_review).any (fun r =>
    decide ((∃ context, r.2.vault.run_context = .ok context ∧ Cleared hashing r.2.vault context) ∧
      ∃ doc, build_ledger hashing r.2.vault = .ok doc ∧ doc.export_ready = false ∧ doc.blockers = ["fabrication"])) =
        true := by decide +kernel

/-- A citing draft is blocked by its fabrication verdict though its authority is verified. -/
theorem verified_citation_stays_pending :
    ∃ trace s context, Reachable citing_externals hashing 3 trace s ∧ s.vault.run_context = .ok context ∧
      Cleared hashing s.vault context ∧
      ∃ doc, build_ledger hashing s.vault = .ok doc ∧ doc.export_ready = false ∧ doc.blockers = ["fabrication"] := by
  obtain ⟨⟨labels, d⟩, ran, checked⟩ := (Option.any_eq_true _ _).mp cite_and_review_cleared
  obtain ⟨⟨context, loaded, cleared⟩, blocked⟩ := of_decide_eq_true checked
  exact ⟨_, _, context, Desk.reachable_of_acts ran, loaded, cleared, blocked⟩

end Sample

end MootLoop
