import MootLoop.Commands

/-! The citations of the operative drafts, their verification, and the two gates over them: the
    journaled verdict and the one recomputed for export. -/

namespace MootLoop
open Durable

variable (x : Externals)

def DEFAULT_MAX_CACHE_AGE_DAYS : Nat := 30

/-- Each unit with its operative draft's record. -/
def operative_draft_records (context : RunContext) (state : RunState) : List (TaskUnit × Option TurnRecord) :=
  (read_contexts context state).map fun ctx => (ctx.request, ctx.operative_draft)

/-- The request id and turn id of each operative draft. -/
def operative_draft_turn_ids (context : RunContext) (state : RunState) : List (RequestId × TurnId) :=
  (operative_draft_records context state).filterMap fun (unit, record) =>
    record.map fun record => (unit.request_id, record.spec.turn_id)

/-- Each unit with its operative draft. -/
def operative_drafts (context : RunContext) (state : RunState) :
    Except Error (List (TaskUnit × Option (TurnId × DraftOutput))) :=
  (operative_draft_records context state).mapM fun (unit, record) => do
    match record with
    | none => return (unit, none)
    | some record => return (unit, some (record.spec.turn_id, ← record.output.as_draft))

/-- The texts of a draft whose citations the citation gate checks. -/
def cited_texts (draft : DraftOutput) : List String := draft.response_text :: draft.candidate_citations

/-- The values of a list, once per key, the first one kept. -/
def first_by {α κ : Type} [DecidableEq κ] (key : α → κ) (items : List α) : List α :=
  (items.foldl (fun (found : Dict κ α) item => found.setDefault (key item) item) ∅).values

/-- Every distinct citation of the operative drafts. -/
def operative_citations (context : RunContext) (state : RunState) : Except Error (List Citation) := do
  let drafts ← operative_drafts context state
  return first_by (·.citation_id) (drafts.flatMap fun entry =>
    match entry.2 with
    | none => []
    | some (turn_id, draft) => (cited_texts draft).flatMap fun text => extract_citations x text (some turn_id))

/-- Every citation occurrence of the operative response texts, with its proposition. -/
def operative_citation_propositions (context : RunContext) (state : RunState) :
    Except Error (List CitationProposition) := do
  let drafts ← operative_drafts context state
  return first_by (·.proposition_id) (drafts.flatMap fun entry =>
    match entry.2 with
    | none => []
    | some (turn_id, draft) => extract_citation_propositions x draft.response_text (some turn_id))

/-! ### Verification -/

/-- The folded status of a citation, pending when it has no record. -/
def citation_status (records : List VerificationRecord) (now : Instant) (max_cache_age_days : Nat)
    (citation_id : CitationId) : VerificationStatus :=
  ((folded_record x records now max_cache_age_days citation_id).map (·.status)).getD .pending

def citation_finding (citation : Citation) (status : VerificationStatus) : GateFinding where
  code := s!"citation_{status.value}"
  message := s!"'{citation.raw_text}' is {status.value}"
  locator := some citation.citation_id

/-- The statuses that fail the citation gate rather than leave it pending. -/
def VerificationStatus.fails (status : VerificationStatus) : Bool :=
  status = .invalid ∨ status = .unconfirmed ∨ status = .ambiguous

/-- `verify.citation_gate`: passes only when every citation is verified. -/
def citation_gate (records : List VerificationRecord) (citations : List Citation) (now : Instant)
    (max_cache_age_days : Nat) : GateResult :=
  let checked := citations.map fun c => (c, citation_status x records now max_cache_age_days c.citation_id)
  let blocked := checked.filter (·.2 ≠ .verified)
  gate_of_findings "citation"
    ((blocked.filter (·.2.fails)).map fun entry => citation_finding entry.1 entry.2)
    ((blocked.filter (!·.2.fails)).map fun entry => citation_finding entry.1 entry.2)

/-- Parses the injected timestamp. -/
def instant_of (now : String) : Except Error Instant :=
  match x.fromisoformat now with
  | some instant => .ok instant
  | none => .error (.value s!"Invalid isoformat string: '{now}'")

/-- `verify_all`: a record for each citation without a settled one. `outcome` is what the curated
    tier, the sources and the research queue say of a citation; source lookups are recorded last. -/
def verify_all (citations : List Citation) (now : Instant) (max_cache_age_days : Nat)
    (outcome : Citation → VerificationRecord) : VaultM Unit := do
  let records := (← Prog.read).verifications
  let unsettled := (first_by (·.citation_id) citations).filter fun c =>
    citation_status x records now max_cache_age_days c.citation_id = .pending
  let found := unsettled.map fun c => { outcome c with citation_id := c.citation_id }
  Prog.forEach (found.filter (·.source ≠ .courtlistener) ++ found.filter (·.source = .courtlistener))
    fun record => Prog.write (.verification record)

/-- The turn id the run-level citation verdicts are journaled under. -/
def citations_turn_id (run_id : RunId) : TurnId := run_id ++ "-citations"

/-- `verify_run_citations`: verifies the operative citations and journals the existence verdict. It
    takes no run lock. -/
def verify_run_citations (now : String) (outcome : Citation → VerificationRecord)
    (max_cache_age_days : Nat) : VaultM Unit := do
  let context ← load_run_context
  let citations ← Prog.lift (operative_citations x context (← load_state))
  let instant ← Prog.lift (instant_of x now)
  verify_all x citations instant max_cache_age_days outcome
  append (.gate_evaluated (citations_turn_id context.run_id)
    (citation_gate x (← Prog.read).verifications citations instant max_cache_age_days))

/-! ### The export gate -/

/-- Combines an existence verdict with a support verdict. -/
def combine_citation_gates (existence support : GateResult) : GateResult :=
  let findings := existence.findings ++ support.findings
  let status :=
    if existence.status = .fail ∨ support.status = .fail then .fail
    else if existence.status = .pending ∨ support.status = .pending then .pending
    else .pass
  { gate := "citation", status, findings }

/-- Whether the citation is verified as a case, whose propositions need support. -/
def verified_case (records : List VerificationRecord) (now : Instant) (max_cache_age_days : Nat)
    (citation_id : CitationId) : Bool :=
  (folded_record x records now max_cache_age_days citation_id).any fun record =>
    record.status = .verified ∧ record.source = .courtlistener

/-- `citation_export_gate` over what it reads: the operative drafts and the two ledgers. -/
def citation_export_verdict (context : RunContext) (v : Vault) (now : Instant) (max_cache_age_days : Nat) :
    Except Error GateResult := do
  let citations ← operative_citations x context v.state
  let existence := citation_gate x v.verifications citations now max_cache_age_days
  let propositions ← operative_citation_propositions x context v.state
  let case_propositions := propositions.filter fun p =>
    verified_case x v.verifications now max_cache_age_days p.citation_id
  return combine_citation_gates existence (proposition_export_gate v.propositions context.run_id case_propositions)

/-- `citation_export_gate`: reads the ledgers, with no lookup, and blocks unless every operative
    citation is verified and every case proposition supported. -/
def citation_export_gate (v : Vault) (now : String) (max_cache_age_days : Nat) : Except Error GateResult := do
  citation_export_verdict x (← v.run_context) v (← instant_of x now) max_cache_age_days

end MootLoop
