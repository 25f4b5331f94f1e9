import MootLoop.CitationGates

/-! Cite-checker turns of a completed run: the evidence bundles, the check of one bundle under the run
    lock, and the two verdicts journaled at the end. -/

namespace MootLoop
open Durable

variable (x : Externals)

/-- The checks prepared for a run. -/
structure PreparedPropositionChecks where
  propositions : List CitationProposition := []
  bundles : List PropositionEvidenceBundle := []
  unresolved : List CitationProposition := []
  deriving DecidableEq, Repr

/-- What the public authority sources answer: the opinion text of a case, by digest, and the passages
    selected from it for a proposition. -/
structure AuthorityLookup where
  fetch_case_authority : CitationId → Option Digest
  select_passages : Digest → CitationProposition → List String

/-- Fails closed unless drafting is complete. -/
def require_completed_draft_set : VaultM RunContext := do
  let context ← load_run_context
  let state ← load_state
  if state.status ≠ .finished ∧ state.status ≠ .needs_decisions then
    throw (.citation s!"citation proposition checks require a completed draft set; '{context.run_id}' is {state.status.value}")
  else return context

/-- The evidence bundle of a proposition whose citation is a verified case with a source. -/
def evidence_bundle (context : RunContext) (v : Vault) (now : Instant) (lookup : AuthorityLookup)
    (proposition : CitationProposition) : Option PropositionEvidenceBundle := do
  let record ← folded_record x v.verifications now DEFAULT_MAX_CACHE_AGE_DAYS proposition.citation_id
  if record.status = .verified ∧ record.source = .courtlistener ∧ record.source_url.isSome then
    let authority_sha256 ← lookup.fetch_case_authority proposition.citation_id
    some { run_id := context.run_id, proposition, authority_sha256,
           passage_ids := lookup.select_passages authority_sha256 proposition }
  else none

/-- `prepare_run_proposition_checks`, and the cite-checker body its bundles need. -/
def prepare_run_proposition_checks (now : String) (lookup : AuthorityLookup) : VaultM PreparedPropositionChecks := do
  let context ← require_completed_draft_set
  let v ← Prog.read
  let propositions ← Prog.lift (operative_citation_propositions x context v.state)
  let instant ← Prog.lift (instant_of x now)
  let bundle := evidence_bundle x context v instant lookup
  let bundles := propositions.filterMap bundle
  if context.persona_bodies.lookup .cite_checker = none ∧ bundles ≠ [] then
    throw (.citation "run context does not contain a snapshotted cite-checker body")
  else
    return { propositions, bundles, unresolved := propositions.filter fun p => (bundle p).isNone }

/-- The stable cite-checker turn of a bundle. -/
def build_check_spec (context : RunContext) (bundle : PropositionEvidenceBundle) : TurnSpec where
  turn_id := context.run_id ++ "-cite-" ++ String.ofList (bundle.proposition.proposition_id.toList.drop 5)
  run_id := context.run_id
  persona := .cite_checker
  stage := .citation_proposition
  prompt_context :=
    { directive := "Determine whether the attributed proposition is supported by the supplied authority passages. Do not use outside knowledge. Cite only supplied passage IDs."
      check := some { proposition_id := bundle.proposition.proposition_id,
                      authority_sha256 := bundle.authority_sha256, passage_ids := bundle.passage_ids } }
  output_schema_name := .cite_check
  model := context.tier_models.lookup PersonaName.cite_checker.role

/-- What becomes of a bundle before its provider call. -/
inductive CheckOpened where
  | recorded
  | capped
  | call (spec : TurnSpec)
  deriving DecidableEq, Repr

/-- Validates an untrusted check result without writing. -/
def validate_check_result (bundle : PropositionEvidenceBundle) (raw_text checked_at : String) :
    Except Error (CiteCheckOutput × PropositionVerificationRecord) :=
  match x.model_validate_json .cite_check raw_text with
  | .ok (.cite_check output) => return (output, ← check_record bundle output checked_at)
  | .ok _ => .error (.citation "cite-checker output is invalid: 1 error(s)")
  | .error errors => .error (.citation s!"cite-checker output is invalid: {errors.length} error(s)")

/-- Appends a check's verdict to the proposition ledger, unless the exact check has one. -/
def append_verdict (record : PropositionVerificationRecord) : VaultM Unit := do
  match proposition_record (← Prog.read).propositions record.run_id record.proposition_id
      record.source_text_sha256 record.authority_sha256 with
  | some _ => return ()
  | none => Prog.write (.proposition record)

/-- Recovers the verdict of a check whose turn is completed. -/
def recover_verdict (bundle : PropositionEvidenceBundle) (now : String) (completed : TurnRecord) : VaultM Unit :=
  match completed.output with
  | .cite_check output => do append_verdict (← Prog.lift (check_record bundle output now))
  | _ => throw (.validation "CiteCheckOutput")

/-- `_record_completed_check` of a fresh result: validates it, completes its turn and books its spend,
    then records the verdict. -/
def record_completed_check (context : RunContext) (bundle : PropositionEvidenceBundle) (result : RawTurnResult)
    (now : String) : VaultM Unit := do
  let (output, verdict) ← Prog.lift (validate_check_result x bundle result.text now)
  let spec := build_check_spec context bundle
  Prog.when (¬(← load_state).is_completed spec.turn_id) do
    let record ← write_turn_body { spec, output := .cite_check output, completed_at := now }
    book_spend x spec.turn_id result.usage spec.model now true result.provider_call_id
    append (.turn_completed record)
  append_verdict verdict

/-- Opens the check of a bundle under the run lock: nothing to do when its verdict is recorded, its
    verdict recovered when its turn is completed, refused when the run is over its cap, and otherwise
    the provider call, its spend reserved. -/
def open_check (free : Bool) (bundle : PropositionEvidenceBundle) (now : String) : VaultM CheckOpened := do
  let context ← load_run_context
  let v ← Prog.read
  let spec := build_check_spec context bundle
  let ledgered := proposition_record v.propositions bundle.run_id bundle.proposition.proposition_id
    bundle.proposition.source_text_sha256 bundle.authority_sha256
  if ledgered.isSome then return .recorded
  else
    match v.state.completed_turns.get? spec.turn_id with
    | some completed => do
      recover_verdict bundle now completed
      return .recorded
    | none =>
      with_lock free do
        let state ← load_state
        if over_cap state context then return .capped
        else do
          Prog.when (¬state.pending_intents.contains spec.turn_id) do
            let model := match spec.model with | none | some "" => "claude" | some model => model
            let on ← Prog.lift (date_of x now)
            append (.turn_intent { turn_id := spec.turn_id, model, max_plausible_usd := max_plausible_cost model on })
          return .call spec

/-- The turn id the proposition verdict is journaled under: it names the proposition set. -/
def propositions_turn_id (run_id : RunId) (propositions : List CitationProposition) : TurnId :=
  let ids := (propositions.map (·.proposition_id)).insertionSort (· ≤ ·)
  run_id ++ "-citation-propositions-" ++ String.ofList ((x.sha256 ("\n".intercalate ids)).toList.take 12)

/-- The end of `run_proposition_checks`: journals the proposition verdict and the combined citation
    verdict, under no lock. -/
def close_checks (prepared : PreparedPropositionChecks) (unresolved : List CitationProposition) (now : String) :
    VaultM Unit := do
  let context ← load_run_context
  append (.gate_evaluated (propositions_turn_id x context.run_id prepared.propositions)
    (proposition_gate (← Prog.read).propositions prepared.bundles unresolved))
  let combined ← Prog.lift (citation_export_gate x (← Prog.read) now DEFAULT_MAX_CACHE_AGE_DAYS)
  append (.gate_evaluated (citations_turn_id context.run_id) combined)

end MootLoop
