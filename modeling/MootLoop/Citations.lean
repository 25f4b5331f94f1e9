import MootLoop.Externals

/-! Citation vocabulary, the two append-only verification ledgers and their folds, and the
    proposition gates. -/

namespace MootLoop

inductive VerificationStatus where
  | verified
  | unconfirmed
  | invalid
  | ambiguous
  | pending
  | needs_research
  deriving DecidableEq, Repr

def VerificationStatus.value : VerificationStatus → String
  | .verified => "verified"
  | .unconfirmed => "unconfirmed"
  | .invalid => "invalid"
  | .ambiguous => "ambiguous"
  | .pending => "pending"
  | .needs_research => "needs_research"

inductive VerificationSource where
  | courtlistener
  | mn_revisor
  | curated
  | manual
  deriving DecidableEq, Repr

structure Citation where
  citation_id : CitationId
  raw_text : String
  normalized : String
  authority_type : AuthorityType
  source_turn_id : Option TurnId := none
  deriving DecidableEq, Repr

/-- One citation occurrence and the exact paragraph asserting it. -/
structure CitationProposition where
  proposition_id : PropositionId
  citation_id : CitationId
  normalized_citation : String
  proposition_text : String
  source_text_sha256 : Digest
  source_turn_id : Option TurnId := none
  deriving DecidableEq, Repr

/-- One entry of `law/verifications.jsonl`. -/
structure VerificationRecord where
  citation_id : CitationId
  status : VerificationStatus
  source : VerificationSource
  source_url : Option String := none
  verified_at : String
  content_sha256 : Option Digest := none
  notes : String := ""
  deriving DecidableEq, Repr

inductive PropositionVerificationStatus where
  | supported
  | unsupported
  | ambiguous
  | pending
  | needs_research
  deriving DecidableEq, Repr

def PropositionVerificationStatus.value : PropositionVerificationStatus → String
  | .supported => "supported"
  | .unsupported => "unsupported"
  | .ambiguous => "ambiguous"
  | .pending => "pending"
  | .needs_research => "needs_research"

def CiteCheckStatus.to_verification : CiteCheckStatus → PropositionVerificationStatus
  | .supported => .supported
  | .unsupported => .unsupported
  | .ambiguous => .ambiguous

/-- One entry of `law/proposition-verifications.jsonl`. -/
structure PropositionVerificationRecord where
  run_id : RunId
  proposition_id : PropositionId
  citation_id : CitationId
  source_text_sha256 : Digest
  status : PropositionVerificationStatus
  checked_at : String
  authority_sha256 : Digest
  evidence_passage_ids : List String := []
  notes : String := ""
  deriving DecidableEq, Repr

/-- Runs of white space to one space, ends stripped. -/
def norm_ws (text : String) : String :=
  let words := text.toList.splitBy fun a b => isSpace a = isSpace b
  String.ofList ((words.filter fun word => !word.all isSpace).intersperse [' ']).flatten

section
variable (x : Externals)

def make_citation_id (normalized : String) : CitationId :=
  "cit-" ++ String.ofList ((x.sha256 normalized).toList.take 12)

def make_proposition_id (citation_id : CitationId) (proposition_text : String) : PropositionId :=
  "prop-" ++ String.ofList ((x.sha256 (citation_id ++ "\n" ++ norm_ws proposition_text)).toList.take 16)

/-! ### Extraction -/

/-- The citation a found span stands for. -/
def FoundCitation.citation (found : FoundCitation) (source_turn_id : Option TurnId) : Citation :=
  let normalized := norm_ws found.normalized
  { citation_id := make_citation_id x normalized, raw_text := norm_ws found.raw_text, normalized,
    authority_type := found.authority_type, source_turn_id }

/-- Every citation occurrence of a text, once per identity and span. -/
def extract_citation_occurrences (text : String) (source_turn_id : Option TurnId) : List (Citation × Nat × Nat) :=
  let found := (x.find_citations text).map fun f => (f.citation x source_turn_id, f.start, f.stop)
  (found.foldl (fun (seen : Dict (CitationId × Nat × Nat) (Citation × Nat × Nat)) occurrence =>
    seen.setDefault (occurrence.1.citation_id, occurrence.2) occurrence) ∅).values

/-- The citations of a text, once per normalized form, in first-seen order. -/
def extract_citations (text : String) (source_turn_id : Option TurnId) : List Citation :=
  ((extract_citation_occurrences x text source_turn_id).foldl
    (fun (seen : Dict String Citation) occurrence => seen.setDefault occurrence.1.normalized occurrence.1) ∅).values

/-- Moves `start` right over white space, short of `stop`. -/
def skip_space (text : List Char) (start stop : Nat) : Nat :=
  start + (((text.drop start).take (stop - start)).takeWhile isSpace).length

/-- Moves `stop` left over white space, short of `start`. -/
def drop_space (text : List Char) (start stop : Nat) : Nat :=
  stop - (((text.drop start).take (stop - start)).reverse.takeWhile isSpace).length

def MAX_PROPOSITION_CHARS : Nat := 4096

/-- The paragraph around a citation span, cut to at most `MAX_PROPOSITION_CHARS` around it. -/
def paragraph_span (text : String) (citation_start citation_end : Nat) : Nat × Nat :=
  let chars := text.toList
  let breaks := x.paragraph_breaks text
  let before := (breaks.filter (·.2 ≤ citation_start)).getLast?.elim 0 (·.2)
  let after := (breaks.find? fun b => citation_start < b.2 ∧ citation_end ≤ b.1).elim chars.length (·.1)
  let start := skip_space chars before after
  let stop := drop_space chars start after
  if stop - start ≤ MAX_PROPOSITION_CHARS then (start, stop)
  else
    let bounded_start := max start (citation_start - MAX_PROPOSITION_CHARS / 2)
    let bounded_end := min stop (bounded_start + MAX_PROPOSITION_CHARS)
    let bounded_start := max start (bounded_end - MAX_PROPOSITION_CHARS)
    (skip_space chars bounded_start citation_start, drop_space chars citation_end bounded_end)

/-- Every citation occurrence paired with its bounded paragraph. -/
def extract_citation_propositions (text : String) (source_turn_id : Option TurnId) : List CitationProposition :=
  (extract_citation_occurrences x text source_turn_id).map fun (citation, citation_start, citation_end) =>
    let (start, stop) := paragraph_span x text citation_start citation_end
    let proposition_text := String.ofList ((text.toList.drop start).take (stop - start))
    { proposition_id := make_proposition_id x citation.citation_id proposition_text,
      citation_id := citation.citation_id, normalized_citation := citation.normalized, proposition_text,
      source_text_sha256 := x.sha256 text, source_turn_id }

/-! ### The verification ledger -/

/-- Whether a verified record is older than the cache age; an unreadable timestamp is expired. -/
def is_stale (record : VerificationRecord) (now : Instant) (max_cache_age_days : Nat) : Bool :=
  match x.fromisoformat record.verified_at with
  | none => true
  | some verified_at => now.micros - verified_at.micros > max_cache_age_days * 86400000000

/-- The record as the fold shows it: an expired verification is pending. -/
def fold_record (now : Instant) (max_cache_age_days : Nat) (record : VerificationRecord) : VerificationRecord :=
  if record.status = .verified ∧ is_stale x record now max_cache_age_days then
    { record with status := .pending, notes := "stale: verified_at exceeds max_cache_age; re-verify" }
  else record

/-- The latest record of each citation. -/
def latest_records (records : List VerificationRecord) : Dict CitationId VerificationRecord :=
  records.foldl (fun latest record => latest.insert record.citation_id record) ∅

/-- `fold_ledger` read at one citation: its latest record, expired if stale. -/
def folded_record (records : List VerificationRecord) (now : Instant) (max_cache_age_days : Nat)
    (citation_id : CitationId) : Option VerificationRecord :=
  ((latest_records records).get? citation_id).map (fold_record x now max_cache_age_days)

end

/-! ### The proposition ledger -/

/-- The latest record of a run's proposition over one source text. -/
def latest_by_proposition (records : List PropositionVerificationRecord) (run_id : RunId) :
    Dict (PropositionId × Digest) PropositionVerificationRecord :=
  (records.filter (·.run_id = run_id)).foldl
    (fun latest record => latest.insert (record.proposition_id, record.source_text_sha256) record) ∅

/-- The latest record of one exact check. -/
def proposition_record (records : List PropositionVerificationRecord) (run_id : RunId)
    (proposition_id : PropositionId) (source_text_sha256 authority_sha256 : Digest) :
    Option PropositionVerificationRecord :=
  (records.filter fun record => record.run_id = run_id ∧ record.proposition_id = proposition_id ∧
    record.source_text_sha256 = source_text_sha256 ∧ record.authority_sha256 = authority_sha256).getLast?

/-- An exact proposition, the authority it is checked against and the passages shown. -/
structure PropositionEvidenceBundle where
  run_id : RunId
  proposition : CitationProposition
  authority_sha256 : Digest
  passage_ids : List String
  deriving DecidableEq, Repr

/-- The finding a proposition that is not supported yields. -/
def proposition_finding (proposition : CitationProposition) (status : PropositionVerificationStatus) : GateFinding where
  code := s!"citation_proposition_{status.value}"
  message := s!"'{proposition.normalized_citation}' is {status.value} for the exact proposition attributed to it"
  locator := some proposition.proposition_id

/-- Failing and pending findings of propositions with their folded statuses. -/
def proposition_findings (checked : List (CitationProposition × PropositionVerificationStatus)) :
    List GateFinding × List GateFinding :=
  let finding := fun (entry : CitationProposition × PropositionVerificationStatus) =>
    proposition_finding entry.1 entry.2
  let blocked := checked.filter (·.2 ≠ .supported)
  ((blocked.filter fun entry => entry.2 = .unsupported ∨ entry.2 = .ambiguous).map finding,
   (blocked.filter fun entry => entry.2 ≠ .unsupported ∧ entry.2 ≠ .ambiguous).map finding)

/-- Fail on failures, else pending on pendings, else pass. -/
def gate_of_findings (gate : String) (failures pending : List GateFinding) : GateResult :=
  if failures ≠ [] then { gate, status := .fail, findings := failures ++ pending }
  else if pending ≠ [] then { gate, status := .pending, findings := pending }
  else { gate, status := .pass }

/-- Fails unsupported or ambiguous claims; leaves missing checks pending. -/
def proposition_gate (records : List PropositionVerificationRecord) (bundles : List PropositionEvidenceBundle)
    (unresolved : List CitationProposition) : GateResult :=
  let checked := bundles.map fun bundle =>
    (bundle.proposition, ((proposition_record records bundle.run_id bundle.proposition.proposition_id
      bundle.proposition.source_text_sha256 bundle.authority_sha256).map (·.status)).getD .pending)
  let (failures, pending) := proposition_findings checked
  let research := unresolved.map fun proposition =>
    ({ code := "citation_proposition_needs_research",
       message := s!"'{proposition.normalized_citation}' needs an exact authority text before proposition support can be checked",
       locator := some proposition.proposition_id } : GateFinding)
  gate_of_findings "citation_propositions" failures (pending ++ research)

/-- The status of a proposition's latest check, pending when it has none. -/
def proposition_status (records : List PropositionVerificationRecord) (run_id : RunId)
    (proposition : CitationProposition) : PropositionVerificationStatus :=
  (((latest_by_proposition records run_id).get?
    (proposition.proposition_id, proposition.source_text_sha256)).map (·.status)).getD .pending

/-- Read-only export gate over the latest result per proposition. -/
def proposition_export_gate (records : List PropositionVerificationRecord) (run_id : RunId)
    (propositions : List CitationProposition) : GateResult :=
  let (failures, pending) := proposition_findings
    (propositions.map fun proposition => (proposition, proposition_status records run_id proposition))
  gate_of_findings "citation_propositions" failures pending

/-- The record a validated check result appends, or the reason it is refused. -/
def check_record (bundle : PropositionEvidenceBundle) (output : CiteCheckOutput) (checked_at : String) :
    Except Error PropositionVerificationRecord :=
  match output.evidence_passage_ids.find? (· ∉ bundle.passage_ids) with
  | some unknown => .error (.citation s!"cite-checker selected unknown evidence passage: {unknown}")
  | none =>
    if output.status = .supported ∧ output.evidence_passage_ids = [] then
      .error (.citation "supported cite-checker result requires supplied evidence")
    else
      .ok { run_id := bundle.run_id, proposition_id := bundle.proposition.proposition_id,
            citation_id := bundle.proposition.citation_id,
            source_text_sha256 := bundle.proposition.source_text_sha256,
            status := output.status.to_verification, checked_at,
            authority_sha256 := bundle.authority_sha256,
            evidence_passage_ids := output.evidence_passage_ids, notes := output.reasoning }

end MootLoop
