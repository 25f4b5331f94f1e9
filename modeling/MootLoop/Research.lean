import MootLoop.CitationGates
import MootLoop.Lib.Transition

/-! The curated tier of citation verification: the authority files a person supplies, the research queue that
    asks for them, and the two calls that write them and the verification ledger. -/

namespace MootLoop.Research

/-! ### Files and requests -/

/-- The characters a curated file name keeps. -/
def kept (c : Char) : Bool := ('a' ≤ c ∧ c ≤ 'z') ∨ ('0' ≤ c ∧ c ≤ '9')

/-- Each run of other characters to one dash. -/
def dashed (chars : List Char) : List Char :=
  (chars.splitBy fun a b => kept a = kept b).flatMap fun run => if run.all kept then run else ['-']

inductive RequestStatus where
  | «open»
  | fulfilled
  deriving DecidableEq, Repr

/-- A citation queued for a person to find the authority of. -/
structure ResearchRequest where
  request_id : String
  citation_id : CitationId
  normalized : String
  reason : String
  status : RequestStatus := .open
  deriving DecidableEq, Repr

/-- The curated files by their slugs, `research-requests/queue.jsonl` and `law/verifications.jsonl`. -/
structure LawStore where
  curated : Dict String String := ∅
  queue : List ResearchRequest := []
  records : List VerificationRecord := []

/-- The queue folded to the latest line of each request. -/
def folded (queue : List ResearchRequest) : Dict String ResearchRequest :=
  queue.foldl (fun state request => state.insert request.request_id request) ∅

def open_requests (queue : List ResearchRequest) : List ResearchRequest :=
  (folded queue).values.filter (·.status = .open)

section
variable (x : Externals)

def curated_slug (normalized : String) : String :=
  let dashes := dashed (x.lower normalized).toList
  let slug := ((dashes.dropWhile (· == '-')).reverse.dropWhile (· == '-')).reverse
  if slug = [] then "cite" else String.ofList slug

/-- `curated_path(..).as_uri()` under the vault's own address. -/
def curated_uri (vault_root normalized : String) : String :=
  s!"{vault_root}/law/curated/{curated_slug x normalized}.md"

def research_request_id (normalized : String) : String :=
  "research-" ++ String.ofList ((x.sha256 normalized).toList.take 12)

/-! ### Verification -/

/-- What a source says of one citation. -/
structure Answer where
  status : VerificationStatus
  source_url : Option String := none
  content_sha256 : Option Digest := none
  notes : String := ""

/-- The answers of the two sources during one call, and the shapes the Revisor can be asked about. -/
structure Sources where
  can_verify : Citation → Bool
  mn_revisor : Citation → Answer
  courtlistener : Citation → Answer

def Answer.record (answer : Answer) (source : VerificationSource) (citation : Citation) (now : String) :
    VerificationRecord where
  citation_id := citation.citation_id
  status := answer.status
  source
  source_url := answer.source_url
  verified_at := now
  content_sha256 := answer.content_sha256
  notes := answer.notes

def curated_record (vault_root : String) (citation : Citation) (text now : String) : VerificationRecord where
  citation_id := citation.citation_id
  status := .verified
  source := .curated
  source_url := some (curated_uri x vault_root citation.normalized)
  verified_at := now
  content_sha256 := some (x.sha256 text)
  notes := "tier-1 curated authority"

def needs_research_record (citation : Citation) (now request_id : String) : VerificationRecord where
  citation_id := citation.citation_id
  status := .needs_research
  source := .manual
  verified_at := now
  notes := s!"routed to research queue as {request_id}"

def authority_value : AuthorityType → String
  | .case => "case"
  | .state_statute => "state_statute"
  | .federal_statute => "federal_statute"
  | .regulation => "regulation"
  | .court_rule => "court_rule"
  | .other => "other"

def research_request (citation : Citation) (request_id : String) : ResearchRequest where
  request_id
  citation_id := citation.citation_id
  normalized := citation.normalized
  reason := s!"{authority_value citation.authority_type} not verifiable via the free stack"

/-- What one pass has gathered: the new records, the cases still to look up, and the queue it appends to. -/
structure Pass where
  records : List VerificationRecord := []
  cases : List Citation := []
  queue : List ResearchRequest
  open_ids : List String

/-- One citation without a settled record: the curated tier first, then by authority type. -/
def route (vault_root : String) (curated : Dict String String) (sources : Sources) (now : String) (pass : Pass)
    (citation : Citation) : Pass :=
  match curated.get? (curated_slug x citation.normalized) with
  | some text => { pass with records := pass.records ++ [curated_record x vault_root citation text now] }
  | none =>
    if citation.authority_type = .case then { pass with cases := pass.cases ++ [citation] }
    else if (citation.authority_type = .state_statute ∨ citation.authority_type = .court_rule) ∧
        sources.can_verify citation then
      { pass with records := pass.records ++ [(sources.mn_revisor citation).record .mn_revisor citation now] }
    else
      let request_id := research_request_id x citation.normalized
      let records := pass.records ++ [needs_research_record citation now request_id]
      if request_id ∈ pass.open_ids then { pass with records }
      else { pass with
        records
        queue := pass.queue ++ [research_request citation request_id]
        open_ids := pass.open_ids ++ [request_id] }

/-- The citations of a call, once per id, whose folded record is pending or missing. -/
def unsettled (s : LawStore) (citations : List Citation) (now : Instant) (max_cache_age_days : Nat) : List Citation :=
  (first_by (·.citation_id) citations).filter fun c =>
    citation_status x s.records now max_cache_age_days c.citation_id = .pending

def verify_all (vault_root : String) (sources : Sources) (s : LawStore) (citations : List Citation) (now : String)
    (max_cache_age_days : Nat) : Except Error LawStore := do
  let instant ← instant_of x now
  let pass := (unsettled x s citations instant max_cache_age_days).foldl
    (route x vault_root s.curated sources now)
    { queue := s.queue, open_ids := (open_requests s.queue).map (·.request_id) }
  let looked_up := pass.cases.map fun c => (sources.courtlistener c).record .courtlistener c now
  return { s with queue := pass.queue, records := s.records ++ pass.records ++ looked_up }

/-- `fulfill_research_request`, over the text of the file if there is one: the authority is copied into place,
    the request marked, the citation recorded as verified. -/
def fulfill_research_request (vault_root : String) (s : LawStore) (request_id : String) (file : Option String)
    (now : String) (url : Option String) : Except Error LawStore :=
  match (folded s.queue).get? request_id with
  | none => .error (.citation s!"unknown research request: {request_id}")
  | some request =>
    match file with
    | none => .error (.citation "authority file not found")
    | some text =>
      .ok { curated := s.curated.insert (curated_slug x request.normalized) text
            queue := s.queue ++ [{ request with status := .fulfilled }]
            records := s.records ++
              [{ citation_id := make_citation_id x request.normalized
                 status := .verified
                 source := .curated
                 source_url := some ((url.filter (· ≠ "")).getD (curated_uri x vault_root request.normalized))
                 verified_at := now
                 content_sha256 := some (x.sha256 text)
                 notes := s!"fulfilled from {request_id}" }] }

/-! ### Sequences of calls -/

/-- A call, with what the sources answer while it runs. -/
inductive Call where
  | verify_all (sources : Sources) (citations : List Citation) (now : String) (max_cache_age_days : Nat)
  | fulfill_research_request (request_id : String) (file : Option String) (now : String) (url : Option String)

def perform (vault_root : String) (s : LawStore) : Call → Except Error LawStore
  | .verify_all sources citations now days => verify_all x vault_root sources s citations now days
  | .fulfill_research_request request_id file now url =>
    fulfill_research_request x vault_root s request_id file now url

/-- A call that returns, or one that raises and writes nothing. -/
def Step (vault_root : String) (s : LawStore) (call : Call) (s' : LawStore) : Prop :=
  perform x vault_root s call = .ok s' ∨ (∃ e, perform x vault_root s call = .error e) ∧ s' = s

/-- A citation whose id is made of its normalized form, as extraction makes it. -/
def Addressed (citation : Citation) : Prop := citation.citation_id = make_citation_id x citation.normalized

/-- A citation folds to verified by the curated tier. -/
def Curated (s : LawStore) (now : Instant) (max_cache_age_days : Nat) (citation : Citation) : Prop :=
  ∃ record ∈ folded_record x s.records now max_cache_age_days citation.citation_id,
    record.status = .verified ∧ record.source = .curated

instance {s : LawStore} {now : Instant} {days : Nat} {citation : Citation} : Decidable (Curated x s now days citation) :=
  inferInstanceAs (Decidable (∃ record ∈ folded_record x s.records now days citation.citation_id,
    record.status = .verified ∧ record.source = .curated))

/-- A request for a normalized form was fulfilled. -/
def Fulfilled (s : LawStore) (normalized : String) : Prop :=
  ∃ request ∈ s.queue, request.status = .fulfilled ∧ request.normalized = normalized

instance {s : LawStore} {normalized : String} : Decidable (Fulfilled s normalized) :=
  inferInstanceAs (Decidable (∃ request ∈ s.queue, request.status = .fulfilled ∧ request.normalized = normalized))

end

end MootLoop.Research
