import MootLoop.Task
import MootLoop.Citations

/-! The deterministic gates of a turn: degeneracy, completeness and fabrication, and their run in
    dependency order. -/

namespace MootLoop

variable (x : Externals)

/-! ### Degeneracy -/

def PLACEHOLDERS : List String := ["[todo", "[insert", "lorem"]

def placeholder_findings (text locator : String) : List GateFinding :=
  (PLACEHOLDERS.filter fun marker => isIn marker (x.lower text)).map fun marker =>
    { code := "placeholder", message := s!"unresolved marker '{marker}'", locator := some locator }

/-- The objections of a draft with their positions. -/
def DraftOutput.indexed (draft : DraftOutput) : List (Nat × Objection) :=
  (List.range draft.objections.length).zip draft.objections

def has_hedge (draft : DraftOutput) : Bool :=
  (draft.response_text :: draft.objections.map (·.text)).any x.hedge_search

/-- `_check_draft` of the degeneracy gate. -/
def degeneracy_findings (draft : DraftOutput) (document : Bool) : List GateFinding :=
  (if isBlank draft.response_text then
    [{ code := "empty_response", message := "response_text is empty" }] else []) ++
  ((draft.indexed.filter fun entry => isBlank entry.2.basis).map fun entry =>
    { code := "objection_no_basis", message := "objection has an empty basis",
      locator := some s!"objections[{entry.1}]" }) ++
  placeholder_findings x draft.response_text "response_text" ++
  (draft.indexed.flatMap fun entry => placeholder_findings x entry.2.text s!"objections[{entry.1}].text") ++
  (if !document && has_hedge x draft then
    [{ code := "hedge_subject_to",
       message := "response hedges \"subject to and without waiving\" (Liguria Foods)",
       locator := some "response_text" }] else []) ++
  (if document && (!draft.objections.isEmpty || draft.rfa_disposition.isSome) then
    [{ code := "discovery_fields",
       message := "document drafts cannot contain objections or RFA dispositions" }] else []) ++
  (if draft.fact_ids_used.isEmpty && draft.attorney_gate_items.isEmpty then
    [{ code := "ungrounded", message := "draft cites no fact_id and raises no attorney_gate_item" }] else [])

/-- Fail on findings, else pass. -/
def fail_or_pass (gate : String) (findings : List GateFinding) : GateResult :=
  if findings = [] then { gate, status := .pass } else { gate, status := .fail, findings }

/-- `degeneracy.evaluate`. -/
def degeneracy_evaluate (output : TurnOutput) (document : Bool) : GateResult :=
  fail_or_pass "degeneracy" <|
    match output with
    | .draft draft => degeneracy_findings x draft document
    | other =>
      if isBlank other.self_assessment then
        [{ code := "empty_self_assessment", message := "self_assessment is empty" }] else []

/-! ### Completeness -/

/-- The maximal runs of lower-case letters and digits of at least four characters. -/
def significant_tokens (text : String) : List String :=
  let keep := fun c : Char => c.isLower || c.isDigit
  let runs := (x.lower text).toList.splitBy fun a b => keep a = keep b
  ((runs.filter fun run => run.all keep && 4 ≤ run.length).map String.ofList).dedup

def objection_basis_specificity (draft : DraftOutput) : Bool :=
  draft.objections.all fun obj => !isBlank obj.basis && 12 ≤ (strip obj.text).length

def no_boilerplate_general_objection (draft : DraftOutput) : Bool :=
  draft.objections.all fun obj =>
    !(isIn "overly broad and unduly burdensome" (x.lower obj.text) && (strip obj.text).length < 80)

def rfp_withheld_statement (draft : DraftOutput) : Bool :=
  let text := x.lower draft.response_text
  isIn "withheld" text || isIn "withholding" text || isIn "nothing is being withheld" text

def rfa_disposition_present (draft : DraftOutput) : Bool :=
  ["admit", "deny", "denied", "qualif", "lack"].any fun token => isIn token (x.lower draft.response_text)

def rfa_reasonable_inquiry (draft : DraftOutput) : Bool :=
  let text := x.lower draft.response_text
  !(isIn "lack" text || isIn "cannot truthfully admit or deny" text) || isIn "reasonable inquiry" text

def mn_rog_restatement (draft : DraftOutput) (req_text : String) : Bool :=
  let tokens := significant_tokens x req_text
  let overlap := tokens.filter (· ∈ significant_tokens x draft.response_text)
  isIn "interrogatory no" (x.lower draft.response_text) || tokens.isEmpty ||
    (overlap.length : Rat) / tokens.length ≥ 4 / 10

def DOCUMENT_SECTIONS : List String :=
  ["parties", "jurisdiction", "allegations", "claims", "relief", "grounds", "record", "argument",
   "limitations", "issues", "preservation", "standard of review", "position", "questions", "answers",
   "concessions", "closing", "recommendation", "risks", "options", "next steps", "secondary deliverable"]

def section_present (name : String) (draft : DraftOutput) : Bool :=
  (x.section_body name draft.response_text).any fun body => 12 ≤ (strip body).length

/-- The checker of a presence criterion, by its id. -/
def presence_check (id : String) : Option (DraftOutput → String → Bool) :=
  let document_section := fun name : String =>
    "document-section-" ++ String.ofList (name.toList.map fun c => if c = ' ' then '-' else c)
  if id = "disposition-present" then some fun draft _ => !isBlank draft.response_text
  else if id = "objection-basis-specificity" then some fun draft _ => objection_basis_specificity draft
  else if id = "no-boilerplate-general-objection" then some fun draft _ => no_boilerplate_general_objection x draft
  else if id = "no-hedge-subject-to" then some fun draft _ => !has_hedge x draft
  else if id = "rfp-withheld-statement" then some fun draft _ => rfp_withheld_statement x draft
  else if id = "rfa-disposition" then some fun draft _ => rfa_disposition_present x draft
  else if id = "rfa-reasonable-inquiry" then some fun draft _ => rfa_reasonable_inquiry x draft
  else if id = "mn-rog-restatement" then some fun draft req_text => mn_rog_restatement x draft req_text
  else (DOCUMENT_SECTIONS.find? fun name => document_section name = id).map fun name draft _ =>
    section_present x name draft

/-- The applicable presence criteria with their checkers; an unknown criterion raises. -/
def applicable_checks (rubric : Rubric) (code : String) :
    Except Error (List (String × (DraftOutput → String → Bool))) :=
  let unknown := (rubric.criteria.filter fun c => c.kind = .present ∧ (presence_check x c.id).isNone).map (·.id)
  if unknown ≠ [] then
    let listed := ", ".intercalate unknown
    .error (.taskConfig s!"unknown deterministic presence criteria: {listed}")
  else
    .ok ((rubric.presence_criteria code).filterMap fun c => (presence_check x c.id).map fun check => (c.id, check))

/-- `completeness.evaluate`. -/
def completeness_evaluate (draft : DraftOutput) (rubric : Rubric) (code req_text : String) :
    Except Error GateResult := do
  let checks ← applicable_checks x rubric code
  let unmet := checks.filter fun check => !check.2 draft req_text
  return fail_or_pass "completeness" (unmet.map fun check =>
    { code := check.1, message := s!"presence criterion '{check.1}' not met", locator := some check.1 })

/-- Fraction of applicable presence criteria the draft satisfies. -/
def coverage (draft : DraftOutput) (rubric : Rubric) (code req_text : String) : Except Error Rat := do
  let checks ← applicable_checks x rubric code
  if checks = [] then return 1
  else return ((checks.filter fun check => check.2 draft req_text).length : Rat) / checks.length

/-! ### Fabrication -/

/-- Every span of a draft that is rendered into the served document, with its locator. -/
def served_text (draft : DraftOutput) : List (String × String) :=
  ("response_text", draft.response_text) ::
    draft.indexed.map fun entry => (s!"objections[{entry.1}].text", entry.2.text)

/-- The text without white space. -/
def no_space (text : String) : String := String.ofList (text.toList.filter (!isSpace ·))

/-- The findings of one served span: its amounts, dates and quotes that trace to no support. -/
def unsupported_spans (supported : String) (entry : String × String) : List GateFinding :=
  let traced := fun span => isIn (no_space span) supported
  ((x.findall .money entry.2).filter (!traced ·)).map (fun amount =>
    { code := "unsupported_amount", message := s!"dollar amount '{strip amount}' traces to no cited fact/corpus",
      locator := some entry.1 }) ++
  (((x.findall .date entry.2).map norm_ws).filter (!traced ·)).map (fun date =>
    { code := "unsupported_date", message := s!"date '{date}' traces to no cited fact or corpus text",
      locator := some entry.1 }) ++
  (((x.findall .quote entry.2).map norm_ws).filter (!traced ·)).map (fun span =>
    { code := "unsupported_quote", message := s!"quoted span '{span}' appears in no cited fact or corpus text",
      locator := some entry.1 })

/-- The findings of the fabrication gate. -/
def fabrication_findings (draft : DraftOutput) (facts : List Fact) (corpus_text : String)
    (evidence : List DocumentEvidence) : List GateFinding :=
  let known := fun fid => facts.any (·.fact_id = fid) || evidence.any (·.source_id = fid)
  let cited := draft.fact_ids_used.filterMap fun fid => (facts.filter (·.fact_id = fid)).getLast?
  let supported_parts := [corpus_text] ++
    (evidence.filter (·.source_id ∈ draft.fact_ids_used)).map (·.text) ++
    cited.flatMap fun fact => fact.statement :: fact.quotes
  let supported := no_space (norm_ws (" ".intercalate supported_parts))
  ((draft.fact_ids_used.filter (!known ·)).map fun fid =>
    { code := "unknown_fact", message := s!"cites unknown fact_id '{fid}'", locator := some fid }) ++
  (if draft.fact_ids_used.isEmpty && draft.attorney_gate_items.isEmpty then
    [{ code := "ungrounded", message := "draft cites no fact_id and raises no attorney_gate_item" }] else []) ++
  (served_text draft).flatMap (unsupported_spans x supported)

/-- `fabrication.check`: pending when the draft lists candidate citations, which are unverified yet. -/
def fabrication_check (draft : DraftOutput) (facts : List Fact) (corpus_text : String)
    (evidence : List DocumentEvidence) : GateResult :=
  let findings := fabrication_findings x draft facts corpus_text evidence
  if findings ≠ [] then { gate := "fabrication", status := .fail, findings }
  else if draft.candidate_citations ≠ [] then
    { gate := "fabrication", status := .pending,
      findings := [{ code := "citations_pending", message := "citations pending verification" }] }
  else { gate := "fabrication", status := .pass }

/-! ### The turn gates -/

/-- The inputs the gates of one turn share. -/
structure TurnGateContext where
  output : TurnOutput
  rubric : Rubric
  request_code : String
  request_text : String
  facts : List Fact
  corpus_text : String
  document : Bool := false
  evidence : List DocumentEvidence := []

/-- Whether the scores cover every declared correctness criterion exactly once. -/
def covers_criteria (rubric : Rubric) (code : String) (scored : RubricScoreOutput) : Bool :=
  let expected := (rubric.correctness_criteria code).map Criterion.id
  let actual := scored.scores.map CriterionScore.criterion_id
  actual.all (expected.contains ·) && expected.all (actual.contains ·) && actual.Nodup

def DegeneracyGate : Gate TurnGateContext where
  definition := { name := "degeneracy", scope := .turn, halt_on_fail := true, blocks_export := false }
  applies _ := true
  evaluate context :=
    match context.document, context.output with
    | true, .rubric scored =>
      if covers_criteria context.rubric context.request_code scored then
        .ok (degeneracy_evaluate x context.output context.document)
      else
        .ok { gate := "degeneracy", status := .fail,
              findings := [{ code := "rubric_coverage",
                             message := "scores must cover every declared criterion exactly once" }] }
    | _, _ => .ok (degeneracy_evaluate x context.output context.document)

def CompletenessGate : Gate TurnGateContext where
  definition := { name := "completeness", scope := .draft, depends_on := ["degeneracy"], blocks_export := false }
  applies context := context.output.as_draft.isOk
  evaluate context := do
    completeness_evaluate x (← context.output.as_draft) context.rubric context.request_code context.request_text

def FabricationGate : Gate TurnGateContext where
  definition := { name := "fabrication", scope := .draft, depends_on := ["degeneracy"] }
  applies context := context.output.as_draft.isOk
  evaluate context := do
    let draft ← context.output.as_draft
    return fabrication_check x draft context.facts context.corpus_text context.evidence

def TURN_GATES : List (Gate TurnGateContext) := [DegeneracyGate x, CompletenessGate x, FabricationGate x]

/-- Restores the fabrication gate that older manifests selected implicitly. -/
def normalize_turn_gate_selection (names : List String) : List String :=
  if names = ["degeneracy", "completeness", "rubric"] then
    ["degeneracy", "completeness", "fabrication", "rubric"] else names

/-- Evaluates the configured turn and draft gates, after validating the whole selection. -/
def evaluate_turn_gates (names : List String) (context : TurnGateContext) : Except Error GateRun := do
  let ordered ← DEFAULT_GATE_CATALOG.order (normalize_turn_gate_selection names)
  let turn_names := (ordered.filter fun d => d.scope = .turn ∨ d.scope = .draft).map (·.name)
  Gate.run (TURN_GATES x) turn_names context

end MootLoop
