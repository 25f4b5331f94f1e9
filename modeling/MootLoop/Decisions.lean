import MootLoop.Pipeline

/-! Attorney-gate decisions: their vocabulary, the calls a draft implies, and the fold of the
    append-only decision log. -/

namespace MootLoop

inductive DecisionKind where
  | objection_posture
  | privilege_call
  | rfa_disposition
  | unsupported_assertion
  deriving DecidableEq, Repr

def DecisionKind.value : DecisionKind → String
  | .objection_posture => "objection_posture"
  | .privilege_call => "privilege_call"
  | .rfa_disposition => "rfa_disposition"
  | .unsupported_assertion => "unsupported_assertion"

/-- The matter gate a decision kind resolves its mode from. -/
def GATE_NAME_FOR_KIND : DecisionKind → String
  | .objection_posture => "objection_posture"
  | .privilege_call => "privilege"
  | .rfa_disposition => "rfa_disposition"
  | .unsupported_assertion => "unsupported_assertion"

inductive DecisionStatus where
  | open
  | approved
  | modified
  | denied
  deriving DecidableEq, Repr

def DecisionStatus.value : DecisionStatus → String
  | .open => "open"
  | .approved => "approved"
  | .modified => "modified"
  | .denied => "denied"

inductive ResolutionAction where
  | approve
  | modify
  | deny
  deriving DecidableEq, Repr

def ResolutionAction.value : ResolutionAction → String
  | .approve => "approve"
  | .modify => "modify"
  | .deny => "deny"

def STATUS_FOR_ACTION : ResolutionAction → DecisionStatus
  | .approve => .approved
  | .modify => .modified
  | .deny => .denied

structure DecisionOption where
  key : String
  label : String
  consequence : String
  deriving DecidableEq, Repr

structure DecisionProposal where
  summary : String
  reasoning : String
  options : List DecisionOption := []
  recommended : String
  deriving DecidableEq, Repr

structure DecisionResolution where
  action : ResolutionAction
  chosen_key : Option String := none
  note : String := ""
  decided_by : String
  source : String
  decided_at : String
  deriving DecidableEq, Repr

/-- One attorney-gate decision. -/
structure Decision where
  decision_id : DecisionId
  run_id : RunId
  request_id : Option RequestId := none
  kind : DecisionKind
  proposal : DecisionProposal
  status : DecisionStatus := .open
  resolution : Option DecisionResolution := none
  deriving DecidableEq, Repr

/-- The logical identity that keeps generation idempotent across redrafts. -/
def Decision.dedupe_key (decision : Decision) : String × String :=
  (decision.kind.value, decision.proposal.summary)

def make_decision_id (run_id : RunId) (seq : Nat) : DecisionId := "dec-" ++ run_id ++ "-" ++ pad4 seq

/-! ### The decision log -/

/-- The latest record of each decision. -/
def folded_decisions (records : List Decision) : Dict DecisionId Decision :=
  records.foldl (fun state record => state.insert record.decision_id record) ∅

def open_decisions (records : List Decision) : List Decision :=
  (folded_decisions records).values.filter (·.status = .open)

/-- The configured mode of a decision kind; privilege and RFA calls default to a human. -/
def gate_mode_for (matter : MatterConfig) (kind : DecisionKind) : GateMode :=
  match matter.gates.lookup (GATE_NAME_FOR_KIND kind) with
  | some mode => mode
  | none => if kind = .privilege_call ∨ kind = .rfa_disposition then .hard_human else .policy_delegable

def open_by_taxonomy (records : List Decision) (matter : MatterConfig) (mode : GateMode) : List Decision :=
  (open_decisions records).filter fun d => gate_mode_for matter d.kind = mode

/-! ### Generation -/

def objection_posture_proposal (draft : DraftOutput) (code : String) : DecisionProposal where
  summary := s!"Objection posture for {code.toUpper} requests"
  reasoning := "Confirm the standing objection posture for this request type before the responses are served."
  options := [
    ⟨"assert", "Assert objections", "Objections are preserved as drafted."⟩,
    ⟨"narrow", "Narrow objections", "Keep only the strongest objections."⟩,
    ⟨"waive", "Waive objections", "Answer fully without objecting."⟩]
  recommended := if draft.objections = [] then "waive" else "assert"

def unsupported_assertion_proposal (where_ item : String) : DecisionProposal where
  summary := s!"Unsupported assertion in {where_}: {item}"
  reasoning := s!"The associate could not ground this assertion: '{item}'. Decide how to resolve it before service."
  options := [
    ⟨"obtain_support", "Obtain support", "Gather a grounding fact/source."⟩,
    ⟨"strike", "Strike the assertion", "Remove it from the response."⟩,
    ⟨"attest_anyway", "Attest anyway", "Keep it on attorney judgment."⟩]
  recommended := "obtain_support"

def privilege_call_proposal (where_ : String) (objection : Objection) : DecisionProposal where
  summary := s!"Privilege call in {where_}: {objection.text}"
  reasoning := "A privilege objection was raised; every privilege call is a human-by-design gate."
  options := [
    ⟨"withhold", "Withhold", "Assert privilege and log the item."⟩,
    ⟨"log_only", "Log only", "Produce but note on the privilege log."⟩,
    ⟨"produce", "Produce", "Waive privilege and produce."⟩]
  recommended := "withhold"

def rfa_disposition_proposal (where_ : String) (disposition : RfaDisposition) : DecisionProposal where
  summary := s!"RFA disposition for {where_}"
  reasoning := "Every Rule 36 admit/deny/qualify/lack-of-knowledge is an attorney gate; a non-conforming answer risks being deemed admitted."
  options := [
    ⟨"admit", "Admit", "Conclusively established."⟩,
    ⟨"deny", "Deny", "Denial must fairly meet the substance."⟩,
    ⟨"qualify", "Qualify", "Admit in part, deny in part."⟩,
    ⟨"lack_of_knowledge", "Lack of knowledge", "Requires the reasonable-inquiry recital."⟩]
  recommended := disposition.value

/-- Every call a single draft turn implies. -/
def proposals_for_draft (spec : TurnSpec) (draft : DraftOutput) (code : String) (document : Bool) :
    List (DecisionKind × Option RequestId × DecisionProposal) :=
  let where_ := spec.request_id.getD spec.turn_id
  (if document then []
   else [(.objection_posture, none, objection_posture_proposal draft code)]) ++
  draft.attorney_gate_items.map (fun item =>
    (.unsupported_assertion, spec.request_id, unsupported_assertion_proposal where_ item)) ++
  (draft.objections.filter (·.basis = "privilege")).map (fun objection =>
    (.privilege_call, spec.request_id, privilege_call_proposal where_ objection)) ++
  (match draft.rfa_disposition with
   | some disposition =>
     if code = "rfa" then [(.rfa_disposition, spec.request_id, rfa_disposition_proposal where_ disposition)] else []
   | none => [])

/-- The decisions the drafts imply that are not in the log yet, numbered on from it. -/
def derive_decisions (run_id : RunId) (document : Bool) (existing : List Decision)
    (drafts : List (TurnSpec × DraftOutput)) : List Decision :=
  let known := (folded_decisions existing).values
  let proposed := drafts.flatMap fun (spec, draft) =>
    proposals_for_draft spec draft (spec.request_id.elim "all" code_from_request_id) document
  (proposed.foldl (fun (created : List Decision) (kind, request_id, proposal) =>
    let key := (kind.value, proposal.summary)
    if key ∈ known.map Decision.dedupe_key ∨ key ∈ created.map Decision.dedupe_key then created
    else created ++ [{ decision_id := make_decision_id run_id (known.length + created.length), run_id,
                       request_id, kind, proposal }]) [])

/-! ### Attorney choices against the operative drafts -/

/-- The drafts a decision is about; a request without an operative draft has none. -/
def applicable_drafts (decision : Decision) (drafts : List (RequestId × Option DraftOutput)) :
    List (Option DraftOutput) :=
  match decision.request_id with
  | some request_id => [(drafts.lookup request_id).join]
  | none =>
    let named := ["rog", "rfp", "rfa"].find? fun code =>
      decision.kind = .objection_posture ∧
        decision.proposal.summary = s!"Objection posture for {code.toUpper} requests"
    match named with
    | some code => (drafts.filter fun entry => code_from_request_id entry.1 = code).map (·.2)
    | none => drafts.map (·.2)

/-- Whether the drafts establish the outcome a closed decision selected. -/
def outcome_established (decision : Decision) (drafts : List (RequestId × Option DraftOutput)) : Bool :=
  let applicable := applicable_drafts decision drafts
  match decision.resolution with
  | none => false
  | some resolution =>
    resolution.action ≠ .deny && !applicable.isEmpty && applicable.all (·.isSome) &&
      match decision.kind with
      | .objection_posture =>
        resolution.chosen_key = some "assert" ||
          (resolution.chosen_key = some "waive" && applicable.all (·.any (·.objections.isEmpty)))
      | .unsupported_assertion => resolution.chosen_key = some "attest_anyway"
      | .rfa_disposition =>
        resolution.chosen_key.isSome &&
          applicable.all (·.any fun draft => draft.rfa_disposition.map (·.value) = resolution.chosen_key)
      | .privilege_call => false

/-- The closed decisions whose selected outcome the operative drafts do not establish, with the reason. -/
def decision_revision_requirements (decisions : List Decision) (drafts : List (RequestId × Option DraftOutput)) :
    List (DecisionId × String) :=
  (decisions.filter fun d => d.status ≠ .open ∧ ¬outcome_established d drafts).map fun d =>
    let chosen :=
      match d.resolution.bind (·.chosen_key) with
      | none | some "" => "no selected outcome"
      | some key => key
    (d.decision_id,
      if d.kind = .privilege_call then
        s!"Decision {d.decision_id} ({chosen}) requires verified withholding/production and privilege-log review. Clean export for privilege choices is not yet supported; use the draft review copy. Starting a new run alone will not clear this blocker."
      else
        s!"Decision {d.decision_id} ({chosen}) requires a revised response and attorney review in a new run; the operative draft does not establish the selected outcome.")

end MootLoop
