import MootLoop.Attest

/-! The gate ledger: what blocks export, folded from the journal, the attorney decisions and the
    attestation. -/

namespace MootLoop

variable (t : Publishing)

/-- The per-request turn gates, in report order. -/
def LEDGER_TURN_GATES : List String := ["degeneracy", "completeness", "fabrication", "rubric"]
def BLOCKING_TURN_GATES : List String := ["fabrication", "rubric"]

def GateStatus.severity : GateStatus → Nat
  | .pass => 0
  | .pending => 1
  | .fail => 2

/-- `_worse`. -/
def worse (a b : GateStatus) : GateStatus := if b.severity ≤ a.severity then a else b

/-- Fail and pending block. -/
def GateStatus.blocks (status : GateStatus) : Bool := status ≠ .pass

/-! ### The journal's verdicts -/

/-- The fold of the journaled verdicts: each turn's last one per gate, each request's worst one per
    gate, and the last citation verdict. -/
structure TurnGateFold where
  per_turn : Dict TurnId (Dict String GateStatus) := ∅
  worst : Dict RequestId (Dict String GateStatus) := ∅
  citation_status : GateStatus := .pending

/-- One event of the fold. Verdicts of turns that did not complete, and of turns of no request, are
    passed over. -/
def TurnGateFold.apply (state : RunState) (folded : TurnGateFold) : JournalEvent → TurnGateFold
  | .gate_evaluated turn_id result =>
    if result.gate = "citation" then { folded with citation_status := result.status }
    else
      match (state.completed_turns.get? turn_id).bind (·.spec.request_id) with
      | none => folded
      | some request_id =>
        let verdicts := (folded.per_turn.get? turn_id).getD ∅
        let bucket := (folded.worst.get? request_id).getD ∅
        let status :=
          match bucket.get? result.gate with
          | some was => worse was result.status
          | none => result.status
        { folded with
          per_turn := folded.per_turn.insert turn_id (verdicts.insert result.gate result.status)
          worst := folded.worst.insert request_id (bucket.insert result.gate status) }
  | _ => folded

def turn_gate_fold (events : List JournalEvent) (state : RunState) : TurnGateFold :=
  events.foldl (TurnGateFold.apply state) {}

/-- A gate's verdict for a request: the one on its operative draft if it is recorded there, else the
    worst one the run recorded. -/
def TurnGateFold.verdict (folded : TurnGateFold) (operative_turn : List (RequestId × TurnId))
    (request_id : RequestId) (gate : String) : Option GateStatus :=
  match ((folded.worst.get? request_id).getD ∅).get? gate with
  | none => none
  | some was =>
    let on_operative := ((operative_turn.lookup request_id).bind folded.per_turn.get?).getD ∅
    some ((on_operative.get? gate).getD was)

/-- The worst status ever recorded, where the operative draft has since changed it. -/
def TurnGateFold.superseded (folded : TurnGateFold) (operative_turn : List (RequestId × TurnId)) :
    List (RequestId × List (String × GateStatus)) :=
  (folded.worst.entries.map fun entry =>
    (entry.1, entry.2.entries.filter fun was =>
      folded.verdict operative_turn entry.1 was.1 ≠ some was.2)).filter fun entry => entry.2 ≠ []

/-! ### The ledger -/

/-- One request's row. -/
structure GateRow where
  turn_gates : List (String × GateStatus)
  citations : GateStatus
  decisions : GateStatus
  attestation : GateStatus
  deriving DecidableEq, Repr

structure GateLedgerDoc where
  run_id : RunId
  export_ready : Bool
  blockers : List String
  citations : GateStatus
  decisions : GateStatus
  attestation : GateStatus
  gates : List (RequestId × GateRow)
  superseded : List (RequestId × List (String × GateStatus))
  deriving DecidableEq, Repr

/-- `_export_ready`. -/
def ledger_blockers (gates : List (RequestId × GateRow)) (decisions_status attestation_status
    citation_status : GateStatus) (blocking_turn_gates : List String) : List String :=
  let run_blockers :=
    (if decisions_status.blocks then ["decisions"] else []) ++
    (if attestation_status.blocks then ["attestation"] else []) ++
    (if citation_status.blocks then ["citations"] else [])
  gates.foldl (fun blockers entry =>
    blocking_turn_gates.foldl (fun blockers gate =>
      if ((entry.2.turn_gates.lookup gate).getD .pending).blocks ∧ gate ∉ blockers then blockers ++ [gate]
      else blockers) blockers) run_blockers

def AttestationCheckStatus.gate : AttestationCheckStatus → GateStatus
  | .valid => .pass
  | .invalidated => .fail
  | .missing => .pending

/-- The turn gates of the run's configuration, in report order. -/
def configured_turn_gates (context : RunContext) : List String :=
  LEDGER_TURN_GATES.filter (· ∈ context.config.gates)

def blocking_turn_gates (context : RunContext) : List String :=
  BLOCKING_TURN_GATES.filter (· ∈ configured_turn_gates context)

/-- The operative drafts by request id, for the checks of attorney choices. -/
def drafts_by_request (context : RunContext) (state : RunState) :
    Except Error (List (RequestId × Option DraftOutput)) := do
  return (← operative_drafts context state).map fun entry => (entry.1.request_id, entry.2.map (·.2))

/-- The decisions that block: open ones, and closed ones that need a revised draft. -/
def blocking_decisions (decisions : List Decision) (revisions : List (DecisionId × String)) : List Decision :=
  decisions.filter fun d => d.status = .open ∨ d.decision_id ∈ revisions.map (·.1)

/-- `build_ledger`: reads, and writes nothing. -/
def build_ledger (v : Vault) : Except Error GateLedgerDoc := do
  let context ← v.run_context
  let state := v.state
  let operative_turn := operative_draft_turn_ids context state
  let folded := turn_gate_fold v.journal state
  let decisions := (folded_decisions v.decisions).values
  let revisions := decision_revision_requirements decisions (← drafts_by_request context state)
  let blocking := blocking_decisions decisions revisions
  let attestation_status := (← attestation_state t v).status.gate
  let decisions_status := if blocking = [] then GateStatus.pass else .fail
  let gates := context.task_units.map fun unit =>
    (unit.request_id,
      ({ turn_gates := (configured_turn_gates context).map fun gate =>
           (gate, (folded.verdict operative_turn unit.request_id gate).getD .pending)
         citations := folded.citation_status
         decisions :=
           if blocking.any fun d => d.request_id = none ∨ d.request_id = some unit.request_id then .fail else .pass
         attestation := attestation_status } : GateRow))
  let blockers := ledger_blockers gates decisions_status attestation_status folded.citation_status
    (blocking_turn_gates context)
  return { run_id := context.run_id, export_ready := blockers = [],
           blockers := blockers ++ revisions.map fun revision => s!"decision_revision:{revision.1}",
           citations := folded.citation_status, decisions := decisions_status,
           attestation := attestation_status, gates, superseded := folded.superseded operative_turn }

/-- The predicate the ledger exists to answer, with the blockers. -/
def export_ready (v : Vault) : Except Error (Bool × List String) := do
  let doc ← build_ledger t v
  return (doc.export_ready, doc.blockers)

end MootLoop
