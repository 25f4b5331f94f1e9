import MootLoop.Vault

/-! The orchestrator: planning, recording, spend, the budget cap, finalization and checkpoints. The
    functions here run under the caller's run lock. -/

namespace MootLoop
open Durable

variable (x : Externals)

/-- `with RunLock(...)`: raises when the lock is held. -/
def with_lock {α : Type} (free : Bool) (body : VaultM α) : VaultM α :=
  if free then body else throw (.lockHeld "lock held by live process")

/-- The calendar date of an injected timestamp. -/
def date_of (now : String) : Except Error Date :=
  match x.fromisoformat now with
  | some instant => .ok instant.date
  | none => .error (.value s!"Invalid isoformat string: '{now}'")

/-! ### Planning -/

/-- The stage context of each unit. -/
def contexts (context : RunContext) (state : RunState) (tier_models : List (Role × String))
    (assembled_context : List AssembledContextItem) : List StageContext :=
  context.task_units.zipIdx.map fun (request, req_index) =>
    { run := context, req_index, request, state, tier_models, assembled_context }

/-- The stage contexts as the read-only walks over drafts build them. -/
def read_contexts (context : RunContext) (state : RunState) : List StageContext := contexts context state [] []

/-- `_plan`: the turns that can execute now, unit after unit; none unless the run is running. -/
def plan (context : RunContext) (state : RunState) (tier_models : List (Role × String))
    (assembled_context : List AssembledContextItem) : Except Error (List TurnSpec) :=
  if state.status ≠ .running then .ok []
  else do
    return (← (contexts context state tier_models assembled_context).mapM (plan_request x)).flatten

/-- `_plan` as the drivers call it. -/
def plan_run (context : RunContext) (state : RunState) : Except Error (List TurnSpec) :=
  plan x context state context.tier_models context.assembled_context

def find_spec_in (specs : List TurnSpec) (turn_id : TurnId) : Except Error TurnSpec :=
  match specs.find? (·.turn_id = turn_id) with
  | some spec => .ok spec
  | none => .error (.orchestrator s!"turn '{turn_id}' is not currently schedulable")

/-! ### Budget hard cap -/

/-- The cap in force: a raised cap wins over the launch cap. -/
def effective_cap (state : RunState) (context : RunContext) : Option Rat :=
  state.cap_raised_to.or context.hard_cap_usd

/-- Booked spend, with every unreconciled intent at its maximum. -/
def RunState.projected (state : RunState) : Rat := state.total_spend_usd + state.pending_intents.values.sum

def over_cap (state : RunState) (context : RunContext) : Bool :=
  (effective_cap state context).any (· ≤ state.projected)

/-- The units that are not complete, with the stage each stopped at: the body of the gaps report. -/
def unfinished_units (context : RunContext) (state : RunState) : Except Error (List (RequestId × Option StageName)) := do
  let found ← (read_contexts context state).mapM fun ctx => do
    if ← request_complete x ctx then return none
    else return some (ctx.request.request_id, ← first_incomplete_stage x ctx)
  return found.filterMap id

/-- Marks a running run capped, after its gaps report. -/
def cap_transition (context : RunContext) : VaultM Unit := do
  let state ← load_state
  if state.finished then return ()
  else do
    let _ ← Prog.lift (unfinished_units x context state)
    append (.run_finished .capped)

def raise_cap (to_usd : Rat) : VaultM Unit := do
  let _ ← load_run_context
  append (.cap_raised to_usd)

/-! ### Spend -/

/-- The spend events an invocation may be a replay of: those of its turn, and, without an identity,
    only those after the turn's last discard. -/
def prior_spend (events : List JournalEvent) (turn_id : TurnId) (provider_call_id : Option String) :
    List SpendRecorded :=
  events.foldl (fun prior event =>
    match event with
    | .turn_discarded id _ _ _ => if provider_call_id = none ∧ id = turn_id then [] else prior
    | .spend_recorded spend => if spend.turn_id = turn_id then prior ++ [spend] else prior
    | _ => prior) []

/-- Whether the invocation is already on the ledger. -/
def already_booked (events : List JournalEvent) (turn_id : TurnId) (usage : TokenUsage)
    (provider_call_id : Option String) : Bool :=
  (prior_spend events turn_id provider_call_id).any fun e =>
    match provider_call_id with
    | some id => e.provider_call_id = some id
    | none => (e.input_tokens, e.cache_read, e.cache_write, e.output_tokens, e.model) =
        (usage.input_tokens, usage.cache_read, usage.cache_write, usage.output_tokens, usage.model)

/-- The spend event of one provider call, priced at the planned model. -/
def spend_event (turn_id : TurnId) (usage : TokenUsage) (model : Option String) (on : Date)
    (provider_call_id : Option String) : SpendRecorded where
  turn_id
  input_tokens := usage.input_tokens
  cache_read := usage.cache_read
  cache_write := usage.cache_write
  output_tokens := usage.output_tokens
  model := usage.model
  usd_equiv := cost_of usage (match model with | none | some "" => usage.model | some planned => planned) on
  provider_call_id

/-- Books one provider call, unless `dedupe` finds it on the ledger. -/
def book_spend (turn_id : TurnId) (usage : Option TokenUsage) (model : Option String) (now : String)
    (dedupe : Bool) (provider_call_id : Option String) : VaultM Unit := do
  match usage with
  | none => return ()
  | some usage =>
    if dedupe && already_booked (← read_events) turn_id usage provider_call_id then return ()
    else do
      let on ← Prog.lift (date_of x now)
      append (.spend_recorded (spend_event turn_id usage model on provider_call_id))

/-- The retry ceiling of the run: the launch ceiling and every attempt granted since. -/
def effective_max_attempts (state : RunState) (max_attempts : Nat) : Nat := max_attempts + state.attempts_granted

/-- Books and counts a derailed turn; the attempt that exhausts the ceiling halts the run. -/
def discard (context : RunContext) (spec : TurnSpec) (reason detail : String) (usage : Option TokenUsage)
    (now : String) (provider_call_id : Option String) : VaultM DiscardedTurn := do
  book_spend x spec.turn_id usage spec.model now false provider_call_id
  let state ← load_state
  let attempt := (state.discarded.get? spec.turn_id).getD 0 + 1
  append (.turn_discarded spec.turn_id reason attempt detail)
  Prog.when (attempt ≥ effective_max_attempts state context.max_attempts) (append (.run_finished .needs_attention))
  return { turn_id := spec.turn_id, reason, attempt }

/-! ### Recording -/

/-- `_turn_gate_context`. -/
def turn_gate_context (context : RunContext) (spec : TurnSpec) (output : TurnOutput) : TurnGateContext :=
  let request_id := spec.request_id.getD ""
  let document := context.config.input_family = .document
  { output
    rubric := context.rubric
    request_code := if document then "document" else code_from_request_id request_id
    request_text := ((context.task_units.find? (·.request_id = request_id)).map (·.text)).getD ""
    facts := context.facts
    corpus_text := if output.as_draft.isOk ∧ ¬document then context.corpus_text else ""
    document
    evidence := context.evidence }

/-- The scores of one rubric seat; a criterion scored twice keeps its last score. -/
def panel_scores (scored : RubricScoreOutput) : List (String × Nat) :=
  (scored.scores.map fun s => (s.criterion_id, s.score)).reverse

/-- Journals the aggregated rubric verdict once the last seat of a request's panel has landed. -/
def maybe_emit_rubric_gate (context : RunContext) (spec : TurnSpec) : VaultM Unit := do
  if spec.stage ≠ .rubric_gate then return ()
  else
    let state ← load_state
    match (read_contexts context state).find? (some ·.request.request_id = spec.request_id) with
    | none => return ()
    | some ctx =>
      let seats := (upto context.config.panels.rubric_judges).map ctx.layout.rubric_final
      if !ctx.all_done seats then return ()
      else
        let panel_ids := seats.map ctx.layout.turn_id
        let emitted := (← read_events).any fun
          | .gate_evaluated turn_id result => result.gate = "rubric" && turn_id ∈ panel_ids
          | _ => false
        if emitted then return ()
        else do
          let panel ← Prog.lift (seats.mapM fun seq => do
            return panel_scores (← (← ctx.record seq).output.as_rubric))
          append (.gate_evaluated spec.turn_id
            (context.rubric.final_gate x panel ctx.code context.config.rubric_threshold))

/-- The completed drafts with their specs. -/
def completed_drafts (state : RunState) : List (TurnSpec × DraftOutput) :=
  state.completed_turns.values.filterMap fun record =>
    match record.output with
    | .draft draft => some (record.spec, draft)
    | _ => none

/-- Once every request is complete, finishes the run or blocks it on open hard-human decisions. -/
def finalize (context : RunContext) : VaultM Unit := do
  let state ← load_state
  if state.status ≠ .running ∧ state.status ≠ .needs_decisions then return ()
  else
    let complete ← Prog.lift ((read_contexts context state).allM (request_complete x))
    if !complete then return ()
    else do
      derive_drafts_and_store context.run_id (completed_drafts state) (context.config.input_family = .document)
      Prog.forEach (state.completed_turns.values.filter (·.spec.stage = .rubric_gate)) fun record =>
        maybe_emit_rubric_gate x context record.spec
      if open_by_taxonomy (← Prog.read).decisions context.matter .hard_human ≠ [] then
        if state.status ≠ .needs_decisions then append (.run_finished .needs_decisions) else return ()
      else append (.run_finished .finished)

def CHECKPOINT_STAGE_ORDER : List StageName := [.partner_loop, .oc_attack, .judge_panel, .narrative_assessment]

/-- Gated mode: pauses a running run poised to enter a checkpoint stage, or on open delegable decisions. -/
def maybe_checkpoint (context : RunContext) : VaultM Unit := do
  let state ← load_state
  if state.mode ≠ .gated ∨ state.status ≠ .running then return ()
  else
    let specs ← Prog.lift (plan x context state context.tier_models [])
    match (specs.map (·.stage)).dedup with
    | [stage] =>
      if stage ∈ CHECKPOINT_STAGE_ORDER ∧ stage.value ∉ state.cleared_checkpoints then
        append (.checkpoint_reached stage.value)
      else checkpoint_decisions context state
    | _ => checkpoint_decisions context state
where
  checkpoint_decisions (context : RunContext) (state : RunState) : VaultM Unit := do
    if "policy_decisions" ∉ state.cleared_checkpoints ∧
        open_by_taxonomy (← Prog.read).decisions context.matter .policy_delegable ≠ [] then
      append (.checkpoint_reached "policy_decisions")
    else return ()

/-- The outcome of recording a turn. -/
inductive Recorded where
  | completed (record : TurnRecord)
  | discarded (turn : DiscardedTurn)
  deriving DecidableEq, Repr

/-- The decisions a recorded draft implies. -/
def derive_decisions_of (context : RunContext) (record : TurnRecord) : VaultM Unit :=
  match record.output with
  | .draft draft =>
    derive_drafts_and_store context.run_id [(record.spec, draft)] (context.config.input_family = .document)
  | _ => pure ()

/-- What follows an accepted turn: the cap, or finalization and the gated checkpoint. -/
def settle (context : RunContext) : VaultM Unit := do
  if over_cap (← load_state) context then cap_transition x context
  else do
    finalize x context
    maybe_checkpoint x context

/-- Books, completes and follows up a turn whose output was accepted. -/
def accept_turn (context : RunContext) (spec : TurnSpec) (output : TurnOutput) (gate_results : List GateResult)
    (state : RunState) (usage : Option TokenUsage) (now : String) (provider_call_id : Option String) :
    VaultM TurnRecord := do
  Prog.when (some spec.stage ≠ state.current_stage) (append (.stage_started spec.stage))
  let record ← write_turn_body { spec, output, gate_results, completed_at := now }
  derive_decisions_of context record
  book_spend x spec.turn_id usage spec.model now provider_call_id.isSome provider_call_id
  append (.turn_completed record)
  maybe_emit_rubric_gate x context spec
  settle x context
  return record

/-- `_record_spec`: validates the raw output, runs the turn gates, and accepts or discards the turn.
    `state` is the state the turn was planned in. -/
def record_spec (context : RunContext) (spec : TurnSpec) (raw_text : String) (usage : Option TokenUsage)
    (now : String) (state : RunState) (provider_call_id : Option String) : VaultM Recorded := do
  match x.model_validate_json spec.output_schema_name raw_text with
  | .error errors => do
    let listed := "; ".intercalate ((errors.take 6).map fun e => s!"{e.1}: {e.2}")
    return .discarded (← discard x context spec s!"schema-invalid: {errors.length} error(s)"
      s!"your previous output failed {spec.output_schema_name.value} validation — {listed}" usage now
      provider_call_id)
  | .ok output => do
    let gate_run ← Prog.lift (evaluate_turn_gates x context.config.gates (turn_gate_context context spec output))
    Prog.forEach gate_run.results fun result => append (.gate_evaluated spec.turn_id result)
    match gate_run.halted_by, gate_run.results.getLast? with
    | some _, some gate => do
      let reasons := "; ".intercalate (gate.findings.map (·.code))
      let listed := "; ".intercalate ((gate.findings.take 6).map fun f => s!"{f.code}: {f.message}")
      return .discarded (← discard x context spec s!"degenerate: {reasons}"
        s!"your previous output was discarded by the {gate.gate} gate — {listed}" usage now provider_call_id)
    | _, _ => return .completed (← accept_turn x context spec output gate_run.results state usage now provider_call_id)

/-- `record_turn`: a completed turn only books its call; any other turn must be schedulable now. -/
def record_turn (free : Bool) (turn_id : TurnId) (raw_text : String) (usage : Option TokenUsage) (now : String)
    (provider_call_id : Option String) : VaultM Recorded :=
  with_lock free do
    let context ← load_run_context
    let state ← load_state
    match state.completed_turns.get? turn_id with
    | some record => do
      book_spend x turn_id usage record.spec.model now true provider_call_id
      finalize x context
      return .completed record
    | none => do
      let specs ← Prog.lift (plan_run x context state)
      let spec ← Prog.lift (find_spec_in specs turn_id)
      record_spec x context spec raw_text usage now state provider_call_id

end MootLoop
