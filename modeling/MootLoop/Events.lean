import MootLoop.Task

/-! Journal events, the run state they fold into, and the fold. The journal is the single source of
    truth: state is always derived by replaying it. -/

namespace MootLoop

inductive RunStatus where
  | running
  | finished
  | needs_attention
  | capped
  | needs_decisions
  | checkpoint
  | paused
  deriving DecidableEq, Repr, Inhabited

def RunStatus.value : RunStatus → String
  | .running => "running"
  | .finished => "finished"
  | .needs_attention => "needs_attention"
  | .capped => "capped"
  | .needs_decisions => "needs_decisions"
  | .checkpoint => "checkpoint"
  | .paused => "paused"

/-- One metered provider call. -/
structure SpendRecorded where
  turn_id : TurnId
  input_tokens : Nat
  cache_read : Nat
  cache_write : Nat
  output_tokens : Nat
  model : String
  usd_equiv : Rat
  provider_call_id : Option String := none
  deriving DecidableEq, Repr

/-- Spend reserved before a provider call. -/
structure TurnIntent where
  turn_id : TurnId
  model : String
  max_plausible_usd : Rat
  deriving DecidableEq, Repr

structure RunStarted where
  run_id : RunId
  task : String
  rubric_version : String
  context_manifest_sha256 : Option Digest := none
  mode : RunMode := .autonomous
  deriving DecidableEq, Repr

/-- The journal's audit trail of a resolved decision. -/
structure DecisionRecorded where
  decision_id : DecisionId
  decision_kind : String
  action : String
  status : String
  decided_by : String
  source : String
  decided_at : String
  deriving DecidableEq, Repr

inductive JournalEvent where
  | run_started (event : RunStarted)
  | run_enqueued (item_id : String) (payload_sha256 : Digest)
  | stage_started (stage : StageName)
  | turn_completed (record : TurnRecord)
  | turn_discarded (turn_id : TurnId) (reason : String) (attempt : Nat) (detail : String)
  | gate_evaluated (turn_id : TurnId) (result : GateResult)
  | spend_recorded (event : SpendRecorded)
  | run_finished (status : RunStatus)
  | cap_raised (to_usd : Rat)
  | decision_recorded (event : DecisionRecorded)
  | checkpoint_reached (boundary : String)
  | checkpoint_cleared (boundary : String)
  | run_paused (reason : String)
  | run_resumed
  | run_reopened (reason : String) (grant_attempts : Nat) (reopened_by : String)
  | turn_intent (event : TurnIntent)
  deriving DecidableEq, Repr

/-- The view a fold derives: never persisted, always recomputed. -/
structure RunState where
  run_id : Option RunId := none
  task : Option String := none
  rubric_version : Option String := none
  context_manifest_sha256 : Option Digest := none
  mode : RunMode := .autonomous
  status : RunStatus := .running
  pause_reason : Option String := none
  current_stage : Option StageName := none
  completed_turns : Dict TurnId TurnRecord := ∅
  discarded : Dict TurnId Nat := ∅
  discard_details : Dict TurnId String := ∅
  cleared_checkpoints : List String := []
  total_spend_usd : Rat := 0
  total_input_tokens : Nat := 0
  total_cache_read : Nat := 0
  total_cache_write : Nat := 0
  total_output_tokens : Nat := 0
  cap_raised_to : Option Rat := none
  attempts_granted : Nat := 0
  pending_intents : Dict TurnId Rat := ∅

namespace RunState

/-- Not schedulable right now. -/
def finished (state : RunState) : Bool := state.status ≠ .running

/-- No resume reopens the run. -/
def is_terminal (state : RunState) : Bool :=
  state.status = .finished ∨ state.status = .needs_attention ∨ state.status = .capped

def is_completed (state : RunState) (turn_id : TurnId) : Bool := state.completed_turns.contains turn_id

/-- The effect of one event on the folded state. -/
def apply (state : RunState) : JournalEvent → RunState
  | .run_started event =>
    { state with run_id := some event.run_id, task := some event.task,
                 rubric_version := some event.rubric_version,
                 context_manifest_sha256 := event.context_manifest_sha256, mode := event.mode }
  | .stage_started stage => { state with current_stage := some stage }
  | .turn_completed record =>
    { state with completed_turns := state.completed_turns.insert record.spec.turn_id record }
  | .turn_discarded turn_id _ attempt detail =>
    { state with discarded := state.discarded.insert turn_id attempt,
                 discard_details :=
                   if detail = "" then state.discard_details else state.discard_details.insert turn_id detail }
  | .spend_recorded event =>
    { state with total_spend_usd := state.total_spend_usd + event.usd_equiv,
                 total_input_tokens := state.total_input_tokens + event.input_tokens,
                 total_cache_read := state.total_cache_read + event.cache_read,
                 total_cache_write := state.total_cache_write + event.cache_write,
                 total_output_tokens := state.total_output_tokens + event.output_tokens,
                 pending_intents := state.pending_intents.erase event.turn_id }
  | .turn_intent event =>
    { state with pending_intents := state.pending_intents.insert event.turn_id event.max_plausible_usd }
  | .run_finished status => { state with status }
  | .cap_raised to_usd =>
    { state with cap_raised_to := some to_usd,
                 status := if state.status = .capped then .running else state.status }
  | .checkpoint_reached _ => { state with status := .checkpoint }
  | .checkpoint_cleared boundary =>
    { state with cleared_checkpoints :=
                   if boundary ∈ state.cleared_checkpoints then state.cleared_checkpoints
                   else state.cleared_checkpoints ++ [boundary],
                 status := if state.status = .checkpoint then .running else state.status }
  | .run_paused reason => { state with status := .paused, pause_reason := some reason }
  | .run_resumed =>
    if state.status = .paused then { state with status := .running, pause_reason := none } else state
  | .run_reopened _ grant_attempts _ =>
    { state with attempts_granted := state.attempts_granted + grant_attempts,
                 status := if state.status = .needs_attention then .running else state.status }
  | .gate_evaluated _ _ | .decision_recorded _ | .run_enqueued _ _ => state

end RunState

/-- Replays events into the derived state. -/
def fold (events : List JournalEvent) : RunState := events.foldl RunState.apply {}

@[simp] theorem fold_nil : fold [] = {} := rfl

theorem fold_append (a b : List JournalEvent) : fold (a ++ b) = b.foldl RunState.apply (fold a) :=
  List.foldl_append

@[simp] theorem fold_snoc (events : List JournalEvent) (event : JournalEvent) :
    fold (events ++ [event]) = (fold events).apply event := by
  simp [fold_append]

end MootLoop
