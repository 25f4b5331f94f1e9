import MootLoop.CheckRunner
import MootLoop.ExportService

/-! The run as a concurrent system: operator commands and edits, an in-process provider driver, and any
    number of queue workers over one vault. Each action is a program over the vault that ends in the actor's next
    phase. A process may die inside any of them, which leaves some prefix of the program's writes. -/

namespace MootLoop
open Durable

variable (x : Externals) (t : Publishing)

/-! ### Workers -/

inductive ItemKind where
  | run_turn
  | judge_profile
  | production_suggestions
  | citation_propositions
  | unknown (kind : String)
  deriving DecidableEq, Repr

/-- A claimed unit of queue work. -/
structure WorkItem where
  item_id : String
  kind : ItemKind
  attempts : Nat
  deriving DecidableEq, Repr

/-- How a provider call ends for its caller. -/
inductive CallOutcome where
  | result (result : RawTurnResult)
  | seat_limit
  | auth_error
  | permission_denied
  | turn_error
  | lost
  | unexpected
  deriving DecidableEq, Repr

/-- Where a worker stands in `_drain`. -/
inductive WorkerPhase where
  | idle
  | claimed (item : WorkItem)
  | looping (item : WorkItem)
  | capping (item : WorkItem) (prompting : Bool)
  | closing (item : WorkItem)
  | planned (item : WorkItem) (spec : TurnSpec)
  | reserved (item : WorkItem) (spec : TurnSpec)
  | prompted (item : WorkItem) (spec : TurnSpec)
  | calling (item : WorkItem) (spec : TurnSpec)
  | returned (item : WorkItem) (spec : TurnSpec) (result : RawTurnResult)
  | recorded (item : WorkItem)
  | seat_limited (item : WorkItem)
  | attention (item : WorkItem)
  | failing (item : WorkItem)
  | citing (item : WorkItem) (prepared : PreparedPropositionChecks) (bundles : List PropositionEvidenceBundle)
      (unresolved : List CitationProposition)
  | cite_ready (item : WorkItem) (prepared : PreparedPropositionChecks) (bundle : PropositionEvidenceBundle)
      (spec : TurnSpec) (bundles : List PropositionEvidenceBundle) (unresolved : List CitationProposition)
  | cite_calling (item : WorkItem) (prepared : PreparedPropositionChecks) (bundle : PropositionEvidenceBundle)
      (spec : TurnSpec) (bundles : List PropositionEvidenceBundle) (unresolved : List CitationProposition)
  | cite_returned (item : WorkItem) (prepared : PreparedPropositionChecks) (bundle : PropositionEvidenceBundle)
      (spec : TurnSpec) (result : RawTurnResult) (bundles : List PropositionEvidenceBundle)
      (unresolved : List CitationProposition)
  deriving DecidableEq, Repr

/-- Whether the worker holds the run lock between its actions. -/
def WorkerPhase.holds_lock : WorkerPhase → Bool
  | .cite_ready .. | .cite_calling .. | .cite_returned .. => true
  | _ => false

/-- The item a worker has claimed. -/
def WorkerPhase.item : WorkerPhase → Option WorkItem
  | .idle => none
  | .claimed item | .looping item | .capping item _ | .closing item | .planned item _ | .reserved item _
  | .prompted item _ | .calling item _ | .returned item _ _ | .recorded item | .seat_limited item
  | .attention item | .failing item | .citing item _ _ _ | .cite_ready item _ _ _ _ _
  | .cite_calling item _ _ _ _ _ | .cite_returned item _ _ _ _ _ _ => some item

/-- A worker's next action. `free` is whether it finds the run lock free; times and outcomes come from
    outside. -/
inductive WorkerAction where
  | claim (item : WorkItem)
  | dispatch (free : Bool) (now : String) (lookup : AuthorityLookup)
  | stop
  | plan
  | cap (free : Bool)
  | close (free : Bool)
  | reserve (free : Bool) (on : Date)
  | prompt
  | call
  | answer (outcome : CallOutcome)
  | record (free : Bool) (now : String)
  | heartbeat (kept : Bool)
  | pause (free : Bool)
  | attend (free : Bool)
  | poison (free : Bool)
  | check (free : Bool) (now : String)
  | fail

/-- Whether the action needs the run lock free. -/
def WorkerAction.free : WorkerAction → Bool
  | .dispatch free _ _ | .cap free | .close free | .reserve free _ | .record free _ | .pause free
  | .attend free | .poison free | .check free _ => free
  | _ => false

/-- The start of `_drain`, by the kind of the item. -/
def dispatch (item : WorkItem) (free : Bool) (now : String) (lookup : AuthorityLookup) : VaultM WorkerPhase := do
  match item.kind with
  | .judge_profile | .production_suggestions =>
    -- this work reads and writes nothing the run folds from
    return .idle
  | .citation_propositions => do
    let prepared ← prepare_run_proposition_checks x now lookup
    return .citing item prepared prepared.bundles prepared.unresolved
  | .unknown kind => throw (.value s!"unknown work item kind: {kind}")
  | .run_turn => do
    let state ← load_state
    Prog.when (state.status = .paused ∧ state.pause_reason = some "capacity") (resume_run free)
    return .looping item

/-- `assemble_prompt` of the planned turn. -/
def assemble_prompt (item : WorkItem) (spec : TurnSpec) : VaultM WorkerPhase := do
  let context ← load_run_context
  match ← plan_read x with
  | .over_cap => return .capping item true
  | .specs specs => do
    let found ← Prog.lift (find_spec specs spec.turn_id)
    let _ ← Prog.lift (persona_body context found.persona)
    return .prompted item spec

/-- One pass over a citation bundle. A lock held elsewhere ends the item's processing. -/
def check_bundle (free : Bool) (now : String) (item : WorkItem) (prepared : PreparedPropositionChecks)
    (unresolved : List CitationProposition) : List PropositionEvidenceBundle → VaultM WorkerPhase
  | [] => do
    close_checks x prepared unresolved now
    return .idle
  | bundle :: rest => do
    match ← (open_check x free bundle now).attempt with
    | .error (.lockHeld _) => return .idle
    | .error e => throw e
    | .ok .recorded => return .citing item prepared rest unresolved
    | .ok .capped => return .citing item prepared rest (unresolved ++ [bundle.proposition])
    | .ok (.call spec) => return .cite_ready item prepared bundle spec rest unresolved

/-- `_on_poison`: back off, then dead-letter, with every vault failure suppressed. -/
def on_poison (max_attempts : Nat) (item : WorkItem) (free : Bool) : VaultM WorkerPhase := do
  if item.attempts < max_attempts then return .idle
  else do
    let _ ← (finish_needs_attention free).attempt
    return .idle

/-- What a worker's action does in a phase, and the phase it leads to; `none` when the action does not
    belong to the phase. -/
def worker_action (max_attempts : Nat) : WorkerPhase → WorkerAction → Option (VaultM WorkerPhase)
  | .idle, .claim item => some (return .claimed item)
  | .claimed item, .dispatch free now lookup => some (dispatch x item free now lookup)
  | .looping _, .stop => some (return .idle)
  | .looping item, .plan => some do
    match ← plan_read x with
    | .over_cap => return .capping item false
    | .specs [] => return .closing item
    | .specs (spec :: _) => return .planned item spec
  | .capping item prompting, .cap free => some do
    plan_cap x free
    if prompting then throw (.orchestrator "turn is not schedulable") else return .closing item
  | .closing _, .close free => some (with_lock free do
    finalize_if_ready x
    return .idle)
  | .planned item spec, .reserve free on => some do
    let model := match spec.model with | none | some "" => "claude" | some model => model
    record_turn_intent free { turn_id := spec.turn_id, model, max_plausible_usd := max_plausible_cost model on }
    return .reserved item spec
  | .reserved item spec, .prompt => some (assemble_prompt x item spec)
  | .prompted item spec, .call => some (return .calling item spec)
  | .prompted _ _, .heartbeat false => some (return .idle)
  | .calling item spec, .answer outcome =>
    match outcome with
    | .result result => some (return .returned item spec result)
    | .seat_limit => some (return .seat_limited item)
    | .auth_error | .permission_denied => some (return .attention item)
    | .turn_error => some (return if item.attempts ≥ max_attempts then .attention item else .idle)
    | .lost => some (return .idle)
    | .unexpected => some (return .failing item)
  | .returned item spec result, .record free now => some do
    let _ ← record_turn x free spec.turn_id result.text result.usage now result.provider_call_id
    return .recorded item
  | .recorded item, .heartbeat kept => some (return if kept then .looping item else .idle)
  | .seat_limited _, .pause free => some do
    pause_run free "capacity"
    return .idle
  | .attention _, .attend free => some do
    finish_needs_attention free
    return .idle
  | .failing item, .poison free => some (on_poison max_attempts item free)
  | .citing item prepared bundles unresolved, .check free now =>
    some (check_bundle x free now item prepared unresolved bundles)
  | .cite_ready item prepared bundle spec bundles unresolved, .call =>
    some (return .cite_calling item prepared bundle spec bundles unresolved)
  | .cite_ready .., .heartbeat false => some (return .idle)
  | .cite_calling item prepared bundle spec bundles unresolved, .answer outcome =>
    match outcome with
    | .result result => some (return .cite_returned item prepared bundle spec result bundles unresolved)
    | .lost => some (return .idle)
    | _ => some (return .failing item)
  | .cite_returned item prepared bundle _ result bundles unresolved, .record _ now => some do
    record_completed_check x (← load_run_context) bundle result now
    return .citing item prepared bundles unresolved
  | phase, .fail => phase.item.map fun item => return .failing item
  | _, _ => none

/-- The phase an ended action leaves: an exception makes the item poison. -/
def WorkerPhase.after (phase : WorkerPhase) : Except Error WorkerPhase → WorkerPhase
  | .ok next => next
  | .error _ => phase.item.elim .idle .failing

/-! ### The provider driver -/

/-- Where `run_with_provider` stands. -/
inductive DriverPhase where
  | idle
  | looping
  | batch (specs : List TurnSpec)
  | ready (spec : TurnSpec) (fresh : RunState) (rest : List TurnSpec)
  | calling (spec : TurnSpec) (fresh : RunState) (rest : List TurnSpec)
  | returned (spec : TurnSpec) (fresh : RunState) (rest : List TurnSpec) (result : RawTurnResult)

/-- The driver holds the run lock from its start to its end. -/
def DriverPhase.holds_lock : DriverPhase → Bool
  | .idle => false
  | _ => true

inductive DriverAction where
  | start (free : Bool)
  | iterate
  | next
  | call
  | answer (result : Option RawTurnResult)
  | record (now : String)

def DriverAction.free : DriverAction → Bool
  | .start free => free
  | _ => false

/-- One turn of the `while` loop, up to the batch it plans. -/
def drive_iterate : VaultM DriverPhase := do
  let context ← load_run_context
  let state ← load_state
  if state.finished then return .idle
  else if over_cap state context then do
    cap_transition x context
    return .idle
  else do
    match ← Prog.lift (plan_run x context state) with
    | [] => do
      finalize x context
      return .idle
    | specs => return .batch specs

/-- The head of the `for` loop: a spec is skipped once the run stopped or the turn is completed. -/
def drive_next : List TurnSpec → VaultM DriverPhase
  | [] => return .looping
  | spec :: rest => do
    let fresh ← load_state
    if fresh.finished || fresh.is_completed spec.turn_id then return .batch rest
    else return .ready spec fresh rest

def driver_action : DriverPhase → DriverAction → Option (VaultM DriverPhase)
  | .idle, .start free => some (with_lock free do
    let _ ← load_run_context
    return .looping)
  | .looping, .iterate => some (drive_iterate x)
  | .batch specs, .next => some (drive_next specs)
  | .ready spec fresh rest, .call => some (return .calling spec fresh rest)
  | .calling spec fresh rest, .answer result =>
    match result with
    | some result => some (return .returned spec fresh rest result)
    | none => some (return .idle)
  | .returned spec fresh rest result, .record now => some do
    let context ← load_run_context
    let _ ← record_spec x context spec result.text result.usage now fresh result.provider_call_id
    return .batch rest
  | _, _ => none

/-- The phase an ended action leaves: an exception ends the driver. -/
def DriverPhase.after : Except Error DriverPhase → DriverPhase
  | .ok next => next
  | .error _ => .idle

/-! ### Commands -/

/-- A command from outside the run: an operator's, an API call's, or a stepwise driver's. The last three
    are edits by hand. -/
inductive Command where
  | start_run (sha256 : Digest) (context : RunContext)
  | plan_next
  | record_turn (turn_id : TurnId) (raw_text : String) (usage : Option TokenUsage) (now : String)
      (provider_call_id : Option String)
  | pause_run (reason : String)
  | resume_run
  | continue_run
  | raise_cap (to_usd : Rat)
  | reopen_run (reason : String) (grant_attempts : Nat) (reopened_by : String)
  | resolve (decision_id : DecisionId) (action : ResolutionAction) (key : Option String)
      (note decided_by source now : String)
  | verify_citations (now : String) (outcome : Citation → VerificationRecord) (max_cache_age_days : Nat)
  | curate (record : VerificationRecord)
  | attest (reviewer now : String)
  | check_attestation (now : String)
  | export_run (pandoc force_draft : Bool) (now : String)
  | record_access (ts actor action matter_id resource : String)
  | edit_deliverable (path text : String)
  | delete_deliverable (path : String)
  | edit_matter (matter : MatterConfig)

/-- The program of a command. -/
def command_prog (free : Bool) : Command → VaultM Unit
  | .start_run sha256 context => start_run x free sha256 context
  | .plan_next => do
    let _ ← plan_next x free
    return ()
  | .record_turn turn_id raw_text usage now provider_call_id => do
    let _ ← record_turn x free turn_id raw_text usage now provider_call_id
    return ()
  | .pause_run reason => pause_run free reason
  | .resume_run => resume_run free
  | .continue_run => continue_run free
  | .raise_cap to_usd => raise_cap_command free to_usd
  | .reopen_run reason grant_attempts reopened_by => reopen_run free reason grant_attempts reopened_by
  | .resolve decision_id action key note decided_by source now =>
    resolve x free decision_id action key note decided_by source now
  | .verify_citations now outcome max_cache_age_days => verify_run_citations x now outcome max_cache_age_days
  | .curate record => Prog.write (.verification record)
  | .attest reviewer now => attest t free reviewer now
  | .check_attestation now => check_attestation t free now
  | .export_run pandoc force_draft now => do
    let _ ← export_run x t free pandoc force_draft now
    return ()
  | .record_access ts actor action matter_id resource => record_access t ts actor action matter_id resource
  | .edit_deliverable path text => Prog.write (.deliverable path text)
  | .delete_deliverable path => Prog.write (.unlink path)
  | .edit_matter matter => Prog.write (.matter matter)

/-! ### The system -/

/-- The vault and the processes over it. -/
structure System where
  vault : Vault
  workers : Nat → WorkerPhase := fun _ => .idle
  driver : DriverPhase := .idle

/-- Some process holds the run lock. -/
def System.Locked (s : System) : Prop := s.driver.holds_lock ∨ ∃ w, (s.workers w).holds_lock

/-- What a step of the system does: who acts, from which phase, and whether it dies in the act. -/
inductive Label where
  | command (free : Bool) (command : Command) (dies : Bool)
  | worker (w : Nat) (phase : WorkerPhase) (action : WorkerAction) (dies : Bool)
  | driver (phase : DriverPhase) (action : DriverAction) (dies : Bool)

/-- The turn a step starts a provider call for. -/
def Label.calls : Label → Option TurnSpec
  | .worker _ (.prompted _ spec) .call _ => some spec
  | .worker _ (.cite_ready _ _ _ spec _ _) .call _ => some spec
  | .driver (.ready spec _ _) .call _ => some spec
  | _ => none

/-- The vault a program leaves: its end, or, when the process dies in it, a crash. -/
def Leaves {α : Type} (p : VaultM α) (dies : Bool) (v v' : Vault) : Prop :=
  if dies then Prog.Crash p v v' else v' = p.final v

inductive Step (max_attempts : Nat) (s : System) : Label → System → Prop
  | command {free : Bool} {command : Command} {dies : Bool} {v : Vault}
      (lock : free = true → ¬s.Locked)
      (leaves : Leaves (command_prog x t free command) dies s.vault v) :
      Step max_attempts s (.command free command dies) { s with vault := v }
  | worker {w : Nat} {action : WorkerAction} {p : VaultM WorkerPhase} {dies : Bool} {v : Vault}
      (acts : worker_action x max_attempts (s.workers w) action = some p)
      (lock : action.free = true → ¬s.Locked)
      (leaves : Leaves p dies s.vault v) :
      Step max_attempts s (.worker w (s.workers w) action dies)
        { s with
          vault := v
          workers := Function.update s.workers w
            (if dies then .idle else (s.workers w).after (p s.vault).2) }
  | driver {action : DriverAction} {p : VaultM DriverPhase} {dies : Bool} {v : Vault}
      (acts : driver_action x s.driver action = some p)
      (lock : action.free = true → ¬s.Locked)
      (leaves : Leaves p dies s.vault v) :
      Step max_attempts s (.driver s.driver action dies)
        { s with
          vault := v
          driver := if dies then .idle else DriverPhase.after (p s.vault).2 }

/-- A run's start: an empty journal and no process at work. -/
def System.initial (run_id : RunId) (matter : MatterConfig) : System := { vault := { run_id, matter } }

end MootLoop
