import MootLoop.Orchestrator

/-! The commands of a run: launching, planning, prompting, pausing, resuming, reopening, continuing and
    deciding. Each takes the run lock itself; `free` says whether it is free. -/

namespace MootLoop
open Durable

variable (x : Externals)

/-- Begins a run on its launch snapshot; a run that has started is not begun again. -/
def start_run (free : Bool) (sha256 : Digest) (context : RunContext) : VaultM Unit :=
  with_lock free do
    let v ← Prog.read
    if v.journal ≠ [] then throw (.orchestrator s!"run '{v.run_id}' has already started")
    else do
      Prog.write (.manifest sha256 context)
      append (.run_started
        { run_id := context.run_id, task := context.task, rubric_version := context.rubric.rubric_id,
          context_manifest_sha256 := some sha256, mode := context.run_mode })
      finalize x context

/-- What `plan_next` finds: the turns that can run now, or a cap to settle under the lock. -/
inductive Planned where
  | specs (specs : List TurnSpec)
  | over_cap
  deriving DecidableEq, Repr

/-- The read of `plan_next`: it plans nothing for a paused run, and checks the cap of a running one. -/
def plan_read : VaultM Planned := do
  let context ← load_run_context
  let state ← load_state
  if state.status = .paused then return .specs []
  else if !state.finished && over_cap state context then return .over_cap
  else return .specs (← Prog.lift (plan_run x context state))

/-- The locked part of `plan_next`: the graceful cap checkpoint. -/
def plan_cap (free : Bool) : VaultM Unit :=
  with_lock free do cap_transition x (← load_run_context)

/-- `plan_next`. -/
def plan_next (free : Bool) : VaultM (List TurnSpec) := do
  match ← plan_read x with
  | .specs specs => return specs
  | .over_cap => do
    plan_cap x free
    return []

/-- The turn as `find_spec` looks it up among the planned ones. -/
def find_spec (specs : List TurnSpec) (turn_id : TurnId) : Except Error TurnSpec :=
  match specs.find? (·.turn_id = turn_id) with
  | some spec => .ok spec
  | none => .error (.orchestrator s!"turn '{turn_id}' is not schedulable")

/-- The persona body a turn is prompted with. -/
def persona_body (context : RunContext) (persona : PersonaName) : Except Error String :=
  match context.persona_bodies.lookup persona with
  | some body => .ok body
  | none => .error (.value "no persona body")

def record_turn_intent (free : Bool) (event : TurnIntent) : VaultM Unit :=
  with_lock free do
    let _ ← load_run_context
    append (.turn_intent event)

def finish_needs_attention (free : Bool) : VaultM Unit :=
  with_lock free do
    let _ ← load_run_context
    append (.run_finished .needs_attention)

/-- Re-runs finalization, for a run that has started and is running or blocked on decisions. -/
def finalize_if_ready : VaultM Unit := do
  let state ← load_state
  if state.task = none ∨ (state.status ≠ .running ∧ state.status ≠ .needs_decisions) then return ()
  else finalize x (← load_run_context)

def raise_cap_command (free : Bool) (to_usd : Rat) : VaultM Unit := with_lock free (raise_cap to_usd)

/-- Pauses a run that is not complete for good. -/
def pause_run (free : Bool) (reason : String) : VaultM Unit :=
  with_lock free do
    let context ← load_run_context
    let state ← load_state
    if state.is_terminal then
      throw (.orchestrator s!"run '{context.run_id}' is complete ({state.status.value}); cannot pause")
    else append (.run_paused reason)

def resume_run (free : Bool) : VaultM Unit :=
  with_lock free do
    let context ← load_run_context
    let state ← load_state
    if state.status ≠ .paused then throw (.orchestrator s!"run '{context.run_id}' is not paused")
    else append .run_resumed

/-- The boundary of the last checkpoint reached. -/
def last_boundary (events : List JournalEvent) : String :=
  events.foldl (fun boundary event =>
    match event with
    | .checkpoint_reached reached => reached
    | _ => boundary) "unknown"

/-- Clears a gated checkpoint. -/
def continue_run (free : Bool) : VaultM Unit :=
  with_lock free do
    let context ← load_run_context
    let state ← load_state
    if state.status ≠ .checkpoint then
      throw (.orchestrator s!"run '{context.run_id}' is not paused at a checkpoint")
    else append (.checkpoint_cleared (last_boundary (← read_events)))

/-- The turns that burned their whole retry budget without completing, under a prospective grant. -/
def attention_blockers (context : RunContext) (state : RunState) (grant_attempts : Nat) : List (TurnId × Nat) :=
  let ceiling := effective_max_attempts state context.max_attempts + grant_attempts
  (state.discarded.entries.insertionSort fun a b => a.1 ≤ b.1).filter fun entry =>
    ceiling ≤ entry.2 ∧ ¬state.is_completed entry.1

/-- Reopens a `needs_attention` run, for a reason, once no turn is counter-capped. -/
def reopen_run (free : Bool) (reason : String) (grant_attempts : Nat) (reopened_by : String) : VaultM Unit :=
  if isBlank reason then throw (.orchestrator "reopen requires a non-empty reason (it is the audit trail)")
  else
    with_lock free do
      let context ← load_run_context
      let state ← load_state
      if state.status ≠ .needs_attention then
        throw (.orchestrator s!"run '{context.run_id}' is not blocked on attention (status='{state.status.value}')")
      else
        let blockers := attention_blockers context state grant_attempts
        if blockers ≠ [] then
          let ceiling := effective_max_attempts state context.max_attempts + grant_attempts
          let listed := "; ".intercalate (blockers.map fun b =>
            s!"{b.1} ({b.2} discarded attempt(s) against a ceiling of {ceiling}; no completed turn recorded)")
          throw (.orchestrator s!"run '{context.run_id}' still has {blockers.length} unresolved blocker(s) caused by spent retry budget: {listed}. Grant retry budget with --grant-attempts N after fixing what derailed the turn.")
        else append (.run_reopened (strip reason) grant_attempts reopened_by)

/-! ### Decisions -/

/-- Journals a resolution once; a different journaled resolution of the decision is a conflict. -/
def record_resolution_event (decision : Decision) (resolution : DecisionResolution) : VaultM Unit := do
  let event : DecisionRecorded :=
    { decision_id := decision.decision_id, decision_kind := decision.kind.value,
      action := resolution.action.value, status := decision.status.value,
      decided_by := resolution.decided_by, source := resolution.source, decided_at := resolution.decided_at }
  let existing := (← read_events).filterMap fun
    | .decision_recorded recorded => if recorded.decision_id = decision.decision_id then some recorded else none
    | _ => none
  match existing.getLast? with
  | none => append (.decision_recorded event)
  | some recorded =>
    if (recorded.action, recorded.status, recorded.decided_by, recorded.source, recorded.decided_at) =
        (event.action, event.status, event.decided_by, event.source, event.decided_at) then return ()
    else throw (.decision s!"decision '{decision.decision_id}' has a conflicting journal record")

/-- The key a resolution chooses: an approval defaults to the recommendation. -/
def chosen_key (decision : Decision) (action : ResolutionAction) (key : Option String) : Option String :=
  if action = .approve then some (match key with | none | some "" => decision.proposal.recommended | some k => k)
  else key

/-- `decisions.resolve`: records the resolution of an open decision, or repairs the tail of the same
    resolution, and re-finalizes the run. -/
def resolve (free : Bool) (decision_id : DecisionId) (action : ResolutionAction) (key : Option String)
    (note decided_by source now : String) : VaultM Unit :=
  with_lock free do
    let _ ← load_run_context
    match (folded_decisions (← Prog.read).decisions).get? decision_id with
    | none => throw (.decision s!"unknown decision '{decision_id}'")
    | some decision =>
      if action = .modify ∧ (key = none ∨ key = some "") then
        throw (.decision "a 'modify' resolution requires --choose <key>")
      else
        let chosen := chosen_key decision action key
        if chosen.any fun k => !decision.proposal.options.any (·.key = k) then
          throw (.decision s!"chosen key is not an option for decision '{decision_id}'")
        else
          let requested : DecisionResolution :=
            { action, chosen_key := chosen, note, decided_by, source, decided_at := now }
          if decision.status ≠ .open then
            match decision.resolution with
            | none => throw (.decision s!"decision '{decision_id}' is already {decision.status.value}; decisions never regress")
            | some stored =>
              if { stored with decided_at := now } ≠ requested then
                throw (.decision
                  s!"decision '{decision_id}' is already {decision.status.value}; decisions never regress")
              else do
                record_resolution_event decision stored
                finalize_if_ready x
          else do
            let resolved := { decision with status := STATUS_FOR_ACTION action, resolution := some requested }
            Prog.write (.decision resolved)
            record_resolution_event resolved requested
            finalize_if_ready x

end MootLoop
