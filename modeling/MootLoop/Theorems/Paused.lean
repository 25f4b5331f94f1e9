import MootLoop.Theorems.Runs

/-! A run an operator paused. Nothing plans or calls while it is paused, but the pause has one reason for
    operator and worker alike, and a worker resumes what a worker paused. -/

namespace MootLoop
open Durable Transition

variable {x : Externals} {t : Publishing} {max_attempts : Nat} {s s' s'' : System} {label : Label}

/-! ### The status of a paused run -/

/-- Only a resumption and a reopening lead back from a paused run. -/
theorem Guarded.stays_stopped {verbs : Verb → Prop} {v : Vault} {w : Write} (h : Guarded verbs v w)
    (unresumed : ¬verbs .resume) (apart : verbs .attend → ¬verbs .reopen)
    (stopped : v.state.status = .paused ∨ v.state.status = .needs_attention ∧ ¬verbs .reopen) :
    (v.commit w).state.status = .paused ∨ (v.commit w).state.status = .needs_attention ∧ ¬verbs .reopen := by
  have not_running : v.state.status ≠ .running := by rcases stopped with h | ⟨h, -⟩ <;> simp [h]
  have started : v.journal ≠ [] := by
    intro empty
    simp [Vault.state, empty] at not_running
  cases w with
  | journal event =>
    rw [state_commit_journal]
    cases event with
    | run_started _ => exact absurd h.1 started
    | run_finished status =>
      cases status with
      | needs_attention => exact .inr ⟨rfl, apart (h.resolve_left not_running)⟩
      | finished => rcases stopped with stopped | ⟨stopped, -⟩ <;> simp [Guarded, stopped] at h
      | needs_decisions | capped => exact absurd h not_running
      | running | checkpoint | paused => exact h.elim
    | checkpoint_reached _ => exact absurd h not_running
    | checkpoint_cleared _ => rcases stopped with stopped | ⟨stopped, -⟩ <;> simp [Guarded, stopped] at h
    | run_paused _ => exact .inl rfl
    | run_resumed => exact absurd h.2 unresumed
    | run_reopened _ _ _ =>
      rcases stopped with stopped | ⟨-, unreopened⟩
      · simp [Guarded, stopped] at h
      · exact absurd h.2 unreopened
    | cap_raised _ => rcases stopped with stopped | ⟨stopped, un⟩ <;> simp [RunState.apply, *]
    | _ => exact stopped
  | manifest _ _ => exact absurd h.1 started
  | _ => exact stopped

/-- The steps that may lead back: an operator's resumption, a reopening of a run halted for attention, and
    a worker's resumption of a run paused for capacity. -/
def Label.revives (v : Vault) : Label → Prop
  | .command _ .resume_run _ => True
  | .command _ (.reopen_run _ _ _) _ => v.state.status = .needs_attention
  | .worker _ (.claimed item) (.dispatch free _ _) _ => resumes v item free
  | _ => False

/-- The writes of a step that does not revive the run, under verbs that cannot. -/
theorem Step.stays_stopped (coherent : Coherent s) (step : Step x t max_attempts s label s')
    (spared : ¬label.revives s.vault)
    (stopped : s.vault.state.status = .paused ∨ s.vault.state.status = .needs_attention) :
    s'.vault.state.status = .paused ∨ s'.vault.state.status = .needs_attention := by
  suffices writes : ∃ (verbs : Verb → Prop) (ws : List Write), Path (Guarded verbs) s.vault ws ∧
      s'.vault = commits s.vault ws ∧ ¬verbs .resume ∧ (verbs .attend → ¬verbs .reopen) ∧
      (s.vault.state.status = .needs_attention → ¬verbs .reopen) by
    obtain ⟨verbs, ws, path, reached, unresumed, apart, unreopened⟩ := writes
    rw [reached]
    exact (path.keeps
      (I := fun v => v.state.status = .paused ∨ v.state.status = .needs_attention ∧ ¬verbs .reopen)
      (fun _ _ stopped guarded => guarded.stays_stopped unresumed apart stopped)
      (stopped.imp_right fun h => ⟨h, unreopened h⟩)).imp_right And.left
  obtain ⟨ws, path, reached⟩ := step.guarded coherent
  cases step with
  | @command free command dies v lock leaves =>
    refine ⟨_, ws, path, reached, ?_, ?_, ?_⟩ <;>
      cases command <;> simp_all [Label.verbs, Command.verbs, Label.revives]
  | @driver action p dies v acts lock leaves =>
    refine ⟨_, ws, path, reached, ?_, ?_, ?_⟩ <;> cases action <;> simp [Label.verbs, DriverAction.verbs]
  | @worker w action p dies v acts lock leaves =>
    by_cases dispatched : ∃ item free now lookup, s.workers w = .claimed item ∧ action = .dispatch free now lookup
    · obtain ⟨item, free, now, lookup, phase, rfl⟩ := dispatched
      rw [phase] at acts spared
      cases acts
      have quiet : wp (Guarded fun _ => False) (dispatch x item free now lookup) (fun _ _ => True) s.vault :=
        dispatch_guarded_of_not_resumes item free now lookup spared
      obtain ⟨ws, path, reached⟩ := leaves.path quiet
      exact ⟨_, ws, path, reached, id, fun _ => id, fun _ => id⟩
    · refine ⟨_, ws, path, reached, ?_, ?_, ?_⟩
      · intro resume
        cases action with
        | dispatch free now lookup =>
          cases phase : s.workers w with
          | claimed item => exact dispatched ⟨item, free, now, lookup, phase, rfl⟩
          | _ => rw [phase] at acts; cases acts
        | _ => simp [Label.verbs, WorkerAction.verbs] at resume
      all_goals cases action <;> simp [Label.verbs, WorkerAction.verbs]

/-! ### Nobody comes to a call -/

/-- The driver has no turn planned. -/
def DriverPhase.unplanned : DriverPhase → Bool
  | .idle | .looping => true
  | _ => false

/-- A stopped run, with nobody on the way to a provider call. -/
structure Halted (s : System) : Prop where
  coherent : Coherent s
  stopped : s.vault.state.status = .paused ∨ s.vault.state.status = .needs_attention
  workers : ∀ w, (s.workers w).critical = false
  driver : s.driver.unplanned = true

theorem Enters.uncritical {v : Vault} {phase next : WorkerPhase} {action : WorkerAction} (h : Enters v phase action next)
    (stopped : v.state.status = .paused ∨ v.state.status = .needs_attention) (before : phase.critical = false) :
    next.critical = false := by
  cases h with
  | quiet quiet => exact quiet
  | prompted running _ _ => rcases stopped with stopped | stopped <;> simp [stopped] at running
  | dispatched complete => rcases stopped with stopped | stopped <;> simp [stopped] at complete
  | passed | opened | called | answered | checked => cases before

theorem Drives.unplanned {v v' : Vault} {phase next : DriverPhase} {action : DriverAction}
    (h : Drives (x := x) v phase action next v')
    (stopped : v.state.status = .paused ∨ v.state.status = .needs_attention) (before : phase.unplanned = true) :
    next.unplanned = true := by
  cases h with
  | ended | looped _ => rfl
  | planned running _ _ _ => rcases stopped with stopped | stopped <;> simp [stopped] at running
  | _ => cases before

theorem Halted.step (halted : Halted s) (step : Step x t max_attempts s label s') (spared : ¬label.revives s.vault) :
    Halted s' := by
  refine ⟨halted.coherent.step step, step.stays_stopped halted.coherent spared halted.stopped, ?_, ?_⟩
  · cases step with
    | command lock leaves => exact halted.workers
    | driver acts lock leaves => exact halted.workers
    | @worker w action p dies v acts lock leaves =>
      intro w'
      by_cases same : w' = w
      · subst same
        simp only [Function.update_self]
        cases dies with
        | true => rfl
        | false => exact (worker_enters acts).uncritical halted.stopped (halted.workers w')
      · simp only [Function.update_of_ne same]
        exact halted.workers w'
  · cases step with
    | command lock leaves => exact halted.driver
    | worker acts lock leaves => exact halted.driver
    | @driver action p dies v acts lock leaves =>
      cases dies with
      | true => rfl
      | false => exact (driver_drives acts).unplanned halted.stopped halted.driver

/-- Nobody calls from a halted state. -/
theorem Halted.no_call (halted : Halted s) (step : Step x t max_attempts s label s') : label.calls = none := by
  cases step with
  | command lock leaves => rfl
  | @worker w action p dies v acts lock leaves =>
    have quiet := halted.workers w
    cases phase : s.workers w <;> cases action <;> simp_all [Label.calls, WorkerPhase.critical]
  | @driver action p dies v acts lock leaves =>
    have unplanned := halted.driver
    cases phase : s.driver <;> cases action <;> simp_all [Label.calls, DriverPhase.unplanned]

theorem pause_run_paused {free : Bool} {reason : String} {v : Vault} :
    wp (fun _ _ => True) (pause_run free reason) (fun r v' => r = .ok () → v'.state.status = .paused) v := by
  simp only [pause_run, wp_with_lock, wp_bind, wp_load_run_context, wp_load_state, wp_ite, wp_throw, wp_append]
  refine ⟨fun _ => ?_, fun _ => by simp⟩
  cases v.run_context with
  | error e => simp
  | ok context => exact ⟨by simp, fun _ => ⟨trivial, fun _ => by rw [state_commit_journal]; rfl⟩⟩

/-- An operator's pause that succeeds while no worker is on the way to a provider call holds along every
    run in which no step revives the run: it stays stopped, and no provider call starts. -/
theorem pause_holds {trace trace' : List Label} {reason : String} (reachable : Reachable x t max_attempts trace s)
    (quiet : ∀ w, (s.workers w).critical = false)
    (pause : Step x t max_attempts s (.command true (.pause_run reason) false) s')
    (succeeds : (pause_run true reason s.vault).2 = .ok ())
    (run : Run (Meeting (Step x t max_attempts) fun s label _ => ¬label.revives s.vault) s' trace' s'') :
    (s''.vault.state.status = .paused ∨ s''.vault.state.status = .needs_attention) ∧
      ∀ label after, Step x t max_attempts s'' label after → label.calls = none := by
  have paused : Halted s' := by
    refine ⟨reachable.coherent.step pause, ?_, ?_, ?_⟩ <;> cases pause with | command lock leaves
    · cases leaves
      exact .inl (pause_run_paused.2 succeeds)
    · exact quiet
    · show s.driver.unplanned = true
      cases phase : s.driver with
      | idle => rfl
      | _ => exact absurd (.inl (by simp [phase, DriverPhase.holds_lock])) (lock rfl)
  have halted : Halted s'' := run.invariant (fun _ _ _ halted next => halted.step next.1 next.2) paused
  exact ⟨halted.stopped, fun _ _ step => halted.no_call step⟩

namespace Sample

/-- The call meets the seat limit, and the item comes back to a worker. -/
def seat_limit : List Act :=
  [.worker (.answer .seat_limit), .worker (.pause true), .worker (.claim item),
   .worker (.dispatch true "2026-01-05" no_authority)]

theorem pause_holds_planning : ∃ s s' s'',
    Step externals publishing 3 s (.command true (.pause_run "manual") false) s' ∧
      Run (Step externals publishing 3) s' [.command true .plan_next false] s'' ∧
      (s''.vault.state.status = .paused ∨ s''.vault.state.status = .needs_attention) := by
  have h : (desk.acts externals publishing 3 [start none]).map
      (fun r => (r.2.locked, r.2.worker.critical, (pause_run true "manual" r.2.vault).2.isOk)) =
        some (false, false, true) := by decide +kernel
  obtain ⟨⟨labels, d⟩, ran, h⟩ := Option.map_eq_some_iff.mp h
  simp only [Prod.mk.injEq] at h
  obtain ⟨free, quiet, succeeds⟩ := h
  have unlocked : ¬d.system.Locked := fun held => by simp [Desk.locked_of_system held] at free
  have pause : Step externals publishing 3 d.system (.command true (.pause_run "manual") false) _ :=
    .command (fun _ => unlocked) rfl
  have plan : Step externals publishing 3
      { d.system with vault := (command_prog externals publishing true (.pause_run "manual")).final d.vault }
      (.command true .plan_next false) _ := .command (fun _ => unlocked) rfl
  have succeeds : (pause_run true "manual" d.vault).2 = .ok () := by
    cases ended : (pause_run true "manual" d.vault).2 with
    | error e => simp [ended, Except.isOk, Except.toBool] at succeeds
    | ok _ => rfl
  refine ⟨_, _, _, pause, .one plan, ?_⟩
  refine (pause_holds (Desk.reachable_of_acts ran) (fun w => ?_) pause succeeds (.one ⟨plan, id⟩)).1
  by_cases zero : w = 0
  · simp [Desk.system, zero, quiet]
  · simp [Desk.system, Function.update_of_ne zero, WorkerPhase.critical]

/-- A paused run is running again, by no command, once a call that was in flight has met the seat limit. -/
theorem seat_limit_revives : ∃ trace s trace' s',
    Reachable externals publishing 3 trace s ∧ s.vault.state.status = .paused ∧
      s.vault.state.pause_reason = some "manual" ∧ Run (Step externals publishing 3) s trace' s' ∧
      (∀ label ∈ trace', label.actor ≠ .command) ∧ s'.vault.state.status = .running := by
  have h : ((desk.acts externals publishing 3 (start none :: bring_to_call ++ [pause])).bind fun r =>
      (r.2.acts externals publishing 3 seat_limit).map fun r' =>
        (r.2.vault.state.status, r.2.vault.state.pause_reason, r'.1.all (·.actor ≠ .command),
          r'.2.vault.state.status)) = some (.paused, some "manual", true, .running) := by decide +kernel
  obtain ⟨⟨labels, d⟩, ran, h⟩ := Option.bind_eq_some_iff.mp h
  obtain ⟨⟨labels', d'⟩, ran', h⟩ := Option.map_eq_some_iff.mp h
  simp only [Prod.mk.injEq, List.all_eq_true, decide_eq_true_eq] at h
  obtain ⟨paused, manual, workers, running⟩ := h
  exact ⟨_, _, _, _, Desk.reachable_of_acts ran, paused, manual, Desk.run_of_acts ran', workers, running⟩

end Sample

end MootLoop
