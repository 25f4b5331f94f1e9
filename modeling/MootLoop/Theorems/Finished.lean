import MootLoop.Theorems.Runs

/-! A finished run. Every lifecycle write checks the status it replaces except the one that halts a run
    for attention, so a finished run stays finished along every run that makes no such write in it. -/

namespace MootLoop
open Durable Transition

variable {x : Externals} {t : Publishing} {max_attempts : Nat} {s s' : System} {label : Label}

/-- The step runs `finish_needs_attention` outside a recording: a provider call that only an operator can
    unblock, or an item that failed for the last time. -/
def Label.attends (max_attempts : Nat) : Label → Bool
  | .worker _ (.attention _) (.attend true) _ => true
  | .worker _ (.failing item) (.poison true) _ => max_attempts ≤ item.attempts
  | _ => false

/-- Every other lifecycle write checks that the run is not finished. -/
theorem Guarded.stays_finished {verbs : Verb → Prop} {v : Vault} {w : Write} (h : Guarded verbs v w)
    (unattended : ¬verbs .attend) (finished : v.state.status = .finished) : (v.commit w).state.status = .finished := by
  have started : v.journal ≠ [] := by
    intro empty
    simp [Vault.state, empty] at finished
  cases w with
  | journal event =>
    rw [state_commit_journal]
    cases event with
    | run_started _ => exact absurd h.1 started
    | run_finished status =>
      cases status with
      | finished => rfl
      | needs_decisions | capped => exact absurd (finished.symm.trans h) (by simp)
      | needs_attention =>
        rcases h with running | attend
        · exact absurd (finished.symm.trans running) (by simp)
        · exact absurd attend unattended
      | running | checkpoint | paused => exact h.elim
    | checkpoint_reached _ => exact absurd (finished.symm.trans h) (by simp)
    | checkpoint_cleared _ => exact absurd (finished.symm.trans h.1) (by simp)
    | run_paused _ => exact absurd h.1 (by simp [RunState.is_terminal, finished])
    | run_resumed => exact absurd (finished.symm.trans h.1) (by simp)
    | run_reopened _ _ _ => exact absurd (finished.symm.trans h.1) (by simp)
    | cap_raised _ => simp [RunState.apply, finished]
    | _ => exact finished
  | manifest _ _ => exact absurd h.1 started
  | _ => exact finished

/-- A worker's attention path that finds the lock held, or gives the item another attempt, writes
    nothing of the lifecycle. -/
theorem worker_calm_of_unattended {phase : WorkerPhase} {action : WorkerAction} {p : VaultM WorkerPhase} {w : Nat}
    {dies : Bool} (acts : worker_action x max_attempts phase action = some p) (attend : action.verbs .attend)
    (spared : (Label.worker w phase action dies).attends max_attempts = false) : Only Write.Calm p := by
  cases action with
  | attend free =>
    cases phase with
    | attention item =>
      cases free with
      | true => cases spared
      | false => exact worker_calm_of_busy acts rfl rfl
    | _ => cases acts
  | poison free =>
    cases phase with
    | failing item =>
      cases free with
      | true =>
        cases acts
        have again : item.attempts < max_attempts := by simpa [Label.attends] using spared
        simp only [on_poison, again, if_true]
        exact .pure _
      | false => exact worker_calm_of_busy acts rfl rfl
    | _ => cases acts
  | _ => simp [WorkerAction.verbs] at attend

theorem Step.stays_finished (coherent : Coherent s) (step : Step x t max_attempts s label s')
    (spared : label.attends max_attempts = false) (finished : s.vault.state.status = .finished) :
    s'.vault.state.status = .finished := by
  by_cases attend : label.verbs .attend
  · cases step with
    | @command free command => cases command <;> simp [Label.verbs, Command.verbs] at attend
    | @worker w action p dies v acts lock leaves =>
      exact (leaves.kept (worker_calm_of_unattended acts attend spared)).status.trans finished
    | @driver action => cases action <;> simp [Label.verbs, DriverAction.verbs] at attend
  · obtain ⟨ws, path, reached⟩ := step.guarded coherent
    rw [reached]
    exact path.keeps (I := fun v => v.state.status = .finished)
      (fun _ _ finished guarded => guarded.stays_finished attend finished) finished

/-- Once a run is finished it is finished for good, along every run in which no worker halts it for
    attention while it is finished. -/
theorem finished_stays_finished {trace trace' : List Label} (reachable : Reachable x t max_attempts trace s)
    (finished : s.vault.state.status = .finished)
    (run : Run (Meeting (Step x t max_attempts) fun s label _ =>
      s.vault.state.status = .finished → label.attends max_attempts = false) s trace' s') :
    s'.vault.state.status = .finished := by
  have both : Coherent s' ∧ s'.vault.state.status = .finished :=
    run.invariant (I := fun s => Coherent s ∧ s.vault.state.status = .finished)
      (fun _ _ _ h next => ⟨h.1.step next.1, next.1.stays_finished h.1 (next.2 h.2) h.2⟩)
      ⟨reachable.coherent, finished⟩
  exact both.2

namespace Sample

/-- Two drafts complete the run. -/
def finish : List Act := [start none, drafted "r-t0000", drafted "r-t0012"]

/-- A worker's item of post-run work that fails for the last time. -/
def dead_letter : List Act :=
  [.worker (.claim { item_id := "i", kind := .production_suggestions, attempts := 3 }), .worker .fail,
   .worker (.poison true)]

theorem finish_then_dead_letter : (desk.acts externals publishing 3 finish).bind (fun r =>
    (r.2.acts externals publishing 3 dead_letter).map fun r' =>
      (r.2.vault.state.status, r.2.locked, r'.2.vault.state.status)) = some (.finished, false, .needs_attention) := by
  decide +kernel

/-- An operator's pause leaves it finished. -/
theorem finished_stays_finished_paused :
    ∃ trace s s', Reachable externals publishing 3 trace s ∧
      Step externals publishing 3 s (.command true (.pause_run "manual") false) s' ∧
      s'.vault.state.status = .finished := by
  obtain ⟨⟨labels, d⟩, ran, h⟩ := Option.bind_eq_some_iff.mp finish_then_dead_letter
  obtain ⟨_, -, h⟩ := Option.map_eq_some_iff.mp h
  simp only [Prod.mk.injEq] at h
  obtain ⟨finished, free, -⟩ := h
  have pause : Step externals publishing 3 d.system (.command true (.pause_run "manual") false) _ :=
    .command (fun _ held => by simp [Desk.locked_of_system held] at free) rfl
  exact ⟨_, _, _, Desk.reachable_of_acts ran, pause,
    finished_stays_finished (Desk.reachable_of_acts ran) finished (.one ⟨pause, fun _ => rfl⟩)⟩

/-- A finished run is halted for attention when post-run work of it is dead-lettered. -/
theorem dead_letter_unfinishes :
    ∃ trace s trace' s', Reachable externals publishing 3 trace s ∧ s.vault.state.status = .finished ∧
      Run (Step externals publishing 3) s trace' s' ∧ s'.vault.state.status = .needs_attention := by
  obtain ⟨⟨labels, d⟩, ran, h⟩ := Option.bind_eq_some_iff.mp finish_then_dead_letter
  obtain ⟨⟨labels', d'⟩, ran', h⟩ := Option.map_eq_some_iff.mp h
  simp only [Prod.mk.injEq] at h
  obtain ⟨finished, -, halted⟩ := h
  exact ⟨_, _, _, _, Desk.reachable_of_acts ran, finished, Desk.run_of_acts ran', halted⟩

end Sample

end MootLoop
