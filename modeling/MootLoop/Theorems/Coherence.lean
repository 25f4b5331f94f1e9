import MootLoop.Theorems.Actors
import MootLoop.Lib.Transition

/-! What every step of the system respects: the run lock has one holder, whoever finds it held keeps the
    lifecycle, and the driver is at a turn only while the run is running. -/

namespace MootLoop
open Durable Transition

variable {x : Externals} {t : Publishing} {max_attempts : Nat} {s s' : System} {label : Label}

/-! ### Who acts -/

inductive Actor where
  | command
  | worker (w : Nat)
  | driver
  deriving DecidableEq

def Label.actor : Label → Actor
  | .command _ _ _ => .command
  | .worker w _ _ _ => .worker w
  | .driver _ _ _ => .driver

/-- The lifecycle writes a step may make. -/
def Label.verbs : Label → Verb → Prop
  | .command _ c _ => c.verbs
  | .worker _ _ action _ => action.verbs
  | .driver _ action _ => action.verbs

/-- The actor holds the run lock between its actions. -/
def System.Holds (s : System) : Actor → Prop
  | .command => False
  | .worker w => (s.workers w).holds_lock = true
  | .driver => s.driver.holds_lock = true

theorem System.Holds.locked {a : Actor} (h : s.Holds a) : s.Locked := by
  cases a with
  | command => exact h.elim
  | worker w => exact .inr ⟨w, h⟩
  | driver => exact .inl h

/-- The run lock has one holder, and the driver is at a turn only while the run is running. -/
structure Coherent (s : System) : Prop where
  exclusive : ∀ a b, s.Holds a → s.Holds b → a = b
  driving : s.driver.turning = true → s.vault.state.status = .running

theorem Coherent.initial (run_id : RunId) (matter : MatterConfig) : Coherent (System.initial run_id matter) := by
  refine ⟨?_, fun h => nomatch h⟩
  rintro (_ | w | _) b held _
  · exact held.elim
  · cases held
  · cases held

theorem DriverPhase.holds_of_turning {phase : DriverPhase} (h : phase.turning = true) : phase.holds_lock = true := by
  cases phase <;> first | rfl | cases h

/-! ### What a program leaves -/

/-- A program that ends or dies leaves a path of permitted writes. -/
theorem Leaves.path {α : Type} {P : Vault → Write → Prop} {p : VaultM α} {Q : Except Error α → Vault → Prop}
    {dies : Bool} {v v' : Vault} (leaves : Leaves p dies v v') (h : wp P p Q v) :
    ∃ ws, Path P v ws ∧ v' = commits v ws := by
  cases dies with
  | false => exact ⟨(p v).1, h.1, leaves⟩
  | true =>
    obtain ⟨ws, pre, rfl⟩ := leaves
    exact ⟨ws, h.1.of_initial pre, rfl⟩

theorem Leaves.crash {α : Type} {p : VaultM α} {dies : Bool} {v v' : Vault} (leaves : Leaves p dies v v') :
    Prog.Crash p v v' := by
  cases dies with
  | false => exact leaves ▸ Prog.Crash.final p v
  | true => exact leaves

theorem Leaves.kept {α : Type} {p : VaultM α} {dies : Bool} {v v' : Vault} (leaves : Leaves p dies v v')
    (calm : Only Write.Calm p) : Kept v v' := by
  obtain ⟨ws, path, rfl⟩ := leaves.path (calm.wp fun s w h => h)
  exact path.keeps (I := Kept v) (fun s _ kept calm => kept.trans (calm.kept s)) (.refl v)

/-! ### Steps -/

/-- Every step makes only the lifecycle writes of its actor, each under its guard. -/
theorem Step.guarded (coherent : Coherent s) (step : Step x t max_attempts s label s') :
    ∃ ws, Path (Guarded label.verbs) s.vault ws ∧ s'.vault = commits s.vault ws := by
  cases step with
  | command lock leaves => exact leaves.path (command_guarded _ _)
  | worker acts lock leaves => exact leaves.path (worker_guarded acts)
  | driver acts lock leaves => exact leaves.path (driver_guarded acts coherent.driving)

theorem Step.keeps_context (coherent : Coherent s) (step : Step x t max_attempts s label s')
    (started : s.vault.journal ≠ []) : s'.vault.run_context = s.vault.run_context ∧ s'.vault.journal ≠ [] := by
  obtain ⟨ws, path, reached⟩ := step.guarded coherent
  rw [reached]
  refine path.keeps (I := fun v => v.run_context = s.vault.run_context ∧ v.journal ≠ []) ?_ ⟨rfl, started⟩
  rintro v w ⟨same, started⟩ guarded
  exact ⟨(guarded.keeps_context started).1.trans same, (guarded.keeps_context started).2⟩

/-- While one actor holds the lock, every other actor keeps the lifecycle. -/
theorem Step.kept_of_held (coherent : Coherent s) (step : Step x t max_attempts s label s') {a : Actor}
    (held : s.Holds a) (other : label.actor ≠ a) : Kept s.vault s'.vault := by
  cases step with
  | @command free command dies v lock leaves =>
    cases free with
    | true => exact absurd held.locked (lock rfl)
    | false => exact leaves.kept (command_calm_of_busy command)
  | @worker w action p dies v acts lock leaves =>
    have busy : action.free = false := by
      by_contra free
      exact lock (by simpa using free) held.locked
    refine leaves.kept (worker_calm_of_busy acts ?_ busy)
    by_contra inside
    exact other (coherent.exclusive (.worker w) a (by simpa [System.Holds] using inside) held)
  | @driver action p dies v acts lock leaves =>
    have outside : s.driver.holds_lock = false := by
      by_contra inside
      exact other (coherent.exclusive .driver a (by simpa [System.Holds] using inside) held)
    cases phase : s.driver with
    | idle =>
      rw [phase] at acts
      cases action with
      | start free =>
        cases acts
        exact leaves.kept (only_with_lock (.bind only_load_run_context fun _ => .pure _))
      | _ => cases acts
    | _ => simp [phase, DriverPhase.holds_lock] at outside

/-! ### The phases of a worker -/

/-- The phases on the way to a provider call: a prompted turn, and a citation check under way. -/
def WorkerPhase.critical : WorkerPhase → Bool
  | .prompted .. | .citing .. | .cite_ready .. | .cite_calling .. | .cite_returned .. => true
  | _ => false

/-- How a worker comes to a critical phase from a store: a turn is prompted only in a running run within
    its cap, citations are checked only in a run whose drafts are complete, and a check is called for
    only under the lock. -/
inductive Enters (v : Vault) : WorkerPhase → WorkerAction → WorkerPhase → Prop
  | quiet {phase next : WorkerPhase} {action : WorkerAction} (h : next.critical = false) : Enters v phase action next
  | prompted {item : WorkItem} {spec : TurnSpec} {context : RunContext} (running : v.state.status = .running)
      (loaded : v.run_context = .ok context) (within : over_cap v.state context = false) :
      Enters v (.reserved item spec) .prompt (.prompted item spec)
  | dispatched {item : WorkItem} {free : Bool} {now : String} {lookup : AuthorityLookup}
      {prepared : PreparedPropositionChecks} {bundles : List PropositionEvidenceBundle}
      {unresolved : List CitationProposition}
      (complete : v.state.status = .finished ∨ v.state.status = .needs_decisions) :
      Enters v (.claimed item) (.dispatch free now lookup) (.citing item prepared bundles unresolved)
  | passed {item : WorkItem} {prepared : PreparedPropositionChecks} {free : Bool} {now : String}
      {bundles bundles' : List PropositionEvidenceBundle} {unresolved unresolved' : List CitationProposition} :
      Enters v (.citing item prepared bundles unresolved) (.check free now) (.citing item prepared bundles' unresolved')
  | opened {item : WorkItem} {prepared : PreparedPropositionChecks} {now : String}
      {bundle : PropositionEvidenceBundle} {spec : TurnSpec} {rest : List PropositionEvidenceBundle}
      {unresolved : List CitationProposition} :
      Enters v (.citing item prepared (bundle :: rest) unresolved) (.check true now)
        (.cite_ready item prepared bundle spec rest unresolved)
  | called {item : WorkItem} {prepared : PreparedPropositionChecks} {bundle : PropositionEvidenceBundle}
      {spec : TurnSpec} {rest : List PropositionEvidenceBundle} {unresolved : List CitationProposition} :
      Enters v (.cite_ready item prepared bundle spec rest unresolved) .call
        (.cite_calling item prepared bundle spec rest unresolved)
  | answered {item : WorkItem} {prepared : PreparedPropositionChecks} {bundle : PropositionEvidenceBundle}
      {spec : TurnSpec} {rest : List PropositionEvidenceBundle} {unresolved : List CitationProposition}
      {outcome : CallOutcome} {result : RawTurnResult} :
      Enters v (.cite_calling item prepared bundle spec rest unresolved) (.answer outcome)
        (.cite_returned item prepared bundle spec result rest unresolved)
  | checked {item : WorkItem} {prepared : PreparedPropositionChecks} {bundle : PropositionEvidenceBundle}
      {spec : TurnSpec} {rest : List PropositionEvidenceBundle} {unresolved : List CitationProposition}
      {result : RawTurnResult} {free : Bool} {now : String} :
      Enters v (.cite_returned item prepared bundle spec result rest unresolved) (.record free now)
        (.citing item prepared rest unresolved)

theorem after_error_quiet (phase : WorkerPhase) (e : Error) : (phase.after (.error e)).critical = false := by
  cases phase <;> rfl

theorem plan_read_running {Q : Except Error Planned → Vault → Prop} {v : Vault}
    (raised : ∀ e, Q (.error e) v) (stopped : Q (.ok (.specs [])) v)
    (capped : ∀ context, v.run_context = .ok context → over_cap v.state context = true → v.state.status = .running →
      Q (.ok .over_cap) v)
    (planned : ∀ context specs, v.run_context = .ok context → over_cap v.state context = false →
      v.state.status = .running → plan_run x context v.state = .ok specs → Q (.ok (.specs specs)) v) :
    wp (fun _ _ => True) (plan_read x) Q v := by
  simp only [plan_read, wp_bind, wp_load_run_context, wp_load_state]
  cases loaded : v.run_context with
  | error e => exact raised e
  | ok context =>
    simp only [loaded, wp_ite, wp_pure, wp_bind, wp_lift] at capped planned ⊢
    refine ⟨fun _ => stopped, fun _ => ⟨fun live => ?_, fun inside => ?_⟩⟩
    · simp only [RunState.finished, Bool.and_eq_true, Bool.not_eq_true', decide_eq_false_iff_not, not_not] at live
      exact capped context rfl live.2 live.1
    · by_cases running : v.state.status = .running
      · have within : over_cap v.state context = false := by
          simpa [RunState.finished, running] using inside
        cases plan : plan_run x context v.state with
        | error e => exact raised e
        | ok specs => exact planned context specs rfl within running plan
      · have none : plan_run x context v.state = .ok [] := by simp [plan_run, plan, running]
        rw [none]
        exact stopped

theorem require_completed_draft_set_complete {v : Vault} :
    wp (fun _ _ => True) require_completed_draft_set
      (fun r _ => (∃ context, r = .ok context) → v.state.status = .finished ∨ v.state.status = .needs_decisions) v := by
  simp only [require_completed_draft_set, wp_bind, wp_load_run_context, wp_load_state]
  cases v.run_context with
  | error e => simp
  | ok context =>
    simp only [wp_ite, wp_throw, wp_pure]
    refine ⟨fun _ => by simp, fun complete _ => ?_⟩
    by_contra other
    exact complete (not_or.mp other)

/-- Citation checks are prepared only for a complete draft set. -/
theorem prepare_complete {now : String} {lookup : AuthorityLookup} {v : Vault} :
    wp (fun _ _ => True) (prepare_run_proposition_checks x now lookup)
      (fun r _ => (∃ prepared, r = .ok prepared) → v.state.status = .finished ∨ v.state.status = .needs_decisions) v := by
  unfold prepare_run_proposition_checks
  rw [wp_bind]
  refine require_completed_draft_set_complete.post ?_
  rintro (e | context) s complete
  · simp
  · exact wp_of_forall fun _ _ _ => complete ⟨context, rfl⟩

/-- A check is called for only by a worker that found the lock free. -/
theorem open_check_free {free : Bool} {bundle : PropositionEvidenceBundle} {now : String} {v : Vault} :
    wp (fun _ _ => True) (open_check x free bundle now) (fun r _ => ∀ spec, r = .ok (.call spec) → free = true) v := by
  cases free with
  | true => exact wp_of_forall fun _ _ _ _ => rfl
  | false =>
    simp only [open_check, wp_bind, wp_load_run_context]
    cases v.run_context with
    | error e => simp
    | ok context =>
      simp only [wp_read, wp_ite, wp_pure]
      refine ⟨fun _ => by simp, fun _ => ?_⟩
      split
      · rw [wp_bind]
        refine wp_of_forall fun r s => ?_
        cases r <;> simp
      · exact wp_with_lock.mpr ⟨by simp, by simp⟩

/-- Every action of a worker leads to a phase it may enter. -/
theorem worker_enters {phase : WorkerPhase} {action : WorkerAction} {p : VaultM WorkerPhase} {v : Vault}
    (acts : worker_action x max_attempts phase action = some p) : Enters v phase action (phase.after (p v).2) := by
  suffices h : wp (fun _ _ => True) p (fun r _ => Enters v phase action (phase.after r)) v from h.2
  have raised (e : Error) : Enters v phase action (phase.after (.error e)) := .quiet (after_error_quiet phase e)
  have throws (s : Vault) (e : Error) :
      wp (fun _ _ => True) (throw e : VaultM WorkerPhase) (fun r _ => Enters v phase action (phase.after r)) s :=
    (wp_throw _).mpr (raised e)
  have returns (s : Vault) {next : WorkerPhase} (quiet : next.critical = false) :
      wp (fun _ _ => True) (pure next : VaultM WorkerPhase) (fun r _ => Enters v phase action (phase.after r)) s :=
    (wp_pure _).mpr (.quiet quiet)
  have then_return {α : Type} {q : VaultM α} {next : WorkerPhase} (s : Vault) (quiet : next.critical = false) :
      wp (fun _ _ => True) (do let _ ← q; return next) (fun r _ => Enters v phase action (phase.after r)) s := by
    rw [wp_bind]
    refine wp_of_forall fun r s' => ?_
    cases r with
    | error e => exact raised e
    | ok a => exact returns s' quiet
  unfold worker_action at acts
  split at acts
  case h_2 item free now lookup =>
    cases acts
    unfold dispatch
    split
    · exact returns v rfl
    · exact returns v rfl
    · rw [wp_bind]
      refine prepare_complete.post ?_
      rintro (e | prepared) s complete
      · exact raised e
      · exact (wp_pure _).mpr (.dispatched (complete ⟨_, rfl⟩))
    · exact throws v _
    · rw [wp_bind]
      exact wp_of_forall fun r s => by cases r with
        | error e => exact raised e
        | ok _ => exact then_return s rfl
  case h_4 item =>
    cases acts
    rw [wp_bind]
    refine wp_of_forall fun r s => ?_
    cases r with
    | error e => exact raised e
    | ok planned => dsimp only; split <;> exact returns s rfl
  case h_5 =>
    cases acts
    rw [wp_bind]
    refine wp_of_forall fun r s => ?_
    cases r with
    | error e => exact raised e
    | ok _ => exact (wp_ite _ _ _).mpr ⟨fun _ => throws s _, fun _ => returns s rfl⟩
  case h_6 =>
    cases acts
    exact wp_with_lock.mpr ⟨fun _ => then_return v rfl, fun _ => raised _⟩
  case h_7 => cases acts; exact then_return v rfl
  case h_8 item spec =>
    cases acts
    simp only [assemble_prompt, wp_bind, wp_load_run_context]
    cases loaded : v.run_context with
    | error e => exact raised e
    | ok context =>
      have prompt (specs : List TurnSpec) (enters : Enters v (.reserved item spec) .prompt (.prompted item spec)) :
          wp (fun _ _ => True)
            (do let found ← Prog.lift (find_spec specs spec.turn_id)
                let _ ← Prog.lift (persona_body context found.persona)
                return WorkerPhase.prompted item spec)
            (fun r _ => Enters v (.reserved item spec) .prompt ((WorkerPhase.reserved item spec).after r)) v := by
        simp only [wp_bind, wp_lift]
        cases find_spec specs spec.turn_id with
        | error e => exact raised e
        | ok found =>
          dsimp only
          cases persona_body context found.persona with
          | error e => exact raised e
          | ok _ => exact (wp_pure _).mpr enters
      refine plan_read_running raised ?_ (fun _ _ _ _ => returns v rfl) fun context' specs loaded' within running _ =>
        prompt specs (.prompted running loaded' within)
      -- nothing is planned, so the turn is not found
      simp only [wp_bind, wp_lift, find_spec, List.find?_nil]
      exact raised _
  case h_11 => split at acts <;> cases acts <;> first | exact returns v rfl | (split <;> exact returns v rfl)
  case h_12 => cases acts; exact then_return v rfl
  case h_13 => cases acts; split <;> exact returns v rfl
  case h_14 => cases acts; exact then_return v rfl
  case h_15 => cases acts; exact then_return v rfl
  case h_16 =>
    cases acts
    exact (wp_ite _ _ _).mpr ⟨fun _ => returns v rfl, fun _ => then_return v rfl⟩
  case h_17 item prepared bundles unresolved free now =>
    cases acts
    cases bundles with
    | nil => exact then_return v rfl
    | cons bundle rest =>
      simp only [check_bundle, wp_bind, wp_attempt]
      refine open_check_free.post fun r s free => ?_
      split
      · exact returns s rfl
      · exact throws s _
      · exact (wp_pure _).mpr .passed
      · exact (wp_pure _).mpr .passed
      · next spec =>
        cases free spec rfl
        exact (wp_pure _).mpr .opened
  case h_18 => cases acts; exact (wp_pure _).mpr .called
  case h_20 => split at acts <;> cases acts <;> first | exact (wp_pure _).mpr .answered | exact returns v rfl
  case h_21 =>
    cases acts
    simp only [wp_bind, wp_load_run_context]
    cases v.run_context with
    | error e => exact raised e
    | ok context =>
      refine wp_of_forall fun r s => ?_
      cases r with
      | error e => exact raised e
      | ok _ => exact (wp_pure _).mpr .checked
  case h_22 =>
    obtain ⟨item, _, rfl⟩ := Option.map_eq_some_iff.mp acts
    exact returns v rfl
  case h_23 => cases acts
  all_goals cases acts; exact returns v rfl

/-! ### The phases of the driver -/

/-- How the driver moves between its phases, with the stores before and after: a batch is planned in a
    running run within its cap, a turn starts while the run is running and the turn open, and only a
    recording writes. -/
inductive Drives (v : Vault) : DriverPhase → DriverAction → DriverPhase → Vault → Prop
  | ended {phase : DriverPhase} {action : DriverAction} {v' : Vault} : Drives v phase action .idle v'
  | looped {phase : DriverPhase} {action : DriverAction} {v' : Vault} (entry : action.free = true ∨ phase.holds_lock = true) :
      Drives v phase action .looping v'
  | planned {specs : List TurnSpec} {context : RunContext} (running : v.state.status = .running)
      (loaded : v.run_context = .ok context) (within : over_cap v.state context = false)
      (plan : plan_run x context v.state = .ok specs) : Drives v .looping .iterate (.batch specs) v
  | skipped {spec : TurnSpec} {rest : List TurnSpec}
      (closed : v.state.status = .running → v.state.is_completed spec.turn_id = true) :
      Drives v (.batch (spec :: rest)) .next (.batch rest) v
  | started {spec : TurnSpec} {rest : List TurnSpec} (running : v.state.status = .running)
      (fresh : v.state.is_completed spec.turn_id = false) :
      Drives v (.batch (spec :: rest)) .next (.ready spec v.state rest) v
  | called {spec : TurnSpec} {fresh : RunState} {rest : List TurnSpec} :
      Drives v (.ready spec fresh rest) .call (.calling spec fresh rest) v
  | answered {spec : TurnSpec} {fresh : RunState} {rest : List TurnSpec} {result : RawTurnResult} :
      Drives v (.calling spec fresh rest) (.answer (some result)) (.returned spec fresh rest result) v
  | recorded {spec : TurnSpec} {fresh : RunState} {rest : List TurnSpec} {result : RawTurnResult} {now : String}
      {v' : Vault} : Drives v (.returned spec fresh rest result) (.record now) (.batch rest) v'

/-- Every action of the driver moves it so. -/
theorem driver_drives {phase : DriverPhase} {action : DriverAction} {p : VaultM DriverPhase} {v : Vault}
    (acts : driver_action x phase action = some p) :
    Drives (x := x) v phase action (DriverPhase.after (p v).2) (p.final v) := by
  suffices h : wp (fun _ _ => True) p (fun r v' => Drives (x := x) v phase action (DriverPhase.after r) v') v from h.2
  unfold driver_action at acts
  split at acts
  case h_1 free =>
    cases acts
    simp only [wp_with_lock, wp_bind, wp_load_run_context]
    refine ⟨fun entry => ?_, fun _ => .ended⟩
    cases v.run_context with
    | error e => exact .ended
    | ok context => exact (wp_pure _).mpr (.looped (.inl entry))
  case h_2 =>
    cases acts
    simp only [drive_iterate, wp_bind, wp_load_run_context, wp_load_state]
    cases loaded : v.run_context with
    | error e => exact .ended
    | ok context =>
      simp only [wp_ite, wp_pure, wp_bind, wp_lift]
      refine ⟨fun _ => Drives.ended, fun live => ⟨fun _ => wp_of_forall fun r s => ?_, fun within => ?_⟩⟩
      · cases r with
        | error e => exact .ended
        | ok _ => exact .ended
      · cases plan : plan_run x context v.state with
        | error e => exact .ended
        | ok specs =>
          dsimp only
          split
          · rw [wp_bind]
            refine wp_of_forall fun r s => ?_
            cases r with
            | error e => exact .ended
            | ok _ => exact (wp_pure _).mpr .ended
          · exact (wp_pure _).mpr (.planned (by simpa [RunState.finished] using live) loaded (by simpa using within) plan)
  case h_3 specs =>
    cases acts
    unfold drive_next
    split
    · exact (wp_pure _).mpr (.looped (.inr rfl))
    · next spec rest =>
      simp only [wp_bind, wp_load_state, wp_ite, wp_pure]
      refine ⟨fun skip => .skipped fun running => ?_, fun go => ?_⟩
      · simpa [RunState.finished, running] using skip
      · simp only [RunState.finished, Bool.or_eq_true, decide_eq_true_eq, not_or, not_not, Bool.not_eq_true] at go
        exact .started go.1 go.2
  case h_4 => cases acts; exact (wp_pure _).mpr .called
  case h_5 =>
    split at acts
    · cases acts; exact (wp_pure _).mpr .answered
    · cases acts; exact (wp_pure _).mpr .ended
  case h_6 =>
    cases acts
    simp only [wp_bind, wp_load_run_context]
    cases v.run_context with
    | error e => exact .ended
    | ok context =>
      refine wp_of_forall fun r s => ?_
      cases r with
      | error e => exact .ended
      | ok _ => exact (wp_pure _).mpr .recorded
  case h_7 => cases acts

/-! ### Coherence -/

/-- A worker comes to hold the lock only through an action that found it free. -/
theorem Enters.takes_lock {v : Vault} {phase next : WorkerPhase} {action : WorkerAction} (h : Enters v phase action next)
    (holds : next.holds_lock = true) : phase.holds_lock = true ∨ action.free = true := by
  cases h with
  | quiet quiet => cases next <;> simp_all [WorkerPhase.holds_lock, WorkerPhase.critical]
  | opened => exact .inr rfl
  | called | answered => exact .inl rfl
  | prompted _ _ _ | dispatched _ | passed | checked => cases holds

theorem Drives.takes_lock {v v' : Vault} {phase next : DriverPhase} {action : DriverAction}
    (h : Drives (x := x) v phase action next v') (holds : next.holds_lock = true) :
    phase.holds_lock = true ∨ action.free = true := by
  cases h with
  | ended => cases holds
  | looped entry => exact entry.symm
  | _ => exact .inl rfl

theorem Drives.turning {v v' : Vault} {phase next : DriverPhase} {action : DriverAction}
    (h : Drives (x := x) v phase action next v') (turning : next.turning = true)
    (running : phase.turning = true → v.state.status = .running) : v'.state.status = .running := by
  cases h with
  | started live _ => exact live
  | called | answered => exact running rfl
  | _ => cases turning

/-- Where every holder held the lock before, or is an actor who found it free, the lock has one holder. -/
theorem Coherent.exclusive_of (coherent : Coherent s) (actor : Actor)
    (before : ∀ a, s'.Holds a → s.Holds a ∨ a = actor ∧ ¬s.Locked) : ∀ a b, s'.Holds a → s'.Holds b → a = b := by
  intro a b ha hb
  rcases before a ha with ha | ⟨rfl, free⟩ <;> rcases before b hb with hb | ⟨rfl, free'⟩
  · exact coherent.exclusive a b ha hb
  · exact absurd ha.locked free'
  · exact absurd hb.locked free
  · rfl

theorem Coherent.step (coherent : Coherent s) (step : Step x t max_attempts s label s') : Coherent s' := by
  have kept_running (other : label.actor ≠ .driver) (turning : s.driver.turning = true) :
      s'.vault.state.status = .running := by
    have held : s.Holds .driver := DriverPhase.holds_of_turning turning
    exact (step.kept_of_held coherent held other).status.trans (coherent.driving turning)
  cases step with
  | command lock leaves => exact ⟨coherent.exclusive, kept_running (by simp [Label.actor])⟩
  | @worker w action p dies v acts lock leaves =>
    refine ⟨coherent.exclusive_of (.worker w) fun a held => ?_, kept_running (by simp [Label.actor])⟩
    cases a with
    | command => exact held.elim
    | driver => exact .inl held
    | worker w' =>
      by_cases same : w' = w
      · subst same
        simp only [System.Holds, Function.update_self] at held
        cases dies with
        | true => cases held
        | false =>
          rcases (worker_enters acts).takes_lock held with inside | free
          · exact .inl inside
          · exact .inr ⟨rfl, lock free⟩
      · simp only [System.Holds, Function.update_of_ne same] at held
        exact .inl held
  | @driver action p dies v acts lock leaves =>
    refine ⟨coherent.exclusive_of .driver fun a held => ?_, fun turning => ?_⟩
    · cases a with
      | command => exact held.elim
      | worker w => exact .inl held
      | driver =>
        cases dies with
        | true => cases held
        | false =>
          rcases (driver_drives acts).takes_lock held with inside | free
          · exact .inl inside
          · exact .inr ⟨rfl, lock free⟩
    · cases dies with
      | true => cases turning
      | false =>
        cases leaves
        exact (driver_drives acts).turning turning coherent.driving

/-- Every reachable state is coherent. -/
theorem Coherent.reachable {run_id : RunId} {matter : MatterConfig} {trace : List Label}
    (run : Run (Step x t max_attempts) (System.initial run_id matter) trace s) : Coherent s :=
  run.invariant (fun _ _ _ coherent step => coherent.step step) (.initial run_id matter)

end MootLoop
