import MootLoop.Theorems.Runs
import Mathlib.Tactic.Linarith

/-! The budget cap at a provider call. A worker and a citation check look at the cap on the way to the
    call, and an accepted turn looks at it after its booking; a discarded turn does not, so the batch of
    the driver runs on. -/

namespace MootLoop
open Durable Transition

variable {x : Externals} {t : Publishing} {max_attempts : Nat} {s s' : System} {label : Label} {v v' : Vault}

/-! ### Within the cap -/

/-- Booked spend and the reservations of the other turns are below the cap in force. -/
def Vault.within_cap (v : Vault) (turn_id : TurnId) : Bool :=
  match v.run_context with
  | .error _ => true
  | .ok context =>
    (effective_cap v.state context).all
      (v.state.total_spend_usd + v.state.pending_intents.sumOther turn_id < ·)

theorem SameBudget.within_cap (h : SameBudget v v') (turn_id : TurnId) :
    v'.within_cap turn_id = v.within_cap turn_id := by
  unfold Vault.within_cap effective_cap
  rw [h.context, h.total_spend_usd, h.pending_intents, h.cap_raised_to]

/-- No reservation is negative. -/
def Vault.Reserved (v : Vault) : Prop := ∀ usd ∈ v.state.pending_intents.values, 0 ≤ usd

theorem Guarded.reserved {verbs : Verb → Prop} {w : Write} (h : Guarded verbs v w) (reserved : v.Reserved) :
    (v.commit w).Reserved := by
  intro usd mem
  cases w with
  | journal event =>
    rw [state_commit_journal] at mem
    cases event with
    | turn_intent event =>
      obtain ⟨k, at_k⟩ := Dict.mem_values.mp mem
      simp only [RunState.apply, Dict.get?_insert] at at_k
      split at at_k
      · cases at_k
        exact h.1
      · exact reserved usd (Dict.mem_values.mpr ⟨k, at_k⟩)
    | spend_recorded event =>
      obtain ⟨k, at_k⟩ := Dict.mem_values.mp mem
      simp only [RunState.apply, Dict.get?_erase] at at_k
      split at at_k
      · cases at_k
      · exact reserved usd (Dict.mem_values.mpr ⟨k, at_k⟩)
    | run_resumed =>
      refine reserved usd ?_
      simp only [RunState.apply] at mem
      split at mem <;> exact mem
    | _ => exact reserved usd mem
  | _ => exact reserved usd mem

/-- A run whose projection is within the cap is within it for every turn. -/
theorem within_cap_of_projected {context : RunContext} (reserved : v.Reserved) (loaded : v.run_context = .ok context)
    (within : over_cap v.state context = false) (turn_id : TurnId) : v.within_cap turn_id = true := by
  have own : 0 ≤ (v.state.pending_intents.get? turn_id).getD 0 := by
    cases at_id : v.state.pending_intents.get? turn_id with
    | none => simp
    | some usd => exact reserved usd (Dict.mem_values.mpr ⟨_, at_id⟩)
  have sum := v.state.pending_intents.sum_values turn_id
  simp only [over_cap] at within
  simp only [Vault.within_cap, loaded]
  cases cap : effective_cap v.state context with
  | none => rfl
  | some cap_usd =>
    simp only [cap, Option.any_some] at within
    have below : v.state.projected < cap_usd := not_le.mp (of_decide_eq_false within)
    simp only [RunState.projected] at below
    simp only [Option.all_some]
    exact decide_eq_true (by linarith)

/-! ### What a recording leaves the batch -/

/-- A booking in stores of one budget leaves one budget. -/
theorem SameBudget.booked (h : SameBudget v v') (spend : Option SpendRecorded) :
    SameBudget (v.booked spend) (v'.booked spend) := by
  cases spend with
  | none => exact h
  | some e =>
    refine ⟨?_, ?_, ?_, ?_⟩ <;>
      simp only [Vault.booked, Option.elim_some, state_commit_journal, RunState.apply,
        run_context_journal _ (.spend_recorded e) (by simp), h.total_spend_usd, h.pending_intents, h.cap_raised_to,
        h.context]

/-- The driver is about to discard a turn, not for the last time, at a price that takes the run to its
    cap for a turn still in the batch. -/
def overruns (x : Externals) (v : Vault) : DriverPhase → DriverAction → Prop
  | .returned spec _ rest result, .record now =>
    ∃ context spend, v.run_context = .ok context ∧ discards x context spec result.text = true ∧
      (v.state.discarded.get? spec.turn_id).getD 0 + 1 < effective_max_attempts v.state context.max_attempts ∧
      booking x v spec.turn_id result.usage spec.model now false result.provider_call_id = .ok spend ∧
      ∃ next ∈ rest, (v.booked spend).within_cap next.turn_id = false
  | _, _ => False

/-- A discard that is not the last one changes nothing of the budget but its booking. -/
theorem discard_budget {context : RunContext} {spec : TurnSpec} {reason detail : String} {usage : Option TokenUsage}
    {now : String} {provider_call_id : Option String} :
    wp (fun _ _ => True) (discard x context spec reason detail usage now provider_call_id)
      (fun r v' => (∃ turn, r = .ok turn) → v'.state.status ≠ .running ∨
        (v.state.discarded.get? spec.turn_id).getD 0 + 1 < effective_max_attempts v.state context.max_attempts ∧
          ∃ spend, booking x v spec.turn_id usage spec.model now false provider_call_id = .ok spend ∧
            SameBudget (v.booked spend) v') v := by
  simp only [discard, wp_bind, wp_book_spend, wp_load_state, wp_append, wp_when, wp_pure]
  cases booked : booking x v spec.turn_id usage spec.model now false provider_call_id with
  | error e => simp
  | ok spend =>
    have counted : (v.booked spend).state.discarded = v.state.discarded ∧
        (v.booked spend).state.attempts_granted = v.state.attempts_granted := by
      cases spend with
      | none => exact ⟨rfl, rfl⟩
      | some e => simp [Vault.booked, RunState.apply]
    have discarded : SameBudget (v.booked spend) ((v.booked spend).commit (.journal (.turn_discarded spec.turn_id
        reason ((v.state.discarded.get? spec.turn_id).getD 0 + 1) detail))) :=
      .of_kept ((show Write.Calm (.journal (.turn_discarded _ _ _ _)) from trivial).kept _)
    simp only [effective_max_attempts, counted, implies_true, true_and]
    refine ⟨fun _ _ => .inl (by simp [RunState.apply]), fun again _ => .inr ⟨by omega, spend, rfl, discarded⟩⟩

/-- What a recording leaves of the budget: a stopped run, a run within its cap, or the booking of a
    discard that is not the last one. -/
def Recorded.Leaves (x : Externals) (context : RunContext) (spec : TurnSpec) (result : RawTurnResult) (now : String)
    (v v' : Vault) : Prop :=
  v'.state.status ≠ .running ∨ over_cap v'.state context = false ∨
    discards x context spec result.text = true ∧
      (v.state.discarded.get? spec.turn_id).getD 0 + 1 < effective_max_attempts v.state context.max_attempts ∧
        ∃ spend, booking x v spec.turn_id result.usage spec.model now false result.provider_call_id = .ok spend ∧
          SameBudget (v.booked spend) v'

theorem record_spec_budget {verbs : Verb → Prop} (book : verbs .book) (running : v.state.status = .running)
    {context : RunContext} {spec : TurnSpec} {result : RawTurnResult} {now : String} {state : RunState} :
    wp (Guarded verbs) (record_spec x context spec result.text result.usage now state result.provider_call_id)
      (fun r v' => (∃ recorded, r = .ok recorded) → Recorded.Leaves x context spec result now v v') v := by
  refine wp_record_spec (fun _ _ => trivial) (fun discarded results reason detail => ?_)
    (fun output results _ => ?_) (fun _ _ => by simp)
  · have kept := kept_gated v spec.turn_id results
    refine ((discard_guarded book (kept.status.trans running) context spec reason detail result.usage now
      result.provider_call_id).and discard_budget).post ?_
    rintro r v' ⟨-, leaves⟩ ⟨recorded, ok⟩
    obtain ⟨turn, rfl⟩ : ∃ turn, r = .ok turn := by
      cases r with
      | error e => cases ok
      | ok turn => exact ⟨turn, rfl⟩
    refine (leaves ⟨turn, rfl⟩).imp_right fun again => .inr ⟨discarded, ?_⟩
    obtain ⟨again, spend, booked, same⟩ := again
    rw [state_gated] at again
    refine ⟨again, spend, ?_, ((SameBudget.of_kept kept).booked spend).trans same⟩
    -- without deduplication the booking does not look at the journal
    cases usage : result.usage <;> simpa [booking, usage] using booked
  · refine (accept_turn_guarded book context spec output results state result.usage now
      result.provider_call_id).post ?_
    rintro r v' leaves ⟨recorded, ok⟩
    cases r with
    | error e => cases ok
    | ok record => exact (leaves ⟨record, rfl⟩).imp_right .inl

/-! ### Turns about to be called for -/

/-- The turns the driver may call for before it looks at the cap again. -/
def DriverPhase.ahead : DriverPhase → List TurnSpec
  | .batch specs => specs
  | .ready spec _ rest => spec :: rest
  | .calling _ _ rest | .returned _ _ rest _ => rest
  | _ => []

/-- The turn a worker is about to call for. -/
def WorkerPhase.ahead : WorkerPhase → Option TurnSpec
  | .prompted _ spec => some spec
  | .cite_ready _ _ _ spec _ _ => some spec
  | _ => none

theorem DriverPhase.after_batch {r : Except Error DriverPhase} {rest : List TurnSpec}
    (h : DriverPhase.after r = .batch rest) : r = .ok (.batch rest) := by
  cases r with
  | error e => cases h
  | ok phase => exact congrArg _ h

theorem WorkerPhase.after_cite_ready {phase : WorkerPhase} {r : Except Error WorkerPhase} {item : WorkItem}
    {prepared : PreparedPropositionChecks} {bundle : PropositionEvidenceBundle} {spec : TurnSpec}
    {bundles : List PropositionEvidenceBundle} {unresolved : List CitationProposition}
    (h : phase.after r = .cite_ready item prepared bundle spec bundles unresolved) :
    r = .ok (.cite_ready item prepared bundle spec bundles unresolved) := by
  cases r with
  | error e => cases phase <;> cases h
  | ok next => exact congrArg _ h

/-- The driver's batch stays within the cap unless the action overruns it. -/
theorem driver_ahead {phase : DriverPhase} {action : DriverAction} {p : VaultM DriverPhase}
    (acts : driver_action x phase action = some p) (turning : phase.turning = true → v.state.status = .running)
    (reserved : v.Reserved) (spared : ¬overruns x v phase action)
    (ahead : v.state.status = .running → ∀ spec ∈ phase.ahead, v.within_cap spec.turn_id = true)
    (running : (p.final v).state.status = .running) :
    ∀ spec ∈ (DriverPhase.after (p v).2).ahead, (p.final v).within_cap spec.turn_id = true := by
  have drives := driver_drives (v := v) acts
  generalize next : DriverPhase.after (p v).2 = phase' at drives ⊢
  generalize final : p.final v = v' at drives running ⊢
  cases drives with
  | ended | looped _ => simp [DriverPhase.ahead]
  | planned _ loaded within _ => exact fun spec _ => within_cap_of_projected reserved loaded within spec.turn_id
  | started _ _ => exact ahead running
  | skipped _ | called => exact fun spec mem => ahead running spec (List.mem_cons_of_mem _ mem)
  | answered => exact ahead running
  | @recorded spec fresh rest result now =>
    cases acts
    have records : wp (Guarded (DriverAction.record now).verbs)
        (do let context ← load_run_context
            let _ ← record_spec x context spec result.text result.usage now fresh result.provider_call_id
            return DriverPhase.batch rest)
        (fun r v' => r = .ok (.batch rest) → v'.state.status = .running →
          ∀ next ∈ rest, v'.within_cap next.turn_id = true) v := by
      simp only [wp_bind, wp_load_run_context]
      cases loaded : v.run_context with
      | error e => simp
      | ok context =>
        refine ((record_spec_budget (by rfl) (turning rfl)).keeps
          (I := fun v' => v'.Reserved ∧ v'.run_context = .ok context)
          (fun _ _ kept guarded =>
            ⟨guarded.reserved kept.1, (guarded.run_context (by simp [DriverAction.verbs])).trans kept.2⟩)
          ⟨reserved, loaded⟩).post ?_
        rintro (e | recorded) v' ⟨leaves, reserved', loaded'⟩
        · simp
        · refine (wp_pure _).mpr fun _ running' next mem => ?_
          rcases leaves ⟨recorded, rfl⟩ with stopped | within | ⟨discarded, again, spend, booked, same⟩
          · exact absurd running' stopped
          · exact within_cap_of_projected reserved' loaded' within next.turn_id
          · rw [same.within_cap]
            by_contra past
            exact spared ⟨context, spend, loaded, discarded, again, booked, next, mem, by simpa using past⟩
    subst final
    refine records.2 ?_ running
    exact DriverPhase.after_batch next

/-- A check is called for only within the cap: its own reservation does not count against it. -/
theorem open_check_within {free : Bool} {bundle : PropositionEvidenceBundle} {now : String} (reserved : v.Reserved) :
    wp (fun _ _ => True) (open_check x free bundle now)
      (fun r v' => ∀ spec, r = .ok (.call spec) → v'.within_cap spec.turn_id = true) v := by
  simp only [open_check, wp_bind, wp_load_run_context]
  cases loaded : v.run_context with
  | error e => simp
  | ok context =>
    simp only [wp_read, wp_ite, wp_pure]
    refine ⟨fun _ => by simp, fun _ => ?_⟩
    split
    · rw [wp_bind]
      refine wp_of_forall fun r v' => ?_
      cases r <;> simp
    · simp only [wp_with_lock, wp_bind, wp_load_state, wp_ite, wp_pure, wp_when, wp_lift, wp_append]
      refine ⟨fun _ => ⟨fun _ => by simp, fun within => ?_⟩, fun _ => by simp⟩
      have before := within_cap_of_projected reserved loaded (by simpa using within)
        (build_check_spec context bundle).turn_id
      refine ⟨fun _ => ?_, fun _ spec opened => by cases opened; exact before⟩
      cases date_of x now with
      | error e => simp
      | ok on =>
        refine ⟨trivial, fun spec opened => ?_⟩
        cases opened
        simp only [Vault.within_cap, run_context_journal _ (.turn_intent _) (by simp), state_commit_journal,
          effective_cap, RunState.apply, Dict.sumOther_insert_self] at before ⊢
        exact before

/-- A worker comes to the point of calling for a turn only within the cap. -/
theorem worker_ahead {phase : WorkerPhase} {action : WorkerAction} {p : VaultM WorkerPhase} {spec : TurnSpec}
    (acts : worker_action x max_attempts phase action = some p) (reserved : v.Reserved)
    (ahead : (phase.after (p v).2).ahead = some spec) : (p.final v).within_cap spec.turn_id = true := by
  have enters := worker_enters (v := v) acts
  generalize next : phase.after (p v).2 = phase' at enters ahead
  cases enters with
  | quiet quiet => cases phase' <;> simp_all [WorkerPhase.ahead, WorkerPhase.critical]
  | @prompted item _ _ _ loaded within =>
    cases acts
    cases ahead
    have same : SameBudget v ((assemble_prompt x item spec).final v) :=
      .of_kept (kept_of_calm (assemble_prompt_calm item spec v))
    rw [same.within_cap]
    exact within_cap_of_projected reserved loaded within _
  | @opened item prepared now bundle _ rest unresolved =>
    cases acts
    cases ahead
    have opens : wp (fun _ _ => True) (check_bundle x true now item prepared unresolved (bundle :: rest))
        (fun r v' => ∀ item prepared bundle spec rest unresolved,
          r = .ok (.cite_ready item prepared bundle spec rest unresolved) → v'.within_cap spec.turn_id = true) v := by
      simp only [check_bundle, wp_bind, wp_attempt]
      refine (open_check_within reserved).post fun r v' within => ?_
      split
      · simp
      · simp
      · simp
      · simp
      · next opened _ =>
        refine (wp_pure _).mpr fun _ _ _ spec _ _ same => ?_
        cases same
        exact within _ rfl
    refine opens.2 _ _ _ _ _ _ (WorkerPhase.after_cite_ready next)
  | dispatched _ | passed | called | answered | checked => cases ahead

/-! ### Runs within the cap -/

/-- What keeps the calls of a run within its cap: no step of another actor takes the run to the cap
    between a worker's look at it and the call, and the driver's discards do not overrun its batch. -/
structure Budgeted (x : Externals) (s : System) (label : Label) (s' : System) : Prop where
  window : ∀ w item spec, s.workers w = .prompted item spec → label.actor ≠ .worker w →
    s'.vault.within_cap spec.turn_id = true
  batch : ∀ phase action dies, label = .driver phase action dies → ¬overruns x s.vault phase action

theorem Budgeted.of_command {free dies : Bool} {command : Command}
    (quiet : ∀ w item spec, s.workers w ≠ .prompted item spec) (h : label = .command free command dies) :
    Budgeted x s label s' where
  window w item spec phase := absurd phase (quiet w item spec)
  batch phase action dies same := by rw [h] at same; cases same

theorem Budgeted.of_driver {phase : DriverPhase} {action : DriverAction} {dies : Bool}
    (quiet : ∀ w item spec, s.workers w ≠ .prompted item spec) (unrecorded : ∀ now, action ≠ .record now)
    (h : label = .driver phase action dies) : Budgeted x s label s' where
  window w item spec phase := absurd phase (quiet w item spec)
  batch phase' action' dies' same := by
    rw [h] at same
    cases same
    cases action with
    | record now => exact absurd rfl (unrecorded now)
    | _ => cases phase <;> exact id

/-- Whoever is about to call for a turn is within the cap for it. -/
structure Funded (s : System) : Prop where
  coherent : Coherent s
  reserved : s.vault.Reserved
  workers : ∀ w spec, (s.workers w).ahead = some spec → s.vault.within_cap spec.turn_id = true
  driver : s.vault.state.status = .running → ∀ spec ∈ s.driver.ahead, s.vault.within_cap spec.turn_id = true

theorem Funded.initial (run_id : RunId) (matter : MatterConfig) : Funded (System.initial run_id matter) where
  coherent := .initial run_id matter
  reserved := by simp [System.initial, Vault.Reserved, Vault.state]
  workers _ _ h := by cases h
  driver _ _ h := by cases h

/-- A worker that another actor's step finds at the point of calling stays within the cap. -/
theorem Funded.worker_of_other (funded : Funded s) (step : Step x t max_attempts s label s')
    (budgeted : Budgeted x s label s') {w : Nat} {spec : TurnSpec} (other : label.actor ≠ .worker w)
    (ahead : (s.workers w).ahead = some spec) : s'.vault.within_cap spec.turn_id = true := by
  cases phase : s.workers w with
  | prompted item _ =>
    rw [phase] at ahead
    cases ahead
    exact budgeted.window w item spec phase other
  | cite_ready =>
    have held : s.Holds (.worker w) := by simp [System.Holds, phase, WorkerPhase.holds_lock]
    rw [(SameBudget.of_kept (step.kept_of_held funded.coherent held other)).within_cap]
    exact funded.workers w spec ahead
  | _ => rw [phase] at ahead; cases ahead

/-- So does the batch of the driver. -/
theorem Funded.driver_of_other (funded : Funded s) (step : Step x t max_attempts s label s')
    (other : label.actor ≠ .driver) (running : s'.vault.state.status = .running) :
    ∀ spec ∈ s.driver.ahead, s'.vault.within_cap spec.turn_id = true := by
  intro spec mem
  have held : s.Holds .driver := by
    show s.driver.holds_lock = true
    cases phase : s.driver with
    | idle => simp [phase, DriverPhase.ahead] at mem
    | _ => rfl
  have kept := step.kept_of_held funded.coherent held other
  rw [(SameBudget.of_kept kept).within_cap]
  exact funded.driver (kept.status.symm.trans running) spec mem

theorem Funded.step (funded : Funded s) (step : Step x t max_attempts s label s')
    (budgeted : Budgeted x s label s') : Funded s' := by
  have reserved : s'.vault.Reserved := by
    obtain ⟨ws, path, reached⟩ := step.guarded funded.coherent
    rw [reached]
    exact path.keeps (fun _ _ reserved guarded => guarded.reserved reserved) funded.reserved
  have workers {w : Nat} {spec : TurnSpec} (other : label.actor ≠ .worker w) :
      (s.workers w).ahead = some spec → s'.vault.within_cap spec.turn_id = true :=
    funded.worker_of_other step budgeted other
  have driver (other : label.actor ≠ .driver) := funded.driver_of_other step other
  refine ⟨funded.coherent.step step, reserved, ?_, ?_⟩
  · cases step with
    | command lock leaves => exact fun w spec ahead => workers (by simp [Label.actor]) ahead
    | driver acts lock leaves => exact fun w spec ahead => workers (by simp [Label.actor]) ahead
    | @worker w action p dies v acts lock leaves =>
      intro w' spec ahead
      by_cases same : w' = w
      · subst same
        simp only [Function.update_self] at ahead
        cases dies with
        | true => cases ahead
        | false =>
          cases leaves
          exact worker_ahead acts funded.reserved ahead
      · simp only [Function.update_of_ne same] at ahead
        exact workers (by simpa [Label.actor] using fun h => same h.symm) ahead
  · cases step with
    | command lock leaves => exact driver (by simp [Label.actor])
    | worker acts lock leaves => exact driver (by simp [Label.actor])
    | @driver action p dies v acts lock leaves =>
      intro running spec ahead
      cases dies with
      | true => cases ahead
      | false =>
        cases leaves
        exact driver_ahead acts funded.coherent.driving funded.reserved (budgeted.batch _ _ _ rfl) funded.driver running
          spec ahead

namespace Sample

/-- The driver plans both responses under a cap of one dollar. -/
def plan_batch : List Act := [start (some 1), .driver (.start true), .driver .iterate, .driver .next]

/-- The first response cannot be parsed and costs a dollar. -/
def refuse : List Act :=
  [.driver .call,
   .driver (.answer (some
    { text := "I cannot.",
      usage := some { input_tokens := 0, cache_read := 0, cache_write := 0, output_tokens := 100000,
                      model := "claude-sonnet-5" } })),
   .driver (.record "2026-01-05"), .driver .next]

end Sample

end MootLoop
