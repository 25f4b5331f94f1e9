import MootLoop.System

/-! What one durable write can do. A calm write leaves the lifecycle of the run alone: its status,
    pause, cap, spend and reservations. Every other write is guarded by the state it is made in, and
    the verbs of an actor say which of them it may make at all. -/

namespace MootLoop
open Durable

/-! ### Programs of the vault -/

section
variable {α : Type} {P : Vault → Write → Prop} {v : Vault}

@[simp] theorem commit_eq (v : Vault) (w : Write) : Durable.commit v w = v.commit w := rfl

@[simp] theorem wp_append (event : JournalEvent) {Q : Except Error Unit → Vault → Prop} :
    wp P (append event) Q v ↔ P v (.journal event) ∧ Q (.ok ()) (v.commit (.journal event)) := by
  simp [append]

@[simp] theorem wp_load_state {Q : Except Error RunState → Vault → Prop} :
    wp P load_state Q v ↔ Q (.ok v.state) v := by simp [load_state]

@[simp] theorem wp_read_events {Q : Except Error (List JournalEvent) → Vault → Prop} :
    wp P read_events Q v ↔ Q (.ok v.journal) v := by simp [read_events]

@[simp] theorem wp_load_run_context {Q : Except Error RunContext → Vault → Prop} :
    wp P load_run_context Q v ↔ Q v.run_context v := by simp [load_run_context]

theorem wp_with_lock {free : Bool} {body : VaultM α} {Q : Except Error α → Vault → Prop} :
    wp P (with_lock free body) Q v ↔
      (free = true → wp P body Q v) ∧ (free = false → Q (.error (.lockHeld "lock held by live process")) v) := by
  cases free <;> simp [with_lock]

end

/-! ### Calm writes -/

/-- The part of a state that turns, verdicts, decisions and ledger records leave alone. -/
structure Lifecycle where
  status : RunStatus
  pause_reason : Option String
  mode : RunMode
  cap_raised_to : Option Rat
  total_spend_usd : Rat
  pending_intents : Dict TurnId Rat
  attempts_granted : Nat
  cleared_checkpoints : List String

def RunState.lifecycle (state : RunState) : Lifecycle where
  status := state.status
  pause_reason := state.pause_reason
  mode := state.mode
  cap_raised_to := state.cap_raised_to
  total_spend_usd := state.total_spend_usd
  pending_intents := state.pending_intents
  attempts_granted := state.attempts_granted
  cleared_checkpoints := state.cleared_checkpoints

/-- The write leaves the lifecycle and the launch context alone. -/
def Write.Calm : Write → Prop
  | .journal event =>
    match event with
    | .stage_started _ | .turn_completed _ | .turn_discarded _ _ _ _ | .gate_evaluated _ _
    | .decision_recorded _ | .run_enqueued _ _ => True
    | _ => False
  | .manifest _ _ => False
  | _ => True

/-- The same lifecycle under the same launch context. -/
structure Kept (v v' : Vault) : Prop where
  life : v'.state.lifecycle = v.state.lifecycle
  context : v'.run_context = v.run_context

namespace Kept
variable {v v' v'' : Vault}

theorem refl (v : Vault) : Kept v v := ⟨rfl, rfl⟩
theorem trans (h : Kept v v') (h' : Kept v' v'') : Kept v v'' :=
  ⟨h'.life.trans h.life, h'.context.trans h.context⟩

theorem status (h : Kept v v') : v'.state.status = v.state.status := congrArg Lifecycle.status h.life
theorem pause_reason (h : Kept v v') : v'.state.pause_reason = v.state.pause_reason :=
  congrArg Lifecycle.pause_reason h.life
theorem cap_raised_to (h : Kept v v') : v'.state.cap_raised_to = v.state.cap_raised_to :=
  congrArg Lifecycle.cap_raised_to h.life
theorem total_spend_usd (h : Kept v v') : v'.state.total_spend_usd = v.state.total_spend_usd :=
  congrArg Lifecycle.total_spend_usd h.life
theorem pending_intents (h : Kept v v') : v'.state.pending_intents = v.state.pending_intents :=
  congrArg Lifecycle.pending_intents h.life
theorem attempts_granted (h : Kept v v') : v'.state.attempts_granted = v.state.attempts_granted :=
  congrArg Lifecycle.attempts_granted h.life

end Kept

@[simp] theorem state_commit_journal (v : Vault) (event : JournalEvent) :
    (v.commit (.journal event)).state = v.state.apply event := fold_snoc _ _
/-- Only the journal bears on the folded state. -/
theorem state_commit_other (v : Vault) {w : Write} (other : ∀ event, w ≠ .journal event) :
    (v.commit w).state = v.state := by
  cases w with
  | journal event => exact absurd rfl (other event)
  | _ => rfl

/-- Only a start adds to what the journal commits as the launch. -/
theorem run_context_journal (v : Vault) (event : JournalEvent) (other : ∀ e, event ≠ .run_started e) :
    (v.commit (.journal event)).run_context = v.run_context := by
  have started : (v.commit (.journal event)).started = v.started := by
    simp only [Vault.started, Vault.commit, List.filterMap_append]
    cases event with
    | run_started e => exact absurd rfl (other e)
    | _ => simp
  unfold Vault.run_context
  rw [started]
  rfl

theorem Write.Calm.kept {w : Write} (calm : w.Calm) (v : Vault) : Kept v (v.commit w) := by
  cases w with
  | journal event =>
    refine ⟨?_, run_context_journal v event ?_⟩
    · rw [state_commit_journal]
      cases event <;> first | rfl | exact calm.elim
    · rintro e rfl
      exact calm.elim
  | manifest _ _ => exact calm.elim
  | _ => exact ⟨rfl, rfl⟩

theorem kept_of_calm {v : Vault} {ws : List Write} (h : ∀ w ∈ ws, w.Calm) : Kept v (commits v ws) :=
  (path_of_only h).keeps (I := Kept v) (fun s _ kept calm => kept.trans (calm.kept s)) (.refl v)

/-! ### Guarded writes -/

/-- The lifecycle writes an actor may make. -/
inductive Verb where
  | start
  | attend
  | pause (reason : String)
  | resume
  | continue_
  | raise_cap (to_usd : Rat)
  | reopen
  | reserve
  | book
  deriving DecidableEq

/-- What the code checks before each kind of lifecycle write. -/
def Guarded (verbs : Verb → Prop) (v : Vault) : Write → Prop
  | .manifest _ _ => v.journal = [] ∧ verbs .start
  | .journal event =>
    match event with
    | .run_started _ => v.journal = [] ∧ verbs .start
    | .run_finished .finished => v.state.status = .running ∨ v.state.status = .needs_decisions
    | .run_finished .needs_decisions => v.state.status = .running
    | .run_finished .capped => v.state.status = .running
    | .run_finished .needs_attention => v.state.status = .running ∨ verbs .attend
    | .run_finished _ => False
    | .cap_raised to_usd => verbs (.raise_cap to_usd)
    | .checkpoint_reached _ => v.state.status = .running
    | .checkpoint_cleared _ => v.state.status = .checkpoint ∧ verbs .continue_
    | .run_paused reason => v.state.is_terminal = false ∧ verbs (.pause reason)
    | .run_resumed => v.state.status = .paused ∧ verbs .resume
    | .run_reopened _ _ _ => v.state.status = .needs_attention ∧ verbs .reopen
    | .turn_intent event => 0 ≤ event.max_plausible_usd ∧ verbs .reserve
    | .spend_recorded _ => verbs .book
    | .stage_started _ | .turn_completed _ | .turn_discarded _ _ _ _ | .gate_evaluated _ _
    | .decision_recorded _ | .run_enqueued _ _ => True
  | _ => True

theorem Write.Calm.guarded {w : Write} (calm : w.Calm) (verbs : Verb → Prop) (v : Vault) : Guarded verbs v w := by
  cases w with
  | journal event => cases event <;> trivial
  | manifest _ _ => exact calm.elim
  | _ => trivial

theorem Guarded.mono {verbs verbs' : Verb → Prop} (le : ∀ verb, verbs verb → verbs' verb) {v : Vault} {w : Write}
    (h : Guarded verbs v w) : Guarded verbs' v w := by
  cases w with
  | journal event =>
    cases event with
    | run_finished status =>
      cases status with
      | needs_attention => exact h.imp_right (le _)
      | _ => exact h
    | run_started e => exact ⟨h.1, le _ h.2⟩
    | cap_raised c => exact le _ h
    | checkpoint_cleared b => exact ⟨h.1, le _ h.2⟩
    | run_paused r => exact ⟨h.1, le _ h.2⟩
    | run_resumed => exact ⟨h.1, le _ h.2⟩
    | run_reopened _ _ _ => exact ⟨h.1, le _ h.2⟩
    | turn_intent e => exact ⟨h.1, le _ h.2⟩
    | spend_recorded e => exact le _ h
    | _ => exact h
  | manifest _ _ => exact ⟨h.1, le _ h.2⟩
  | _ => trivial

/-- Only a start changes the launch context. -/
theorem Guarded.run_context {verbs : Verb → Prop} (unstarted : ¬verbs .start) {v : Vault} {w : Write}
    (h : Guarded verbs v w) : (v.commit w).run_context = v.run_context := by
  cases w with
  | journal event =>
    refine run_context_journal v event ?_
    rintro e rfl
    exact unstarted h.2
  | manifest _ _ => exact absurd h.2 unstarted
  | _ => rfl

/-- A run that has started keeps its launch context. -/
theorem Guarded.keeps_context {verbs : Verb → Prop} {v : Vault} {w : Write} (h : Guarded verbs v w)
    (started : v.journal ≠ []) : (v.commit w).run_context = v.run_context ∧ (v.commit w).journal ≠ [] := by
  cases w with
  | journal event =>
    refine ⟨run_context_journal v event ?_, by simp [Vault.commit]⟩
    rintro e rfl
    exact started h.1
  | manifest _ _ => exact absurd h.1 started
  | _ => exact ⟨rfl, started⟩

/-! ### The budget -/

/-- The verbs that bear on the budget or on the launch context. -/
def Verb.budgets : Verb → Bool
  | .start | .raise_cap _ | .reserve | .book => true
  | _ => false

/-- The same spend, reservations, cap and launch context. -/
structure SameBudget (v v' : Vault) : Prop where
  total_spend_usd : v'.state.total_spend_usd = v.state.total_spend_usd
  pending_intents : v'.state.pending_intents = v.state.pending_intents
  cap_raised_to : v'.state.cap_raised_to = v.state.cap_raised_to
  context : v'.run_context = v.run_context

namespace SameBudget
variable {v v' v'' : Vault}

theorem refl (v : Vault) : SameBudget v v := ⟨rfl, rfl, rfl, rfl⟩
theorem trans (h : SameBudget v v') (h' : SameBudget v' v'') : SameBudget v v'' :=
  ⟨h'.1.trans h.1, h'.2.trans h.2, h'.3.trans h.3, h'.4.trans h.4⟩
theorem of_kept (h : Kept v v') : SameBudget v v' := ⟨h.total_spend_usd, h.pending_intents, h.cap_raised_to, h.context⟩

/-- The cap check reads nothing else. -/
theorem over_cap (h : SameBudget v v') (context : RunContext) :
    MootLoop.over_cap v'.state context = MootLoop.over_cap v.state context := by
  unfold MootLoop.over_cap effective_cap RunState.projected
  rw [h.total_spend_usd, h.pending_intents, h.cap_raised_to]

end SameBudget

theorem Guarded.same_budget {verbs : Verb → Prop} (quiet : ∀ verb, verbs verb → verb.budgets = false) {v : Vault}
    {w : Write} (h : Guarded verbs v w) : SameBudget v (v.commit w) := by
  cases w with
  | journal event =>
    have context (other : ∀ e, event ≠ .run_started e) := run_context_journal v event other
    cases event with
    | run_started e => exact absurd (quiet _ h.2) (by simp [Verb.budgets])
    | cap_raised c => exact absurd (quiet _ h) (by simp [Verb.budgets])
    | turn_intent e => exact absurd (quiet _ h.2) (by simp [Verb.budgets])
    | spend_recorded e => exact absurd (quiet _ h) (by simp [Verb.budgets])
    | run_resumed =>
      refine ⟨?_, ?_, ?_, context (by simp)⟩ <;>
        · rw [state_commit_journal, RunState.apply]
          split <;> rfl
    | _ => exact ⟨by rw [state_commit_journal]; rfl, by rw [state_commit_journal]; rfl,
        by rw [state_commit_journal]; rfl, context (by simp)⟩
  | manifest _ _ => exact absurd (quiet _ h.2) (by simp [Verb.budgets])
  | _ => exact ⟨rfl, rfl, rfl, rfl⟩

/-- An actor with no verb of the budget leaves it alone. -/
theorem wp_same_budget {α : Type} {p : VaultM α} {v : Vault} {verbs : Verb → Prop}
    {Q : Except Error α → Vault → Prop} (quiet : ∀ verb, verbs verb → verb.budgets = false)
    (h : wp (Guarded verbs) p Q v) : wp (Guarded verbs) p (fun r v' => Q r v' ∧ SameBudget v v') v :=
  h.keeps (fun _ _ same guarded => same.trans (guarded.same_budget quiet)) (.refl v)

/-- A calm program, as one of a guarded actor: it keeps the lifecycle. -/
theorem wp_of_calm {α : Type} {p : VaultM α} {v : Vault} (h : Only Write.Calm p) {verbs : Verb → Prop}
    {Q : Except Error α → Vault → Prop} (post : ∀ r v', Kept v v' → Q r v') : wp (Guarded verbs) p Q v :=
  ⟨(h.wp (s := v) fun s _ calm => calm.guarded verbs s).1, post _ _ (kept_of_calm (h v))⟩

theorem calm_guarded {α : Type} {p : VaultM α} {v : Vault} {verbs : Verb → Prop} (h : Only Write.Calm p) :
    wp (Guarded verbs) p (fun _ _ => True) v := wp_of_calm h fun _ _ _ => trivial

end MootLoop
