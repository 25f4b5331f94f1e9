import Mathlib.Data.List.Basic

/-! Runs of a labelled transition system, with the labels they took. A condition on steps selects the
    runs all of whose steps meet it. -/

namespace Transition

variable {σ τ : Type}

/-- A run from `s` and the labels of its steps, the last one last. -/
inductive Run (step : σ → τ → σ → Prop) (s : σ) : List τ → σ → Prop
  | start : Run step s [] s
  | snoc {trace : List τ} {s' s'' : σ} {label : τ} (run : Run step s trace s') (next : step s' label s'') :
      Run step s (trace ++ [label]) s''

namespace Run
variable {step step' : σ → τ → σ → Prop} {s s' s'' : σ} {trace trace' : List τ}

/-- What holds at the start and is kept by every step holds at the end of every run. -/
theorem invariant {I : σ → Prop} (keeps : ∀ s l s', I s → step s l s' → I s') (run : Run step s trace s')
    (start : I s) : I s' := by
  induction run with
  | start => exact start
  | snoc _ next ih => exact keeps _ _ _ ih next

/-- The rule of invariants that speak of the labels taken. -/
theorem history {H : List τ → σ → Prop}
    (keeps : ∀ trace s' l s'', Run step s trace s' → H trace s' → step s' l s'' → H (trace ++ [l]) s'')
    (run : Run step s trace s') (start : H [] s) : H trace s' := by
  induction run with
  | start => exact start
  | snoc run next ih => exact keeps _ _ _ _ run ih next

theorem one {label : τ} (next : step s label s') : Run step s [label] s' := Run.snoc .start next

theorem mono (le : ∀ s l s', step s l s' → step' s l s') (run : Run step s trace s') : Run step' s trace s' := by
  induction run with
  | start => exact .start
  | snoc _ next ih => exact .snoc ih (le _ _ _ next)

theorem trans (run : Run step s trace s') (run' : Run step s' trace' s'') : Run step s (trace ++ trace') s'' := by
  induction run' with
  | start => simpa using run
  | snoc _ next ih => rw [← List.append_assoc]; exact .snoc ih next

end Run

/-- The steps that meet a condition. -/
def Meeting (step : σ → τ → σ → Prop) (condition : σ → τ → σ → Prop) (s : σ) (label : τ) (s' : σ) : Prop :=
  step s label s' ∧ condition s label s'

/-- A run whose steps meet a condition is a run. -/
theorem Run.of_meeting {step condition : σ → τ → σ → Prop} {s s' : σ} {trace : List τ}
    (run : Run (Meeting step condition) s trace s') : Run step s trace s' :=
  run.mono fun _ _ _ next => next.1

end Transition
