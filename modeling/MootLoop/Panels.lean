import MootLoop.TurnGates
import Mathlib.Algebra.Order.Ring.Rat
import Mathlib.Algebra.Order.Group.Abs

/-! The judge panel's rulings folded per objection, and the convergence of the drafting loop. -/

namespace MootLoop

variable (x : Externals)

/-! ### Panel results -/

def basis_key (basis : String) : String := x.lower (strip basis)

/-- The first pass of the alignment: each objection claims an unclaimed ruling on its own basis, its
    own position first. Returns, per objection, the position it claimed. -/
def align_by_basis (rulings : List ObjectionRuling) :
    List (Nat × Objection) → List Nat → List (Option Nat)
  | [], _ => []
  | (index, objection) :: rest, claimed =>
    let candidates := (List.range rulings.length).filter fun j =>
      j ∉ claimed ∧ (rulings[j]?.any fun r => basis_key x r.objection_basis = basis_key x objection.basis)
    match candidates with
    | [] => none :: align_by_basis rulings rest claimed
    | first :: _ =>
      let chosen := if index ∈ candidates then index else first
      some chosen :: align_by_basis rulings rest (claimed ++ [chosen])

/-- The second pass: an objection left over takes the ruling at its own position, if unclaimed. -/
def align_by_position (count : Nat) : List (Nat × Option Nat) → List Nat → List (Option Nat)
  | [], _ => []
  | (_, some j) :: rest, claimed => some j :: align_by_position count rest claimed
  | (index, none) :: rest, claimed =>
    if index < count ∧ index ∉ claimed then some index :: align_by_position count rest (claimed ++ [index])
    else none :: align_by_position count rest claimed

/-- One ruling per objection for a single panel member; a ruling is claimed once. -/
def align_rulings (objections : List Objection) (judge_output : JudgeOutput) : List (Option ObjectionRuling) :=
  let rulings := judge_output.rulings
  let by_basis := align_by_basis x rulings ((List.range objections.length).zip objections) []
  let claimed := by_basis.filterMap id
  let positions := align_by_position rulings.length ((List.range by_basis.length).zip by_basis) claimed
  positions.map fun position => position.bind (rulings[·]?)

/-- One `PanelResult` per objection of the judged draft. -/
def fold_objection_results (run_id : RunId) (request_id : RequestId) (objections : List Objection)
    (judge_outputs : List JudgeOutput) : List PanelResult :=
  let aligned := judge_outputs.map (align_rulings x objections)
  ((List.range objections.length).zip objections).map fun (index, objection) =>
    let rulings := aligned.filterMap fun per_judge => (per_judge[index]?).join
    let survive := (rulings.filter (·.would_objection_survive)).length
    let total := rulings.length
    let samples := (rulings.filter fun r => !isBlank r.reasoning).map fun r => strip r.reasoning
    { run_id, request_id, objection_index := index, objection_basis := objection.basis,
      survive_votes := survive, total_votes := total,
      survival_rate := if total = 0 then 0 else (survive : Rat) / total,
      reasoning_samples := samples.take 3 }

/-! ### Convergence -/

/-- One partner-loop round's inputs. -/
structure RoundState where
  score : Rat
  coverage : Rat
  text : String
  deriving DecidableEq, Repr

inductive ConvergenceReason where
  | cap
  | insufficient_history
  | converged
  | incomplete
  | changing
  | improving
  deriving DecidableEq, Repr

structure ConvergenceDecision where
  converged : Bool
  reason : ConvergenceReason
  deriving DecidableEq, Repr

/-- Whether the loop should stop: at the cap, or when the draft stopped improving, stopped changing
    and is complete. -/
def evaluate_convergence (config : ConvergenceConfig) (history : List RoundState) (max_iterations : Nat) :
    ConvergenceDecision :=
  if history.length ≥ max_iterations then ⟨true, .cap⟩
  else
    match history.reverse with
    | current :: prev :: _ =>
      let score_delta := current.score - prev.score
      let material_change := 1 - x.sequence_similarity prev.text current.text
      let stopped_improving := |score_delta| < config.score_delta_floor
      let stopped_changing := material_change < config.material_change_floor
      let complete := current.coverage ≥ config.coverage_floor
      if stopped_improving ∧ stopped_changing ∧ complete then ⟨true, .converged⟩
      else if ¬complete then ⟨false, .incomplete⟩
      else if ¬stopped_changing then ⟨false, .changing⟩
      else ⟨false, .improving⟩
    | _ => ⟨false, .insufficient_history⟩

end MootLoop
