import MootLoop.Commands
import MootLoop.Lib.Transition

/-! The decision store on disk: the append-only log of a run and the sidecar of each decision, written after the
    decision's line and only once. -/

namespace MootLoop.Sidecars
open Durable

/-- The complete lines of `decisions.jsonl`, and the sidecars beside it. -/
structure DecisionFiles where
  log : List Decision := []
  sidecars : Dict DecisionId Decision := ∅

inductive FileWrite where
  | line (decision : Decision)
  | sidecar (decision : Decision)
  deriving DecidableEq, Repr

-- A line torn by a crash is no record: the next append cuts it off. A sidecar is renamed into place whole.
instance : Durable DecisionFiles FileWrite where
  commit s
    | .line decision => { s with log := s.log ++ [decision] }
    | .sidecar decision => { s with sidecars := s.sidecars.insert decision.decision_id decision }

@[simp] theorem commit_line (s : DecisionFiles) (d : Decision) :
    commit s (FileWrite.line d) = { s with log := s.log ++ [d] } := rfl
@[simp] theorem commit_sidecar (s : DecisionFiles) (d : Decision) :
    commit s (FileWrite.sidecar d) = { s with sidecars := s.sidecars.insert d.decision_id d } := rfl

abbrev StoreM := Prog DecisionFiles FileWrite Error

/-- `DecisionStore.append`: the record, then its sidecar unless there is one. -/
def append (decision : Decision) : StoreM Unit := do
  Prog.write (.line decision)
  let files ← Prog.read
  Prog.when (files.sidecars.contains decision.decision_id = false) (Prog.write (.sidecar decision))

/-- `derive_drafts_and_store`. -/
def derive_drafts_and_store (run_id : RunId) (drafts : List (TurnSpec × DraftOutput)) (document : Bool) : StoreM Unit := do
  Prog.forEach (derive_decisions run_id document (← Prog.read).log drafts) append

/-- Whether a resolution of the decision is one it offers. -/
def offered (decision : Decision) (action : ResolutionAction) (key : Option String) : Bool :=
  !(action = .modify && (key = none || key = some "")) &&
    (chosen_key decision action key).all fun k => decision.proposal.options.any (·.key = k)

/-- The record a resolution appends: none where the decision has the same resolution already. -/
def resolution_record (log : List Decision) (decision_id : DecisionId) (action : ResolutionAction) (key : Option String)
    (note decided_by source now : String) : Except Error (Option Decision) :=
  match (folded_decisions log).get? decision_id with
  | none => .error (.decision s!"unknown decision '{decision_id}'")
  | some decision =>
    if action = .modify ∧ (key = none ∨ key = some "") then
      .error (.decision "a 'modify' resolution requires --choose <key>")
    else
      let chosen := chosen_key decision action key
      if chosen.any fun k => !decision.proposal.options.any (·.key = k) then
        .error (.decision s!"chosen key is not an option for decision '{decision_id}'")
      else
        let requested : DecisionResolution :=
          { action, chosen_key := chosen, note, decided_by, source, decided_at := now }
        if decision.status = .open then
          .ok (some { decision with status := STATUS_FOR_ACTION action, resolution := some requested })
        else if decision.resolution.any fun stored => { stored with decided_at := now } = requested then .ok none
        else .error (.decision
          s!"decision '{decision_id}' is already {decision.status.value}; decisions never regress")

/-- What `resolve` does to the store. The derivation of its finalization is a derivation like any other. -/
def resolve (decision_id : DecisionId) (action : ResolutionAction) (key : Option String)
    (note decided_by source now : String) : StoreM Unit := do
  match ← Prog.lift (resolution_record (← Prog.read).log decision_id action key note decided_by source now) with
  | some resolved => append resolved
  | none => pure ()

/-! ### Runs -/

inductive Op where
  | derive (drafts : List (TurnSpec × DraftOutput)) (document : Bool)
  | resolve (decision_id : DecisionId) (action : ResolutionAction) (key : Option String)
      (note decided_by source now : String)

def Op.run (run_id : RunId) : Op → StoreM Unit
  | .derive drafts document => derive_drafts_and_store run_id drafts document
  | .resolve decision_id action key note decided_by source now =>
    Sidecars.resolve decision_id action key note decided_by source now

/-- One operation, run to its end or cut off by a crash. -/
def Step (run_id : RunId) (s : DecisionFiles) (op : Op) (s' : DecisionFiles) : Prop := Prog.Crash (op.run run_id) s s'

/-- A resolution of an open decision that would be recorded finds the decision's sidecar. -/
def Covered (s : DecisionFiles) : Op → Prop
  | .derive .. => True
  | .resolve decision_id action key .. => ∀ decision, (folded_decisions s.log).get? decision_id = some decision →
      decision.status = .open → offered decision action key = true → s.sidecars.contains decision_id = true

end MootLoop.Sidecars
