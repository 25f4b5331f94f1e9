import MootLoop.Lib.Durable
import MootLoop.Lib.Dict
import MootLoop.Common
import Mathlib.Algebra.Order.Ring.Rat

/-! The fact ledger: an append-only log of fact versions, folded into the current state on every read. An operation
    reads the log and appends to it one record at a time. -/

namespace MootLoop

namespace Facts
open Durable

inductive FactError where
  | fact (message : String)
  | validation
  deriving DecidableEq, Repr

inductive FactReviewStatus where
  | pending
  | accepted
  | rejected
  deriving DecidableEq, Repr

def FactReviewStatus.text : FactReviewStatus → String
  | .pending => "pending"
  | .accepted => "accepted"
  | .rejected => "rejected"

/-- A verbatim quote of a corpus document. -/
structure Provenance where
  doc_id : String
  quote : String
  location_hint : Option String := none
  deriving DecidableEq, Repr

/-- One version of one logical fact: `supersedes` names the version it replaces, `superseded_by` the one that
    replaced it. -/
structure Fact where
  fact_id : FactId
  statement : String
  provenance : List Provenance
  confidence : Rat
  version : Nat
  superseded_by : Option FactId := none
  supersedes : Option FactId := none
  review_status : FactReviewStatus := .accepted
  reviewed_by : Option String := none
  reviewed_at : Option String := none
  review_note : Option String := none
  deriving DecidableEq, Repr

instance : Durable (List Fact) Fact := ⟨fun records record => records ++ [record]⟩

/-! ### The fold -/

/-- The last record of each id. -/
def latest (records : List Fact) : Dict FactId Fact :=
  records.foldl (fun state record => state.insert record.fact_id record) ∅

/-- Closes the transition an accepted successor's back-pointer names, unless the predecessor has one. -/
def close_transition (state : Dict FactId Fact) (record : Fact) : Dict FactId Fact :=
  if record.review_status ≠ .accepted then state
  else
    match record.supersedes with
    | none => state
    | some predecessor_id =>
      -- an empty id is falsy
      if predecessor_id = "" then state
      else
        match state.get? predecessor_id with
        | none => state
        | some predecessor =>
          if predecessor.superseded_by = none then
            state.insert predecessor.fact_id { predecessor with superseded_by := some record.fact_id }
          else state

def fold (records : List Fact) : Dict FactId Fact := records.foldl close_transition (latest records)

namespace FactStore

def all_folded (records : List Fact) : List Fact := (fold records).values

def get_current (records : List Fact) : List Fact := (all_folded records).filter (·.superseded_by = none)

def get_run_visible (records : List Fact) : List Fact := (get_current records).filter (·.review_status = .accepted)

def get (records : List Fact) (fact_id : FactId) : Option Fact := (fold records).get? fact_id

end FactStore

/-! ### The corpus a fact is supported by -/

structure CorpusDoc where
  doc_id : String
  ingested_ok : Bool
  normalized_path : Option String
  role : Option String
  privileged : Option Bool
  deriving DecidableEq, Repr

/-- Only normalized documents with both human triage calls may enter runs. -/
def CorpusDoc.run_visible (doc : CorpusDoc) : Bool :=
  doc.ingested_ok && doc.normalized_path.isSome && doc.role.isSome && doc.privileged.isSome

/-- The manifest of a vault, and what reading a normalized text of it gives. -/
structure Corpus where
  docs : List CorpusDoc
  read_text : String → Except FactError (Option String)

def Corpus.get (corpus : Corpus) (doc_id : String) : Option CorpusDoc := corpus.docs.find? (·.doc_id = doc_id)

/-- What one provenance entry lacks. -/
def provenance_problem (corpus : Corpus) (provenance : Provenance) : Except FactError (Option String) :=
  match corpus.get provenance.doc_id with
  | none => .ok s!"unknown document {provenance.doc_id}"
  | some doc =>
    if !doc.run_visible then .ok s!"document {provenance.doc_id} is not role/privilege reviewed"
    else do
      match ← corpus.read_text (doc.normalized_path.getD "") with
      | none => return some s!"document {provenance.doc_id} normalized text is missing"
      | some text =>
        let quote := strip provenance.quote
        return if quote = "" ∨ !isIn quote text then some s!"quote not found in document {provenance.doc_id}" else none

def fact_support_problems (corpus : Corpus) (fact : Fact) : Except FactError (List String) :=
  if fact.provenance = [] then .ok ["no provenance"]
  else do return (← fact.provenance.mapM (provenance_problem corpus)).filterMap id

/-! ### Operations -/

inductive FactReviewAction where
  | accept
  | reject
  deriving DecidableEq, Repr

def FactReviewAction.status : FactReviewAction → FactReviewStatus
  | .accept => .accepted
  | .reject => .rejected

namespace FactStore

section
variable (sha256 : String → String)

/-- The id of a version, from the SHA-256 of its content in hexadecimal. -/
def fact_id (statement : String) (version : Nat) (provenance : List Provenance) : FactId :=
  let content := statement ++ s!"\x00{version}\x00" ++
    String.join (provenance.map fun prov => s!"{prov.doc_id}\x00{prov.quote}\x00")
  "fact-" ++ String.ofList ((sha256 content).toList.take 16)

/-- The record of a new version; its confidence must be in `[0, 1]`. -/
def new_fact (statement : String) (provenance : List Provenance) (confidence : Rat) (version : Nat)
    (supersedes : Option FactId) (review_status : FactReviewStatus) : Except FactError Fact :=
  if 0 ≤ confidence ∧ confidence ≤ 1 then
    .ok { fact_id := fact_id sha256 statement version provenance, statement, provenance, confidence, version,
          supersedes, review_status }
  else .error .validation

def add_fact (statement : String) (provenance : List Provenance) (confidence : Rat) :
    Prog (List Fact) Fact FactError Fact := do
  let fact ← Prog.lift (new_fact sha256 statement provenance confidence 1 none .accepted)
  Prog.write fact
  return fact

/-- Appends an unreviewed candidate, unless its id is taken. -/
def append_candidate (records : List Fact) (candidate : Fact) : Prog (List Fact) Fact FactError Fact :=
  if (get records candidate.fact_id).isSome then
    throw (.fact s!"fact candidate {candidate.fact_id} already exists")
  else do
    Prog.write candidate
    return candidate

def propose_fact (statement : String) (provenance : List Provenance) (confidence : Rat) :
    Prog (List Fact) Fact FactError Fact := do
  let fact ← Prog.lift (new_fact sha256 statement provenance confidence 1 none .pending)
  append_candidate (← Prog.read) fact

/-- The predecessor of a revision: it must exist and not be superseded. -/
def current_predecessor (records : List Fact) (predecessor_id : FactId) : Except FactError Fact :=
  match get records predecessor_id with
  | none => .error (.fact s!"unknown fact_id: {predecessor_id}")
  | some predecessor =>
    match predecessor.superseded_by with
    | some successor => .error (.fact s!"fact {predecessor_id} is already superseded by {successor}")
    | none => .ok predecessor

def propose_revision (predecessor_id : FactId) (statement : String) (provenance : List Provenance)
    (confidence : Rat) : Prog (List Fact) Fact FactError Fact := do
  let records ← Prog.read
  let predecessor ← Prog.lift (current_predecessor records predecessor_id)
  let candidate ← Prog.lift (new_fact sha256 statement provenance confidence (predecessor.version + 1)
    (some predecessor.fact_id) .pending)
  append_candidate records candidate

/-- The predecessor an accepted revision retires; a rejected one, or a first version, retires none. -/
def retired_predecessor (records : List Fact) (fact : Fact) (action : FactReviewAction) :
    Except FactError (Option Fact) :=
  match action, fact.supersedes with
  | .reject, _ | .accept, none => .ok none
  | .accept, some predecessor_id =>
    match get records predecessor_id with
    | none => .error (.fact s!"unknown predecessor fact: {predecessor_id}")
    | some predecessor =>
      match predecessor.superseded_by with
      | some successor => .error (.fact s!"fact {predecessor_id} is already superseded by {successor}")
      | none => .ok (some predecessor)

/-- Only an acceptance asks for support. -/
def review_problems (corpus : Corpus) (fact : Fact) : FactReviewAction → Except FactError (List String)
  | .accept => fact_support_problems corpus fact
  | .reject => .ok []

/-- The review of one pending candidate, over the corpus as it is then. -/
def review_checks (corpus : Corpus) (records : List Fact) (fact_id : FactId) (action : FactReviewAction)
    (reviewer reviewed_at : String) : Except FactError (Fact × Option Fact) :=
  match get records fact_id with
  | none => .error (.fact s!"unknown fact_id: {fact_id}")
  | some fact =>
    if fact.review_status ≠ .pending then .error (.fact s!"fact {fact_id} is already {fact.review_status.text}")
    else if isBlank reviewer ∨ isBlank reviewed_at then .error (.fact "fact review requires a reviewer and timestamp")
    else do
      let problems ← review_problems corpus fact action
      if problems ≠ [] then
        let listed := String.intercalate "; " problems
        .error (.fact s!"fact provenance is not review-ready: {listed}")
      else return (fact, ← retired_predecessor records fact action)

def review_fact (corpus : Corpus) (fact_id : FactId) (action : FactReviewAction) (reviewer reviewed_at : String)
    (note : Option String) : Prog (List Fact) Fact FactError Fact := do
  let (fact, predecessor) ← Prog.lift (review_checks corpus (← Prog.read) fact_id action reviewer reviewed_at)
  let reviewed := { fact with
    review_status := action.status, reviewed_by := some reviewer, reviewed_at := some reviewed_at, review_note := note }
  Prog.write reviewed
  match predecessor with
  | none => return reviewed
  | some predecessor =>
    Prog.write { predecessor with superseded_by := some reviewed.fact_id }
    return reviewed

def revise_fact (predecessor_id : FactId) (statement : String) (provenance : List Provenance) (confidence : Rat) :
    Prog (List Fact) Fact FactError Fact := do
  let predecessor ← Prog.lift (current_predecessor (← Prog.read) predecessor_id)
  let successor ← Prog.lift (new_fact sha256 statement provenance confidence (predecessor.version + 1)
    (some predecessor.fact_id) .accepted)
  Prog.write successor
  -- the predecessor is re-emitted with the supersession pointer
  Prog.write { predecessor with superseded_by := some successor.fact_id }
  return successor

end

end FactStore

/-- One call of a store, with its arguments. -/
inductive FactOp where
  | add_fact (statement : String) (provenance : List Provenance) (confidence : Rat)
  | propose_fact (statement : String) (provenance : List Provenance) (confidence : Rat)
  | propose_revision (predecessor_id : FactId) (statement : String) (provenance : List Provenance) (confidence : Rat)
  | review_fact (corpus : Corpus) (fact_id : FactId) (action : FactReviewAction) (reviewer reviewed_at : String)
      (note : Option String)
  | revise_fact (predecessor_id : FactId) (statement : String) (provenance : List Provenance) (confidence : Rat)

def FactOp.run (sha256 : String → String) : FactOp → Prog (List Fact) Fact FactError Fact
  | .add_fact statement provenance confidence => FactStore.add_fact sha256 statement provenance confidence
  | .propose_fact statement provenance confidence => FactStore.propose_fact sha256 statement provenance confidence
  | .propose_revision predecessor_id statement provenance confidence =>
    FactStore.propose_revision sha256 predecessor_id statement provenance confidence
  | .review_fact corpus fact_id action reviewer reviewed_at note =>
    FactStore.review_fact corpus fact_id action reviewer reviewed_at note
  | .revise_fact predecessor_id statement provenance confidence =>
    FactStore.revise_fact sha256 predecessor_id statement provenance confidence

/-- The ledger after a call that completed, raised, or died between two of its appends. -/
def FactStep (sha256 : String → String) (records : List Fact) (op : FactOp) (records' : List Fact) : Prop :=
  Prog.Crash (op.run sha256) records records'

end Facts

end MootLoop
