import MootLoop.EvidenceFiles

/-! The attestation log of a run as its file, and the check that records an invalidation in it. -/

namespace MootLoop

/-- What the log takes from outside of it, besides the evidence. -/
structure AttestationFormat (μ φ : Type) extends EvidenceFormat μ φ where
  /-- `Attestation.model_validate_json`. -/
  attestation_record : List Char → Except Error Attestation

/-- A field of a record as `model_dump_json` writes it. -/
inductive FieldValue where
  | null
  | bool (b : Bool)
  | text (s : String)

namespace FieldValue

def nullable : Option String → FieldValue
  | none => null
  | some s => text s

def json : FieldValue → List Char
  | null => "null".toList
  | bool b => if b then "true".toList else "false".toList
  | text s => Json.quote s.toList

/-- The fields of an object up to its closing brace; a comma stands before all but the first. -/
def members : Bool → List (String × FieldValue) → List Char
  | _, [] => ['\x7d']
  | first, (name, value) :: fields =>
    (if first then [] else [',']) ++ (Json.quote name.toList ++ ':' :: (value.json ++ members false fields))

end FieldValue

namespace Attestation

/-- The fields of a record, in the order of the model. -/
def fields (record : Attestation) : List (String × FieldValue) :=
  [("schema_version", .text "2.0"), ("hash_scope", .nullable record.hash_scope),
    ("attestation_id", .text record.attestation_id), ("run_id", .text record.run_id),
    ("master_sha256", .text record.master_sha256), ("ledger_head_sha256", .text record.ledger_head_sha256),
    ("journal_sha256", .nullable record.journal_sha256), ("decisions_sha256", .nullable record.decisions_sha256),
    ("fact_state_sha256", .nullable record.fact_state_sha256),
    ("access_audit_head_sha256", .nullable record.access_audit_head_sha256),
    ("commitment_sha256", .nullable record.commitment_sha256), ("reviewer", .text record.reviewer),
    ("attested_at", .text record.attested_at), ("valid", .bool record.valid), ("reason", .nullable record.reason)]

def model_dump_json (record : Attestation) : List Char := '\x7b' :: FieldValue.members true record.fields

end Attestation

variable {μ φ : Type} [DecidableEq μ] (format : AttestationFormat μ φ)

/-! ### The log -/

/-- The record of a line, none for a blank one. -/
def line_attestation (line : FileBytes) : Except Error (Option Attestation) :=
  match String.fromUTF8? ⟨(line ++ [NEWLINE]).toArray⟩ with
  | none => .error (.value "invalid utf-8")
  | some text => if text.toList.all isSpace then .ok none else (format.attestation_record text.toList).map some

/-- The records of the complete lines of the log. -/
def logged_attestations (log : FileBytes) : Except Error (List Attestation) := do
  return (← (Lines.complete NEWLINE log).mapM (line_attestation format)).filterMap id

/-- `_latest_attestation_and_count`. -/
def latest_attestation_and_count (log : FileBytes) : Except Error (Option Attestation × Nat) := do
  let records ← logged_attestations format log
  return (records.getLast?, records.length)

/-! ### The check -/

namespace RunEvidence
variable (v : RunEvidence)

/-- `current_access_audit_head_sha256`. -/
def current_access_audit_head_sha256 : Except Error Digest :=
  match Audit.head_sha256 format.toAuditFormat v.access_audit with
  | .ok head => .ok head
  | .error _ => .error (.attestation "cannot attest with a corrupt access-audit chain")

/-- The record of an invalidation: the evidence there is now, under its commitment. -/
def invalidation (run_id : RunId) (seq : Nat) (now : String) (reason : Option String) : Except Error Attestation := do
  let context ← v.run_context format.toEvidenceFormat
  let master ← v.current_master_sha256 format.toEvidenceFormat context
  let journal ← v.current_journal_sha256 format.toEvidenceFormat
  let decisions ← v.current_decisions_sha256 format.toEvidenceFormat
  let head ← v.current_access_audit_head_sha256 format
  let record : Attestation :=
    { hash_scope := some MASTER_HASH_SCOPE, attestation_id := s!"att-{run_id}-{pad4 seq}", run_id
      master_sha256 := master.getD "", ledger_head_sha256 := v.current_ledger_head_sha256 format.toEvidenceFormat
      journal_sha256 := some journal, decisions_sha256 := some decisions
      fact_state_sha256 := some (current_fact_state_sha256 format.toEvidenceFormat context)
      access_audit_head_sha256 := some head, commitment_sha256 := some "", reviewer := "system", attested_at := now
      valid := false, reason }
  return { record with commitment_sha256 := some (format.sha256_hex (format.record_json record)) }

/-- `check_attestation`, under the lock of the run: the check, and the log after it. -/
def check_attestation (run_id : RunId) (log : FileBytes) (now : String) : Except Error (AttestationCheck × FileBytes) := do
  let (latest, seq) ← latest_attestation_and_count format log
  let check ← v.attestation_state format.toEvidenceFormat none latest
  if check.status = .invalidated ∧ latest.any (·.valid) then
    let record ← v.invalidation format run_id seq now check.reason
    return (check, append_fsync_line log (utf8 record.model_dump_json))
  else return (check, log)

/-- `attestation_state`. -/
def logged_attestation_state (log : FileBytes) : Except Error AttestationCheck := do
  let (latest, _) ← latest_attestation_and_count format log
  v.attestation_state format.toEvidenceFormat none latest

end RunEvidence

/-! ### Sequences of checks -/

inductive AttestationCall where
  | check_attestation (now : String)
  | attestation_state

/-- What a call answers with the evidence it finds, and the log it leaves; one that raises leaves it as it is. -/
def check_answer (run_id : RunId) (log : FileBytes) (v : RunEvidence) :
    AttestationCall → Except Error AttestationCheck × FileBytes
  | .attestation_state => (v.logged_attestation_state format log, log)
  | .check_attestation now =>
    match v.check_attestation format run_id log now with
    | .ok (check, log) => (.ok check, log)
    | .error e => (.error e, log)

/-- Calls one after the other, each with the evidence there is by then. -/
def check_answers (run_id : RunId) (log : FileBytes) :
    List (RunEvidence × AttestationCall) → List (Except Error AttestationCheck) × FileBytes
  | [] => ([], log)
  | (v, call) :: calls =>
    let (check, log) := check_answer format run_id log v call
    let (checks, log) := check_answers run_id log calls
    (check :: checks, log)

end MootLoop
