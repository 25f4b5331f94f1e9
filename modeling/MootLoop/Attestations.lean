import MootLoop.Decisions
import MootLoop.Citations
import MootLoop.Events

/-! Attorney review commitments and export seals, with what their digests are taken of. -/

namespace MootLoop

inductive AttestationCheckStatus where
  | valid
  | invalidated
  | missing
  deriving DecidableEq, Repr

/-- The result of checking an attestation or a seal. -/
structure AttestationCheck where
  status : AttestationCheckStatus
  reason : Option String := none
  deriving DecidableEq, Repr

/-- Exact bytes and identity of one sealed artifact. -/
structure ArtifactDigest where
  path : String
  sha256 : Digest
  size_bytes : Nat
  deriving DecidableEq, Repr

/-- One attestation record: an attest or an invalidation. -/
structure Attestation where
  hash_scope : Option String
  attestation_id : String
  run_id : RunId
  master_sha256 : Digest
  ledger_head_sha256 : Digest
  journal_sha256 : Option Digest
  decisions_sha256 : Option Digest
  fact_state_sha256 : Option Digest
  access_audit_head_sha256 : Option Digest
  commitment_sha256 : Option Digest
  reviewer : String
  attested_at : String
  valid : Bool := true
  reason : Option String := none
  deriving DecidableEq, Repr

/-- An export manifest linked to one attestation. -/
structure ExportSeal where
  seal_id : String
  run_id : RunId
  attestation_id : String
  attestation_commitment_sha256 : Digest
  sealed_at : String
  artifacts : List ArtifactDigest
  export_set_sha256 : Digest
  deriving DecidableEq, Repr

/-- One entry of the hash-chained access audit. -/
structure AccessAuditEntry where
  schema_version : String := "1.0"
  ts : String
  actor : String
  action : String
  matter_id : String
  resource : String
  prev_hash : Digest
  entry_hash : Digest
  deriving DecidableEq, Repr

/-- What a review digest is taken of. -/
inductive Evidence where
  | bytes (text : String)
  | matter (matter : MatterConfig)
  | master (canonical : String) (matter_sha256 : Digest)
  | ledger (records : List VerificationRecord)
  | journal (events : List JournalEvent) (bodies : List (TurnId × TurnRecord))
  | decisions (records : List Decision)
  | facts (facts : List Fact)
  | attestation (record : Attestation)
  | artifacts (artifacts : List ArtifactDigest)
  | audit_entry (entry : AccessAuditEntry)
  deriving DecidableEq, Repr

/-- The deliverables no gate reads the text of. -/
inductive Page where
  | verification
  | privilege_log
  | strategy_memo
  | audit_log
  deriving DecidableEq, Repr

end MootLoop
