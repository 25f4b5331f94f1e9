import MootLoop.CitationGates
import Mathlib.Data.List.Lex
import Mathlib.Data.String.Basic

/-! Attorney attestation: the digests of the current evidence, the check of the latest commitment
    against them, and the seal of an export set. -/

namespace MootLoop
open Durable

/-- What the review and the export take from outside the repository. -/
structure Publishing where
  /-- The SHA-256 of the canonical bytes. -/
  digest : Evidence → Digest
  /-- pandoc with the draft or the clean reference document: the bytes of the DOCX. -/
  render_docx : String → Bool → Except Error String
  /-- The findings of the residue scan of a DOCX. -/
  residue_findings : String → List GateFinding
  /-- The text of a page no gate reads. -/
  page : Page → Vault → String → String

variable (t : Publishing)

def MASTER_HASH_SCOPE : String := "run-review-state:v2"
def LEGACY_HASH_SCOPE_REASON : String :=
  "legacy attestation hash scope is incompatible; re-attestation required"
def GENESIS_PREV_HASH : Digest := String.ofList (List.replicate 64 '0')

/-! ### Canonical text -/

/-- Carriage returns to line feeds. -/
def normalize_newlines : List Char → List Char
  | '\r' :: '\n' :: rest => '\n' :: normalize_newlines rest
  | '\r' :: rest => '\n' :: normalize_newlines rest
  | c :: rest => c :: normalize_newlines rest
  | [] => []

/-- The characters without a trailing run of those `drop` holds of. -/
def rstrip_by (drop : Char → Bool) (chars : List Char) : List Char := (chars.reverse.dropWhile drop).reverse

/-- `canonicalize`: line endings normalized, trailing white space dropped line by line, and a trailing
    blank run collapsed. -/
def canonicalize (text : String) : String :=
  let lines := ((normalize_newlines text.toList).splitOn '\n').map (rstrip_by isSpace)
  String.ofList (rstrip_by (· = '\n') (['\n'].intercalate lines) ++ ['\n'])

/-! ### Current evidence -/

def MASTER_PATH : String := "master.md"

def matter_sha256 (context : RunContext) : Digest := t.digest (.matter context.matter)

/-- The attested content digest: the canonical master bound to the matter, if the master is written. -/
def current_master_sha256 (v : Vault) (context : RunContext) : Option Digest :=
  if v.state.task = none then none
  else (v.deliverables.get? MASTER_PATH).map fun text =>
    t.digest (.master (canonicalize text) (matter_sha256 t context))

def current_ledger_head_sha256 (v : Vault) : Digest := t.digest (.ledger v.verifications)
def current_journal_sha256 (v : Vault) : Digest := t.digest (.journal v.journal v.turn_bodies.entries)
def current_decisions_sha256 (v : Vault) : Digest := t.digest (.decisions v.decisions)
def current_fact_state_sha256 (context : RunContext) : Digest := t.digest (.facts context.facts)

/-- The heads of the audit chain from genesis on, if every entry links to the one before it. -/
def chain_heads (prev : Digest) : List AccessAuditEntry → Option (List Digest)
  | [] => some [prev]
  | entry :: rest =>
    if entry.prev_hash = prev ∧ entry.entry_hash = t.digest (.audit_entry { entry with entry_hash := "" }) then
      (chain_heads entry.entry_hash rest).map (prev :: ·)
    else none

/-- The verified chain head; a corrupt chain raises. -/
def current_access_audit_head_sha256 (v : Vault) : Except Error Digest :=
  match (chain_heads t GENESIS_PREV_HASH v.access_audit).bind List.getLast? with
  | some head => .ok head
  | none => .error (.attestation "cannot attest with a corrupt access-audit chain")

/-- Whether the digest is a head of some intact prefix of the chain, itself intact. -/
def contains_intact_head (v : Vault) (expected : Digest) : Bool :=
  (chain_heads t GENESIS_PREV_HASH v.access_audit).any (expected ∈ ·)

/-- Appends one hash-chained entry to the access audit. -/
def record_access (ts actor action matter_id resource : String) : VaultM Unit := do
  let prev_hash := ((← Prog.read).access_audit.getLast?.map (·.entry_hash)).getD GENESIS_PREV_HASH
  let entry : AccessAuditEntry := { ts, actor, action, matter_id, resource, prev_hash, entry_hash := "" }
  Prog.write (.access_audit { entry with entry_hash := t.digest (.audit_entry entry) })

def latest_attestation (v : Vault) : Option Attestation := v.attestations.getLast?
def latest_export_seal (v : Vault) : Option ExportSeal := v.export_seals.getLast?

/-- The digest of every field but the digest itself. -/
def Attestation.expected_commitment_sha256 (record : Attestation) : Digest :=
  t.digest (.attestation { record with commitment_sha256 := none })

def ExportSeal.expected_export_set_sha256 (record : ExportSeal) : Digest :=
  t.digest (.artifacts record.artifacts)

/-! ### Deliverable names -/

/-- The part of a path after its last slash. -/
def path_name (path : String) : String :=
  String.ofList ((path.toList.reverse.takeWhile (· ≠ '/')).reverse)

/-- Lowers the letters of ASCII. No other character lowers to a letter of `.draft.`. -/
def ascii_lower (text : String) : String := String.ofList (text.toList.map Char.toLower)

/-- `".draft." in path.name.lower()`. -/
def is_draft_name (path : String) : Bool := isIn ".draft." (ascii_lower (path_name path))

def path_parts (path : String) : List String := (path.toList.splitOn '/').map String.ofList

/-- The artifacts of the deliverable directory, without the DRAFT copies. -/
def export_artifacts (v : Vault) : List ArtifactDigest :=
  let files := (v.deliverables.entries.filter fun file => !is_draft_name file.1).insertionSort fun a b =>
    path_parts a.1 ≤ path_parts b.1
  files.map fun file =>
    { path := s!"deliverables/{v.run_id}/{file.1}", sha256 := t.digest (.bytes file.2),
      size_bytes := file.2.utf8ByteSize }

/-! ### Checks -/

def invalidated (reason : Option String) : AttestationCheck := { status := .invalidated, reason }

/-- `_export_seal_state`: the link of a seal to the attestation and to the artifacts on disk. -/
def export_seal_state (v : Vault) (attestation : Attestation) : Option ExportSeal → AttestationCheck
  | none => invalidated (some "clean export has no export seal")
  | some sealed =>
    if sealed.attestation_id ≠ attestation.attestation_id ∨
        some sealed.attestation_commitment_sha256 ≠ attestation.commitment_sha256 ∨
        sealed.export_set_sha256 ≠ sealed.expected_export_set_sha256 t ∨
        export_artifacts t v ≠ sealed.artifacts then
      invalidated (some "sealed export set changed")
    else { status := .valid }

/-- `_attestation_state` of the latest attestation. -/
def check_state (v : Vault) (require_export_seal : Bool) : Except Error AttestationCheck :=
  match latest_attestation v with
  | none => .ok { status := .missing }
  | some latest =>
    if latest.valid = false then .ok (invalidated latest.reason)
    else if latest.hash_scope ≠ some MASTER_HASH_SCOPE then .ok (invalidated (some LEGACY_HASH_SCOPE_REASON))
    else if latest.commitment_sha256 ≠ some (latest.expected_commitment_sha256 t) then
      .ok (invalidated (some "attestation commitment digest changed"))
    else do
      let context ← v.run_context
      if v.matter ≠ context.matter then
        return invalidated (some "matter.yaml changed after launch; start a new run")
      else if current_master_sha256 t v context ≠ some latest.master_sha256 then
        return invalidated (some "md-master or matter.yaml changed after attestation")
      else if current_ledger_head_sha256 t v ≠ latest.ledger_head_sha256 then
        return invalidated (some "citation ledger changed after attestation")
      else if some (current_journal_sha256 t v) ≠ latest.journal_sha256 then
        return invalidated (some "journal evidence changed after attestation")
      else if some (current_decisions_sha256 t v) ≠ latest.decisions_sha256 then
        return invalidated (some "decision evidence changed after attestation")
      else if some (current_fact_state_sha256 t context) ≠ latest.fact_state_sha256 then
        return invalidated (some "launch fact state changed after attestation")
      else if !latest.access_audit_head_sha256.any (contains_intact_head t v) then
        return invalidated (some "access audit changed before its attested head")
      else if require_export_seal then return export_seal_state t v latest (latest_export_seal v)
      else return { status := .valid }

/-- Compares the latest attestation to the current bytes. -/
def attestation_state (v : Vault) : Except Error AttestationCheck := check_state t v false

/-- The attestation, with an intact seal linked to it. -/
def sealed_export_state (v : Vault) : Except Error AttestationCheck := check_state t v true

/-! ### Attesting and sealing -/

/-- A record of the current evidence under its commitment. -/
def commit_record (record : Attestation) : Attestation :=
  { record with commitment_sha256 := some (record.expected_commitment_sha256 t) }

/-- `attest`: refuses while a decision is open, the master is not written or `matter.yaml` changed. -/
def attest (free : Bool) (reviewer now : String) : VaultM Unit :=
  with_lock free do
    let context ← load_run_context
    let v ← Prog.read
    if v.matter ≠ context.matter then
      throw (.attestation s!"cannot attest run '{v.run_id}': matter.yaml changed after launch; start a new run")
    else
      let open_ := open_decisions v.decisions
      if open_ ≠ [] then
        let listed := ", ".intercalate (open_.map (·.decision_id))
        throw (.attestation s!"cannot attest run '{v.run_id}': {open_.length} open decision(s): {listed}")
      else
        match current_master_sha256 t v context with
        | none =>
          throw (.attestation s!"cannot attest run '{v.run_id}': build and review the draft export first")
        | some master => do
          let head ← Prog.lift (current_access_audit_head_sha256 t v)
          Prog.write (.attestation (commit_record t
            { hash_scope := some MASTER_HASH_SCOPE,
              attestation_id := s!"att-{v.run_id}-{pad4 v.attestations.length}", run_id := v.run_id,
              master_sha256 := master, ledger_head_sha256 := current_ledger_head_sha256 t v,
              journal_sha256 := some (current_journal_sha256 t v),
              decisions_sha256 := some (current_decisions_sha256 t v),
              fact_state_sha256 := some (current_fact_state_sha256 t context),
              access_audit_head_sha256 := some head, commitment_sha256 := none, reviewer,
              attested_at := now }))

/-- `check_attestation`: records an invalidation when a valid attestation no longer matches. -/
def check_attestation (free : Bool) (now : String) : VaultM Unit :=
  with_lock free do
    let v ← Prog.read
    let check ← Prog.lift (attestation_state t v)
    if check.status = .invalidated ∧ (latest_attestation v).any (·.valid) then
      let context ← load_run_context
      let head ← Prog.lift (current_access_audit_head_sha256 t v)
      Prog.write (.attestation (commit_record t
        { hash_scope := some MASTER_HASH_SCOPE,
          attestation_id := s!"att-{v.run_id}-{pad4 v.attestations.length}", run_id := v.run_id,
          master_sha256 := (current_master_sha256 t v context).getD "",
          ledger_head_sha256 := current_ledger_head_sha256 t v,
          journal_sha256 := some (current_journal_sha256 t v),
          decisions_sha256 := some (current_decisions_sha256 t v),
          fact_state_sha256 := some (current_fact_state_sha256 t context),
          access_audit_head_sha256 := some head, commitment_sha256 := none, reviewer := "system",
          attested_at := now, valid := false, reason := check.reason }))
    else return ()

/-- Appends a seal of the artifacts on disk, linked to the current attestation. -/
def record_export_seal_locked (now : String) : VaultM Unit := do
  let v ← Prog.read
  let check ← Prog.lift (attestation_state t v)
  match check.status, latest_attestation v with
  | .valid, some latest =>
    let artifacts := export_artifacts t v
    if artifacts = [] then throw (.attestation "cannot seal an empty export set")
    else
      let sealed : ExportSeal :=
        { seal_id := s!"seal-{v.run_id}-{pad4 v.export_seals.length}", run_id := v.run_id,
          attestation_id := latest.attestation_id,
          attestation_commitment_sha256 := latest.commitment_sha256.getD "",
          sealed_at := now, artifacts, export_set_sha256 := "" }
      Prog.write (.export_seal { sealed with export_set_sha256 := sealed.expected_export_set_sha256 t })
  | _, _ => throw (.attestation "cannot seal exports without a valid v2 attestation")

end MootLoop
