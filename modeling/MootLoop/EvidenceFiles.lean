import MootLoop.Lib.Framing
import MootLoop.Audit
import MootLoop.JournalFile

/-! The evidence of a run as the bytes of its files, and the check of an attestation against their digests. -/

namespace MootLoop

/-- What load_run_context keeps of the launch manifest, for a matter configuration and facts of some types. -/
structure LaunchManifest (μ φ : Type) where
  matter_config : μ
  facts : List φ
  corpus_snapshot_sha256 : Digest

/-- What the check of an attestation takes from outside of it. -/
structure EvidenceFormat (μ φ : Type) extends AuditFormat where
  /-- `_EVENT_ADAPTER.validate_json`. -/
  journal_event : FileBytes → Except Error JournalEvent
  /-- `load_matter`, from the bytes of `matter.yaml`. -/
  load_matter : FileBytes → Except Error μ
  /-- The manifest of some bytes, checked against the event that launched the run. -/
  open_manifest : RunStarted → FileBytes → Except Error (LaunchManifest μ φ)
  /-- `model_dump_json` of a matter configuration. -/
  matter_json : μ → List Char
  /-- The canonical JSON of the dumped facts. -/
  facts_json : List φ → List Char
  /-- The canonical JSON of a record without its commitment. -/
  record_json : Attestation → List Char

/-- What a name in a directory is, directories aside. -/
inductive EvidenceFile where
  | file (bytes : FileBytes)
  | symlink (live : Bool)
  deriving DecidableEq, Repr

/-- `Path.exists`. -/
def EvidenceFile.exists : EvidenceFile → Bool
  | .file _ => true
  | .symlink live => live

/-- The files the check reads, in the vault and in the directory of the run. The names in a directory are relative to
    it, in the order the directory is walked. -/
structure RunEvidence where
  matter : FileBytes
  manifest : Option FileBytes
  corpus : Option FileBytes
  journal : Option FileBytes
  turns : List (String × EvidenceFile)
  decisions : List (String × EvidenceFile)
  master : Option EvidenceFile
  ledger : Option FileBytes
  access_audit : List Char

variable {μ φ : Type} [DecidableEq μ] (format : EvidenceFormat μ φ)

/-- `sha256_hex` of a text. -/
def EvidenceFormat.sha256_hex (text : List Char) : Digest := format.sha256 (utf8 text)

/-! ### Trees -/

/-- `int.to_bytes(8, "big")` before the bytes it counts. -/
def length_prefixed (bytes : FileBytes) : Except Error FileBytes :=
  match Framing.framed 8 bytes with
  | some framed => .ok framed
  | none => .error (.value "int too big to convert")

/-- What a file adds to the digest of its tree: its path and its bytes, each after its length. -/
def tree_entry (file : String × EvidenceFile) : Except Error FileBytes := do
  let relative ← length_prefixed (utf8 file.1.toList)
  match file.2 with
  | .symlink _ => throw (.attestation s!"cannot commit unsafe evidence path: {file.1}")
  | .file bytes => return relative ++ (← length_prefixed bytes)

def tree_bytes : List (String × EvidenceFile) → Except Error FileBytes
  | [] => .ok []
  | file :: rest => do
    let entry ← tree_entry file
    return entry ++ (← tree_bytes rest)

/-- `_tree_sha256`. -/
def tree_sha256 (files : List (String × EvidenceFile)) : Except Error Digest := do
  return format.sha256 (← tree_bytes (files.insertionSort fun a b => a.1 ≤ b.1))

namespace RunEvidence
variable (v : RunEvidence)

/-- The journal and what exists of the turn bodies, with their paths in the directory of the run. -/
def journal_files : List (String × EvidenceFile) :=
  (v.journal.map fun bytes => ("journal.jsonl", EvidenceFile.file bytes)).toList ++
    (v.turns.filter (·.2.exists)).map fun file => ("turns/" ++ file.1, file.2)

def decision_files : List (String × EvidenceFile) := v.decisions.map fun file => ("decisions/" ++ file.1, file.2)

/-- `read_events`. -/
def events : Except Error (List JournalEvent) :=
  fresh_parse { sha256 := format.sha256, validate_json := format.journal_event } (v.journal.getD [])

/-- `load_run_context`. -/
def run_context : Except Error (LaunchManifest μ φ) := do
  let started := (← v.events format).filterMap fun
    | .run_started event => some event
    | _ => none
  match started with
  | [event] =>
    match event.context_manifest_sha256, v.manifest with
    | none, _ | some "", _ => throw (.orchestrator "no committed context manifest digest; start a new run")
    | some _, none => throw (.orchestrator "context manifest is missing; restore it or start a new run")
    | some committed, some raw =>
      if format.sha256 raw ≠ committed then
        throw (.orchestrator "context manifest was tampered with or has the wrong digest")
      else do
        let manifest ← format.open_manifest event raw
        match v.corpus with
        | none => throw (.orchestrator "corpus snapshot is missing; restore it or start a new run")
        | some corpus =>
          if format.sha256 corpus ≠ manifest.corpus_snapshot_sha256 then
            throw (.orchestrator "corpus snapshot was tampered with or has the wrong digest")
          else return manifest
  | _ => throw (.orchestrator "must have exactly one RunStarted event")

/-- The canonical text of the master, if the run has a task and the master is written. -/
def canonical_master : Except Error (Option String) := do
  if (fold (← v.events format)).task = none then return none
  else
    match v.master with
    | none | some (.symlink false) => return none
    | some (.symlink true) => throw (.attestation "cannot commit unsafe evidence path: master.md")
    | some (.file bytes) =>
      match String.fromUTF8? ⟨bytes.toArray⟩ with
      | some text => return some (canonicalize text)
      | none => throw (.value "invalid utf-8")

def matter_sha256 (context : LaunchManifest μ φ) : Digest := format.sha256_hex (format.matter_json context.matter_config)

def current_master_sha256 (context : LaunchManifest μ φ) : Except Error (Option Digest) := do
  return (← v.canonical_master format).map fun canonical =>
    format.sha256_hex (canonical.toList ++ '\x1f' :: (matter_sha256 format context).toList)

def current_ledger_head_sha256 : Digest := format.sha256 (v.ledger.getD [])
def current_journal_sha256 : Except Error Digest := tree_sha256 format v.journal_files
def current_decisions_sha256 : Except Error Digest := tree_sha256 format v.decision_files

def current_fact_state_sha256 (context : LaunchManifest μ φ) : Digest := format.sha256_hex (format.facts_json context.facts)

/-- `_attestation_state` of a record; `seal_state` is the check of the export seal, where one is required. -/
def attestation_state (seal_state : Option (Except Error AttestationCheck)) :
    Option Attestation → Except Error AttestationCheck
  | none => .ok { status := .missing }
  | some latest =>
    if latest.valid = false then .ok (invalidated latest.reason)
    else if latest.hash_scope ≠ some MASTER_HASH_SCOPE then .ok (invalidated (some LEGACY_HASH_SCOPE_REASON))
    else if latest.commitment_sha256 ≠ some (format.sha256_hex (format.record_json latest)) then
      .ok (invalidated (some "attestation commitment digest changed"))
    else do
      let context ← v.run_context format
      if (← format.load_matter v.matter) ≠ context.matter_config then
        return invalidated (some "matter.yaml changed after launch; start a new run")
      else if (← v.current_master_sha256 format context) ≠ some latest.master_sha256 then
        return invalidated (some "md-master or matter.yaml changed after attestation")
      else if v.current_ledger_head_sha256 format ≠ latest.ledger_head_sha256 then
        return invalidated (some "citation ledger changed after attestation")
      else if some (← v.current_journal_sha256 format) ≠ latest.journal_sha256 then
        return invalidated (some "journal evidence changed after attestation")
      else if some (← v.current_decisions_sha256 format) ≠ latest.decisions_sha256 then
        return invalidated (some "decision evidence changed after attestation")
      else if some (current_fact_state_sha256 format context) ≠ latest.fact_state_sha256 then
        return invalidated (some "launch fact state changed after attestation")
      else if !latest.access_audit_head_sha256.any (Audit.contains_intact_head format.toAuditFormat v.access_audit) then
        return invalidated (some "access audit changed before its attested head")
      else
        match seal_state with
        | some state => state
        | none => return { status := .valid }

end RunEvidence

end MootLoop
