import MootLoop.Attestations
import MootLoop.Budget
import MootLoop.Lib.Durable

/-! The vault of a run: its launch snapshot, its append-only logs, its write-once turn bodies and its
    deliverables. Every operation is a program over it, one durable write at a time. -/

namespace MootLoop

/-- The durable files of one run and of its matter that the run's operations read. -/
structure Vault where
  run_id : RunId
  /-- The launch manifest with the digest of its bytes. -/
  manifest : Option (Digest × RunContext) := none
  journal : List JournalEvent := []
  turn_bodies : Dict TurnId TurnRecord := ∅
  decisions : List Decision := []
  verifications : List VerificationRecord := []
  propositions : List PropositionVerificationRecord := []
  /-- `matter.yaml` as it is now. -/
  matter : MatterConfig := {}
  /-- The files under `deliverables/<run-id>/`, by their path there. -/
  deliverables : Dict String String := ∅
  attestations : List Attestation := []
  export_seals : List ExportSeal := []
  access_audit : List AccessAuditEntry := []

inductive Write where
  | manifest (sha256 : Digest) (context : RunContext)
  | journal (event : JournalEvent)
  | turn_body (record : TurnRecord)
  | decision (decision : Decision)
  | verification (record : VerificationRecord)
  | proposition (record : PropositionVerificationRecord)
  | matter (matter : MatterConfig)
  | deliverable (path text : String)
  | unlink (path : String)
  | attestation (record : Attestation)
  | export_seal (record : ExportSeal)
  | access_audit (entry : AccessAuditEntry)

namespace Vault

def commit (v : Vault) : Write → Vault
  | .manifest sha256 context => { v with manifest := some (sha256, context) }
  | .journal event => { v with journal := v.journal ++ [event] }
  | .turn_body record => { v with turn_bodies := v.turn_bodies.insert record.spec.turn_id record }
  | .decision decision => { v with decisions := v.decisions ++ [decision] }
  | .verification record => { v with verifications := v.verifications ++ [record] }
  | .proposition record => { v with propositions := v.propositions ++ [record] }
  | .matter matter => { v with matter }
  | .deliverable path text => { v with deliverables := v.deliverables.insert path text }
  | .unlink path => { v with deliverables := v.deliverables.erase path }
  | .attestation record => { v with attestations := v.attestations ++ [record] }
  | .export_seal record => { v with export_seals := v.export_seals ++ [record] }
  | .access_audit entry => { v with access_audit := v.access_audit ++ [entry] }

instance : Durable Vault Write := ⟨commit⟩

/-- `load_state`. -/
def state (v : Vault) : RunState := fold v.journal

def started (v : Vault) : List RunStarted :=
  v.journal.filterMap fun
    | .run_started event => some event
    | _ => none

/-- `load_run_context`: the launch snapshot, if the journal commits exactly one and its bytes are intact. -/
def run_context (v : Vault) : Except Error RunContext :=
  match v.started with
  | [event] =>
    match event.context_manifest_sha256, v.manifest with
    | none, _ =>
      .error (.orchestrator s!"run '{v.run_id}' has no committed context manifest digest; start a new run")
    | some _, none =>
      .error (.orchestrator s!"run '{v.run_id}' context manifest is missing; restore it or start a new run")
    | some committed, some (actual, context) =>
      if actual = committed then .ok context
      else .error (.orchestrator
        s!"run '{v.run_id}' context manifest was tampered with or has the wrong digest")
  | found =>
    .error (.orchestrator s!"run '{v.run_id}' must have exactly one RunStarted event; found {found.length}")

end Vault

/-- A program over the vault. -/
abbrev VaultM := Durable.Prog Vault Write Error

def append (event : JournalEvent) : VaultM Unit := Durable.Prog.write (.journal event)

def load_state : VaultM RunState := do return (← Durable.Prog.read).state

def read_events : VaultM (List JournalEvent) := do return (← Durable.Prog.read).journal

def load_run_context : VaultM RunContext := do Durable.Prog.lift (← Durable.Prog.read).run_context

/-- Writes a turn body once. A body already there is returned if it differs in nothing but the time
    of completion; any other body is a conflict. -/
def write_turn_body (record : TurnRecord) : VaultM TurnRecord := do
  match (← Durable.Prog.read).turn_bodies.get? record.spec.turn_id with
  | none => do
    Durable.Prog.write (.turn_body record)
    return record
  | some existing =>
    if existing = { record with completed_at := existing.completed_at } then return existing
    else throw (.journalIntegrity s!"conflicting write-once turn body for {record.spec.turn_id}")

/-- `derive_drafts_and_store`. -/
def derive_drafts_and_store (run_id : RunId) (drafts : List (TurnSpec × DraftOutput)) (document : Bool) :
    VaultM Unit := do
  Durable.Prog.forEach (derive_decisions run_id document (← Durable.Prog.read).decisions drafts) fun decision =>
    Durable.Prog.write (.decision decision)

end MootLoop
