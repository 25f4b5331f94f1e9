import MootLoop.Audit
import MootLoop.Lib.Disk
import MootLoop.Lib.Durable

/-! Closing a matter: a declared intent, the vault moved into quarantine, the intent marked detached, the purge, the
    tombstone and the final record, and what a later call makes of the files an earlier one left. The disk may lose what
    was not synced. The model is of one matter; no other matter's files have its names. -/

namespace MootLoop.Closing
open Durable

/-- A directory. `st_dev` and `st_ino` are all the program sees of it; a later directory may have the same. -/
structure Dir where
  serial : Nat
  st_dev : Nat
  st_ino : Nat
  deriving DecidableEq, Repr

def Dir.identity (dir : Dir) : Nat × Nat := (dir.st_dev, dir.st_ino)

/-! ### Records -/

structure MatterScopedStore where
  name : String
  glob : String
  description : String
  deriving DecidableEq, Repr

structure DestructionStore where
  name : String
  glob : String
  description : String
  files_removed : Nat
  deriving DecidableEq, Repr

structure DestructionLimitation where
  kind : String
  detail : String
  deriving DecidableEq, Repr

structure Retention where
  retention_class : String
  destruction_date : Option Date := none
  litigation_hold : Bool := false
  deriving DecidableEq, Repr

structure CloseRecord where
  schema_version : String := "1.1"
  source_matter_id : String
  closed_at : String
  closed_by : String
  backup_ref : Option String
  retention_class : String
  destruction_date : Date
  destruction_method : String := "logical-tree-deletion"
  assured_destruction : Bool := false
  limitations : List DestructionLimitation
  stores : List DestructionStore
  removed_counts : List (String × Nat)
  tombstone : AccessAuditEntry
  deriving DecidableEq, Repr

structure CloseIntent where
  schema_version : String := "1.0"
  record : CloseRecord
  vault_device : Nat
  vault_inode : Nat
  quarantine_id : String
  detached : Bool := false
  deriving DecidableEq, Repr

namespace CloseIntent

def identity (intent : CloseIntent) : Nat × Nat := (intent.vault_device, intent.vault_inode)

/-- `intent.model_copy(update={"detached": True})`. -/
def marked (intent : CloseIntent) : CloseIntent := { intent with detached := true }

end CloseIntent

def DESTRUCTION_LIMITATIONS : List DestructionLimitation := [
  ⟨"solid_state_media", "Logical deletion does not guarantee physical erasure from SSD flash cells, " ++
    "controller remapping, snapshots, or device backups."⟩,
  ⟨"synchronized_storage", "Synchronized or versioned storage can retain remote versions and replicated " ++
    "copies after the local tree is deleted."⟩]

/-! ### The disk -/

/-- What the disk holds of a matter: its vault, `pending-vaults`, and the files of `.closed`. -/
structure Image where
  vault : Option Dir := none
  pending_vaults : List (String × Dir) := []
  intent : Option CloseIntent := none
  tombstones : List AccessAuditEntry := []
  record : Option CloseRecord := none
  deriving DecidableEq, Repr

/-- What an `fsync` reaches: a directory's entries, or the bytes of the tombstone log. -/
inductive Place where
  | root
  | closed
  | pending_vaults
  | tombstones
  deriving DecidableEq, Repr

/-- The image as a place has it. The files of `.closed` but the log are renamed into place complete. -/
def Place.part : Place → Image → Image
  | .root, img => { vault := img.vault }
  | .closed, img => { intent := img.intent, record := img.record }
  | .pending_vaults, img => { pending_vaults := img.pending_vaults }
  | .tombstones, img => { tombstones := img.tombstones }

inductive Write where
  | fsync (place : Place)
  | intent (intent : CloseIntent)
  | unlink_intent
  | replace (dir : Dir) (quarantine_id : String)
  | rmtree (quarantine_id : String)
  | tombstone (entry : AccessAuditEntry)
  | record (record : CloseRecord)
  deriving DecidableEq, Repr

/-- The disk, the serial number of the next directory, and the directories purged so far, each with the intent that was
    pending then. -/
structure State where
  disk : Disk Image
  next : Nat := 0
  purged : List (CloseIntent × Dir) := []

namespace Image

/-- `os.replace(vault, quarantine)`. An image without the vault at its path stays as it is. -/
def replace (dir : Dir) (quarantine_id : String) (img : Image) : Image :=
  if img.vault = some dir then
    { img with vault := none, pending_vaults := (quarantine_id, dir) :: img.pending_vaults }
  else img

/-- `shutil.rmtree`: a tree removed in part is still there. -/
def rmtree (quarantine_id : String) (img : Image) : Image :=
  { img with pending_vaults := img.pending_vaults.filter (·.1 ≠ quarantine_id) }

/-- A directory made at the vault's path. -/
def create (dir : Dir) (img : Image) : Image := if img.vault = none then { img with vault := some dir } else img

end Image

namespace State

/-- The directory the pending intent's quarantine holds. -/
def quarantined (s : State) (quarantine_id : String) : Option (CloseIntent × Dir) :=
  match s.disk.live.intent, s.disk.live.pending_vaults.lookup quarantine_id with
  | some intent, some dir => some (intent, dir)
  | _, _ => none

def commit (s : State) : Write → State
  | .fsync place => { s with disk := s.disk.sync place.part }
  | .intent intent => { s with disk := s.disk.change fun img => { img with intent := some intent } }
  | .unlink_intent => { s with disk := s.disk.change fun img => { img with intent := none } }
  | .replace dir quarantine_id => { s with disk := s.disk.change (Image.replace dir quarantine_id) }
  | .rmtree quarantine_id =>
    { s with
      disk := s.disk.change (Image.rmtree quarantine_id)
      purged := s.purged ++ (s.quarantined quarantine_id).toList }
  | .tombstone entry => { s with disk := s.disk.change fun img => { img with tombstones := img.tombstones ++ [entry] } }
  | .record record => { s with disk := s.disk.change fun img => { img with record := some record } }

instance : Durable State Write := ⟨commit⟩

end State

/-! ### Calls -/

inductive CloseError where
  | close (detail : String)
  | raised (detail : String)
  deriving DecidableEq, Repr

/-- A call of `close_matter`, with what it finds outside `.closed`. -/
structure Call where
  actor : String
  now : String
  backup_dir : Option String
  skip_backup : Bool := false
  acknowledge_skip_backup : Bool := false
  /-- `load_matter`: the matter id and the retention. -/
  matter : Except String (String × Retention)
  /-- Why the run lock is not free. -/
  held : Option String := none
  /-- `datetime.fromisoformat(now).date()`. -/
  close_date : Option Date
  /-- The backup destination lies in the matters root. -/
  inside : Bool := false
  backup : Except String String
  audit_head : Except String Digest
  /-- How many files of the vault a glob matches. -/
  files : String → Nat
  /-- `f"close-{uuid.uuid4().hex}"`. -/
  quarantine_id : String

abbrev CloseM := Prog State Write CloseError

/-- What every call on a matter shares. -/
structure Setting where
  matters_root : String
  matter_id : String
  format : AuditFormat
  /-- `date.isoformat`. -/
  isoformat : Date → String
  MATTER_SCOPED_STORES : List MatterScopedStore

variable (x : Setting)

def fsync (places : List Place) : CloseM Unit := Prog.forEach places fun place => Prog.write (.fsync place)

def live : CloseM Image := do return (← Prog.read).disk.live

def close_error {α : Type} (detail : String) : CloseM α := throw (.close detail)

def _inventory_counts (call : Call) : List (String × Nat) :=
  x.MATTER_SCOPED_STORES.map fun store => (store.name, call.files store.glob)

def _destruction_stores (counts : List (String × Nat)) : List DestructionStore :=
  x.MATTER_SCOPED_STORES.map fun store =>
    { name := store.name, glob := store.glob, description := store.description,
      files_removed := (counts.lookup store.name).getD 0 }

/-- `_enforce_retention_policy`: the retention, with its destruction date. -/
def _enforce_retention_policy (call : Call) (retention : Retention) : Except CloseError Date :=
  if retention.litigation_hold then .error (.close "cannot close a matter under litigation hold")
  else match retention.destruction_date with
    | none => .error (.close "cannot close without a configured destruction date")
    | some destruction_date =>
      match call.close_date with
      | none => .error (.close s!"invalid close timestamp: '{call.now}'")
      | some close_date =>
        if close_date < destruction_date then
          .error (.close s!"matter is not eligible for destruction until {x.isoformat destruction_date}")
        else .ok destruction_date

/-- The reference of the fresh backup, none where it is skipped. -/
def required_backup (call : Call) : Except CloseError (Option String) :=
  if call.skip_backup then
    if call.acknowledge_skip_backup then .ok none
    else .error (.close ("refusing to close without a fresh backup; pass " ++
      "acknowledge_skip_backup to override (data will be unrecoverable)"))
  else if call.backup_dir = none then
    .error (.close "a backup destination is required unless the backup is acknowledged")
  else if call.inside then
    .error (.close "the close backup destination must be outside the matters root")
  else match call.backup with
    | .ok backup_ref => .ok (some backup_ref)
    | .error detail => .error (.close s!"cannot close because the required backup failed: {detail}")

/-- The checks of a close and the record it would leave. -/
def prepared_record (call : Call) : Except CloseError CloseRecord := do
  let found ← call.matter.mapError .raised
  if found.1 ≠ x.matter_id then .error (.raised "matter directory and configuration identity disagree")
  else match call.held with
    | some detail => .error (.close s!"cannot close: a live run holds the matter lock ({detail})")
    | none => do
      let destruction_date ← _enforce_retention_policy x call found.2
      let backup_ref ← required_backup call
      let prev_hash ← call.audit_head.mapError .raised
      let removed_counts := _inventory_counts x call
      let tombstone := Audit.create x.format
        { ts := call.now, actor := call.actor, action := "matter-closed", matter_id := x.matter_id, resource := "" }
        prev_hash
      return {
        source_matter_id := x.matter_id, closed_at := call.now, closed_by := call.actor, backup_ref,
        retention_class := found.2.retention_class, destruction_date, limitations := DESTRUCTION_LIMITATIONS,
        stores := _destruction_stores x removed_counts, removed_counts, tombstone }

def _purge_vault (quarantine_id : String) : CloseM Unit := do
  let img ← live
  Prog.when ((img.pending_vaults.lookup quarantine_id).isSome = true) (Prog.write (.rmtree quarantine_id))

-- `append_fsync_line` syncs the log and its directory; a tombstone already there is not synced again.
def _append_tombstone (tombstone : AccessAuditEntry) : CloseM Unit := do
  let img ← live
  Prog.when (¬ img.tombstones.any (·.entry_hash = tombstone.entry_hash)) do
    Prog.write (.tombstone tombstone)
    fsync [.tombstones, .closed]

def _write_close_record (record : CloseRecord) : CloseM Unit := do
  Prog.write (.record record)
  fsync [.closed]

def _write_close_intent (intent : CloseIntent) : CloseM Unit := do
  Prog.write (.intent intent)
  fsync [.closed, .closed, .root]

def _finish_close (intent : CloseIntent) : CloseM CloseRecord := do
  let img ← live
  if intent.detached = false ∨ (img.pending_vaults.lookup intent.quarantine_id).isSome = true then
    close_error "post-close verification failed: vault residue remains"
  else do
    fsync [.pending_vaults, .closed]
    _append_tombstone intent.record.tombstone
    _write_close_record intent.record
    Prog.write .unlink_intent
    fsync [.closed, .root]
    return intent.record

/-- What a detached vault's close has left to do. -/
def purge_detached (intent : CloseIntent) : CloseM CloseRecord := do
  fsync [.pending_vaults, .root]
  _write_close_intent intent.marked
  _purge_vault intent.quarantine_id
  _finish_close intent.marked

def _close_matter_locked (call : Call) : CloseM CloseRecord := do
  match (← live).vault with
  | none =>
    close_error s!"cannot close unknown matter '{x.matter_id}': no matter '{x.matter_id}' under {x.matters_root}"
  | some vault => do
    let record ← Prog.lift (prepared_record x call)
    let intent : CloseIntent :=
      { record, vault_device := vault.st_dev, vault_inode := vault.st_ino, quarantine_id := call.quarantine_id }
    _write_close_intent intent
    Prog.write (.replace vault intent.quarantine_id)
    purge_detached intent

/-- A call that found no close to recover. -/
def close_or_record (call : Call) : CloseM CloseRecord := do
  let img ← live
  match img.vault, img.record with
  | none, some record =>
    if record.source_matter_id ≠ x.matter_id then
      close_error "close record identity does not match the requested matter"
    else return record
  | _, _ => _close_matter_locked x call

/-- The public call. Its lock beside the vault's directory keeps other calls, creations and restores out. -/
def close_matter (call : Call) : CloseM CloseRecord := do
  match (← live).intent with
  | none => close_or_record x call
  | some intent => do
    if intent.record.source_matter_id ≠ x.matter_id then
      close_error "close intent identity does not match the requested matter"
    else do
      fsync [.closed, .closed, .root]
      let img ← live
      match img.pending_vaults.lookup intent.quarantine_id with
      | some quarantine =>
        if quarantine.identity ≠ intent.identity then
          close_error "close recovery refuses a replacement quarantine"
        else purge_detached intent
      | none =>
        if intent.detached then _finish_close intent
        else match img.vault with
          | none => close_error "prepared close lost its original vault before detachment"
          | some vault =>
            if vault.identity ≠ intent.identity then
              close_error "close recovery refuses a replacement vault"
            else close_or_record x call

/-! ### Runs -/

/-- What happens to a matter: a call runs to its end or is killed on the way, the power fails, or a vault is created
    where there is none. -/
inductive Step : State → State → Prop
  | called (s s' : State) (call : Call) (cut : Prog.Crash (close_matter x call) s s') : Step s s'
  | failed (s : State) (img : Image) (exposed : img ∈ s.disk.exposed) : Step s { s with disk := Disk.settled img }
  | created (s : State) (st_dev st_ino : Nat) (free : s.disk.live.vault = none) :
      Step s { s with disk := s.disk.change (Image.create ⟨s.next, st_dev, st_ino⟩), next := s.next + 1 }

/-- The states a matter can be in, from an empty root on. -/
inductive Reachable : State → Prop
  | start : Reachable { disk := Disk.settled {} }
  | step {s s' : State} (before : Reachable s) (next : Step x s s') : Reachable s'

end MootLoop.Closing
