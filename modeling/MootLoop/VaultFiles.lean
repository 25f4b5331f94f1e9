import MootLoop.Common
import MootLoop.Lib.FileTree

/-! The vault as a file tree: the durable writes of `vault.py` as lists of system calls, the matter run
    lock, and the trees the services leave, also when one of them dies part way. -/

namespace MootLoop

open Files

/-! ### Names -/

def MATTER_YAML : String := "matter.yaml"
def CANARY_FILE : String := ".canary"
def LOCK_FILE : String := ".lock"

/-- The canonical tree of a new vault. -/
def VAULT_TREE : List Path :=
  [["corpus", "originals"], ["corpus", "normalized"], ["facts"], ["requests"], ["law"], ["runs"],
    ["deliverables"], ["learnings"], ["context", "contributions"], ["research-requests"]]

/-- `^[a-z0-9][a-z0-9._-]{0,63}$`, in full. -/
def matches_matter_id (value : String) : Bool :=
  let small (c : Char) : Bool := c.isLower || c.isDigit
  match value.toList with
  | [] => false
  | first :: rest =>
    small first && rest.length ≤ 63 && rest.all (fun c => small c || c == '.' || c == '_' || c == '-')

/-- `validate_id`. -/
def valid_id (value : String) : Bool :=
  value != "." && value != ".." && !isIn "/" value && !isIn "\\" value && matches_matter_id value

/-- `Path.suffix`. -/
def path_suffix (name : String) : String :=
  let tail := (name.toList.reverse.takeWhile (· ≠ '.')).length
  let dot := name.toList.length - 1 - tail
  if tail < name.toList.length && 0 < dot && 0 < tail then String.ofList (name.toList.drop dot) else ""

/-! ### Durable writes -/

/-- The name `mkstemp` picks beside `name`. -/
def temp_name (random name : String) : String := ".tmp-" ++ random ++ path_suffix name

/-- Replaces a file through a temporary one. The last call is the clean-up of a failed replace. -/
def atomic_write_text (dir : Path) (name text random : String) : List Op :=
  mkdirs dir ++
    [.create dir (temp_name random name), .write dir (temp_name random name) text,
      .replace dir (temp_name random name) name, .unlink dir (temp_name random name)]

/-- Publishes a file that does not exist yet: the complete temporary file gets the name by a hard link,
    then loses its own. -/
def atomic_write_once_text (dir : Path) (name text random : String) : List Op :=
  mkdirs dir ++
    [.create dir (temp_name random name), .write dir (temp_name random name) text,
      .link dir (temp_name random name) name, .unlink dir (temp_name random name)]

/-! ### The run lock -/

/-- The JSON object of a lock file, as `_check_takeover` reads it. -/
structure LockRecord where
  pid : Int := -1
  hostname : Option String := none
  run_id : Option String := none
  token : Option String := none
  started_at : Option Instant := none
  heartbeat_at : Option Instant := none
  deriving DecidableEq, Repr

/-- `json.dumps` and `json.loads` on lock records. -/
structure LockFormat where
  dumps : LockRecord → String
  loads : String → Option LockRecord

/-- The process that takes a lock: its host and pid, the processes alive there, and the time. -/
structure Process where
  hostname : String
  pid : Int
  alive : Int → Bool
  now : Instant

/-- Fifteen minutes. -/
def DEFAULT_HEARTBEAT_THRESHOLD : Int := 15 * 60 * 1000000

def RUNS : Path := ["runs"]
def LOCK_PATH : Path := RUNS ++ [LOCK_FILE]

/-- `RunLock._heartbeat_stale`. -/
def heartbeat_stale (self : Process) (existing : LockRecord) : Bool :=
  match existing.heartbeat_at with
  | none => true
  | some last => DEFAULT_HEARTBEAT_THRESHOLD < self.now.micros - last.micros

/-- `RunLock._check_takeover`. -/
def check_takeover (self : Process) (override : Bool) (existing : LockRecord) : Except Error Unit :=
  let run := existing.run_id.getD "None"
  let host := existing.hostname.getD "None"
  if existing.hostname ≠ some self.hostname then
    if override then .ok ()
    else .error (.lockHeld s!"lock held by run {run} on host {host}; pass override=True to take over a cross-host lock")
  else if self.alive existing.pid then
    if heartbeat_stale self existing then .ok ()
    else .error (.lockHeld s!"lock held by live process pid {existing.pid} (run {run})")
  else .ok ()

/-- `RunLock._payload`. -/
def lock_payload (self : Process) (run_id token : String) : LockRecord where
  pid := self.pid
  hostname := some self.hostname
  run_id := some run_id
  token := some token
  started_at := some self.now
  heartbeat_at := some self.now

/-- `RunLock._create_exclusive`. -/
def create_exclusive (text random : String) : List Op :=
  [.create RUNS (".lock-" ++ random), .write RUNS (".lock-" ++ random) text,
    .link RUNS (".lock-" ++ random) LOCK_FILE, .unlink RUNS (".lock-" ++ random)]

/-- Whether `RunLock.acquire` takes the lock, from the `runs` directory, the presence of a lock file and,
    when that is a file, its text. -/
def may_acquire (format : LockFormat) (self : Process) (override runs_ok present : Bool) (text : Option String) :
    Except Error Unit :=
  -- `mkdir(parents=True, exist_ok=True)` refuses a `runs` that is no directory
  if !runs_ok then .error (.value "File exists: runs")
  else if !present then .ok ()
  else
    match text.bind format.loads with
    | none =>
      if override then .ok ()
      else .error (.lockHeld "lock file is unreadable or corrupt; pass override=True to take it over")
    | some existing => check_takeover self override existing

/-- `RunLock.acquire` and the calls it makes. `mkstemp` finds a temporary name that is not in use. -/
def acquire (format : LockFormat) (self : Process) (run_id token random : String) (override : Bool)
    (vault : Disk) : Except Error (List Op) := do
  let present := vault.get? LOCK_PATH ≠ none
  may_acquire format self override (vault.get? RUNS = none ∨ vault.get? RUNS = some .dir) present
    (vault.read? LOCK_PATH)
  let text := format.dumps (lock_payload self run_id token)
  let tmp := if present then temp_name random LOCK_FILE else ".lock-" ++ random
  if vault.get? (RUNS ++ [tmp]) ≠ none then .error (.value "File exists: temporary name")
  else if present then
    if vault.get? LOCK_PATH = some .dir then .error (.value "Is a directory: .lock")
    else .ok (atomic_write_text RUNS LOCK_FILE text random)
  else .ok (mkdirs RUNS ++ create_exclusive text random)

/-! ### The trees the services leave -/

/-- What the services do to the files of a vault. -/
inductive Service where
  | mkdir (dir : Path)
  | write (dir : Path) (name text random : String)
  | write_once (dir : Path) (name text random : String)
  | append (dir : Path) (name text : String)
  | unlink (dir : Path) (name : String)
  | lock (text random : String)
  deriving DecidableEq, Repr

/-- The name of the temporary file of a service, which `mkstemp` finds unused. -/
def Service.temporary : Service → Option Path
  | .write dir name _ random => some (dir ++ [temp_name random name])
  | .write_once dir name _ random => some (dir ++ [temp_name random name])
  | .lock _ random => some (RUNS ++ [".lock-" ++ random])
  | _ => none

def Service.calls : Service → List Op
  | .mkdir dir => mkdirs dir
  | .write dir name text random => atomic_write_text dir name text random
  | .write_once dir name text random => atomic_write_once_text dir name text random
  | .append dir name text => mkdirs dir ++ [.create dir name, .append dir name text]
  | .unlink dir name => [.unlink dir name]
  | .lock text random => mkdirs RUNS ++ create_exclusive text random

/-- A service at work on a vault, and the number of its calls that were made before it died or was done. -/
structure Working where
  service : Service
  made : Nat
  deriving DecidableEq, Repr

def Working.calls (work : Working) : List Op := work.service.calls.take work.made

/-- One service works on the vault, to its end or to a crash. -/
def Serves (v : Disk) (work : Working) (v' : Disk) : Prop :=
  (∀ tmp ∈ work.service.temporary, v.get? tmp = none) ∧ v' = runOps work.calls v

instance (v : Disk) (work : Working) : Decidable (∀ tmp ∈ work.service.temporary, v.get? tmp = none) :=
  match h : work.service.temporary with
  | none => .isTrue (by simp)
  | some tmp => decidable_of_iff (v.get? tmp = none) (by simp)

/-- The tree `create_vault` publishes: directories, `matter.yaml` and the canary. -/
def create_vault (config canary random random' : String) : Disk :=
  runOps (VAULT_TREE.flatMap mkdirs ++ atomic_write_text [] MATTER_YAML config random ++
    atomic_write_text [] CANARY_FILE (canary ++ "\n") random') Disk.empty

end MootLoop
