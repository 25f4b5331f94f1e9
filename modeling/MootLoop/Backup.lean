import MootLoop.VaultFiles
import Mathlib.Data.List.Sort
import Mathlib.Data.List.Lex
import Mathlib.Data.String.Basic

/-! Backup and restore: the archive a snapshot of the vault becomes, and the restorer that extracts it
    into a staging directory and puts that in the place of the target. -/

namespace MootLoop

open Files

abbrev Bytes := List UInt8

/-- The exceptions of `backup.py` and of what it calls. -/
inductive BackupFailure where
  | backup (message : String)
  | matterConfig (message : String)
  | outboundPrivacy (message : String)
  | os (message : String)
  deriving DecidableEq, Repr

/-! ### Archives -/

inductive MemberType where
  | directory
  | regular
  | link
  | symlink
  | other
  deriving DecidableEq, Repr

/-- An archive member; names are split at `/`. -/
structure TarInfo where
  name : Path
  type : MemberType
  linkname : Path := []
  data : String := ""
  deriving DecidableEq, Repr

/-- What the code calls: AES-GCM under a key and a nonce, `tarfile`, the validation of `matter.yaml`, which
    yields the matter id, and JSON. -/
structure Codec where
  encrypt : Bytes → Bytes → Bytes → Bytes
  decrypt : Bytes → Bytes → Bytes → Option Bytes
  write : List TarInfo → Bytes
  getmembers : Bytes → Option (List TarInfo)
  load_matter : String → Except String String
  lock : LockFormat

structure Archive where
  name : String
  blob : Bytes
  deriving DecidableEq, Repr

def NONCE_LEN : Nat := 12
def GCM_TAG_LEN : Nat := 16

/-! ### Backup -/

/-- `_exclude_staging`. -/
def staged (p : Path) : Bool := p.head? == some "staging"

/-- The order of `sorted(os.listdir(..))`, directory by directory. -/
def listed (a b : Path × Entry) : Prop := a.1 ≤ b.1

instance : DecidableRel listed := fun a b => inferInstanceAs (Decidable (a.1 ≤ b.1))

/-- What `tar.add` walks over. -/
def walked (vault : Disk) : List (Path × Entry) :=
  (vault.entries.entries.filter (fun e => !staged e.1)).insertionSort listed

/-- `TarFile.add` from the inodes archived so far: a second name of an inode becomes a link member. -/
def tar_members (matter_id : String) (bytes : Nat → String) : Dict Nat Path → List (Path × Entry) → List TarInfo
  | _, [] => []
  | inodes, (p, .dir) :: rest => ⟨matter_id :: p, .directory, [], ""⟩ :: tar_members matter_id bytes inodes rest
  | inodes, (p, .symlink target) :: rest =>
    ⟨matter_id :: p, .symlink, [target], ""⟩ :: tar_members matter_id bytes inodes rest
  | inodes, (p, .special) :: rest => ⟨matter_id :: p, .other, [], ""⟩ :: tar_members matter_id bytes inodes rest
  | inodes, (p, .file i) :: rest =>
    match inodes.get? i with
    | some first => ⟨matter_id :: p, .link, first, ""⟩ :: tar_members matter_id bytes inodes rest
    | none =>
      ⟨matter_id :: p, .regular, [], bytes i⟩ ::
        tar_members matter_id bytes (inodes.insert i (matter_id :: p)) rest

/-- `_snapshot_tar` over the vault as it is while the lock is held. -/
def snapshot_tar (matter_id : String) (vault : Disk) : List TarInfo :=
  tar_members matter_id vault.bytes ∅ (walked vault)

/-- `load_matter`. -/
def load_matter (codec : Codec) (config : Option String) : Except BackupFailure String :=
  match config with
  | none => .error (.matterConfig s!"no {MATTER_YAML} found")
  | some text => (codec.load_matter text).mapError .matterConfig

/-- What one call of `backup_matter` is given: the destination's checks, the compact time stamp, the key
    and the random nonce, whether its caller already holds the lock, and what the lock needs. `beat` is the
    last heartbeat written before the lock file was archived, with the name of its temporary file. -/
structure BackupCall where
  sync_folder : Option String := none
  git_repo : Option String := none
  ts : String
  encrypt : Bool := true
  key : Bytes
  nonce : Bytes
  nonce_length : nonce.length = NONCE_LEN
  held_lock : Bool := false
  token : String
  random : String
  beat : Option (Instant × String) := none

def BACKUP_LOCK_RUN_ID : String := "backup"

/-- `RunLock.heartbeat` of the backup's own lock. -/
def heartbeat_lock (codec : Codec) (self : Process) (call : BackupCall) (vault : Disk) : Disk :=
  match call.beat with
  | none => vault
  | some (now, random) =>
    if vault.get? (RUNS ++ [temp_name random LOCK_FILE]) ≠ none then vault
    else
      let record := { lock_payload self BACKUP_LOCK_RUN_ID call.token with heartbeat_at := some now }
      runOps (atomic_write_text RUNS LOCK_FILE (codec.lock.dumps record) random) vault

/-- The vault at the moment it is archived: under the backup's own lock, or under its caller's. -/
def snapshot_point (codec : Codec) (self : Process) (call : BackupCall) (vault : Disk) : Except Error Disk := do
  if call.held_lock then return vault
  let calls ← acquire codec.lock self BACKUP_LOCK_RUN_ID call.token call.random false vault
  return heartbeat_lock codec self call (runOps calls vault)

/-- `_verify_readback_*`, on the names of the members. -/
def expected_members (matter_id : String) (members : List TarInfo) : Bool :=
  members.any (fun m => m.name == [matter_id, MATTER_YAML])

def decrypt_archive (codec : Codec) (blob key : Bytes) : Except BackupFailure Bytes :=
  if blob.length < NONCE_LEN + GCM_TAG_LEN then .error (.backup "backup archive is truncated")
  else
    match codec.decrypt key (blob.take NONCE_LEN) (blob.drop NONCE_LEN) with
    | none => .error (.backup "backup archive failed authentication (wrong key or tampered)")
    | some plain => .ok plain

def is_sealed (name : String) : Bool := ".enc".toList.isSuffixOf name.toList

/-- The tar stream of an archive file. -/
def archive_bytes (codec : Codec) (archive : Archive) (key : Bytes) : Except BackupFailure Bytes :=
  if is_sealed archive.name then decrypt_archive codec archive.blob key else .ok archive.blob

def getmembers (codec : Codec) (plain : Bytes) : Except BackupFailure (List TarInfo) :=
  match codec.getmembers plain with
  | none => .error (.backup "backup archive could not be opened")
  | some members => .ok members

/-- `backup_matter`. -/
def backup_matter (codec : Codec) (self : Process) (call : BackupCall) (vault : Disk) :
    Except BackupFailure Archive := do
  if let some marker := call.sync_folder then
    throw (.backup s!"backup destination is inside a sync folder ({marker}); refusing")
  if let some repo := call.git_repo then
    throw (.backup s!"backup destination is inside a git repo ({repo}); refusing")
  let matter_id ← load_matter codec (vault.read? [MATTER_YAML])
  match snapshot_point codec self call vault with
  | .error _ => throw (.backup s!"cannot snapshot '{matter_id}': a live run holds the lock")
  | .ok snapshot =>
    let tar := codec.write (snapshot_tar matter_id snapshot)
    let archive : Archive :=
      if call.encrypt then
        ⟨s!"{matter_id}-{call.ts}.tar.gz.enc", call.nonce ++ codec.encrypt call.key call.nonce tar⟩
      else ⟨s!"{matter_id}-{call.ts}.tar.gz", tar⟩
    let members ← getmembers codec (← archive_bytes codec archive call.key)
    if expected_members matter_id members then pure archive
    else throw (.backup "backup archive is missing expected members")

/-! ### Extraction -/

inductive Node where
  | dir
  | file (bytes : String)
  deriving DecidableEq, Repr

/-- A directory as a reader sees it; the root is the directory itself. -/
abbrev Tree := Dict Path Node

/-- `realpath(base / name)` in a directory tree without links. -/
def realpath (base name : Path) : Path :=
  let step (acc : Path) (part : String) : Path :=
    if part = "" ∨ part = "." then acc else if part = ".." then acc.dropLast else acc ++ [part]
  if name.head? = some "" then name.foldl step [] else name.foldl step base

/-- The first member `_safe_extract` refuses, with its error. -/
def refused (dest : Path) (m : TarInfo) : Option BackupFailure :=
  let name := "/".intercalate m.name
  if m.type = .symlink ∨ m.type = .link then
    some (.backup s!"refusing archive member '{name}': links are not allowed")
  else if m.type ≠ .regular ∧ m.type ≠ .directory then
    some (.backup s!"refusing archive member '{name}': unsupported type")
  else if ¬dest <+: realpath dest m.name then
    some (.backup s!"refusing archive member '{name}': escapes restore root")
  else none

/-- `os.makedirs` from a directory that is there. -/
def make_dirs (above : Path) : Path → Tree → Option Tree
  | [], tree => some tree
  | name :: rest, tree =>
    match tree.get? (above ++ [name]) with
    | some (.file _) => none
    | some .dir => make_dirs (above ++ [name]) rest tree
    | none => make_dirs (above ++ [name]) rest (tree.insert (above ++ [name]) .dir)

/-- `TarFile._extract_member` at a path below the destination. -/
def extract_member (tree : Tree) (p : Path) (m : TarInfo) : Option Tree :=
  if m.type = .directory then make_dirs [] p tree
  else
    match make_dirs [] p.dropLast tree with
    | none => none
    | some tree => if tree.get? p = some .dir then none else some (tree.insert p (.file m.data))

/-- `TarFile.extractall` into an empty directory. -/
def extractall (dest : Path) (members : List TarInfo) : Option Tree :=
  members.foldlM (fun tree m => extract_member tree ((realpath dest m.name).drop dest.length) m)
    ((∅ : Tree).insert [] .dir)

/-- What is below a name. -/
def below (name : String) (tree : Tree) : Tree :=
  tree.rekey (fun p => if p.head? = some name then some p.tail else none) (by
    intro p q r hp hq
    cases p with
    | nil => simp at hp
    | cons a p =>
      cases q with
      | nil => simp at hq
      | cons b q =>
        simp only [List.head?_cons, Option.some.injEq, List.tail_cons, Option.mem_def,
          Option.ite_none_right_eq_some] at hp hq
        rw [hp.1, hq.1, hp.2, hq.2])

/-! ### Restore -/

/-- The canary tokens a host knows, each with its matter; a registry file may also be unreadable. -/
abbrev Registry := Option (Dict String String)

/-- The host a restore writes to: the refusals of its location preflight, the staging directory `mkdtemp`
    makes, what is at the target, and the canary registry. -/
structure Destination where
  root_refused : Bool := false
  target_refused : Bool := false
  staging : Path
  target : Option Tree
  registry : Registry

/-- The steps of a restore that the operating system fails: the `i`-th flag is an `OSError` there.
    `undeletable` are the paths under the target that `rmtree` cannot remove. -/
structure Faults where
  mkdtemp : Bool := false
  extract : Bool := false
  register : Bool := false
  canary : Bool := false
  undeletable : Path → Bool := fun _ => false
  replace : Bool := false
  fsync : Bool := false

/-- `target.exists() and (not target.is_dir() or any(target.iterdir()))`. -/
def occupied (target : Option Tree) : Bool :=
  match target with
  | none => false
  | some tree => tree.get? [] != some .dir || tree.keys.any (· ≠ [])

/-- `rmtree(.., ignore_errors=True)`: a path stays when it, or something below it, cannot be removed. -/
def rmtree (undeletable : Path → Bool) (target : Option Tree) : Option Tree :=
  match target with
  | none => none
  | some tree =>
    if tree.get? [] ≠ some .dir then some tree
    else
      let rest := tree.keep fun p => tree.keys.any fun q => p.isPrefixOf q && undeletable q
      if rest.keys = [] then none else some rest

def CANARY_PREFIX : String := "MOOTLOOP-CANARY-"

/-- `[0-9a-f]{32}`. -/
def is_token_hex (text : String) : Bool :=
  text.toList.length == 32 && text.toList.all (fun c => c.isDigit || ('a' ≤ c && c ≤ 'f'))

/-- `re.fullmatch(prefix + matter_id + "-" + "[0-9a-f]{32}", token)`. -/
def canary_token (matter_id token : String) : Bool :=
  let head := (CANARY_PREFIX ++ matter_id ++ "-").toList
  head.isPrefixOf token.toList && is_token_hex (String.ofList (token.toList.drop head.length))

/-- `register_canary`. -/
def register_canary (faults : Faults) (token matter_id : String) (registry : Registry) :
    Except BackupFailure Registry :=
  if !valid_id matter_id then .error (.outboundPrivacy "invalid matter_id")
  else if !canary_token matter_id token then
    .error (.outboundPrivacy "canary token is malformed or has the wrong matter identity")
  else
    match registry with
    | none => .error (.outboundPrivacy "canary registry must contain valid readable JSON")
    | some canaries =>
      if (canaries.get? token).any (· ≠ matter_id) then
        .error (.outboundPrivacy "canary registry has a conflicting matter identity")
      else if faults.register then .error (.os "canary registry")
      else .ok (some (canaries.insert token matter_id))

/-- The token in the canary file of a vault, or a new one. -/
def canary_of (canary : Option Node) (matter_id random : String) : Except BackupFailure String :=
  match canary with
  | some (.file text) => .ok (strip text)
  | some .dir => .error (.os "Is a directory")
  | none => .ok (CANARY_PREFIX ++ matter_id ++ "-" ++ random)

/-- `seed_canary` on an extracted vault, with the random part of a token it may need. -/
def seed_canary (faults : Faults) (vault : Tree) (matter_id random : String) (registry : Registry) :
    Except BackupFailure Tree × Registry :=
  match canary_of (vault.get? [CANARY_FILE]) matter_id random with
  | .error e => (.error e, registry)
  | .ok token =>
    match register_canary faults token matter_id registry with
    | .error e => (.error e, registry)
    | .ok registry =>
      if faults.canary then (.error (.os CANARY_FILE), registry)
      else (.ok (vault.insert [CANARY_FILE] (.file (token ++ "\n"))), registry)

/-- `_archive_matter_id`. -/
def archive_matter_id (members : List TarInfo) : Except BackupFailure String :=
  match ((members.filterMap (·.name.head?)).filter (· ≠ ".")).dedup with
  | [matter_id] =>
    if valid_id matter_id then .ok matter_id
    else .error (.backup "backup archive has an invalid matter id")
  | _ => .error (.backup "backup archive must contain exactly one top-level matter dir")

/-- `_safe_extract`. -/
def safe_extract (faults : Faults) (staging : Path) (members : List TarInfo) : Except BackupFailure Tree :=
  match members.findSome? (refused staging) with
  | some failure => .error failure
  | none =>
    match extractall staging members with
    | none => .error (.os "extraction failed")
    | some tree => if faults.extract then .error (.os "extraction failed") else .ok tree

def Node.text? : Node → Option String
  | .dir => none
  | .file text => some text

/-- `_assert_restored_vault`. -/
def assert_restored_vault (codec : Codec) (extracted : Tree) (matter_id : String) : Except BackupFailure Unit :=
  if extracted.get? [] ≠ some .dir then
    .error (.backup s!"backup archive did not restore a {matter_id} vault")
  else
    match (extracted.get? [MATTER_YAML]).bind Node.text? with
    | none => .error (.backup s!"restored vault is missing {MATTER_YAML}")
    | some config =>
      match codec.load_matter config with
      | .error _ => .error (.backup "restored vault has invalid matter configuration")
      | .ok found =>
        if found ≠ matter_id then
          .error (.backup "restored directory and matter configuration identity disagree")
        else .ok ()

/-- What one call of `restore_matter` is given; `none` is an archive path where no file is. `random` is
    `secrets.token_hex(16)`. -/
structure RestoreCall where
  archive : Option Archive
  key : Bytes
  overwrite : Bool := false
  random : String
  hex : is_token_hex random = true

/-- The members and the matter id of the archive, once the location passed. -/
def opened (codec : Codec) (call : RestoreCall) (host : Destination) :
    Except BackupFailure (List TarInfo × String) := do
  let some archive := call.archive | throw (.backup "backup archive does not exist")
  let plain ← archive_bytes codec archive call.key
  if host.root_refused then throw (.backup "restore destination failed vault-location preflight")
  let members ← getmembers codec plain
  let matter_id ← archive_matter_id members
  if host.target_refused then throw (.backup "restore target failed vault-location preflight")
  if occupied host.target && !call.overwrite then
    throw (.backup "refusing to restore over non-empty vault; pass overwrite=True")
  pure (members, matter_id)

/-- The vault ready in the staging directory, before its canary. -/
def staged_vault (codec : Codec) (faults : Faults) (host : Destination) (members : List TarInfo)
    (matter_id : String) : Except BackupFailure Tree := do
  if faults.mkdtemp then throw (.os "mkdtemp")
  let tree ← safe_extract faults host.staging members
  assert_restored_vault codec (below matter_id tree) matter_id
  pure (below matter_id tree)

/-- Puts the extracted vault at the target. -/
def publish_restored (faults : Faults) (overwrite : Bool) (extracted : Tree) (target : Option Tree) :
    Except BackupFailure Unit × Option Tree :=
  let cleared := if overwrite then rmtree faults.undeletable target else target
  if faults.replace || occupied cleared then (.error (.backup "could not publish restored vault"), cleared)
  else if faults.fsync then (.error (.os "fsync"), some extracted)
  else (.ok (), some extracted)

/-- `restore_matter`: the matter id it restored, and the host it leaves. -/
def restore_matter (codec : Codec) (faults : Faults) (call : RestoreCall) (host : Destination) :
    Except BackupFailure String × Destination :=
  match opened codec call host with
  | .error e => (.error e, host)
  | .ok (members, matter_id) =>
    match staged_vault codec faults host members matter_id with
    | .error e => (.error e, host)
    | .ok vault =>
      match seed_canary faults vault matter_id call.random host.registry with
      | (.error e, registry) => (.error e, { host with registry := registry })
      | (.ok extracted, registry) =>
        match publish_restored faults call.overwrite extracted host.target with
        | (.error e, target) => (.error e, { host with registry := registry, target := target })
        | (.ok (), target) => (.ok matter_id, { host with registry := registry, target := target })

end MootLoop
