import MootLoop.Common
import MootLoop.Lib.Dict
import MootLoop.Lib.Durable
import MootLoop.Lib.Transition

/-! The public tier: digest-bound releases of reviewed demos, the catalog that reads them, and the publisher that
    stages, promotes and points to one. -/

namespace MootLoop.Publication
open Durable

inductive PublicationError where
  | refused (message : String)
  | key (demo_id : String)
  deriving DecidableEq, Repr

/-! ### Releases -/

inductive Node where
  | dir
  | file (text : String)
  | symlink
  | special
  deriving DecidableEq, Repr

/-- What is below a directory, by relative path. -/
abbrev Tree := Dict (List String) Node

structure DemoDescriptor where
  demo_id : String
  introduction : String
  task : String
  rest : String
  deriving DecidableEq, Repr

structure CatalogEntry where
  descriptor : DemoDescriptor
  revision : String
  snapshot_sha256 : Digest
  bundle_sha256 : Digest
  review_sha256 : Digest
  deriving DecidableEq, Repr

/-- `^[a-z0-9][a-z0-9._-]{0,63}$` -/
def is_identity (value : String) : Bool :=
  let alnum := fun c : Char => ('a' ≤ c && c ≤ 'z') || ('0' ≤ c && c ≤ '9')
  match value.toList with
  | [] => false
  | c :: rest => alnum c && rest.all (fun c => alnum c || c == '.' || c == '_' || c == '-') && rest.length ≤ 63

/-- A release's catalog, with no demo twice. -/
structure DemoCatalog where
  release_id : String
  legacy_sha256 : Option Digest
  entries : List CatalogEntry
  identified : is_identity release_id = true
  unique_demos : (entries.map (·.descriptor.demo_id)).Nodup

structure DemoSnapshot where
  descriptor : DemoDescriptor
  revision : String
  bundle_sha256 : Digest

structure LocalInputBundle where
  demo_id : String
  revision : String
  task : String

structure PublicationReview where
  demo_id : String
  revision : String
  snapshot_sha256 : Digest
  bundle_sha256 : Digest

/-- The validation of JSON models, the digest, and the two content checks of the publisher. -/
structure Readers where
  sha256 : String → Digest
  catalog : String → Option DemoCatalog
  snapshot : String → Option DemoSnapshot
  bundle : String → Option LocalInputBundle
  review : String → Option PublicationReview
  legacy : String → Option Unit
  /-- `validate_bundle(LocalInputBundle.model_validate_json(raw))`. -/
  validate_bundle : String → Bool
  /-- `_CREDENTIAL.search` over the canonical JSON of a payload. -/
  credential : String → Bool

def DEMO_IDS : List String :=
  ["supplier-discovery", "employment-retaliation", "product-liability", "land-use-appeal", "civil-rights-argument",
   "musk-openai", "dominion-fox", "epic-apple", "tesla-tornetta", "google-oracle", "supplier-termination",
   "liability-cap", "ai-customer-data", "worker-classification", "competitor-recruitment",
   "comparative-advertising", "open-source-release", "distributor-restrictions", "customer-data-incident",
   "acquisition-diligence"]

def MAX_PUBLIC_FILE : Nat := 16 * 1024 * 1024

def identity (value : String) : Except PublicationError Unit :=
  if is_identity value then .ok () else .error (.refused "invalid public artifact identity")

/-- `read_regular` from a directory already walked to. -/
def read_from (tree : Tree) (path : List String) : List String → Except PublicationError String
  | [] =>
    match tree.get? path with
    | some (.file text) =>
      if text.utf8ByteSize ≤ MAX_PUBLIC_FILE then .ok text
      else .error (.refused "public artifact is not a bounded regular file")
    | some _ => .error (.refused "public artifact is not a bounded regular file")
    | none => .error (.refused "public artifact is unavailable")
  | part :: rest => do
    identity part
    if tree.get? (path ++ [part]) = some .symlink then .error (.refused "public path contains a symlink")
    else read_from tree (path ++ [part]) rest

def read_regular (tree : Tree) (parts : List String) : Except PublicationError String := read_from tree [] parts

section
variable (x : Readers)

/-- `decode`: the model of a text, bound to a digest where one is given. -/
def decode {M : Type} (model : String → Option M) (raw : String) (digest : Option Digest) :
    Except PublicationError M :=
  if digest.any (· ≠ x.sha256 raw) then .error (.refused "public artifact digest mismatch")
  else
    match model raw with
    | none => .error (.refused "invalid public artifact schema")
    | some value => .ok value

def release_catalog (tree : Tree) : Except PublicationError DemoCatalog := do
  let catalog ← decode x x.catalog (← read_regular tree ["catalog.json"]) none
  let demo_ids := catalog.entries.map (·.descriptor.demo_id)
  if demo_ids.all (· ∈ DEMO_IDS) && DEMO_IDS.all (· ∈ demo_ids) then return catalog
  else .error (.refused "release must contain exactly the twenty approved demos")

def FILENAMES : List String := ["snapshot.json", "inputs.json", "review.json"]

def CatalogEntry.path (entry : CatalogEntry) (filename : String) : List String :=
  [entry.descriptor.demo_id, entry.revision, filename]

/-- The three files of an entry against its digests and against each other. -/
def check_entry (tree : Tree) (entry : CatalogEntry) : Except PublicationError Unit := do
  let snapshot ← decode x x.snapshot (← read_regular tree (entry.path "snapshot.json")) (some entry.snapshot_sha256)
  let bundle ← decode x x.bundle (← read_regular tree (entry.path "inputs.json")) (some entry.bundle_sha256)
  let review ← decode x x.review (← read_regular tree (entry.path "review.json")) (some entry.review_sha256)
  if snapshot.descriptor ≠ entry.descriptor ∨ snapshot.revision ≠ entry.revision ∨
      snapshot.bundle_sha256 ≠ entry.bundle_sha256 ∨ bundle.demo_id ≠ entry.descriptor.demo_id ∨
      bundle.revision ≠ entry.revision ∨ bundle.task ≠ entry.descriptor.task ∨
      review.demo_id ≠ entry.descriptor.demo_id ∨ review.revision ≠ entry.revision ∨
      review.snapshot_sha256 ≠ entry.snapshot_sha256 ∨ review.bundle_sha256 ≠ entry.bundle_sha256 then
    .error (.refused "cross-demo identity or review binding mismatch")
  else return

/-- The files a release with this catalog has. -/
def expected_files (catalog : DemoCatalog) : List (List String) :=
  ["catalog.json"] :: (if catalog.legacy_sha256.isSome then [["legacy.json"]] else []) ++
    catalog.entries.flatMap fun entry => FILENAMES.map entry.path

/-- The listing of a release is its expected files and the directories above them. -/
def check_listing (catalog : DemoCatalog) (tree : Tree) : Except PublicationError Unit :=
  let expected := expected_files catalog
  let allowed_dirs := expected.flatMap fun name => [name.dropLast, name.dropLast.dropLast]
  if tree.values.any (· = .symlink) then .error (.refused "symlink in public release")
  else if tree.entries.any fun node => node.2 = .dir ∧ node.1 ∉ allowed_dirs then
    .error (.refused "unexpected directory in public release")
  else
    let actual := (tree.entries.filter (·.2 ≠ .dir)).map (·.1)
    if actual.all (· ∈ expected) && expected.all (· ∈ actual) then .ok ()
    else .error (.refused "unexpected or missing public release files")

/-- Runs a check on each item in turn. -/
def each {α : Type} (check : α → Except PublicationError Unit) : List α → Except PublicationError Unit
  | [] => .ok ()
  | a :: rest => do
    check a
    each check rest

def check_legacy (catalog : DemoCatalog) (tree : Tree) : Except PublicationError Unit := do
  if catalog.legacy_sha256.isSome then
    decode x x.legacy (← read_regular tree ["legacy.json"]) catalog.legacy_sha256
  else return

def validate_release (tree : Tree) : Except PublicationError DemoCatalog := do
  let catalog ← release_catalog x tree
  check_legacy x catalog tree
  each (check_entry x tree) catalog.entries
  check_listing catalog tree
  return catalog

/-! ### The public directory -/

/-- The releases, the stages a publication left or is at, and every name `CURRENT` has held, the present one
    last. -/
structure PublicStore where
  releases : Dict String Tree := ∅
  stages : Dict String Tree := ∅
  pointed : List String := []

def PublicStore.current (s : PublicStore) : Option String := s.pointed.getLast?

/-- Creates a file, and the directories above it. -/
def Tree.put (tree : Tree) (path : List String) (text : String) : Tree :=
  Dict.insert (path.inits.dropLast.tail.foldl (fun tree parent => Dict.setDefault tree parent .dir) tree) path (.file text)

inductive Write where
  | stage (name : String)
  | put (name : String) (path : List String) (text : String)
  | promote (name release_id : String)
  | point (release_id : String)
  | drop (name : String)
  deriving DecidableEq, Repr

instance : Durable PublicStore Write where
  commit s
    | .stage name => { s with stages := s.stages.insert name ∅ }
    | .put name path text => { s with stages := s.stages.insert name (((s.stages.get? name).getD ∅).put path text) }
    | .promote name release_id =>
      match s.stages.get? name with
      | some tree => { s with stages := s.stages.erase name, releases := s.releases.insert release_id tree }
      | none => s
    | .point release_id => { s with pointed := s.pointed ++ [release_id] }
    | .drop name => { s with stages := s.stages.erase name }

/-- `PublicCatalog(target).ready()`. -/
def ready (s : PublicStore) : Except PublicationError DemoCatalog :=
  match s.current with
  | none => .error (.refused "public artifact is unavailable")
  | some release_id => do
    identity release_id
    match s.releases.get? release_id with
    | none => .error (.refused "public artifact is unavailable")
    | some tree => validate_release x tree

/-! ### The publisher -/

/-- One call: the source tree, the approved descriptors, what the path checks found, and the name the stage gets. -/
structure Publish where
  source : Tree
  approved : List DemoDescriptor
  in_git : Bool := false
  target_linked : Bool := false
  stage : String

/-- Each entry's descriptor is the approved one, but for its introduction. -/
def check_approved (approved : List DemoDescriptor) (entry : CatalogEntry) : Except PublicationError Unit :=
  match approved.find? (·.demo_id = entry.descriptor.demo_id) with
  | none => .error (.key entry.descriptor.demo_id)
  | some wanted =>
    if { entry.descriptor with introduction := "" } ≠ { wanted with introduction := "" } then
      .error (.refused "descriptor does not match approved collection manifest")
    else .ok ()

/-- The captured bytes, by path. -/
def payloads (source : Tree) (catalog : DemoCatalog) : Except PublicationError (List (List String × String)) :=
  (expected_files catalog).mapM fun path => return (path, ← read_regular source path)

def check_bundle (payload : List String × String) : Except PublicationError Unit :=
  if payload.1.getLast? = some "inputs.json" ∧ x.validate_bundle payload.2 = false then
    .error (.refused "invalid local input bundle")
  else .ok ()

def check_credential (payload : List String × String) : Except PublicationError Unit :=
  if x.credential payload.2 then .error (.refused "credential or canary marker in public content") else .ok ()

/-- A revision the present release has keeps its entry. -/
def check_revision (previous : DemoCatalog) (entry : CatalogEntry) : Except PublicationError Unit :=
  match previous.entries.find? (·.descriptor.demo_id = entry.descriptor.demo_id) with
  | none => .error (.key entry.descriptor.demo_id)
  | some prior =>
    if prior.revision = entry.revision ∧ prior ≠ entry then
      .error (.refused "changed demo content requires a new revision")
    else .ok ()

def check_previous (s : PublicStore) (catalog : DemoCatalog) : Except PublicationError Unit := do
  if s.current.isSome then each (check_revision (← ready x s)) catalog.entries else return

/-- The bytes of a release that is already there are the captured ones. -/
def check_same (destination : Tree) (payload : List String × String) : Except PublicationError Unit := do
  if (← read_regular destination payload.1) ≠ payload.2 then
    .error (.refused "release identity already contains different bytes")
  else return

abbrev PublicM := Prog PublicStore Write PublicationError

/-- From the empty stage to the new pointer. -/
def promote (call : Publish) (catalog : DemoCatalog) (captured : List (List String × String)) : PublicM Unit := do
  Prog.forEach captured fun payload => Prog.write (.put call.stage payload.1 payload.2)
  let s ← Prog.read
  let _ ← Prog.lift (validate_release x ((s.stages.get? call.stage).getD ∅))
  match s.releases.get? catalog.release_id with
  | some destination =>
    let _ ← Prog.lift (validate_release x destination)
    Prog.lift (each (check_same destination) captured)
  | none => Prog.write (.promote call.stage catalog.release_id)
  Prog.write (.point catalog.release_id)

/-- Everything that is checked before anything is written. -/
def prepare (call : Publish) (s : PublicStore) :
    Except PublicationError (DemoCatalog × List (List String × String)) := do
  if call.in_git then .error (.refused "public releases must remain outside Git checkouts")
  else
    let catalog ← validate_release x call.source
    each (check_approved call.approved) catalog.entries
    let captured ← payloads call.source catalog
    each (check_bundle x) captured
    each (check_credential x) captured
    if call.target_linked then .error (.refused "publication target contains a symlink")
    else
      check_previous x s catalog
      return (catalog, captured)

def publish_release (call : Publish) : PublicM String := do
  let (catalog, captured) ← Prog.lift (prepare x call (← Prog.read))
  Prog.write (.stage call.stage)
  -- the stage goes whichever way the rest ends
  let ended ← Prog.attempt (promote x call catalog captured)
  Prog.when ((← Prog.read).stages.contains call.stage = true) (Prog.write (.drop call.stage))
  Prog.lift ended
  return catalog.release_id

/-- A publication under a stage name that is free, run to its end or crashed after some of its writes. -/
def Step (s : PublicStore) (call : Publish) (s' : PublicStore) : Prop :=
  s.stages.contains call.stage = false ∧ Prog.Crash (publish_release x call) s s'

end

end MootLoop.Publication
