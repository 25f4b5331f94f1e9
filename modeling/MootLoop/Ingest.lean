import MootLoop.Common
import MootLoop.Persistence
import MootLoop.Lib.Dict
import MootLoop.Lib.Transition
import Mathlib.Data.List.Sort

/-! Corpus ingestion: a source folder walked and content-addressed into the manifest, the review tags, and the
    promotion of converted documents. -/

namespace MootLoop.Ingest

/-! ### The manifest -/

inductive IngestStatus where
  | ok
  | needs_conversion
  | unreadable
  | too_large
  deriving DecidableEq, Repr

def IngestStatus.value : IngestStatus → String
  | ok => "ok"
  | needs_conversion => "needs_conversion"
  | unreadable => "unreadable"
  | too_large => "too_large"

inductive TriageIssue where
  | needs_ocr
  | password_protected
  | corrupt
  | unsupported_format
  | too_large
  | unreadable
  deriving DecidableEq, Repr

def TriageIssue.value : TriageIssue → String
  | needs_ocr => "needs_ocr"
  | password_protected => "password_protected"
  | corrupt => "corrupt"
  | unsupported_format => "unsupported_format"
  | too_large => "too_large"
  | unreadable => "unreadable"

inductive DocRole where
  | complaint
  | answer
  | served_discovery
  | client_doc
  | authority
  | correspondence
  | other
  deriving DecidableEq, Repr

def DocRole.parse : String → Option DocRole
  | "complaint" => some complaint
  | "answer" => some answer
  | "served-discovery" => some served_discovery
  | "client-doc" => some client_doc
  | "authority" => some authority
  | "correspondence" => some correspondence
  | "other" => some other
  | _ => none

abbrev DocId := String

structure CorpusDoc where
  doc_id : DocId
  original_name : String
  media_type : String
  role : Option DocRole
  privileged : Option Bool
  ingest_status : IngestStatus
  triage_issue : Option TriageIssue
  normalized_path : Option String
  ingested_at : String
  deriving DecidableEq, Repr

/-- Only normalized documents with both human triage calls may enter runs. -/
def CorpusDoc.run_visible (doc : CorpusDoc) : Bool :=
  doc.ingest_status = .ok ∧ doc.normalized_path.isSome ∧ doc.role.isSome ∧ doc.privileged.isSome

/-- The documents in the order of the file, by id. -/
abbrev Manifest := Dict DocId CorpusDoc

/-- Replaces the entry with the same id, or appends. -/
def Manifest.upsert (manifest : Manifest) (doc : CorpusDoc) : Manifest := Dict.insert manifest doc.doc_id doc

/-- The manifest, and the texts under `corpus/normalized` by document id. -/
structure Corpus where
  manifest : Manifest := ∅
  normalized : Dict DocId String := ∅
  deriving DecidableEq

inductive Failure where
  | ingest (message : String)
  | value (message : String)
  deriving DecidableEq, Repr

/-! ### Source folders -/

/-- A file of a source folder: one that is captured whole, or one that is not and the text of its exception. -/
inductive SourceFile where
  | symlink
  | unstable (exc : String)
  | regular (data : FileBytes)
  deriving DecidableEq, Repr

inductive DirEntry where
  | directory (name : String) (entries : List DirEntry)
  | linked_directory (name : String)
  | file (name : String) (source : SourceFile)

/-- `none` where the path is a symbolic link or no directory. -/
structure SourceDir where
  path : String
  entries : Option (List DirEntry)

structure Found where
  rel : String
  name : String
  source : SourceFile
  deriving DecidableEq, Repr

def hidden (name : String) : Bool := name.toList.head? == some '.'

def below (parent name : String) : String := if parent = "" then name else s!"{parent}/{name}"

/-- The symbolic links to directories, then the files, each by name. -/
def listed (parent : String) (entries : List DirEntry) : List Found :=
  let links := entries.filterMap fun
    | .linked_directory name => if hidden name then none else some ⟨below parent name, name, .symlink⟩
    | _ => none
  let files := entries.filterMap fun
    | .file name source => if hidden name then none else some ⟨below parent name, name, source⟩
    | _ => none
  links.insertionSort (·.name ≤ ·.name) ++ files.insertionSort (·.name ≤ ·.name)

/-- Subdirectories by name, each with all that is found in it. -/
def joined (found : List (String × List Found)) : List Found :=
  (found.insertionSort (·.1 ≤ ·.1)).flatMap (·.2)

mutual

def DirEntry.walk (parent : String) : DirEntry → List (String × List Found)
  | .directory name entries =>
    if hidden name then []
    else [(name, listed (below parent name) entries ++ joined (walk_all (below parent name) entries))]
  | _ => []

def walk_all (parent : String) : List DirEntry → List (String × List Found)
  | [] => []
  | entry :: rest => entry.walk parent ++ walk_all parent rest

end

/-- `_iter_source_files`: top down, never into a symbolic link. -/
def iter_source_files (entries : List DirEntry) : List Found := listed "" entries ++ joined (walk_all "" entries)

/-! ### Tags -/

structure TagRule where
  pattern : String
  role : Option DocRole
  privileged : Option Bool
  deriving DecidableEq, Repr

/-- A value of a tags file: no mapping, or its role and its privilege, which may be no boolean. -/
inductive TagEntry where
  | other
  | mapping (role : Option String) (privileged : Option (Option Bool))

/-- A tags file as `yaml.safe_load` reads it. -/
inductive TagsFile where
  | missing
  | empty
  | other
  | mapping (entries : List (String × TagEntry))

/-- What the module uses of the standard library and of the document parsers. -/
structure Formats where
  sha256 : FileBytes → Digest
  fnmatch : String → String → Bool
  /-- `repr` of a text. -/
  repr : String → String
  /-- `Path(name).suffix.lower()`. -/
  suffix : String → String
  guess_type : String → Option String
  normalize_docx : FileBytes → Except String String
  normalize_eml : FileBytes → Except String String

section
variable (x : Formats)

def tag_rule : String × TagEntry → Except Failure TagRule
  | (pattern, .other) => .error (.ingest s!"tag entry for {x.repr pattern} must be a mapping")
  | (pattern, .mapping role privileged) => do
    let role ← match role with
      | none => .ok none
      | some value =>
        match DocRole.parse value with
        | some role => .ok (some role)
        | none => .error (.value s!"{x.repr value} is not a valid DocRole")
    match privileged with
    | none => return ⟨pattern, role, none⟩
    | some (some flag) => return ⟨pattern, role, some flag⟩
    | some none => .error (.ingest s!"tag entry for {x.repr pattern}: privileged must be a boolean")

/-- `_load_tag_rules`, of a tags file and its path. -/
def load_tag_rules : Option (String × TagsFile) → Except Failure (List TagRule)
  | none => .ok []
  | some (path, .missing) => .error (.ingest s!"tags file not found: {path}")
  | some (_, .empty) => .ok []
  | some (path, .other) =>
    .error (.ingest ("tags file must be a glob -> \x7brole, privileged\x7d mapping: " ++ path))
  | some (_, .mapping entries) => entries.mapM (tag_rule x)

/-- The last matching rule wins, for each field. -/
def apply_tags (name : String) (rules : List TagRule) : Option DocRole × Option Bool :=
  rules.foldl (fun tags rule =>
    if x.fnmatch name rule.pattern then (rule.role.or tags.1, rule.privileged.or tags.2) else tags) (none, none)

/-! ### Normalization -/

def MAX_BYTES : Nat := 50 * 1024 * 1024

def TEXT_SUFFIXES : List String := [".txt", ".md", ".markdown"]

def doc_id_from_hash (hexdigest : Digest) : DocId := "doc-" ++ String.ofList (hexdigest.toList.take 16)

/-- The content-addressed id. -/
def content_doc_id (data : FileBytes) : DocId := doc_id_from_hash (x.sha256 data)

/-- A path-derived id for documents that cannot be read. -/
def fallback_doc_id (rel_path : String) : DocId := doc_id_from_hash (x.sha256 rel_path.toUTF8.data.toList)

def decode_text (data : FileBytes) : String :=
  match String.fromUTF8? ⟨data.toArray⟩ with
  | some text => text
  | none => String.ofList (data.map fun byte => Char.ofNat byte.toNat)

/-- Normalized markdown, or `none` where the type needs later conversion. -/
def normalize (suffix : String) (data : FileBytes) : Except String (Option String) :=
  if suffix ∈ TEXT_SUFFIXES then .ok (some (decode_text data))
  else if suffix = ".docx" then (x.normalize_docx data).map some
  else if suffix = ".eml" then (x.normalize_eml data).map some
  else .ok none

def ascii (text : String) : FileBytes := text.toList.map fun c => UInt8.ofNat c.toNat

/-- `marker in data`. -/
def occurs (data marker : FileBytes) : Bool := data.tails.any (marker.isPrefixOf ·)

def ENCRYPTED_OFFICE_MAGIC : FileBytes := [0xd0, 0xcf, 0x11, 0xe0, 0xa1, 0xb1, 0x1a, 0xe1]

def text_markers : List FileBytes :=
  [ascii " BT", ascii "\nBT", ascii " Tj", ascii " TJ", ascii "/Font", ascii "/ToUnicode"]

def image_markers : List FileBytes := [ascii "/Image", 0x89 :: ascii "PNG", [0xff, 0xd8, 0xff]]

/-- The formats that need a protected follow-up before normalization. -/
def conversion_issue (suffix : String) (data : FileBytes) : Option TriageIssue :=
  if data = [] then some .corrupt
  else if suffix = ".pdf" then
    if !(ascii "%PDF-").isPrefixOf data then some .corrupt
    else if occurs data (ascii "/Encrypt") then some .password_protected
    else if !text_markers.any (occurs data) && image_markers.any (occurs data) then some .needs_ocr
    else some .unsupported_format
  else if suffix = ".docx" ∧ ENCRYPTED_OFFICE_MAGIC.isPrefixOf data then some .password_protected
  else if suffix ∉ TEXT_SUFFIXES ++ [".docx", ".eml"] then some .unsupported_format
  else none

def media_type (name suffix : String) : String :=
  match x.guess_type name with
  | some guessed => guessed
  | none =>
    if suffix = ".md" then "text/markdown"
    else if suffix = ".eml" then "message/rfc822"
    else "application/octet-stream"

def normalized_rel (doc_id : DocId) : String := s!"corpus/normalized/{doc_id}.md"

/-- The durable text ends with a newline. -/
def write_normalized_text (normalized : Dict DocId String) (doc_id : DocId) (markdown : String) : Dict DocId String :=
  normalized.insert doc_id (if markdown.endsWith "\n" then markdown else markdown ++ "\n")

/-! ### Ingest -/

structure IngestEntry where
  doc : CorpusDoc
  reason : Option String
  deriving DecidableEq, Repr

/-- A prior tag stays where this ingest supplies none. -/
def carry_prior_tags (doc_id : DocId) (manifest : Manifest) (tags : Option DocRole × Option Bool) :
    Option DocRole × Option Bool :=
  match Dict.get? manifest doc_id with
  | none => tags
  | some prior => (tags.1.or prior.role, tags.2.or prior.privileged)

/-- The status of bytes within the limit, their issue, their markdown, and the reason. -/
def triage (suffix : String) (data : FileBytes) :
    IngestStatus × Option TriageIssue × Option String × Option String :=
  match conversion_issue suffix data with
  | some issue =>
    let words := String.ofList (issue.value.toList.map fun c => if c = '_' then ' ' else c)
    (.needs_conversion, some issue, none, some s!"{words}: protected conversion required")
  | none =>
    match normalize x suffix data with
    | .error exc =>
      (.needs_conversion, some .corrupt, none, some s!"normalizer error (corrupt or unsupported file): {exc}")
    | .ok none => (.needs_conversion, some .unsupported_format, none, some s!"no normalizer for {suffix}")
    | .ok (some markdown) => (.ok, none, some markdown, none)

def error_doc (doc_id : DocId) (name suffix now : String) (manifest : Manifest)
    (tags : Option DocRole × Option Bool) : CorpusDoc :=
  let tags := carry_prior_tags doc_id manifest tags
  { doc_id, original_name := name, media_type := media_type x name suffix, role := tags.1, privileged := tags.2,
    ingest_status := .unreadable, triage_issue := some .unreadable, normalized_path := none, ingested_at := now }

/-- The entry of one file, and the markdown that is written for it. -/
def ingest_one (file : Found) (now : String) (rules : List TagRule) (manifest : Manifest) :
    IngestEntry × Option String :=
  let suffix := x.suffix file.name
  let tags := apply_tags x file.name rules
  match file.source with
  | .symlink =>
    (⟨error_doc x (fallback_doc_id x file.rel) file.name suffix now manifest tags,
      some "symlinked source (fail closed)"⟩, none)
  | .unstable exc =>
    (⟨error_doc x (fallback_doc_id x file.rel) file.name suffix now manifest tags,
      some s!"stable capture failed: {exc}"⟩, none)
  | .regular data =>
    let doc_id := content_doc_id x data
    let tags := carry_prior_tags doc_id manifest tags
    if MAX_BYTES < data.length then
      (⟨{ doc_id, original_name := file.name, media_type := media_type x file.name suffix, role := tags.1,
          privileged := tags.2, ingest_status := .too_large, triage_issue := some .too_large, normalized_path := none,
          ingested_at := now }, some s!"{data.length} bytes exceeds {MAX_BYTES} limit"⟩, none)
    else
      let (status, triage_issue, markdown, reason) := triage x suffix data
      (⟨{ doc_id, original_name := file.name, media_type := media_type x file.name suffix, role := tags.1,
          privileged := tags.2, ingest_status := status, triage_issue,
          normalized_path := markdown.map fun _ => normalized_rel doc_id, ingested_at := now }, reason⟩, markdown)

/-- A human action a document waits for. -/
structure IngestAction where
  action_id : String
  doc_id : DocId
  original_name : String
  kind : String
  deriving DecidableEq, Repr

def action (doc : CorpusDoc) (kind : String) : IngestAction :=
  let digest := (x.sha256 (doc.doc_id ++ "\x00" ++ kind).toUTF8.data.toList).toList.take 16
  ⟨"ingest-action-" ++ String.ofList digest, doc.doc_id, doc.original_name, kind⟩

def legacy_issue_by_status : IngestStatus → Option TriageIssue
  | .ok => none
  | .needs_conversion => some .unsupported_format
  | .too_large => some .too_large
  | .unreadable => some .unreadable

def actions_for_manifest (manifest : Manifest) : List IngestAction :=
  (manifest.values.insertionSort (·.doc_id ≤ ·.doc_id)).flatMap fun doc =>
    (if doc.role = none then [action x doc "confirm_role"] else []) ++
    (if doc.privileged = none then [action x doc "confirm_privilege"] else []) ++
    ((doc.triage_issue.or (legacy_issue_by_status doc.ingest_status)).map fun issue => action x doc issue.value).toList

structure IngestReport where
  entries : List IngestEntry
  actions : List IngestAction

/-- One file into the corpus and the report's entries. -/
def ingest_file (now : String) (rules : List TagRule) (pass : Corpus × List IngestEntry) (file : Found) :
    Corpus × List IngestEntry :=
  let (entry, markdown) := ingest_one x file now rules pass.1.manifest
  ({ manifest := pass.1.manifest.upsert entry.doc,
     normalized := match markdown with
       | some text => write_normalized_text pass.1.normalized entry.doc.doc_id text
       | none => pass.1.normalized },
   pass.2 ++ [entry])

def ingest_folder (c : Corpus) (source_dir : SourceDir) (now : String) (tags_file : Option (String × TagsFile)) :
    Except Failure (Corpus × IngestReport) :=
  match source_dir.entries with
  | none => .error (.ingest s!"source dir not found or not a directory: {source_dir.path}")
  | some entries => do
    let rules ← load_tag_rules x tags_file
    let (c', found) := (iter_source_files entries).foldl (ingest_file x now rules) (c, [])
    return (c', ⟨found, actions_for_manifest x c'.manifest⟩)

end

/-! ### Promotion and tagging -/

/-- `canonical` is whether no symbolic link stands on the normalized path. -/
def promote_converted_document (c : Corpus) (doc_id : DocId) (canonical : Bool) : Except Failure (Corpus × CorpusDoc) :=
  if !canonical then .error (.ingest s!"normalized conversion path is not canonical for {doc_id}")
  else if !c.normalized.contains doc_id then
    .error (.ingest s!"normalized conversion output is missing for {doc_id}")
  else
    match Dict.get? c.manifest doc_id with
    | none => .error (.ingest s!"unknown doc_id: {doc_id}")
    | some doc =>
      if doc.ingest_status = .ok ∧ doc.triage_issue = none ∧ doc.normalized_path = some (normalized_rel doc_id) then
        .ok (c, doc)
      else if doc.ingest_status ≠ .needs_conversion then
        .error (.ingest s!"document {doc_id} cannot be promoted from {doc.ingest_status.value}")
      else
        let updated := { doc with
          ingest_status := .ok
          triage_issue := none
          normalized_path := some (normalized_rel doc_id) }
        .ok ({ c with manifest := c.manifest.upsert updated }, updated)

/-- Only the fields that are given change. -/
def set_doc_tag (c : Corpus) (doc_id : DocId) (role : Option DocRole) (privileged : Option Bool) :
    Except Failure (Corpus × CorpusDoc) :=
  match Dict.get? c.manifest doc_id with
  | none => .error (.ingest s!"unknown doc_id: {doc_id}")
  | some doc =>
    let updated := { doc with role := role.or doc.role, privileged := privileged.or doc.privileged }
    .ok ({ c with manifest := c.manifest.upsert updated }, updated)

/-- The entry points, and the text a conversion writes before it is promoted. -/
inductive Call where
  | ingest_folder (source_dir : SourceDir) (now : String) (tags_file : Option (String × TagsFile))
  | set_doc_tag (doc_id : DocId) (role : Option DocRole) (privileged : Option Bool)
  | promote_converted_document (doc_id : DocId) (canonical : Bool)
  | write_normalized_text (doc_id : DocId) (markdown : String)

def perform (x : Formats) (c : Corpus) : Call → Except Failure Corpus
  | .ingest_folder source_dir now tags_file => (ingest_folder x c source_dir now tags_file).map (·.1)
  | .set_doc_tag doc_id role privileged => (set_doc_tag c doc_id role privileged).map (·.1)
  | .promote_converted_document doc_id canonical => (promote_converted_document c doc_id canonical).map (·.1)
  | .write_normalized_text doc_id markdown =>
    .ok { c with normalized := write_normalized_text c.normalized doc_id markdown }

/-- A call that succeeds; one that raises leaves the manifest as it was. -/
def Step (x : Formats) (c : Corpus) (call : Call) (c' : Corpus) : Prop := perform x c call = .ok c'

end MootLoop.Ingest
