import MootLoop.Audit
import MootLoop.Lib.Dict
import MootLoop.Lib.Transition

/-! The begin-task stores: task specs and the human locks of their launch inputs, each an append-only file of JSON
    lines. The writers append a line as it is; the readers take the lines of `str.splitlines`. -/

namespace MootLoop

namespace TaskSpecs

abbrev TaskSpecId := String

/-- What the stores raise; a lock store that cannot be read raises what went wrong in it. -/
inductive Failure where
  | task_spec (message : String)
  | validation (message : String)
  | unicode
  | lock_store (cause : Failure)
  | input (message : String)
  deriving DecidableEq, Repr

/-- A begin-task specification; `task` is none where no registered task was resolved. -/
structure TaskSpec where
  schema_version : String := "1.0"
  task_spec_id : TaskSpecId
  matter_id : String
  task : Option String
  source_lane : String
  intent_text : String
  folio_iri : Option String := none
  folio_label : Option String := none
  utbms : Option String := none
  request_set_refs : List String := []
  document_input_refs : List String := []
  document_input_sha256 : Dict String String := ∅
  created_at : String
  deriving DecidableEq

/-- A human approval of exact launch inputs. -/
structure TaskSpecLock where
  schema_version : String := "1.0"
  task_spec_lock_id : String
  lock_version : Nat
  task_spec_id : TaskSpecId
  matter_id : String
  task : String
  task_spec_sha256 : Digest
  adapter_locator : String
  adapter_sha256 : Digest
  rubric_id : String
  rubric_locator : String
  rubric_sha256 : Digest
  rubric_lock_locator : String
  rubric_lock_sha256 : Digest
  rubric_recorded_sha256 : Digest
  locked_by : String
  source : String := "human"
  locked_at : String
  record_sha256 : Digest
  deriving DecidableEq, Repr

/-- A record type and its JSON line. -/
structure LineCodec (ρ : Type) where
  model_dump_json : ρ → List Char
  /-- The fields of a line, or the text of the validation error. -/
  parse : List Char → Except String ρ
  /-- The strings in a record. -/
  strings : ρ → List String

/-- What the stores take from outside the repository. -/
structure Format where
  spec : LineCodec TaskSpec
  lock : LineCodec TaskSpecLock
  sha256 : FileBytes → Digest
  /-- The canonical JSON of a spec, with its document fields or without them. -/
  canonical_spec : TaskSpec → Bool → List Char
  /-- The canonical JSON of a lock without its digest. -/
  canonical_lock : TaskSpecLock → List Char

/-- `model_dump_json() + "\n"`, encoded. -/
def LineCodec.line {ρ : Type} (codec : LineCodec ρ) (record : ρ) : FileBytes :=
  utf8 (codec.model_dump_json record ++ ['\n'])

/-- `read_text().splitlines()`, without the blank lines; a file that is not there is empty. -/
def read_lines (file : FileBytes) : Except Failure (List (List Char)) :=
  match String.fromUTF8? ⟨file.toArray⟩ with
  | none => .error .unicode
  | some text => .ok ((splitlines (normalize_newlines text.toList)).filter fun line => !line.all isSpace)

variable (format : Format)

/-! ### Specs -/

namespace TaskSpecStore

def list_from (seen : List TaskSpecId) : List (List Char) → Except Failure (List TaskSpec)
  | [] => .ok []
  | line :: lines => do
    let spec ← (format.spec.parse line).mapError .validation
    if spec.task_spec_id ∈ seen then
      throw (.task_spec s!"TaskSpec store integrity failure: duplicate id '{spec.task_spec_id}'")
    else return spec :: (← list_from (spec.task_spec_id :: seen) lines)

def list_all (file : FileBytes) : Except Failure (List TaskSpec) := do list_from format [] (← read_lines file)

def get (file : FileBytes) (task_spec_id : TaskSpecId) : Except Failure (Option TaskSpec) := do
  return (← list_all format file).find? (·.task_spec_id = task_spec_id)

end TaskSpecStore

def task_spec_sha256 (spec : TaskSpec) : Digest :=
  format.sha256 (utf8 (format.canonical_spec spec (spec.document_input_refs ≠ [] ∨ spec.document_input_sha256.entries ≠ [])))

/-! ### The freeform lane -/

def registered_tasks : List String :=
  ["appellate-brief", "business-advice", "complaint", "discovery-responses", "motion", "oral-argument"]

def KEYWORD_TASK : List (String × String) :=
  ["discovery", "interrogator", "interrogatory", "rfp", "rfa", "request for production", "request for admission"].map
    (·, "discovery-responses")

/-- An exact task mention wins, then the keyword map. -/
def resolve_freeform (casefold : String → String) (intent_text : String) : Option String :=
  let text := casefold intent_text
  (registered_tasks.find? fun key => isIn (casefold key) text) <|>
    (KEYWORD_TASK.find? fun entry => isIn entry.1 text).map (·.2)

/-- The spec the freeform lane appends; `random` is `secrets.token_hex(3)`. -/
def create_freeform (casefold : String → String) (matter_id intent_text now random : String) : TaskSpec :=
  let stem := String.ofList (now.toList.filter Char.isDigit)
  { task_spec_id := s!"taskspec-{stem}-{random}", matter_id, task := resolve_freeform casefold intent_text,
    source_lane := "freeform", intent_text, created_at := now }

/-! ### Locks -/

/-- `[0-9a-f]{64}`. -/
def is_sha256 (text : String) : Bool :=
  text.length = 64 && text.toList.all fun c => ('0' ≤ c && c ≤ '9') || ('a' ≤ c && c ≤ 'f')

namespace TaskSpecLock

def digest_fields (record : TaskSpecLock) : List (String × Digest) :=
  [("task_spec_sha256", record.task_spec_sha256), ("adapter_sha256", record.adapter_sha256),
    ("rubric_sha256", record.rubric_sha256), ("rubric_lock_sha256", record.rubric_lock_sha256),
    ("rubric_recorded_sha256", record.rubric_recorded_sha256), ("record_sha256", record.record_sha256)]

def expected_sha256 (record : TaskSpecLock) : Digest := format.sha256 (utf8 (format.canonical_lock record))

/-- The field bounds and `validate_integrity`. -/
def model_validate (record : TaskSpecLock) : Except String TaskSpecLock :=
  if record.lock_version < 1 then .error "lock_version: Input should be greater than or equal to 1"
  else
    match record.digest_fields.find? fun field => !is_sha256 field.2 with
    | some field => .error s!"{field.1} must be exactly 64 lowercase hexadecimal characters"
    | none =>
      if isBlank record.locked_by then .error "locked_by must identify the human actor"
      else if isBlank record.locked_at then .error "locked_at must identify the approval time"
      else if record.rubric_sha256 ≠ record.rubric_recorded_sha256 then
        .error "rubric digest does not match the locked rubric sidecar"
      else if record.record_sha256 ≠ record.expected_sha256 format then
        .error "TaskSpecLock record digest does not match its content"
      else .ok record

def model_validate_json (line : List Char) : Except String TaskSpecLock := do
  model_validate format (← format.lock.parse line)

end TaskSpecLock

namespace TaskSpecLockStore

/-- The records of the lines, each numbered after the ones of its spec so far. -/
def list_from (versions : Dict TaskSpecId Nat) : List (List Char) → Except Failure (List TaskSpecLock)
  | [] => .ok []
  | line :: lines => do
    let record ← (TaskSpecLock.model_validate_json format line).mapError fun cause => .lock_store (.validation cause)
    let expected := (versions.get? record.task_spec_id).getD 0 + 1
    if record.lock_version ≠ expected then
      throw (.task_spec (s!"TaskSpec lock store integrity failure for '{record.task_spec_id}': " ++
        s!"expected lock version {expected}, found {record.lock_version}"))
    else return record :: (← list_from (versions.insert record.task_spec_id record.lock_version) lines)

def list_all (file : FileBytes) : Except Failure (List TaskSpecLock) := do
  list_from format ∅ (← (read_lines file).mapError .lock_store)

def latest (file : FileBytes) (task_spec_id : TaskSpecId) : Except Failure (Option TaskSpecLock) := do
  return ((← list_all format file).filter (·.task_spec_id = task_spec_id)).getLast?

end TaskSpecLockStore

/-! ### The inputs of a lock -/

/-- A task's binding and source files, as read at one moment. -/
structure TaskSources where
  config : String
  adapter_name : String
  rubric : String
  rubric_id : String
  rubric_name : String
  rubric_lock_name : String
  rubric_locked : Bool
  files : Except Failure (FileBytes × FileBytes × FileBytes)

/-- The world a lock is asked in: the matter, the task's sources at the two times they are read, and the digests of
    the documents a spec refers to. -/
structure Inputs where
  matter_id : Except Failure String
  sources : String → Except Failure TaskSources
  sources_again : String → Except Failure TaskSources
  document_sha256 : String → List String → Except Failure (Dict String String)

structure LockMaterial where
  adapter_raw : FileBytes
  rubric_raw : FileBytes
  rubric_lock_raw : FileBytes
  adapter_locator : String
  rubric_locator : String
  rubric_lock_locator : String
  rubric_id : String

/-- The digest a rubric's sidecar records: its first word. -/
def recorded_sha256 (rubric_lock_raw : FileBytes) : Except Failure String :=
  match String.fromUTF8? ⟨rubric_lock_raw.toArray⟩ with
  | none => .error (.task_spec "TaskSpec lock inputs could not be read")
  | some text =>
    let word := (text.toList.dropWhile isSpace).takeWhile fun c => !isSpace c
    if word = [] then .error (.task_spec "TaskSpec lock inputs could not be read") else .ok (String.ofList word)

/-- `_lock_material`. -/
def lock_material (inputs : Inputs) (task : String) : Except Failure LockMaterial := do
  let binding ← inputs.sources task
  if !binding.rubric_locked then
    throw (.task_spec s!"TaskSpec task '{task}' uses rubric '{binding.rubric_id}' that is not locked")
  else
    let first ← binding.files
    let recorded ← recorded_sha256 first.2.2
    let confirmed ← inputs.sources_again task
    let second ← confirmed.files
    if first ≠ second ∨ confirmed.config ≠ binding.config ∨ confirmed.rubric ≠ binding.rubric then
      throw (.task_spec "TaskSpec lock inputs changed while approval was captured; retry")
    else if recorded ≠ format.sha256 second.2.1 then
      throw (.task_spec "locked rubric sidecar does not match the exact rubric YAML")
    else
      return {
        adapter_raw := second.1, rubric_raw := second.2.1, rubric_lock_raw := second.2.2
        adapter_locator := s!"config/tasks/{binding.adapter_name}"
        rubric_locator := s!"rubrics/{binding.rubric_name}"
        rubric_lock_locator := s!"rubrics/{binding.rubric_lock_name}"
        rubric_id := binding.rubric_id }

/-- Equality of dictionaries, whatever the order of their entries. -/
def same_entries (a b : Dict String String) : Bool :=
  (a.entries.all fun entry => b.get? entry.1 = some entry.2) && b.entries.all fun entry => a.get? entry.1 = some entry.2

def validate_document_refs (inputs : Inputs) (spec : TaskSpec) : Except Failure Unit :=
  if spec.document_input_refs = [] ∧ spec.document_input_sha256.entries = [] then .ok ()
  else
    let named := spec.document_input_sha256.keys
    match spec.task with
    | none => .error (.task_spec "document input references require exact approved digests")
    | some task =>
      if ¬(spec.document_input_refs ⊆ named ∧ named ⊆ spec.document_input_refs) then
        .error (.task_spec "document input references require exact approved digests")
      else do
        let actual ← inputs.document_sha256 task spec.document_input_refs
        if same_entries actual spec.document_input_sha256 then return ()
        else throw (.task_spec "document input changed after TaskSpec approval; create a new spec")

/-! ### Locking -/

/-- The two files, as bytes. -/
structure Stores where
  specs : FileBytes
  locks : FileBytes
  deriving DecidableEq, Repr

/-- What a lock call comes to: the record it finds, or the one it appends. -/
inductive Approval where
  | reasserted (record : TaskSpecLock)
  | appended (record : TaskSpecLock)
  deriving DecidableEq, Repr

/-- The exact inputs approved, as `_same_approval` compares them. -/
structure ApprovedInputs where
  spec_digest : Digest
  adapter_digest : Digest
  rubric_digest : Digest
  rubric_lock_digest : Digest
  locked_by : String
  deriving DecidableEq, Repr

def same_approval (record : TaskSpecLock) (approved : ApprovedInputs) : Bool :=
  (⟨record.task_spec_sha256, record.adapter_sha256, record.rubric_sha256, record.rubric_lock_sha256, record.locked_by⟩ :
    ApprovedInputs) = approved && record.source = "human"

/-- The record of a new approval, before its digest. -/
def lock_payload (spec_id matter_id task : String) (version : Nat) (material : LockMaterial) (approved : ApprovedInputs)
    (locked_at : String) : TaskSpecLock where
  task_spec_lock_id := s!"taskspeclock-{spec_id}-v{version}"
  lock_version := version
  task_spec_id := spec_id
  matter_id := matter_id
  task := task
  task_spec_sha256 := approved.spec_digest
  adapter_locator := material.adapter_locator
  adapter_sha256 := approved.adapter_digest
  rubric_id := material.rubric_id
  rubric_locator := material.rubric_locator
  rubric_sha256 := approved.rubric_digest
  rubric_lock_locator := material.rubric_lock_locator
  rubric_lock_sha256 := approved.rubric_lock_digest
  rubric_recorded_sha256 := approved.rubric_digest
  locked_by := approved.locked_by
  locked_at := locked_at
  record_sha256 := ""

def new_lock (spec_id matter_id task : String) (version : Nat) (material : LockMaterial) (approved : ApprovedInputs)
    (locked_at : String) : TaskSpecLock :=
  let payload := lock_payload spec_id matter_id task version material approved locked_at
  { payload with record_sha256 := payload.expected_sha256 format }

/-- The arguments of a lock call. -/
structure LockCall where
  matter_id : String
  task_spec_id : TaskSpecId
  locked_by : String
  locked_at : String
  deriving DecidableEq, Repr

/-- The spec a lock call approves, with its task. -/
def lockable_spec (inputs : Inputs) (specs : FileBytes) (call : LockCall) : Except Failure (TaskSpec × String) := do
  let matter_id ← inputs.matter_id
  if matter_id ≠ call.matter_id then
    throw (.task_spec s!"TaskSpec lock matter identity '{call.matter_id}' does not match vault matter '{matter_id}'")
  else
    match ← TaskSpecStore.get format specs call.task_spec_id with
    | none => throw (.task_spec s!"TaskSpec '{call.task_spec_id}' was not found")
    | some spec =>
      if spec.matter_id ≠ call.matter_id then
        throw (.task_spec
          s!"TaskSpec '{call.task_spec_id}' matter identity '{spec.matter_id}' does not match '{call.matter_id}'")
      else
        match spec.task with
        | none => throw (.task_spec s!"TaskSpec '{call.task_spec_id}' is not resolved and cannot be locked")
        | some task => return (spec, task)

/-- `lock_task_spec`, up to its append. -/
def lock_task_spec (inputs : Inputs) (stores : Stores) (call : LockCall) : Except Failure Approval :=
  if isBlank call.locked_by then throw (.task_spec "TaskSpec lock requires an identified human actor")
  else do
    let (spec, task) ← lockable_spec format inputs stores.specs call
    let material ← lock_material format inputs task
    validate_document_refs inputs spec
    let confirmed ← TaskSpecStore.get format stores.specs call.task_spec_id
    if confirmed ≠ some spec then
      throw (.task_spec "TaskSpec lock inputs changed while approval was captured; retry")
    else
      let approved : ApprovedInputs :=
        ⟨task_spec_sha256 format spec, format.sha256 material.adapter_raw, format.sha256 material.rubric_raw,
          format.sha256 material.rubric_lock_raw, call.locked_by⟩
      let latest ← TaskSpecLockStore.latest format stores.locks call.task_spec_id
      match latest.filter (same_approval · approved) with
      | some record => return .reasserted record
      | none =>
        let version := (latest.map (·.lock_version)).getD 0 + 1
        let record := new_lock format call.task_spec_id call.matter_id task version material approved call.locked_at
        return .appended (← (record.model_validate format).mapError .validation)

/-! ### Runs -/

/-- A call of a store. `written` is how many bytes of its line an append left in the file: fewer than all where the
    process died in it. -/
inductive Event where
  | spec (spec : TaskSpec) (written : Nat)
  | refused (inputs : Inputs) (call : LockCall)
  | reasserted (inputs : Inputs) (call : LockCall) (record : TaskSpecLock)
  | lock (inputs : Inputs) (call : LockCall) (record : TaskSpecLock) (written : Nat)

inductive Step : Stores → Event → Stores → Prop
  | spec {s : Stores} {spec : TaskSpec} {written : Nat} :
    Step s (.spec spec written) { s with specs := s.specs ++ (format.spec.line spec).take written }
  | refused {s : Stores} {inputs : Inputs} {call : LockCall} {cause : Failure}
    (raises : lock_task_spec format inputs s call = .error cause) : Step s (.refused inputs call) s
  | reasserted {s : Stores} {inputs : Inputs} {call : LockCall} {record : TaskSpecLock}
    (returns : lock_task_spec format inputs s call = .ok (.reasserted record)) :
    Step s (.reasserted inputs call record) s
  | lock {s : Stores} {inputs : Inputs} {call : LockCall} {record : TaskSpecLock} {written : Nat}
    (appends : lock_task_spec format inputs s call = .ok (.appended record)) :
    Step s (.lock inputs call record written) { s with locks := s.locks ++ (format.lock.line record).take written }

/-- The specs whose whole line was written, in order. -/
def committed_specs (trace : List Event) : List TaskSpec :=
  trace.filterMap fun
    | .spec spec written => if (format.spec.line spec).length ≤ written then some spec else none
    | _ => none

/-- The locks whose whole line was written, in order. -/
def committed_locks (trace : List Event) : List TaskSpecLock :=
  trace.filterMap fun
    | .lock _ _ record written => if (format.lock.line record).length ≤ written then some record else none
    | _ => none

end TaskSpecs

end MootLoop
