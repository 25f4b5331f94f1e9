import MootLoop.Lib.Json
import MootLoop.Persistence
import MootLoop.Splitlines

/-! The access audit as its file: hash-chained entries, one JSON object a line. The writer finds the last entry in the
    lines of `str.splitlines`, the verifier reads the lines that `\n` ends. -/

namespace MootLoop

/-- What the access audit takes from outside the repository. -/
structure AuditFormat where
  sha256 : FileBytes → Digest
  /-- `AccessAuditEntry.model_validate_json`. -/
  validate_json : List Char → Except Error AccessAuditEntry

/-- `str.encode`. -/
def utf8 (text : List Char) : FileBytes := (String.ofList text).toUTF8.data.toList

theorem fromUTF8_utf8 (text : List Char) : String.fromUTF8? ⟨(utf8 text).toArray⟩ = some (String.ofList text) := by
  have bytes : (⟨(utf8 text).toArray⟩ : ByteArray) = (String.ofList text).toByteArray := rfl
  rw [bytes, String.fromUTF8?, dif_pos (String.ofList text).isValidUTF8]
  rfl

theorem utf8_append (a b : List Char) : utf8 (a ++ b) = utf8 a ++ utf8 b := by
  simp [utf8, String.ofList_append, String.toByteArray_append]

theorem utf8_eq_flatMap (text : List Char) : utf8 text = text.flatMap String.utf8EncodeChar := by
  simp [utf8, List.utf8Encode]

/-! ### Entries -/

namespace AccessAuditEntry

/-- `model_dump_json`: the fields in the order of the model. -/
def model_dump_json (entry : AccessAuditEntry) : List Char :=
  Json.object [("schema_version".toList, entry.schema_version.toList), ("ts".toList, entry.ts.toList),
    ("actor".toList, entry.actor.toList), ("action".toList, entry.action.toList),
    ("matter_id".toList, entry.matter_id.toList), ("resource".toList, entry.resource.toList),
    ("prev_hash".toList, entry.prev_hash.toList), ("entry_hash".toList, entry.entry_hash.toList)]

/-- The canonical JSON of an entry without its hash: the keys sorted. -/
def canonical (entry : AccessAuditEntry) : List Char :=
  Json.object [("action".toList, entry.action.toList), ("actor".toList, entry.actor.toList),
    ("matter_id".toList, entry.matter_id.toList), ("prev_hash".toList, entry.prev_hash.toList),
    ("resource".toList, entry.resource.toList), ("schema_version".toList, entry.schema_version.toList),
    ("ts".toList, entry.ts.toList)]

def expected_hash (format : AuditFormat) (entry : AccessAuditEntry) : Digest := format.sha256 (utf8 entry.canonical)

end AccessAuditEntry

namespace Audit

/-- What a caller gives an append, with the time stamp it gets. -/
structure Access where
  ts : String
  actor : String
  action : String
  matter_id : String
  resource : String
  deriving DecidableEq, Repr

variable (format : AuditFormat)

/-- `AccessAuditEntry.create`. -/
def create (access : Access) (prev_hash : Digest) : AccessAuditEntry :=
  let entry : AccessAuditEntry :=
    { ts := access.ts, actor := access.actor, action := access.action, matter_id := access.matter_id,
      resource := access.resource, prev_hash, entry_hash := "" }
  { entry with entry_hash := entry.expected_hash format }

/-! ### Appending -/

/-- `_last_entry_hash`. -/
def last_entry_hash (existing_text : List Char) : Except Error Digest :=
  match (splitlines existing_text).reverse.find? fun line => !line.all isSpace with
  | none => .ok GENESIS_PREV_HASH
  | some line => do return (← format.validate_json line).entry_hash

/-- `append`: the entry, and the log with it. A log that is not there is empty. -/
def append (log : List Char) (access : Access) : Except Error (AccessAuditEntry × List Char) := do
  let repaired := Lines.committed '\n' log
  let prev_hash ← last_entry_hash format (normalize_newlines repaired)
  let entry := create format access prev_hash
  return (entry, repaired ++ (entry.model_dump_json ++ ['\n']))

/-- A sequence of appends that all succeed. -/
def appends (log : List Char) : List Access → Except Error (List AccessAuditEntry × List Char)
  | [] => .ok ([], log)
  | access :: rest => do
    let (entry, log) ← append format log access
    let (entries, log) ← appends log rest
    return (entry :: entries, log)

/-! ### Verifying -/

/-- `complete_jsonl_lines`. -/
def complete_jsonl_lines (log : List Char) : List (List Char) :=
  ((Lines.complete '\n' log).map (· ++ ['\n'])).filter fun line => !line.all isSpace

/-- The entries of a log. -/
def entries (log : List Char) : Except Error (List AccessAuditEntry) := (complete_jsonl_lines log).mapM format.validate_json

/-- The loop of `_validated_chain`. -/
def validated_chain_from (expected_head : Option Digest) (prev : Digest) (found : Bool) :
    List (List Char) → Except Error (Digest × Bool)
  | [] => .ok (prev, found)
  | line :: rest => do
    let entry ← format.validate_json line
    if entry.prev_hash ≠ prev ∨ entry.entry_hash ≠ entry.expected_hash format then
      throw (.value "access-audit chain is corrupt")
    else
      validated_chain_from expected_head entry.entry_hash (found || some entry.entry_hash = expected_head) rest

/-- `_validated_chain`. -/
def validated_chain (log : List Char) (expected_head : Option Digest) : Except Error (Digest × Bool) :=
  validated_chain_from format expected_head GENESIS_PREV_HASH (expected_head = some GENESIS_PREV_HASH)
    (complete_jsonl_lines log)

def verify_chain (log : List Char) : Bool := (validated_chain format log none).isOk

def head_sha256 (log : List Char) : Except Error Digest :=
  match validated_chain format log none with
  | .ok (head, _) => .ok head
  | .error _ => .error (.value "access-audit chain is corrupt")

def contains_intact_head (log : List Char) (expected_head : Digest) : Bool :=
  match validated_chain format log (some expected_head) with
  | .ok (_, found) => found
  | .error _ => false

end Audit

end MootLoop
