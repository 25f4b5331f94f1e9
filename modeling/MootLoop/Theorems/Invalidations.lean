import MootLoop.AttestationLog
import MootLoop.Lib.LoadsGrammar
import MootLoop.Lib.Walk
import MootLoop.Theorems.Appends
import MootLoop.Theorems.Commitment

/-! Invalidations of an attestation: what the check appends to the log, when the evidence it is about can be read at
    all, and that no check is valid after it. -/

namespace MootLoop.Invalidations

variable {μ φ : Type}

/-! ### Evidence that can be read -/

section
variable {format : EvidenceFormat μ φ} {v : RunEvidence} {context : LaunchManifest μ φ}

def started_events (events : List JournalEvent) : List RunStarted :=
  events.filterMap fun
    | .run_started event => some event
    | _ => none

/-- The journal reads, and its one launch commits to the manifest there is, which opens, and to the corpus there is. -/
def Launched (format : EvidenceFormat μ φ) (v : RunEvidence) (context : LaunchManifest μ φ) : Prop :=
  ∃ events event raw corpus, v.events format = .ok events ∧ started_events events = [event] ∧ v.manifest = some raw ∧
    event.context_manifest_sha256 = some (format.sha256 raw) ∧ format.sha256 raw ≠ "" ∧
    format.open_manifest event raw = .ok context ∧ v.corpus = some corpus ∧
    format.sha256 corpus = context.corpus_snapshot_sha256

theorem run_context_iff : v.run_context format = .ok context ↔ Launched format v context := by
  constructor
  · intro h
    obtain ⟨events, read, h⟩ := bind_ok h
    simp only at h
    split at h
    · rename_i event started
      split at h
      · cases h
      · cases h
      · cases h
      · rename_i committed raw not_blank recorded here
        split at h
        · cases h
        · rename_i intact
          rw [not_not] at intact
          subst intact
          obtain ⟨manifest, opened, h⟩ := bind_ok h
          split at h
          · cases h
          · rename_i corpus held
            split at h
            · cases h
            · rename_i whole
              rw [not_not] at whole
              obtain rfl := Except.ok.inj h
              refine ⟨events, event, raw, corpus, read, started, here, recorded, fun blank => ?_, opened, held, whole⟩
              exact not_blank blank
    · cases h
  · rintro ⟨events, event, raw, corpus, read, started, here, recorded, not_blank, opened, held, whole⟩
    rw [RunEvidence.run_context, read]
    simp only [bind, Except.bind]
    split
    · rename_i event' started'
      obtain ⟨rfl, -⟩ := List.cons.inj (started'.symm.trans started)
      split
      · rename_i none_recorded
        rw [recorded] at none_recorded
        cases none_recorded
      · rename_i blank
        rw [recorded] at blank
        exact absurd (Option.some.inj blank) not_blank
      · rename_i none_here
        rw [here] at none_here
        cases none_here
      · rename_i committed raw' _ recorded' here'
        obtain rfl := Option.some.inj (here.symm.trans here')
        obtain rfl := Option.some.inj (recorded.symm.trans recorded')
        rw [if_neg (not_not.mpr rfl)]
        simp only [opened, held, whole, ne_eq, not_true_eq_false, if_false]
        rfl
    · rename_i other
      exact absurd started (other event)

/-- A file that can be part of a digest. -/
def Committable (file : String × EvidenceFile) : Prop :=
  ∃ bytes, file.2 = .file bytes ∧ (utf8 file.1.toList).length < 256 ^ 8 ∧ bytes.length < 256 ^ 8

theorem length_prefixed_ok {bytes : FileBytes} : (∃ framed, length_prefixed bytes = .ok framed) ↔ bytes.length < 256 ^ 8 := by
  unfold length_prefixed Framing.framed
  by_cases short : bytes.length < 256 ^ 8
  · simp only [if_pos short]
    exact ⟨fun _ => short, fun _ => ⟨_, rfl⟩⟩
  · simp only [if_neg short]
    constructor
    · rintro ⟨framed, ⟨⟩⟩
    · exact fun short' => absurd short' short

theorem tree_entry_ok {file : String × EvidenceFile} : (∃ entry, tree_entry file = .ok entry) ↔ Committable file := by
  constructor
  · rintro ⟨entry, h⟩
    obtain ⟨relative, bytes, content, is_file, path, held, -⟩ := tree_entry_eq h
    refine ⟨bytes, is_file, length_prefixed_ok.mp ⟨relative, ?_⟩, length_prefixed_ok.mp ⟨content, ?_⟩⟩
    · rw [length_prefixed, path]
    · rw [length_prefixed, held]
  · rintro ⟨bytes, is_file, path, short⟩
    obtain ⟨relative, path⟩ := length_prefixed_ok.mpr path
    obtain ⟨content, held⟩ := length_prefixed_ok.mpr short
    refine ⟨relative ++ content, ?_⟩
    simp only [tree_entry, path, is_file, held, bind, Except.bind]
    rfl

theorem tree_bytes_ok {files : List (String × EvidenceFile)} :
    (∃ bytes, tree_bytes files = .ok bytes) ↔ ∀ file ∈ files, Committable file := by
  induction files with
  | nil => exact ⟨fun _ file mem => absurd mem List.not_mem_nil, fun _ => ⟨[], rfl⟩⟩
  | cons file files ih =>
    rw [List.forall_mem_cons, ← ih, ← tree_entry_ok]
    constructor
    · rintro ⟨bytes, h⟩
      obtain ⟨entry, head, h⟩ := bind_ok h
      obtain ⟨more, rest, -⟩ := bind_ok h
      exact ⟨⟨entry, head⟩, more, rest⟩
    · rintro ⟨⟨entry, head⟩, more, rest⟩
      refine ⟨entry ++ more, ?_⟩
      simp only [tree_bytes, head, rest, bind, Except.bind]
      rfl

theorem tree_sha256_ok {files : List (String × EvidenceFile)} :
    (∃ digest, tree_sha256 format files = .ok digest) ↔ ∀ file ∈ files, Committable file := by
  have sorted := List.perm_insertionSort (fun a b : String × EvidenceFile => a.1 ≤ b.1) files
  have all : (∀ file ∈ files, Committable file) ↔
      ∀ file ∈ files.insertionSort fun a b => a.1 ≤ b.1, Committable file :=
    ⟨fun all file mem => all file (sorted.mem_iff.mp mem), fun all file mem => all file (sorted.mem_iff.mpr mem)⟩
  rw [all, ← tree_bytes_ok]
  constructor
  · rintro ⟨digest, h⟩
    obtain ⟨bytes, hashed, -⟩ := bind_ok h
    exact ⟨bytes, hashed⟩
  · rintro ⟨bytes, hashed⟩
    refine ⟨format.sha256 bytes, ?_⟩
    rw [tree_sha256, hashed]
    rfl

/-- The master is not there, or is a regular file of UTF-8; a run without a task has none. -/
def MasterReadable (format : EvidenceFormat μ φ) (v : RunEvidence) : Prop :=
  ∃ events, v.events format = .ok events ∧ ((fold events).task = none ∨ v.master = none ∨ v.master = some (.symlink false) ∨
    ∃ bytes text, v.master = some (.file bytes) ∧ String.fromUTF8? ⟨bytes.toArray⟩ = some text)

theorem canonical_master_ok : (∃ master, v.canonical_master format = .ok master) ↔ MasterReadable format v := by
  constructor
  · rintro ⟨master, h⟩
    obtain ⟨events, read, h⟩ := bind_ok h
    refine ⟨events, read, ?_⟩
    split at h
    · rename_i no_task
      exact .inl no_task
    · split at h
      · rename_i absent
        exact .inr (.inl absent)
      · rename_i dangling
        exact .inr (.inr (.inl dangling))
      · cases h
      · rename_i bytes held
        split at h
        · rename_i text decoded
          exact .inr (.inr (.inr ⟨bytes, text, held, decoded⟩))
        · cases h
  · rintro ⟨events, read, readable⟩
    rw [RunEvidence.canonical_master, read]
    simp only [bind, Except.bind]
    split
    · exact ⟨none, rfl⟩
    · rename_i task
      rcases readable with no_task | absent | dangling | ⟨bytes, text, held, decoded⟩
      · exact absurd no_task task
      · rw [absent]
        exact ⟨none, rfl⟩
      · rw [dangling]
        exact ⟨none, rfl⟩
      · rw [held]
        simp only [decoded]
        exact ⟨_, rfl⟩

/-- Everything an invalidation commits to can be read. -/
structure Readable (format : EvidenceFormat μ φ) (v : RunEvidence) (context : LaunchManifest μ φ) : Prop where
  launched : Launched format v context
  master : MasterReadable format v
  journal : ∀ file ∈ v.journal_files, Committable file
  decisions : ∀ file ∈ v.decision_files, Committable file
  audit : Audit.verify_chain format.toAuditFormat v.access_audit = true

/-- What the check reads of the evidence, before it can compare. -/
theorem Readable.reads (readable : Readable format v context) :
    v.run_context format = .ok context ∧ (∃ master, v.current_master_sha256 format context = .ok master) ∧
      (∃ digest, v.current_journal_sha256 format = .ok digest) ∧ ∃ digest, v.current_decisions_sha256 format = .ok digest := by
  obtain ⟨master, written⟩ := canonical_master_ok.mpr readable.master
  have hashed : ∃ digest, v.current_master_sha256 format context = .ok digest := by
    rw [RunEvidence.current_master_sha256, written]
    exact ⟨_, rfl⟩
  exact ⟨run_context_iff.mpr readable.launched, hashed, tree_sha256_ok.mpr readable.journal,
    tree_sha256_ok.mpr readable.decisions⟩

end

/-! ### The check of a record -/

section
variable [DecidableEq μ] {format : EvidenceFormat μ φ} {v : RunEvidence} {latest : Attestation} {check : AttestationCheck}

/-- The record is of this scope and under its own digest: the check goes on to the evidence. -/
def Committed (format : EvidenceFormat μ φ) (record : Attestation) : Prop :=
  record.hash_scope = some MASTER_HASH_SCOPE ∧ record.commitment_sha256 = some (format.sha256_hex (format.record_json record))

theorem ok_ite_invalidated {p : Prop} [Decidable p] {reason : Option String} {rest : Except Error AttestationCheck}
    (h : (if p then pure (invalidated reason) else rest) = .ok check) :
    (∃ reason, check = invalidated reason) ∨ ¬ p ∧ rest = .ok check := by
  split at h
  · exact .inl ⟨reason, (Except.ok.inj h).symm⟩
  · exact .inr ⟨‹_›, h⟩

/-- The check of a record that does not raise is valid, or an invalidation. -/
theorem attestation_state_cases (h : v.attestation_state format none (some latest) = .ok check) :
    (∃ reason, check = invalidated reason) ∨ check = { status := .valid } := by
  unfold RunEvidence.attestation_state at h
  rcases ok_ite_invalidated h with found | ⟨-, h⟩
  · exact .inl found
  rcases ok_ite_invalidated h with found | ⟨-, h⟩
  · exact .inl found
  rcases ok_ite_invalidated h with found | ⟨-, h⟩
  · exact .inl found
  obtain ⟨context, -, h⟩ := bind_ok h
  obtain ⟨matter, -, h⟩ := bind_ok h
  rcases ok_ite_invalidated h with found | ⟨-, h⟩
  · exact .inl found
  obtain ⟨master, -, h⟩ := bind_ok h
  rcases ok_ite_invalidated h with found | ⟨-, h⟩
  · exact .inl found
  rcases ok_ite_invalidated h with found | ⟨-, h⟩
  · exact .inl found
  obtain ⟨journal, -, h⟩ := bind_ok h
  rcases ok_ite_invalidated h with found | ⟨-, h⟩
  · exact .inl found
  obtain ⟨decisions, -, h⟩ := bind_ok h
  rcases ok_ite_invalidated h with found | ⟨-, h⟩
  · exact .inl found
  rcases ok_ite_invalidated h with found | ⟨-, h⟩
  · exact .inl found
  rcases ok_ite_invalidated h with found | ⟨-, h⟩
  · exact .inl found
  · exact .inr (Except.ok.inj h).symm

/-- A check of a valid record that reaches the evidence has loaded the matter. -/
theorem attestation_state_matter (h : v.attestation_state format none (some latest) = .ok check) (flagged : latest.valid = true)
    (committed : Committed format latest) : ∃ matter, format.load_matter v.matter = .ok matter := by
  rw [RunEvidence.attestation_state, if_neg (by rw [flagged]; decide), if_neg (not_not.mpr committed.1), if_neg (not_not.mpr committed.2)] at h
  obtain ⟨context, -, h⟩ := bind_ok h
  obtain ⟨matter, loaded, -⟩ := bind_ok h
  exact ⟨matter, loaded⟩

theorem exists_ok_ite {p : Prop} [Decidable p] {rest : Except Error AttestationCheck} {reason : Option String}
    (ok : ∃ check, rest = .ok check) : ∃ check, (if p then pure (invalidated reason) else rest) = .ok check := by
  split
  · exact ⟨_, rfl⟩
  · exact ok

/-- Evidence that can be read can be checked. -/
theorem attestation_state_ok {context : LaunchManifest μ φ} (readable : Readable format v context)
    (matter : Committed format latest → ∃ matter, format.load_matter v.matter = .ok matter) :
    ∃ check, v.attestation_state format none (some latest) = .ok check := by
  obtain ⟨launched, ⟨master, hashed⟩, ⟨journal, journaled⟩, decisions, decided⟩ := readable.reads
  rw [RunEvidence.attestation_state]
  refine exists_ok_ite ?_
  by_cases scope : latest.hash_scope = some MASTER_HASH_SCOPE
  · rw [if_neg (not_not.mpr scope)]
    by_cases digest : latest.commitment_sha256 = some (format.sha256_hex (format.record_json latest))
    · rw [if_neg (not_not.mpr digest)]
      obtain ⟨config, loaded⟩ := matter ⟨scope, digest⟩
      simp only [launched, loaded, hashed, journaled, decided, bind, Except.bind]
      refine exists_ok_ite (exists_ok_ite (exists_ok_ite (exists_ok_ite (exists_ok_ite (exists_ok_ite (exists_ok_ite ?_))))))
      exact ⟨_, rfl⟩
    · rw [if_pos digest]
      exact ⟨_, rfl⟩
  · rw [if_pos scope]
    exact ⟨_, rfl⟩

end

/-! ### Recording an invalidation -/

section
variable [DecidableEq μ] {format : AttestationFormat μ φ} {v : RunEvidence} {run_id : RunId} {seq : Nat} {now : String}
  {reason : Option String}

omit [DecidableEq μ] in
theorem access_audit_head_ok : (∃ head, v.current_access_audit_head_sha256 format = .ok head) ↔
    Audit.verify_chain format.toAuditFormat v.access_audit = true := by
  rw [RunEvidence.current_access_audit_head_sha256, Audit.head_sha256, Audit.verify_chain]
  cases checked : Audit.validated_chain format.toAuditFormat v.access_audit none with
  | error e =>
    constructor
    · rintro ⟨head, ⟨⟩⟩
    · rintro ⟨⟩
  | ok found => exact ⟨fun _ => rfl, fun _ => ⟨_, rfl⟩⟩

omit [DecidableEq μ] in
/-- An invalidation is made exactly of evidence that can be read. -/
theorem invalidation_ok : (∃ record, v.invalidation format run_id seq now reason = .ok record) ↔
    ∃ context, Readable format.toEvidenceFormat v context := by
  constructor
  · rintro ⟨record, h⟩
    obtain ⟨context, launched, h⟩ := bind_ok h
    obtain ⟨master, hashed, h⟩ := bind_ok h
    obtain ⟨journal, journaled, h⟩ := bind_ok h
    obtain ⟨decisions, decided, h⟩ := bind_ok h
    obtain ⟨head, intact, -⟩ := bind_ok h
    obtain ⟨canonical, written, -⟩ := bind_ok hashed
    exact ⟨context, run_context_iff.mp launched, canonical_master_ok.mp ⟨canonical, written⟩,
      tree_sha256_ok.mp ⟨journal, journaled⟩, tree_sha256_ok.mp ⟨decisions, decided⟩, access_audit_head_ok.mp ⟨head, intact⟩⟩
  · rintro ⟨context, readable⟩
    obtain ⟨launched, ⟨master, hashed⟩, ⟨journal, journaled⟩, decisions, decided⟩ := readable.reads
    obtain ⟨head, intact⟩ := access_audit_head_ok.mpr readable.audit
    simp only [RunEvidence.invalidation, launched, hashed, journaled, decided, intact, bind, Except.bind]
    exact ⟨_, rfl⟩

omit [DecidableEq μ] in
theorem invalidation_invalid {record : Attestation} (h : v.invalidation format run_id seq now reason = .ok record) :
    record.valid = false ∧ record.reason = reason := by
  obtain ⟨context, -, h⟩ := bind_ok h
  obtain ⟨master, -, h⟩ := bind_ok h
  obtain ⟨journal, -, h⟩ := bind_ok h
  obtain ⟨decisions, -, h⟩ := bind_ok h
  obtain ⟨head, -, h⟩ := bind_ok h
  rw [← Except.ok.inj h]
  exact ⟨rfl, rfl⟩

end

/-! ### Lines of the log -/

/-- The line feed is a byte of its own only. -/
theorem newline_not_mem_utf8 {text : List Char} (none_in : '\n' ∉ text) : NEWLINE ∉ utf8 text := by
  rw [utf8_eq_flatMap]
  intro mem
  obtain ⟨c, held, here⟩ := List.mem_flatMap.mp mem
  have byte : ∀ n, NEWLINE = UInt8.ofNat n → n % 256 = 10 := by
    intro n same
    have values := congrArg UInt8.toNat same
    rw [UInt8.toNat_ofNat'] at values
    exact values.symm
  have value : c.val.toNat = c.toNat := rfl
  have newline : c.toNat = 10 := by
    rw [String.utf8EncodeChar, value] at here
    -- above ASCII, no byte of a character is below 128
    split_ifs at here with ascii two three
    all_goals simp only [List.mem_cons, List.not_mem_nil, or_false] at here
    · have same := byte _ here
      omega
    · rcases here with h | h <;> have same := byte _ h <;> omega
    · rcases here with h | h | h <;> have same := byte _ h <;> omega
    · rcases here with h | h | h | h <;> have same := byte _ h <;> omega
  exact none_in ((Char.toNat_inj (d := '\n')).mp newline ▸ held)

theorem utf8_line (text : List Char) : utf8 text ++ [NEWLINE] = utf8 (text ++ ['\n']) := by
  rw [utf8_append]
  rfl

theorem mem_json {value : FieldValue} {c : Char} (mem : c ∈ value.json) : 32 ≤ c.toNat := by
  cases value with
  | null =>
    revert c
    decide
  | bool b =>
    revert c
    cases b <;> decide
  | text s => exact (Json.mem_quote mem).1

theorem mem_members {first : Bool} {fields : List (String × FieldValue)} {c : Char}
    (mem : c ∈ FieldValue.members first fields) : 32 ≤ c.toNat := by
  induction fields generalizing first with
  | nil =>
    rw [List.mem_singleton.mp mem]
    decide
  | cons field fields ih =>
    obtain ⟨name, value⟩ := field
    simp only [FieldValue.members, List.mem_append, List.mem_cons] at mem
    rcases mem with comma | mem | rfl | mem | mem
    · cases first
      · rw [List.mem_singleton.mp comma]
        decide
      · cases comma
    · exact (Json.mem_quote mem).1
    · decide
    · exact mem_json mem
    · exact ih mem

theorem mem_model_dump_json {record : Attestation} {c : Char} (mem : c ∈ record.model_dump_json) : 32 ≤ c.toNat := by
  rcases List.mem_cons.mp mem with rfl | mem
  · decide
  · exact mem_members mem

section
variable [DecidableEq μ] {format : AttestationFormat μ φ}

/-- `model_validate_json` reads what `model_dump_json` writes, with the line feed after it. -/
def ReadsBack (format : AttestationFormat μ φ) : Prop :=
  ∀ record, format.attestation_record (record.model_dump_json ++ ['\n']) = .ok record

omit [DecidableEq μ] in
theorem line_attestation_dump (reads_back : ReadsBack format) (record : Attestation) :
    line_attestation format (utf8 record.model_dump_json) = .ok (some record) := by
  have visible : ¬ (String.ofList (record.model_dump_json ++ ['\n'])).toList.all isSpace = true := by
    rw [String.toList_ofList]
    exact Bool.false_ne_true
  rw [line_attestation, utf8_line, fromUTF8_utf8]
  dsimp only
  rw [if_neg visible, String.toList_ofList, reads_back record]
  rfl

omit [DecidableEq μ] in
/-- An append adds its record to those of the log. -/
theorem logged_append (reads_back : ReadsBack format) {log : FileBytes} {records : List Attestation}
    (read : logged_attestations format log = .ok records) (record : Attestation) :
    logged_attestations format (append_fsync_line log (utf8 record.model_dump_json)) = .ok (records ++ [record]) := by
  have single_line : NEWLINE ∉ utf8 record.model_dump_json :=
    newline_not_mem_utf8 fun mem => absurd (mem_model_dump_json mem) (by decide)
  obtain ⟨found, walked, h⟩ := bind_ok read
  have last := Walk.mapM_cons_ok.mpr ⟨some record, [], line_attestation_dump reads_back record, Walk.mapM_ok_iff.mpr .nil, rfl⟩
  have all := Walk.mapM_append_ok.mpr ⟨found, [some record], walked, last, rfl⟩
  rw [logged_attestations, complete_append_fsync_line single_line, all, ← Except.ok.inj h]
  simp [bind, Except.bind, pure, Except.pure]

omit [DecidableEq μ] in
theorem latest_of_logged {log : FileBytes} {records : List Attestation} (read : logged_attestations format log = .ok records) :
    latest_attestation_and_count format log = .ok (records.getLast?, records.length) := by
  rw [latest_attestation_and_count, read]
  rfl

/-! ### After an invalidation -/

/-- When the latest record is an invalidation, no call reads the evidence: each answers with the reason it gives and
    leaves the log as it is. -/
theorem answer_invalidated {log : FileBytes} {records : List Attestation} {latest : Attestation}
    (read : logged_attestations format log = .ok records) (last : records.getLast? = some latest)
    (invalid : latest.valid = false) (run_id : RunId) (v : RunEvidence) (call : AttestationCall) :
    check_answer format run_id log v call = (.ok (invalidated latest.reason), log) := by
  have state : v.attestation_state format.toEvidenceFormat none (some latest) = .ok (invalidated latest.reason) := by
    rw [RunEvidence.attestation_state, if_pos invalid]
  cases call with
  | attestation_state =>
    rw [check_answer, RunEvidence.logged_attestation_state, latest_of_logged read, last]
    exact congrArg (·, log) state
  | check_attestation now =>
    have checked : v.check_attestation format run_id log now = .ok (invalidated latest.reason, log) := by
      rw [RunEvidence.check_attestation, latest_of_logged read, last]
      simp only [bind, Except.bind, state]
      rw [if_neg fun both => by simp [invalid] at both]
      rfl
    rw [check_answer, checked]

theorem answers_invalidated {log : FileBytes} {records : List Attestation} {latest : Attestation}
    (read : logged_attestations format log = .ok records) (last : records.getLast? = some latest)
    (invalid : latest.valid = false) (run_id : RunId) (calls : List (RunEvidence × AttestationCall)) :
    check_answers format run_id log calls = (calls.map fun _ => .ok (invalidated latest.reason), log) := by
  induction calls with
  | nil => rfl
  | cons call calls ih =>
    obtain ⟨v, call⟩ := call
    rw [check_answers, answer_invalidated read last invalid]
    dsimp only
    rw [ih]
    rfl

/-- The check answers that the attestation is invalidated and appends one record of it; from then on every call answers
    so, whatever the evidence is by then, and the log stays as it is. -/
def Recorded (format : AttestationFormat μ φ) (v : RunEvidence) (run_id : RunId) (log : FileBytes)
    (records : List Attestation) (now : String) : Prop :=
  ∃ record log', v.check_attestation format run_id log now = .ok (invalidated record.reason, log') ∧ record.valid = false ∧
    logged_attestations format log' = .ok (records ++ [record]) ∧
    ∀ calls, check_answers format run_id log' calls = (calls.map fun _ => .ok (invalidated record.reason), log')

/-- Where the check records an invalidation of a valid attestation, it has read what the record commits to. -/
theorem Recorded.readable {v : RunEvidence} {log : FileBytes} {records : List Attestation} {latest : Attestation}
    (read : logged_attestations format log = .ok records) (last : records.getLast? = some latest)
    (flagged : latest.valid = true) (changed : ∀ context, ¬ Matches format.toEvidenceFormat v latest context)
    {run_id : RunId} {now : String} (recorded : Recorded format v run_id log records now) :
    (∃ context, Readable format.toEvidenceFormat v context) ∧
      (Committed format.toEvidenceFormat latest → ∃ matter, format.load_matter v.matter = .ok matter) := by
  obtain ⟨record, log', checked, -, -, -⟩ := recorded
  rw [RunEvidence.check_attestation, latest_of_logged read, last] at checked
  obtain ⟨-, ⟨⟩, checked⟩ := bind_ok checked
  obtain ⟨check, state, rest⟩ := bind_ok checked
  rcases attestation_state_cases state with ⟨reason, rfl⟩ | rfl
  · rw [if_pos ⟨rfl, flagged⟩] at rest
    obtain ⟨record, made, -⟩ := bind_ok rest
    exact ⟨invalidation_ok.mp ⟨record, made⟩, attestation_state_matter state flagged⟩
  · obtain ⟨context, found⟩ := attestation_state_valid state rfl
    exact absurd found (changed context)

/-- When the evidence of a valid attestation has changed, the check records it, and the invalidation stays, if and only
    if everything the new record commits to can be read: the journal and its launch, the manifest and the corpus as
    launched, the master, no symbolic link in the trees, an intact access audit; and the matter, if the check gets to it. -/
theorem invalidation_recorded_iff (reads_back : ReadsBack format) {v : RunEvidence} {log : FileBytes}
    {records : List Attestation} {latest : Attestation} (read : logged_attestations format log = .ok records)
    (last : records.getLast? = some latest) (flagged : latest.valid = true)
    (changed : ∀ context, ¬ Matches format.toEvidenceFormat v latest context) (run_id : RunId) (now : String) :
    Recorded format v run_id log records now ↔
      (∃ context, Readable format.toEvidenceFormat v context) ∧
        (Committed format.toEvidenceFormat latest → ∃ matter, format.load_matter v.matter = .ok matter) := by
  have recording : ∀ reason, (invalidated reason).status = .invalidated ∧ (some latest).any (·.valid) = true :=
    fun _ => ⟨rfl, flagged⟩
  constructor
  · exact Recorded.readable read last flagged changed
  · rintro ⟨⟨context, readable⟩, matter⟩
    obtain ⟨check, state⟩ := attestation_state_ok readable matter
    rcases attestation_state_cases state with ⟨reason, rfl⟩ | rfl
    · have makes : ∃ record, v.invalidation format run_id records.length now reason = .ok record :=
        invalidation_ok.mpr ⟨context, readable⟩
      obtain ⟨record, made⟩ := makes
      obtain ⟨invalid, because⟩ := invalidation_invalid made
      have logged := logged_append reads_back read record
      refine ⟨record, append_fsync_line log (utf8 record.model_dump_json), ?_, invalid, logged,
        answers_invalidated logged List.getLast?_concat invalid run_id⟩
      rw [RunEvidence.check_attestation, latest_of_logged read, last, because]
      simp only [bind, Except.bind, state]
      rw [if_pos (recording reason)]
      rw [show (invalidated reason).reason = reason from rfl, made]
      rfl
    · obtain ⟨context, found⟩ := attestation_state_valid state rfl
      exact absurd found (changed context)

end

namespace Sample
open Json (Doc)
open MootLoop.Sample (attestation evidence_format audit_format reviewed audit_format_injective)

/-! ### Records read with `json.loads` -/

def code_points (text : String) : List Nat := text.toList.map Char.toNat

def field_doc : FieldValue → Doc Unit
  | .null => .null
  | .bool b => .bool b
  | .text s => .string (code_points s)

theorem field_doc_bool (b : Bool) : field_doc (.bool b) = .bool b := rfl
theorem field_doc_text (s : String) : field_doc (.text s) = .string (code_points s) := rfl

def field_docs (fields : List (String × FieldValue)) : List (List Nat × Doc Unit) :=
  fields.map fun field => (code_points field.1, field_doc field.2)

theorem written_fields {first : Bool} (fields : List (String × FieldValue)) :
    Json.WrittenMembers (fun _ => ()) first (field_docs fields) (FieldValue.members first fields) := by
  have blank : Json.Blank [] := fun _ mem => absurd mem List.not_mem_nil
  induction fields generalizing first with
  | nil =>
    rw [field_docs, List.map_nil, Json.WrittenMembers]
    exact ⟨[], blank, rfl⟩
  | cons field fields ih =>
    obtain ⟨name, value⟩ := field
    have value_written : Json.Written (fun _ => ()) (field_doc value) value.json := by
      cases value with
      | null => rw [field_doc, Json.Written]; rfl
      | bool b => rw [field_doc, Json.Written]; rfl
      | text s => rw [field_doc, Json.Written]; exact Json.quoted_quote _
    rw [field_docs, List.map_cons, Json.WrittenMembers]
    refine ⟨[], [], _, [], [], _, _, blank, blank, blank, blank, Json.quoted_quote _, value_written, ih, ?_⟩
    cases first <;> rfl

theorem fields_ints (fields : List (String × FieldValue)) : Doc.member_ints (field_docs fields) = [] := by
  induction fields with
  | nil => rfl
  | cons field fields ih =>
    obtain ⟨name, value⟩ := field
    rw [field_docs, List.map_cons, Doc.member_ints, ← field_docs, ih]
    cases value <;> rfl

def string_of (s : List Nat) : String := String.ofList (s.map Char.ofNat)

theorem string_of_code_points (text : String) : string_of (code_points text) = text := by
  have back : (text.toList.map Char.toNat).map Char.ofNat = text.toList := by
    rw [List.map_map]
    exact (List.map_congr_left fun c _ => Char.ofNat_toNat c).trans (List.map_id _)
  rw [string_of, code_points, back, String.ofList_toList]

def nullable_of : Doc Unit → Option (Option String)
  | .null => some none
  | .string s => some (some (string_of s))
  | _ => none

theorem nullable_of_field (value : Option String) : nullable_of (field_doc (.nullable value)) = some value := by
  cases value with
  | none => rfl
  | some s => exact congrArg (fun s => some (some s)) (string_of_code_points s)

def record_of : List (Doc Unit) → Option Attestation
  | [.string _, scope, .string id, .string run, .string master, .string ledger, journal, decisions, facts, head, commitment,
      .string reviewer, .string attested_at, .bool valid, reason] => do
    some {
      hash_scope := ← nullable_of scope, attestation_id := string_of id, run_id := string_of run
      master_sha256 := string_of master, ledger_head_sha256 := string_of ledger, journal_sha256 := ← nullable_of journal
      decisions_sha256 := ← nullable_of decisions, fact_state_sha256 := ← nullable_of facts
      access_audit_head_sha256 := ← nullable_of head, commitment_sha256 := ← nullable_of commitment
      reviewer := string_of reviewer, attested_at := string_of attested_at, valid, reason := ← nullable_of reason }
  | _ => none

def field_names : List (List Nat) := (field_docs attestation.fields).map Prod.fst

def attestation_format : AttestationFormat String String where
  toEvidenceFormat := evidence_format
  attestation_record line :=
    match Json.loads (fun _ => ()) line with
    | .ok (.object members) =>
      if members.map Prod.fst = field_names then
        match record_of (members.map Prod.snd) with
        | some record => .ok record
        | none => .error (.validation "Input should be a valid value")
      else .error (.validation "Field required")
    | _ => .error (.validation "Invalid JSON")

theorem field_names_of (record : Attestation) : (field_docs record.fields).map Prod.fst = field_names := rfl

theorem record_of_fields (record : Attestation) : record_of ((field_docs record.fields).map Prod.snd) = some record := by
  have values : (field_docs record.fields).map Prod.snd = record.fields.map fun field => field_doc field.2 := by
    rw [field_docs, List.map_map]
    rfl
  rw [values]
  simp only [Attestation.fields, List.map_cons, List.map_nil]
  simp only [record_of, field_doc_bool, field_doc_text, nullable_of_field, string_of_code_points, Option.bind_eq_bind,
    Option.bind_some]

theorem reads_back : ReadsBack attestation_format := by
  intro record
  have written : Json.Written (fun _ => ()) (.object (field_docs record.fields)) record.model_dump_json := by
    rw [Json.Written]
    refine ⟨?_, _, written_fields _, rfl⟩
    rw [field_names_of]
    decide +kernel
  have loaded := @Json.loads_written _ _ _ _ ['\n'] written (Json.ends_cons (by decide))
  rw [Doc.ints, fields_ints, if_pos fun n mem => absurd mem List.not_mem_nil, if_pos (by rfl)] at loaded
  simp only [attestation_format, loaded, field_names_of, if_true, record_of_fields]

/-! ### A log and two changes of its evidence -/

def log : FileBytes := append_fsync_line [] (utf8 attestation.model_dump_json)

theorem logged : logged_attestations attestation_format log = .ok [attestation] :=
  have none_yet : logged_attestations attestation_format [] = .ok [] := rfl
  logged_append reads_back none_yet attestation

def cited : RunEvidence := { reviewed with ledger := some [49] }

def torn_audit : RunEvidence := { reviewed with access_audit := ['x', '\n'] }

theorem cited_changed : ∀ context, ¬ Matches evidence_format cited attestation context := by
  intro context found
  have ledger := audit_format_injective found.ledger
  cases ledger

theorem cited_recorded :
    Recorded attestation_format cited "r1" log [attestation] "2026-07-13" ↔
      (∃ context, Readable evidence_format cited context) ∧
        (Committed evidence_format attestation → ∃ matter, evidence_format.load_matter cited.matter = .ok matter) :=
  invalidation_recorded_iff reads_back logged rfl rfl cited_changed "r1" "2026-07-13"

/-- A line of the access audit that is no entry: the attestation no longer matches, and no invalidation is recorded. -/
theorem torn_audit_unrecorded :
    logged_attestations attestation_format log = .ok [attestation] ∧ attestation.valid = true ∧
      (∀ context, ¬ Matches evidence_format torn_audit attestation context) ∧
      ¬ Recorded attestation_format torn_audit "r1" log [attestation] "2026-07-13" := by
  have corrupt : Audit.validated_chain audit_format torn_audit.access_audit (some GENESIS_PREV_HASH) = .error (.validation "entry") := by
    rfl
  have changed : ∀ context, ¬ Matches evidence_format torn_audit attestation context := by
    intro context found
    obtain ⟨head, attested, contained⟩ := found.audit
    cases attested
    have absent : Audit.contains_intact_head audit_format torn_audit.access_audit GENESIS_PREV_HASH = false := by
      rw [Audit.contains_intact_head, corrupt]
    exact absurd (contained.symm.trans absent) (by decide)
  refine ⟨logged, rfl, changed, fun recorded => ?_⟩
  obtain ⟨⟨context, readable⟩, -⟩ := Recorded.readable logged rfl rfl changed recorded
  have broken : Audit.verify_chain audit_format torn_audit.access_audit = false := by rfl
  exact absurd (readable.audit.symm.trans broken) (by decide)

end Sample

end MootLoop.Invalidations
