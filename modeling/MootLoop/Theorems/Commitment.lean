import MootLoop.EvidenceFiles
import MootLoop.Theorems.AuditChain

/-! An attestation commits to the evidence: two states that one record is valid for have the same evidence, file by
    file, and audit logs that extend the attested one. -/

namespace MootLoop

/-! ### Trees -/

theorem length_prefixed_eq {bytes framed : FileBytes} (h : length_prefixed bytes = .ok framed) :
    Framing.framed 8 bytes = some framed := by
  unfold length_prefixed at h
  split at h
  · rename_i found
    rw [found, Except.ok.inj h]
  · cases h

/-- What a file adds: its path, then its bytes; there is no symbolic link. -/
theorem tree_entry_eq {file : String × EvidenceFile} {entry : FileBytes} (h : tree_entry file = .ok entry) :
    ∃ relative bytes content, file.2 = .file bytes ∧ Framing.framed 8 (utf8 file.1.toList) = some relative ∧
      Framing.framed 8 bytes = some content ∧ entry = relative ++ content := by
  obtain ⟨relative, path, h⟩ := bind_ok h
  split at h
  · cases h
  · rename_i bytes is_file
    obtain ⟨content, held, h⟩ := bind_ok h
    exact ⟨relative, bytes, content, is_file, length_prefixed_eq path, length_prefixed_eq held, (Except.ok.inj h).symm⟩

/-- An entry can be split off the front of the bytes of a tree. -/
theorem tree_entry_append_inj {file file' : String × EvidenceFile} {entry entry' rest rest' : FileBytes}
    (h : tree_entry file = .ok entry) (h' : tree_entry file' = .ok entry') (same : entry ++ rest = entry' ++ rest') :
    file = file' ∧ rest = rest' := by
  obtain ⟨relative, bytes, content, is_file, path, held, rfl⟩ := tree_entry_eq h
  obtain ⟨relative', bytes', content', is_file', path', held', rfl⟩ := tree_entry_eq h'
  rw [List.append_assoc, List.append_assoc] at same
  obtain ⟨paths, same⟩ := Framing.framed_append_inj path path' same
  obtain ⟨contents, same⟩ := Framing.framed_append_inj held held' same
  refine ⟨Prod.ext (String.toList_inj.mp (Audit.utf8_injective paths)) ?_, same⟩
  rw [is_file, is_file', contents]

theorem tree_entry_ne_nil {file : String × EvidenceFile} {entry : FileBytes} (h : tree_entry file = .ok entry) :
    entry ≠ [] := by
  obtain ⟨relative, -, -, -, path, -, rfl⟩ := tree_entry_eq h
  exact fun empty => Framing.framed_ne_nil (by decide) path (List.append_eq_nil_iff.mp empty).1

/-- The bytes a tree is hashed from determine its files. -/
theorem tree_bytes_inj {files files' : List (String × EvidenceFile)} {bytes : FileBytes} (h : tree_bytes files = .ok bytes)
    (h' : tree_bytes files' = .ok bytes) : files = files' := by
  induction files generalizing files' bytes with
  | nil =>
    obtain rfl := Except.ok.inj h
    cases files' with
    | nil => rfl
    | cons file' files' =>
      obtain ⟨entry', head', h'⟩ := bind_ok h'
      obtain ⟨more', -, h'⟩ := bind_ok h'
      exact absurd (List.append_eq_nil_iff.mp (Except.ok.inj h')).1 (tree_entry_ne_nil head')
  | cons file files ih =>
    obtain ⟨entry, head, h⟩ := bind_ok h
    obtain ⟨more, rest, h⟩ := bind_ok h
    obtain rfl := Except.ok.inj h
    cases files' with
    | nil =>
      exact absurd (List.append_eq_nil_iff.mp (Except.ok.inj h').symm).1 (tree_entry_ne_nil head)
    | cons file' files' =>
      obtain ⟨entry', head', h'⟩ := bind_ok h'
      obtain ⟨more', rest', h'⟩ := bind_ok h'
      obtain ⟨rfl, rfl⟩ := tree_entry_append_inj head head' (Except.ok.inj h').symm
      rw [ih rest rest']

section
variable {μ φ : Type} [DecidableEq μ] {format : EvidenceFormat μ φ}

/-- Trees with one digest have the same files. -/
theorem tree_sha256_perm (collision_free : Function.Injective format.sha256) {files files' : List (String × EvidenceFile)}
    {digest : Digest} (h : tree_sha256 format files = .ok digest) (h' : tree_sha256 format files' = .ok digest) :
    files.Perm files' := by
  obtain ⟨bytes, hashed, h⟩ := bind_ok h
  obtain ⟨bytes', hashed', h'⟩ := bind_ok h'
  obtain rfl := collision_free ((Except.ok.inj h).trans (Except.ok.inj h').symm)
  have sorted := tree_bytes_inj hashed hashed'
  calc files.Perm (files.insertionSort fun a b => a.1 ≤ b.1) := (List.perm_insertionSort _ files).symm
    _ = files'.insertionSort fun a b => a.1 ≤ b.1 := sorted
    List.Perm _ files' := List.perm_insertionSort _ files'

/-! ### What a valid check found -/

/-- The facts that the check of a record compares, all of them as recorded. -/
structure Matches (format : EvidenceFormat μ φ) (v : RunEvidence) (record : Attestation)
    (context : LaunchManifest μ φ) : Prop where
  launched : v.run_context format = .ok context
  matter : format.load_matter v.matter = .ok context.matter_config
  master : v.current_master_sha256 format context = .ok (some record.master_sha256)
  ledger : v.current_ledger_head_sha256 format = record.ledger_head_sha256
  journal : ∃ digest, v.current_journal_sha256 format = .ok digest ∧ record.journal_sha256 = some digest
  decisions : ∃ digest, v.current_decisions_sha256 format = .ok digest ∧ record.decisions_sha256 = some digest
  facts : some (RunEvidence.current_fact_state_sha256 format context) = record.fact_state_sha256
  audit : ∃ head, record.access_audit_head_sha256 = some head ∧
    Audit.contains_intact_head format.toAuditFormat v.access_audit head = true

variable {v : RunEvidence} {record : Attestation} {seal_state : Option (Except Error AttestationCheck)}

theorem ok_ite_valid {p : Prop} [Decidable p] {reason : Option String} {rest : Except Error AttestationCheck}
    {check : AttestationCheck} (h : (if p then pure (invalidated reason) else rest) = .ok check) (valid : check.status = .valid) :
    ¬ p ∧ rest = .ok check := by
  split at h
  · obtain rfl := Except.ok.inj h
    cases valid
  · exact ⟨‹_›, h⟩

theorem attestation_state_valid {check : AttestationCheck}
    (h : v.attestation_state format seal_state (some record) = .ok check) (valid : check.status = .valid) :
    ∃ context, Matches format v record context := by
  unfold RunEvidence.attestation_state at h
  obtain ⟨-, h⟩ := ok_ite_valid h valid
  obtain ⟨-, h⟩ := ok_ite_valid h valid
  obtain ⟨-, h⟩ := ok_ite_valid h valid
  obtain ⟨context, launched, h⟩ := bind_ok h
  obtain ⟨matter, loaded, h⟩ := bind_ok h
  obtain ⟨live, h⟩ := ok_ite_valid h valid
  obtain ⟨master, mastered, h⟩ := bind_ok h
  obtain ⟨same_master, h⟩ := ok_ite_valid h valid
  obtain ⟨ledger, h⟩ := ok_ite_valid h valid
  obtain ⟨journal, journaled, h⟩ := bind_ok h
  obtain ⟨same_journal, h⟩ := ok_ite_valid h valid
  obtain ⟨decisions, decided, h⟩ := bind_ok h
  obtain ⟨same_decisions, h⟩ := ok_ite_valid h valid
  obtain ⟨facts, h⟩ := ok_ite_valid h valid
  obtain ⟨audit, h⟩ := ok_ite_valid h valid
  rw [not_not] at live same_master ledger same_journal same_decisions facts
  subst live same_master
  refine ⟨context, launched, loaded, mastered, ledger, ⟨journal, journaled, same_journal.symm⟩,
    ⟨decisions, decided, same_decisions.symm⟩, facts, ?_⟩
  cases attested : record.access_audit_head_sha256 with
  | none => simp [attested] at audit
  | some head => exact ⟨head, rfl, by simpa [attested] using audit⟩

/-- A committed record that matches the files is valid. -/
theorem Matches.valid {context : LaunchManifest μ φ} (found : Matches format v record context)
    (attested : record.valid = true) (scope : record.hash_scope = some MASTER_HASH_SCOPE)
    (committed : record.commitment_sha256 = some (format.sha256_hex (format.record_json record))) :
    v.attestation_state format none (some record) = .ok { status := .valid } := by
  obtain ⟨journal, journaled, same_journal⟩ := found.journal
  obtain ⟨decisions, decided, same_decisions⟩ := found.decisions
  obtain ⟨head, attested_head, contained⟩ := found.audit
  simp [RunEvidence.attestation_state, attested, scope, committed, found.launched, found.matter, found.master, found.ledger,
    journaled, same_journal, decided, same_decisions, found.facts, attested_head, contained, bind, Except.bind, pure,
    Except.pure]

/-! ### Two states -/

/-- Two states have the same evidence, and audit logs that extend the log a record attests the head of. -/
structure EvidenceAgrees (format : EvidenceFormat μ φ) (record : Attestation) (a b : RunEvidence) : Prop where
  master : ∃ text, a.canonical_master format = .ok (some text) ∧ b.canonical_master format = .ok (some text)
  matter : ∃ config, format.load_matter a.matter = .ok config ∧ format.load_matter b.matter = .ok config
  ledger : a.ledger.getD [] = b.ledger.getD []
  journal : a.journal_files.Perm b.journal_files
  decisions : a.decision_files.Perm b.decision_files
  facts : ∃ launched launched', a.run_context format = .ok launched ∧ b.run_context format = .ok launched' ∧
    launched.facts = launched'.facts
  audit : ∃ head attested, record.access_audit_head_sha256 = some head ∧
    (∀ log listed, Audit.head_sha256 format.toAuditFormat log = .ok head →
      Audit.entries format.toAuditFormat log = .ok listed → listed = attested) ∧
    ∀ log ∈ [a.access_audit, b.access_audit], ∃ listed, Audit.entries format.toAuditFormat log = .ok listed ∧
      attested <+: listed

theorem run_context_ok {context : LaunchManifest μ φ} (h : v.run_context format = .ok context) :
    ∃ events event raw bytes, v.journal = some bytes ∧ v.events format = .ok events ∧
      (events.filterMap fun | .run_started event => some event | _ => none) = [event] ∧
      event.context_manifest_sha256 = some (format.sha256 raw) ∧ format.open_manifest event raw = .ok context := by
  obtain ⟨events, read, h⟩ := bind_ok h
  simp only at h
  split at h
  · rename_i event started
    have written : ∃ bytes, v.journal = some bytes := by
      cases held : v.journal with
      | none =>
        rw [RunEvidence.events, held] at read
        obtain rfl := Except.ok.inj read
        cases started
      | some bytes => exact ⟨bytes, rfl⟩
    obtain ⟨bytes, written⟩ := written
    split at h
    · cases h
    · cases h
    · cases h
    · rename_i committed raw _ recorded here
      split at h
      · cases h
      · rename_i intact
        rw [not_not] at intact
        subst intact
        obtain ⟨manifest, opened, h⟩ := bind_ok h
        split at h
        · cases h
        · split at h
          · cases h
          · obtain rfl := Except.ok.inj h
            exact ⟨events, event, raw, bytes, written, read, started, recorded, opened⟩
  · cases h

theorem journal_of_files {a b : RunEvidence} (same : a.journal_files.Perm b.journal_files) {bytes bytes' : FileBytes}
    (ha : a.journal = some bytes) (hb : b.journal = some bytes') : bytes = bytes' := by
  have mem : ("journal.jsonl", EvidenceFile.file bytes) ∈ b.journal_files := by
    refine same.mem_iff.mp (List.mem_append_left _ ?_)
    simp [ha]
  rcases List.mem_append.mp mem with here | turn
  · simpa [hb] using here
  · obtain ⟨file, -, path⟩ := List.mem_map.mp turn
    have path := congrArg String.toList (Prod.mk.inj path).1
    rw [String.toList_append] at path
    exact absurd (congrArg List.head? path) (by simp)

/-- States with the same journal were launched in the same context. -/
theorem same_context (collision_free : Function.Injective format.sha256) {a b : RunEvidence}
    (same : a.journal_files.Perm b.journal_files) {context context' : LaunchManifest μ φ}
    (ha : a.run_context format = .ok context) (hb : b.run_context format = .ok context') : context = context' := by
  obtain ⟨events, event, raw, bytes, journal, read, started, committed, opened⟩ := run_context_ok ha
  obtain ⟨events', event', raw', bytes', journal', read', started', committed', opened'⟩ := run_context_ok hb
  obtain rfl := journal_of_files same journal journal'
  rw [RunEvidence.events, journal] at read
  rw [RunEvidence.events, journal', read] at read'
  obtain rfl := Except.ok.inj read'
  rw [started] at started'
  obtain ⟨rfl, -⟩ := List.cons.inj started'
  rw [committed] at committed'
  obtain rfl := collision_free (Option.some.inj committed')
  rw [opened] at opened'
  exact Except.ok.inj opened'

omit [DecidableEq μ] in
/-- The canonical text that a master digest is of; the matter's digest after the separator is the same. -/
theorem same_master (collision_free : Function.Injective format.sha256) {a b : RunEvidence}
    {context : LaunchManifest μ φ} {digest : Digest} (ha : a.current_master_sha256 format context = .ok (some digest))
    (hb : b.current_master_sha256 format context = .ok (some digest)) :
    ∃ text, a.canonical_master format = .ok (some text) ∧ b.canonical_master format = .ok (some text) := by
  obtain ⟨master, written, ha⟩ := bind_ok ha
  obtain ⟨master', written', hb⟩ := bind_ok hb
  obtain ⟨text, rfl, hashed⟩ := Option.map_eq_some_iff.mp (Except.ok.inj ha)
  obtain ⟨text', rfl, hashed'⟩ := Option.map_eq_some_iff.mp (Except.ok.inj hb)
  have same := Audit.utf8_injective (collision_free (hashed.trans hashed'.symm))
  obtain rfl := String.toList_inj.mp (List.append_cancel_right same)
  exact ⟨text, written, written'⟩

/-- One record is valid only for states with the same evidence. -/
theorem attestation_commits (collision_free : Function.Injective format.sha256)
    (genesis_free : ∀ bytes, format.sha256 bytes ≠ GENESIS_PREV_HASH) {a b : RunEvidence} {record : Attestation}
    {seal_state seal_state' : Option (Except Error AttestationCheck)} {check check' : AttestationCheck}
    (ha : a.attestation_state format seal_state (some record) = .ok check) (valid : check.status = .valid)
    (hb : b.attestation_state format seal_state' (some record) = .ok check') (valid' : check'.status = .valid) :
    EvidenceAgrees format record a b := by
  obtain ⟨context, of_a⟩ := attestation_state_valid ha valid
  obtain ⟨context', of_b⟩ := attestation_state_valid hb valid'
  obtain ⟨journal, journal_a, recorded⟩ := of_a.journal
  obtain ⟨journal', journal_b, recorded'⟩ := of_b.journal
  obtain rfl := Option.some.inj (recorded.symm.trans recorded')
  obtain ⟨decisions, decisions_a, decided⟩ := of_a.decisions
  obtain ⟨decisions', decisions_b, decided'⟩ := of_b.decisions
  obtain rfl := Option.some.inj (decided.symm.trans decided')
  have same_journal := tree_sha256_perm collision_free journal_a journal_b
  obtain rfl := same_context collision_free same_journal of_a.launched of_b.launched
  refine ⟨same_master collision_free of_a.master of_b.master, ⟨_, of_a.matter, of_b.matter⟩,
    collision_free (of_a.ledger.trans of_b.ledger.symm), same_journal,
    tree_sha256_perm collision_free decisions_a decisions_b, ⟨_, _, of_a.launched, of_b.launched, rfl⟩, ?_⟩
  obtain ⟨head, attested_head, contained⟩ := of_a.audit
  obtain ⟨head', attested_head', contained'⟩ := of_b.audit
  obtain rfl := Option.some.inj (attested_head.symm.trans attested_head')
  obtain ⟨listed, attested, read, before, linked, rfl⟩ := Audit.contains_intact_head_prefix contained
  obtain ⟨listed', attested', read', before', linked', same⟩ := Audit.contains_intact_head_prefix contained'
  obtain rfl := Audit.chain_of_head collision_free genesis_free linked' linked same
  refine ⟨_, attested', attested_head, fun log listed headed read => ?_, ?_⟩
  · obtain ⟨found, checked⟩ := Audit.head_sha256_ok headed
    obtain ⟨listed', read', linked'', headed, -⟩ := Audit.validated_chain_iff.mp checked
    obtain rfl := Except.ok.inj (read.symm.trans read')
    exact Audit.chain_of_head collision_free genesis_free linked'' linked headed.symm
  · simp only [List.mem_cons, List.not_mem_nil, or_false, forall_eq_or_imp, forall_eq]
    exact ⟨⟨listed, read, before⟩, listed', read', before'⟩

end

namespace Sample

def launched : RunStarted :=
  { run_id := "r1", task := "rfp", rubric_version := "v1", context_manifest_sha256 := some (audit_format.sha256 [1]) }

def evidence_format : EvidenceFormat String String where
  toAuditFormat := audit_format
  journal_event _ := .ok (.run_started launched)
  load_matter _ := .ok "acme"
  open_manifest _ _ := .ok { matter_config := "acme", facts := ["served"], corpus_snapshot_sha256 := audit_format.sha256 [] }
  matter_json matter := matter.toList
  facts_json facts := facts.flatMap String.toList
  record_json record := record.attestation_id.toList

def reviewed : RunEvidence where
  matter := [97]
  manifest := some [1]
  corpus := some []
  journal := some [123, 125, 10]
  turns := [("t-1.json", .file [49]), ("t-2.json", .file [])]
  decisions := [("log.jsonl", .file [50])]
  master := some (.file [104, 105])
  ledger := none
  access_audit := []

/-- The same evidence after a page was viewed. -/
def viewed : RunEvidence :=
  { reviewed with
    turns := reviewed.turns.reverse
    access_audit := Audit.written (Audit.records audit_format GENESIS_PREV_HASH [view "brief"]) }

/-- The bytes that the digest of some files is of. -/
def tree_of (files : List (String × EvidenceFile)) : FileBytes :=
  (tree_bytes (files.insertionSort fun a b => a.1 ≤ b.1)).toOption.getD []

def attestation : Attestation where
  hash_scope := some MASTER_HASH_SCOPE
  attestation_id := "att-r1-0000"
  run_id := "r1"
  master_sha256 := evidence_format.sha256_hex
    ((canonicalize "hi").toList ++ '\x1f' :: (evidence_format.sha256_hex "acme".toList).toList)
  ledger_head_sha256 := evidence_format.sha256 []
  journal_sha256 := some (evidence_format.sha256 (tree_of reviewed.journal_files))
  decisions_sha256 := some (evidence_format.sha256 (tree_of reviewed.decision_files))
  fact_state_sha256 := some (evidence_format.sha256_hex (evidence_format.facts_json ["served"]))
  access_audit_head_sha256 := some GENESIS_PREV_HASH
  commitment_sha256 := some (evidence_format.sha256_hex "att-r1-0000".toList)
  reviewer := "attorney"
  attested_at := "2026-07-12"

theorem attestation_matches {turns : List (String × EvidenceFile)} (reordered : turns ∈ [reviewed.turns, reviewed.turns.reverse])
    {access_audit : List Char} (contained : Audit.contains_intact_head audit_format access_audit GENESIS_PREV_HASH = true) :
    Matches evidence_format { reviewed with turns, access_audit } attestation
      { matter_config := "acme", facts := ["served"], corpus_snapshot_sha256 := audit_format.sha256 [] } where
  launched := rfl
  matter := rfl
  master := by
    have decoded : String.fromUTF8? ⟨#[104, 105]⟩ = some "hi" := by decide +kernel
    have master : { reviewed with turns, access_audit }.canonical_master evidence_format = .ok (some (canonicalize "hi")) := by
      unfold RunEvidence.canonical_master
      simp only [reviewed]
      rw [decoded]
      rfl
    rw [RunEvidence.current_master_sha256, master]
    rfl
  ledger := rfl
  journal := by
    refine ⟨_, ?_, rfl⟩
    have hashed : tree_bytes (({ reviewed with turns, access_audit } : RunEvidence).journal_files.insertionSort
        fun a b => a.1 ≤ b.1) = .ok (tree_of reviewed.journal_files) := by
      revert turns
      simp only [RunEvidence.journal_files]
      decide +kernel
    rw [RunEvidence.current_journal_sha256, tree_sha256, hashed]
    rfl
  decisions := by
    refine ⟨_, ?_, rfl⟩
    have hashed : tree_bytes (reviewed.decision_files.insertionSort fun a b => a.1 ≤ b.1) =
        .ok (tree_of reviewed.decision_files) := by decide +kernel
    show tree_sha256 evidence_format reviewed.decision_files = _
    rw [tree_sha256, hashed]
    rfl
  facts := rfl
  audit := ⟨_, rfl, contained⟩

theorem viewed_agrees : EvidenceAgrees evidence_format attestation reviewed viewed :=
  attestation_commits audit_format_injective audit_format_genesis_free
    ((attestation_matches List.mem_cons_self (by rfl)).valid rfl rfl rfl) rfl
    ((attestation_matches (by simp) (Audit.written_contains_genesis documented_audit_format _)).valid rfl rfl rfl) rfl

end Sample

end MootLoop
