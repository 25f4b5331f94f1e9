import MootLoop.Master

/-! Export: the markdown deliverables, one DOCX per served set, and the seal of a clean export. Whether
    the copy is clean or a DRAFT is decided here. -/

namespace MootLoop
open Durable

variable (x : Externals) (t : Publishing)

/-- What an export produced, and what blocked a clean one. -/
structure ExportResult where
  run_id : RunId
  master : String
  verification : Option String
  privilege_log : String := "privilege-log.md"
  memo : String := "strategy-memo.md"
  audit_log : String := "audit-log.json"
  set_masters : List String := []
  docx : List String := []
  is_draft : Bool := true
  export_ready : Bool := false
  blockers : List String := []
  attestation_state : AttestationCheckStatus := .missing
  docx_skipped_reason : Option String := none
  residue_results : List (String × GateResult) := []
  deriving DecidableEq, Repr

def ExportResult.residue_clean (result : ExportResult) : Bool :=
  result.residue_results.all fun scanned => scanned.2.status = .pass

/-- A DOCX directly under `docx/` that is not a DRAFT. -/
def is_clean_docx (path : String) : Bool :=
  let name := path_name path
  path = "docx/" ++ name && ".docx".toList.isSuffixOf name.toList && !is_draft_name path

/-- The clean DOCX files on disk, by name. -/
def clean_docx (v : Vault) : List String := (v.deliverables.keys.filter is_clean_docx).insertionSort (· ≤ ·)

/-- `_retire_clean_docx`. -/
def retire_clean_docx : VaultM Unit := do
  Prog.forEach (clean_docx (← Prog.read)) fun path => Prog.write (.unlink path)

/-- `scan_docx` of a rendered file. -/
def scan_docx (docx : String) : GateResult := fail_or_pass "residue" (t.residue_findings docx)

/-- The text of a master on disk; a master that is not there raises. -/
def master_text (path : String) : VaultM String := do
  match (← Prog.read).deliverables.get? path with
  | some text => return text
  | none => throw (.export s!"master markdown not found: {path}")

/-- The part of a name before its last dot. -/
def path_stem (path : String) : String :=
  let name := (path_name path).toList
  match (name.reverse.dropWhile (· ≠ '.')).tail with
  | [] => String.ofList name
  | before => String.ofList before.reverse

/-- One set's render and residue scan; a clean copy with residue is dropped. -/
def render_set (is_draft : Bool) (label source : String) (result : ExportResult) : VaultM ExportResult := do
  let text ← master_text source
  let docx ← Prog.lift (t.render_docx text is_draft)
  let out_path := "docx/" ++ label ++ (if is_draft then ".DRAFT.docx" else ".docx")
  Prog.write (.deliverable out_path docx)
  let scan := scan_docx t docx
  let scanned := { result with residue_results := result.residue_results ++ [(label, scan)] }
  if scan.status ≠ .pass ∧ is_draft = false then do
    Prog.write (.unlink out_path)
    return { scanned with blockers := scanned.blockers ++ [s!"residue:{label}"] }
  else return { scanned with docx := scanned.docx ++ [out_path] }

/-- The renders of the sets, in order. -/
def render_sets (is_draft : Bool) : List (String × String) → ExportResult → VaultM ExportResult
  | [], result => return result
  | (label, source) :: rest, result => do
    render_sets is_draft rest (← render_set t is_draft label source result)

/-- `_existing_sealed_result`: the intact published generation. -/
def existing_sealed_result (v : Vault) (context : RunContext) : ExportResult :=
  let document := context.config.input_family = .document
  let sets := (v.deliverables.keys.filter fun path =>
    path = "sets/" ++ path_name path && ".md".toList.isSuffixOf path.toList).insertionSort (· ≤ ·)
  { run_id := v.run_id, master := MASTER_PATH,
    verification := if v.deliverables.contains "verification.md" then some "verification.md" else none,
    set_masters := if document then [MASTER_PATH] else sets,
    docx := clean_docx v, is_draft := false, export_ready := true, attestation_state := .valid }

/-- `_render_draft_from_sealed`: DRAFT copies beside the sealed generation. -/
def render_draft_from_sealed (pandoc : Bool) (result : ExportResult) : VaultM ExportResult :=
  let draft := { result with is_draft := true, docx := [] }
  if pandoc then render_sets t true (result.set_masters.map fun source => (path_stem source, source)) draft
  else return { draft with docx_skipped_reason := some "pandoc not installed" }

/-- The pages beside the masters. The verification page is for interrogatories only. -/
def build_pages (context : RunContext) (now : String) : VaultM (Option String) := do
  let verifies := context.config.input_family ≠ .document ∧
    context.request_sets.any (·.request_type = .interrogatory) = true
  Prog.when verifies do Prog.write (.deliverable "verification.md" (t.page .verification (← Prog.read) now))
  Prog.write (.deliverable "privilege-log.md" (t.page .privilege_log (← Prog.read) now))
  Prog.write (.deliverable "strategy-memo.md" (t.page .strategy_memo (← Prog.read) now))
  Prog.write (.deliverable "audit-log.json" (t.page .audit_log (← Prog.read) now))
  return if verifies then some "verification.md" else none

/-- The markdown deliverables: the master unless the attested one stands, the pages, and the set
    masters. -/
def build_deliverables (context : RunContext) (now : String) : VaultM ExportResult := do
  let prebuild ← Prog.lift (attestation_state t (← Prog.read))
  Prog.when (prebuild.status ≠ .valid) (build_court_master x context now)
  let verification ← build_pages t context now
  let document := context.config.input_family = .document
  Prog.when (¬document) (build_set_masters x context now)
  let v ← Prog.read
  let (ready, blockers) ← Prog.lift (export_ready t v)
  let attestation ← Prog.lift (attestation_state t v)
  return {
    run_id := v.run_id, master := MASTER_PATH, verification,
    set_masters := if document then [MASTER_PATH] else context.request_sets.map set_master_path,
    export_ready := ready,
    blockers := blockers ++ (if context.matter.attorney.isSome then [] else ["signature_block"]),
    attestation_state := attestation.status }

/-- A valid attestation, a green ledger and a signing attorney. -/
def ExportResult.qualifies_clean (result : ExportResult) (context : RunContext) : Bool :=
  result.attestation_state = .valid && result.export_ready && context.matter.attorney.isSome

/-- The end of an export over the deliverables it built: the DOCX files and the seal. -/
def publish (context : RunContext) (built : ExportResult) (pandoc force_draft : Bool) (now : String) :
    VaultM ExportResult := do
  let qualifies := built.qualifies_clean context
  let is_draft := force_draft || !qualifies
  let result := { built with is_draft }
  if context.config.input_family = .document then do
    retire_clean_docx
    return { result with is_draft := true,
                         docx_skipped_reason := some "document tasks support Markdown draft review copies only" }
  else do
    Prog.when (¬qualifies) retire_clean_docx
    if !pandoc then return { result with docx_skipped_reason := some "pandoc not installed" }
    else do
      let sources := context.request_sets.map fun request_set => (set_label request_set, set_master_path request_set)
      let rendered ← render_sets t is_draft sources result
      if qualifies then
        if rendered.residue_clean then do
          record_export_seal_locked t now
          return rendered
        else do
          retire_clean_docx
          return { rendered with is_draft := true, export_ready := false }
      else return rendered

/-- `_export_run_locked`. -/
def export_run_locked (pandoc force_draft : Bool) (now : String) : VaultM ExportResult := do
  let context ← load_run_context
  let v ← Prog.read
  let sealed ← Prog.lift (sealed_export_state t v)
  if sealed.status = .valid then do
    let (ready, blockers) ← Prog.lift (export_ready t v)
    if ready = false ∧ force_draft = false then
      let listed := ", ".intercalate blockers
      throw (.export s!"The sealed export no longer satisfies the export gates: {listed}. Preserve this reviewed generation and prepare a revised response for attorney review in a new run.")
    else
      let existing := { existing_sealed_result v context with export_ready := ready, blockers }
      if force_draft then render_draft_from_sealed t pandoc existing else return existing
  else do
    let built ← build_deliverables x t context now
    publish t context built pandoc force_draft now

/-- `export_run`. -/
def export_run (free pandoc force_draft : Bool) (now : String) : VaultM ExportResult :=
  with_lock free (export_run_locked x t pandoc force_draft now)

end MootLoop
