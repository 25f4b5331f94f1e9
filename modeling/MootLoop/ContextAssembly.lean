import MootLoop.Lib.SortBy
import MootLoop.Authorities
import MootLoop.Facts
import MootLoop.Stages
import Mathlib.Algebra.GroupWithZero.Nat
import Mathlib.Data.Prod.Lex
import Mathlib.Data.String.Basic

/-! Assembly of the launch-approved prompt data of a run: which candidate contributions a launch selects, and the
    items the captured inputs of the run are rendered to. -/

namespace MootLoop.ContextAssembly

open Authorities (is_sha256 tokens)
open Slice (slice)

def MAX_CONTEXT_ITEM_CHARS : Nat := 256 * 1024
def MAX_CONTEXT_ITEMS : Nat := 256
def MAX_CONTEXT_TOTAL_CHARS : Nat := 2 * 1024 * 1024
def MAX_CORPUS_PASSAGE_CHARS : Nat := 16 * 1024
def MAX_CORPUS_PASSAGES_PER_DOC : Nat := 2

/-! ### Contributions -/

inductive ContextContributionKind where
  | board
  | learning
  | context_note
  | firm_playbook
  deriving DecidableEq, Repr

def ContextContributionKind.value : ContextContributionKind → String
  | .board => "board"
  | .learning => "learning"
  | .context_note => "context_note"
  | .firm_playbook => "firm_playbook"

inductive ContextApprovalState where
  | approved
  | accepted
  | pending
  | rejected
  deriving DecidableEq, Repr

inductive ContextPermission where
  | matter_confidential
  | privileged
  deriving DecidableEq, Repr

inductive ContextSharingScope where
  | matter
  | firm
  | public_area
  deriving DecidableEq, Repr

inductive ContextExclusionReason where
  | not_approved
  | wrong_matter
  | wrong_task
  | ethical_wall
  deriving DecidableEq, Repr

/-- `[a-z0-9][a-z0-9._:-]{0,127}`. -/
def is_contribution_id (text : String) : Bool :=
  match text.toList with
  | [] => false
  | first :: rest =>
    Authorities.is_token_char first && rest.length ≤ 127 &&
      rest.all fun c => Authorities.is_token_char c || c == '.' || c == '_' || c == ':' || c == '-'

/-- No line break and no NUL. -/
def single_line (text : String) : Bool := text.toList.all fun c => !(c == '\r' || c == '\n' || c.toNat == 0)

variable (hash : String → Digest)

/-- One candidate launch contribution. It is built only with what its validator checks. -/
structure ContextContribution where
  contribution_id : String
  kind : ContextContributionKind
  text : String
  sha256 : Digest
  provenance_locator : String
  source_matter_id : String
  task_scope : List String := []
  persona_scope : List PersonaName := []
  permission : ContextPermission
  approval_state : ContextApprovalState
  sharing_scope : ContextSharingScope := .matter
  excluded_matter_ids : List String := []
  stable_id : is_contribution_id contribution_id = true
  some_text : text ≠ ""
  digest_shape : is_sha256 sha256 = true
  digest : sha256 = hash text
  locator_length : 1 ≤ provenance_locator.length ∧ provenance_locator.length ≤ 1024
  locator_line : single_line provenance_locator = true
  tasks_nodup : task_scope.Nodup
  personas_nodup : persona_scope.Nodup
  matters_nodup : excluded_matter_ids.Nodup
  unwalled : sharing_scope = .matter → excluded_matter_ids = []

/-- Why a candidate did not enter a run. -/
structure ContextExclusion where
  contribution_id : String
  kind : ContextContributionKind
  reason : ContextExclusionReason
  deriving DecidableEq, Repr

/-! ### Selection -/

section
variable {hash}

def is_approved (contribution : ContextContribution hash) : Bool :=
  if contribution.kind = .learning then contribution.approval_state = .accepted
  else contribution.approval_state = .approved

/-- The first reason to leave a candidate out, in the order the launch checks them. -/
def exclusion_reason (matter_id task : String) (contribution : ContextContribution hash) :
    Option ContextExclusionReason :=
  if contribution.sharing_scope = .matter ∧ contribution.source_matter_id ≠ matter_id then some .wrong_matter
  else if matter_id ∈ contribution.excluded_matter_ids then some .ethical_wall
  else if contribution.task_scope ≠ [] ∧ task ∉ contribution.task_scope then some .wrong_task
  else if is_approved contribution = false then some .not_approved
  else none

/-- What the selection sorts the candidates by. -/
def launch_key (contribution : ContextContribution hash) : String ×ₗ String :=
  toLex (contribution.kind.value, contribution.contribution_id)

/-- The loop of `select_launch_contributions` over the sorted candidates. -/
def select_loop (matter_id task : String) : List (ContextContribution hash) → List String →
    List (ContextContribution hash) → List ContextExclusion →
    Except Error (List (ContextContribution hash) × List ContextExclusion)
  | [], _, accepted, excluded => .ok (accepted, excluded)
  | contribution :: rest, seen, accepted, excluded =>
    if contribution.contribution_id ∈ seen then
      .error (.orchestrator s!"duplicate context contribution id '{contribution.contribution_id}'")
    else
      match exclusion_reason matter_id task contribution with
      | none => select_loop matter_id task rest (contribution.contribution_id :: seen) (accepted ++ [contribution]) excluded
      | some reason =>
        select_loop matter_id task rest (contribution.contribution_id :: seen) accepted
          (excluded ++ [⟨contribution.contribution_id, contribution.kind, reason⟩])

/-- Keeps only launch-authorized candidates, with a record of each exclusion. -/
def select_launch_contributions (candidates : List (ContextContribution hash)) (matter_id task : String) :
    Except Error (List (ContextContribution hash) × List ContextExclusion) := do
  let (accepted, excluded) ← select_loop matter_id task (candidates.sortBy launch_key) [] [] []
  return (accepted, excluded.sortBy (·.contribution_id))

end

/-! ### The manifest -/

inductive ContextSourceKind where
  | matter_config
  | task_adapter
  | rubric
  | rubric_lock
  | fact_repository
  | request_set
  | document_input
  | task_spec
  | task_spec_lock
  | corpus_manifest
  | corpus_content
  | persona_body
  | context_contribution
  deriving DecidableEq, Repr

/-- One launch source and its exact content digest. -/
structure ContextSource where
  kind : ContextSourceKind
  locator : String
  sha256 : Digest
  deriving DecidableEq, Repr

/-- The source a launch records for a contribution it accepts. -/
def ContextContribution.source (contribution : ContextContribution hash) : ContextSource :=
  ⟨.context_contribution, contribution.provenance_locator, contribution.sha256⟩

structure CorpusDocument where
  doc_id : String
  privileged : Option Bool
  deriving DecidableEq, Repr

/-- One normalized corpus document captured at launch. -/
structure CorpusTextSnapshot where
  doc_id : String
  locator : String
  text : String
  deriving DecidableEq, Repr

structure DocumentEvidence where
  source_id : String
  text : String
  /-- `str(available_on)`. -/
  available_on : String
  classification : String
  is_public : Bool
  deriving DecidableEq, Repr

/-- A document task's input; `brief` is the JSON of everything in it but the evidence. -/
structure DocumentTaskInput where
  input_id : String
  brief : String
  evidence : List DocumentEvidence
  deriving DecidableEq, Repr

/-- What the manifest of a run says its context is assembled from. -/
structure RunContextManifest where
  matter_id : String
  task : String
  input_family : InputFamily
  document_inputs : List DocumentTaskInput := []
  request_sets : List RequestSet := []
  facts : List Facts.Fact := []
  corpus_manifest : List CorpusDocument := []
  context_contributions : List (ContextContribution hash) := []
  sources : List ContextSource := []

/-! ### Items -/

inductive AssembledContextKind where
  | fact
  | corpus_passage
  | context_note
  | firm_playbook
  | board
  | learning
  deriving DecidableEq, Repr

def ContextContributionKind.assembled : ContextContributionKind → AssembledContextKind
  | .board => .board
  | .learning => .learning
  | .context_note => .context_note
  | .firm_playbook => .firm_playbook

/-- `_KIND_ORDER`. -/
def KIND_ORDER : AssembledContextKind → Nat
  | .fact => 0
  | .corpus_passage => 1
  | .context_note => 2
  | .firm_playbook => 3
  | .board => 4
  | .learning => 5

/-- One bounded prompt-data item. -/
structure ContextItem where
  context_id : String
  kind : AssembledContextKind
  text : String
  sha256 : Digest
  provenance_locator : String
  source_matter_id : String
  task_scope : List String := []
  persona_scope : List PersonaName := []
  permission : ContextPermission
  deriving DecidableEq, Repr

/-- What a turn's prompt shows of an item. -/
def ContextItem.shown (item : ContextItem) : AssembledContextItem where
  context_id := item.context_id
  text := item.text
  provenance_locator := item.provenance_locator
  task_scope := item.task_scope
  persona_scope := item.persona_scope

/-- The validator of an item. -/
def ContextItem.validate_content (item : ContextItem) : Except Error ContextItem :=
  if item.context_id = "" ∨ single_line item.context_id = false then
    .error (.validation "context_id must be a non-empty single-line identifier")
  else if is_sha256 item.sha256 = false then
    .error (.validation "sha256 must be exactly 64 lowercase hexadecimal characters")
  else if item.sha256 ≠ hash item.text then
    .error (.validation "sha256 does not match the exact UTF-8 context text")
  else if item.provenance_locator = "" ∨ single_line item.provenance_locator = false then
    .error (.validation "provenance_locator must be a non-empty single-line locator")
  else .ok item

/-- `_fact_items`. -/
def fact_item (manifest : RunContextManifest hash) (fact : Facts.Fact) : Except Error ContextItem :=
  ContextItem.validate_content hash
    { context_id := s!"fact:{fact.fact_id}:v{fact.version}", kind := .fact, text := fact.statement,
      sha256 := hash fact.statement, provenance_locator := s!"facts/facts.jsonl#{fact.fact_id}@v{fact.version}",
      source_matter_id := manifest.matter_id, permission := .matter_confidential }

/-- `[a-z0-9]+`, at the front of a text. -/
def word (text : List Char) : Option (List Char) :=
  let found := text.takeWhile Authorities.is_token_char
  if found = [] then none else some found

/-- `passage.count(term)`. -/
def count (term passage : List Char) : Nat :=
  (Scan.findall (fun text => if term.isPrefixOf text then some term else none) 0 passage).length

section
variable (casefold : List Char → List Char)

def query_terms (request_sets : List RequestSet) : List (List Char) :=
  ((request_sets.flatMap (·.items)).flatMap fun request =>
    (Scan.findall word 0 (casefold request.text.toList)).filter (·.length ≥ 4)).dedup

/-- The bounds of the passages a text is cut into. -/
def ranges (length : Nat) : List (Nat × Nat) :=
  if length = 0 then [(0, 0)]
  else (List.range ((length + MAX_CORPUS_PASSAGE_CHARS - 1) / MAX_CORPUS_PASSAGE_CHARS)).map fun i =>
    (i * MAX_CORPUS_PASSAGE_CHARS, min (i * MAX_CORPUS_PASSAGE_CHARS + MAX_CORPUS_PASSAGE_CHARS) length)

/-- The passages with the most occurrences of the terms first. -/
def score (terms : List (List Char)) (text : List Char) (bounds : Nat × Nat) : Int ×ₗ Nat :=
  let passage := casefold (slice text bounds.1 bounds.2)
  toLex (-((terms.map fun term => (count term passage : Int)).sum), bounds.1)

/-- The passages of one captured document. -/
def document_passages (manifest : RunContextManifest hash) (terms : List (List Char)) (captured : CorpusTextSnapshot) :
    Except Error (List ContextItem) := do
  let text := captured.text.toList
  match manifest.corpus_manifest.reverse.find? (·.doc_id = captured.doc_id) with
  | none => .error (.orchestrator s!"corpus context '{captured.doc_id}' has no captured manifest metadata")
  | some metadata =>
    let ranked := ((ranges text.length).sortBy (score casefold terms text)).take MAX_CORPUS_PASSAGES_PER_DOC
    (ranked.sortBy fun bounds => toLex bounds).mapM fun (start, stop) =>
      let passage := String.ofList (slice text start stop)
      ContextItem.validate_content hash
        { context_id := s!"corpus:{captured.doc_id}:{start}-{stop}", kind := .corpus_passage, text := passage,
          sha256 := hash passage, provenance_locator := s!"{captured.locator}#chars={start}-{stop}",
          source_matter_id := manifest.matter_id,
          permission := if metadata.privileged = some false then .matter_confidential else .privileged }

/-- `_corpus_items`. -/
def corpus_items (manifest : RunContextManifest hash) (snapshot : List CorpusTextSnapshot) :
    Except Error (List ContextItem) := do
  let passages ← snapshot.mapM (document_passages hash casefold manifest (query_terms casefold manifest.request_sets))
  return passages.flatten

end

/-- The item a contribution is rendered to. -/
def ContextContribution.item (contribution : ContextContribution hash) : ContextItem where
  context_id := s!"{contribution.kind.value}:{contribution.contribution_id}"
  kind := contribution.kind.assembled
  text := contribution.text
  sha256 := contribution.sha256
  provenance_locator := contribution.provenance_locator
  source_matter_id := contribution.source_matter_id
  task_scope := contribution.task_scope
  persona_scope := contribution.persona_scope
  permission := contribution.permission

/-- The loop body of `_contribution_items`. -/
def contribution_item (manifest : RunContextManifest hash) (contribution : ContextContribution hash) :
    Except Error ContextItem :=
  let refused := fun why : String =>
    Except.error (.orchestrator s!"context contribution '{contribution.contribution_id}' {why}")
  if contribution.sharing_scope = .matter ∧ contribution.source_matter_id ≠ manifest.matter_id then
    refused "crosses matter boundary"
  else if manifest.matter_id ∈ contribution.excluded_matter_ids then refused "is excluded by ethical wall"
  else if contribution.task_scope ≠ [] ∧ manifest.task ∉ contribution.task_scope then refused "is outside run task"
  else if is_approved contribution = false then refused "is not approved"
  else if contribution.source ∉ manifest.sources then refused "has no exact source record"
  else contribution.item.validate_content hash

/-- `_contribution_items`. -/
def contribution_items (manifest : RunContextManifest hash) : Except Error (List ContextItem) :=
  manifest.context_contributions.mapM (contribution_item hash manifest)

def PUBLIC_PERSONAS : List PersonaName := [.associate, .partner, .oc_associate, .oc_partner, .judge, .rubric_judge]

/-- `_document_items`, for one input. -/
def document_input_items (manifest : RunContextManifest hash) (document : DocumentTaskInput) :
    Except Error (List ContextItem) := do
  let brief ← ContextItem.validate_content hash
    { context_id := s!"document-brief:{document.input_id}", kind := .context_note, text := document.brief,
      sha256 := hash document.brief, provenance_locator := s!"documents/{document.input_id}.json#instructions",
      source_matter_id := manifest.matter_id, task_scope := [manifest.task], persona_scope := PUBLIC_PERSONAS,
      permission := .matter_confidential }
  let evidence ← document.evidence.mapM fun source =>
    let text := s!"[{source.classification}; available {source.available_on}]\n{source.text}"
    ContextItem.validate_content hash
      { context_id := s!"document:{document.input_id}:{source.source_id}", kind := .corpus_passage, text,
        sha256 := hash text, provenance_locator := s!"documents/{document.input_id}.json#{source.source_id}",
        source_matter_id := manifest.matter_id, task_scope := [manifest.task],
        persona_scope := if source.is_public then PUBLIC_PERSONAS else [], permission := .matter_confidential }
  return brief :: evidence

def document_items (manifest : RunContextManifest hash) : Except Error (List ContextItem) := do
  return (← manifest.document_inputs.mapM (document_input_items hash manifest)).flatten

/-- What the context is sorted by. -/
def item_key (item : ContextItem) : Nat ×ₗ String := toLex (KIND_ORDER item.kind, item.context_id)

/-- The limits of one context. -/
def within_limits (items : List ContextItem) : Except Error (List ContextItem) :=
  if items.length > MAX_CONTEXT_ITEMS then
    .error (.orchestrator (s!"assembled context has {items.length} items; context limit is {MAX_CONTEXT_ITEMS}. " ++
      "Select fewer evidence passages before running."))
  else
    match items.find? (·.text.length > MAX_CONTEXT_ITEM_CHARS) with
    | some item =>
      .error (.orchestrator (s!"context item '{item.context_id}' exceeds the per-item context limit " ++
        s!"of {MAX_CONTEXT_ITEM_CHARS} characters; select a bounded passage"))
    | none =>
      let total := (items.map (·.text.length)).sum
      if total > MAX_CONTEXT_TOTAL_CHARS then
        .error (.orchestrator (s!"assembled context has {total} characters; total context limit is " ++
          s!"{MAX_CONTEXT_TOTAL_CHARS}. Select fewer evidence passages before running."))
      else .ok items

/-- Combines the immutable sources of a run in a stable order, within explicit limits. -/
def assemble_context (casefold : List Char → List Char) (manifest : RunContextManifest hash)
    (snapshot : List CorpusTextSnapshot) : Except Error (List ContextItem) := do
  let facts ← manifest.facts.mapM (fact_item hash manifest)
  let corpus ← corpus_items hash casefold manifest snapshot
  let contributions ← contribution_items hash manifest
  let items ← if manifest.input_family = .document then document_items hash manifest
    else .ok (facts ++ corpus ++ contributions)
  within_limits (items.sortBy item_key)

end MootLoop.ContextAssembly
