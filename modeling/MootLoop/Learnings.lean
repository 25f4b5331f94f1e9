import MootLoop.ContextAssembly
import MootLoop.DocxEdits
import MootLoop.VaultFiles
import MootLoop.Lib.Transition

/-! Learning from an attorney's edits: the proposals an edited document is imported to, their human reviews, and the
    firm profile that promoted learnings are shared through. The calls of any number of matters interleave, and any of
    them can die between two writes. -/

namespace MootLoop.Learnings

open ContextAssembly
open Authorities (is_sha256)
open DocxEdits (RecoveredAnchor)

/-! ### Records -/

inductive LearningTier where
  | matter
  | firm
  | area
  deriving DecidableEq, Repr

def LearningTier.value : LearningTier → String
  | .matter => "matter"
  | .firm => "firm"
  | .area => "area"

inductive LearningStatus where
  | needs_review
  | accepted
  | rejected
  deriving DecidableEq, Repr

inductive LearningReviewAction where
  | accept
  | reject
  | promote
  deriving DecidableEq, Repr

inductive LearningReviewChannel where
  | api
  | cli
  deriving DecidableEq, Repr

/-- What the calls raise. -/
inductive LearningError where
  | learning_import (message : String)
  | lock_held (message : String)
  | orchestrator (message : String)
  | validation (message : String)
  | assertion
  deriving DecidableEq, Repr

/-- What a launch raises, among the rest. -/
def LearningError.raised : Error → LearningError
  | .orchestrator message => .orchestrator message
  | .validation message => .validation message
  | _ => .assertion

/-- What was recovered from an edited document. -/
structure DocxEditRecovery where
  source_sha256 : Digest
  anchors : List RecoveredAnchor
  auto_routable : Bool
  blockers : List String := []
  deriving DecidableEq, Repr

structure LearningImportRecord where
  import_id : String
  source_matter_id : String
  run_id : RunId
  source_name : String
  source_sha256 : Digest
  imported_at : String
  auto_routable : Bool
  blockers : List String
  anchors : List RecoveredAnchor
  deriving DecidableEq, Repr

/-- One anchored correction awaiting a human. -/
structure LearningProposal where
  proposal_id : String
  import_id : String
  source_matter_id : String
  run_id : RunId
  task : String
  anchor_id : String
  baseline_text : String
  edited_text : String
  baseline_sha256 : Digest
  edited_sha256 : Digest
  critic_markup : String
  word_changes : Nat
  proposed_tier : LearningTier := .matter
  proposed_text : String
  created_at : String
  deriving DecidableEq, Repr

structure LearningImportBundle where
  import_record : LearningImportRecord
  proposals : List LearningProposal
  deriving DecidableEq, Repr

structure LearningReview where
  review_id : String
  source_matter_id : String
  proposal_id : String
  action : LearningReviewAction
  actor : String
  channel : LearningReviewChannel
  recorded_at : String
  reviewed_text : String
  target_tier : Option LearningTier
  reason : String
  confirm_scrub_diff : Bool
  scrub_diff_sha256 : Option Digest
  excluded_matter_ids : List String
  deriving DecidableEq, Repr

/-- `learning-review-[0-9a-f]{16}`. -/
def is_review_id (text : String) : Bool :=
  "learning-review-".toList.isPrefixOf text.toList &&
    (let digits := text.toList.drop 16
     digits.length == 16 && digits.all fun c => c.isDigit || ('a' ≤ c && c ≤ 'f'))

/-- The constraints on the fields of a review. -/
def LearningReview.validate_fields (review : LearningReview) : Except String Unit :=
  if is_review_id review.review_id = false then .error "review_id: string should match the pattern"
  else if review.actor = "" then .error "actor: string should have at least 1 character"
  else if review.actor.length > 320 then .error "actor: string should have at most 320 characters"
  else if review.reviewed_text.length > 131072 then .error "reviewed_text: string should have at most 131072 characters"
  else if review.reason.length > 2000 then .error "reason: string should have at most 2000 characters"
  else .ok ()

def LearningReview.validate_action (review : LearningReview) : Except String Unit :=
  if isBlank review.actor then .error "actor must identify the human reviewer"
  else if review.action = .accept ∧ isBlank review.reviewed_text then .error "accept requires reviewed learning text"
  else if review.action = .reject ∧ (review.target_tier.isSome ∨ review.reviewed_text ≠ "") then
    .error "reject cannot write learning text or select a tier"
  else if review.action = .promote then
    if review.target_tier ≠ some .firm ∧ review.target_tier ≠ some .area then
      .error "promote requires firm or area target tier"
    else if isBlank review.reviewed_text then .error "promote requires reviewed learning text"
    else if (review.scrub_diff_sha256.all is_sha256 && review.scrub_diff_sha256.isSome) = false then
      .error "promote requires the exact rendered scrub-diff SHA-256"
    else if ¬review.excluded_matter_ids.Nodup then .error "excluded_matter_ids may not contain duplicates"
    else .ok ()
  else if review.target_tier.isSome then .error "only promote may select a target tier"
  else if review.scrub_diff_sha256.isSome then .error "only promote may bind a rendered scrub diff"
  else if review.excluded_matter_ids ≠ [] then .error "only promote may declare ethical-wall exclusions"
  else .ok ()

def LearningReview.validate (review : LearningReview) : Except String Unit := do
  review.validate_fields
  review.validate_action

/-- The folded state of a proposal, with its history. -/
structure LearningProposalView where
  proposal : LearningProposal
  status : LearningStatus
  accepted_text : Option String
  active_tiers : List LearningTier
  review_history : List LearningReview
  deriving DecidableEq, Repr

/-- The arguments of a review, which its digest is taken of. -/
structure ReviewArgs where
  proposal_id : String
  action : LearningReviewAction
  actor : String
  channel : LearningReviewChannel
  recorded_at : String
  reviewed_text : String := ""
  target_tier : Option LearningTier := none
  reason : String := ""
  confirm_scrub_diff : Bool := false
  scrub_diff_sha256 : Option Digest := none
  excluded_matter_ids : List String := []
  deriving DecidableEq, Repr

/-- What the calls take from outside this module. `sharing_scrub` reads the configuration, the manifest and the facts of
    a matter; `separated` says why a matter may not open the firm profile. -/
structure Outside (S : Type) where
  sha256_text : String → Digest
  /-- The first 16 digits of the canonical digests that name imports, proposals and reviews. -/
  import_digest : (matter_id run_id source_sha256 : String) → String
  proposal_digest : (import_id anchor_id before after : String) → String
  review_digest : ReviewArgs → String
  /-- The marked-up text of a change, and how many words it changes. -/
  critic_markup : (before after : String) → String × Nat
  sharing_scrub : S → String → Except String String
  firm_root : Bool
  separated : (matter_id : String) → Except String Unit

deriving instance DecidableEq for ContextContribution

variable {S : Type} (hash : String → Digest)

/-- One reviewed event in the shared profile. -/
structure FirmLearningEvent where
  source_matter_id : String
  review : LearningReview
  contribution : ContextContribution hash
  deriving DecidableEq

/-- `validate_review_binding`. -/
def FirmLearningEvent.binds (event : FirmLearningEvent hash) : Bool :=
  let tier := event.review.target_tier.elim "None" LearningTier.value
  let expected := s!"{tier}-learning-{event.review.proposal_id}"
  event.review.action = .promote && event.contribution.contribution_id = expected &&
    event.contribution.source_matter_id = event.review.source_matter_id &&
    event.source_matter_id = event.review.source_matter_id

/-! ### Stores

A directory maps the names of its files to their records. The temporary file of a write that died may be torn: it has no
record. -/

abbrev Directory (α : Type) := Dict String (Option α)

/-- `f"{name}.json"`. -/
def json_file (name : String) : String := name ++ ".json"

structure Vault (S : Type) (hash : String → Digest) where
  /-- What the sharing scrub reads. -/
  sources : S
  imports : Directory LearningImportBundle
  /-- The digests of the retained edited documents. -/
  source_copies : Dict String Digest
  reviews : List LearningReview
  contributions : Directory (ContextContribution hash)

/-- One entry of `learning-preferences.yaml`. -/
structure Preference where
  contribution_id : String
  source_matter_id : String
  tasks : List String
  excluded_matter_ids : List String
  text : String
  deriving DecidableEq, Repr

structure ReviewGroup where
  task : String
  contribution_ids : List String
  deriving DecidableEq, Repr

structure Preferences where
  preferences : List Preference
  potential_conflict_review : List ReviewGroup
  deriving DecidableEq, Repr

structure Profile (hash : String → Digest) where
  learnings : Directory (FirmLearningEvent hash)
  public_candidates : Directory (FirmLearningEvent hash)
  preferences : Option Preferences

variable {hash}

/-! ### Proposals and their history -/

/-- `LearningStore.list_bundles`. -/
def Vault.list_bundles (vault : Vault S hash) : Except LearningError (List LearningImportBundle) :=
  (vault.imports.entries.sortBy (·.1)).mapM fun file =>
    match file.2 with
    | none => .error (.learning_import s!"learning import '{file.1}' is invalid")
    | some bundle => .ok bundle

/-- What one review changes in the view of its proposal. -/
def LearningProposalView.fold (view : LearningProposalView) (event : LearningReview) : LearningProposalView :=
  match event.action with
  | .accept => { view with status := .accepted, accepted_text := some event.reviewed_text, active_tiers := [.matter] }
  | .reject => { view with status := .rejected }
  | .promote =>
    match event.target_tier with
    | none => view
    | some tier => if tier ∈ view.active_tiers then view else { view with active_tiers := view.active_tiers ++ [tier] }

/-- The reviews of one proposal. -/
def Vault.history (vault : Vault S hash) (proposal_id : String) : List LearningReview :=
  vault.reviews.filter (·.proposal_id = proposal_id)

def Vault.view (vault : Vault S hash) (proposal : LearningProposal) : LearningProposalView :=
  (vault.history proposal.proposal_id).foldl .fold
    ⟨proposal, .needs_review, none, [], vault.history proposal.proposal_id⟩

/-- `LearningStore.list_all`. -/
def Vault.list_all (vault : Vault S hash) : Except LearningError (List LearningProposalView) := do
  let bundles ← vault.list_bundles
  return ((bundles.flatMap (·.proposals)).map vault.view).sortBy fun view =>
    toLex (view.proposal.created_at, view.proposal.proposal_id)

/-- `LearningStore.get`. -/
def Vault.get (vault : Vault S hash) (proposal_id : String) : Except LearningError (Option LearningProposalView) := do
  return (← vault.list_all).find? (·.proposal.proposal_id = proposal_id)

/-! ### Contributions -/

/-- Builds a contribution where its validator passes; `sha256` is the digest of the text. -/
def contribution? (contribution_id text provenance_locator source_matter_id : String) (task_scope : List String)
    (approval_state : ContextApprovalState) (sharing_scope : ContextSharingScope) (excluded_matter_ids : List String) :
    Except LearningError (ContextContribution hash) :=
  if some_text : text = "" then .error (.validation "text: string should have at least 1 character")
  else if locator_length : ¬(1 ≤ provenance_locator.length ∧ provenance_locator.length ≤ 1024) then
    .error (.validation "provenance_locator: string should have between 1 and 1024 characters")
  else if stable_id : is_contribution_id contribution_id = false then
    .error (.validation "contribution_id must be a stable lowercase identifier")
  else if digest_shape : is_sha256 (hash text) = false then
    .error (.validation "sha256 must be exactly 64 lowercase hexadecimal characters")
  else if locator_line : single_line provenance_locator = false then
    .error (.validation "provenance_locator may not contain control-line characters")
  else if tasks_nodup : ¬task_scope.Nodup then .error (.validation "task_scope may not contain duplicates")
  else if matters_nodup : ¬excluded_matter_ids.Nodup then
    .error (.validation "excluded_matter_ids may not contain duplicates")
  else if unwalled : sharing_scope = .matter ∧ excluded_matter_ids ≠ [] then
    .error (.validation "matter-scoped contributions cannot declare ethical-wall exclusions")
  else .ok
    { contribution_id, kind := .learning, text, sha256 := hash text, provenance_locator, source_matter_id,
      task_scope, permission := .matter_confidential, approval_state, sharing_scope, excluded_matter_ids,
      stable_id := by simpa using stable_id, some_text, digest_shape := by simpa using digest_shape, digest := rfl,
      locator_length := not_not.mp locator_length, locator_line := by simpa using locator_line,
      tasks_nodup := not_not.mp tasks_nodup, personas_nodup := List.nodup_nil,
      matters_nodup := not_not.mp matters_nodup,
      unwalled := fun scope => not_not.mp fun some => unwalled ⟨scope, some⟩ }

/-- What an accepted proposal contributes to its own matter. -/
def accepted_contribution (current : LearningProposalView) (review : LearningReview) :
    Except LearningError (ContextContribution hash) :=
  contribution? s!"learning:{current.proposal.proposal_id}" review.reviewed_text
    s!"learnings/reviews.jsonl#{review.review_id}" current.proposal.source_matter_id [current.proposal.task] .accepted
    .matter []

def shared_contribution (proposal : LearningProposalView) (review : LearningReview) (tier : LearningTier)
    (scrubbed_text : String) : Except LearningError (ContextContribution hash) :=
  let contribution_id := s!"{tier.value}-learning-{proposal.proposal.proposal_id}"
  contribution? contribution_id scrubbed_text s!"firm-profile/{tier.value}/{contribution_id}.json#{review.review_id}"
    proposal.proposal.source_matter_id [proposal.proposal.task] (if tier = .firm then .accepted else .pending)
    (if tier = .firm then .firm else .public_area) review.excluded_matter_ids

/-- The event a promotion publishes; its review carries the scrubbed text. -/
def firm_event (proposal : LearningProposalView) (review : LearningReview) (tier : LearningTier)
    (scrubbed_text : String) : Except LearningError (FirmLearningEvent hash) := do
  let contribution ← shared_contribution proposal review tier scrubbed_text
  let event : FirmLearningEvent hash :=
    ⟨review.source_matter_id, { review with reviewed_text := contribution.text }, contribution⟩
  if event.binds then return event
  else throw (.validation "firm learning event does not bind its promotion review")

/-- `ContextContributionStore.put`. -/
def put_contribution (files : Directory (ContextContribution hash))
    (record : ContextContribution hash) : Except LearningError (Directory (ContextContribution hash)) :=
  match files.get? (json_file record.contribution_id) with
  | none => .ok (files.insert (json_file record.contribution_id) (some record))
  | some stored =>
    if stored = some record then .ok files
    else .error (.orchestrator
      s!"context contribution '{record.contribution_id}' already exists with different content")

/-- `ContextContributionStore.list_all`. -/
def list_contributions (files : Directory (ContextContribution hash)) :
    Except Error (List (ContextContribution hash)) :=
  (files.entries.sortBy (·.1)).mapM fun file =>
    match file.2 with
    | none => .error (.orchestrator s!"context contribution source '{file.1}' is invalid")
    | some record =>
      if file.1 = json_file record.contribution_id then .ok record
      else .error (.orchestrator
        s!"context contribution source '{file.1}' does not match record identity '{record.contribution_id}'")

/-! ### The firm profile -/

/-- `_events`. -/
def read_events (files : Directory (FirmLearningEvent hash)) : Except LearningError (List (FirmLearningEvent hash)) :=
  (files.entries.sortBy (·.1)).mapM fun file =>
    match file.2 with
    | none => .error (.learning_import s!"firm learning '{file.1}' is invalid")
    | some event =>
      match event.review.validate with
      | .error _ => .error (.learning_import s!"firm learning '{file.1}' is invalid")
      | .ok () =>
        if event.binds then .ok event else .error (.learning_import s!"firm learning '{file.1}' is invalid")

def FirmLearningEvent.preference (event : FirmLearningEvent hash) : Preference where
  contribution_id := event.contribution.contribution_id
  source_matter_id := event.contribution.source_matter_id
  tasks := event.contribution.task_scope
  excluded_matter_ids := event.contribution.excluded_matter_ids
  text := event.contribution.text

/-- What `_refresh_preferences` renders. -/
def preferences_of (events : List (FirmLearningEvent hash)) : Preferences where
  preferences := events.map (·.preference)
  potential_conflict_review :=
    let tasks := ((events.flatMap (·.contribution.task_scope)).dedup).sortBy id
    (tasks.map fun task => ReviewGroup.mk task
      (((events.filter (task ∈ ·.contribution.task_scope)).map (·.contribution.contribution_id)).sortBy id)).filter
      (·.contribution_ids.length > 1)

/-- `_put_locked`, in the directory of the event. -/
def put_event (files : Directory (FirmLearningEvent hash)) (event : FirmLearningEvent hash) :
    Except LearningError (Directory (FirmLearningEvent hash)) :=
  match files.get? (json_file event.contribution.contribution_id) with
  | none => .ok (files.insert (json_file event.contribution.contribution_id) (some event))
  | some stored =>
    if stored = some event then .ok files
    else .error (.learning_import "firm learning id conflicts with stored content")

/-! ### Imports -/

variable (x : Outside S)

/-- The proposal of one recovered anchor; none where it reads as before. -/
def propose_anchored_learning (recovered : RecoveredAnchor) (baseline_text import_id matter_id : String)
    (run_id : RunId) (task created_at : String) : Except LearningError (Option LearningProposal) :=
  if baseline_text = recovered.current_text then .ok none
  else
    let (markup, changes) := x.critic_markup baseline_text recovered.current_text
    let proposed_text :=
      s!"For {recovered.anchor_id}, prefer the attorney-reviewed edited language: {recovered.current_text}"
    let baseline_sha256 := x.sha256_text baseline_text
    let edited_sha256 := x.sha256_text recovered.current_text
    if (is_sha256 baseline_sha256 && is_sha256 edited_sha256) = false then
      .error (.validation "baseline_sha256: string should match the pattern")
    else if changes = 0 then .error (.validation "word_changes: input should be greater than or equal to 1")
    else if proposed_text.length > 131072 then
      .error (.validation "proposed_text: string should have at most 131072 characters")
    else .ok (some
      { proposal_id := "learning-" ++ x.proposal_digest import_id recovered.anchor_id baseline_sha256 edited_sha256,
        import_id, source_matter_id := matter_id, run_id, task, anchor_id := recovered.anchor_id, baseline_text,
        edited_text := recovered.current_text, baseline_sha256, edited_sha256, critic_markup := markup,
        word_changes := changes, proposed_text, created_at })

/-- An import as its caller asks for it: the run and what it expects, the recovered document, and the anchors of the
    run's master. -/
structure ImportArgs where
  matter_id : String
  run_id : RunId
  task : String
  expected : List String
  recovery : DocxEditRecovery
  source_name : String
  imported_at : String
  baseline : Dict String String

/-- A plain file name. -/
def plain_source_name (name : String) : Bool :=
  name != "" && name != "." && !isIn "/" name && single_line name

def ImportArgs.import_id (args : ImportArgs) : String :=
  "learning-import-" ++ x.import_digest args.matter_id args.run_id args.recovery.source_sha256

/-- What keeps an import from being routed. -/
def ImportArgs.blockers (args : ImportArgs) : List String :=
  args.recovery.blockers ++ (args.expected.filter fun anchor => !args.baseline.contains anchor).map fun anchor =>
    s!"baseline anchor '{anchor}' is missing"

def ImportArgs.auto_routable (args : ImportArgs) : Bool := args.recovery.auto_routable && args.blockers.isEmpty

def ImportArgs.record (args : ImportArgs) : LearningImportRecord where
  import_id := args.import_id x
  source_matter_id := args.matter_id
  run_id := args.run_id
  source_name := args.source_name
  source_sha256 := args.recovery.source_sha256
  imported_at := args.imported_at
  auto_routable := args.auto_routable
  blockers := args.blockers
  anchors := args.recovery.anchors

def ImportArgs.proposals (args : ImportArgs) : Except LearningError (List LearningProposal) :=
  if args.auto_routable then do
    let proposals ← args.recovery.anchors.mapM fun recovered =>
      propose_anchored_learning x recovered ((args.baseline.get? recovered.anchor_id).getD "") (args.import_id x)
        args.matter_id args.run_id args.task args.imported_at
    return proposals.filterMap id
  else .ok []

/-- The bundle of a new import. -/
def ImportArgs.bundle (args : ImportArgs) : Except LearningError LearningImportBundle :=
  if args.source_name.length > 255 then .error (.validation "source_name: string should have at most 255 characters")
  else do return ⟨args.record x, ← args.proposals x⟩

/-- `publish_source`. -/
def publish_source (copies : Dict String Digest) (import_id : String) (source_sha256 : Digest) :
    Except LearningError (Dict String Digest) :=
  match copies.get? import_id with
  | none => .ok (copies.insert import_id source_sha256)
  | some stored =>
    if stored = source_sha256 then .ok copies
    else .error (.learning_import "stored edited DOCX conflicts with import identity")

/-- The record is of the same document for the same run. -/
def LearningImportRecord.Names (record : LearningImportRecord) (import_id : String) (args : ImportArgs) : Prop :=
  record.import_id = import_id ∧ record.source_matter_id = args.matter_id ∧ record.run_id = args.run_id ∧
    record.source_sha256 = args.recovery.source_sha256

instance (record : LearningImportRecord) (import_id : String) (args : ImportArgs) :
    Decidable (record.Names import_id args) :=
  inferInstanceAs (Decidable (_ ∧ _))

/-- The retained document and the bundle an import publishes. An import of the same document again publishes the bundle
    that is there. -/
def import_docx_learning (vault : Vault S x.sha256_text) (args : ImportArgs) :
    Except LearningError (Dict String Digest × LearningImportBundle) :=
  if plain_source_name args.source_name = false then .error (.learning_import "source_name must be a plain filename")
  else
    match vault.imports.get? (json_file (args.import_id x)) with
    | some none => .error (.learning_import s!"learning import '{args.import_id x}' is invalid")
    | some (some existing) =>
      if existing.import_record.Names (args.import_id x) args then do
        return (← publish_source vault.source_copies (args.import_id x) args.recovery.source_sha256, existing)
      else .error (.learning_import "learning import identity conflicts with stored source")
    | none => do
      let bundle ← args.bundle x
      return (← publish_source vault.source_copies (args.import_id x) args.recovery.source_sha256, bundle)

/-! ### A review -/

/-- Where a review stands. Between `locked` and `recorded` it holds the lock of its run, at `published` also the lock of
    the firm profile. -/
inductive Phase where
  | waiting
  | locked
  | checked
  | published
  | filed
  | unrecorded
  | recorded
  | answering
  deriving DecidableEq, Repr

/-- A review under way: its arguments, the view its checks were made on and the one read under the lock, the scrubbed
    text of a promotion, and the record it is to leave. -/
structure Call where
  matter_id : String
  args : ReviewArgs
  current : LearningProposalView
  locked_current : LearningProposalView
  scrubbed_text : Option String
  review : LearningReview
  phase : Phase

/-- The digest of the rendered diff of `render_scrub_preview`. -/
def rendered_diff_sha256 (proposal : LearningProposalView) (scrubbed_text : String) : Digest :=
  let baseline := match proposal.accepted_text with
    | some text => if text = "" then proposal.proposal.proposed_text else text
    | none => proposal.proposal.proposed_text
  x.sha256_text (x.critic_markup baseline scrubbed_text).1

/-- The record of a review, before its checks. -/
def ReviewArgs.review (args : ReviewArgs) (current : LearningProposalView) : LearningReview where
  review_id := "learning-review-" ++ x.review_digest args
  source_matter_id := current.proposal.source_matter_id
  proposal_id := args.proposal_id
  action := args.action
  actor := args.actor
  channel := args.channel
  recorded_at := args.recorded_at
  reviewed_text := args.reviewed_text
  target_tier := args.target_tier
  reason := args.reason
  confirm_scrub_diff := args.confirm_scrub_diff
  scrub_diff_sha256 := args.scrub_diff_sha256
  excluded_matter_ids := args.excluded_matter_ids

/-- The text a promotion may share, once its reviewer has confirmed the diff it makes. -/
def scrub_confirmed (vault : Vault S x.sha256_text) (args : ReviewArgs) (current : LearningProposalView) :
    Except LearningError String := do
  let scrubbed ← (x.sharing_scrub vault.sources args.reviewed_text).mapError .learning_import
  if args.scrub_diff_sha256 ≠ some (rendered_diff_sha256 x current scrubbed) then
    .error (.learning_import "promotion scrub-diff SHA-256 does not match the exact rendered review diff")
  else if args.target_tier = some .area ∧ args.confirm_scrub_diff = false then
    .error (.learning_import "area promotion requires confirmed rendered scrub diff")
  else .ok scrubbed

/-- The firm profile a promotion is put into can be opened. -/
def open_profile (matter_id : String) : Except LearningError Unit :=
  if x.firm_root = false then
    .error (.learning_import "MOOTLOOP_FIRM_PROFILE_ROOT is required for shared learning promotion")
  else (x.separated matter_id).mapError .learning_import

/-- What only a promotion is checked for: the text it shares. -/
def promotion_text (vault : Vault S x.sha256_text) (matter_id : String) (args : ReviewArgs)
    (current : LearningProposalView) : Except LearningError (Option String) :=
  if args.action = .promote then do
    let scrubbed ← scrub_confirmed x vault args current
    open_profile x matter_id
    return some scrubbed
  else .ok none

/-- What `review_learning_proposal` does before it takes the lock of the run. -/
def preflight (vault : Vault S x.sha256_text) (matter_id : String) (args : ReviewArgs) : Except LearningError Call :=
  if isBlank args.actor then .error (.learning_import "actor must identify the human reviewer")
  else do
    match ← vault.get args.proposal_id with
    | none => .error (.learning_import s!"unknown learning proposal '{args.proposal_id}'")
    | some current =>
      if args.action = .promote ∧ current.status ≠ .accepted then
        .error (.learning_import "learning proposal must be accepted before promotion")
      else do
        let scrubbed_text ← promotion_text x vault matter_id args current
        match args.excluded_matter_ids.find? fun excluded => !valid_id excluded with
        | some excluded => .error (.learning_import s!"invalid excluded matter_id '{excluded}'")
        | none => do
          (args.review x current).validate.mapError .learning_import
          return ⟨matter_id, args, current, current, scrubbed_text, args.review x current, .waiting⟩

/-- The fields a retried decision must repeat: all but the id and the time. -/
def LearningReview.retry_form (review : LearningReview) : LearningReview :=
  { review with review_id := "", recorded_at := "" }

/-- The first decision in a history. -/
def final_review (history : List LearningReview) : Option LearningReview :=
  history.find? fun review => review.action = .accept ∨ review.action = .reject

/-- The record a call is to leave: its own, or the decision that is made already where the call repeats it. -/
def settled_review (call : Call) (locked_current : LearningProposalView) : Except LearningError LearningReview :=
  if call.args.action = .promote then
    if locked_current.status = .accepted then .ok call.review
    else .error (.learning_import "learning proposal must be accepted before promotion")
  else if locked_current.status = .needs_review then .ok call.review
  else
    match final_review locked_current.review_history with
    | none => .error (.learning_import "learning proposal already has a final review")
    | some original =>
      if original.retry_form = call.review.retry_form then .ok original
      else .error (.learning_import "learning proposal already has a final review")

/-- The checks under the lock of the run. -/
def locked_check (vault : Vault S x.sha256_text) (call : Call) : Except LearningError Call := do
  match ← vault.get call.args.proposal_id with
  | none => .error (.learning_import s!"unknown learning proposal '{call.args.proposal_id}'")
  | some locked_current =>
    let review ← settled_review call locked_current
    return { call with locked_current, review, phase := if call.args.action = .promote then .checked else .filed }

/-- The read of `append_review`: whether the record is there already. -/
def recorded_already (reviews : List LearningReview) (review : LearningReview) : Except LearningError Bool :=
  match reviews.reverse.find? (·.review_id = review.review_id) with
  | none => .ok false
  | some prior =>
    if prior = review then .ok true
    else .error (.learning_import "learning review id conflicts with stored action")

/-! ### Interleavings -/

/-- What a caller was told. -/
structure Answer where
  matter_id : String
  args : ReviewArgs
  result : Except LearningError LearningProposalView

structure System (x : Outside S) where
  vaults : String → Vault S x.sha256_text
  profile : Profile x.sha256_text
  calls : Dict Nat Call
  answers : List Answer

/-- What a write-once publication that died leaves beside its file: the whole body or a torn one, under a fresh name. -/
structure Debris where
  random : String
  whole : Bool
  deriving DecidableEq, Repr

/-- How far an import gets. -/
inductive ImportEnd where
  | returned
  | after_source
  | dropped (debris : Debris)
  deriving DecidableEq, Repr

/-- The steps. Each but the first three is a step of one call: it takes the run lock, makes its checks under it,
    publishes the firm event, renders the preferences, looks for its record, appends it, publishes the contribution and
    gives the lock back, and answers. A call can die instead, and so leaves no answer. -/
inductive Act (S : Type) where
  | import_learning (args : ImportArgs) (ending : ImportEnd)
  | change_sources (matter_id : String) (sources : S)
  | enter (id : Nat) (matter_id : String) (args : ReviewArgs)
  | acquire (id : Nat)
  | check (id : Nat)
  | publish (id : Nat)
  | refresh (id : Nat)
  | look (id : Nat)
  | append (id : Nat)
  | contribute (id : Nat)
  | answer (id : Nat)
  | die (id : Nat) (debris : Option Debris)

variable {x}

def Call.holds_run (call : Call) : Bool := call.phase ≠ .waiting ∧ call.phase ≠ .answering

/-- Whether the lock of a run is held. -/
def System.run_held (s : System x) (matter_id : String) (run_id : RunId) : Bool :=
  s.calls.values.any fun call =>
    call.matter_id = matter_id && call.current.proposal.run_id = run_id && call.holds_run

/-- Whether the lock of the firm profile is held. -/
def System.profile_held (s : System x) : Bool := s.calls.values.any (·.phase = .published)

def System.in_vault (s : System x) (matter_id : String) (f : Vault S x.sha256_text → Vault S x.sha256_text) :
    System x :=
  { s with vaults := fun m => if m = matter_id then f (s.vaults m) else s.vaults m }

def System.goes_on (s : System x) (id : Nat) (call : Call) : System x := { s with calls := s.calls.insert id call }

/-- The call ends with an answer. -/
def System.ends (s : System x) (id : Nat) (call : Call) (result : Except LearningError LearningProposalView) :
    System x :=
  { s with calls := s.calls.erase id, answers := s.answers ++ [⟨call.matter_id, call.args, result⟩] }

/-- The temporary file in the directory of the file, where the name is free. -/
def leave {α : Type} (files : Directory α) (file : String) (body : α) (debris : Debris) : Option (Directory α) :=
  let temp := temp_name debris.random file
  if files.contains temp then none else some (files.insert temp (if debris.whole then some body else none))

/-- The event a call publishes. -/
def Call.event (call : Call) : Except LearningError (FirmLearningEvent x.sha256_text) :=
  match call.args.target_tier, call.scrubbed_text with
  | some tier, some scrubbed_text => firm_event call.locked_current call.review tier scrubbed_text
  | _, _ => .error .assertion

/-- The profile with the event of a call in it. -/
def Profile.put (profile : Profile x.sha256_text) (tier : LearningTier) (event : FirmLearningEvent x.sha256_text) :
    Except LearningError (Profile x.sha256_text) :=
  if tier = .area then do return { profile with public_candidates := ← put_event profile.public_candidates event }
  else do return { profile with learnings := ← put_event profile.learnings event }

/-- The profile with the debris of a publication in it. -/
def Profile.leave (profile : Profile x.sha256_text) (tier : LearningTier) (event : FirmLearningEvent x.sha256_text)
    (debris : Debris) : Option (Profile x.sha256_text) :=
  let file := json_file event.contribution.contribution_id
  if tier = .area then (Learnings.leave profile.public_candidates file event debris).map fun files =>
    { profile with public_candidates := files }
  else (Learnings.leave profile.learnings file event debris).map fun files => { profile with learnings := files }

/-- The step of a call that is in the phase the step starts from. -/
def System.of_call (s : System x) (id : Nat) (phase : Phase) (f : Call → Option (System x)) : Option (System x) :=
  match s.calls.get? id with
  | some call => if call.phase = phase then f call else none
  | none => none

/-- Goes on with what a computation returns; what it raises ends the call. -/
def System.attempt {α : Type} (s : System x) (id : Nat) (call : Call) (r : Except LearningError α) (f : α → System x) :
    System x :=
  match r with
  | .ok a => f a
  | .error e => s.ends id call (.error e)

def step (s : System x) : Act S → Option (System x)
  | .import_learning args ending =>
    if s.run_held args.matter_id args.run_id then none
    else
      match import_docx_learning x (s.vaults args.matter_id) args with
      | .error _ => some s
      | .ok (copies, bundle) =>
        let kept := s.in_vault args.matter_id fun vault => { vault with source_copies := copies }
        let file := json_file (args.import_id x)
        match ending with
        | .after_source => some kept
        | .returned => some (kept.in_vault args.matter_id fun vault =>
            { vault with imports := vault.imports.insert file (some bundle) })
        | .dropped debris =>
          (leave (s.vaults args.matter_id).imports file bundle debris).map fun imports =>
            kept.in_vault args.matter_id fun vault => { vault with imports }
  | .change_sources matter_id sources => some (s.in_vault matter_id fun vault => { vault with sources })
  | .enter id matter_id args =>
    if s.calls.contains id then none
    else
      match preflight x (s.vaults matter_id) matter_id args with
      | .ok call => some (s.goes_on id call)
      | .error e => some { s with answers := s.answers ++ [⟨matter_id, args, .error e⟩] }
  | .acquire id => s.of_call id .waiting fun call =>
    if s.run_held call.matter_id call.current.proposal.run_id then
      some (s.ends id call (.error (.lock_held s!"run lock for '{call.current.proposal.run_id}' is held")))
    else some (s.goes_on id { call with phase := .locked })
  | .check id => s.of_call id .locked fun call =>
    some (s.attempt id call (locked_check x (s.vaults call.matter_id) call) (s.goes_on id))
  | .publish id => s.of_call id .checked fun call =>
    if s.profile_held then none
    else
      some (s.attempt id call call.event fun event =>
        let tier := call.args.target_tier.getD .matter
        s.attempt id call (s.profile.put tier event) fun profile =>
          { s with profile }.goes_on id { call with phase := if tier = LearningTier.area then .filed else .published })
  | .refresh id => s.of_call id .published fun call =>
    some (s.attempt id call (read_events s.profile.learnings) fun events =>
      { s with profile := { s.profile with preferences := some (preferences_of events) } }.goes_on id
        { call with phase := .filed })
  | .look id => s.of_call id .filed fun call =>
    some (s.attempt id call (recorded_already (s.vaults call.matter_id).reviews call.review) fun there =>
      s.goes_on id { call with phase := if there then .recorded else .unrecorded })
  | .append id => s.of_call id .unrecorded fun call =>
    some ((s.in_vault call.matter_id fun vault => { vault with reviews := vault.reviews ++ [call.review] }).goes_on id
      { call with phase := .recorded })
  | .contribute id => s.of_call id .recorded fun call =>
    if call.args.action = .accept then
      some (s.attempt id call (accepted_contribution call.current call.review) fun contribution =>
        s.attempt id call (put_contribution (s.vaults call.matter_id).contributions contribution) fun contributions =>
          (s.in_vault call.matter_id fun vault => { vault with contributions }).goes_on id
            { call with phase := .answering })
    else some (s.goes_on id { call with phase := .answering })
  | .answer id => s.of_call id .answering fun call =>
    some (s.attempt id call ((s.vaults call.matter_id).get call.args.proposal_id) fun updated =>
      s.ends id call (match updated with
        | some view => .ok view
        | none => .error .assertion))
  | .die id debris =>
    match s.calls.get? id with
    | none => none
    | some call =>
      let dead : System x := { s with calls := s.calls.erase id }
      match debris with
      | none => some dead
      | some debris =>
        if call.phase = .published ∨ (call.phase = .checked ∧ s.profile_held = false) then
          match call.event with
          | .error _ => none
          | .ok event =>
            (s.profile.leave (call.args.target_tier.getD .matter) event debris).map fun profile => { dead with profile }
        else if call.phase = .recorded ∧ call.args.action = .accept then
          match accepted_contribution call.current call.review with
          | .error _ => none
          | .ok contribution =>
            let file := json_file contribution.contribution_id
            (leave (s.vaults call.matter_id).contributions file contribution debris).map fun contributions =>
              dead.in_vault call.matter_id fun vault => { vault with contributions }
        else none

/-- A step of the system. -/
def Step (s : System x) (act : Act S) (s' : System x) : Prop := step s act = some s'

/-- Empty vaults and an empty profile. -/
def System.initial (sources : String → S) : System x where
  vaults := fun m => ⟨sources m, ∅, ∅, [], ∅⟩
  profile := ⟨∅, ∅, none⟩
  calls := ∅
  answers := []

/-- A system some run of steps leads to. -/
def Reachable (s : System x) : Prop := ∃ sources trace, Transition.Run Step (System.initial sources) trace s

/-! ### Launches -/

/-- The learnings a launch of a matter offers its selection: the contributions of the matter, and the firm's learnings
    where a firm profile is configured. -/
def System.learnings (s : System x) (matter_id : String) :
    Except LearningError (List (ContextContribution x.sha256_text)) := do
  let own ← (list_contributions (s.vaults matter_id).contributions).mapError LearningError.raised
  if x.firm_root then return own ++ (← read_events s.profile.learnings).map (·.contribution) else return own

/-- What a launch of the matter selects of its learnings and the other candidates. -/
def System.launch (s : System x) (matter_id task : String) (others : List (ContextContribution x.sha256_text)) :
    Except LearningError (List (ContextContribution x.sha256_text) × List ContextExclusion) := do
  let learnings ← s.learnings matter_id
  (select_launch_contributions (learnings ++ others) matter_id task).mapError .raised

end MootLoop.Learnings
