import MootLoop.ContextAssembly
import MootLoop.Lib.Walk

/-! What a launch selects does not depend on the order of the candidates, and a manifest that captures the selection
    renders every accepted contribution once. -/

namespace MootLoop.ContextAssembly
open Authorities (is_sha256)

variable {hash : String → Digest} {matter_id task : String}

/-! ### The loop -/

/-- The first id met a second time. -/
def first_repeated : List String → List String → Option String
  | _, [] => none
  | seen, id :: ids => if id ∈ seen then some id else first_repeated (id :: seen) ids

theorem first_repeated_none {seen ids : List String} (none_repeats : first_repeated seen ids = none) :
    ids.Nodup ∧ ∀ id ∈ ids, id ∉ seen := by
  induction ids generalizing seen with
  | nil => exact ⟨List.nodup_nil, by simp⟩
  | cons id ids ih =>
    rw [first_repeated] at none_repeats
    split at none_repeats
    · cases none_repeats
    · rename_i fresh
      obtain ⟨nodup, apart⟩ := ih none_repeats
      refine ⟨List.nodup_cons.mpr ⟨fun mem => apart id mem List.mem_cons_self, nodup⟩, ?_⟩
      intro other mem in_seen
      rcases List.mem_cons.mp mem with rfl | mem
      · exact fresh in_seen
      · exact apart other mem (List.mem_cons_of_mem _ in_seen)

def eligible (matter_id task : String) (contribution : ContextContribution hash) : Bool :=
  (exclusion_reason matter_id task contribution).isNone

/-- The record of an exclusion, when there is a reason for one. -/
def exclusion (matter_id task : String) (contribution : ContextContribution hash) : Option ContextExclusion :=
  (exclusion_reason matter_id task contribution).map fun reason =>
    ⟨contribution.contribution_id, contribution.kind, reason⟩

theorem select_loop_eq {rest accepted : List (ContextContribution hash)} {seen : List String}
    {excluded : List ContextExclusion} :
    select_loop matter_id task rest seen accepted excluded =
      match first_repeated seen (rest.map (·.contribution_id)) with
      | some id => .error (.orchestrator s!"duplicate context contribution id '{id}'")
      | none => .ok (accepted ++ rest.filter (eligible matter_id task), excluded ++ rest.filterMap (exclusion matter_id task)) := by
  induction rest generalizing accepted seen excluded with
  | nil => simp [select_loop, first_repeated]
  | cons contribution rest ih =>
    rw [select_loop, List.map_cons, first_repeated]
    split
    · rfl
    · rcases why : exclusion_reason matter_id task contribution with _ | reason
      · have kept : eligible matter_id task contribution = true := by simp [eligible, why]
        have unrecorded : exclusion matter_id task contribution = none := by simp [exclusion, why]
        simp only [ih, List.filter_cons, kept, if_true, List.filterMap_cons, unrecorded, List.append_assoc,
          List.singleton_append]
      · have left_out : eligible matter_id task contribution = false := by simp [eligible, why]
        have recorded : exclusion matter_id task contribution = some ⟨contribution.contribution_id, contribution.kind, reason⟩ := by
          simp [exclusion, why]
        simp [ih, left_out, recorded]

/-- The ids of the candidates in the order the launch goes through them. -/
def launch_ids (candidates : List (ContextContribution hash)) : List String :=
  (candidates.sortBy launch_key).map (·.contribution_id)

theorem select_eq (candidates : List (ContextContribution hash)) :
    select_launch_contributions candidates matter_id task =
      match first_repeated [] (launch_ids candidates) with
      | some id => .error (.orchestrator s!"duplicate context contribution id '{id}'")
      | none =>
        .ok ((candidates.sortBy launch_key).filter (eligible matter_id task),
          ((candidates.sortBy launch_key).filterMap (exclusion matter_id task)).sortBy (·.contribution_id)) := by
  rw [select_launch_contributions, select_loop_eq, launch_ids]
  cases first_repeated [] ((candidates.sortBy launch_key).map (·.contribution_id)) <;> rfl

theorem select_ok {candidates accepted : List (ContextContribution hash)} {excluded : List ContextExclusion}
    (selected : select_launch_contributions candidates matter_id task = .ok (accepted, excluded)) :
    (launch_ids candidates).Nodup ∧ accepted = (candidates.sortBy launch_key).filter (eligible matter_id task) ∧
      excluded = ((candidates.sortBy launch_key).filterMap (exclusion matter_id task)).sortBy (·.contribution_id) := by
  rw [select_eq] at selected
  split at selected
  · cases selected
  · rename_i none_repeats
    cases selected
    exact ⟨(first_repeated_none none_repeats).1, rfl, rfl⟩

/-! ### The order of the candidates -/

theorem launch_ids_perm {candidates candidates' : List (ContextContribution hash)} (same : candidates.Perm candidates') :
    launch_ids candidates = launch_ids candidates' := by
  have keys : (candidates.sortBy launch_key).map launch_key = (candidates'.sortBy launch_key).map launch_key := by
    rw [List.map_sortBy, List.map_sortBy, (same.map launch_key).insertionSort_eq]
  have ids := congrArg (List.map fun key : String ×ₗ String => (ofLex key).2) keys
  rw [List.map_map, List.map_map] at ids
  exact ids

theorem sorted_perm {candidates candidates' : List (ContextContribution hash)} (same : candidates.Perm candidates')
    (nodup : (launch_ids candidates).Nodup) : candidates.sortBy launch_key = candidates'.sortBy launch_key := by
  have ids : (candidates.map (·.contribution_id)).Nodup :=
    ((List.sortBy_perm launch_key candidates).map _).nodup_iff.mp nodup
  have keys : ((candidates.map launch_key).map fun key : String ×ₗ String => (ofLex key).2).Nodup := by
    rw [List.map_map]
    exact ids
  exact same.sortBy_eq keys.of_map

theorem select_perm {candidates candidates' : List (ContextContribution hash)} (same : candidates.Perm candidates') :
    select_launch_contributions candidates matter_id task = select_launch_contributions candidates' matter_id task := by
  rw [select_eq, select_eq, ← launch_ids_perm same]
  cases repeated : first_repeated [] (launch_ids candidates) with
  | some id => rfl
  | none => rw [sorted_perm same (first_repeated_none repeated).1]

/-! ### The two parts -/

/-- Every candidate is accepted or left out, and each one left out has its own record of why. -/
structure Partitions (matter_id task : String) (candidates accepted : List (ContextContribution hash))
    (excluded : List ContextExclusion) : Prop where
  distinct : (candidates.map (·.contribution_id)).Nodup
  parts : ∃ left_out, candidates.Perm (accepted ++ left_out) ∧
    (left_out.map (exclusion matter_id task)).Perm (excluded.map some)
  accepted_eligible : ∀ contribution ∈ accepted, exclusion_reason matter_id task contribution = none

theorem exclusion_none {contribution : ContextContribution hash} :
    exclusion matter_id task contribution = none ↔ eligible matter_id task contribution = true := by
  simp [exclusion, eligible]

theorem exclusions_of_left_out (candidates : List (ContextContribution hash)) :
    (candidates.filter fun c => !eligible matter_id task c).map (exclusion matter_id task) =
      (candidates.filterMap (exclusion matter_id task)).map some := by
  induction candidates with
  | nil => rfl
  | cons contribution candidates ih =>
    rcases recorded : exclusion matter_id task contribution with _ | record
    · have kept := exclusion_none.mp recorded
      rw [List.filter_cons_of_neg (by simp [kept]), List.filterMap_cons_none recorded, ih]
    · have left_out : eligible matter_id task contribution = false := by
        rw [Bool.eq_false_iff]
        intro kept
        rw [exclusion_none.mpr kept] at recorded
        cases recorded
      rw [List.filter_cons_of_pos (by simp [left_out]), List.filterMap_cons_some recorded, List.map_cons, List.map_cons,
        recorded, ih]

theorem select_partitions {candidates accepted : List (ContextContribution hash)} {excluded : List ContextExclusion}
    (selected : select_launch_contributions candidates matter_id task = .ok (accepted, excluded)) :
    Partitions matter_id task candidates accepted excluded := by
  obtain ⟨nodup, rfl, rfl⟩ := select_ok selected
  have sorted := List.sortBy_perm launch_key candidates
  refine ⟨(sorted.map _).nodup_iff.mp nodup, ?_, ?_⟩
  · refine ⟨(candidates.sortBy launch_key).filter fun c => !eligible matter_id task c, ?_, ?_⟩
    · exact sorted.symm.trans (List.filter_append_perm _ _).symm
    · rw [exclusions_of_left_out]
      exact ((List.sortBy_perm _ _).map some).symm
  · intro contribution mem
    have kept := (List.mem_filter.mp mem).2
    rwa [eligible, Option.isNone_iff_eq_none] at kept

/-! ### Rendering -/

theorem token_char_ne {c : Char} (token : Authorities.is_token_char c = true) :
    (!(c == '\r' || c == '\n' || c.toNat == 0)) = true := by
  have range : ('a' ≤ c ∧ c ≤ 'z') ∨ ('0' ≤ c ∧ c ≤ '9') := by
    simpa [Authorities.is_token_char] using token
  simp only [Bool.not_eq_true', Bool.or_eq_false_iff, beq_eq_false_iff_ne]
  refine ⟨⟨?_, ?_⟩, ?_⟩
  · rintro rfl
    revert range
    decide
  · rintro rfl
    revert range
    decide
  · intro nul
    rcases range with ⟨low, _⟩ | ⟨low, _⟩
    · have := UInt32.le_iff_toNat_le.mp low
      change 97 ≤ c.toNat at this
      omega
    · have := UInt32.le_iff_toNat_le.mp low
      change 48 ≤ c.toNat at this
      omega

theorem single_line_id {text : String} (stable : is_contribution_id text = true) : single_line text = true := by
  rw [is_contribution_id] at stable
  rw [single_line]
  split at stable
  · cases stable
  · rename_i first rest chars
    simp only [Bool.and_eq_true, List.all_eq_true] at stable
    obtain ⟨⟨head, _⟩, tail⟩ := stable
    rw [chars, List.all_cons, token_char_ne head, Bool.true_and, List.all_eq_true]
    intro c mem
    have allowed := tail c mem
    simp only [Bool.or_eq_true, beq_iff_eq] at allowed
    rcases allowed with (((token | rfl) | rfl) | rfl) | rfl
    · exact token_char_ne token
    all_goals decide

/-- The validator of an item accepts what the validator of a contribution did. -/
theorem item_valid (contribution : ContextContribution hash) :
    contribution.item.validate_content hash = .ok contribution.item := by
  have id_line : single_line contribution.item.context_id = true := by
    have stable := single_line_id contribution.stable_id
    rw [single_line] at stable ⊢
    have chars : contribution.item.context_id.toList =
        contribution.kind.value.toList ++ ':' :: contribution.contribution_id.toList := by
      simp only [ContextContribution.item, String.toList_append, List.append_assoc]
      rfl
    rw [chars, List.all_append, List.all_cons, stable, Bool.and_true, Bool.and_eq_true]
    refine ⟨?_, by decide⟩
    cases contribution.kind <;> decide
  have id_ne : contribution.item.context_id ≠ "" := by
    intro blank
    have separator : ':' ∈ contribution.item.context_id.toList := by
      simp only [ContextContribution.item, String.toList_append, List.mem_append]
      exact .inl (.inr (List.mem_singleton.mpr rfl))
    rw [blank] at separator
    simp at separator
  have locator_ne : contribution.item.provenance_locator ≠ "" := by
    intro blank
    have long := contribution.locator_length.1
    change contribution.provenance_locator = "" at blank
    rw [blank] at long
    simp at long
  have shape : is_sha256 contribution.item.sha256 = true := contribution.digest_shape
  have digest : contribution.item.sha256 = hash contribution.item.text := contribution.digest
  have locator_line : single_line contribution.item.provenance_locator = true := contribution.locator_line
  rw [ContextItem.validate_content, if_neg (by simp [id_ne, id_line]), if_neg (by simp [shape]), if_neg (by simp [digest]),
    if_neg (by simp [locator_ne, locator_line])]

/-- The manifest of a run in the matter and task that captures the accepted contributions and their sources. -/
structure Captures (matter_id task : String) (accepted : List (ContextContribution hash))
    (manifest : RunContextManifest hash) : Prop where
  matter : manifest.matter_id = matter_id
  same_task : manifest.task = task
  contributions : manifest.context_contributions = accepted
  sources : ∀ contribution ∈ accepted, contribution.source ∈ manifest.sources

variable {manifest : RunContextManifest hash}

theorem contribution_item_ok {contribution : ContextContribution hash}
    (permitted : exclusion_reason manifest.matter_id manifest.task contribution = none)
    (sourced : contribution.source ∈ manifest.sources) :
    contribution_item hash manifest contribution = .ok contribution.item := by
  rw [exclusion_reason] at permitted
  rw [contribution_item]
  split at permitted
  · cases permitted
  split at permitted
  · cases permitted
  split at permitted
  · cases permitted
  split at permitted
  · cases permitted
  rename_i same_matter unwalled in_task approved
  rw [if_neg same_matter, if_neg unwalled, if_neg in_task, if_neg approved, if_neg (by simpa using sourced), item_valid]

theorem contribution_items_ok {accepted : List (ContextContribution hash)}
    (captures : Captures matter_id task accepted manifest)
    (eligible : ∀ contribution ∈ accepted, exclusion_reason matter_id task contribution = none) :
    contribution_items hash manifest = .ok (accepted.map (·.item)) := by
  obtain ⟨rfl, rfl, rfl, sources⟩ := captures
  exact Walk.mapM_map fun c mem => contribution_item_ok (eligible c mem) (sources c mem)

/-! ### The assembled context -/

/-- Items of facts and of corpus passages are not contributions. -/
def contributed (item : ContextItem) : Bool := item.kind ≠ .fact && item.kind ≠ .corpus_passage

theorem validated {item item' : ContextItem} (valid : item.validate_content hash = .ok item') : item' = item := by
  rw [ContextItem.validate_content] at valid
  repeat' split at valid
  all_goals first | cases valid; rfl | cases valid

theorem facts_not_contributed {items : List ContextItem} (walked : manifest.facts.mapM (fact_item hash manifest) = .ok items) :
    ∀ item ∈ items, contributed item = false := by
  intro item mem
  obtain ⟨fact, -, rendered⟩ := Walk.mem_of_mapM walked mem
  rw [validated rendered]
  rfl

theorem corpus_not_contributed {casefold : List Char → List Char} {snapshot : List CorpusTextSnapshot}
    {items : List ContextItem} (walked : corpus_items hash casefold manifest snapshot = .ok items) :
    ∀ item ∈ items, contributed item = false := by
  obtain ⟨passages, cuts, flattened⟩ := bind_ok walked
  cases flattened
  intro item mem
  obtain ⟨found, mem_found, mem⟩ := List.mem_flatten.mp mem
  obtain ⟨captured, -, cut⟩ := Walk.mem_of_mapM cuts mem_found
  unfold document_passages at cut
  split at cut
  · cases cut
  · obtain ⟨bounds, -, rendered⟩ := Walk.mem_of_mapM cut mem
    rw [validated rendered]
    rfl

theorem contributions_contributed (contribution : ContextContribution hash) : contributed contribution.item = true := by
  rw [contributed, ContextContribution.item]
  cases contribution.kind <;> rfl

theorem within_limits_ok {items items' : List ContextItem} (within : within_limits items = .ok items') : items' = items := by
  rw [within_limits] at within
  split at within
  · cases within
  split at within
  · cases within
  dsimp only at within
  split at within
  · cases within
  · cases within
    rfl

/-- The contributions in the context of a discovery run are the captured ones. -/
theorem discovery_context {casefold : List Char → List Char} {snapshot : List CorpusTextSnapshot}
    {items rendered : List ContextItem} (discovery : manifest.input_family = .discovery)
    (contributions : contribution_items hash manifest = .ok rendered)
    (each : ∀ item ∈ rendered, contributed item = true)
    (assembled : assemble_context hash casefold manifest snapshot = .ok items) :
    (items.filter contributed).Perm rendered := by
  obtain ⟨facts, fact_walk, assembled⟩ := bind_ok assembled
  obtain ⟨corpus, corpus_walk, assembled⟩ := bind_ok assembled
  obtain ⟨rendered', same, assembled⟩ := bind_ok assembled
  rw [contributions] at same
  cases same
  rw [discovery, if_neg (by decide)] at assembled
  change within_limits _ = .ok items at assembled
  rw [within_limits_ok assembled]
  have sorted := (List.sortBy_perm item_key (facts ++ corpus ++ rendered)).filter contributed
  have none_of : ∀ other : List ContextItem, (∀ item ∈ other, contributed item = false) → other.filter contributed = [] :=
    fun other plain => List.filter_eq_nil_iff.mpr fun item mem => by simp [plain item mem]
  rwa [List.filter_append, List.filter_append, none_of facts (facts_not_contributed fact_walk),
    none_of corpus (corpus_not_contributed corpus_walk), List.filter_eq_self.mpr each] at sorted

/-- The context of a document run holds the run's documents and nothing else. -/
theorem document_context {casefold : List Char → List Char} {snapshot : List CorpusTextSnapshot} {items : List ContextItem}
    (document : manifest.input_family = .document)
    (assembled : assemble_context hash casefold manifest snapshot = .ok items) :
    ∃ own, document_items hash manifest = .ok own ∧ items.Perm own := by
  obtain ⟨facts, -, assembled⟩ := bind_ok assembled
  obtain ⟨corpus, -, assembled⟩ := bind_ok assembled
  obtain ⟨contributions, -, assembled⟩ := bind_ok assembled
  rw [if_pos document] at assembled
  obtain ⟨own, rendered, assembled⟩ := bind_ok assembled
  rw [within_limits_ok assembled]
  exact ⟨own, rendered, List.sortBy_perm _ _⟩

/-- A turn in the run's task is shown an accepted contribution exactly when the contribution's persona scope admits it. -/
theorem shown_iff {contribution : ContextContribution hash} {items : List ContextItem} (persona : PersonaName)
    (permitted : exclusion_reason matter_id task contribution = none) (mem : contribution.item ∈ items) :
    contribution.item.shown ∈ items_for_turn (items.map ContextItem.shown) task persona ↔
      persona ∈ contribution.persona_scope ∨
        contribution.persona_scope = [] ∧ (persona = .associate ∨ persona = .partner) := by
  have shown : contribution.item.shown ∈ items.map ContextItem.shown := List.mem_map_of_mem mem
  have in_task : contribution.task_scope = [] ∨ task ∈ contribution.task_scope := by
    by_contra outside
    rw [not_or] at outside
    simp [exclusion_reason, outside.1, outside.2] at permitted
    grind
  have task_admits : (contribution.item.shown.task_scope.isEmpty || task ∈ contribution.item.shown.task_scope) = true := by
    rcases in_task with all | named
    · simp [ContextItem.shown, ContextContribution.item, all]
    · simp [ContextItem.shown, ContextContribution.item, named]
  have scope : contribution.item.shown.persona_scope = contribution.persona_scope := rfl
  rw [items_for_turn]
  split
  · rename_i internal
    simp only [List.mem_filter, shown, task_admits, scope, true_and, Bool.true_and, Bool.or_eq_true, List.isEmpty_iff,
      decide_eq_true_eq]
    tauto
  · rename_i outer
    simp only [List.mem_filter, shown, task_admits, scope, true_and, Bool.and_true, decide_eq_true_eq]
    tauto

/-! ### What a launch records and what its context holds -/

/-- The selection is the same in any order of the candidates, splits them in two, and a manifest that captures the
    accepted ones with their sources renders each once: the contributions of a discovery run's context are the ones
    recorded, and a document run's context holds its documents only. -/
theorem launch_selection (casefold : List Char → List Char) (candidates : List (ContextContribution hash))
    (matter_id task : String) :
    (∀ candidates', candidates.Perm candidates' →
      select_launch_contributions candidates' matter_id task = select_launch_contributions candidates matter_id task) ∧
    ∀ accepted excluded, select_launch_contributions candidates matter_id task = .ok (accepted, excluded) →
      Partitions matter_id task candidates accepted excluded ∧
      ∀ manifest, Captures matter_id task accepted manifest →
        contribution_items hash manifest = .ok (accepted.map (·.item)) ∧
        (accepted.map (·.contribution_id)).Nodup ∧
        ∀ snapshot items, assemble_context hash casefold manifest snapshot = .ok items →
          (manifest.input_family = .discovery → (items.filter contributed).Perm (accepted.map (·.item))) ∧
          (manifest.input_family = .document → ∃ own, document_items hash manifest = .ok own ∧ items.Perm own) := by
  refine ⟨fun candidates' same => (select_perm same).symm, ?_⟩
  intro accepted excluded selected
  have partitions := select_partitions selected
  refine ⟨partitions, fun manifest captures => ?_⟩
  have rendered := contribution_items_ok captures partitions.accepted_eligible
  refine ⟨rendered, ?_, fun snapshot items assembled => ⟨fun discovery => ?_, fun document => document_context document assembled⟩⟩
  · obtain ⟨left_out, split, -⟩ := partitions.parts
    have ids := (split.map (·.contribution_id)).nodup_iff.mp partitions.distinct
    rw [List.map_append] at ids
    exact (List.nodup_append.mp ids).1
  · refine discovery_context discovery rendered ?_ assembled
    intro item mem
    obtain ⟨contribution, -, rfl⟩ := List.mem_map.mp mem
    exact contributions_contributed contribution

namespace Sample

def note_text : String := "Use the approved chronology."

def brief_text : String := "\x7b\"input_id\": \"motion-brief\", \"task\": \"motion\"\x7d"

/-- SHA-256 of the two texts. -/
def text_sha256 (text : String) : Digest :=
  if text = note_text then "e83b23f3fc33fa46b256df2186abb0de0cf48da593d5b02d4484edb54c26a3f1"
  else if text = brief_text then "8bad55ffea59b771822dc585e11319dfebf9db481df9b81c0139b620a151e157"
  else ""

/-- An approved note of the firm. -/
def firm_note : ContextContribution text_sha256 where
  contribution_id := "note-chronology"
  kind := .context_note
  text := note_text
  sha256 := text_sha256 note_text
  provenance_locator := "context/contributions/note-chronology.json"
  source_matter_id := "acme"
  permission := .matter_confidential
  approval_state := .approved
  stable_id := by decide
  some_text := by decide
  digest_shape := by decide
  digest := rfl
  locator_length := by decide
  locator_line := by decide
  tasks_nodup := List.nodup_nil
  personas_nodup := List.nodup_nil
  matters_nodup := List.nodup_nil
  unwalled := fun _ => rfl

def brief_input : DocumentTaskInput := { input_id := "motion-brief", brief := brief_text, evidence := [] }

/-- A motion run launched with the note. -/
def motion_run : RunContextManifest text_sha256 where
  matter_id := "acme"
  task := "motion"
  input_family := .document
  document_inputs := [brief_input]
  context_contributions := [firm_note]
  sources := [firm_note.source]

/-- A discovery run launched with the note. -/
def discovery_run : RunContextManifest text_sha256 where
  matter_id := "acme"
  task := "written-discovery"
  input_family := .discovery
  context_contributions := [firm_note]
  sources := [firm_note.source]

end Sample

open Sample

/-- A motion run records the note as used, and its context does not hold it. -/
theorem motion_context_without_note :
    select_launch_contributions [firm_note] "acme" "motion" = .ok ([firm_note], []) ∧
      Captures "acme" "motion" [firm_note] motion_run ∧
      ∃ items, assemble_context text_sha256 id motion_run [] = .ok items ∧ firm_note.item ∉ items := by
  refine ⟨rfl, ⟨rfl, rfl, rfl, by simp [motion_run]⟩, _, rfl, ?_⟩
  decide

theorem launch_selection_note :
    select_launch_contributions [firm_note] "acme" "written-discovery" = .ok ([firm_note], []) ∧
      Captures "acme" "written-discovery" [firm_note] discovery_run ∧
      contribution_items text_sha256 discovery_run = .ok [firm_note.item] ∧
      ∃ items, assemble_context text_sha256 id discovery_run [] = .ok items ∧
        (items.filter contributed).Perm [firm_note.item] := by
  have selected : select_launch_contributions [firm_note] "acme" "written-discovery" = .ok ([firm_note], []) := rfl
  have captures : Captures "acme" "written-discovery" [firm_note] discovery_run :=
    ⟨rfl, rfl, rfl, by simp [discovery_run]⟩
  have assembled : assemble_context text_sha256 id discovery_run [] = .ok [firm_note.item] := rfl
  obtain ⟨-, rendered⟩ := (launch_selection id [firm_note] "acme" "written-discovery").2 _ _ selected
  obtain ⟨items_eq, -, context⟩ := rendered discovery_run captures
  exact ⟨selected, captures, items_eq, _, assembled, (context [] _ assembled).1 rfl⟩

end MootLoop.ContextAssembly
