import MootLoop.Theorems.Pending

/-! The citations of the served text against the export citation gate: what a pass says of the citations the
    gate scans, and which rendered ones it does not scan. -/

namespace MootLoop
open Durable

variable {x : Externals} {v : Vault} {context : RunContext}

/-! ### First values by key -/

section
variable {α β κ : Type} [DecidableEq κ] {key : α → κ} {value : α → β} {items : List α}

theorem get?_first (k : κ) :
    (items.foldl (fun (found : Dict κ β) item => found.setDefault (key item) (value item)) ∅).get? k =
      (items.find? fun item => key item = k).map value := by
  induction items using List.reverseRecOn with
  | nil => rfl
  | append_singleton rest last ih =>
    rw [List.foldl_append, List.foldl_cons, List.foldl_nil, List.find?_append, Option.map_or, ← ih, Dict.setDefault]
    by_cases known :
        (rest.foldl (fun (found : Dict κ β) item => found.setDefault (key item) (value item)) ∅).contains (key last) = true
    · rw [if_pos known]
      obtain ⟨first, found⟩ := Dict.contains_iff.mp known
      by_cases here : key last = k
      · rw [← here, found]
        rfl
      · simp [here]
    · rw [if_neg known, Dict.get?_insert]
      by_cases here : k = key last
      · subst here
        have absent :
            (rest.foldl (fun (found : Dict κ β) item => found.setDefault (key item) (value item)) ∅).get? (key last) = none := by
          simpa [Dict.contains] using known
        simp [absent]
      · have other : ¬key last = k := fun h => here h.symm
        simp [here, other]

/-- The values are of some items, and every item has one of its key. -/
theorem mem_first {b : β}
    (h : b ∈ (items.foldl (fun (found : Dict κ β) item => found.setDefault (key item) (value item)) ∅).values) :
    ∃ a ∈ items, value a = b := by
  obtain ⟨k, held⟩ := Dict.mem_values.mp h
  rw [get?_first] at held
  obtain ⟨a, found, rfl⟩ := Option.map_eq_some_iff.mp held
  exact ⟨a, List.mem_of_find?_eq_some found, rfl⟩

theorem first_covers (key : α → κ) (value : α → β) {a : α} (h : a ∈ items) : ∃ b ∈ items, key b = key a ∧
    value b ∈ (items.foldl (fun (found : Dict κ β) item => found.setDefault (key item) (value item)) ∅).values := by
  obtain ⟨b, found⟩ := Option.isSome_iff_exists.mp (List.find?_isSome.mpr ⟨a, h, by simp⟩ :
    (items.find? fun item => key item = key a).isSome)
  refine ⟨b, List.mem_of_find?_eq_some found, by simpa using List.find?_some found, Dict.mem_values.mpr ⟨key a, ?_⟩⟩
  rw [get?_first, found]
  rfl

/-- Every value has one with its key among the first ones. -/
theorem first_by_covers (key : α → κ) {a : α} (h : a ∈ items) : ∃ b ∈ first_by key items, key b = key a := by
  obtain ⟨b, -, same, kept⟩ := first_covers key (fun a => a) h
  exact ⟨b, kept, same⟩

end

/-! ### Passing gates -/

theorem gate_of_findings_pass {gate : String} {failures pending : List GateFinding} :
    (gate_of_findings gate failures pending).status = .pass ↔ failures = [] ∧ pending = [] := by
  unfold gate_of_findings
  split
  · next some_fail => simp [some_fail]
  · next no_fail =>
    split
    · next some_pending => simp [some_pending]
    · next no_pending => simpa using ⟨not_not.mp no_fail, not_not.mp no_pending⟩

/-- The existence gate passes exactly when every citation is verified. -/
theorem citation_gate_pass {records : List VerificationRecord} {citations : List Citation} {now : Instant}
    {max_cache_age_days : Nat} : (citation_gate x records citations now max_cache_age_days).status = .pass ↔
      ∀ c ∈ citations, citation_status x records now max_cache_age_days c.citation_id = .verified := by
  unfold citation_gate
  rw [gate_of_findings_pass, List.map_eq_nil_iff, List.map_eq_nil_iff]
  simp only [List.filter_filter, List.filter_eq_nil_iff, List.forall_mem_map]
  refine ⟨fun ⟨settled, certain⟩ c mem => ?_, fun verified => ⟨fun c mem => ?_, fun c mem => ?_⟩⟩
  · by_contra unverified
    by_cases fails : (citation_status x records now max_cache_age_days c.citation_id).fails = true
    · exact settled c mem (by simp [fails, unverified])
    · exact certain c mem (by simp [fails, unverified])
  · simp [verified c mem]
  · simp [verified c mem]

theorem combine_pass {existence support : GateResult} :
    (combine_citation_gates existence support).status = .pass ↔ existence.status = .pass ∧ support.status = .pass := by
  simp only [combine_citation_gates]
  cases existence.status <;> cases support.status <;> decide

/-! ### The citations of the operative drafts -/

section
variable (x) (drafts : List (TaskUnit × Option (TurnId × DraftOutput)))

/-- The citations of some texts of each draft. -/
def citations_of (texts : DraftOutput → List String) : List Citation :=
  drafts.flatMap fun entry =>
    match entry.2 with
    | none => []
    | some (turn_id, draft) => (texts draft).flatMap fun text => extract_citations x text (some turn_id)

/-- The citations the gates look for. -/
def scanned_citations : List Citation := citations_of x drafts cited_texts

/-- The citations of every span rendered into the served document. -/
def rendered_citations : List Citation := citations_of x drafts fun draft => (served_text draft).map (·.2)

def objection_citations : List Citation := citations_of x drafts fun draft => draft.objections.map (·.text)

end

section
variable {drafts : List (TaskUnit × Option (TurnId × DraftOutput))}

theorem mem_citations_of {texts : DraftOutput → List String} {c : Citation} : c ∈ citations_of x drafts texts ↔
    ∃ unit turn_id draft, (unit, some (turn_id, draft)) ∈ drafts ∧
      ∃ text ∈ texts draft, c ∈ extract_citations x text (some turn_id) := by
  simp only [citations_of, List.mem_flatMap]
  constructor
  · rintro ⟨⟨unit, _ | ⟨turn_id, draft⟩⟩, mem, h⟩
    · cases h
    · exact ⟨unit, turn_id, draft, mem, List.mem_flatMap.mp h⟩
  · rintro ⟨unit, turn_id, draft, mem, h⟩
    exact ⟨_, mem, List.mem_flatMap.mpr h⟩

/-- The response and the objections, in order. -/
theorem served_texts (draft : DraftOutput) :
    (served_text draft).map (·.2) = draft.response_text :: draft.objections.map (·.text) := by
  have objections : draft.indexed.map (·.2) = draft.objections := by
    simp [DraftOutput.indexed, List.map_snd_zip]
  simp only [served_text, List.map_cons, List.map_map]
  rw [← objections, List.map_map]
  rfl

theorem mem_rendered_citations {c : Citation} (h : c ∈ rendered_citations x drafts) :
    c ∈ scanned_citations x drafts ∨ c ∈ objection_citations x drafts := by
  obtain ⟨unit, turn_id, draft, mem, text, served, found⟩ := mem_citations_of.mp h
  rw [served_texts] at served
  rcases List.mem_cons.mp served with rfl | objected
  · exact .inl (mem_citations_of.mpr ⟨unit, turn_id, draft, mem, _, List.mem_cons_self, found⟩)
  · exact .inr (mem_citations_of.mpr ⟨unit, turn_id, draft, mem, text, objected, found⟩)

theorem rendered_of_objection {c : Citation} (h : c ∈ objection_citations x drafts) : c ∈ rendered_citations x drafts := by
  obtain ⟨unit, turn_id, draft, mem, text, objected, found⟩ := mem_citations_of.mp h
  refine mem_citations_of.mpr ⟨unit, turn_id, draft, mem, text, ?_, found⟩
  rw [served_texts]
  exact List.mem_cons_of_mem _ objected

end

/-- A passing export gate has verified every citation it scans. -/
theorem scanned_verified {drafts : List (TaskUnit × Option (TurnId × DraftOutput))} {now : String} {instant : Instant}
    {max_cache_age_days : Nat} {result : GateResult} (loaded : v.run_context = .ok context)
    (drafted : operative_drafts context v.state = .ok drafts) (at_now : instant_of x now = .ok instant)
    (gated : citation_export_gate x v now max_cache_age_days = .ok result) (passes : result.status = .pass) {c : Citation}
    (scanned : c ∈ scanned_citations x drafts) :
    citation_status x v.verifications instant max_cache_age_days c.citation_id = .verified := by
  simp only [citation_export_gate, loaded, at_now, citation_export_verdict, operative_citations, drafted, bind,
    Except.bind, pure, Except.pure] at gated
  split at gated
  · cases gated
  · cases gated
    obtain ⟨first, mem, same⟩ := first_by_covers Citation.citation_id scanned
    rw [← same]
    exact citation_gate_pass.mp (combine_pass.mp passes).1 first mem

/-- Where the export gate passes, every rendered citation is verified exactly when those of the objections that
    are in no scanned text are. -/
theorem served_citations_verified {drafts : List (TaskUnit × Option (TurnId × DraftOutput))} {now : String}
    {instant : Instant} {max_cache_age_days : Nat} {result : GateResult} (loaded : v.run_context = .ok context)
    (drafted : operative_drafts context v.state = .ok drafts) (at_now : instant_of x now = .ok instant)
    (gated : citation_export_gate x v now max_cache_age_days = .ok result) (passes : result.status = .pass) :
    (∀ c ∈ rendered_citations x drafts,
        citation_status x v.verifications instant max_cache_age_days c.citation_id = .verified) ↔
      ∀ c ∈ objection_citations x drafts, c.citation_id ∉ (scanned_citations x drafts).map (·.citation_id) →
        citation_status x v.verifications instant max_cache_age_days c.citation_id = .verified := by
  refine ⟨fun verified c objected _ => verified c (rendered_of_objection objected), fun unscanned c rendered => ?_⟩
  rcases mem_rendered_citations rendered with scanned | objected
  · exact scanned_verified loaded drafted at_now gated passes scanned
  · by_cases known : c.citation_id ∈ (scanned_citations x drafts).map (·.citation_id)
    · obtain ⟨c', scanned, same⟩ := List.mem_map.mp known
      rw [← same]
      exact scanned_verified loaded drafted at_now gated passes scanned
    · exact unscanned c objected known

namespace Sample

/-- A single draft is recorded. -/
def record_single (raw : String) : List Act :=
  [.command (.start_run "d" single), .command (.record_turn "r-t0000" raw none "2026-01-05" none)]

/-- The gate and what it leaves open, at a store. -/
def Gated (v : Vault) (P : List (TaskUnit × Option (TurnId × DraftOutput)) → Instant → Prop) : Prop :=
  ∃ context, v.run_context = .ok context ∧ ∃ drafts, operative_drafts context v.state = .ok drafts ∧
    ∃ instant, instant_of citing_externals "2026-01-05" = .ok instant ∧
    ∃ result, citation_export_gate citing_externals v "2026-01-05" 30 = .ok result ∧ result.status = .pass ∧ P drafts instant

instance {v : Vault} {P : List (TaskUnit × Option (TurnId × DraftOutput)) → Instant → Prop}
    [∀ drafts, DecidablePred (P drafts)] : Decidable (Gated v P) := by unfold Gated; infer_instance

theorem answer_and_objection_gated :
    (desk.acts citing_externals hashing 3 (record_single ANSWERING ++ [verify])).any (fun r =>
      decide (Gated r.2.vault fun drafts _ => objection_citations citing_externals drafts = [] ∧
        scanned_citations citing_externals drafts ≠ [])) = true ∧
    (desk.acts citing_externals hashing 3 (record_single OBJECTING)).any (fun r =>
      decide (Gated r.2.vault fun drafts instant => ¬∀ c ∈ rendered_citations citing_externals drafts,
        citation_status citing_externals r.2.vault.verifications instant 30 c.citation_id = .verified)) = true := by
  decide +kernel

/-- Cited in the answer, the authority of a passing gate is verified. -/
theorem served_citations_verified_answer :
    ∃ trace s, Reachable citing_externals hashing 3 trace s ∧ Gated s.vault fun drafts instant =>
      scanned_citations citing_externals drafts ≠ [] ∧ ∀ c ∈ rendered_citations citing_externals drafts,
        citation_status citing_externals s.vault.verifications instant 30 c.citation_id = .verified := by
  obtain ⟨⟨labels, d⟩, ran, checked⟩ := (Option.any_eq_true _ _).mp answer_and_objection_gated.1
  obtain ⟨context, loaded, drafts, drafted, instant, at_now, result, gated, passes, none, cited⟩ := of_decide_eq_true checked
  refine ⟨_, _, Desk.reachable_of_acts ran, context, loaded, drafts, drafted, instant, at_now, result, gated, passes,
    cited, ?_⟩
  refine (served_citations_verified loaded drafted at_now gated passes).mpr fun c objected => ?_
  rw [none] at objected
  cases objected

/-- Cited in an objection, the authority is served unverified under a passing gate. -/
theorem objection_citation_unverified :
    ∃ trace s, Reachable citing_externals hashing 3 trace s ∧ Gated s.vault fun drafts instant =>
      ¬∀ c ∈ rendered_citations citing_externals drafts,
        citation_status citing_externals s.vault.verifications instant 30 c.citation_id = .verified := by
  obtain ⟨⟨labels, d⟩, ran, checked⟩ := (Option.any_eq_true _ _).mp answer_and_objection_gated.2
  exact ⟨_, _, Desk.reachable_of_acts ran, of_decide_eq_true checked⟩

end Sample

end MootLoop
