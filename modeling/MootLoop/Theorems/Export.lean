import MootLoop.Theorems.Pending

/-! The export: which DOCX files stand when it returns. A clean one stands only over a green ledger, and an intact
    sealed generation is left as it is. -/

namespace MootLoop
open Durable

variable {x : Externals} {t : Publishing} {v v' : Vault} {context : RunContext}

/-! ### Names -/

theorem reverse_takeWhile_append {α : Type} {keep : α → Bool} {a b : List α} (h : ∀ c ∈ b, keep c = true) :
    ((a ++ b).reverse.takeWhile keep).reverse = (a.reverse.takeWhile keep).reverse ++ b := by
  rw [List.reverse_append, List.takeWhile_append_of_pos fun c mem => h c (List.mem_reverse.mp mem), List.reverse_append,
    List.reverse_reverse]

/-- Whatever it labels, a DRAFT copy has a DRAFT name. -/
theorem draft_copy_named (directory label : String) : is_draft_name (directory ++ label ++ ".DRAFT.docx") = true := by
  have split : (directory ++ label ++ ".DRAFT.docx").toList = (directory ++ label).toList ++ ".DRAFT.docx".toList := by
    rw [String.toList_append]
  have name : (ascii_lower (path_name (directory ++ label ++ ".DRAFT.docx"))).toList =
      ((directory ++ label).toList.reverse.takeWhile (· ≠ '/')).reverse.map Char.toLower ++ ".draft.docx".toList := by
    rw [ascii_lower, path_name, String.toList_ofList, String.toList_ofList, split,
      reverse_takeWhile_append (List.all_eq_true.mp (by decide)), List.map_append]
    rfl
  unfold is_draft_name isIn
  rw [name, List.any_eq_true]
  exact ⟨".draft.docx".toList, (List.mem_tails _ _).mpr (List.suffix_append _ _), by decide⟩

/-- A file under `docx/`. -/
def docx_path (path : String) : Prop := ∃ name, path = "docx/" ++ name

theorem docx_path.ne_master {path : String} (h : docx_path path) : path ≠ MASTER_PATH := by
  obtain ⟨name, rfl⟩ := h
  intro same
  have first := congrArg (fun text : String => text.toList.head?) same
  simp [MASTER_PATH, String.toList_append] at first

theorem clean_docx_path {path : String} (h : is_clean_docx path = true) : docx_path path ∧ is_draft_name path = false := by
  simp only [is_clean_docx, Bool.and_eq_true, decide_eq_true_eq, Bool.not_eq_true'] at h
  exact ⟨⟨_, h.1.1⟩, h.2⟩

/-! ### What an export leaves alone -/

/-- The two vaults agree on all that the ledger and the attestation are judged by. -/
structure SameEvidence (v v' : Vault) : Prop where
  run_id : v'.run_id = v.run_id
  manifest : v'.manifest = v.manifest
  journal : v'.journal = v.journal
  turn_bodies : v'.turn_bodies = v.turn_bodies
  decisions : v'.decisions = v.decisions
  verifications : v'.verifications = v.verifications
  matter : v'.matter = v.matter
  master : v'.deliverables.get? MASTER_PATH = v.deliverables.get? MASTER_PATH
  attestations : v'.attestations = v.attestations
  access_audit : v'.access_audit = v.access_audit

namespace SameEvidence

theorem refl (v : Vault) : SameEvidence v v := ⟨rfl, rfl, rfl, rfl, rfl, rfl, rfl, rfl, rfl, rfl⟩

theorem trans {v'' : Vault} (h : SameEvidence v v') (h' : SameEvidence v' v'') : SameEvidence v v'' :=
  ⟨h'.1.trans h.1, h'.2.trans h.2, h'.3.trans h.3, h'.4.trans h.4, h'.5.trans h.5, h'.6.trans h.6, h'.7.trans h.7,
    h'.8.trans h.8, h'.9.trans h.9, h'.10.trans h.10⟩

variable (h : SameEvidence v v')
include h

theorem state : v'.state = v.state := congrArg fold h.journal

theorem run_context : v'.run_context = v.run_context := by
  unfold Vault.run_context Vault.started
  rw [h.run_id, h.manifest, h.journal]

theorem attestation_state : MootLoop.attestation_state t v' = MootLoop.attestation_state t v := by
  have heads : contains_intact_head t v' = contains_intact_head t v := by
    unfold contains_intact_head
    rw [h.access_audit]
  unfold MootLoop.attestation_state check_state latest_attestation
  rw [h.attestations, h.run_context, heads]
  simp only [current_master_sha256, current_ledger_head_sha256, current_journal_sha256, current_decisions_sha256,
    h.state, h.master, h.matter, h.verifications, h.journal, h.turn_bodies, h.decisions, Bool.false_eq_true, if_false]

/-- What can be exported stays so. -/
theorem exportable (ready : Exportable t v context) : Exportable t v' context where
  gates := by rw [h.journal, h.state]; exact ready.gates
  decisions := by rw [h.state, h.decisions]; exact ready.decisions
  citations := by rw [h.journal]; exact ready.citations
  attestation := by rw [h.attestation_state]; exact ready.attestation

end SameEvidence

/-- The writes of a publication: DOCX files, retired ones, and a seal. -/
def Write.Docx : Write → Prop
  | .deliverable path _ | .unlink path => docx_path path
  | .export_seal _ => True
  | _ => False

theorem Write.Docx.same {w : Write} (h : w.Docx) (v : Vault) : SameEvidence v (v.commit w) := by
  cases w with
  | deliverable path text =>
    exact ⟨rfl, rfl, rfl, rfl, rfl, rfl, rfl, Dict.get?_insert_ne _ (docx_path.ne_master h).symm _, rfl, rfl⟩
  | unlink path =>
    refine ⟨rfl, rfl, rfl, rfl, rfl, rfl, rfl, ?_, rfl, rfl⟩
    exact (Dict.get?_erase _ _ _).trans (if_neg (docx_path.ne_master h).symm)
  | export_seal _ => exact ⟨rfl, rfl, rfl, rfl, rfl, rfl, rfl, rfl, rfl, rfl⟩
  | _ => exact h.elim

/-- The writes of DRAFT copies. -/
def Write.Draft : Write → Prop
  | .deliverable path _ => docx_path path ∧ is_draft_name path = true
  | _ => False

theorem Write.Draft.docx {w : Write} (h : w.Draft) : w.Docx := by
  cases w with
  | deliverable _ _ => exact h.1
  | _ => exact h.elim

/-! ### Publishing -/

theorem retire_clean_docx_docx : Only Write.Docx retire_clean_docx := by
  intro s w mem
  have clean : ∀ path ∈ clean_docx s, docx_path path := fun path mem =>
    (clean_docx_path (List.mem_filter.mp (List.mem_insertionSort _ |>.mp mem)).2).1
  have only : Only Write.Docx (Prog.forEach (clean_docx s) fun path => (Prog.write (.unlink path) : VaultM Unit)) :=
    .forEach fun path mem => .write (clean path mem)
  exact only s w mem

theorem render_set_docx (is_draft : Bool) (label source : String) (result : ExportResult) :
    Only Write.Docx (render_set t is_draft label source result) := by
  have named : docx_path ("docx/" ++ label ++ (if is_draft then ".DRAFT.docx" else ".docx")) :=
    ⟨label ++ (if is_draft then ".DRAFT.docx" else ".docx"), String.append_assoc ..⟩
  refine .bind (.bind .read fun s => ?_) fun text => .bind (.lift _) fun docx => .bind (.write named) fun _ =>
    .ite (.bind (.write named) fun _ => .pure _) (.pure _)
  split
  · exact .pure _
  · exact .throw _

theorem render_sets_docx (is_draft : Bool) (sources : List (String × String)) (result : ExportResult) :
    Only Write.Docx (render_sets t is_draft sources result) := by
  induction sources generalizing result with
  | nil => exact .pure _
  | cons source rest ih => exact .bind (render_set_docx is_draft _ _ result) fun rendered => ih rendered

theorem render_set_draft (label source : String) (result : ExportResult) :
    Only Write.Draft (render_set t true label source result) := by
  have named : docx_path ("docx/" ++ label ++ ".DRAFT.docx") := ⟨label ++ ".DRAFT.docx", String.append_assoc ..⟩
  refine .bind (.bind .read fun s => ?_) fun text => .bind (.lift _) fun docx =>
    .bind (.write ⟨named, draft_copy_named _ _⟩) fun _ => ?_
  · split
    · exact .pure _
    · exact .throw _
  · dsimp only
    rw [if_neg (by simp)]
    exact .pure _

theorem render_sets_draft (sources : List (String × String)) (result : ExportResult) :
    Only Write.Draft (render_sets t true sources result) := by
  induction sources generalizing result with
  | nil => exact .pure _
  | cons source rest ih => exact .bind (render_set_draft _ _ result) fun rendered => ih rendered

/-- No clean DOCX stands. -/
def NoClean (v : Vault) : Prop := ∀ path, is_clean_docx path = true → v.deliverables.get? path = none

theorem mem_clean_docx {path : String} (clean : is_clean_docx path = true) (kept : v.deliverables.get? path ≠ none) :
    path ∈ clean_docx v := by
  obtain ⟨text, held⟩ := Option.ne_none_iff_exists'.mp kept
  refine (List.mem_insertionSort _).mpr (List.mem_filter.mpr ⟨?_, clean⟩)
  exact List.mem_map.mpr ⟨(path, text), Dict.get?_eq_some.mp held, rfl⟩

theorem unlinked {paths : List String} {path : String} :
    (commits v (paths.map Write.unlink)).deliverables.get? path =
      if path ∈ paths then none else v.deliverables.get? path := by
  induction paths generalizing v with
  | nil => rfl
  | cons first rest ih =>
    rw [List.map_cons, commits_cons, ih, commit_eq, Vault.commit, Dict.get?_erase]
    by_cases here : path = first
    · simp [here]
    · simp [here]

/-- Retiring leaves no clean DOCX. -/
theorem retire_clean_docx_none : wp (fun _ w => w.Docx) retire_clean_docx (fun _ v' => NoClean v' ∧ SameEvidence v v') v := by
  have path : Path (fun _ w => w.Docx) v (retire_clean_docx v).1 := path_of_only (retire_clean_docx_docx v)
  have writes : retire_clean_docx.final v = commits v ((clean_docx v).map Write.unlink) := by
    have loop : wp (fun _ _ => True) retire_clean_docx
        (fun _ v' => v' = commits v ((clean_docx v).map Write.unlink)) v := by
      simp only [retire_clean_docx, wp_bind, wp_read, wp_forEach_write]
      exact ⟨(path_of_only (C := fun _ => True) fun _ _ => trivial), trivial⟩
    exact loop.2
  refine ⟨path, ?_, path.keeps (I := SameEvidence v) (fun s w same docx => same.trans (docx.same s)) (.refl v)⟩
  intro name clean
  rw [writes, unlinked]
  by_cases kept : v.deliverables.get? name = none
  · simp [kept]
  · rw [if_pos (mem_clean_docx clean kept)]

theorem Write.Draft.no_clean {w : Write} (h : w.Draft) (none : NoClean v) : NoClean (v.commit w) := by
  cases w with
  | deliverable path text =>
    intro name clean
    have other : name ≠ path := by
      rintro rfl
      have undrafted := (clean_docx_path clean).2
      rw [h.2] at undrafted
      cases undrafted
    exact (Dict.get?_insert_ne _ other _).trans (none name clean)
  | _ => exact h.elim

/-- After a publication no clean DOCX stands, unless the deliverables qualified and no residue was found. -/
theorem publish_leaves (context : RunContext) {built : ExportResult} (fresh : built.residue_results = []) (pandoc force_draft : Bool) (now : String) :
    wp (fun _ w => w.Docx) (publish t context built pandoc force_draft now)
      (fun r v' => SameEvidence v v' ∧ ∀ result, r = .ok result →
        NoClean v' ∨ built.qualifies_clean context = true ∧ result.residue_clean = true) v := by
  have retires {α : Type} {f : VaultM α} {a : α} {s : Vault} (same : SameEvidence v s) (returns : f = pure a) :
      wp (fun _ w => w.Docx) (do retire_clean_docx; f) (fun r v' => SameEvidence v v' ∧ ∀ result, r = .ok result →
        NoClean v') s := by
    subst returns
    rw [wp_bind]
    refine retire_clean_docx_none.post ?_
    rintro (e | _) s' ⟨none, same'⟩
    · exact ⟨same.trans same', fun _ raised => by cases raised⟩
    · exact (wp_pure _).mpr ⟨same.trans same', fun _ _ => none⟩
  have docx {α : Type} {p : VaultM α} {s : Vault} (h : Only Write.Docx p) :
      wp (fun _ w => w.Docx) p (fun _ s' => SameEvidence s s') s :=
    ⟨path_of_only (h s), (path_of_only (h s)).keeps (fun s w same docx => same.trans (docx.same s)) (.refl s)⟩
  have drafts {α : Type} {p : VaultM α} {s : Vault} (same : SameEvidence v s) (none : NoClean s) (h : Only Write.Draft p) :
      wp (fun _ w => w.Docx) p (fun _ s' => SameEvidence v s' ∧ NoClean s') s :=
    ⟨(path_of_only (h s)).mono fun _ _ => Write.Draft.docx,
      (path_of_only (h s)).keeps (I := fun s => SameEvidence v s ∧ NoClean s)
        (fun s w h draft => ⟨h.1.trans (draft.docx.same s), draft.no_clean h.2⟩) ⟨same, none⟩⟩
  unfold publish
  dsimp only
  rw [wp_ite]
  refine ⟨fun _ => (retires (.refl v) rfl).post fun _ _ h => ⟨h.1, fun result ok => .inl (h.2 result ok)⟩, fun _ => ?_⟩
  rw [wp_bind, wp_when]
  cases qualifies : built.qualifies_clean context with
  | false =>
    refine ⟨fun _ => retire_clean_docx_none.post ?_, fun other => absurd (by simp) other⟩
    rintro (e | _) v₁ ⟨none, same⟩
    · exact ⟨same, fun _ raised => by cases raised⟩
    simp only [Bool.not_false, Bool.or_true, wp_ite, wp_pure]
    refine ⟨fun _ => ⟨same, fun _ _ => .inl none⟩, fun _ => ?_⟩
    rw [wp_bind]
    refine (drafts same none (render_sets_draft _ _)).post ?_
    rintro (e | rendered) v₂ ⟨same', none'⟩
    · exact ⟨same', fun _ raised => by cases raised⟩
    · exact (wp_ite _ _ _).mpr ⟨fun other => (by cases other), fun _ => (wp_pure _).mpr ⟨same', fun _ _ => .inl none'⟩⟩
  | true =>
    refine ⟨fun other => absurd rfl other, fun _ => ?_⟩
    simp only [wp_ite, wp_pure]
    refine ⟨fun _ => ⟨.refl v, fun result ok => .inr ⟨trivial, ?_⟩⟩, fun _ => ?_⟩
    · cases ok
      simp [ExportResult.residue_clean, fresh]
    · rw [wp_bind]
      refine (docx (render_sets_docx _ _ _)).post ?_
      rintro (e | rendered) v₁ same
      · exact ⟨same, fun _ raised => by cases raised⟩
      simp only [if_true, wp_ite]
      refine ⟨fun clean => ?_, fun _ => (retires same rfl).post fun _ _ h => ⟨h.1, fun result ok => .inl (h.2 result ok)⟩⟩
      rw [wp_bind]
      have seals : Only Write.Docx (record_export_seal_locked t now) := by
        refine .bind .read fun s => .bind (.lift _) fun check => ?_
        split
        · exact .ite (.throw _) (.write trivial)
        · exact .throw _
      refine (docx seals).post ?_
      rintro (e | _) v₂ same'
      · exact ⟨same.trans same', fun _ raised => by cases raised⟩
      · refine (wp_pure _).mpr ⟨same.trans same', fun result ok => .inr ⟨trivial, ?_⟩⟩
        cases ok
        exact clean

theorem wp_publishes {α : Type} {p : VaultM α} (h : Only Write.Publishes p) :
    wp (fun _ _ => True) p (fun _ v' => v'.run_context = v.run_context) v := by
  refine ⟨(path_of_only (h v)).mono fun _ _ _ => trivial, ?_⟩
  exact (kept_of_calm fun w mem => (h v w mem).calm).context

/-- What is built is ready only over a green ledger. -/
theorem build_deliverables_leaves (loaded : v.run_context = .ok context) (now : String) :
    wp (fun _ _ => True) (build_deliverables x t context now) (fun r v' => ∀ built, r = .ok built →
      built.residue_results = [] ∧ (built.export_ready = true → Exportable t v' context)) v := by
  simp only [build_deliverables, wp_bind, wp_read, wp_lift]
  cases attestation_state t v with
  | error e => simp
  | ok check =>
    dsimp only
    refine (wp_publishes (.when (build_court_master_publishes context now))).post ?_
    rintro (e | _) v₁ same₁
    · simp
    refine (wp_publishes (build_pages_publishes context now)).post ?_
    rintro (e | verification) v₂ same₂
    · simp
    refine (wp_publishes (.when (build_set_masters_publishes context now))).post ?_
    rintro (e | _) v₃ same₃
    · simp
    have loaded₃ : v₃.run_context = .ok context := ((same₃.trans same₂).trans same₁).trans loaded
    cases built : build_ledger t v₃ with
    | error e => simp [export_ready, built, bind, Except.bind]
    | ok doc =>
      simp only [export_ready, built, bind, Except.bind, pure, Except.pure]
      cases attestation_state t v₃ with
      | error e => simp
      | ok check' =>
        refine (wp_pure _).mpr fun result ok => ?_
        cases ok
        exact ⟨rfl, (export_ready_iff loaded₃ built).mp⟩

theorem render_draft_from_sealed_draft (pandoc : Bool) (result : ExportResult) :
    Only Write.Draft (render_draft_from_sealed t pandoc result) :=
  .ite (render_sets_draft _ _) (.pure _)

/-- DRAFT copies leave every other file. -/
theorem kept_files {ws : List Write} (h : ∀ w ∈ ws, w.Draft) {path : String} (other : is_draft_name path = false) :
    (commits v ws).deliverables.get? path = v.deliverables.get? path := by
  refine (path_of_only h).keeps (I := fun v' : Vault => v'.deliverables.get? path = v.deliverables.get? path) ?_ rfl
  intro v' w same draft
  cases w with
  | deliverable name text =>
    refine (Dict.get?_insert_ne _ ?_ _).trans same
    rintro rfl
    rw [draft.2] at other
    cases other
  | _ => exact draft.elim

namespace Sample

def CLEAN : String := "docx/rog-set1.docx"

def place_clean : Act := .command (.edit_deliverable CLEAN "PK")

/-- A clean DOCX beside a reviewed answer whose run is ready for export. -/
def ready_with_clean : Vault :=
  ((desk.acts citing_externals hashing 3 (answer_and_review ++ [place_clean])).map (·.2.vault)).getD desk.vault

/-- A clean DOCX beside an attested master, sealed before any turn of the run. -/
def sealed_early : Vault :=
  let attested := ((desk.acts citing_externals hashing 3
    ([.command (.start_run "d" single), place_clean] ++ review)).map (·.2.vault)).getD desk.vault
  (record_export_seal_locked hashing "2026-01-05").final attested

/-- An export without pandoc. -/
def export_markdown (force_draft : Bool) : VaultM ExportResult :=
  export_run citing_externals hashing true false force_draft "2026-01-05"

theorem both_return : is_clean_docx CLEAN = true ∧
    (∃ context, ready_with_clean.run_context = .ok context ∧
      ∃ result, (export_markdown false ready_with_clean).2 = .ok result ∧
        ((export_markdown false).final ready_with_clean).deliverables.get? CLEAN ≠ none ∧
        ¬∃ check, sealed_export_state hashing ready_with_clean = .ok check ∧ check.status = .valid) ∧
    ∃ context, sealed_early.run_context = .ok context ∧
      ∃ result, (export_markdown true sealed_early).2 = .ok result ∧
        ((export_markdown true).final sealed_early).deliverables.get? CLEAN ≠ none ∧
        (citation_verdicts ((export_markdown true).final sealed_early).journal).getLast? ≠ some .pass := by
  decide +kernel

end Sample

end MootLoop
