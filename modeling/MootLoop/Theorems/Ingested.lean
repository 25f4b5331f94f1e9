import MootLoop.Ingest

/-! Re-ingest and review: the tags of a document outlast every ingest, and its normalized text outlasts those whose
    last file under its id is one that ingest itself normalizes. -/

namespace MootLoop.Ingest
open Transition

variable {x : Formats} {c c' : Corpus} {rules : List TagRule} {now now' : String}

/-! ### One file -/

/-- The id a file's document gets. -/
def Found.doc_id (x : Formats) (file : Found) : DocId :=
  match file.source with
  | .regular data => content_doc_id x data
  | _ => fallback_doc_id x file.rel

/-- The markdown ingest itself makes of a file. -/
def Found.markdown (x : Formats) (file : Found) : Option String :=
  match file.source with
  | .regular data => if MAX_BYTES < data.length then none else (triage x (x.suffix file.name) data).2.2.1
  | _ => none

/-- A file's document, but for its tags. -/
def Found.stamped (x : Formats) (now : String) (file : Found) : CorpusDoc :=
  (ingest_one x file now [] ∅).1.doc

/-- A file's document over the one with its id. -/
def Found.rebuilt (x : Formats) (now : String) (rules : List TagRule) (file : Found) (prior : Option CorpusDoc) :
    CorpusDoc :=
  let tags := apply_tags x file.name rules
  { file.stamped x now with
    role := tags.1.or (prior.bind (·.role))
    privileged := tags.2.or (prior.bind (·.privileged)) }

theorem carry_prior_tags_eq (doc_id : DocId) (manifest : Manifest) (tags : Option DocRole × Option Bool) :
    carry_prior_tags doc_id manifest tags =
      (tags.1.or ((Dict.get? manifest doc_id).bind (·.role)), tags.2.or ((Dict.get? manifest doc_id).bind (·.privileged))) := by
  unfold carry_prior_tags
  cases Dict.get? manifest doc_id with
  | none => simp
  | some prior => rfl

theorem ingest_one_eq (file : Found) (manifest : Manifest) :
    (ingest_one x file now rules manifest).1.doc = file.rebuilt x now rules (Dict.get? manifest (file.doc_id x)) ∧
      (ingest_one x file now rules manifest).2 = file.markdown x ∧
      (ingest_one x file now rules manifest).1.doc.doc_id = file.doc_id x := by
  obtain ⟨rel, name, source⟩ := file
  cases source with
  | symlink => simp [ingest_one, error_doc, Found.rebuilt, Found.stamped, Found.doc_id, Found.markdown, carry_prior_tags_eq]
  | unstable exc =>
    simp [ingest_one, error_doc, Found.rebuilt, Found.stamped, Found.doc_id, Found.markdown, carry_prior_tags_eq]
  | regular data =>
    by_cases large : MAX_BYTES < data.length
    · simp [ingest_one, Found.rebuilt, Found.stamped, Found.doc_id, Found.markdown, carry_prior_tags_eq, large]
    · simp [ingest_one, Found.rebuilt, Found.stamped, Found.doc_id, Found.markdown, carry_prior_tags_eq, large]

theorem Found.stamped_status (file : Found) :
    ((file.stamped x now).ingest_status = .ok ↔ (file.markdown x).isSome = true) ∧
      (file.stamped x now).normalized_path = (file.markdown x).map fun _ => normalized_rel (file.doc_id x) := by
  obtain ⟨rel, name, source⟩ := file
  cases source with
  | symlink => simp [Found.stamped, ingest_one, error_doc, Found.markdown]
  | unstable exc => simp [Found.stamped, ingest_one, error_doc, Found.markdown]
  | regular data =>
    by_cases large : MAX_BYTES < data.length
    · simp [Found.stamped, ingest_one, Found.markdown, large]
    · simp only [Found.stamped, ingest_one, Found.markdown, large, if_false, Found.doc_id, and_true]
      unfold triage
      cases conversion_issue (x.suffix name) data with
      | some issue => simp
      | none => rcases normalize x (x.suffix name) data with _ | _ | _ <;> simp

def CorpusDoc.timeless (doc : CorpusDoc) : CorpusDoc := { doc with ingested_at := "" }

/-- Only the time stamp of a file's document is the call's. -/
theorem Found.stamped_now (file : Found) (now now' : String) :
    (file.stamped x now).timeless = (file.stamped x now').timeless := by
  obtain ⟨rel, name, source⟩ := file
  cases source with
  | symlink => rfl
  | unstable exc => rfl
  | regular data =>
    by_cases large : MAX_BYTES < data.length <;> simp [Found.stamped, ingest_one, CorpusDoc.timeless, large]

/-! ### One folder -/

/-- The texts the files of a folder write, by the ids of their documents. -/
def written (x : Formats) (files : List Found) : List (DocId × String) :=
  files.filterMap fun file => (file.markdown x).map (file.doc_id x, ·)

/-- A folder's files over a corpus. -/
structure Ingested (x : Formats) (now : String) (rules : List TagRule) (files : List Found) (c c' : Corpus) : Prop where
  manifest : c'.manifest = Dict.update (Found.doc_id x) (Found.rebuilt x now rules) c.manifest files
  normalized : c'.normalized = (written x files).foldl (fun n w => write_normalized_text n w.1 w.2) c.normalized

theorem ingest_files (files : List Found) (pass : Corpus × List IngestEntry) :
    Ingested x now rules files pass.1 (files.foldl (ingest_file x now rules) pass).1 := by
  induction files generalizing pass with
  | nil => exact ⟨rfl, rfl⟩
  | cons file files ih =>
    obtain ⟨doc, markdown, id⟩ := @ingest_one_eq x rules now file pass.1.manifest
    have first : (ingest_file x now rules pass file).1.manifest =
        Dict.insert pass.1.manifest (file.doc_id x) (file.rebuilt x now rules (Dict.get? pass.1.manifest (file.doc_id x))) := by
      rw [← doc, ← id]
      rfl
    obtain ⟨manifest, normalized⟩ := ih (ingest_file x now rules pass file)
    refine ⟨manifest.trans (by rw [first]; rfl), normalized.trans ?_⟩
    have text : (ingest_file x now rules pass file).1.normalized =
        (file.markdown x).elim pass.1.normalized (write_normalized_text pass.1.normalized (file.doc_id x)) := by
      simp only [ingest_file]
      rw [id, markdown]
      cases file.markdown x <;> rfl
    rw [text]
    cases made : file.markdown x with
    | none => simp [written, made]
    | some text => simp [written, made]

theorem ingest_folder_ok {source_dir : SourceDir} {tags_file : Option (String × TagsFile)}
    (step : Step x c (.ingest_folder source_dir now tags_file) c') :
    ∃ entries rules, source_dir.entries = some entries ∧ load_tag_rules x tags_file = .ok rules ∧
      Ingested x now rules (iter_source_files entries) c c' := by
  obtain ⟨path, entries⟩ := source_dir
  cases entries with
  | none => cases step
  | some entries =>
    cases loaded : load_tag_rules x tags_file with
    | error e => simp [Step, perform, ingest_folder, loaded, bind, Except.bind, Except.map] at step
    | ok rules =>
      simp only [Step, perform, ingest_folder, loaded, bind, Except.bind, Except.map, pure, Except.pure,
        Except.ok.injEq] at step
      exact ⟨entries, rules, rfl, rfl, step ▸ ingest_files _ (c, [])⟩

/-- The tags of a document, through files with its id. -/
theorem tags_carried (files : List Found) (prior : Option CorpusDoc) :
    let ended := files.foldl (fun prior file => some (Found.rebuilt x now rules file prior)) prior
    ((prior.bind (·.role)).isSome → (ended.bind (·.role)).isSome) ∧
      ((prior.bind (·.privileged)).isSome → (ended.bind (·.privileged)).isSome) ∧
      (rules = [] → ended.bind (·.role) = prior.bind (·.role) ∧ ended.bind (·.privileged) = prior.bind (·.privileged)) := by
  induction files generalizing prior with
  | nil => exact ⟨id, id, fun _ => ⟨rfl, rfl⟩⟩
  | cons file files ih =>
    obtain ⟨role, privileged, tagless⟩ := ih (some (file.rebuilt x now rules prior))
    refine ⟨fun held => role ?_, fun held => privileged ?_, fun none => ?_⟩
    · simp [Found.rebuilt, held]
    · simp [Found.rebuilt, held]
    · obtain ⟨same_role, same_privileged⟩ := tagless none
      subst none
      exact ⟨same_role.trans (by simp [Found.rebuilt, apply_tags]), same_privileged.trans (by simp [Found.rebuilt, apply_tags])⟩

/-- The document of the last file under an id, over the tags of the one before. -/
theorem settled {files : List Found} {last : Found} (prior : Option CorpusDoc) (h : files.getLast? = some last) :
    ∃ doc, files.foldl (fun prior file => some (Found.rebuilt x now rules file prior)) prior = some doc ∧
      (∃ role privileged, doc = { last.stamped x now with role, privileged }) ∧
      ((prior.bind (·.role)).isSome → doc.role.isSome) ∧ ((prior.bind (·.privileged)).isSome → doc.privileged.isSome) ∧
      (rules = [] → doc.role = prior.bind (·.role) ∧ doc.privileged = prior.bind (·.privileged)) := by
  have carried := @tags_carried x rules now files prior
  obtain ⟨front, rfl⟩ := List.getLast?_eq_some_iff.mp h
  rw [List.foldl_append] at carried ⊢
  exact ⟨_, rfl, ⟨_, _, rfl⟩, carried⟩

/-! ### Keeping what is reviewed -/

/-- Whether the last file of a folder under an id, if there is one, is one that ingest itself normalizes. -/
def Normalizes (x : Formats) (files : List Found) (id : DocId) : Prop :=
  ∀ file, (files.filter (·.doc_id x = id)).getLast? = some file → (file.markdown x).isSome = true

/-- Whether a folder has the bytes of a document. -/
def HasBytes (x : Formats) (files : List Found) (id : DocId) : Prop :=
  ∃ file ∈ files, ∃ data, file.source = .regular data ∧ content_doc_id x data = id

/-- A document whose bytes the folder has keeps its role, its privilege, and its normalized text if it was ok. -/
def Kept (x : Formats) (files : List Found) (m m' : Manifest) : Prop :=
  ∀ id doc, Dict.get? m id = some doc → HasBytes x files id → ∃ doc', Dict.get? m' id = some doc' ∧
    doc'.role = doc.role ∧ doc'.privileged = doc.privileged ∧
    (doc.ingest_status = .ok → doc'.ingest_status = .ok ∧ doc'.normalized_path = doc.normalized_path)

/-- What is visible to runs stays visible. -/
def StaysVisible (m m' : Manifest) : Prop :=
  ∀ id doc, Dict.get? m id = some doc → doc.run_visible = true → ∃ doc', Dict.get? m' id = some doc' ∧ doc'.run_visible = true

/-- The corpora differ in nothing but the times of their documents. -/
def SameButTime (c c' : Corpus) : Prop :=
  c'.manifest.entries.map (fun e => (e.1, e.2.timeless)) = c.manifest.entries.map (fun e => (e.1, e.2.timeless)) ∧
    c'.normalized = c.normalized

/-- Documents stand under their ids, and the normalized text of one that is ok at its one path. -/
def Sound (m : Manifest) : Prop :=
  ∀ id doc, Dict.get? m id = some doc →
    doc.doc_id = id ∧ (doc.ingest_status = .ok → doc.normalized_path = some (normalized_rel id))

/-- The document an ingest leaves at an id. -/
theorem Ingested.at_id {files : List Found} (h : Ingested x now rules files c c') (id : DocId) :
    Dict.get? c'.manifest id = (files.filter (·.doc_id x = id)).foldl
      (fun prior file => some (Found.rebuilt x now rules file prior)) (Dict.get? c.manifest id) := by
  rw [h.manifest, Dict.get?_update]

/-- What an ingest leaves of a document. -/
theorem Ingested.document {files : List Found} (h : Ingested x now rules files c c') {id : DocId} {doc : CorpusDoc}
    (held : Dict.get? c.manifest id = some doc) :
    (files.filter (·.doc_id x = id) = [] ∧ Dict.get? c'.manifest id = some doc) ∨
    ∃ last doc', (files.filter (·.doc_id x = id)).getLast? = some last ∧ Dict.get? c'.manifest id = some doc' ∧
      last.doc_id x = id ∧ (∃ role privileged, doc' = { last.stamped x now with role, privileged }) ∧
      (doc.role.isSome → doc'.role.isSome) ∧ (doc.privileged.isSome → doc'.privileged.isSome) ∧
      (rules = [] → doc'.role = doc.role ∧ doc'.privileged = doc.privileged) := by
  rw [h.at_id id, held]
  rcases last : (files.filter (·.doc_id x = id)).getLast? with _ | file
  · have none := List.getLast?_eq_none_iff.mp last
    exact .inl ⟨none, by rw [none]; rfl⟩
  · obtain ⟨doc', ended, shape, role, privileged, tagless⟩ := @settled x rules now _ file (some doc) last
    have here := (List.mem_filter.mp (List.mem_of_getLast? last)).2
    exact .inr ⟨file, doc', last, ended, by simpa using here, shape, role, privileged, tagless⟩

theorem Ingested.sound {files : List Found} (h : Ingested x now rules files c c') (sound : Sound c.manifest) :
    Sound c'.manifest := by
  intro id doc held
  rw [h.at_id id] at held
  rcases last : (files.filter (·.doc_id x = id)).getLast? with _ | file
  · rw [List.getLast?_eq_none_iff.mp last] at held
    exact sound id doc held
  · obtain ⟨doc', ended, ⟨role, privileged, rfl⟩, -⟩ := @settled x rules now _ file
      (Dict.get? c.manifest id) last
    rw [ended] at held
    cases held
    have here : file.doc_id x = id := by simpa using (List.mem_filter.mp (List.mem_of_getLast? last)).2
    obtain ⟨ok, path⟩ := @Found.stamped_status x now file
    refine ⟨(ingest_one_eq file ∅).2.2.trans here, fun status => ?_⟩
    obtain ⟨markdown, made⟩ := Option.isSome_iff_exists.mp (ok.mp status)
    rw [made, here] at path
    exact path

/-- A document of the last file is ok where that file is normalized. -/
theorem Ingested.visible {files : List Found} (h : Ingested x now rules files c c') {id : DocId} {doc : CorpusDoc}
    (held : Dict.get? c.manifest id = some doc) (visible : doc.run_visible = true) :
    (∃ doc', Dict.get? c'.manifest id = some doc' ∧ doc'.run_visible = true) ↔ Normalizes x files id := by
  simp only [CorpusDoc.run_visible, decide_eq_true_eq] at visible
  rcases h.document held with ⟨none, kept⟩ | ⟨last, doc', found, kept, here, ⟨role, privileged, rfl⟩, tagged, called, -⟩
  · simp [Normalizes, none, kept, CorpusDoc.run_visible, visible]
  · obtain ⟨ok, path⟩ := @Found.stamped_status x now last
    simp only [Normalizes, found, kept, Option.some.injEq, exists_eq_left', forall_eq', CorpusDoc.run_visible,
      decide_eq_true_eq, ← ok]
    refine ⟨And.left, fun status => ⟨status, ?_, tagged visible.2.2.1, called visible.2.2.2⟩⟩
    rw [path, Option.isSome_map]
    exact ok.mp status

/-! ### Any call -/

/-- What a call other than an ingest does to a document: its tags may be set, its text promoted. -/
theorem reviewed {call : Call} (sound : Sound c.manifest) (step : Step x c call c')
    (other : ∀ source_dir now tags_file, call ≠ .ingest_folder source_dir now tags_file) (id : DocId) :
    Dict.get? c'.manifest id = Dict.get? c.manifest id ∨
    ∃ doc doc', Dict.get? c.manifest id = some doc ∧ Dict.get? c'.manifest id = some doc' ∧ doc'.doc_id = doc.doc_id ∧
      (doc.role.isSome → doc'.role.isSome) ∧ (doc.privileged.isSome → doc'.privileged.isSome) ∧
      (doc'.ingest_status = doc.ingest_status ∧ doc'.normalized_path = doc.normalized_path ∨
        doc'.ingest_status = .ok ∧ doc'.normalized_path = some (normalized_rel id)) := by
  have upserted {doc : CorpusDoc} (updated : CorpusDoc) {key : DocId} (held : Dict.get? c.manifest key = some doc)
      (same : updated.doc_id = doc.doc_id) : Dict.get? (c.manifest.upsert updated) id = Dict.get? c.manifest id ∨
        key = id ∧ Dict.get? (c.manifest.upsert updated) id = some updated := by
    rw [Manifest.upsert, same, (sound key doc held).1, Dict.get?_insert]
    split
    · next here => exact .inr ⟨here.symm, rfl⟩
    · exact .inl rfl
  cases call with
  | ingest_folder source_dir now tags_file => exact absurd rfl (other source_dir now tags_file)
  | write_normalized_text doc_id markdown =>
    cases step
    exact .inl rfl
  | set_doc_tag doc_id role privileged =>
    cases held : Dict.get? c.manifest doc_id with
    | none => simp [Step, perform, set_doc_tag, held, Except.map] at step
    | some doc =>
      simp only [Step, perform, set_doc_tag, held, Except.map, Except.ok.injEq] at step
      subst step
      rcases upserted { doc with role := role.or doc.role, privileged := privileged.or doc.privileged }
        held rfl with kept | ⟨rfl, changed⟩
      · exact .inl kept
      · refine .inr ⟨doc, _, held, changed, rfl, fun tagged => ?_, fun called => ?_, .inl ⟨rfl, rfl⟩⟩
        · simp [tagged]
        · simp [called]
  | promote_converted_document doc_id canonical =>
    simp only [Step, perform, promote_converted_document] at step
    split at step
    · cases step
    · split at step
      · cases step
      · cases held : Dict.get? c.manifest doc_id with
        | none => simp [held, Except.map] at step
        | some doc =>
          simp only [held] at step
          split at step
          · cases step
            exact .inl rfl
          · split at step
            · cases step
            · cases step
              rcases upserted { doc with
                ingest_status := .ok, triage_issue := none, normalized_path := some (normalized_rel doc_id) }
                held rfl with kept | ⟨rfl, changed⟩
              · exact .inl kept
              · exact .inr ⟨doc, _, held, changed, rfl, id, id, .inr ⟨rfl, rfl⟩⟩

theorem Step.cases_ingest {call : Call} (step : Step x c call c') :
    (∃ source_dir now tags_file entries rules, call = .ingest_folder source_dir now tags_file ∧
      source_dir.entries = some entries ∧ Ingested x now rules (iter_source_files entries) c c') ∨
    ∀ source_dir now tags_file, call ≠ .ingest_folder source_dir now tags_file := by
  cases call with
  | ingest_folder source_dir now tags_file =>
    obtain ⟨entries, rules, there, -, ingested⟩ := ingest_folder_ok step
    exact .inl ⟨source_dir, now, tags_file, entries, rules, rfl, there, ingested⟩
  | set_doc_tag => exact .inr fun _ _ _ h => nomatch h
  | promote_converted_document => exact .inr fun _ _ _ h => nomatch h
  | write_normalized_text => exact .inr fun _ _ _ h => nomatch h

theorem Step.sound {call : Call} (sound : Sound c.manifest) (step : Step x c call c') : Sound c'.manifest := by
  rcases step.cases_ingest with ⟨_, _, _, _, _, -, -, ingested⟩ | other
  · exact ingested.sound sound
  · intro id doc held
    rcases reviewed sound step other id with same | ⟨before, doc', was, is, named, -, -, kept | ⟨status, path⟩⟩
    · exact sound id doc (same ▸ held)
    · obtain ⟨own, normalized⟩ := sound id before was
      rw [is] at held
      cases held
      exact ⟨named.trans own, fun ok => kept.2.trans (normalized (kept.1 ▸ ok))⟩
    · rw [is] at held
      cases held
      exact ⟨named.trans (sound id before was).1, fun _ => path⟩

/-- An ingest whose folder normalizes every document that is visible; any other call. -/
def Renormalizes (x : Formats) (c : Corpus) : Call → Corpus → Prop
  | .ingest_folder source_dir _ _, _ => ∀ entries, source_dir.entries = some entries →
    ∀ id doc, Dict.get? c.manifest id = some doc → doc.run_visible = true → Normalizes x (iter_source_files entries) id
  | _, _ => True

theorem Step.stays_visible {call : Call} (sound : Sound c.manifest) (step : Step x c call c')
    (meets : Renormalizes x c call c') : StaysVisible c.manifest c'.manifest := by
  intro id doc held visible
  rcases step.cases_ingest with ⟨_, _, _, entries, _, rfl, there, ingested⟩ | other
  · exact (ingested.visible held visible).mpr (meets entries there id doc held visible)
  · rcases reviewed sound step other id with same | ⟨before, doc', was, is, -, tagged, called, changed⟩
    · exact ⟨doc, same ▸ held, visible⟩
    · rw [held] at was
      cases was
      simp only [CorpusDoc.run_visible, decide_eq_true_eq] at visible ⊢
      obtain ⟨ok, path, role, privileged⟩ := visible
      refine ⟨doc', is, ?_, ?_, tagged role, called privileged⟩
      · rcases changed with kept | promoted
        · exact kept.1.trans ok
        · exact promoted.1
      · rcases changed with kept | promoted
        · exact kept.2 ▸ path
        · exact promoted.2 ▸ rfl

/-! ### The same folder again -/

theorem Ingested.again {files : List Found} {c₁ c₂ : Corpus} (h : Ingested x now [] files c c₁)
    (again : Ingested x now' [] files c₁ c₂) : SameButTime c₁ c₂ := by
  have first := h.normalized
  have second := again.normalized
  refine ⟨Dict.map_entries ?_ fun id => ?_, ?_⟩
  · rw [again.manifest, Dict.keys_update]
    intro file mem
    rw [h.manifest]
    exact Dict.mem_keys_update mem
  · rw [again.at_id id]
    rcases last : (files.filter (·.doc_id x = id)).getLast? with _ | file
    · rw [List.getLast?_eq_none_iff.mp last]
      rfl
    · obtain ⟨doc, ended, ⟨role, privileged, rfl⟩, -⟩ := @settled x [] now _ file
        (Dict.get? c.manifest id) last
      have held := (h.at_id id).trans ended
      obtain ⟨doc', ended', ⟨role', privileged', rfl⟩, -, -, tagless⟩ := @settled x [] now' _ file
        (Dict.get? c₁.manifest id) last
      obtain ⟨same_role, same_privileged⟩ := tagless rfl
      rw [held] at same_role same_privileged
      simp only [Option.bind_some] at same_role same_privileged
      rw [ended', held, same_role, same_privileged, Option.map_some, Option.map_some]
      have stamped := file.stamped_now (x := x) now' now
      exact congrArg (fun doc : CorpusDoc => some { doc with role, privileged }) stamped
  · have texts (n : Dict DocId String) : (written x files).foldl (fun n w => write_normalized_text n w.1 w.2) n =
        Dict.update Prod.fst (fun w _ => if w.2.endsWith "\n" then w.2 else w.2 ++ "\n") n (written x files) := rfl
    rw [texts] at first second
    have entries := @Dict.map_entries _ _ _ _ c₂.normalized c₁.normalized id ?_ fun id => ?_
    · exact Dict.ext (by simpa using entries)
    · rw [second, Dict.keys_update]
      intro w mem
      rw [first]
      exact Dict.mem_keys_update mem
    · rw [second, Dict.get?_update, first, Dict.get?_update]
      cases (written x files).filter (·.1 = id) <;> rfl

/-! ### Any run -/

theorem empty_sound : Sound ({} : Corpus).manifest := fun _ _ held => nomatch held

/-- Over every reachable manifest, an untagged ingest of a folder, and of the folder again, preserves the review if and
    only if the folder normalizes every document that is ok and that it has the bytes of, or that is visible; and a run
    whose ingests normalize what is visible hides nothing. -/
theorem review_state_kept_iff {trace : List Call} (run : Run (Step x) {} trace c) :
    (∀ path entries now now' c₁ c₂, Step x c (.ingest_folder ⟨path, some entries⟩ now none) c₁ →
      Step x c₁ (.ingest_folder ⟨path, some entries⟩ now' none) c₂ →
      ((Kept x (iter_source_files entries) c.manifest c₁.manifest ∧ SameButTime c₁ c₂ ∧
          StaysVisible c.manifest c₁.manifest) ↔
        ∀ id doc, Dict.get? c.manifest id = some doc → doc.ingest_status = .ok →
          HasBytes x (iter_source_files entries) id ∨ doc.run_visible = true →
          Normalizes x (iter_source_files entries) id)) ∧
    ∀ trace' c', Run (Meeting (Step x) (Renormalizes x)) c trace' c' → StaysVisible c.manifest c'.manifest := by
  have sound : Sound c.manifest :=
    run.invariant (I := fun c => Sound c.manifest) (fun _ _ _ sound step => Step.sound sound step) empty_sound
  constructor
  · intro path entries now now' c₁ c₂ step step'
    obtain ⟨_, _, there, loaded, first⟩ := ingest_folder_ok step
    cases there
    cases loaded
    obtain ⟨_, _, there, loaded, second⟩ := ingest_folder_ok step'
    cases there
    cases loaded
    constructor
    · rintro ⟨kept, -, stays⟩ id doc held ok bytes_or_visible last found
      rcases bytes_or_visible with bytes | visible
      · obtain ⟨doc', held', -, -, still⟩ := kept id doc held bytes
        rcases first.document held with ⟨none, -⟩ | ⟨file, after, last_file, held'', -, ⟨role, privileged, rfl⟩, -⟩
        · rw [none] at found
          cases found
        · rw [found] at last_file
          cases last_file
          rw [held'] at held''
          cases held''
          exact last.stamped_status.1.mp (still ok).1
      · exact (first.visible held visible).mp (stays id doc held visible) last found
    · intro normalizes
      refine ⟨fun id doc held bytes => ?_, first.again second, fun id doc held visible => ?_⟩
      · rcases first.document held with ⟨-, same⟩ | ⟨file, after, found, held', here, ⟨role, privileged, rfl⟩, -, -, tags⟩
        · exact ⟨doc, same, rfl, rfl, fun ok => ⟨ok, rfl⟩⟩
        · obtain ⟨same_role, same_privileged⟩ := tags rfl
          refine ⟨_, held', same_role, same_privileged, fun ok => ?_⟩
          have made := normalizes id doc held ok (.inl bytes) file found
          obtain ⟨status, normalized⟩ := @Found.stamped_status x now file
          obtain ⟨markdown, text⟩ := Option.isSome_iff_exists.mp made
          refine ⟨status.mpr made, ?_⟩
          rw [(sound id doc held).2 ok, ← here]
          exact normalized.trans (by rw [text]; rfl)
      · have ok : doc.ingest_status = .ok := by
          simp only [CorpusDoc.run_visible, decide_eq_true_eq] at visible
          exact visible.1
        exact (first.visible held visible).mpr (normalizes id doc held ok (.inr visible))
  · intro trace' c' later
    have both : Sound c'.manifest ∧ StaysVisible c.manifest c'.manifest :=
      later.invariant (I := fun c' => Sound c'.manifest ∧ StaysVisible c.manifest c'.manifest)
        (fun _ _ _ h meeting => ⟨Step.sound h.1 meeting.1, fun id doc held visible => by
          obtain ⟨doc', held', visible'⟩ := h.2 id doc held visible
          exact meeting.1.stays_visible h.1 meeting.2 id doc' held' visible'⟩)
        ⟨sound, fun id doc held visible => ⟨doc, held, visible⟩⟩
    exact both.2

/-! ### A letter and a scan -/

namespace Sample

/-- Digests that are the bytes themselves, and no parser. -/
def formats : Formats where
  sha256 data := String.ofList (data.map fun byte => Char.ofNat byte.toNat)
  fnmatch _ _ := false
  repr text := text
  suffix name := if name = "letter.txt" then ".txt" else ".pdf"
  guess_type _ := none
  normalize_docx _ := .error "no parser"
  normalize_eml _ := .error "no parser"

def letter : SourceDir := ⟨"inbox", some [.file "letter.txt" (.regular (ascii "Dear Sir"))]⟩
def scan : SourceDir := ⟨"inbox", some [.file "scan.pdf" (.regular (ascii "%PDF- BT"))]⟩

/-- A document ingested, converted where that is needed, and reviewed. -/
def reviewed_after (source_dir : SourceDir) (id : DocId) : List Call :=
  [.ingest_folder source_dir "monday" none, .write_normalized_text id "text", .promote_converted_document id true,
   .set_doc_tag id (some .client_doc) (some false)]

/-- The corpus after calls that all succeed. -/
def played : Corpus → List Call → Option Corpus
  | c, [] => some c
  | c, call :: calls =>
    match perform formats c call with
    | .ok c' => played c' calls
    | .error _ => none

theorem run_of_played {calls : List Call} {c c' : Corpus} (h : played c calls = some c') :
    Run (Step formats) c calls c' := by
  induction calls generalizing c with
  | nil =>
    cases h
    exact .start
  | cons call calls ih =>
    unfold played at h
    split at h
    · next step => exact Run.trans (.one step) (ih h)
    · cases h

theorem step_of_played {call : Call} {c c' : Corpus} (h : played c [call] = some c') : Step formats c call c' := by
  unfold played at h
  split at h
  · next step =>
    cases h
    exact step
  · cases h

/-- Whether a document is visible to runs. -/
def visible (c : Corpus) (id : DocId) : Bool := ((Dict.get? c.manifest id).map (·.run_visible)).getD false

theorem both_reviewed :
    ((played {} (reviewed_after letter "doc-Dear Sir")).any fun c =>
      visible c "doc-Dear Sir" && (played c [.ingest_folder letter "tuesday" none]).isSome) = true ∧
    ((played {} (reviewed_after scan "doc-%PDF- BT")).any fun c => visible c "doc-%PDF- BT" &&
      (played c [.ingest_folder scan "tuesday" none]).any fun c' => !visible c' "doc-%PDF- BT" &&
        (played c' [.ingest_folder scan "tuesday" none]).isSome) = true := by
  decide +kernel

theorem letter_normalized (id : DocId) : Normalizes formats (iter_source_files (letter.entries.getD [])) id := by
  intro file last
  have mem := (List.mem_filter.mp (List.mem_of_getLast? last)).1
  have only : iter_source_files (letter.entries.getD []) = [⟨"letter.txt", "letter.txt", .regular (ascii "Dear Sir")⟩] := by
    decide
  rw [only, List.mem_singleton] at mem
  rw [mem]
  decide

/-- The letter stays visible when its folder is ingested again. -/
theorem letter_stays_visible : ∃ trace c c', Run (Step formats) {} trace c ∧ visible c "doc-Dear Sir" = true ∧
    Step formats c (.ingest_folder letter "tuesday" none) c' ∧ StaysVisible c.manifest c'.manifest := by
  obtain ⟨c, reached, again⟩ := (Option.any_eq_true _ _).mp both_reviewed.1
  obtain ⟨seen, played_again⟩ := Bool.and_eq_true_iff.mp again
  obtain ⟨c', played_again⟩ := Option.isSome_iff_exists.mp played_again
  have run := run_of_played reached
  have step := step_of_played played_again
  refine ⟨_, c, c', run, seen, step, (review_state_kept_iff run).2 _ c' (.one ⟨step, ?_⟩)⟩
  rintro entries there id - - -
  cases there
  exact letter_normalized id

/-- The scan, converted and reviewed, is hidden when its folder is ingested again. -/
theorem converted_scan_hidden : ¬∀ trace c, Run (Step formats) {} trace c →
    ∀ path entries now now' c₁ c₂, Step formats c (.ingest_folder ⟨path, some entries⟩ now none) c₁ →
      Step formats c₁ (.ingest_folder ⟨path, some entries⟩ now' none) c₂ →
      Kept formats (iter_source_files entries) c.manifest c₁.manifest ∧ SameButTime c₁ c₂ ∧
        StaysVisible c.manifest c₁.manifest := by
  intro claimed
  obtain ⟨c, reached, again⟩ := (Option.any_eq_true _ _).mp both_reviewed.2
  obtain ⟨seen, again⟩ := Bool.and_eq_true_iff.mp again
  obtain ⟨c₁, first, again⟩ := (Option.any_eq_true _ _).mp again
  obtain ⟨hidden, again⟩ := Bool.and_eq_true_iff.mp again
  obtain ⟨c₂, second⟩ := Option.isSome_iff_exists.mp again
  obtain ⟨-, -, stays⟩ := claimed _ c (run_of_played reached) _ _ _ _ c₁ c₂ (step_of_played first) (step_of_played second)
  rw [visible] at seen
  cases held : Dict.get? c.manifest "doc-%PDF- BT" with
  | none =>
    rw [held] at seen
    cases seen
  | some doc =>
    rw [held] at seen
    obtain ⟨doc', held', still⟩ := stays _ doc held seen
    rw [visible, held'] at hidden
    simp [still] at hidden

end Sample

end MootLoop.Ingest
