import MootLoop.TaskSpecs
import MootLoop.Lib.Record

/-! The begin-task stores read back what was written, as long as every append writes its whole line or nothing and no
    string of a record has a separator in it: the files are then the lines of the committed records, and each spec's
    locks are numbered from 1. -/

namespace MootLoop

namespace TaskSpecs
open Transition

/-! ### Lines -/

theorem utf8_flatMap {α : Type} (f : α → List Char) (l : List α) : utf8 (l.flatMap f) = l.flatMap fun a => utf8 (f a) := by
  induction l with
  | nil => rfl
  | cons a l ih => rw [List.flatMap_cons, List.flatMap_cons, utf8_append, ih]

/-- Lines without a break in them, each with something visible, are what reading their file gives. -/
theorem read_lines_lines {lines : List (List Char)} (whole : ∀ line ∈ lines, ∀ c ∈ line, isLineBreak c = false)
    (visible : ∀ line ∈ lines, ∃ c ∈ line, isSpace c = false) :
    read_lines (utf8 (lines.flatMap (· ++ ['\n']))) = .ok lines := by
  have no_cr : '\r' ∉ lines.flatMap (· ++ ['\n']) := by
    intro mem
    obtain ⟨line, held, here⟩ := List.mem_flatMap.mp mem
    rcases List.mem_append.mp here with here | here
    · exact absurd (whole line held _ here) (by decide)
    · exact absurd here (by decide)
  have kept : lines.filter (fun line => !line.all isSpace) = lines := by
    refine List.filter_eq_self.mpr fun line held => ?_
    obtain ⟨c, mem, shown⟩ := visible line held
    rw [Bool.not_eq_true', List.all_eq_false]
    exact ⟨c, mem, by simp [shown]⟩
  rw [read_lines, fromUTF8_utf8]
  simp only [String.toList_ofList, normalize_newlines_of_no_cr no_cr, splitlines_lines whole, kept]

section
variable {ρ : Type} {codec : LineCodec ρ}

/-- What the stores rely on of a serializer: a record reads back, and is one line but for what JSON leaves raw in its
    strings. -/
structure LineCodec.Documented (codec : LineCodec ρ) : Prop where
  reads_back : ∀ record, codec.parse (codec.model_dump_json record) = .ok record
  one_line : ∀ record, ∀ c ∈ codec.model_dump_json record, isLineBreak c = true →
    isSeparator c = true ∧ ∃ text ∈ codec.strings record, c ∈ text.toList
  visible : ∀ record, ∃ c ∈ codec.model_dump_json record, isSpace c = false

/-- No string of the record has a character that ends a line for `str.splitlines` and that JSON leaves raw. -/
def LineCodec.Unbroken (codec : LineCodec ρ) (record : ρ) : Prop :=
  ∀ text ∈ codec.strings record, ∀ c ∈ text.toList, isSeparator c = false

/-- The lines of the records read back from their file. -/
theorem LineCodec.Documented.read_lines (documented : codec.Documented) {records : List ρ}
    (unbroken : ∀ record ∈ records, codec.Unbroken record) :
    TaskSpecs.read_lines (records.flatMap codec.line) = .ok (records.map codec.model_dump_json) := by
  have file : records.flatMap codec.line = utf8 ((records.map codec.model_dump_json).flatMap (· ++ ['\n'])) := by
    rw [List.flatMap_map, utf8_flatMap]
    rfl
  rw [file]
  refine read_lines_lines ?_ ?_
  · intro line mem c here
    obtain ⟨record, held, rfl⟩ := List.mem_map.mp mem
    by_contra ends
    obtain ⟨separator, text, in_text, at_c⟩ := documented.one_line record c here (by simpa using ends)
    rw [unbroken record held text in_text c at_c] at separator
    cases separator
  · intro line mem
    obtain ⟨record, -, rfl⟩ := List.mem_map.mp mem
    exact documented.visible record

end

/-! ### Reading the stores -/

theorem ok_of_mapError {ε δ α : Type} {f : ε → δ} {m : Except ε α} {a : α} (h : m.mapError f = .ok a) : m = .ok a := by
  cases m with
  | error e => cases h
  | ok b => cases h; rfl

theorem ok_bind {ε α β : Type} (a : α) (f : α → Except ε β) : (Except.ok a >>= f) = f a := rfl

variable {format : Format}

theorem list_from_specs (documented : format.spec.Documented) (seen : List TaskSpecId) {specs : List TaskSpec}
    (fresh : ∀ spec ∈ specs, spec.task_spec_id ∉ seen) (distinct : (specs.map (·.task_spec_id)).Nodup) :
    TaskSpecStore.list_from format seen (specs.map format.spec.model_dump_json) = .ok specs := by
  induction specs generalizing seen with
  | nil => rfl
  | cons spec specs ih =>
    obtain ⟨other, distinct⟩ := List.nodup_cons.mp distinct
    have rest := ih (spec.task_spec_id :: seen) (fun later mem => by
      intro again
      rcases List.mem_cons.mp again with same | before
      · exact other (List.mem_map.mpr ⟨later, mem, same⟩)
      · exact fresh later (List.mem_cons_of_mem _ mem) before) distinct
    simp only [List.map_cons, TaskSpecStore.list_from, documented.reads_back, Except.mapError, ok_bind,
      fresh spec List.mem_cons_self, if_false, rest]
    rfl

theorem list_all_specs (documented : format.spec.Documented) {specs : List TaskSpec}
    (unbroken : ∀ spec ∈ specs, format.spec.Unbroken spec) (distinct : (specs.map (·.task_spec_id)).Nodup) :
    TaskSpecStore.list_all format (specs.flatMap format.spec.line) = .ok specs := by
  rw [TaskSpecStore.list_all, documented.read_lines unbroken]
  exact list_from_specs documented [] (fun _ _ => List.not_mem_nil) distinct

/-- The locks of each spec are numbered on from a given number. -/
def NumberedFrom (start : TaskSpecId → Nat) (locks : List TaskSpecLock) : Prop :=
  ∀ id, (locks.filter (·.task_spec_id = id)).map (·.lock_version) =
    List.range' (start id + 1) (locks.filter (·.task_spec_id = id)).length

/-- The locks of each spec are numbered from 1. -/
def Numbered (locks : List TaskSpecLock) : Prop := NumberedFrom (fun _ => 0) locks

theorem list_from_locks (documented : format.lock.Documented) (versions : Dict TaskSpecId Nat) {locks : List TaskSpecLock}
    (valid : ∀ record ∈ locks, record.model_validate format = .ok record)
    (numbered : NumberedFrom (fun id => (versions.get? id).getD 0) locks) :
    TaskSpecLockStore.list_from format versions (locks.map format.lock.model_dump_json) = .ok locks := by
  induction locks generalizing versions with
  | nil => rfl
  | cons record locks ih =>
    have own := numbered record.task_spec_id
    simp only [List.filter_cons, decide_true, if_true, List.map_cons, List.length_cons, List.range'_succ] at own
    obtain ⟨here, later⟩ := List.cons.inj own
    have rest := ih (versions.insert record.task_spec_id record.lock_version)
      (fun other mem => valid other (List.mem_cons_of_mem _ mem)) (by
        intro id
        by_cases same : id = record.task_spec_id
        · subst same
          simp only [Dict.get?_insert_self, Option.getD_some, here]
          exact later
        · have skipped := numbered id
          simp only [List.filter_cons, Ne.symm same, decide_false, Bool.false_eq_true, if_false] at skipped
          simp only [Dict.get?_insert_ne versions same]
          exact skipped)
    have validated : TaskSpecLock.model_validate_json format (format.lock.model_dump_json record) = .ok record := by
      rw [TaskSpecLock.model_validate_json, documented.reads_back]
      exact valid record List.mem_cons_self
    rw [List.map_cons, TaskSpecLockStore.list_from, validated, Except.mapError, ok_bind]
    simp only [here, ne_eq, not_true_eq_false, if_false]
    rw [← here, rest]
    rfl

theorem list_all_locks (documented : format.lock.Documented) {locks : List TaskSpecLock}
    (unbroken : ∀ record ∈ locks, format.lock.Unbroken record)
    (valid : ∀ record ∈ locks, record.model_validate format = .ok record) (numbered : Numbered locks) :
    TaskSpecLockStore.list_all format (locks.flatMap format.lock.line) = .ok locks := by
  rw [TaskSpecLockStore.list_all, documented.read_lines unbroken]
  exact list_from_locks documented ∅ valid numbered

/-- The next number of a spec is one more than its latest. -/
theorem Numbered.latest {locks : List TaskSpecLock} (numbered : Numbered locks) (id : TaskSpecId) :
    (((locks.filter (·.task_spec_id = id)).getLast?).map (·.lock_version)).getD 0 =
      (locks.filter (·.task_spec_id = id)).length := by
  rw [← List.getLast?_map, numbered id]
  cases (locks.filter (·.task_spec_id = id)).length with
  | zero => rfl
  | succ n => simp [List.range'_concat, Nat.add_comm]

theorem Numbered.snoc {locks : List TaskSpecLock} (numbered : Numbered locks) {record : TaskSpecLock}
    (next : record.lock_version =
      (((locks.filter (·.task_spec_id = record.task_spec_id)).getLast?).map (·.lock_version)).getD 0 + 1) :
    Numbered (locks ++ [record]) := by
  intro id
  by_cases same : record.task_spec_id = id
  · subst same
    have here : ([record].filter fun r => decide (r.task_spec_id = record.task_spec_id)) = [record] := by simp
    rw [List.filter_append, here, List.map_append, numbered record.task_spec_id, List.length_append, List.length_singleton,
      List.range'_concat, List.map_singleton, next, numbered.latest]
    simp [Nat.add_comm]
  · have skipped : ([record].filter fun r => decide (r.task_spec_id = id)) = [] := by simp [same]
    rw [List.filter_append, skipped, List.append_nil]
    exact numbered id

/-! ### Calls -/

theorem model_validate_eq {record record' : TaskSpecLock} (h : record.model_validate format = .ok record') :
    record' = record := by
  unfold TaskSpecLock.model_validate at h
  split at h
  · cases h
  split at h
  · cases h
  split at h
  · cases h
  split at h
  · cases h
  split at h
  · cases h
  split at h
  · cases h
  · exact (Except.ok.inj h).symm

/-- Sources that hold still, with a sidecar that matches, are the material of a lock. -/
theorem lock_material_still {inputs : Inputs} {task : String} {binding : TaskSources} {adapter rubric rubric_lock : FileBytes}
    (sources : inputs.sources task = .ok binding) (again : inputs.sources_again task = .ok binding)
    (locked : binding.rubric_locked = true) (files : binding.files = .ok (adapter, rubric, rubric_lock))
    (recorded : recorded_sha256 rubric_lock = .ok (format.sha256 rubric)) :
    lock_material format inputs task = .ok {
      adapter_raw := adapter, rubric_raw := rubric, rubric_lock_raw := rubric_lock
      adapter_locator := s!"config/tasks/{binding.adapter_name}"
      rubric_locator := s!"rubrics/{binding.rubric_name}"
      rubric_lock_locator := s!"rubrics/{binding.rubric_lock_name}"
      rubric_id := binding.rubric_id } := by
  simp only [lock_material, sources, again, ok_bind, locked, files, recorded, Bool.not_true, Bool.false_eq_true, if_false, ne_eq,
    not_true_eq_false, or_self]
  rfl

/-- A lock call whose checks pass appends the record of the approval, where its spec has no lock yet. -/
theorem lock_task_spec_first {inputs : Inputs} {specs locks : FileBytes} {call : LockCall} {spec : TaskSpec} {task : String}
    {material : LockMaterial} {record : TaskSpecLock} (actor : isBlank call.locked_by = false)
    (lockable : lockable_spec format inputs specs call = .ok (spec, task))
    (read : lock_material format inputs task = .ok material) (documents : validate_document_refs inputs spec = .ok ())
    (confirmed : TaskSpecStore.get format specs call.task_spec_id = .ok (some spec))
    (none_yet : TaskSpecLockStore.latest format locks call.task_spec_id = .ok none)
    (valid : (new_lock format call.task_spec_id call.matter_id task 1 material
      ⟨task_spec_sha256 format spec, format.sha256 material.adapter_raw, format.sha256 material.rubric_raw,
        format.sha256 material.rubric_lock_raw, call.locked_by⟩ call.locked_at).model_validate format = .ok record) :
    lock_task_spec format inputs ⟨specs, locks⟩ call = .ok (.appended record) := by
  simp only [lock_task_spec, actor, Bool.false_eq_true, if_false, lockable, ok_bind, read, documents, confirmed, ne_eq,
    not_true_eq_false, none_yet, Option.filter_none, Option.map_none, Option.getD_none, Nat.zero_add, valid, Except.mapError]
  rfl

/-- What a lock call appends is valid, and is its spec's next number in the store it read. -/
theorem appended_spec {inputs : Inputs} {s : Stores} {call : LockCall} {record : TaskSpecLock}
    (h : lock_task_spec format inputs s call = .ok (.appended record)) :
    record.model_validate format = .ok record ∧ ∃ locks, TaskSpecLockStore.list_all format s.locks = .ok locks ∧
      record.lock_version =
        (((locks.filter (·.task_spec_id = record.task_spec_id)).getLast?).map (·.lock_version)).getD 0 + 1 := by
  unfold lock_task_spec at h
  split at h
  · cases h
  obtain ⟨⟨spec, task⟩, -, h⟩ := bind_ok h
  obtain ⟨material, -, h⟩ := bind_ok h
  obtain ⟨-, -, h⟩ := bind_ok h
  obtain ⟨confirmed, -, h⟩ := bind_ok h
  split at h
  · cases h
  obtain ⟨latest, found, h⟩ := bind_ok h
  obtain ⟨locks, listed, found⟩ := bind_ok found
  cases found
  split at h
  · cases h
  · obtain ⟨valid, validated, h⟩ := bind_ok h
    cases h
    have validated := ok_of_mapError validated
    obtain rfl := model_validate_eq validated
    exact ⟨validated, locks, listed, rfl⟩

/-! ### Runs -/

theorem Step.spec_whole {s s' : Stores} {added : TaskSpec} (specs : s'.specs = s.specs ++ format.spec.line added)
    (locks : s'.locks = s.locks) : Step format s (.spec added (format.spec.line added).length) s' := by
  have step := @Step.spec format s added (format.spec.line added).length
  rwa [List.take_length, ← specs, ← locks] at step

theorem Step.lock_whole {s s' : Stores} {inputs : Inputs} {call : LockCall} {record : TaskSpecLock}
    (appends : lock_task_spec format inputs s call = .ok (.appended record)) (specs : s'.specs = s.specs)
    (locks : s'.locks = s.locks ++ format.lock.line record) :
    Step format s (.lock inputs call record (format.lock.line record).length) s' := by
  have step := @Step.lock format s inputs call record (format.lock.line record).length appends
  rwa [List.take_length, ← specs, ← locks] at step

/-- The call appends a whole line without a separator in its strings, or none of it. -/
def Event.Whole (format : Format) : Event → Prop
  | .spec new written => format.spec.Unbroken new ∧ (written = 0 ∨ (format.spec.line new).length ≤ written)
  | .lock _ _ record written => format.lock.Unbroken record ∧ (written = 0 ∨ (format.lock.line record).length ≤ written)
  | .refused .. | .reasserted .. => True

/-- The file is the lines of the records, each a whole line for the readers. -/
structure Held {ρ : Type} (codec : LineCodec ρ) (file : FileBytes) (records : List ρ) : Prop where
  bytes : file = records.flatMap codec.line
  unbroken : ∀ record ∈ records, codec.Unbroken record

/-- An append of the whole line adds its record; one that writes nothing leaves the file. -/
theorem Held.append {ρ : Type} {codec : LineCodec ρ} {file : FileBytes} {records : List ρ} (held : Held codec file records)
    {record : ρ} (unbroken : codec.Unbroken record) {written : Nat}
    (whole : written = 0 ∨ (codec.line record).length ≤ written) :
    Held codec (file ++ (codec.line record).take written)
      (records ++ if (codec.line record).length ≤ written then [record] else []) := by
  have long : 0 < (codec.line record).length := by
    rw [LineCodec.line, utf8_append, List.length_append]
    exact Nat.lt_add_left _ (by decide)
  rcases whole with rfl | all
  · rw [List.take_zero, List.append_nil, if_neg (by omega), List.append_nil]
    exact held
  · rw [List.take_of_length_le all, if_pos all]
    refine ⟨by simp [held.bytes], fun other mem => ?_⟩
    rcases List.mem_append.mp mem with old | new
    · exact held.unbroken other old
    · rw [List.mem_singleton.mp new]
      exact unbroken

/-- What the stores hold after a trace. -/
structure Written (format : Format) (trace : List Event) (s : Stores) : Prop where
  specs : Held format.spec s.specs (committed_specs format trace)
  locks : Held format.lock s.locks (committed_locks format trace)
  locks_valid : ∀ record ∈ committed_locks format trace, record.model_validate format = .ok record
  numbered : Numbered (committed_locks format trace)

theorem committed_specs_append (format : Format) (a b : List Event) :
    committed_specs format (a ++ b) = committed_specs format a ++ committed_specs format b := List.filterMap_append

theorem committed_locks_append (format : Format) (a b : List Event) :
    committed_locks format (a ++ b) = committed_locks format a ++ committed_locks format b := List.filterMap_append

theorem committed_specs_snoc (format : Format) (trace : List Event) (spec : TaskSpec) (written : Nat) :
    committed_specs format (trace ++ [.spec spec written]) =
      committed_specs format trace ++ if (format.spec.line spec).length ≤ written then [spec] else [] := by
  rw [committed_specs_append]
  by_cases all : (format.spec.line spec).length ≤ written <;> simp [committed_specs, all]

theorem committed_locks_snoc (format : Format) (trace : List Event) (inputs : Inputs) (call : LockCall)
    (record : TaskSpecLock) (written : Nat) :
    committed_locks format (trace ++ [.lock inputs call record written]) =
      committed_locks format trace ++ if (format.lock.line record).length ≤ written then [record] else [] := by
  rw [committed_locks_append]
  by_cases all : (format.lock.line record).length ≤ written <;> simp [committed_locks, all]

/-- The locks of a trace read back from the store it leaves. -/
theorem Written.list_all_locks (documented : format.lock.Documented) {trace : List Event} {s : Stores}
    (written : Written format trace s) : TaskSpecLockStore.list_all format s.locks = .ok (committed_locks format trace) := by
  rw [written.locks.bytes]
  exact TaskSpecs.list_all_locks documented written.locks.unbroken written.locks_valid written.numbered

theorem Written.list_all_specs (documented : format.spec.Documented) {trace : List Event} {s : Stores}
    (written : Written format trace s) (distinct : ((committed_specs format trace).map (·.task_spec_id)).Nodup) :
    TaskSpecStore.list_all format s.specs = .ok (committed_specs format trace) := by
  rw [written.specs.bytes]
  exact TaskSpecs.list_all_specs documented written.specs.unbroken distinct

theorem Written.step (documented : format.lock.Documented) {trace : List Event} {s s' : Stores} {event : Event}
    (written : Written format trace s) (step : Step format s event s') (whole : event.Whole format) :
    Written format (trace ++ [event]) s' := by
  cases step with
  | @spec spec count =>
    have locks : committed_locks format (trace ++ [.spec spec count]) = committed_locks format trace := by
      rw [committed_locks_append]
      exact List.append_nil _
    refine ⟨?_, locks ▸ written.locks, locks ▸ written.locks_valid, locks ▸ written.numbered⟩
    rw [committed_specs_snoc]
    exact written.specs.append whole.1 whole.2
  | refused =>
    refine ⟨?_, ?_, ?_, ?_⟩ <;> simp only [committed_specs_append, committed_locks_append]
    · exact (List.append_nil _).symm ▸ written.specs
    · exact (List.append_nil _).symm ▸ written.locks
    · exact (List.append_nil _).symm ▸ written.locks_valid
    · exact (List.append_nil _).symm ▸ written.numbered
  | reasserted =>
    refine ⟨?_, ?_, ?_, ?_⟩ <;> simp only [committed_specs_append, committed_locks_append]
    · exact (List.append_nil _).symm ▸ written.specs
    · exact (List.append_nil _).symm ▸ written.locks
    · exact (List.append_nil _).symm ▸ written.locks_valid
    · exact (List.append_nil _).symm ▸ written.numbered
  | @lock inputs call record count appends =>
    obtain ⟨valid, locks, listed, next⟩ := appended_spec appends
    cases (written.list_all_locks documented).symm.trans listed
    have specs : committed_specs format (trace ++ [.lock inputs call record count]) = committed_specs format trace := by
      rw [committed_specs_append]
      exact List.append_nil _
    refine ⟨specs ▸ written.specs, ?_, ?_, ?_⟩ <;> rw [committed_locks_snoc]
    · exact written.locks.append whole.1 whole.2
    · split
      · intro other mem
        rcases List.mem_append.mp mem with old | new
        · exact written.locks_valid other old
        · rw [List.mem_singleton.mp new]
          exact valid
      · simpa using written.locks_valid
    · split
      · exact written.numbered.snoc next
      · simpa using written.numbered

/-- The stores read back the committed records of a trace, in order, the locks of each spec numbered from 1. -/
structure RoundTrip (format : Format) (trace : List Event) (s : Stores) : Prop where
  specs : TaskSpecStore.list_all format s.specs = .ok (committed_specs format trace)
  locks : TaskSpecLockStore.list_all format s.locks = .ok (committed_locks format trace)
  numbered : ∀ id, ((committed_locks format trace).filter (·.task_spec_id = id)).map (·.lock_version) =
    List.range' 1 ((committed_locks format trace).filter (·.task_spec_id = id)).length

/-- No calls yet. -/
def Stores.empty : Stores := ⟨[], []⟩

/-- Along every sequence of spec appends with distinct ids and of lock calls, whose appends write a whole line without a
    separator in its strings or nothing, the stores read back exactly the committed records; and what later calls leave
    reads back these, then the later ones. -/
theorem stores_round_trip (specs_documented : format.spec.Documented) (locks_documented : format.lock.Documented)
    {trace later : List Event} {s s' : Stores}
    (run : Run (Meeting (Step format) fun _ event _ => event.Whole format) .empty trace s)
    (more : Run (Meeting (Step format) fun _ event _ => event.Whole format) s later s')
    (distinct : ((committed_specs format (trace ++ later)).map (·.task_spec_id)).Nodup) :
    RoundTrip format trace s ∧
      TaskSpecStore.list_all format s'.specs = .ok (committed_specs format trace ++ committed_specs format later) ∧
      TaskSpecLockStore.list_all format s'.locks = .ok (committed_locks format trace ++ committed_locks format later) := by
  have written : ∀ {trace s}, Run (Meeting (Step format) fun _ event _ => event.Whole format) .empty trace s →
      Written format trace s := fun run =>
    run.history (fun _ _ _ _ _ written next => written.step locks_documented next.1 next.2)
      ⟨⟨rfl, nofun⟩, ⟨rfl, nofun⟩, nofun, fun _ => rfl⟩
  have first := written run
  have both := written (run.trans more)
  have distinct_first : ((committed_specs format trace).map (·.task_spec_id)).Nodup := by
    rw [committed_specs_append, List.map_append] at distinct
    exact (List.nodup_append.mp distinct).1
  refine ⟨⟨first.list_all_specs specs_documented distinct_first, first.list_all_locks locks_documented, first.numbered⟩,
    ?_, ?_⟩
  · rw [← committed_specs_append]
    exact both.list_all_specs specs_documented distinct
  · rw [← committed_locks_append]
    exact both.list_all_locks locks_documented

/-- A spec that is appended and then locked. -/
theorem first_lock_run {spec : TaskSpec} {inputs : Inputs} {call : LockCall} {record : TaskSpecLock}
    (spec_unbroken : format.spec.Unbroken spec) (lock_unbroken : format.lock.Unbroken record)
    (appends : lock_task_spec format inputs ⟨format.spec.line spec, []⟩ call = .ok (.appended record)) :
    Run (Meeting (Step format) fun _ event _ => event.Whole format) .empty
      ([.spec spec (format.spec.line spec).length] ++ [.lock inputs call record (format.lock.line record).length])
      ⟨format.spec.line spec, format.lock.line record⟩ := by
  have first : Step format .empty (.spec spec (format.spec.line spec).length) ⟨format.spec.line spec, []⟩ :=
    Step.spec_whole rfl rfl
  exact (Run.one ⟨first, spec_unbroken, .inr le_rfl⟩).snoc ⟨Step.lock_whole appends rfl rfl, lock_unbroken, .inr le_rfl⟩

theorem next_spec_run {spec : TaskSpec} (unbroken : format.spec.Unbroken spec) (specs locks : FileBytes) :
    Run (Meeting (Step format) fun _ event _ => event.Whole format) ⟨specs, locks⟩
      [.spec spec (format.spec.line spec).length] ⟨specs ++ format.spec.line spec, locks⟩ :=
  Run.one ⟨Step.spec_whole rfl rfl, unbroken, .inr le_rfl⟩

end TaskSpecs

namespace Sample
open TaskSpecs Transition

/-! ### Records as JSON -/

def text (s : String) : Json.Value := .string s.toList

def nullable : Option String → Json.Value
  | none => .null
  | some s => text s

def string_of : Json.Value → Option String
  | .string s => some (String.ofList s)
  | _ => none

def nullable_of : Json.Value → Option (Option String)
  | .null => some none
  | .string s => some (some (String.ofList s))
  | _ => none

def strings_of : Json.Value → Option (List String)
  | .strings l => some (l.map String.ofList)
  | _ => none

def dict_of : Json.Value → Option (Dict String String)
  | .entries l =>
    if distinct : ((l.map fun e => (String.ofList e.1, String.ofList e.2)).map Prod.fst).Nodup then some ⟨_, distinct⟩
    else none
  | _ => none

def number_of : Json.Value → Option Nat
  | .integer (.ofNat n) => some n
  | _ => none

def spec_names : List (List Char) :=
  ["schema_version", "task_spec_id", "matter_id", "task", "source_lane", "intent_text", "folio_iri", "folio_label", "utbms",
    "request_set_refs", "document_input_refs", "document_input_sha256", "created_at"].map String.toList

def spec_values (spec : TaskSpec) : List Json.Value :=
  [text spec.schema_version, text spec.task_spec_id, text spec.matter_id, nullable spec.task, text spec.source_lane,
    text spec.intent_text, nullable spec.folio_iri, nullable spec.folio_label, nullable spec.utbms,
    .strings (spec.request_set_refs.map String.toList), .strings (spec.document_input_refs.map String.toList),
    .entries (spec.document_input_sha256.entries.map fun e => (e.1.toList, e.2.toList)), text spec.created_at]

def spec_of : List Json.Value → Option TaskSpec
  | [a, b, c, d, e, f, g, h, i, j, k, l, m] => do
    some {
      schema_version := ← string_of a, task_spec_id := ← string_of b, matter_id := ← string_of c, task := ← nullable_of d
      source_lane := ← string_of e, intent_text := ← string_of f, folio_iri := ← nullable_of g
      folio_label := ← nullable_of h, utbms := ← nullable_of i, request_set_refs := ← strings_of j
      document_input_refs := ← strings_of k, document_input_sha256 := ← dict_of l, created_at := ← string_of m }
  | _ => none

def lock_names : List (List Char) :=
  ["schema_version", "task_spec_lock_id", "lock_version", "task_spec_id", "matter_id", "task", "task_spec_sha256",
    "adapter_locator", "adapter_sha256", "rubric_id", "rubric_locator", "rubric_sha256", "rubric_lock_locator",
    "rubric_lock_sha256", "rubric_recorded_sha256", "locked_by", "source", "locked_at", "record_sha256"].map String.toList

def lock_values (r : TaskSpecLock) : List Json.Value :=
  [text r.schema_version, text r.task_spec_lock_id, .integer r.lock_version, text r.task_spec_id, text r.matter_id,
    text r.task, text r.task_spec_sha256, text r.adapter_locator, text r.adapter_sha256, text r.rubric_id,
    text r.rubric_locator, text r.rubric_sha256, text r.rubric_lock_locator, text r.rubric_lock_sha256,
    text r.rubric_recorded_sha256, text r.locked_by, text r.source, text r.locked_at, text r.record_sha256]

def lock_of : List Json.Value → Option TaskSpecLock
  | [a, b, c, d, e, f, g, h, i, j, k, l, m, n, o, p, q, r, s] => do
    some {
      schema_version := ← string_of a, task_spec_lock_id := ← string_of b, lock_version := ← number_of c
      task_spec_id := ← string_of d, matter_id := ← string_of e, task := ← string_of f, task_spec_sha256 := ← string_of g
      adapter_locator := ← string_of h, adapter_sha256 := ← string_of i, rubric_id := ← string_of j
      rubric_locator := ← string_of k, rubric_sha256 := ← string_of l, rubric_lock_locator := ← string_of m
      rubric_lock_sha256 := ← string_of n, rubric_recorded_sha256 := ← string_of o, locked_by := ← string_of p
      source := ← string_of q, locked_at := ← string_of r, record_sha256 := ← string_of s }
  | _ => none

/-- A record with named flat values as its JSON line. -/
def record_codec {ρ : Type} (names : List (List Char)) (values : ρ → List Json.Value) (of : List Json.Value → Option ρ)
    (texts : ρ → List String) : LineCodec ρ where
  model_dump_json record := Json.record (names.zip (values record))
  parse line :=
    match Json.read_record line with
    | none => .error "Invalid JSON"
    | some fields =>
      if fields.map (·.1) = names then
        match of (fields.map (·.2)) with
        | none => .error "Input should be a valid value"
        | some record => .ok record
      else .error "Field required"
  strings := texts

theorem record_codec_documented {ρ : Type} {names : List (List Char)} {values : ρ → List Json.Value}
    {of : List Json.Value → Option ρ} {texts : ρ → List String} (named : ∀ record, (values record).length = names.length)
    (low : ∀ name ∈ names, ∀ c ∈ name, 32 ≤ c.toNat ∧ c.toNat < 127) (reads : ∀ record, of (values record) = some record)
    (all : ∀ record, ∀ value ∈ values record, ∀ s ∈ value.texts, ∃ t ∈ texts record, t.toList = s) :
    (record_codec names values of texts).Documented where
  reads_back record := by
    have firsts : (names.zip (values record)).map (·.1) = names := List.map_fst_zip (named record).ge
    have seconds : (names.zip (values record)).map (·.2) = values record := List.map_snd_zip (named record).le
    simp only [record_codec, Json.read_record_record, firsts, seconds, if_true, reads]
  one_line record c mem ends := by
    obtain ⟨visible, small⟩ := Json.printable_record mem
    have separator := (isLineBreak_high visible).symm.trans ends
    refine ⟨separator, ?_⟩
    have high := isSeparator_high separator
    rcases small with small | ⟨s, held, here⟩
    · omega
    obtain ⟨field, in_fields, in_field⟩ := List.mem_flatMap.mp held
    obtain ⟨name, value⟩ := field
    obtain ⟨in_names, in_values⟩ := List.of_mem_zip in_fields
    rcases List.mem_cons.mp in_field with rfl | in_value
    · have := low s in_names c here
      omega
    · obtain ⟨t, in_texts, rfl⟩ := all record value in_values s in_value
      exact ⟨t, in_texts, here⟩
  visible record := ⟨'\x7b', List.mem_cons_self, by decide⟩

def spec_texts (spec : TaskSpec) : List String :=
  [spec.schema_version, spec.task_spec_id, spec.matter_id, spec.source_lane, spec.intent_text, spec.created_at] ++
    [spec.task, spec.folio_iri, spec.folio_label, spec.utbms].filterMap id ++ spec.request_set_refs ++
    spec.document_input_refs ++ spec.document_input_sha256.entries.flatMap fun e => [e.1, e.2]

def lock_texts (r : TaskSpecLock) : List String :=
  [r.schema_version, r.task_spec_lock_id, r.task_spec_id, r.matter_id, r.task, r.task_spec_sha256, r.adapter_locator,
    r.adapter_sha256, r.rubric_id, r.rubric_locator, r.rubric_sha256, r.rubric_lock_locator, r.rubric_lock_sha256,
    r.rubric_recorded_sha256, r.locked_by, r.source, r.locked_at, r.record_sha256]

theorem spec_texts_all (spec : TaskSpec) : ∀ value ∈ spec_values spec, ∀ s ∈ value.texts,
    ∃ t ∈ spec_texts spec, t.toList = s := by
  have optional : ∀ o ∈ [spec.task, spec.folio_iri, spec.folio_label, spec.utbms], ∀ s ∈ (nullable o).texts,
      ∃ t ∈ spec_texts spec, t.toList = s := by
    rintro (_ | t) mem s here
    · cases here
    · obtain rfl := List.mem_singleton.mp here
      have held : t ∈ [spec.task, spec.folio_iri, spec.folio_label, spec.utbms].filterMap id :=
        List.mem_filterMap.mpr ⟨some t, mem, rfl⟩
      exact ⟨t, by simp only [spec_texts, List.mem_append, held, true_or, or_true], rfl⟩
  have plain : ∀ t ∈ spec_texts spec, ∀ s ∈ (text t).texts, ∃ t ∈ spec_texts spec, t.toList = s := by
    intro t mem s here
    exact ⟨t, mem, (List.mem_singleton.mp here).symm⟩
  have listed : ∀ l : List String, (∀ t ∈ l, t ∈ spec_texts spec) → ∀ s ∈ l.map String.toList,
      ∃ t ∈ spec_texts spec, t.toList = s := by
    intro l held s here
    obtain ⟨t, mem, rfl⟩ := List.mem_map.mp here
    exact ⟨t, held t mem, rfl⟩
  simp only [spec_values, List.forall_mem_cons]
  refine ⟨plain spec.schema_version (by simp [spec_texts]), plain spec.task_spec_id (by simp [spec_texts]),
    plain spec.matter_id (by simp [spec_texts]), optional spec.task (by simp), plain spec.source_lane (by simp [spec_texts]),
    plain spec.intent_text (by simp [spec_texts]), optional spec.folio_iri (by simp), optional spec.folio_label (by simp),
    optional spec.utbms (by simp), listed spec.request_set_refs (by simp +contextual [spec_texts]),
    listed spec.document_input_refs (by simp +contextual [spec_texts]), ?_, plain spec.created_at (by simp [spec_texts]),
    fun _ mem => absurd mem List.not_mem_nil⟩
  intro s here
  obtain ⟨e, mem, here⟩ := List.mem_flatMap.mp here
  obtain ⟨entry, held, rfl⟩ := List.mem_map.mp mem
  have both : ∀ t ∈ [entry.1, entry.2], t ∈ spec_texts spec := fun t at_t =>
    List.mem_append_right _ (List.mem_flatMap.mpr ⟨entry, held, at_t⟩)
  rcases List.mem_cons.mp here with rfl | here
  · exact ⟨entry.1, both _ (by simp), rfl⟩
  · exact ⟨entry.2, both _ (by simp), (List.mem_singleton.mp here).symm⟩

theorem lock_texts_all (record : TaskSpecLock) : ∀ value ∈ lock_values record, ∀ s ∈ value.texts,
    ∃ t ∈ lock_texts record, t.toList = s := by
  have split : lock_values record = ((lock_texts record).take 2).map text ++
      .integer record.lock_version :: ((lock_texts record).drop 2).map text := rfl
  have plain : ∀ l ⊆ lock_texts record, ∀ value ∈ l.map text, ∀ s ∈ value.texts, ∃ t ∈ lock_texts record, t.toList = s := by
    intro l held value mem s here
    obtain ⟨t, at_t, rfl⟩ := List.mem_map.mp mem
    exact ⟨t, held at_t, (List.mem_singleton.mp here).symm⟩
  intro value mem
  rw [split, List.mem_append, List.mem_cons] at mem
  rcases mem with before | rfl | after
  · exact plain _ (List.take_subset _ _) value before
  · exact nofun
  · exact plain _ (List.drop_subset _ _) value after

theorem spec_of_values (spec : TaskSpec) : spec_of (spec_values spec) = some spec := by
  have nullable_back : ∀ o, nullable_of (nullable o) = some o := by rintro (_ | s) <;> simp [nullable_of, nullable, text]
  have dict_back : ∀ d : Dict String String, dict_of (.entries (d.entries.map fun e => (e.1.toList, e.2.toList))) = some d := by
    intro d
    have same : (d.entries.map fun e => (e.1.toList, e.2.toList)).map (fun e => (String.ofList e.1, String.ofList e.2)) =
        d.entries := by simp [Function.comp_def]
    simp only [dict_of, same, d.nodup, dif_pos]
  simp [spec_of, spec_values, nullable_back, dict_back, string_of, strings_of, text]

theorem lock_of_values (record : TaskSpecLock) : lock_of (lock_values record) = some record := by
  have number : number_of (.integer (record.lock_version : Int)) = some record.lock_version := rfl
  simp [lock_of, lock_values, number, string_of, text]

/-! ### An approval -/

/-- The canonical JSON of a spec: its names in order, the document fields where they are asked for. -/
def spec_canonical (spec : TaskSpec) (documents : Bool) : List Char :=
  let refs : List (String × Json.Value) :=
    [("document_input_refs", .strings (spec.document_input_refs.map String.toList)),
      ("document_input_sha256", .entries (spec.document_input_sha256.entries.map fun e => (e.1.toList, e.2.toList)))]
  let fields := [("created_at", text spec.created_at)] ++ (if documents then refs else []) ++
    [("folio_iri", nullable spec.folio_iri), ("folio_label", nullable spec.folio_label),
      ("intent_text", text spec.intent_text), ("matter_id", text spec.matter_id),
      ("request_set_refs", .strings (spec.request_set_refs.map String.toList)),
      ("schema_version", text spec.schema_version), ("source_lane", text spec.source_lane), ("task", nullable spec.task),
      ("task_spec_id", text spec.task_spec_id), ("utbms", nullable spec.utbms)]
  Json.record (fields.map fun field => (field.1.toList, field.2))

def lock_canonical (r : TaskSpecLock) : List Char :=
  let fields : List (String × Json.Value) :=
    [("adapter_locator", text r.adapter_locator), ("adapter_sha256", text r.adapter_sha256),
      ("lock_version", .integer r.lock_version), ("locked_at", text r.locked_at), ("locked_by", text r.locked_by),
      ("matter_id", text r.matter_id), ("rubric_id", text r.rubric_id),
      ("rubric_lock_locator", text r.rubric_lock_locator), ("rubric_lock_sha256", text r.rubric_lock_sha256),
      ("rubric_locator", text r.rubric_locator), ("rubric_recorded_sha256", text r.rubric_recorded_sha256),
      ("rubric_sha256", text r.rubric_sha256), ("schema_version", text r.schema_version), ("source", text r.source),
      ("task", text r.task), ("task_spec_id", text r.task_spec_id), ("task_spec_lock_id", text r.task_spec_lock_id),
      ("task_spec_sha256", text r.task_spec_sha256)]
  Json.record (fields.map fun field => (field.1.toList, field.2))

def answer : TaskSpec where
  task_spec_id := "taskspec-202607121200000000-a1b2c3"
  matter_id := "acme"
  task := some "discovery-responses"
  source_lane := "freeform"
  intent_text := "answer the discovery"
  created_at := "2026-07-12T12:00:00+00:00"

example : create_freeform id "acme" "answer the discovery" "2026-07-12T12:00:00+00:00" "a1b2c3" = answer := by decide +kernel

def adapter_raw : FileBytes := utf8 "task: discovery-responses\n".toList
def rubric_raw : FileBytes := utf8 "rubric_id: discovery-v1\n".toList
def rubric_lock_raw : FileBytes :=
  utf8 "199ba7a76812f75d9c7d4a33f368653a10b6a3212aa6d7ed8c3741f61f1b8e78  discovery-v1.yaml\n".toList

/-- The SHA-256 digests of the approval's inputs, and of its record. -/
def approval_sha256 (bytes : FileBytes) : Digest :=
  if bytes = adapter_raw then "e9f233d08c528281660c73189d713e1025d9b241adfb5bd4656b413f74c511ea"
  else if bytes = rubric_raw then "199ba7a76812f75d9c7d4a33f368653a10b6a3212aa6d7ed8c3741f61f1b8e78"
  else if bytes = rubric_lock_raw then "0f622529b82fd83bac2c4e319c94ff9f4df1d006f00892a8412677b19a74df83"
  else if bytes = utf8 (spec_canonical answer false) then
    "81d07b3510b6381dd2092c4ddf935f996170dd38027526b227e4ddc524f43200"
  else "53a638afccc7a92307bb530d11f8f886ff79e5843131a44da37792cc1e4a1bae"

def task_format : Format where
  spec := record_codec spec_names spec_values spec_of spec_texts
  lock := record_codec lock_names lock_values lock_of lock_texts
  sha256 := approval_sha256
  canonical_spec := spec_canonical
  canonical_lock := lock_canonical

theorem spec_documented : task_format.spec.Documented :=
  record_codec_documented (fun _ => rfl) (by decide) spec_of_values spec_texts_all

theorem lock_documented : task_format.lock.Documented :=
  record_codec_documented (fun _ => rfl) (by decide) lock_of_values lock_texts_all

def approval_sources : TaskSources where
  config := "discovery-responses"
  adapter_name := "discovery-responses.yaml"
  rubric := "discovery-v1"
  rubric_id := "discovery-v1"
  rubric_name := "discovery-v1.yaml"
  rubric_lock_name := "discovery-v1.sha256"
  rubric_locked := true
  files := .ok (adapter_raw, rubric_raw, rubric_lock_raw)

def approval_inputs : Inputs where
  matter_id := .ok "acme"
  sources _ := .ok approval_sources
  sources_again _ := .ok approval_sources
  document_sha256 _ _ := .ok ∅

def approval : LockCall := ⟨"acme", "taskspec-202607121200000000-a1b2c3", "attorney", "2026-07-12T12:05:00+00:00"⟩

def approved_lock : TaskSpecLock where
  task_spec_lock_id := "taskspeclock-taskspec-202607121200000000-a1b2c3-v1"
  lock_version := 1
  task_spec_id := "taskspec-202607121200000000-a1b2c3"
  matter_id := "acme"
  task := "discovery-responses"
  task_spec_sha256 := "81d07b3510b6381dd2092c4ddf935f996170dd38027526b227e4ddc524f43200"
  adapter_locator := "config/tasks/discovery-responses.yaml"
  adapter_sha256 := "e9f233d08c528281660c73189d713e1025d9b241adfb5bd4656b413f74c511ea"
  rubric_id := "discovery-v1"
  rubric_locator := "rubrics/discovery-v1.yaml"
  rubric_sha256 := "199ba7a76812f75d9c7d4a33f368653a10b6a3212aa6d7ed8c3741f61f1b8e78"
  rubric_lock_locator := "rubrics/discovery-v1.sha256"
  rubric_lock_sha256 := "0f622529b82fd83bac2c4e319c94ff9f4df1d006f00892a8412677b19a74df83"
  rubric_recorded_sha256 := "199ba7a76812f75d9c7d4a33f368653a10b6a3212aa6d7ed8c3741f61f1b8e78"
  locked_by := "attorney"
  locked_at := "2026-07-12T12:05:00+00:00"
  record_sha256 := "53a638afccc7a92307bb530d11f8f886ff79e5843131a44da37792cc1e4a1bae"

/-- A text whose bytes are all below 128 has no separator. -/
theorem ascii_of_bytes {text : String} (low : (text.toUTF8.data.toList.all fun byte => byte < 128) = true) :
    ∀ c ∈ text.toList, isSeparator c = false := by
  intro c mem
  have bytes : text.toUTF8.data.toList = text.toList.flatMap String.utf8EncodeChar := by
    rw [← utf8_eq_flatMap, utf8, String.ofList_toList]
  rw [bytes, List.all_flatMap, List.all_eq_true] at low
  have here := low c mem
  by_contra separator
  have separator : c.toNat = 133 ∨ c.toNat = 8232 ∨ c.toNat = 8233 := by
    have holds : isSeparator c = true := by simpa using separator
    simpa only [isSeparator, Bool.or_eq_true, decide_eq_true_eq, or_assoc] using holds
  have value : c.val.toNat = c.toNat := rfl
  rcases separator with h | h | h <;>
    · rw [String.utf8EncodeChar, value, h] at here
      exact absurd here (by decide)

theorem unbroken_of_bytes {ρ : Type} {codec : LineCodec ρ} {record : ρ}
    (low : ((codec.strings record).all fun text => text.toUTF8.data.toList.all fun byte => byte < 128) = true) :
    codec.Unbroken record :=
  fun text mem => ascii_of_bytes (List.all_eq_true.mp low text mem)

def second : TaskSpec :=
  { answer with task_spec_id := "taskspec-202607121200000000-d4e5f6", intent_text := "respond to their rfas" }

def separated : TaskSpec := { answer with intent_text := "answer the discovery\u2028before Friday" }

def approval_material : LockMaterial where
  adapter_raw := adapter_raw
  rubric_raw := rubric_raw
  rubric_lock_raw := rubric_lock_raw
  adapter_locator := s!"config/tasks/{approval_sources.adapter_name}"
  rubric_locator := s!"rubrics/{approval_sources.rubric_name}"
  rubric_lock_locator := s!"rubrics/{approval_sources.rubric_lock_name}"
  rubric_id := approval_sources.rubric_id

/-- The inputs and the record differ in their first characters. -/
theorem approval_digests :
    task_spec_sha256 task_format answer = approved_lock.task_spec_sha256 ∧
      task_format.sha256 adapter_raw = approved_lock.adapter_sha256 ∧
      task_format.sha256 rubric_raw = approved_lock.rubric_sha256 ∧
      task_format.sha256 rubric_lock_raw = approved_lock.rubric_lock_sha256 ∧
      approved_lock.expected_sha256 task_format = approved_lock.record_sha256 := by
  have apart : rubric_raw ≠ adapter_raw ∧ rubric_lock_raw ≠ adapter_raw ∧ rubric_lock_raw ≠ rubric_raw ∧
      utf8 (spec_canonical answer false) ≠ adapter_raw ∧ utf8 (spec_canonical answer false) ≠ rubric_raw ∧
      utf8 (spec_canonical answer false) ≠ rubric_lock_raw ∧ utf8 (lock_canonical approved_lock) ≠ adapter_raw ∧
      utf8 (lock_canonical approved_lock) ≠ rubric_raw ∧ utf8 (lock_canonical approved_lock) ≠ rubric_lock_raw ∧
      utf8 (lock_canonical approved_lock) ≠ utf8 (spec_canonical answer false) := by
    simp only [adapter_raw, rubric_raw, rubric_lock_raw, utf8_eq_flatMap]
    decide +kernel
  obtain ⟨a, b, c, d, e, f, g, h, i, j⟩ := apart
  refine ⟨?_, ?_, ?_, ?_, ?_⟩
  · have bare : (decide (answer.document_input_refs ≠ [] ∨ answer.document_input_sha256.entries ≠ [])) = false := rfl
    simp only [task_spec_sha256, task_format, approval_sha256, bare, if_neg d, if_neg e, if_neg f, if_true]
    rfl
  · simp only [task_format, approval_sha256, if_true]
    rfl
  · simp only [task_format, approval_sha256, if_neg a, if_true]
    rfl
  · simp only [task_format, approval_sha256, if_neg b, if_neg c, if_true]
    rfl
  · simp only [TaskSpecLock.expected_sha256, task_format, approval_sha256, if_neg g, if_neg h, if_neg i, if_neg j]
    rfl

theorem approval_material_read : lock_material task_format approval_inputs "discovery-responses" = .ok approval_material := by
  have recorded : recorded_sha256 approval_material.rubric_lock_raw = .ok approved_lock.rubric_sha256 := by
    rw [recorded_sha256, approval_material, rubric_lock_raw, fromUTF8_utf8]
    decide +kernel
  rw [← approval_digests.2.2.1] at recorded
  exact lock_material_still rfl rfl rfl rfl recorded

/-- The texts of the approval: the ASCII strings, the record that is signed, and the lines that do not read. -/
theorem approval_texts :
    (((task_format.spec.strings answer).all fun text => text.toUTF8.data.toList.all fun byte => byte < 128) = true ∧
      ((task_format.spec.strings second).all fun text => text.toUTF8.data.toList.all fun byte => byte < 128) = true ∧
      ((task_format.lock.strings approved_lock).all fun text => text.toUTF8.data.toList.all fun byte => byte < 128) =
        true) ∧
    lock_payload approval.task_spec_id approval.matter_id "discovery-responses" 1 approval_material
        ⟨approved_lock.task_spec_sha256, approved_lock.adapter_sha256, approved_lock.rubric_sha256,
          approved_lock.rubric_lock_sha256, approval.locked_by⟩ approval.locked_at =
      { approved_lock with record_sha256 := "" } ∧
    (isBlank approval.locked_by = false ∧ validate_document_refs approval_inputs answer = .ok () ∧
      TaskSpecLockStore.latest task_format [] approval.task_spec_id = .ok none ∧
      [answer.task_spec_id, second.task_spec_id].Nodup) ∧
    TaskSpecStore.list_all task_format [123] = .error (.validation "Invalid JSON") ∧
    TaskSpecStore.list_from task_format [] ((splitlines (normalize_newlines
        (task_format.spec.model_dump_json separated ++ ['\n']))).filter fun line => !line.all isSpace) =
      .error (.validation "Invalid JSON") := by
  decide +kernel

theorem answer_listed : TaskSpecStore.list_all task_format (task_format.spec.line answer) = .ok [answer] := by
  have listed := @list_all_specs task_format spec_documented [answer]
    (by simpa using unbroken_of_bytes approval_texts.1.1) (List.nodup_singleton _)
  simpa using listed

/-- The digest of a record does not cover itself. -/
theorem expected_of_record (record : TaskSpecLock) (digest : Digest) :
    TaskSpecLock.expected_sha256 task_format { record with record_sha256 := digest } =
      record.expected_sha256 task_format := rfl

/-- The record of the approval, and its check. -/
theorem approval_validates : (new_lock task_format approval.task_spec_id approval.matter_id "discovery-responses" 1
    approval_material ⟨approved_lock.task_spec_sha256, approved_lock.adapter_sha256, approved_lock.rubric_sha256,
      approved_lock.rubric_lock_sha256, approval.locked_by⟩ approval.locked_at).model_validate task_format =
    .ok approved_lock := by
  obtain ⟨-, payload, -⟩ := approval_texts
  have whole : { approved_lock with record_sha256 := approved_lock.expected_sha256 task_format } = approved_lock := by
    rw [approval_digests.2.2.2.2]
  rw [new_lock, payload, expected_of_record]
  simp only [whole]
  rw [TaskSpecLock.model_validate, approval_digests.2.2.2.2]
  rfl

theorem approval_appends : lock_task_spec task_format approval_inputs ⟨task_format.spec.line answer, []⟩ approval =
    .ok (.appended approved_lock) := by
  have found : TaskSpecStore.get task_format (task_format.spec.line answer) approval.task_spec_id = .ok (some answer) := by
    rw [TaskSpecStore.get, answer_listed]
    rfl
  have lockable : lockable_spec task_format approval_inputs (task_format.spec.line answer) approval =
      .ok (answer, "discovery-responses") := by
    simp only [lockable_spec, found]
    rfl
  obtain ⟨-, -, ⟨actor, documents, none_yet, -⟩, -⟩ := approval_texts
  have valid := approval_validates
  rw [← approval_digests.1, ← approval_digests.2.1, ← approval_digests.2.2.1, ← approval_digests.2.2.2.1] at valid
  exact lock_task_spec_first actor lockable approval_material_read documents found none_yet valid

/-! ### Round trips -/

/-- A spec and its approval, then another spec. -/
theorem approval_round_trips :
    let approved := [.spec answer (task_format.spec.line answer).length] ++
      [.lock approval_inputs approval approved_lock (task_format.lock.line approved_lock).length]
    let later := [.spec second (task_format.spec.line second).length]
    RoundTrip task_format approved ⟨task_format.spec.line answer, task_format.lock.line approved_lock⟩ ∧
      TaskSpecStore.list_all task_format (task_format.spec.line answer ++ task_format.spec.line second) =
        .ok (committed_specs task_format approved ++ committed_specs task_format later) ∧
      TaskSpecLockStore.list_all task_format (task_format.lock.line approved_lock) =
        .ok (committed_locks task_format approved ++ committed_locks task_format later) := by
  obtain ⟨⟨answered, seconded, locked⟩, -, ⟨-, -, -, ids⟩, -⟩ := approval_texts
  have run := first_lock_run (unbroken_of_bytes answered) (unbroken_of_bytes locked) approval_appends
  have more := next_spec_run (@unbroken_of_bytes _ task_format.spec second seconded)
    (task_format.spec.line answer) (task_format.lock.line approved_lock)
  have result := stores_round_trip spec_documented lock_documented run more (by simpa [committed_specs] using ids)
  simp only at result ⊢
  exact result

/-- An append that dies after its first byte, or whose intent has a line separator, leaves a store that does not read. -/
theorem torn_or_separated_unreadable :
    (¬∀ s, Run (TaskSpecs.Step task_format) .empty [.spec answer 1] s →
      ((committed_specs task_format [.spec answer 1]).map (·.task_spec_id)).Nodup →
      RoundTrip task_format [.spec answer 1] s) ∧
    ¬∀ s, Run (TaskSpecs.Step task_format) .empty [.spec separated (task_format.spec.line separated).length] s →
      ((committed_specs task_format [.spec separated (task_format.spec.line separated).length]).map
        (·.task_spec_id)).Nodup →
      RoundTrip task_format [.spec separated (task_format.spec.line separated).length] s := by
  have raises : ∀ {spec : TaskSpec} {written : Nat}, (∀ specs : List TaskSpec,
      TaskSpecStore.list_all task_format ((task_format.spec.line spec).take written) ≠ .ok specs) →
      ¬∀ s, Run (TaskSpecs.Step task_format) .empty [.spec spec written] s →
        ((committed_specs task_format [.spec spec written]).map (·.task_spec_id)).Nodup →
        RoundTrip task_format [.spec spec written] s := by
    intro spec written unreadable claimed
    have distinct : ((committed_specs task_format [.spec spec written]).map (·.task_spec_id)).Nodup := by
      by_cases all : (task_format.spec.line spec).length ≤ written <;> simp [committed_specs, all]
    have reads := (claimed _ (Run.one .spec) distinct).specs
    simp only [Stores.empty, List.nil_append] at reads
    exact unreadable _ reads
  obtain ⟨-, -, -, torn_fails, separated_fails⟩ := approval_texts
  constructor
  · refine raises fun specs reads => ?_
    have torn : (task_format.spec.line answer).take 1 = [123] := by
      rw [LineCodec.line, utf8_eq_flatMap]
      rfl
    rw [torn, torn_fails] at reads
    cases reads
  · refine raises fun specs reads => ?_
    have lines : TaskSpecs.read_lines (task_format.spec.line separated) = .ok ((splitlines (normalize_newlines
        (task_format.spec.model_dump_json separated ++ ['\n']))).filter fun line => !line.all isSpace) := by
      rw [TaskSpecs.read_lines, LineCodec.line, fromUTF8_utf8]
      simp only [String.toList_ofList]
    rw [List.take_length, TaskSpecStore.list_all, lines, ok_bind, separated_fails] at reads
    cases reads

end Sample

end MootLoop
