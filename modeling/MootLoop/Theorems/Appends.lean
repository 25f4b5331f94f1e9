import MootLoop.Persistence

/-! An append to a JSONL file leaves the committed prefix followed by the new line, whatever crashes left in the file
    before it; so no committed record is lost and no torn one is joined to a later one. -/

namespace MootLoop
open Lines

variable {file line : FileBytes}

/-! ### The backward scan -/

theorem rfind_none {chunk : FileBytes} (h : rfind NEWLINE chunk = none) : NEWLINE ∉ chunk := by
  have absent : ∀ byte ∈ chunk, byte ≠ NEWLINE := by simpa [rfind] using h
  exact fun mem => absent _ mem rfl

theorem rfind_some {chunk : FileBytes} {i : Nat} (h : rfind NEWLINE chunk = some i) :
    ∃ front back, chunk = front ++ NEWLINE :: back ∧ front.length = i ∧ NEWLINE ∉ back := by
  obtain ⟨back, found, rfl⟩ := Option.map_eq_some_iff.mp h
  obtain ⟨bound, here, later⟩ := List.findIdx?_eq_some_iff_getElem.mp found
  refine ⟨(chunk.reverse.drop (back + 1)).reverse, (chunk.reverse.take back).reverse, ?_, ?_, ?_⟩
  · have split : chunk.reverse = chunk.reverse.take back ++ NEWLINE :: chunk.reverse.drop (back + 1) := by
      have here : chunk.reverse[back] = NEWLINE := by simpa using here
      rw [← here, ← List.drop_eq_getElem_cons, List.take_append_drop]
    calc chunk = chunk.reverse.reverse := (List.reverse_reverse chunk).symm
      _ = _ := by
        conv_lhs => rw [split]
        simp
  · simp only [List.length_reverse, List.length_drop] at bound ⊢
    omega
  · intro mem
    obtain ⟨j, in_range, at_j⟩ := List.mem_iff_getElem.mp (List.mem_reverse.mp mem)
    have before : j < back := by
      have := List.length_take_le back chunk.reverse
      omega
    have other := later j before
    simp only [List.getElem_take] at at_j
    simp [at_j] at other

/-- The scan from a position finds the end of the committed prefix of what is before it. -/
theorem take_truncate_at (position : Nat) (bound : position ≤ file.length) :
    file.take (truncate_at file position) = committed NEWLINE (file.take position) := by
  induction position using Nat.strong_induction_on with
  | _ position ih =>
    rw [truncate_at]
    by_cases start : position = 0
    · simp [start, committed_nil]
    · rw [dif_neg start]
      have size : min position REPAIR_CHUNK ≤ position ∧ 0 < min position REPAIR_CHUNK := by
        simp only [REPAIR_CHUNK]
        omega
      generalize min position REPAIR_CHUNK = chunk_size at size
      have halves : file.take position =
          file.take (position - chunk_size) ++ (file.drop (position - chunk_size)).take chunk_size := by
        rw [← List.take_add, Nat.sub_add_cancel size.1]
      simp only
      split
      · rename_i newline found
        obtain ⟨front, back, chunk, rfl, torn⟩ := rfind_some found
        have ended : file.take position = (file.take (position - chunk_size) ++ front ++ [NEWLINE]) ++ back := by
          rw [halves, chunk]
          simp
        rw [ended, committed_append (terminated_snoc _), committed_eq_nil torn, List.append_nil]
        have length : (file.take (position - chunk_size) ++ front ++ [NEWLINE]).length =
            position - chunk_size + front.length + 1 := by
          simp only [List.length_append, List.length_take, List.length_singleton]
          omega
        rw [← length]
        have whole : file.take (position - chunk_size) ++ front ++ [NEWLINE] <+: file :=
          List.IsPrefix.trans ⟨back, ended.symm⟩ (List.take_prefix position file)
        exact (List.prefix_iff_eq_take.mp whole).symm
      · rename_i absent
        have torn := rfind_none absent
        rw [ih _ (by omega) (by omega), halves]
        -- a chunk without a newline changes nothing of the committed prefix
        generalize (file.drop (position - chunk_size)).take chunk_size = chunk at torn
        induction chunk using List.reverseRecOn with
        | nil => simp
        | append_singleton chunk byte ih' =>
          have ne : byte ≠ NEWLINE := fun same => torn (by simp [same])
          rw [← List.append_assoc, committed_snoc ne]
          exact ih' fun mem => torn (List.mem_append_left _ mem)

theorem repair_torn_tail_eq (file : FileBytes) : repair_torn_tail file = committed NEWLINE file := by
  unfold repair_torn_tail
  split
  · rename_i ended
    have terminated : Terminated NEWLINE file := ended.imp_left fun empty => by simpa using empty
    exact terminated.committed.symm
  · rw [take_truncate_at _ (Nat.le_refl _), List.take_length]

/-! ### Runs of appends -/

section
variable {ρ : Type} {encode : ρ → FileBytes} {history : List (ρ × Bool)}

/-- The records of a file are attempted ones, in order, and every acknowledged one is among them. -/
structure KeepsRecords (encode : ρ → FileBytes) (history : List (ρ × Bool)) (file : FileBytes) : Prop where
  attempted : (complete NEWLINE file).Sublist (history.map fun entry => encode entry.1)
  acknowledged : ((history.filter (·.2)).map fun entry => encode entry.1).Sublist (complete NEWLINE file)

theorem complete_append_fsync_line (single_line : NEWLINE ∉ line) :
    complete NEWLINE (append_fsync_line file line) = complete NEWLINE file ++ [line] := by
  rw [append_fsync_line, repair_torn_tail_eq, complete_append (committed_terminated file), complete_committed,
    complete_record single_line]

/-- A prefix of a record that is cut short is no line. -/
theorem complete_torn (single_line : NEWLINE ∉ line) {written : Nat} (short : written ≤ line.length) :
    complete NEWLINE (repair_torn_tail file ++ (line ++ [NEWLINE]).take written) = complete NEWLINE file := by
  have torn : NEWLINE ∉ (line ++ [NEWLINE]).take written := by
    rw [List.take_append_of_le_length short]
    exact fun mem => single_line (List.mem_of_mem_take mem)
  rw [repair_torn_tail_eq, complete_append (committed_terminated file), complete_committed]
  simp [complete, complete_from_no_nl [] torn]

theorem KeepsRecords.append (keeps : KeepsRecords encode history file) {record : ρ} (single_line : NEWLINE ∉ encode record)
    {returned : Bool} {file' : FileBytes} (leaves : AppendLeaves file (encode record) returned file') :
    KeepsRecords encode (history ++ [(record, returned)]) file' := by
  have attempted : (complete NEWLINE file).Sublist ((history ++ [(record, returned)]).map fun entry => encode entry.1) := by
    rw [List.map_append]
    exact keeps.attempted.trans (List.sublist_append_left _ _)
  have wrote : (complete NEWLINE file ++ [encode record]).Sublist
      ((history ++ [(record, returned)]).map fun entry => encode entry.1) := by
    rw [List.map_append]
    exact keeps.attempted.append (List.Sublist.refl _)
  cases leaves with
  | returned =>
    refine ⟨by rwa [complete_append_fsync_line single_line], ?_⟩
    rw [complete_append_fsync_line single_line]
    simpa using keeps.acknowledged.append (List.Sublist.refl [encode record])
  | untouched => exact ⟨attempted, by simpa using keeps.acknowledged⟩
  | torn written =>
    by_cases short : written ≤ (encode record).length
    · rw [← @complete_torn file _ single_line _ short] at attempted
      refine ⟨attempted, ?_⟩
      rw [complete_torn single_line short]
      simpa using keeps.acknowledged
    · -- the crash came after the newline, before the append returned
      have whole : (encode record ++ [NEWLINE]).take written = encode record ++ [NEWLINE] :=
        List.take_of_length_le (by simp only [List.length_append, List.length_singleton]; omega)
      rw [whole, ← append_fsync_line]
      refine ⟨by rwa [complete_append_fsync_line single_line], ?_⟩
      rw [complete_append_fsync_line single_line]
      simpa using keeps.acknowledged.trans (List.sublist_append_left _ [encode record])

theorem Appended.keeps_records (single_line : ∀ record, NEWLINE ∉ encode record) (reached : Appended encode history file) :
    KeepsRecords encode history file := by
  induction reached with
  | created => exact ⟨List.Sublist.refl _, List.Sublist.refl _⟩
  | append _ leaves ih => exact ih.append (single_line _) leaves

/-- A successful append leaves the longest newline-terminated prefix of the file before it, followed by exactly the
    new line. After any sequence of appends and crashes, the file's complete lines are attempted records in order,
    and hold every acknowledged one. -/
theorem append_keeps_committed (single_line : ∀ record, NEWLINE ∉ encode record) :
    (∀ file line : FileBytes, ∃ kept, append_fsync_line file line = kept ++ line ++ [NEWLINE] ∧
      kept <+: file ∧ Terminated NEWLINE kept ∧ ∀ other, other <+: file → Terminated NEWLINE other → other <+: kept) ∧
    ∀ history file, Appended encode history file → KeepsRecords encode history file := by
  refine ⟨fun file line => ⟨committed NEWLINE file, ?_, committed_initial file, committed_terminated file, ?_⟩, ?_⟩
  · rw [append_fsync_line, repair_torn_tail_eq, List.append_assoc]
  · exact fun other before terminated => terminated.prefix_committed before
  · exact fun history file reached => reached.keeps_records single_line

end

namespace Sample

theorem lines_keep_committed :
    (∀ file line : FileBytes, ∃ kept, append_fsync_line file line = kept ++ line ++ [NEWLINE] ∧
      kept <+: file ∧ Terminated NEWLINE kept ∧ ∀ other, other <+: file → Terminated NEWLINE other → other <+: kept) ∧
    ∀ history file, Appended (fun bits : Bool => if bits then [123, 125] else [91]) history file →
      KeepsRecords (fun bits : Bool => if bits then [123, 125] else [91]) history file :=
  append_keeps_committed (by decide)

end Sample

end MootLoop
