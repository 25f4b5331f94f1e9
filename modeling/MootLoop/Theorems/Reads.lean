import MootLoop.JournalFile
import MootLoop.Theorems.Appends

/-! Incremental reads of journals give what a parse of the whole file gives: the cache is only ever trusted as far as
    the file still begins with the bytes it was parsed from. -/

namespace MootLoop
open Lines

variable {format : JournalFormat}

/-! ### The loop over lines -/

theorem fresh_parse_append {a b : FileBytes} (h : Terminated NEWLINE a) :
    fresh_parse format (a ++ b) = (do
      let before ← fresh_parse format a
      let after ← fresh_parse format b
      return before ++ after) := by
  simp [fresh_parse, complete_append h, List.mapM_append]

theorem fresh_parse_nil : fresh_parse format [] = .ok [] := rfl

theorem fresh_parse_torn {tail : FileBytes} (h : NEWLINE ∉ tail) : fresh_parse format tail = .ok [] := by
  simp only [fresh_parse, complete, complete_from_no_nl [] h]
  rfl

theorem fresh_parse_line {line : FileBytes} (h : NEWLINE ∉ line) :
    fresh_parse format (line ++ [NEWLINE]) = line_event format (line ++ [NEWLINE]) := by
  simp [fresh_parse, complete_record h]

/-- Where the search for a newline stops, a line ends. -/
theorem split_at_newline {rest : FileBytes} {newline : Nat} (found : rest.findIdx? (· = NEWLINE) = some newline) :
    ∃ line, rest.take (newline + 1) = line ++ [NEWLINE] ∧ NEWLINE ∉ line := by
  obtain ⟨bound, here, earlier⟩ := List.findIdx?_eq_some_iff_getElem.mp found
  refine ⟨rest.take newline, ?_, fun mem => ?_⟩
  · have here : rest[newline] = NEWLINE := by simpa using here
    rw [← here, List.take_concat_get' rest newline bound]
  · obtain ⟨j, in_range, at_j⟩ := List.mem_iff_getElem.mp mem
    have before : j < newline := by
      have := List.length_take_le newline rest
      omega
    have other := earlier j before
    simp only [List.getElem_take] at at_j
    simp [at_j] at other

/-- The loop reads the events of the complete lines, and consumes those lines. -/
theorem read_lines_eq (events : List JournalEvent) (consumed : Nat) (rest : FileBytes) :
    read_lines format events consumed rest = (do
      let more ← fresh_parse format rest
      return (events ++ more, consumed + (committed NEWLINE rest).length)) := by
  induction events, consumed, rest using read_lines.induct with
  | case1 events consumed rest none_left =>
    have torn : NEWLINE ∉ rest := fun mem => by
      have absent : ∀ byte ∈ rest, byte ≠ NEWLINE := by simpa using none_left
      exact absent _ mem rfl
    rw [read_lines]
    split
    · rw [fresh_parse_torn torn, committed_eq_nil torn]
      simp [bind, Except.bind, pure, Except.pure]
    · rename_i newline found
      cases none_left.symm.trans found
  | case2 events consumed rest newline found ih =>
    obtain ⟨line, taken, single_line⟩ := split_at_newline found
    have whole : rest = (line ++ [NEWLINE]) ++ rest.drop (newline + 1) := by
      rw [← taken, List.take_append_drop]
    have length : (line ++ [NEWLINE]).length = newline + 1 := by
      have bound := (List.findIdx?_eq_some_iff_findIdx_eq.mp found).1
      rw [← taken, List.length_take]
      omega
    rw [read_lines]
    split
    · rename_i none_left
      cases found.symm.trans none_left
    · rename_i newline' found'
      obtain rfl : newline = newline' := Option.some.inj (found.symm.trans found')
      generalize rest.drop (newline + 1) = later at whole ih ⊢
      rw [taken]
      subst whole
      rw [fresh_parse_append (terminated_snoc line), fresh_parse_line single_line, committed_append (terminated_snoc line),
        List.length_append, length]
      cases line_event format (line ++ [NEWLINE]) with
      | error e => rfl
      | ok here =>
        simp only [bind, Except.bind] at ih ⊢
        rw [ih here]
        cases fresh_parse format later with
        | error e => rfl
        | ok more => simp [pure, Except.pure, Nat.add_assoc]

/-! ### The cache -/

/-- What a cached prefix says is true of the bytes it was parsed from. -/
def ParsedPrefix.Sound (format : JournalFormat) (entry : ParsedPrefix) : Prop :=
  ∃ bytes, Terminated NEWLINE bytes ∧ entry.offset = bytes.length ∧ entry.digest = format.sha256 bytes ∧
    fresh_parse format bytes = .ok entry.events

def JournalCache.Sound (format : JournalFormat) (cache : JournalCache) : Prop :=
  ∀ key entry, (key, entry) ∈ cache → entry.Sound format

variable {cache : JournalCache} {key : String} {entry : ParsedPrefix}

theorem JournalCache.Sound.nil : JournalCache.Sound format [] := fun _ _ mem => by cases mem

theorem JournalCache.Sound.pop (sound : cache.Sound format) (key : String) : (cache.pop key).Sound format :=
  fun other entry mem => sound other entry (List.mem_filter.mp mem).1

theorem JournalCache.Sound.store (sound : cache.Sound format) (key : String) (fits : entry.Sound format) :
    (cache.store key entry).Sound format := by
  intro other held mem
  rcases List.mem_append.mp (List.mem_of_mem_drop mem) with kept | stored
  · exact sound.pop key other held kept
  · obtain ⟨-, rfl⟩ := Prod.mk.inj (List.mem_singleton.mp stored)
    exact fits

/-- A prefix that is intact was parsed from the bytes the file still begins with. -/
theorem ParsedPrefix.Sound.of_intact (collision_free : Function.Injective format.sha256) (sound : entry.Sound format)
    {snapshot : FileBytes} (intact : prefix_intact format snapshot entry = true) :
    ∃ bytes rest, snapshot = bytes ++ rest ∧ Terminated NEWLINE bytes ∧ entry.offset = bytes.length ∧
      fresh_parse format bytes = .ok entry.events := by
  obtain ⟨bytes, terminated, offset, digest, parsed⟩ := sound
  suffices begins : snapshot.take entry.offset = bytes by
    exact ⟨bytes, snapshot.drop entry.offset, by rw [← begins, List.take_append_drop], terminated, offset, parsed⟩
  unfold prefix_intact at intact
  split at intact
  · rename_i empty
    rw [empty] at offset ⊢
    exact (List.eq_nil_of_length_eq_zero offset.symm).symm
  · split at intact
    · cases intact
    · have same : format.sha256 (snapshot.take entry.offset) = entry.digest := by simpa using intact
      exact collision_free (same.trans digest)

theorem mem_of_lookup {key : String} {entry : ParsedPrefix} {cache : JournalCache}
    (found : cache.lookup key = some entry) : (key, entry) ∈ cache := by
  induction cache with
  | nil => cases found
  | cons held cache ih =>
    obtain ⟨other, held⟩ := held
    rw [List.lookup_cons] at found
    split at found
    · rename_i same
      obtain rfl : key = other := by simpa using same
      cases found
      exact List.mem_cons_self
    · exact List.mem_cons_of_mem _ (ih found)

/-- What the reader starts from, cached or not, is a parse of a prefix of the file. -/
theorem start_parsed (collision_free : Function.Injective format.sha256) (sound : cache.Sound format) (key : String)
    (snapshot : FileBytes) :
    let cached := (cache.lookup key).filter (prefix_intact format snapshot)
    ∃ bytes rest, snapshot = bytes ++ rest ∧ Terminated NEWLINE bytes ∧
      (cached.map (·.offset)).getD 0 = bytes.length ∧
      fresh_parse format bytes = .ok ((cached.map (·.events)).getD []) := by
  intro cached
  cases held : cached with
  | none => exact ⟨[], snapshot, rfl, .inl rfl, rfl, rfl⟩
  | some entry =>
    obtain ⟨found, intact⟩ := Option.filter_eq_some_iff.mp held
    exact (sound key entry (mem_of_lookup found)).of_intact collision_free intact

/-- One read gives a parse of the whole file, and keeps the cache sound. -/
theorem read_journal_spec (collision_free : Function.Injective format.sha256) (sound : cache.Sound format)
    (key : String) (file : Option FileBytes) :
    (read_journal format cache key file).1 = fresh_parse format (file.getD []) ∧
      (read_journal format cache key file).2.Sound format := by
  cases file with
  | none => exact ⟨rfl, sound.pop key⟩
  | some snapshot =>
    obtain ⟨bytes, rest, whole, terminated, offset, parsed⟩ := start_parsed collision_free sound key snapshot
    simp only [read_journal, Option.getD_some]
    generalize (cache.lookup key).filter (prefix_intact format snapshot) = cached at offset parsed ⊢
    generalize (cached.map (·.offset)).getD 0 = start at offset ⊢
    generalize (cached.map (·.events)).getD [] = events at parsed ⊢
    subst offset whole
    rw [List.drop_left, read_lines_eq, fresh_parse_append terminated, parsed]
    cases after : fresh_parse format rest with
    | error e => exact ⟨rfl, sound⟩
    | ok more =>
      refine ⟨rfl, sound.store key ?_⟩
      have read_up_to : (bytes ++ rest).take (bytes.length + (0 + (committed NEWLINE rest).length)) =
          bytes ++ committed NEWLINE rest := by
        rw [Nat.zero_add, List.take_length_add_append, ← List.prefix_iff_eq_take.mp (committed_initial rest)]
      refine ⟨bytes ++ committed NEWLINE rest, terminated.append (committed_terminated rest), ?_, ?_, ?_⟩
      · rw [List.length_append, Nat.zero_add]
      · rw [read_up_to]
      · have committed_parsed : fresh_parse format (committed NEWLINE rest) = .ok more := by
          rw [← after, fresh_parse, fresh_parse, complete_committed]
        rw [fresh_parse_append terminated, parsed, committed_parsed]
        rfl

theorem read_journals_fresh (collision_free : Function.Injective format.sha256) (sound : cache.Sound format)
    (calls : List (String × Option FileBytes)) :
    read_journals format cache calls = calls.map fun call => fresh_parse format (call.2.getD []) := by
  induction calls generalizing cache with
  | nil => rfl
  | cons call calls ih =>
    obtain ⟨key, file⟩ := call
    obtain ⟨here, kept⟩ := read_journal_spec collision_free sound key file
    rw [read_journals, List.map_cons]
    simp only
    rw [ih kept, here]

/-! ### Tails -/

/-- What an append-only file holds over time: no committed line is ever lost. Appends keep this, also those that
    repair a torn tail first. -/
def AppendOnly (files : List (Option FileBytes)) : Prop :=
  files.IsChain fun file later => committed NEWLINE (file.getD []) <+: committed NEWLINE (later.getD [])

/-- A tail that starts at the end of a terminated prefix reads the lines committed after it. -/
theorem tail_events_eq {before rest : FileBytes} (terminated : Terminated NEWLINE before) :
    tail_events format (some (before ++ rest)) before.length = (do
      let more ← fresh_parse format rest
      return (more, (committed NEWLINE (before ++ rest)).length)) := by
  rw [tail_events, List.drop_left, read_lines_eq, committed_append terminated]
  cases fresh_parse format rest with
  | error e => rfl
  | ok more => simp [bind, Except.bind, pure, Except.pure]

theorem fresh_parse_committed (file : FileBytes) : fresh_parse format (committed NEWLINE file) = fresh_parse format file := by
  rw [fresh_parse, fresh_parse, complete_committed]

theorem follow_eq {before : FileBytes} (terminated : Terminated NEWLINE before) {files : List (Option FileBytes)}
    (kept : AppendOnly (some before :: files)) :
    ∃ later, committed NEWLINE ((((some before :: files).getLast?).join).getD []) = before ++ later ∧
      follow format before.length files = fresh_parse format later := by
  induction files generalizing before with
  | nil => exact ⟨[], by simp [terminated.committed], rfl⟩
  | cons file files ih =>
    obtain ⟨grows, kept⟩ := List.isChain_cons_cons.mp kept
    rw [Option.getD_some, terminated.committed] at grows
    obtain ⟨lines, grown⟩ := grows
    have kept : AppendOnly (some (committed NEWLINE (file.getD [])) :: files) := by
      cases files with
      | nil => exact .singleton _
      | cons next files =>
        obtain ⟨step, rest⟩ := List.isChain_cons_cons.mp kept
        refine List.isChain_cons_cons.mpr ⟨?_, rest⟩
        rwa [Option.getD_some, (committed_terminated _).committed]
    obtain ⟨later, last, followed⟩ := ih (committed_terminated _) kept
    have tailed : tail_events format file before.length = (do
        let more ← fresh_parse format lines
        return (more, (committed NEWLINE (file.getD [])).length)) := by
      cases file with
      | none =>
        obtain ⟨rfl, rfl⟩ := List.append_eq_nil_iff.mp grown
        rfl
      | some bytes =>
        obtain ⟨tail, split⟩ : committed NEWLINE bytes <+: bytes := committed_initial bytes
        obtain rfl : before ++ (lines ++ tail) = bytes := by rw [← List.append_assoc, grown]; exact split
        rw [tail_events_eq terminated, Option.getD_some]
        rw [Option.getD_some, committed_append terminated] at grown
        rw [← fresh_parse_committed (lines ++ tail), ← List.append_cancel_left grown]
    refine ⟨lines ++ later, ?_, ?_⟩
    · rw [← List.append_assoc, grown, ← last]
      cases files with
      | nil => simp [(committed_terminated (file.getD [])).committed]
      | cons next files => rfl
    · rw [follow, tailed]
      have ends : Terminated NEWLINE lines := by
        have ended : Terminated NEWLINE (before ++ lines) := by rw [grown]; exact committed_terminated _
        rcases ended with empty | last
        · exact .inl (List.append_eq_nil_iff.mp empty).2
        · cases lines with
          | nil => exact .inl rfl
          | cons byte lines => exact .inr (by simpa [List.getLast?_append] using last)
      rw [fresh_parse_append ends, ← followed]
      cases fresh_parse format lines with
      | error e => rfl
      | ok more => rfl

theorem follow_whole {files : List (Option FileBytes)} (kept : AppendOnly files) :
    follow format 0 files = fresh_parse format ((files.getLast?.join).getD []) := by
  have started : AppendOnly (some [] :: files) := by
    cases files with
    | nil => exact .singleton _
    | cons file files => exact List.isChain_cons_cons.mpr ⟨List.nil_prefix, kept⟩
  obtain ⟨later, last, followed⟩ := @follow_eq format _ (.inl rfl) _ started
  rw [List.length_nil] at followed
  rw [List.nil_append] at last
  rw [followed, ← last, fresh_parse_committed]
  cases files with
  | nil => rfl
  | cons file files => rfl

/-- Whatever journals are read, in whatever order and however their files change between the reads, a read gives
    the events of the file's complete lines; and tails of an append-only file give those events once each. -/
theorem reads_are_fresh (collision_free : Function.Injective format.sha256) :
    (∀ calls, read_journals format [] calls = calls.map fun call => fresh_parse format (call.2.getD [])) ∧
    ∀ files, AppendOnly files → follow format 0 files = fresh_parse format ((files.getLast?.join).getD []) :=
  ⟨fun calls => read_journals_fresh collision_free .nil calls, fun _ kept => follow_whole kept⟩

namespace Sample

/-- Bytes as a string with one character each. -/
def latin1 (bytes : FileBytes) : String := String.ofList (bytes.map Char.ofUInt8)

theorem latin1_injective : Function.Injective latin1 := by
  intro a b same
  have chars := String.ofList_injective same
  refine List.map_injective_iff.mpr (fun x y eq => ?_) chars
  have codes : x.toUInt32 = y.toUInt32 := congrArg Char.val eq
  have nats := congrArg UInt32.toNat codes
  rw [UInt8.toNat_toUInt32, UInt8.toNat_toUInt32] at nats
  exact UInt8.toNat_inj.mp nats

def journal_format : JournalFormat where
  sha256 := latin1
  validate_json line := if line = [123, 125] then .ok .run_resumed else .error (.validation "event")

theorem sample_reads_are_fresh :
    (∀ calls, read_journals journal_format [] calls = calls.map fun call => fresh_parse journal_format (call.2.getD [])) ∧
    ∀ files, AppendOnly files →
      follow journal_format 0 files = fresh_parse journal_format ((files.getLast?.join).getD []) :=
  reads_are_fresh latin1_injective

end Sample

end MootLoop
