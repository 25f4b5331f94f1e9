import MootLoop.DiscoveryParser

/-! The parse of a served document cuts its text, from the first marker on, into the markers and the texts of the
    requests, and its warnings name the numbers repeated and the numbers missing. -/

namespace MootLoop.DiscoveryParser
open Spans Slice

variable {decimal : Char → Option Nat} {request_type : RequestType}

/-! ### Markers -/

theorem finditer_placed (pattern : Pattern Char (List Char)) (text : List Char) :
    Chained 0 (finditer pattern text) text.length := by
  have chained := @finditer_chained _ _ pattern 0 0 none text (Nat.zero_le text.length)
  rwa [Nat.zero_add, Nat.zero_add] at chained

theorem chained_mem {β : Type} {ms : List (Match β)} {low high : Nat} (chained : Chained low ms high) :
    ∀ m ∈ ms, m.stop ≤ high := by
  induction ms generalizing low with
  | nil => exact fun m mem => absurd mem List.not_mem_nil
  | cons m ms ih =>
    intro m' mem
    rcases List.mem_cons.mp mem with rfl | mem
    · exact chained.2.2.le
    · exact ih chained.2.2 m' mem

theorem request_marks_placed (text : List Char) : Chained 0 (request_marks decimal request_type text) text.length := by
  rw [request_marks]
  split
  · exact finditer_placed _ _
  split
  · exact Nat.zero_le _
  · rename_i found at_head
    have within : found.stop ≤ text.length := chained_mem (finditer_placed _ _) found (List.mem_of_head? at_head)
    have chained := (finditer_placed (numbered decimal) (text.drop found.stop)).moved found.stop
    rw [List.length_drop, Nat.add_sub_cancel' within] at chained
    exact chained.mono (Nat.zero_le _)

/-- A marker with its digits read stands where it stood. -/
theorem numbered_match_place {m : Match (List Char)} {m' : Match Nat} (read : numbered_match decimal m = .ok m') :
    m'.start = m.start ∧ m'.stop = m.stop ∧ int decimal m.value = .ok m'.value := by
  obtain ⟨number, value, read⟩ := bind_ok read
  cases read
  exact ⟨rfl, rfl, value⟩

theorem chained_of_read {ms : List (Match (List Char))} {marks : List (Match Nat)} {low high : Nat}
    (each : List.Forall₂ (fun m m' => numbered_match decimal m = .ok m') ms marks) (chained : Chained low ms high) :
    Chained low marks high := by
  induction each generalizing low with
  | nil => exact chained
  | cons read _ ih =>
    obtain ⟨start, stop, -⟩ := numbered_match_place read
    obtain ⟨first, some_text, rest⟩ := chained
    exact ⟨by rwa [start], by rwa [start, stop], by rw [stop]; exact ih rest⟩

/-! ### Texts -/

theorem spans_to_items_eq (text : List Char) (marks : List (Match Nat)) :
    spans_to_items text marks = List.zipWith (fun m body => (m.value, strip (String.ofList (slice text body.1 body.2))))
      marks (bodies text.length marks) := by
  induction marks with
  | nil => rfl
  | cons m marks ih => rw [spans_to_items, bodies, List.zipWith_cons_cons, ih]

/-- The requests a report holds, without their subparts. -/
def ParseReport.requests (report : ParseReport) : List ParsedItem := report.request_set.items.filter (·.subpart = none)

theorem subparts_lettered {number set_number : Nat} {source_doc : String} {body : List Char} {marks : List (Match (List Char))} :
    ∀ item ∈ subpart_items request_type number set_number source_doc body marks, item.subpart ≠ none := by
  induction marks with
  | nil => exact fun item mem => absurd mem List.not_mem_nil
  | cons mark marks ih =>
    intro item mem
    rcases List.mem_cons.mp mem with rfl | mem
    · exact Option.some_ne_none _
    · exact ih item mem

theorem requests_of_items {set_number : Nat} {source_doc : String} (found : List (Nat × String)) :
    ((found.flatMap (request_items request_type set_number source_doc)).filter (·.subpart = none)).map
      (fun item => (item.number, item.text)) = found := by
  induction found with
  | nil => rfl
  | cons request found ih =>
    have no_subpart : (subpart_items request_type request.1 set_number source_doc request.2.toList
        (finditer subpart request.2.toList)).filter (·.subpart = none) = [] :=
      List.filter_eq_nil_iff.mpr fun item mem => by simpa using subparts_lettered item mem
    rw [List.flatMap_cons, List.filter_append, List.map_append, ih, request_items, List.filter_cons_of_pos (by rfl),
      no_subpart]
    rfl

/-! ### Warnings -/

theorem count_repeated (seen numbers : List Nat) (n : Nat) :
    (repeated seen numbers).count n = if n ∈ seen then numbers.count n else numbers.count n - 1 := by
  induction numbers generalizing seen with
  | nil => simp [repeated]
  | cons k numbers ih =>
    rw [repeated]
    by_cases met : k ∈ seen
    · rw [if_pos met, List.count_cons, List.count_cons, ih]
      by_cases same : k = n
      · subst same
        simp [met]
      · have other : (k == n) = false := by simpa using same
        have mem : n ∈ k :: seen ↔ n ∈ seen := by simp [Ne.symm same]
        simp [other, mem]
    · rw [if_neg met, List.count_cons, ih]
      by_cases same : k = n
      · subst same
        simp [met]
      · have other : (k == n) = false := by simpa using same
        have mem : n ∈ k :: seen ↔ n ∈ seen := by simp [Ne.symm same]
        simp [other, mem]

theorem mem_missing {numbers : List Nat} {n : Nat} :
    n ∈ missing numbers ↔ n ∉ numbers ∧ (∃ low ∈ numbers, low < n) ∧ ∃ high ∈ numbers, n < high := by
  cases numbers with
  | nil => simp [missing]
  | cons a numbers =>
    obtain ⟨low, is_min⟩ := Option.isSome_iff_exists.mp (List.isSome_min?_of_mem (List.mem_cons_self (a := a) (l := numbers)))
    obtain ⟨high, is_max⟩ := Option.isSome_iff_exists.mp (List.isSome_max?_of_mem (List.mem_cons_self (a := a) (l := numbers)))
    obtain ⟨low_mem, low_le⟩ := List.min?_eq_some_iff.mp is_min
    obtain ⟨high_mem, le_high⟩ := List.max?_eq_some_iff.mp is_max
    simp only [missing, is_min, is_max, List.mem_filter, List.mem_range'_1, decide_eq_true_eq]
    constructor
    · rintro ⟨⟨ge, lt⟩, absent⟩
      have low_ne : low ≠ n := fun same => absent (same ▸ low_mem)
      have high_ne : high ≠ n := fun same => absent (same ▸ high_mem)
      exact ⟨absent, ⟨low, low_mem, by omega⟩, high, high_mem, by omega⟩
    · rintro ⟨absent, ⟨l, l_mem, above⟩, h, h_mem, below⟩
      have := low_le l l_mem
      have := le_high h h_mem
      exact ⟨⟨by omega, by omega⟩, absent⟩

theorem missing_sorted (numbers : List Nat) : (missing numbers).Pairwise (· < ·) := by
  rw [missing]
  split
  · exact (List.pairwise_lt_range' ..).filter _
  · exact .nil

/-- The warnings name each repeated number once for each repetition, then the missing numbers in one warning, in order,
    when there are any. -/
structure Warned (request_type : RequestType) (numbers : List Nat) (warnings : List String) : Prop where
  names : ∃ repetitions gaps : List Nat,
    (∀ n, repetitions.count n = numbers.count n - 1) ∧ gaps.Pairwise (· < ·) ∧
    (∀ n, n ∈ gaps ↔ n ∉ numbers ∧ (∃ low ∈ numbers, low < n) ∧ ∃ high ∈ numbers, n < high) ∧
    warnings = repetitions.map (duplicate_warning request_type) ++ (if gaps = [] then [] else [gap_warning request_type gaps])

theorem numbering_warned (numbers : List Nat) : Warned request_type numbers (numbering_warnings request_type numbers) :=
  ⟨repeated [] numbers, missing numbers, fun n => by rw [count_repeated, if_neg List.not_mem_nil], missing_sorted numbers,
    fun _ => mem_missing, rfl⟩

/-! ### The parse -/

/-- What a parse does with the markers it finds: they and the texts between them tile the text from the first on, each
    request has its marker's number and the text after it, and the warnings are about the numbers. -/
structure Parsed (request_type : RequestType) (text : List Char) (marks : List (Match Nat)) (report : ParseReport) :
    Prop where
  tiles : Tiles (next_start text.length marks) (spans text.length marks) text.length
  disjoint : (spans text.length marks).Pairwise fun a b => a.2 ≤ b.1
  covered : (spans text.length marks).flatMap (fun span => slice text span.1 span.2) =
    text.drop (next_start text.length marks)
  requests : report.requests.map (fun item => (item.number, item.text)) =
    List.zipWith (fun m body => (m.value, strip (String.ofList (slice text body.1 body.2)))) marks (bodies text.length marks)
  warned : marks ≠ [] → Warned request_type (marks.map (·.value)) report.warnings

theorem map_number (text : List Char) (marks : List (Match Nat)) :
    (spans_to_items text marks).map (·.1) = marks.map (·.value) := by
  induction marks with
  | nil => rfl
  | cons m marks ih => rw [spans_to_items, List.map_cons, List.map_cons, ih]

theorem spans_to_items_eq_nil {text : List Char} {marks : List (Match Nat)} :
    spans_to_items text marks = [] ↔ marks = [] := by
  cases marks <;> simp [spans_to_items]

theorem parsed_of_marks {text source_doc : String} {set_number : Nat} {report : ParseReport}
    (parsed : parse_discovery_document decimal text request_type source_doc set_number = .ok report) :
    ∃ marks, (request_marks decimal request_type text.toList).mapM (numbered_match decimal) = .ok marks ∧
      Parsed request_type text.toList marks report := by
  obtain ⟨found, find, parsed⟩ := bind_ok parsed
  obtain ⟨marks, read, find⟩ := bind_ok find
  cases find
  cases parsed
  have chained := chained_of_read (Walk.forall₂_of_mapM read) (request_marks_placed text.toList)
  refine ⟨marks, read, chained.tiles, chained.tiles.pairwise, chained.tiles.flatMap_slice, ?_, ?_⟩
  · rw [← spans_to_items_eq]
    exact requests_of_items _
  · intro some_marks
    have some_found : spans_to_items text.toList marks ≠ [] := fun empty => some_marks (spans_to_items_eq_nil.mp empty)
    dsimp only
    rw [if_neg some_found, List.append_nil, map_number]
    exact numbering_warned _

/-- A number is read unless it has more digits than the interpreter converts. -/
theorem int_ok_iff {digits : List Char} : (∃ n, int decimal digits = .ok n) ↔ digits.length ≤ MAX_STR_DIGITS := by
  rw [int]
  split
  · rename_i long
    simp only [reduceCtorEq, exists_false, false_iff]
    omega
  · rename_i short
    exact ⟨fun _ => Nat.le_of_not_lt short, fun _ => ⟨_, rfl⟩⟩

theorem parse_returns_iff {text source_doc : String} {set_number : Nat} :
    (∃ report, parse_discovery_document decimal text request_type source_doc set_number = .ok report) ↔
      ∀ m ∈ request_marks decimal request_type text.toList, m.value.length ≤ MAX_STR_DIGITS := by
  constructor
  · rintro ⟨report, parsed⟩ m mem
    obtain ⟨marks, read, -⟩ := parsed_of_marks parsed
    obtain ⟨i, bound, rfl⟩ := List.mem_iff_getElem.mp mem
    have each := Walk.forall₂_of_mapM read
    have value := (numbered_match_place (each.get bound (each.length_eq ▸ bound))).2.2
    exact int_ok_iff.mp ⟨_, value⟩
  · intro short
    obtain ⟨marks, read, -⟩ := Walk.mapM_total (f := numbered_match decimal) fun m mem => by
      have reads : ∃ n, int decimal m.value = .ok n := int_ok_iff.mpr (short m mem)
      obtain ⟨n, value⟩ := reads
      exact ⟨⟨n, m.start, m.stop⟩, by rw [numbered_match, value]; rfl⟩
    simp only [parse_discovery_document, find_requests, read, bind, Except.bind]
    exact ⟨_, rfl⟩

/-- A parse returns unless a marker's number is too long to convert; what it returns cuts the text, from the first
    marker on, into the markers and the texts of the requests, and warns about their numbers. -/
theorem discovery_partition (decimal : Char → Option Nat) (text : String) (request_type : RequestType)
    (source_doc : String) (set_number : Nat) :
    ((∃ report, parse_discovery_document decimal text request_type source_doc set_number = .ok report) ↔
      ∀ m ∈ request_marks decimal request_type text.toList, m.value.length ≤ MAX_STR_DIGITS) ∧
    ∀ report, parse_discovery_document decimal text request_type source_doc set_number = .ok report →
      ∃ marks, (request_marks decimal request_type text.toList).mapM (numbered_match decimal) = .ok marks ∧
        Parsed request_type text.toList marks report :=
  ⟨parse_returns_iff, fun _ => parsed_of_marks⟩

namespace Sample

/-- The value of an ASCII digit. -/
def ascii_digit (c : Char) : Option Nat := if '0' ≤ c && c ≤ '9' then some (c.toNat - 48) else none

/-- Two requests with one number, and a gap. -/
def served_rogs : String := "Interrogatory No. 2: Who?\nINTERROGATORY #2 Where?\nINTERROGATORY NUMBER 4"

end Sample

open Sample

theorem discovery_partition_served_rogs :
    ∃ report marks, parse_discovery_document ascii_digit served_rogs .interrogatory "doc-1" 1 = .ok report ∧
      report.warnings = ["duplicate ROG number 2", "numbering gap: missing ROG number(s) 3"] ∧
      Parsed .interrogatory served_rogs.toList marks report := by
  have parsed : ∃ report, parse_discovery_document ascii_digit served_rogs .interrogatory "doc-1" 1 = .ok report ∧
      report.warnings = ["duplicate ROG number 2", "numbering gap: missing ROG number(s) 3"] := ⟨_, rfl, rfl⟩
  obtain ⟨report, parsed, warnings⟩ := parsed
  obtain ⟨marks, -, partition⟩ := (discovery_partition ascii_digit served_rogs .interrogatory "doc-1" 1).2 report parsed
  exact ⟨report, marks, parsed, warnings, partition⟩

end MootLoop.DiscoveryParser
