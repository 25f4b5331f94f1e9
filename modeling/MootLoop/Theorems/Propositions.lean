import MootLoop.Propositions
import MootLoop.Theorems.Runs

/-! Whether the excerpt around a citation holds it. It does unless the paragraph is cut and the citation reaches past the
    window, which opens at most 2048 characters before the citation and is 4096 long. -/

namespace MootLoop.Propositions

open Slice
open Authorities (is_sha256)

variable {x : Externals} {text : List Char} {start stop citation_start citation_end i : Nat}

/-! ### White space -/

/-- A character that is not white space. -/
def Plain (text : List Char) (i : Nat) : Prop := ∃ c, text[i]? = some c ∧ isSpace c = false

theorem Plain.lt (plain : Plain text i) : i < text.length := by
  obtain ⟨_, at_i, _⟩ := plain
  exact (List.getElem?_eq_some_iff.mp at_i).1

theorem skip_space_eq : skip_space text start stop = start + ((slice text start stop).takeWhile isSpace).length := rfl

theorem drop_space_eq :
    drop_space text start stop = stop - ((slice text start stop).reverse.takeWhile isSpace).length := rfl

/-- Skipping white space stops at a plain character. -/
theorem skip_space_le (plain : Plain text i) (from_start : start ≤ i) (before_stop : i < stop) :
    skip_space text start stop ≤ i := by
  obtain ⟨c, at_i, not_space⟩ := plain
  have at_slice : (slice text start stop)[i - start]? = some c := by
    rw [getElem?_slice (by omega), Nat.add_sub_cancel' from_start, at_i]
  have le := length_takeWhile_le at_slice not_space
  rw [skip_space_eq]
  omega

theorem le_skip_space (text : List Char) (start stop : Nat) : start ≤ skip_space text start stop := Nat.le_add_right _ _

theorem skip_space_le_stop (text : List Char) (le : start ≤ stop) : skip_space text start stop ≤ stop := by
  have trimmed := (List.takeWhile_sublist isSpace (l := slice text start stop)).length_le
  have chars : (slice text start stop).length ≤ stop - start := length_slice_le
  rw [skip_space_eq]
  omega

theorem drop_space_le (text : List Char) (start stop : Nat) : drop_space text start stop ≤ stop := Nat.sub_le _ _

theorem le_drop_space (text : List Char) (le : start ≤ stop) : start ≤ drop_space text start stop := by
  have trimmed := (List.takeWhile_sublist isSpace (l := (slice text start stop).reverse)).length_le
  have chars : (slice text start stop).length ≤ stop - start := length_slice_le
  rw [List.length_reverse] at trimmed
  rw [drop_space_eq]
  omega

theorem drop_space_of_le (text : List Char) (le : stop ≤ start) : drop_space text start stop = stop := by
  rw [drop_space_eq, slice, Nat.sub_eq_zero_of_le le, List.take_zero]
  rfl

theorem skip_space_plain (plain : Plain text i) (from_start : start ≤ i) (before_stop : i < stop) :
    Plain text (skip_space text start stop) := by
  have le := skip_space_le plain from_start before_stop
  have lt : skip_space text start stop < text.length := Nat.lt_of_le_of_lt le plain.lt
  rw [skip_space_eq] at le lt ⊢
  have at_stop : (slice text start stop)[((slice text start stop).takeWhile isSpace).length]? =
      some (text[start + ((slice text start stop).takeWhile isSpace).length]) := by
    rw [getElem?_slice (by omega), List.getElem?_eq_getElem lt]
  exact ⟨_, List.getElem?_eq_getElem lt, kept_of_takeWhile at_stop⟩

theorem getElem?_reverse_slice (within : stop ≤ text.length) {k : Nat} (inside : k < stop - start) :
    (slice text start stop).reverse[k]? = text[stop - 1 - k]? := by
  have length : (slice text start stop).length = stop - start := length_slice within
  rw [List.getElem?_reverse (by omega), length, getElem?_slice (by omega)]
  congr 1
  omega

/-- Dropping white space stops after a plain character. -/
theorem lt_drop_space (within : stop ≤ text.length) (plain : Plain text i) (from_start : start ≤ i)
    (before_stop : i < stop) : i < drop_space text start stop := by
  obtain ⟨c, at_i, not_space⟩ := plain
  have at_slice : (slice text start stop).reverse[stop - 1 - i]? = some c := by
    rw [getElem?_reverse_slice within (by omega), show stop - 1 - (stop - 1 - i) = i by omega, at_i]
  have le := length_takeWhile_le at_slice not_space
  rw [drop_space_eq]
  omega

theorem drop_space_plain (within : stop ≤ text.length) (plain : Plain text i) (from_start : start ≤ i)
    (before_stop : i < stop) : Plain text (drop_space text start stop - 1) := by
  have lt := lt_drop_space within plain from_start before_stop
  rw [drop_space_eq] at lt ⊢
  have inside : ((slice text start stop).reverse.takeWhile isSpace).length < stop - start := by omega
  have at_stop : (slice text start stop).reverse[((slice text start stop).reverse.takeWhile isSpace).length]? =
      text[stop - 1 - ((slice text start stop).reverse.takeWhile isSpace).length]? :=
    getElem?_reverse_slice within inside
  have in_text : stop - 1 - ((slice text start stop).reverse.takeWhile isSpace).length < text.length := by omega
  rw [List.getElem?_eq_getElem in_text] at at_stop
  rw [show stop - ((slice text start stop).reverse.takeWhile isSpace).length - 1 =
    stop - 1 - ((slice text start stop).reverse.takeWhile isSpace).length by omega]
  exact ⟨_, List.getElem?_eq_getElem _, kept_of_takeWhile at_stop⟩

theorem skip_space_of_plain (plain : Plain text start) (lt : start < stop) : skip_space text start stop = start :=
  Nat.le_antisymm (skip_space_le plain (Nat.le_refl _) lt) (le_skip_space text start stop)

theorem drop_space_of_plain (within : stop ≤ text.length) (plain : Plain text (stop - 1)) (lt : start < stop) :
    drop_space text start stop = stop := by
  have gt := lt_drop_space within plain (show start ≤ stop - 1 by omega) (show stop - 1 < stop by omega)
  have le := drop_space_le text start stop
  omega

/-! ### Paragraphs -/

/-- What the text library says of its digests and of the matches of a pattern. -/
structure Documented (x : Externals) : Prop where
  hexdigest : ∀ text, is_sha256 (x.sha256 text) = true
  breaks_in_text : ∀ text, ∀ b ∈ x.paragraph_breaks text, b.1 ≤ b.2 ∧ b.2 ≤ text.toList.length
  breaks_in_order : ∀ text, (x.paragraph_breaks text).Pairwise fun b b' => b.2 ≤ b'.1

/-- A span of a text that a citation can have: neither end is white space, and it is no longer than an excerpt may be. -/
structure Cited (text : List Char) (citation_start citation_end : Nat) : Prop where
  some_text : citation_start < citation_end
  first : Plain text citation_start
  last : Plain text (citation_end - 1)
  short : citation_end - citation_start ≤ MAX_PROPOSITION_CHARS

/-- The paragraph of a span, from its first to its last character that is not white space: the breaks before the span
    end before it, and those after the span begin after it. -/
structure Paragraph (text : List Char) (breaks : List (Nat × Nat)) (citation_start citation_end start stop : Nat) :
    Prop where
  start_plain : Plain text start
  start_after : ∀ b ∈ breaks, b.2 ≤ citation_start → b.2 ≤ start
  start_first : ∀ i, Plain text i → (∀ b ∈ breaks, b.2 ≤ citation_start → b.2 ≤ i) → start ≤ i
  stop_plain : 0 < stop ∧ Plain text (stop - 1)
  stop_before : ∀ b ∈ breaks, citation_end ≤ b.1 → stop ≤ b.1
  stop_last : ∀ i, Plain text i → (∀ b ∈ breaks, citation_end ≤ b.1 → i < b.1) → i < stop

variable {breaks : List (Nat × Nat)}

/-- The last break that ends before a place. -/
theorem last_break (in_order : breaks.Pairwise fun b b' => b.2 ≤ b'.2) (place : Nat) :
    ∃ before, (breaks.filter (·.2 ≤ place)).getLast?.elim 0 (·.2) = before ∧ before ≤ place ∧
      (∀ b ∈ breaks, b.2 ≤ place → b.2 ≤ before) ∧ ∀ i, (∀ b ∈ breaks, b.2 ≤ place → b.2 ≤ i) → before ≤ i := by
  have mem_filter {b : Nat × Nat} : b ∈ breaks.filter (·.2 ≤ place) ↔ b ∈ breaks ∧ b.2 ≤ place := by
    rw [List.mem_filter, decide_eq_true_eq]
  cases last : (breaks.filter (·.2 ≤ place)).getLast? with
  | none =>
    have none_before : breaks.filter (·.2 ≤ place) = [] := List.getLast?_eq_none_iff.mp last
    refine ⟨0, rfl, Nat.zero_le _, fun b mem le => ?_, fun _ _ => Nat.zero_le _⟩
    have in_filter := mem_filter.mpr ⟨mem, le⟩
    rw [none_before] at in_filter
    cases in_filter
  | some z =>
    obtain ⟨init, filter_eq⟩ := List.getLast?_eq_some_iff.mp last
    obtain ⟨z_mem, z_le⟩ : z ∈ breaks ∧ z.2 ≤ place := mem_filter.mp (by rw [filter_eq]; simp)
    refine ⟨z.2, rfl, z_le, fun b mem le => ?_, fun i after => after z z_mem z_le⟩
    have in_filter := mem_filter.mpr ⟨mem, le⟩
    have sorted := in_order.filter (·.2 ≤ place)
    rw [filter_eq] at in_filter sorted
    rcases List.mem_append.mp in_filter with earlier | same
    · exact (List.pairwise_append.mp sorted).2.2 b earlier z List.mem_cons_self
    · rw [List.mem_singleton.mp same]

/-- The first break that begins after a span, or the end of the text. -/
theorem next_break (in_order : breaks.Pairwise fun b b' => b.1 ≤ b'.1) (length : Nat)
    (in_text : ∀ b ∈ breaks, b.1 ≤ b.2 ∧ b.2 ≤ length) (some_span : citation_start < citation_end)
    (within : citation_end ≤ length) :
    ∃ after, (breaks.find? fun b => citation_start < b.2 ∧ citation_end ≤ b.1).elim length (·.1) = after ∧
      citation_end ≤ after ∧ after ≤ length ∧ (∀ b ∈ breaks, citation_end ≤ b.1 → after ≤ b.1) ∧
      ∀ i < length, (∀ b ∈ breaks, citation_end ≤ b.1 → i < b.1) → i < after := by
  cases next : breaks.find? fun b => citation_start < b.2 ∧ citation_end ≤ b.1 with
  | none =>
    refine ⟨length, rfl, within, Nat.le_refl _, fun b mem ge => ?_, fun i lt _ => lt⟩
    have not_next := List.find?_eq_none.mp next b mem
    have b_in_text := in_text b mem
    simp only [decide_eq_true_eq] at not_next
    omega
  | some z =>
    obtain ⟨is_next, earlier, later, breaks_eq, before⟩ := List.find?_eq_some_iff_append.mp next
    simp only [decide_eq_true_eq] at is_next
    have z_mem : z ∈ breaks := by rw [breaks_eq]; simp
    have z_in_text := in_text z z_mem
    refine ⟨z.1, rfl, is_next.2, by omega, fun b mem ge => ?_, fun i _ all => all z z_mem is_next.2⟩
    have b_in_text := in_text b mem
    rw [breaks_eq] at mem in_order
    rcases List.mem_append.mp mem with first | rest
    · have not_next := before b first
      simp only [Bool.not_eq_true', decide_eq_false_iff_not] at not_next
      omega
    · rcases List.mem_cons.mp rest with rfl | rest
      · exact Nat.le_refl _
      · exact (List.pairwise_cons.mp (List.pairwise_append.mp in_order).2.1).1 b rest

/-- The span is the paragraph, or a window of it around the citation. -/
theorem paragraph_span_spec (documented : Documented x) {text : String}
    (cited : Cited text.toList citation_start citation_end) :
    ∃ start stop, Paragraph text.toList (x.paragraph_breaks text) citation_start citation_end start stop ∧
      start ≤ citation_start ∧ citation_end ≤ stop ∧ stop ≤ text.toList.length ∧
      paragraph_span x text citation_start citation_end =
        if stop - start ≤ MAX_PROPOSITION_CHARS then (start, stop)
        else
          (skip_space text.toList
              (max start (min stop (max start (citation_start - MAX_PROPOSITION_CHARS / 2) + MAX_PROPOSITION_CHARS) -
                MAX_PROPOSITION_CHARS)) citation_start,
            drop_space text.toList citation_end
              (min stop (max start (citation_start - MAX_PROPOSITION_CHARS / 2) + MAX_PROPOSITION_CHARS))) := by
  obtain ⟨some_text, first, last, _⟩ := cited
  have in_text := documented.breaks_in_text text
  have in_order := documented.breaks_in_order text
  have within : citation_end ≤ text.toList.length := by
    have lt := last.lt
    omega
  obtain ⟨before, before_eq, before_le, after_before, before_first⟩ := last_break
    (in_order.imp_of_mem fun {b b'} _ mem' le => le.trans (in_text b' mem').1) citation_start
  obtain ⟨after, after_eq, after_ge, after_le, before_after, after_last⟩ := next_break
    (in_order.imp_of_mem fun {b b'} mem _ le => (in_text b mem).1.trans le) text.toList.length in_text some_text within
  have start_le : skip_space text.toList before after ≤ citation_start := skip_space_le first before_le (by omega)
  have start_ge : before ≤ skip_space text.toList before after := Nat.le_add_right _ _
  have stop_gt : citation_end - 1 < drop_space text.toList (skip_space text.toList before after) after :=
    lt_drop_space after_le last (by omega) (by omega)
  have stop_le : drop_space text.toList (skip_space text.toList before after) after ≤ after := Nat.sub_le _ _
  refine ⟨skip_space text.toList before after, drop_space text.toList (skip_space text.toList before after) after,
    ?_, start_le, by omega, by omega, ?_⟩
  · constructor
    · exact skip_space_plain first before_le (by omega)
    · exact fun b mem le => (after_before b mem le).trans start_ge
    · intro i plain all
      by_cases inside : i < after
      · exact skip_space_le plain (before_first i all) inside
      · omega
    · exact ⟨by omega, drop_space_plain after_le last (by omega) (by omega)⟩
    · exact fun b mem ge => stop_le.trans (before_after b mem ge)
    · intro i plain all
      have inside := after_last i plain.lt all
      by_cases from_start : skip_space text.toList before after ≤ i
      · exact lt_drop_space after_le plain from_start inside
      · omega
  · simp only [paragraph_span, before_eq, after_eq]

/-! ### Excerpts -/

/-- The proposition of a citation is built, and its excerpt is a part of the text, short enough, that holds the whole
    citation where the offsets say. -/
def Covered (x : Externals) (text : String) (citation : Citation) (source_turn_id : Option TurnId)
    (citation_start citation_end : Nat) : Prop :=
  ∃ p, proposition x text source_turn_id (citation, citation_start, citation_end) = .ok p ∧
    p.proposition_text.toList.length ≤ MAX_PROPOSITION_CHARS ∧
    p.proposition_text.toList = slice text.toList p.proposition_start p.proposition_end ∧
    p.proposition_end ≤ text.toList.length ∧ p.citation_start = citation_start ∧ p.citation_end = citation_end ∧
    p.proposition_start ≤ citation_start ∧ citation_end ≤ p.proposition_end ∧
    slice p.proposition_text.toList (citation_start - p.proposition_start) (citation_end - p.proposition_start) =
      slice text.toList citation_start citation_end

theorem validated {p q : CitationProposition} (ok : p.model_validate = .ok q) :
    q = p ∧ p.proposition_start ≤ p.citation_start ∧ p.citation_end ≤ p.proposition_end := by
  unfold CitationProposition.model_validate at ok
  repeat' split at ok
  all_goals cases ok
  rename_i inside
  exact ⟨rfl, not_not.mp inside⟩

/-- The proposition with the excerpt from `start` to `stop`, before it is checked. -/
def excerpted (x : Externals) (text : String) (citation : Citation) (source_turn_id : Option TurnId)
    (citation_start citation_end start stop : Nat) : CitationProposition where
  proposition_id := make_proposition_id x citation.citation_id (String.ofList (slice text.toList start stop))
  citation_id := citation.citation_id
  normalized_citation := citation.normalized
  proposition_text := String.ofList (slice text.toList start stop)
  proposition_start := start
  proposition_end := stop
  citation_start := citation_start
  citation_end := citation_end
  source_text_sha256 := x.sha256 text
  source_turn_id := source_turn_id

theorem proposition_eq {text : String} (citation : Citation) (source_turn_id : Option TurnId)
    (span : paragraph_span x text citation_start citation_end = (start, stop)) :
    proposition x text source_turn_id (citation, citation_start, citation_end) =
      (excerpted x text citation source_turn_id citation_start citation_end start stop).model_validate := by
  simp only [proposition, span]
  rfl

theorem excerpted_valid (documented : Documented x) {text : String} (citation : Citation) (source_turn_id : Option TurnId)
    (some_text : citation_start < citation_end) (in_text : stop ≤ text.toList.length) (opens : start ≤ citation_start)
    (closes : citation_end ≤ stop) :
    (excerpted x text citation source_turn_id citation_start citation_end start stop).model_validate =
      .ok (excerpted x text citation source_turn_id citation_start citation_end start stop) := by
  have chars : (slice text.toList start stop).length = stop - start := length_slice in_text
  have hex : is_sha256 (x.sha256 text) = true := documented.hexdigest text
  have some_chars : slice text.toList start stop ≠ [] := List.ne_nil_of_length_pos (by omega)
  have some_proposition : ¬start ≥ stop := by omega
  have some_citation : ¬citation_start ≥ citation_end := by omega
  simp [CitationProposition.model_validate, excerpted, hex, some_chars, some_proposition, some_citation, opens, closes]

/-- A span is covered exactly when the window has it. -/
theorem covered_of_span (documented : Documented x) {text : String} (citation : Citation) (source_turn_id : Option TurnId)
    (some_text : citation_start < citation_end)
    (span : paragraph_span x text citation_start citation_end = (start, stop)) (in_text : stop ≤ text.toList.length)
    (short : stop - start ≤ MAX_PROPOSITION_CHARS) :
    Covered x text citation source_turn_id citation_start citation_end ↔ start ≤ citation_start ∧ citation_end ≤ stop := by
  unfold Covered
  rw [proposition_eq citation source_turn_id span]
  constructor
  · rintro ⟨p, built, _⟩
    exact (validated built).2
  · rintro ⟨opens, closes⟩
    have inside : start + (citation_end - start) ≤ stop := by omega
    have whole : slice (slice text.toList start stop) (citation_start - start) (citation_end - start) =
        slice text.toList citation_start citation_end := by
      rw [slice_slice inside, Nat.add_sub_cancel' opens, Nat.add_sub_cancel' (by omega)]
    have text_eq : (excerpted x text citation source_turn_id citation_start citation_end start stop).proposition_text.toList =
        slice text.toList start stop := String.toList_ofList
    refine ⟨_, excerpted_valid documented citation source_turn_id some_text in_text opens closes, ?_, text_eq, in_text,
      rfl, rfl, opens, closes, ?_⟩
    · rw [text_eq, length_slice in_text]
      exact short
    · rw [text_eq]
      exact whole

/-- The excerpt holds its citation exactly when the paragraph is no longer than an excerpt may be, or the citation ends
    within the window, which opens at the paragraph's start or half an excerpt before the citation. -/
theorem covered_iff (documented : Documented x) (text : String) (citation : Citation) (source_turn_id : Option TurnId)
    (cited : Cited text.toList citation_start citation_end) :
    ∃ start stop, Paragraph text.toList (x.paragraph_breaks text) citation_start citation_end start stop ∧
      (Covered x text citation source_turn_id citation_start citation_end ↔
        stop - start ≤ MAX_PROPOSITION_CHARS ∨
          citation_end ≤ max start (citation_start - MAX_PROPOSITION_CHARS / 2) + MAX_PROPOSITION_CHARS) := by
  obtain ⟨start, stop, paragraph, opens, closes, in_text, span⟩ := paragraph_span_spec documented cited
  refine ⟨start, stop, paragraph, ?_⟩
  have some_text := cited.some_text
  by_cases whole : stop - start ≤ MAX_PROPOSITION_CHARS
  · rw [if_pos whole] at span
    rw [covered_of_span documented citation source_turn_id some_text span in_text whole]
    exact iff_of_true ⟨opens, closes⟩ (.inl whole)
  · rw [if_neg whole] at span
    generalize opening : max start (citation_start - MAX_PROPOSITION_CHARS / 2) = opened at span ⊢
    have opened_le : opened ≤ citation_start := by omega
    generalize closing : min stop (opened + MAX_PROPOSITION_CHARS) = closed at span
    generalize reopening : max start (closed - MAX_PROPOSITION_CHARS) = reopened at span
    have start_ge := le_skip_space text.toList reopened citation_start
    have stop_le := drop_space_le text.toList citation_end closed
    rw [covered_of_span documented citation source_turn_id some_text span (by omega) (by omega)]
    by_cases reaches : citation_end ≤ opened + MAX_PROPOSITION_CHARS
    · have start_le := skip_space_le_stop text.toList (show reopened ≤ citation_start by omega)
      have stop_ge := le_drop_space text.toList (show citation_end ≤ closed by omega)
      exact iff_of_true ⟨start_le, stop_ge⟩ (.inr reaches)
    · refine iff_of_false (fun ⟨_, stop_ge⟩ => ?_) (not_or.mpr ⟨whole, reaches⟩)
      omega

/-! ### The matches of the pattern -/

theorem line_breaks_le (inside : Bool) (text : List Char) : (line_breaks inside text).2 ≤ text.length := by
  fun_induction line_breaks inside text <;> simp only [List.length_cons] <;> omega

/-- The breaks lie in the text, in order. -/
theorem breaks_from_spec (place skip : Nat) (text : List Char) :
    (∀ b ∈ breaks_from place skip text, place + skip ≤ b.1 ∧ b.1 ≤ b.2 ∧ b.2 ≤ place + text.length) ∧
      (breaks_from place skip text).Pairwise fun b b' => b.2 ≤ b'.1 := by
  induction text generalizing place skip with
  | nil => exact ⟨fun b mem => absurd mem List.not_mem_nil, List.Pairwise.nil⟩
  | cons c rest ih =>
    cases skip with
    | succ skip =>
      obtain ⟨each, in_order⟩ := ih (place + 1) skip
      refine ⟨fun b mem => ?_, in_order⟩
      have b_in_text := each b mem
      rw [List.length_cons]
      omega
    | zero =>
      rw [breaks_from]
      dsimp only
      have chars_le := line_breaks_le false (c :: rest)
      rw [List.length_cons] at chars_le
      split
      · obtain ⟨each, in_order⟩ := ih (place + 1) ((line_breaks false (c :: rest)).2 - 1)
        rw [List.length_cons]
        refine ⟨fun b mem => ?_, List.pairwise_cons.mpr ⟨fun b mem => ?_, in_order⟩⟩
        · rcases List.mem_cons.mp mem with rfl | mem
          · dsimp only
            omega
          · have b_in_text := each b mem
            omega
        · have b_in_text := each b mem
          dsimp only
          omega
      · obtain ⟨each, in_order⟩ := ih (place + 1) 0
        refine ⟨fun b mem => ?_, in_order⟩
        have b_in_text := each b mem
        rw [List.length_cons]
        omega

/-- A text of one line has no breaks. -/
theorem breaks_from_nil (place : Nat) (one_line : '\n' ∉ text) : breaks_from place 0 text = [] := by
  have none_at (inside : Bool) (text : List Char) (outside : inside = false) (one_line : '\n' ∉ text) :
      line_breaks inside text = (0, 0) := by
    fun_cases line_breaks inside text <;> simp at one_line outside ⊢
  induction text generalizing place with
  | nil => rfl
  | cons c rest ih =>
    rw [breaks_from, none_at false _ rfl one_line]
    exact ih (place + 1) fun mem => one_line (List.mem_cons_of_mem _ mem)

/-- The matches of the pattern are as the library documents. -/
theorem documented_breaks (hexdigest : ∀ text, is_sha256 (x.sha256 text) = true)
    (breaks : x.paragraph_breaks = paragraph_breaks) : Documented x where
  hexdigest := hexdigest
  breaks_in_text text b mem := by
    rw [breaks] at mem
    have b_in_text := (breaks_from_spec 0 0 text.toList).1 b mem
    omega
  breaks_in_order text := by
    rw [breaks]
    exact (breaks_from_spec 0 0 text.toList).2

/-- Propositions that pass their checks are those of the citation record. -/
theorem extract_eq {text : String} {source_turn_id : Option TurnId} {propositions : List CitationProposition}
    (ok : extract_citation_propositions x text source_turn_id = .ok propositions) :
    propositions.map (fun p => (p.proposition_id, p.citation_id, p.normalized_citation, p.proposition_text,
        p.source_text_sha256, p.source_turn_id)) =
      (MootLoop.extract_citation_propositions x text source_turn_id).map fun p => (p.proposition_id, p.citation_id,
        p.normalized_citation, p.proposition_text, p.source_text_sha256, p.source_turn_id) := by
  unfold extract_citation_propositions at ok
  unfold MootLoop.extract_citation_propositions
  generalize extract_citation_occurrences x text source_turn_id = occurrences at ok
  induction occurrences generalizing propositions with
  | nil =>
    cases ok
    rfl
  | cons occurrence rest ih =>
    obtain ⟨citation, citation_start, citation_end⟩ := occurrence
    rw [List.mapM_cons] at ok
    obtain ⟨p, built, ok⟩ := bind_ok ok
    obtain ⟨later, later_ok, ok⟩ := bind_ok ok
    cases ok
    cases span : paragraph_span x text citation_start citation_end with
    | mk start stop =>
      rw [proposition_eq citation source_turn_id span] at built
      rw [List.map_cons, List.map_cons, List.map_cons, ih later_ok, (validated built).1]
      simp only [span]
      rfl

/-! ### A short paragraph and a long one -/

/-- The window of a text that is one long paragraph. -/
theorem window_of_long {text : String} {chars : List Char} {length : Nat} (text_eq : text.toList = chars)
    (length_eq : chars.length = length) (no_breaks : x.paragraph_breaks text = [])
    (start_eq : skip_space chars 0 length = 0) (stop_eq : drop_space chars 0 length = length)
    (long : MAX_PROPOSITION_CHARS < length) :
    paragraph_span x text citation_start citation_end =
      (skip_space chars (min length (citation_start - MAX_PROPOSITION_CHARS / 2 + MAX_PROPOSITION_CHARS) -
          MAX_PROPOSITION_CHARS) citation_start,
        drop_space chars citation_end
          (min length (citation_start - MAX_PROPOSITION_CHARS / 2 + MAX_PROPOSITION_CHARS))) := by
  have cut : ¬length - 0 ≤ MAX_PROPOSITION_CHARS := by omega
  simp only [paragraph_span, no_breaks, text_eq, length_eq, List.filter_nil, List.getLast?_nil, Option.elim_none,
    List.find?_nil, start_eq, stop_eq, Nat.zero_max]
  exact if_neg cut

namespace Sample

/-- A text library whose digests are those of a text and of what identifies its proposition. -/
def library (source : String) (of_source of_identity : Digest) : Externals :=
  { MootLoop.Sample.externals with
    sha256 := fun text => if text = source then of_source else of_identity
    paragraph_breaks := paragraph_breaks }

theorem library_documented {source : String} {of_source of_identity : Digest} (hex : is_sha256 of_source = true)
    (hex' : is_sha256 of_identity = true) : Documented (library source of_source of_identity) := by
  refine documented_breaks (fun text => ?_) rfl
  simp only [library]
  split <;> assumption

def short_source : String := "Notice is required. Minn. Stat. § 549.211"

def short_citation : Citation where
  citation_id := "cit-0978dbec93db"
  raw_text := "Minn. Stat. § 549.211"
  normalized := "Minn. Stat. § 549.211"
  authority_type := .state_statute

/-- A statute number of three thousand digits, after a long sentence. -/
def long_chars : List Char :=
  List.replicate 2499 'a' ++ ' ' :: "Minn. Stat. § ".toList ++ List.replicate 3000 '1'

def long_citation : Citation where
  citation_id := "cit-d8739270dbe8"
  raw_text := String.ofList ("Minn. Stat. § ".toList ++ List.replicate 3000 '1')
  normalized := String.ofList ("Minn. Stat. § ".toList ++ List.replicate 3000 '1')
  authority_type := .state_statute

theorem long_facts :
    long_chars.length = 5514 ∧ long_chars[0]? = some 'a' ∧ long_chars[452]? = some 'a' ∧
      long_chars[2500]? = some 'M' ∧ long_chars[5513]? = some '1' := by
  decide +kernel

theorem long_one_line : '\n' ∉ long_chars := by
  intro mem
  rcases List.mem_append.mp mem with mem | mem
  · rcases List.mem_append.mp mem with mem | mem
    · exact absurd (List.mem_replicate.mp mem).2 (by decide)
    · exact absurd mem (by decide)
  · exact absurd (List.mem_replicate.mp mem).2 (by decide)

def long_source : String := String.ofList long_chars

def long_library : Externals :=
  library long_source "d910ee48cd97cb808ef9402f04f32fee3d23ad20f0b087331f54f68060f65b3e"
    "c5224b9b2f902de8d8d85478a1f47cb4c7e0fcb4e76cc1c39882e8a15b02a0d9"

theorem long_documented : Documented long_library := library_documented rfl rfl

theorem long_cited : Cited long_source.toList 2500 5514 := by
  obtain ⟨_, _, _, first, last⟩ := long_facts
  rw [long_source, String.toList_ofList]
  exact ⟨by decide, ⟨_, first, by decide⟩, ⟨_, last, by decide⟩, by decide⟩

/-- The window closes before the citation does. -/
theorem long_span : paragraph_span long_library long_source 2500 5514 = (452, 4548) := by
  obtain ⟨length, at_start, at_window, _, at_end⟩ := long_facts
  have no_breaks : breaks_from 0 0 long_chars = [] := breaks_from_nil 0 long_one_line
  have start : skip_space long_chars 0 5514 = 0 := skip_space_of_plain ⟨_, at_start, by decide⟩ (by decide)
  have stop : drop_space long_chars 0 5514 = 5514 :=
    drop_space_of_plain (by rw [length]) ⟨_, at_end, by decide⟩ (by decide)
  have window : skip_space long_chars 452 2500 = 452 := skip_space_of_plain ⟨_, at_window, by decide⟩ (by decide)
  have text_eq : long_source.toList = long_chars := String.toList_ofList
  have library_breaks : long_library.paragraph_breaks = paragraph_breaks := rfl
  have breaks : long_library.paragraph_breaks long_source = [] := by
    rw [library_breaks, paragraph_breaks, text_eq, no_breaks]
  have closing : min 5514 (2500 - MAX_PROPOSITION_CHARS / 2 + MAX_PROPOSITION_CHARS) = 4548 := by decide
  have opening : 4548 - MAX_PROPOSITION_CHARS = 452 := by decide
  rw [window_of_long text_eq length breaks start stop (by decide), closing, opening, window,
    drop_space_of_le long_chars (by decide)]

end Sample

/-- A short statute at the end of its paragraph. -/
theorem short_citation_covered :
    ∃ start stop, Paragraph Sample.short_source.toList (paragraph_breaks Sample.short_source) 20 41 start stop ∧
      (Covered
          (Sample.library Sample.short_source "4b7f5ed31dc8b6e13c7b11185c7609401ddbd5a99f91c645bf8cf04ce05bc8c9"
            "aea96f97646c390cb303a8284aae078a640e0e72b19c9d8ee31eafb3b17f6a36")
          Sample.short_source Sample.short_citation none 20 41 ↔
        stop - start ≤ MAX_PROPOSITION_CHARS ∨
          41 ≤ max start (20 - MAX_PROPOSITION_CHARS / 2) + MAX_PROPOSITION_CHARS) :=
  covered_iff (Sample.library_documented rfl rfl) Sample.short_source Sample.short_citation none
    ⟨by decide, ⟨'M', rfl, by decide⟩, ⟨'1', rfl, by decide⟩, by decide⟩

/-- The statute of three thousand digits is cut off, and its proposition fails its checks. -/
theorem long_citation_cut :
    ¬∀ (x : Externals) (text : String) (citation : Citation) (citation_start citation_end : Nat), Documented x →
      Cited text.toList citation_start citation_end → Covered x text citation none citation_start citation_end := by
  intro covers
  obtain ⟨p, built, _⟩ := covers Sample.long_library Sample.long_source Sample.long_citation 2500 5514
    Sample.long_documented Sample.long_cited
  rw [proposition_eq Sample.long_citation none Sample.long_span] at built
  have closes : 5514 ≤ 4548 := (validated built).2.2
  exact absurd closes (by decide)

end MootLoop.Propositions
