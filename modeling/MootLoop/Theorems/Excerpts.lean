import MootLoop.Authorities
import Mathlib.Algebra.GroupWithZero.Nat
import Mathlib.Algebra.Order.Group.Nat
import Mathlib.Data.List.Pairwise

/-! What the cite checker is shown of an authority: exact excerpts of distinct paragraphs, few and short enough, and one
    at least where there is a paragraph. -/

namespace MootLoop.Authorities

open Slice List

variable {sha256 : String → Digest} {casefold : List Char → List Char} {authority : OpinionAuthorityStoreRecord}
  {terms : List (List Char)} {text : List Char}

/-! ### Paragraphs -/

/-- Breaks in order, between `start` and the end of the text. -/
def InOrder (length : Nat) : Nat → List (Nat × Nat) → Prop
  | start, [] => start ≤ length
  | start, (first, last) :: breaks => start ≤ first ∧ first ≤ last ∧ InOrder length last breaks

theorem InOrder.start_le {length start : Nat} {breaks : List (Nat × Nat)} (in_order : InOrder length start breaks) :
    start ≤ length := by
  induction breaks generalizing start with
  | nil => exact in_order
  | cons gap breaks ih =>
    obtain ⟨before, within, rest⟩ := in_order
    exact before.trans (within.trans (ih rest))

theorem breaks_in_order (rest : List Char) (place newlines start : Nat) (counted : newlines ≤ place)
    (before : start ≤ place - newlines) : InOrder (place + rest.length) start (breaks_after place newlines rest) := by
  induction rest generalizing place newlines start with
  | nil =>
    rw [breaks_after]
    split
    · exact ⟨before, Nat.sub_le _ _, Nat.le_refl _⟩
    · exact before.trans (Nat.sub_le _ _)
  | cons c rest ih =>
    have length_eq : place + (c :: rest).length = place + 1 + rest.length := by rw [List.length_cons]; omega
    rw [breaks_after, length_eq]
    split
    · exact ih _ _ _ (by omega) (by omega)
    · split
      · exact ⟨before, Nat.sub_le _ _, ih _ _ _ (by omega) (by omega)⟩
      · exact ih _ _ _ (by omega) (by omega)

/-- A paragraph is a slice of its text that is not empty. -/
structure Paragraph.Of (text : List Char) (p : Paragraph) : Prop where
  some_text : p.start < p.stop
  within : p.stop ≤ text.length
  exact_text : p.text = slice text p.start p.stop

theorem paragraphs_between_spec {start : Nat} {breaks : List (Nat × Nat)} (in_order : InOrder text.length start breaks) :
    (∀ p ∈ paragraphs_between text start breaks, start ≤ p.start ∧ p.Of text) ∧
      (paragraphs_between text start breaks).Pairwise fun p q => p.stop ≤ q.start := by
  induction breaks generalizing start with
  | nil =>
    rw [paragraphs_between]
    split
    · rename_i lt
      refine ⟨fun p mem => ?_, pairwise_singleton _ _⟩
      rw [mem_singleton.mp mem]
      exact ⟨Nat.le_refl _, lt, Nat.le_refl _, slice_length.symm⟩
    · exact ⟨fun p mem => absurd mem not_mem_nil, Pairwise.nil⟩
  | cons gap breaks ih =>
    obtain ⟨first, last⟩ := gap
    obtain ⟨before, within, rest⟩ := in_order
    obtain ⟨each, apart⟩ := ih rest
    rw [paragraphs_between]
    split
    · rename_i lt
      refine ⟨fun p mem => ?_, pairwise_cons.mpr ⟨fun q mem => within.trans (each q mem).1, apart⟩⟩
      rcases mem_cons.mp mem with rfl | mem
      · exact ⟨Nat.le_refl _, lt, within.trans rest.start_le, rfl⟩
      · exact ⟨before.trans (within.trans (each p mem).1), (each p mem).2⟩
    · exact ⟨fun p mem => ⟨before.trans (within.trans (each p mem).1), (each p mem).2⟩, apart⟩

theorem paragraphs_spec (text : List Char) :
    (∀ p ∈ paragraphs text, p.Of text) ∧ (paragraphs text).Pairwise fun p q => p.stop ≤ q.start := by
  have in_order : InOrder text.length 0 (breaks_after 0 0 text) := by
    have whole := breaks_in_order text 0 0 0 (Nat.le_refl _) (Nat.le_refl _)
    rwa [Nat.zero_add] at whole
  obtain ⟨each, apart⟩ := paragraphs_between_spec in_order
  exact ⟨fun p mem => (each p mem).2, apart⟩

/-! ### Windows -/

/-- A window is not empty, lies in the text, and is at most the ceiling long. -/
theorem window_spec (casefold : List Char → List Char) (terms : List (List Char)) (text : List Char) (ceiling : Nat)
    (some_text : 0 < text.length) (room : 0 < ceiling) :
    (window casefold terms text ceiling).1 < (window casefold terms text ceiling).2 ∧
      (window casefold terms text ceiling).2 ≤ text.length ∧
      (window casefold terms text ceiling).2 - (window casefold terms text ceiling).1 ≤ ceiling := by
  simp only [window]
  omega

/-! ### Passages -/

/-- The digests are 64 lowercase hexadecimal characters. -/
def Hexdigest (sha256 : String → Digest) : Prop := ∀ text, is_sha256 (sha256 text) = true

theorem passage_id_valid (hex : Hexdigest sha256) (identity : String) :
    is_passage_id ("passage-" ++ String.ofList ((sha256 identity).toList.take 16)) = true := by
  have digest := hex identity
  simp only [is_sha256, Bool.and_eq_true, decide_eq_true_eq] at digest
  obtain ⟨length, all_hex⟩ := digest
  have chars : ("passage-" ++ String.ofList ((sha256 identity).toList.take 16)).toList =
      "passage-".toList ++ (sha256 identity).toList.take 16 := by
    rw [String.toList_append]
    exact congrArg ("passage-".toList ++ ·) String.toList_ofList
  simp only [is_passage_id, Bool.and_eq_true, decide_eq_true_eq, chars]
  refine ⟨⟨?_, ?_⟩, ?_⟩
  · exact isPrefixOf_iff_prefix.mpr (prefix_append _ _)
  · rw [length_append, length_take, length]
    rfl
  · rw [drop_left' (by rfl)]
    exact all_eq_true.mpr fun c mem => all_eq_true.mp all_hex c (mem_of_mem_take mem)

theorem passage_valid (hex : Hexdigest sha256) (authority : OpinionAuthorityStoreRecord) (start : Nat)
    {bounded : List Char} (some_text : bounded ≠ [])
    (short : bounded.length ≤ 4096) :
    (passage sha256 authority start bounded).model_validate = .ok (passage sha256 authority start bounded) := by
  have pos := length_pos_iff.mpr some_text
  have id_valid := passage_id_valid hex
    s!"{authority.content_sha256}\n{start}\n{start + bounded.length}\n{sha256 (String.ofList bounded)}"
  have valid_id : is_passage_id (passage sha256 authority start bounded).passage_id = true := id_valid
  have text_hex : is_sha256 (passage sha256 authority start bounded).text_sha256 = true := hex _
  have authority_hex : is_sha256 (passage sha256 authority start bounded).authority_sha256 = true := authority.content_hex
  have text_eq : (passage sha256 authority start bounded).text.toList = bounded := String.toList_ofList
  have span : (passage sha256 authority start bounded).start = start ∧
      (passage sha256 authority start bounded).stop = start + bounded.length := ⟨rfl, rfl⟩
  unfold AuthorityPassage.model_validate
  rw [valid_id, text_hex, authority_hex, text_eq, span.1, span.2]
  simp only [Bool.not_true, Bool.false_eq_true, if_false]
  rw [if_neg (by omega), if_neg (by omega), if_neg (by omega), if_neg (by omega)]

/-- A passage excerpts a paragraph: it is the text between its offsets, within the paragraph's. -/
structure Excerpts (text : List Char) (found : AuthorityPassage) (p : Paragraph) : Prop where
  some_text : found.start < found.stop
  within : p.start ≤ found.start ∧ found.stop ≤ p.stop
  exact_text : found.text.toList = slice text found.start found.stop
  short : found.text.toList.length ≤ MAX_PASSAGE_CHARS

/-- The characters of some passages. -/
def total_chars (passages : List AuthorityPassage) : Nat := (passages.map (·.text.toList.length)).sum

/-- What the loop adds: an excerpt of each of some of the paragraphs left, within the budgets. -/
theorem select_loop_spec (hex : Hexdigest sha256) (casefold : List Char → List Char) (terms : List (List Char)) (rest : List Ranked) (passages : List AuthorityPassage) (total : Nat)
    (paragraphs : ∀ r ∈ rest, r.paragraph.Of authority.text.toList) (few : passages.length ≤ MAX_PASSAGES)
    (bounded : total ≤ MAX_PASSAGE_TOTAL_CHARS) :
    ∃ (new : List AuthorityPassage) (chosen : List Ranked),
      select_loop sha256 casefold authority terms rest passages total = .ok (passages ++ new) ∧ chosen.Sublist rest ∧
        Forall₂ (fun found r => Excerpts authority.text.toList found r.paragraph) new chosen ∧
        passages.length + new.length ≤ MAX_PASSAGES ∧ total + total_chars new ≤ MAX_PASSAGE_TOTAL_CHARS ∧
        (passages = [] → total = 0 → rest ≠ [] → new ≠ []) := by
  induction rest generalizing passages total with
  | nil =>
    exact ⟨[], [], by rw [append_nil]; rfl, .slnil, .nil, few, bounded, fun _ _ some_left => absurd rfl some_left⟩
  | cons r rest ih =>
    obtain ⟨score, p⟩ := r
    have later_paragraphs : ∀ r ∈ rest, r.paragraph.Of authority.text.toList := fun r mem =>
      paragraphs r (mem_cons_of_mem _ mem)
    rw [select_loop]
    split
    · rename_i unscored
      exact ⟨[], [], by rw [append_nil], nil_sublist _, .nil, few, bounded, fun empty => absurd empty unscored.2⟩
    · split
      · rename_i full
        refine ⟨[], [], by rw [append_nil], nil_sublist _, .nil, few, bounded, fun empty zero _ => ?_⟩
        subst empty zero
        rcases full with full | full <;> exact absurd full (by decide)
      · rename_i room
        obtain ⟨more, room⟩ := not_or.mp room
        obtain ⟨some_text, within, exact_text⟩ : p.Of authority.text.toList := paragraphs ⟨score, p⟩ mem_cons_self
        simp only [ge_iff_le, not_le] at room
        have length_eq : p.text.length = p.stop - p.start := by rw [exact_text, length_slice within]
        obtain ⟨opens, closes, short⟩ := window_spec casefold terms p.text
          (min MAX_PASSAGE_CHARS (MAX_PASSAGE_TOTAL_CHARS - total)) (by omega)
          (lt_min (by decide) (by omega))
        dsimp only
        generalize window casefold terms p.text (min MAX_PASSAGE_CHARS (MAX_PASSAGE_TOTAL_CHARS - total)) = w at *
        obtain ⟨first, last⟩ := w
        dsimp only at opens closes short ⊢
        have chars : (slice p.text first last).length = last - first := length_slice closes
        have some_chars : slice p.text first last ≠ [] := length_pos_iff.mp (by omega)
        have per_passage : last - first ≤ MAX_PASSAGE_CHARS := short.trans (min_le_left _ _)
        have in_total : last - first ≤ MAX_PASSAGE_TOTAL_CHARS - total := short.trans (min_le_right _ _)
        have valid := passage_valid hex authority (p.start + first) some_chars
          (by rw [chars]; exact per_passage)
        rw [if_neg some_chars, valid]
        obtain ⟨new, chosen, ok, sub, excerpts, count, sum, _⟩ :=
          ih (passages ++ [passage sha256 authority (p.start + first) (slice p.text first last)])
            (total + (slice p.text first last).length) later_paragraphs (by rw [length_append]; exact Nat.lt_of_le_of_ne few more)
            (by omega)
        have excerpt : Excerpts authority.text.toList
            (passage sha256 authority (p.start + first) (slice p.text first last)) p := by
          have stop_eq : (passage sha256 authority (p.start + first) (slice p.text first last)).stop = p.start + last := by
            change p.start + first + (slice p.text first last).length = _
            omega
          have text_eq : (passage sha256 authority (p.start + first) (slice p.text first last)).text.toList =
              slice p.text first last := String.toList_ofList
          refine ⟨?_, ⟨Nat.le_add_right _ _, ?_⟩, ?_, ?_⟩
          · rw [stop_eq]
            exact Nat.add_lt_add_left opens _
          · rw [stop_eq]
            omega
          · rw [text_eq, stop_eq, exact_text]
            exact slice_slice (by omega)
          · rw [text_eq, chars]
            exact per_passage
        refine ⟨_ :: new, ⟨score, p⟩ :: chosen, ?_, sub.cons_cons _, .cons excerpt excerpts, ?_, ?_, fun _ _ _ => cons_ne_nil _ _⟩
        · exact ok.trans (by rw [append_assoc]; rfl)
        · simp only [length_append, length_cons, length_nil] at count ⊢
          omega
        · have text_eq : (passage sha256 authority (p.start + first) (slice p.text first last)).text.toList =
              slice p.text first last := String.toList_ofList
          rw [total_chars, map_cons, sum_cons, text_eq, ← Nat.add_assoc]
          exact sum

/-- The ranked paragraphs are those of the text, each once. -/
theorem ranked_spec (casefold : List Char → List Char) (authority : OpinionAuthorityStoreRecord) (terms : List (List Char)) :
    ((ranked casefold authority terms).map (·.paragraph)).Perm (paragraphs authority.text.toList) := by
  have sorted := (perm_insertionSort (fun a b : Ranked => a.score > b.score ∨ a.score = b.score ∧
    a.paragraph.start ≤ b.paragraph.start) ((paragraphs authority.text.toList).map (rank casefold terms))).map (·.paragraph)
  rw [map_map] at sorted
  exact sorted.trans (Perm.of_eq (map_id _))

theorem paragraphs_nodup (text : List Char) : (paragraphs text).Nodup := by
  obtain ⟨each, apart⟩ := paragraphs_spec text
  refine apart.imp_of_mem fun {p q} p_mem _ before same => ?_
  subst same
  exact absurd (each p p_mem).some_text (Nat.not_lt_of_le before)

theorem excerpted {E : AuthorityPassage → Ranked → Prop} {passages : List AuthorityPassage} {chosen : List Ranked}
    (excerpts : Forall₂ E passages chosen) : ∀ found ∈ passages, ∃ r ∈ chosen, E found r := by
  induction excerpts with
  | nil => exact fun found mem => absurd mem not_mem_nil
  | @cons first r _ _ excerpt _ ih =>
    intro found mem
    rcases mem_cons.mp mem with rfl | mem
    · exact ⟨r, mem_cons_self, excerpt⟩
    · obtain ⟨r', r'_mem, excerpt'⟩ := ih found mem
      exact ⟨r', mem_cons_of_mem _ r'_mem, excerpt'⟩

/-- Two passages share no character of the text. -/
def Disjoint (p q : AuthorityPassage) : Prop := p.stop ≤ q.start ∨ q.stop ≤ p.start

/-- Excerpts of paragraphs that do not overlap do not overlap. -/
theorem disjoint_of_excerpts {passages : List AuthorityPassage} {chosen : List Ranked}
    (excerpts : Forall₂ (fun found r => Excerpts text found r.paragraph) passages chosen)
    (apart : (chosen.map (·.paragraph)).Pairwise fun p q => p.stop ≤ q.start ∨ q.stop ≤ p.start) :
    passages.Pairwise Disjoint := by
  induction excerpts with
  | nil => exact Pairwise.nil
  | @cons found r _ _ excerpt excerpts ih =>
    obtain ⟨first, rest⟩ := pairwise_cons.mp apart
    refine pairwise_cons.mpr ⟨fun other mem => ?_, ih rest⟩
    obtain ⟨r', r'_mem, excerpt'⟩ := excerpted excerpts other mem
    rcases first r'.paragraph (mem_map_of_mem r'_mem) with before | after
    · exact .inl (excerpt.within.2.trans (before.trans excerpt'.within.1))
    · exact .inr (excerpt'.within.2.trans (after.trans excerpt.within.1))

/-- Selection never raises. Its passages excerpt distinct paragraphs, so that no two overlap; there are at most eight,
    of at most 4096 characters each and 16384 together, and one at least if the text has a paragraph. -/
theorem selection (hex : Hexdigest sha256) (authority : OpinionAuthorityStoreRecord) (proposition_text : String) :
    ∃ passages, select_passages sha256 casefold authority proposition_text = .ok passages ∧
      (∀ found ∈ passages, found.start < found.stop ∧ found.stop ≤ authority.text.toList.length ∧
        found.text.toList = slice authority.text.toList found.start found.stop) ∧
      (∃ chosen, chosen.Nodup ∧ chosen ⊆ paragraphs authority.text.toList ∧
        Forall₂ (fun found p => p.start ≤ found.start ∧ found.stop ≤ p.stop) passages chosen) ∧
      passages.Pairwise Disjoint ∧ passages.length ≤ 8 ∧
      (∀ found ∈ passages, found.text.toList.length ≤ 4096) ∧ total_chars passages ≤ 16384 ∧
      (paragraphs authority.text.toList ≠ [] → passages ≠ []) := by
  obtain ⟨each, apart⟩ := paragraphs_spec authority.text.toList
  have same := ranked_spec casefold authority (tokens (casefold proposition_text.toList)).dedup
  obtain ⟨passages, chosen, ok, sub, excerpts, few, sum, some_passage⟩ :=
    select_loop_spec hex casefold (tokens (casefold proposition_text.toList)).dedup
      (ranked casefold authority (tokens (casefold proposition_text.toList)).dedup) [] 0
      (fun r mem => each _ (same.mem_iff.mp (mem_map_of_mem mem))) (Nat.zero_le _) (Nat.zero_le _)
  obtain ⟨ordered, reordered, in_text⟩ : (chosen.map (·.paragraph)).Subperm (paragraphs authority.text.toList) :=
    (sub.map _).subperm.trans same.subperm
  have chosen_apart : (chosen.map (·.paragraph)).Pairwise fun p q => p.stop ≤ q.start ∨ q.stop ≤ p.start :=
    reordered.pairwise ((apart.sublist in_text).imp .inl) Or.symm
  refine ⟨passages, ok, fun found mem => ?_,
    ⟨chosen.map (·.paragraph), reordered.nodup_iff.mp ((paragraphs_nodup _).sublist in_text),
      fun p mem => in_text.subset (reordered.mem_iff.mpr mem), ?_⟩,
    disjoint_of_excerpts excerpts chosen_apart, ?_, fun found mem => ?_, ?_, fun some_paragraph => ?_⟩
  · obtain ⟨r, chosen_r, excerpt⟩ := excerpted excerpts found mem
    have r_in_text := in_text.subset (reordered.mem_iff.mpr (mem_map_of_mem chosen_r))
    exact ⟨excerpt.some_text, excerpt.within.2.trans (each _ r_in_text).within, excerpt.exact_text⟩
  · exact forall₂_map_right_iff.mpr (excerpts.imp fun _ _ e => e.within)
  · rwa [length_nil, Nat.zero_add] at few
  · obtain ⟨r, _, excerpt⟩ := excerpted excerpts found mem
    exact excerpt.short
  · rwa [Nat.zero_add] at sum
  · refine some_passage rfl rfl fun none_ranked => some_paragraph ?_
    rw [none_ranked] at same
    exact perm_nil.mp same.symm

namespace Sample

def opinion : String := "The facts are unrelated.\n\nNotice is required before relief."

def digests (text : String) : Digest :=
  if text = "Notice is required before relief." then
    "32b7e6392b85a324a5a5f181dbe18287531c48fe0a1ac5023d55c0e1776b739d"
  else if text = opinion then "bc2aa2adcb00efab440d4eb3367964587356e44fadb5a43d2c0012f352e47a0a"
  else "8ab02dee8e71872e419d18c0a733de2975eb61a302ae5da51f132baf0790a4f1"

theorem digests_hex : Hexdigest digests := by
  intro text
  unfold digests
  split
  · rfl
  · split <;> rfl

def captured : OpinionAuthorityStoreRecord where
  citation_id := "cit-0123456789ab"
  cluster_id := 108713
  opinion_ids := [12345]
  source_url := "https://www.courtlistener.com/opinion/108713/"
  fetched_at := "2026-08-22T15:00:00+00:00"
  content_sha256 := "bc2aa2adcb00efab440d4eb3367964587356e44fadb5a43d2c0012f352e47a0a"
  text := opinion
  some_cluster := by decide
  some_opinions := by decide
  content_hex := rfl
  bounds := by decide

end Sample

theorem selection_from_opinion :
    ∃ passages, select_passages Sample.digests (·.map Char.toLower) Sample.captured "Notice is required." = .ok passages ∧
      passages.length ≤ 8 ∧ passages ≠ [] := by
  obtain ⟨passages, ok, _, _, _, few, _, _, some_passage⟩ :=
    @selection Sample.digests (·.map Char.toLower) Sample.digests_hex Sample.captured "Notice is required."
  exact ⟨passages, ok, few, some_passage (by decide)⟩

end MootLoop.Authorities
