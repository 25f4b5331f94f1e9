import Mathlib.Data.List.Forall2
import Mathlib.Data.List.TakeWhile

/-! Blocks of lines between an opening line, which carries a key, and the next closing line. A document of plain lines
    and fenced blocks is read back exactly when no other line of it could be a fence. -/

namespace Fences

variable {α κ : Type}

/-- How fences look: the key an opening line carries, and the closing lines. -/
structure Marks (α κ : Type) where
  opens : α → Option κ
  closes : α → Bool

/-- Each opening line's key, and the lines up to the next closing line. -/
def blocks (marks : Marks α κ) : List α → List (κ × List α)
  | [] => []
  | line :: rest =>
    match marks.opens line with
    | some key => (key, rest.takeWhile fun l => !marks.closes l) :: blocks marks rest
    | none => blocks marks rest

/-- A part of a document: lines outside of any block, or a block between its fences. -/
inductive Segment (marks : Marks α κ) where
  | plain (lines : List α)
  | block (key : κ) (opener : α) (content : List α) (closer : α) (opens : marks.opens opener = some key)
      (closes : marks.closes closer = true) (shut : marks.opens closer = none)

variable {marks : Marks α κ}

namespace Segment

def lines : Segment marks → List α
  | plain lines => lines
  | block _ opener content closer .. => opener :: content ++ [closer]

/-- The block a segment is meant to be. -/
def fenced : Segment marks → Option (κ × List α)
  | plain _ => none
  | block key _ content .. => some (key, content)

/-- No line of the segment but its fences could be one. -/
def Unfenced : Segment marks → Prop
  | plain lines => ∀ line ∈ lines, marks.opens line = none
  | block _ _ content .. => ∀ line ∈ content, marks.opens line = none ∧ marks.closes line = false

end Segment

theorem blocks_append_of_plain {front back : List α} (plain : ∀ line ∈ front, marks.opens line = none) :
    blocks marks (front ++ back) = blocks marks back := by
  induction front with
  | nil => rfl
  | cons line front ih =>
    rw [List.cons_append, blocks, plain line List.mem_cons_self]
    exact ih fun l mem => plain l (List.mem_cons_of_mem _ mem)

theorem length_blocks (lines : List α) : (blocks marks lines).length = (lines.filterMap marks.opens).length := by
  induction lines with
  | nil => rfl
  | cons line lines ih =>
    rw [blocks, List.filterMap_cons]
    split <;> simp_all

/-- The keys of blocks are those of opening lines. -/
theorem key_of_mem_blocks {lines : List α} {key : κ} {content : List α} (mem : (key, content) ∈ blocks marks lines) :
    ∃ line ∈ lines, marks.opens line = some key := by
  induction lines with
  | nil => cases mem
  | cons line lines ih =>
    rw [blocks] at mem
    split at mem
    · rename_i key' opens
      rcases List.mem_cons.mp mem with same | mem
      · cases same
        exact ⟨line, List.mem_cons_self, opens⟩
      · obtain ⟨line', mem, opens⟩ := ih mem
        exact ⟨line', List.mem_cons_of_mem _ mem, opens⟩
    · obtain ⟨line', mem, opens⟩ := ih mem
      exact ⟨line', List.mem_cons_of_mem _ mem, opens⟩

theorem takeWhile_content {content rest : List α} {closer : α} (closes : marks.closes closer = true)
    (open_content : ∀ line ∈ content, marks.closes line = false) :
    (content ++ closer :: rest).takeWhile (fun l => !marks.closes l) = content := by
  rw [List.takeWhile_append_of_pos fun line mem => by simp [open_content line mem], List.takeWhile_cons_of_neg (by simp [closes]),
    List.append_nil]

/-- What a closing line cuts short is shorter. -/
theorem content_of_takeWhile {content rest : List α} {closer : α}
    (whole : (content ++ closer :: rest).takeWhile (fun l => !marks.closes l) = content) :
    ∀ line ∈ content, marks.closes line = false := by
  intro line mem
  rw [← whole] at mem
  simpa using List.mem_takeWhile_imp mem

theorem count_opens (segments : List (Segment marks)) :
    (segments.filterMap Segment.fenced).length ≤ ((segments.flatMap Segment.lines).filterMap marks.opens).length := by
  induction segments with
  | nil => exact Nat.le_refl _
  | cons segment segments ih =>
    rw [List.flatMap_cons, List.filterMap_append, List.length_append]
    cases segment with
    | plain lines =>
      rw [List.filterMap_cons_none rfl]
      omega
    | block key opener content closer opens closes shut =>
      have fenced : Segment.fenced (.block key opener content closer opens closes shut) =
          some (key, content) := rfl
      rw [List.filterMap_cons_some fenced, List.length_cons, Segment.lines, List.cons_append,
        List.filterMap_cons_some opens, List.length_cons]
      omega

/-- A document is read back exactly when no line of it but its fences could be one. -/
theorem blocks_eq_iff (segments : List (Segment marks)) :
    blocks marks (segments.flatMap Segment.lines) = segments.filterMap Segment.fenced ↔
      ∀ segment ∈ segments, segment.Unfenced := by
  induction segments with
  | nil => simp [blocks]
  | cons segment segments ih =>
    rw [List.forall_mem_cons, ← ih, List.flatMap_cons]
    cases segment with
    | plain lines =>
      rw [List.filterMap_cons_none rfl]
      constructor
      · intro read
        have counted := congrArg List.length read
        rw [length_blocks, List.filterMap_append, List.length_append] at counted
        have least := count_opens segments
        have none_open : lines.filterMap marks.opens = [] := by
          refine List.eq_nil_of_length_eq_zero ?_
          rw [Segment.lines] at counted
          omega
        have plain : ∀ line ∈ lines, marks.opens line = none := List.filterMap_eq_nil_iff.mp none_open
        exact ⟨plain, by rwa [Segment.lines, blocks_append_of_plain plain] at read⟩
      · rintro ⟨plain, read⟩
        rw [Segment.lines, blocks_append_of_plain plain]
        exact read
    | block key opener content closer opens closes shut =>
      have body : Segment.lines (.block key opener content closer opens closes shut) ++
          segments.flatMap Segment.lines = opener :: (content ++ closer :: segments.flatMap Segment.lines) := by
        simp [Segment.lines]
      have first : blocks marks (opener :: (content ++ closer :: segments.flatMap Segment.lines)) =
          (key, (content ++ closer :: segments.flatMap Segment.lines).takeWhile fun l => !marks.closes l) ::
            blocks marks (content ++ closer :: segments.flatMap Segment.lines) := by
        rw [blocks, opens]
      have after : blocks marks (closer :: segments.flatMap Segment.lines) = blocks marks (segments.flatMap Segment.lines) := by
        rw [blocks, shut]
      have fenced : Segment.fenced (.block key opener content closer opens closes shut) =
          some (key, content) := rfl
      rw [List.filterMap_cons_some fenced, body, first, List.cons.injEq, Prod.mk.injEq]
      constructor
      · rintro ⟨⟨-, whole⟩, read⟩
        have counted := congrArg List.length read
        rw [length_blocks, List.filterMap_append, List.length_append, List.filterMap_cons_none shut] at counted
        have least := count_opens segments
        have plain : ∀ line ∈ content, marks.opens line = none := by
          refine List.filterMap_eq_nil_iff.mp (List.eq_nil_of_length_eq_zero ?_)
          omega
        rw [blocks_append_of_plain plain, after] at read
        exact ⟨fun line mem => ⟨plain line mem, content_of_takeWhile whole line mem⟩, read⟩
      · rintro ⟨unfenced, read⟩
        refine ⟨⟨rfl, takeWhile_content closes fun line mem => (unfenced line mem).2⟩, ?_⟩
        rw [blocks_append_of_plain fun line mem => (unfenced line mem).1, after]
        exact read

/-! ### Documents -/

/-- Lines whose segments are known: the blocks they are meant to be read back as, and when they are. -/
def Document (marks : Marks α κ) (lines : List α) (fenced : List (κ × List α)) (unfenced : Prop) : Prop :=
  ∃ segments : List (Segment marks), segments.flatMap Segment.lines = lines ∧
    segments.filterMap Segment.fenced = fenced ∧ ((∀ segment ∈ segments, segment.Unfenced) ↔ unfenced)

namespace Document

variable {lines lines' : List α} {fenced fenced' : List (κ × List α)} {unfenced unfenced' : Prop}

theorem read_back (document : Document marks lines fenced unfenced) : blocks marks lines = fenced ↔ unfenced := by
  obtain ⟨segments, rfl, rfl, iff⟩ := document
  rw [blocks_eq_iff, iff]

theorem nil : Document marks [] [] True := ⟨[], rfl, rfl, by simp⟩

theorem plain (lines : List α) : Document marks lines [] (∀ line ∈ lines, marks.opens line = none) :=
  ⟨[.plain lines], by simp [Segment.lines], rfl, by simp [Segment.Unfenced]⟩

theorem block {key : κ} {opener closer : α} (content : List α) (opens : marks.opens opener = some key)
    (closes : marks.closes closer = true) (shut : marks.opens closer = none) :
    Document marks (opener :: content ++ [closer]) [(key, content)]
      (∀ line ∈ content, marks.opens line = none ∧ marks.closes line = false) :=
  ⟨[.block key opener content closer opens closes shut], by simp [Segment.lines], rfl, by simp [Segment.Unfenced]⟩

theorem append (document : Document marks lines fenced unfenced) (document' : Document marks lines' fenced' unfenced') :
    Document marks (lines ++ lines') (fenced ++ fenced') (unfenced ∧ unfenced') := by
  obtain ⟨segments, rfl, rfl, iff⟩ := document
  obtain ⟨segments', rfl, rfl, iff'⟩ := document'
  refine ⟨segments ++ segments', List.flatMap_append, List.filterMap_append, ?_⟩
  rw [List.forall_mem_append, iff, iff']

theorem congr (document : Document marks lines fenced unfenced) (iff : unfenced ↔ unfenced') :
    Document marks lines fenced unfenced' := by
  obtain ⟨segments, rfl, rfl, iff'⟩ := document
  exact ⟨segments, rfl, rfl, iff'.trans iff⟩

/-- A document of parts, one for each item. -/
theorem flatMap {β γ : Type} {items : List β} {parts : List γ} {lines : γ → List α} {fenced : β → List (κ × List α)}
    {unfenced : β → Prop} (each : List.Forall₂ (fun a b => Document marks (lines b) (fenced a) (unfenced a)) items parts) :
    Document marks (parts.flatMap lines) (items.flatMap fenced) (∀ a ∈ items, unfenced a) := by
  induction each with
  | nil => exact nil.congr (by simp)
  | cons first _ ih => exact (first.append ih).congr List.forall_mem_cons.symm

end Document

end Fences
