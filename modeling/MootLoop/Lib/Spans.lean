import MootLoop.Lib.Slice

/-! The matches of a pattern in a text with their places, left to right and without overlap, and the spans the matches
    and the texts between them cut the text into. -/

namespace Spans

variable {α β : Type}

/-- A pattern that never matches the empty text: what it reads at a place, after the element before it, and the rest of
    the text. -/
structure Pattern (α β : Type) where
  read : Option α → List α → Option (β × List α)
  consumes : ∀ {before text value rest}, read before text = some (value, rest) → rest.length < text.length

/-! ### Patterns from pieces -/

/-- A piece of a pattern, read greedily and without backtracking: the rest of the text after it. -/
structure Piece (α : Type) where
  read : List α → Option (List α)
  shrinks : ∀ {text rest}, read text = some rest → rest.length ≤ text.length

namespace Piece

/-- The piece never matches the empty text. -/
def Strict (piece : Piece α) : Prop := ∀ text rest, piece.read text = some rest → rest.length < text.length

def nothing : Piece α := ⟨some, fun h => by cases h; exact Nat.le_refl _⟩

def one (p : α → Bool) : Piece α where
  read
    | [] => none
    | a :: text => if p a then some text else none
  shrinks {text rest} h := by
    cases text with
    | nil => cases h
    | cons a text =>
      dsimp only at h
      split at h
      · cases h
        exact Nat.le_succ _
      · cases h

def many (p : α → Bool) : Piece α where
  read text := some (text.dropWhile p)
  shrinks h := by
    cases h
    exact (List.dropWhile_suffix _).length_le

def seq (first second : Piece α) : Piece α where
  read text := (first.read text).bind second.read
  shrinks h := by
    obtain ⟨rest, read, h⟩ := Option.bind_eq_some_iff.mp h
    exact Nat.le_trans (second.shrinks h) (first.shrinks read)

def either (first second : Piece α) : Piece α where
  read text := (first.read text).or (second.read text)
  shrinks {text rest} h := by
    rcases Option.or_eq_some_iff.mp h with read | ⟨-, read⟩
    · exact first.shrinks read
    · exact second.shrinks read

def maybe (piece : Piece α) : Piece α := either piece nothing

def some_of (p : α → Bool) : Piece α := seq (one p) (many p)

/-- Elements one by one. -/
def all : List (α → Bool) → Piece α
  | [] => nothing
  | p :: ps => seq (one p) (all ps)

/-- Nothing, where a condition holds of what follows. -/
def ahead (holds : List α → Bool) : Piece α where
  read text := if holds text then some text else none
  shrinks h := by
    split at h
    · cases h
      exact Nat.le_refl _
    · cases h

theorem one_strict (p : α → Bool) : (one p).Strict := by
  intro text rest h
  cases text with
  | nil => cases h
  | cons a text =>
    dsimp only [one] at h
    split at h
    · cases h
      exact Nat.lt_succ_self _
    · cases h

theorem seq_strict {first second : Piece α} (strict : first.Strict) : (seq first second).Strict := by
  intro text rest h
  obtain ⟨middle, read, h⟩ := Option.bind_eq_some_iff.mp h
  exact Nat.lt_of_le_of_lt (second.shrinks h) (strict _ _ read)

theorem all_strict {p : α → Bool} {ps : List (α → Bool)} : (all (p :: ps)).Strict := seq_strict (one_strict p)

end Piece

/-- A pattern of three pieces, the middle one captured, at the places a condition on the element before them holds of. -/
def Pattern.capture (place : Option α → Bool) (lead group tail : Piece α) (strict : group.Strict) : Pattern α (List α) where
  read before text :=
    if place before then do
      let from_group ← lead.read text
      let after_group ← group.read from_group
      let rest ← tail.read after_group
      return (from_group.take (from_group.length - after_group.length), rest)
    else none
  consumes {before text value rest} h := by
    split at h
    · obtain ⟨from_group, lead_read, h⟩ := Option.bind_eq_some_iff.mp h
      obtain ⟨after_group, group_read, h⟩ := Option.bind_eq_some_iff.mp h
      obtain ⟨rest', tail_read, h⟩ := Option.bind_eq_some_iff.mp h
      cases h
      exact Nat.lt_of_le_of_lt (tail.shrinks tail_read) (Nat.lt_of_lt_of_le (strict _ _ group_read) (lead.shrinks lead_read))
    · cases h

/-! ### Matches -/

/-- One match: what it read, and from where to where. -/
structure Match (β : Type) where
  value : β
  start : Nat
  stop : Nat
  deriving DecidableEq, Repr

/-- The matches from the first place past `skip`, in a text that begins at `pos`. -/
def finditer (pattern : Pattern α β) : (pos skip : Nat) → Option α → List α → List (Match β)
  | _, _, _, [] => []
  | pos, skip + 1, _, a :: text => finditer pattern (pos + 1) skip (some a) text
  | pos, 0, before, a :: text =>
    match pattern.read before (a :: text) with
    | some (value, rest) =>
      let width := (a :: text).length - rest.length
      ⟨value, pos, pos + width⟩ :: finditer pattern (pos + 1) (width - 1) (some a) text
    | none => finditer pattern (pos + 1) 0 (some a) text

/-- Matches between two places, none empty and none before the end of the one before it. -/
def Chained : Nat → List (Match β) → Nat → Prop
  | low, [], high => low ≤ high
  | low, m :: ms, high => low ≤ m.start ∧ m.start < m.stop ∧ Chained m.stop ms high

theorem Chained.le {low high : Nat} {ms : List (Match β)} (chained : Chained low ms high) : low ≤ high := by
  induction ms generalizing low with
  | nil => exact chained
  | cons m ms ih =>
    obtain ⟨first, some_text, rest⟩ := chained
    exact Nat.le_trans first (Nat.le_trans (Nat.le_of_lt some_text) (ih rest))

theorem Chained.mono {low low' high : Nat} {ms : List (Match β)} (le : low' ≤ low) (chained : Chained low ms high) :
    Chained low' ms high := by
  cases ms with
  | nil => exact Nat.le_trans le chained
  | cons m ms => exact ⟨Nat.le_trans le chained.1, chained.2⟩

theorem finditer_chained (pattern : Pattern α β) {pos skip : Nat} {before : Option α} {text : List α}
    (within : skip ≤ text.length) :
    Chained (pos + skip) (finditer pattern pos skip before text) (pos + text.length) := by
  induction text generalizing pos skip before with
  | nil =>
    have none_left : skip = 0 := Nat.le_zero.mp within
    subst none_left
    exact Nat.le_refl _
  | cons a text ih =>
    have end_eq : pos + (a :: text).length = pos + 1 + text.length := by rw [List.length_cons]; omega
    rw [end_eq]
    cases skip with
    | succ skip =>
      have room : skip ≤ text.length := Nat.le_of_succ_le_succ within
      have place : pos + (skip + 1) = pos + 1 + skip := by omega
      rw [finditer, place]
      exact ih room
    | zero =>
      rw [finditer]
      split
      · rename_i value rest found
        have shorter := pattern.consumes found
        rw [List.length_cons] at shorter
        have room : text.length + 1 - rest.length - 1 ≤ text.length := by omega
        have later := @ih (pos + 1) _ (some a) room
        have place : pos + 1 + (text.length + 1 - rest.length - 1) = pos + (text.length + 1 - rest.length) := by omega
        rw [place] at later
        exact ⟨Nat.le_refl _, by simp only [List.length_cons]; omega, later⟩
      · exact (@ih (pos + 1) 0 _ (Nat.zero_le _)).mono (by omega)

/-- Matches of a later part of a text, moved to their places in it. -/
def Match.moved (offset : Nat) (m : Match β) : Match β := ⟨m.value, offset + m.start, offset + m.stop⟩

theorem Chained.moved {low high : Nat} {ms : List (Match β)} (offset : Nat) (chained : Chained low ms high) :
    Chained (offset + low) (ms.map (·.moved offset)) (offset + high) := by
  induction ms generalizing low with
  | nil => exact Nat.add_le_add_left chained _
  | cons m ms ih =>
    obtain ⟨first, some_text, rest⟩ := chained
    exact ⟨Nat.add_le_add_left first _, Nat.add_lt_add_left some_text _, ih rest⟩

/-! ### The spans of the matches and of the texts between them -/

/-- Where the text after a match ends: at the next match, or with the whole text. -/
def next_start (high : Nat) : List (Match β) → Nat
  | [] => high
  | m :: _ => m.start

/-- The texts after each match. -/
def bodies (high : Nat) : List (Match β) → List (Nat × Nat)
  | [] => []
  | m :: ms => (m.stop, next_start high ms) :: bodies high ms

/-- Each match and the text after it. -/
def spans (high : Nat) : List (Match β) → List (Nat × Nat)
  | [] => []
  | m :: ms => (m.start, m.stop) :: (m.stop, next_start high ms) :: spans high ms

/-- Spans that follow each other from one place to another without a gap or an overlap. -/
def Tiles : Nat → List (Nat × Nat) → Nat → Prop
  | low, [], high => low = high
  | low, span :: rest, high => span.1 = low ∧ span.1 ≤ span.2 ∧ Tiles span.2 rest high

theorem Chained.tiles {low high : Nat} {ms : List (Match β)} (chained : Chained low ms high) :
    Tiles (next_start high ms) (spans high ms) high := by
  induction ms generalizing low with
  | nil => rfl
  | cons m ms ih =>
    obtain ⟨-, some_text, rest⟩ := chained
    have before_next : m.stop ≤ next_start high ms := by
      cases ms with
      | nil => exact rest
      | cons m' ms => exact rest.1
    exact ⟨rfl, Nat.le_of_lt some_text, rfl, before_next, ih rest⟩

theorem Tiles.le {low high : Nat} {spans : List (Nat × Nat)} (tiles : Tiles low spans high) : low ≤ high := by
  induction spans generalizing low with
  | nil => exact Nat.le_of_eq tiles
  | cons span rest ih =>
    obtain ⟨rfl, forward, tail⟩ := tiles
    exact Nat.le_trans forward (ih tail)

/-- Tiling spans, cut out one after the other, give the text back. -/
theorem Tiles.flatMap_slice {low : Nat} {spans : List (Nat × Nat)} {text : List α}
    (tiles : Tiles low spans text.length) : spans.flatMap (fun span => Slice.slice text span.1 span.2) = text.drop low := by
  induction spans generalizing low with
  | nil =>
    have all : low = text.length := tiles
    rw [all, List.drop_length, List.flatMap_nil]
  | cons span rest ih =>
    obtain ⟨rfl, forward, tail⟩ := tiles
    rw [List.flatMap_cons, ih tail, Slice.slice]
    have beyond : span.2 = span.1 + (span.2 - span.1) := by omega
    rw [beyond, ← List.drop_drop, Nat.add_sub_cancel_left, List.take_append_drop]

/-- Tiling spans share no place. -/
theorem Tiles.pairwise {low high : Nat} {spans : List (Nat × Nat)} (tiles : Tiles low spans high) :
    spans.Pairwise fun a b => a.2 ≤ b.1 := by
  induction spans generalizing low with
  | nil => exact .nil
  | cons span rest ih =>
    obtain ⟨-, -, tail⟩ := tiles
    refine .cons ?_ (ih tail)
    intro other mem
    clear ih
    induction rest generalizing span with
    | nil => cases mem
    | cons next rest ih =>
      obtain ⟨start, forward, tail⟩ := tail
      rcases List.mem_cons.mp mem with rfl | mem
      · exact Nat.le_of_eq start.symm
      · exact Nat.le_trans (Nat.le_of_eq start.symm) (Nat.le_trans forward (ih next tail mem))

end Spans
