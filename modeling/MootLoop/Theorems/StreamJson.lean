import MootLoop.Lib.LoadsPlaces
import MootLoop.Lib.Walk
import MootLoop.StreamJson

/-! Decoding the client's output: records come back as they were written, unless a string of one has a raw character
    that `str.splitlines` ends a line at. -/

namespace MootLoop.StreamJson
open Json (Doc DecodeError loads Place)

variable {φ : Type} {parse_float : List Char → φ}

/-! ### Lines of a record -/

theorem Record.shown (r : Record parse_float) : ∀ c ∈ r.line, Json.Shown (Doc.member_texts r.members) c :=
  Json.Written.shown _ r.written

theorem Record.isLineBreak (r : Record parse_float) {c : Char} (mem : c ∈ r.line) : isLineBreak c = isSeparator c := by
  rcases (r.shown c mem).1 with visible | rfl
  · exact isLineBreak_high visible
  · rfl

theorem Record.no_return (r : Record parse_float) : '\r' ∉ r.line := by
  intro mem
  rcases (r.shown _ mem).1 with visible | same
  · exact absurd visible (by decide)
  · exact absurd same (by decide)

/-- What follows a newline is split apart from what it ends. -/
theorem splitlines_from_append {line text rest : List Char} (none_in : '\r' ∉ text) :
    splitlines_from line (text ++ '\n' :: rest) = splitlines_from line (text ++ ['\n']) ++ splitlines rest := by
  induction text generalizing line with
  | nil =>
    rw [List.nil_append, List.nil_append, splitlines_from_cons (by decide), splitlines_from_cons (by decide),
      if_pos (by decide), if_pos (by decide)]
    rfl
  | cons c text ih =>
    have ne : c ≠ '\r' := fun same => none_in (by simp [same])
    have tail := fun mem => none_in (List.mem_cons_of_mem c mem)
    rw [List.cons_append, List.cons_append, splitlines_from_cons ne, splitlines_from_cons ne]
    split
    · rw [ih tail]
      rfl
    · exact ih tail

theorem splitlines_output (records : List (Record parse_float)) :
    splitlines (output records) = records.flatMap Record.pieces := by
  induction records with
  | nil => rfl
  | cons r records ih =>
    have split := @splitlines_from_append [] r.line (output records) r.no_return
    rw [List.flatMap_cons, ← ih, output, List.flatMap_cons, List.append_assoc, List.singleton_append]
    exact split

/-- A piece of a line is what stands between two separators, or a separator and an end of the line. -/
theorem piece_between {line text piece : List Char} (none_in : '\r' ∉ text)
    (breaks : ∀ c ∈ text, isLineBreak c = isSeparator c) (mem : piece ∈ splitlines_from line (text ++ ['\n']))
    (whole : ∀ c ∈ line, isSeparator c = false) :
    ∃ before after, line ++ text = before ++ (piece ++ after) ∧ (∀ c ∈ piece, isSeparator c = false) ∧
      (before = [] ∨ ∃ front c, before = front ++ [c] ∧ isSeparator c = true) ∧
      (after = [] ∨ ∃ c back, after = c :: back ∧ isSeparator c = true) := by
  induction text generalizing line with
  | nil =>
    rw [List.nil_append, splitlines_from_cons (by decide), if_pos (by decide)] at mem
    obtain rfl := List.mem_singleton.mp mem
    exact ⟨[], [], by simp, whole, .inl rfl, .inl rfl⟩
  | cons c text ih =>
    have ne : c ≠ '\r' := fun same => none_in (by simp [same])
    have tail := fun mem => none_in (List.mem_cons_of_mem c mem)
    have later := fun d mem => breaks d (List.mem_cons_of_mem _ mem)
    rw [List.cons_append, splitlines_from_cons ne, breaks c List.mem_cons_self] at mem
    by_cases ends : isSeparator c = true
    · rw [if_pos ends] at mem
      rcases List.mem_cons.mp mem with rfl | mem
      · exact ⟨[], c :: text, rfl, whole, .inl rfl, .inr ⟨c, text, rfl, ends⟩⟩
      · obtain ⟨before, after, split, unbroken, from_, to_⟩ := ih tail later mem fun _ mem => absurd mem List.not_mem_nil
        refine ⟨line ++ c :: before, after, by rw [← List.nil_append text, split]; simp, unbroken, .inr ?_, to_⟩
        rcases from_ with rfl | ⟨front, d, rfl, ends'⟩
        · exact ⟨line, c, rfl, ends⟩
        · exact ⟨line ++ c :: front, d, by simp, ends'⟩
    · rw [if_neg ends] at mem
      obtain ⟨before, after, split, rest⟩ := ih tail later mem fun d held => by
        rcases List.mem_append.mp held with held | held
        · exact whole d held
        · rw [List.mem_singleton.mp held]
          simpa using ends
      exact ⟨before, after, by rw [← split]; simp, rest⟩

/-! ### Stripped lines -/

theorem strip_line_split (line : List Char) : ∃ w w', line = w ++ (strip_line line ++ w') ∧ w.all isSpace ∧ w'.all isSpace := by
  have front := List.takeWhile_append_dropWhile (p := isSpace) (l := line)
  have back := List.takeWhile_append_dropWhile (p := isSpace) (l := (line.dropWhile isSpace).reverse)
  refine ⟨line.takeWhile isSpace, (((line.dropWhile isSpace).reverse).takeWhile isSpace).reverse, ?_, ?_, ?_⟩
  · have turned := congrArg List.reverse back
    rw [List.reverse_append, List.reverse_reverse] at turned
    rw [strip_line, turned, front]
  · exact List.all_takeWhile
  · rw [List.all_reverse]
    exact List.all_takeWhile

theorem strip_line_eq {line : List Char} {c d : Char} (first : line.head? = some c) (last : line.getLast? = some d)
    (no_space : isSpace c = false) (no_space' : isSpace d = false) : strip_line line = line := by
  have front : line.dropWhile isSpace = line := by
    obtain ⟨rest, rfl⟩ := List.head?_eq_some_iff.mp first
    exact List.dropWhile_cons_of_neg (by simp [no_space])
  have back : line.reverse.dropWhile isSpace = line.reverse := by
    obtain ⟨rest, rfl⟩ := List.getLast?_eq_some_iff.mp last
    rw [List.reverse_append]
    exact List.dropWhile_cons_of_neg (by simp [no_space'])
  rw [strip_line, front, back, List.reverse_reverse]

theorem Record.opens (r : Record parse_float) : ∃ u, r.line = '\x7b' :: u ∧ r.line.getLast? = some '\x7d' := by
  have written := r.written
  rw [Json.Written] at written
  obtain ⟨-, u, members, text⟩ := written
  refine ⟨u, text, ?_⟩
  rw [text, List.getLast?_cons, Json.WrittenMembers.closes _ members]
  rfl

theorem Record.strip_line (r : Record parse_float) : strip_line r.line = r.line := by
  obtain ⟨u, opening, closing⟩ := r.opens
  exact strip_line_eq (by rw [opening]; rfl) closing (by decide) (by decide)

/-! ### Whole lines -/

theorem Record.loads_line (r : Record parse_float) {rest : List Char} (white : rest.all Json.isWhite) :
    (r.Readable → loads parse_float (r.line ++ rest) = .ok (.object r.members)) ∧
      (¬ r.Readable → loads parse_float (r.line ++ rest) = .error .too_many_digits) := by
  have ends : Json.Ends rest := by
    intro c head
    have white := List.all_eq_true.mp white c (List.mem_of_mem_head? head)
    simp only [Json.isWhite, Bool.or_eq_true, decide_eq_true_eq] at white
    rcases white with ((rfl | rfl) | rfl) | rfl <;> decide
  have all_white : Json.skip rest = [] := List.dropWhile_eq_nil_iff.mpr (List.all_eq_true.mp white)
  have read := Json.loads_written r.written ends
  rw [if_pos all_white, Doc.ints] at read
  exact ⟨fun readable => read.trans (if_pos readable), fun unreadable => read.trans (if_neg unreadable)⟩

theorem Record.line_event_line (r : Record parse_float) :
    (r.Readable → line_event parse_float r.line = .ok (some r.members)) ∧
      (¬ r.Readable → line_event parse_float r.line = .error .too_many_digits) := by
  obtain ⟨read, fails⟩ := @Record.loads_line _ parse_float r [] rfl
  rw [List.append_nil] at read fails
  have some_text : r.line ≠ [] := by
    obtain ⟨u, opening, -⟩ := r.opens
    rw [opening]
    exact List.cons_ne_nil _ _
  constructor
  · intro readable
    rw [line_event, r.strip_line, if_neg some_text, read readable]
  · intro unreadable
    rw [line_event, r.strip_line, if_neg some_text, fails unreadable]

theorem Record.pieces_unbroken {r : Record parse_float} (unbroken : r.Unbroken) : r.pieces = [r.line] :=
  splitlines_from_line (fun c mem => (r.isLineBreak mem).trans (unbroken c mem)) []

/-! ### Pieces of a broken line -/

/-- Whether a string or a key of an event has a separator. -/
def separated (event : Event φ) : Bool := (Doc.member_texts event).any fun s => s.any fun n => n = 133 || n = 8232 || n = 8233

theorem separated_iff {event : Event φ} :
    separated event = true ↔ ∃ s ∈ Doc.member_texts event, ∃ n ∈ s, n = 133 ∨ n = 8232 ∨ n = 8233 := by
  simp only [separated, List.any_eq_true, Bool.or_eq_true, decide_eq_true_eq, or_assoc]

theorem isSeparator_iff {c : Char} : isSeparator c = true ↔ c.toNat = 133 ∨ c.toNat = 8232 ∨ c.toNat = 8233 := by
  simp only [isSeparator, Bool.or_eq_true, decide_eq_true_eq, or_assoc]

/-- A raw separator is in a string of the record. -/
theorem Record.separated_of_broken {r : Record parse_float} {c : Char} (mem : c ∈ r.line) (separator : isSeparator c = true) :
    separated r.members = true := by
  have high := isSeparator_high separator
  rcases (r.shown c mem).2 with low | ⟨s, held, here⟩
  · omega
  · exact separated_iff.mpr ⟨s, held, _, here, isSeparator_iff.mp separator⟩

theorem step_separator {place next : Place} {c : Char} (separator : isSeparator c = true)
    (step : place.step c = some next) : place = .inside ∧ next = .inside := by
  have high := isSeparator_high separator
  have not_quote : c ≠ '"' := by
    rintro rfl
    exact absurd separator (by decide)
  have not_backslash : c ≠ '\\' := by
    rintro rfl
    exact absurd separator (by decide)
  cases place with
  | outside => rw [Place.step, if_neg not_quote, if_neg (by omega)] at step; cases step
  | inside =>
    rw [Place.step, if_neg not_quote, if_neg not_backslash, if_neg (by omega)] at step
    exact ⟨rfl, (Option.some.inj step).symm⟩
  | escaped => rw [Place.step, if_neg (by omega)] at step; cases step

theorem isSpace_plain {c : Char} (space : isSpace c = true) : c ≠ '"' ∧ c ≠ '\\' := by
  constructor <;>
    · rintro rfl
      exact absurd space (by decide)

/-- White space does not change on which side of a quote a text is. -/
theorem scan_spaces {place next : Place} {w : List Char} (space : w.all isSpace) (side : place = .outside ∨ place = .inside)
    (scanned : place.scan w = some next) : next = place := by
  induction w with
  | nil => exact (Option.some.inj scanned).symm
  | cons c w ih =>
    rw [List.all_cons, Bool.and_eq_true] at space
    obtain ⟨middle, step, rest⟩ := Option.bind_eq_some_iff.mp scanned
    obtain ⟨not_quote, not_backslash⟩ := isSpace_plain space.1
    have stays : middle = place := by
      rcases side with rfl | rfl
      · rw [Place.step, if_neg not_quote] at step
        split at step
        · exact (Option.some.inj step).symm
        · cases step
      · rw [Place.step, if_neg not_quote, if_neg not_backslash] at step
        split at step
        · cases step
        · exact (Option.some.inj step).symm
    subst stays
    exact ih space.2 rest

theorem scan_append_some {place next : Place} {a b : List Char} (scanned : place.scan (a ++ b) = some next) :
    ∃ middle, place.scan a = some middle ∧ middle.scan b = some next := by
  rw [Place.scan_append] at scanned
  exact Option.bind_eq_some_iff.mp scanned

theorem line_event_some {piece : List Char} {event : Event φ} (h : line_event parse_float piece = .ok (some event)) :
    loads parse_float (strip_line piece) = .ok (.object event) := by
  unfold line_event at h
  split at h
  · cases h
  · split at h
    · rename_i read
      cases h
      exact read
    all_goals cases h

/-- An object that a piece of a broken line is read as has no separator in its strings: the piece stands inside a
    string of the line, where its own quotes are the ends of others. -/
theorem Record.piece_event {r : Record parse_float} (broken : ¬ r.Unbroken) {piece : List Char} (mem : piece ∈ r.pieces)
    {event : Event φ} (h : line_event parse_float piece = .ok (some event)) : separated event = false := by
  have read := Json.loads_reads (line_event_some h)
  obtain ⟨before, after, line, unbroken, from_, to_⟩ := piece_between r.no_return (fun c mem => r.isLineBreak mem) mem
    fun _ mem => absurd mem List.not_mem_nil
  obtain ⟨w, w', piece_eq, space, space'⟩ := strip_line_split piece
  have scanned := Json.Written.outside _ r.written
  rw [List.nil_append] at line
  rw [line] at scanned
  rcases from_ with rfl | ⟨front, c, rfl, separator⟩
  · -- the first piece is the whole object already
    exfalso
    rcases to_ with rfl | ⟨c, back, rfl, separator⟩
    · rw [List.nil_append, List.append_nil] at line
      exact broken fun c mem => unbroken c (line ▸ mem)
    · rw [List.nil_append, piece_eq, List.append_assoc, List.append_assoc] at scanned
      obtain ⟨start, spaces, scanned⟩ := scan_append_some scanned
      obtain rfl := scan_spaces space (.inl rfl) spaces
      obtain ⟨stop, object, scanned⟩ := scan_append_some scanned
      rw [read.outside] at object
      obtain rfl := Option.some.inj object
      obtain ⟨stop, spaces', scanned⟩ := scan_append_some scanned
      obtain rfl := scan_spaces space' (.inl rfl) spaces'
      obtain ⟨next, step, -⟩ := Option.bind_eq_some_iff.mp scanned
      cases (step_separator separator step).1
  · rw [List.append_assoc, piece_eq, List.append_assoc, List.append_assoc] at scanned
    obtain ⟨place, -, scanned⟩ := scan_append_some scanned
    obtain ⟨start, first, scanned⟩ := scan_append_some scanned
    obtain ⟨next, step, ended⟩ := Option.bind_eq_some_iff.mp first
    obtain rfl := Option.some.inj ended
    obtain ⟨-, rfl⟩ := step_separator separator step
    obtain ⟨start, spaces, scanned⟩ := scan_append_some scanned
    obtain rfl := scan_spaces space (.inr rfl) spaces
    obtain ⟨stop, inside, -⟩ := scan_append_some scanned
    obtain ⟨-, no_backslash⟩ := Place.scan_opposite (.inl ⟨rfl, rfl⟩) read.outside inside
    rw [← Bool.not_eq_true, separated_iff]
    rintro ⟨s, held, n, here, separator⟩
    obtain ⟨d, in_piece, rfl⟩ := read.raw no_backslash s held n here
    have in_piece : d ∈ piece := by
      rw [piece_eq]
      exact List.mem_append_right _ (List.mem_append_left _ in_piece)
    rw [← isSeparator_iff, unbroken d in_piece] at separator
    cases separator

/-! ### The events of an output -/

theorem line_event_line_ok {r : Record parse_float} {o : Option (Event φ)} (h : line_event parse_float r.line = .ok o) :
    r.Readable ∧ o = some r.members := by
  by_cases readable : r.Readable
  · rw [r.line_event_line.1 readable] at h
    exact ⟨readable, (Except.ok.inj h).symm⟩
  · rw [r.line_event_line.2 readable] at h
    cases h

/-- The pieces of a record have at most as many events with separators as the record is, and none if it is broken. -/
theorem Record.count_separated {r : Record parse_float} {found : List (Option (Event φ))}
    (walked : r.pieces.mapM (line_event parse_float) = .ok found) :
    (found.filterMap id).countP separated ≤ [r.members].countP separated ∧
      (¬ r.Unbroken → (found.filterMap id).countP separated < [r.members].countP separated) := by
  by_cases unbroken : r.Unbroken
  · rw [Record.pieces_unbroken unbroken] at walked
    obtain ⟨o, rest, read, rest_walked, rfl⟩ := Walk.mapM_cons_ok.mp walked
    cases rest_walked
    obtain ⟨-, rfl⟩ := line_event_line_ok read
    exact ⟨Nat.le_refl _, fun broken => absurd unbroken broken⟩
  · have none_separated : (found.filterMap id).countP separated = 0 := by
      refine List.countP_eq_zero.mpr fun event mem => ?_
      obtain ⟨o, held, same⟩ := List.mem_filterMap.mp mem
      obtain rfl : o = some event := same
      obtain ⟨piece, in_pieces, read⟩ := Walk.mem_of_mapM walked held
      rw [r.piece_event unbroken in_pieces read]
      exact Bool.false_ne_true
    have one : [r.members].countP separated = 1 := by
      obtain ⟨c, mem, separator⟩ : ∃ c ∈ r.line, isSeparator c = true := by
        by_contra none_in
        refine unbroken fun c mem => ?_
        rw [← Bool.not_eq_true]
        exact fun separator => none_in ⟨c, mem, separator⟩
      rw [List.countP_cons_of_pos (Record.separated_of_broken mem separator)]
      rfl
    rw [none_separated, one]
    exact ⟨Nat.zero_le _, fun _ => Nat.one_pos⟩

theorem count_separated {records : List (Record parse_float)} {found : List (Option (Event φ))}
    (walked : (records.flatMap Record.pieces).mapM (line_event parse_float) = .ok found) :
    (found.filterMap id).countP separated ≤ (records.map Record.members).countP separated ∧
      ((∃ r ∈ records, ¬ r.Unbroken) →
        (found.filterMap id).countP separated < (records.map Record.members).countP separated) := by
  induction records generalizing found with
  | nil =>
    cases walked
    exact ⟨Nat.le_refl _, fun ⟨r, mem, _⟩ => absurd mem List.not_mem_nil⟩
  | cons r records ih =>
    rw [List.flatMap_cons] at walked
    obtain ⟨here, later, first, rest, rfl⟩ := Walk.mapM_append_ok.mp walked
    obtain ⟨least, fewer⟩ := Record.count_separated first
    obtain ⟨least', fewer'⟩ := ih rest
    have split : ((r :: records).map Record.members).countP separated =
        [r.members].countP separated + (records.map Record.members).countP separated := by
      rw [List.map_cons, ← List.singleton_append, List.countP_append]
    rw [List.filterMap_append, List.countP_append, split]
    refine ⟨Nat.add_le_add least least', ?_⟩
    rintro ⟨r', mem, broken⟩
    rcases List.mem_cons.mp mem with rfl | mem
    · exact Nat.add_lt_add_of_lt_of_le (fewer broken) least'
    · exact Nat.add_lt_add_of_le_of_lt least (fewer' ⟨r', mem, broken⟩)

theorem walk_unbroken {records : List (Record parse_float)} (readable : ∀ r ∈ records, r.Readable)
    (unbroken : ∀ r ∈ records, r.Unbroken) :
    (records.flatMap Record.pieces).mapM (line_event parse_float) = .ok (records.map fun r => some r.members) := by
  induction records with
  | nil => rfl
  | cons r records ih =>
    rw [List.flatMap_cons, Record.pieces_unbroken (unbroken r List.mem_cons_self)]
    have here := r.line_event_line.1 (readable r List.mem_cons_self)
    have later := ih (fun r mem => readable r (List.mem_cons_of_mem _ mem)) fun r mem => unbroken r (List.mem_cons_of_mem _ mem)
    exact Walk.mapM_cons_ok.mpr ⟨_, _, here, later, rfl⟩

/-- The payload is the last of the `result` events. -/
theorem final_payload_last {front back : List (Event φ)} {event : Event φ} (result : is_result event = true)
    (last : ∀ later ∈ back, is_result later = false) : final_payload (front ++ event :: back) = some event := by
  have none_later : back.reverse.find? is_result = none :=
    List.find?_eq_none.mpr fun later mem => by simp [last later (List.mem_reverse.mp mem)]
  rw [final_payload, List.reverse_append, List.reverse_cons, List.append_assoc, List.find?_append, none_later,
    List.singleton_append, List.find?_cons_of_pos result]
  rfl

theorem json_events_output (records : List (Record parse_float)) {found : List (Option (Event φ))}
    (walked : (records.flatMap Record.pieces).mapM (line_event parse_float) = .ok found) :
    (found.filterMap id ≠ [] → json_events parse_float (output records) = .ok (found.filterMap id)) ∧
      (found.filterMap id = [] →
        json_events parse_float (output records) = whole_document parse_float (output records)) := by
  rw [json_events, splitlines_output, walked]
  constructor
  · intro some_event
    have not_empty : (!(found.filterMap id).isEmpty) = true := by simpa using some_event
    exact if_pos not_empty
  · intro no_event
    have empty : ¬ (!(found.filterMap id).isEmpty) = true := by
      rw [no_event]
      exact Bool.false_ne_true
    exact if_neg empty

theorem whole_document_output (r : Record parse_float) :
    (r.Readable → whole_document parse_float (output [r]) = .ok [r.members]) ∧
      (¬ r.Readable → whole_document parse_float (output [r]) = .error .too_many_digits) := by
  have text : output [r] = r.line ++ ['\n'] := List.append_nil _
  obtain ⟨read, fails⟩ := @Record.loads_line _ parse_float r ['\n'] rfl
  rw [text]
  exact ⟨fun readable => by rw [whole_document, read readable], fun unreadable => by rw [whole_document, fails unreadable]⟩

/-- A whole document is one event or none. -/
theorem whole_document_length {stdout : List Char} {events : List (Event φ)}
    (h : whole_document parse_float stdout = .ok events) : events.length ≤ 1 := by
  unfold whole_document at h
  split at h <;> cases h
  · exact Nat.le_refl _
  · exact Nat.zero_le _
  · exact Nat.zero_le _

/-! ### Decoding -/

/-- Where every record comes back, their integers are readable, and no raw separator stands in them, or in the only
    one and so that no piece of it is an object by itself. -/
theorem conditions_of_events {records : List (Record parse_float)}
    (decoded : json_events parse_float (output records) = .ok (records.map Record.members)) :
    (∀ r ∈ records, r.Readable) ∧ ((∀ r ∈ records, r.Unbroken) ∨
      ∃ r, records = [r] ∧ ∀ piece ∈ r.pieces, line_event parse_float piece = .ok none) := by
  obtain ⟨found, walked, -⟩ := bind_ok decoded
  rw [splitlines_output] at walked
  obtain ⟨some_events, no_events⟩ := json_events_output records walked
  by_cases unbroken : ∀ r ∈ records, r.Unbroken
  · refine ⟨fun r mem => ?_, .inl unbroken⟩
    have piece : r.line ∈ records.flatMap Record.pieces :=
      List.mem_flatMap.mpr ⟨r, mem, by rw [Record.pieces_unbroken (unbroken r mem)]; exact List.mem_singleton_self _⟩
    obtain ⟨o, -, read⟩ := Walk.exists_of_mapM walked piece
    exact (line_event_line_ok read).1
  · have broken : ∃ r ∈ records, ¬ r.Unbroken := by simpa using unbroken
    have fewer := (count_separated walked).2 broken
    by_cases empty : found.filterMap id = []
    · rw [no_events empty] at decoded
      have short := whole_document_length decoded
      rw [List.length_map] at short
      obtain ⟨r, mem, -⟩ := broken
      obtain ⟨only, rfl⟩ : ∃ only, records = [only] := by
        rcases records with _ | ⟨only, _ | ⟨next, rest⟩⟩
        · cases mem
        · exact ⟨only, rfl⟩
        · rw [List.length_cons, List.length_cons] at short
          omega
      refine ⟨fun r mem => ?_, .inr ⟨only, rfl, fun piece in_pieces => ?_⟩⟩
      · rw [List.mem_singleton.mp mem]
        by_contra unreadable
        rw [(whole_document_output only).2 unreadable] at decoded
        cases decoded
      · obtain ⟨o, held, read⟩ := Walk.exists_of_mapM walked (List.mem_flatMap.mpr ⟨only, List.mem_singleton_self _, in_pieces⟩)
        cases o with
        | none => exact read
        | some event =>
          have mem : event ∈ found.filterMap id := List.mem_filterMap.mpr ⟨some event, held, rfl⟩
          rw [empty] at mem
          cases mem
    · rw [some_events empty] at decoded
      rw [Except.ok.inj decoded] at fewer
      exact absurd fewer (Nat.lt_irrefl _)

theorem events_of_conditions {records : List (Record parse_float)} (readable : ∀ r ∈ records, r.Readable)
    (lines : (∀ r ∈ records, r.Unbroken) ∨
      ∃ r, records = [r] ∧ ∀ piece ∈ r.pieces, line_event parse_float piece = .ok none) :
    json_events parse_float (output records) = .ok (records.map Record.members) := by
  rcases lines with unbroken | ⟨r, rfl, silent⟩
  · have walked := walk_unbroken readable unbroken
    obtain ⟨some_events, no_events⟩ := json_events_output records walked
    have found : (records.map fun r => some r.members).filterMap id = records.map Record.members := by
      rw [List.filterMap_map]
      exact congrFun List.filterMap_eq_map records
    rw [found] at some_events no_events
    cases records with
    | nil => exact (no_events rfl).trans rfl
    | cons r records => exact some_events (List.cons_ne_nil _ _)
  · have walked : ([r].flatMap Record.pieces).mapM (line_event parse_float) = .ok (r.pieces.map fun _ => none) := by
      rw [List.flatMap_cons, List.flatMap_nil, List.append_nil]
      exact Walk.mapM_map silent
    have empty : (r.pieces.map fun _ => (none : Option (Event φ))).filterMap id = [] := by
      simp
    rw [(json_events_output [r] walked).2 empty]
    exact (whole_document_output r).1 (readable r (List.mem_singleton_self _))

/-- The output of records is decoded to them, with the last `result` event for the payload, if and only if their
    integers are readable and either no string of them has a raw next-line character or line or paragraph separator, or
    there is one record only and no piece that `str.splitlines` makes of it is read as an object or raises. -/
theorem decoded_iff (records : List (Record parse_float)) :
    Decoded records ↔ (∀ r ∈ records, r.Readable) ∧ ((∀ r ∈ records, r.Unbroken) ∨
      ∃ r, records = [r] ∧ ∀ piece ∈ r.pieces, line_event parse_float piece = .ok none) := by
  constructor
  · rintro ⟨events, decoded, rfl, -⟩
    exact conditions_of_events decoded
  · rintro ⟨readable, lines⟩
    refine ⟨_, events_of_conditions readable lines, rfl, fun front event back split result last => ?_⟩
    rw [split]
    exact final_payload_last result last

namespace Sample

/-- A line with an object of one string member. -/
def member_line (key value : String) : List Char :=
  '\x7b' :: (Json.quote key.toList ++ ':' :: (Json.quote value.toList ++ ['\x7d']))

theorem written_member (key value : String) :
    Json.Written (fun literal => literal) (.object [(code_points key, .string (code_points value))]) (member_line key value) := by
  have blank : Json.Blank [] := fun _ mem => absurd mem List.not_mem_nil
  rw [Json.Written]
  refine ⟨by simp, _, ?_, rfl⟩
  rw [Json.WrittenMembers]
  refine ⟨[], [], _, [], [], Json.quote value.toList, ['\x7d'], blank, blank, blank, blank, Json.quoted_quote _, ?_, ?_, rfl⟩
  · rw [Json.Written]
    exact Json.quoted_quote _
  · rw [Json.WrittenMembers]
    exact ⟨[], blank, rfl⟩

def record (key value : String) : Record fun literal => literal where
  members := [(code_points key, .string (code_points value))]
  line := member_line key value
  written := written_member key value

def note : Record fun literal => literal := record "note" "a"

/-- An event with a line separator in its text. -/
def reply : Record fun literal => literal := record "text" "a\u2028b"

theorem separator_drops_event : ¬ Decoded [note, reply] := by
  rintro ⟨events, decoded, rfl, -⟩
  obtain ⟨-, unbroken | ⟨r, single, -⟩⟩ := conditions_of_events decoded
  · exact absurd (unbroken reply (by simp) '\u2028' (by decide)) (by decide)
  · cases single

end Sample

end MootLoop.StreamJson
