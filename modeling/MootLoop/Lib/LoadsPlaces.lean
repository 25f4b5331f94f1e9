import Mathlib.Data.List.TakeWhile
import MootLoop.Lib.LoadsGrammar

/-! Where the strings of a JSON text are: what the reader reads leaves every string that it enters, so that no text is
    read from inside and from outside of a string, but for one without a backslash. -/

namespace Json

variable {φ : Type}

/-! ### Where the strings of a text are -/

/-- Where a place of a text is with respect to its strings. -/
inductive Place where
  | outside
  | inside
  | escaped
  deriving DecidableEq, Repr

/-- The place after a character; outside of strings only ASCII and no backslash can stand. -/
def Place.step : Place → Char → Option Place
  | outside, c => if c = '"' then some inside else if c.toNat < 127 ∧ c ≠ '\\' then some outside else none
  | inside, c =>
    if c = '"' then some outside else if c = '\\' then some escaped else if c.toNat < 32 then none else some inside
  | escaped, c => if c.toNat < 127 then some inside else none

/-- The place after a text, if a text that is read could begin with it. -/
def Place.scan : Place → List Char → Option Place
  | place, [] => some place
  | place, c :: text => (place.step c).bind (·.scan text)

theorem Place.scan_append (place : Place) (a b : List Char) :
    place.scan (a ++ b) = (place.scan a).bind (·.scan b) := by
  induction a generalizing place with
  | nil => rfl
  | cons c a ih =>
    rw [List.cons_append, scan, scan]
    cases place.step c with
    | none => rfl
    | some next => exact ih next

/-- One text is not read from inside and from outside of a string, unless the places stay opposite and it has no
    backslash. -/
theorem Place.scan_opposite {text : List Char} {p q p' q' : Place}
    (opposite : p = outside ∧ q = inside ∨ p = inside ∧ q = outside) (hp : p.scan text = some p')
    (hq : q.scan text = some q') :
    (p' = outside ∧ q' = inside ∨ p' = inside ∧ q' = outside) ∧ '\\' ∉ text := by
  induction text generalizing p q with
  | nil =>
    cases hp
    cases hq
    exact ⟨opposite, List.not_mem_nil⟩
  | cons c text ih =>
    obtain ⟨next, step, rest⟩ := Option.bind_eq_some_iff.mp hp
    obtain ⟨next', step', rest'⟩ := Option.bind_eq_some_iff.mp hq
    have stays : (next = outside ∧ next' = inside ∨ next = inside ∧ next' = outside) ∧ c ≠ '\\' := by
      rcases opposite with ⟨rfl, rfl⟩ | ⟨rfl, rfl⟩
      all_goals
        simp only [Place.step] at step step'
        split_ifs at step step' <;> simp_all
    obtain ⟨ended, none_in⟩ := ih stays.1 rest rest'
    exact ⟨ended, fun mem => (List.mem_cons.mp mem).elim (fun same => stays.2 same.symm) none_in⟩

/-! ### What the reader reads -/

/-- A text that some value with some strings was read from: it leaves every string that it enters, and without a
    backslash in it the strings are of its own characters. -/
structure Reads (used : List Char) (texts : List (List Nat)) : Prop where
  outside : Place.outside.scan used = some .outside
  raw : '\\' ∉ used → ∀ s ∈ texts, ∀ n ∈ s, ∃ c ∈ used, c.toNat = n

namespace Reads

theorem append {a b : List Char} {ss ts : List (List Nat)} (first : Reads a ss) (second : Reads b ts) :
    Reads (a ++ b) (ss ++ ts) where
  outside := by rw [Place.scan_append, first.outside, Option.bind_some, second.outside]
  raw none_in s mem n here := by
    rw [List.mem_append, not_or] at none_in
    rcases List.mem_append.mp mem with mem | mem
    · obtain ⟨c, held, same⟩ := first.raw none_in.1 s mem n here
      exact ⟨c, List.mem_append_left _ held, same⟩
    · obtain ⟨c, held, same⟩ := second.raw none_in.2 s mem n here
      exact ⟨c, List.mem_append_right _ held, same⟩

theorem mono {used : List Char} {ss ts : List (List Nat)} (reads : Reads used ts) (sub : ss ⊆ ts) : Reads used ss :=
  ⟨reads.outside, fun none_in s mem => reads.raw none_in s (sub mem)⟩

theorem nil : Reads [] [] := ⟨rfl, fun _ _ mem => absurd mem List.not_mem_nil⟩

/-- A character that stands outside of strings. -/
theorem single {c : Char} (step : Place.outside.step c = some .outside) : Reads [c] [] where
  outside := by rw [Place.scan, step]; rfl
  raw _ _ mem := absurd mem List.not_mem_nil

theorem plain {used : List Char} (steps : ∀ c ∈ used, Place.outside.step c = some .outside) : Reads used [] := by
  induction used with
  | nil => exact nil
  | cons c used ih =>
    exact (single (steps c List.mem_cons_self)).append (ih fun d mem => steps d (List.mem_cons_of_mem _ mem))

theorem white {used : List Char} (all : ∀ c ∈ used, isWhite c = true) : Reads used [] := by
  refine plain fun c mem => ?_
  have white := all c mem
  simp only [isWhite, Bool.or_eq_true, decide_eq_true_eq] at white
  rcases white with ((rfl | rfl) | rfl) | rfl <;> rfl

end Reads

theorem skip_reads (text : List Char) : ∃ w, text = w ++ skip text ∧ Reads w [] := by
  refine ⟨text.takeWhile isWhite, List.takeWhile_append_dropWhile.symm, Reads.white fun c mem => ?_⟩
  exact List.mem_takeWhile_imp mem

theorem next_ok {c : Char} {text rest : List Char} (h : next c text = .ok rest) : text = c :: rest := by
  cases text with
  | nil => cases h
  | cons c' text =>
    rw [next] at h
    split at h
    · rename_i same
      rw [same, Except.ok.inj h]
    · cases h

theorem hex_digit_inside {c : Char} {n : Nat} (h : hex_digit? c = some n) :
    Place.inside.step c = some .inside := by
  have plain : 32 ≤ c.toNat ∧ c ≠ '"' ∧ c ≠ '\\' := by
    refine ⟨?_, ?_, ?_⟩
    · by_contra low
      rw [hex_digit?, if_neg, if_neg (by omega), if_neg (by omega)] at h
      · cases h
      · intro digit
        simp only [Char.isDigit, Bool.and_eq_true, decide_eq_true_eq] at digit
        have visible : 48 ≤ c.toNat := digit.1
        omega
    · rintro rfl
      cases h
    · rintro rfl
      cases h
  rw [Place.step, if_neg plain.2.1, if_neg plain.2.2, if_neg (by omega)]

/-- The body of a string that was read, without its closing quote. -/
theorem string_units_reads {text rest : List Char} {units : List Nat} (h : string_units text = some (units, rest)) :
    ∃ body, text = body ++ '"' :: rest ∧ Place.inside.scan body = some .inside ∧
      ('\\' ∉ body → ∀ n ∈ units, ∃ c ∈ body, c.toNat = n) := by
  induction text using string_units.induct generalizing units with
  | case1 => cases h
  | case2 rest' =>
    cases h
    exact ⟨[], rfl, rfl, fun _ n mem => absurd mem List.not_mem_nil⟩
  | case3 a b c d rest' ih =>
    rw [string_units] at h
    obtain ⟨unit, digits, h⟩ := Option.bind_eq_some_iff.mp h
    obtain ⟨read, later, h⟩ := Option.map_eq_some_iff.mp h
    cases h
    obtain ⟨body, rfl, scanned, -⟩ := ih later
    obtain ⟨_, ha, digits⟩ := Option.bind_eq_some_iff.mp digits
    obtain ⟨_, hb, digits⟩ := Option.bind_eq_some_iff.mp digits
    obtain ⟨_, hc, digits⟩ := Option.bind_eq_some_iff.mp digits
    obtain ⟨_, hd, -⟩ := Option.bind_eq_some_iff.mp digits
    refine ⟨'\\' :: 'u' :: a :: b :: c :: d :: body, rfl, ?_, fun none_in => absurd List.mem_cons_self none_in⟩
    have start : ∀ text, Place.inside.scan ('\\' :: 'u' :: text) = Place.inside.scan text := fun _ => rfl
    rw [start, Place.scan, hex_digit_inside ha, Option.bind_some, Place.scan, hex_digit_inside hb, Option.bind_some,
      Place.scan, hex_digit_inside hc, Option.bind_some, Place.scan, hex_digit_inside hd, Option.bind_some, scanned]
  | case4 l rest' not_hex ih =>
    rw [string_units] at h
    · obtain ⟨code, escape, h⟩ := Option.bind_eq_some_iff.mp h
      obtain ⟨read, later, h⟩ := Option.map_eq_some_iff.mp h
      cases h
      obtain ⟨body, rfl, scanned, -⟩ := ih later
      refine ⟨'\\' :: l :: body, rfl, ?_, fun none_in => absurd List.mem_cons_self none_in⟩
      have start : Place.inside.scan ('\\' :: l :: body) = Place.escaped.scan (l :: body) := rfl
      rw [start, Place.scan, Place.step, if_pos (escaped_ascii escape).2, Option.bind_some, scanned]
    · exact not_hex
  | case5 c rest' not_quote not_hex not_letter control =>
    rw [string_units, if_pos control] at h
    · cases h
    · exact not_quote
    · exact not_hex
    · exact not_letter
  | case6 c rest' not_quote not_hex not_letter visible ih =>
    rw [string_units, if_neg visible] at h
    · obtain ⟨read, later, h⟩ := Option.map_eq_some_iff.mp h
      cases h
      obtain ⟨body, rfl, scanned, raw⟩ := ih later
      have not_backslash : c ≠ '\\' := by
        rintro rfl
        cases body with
        | nil => exact not_letter _ _ rfl rfl
        | cons l body => exact not_letter l _ rfl rfl
      refine ⟨c :: body, rfl, ?_, ?_⟩
      · rw [Place.scan, Place.step, if_neg not_quote, if_neg not_backslash, if_neg visible, Option.bind_some, scanned]
      · intro none_in n mem
        rcases List.mem_cons.mp mem with rfl | mem
        · exact ⟨c, List.mem_cons_self, rfl⟩
        · obtain ⟨d, held, same⟩ := raw (fun held => none_in (List.mem_cons_of_mem _ held)) n mem
          exact ⟨d, List.mem_cons_of_mem _ held, same⟩
    · exact not_quote
    · exact not_hex
    · exact not_letter

theorem scanstring_reads {text rest : List Char} {s : List Nat} (h : scanstring text = some (s, rest)) :
    ∃ used, '"' :: text = used ++ rest ∧ Reads used [s] := by
  obtain ⟨read, units, h⟩ := Option.map_eq_some_iff.mp h
  cases h
  obtain ⟨body, rfl, scanned, raw⟩ := string_units_reads units
  refine ⟨'"' :: (body ++ ['"']), by simp, ?_, ?_⟩
  · have start : Place.outside.scan ('"' :: (body ++ ['"'])) = Place.inside.scan (body ++ ['"']) := rfl
    rw [start, Place.scan_append, scanned]
    rfl
  · intro none_in s mem n here
    obtain rfl := List.mem_singleton.mp mem
    have plain := raw fun held => none_in (List.mem_cons_of_mem _ (List.mem_append_left _ held))
    rw [join_surrogates_chars fun n mem => (plain n mem).imp fun _ held => held.2] at here
    obtain ⟨c, held, same⟩ := plain n here
    exact ⟨c, List.mem_cons_of_mem _ (List.mem_append_left _ held), same⟩

/-! #### Numbers -/

/-- A character of a number. -/
def Numeric (c : Char) : Prop := c.isDigit = true ∨ c ∈ ['-', '+', '.', 'e', 'E']

theorem Numeric.step {c : Char} (numeric : Numeric c) : Place.outside.step c = some .outside := by
  rcases numeric with digit | mem
  · have other := digit_not_white digit
    have low : c.toNat < 127 := by
      simp only [Char.isDigit, Bool.and_eq_true, decide_eq_true_eq] at digit
      have small : c.toNat ≤ 57 := digit.2
      omega
    have not_backslash : c ≠ '\\' := by
      rintro rfl
      cases digit
    rw [Place.step, if_neg other.2.2.2.2.2, if_pos ⟨low, not_backslash⟩]
  · simp only [List.mem_cons, List.not_mem_nil, or_false] at mem
    rcases mem with rfl | rfl | rfl | rfl | rfl <;> rfl

theorem digits_split (text : List Char) : text = digits text ++ past_digits text ∧ ∀ c ∈ digits text, Numeric c :=
  ⟨List.takeWhile_append_dropWhile.symm, fun _ mem => .inl (List.mem_takeWhile_imp mem)⟩

theorem match_whole_split {text whole rest : List Char} (h : match_whole text = some (whole, rest)) :
    text = whole ++ rest ∧ ∀ c ∈ whole, Numeric c := by
  rw [match_whole.eq_def] at h
  split at h
  · cases h
    exact ⟨rfl, fun c mem => by rw [List.mem_singleton.mp mem]; exact .inl rfl⟩
  · split at h
    · cases h
    · cases h
      exact digits_split text

theorem match_fraction_split {text rest : List Char} {fraction : Option (List Char)}
    (h : match_fraction text = (fraction, rest)) :
    text = Literal.fraction_text fraction ++ rest ∧ ∀ c ∈ Literal.fraction_text fraction, Numeric c := by
  rw [match_fraction.eq_def] at h
  split at h
  · rename_i tail
    split at h
    · cases h
      exact ⟨rfl, fun c mem => absurd mem List.not_mem_nil⟩
    · cases h
      obtain ⟨split, numeric⟩ := digits_split tail
      refine ⟨congrArg ('.' :: ·) split, fun c mem => ?_⟩
      rcases List.mem_cons.mp mem with rfl | mem
      · exact .inr (by decide)
      · exact numeric c mem
  · cases h
    exact ⟨rfl, fun c mem => absurd mem List.not_mem_nil⟩

theorem match_sign_split {text rest : List Char} {sign : Option Char} (h : match_sign text = (sign, rest)) :
    text = sign.toList ++ rest ∧ ∀ c ∈ sign.toList, Numeric c := by
  rw [match_sign.eq_def] at h
  split at h
  all_goals
    cases h
    refine ⟨rfl, fun c mem => ?_⟩
  · exact .inr (by rw [List.mem_singleton.mp mem]; decide)
  · exact .inr (by rw [List.mem_singleton.mp mem]; decide)
  · exact absurd mem List.not_mem_nil

theorem match_exponent_split {text rest : List Char} {exponent : Option (Char × Option Char × List Char)}
    (h : match_exponent text = (exponent, rest)) :
    text = Literal.exponent_text exponent ++ rest ∧ ∀ c ∈ Literal.exponent_text exponent, Numeric c := by
  rcases text with _ | ⟨e, tail⟩
  · cases h
    exact ⟨rfl, fun c mem => absurd mem List.not_mem_nil⟩
  · rw [match_exponent] at h
    rcases sign : match_sign tail with ⟨s, after_sign⟩
    rw [sign] at h
    dsimp only at h
    split at h
    · rename_i found
      cases h
      obtain ⟨signed, of_sign⟩ := match_sign_split sign
      obtain ⟨split, numeric⟩ := digits_split after_sign
      refine ⟨?_, fun c mem => ?_⟩
      · rw [Literal.exponent_text, List.cons_append, List.append_assoc, ← split, ← signed]
      · rcases List.mem_cons.mp mem with rfl | mem
        · rcases found.1 with rfl | rfl <;> exact .inr (by decide)
        · rcases List.mem_append.mp mem with mem | mem
          · exact of_sign c mem
          · exact numeric c mem
    · cases h
      exact ⟨rfl, fun c mem => absurd mem List.not_mem_nil⟩

theorem match_number_split {text rest : List Char} {literal : Literal} (h : match_number text = some (literal, rest)) :
    text = literal.text ++ rest ∧ ∀ c ∈ literal.text, Numeric c := by
  have unsigned : ∀ {negative tail}, match_unsigned negative tail = some (literal, rest) →
      (if negative then ['-'] else []) ++ tail = literal.text ++ rest ∧ ∀ c ∈ literal.text, Numeric c := by
    intro negative tail h
    obtain ⟨⟨whole, after_whole⟩, matched, h⟩ := Option.map_eq_some_iff.mp h
    obtain ⟨split, of_whole⟩ := match_whole_split matched
    rcases fraction : match_fraction after_whole with ⟨f, after_fraction⟩
    obtain ⟨split', of_fraction⟩ := match_fraction_split fraction
    rcases exponent : match_exponent after_fraction with ⟨e, after_exponent⟩
    obtain ⟨split'', of_exponent⟩ := match_exponent_split exponent
    dsimp only at h
    rw [fraction] at h
    dsimp only at h
    rw [exponent] at h
    cases h
    refine ⟨?_, fun c mem => ?_⟩
    · rw [split, split', split'', Literal.text]
      simp only [List.append_assoc]
    · simp only [Literal.text, List.mem_append] at mem
      rcases mem with sign | mem | mem | mem
      · split at sign
        · exact .inr (by rw [List.mem_singleton.mp sign]; decide)
        · exact absurd sign List.not_mem_nil
      · exact of_whole c mem
      · exact of_fraction c mem
      · exact of_exponent c mem
  rw [match_number.eq_def] at h
  split at h
  · exact unsigned h
  · exact unsigned h

/-! #### Values -/

section
variable {parse_float : List Char → φ}

theorem scan_number_reads {text rest : List Char} {d : Doc φ} (h : scan_number parse_float text = .ok (d, rest)) :
    ∃ used, text = used ++ rest ∧ Reads used d.texts := by
  rw [scan_number] at h
  split at h
  · cases h
  · rename_i literal after matched
    obtain ⟨split, numeric⟩ := match_number_split matched
    have plain : Reads literal.text [] := Reads.plain fun c mem => (numeric c mem).step
    split at h
    · cases h
      exact ⟨_, split, plain⟩
    · split at h
      · cases h
      · cases h
        exact ⟨_, split, plain⟩

theorem scan_scalar_reads {text rest : List Char} {d : Doc φ} (h : scan_scalar parse_float text = .ok (d, rest)) :
    ∃ used, text = used ++ rest ∧ Reads used d.texts := by
  rw [scan_scalar] at h
  split at h
  · rename_i read found
    cases h
    obtain ⟨named, mem, found⟩ := List.exists_of_findSome?_eq_some found
    obtain ⟨rest', past, same⟩ := Option.map_eq_some_iff.mp found
    cases same
    have split : text = named.1 ++ rest := by
      rw [after] at past
      split at past
      · rename_i before
        obtain ⟨tail, rfl⟩ := before
        cases past
        rw [List.drop_left]
      · cases past
    refine ⟨named.1, split, ?_⟩
    simp only [constants, List.mem_cons, List.not_mem_nil, or_false] at mem
    rcases mem with rfl | rfl | rfl | rfl | rfl | rfl <;> exact Reads.plain (by dsimp only; decide)
  · exact scan_number_reads h

theorem bind_ok {α β : Type} {m : Except DecodeError α} {f : α → Except DecodeError β} {b : β} (h : m >>= f = .ok b) :
    ∃ a, m = .ok a ∧ f a = .ok b := by
  cases m with
  | error e => cases h
  | ok a => exact ⟨a, rfl, h⟩

theorem past_comma_reads {first : Bool} {text rest : List Char} (h : past_comma first text = .ok rest) :
    ∃ used, text = used ++ rest ∧ Reads used [] := by
  cases first with
  | true =>
    cases h
    exact ⟨[], rfl, Reads.nil⟩
  | false =>
    rw [past_comma, if_neg Bool.false_ne_true] at h
    cases comma : next ',' text with
    | error e => rw [comma] at h; cases h
    | ok tail =>
      rw [comma] at h
      obtain rfl := Except.ok.inj h
      obtain ⟨w, split, reads⟩ := skip_reads tail
      refine ⟨',' :: w, ?_, (Reads.single (c := ',') rfl).append reads⟩
      rw [next_ok comma, List.cons_append, ← split]

theorem object_key_reads {text rest : List Char} {key : List Nat} (h : object_key text = .ok (key, rest)) :
    ∃ used, text = used ++ rest ∧ Reads used [key] := by
  rw [object_key] at h
  cases opening : next '"' text with
  | error e => rw [opening] at h; cases h
  | ok body =>
    rw [opening] at h
    simp only [bind, Except.bind] at h
    split at h
    · cases h
    · rename_i name after_key read
      obtain ⟨used, split, reads⟩ := scanstring_reads read
      cases colon : next ':' (skip after_key) with
      | error e => rw [colon] at h; cases h
      | ok tail =>
        rw [colon] at h
        cases h
        obtain ⟨w, split', reads'⟩ := skip_reads after_key
        obtain ⟨w', split'', reads''⟩ := skip_reads tail
        refine ⟨used ++ (w ++ ([':'] ++ w')), ?_, ?_⟩
        · rw [next_ok opening, split, split', next_ok colon]
          simp only [List.append_assoc, List.cons_append, List.nil_append]
          rw [← split'']
        · exact reads.append (reads'.append ((Reads.single (c := ':') rfl).append reads''))

theorem texts_dict_of {members : List (List Nat × Doc φ)} : Doc.member_texts (dict_of members) ⊆ Doc.member_texts members := by
  have mem_iff : ∀ {members : List (List Nat × Doc φ)} {s : List Nat},
      s ∈ Doc.member_texts members ↔ ∃ e ∈ members, s = e.1 ∨ s ∈ e.2.texts := by
    intro members s
    induction members with
    | nil => simp [Doc.member_texts]
    | cons e members ih =>
      obtain ⟨key, value⟩ := e
      simp only [Doc.member_texts, List.mem_cons, List.mem_append, ih, exists_eq_or_imp, or_assoc]
  intro s mem
  obtain ⟨e, held, here⟩ := mem_iff.mp mem
  exact mem_iff.mpr ⟨e, mem_dict_of held, here⟩

/-- The reader leaves what it did not read, and has read every string it entered. -/
theorem reads (fuel : Nat) :
    (∀ {text rest : List Char} {d : Doc φ}, scan_once parse_float fuel text = .ok (d, rest) →
      ∃ used, text = used ++ rest ∧ Reads used d.texts) ∧
    (∀ {first : Bool} {text rest : List Char} {items : List (Doc φ)}, json_array parse_float fuel first text = .ok (items, rest) →
      ∃ used, text = used ++ rest ∧ Reads used (Doc.item_texts items)) ∧
    (∀ {first : Bool} {text rest : List Char} {members : List (List Nat × Doc φ)},
      json_object parse_float fuel first text = .ok (members, rest) →
      ∃ used, text = used ++ rest ∧ Reads used (Doc.member_texts members)) := by
  induction fuel with
  | zero =>
    refine ⟨fun h => ?_, fun h => ?_, fun h => ?_⟩
    · rw [scan_once] at h
      cases h
    · rw [json_array] at h
      cases h
    · rw [json_object] at h
      cases h
  | succ fuel ih =>
    obtain ⟨value_reads, array_reads, object_reads⟩ := ih
    refine ⟨?_, ?_, ?_⟩
    · intro text rest d h
      rcases text with _ | ⟨c, tail⟩
      · rw [scan_once] at h
        cases h
      · rw [scan_once] at h
        split at h
        · rename_i quote
          subst quote
          split at h
          · cases h
          · rename_i s after read
            cases h
            exact scanstring_reads read
        · split at h
          · rename_i bracket
            subst bracket
            cases read : json_array parse_float fuel true tail with
            | error e => rw [read] at h; cases h
            | ok items =>
              rw [read] at h
              cases h
              obtain ⟨used, split, reads⟩ := array_reads read
              exact ⟨'[' :: used, by rw [split]; rfl, (Reads.single (c := '[') rfl).append reads⟩
          · split at h
            · rename_i brace
              subst brace
              cases read : json_object parse_float fuel true tail with
              | error e => rw [read] at h; cases h
              | ok members =>
                rw [read] at h
                cases h
                obtain ⟨used, split, reads⟩ := object_reads read
                exact ⟨'\x7b' :: used, by rw [split]; rfl,
                  (Reads.single (c := '\x7b') rfl).append (reads.mono texts_dict_of)⟩
            · exact scan_scalar_reads h
    · intro first text rest items h
      obtain ⟨w, split, white⟩ := skip_reads text
      rw [json_array] at h
      cases closing : next ']' (skip text) with
      | ok after =>
        rw [closing] at h
        cases h
        exact ⟨w ++ [']'], by rw [split, next_ok closing]; simp, white.append (Reads.single (c := ']') rfl)⟩
      | error e =>
        rw [closing] at h
        obtain ⟨to_item, separating, h⟩ := bind_ok h
        obtain ⟨⟨item, after_item⟩, item_read, h⟩ := bind_ok h
        obtain ⟨⟨items', after⟩, items_read, h⟩ := bind_ok h
        cases h
        obtain ⟨comma, at_comma, reads⟩ := past_comma_reads separating
        obtain ⟨used, at_item, item_reads⟩ := value_reads item_read
        obtain ⟨used', at_items, items_reads⟩ := array_reads items_read
        refine ⟨w ++ (comma ++ (used ++ used')), ?_, white.append (reads.append (item_reads.append items_reads))⟩
        rw [split, at_comma, at_item, at_items]
        simp only [List.append_assoc]
    · intro first text rest members h
      obtain ⟨w, split, white⟩ := skip_reads text
      rw [json_object] at h
      cases closing : next '\x7d' (skip text) with
      | ok after =>
        rw [closing] at h
        cases h
        exact ⟨w ++ ['\x7d'], by rw [split, next_ok closing]; simp, white.append (Reads.single (c := '\x7d') rfl)⟩
      | error e =>
        rw [closing] at h
        obtain ⟨to_key, separating, h⟩ := bind_ok h
        obtain ⟨⟨key, after_key⟩, key_read, h⟩ := bind_ok h
        obtain ⟨⟨value, after_value⟩, value_read, h⟩ := bind_ok h
        obtain ⟨⟨members', after⟩, members_read, h⟩ := bind_ok h
        cases h
        obtain ⟨comma, at_comma, reads⟩ := past_comma_reads separating
        obtain ⟨keyed, at_key, key_reads⟩ := object_key_reads key_read
        obtain ⟨used, at_value, value_reads⟩ := value_reads value_read
        obtain ⟨used', at_members, members_reads⟩ := object_reads members_read
        refine ⟨w ++ (comma ++ (keyed ++ (used ++ used'))), ?_,
          white.append (reads.append (key_reads.append (value_reads.append members_reads)))⟩
        rw [split, at_comma, at_key, at_value, at_members]
        simp only [List.append_assoc]

/-- A text that is a value, and the place after it. -/
theorem loads_reads {text : List Char} {d : Doc φ} (h : loads parse_float text = .ok d) : Reads text d.texts := by
  obtain ⟨⟨value, rest⟩, read, h⟩ := bind_ok h
  dsimp only at h
  split at h
  · rename_i only_white
    cases h
    obtain ⟨w, at_value, white⟩ := skip_reads text
    obtain ⟨used, at_end, used_reads⟩ := (reads _).1 read
    obtain ⟨w', ended, white'⟩ := skip_reads rest
    rw [only_white, List.append_nil] at ended
    subst ended
    have joined := white.append (used_reads.append white')
    rw [List.nil_append, List.append_nil, ← at_end, ← at_value] at joined
    exact joined
  · cases h

end

/-! ### Texts of the grammar leave their strings -/

theorem Spelled.inside {units : List Nat} {body : List Char} (spelled : Spelled units body) :
    Place.inside.scan body = some .inside := by
  induction spelled with
  | nil => rfl
  | raw visible not_quote not_backslash _ ih =>
    rw [Place.scan, Place.step, if_neg not_quote, if_neg not_backslash, if_neg (by omega), Option.bind_some, ih]
  | @letter l code s t escape _ ih =>
    have start : Place.inside.scan ('\\' :: l :: t) = Place.escaped.scan (l :: t) := rfl
    rw [start, Place.scan, Place.step, if_pos (escaped_ascii escape).2, Option.bind_some, ih]
  | @hex a b c d unit s t escape _ ih =>
    obtain ⟨_, ha, escape⟩ := Option.bind_eq_some_iff.mp escape
    obtain ⟨_, hb, escape⟩ := Option.bind_eq_some_iff.mp escape
    obtain ⟨_, hc, escape⟩ := Option.bind_eq_some_iff.mp escape
    obtain ⟨_, hd, -⟩ := Option.bind_eq_some_iff.mp escape
    have start : ∀ text, Place.inside.scan ('\\' :: 'u' :: text) = Place.inside.scan text := fun _ => rfl
    rw [start, Place.scan, hex_digit_inside ha, Option.bind_some, Place.scan, hex_digit_inside hb, Option.bind_some,
      Place.scan, hex_digit_inside hc, Option.bind_some, Place.scan, hex_digit_inside hd, Option.bind_some, ih]

theorem Quoted.outside {s : List Nat} {t : List Char} (quoted : Quoted s t) : Place.outside.scan t = some .outside := by
  obtain ⟨units, body, spelled, -, rfl⟩ := quoted
  have start : Place.outside.scan ('"' :: (body ++ ['"'])) = Place.inside.scan (body ++ ['"']) := rfl
  rw [start, Place.scan_append, spelled.inside]
  rfl

theorem scan_outside_append {a b : List Char} (first : Place.outside.scan a = some .outside)
    (second : Place.outside.scan b = some .outside) : Place.outside.scan (a ++ b) = some .outside := by
  rw [Place.scan_append, first, Option.bind_some, second]

theorem Blank.outside {w : List Char} (blank : Blank w) : Place.outside.scan w = some .outside :=
  (Reads.white blank.white).outside

theorem lead_outside {first : Bool} {w w' : List Char} (blank : Blank w) (blank' : Blank w') :
    Place.outside.scan (lead first w w') = some .outside := by
  cases first with
  | true => exact blank'.outside
  | false => exact scan_outside_append blank.outside (scan_outside_append (a := [',']) rfl blank'.outside)

section
variable {parse_float : List Char → φ}

theorem Literal.Wellformed.outside {literal : Literal} (formed : literal.Wellformed) :
    Place.outside.scan literal.text = some .outside := by
  have matched := @match_number_text literal formed [] fun _ head => by cases head
  exact (Reads.plain fun c mem => ((match_number_split matched).2 c mem).step).outside

mutual

theorem Written.outside : ∀ (d : Doc φ) {t : List Char}, Written parse_float d t → Place.outside.scan t = some .outside
  | .null, t, written => by
    rw [Written] at written
    subst written
    rfl
  | .bool b, t, written => by
    rw [Written] at written
    subst written
    cases b <;> rfl
  | .int n, t, written => by
    rw [Written] at written
    obtain ⟨literal, formed, -, -, rfl⟩ := written
    exact formed.outside
  | .float x, t, written => by
    rw [Written] at written
    obtain ⟨literal, formed, -, -, rfl⟩ := written
    exact formed.outside
  | .string s, t, written => by
    rw [Written] at written
    exact written.outside
  | .array items, t, written => by
    rw [Written] at written
    obtain ⟨u, items_written, rfl⟩ := written
    exact scan_outside_append (a := ['[']) rfl (WrittenItems.outside items items_written)
  | .object members, t, written => by
    rw [Written] at written
    obtain ⟨-, u, members_written, rfl⟩ := written
    exact scan_outside_append (a := ['\x7b']) rfl (WrittenMembers.outside members members_written)

theorem WrittenItems.outside : ∀ (items : List (Doc φ)) {first : Bool} {t : List Char},
    WrittenItems parse_float first items t → Place.outside.scan t = some .outside
  | [], first, t, written => by
    rw [WrittenItems] at written
    obtain ⟨w, blank, rfl⟩ := written
    exact scan_outside_append blank.outside rfl
  | item :: items, first, t, written => by
    rw [WrittenItems] at written
    obtain ⟨w, w', u, more, blank, blank', item_written, items_written, rfl⟩ := written
    exact scan_outside_append (lead_outside blank blank')
      (scan_outside_append (Written.outside item item_written) (WrittenItems.outside items items_written))

theorem WrittenMembers.outside : ∀ (members : List (List Nat × Doc φ)) {first : Bool} {t : List Char},
    WrittenMembers parse_float first members t → Place.outside.scan t = some .outside
  | [], first, t, written => by
    rw [WrittenMembers] at written
    obtain ⟨w, blank, rfl⟩ := written
    exact scan_outside_append blank.outside rfl
  | (key, value) :: members, first, t, written => by
    rw [WrittenMembers] at written
    obtain ⟨w, w', k, v, v', u, more, blank, blank', blank_v, blank_v', quoted, value_written, members_written, rfl⟩ :=
      written
    have from_value := scan_outside_append (Written.outside value value_written)
      (WrittenMembers.outside members members_written)
    have from_colon := scan_outside_append (a := [':']) rfl (scan_outside_append blank_v'.outside from_value)
    exact scan_outside_append (lead_outside blank blank')
      (scan_outside_append quoted.outside (scan_outside_append blank_v.outside from_colon))

end

/-- An object's text ends with its closing brace. -/
theorem WrittenMembers.closes : ∀ (members : List (List Nat × Doc φ)) {first : Bool} {t : List Char},
    WrittenMembers parse_float first members t → t.getLast? = some '\x7d'
  | [], first, t, written => by
    rw [WrittenMembers] at written
    obtain ⟨w, -, rfl⟩ := written
    exact List.getLast?_concat
  | (key, value) :: members, first, t, written => by
    rw [WrittenMembers] at written
    obtain ⟨w, w', k, v, v', u, more, -, -, -, -, -, -, members_written, rfl⟩ := written
    have last := WrittenMembers.closes members members_written
    simp [List.getLast?_append, List.getLast?_cons, last]

end

end Json
