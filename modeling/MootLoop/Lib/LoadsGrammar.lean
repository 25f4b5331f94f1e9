import Mathlib.Data.List.Induction
import MootLoop.Lib.Loads

/-! Texts of the JSON grammar read back: what the reader makes of a text of a value, and the characters such a text
    has. -/

namespace Json

variable {φ : Type}

/-! ### Strings read back -/

theorem string_units_raw {c : Char} {rest : List Char} (visible : 32 ≤ c.toNat) (not_quote : c ≠ '"')
    (not_backslash : c ≠ '\\') :
    string_units (c :: rest) = (string_units rest).map fun read => (c.toNat :: read.1, read.2) := by
  rw [string_units.eq_def]
  split
  · contradiction
  · rename_i same
    exact absurd (List.cons.inj same).1 not_quote
  · rename_i same
    exact absurd (List.cons.inj same).1 not_backslash
  · rename_i same
    exact absurd (List.cons.inj same).1 not_backslash
  · rename_i same
    obtain ⟨rfl, rfl⟩ := List.cons.inj same
    exact if_neg (by omega)

theorem string_units_letter {l : Char} {code : Nat} {rest : List Char} (escape : escaped? l = some code) :
    string_units ('\\' :: l :: rest) = (string_units rest).map fun read => (code :: read.1, read.2) := by
  have not_u : l ≠ 'u' := by
    rintro rfl
    cases escape
  rw [string_units.eq_def]
  split
  · contradiction
  · rename_i same
    exact absurd (List.cons.inj same).1 (by decide)
  · rename_i same
    exact absurd (List.cons.inj (List.cons.inj same).2).1 not_u
  · rename_i same
    obtain ⟨-, same⟩ := List.cons.inj same
    obtain ⟨rfl, rfl⟩ := List.cons.inj same
    rw [escape]
    rfl
  · rename_i no_letter same
    obtain ⟨rfl, rfl⟩ := List.cons.inj same
    exact absurd rfl (no_letter l rest rfl)

/-- What is spelled reads back, up to the quote after it. -/
theorem string_units_spelled {units : List Nat} {body : List Char} (spelled : Spelled units body) (rest : List Char) :
    string_units (body ++ '"' :: rest) = some (units, rest) := by
  induction spelled with
  | nil => rfl
  | raw visible not_quote not_backslash _ ih => rw [List.cons_append, string_units_raw visible not_quote not_backslash, ih]; rfl
  | letter escape _ ih => rw [List.cons_append, List.cons_append, string_units_letter escape, ih]; rfl
  | hex escape _ ih => simp only [List.cons_append, string_units, escape, ih, Option.bind_some, Option.map_some]

theorem spelled_escape {c : Char} {s : List Nat} {t : List Char} (rest : Spelled s t) :
    Spelled (c.toNat :: s) (escape c ++ t) := by
  cases long : short c with
  | some letter =>
    have two : escape c = ['\\', letter] := by rw [escape, long]
    rw [two]
    refine .letter ?_ rest
    unfold short at long
    split_ifs at long
    all_goals
      subst c
      cases long
      rfl
  | none =>
    by_cases control : c.toNat < 32
    · have digits : ∀ n < 32, unit? '0' '0' (hex_digit (n / 16)) (hex_digit (n % 16)) = some n := by decide
      rw [escape_control control long]
      exact .hex (digits _ control) rest
    · obtain ⟨not_quote, not_backslash⟩ := short_none long
      rw [escape_raw control long]
      exact .raw (Nat.le_of_not_lt control) not_quote not_backslash rest

theorem join_surrogates_chars {units : List Nat} (chars : ∀ n ∈ units, ∃ c : Char, c.toNat = n) :
    join_surrogates units = units := by
  have not_high : ∀ n ∈ units, isHighSurrogate n = false := by
    intro n mem
    obtain ⟨c, rfl⟩ := chars n mem
    have valid := c.valid
    simp only [isHighSurrogate, Bool.and_eq_false_iff, decide_eq_false_iff_not]
    have bound : c.toNat < 0xD800 ∨ 0xDFFF < c.toNat ∧ c.toNat < 0x110000 := valid
    omega
  clear chars
  induction units with
  | nil => rfl
  | cons n units ih =>
    cases units with
    | nil => rfl
    | cons m units =>
      rw [join_surrogates, not_high n List.mem_cons_self, Bool.false_and, if_neg Bool.false_ne_true,
        ih fun k mem => not_high k (List.mem_cons_of_mem _ mem)]

/-- A quoted text is a string of its characters. -/
theorem quoted_quote (text : List Char) : Quoted (text.map Char.toNat) (quote text) := by
  have spelled : Spelled (text.map Char.toNat) (escapes text) := by
    induction text with
    | nil => exact .nil
    | cons c text ih => exact spelled_escape ih
  refine ⟨_, _, spelled, (join_surrogates_chars fun n mem => ?_).symm, rfl⟩
  obtain ⟨c, -, same⟩ := List.mem_map.mp mem
  exact ⟨c, same⟩

/-! ### Numbers read back -/

/-- What may follow a number: nothing that could be read as more of it. -/
def Ends (rest : List Char) : Prop := ∀ c ∈ rest.head?, c.isDigit = false ∧ c ≠ '.' ∧ c ≠ 'e' ∧ c ≠ 'E'

theorem digits_append {ds rest : List Char} (all : ∀ c ∈ ds, c.isDigit = true) (stop : ∀ c ∈ rest.head?, c.isDigit = false) :
    digits (ds ++ rest) = ds ∧ past_digits (ds ++ rest) = rest := by
  have here : digits rest = [] ∧ past_digits rest = rest := by
    cases rest with
    | nil => exact ⟨rfl, rfl⟩
    | cons c rest =>
      have stopped : ¬c.isDigit = true := by simp [stop c rfl]
      exact ⟨List.takeWhile_cons_of_neg stopped, List.dropWhile_cons_of_neg stopped⟩
  constructor
  · rw [digits, List.takeWhile_append_of_pos all, ← digits, here.1, List.append_nil]
  · rw [past_digits, List.dropWhile_append_of_pos all, ← past_digits, here.2]

theorem match_whole_append {whole rest : List Char} (all : Literal.Digits whole)
    (no_zeros : whole.head? = some '0' → whole = ['0']) (stop : ∀ c ∈ rest.head?, c.isDigit = false) :
    match_whole (whole ++ rest) = some (whole, rest) := by
  rw [match_whole.eq_def]
  split
  · rename_i same
    obtain ⟨c, ds, rfl⟩ := List.exists_cons_of_ne_nil all.1
    obtain ⟨rfl, tail⟩ := List.cons.inj same
    obtain rfl : ds = [] := (List.cons.inj (no_zeros rfl)).2
    rw [← tail]
    rfl
  · obtain ⟨read, past⟩ := digits_append all.2 stop
    rw [read, past, if_neg all.1]

theorem match_fraction_append {fraction : Option (List Char)} {rest : List Char}
    (all : ∀ ds, fraction = some ds → Literal.Digits ds) (stop : ∀ c ∈ rest.head?, c.isDigit = false ∧ c ≠ '.') :
    match_fraction (Literal.fraction_text fraction ++ rest) = (fraction, rest) := by
  cases fraction with
  | none =>
    rw [Literal.fraction_text, List.nil_append, match_fraction.eq_def]
    split
    · exact absurd rfl (stop '.' rfl).2
    · rfl
  | some ds =>
    obtain ⟨some_digits, all⟩ := all ds rfl
    obtain ⟨read, past⟩ := digits_append all fun c head => (stop c head).1
    rw [Literal.fraction_text, List.cons_append, match_fraction, read, past, if_neg some_digits]

theorem match_sign_append {sign : Option Char} {rest : List Char} (signs : ∀ c, sign = some c → c = '+' ∨ c = '-')
    (stop : ∀ c ∈ rest.head?, c ≠ '+' ∧ c ≠ '-') : match_sign (sign.toList ++ rest) = (sign, rest) := by
  cases sign with
  | none =>
    rw [Option.toList_none, List.nil_append, match_sign.eq_def]
    split
    · exact absurd rfl (stop '+' rfl).1
    · exact absurd rfl (stop '-' rfl).2
    · rfl
  | some c => rcases signs c rfl with rfl | rfl <;> rfl

theorem digit_ne {c : Char} (digit : c.isDigit = true) : c ≠ '+' ∧ c ≠ '-' ∧ c ≠ '.' ∧ c ≠ 'e' ∧ c ≠ 'E' := by
  refine ⟨?_, ?_, ?_, ?_, ?_⟩ <;>
    · rintro rfl
      exact absurd digit (by decide)

theorem match_exponent_append {exponent : Option (Char × Option Char × List Char)} {rest : List Char}
    (all : ∀ e sign ds, exponent = some (e, sign, ds) →
      (e = 'e' ∨ e = 'E') ∧ (∀ c, sign = some c → c = '+' ∨ c = '-') ∧ Literal.Digits ds)
    (ends : Ends rest) : match_exponent (Literal.exponent_text exponent ++ rest) = (exponent, rest) := by
  rcases exponent with _ | ⟨e, sign, ds⟩
  · rw [Literal.exponent_text, List.nil_append]
    cases rest with
    | nil => rfl
    | cons c rest =>
      obtain ⟨-, -, not_e, not_E⟩ := ends c rfl
      exact if_neg fun h => h.1.elim not_e not_E
  · obtain ⟨is_e, signs, some_digits, digit⟩ := all e sign ds rfl
    have head : ∀ c ∈ (ds ++ rest).head?, c ≠ '+' ∧ c ≠ '-' := by
      obtain ⟨d, ds, rfl⟩ := List.exists_cons_of_ne_nil some_digits
      rintro c ⟨⟩
      have other := digit_ne (digit _ List.mem_cons_self)
      exact ⟨other.1, other.2.1⟩
    obtain ⟨read, past⟩ := digits_append digit fun c head => (ends c head).1
    have text : Literal.exponent_text (some (e, sign, ds)) ++ rest = e :: (sign.toList ++ (ds ++ rest)) := by
      simp [Literal.exponent_text]
    rw [text, match_exponent, match_sign_append signs head]
    dsimp only
    rw [read, past, if_pos ⟨is_e, some_digits⟩]

theorem Ends.fraction {fraction : Option (List Char)} {exponent : Option (Char × Option Char × List Char)} {rest : List Char}
    (es : ∀ e sign ds, exponent = some (e, sign, ds) → e = 'e' ∨ e = 'E') (ends : Ends rest) :
    (∀ c ∈ (Literal.exponent_text exponent ++ rest).head?, c.isDigit = false ∧ c ≠ '.') ∧
      ∀ c ∈ (Literal.fraction_text fraction ++ (Literal.exponent_text exponent ++ rest)).head?, c.isDigit = false := by
  have after_fraction : ∀ c ∈ (Literal.exponent_text exponent ++ rest).head?, c.isDigit = false ∧ c ≠ '.' := by
    rcases exponent with _ | ⟨e, sign, ds⟩
    · exact fun c head => ⟨(ends c head).1, (ends c head).2.1⟩
    · rintro c ⟨⟩
      rcases es e sign ds rfl with rfl | rfl <;> decide
  refine ⟨after_fraction, ?_⟩
  cases fraction with
  | none => exact fun c head => (after_fraction c head).1
  | some ds =>
    rintro c ⟨⟩
    decide

/-- A literal reads back before anything that is not more of it. -/
theorem match_number_text {literal : Literal} (formed : literal.Wellformed) {rest : List Char} (ends : Ends rest) :
    match_number (literal.text ++ rest) = some (literal, rest) := by
  obtain ⟨negative, whole, fraction, exponent⟩ := literal
  obtain ⟨digits, no_zeros, fractions, exponents⟩ := formed
  obtain ⟨after_fraction, after_whole⟩ := @Ends.fraction fraction exponent rest (fun e sign ds here =>
    (exponents e sign ds here).1) ends
  have unsigned : ∀ negative, match_unsigned negative
      (whole ++ (Literal.fraction_text fraction ++ (Literal.exponent_text exponent ++ rest))) =
        some (⟨negative, whole, fraction, exponent⟩, rest) := by
    intro negative
    rw [match_unsigned, match_whole_append digits no_zeros after_whole, Option.map_some]
    dsimp only
    rw [match_fraction_append fractions after_fraction]
    dsimp only
    rw [match_exponent_append exponents ends]
  have text : Literal.text ⟨negative, whole, fraction, exponent⟩ ++ rest = (if negative then ['-'] else []) ++
      (whole ++ (Literal.fraction_text fraction ++ (Literal.exponent_text exponent ++ rest))) := by
    simp [Literal.text]
  rw [text]
  cases negative with
  | true => exact unsigned true
  | false =>
    obtain ⟨d, ds, rfl⟩ := List.exists_cons_of_ne_nil digits.1
    have other := digit_ne (digits.2 d List.mem_cons_self)
    rw [if_neg (by decide), List.nil_append, match_number.eq_def]
    split
    · rename_i same
      exact absurd (List.cons.inj same).1 other.2.1
    · exact unsigned false

theorem ofDigitChars_lt {ds : List Char} (all : ∀ c ∈ ds, c.isDigit = true) : Nat.ofDigitChars 10 ds 0 < 10 ^ ds.length := by
  induction ds with
  | nil => rw [Nat.ofDigitChars_nil]; exact Nat.pow_pos (by decide)
  | cons d ds ih =>
    have later := ih fun c mem => all c (List.mem_cons_of_mem _ mem)
    have digit := all d List.mem_cons_self
    simp only [Char.isDigit, Bool.and_eq_true, decide_eq_true_eq] at digit
    have low : d.toNat ≤ 57 := digit.2
    have value : 10 * 0 + (d.toNat - '0'.toNat) ≤ 9 := by
      have zero : '0'.toNat = 48 := rfl
      omega
    rw [Nat.ofDigitChars_cons, Nat.ofDigitChars_eq_ofDigitChars_zero, List.length_cons, Nat.pow_succ]
    have scaled := Nat.mul_le_mul_left (10 ^ ds.length) value
    omega

/-- Without leading zeros, the digits are as many as the value needs. -/
theorem Literal.Wellformed.small_iff {literal : Literal} (formed : literal.Wellformed) :
    literal.whole.length ≤ MAX_STR_DIGITS ↔ Small literal.value := by
  have abs : literal.value.natAbs = Nat.ofDigitChars 10 literal.whole 0 := by
    rw [Literal.value]
    split <;> simp
  rw [Small, abs]
  constructor
  · intro short
    exact Nat.lt_of_lt_of_le (ofDigitChars_lt formed.whole.2) (Nat.pow_le_pow_right (by decide) short)
  · intro small
    by_contra long
    obtain ⟨d, ds, whole⟩ := List.exists_cons_of_ne_nil formed.whole.1
    have not_zero : d ≠ '0' := by
      rintro rfl
      have one := formed.no_zeros (by rw [whole]; rfl)
      rw [one] at long
      exact long (by decide)
    have digit := formed.whole.2 d (by rw [whole]; exact List.mem_cons_self)
    simp only [Char.isDigit, Bool.and_eq_true, decide_eq_true_eq] at digit
    have low : 48 ≤ d.toNat := digit.1
    have zero : '0'.toNat = 48 := rfl
    have other : d.toNat ≠ 48 := fun same => not_zero (Char.toNat_inj.mp (same.trans zero.symm))
    rw [whole, List.length_cons] at long
    rw [whole, Nat.ofDigitChars_cons, Nat.ofDigitChars_eq_ofDigitChars_zero] at small
    have leading : 1 ≤ 10 * 0 + (d.toNat - '0'.toNat) := by omega
    have scaled := Nat.mul_le_mul_left (10 ^ ds.length) leading
    have wide : 10 ^ MAX_STR_DIGITS ≤ 10 ^ ds.length := Nat.pow_le_pow_right (by decide) (by omega)
    omega

section
variable {parse_float : List Char → φ}

theorem scan_number_text {literal : Literal} (formed : literal.Wellformed) {rest : List Char} (ends : Ends rest) :
    scan_number parse_float (literal.text ++ rest) =
      if literal.integral = false then .ok (.float (parse_float literal.text), rest)
      else if Small literal.value then .ok (.int literal.value, rest) else .error .too_many_digits := by
  have limit : (MAX_STR_DIGITS < literal.whole.length) ↔ ¬Small literal.value := by rw [← formed.small_iff, Nat.not_le]
  rw [scan_number, match_number_text formed ends]
  dsimp only
  split
  · rfl
  · by_cases small : Small literal.value
    · rw [if_neg fun long => limit.mp long small, if_pos small]
    · rw [if_pos (limit.mpr small), if_neg small]

/-- A number begins with a digit, or with a minus sign and a digit. -/
theorem Literal.Wellformed.head {literal : Literal} (formed : literal.Wellformed) (rest : List Char) :
    (∃ d t, d.isDigit = true ∧ literal.text ++ rest = d :: t) ∨
      ∃ d t, d.isDigit = true ∧ literal.text ++ rest = '-' :: d :: t := by
  obtain ⟨d, ds, whole⟩ := List.exists_cons_of_ne_nil formed.whole.1
  have digit := formed.whole.2 d (by rw [whole]; exact List.mem_cons_self)
  rw [Literal.text, whole]
  cases literal.negative with
  | true => exact .inr ⟨d, _, digit, rfl⟩
  | false => exact .inl ⟨d, _, digit, rfl⟩

theorem after_eq_none {name text : List Char} (differ : ¬ name <+: text) : after name text = none := if_neg differ

theorem scan_scalar_number {literal : Literal} (formed : literal.Wellformed) {rest : List Char} :
    scan_scalar parse_float (literal.text ++ rest) = scan_number parse_float (literal.text ++ rest) := by
  have no_name : ((constants parse_float).findSome? fun named =>
      (after named.1 (literal.text ++ rest)).map fun rest => (named.2, rest)) = none := by
    refine List.findSome?_eq_none_iff.mpr fun named mem => ?_
    rw [Option.map_eq_none_iff]
    refine after_eq_none fun before => ?_
    have starts : ∃ c name, named.1 = c :: name ∧ c.isDigit = false ∧
        (c = '-' → ∃ c' name', name = c' :: name' ∧ c'.isDigit = false) := by
      simp only [constants, List.mem_cons, List.not_mem_nil, or_false] at mem
      rcases mem with rfl | rfl | rfl | rfl | rfl | rfl
      iterate 5 exact ⟨_, _, rfl, by decide, fun minus => absurd minus (by decide)⟩
      exact ⟨_, _, rfl, by decide, fun _ => ⟨_, _, rfl, by decide⟩⟩
    obtain ⟨c, name, named_eq, other, minus⟩ := starts
    rw [named_eq] at before
    rcases formed.head rest with ⟨d, t, digit, text⟩ | ⟨d, t, digit, text⟩
    · rw [text, List.cons_prefix_cons] at before
      rw [before.1, digit] at other
      cases other
    · rw [text, List.cons_prefix_cons] at before
      obtain ⟨c', name', rfl, other⟩ := minus before.1
      have second := before.2
      rw [List.cons_prefix_cons] at second
      rw [second.1, digit] at other
      cases other
  rw [scan_scalar, no_name]

end

/-! ### Texts of the grammar read back -/

theorem Blank.white {w : List Char} (blank : Blank w) : ∀ c ∈ w, isWhite c = true := by
  intro c mem
  rcases blank c mem with rfl | rfl <;> rfl

theorem skip_blank {w text : List Char} (blank : Blank w) (stop : ∀ c ∈ text.head?, isWhite c = false) :
    skip (w ++ text) = text := by
  rw [skip, List.dropWhile_append_of_pos blank.white]
  cases text with
  | nil => rfl
  | cons c text => exact List.dropWhile_cons_of_neg (by simp [stop c rfl])

theorem skip_blank_cons {w text : List Char} {c : Char} (blank : Blank w) (stop : isWhite c = false) :
    skip (w ++ c :: text) = c :: text := skip_blank blank fun c head => by
  cases head
  exact stop

theorem next_cons (c : Char) (text : List Char) : next c (c :: text) = .ok text := if_pos rfl

theorem next_ne {c c' : Char} (ne : c' ≠ c) (text : List Char) : next c (c' :: text) = .error .invalid := if_neg ne

/-- A character that a value may begin with. -/
def Starts (text : List Char) : Prop :=
  ∃ c rest, text = c :: rest ∧ isWhite c = false ∧ c ≠ ']' ∧ c ≠ '\x7d'

theorem Starts.append {text : List Char} (starts : Starts text) (rest : List Char) : Starts (text ++ rest) := by
  obtain ⟨c, tail, rfl, other⟩ := starts
  exact ⟨c, tail ++ rest, rfl, other⟩

theorem Starts.skip {w text : List Char} (starts : Starts text) (blank : Blank w) : skip (w ++ text) = text := by
  obtain ⟨c, rest, rfl, white, -⟩ := starts
  exact skip_blank_cons blank white

theorem digit_not_white {d : Char} (digit : d.isDigit = true) :
    isWhite d = false ∧ d ≠ ']' ∧ d ≠ '\x7d' ∧ d ≠ '[' ∧ d ≠ '\x7b' ∧ d ≠ '"' := by
  have not_white : isWhite d = false := by
    cases white : isWhite d with
    | false => rfl
    | true =>
      simp only [isWhite, Bool.or_eq_true, decide_eq_true_eq] at white
      rcases white with ((rfl | rfl) | rfl) | rfl <;> exact absurd digit (by decide)
  refine ⟨not_white, ?_, ?_, ?_, ?_, ?_⟩ <;>
    · rintro rfl
      exact absurd digit (by decide)

section
variable {parse_float : List Char → φ}

theorem Literal.Wellformed.starts {literal : Literal} (formed : literal.Wellformed) : Starts literal.text := by
  rcases formed.head [] with ⟨d, t, digit, text⟩ | ⟨d, t, digit, text⟩
  · have other := digit_not_white digit
    exact ⟨d, t, by simpa using text, other.1, other.2.1, other.2.2.1⟩
  · exact ⟨'-', d :: t, by simpa using text, by decide, by decide, by decide⟩

theorem Quoted.starts {s : List Nat} {t : List Char} (quoted : Quoted s t) : Starts t := by
  obtain ⟨-, body, -, -, rfl⟩ := quoted
  exact ⟨'"', _, rfl, by decide, by decide, by decide⟩

theorem Written.starts {d : Doc φ} {t : List Char} (written : Written parse_float d t) : Starts t := by
  cases d with
  | null =>
    rw [Written] at written
    subst written
    exact ⟨'n', _, rfl, by decide, by decide, by decide⟩
  | bool b =>
    rw [Written] at written
    subst written
    cases b
    · exact ⟨'f', _, rfl, by decide, by decide, by decide⟩
    · exact ⟨'t', _, rfl, by decide, by decide, by decide⟩
  | int n =>
    rw [Written] at written
    obtain ⟨literal, formed, -, -, rfl⟩ := written
    exact formed.starts
  | float x =>
    rw [Written] at written
    obtain ⟨literal, formed, -, -, rfl⟩ := written
    exact formed.starts
  | string s =>
    rw [Written] at written
    exact written.starts
  | array items =>
    rw [Written] at written
    obtain ⟨u, -, rfl⟩ := written
    exact ⟨'[', u, rfl, by decide, by decide, by decide⟩
  | object members =>
    rw [Written] at written
    obtain ⟨-, u, -, rfl⟩ := written
    exact ⟨'\x7b', u, rfl, by decide, by decide, by decide⟩

theorem ends_blank {w rest : List Char} {c : Char} (blank : Blank w) (stop : Ends (c :: rest)) : Ends (w ++ c :: rest) := by
  cases w with
  | nil => exact stop
  | cons d w =>
    rintro e ⟨⟩
    rcases blank d List.mem_cons_self with rfl | rfl <;> decide

theorem ends_cons {c : Char} {rest : List Char} (other : c.isDigit = false ∧ c ≠ '.' ∧ c ≠ 'e' ∧ c ≠ 'E') :
    Ends (c :: rest) := by
  rintro e ⟨⟩
  exact other

/-- What follows an item is not more of a number. -/
theorem WrittenItems.ends {items : List (Doc φ)} {t : List Char} (written : WrittenItems parse_float false items t)
    (rest : List Char) : Ends (t ++ rest) := by
  cases items with
  | nil =>
    rw [WrittenItems] at written
    obtain ⟨w, blank, rfl⟩ := written
    rw [List.append_assoc]
    exact ends_blank blank (ends_cons (by decide))
  | cons item items =>
    rw [WrittenItems] at written
    obtain ⟨w, w', u, more, blank, -, -, -, rfl⟩ := written
    simp only [lead, Bool.false_eq_true, if_false, List.append_assoc, List.cons_append]
    exact ends_blank blank (ends_cons (by decide))

theorem WrittenMembers.ends {members : List (List Nat × Doc φ)} {t : List Char}
    (written : WrittenMembers parse_float false members t) (rest : List Char) : Ends (t ++ rest) := by
  cases members with
  | nil =>
    rw [WrittenMembers] at written
    obtain ⟨w, blank, rfl⟩ := written
    rw [List.append_assoc]
    exact ends_blank blank (ends_cons (by decide))
  | cons member members =>
    obtain ⟨key, value⟩ := member
    rw [WrittenMembers] at written
    obtain ⟨w, w', k, v, v', u, more, blank, -, -, -, -, -, -, rfl⟩ := written
    simp only [lead, Bool.false_eq_true, if_false, List.append_assoc, List.cons_append]
    exact ends_blank blank (ends_cons (by decide))

/-- Past what leads to an item, no bracket closes, and the item is next. -/
theorem past_comma_lead {first : Bool} {w w' text : List Char} (blank : Blank w) (blank' : Blank w') (starts : Starts text) :
    past_comma first (skip (lead first w w' ++ text)) = .ok text ∧
      next ']' (skip (lead first w w' ++ text)) = .error .invalid ∧
      next '\x7d' (skip (lead first w w' ++ text)) = .error .invalid := by
  cases first with
  | true =>
    have skipped : skip (lead true w w' ++ text) = text := starts.skip blank'
    obtain ⟨c, rest, rfl, -, bracket, brace⟩ := starts
    rw [skipped]
    exact ⟨rfl, next_ne bracket rest, next_ne brace rest⟩
  | false =>
    have skipped : skip (lead false w w' ++ text) = ',' :: (w' ++ text) := by
      simp only [lead, Bool.false_eq_true, if_false, List.append_assoc, List.cons_append]
      exact skip_blank_cons blank (by decide)
    rw [skipped]
    refine ⟨?_, next_ne (by decide) _, next_ne (by decide) _⟩
    have dropped := starts.skip blank'
    simp only [past_comma, Bool.false_eq_true, if_false, next_cons, Except.map, dropped]

theorem scanstring_quoted {s : List Nat} {body rest : List Char} {units : List Nat} (spelled : Spelled units body)
    (joined : s = join_surrogates units) : scanstring (body ++ '"' :: rest) = some (s, rest) := by
  rw [scanstring, string_units_spelled spelled, joined]
  rfl

theorem object_key_quoted {key : List Nat} {k v v' text : List Char} (quoted : Quoted key k) (blank : Blank v)
    (blank' : Blank v') (starts : Starts text) : object_key (k ++ (v ++ ':' :: (v' ++ text))) = .ok (key, text) := by
  obtain ⟨units, body, spelled, joined, rfl⟩ := quoted
  have read := @scanstring_quoted key body (v ++ ':' :: (v' ++ text)) units spelled joined
  have colon : skip (v ++ ':' :: (v' ++ text)) = ':' :: (v' ++ text) := skip_blank_cons blank (by decide)
  have value := starts.skip blank'
  rw [List.cons_append, List.append_assoc, List.singleton_append, object_key, next_cons]
  simp only [bind, Except.bind, read, colon, next_cons, value, pure, Except.pure]

end

/-! ### The characters of a text of the grammar -/

/-- A character that a line may have: no control but the tab, and above ASCII only what is in some string. -/
def Shown (texts : List (List Nat)) (c : Char) : Prop :=
  (32 ≤ c.toNat ∨ c = '\t') ∧ (c.toNat < 127 ∨ ∃ s ∈ texts, c.toNat ∈ s)

theorem Shown.mono {ss ts : List (List Nat)} {c : Char} (shown : Shown ss c) (sub : ss ⊆ ts) : Shown ts c :=
  ⟨shown.1, shown.2.imp_right fun ⟨s, mem, here⟩ => ⟨s, sub mem, here⟩⟩

theorem Shown.ascii {texts : List (List Nat)} {c : Char} (visible : 32 ≤ c.toNat) (low : c.toNat < 127) : Shown texts c :=
  ⟨.inl visible, .inl low⟩

theorem Blank.shown {texts : List (List Nat)} {w : List Char} (blank : Blank w) : ∀ c ∈ w, Shown texts c := by
  intro c mem
  rcases blank c mem with rfl | rfl
  · exact .ascii (by decide) (by decide)
  · exact ⟨.inr rfl, .inl (by decide)⟩

theorem mem_join_surrogates {units : List Nat} {n : Nat} (mem : n ∈ units) (not_high : isHighSurrogate n = false)
    (not_low : isLowSurrogate n = false) : n ∈ join_surrogates units := by
  induction units using join_surrogates.induct with
  | case1 high low rest pair ih =>
    rw [Bool.and_eq_true] at pair
    rw [join_surrogates, if_pos (by rw [pair.1, pair.2]; rfl)]
    rcases List.mem_cons.mp mem with rfl | mem
    · rw [pair.1] at not_high
      cases not_high
    · rcases List.mem_cons.mp mem with rfl | mem
      · rw [pair.2] at not_low
        cases not_low
      · exact List.mem_cons_of_mem _ (ih mem)
  | case2 high low rest no_pair ih =>
    rw [join_surrogates, if_neg no_pair]
    rcases List.mem_cons.mp mem with rfl | mem
    · exact List.mem_cons_self
    · exact List.mem_cons_of_mem _ (ih mem)
  | case3 rest short =>
    rw [join_surrogates]
    · exact mem
    · exact short

theorem char_no_surrogate (c : Char) : isHighSurrogate c.toNat = false ∧ isLowSurrogate c.toNat = false := by
  have valid := c.valid
  have bound : c.toNat < 0xD800 ∨ 0xDFFF < c.toNat ∧ c.toNat < 0x110000 := valid
  simp only [isHighSurrogate, isLowSurrogate, Bool.and_eq_false_iff, decide_eq_false_iff_not]
  omega

theorem hex_digit_ascii {c : Char} {n : Nat} (h : hex_digit? c = some n) : 32 ≤ c.toNat ∧ c.toNat < 127 := by
  unfold hex_digit? at h
  split_ifs at h with digit
  · simp only [Char.isDigit, Bool.and_eq_true, decide_eq_true_eq] at digit
    have low : 48 ≤ c.toNat := digit.1
    have high : c.toNat ≤ 57 := digit.2
    omega
  · omega
  · omega

theorem escaped_ascii {l : Char} {code : Nat} (h : escaped? l = some code) : 32 ≤ l.toNat ∧ l.toNat < 127 := by
  obtain ⟨before, after, split, -⟩ := List.lookup_eq_some_iff.mp h
  have mem : (l, code) ∈ [('"', 34), ('\\', 92), ('/', 47), ('b', 8), ('f', 12), ('n', 10), ('r', 13), ('t', 9)] := by
    rw [split]
    exact List.mem_append_right _ List.mem_cons_self
  simp only [List.mem_cons, Prod.mk.injEq, List.not_mem_nil, or_false] at mem
  rcases mem with ⟨rfl, -⟩ | ⟨rfl, -⟩ | ⟨rfl, -⟩ | ⟨rfl, -⟩ | ⟨rfl, -⟩ | ⟨rfl, -⟩ | ⟨rfl, -⟩ | ⟨rfl, -⟩ <;> decide

theorem Spelled.shown {units : List Nat} {body : List Char} (spelled : Spelled units body) :
    ∀ c ∈ body, 32 ≤ c.toNat ∧ (c.toNat < 127 ∨ c.toNat ∈ units) := by
  induction spelled with
  | nil => exact fun c mem => absurd mem List.not_mem_nil
  | raw visible _ _ _ ih =>
    intro d mem
    rcases List.mem_cons.mp mem with rfl | mem
    · exact ⟨visible, .inr List.mem_cons_self⟩
    · exact ⟨(ih d mem).1, (ih d mem).2.imp_right (List.mem_cons_of_mem _)⟩
  | letter escape _ ih =>
    intro d mem
    rcases List.mem_cons.mp mem with rfl | mem
    · exact ⟨by decide, .inl (by decide)⟩
    · rcases List.mem_cons.mp mem with rfl | mem
      · exact ⟨(escaped_ascii escape).1, .inl (escaped_ascii escape).2⟩
      · exact ⟨(ih d mem).1, (ih d mem).2.imp_right (List.mem_cons_of_mem _)⟩
  | hex escape _ ih =>
    obtain ⟨_, ha, escape⟩ := Option.bind_eq_some_iff.mp escape
    obtain ⟨_, hb, escape⟩ := Option.bind_eq_some_iff.mp escape
    obtain ⟨_, hc, escape⟩ := Option.bind_eq_some_iff.mp escape
    obtain ⟨_, hd, -⟩ := Option.bind_eq_some_iff.mp escape
    intro e mem
    simp only [List.mem_cons] at mem
    rcases mem with rfl | rfl | rfl | rfl | rfl | rfl | mem
    · exact ⟨by decide, .inl (by decide)⟩
    · exact ⟨by decide, .inl (by decide)⟩
    · exact ⟨(hex_digit_ascii ha).1, .inl (hex_digit_ascii ha).2⟩
    · exact ⟨(hex_digit_ascii hb).1, .inl (hex_digit_ascii hb).2⟩
    · exact ⟨(hex_digit_ascii hc).1, .inl (hex_digit_ascii hc).2⟩
    · exact ⟨(hex_digit_ascii hd).1, .inl (hex_digit_ascii hd).2⟩
    · exact ⟨(ih e mem).1, (ih e mem).2.imp_right (List.mem_cons_of_mem _)⟩

theorem Quoted.shown {s : List Nat} {t : List Char} (quoted : Quoted s t) : ∀ c ∈ t, Shown [s] c := by
  obtain ⟨units, body, spelled, rfl, rfl⟩ := quoted
  intro c mem
  simp only [List.mem_cons, List.mem_append, List.not_mem_nil, or_false] at mem
  rcases mem with rfl | mem | rfl
  · exact .ascii (by decide) (by decide)
  · obtain ⟨visible, low⟩ := spelled.shown c mem
    obtain ⟨not_high, not_low⟩ := char_no_surrogate c
    exact ⟨.inl visible, low.imp_right fun mem =>
      ⟨_, List.mem_singleton_self _, mem_join_surrogates mem not_high not_low⟩⟩
  · exact .ascii (by decide) (by decide)

theorem Literal.Wellformed.shown {literal : Literal} (formed : literal.Wellformed) {texts : List (List Nat)} :
    ∀ c ∈ literal.text, Shown texts c := by
  have digit : ∀ {c : Char}, c.isDigit = true → Shown texts c := by
    intro c digit
    simp only [Char.isDigit, Bool.and_eq_true, decide_eq_true_eq] at digit
    have low : 48 ≤ c.toNat := digit.1
    have high : c.toNat ≤ 57 := digit.2
    exact .ascii (by omega) (by omega)
  obtain ⟨negative, whole, fraction, exponent⟩ := literal
  obtain ⟨wholes, -, fractions, exponents⟩ := formed
  intro c mem
  simp only [Literal.text, List.mem_append] at mem
  rcases mem with mem | mem | mem | mem
  · split at mem
    · rw [List.mem_singleton.mp mem]
      exact .ascii (by decide) (by decide)
    · exact absurd mem List.not_mem_nil
  · exact digit (wholes.2 c mem)
  · cases fraction with
    | none => exact absurd mem List.not_mem_nil
    | some ds =>
      rcases List.mem_cons.mp mem with rfl | mem
      · exact .ascii (by decide) (by decide)
      · exact digit ((fractions ds rfl).2 c mem)
  · rcases exponent with _ | ⟨e, sign, ds⟩
    · exact absurd mem List.not_mem_nil
    · obtain ⟨is_e, signs, all⟩ := exponents e sign ds rfl
      rcases List.mem_cons.mp mem with rfl | mem
      · rcases is_e with rfl | rfl <;> exact .ascii (by decide) (by decide)
      · rcases List.mem_append.mp mem with mem | mem
        · obtain rfl := Option.mem_toList.mp mem
          rcases signs c rfl with rfl | rfl <;> exact .ascii (by decide) (by decide)
        · exact digit (all.2 c mem)

theorem shown_lead {first : Bool} {w w' : List Char} (blank : Blank w) (blank' : Blank w') {texts : List (List Nat)} :
    ∀ c ∈ lead first w w', Shown texts c := by
  intro c mem
  cases first with
  | true => exact blank'.shown c mem
  | false =>
    simp only [lead, Bool.false_eq_true, if_false, List.mem_append, List.mem_cons] at mem
    rcases mem with mem | rfl | mem
    · exact blank.shown c mem
    · exact .ascii (by decide) (by decide)
    · exact blank'.shown c mem

section
variable {parse_float : List Char → φ}

mutual

theorem Written.shown : ∀ (d : Doc φ) {t : List Char}, Written parse_float d t → ∀ c ∈ t, Shown d.texts c
  | .null, t, written, c, mem => by
    rw [Written] at written
    subst written
    revert c
    simp only [Doc.texts]
    exact fun c mem => .ascii (by revert c; decide) (by revert c; decide)
  | .bool b, t, written, c, mem => by
    rw [Written] at written
    subst written
    cases b
    · exact .ascii (by revert c; decide) (by revert c; decide)
    · exact .ascii (by revert c; decide) (by revert c; decide)
  | .int n, t, written, c, mem => by
    rw [Written] at written
    obtain ⟨literal, formed, -, -, rfl⟩ := written
    exact formed.shown c mem
  | .float x, t, written, c, mem => by
    rw [Written] at written
    obtain ⟨literal, formed, -, -, rfl⟩ := written
    exact formed.shown c mem
  | .string s, t, written, c, mem => by
    rw [Written] at written
    exact written.shown c mem
  | .array items, t, written, c, mem => by
    rw [Written] at written
    obtain ⟨u, items_written, rfl⟩ := written
    rcases List.mem_cons.mp mem with rfl | mem
    · exact .ascii (by decide) (by decide)
    · exact WrittenItems.shown items items_written c mem
  | .object members, t, written, c, mem => by
    rw [Written] at written
    obtain ⟨-, u, members_written, rfl⟩ := written
    rcases List.mem_cons.mp mem with rfl | mem
    · exact .ascii (by decide) (by decide)
    · exact WrittenMembers.shown members members_written c mem

theorem WrittenItems.shown : ∀ (items : List (Doc φ)) {first : Bool} {t : List Char},
    WrittenItems parse_float first items t → ∀ c ∈ t, Shown (Doc.item_texts items) c
  | [], first, t, written, c, mem => by
    rw [WrittenItems] at written
    obtain ⟨w, blank, rfl⟩ := written
    rcases List.mem_append.mp mem with mem | mem
    · exact blank.shown c mem
    · rw [List.mem_singleton.mp mem]
      exact .ascii (by decide) (by decide)
  | item :: items, first, t, written, c, mem => by
    rw [WrittenItems] at written
    obtain ⟨w, w', u, more, blank, blank', item_written, items_written, rfl⟩ := written
    rw [Doc.item_texts]
    rcases List.mem_append.mp mem with mem | mem
    · exact shown_lead blank blank' c mem
    · rcases List.mem_append.mp mem with mem | mem
      · exact (Written.shown item item_written c mem).mono (List.subset_append_left _ _)
      · exact (WrittenItems.shown items items_written c mem).mono (List.subset_append_right _ _)

theorem WrittenMembers.shown : ∀ (members : List (List Nat × Doc φ)) {first : Bool} {t : List Char},
    WrittenMembers parse_float first members t → ∀ c ∈ t, Shown (Doc.member_texts members) c
  | [], first, t, written, c, mem => by
    rw [WrittenMembers] at written
    obtain ⟨w, blank, rfl⟩ := written
    rcases List.mem_append.mp mem with mem | mem
    · exact blank.shown c mem
    · rw [List.mem_singleton.mp mem]
      exact .ascii (by decide) (by decide)
  | (key, value) :: members, first, t, written, c, mem => by
    rw [WrittenMembers] at written
    obtain ⟨w, w', k, v, v', u, more, blank, blank', blank_v, blank_v', quoted, value_written, members_written, rfl⟩ :=
      written
    rw [Doc.member_texts]
    simp only [List.mem_append, List.mem_cons] at mem
    rcases mem with mem | mem | mem | rfl | mem | mem | mem
    · exact shown_lead blank blank' c mem
    · exact (quoted.shown c mem).mono (List.cons_subset_cons _ (List.nil_subset _))
    · exact blank_v.shown c mem
    · exact .ascii (by decide) (by decide)
    · exact blank_v'.shown c mem
    · exact (Written.shown value value_written c mem).mono
        (List.subset_cons_of_subset _ (List.subset_append_left _ _))
    · exact (WrittenMembers.shown members members_written c mem).mono
        (List.subset_cons_of_subset _ (List.subset_append_right _ _))

end

end

/-! ### Dictionaries of pairs -/

theorem assign_fresh {key : List Nat} {value : Doc φ} {entries : List (List Nat × Doc φ)}
    (fresh : key ∉ entries.map Prod.fst) : Dict.assign key value entries = entries ++ [(key, value)] := by
  induction entries with
  | nil => rfl
  | cons e entries ih =>
    rw [List.map_cons, List.mem_cons, not_or] at fresh
    rw [Dict.assign, if_neg fun same => fresh.1 same.symm, ih fresh.2]
    rfl

/-- Pairs of distinct keys are their dictionary. -/
theorem dict_of_nodup {pairs : List (List Nat × Doc φ)} (nodup : (pairs.map Prod.fst).Nodup) : dict_of pairs = pairs := by
  induction pairs using List.reverseRecOn with
  | nil => rfl
  | append_singleton pairs pair ih =>
    rw [List.map_append, List.nodup_append] at nodup
    have fresh : pair.1 ∉ pairs.map Prod.fst := fun mem =>
      nodup.2.2 pair.1 mem pair.1 (List.mem_singleton_self _) rfl
    have earlier := ih nodup.1
    unfold dict_of at earlier ⊢
    rw [List.foldl_append, earlier]
    exact assign_fresh fresh

theorem mem_assign {key : List Nat} {value : Doc φ} {entries : List (List Nat × Doc φ)} {e : List Nat × Doc φ}
    (mem : e ∈ Dict.assign key value entries) : e = (key, value) ∨ e ∈ entries := by
  induction entries with
  | nil => exact .inl (List.mem_singleton.mp mem)
  | cons e' entries ih =>
    rw [Dict.assign] at mem
    split at mem
    · exact (List.mem_cons.mp mem).imp_right (List.mem_cons_of_mem _)
    · rcases List.mem_cons.mp mem with rfl | mem
      · exact .inr List.mem_cons_self
      · exact (ih mem).imp_right (List.mem_cons_of_mem _)

theorem mem_dict_of {pairs : List (List Nat × Doc φ)} {e : List Nat × Doc φ} (mem : e ∈ dict_of pairs) : e ∈ pairs := by
  induction pairs using List.reverseRecOn with
  | nil => exact mem
  | append_singleton pairs pair ih =>
    unfold dict_of at mem ih
    rw [List.foldl_append] at mem
    rcases mem_assign mem with rfl | mem
    · exact List.mem_append_right _ (List.mem_singleton_self _)
    · exact List.mem_append_left _ (ih mem)

/-! ### What the reader makes of a text of the grammar -/

section
variable {parse_float : List Char → φ}

theorem scan_once_scalar {fuel : Nat} {text rest : List Char} {c : Char} (head : text = c :: rest) (not_quote : c ≠ '"')
    (not_bracket : c ≠ '[') (not_brace : c ≠ '\x7b') :
    scan_once parse_float (fuel + 1) text = scan_scalar parse_float text := by
  subst head
  rw [scan_once]
  rw [if_neg not_quote, if_neg not_bracket, if_neg not_brace]

theorem scan_once_number {fuel : Nat} {literal : Literal} (formed : literal.Wellformed) {rest : List Char} :
    scan_once parse_float (fuel + 1) (literal.text ++ rest) = scan_number parse_float (literal.text ++ rest) := by
  have scalar : scan_once parse_float (fuel + 1) (literal.text ++ rest) =
      scan_scalar parse_float (literal.text ++ rest) := by
    rcases formed.head rest with ⟨d, t, digit, text⟩ | ⟨d, t, digit, text⟩
    · obtain ⟨-, -, -, not_bracket, not_brace, not_quote⟩ := digit_not_white digit
      exact scan_once_scalar text not_quote not_bracket not_brace
    · exact scan_once_scalar text (by decide) (by decide) (by decide)
  rw [scalar, scan_scalar_number formed]

theorem all_small_append {γ : Type} {ns ms : List Int} {read : Except DecodeError γ} :
    (if ∀ n ∈ ns ++ ms, Small n then read else .error .too_many_digits) =
      if ∀ n ∈ ns, Small n then (if ∀ n ∈ ms, Small n then read else .error .too_many_digits)
      else .error .too_many_digits := by
  by_cases first : ∀ n ∈ ns, Small n
  · rw [if_pos first]
    by_cases rest : ∀ n ∈ ms, Small n
    · rw [if_pos rest, if_pos (List.forall_mem_append.mpr ⟨first, rest⟩)]
    · rw [if_neg rest, if_neg fun all => rest (List.forall_mem_append.mp all).2]
  · rw [if_neg first, if_neg fun all => first (List.forall_mem_append.mp all).1]

mutual

theorem scan_once_written : ∀ (d : Doc φ) {t rest : List Char} {fuel : Nat}, Written parse_float d t → Ends rest →
    2 * t.length ≤ fuel → scan_once parse_float fuel (t ++ rest) =
      if ∀ n ∈ d.ints, Small n then .ok (d, rest) else .error .too_many_digits
  | d, t, rest, 0, written, _, short => by
    obtain ⟨c, tail, rfl, -⟩ := written.starts
    rw [List.length_cons] at short
    omega
  | .null, t, rest, fuel + 1, written, ends, short => by
    rw [Written] at written
    subst written
    exact scan_once_scalar rfl (by decide) (by decide) (by decide)
  | .bool b, t, rest, fuel + 1, written, ends, short => by
    rw [Written] at written
    subst written
    cases b <;> exact scan_once_scalar rfl (by decide) (by decide) (by decide)
  | .int n, t, rest, fuel + 1, written, ends, short => by
    rw [Written] at written
    obtain ⟨literal, formed, integral, rfl, rfl⟩ := written
    rw [scan_once_number formed, scan_number_text formed ends, if_neg (by rw [integral]; decide)]
    simp only [Doc.ints, List.mem_singleton, forall_eq]
  | .float x, t, rest, fuel + 1, written, ends, short => by
    rw [Written] at written
    obtain ⟨literal, formed, not_integral, rfl, rfl⟩ := written
    rw [scan_once_number formed, scan_number_text formed ends, if_pos not_integral, Doc.ints,
      if_pos fun n mem => absurd mem List.not_mem_nil]
  | .string s, t, rest, fuel + 1, written, ends, short => by
    rw [Written] at written
    obtain ⟨units, body, spelled, joined, rfl⟩ := written
    rw [List.cons_append, List.append_assoc, List.singleton_append, scan_once]
    rw [if_pos rfl, scanstring_quoted spelled joined, Doc.ints, if_pos fun n mem => absurd mem List.not_mem_nil]
  | .array items, t, rest, fuel + 1, written, ends, short => by
    rw [Written] at written
    obtain ⟨u, items_written, rfl⟩ := written
    rw [List.length_cons] at short
    have read := @json_array_written items true u rest fuel items_written (by omega)
    rw [List.cons_append, scan_once]
    rw [if_neg (by decide), if_pos rfl, read, Doc.ints]
    split <;> rfl
  | .object members, t, rest, fuel + 1, written, ends, short => by
    rw [Written] at written
    obtain ⟨nodup, u, members_written, rfl⟩ := written
    rw [List.length_cons] at short
    have read := @json_object_written members true u rest fuel members_written (by omega)
    rw [List.cons_append, scan_once]
    rw [if_neg (by decide), if_neg (by decide), if_pos rfl, read, Doc.ints]
    split
    · rw [Except.map, dict_of_nodup nodup]
    · rfl

theorem json_array_written : ∀ (items : List (Doc φ)) {first : Bool} {t rest : List Char} {fuel : Nat},
    WrittenItems parse_float first items t → 2 * t.length + 1 ≤ fuel → json_array parse_float fuel first (t ++ rest) =
      if ∀ n ∈ Doc.item_ints items, Small n then .ok (items, rest) else .error .too_many_digits
  | items, first, t, rest, 0, written, short => by omega
  | [], first, t, rest, fuel + 1, written, short => by
    rw [WrittenItems] at written
    obtain ⟨w, blank, rfl⟩ := written
    have closing : skip (w ++ [']'] ++ rest) = ']' :: rest := by
      rw [List.append_assoc]
      exact skip_blank_cons blank (by decide)
    rw [json_array, closing, next_cons, Doc.item_ints, if_pos fun n mem => absurd mem List.not_mem_nil]
  | item :: items, first, t, rest, fuel + 1, written, short => by
    rw [WrittenItems] at written
    obtain ⟨w, w', u, more, blank, blank', item_written, items_written, rfl⟩ := written
    rw [List.length_append, List.length_append] at short
    obtain ⟨c, tail, head, -⟩ := item_written.starts
    have some_text : 0 < u.length := by rw [head]; exact Nat.succ_pos _
    have here := @scan_once_written item u (more ++ rest) fuel item_written (items_written.ends rest)
      (by omega)
    have later := @json_array_written items false more rest fuel items_written (by omega)
    obtain ⟨to_item, closing, -⟩ := @past_comma_lead first _ _ _ blank blank'
      (item_written.starts.append (more ++ rest))
    rw [List.append_assoc, List.append_assoc, json_array, closing]
    dsimp only
    rw [to_item, Doc.item_ints, all_small_append]
    simp only [bind, Except.bind, here]
    by_cases small : ∀ n ∈ item.ints, Small n
    · rw [if_pos small, if_pos small]
      simp only [later]
      by_cases rest_small : ∀ n ∈ Doc.item_ints items, Small n
      · rw [if_pos rest_small, if_pos rest_small]
        rfl
      · rw [if_neg rest_small, if_neg rest_small]
    · rw [if_neg small, if_neg small]

theorem json_object_written : ∀ (members : List (List Nat × Doc φ)) {first : Bool} {t rest : List Char} {fuel : Nat},
    WrittenMembers parse_float first members t → 2 * t.length + 1 ≤ fuel → json_object parse_float fuel first (t ++ rest) =
      if ∀ n ∈ Doc.member_ints members, Small n then .ok (members, rest) else .error .too_many_digits
  | members, first, t, rest, 0, written, short => by omega
  | [], first, t, rest, fuel + 1, written, short => by
    rw [WrittenMembers] at written
    obtain ⟨w, blank, rfl⟩ := written
    have closing : skip (w ++ ['\x7d'] ++ rest) = '\x7d' :: rest := by
      rw [List.append_assoc]
      exact skip_blank_cons blank (by decide)
    rw [json_object, closing, next_cons, Doc.member_ints, if_pos fun n mem => absurd mem List.not_mem_nil]
  | (key, value) :: members, first, t, rest, fuel + 1, written, short => by
    rw [WrittenMembers] at written
    obtain ⟨w, w', k, v, v', u, more, blank, blank', blank_v, blank_v', quoted, value_written, members_written, rfl⟩ :=
      written
    simp only [List.length_append, List.length_cons] at short
    have here := @scan_once_written value u (more ++ rest) fuel value_written (members_written.ends rest)
      (by omega)
    have later := @json_object_written members false more rest fuel members_written (by omega)
    have text : lead first w w' ++ (k ++ (v ++ ':' :: (v' ++ (u ++ more)))) ++ rest =
        lead first w w' ++ (k ++ (v ++ ':' :: (v' ++ (u ++ (more ++ rest))))) := by simp
    obtain ⟨to_key, -, closing⟩ := @past_comma_lead first _ _ _ blank blank'
      (quoted.starts.append (v ++ ':' :: (v' ++ (u ++ (more ++ rest)))))
    have keyed := object_key_quoted quoted blank_v blank_v' (value_written.starts.append (more ++ rest))
    rw [text, json_object, closing]
    dsimp only
    rw [to_key, Doc.member_ints, all_small_append]
    simp only [bind, Except.bind, keyed, here]
    by_cases small : ∀ n ∈ value.ints, Small n
    · rw [if_pos small, if_pos small]
      simp only [later]
      by_cases rest_small : ∀ n ∈ Doc.member_ints members, Small n
      · rw [if_pos rest_small, if_pos rest_small]
        rfl
      · rw [if_neg rest_small, if_neg rest_small]
    · rw [if_neg small, if_neg small]

end

/-- A text of the grammar reads back when its integers are small and only white space follows. -/
theorem loads_written {d : Doc φ} {t rest : List Char} (written : Written parse_float d t) (ends : Ends rest) :
    loads parse_float (t ++ rest) =
      if ∀ n ∈ d.ints, Small n then (if skip rest = [] then .ok d else .error .invalid) else .error .too_many_digits := by
  have first : skip (t ++ rest) = t ++ rest := (written.starts.append rest).skip (w := []) fun _ mem => absurd mem List.not_mem_nil
  have read := @scan_once_written _ parse_float d t rest (2 * (t ++ rest).length + 1) written ends
    (by rw [List.length_append]; omega)
  rw [loads, first, read]
  split <;> rfl

end

end Json
