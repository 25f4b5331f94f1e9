import Mathlib.Data.List.Basic
import Mathlib.Tactic.IntervalCases
import Mathlib.Tactic.SplitIfs

/-! Compact JSON of objects whose members are strings: what a writer that leaves every character above the controls raw
    writes, and how it is read back. -/

namespace Json

/-- A property of the characters of a text is decided on the text, not on every character there is. -/
instance (priority := high) decidableForallMem (l : List Char) (p : Char → Prop) [DecidablePred p] :
    Decidable (∀ c ∈ l, p c) := List.decidableBAll p l

/-! ### Strings -/

/-- The letter of a two-character escape. -/
def short (c : Char) : Option Char :=
  if c = '"' then some '"' else if c = '\\' then some '\\' else if c = '\n' then some 'n'
  else if c = '\r' then some 'r' else if c = '\t' then some 't' else if c = '\x08' then some 'b'
  else if c = '\x0c' then some 'f' else none

def unshort (letter : Char) : Option Char :=
  if letter = '"' then some '"' else if letter = '\\' then some '\\' else if letter = 'n' then some '\n'
  else if letter = 'r' then some '\r' else if letter = 't' then some '\t' else if letter = 'b' then some '\x08'
  else if letter = 'f' then some '\x0c' else none

def hex_digit (n : Nat) : Char := if n < 10 then Char.ofNat (48 + n) else Char.ofNat (87 + n)
def hex_value (digit : Char) : Nat := if digit.toNat < 97 then digit.toNat - 48 else digit.toNat - 87

/-- A character of a string; only quotes, backslashes and the controls are escaped. -/
def escape (c : Char) : List Char :=
  match short c with
  | some letter => ['\\', letter]
  | none =>
    if c.toNat < 32 then ['\\', 'u', '0', '0', hex_digit (c.toNat / 16), hex_digit (c.toNat % 16)] else [c]

def escapes (s : List Char) : List Char := s.flatMap escape

def quote (s : List Char) : List Char := '"' :: (escapes s ++ ['"'])

/-- The string up to its closing quote, and what follows. -/
def read_string : List Char → Option (List Char × List Char)
  | [] => none
  | '"' :: rest => some ([], rest)
  | '\\' :: 'u' :: '0' :: '0' :: high :: low :: rest =>
    (read_string rest).map fun read => (Char.ofNat (16 * hex_value high + hex_value low) :: read.1, read.2)
  | '\\' :: letter :: rest => (unshort letter).bind fun c => (read_string rest).map fun read => (c :: read.1, read.2)
  | c :: rest => (read_string rest).map fun read => (c :: read.1, read.2)

theorem escape_control {c : Char} (control : c.toNat < 32) (long : short c = none) :
    escape c = ['\\', 'u', '0', '0', hex_digit (c.toNat / 16), hex_digit (c.toNat % 16)] := by
  rw [escape, long]
  exact if_pos control

theorem escape_raw {c : Char} (raw : ¬ c.toNat < 32) (long : short c = none) : escape c = [c] := by
  rw [escape, long]
  exact if_neg raw

theorem hex_round_trip {c : Char} (control : c.toNat < 32) :
    Char.ofNat (16 * hex_value (hex_digit (c.toNat / 16)) + hex_value (hex_digit (c.toNat % 16))) = c := by
  conv_rhs => rw [← Char.ofNat_toNat c]
  generalize c.toNat = n at control
  interval_cases n <;> rfl

theorem unshort_short {c letter : Char} (h : short c = some letter) : unshort letter = some c ∧ letter ≠ 'u' := by
  unfold short at h
  split_ifs at h with quote backslash feed cr tab back form
  all_goals
    subst c
    obtain rfl := Option.some.inj h
    exact ⟨rfl, by decide⟩

theorem short_none {c : Char} (h : short c = none) : c ≠ '"' ∧ c ≠ '\\' := by
  constructor <;> rintro rfl <;> cases h

theorem read_string_escape (c : Char) (rest : List Char) :
    read_string (escape c ++ rest) = (read_string rest).map fun read => (c :: read.1, read.2) := by
  cases long : short c with
  | some letter =>
    obtain ⟨back, not_hex⟩ := unshort_short long
    have two : escape c = ['\\', letter] := by rw [escape, long]
    rw [two, List.cons_append, List.cons_append, List.nil_append, read_string, back]
    · rfl
    · rintro - - - h
      exact absurd h not_hex
  | none =>
    by_cases control : c.toNat < 32
    · rw [escape_control control long]
      simp only [List.cons_append, List.nil_append, read_string]
      rw [hex_round_trip control]
    · obtain ⟨not_quote, not_backslash⟩ := short_none long
      rw [escape_raw control long, List.singleton_append, read_string]
      all_goals simp_all

theorem escapes_cons (c : Char) (s tail : List Char) : escapes (c :: s) ++ tail = escape c ++ (escapes s ++ tail) := by
  rw [escapes, List.flatMap_cons, List.append_assoc, ← escapes]

/-- A quoted string reads back, whatever follows it. -/
theorem read_string_escapes (s rest : List Char) : read_string (escapes s ++ '"' :: rest) = some (s, rest) := by
  induction s with
  | nil => rfl
  | cons c s ih =>
    rw [escapes_cons, read_string_escape, ih]
    rfl

/-! ### Integers -/

def integer : Int → List Char
  | .ofNat n => Nat.toDigits 10 n
  | .negSucc n => '-' :: Nat.toDigits 10 (n + 1)

def natural (text : List Char) : Option (Nat × List Char) :=
  if (text.takeWhile Char.isDigit).isEmpty then none
  else some (Nat.ofDigitChars 10 (text.takeWhile Char.isDigit) 0, text.dropWhile Char.isDigit)

/-- An integer, and the text after its digits. -/
def read_integer : List Char → Option (Int × List Char)
  | '-' :: text => (natural text).map fun read => (-(read.1 : Int), read.2)
  | text => (natural text).map fun read => ((read.1 : Int), read.2)

theorem digit_of_mem {n : Nat} {c : Char} (mem : c ∈ Nat.toDigits 10 n) : c.isDigit = true :=
  Nat.isDigit_of_mem_toDigits (by decide) (by decide) mem

theorem natural_toDigits (n : Nat) {c : Char} {rest : List Char} (ends : c.isDigit = false) :
    natural (Nat.toDigits 10 n ++ c :: rest) = some (n, c :: rest) := by
  have taken : (Nat.toDigits 10 n ++ c :: rest).takeWhile Char.isDigit = Nat.toDigits 10 n := by
    rw [List.takeWhile_append_of_pos fun _ => digit_of_mem, List.takeWhile_cons_of_neg (by simp [ends]), List.append_nil]
  have left : (Nat.toDigits 10 n ++ c :: rest).dropWhile Char.isDigit = c :: rest := by
    rw [List.dropWhile_append_of_pos fun _ => digit_of_mem, List.dropWhile_cons_of_neg (by simp [ends])]
  rw [natural, taken, left, if_neg (by simp [Nat.toDigits_ne_nil]), Nat.ofDigitChars_ten_toDigits]

/-- An integer reads back before a character that is no digit. -/
theorem read_integer_integer (n : Int) {c : Char} {rest : List Char} (ends : c.isDigit = false) :
    read_integer (integer n ++ c :: rest) = some (n, c :: rest) := by
  cases n with
  | ofNat n =>
    have digits := @natural_toDigits n _ rest ends
    rw [integer, read_integer, digits]
    · rfl
    · intro text negative
      have mem : '-' ∈ Nat.toDigits 10 n := by
        cases split : Nat.toDigits 10 n with
        | nil => exact absurd split Nat.toDigits_ne_nil
        | cons d ds =>
          rw [split] at negative
          rw [(List.cons.inj negative).1]
          exact List.mem_cons_self
      exact absurd (digit_of_mem mem) (by decide)
  | negSucc n =>
    rw [integer, List.cons_append, read_integer, natural_toDigits (n + 1) ends]
    rfl

/-! ### Objects -/

/-- The members of an object up to its closing brace. -/
def members : List (List Char × List Char) → List Char
  | [] => ['}']
  | [(name, value)] => quote name ++ ':' :: (quote value ++ ['}'])
  | (name, value) :: fields => quote name ++ ':' :: (quote value ++ ',' :: members fields)

def object (fields : List (List Char × List Char)) : List Char := '{' :: members fields

def isWhite (c : Char) : Bool := c = ' ' || c = '\t' || c = '\n' || c = '\r'

/-- The text after a given one. -/
def after (head text : List Char) : Option (List Char) :=
  if head <+: text then some (text.drop head.length) else none

/-- The values of the members with these names, in this order; only white space may follow the closing brace. -/
def read_members : List (List Char) → List Char → Option (List (List Char))
  | [], text => do
    let rest ← after ['}'] text
    if rest.all isWhite then some [] else none
  | name :: names, text => do
    let opened ← after (quote name ++ [':', '"']) text
    let (value, rest) ← read_string opened
    if names = [] then
      let rest ← after ['}'] rest
      if rest.all isWhite then some [value] else none
    else
      let rest ← after [','] rest
      return value :: (← read_members names rest)

def read_object (names : List (List Char)) (text : List Char) : Option (List (List Char)) :=
  (after ['{'] text).bind (read_members names)

theorem members_close (fields : List (List Char × List Char)) : (members fields).getLast? = some '}' := by
  induction fields with
  | nil => rfl
  | cons field fields ih =>
    obtain ⟨name, value⟩ := field
    cases fields with
    | nil => simp [members, List.getLast?_append, List.getLast?_cons]
    | cons next fields => simp [members, List.getLast?_append, List.getLast?_cons, ih]

theorem object_closes (fields : List (List Char × List Char)) : (object fields).getLast? = some '}' := by
  rw [object, List.getLast?_cons, members_close]
  rfl

theorem after_append (head text : List Char) : after head (head ++ text) = some text := by
  rw [after, if_pos (List.prefix_append head text), List.drop_left]

theorem read_members_members (fields : List (List Char × List Char)) (blanks : List Char) (white : blanks.all isWhite) :
    read_members (fields.map (·.1)) (members fields ++ blanks) = some (fields.map (·.2)) := by
  induction fields with
  | nil =>
    have opened : after ['}'] (members [] ++ blanks) = some blanks := after_append ['}'] blanks
    simp only [List.map_nil, read_members, opened]
    exact if_pos white
  | cons field fields ih =>
    obtain ⟨name, value⟩ := field
    cases fields with
    | nil =>
      have opened : after (quote name ++ [':', '"']) (members [(name, value)] ++ blanks) =
          some (escapes value ++ '"' :: ('}' :: blanks)) := by
        rw [← after_append (quote name ++ [':', '"'])]
        simp [members, quote]
      have closed : after ['}'] ('}' :: blanks) = some blanks := after_append ['}'] blanks
      simp only [List.map_cons, List.map_nil, read_members, opened, read_string_escapes, closed, Option.bind_eq_bind,
        Option.bind_some, if_true]
      exact if_pos white
    | cons next fields =>
      have opened : after (quote name ++ [':', '"']) (members ((name, value) :: next :: fields) ++ blanks) =
          some (escapes value ++ '"' :: (',' :: (members (next :: fields) ++ blanks))) := by
        rw [← after_append (quote name ++ [':', '"'])]
        simp [members, quote]
      have closed : after [','] (',' :: (members (next :: fields) ++ blanks)) = some (members (next :: fields) ++ blanks) :=
        after_append [','] _
      rw [List.map_cons, read_members]
      simp only [opened, read_string_escapes, closed, Option.bind_eq_bind, Option.bind_some, List.map_cons,
        reduceCtorEq, if_false]
      rw [← List.map_cons, ih]
      rfl

/-- An object reads back. -/
theorem read_object_object (fields : List (List Char × List Char)) (blanks : List Char) (white : blanks.all isWhite) :
    read_object (fields.map (·.1)) (object fields ++ blanks) = some (fields.map (·.2)) := by
  have opened : after ['{'] (object fields ++ blanks) = some (members fields ++ blanks) := after_append ['{'] _
  rw [read_object, opened]
  exact read_members_members fields blanks white

/-- Objects with the same names are the same text only with the same values. -/
theorem object_inj {a b : List (List Char × List Char)} (names : a.map (·.1) = b.map (·.1)) (same : object a = object b) :
    a.map (·.2) = b.map (·.2) := by
  have read_a := read_object_object a [] rfl
  rw [same, names, read_object_object b [] rfl] at read_a
  exact (Option.some.inj read_a).symm

/-! ### Fragments -/

/-- Whether a text opens an object with a member: a brace, a string and a colon, with white space between them. Every
    text of an object that has members does. -/
def opens_member (text : List Char) : Bool :=
  match text.dropWhile isWhite with
  | '{' :: text =>
    match text.dropWhile isWhite with
    | '"' :: text =>
      match read_string text with
      | some (_, text) => (text.dropWhile isWhite).head? = some ':'
      | none => false
    | _ => false
  | _ => false

theorem opens_member_object (name value : List Char) (fields : List (List Char × List Char)) (blanks : List Char) :
    opens_member (object ((name, value) :: fields) ++ blanks) = true := by
  obtain ⟨rest, text⟩ : ∃ rest, object ((name, value) :: fields) ++ blanks =
      '{' :: '"' :: (escapes name ++ '"' :: ':' :: rest) := by
    cases fields <;> simp [object, members, quote]
  rw [text]
  have read := read_string_escapes name (':' :: rest)
  simp [opens_member, isWhite, read]

theorem escape_cases (c : Char) :
    (∃ t, escape c = '\\' :: t) ∨ (escape c = [c] ∧ c ≠ '"' ∧ 32 ≤ c.toNat) := by
  cases long : short c with
  | some letter => exact .inl ⟨_, by rw [escape, long]⟩
  | none =>
    by_cases control : c.toNat < 32
    · exact .inl ⟨_, escape_control control long⟩
    · exact .inr ⟨escape_raw control long, (short_none long).1, Nat.le_of_not_lt control⟩

/-- Past white space, a string has its next character, or its closing quote. -/
theorem dropWhile_escapes (s tail : List Char) :
    ∃ s', (escapes s ++ '"' :: tail).dropWhile isWhite = escapes s' ++ '"' :: tail := by
  induction s with
  | nil => exact ⟨[], rfl⟩
  | cons c s ih =>
    rw [escapes_cons]
    rcases escape_cases c with ⟨t, escaped⟩ | ⟨raw, -, -⟩
    · refine ⟨c :: s, ?_⟩
      rw [escapes_cons, escaped]
      rfl
    · by_cases white : isWhite c
      · obtain ⟨s', dropped⟩ := ih
        refine ⟨s', ?_⟩
        rw [raw, List.singleton_append, List.dropWhile_cons_of_pos white, dropped]
      · refine ⟨c :: s, ?_⟩
        rw [raw, List.singleton_append, List.dropWhile_cons_of_neg white, escapes_cons, raw, List.singleton_append]

/-- What follows some character of a member's string opens no object, when another member follows. -/
theorem not_opens_member (s rest : List Char) {x : Char} (name : isWhite x = false) (not_colon : x ≠ ':') :
    opens_member (escapes s ++ '"' :: ',' :: '"' :: x :: rest) = false := by
  unfold opens_member
  obtain ⟨s, first⟩ := dropWhile_escapes s (',' :: '"' :: x :: rest)
  rw [first]
  rcases s with _ | ⟨c, s⟩
  · rfl
  rw [escapes_cons]
  rcases escape_cases c with ⟨t, escaped⟩ | ⟨raw, -, -⟩
  · rw [escaped]
    rfl
  rw [raw, List.singleton_append]
  split
  · rename_i text opened
    obtain ⟨-, rfl⟩ := List.cons.inj opened
    obtain ⟨s, second⟩ := dropWhile_escapes s (',' :: '"' :: x :: rest)
    rw [second]
    rcases s with _ | ⟨c, s⟩
    · have key : read_string (',' :: '"' :: x :: rest) = some ([','], x :: rest) := rfl
      have next : (x :: rest).dropWhile isWhite = x :: rest := List.dropWhile_cons_of_neg (by simp [name])
      simp [escapes, key, next, not_colon]
    · rw [escapes_cons]
      rcases escape_cases c with ⟨t, escaped⟩ | ⟨raw, not_quote, -⟩
      · rw [escaped]
        rfl
      · rw [raw, List.singleton_append]
        split
        · rename_i text quoted
          exact absurd (List.cons.inj quoted).1 not_quote
        · rfl
  · rfl

/-! ### Characters of a text -/

theorem hex_digit_range {n : Nat} (h : n < 16) : 32 ≤ (hex_digit n).toNat ∧ (hex_digit n).toNat < 127 := by
  interval_cases n <;> decide

theorem short_range {c letter : Char} (h : short c = some letter) : 32 ≤ letter.toNat ∧ letter.toNat < 127 := by
  unfold short at h
  split_ifs at h
  all_goals
    obtain rfl := Option.some.inj h
    decide

/-- Escapes are printable ASCII; every other character of a string stays itself, and is no control. -/
theorem mem_escape {c d : Char} (h : d ∈ escape c) : 32 ≤ d.toNat ∧ (d.toNat < 127 ∨ d = c) := by
  cases long : short c with
  | some letter =>
    have two : escape c = ['\\', letter] := by rw [escape, long]
    have range := short_range long
    rw [two] at h
    rcases List.mem_cons.mp h with rfl | h
    · exact ⟨by decide, .inl (by decide)⟩
    · obtain rfl := List.mem_singleton.mp h
      exact ⟨range.1, .inl range.2⟩
  | none =>
    by_cases control : c.toNat < 32
    · have high := hex_digit_range (n := c.toNat / 16) (by omega)
      have low := hex_digit_range (n := c.toNat % 16) (by omega)
      rw [escape_control control long] at h
      simp only [List.mem_cons, List.not_mem_nil, or_false] at h
      rcases h with rfl | rfl | rfl | rfl | rfl | rfl
      iterate 4 exact ⟨by decide, .inl (by decide)⟩
      · exact ⟨high.1, .inl high.2⟩
      · exact ⟨low.1, .inl low.2⟩
    · rw [escape_raw control long] at h
      obtain rfl := List.mem_singleton.mp h
      exact ⟨Nat.le_of_not_lt control, .inr rfl⟩

theorem escape_high {c : Char} (high : 127 ≤ c.toNat) : escape c = [c] := by
  cases long : short c with
  | some letter =>
    unfold short at long
    split_ifs at long
    all_goals
      subst c
      exact absurd high (by decide)
  | none => exact escape_raw (by omega) long

theorem mem_escapes {s : List Char} {d : Char} (h : d ∈ escapes s) : 32 ≤ d.toNat ∧ (d.toNat < 127 ∨ d ∈ s) := by
  obtain ⟨c, mem, here⟩ := List.mem_flatMap.mp h
  obtain ⟨visible, low | rfl⟩ := mem_escape here
  · exact ⟨visible, .inl low⟩
  · exact ⟨visible, .inr mem⟩

theorem mem_quote {s : List Char} {d : Char} (h : d ∈ quote s) : 32 ≤ d.toNat ∧ (d.toNat < 127 ∨ d ∈ s) := by
  simp only [quote, List.mem_cons, List.mem_append, List.not_mem_nil, or_false] at h
  rcases h with rfl | here | rfl
  · exact ⟨by decide, .inl (by decide)⟩
  · exact mem_escapes here
  · exact ⟨by decide, .inl (by decide)⟩

theorem mem_integer {n : Int} {d : Char} (h : d ∈ integer n) : 32 ≤ d.toNat ∧ d.toNat < 127 := by
  have digit : ∀ {n : Nat}, d ∈ Nat.toDigits 10 n → 32 ≤ d.toNat ∧ d.toNat < 127 := by
    intro n mem
    have digit := digit_of_mem mem
    simp only [Char.isDigit, Bool.and_eq_true, decide_eq_true_eq] at digit
    have low : 48 ≤ d.toNat := digit.1
    have high : d.toNat ≤ 57 := digit.2
    omega
  cases n with
  | ofNat n => exact digit h
  | negSucc n =>
    rcases List.mem_cons.mp h with rfl | mem
    · decide
    · exact digit mem

theorem mem_members {fields : List (List Char × List Char)} {d : Char} (h : d ∈ members fields) :
    32 ≤ d.toNat ∧ (d.toNat < 127 ∨ ∃ field ∈ fields, d ∈ field.1 ∨ d ∈ field.2) := by
  induction fields with
  | nil =>
    obtain rfl := List.mem_singleton.mp h
    exact ⟨by decide, .inl (by decide)⟩
  | cons field fields ih =>
    obtain ⟨name, value⟩ := field
    have here : d ∈ quote name ∨ d = ':' ∨ d ∈ quote value ∨ d = '}' ∨ d = ',' ∨ d ∈ members fields := by
      cases fields with
      | nil =>
        simp only [members, List.mem_append, List.mem_cons, List.not_mem_nil, or_false] at h
        tauto
      | cons next fields =>
        simp only [members, List.mem_append, List.mem_cons] at h ⊢
        tauto
    rcases here with here | rfl | here | rfl | rfl | here
    · obtain ⟨visible, low⟩ := mem_quote here
      exact ⟨visible, low.imp_right fun mem => ⟨_, List.mem_cons_self, .inl mem⟩⟩
    · exact ⟨by decide, .inl (by decide)⟩
    · obtain ⟨visible, low⟩ := mem_quote here
      exact ⟨visible, low.imp_right fun mem => ⟨_, List.mem_cons_self, .inr mem⟩⟩
    · exact ⟨by decide, .inl (by decide)⟩
    · exact ⟨by decide, .inl (by decide)⟩
    · obtain ⟨visible, low⟩ := ih here
      exact ⟨visible, low.imp_right fun ⟨field, mem, part⟩ => ⟨field, List.mem_cons_of_mem _ mem, part⟩⟩

theorem mem_object {fields : List (List Char × List Char)} {d : Char} (h : d ∈ object fields) :
    32 ≤ d.toNat ∧ (d.toNat < 127 ∨ ∃ field ∈ fields, d ∈ field.1 ∨ d ∈ field.2) := by
  rcases List.mem_cons.mp h with rfl | h
  · exact ⟨by decide, .inl (by decide)⟩
  · exact mem_members h

/-- A character above ASCII in a value is in the text. -/
theorem mem_object_of_value {fields : List (List Char × List Char)} {value : List Char} (mem : value ∈ fields.map (·.2))
    {d : Char} (h : d ∈ value) (high : 127 ≤ d.toNat) : d ∈ object fields := by
  have quoted : d ∈ quote value := by
    refine List.mem_cons_of_mem _ (List.mem_append_left _ (List.mem_flatMap.mpr ⟨d, h, ?_⟩))
    rw [escape_high high]
    exact List.mem_singleton_self d
  refine List.mem_cons_of_mem _ ?_
  induction fields with
  | nil => cases mem
  | cons field fields ih =>
    obtain ⟨name', value'⟩ := field
    rcases List.mem_cons.mp mem with rfl | mem
    · cases fields <;> simp [members, quoted]
    · have later := ih mem
      cases fields with
      | nil => cases mem
      | cons next fields => simp [members, later]

/-! ### Splitting a text at a character above ASCII -/

theorem split_append {α : Type} {a b front back : List α} {c : α} (h : a ++ b = front ++ c :: back) :
    (∃ rest, a = front ++ c :: rest ∧ back = rest ++ b) ∨ ∃ front', b = front' ++ c :: back := by
  rcases List.append_eq_append_iff.mp h with ⟨middle, rfl, split⟩ | ⟨middle, rfl, split⟩
  · exact .inr ⟨middle, split⟩
  · cases middle with
    | nil => exact .inr ⟨[], split.symm⟩
    | cons d middle =>
      obtain ⟨rfl, rfl⟩ := List.cons.inj split
      exact .inl ⟨middle, rfl, rfl⟩

theorem escapes_split {s front back : List Char} {c : Char} (high : 127 ≤ c.toNat)
    (h : escapes s = front ++ c :: back) : ∃ s', back = escapes s' := by
  induction s generalizing front with
  | nil => simp [escapes] at h
  | cons d s ih =>
    rw [← List.append_nil (escapes _), escapes_cons, List.append_nil] at h
    rcases split_append h with ⟨rest, here, rfl⟩ | ⟨front', later⟩
    · have mem : c ∈ escape d := by simp [here]
      obtain ⟨-, low | rfl⟩ := mem_escape mem
      · omega
      · rw [escape_high high] at here
        have length := congrArg List.length here
        simp only [List.length_append, List.length_cons, List.length_nil] at length
        obtain rfl : rest = [] := List.eq_nil_of_length_eq_zero (by omega)
        exact ⟨s, rfl⟩
    · exact ih later

/-- Names that can be told from what may follow a string. -/
def Plain (name : List Char) : Prop :=
  (∀ c ∈ name, c.toNat < 127) ∧ ∃ x rest, escapes name = x :: rest ∧ isWhite x = false ∧ x ≠ ':'

/-- What follows a character above ASCII opens no object, wherever the character is; the last member's value has
    none. -/
theorem members_fragment {fields : List (List Char × List Char)} {last : List Char × List Char}
    (plain : ∀ field ∈ fields ++ [last], Plain field.1) (low : ∀ c ∈ last.2, c.toNat < 127) {front back : List Char}
    {c : Char} (high : 127 ≤ c.toNat) (h : members (fields ++ [last]) = front ++ c :: back) : opens_member back = false := by
  induction fields generalizing front with
  | nil =>
    have mem : c ∈ members [last] := by
      rw [List.nil_append] at h
      simp [h]
    obtain ⟨-, small | ⟨field, mem, part⟩⟩ := mem_members mem
    · omega
    · obtain rfl := List.mem_singleton.mp mem
      rcases part with part | part
      · exact absurd ((plain field (by simp)).1 c part) (by omega)
      · exact absurd (low c part) (by omega)
  | cons field fields ih =>
    obtain ⟨name, value⟩ := field
    obtain ⟨next, later, more⟩ : ∃ next later, fields ++ [last] = next :: later := by
      cases fields with
      | nil => exact ⟨last, [], rfl⟩
      | cons next fields => exact ⟨next, fields ++ [last], rfl⟩
    have text : members ((name, value) :: fields ++ [last]) =
        (quote name ++ [':', '"']) ++ (escapes value ++ (['"', ','] ++ members (fields ++ [last]))) := by
      rw [List.cons_append, more]
      simp [members, quote]
    rw [text] at h
    rcases split_append h with ⟨rest, here, -⟩ | ⟨front, h⟩
    · exfalso
      have mem : c ∈ quote name ++ [':', '"'] := by simp [here]
      rcases List.mem_append.mp mem with mem | mem
      · obtain ⟨-, small | part⟩ := mem_quote mem
        · omega
        · exact absurd ((plain _ List.mem_cons_self).1 c part) (by omega)
      · simp only [List.mem_cons, List.not_mem_nil, or_false] at mem
        rcases mem with rfl | rfl <;> exact absurd high (by decide)
    rcases split_append h with ⟨rest, here, rfl⟩ | ⟨front, h⟩
    · obtain ⟨s, rfl⟩ := escapes_split high here
      obtain ⟨-, x, name', opened, white, not_colon⟩ := plain next (by rw [List.cons_append, more]; simp)
      have follows : ∃ rest, members (fields ++ [last]) = '"' :: x :: rest := by
        rw [more]
        cases later <;> simp [members, quote, opened]
      obtain ⟨rest, follows⟩ := follows
      rw [follows]
      exact not_opens_member s rest white not_colon
    rcases split_append h with ⟨rest, here, -⟩ | ⟨front, h⟩
    · exfalso
      have mem : c ∈ ['"', ','] := by simp [here]
      simp only [List.mem_cons, List.not_mem_nil, or_false] at mem
      rcases mem with rfl | rfl <;> exact absurd high (by decide)
    · exact ih (fun field mem => plain field (List.mem_cons_of_mem _ mem)) h

theorem object_fragment {fields : List (List Char × List Char)} {name value : List Char}
    (last : fields.getLast? = some (name, value)) (plain : ∀ name ∈ fields.map (·.1), Plain name)
    (low : ∀ c ∈ value, c.toNat < 127) {front back : List Char} {c : Char} (high : 127 ≤ c.toNat)
    (h : object fields = front ++ c :: back) : opens_member back = false := by
  obtain ⟨fields, rfl⟩ := List.getLast?_eq_some_iff.mp last
  have plain : ∀ field ∈ fields ++ [(name, value)], Plain field.1 := fun field mem => plain _ (List.mem_map_of_mem mem)
  rcases split_append (a := ['{']) h with ⟨rest, here, -⟩ | ⟨front, h⟩
  · have mem : c ∈ ['{'] := by simp [here]
    obtain rfl := List.mem_singleton.mp mem
    exact absurd high (by decide)
  · exact members_fragment plain low high h

end Json
