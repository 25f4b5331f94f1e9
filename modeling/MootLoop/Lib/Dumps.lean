import MootLoop.Lib.LoadsGrammar

/-! JSON texts in ASCII, as Python's `json.dumps` writes them without spaces: every other character as its code units. -/

namespace Json

/-! ### Strings -/

/-- The code units of a character: one, or a pair of surrogates. -/
def units (c : Char) : List Nat :=
  if c.toNat < 0x10000 then [c.toNat]
  else [0xD800 + (c.toNat - 0x10000) / 0x400, 0xDC00 + (c.toNat - 0x10000) % 0x400]

def unicode_escape (unit : Nat) : List Char :=
  ['\\', 'u', hex_digit (unit / 4096), hex_digit (unit / 256 % 16), hex_digit (unit / 16 % 16), hex_digit (unit % 16)]

/-- A character of a string in ASCII. -/
def escape_ascii (c : Char) : List Char :=
  match short c with
  | some letter => ['\\', letter]
  | none => if 32 ≤ c.toNat ∧ c.toNat < 127 then [c] else (units c).flatMap unicode_escape

def quote_ascii (s : List Char) : List Char := '"' :: (s.flatMap escape_ascii ++ ['"'])

/-! ### Objects -/

/-- The members of an object up to its closing brace. The values are written already. -/
def dump_members : Bool → List (List Char × List Char) → List Char
  | _, [] => ['\x7d']
  | first, (name, value) :: fields =>
    (if first then [] else [',']) ++ (quote_ascii name ++ ':' :: (value ++ dump_members false fields))

def dump_object (fields : List (List Char × List Char)) : List Char := '\x7b' :: dump_members true fields

/-! ### Read back -/

theorem hex_digit_read : ∀ n < 16, hex_digit? (hex_digit n) = some n := by decide

theorem unit_escape {unit : Nat} (small : unit < 0x10000) :
    unit? (hex_digit (unit / 4096)) (hex_digit (unit / 256 % 16)) (hex_digit (unit / 16 % 16)) (hex_digit (unit % 16)) =
      some unit := by
  have first : unit / 4096 < 16 := by omega
  have second : unit / 256 % 16 < 16 := Nat.mod_lt _ (by decide)
  have third : unit / 16 % 16 < 16 := Nat.mod_lt _ (by decide)
  have fourth : unit % 16 < 16 := Nat.mod_lt _ (by decide)
  rw [unit?, hex_digit_read _ first, hex_digit_read _ second, hex_digit_read _ third, hex_digit_read _ fourth]
  simp only [bind, Option.bind_some, pure, Option.some.injEq]
  omega

theorem units_small (c : Char) : ∀ unit ∈ units c, unit < 0x10000 := by
  have bound : c.toNat < 0xD800 ∨ 0xDFFF < c.toNat ∧ c.toNat < 0x110000 := c.valid
  intro unit mem
  rw [units] at mem
  split at mem
  · rw [List.mem_singleton.mp mem]
    assumption
  · simp only [List.mem_cons, List.not_mem_nil, or_false] at mem
    rcases mem with first | second <;> omega

theorem spelled_units {codes : List Nat} (small : ∀ unit ∈ codes, unit < 0x10000) {s : List Nat} {t : List Char}
    (rest : Spelled s t) : Spelled (codes ++ s) (codes.flatMap unicode_escape ++ t) := by
  induction codes with
  | nil => exact rest
  | cons unit codes ih =>
    rw [List.flatMap_cons, List.append_assoc]
    exact .hex (unit_escape (small unit List.mem_cons_self)) (ih fun u mem => small u (List.mem_cons_of_mem _ mem))

theorem units_of_short {c letter : Char} (long : short c = some letter) : escaped? letter = some c.toNat ∧ c.toNat < 127 := by
  unfold short at long
  split_ifs at long
  all_goals
    subst c
    cases long
    exact ⟨rfl, by decide⟩

theorem spelled_escape_ascii {c : Char} {s : List Nat} {t : List Char} (rest : Spelled s t) :
    Spelled (units c ++ s) (escape_ascii c ++ t) := by
  rw [escape_ascii]
  cases long : short c with
  | some letter =>
    obtain ⟨escape, low⟩ := units_of_short long
    rw [units, if_pos (by omega)]
    exact .letter escape rest
  | none =>
    obtain ⟨not_quote, not_backslash⟩ := short_none long
    by_cases shown : 32 ≤ c.toNat ∧ c.toNat < 127
    · simp only [if_pos shown]
      rw [units, if_pos (by omega)]
      exact .raw shown.1 not_quote not_backslash rest
    · simp only [if_neg shown]
      exact spelled_units (units_small c) rest

theorem join_surrogates_pair {high low : Nat} (is_high : isHighSurrogate high = true)
    (is_low : isLowSurrogate low = true) (rest : List Nat) :
    join_surrogates (high :: low :: rest) =
      (0x10000 + (high - 0xD800) * 0x400 + (low - 0xDC00)) :: join_surrogates rest := by
  rw [join_surrogates, is_high, is_low, Bool.and_self, if_pos rfl]

theorem join_surrogates_units (text : List Char) : join_surrogates (text.flatMap units) = text.map Char.toNat := by
  induction text with
  | nil => rfl
  | cons c text ih =>
    have bound : c.toNat < 0xD800 ∨ 0xDFFF < c.toNat ∧ c.toNat < 0x110000 := c.valid
    rw [List.flatMap_cons, List.map_cons, units]
    split
    · have not_high : isHighSurrogate c.toNat = false := (char_no_surrogate c).1
      cases tail : text.flatMap units with
      | nil =>
        rw [tail] at ih
        rw [← ih]
        rfl
      | cons low rest =>
        rw [tail] at ih
        rw [List.singleton_append, join_surrogates, not_high, Bool.false_and, if_neg Bool.false_ne_true, ih]
    · rename_i large
      have high : isHighSurrogate (0xD800 + (c.toNat - 0x10000) / 0x400) = true := by
        simp only [isHighSurrogate, Bool.and_eq_true, decide_eq_true_eq]
        omega
      have low : isLowSurrogate (0xDC00 + (c.toNat - 0x10000) % 0x400) = true := by
        simp only [isLowSurrogate, Bool.and_eq_true, decide_eq_true_eq]
        omega
      have joined : 0x10000 + (0xD800 + (c.toNat - 0x10000) / 0x400 - 0xD800) * 0x400 +
          (0xDC00 + (c.toNat - 0x10000) % 0x400 - 0xDC00) = c.toNat := by
        omega
      rw [List.cons_append, List.cons_append, List.nil_append, join_surrogates_pair high low, ih, joined]

/-- A string written in ASCII is a string of its characters. -/
theorem quoted_quote_ascii (text : List Char) : Quoted (text.map Char.toNat) (quote_ascii text) := by
  have spelled : Spelled (text.flatMap units) (text.flatMap escape_ascii) := by
    induction text with
    | nil => exact .nil
    | cons c text ih => exact spelled_escape_ascii ih
  exact ⟨_, _, spelled, (join_surrogates_units text).symm, rfl⟩

section
variable {φ : Type} {parse_float : List Char → φ}

theorem written_dump_members {members : List (List Nat × Doc φ)} {fields : List (List Char × List Char)}
    (each : List.Forall₂ (fun member field => member.1 = field.1.map Char.toNat ∧ Written parse_float member.2 field.2)
      members fields) (first : Bool) : WrittenMembers parse_float first members (dump_members first fields) := by
  have blank : Blank [] := fun _ mem => absurd mem List.not_mem_nil
  induction each generalizing first with
  | nil => exact ⟨[], blank, rfl⟩
  | @cons member field members fields same _ ih =>
    obtain ⟨key, value⟩ := member
    obtain ⟨name, text⟩ := field
    obtain ⟨rfl, written⟩ := same
    refine ⟨[], [], quote_ascii name, [], [], text, _, blank, blank, blank, blank, quoted_quote_ascii name, written,
      ih false, ?_⟩
    cases first <;> rfl

/-- An object written from the texts of its members, all with their own names. -/
theorem written_dump_object {members : List (List Nat × Doc φ)} {fields : List (List Char × List Char)}
    (each : List.Forall₂ (fun member field => member.1 = field.1.map Char.toNat ∧ Written parse_float member.2 field.2)
      members fields) (distinct : (members.map Prod.fst).Nodup) :
    Written parse_float (.object members) (dump_object fields) :=
  ⟨distinct, _, written_dump_members each true, rfl⟩

end

/-! ### ASCII -/

/-- An ASCII character other than NUL. -/
def Ascii (c : Char) : Prop := 0 < c.toNat ∧ c.toNat < 128

instance (c : Char) : Decidable (Ascii c) := instDecidableAnd

theorem Ascii.of_range {c : Char} (range : 32 ≤ c.toNat ∧ c.toNat < 127) : Ascii c := ⟨by omega, by omega⟩

theorem ascii_of_unicode {unit : Nat} (small : unit < 0x10000) : ∀ c ∈ unicode_escape unit, Ascii c := by
  have digit (n : Nat) (h : n < 16) : Ascii (hex_digit n) := .of_range (hex_digit_range h)
  have first : unit / 4096 < 16 := by omega
  simp only [unicode_escape, List.forall_mem_cons]
  exact ⟨by decide, by decide, digit _ first, digit _ (Nat.mod_lt _ (by decide)), digit _ (Nat.mod_lt _ (by decide)),
    digit _ (Nat.mod_lt _ (by decide)), fun _ mem => absurd mem List.not_mem_nil⟩

theorem ascii_of_escape (c : Char) : ∀ d ∈ escape_ascii c, Ascii d := by
  rw [escape_ascii]
  cases long : short c with
  | some letter =>
    intro d mem
    rcases List.mem_cons.mp mem with rfl | mem
    · decide
    · rw [List.mem_singleton.mp mem]
      exact .of_range (short_range long)
  | none =>
    simp only
    split
    · rename_i shown
      intro d mem
      rw [List.mem_singleton.mp mem]
      exact .of_range shown
    · intro d mem
      obtain ⟨unit, in_units, mem⟩ := List.mem_flatMap.mp mem
      exact ascii_of_unicode (units_small c unit in_units) d mem

theorem ascii_of_quote (text : List Char) : ∀ c ∈ quote_ascii text, Ascii c := by
  intro c mem
  rcases List.mem_cons.mp mem with rfl | mem
  · decide
  rcases List.mem_append.mp mem with mem | mem
  · obtain ⟨d, -, mem⟩ := List.mem_flatMap.mp mem
    exact ascii_of_escape d c mem
  · rw [List.mem_singleton.mp mem]
    decide

theorem ascii_of_members {fields : List (List Char × List Char)}
    (values : ∀ field ∈ fields, ∀ c ∈ field.2, Ascii c) (first : Bool) :
    ∀ c ∈ dump_members first fields, Ascii c := by
  induction fields generalizing first with
  | nil =>
    intro c mem
    rw [List.mem_singleton.mp mem]
    decide
  | cons field fields ih =>
    intro c mem
    have later := ih (fun f in_fields => values f (List.mem_cons_of_mem _ in_fields)) false c
    rcases List.mem_append.mp mem with mem | mem
    · cases first with
      | true => exact absurd mem List.not_mem_nil
      | false =>
        rw [List.mem_singleton.mp mem]
        decide
    rcases List.mem_append.mp mem with mem | mem
    · exact ascii_of_quote _ c mem
    rcases List.mem_cons.mp mem with rfl | mem
    · decide
    rcases List.mem_append.mp mem with mem | mem
    · exact values field List.mem_cons_self c mem
    · exact later mem

/-- An object is written in ASCII if its values are. -/
theorem ascii_of_object {fields : List (List Char × List Char)}
    (values : ∀ field ∈ fields, ∀ c ∈ field.2, Ascii c) : ∀ c ∈ dump_object fields, Ascii c := by
  intro c mem
  rcases List.mem_cons.mp mem with rfl | mem
  · decide
  · exact ascii_of_members values true c mem

end Json
