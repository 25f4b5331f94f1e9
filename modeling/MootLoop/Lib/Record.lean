import MootLoop.Lib.Json

/-! JSON objects whose values are flat: null, a string, an integer, an array of strings, or an object of strings. -/

namespace Json

/-- A flat value. -/
inductive Value where
  | null
  | string (s : List Char)
  | integer (n : Int)
  | strings (l : List (List Char))
  | entries (l : List (List Char × List Char))
  deriving DecidableEq, Repr

/-- Items separated by commas, up to a closing character. -/
def separated (close : Char) : List (List Char) → List Char
  | [] => [close]
  | [item] => item ++ [close]
  | item :: items => item ++ ',' :: separated close items

/-- A member of an object, with a string for its value. -/
def entry (e : List Char × List Char) : List Char := quote e.1 ++ ':' :: quote e.2

def Value.text : Value → List Char
  | .null => ['n', 'u', 'l', 'l']
  | .string s => quote s
  | .integer n => Json.integer n
  | .strings l => '[' :: separated ']' (l.map quote)
  | .entries l => '{' :: separated '}' (l.map entry)

/-- The strings in a value. -/
def Value.texts : Value → List (List Char)
  | .null | .integer _ => []
  | .string s => [s]
  | .strings l => l
  | .entries l => l.flatMap fun e => [e.1, e.2]

/-! ### Reading -/

def read_quote : List Char → Option (List Char × List Char)
  | '"' :: text => read_string text
  | _ => none

def read_entry (text : List Char) : Option ((List Char × List Char) × List Char) :=
  (read_quote text).bind fun name =>
    match name.2 with
    | ':' :: text => (read_quote text).map fun value => ((name.1, value.1), value.2)
    | _ => none

/-- Reads at most `fuel` items, up to the closing character. -/
def read_separated {α : Type} (read : List Char → Option (α × List Char)) (close : Char) :
    Nat → List Char → Option (List α × List Char)
  | 0, _ => none
  | fuel + 1, text =>
    (read text).bind fun item =>
      match item.2 with
      | [] => none
      | c :: rest =>
        if c = close then some ([item.1], rest)
        else if c = ',' then (read_separated read close fuel rest).map fun items => (item.1 :: items.1, items.2)
        else none

/-- The items between two brackets; the opening one is read. -/
def read_items {α : Type} (read : List Char → Option (α × List Char)) (close : Char) (text : List Char) :
    Option (List α × List Char) :=
  match text with
  | [] => none
  | c :: rest => if c = close then some ([], rest) else read_separated read close text.length text

def read_value (text : List Char) : Option (Value × List Char) :=
  match text with
  | '"' :: _ => (read_quote text).map fun read => (.string read.1, read.2)
  | '[' :: rest => (read_items read_quote ']' rest).map fun read => (.strings read.1, read.2)
  | '{' :: rest => (read_items read_entry '}' rest).map fun read => (.entries read.1, read.2)
  | 'n' :: rest => (after ['u', 'l', 'l'] rest).map fun rest => (.null, rest)
  | _ => (read_integer text).map fun read => (.integer read.1, read.2)

theorem read_quote_quote (s rest : List Char) : read_quote (quote s ++ rest) = some (s, rest) := by
  rw [quote, List.cons_append, List.append_assoc]
  exact read_string_escapes s rest

theorem read_entry_entry (e : List Char × List Char) (rest : List Char) : read_entry (entry e ++ rest) = some (e, rest) := by
  rw [entry, List.append_assoc, read_entry, read_quote_quote, Option.bind_some, List.cons_append]
  simp only [read_quote_quote, Option.map_some]

section
variable {α : Type} {read : List Char → Option (α × List Char)} {write : α → List Char} {close : Char}

/-- Items that read back one by one read back together. -/
theorem read_separated_separated
    (reads : ∀ a c rest, c = ',' ∨ c = close → read (write a ++ c :: rest) = some (a, c :: rest)) (not_comma : close ≠ ',')
    (items : List α) (some_item : items ≠ []) (rest : List Char) (fuel : Nat) (enough : items.length ≤ fuel) :
    read_separated read close fuel (separated close (items.map write) ++ rest) = some (items, rest) := by
  induction items generalizing fuel with
  | nil => exact absurd rfl some_item
  | cons item items ih =>
    obtain ⟨fuel, rfl⟩ : ∃ n, fuel = n + 1 := ⟨fuel - 1, by simp only [List.length_cons] at enough; omega⟩
    cases items with
    | nil =>
      simp only [List.map_cons, List.map_nil, separated, List.append_assoc, List.cons_append, List.nil_append]
      rw [read_separated, reads _ _ _ (.inr rfl), Option.bind_some]
      simp only [if_true]
    | cons next items =>
      have later := ih (by simp) fuel (by simp only [List.length_cons] at enough ⊢; omega)
      simp only [List.map_cons, separated, List.append_assoc, List.cons_append] at later ⊢
      rw [read_separated, reads _ _ _ (.inl rfl), Option.bind_some]
      simp only [later, not_comma.symm, if_false, if_true, Option.map_some]

theorem length_separated (items : List (List Char)) : items.length ≤ (separated close items).length := by
  induction items with
  | nil => simp
  | cons item items ih =>
    cases items with
    | nil => simp [separated]
    | cons next items =>
      simp only [separated, List.length_append, List.length_cons] at ih ⊢
      omega

theorem read_items_separated
    (reads : ∀ a c rest, c = ',' ∨ c = close → read (write a ++ c :: rest) = some (a, c :: rest)) (not_comma : close ≠ ',')
    (opens : ∀ a, ∃ c text, write a = c :: text ∧ c ≠ close) (items : List α) (rest : List Char) :
    read_items read close (separated close (items.map write) ++ rest) = some (items, rest) := by
  cases items with
  | nil => simp [separated, read_items]
  | cons item items =>
    have whole := read_separated_separated reads not_comma (item :: items) (by simp) rest
    obtain ⟨c, text, first, ne⟩ := opens item
    obtain ⟨more, shape⟩ : ∃ more, separated close ((item :: items).map write) ++ rest = c :: more := by
      cases items <;> simp [separated, first]
    have long : (item :: items).length ≤ (separated close ((item :: items).map write) ++ rest).length := by
      have := @length_separated close ((item :: items).map write)
      simp only [List.length_map, List.length_append] at this ⊢
      omega
    have reads_all := whole _ long
    rw [shape] at reads_all ⊢
    rw [read_items, if_neg ne]
    exact reads_all

end

/-- A value reads back before a character that is no digit. -/
theorem read_value_text (v : Value) {c : Char} {rest : List Char} (ends : c.isDigit = false) :
    read_value (v.text ++ c :: rest) = some (v, c :: rest) := by
  cases v with
  | null =>
    have := after_append ['u', 'l', 'l'] (c :: rest)
    simp only [List.cons_append, List.nil_append] at this
    simp only [Value.text, List.cons_append, List.nil_append, read_value, this, Option.map_some]
  | string s =>
    have := read_quote_quote s (c :: rest)
    simp only [Value.text, quote, List.cons_append] at this ⊢
    simp only [read_value, this, Option.map_some]
  | integer n =>
    have := @read_integer_integer n _ rest ends
    have opens : ∃ d text, Json.integer n ++ c :: rest = d :: text ∧ (d = '-' ∨ d.isDigit = true) := by
      cases n with
      | ofNat n =>
        cases split : Nat.toDigits 10 n with
        | nil => exact absurd split Nat.toDigits_ne_nil
        | cons d ds => exact ⟨d, _, by simp [Json.integer, split]; rfl, .inr (digit_of_mem (n := n) (by simp [split]))⟩
      | negSucc n => exact ⟨'-', _, rfl, .inl rfl⟩
    obtain ⟨d, text, shape, kind⟩ := opens
    simp only [Value.text]
    rw [shape] at this ⊢
    rw [read_value]
    · rw [this]; rfl
    all_goals
      intro _ same
      obtain ⟨rfl, -⟩ := List.cons.inj same
      revert kind
      decide
  | strings l =>
    have opens : ∀ s : List Char, ∃ c text, quote s = c :: text ∧ c ≠ ']' := fun s => ⟨'"', _, rfl, by decide⟩
    have := read_items_separated (fun s c rest _ => read_quote_quote s (c :: rest)) (by decide) opens l (c :: rest)
    simp only [Value.text, List.cons_append, read_value, this, Option.map_some]
  | entries l =>
    have opens : ∀ e : List Char × List Char, ∃ c text, entry e = c :: text ∧ c ≠ '}' := fun e => ⟨'"', _, rfl, by decide⟩
    have := read_items_separated (fun e c rest _ => read_entry_entry e (c :: rest)) (by decide) opens l (c :: rest)
    simp only [Value.text, List.cons_append, read_value, this, Option.map_some]

/-! ### Records -/

def member (field : List Char × Value) : List Char := quote field.1 ++ ':' :: field.2.text

/-- An object with flat values. -/
def record (fields : List (List Char × Value)) : List Char := '{' :: separated '}' (fields.map member)

def read_member (text : List Char) : Option ((List Char × Value) × List Char) :=
  (read_quote text).bind fun name =>
    match name.2 with
    | ':' :: text => (read_value text).map fun value => ((name.1, value.1), value.2)
    | _ => none

/-- The fields of an object that is the whole text. -/
def read_record (text : List Char) : Option (List (List Char × Value)) :=
  match text with
  | '{' :: rest => (read_items read_member '}' rest).bind fun read => if read.2 = [] then some read.1 else none
  | _ => none

theorem read_member_member (field : List Char × Value) {c : Char} {rest : List Char} (ends : c.isDigit = false) :
    read_member (member field ++ c :: rest) = some (field, c :: rest) := by
  rw [member, List.append_assoc, read_member, read_quote_quote, Option.bind_some, List.cons_append]
  simp only [read_value_text _ ends, Option.map_some]

/-- A record reads back. -/
theorem read_record_record (fields : List (List Char × Value)) : read_record (record fields) = some fields := by
  have opens : ∀ field : List Char × Value, ∃ c text, member field = c :: text ∧ c ≠ '}' :=
    fun field => ⟨'"', _, rfl, by decide⟩
  have reads := read_items_separated (fun field c rest ends => @read_member_member field c rest
    (by rcases ends with rfl | rfl <;> decide)) (by decide) opens fields []
  rw [List.append_nil] at reads
  simp only [record, read_record, reads, Option.bind_some, if_true]

/-! ### Characters -/

theorem mem_separated {close d : Char} {items : List (List Char)} (h : d ∈ separated close items) :
    d = close ∨ d = ',' ∨ ∃ item ∈ items, d ∈ item := by
  induction items with
  | nil => exact .inl (by simpa [separated] using h)
  | cons item items ih =>
    cases items with
    | nil =>
      rcases List.mem_append.mp h with here | last
      · exact .inr (.inr ⟨item, by simp, here⟩)
      · exact .inl (by simpa using last)
    | cons next items =>
      rcases List.mem_append.mp h with here | later
      · exact .inr (.inr ⟨item, by simp, here⟩)
      · rcases List.mem_cons.mp later with rfl | later
        · exact .inr (.inl rfl)
        · rcases ih later with close | comma | ⟨other, mem, here⟩
          · exact .inl close
          · exact .inr (.inl comma)
          · exact .inr (.inr ⟨other, List.mem_cons_of_mem _ mem, here⟩)

/-- Printable ASCII, or a character of a given string. -/
def Printable (d : Char) (texts : List (List Char)) : Prop := 32 ≤ d.toNat ∧ (d.toNat < 127 ∨ ∃ s ∈ texts, d ∈ s)

theorem Printable.mono {d : Char} {texts more : List (List Char)} (h : Printable d texts) (le : texts ⊆ more) :
    Printable d more := by
  obtain ⟨visible, low | ⟨s, mem, here⟩⟩ := h
  · exact ⟨visible, .inl low⟩
  · exact ⟨visible, .inr ⟨s, le mem, here⟩⟩

theorem printable_quote {s : List Char} {d : Char} (h : d ∈ quote s) : Printable d [s] := by
  obtain ⟨visible, low | here⟩ := mem_quote h
  · exact ⟨visible, .inl low⟩
  · exact ⟨visible, .inr ⟨s, by simp, here⟩⟩

theorem printable_value {v : Value} {d : Char} (h : d ∈ v.text) : Printable d v.texts := by
  have plain : ∀ c ∈ ['n', 'u', 'l', 'l', '[', ']', '{', '}', ',', ':'], ∀ texts, Printable c texts := by
    intro c mem texts
    refine ⟨?_, .inl ?_⟩ <;> revert c <;> decide
  cases v with
  | null => exact plain d (List.mem_append_left ['[', ']', '{', '}', ',', ':'] h) _
  | string s => exact printable_quote h
  | integer n =>
    obtain ⟨visible, low⟩ := mem_integer h
    exact ⟨visible, .inl low⟩
  | strings l =>
    rcases List.mem_cons.mp h with rfl | h
    · exact plain _ (by decide) _
    · rcases mem_separated h with rfl | rfl | ⟨item, mem, here⟩
      · exact plain _ (by decide) _
      · exact plain _ (by decide) _
      · obtain ⟨s, held, rfl⟩ := List.mem_map.mp mem
        exact (printable_quote here).mono (by simpa [Value.texts] using held)
  | entries l =>
    rcases List.mem_cons.mp h with rfl | h
    · exact plain _ (by decide) _
    · rcases mem_separated h with rfl | rfl | ⟨item, mem, here⟩
      · exact plain _ (by decide) _
      · exact plain _ (by decide) _
      · obtain ⟨e, held, rfl⟩ := List.mem_map.mp mem
        have in_texts : [e.1, e.2] ⊆ (Value.entries l).texts := fun s mem => List.mem_flatMap.mpr ⟨e, held, mem⟩
        rcases List.mem_append.mp here with name | value
        · exact (printable_quote name).mono fun s mem => in_texts (List.mem_cons.mpr (.inl (List.mem_singleton.mp mem)))
        · rcases List.mem_cons.mp value with rfl | value
          · exact plain _ (by decide) _
          · exact (printable_quote value).mono fun s mem => in_texts (List.mem_cons_of_mem _ mem)

/-- A record is one line of printable text, but for what is raw in its strings. -/
theorem printable_record {fields : List (List Char × Value)} {d : Char} (h : d ∈ record fields) :
    Printable d (fields.flatMap fun field => field.1 :: field.2.texts) := by
  have plain : ∀ c ∈ ['{', '}', ',', ':'], ∀ texts, Printable c texts := by
    intro c mem texts
    refine ⟨?_, .inl ?_⟩ <;> revert c <;> decide
  rcases List.mem_cons.mp h with rfl | h
  · exact plain _ (by decide) _
  · rcases mem_separated h with rfl | rfl | ⟨item, mem, here⟩
    · exact plain _ (by decide) _
    · exact plain _ (by decide) _
    · obtain ⟨field, held, rfl⟩ := List.mem_map.mp mem
      have in_texts : field.1 :: field.2.texts ⊆ fields.flatMap fun field => field.1 :: field.2.texts :=
        fun s mem => List.mem_flatMap.mpr ⟨field, held, mem⟩
      rcases List.mem_append.mp here with name | value
      · exact (printable_quote name).mono fun s mem => in_texts (List.mem_cons.mpr (.inl (List.mem_singleton.mp mem)))
      · rcases List.mem_cons.mp value with rfl | value
        · exact plain _ (by decide) _
        · exact (printable_value value).mono fun s mem => in_texts (List.mem_cons_of_mem _ mem)

end Json
