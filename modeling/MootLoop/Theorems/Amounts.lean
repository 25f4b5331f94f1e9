import Mathlib.Data.List.SplitBy
import MootLoop.Amounts
import MootLoop.Theorems.Runs

/-! What the fabrication gate says of dollar amounts. An amount that stands alone in a supporting part is never
    reported; one that does not is missed exactly when its characters occur in the parts joined without their
    white space. -/

namespace MootLoop.Amounts

variable {d : Digits}

/-! ### The pattern -/

/-- What the pattern takes for a number: digits and separators, with or without cents. -/
inductive IsNumber (d : Digits) : List Char → Prop
  | plain {c : Char} {whole : List Char} (first : d.decimal c = true) (rest : ∀ a ∈ whole, d.grouped a = true) :
      IsNumber d (c :: whole)
  | cents {c : Char} {whole cents : List Char} (first : d.decimal c = true)
      (rest : ∀ a ∈ whole, d.grouped a = true) (some_cents : cents ≠ []) (digits : ∀ a ∈ cents, d.decimal a = true) :
      IsNumber d (c :: whole ++ '.' :: cents)

theorem grouped_point : d.grouped '.' = false := by simp [Digits.grouped, d.not_point]

theorem point_not_mem {c : Char} {whole : List Char} (first : d.decimal c = true)
    (rest : ∀ a ∈ whole, d.grouped a = true) : '.' ∉ c :: whole := by
  intro mem
  rcases List.mem_cons.mp mem with rfl | mem
  · exact absurd first (by simp [d.not_point])
  · exact absurd (rest _ mem) (by simp [grouped_point])

/-- The characters of a number are neither white space nor a dollar sign. -/
theorem IsNumber.plain_char {number : List Char} (h : IsNumber d number) {a : Char} (mem : a ∈ number) :
    isSpace a = false ∧ a ≠ '$' := by
  have decimal : ∀ a, d.decimal a = true → isSpace a = false ∧ a ≠ '$' := fun a digit =>
    ⟨d.not_space a digit, by rintro rfl; exact absurd digit (by simp [d.not_dollar])⟩
  have grouped : ∀ a, d.grouped a = true → isSpace a = false ∧ a ≠ '$' := by
    intro a group
    rcases (Bool.or_eq_true _ _).mp group with digit | comma
    · exact decimal a digit
    · cases beq_iff_eq.mp comma
      decide
  cases h with
  | plain first rest =>
    rcases List.mem_cons.mp mem with rfl | mem
    · exact decimal _ first
    · exact grouped _ (rest _ mem)
  | cents first rest some_cents digits =>
    rcases List.mem_append.mp mem with mem | mem
    · rcases List.mem_cons.mp mem with rfl | mem
      · exact decimal _ first
      · exact grouped _ (rest _ mem)
    · rcases List.mem_cons.mp mem with rfl | mem
      · decide
      · exact decimal _ (digits _ mem)

theorem takeWhile_stop {α : Type} {p : α → Bool} {l after : List α} (all : ∀ a ∈ l, p a = true)
    (stop : ∀ a ∈ after.head?, p a = false) : (l ++ after).takeWhile p = l ∧ (l ++ after).dropWhile p = after := by
  rw [List.takeWhile_append_of_pos all, List.dropWhile_append_of_pos all]
  cases after with
  | nil => simp
  | cons a after =>
    have here : p a = false := stop a rfl
    simp [here]

/-- Every text is a run of a class and a rest that does not begin in it. -/
theorem exists_run {α : Type} (p : α → Bool) (l : List α) :
    ∃ run after, l = run ++ after ∧ (∀ a ∈ run, p a = true) ∧ ∀ a ∈ after.head?, p a = false := by
  induction l with
  | nil => exact ⟨[], [], rfl, by simp, by simp⟩
  | cons a l ih =>
    cases class_ : p a
    · exact ⟨[], a :: l, rfl, by simp, by simpa using class_⟩
    · obtain ⟨run, after, rfl, all, stop⟩ := ih
      exact ⟨a :: run, after, rfl, by simpa [class_] using all, stop⟩

theorem read_number_cons (c : Char) (more : List Char) : read_number d (c :: more) =
    if d.decimal c = true then some (c :: more.takeWhile d.grouped ++ read_cents d (more.dropWhile d.grouped)) else none :=
  rfl

theorem read_number_run {c : Char} {whole after : List Char} (first : d.decimal c = true)
    (rest : ∀ a ∈ whole, d.grouped a = true) (stop : ∀ a ∈ after.head?, d.grouped a = false) :
    read_number d (c :: whole ++ after) = some (c :: whole ++ read_cents d after) := by
  obtain ⟨run, left⟩ := takeWhile_stop rest stop
  rw [List.cons_append, read_number_cons, if_pos first, run, left]

theorem continues_plain {number : List Char} (pointless : '.' ∉ number) (c : Char) (more : List Char) :
    continues d number (c :: more) = (d.grouped c || (c == '.' && more.head?.any d.decimal)) :=
  if_neg pointless

theorem read_cents_point {cents after : List Char} (digits : ∀ a ∈ cents, d.decimal a = true)
    (stop : ∀ a ∈ after.head?, d.decimal a = false) :
    read_cents d ('.' :: (cents ++ after)) = if cents = [] then [] else '.' :: cents := by
  have run := (takeWhile_stop digits stop).1
  simp only [read_cents, run]

/-- The cents after a whole number: none and then nothing that continues it, or some and then no digit. -/
theorem read_cents_cases {c : Char} {whole after : List Char} (first : d.decimal c = true)
    (rest : ∀ a ∈ whole, d.grouped a = true) (stop : ∀ a ∈ after.head?, d.grouped a = false) :
    (read_cents d after = [] ∧ continues d (c :: whole) after = false) ∨
    ∃ cents left, after = '.' :: (cents ++ left) ∧ read_cents d after = '.' :: cents ∧ cents ≠ [] ∧
      (∀ a ∈ cents, d.decimal a = true) ∧ ∀ a ∈ left.head?, d.decimal a = false := by
  have pointless := point_not_mem first rest
  cases after with
  | nil => exact Or.inl ⟨rfl, rfl⟩
  | cons a more =>
    have ungrouped : d.grouped a = false := stop a rfl
    by_cases point : a = '.'
    · subst point
      obtain ⟨cents, left, rfl, digits, stop_cents⟩ := exists_run d.decimal more
      have reads := read_cents_point digits stop_cents
      by_cases none_ : cents = []
      · refine Or.inl ⟨by rw [reads, if_pos none_], ?_⟩
        subst none_
        rw [continues_plain pointless, grouped_point]
        cases left with
        | nil => rfl
        | cons b left => simpa using stop_cents b rfl
      · exact Or.inr ⟨cents, left, rfl, by rw [reads, if_neg none_], none_, digits, stop_cents⟩
    · refine Or.inl ⟨?_, ?_⟩
      · unfold read_cents
        split
        · next heads => exact absurd (List.cons.inj heads).1 point
        · rfl
      · rw [continues_plain pointless, ungrouped]
        simp [point]

theorem continues_cents {number : List Char} (pointed : '.' ∈ number) (after : List Char) :
    continues d number after = false ↔ ∀ a ∈ after.head?, d.decimal a = false := by
  cases after with
  | nil => simp [continues]
  | cons a after => simp [continues, pointed]

/-- The pattern reads a number where one stands and nothing continues it. -/
theorem read_number_iff {text number : List Char} : read_number d text = some number ↔
    ∃ after, text = number ++ after ∧ IsNumber d number ∧ continues d number after = false := by
  constructor
  · intro reads
    cases text with
    | nil => cases reads
    | cons c more =>
      by_cases first : d.decimal c = true
      · obtain ⟨whole, after, rfl, rest, stop⟩ := exists_run d.grouped more
        rw [← List.cons_append, read_number_run first rest stop, Option.some.injEq] at reads
        rcases read_cents_cases first rest stop with ⟨no_cents, alone⟩ | ⟨cents, left, rfl, some_, nonempty, digits, stop⟩
        · rw [no_cents, List.append_nil] at reads
          subst reads
          exact ⟨after, rfl, .plain first rest, alone⟩
        · rw [some_] at reads
          subst reads
          refine ⟨left, by simp, .cents first rest nonempty digits, ?_⟩
          exact (continues_cents (by simp) left).mpr stop
      · rw [read_number_cons, if_neg first] at reads
        cases reads
  · rintro ⟨after, rfl, isNumber, alone⟩
    cases isNumber with
    | @plain c whole first rest =>
      have pointless := point_not_mem first rest
      have stop : ∀ a ∈ after.head?, d.grouped a = false := by
        intro a head
        cases after with
        | nil => cases head
        | cons b after =>
          cases head
          rw [continues_plain pointless] at alone
          exact ((Bool.or_eq_false_iff).mp alone).1
      rw [read_number_run first rest stop]
      rcases read_cents_cases first rest stop with ⟨no_cents, -⟩ | ⟨cents, left, rfl, -, nonempty, digits, -⟩
      · rw [no_cents, List.append_nil]
      · rw [continues_plain pointless] at alone
        obtain ⟨first_cent, more, rfl⟩ := List.exists_cons_of_ne_nil nonempty
        simp [digits first_cent List.mem_cons_self] at alone
    | @cents c whole cents first rest nonempty digits =>
      have stop : ∀ a ∈ ('.' :: (cents ++ after)).head?, d.grouped a = false := by
        intro a head
        cases head
        exact grouped_point
      have stop_cents := (continues_cents (by simp) after).mp alone
      have reads := read_number_run first rest stop
      rw [read_cents_point digits stop_cents, if_neg nonempty] at reads
      rw [List.append_assoc]
      exact reads

/-- What may stand between the sign and the number. -/
def Gap (gap : List Char) : Prop := gap = [] ∨ ∃ c, isSpace c = true ∧ gap = [c]

theorem Gap.not_dollar {gap : List Char} (h : Gap gap) {a : Char} (mem : a ∈ gap) : a ≠ '$' := by
  rcases h with rfl | ⟨c, space, rfl⟩
  · cases mem
  · cases List.mem_singleton.mp mem
    rintro rfl
    exact absurd space (by decide)

theorem read_money_none {text : List Char} (other : text.head? ≠ some '$') : read_money d text = none := by
  unfold read_money
  split
  · next => exact absurd rfl other
  · rfl

theorem IsNumber.cons {number : List Char} (h : IsNumber d number) :
    ∃ c rest, number = c :: rest ∧ isSpace c = false := by
  cases h with
  | @plain c whole first rest => exact ⟨c, whole, rfl, d.not_space c first⟩
  | @cents c whole cents first => exact ⟨c, _, rfl, d.not_space c first⟩

/-- The pattern reads an amount where one stands and nothing continues it. -/
theorem read_money_iff {text found : List Char} : read_money d text = some found ↔
    ∃ gap number after, text = '$' :: gap ++ number ++ after ∧ found = '$' :: gap ++ number ∧ Gap gap ∧
      IsNumber d number ∧ continues d number after = false := by
  constructor
  · intro reads
    unfold read_money at reads
    split at reads
    · next c more =>
      split at reads
      · next space =>
        obtain ⟨number, read, rfl⟩ := Option.map_eq_some_iff.mp reads
        obtain ⟨after, rfl, isNumber, alone⟩ := read_number_iff.mp read
        exact ⟨[c], number, after, by simp, by simp, Or.inr ⟨c, space, rfl⟩, isNumber, alone⟩
      · next =>
        obtain ⟨number, read, rfl⟩ := Option.map_eq_some_iff.mp reads
        obtain ⟨after, same, isNumber, alone⟩ := read_number_iff.mp read
        exact ⟨[], number, after, by simp [same], by simp, Or.inl rfl, isNumber, alone⟩
    · cases reads
  · rintro ⟨gap, number, after, rfl, rfl, gapped, isNumber, alone⟩
    have reads : read_number d (number ++ after) = some number := read_number_iff.mpr ⟨after, rfl, isNumber, alone⟩
    rcases gapped with rfl | ⟨c, space, rfl⟩
    · obtain ⟨c, rest, rfl, solid⟩ := isNumber.cons
      have unfolded : read_money d ('$' :: c :: (rest ++ after)) =
          if isSpace c then (read_number d (rest ++ after)).map ('$' :: c :: ·)
          else (read_number d (c :: (rest ++ after))).map ('$' :: ·) := rfl
      rw [solid, if_neg Bool.false_ne_true] at unfolded
      exact unfolded.trans (by rw [← List.cons_append, reads]; rfl)
    · have unfolded : read_money d ('$' :: c :: (number ++ after)) =
          if isSpace c then (read_number d (number ++ after)).map ('$' :: c :: ·)
          else (read_number d (c :: (number ++ after))).map ('$' :: ·) := rfl
      rw [space, if_pos rfl, reads] at unfolded
      simpa using unfolded

theorem read_money_separate : Scan.Separate (read_money d) := by
  intro text found reads k inside short
  obtain ⟨gap, number, after, rfl, rfl, gapped, isNumber, -⟩ := read_money_iff.mp reads
  obtain ⟨k, rfl⟩ := Nat.exists_eq_succ_of_ne_zero (Nat.pos_iff_ne_zero.mp inside)
  have short : k < (gap ++ number).length := by simpa using short
  have head : (('$' :: gap ++ number ++ after).drop (k + 1)).head? = some (gap ++ number)[k] := by
    rw [List.cons_append, List.cons_append, List.drop_succ_cons, List.head?_drop, List.getElem?_append_left short,
      List.getElem?_eq_getElem short]
  refine read_money_none ?_
  rw [head]
  intro dollar
  rcases List.mem_append.mp (List.getElem_mem short) with mem | mem
  · exact gapped.not_dollar mem (Option.some.inj dollar)
  · exact (isNumber.plain_char mem).2 (Option.some.inj dollar)

/-! ### White space -/

/-- A text without its white space. -/
def solid (text : List Char) : List Char := text.filter (!isSpace ·)

theorem toList_no_space (text : String) : (no_space text).toList = solid text.toList := by
  simp [no_space, solid]

theorem solid_append (a b : List Char) : solid (a ++ b) = solid a ++ solid b := List.filter_append ..

theorem solid_spaces {text : List Char} (spaces : ∀ c ∈ text, isSpace c = true) : solid text = [] := by
  simpa [solid, List.filter_eq_nil_iff] using spaces

theorem IsNumber.solid {number : List Char} (h : IsNumber d number) : solid number = number :=
  List.filter_eq_self.mpr fun _ mem => by simp [(h.plain_char mem).1]

theorem Gap.solid {gap : List Char} (h : Gap gap) : solid gap = [] := by
  rcases h with rfl | ⟨c, space, rfl⟩
  · rfl
  · exact solid_spaces (by simpa using space)

theorem solid_amount {gap number : List Char} (gapped : Gap gap) (isNumber : IsNumber d number) :
    solid ('$' :: gap ++ number) = '$' :: number := by
  have sign : solid ['$'] = ['$'] := by decide
  calc solid ('$' :: gap ++ number) = solid ['$'] ++ solid gap ++ solid number := by
        rw [← solid_append, ← solid_append]
        rfl
    _ = '$' :: number := by rw [sign, gapped.solid, isNumber.solid]; rfl

theorem solid_flatten_intersperse (separator : List Char) (spaces : ∀ c ∈ separator, isSpace c = true)
    (parts : List (List Char)) : solid (parts.intersperse separator).flatten = parts.flatMap solid := by
  induction parts with
  | nil => rfl
  | cons part rest ih =>
    cases rest with
    | nil => simp [solid]
    | cons next rest =>
      rw [List.intersperse_cons_cons, List.flatten_cons, List.flatten_cons, solid_append, solid_append,
        solid_spaces spaces, ih]
      simp

theorem solid_norm_ws (text : String) : solid (norm_ws text).toList = solid text.toList := by
  have words (parts : List (List Char)) :
      (parts.filter fun word => !word.all isSpace).flatMap solid = solid parts.flatten := by
    induction parts with
    | nil => rfl
    | cons word rest ih =>
      rw [List.flatten_cons, solid_append, ← ih]
      cases blank : word.all isSpace
      · simp [blank]
      · simp [blank, solid_spaces (List.all_eq_true.mp blank)]
  unfold norm_ws
  rw [String.toList_ofList, solid_flatten_intersperse [' '] (by decide), words, List.flatten_splitBy]

theorem solid_intercalate (separator : String) (spaces : ∀ c ∈ separator.toList, isSpace c = true)
    (parts : List String) :
    solid (separator.intercalate parts).toList = parts.flatMap fun part => solid part.toList := by
  rw [String.toList_intercalate, List.intercalate, solid_flatten_intersperse _ spaces, List.flatMap_map]

/-! ### Amounts of a text -/

theorem mem_money_amounts {part amount : String} : amount ∈ money_amounts d part ↔
    ∃ before gap number after, part.toList = before ++ '$' :: gap ++ number ++ after ∧
      amount.toList = '$' :: gap ++ number ∧ Gap gap ∧ IsNumber d number ∧ continues d number after = false := by
  unfold money_amounts
  rw [List.mem_map]
  constructor
  · rintro ⟨found, mem, rfl⟩
    obtain ⟨rest, ⟨before, whole⟩, -, reads⟩ := (Scan.mem_findall read_money_separate).mp mem
    obtain ⟨gap, number, after, rfl, rfl, rest⟩ := read_money_iff.mp reads
    exact ⟨before, gap, number, after, by simp [← whole], by simp, rest⟩
  · rintro ⟨before, gap, number, after, whole, named, rest⟩
    refine ⟨amount.toList, (Scan.mem_findall read_money_separate).mpr
      ⟨'$' :: gap ++ number ++ after, ⟨before, by simp [whole]⟩, by simp, ?_⟩, String.ofList_toList⟩
    exact read_money_iff.mpr ⟨gap, number, after, rfl, named, rest⟩

theorem amount_number {part amount : String} (mem : amount ∈ money_amounts d part) :
    ∃ number, (no_space amount).toList = '$' :: number ∧ IsNumber d number := by
  obtain ⟨_, gap, number, _, _, named, gapped, isNumber, _⟩ := mem_money_amounts.mp mem
  exact ⟨number, by rw [toList_no_space, named, solid_amount gapped isNumber], isNumber⟩

/-- An amount is one of a part, up to white space, where it stands alone in it. -/
theorem stands_iff {source part amount : String} (mem : amount ∈ money_amounts d source) :
    StandsIn d amount part ↔ ∃ found ∈ money_amounts d part, no_space found = no_space amount := by
  constructor
  · rintro ⟨before, gap, number, after, whole, gapped, named, alone⟩
    obtain ⟨number', named', isNumber⟩ := amount_number mem
    cases List.cons.inj (named.symm.trans named') |>.2
    refine ⟨String.ofList ('$' :: gap ++ number), mem_money_amounts.mpr
      ⟨before, gap, number, after, whole, String.toList_ofList, gapped, isNumber, alone⟩, ?_⟩
    rw [← String.toList_inj, named, toList_no_space, String.toList_ofList, solid_amount gapped isNumber]
  · rintro ⟨found, found_mem, same⟩
    obtain ⟨before, gap, number, after, whole, named, gapped, isNumber, alone⟩ := mem_money_amounts.mp found_mem
    refine ⟨before, gap, number, after, whole, gapped, ?_, alone⟩
    rw [← same, toList_no_space, named, solid_amount gapped isNumber]

theorem infix_flatMap {α β : Type} {f : α → List β} {l : List α} {a : α} (mem : a ∈ l) : f a <:+: l.flatMap f := by
  obtain ⟨left, right, rfl⟩ := List.append_of_mem mem
  exact ⟨left.flatMap f, right.flatMap f, by simp⟩

/-- What stands alone in a part is contained in the parts. -/
theorem StandsIn.contained {source part amount : String} {parts : List String}
    (recognized : amount ∈ money_amounts d source) (mem : part ∈ parts) (h : StandsIn d amount part) :
    Contained parts amount := by
  obtain ⟨found, found_mem, same⟩ := (stands_iff recognized).mp h
  obtain ⟨before, gap, number, after, whole, named, gapped, isNumber, -⟩ := mem_money_amounts.mp found_mem
  have characters : (no_space amount).toList = solid ('$' :: gap ++ number) := by rw [← same, toList_no_space, named]
  have here : (no_space part).toList = solid before ++ solid ('$' :: gap ++ number) ++ solid after := by
    rw [toList_no_space, whole, ← solid_append, ← solid_append]
    simp
  unfold Contained
  rw [characters]
  have inside : solid ('$' :: gap ++ number) <:+: (no_space part).toList := ⟨solid before, solid after, here.symm⟩
  exact inside.trans (infix_flatMap (f := fun part => (no_space part).toList) mem)

/-! ### The gate -/

section
variable {x : Externals} {draft : DraftOutput} {facts : List Fact} {read_text : String → Option String}
  {docs : List CorpusDoc} {evidence : List DocumentEvidence}

theorem isIn_iff (part text : String) : isIn part text = true ↔ part.toList <:+: text.toList := by
  unfold isIn
  simp [List.infix_iff_prefix_suffix, and_comm]

/-- The text the gate searches is the parts, joined and without their white space. -/
theorem supported_parts (draft : DraftOutput) (facts : List Fact) (corpus : List String)
    (evidence : List DocumentEvidence) :
    (no_space (norm_ws (" ".intercalate (["\n".intercalate corpus] ++
      (evidence.filter (·.source_id ∈ draft.fact_ids_used)).map (·.text) ++
      (cited_facts draft facts).flatMap fun fact => fact.statement :: fact.quotes)))).toList =
    (supporting_parts draft facts corpus evidence).flatMap fun part => (no_space part).toList := by
  rw [toList_no_space, solid_norm_ws, solid_intercalate " " (by decide), List.append_assoc, List.singleton_append,
    List.flatMap_cons, solid_intercalate "\n" (by decide)]
  simp [supporting_parts, toList_no_space, List.flatMap_append]

theorem solid_dropWhile (text : List Char) : solid (text.dropWhile isSpace) = solid text := by
  induction text with
  | nil => rfl
  | cons c rest ih =>
    cases space : isSpace c
    · simp [space]
    · have dropped : solid (c :: rest) = solid rest := by simp [solid, space]
      rw [List.dropWhile_cons_of_pos space, ih, dropped]

theorem no_space_strip (text : String) : no_space (strip text) = no_space text := by
  have reverse (l : List Char) : solid l.reverse = (solid l).reverse := List.filter_reverse ..
  rw [← String.toList_inj, toList_no_space, toList_no_space, strip, String.toList_ofList, reverse, solid_dropWhile,
    reverse, List.reverse_reverse, solid_dropWhile]

theorem unsupported_amount_inj {locator locator' amount amount' : String}
    (same : unsupported_amount locator amount = unsupported_amount locator' amount') :
    no_space amount = no_space amount' := by
  have message := congrArg (fun finding => finding.message.toList) same
  have stripped : strip amount = strip amount' := by
    simpa [unsupported_amount, String.toList_inj, toString] using message
  rw [← no_space_strip, stripped, no_space_strip]

theorem span_findings (reads : ∀ text, x.findall .money text = money_amounts d text) {finding : GateFinding}
    (code : finding.code = "unsupported_amount") (supported : String) (entry : String × String) :
    finding ∈ unsupported_spans x supported entry ↔ ∃ amount ∈ money_amounts d entry.2,
      finding = unsupported_amount entry.1 amount ∧ ¬isIn (no_space amount) supported = true := by
  unfold unsupported_spans
  simp only [List.mem_append, List.mem_map, List.mem_filter, reads]
  constructor
  · rintro ((⟨amount, ⟨mem, untraced⟩, rfl⟩ | ⟨date, -, rfl⟩) | ⟨quote, -, rfl⟩)
    · exact ⟨amount, mem, rfl, by simpa using untraced⟩
    · exact absurd code (by simp)
    · exact absurd code (by simp)
  · rintro ⟨amount, mem, rfl, untraced⟩
    exact Or.inl (Or.inl ⟨amount, ⟨mem, by simpa using untraced⟩, rfl⟩)

/-- The amounts the gate reports: those not contained in the parts. -/
theorem reported_iff (reads : ∀ text, x.findall .money text = money_amounts d text) {finding : GateFinding}
    (code : finding.code = "unsupported_amount") :
    finding ∈ (fabrication_check x draft facts (build_corpus_text read_text docs) evidence).findings ↔
      ∃ entry ∈ served_text draft, ∃ amount ∈ money_amounts d entry.2, finding = unsupported_amount entry.1 amount ∧
        ¬Contained (supporting_parts draft facts (corpus_parts read_text docs) evidence) amount := by
  have shown : finding ∈ (fabrication_check x draft facts (build_corpus_text read_text docs) evidence).findings ↔
      finding ∈ fabrication_findings x draft facts (build_corpus_text read_text docs) evidence := by
    unfold fabrication_check
    dsimp only
    split
    · rfl
    · next none_ =>
      rw [not_not.mp none_]
      split
      · refine ⟨fun mem => ?_, fun mem => absurd mem List.not_mem_nil⟩
        rw [List.mem_singleton.mp mem] at code
        exact absurd code (by decide)
      · rfl
  have contained (amount : String) : isIn (no_space amount) (no_space (norm_ws (" ".intercalate
      ([build_corpus_text read_text docs] ++ (evidence.filter (·.source_id ∈ draft.fact_ids_used)).map (·.text) ++
        (cited_facts draft facts).flatMap fun fact => fact.statement :: fact.quotes)))) = true ↔
      Contained (supporting_parts draft facts (corpus_parts read_text docs) evidence) amount := by
    rw [isIn_iff, build_corpus_text, supported_parts, Contained]
  rw [shown]
  unfold fabrication_findings
  rw [List.mem_append, List.mem_append]
  constructor
  · rintro ((unknown | ungrounded) | served)
    · obtain ⟨fid, -, rfl⟩ := List.mem_map.mp unknown
      exact absurd code (by simp)
    · split at ungrounded
      · rw [List.mem_singleton.mp ungrounded] at code
        exact absurd code (by decide)
      · cases ungrounded
    · obtain ⟨entry, mem, spans⟩ := List.mem_flatMap.mp served
      obtain ⟨amount, recognized, rfl, untraced⟩ := (span_findings reads code _ entry).mp spans
      exact ⟨entry, mem, amount, recognized, rfl, fun held => untraced ((contained amount).mpr held)⟩
  · rintro ⟨entry, mem, amount, recognized, rfl, untraced⟩
    refine Or.inr (List.mem_flatMap.mpr ⟨entry, mem, (span_findings reads code _ entry).mpr
      ⟨amount, recognized, rfl, fun held => untraced ((contained amount).mp held)⟩⟩)

/-- The gate is exact on amounts just where every served amount whose characters the joined parts contain
    stands alone in one of them. -/
theorem exact_amounts_iff (reads : ∀ text, x.findall .money text = money_amounts d text) :
    Exact d x draft facts read_text docs evidence ↔
      ∀ entry ∈ served_text draft, ∀ amount ∈ money_amounts d entry.2,
        Contained (supporting_parts draft facts (corpus_parts read_text docs) evidence) amount →
        ∃ part ∈ supporting_parts draft facts (corpus_parts read_text docs) evidence, StandsIn d amount part := by
  constructor
  · intro exact_ entry mem amount recognized contained
    by_contra alone
    have nowhere_whole : ¬Whole d (supporting_parts draft facts (corpus_parts read_text docs) evidence) amount := by
      rintro ⟨part, part_mem, whole⟩
      exact alone ⟨part, part_mem, (stands_iff recognized).mpr whole⟩
    have reported := (exact_ (unsupported_amount entry.1 amount) rfl).mpr
      ⟨entry, mem, amount, recognized, rfl, nowhere_whole⟩
    obtain ⟨entry', -, amount', -, same, untraced⟩ := (reported_iff reads rfl).mp reported
    refine untraced ?_
    unfold Contained at contained ⊢
    rwa [← unsupported_amount_inj same]
  · intro stand finding code
    rw [reported_iff reads code]
    refine exists_congr fun entry => and_congr_right fun mem => exists_congr fun amount =>
      and_congr_right fun recognized => and_congr_right fun _ => not_congr ⟨fun contained => ?_, fun whole => ?_⟩
    · obtain ⟨part, part_mem, stands⟩ := stand entry mem amount recognized contained
      exact ⟨part, part_mem, (stands_iff recognized).mp stands⟩
    · obtain ⟨part, part_mem, found⟩ := whole
      exact StandsIn.contained recognized part_mem ((stands_iff recognized).mpr found)

end

/-! ### A price in a fact -/

namespace Sample
open MootLoop.Sample

/-- The digits of ASCII. -/
def ascii : Digits where
  decimal := Char.isDigit
  ascii _ digit := digit
  not_space c digit := by
    simp only [Char.isDigit, ge_iff_le, Bool.and_eq_true, decide_eq_true_eq, UInt32.le_iff_toNat_le] at digit
    have low : 48 ≤ c.toNat := digit.1
    have high : c.toNat ≤ 57 := digit.2
    simp only [isSpace, Bool.or_eq_false_iff, Bool.and_eq_false_iff, decide_eq_false_iff_not, beq_eq_false_iff_ne]
    omega
  not_dollar := by decide
  not_comma := by decide
  not_point := by decide

def patterns : Externals :=
  { externals with findall := fun pattern text => if pattern = .money then money_amounts ascii text else [] }

/-- A fact with a price of a million dollars. -/
def price : Fact where
  fact_id := "fact-1"
  statement := "The price was $1,000,000."

def citing_price (response_text : String) : DraftOutput := { draft with response_text, fact_ids_used := ["fact-1"] }

theorem price_facts :
    served_text (citing_price "We paid $ 1,000,000.") = [("response_text", "We paid $ 1,000,000.")] ∧
    money_amounts ascii "We paid $ 1,000,000." = ["$ 1,000,000"] ∧
    price.statement ∈ supporting_parts (citing_price "We paid $ 1,000,000.") [price] [] [] ∧
    (∃ found ∈ money_amounts ascii price.statement, no_space found = no_space "$ 1,000,000") ∧
    (fabrication_check patterns (citing_price "We paid $1,000.") [price] (build_corpus_text (fun _ => none) []) []).findings =
      [] ∧
    "$1,000" ∈ money_amounts ascii "We paid $1,000." ∧
    ¬Whole ascii (supporting_parts (citing_price "We paid $1,000.") [price] (corpus_parts (fun _ => none) []) [])
      "$1,000" := by
  decide +kernel

/-- The price itself is exactly traced. -/
theorem price_exact : Exact ascii patterns (citing_price "We paid $ 1,000,000.") [price] (fun _ => none) [] [] := by
  refine (exact_amounts_iff fun _ => rfl).mpr ?_
  obtain ⟨served, amounts, part, whole, -⟩ := price_facts
  intro entry mem amount recognized _
  rw [served, List.mem_singleton] at mem
  subst mem
  have only : amount = "$ 1,000,000" := by simpa [amounts] using recognized
  subst only
  exact ⟨price.statement, part, (stands_iff recognized).mpr whole⟩

/-- A thousand dollars are traced to a million. -/
theorem thousand_traced_to_million :
    ¬∀ (draft : DraftOutput) (facts : List Fact) (read_text : String → Option String) (docs : List CorpusDoc)
      (evidence : List DocumentEvidence), Exact ascii patterns draft facts read_text docs evidence := by
  intro exact_
  obtain ⟨-, -, -, -, silent, recognized, unstated⟩ := price_facts
  have reported := (exact_ (citing_price "We paid $1,000.") [price] (fun _ => none) [] []
    (unsupported_amount "response_text" "$1,000") rfl).mpr
      ⟨("response_text", "We paid $1,000."), List.mem_cons_self, "$1,000", recognized, rfl, unstated⟩
  rw [silent] at reported
  cases reported

end Sample

end MootLoop.Amounts
