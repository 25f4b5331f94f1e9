import MootLoop.Lib.Trailing

/-! Texts up to their white space: runs of it made one blank and the ends stripped, what that keeps of a text, and when
    two selections of one list of characters come to the same. -/

namespace Spacing

variable {α : Type}

section
variable (space : α → Bool)

/-- Each run of white space made one blank. The flag says whether the text follows white space. -/
def collapse (blank : α) : Bool → List α → List α
  | _, [] => []
  | inside, c :: text =>
    if space c then
      (if inside then collapse blank true text else blank :: collapse blank true text)
    else c :: collapse blank false text

def trim (text : List α) : List α := (text.dropWhile space).rdropWhile space

def normalize (blank : α) (text : List α) : List α := trim space (collapse space blank false text)

/-- The characters that are no white space, each with whether white space stands before it. -/
def gapped : Bool → List α → List (α × Bool)
  | _, [] => []
  | gap, c :: text => if space c then gapped true text else (c, gap) :: gapped false text

/-- The same from the first such character on, which counts as having none before it. -/
def parted : List α → List (α × Bool)
  | [] => []
  | c :: text => if space c then parted text else (c, false) :: gapped space false text

/-- Whether a text that follows white space or not ends in it. -/
def gap_after (gap : Bool) (text : List α) : Bool := (text.getLast?.map space).getD gap

end

/-- What the characters and their gaps are written as. -/
def spaced (blank : α) (parts : List (α × Bool)) : List α :=
  parts.flatMap fun part => bif part.2 then [blank, part.1] else [part.1]

variable {space : α → Bool} {blank : α}

/-! ### Gaps -/

theorem gap_after_cons (gap : Bool) (c : α) (text : List α) :
    gap_after space gap (c :: text) = gap_after space (space c) text := by
  rcases List.eq_nil_or_concat text with rfl | ⟨front, last, rfl⟩
  · rfl
  · rw [gap_after, gap_after, List.concat_eq_append, ← List.cons_append, List.getLast?_concat, List.getLast?_concat]
    rfl

theorem gapped_append (gap : Bool) (text more : List α) :
    gapped space gap (text ++ more) = gapped space gap text ++ gapped space (gap_after space gap text) more := by
  induction text generalizing gap with
  | nil => rfl
  | cons c text ih =>
    rw [List.cons_append, gap_after_cons, gapped, gapped]
    cases here : space c with
    | true => exact ih true
    | false =>
      rw [if_neg Bool.false_ne_true, if_neg Bool.false_ne_true, ih false]
      rfl

theorem gapped_spaces {text : List α} (spaces : ∀ c ∈ text, space c = true) (gap : Bool) : gapped space gap text = [] := by
  induction text generalizing gap with
  | nil => rfl
  | cons c text ih =>
    rw [gapped, if_pos (spaces c List.mem_cons_self)]
    exact ih (fun d mem => spaces d (List.mem_cons_of_mem c mem)) true

theorem solid_of_gapped {gap : Bool} {text : List α} : ∀ part ∈ gapped space gap text, space part.1 = false := by
  induction text generalizing gap with
  | nil => exact fun part mem => absurd mem List.not_mem_nil
  | cons c text ih =>
    rw [gapped]
    split
    · exact ih
    · rename_i solid
      exact List.forall_mem_cons.mpr ⟨Bool.eq_false_iff.mpr solid, ih⟩

theorem parted_eq (text : List α) : parted space text = gapped space false (text.dropWhile space) := by
  induction text with
  | nil => rfl
  | cons c text ih =>
    rw [parted, List.dropWhile_cons]
    split
    · exact ih
    · rename_i solid
      rw [gapped, if_neg solid]

/-- The first character counts as having no white space before it. -/
def led : List (α × Bool) → List (α × Bool)
  | [] => []
  | part :: parts => (part.1, false) :: parts

theorem parted_of_gapped (gap : Bool) (text : List α) : parted space text = led (gapped space gap text) := by
  induction text generalizing gap with
  | nil => rfl
  | cons c text ih =>
    rw [parted, gapped]
    split
    · exact ih true
    · rfl

/-- Two texts with the same gaps are the same up to what stands before their first characters. -/
theorem parted_congr {text text' : List α} {gap : Bool} (same : gapped space gap text = gapped space gap text') :
    parted space text = parted space text' := by
  rw [parted_of_gapped gap, parted_of_gapped gap, same]

theorem gapped_trim (text : List α) : gapped space false (trim space text) = parted space text := by
  obtain ⟨tail, spaces, split⟩ := Trailing.split_trailing space (text.dropWhile space)
  rw [parted_eq, trim, split, gapped_append, ← split, gapped_spaces spaces, List.append_nil]

theorem gap_after_trim (text : List α) : gap_after space false (trim space text) = false := by
  rw [gap_after, trim]
  rcases List.eq_nil_or_concat ((text.dropWhile space).rdropWhile space) with none_left | ⟨front, last, ends⟩
  · rw [none_left]
    rfl
  · have solid := List.rdropWhile_last_not space (text.dropWhile space) (by rw [ends]; simp)
    simp only [ends, List.concat_eq_append, List.getLast_append_singleton] at solid
    simpa [ends] using solid

/-! ### The normal form -/

theorem dropWhile_collapse (is_space : space blank = true) (inside : Bool) (text : List α) :
    (collapse space blank inside text).dropWhile space = collapse space blank false (text.dropWhile space) := by
  induction text generalizing inside with
  | nil => rfl
  | cons c text ih =>
    rw [collapse, List.dropWhile_cons]
    cases here : space c with
    | true =>
      cases inside with
      | true => exact ih true
      | false =>
        rw [if_pos rfl, if_neg Bool.false_ne_true, List.dropWhile_cons, if_pos is_space, if_pos rfl]
        exact ih true
    | false =>
      rw [if_neg Bool.false_ne_true, if_neg Bool.false_ne_true, List.dropWhile_cons, if_neg (by simp [here]), collapse,
        if_neg (by simp [here])]

/-- What is collapsed is the characters with their gaps, and a blank where the text ends in white space. -/
theorem collapse_eq (gap : Bool) (text : List α) :
    (bif gap then [blank] else []) ++ collapse space blank gap text =
      spaced blank (gapped space gap text) ++ bif gap_after space gap text then [blank] else [] := by
  induction text generalizing gap with
  | nil => simp [collapse, gapped, spaced, gap_after]
  | cons c text ih =>
    rw [gap_after_cons, collapse, gapped]
    cases here : space c with
    | true =>
      have later := ih true
      rw [cond_true] at later
      cases gap with
      | true => exact later
      | false => exact later
    | false =>
      have later := ih false
      rw [cond_false, List.nil_append] at later
      rw [if_neg Bool.false_ne_true, if_neg Bool.false_ne_true, later]
      cases gap <;> rfl

theorem rdropWhile_spaced {parts : List (α × Bool)} (solid : ∀ part ∈ parts, space part.1 = false) :
    (spaced blank parts).rdropWhile space = spaced blank parts := by
  rcases List.eq_nil_or_concat parts with rfl | ⟨front, last, rfl⟩
  · rfl
  · have ends : space last.1 = false := solid last (by simp)
    have split : spaced blank (front.concat last) =
        (spaced blank front ++ bif last.2 then [blank] else []) ++ [last.1] := by
      simp only [spaced, List.concat_eq_append, List.flatMap_append, List.flatMap_singleton, List.append_assoc]
      cases last.2 <;> rfl
    rw [split, List.rdropWhile_concat_neg _ _ _ (by simp [ends])]

theorem collapse_trim (text : List α) :
    collapse space blank false (trim space text) = spaced blank (parted space text) := by
  have whole := @collapse_eq _ space blank false (trim space text)
  rwa [gap_after_trim, gapped_trim, cond_false, List.nil_append, List.append_nil] at whole

/-- The normal form of a text is its characters with the gaps between them. -/
theorem normalize_eq (is_space : space blank = true) (text : List α) :
    normalize space blank text = spaced blank (parted space text) := by
  have whole := @collapse_eq _ space blank false (text.dropWhile space)
  rw [cond_false, List.nil_append] at whole
  rw [normalize, trim, dropWhile_collapse is_space, whole, parted_eq]
  have blanks : ∀ c ∈ (bif gap_after space false (text.dropWhile space) then [blank] else []), space c = true := by
    intro c mem
    cases gap : gap_after space false (text.dropWhile space) with
    | true =>
      rw [gap, cond_true, List.mem_singleton] at mem
      rw [mem, is_space]
    | false =>
      rw [gap] at mem
      exact absurd mem List.not_mem_nil
  rw [Trailing.rdropWhile_append blanks, rdropWhile_spaced solid_of_gapped]

theorem spaced_inj (is_space : space blank = true) {parts parts' : List (α × Bool)}
    (solid : ∀ part ∈ parts, space part.1 = false) (solid' : ∀ part ∈ parts', space part.1 = false)
    (same : spaced blank parts = spaced blank parts') : parts = parts' := by
  have ne : ∀ c : α, space c = false → blank ≠ c := by
    rintro c solid rfl
    rw [is_space] at solid
    cases solid
  induction parts generalizing parts' with
  | nil =>
    rcases parts' with _ | ⟨⟨c, gap⟩, parts'⟩
    · rfl
    · cases gap <;> cases same
  | cons part parts ih =>
    obtain ⟨c, gap⟩ := part
    rcases parts' with _ | ⟨⟨c', gap'⟩, parts'⟩
    · cases gap <;> cases same
    · have here := solid (c, gap) List.mem_cons_self
      have here' := solid' (c', gap') List.mem_cons_self
      have later := fun same => ih (fun part mem => solid part (List.mem_cons_of_mem _ mem))
        (fun part mem => solid' part (List.mem_cons_of_mem _ mem)) same
      cases gap <;> cases gap' <;>
        simp only [spaced, List.flatMap_cons, cond_true, cond_false, List.cons_append, List.nil_append,
          List.cons.injEq] at same
      · rw [same.1, later same.2]
      · exact absurd same.1.symm (ne c here)
      · exact absurd same.1 (ne c' here')
      · rw [same.2.1, later same.2.2]

theorem solid_of_parted (text : List α) : ∀ part ∈ parted space text, space part.1 = false := by
  rw [parted_eq]
  exact solid_of_gapped

/-- Two texts have one normal form exactly when they have the same characters with the same gaps. -/
theorem normalize_eq_iff (is_space : space blank = true) (text text' : List α) :
    normalize space blank text = normalize space blank text' ↔ parted space text = parted space text' := by
  rw [normalize_eq is_space, normalize_eq is_space]
  exact ⟨spaced_inj is_space (solid_of_parted text) (solid_of_parted text'), congrArg _⟩

theorem gapped_collapse (is_space : space blank = true) {inside gap : Bool} (open_gap : inside = true → gap = true)
    (text more : List α) :
    gapped space gap (collapse space blank inside text ++ more) = gapped space gap (text ++ more) := by
  induction text generalizing inside gap with
  | nil => rfl
  | cons c text ih =>
    rw [collapse, List.cons_append]
    conv_rhs => rw [gapped]
    cases here : space c with
    | true =>
      rw [if_pos rfl, if_pos rfl]
      cases inside with
      | true =>
        rw [if_pos rfl, open_gap rfl]
        exact ih fun _ => rfl
      | false =>
        rw [if_neg Bool.false_ne_true, List.cons_append, gapped, if_pos is_space]
        exact ih fun _ => rfl
    | false =>
      rw [if_neg Bool.false_ne_true, if_neg Bool.false_ne_true, List.cons_append, gapped, if_neg (by simp [here])]
      exact congrArg _ (ih fun h => h)

/-- Inside a longer text the normal form of a part has the gaps of the part without its ends. -/
theorem gapped_normalize (is_space : space blank = true) (gap : Bool) (text more : List α) :
    gapped space gap (normalize space blank text ++ more) = gapped space gap (trim space text ++ more) := by
  rw [normalize_eq is_space, ← collapse_trim]
  exact gapped_collapse is_space (fun h => absurd h Bool.false_ne_true) _ _

/-! ### Two selections of one list -/

section
variable {ι : Type} (char : ι → α)

/-- The characters a selection shows. -/
def shown (p : ι → Bool) (items : List ι) : List α := (items.filter p).map char

/-- Whether a selection shows white space among some items. -/
def gap_in (space : α → Bool) (p : ι → Bool) (items : List ι) : Bool := items.any fun i => space (char i) && p i

/-- Whether a selection shows an item that is no white space. -/
def Solid (space : α → Bool) (p : ι → Bool) (i : ι) : Prop := space (char i) = false ∧ p i = true

/-- Between two neighbouring characters of the first selection, one selection shows white space where the other does. -/
def SameGaps (space : α → Bool) (p q : ι → Bool) (items : List ι) : Prop :=
  ∀ front x middle y back, items = front ++ x :: (middle ++ y :: back) → Solid char space p x → Solid char space p y →
    (∀ m ∈ middle, ¬Solid char space p m) → gap_in char space p middle = gap_in char space q middle

variable {char} {p q : ι → Bool}

theorem shown_cons (i : ι) (items : List ι) :
    shown char p (i :: items) = if p i then char i :: shown char p items else shown char p items := by
  rw [shown, List.filter_cons]
  split <;> rfl

theorem gap_in_snoc (items : List ι) (i : ι) :
    gap_in char space p (items ++ [i]) = (gap_in char space p items || (space (char i) && p i)) := by
  simp [gap_in]

/-- What is not shown, or is white space, only adds to the gap. -/
theorem gapped_shown_skip {i : ι} (unsolid : ¬Solid char space p i) (gap : Bool) (items : List ι) :
    gapped space gap (shown char p (i :: items)) =
      gapped space (gap || (space (char i) && p i)) (shown char p items) := by
  rw [shown_cons]
  cases shows : p i with
  | false => simp
  | true =>
    have white : space (char i) = true := by
      by_contra solid
      exact unsolid ⟨Bool.eq_false_iff.mpr solid, shows⟩
    rw [if_pos rfl, gapped, if_pos white, white]
    simp

theorem gapped_shown_solid {i : ι} (solid : Solid char space p i) (gap : Bool) (items : List ι) :
    gapped space gap (shown char p (i :: items)) = (char i, gap) :: gapped space false (shown char p items) := by
  rw [shown_cons, if_pos solid.2, gapped, if_neg (by simp [solid.1])]

theorem SameGaps.cons_iff {i : ι} {items : List ι} (unsolid : ¬Solid char space p i) :
    SameGaps char space p q (i :: items) ↔ SameGaps char space p q items := by
  constructor
  · rintro same front x middle y back rfl
    exact same (i :: front) x middle y back rfl
  · intro same front x middle y back split solid
    rcases front with _ | ⟨j, front⟩
    · obtain ⟨rfl, -⟩ := List.cons.inj split
      exact absurd solid unsolid
    · obtain ⟨-, split⟩ := List.cons.inj split
      exact same front x middle y back split solid

/-- The first gap of a list that follows the items `middle` is the same in both selections. -/
def FirstGap (char : ι → α) (space : α → Bool) (p q : ι → Bool) (middle items : List ι) : Prop :=
  ∀ later y back, items = later ++ y :: back → Solid char space p y → (∀ m ∈ later, ¬Solid char space p m) →
    gap_in char space p (middle ++ later) = gap_in char space q (middle ++ later)

theorem SameGaps.solid_iff {i : ι} {items : List ι} (solid : Solid char space p i) :
    SameGaps char space p q (i :: items) ↔ FirstGap char space p q [] items ∧ SameGaps char space p q items := by
  constructor
  · intro same
    refine ⟨?_, ?_⟩
    · rintro middle y back rfl ends between
      exact same [] i middle y back rfl solid ends between
    · rintro front x middle y back rfl
      exact same (i :: front) x middle y back rfl
  · rintro ⟨first, same⟩ front x middle y back split starts ends between
    rcases front with _ | ⟨j, front⟩
    · obtain ⟨rfl, rfl⟩ := List.cons.inj split
      exact first middle y back rfl ends between
    · obtain ⟨-, split⟩ := List.cons.inj split
      exact same front x middle y back split starts ends between

theorem FirstGap.cons_iff {i : ι} {middle items : List ι} (unsolid : ¬Solid char space p i) :
    FirstGap char space p q middle (i :: items) ↔ FirstGap char space p q (middle ++ [i]) items := by
  constructor
  · rintro first later y back rfl ends between
    have whole := first (i :: later) y back rfl ends (List.forall_mem_cons.mpr ⟨unsolid, between⟩)
    rwa [List.append_cons] at whole
  · intro first later y back split ends between
    rcases later with _ | ⟨j, later⟩
    · obtain ⟨rfl, -⟩ := List.cons.inj split
      exact absurd ends unsolid
    · obtain ⟨rfl, rest⟩ := List.cons.inj split
      have whole := first later y back rest ends fun m mem => between m (List.mem_cons_of_mem _ mem)
      rwa [← List.append_cons] at whole

theorem FirstGap.solid_iff {i : ι} {middle items : List ι} (solid : Solid char space p i) :
    FirstGap char space p q middle (i :: items) ↔ gap_in char space p middle = gap_in char space q middle := by
  constructor
  · intro first
    have whole := first [] i items rfl solid fun m mem => absurd mem List.not_mem_nil
    rwa [List.append_nil] at whole
  · intro same later y back split ends between
    rcases later with _ | ⟨j, later⟩
    · rwa [List.append_nil]
    · obtain ⟨rfl, -⟩ := List.cons.inj split
      exact absurd solid (between _ List.mem_cons_self)

/-- Selections that agree on what is no white space have the same gaps exactly when they agree on white space between
    neighbours. -/
theorem gapped_shown_iff {middle items : List ι} (agree : ∀ i ∈ items, space (char i) = false → p i = q i) :
    gapped space (gap_in char space p middle) (shown char p items) =
        gapped space (gap_in char space q middle) (shown char q items) ↔
      FirstGap char space p q middle items ∧ SameGaps char space p q items := by
  induction items generalizing middle with
  | nil =>
    refine iff_of_true rfl ⟨fun later y back split => ?_, fun front x middle y back split => ?_⟩
    · cases later <;> cases split
    · cases front <;> cases split
  | cons i items ih =>
    have later := fun middle => @ih middle fun j mem => agree j (List.mem_cons_of_mem i mem)
    by_cases solid : Solid char space p i
    · have solid' : Solid char space q i := ⟨solid.1, agree i List.mem_cons_self solid.1 ▸ solid.2⟩
      rw [gapped_shown_solid solid, gapped_shown_solid solid', List.cons.injEq, Prod.mk.injEq, FirstGap.solid_iff solid,
        SameGaps.solid_iff solid]
      have rest := later []
      simp only [gap_in, List.any_nil] at rest ⊢
      rw [rest]
      simp
    · have unsolid' : ¬Solid char space q i := fun ⟨white, shows⟩ =>
        solid ⟨white, (agree i List.mem_cons_self white).trans shows⟩
      rw [gapped_shown_skip solid, gapped_shown_skip unsolid', ← gap_in_snoc, ← gap_in_snoc, later, FirstGap.cons_iff solid,
        SameGaps.cons_iff solid]

theorem parted_shown_skip {i : ι} (unsolid : ¬Solid char space p i) (items : List ι) :
    parted space (shown char p (i :: items)) = parted space (shown char p items) := by
  rw [shown_cons]
  cases shows : p i with
  | false => rfl
  | true =>
    have white : space (char i) = true := by
      by_contra solid
      exact unsolid ⟨Bool.eq_false_iff.mpr solid, shows⟩
    rw [if_pos rfl, parted, if_pos white]

theorem parted_shown_solid {i : ι} (solid : Solid char space p i) (items : List ι) :
    parted space (shown char p (i :: items)) = (char i, false) :: gapped space false (shown char p items) := by
  rw [shown_cons, if_pos solid.2, parted, if_neg (by simp [solid.1])]

theorem parted_shown_iff_of_agree {items : List ι} (agree : ∀ i ∈ items, space (char i) = false → p i = q i) :
    parted space (shown char p items) = parted space (shown char q items) ↔ SameGaps char space p q items := by
  induction items with
  | nil => exact iff_of_true rfl fun front x middle y back split => by cases front <;> cases split
  | cons i items ih =>
    have later : ∀ j ∈ items, space (char j) = false → p j = q j := fun j mem => agree j (List.mem_cons_of_mem i mem)
    by_cases solid : Solid char space p i
    · have solid' : Solid char space q i := ⟨solid.1, agree i List.mem_cons_self solid.1 ▸ solid.2⟩
      rw [parted_shown_solid solid, parted_shown_solid solid', SameGaps.solid_iff solid, ← gapped_shown_iff later,
        List.cons.injEq]
      exact and_iff_right rfl
    · have unsolid' : ¬Solid char space q i := fun ⟨white, shows⟩ =>
        solid ⟨white, (agree i List.mem_cons_self white).trans shows⟩
      rw [parted_shown_skip solid, parted_shown_skip unsolid', ih later, SameGaps.cons_iff solid]

theorem length_gapped (gap : Bool) (text : List α) : (gapped space gap text).length = text.countP (!space ·) := by
  induction text generalizing gap with
  | nil => rfl
  | cons c text ih =>
    rw [gapped, List.countP_cons]
    cases here : space c with
    | true => exact ih true
    | false => exact congrArg (· + 1) (ih false)

theorem length_parted (text : List α) : (parted space text).length = text.countP (!space ·) := by
  induction text with
  | nil => rfl
  | cons c text ih =>
    rw [parted, List.countP_cons]
    cases here : space c with
    | true => exact ih
    | false => exact congrArg (· + 1) (length_gapped false text)

theorem countP_shown (items : List ι) :
    (shown char p items).countP (!space ·) = ((items.filter p).filter fun i => !space (char i)).length := by
  rw [shown, List.countP_map, List.countP_eq_length_filter]
  rfl

/-- Two selections come to the same up to white space exactly when they show the same characters and agree on white
    space between neighbours, provided one shows no character that the other does not. -/
theorem parted_shown_iff {items : List ι} (within : ∀ i ∈ items, Solid char space p i → q i = true) :
    parted space (shown char p items) = parted space (shown char q items) ↔
      (∀ i ∈ items, Solid char space q i → p i = true) ∧ SameGaps char space p q items := by
  have agree (back : ∀ i ∈ items, Solid char space q i → p i = true) :
      ∀ i ∈ items, space (char i) = false → p i = q i := by
    intro i mem solid
    rw [Bool.eq_iff_iff]
    exact ⟨fun shows => within i mem ⟨solid, shows⟩, fun shows => back i mem ⟨solid, shows⟩⟩
  constructor
  · intro same
    have counted := congrArg List.length same
    rw [length_parted, length_parted, countP_shown, countP_shown] at counted
    have inner : ((items.filter q).filter fun i => !space (char i)).filter p =
        (items.filter p).filter fun i => !space (char i) := by
      rw [List.filter_filter, List.filter_filter, List.filter_filter]
      refine List.filter_congr fun i mem => ?_
      cases shows : p i with
      | false => simp
      | true =>
        cases solid : space (char i) with
        | true => simp
        | false => simp [within i mem ⟨solid, shows⟩]
    have back : ∀ i ∈ items, Solid char space q i → p i = true := by
      intro i mem solid
      rw [← inner] at counted
      refine List.length_filter_eq_length_iff.mp counted i ?_
      rw [List.mem_filter, List.mem_filter]
      exact ⟨⟨mem, solid.2⟩, by simp [solid.1]⟩
    exact ⟨back, (parted_shown_iff_of_agree (agree back)).mp same⟩
  · rintro ⟨back, gaps⟩
    exact (parted_shown_iff_of_agree (agree back)).mpr gaps

end

end Spacing
