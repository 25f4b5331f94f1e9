import MootLoop.Lib.Fences
import MootLoop.Lib.Trailing
import MootLoop.Lib.Walk
import MootLoop.Lib.Json
import MootLoop.Master
import MootLoop.Theorems.Pending

/-! The response blocks of a court master and of the masters of the served sets, read back at their fences. -/

namespace MootLoop.MasterBlocks
open Fences

/-! ### Fences -/

/-- `text.split("\n")`. -/
def file_lines (text : String) : List (List Char) := text.toList.splitOn '\n'

def OPENING : List Char := "::: \x7b#resp-".toList

/-- The id of a line `::: {#resp-ID}`. -/
def anchor (line : List Char) : Option RequestId :=
  if OPENING.isPrefixOf line && line.getLast? == some '}' then
    some (String.ofList (line.drop OPENING.length).dropLast)
  else none

/-- The fences of a response block. -/
def response_marks : Marks (List Char) RequestId := ⟨anchor, fun line => line == ":::".toList⟩

theorem response_opener_toList (id : RequestId) : (response_opener id).toList = OPENING ++ id.toList ++ ['}'] := by
  rw [response_opener, String.toList_append, String.toList_append]
  rfl

theorem anchor_opener (id : RequestId) : anchor (response_opener id).toList = some id := by
  rw [response_opener_toList, anchor, if_pos (by simp), List.append_assoc, List.drop_left, List.dropLast_concat,
    String.ofList_toList]

theorem anchor_some {line : List Char} {id : RequestId} (anchored : anchor line = some id) :
    line = (response_opener id).toList := by
  rw [anchor] at anchored
  split at anchored
  · rename_i fenced
    rw [Bool.and_eq_true, List.isPrefixOf_iff_prefix, beq_iff_eq] at fenced
    obtain ⟨⟨rest, rfl⟩, last⟩ := fenced
    cases anchored
    rw [response_opener_toList, List.drop_left, String.toList_ofList, List.append_assoc]
    rcases rest.eq_nil_or_concat' with rfl | ⟨front, c, rfl⟩
    · rw [List.append_nil] at last
      revert last
      decide
    · rw [← List.append_assoc, List.getLast?_concat] at last
      cases last
      rw [List.dropLast_concat]
  · cases anchored

theorem anchor_shut : anchor ":::".toList = none := by decide

/-! ### Lines of joined texts -/

theorem file_lines_ne_nil (text : String) : file_lines text ≠ [] := List.splitOn_ne_nil _ _

theorem splitOn_prefixed {front rest : List Char} (apart : '\n' ∉ front) :
    (front ++ rest).splitOn '\n' = (rest.splitOn '\n').modifyHead (front ++ ·) := by
  induction front with
  | nil =>
    rw [List.nil_append]
    cases rest.splitOn '\n' <;> rfl
  | cons c front ih =>
    obtain ⟨ne, apart⟩ := not_or.mp (List.mem_cons.not.mp apart)
    rw [List.cons_append, List.splitOn_cons_eq_if_modifyHead, if_neg (by simpa using Ne.symm ne), ih apart,
      List.modifyHead_modifyHead]
    rfl

theorem flatMap_flatten {α β : Type} (f : α → List β) (parts : List (List α)) :
    parts.flatten.flatMap f = parts.flatMap fun part => part.flatMap f := by
  induction parts with
  | nil => rfl
  | cons part parts ih => rw [List.flatten_cons, List.flatMap_append, ih, List.flatMap_cons]

theorem splitOn_intercalate_flatMap {texts : List (List Char)} (some_text : texts ≠ []) :
    (['\n'].intercalate texts).splitOn '\n' = texts.flatMap (List.splitOn '\n') := by
  induction texts with
  | nil => exact absurd rfl some_text
  | cons text texts ih =>
    rcases eq_or_ne texts [] with rfl | more
    · simp
    · rw [List.intercalate_cons_of_ne_nil more, List.append_assoc, List.singleton_append, List.splitOn_append_cons_self,
        ih more, List.flatMap_cons]

/-- The lines of a file whose last line is not empty. -/
theorem file_lines_file_of (lines : List String) {text : String} (last : List Char) {c : Char} (ends : c ≠ '\n')
    (text_eq : text.toList = last ++ [c]) :
    file_lines (file_of (lines ++ [text])) = (lines ++ [text]).flatMap file_lines ++ [[]] := by
  have joined : ∃ front, ['\n'].intercalate ((lines ++ [text]).map String.toList) = front ++ [c] := by
    rw [List.map_append, List.map_singleton, text_eq]
    rcases eq_or_ne (lines.map String.toList) [] with none_left | more
    · rw [none_left]
      exact ⟨last, by simp⟩
    · exact ⟨['\n'].intercalate (lines.map String.toList) ++ '\n' :: last, by
        rw [Trailing.intercalate_snoc _ more]; simp⟩
  obtain ⟨front, joined⟩ := joined
  have kept : rstrip_by (· = '\n') (front ++ [c]) = front ++ [c] := by
    rw [rstrip_by, List.reverse_append, List.reverse_singleton, List.singleton_append,
      List.dropWhile_cons_of_neg (by simpa using ends)]
    simp
  rw [file_lines, file_of, String.toList_ofList, String.toList_intercalate]
  change ((rstrip_by (· = '\n') (['\n'].intercalate _)) ++ ['\n']).splitOn '\n' = _
  rw [joined, kept, ← joined, List.splitOn_append_cons_self, splitOn_intercalate_flatMap (by simp), List.flatMap_map]
  rfl

/-! ### Units -/

/-- A unit as a master renders it. -/
structure Placed where
  item : RequestItem
  draft : Option DraftOutput
  request_type : RequestType

/-- The units of a served set, in rendering order. -/
def set_units (request_set : RequestSet) (drafts : List (RequestId × Option DraftOutput)) : List Placed :=
  (set_requests request_set).map fun item => ⟨item, (drafts.lookup item.request_id).join, request_set.request_type⟩

namespace Placed

/-- A rendered unit between its fences. -/
def inner (unit : Placed) : List String := ((response_block unit.item unit.draft unit.request_type).drop 1).dropLast

def id (unit : Placed) : RequestId := unit.item.request_id

/-- The unit's block: its id and the lines between its fences. -/
def block (unit : Placed) : RequestId × List (List Char) := (unit.id, unit.inner.flatMap file_lines)

/-- A line that is no fence. -/
def Loose (line : List Char) : Prop := anchor line = none ∧ response_marks.closes line = false

/-- The lines of a text that begins in the middle of a line. -/
def later_lines (text : String) : List (List Char) := (file_lines text).tail

/-- No later line of the request's text, the response or an objection is a fence; the narrative of an admission stands
    on lines of its own. -/
structure Contained (unit : Placed) : Prop where
  request : ∀ line ∈ later_lines (strip unit.item.text), Loose line
  objections : ∀ draft, unit.draft = some draft → ∀ objection ∈ draft.objections,
    ∀ line ∈ later_lines (objection.basis ++ "): " ++ objection.text), Loose line
  response : ∀ draft, unit.draft = some draft →
    ∀ line ∈ (if unit.request_type = .rfa ∧ draft.rfa_disposition.isSome = true then file_lines (strip draft.response_text)
      else later_lines (strip draft.response_text)), Loose line

end Placed
open Placed

/-- No line of the text is a fence. -/
def LooseText (text : String) : Prop := ∀ line ∈ file_lines text, Loose line

theorem loose_of_head {c : Char} {line : List Char} (ne : c ≠ ':') : Loose (c :: line) := by
  constructor
  · rw [anchor, if_neg]
    have other : (OPENING.isPrefixOf (c :: line)) = false := by
      rw [Bool.eq_false_iff]
      intro fenced
      obtain ⟨rest, same⟩ := List.isPrefixOf_iff_prefix.mp fenced
      exact ne (List.cons.inj same).1.symm
    rw [other, Bool.false_and]
    exact Bool.false_ne_true
  · have other : (c :: line) ≠ ":::".toList := fun same => ne (List.cons.inj same).1
    simpa [response_marks] using other

/-- A text that follows the start of a line: only its later lines could be fences. -/
theorem loose_text_append {text rest : String} (start : String) {c : Char} {front : List Char} (joined : text.toList = start.toList ++ rest.toList)
    (start_eq : start.toList = c :: front) (ne : c ≠ ':') (apart : '\n' ∉ start.toList) :
    LooseText text ↔ ∀ line ∈ later_lines rest, Loose line := by
  have split : file_lines text = (file_lines rest).modifyHead (start.toList ++ ·) := by
    rw [file_lines, joined, splitOn_prefixed apart]
    rfl
  rw [LooseText, split, later_lines]
  cases lines : file_lines rest with
  | nil => exact absurd lines (file_lines_ne_nil rest)
  | cons first later =>
    rw [List.modifyHead_cons, List.forall_mem_cons, List.tail_cons, start_eq, List.cons_append]
    exact and_iff_right (loose_of_head ne)

theorem loose_blank : LooseText "" := by
  intro line mem
  rw [List.mem_singleton.mp mem]
  exact ⟨by decide, by decide⟩

/-- A text of one line that does not begin like a fence. -/
theorem loose_single {text : String} {c : Char} {rest : List Char} (chars : text.toList = c :: rest) (ne : c ≠ ':')
    (apart : '\n' ∉ text.toList) : LooseText text := by
  intro line mem
  rw [file_lines, List.splitOn_eq_singleton apart, List.mem_singleton] at mem
  rw [mem, chars]
  exact loose_of_head ne

set_option maxRecDepth 2000 in
theorem loose_inquiry : LooseText REASONABLE_INQUIRY := loose_single (c := 'R') rfl (by decide) (by decide)

theorem number_apart (n : Nat) : '\n' ∉ (toString n).toList := by
  intro mem
  have digit := Json.digit_of_mem (n := n) (by simpa using mem)
  revert digit
  decide

theorem loose_restatement (item : RequestItem) (request_type : RequestType) :
    LooseText s!"**{marker_label request_type} NO. {item.number}:** {strip item.text}" ↔
      ∀ line ∈ later_lines (strip item.text), Loose line := by
  have apart : '\n' ∉ s!"**{marker_label request_type} NO. {item.number}:** ".toList := by
    simp only [String.toList_append, List.mem_append, not_or]
    refine ⟨⟨⟨⟨by decide, ?_⟩, by decide⟩, number_apart _⟩, by decide⟩
    cases request_type <;> decide
  exact loose_text_append _ (String.toList_append ..) (by simp only [String.toList_append, List.append_assoc]; rfl) (by decide)
    apart

theorem loose_objection (objection : Objection) :
    LooseText s!"OBJECTION ({objection.basis}): {objection.text}" ↔
      ∀ line ∈ later_lines (objection.basis ++ "): " ++ objection.text), Loose line :=
  loose_text_append "OBJECTION (" (by simp only [String.toList_append, List.append_assoc]; rfl) rfl (by decide) (by decide)

theorem loose_response (response : String) :
    LooseText s!"**RESPONSE:** {response}" ↔ ∀ line ∈ later_lines response, Loose line :=
  loose_text_append "**RESPONSE:** " (String.toList_append ..) rfl (by decide) (by decide)

theorem later_label (disposition : RfaDisposition) (narrative : String) :
    later_lines (RFA_DISPOSITION_LABEL disposition ++ "\n\n" ++ narrative) = [] :: file_lines narrative := by
  have apart : '\n' ∉ (RFA_DISPOSITION_LABEL disposition).toList := by cases disposition <;> decide
  have chars : (RFA_DISPOSITION_LABEL disposition ++ "\n\n" ++ narrative).toList =
      (RFA_DISPOSITION_LABEL disposition).toList ++ '\n' :: ([] ++ '\n' :: narrative.toList) := by
    simp only [String.toList_append, List.append_assoc]
    rfl
  rw [later_lines, file_lines, chars, List.splitOn_append_cons_self, List.splitOn_append_cons_self,
    List.splitOn_eq_singleton apart]
  rfl

namespace Placed
variable (unit : Placed)

def restatement : String := s!"**{marker_label unit.request_type} NO. {unit.item.number}:** {strip unit.item.text}"

/-- The texts between the restatement and the closing fence. -/
def answer : List String :=
  match unit.draft with
  | none => ["**RESPONSE:** _no response drafted_"]
  | some draft =>
    if unit.request_type = .rfa then
      let narrative := strip draft.response_text
      let response :=
        match draft.rfa_disposition with
        | some disposition => RFA_DISPOSITION_LABEL disposition ++ "\n\n" ++ narrative
        | none => narrative
      [s!"**RESPONSE:** {response}"] ++
      (if draft.rfa_disposition = some .lack_of_knowledge then ["", REASONABLE_INQUIRY] else []) ++
      (objection_lines draft).flatMap fun line => ["", line]
    else
      ((objection_lines draft).flatMap fun line => [line, ""]) ++ [s!"**RESPONSE:** {strip draft.response_text}"]

theorem block_eq : response_block unit.item unit.draft unit.request_type =
    response_opener unit.id :: ([unit.restatement, ""] ++ unit.answer ++ [""]) ++ [":::"] := by
  unfold response_block answer
  cases unit.draft with
  | none => rfl
  | some draft =>
    dsimp only
    split
    · cases draft.rfa_disposition <;> simp [restatement, Placed.id]
    · simp [restatement, Placed.id]

theorem inner_eq : unit.inner = [unit.restatement, ""] ++ unit.answer ++ [""] := by
  rw [inner, block_eq, List.cons_append, List.drop_one, List.tail_cons, List.dropLast_concat]

theorem loose_objections (draft : DraftOutput) {texts : String → List String}
    (texts_eq : ∀ line, (∀ text ∈ texts line, LooseText text) ↔ LooseText line) :
    (∀ text ∈ (objection_lines draft).flatMap texts, LooseText text) ↔
      ∀ objection ∈ draft.objections, ∀ line ∈ later_lines (objection.basis ++ "): " ++ objection.text), Loose line := by
  rw [List.forall_mem_flatMap, objection_lines, List.forall_mem_map]
  refine forall₂_congr fun objection _ => ?_
  rw [texts_eq, loose_objection]

theorem loose_answer : (∀ text ∈ unit.answer, LooseText text) ↔
    (∀ draft, unit.draft = some draft → ∀ objection ∈ draft.objections,
      ∀ line ∈ later_lines (objection.basis ++ "): " ++ objection.text), Loose line) ∧
    ∀ draft, unit.draft = some draft →
      ∀ line ∈ (if unit.request_type = .rfa ∧ draft.rfa_disposition.isSome = true then file_lines (strip draft.response_text)
        else later_lines (strip draft.response_text)), Loose line := by
  rw [answer]
  cases drafted : unit.draft with
  | none =>
    have undrafted : LooseText "**RESPONSE:** _no response drafted_" :=
      loose_single (c := '*') rfl (by decide) (by decide)
    simpa using undrafted
  | some draft =>
    simp only [Option.some.injEq, forall_eq']
    split
    · rename_i admission
      rw [List.forall_mem_append, List.forall_mem_append, List.forall_mem_singleton,
        loose_objections draft fun line => by simp [loose_blank], loose_response]
      have inquiry : ∀ text ∈ (if draft.rfa_disposition = some .lack_of_knowledge then ["", REASONABLE_INQUIRY] else []),
          LooseText text := by
        split <;> simp [loose_blank, loose_inquiry]
      cases given : draft.rfa_disposition with
      | none =>
        rw [given] at inquiry
        simp only [admission, Option.isSome_none, Bool.false_eq_true, and_false, if_false]
        tauto
      | some disposition =>
        rw [given] at inquiry
        have blank : Loose ([] : List Char) := ⟨by decide, by decide⟩
        simp only [admission, Option.isSome_some, and_self, if_true, later_label, List.forall_mem_cons, blank, true_and]
        tauto
    · rename_i other
      rw [List.forall_mem_append, List.forall_mem_singleton, loose_objections draft fun line => by simp [loose_blank],
        loose_response]
      simp [other]

/-- The texts of a unit hold no fence exactly when its request, response and objections hold none. -/
theorem loose_inner : (∀ text ∈ unit.inner, LooseText text) ↔ unit.Contained := by
  rw [inner_eq, List.forall_mem_append, List.forall_mem_append, List.forall_mem_cons, List.forall_mem_singleton,
    loose_answer, restatement, loose_restatement]
  constructor
  · rintro ⟨⟨⟨request, -⟩, objections, response⟩, -⟩
    exact ⟨request, objections, response⟩
  · rintro ⟨request, objections, response⟩
    exact ⟨⟨⟨request, loose_blank⟩, objections, response⟩, loose_blank⟩

end Placed

/-! ### Documents -/

variable {x : Externals}

/-- No line of the texts could open a block. -/
def Unanchored (texts : List String) : Prop := ∀ text ∈ texts, ∀ line ∈ file_lines text, anchor line = none

abbrev Reads (texts : List String) (blocks : List (RequestId × List (List Char))) (unfenced : Prop) : Prop :=
  Document response_marks (texts.flatMap file_lines) blocks unfenced

theorem reads_plain (texts : List String) : Reads texts [] (Unanchored texts) :=
  (Document.plain _).congr List.forall_mem_flatMap

theorem reads_append {texts texts' : List String} {blocks blocks' : List (RequestId × List (List Char))} {P P' : Prop}
    (front : Reads texts blocks P) (back : Reads texts' blocks' P') : Reads (texts ++ texts') (blocks ++ blocks') (P ∧ P') := by
  have document := Document.append front back
  rwa [← List.flatMap_append] at document

theorem file_lines_singleton {text : String} (apart : '\n' ∉ text.toList) : file_lines text = [text.toList] :=
  List.splitOn_eq_singleton apart

theorem reads_block (unit : Placed) (apart : '\n' ∉ unit.id.toList) :
    Reads (response_block unit.item unit.draft unit.request_type) [unit.block] unit.Contained := by
  have opener : file_lines (response_opener unit.id) = [(response_opener unit.id).toList] := by
    refine file_lines_singleton ?_
    rw [response_opener_toList]
    simp only [List.mem_append, not_or]
    exact ⟨⟨by decide, apart⟩, by decide⟩
  have closer : file_lines ":::" = [":::".toList] := file_lines_singleton (by decide)
  have document : Document response_marks
      ((response_opener unit.id).toList :: unit.inner.flatMap file_lines ++ [":::".toList]) [unit.block]
      (∀ line ∈ unit.inner.flatMap file_lines, Loose line) :=
    Document.block _ (anchor_opener unit.id) (by decide) anchor_shut
  have lines : (response_block unit.item unit.draft unit.request_type).flatMap file_lines =
      (response_opener unit.id).toList :: unit.inner.flatMap file_lines ++ [":::".toList] := by
    rw [unit.block_eq, ← unit.inner_eq, List.flatMap_append, List.flatMap_cons, opener, List.flatMap_singleton, closer,
      List.singleton_append]
  rw [Reads, lines]
  refine document.congr ?_
  rw [List.forall_mem_flatMap]
  exact unit.loose_inner

theorem reads_units (units : List Placed) (apart : ∀ unit ∈ units, '\n' ∉ unit.id.toList) :
    Reads (units.flatMap fun unit => response_block unit.item unit.draft unit.request_type ++ [""])
      (units.map Placed.block) (∀ unit ∈ units, unit.Contained) := by
  induction units with
  | nil => exact Document.nil.congr (by simp)
  | cons unit units ih =>
    have blank : Unanchored [""] := by
      intro text mem line mem_line
      rw [List.mem_singleton.mp mem] at mem_line
      exact (loose_blank line mem_line).1
    have first := reads_append (reads_block unit (apart unit List.mem_cons_self)) (reads_plain [""])
    have all := reads_append first (ih fun u mem => apart u (List.mem_cons_of_mem _ mem))
    rw [List.forall_mem_cons]
    exact all.congr (by rw [and_iff_left blank])

/-- The lines of a set's title and warnings. -/
def set_head (title : String) (warnings : List String) : List String :=
  [s!"# {title}", ""] ++ warnings.flatMap fun warning => [warning, ""]

theorem set_body_ok {matter : MatterConfig} {request_set : RequestSet} {drafts : List (RequestId × Option DraftOutput)}
    {warnings body : List String} (rendered : set_body x matter request_set drafts warnings = .ok body) :
    ∃ title, document_title x matter request_set = .ok title ∧ body = set_head title warnings ++
      (set_units request_set drafts).flatMap fun unit => response_block unit.item unit.draft unit.request_type ++ [""] := by
  obtain ⟨title, titled, rendered⟩ := bind_ok rendered
  cases rendered
  refine ⟨title, titled, ?_⟩
  rw [set_head, set_units, List.flatMap_map]

theorem reads_set_body {matter : MatterConfig} {request_set : RequestSet} {drafts : List (RequestId × Option DraftOutput)}
    {warnings body : List String} (rendered : set_body x matter request_set drafts warnings = .ok body)
    (apart : ∀ unit ∈ set_units request_set drafts, '\n' ∉ unit.id.toList) :
    Reads body ((set_units request_set drafts).map Placed.block)
      ((∀ title, document_title x matter request_set = .ok title → Unanchored (set_head title warnings)) ∧
        ∀ unit ∈ set_units request_set drafts, unit.Contained) := by
  obtain ⟨title, titled, rfl⟩ := set_body_ok rendered
  have document := reads_append (reads_plain (set_head title warnings)) (reads_units _ apart)
  refine document.congr (and_congr_left fun _ => ?_)
  rw [titled]
  simp

/-! ### Masters -/

/-- What a master renders around its units. -/
structure Frame where
  matter : MatterConfig
  dateline : String
  warnings : List String

/-- The ids stand on one line, nothing around the units opens a block, and no text of a unit holds a fence. -/
structure Unframed (x : Externals) (frame : Frame) (request_sets : List RequestSet)
    (drafts : List (RequestId × Option DraftOutput)) : Prop where
  ids : ∀ request_set ∈ request_sets, ∀ unit ∈ set_units request_set drafts, '\n' ∉ unit.id.toList
  caption : ∀ lines, caption_block x frame.matter = .ok lines → Unanchored (lines ++ ["", frame.dateline, ""])
  titles : ∀ request_set ∈ request_sets, ∀ title, document_title x frame.matter request_set = .ok title →
    Unanchored (set_head title frame.warnings)
  signature : ∀ lines, signature_block frame.matter = .ok lines → Unanchored lines
  units : ∀ request_set ∈ request_sets, ∀ unit ∈ set_units request_set drafts, unit.Contained

/-- The blocks a master is meant to hold. -/
def expected (request_sets : List RequestSet) (drafts : List (RequestId × Option DraftOutput)) :
    List (RequestId × List (List Char)) :=
  request_sets.flatMap fun request_set => (set_units request_set drafts).map Placed.block

theorem apart_of_mem_splitOn {text line : List Char} (mem : line ∈ text.splitOn '\n') : '\n' ∉ line := by
  induction text generalizing line with
  | nil =>
    rw [List.splitOn_nil, List.mem_singleton] at mem
    rw [mem]
    exact List.not_mem_nil
  | cons c text ih =>
    rw [List.splitOn_cons_eq_if_modifyHead] at mem
    split at mem
    · rcases List.mem_cons.mp mem with rfl | mem
      · exact List.not_mem_nil
      · exact ih mem
    · rename_i ne
      cases lines : text.splitOn '\n' with
      | nil => exact absurd lines (List.splitOn_ne_nil _ _)
      | cons first rest =>
        rw [lines, List.modifyHead_cons] at mem
        rcases List.mem_cons.mp mem with rfl | mem
        · rw [List.mem_cons, not_or]
          exact ⟨fun same => ne (by rw [same, beq_self_eq_true]), ih (lines ▸ List.mem_cons_self)⟩
        · exact ih (lines ▸ List.mem_cons_of_mem _ mem)

/-- The id of a block stands on one line. -/
theorem block_id_apart {text : String} {id : RequestId} {content : List (List Char)}
    (mem : (id, content) ∈ Fences.blocks response_marks (file_lines text)) : '\n' ∉ id.toList := by
  obtain ⟨line, in_text, opens⟩ := key_of_mem_blocks mem
  have apart := apart_of_mem_splitOn in_text
  rw [anchor_some opens, response_opener_toList, List.append_assoc] at apart
  exact fun newline => apart (List.mem_append_right _ (List.mem_append_left _ newline))

theorem unanchored_append {texts texts' : List String} :
    Unanchored (texts ++ texts') ↔ Unanchored texts ∧ Unanchored texts' := List.forall_mem_append

theorem unanchored_of_loose {texts : List String} (loose : ∀ text ∈ texts, LooseText text) : Unanchored texts :=
  fun text mem line in_text => (loose text mem line in_text).1

theorem side_apart {matter : MatterConfig} {ours theirs : String} (sides : side_labels matter = .ok (ours, theirs)) :
    '\n' ∉ theirs.toList := by
  rw [side_labels] at sides
  split at sides
  · cases sides
    decide
  · cases sides
    decide
  · cases sides

/-- A certificate ends with its rule, and no line of it opens a block. -/
theorem certificate_lines {matter : MatterConfig} {certificate : List String}
    (rendered : certificate_of_service matter = .ok certificate) :
    (∃ front, certificate = front ++ ["_______________________________"]) ∧ Unanchored certificate := by
  obtain ⟨⟨ours, theirs⟩, sides, rendered⟩ := bind_ok rendered
  cases rendered
  refine ⟨⟨[_, _, _, _, _, _], rfl⟩, unanchored_of_loose ?_⟩
  have sentence : LooseText s!"The undersigned certifies that a true and correct copy of the foregoing was served upon counsel for {theirs} by the method agreed among the parties on the date set forth below." := by
    refine loose_single (c := 'T') (by simp only [String.toList_append, List.append_assoc]; rfl) (by decide) ?_
    simp only [String.toList_append, List.mem_append, not_or]
    exact ⟨⟨by decide, side_apart sides⟩, by decide⟩
  simp only [List.forall_mem_cons]
  exact ⟨loose_single (c := '#') rfl (by decide) (by decide), loose_blank, sentence, loose_blank,
    loose_single (c := 'D') rfl (by decide) (by decide), loose_blank,
    loose_single (c := '_') rfl (by decide) (by decide), fun _ mem => absurd mem List.not_mem_nil⟩

/-- An empty last line of a file is not there. -/
theorem file_of_blank {lines : List String} (some_line : lines ≠ []) : file_of (lines ++ [""]) = file_of lines := by
  have joined : ['\n'].intercalate ((lines ++ [""]).map String.toList) =
      ['\n'].intercalate (lines.map String.toList) ++ ['\n'] := by
    rw [List.map_append, List.map_singleton, Trailing.intercalate_snoc _ (by simpa using some_line)]
    rfl
  have stripped : ∀ text : List Char, rstrip_by (· = '\n') (text ++ ['\n']) = rstrip_by (· = '\n') text := by
    intro text
    rw [rstrip_by, List.reverse_append, List.reverse_singleton, List.singleton_append, List.dropWhile_cons_of_pos (by simp)]
    rfl
  have newline : "\n".toList = ['\n'] := rfl
  rw [file_of, file_of, String.toList_intercalate, String.toList_intercalate, newline, joined, stripped]

variable {request_sets : List RequestSet} {drafts : List (RequestId × Option DraftOutput)}

/-- A master of some sets is read back as its blocks exactly when it is unframed. -/
theorem master_blocks (frame : Frame) {caption signature certificate : List String} (bodies : List (List String))
    (captioned : caption_block x frame.matter = .ok caption)
    (rendered : List.Forall₂ (fun request_set body => set_body x frame.matter request_set drafts frame.warnings = .ok body)
      request_sets bodies)
    (signed : signature_block frame.matter = .ok signature) (certified : certificate_of_service frame.matter = .ok certificate) :
    Fences.blocks response_marks (file_lines (file_of (caption ++ ["", frame.dateline, ""] ++ bodies.flatten ++ signature ++
      [""] ++ certificate))) = expected request_sets drafts ↔ Unframed x frame request_sets drafts := by
  obtain ⟨⟨front, last⟩, plain_certificate⟩ := certificate_lines certified
  have rule_chars : "_______________________________".toList = "______________________________".toList ++ ['_'] := by decide
  have lines_eq : file_lines (file_of (caption ++ ["", frame.dateline, ""] ++ bodies.flatten ++ signature ++ [""] ++ certificate)) =
      (caption ++ ["", frame.dateline, ""] ++ bodies.flatten ++ (signature ++ [""] ++ certificate ++ [""])).flatMap file_lines := by
    have ended := file_lines_file_of (caption ++ ["", frame.dateline, ""] ++ bodies.flatten ++ signature ++ [""] ++ front)
      "______________________________".toList (c := '_') (by decide) rule_chars
    rw [List.append_assoc _ front, ← last] at ended
    rw [ended]
    simp only [List.append_assoc, List.flatMap_append, List.flatMap_singleton]
    rfl
  by_cases ids : ∀ request_set ∈ request_sets, ∀ unit ∈ set_units request_set drafts, '\n' ∉ unit.id.toList
  · have each : List.Forall₂ (fun request_set body =>
        Document response_marks (body.flatMap file_lines) ((set_units request_set drafts).map Placed.block)
          ((∀ title, document_title x frame.matter request_set = .ok title → Unanchored (set_head title frame.warnings)) ∧
            ∀ unit ∈ set_units request_set drafts, unit.Contained)) request_sets bodies :=
      ((List.forall₂_and_left _ _).mpr ⟨ids, rendered⟩).imp fun _ _ both => reads_set_body both.2 both.1
    have sets := Document.flatMap each
    rw [← flatMap_flatten file_lines] at sets
    have back : Unanchored (signature ++ [""] ++ certificate ++ [""]) ↔ Unanchored signature := by
      have blank : Unanchored [""] := unanchored_of_loose (by simpa using loose_blank)
      rw [unanchored_append, unanchored_append, unanchored_append, and_iff_left blank, and_iff_left plain_certificate,
        and_iff_left blank]
    have document := reads_append (reads_append (reads_plain (caption ++ ["", frame.dateline, ""])) sets)
      (reads_plain (signature ++ [""] ++ certificate ++ [""]))
    rw [List.nil_append, List.append_nil] at document
    rw [lines_eq, expected, Document.read_back document, back]
    constructor
    · rintro ⟨⟨plain_caption, sets⟩, plain_signature⟩
      refine ⟨ids, ?_, fun s mem => (sets s mem).1, ?_, fun s mem => (sets s mem).2⟩
      · rw [captioned]
        rintro lines ⟨⟩
        exact plain_caption
      · rw [signed]
        rintro lines ⟨⟩
        exact plain_signature
    · intro unframed
      exact ⟨⟨unframed.caption caption captioned, fun s mem => ⟨unframed.titles s mem, unframed.units s mem⟩⟩,
        unframed.signature signature signed⟩
  · constructor
    · intro read
      push Not at ids
      obtain ⟨request_set, mem_set, unit, mem_unit, newline⟩ := ids
      have mem : unit.block ∈ expected request_sets drafts :=
        List.mem_flatMap.mpr ⟨request_set, mem_set, List.mem_map_of_mem mem_unit⟩
      rw [← read] at mem
      exact absurd newline (block_id_apart mem)
    · intro unframed
      exact absurd unframed.ids ids

/-! ### The masters of a run -/

/-- What surrounds the units of a run's masters. -/
def run_frame (v : Vault) (context : RunContext) (drafts : List (RequestId × Option DraftOutput)) (dateline : String) : Frame where
  matter := context.matter
  dateline
  warnings := review_warnings (folded_decisions v.decisions).values drafts

def court_dateline (context : RunContext) (now : String) : String := s!"_Generated {now} · run `{context.run_id}`_"

def set_dateline (context : RunContext) (now : String) : String := s!"_Run `{context.run_id}` · generated {now}_"

variable {v : Vault} {context : RunContext} {now text : String}

theorem court_master_blocks (drafted : drafts_by_request context v.state = .ok drafts)
    (rendered : court_master x v context now = .ok text) :
    Fences.blocks response_marks (file_lines text) = expected context.request_sets drafts ↔
      Unframed x (run_frame v context drafts (court_dateline context now)) context.request_sets drafts := by
  obtain ⟨drafts', same, rendered⟩ := bind_ok rendered
  rw [drafted] at same
  cases same
  obtain ⟨bodies, walked, rendered⟩ := bind_ok rendered
  obtain ⟨caption, captioned, rendered⟩ := bind_ok rendered
  obtain ⟨signature, signed, rendered⟩ := bind_ok rendered
  obtain ⟨certificate, certified, rendered⟩ := bind_ok rendered
  rw [← Except.ok.inj rendered, file_of_blank (by simp)]
  exact master_blocks (run_frame v context drafts (court_dateline context now)) bodies captioned
    (Walk.forall₂_of_mapM walked) signed certified

theorem set_master_blocks (drafted : drafts_by_request context v.state = .ok drafts) {request_set : RequestSet}
    (rendered : set_master x v context now request_set = .ok text) :
    Fences.blocks response_marks (file_lines text) = expected [request_set] drafts ↔
      Unframed x (run_frame v context drafts (set_dateline context now)) [request_set] drafts := by
  obtain ⟨drafts', same, rendered⟩ := bind_ok rendered
  rw [drafted] at same
  cases same
  obtain ⟨body, bodied, rendered⟩ := bind_ok rendered
  obtain ⟨caption, captioned, rendered⟩ := bind_ok rendered
  obtain ⟨signature, signed, rendered⟩ := bind_ok rendered
  obtain ⟨certificate, certified, rendered⟩ := bind_ok rendered
  rw [← Except.ok.inj rendered]
  have read := master_blocks (run_frame v context drafts (set_dateline context now)) [body] captioned
    (.cons bodied .nil) signed certified
  rwa [List.flatten_singleton] at read

/-- The masters hold each task unit of a discovery run once. -/
theorem expected_ids (discovery : context.config.input_family = .discovery) :
    ((expected context.request_sets drafts).map Prod.fst).Perm (context.task_units.map TaskUnit.request_id) := by
  have ids : (expected context.request_sets drafts).map Prod.fst =
      (context.request_sets.flatMap set_requests).map (·.request_id) := by
    simp only [expected, set_units, List.map_flatMap, List.map_map]
    rfl
  have units : context.task_units.map TaskUnit.request_id = (units_of context.request_sets).map (·.request_id) := by
    rw [RunContext.task_units, if_neg (by rw [discovery]; decide), List.map_map]
    rfl
  have rendered : (context.request_sets.flatMap set_requests).Perm (units_of context.request_sets) := by
    refine List.Perm.trans ?_ (units_of_perm context.request_sets).symm
    rw [List.filter_flatMap]
    exact List.Perm.flatMap_left _ fun request_set _ => List.perm_insertionSort _ _
  rw [ids, units]
  exact rendered.map _

/-- A court master, and the master of a set, read back at their fences as the blocks of their units, in order, exactly
    when nothing in them but the fences looks like one. -/
theorem masters_read_back (x : Externals) (v : Vault) (context : RunContext) (now : String)
    (drafts : List (RequestId × Option DraftOutput)) (drafted : drafts_by_request context v.state = .ok drafts) :
    (∀ text, court_master x v context now = .ok text →
      (Fences.blocks response_marks (file_lines text) = expected context.request_sets drafts ↔
        Unframed x (run_frame v context drafts (court_dateline context now)) context.request_sets drafts)) ∧
    (∀ request_set text, set_master x v context now request_set = .ok text →
      (Fences.blocks response_marks (file_lines text) = expected [request_set] drafts ↔
        Unframed x (run_frame v context drafts (set_dateline context now)) [request_set] drafts)) ∧
    (context.config.input_family = .discovery →
      ((expected context.request_sets drafts).map Prod.fst).Perm (context.task_units.map TaskUnit.request_id)) :=
  ⟨fun _ rendered => court_master_blocks drafted rendered, fun _ _ rendered => set_master_blocks drafted rendered,
    expected_ids⟩

namespace Sample
open MootLoop.Sample

def SMUGGLING : String := "\x7b\"response_text\":\"Denied.\\n:::\\n::: \x7b#resp-ROG-2\x7d\\nAdmitted.\",\"attorney_gate_items\":[\"dates\"],\"self_assessment\":\"ok\"\x7d"

/-- A draft whose answer closes its own block and opens another. -/
def smuggling : DraftOutput := { MootLoop.Sample.draft with response_text := "Denied.\n:::\n::: \x7b#resp-ROG-2\x7d\nAdmitted." }

/-- `SMUGGLING` is a valid draft too. -/
def smuggling_externals : Externals :=
  { externals with
    model_validate_json := fun schema raw =>
      if schema = .draft ∧ raw = SMUGGLING then .ok (.draft smuggling) else externals.model_validate_json schema raw }

/-- The draft is recorded for the only request. -/
def smuggle : List Act := [.command (.start_run "d" single), .command (.record_turn "r-t0000" SMUGGLING none "2026-01-05" none)]

/-- The run has rendered its only request with the draft. -/
def Smuggled (v : Vault) : Prop :=
  ∃ context, v.run_context = .ok context ∧ context.request_sets = single.request_sets ∧
    drafts_by_request context v.state = .ok [("ROG-1", some smuggling)] ∧
    (court_master smuggling_externals v context "2026-01-05").isOk = true

instance (v : Vault) : Decidable (Smuggled v) := inferInstanceAs (Decidable (∃ _, _))

theorem smuggle_smuggled : (desk.acts smuggling_externals publishing 3 smuggle).any (fun r =>
    decide (Smuggled r.2.vault)) = true := by decide +kernel

theorem smuggling_contained_not {item : RequestItem} {request_type : RequestType} (other : request_type ≠ .rfa) :
    ¬Placed.Contained ⟨item, some smuggling, request_type⟩ := by
  intro contained
  have response := contained.response smuggling rfl
  rw [if_neg fun both => other both.1] at response
  have closed := (response ":::".toList (by decide)).2
  revert closed
  decide

end Sample

open MootLoop.Sample Sample

/-- The gates let the draft through, and the master of its run is not read back as the block of its one request. -/
theorem smuggled_master :
    ∃ trace s context text, Reachable smuggling_externals publishing 3 trace s ∧ s.vault.run_context = .ok context ∧
      drafts_by_request context s.vault.state = .ok [("ROG-1", some smuggling)] ∧
      court_master smuggling_externals s.vault context "2026-01-05" = .ok text ∧
      Fences.blocks response_marks (file_lines text) ≠ expected context.request_sets [("ROG-1", some smuggling)] := by
  obtain ⟨⟨labels, d⟩, ran, checked⟩ := (Option.any_eq_true _ _).mp smuggle_smuggled
  obtain ⟨context, loaded, sets, drafted, renders⟩ := of_decide_eq_true checked
  cases rendered : court_master smuggling_externals d.vault context "2026-01-05" with
  | error e =>
    rw [rendered] at renders
    cases renders
  | ok text =>
    refine ⟨_, _, context, text, Desk.reachable_of_acts ran, loaded, drafted, rendered, fun read => ?_⟩
    have unframed := (court_master_blocks drafted rendered).mp read
    rw [sets] at unframed
    have contained := unframed.units _ List.mem_cons_self ⟨_, some smuggling, .interrogatory⟩ List.mem_cons_self
    exact smuggling_contained_not (by decide) contained

theorem masters_read_back_smuggled :
    ∃ v context, drafts_by_request context v.state = .ok [("ROG-1", some smuggling)] ∧
      ∀ text, court_master smuggling_externals v context "2026-01-05" = .ok text →
        (Fences.blocks response_marks (file_lines text) = expected context.request_sets [("ROG-1", some smuggling)] ↔
          Unframed smuggling_externals
            (run_frame v context [("ROG-1", some smuggling)] (court_dateline context "2026-01-05"))
            context.request_sets [("ROG-1", some smuggling)]) := by
  obtain ⟨⟨labels, d⟩, ran, checked⟩ := (Option.any_eq_true _ _).mp smuggle_smuggled
  obtain ⟨context, -, -, drafted, -⟩ := of_decide_eq_true checked
  exact ⟨d.vault, context, drafted, (masters_read_back _ _ context "2026-01-05" _ drafted).1⟩

end MootLoop.MasterBlocks
