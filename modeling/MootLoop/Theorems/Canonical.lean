import MootLoop.Theorems.Commitment
import MootLoop.Lib.Trailing

/-! The canonical form of a text, and the edits that leave it as it is. -/

namespace MootLoop
open Trailing

/-- The lines of a text, ended by LF, CRLF or CR. -/
def text_lines : List Char → List (List Char)
  | [] => [[]]
  | '\r' :: '\n' :: rest => [] :: text_lines rest
  | c :: rest => if c = '\n' ∨ c = '\r' then [] :: text_lines rest else (text_lines rest).modifyHead (c :: ·)

/-- Two texts that are line by line the same up to trailing white space; after its last line a text has only blank ones. -/
def SameText (a b : String) : Prop :=
  ∀ i, Trailing.Same isSpace ((text_lines a.toList).getD i []) ((text_lines b.toList).getD i [])

/-! ### Lines of a normalized text -/

theorem text_lines_ne_nil (text : List Char) : text_lines text ≠ [] := by
  induction text using text_lines.induct with
  | case1 => simp [text_lines]
  | case2 rest => simp [text_lines]
  | case3 c rest not_crlf ends ih => simp [text_lines, not_crlf, ends]
  | case4 c rest not_crlf inside ih =>
    rw [text_lines, if_neg inside]
    · simpa using ih
    · exact not_crlf

theorem splitOn_normalize_newlines (text : List Char) : (normalize_newlines text).splitOn '\n' = text_lines text := by
  induction text using text_lines.induct with
  | case1 => rfl
  | case2 rest ih => rw [normalize_newlines, text_lines, List.splitOn_cons_eq_if_modifyHead, if_pos (by rfl), ih]
  | case3 c rest not_crlf ends ih =>
    have normalized : normalize_newlines (c :: rest) = '\n' :: normalize_newlines rest := by
      rcases ends with rfl | rfl
      · rw [normalize_newlines] <;> simp
      · rw [normalize_newlines]
        exact fun rest' => not_crlf rest' rfl
    rw [normalized, text_lines, if_pos ends, List.splitOn_cons_eq_if_modifyHead, if_pos (by rfl), ih]
    exact not_crlf
  | case4 c rest not_crlf inside ih =>
    have other : c ≠ '\n' ∧ c ≠ '\r' := not_or.mp inside
    have normalized : normalize_newlines (c :: rest) = c :: normalize_newlines rest := by
      rw [normalize_newlines]
      · exact fun _ same => absurd same other.2
      · exact other.2
    rw [normalized, text_lines, if_neg inside, List.splitOn_cons_eq_if_modifyHead, if_neg (by simpa using other.1), ih]
    exact not_crlf

/-- A line has no line ending in it. -/
theorem apart_of_mem_text_lines {text line : List Char} (mem : line ∈ text_lines text) : '\n' ∉ line ∧ '\r' ∉ line := by
  induction text using text_lines.induct generalizing line with
  | case1 =>
    obtain rfl := List.mem_singleton.mp mem
    exact ⟨List.not_mem_nil, List.not_mem_nil⟩
  | case2 rest ih =>
    rcases List.mem_cons.mp mem with rfl | later
    · exact ⟨List.not_mem_nil, List.not_mem_nil⟩
    · exact ih later
  | case3 c rest not_crlf ends ih =>
    rw [text_lines, if_pos ends] at mem
    · rcases List.mem_cons.mp mem with rfl | later
      · exact ⟨List.not_mem_nil, List.not_mem_nil⟩
      · exact ih later
    · exact not_crlf
  | case4 c rest not_crlf inside ih =>
    rw [text_lines, if_neg inside] at mem
    · obtain ⟨first, lines, split⟩ := List.exists_cons_of_ne_nil (text_lines_ne_nil rest)
      rw [split] at mem ih
      rcases List.mem_cons.mp mem with rfl | later
      · obtain ⟨no_lf, no_cr⟩ := ih List.mem_cons_self
        simp only [List.mem_cons, not_or]
        exact ⟨⟨fun same => inside (.inl same.symm), no_lf⟩, fun same => inside (.inr same.symm), no_cr⟩
      · exact ih (List.mem_cons_of_mem _ later)
    · exact not_crlf

/-- Lines without a line ending in them are the lines of the text they are joined to. -/
theorem text_lines_intercalate {lines : List (List Char)} (apart : ∀ line ∈ lines, '\n' ∉ line ∧ '\r' ∉ line)
    (some_line : lines ≠ []) : text_lines (['\n'].intercalate lines) = lines := by
  have normal : '\r' ∉ ['\n'].intercalate lines :=
    not_mem_intercalate (by decide) fun line mem => (apart line mem).2
  rw [← splitOn_normalize_newlines, normalize_newlines_of_no_cr normal,
    List.splitOn_intercalate _ (fun line mem => (apart line mem).1) some_line]

/-! ### The canonical form -/

/-- The lines of a text without their trailing white space. -/
def stripped_lines (text : String) : List (List Char) := (text_lines text.toList).map (rstrip_by isSpace)

theorem rstrip_apart {line : List Char} (apart : '\n' ∉ line ∧ '\r' ∉ line) :
    '\n' ∉ rstrip_by isSpace line ∧ '\r' ∉ rstrip_by isSpace line := by
  have fewer : rstrip_by isSpace line <+: line := List.rdropWhile_prefix _ line
  exact ⟨fun mem => apart.1 (fewer.subset mem), fun mem => apart.2 (fewer.subset mem)⟩

theorem stripped_lines_apart {text : String} : ∀ line ∈ stripped_lines text, '\n' ∉ line ∧ '\r' ∉ line := by
  intro line mem
  obtain ⟨raw, listed, rfl⟩ := List.mem_map.mp mem
  exact rstrip_apart (apart_of_mem_text_lines listed)

theorem getD_stripped_lines (text : String) (i : Nat) :
    (stripped_lines text).getD i [] = rstrip_by isSpace ((text_lines text.toList).getD i []) :=
  List.getD_map _ [] (rstrip_by isSpace)

theorem canonicalize_eq (text : String) :
    canonicalize text = String.ofList (['\n'].intercalate (trim (stripped_lines text)) ++ ['\n']) := by
  rw [canonicalize, splitOn_normalize_newlines]
  have trimmed := @rdropWhile_intercalate _ _ '\n' (stripped_lines text) fun line mem =>
    (stripped_lines_apart line mem).1
  exact congrArg (fun chars => String.ofList (chars ++ ['\n'])) trimmed

/-- Two texts have the same canonical form exactly when they are line by line the same up to trailing white space. -/
theorem canonicalize_eq_iff (a b : String) : canonicalize a = canonicalize b ↔ SameText a b := by
  rw [canonicalize_eq, canonicalize_eq, String.ofList_inj, List.append_cancel_right_eq]
  have joined : ['\n'].intercalate (trim (stripped_lines a)) = ['\n'].intercalate (trim (stripped_lines b)) ↔
      trim (stripped_lines a) = trim (stripped_lines b) :=
    ⟨intercalate_trim_inj (fun line mem => (stripped_lines_apart line mem).1) fun line mem => (stripped_lines_apart line mem).1,
      fun same => congrArg _ same⟩
  rw [joined, trim_eq_iff]
  simp only [getD_stripped_lines]
  exact forall_congr' fun i => same_iff.symm

/-- The canonical form has the lines of the text, stripped and without the blank ones at the end, and an empty one. -/
theorem text_lines_canonicalize (text : String) (i : Nat) :
    (text_lines (canonicalize text).toList).getD i [] = (stripped_lines text).getD i [] := by
  rw [canonicalize_eq, String.toList_ofList]
  have apart : ∀ line ∈ trim (stripped_lines text), '\n' ∉ line ∧ '\r' ∉ line := fun line mem =>
    stripped_lines_apart line ((List.rdropWhile_prefix _ _).subset mem)
  rcases eq_or_ne (trim (stripped_lines text)) [] with none_left | some_line
  · rw [none_left, ← getD_trim (stripped_lines text), none_left]
    rcases i with _ | _ | _ <;> rfl
  · rw [← intercalate_snoc [] some_line, text_lines_intercalate, getD_snoc_nil, getD_trim]
    · intro line mem
      rcases List.mem_append.mp mem with listed | last
      · exact apart line listed
      · obtain rfl := List.mem_singleton.mp last
        exact ⟨List.not_mem_nil, List.not_mem_nil⟩
    · simp

theorem canonicalize_idempotent (text : String) : canonicalize (canonicalize text) = canonicalize text := by
  rw [canonicalize_eq_iff]
  intro i
  rw [text_lines_canonicalize, getD_stripped_lines, same_iff]
  exact List.rdropWhile_idempotent _ _

/-! ### The attested digest -/

section
variable {μ φ : Type} {format : EvidenceFormat μ φ}

/-- The digest of a written master is that of its canonical form and the matter's digest. -/
theorem current_master_sha256_written {v : RunEvidence} {context : LaunchManifest μ φ} {events : List JournalEvent}
    (read : v.events format = .ok events) (started : (fold events).task ≠ none) (text : String) :
    { v with master := some (.file (utf8 text.toList)) }.current_master_sha256 format context =
      .ok (some (format.sha256_hex
        ((canonicalize text).toList ++ '\x1f' :: (RunEvidence.matter_sha256 format context).toList))) := by
  have written : { v with master := some (.file (utf8 text.toList)) }.canonical_master format =
      .ok (some (canonicalize text)) := by
    have same : { v with master := some (.file (utf8 text.toList)) }.events format = .ok events := read
    simp only [RunEvidence.canonical_master, same, bind, Except.bind, if_neg started, fromUTF8_utf8, String.ofList_toList]
    rfl
  rw [RunEvidence.current_master_sha256, written]
  rfl

/-- The canonical form is idempotent, and it and the attested digest of a master identify the texts that are line by line
    the same up to line endings, trailing white space and blank lines at the end, and no others. -/
theorem canonical_form_identifies :
    (∀ text, canonicalize (canonicalize text) = canonicalize text) ∧
    (∀ a b, canonicalize a = canonicalize b ↔ SameText a b) ∧
    ∀ (format : EvidenceFormat μ φ), Function.Injective format.sha256 → ∀ (v : RunEvidence) (context : LaunchManifest μ φ)
      (events : List JournalEvent), v.events format = .ok events → (fold events).task ≠ none → ∀ a b,
      ({ v with master := some (.file (utf8 a.toList)) }.current_master_sha256 format context =
        { v with master := some (.file (utf8 b.toList)) }.current_master_sha256 format context ↔ SameText a b) := by
  refine ⟨canonicalize_idempotent, canonicalize_eq_iff, fun format collision_free v context events read started a b => ?_⟩
  rw [current_master_sha256_written read started, current_master_sha256_written read started, ← canonicalize_eq_iff]
  constructor
  · intro same
    have hashed := Audit.utf8_injective (collision_free (Option.some.inj (Except.ok.inj same)))
    exact String.toList_inj.mp (List.append_cancel_right hashed)
  · intro same
    rw [same]

end

namespace Sample

theorem respaced_digest :
    SameText "I. \r\nDenied.\t\r\n\r\n" "I.\rDenied." ∧
    { reviewed with master := some (.file (utf8 "I. \r\nDenied.\t\r\n\r\n".toList)) }.current_master_sha256 evidence_format
        ⟨"acme", ["served"], audit_format.sha256 []⟩ =
      { reviewed with master := some (.file (utf8 "I.\rDenied.".toList)) }.current_master_sha256 evidence_format
        ⟨"acme", ["served"], audit_format.sha256 []⟩ := by
  obtain ⟨-, identified, digests⟩ := @canonical_form_identifies String String
  have respaced := (identified "I. \r\nDenied.\t\r\n\r\n" "I.\rDenied.").mp (by decide)
  exact ⟨respaced, (digests evidence_format audit_format_injective reviewed _ [.run_started launched] rfl (by decide) _ _).mpr
    respaced⟩

end Sample

end MootLoop
