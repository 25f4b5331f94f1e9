import MootLoop.Audit

/-! The access audit: the head of an intact chain commits to every entry before it, and an append links to the entry
    before it exactly when no string of that entry has a character that ends a line for `str.splitlines` alone. -/

namespace MootLoop
open Lines

namespace Audit

variable {format : AuditFormat}

/-! ### Chains -/

/-- Every entry has its own hash and names the entry before it, the first one `prev`. -/
def Linked (format : AuditFormat) (prev : Digest) : List AccessAuditEntry → Prop
  | [] => True
  | entry :: rest => entry.prev_hash = prev ∧ entry.entry_hash = entry.expected_hash format ∧
      Linked format entry.entry_hash rest

/-- The head of a chain that starts at `prev`. -/
def head_from (prev : Digest) (entries : List AccessAuditEntry) : Digest :=
  (entries.getLast?.map (·.entry_hash)).getD prev

@[simp] theorem head_from_nil (prev : Digest) : head_from prev [] = prev := rfl

@[simp] theorem head_from_snoc (prev : Digest) (entries : List AccessAuditEntry) (last : AccessAuditEntry) :
    head_from prev (entries ++ [last]) = last.entry_hash := by
  simp [head_from]

theorem head_from_cons (prev : Digest) (entry : AccessAuditEntry) (rest : List AccessAuditEntry) :
    head_from prev (entry :: rest) = head_from entry.entry_hash rest := by
  cases rest using List.reverseRecOn with
  | nil => rfl
  | append_singleton rest last => rw [← List.cons_append, head_from_snoc, head_from_snoc]

theorem linked_append {prev : Digest} {before rest : List AccessAuditEntry} :
    Linked format prev (before ++ rest) ↔ Linked format prev before ∧ Linked format (head_from prev before) rest := by
  induction before generalizing prev with
  | nil => simp [Linked]
  | cons entry before ih => simp only [List.cons_append, Linked, ih, head_from_cons, and_assoc]

theorem utf8_injective : Function.Injective utf8 := by
  intro a b same
  have bytes : (String.ofList a).toByteArray = (String.ofList b).toByteArray := ByteArray.ext (Array.toList_inj.mp same)
  exact String.ofList_injective (String.toByteArray_inj.mp bytes)

/-- The canonical JSON of an entry determines every field but the hash. -/
theorem canonical_inj {a b : AccessAuditEntry} (same : a.canonical = b.canonical) (hash : a.entry_hash = b.entry_hash) :
    a = b := by
  unfold AccessAuditEntry.canonical at same
  have values := Json.object_inj (by rfl) same
  simp only [List.map_cons, List.map_nil, List.cons.injEq, String.toList_inj, and_true] at values
  obtain ⟨action, actor, matter_id, prev_hash, resource, schema_version, ts⟩ := values
  cases a
  cases b
  simp_all

/-- Two entries with the same hash are the same, if no two texts have the same SHA-256. -/
theorem entry_of_hash (collision_free : Function.Injective format.sha256) {a b : AccessAuditEntry}
    (own : a.entry_hash = a.expected_hash format) (own' : b.entry_hash = b.expected_hash format)
    (same : a.entry_hash = b.entry_hash) : a = b := by
  have hashed : a.expected_hash format = b.expected_hash format := by rw [← own, ← own', same]
  exact canonical_inj (utf8_injective (collision_free hashed)) same

/-- Chains from genesis that end in the same hash are the same chain. -/
theorem linked_unique (collision_free : Function.Injective format.sha256)
    (genesis_free : ∀ bytes, format.sha256 bytes ≠ GENESIS_PREV_HASH) {before before' : List AccessAuditEntry}
    {last last' : AccessAuditEntry} (linked : Linked format GENESIS_PREV_HASH (before ++ [last]))
    (linked' : Linked format GENESIS_PREV_HASH (before' ++ [last'])) (same : last.entry_hash = last'.entry_hash) :
    before ++ [last] = before' ++ [last'] := by
  induction before using List.reverseRecOn generalizing before' last last' with
  | nil =>
    obtain ⟨-, link, own, -⟩ := linked_append.mp linked
    obtain ⟨earlier', link', own', -⟩ := linked_append.mp linked'
    obtain rfl := entry_of_hash collision_free own own' same
    cases before' using List.reverseRecOn with
    | nil => rfl
    | append_singleton before' prev' =>
      -- the first entry names genesis, which no entry hashes to
      obtain ⟨-, -, own, -⟩ := linked_append.mp earlier'
      rw [head_from_snoc, link, head_from_nil, own] at link'
      exact absurd link'.symm (genesis_free _)
  | append_singleton before prev ih =>
    obtain ⟨earlier, link, own, -⟩ := linked_append.mp linked
    obtain ⟨earlier', link', own', -⟩ := linked_append.mp linked'
    obtain rfl := entry_of_hash collision_free own own' same
    rw [link, head_from_snoc] at link'
    cases before' using List.reverseRecOn with
    | nil =>
      obtain ⟨-, -, own, -⟩ := linked_append.mp earlier
      rw [head_from_nil, own] at link'
      exact absurd link' (genesis_free _)
    | append_singleton before' prev' =>
      rw [head_from_snoc] at link'
      rw [ih earlier earlier' link']

/-- Chains from genesis with one head are one chain. -/
theorem chain_of_head (collision_free : Function.Injective format.sha256)
    (genesis_free : ∀ bytes, format.sha256 bytes ≠ GENESIS_PREV_HASH) {listed listed' : List AccessAuditEntry}
    (linked : Linked format GENESIS_PREV_HASH listed) (linked' : Linked format GENESIS_PREV_HASH listed')
    (same : head_from GENESIS_PREV_HASH listed = head_from GENESIS_PREV_HASH listed') : listed = listed' := by
  have not_genesis : ∀ before last, Linked format GENESIS_PREV_HASH (before ++ [last]) →
      last.entry_hash ≠ GENESIS_PREV_HASH := by
    intro before last linked
    obtain ⟨-, -, own, -⟩ := linked_append.mp linked
    exact own ▸ genesis_free _
  cases listed using List.reverseRecOn with
  | nil =>
    cases listed' using List.reverseRecOn with
    | nil => rfl
    | append_singleton before' last' =>
      rw [head_from_nil, head_from_snoc] at same
      exact absurd same.symm (not_genesis before' last' linked')
  | append_singleton before last =>
    rw [head_from_snoc] at same
    cases listed' using List.reverseRecOn with
    | nil => exact absurd same (not_genesis before last linked)
    | append_singleton before' last' =>
      rw [head_from_snoc] at same
      exact linked_unique collision_free genesis_free linked linked' same

/-! ### The verifier -/

/-- The loop accepts exactly the linked chains; it finds a head among those it passes. -/
theorem validated_chain_from_iff {expected : Option Digest} {prev head : Digest} {found found' : Bool}
    {lines : List (List Char)} :
    validated_chain_from format expected prev found lines = .ok (head, found') ↔
      ∃ entries, lines.mapM format.validate_json = .ok entries ∧ Linked format prev entries ∧
        head = head_from prev entries ∧ found' = (found || entries.any (some ·.entry_hash = expected)) := by
  induction lines generalizing prev found with
  | nil =>
    constructor
    · intro h
      obtain ⟨rfl, rfl⟩ := Prod.mk.inj (Except.ok.inj h)
      exact ⟨[], rfl, trivial, rfl, by simp⟩
    · rintro ⟨entries, read, -, rfl, rfl⟩
      obtain rfl : [] = entries := Except.ok.inj read
      simp [validated_chain_from]
  | cons line lines ih =>
    simp only [validated_chain_from, List.mapM_cons]
    cases format.validate_json line with
    | error e =>
      constructor
      · intro h
        cases h
      · rintro ⟨entries, read, -⟩
        cases read
    | ok entry =>
      simp only [bind, Except.bind]
      constructor
      · intro h
        split at h
        · cases h
        · rename_i intact
          push Not at intact
          obtain ⟨entries, read, linked, rfl, rfl⟩ := ih.mp h
          refine ⟨entry :: entries, ?_, ⟨intact.1, intact.2, linked⟩, (head_from_cons _ _ _).symm, ?_⟩
          · rw [read]
            rfl
          · simp [Bool.or_assoc]
      · rintro ⟨entries, read, linked, rfl, rfl⟩
        cases rest : lines.mapM format.validate_json with
        | error e => simp [rest] at read
        | ok more =>
          obtain rfl : entry :: more = entries := by simpa [rest, pure, Except.pure] using read
          obtain ⟨link, own, linked⟩ := linked
          rw [if_neg (by simp [link, own])]
          exact ih.mpr ⟨more, rest, linked, head_from_cons _ _ _, by simp [Bool.or_assoc]⟩

theorem validated_chain_iff {log : List Char} {expected : Option Digest} {head : Digest} {found : Bool} :
    validated_chain format log expected = .ok (head, found) ↔
      ∃ listed, entries format log = .ok listed ∧ Linked format GENESIS_PREV_HASH listed ∧
        head = head_from GENESIS_PREV_HASH listed ∧
        found = (decide (expected = some GENESIS_PREV_HASH) || listed.any (some ·.entry_hash = expected)) :=
  validated_chain_from_iff

theorem verify_chain_iff {log : List Char} :
    verify_chain format log = true ↔ ∃ listed, entries format log = .ok listed ∧ Linked format GENESIS_PREV_HASH listed := by
  unfold verify_chain
  constructor
  · intro h
    cases checked : validated_chain format log none with
    | error e =>
      rw [checked] at h
      cases h
    | ok result =>
      obtain ⟨listed, read, linked, -⟩ := validated_chain_iff.mp checked
      exact ⟨listed, read, linked⟩
  · rintro ⟨listed, read, linked⟩
    rw [validated_chain_iff.mpr ⟨listed, read, linked, rfl, rfl⟩]
    rfl

theorem head_sha256_ok {log : List Char} {head : Digest} (h : head_sha256 format log = .ok head) :
    ∃ found, validated_chain format log none = .ok (head, found) := by
  unfold head_sha256 at h
  split at h
  · rename_i found checked
    obtain rfl := Except.ok.inj h
    exact ⟨found, checked⟩
  · cases h

/-- Where an intact head is contained, it is the head of the entries before it. -/
theorem contains_intact_head_prefix {log : List Char} {head : Digest}
    (h : contains_intact_head format log head = true) :
    ∃ listed attested, entries format log = .ok listed ∧ attested <+: listed ∧
      Linked format GENESIS_PREV_HASH attested ∧ head_from GENESIS_PREV_HASH attested = head := by
  unfold contains_intact_head at h
  split at h
  · rename_i last found checked
    obtain ⟨listed, read, linked, -, rfl⟩ := validated_chain_iff.mp checked
    simp only [Option.some.injEq, Bool.or_eq_true, decide_eq_true_eq, List.any_eq_true] at h
    rcases h with rfl | ⟨entry, mem, rfl⟩
    · exact ⟨listed, [], read, List.nil_prefix, trivial, rfl⟩
    · obtain ⟨before, rest, rfl⟩ := List.append_of_mem mem
      rw [← List.singleton_append, ← List.append_assoc] at linked read
      exact ⟨_, before ++ [entry], read, List.prefix_append _ _, (linked_append.mp linked).1,
        head_from_snoc _ _ _⟩
  · cases h

/-- For intact logs, the check for an attested head is the check that the log extends the one whose head it is. -/
theorem contains_intact_head_iff_prefix (collision_free : Function.Injective format.sha256)
    (genesis_free : ∀ bytes, format.sha256 bytes ≠ GENESIS_PREV_HASH) {log log' : List Char} {head : Digest}
    (valid : head_sha256 format log = .ok head) (valid' : verify_chain format log' = true) :
    ∃ listed listed', entries format log = .ok listed ∧ entries format log' = .ok listed' ∧
      (contains_intact_head format log' head = true ↔ listed <+: listed') := by
  obtain ⟨found, checked⟩ := head_sha256_ok valid
  obtain ⟨listed, read, linked, rfl, -⟩ := validated_chain_iff.mp checked
  obtain ⟨listed', read', linked'⟩ := verify_chain_iff.mp valid'
  refine ⟨listed, listed', read, read', ?_⟩
  constructor
  · intro contained
    obtain ⟨found, attested, read'', before, linked'', same⟩ := contains_intact_head_prefix contained
    obtain rfl := Except.ok.inj (read'.symm.trans read'')
    rwa [← chain_of_head collision_free genesis_free linked'' linked same]
  · rintro ⟨rest, rfl⟩
    rw [contains_intact_head, validated_chain_iff.mpr ⟨_, read', linked', rfl, rfl⟩]
    cases listed using List.reverseRecOn with
    | nil => simp
    | append_singleton before last => simp

/-! ### Lines of the log -/

/-- The log that entries one after the other make. -/
def written (listed : List AccessAuditEntry) : List Char := listed.flatMap fun entry => entry.model_dump_json ++ ['\n']

@[simp] theorem written_nil : written [] = [] := rfl

theorem written_snoc (listed : List AccessAuditEntry) (entry : AccessAuditEntry) :
    written (listed ++ [entry]) = written listed ++ (entry.model_dump_json ++ ['\n']) := by
  simp [written]

theorem written_terminated (listed : List AccessAuditEntry) : Terminated '\n' (written listed) := by
  induction listed using List.reverseRecOn with
  | nil => exact .inl rfl
  | append_singleton listed entry ih =>
    rw [written_snoc]
    exact ih.append (terminated_snoc _)

theorem mem_dump {entry : AccessAuditEntry} {c : Char} (h : c ∈ entry.model_dump_json) :
    32 ≤ c.toNat ∧ (127 ≤ c.toNat → ∃ text ∈ [entry.schema_version, entry.ts, entry.actor, entry.action, entry.matter_id,
      entry.resource, entry.prev_hash, entry.entry_hash], c ∈ text.toList) := by
  obtain ⟨visible, low | ⟨field, mem, part⟩⟩ := Json.mem_object h
  · exact ⟨visible, fun high => by omega⟩
  · refine ⟨visible, fun high => ?_⟩
    simp only [List.mem_cons, List.not_mem_nil, or_false] at mem ⊢
    have names : ∀ name ∈ ["schema_version", "ts", "actor", "action", "matter_id", "resource", "prev_hash", "entry_hash"],
        c ∉ name.toList := by
      intro name mem here
      have ascii : ∀ name ∈ ["schema_version", "ts", "actor", "action", "matter_id", "resource", "prev_hash", "entry_hash"],
          ∀ d ∈ name.toList, d.toNat < 127 := by decide
      have := ascii name mem c here
      omega
    rcases mem with rfl | rfl | rfl | rfl | rfl | rfl | rfl | rfl
    all_goals
      rcases part with part | part
      · exact absurd part (names _ (by simp))
      · exact ⟨_, by simp, part⟩

theorem mem_dump_of {entry : AccessAuditEntry} {text : String} (field : text ∈ [entry.schema_version, entry.ts,
      entry.actor, entry.action, entry.matter_id, entry.resource, entry.prev_hash, entry.entry_hash])
    {c : Char} (h : c ∈ text.toList) (high : 127 ≤ c.toNat) : c ∈ entry.model_dump_json :=
  Json.mem_object_of_value (List.mem_map_of_mem (f := String.toList) field) h high

theorem not_control_dump {entry : AccessAuditEntry} {c : Char} (control : c.toNat < 32) : c ∉ entry.model_dump_json :=
  fun mem => by
    have := (mem_dump mem).1
    omega

theorem no_cr_written (listed : List AccessAuditEntry) : '\r' ∉ written listed := by
  intro mem
  obtain ⟨entry, -, here⟩ := List.mem_flatMap.mp mem
  rcases List.mem_append.mp here with here | here
  · exact not_control_dump (by decide) here
  · exact absurd here (by decide)

/-- The writer takes for the last entry what follows the last line break in the log before its final newline. -/
theorem last_line {front line : List Char} (none_in : '\r' ∉ front)
    (starts : front = [] ∨ ∃ earlier c, front = earlier ++ [c] ∧ isLineBreak c = true)
    (unbroken : ∀ c ∈ line, isLineBreak c = false) (visible : ∃ c ∈ line, isSpace c = false) :
    (splitlines (front ++ (line ++ ['\n']))).reverse.find? (fun line => !line.all isSpace) = some line := by
  have found : ∃ lines, splitlines (front ++ (line ++ ['\n'])) = lines ++ [line] := by
    rcases starts with rfl | ⟨earlier, c, rfl, ends⟩
    · exact ⟨[], by rw [List.nil_append, splitlines, splitlines_from_line unbroken]; rfl⟩
    · have ne : c ≠ '\r' := fun same => none_in (by simp [same])
      obtain ⟨lines, split⟩ := @splitlines_from_break _ (line ++ ['\n']) _
        (fun mem => none_in (List.mem_append_left _ mem)) ne ends []
      refine ⟨lines, ?_⟩
      rw [List.append_assoc, List.singleton_append, splitlines, split, splitlines_from_line unbroken, List.nil_append]
  obtain ⟨lines, split⟩ := found
  obtain ⟨c, mem, not_space⟩ := visible
  have not_blank : line.all isSpace = false := by
    rw [List.all_eq_false]
    exact ⟨c, mem, by simp [not_space]⟩
  rw [split, List.reverse_append, List.reverse_singleton, List.singleton_append, List.find?_cons, not_blank]
  rfl

/-! ### Appends -/

/-- What the audit relies on of its serializer and of the digest. -/
structure Documented (format : AuditFormat) : Prop where
  reads_back : ∀ (entry : AccessAuditEntry) (blanks : List Char), blanks.all Json.isWhite = true →
    format.validate_json (entry.model_dump_json ++ blanks) = .ok entry
  /-- An entry is a JSON object with members. -/
  is_object : ∀ text entry, format.validate_json text = .ok entry → Json.opens_member text = true
  hexdigest : ∀ bytes, ∀ c ∈ (format.sha256 bytes).toList, c.isDigit ∨ c ∈ ['a', 'b', 'c', 'd', 'e', 'f']

/-- None of the strings has a separator. -/
def Access.unbroken (access : Access) : Bool :=
  [access.ts, access.actor, access.action, access.matter_id, access.resource].all fun text =>
    !text.toList.any isSeparator

def Hex (digest : Digest) : Prop := ∀ c ∈ digest.toList, c.toNat < 127

theorem Documented.hex (documented : Documented format) (bytes : FileBytes) : Hex (format.sha256 bytes) := by
  intro c mem
  rcases documented.hexdigest bytes c mem with digit | letter
  · simp only [Char.isDigit, Bool.and_eq_true, decide_eq_true_eq] at digit
    have bound := digit.2
    have : c.toNat ≤ 57 := bound
    omega
  · simp only [List.mem_cons, List.not_mem_nil, or_false] at letter
    rcases letter with rfl | rfl | rfl | rfl | rfl | rfl <;> decide

theorem genesis_hex : Hex GENESIS_PREV_HASH := by
  unfold Hex GENESIS_PREV_HASH
  rw [String.toList_ofList]
  intro c mem
  obtain ⟨-, rfl⟩ := List.mem_replicate.mp mem
  decide

section
variable {access : Access} {prev : Digest}

theorem create_linked : Linked format prev [create format access prev] := ⟨rfl, rfl, trivial⟩

/-- A line break in the line of an entry is a separator in one of its strings. -/
theorem line_break_in_dump (documented : Documented format) (hex : Hex prev) {c : Char}
    (mem : c ∈ (create format access prev).model_dump_json) (ends : isLineBreak c = true) :
    isSeparator c = true ∧ access.unbroken = false := by
  obtain ⟨visible, strings⟩ := mem_dump mem
  rw [isLineBreak_high visible] at ends
  refine ⟨ends, ?_⟩
  obtain ⟨text, field, here⟩ := strings (isSeparator_high ends)
  have high := isSeparator_high ends
  simp only [create, List.mem_cons, List.not_mem_nil, or_false] at field
  have broken : text ∈ [access.ts, access.actor, access.action, access.matter_id, access.resource] := by
    rcases field with rfl | rfl | rfl | rfl | rfl | rfl | rfl | rfl
    · have ascii : ∀ d ∈ "1.0".toList, d.toNat < 127 := by decide
      have := ascii c here
      omega
    any_goals simp
    · have := hex c here
      omega
    · have := documented.hex _ c here
      omega
  rw [Access.unbroken, List.all_eq_false]
  exact ⟨text, broken, by simpa using ⟨c, here, ends⟩⟩

theorem separator_in_dump (broken : access.unbroken = false) :
    ∃ c ∈ (create format access prev).model_dump_json, isLineBreak c = true := by
  rw [Access.unbroken, List.all_eq_false] at broken
  obtain ⟨text, field, has⟩ := broken
  have has : ∃ c ∈ text.toList, isSeparator c = true := by simpa using has
  obtain ⟨c, here, separator⟩ := has
  have high := isSeparator_high separator
  refine ⟨c, mem_dump_of ?_ here high, by rwa [isLineBreak_high (by omega)]⟩
  simp only [List.mem_cons, List.not_mem_nil, or_false] at field
  rcases field with rfl | rfl | rfl | rfl | rfl
  all_goals simp [create]

/-- The last separator of a list, and what follows it. -/
theorem last_break {text : List Char} (broken : ∃ c ∈ text, isLineBreak c = true) :
    ∃ front c back, text = front ++ c :: back ∧ isLineBreak c = true ∧ ∀ d ∈ back, isLineBreak d = false := by
  induction text with
  | nil => simp at broken
  | cons a text ih =>
    by_cases later : ∃ c ∈ text, isLineBreak c = true
    · obtain ⟨front, c, back, rfl, ends, unbroken⟩ := ih later
      exact ⟨a :: front, c, back, rfl, ends, unbroken⟩
    · obtain ⟨c, mem, ends⟩ := broken
      rcases List.mem_cons.mp mem with rfl | mem
      · exact ⟨[], c, text, rfl, ends, fun d mem => by simpa using fun h => later ⟨d, mem, h⟩⟩
      · exact absurd ⟨c, mem, ends⟩ later

theorem dump_closes (entry : AccessAuditEntry) : entry.model_dump_json.getLast? = some '}' := Json.object_closes _

theorem close_in_rest {entry : AccessAuditEntry} {front back : List Char} {c : Char}
    (split : entry.model_dump_json = front ++ c :: back) (ends : isLineBreak c = true) : '}' ∈ back := by
  have last := dump_closes entry
  rw [split, List.getLast?_append, Option.or_of_isSome (by simp)] at last
  cases back using List.reverseRecOn with
  | nil =>
    obtain rfl : c = '}' := by simpa using last
    exact absurd ends (by decide)
  | append_singleton back d =>
    rw [← List.cons_append, List.getLast?_concat] at last
    obtain rfl := Option.some.inj last
    simp

/-- In the rest of a line, after a character above ASCII, there is no entry. -/
theorem dump_fragment (documented : Documented format) {front back : List Char} {c : Char} (high : 127 ≤ c.toNat)
    (split : (create format access prev).model_dump_json = front ++ c :: back) : Json.opens_member back = false := by
  have plain : ∀ name ∈ ["schema_version", "ts", "actor", "action", "matter_id", "resource", "prev_hash", "entry_hash"],
      Json.Plain name.toList := by
    simp only [List.mem_cons, List.not_mem_nil, or_false]
    rintro name (rfl | rfl | rfl | rfl | rfl | rfl | rfl | rfl)
    all_goals exact ⟨by decide, _, _, rfl, by decide, by decide⟩
  refine Json.object_fragment rfl (fun name mem => ?_) (documented.hex _) high split
  obtain ⟨name, listed, rfl⟩ := List.mem_map.mp (show name ∈ ["schema_version", "ts", "actor", "action", "matter_id",
    "resource", "prev_hash", "entry_hash"].map String.toList from mem)
  exact plain name listed

/-- The writer reads back the hash of the last entry, unless one of its strings has a separator. -/
theorem last_entry_hash_written (documented : Documented format) (hex : Hex prev) (listed : List AccessAuditEntry) :
    (access.unbroken = true → last_entry_hash format (written (listed ++ [create format access prev])) =
      .ok (create format access prev).entry_hash) ∧
    (access.unbroken = false → ∃ e, last_entry_hash format (written (listed ++ [create format access prev])) = .error e) := by
  rw [written_snoc, last_entry_hash]
  have earlier : '\r' ∉ written listed := no_cr_written listed
  constructor
  · intro whole
    have unbroken : ∀ c ∈ (create format access prev).model_dump_json, isLineBreak c = false := by
      intro c mem
      by_contra ends
      have := (line_break_in_dump documented hex mem (by simpa using ends)).2
      simp [whole] at this
    have starts : written listed = [] ∨ ∃ front c, written listed = front ++ [c] ∧ isLineBreak c = true := by
      rcases written_terminated listed with empty | ended
      · exact .inl empty
      · obtain ⟨front, split⟩ := List.getLast?_eq_some_iff.mp ended
        exact .inr ⟨front, '\n', split, by decide⟩
    have visible : ∃ c ∈ (create format access prev).model_dump_json, isSpace c = false :=
      ⟨'{', List.mem_cons_self, by decide⟩
    have back := documented.reads_back (create format access prev) [] rfl
    rw [List.append_nil] at back
    rw [last_line earlier starts unbroken visible]
    simp [back, bind, Except.bind, pure, Except.pure]
  · intro broken
    obtain ⟨front, c, back, split, ends, unbroken⟩ := last_break (@separator_in_dump format _ prev broken)
    have mem : c ∈ (create format access prev).model_dump_json := by simp [split]
    have separator := (line_break_in_dump documented hex mem ends).1
    have fragment := dump_fragment documented (isSeparator_high separator) split
    have no_cr : '\r' ∉ written listed ++ (front ++ [c]) := by
      intro here
      rcases List.mem_append.mp here with here | here
      · exact earlier here
      · have here : '\r' ∈ (create format access prev).model_dump_json := by
          rw [split]
          simp only [List.mem_append, List.mem_cons] at here ⊢
          tauto
        exact not_control_dump (by decide) here
    have starts : written listed ++ (front ++ [c]) = [] ∨
        ∃ earlier d, written listed ++ (front ++ [c]) = earlier ++ [d] ∧ isLineBreak d = true :=
      .inr ⟨written listed ++ front, c, by simp, ends⟩
    have found := last_line no_cr starts unbroken ⟨'}', close_in_rest split ends, by decide⟩
    have text : written listed ++ (front ++ c :: back ++ ['\n']) =
        (written listed ++ (front ++ [c])) ++ (back ++ ['\n']) := by simp
    rw [split, text, found]
    cases read : format.validate_json back with
    | error e => exact ⟨e, by simp [read, bind, Except.bind]⟩
    | ok entry =>
      have opened := documented.is_object back entry read
      rw [fragment] at opened
      cases opened

end

/-- The entries that appends of these make, from a head on. -/
def records (format : AuditFormat) (prev : Digest) : List Access → List AccessAuditEntry
  | [] => []
  | access :: rest => create format access prev :: records format (create format access prev).entry_hash rest

theorem records_append (prev : Digest) (before rest : List Access) :
    records format prev (before ++ rest) =
      records format prev before ++ records format (head_from prev (records format prev before)) rest := by
  induction before generalizing prev with
  | nil => rfl
  | cons access before ih => rw [List.cons_append, records, ih, records, List.cons_append, head_from_cons]

theorem records_linked (prev : Digest) (accesses : List Access) : Linked format prev (records format prev accesses) := by
  induction accesses generalizing prev with
  | nil => trivial
  | cons access rest ih => exact ⟨rfl, rfl, ih _⟩

theorem Documented.head_hex (documented : Documented format) (accesses : List Access) :
    Hex (head_from GENESIS_PREV_HASH (records format GENESIS_PREV_HASH accesses)) := by
  cases accesses using List.reverseRecOn with
  | nil => exact genesis_hex
  | append_singleton accesses last =>
    rw [records_append, records, records, head_from_snoc]
    exact documented.hex _

/-- One append to the log that earlier ones made: it succeeds exactly when it can read the entry before it, and then
    it links to that entry. -/
theorem append_spec (documented : Documented format) (accesses : List Access) (access : Access) :
    let listed := records format GENESIS_PREV_HASH accesses
    ((∀ last, accesses.getLast? = some last → last.unbroken = true) →
      append format (written listed) access = .ok (create format access (head_from GENESIS_PREV_HASH listed),
        written (records format GENESIS_PREV_HASH (accesses ++ [access])))) ∧
    (∀ last, accesses.getLast? = some last → last.unbroken = false →
      ∃ e, append format (written listed) access = .error e) := by
  intro listed
  have read : append format (written listed) access = (do
      let prev_hash ← last_entry_hash format (written listed)
      let entry := create format access prev_hash
      return (entry, written listed ++ (entry.model_dump_json ++ ['\n']))) := by
    rw [append, (written_terminated listed).committed, normalize_newlines_of_no_cr (no_cr_written listed)]
  rw [read]
  have next : written (records format GENESIS_PREV_HASH (accesses ++ [access])) =
      written listed ++ ((create format access (head_from GENESIS_PREV_HASH listed)).model_dump_json ++ ['\n']) := by
    rw [records_append, records, records, written_snoc]
  rw [next]
  cases accesses using List.reverseRecOn with
  | nil => exact ⟨fun _ => rfl, fun last empty => by simp at empty⟩
  | append_singleton accesses last =>
    have last_listed : listed = records format GENESIS_PREV_HASH accesses ++
        [create format last (head_from GENESIS_PREV_HASH (records format GENESIS_PREV_HASH accesses))] := by
      show records format GENESIS_PREV_HASH (accesses ++ [last]) = _
      rw [records_append]
      rfl
    obtain ⟨found, lost⟩ := @last_entry_hash_written _ last _ documented (documented.head_hex accesses)
      (records format GENESIS_PREV_HASH accesses)
    rw [last_listed, head_from_snoc]
    constructor
    · intro whole
      rw [found (whole last (by simp))]
      rfl
    · intro last' is_last broken
      obtain rfl : last = last' := by simpa using is_last
      obtain ⟨e, failed⟩ := lost broken
      exact ⟨e, by rw [failed]; rfl⟩

theorem appends_written (documented : Documented format) {before accesses : List Access}
    {listed : List AccessAuditEntry} {log : List Char}
    (h : appends format (written (records format GENESIS_PREV_HASH before)) accesses = .ok (listed, log)) :
    records format GENESIS_PREV_HASH (before ++ accesses) = records format GENESIS_PREV_HASH before ++ listed ∧
      log = written (records format GENESIS_PREV_HASH (before ++ accesses)) := by
  induction accesses generalizing before listed log with
  | nil =>
    obtain ⟨rfl, rfl⟩ := Prod.mk.inj (Except.ok.inj h)
    simp
  | cons access accesses ih =>
    obtain ⟨succeeds, fails⟩ := append_spec documented before access
    by_cases whole : ∀ last, before.getLast? = some last → last.unbroken = true
    · rw [appends, succeeds whole] at h
      obtain ⟨⟨later, log'⟩, rest, h⟩ := bind_ok (show appends _ _ accesses >>= _ = _ from h)
      obtain ⟨rfl, rfl⟩ := Prod.mk.inj (Except.ok.inj h)
      obtain ⟨grown, text⟩ := ih rest
      rw [List.append_assoc, List.singleton_append] at grown text
      refine ⟨?_, text⟩
      rw [grown, records_append, records, records, List.append_assoc, List.singleton_append]
    · push Not at whole
      obtain ⟨last, is_last, broken⟩ := whole
      obtain ⟨e, failed⟩ := fails last is_last (by simpa using broken)
      rw [appends, failed] at h
      cases h

theorem appends_first (documented : Documented format) (access : Access) :
    appends format [] [access] =
      .ok (records format GENESIS_PREV_HASH [access], written (records format GENESIS_PREV_HASH [access])) := by
  have first := (append_spec documented [] access).1 (by simp)
  rw [records, written_nil] at first
  rw [appends, first]
  rfl

theorem entries_written (documented : Documented format) (listed : List AccessAuditEntry) :
    entries format (written listed) = .ok listed := by
  have lines : complete_jsonl_lines (written listed) = listed.map fun entry => entry.model_dump_json ++ ['\n'] := by
    induction listed using List.reverseRecOn with
    | nil => rfl
    | append_singleton listed entry ih =>
      have visible : (entry.model_dump_json ++ ['\n']).all isSpace = false := by
        rw [List.all_eq_false]
        exact ⟨'{', List.mem_cons_self, by decide⟩
      rw [complete_jsonl_lines] at ih ⊢
      rw [written_snoc, complete_append (written_terminated listed), complete_record (not_control_dump (by decide)),
        List.map_append, List.filter_append, ih]
      simp [visible]
  rw [entries, lines]
  clear lines
  induction listed with
  | nil => rfl
  | cons entry listed ih =>
    rw [List.map_cons, List.mapM_cons, documented.reads_back entry ['\n'] rfl, ih]
    rfl

/-- Every intact log extends the empty one. -/
theorem written_contains_genesis (documented : Documented format) (accesses : List Access) :
    contains_intact_head format (written (records format GENESIS_PREV_HASH accesses)) GENESIS_PREV_HASH = true := by
  rw [contains_intact_head,
    validated_chain_iff.mpr ⟨_, entries_written documented _, records_linked _ accesses, rfl, rfl⟩]
  simp

/-- After any successful appends the log verifies; the next append links to the last of them, and the log with it
    verifies, if and only if no string of that last one has a next-line character or a line or paragraph separator. -/
theorem next_append_iff (documented : Documented format) {accesses : List Access} {listed : List AccessAuditEntry}
    {log : List Char} (appended : appends format [] accesses = .ok (listed, log)) (access : Access) :
    (verify_chain format log = true ∧ ∃ entry log', append format log access = .ok (entry, log') ∧
      entry.prev_hash = ((listed.getLast?).map (·.entry_hash)).getD GENESIS_PREV_HASH ∧
      verify_chain format log' = true) ↔
    ∀ last, accesses.getLast? = some last → last.unbroken = true := by
  obtain ⟨all, rfl⟩ := @appends_written _ documented [] _ _ _ appended
  obtain rfl : records format GENESIS_PREV_HASH accesses = listed := all
  obtain ⟨succeeds, fails⟩ := append_spec documented accesses access
  have verifies : ∀ accesses, verify_chain format (written (records format GENESIS_PREV_HASH accesses)) = true :=
    fun accesses => verify_chain_iff.mpr ⟨_, entries_written documented _, records_linked _ accesses⟩
  rw [List.nil_append]
  constructor
  · rintro ⟨-, entry, log', succeeded, -⟩ last is_last
    by_contra broken
    obtain ⟨e, failed⟩ := fails last is_last (by simpa using broken)
    rw [succeeded] at failed
    cases failed
  · intro whole
    exact ⟨verifies accesses, _, _, succeeds whole, rfl, verifies _⟩

end Audit

namespace Sample
open Audit hiding append

def hex (bytes : FileBytes) : List Char := bytes.flatMap fun byte =>
  [Json.hex_digit (byte.toNat / 16), Json.hex_digit (byte.toNat % 16)]

/-- Reads what `model_dump_json` writes, and hashes a text to its own bytes. -/
def audit_format : AuditFormat where
  sha256 bytes := String.ofList ('1' :: hex bytes)
  validate_json text :=
    let names := ["schema_version", "ts", "actor", "action", "matter_id", "resource", "prev_hash", "entry_hash"]
    match Json.read_object (names.map String.toList) text with
    | some [schema_version, ts, actor, action, matter_id, resource, prev_hash, entry_hash] =>
      if Json.opens_member text then
        .ok ⟨.ofList schema_version, .ofList ts, .ofList actor, .ofList action, .ofList matter_id, .ofList resource,
          .ofList prev_hash, .ofList entry_hash⟩
      else .error (.validation "entry")
    | _ => .error (.validation "entry")

theorem hex_value_digit {n : Nat} (h : n < 16) : Json.hex_value (Json.hex_digit n) = n := by
  interval_cases n <;> rfl

theorem hex_injective : Function.Injective hex := by
  intro a
  induction a with
  | nil =>
    intro b same
    cases b with
    | nil => rfl
    | cons byte b => cases same
  | cons byte a ih =>
    intro b same
    cases b with
    | nil => cases same
    | cons byte' b =>
      obtain ⟨high, rest⟩ := List.cons.inj same
      obtain ⟨low, rest⟩ := List.cons.inj rest
      have bound := byte.toNat_lt
      have bound' := byte'.toNat_lt
      have high := congrArg Json.hex_value high
      have low := congrArg Json.hex_value low
      rw [hex_value_digit (by omega), hex_value_digit (by omega)] at high low
      rw [ih rest, UInt8.toNat_inj.mp (show byte.toNat = byte'.toNat by omega)]

theorem audit_format_injective : Function.Injective audit_format.sha256 := fun _ _ same =>
  hex_injective (List.cons.inj (String.ofList_injective same)).2

theorem audit_format_genesis_free (bytes : FileBytes) : audit_format.sha256 bytes ≠ GENESIS_PREV_HASH := by
  intro same
  exact absurd (List.cons.inj (String.ofList_injective same)).1 (by decide)

theorem documented_audit_format : Documented audit_format where
  reads_back entry blanks white := by
    have read : Json.read_object (["schema_version", "ts", "actor", "action", "matter_id", "resource", "prev_hash",
          "entry_hash"].map String.toList) (entry.model_dump_json ++ blanks) =
        some [entry.schema_version.toList, entry.ts.toList, entry.actor.toList, entry.action.toList,
          entry.matter_id.toList, entry.resource.toList, entry.prev_hash.toList, entry.entry_hash.toList] :=
      Json.read_object_object _ blanks white
    have opened : Json.opens_member (entry.model_dump_json ++ blanks) = true := Json.opens_member_object _ _ _ blanks
    simp only [audit_format, read, opened, if_true, String.ofList_toList]
  is_object text entry h := by
    simp only [audit_format] at h
    split at h
    · split at h
      · assumption
      · cases h
    · cases h
  hexdigest bytes c mem := by
    have digit : ∀ n < 16, (Json.hex_digit n).isDigit ∨ Json.hex_digit n ∈ ['a', 'b', 'c', 'd', 'e', 'f'] := by decide
    rw [audit_format, String.toList_ofList] at mem
    rcases List.mem_cons.mp mem with rfl | mem
    · exact .inl (by decide)
    · obtain ⟨byte, -, here⟩ := List.mem_flatMap.mp mem
      have bound := byte.toNat_lt
      rcases List.mem_cons.mp here with rfl | here
      · exact digit _ (by omega)
      · obtain rfl := List.mem_singleton.mp here
        exact digit _ (by omega)

def view (resource : String) : Access :=
  { ts := "2026-07-12T00:00:00+00:00", actor := "attorney", action := "view", matter_id := "acme", resource }

theorem views_link :
    let listed := records audit_format GENESIS_PREV_HASH [view "brief"]
    let log := written listed
    (verify_chain audit_format log = true ∧ ∃ entry log',
      Audit.append audit_format log (view "draft") = .ok (entry, log') ∧
      entry.prev_hash = ((listed.getLast?).map (·.entry_hash)).getD GENESIS_PREV_HASH ∧
      verify_chain audit_format log' = true) ↔
    ∀ last, [view "brief"].getLast? = some last → last.unbroken = true :=
  next_append_iff documented_audit_format (appends_first documented_audit_format _) (view "draft")

/-- The resource of the one entry has a line separator: the log still verifies, and takes no further entry. -/
theorem separated_view_blocks :
    ¬ ∀ (format : AuditFormat), Documented format → ∀ accesses listed log,
      appends format [] accesses = .ok (listed, log) → ∀ access,
      verify_chain format log = true ∧ ∃ entry log', Audit.append format log access = .ok (entry, log') ∧
        entry.prev_hash = ((listed.getLast?).map (·.entry_hash)).getD GENESIS_PREV_HASH ∧
        verify_chain format log' = true := by
  intro claimed
  obtain ⟨-, entry, log', succeeded, -⟩ := claimed audit_format documented_audit_format [view "page\u2028two"]
    (records audit_format GENESIS_PREV_HASH [view "page\u2028two"])
    (written (records audit_format GENESIS_PREV_HASH [view "page\u2028two"]))
    (appends_first documented_audit_format _) (view "brief")
  obtain ⟨-, fails⟩ := append_spec documented_audit_format [view "page\u2028two"] (view "brief")
  obtain ⟨e, failed⟩ := fails _ rfl (by decide)
  rw [succeeded] at failed
  cases failed

theorem views_commit :
    let log := written (records audit_format GENESIS_PREV_HASH [view "brief"])
    let log' := written (records audit_format GENESIS_PREV_HASH [view "brief", view "draft"])
    ∃ listed listed', entries audit_format log = .ok listed ∧ entries audit_format log' = .ok listed' ∧
      (Audit.contains_intact_head audit_format log' (head_from GENESIS_PREV_HASH (records audit_format GENESIS_PREV_HASH
        [view "brief"])) = true ↔ listed <+: listed') :=
  contains_intact_head_iff_prefix audit_format_injective audit_format_genesis_free
    (by
      rw [head_sha256, validated_chain_iff.mpr ⟨_, entries_written documented_audit_format _, records_linked _ _, rfl, rfl⟩])
    (verify_chain_iff.mpr ⟨_, entries_written documented_audit_format _, records_linked _ _⟩)

end Sample

end MootLoop
