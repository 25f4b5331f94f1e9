import MootLoop.Links
import MootLoop.Theorems.Amounts
import MootLoop.Theorems.Ledger

/-! Tokens read back, and what the gate of a download guarantees: a minted token is valid until it expires and for its own
    audience alone, and a deliverable behind the gate is the sealed one. -/

namespace MootLoop.Links

open Json (Doc loads)

/-! ### Tokens read back -/

section
variable {φ : Type} {f : LinkFormat φ}

theorem isAscii_of {text : List Char} (low : ∀ c ∈ text, c.toNat < 128) : isAscii text = true :=
  List.all_eq_true.mpr fun c mem => decide_eq_true (low c mem)

theorem b64u_ascii (raw : FileBytes) : isAscii (b64u raw) = true := by
  refine isAscii_of fun c mem => ?_
  obtain ⟨bits, six, rfl⟩ := Base64.mem_unpadded mem
  exact (Base64.letter_plain bits six).2.2

theorem b64u_no_dot (raw : FileBytes) : ∀ c ∈ b64u raw, c ≠ '.' := by
  intro c mem
  obtain ⟨bits, six, rfl⟩ := Base64.mem_unpadded mem
  exact (Base64.letter_plain bits six).2.1

theorem b64u_decode_b64u (raw : FileBytes) : b64u_decode (b64u raw) = some raw := by
  rw [b64u_decode, b64u, Base64.padded_unpadded, Base64.decode_encode]

theorem mac_b64u (raw : FileBytes) : mac f (b64u raw) = .ok (b64u (f.hmac (utf8 (b64u raw)))) := by
  rw [mac, if_pos (b64u_ascii raw)]

theorem split_token_append {body : List Char} (no_dot : ∀ c ∈ body, c ≠ '.') (mac : List Char) :
    split_token (body ++ '.' :: mac) = some (body, mac) := by
  have passes : ∀ c ∈ body, decide (c ≠ '.') = true := fun c mem => decide_eq_true (no_dot c mem)
  have stops : decide ('.' ≠ '.') = false := rfl
  rw [split_token, List.dropWhile_append_of_pos passes, List.takeWhile_append_of_pos passes,
    List.dropWhile_cons_of_neg (by rw [stops]; exact Bool.false_ne_true),
    List.takeWhile_cons_of_neg (by rw [stops]; exact Bool.false_ne_true), List.append_nil]

/-- The token of some claims. -/
def token_of (f : LinkFormat φ) (claims : TokenClaims φ) : List Char :=
  b64u (utf8 (payload f claims)) ++ '.' :: b64u (f.hmac (utf8 (b64u (utf8 (payload f claims)))))

theorem sign_eq (claims : TokenClaims φ) : sign f claims = .ok (token_of f claims) := by
  rw [sign, mac_b64u]
  rfl

/-- The object that the payload of some claims is read as. -/
def claims_doc (claims : TokenClaims φ) : List (List Nat × Doc φ) :=
  [("d".toList.map Char.toNat, .string (claims.doc.toList.map Char.toNat)),
    ("exp".toList.map Char.toNat, .float claims.exp),
    ("m".toList.map Char.toNat, .string (claims.matter_id.toList.map Char.toNat)),
    ("r".toList.map Char.toNat, .string (claims.run_id.toList.map Char.toNat))]

section
variable (documented : f.Documented) {claims : TokenClaims φ} {instant : Int}
  (exp : claims.exp = f.timestamp instant)
include documented exp

theorem ascii_payload : ∀ c ∈ payload f claims, Json.Ascii c := by
  have digits : ∀ c ∈ (f.float_repr claims.exp).text, Json.Ascii c := by
    intro c mem
    rw [exp] at mem
    have shown : Json.Shown [] c := (documented.formed instant).shown c mem
    obtain ⟨shown | rfl, low | ⟨_, in_none, _⟩⟩ := shown
    · exact .of_range ⟨shown, low⟩
    · cases in_none
    · decide
    · cases in_none
  refine Json.ascii_of_object ?_
  simp only [List.forall_mem_cons]
  exact ⟨Json.ascii_of_quote _, digits, Json.ascii_of_quote _, Json.ascii_of_quote _,
    fun _ mem => absurd mem List.not_mem_nil⟩

theorem loads_payload : loads f.parse_float (payload f claims) = .ok (.object (claims_doc claims)) := by
  have written : Json.Written f.parse_float (.object (claims_doc claims)) (payload f claims) := by
    have distinct : ((claims_doc claims).map Prod.fst).Nodup := by
      have keys : (claims_doc claims).map Prod.fst = ["d", "exp", "m", "r"].map fun key => key.toList.map Char.toNat := rfl
      rw [keys]
      decide
    refine Json.written_dump_object ?_ distinct
    refine .cons ⟨rfl, Json.quoted_quote_ascii _⟩ (.cons ⟨rfl, ?_⟩
      (.cons ⟨rfl, Json.quoted_quote_ascii _⟩ (.cons ⟨rfl, Json.quoted_quote_ascii _⟩ .nil)))
    rw [exp]
    exact ⟨_, documented.formed instant, documented.fraction instant, documented.parse_repr instant, rfl⟩
  have ends : Json.Ends [] := fun _ mem => absurd mem (Option.not_mem_none _)
  have no_ints : (Doc.object (claims_doc claims)).ints = [] := rfl
  have read := Json.loads_written written ends
  rw [List.append_nil, no_ints, if_pos fun _ mem => absurd mem List.not_mem_nil] at read
  rw [read]
  rfl

theorem verify_token_of : verify f (token_of f claims) = .ok (claims_doc claims) := by
  rw [verify, token_of, split_token_append (b64u_no_dot _)]
  simp only [mac_b64u, b64u_ascii, Bool.not_true, Bool.false_eq_true, if_false, ne_eq, not_true_eq_false,
    b64u_decode_b64u, Option.bind_some]
  rw [documented.read_ascii _ (ascii_payload documented exp)]
  simp only [loads_payload documented exp]

/-- Signed claims are valid until they expire, and come back as they were signed. -/
theorem validate_token_of (now : Int) : validate_token f (token_of f claims) now =
    if f.past (f.timestamp now) claims.exp then .error (.export_link .expired) else .ok claims := by
  have of_m : claim "m" (claims_doc claims) = some (.string (claims.matter_id.toList.map Char.toNat)) := rfl
  have of_r : claim "r" (claims_doc claims) = some (.string (claims.run_id.toList.map Char.toNat)) := rfl
  have of_d : claim "d" (claims_doc claims) = some (.string (claims.doc.toList.map Char.toNat)) := rfl
  have of_exp : claim "exp" (claims_doc claims) = some (.float claims.exp) := rfl
  rw [validate_token, verify_token_of documented exp]
  simp only [of_m, of_r, of_d, of_exp, Option.bind_some, documented.float_float, documented.str_text]

end

section
variable {t : Publishing} {v : Vault} {matter_id doc : String} {issued ttl : Int} {link : SignedLink}

theorem mint_ok {text : String} (found : resolve_deliverable v doc = .ok text)
    (open_ : require_downloadable t v doc = .ok ()) : mint_link f t v matter_id doc issued ttl =
      .ok { token := token_of f ⟨matter_id, v.run_id, doc, f.timestamp (issued + min (max ttl 0) MAX_TTL)⟩, matter_id,
            run_id := v.run_id, doc, is_draft := (gating doc).is_draft,
            expires_at := issued + min (max ttl 0) MAX_TTL } := by
  rw [mint_link, found, open_]
  simp only [sign_eq]

/-- What a link that was minted says, and that the gate was open for it. -/
theorem mint_link_ok (minted : mint_link f t v matter_id doc issued ttl = .ok link) :
    require_downloadable t v doc = .ok () ∧ link.matter_id = matter_id ∧ link.run_id = v.run_id ∧ link.doc = doc ∧
      link.expires_at = issued + min (max ttl 0) MAX_TTL ∧
      link.token = token_of f { matter_id, run_id := v.run_id, doc, exp := f.timestamp link.expires_at } := by
  cases found : resolve_deliverable v doc with
  | error e =>
    rw [mint_link, found] at minted
    cases minted
  | ok text =>
    cases open_ : require_downloadable t v doc with
    | error e =>
      rw [mint_link, found, open_] at minted
      cases minted
    | ok allowed =>
      rw [mint_ok found open_] at minted
      obtain rfl := Except.ok.inj minted
      exact ⟨rfl, rfl, rfl, rfl, rfl, rfl⟩

theorem minted_bounds (minted : mint_link f t v matter_id doc issued ttl = .ok link) :
    issued ≤ link.expires_at ∧ link.expires_at ≤ issued + MAX_TTL := by
  obtain ⟨-, -, -, -, expires_at, -⟩ := mint_link_ok minted
  have positive : 0 ≤ MAX_TTL := by decide
  omega

theorem validate_minted (documented : f.Documented) (minted : mint_link f t v matter_id doc issued ttl = .ok link)
    (now : Int) : validate_token f link.token now =
      if f.past (f.timestamp now) (f.timestamp link.expires_at) then .error (.export_link .expired)
      else .ok { matter_id, run_id := v.run_id, doc, exp := f.timestamp link.expires_at } := by
  obtain ⟨-, -, -, -, -, token⟩ := mint_link_ok minted
  rw [token]
  exact validate_token_of documented rfl now

/-- The token of a minted link is valid until it expires, at most ten minutes after it was issued, and for its own matter,
    run and deliverable. -/
theorem minted_valid (documented : f.Documented) (minted : mint_link f t v matter_id doc issued ttl = .ok link)
    (now : Int) : issued ≤ link.expires_at ∧ link.expires_at ≤ issued + MAX_TTL ∧
      validate_token f link.token now =
        if f.past (f.timestamp now) (f.timestamp link.expires_at) then .error (.export_link .expired)
        else .ok { matter_id, run_id := v.run_id, doc, exp := f.timestamp link.expires_at } := by
  obtain ⟨lives, bounded⟩ := minted_bounds minted
  exact ⟨lives, bounded, validate_minted documented minted now⟩

end

namespace Sample

/-- Seconds with a fraction, as `float.__repr__` writes times that are not past counting. -/
def repr (now : Int) : Json.Literal where
  negative := now < 0
  whole :=
    let digits := Nat.toDigits 10 (now.natAbs / 1000000)
    if digits.head? = some '0' then ['0'] else digits
  fraction :=
    let digits := Nat.toDigits 10 (now.natAbs % 1000000)
    if now.natAbs % 1000000 = 0 then some ['0'] else some (List.replicate (6 - digits.length) '0' ++ digits)
  exponent := none

def microseconds (seconds : Json.Literal) : Int :=
  let fraction := if seconds.fraction = some ['0'] then 0 else Nat.ofDigitChars 10 (seconds.fraction.getD []) 0
  let time : Int := Nat.ofDigitChars 10 seconds.whole 0 * 1000000 + fraction
  if seconds.negative then -time else time

/-- A float is the literal that its repr writes. -/
def format : LinkFormat Json.Literal where
  hmac raw := [UInt8.ofNat raw.length, raw.foldl (fun sum byte => 31 * sum + byte) 7]
  timestamp := repr
  past a b := microseconds b < microseconds a
  float_repr seconds := seconds
  parse_float text := ((Json.match_number text).map Prod.fst).getD (repr 0)
  str
    | .string codes => String.ofList (codes.map Char.ofNat)
    | _ => ""
  float
    | .float seconds => some seconds
    | _ => none
  read_text raw := (String.fromUTF8? ⟨raw.toArray⟩).map String.toList

theorem repr_formed (now : Int) : (repr now).Wellformed where
  whole := by
    rw [repr]
    dsimp only
    split
    · exact ⟨List.cons_ne_nil _ _, by decide⟩
    · exact ⟨Nat.toDigits_ne_nil, fun c mem => Json.digit_of_mem mem⟩
  no_zeros := by
    rw [repr]
    dsimp only
    split
    · exact fun _ => rfl
    · next other => exact fun zero => absurd zero other
  fraction := by
    intro digits written
    rw [repr] at written
    dsimp only at written
    split at written
    · obtain rfl := Option.some.inj written
      exact ⟨List.cons_ne_nil _ _, by decide⟩
    · obtain rfl := Option.some.inj written
      refine ⟨List.append_ne_nil_of_right_ne_nil _ Nat.toDigits_ne_nil, fun c mem => ?_⟩
      rcases List.mem_append.mp mem with pad | digit
      · rw [List.eq_of_mem_replicate pad]
        rfl
      · exact Json.digit_of_mem digit
  exponent := fun _ _ _ written => by cases written

theorem documented : format.Documented where
  formed := repr_formed
  fraction now := by
    have written : (repr now).fraction.isNone = false := by
      rw [repr]
      dsimp only
      split <;> rfl
    rw [Json.Literal.integral]
    exact (congrArg (· && _) written).trans (Bool.false_and _)
  parse_repr now := by
    have ends : Json.Ends [] := fun _ mem => absurd mem (Option.not_mem_none _)
    have read := Json.match_number_text (repr_formed now) ends
    rw [List.append_nil] at read
    exact congrArg (fun found => (Option.map Prod.fst found).getD (repr 0)) read
  str_text text := by
    have same : (text.toList.map Char.toNat).map Char.ofNat = text.toList := by
      rw [List.map_map]
      exact List.map_id'' (fun c => Char.ofNat_toNat c) _
    exact (congrArg String.ofList same).trans String.ofList_toList
  float_float _ := rfl
  read_ascii text _ := by
    have read : (String.fromUTF8? ⟨(utf8 text).toArray⟩).map String.toList = some text := by
      rw [fromUTF8_utf8, Option.map_some, String.toList_ofList]
    exact read

def notes : Vault := { run_id := "run-1", deliverables := (∅ : Dict String String).insert "notes.md" "# Notes" }

def publishing : Publishing where
  digest _ := ""
  render_docx text _ := .ok text
  residue_findings _ := []
  page _ _ text := text

/-- A link to a master, asked for with a life of an hour. -/
theorem minted_valid_notes : ∃ link, mint_link format publishing notes "acme" "notes.md" 0 3600000000 = .ok link ∧
    ∀ now, validate_token format link.token now =
      if format.past (repr now) (repr link.expires_at) then .error (.export_link .expired)
      else .ok { matter_id := "acme", run_id := "run-1", doc := "notes.md", exp := repr link.expires_at } := by
  have plain : path_shaped "notes.md" = false := by decide +kernel
  have found : resolve_deliverable notes "notes.md" = .ok "# Notes" := by
    rw [resolve_deliverable, plain]
    rfl
  have open_ : require_downloadable publishing notes "notes.md" = .ok () := rfl
  exact ⟨_, mint_ok found open_, fun now => (minted_valid documented (mint_ok found open_) now).2.2⟩

end Sample

/-! ### Tokens that are valid -/

theorem validate_congr {token token' : List Char} (same : split_token token = split_token token') (now : Int) :
    validate_token f token now = validate_token f token' now := by
  rw [validate_token, validate_token, verify, verify, same]

/-- A valid token carries the code of its own body. -/
theorem validate_mac {token : List Char} {now : Int} {claims : TokenClaims φ}
    (valid : validate_token f token now = .ok claims) : ∃ body presented, split_token token = some (body, presented) ∧
      mac f body = .ok presented := by
  rw [validate_token] at valid
  cases verified : verify f token with
  | error e =>
    rw [verified] at valid
    cases valid
  | ok pairs =>
    rw [verify] at verified
    cases parts : split_token token with
    | none =>
      rw [parts] at verified
      cases verified
    | some part =>
      obtain ⟨body, presented⟩ := part
      rw [parts] at verified
      dsimp only at verified
      cases code : mac f body with
      | error e =>
        rw [code] at verified
        cases verified
      | ok expected =>
        rw [code] at verified
        dsimp only at verified
        split at verified
        · cases verified
        split at verified
        · cases verified
        next same =>
        exact ⟨body, presented, rfl, by rw [code, not_not.mp same]⟩

end

/-! ### The gate of a download -/

section
variable {t : Publishing} {v : Vault} {name text : String}

/-- A seal of the exact artifacts on disk, linked to a valid attestation. -/
structure Sealed (t : Publishing) (v : Vault) (sealed : ExportSeal) : Prop where
  latest : latest_export_seal v = some sealed
  attested : ∃ check, attestation_state t v = .ok check ∧ check.status = .valid
  linked : ∃ attestation, latest_attestation v = some attestation ∧
    sealed.attestation_id = attestation.attestation_id ∧
    some sealed.attestation_commitment_sha256 = attestation.commitment_sha256
  artifacts : sealed.artifacts = export_artifacts t v

theorem ite_eq_map {ε α β : Type} {p : Prop} [Decidable p] {g : α → β} {a b : Except ε α} {a' b' : Except ε β}
    (yes : a' = a.map g) (no : b' = b.map g) : (if p then a' else b') = (if p then a else b).map g := by
  split
  · exact yes
  · exact no

/-- The check that requires a seal is the other one, and then the state of the seal. -/
theorem check_state_seal {attestation : Attestation} (latest : latest_attestation v = some attestation) :
    check_state t v true = (check_state t v false).map fun check =>
      if check.status = .valid then export_seal_state t v attestation (latest_export_seal v) else check := by
  unfold check_state
  rw [latest]
  refine ite_eq_map rfl (ite_eq_map rfl (ite_eq_map rfl ?_))
  cases v.run_context with
  | error e => rfl
  | ok context =>
    exact ite_eq_map rfl (ite_eq_map rfl (ite_eq_map rfl (ite_eq_map rfl (ite_eq_map rfl (ite_eq_map rfl
      (ite_eq_map rfl rfl))))))

theorem sealed_of_valid {check : AttestationCheck} (state : sealed_export_state t v = .ok check)
    (valid : check.status = .valid) : ∃ sealed, Sealed t v sealed := by
  rw [sealed_export_state] at state
  cases latest : latest_attestation v with
  | none =>
    unfold check_state at state
    rw [latest] at state
    obtain rfl := Except.ok.inj state
    cases valid
  | some attestation =>
    rw [check_state_seal latest] at state
    cases unsealed : check_state t v false with
    | error e =>
      rw [unsealed] at state
      cases state
    | ok was =>
      rw [unsealed] at state
      simp only [Except.map, Except.ok.injEq] at state
      by_cases was_valid : was.status = .valid
      · rw [if_pos was_valid] at state
        cases claimed : latest_export_seal v with
        | none =>
          rw [claimed, export_seal_state] at state
          rw [← state] at valid
          cases valid
        | some sealed =>
          rw [claimed, export_seal_state] at state
          split at state
          · rw [← state] at valid
            cases valid
          · next intact =>
            simp only [not_or, not_not] at intact
            obtain ⟨same_id, same_commitment, -, same_artifacts⟩ := intact
            exact ⟨sealed, claimed, ⟨was, unsealed, was_valid⟩, ⟨attestation, latest, same_id, same_commitment⟩,
              same_artifacts.symm⟩
      · rw [if_neg was_valid] at state
        rw [state] at was_valid
        exact absurd valid was_valid

/-- A file whose path is no draft's has a name that is no draft's. -/
theorem clean_name (clean : isIn ".draft." (ascii_lower name) = false) : is_draft_name name = false := by
  rw [Bool.eq_false_iff] at clean ⊢
  intro draft
  refine clean ((Amounts.isIn_iff _ _).mpr (((Amounts.isIn_iff _ _).mp draft).trans ?_))
  have suffix : (path_name name).toList <:+ name.toList := by
    rw [path_name, String.toList_ofList]
    have of_reverse := List.takeWhile_prefix (p := fun c => decide (c ≠ '/')) (l := name.toList.reverse)
    rw [← List.reverse_suffix, List.reverse_reverse] at of_reverse
    exact of_reverse
  rw [ascii_lower, ascii_lower, String.toList_ofList, String.toList_ofList]
  exact (suffix.map Char.toLower).isInfix

theorem mem_export_artifacts {artifact : ArtifactDigest} : artifact ∈ export_artifacts t v ↔
    ∃ file ∈ v.deliverables.entries, is_draft_name file.1 = false ∧ artifact =
      { path := s!"deliverables/{v.run_id}/{file.1}", sha256 := t.digest (.bytes file.2),
        size_bytes := file.2.utf8ByteSize } := by
  rw [export_artifacts, List.mem_map]
  simp only [List.mem_insertionSort, List.mem_filter, Bool.not_eq_true', and_assoc]
  exact exists_congr fun file => and_congr_right fun _ => and_congr_right fun _ => eq_comm

theorem resolve_ok (found : resolve_deliverable v name = .ok text) : v.deliverables.get? name = some text := by
  rw [resolve_deliverable] at found
  split at found
  · cases found
  split at found
  · cases found
  cases there : v.deliverables.get? name with
  | none =>
    rw [there] at found
    cases found
  | some found_text =>
    rw [there] at found
    cases found
    rfl

/-- A download passes the gate and then finds its file. -/
theorem download_ok (downloaded : resolve_for_download t v name = .ok text) :
    require_downloadable t v name = .ok () ∧ v.deliverables.get? name = some text := by
  rw [resolve_for_download] at downloaded
  cases open_ : require_downloadable t v name with
  | error e =>
    rw [open_] at downloaded
    cases downloaded
  | ok allowed =>
    rw [open_] at downloaded
    exact ⟨rfl, resolve_ok downloaded⟩

theorem requires_clean (requires : (gating name).requires_export_ready = true) :
    isIn ".draft." (ascii_lower name) = false := by
  rw [Bool.eq_false_iff]
  intro draft
  rw [gating, if_pos draft] at requires
  cases requires

/-- What the gate lets through without looking is neither a clean DOCX nor in the latest seal. -/
theorem require_ok (open_ : require_downloadable t v name = .ok ()) :
    ((gating name).requires_export_ready = false ∧ latest_seal_contains v name = false) ∨
      ∃ check, sealed_export_state t v = .ok check ∧ check.status = .valid ∧
        ∃ ready blockers, export_ready t v = .ok (ready, blockers) ∧
          ((gating name).requires_export_ready = true → ready = true) := by
  rw [require_downloadable] at open_
  split at open_
  · next free =>
    simp only [Bool.and_eq_true, Bool.not_eq_true'] at free
    exact .inl free
  cases built : export_ready t v with
  | error e =>
    rw [built] at open_
    cases open_
  | ok ledger =>
    rw [built] at open_
    obtain ⟨ready, blockers⟩ := ledger
    dsimp only at open_
    split at open_
    · cases open_
    next passes =>
    cases state : sealed_export_state t v with
    | error e =>
      rw [state] at open_
      cases open_
    | ok check =>
      rw [state] at open_
      dsimp only at open_
      split at open_
      · next valid =>
        refine .inr ⟨check, rfl, valid, ready, blockers, rfl, fun requires => ?_⟩
        rw [requires, Bool.true_and, Bool.not_eq_true', Bool.not_eq_false] at passes
        exact passes
      · cases open_

/-- The file behind a download that is a clean DOCX or that the latest seal claims is the sealed one. -/
theorem download_sealed (downloaded : resolve_for_download t v name = .ok text)
    (gated : (gating name).requires_export_ready = true ∨ latest_seal_contains v name = true) :
    ∃ sealed, Sealed t v sealed ∧ ∃ artifact ∈ sealed.artifacts,
      artifact.path = s!"deliverables/{v.run_id}/{name}" ∧ artifact.sha256 = t.digest (.bytes text) ∧
      artifact.size_bytes = text.utf8ByteSize := by
  obtain ⟨open_, found⟩ := download_ok downloaded
  rcases require_ok open_ with ⟨not_required, not_claimed⟩ | ⟨check, state, valid, -⟩
  · rw [not_required, not_claimed] at gated
    rcases gated with h | h <;> cases h
  obtain ⟨sealed, intact⟩ := sealed_of_valid state valid
  refine ⟨sealed, intact, ?_⟩
  rw [intact.artifacts]
  rcases gated with requires | claimed
  · exact ⟨_, mem_export_artifacts.mpr ⟨(name, text), Dict.get?_eq_some.mp found, clean_name (requires_clean requires),
      rfl⟩, rfl, rfl, rfl⟩
  · rw [latest_seal_contains, intact.latest] at claimed
    simp only [Option.any_some, List.any_eq_true, decide_eq_true_eq] at claimed
    obtain ⟨artifact, mem, path⟩ := claimed
    rw [intact.artifacts] at mem
    obtain ⟨file, there, -, rfl⟩ := mem_export_artifacts.mp mem
    have same_name : file.1 = name := by
      have chars := congrArg String.toList path
      simp only [toString, String.toList_append, List.append_cancel_left_eq] at chars
      exact String.toList_inj.mp chars
    have same_text : file.2 = text := by
      have other := Dict.get?_eq_some.mpr there
      rw [same_name, found] at other
      exact (Option.some.inj other).symm
    refine ⟨_, mem, ?_, ?_, ?_⟩
    · rw [same_name]
    · rw [same_text]
    · rw [same_text]

/-- A clean DOCX may be downloaded only from a run that is fit to be exported. -/
theorem download_exportable (downloaded : resolve_for_download t v name = .ok text)
    (requires : (gating name).requires_export_ready = true) :
    ∃ context, v.run_context = .ok context ∧ Exportable t v context := by
  rcases require_ok (download_ok downloaded).1 with ⟨not_required, -⟩ | ⟨-, -, -, ready, blockers, ledger, is_ready⟩
  · rw [not_required] at requires
    cases requires
  cases built : build_ledger t v with
  | error e =>
    rw [export_ready, built] at ledger
    cases ledger
  | ok doc =>
    rw [export_ready, built] at ledger
    cases ledger
    cases loaded : v.run_context with
    | error e =>
      rw [build_ledger, loaded] at built
      cases built
    | ok context => exact ⟨context, rfl, (export_ready_iff loaded built).mp (is_ready requires)⟩

end

end MootLoop.Links
