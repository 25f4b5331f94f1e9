import MootLoop.Audit
import MootLoop.GateLedger
import MootLoop.Lib.Base64
import MootLoop.Lib.Dumps

/-! Signed links to the deliverables of a run: which files may be downloaded, the token of a link, and the checks of a
    token that comes back. -/

namespace MootLoop.Links

open Json (Doc Literal dump_object loads quote_ascii)

/-! ### Gating -/

inductive LinkFault where
  | invalid_name (name : String) (run_id : RunId)
  | unknown_deliverable (name : String) (run_id : RunId)
  | malformed
  | mismatch
  | undecodable
  | not_object
  | missing_claim
  | expired
  deriving DecidableEq, Repr

/-- What the functions here raise: `ExportLinkError`, `ExportNotReadyError`, `VaultBoundaryError`, the errors of the run,
    and the `UnicodeEncodeError` and the `TypeError` that a token outside ASCII ends in. -/
inductive LinkError where
  | export_link (fault : LinkFault)
  | export_not_ready (name : String) (blockers : List String)
  | boundary
  | run (error : Error)
  | unicode_encode
  | type_error

structure Gating where
  is_draft : Bool
  requires_export_ready : Bool
  deriving DecidableEq, Repr

/-- `_gating`. -/
def gating (name : String) : Gating :=
  let lower := ascii_lower name
  if isIn ".draft." lower then ⟨true, false⟩
  else if ".docx".toList.isSuffixOf lower.toList then ⟨false, true⟩
  else ⟨false, false⟩

/-- Whether a name has parts that lead out of the directory of the run, or is no relative path at all. -/
def path_shaped (name : String) : Bool :=
  name.toList.head? = some '/' || '\\' ∈ name.toList || (path_parts name).any (· ∈ ["", ".", ".."])

/-- `_resolve_deliverable`: the text of the file. -/
def resolve_deliverable (v : Vault) (name : String) : Except LinkError String :=
  if path_shaped name then .error (.export_link (.invalid_name name v.run_id))
  else if '\x00' ∈ name.toList then .error .boundary
  else
    match v.deliverables.get? name with
    | none => .error (.export_link (.unknown_deliverable name v.run_id))
    | some text => .ok text

/-- Whether the latest seal claims a deliverable. -/
def latest_seal_contains (v : Vault) (name : String) : Bool :=
  (latest_export_seal v).any fun sealed => sealed.artifacts.any (·.path = s!"deliverables/{v.run_id}/{name}")

section
variable (t : Publishing)

/-- `_require_downloadable`. -/
def require_downloadable (v : Vault) (name : String) : Except LinkError Unit :=
  let requires := (gating name).requires_export_ready
  if !requires && !latest_seal_contains v name then .ok ()
  else
    match export_ready t v with
    | .error error => .error (.run error)
    | .ok (ready, blockers) =>
      if requires && !ready then .error (.export_not_ready name blockers)
      else
        match sealed_export_state t v with
        | .error error => .error (.run error)
        | .ok check =>
          if check.status = .valid then .ok ()
          else .error (.export_not_ready name
            (if "export_seal" ∈ blockers then blockers else blockers ++ ["export_seal"]))

end

/-! ### Tokens -/

/-- What the audience of a token is. -/
structure TokenClaims (φ : Type) where
  matter_id : String
  run_id : RunId
  doc : String
  exp : φ
  deriving DecidableEq

/-- The signing key's HMAC, the floats, and the conversions of what `json.loads` returns. Times are microseconds since the
    epoch. -/
structure LinkFormat (φ : Type) where
  hmac : FileBytes → FileBytes
  /-- `datetime.timestamp`. -/
  timestamp : Int → φ
  /-- `a > b`. -/
  past : φ → φ → Bool
  float_repr : φ → Literal
  parse_float : List Char → φ
  str : Doc φ → String
  float : Doc φ → Option φ
  /-- How `json.loads` decodes bytes. -/
  read_text : FileBytes → Option (List Char)

/-- What the program relies on. -/
structure LinkFormat.Documented {φ : Type} (f : LinkFormat φ) : Prop where
  formed : ∀ now, (f.float_repr (f.timestamp now)).Wellformed
  fraction : ∀ now, (f.float_repr (f.timestamp now)).integral = false
  parse_repr : ∀ now, f.parse_float (f.float_repr (f.timestamp now)).text = f.timestamp now
  str_text : ∀ text : String, f.str (.string (text.toList.map Char.toNat)) = text
  float_float : ∀ exp, f.float (.float exp) = some exp
  read_ascii : ∀ text, (∀ c ∈ text, Json.Ascii c) → f.read_text (utf8 text) = some text

section
variable {φ : Type} (f : LinkFormat φ)

/-- `_b64u`. -/
def b64u (raw : FileBytes) : List Char := Base64.unpadded (Base64.encode raw)

/-- `_b64u_decode`. -/
def b64u_decode (text : List Char) : Option FileBytes := Base64.decode (Base64.padded text)

def isAscii (text : List Char) : Bool := text.all fun c => c.toNat < 128

/-- `_mac`. -/
def mac (body : List Char) : Except LinkError (List Char) :=
  if isAscii body then .ok (b64u (f.hmac (utf8 body))) else .error .unicode_encode

/-- The JSON text of the claims, its keys sorted. -/
def payload (claims : TokenClaims φ) : List Char :=
  dump_object [("d".toList, quote_ascii claims.doc.toList), ("exp".toList, (f.float_repr claims.exp).text),
    ("m".toList, quote_ascii claims.matter_id.toList), ("r".toList, quote_ascii claims.run_id.toList)]

def sign (claims : TokenClaims φ) : Except LinkError (List Char) :=
  let body := b64u (utf8 (payload f claims))
  match mac f body with
  | .error error => .error error
  | .ok mac => .ok (body ++ '.' :: mac)

/-- `token.split(".", 1)`, for a token with a dot. -/
def split_token (token : List Char) : Option (List Char × List Char) :=
  match token.dropWhile (· ≠ '.') with
  | [] => none
  | _ :: mac => some (token.takeWhile (· ≠ '.'), mac)

/-- `LinkSigner.verify`. -/
def verify (token : List Char) : Except LinkError (List (List Nat × Doc φ)) :=
  match split_token token with
  | none => .error (.export_link .malformed)
  | some (body, presented) =>
    match mac f body with
    | .error error => .error error
    | .ok mac =>
      if !isAscii presented then .error .type_error
      else if presented ≠ mac then .error (.export_link .mismatch)
      else
        match (b64u_decode body).bind f.read_text with
        | none => .error (.export_link .undecodable)
        | some text =>
          match loads f.parse_float text with
          | .error _ => .error (.export_link .undecodable)
          | .ok (.object claims) => .ok claims
          | .ok _ => .error (.export_link .not_object)

def claim (name : String) (claims : List (List Nat × Doc φ)) : Option (Doc φ) :=
  claims.lookup (name.toList.map Char.toNat)

/-- `validate_token`. -/
def validate_token (token : List Char) (now : Int) : Except LinkError (TokenClaims φ) :=
  match verify f token with
  | .error error => .error error
  | .ok claims =>
    match claim "m" claims, claim "r" claims, claim "d" claims, (claim "exp" claims).bind f.float with
    | some matter_id, some run_id, some doc, some exp =>
      if f.past (f.timestamp now) exp then .error (.export_link .expired)
      else .ok { matter_id := f.str matter_id, run_id := f.str run_id, doc := f.str doc, exp }
    | _, _, _, _ => .error (.export_link .missing_claim)

/-! ### Links -/

structure SignedLink where
  token : List Char
  matter_id : String
  run_id : RunId
  doc : String
  is_draft : Bool
  expires_at : Int
  deriving DecidableEq, Repr

def SignedLink.url (link : SignedLink) : String := "/api/download?token=" ++ String.ofList link.token

/-- Ten minutes. -/
def MAX_TTL : Int := 600 * 1000000

/-- `mint_link`. -/
def mint_link (t : Publishing) (v : Vault) (matter_id doc : String) (now ttl : Int) : Except LinkError SignedLink :=
  match resolve_deliverable v doc with
  | .error error => .error error
  | .ok _ =>
    match require_downloadable t v doc with
    | .error error => .error error
    | .ok _ =>
      let expires_at := now + min (max ttl 0) MAX_TTL
      match sign f { matter_id, run_id := v.run_id, doc, exp := f.timestamp expires_at } with
      | .error error => .error error
      | .ok token =>
        .ok { token, matter_id, run_id := v.run_id, doc, is_draft := (gating doc).is_draft, expires_at }

/-- `resolve_for_download`. -/
def resolve_for_download (t : Publishing) (v : Vault) (doc : String) : Except LinkError String :=
  match require_downloadable t v doc with
  | .error error => .error error
  | .ok _ => resolve_deliverable v doc

end

end MootLoop.Links
