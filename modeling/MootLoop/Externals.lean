import MootLoop.Run

/-! What the program takes from outside the repository: validation of persona JSON, timestamps,
    digests, regular expressions, difflib, number formatting and eyecite. Every definition that needs
    one of them takes it as a parameter. -/

namespace MootLoop

inductive AuthorityType where
  | case
  | state_statute
  | federal_statute
  | regulation
  | court_rule
  | other
  deriving DecidableEq, Repr

/-- A citation eyecite or a rule pattern found in a text, with its offsets into that text. -/
structure FoundCitation where
  raw_text : String
  normalized : String
  authority_type : AuthorityType
  start : Nat
  stop : Nat
  deriving DecidableEq, Repr

/-- The patterns the gates search served text for. -/
inductive TextPattern where
  | money
  | date
  | quote
  deriving DecidableEq, Repr

structure Externals where
  /-- `model_validate_json` of a persona schema: the output, or the located errors. -/
  model_validate_json : SchemaName → String → Except (List (String × String)) TurnOutput
  /-- The canonical JSON of an output. -/
  json_dumps : TurnOutput → String
  /-- `datetime.fromisoformat`. -/
  fromisoformat : String → Option Instant
  sha256 : String → Digest
  /-- `str.lower`. -/
  lower : String → String
  /-- `str.upper`. -/
  upper : String → String
  /-- The spans of a pattern in a text, in order. -/
  findall : TextPattern → String → List String
  /-- Whether the condemned hedge occurs in a text, NFKC-normalized. -/
  hedge_search : String → Bool
  /-- The text under a named section heading, up to the next heading. -/
  section_body : String → String → Option String
  /-- `difflib.SequenceMatcher` over tokens. -/
  sequence_similarity : String → String → Rat
  /-- `f"{value:.3f}"`. -/
  format_fixed3 : Rat → String
  /-- `f"{value:g}"`. -/
  format_general : Rat → String
  /-- The citations of a text, in the order they are found. -/
  find_citations : String → List FoundCitation
  /-- The spans of the paragraph breaks of a text, in order. -/
  paragraph_breaks : String → List (Nat × Nat)

end MootLoop
