import MootLoop.Authorities
import MootLoop.Citations
import MootLoop.Lib.Slice

/-! Citation propositions with their offsets: the paragraph around a citation, and the checks the record makes of it. -/

namespace MootLoop.Propositions

open Slice
open Authorities (is_sha256)

/-- One citation occurrence, the text asserting it, and where both lie in the original text. -/
structure CitationProposition where
  proposition_id : PropositionId
  citation_id : CitationId
  normalized_citation : String
  proposition_text : String
  proposition_start : Nat
  proposition_end : Nat
  citation_start : Nat
  citation_end : Nat
  source_text_sha256 : Digest
  source_turn_id : Option TurnId := none
  deriving DecidableEq, Repr

/-- The field bounds and `validate_offsets`. -/
def CitationProposition.model_validate (proposition : CitationProposition) : Except Error CitationProposition :=
  if proposition.proposition_text.toList.length < 1 then
    .error (.validation "proposition_text: String should have at least 1 character")
  else if !is_sha256 proposition.source_text_sha256 then
    .error (.validation "source_text_sha256: String should match pattern '^[0-9a-f]\x7b64\x7d$'")
  else if proposition.proposition_start ≥ proposition.proposition_end then
    .error (.validation "proposition offsets must describe a non-empty span")
  else if proposition.citation_start ≥ proposition.citation_end then
    .error (.validation "citation offsets must describe a non-empty span")
  else if ¬(proposition.proposition_start ≤ proposition.citation_start ∧
      proposition.citation_end ≤ proposition.proposition_end) then
    .error (.validation "citation offsets must lie inside the proposition span")
  else .ok proposition

/-- What `\r?\n[ \t]*` matches again and again at the front of a text, `inside` of a match already: how often, and how
    many characters. -/
def line_breaks : Bool → List Char → Nat × Nat
  | _, '\r' :: '\n' :: rest => ((line_breaks true rest).1 + 1, (line_breaks true rest).2 + 2)
  | _, '\n' :: rest => ((line_breaks true rest).1 + 1, (line_breaks true rest).2 + 1)
  | true, ' ' :: rest => ((line_breaks true rest).1, (line_breaks true rest).2 + 1)
  | true, '\t' :: rest => ((line_breaks true rest).1, (line_breaks true rest).2 + 1)
  | _, _ => (0, 0)

/-- The spans of `(?:\r?\n[ \t]*){2,}` from a place on, past `skip` characters. -/
def breaks_from : Nat → Nat → List Char → List (Nat × Nat)
  | _, _, [] => []
  | place, skip + 1, _ :: rest => breaks_from (place + 1) skip rest
  | place, 0, c :: rest =>
    let (count, chars) := line_breaks false (c :: rest)
    if count ≥ 2 then (place, place + chars) :: breaks_from (place + 1) (chars - 1) rest
    else breaks_from (place + 1) 0 rest

def paragraph_breaks (text : String) : List (Nat × Nat) := breaks_from 0 0 text.toList

section
variable (x : Externals)

/-- The proposition of an occurrence. -/
def proposition (text : String) (source_turn_id : Option TurnId) (occurrence : Citation × Nat × Nat) :
    Except Error CitationProposition :=
  let (citation, citation_start, citation_end) := occurrence
  let (start, stop) := paragraph_span x text citation_start citation_end
  let proposition_text := String.ofList (slice text.toList start stop)
  CitationProposition.model_validate
    { proposition_id := make_proposition_id x citation.citation_id proposition_text,
      citation_id := citation.citation_id, normalized_citation := citation.normalized, proposition_text,
      proposition_start := start, proposition_end := stop, citation_start, citation_end,
      source_text_sha256 := x.sha256 text, source_turn_id }

/-- Every citation occurrence with its bounded paragraph; one that fails its checks raises. -/
def extract_citation_propositions (text : String) (source_turn_id : Option TurnId) :
    Except Error (List CitationProposition) :=
  (extract_citation_occurrences x text source_turn_id).mapM (proposition x text source_turn_id)

end

end MootLoop.Propositions
