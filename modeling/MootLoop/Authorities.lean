import MootLoop.Common
import MootLoop.Lib.Scan
import MootLoop.Lib.Slice
import Mathlib.Data.List.Dedup
import Mathlib.Data.List.Sort

/-! Excerpts of a captured opinion for the cite checker: the paragraphs that share the most terms with a proposition,
    each cut to a window around its first term. -/

namespace MootLoop.Authorities

open Slice

def MAX_PASSAGES : Nat := 8
def MAX_PASSAGE_CHARS : Nat := 4096
def MAX_PASSAGE_TOTAL_CHARS : Nat := 16384

/-- `[0-9a-f]`. -/
def is_hex (c : Char) : Bool := ('0' ≤ c && c ≤ '9') || ('a' ≤ c && c ≤ 'f')

/-- `[0-9a-f]{64}`. -/
def is_sha256 (text : String) : Bool := text.toList.length = 64 && text.toList.all is_hex

/-- The public opinion text captured from CourtListener. -/
structure OpinionAuthorityStoreRecord where
  citation_id : CitationId
  cluster_id : Nat
  opinion_ids : List Nat
  source_url : String
  fetched_at : String
  content_sha256 : Digest
  text : String
  some_cluster : 0 < cluster_id
  some_opinions : 1 ≤ opinion_ids.length ∧ opinion_ids.length ≤ 8
  content_hex : is_sha256 content_sha256 = true
  bounds : 1 ≤ text.toList.length ∧ text.toList.length ≤ 2000000

/-- One bounded, exact excerpt from a public authority. -/
structure AuthorityPassage where
  passage_id : String
  text : String
  start : Nat
  stop : Nat
  text_sha256 : Digest
  authority_sha256 : Digest
  source_url : String
  deriving DecidableEq, Repr

/-- `^passage-[0-9a-f]{16}$`. -/
def is_passage_id (text : String) : Bool :=
  "passage-".toList.isPrefixOf text.toList && text.toList.length = 24 && (text.toList.drop 8).all is_hex

/-- The field bounds and `validate_span`. -/
def AuthorityPassage.model_validate (passage : AuthorityPassage) : Except Error AuthorityPassage :=
  if !is_passage_id passage.passage_id then
    .error (.validation "passage_id: String should match pattern '^passage-[0-9a-f]\x7b16\x7d$'")
  else if passage.text.toList.length < 1 then .error (.validation "text: String should have at least 1 character")
  else if passage.text.toList.length > 4096 then
    .error (.validation "text: String should have at most 4096 characters")
  else if passage.stop ≤ 0 then .error (.validation "end: Input should be greater than 0")
  else if !is_sha256 passage.text_sha256 then
    .error (.validation "text_sha256: String should match pattern '^[0-9a-f]\x7b64\x7d$'")
  else if !is_sha256 passage.authority_sha256 then
    .error (.validation "authority_sha256: String should match pattern '^[0-9a-f]\x7b64\x7d$'")
  else if passage.start ≥ passage.stop then
    .error (.validation "authority passage offsets must describe a non-empty span")
  else .ok passage

/-! ### Paragraphs -/

/-- `\n{2,}` from a place on, after `newlines` line feeds. -/
def breaks_after : Nat → Nat → List Char → List (Nat × Nat)
  | place, newlines, [] => if newlines ≥ 2 then [(place - newlines, place)] else []
  | place, newlines, c :: rest =>
    if c = '\n' then breaks_after (place + 1) (newlines + 1) rest
    else if newlines ≥ 2 then (place - newlines, place) :: breaks_after (place + 1) 0 rest
    else breaks_after (place + 1) 0 rest

/-- A paragraph's place and its text. -/
structure Paragraph where
  start : Nat
  stop : Nat
  text : List Char
  deriving DecidableEq, Repr

/-- `_paragraphs`: what is left between the breaks, from `start` on. -/
def paragraphs_between (text : List Char) : Nat → List (Nat × Nat) → List Paragraph
  | start, [] => if start < text.length then [⟨start, text.length, text.drop start⟩] else []
  | start, (first, last) :: breaks =>
    if first > start then ⟨start, first, slice text start first⟩ :: paragraphs_between text last breaks
    else paragraphs_between text last breaks

def paragraphs (text : List Char) : List Paragraph := paragraphs_between text 0 (breaks_after 0 0 text)

/-! ### Selection -/

def is_token_char (c : Char) : Bool := ('a' ≤ c && c ≤ 'z') || ('0' ≤ c && c ≤ '9')

/-- `[a-z0-9]{3,}`, at the front of a text. -/
def token (text : List Char) : Option (List Char) :=
  let found := text.takeWhile is_token_char
  if found.length ≥ 3 then some found else none

def tokens (text : List Char) : List (List Char) := Scan.findall token 0 text

/-- `str.find`. -/
def find (part : List Char) : List Char → Option Nat
  | [] => if part = [] then some 0 else none
  | c :: rest => if part.isPrefixOf (c :: rest) then some 0 else (find part rest).map (· + 1)

/-- A paragraph and how many of the terms it has. -/
structure Ranked where
  score : Nat
  paragraph : Paragraph

section
variable (sha256 : String → Digest) (casefold : List Char → List Char)

def rank (terms : List (List Char)) (paragraph : Paragraph) : Ranked where
  score := (terms.filter (· ∈ tokens (casefold paragraph.text))).length
  paragraph := paragraph

/-- The paragraphs, those with the most terms first, in the order of the text among equals. -/
def ranked (authority : OpinionAuthorityStoreRecord) (terms : List (List Char)) : List Ranked :=
  ((paragraphs authority.text.toList).map (rank casefold terms)).insertionSort fun a b =>
    a.score > b.score ∨ a.score = b.score ∧ a.paragraph.start ≤ b.paragraph.start

/-- The part of the paragraph's text around its first term, at most `ceiling` long; `focus` is a place in the folded
    text, which may be longer. -/
def window (terms : List (List Char)) (text : List Char) (ceiling : Nat) : Nat × Nat :=
  let folded := casefold text
  let hits := terms.filterMap fun term => find term folded
  let focus := hits.min?.getD 0
  let relative_start := focus - ceiling / 2
  let relative_end := min text.length (relative_start + ceiling)
  let relative_start := relative_end - ceiling
  (relative_start, relative_end)

/-- The passage from `start` on. -/
def passage (authority : OpinionAuthorityStoreRecord) (start : Nat) (bounded : List Char) : AuthorityPassage :=
  let text_sha := sha256 (String.ofList bounded)
  let stop := start + bounded.length
  let identity := s!"{authority.content_sha256}\n{start}\n{stop}\n{text_sha}"
  let passage_digest := String.ofList ((sha256 identity).toList.take 16)
  { passage_id := "passage-" ++ passage_digest, text := String.ofList bounded, start, stop, text_sha256 := text_sha,
    authority_sha256 := authority.content_sha256, source_url := authority.source_url }

/-- The loop of `select_passages` over the ranked paragraphs. -/
def select_loop (authority : OpinionAuthorityStoreRecord) (terms : List (List Char)) :
    List Ranked → List AuthorityPassage → Nat → Except Error (List AuthorityPassage)
  | [], passages, _ => .ok passages
  | ⟨score, paragraph⟩ :: rest, passages, total =>
    if score = 0 ∧ passages ≠ [] then .ok passages
    else if passages.length = MAX_PASSAGES ∨ total ≥ MAX_PASSAGE_TOTAL_CHARS then .ok passages
    else
      let ceiling := min MAX_PASSAGE_CHARS (MAX_PASSAGE_TOTAL_CHARS - total)
      let (relative_start, relative_end) := window casefold terms paragraph.text ceiling
      let bounded := slice paragraph.text relative_start relative_end
      if bounded = [] then select_loop authority terms rest passages total
      else do
        let found ← (passage sha256 authority (paragraph.start + relative_start) bounded).model_validate
        select_loop authority terms rest (passages ++ [found]) (total + bounded.length)

/-- Selects bounded excerpts of an authority for a proposition's text. -/
def select_passages (authority : OpinionAuthorityStoreRecord) (proposition_text : String) :
    Except Error (List AuthorityPassage) :=
  let terms := (tokens (casefold proposition_text.toList)).dedup
  select_loop sha256 casefold authority terms (ranked casefold authority terms) [] 0

end

end MootLoop.Authorities
