import MootLoop.Lib.Spans
import MootLoop.Lib.Walk
import MootLoop.Matter

/-! The parser of served discovery: the text of a document to numbered requests, with warnings about the numbering. -/

namespace MootLoop.DiscoveryParser
open Spans Slice

/-! ### Request types -/

/-- Canonical request-id prefix. -/
def id_prefix : RequestType → String
  | .interrogatory => "ROG"
  | .rfp => "RFP"
  | .rfa => "RFA"

/-- Plural section heading used for numbered-list parsing. -/
def heading_label : RequestType → String
  | .interrogatory => "INTERROGATORIES"
  | .rfp => "REQUESTS FOR PRODUCTION"
  | .rfa => "REQUESTS FOR ADMISSION"

/-- `marker_label(request_type).title()`. -/
def marker_title : RequestType → String
  | .interrogatory => "Interrogatory"
  | .rfp => "Request For Production"
  | .rfa => "Request For Admission"

/-- A canonical request id, such as `ROG-3` or `ROG-3(a)`. -/
def make_request_id (request_type : RequestType) (number : Nat) (subpart : Option String) : RequestId :=
  let base := s!"{id_prefix request_type}-{number}"
  match subpart with
  | some letter => s!"{base}({letter})"
  | none => base

/-! ### Patterns -/

section
-- The value of a decimal digit, as `int` reads it and as `\d` matches it.
variable (decimal : Char → Option Nat)

def is_digit (c : Char) : Bool := (decimal c).isSome

def is_blank (c : Char) : Bool := c == ' ' || c == '\t'

/-- `^` of a multi-line pattern. -/
def line_start (before : Option Char) : Bool := before.all (· == '\n')

/-- `$` of a multi-line pattern. -/
def line_end (text : List Char) : Bool := text.head?.all (· == '\n')

/-- Whether a character matches a capital letter when case is ignored: besides the two cases of it, the dotted and the
    dotless i match I, the long s matches S and the Kelvin sign matches K. -/
def same_letter (letter c : Char) : Bool :=
  c == letter || c == letter.toLower || (letter == 'I' && (c.toNat == 0x130 || c.toNat == 0x131)) ||
    (letter == 'S' && c.toNat == 0x17F) || (letter == 'K' && c.toNat == 0x212A)

/-- A word, case ignored. -/
def ignoring_case (word : List Char) : Piece Char := .all (word.map same_letter)

/-- `_spaced_label`. -/
def spaced_words : List (List Char) → Piece Char
  | [] => .nothing
  | [word] => ignoring_case word
  | word :: words => .seq (ignoring_case word) (.seq (.some_of isSpace) (spaced_words words))

def spaced_label (label : String) : Piece Char := spaced_words (label.toList.splitOn ' ')

/-- `(?:NO\.?|NUMBER|#)`. -/
def number_sign : Piece Char :=
  .either (.seq (ignoring_case "NO".toList) (.maybe (.one (· == '.')))) (.either (ignoring_case "NUMBER".toList) (.one (· == '#')))

-- Greedy pieces suffice: no piece reads a character the next one could begin with.
/-- `_verbose_marker_re`. -/
def verbose_marker (request_type : RequestType) : Pattern Char (List Char) :=
  .capture line_start
    (.seq (.many is_blank) (.seq (spaced_label (marker_label request_type)) (.seq (.some_of isSpace)
      (.seq number_sign (.many isSpace)))))
    (.some_of (is_digit decimal))
    (.seq (.many isSpace) (.maybe (.one fun c => c == ':' || c == '.')))
    (Piece.seq_strict (Piece.one_strict _))

/-- `_NUMBERED_RE`. -/
def numbered : Pattern Char (List Char) :=
  .capture line_start (.many is_blank) (.some_of (is_digit decimal)) (.seq (.one (· == '.')) (.some_of is_blank))
    (Piece.seq_strict (Piece.one_strict _))

/-- `_SUBPART_RE`, its letter captured. -/
def subpart : Pattern Char (List Char) :=
  .capture line_start (.seq (.many is_blank) (.one (· == '('))) (.one fun c => 'a' ≤ c && c ≤ 'z')
    (.seq (.one (· == ')')) (.many is_blank)) (Piece.one_strict _)

theorem spaced_words_strict (c : Char) (word : List Char) (words : List (List Char)) :
    (spaced_words ((c :: word) :: words)).Strict := by
  cases words with
  | nil => exact Piece.all_strict
  | cons next words => exact Piece.seq_strict Piece.all_strict

theorem spaced_heading_strict (request_type : RequestType) : (spaced_label (heading_label request_type)).Strict := by
  cases request_type
  · exact spaced_words_strict 'I' "NTERROGATORIES".toList []
  · exact spaced_words_strict 'R' "EQUESTS".toList ["FOR".toList, "PRODUCTION".toList]
  · exact spaced_words_strict 'R' "EQUESTS".toList ["FOR".toList, "ADMISSION".toList]

/-- `_heading_re`. -/
def heading (request_type : RequestType) : Pattern Char (List Char) :=
  .capture line_start (.many is_blank) (spaced_label (heading_label request_type))
    (.seq (.many is_blank) (.seq (.maybe (.one (· == ':'))) (.seq (.many is_blank) (.ahead line_end))))
    (spaced_heading_strict request_type)

/-! ### Requests -/

def MAX_STR_DIGITS : Nat := 4300

/-- `int(digits)`. -/
def int (digits : List Char) : Except Error Nat :=
  if digits.length > MAX_STR_DIGITS then
    .error (.value (s!"Exceeds the limit ({MAX_STR_DIGITS} digits) for integer string conversion: " ++
      s!"value has {digits.length} digits; use sys.set_int_max_str_digits() to increase the limit"))
  else .ok (digits.foldl (fun n c => n * 10 + (decimal c).getD 0) 0)

/-- A match with its digits read. -/
def numbered_match (m : Match (List Char)) : Except Error (Match Nat) := do
  return ⟨← int decimal m.value, m.start, m.stop⟩

/-- `pattern.finditer(text)`. -/
def finditer (pattern : Pattern Char (List Char)) (text : List Char) : List (Match (List Char)) :=
  Spans.finditer pattern 0 0 none text

/-- The markers of the requests: the verbose ones, and when there is none those of the list under the heading. -/
def request_marks (request_type : RequestType) (text : List Char) : List (Match (List Char)) :=
  let verbose := finditer (verbose_marker decimal request_type) text
  if verbose ≠ [] then verbose
  else
    match (finditer (heading request_type) text).head? with
    | none => []
    | some found =>
      (finditer (numbered decimal) (text.drop found.stop)).map (·.moved found.stop)

/-- The number of each marker and the text up to the next one. -/
def spans_to_items (text : List Char) : List (Match Nat) → List (Nat × String)
  | [] => []
  | m :: rest =>
    (m.value, strip (String.ofList (slice text m.stop (next_start text.length rest)))) :: spans_to_items text rest

/-- `_find_requests`. -/
def find_requests (request_type : RequestType) (text : List Char) : Except Error (List (Nat × String)) := do
  return spans_to_items text (← (request_marks decimal request_type text).mapM (numbered_match decimal))

end

/-- A request of a served document. -/
structure ParsedItem extends RequestItem where
  source_doc : String
  deriving DecidableEq, Repr

/-- The served requests of one type from one served document. -/
structure ParsedSet where
  request_type : RequestType
  set_number : Nat
  title : String
  items : List ParsedItem
  deriving DecidableEq, Repr

/-- A parsed set and what the parse warns about. -/
structure ParseReport where
  request_set : ParsedSet
  warnings : List String
  deriving DecidableEq, Repr

/-- `_subpart_items`: the lettered subparts of a request's text. -/
def subpart_items (request_type : RequestType) (number set_number : Nat) (source_doc : String) (body : List Char) :
    List (Match (List Char)) → List ParsedItem
  | [] => []
  | mark :: rest =>
    let letter := String.ofList mark.value
    { request_id := make_request_id request_type number (some letter), set_number, number, subpart := some letter,
      text := strip (String.ofList (slice body mark.stop (next_start body.length rest))), source_doc } ::
        subpart_items request_type number set_number source_doc body rest

/-- A request, followed by its subparts. -/
def request_items (request_type : RequestType) (set_number : Nat) (source_doc : String) (found : Nat × String) :
    List ParsedItem :=
  let (number, body) := found
  { request_id := make_request_id request_type number none, set_number, number, text := body, source_doc } ::
    subpart_items request_type number set_number source_doc body.toList (finditer subpart body.toList)

/-! ### Warnings -/

def duplicate_warning (request_type : RequestType) (number : Nat) : String :=
  s!"duplicate {id_prefix request_type} number {number}"

def gap_warning (request_type : RequestType) (missing : List Nat) : String :=
  s!"numbering gap: missing {id_prefix request_type} number(s) " ++ ", ".intercalate (missing.map toString)

/-- The numbers met again, each time they are. -/
def repeated : List Nat → List Nat → List Nat
  | _, [] => []
  | seen, n :: numbers => if n ∈ seen then n :: repeated (n :: seen) numbers else repeated (n :: seen) numbers

/-- The numbers between the smallest and the largest that are not there. -/
def missing (numbers : List Nat) : List Nat :=
  match numbers.min?, numbers.max? with
  | some low, some high => (List.range' low (high + 1 - low)).filter (· ∉ numbers)
  | _, _ => []

/-- `_numbering_warnings`. -/
def numbering_warnings (request_type : RequestType) (numbers : List Nat) : List String :=
  (repeated [] numbers).map (duplicate_warning request_type) ++
    (if missing numbers = [] then [] else [gap_warning request_type (missing numbers)])

/-- Parses a served document into its requests and the warnings about their numbers. -/
def parse_discovery_document (decimal : Char → Option Nat) (text : String) (request_type : RequestType)
    (source_doc : String) (set_number : Nat) : Except Error ParseReport := do
  let found ← find_requests decimal request_type text.toList
  let numbers := found.map (·.1)
  let warnings := numbering_warnings request_type numbers ++
    (if found = [] then ["no requests parsed — check the request type and document shape"] else [])
  let items := found.flatMap (request_items request_type set_number source_doc)
  return ⟨⟨request_type, set_number, s!"{marker_title request_type} Set {set_number}", items⟩, warnings⟩

end MootLoop.DiscoveryParser
