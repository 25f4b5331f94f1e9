import MootLoop.Lib.Loads
import MootLoop.Splitlines

/-! The `stream-json` output of the command-line client: its events, and the one that carries the reply. -/

namespace MootLoop.StreamJson
open Json (Doc DecodeError loads)

/-- An event: the members of its object. -/
abbrev Event (φ : Type) := List (List Nat × Doc φ)

/-- The code points of a text. -/
def code_points (text : String) : List Nat := text.toList.map Char.toNat

/-- `str.strip`. -/
def strip_line (line : List Char) : List Char := ((line.dropWhile isSpace).reverse.dropWhile isSpace).reverse

variable {φ : Type} (parse_float : List Char → φ)

/-- What the loop takes from a line: its object, if it is one. Only a `JSONDecodeError` is caught. -/
def line_event (line : List Char) : Except DecodeError (Option (Event φ)) :=
  if strip_line line = [] then .ok none
  else
    match loads parse_float (strip_line line) with
    | .ok (.object members) => .ok (some members)
    | .ok _ => .ok none
    | .error .invalid => .ok none
    | .error e => .error e

/-- The object that the whole output is, if it is one. -/
def whole_document (stdout : List Char) : Except DecodeError (List (Event φ)) :=
  match loads parse_float stdout with
  | .ok (.object members) => .ok [members]
  | .ok _ => .ok []
  | .error .invalid => .ok []
  | .error e => .error e

/-- `_json_events`. -/
def json_events (stdout : List Char) : Except DecodeError (List (Event φ)) := do
  let events := (← (splitlines stdout).mapM (line_event parse_float)).filterMap id
  if !events.isEmpty then return events else whole_document parse_float stdout

/-- `event.get("type") == "result"`. -/
def is_result (event : Event φ) : Bool :=
  match event.lookup (code_points "type") with
  | some (.string type) => type = code_points "result"
  | _ => false

/-- `_final_payload`; `events[-1]` has no value when there is no event. -/
def final_payload (events : List (Event φ)) : Option (Event φ) := (events.reverse.find? is_result).or events.getLast?

/-! ### Output -/

/-- An object and a line that is a text of it. -/
structure Record where
  members : Event φ
  line : List Char
  written : Json.Written parse_float (.object members) line

variable {parse_float}

/-- The output of records, each on a line that a newline ends. -/
def output (records : List (Record parse_float)) : List Char := records.flatMap fun r => r.line ++ ['\n']

namespace Record

/-- The lines that `str.splitlines` makes of the record's one. -/
def pieces (r : Record parse_float) : List (List Char) := splitlines (r.line ++ ['\n'])

/-- No character of the line but its newline ends a line. -/
def Unbroken (r : Record parse_float) : Prop := ∀ c ∈ r.line, isSeparator c = false

/-- No integer of the record has more digits than Python reads. -/
def Readable (r : Record parse_float) : Prop := ∀ n ∈ Doc.member_ints r.members, Json.Small n

end Record

/-- The records are decoded as they are, and the last `result` event among them is the final payload. -/
def Decoded (records : List (Record parse_float)) : Prop :=
  ∃ events, json_events parse_float (output records) = .ok events ∧ events = records.map Record.members ∧
    ∀ front event back, records.map Record.members = front ++ event :: back → is_result event = true →
      (∀ later ∈ back, is_result later = false) → final_payload events = some event

end MootLoop.StreamJson
