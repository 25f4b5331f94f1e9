import Mathlib.Data.Rat.Defs

/-! Vocabulary every module shares: identifiers, the exceptions the code raises, dates, and the
    text operations of the standard library the code relies on. Dollar amounts and scores are exact
    rationals. -/

namespace MootLoop

abbrev RunId := String
abbrev TurnId := String
abbrev RequestId := String
abbrev FactId := String
abbrev DecisionId := String
abbrev CitationId := String
abbrev PropositionId := String
abbrev Digest := String

/-- The exceptions of the modelled code, with the messages it raises them with. -/
inductive Error where
  | lockHeld (message : String)
  | orchestrator (message : String)
  | journalIntegrity (message : String)
  | taskConfig (message : String)
  | gateConfiguration (message : String)
  | decision (message : String)
  | citation (message : String)
  | attestation (message : String)
  | export (message : String)
  | validation (message : String)
  | value (message : String)
  deriving DecidableEq, Repr, Inhabited

theorem bind_ok {ε α β : Type} {m : Except ε α} {f : α → Except ε β} {b : β} (h : m >>= f = .ok b) :
    ∃ a, m = .ok a ∧ f a = .ok b := by
  cases m with
  | error e => cases h
  | ok a => exact ⟨a, rfl, h⟩

/-- A calendar date, ordered as its digits `yyyymmdd`. -/
abbrev Date := Nat

def date (year month day : Nat) : Date := year * 10000 + month * 100 + day

/-- A parsed timestamp: its calendar date and its position on the time line, in microseconds. -/
structure Instant where
  date : Date
  micros : Int
  deriving DecidableEq, Repr, Inhabited

/-- The characters `str.strip` and `str.split` take for white space. -/
def isSpace (c : Char) : Bool :=
  let n := c.toNat
  (9 ≤ n && n ≤ 13) || (28 ≤ n && n ≤ 32) || n == 133 || n == 160 || n == 5760 ||
    (8192 ≤ n && n ≤ 8202) || n == 8232 || n == 8233 || n == 8239 || n == 8287 || n == 12288

/-- `str.strip()`. -/
def strip (text : String) : String :=
  String.ofList (((text.toList.dropWhile isSpace).reverse.dropWhile isSpace).reverse)

/-- Whether the text is nothing but white space. -/
def isBlank (text : String) : Bool := text.toList.all isSpace

/-- `part in text`. -/
def isIn (part text : String) : Bool := text.toList.tails.any (part.toList.isPrefixOf ·)

/-- `f"{n:04d}"`. -/
def pad4 (n : Nat) : String :=
  let digits := toString n
  String.ofList (List.replicate (4 - digits.length) '0') ++ digits

end MootLoop
