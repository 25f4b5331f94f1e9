import MootLoop.TurnGates
import MootLoop.Lib.Scan

/-! The dollar amounts of a text, as the pattern of the fabrication gate recognizes them, and the texts the gate
    lets them be traced to. -/

namespace MootLoop.Amounts

/-- The characters `\d` stands for. -/
structure Digits where
  decimal : Char → Bool
  ascii : ∀ c, c.isDigit = true → decimal c = true
  not_space : ∀ c, decimal c = true → isSpace c = false
  not_dollar : decimal '$' = false
  not_comma : decimal ',' = false
  not_point : decimal '.' = false

variable (d : Digits)

/-! ### The pattern -/

/-- `(?:\.\d+)?` -/
def read_cents : List Char → List Char
  | '.' :: more =>
    let cents := more.takeWhile d.decimal
    if cents = [] then [] else '.' :: cents
  | _ => []

/-- The class `[\d,]`. -/
def Digits.grouped (c : Char) : Bool := d.decimal c || c == ','

/-- `\d[\d,]*(?:\.\d+)?` -/
def read_number : List Char → Option (List Char)
  | [] => none
  | c :: more =>
    if d.decimal c then some (c :: more.takeWhile d.grouped ++ read_cents d (more.dropWhile d.grouped)) else none

/-- `_MONEY_RE` at the head of a text; an optional space stands between the sign and the number. -/
def read_money : List Char → Option (List Char)
  | '$' :: c :: more =>
    if isSpace c then (read_number d more).map ('$' :: c :: ·) else (read_number d (c :: more)).map ('$' :: ·)
  | _ => none

/-- `_MONEY_RE.findall`. -/
def money_amounts (text : String) : List String :=
  (Scan.findall (read_money d) 0 text.toList).map String.ofList

/-! ### Supporting parts -/

structure CorpusDoc where
  normalized_path : Option String

/-- The texts of the normalized documents whose files are there. -/
def corpus_parts (read_text : String → Option String) (docs : List CorpusDoc) : List String :=
  docs.filterMap fun doc => doc.normalized_path.bind read_text

def build_corpus_text (read_text : String → Option String) (docs : List CorpusDoc) : String :=
  "\n".intercalate (corpus_parts read_text docs)

/-- The cited facts of a draft. -/
def cited_facts (draft : DraftOutput) (facts : List Fact) : List Fact :=
  draft.fact_ids_used.filterMap fun fid => (facts.filter (·.fact_id = fid)).getLast?

/-- Each text an amount may be traced to: a corpus document, a cited piece of evidence, a cited fact or a quote
    of one. -/
def supporting_parts (draft : DraftOutput) (facts : List Fact) (corpus : List String)
    (evidence : List DocumentEvidence) : List String :=
  corpus ++ (evidence.filter (·.source_id ∈ draft.fact_ids_used)).map (·.text) ++
    (cited_facts draft facts).flatMap fun fact => fact.statement :: fact.quotes

/-- The finding on an amount at a place of the served text. -/
def unsupported_amount (locator amount : String) : GateFinding where
  code := "unsupported_amount"
  message := s!"dollar amount '{strip amount}' traces to no cited fact/corpus"
  locator := some locator

/-- An amount is a whole amount of one part, up to white space. -/
def Whole (parts : List String) (amount : String) : Prop :=
  ∃ part ∈ parts, ∃ found ∈ money_amounts d part, no_space found = no_space amount

instance {parts : List String} {amount : String} : Decidable (Whole d parts amount) :=
  inferInstanceAs (Decidable (∃ part ∈ parts, ∃ found ∈ money_amounts d part, no_space found = no_space amount))

/-- The amounts reported are those of the served text that are whole in no single part. -/
def Exact (x : Externals) (draft : DraftOutput) (facts : List Fact) (read_text : String → Option String)
    (docs : List CorpusDoc) (evidence : List DocumentEvidence) : Prop :=
  ∀ finding : GateFinding, finding.code = "unsupported_amount" →
    (finding ∈ (fabrication_check x draft facts (build_corpus_text read_text docs) evidence).findings ↔
      ∃ entry ∈ served_text draft, ∃ amount ∈ money_amounts d entry.2,
        finding = unsupported_amount entry.1 amount ∧
        ¬Whole d (supporting_parts draft facts (corpus_parts read_text docs) evidence) amount)

/-! ### Where an amount stands alone -/

/-- Whether a number goes on into the text after it. -/
def continues (number after : List Char) : Bool :=
  match after with
  | [] => false
  | c :: more =>
    if '.' ∈ number then d.decimal c
    else d.grouped c || (c == '.' && (more.head?.any d.decimal))

/-- A part has the sign, at most one space, the digits of the amount and then nothing that continues it. -/
def StandsIn (amount part : String) : Prop :=
  ∃ before gap number after, part.toList = before ++ '$' :: gap ++ number ++ after ∧
    (gap = [] ∨ ∃ c, isSpace c = true ∧ gap = [c]) ∧ (no_space amount).toList = '$' :: number ∧
    continues d number after = false

/-- The amount's characters occur in the parts, joined and without their white space. -/
def Contained (parts : List String) (amount : String) : Prop :=
  (no_space amount).toList <:+: parts.flatMap fun part => (no_space part).toList

end MootLoop.Amounts
