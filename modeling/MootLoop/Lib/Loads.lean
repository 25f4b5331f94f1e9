import MootLoop.Lib.Dict
import MootLoop.Lib.Json

/-! JSON texts as Python's `json` module reads them: the reader, and the grammar that a writer chooses a text from. -/

namespace Json

/-- A value. Strings are lists of code points, and a number that is no integer is what its literal is read as. -/
inductive Doc (φ : Type) where
  | null
  | bool (b : Bool)
  | int (n : Int)
  | float (x : φ)
  | string (s : List Nat)
  | array (items : List (Doc φ))
  | object (members : List (List Nat × Doc φ))

variable {φ : Type}

namespace Doc

mutual

/-- The strings and the keys of a value, at any depth. -/
def texts : Doc φ → List (List Nat)
  | string s => [s]
  | array items => item_texts items
  | object members => member_texts members
  | null | bool _ | int _ | float _ => []

def item_texts : List (Doc φ) → List (List Nat)
  | [] => []
  | item :: items => item.texts ++ item_texts items

def member_texts : List (List Nat × Doc φ) → List (List Nat)
  | [] => []
  | (key, value) :: members => key :: (value.texts ++ member_texts members)

end

mutual

/-- The integers of a value, at any depth. -/
def ints : Doc φ → List Int
  | int n => [n]
  | array items => item_ints items
  | object members => member_ints members
  | null | bool _ | float _ | string _ => []

def item_ints : List (Doc φ) → List Int
  | [] => []
  | item :: items => item.ints ++ item_ints items

def member_ints : List (List Nat × Doc φ) → List Int
  | [] => []
  | (_, value) :: members => value.ints ++ member_ints members

end

end Doc

/-! ### Strings -/

def hex_digit? (c : Char) : Option Nat :=
  if c.isDigit then some (c.toNat - 48)
  else if 97 ≤ c.toNat ∧ c.toNat ≤ 102 then some (c.toNat - 87)
  else if 65 ≤ c.toNat ∧ c.toNat ≤ 70 then some (c.toNat - 55)
  else none

/-- The code unit of a `\u` escape. -/
def unit? (a b c d : Char) : Option Nat := do
  return ((← hex_digit? a) * 16 + (← hex_digit? b)) * 256 + (← hex_digit? c) * 16 + (← hex_digit? d)

/-- The code point that a backslash and a letter stand for. -/
def escaped? (letter : Char) : Option Nat :=
  [('"', 34), ('\\', 92), ('/', 47), ('b', 8), ('f', 12), ('n', 10), ('r', 13), ('t', 9)].lookup letter

def isHighSurrogate (n : Nat) : Bool := 0xD800 ≤ n && n ≤ 0xDBFF
def isLowSurrogate (n : Nat) : Bool := 0xDC00 ≤ n && n ≤ 0xDFFF

/-- A high surrogate and the low one right after it are one code point. -/
def join_surrogates : List Nat → List Nat
  | high :: low :: rest =>
    if isHighSurrogate high && isLowSurrogate low then
      (0x10000 + (high - 0xD800) * 0x400 + (low - 0xDC00)) :: join_surrogates rest
    else high :: join_surrogates (low :: rest)
  | rest => rest

/-- The code units of a string up to its closing quote, and what follows. -/
def string_units : List Char → Option (List Nat × List Char)
  | [] => none
  | '"' :: rest => some ([], rest)
  | '\\' :: 'u' :: a :: b :: c :: d :: rest =>
    (unit? a b c d).bind fun unit => (string_units rest).map fun read => (unit :: read.1, read.2)
  | '\\' :: letter :: rest =>
    (escaped? letter).bind fun code => (string_units rest).map fun read => (code :: read.1, read.2)
  | c :: rest => if c.toNat < 32 then none else (string_units rest).map fun read => (c.toNat :: read.1, read.2)

def scanstring (text : List Char) : Option (List Nat × List Char) :=
  (string_units text).map fun read => (join_surrogates read.1, read.2)

/-! ### Numbers -/

/-- A number as it is written. -/
structure Literal where
  negative : Bool
  whole : List Char
  fraction : Option (List Char)
  exponent : Option (Char × Option Char × List Char)

namespace Literal

def fraction_text : Option (List Char) → List Char
  | none => []
  | some digits => '.' :: digits

def exponent_text : Option (Char × Option Char × List Char) → List Char
  | none => []
  | some (e, sign, digits) => e :: (sign.toList ++ digits)

def text (literal : Literal) : List Char :=
  (if literal.negative then ['-'] else []) ++
    (literal.whole ++ (fraction_text literal.fraction ++ exponent_text literal.exponent))

def integral (literal : Literal) : Bool := literal.fraction.isNone && literal.exponent.isNone

/-- The value of an integer. -/
def value (literal : Literal) : Int :=
  if literal.negative then -(Nat.ofDigitChars 10 literal.whole 0 : Int) else Nat.ofDigitChars 10 literal.whole 0

def Digits (digits : List Char) : Prop := digits ≠ [] ∧ ∀ c ∈ digits, c.isDigit = true

/-- The literal is one of the grammar. -/
structure Wellformed (literal : Literal) : Prop where
  whole : Digits literal.whole
  no_zeros : literal.whole.head? = some '0' → literal.whole = ['0']
  fraction : ∀ digits, literal.fraction = some digits → Digits digits
  exponent : ∀ e sign digits, literal.exponent = some (e, sign, digits) →
    (e = 'e' ∨ e = 'E') ∧ (∀ c, sign = some c → c = '+' ∨ c = '-') ∧ Digits digits

end Literal

def digits (text : List Char) : List Char := text.takeWhile Char.isDigit
def past_digits (text : List Char) : List Char := text.dropWhile Char.isDigit

def match_whole : List Char → Option (List Char × List Char)
  | '0' :: rest => some (['0'], rest)
  | text => if digits text = [] then none else some (digits text, past_digits text)

def match_fraction : List Char → Option (List Char) × List Char
  | '.' :: rest => if digits rest = [] then (none, '.' :: rest) else (some (digits rest), past_digits rest)
  | text => (none, text)

/-- The sign of an exponent. -/
def match_sign : List Char → Option Char × List Char
  | '+' :: rest => (some '+', rest)
  | '-' :: rest => (some '-', rest)
  | text => (none, text)

def match_exponent : List Char → Option (Char × Option Char × List Char) × List Char
  | [] => (none, [])
  | e :: rest =>
    let (sign, after_sign) := match_sign rest
    if (e = 'e' ∨ e = 'E') ∧ digits after_sign ≠ [] then (some (e, sign, digits after_sign), past_digits after_sign)
    else (none, e :: rest)

def match_unsigned (negative : Bool) (text : List Char) : Option (Literal × List Char) :=
  (match_whole text).map fun (whole, rest) =>
    let (fraction, rest) := match_fraction rest
    let (exponent, rest) := match_exponent rest
    (⟨negative, whole, fraction, exponent⟩, rest)

/-- The number a text begins with. -/
def match_number : List Char → Option (Literal × List Char)
  | '-' :: rest => match_unsigned true rest
  | text => match_unsigned false text

/-! ### The reader -/

/-- `JSONDecodeError`, and the `ValueError` of an integer with too many digits. -/
inductive DecodeError where
  | invalid
  | too_many_digits
  deriving DecidableEq, Repr

/-- `sys.int_info.default_max_str_digits`. -/
def MAX_STR_DIGITS : Nat := 4300

def skip (text : List Char) : List Char := text.dropWhile isWhite

def next (c : Char) : List Char → Except DecodeError (List Char)
  | [] => .error .invalid
  | c' :: rest => if c' = c then .ok rest else .error .invalid

/-- A key with its colon, and the text of its value. -/
def object_key (text : List Char) : Except DecodeError (List Nat × List Char) := do
  match scanstring (← next '"' text) with
  | none => throw .invalid
  | some (key, rest) => return (key, skip (← next ':' (skip rest)))

/-- What stands before an item: nothing for the first, else a comma. -/
def past_comma (first : Bool) (text : List Char) : Except DecodeError (List Char) :=
  if first then .ok text else (next ',' text).map skip

section
variable (parse_float : List Char → φ)

/-- The names that stand for values. -/
def constants : List (List Char × Doc φ) :=
  [("null".toList, .null), ("true".toList, .bool true), ("false".toList, .bool false),
    ("NaN".toList, .float (parse_float "NaN".toList)), ("Infinity".toList, .float (parse_float "Infinity".toList)),
    ("-Infinity".toList, .float (parse_float "-Infinity".toList))]

def scan_number (text : List Char) : Except DecodeError (Doc φ × List Char) :=
  match match_number text with
  | none => .error .invalid
  | some (literal, rest) =>
    if literal.integral = false then .ok (.float (parse_float literal.text), rest)
    else if MAX_STR_DIGITS < literal.whole.length then .error .too_many_digits
    else .ok (.int literal.value, rest)

def scan_scalar (text : List Char) : Except DecodeError (Doc φ × List Char) :=
  match (constants parse_float).findSome? fun named => (after named.1 text).map fun rest => (named.2, rest) with
  | some read => .ok read
  | none => scan_number parse_float text

/-- The dictionary of pairs: of equal keys the last value, at the place of the first. -/
def dict_of (pairs : List (List Nat × Doc φ)) : List (List Nat × Doc φ) :=
  pairs.foldl (fun entries pair => Dict.assign pair.1 pair.2 entries) []

mutual

/-- The value a text begins with, and what follows it. No two calls read less than a character, so twice the length of
    the text is fuel enough. -/
def scan_once : Nat → List Char → Except DecodeError (Doc φ × List Char)
  | 0, _ => .error .invalid
  | fuel + 1, text =>
    match text with
    | [] => .error .invalid
    | c :: rest =>
      if c = '"' then
        match scanstring rest with
        | none => .error .invalid
        | some (s, rest) => .ok (.string s, rest)
      else if c = '[' then (json_array fuel true rest).map fun read => (.array read.1, read.2)
      else if c = '\x7b' then (json_object fuel true rest).map fun read => (.object (dict_of read.1), read.2)
      else scan_scalar parse_float text

/-- The items up to the closing bracket. -/
def json_array : Nat → Bool → List Char → Except DecodeError (List (Doc φ) × List Char)
  | 0, _, _ => .error .invalid
  | fuel + 1, first, text =>
    match next ']' (skip text) with
    | .ok rest => .ok ([], rest)
    | .error _ => do
      let (item, rest) ← scan_once fuel (← past_comma first (skip text))
      let (items, rest) ← json_array fuel false rest
      return (item :: items, rest)

/-- The members up to the closing brace. -/
def json_object : Nat → Bool → List Char → Except DecodeError (List (List Nat × Doc φ) × List Char)
  | 0, _, _ => .error .invalid
  | fuel + 1, first, text =>
    match next '\x7d' (skip text) with
    | .ok rest => .ok ([], rest)
    | .error _ => do
      let (key, rest) ← object_key (← past_comma first (skip text))
      let (value, rest) ← scan_once fuel rest
      let (members, rest) ← json_object fuel false rest
      return ((key, value) :: members, rest)

end

/-- `json.loads`. -/
def loads (text : List Char) : Except DecodeError (Doc φ) := do
  let (value, rest) ← scan_once parse_float (2 * text.length + 1) (skip text)
  if skip rest = [] then return value else throw .invalid

end

/-! ### The grammar -/

/-- An integer that Python reads: one of at most `MAX_STR_DIGITS` digits. -/
def Small (n : Int) : Prop := n.natAbs < 10 ^ MAX_STR_DIGITS

instance (n : Int) : Decidable (Small n) := Nat.decLt _ _

/-- White space inside a line. -/
def Blank (w : List Char) : Prop := ∀ c ∈ w, c = ' ' ∨ c = '\t'

/-- The code units that a text stands for inside quotes: any character above the controls may stand for itself. -/
inductive Spelled : List Nat → List Char → Prop
  | nil : Spelled [] []
  | raw {c : Char} {s : List Nat} {t : List Char} (visible : 32 ≤ c.toNat) (not_quote : c ≠ '"') (not_backslash : c ≠ '\\')
      (rest : Spelled s t) : Spelled (c.toNat :: s) (c :: t)
  | letter {l : Char} {code : Nat} {s : List Nat} {t : List Char} (escape : escaped? l = some code) (rest : Spelled s t) :
      Spelled (code :: s) ('\\' :: l :: t)
  | hex {a b c d : Char} {unit : Nat} {s : List Nat} {t : List Char} (escape : unit? a b c d = some unit)
      (rest : Spelled s t) : Spelled (unit :: s) ('\\' :: 'u' :: a :: b :: c :: d :: t)

/-- A string in its quotes. -/
def Quoted (s : List Nat) (t : List Char) : Prop :=
  ∃ units body, Spelled units body ∧ s = join_surrogates units ∧ t = '"' :: (body ++ ['"'])

/-- What stands before an item. -/
def lead (first : Bool) (w w' : List Char) : List Char := if first then w' else w ++ ',' :: w'

section
variable (parse_float : List Char → φ)

mutual

/-- The texts of a value on one line, with whatever blanks and escapes. -/
def Written : Doc φ → List Char → Prop
  | .null, t => t = "null".toList
  | .bool b, t => t = if b then "true".toList else "false".toList
  | .int n, t => ∃ literal : Literal, literal.Wellformed ∧ literal.integral = true ∧ literal.value = n ∧ t = literal.text
  | .float x, t =>
    ∃ literal : Literal, literal.Wellformed ∧ literal.integral = false ∧ parse_float literal.text = x ∧ t = literal.text
  | .string s, t => Quoted s t
  | .array items, t => ∃ u, WrittenItems true items u ∧ t = '[' :: u
  | .object members, t => (members.map Prod.fst).Nodup ∧ ∃ u, WrittenMembers true members u ∧ t = '\x7b' :: u

def WrittenItems : Bool → List (Doc φ) → List Char → Prop
  | _, [], t => ∃ w, Blank w ∧ t = w ++ [']']
  | first, item :: items, t => ∃ w w' u more, Blank w ∧ Blank w' ∧ Written item u ∧ WrittenItems false items more ∧
      t = lead first w w' ++ (u ++ more)

def WrittenMembers : Bool → List (List Nat × Doc φ) → List Char → Prop
  | _, [], t => ∃ w, Blank w ∧ t = w ++ ['\x7d']
  | first, (key, value) :: members, t => ∃ w w' k v v' u more, Blank w ∧ Blank w' ∧ Blank v ∧ Blank v' ∧
      Quoted key k ∧ Written value u ∧ WrittenMembers false members more ∧
      t = lead first w w' ++ (k ++ (v ++ ':' :: (v' ++ (u ++ more))))

end

end

end Json
