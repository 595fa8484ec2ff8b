import TripleBarrier.Decimal.Nearest
import TripleBarrier.Document.Basic
import TripleBarrier.Text.Numeral

/-!
# Words of a settings file

Numbers, truth values and dates are written without quotes.  A word is a maximal run of the
characters that can occur in them, and is classified as a whole.

## Main definitions

* `isWordChar` — the characters of words.
* `integer?`, `float?`, `isDateTime` — the classes of words.
* `word?` — the value of a word.
-/

namespace TripleBarrier
namespace Toml

open Text (isDigitOf numeral)

/-- The characters of numbers, truth values and dates. -/
def isWordChar (c : Char) : Bool :=
  c.isAlphanum || c = '+' || c = '-' || c = '_' || c = '.' || c = ':'

/-! ### Digits -/

/-- The digits of a run in which single underscores may stand between digits, at least one digit. -/
def digits? (base : Nat) : List Char → Option (List Char)
  | [] => none
  | [c] => if isDigitOf base c then some [c] else none
  | c :: '_' :: rest => if isDigitOf base c then (digits? base rest).map (c :: ·) else none
  | c :: rest => if isDigitOf base c then (digits? base rest).map (c :: ·) else none

/-- A sign before a word, if there is one, and whether it is negative. -/
def sign : List Char → Bool × List Char
  | '-' :: cs => (true, cs)
  | '+' :: cs => (false, cs)
  | cs => (false, cs)

/-! ### Numbers -/

/-- The digits of a decimal numeral, whose first digit is zero only if it is the only one. -/
def decimal? (cs : List Char) : Option (List Char) :=
  match digits? 10 cs with
  | some ('0' :: _ :: _) => none
  | digits => digits

/-- A whole number in 64 bits: decimal with a sign, or in base 16, 8 or 2 after its mark. -/
def integer? (word : List Char) : Option Int :=
  let fits (i : Int) : Option Int :=
    if Int64.minValue.toInt ≤ i ∧ i ≤ Int64.maxValue.toInt then some i else none
  match word with
  | '0' :: 'x' :: cs => (digits? 16 cs).bind fun ds => fits (numeral 16 ds)
  | '0' :: 'o' :: cs => (digits? 8 cs).bind fun ds => fits (numeral 8 ds)
  | '0' :: 'b' :: cs => (digits? 2 cs).bind fun ds => fits (numeral 2 ds)
  | _ =>
    let (isNegative, cs) := sign word
    (decimal? cs).bind fun ds => fits (if isNegative then -numeral 10 ds else numeral 10 ds)

/-- The value of an exponent, after its mark. -/
def exponent? (cs : List Char) : Option Int :=
  let (isNegative, cs) := sign cs
  (digits? 10 cs).map fun ds => if isNegative then -numeral 10 ds else numeral 10 ds

/-- The float of a numeral without sign: a fraction, an exponent, or both. -/
def magnitude? (cs : List Char) : Option Float := do
  let (mantissa, rest) := cs.span fun c => c != 'e' && c != 'E'
  let (whole, fraction) := mantissa.span (· != '.')
  let wholeDigits ← decimal? whole
  let fractionDigits ← match fraction with
    | [] => some []
    | _ :: ds => digits? 10 ds
  let exponent ← match rest with
    | [] => if fraction.isEmpty then none else some 0
    | _ :: cs => exponent? cs
  return Decimal.nearest (numeral 10 (wholeDigits ++ fractionDigits))
    (exponent - fractionDigits.length)

/-- The float of a word.  A numeral beyond the largest float is refused, unless it is negative. -/
def float? (word : List Char) : Option Float :=
  let (isNegative, cs) := sign word
  let signed (x : Float) : Float := if isNegative then -x else x
  if cs = ['i', 'n', 'f'] then some (signed (1.0 / 0.0))
  else if cs = ['n', 'a', 'n'] then some (0.0 / 0.0)
  else (magnitude? cs).bind fun x => if x.isInf && !isNegative then none else some (signed x)

/-! ### Dates and times -/

/-- A number of exactly two digits within bounds, and the text behind it. -/
def two? (low high : Nat) : List Char → Option (Nat × List Char)
  | a :: b :: cs =>
    let n := numeral 10 [a, b]
    if a.isDigit && b.isDigit && low ≤ n && n ≤ high then some (n, cs) else none
  | _ => none

/-- How many days a month has. -/
def daysOfMonth (year month : Nat) : Nat :=
  if month = 2 then
    if year % 4 = 0 ∧ (year % 100 ≠ 0 ∨ year % 400 = 0) then 29 else 28
  else if month = 4 ∨ month = 6 ∨ month = 9 ∨ month = 11 then 30
  else 31

/-- The text behind a calendar date. -/
def afterDate? : List Char → Option (List Char)
  | a :: b :: c :: d :: '-' :: cs => do
    guard ([a, b, c, d].all Char.isDigit)
    let (month, cs) ← two? 1 12 cs
    match cs with
    | '-' :: cs =>
      let (_, cs) ← two? 1 (daysOfMonth (numeral 10 [a, b, c, d]) month) cs
      return cs
    | _ => none
  | _ => none

/-- The text behind a time of day with seconds, a leap second included. -/
def afterTime? (cs : List Char) : Option (List Char) := do
  let (_, cs) ← two? 0 23 cs
  match cs with
  | ':' :: cs =>
    let (_, cs) ← two? 0 59 cs
    match cs with
    | ':' :: cs =>
      let (_, cs) ← two? 0 60 cs
      match cs with
      | '.' :: cs =>
        let (fraction, cs) := cs.span Char.isDigit
        if fraction.isEmpty then none else return cs
      | cs => return cs
    | _ => none
  | _ => none

/-- Whether a text is an offset from universal time, or nothing. -/
def isOffset : List Char → Bool
  | [] => true
  | ['Z'] => true
  | ['z'] => true
  | c :: cs =>
    (c = '+' || c = '-') &&
      match two? 0 23 cs with
      | some (_, ':' :: cs) => (two? 0 59 cs).any fun rest => rest.2.isEmpty
      | _ => false

/-- Whether a word is a calendar date and nothing else. -/
def isDate (word : List Char) : Bool :=
  afterDate? word == some []

/-- Whether a word is a date, a time of day, or a date with a time of day. -/
def isDateTime (word : List Char) : Bool :=
  match afterDate? word with
  | some [] => true
  | some (c :: cs) => (c = 'T' || c = 't') && (afterTime? cs).any isOffset
  | none => afterTime? word == some []

/-! ### Words -/

/-- The value of a word. -/
def word? (word : List Char) : Option Document :=
  if word = ['t', 'r', 'u', 'e'] then some (.bool true)
  else if word = ['f', 'a', 'l', 's', 'e'] then some (.bool false)
  else if isDateTime word then some .dateTime
  else match integer? word with
    | some i => some (.int i)
    | none => (float? word).map .float

end Toml
end TripleBarrier
