import TripleBarrier.Document.Basic
import TripleBarrier.Text.Numeral

/-!
# Number literals

A literal without fraction and exponent that fits 64 bits is a whole number.  Any other literal is
a float, found by one multiplication or division: digits are collected while they fit 64 bits, the
digits behind them only move the exponent, and the collected number is scaled by a power of ten.
The result can differ from the nearest float in its last bits.

## Main definitions

* `Literal` — a literal by its parts.
* `Literal.scan?` — the literal at the start of a text.
* `Literal.value` — the number a literal stands for, or a fault if it is too large.
-/

namespace TripleBarrier
namespace Json

/-- A number literal by its parts: digits are never missing where they are expected. -/
structure Literal where
  isNegative : Bool
  whole : List Char
  fraction : Option (List Char)
  exponent : Option (Bool × List Char)

namespace Literal

/-! ### Scanning -/

/-- A run of digits, at least one, and the text behind it. -/
def digits? (cs : List Char) : Option (List Char × List Char) :=
  match cs.span Char.isDigit with
  | ([], _) => none
  | run => some run

/-- The digits before the point: a zero stands alone. -/
def whole? (cs : List Char) : Option (List Char × List Char) :=
  match digits? cs with
  | some ('0' :: _ :: _, _) => none
  | run => run

/-- The fraction, if there is one. -/
def fraction? : List Char → Option (Option (List Char) × List Char)
  | '.' :: cs => (digits? cs).map fun run => (some run.1, run.2)
  | cs => some (none, cs)

/-- The exponent with its sign, if there is one. -/
def exponent? : List Char → Option (Option (Bool × List Char) × List Char)
  | c :: cs =>
    if c = 'e' ∨ c = 'E' then
      match cs with
      | '-' :: cs => (digits? cs).map fun run => (some (true, run.1), run.2)
      | '+' :: cs => (digits? cs).map fun run => (some (false, run.1), run.2)
      | cs => (digits? cs).map fun run => (some (false, run.1), run.2)
    else some (none, c :: cs)
  | [] => some (none, [])

/-- The literal at the start of a text, and the text behind it. -/
def scan? (cs : List Char) : Option (Literal × List Char) := do
  let (isNegative, cs) := match cs with
    | '-' :: cs => (true, cs)
    | cs => (false, cs)
  let (whole, cs) ← whole? cs
  let (fraction, cs) ← fraction? cs
  let (exponent, cs) ← exponent? cs
  return (⟨isNegative, whole, fraction, exponent⟩, cs)

/-! ### Values -/

/-- Collects digits as long as the number fits 64 bits, and gives the digits left over. -/
def collect : Nat → List Char → Nat × List Char
  | n, [] => (n, [])
  | n, c :: cs =>
    let next := n * 10 + Text.digitValue c
    if next < UInt64.size then collect next cs else (n, c :: cs)

/-- The float with a power of ten as its value. -/
def powerOfTen (n : Nat) : Float :=
  Float.ofScientific 1 false n

/-- Scales a float by a power of ten.  Powers beyond `10 ^ 308` are taken in steps of 308, and three
steps bring any collected number to zero. -/
def scale : Nat → Float → Int → Option Float
  | 0, x, _ => some x
  | steps + 1, x, e =>
    if e.natAbs ≤ 308 then
      if 0 ≤ e then
        let y := x * powerOfTen e.natAbs
        if y.isInf then none else some y
      else some (x / powerOfTen e.natAbs)
    else if x == 0.0 then some x
    else if 0 ≤ e then none
    else scale steps (x / powerOfTen 308) (e + 308)

/-- The digits that are collected, and the power of ten behind them. -/
def parts (l : Literal) : Nat × Int :=
  let (n, left) := collect 0 l.whole
  let (n, unread) := collect n (l.fraction.getD [])
  let read := (l.fraction.getD []).length - unread.length
  let exponent : Int := match l.exponent with
    | none => 0
    | some (true, digits) => -(Text.numeral 10 digits : Int)
    | some (false, digits) => Text.numeral 10 digits
  (n, left.length - read + exponent)

/-- The float a literal stands for, absent if it is too large. -/
def float? (l : Literal) : Option Float :=
  let (n, e) := l.parts
  (scale 4 (Float.ofNat n) e).map fun x => if l.isNegative then -x else x

/-- The number a literal stands for.  A negative zero is a float, so that it keeps its sign. -/
def value (l : Literal) : Document :=
  let n := Text.numeral 10 l.whole
  if l.fraction.isNone && l.exponent.isNone && !l.isNegative && n < UInt64.size then .int n
  else if l.fraction.isNone && l.exponent.isNone && l.isNegative && 0 < n &&
      Int64.minValue.toInt ≤ -n then
    .int (-n)
  else match l.float? with
    | some x => .float x
    | none => .fault

end Literal
end Json
end TripleBarrier
