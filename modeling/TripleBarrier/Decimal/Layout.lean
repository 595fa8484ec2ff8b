import TripleBarrier.Decimal.Shortest
import TripleBarrier.Text.Numeral

/-!
# How a number is spelled

The shortest digits of a float are the same wherever it is printed; the places differ in where
positional notation ends, in whether a whole number keeps its `.0`, and in the texts of the values
that have no digits.  A `Layout` collects these choices.

## Main definitions

* `Layout` — the choices one output format makes.
* `Layout.render` — the text of a float under a layout.
-/

namespace TripleBarrier
namespace Decimal

/-! ### Layouts -/

/-- The choices an output format makes about the text of a float. -/
structure Layout where
  /-- The powers of ten of the first digit that are written without an exponent. -/
  isPositional : Int → Bool
  /-- Whether a whole number in positional notation ends in `.0`. -/
  keepsPoint : Bool
  /-- Which of two equally near shortest decimals is written. -/
  tie : Tie
  /-- The text of a value that is not a number. -/
  nan : String
  /-- The text of positive infinity. -/
  infinity : String
  /-- The text of negative infinity. -/
  negInfinity : String

namespace Layout

/-- Digits with the point behind the `whole`-th place: zeros fill what the digits leave open. -/
def positional (keepsPoint : Bool) (digits : List Char) (whole : Int) : List Char :=
  if whole ≤ 0 then
    '0' :: '.' :: (List.replicate (-whole).toNat '0' ++ digits)
  else if digits.length ≤ whole.toNat then
    digits ++ List.replicate (whole.toNat - digits.length) '0' ++
      (if keepsPoint then ['.', '0'] else [])
  else
    digits.take whole.toNat ++ '.' :: digits.drop whole.toNat

/-- One digit, the others behind the point if there are any, and the exponent with its sign. -/
def scientific (digits : List Char) (exponent : Int) : List Char :=
  let sign := if exponent < 0 then '-' else '+'
  let mantissa := match digits with
    | d :: e :: rest => d :: '.' :: e :: rest
    | _ => digits
  mantissa ++ 'e' :: sign :: Text.natText exponent.natAbs

/-- The text of a positive magnitude. -/
def magnitudeText (l : Layout) (m : Magnitude) : List Char :=
  let d := shortest l.tie m
  let digits := Text.natText d.coeff
  let whole := d.power + digits.length
  if l.isPositional (whole - 1) then positional l.keepsPoint digits whole
  else scientific digits (whole - 1)

/-- The text of a float: zero is written like a whole number, with its sign. -/
def render (l : Layout) (x : Float) : List Char :=
  if x.isNaN then l.nan.toList
  else if x.isInf then (if isNegative x then l.negInfinity else l.infinity).toList
  else
    let m := Magnitude.ofFloat x
    let text := if m.coeff = 0 then positional l.keepsPoint ['0'] 1 else l.magnitudeText m
    if isNegative x then '-' :: text else text

end Layout

/-- Messages write every number out in full, and whole numbers without a point. -/
def plain : Layout where
  isPositional _ := true
  keepsPoint := false
  tie := .up
  nan := "NaN"
  infinity := "inf"
  negInfinity := "-inf"

/-- Settings files write every number out in full and mark it as fractional. -/
def pointed : Layout :=
  { plain with keepsPoint := true, nan := "nan" }

/-- Interchange documents turn to an exponent below `1e-5` and from `1e16` on, and have no text
for a value that is not finite. -/
def interchange : Layout where
  isPositional e := -5 ≤ e && e < 16
  keepsPoint := true
  tie := .toEven
  nan := "null"
  infinity := "null"
  negInfinity := "null"

end Decimal
end TripleBarrier
