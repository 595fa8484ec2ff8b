/-!
# The float nearest to a decimal

A decimal numeral stands for the float that is nearest to it, with ties to the even one.  Numerals
far outside the range of floats are settled by their size alone, so that no huge power of ten has
to be computed.
-/

namespace TripleBarrier
namespace Decimal

/-- The number of digits of a natural number, zero having one. -/
def digitCount (n : Nat) : Nat :=
  (Nat.toDigits 10 n).length

/-- The float nearest to `coeff * 10 ^ power`: infinite beyond the largest float, zero far below
the least one. -/
def nearest (coeff : Nat) (power : Int) : Float :=
  let size := digitCount coeff + power
  if coeff = 0 then 0.0
  else if 400 < size then 1.0 / 0.0
  else if size < -400 then 0.0
  else Float.ofScientific coeff (power < 0) power.natAbs

end Decimal
end TripleBarrier
