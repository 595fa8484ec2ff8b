/-!
# Finite doubles as whole numbers

Every finite `Float` is, apart from its sign, a whole number of units of `2 ^ -1074`.  Reading it
as such a number makes the distance to its neighbours, and with it the set of reals that round to
it, a matter of exact arithmetic on `Nat`.

## Main definitions

* `Magnitude` — a coefficient and a power of two, the absolute value of a finite float.
* `Magnitude.ofFloat` — the magnitude read off the bits of a float.
* `Magnitude.low`, `Magnitude.high` — the ends of the interval of reals that round to it.
-/

namespace TripleBarrier
namespace Decimal

/-- The absolute value `coeff * 2 ^ shift` of a finite float, in units of `2 ^ -1074`. -/
structure Magnitude where
  coeff : Nat
  shift : Nat
  deriving DecidableEq, Repr

/-- Whether the sign bit of a float is set, which also tells `-0.0` from `0.0`. -/
def isNegative (x : Float) : Bool :=
  x.toBits.toNat / Nat.pow 2 63 == 1

namespace Magnitude

/-- The magnitude stored in the exponent and fraction bits: subnormal numbers have no hidden bit. -/
def ofFloat (x : Float) : Magnitude :=
  let fraction := x.toBits.toNat % Nat.pow 2 52
  let exponent := x.toBits.toNat / Nat.pow 2 52 % Nat.pow 2 11
  if exponent = 0 then ⟨fraction, 0⟩ else ⟨Nat.pow 2 52 + fraction, exponent - 1⟩

/-- The magnitude in quarter units, fine enough to name the midpoints to both neighbours. -/
def quarters (m : Magnitude) : Nat :=
  4 * m.coeff * Nat.pow 2 m.shift

/-- Half the gap to the next larger float, in quarter units. -/
def gapAbove (m : Magnitude) : Nat :=
  2 * Nat.pow 2 m.shift

/-- Half the gap to the next smaller float: below a power of two the floats lie twice as dense. -/
def gapBelow (m : Magnitude) : Nat :=
  if m.coeff = Nat.pow 2 52 ∧ 0 < m.shift then Nat.pow 2 m.shift else 2 * Nat.pow 2 m.shift

/-- The lower end of the reals that round to this magnitude, in quarter units. -/
def low (m : Magnitude) : Nat :=
  m.quarters - m.gapBelow

/-- The upper end of the reals that round to this magnitude, in quarter units. -/
def high (m : Magnitude) : Nat :=
  m.quarters + m.gapAbove

/-- The ends round to this magnitude too exactly when its coefficient is even. -/
def holdsEnds (m : Magnitude) : Bool :=
  m.coeff % 2 == 0

end Magnitude
end Decimal
end TripleBarrier
