import TripleBarrier.Decimal.Binary

/-!
# The shortest decimal that reads back

Of the decimals that round to a given float, the printed one has the fewest digits, and among
those it is the nearest.  The search walks decimal grids from coarse to fine: on the grid of
multiples of `10 ^ k` only the two neighbours of the value can be the nearest point, and if any
grid point lies in the rounding interval then one of these two does.

## Main definitions

* `Decimal.Digits` — a coefficient times a power of ten.
* `Tie` — which of two equally near grid points is taken.
* `shortest` — the shortest, nearest decimal of a positive magnitude.
-/

namespace TripleBarrier
namespace Decimal

/-- The decimal `coeff * 10 ^ power`. -/
structure Digits where
  coeff : Nat
  power : Int
  deriving DecidableEq, Repr

/-- What happens when a value lies exactly half way between two decimals of equal length. -/
inductive Tie
  | toEven
  | up
  deriving DecidableEq, Repr

/-- A grid of multiples of `10 ^ k` seen from a magnitude: `point * c` is the grid's `c`-th point
and `scale * q` the position of `q` quarter units, both on one common whole-number axis. -/
structure Grid where
  point : Nat
  scale : Nat

/-- The grid of multiples of `10 ^ k`: for negative `k` both sides are multiplied up. -/
def Grid.ofPower (k : Int) : Grid :=
  ⟨Nat.pow 2 1076 * Nat.pow 10 k.toNat, Nat.pow 10 (-k).toNat⟩

/-- Whether the `c`-th grid point rounds to `m`. -/
def Grid.reaches (g : Grid) (m : Magnitude) (c : Nat) : Bool :=
  let place := g.point * c
  if m.holdsEnds then g.scale * m.low ≤ place && place ≤ g.scale * m.high
  else g.scale * m.low < place && place < g.scale * m.high

/-- Of the `c`-th grid point and the next one, the nearer to `m`. -/
def Grid.nearer (g : Grid) (tie : Tie) (m : Magnitude) (c : Nat) : Nat :=
  let below := g.scale * m.quarters - g.point * c
  let above := g.point * (c + 1) - g.scale * m.quarters
  if below < above then c
  else if above < below then c + 1
  else match tie with
    | .toEven => if c % 2 = 0 then c else c + 1
    | .up => c + 1

/-- The grid's best point for `m`, if one of the two neighbours of `m` rounds to it.  The point
zero never does, since zero is another float. -/
def Grid.hit? (g : Grid) (tie : Tie) (m : Magnitude) : Option Nat :=
  let c := g.scale * m.quarters / g.point
  match c != 0 && g.reaches m c, g.reaches m (c + 1) with
  | true, true => some (g.nearer tie m c)
  | true, false => some c
  | false, true => some (c + 1)
  | false, false => none

/-- A power of ten above every decimal near `m`, estimated from its bit length with `log₁₀ 2`
between `0.30` and `0.31`. -/
def topPower (m : Magnitude) : Int :=
  let bits : Int := (Nat.log2 m.quarters : Int) + 2 - 1076
  if 0 ≤ bits then bits * 31 / 100 + 1 else bits * 30 / 100 + 1

/-- Walks at most `steps` grids downward from `10 ^ k` to the first one with a hit. -/
def searchFrom (tie : Tie) (m : Magnitude) : Nat → Int → Digits
  | 0, k => ⟨(Grid.ofPower k).scale * m.quarters / (Grid.ofPower k).point, k⟩
  | steps + 1, k =>
    match (Grid.ofPower k).hit? tie m with
    | some c => ⟨c, k⟩
    | none => searchFrom tie m steps (k - 1)

/-- The shortest decimal that rounds to `m`, the nearest one among those.  Seventeen digits always
suffice, and the walk starts at most ten grids above the first digit, so 40 steps are enough. -/
def shortest (tie : Tie) (m : Magnitude) : Digits :=
  searchFrom tie m 40 (topPower m)

end Decimal
end TripleBarrier
