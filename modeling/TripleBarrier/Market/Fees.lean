import TripleBarrier.Market.Side

/-!
# Trading costs

Every trade costs a fixed fraction of the money it moves.  A position is opened once and closed
once, so its return is lowered by two such fractions, whatever the price at which it is left.
-/

namespace TripleBarrier

/-- The fraction of the money moved that one trade costs. -/
structure Fees where
  perTrade : Float
  deriving BEq

namespace Fees

/-- Trading at no cost. -/
def none : Fees := ⟨0.0⟩

/-- The cost of entry and exit, as a fraction of the money moved. -/
def roundTrip (f : Fees) : Float :=
  2.0 * f.perTrade

/-- The cost of entry and exit on an amount of money. -/
def onVolume (f : Fees) (volume : Float) : Float :=
  f.roundTrip * volume

/-- The return of a position filled at one price and left at another, after costs. -/
def netReturn (f : Fees) (side : Side) (fill exit : Float) : Float :=
  (exit - fill) / fill * side.sign - f.roundTrip

end Fees
end TripleBarrier
