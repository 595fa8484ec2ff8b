/-!
# Sides of the market

A position profits from rising or from falling prices.  The side signs its returns and decides
which way a price has to move to reach a limit or a stop.
-/

namespace TripleBarrier

/-- The direction in which a position profits. -/
inductive Side
  | long
  | short
  deriving DecidableEq, Repr, Inhabited

namespace Side

/-- Multiplies a price return into the position's return. -/
def sign : Side → Float
  | long => 1.0
  | short => -1.0

/-- The name a side is written by. -/
def name : Side → String
  | long => "long"
  | short => "short"

/-- Both sides, in the order in which their names are listed. -/
def all : List Side :=
  [long, short]

/-- Whether a limit order fills at `price`: no dearer than its limit when buying, no cheaper when
selling short.  A price that is not a number fills nothing. -/
def fillsAt (side : Side) (limit price : Float) : Bool :=
  match side with
  | long => price ≤ limit
  | short => limit ≤ price

end Side
end TripleBarrier
