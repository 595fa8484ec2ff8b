import TripleBarrier.Market.Bar
import TripleBarrier.Position.Basic

/-!
# Entry

A position is looked at from its creation on and, if it has a time limit, up to its deadline.  It
opens at the first of these bars on which its order fills, at that bar's close: at once for a
market order, and on a close on the right side of the limit for a limit order.

The deadline is a point on the unbounded time line and is passed separately, so that the same
scan can be run with any deadline.

## Main definitions

* `Fill` — the bar of entry.
* `Bar.isWithin` — the bar does not come after a deadline.
* `Series.window` — the bars on which a position may open.
* `Series.fill?` — the entry.
-/

namespace TripleBarrier

/-- Where in the series, when and at which price a position opened. -/
structure Fill where
  index : Nat
  time : Int64
  price : Float

/-- The bar does not come after the deadline, if there is one. -/
def Bar.isWithin (deadline : Option Int) (b : Bar) : Bool :=
  deadline.all fun t => b.time.toInt ≤ t

/-- Whether the order fills on a bar. -/
def Terms.fillsOn (t : Terms) (b : Bar) : Bool :=
  !t.isLimit || t.side.fillsAt t.price b.close

namespace Series

/-- The bars from creation through the deadline. -/
def window (series : List Bar) (created : Int64) (deadline : Option Int) : List Bar :=
  (startingAt series created).takeWhile (Bar.isWithin deadline)

/-- The first bar of the window on which the order fills, numbered within the whole series. -/
def fill? (series : List Bar) (t : Terms) (deadline : Option Int) : Option Fill :=
  (((window series t.created deadline).zipIdx (startIndex series t.created)).find?
    fun entry => t.fillsOn entry.1).map fun entry => ⟨entry.2, entry.1.time, entry.1.close⟩

end Series
end TripleBarrier
