import TripleBarrier.Ledger.Row
import TripleBarrier.Market.Fees
import TripleBarrier.Position.Entry

/-!
# The ledger before the exit is known

From the entry on, every bar is marked as if the position were left at its close.  The draft runs
to the end of the data; the exit is looked for in it, and only then is it cut.

## Main definitions

* `Exposure` — what has to be known of a position to mark it at a price.
* `Exposure.mark` — the line of an open position at a bar, before it is made presentable.
* `Draft` — the bars before and from the entry, with the exposure.
* `Draft.points` — the times and net returns from the entry on.
-/

namespace TripleBarrier

/-- What has to be known of an open position to mark it at a price. -/
structure Exposure where
  side : Side
  fees : Fees
  fillPrice : Float
  volume : Float

namespace Exposure

/-- The exposure of a position that was filled: the money moved is that of the opening trade. -/
def opened (t : Terms) (fees : Fees) (fillPrice : Float) : Exposure :=
  ⟨t.side, fees, fillPrice, t.amount * fillPrice⟩

/-- The exposure once the closing trade has moved the same money again. -/
def closed (e : Exposure) : Exposure :=
  { e with volume := e.volume * 2.0 }

/-- The line of the position left at a price, as the arithmetic gives it. -/
def mark (e : Exposure) (time : Int64) (price : Float) : Row where
  time := time
  price := price
  netReturn := e.fees.netReturn e.side e.fillPrice price
  profit := e.fees.netReturn e.side e.fillPrice price * e.volume
  fees := e.fees.onVolume e.volume
  volume := e.volume
  averageEntry := e.fillPrice

/-- The line of the position left at a price, as the ledger shows it. -/
def row (e : Exposure) (time : Int64) (price : Float) : Row :=
  (e.mark time price).cleaned

end Exposure

/-- The ledger of a filled position to the end of the data. -/
structure Draft where
  fill : Fill
  exposure : Exposure
  /-- The bars from creation up to the entry. -/
  before : List Bar
  /-- The bars from the entry on. -/
  active : List Bar

namespace Draft

/-- The draft of a position that was filled, from the bar with index `start` on. -/
def build (series : List Bar) (start : Nat) (fill : Fill) (t : Terms) (fees : Fees) : Draft where
  fill := fill
  exposure := .opened t fees fill.price
  before := (series.drop start).take (fill.index - start)
  active := (series.drop start).drop (fill.index - start)

/-- The lines from the entry on. -/
def activeRows (d : Draft) : List Row :=
  d.active.map fun b => d.exposure.row b.time b.close

/-- All lines, those before the entry being flat. -/
def rows (d : Draft) : List Row :=
  d.before.map (fun b => Row.flat b.time b.close) ++ d.activeRows

/-- The times and net returns from the entry on. -/
def points (d : Draft) : List (Int64 × Float) :=
  d.activeRows.map fun r => (r.time, r.netReturn)

/-- How many lines had to be made presentable. -/
def coerced (d : Draft) : Nat :=
  d.active.countP fun b => !(d.exposure.mark b.time b.close).isFinite

/-- The time of the last bar. -/
def lastTime (d : Draft) : Int64 :=
  d.active.getLast?.elim d.fill.time Bar.time

end Draft
end TripleBarrier
