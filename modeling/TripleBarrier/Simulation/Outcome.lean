import TripleBarrier.Exit.Reason
import TripleBarrier.Ledger.Row
import TripleBarrier.Position.Entry

/-!
# What a simulation yields

The ledger of a position from its creation through its exit, with the barrier that closed it and
the bar of entry.  The figures of the whole position are those of the last line.
-/

namespace TripleBarrier

/-- The outcome of one simulated position. -/
structure Outcome where
  position : Position
  rows : List Row
  reason : ExitReason
  /-- The bar of entry, absent if the position never opened. -/
  fill : Option Fill

namespace Outcome

/-- The position opened. -/
def isFilled (o : Outcome) : Bool :=
  o.fill.isSome

/-- The last line of the ledger. -/
def finalRow? (o : Outcome) : Option Row :=
  o.rows.getLast?

/-- The time of the last line. -/
def closeTime? (o : Outcome) : Option Int64 :=
  o.finalRow?.map Row.time

/-- The return of the whole position, zero without any line. -/
def netReturn (o : Outcome) : Float :=
  o.finalRow?.elim 0.0 Row.netReturn

/-- The profit of the whole position, zero without any line. -/
def profit (o : Outcome) : Float :=
  o.finalRow?.elim 0.0 Row.profit

/-- The fees of the whole position, zero without any line. -/
def fees (o : Outcome) : Float :=
  o.finalRow?.elim 0.0 Row.fees

end Outcome
end TripleBarrier
