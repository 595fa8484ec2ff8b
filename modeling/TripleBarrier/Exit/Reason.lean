/-!
# Reasons for an exit

The four barriers that close a position.  Their order settles which of two barriers is named when
both are reached on the same bar: the earlier one in the list.
-/

namespace TripleBarrier

/-- The barrier that closed a position. -/
inductive ExitReason
  | takeProfit
  | stopLoss
  | trailingStop
  | timeLimit
  deriving DecidableEq, Repr

namespace ExitReason

/-- All barriers, the strongest first. -/
def all : List ExitReason :=
  [takeProfit, stopLoss, trailingStop, timeLimit]

/-- The rank of a barrier among those reached at the same time: the least one is named. -/
def rank : ExitReason → Nat
  | takeProfit => 0
  | stopLoss => 1
  | trailingStop => 2
  | timeLimit => 3

/-- The name a barrier is written by. -/
def name : ExitReason → String
  | takeProfit => "take_profit"
  | stopLoss => "stop_loss"
  | trailingStop => "trailing_stop"
  | timeLimit => "time_limit"

/-- Barriers are ordered by rank. -/
instance : LE ExitReason where
  le a b := a.rank ≤ b.rank

instance (a b : ExitReason) : Decidable (a ≤ b) :=
  inferInstanceAs (Decidable (a.rank ≤ b.rank))

end ExitReason
end TripleBarrier
