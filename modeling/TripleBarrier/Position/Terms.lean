import TripleBarrier.Decimal.Layout
import TripleBarrier.Market.Side

/-!
# The terms of a position

What a strategy asks for: when and how to enter, and under which conditions to leave.  Terms may
hold any numbers; the rules that a simulation relies on are checked one by one, and the first rule
that fails is the fault that is reported.

## Main definitions

* `Trail` — the two parameters of a trailing stop.
* `Terms` — the unchecked description of a position.
* `Terms.Fault` — the rules that terms can break, with the offending values.
* `Terms.fault?` — the first broken rule.
-/

namespace TripleBarrier

/-- A trailing stop, both numbers being fractions of the fill price. -/
structure Trail where
  /-- The net return that has to be exceeded before the stop is armed. -/
  activation : Float
  /-- How far the floor stays below the best net return. -/
  distance : Float
  deriving BEq

/-- The description of a position before its values are checked. -/
structure Terms where
  created : Int64
  side : Side
  price : Float
  amount : Float
  isLimit : Bool := false
  takeProfit : Option Float := none
  stopLoss : Option Float := none
  trail : Option Trail := none
  /-- Seconds from creation to the forced exit. -/
  timeLimit : Option Int64 := none
  deriving BEq

namespace Terms

/-- The rules of sound terms, each named with the value that breaks it. -/
inductive Fault
  | price (x : Float)
  | amount (x : Float)
  | takeProfit (x : Float)
  | stopLoss (x : Float)
  | trail (t : Trail)
  | timeLimit (n : Int64)

/-! ### One rule per value -/

/-- Prices and amounts are finite and positive. -/
def isPositive (x : Float) : Bool :=
  x.isFinite && 0.0 < x

/-- Distances are finite and not negative. -/
def isDistance (x : Float) : Bool :=
  x.isFinite && 0.0 ≤ x

/-- The fault of an entry price. -/
def priceFault? (x : Float) : Option Fault :=
  if isPositive x then none else some (.price x)

/-- The fault of an amount. -/
def amountFault? (x : Float) : Option Fault :=
  if isPositive x then none else some (.amount x)

/-- The fault of a take-profit level: any finite return will do. -/
def takeProfitFault? (x : Float) : Option Fault :=
  if x.isFinite then none else some (.takeProfit x)

/-- The fault of a stop-loss distance. -/
def stopLossFault? (x : Float) : Option Fault :=
  if isDistance x then none else some (.stopLoss x)

/-- The fault of a trailing stop. -/
def trailFault? (t : Trail) : Option Fault :=
  if t.activation.isFinite && isDistance t.distance then none else some (.trail t)

/-- The fault of a time limit. -/
def timeLimitFault? (n : Int64) : Option Fault :=
  if n < 0 then some (.timeLimit n) else none

/-- The first rule that the terms break: entry before exits, absent exits breaking none. -/
def fault? (t : Terms) : Option Fault :=
  priceFault? t.price <|> amountFault? t.amount <|> t.takeProfit.bind takeProfitFault? <|>
    t.stopLoss.bind stopLossFault? <|> t.trail.bind trailFault? <|>
    t.timeLimit.bind timeLimitFault?

/-! ### Messages -/

/-- The text of a number in a message. -/
def number (x : Float) : String :=
  String.ofList (Decimal.plain.render x)

/-- What a fault says. -/
def Fault.message : Fault → String
  | price x => "entry price must be finite and positive, got " ++ number x
  | amount x => "amount must be finite and positive, got " ++ number x
  | takeProfit x => "take profit must be finite, got " ++ number x
  | stopLoss x => "stop loss must be finite and non-negative, got " ++ number x
  | trail t =>
    "trailing stop needs finite activation and non-negative delta, got activation=" ++
      number t.activation ++ " delta=" ++ number t.distance
  | timeLimit n =>
    "time limit must be non-negative seconds, got " ++ String.ofList (Text.intText n.toInt)

end Terms
end TripleBarrier
