import TripleBarrier.Exit.Hits
import TripleBarrier.Ledger.Closing
import TripleBarrier.Log.Event
import TripleBarrier.Simulation.Outcome

/-!
# What the stages of a simulation report

Ledger lines that had to be made presentable are warned of: those of the draft together, the
closing line by itself.  The hits of the barriers, the exit, and a position that never opened are
reported for diagnosis.
-/

namespace TripleBarrier

open Log

/-- Warns of the lines of a draft that are not finite. -/
def Draft.warnings (d : Draft) : List Event :=
  if d.coerced = 0 then []
  else [⟨.warn, "non-finite ledger values coerced to 0.0",
    [("coerced", .int d.coerced), ("entry_timestamp", .int d.fill.time.toInt),
      ("fill_price", .float d.fill.price)]⟩]

/-- Reports when each barrier is reached. -/
def Hits.event (h : Hits) : Event :=
  ⟨.trace, "barrier candidates",
    [("candidates", .text (bracedText "BarrierCandidates"
      ["take_profit: " ++ optionText h.takeProfit, "stop_loss: " ++ optionText h.stopLoss,
        "trailing_stop: " ++ optionText h.trailingStop, "time_limit: " ++ intText h.timeLimit]))]⟩

/-- Warns of a closing line that is not finite. -/
def Ledger.closingWarnings (rows : List Row) (entry : Int64) (e : Exposure) : List Event :=
  match closingRow? rows entry e with
  | none => []
  | some row =>
    if row.isFinite then []
    else [⟨.warn, "non-finite close row values coerced to 0.0",
      [("close_timestamp", .int row.time.toInt), ("fill_price", .float e.fillPrice)]⟩]

/-- Reports a position that never opened: the length of the series and of its flat ledger. -/
def Terms.neverEntered (t : Terms) (bars rows : Nat) : Event :=
  ⟨.debug, "position never entered",
    [("bars", .int bars), ("rows", .int rows), ("limit_entry", .bool t.isLimit)]⟩

/-- Reports the exit of a position. -/
def Outcome.closedEvent (o : Outcome) (fill : Fill) : Event :=
  ⟨.debug, "position closed",
    [("close_type", .text o.reason.name), ("entry_timestamp", .int fill.time.toInt),
      ("close_timestamp", .text (optionText (o.closeTime?.map Int64.toInt)))]⟩

end TripleBarrier
