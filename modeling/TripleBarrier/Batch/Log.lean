import TripleBarrier.Batch.Run

/-!
# What a batch reports

A batch reports its size before it begins and its tallies when it is over, and in between what its
simulations report.  A batch that skipped positions says so.
-/

namespace TripleBarrier
namespace Batch

open Log

/-- How a tally names a barrier. -/
def tallyName : ExitReason → String
  | .takeProfit => "TakeProfit"
  | .stopLoss => "StopLoss"
  | .trailingStop => "TrailingStop"
  | .timeLimit => "TimeLimit"

/-- The text of a tally. -/
def tallyText (tally : List (ExitReason × Nat)) : String :=
  bracedText "" (tally.map fun entry => tallyName entry.1 ++ ": " ++ intText entry.2)

/-- Reports the size of a batch before it begins. -/
def startedEvent (settings : Settings) (series : List Bar) (positions : List Position) : Event :=
  ⟨.info, "batch started",
    [("positions", .int positions.length), ("bars", .int series.length),
      ("parallel", .bool settings.parallel),
      ("threads", .text (optionText (settings.threads.map Int.ofNat)))]⟩

/-- Reports the end of a batch, and before it how many positions were skipped, if any. -/
def finishedEvents (r : Report) : List Event :=
  let finished : Event := ⟨.info, "batch finished",
    [("completed", .int r.outcomes.length), ("filled", .int r.filled),
      ("close_types", .text (tallyText r.tally))]⟩
  if r.skipped = 0 then [finished]
  else [⟨.info, "batch cancelled",
    [("skipped", .int r.skipped), ("completed", .int r.outcomes.length)]⟩, finished]

/-- The events of a batch that ran its positions in sequence and gave the report. -/
def log (settings : Settings) (series : List Bar) (positions : List Position) (r : Report) :
    List Event :=
  startedEvent settings series positions ::
    (r.outcomes.flatMap fun o => simulationLog series o.position ⟨settings.costRate⟩) ++
    finishedEvents r

end Batch
end TripleBarrier
