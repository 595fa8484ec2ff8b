import Std.Data.HashMap
import TripleBarrier.Position.Fingerprint
import TripleBarrier.Simulation.Outcome

/-!
# What a batch yields

The outcomes in the order in which the positions were asked for, an index of them by fingerprint,
and the number of positions that were skipped.

## Main definitions

* `Report` — the outcomes of a batch.
* `Report.ofOutcomes` — builds the index: of equal positions the first one is found.
* `Report.get?` — the outcome for a fingerprint.
* `Report.tally` — how often each barrier closed a position.
-/

namespace TripleBarrier

/-- The outcomes of a batch. -/
structure Report where
  outcomes : List Outcome
  index : Std.HashMap Fingerprint Nat
  skipped : Nat

namespace Report

/-- Enters the places of outcomes, from the given place on, unless the fingerprint is there. -/
def enter (index : Std.HashMap Fingerprint Nat) : Nat → List Outcome →
    Std.HashMap Fingerprint Nat
  | _, [] => index
  | place, o :: rest => enter (index.insertIfNew o.position.fingerprint place) (place + 1) rest

/-- The report of outcomes in order. -/
def ofOutcomes (outcomes : List Outcome) (skipped : Nat) : Report :=
  ⟨outcomes, enter ∅ 0 outcomes, skipped⟩

/-- The place of the outcome for a fingerprint. -/
def place? (r : Report) (f : Fingerprint) : Option Nat :=
  r.index[f]?

/-- The outcome for a fingerprint. -/
def get? (r : Report) (f : Fingerprint) : Option Outcome :=
  (r.place? f).bind fun i => r.outcomes[i]?

/-- Counts a barrier once more.  Counts are kept in the order of the barriers, the strongest first,
and only for those that were counted. -/
def count (reason : ExitReason) : List (ExitReason × Nat) → List (ExitReason × Nat)
  | [] => [(reason, 1)]
  | entry :: rest =>
    if reason = entry.1 then (reason, entry.2 + 1) :: rest
    else if reason ≤ entry.1 then (reason, 1) :: entry :: rest
    else entry :: count reason rest

/-- How often each barrier closed a position. -/
def tally (r : Report) : List (ExitReason × Nat) :=
  r.outcomes.foldl (fun counts o => count o.reason counts) []

/-- How many positions opened. -/
def filled (r : Report) : Nat :=
  r.outcomes.countP Outcome.isFilled

/-- How many positions never opened. -/
def unfilled (r : Report) : Nat :=
  r.outcomes.length - r.filled

/-- Every position opened or did not. -/
theorem filled_add_unfilled (r : Report) : r.filled + r.unfilled = r.outcomes.length :=
  Nat.add_sub_cancel' List.countP_le_length

end Report
end TripleBarrier
