import TripleBarrier.Simulation.Events

/-!
# Simulating a position

A position opens at the first bar on which its order fills, is marked to the end of the data, and
is closed by the barrier that is reached first.  The run of a simulation yields its outcome and the
events it reports; both depend on nothing but the series, the position and the fees.

## Main definitions

* `Simulation` — an outcome with the events reported on the way.
* `Simulation.run` — the run with a given deadline on the unbounded time line.
* `simulate`, `simulationLog` — outcome and events with the deadline of the position itself.

## Main results

* `Simulation.run_of_unfilled`, `Simulation.run_of_filled` — the run of a position that never opens,
  and of one with a known entry.
* `simulate_position`, `simulate_fill` — the position and the entry of an outcome.
-/

namespace TripleBarrier

/-- An outcome with the events that were reported on the way. -/
structure Simulation where
  outcome : Outcome
  log : List Log.Event

/-! ### The two courses of a simulation -/

/-- Flat lines for a position that never opens, from creation through the deadline. -/
def unfilledRows (series : List Bar) (t : Terms) (deadline : Option Int) : List Row :=
  (Series.window series t.created deadline).map fun b => Row.flat b.time b.close

/-- The course of a position that never opens. -/
def Simulation.unfilled (deadline : Option Int) (series : List Bar) (p : Position) :
    Simulation :=
  let rows := unfilledRows series p.terms deadline
  ⟨⟨p, rows, .timeLimit, none⟩, [p.terms.neverEntered series.length rows.length]⟩

/-- The draft of a position with a known entry. -/
def draftOf (series : List Bar) (t : Terms) (fees : Fees) (fill : Fill) : Draft :=
  Draft.build series (Series.startIndex series t.created) fill t fees

/-- The lines of a draft up to an exit, the last of them not yet written anew. -/
def Draft.rowsUpTo (d : Draft) (exit : Exit) : List Row :=
  Ledger.upTo d.rows exit.time

/-- The outcome of a draft that is closed by an exit. -/
def Draft.outcome (d : Draft) (p : Position) (exit : Exit) : Outcome where
  position := p
  rows := Ledger.close (d.rowsUpTo exit) d.fill.time d.exposure
  reason := exit.reason
  fill := some d.fill

/-- The course of a position with a known entry: the hits of its barriers are looked for in the
draft, and the first one closes it. -/
def Simulation.filled (deadline : Option Int) (p : Position) (d : Draft) : Simulation :=
  let hits := Hits.find d p.terms deadline
  let outcome := d.outcome p hits.exit
  ⟨outcome, d.warnings ++ hits.event ::
    (Ledger.closingWarnings (d.rowsUpTo hits.exit) d.fill.time d.exposure ++
      [outcome.closedEvent d.fill])⟩

/-! ### Simulations -/

/-- The run of a position that is closed no later than at the deadline. -/
def Simulation.run (deadline : Option Int) (series : List Bar) (p : Position) (fees : Fees) :
    Simulation :=
  match Series.fill? series p.terms deadline with
  | none => .unfilled deadline series p
  | some fill => .filled deadline p (draftOf series p.terms fees fill)

/-- The outcome of a position that is closed no later than at the deadline. -/
def simulateUntil (deadline : Option Int) (series : List Bar) (p : Position) (fees : Fees) :
    Outcome :=
  (Simulation.run deadline series p fees).outcome

/-- The outcome of a position over a series, which is expected to ascend. -/
def simulate (series : List Bar) (p : Position) (fees : Fees) : Outcome :=
  simulateUntil p.deadline? series p fees

/-- The events that the simulation of a position reports, in order. -/
def simulationLog (series : List Bar) (p : Position) (fees : Fees) : List Log.Event :=
  (Simulation.run p.deadline? series p fees).log

/-! ### Which course is taken -/

theorem Simulation.run_of_unfilled {deadline : Option Int} {series : List Bar} {p : Position}
    (fees : Fees) (h : Series.fill? series p.terms deadline = none) :
    run deadline series p fees = unfilled deadline series p := by
  rw [run, h]

theorem Simulation.run_of_filled {deadline : Option Int} {series : List Bar} {p : Position}
    (fees : Fees) {fill : Fill} (h : Series.fill? series p.terms deadline = some fill) :
    run deadline series p fees = filled deadline p (draftOf series p.terms fees fill) := by
  rw [run, h]

/-! ### What is known without the course -/

section
variable (series : List Bar) (p : Position) (fees : Fees)

/-- A simulation is one of its position. -/
theorem simulate_position : (simulate series p fees).position = p := by
  unfold simulate simulateUntil Simulation.run
  split
  · rfl
  · rfl

/-- The entry of a simulation is the first bar that fills the order. -/
theorem simulate_fill :
    (simulate series p fees).fill = Series.fill? series p.terms p.deadline? := by
  unfold simulate simulateUntil Simulation.run
  cases Series.fill? series p.terms p.deadline? with
  | none => rfl
  | some fill => rfl

end

end TripleBarrier
