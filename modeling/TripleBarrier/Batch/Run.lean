import TripleBarrier.Batch.Report
import TripleBarrier.Batch.Settings
import TripleBarrier.Simulation.Basic

/-!
# Running a batch

One simulation per position over a shared series.  After each simulation a watcher is told how far
the batch is, and may ask to stop: positions not yet begun are then skipped.

Simulations run one after the other, or side by side.  Since they share nothing but the series, all
that running side by side can change is the order in which they complete: it is a parameter here,
and every outcome is put in the place of its position.

## Main definitions

* `Watcher` — what is done after each simulation.
* `Batch.inSequence` — one simulation after the other.
* `Batch.sideBySide` — simulations that complete in a given order.
* `Batch.run` — a whole batch under settings that are sound.
-/

namespace TripleBarrier

/-- How far a batch is when a simulation completes. -/
structure Progress where
  done : Nat
  total : Nat
  outcome : Outcome

/-- Told of the completed simulations one by one, with a memory of its own.  It answers whether the
batch is to stop. -/
abbrev Watcher (σ : Type) :=
  σ → Progress → σ × Bool

namespace Batch

/-- Why a batch does not run. -/
inductive Error
  | settings (fault : Settings.Fault)
  | unordered (index : Nat)

/-- What an error says. -/
def Error.message : Error → String
  | settings fault => "config error: " ++ fault.message
  | unordered index =>
    "price series not strictly ascending at bar " ++ String.ofList (Text.natText index)

/-! ### Dispatch -/

section
variable {σ : Type} (one : Position → Outcome) (total : Nat) (watch : Watcher σ)

/-- Simulates positions one after the other, `done` of them being complete.  Once the batch is to
stop, the others are skipped. -/
def inSequence : (stopped : Bool) → (done : Nat) → σ → List Position → List (Option Outcome) × σ
  | _, _, memory, [] => ([], memory)
  | true, done, memory, _ :: rest =>
    let (outcomes, memory) := inSequence true done memory rest
    (none :: outcomes, memory)
  | false, done, memory, p :: rest =>
    let outcome := one p
    let (memory, stop) := watch memory ⟨done + 1, total, outcome⟩
    let (outcomes, memory) := inSequence stop (done + 1) memory rest
    (some outcome :: outcomes, memory)

/-- A batch that was stopped before it began skips every position. -/
theorem inSequence_true (done : Nat) (memory : σ) (positions : List Position) :
    inSequence one total watch true done memory positions =
      (positions.map fun _ => none, memory) := by
  induction positions with
  | nil => rfl
  | cons p rest ih => rw [inSequence, ih]; rfl

/-- A batch whose simulations run side by side: the outcomes so far, in the places of their
positions. -/
structure Dispatch (σ : Type) where
  outcomes : List (Option Outcome)
  done : Nat
  stopped : Bool
  memory : σ

/-- The simulation of the position in one place is begun and completed, unless the batch has been
stopped. -/
def Dispatch.complete (positions : List Position) (d : Dispatch σ) (place : Nat) : Dispatch σ :=
  match d.stopped, positions[place]? with
  | false, some p =>
    let (memory, stop) := watch d.memory ⟨d.done + 1, total, one p⟩
    ⟨d.outcomes.set place (some (one p)), d.done + 1, stop, memory⟩
  | _, _ => d

/-- Simulates positions that complete in the order of the given places. -/
def sideBySide (order : List Nat) (stopped : Bool) (memory : σ) (positions : List Position) :
    List (Option Outcome) × σ :=
  let last := order.foldl (Dispatch.complete one total watch positions)
    ⟨positions.map fun _ => none, 0, stopped, memory⟩
  (last.outcomes, last.memory)

end

/-! ### Whole batches -/

/-- The report of a batch whose positions were simulated or skipped. -/
def report (outcomes : List (Option Outcome)) : Report :=
  Report.ofOutcomes (outcomes.filterMap id) (outcomes.countP Option.isNone)

/-- Simulates every position under the settings.  Positions that run side by side complete in the
given order; `stopped` tells that the batch is to stop before it begins. -/
def outcomes {σ : Type} (settings : Settings) (series : List Bar) (positions : List Position)
    (order : List Nat) (stopped : Bool) (watch : Watcher σ) (memory : σ) :
    List (Option Outcome) × σ :=
  let one := fun p => simulate series p ⟨settings.costRate⟩
  if settings.parallel then sideBySide one positions.length watch order stopped memory positions
  else inSequence one positions.length watch stopped 0 memory positions

/-- Runs a batch: settings are checked first, then the order of the series, and only then is
anything simulated.  The watcher's memory is given back in every case. -/
def run {σ : Type} (settings : Settings) (series : List Bar) (positions : List Position)
    (order : List Nat) (stopped : Bool) (watch : Watcher σ) (memory : σ) :
    Except Error Report × σ :=
  match settings.fault?, Series.firstUnordered? series with
  | some fault, _ => (.error (.settings fault), memory)
  | none, some index => (.error (.unordered index), memory)
  | none, none =>
    let (outcomes, memory) := outcomes settings series positions order stopped watch memory
    (.ok (report outcomes), memory)

end Batch
end TripleBarrier
