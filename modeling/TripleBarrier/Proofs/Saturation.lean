import TripleBarrier.Proofs.Refinement
import TripleBarrier.Proofs.Soundness

/-!
# Deadlines beyond the last time

A deadline that no stamp can hold is cut back to the last time that one can.  This changes the hit
of the time limit, and it may come to lie on the very bar on which another barrier is reached, where
it used to lie behind it.  But no bar comes after the last time, so the same bars lie within both
deadlines; and a simulation depends on its deadline by the bars within it only, since of two hits on
one bar the time limit is the weaker one.

## Main results

* `Position.exists_stamp_of_deadline?` — a deadline is a time that a stamp can hold.
* `walkUntil_congr` — a walk depends on its deadline by the bars within it.
* `Position.isWithin_exactDeadline?` — the same bars lie within the exact deadline.
* `simulate_eq_simulateUntil_exactDeadline` — **cutting back a deadline changes nothing.**
-/

namespace TripleBarrier

namespace Position

variable (p : Position)

/-- A deadline is a time that a stamp can hold. -/
theorem exists_stamp_of_deadline? : ∀ time ∈ p.deadline?, ∃ stamp : Int64, stamp.toInt = time := by
  intro time htime
  obtain ⟨exact, hexact, rfl⟩ := Option.map_eq_some_iff.mp htime
  obtain ⟨seconds, hseconds, rfl⟩ := Option.map_eq_some_iff.mp hexact
  have hnonneg := p.timeLimit_nonneg seconds hseconds
  have hcreated := p.terms.created.le_toInt
  refine ⟨Int64.ofInt (min (p.terms.created.toInt + seconds.toInt) lastTime), ?_⟩
  have hlast : lastTime = 2 ^ 63 - 1 := rfl
  refine Int64.toInt_ofInt_of_le ?_ ?_
  · omega
  · omega

/-- The same bars lie within the exact deadline and within the one that is cut back. -/
theorem isWithin_exactDeadline? (b : Bar) :
    b.isWithin p.exactDeadline? = b.isWithin p.deadline? := by
  have hlast : b.time.toInt ≤ lastTime := b.time.toInt_le
  unfold deadline?
  cases p.exactDeadline? with
  | none => rfl
  | some time =>
    have hiff : b.time.toInt ≤ time ↔ b.time.toInt ≤ min time lastTime := by omega
    simpa [Bar.isWithin] using hiff

end Position

/-- A walk depends on its deadline by the bars within it. -/
theorem walkUntil_congr {deadline deadline' : Option Int}
    (h : ∀ b : Bar, b.isWithin deadline = b.isWithin deadline') (series : List Bar) (p : Position)
    (fees : Fees) : walkUntil deadline series p fees = walkUntil deadline' series p fees := by
  have hbetween : Series.isBetween p.terms.created deadline
      = Series.isBetween p.terms.created deadline' := by
    funext b
    rw [Series.isBetween, h b, Series.isBetween]
  unfold walkUntil Walk.bars
  rw [hbetween]

/-- **Cutting back a deadline changes nothing**: a simulation yields the same with the deadline on
the unbounded time line, on which every sum is exact. -/
theorem simulate_eq_simulateUntil_exactDeadline {series : List Bar} (h : Series.Ascending series)
    (p : Position) (fees : Fees) :
    (∀ time ∈ p.deadline?, ∃ stamp : Int64, stamp.toInt = time) ∧
      simulate series p fees = simulateUntil p.exactDeadline? series p fees := by
  refine ⟨p.exists_stamp_of_deadline?, ?_⟩
  calc simulate series p fees
      = walkUntil p.deadline? series p fees := simulateUntil_eq_walkUntil h p.deadline? p fees
    _ = walkUntil p.exactDeadline? series p fees :=
        (walkUntil_congr p.isWithin_exactDeadline? series p fees).symm
    _ = simulateUntil p.exactDeadline? series p fees :=
        (simulateUntil_eq_walkUntil h p.exactDeadline? p fees).symm

/-- The last bars that there can be. -/
def lastBars : List Bar :=
  [.flat (Int64.maxValue - 120) 100.0, .flat (Int64.maxValue - 60) 100.5,
    .flat Int64.maxValue 110.0]

/-- A position that takes its profit on the last bar, and is limited to a time beyond it. -/
def lastPosition : Position where
  terms :=
    { created := Int64.maxValue - 120, side := .long, price := 100.0, amount := 1.0
      takeProfit := some 0.05, timeLimit := some Int64.maxValue }
  sound := by decide +kernel

/-- The deadline is cut back to the bar on which the profit is taken, which is taken
all the same. -/
theorem simulate_eq_simulateUntil_of_lastBars :
    Series.Ascending lastBars ∧ lastPosition.deadline? = some Int64.maxValue.toInt ∧
      lastPosition.exactDeadline? = some (2 ^ 64 - 122) ∧
      (simulate lastBars lastPosition ⟨0.0004⟩).reason = .takeProfit ∧
      (simulate lastBars lastPosition ⟨0.0004⟩).closeTime? = some Int64.maxValue ∧
      simulate lastBars lastPosition ⟨0.0004⟩
        = simulateUntil lastPosition.exactDeadline? lastBars lastPosition ⟨0.0004⟩ :=
  ⟨by decide, by decide +kernel, by decide +kernel, by decide +kernel, by decide +kernel,
    (simulate_eq_simulateUntil_exactDeadline (by decide) lastPosition ⟨0.0004⟩).2⟩

end TripleBarrier
