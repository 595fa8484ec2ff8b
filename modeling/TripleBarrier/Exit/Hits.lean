import TripleBarrier.Exit.Reason
import TripleBarrier.Exit.TrailingStop
import TripleBarrier.Ledger.Draft

/-!
# Which barrier is reached first

Each barrier is looked for on its own, from the entry on.  Take profit and trailing stop look at
net returns, which come from closes and include costs; the stop loss looks at the bar's low or
high and ignores costs.  The earliest hit closes the position, and of hits at the same time the one
with the lowest rank.

Times of hits are points on the unbounded time line, where the deadline lies too.

## Main definitions

* `Hits` — when each barrier is first reached.
* `Hits.find` — the hits of a draft.
* `Hits.exit` — the barrier that closes the position.

## Main results

* `Hits.exit_mem`, `Hits.not_precedes_exit` — the exit is one of the hits, and none precedes it.
-/

namespace TripleBarrier

/-- A barrier and the time at which it is reached. -/
structure Exit where
  reason : ExitReason
  time : Int
  deriving DecidableEq, Repr

/-- Earlier exits win, and of two at the same time the one with the lower rank. -/
def Exit.precedes (a b : Exit) : Bool :=
  a.time < b.time || a.time == b.time && a.reason.rank < b.reason.rank

theorem Exit.precedes_iff {a b : Exit} :
    a.precedes b ↔ a.time < b.time ∨ a.time = b.time ∧ a.reason.rank < b.reason.rank := by
  simp [precedes]

/-- When each barrier is first reached.  The time limit is always there, since the data end. -/
structure Hits where
  takeProfit : Option Int := none
  stopLoss : Option Int := none
  trailingStop : Option Int := none
  timeLimit : Int

/-! ### Single barriers -/

/-- The price at which a stop loss closes a position filled at `fill`. -/
def Side.stopPrice (side : Side) (fill distance : Float) : Float :=
  fill * (1.0 - distance * side.sign)

/-- Whether a bar reaches a stop: with its low from above, or with its high from below. -/
def Side.reachesStop (side : Side) (stop : Float) (b : Bar) : Bool :=
  match side with
  | .long => b.low ≤ stop
  | .short => stop ≤ b.high

namespace Draft

/-- The first time at which the net return exceeds a level. -/
def takeProfitTime? (d : Draft) (level : Float) : Option Int64 :=
  (d.points.find? fun point => level < point.2).map (·.1)

/-- The first time at which a bar reaches the stop. -/
def stopLossTime? (d : Draft) (distance : Float) : Option Int64 :=
  (d.active.find? (d.exposure.side.reachesStop
    (d.exposure.side.stopPrice d.fill.price distance))).map Bar.time

/-- The first time at which the net returns trigger a trailing stop. -/
def trailingStopTime? (d : Draft) (trail : Trail) : Option Int64 :=
  (TrailingStop.start trail).triggerTime? d.points

end Draft

/-! ### All barriers -/

namespace Hits

/-- The hits of a draft.  Without a deadline the position is held to the last bar. -/
def find (d : Draft) (t : Terms) (deadline : Option Int) : Hits where
  takeProfit := (t.takeProfit.bind d.takeProfitTime?).map Int64.toInt
  stopLoss := (t.stopLoss.bind d.stopLossTime?).map Int64.toInt
  trailingStop := (t.trail.bind d.trailingStopTime?).map Int64.toInt
  timeLimit := deadline.getD d.lastTime.toInt

/-- The barriers that are reached, by rank. -/
def exits (h : Hits) : List Exit :=
  (h.takeProfit.map (⟨.takeProfit, ·⟩)).toList ++ (h.stopLoss.map (⟨.stopLoss, ·⟩)).toList ++
    (h.trailingStop.map (⟨.trailingStop, ·⟩)).toList ++ [⟨.timeLimit, h.timeLimit⟩]

/-- The barrier that closes the position: no other exit precedes it. -/
def exit (h : Hits) : Exit :=
  h.exits.foldl (fun best e => if e.precedes best then e else best) ⟨.timeLimit, h.timeLimit⟩

/-! ### The exit is the first hit -/

private theorem foldl_earlier_mem (exits : List Exit) (first : Exit) :
    exits.foldl (fun best e => if e.precedes best then e else best) first ∈ first :: exits := by
  induction exits generalizing first with
  | nil => exact List.mem_cons_self
  | cons e rest ih =>
    rw [List.foldl_cons]
    split
    · exact List.mem_cons_of_mem first (ih e)
    · rcases List.mem_cons.mp (ih first) with h | h
      · rw [h]; exact List.mem_cons_self
      · exact List.mem_cons_of_mem first (List.mem_cons_of_mem e h)

/-- What precedes the earliest of several exits would precede each of them. -/
private theorem not_precedes_foldl_earlier (exits : List Exit) (first : Exit) :
    ∀ e ∈ first :: exits, e.precedes
      (exits.foldl (fun best e => if e.precedes best then e else best) first) = false := by
  induction exits generalizing first with
  | nil =>
    intro e he
    rw [List.mem_singleton.mp he, List.foldl_nil, ← Bool.not_eq_true, Exit.precedes_iff]
    omega
  | cons e rest ih =>
    intro x hx
    rw [List.foldl_cons]
    split
    · next he =>
      rcases List.mem_cons.mp hx with rfl | hx
      · -- the first exit comes after `e`, which itself does not precede the result
        have := ih e e List.mem_cons_self
        rw [← Bool.not_eq_true, Exit.precedes_iff] at this ⊢
        rw [Exit.precedes_iff] at he
        omega
      · exact ih e x hx
    · next he =>
      rcases List.mem_cons.mp hx with rfl | hx
      · exact ih x x List.mem_cons_self
      · rcases List.mem_cons.mp hx with rfl | hx
        · have := ih first first List.mem_cons_self
          rw [← Bool.not_eq_true, Exit.precedes_iff] at this ⊢
          rw [Exit.precedes_iff] at he
          omega
        · exact ih first x (List.mem_cons_of_mem first hx)

theorem timeLimit_mem_exits (h : Hits) : (⟨.timeLimit, h.timeLimit⟩ : Exit) ∈ h.exits :=
  List.mem_append_right _ List.mem_cons_self

/-- The exit is one of the hits. -/
theorem exit_mem (h : Hits) : h.exit ∈ h.exits := by
  rcases List.mem_cons.mp (foldl_earlier_mem h.exits ⟨.timeLimit, h.timeLimit⟩) with hx | hx
  · rw [exit, hx]; exact h.timeLimit_mem_exits
  · exact hx

/-- **No hit precedes the exit.** -/
theorem not_precedes_exit {h : Hits} {e : Exit} (he : e ∈ h.exits) : e.precedes h.exit = false :=
  not_precedes_foldl_earlier h.exits _ e (List.mem_cons_of_mem _ he)

end Hits
end TripleBarrier
