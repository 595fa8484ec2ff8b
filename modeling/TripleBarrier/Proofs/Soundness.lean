import Mathlib
import TripleBarrier.Position.Basic

/-!
# What sound terms promise

The rules that terms are checked by are independent of each other: no rule is broken exactly when
each value passes its own.  So the numbers of a position are finite.

## Main results

* `Terms.fault?_eq_none_iff` — no rule is broken when each value passes its own.
* `Position.isFinite_of_mem_numbers` — the numbers of a position are finite.
-/

namespace TripleBarrier

/-- The two numbers of a trailing stop. -/
def Trail.numbers (t : Trail) : List Float :=
  [t.activation, t.distance]

namespace Terms

/-- All numbers of the terms. -/
def numbers (t : Terms) : List Float :=
  t.price :: t.amount :: (t.takeProfit.toList ++ t.stopLoss.toList ++
    t.trail.toList.flatMap Trail.numbers)

/-- No rule is broken exactly when none is broken by any part. -/
theorem fault?_eq_none_iff_rules {t : Terms} :
    t.fault? = none ↔ priceFault? t.price = none ∧ amountFault? t.amount = none ∧
      t.takeProfit.bind takeProfitFault? = none ∧ t.stopLoss.bind stopLossFault? = none ∧
      t.trail.bind trailFault? = none ∧ t.timeLimit.bind timeLimitFault? = none := by
  have hnone : ∀ a b : Option Fault, (a <|> b) = none ↔ a = none ∧ b = none := by
    intro a b
    cases a <;> simp
  unfold fault?
  rw [hnone, hnone, hnone, hnone, hnone]

/-- **No rule is broken exactly when each value passes its own.** -/
theorem fault?_eq_none_iff {t : Terms} :
    t.fault? = none ↔ isPositive t.price ∧ isPositive t.amount ∧
      (∀ x ∈ t.takeProfit, x.isFinite) ∧ (∀ x ∈ t.stopLoss, isDistance x) ∧
      (∀ s ∈ t.trail, s.activation.isFinite ∧ isDistance s.distance) ∧
      ∀ n ∈ t.timeLimit, ¬n < 0 := by
  rw [fault?_eq_none_iff_rules]
  simp only [priceFault?, amountFault?, Option.bind_eq_none_iff, takeProfitFault?, stopLossFault?,
    trailFault?, timeLimitFault?]
  simp

theorem trailFault?_eq_none_iff {t : Trail} :
    trailFault? t = none ↔ t.activation.isFinite ∧ isDistance t.distance := by
  simp [trailFault?]

/-- What passes for positive or for a distance is finite. -/
theorem isFinite_of_isPositive {x : Float} (h : isPositive x) : x.isFinite :=
  (Bool.and_eq_true_iff.mp h).1

theorem pos_of_isPositive {x : Float} (h : isPositive x) : 0.0 < x :=
  of_decide_eq_true (Bool.and_eq_true_iff.mp h).2

theorem isFinite_of_isDistance {x : Float} (h : isDistance x) : x.isFinite :=
  (Bool.and_eq_true_iff.mp h).1

end Terms

namespace Position

variable (p : Position)

theorem isFinite_takeProfit : ∀ x ∈ p.terms.takeProfit, x.isFinite :=
  (Terms.fault?_eq_none_iff.mp p.sound).2.2.1

theorem isFinite_stopLoss : ∀ x ∈ p.terms.stopLoss, x.isFinite := fun x hx =>
  Terms.isFinite_of_isDistance ((Terms.fault?_eq_none_iff.mp p.sound).2.2.2.1 x hx)

theorem isFinite_trail : ∀ s ∈ p.terms.trail, ∀ x ∈ s.numbers, x.isFinite := by
  intro s hs
  obtain ⟨hactivation, hdistance⟩ := (Terms.fault?_eq_none_iff.mp p.sound).2.2.2.2.1 s hs
  simp only [Trail.numbers, List.forall_mem_cons]
  exact ⟨hactivation, Terms.isFinite_of_isDistance hdistance, fun _ h => nomatch h⟩

theorem timeLimit_nonneg : ∀ seconds ∈ p.terms.timeLimit, 0 ≤ seconds.toInt := by
  intro seconds hseconds
  have hnonneg : ¬seconds < 0 := (Terms.fault?_eq_none_iff.mp p.sound).2.2.2.2.2 seconds hseconds
  exact Int64.le_iff_toInt_le.mp (Int64.not_lt.mp hnonneg)

/-- **The numbers of a position are finite.** -/
theorem isFinite_of_mem_numbers : ∀ x ∈ p.terms.numbers, x.isFinite := by
  obtain ⟨hprice, hamount, -⟩ := Terms.fault?_eq_none_iff.mp p.sound
  intro x hx
  simp only [Terms.numbers, List.mem_cons, List.mem_append, Option.mem_toList, List.mem_flatMap]
    at hx
  rcases hx with rfl | rfl | (hx | hx) | ⟨s, hs, hx⟩
  · exact Terms.isFinite_of_isPositive hprice
  · exact Terms.isFinite_of_isPositive hamount
  · exact p.isFinite_takeProfit x hx
  · exact p.isFinite_stopLoss x hx
  · exact p.isFinite_trail s hs x hx

end Position
end TripleBarrier
