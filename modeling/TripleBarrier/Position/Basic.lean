import TripleBarrier.Position.Terms

/-!
# Positions

A position is a description whose terms are sound.  Soundness is part of the type, so whatever
takes a position may rely on a positive price and amount and on finite exit levels.

## Main definitions

* `Position` — sound terms.
* `Position.ofTerms` — a position, or the first broken rule.
* `Position.market` and the `with…` functions — positions built one exit at a time, each exit being
  checked as it is added.
* `Position.deadline?` — the time at which the time limit closes the position.

## Main results

* `Position.ofTerms_eq_ok_iff`, `Position.ofTerms_eq_error_iff` — when there is a position with
  given terms, and which rule is reported otherwise.
-/

namespace TripleBarrier

/-- Terms that break no rule. -/
structure Position where
  terms : Terms
  sound : terms.fault? = none

namespace Position

/-- Positions are compared by their terms, numbers by their values: `0.0` equals `-0.0`. -/
instance : BEq Position where
  beq p q := p.terms == q.terms

/-- The position with the given terms, or the first rule they break. -/
def ofTerms (t : Terms) : Except Terms.Fault Position :=
  match h : t.fault? with
  | none => .ok ⟨t, h⟩
  | some fault => .error fault

/-- A position with given terms has these terms, and no other position has. -/
theorem ofTerms_eq_ok_iff {t : Terms} {p : Position} : ofTerms t = .ok p ↔ p.terms = t := by
  unfold ofTerms
  constructor
  · intro h
    split at h
    · exact Except.ok.inj h ▸ rfl
    · exact absurd h (by simp)
  · rintro rfl
    split
    · rfl
    · next fault h => exact absurd (p.sound.symm.trans h) (by simp)

/-- Terms give no position exactly when they break a rule, which is then reported. -/
theorem ofTerms_eq_error_iff {t : Terms} {fault : Terms.Fault} :
    ofTerms t = .error fault ↔ t.fault? = some fault := by
  unfold ofTerms
  constructor
  · intro h
    split at h
    · exact absurd h (by simp)
    · next f hf => exact Except.error.inj h ▸ hf
  · intro h
    split
    · next hn => exact absurd (hn.symm.trans h) (by simp)
    · next f hf => exact congrArg Except.error (Option.some.inj (hf.symm.trans h))

/-- The terms of a position give it back. -/
@[simp] theorem ofTerms_terms (p : Position) : ofTerms p.terms = .ok p :=
  ofTerms_eq_ok_iff.mpr rfl

/-! ### Building a position -/

/-- A position entered at the market and held to the end of the data. -/
def market (created : Int64) (side : Side) (price amount : Float) : Except Terms.Fault Position :=
  ofTerms { created, side, price, amount }

/-- Enters at a limit price, or at the market.  No rule depends on the kind of entry. -/
def withLimitEntry (p : Position) (isLimit : Bool) : Position :=
  ⟨{ p.terms with isLimit }, p.sound⟩

/-- Adds or replaces the take-profit level. -/
def withTakeProfit (p : Position) (level : Float) : Except Terms.Fault Position :=
  ofTerms { p.terms with takeProfit := some level }

/-- Adds or replaces the stop-loss distance. -/
def withStopLoss (p : Position) (distance : Float) : Except Terms.Fault Position :=
  ofTerms { p.terms with stopLoss := some distance }

/-- Adds or replaces the trailing stop. -/
def withTrail (p : Position) (trail : Trail) : Except Terms.Fault Position :=
  ofTerms { p.terms with trail := some trail }

/-- Adds or replaces the time limit, in seconds after creation. -/
def withTimeLimit (p : Position) (seconds : Int64) : Except Terms.Fault Position :=
  ofTerms { p.terms with timeLimit := some seconds }

/-! ### The deadline -/

/-- The last time that a stamp can hold. -/
def lastTime : Int := Int64.maxValue.toInt

/-- Creation plus the time limit, on the unbounded time line. -/
def exactDeadline? (p : Position) : Option Int :=
  p.terms.timeLimit.map fun seconds => p.terms.created.toInt + seconds.toInt

/-- The time at which the time limit closes the position.  A sum beyond the last time that a stamp
can hold is cut back to that time. -/
def deadline? (p : Position) : Option Int :=
  p.exactDeadline?.map fun t => min t lastTime

end Position
end TripleBarrier
