/-!
# Ledger rows

One row per bar: the bar's close and what the position is worth if it is left at that price.  What
a row shows about the position is always a finite number, a value that is not being shown as zero.

## Main definitions

* `finiteOrZero` — a number as a ledger shows it.
* `Row` — one line of the ledger.
* `Row.flat` — the line of a bar at which no position is open.
* `Row.isFinite`, `Row.cleaned` — whether and how a line has to be made presentable.

## Main results

* `Row.isFinite_cleaned` — what a presentable line says about the position is finite.
* `Row.cleaned_of_isFinite` — a line that is finite is shown as it is.
-/

namespace TripleBarrier

/-- The number itself if it is finite, and zero otherwise. -/
def finiteOrZero (x : Float) : Float :=
  if x.isFinite then x else 0.0

theorem finiteOrZero_of_isFinite {x : Float} (h : x.isFinite) : finiteOrZero x = x :=
  if_pos h

theorem finiteOrZero_of_not_isFinite {x : Float} (h : x.isFinite = false) : finiteOrZero x = 0.0 :=
  if_neg (Bool.eq_false_iff.mp h)

/-- A ledger shows finite numbers only. -/
@[simp] theorem isFinite_finiteOrZero (x : Float) : (finiteOrZero x).isFinite := by
  unfold finiteOrZero
  split
  · assumption
  · decide

/-- One line of a ledger. -/
structure Row where
  time : Int64
  /-- The close of the bar. -/
  price : Float
  /-- The return on the fill price, after costs. -/
  netReturn : Float
  /-- The return as an amount of money. -/
  profit : Float
  /-- The fees of entry and exit together. -/
  fees : Float
  /-- The money moved. -/
  volume : Float
  /-- The fill price. -/
  averageEntry : Float

namespace Row

/-- The line of a bar at which no position is open. -/
def flat (time : Int64) (price : Float) : Row :=
  ⟨time, price, 0.0, 0.0, 0.0, 0.0, 0.0⟩

/-- Whether all that the line says about the position is finite. -/
def isFinite (r : Row) : Bool :=
  r.netReturn.isFinite && r.profit.isFinite && r.fees.isFinite && r.volume.isFinite &&
    r.averageEntry.isFinite

/-- The line as it is shown: what it says about the position is finite, while the price stays as
the market gave it. -/
def cleaned (r : Row) : Row :=
  { r with
    netReturn := finiteOrZero r.netReturn
    profit := finiteOrZero r.profit
    fees := finiteOrZero r.fees
    volume := finiteOrZero r.volume
    averageEntry := finiteOrZero r.averageEntry }

@[simp] theorem time_cleaned (r : Row) : r.cleaned.time = r.time := rfl

@[simp] theorem price_cleaned (r : Row) : r.cleaned.price = r.price := rfl

/-- **What a presentable line says about the position is finite.** -/
@[simp] theorem isFinite_cleaned (r : Row) : r.cleaned.isFinite := by
  simp [isFinite, cleaned]

/-- A line that is finite is shown as it is. -/
theorem cleaned_of_isFinite {r : Row} (h : r.isFinite) : r.cleaned = r := by
  simp only [isFinite, Bool.and_eq_true] at h
  simp only [cleaned, finiteOrZero_of_isFinite, h]

end Row
end TripleBarrier
