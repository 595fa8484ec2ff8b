import TripleBarrier.Calendar
import TripleBarrier.Market.Side

/-!
# Price bars and series

A bar summarises trading at one point in time by four prices.  A series is a list of bars; the
simulation expects their times to ascend strictly, and gaps of any width are allowed.

## Main definitions

* `Bar` — a time and four prices.
* `Bar.isVoid`, `Bar.isSane` — missing prices, and prices that fit together.
* `Series.firstUnordered?` — the first bar that does not come after its predecessor.
* `Series.Ascending` — every earlier bar comes before every later one.
* `Series.startIndex` — where the bars from a given time on begin.

## Main results

* `Series.Ascending.time_lt`, `Series.Ascending.time_le` — the first bar of an ascending series
  comes before the others.
* `Series.firstUnordered?_eq_none_iff` — no bar is out of order exactly when the times ascend.
* `Series.startingAt_eq_dropWhile`, `Series.le_time_of_mem_startingAt` — the bars from a given time
  on.
-/

namespace TripleBarrier

/-- The prices of one bar, stamped with seconds since 1970. -/
structure Bar where
  time : Int64
  opening : Float
  high : Float
  low : Float
  close : Float

namespace Bar

/-- A bar whose four prices are equal. -/
def flat (time : Int64) (price : Float) : Bar :=
  ⟨time, price, price, price, price⟩

/-- Some price is missing. -/
def isVoid (b : Bar) : Bool :=
  b.opening.isNaN || b.high.isNaN || b.low.isNaN || b.close.isNaN

/-- All prices are present, the high and the low enclose the others, and trading took place at
positive prices. -/
def isSane (b : Bar) : Bool :=
  !b.isVoid && b.low ≤ b.high && b.opening ≤ b.high && b.close ≤ b.high && b.low ≤ b.opening &&
    b.low ≤ b.close && 0.0 < b.opening && 0.0 < b.close

/-- The date of the bar, where dates are kept for it. -/
def date? (b : Bar) : Option DateTime :=
  DateTime.ofEpoch? b.time.toInt

end Bar

namespace Series

/-- The index of the first bar whose time does not exceed its predecessor's. -/
def firstUnordered? : List Bar → Option Nat
  | a :: b :: rest =>
    if b.time ≤ a.time then some 1 else (firstUnordered? (b :: rest)).map (· + 1)
  | _ => none

/-- No bar fails to come after its predecessor. -/
def isOrdered (series : List Bar) : Bool :=
  (firstUnordered? series).isNone

/-- The times of a series ascend strictly. -/
def Ascending (series : List Bar) : Prop :=
  series.Pairwise fun a b => a.time < b.time

instance (series : List Bar) : Decidable (Ascending series) :=
  inferInstanceAs (Decidable (series.Pairwise _))

/-- How many bars lead the series with a time before `t`: in an ascending series, the index of the
first bar at or after `t`. -/
def startIndex (series : List Bar) (t : Int64) : Nat :=
  (series.takeWhile fun b => b.time < t).length

/-- The bars at or after `t`, of an ascending series. -/
def startingAt (series : List Bar) (t : Int64) : List Bar :=
  series.drop (startIndex series t)

/-! ### Order -/

/-- A series ascends if its first two bars do and the others follow suit. -/
theorem ascending_cons_cons {a b : Bar} {rest : List Bar} :
    Ascending (a :: b :: rest) ↔ a.time < b.time ∧ Ascending (b :: rest) := by
  unfold Ascending
  rw [List.pairwise_cons]
  refine and_congr_left fun hrest => ⟨fun h => h b List.mem_cons_self, fun hab c hc => ?_⟩
  rcases List.mem_cons.mp hc with rfl | hc
  · exact hab
  · exact Int64.lt_trans hab ((List.pairwise_cons.mp hrest).1 c hc)

/-- A part of an ascending series ascends. -/
theorem Ascending.sublist {part series : List Bar} (h : Ascending series)
    (hpart : part.Sublist series) : Ascending part :=
  List.Pairwise.sublist hpart h

section
variable {a b : Bar} {rest : List Bar} (h : Ascending (a :: rest))
include h

theorem Ascending.tail : Ascending rest :=
  (List.pairwise_cons.mp h).2

/-- The first bar of an ascending series comes before the others. -/
theorem Ascending.time_lt (hb : b ∈ rest) : a.time < b.time :=
  (List.pairwise_cons.mp h).1 b hb

/-- The same on the unbounded time line. -/
theorem Ascending.toInt_lt (hb : b ∈ rest) : a.time.toInt < b.time.toInt :=
  Int64.lt_iff_toInt_lt.mp (h.time_lt hb)

/-- No bar of an ascending series comes before the first one. -/
theorem Ascending.time_le (hb : b ∈ a :: rest) : a.time ≤ b.time := by
  rcases List.mem_cons.mp hb with rfl | hb
  · exact Int64.le_refl _
  · exact Int64.le_of_lt (h.time_lt hb)

end

/-- **No bar is out of order exactly when the times ascend.** -/
theorem firstUnordered?_eq_none_iff {series : List Bar} :
    firstUnordered? series = none ↔ Ascending series := by
  induction series with
  | nil => simp [firstUnordered?, Ascending]
  | cons a rest ih =>
    cases rest with
    | nil => simp [firstUnordered?, Ascending]
    | cons b rest =>
      rw [firstUnordered?, ascending_cons_cons, ← ih]
      split
      · next h => simp [Int64.not_lt.mpr h]
      · next h => simp [Int64.not_le.mp h]

/-! ### Cutting a series -/

theorem startIndex_le_length (series : List Bar) (t : Int64) :
    startIndex series t ≤ series.length :=
  (List.takeWhile_sublist _).length_le

/-- The bars from a given time on are left over when those before it are dropped. -/
theorem startingAt_eq_dropWhile (series : List Bar) (t : Int64) :
    startingAt series t = series.dropWhile fun b => b.time < t := by
  rw [startingAt, startIndex]
  induction series with
  | nil => rfl
  | cons b rest ih =>
    rw [List.takeWhile_cons, List.dropWhile_cons]
    split
    · exact ih
    · rfl

/-- In an ascending series, no bar from the given time on comes before it. -/
theorem le_time_of_mem_startingAt {series : List Bar} (h : Ascending series) {t : Int64} {b : Bar}
    (hb : b ∈ startingAt series t) : t ≤ b.time := by
  rw [startingAt_eq_dropWhile] at hb
  induction series with
  | nil => exact absurd hb List.not_mem_nil
  | cons a rest ih =>
    have hrest := List.pairwise_cons.mp h
    rw [List.dropWhile_cons] at hb
    split at hb
    · exact ih hrest.2 hb
    · next ha =>
      -- the first bar that is kept does not come before `t`, and the others come after it
      have hle : t ≤ a.time := Int64.not_lt.mp (by simpa using ha)
      rcases List.mem_cons.mp hb with rfl | hb
      · exact hle
      · exact Int64.le_trans hle (Int64.le_of_lt (hrest.1 b hb))

end Series
end TripleBarrier
