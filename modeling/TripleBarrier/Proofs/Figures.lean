import TripleBarrier.Batch.Settings
import TripleBarrier.Proofs.Course

/-!
# The figures of a ledger

What a ledger says about the position is finite on every line, whatever the prices: flat lines show
zeros, and the lines of an open position are made presentable one figure at a time.  The price of a
line is not such a figure.  It is the close of its bar, left as the market gave it, so a ledger is
finite throughout exactly when the bars it covers have finite closes.

## Main definitions

* `Row.isNumeric` — the price and all figures of a line are finite.

## Main results

* `exists_shows_of_mem_rows` — a line has the time and the close of a bar, and finite figures.
* `isFinite_and_isNumeric_iff` — **the figures of a ledger are finite, and its prices are
  if the closes are.**
-/

namespace TripleBarrier

/-- An ascending series has at most one bar for each time. -/
theorem Series.Ascending.eq_of_time_eq {series : List Bar} (h : Series.Ascending series) {a b : Bar}
    (ha : a ∈ series) (hb : b ∈ series) (htime : a.time = b.time) : a = b := by
  induction series with
  | nil => exact absurd ha List.not_mem_nil
  | cons c rest ih =>
    rcases List.mem_cons.mp ha with rfl | ha' <;> rcases List.mem_cons.mp hb with rfl | hb'
    · rfl
    · exact absurd (htime ▸ h.time_lt hb') Int64.lt_irrefl
    · exact absurd (htime ▸ h.time_lt ha') Int64.lt_irrefl
    · exact ih h.tail ha' hb'

/-- The price and all that the line says about the position are finite. -/
def Row.isNumeric (r : Row) : Bool :=
  r.price.isFinite && r.isFinite

/-- The line shows the time and the close of a bar, and finite figures next to them. -/
structure Row.Shows (r : Row) (b : Bar) : Prop where
  time : r.time = b.time
  price : r.price = b.close
  isFinite : r.isFinite

/-- A line is finite throughout exactly when the close of its bar is finite. -/
theorem Row.Shows.isNumeric_iff {r : Row} {b : Bar} (h : r.Shows b) :
    r.isNumeric ↔ b.close.isFinite := by
  rw [isNumeric, h.isFinite, h.price, Bool.and_true]

theorem Row.shows_flat (b : Bar) : (Row.flat b.time b.close).Shows b where
  time := rfl
  price := rfl
  isFinite := by simp only [Row.isFinite, Row.flat]; decide

/-- Each figure of an open position is coerced on its own, however much money was moved. -/
theorem Walk.shows_line (t : Terms) (fees : Fees) (fill volume : Float) (b : Bar) :
    (line t fees fill volume b).Shows b where
  time := rfl
  price := rfl
  isFinite := by simp [Row.isFinite, line]

/-- The lines of a course show its bars through the exit. -/
theorem Course.exists_shows_of_mem_rows {p : Position} {fees : Fees} {c : Course p fees} {r : Row}
    (hr : r ∈ c.rows) : ∃ b ∈ c.seen, r.Shows b := by
  rcases mem_rows hr with ⟨b, hb, rfl⟩ | ⟨b, hb, rfl⟩ | rfl
  · exact ⟨b, List.mem_append_left _ hb, Row.shows_flat b⟩
  · exact ⟨b, List.mem_append_right _ (List.mem_append_left _ hb), Walk.shows_line ..⟩
  · exact ⟨c.closing, by simp [seen], Walk.shows_line ..⟩

section
variable {series : List Bar} (h : Series.Ascending series) (p : Position) (fees : Fees)
include h

/-- Every line of a ledger shows a bar of the series: before the entry, from the entry on, on the
exit, and without any entry. -/
theorem exists_shows_of_mem_rows {r : Row} (hr : r ∈ (simulate series p fees).rows) :
    ∃ b ∈ series, r.Shows b := by
  have hsub := Series.window_sublist series p.terms.created p.deadline?
  rcases Course.exists_simulateUntil_eq_outcome h p fees p.deadline? with
    ⟨c, hc, -, houtcome⟩ | hflat
  · rw [simulate, houtcome, Course.rows_outcome] at hr
    obtain ⟨b, hb, hshows⟩ := Course.exists_shows_of_mem_rows hr
    have hbars : b ∈ c.bars := c.bars_eq_seen_append ▸ List.mem_append_left _ hb
    exact ⟨b, hsub.mem (hc ▸ hbars), hshows⟩
  · rw [simulate, hflat] at hr
    obtain ⟨b, hb, rfl⟩ := List.mem_map.mp hr
    exact ⟨b, hsub.mem hb, Row.shows_flat b⟩

/-- **The figures of a ledger are finite, and its prices are if the closes are.**  All that a ledger
says about the position is finite in any case.  Its lines are finite throughout exactly when the
bars they stand for have finite closes. -/
theorem isFinite_and_isNumeric_iff :
    (∀ r ∈ (simulate series p fees).rows, r.isFinite) ∧
      ((∀ r ∈ (simulate series p fees).rows, r.isNumeric) ↔
        ∀ b ∈ series, (∃ r ∈ (simulate series p fees).rows, r.time = b.time) →
          b.close.isFinite) := by
  refine ⟨?_, ?_, ?_⟩
  · intro r hr
    obtain ⟨b, -, hshows⟩ := exists_shows_of_mem_rows h p fees hr
    exact hshows.isFinite
  · -- the line at the time of `b` shows `b`, since no other bar has that time
    rintro hall b hb ⟨r, hr, htime⟩
    obtain ⟨b', hb', hshows⟩ := exists_shows_of_mem_rows h p fees hr
    obtain rfl : b' = b := h.eq_of_time_eq hb' hb (hshows.time.symm.trans htime)
    exact hshows.isNumeric_iff.mp (hall r hr)
  · intro hall r hr
    obtain ⟨b, hb, hshows⟩ := exists_shows_of_mem_rows h p fees hr
    exact hshows.isNumeric_iff.mpr (hall b hb ⟨r, hr, hshows.time⟩)

end

/-! ### A bar without prices -/

/-- A bar on which nothing was traded: none of its prices is a number. -/
def Bar.blank (time : Int64) : Bar :=
  .flat time (0.0 / 0.0)

/-- Prices with a blank in between. -/
def gapped : List Bar :=
  [.flat 0 100.0, .blank 60, .flat 120 102.0]

/-- A position entered at the market and held to the end of the data. -/
def gappedPosition : Position where
  terms := { created := 0, side := .long, price := 100.0, amount := 1.0 }
  sound := by decide +kernel

/-- The blank bar has a line with finite figures, on which everything but the price is a number. -/
theorem isFinite_and_isNumeric_iff_of_gapped :
    Series.Ascending gapped ∧
      (∀ r ∈ (simulate gapped gappedPosition ⟨0.0004⟩).rows, r.isFinite) ∧
      ((∀ r ∈ (simulate gapped gappedPosition ⟨0.0004⟩).rows, r.isNumeric) ↔
        ∀ b ∈ gapped, (∃ r ∈ (simulate gapped gappedPosition ⟨0.0004⟩).rows, r.time = b.time) →
          b.close.isFinite) :=
  ⟨by decide, isFinite_and_isNumeric_iff (by decide) gappedPosition ⟨0.0004⟩⟩

/-- **The price of a line need not be a number**, even at a sound cost rate. -/
theorem not_forall_isNumeric_of_gapped :
    Series.Ascending gapped ∧ ({ costRate := 0.0004 } : Settings).fault? = none ∧
      ¬ ∀ r ∈ (simulate gapped gappedPosition ⟨0.0004⟩).rows, r.isNumeric := by
  refine ⟨by decide, by decide +kernel, ?_⟩
  decide +kernel

end TripleBarrier
