import Mathlib.Data.List.Sort
import TripleBarrier.Proofs.Course

/-!
# What an outcome depends on

A simulation marks a position to the end of the data before it looks for the exit, and it counts all
bars to number the one of entry.  Neither the future nor the past shows in the outcome: it depends
on the bars from creation on only, and, once a barrier has closed the position, on none after the
exit.  The number of the bar of entry is the one thing that bars before creation can shift.

Two series with the same bars in some window have the same window, since both ascend.  A course of
one is then a course of the other, with other bars after the exit.

## Main definitions

* `Outcome.SeesSame` — two series hold the same bars of those that matter to an outcome.
* `Outcome.IsShiftOf` — two outcomes are the same but for the numbering of bars.

## Main results

* `Series.window_congr` — the window of a series depends on the bars in it only.
* `Course.withUnseen` — the bars after a barrier has closed a position may be any.
* `isShiftOf_of_seesSame` — **the future and the past do not matter.**
-/

namespace TripleBarrier

/-! ### Windows of two series -/

namespace Series

/-- **The window of an ascending series depends on the bars in it only.** -/
theorem window_congr {series series' : List Bar} (h : Ascending series) (h' : Ascending series')
    {created : Int64} {deadline : Option Int}
    (hsame : ∀ b, created ≤ b.time → b.isWithin deadline → (b ∈ series ↔ b ∈ series')) :
    window series created deadline = window series' created deadline := by
  have hanti : ∀ a b : Bar, a.time < b.time → b.time < a.time → a = b := by
    intro a b hab hba
    exact absurd hba (Int64.not_lt.mpr (Int64.le_of_lt hab))
  have hirrefl : ∀ a : Bar, ¬ a.time < a.time := fun a => Int64.lt_irrefl
  have : Std.Antisymm fun a b : Bar => a.time < b.time := ⟨hanti⟩
  have : Std.Irrefl fun a b : Bar => a.time < b.time := ⟨hirrefl⟩
  refine List.Pairwise.eq_of_mem_iff (h.sublist (window_sublist series created deadline))
    (h'.sublist (window_sublist series' created deadline)) fun b => ?_
  rw [window_eq_filter h, window_eq_filter h', List.mem_filter, List.mem_filter]
  refine and_congr_left fun hb => ?_
  obtain ⟨hcreated, hwithin⟩ := Bool.and_eq_true_iff.mp hb
  exact hsame b (of_decide_eq_true hcreated) hwithin

end Series

/-! ### Other bars after the exit -/

/-- A bar that closes a position by a barrier does so whatever comes later. -/
theorem Walk.ClosesOn.congr_later {t : Terms} {fees : Fees} {fill : Float}
    {stop : Option TrailingStop} {earlier : List Bar} {b : Bar} {later : List Bar}
    {reason : ExitReason} (h : ClosesOn t fees fill stop earlier b later reason)
    (hreason : reason ≠ .timeLimit) (later' : List Bar) :
    ClosesOn t fees fill stop earlier b later' reason := by
  refine ⟨h.quiet, ?_⟩
  have hexit := h.exit
  cases hx : t.barrier? fill (netReturn t fees fill b)
      (stopAfter t fees fill stop (earlier ++ [b])) b with
  | some r =>
    rw [exit?_of_barrier hx] at hexit ⊢
    exact hexit
  | none =>
    -- only the time limit closes a position on a bar that reaches no barrier
    unfold exit? at hexit
    rw [hx] at hexit
    split at hexit
    · exact absurd (Option.some.inj hexit).symm hreason
    · exact absurd hexit (by simp)

namespace Course

variable {p : Position} {fees : Fees}

/-- The course with other bars after the exit. -/
def withUnseen (c : Course p fees) (hreason : c.reason ≠ .timeLimit) (unseen : List Bar) :
    Course p fees :=
  { c with
    unseen := unseen
    closes := c.closes.congr_later hreason unseen }

/-- What does not come after the exit is within the deadline. -/
theorem isWithin_of_isWithin_closing {series : List Bar} {deadline : Option Int}
    {c : Course p fees} (hc : Series.window series p.terms.created deadline = c.bars) {b : Bar}
    (hb : b.isWithin (some c.closing.time.toInt)) : b.isWithin deadline := by
  have hclosing : c.closing.isWithin deadline :=
    Series.isWithin_of_mem_window (hc ▸ mem_bars_of_mem_active c.mem_active_closing)
  exact Bar.isWithin_of_time_le (Bar.isWithin_toInt_iff.mp hb) hclosing

/-- The bars through the exit are the window that ends with the exit. -/
theorem window_closing {series : List Bar} (h : Series.Ascending series) {deadline : Option Int}
    {c : Course p fees} (hc : Series.window series p.terms.created deadline = c.bars) :
    Series.window series p.terms.created (some c.closing.time.toInt) = c.seen := by
  have hasc : Series.Ascending c.bars := hc ▸ h.sublist (Series.window_sublist series _ deadline)
  have hseen : ∀ b ∈ c.seen, b.isWithin (some c.closing.time.toInt) := by
    intro b hb
    exact Bar.isWithin_toInt_iff.mpr (time_le_closing_of_mem_seen hasc hb)
  have hunseen : c.unseen.takeWhile (Bar.isWithin (some c.closing.time.toInt)) = [] := by
    cases hu : c.unseen with
    | nil => rfl
    | cons b rest =>
      have hlt := closing_time_lt_of_mem_unseen hasc (hu ▸ List.mem_cons_self)
      refine List.takeWhile_cons_of_neg fun hb => ?_
      exact Int64.not_lt.mpr (Bar.isWithin_toInt_iff.mp hb) hlt
  rw [Series.window_eq_takeWhile (fun _ => isWithin_of_isWithin_closing hc), hc,
    bars_eq_seen_append, List.takeWhile_append_of_pos hseen, hunseen, List.append_nil]

/-- A window that starts with the bars through an exit belongs to the same course, if a barrier was
reached. -/
theorem bars_withUnseen (c : Course p fees) (hreason : c.reason ≠ .timeLimit)
    (unseen : List Bar) : (c.withUnseen hreason unseen).bars = c.seen ++ unseen :=
  (c.withUnseen hreason unseen).bars_eq_seen_append

end Course

/-! ### Outcomes that are the same -/

/-- The outcome of one series is that of another one, in which the bar of entry has a number that is
larger by `shift`. -/
structure Outcome.IsShiftOf (o' o : Outcome) (shift : Int) : Prop where
  rows : o'.rows = o.rows
  reason : o'.reason = o.reason
  fillTime : o'.fill.map Fill.time = o.fill.map Fill.time
  fillPrice : o'.fill.map Fill.price = o.fill.map Fill.price
  fillIndex : ∀ fill ∈ o.fill, ∀ fill' ∈ o'.fill, (fill'.index : Int) - fill.index = shift

/-- Two series hold the same bars, of those that matter to the outcome of a position: if a barrier
closed the position, the bars from creation through the exit, and otherwise those from creation
through the deadline. -/
inductive Outcome.SeesSame (o : Outcome) (p : Position) (series series' : List Bar) : Prop
  | throughExit (time : Int64) (filled : o.isFilled) (reason : o.reason ≠ .timeLimit)
      (exit : o.closeTime? = some time)
      (same : ∀ b, p.terms.created ≤ b.time → b.time ≤ time → (b ∈ series ↔ b ∈ series'))
  | throughDeadline (reason : o.isFilled = false ∨ o.reason = .timeLimit)
      (same : ∀ b, p.terms.created ≤ b.time → b.isWithin p.deadline? →
        (b ∈ series ↔ b ∈ series'))

/-- How many bars of a series come before a given time. -/
def Series.countBefore (series : List Bar) (time : Int64) : Nat :=
  series.countP fun b => b.time < time

section
variable {series series' : List Bar} (h : Series.Ascending series)
  (h' : Series.Ascending series') {p : Position} {fees : Fees}
include h h'

/-- Two courses that differ by the bars after the exit at most yield the same outcome. -/
theorem Course.isShiftOf {deadline : Option Int} {c c' : Course p fees}
    (hc : Series.window series p.terms.created deadline = c.bars)
    (hc' : Series.window series' p.terms.created deadline = c'.bars)
    (hrows : c'.rows = c.rows) (hreason : c'.reason = c.reason) (hentry : c'.entry = c.entry)
    (hwaiting : c'.waiting = c.waiting) :
    (simulateUntil deadline series' p fees).IsShiftOf (simulateUntil deadline series p fees)
      (Series.countBefore series' p.terms.created - Series.countBefore series p.terms.created) := by
  rw [simulateUntil_eq_outcome h c hc, simulateUntil_eq_outcome h' c' hc']
  refine ⟨hrows, hreason, ?_, ?_, ?_⟩
  · simp [outcome, hentry]
  · simp [outcome, hentry]
  · intro fill hfill fill' hfill'
    obtain rfl := Option.some.inj hfill
    obtain rfl := Option.some.inj hfill'
    simp only [hwaiting, Series.startIndex_eq_countP h, Series.startIndex_eq_countP h',
      Series.countBefore]
    omega

/-- Two series with the same window have the same outcome. -/
theorem isShiftOf_of_window_eq {deadline : Option Int}
    (hwindow : Series.window series p.terms.created deadline
      = Series.window series' p.terms.created deadline) :
    (simulateUntil deadline series' p fees).IsShiftOf (simulateUntil deadline series p fees)
      (Series.countBefore series' p.terms.created - Series.countBefore series p.terms.created) := by
  rcases Course.exists_or_forall_not_fillsOn p fees
    (Series.window series p.terms.created deadline) with ⟨c, hc⟩ | hnone
  · exact Course.isShiftOf h h' hc.symm (hwindow ▸ hc.symm) rfl rfl rfl rfl
  · rw [Course.simulateUntil_of_forall_not_fillsOn h hnone,
      Course.simulateUntil_of_forall_not_fillsOn h' (hwindow ▸ hnone), hwindow]
    exact ⟨rfl, rfl, rfl, rfl, fun _ hfill => absurd hfill (by simp)⟩

/-- **Neither the future nor the past matters.**  A series with the same bars from creation through
the exit, or through the deadline if no barrier was reached, has the same outcome.  Bars before
creation only shift the number of the bar of entry. -/
theorem isShiftOf_of_seesSame (hsame : (simulate series p fees).SeesSame p series series') :
    (simulate series' p fees).IsShiftOf (simulate series p fees)
      (Series.countBefore series' p.terms.created - Series.countBefore series p.terms.created) := by
  cases hsame with
  | throughExit time hfilled hreason hexit hsame =>
    obtain ⟨fill, hfill⟩ := Option.isSome_iff_exists.mp hfilled
    obtain ⟨c, hc, -⟩ := Course.exists_of_fill h hfill
    have houtcome : simulate series p fees
        = c.outcome (Series.startIndex series p.terms.created) :=
      Course.simulateUntil_eq_outcome h c hc
    rw [houtcome, Course.closeTime?_outcome] at hexit
    rw [houtcome, Course.reason_outcome] at hreason
    obtain rfl := Option.some.inj hexit
    -- the bars through the exit are a window of both series
    have hwindow : Series.window series' p.terms.created (some c.closing.time.toInt) = c.seen := by
      rw [← Course.window_closing h hc]
      refine Series.window_congr h' h fun b hcreated hwithin => ?_
      exact (hsame b hcreated (Bar.isWithin_toInt_iff.mp hwithin)).symm
    obtain ⟨unseen, hunseen⟩ := Series.window_prefix
      (fun _ => Course.isWithin_of_isWithin_closing hc) series' p.terms.created
    have hc' : Series.window series' p.terms.created p.deadline?
        = (c.withUnseen hreason unseen).bars := by
      rw [Course.bars_withUnseen, ← hwindow, hunseen]
    exact Course.isShiftOf h h' hc hc' rfl rfl rfl rfl
  | throughDeadline _ hsame =>
    exact isShiftOf_of_window_eq h h' (Series.window_congr h h' hsame)

end

/-- Reversing prices with another past and another future. -/
def reversalElsewhere : List Bar :=
  [.flat (-60) 90.0, .flat 10 95.0, .flat 20 101.0, .flat 60 101.0, .flat 120 100.0,
    .flat 180 103.0, .flat 240 102.0, .flat 300 50.0]

theorem mem_reversal_iff_mem_reversalElsewhere (b : Bar) (hcreated : 30 ≤ b.time)
    (htime : b.time ≤ 240) : b ∈ reversal ↔ b ∈ reversalElsewhere := by
  have hout : ∀ (time : Int64) (price : Float), time < 30 ∨ 240 < time → b ≠ .flat time price := by
    rintro time price (hlt | hlt) rfl
    · exact Int64.not_lt.mpr hcreated hlt
    · exact Int64.not_lt.mpr htime hlt
  simp only [reversal, reversalElsewhere, List.mem_cons, List.not_mem_nil, or_false,
    hout 0 _ (by decide), hout 600 _ (by decide), hout (-60) _ (by decide), hout 10 _ (by decide),
    hout 20 _ (by decide), hout 300 _ (by decide), false_or, or_false]

/-- The position on reversing prices does not know what comes before creation and after its exit. -/
theorem isShiftOf_of_reversalElsewhere :
    (simulate reversal reversalPosition ⟨0.0004⟩).SeesSame reversalPosition reversal
        reversalElsewhere ∧
      (simulate reversalElsewhere reversalPosition ⟨0.0004⟩).IsShiftOf
        (simulate reversal reversalPosition ⟨0.0004⟩)
        (Series.countBefore reversalElsewhere 30 - Series.countBefore reversal 30) ∧
      Series.countBefore reversalElsewhere 30 = 3 ∧ Series.countBefore reversal 30 = 1 :=
  have hsame : (simulate reversal reversalPosition ⟨0.0004⟩).SeesSame reversalPosition reversal
      reversalElsewhere :=
    .throughExit 240 (by decide +kernel) (by decide +kernel) (by decide +kernel)
      mem_reversal_iff_mem_reversalElsewhere
  ⟨hsame, isShiftOf_of_seesSame (by decide) (by decide) hsame, by decide, by decide⟩

end TripleBarrier
