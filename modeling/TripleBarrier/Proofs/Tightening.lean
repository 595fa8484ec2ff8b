import TripleBarrier.Proofs.Course
import TripleBarrier.Proofs.Floors

/-!
# Tighter barriers

A position whose barriers are tightened is not closed later.  It opens on the same bar, all bars
that leave it open leave the looser position open as well, and up to its exit both ledgers agree.

The two walks are compared bar by bar.  A trailing stop with a lower activation level is ahead
of the other one all along, and the remaining barriers look at a single bar.  The time limit
is different: an earlier one shortens the window, so that the bars of one walk are the first
bars of the other.

## Main definitions

* `Terms.Tightens` — terms that differ from other ones in tighter barriers only.
* `TrailingStop.LeadsAll` — a trailing stop, if there is one, is behind another one.

## Main results

* `Terms.Tightens.isQuiet` — bars that leave the tighter position open leave the looser one open.
* `Course.holding_prefix` — the looser position is held for at least as many bars.
* `close_le_of_tightens` — **tighter barriers never delay the exit.**
-/

namespace TripleBarrier

/-- Terms differ from looser ones in their barriers only, each of which is the same, newly added or
tighter: take profit or trailing stop are reached earlier, or less time is left. -/
structure Terms.Tightens (strict loose : Terms) : Prop where
  created : strict.created = loose.created
  side : strict.side = loose.side
  price : strict.price = loose.price
  amount : strict.amount = loose.amount
  isLimit : strict.isLimit = loose.isLimit
  takeProfit : ∀ level ∈ loose.takeProfit, ∃ level' ∈ strict.takeProfit, AtMost level' level
  stopLoss : ∀ distance ∈ loose.stopLoss, strict.stopLoss = some distance
  trail : ∀ trail ∈ loose.trail, ∃ trail' ∈ strict.trail,
    AtMost trail'.activation trail.activation ∧ trail'.distance = trail.distance
  timeLimit : ∀ seconds ∈ loose.timeLimit, ∃ seconds' ∈ strict.timeLimit, seconds' ≤ seconds

namespace Terms.Tightens

variable {strict loose : Terms} (h : strict.Tightens loose)
include h

/-! ### What the two positions share -/

theorem fillsOn_eq (b : Bar) : strict.fillsOn b = loose.fillsOn b := by
  unfold fillsOn
  rw [h.side, h.price, h.isLimit]

theorem netReturn_eq (fees : Fees) (fill : Float) (b : Bar) :
    Walk.netReturn strict fees fill b = Walk.netReturn loose fees fill b := by
  unfold Walk.netReturn
  rw [h.side]

theorem openLine_eq (fees : Fees) (fill : Float) :
    Walk.openLine strict fees fill = Walk.openLine loose fees fill := by
  funext b
  unfold Walk.openLine Walk.line
  rw [h.side, h.amount]

end Terms.Tightens

/-! ### One bar -/

/-- The trailing stop of the looser position, if it has one, is behind that of the tighter one. -/
def TrailingStop.LeadsAll (stop stop' : Option TrailingStop) : Prop :=
  ∀ l ∈ stop', ∃ s ∈ stop, s.Leads l

namespace Terms.Tightens

variable {strict loose : Terms} (h : strict.Tightens loose)
include h

theorem leadsAll_start :
    TrailingStop.LeadsAll (strict.trail.map .start) (loose.trail.map .start) := by
  intro l hl
  obtain ⟨trail, htrail, rfl⟩ := Option.map_eq_some_iff.mp hl
  obtain ⟨trail', htrail', hactivation, hdistance⟩ := h.trail trail htrail
  refine ⟨.start trail', ?_, TrailingStop.leads_start hdistance hactivation⟩
  rw [Option.mem_def.mp htrail']
  rfl

section
variable {fees : Fees} {fill : Float} {stop stop' : Option TrailingStop} {b : Bar}

/-- A bar that does not trigger the stop of the tighter position keeps it ahead. -/
theorem leadsAll_stopAfter (hlead : TrailingStop.LeadsAll stop stop')
    (hopen : ((Walk.stopAfter strict fees fill stop [b]).any fun s => s.phase.isTriggered) =
      false) :
    TrailingStop.LeadsAll (Walk.stopAfter strict fees fill stop [b])
      (Walk.stopAfter loose fees fill stop' [b]) := by
  intro l hl
  rw [Walk.stopAfter_singleton] at hl hopen ⊢
  obtain ⟨l, hl', rfl⟩ := Option.map_eq_some_iff.mp hl
  obtain ⟨s, hs, hsl⟩ := hlead l hl'
  rw [Option.mem_def.mp hs] at hopen ⊢
  refine ⟨_, rfl, ?_⟩
  rw [← h.netReturn_eq]
  exact hsl.observe hopen

/-- A bar that reaches no barrier of the tighter position reaches none of the looser one. -/
theorem barrier?_eq_none {netReturn : Float} (hlead : TrailingStop.LeadsAll stop stop')
    (hquiet : strict.barrier? fill netReturn stop b = none) :
    loose.barrier? fill netReturn stop' b = none := by
  have hreaches := Terms.barrier?_eq_none_iff.mp hquiet
  refine Terms.barrier?_eq_none_iff.mpr fun reason => Bool.eq_false_iff.mpr fun hr => ?_
  cases reason with
  | takeProfit =>
    obtain ⟨level, hlevel, hlt⟩ := (Option.any_eq_true _ _).mp hr
    obtain ⟨level', hlevel', hle⟩ := h.takeProfit level hlevel
    have hreached : strict.takesProfit netReturn := by
      unfold takesProfit
      rw [Option.mem_def.mp hlevel']
      exact decide_eq_true (hle.trans_lt (of_decide_eq_true hlt))
    exact absurd hreached (Bool.eq_false_iff.mp (hreaches .takeProfit))
  | stopLoss =>
    obtain ⟨distance, hdistance, hstop⟩ := (Option.any_eq_true _ _).mp hr
    have hreached : strict.isStoppedBy fill b := by
      unfold isStoppedBy
      rw [h.stopLoss distance hdistance, h.side]
      exact hstop
    exact absurd hreached (Bool.eq_false_iff.mp (hreaches .stopLoss))
  | trailingStop =>
    obtain ⟨l, hl, htriggered⟩ := (Option.any_eq_true _ _).mp hr
    obtain ⟨s, -, hsl⟩ := hlead l hl
    exact absurd htriggered (Bool.eq_false_iff.mp hsl.running')
  | timeLimit => exact absurd hr Bool.false_ne_true

/-- **Bars that leave the tighter position open leave the looser one open.** -/
theorem isQuiet {bars : List Bar} (hlead : TrailingStop.LeadsAll stop stop')
    (hquiet : Walk.IsQuiet strict fees fill stop bars) :
    Walk.IsQuiet loose fees fill stop' bars := by
  -- one bar keeps the trailing stop ahead, which is what the bars after it need
  induction bars generalizing stop stop' with
  | nil => exact Walk.isQuiet_nil stop'
  | cons b bars ih =>
    obtain ⟨hb, hbars⟩ := Walk.isQuiet_cons.mp hquiet
    have hopen := Terms.barrier?_eq_none_iff.mp hb .trailingStop
    have hlead' := h.leadsAll_stopAfter hlead hopen
    rw [h.netReturn_eq] at hb
    exact Walk.isQuiet_cons.mpr ⟨h.barrier?_eq_none hlead' hb, ih hlead' hbars⟩

end

end Terms.Tightens

/-! ### Two courses -/

/-- The tighter position has the earlier deadline. -/
theorem Terms.Tightens.isWithin {strict loose : Position} (h : strict.terms.Tightens loose.terms)
    {b : Bar} (hb : b.isWithin strict.deadline?) : b.isWithin loose.deadline? := by
  unfold Position.deadline? Position.exactDeadline? at hb ⊢
  cases hl : loose.terms.timeLimit with
  | none => rfl
  | some seconds =>
    obtain ⟨seconds', hs, hle⟩ := h.timeLimit seconds hl
    rw [Option.mem_def.mp hs, h.created] at hb
    have hle' : seconds'.toInt ≤ seconds.toInt := Int64.le_iff_toInt_le.mp hle
    simp only [Bar.isWithin, Option.map_some, Option.all_some, decide_eq_true_eq] at hb ⊢
    omega

namespace Course

variable {strict loose : Position} {fees : Fees}

/-- The order waits up to the bar of entry. -/
theorem takeWhile_bars_append {p : Position} (c : Course p fees) (more : List Bar) :
    (c.bars ++ more).takeWhile (fun b => !p.terms.fillsOn b) = c.waiting := by
  obtain ⟨later, hlater⟩ := c.exists_active_eq_cons
  have hwaits : ∀ b ∈ c.waiting, (!p.terms.fillsOn b) = true := by
    intro b hb
    rw [c.waits b hb]
    rfl
  have hfills : p.terms.fillsOn c.entry := c.fills
  rw [bars, hlater, List.append_assoc, List.cons_append, List.takeWhile_append_of_pos hwaits,
    List.takeWhile_cons_of_neg (by simp [hfills]), List.append_nil]

/-- If the bars of the tighter position come first among those of the looser one, both positions
open on the same bar. -/
theorem entry_eq (h : strict.terms.Tightens loose.terms) {c : Course strict fees}
    {c' : Course loose fees} {more : List Bar} (hbars : c'.bars = c.bars ++ more) :
    c'.waiting = c.waiting ∧ c'.active = c.active ++ more ∧ c'.entry = c.entry := by
  have hwaiting : c'.waiting = c.waiting := by
    rw [← c'.takeWhile_bars_append [], ← c.takeWhile_bars_append more, hbars, List.append_nil]
    simp only [h.fillsOn_eq]
  have hactive : c'.active = c.active ++ more := by
    rw [bars, bars, hwaiting, List.append_assoc] at hbars
    exact List.append_cancel_left hbars
  obtain ⟨later, hlater⟩ := c.exists_active_eq_cons
  obtain ⟨later', hlater'⟩ := c'.exists_active_eq_cons
  refine ⟨hwaiting, hactive, ?_⟩
  rw [hlater, hlater', List.cons_append] at hactive
  exact (List.cons.inj hactive).1

/-- **The looser position is held for at least as many bars.** -/
theorem holding_prefix (h : strict.terms.Tightens loose.terms) {c : Course strict fees}
    {c' : Course loose fees} {more : List Bar} (hbars : c'.bars = c.bars ++ more) :
    c.holding <+: c'.holding := by
  obtain ⟨-, hactive, hentry⟩ := entry_eq h hbars
  have hpre : c.holding <+: c'.active := by
    rw [hactive, active, List.append_assoc]
    exact List.prefix_append _ _
  have hpre' : c'.holding <+: c'.active := List.prefix_append _ _
  -- both are held for the first few bars from the same entry on
  rcases List.prefix_or_prefix_of_prefix hpre hpre' with hle | ⟨rest, hrest⟩
  · exact hle
  cases rest with
  | nil => exact ⟨[], by rw [← hrest, List.append_nil, List.append_nil]⟩
  | cons b rest =>
    -- the looser position would be closed on a bar that leaves the tighter one open
    have hquiet := h.isQuiet h.leadsAll_start c.closesOn_entry.quiet
    have htail : c'.closing :: c'.unseen = b :: (rest ++ (c.closing :: c.unseen ++ more)) := by
      unfold active at hactive
      rw [← hrest, List.append_assoc, List.append_assoc] at hactive
      exact List.append_cancel_left hactive
    obtain ⟨rfl, hunseen⟩ := List.cons.inj htail
    have hb := hquiet c'.holding c'.closing rest hrest.symm
    have hexit := c'.closesOn_entry.exit
    have hlast : c'.unseen.isEmpty = false := by
      rw [hunseen]
      simp
    rw [hlast, hentry, Walk.exit?_false, hb] at hexit
    exact absurd hexit (by simp)

/-- The looser position is not closed earlier. -/
theorem closing_time_le (h : strict.terms.Tightens loose.terms) {c : Course strict fees}
    {c' : Course loose fees} {more : List Bar} (hbars : c'.bars = c.bars ++ more)
    (hasc : Series.Ascending c'.bars) : c.closing.time ≤ c'.closing.time := by
  obtain ⟨-, hactive, -⟩ := entry_eq h hbars
  obtain ⟨rest, hrest⟩ := holding_prefix h hbars
  have htail : c.closing :: (c.unseen ++ more) = rest ++ c'.closing :: c'.unseen := by
    unfold active at hactive
    rw [← hrest, List.append_assoc, List.append_assoc] at hactive
    exact (List.append_cancel_left hactive).symm
  have hclosing : c.closing ∈ c'.seen := by
    unfold seen
    rw [← hrest]
    cases rest with
    | nil => simp [(List.cons.inj htail).1]
    | cons b rest => simp [(List.cons.inj htail).1]
  exact time_le_closing_of_mem_seen hasc hclosing

/-- Up to the exit of the tighter position both ledgers agree. -/
theorem dropLast_rows_prefix (h : strict.terms.Tightens loose.terms) {c : Course strict fees}
    {c' : Course loose fees} {more : List Bar} (hbars : c'.bars = c.bars ++ more) :
    c.rows.dropLast <+: c'.rows := by
  obtain ⟨hwaiting, -, hentry⟩ := entry_eq h hbars
  obtain ⟨rest, hrest⟩ := holding_prefix h hbars
  rw [dropLast_rows, rows, activeRows, hwaiting, hentry, ← h.openLine_eq, ← hrest, List.map_append,
    List.append_assoc, List.prefix_append_right_inj]
  exact List.prefix_append _ _

end Course

/-! ### The exit -/

/-- **Tighter barriers never delay the exit.**  If the tighter position opens, the
looser one opens on the same bar and is closed no earlier, and up to the exit of the
tighter one both ledgers agree. -/
theorem close_le_of_tightens {series : List Bar} (hasc : Series.Ascending series) (fees : Fees)
    {strict loose : Position} (h : strict.terms.Tightens loose.terms)
    (hfilled : (simulate series strict fees).isFilled) :
    (simulate series loose fees).fill = (simulate series strict fees).fill ∧
      (∃ time time', (simulate series strict fees).closeTime? = some time ∧
        (simulate series loose fees).closeTime? = some time' ∧ time ≤ time') ∧
      (simulate series strict fees).rows.dropLast <+: (simulate series loose fees).rows := by
  obtain ⟨fill, hfill⟩ := Option.isSome_iff_exists.mp hfilled
  obtain ⟨c, hc, -⟩ := Course.exists_of_fill hasc hfill
  -- the window of the looser position starts with that of the tighter one
  obtain ⟨more, hmore⟩ : c.bars <+: Series.window series loose.terms.created loose.deadline? := by
    rw [← hc, h.created]
    exact Series.window_prefix (fun _ => h.isWithin) series loose.terms.created
  obtain ⟨c', hc'⟩ : ∃ c' : Course loose fees, c'.bars = c.bars ++ more := by
    refine Course.exists_of_fillsOn loose fees ⟨c.entry, ?_, ?_⟩
    · exact List.mem_append_left more (Course.mem_bars_of_mem_active c.mem_active_entry)
    · rw [← h.fillsOn_eq]
      exact c.fills
  obtain ⟨hwaiting, -, hentry⟩ := Course.entry_eq h hc'
  have hwindow : Series.window series loose.terms.created loose.deadline? = c'.bars :=
    hmore.symm.trans hc'.symm
  have hstrict : simulate series strict fees
      = c.outcome (Series.startIndex series loose.terms.created) := by
    rw [← h.created]
    exact Course.simulateUntil_eq_outcome hasc c hc
  have hloose : simulate series loose fees
      = c'.outcome (Series.startIndex series loose.terms.created) :=
    Course.simulateUntil_eq_outcome hasc c' hwindow
  have hasc' : Series.Ascending c'.bars := hwindow ▸ hasc.sublist (Series.window_sublist _ _ _)
  rw [hstrict, hloose]
  refine ⟨?_, ⟨c.closing.time, c'.closing.time, c.closeTime?_outcome _, c'.closeTime?_outcome _,
    Course.closing_time_le h hc' hasc'⟩, Course.dropLast_rows_prefix h hc'⟩
  unfold Course.outcome
  rw [hwaiting, hentry]

/-- The order on reversing prices with a trailing stop that is armed later, and no time limit. -/
def patientPosition : Position where
  terms := { reversalPosition.terms with trail := some ⟨0.05, 0.005⟩, timeLimit := none }
  sound := by decide +kernel

theorem tightens_patientPosition : reversalPosition.terms.Tightens patientPosition.terms where
  created := rfl
  side := rfl
  price := rfl
  amount := rfl
  isLimit := rfl
  takeProfit := fun _ h => absurd h (by simp [patientPosition, reversalPosition])
  stopLoss := fun _ h => absurd h (by simp [patientPosition, reversalPosition])
  trail := by
    intro trail htrail
    obtain rfl := Option.some.inj htrail
    exact ⟨⟨0.01, 0.005⟩, rfl, .inr (by decide +kernel), rfl⟩
  timeLimit := fun _ h => absurd h (by simp [patientPosition])

/-- The tighter order leaves at the turn of prices, the patient one with the last bar. -/
theorem close_le_of_patientPosition :
    reversalPosition.terms.Tightens patientPosition.terms ∧
      (simulate reversal reversalPosition ⟨0.0004⟩).isFilled ∧
      (simulate reversal patientPosition ⟨0.0004⟩).fill
        = (simulate reversal reversalPosition ⟨0.0004⟩).fill ∧
      (simulate reversal reversalPosition ⟨0.0004⟩).rows.dropLast
        <+: (simulate reversal patientPosition ⟨0.0004⟩).rows ∧
      (simulate reversal reversalPosition ⟨0.0004⟩).closeTime? = some 240 ∧
      (simulate reversal patientPosition ⟨0.0004⟩).closeTime? = some 600 :=
  have hfilled : (simulate reversal reversalPosition ⟨0.0004⟩).isFilled := by decide +kernel
  have hclose := close_le_of_tightens (by decide) ⟨0.0004⟩ tightens_patientPosition hfilled
  ⟨tightens_patientPosition, hfilled, hclose.1, hclose.2.2, by decide +kernel, by decide +kernel⟩

end TripleBarrier
