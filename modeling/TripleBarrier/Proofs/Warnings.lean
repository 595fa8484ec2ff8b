import TripleBarrier.Proofs.Accounting
import TripleBarrier.Proofs.Stages

/-!
# Nothing is replaced in silence

A ledger shows zero for a figure that is no finite number.  What a simulation reports tells of each
such line: the draft is made presentable as a whole, with a warning that counts the lines from the
entry to the end of the data, and the closing line is written anew and made presentable a second
time, with a warning of its own.  The second one is needed, since both trades together may move
more money than a number can hold when the opening trade alone does not.

The count is of more lines than the ledger keeps, for the draft is not yet cut when it is made.

The events are written out here with their levels, messages and fields, in terms of the bars of the
series and of the outcome.

## Main definitions

* `Walk.figures`, `Walk.isSpoilt` — the figures of a line as the arithmetic gives them, and whether
  one of them has to be replaced.
* `Walk.shown` — the figures of a line as a ledger shows them.
* `spoiltCount` — how many lines from the entry on have a figure that has to be replaced.
* `hitTime?` — when each barrier is first reached.
* `Terms.unopenedReport`, `Fill.draftWarning`, `hitsTrace`, `Fill.closeWarning`, `Fill.exitReport` —
  the events that there are.
* `filledEvents` — the events of a simulation with a given entry.
* `FilledReport` — what a filled simulation reports, and that it tells of each line that is spoilt.

## Main results

* `Walk.figures_line` — a line shows its figures, and zero for those that are not finite.
* `Walk.isFinite_mark` — a line is made presentable exactly if a figure is not finite.
* `coerced_draftOf` — the count that the warning shows is that of the bars of the series.
* `time?_hitsOf`, `exitOf_first` — the times that are traced are those at which the bars reach the
  barriers, and the exit is the first of them.
* `simulationLog_of_filled` — the list of all events of a simulation with a given entry.
* `simulationLog_exact` — **the events of a simulation are exact, and nothing is replaced in
  silence.**
-/

namespace TripleBarrier

open Log

/-! ### Figures -/

/-- What a line says about the position, in figures. -/
def Row.figures (r : Row) : List Float :=
  [r.netReturn, r.profit, r.fees, r.volume, r.averageEntry]

namespace Walk

section
variable (t : Terms) (fees : Fees) (fill volume : Float) (b : Bar)

/-- The figures of a line as the arithmetic gives them: the return, the profit, the fees, the money
moved and the price of entry. -/
def figures : List Float :=
  [fees.netReturn t.side fill b.close, fees.netReturn t.side fill b.close * volume,
    fees.roundTrip * volume, volume, fill]

/-- The figures of a line as a ledger shows them, those that are not finite being replaced. -/
def shown : List Float :=
  (figures t fees fill volume b).map fun x => if x.isFinite then x else 0.0

/-- Some figure of the line is not finite, so that zero is shown for it. -/
def isSpoilt : Bool :=
  (figures t fees fill volume b).any fun x => !x.isFinite

/-- A line shows its figures, and zero for those that are not finite. -/
theorem figures_line : (line t fees fill volume b).figures = shown t fees fill volume b := rfl

/-- **A line is made presentable exactly if a figure is not finite.** -/
theorem isFinite_mark :
    (Exposure.mark ⟨t.side, fees, fill, volume⟩ b.time b.close).isFinite
      = !isSpoilt t fees fill volume b := by
  simp [Exposure.mark, Row.isFinite, isSpoilt, figures, Fees.onVolume, Bool.and_assoc]

end

end Walk

/-! ### Hits -/

section
variable (series : List Bar) (p : Position) (fees : Fees) (fill : Fill)

/-- The time limit of a position with a given entry: the deadline, or else the last bar. -/
def timeLimitOf : Int :=
  p.deadline?.getD (series.getLast?.elim fill.time Bar.time).toInt

/-- When each barrier is first reached on the bars from the entry on. -/
def hitTime? : ExitReason → Option Int
  | .timeLimit => some (timeLimitOf series p fill)
  | reason =>
    Walk.reachedAt? p.terms fees fill.price reason (p.terms.trail.map .start)
      (series.drop fill.index)

end

/-! ### Events -/

/-- The text of a time that may be absent. -/
def timeText : Option Int → String
  | none => "None"
  | some time => "Some(" ++ toString time ++ ")"

/-- The word for a barrier. -/
def exitWord : ExitReason → String
  | .takeProfit => "take_profit"
  | .stopLoss => "stop_loss"
  | .trailingStop => "trailing_stop"
  | .timeLimit => "time_limit"

/-- The report of a position that never opens. -/
def Terms.unopenedReport (t : Terms) (bars rows : ℕ) : Event :=
  ⟨.debug, "position never entered",
    [("bars", .int bars), ("rows", .int rows), ("limit_entry", .bool t.isLimit)]⟩

/-- The warning that lines of a draft show zeros. -/
def Fill.draftWarning (fill : Fill) (count : ℕ) : Event :=
  ⟨.warn, "non-finite ledger values coerced to 0.0",
    [("coerced", .int count), ("entry_timestamp", .int fill.time.toInt),
      ("fill_price", .float fill.price)]⟩

/-- The trace of when each barrier is first reached. -/
def hitsTrace (takeProfit stopLoss trailingStop : Option Int) (timeLimit : Int) : Event :=
  ⟨.trace, "barrier candidates",
    [("candidates", .text
      ("BarrierCandidates \x7b take_profit: " ++ timeText takeProfit ++
        ", stop_loss: " ++ timeText stopLoss ++
        ", trailing_stop: " ++ timeText trailingStop ++
        ", time_limit: " ++ toString timeLimit ++ " \x7d"))]⟩

/-- The warning that the closing line shows zeros. -/
def Fill.closeWarning (fill : Fill) (b : Bar) : Event :=
  ⟨.warn, "non-finite close row values coerced to 0.0",
    [("close_timestamp", .int b.time.toInt), ("fill_price", .float fill.price)]⟩

/-- The report of an exit on the bar `b`. -/
def Fill.exitReport (fill : Fill) (reason : ExitReason) (b : Bar) : Event :=
  ⟨.debug, "position closed",
    [("close_type", .text (exitWord reason)), ("entry_timestamp", .int fill.time.toInt),
      ("close_timestamp", .text (timeText (some b.time.toInt)))]⟩

/-- How many lines from the entry to the end of the data are spoilt, one trade having moved
money. -/
def spoiltCount (series : List Bar) (t : Terms) (fees : Fees) (fill : Fill) : ℕ :=
  (series.drop fill.index).countP (Walk.isSpoilt t fees fill.price (t.amount * fill.price))

/-! ### Texts -/

theorem Log.intText_eq_toString (i : Int) : intText i = toString i := by
  cases i with
  | ofNat n => rfl
  | negSucc n =>
    show String.ofList (Text.intText (Int.negSucc n)) = Int.repr (Int.negSucc n)
    unfold Text.intText Int.repr Text.natText
    rw [if_pos (Int.negSucc_lt_zero n)]
    show String.ofList (['-'] ++ Nat.toDigits 10 (n + 1)) = "-" ++ Nat.repr (n + 1)
    rw [String.ofList_append]
    rfl

theorem Log.optionText_eq_timeText (time : Option Int) : optionText time = timeText time := by
  cases time with
  | none => rfl
  | some time => rw [optionText, intText_eq_toString, timeText]

theorem ExitReason.name_eq_exitWord (reason : ExitReason) : reason.name = exitWord reason := by
  cases reason <;> rfl

theorem closedEvent_of_closeTime? {o : Outcome} {b : Bar} (h : o.closeTime? = some b.time)
    (fill : Fill) : o.closedEvent fill = fill.exitReport o.reason b := by
  rw [Outcome.closedEvent, Fill.exitReport, h, Option.map_some, optionText_eq_timeText,
    ExitReason.name_eq_exitWord]

theorem Hits.event_eq (h : Hits) :
    h.event = hitsTrace h.takeProfit h.stopLoss h.trailingStop h.timeLimit := by
  unfold event bracedText hitsTrace
  rw [if_neg (by decide)]
  simp only [optionText_eq_timeText, intText_eq_toString, String.intercalate_cons_cons,
    String.intercalate_singleton, String.append_assoc]
  rfl

/-! ### The draft of a simulation -/

section
variable {series : List Bar} {t : Terms} (fees : Fees) {deadline : Option Int} {fill : Fill}
  (henters : Series.Enters series t.created deadline fill)
include henters

/-- The draft runs from the entry to the end of the data. -/
theorem active_draftOf : (draftOf series t fees fill).active = series.drop fill.index := by
  show (series.drop (Series.startIndex series t.created)).drop _ = _
  rw [List.drop_drop, Nat.add_sub_cancel' henters.start_le]

/-- **The count that the warning shows is that of the bars of the series.** -/
theorem coerced_draftOf :
    (draftOf series t fees fill).coerced = spoiltCount series t fees fill := by
  unfold Draft.coerced spoiltCount
  rw [active_draftOf fees henters]
  congr 1
  funext b
  show (!(Exposure.mark ⟨t.side, fees, fill.price, t.amount * fill.price⟩ b.time
    b.close).isFinite) = _
  rw [Walk.isFinite_mark, Bool.not_not]

theorem warnings_draftOf : (draftOf series t fees fill).warnings =
    if spoiltCount series t fees fill = 0 then []
    else [fill.draftWarning (spoiltCount series t fees fill)] := by
  unfold Draft.warnings
  rw [coerced_draftOf fees henters]
  rfl

theorem lastTime_draftOf :
    (draftOf series t fees fill).lastTime = series.getLast?.elim fill.time Bar.time := by
  unfold Draft.lastTime
  rw [active_draftOf fees henters, List.getLast?_drop, if_neg (Nat.not_le.mpr henters.index_lt)]
  rfl

end

section
variable {series : List Bar} {p : Position} (fees : Fees) {fill : Fill}
  (henters : Series.Enters series p.terms.created p.deadline? fill)
include henters

/-- **The scans of a draft hit a barrier when a bar of the series first reaches it.** -/
theorem time?_hitsOf (reason : ExitReason) :
    (hitsOf series p fees fill).time? reason = hitTime? series p fees fill reason := by
  have hdraft : draftOf series p.terms fees fill = draftFrom p.terms fees fill
      (draftOf series p.terms fees fill).before (series.drop fill.index) := by
    rw [← active_draftOf fees henters]
    rfl
  by_cases hreason : reason = .timeLimit
  · subst hreason
    show some (p.deadline?.getD (draftOf series p.terms fees fill).lastTime.toInt) = _
    rw [lastTime_draftOf fees henters]
    rfl
  · unfold hitsOf
    rw [Hits.find_eq_resume, hdraft, Hits.time?_resume _ hreason]
    cases reason with
    | timeLimit => exact absurd rfl hreason
    | _ => rfl

/-- The exit is the first of the hits, and of those at one time the strongest. -/
theorem exitOf_first :
    hitTime? series p fees fill (exitOf series p fees fill).reason
        = some (exitOf series p fees fill).time ∧
      ∀ other t, hitTime? series p fees fill other = some t →
        (exitOf series p fees fill).time < t ∨ (exitOf series p fees fill).time = t ∧
          (exitOf series p fees fill).reason.rank ≤ other.rank := by
  have htime := time?_hitsOf fees henters
  refine ⟨?_, fun other t hother => ?_⟩
  · rw [← htime]
    exact Hits.time?_exit _
  · rw [← htime] at hother
    exact Hits.exit_first hother

theorem event_hitsOf : (hitsOf series p fees fill).event =
    hitsTrace (hitTime? series p fees fill .takeProfit) (hitTime? series p fees fill .stopLoss)
      (hitTime? series p fees fill .trailingStop) (timeLimitOf series p fill) := by
  have htime := time?_hitsOf fees henters
  have hlimit : (hitsOf series p fees fill).timeLimit = timeLimitOf series p fill :=
    Option.some.inj (htime .timeLimit)
  rw [Hits.event_eq, ← htime, ← htime, ← htime, ← hlimit]
  rfl

end

/-- A line of a draft is flat, or it is that of an open position on a bar from the entry on. -/
theorem mem_rows_draftOf {series : List Bar} {t : Terms} {fees : Fees} {fill : Fill} {r : Row}
    (hr : r ∈ (draftOf series t fees fill).rows) :
    (∃ b ∈ (draftOf series t fees fill).before, r = Row.flat b.time b.close) ∨
      ∃ b ∈ (draftOf series t fees fill).active, r = Walk.openLine t fees fill.price b := by
  rcases List.mem_append.mp hr with hr | hr
  · obtain ⟨b, hb, rfl⟩ := List.mem_map.mp hr
    exact .inl ⟨b, hb, rfl⟩
  · obtain ⟨b, hb, rfl⟩ := List.mem_map.mp hr
    exact .inr ⟨b, hb, rfl⟩

/-- The flat lines of a draft come before the entry. -/
theorem time_lt_of_mem_before_draftOf {series : List Bar} (h : Series.Ascending series)
    (p : Position) (fees : Fees) {fill : Fill}
    (hfill : Series.fill? series p.terms p.deadline? = some fill) {b : Bar}
    (hb : b ∈ (draftOf series p.terms fees fill).before) : b.time < fill.time := by
  obtain ⟨entry, hentry, htime, -⟩ := (Series.enters_of_fill? h hfill).entryBar
  have hhead := head?_active_draftOf p fees hfill
  rw [hentry] at hhead
  have hasc : Series.Ascending (draftOf series p.terms fees fill).bars := by
    rw [bars_draftOf]
    exact h.sublist (Series.startingAt_sublist series _)
  rw [htime]
  exact (List.pairwise_append.mp hasc).2.2 b hb entry (List.mem_of_mem_head? hhead)

/-- The last line that a cut leaves does not precede the entry, so it is one of an open position. -/
theorem Draft.CutAt.exists_eq_openLine {series : List Bar} (h : Series.Ascending series)
    {p : Position} {fees : Fees} {fill : Fill}
    (hfill : Series.fill? series p.terms p.deadline? = some fill) {exit : Exit} {last : Row}
    (hcut : (draftOf series p.terms fees fill).CutAt exit last) :
    ∃ b ∈ series.drop fill.index, last = Walk.openLine p.terms fees fill.price b := by
  have hlast : last ∈ (draftOf series p.terms fees fill).rows :=
    (List.takeWhile_sublist _).mem (List.mem_of_getLast? hcut.lastRow)
  rcases mem_rows_draftOf hlast with ⟨b, hb, rfl⟩ | hopen
  · have hlt := time_lt_of_mem_before_draftOf h p fees hfill hb
    exact absurd hlt (Int64.not_lt.mpr hcut.entry_le_last)
  · exact active_draftOf fees (Series.enters_of_fill? h hfill) ▸ hopen

/-- The closing line is warned of if it is spoilt, both trades having moved money. -/
theorem closingWarnings_of_getLast? {rows : List Row} {t : Terms} {fees : Fees} {fill : Fill}
    {b : Bar} (hlast : rows.getLast? = some (Walk.openLine t fees fill.price b))
    (hentry : fill.time ≤ b.time) :
    Ledger.closingWarnings rows fill.time (.opened t fees fill.price) =
      if Walk.isSpoilt t fees fill.price (t.amount * fill.price * 2.0) b
      then [fill.closeWarning b] else [] := by
  unfold Ledger.closingWarnings
  rw [Ledger.closingRow?_of_getLast? hlast hentry]
  show (if (Exposure.mark ⟨t.side, fees, fill.price, t.amount * fill.price * 2.0⟩ b.time
    b.close).isFinite then [] else [fill.closeWarning b]) = _
  rw [Walk.isFinite_mark]
  cases Walk.isSpoilt t fees fill.price (t.amount * fill.price * 2.0) b with
  | false => rfl
  | true => rfl

/-! ### What is reported -/

section
variable (series : List Bar) (p : Position) (fees : Fees) (fill : Fill) (b : Bar)

/-- The events of a simulation with a given entry that is closed on the bar `b`: the spoilt lines
from the entry to the end of the data are counted, if there are any; the hits of the barriers; the
last line if it is spoilt; and the exit as the outcome has it. -/
def filledEvents : List Event :=
  (if spoiltCount series p.terms fees fill = 0 then []
    else [fill.draftWarning (spoiltCount series p.terms fees fill)]) ++
  [hitsTrace (hitTime? series p fees fill .takeProfit) (hitTime? series p fees fill .stopLoss)
    (hitTime? series p fees fill .trailingStop) (timeLimitOf series p fill)] ++
  (if Walk.isSpoilt p.terms fees fill.price (p.terms.amount * fill.price * 2.0) b
    then [fill.closeWarning b] else []) ++
  [fill.exitReport (simulate series p fees).reason b]

/-- What a simulation with a given entry reports, the bar `b` being the one on which it is
closed. -/
structure FilledReport : Prop where
  mem : b ∈ series.drop fill.index
  finalRow : (simulate series p fees).finalRow? = some (Walk.closeLine p.terms fees fill.price b)
  /-- The exit is the first of the hits that are traced, and of those at one time the strongest. -/
  reason : ∃ time, hitTime? series p fees fill (simulate series p fees).reason = some time ∧
    ∀ other t, hitTime? series p fees fill other = some t →
      time < t ∨ time = t ∧ (simulate series p fees).reason.rank ≤ other.rank
  log : simulationLog series p fees = filledEvents series p fees fill b
  /-- A line before the last one is flat, or it shows the figures of an open position: if that is
  spoilt, it is among those that are counted and warned of. -/
  open_lines : ∀ r ∈ (simulate series p fees).rows.dropLast,
    (r.time < fill.time ∧ ∃ c ∈ series, r = ⟨c.time, c.close, 0.0, 0.0, 0.0, 0.0, 0.0⟩) ∨
    ∃ c ∈ series.drop fill.index, r = Walk.openLine p.terms fees fill.price c ∧
      r.figures = Walk.shown p.terms fees fill.price (p.terms.amount * fill.price) c ∧
      (Walk.isSpoilt p.terms fees fill.price (p.terms.amount * fill.price) c →
        fill.draftWarning (spoiltCount series p.terms fees fill) ∈ simulationLog series p fees)
  /-- The last line shows the figures of both trades: if it is spoilt, it is warned of. -/
  last_line : ∀ r ∈ (simulate series p fees).finalRow?,
    r.figures = Walk.shown p.terms fees fill.price (p.terms.amount * fill.price * 2.0) b ∧
      (Walk.isSpoilt p.terms fees fill.price (p.terms.amount * fill.price * 2.0) b →
        fill.closeWarning b ∈ simulationLog series p fees)

variable {series p fees fill b}

theorem draftWarning_mem_filledEvents {c : Bar} (hc : c ∈ series.drop fill.index)
    (hspoilt : Walk.isSpoilt p.terms fees fill.price (p.terms.amount * fill.price) c) :
    fill.draftWarning (spoiltCount series p.terms fees fill)
      ∈ filledEvents series p fees fill b := by
  have hcount : spoiltCount series p.terms fees fill ≠ 0 :=
    (List.countP_pos_iff.mpr ⟨c, hc, hspoilt⟩).ne'
  unfold filledEvents
  rw [if_neg hcount]
  simp

theorem closeWarning_mem_filledEvents
    (hspoilt : Walk.isSpoilt p.terms fees fill.price (p.terms.amount * fill.price * 2.0) b) :
    fill.closeWarning b ∈ filledEvents series p fees fill b := by
  unfold filledEvents
  rw [if_pos hspoilt]
  simp

end

section
variable {series : List Bar} (p : Position) (fees : Fees)

/-- A simulation of a position that never opens reports that, and its lines are flat. -/
theorem simulationLog_of_unfilled (hfill : Series.fill? series p.terms p.deadline? = none) :
    simulationLog series p fees =
        [p.terms.unopenedReport series.length (simulate series p fees).rows.length] ∧
      ∀ r ∈ (simulate series p fees).rows,
        ∃ b ∈ series, r = ⟨b.time, b.close, 0.0, 0.0, 0.0, 0.0, 0.0⟩ := by
  rw [simulationLog, simulate, simulateUntil, Simulation.run_of_unfilled fees hfill]
  refine ⟨rfl, fun r hr => ?_⟩
  obtain ⟨b, hb, rfl⟩ := List.mem_map.mp hr
  exact ⟨b, (Series.window_sublist series _ _).mem hb, rfl⟩

/-- A simulation that is closed on the bar `b` reports the events of an exit on this bar. -/
theorem simulationLog_of_filled {fill : Fill} {b : Bar}
    (hfill : Series.fill? series p.terms p.deadline? = some fill)
    (hstages : StagesAgree series p fees fill (Walk.openLine p.terms fees fill.price b)) :
    simulationLog series p fees = filledEvents series p fees fill b := by
  rw [simulationLog, Simulation.run_of_filled fees hfill]
  show (draftOf series p.terms fees fill).warnings ++ (hitsOf series p fees fill).event ::
    (Ledger.closingWarnings
      ((draftOf series p.terms fees fill).rowsUpTo (exitOf series p fees fill)) fill.time
      (.opened p.terms fees fill.price) ++
    [((draftOf series p.terms fees fill).outcome p (exitOf series p fees fill)).closedEvent
      fill]) = _
  rw [warnings_draftOf fees hstages.entry, event_hitsOf fees hstages.entry,
    closingWarnings_of_getLast? hstages.cut.lastRow hstages.cut.entry_le_last,
    ← simulate_of_fill? p fees hfill, closedEvent_of_closeTime? hstages.closeTime, filledEvents,
    List.append_assoc, List.append_assoc]
  rfl

variable (h : Series.Ascending series)
include h

/-- **A filled simulation reports what it does.** -/
theorem exists_filledReport {fill : Fill}
    (hfill : Series.fill? series p.terms p.deadline? = some fill) :
    ∃ b, FilledReport series p fees fill b := by
  obtain ⟨last, hstages⟩ := exists_stagesAgree_of_fill? p fees hfill h
  obtain ⟨b, hb, rfl⟩ := hstages.cut.exists_eq_openLine h hfill
  have hlog := simulationLog_of_filled p fees hfill hstages
  have hfinal : (simulate series p fees).finalRow?
      = some (Walk.closeLine p.terms fees fill.price b) := by
    rw [Outcome.finalRow?, hstages.rows, List.getLast?_concat]
    rfl
  exact ⟨b, {
    mem := hb
    finalRow := hfinal
    reason := ⟨_, hstages.reason ▸ exitOf_first fees hstages.entry⟩
    log := hlog
    open_lines := by
      intro r hr
      rw [hstages.rows, List.dropLast_concat] at hr
      have hmem : r ∈ (draftOf series p.terms fees fill).rows :=
        (List.takeWhile_sublist _).mem (List.dropLast_subset _ hr)
      rcases mem_rows_draftOf hmem with ⟨c, hc, rfl⟩ | ⟨c, hc, rfl⟩
      · refine .inl ⟨time_lt_of_mem_before_draftOf h p fees hfill hc, c, ?_, rfl⟩
        exact List.mem_of_mem_drop (List.mem_of_mem_take hc)
      · rw [active_draftOf fees hstages.entry] at hc
        refine .inr ⟨c, hc, rfl, Walk.figures_line .., fun hspoilt => ?_⟩
        exact hlog ▸ draftWarning_mem_filledEvents hc hspoilt
    last_line := by
      intro r hr
      obtain rfl := Option.some.inj (hfinal.symm.trans hr)
      exact ⟨Walk.figures_line .., fun hspoilt => hlog ▸ closeWarning_mem_filledEvents hspoilt⟩ }⟩

/-- **The events of a simulation are exact, and no figure is replaced in silence.**  A position that
never opens is reported with the number of bars and lines, and one that opens with every line that
is spoilt. -/
theorem simulationLog_exact :
    ((simulate series p fees).fill = none →
      simulationLog series p fees =
          [p.terms.unopenedReport series.length (simulate series p fees).rows.length] ∧
        ∀ r ∈ (simulate series p fees).rows,
          ∃ b ∈ series, r = ⟨b.time, b.close, 0.0, 0.0, 0.0, 0.0, 0.0⟩) ∧
    ∀ fill ∈ (simulate series p fees).fill, ∃ b, FilledReport series p fees fill b := by
  rw [simulate_fill]
  exact ⟨fun hnone => simulationLog_of_unfilled p fees hnone,
    fun fill hfill => exists_filledReport p fees h hfill⟩

end

/-- The order that moves more money than a number can hold, given after the data. -/
def latePosition : Position where
  terms := { hugePosition.terms with created := 300 }
  sound := by decide +kernel

/-- Two of the four lines from the entry on are spoilt by their prices, and the last one, which is
not, by the second trade. -/
theorem simulationLog_exact_of_ruptured :
    Series.Ascending ruptured ∧
      ((simulate ruptured latePosition ⟨0.0004⟩).fill = none ∧
        simulationLog ruptured latePosition ⟨0.0004⟩ =
          [⟨.debug, "position never entered",
            [("bars", .int 5), ("rows", .int 0), ("limit_entry", .bool true)]⟩]) ∧
      (simulate ruptured hugePosition ⟨0.0004⟩).fill = some ⟨1, 60, 1.0e10⟩ ∧
      simulationLog ruptured hugePosition ⟨0.0004⟩ =
        [⟨.warn, "non-finite ledger values coerced to 0.0",
            [("coerced", .int 2), ("entry_timestamp", .int 60), ("fill_price", .float 1.0e10)]⟩,
          ⟨.trace, "barrier candidates",
            [("candidates", .text ("BarrierCandidates \x7b take_profit: None, stop_loss: None, " ++
              "trailing_stop: None, time_limit: 240 \x7d"))]⟩,
          ⟨.warn, "non-finite close row values coerced to 0.0",
            [("close_timestamp", .int 240), ("fill_price", .float 1.0e10)]⟩,
          ⟨.debug, "position closed",
            [("close_type", .text "time_limit"), ("entry_timestamp", .int 60),
              ("close_timestamp", .text "Some(240)")]⟩] ∧
      ∃ b, FilledReport ruptured hugePosition ⟨0.0004⟩ ⟨1, 60, 1.0e10⟩ b := by
  have hasc : Series.Ascending ruptured := by decide
  have hlate : (simulate ruptured latePosition ⟨0.0004⟩).fill = none := by rfl
  have hfill : (simulate ruptured hugePosition ⟨0.0004⟩).fill = some ⟨1, 60, 1.0e10⟩ := by rfl
  obtain ⟨hunfilled, -⟩ := simulationLog_exact latePosition ⟨0.0004⟩ hasc
  obtain ⟨-, hfilled⟩ := simulationLog_exact hugePosition ⟨0.0004⟩ hasc
  exact ⟨hasc, ⟨hlate, (hunfilled hlate).1.trans (by decide +kernel)⟩, hfill, by decide +kernel,
    hfilled _ hfill⟩

/-- A barrier that closes a position is in the trace, and nothing is warned of. -/
example : simulationLog reversal reversalPosition ⟨0.0004⟩ =
    [⟨.trace, "barrier candidates",
        [("candidates", .text ("BarrierCandidates \x7b take_profit: None, stop_loss: None, " ++
          "trailing_stop: Some(240), time_limit: 430 \x7d"))]⟩,
      ⟨.debug, "position closed",
        [("close_type", .text "trailing_stop"), ("entry_timestamp", .int 120),
          ("close_timestamp", .text "Some(240)")]⟩] := by
  decide +kernel

end TripleBarrier
