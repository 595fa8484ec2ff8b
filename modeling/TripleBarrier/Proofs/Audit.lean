import TripleBarrier.Proofs.Course

/-!
# Checking an outcome against its ledger

The exit of a position is looked for in a draft that runs to the end of the data, and the last line
of the ledger is written a second time, with twice the money moved.  Still nothing is lost: whoever
holds the ledger, the terms and the bars can tell which barrier closed the position, and that none
would have closed it earlier.

## Main definitions

* `Outcome.rowsFrom` — the lines from the entry on.
* `Trail.replay` — a fresh trailing stop that is shown the net returns of some lines.
* `Terms.reasonShown` — the barrier that the last line and its bar give away.
* `Audit` — everything that can be checked of an outcome.

## Main results

* `Course.rowsFrom_outcome`, `Course.rows_draftOf` — the ledger and the draft, by the parts of the
  window.
* `Course.audit` — an outcome stands every check.
* `exists_audit_of_fill` — **the outcome of any filled simulation does.**
-/

namespace TripleBarrier

/-! ### What is checked -/

/-- The lines from a given time on. -/
def Outcome.rowsFrom (o : Outcome) (time : Int64) : List Row :=
  o.rows.filter fun r => time ≤ r.time

/-- A fresh trailing stop that has been shown the net returns of some lines. -/
def Trail.replay (trail : Trail) (rows : List Row) : TrailingStop :=
  (rows.map Row.netReturn).foldl TrailingStop.observe (.start trail)

namespace Terms

/-- The trailing stop, if there is one, is triggered once it has been shown some lines. -/
def isTrailedBy (t : Terms) (rows : List Row) : Bool :=
  t.trail.any fun trail => (trail.replay rows).phase.isTriggered

/-- The barrier that the lines of an open position give away, by the last of them and its bar. -/
def reasonShown (t : Terms) (fill : Float) (rows : List Row) (last : Row) (b : Bar) :
    ExitReason :=
  if t.takesProfit last.netReturn then .takeProfit
  else if t.isStoppedBy fill b then .stopLoss
  else if t.isTrailedBy rows then .trailingStop
  else .timeLimit

end Terms

/-- All that can be checked of an outcome, given the series, the terms, the fees and the entry: its
last line is `last`, on the bar `b`. -/
structure Audit (o : Outcome) (series : List Bar) (t : Terms) (fees : Fees) (fill : Fill)
    (last : Row) (b : Bar) : Prop where
  finalRow : o.finalRow? = some last
  lastFrom : (o.rowsFrom fill.time).getLast? = some last
  mem_series : b ∈ series
  time_bar : b.time = last.time
  /-- All lines but the last are those of the draft, and the last shows the net return that the
  draft shows on the same bar. -/
  drafted : ∃ drafted, o.rows.dropLast ++ [drafted] <+: (draftOf series t fees fill).rows ∧
    drafted.time = last.time ∧ drafted.netReturn = last.netReturn
  takesProfit_earlier : ∀ r ∈ (o.rowsFrom fill.time).dropLast, t.takesProfit r.netReturn = false
  isStoppedBy_earlier : ∀ c ∈ series, fill.time ≤ c.time → c.time < last.time →
    t.isStoppedBy fill.price c = false
  isTrailedBy_earlier : ∀ rows, rows <+: (o.rowsFrom fill.time).dropLast →
    t.isTrailedBy rows = false
  reason : o.reason = t.reasonShown fill.price (o.rowsFrom fill.time) last b

/-! ### The replayed trailing stop -/

section
variable {t : Terms} {fees : Fees} {fill : Float}

/-- Replaying the lines of an open position shows what the trailing stop saw of its bars. -/
theorem Terms.isTrailedBy_map_openLine (bars : List Bar) :
    t.isTrailedBy (bars.map (Walk.openLine t fees fill))
      = (Walk.stopAfter t fees fill (t.trail.map .start) bars).any fun s =>
          s.phase.isTriggered := by
  unfold isTrailedBy Walk.stopAfter Trail.replay
  cases t.trail with
  | none => rfl
  | some trail =>
    rw [List.map_map]
    rfl

/-- Only the net returns of the lines matter to the trailing stop. -/
theorem Terms.isTrailedBy_congr {rows rows' : List Row}
    (h : rows.map Row.netReturn = rows'.map Row.netReturn) :
    t.isTrailedBy rows = t.isTrailedBy rows' := by
  unfold isTrailedBy Trail.replay
  rw [h]

/-- The line of the exit shows the trailing stop what an open line would. -/
theorem Terms.isTrailedBy_concat_closeLine (bars : List Bar) (b : Bar) :
    t.isTrailedBy (bars.map (Walk.openLine t fees fill) ++ [Walk.closeLine t fees fill b])
      = t.isTrailedBy ((bars ++ [b]).map (Walk.openLine t fees fill)) := by
  refine isTrailedBy_congr ?_
  simp

/-- Without any line the trailing stop is not triggered. -/
theorem Terms.isTrailedBy_nil (t : Terms) : t.isTrailedBy [] = false := by
  unfold isTrailedBy
  cases t.trail <;> rfl

/-- A bar that reaches no barrier can only close a position by the time limit. -/
theorem Terms.getD_barrier? (netReturn : Float) (stop : Option TrailingStop) (b : Bar) :
    (t.barrier? fill netReturn stop b).getD .timeLimit
      = if t.takesProfit netReturn then .takeProfit
        else if t.isStoppedBy fill b then .stopLoss
        else if stop.any fun s => s.phase.isTriggered then .trailingStop
        else .timeLimit := by
  unfold barrier?
  split
  · rfl
  split
  · rfl
  split <;> rfl

/-- The reason for which a bar closes a position is a barrier that it reaches, or the time limit. -/
theorem Walk.eq_of_exit? {stop : Option TrailingStop} {b : Bar} {isLast : Bool}
    {reason : ExitReason} (h : exit? t fees fill stop b isLast = some reason) :
    reason = (t.barrier? fill (netReturn t fees fill b) stop b).getD .timeLimit := by
  cases hb : t.barrier? fill (netReturn t fees fill b) stop b with
  | some r =>
    rw [exit?_of_barrier hb] at h
    exact (Option.some.inj h).symm
  | none =>
    unfold exit? at h
    rw [hb] at h
    cases isLast with
    | true => exact (Option.some.inj h).symm
    | false => exact absurd h (by simp)

end

/-! ### The ledger and the draft -/

namespace Course

variable {p : Position} {fees : Fees} {c : Course p fees}

/-- The lines from the entry on are those of the bars from the entry on. -/
theorem rowsFrom_outcome (h : Series.Ascending c.bars) (start : Nat) :
    (c.outcome start).rowsFrom c.entry.time = c.activeRows := by
  have hflat : (c.waiting.map fun b => Row.flat b.time b.close).filter
      (fun r => c.entry.time ≤ r.time) = [] := by
    refine List.filter_eq_nil_iff.mpr fun r hr => ?_
    obtain ⟨b, hb, rfl⟩ := List.mem_map.mp hr
    have hlt : b.time < c.entry.time := time_lt_entry_of_mem_waiting h hb
    exact decide_eq_false (Int64.not_le.mpr hlt) ▸ Bool.false_ne_true
  have hactive : c.activeRows.filter (fun r => c.entry.time ≤ r.time) = c.activeRows := by
    refine List.filter_eq_self.mpr fun r hr => ?_
    rcases List.mem_append.mp hr with hr | hr
    · obtain ⟨b, hb, rfl⟩ := List.mem_map.mp hr
      exact decide_eq_true (entry_time_le_of_mem_active h (mem_active_of_mem_holding hb))
    · obtain rfl := List.mem_singleton.mp hr
      exact decide_eq_true (entry_time_le_of_mem_active h c.mem_active_closing)
  rw [Outcome.rowsFrom, rows_outcome, rows, List.filter_append, hflat, hactive, List.nil_append]

/-- The draft holds the lines of the window, those from the entry on still open, and then those of
the bars that come after the deadline. -/
theorem rows_draftOf {series : List Bar} {deadline : Option Int}
    (hc : Series.window series p.terms.created deadline = c.bars) :
    (draftOf series p.terms fees ⟨Series.startIndex series p.terms.created + c.waiting.length,
        c.entry.time, c.entry.close⟩).rows
      = c.waiting.map (fun b => Row.flat b.time b.close) ++
          (c.active ++ Series.after series p.terms.created deadline).map
            (Walk.openLine p.terms fees c.entry.close) := by
  obtain ⟨later, hlater⟩ := c.exists_active_eq_cons
  rw [bars, hlater] at hc
  rw [hlater]
  exact congrArg Draft.rows (draftOf_eq_draftFrom fees hc)

/-- All lines but the last are drafted, and after them comes an open line on the closing bar. -/
theorem prefix_rows_draftOf {series : List Bar} {deadline : Option Int}
    (hc : Series.window series p.terms.created deadline = c.bars) :
    c.rows.dropLast ++ [Walk.openLine p.terms fees c.entry.close c.closing]
      <+: (draftOf series p.terms fees
        ⟨Series.startIndex series p.terms.created + c.waiting.length, c.entry.time,
          c.entry.close⟩).rows := by
  refine ⟨(c.unseen ++ Series.after series p.terms.created deadline).map
    (Walk.openLine p.terms fees c.entry.close), ?_⟩
  rw [rows_draftOf hc, dropLast_rows, active]
  simp

/-- What closes the position is shown by its last line. -/
theorem reason_eq_reasonShown (c : Course p fees) :
    c.reason = p.terms.reasonShown c.entry.close c.activeRows
      (Walk.closeLine p.terms fees c.entry.close c.closing) c.closing := by
  have hexit := Walk.eq_of_exit? c.closesOn_entry.exit
  have htrailed : p.terms.isTrailedBy c.activeRows
      = (Walk.stopAfter p.terms fees c.entry.close (p.terms.trail.map .start)
          (c.holding ++ [c.closing])).any fun s => s.phase.isTriggered := by
    rw [activeRows, Terms.isTrailedBy_concat_closeLine, Terms.isTrailedBy_map_openLine]
  rw [hexit, Terms.getD_barrier?, Terms.reasonShown, htrailed, Walk.netReturn_closeLine]

/-- A bar that leaves the position open reaches no barrier. -/
theorem reaches_eq_false_of_split (c : Course p fees) {before : List Bar} {b : Bar}
    {after : List Bar} (hsplit : c.holding = before ++ b :: after) (reason : ExitReason) :
    p.terms.reaches c.entry.close (Walk.netReturn p.terms fees c.entry.close b)
      (Walk.stopAfter p.terms fees c.entry.close (p.terms.trail.map .start) (before ++ [b])) b
      reason = false :=
  Terms.barrier?_eq_none_iff.mp (c.closesOn_entry.quiet before b after hsplit) reason

/-- Replaying the lines before the last one never triggers the trailing stop. -/
theorem isTrailedBy_of_prefix (c : Course p fees) {rows : List Row}
    (hrows : rows <+: c.holding.map (Walk.openLine p.terms fees c.entry.close)) :
    p.terms.isTrailedBy rows = false := by
  obtain ⟨seen, hseen, rfl⟩ := List.prefix_map_iff.mp hrows
  obtain ⟨after, hsplit⟩ := hseen
  rcases List.eq_nil_or_concat seen with rfl | ⟨before, b, rfl⟩
  · exact p.terms.isTrailedBy_nil
  · rw [List.concat_eq_append, Terms.isTrailedBy_map_openLine]
    exact c.reaches_eq_false_of_split (by simpa using hsplit.symm) .trailingStop

/-- **An outcome stands every check.** -/
theorem audit {series : List Bar} (h : Series.Ascending series) {deadline : Option Int}
    (hc : Series.window series p.terms.created deadline = c.bars) :
    Audit (c.outcome (Series.startIndex series p.terms.created)) series p.terms fees
      ⟨Series.startIndex series p.terms.created + c.waiting.length, c.entry.time, c.entry.close⟩
      (Walk.closeLine p.terms fees c.entry.close c.closing) c.closing := by
  have hsub : c.bars.Sublist series := hc ▸ Series.window_sublist series p.terms.created deadline
  have hasc : Series.Ascending c.bars := h.sublist hsub
  have hfrom := rowsFrom_outcome hasc (Series.startIndex series p.terms.created)
  have hearlier : ((c.outcome (Series.startIndex series p.terms.created)).rowsFrom
      c.entry.time).dropLast = c.holding.map (Walk.openLine p.terms fees c.entry.close) := by
    rw [hfrom, activeRows, List.dropLast_concat]
  -- lines and bars before the last ones are those of the bars that leave the position open
  refine ⟨c.getLast?_rows, ?_, hsub.mem (mem_bars_of_mem_active c.mem_active_closing), rfl,
    ⟨_, prefix_rows_draftOf hc, rfl, rfl⟩, ?_, ?_, ?_, ?_⟩
  · rw [hfrom, activeRows, List.getLast?_concat]
  · intro r hr
    rw [hearlier] at hr
    obtain ⟨b, hb, rfl⟩ := List.mem_map.mp hr
    obtain ⟨before, after, hsplit⟩ := List.append_of_mem hb
    exact c.reaches_eq_false_of_split hsplit .takeProfit
  · intro b hb hentry hclosing
    -- the bar lies in the window, since the closing bar does
    have hwindow : b ∈ c.bars := by
      rw [← hc]
      exact Series.mem_window_of_time_le h (hc ▸ mem_bars_of_mem_active c.mem_active_entry) hb
        (hc ▸ mem_bars_of_mem_active c.mem_active_closing) hentry (Int64.le_of_lt hclosing)
    obtain ⟨before, after, hsplit⟩ :=
      List.append_of_mem (mem_holding_of_time hasc hwindow hentry hclosing)
    exact c.reaches_eq_false_of_split hsplit .stopLoss
  · intro rows hrows
    rw [hearlier] at hrows
    exact c.isTrailedBy_of_prefix hrows
  · rw [hfrom]
    exact c.reason_eq_reasonShown

end Course

/-! ### Every filled simulation -/

/-- **The exit of a filled position can be read back from its ledger.**  Up to the last
line the ledger is the draft, and the last line shows the net return that was drafted.
No earlier line or bar reaches a barrier, and the last ones reach the barrier that closed
the position, none stronger. -/
theorem exists_audit_of_fill {series : List Bar} (h : Series.Ascending series) (p : Position)
    (fees : Fees) {fill : Fill} (hfill : (simulate series p fees).fill = some fill) :
    ∃ last b, Audit (simulate series p fees) series p.terms fees fill last b := by
  obtain ⟨c, hc, rfl⟩ := Course.exists_of_fill h hfill
  have houtcome : simulate series p fees
      = c.outcome (Series.startIndex series p.terms.created) :=
    Course.simulateUntil_eq_outcome h c hc
  rw [houtcome]
  exact ⟨_, _, Course.audit h hc⟩

/-- The trailing stop that closes the order on reversing prices can be replayed. -/
theorem exists_audit_of_reversal :
    (simulate reversal reversalPosition ⟨0.0004⟩).fill = some ⟨2, 120, 100.0⟩ ∧
      (simulate reversal reversalPosition ⟨0.0004⟩).reason = .trailingStop ∧
      ∃ last b, Audit (simulate reversal reversalPosition ⟨0.0004⟩) reversal
        reversalPosition.terms ⟨0.0004⟩ ⟨2, 120, 100.0⟩ last b :=
  have hfill : (simulate reversal reversalPosition ⟨0.0004⟩).fill = some ⟨2, 120, 100.0⟩ := by rfl
  ⟨hfill, by decide +kernel, exists_audit_of_fill (by decide) reversalPosition ⟨0.0004⟩ hfill⟩

end TripleBarrier
