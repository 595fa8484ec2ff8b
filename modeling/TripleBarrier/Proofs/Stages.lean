import TripleBarrier.Proofs.Refinement

/-!
# What the stages of a simulation rely on

Each stage of a filled simulation takes something for granted of the stages before it.  The draft is
cut out of the series by an index that the entry provides; the exit must not come before the entry,
or else the cut would leave no line of the open position; and the last line is only written anew if
it does not precede the entry.  These facts come from different places: the entry is looked for up
to the deadline only, so no hit precedes it, and so the cut keeps its line.

The cut itself falls on the last bar that does not come after the exit.  This is the bar on which a
barrier was reached, unless the position was closed by the time limit, which may lie between two
bars or beyond the data.

## Main definitions

* `Draft.CutAt` — what a cut of a draft leaves.
* `Series.Enters` — where an entry may lie.
* `hitsOf`, `exitOf` — the hits that a simulation with a given entry finds, and the
  exit it decides on.
* `StagesAgree` — all that the stages take for granted of each other.

## Main results

* `Ledger.mem_upTo_iff` — a cut keeps the lines up to a time, in a ledger in ascending order.
* `Draft.exists_getLast?_rowsUpTo` — the last line that a cut keeps.
* `exists_stagesAgree_of_fill?` — **the stages of every filled simulation agree.**
-/

namespace TripleBarrier

/-! ### Ledgers in ascending order -/

namespace Ledger

section
variable {rows : List Row} (h : rows.Pairwise fun r r' => r.time < r'.time)
include h

/-- A cut keeps exactly the lines up to a time. -/
theorem mem_upTo_iff {time : Int} {r : Row} :
    r ∈ upTo rows time ↔ r ∈ rows ∧ r.time.toInt ≤ time := by
  induction rows with
  | nil => simp [upTo]
  | cons first rest ih =>
    obtain ⟨hfirst, hrest⟩ := List.pairwise_cons.mp h
    have ih : r ∈ rest.takeWhile (fun r => r.time.toInt ≤ time) ↔
        r ∈ rest ∧ r.time.toInt ≤ time := ih hrest
    rw [upTo, List.takeWhile_cons]
    split
    · next hle =>
      rw [List.mem_cons, List.mem_cons, ih]
      constructor
      · rintro (rfl | ⟨hr, htime⟩)
        · exact ⟨.inl rfl, of_decide_eq_true hle⟩
        · exact ⟨.inr hr, htime⟩
      · rintro ⟨rfl | hr, htime⟩
        · exact .inl rfl
        · exact .inr ⟨hr, htime⟩
    · next hle =>
      -- the first line comes too late, and the others come after it
      refine ⟨fun hr => absurd hr List.not_mem_nil, fun ⟨hr, htime⟩ => absurd ?_ hle⟩
      refine decide_eq_true (Int.le_trans ?_ htime)
      rcases List.mem_cons.mp hr with rfl | hr
      · exact Int.le_refl _
      · exact Int64.le_iff_toInt_le.mp (Int64.le_of_lt (hfirst r hr))

/-- No line comes after the last one. -/
theorem time_le_of_getLast? {last r : Row} (hlast : rows.getLast? = some last) (hr : r ∈ rows) :
    r.time ≤ last.time := by
  obtain ⟨front, rfl⟩ := List.getLast?_eq_some_iff.mp hlast
  rcases List.mem_append.mp hr with hr | hr
  · exact Int64.le_of_lt ((List.pairwise_append.mp h).2.2 r hr last (List.mem_singleton_self last))
  · obtain rfl := List.mem_singleton.mp hr
    exact Int64.le_refl _

end

section
variable {rows : List Row} {last : Row} (hlast : rows.getLast? = some last) {entry : Int64}
  (hentry : entry ≤ last.time) (e : Exposure)
include hlast hentry

/-- The exit is written as the last line, if that does not precede the entry. -/
theorem closingRow?_of_getLast? :
    closingRow? rows entry e = some (e.closed.mark last.time last.price) := by
  rw [closingRow?, hlast, Option.bind_some, if_neg (Int64.not_lt.mpr hentry)]

/-- A last line that does not precede the entry is written anew. -/
theorem close_of_getLast? :
    close rows entry e = rows.dropLast ++ [(e.closed.mark last.time last.price).cleaned] := by
  unfold close
  rw [closingRow?_of_getLast? hlast hentry]

end

end Ledger

/-! ### The lines of a draft -/

namespace Draft

section
variable (d : Draft)

/-- The bars of a draft, before and from the entry. -/
def bars : List Bar :=
  d.before ++ d.active

/-- A draft has one line for each of its bars. -/
theorem map_time_rows : d.rows.map Row.time = d.bars.map Bar.time := by
  unfold rows activeRows bars
  rw [List.map_append, List.map_append, List.map_map, List.map_map]
  rfl

variable {d}

theorem exists_row_of_mem_bars {b : Bar} (hb : b ∈ d.bars) : ∃ r ∈ d.rows, r.time = b.time := by
  have htime : b.time ∈ d.rows.map Row.time := d.map_time_rows ▸ List.mem_map_of_mem hb
  exact List.mem_map.mp htime

theorem exists_bar_of_mem_rows {r : Row} (hr : r ∈ d.rows) : ∃ b ∈ d.bars, b.time = r.time := by
  have htime : r.time ∈ d.bars.map Bar.time := d.map_time_rows ▸ List.mem_map_of_mem hr
  exact List.mem_map.mp htime

section
variable (h : Series.Ascending d.bars)
include h

theorem pairwise_rows : d.rows.Pairwise fun r r' => r.time < r'.time := by
  have htimes : (d.rows.map Row.time).Pairwise (· < ·) := by
    rw [map_time_rows]
    exact List.pairwise_map.mpr h
  exact List.pairwise_map.mp htimes

/-- **A cut ends with the line of the last bar up to the exit**, if there is any. -/
theorem exists_getLast?_rowsUpTo {exit : Exit} {b : Bar} (hb : b ∈ d.bars)
    (hle : b.time.toInt ≤ exit.time) :
    ∃ last, (d.rowsUpTo exit).getLast? = some last ∧ last.time.toInt ≤ exit.time ∧
      (∃ c ∈ d.bars, c.time = last.time) ∧
      ∀ c ∈ d.bars, c.time.toInt ≤ exit.time → c.time ≤ last.time := by
  have hrows := pairwise_rows h
  have hcut : ∀ c ∈ d.bars, c.time.toInt ≤ exit.time → ∃ r ∈ d.rowsUpTo exit, r.time = c.time := by
    intro c hc hctime
    obtain ⟨r, hr, htime⟩ := exists_row_of_mem_bars hc
    exact ⟨r, (Ledger.mem_upTo_iff hrows).mpr ⟨hr, htime ▸ hctime⟩, htime⟩
  cases hlast : (d.rowsUpTo exit).getLast? with
  | none =>
    -- the line of `b` is kept
    obtain ⟨r, hr, -⟩ := hcut b hb hle
    rw [List.getLast?_eq_none_iff.mp hlast] at hr
    exact absurd hr List.not_mem_nil
  | some last =>
    obtain ⟨hmem, htime⟩ := (Ledger.mem_upTo_iff hrows).mp (List.mem_of_getLast? hlast)
    refine ⟨last, rfl, htime, exists_bar_of_mem_rows hmem, fun c hc hctime => ?_⟩
    obtain ⟨r, hr, hrtime⟩ := hcut c hc hctime
    have hkept : (d.rowsUpTo exit).Pairwise fun r r' => r.time < r'.time :=
      hrows.sublist (List.takeWhile_sublist _)
    exact hrtime ▸ Ledger.time_le_of_getLast? hkept hlast hr

end

end

end Draft

/-! ### The exit -/

/-- A barrier is reached on one of the bars from the entry on. -/
theorem Hits.exists_mem_of_exit {t : Terms} {fees : Fees} {fill : Fill} {before active : List Bar}
    {deadline : Option Int}
    (hreason : (find (draftFrom t fees fill before active) t deadline).exit.reason ≠ .timeLimit) :
    ∃ c ∈ active, c.time.toInt
      = (find (draftFrom t fees fill before active) t deadline).exit.time := by
  rw [find_eq_resume] at hreason ⊢
  exact exists_mem_of_time?_resume hreason (time?_exit _)

/-- A draft is cut at an exit after the line `last`. -/
structure Draft.CutAt (d : Draft) (exit : Exit) (last : Row) : Prop where
  entry_le_exit : d.fill.time.toInt ≤ exit.time
  entryRow : d.exposure.row d.fill.time d.fill.price ∈ d.rowsUpTo exit
  lastRow : (d.rowsUpTo exit).getLast? = some last
  entry_le_last : d.fill.time ≤ last.time
  /-- A barrier closes the position on the bar on which it is reached. -/
  last_eq_exit : exit.reason ≠ .timeLimit → last.time.toInt = exit.time
  /-- The last line is that of the last bar up to the exit, wherever the exit lies. -/
  last_le_exit : last.time.toInt ≤ exit.time
  mem_bars : ∃ b ∈ d.bars, b.time = last.time
  le_last : ∀ b ∈ d.bars, b.time.toInt ≤ exit.time → b.time ≤ last.time

section
variable {t : Terms} {fees : Fees} {fill : Fill} {before : List Bar} {b : Bar} {rest : List Bar}
variable {deadline : Option Int}

/-- **The draft of an entry within the deadline is cut after a line of the open position.** -/
theorem Draft.exists_cutAt (hasc : Series.Ascending (before ++ b :: rest))
    (hb : b.isWithin deadline) (htime : fill.time = b.time) (hprice : fill.price = b.close) :
    ∃ last, (draftFrom t fees fill before (b :: rest)).CutAt
      (Hits.find (draftFrom t fees fill before (b :: rest)) t deadline).exit last := by
  have hactive : Series.Ascending (b :: rest) := (List.pairwise_append.mp hasc).2.1
  have hdraft : Series.Ascending (draftFrom t fees fill before (b :: rest)).bars := hasc
  have hbars : b ∈ (draftFrom t fees fill before (b :: rest)).bars :=
    List.mem_append_right before List.mem_cons_self
  -- no hit precedes the entry, since the deadline does not
  have hle := Hits.time_le_exit_time t fees fill before (t.trail.map .start) hactive hb
  rw [← Hits.find_eq_resume] at hle
  have hentry : (draftFrom t fees fill before (b :: rest)).exposure.row fill.time fill.price
      ∈ (draftFrom t fees fill before (b :: rest)).rows := by
    rw [htime, hprice]
    exact List.mem_append_right _ List.mem_cons_self
  obtain ⟨last, hlast, hlastle, hmem, hgreatest⟩ := exists_getLast?_rowsUpTo hdraft hbars hle
  have hkept : (draftFrom t fees fill before (b :: rest)).exposure.row fill.time fill.price
      ∈ (draftFrom t fees fill before (b :: rest)).rowsUpTo
        (Hits.find (draftFrom t fees fill before (b :: rest)) t deadline).exit :=
    (Ledger.mem_upTo_iff (pairwise_rows hdraft)).mpr ⟨hentry, htime ▸ hle⟩
  have hclosing : (Hits.find (draftFrom t fees fill before (b :: rest)) t deadline).exit.reason
      ≠ .timeLimit → last.time.toInt
        = (Hits.find (draftFrom t fees fill before (b :: rest)) t deadline).exit.time := by
    intro hreason
    obtain ⟨c, hc, hctime⟩ := Hits.exists_mem_of_exit hreason
    have hclast := hgreatest c (List.mem_append_right before hc) (Int.le_of_eq hctime)
    exact Int.le_antisymm hlastle (hctime ▸ Int64.le_iff_toInt_le.mp hclast)
  exact ⟨last, {
    entry_le_exit := htime ▸ hle
    entryRow := hkept
    lastRow := hlast
    entry_le_last := htime ▸ hgreatest b hbars hle
    last_eq_exit := hclosing
    last_le_exit := hlastle
    mem_bars := hmem
    le_last := hgreatest }⟩

end

/-! ### The entry -/

/-- The entry is a bar of the series, at an index behind the bars before creation, and it comes
neither before creation nor after the deadline. -/
structure Series.Enters (series : List Bar) (created : Int64) (deadline : Option Int)
    (fill : Fill) :
    Prop where
  start_le : startIndex series created ≤ fill.index
  index_lt : fill.index < series.length
  entryBar : ∃ b, series[fill.index]? = some b ∧ fill.time = b.time ∧ fill.price = b.close
  created_le : created ≤ fill.time
  le_deadline : ∀ time ∈ deadline, fill.time.toInt ≤ time

/-- The index of the entry is that of its bar. -/
theorem Series.getElem?_of_split {series : List Bar} {created : Int64} {deadline : Option Int}
    {earlier : List Bar} {b : Bar} {later : List Bar}
    (hsplit : window series created deadline = earlier ++ b :: later) :
    series[(entryAfter series created earlier b).index]? = some b := by
  have hget : (before series created ++
      (earlier ++ b :: (later ++ after series created deadline)))[(before series created).length +
        earlier.length]? = some b := by
    rw [List.getElem?_append_right (Nat.le_add_right _ _), Nat.add_sub_cancel_left,
      List.getElem?_append_right (Nat.le_refl _), Nat.sub_self]
    rfl
  rwa [← startingAt_of_split hsplit, before_append_startingAt] at hget

/-- An order is filled within the series. -/
theorem Series.enters_of_fill? {series : List Bar} (h : Ascending series) {t : Terms}
    {deadline : Option Int} {fill : Fill} (hfill : fill? series t deadline = some fill) :
    Enters series t.created deadline fill := by
  obtain ⟨earlier, b, later, hsplit, -, -, rfl⟩ := exists_split_of_fill? hfill
  have hwindow : b ∈ window series t.created deadline :=
    hsplit ▸ List.mem_append_right earlier List.mem_cons_self
  have hget := getElem?_of_split hsplit
  refine ⟨Nat.le_add_right _ _, (List.getElem?_eq_some_iff.mp hget).1, ⟨b, hget, rfl, rfl⟩,
    le_time_of_mem_startingAt h (mem_startingAt_of_mem_window hwindow), fun time htime => ?_⟩
  have hwithin := isWithin_of_mem_window hwindow
  rw [Option.mem_def.mp htime] at hwithin
  exact of_decide_eq_true hwithin

/-! ### All stages -/

/-- The hits among which the simulation of a position with a given entry decides. -/
def hitsOf (series : List Bar) (p : Position) (fees : Fees) (fill : Fill) : Hits :=
  Hits.find (draftOf series p.terms fees fill) p.terms p.deadline?

/-- The exit that the simulation of a position with a given entry decides on. -/
def exitOf (series : List Bar) (p : Position) (fees : Fees) (fill : Fill) : Exit :=
  (hitsOf series p fees fill).exit

/-- A draft holds the bars from creation on. -/
theorem bars_draftOf (series : List Bar) (t : Terms) (fees : Fees) (fill : Fill) :
    (draftOf series t fees fill).bars = Series.startingAt series t.created :=
  List.take_append_drop _ _

/-- What the stages of a simulation with a given entry take for granted of each other, and what
follows for its outcome: the draft is cut after the line `last`. -/
structure StagesAgree (series : List Bar) (p : Position) (fees : Fees) (fill : Fill) (last : Row) :
    Prop where
  entry : Series.Enters series p.terms.created p.deadline? fill
  /-- The bars from the entry on start with the bar on which the order was filled. -/
  active : (draftOf series p.terms fees fill).active.head? = series[fill.index]?
  cut : (draftOf series p.terms fees fill).CutAt (exitOf series p fees fill) last
  /-- The bars that the draft leaves out do not come between the last line and the exit. -/
  le_last : ∀ b ∈ series, b.time.toInt ≤ (exitOf series p fees fill).time → b.time ≤ last.time
  mem_series : ∃ b ∈ series, b.time = last.time
  /-- The last line is written anew, and all others are those of the cut. -/
  rows : (simulate series p fees).rows
    = ((draftOf series p.terms fees fill).rowsUpTo (exitOf series p fees fill)).dropLast ++
      [((draftOf series p.terms fees fill).exposure.closed.mark last.time last.price).cleaned]
  reason : (simulate series p fees).reason = (exitOf series p fees fill).reason
  closeTime : (simulate series p fees).closeTime? = some last.time

section
variable {series : List Bar} (p : Position) (fees : Fees) {fill : Fill}
variable (hfill : Series.fill? series p.terms p.deadline? = some fill)
include hfill

theorem simulate_of_fill? :
    simulate series p fees
      = (draftOf series p.terms fees fill).outcome p (exitOf series p fees fill) := by
  rw [simulate, simulateUntil, Simulation.run_of_filled fees hfill, Simulation.outcome_filled]
  rfl

/-- The bars from the entry on start with the bar on which the order was filled. -/
theorem head?_active_draftOf :
    (draftOf series p.terms fees fill).active.head? = series[fill.index]? := by
  obtain ⟨earlier, b, later, hsplit, -, -, rfl⟩ := Series.exists_split_of_fill? hfill
  rw [draftOf_eq_draftFrom fees hsplit, Series.getElem?_of_split hsplit]
  rfl

/-- The draft of a filled position is cut after a line of the open position. -/
theorem exists_cutAt_of_fill? (h : Series.Ascending series) :
    ∃ last, (draftOf series p.terms fees fill).CutAt (exitOf series p fees fill) last := by
  obtain ⟨earlier, b, later, hsplit, -, -, rfl⟩ := Series.exists_split_of_fill? hfill
  have hasc : Series.Ascending
      (earlier ++ b :: (later ++ Series.after series p.terms.created p.deadline?)) :=
    Series.startingAt_of_split hsplit ▸ h.sublist (Series.startingAt_sublist series _)
  have hwithin : b.isWithin p.deadline? :=
    Series.isWithin_of_mem_window (hsplit ▸ List.mem_append_right earlier List.mem_cons_self)
  unfold exitOf hitsOf
  rw [draftOf_eq_draftFrom fees hsplit]
  exact Draft.exists_cutAt hasc hwithin rfl rfl

/-- **The stages of every filled simulation agree.**  No index is out of range, the exit does not
precede the entry, and the ledger is closed on a line of the open position. -/
theorem exists_stagesAgree_of_fill? (h : Series.Ascending series) :
    ∃ last, StagesAgree series p fees fill last := by
  have henters := Series.enters_of_fill? h hfill
  have hsimulate := simulate_of_fill? p fees hfill
  have hbars := bars_draftOf series p.terms fees fill
  obtain ⟨last, hcut⟩ := exists_cutAt_of_fill? p fees hfill h
  have hrows : (simulate series p fees).rows
      = ((draftOf series p.terms fees fill).rowsUpTo (exitOf series p fees fill)).dropLast ++
        [((draftOf series p.terms fees fill).exposure.closed.mark last.time
          last.price).cleaned] := by
    rw [hsimulate]
    exact Ledger.close_of_getLast? hcut.lastRow hcut.entry_le_last _
  have hle : ∀ b ∈ series, b.time.toInt ≤ (exitOf series p fees fill).time →
      b.time ≤ last.time := by
    intro b hb htime
    rw [← Series.before_append_startingAt series p.terms.created] at hb
    rcases List.mem_append.mp hb with hb | hb
    · -- the bars before creation come before the entry
      have hlt := Series.time_lt_of_mem_before hb
      have hcreated := Int64.le_trans henters.created_le hcut.entry_le_last
      exact Int64.le_of_lt (Int64.lt_of_lt_of_le hlt hcreated)
    · exact hcut.le_last b (hbars ▸ hb) htime
  have hmem : ∃ b ∈ series, b.time = last.time := by
    obtain ⟨b, hb, htime⟩ := hcut.mem_bars
    exact ⟨b, (Series.startingAt_sublist series _).mem (hbars ▸ hb), htime⟩
  have hclose : (simulate series p fees).closeTime? = some last.time := by
    rw [Outcome.closeTime?, Outcome.finalRow?, hrows, List.getLast?_concat]
    rfl
  exact ⟨last, {
    entry := henters
    active := head?_active_draftOf p fees hfill
    cut := hcut
    le_last := hle
    mem_series := hmem
    rows := hrows
    reason := by rw [hsimulate]; rfl
    closeTime := hclose }⟩

end

/-- The order on reversing prices is closed in the gap before the last bar if it is not trailed. -/
def untrailedPosition : Position where
  terms := { reversalPosition.terms with trail := none }
  sound := by decide +kernel

/-- A barrier that is reached decides on its bar, and a time limit on a time between two bars. -/
theorem exists_stagesAgree_of_reversal :
    Series.Ascending reversal ∧
      (Series.fill? reversal reversalPosition.terms reversalPosition.deadline?
          = some ⟨2, 120, 100.0⟩ ∧
        exitOf reversal reversalPosition ⟨0.0004⟩ ⟨2, 120, 100.0⟩ = ⟨.trailingStop, 240⟩ ∧
        ∃ last, StagesAgree reversal reversalPosition ⟨0.0004⟩ ⟨2, 120, 100.0⟩ last) ∧
      (Series.fill? reversal untrailedPosition.terms untrailedPosition.deadline?
          = some ⟨2, 120, 100.0⟩ ∧
        exitOf reversal untrailedPosition ⟨0.0004⟩ ⟨2, 120, 100.0⟩ = ⟨.timeLimit, 430⟩ ∧
        ∃ last, StagesAgree reversal untrailedPosition ⟨0.0004⟩ ⟨2, 120, 100.0⟩ last) := by
  have hasc : Series.Ascending reversal := by decide
  have htrailed : Series.fill? reversal reversalPosition.terms reversalPosition.deadline?
      = some ⟨2, 120, 100.0⟩ := by rfl
  have huntrailed : Series.fill? reversal untrailedPosition.terms untrailedPosition.deadline?
      = some ⟨2, 120, 100.0⟩ := by rfl
  exact ⟨hasc, ⟨htrailed, by decide +kernel,
      exists_stagesAgree_of_fill? reversalPosition ⟨0.0004⟩ htrailed hasc⟩,
    huntrailed, by decide +kernel,
    exists_stagesAgree_of_fill? untrailedPosition ⟨0.0004⟩ huntrailed hasc⟩

end TripleBarrier
