import TripleBarrier.Proofs.FirstHit
import TripleBarrier.Proofs.Window

/-!
# The stages of a simulation, as one walk

A simulation drafts the ledger to the end of the data, looks for the hits of four barriers in it,
cuts it at the earliest one and writes the last line anew.  On an ascending series all this amounts
to one walk from creation on, which ends with the bar that closes the position.

The induction is on the bars from the entry on.  The draft of a list of bars is closed by its first
bar, in which case all other lines are cut off, or it is closed like the draft of the bars that
follow, with one line before it.

## Main definitions

* `Draft.settle` — the ledger of a draft from the entry on, closed by its earliest hit.

## Main results

* `Ledger.close_append` — only the last part of a ledger matters for closing it.
* `Draft.settle_eq_hold` — settling a draft is walking its bars up to the deadline.
* `simulateUntil_eq_walkUntil` — with any deadline, a simulation yields what a walk yields.
* `simulate_eq_walk` — **the same for the deadline of the position itself.**
-/

namespace TripleBarrier

/-! ### Cutting and closing a ledger -/

namespace Ledger

/-- **Closing concerns the last part of a ledger only.** -/
theorem close_append (front : List Row) {rows : List Row} (hrows : rows ≠ []) (entry : Int64)
    (e : Exposure) : close (front ++ rows) entry e = front ++ close rows entry e := by
  have hlast : (front ++ rows).getLast? = rows.getLast? := by
    rw [List.getLast?_append, List.getLast?_eq_some_getLast hrows]
    rfl
  have hclosing : closingRow? (front ++ rows) entry e = closingRow? rows entry e := by
    rw [closingRow?, hlast, closingRow?]
  unfold close
  rw [hclosing]
  cases closingRow? rows entry e with
  | none => rfl
  | some row =>
    show (front ++ rows).dropLast ++ [row.cleaned] = front ++ (rows.dropLast ++ [row.cleaned])
    rw [List.dropLast_append_of_ne_nil hrows, List.append_assoc]

theorem close_cons (r : Row) {rows : List Row} (hrows : rows ≠ []) (entry : Int64) (e : Exposure) :
    close (r :: rows) entry e = r :: close rows entry e :=
  close_append [r] hrows entry e

/-- A ledger of one line that does not precede the entry is closed on it. -/
theorem close_singleton (r : Row) {entry : Int64} (h : entry ≤ r.time) (e : Exposure) :
    close [r] entry e = [(e.closed.mark r.time r.price).cleaned] := by
  unfold close closingRow?
  rw [List.getLast?_singleton, Option.bind_some, if_neg (Int64.not_lt.mpr h)]
  rfl

end Ledger

/-! ### Settling a draft -/

namespace Draft

/-- The ledger of a draft from the entry on, closed by its earliest hit, and the barrier that is
hit.  The trailing stop may have seen some bars before. -/
def settle (d : Draft) (t : Terms) (deadline : Option Int) (stop : Option TrailingStop) :
    List Row × ExitReason :=
  (Ledger.close (Ledger.upTo d.activeRows (Hits.resume d t deadline stop).exit.time) d.fill.time
      d.exposure,
    (Hits.resume d t deadline stop).exit.reason)

section
variable {t : Terms} {fees : Fees} {fill : Fill} {before : List Bar}
variable {b : Bar} {rest : List Bar} {deadline : Option Int} {stop : Option TrailingStop}

theorem activeRows_draftFrom (active : List Bar) :
    (draftFrom t fees fill before active).activeRows
      = active.map (Walk.openLine t fees fill.price) := rfl

/-- The cut of a draft is the cut of its bars. -/
theorem upTo_map_openLine (active : List Bar) (time : Int) :
    Ledger.upTo (active.map (Walk.openLine t fees fill.price)) time
      = (active.takeWhile fun c => c.time.toInt ≤ time).map (Walk.openLine t fees fill.price) :=
  List.takeWhile_map

/-- If the bars after the first one come after the exit, their lines are cut off, and the position
is closed on the first one. -/
theorem settle_of_exit_before_rest (hentry : fill.time ≤ b.time) {exit : Exit}
    (hexit : (Hits.resume (draftFrom t fees fill before (b :: rest)) t deadline stop).exit = exit)
    (hb : b.time.toInt ≤ exit.time) (hrest : ∀ c ∈ rest, exit.time < c.time.toInt) :
    (draftFrom t fees fill before (b :: rest)).settle t deadline stop
      = ([Walk.closeLine t fees fill.price b], exit.reason) := by
  have hcut : Ledger.upTo ((b :: rest).map (Walk.openLine t fees fill.price)) exit.time
      = [Walk.openLine t fees fill.price b] := by
    rw [upTo_map_openLine, List.takeWhile_cons_of_pos (by simpa using hb)]
    -- the cut falls before the second bar, so it need not be looked at beyond that
    cases rest with
    | nil => rfl
    | cons c rest =>
      have hc : ¬ c.time.toInt ≤ exit.time := Int.not_le.mpr (hrest c List.mem_cons_self)
      rw [List.takeWhile_cons_of_neg (by simpa using hc)]
      rfl
  unfold settle
  rw [hexit, activeRows_draftFrom, hcut]
  have hclose : Ledger.close [Walk.openLine t fees fill.price b] fill.time
      (.opened t fees fill.price) = [Walk.closeLine t fees fill.price b] := by
    rw [Ledger.close_singleton (Walk.openLine t fees fill.price b) hentry, Walk.time_openLine,
      Walk.price_openLine, Walk.cleaned_mark_closed]
  exact congrArg (·, exit.reason) hclose

/-- A draft is closed on its first bar by a barrier that this bar reaches. -/
theorem settle_of_barrier (hasc : Series.Ascending (b :: rest)) (hb : b.isWithin deadline)
    (hentry : fill.time ≤ b.time) {reason : ExitReason}
    (h : t.barrier? fill.price (Walk.netReturn t fees fill.price b)
      (Walk.stopAfter t fees fill.price stop [b]) b = some reason) :
    (draftFrom t fees fill before (b :: rest)).settle t deadline stop
      = ([Walk.closeLine t fees fill.price b], reason) :=
  settle_of_exit_before_rest hentry (Hits.exit_of_barrier hasc hb h) (Int.le_refl _) fun _ hc =>
    hasc.toInt_lt hc

/-- A draft is closed on its first bar by the time limit if this bar reaches no barrier and no other
one comes within the deadline. -/
theorem settle_of_last (hasc : Series.Ascending (b :: rest)) (hb : b.isWithin deadline)
    (hentry : fill.time ≤ b.time)
    (hquiet : t.barrier? fill.price (Walk.netReturn t fees fill.price b)
      (Walk.stopAfter t fees fill.price stop [b]) b = none)
    (hrest : ∀ c ∈ rest, c.isWithin deadline = false) :
    (draftFrom t fees fill before (b :: rest)).settle t deadline stop
      = ([Walk.closeLine t fees fill.price b], .timeLimit) :=
  settle_of_exit_before_rest hentry (Hits.exit_of_last hquiet hrest)
    (Hits.time_le_timeLimit t fees fill before stop hasc hb)
    fun c hc => Hits.timeLimit_lt_time t stop _ (hrest c hc)

/-- If the first bar reaches no barrier and another one follows within the deadline, the draft is
settled like that of the bars that follow. -/
theorem settle_of_quiet (hasc : Series.Ascending (b :: rest)) (hrest : rest ≠ [])
    (hquiet : t.barrier? fill.price (Walk.netReturn t fees fill.price b)
      (Walk.stopAfter t fees fill.price stop [b]) b = none)
    (hwithin : ∀ c ∈ rest.head?, c.isWithin deadline) :
    (draftFrom t fees fill before (b :: rest)).settle t deadline stop
      = (Walk.openLine t fees fill.price b ::
          ((draftFrom t fees fill before rest).settle t deadline
            (Walk.stopAfter t fees fill.price stop [b])).1,
        ((draftFrom t fees fill before rest).settle t deadline
          (Walk.stopAfter t fees fill.price stop [b])).2) := by
  obtain ⟨c, rest, rfl⟩ := List.exists_cons_of_ne_nil hrest
  have hc := Hits.time_le_exit_time t fees fill before (Walk.stopAfter t fees fill.price stop [b])
    hasc.tail (hwithin c rfl)
  have hb : b.time.toInt ≤ c.time.toInt :=
    Int.le_of_lt (hasc.toInt_lt List.mem_cons_self)
  unfold settle
  rw [Hits.resume_of_quiet hquiet hrest, activeRows_draftFrom, activeRows_draftFrom]
  generalize (Hits.resume (draftFrom t fees fill before (c :: rest)) t deadline
    (Walk.stopAfter t fees fill.price stop [b])).exit = exit at hc ⊢
  -- the cut keeps the lines of the first two bars
  have hcut : Ledger.upTo ((b :: c :: rest).map (Walk.openLine t fees fill.price)) exit.time
      = Walk.openLine t fees fill.price b ::
          Ledger.upTo ((c :: rest).map (Walk.openLine t fees fill.price)) exit.time := by
    have hkeep : b.time.toInt ≤ exit.time := Int.le_trans hb hc
    rw [upTo_map_openLine, upTo_map_openLine, List.takeWhile_cons_of_pos (by simpa using hkeep),
      List.map_cons]
  have hne : Ledger.upTo ((c :: rest).map (Walk.openLine t fees fill.price)) exit.time ≠ [] := by
    rw [upTo_map_openLine, List.takeWhile_cons_of_pos (by simpa using hc), List.map_cons]
    exact List.cons_ne_nil _ _
  rw [hcut]
  exact congrArg (·, exit.reason) (Ledger.close_cons _ hne _ _)

variable (t fees before stop) in
/-- **Settling a draft is walking its bars up to the deadline.** -/
theorem settle_eq_hold (hasc : Series.Ascending (b :: rest)) (hb : b.isWithin deadline)
    (hentry : fill.time ≤ b.time) :
    (draftFrom t fees fill before (b :: rest)).settle t deadline stop
      = Walk.hold t fees fill.price stop ((b :: rest).takeWhile (Bar.isWithin deadline)) := by
  -- on the bars after the first one, which the trailing stop sees next
  induction rest generalizing b stop with
  | nil =>
    rw [List.takeWhile_cons_of_pos hb]
    cases hx : t.barrier? fill.price (Walk.netReturn t fees fill.price b)
        (Walk.stopAfter t fees fill.price stop [b]) b with
    | some reason =>
      rw [settle_of_barrier hasc hb hentry hx, Walk.hold_cons_of_exit (Walk.exit?_of_barrier hx _)]
    | none =>
      rw [settle_of_last hasc hb hentry hx fun c hc => absurd hc List.not_mem_nil,
        Walk.hold_cons_of_exit (Walk.exit?_of_last hx)]
  | cons c rest ih =>
    rw [List.takeWhile_cons_of_pos hb]
    cases hx : t.barrier? fill.price (Walk.netReturn t fees fill.price b)
        (Walk.stopAfter t fees fill.price stop [b]) b with
    | some reason =>
      rw [settle_of_barrier hasc hb hentry hx, Walk.hold_cons_of_exit (Walk.exit?_of_barrier hx _)]
    | none =>
      by_cases hc : c.isWithin deadline
      · have hentry' : fill.time ≤ c.time :=
          Int64.le_trans hentry (Int64.le_of_lt (hasc.time_lt List.mem_cons_self))
        rw [settle_of_quiet hasc (List.cons_ne_nil _ _) hx (fun d hd => Option.some.inj hd ▸ hc),
          ih _ hasc.tail hc hentry', Walk.hold_cons_of_open]
        rw [List.takeWhile_cons_of_pos hc]
        simpa using hx
      · -- the deadline lies between the two bars
        have hlate : ∀ d ∈ c :: rest, d.isWithin deadline = false := fun d hd =>
          Series.not_isWithin_of_mem_dropWhile hasc.tail (by rwa [List.dropWhile_cons_of_neg hc])
        rw [settle_of_last hasc hb hentry hx hlate, List.takeWhile_cons_of_neg hc,
          Walk.hold_cons_of_exit (Walk.exit?_of_last hx)]

end

end Draft

/-! ### From the draft to the whole ledger -/

section
variable {series : List Bar} {created : Int64} {deadline : Option Int}
variable {earlier : List Bar} {b : Bar} {later : List Bar}

/-- The bars from creation on, around a bar of the window. -/
theorem Series.startingAt_of_split
    (hsplit : window series created deadline = earlier ++ b :: later) :
    startingAt series created = earlier ++ b :: (later ++ after series created deadline) := by
  rw [← window_append_after series created deadline, hsplit, List.append_assoc, List.cons_append]

/-- The bars from some bar of the window on, cut at the deadline, are those of the window. -/
theorem Series.takeWhile_isWithin_of_split
    (hsplit : window series created deadline = earlier ++ b :: later) :
    (b :: (later ++ after series created deadline)).takeWhile (Bar.isWithin deadline)
      = b :: later := by
  have hearlier : ∀ c ∈ earlier, c.isWithin deadline := fun c hc =>
    isWithin_of_mem_window (hsplit ▸ List.mem_append_left (b :: later) hc)
  have hwindow : window series created deadline = earlier ++
      (b :: (later ++ after series created deadline)).takeWhile (Bar.isWithin deadline) := by
    rw [window, startingAt_of_split hsplit, List.takeWhile_append_of_pos hearlier]
  exact List.append_cancel_left (hwindow.symm.trans hsplit)

/-- The draft of an entry on a bar of the window holds the bars of the window around it, and those
that come after the deadline. -/
theorem draftOf_eq_draftFrom {t : Terms} (fees : Fees)
    (hsplit : Series.window series t.created deadline = earlier ++ b :: later) :
    draftOf series t fees (Series.entryAfter series t.created earlier b)
      = draftFrom t fees (Series.entryAfter series t.created earlier b) earlier
          (b :: (later ++ Series.after series t.created deadline)) := by
  have hdrop : series.drop (Series.startIndex series t.created)
      = earlier ++ b :: (later ++ Series.after series t.created deadline) :=
    Series.startingAt_of_split hsplit
  unfold draftOf Draft.build draftFrom Series.entryAfter
  rw [hdrop, Nat.add_sub_cancel_left, List.take_left, List.drop_left]

end

namespace Draft

section
variable {t : Terms} {fees : Fees} {fill : Fill} {before : List Bar}
variable {b : Bar} {rest : List Bar} {deadline : Option Int}

/-- The outcome of a draft is what settling it yields, behind the flat lines up to the entry. -/
theorem outcome_eq_settle (p : Position)
    (hasc : Series.Ascending (before ++ b :: rest)) (hb : b.isWithin deadline) :
    (draftFrom t fees fill before (b :: rest)).outcome p
        (Hits.find (draftFrom t fees fill before (b :: rest)) t deadline).exit
      = ⟨p, before.map (fun c => Row.flat c.time c.close) ++
            ((draftFrom t fees fill before (b :: rest)).settle t deadline
              (t.trail.map .start)).1,
          ((draftFrom t fees fill before (b :: rest)).settle t deadline (t.trail.map .start)).2,
          some fill⟩ := by
  obtain ⟨-, hactive, hbefore⟩ := List.pairwise_append.mp hasc
  have hle := Hits.time_le_exit_time t fees fill before (t.trail.map .start) hactive hb
  unfold outcome rowsUpTo settle
  rw [Hits.find_eq_resume]
  generalize (Hits.resume (draftFrom t fees fill before (b :: rest)) t deadline
    (t.trail.map .start)).exit = exit at hle ⊢
  -- the cut keeps all flat lines and at least one line of the open position
  have hflat : ∀ r ∈ before.map (fun c => Row.flat c.time c.close),
      decide (r.time.toInt ≤ exit.time) = true := by
    intro r hr
    obtain ⟨c, hc, rfl⟩ := List.mem_map.mp hr
    have hlt := Int64.lt_iff_toInt_lt.mp (hbefore c hc b List.mem_cons_self)
    exact decide_eq_true (Int.le_trans (Int.le_of_lt hlt) hle)
  have hcut : Ledger.upTo (draftFrom t fees fill before (b :: rest)).rows exit.time
      = before.map (fun c => Row.flat c.time c.close) ++
          Ledger.upTo (draftFrom t fees fill before (b :: rest)).activeRows exit.time := by
    unfold Ledger.upTo rows
    exact List.takeWhile_append_of_pos hflat
  have hne : Ledger.upTo (draftFrom t fees fill before (b :: rest)).activeRows exit.time ≠ [] := by
    rw [activeRows_draftFrom, upTo_map_openLine, List.takeWhile_cons_of_pos (by simpa using hle),
      List.map_cons]
    exact List.cons_ne_nil _ _
  rw [hcut, Ledger.close_append _ hne]
  rfl

end

end Draft

/-! ### The refinement -/

theorem Simulation.outcome_filled (deadline : Option Int) (p : Position) (d : Draft) :
    (filled deadline p d).outcome = d.outcome p (Hits.find d p.terms deadline).exit := rfl

/-- **With any deadline, a simulation over an ascending series yields what a walk yields.** -/
theorem simulateUntil_eq_walkUntil {series : List Bar} (h : Series.Ascending series)
    (deadline : Option Int) (p : Position) (fees : Fees) :
    simulateUntil deadline series p fees = walkUntil deadline series p fees := by
  unfold simulateUntil walkUntil
  rw [Walk.bars_eq_zipIdx_window h]
  cases hfill : Series.fill? series p.terms deadline with
  | none =>
    rw [Simulation.run_of_unfilled fees hfill,
      Walk.wait_of_forall_not_fillsOn fees (Series.forall_not_fillsOn_of_fill? hfill)]
    rfl
  | some fill =>
    obtain ⟨earlier, b, later, hsplit, hearlier, hb, rfl⟩ := Series.exists_split_of_fill? hfill
    have hwithin : b.isWithin deadline :=
      Series.isWithin_of_mem_window (hsplit ▸ List.mem_append_right earlier List.mem_cons_self)
    have hasc : Series.Ascending
        (earlier ++ b :: (later ++ Series.after series p.terms.created deadline)) :=
      Series.startingAt_of_split hsplit ▸ h.sublist (Series.startingAt_sublist series _)
    have hentry : (Series.entryAfter series p.terms.created earlier b).time ≤ b.time :=
      Int64.le_refl b.time
    -- the draft goes on to the end of the data, the walk to the end of the window
    have hsettle := Draft.settle_eq_hold p.terms fees earlier (p.terms.trail.map .start)
      (List.pairwise_append.mp hasc).2.1 hwithin hentry
    rw [Series.takeWhile_isWithin_of_split hsplit] at hsettle
    rw [Simulation.run_of_filled fees hfill, hsplit, Walk.wait_of_fillsOn fees later hearlier hb,
      draftOf_eq_draftFrom fees hsplit, Simulation.outcome_filled,
      Draft.outcome_eq_settle p hasc hwithin, hsettle]
    rfl

/-- **A simulation over an ascending series yields what one walk over its bars yields**: the same
lines with the same figures, the same barrier, the same entry. -/
theorem simulate_eq_walk {series : List Bar} (h : Series.Ascending series) (p : Position)
    (fees : Fees) : simulate series p fees = walk series p fees :=
  simulateUntil_eq_walkUntil h p.deadline? p fees

/-- Prices that rise and turn, with a gap before the last bar. -/
def reversal : List Bar :=
  [.flat 0 99.0, .flat 60 101.0, .flat 120 100.0, .flat 180 103.0, .flat 240 102.0, .flat 600 110.0]

/-- A limit order with a trailing stop, created between two bars and limited to a
time in the gap. -/
def reversalPosition : Position where
  terms :=
    { created := 30, side := .long, price := 100.0, amount := 2.0, isLimit := true
      trail := some ⟨0.01, 0.005⟩, timeLimit := some 400 }
  sound := by decide +kernel

/-- The order fills on the third bar, and the walk ends with the bar of the turn. -/
theorem simulate_eq_walk_of_reversal :
    Series.Ascending reversal ∧
      simulate reversal reversalPosition ⟨0.0004⟩ = walk reversal reversalPosition ⟨0.0004⟩ ∧
      (walk reversal reversalPosition ⟨0.0004⟩).fill = some ⟨2, 120, 100.0⟩ ∧
      (walk reversal reversalPosition ⟨0.0004⟩).reason = .trailingStop ∧
      (walk reversal reversalPosition ⟨0.0004⟩).closeTime? = some 240 :=
  ⟨by decide, simulate_eq_walk (by decide) reversalPosition ⟨0.0004⟩, by rfl, by decide +kernel,
    by decide +kernel⟩

end TripleBarrier
