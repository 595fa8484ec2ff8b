import TripleBarrier.Proofs.Refinement

/-!
# The course of a filled position

The bars of the window fall into four parts: those on which the order waits, those that leave the
position open, the bar that closes it, and those that are never looked at.  Such a division, with
the facts that make it the right one, determines all that a simulation yields; and every simulation
of a position that fills has one.

What is to be shown of an outcome is therefore shown of the parts.

## Main definitions

* `Course` — the parts of a window, with the facts about them.
* `Course.outcome` — what a simulation yields with this course.

## Main results

* `Course.exists_of_fillsOn` — there is a course wherever the order fills.
* `Course.simulateUntil_eq_outcome` — a course of the window determines the outcome.
* `Course.exists_simulateUntil_eq_outcome` — every outcome comes from a course, or no bar fills.
* `Course.exists_of_fill` — a filled outcome comes from a course of the window.
-/

namespace TripleBarrier

/-- The division of some bars by the entry and the exit of a position. -/
structure Course (p : Position) (fees : Fees) where
  /-- The bars on which the order waits. -/
  waiting : List Bar
  /-- The bars from the entry on that leave the position open. -/
  holding : List Bar
  closing : Bar
  /-- The bars after the exit. -/
  unseen : List Bar
  reason : ExitReason
  waits : ∀ b ∈ waiting, p.terms.fillsOn b = false
  fills : p.terms.fillsOn (holding.headD closing)
  closes : Walk.ClosesOn p.terms fees (holding.headD closing).close (p.terms.trail.map .start)
    holding closing unseen reason

namespace Course

variable {p : Position} {fees : Fees}

/-- The bar of entry, which closes the position if none leaves it open. -/
def entry (c : Course p fees) : Bar :=
  c.holding.headD c.closing

/-- The bars from the entry on. -/
def active (c : Course p fees) : List Bar :=
  c.holding ++ c.closing :: c.unseen

/-- All bars, in order. -/
def bars (c : Course p fees) : List Bar :=
  c.waiting ++ c.active

/-- The bars through the exit. -/
def seen (c : Course p fees) : List Bar :=
  c.waiting ++ (c.holding ++ [c.closing])

/-- The lines from the entry on. -/
def activeRows (c : Course p fees) : List Row :=
  c.holding.map (Walk.openLine p.terms fees c.entry.close) ++
    [Walk.closeLine p.terms fees c.entry.close c.closing]

/-- All lines, those before the entry being flat. -/
def rows (c : Course p fees) : List Row :=
  c.waiting.map (fun b => Row.flat b.time b.close) ++ c.activeRows

/-- What a simulation yields with this course, for bars numbered from `start` on. -/
def outcome (c : Course p fees) (start : Nat) : Outcome :=
  ⟨p, c.rows, c.reason, some ⟨start + c.waiting.length, c.entry.time, c.entry.close⟩⟩

/-! ### The parts -/

/-- The bar of entry is the first active one. -/
theorem exists_active_eq_cons (c : Course p fees) : ∃ later, c.active = c.entry :: later := by
  unfold active entry
  cases c.holding with
  | nil => exact ⟨c.unseen, rfl⟩
  | cons b holding => exact ⟨holding ++ c.closing :: c.unseen, rfl⟩

theorem bars_eq_seen_append (c : Course p fees) : c.bars = c.seen ++ c.unseen := by
  simp [bars, active, seen]

theorem mem_active_closing (c : Course p fees) : c.closing ∈ c.active :=
  List.mem_append_right c.holding List.mem_cons_self

theorem mem_active_of_mem_holding {c : Course p fees} {b : Bar} (hb : b ∈ c.holding) :
    b ∈ c.active :=
  List.mem_append_left _ hb

theorem mem_bars_of_mem_active {c : Course p fees} {b : Bar} (hb : b ∈ c.active) : b ∈ c.bars :=
  List.mem_append_right c.waiting hb

theorem mem_active_entry (c : Course p fees) : c.entry ∈ c.active := by
  obtain ⟨later, hlater⟩ := c.exists_active_eq_cons
  rw [hlater]
  exact List.mem_cons_self

theorem closesOn_entry (c : Course p fees) :
    Walk.ClosesOn p.terms fees c.entry.close (p.terms.trail.map .start) c.holding c.closing
      c.unseen c.reason :=
  c.closes

/-- The ledger ends with the line of the closing bar. -/
theorem getLast?_rows (c : Course p fees) :
    c.rows.getLast? = some (Walk.closeLine p.terms fees c.entry.close c.closing) := by
  rw [rows, activeRows, ← List.append_assoc, List.getLast?_append]
  rfl

/-- All other lines are flat or those of an open position. -/
theorem dropLast_rows (c : Course p fees) :
    c.rows.dropLast = c.waiting.map (fun b => Row.flat b.time b.close) ++
      c.holding.map (Walk.openLine p.terms fees c.entry.close) := by
  rw [rows, activeRows, ← List.append_assoc, List.dropLast_concat]

/-- A line is flat, that of an open position, or that of the closing bar. -/
theorem mem_rows {c : Course p fees} {r : Row} (hr : r ∈ c.rows) :
    (∃ b ∈ c.waiting, r = Row.flat b.time b.close) ∨
      (∃ b ∈ c.holding, r = Walk.openLine p.terms fees c.entry.close b) ∨
        r = Walk.closeLine p.terms fees c.entry.close c.closing := by
  rcases List.mem_append.mp hr with hr | hr
  · obtain ⟨b, hb, rfl⟩ := List.mem_map.mp hr
    exact .inl ⟨b, hb, rfl⟩
  rcases List.mem_append.mp hr with hr | hr
  · obtain ⟨b, hb, rfl⟩ := List.mem_map.mp hr
    exact .inr (.inl ⟨b, hb, rfl⟩)
  · exact .inr (.inr (List.mem_singleton.mp hr))

@[simp] theorem rows_outcome (c : Course p fees) (start : Nat) :
    (c.outcome start).rows = c.rows := rfl

@[simp] theorem reason_outcome (c : Course p fees) (start : Nat) :
    (c.outcome start).reason = c.reason := rfl

@[simp] theorem finalRow?_outcome (c : Course p fees) (start : Nat) :
    (c.outcome start).finalRow? = some (Walk.closeLine p.terms fees c.entry.close c.closing) :=
  c.getLast?_rows

@[simp] theorem closeTime?_outcome (c : Course p fees) (start : Nat) :
    (c.outcome start).closeTime? = some c.closing.time := by
  rw [Outcome.closeTime?, finalRow?_outcome]
  rfl

/-! ### The order of the parts -/

section
variable {c : Course p fees} (h : Series.Ascending c.bars)
include h

theorem ascending_active : Series.Ascending c.active :=
  (List.pairwise_append.mp h).2.1

/-- The order waits on the bars before the entry. -/
theorem time_lt_entry_of_mem_waiting {b : Bar} (hb : b ∈ c.waiting) : b.time < c.entry.time :=
  (List.pairwise_append.mp h).2.2 b hb c.entry c.mem_active_entry

theorem entry_time_le_of_mem_active {b : Bar} (hb : b ∈ c.active) : c.entry.time ≤ b.time := by
  obtain ⟨later, hlater⟩ := c.exists_active_eq_cons
  have hasc : Series.Ascending (c.entry :: later) := hlater ▸ ascending_active h
  exact hasc.time_le (hlater ▸ hb)

/-- A bar from the entry on that comes before the exit leaves the position open. -/
theorem mem_holding_of_time {b : Bar} (hb : b ∈ c.bars) (hentry : c.entry.time ≤ b.time)
    (hclosing : b.time < c.closing.time) : b ∈ c.holding := by
  have hasc : Series.Ascending (c.closing :: c.unseen) :=
    (List.pairwise_append.mp (ascending_active h)).2.1
  rcases List.mem_append.mp hb with hb | hb
  · exact absurd (time_lt_entry_of_mem_waiting h hb) (Int64.not_lt.mpr hentry)
  rcases List.mem_append.mp hb with hb | hb
  · exact hb
  · exact absurd hclosing (Int64.not_lt.mpr (hasc.time_le hb))

/-- The bars through the exit do not come after it. -/
theorem time_le_closing_of_mem_seen {b : Bar} (hb : b ∈ c.seen) : b.time ≤ c.closing.time := by
  rw [bars_eq_seen_append] at h
  have hseen : Series.Ascending ((c.waiting ++ c.holding) ++ [c.closing]) := by
    rw [List.append_assoc]
    exact (List.pairwise_append.mp h).1
  rw [seen, ← List.append_assoc] at hb
  rcases List.mem_append.mp hb with hb | hb
  · have hlt : b.time < c.closing.time :=
      (List.pairwise_append.mp hseen).2.2 b hb c.closing (List.mem_singleton_self _)
    exact Int64.le_of_lt hlt
  · obtain rfl := List.mem_singleton.mp hb
    exact Int64.le_refl _

/-- The other bars come after the exit. -/
theorem closing_time_lt_of_mem_unseen {b : Bar} (hb : b ∈ c.unseen) :
    c.closing.time < b.time := by
  rw [bars_eq_seen_append] at h
  have hclosing : c.closing ∈ c.seen := by simp [seen]
  exact (List.pairwise_append.mp h).2.2 c.closing hclosing b hb

end

/-! ### Courses and simulations -/

/-- **There is a course wherever the order fills.** -/
theorem exists_of_fillsOn (p : Position) (fees : Fees) {bars : List Bar}
    (h : ∃ b ∈ bars, p.terms.fillsOn b) : ∃ c : Course p fees, c.bars = bars := by
  obtain ⟨b, hfind⟩ := Option.isSome_iff_exists.mp (List.find?_isSome.mpr h)
  obtain ⟨hb, waiting, later, rfl, hwaits⟩ := List.find?_eq_some_iff_append.mp hfind
  obtain ⟨holding, closing, unseen, reason, hsplit, hcloses⟩ :=
    Walk.exists_closesOn p.terms fees b.close (p.terms.trail.map .start)
      (List.cons_ne_nil b later)
  -- the first bar of the walk is the bar of entry, whether it closes the position or not
  have hentry : holding.headD closing = b := by
    cases holding with
    | nil => exact (List.cons.inj hsplit).1.symm
    | cons c holding => exact (List.cons.inj hsplit).1.symm
  subst hentry
  refine ⟨⟨waiting, holding, closing, unseen, reason, fun c hc => ?_, hb, hcloses⟩, ?_⟩
  · simpa using hwaits c hc
  · rw [hsplit]
    rfl

/-- If there is no course, the order fills on no bar. -/
theorem exists_or_forall_not_fillsOn (p : Position) (fees : Fees) (bars : List Bar) :
    (∃ c : Course p fees, c.bars = bars) ∨ ∀ b ∈ bars, p.terms.fillsOn b = false := by
  by_cases hany : ∃ b ∈ bars, p.terms.fillsOn b
  · exact .inl (exists_of_fillsOn p fees hany)
  · refine .inr fun b hb => Bool.eq_false_iff.mpr fun hfills => hany ⟨b, hb, hfills⟩

/-- A walk over the bars of a course yields its outcome. -/
theorem wait_bars (c : Course p fees) (start : Nat) :
    Walk.wait p fees (c.bars.zipIdx start) = c.outcome start := by
  obtain ⟨later, hlater⟩ := c.exists_active_eq_cons
  have hhold : Walk.hold p.terms fees c.entry.close (p.terms.trail.map .start) (c.entry :: later)
      = (c.activeRows, c.reason) := by
    rw [← hlater]
    exact Walk.hold_eq_of_closesOn c.closesOn_entry
  have hfills : p.terms.fillsOn c.entry := c.fills
  rw [bars, hlater, Walk.wait_of_fillsOn fees later c.waits hfills start, hhold]
  rfl

section
variable {series : List Bar} (h : Series.Ascending series)
include h

/-- **A course of the window determines what a simulation yields.** -/
theorem simulateUntil_eq_outcome {deadline : Option Int} (c : Course p fees)
    (hc : Series.window series p.terms.created deadline = c.bars) :
    simulateUntil deadline series p fees
      = c.outcome (Series.startIndex series p.terms.created) := by
  rw [simulateUntil_eq_walkUntil h, walkUntil, Walk.bars_eq_zipIdx_window h, hc, wait_bars]

/-- If the order fills on no bar of the window, all lines are flat. -/
theorem simulateUntil_of_forall_not_fillsOn {deadline : Option Int}
    (hnone : ∀ b ∈ Series.window series p.terms.created deadline, p.terms.fillsOn b = false) :
    simulateUntil deadline series p fees
      = ⟨p, (Series.window series p.terms.created deadline).map fun b => Row.flat b.time b.close,
          .timeLimit, none⟩ := by
  rw [simulateUntil_eq_walkUntil h, walkUntil, Walk.bars_eq_zipIdx_window h,
    Walk.wait_of_forall_not_fillsOn fees hnone]

/-- **Every outcome is that of a course of the window**, or all its lines are flat. -/
theorem exists_simulateUntil_eq_outcome (p : Position) (fees : Fees) (deadline : Option Int) :
    (∃ c : Course p fees, Series.window series p.terms.created deadline = c.bars ∧
      Series.Ascending c.bars ∧ simulateUntil deadline series p fees
        = c.outcome (Series.startIndex series p.terms.created)) ∨
    simulateUntil deadline series p fees
      = ⟨p, (Series.window series p.terms.created deadline).map fun b => Row.flat b.time b.close,
          .timeLimit, none⟩ := by
  rcases exists_or_forall_not_fillsOn p fees (Series.window series p.terms.created deadline) with
    ⟨c, hc⟩ | hnone
  · have hbars : Series.Ascending c.bars :=
      h.sublist (hc ▸ Series.window_sublist series p.terms.created deadline)
    exact .inl ⟨c, hc.symm, hbars, simulateUntil_eq_outcome h c hc.symm⟩
  · exact .inr (simulateUntil_of_forall_not_fillsOn h hnone)

/-- **A filled outcome comes from a course of the window.** -/
theorem exists_of_fill {deadline : Option Int} {fill : Fill}
    (hfill : (simulateUntil deadline series p fees).fill = some fill) :
    ∃ c : Course p fees, Series.window series p.terms.created deadline = c.bars ∧
      fill = ⟨Series.startIndex series p.terms.created + c.waiting.length, c.entry.time,
        c.entry.close⟩ := by
  rcases exists_simulateUntil_eq_outcome h p fees deadline with ⟨c, hc, -, houtcome⟩ | hflat
  · rw [houtcome] at hfill
    exact ⟨c, hc, (Option.some.inj hfill).symm⟩
  · -- without a bar that fills the order the outcome has no entry
    rw [hflat] at hfill
    exact absurd hfill (by simp)

end

end Course

end TripleBarrier
