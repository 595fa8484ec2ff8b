import TripleBarrier.Proofs.Audit
import TripleBarrier.Proofs.Figures
import TripleBarrier.Proofs.FloatLimits
import TripleBarrier.Proofs.FloatOrder

/-!
# Exits on bars without a return

Take profit and trailing stop look at the net returns of the ledger, in which a return that is
not finite is shown as zero.  Such a zero is tested like any other return.  A position can
therefore be closed on a bar that has no return, by a take-profit level below zero and by a
trailing stop whose floor lies above zero, and by no others.  All other exits of these two
barriers are due to the return itself.

## Main definitions

* `PassesAsShown` — a number passes a test, or zero does in its place.
* `Outcome.ClosesAt` — the entry of an outcome and the bar of its exit.
* `Outcome.TakesProfitAsShown`, `Outcome.TrailsAsShown` — the return of the closing bar reaches the
  level or the floor, or zero does in its place.

## Main results

* `TrailingStop.lt_floor_of_triggered` — what triggers a stop lies below the floor in force.
* `Course.passesAsShown_of_takeProfit`, `Course.passesAsShown_of_trailingStop` — what the closing
  bar of a course shows.
* `asShown_of_reason` — **the return of the closing bar reaches the barrier itself, or is not
  finite and zero reaches it.**
-/

namespace TripleBarrier

/-! ### Returns as they are shown -/

/-- A finite number passes a test, or zero does in place of one that is not finite. -/
def PassesAsShown (test : Float → Prop) (x : Float) : Prop :=
  x.isFinite ∧ test x ∨ x.isFinite = false ∧ test 0.0

/-- This is what it means to test what a ledger shows. -/
theorem passesAsShown_iff {test : Float → Prop} {x : Float} :
    PassesAsShown test x ↔ test (finiteOrZero x) := by
  unfold PassesAsShown finiteOrZero
  cases hx : x.isFinite <;> simp

/-- Without a finite number it is zero that passes. -/
theorem PassesAsShown.of_not_isFinite {test : Float → Prop} {x : Float} (h : PassesAsShown test x)
    (hx : x.isFinite = false) : test 0.0 := by
  rcases h with ⟨hfinite, -⟩ | ⟨-, hzero⟩
  · exact absurd hfinite (by simp [hx])
  · exact hzero

/-! ### What triggers a trailing stop -/

/-- What triggers a stop lies below the floor in force. -/
theorem TrailingStop.lt_floor_of_triggered {s : TrailingStop} {x floor : Float}
    (hs : s.phase.isTriggered = false) (h : (s.observe x).phase = .triggered floor) :
    x < floor := by
  unfold observe at h
  cases hp : s.phase with
  | disarmed =>
    -- arming does not trigger
    rw [hp] at h
    dsimp only at h
    split at h
    · exact absurd h (by simp)
    · exact absurd (hp.symm.trans h) (by simp)
  | armed low =>
    rw [hp] at h
    dsimp only at h
    split at h
    · next hlt =>
      obtain rfl := Phase.triggered.inj h
      exact hlt
    · exact absurd h (by simp)
  | triggered low => exact absurd hs (by simp [hp, Phase.isTriggered])

theorem TrailingStop.Phase.exists_floor_of_isTriggered {phase : TrailingStop.Phase}
    (h : phase.isTriggered) : ∃ floor, phase = .triggered floor := by
  cases phase with
  | disarmed => exact absurd h (by simp [isTriggered])
  | armed floor => exact absurd h (by simp [isTriggered])
  | triggered floor => exact ⟨floor, rfl⟩

/-! ### The closing bar of a course -/

/-- The outcome of a filled position closes on the bar `b`, which belongs to the series. -/
structure Outcome.ClosesAt (o : Outcome) (series : List Bar) (fill : Fill) (b : Bar) : Prop where
  fill : o.fill = some fill
  mem_series : b ∈ series
  closeTime : o.closeTime? = some b.time

/-- The return of the closing bar exceeds the take-profit level, or it is not finite and zero
exceeds it.  Without a finite close only a level below zero is exceeded. -/
def Outcome.TakesProfitAsShown (o : Outcome) (series : List Bar) (fees : Fees) : Prop :=
  ∃ fill b level, o.ClosesAt series fill b ∧ o.position.terms.takeProfit = some level ∧
    PassesAsShown (level < ·) (fees.netReturn o.position.terms.side fill.price b.close) ∧
    (b.close.isFinite = false → level < 0.0)

/-- The return of the closing bar lies below the floor in force on that bar, which the lines from
the entry on lead to, or it is not finite and zero lies below the floor.  Without a finite close
only a floor above zero is passed. -/
def Outcome.TrailsAsShown (o : Outcome) (series : List Bar) (fees : Fees) : Prop :=
  ∃ fill b trail floor, o.ClosesAt series fill b ∧ o.position.terms.trail = some trail ∧
    (trail.replay (o.rowsFrom fill.time)).phase = .triggered floor ∧
    PassesAsShown (· < floor) (fees.netReturn o.position.terms.side fill.price b.close) ∧
    (b.close.isFinite = false → 0.0 < floor)

namespace Course

variable {p : Position} {fees : Fees} (c : Course p fees)

/-- The net return of the closing bar, as the arithmetic gives it. -/
def closingReturn : Float :=
  fees.netReturn p.terms.side c.entry.close c.closing.close

/-- A barrier that closes a position before the bars run out is reached on the closing bar. -/
theorem reaches_reason (h : c.reason ≠ .timeLimit) :
    p.terms.reaches c.entry.close (finiteOrZero c.closingReturn)
      (Walk.stopAfter p.terms fees c.entry.close (p.terms.trail.map .start)
        (c.holding ++ [c.closing])) c.closing c.reason := by
  have hreason := Walk.eq_of_exit? c.closesOn_entry.exit
  cases hb : p.terms.barrier? c.entry.close (Walk.netReturn p.terms fees c.entry.close c.closing)
      (Walk.stopAfter p.terms fees c.entry.close (p.terms.trail.map .start)
        (c.holding ++ [c.closing])) c.closing with
  | none => exact absurd (by rw [hreason, hb]; rfl) h
  | some reason =>
    obtain rfl : c.reason = reason := by rw [hreason, hb]; rfl
    exact (Terms.reaches_of_barrier? hb).1

/-- A take profit is due to the return of the closing bar, as it is shown. -/
theorem passesAsShown_of_takeProfit (h : c.reason = .takeProfit) :
    ∃ level, p.terms.takeProfit = some level ∧ PassesAsShown (level < ·) c.closingReturn := by
  have hreaches := c.reaches_reason (by rw [h]; decide)
  rw [h] at hreaches
  obtain ⟨level, hlevel, hlt⟩ := (Option.any_eq_true _ _).mp hreaches
  exact ⟨level, hlevel, passesAsShown_iff.mpr (of_decide_eq_true hlt)⟩

/-- Replaying the lines of a course leads a trailing stop where its bars did. -/
theorem replay_activeRows (trail : Trail) :
    trail.replay c.activeRows
      = (trail.replay (c.holding.map (Walk.openLine p.terms fees c.entry.close))).observe
          (finiteOrZero c.closingReturn) := by
  unfold Trail.replay
  rw [activeRows, List.map_append, List.foldl_append]
  rfl

/-- A trailing stop is due to the return of the closing bar, as it is shown. -/
theorem passesAsShown_of_trailingStop (h : c.reason = .trailingStop) :
    ∃ trail floor, p.terms.trail = some trail ∧
      (trail.replay c.activeRows).phase = .triggered floor ∧
      PassesAsShown (· < floor) c.closingReturn := by
  have hreaches := c.reaches_reason (by rw [h]; decide)
  -- the lines show the stop what the bars did
  rw [h, Terms.reaches, ← Terms.isTrailedBy_map_openLine, ← Terms.isTrailedBy_concat_closeLine,
    ← activeRows] at hreaches
  obtain ⟨trail, htrail, htriggered⟩ := (Option.any_eq_true _ _).mp hreaches
  obtain ⟨floor, hfloor⟩ := TrailingStop.Phase.exists_floor_of_isTriggered htriggered
  -- the lines before the last one did not trigger it
  have hrunning : (trail.replay
      (c.holding.map (Walk.openLine p.terms fees c.entry.close))).phase.isTriggered = false := by
    have hearlier := c.isTrailedBy_of_prefix (List.prefix_refl _)
    rw [Terms.isTrailedBy, htrail] at hearlier
    exact hearlier
  refine ⟨trail, floor, htrail, hfloor, passesAsShown_iff.mpr ?_⟩
  rw [replay_activeRows] at hfloor
  exact TrailingStop.lt_floor_of_triggered hrunning hfloor

/-- The outcome of a course closes on its closing bar. -/
theorem closesAt {series : List Bar} {deadline : Option Int}
    (hc : Series.window series p.terms.created deadline = c.bars) (start : Nat) :
    (c.outcome start).ClosesAt series ⟨start + c.waiting.length, c.entry.time, c.entry.close⟩
      c.closing where
  fill := rfl
  mem_series := (hc ▸ Series.window_sublist series p.terms.created deadline).mem
    (mem_bars_of_mem_active c.mem_active_closing)
  closeTime := c.closeTime?_outcome start

/-- The return of a closing bar without a finite close is not finite. -/
theorem isFinite_closingReturn (h : c.closing.close.isFinite = false) :
    c.closingReturn.isFinite = false :=
  fees.isFinite_netReturn p.terms.side c.entry.close h

end Course

/-! ### Every simulation -/

/-- **The return of the closing bar reaches the barrier itself, or is not finite and zero reaches
it.**  This holds of a take profit with its level, and of a trailing stop with its floor. -/
theorem asShown_of_reason {series : List Bar} (h : Series.Ascending series) (p : Position)
    (fees : Fees) :
    ((simulate series p fees).reason = .takeProfit →
      (simulate series p fees).TakesProfitAsShown series fees) ∧
    ((simulate series p fees).reason = .trailingStop →
      (simulate series p fees).TrailsAsShown series fees) := by
  rcases Course.exists_or_forall_not_fillsOn p fees
    (Series.window series p.terms.created p.deadline?) with ⟨c, hc⟩ | hnone
  · have hasc : Series.Ascending c.bars :=
      h.sublist (hc ▸ Series.window_sublist series p.terms.created p.deadline?)
    rw [simulate, Course.simulateUntil_eq_outcome h c hc.symm]
    constructor
    · intro hreason
      obtain ⟨level, hlevel, hpasses⟩ := c.passesAsShown_of_takeProfit hreason
      exact ⟨_, _, level, c.closesAt hc.symm _, hlevel, hpasses,
        fun hclose => hpasses.of_not_isFinite (c.isFinite_closingReturn hclose)⟩
    · intro hreason
      obtain ⟨trail, floor, htrail, hfloor, hpasses⟩ := c.passesAsShown_of_trailingStop hreason
      refine ⟨_, _, trail, floor, c.closesAt hc.symm _, htrail, ?_, hpasses,
        fun hclose => hpasses.of_not_isFinite (c.isFinite_closingReturn hclose)⟩
      rw [Course.rowsFrom_outcome hasc]
      exact hfloor
  · -- a position that never opens is closed by the time limit
    rw [simulate, Course.simulateUntil_of_forall_not_fillsOn h hnone]
    exact ⟨fun hreason => absurd hreason (by simp), fun hreason => absurd hreason (by simp)⟩

/-! ### Exits on a blank bar -/

/-- Prices that rise, a blank, and prices as high as before. -/
def gappedRise : List Bar :=
  [.flat 0 100.0, .flat 60 103.0, .blank 120, .flat 180 104.0]

/-- A position that is trailed by half a percent once it has gained one percent. -/
def trailedPosition : Position where
  terms :=
    { created := 0, side := .long, price := 100.0, amount := 1.0, trail := some ⟨0.01, 0.005⟩ }
  sound := by decide +kernel

/-- A position that takes a loss of less than its fees for a profit. -/
def eagerPosition : Position where
  terms :=
    { created := 0, side := .long, price := 100.0, amount := 1.0, takeProfit := some (-0.0005) }
  sound := by decide +kernel

/-- Both barriers close a position on a blank bar, with a level below and a floor above zero. -/
theorem asShown_of_blank :
    (Series.Ascending gapped ∧ (simulate gapped eagerPosition ⟨0.0004⟩).reason = .takeProfit ∧
      (simulate gapped eagerPosition ⟨0.0004⟩).TakesProfitAsShown gapped ⟨0.0004⟩) ∧
    (Series.Ascending gappedRise ∧
      (simulate gappedRise trailedPosition ⟨0.0004⟩).reason = .trailingStop ∧
      (simulate gappedRise trailedPosition ⟨0.0004⟩).TrailsAsShown gappedRise ⟨0.0004⟩) := by
  have hgapped : Series.Ascending gapped := by decide
  have hrise : Series.Ascending gappedRise := by decide
  have htakes : (simulate gapped eagerPosition ⟨0.0004⟩).reason = .takeProfit := by decide +kernel
  have htrails : (simulate gappedRise trailedPosition ⟨0.0004⟩).reason = .trailingStop := by
    decide +kernel
  exact ⟨⟨hgapped, htakes, (asShown_of_reason hgapped eagerPosition ⟨0.0004⟩).1 htakes⟩,
    hrise, htrails, (asShown_of_reason hrise trailedPosition ⟨0.0004⟩).2 htrails⟩

/-- The net return of leaving a long position on a blank bar. -/
def blankReturn : Float :=
  Fees.netReturn ⟨0.0004⟩ .long 100.0 (Bar.blank 120).close

/-- **A bar without a return can close a position by either barrier**, at a sound cost rate.  The
return of the blank bar exceeds no level and lies below no floor; still a take profit and a trailing
stop are closed on it. -/
theorem closesAt_blank :
    ({ costRate := 0.0004 } : Settings).fault? = none ∧
    (Series.Ascending gapped ∧ (simulate gapped eagerPosition ⟨0.0004⟩).reason = .takeProfit ∧
      (simulate gapped eagerPosition ⟨0.0004⟩).ClosesAt gapped ⟨0, 0, 100.0⟩ (.blank 60)) ∧
    (Series.Ascending gappedRise ∧
      (simulate gappedRise trailedPosition ⟨0.0004⟩).reason = .trailingStop ∧
      (simulate gappedRise trailedPosition ⟨0.0004⟩).ClosesAt gappedRise ⟨0, 0, 100.0⟩
        (.blank 120)) ∧
    (∀ level, ¬ level < blankReturn) ∧ ∀ floor, ¬ blankReturn < floor := by
  have hnan : place blankReturn = ⊥ := place_eq_bot_iff.mpr (by decide +kernel)
  refine ⟨by decide +kernel, ⟨by decide, by decide +kernel, rfl, ?_, by decide +kernel⟩,
    ⟨by decide, by decide +kernel, rfl, ?_, by decide +kernel⟩, ?_, ?_⟩
  · simp [gapped]
  · simp [gappedRise]
  · intro level hlt
    have hbelow := (lt_iff_place.mp hlt).2
    rw [hnan] at hbelow
    exact not_lt_bot hbelow
  · intro floor hlt
    exact (lt_iff_place.mp hlt).1 hnan

end TripleBarrier
