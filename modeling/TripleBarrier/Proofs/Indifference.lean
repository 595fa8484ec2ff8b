import Mathlib.Data.List.Forall2
import TripleBarrier.Proofs.Stages
import TripleBarrier.Proofs.Course

/-!
# What decisions do not read

The entry, the exit and the returns of a position are decided without looking at how much is traded,
and without most of the prices there are.  The amount enters every line of the ledger, and the
barriers are looked for in these lines; but it enters only what a line says about money, and the
barriers look at returns.  So an amount may be so large that the money moved is no number any more,
and is shown as zero, without any decision being another one.

Two runs that agree in all that is read have the same course, on bars that may differ in the prices
that are not.  The bars of one run are turned into those of the other one by a function, under which
the parts of a course stay parts.

## Main definitions

* `Side.SeesAlike` — two bars agree in what is read of them.
* `Terms.DecidesLike` — two descriptions of a position agree in what is read of them.
* `Row.withoutMoney` — what a line says beside amounts of money.
* `Outcome.DecidedLike` — two outcomes agree in their decisions.

## Main results

* `Course.turned` — a course of one run is a course of the other.
* `simulate_turn` — runs that agree in what is read are decided alike.
* `simulate_indifferent` — **the amount, the price of a market order and the prices that no stop
  loss looks at decide nothing, and the costs do not decide on entry and stop loss.**
-/

namespace TripleBarrier

/-! ### What is read -/

/-- Two bars look alike to one side of the market: they agree in their times, their closes, and the
price with which the stop loss of that side is reached. -/
structure Side.SeesAlike (side : Side) (b b' : Bar) : Prop where
  time : b'.time = b.time
  close : b'.close = b.close
  low : side = .long → b'.low = b.low
  high : side = .short → b'.high = b.high

/-- Terms agree in all that decisions read: they may differ in the amount and, for an order at the
market, in the price. -/
structure Terms.DecidesLike (t' t : Terms) : Prop where
  created : t'.created = t.created
  side : t'.side = t.side
  isLimit : t'.isLimit = t.isLimit
  price : t.isLimit → t'.price = t.price
  takeProfit : t'.takeProfit = t.takeProfit
  stopLoss : t'.stopLoss = t.stopLoss
  trail : t'.trail = t.trail
  timeLimit : t'.timeLimit = t.timeLimit

theorem Side.seesAlike_refl (side : Side) (b : Bar) : side.SeesAlike b b :=
  ⟨rfl, rfl, fun _ => rfl, fun _ => rfl⟩

theorem Terms.decidesLike_refl (t : Terms) : t.DecidesLike t :=
  ⟨rfl, rfl, rfl, fun _ => rfl, rfl, rfl, rfl, rfl⟩

/-- A bar as one side of the market looks at it: the prices that are not read are put
in as the close. -/
def Side.look (side : Side) (b : Bar) : Bar where
  time := b.time
  opening := b.close
  high := if side = .short then b.high else b.close
  low := if side = .long then b.low else b.close
  close := b.close

theorem Side.seesAlike_look (side : Side) (b : Bar) : side.SeesAlike b (side.look b) where
  time := rfl
  close := rfl
  low hside := if_pos hside
  high hside := if_pos hside

/-- Bars that look alike are looked at as one. -/
theorem Side.SeesAlike.look_eq {side : Side} {b b' : Bar} (h : side.SeesAlike b b') :
    side.look b' = side.look b := by
  unfold look
  rw [h.time, h.close]
  cases side with
  | long => rw [h.low rfl]; rfl
  | short => rw [h.high rfl]; rfl

/-- Flat lines show nothing but what bars that look alike agree in. -/
theorem Side.map_flat_turn {side : Side} {turn : Bar → Bar} (hturn : ∀ b, side.SeesAlike b (turn b))
    (bars : List Bar) :
    (bars.map turn).map (fun b => Row.flat b.time b.close)
      = bars.map fun b => Row.flat b.time b.close := by
  rw [List.map_map]
  refine List.map_congr_left fun b _ => ?_
  show Row.flat (turn b).time (turn b).close = _
  rw [(hturn b).time, (hturn b).close]

/-! ### One bar -/

section
variable {t t' : Terms} (h : t'.DecidesLike t) {turn : Bar → Bar}
  (hturn : ∀ b, t.side.SeesAlike b (turn b))
include h hturn

theorem Terms.fillsOn_turn (b : Bar) : t'.fillsOn (turn b) = t.fillsOn b := by
  unfold fillsOn
  rw [h.isLimit, h.side, (hturn b).close]
  cases hlimit : t.isLimit with
  | false => rw [Bool.not_false, Bool.true_or, Bool.true_or]
  | true => rw [h.price hlimit]

theorem Terms.isStoppedBy_turn (fill : Float) (b : Bar) :
    t'.isStoppedBy fill (turn b) = t.isStoppedBy fill b := by
  have hreaches : ∀ stop, t.side.reachesStop stop (turn b) = t.side.reachesStop stop b := by
    intro stop
    unfold Side.reachesStop
    cases hside : t.side with
    | long => rw [(hturn b).low hside]
    | short => rw [(hturn b).high hside]
  unfold isStoppedBy
  rw [h.stopLoss, h.side]
  simp only [hreaches]

theorem Terms.barrier?_turn (fill netReturn : Float) (stop : Option TrailingStop) (b : Bar) :
    t'.barrier? fill netReturn stop (turn b) = t.barrier? fill netReturn stop b := by
  unfold barrier? takesProfit
  rw [h.takeProfit, isStoppedBy_turn h hturn]

namespace Walk

/-- A line depends on nothing that is not read, apart from the money moved. -/
theorem line_turn (fees : Fees) (fill volume : Float) (b : Bar) :
    line t' fees fill volume (turn b) = line t fees fill volume b := by
  unfold line
  rw [h.side, (hturn b).time, (hturn b).close]

theorem netReturn_turn (fees : Fees) (fill : Float) (b : Bar) :
    netReturn t' fees fill (turn b) = netReturn t fees fill b := by
  unfold netReturn
  rw [h.side, (hturn b).close]

theorem stopAfter_turn (fees : Fees) (fill : Float) (stop : Option TrailingStop) (bars : List Bar) :
    stopAfter t' fees fill stop (bars.map turn) = stopAfter t fees fill stop bars := by
  have hreturns : (bars.map turn).map (netReturn t' fees fill) =
      bars.map (netReturn t fees fill) := by
    rw [List.map_map]
    exact List.map_congr_left fun b _ => netReturn_turn h hturn fees fill b
  unfold stopAfter
  rw [hreturns]

theorem exit?_turn (fees : Fees) (fill : Float) (stop : Option TrailingStop) (b : Bar)
    (isLast : Bool) :
    exit? t' fees fill stop (turn b) isLast = exit? t fees fill stop b isLast := by
  unfold exit?
  rw [Terms.barrier?_turn h hturn, netReturn_turn h hturn]

/-! ### Runs -/

/-- Bars that leave one position open leave the other one open. -/
theorem IsQuiet.turned {fees : Fees} {fill : Float} {stop : Option TrailingStop} {bars : List Bar}
    (hquiet : IsQuiet t fees fill stop bars) : IsQuiet t' fees fill stop (bars.map turn) := by
  induction bars generalizing stop with
  | nil => exact isQuiet_nil stop
  | cons b bars ih =>
    obtain ⟨hb, hbars⟩ := isQuiet_cons.mp hquiet
    have hstop : stopAfter t' fees fill stop [turn b] = stopAfter t fees fill stop [b] :=
      stopAfter_turn h hturn fees fill stop [b]
    refine isQuiet_cons.mpr ⟨?_, ?_⟩
    · rw [hstop, Terms.barrier?_turn h hturn, netReturn_turn h hturn]
      exact hb
    · rw [hstop]
      exact ih hbars

/-- The bar that closes one position closes the other one, and for the same reason. -/
theorem ClosesOn.turned {fees : Fees} {fill : Float} {stop : Option TrailingStop}
    {earlier : List Bar} {b : Bar} {later : List Bar} {reason : ExitReason}
    (hcloses : ClosesOn t fees fill stop earlier b later reason) :
    ClosesOn t' fees fill stop (earlier.map turn) (turn b) (later.map turn) reason where
  quiet := hcloses.quiet.turned h hturn
  exit := by
    have hstop : stopAfter t' fees fill stop (earlier.map turn ++ [turn b])
        = stopAfter t fees fill stop (earlier ++ [b]) := by
      rw [← List.map_singleton, ← List.map_append]
      exact stopAfter_turn h hturn fees fill stop (earlier ++ [b])
    rw [hstop, List.isEmpty_map, exit?_turn h hturn]
    exact hcloses.exit

end Walk

end

/-! ### Courses -/

/-- What a line says beside amounts of money: the bar, the return and the price of entry. -/
def Row.withoutMoney (r : Row) : Row :=
  { r with profit := 0.0, fees := 0.0, volume := 0.0 }

theorem Row.withoutMoney_line (t : Terms) (fees : Fees) (fill volume : Float) (b : Bar) :
    (Walk.line t fees fill volume b).withoutMoney =
      ⟨b.time, b.close, finiteOrZero (fees.netReturn t.side fill b.close), 0.0, 0.0, 0.0,
        finiteOrZero fill⟩ := rfl

/-- Two outcomes agree in their decisions: the entry, the reason for the exit, and line by line all
that is no amount of money. -/
structure Outcome.DecidedLike (o' o : Outcome) : Prop where
  fill : o'.fill = o.fill
  reason : o'.reason = o.reason
  rows : o'.rows.map Row.withoutMoney = o.rows.map Row.withoutMoney
  length_rows : o'.rows.length = o.rows.length

namespace Course

variable {p p' : Position} {fees : Fees}

/-- The lines of a course, for a position that trades another amount. -/
def rowsFor (c : Course p fees) (amount : Float) : List Row :=
  c.waiting.map (fun b => Row.flat b.time b.close) ++
    (c.holding.map (Walk.line p.terms fees c.entry.close (amount * c.entry.close)) ++
      [Walk.line p.terms fees c.entry.close (amount * c.entry.close * 2.0) c.closing])

theorem rowsFor_amount (c : Course p fees) : c.rowsFor p.terms.amount = c.rows := rfl

/-- The amount shows in amounts of money only. -/
theorem map_withoutMoney_rowsFor (c : Course p fees) (amount : Float) :
    (c.rowsFor amount).map Row.withoutMoney = c.rows.map Row.withoutMoney := by
  rw [← rowsFor_amount]
  unfold rowsFor
  simp only [List.map_append, List.map_map, List.map_singleton, Function.comp_def,
    Row.withoutMoney_line]

section
variable (h : p'.terms.DecidesLike p.terms) {turn : Bar → Bar}
  (hturn : ∀ b, p.terms.side.SeesAlike b (turn b))

theorem headD_map_turn (bars : List Bar) (b : Bar) :
    (bars.map turn).headD (turn b) = turn (bars.headD b) := by
  cases bars with
  | nil => rfl
  | cons c bars => rfl

/-- **A course of one run is a course of the other**, on the bars of the other. -/
def turned (c : Course p fees) : Course p' fees where
  waiting := c.waiting.map turn
  holding := c.holding.map turn
  closing := turn c.closing
  unseen := c.unseen.map turn
  reason := c.reason
  waits := by
    intro b hb
    obtain ⟨bar, hbar, rfl⟩ := List.mem_map.mp hb
    rw [Terms.fillsOn_turn h hturn]
    exact c.waits bar hbar
  fills := by
    rw [headD_map_turn, Terms.fillsOn_turn h hturn]
    exact c.fills
  closes := by
    rw [headD_map_turn, (hturn _).close, h.trail]
    exact c.closes.turned h hturn

theorem bars_turn (c : Course p fees) : (c.turned h hturn).bars = c.bars.map turn := by
  simp [bars, active, Course.turned]

theorem entry_turn (c : Course p fees) : (c.turned h hturn).entry = turn c.entry :=
  headD_map_turn c.holding c.closing

/-- The lines of the other run are those of the amount that it trades. -/
theorem rows_turn (c : Course p fees) : (c.turned h hturn).rows = c.rowsFor p'.terms.amount := by
  have hholding : ∀ volume, (c.holding.map turn).map (Walk.line p'.terms fees c.entry.close volume)
      = c.holding.map (Walk.line p.terms fees c.entry.close volume) := by
    intro volume
    rw [List.map_map]
    exact List.map_congr_left fun b _ => Walk.line_turn h hturn fees _ volume b
  rw [← rowsFor_amount, rowsFor, entry_turn, (hturn _).close]
  show (c.waiting.map turn).map _ ++
    ((c.holding.map turn).map _ ++ [Walk.line p'.terms fees _ _ (turn c.closing)]) = _
  rw [Side.map_flat_turn hturn, hholding, Walk.line_turn h hturn, rowsFor]

/-- The outcomes of both courses agree in their decisions. -/
theorem decidedLike_turn (c : Course p fees) (start : Nat) :
    ((c.turned h hturn).outcome start).DecidedLike (c.outcome start) := by
  have hrows : (c.turned h hturn).rows.map Row.withoutMoney = c.rows.map Row.withoutMoney := by
    rw [rows_turn, map_withoutMoney_rowsFor]
  refine ⟨?_, rfl, hrows, ?_⟩
  · unfold outcome
    rw [entry_turn, (hturn _).time, (hturn _).close]
    simp [Course.turned]
  · simpa using congrArg List.length hrows

end

end Course

/-! ### Simulations -/

/-- Outcomes of one position that agree in their decisions and their lines are the same. -/
theorem Outcome.DecidedLike.eq {o o' : Outcome} (h : o'.DecidedLike o)
    (hposition : o'.position = o.position) (hrows : o'.rows = o.rows) : o' = o := by
  obtain ⟨position, rows, reason, fill⟩ := o
  obtain ⟨position', rows', reason', fill'⟩ := o'
  obtain rfl : position' = position := hposition
  obtain rfl : rows' = rows := hrows
  obtain rfl : reason' = reason := h.reason
  obtain rfl : fill' = fill := h.fill
  rfl

namespace Series

variable {turn : Bar → Bar} (hturn : ∀ b, (turn b).time = b.time)
include hturn

theorem startIndex_map (series : List Bar) (created : Int64) :
    startIndex (series.map turn) created = startIndex series created := by
  unfold startIndex
  rw [List.takeWhile_map, List.length_map]
  simp only [Function.comp_def, hturn]

/-- The window of a series depends on the times of its bars. -/
theorem window_map (series : List Bar) (created : Int64) (deadline : Option Int) :
    window (series.map turn) created deadline = (window series created deadline).map turn := by
  have hwithin : Bar.isWithin deadline ∘ turn = Bar.isWithin deadline := by
    funext b
    simp only [Function.comp_def, Bar.isWithin, hturn]
  unfold window startingAt
  rw [startIndex_map hturn, ← List.map_drop, List.takeWhile_map, hwithin]

theorem ascending_map {series : List Bar} :
    Ascending (series.map turn) ↔ Ascending series := by
  unfold Ascending
  rw [List.pairwise_map]
  simp only [hturn]

end Series

/-- Terms that decide alike have the same deadline. -/
theorem Terms.DecidesLike.deadline?_eq {p p' : Position} (h : p'.terms.DecidesLike p.terms) :
    p'.deadline? = p.deadline? := by
  unfold Position.deadline? Position.exactDeadline?
  rw [h.timeLimit, h.created]

section
variable {series : List Bar} (hasc : Series.Ascending series) (fees : Fees)
include hasc

/-- **Runs that agree in what is read are decided alike**, and if they trade the same amount they
have the same ledger. -/
theorem simulate_turn {p p' : Position} (h : p'.terms.DecidesLike p.terms) {turn : Bar → Bar}
    (hturn : ∀ b, p.terms.side.SeesAlike b (turn b)) :
    (simulate (series.map turn) p' fees).DecidedLike (simulate series p fees) ∧
      (p'.terms.amount = p.terms.amount →
        (simulate (series.map turn) p' fees).rows = (simulate series p fees).rows) := by
  have htime : ∀ b, (turn b).time = b.time := fun b => (hturn b).time
  have hasc' : Series.Ascending (series.map turn) := (Series.ascending_map htime).mpr hasc
  have hwindow : Series.window (series.map turn) p'.terms.created p'.deadline?
      = (Series.window series p.terms.created p.deadline?).map turn := by
    rw [h.created, h.deadline?_eq, Series.window_map htime]
  unfold simulate
  rcases Course.exists_or_forall_not_fillsOn p fees
    (Series.window series p.terms.created p.deadline?) with ⟨c, hc⟩ | hnone
  · have hc' : Series.window (series.map turn) p'.terms.created p'.deadline?
        = (c.turned h hturn).bars := by
      rw [hwindow, ← hc, Course.bars_turn]
    rw [Course.simulateUntil_eq_outcome hasc c hc.symm,
      Course.simulateUntil_eq_outcome hasc' (c.turned h hturn) hc', h.created,
      Series.startIndex_map htime]
    refine ⟨Course.decidedLike_turn h hturn c _, fun hamount => ?_⟩
    rw [Course.rows_outcome, Course.rows_outcome, Course.rows_turn, hamount, Course.rowsFor_amount]
  · -- the order fills on no bar of either series
    have hnone' : ∀ b ∈ Series.window (series.map turn) p'.terms.created p'.deadline?,
        p'.terms.fillsOn b = false := by
      intro b hb
      rw [hwindow] at hb
      obtain ⟨bar, hbar, rfl⟩ := List.mem_map.mp hb
      rw [Terms.fillsOn_turn h hturn]
      exact hnone bar hbar
    rw [Course.simulateUntil_of_forall_not_fillsOn hasc hnone,
      Course.simulateUntil_of_forall_not_fillsOn hasc' hnone', hwindow, Side.map_flat_turn hturn]
    exact ⟨⟨rfl, rfl, rfl, rfl⟩, fun _ => rfl⟩

/-- A position that trades the same amount and reads the same has the same outcome. -/
theorem simulate_map_eq {p : Position} {turn : Bar → Bar}
    (hturn : ∀ b, p.terms.side.SeesAlike b (turn b)) :
    simulate (series.map turn) p fees = simulate series p fees := by
  obtain ⟨hdecided, hrows⟩ := simulate_turn hasc fees (Terms.decidesLike_refl p.terms) hturn
  have hposition : (simulate (series.map turn) p fees).position =
      (simulate series p fees).position := by
    rw [simulate_position, simulate_position]
  exact hdecided.eq hposition (hrows rfl)

/-- **Bars that look alike to a position give it the same outcome.** -/
theorem simulate_eq_of_seesAlike {p : Position} {series' : List Bar}
    (h : List.Forall₂ p.terms.side.SeesAlike series series') :
    simulate series' p fees = simulate series p fees := by
  have hturn := p.terms.side.seesAlike_look
  have hbars : series'.map p.terms.side.look = series.map p.terms.side.look := by
    induction h with
    | nil => rfl
    | cons hb _ ih => rw [List.map_cons, List.map_cons, hb.look_eq, ih hasc.tail]
  have hasc' : Series.Ascending series' := by
    rw [← Series.ascending_map fun b => (hturn b).time, hbars]
    exact (Series.ascending_map fun b => (hturn b).time).mpr hasc
  -- both series are looked at as the same one
  calc simulate series' p fees
      = simulate (series'.map p.terms.side.look) p fees := (simulate_map_eq hasc' fees hturn).symm
    _ = simulate (series.map p.terms.side.look) p fees := by rw [hbars]
    _ = simulate series p fees := simulate_map_eq hasc fees hturn

/-- The amount decides nothing. -/
theorem decidedLike_of_amount {p p' : Position}
    (h : p'.terms = { p.terms with amount := p'.terms.amount }) :
    (simulate series p' fees).DecidedLike (simulate series p fees) := by
  have hterms : p'.terms.DecidesLike p.terms := by
    rw [h]
    exact ⟨rfl, rfl, rfl, fun _ => rfl, rfl, rfl, rfl, rfl⟩
  have hdecided := (simulate_turn hasc fees hterms (p.terms.side.seesAlike_refl ·)).1
  rwa [List.map_id'] at hdecided

/-- The price of an order at the market decides nothing and shows nowhere. -/
theorem simulate_eq_of_price {p p' : Position} (hmarket : p.terms.isLimit = false)
    (h : p'.terms = { p.terms with price := p'.terms.price }) :
    (simulate series p' fees).rows = (simulate series p fees).rows ∧
      (simulate series p' fees).reason = (simulate series p fees).reason ∧
      (simulate series p' fees).fill = (simulate series p fees).fill := by
  have hterms : p'.terms.DecidesLike p.terms := by
    rw [h]
    exact ⟨rfl, rfl, rfl, fun hlimit => absurd hlimit (by simp [hmarket]), rfl, rfl, rfl, rfl⟩
  have hamount : p'.terms.amount = p.terms.amount := by rw [h]
  obtain ⟨hdecided, hrows⟩ := simulate_turn hasc fees hterms (p.terms.side.seesAlike_refl ·)
  rw [List.map_id'] at hdecided hrows
  exact ⟨hrows hamount, hdecided.reason, hdecided.fill⟩

end

/-- The costs do not decide when the stop loss is reached. -/
theorem stopLoss_hitsOf (series : List Bar) (p : Position) (fees fees' : Fees) (fill : Fill) :
    (hitsOf series p fees' fill).stopLoss = (hitsOf series p fees fill).stopLoss := rfl

/-- **Decisions ignore what they must not read.**  The amount shows in amounts of money
only; the price of an order at the market shows nowhere, nor do the prices of a bar that no
stop loss of the position looks at; and the costs decide neither on the entry nor on when
the stop loss is reached. -/
theorem simulate_indifferent {series : List Bar} (h : Series.Ascending series) (p : Position)
    (fees : Fees) :
    (∀ p' : Position, p'.terms = { p.terms with amount := p'.terms.amount } →
      (simulate series p' fees).DecidedLike (simulate series p fees)) ∧
    (∀ p' : Position, p.terms.isLimit = false →
      p'.terms = { p.terms with price := p'.terms.price } →
      (simulate series p' fees).rows = (simulate series p fees).rows ∧
        (simulate series p' fees).reason = (simulate series p fees).reason ∧
        (simulate series p' fees).fill = (simulate series p fees).fill) ∧
    (∀ series' : List Bar, List.Forall₂ p.terms.side.SeesAlike series series' →
      simulate series' p fees = simulate series p fees) ∧
    ∀ fees' : Fees, (simulate series p fees').fill = (simulate series p fees).fill ∧
      ∀ fill ∈ (simulate series p fees).fill,
        (hitsOf series p fees' fill).stopLoss = (hitsOf series p fees fill).stopLoss := by
  refine ⟨?_, ?_, ?_, ?_⟩
  · intro p' hterms
    exact decidedLike_of_amount h fees hterms
  · intro p' hmarket hterms
    exact simulate_eq_of_price h fees hmarket hterms
  · intro series' hseries
    exact simulate_eq_of_seesAlike h fees hseries
  · intro fees'
    refine ⟨?_, fun fill _ => stopLoss_hitsOf series p fees fees' fill⟩
    rw [simulate_fill, simulate_fill]

/-! ### A position on swinging prices -/

/-- Prices that rise and, on the third bar, fall below the stop for a moment. -/
def swings : List Bar :=
  [⟨0, 99.0, 101.0, 98.0, 100.0⟩, ⟨60, 100.5, 104.0, 99.0, 103.0⟩, ⟨120, 103.0, 103.5, 94.0, 101.0⟩,
    ⟨180, 101.0, 102.0, 100.0, 101.5⟩]

/-- The same prices with other openings and other highs. -/
def swingsElsewhere : List Bar :=
  [⟨0, 1.0, 500.0, 98.0, 100.0⟩, ⟨60, 2.0, 600.0, 99.0, 103.0⟩, ⟨120, 3.0, 0.0 / 0.0, 94.0, 101.0⟩,
    ⟨180, 4.0, 800.0, 100.0, 101.5⟩]

/-- A position entered at the market, with a stop at `95.0`. -/
def swingPosition : Position where
  terms :=
    { created := 0, side := .long, price := 100.0, amount := 1.0, takeProfit := some 0.5
      stopLoss := some 0.05 }
  sound := by decide +kernel

/-- The position with so large an amount that the money moved is no number. -/
def vastSwingPosition : Position where
  terms := { swingPosition.terms with amount := 1.0e308 }
  sound := by decide +kernel

/-- The position with another price, which an order at the market does not look at. -/
def cheapSwingPosition : Position where
  terms := { swingPosition.terms with price := 7.0 }
  sound := by decide +kernel

theorem seesAlike_swingsElsewhere :
    List.Forall₂ swingPosition.terms.side.SeesAlike swings swingsElsewhere := by
  have hbar : ∀ {time : Int64} {opening opening' high high' low close : Float},
      Side.long.SeesAlike ⟨time, opening, high, low, close⟩ ⟨time, opening', high', low, close⟩ :=
    ⟨rfl, rfl, fun _ => rfl, fun hside => nomatch hside⟩
  exact .cons hbar (.cons hbar (.cons hbar (.cons hbar .nil)))

/-- All runs are closed by the stop loss on the third bar, and the vast amount is shown as
no money at all. -/
theorem simulate_indifferent_of_swings :
    Series.Ascending swings ∧
      (simulate swings swingPosition ⟨0.0004⟩).reason = .stopLoss ∧
      ((simulate swings vastSwingPosition ⟨0.0004⟩).DecidedLike
          (simulate swings swingPosition ⟨0.0004⟩) ∧
        (simulate swings vastSwingPosition ⟨0.0004⟩).rows.map (fun r => r.volume.toBits)
          = [0, 0, 0]) ∧
      (simulate swings cheapSwingPosition ⟨0.0004⟩).rows
        = (simulate swings swingPosition ⟨0.0004⟩).rows ∧
      (List.Forall₂ swingPosition.terms.side.SeesAlike swings swingsElsewhere ∧
        simulate swingsElsewhere swingPosition ⟨0.0004⟩ = simulate swings swingPosition ⟨0.0004⟩) ∧
      (simulate swings swingPosition ⟨0.0004⟩).fill = some ⟨0, 0, 100.0⟩ ∧
      (hitsOf swings swingPosition ⟨0.0004⟩ ⟨0, 0, 100.0⟩).stopLoss = some 120 ∧
      (hitsOf swings swingPosition ⟨0.9⟩ ⟨0, 0, 100.0⟩).stopLoss
        = (hitsOf swings swingPosition ⟨0.0004⟩ ⟨0, 0, 100.0⟩).stopLoss := by
  have hasc : Series.Ascending swings := by decide
  have hfill : (simulate swings swingPosition ⟨0.0004⟩).fill = some ⟨0, 0, 100.0⟩ := by rfl
  obtain ⟨hamount, hprice, hbars, hfees⟩ := simulate_indifferent hasc swingPosition ⟨0.0004⟩
  exact ⟨hasc, by decide +kernel, ⟨hamount vastSwingPosition rfl, by decide +kernel⟩,
    (hprice cheapSwingPosition rfl rfl).1,
    ⟨seesAlike_swingsElsewhere, hbars swingsElsewhere seesAlike_swingsElsewhere⟩, hfill,
    by decide +kernel, (hfees ⟨0.9⟩).2 _ hfill⟩

end TripleBarrier
