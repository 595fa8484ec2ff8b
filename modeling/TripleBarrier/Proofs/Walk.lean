import TripleBarrier.Simulation.Basic

/-!
# Walking a series bar by bar

A second account of what becomes of a position, which looks at one bar at a time and never ahead of
it.  The bars from creation through the deadline are passed once.  Until the order fills they leave
flat lines; from the bar of entry on, the barriers are tested on every bar, the strongest first, and
the first bar on which one is reached is the last one that is looked at.  A walk that runs out of
bars is closed by the time limit.

Nothing is drafted, cut or rewritten here, which makes the walk the place to prove what holds of a
position from bar to bar.  `TripleBarrier.Proofs.Refinement` shows that it yields what the stages of
a simulation yield.

## Main definitions

* `Terms.reaches`, `Terms.barrier?` — the barriers that a bar reaches, and the strongest of them.
* `Walk.line` — the line of an open position on a bar, every figure spelled out.
* `Walk.hold` — the walk from the bar of entry on.
* `Walk.wait` — the walk from creation on.
* `walkUntil`, `walk` — the walk over a series, with any deadline and with that of the position.
* `Walk.IsQuiet`, `Walk.ClosesOn` — bars that leave a position open, and the one that closes it.

## Main results

* `Walk.exists_closesOn`, `Walk.hold_eq_of_closesOn` — a walk has a closing bar, and that bar says
  all about it.
* `Walk.wait_of_forall_not_fillsOn`, `Walk.wait_of_fillsOn` — a walk that never opens a position,
  and one that opens it on a given bar.
-/

namespace TripleBarrier

/-! ### The barriers on one bar -/

namespace Terms

/-- The net return exceeds the take-profit level, if there is one. -/
def takesProfit (t : Terms) (netReturn : Float) : Bool :=
  t.takeProfit.any fun level => level < netReturn

/-- The bar reaches the stop loss of a position filled at a price, if there is one. -/
def isStoppedBy (t : Terms) (fill : Float) (b : Bar) : Bool :=
  t.stopLoss.any fun distance => t.side.reachesStop (t.side.stopPrice fill distance) b

/-- The strongest barrier that is reached on a bar, given its net return and the trailing stop that
has seen it. -/
def barrier? (t : Terms) (fill netReturn : Float) (stop : Option TrailingStop) (b : Bar) :
    Option ExitReason :=
  if t.takesProfit netReturn then some .takeProfit
  else if t.isStoppedBy fill b then some .stopLoss
  else if stop.any fun s => s.phase.isTriggered then some .trailingStop
  else none

/-- Whether a bar reaches a barrier, given its net return and the trailing stop that has seen it.
The time limit is not a matter of bars. -/
def reaches (t : Terms) (fill netReturn : Float) (stop : Option TrailingStop) (b : Bar) :
    ExitReason → Bool
  | .takeProfit => t.takesProfit netReturn
  | .stopLoss => t.isStoppedBy fill b
  | .trailingStop => stop.any fun s => s.phase.isTriggered
  | .timeLimit => false

section
variable {t : Terms} {fill netReturn : Float} {stop : Option TrailingStop} {b : Bar}

/-- The three barriers that a bar can reach, one by one. -/
theorem forall_reaches_eq_false_iff :
    (∀ reason, t.reaches fill netReturn stop b reason = false) ↔
      t.takesProfit netReturn = false ∧ t.isStoppedBy fill b = false ∧
        (stop.any fun s => s.phase.isTriggered) = false := by
  constructor
  · intro h
    exact ⟨h .takeProfit, h .stopLoss, h .trailingStop⟩
  · rintro ⟨htp, hsl, hts⟩ reason
    cases reason with
    | takeProfit => exact htp
    | stopLoss => exact hsl
    | trailingStop => exact hts
    | timeLimit => rfl

/-- A bar reaches no barrier exactly when there is no strongest one. -/
theorem barrier?_eq_none_iff :
    t.barrier? fill netReturn stop b = none
      ↔ ∀ reason, t.reaches fill netReturn stop b reason = false := by
  rw [forall_reaches_eq_false_iff, barrier?]
  cases t.takesProfit netReturn <;> cases t.isStoppedBy fill b <;>
    cases stop.any fun s => s.phase.isTriggered <;> simp

/-- The strongest barrier is reached, and no stronger one is. -/
theorem reaches_of_barrier? {reason : ExitReason}
    (h : t.barrier? fill netReturn stop b = some reason) :
    t.reaches fill netReturn stop b reason ∧
      ∀ other, t.reaches fill netReturn stop b other → reason.rank ≤ other.rank := by
  unfold barrier? at h
  split at h
  · next htp =>
    obtain rfl := Option.some.inj h
    exact ⟨htp, fun other _ => Nat.zero_le _⟩
  · next htp =>
    split at h
    · next hsl =>
      obtain rfl := Option.some.inj h
      refine ⟨hsl, fun other hother => ?_⟩
      cases other with
      | takeProfit => exact absurd hother htp
      | stopLoss => exact Nat.le_refl _
      | trailingStop => decide
      | timeLimit => decide
    · next hsl =>
      split at h
      · next hts =>
        obtain rfl := Option.some.inj h
        refine ⟨hts, fun other hother => ?_⟩
        cases other with
        | takeProfit => exact absurd hother htp
        | stopLoss => exact absurd hother hsl
        | trailingStop => exact Nat.le_refl _
        | timeLimit => decide
      · exact absurd h (by simp)

end

end Terms

/-! ### The walk of an open position -/

namespace Walk

section
variable (t : Terms) (fees : Fees) (fill : Float)

/-- The net return of leaving the position at a bar's close, as the ledger shows it. -/
def netReturn (b : Bar) : Float :=
  finiteOrZero (fees.netReturn t.side fill b.close)

/-- The line of an open position on a bar, once a given amount of money has been moved. -/
def line (volume : Float) (b : Bar) : Row where
  time := b.time
  price := b.close
  netReturn := finiteOrZero (fees.netReturn t.side fill b.close)
  profit := finiteOrZero (fees.netReturn t.side fill b.close * volume)
  fees := finiteOrZero (fees.roundTrip * volume)
  volume := finiteOrZero volume
  averageEntry := finiteOrZero fill

/-- The line of a bar that leaves the position open: one trade has moved money. -/
def openLine (b : Bar) : Row :=
  line t fees fill (t.amount * fill) b

/-- The line of the bar that closes the position: two trades have moved money. -/
def closeLine (b : Bar) : Row :=
  line t fees fill (t.amount * fill * 2.0) b

/-- The trailing stop once it has seen some more bars. -/
def stopAfter (stop : Option TrailingStop) (bars : List Bar) : Option TrailingStop :=
  stop.map fun s => (bars.map (netReturn t fees fill)).foldl TrailingStop.observe s

/-- The barrier that closes the position on a bar, the trailing stop having seen it: the strongest
one that is reached, or the time limit if no bar is left. -/
def exit? (stop : Option TrailingStop) (b : Bar) (isLast : Bool) : Option ExitReason :=
  t.barrier? fill (netReturn t fees fill b) stop b <|> if isLast then some .timeLimit else none

/-- The lines of an open position through the bar that closes it, and the barrier that does. -/
def hold : Option TrailingStop → List Bar → List Row × ExitReason
  | _, [] => ([], .timeLimit)
  | stop, b :: rest =>
    match exit? t fees fill (stopAfter t fees fill stop [b]) b rest.isEmpty with
    | some reason => ([closeLine t fees fill b], reason)
    | none =>
      let later := hold (stopAfter t fees fill stop [b]) rest
      (openLine t fees fill b :: later.1, later.2)

end

/-! ### The walk from creation on -/

/-- The walk over numbered bars of a position that is not open yet. -/
def wait (p : Position) (fees : Fees) : List (Bar × Nat) → Outcome
  | [] => ⟨p, [], .timeLimit, none⟩
  | (b, index) :: rest =>
    if p.terms.fillsOn b then
      let held := hold p.terms fees b.close (p.terms.trail.map .start) (b :: rest.map Prod.fst)
      ⟨p, held.1, held.2, some ⟨index, b.time, b.close⟩⟩
    else
      let later := wait p fees rest
      { later with rows := Row.flat b.time b.close :: later.rows }

end Walk

/-- A bar does not come before creation, nor after the deadline. -/
def Series.isBetween (created : Int64) (deadline : Option Int) (b : Bar) : Bool :=
  created ≤ b.time && b.isWithin deadline

/-- The bars from creation through the deadline, each with its index in the series. -/
def Walk.bars (series : List Bar) (created : Int64) (deadline : Option Int) : List (Bar × Nat) :=
  series.zipIdx.filter fun entry => Series.isBetween created deadline entry.1

/-- The walk of a position that is closed no later than at a deadline. -/
def walkUntil (deadline : Option Int) (series : List Bar) (p : Position) (fees : Fees) : Outcome :=
  Walk.wait p fees (Walk.bars series p.terms.created deadline)

/-- The walk of a position over a series. -/
def walk (series : List Bar) (p : Position) (fees : Fees) : Outcome :=
  walkUntil p.deadline? series p fees

namespace Walk

/-! ### Where an open position is closed -/

section
variable {t : Terms} {fees : Fees} {fill : Float}

@[simp] theorem time_openLine (b : Bar) : (openLine t fees fill b).time = b.time := rfl

@[simp] theorem price_openLine (b : Bar) : (openLine t fees fill b).price = b.close := rfl

@[simp] theorem netReturn_openLine (b : Bar) :
    (openLine t fees fill b).netReturn = netReturn t fees fill b := rfl

@[simp] theorem netReturn_closeLine (b : Bar) :
    (closeLine t fees fill b).netReturn = netReturn t fees fill b := rfl

/-- The line that a ledger is closed with closes the position. -/
theorem cleaned_mark_closed (b : Bar) :
    ((Exposure.opened t fees fill).closed.mark b.time b.close).cleaned
      = closeLine t fees fill b := rfl

theorem stopAfter_singleton (stop : Option TrailingStop) (b : Bar) :
    stopAfter t fees fill stop [b] = stop.map fun s => s.observe (netReturn t fees fill b) := rfl

theorem stopAfter_append (stop : Option TrailingStop) (bars more : List Bar) :
    stopAfter t fees fill stop (bars ++ more)
      = stopAfter t fees fill (stopAfter t fees fill stop bars) more := by
  cases stop with
  | none => rfl
  | some s => simp [stopAfter]

theorem stopAfter_cons (stop : Option TrailingStop) (b : Bar) (more : List Bar) :
    stopAfter t fees fill stop (b :: more)
      = stopAfter t fees fill (stopAfter t fees fill stop [b]) more :=
  stopAfter_append stop [b] more

/-- A bar that is not the last one closes the position by a barrier that it reaches. -/
@[simp] theorem exit?_false (stop : Option TrailingStop) (b : Bar) :
    exit? t fees fill stop b false = t.barrier? fill (netReturn t fees fill b) stop b := by
  simp [exit?]

theorem exit?_of_barrier {stop : Option TrailingStop} {b : Bar} {reason : ExitReason}
    (h : t.barrier? fill (netReturn t fees fill b) stop b = some reason) (isLast : Bool) :
    exit? t fees fill stop b isLast = some reason := by
  rw [exit?, h]
  rfl

theorem exit?_of_last {stop : Option TrailingStop} {b : Bar}
    (h : t.barrier? fill (netReturn t fees fill b) stop b = none) :
    exit? t fees fill stop b true = some .timeLimit := by
  rw [exit?, h]
  rfl

/-- The last bar closes the position in any case. -/
theorem exit?_true_ne_none (stop : Option TrailingStop) (b : Bar) :
    exit? t fees fill stop b true ≠ none := by
  cases h : t.barrier? fill (netReturn t fees fill b) stop b with
  | some reason => rw [exit?_of_barrier h]; exact Option.some_ne_none reason
  | none => rw [exit?_of_last h]; exact Option.some_ne_none _

theorem hold_cons_of_exit {stop : Option TrailingStop} {b : Bar} {rest : List Bar}
    {reason : ExitReason}
    (h : exit? t fees fill (stopAfter t fees fill stop [b]) b rest.isEmpty = some reason) :
    hold t fees fill stop (b :: rest) = ([closeLine t fees fill b], reason) := by
  rw [hold, h]

theorem hold_cons_of_open {stop : Option TrailingStop} {b : Bar} {rest : List Bar}
    (h : exit? t fees fill (stopAfter t fees fill stop [b]) b rest.isEmpty = none) :
    hold t fees fill stop (b :: rest)
      = (openLine t fees fill b :: (hold t fees fill (stopAfter t fees fill stop [b]) rest).1,
          (hold t fees fill (stopAfter t fees fill stop [b]) rest).2) := by
  rw [hold, h]

end

/-- None of some bars closes a position with a trailing stop in a given state, as long as other bars
follow. -/
def IsQuiet (t : Terms) (fees : Fees) (fill : Float) (stop : Option TrailingStop)
    (bars : List Bar) : Prop :=
  ∀ before c after, bars = before ++ c :: after →
    t.barrier? fill (netReturn t fees fill c) (stopAfter t fees fill stop (before ++ [c])) c = none

/-- A position with a trailing stop in a given state is closed on the bar `b`, for a given reason:
none of the bars `earlier` closes it, and `b`, with the bars `later` to come, does. -/
structure ClosesOn (t : Terms) (fees : Fees) (fill : Float) (stop : Option TrailingStop)
    (earlier : List Bar) (b : Bar) (later : List Bar) (reason : ExitReason) : Prop where
  quiet : IsQuiet t fees fill stop earlier
  exit : exit? t fees fill (stopAfter t fees fill stop (earlier ++ [b])) b later.isEmpty =
    some reason

section
variable {t : Terms} {fees : Fees} {fill : Float}

theorem isQuiet_nil (stop : Option TrailingStop) : IsQuiet t fees fill stop [] := by
  intro before c after h
  exact absurd h (by simp)

/-- Whether bars after the first one are quiet depends on the trailing stop that has seen the first
one. -/
theorem isQuiet_cons {stop : Option TrailingStop} {b : Bar} {bars : List Bar} :
    IsQuiet t fees fill stop (b :: bars) ↔
      t.barrier? fill (netReturn t fees fill b) (stopAfter t fees fill stop [b]) b = none ∧
        IsQuiet t fees fill (stopAfter t fees fill stop [b]) bars := by
  constructor
  · intro h
    refine ⟨h [] b bars rfl, fun before c after hsplit => ?_⟩
    rw [← stopAfter_cons, ← List.cons_append]
    exact h (b :: before) c after (by rw [hsplit, List.cons_append])
  · rintro ⟨hb, h⟩ before c after hsplit
    -- the bar in question is the first one, or one of those that follow
    cases before with
    | nil =>
      obtain ⟨rfl, -⟩ := List.cons.inj hsplit
      exact hb
    | cons b' before =>
      obtain ⟨rfl, hrest⟩ := List.cons.inj hsplit
      rw [List.cons_append, stopAfter_cons]
      exact h before c after hrest

/-- A position that its first bar leaves open is closed as if it started after this bar. -/
theorem closesOn_cons {stop : Option TrailingStop} {c : Bar} {earlier : List Bar} {b : Bar}
    {later : List Bar} {reason : ExitReason} :
    ClosesOn t fees fill stop (c :: earlier) b later reason ↔
      t.barrier? fill (netReturn t fees fill c) (stopAfter t fees fill stop [c]) c = none ∧
        ClosesOn t fees fill (stopAfter t fees fill stop [c]) earlier b later reason := by
  constructor
  · rintro ⟨hquiet, hexit⟩
    obtain ⟨hc, hquiet⟩ := isQuiet_cons.mp hquiet
    rw [List.cons_append, stopAfter_cons] at hexit
    exact ⟨hc, hquiet, hexit⟩
  · rintro ⟨hc, hquiet, hexit⟩
    refine ⟨isQuiet_cons.mpr ⟨hc, hquiet⟩, ?_⟩
    rw [List.cons_append, stopAfter_cons]
    exact hexit

/-- **The closing bar says all about a walk**: the bars before it leave open lines, and the bars
after it leave none. -/
theorem hold_eq_of_closesOn {stop : Option TrailingStop} {earlier : List Bar} {b : Bar}
    {later : List Bar} {reason : ExitReason}
    (h : ClosesOn t fees fill stop earlier b later reason) :
    hold t fees fill stop (earlier ++ b :: later)
      = (earlier.map (openLine t fees fill) ++ [closeLine t fees fill b], reason) := by
  induction earlier generalizing stop with
  | nil => exact hold_cons_of_exit h.exit
  | cons c earlier ih =>
    obtain ⟨hc, h⟩ := closesOn_cons.mp h
    -- the closing bar is still to come, so that the time limit does not close the position here
    have hlast : (earlier ++ b :: later).isEmpty = false := by simp
    rw [List.cons_append, hold_cons_of_open (by rw [hlast, exit?_false]; exact hc), ih h]
    rfl

variable (t fees fill) in
/-- **Every walk over some bars has a closing bar.** -/
theorem exists_closesOn (stop : Option TrailingStop) {bars : List Bar} (h : bars ≠ []) :
    ∃ earlier b later reason, bars = earlier ++ b :: later ∧
      ClosesOn t fees fill stop earlier b later reason := by
  induction bars generalizing stop with
  | nil => exact absurd rfl h
  | cons b rest ih =>
    cases hx : exit? t fees fill (stopAfter t fees fill stop [b]) b rest.isEmpty with
    | some reason =>
      exact ⟨[], b, rest, reason, rfl, isQuiet_nil stop, hx⟩
    | none =>
      -- the last bar would have closed the position
      have hrest : rest.isEmpty = false := by
        cases hempty : rest.isEmpty with
        | false => rfl
        | true => exact absurd (hempty ▸ hx) (exit?_true_ne_none _ _)
      obtain ⟨earlier, d, later, reason, hsplit, hcloses⟩ :=
        ih (stopAfter t fees fill stop [b]) (by simpa using hrest)
      refine ⟨b :: earlier, d, later, reason, by rw [hsplit, List.cons_append], ?_⟩
      rw [hrest, exit?_false] at hx
      exact closesOn_cons.mpr ⟨hx, hcloses⟩

end

/-! ### Where a position is opened -/

section
variable {p : Position} (fees : Fees)

/-- A walk on which the order never fills leaves flat lines. -/
theorem wait_of_forall_not_fillsOn {bars : List Bar} (h : ∀ b ∈ bars, p.terms.fillsOn b = false)
    (start : Nat) :
    wait p fees (bars.zipIdx start)
      = ⟨p, bars.map fun b => Row.flat b.time b.close, .timeLimit, none⟩ := by
  induction bars generalizing start with
  | nil => rfl
  | cons b rest ih =>
    have hb : ¬ p.terms.fillsOn b := Bool.eq_false_iff.mp (h b List.mem_cons_self)
    rw [List.zipIdx_cons, wait, if_neg hb, ih fun c hc => h c (List.mem_cons_of_mem b hc)]
    rfl

/-- A walk on which the order fills leaves flat lines up to the bar of entry. -/
theorem wait_of_fillsOn {earlier : List Bar} {b : Bar} (later : List Bar)
    (h : ∀ c ∈ earlier, p.terms.fillsOn c = false) (hb : p.terms.fillsOn b) (start : Nat) :
    wait p fees ((earlier ++ b :: later).zipIdx start)
      = ⟨p, earlier.map (fun c => Row.flat c.time c.close) ++
            (hold p.terms fees b.close (p.terms.trail.map .start) (b :: later)).1,
          (hold p.terms fees b.close (p.terms.trail.map .start) (b :: later)).2,
          some ⟨start + earlier.length, b.time, b.close⟩⟩ := by
  induction earlier generalizing start with
  | nil => rw [List.nil_append, List.zipIdx_cons, wait, if_pos hb, List.zipIdx_map_fst]; rfl
  | cons c earlier ih =>
    have hc : ¬ p.terms.fillsOn c := Bool.eq_false_iff.mp (h c List.mem_cons_self)
    rw [List.cons_append, List.zipIdx_cons, wait, if_neg hc,
      ih fun d hd => h d (List.mem_cons_of_mem c hd)]
    show Outcome.mk p _ _ (some ⟨start + 1 + earlier.length, _, _⟩) = _
    rw [Nat.add_right_comm]
    rfl

end

end Walk
end TripleBarrier
