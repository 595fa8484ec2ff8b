import TripleBarrier.Proofs.Walk

/-!
# First hits, one bar at a time

The hits of a draft are found by four scans that know nothing of each other, and the exit is the
earliest of them.  Here the scans are taken apart at the first bar that is still to be looked at:
either a barrier is reached on it, and then the strongest such barrier is the exit; or none is, and
then the hits are those of the bars that follow, for a trailing stop that has seen the first one.

## Main definitions

* `Hits.time?` — the time at which a barrier is hit.
* `Hits.resume` — the hits of a draft, for a trailing stop on its way.
* `draftFrom` — the draft of a position filled at a given bar.
* `Walk.reachedAt?` — when a walk first comes to a bar that reaches a barrier.

## Main results

* `Hits.exit_first`, `Hits.exit_eq` — no hit precedes the exit, and what no hit precedes is the
  exit.
* `Hits.time?_resume_cons` — one bar of the scans.
* `Hits.time?_resume` — a scan hits a barrier when a walk does.
* `Hits.exit_of_barrier`, `Hits.exit_of_last`, `Hits.resume_of_quiet` — the exit in terms of the
  first bar: a barrier is reached on it, it is the last one in time, or the bars that follow decide.
-/

namespace TripleBarrier

/-! ### The exit among the hits -/

theorem ExitReason.rank_injective {a b : ExitReason} (h : a.rank = b.rank) : a = b := by
  cases a <;> cases b <;> first | rfl | exact absurd h (by decide)

theorem ExitReason.rank_le_timeLimit (a : ExitReason) : a.rank ≤ ExitReason.timeLimit.rank := by
  cases a <;> decide

namespace Hits

/-- When a barrier is first reached. -/
def time? (h : Hits) : ExitReason → Option Int
  | .takeProfit => h.takeProfit
  | .stopLoss => h.stopLoss
  | .trailingStop => h.trailingStop
  | .timeLimit => some h.timeLimit

theorem ext_time? {h h' : Hits} (heq : ∀ reason, h.time? reason = h'.time? reason) : h = h' := by
  obtain ⟨tp, sl, ts, tl⟩ := h
  obtain ⟨tp', sl', ts', tl'⟩ := h'
  have htp : tp = tp' := heq .takeProfit
  have hsl : sl = sl' := heq .stopLoss
  have hts : ts = ts' := heq .trailingStop
  have htl : tl = tl' := Option.some.inj (heq .timeLimit)
  rw [htp, hsl, hts, htl]

/-- The exits of some hits are the barriers that are reached, with their times. -/
theorem mem_exits_iff {h : Hits} {e : Exit} : e ∈ h.exits ↔ h.time? e.reason = some e.time := by
  obtain ⟨reason, time⟩ := e
  obtain ⟨tp, sl, ts, tl⟩ := h
  cases reason <;> simp [exits, time?, eq_comm]

/-- The exit is one of the hits. -/
theorem time?_exit (h : Hits) : h.time? h.exit.reason = some h.exit.time :=
  mem_exits_iff.mp h.exit_mem

/-- No hit comes before the exit, and none at the same time is stronger. -/
theorem exit_first {h : Hits} {reason : ExitReason} {time : Int}
    (hhit : h.time? reason = some time) :
    h.exit.time < time ∨ h.exit.time = time ∧ h.exit.reason.rank ≤ reason.rank := by
  have hmem : (⟨reason, time⟩ : Exit) ∈ h.exits := mem_exits_iff.mpr hhit
  have hnot := not_precedes_exit hmem
  rw [← Bool.not_eq_true, Exit.precedes_iff] at hnot
  dsimp only at hnot
  omega

/-- **What no hit precedes is the exit.** -/
theorem exit_eq {h : Hits} {e : Exit} (he : h.time? e.reason = some e.time)
    (hfirst : ∀ reason time, h.time? reason = some time →
      e.time < time ∨ e.time = time ∧ e.reason.rank ≤ reason.rank) : h.exit = e := by
  have hnot := exit_first he
  have hle := hfirst h.exit.reason h.exit.time h.time?_exit
  have htime : h.exit.time = e.time := by omega
  have hreason : h.exit.reason = e.reason := ExitReason.rank_injective (by omega)
  cases hx : h.exit with
  | mk reason time =>
    rw [hx] at htime hreason
    cases e
    exact congr (congrArg Exit.mk hreason) htime

/-- The exit does not come before a time that no hit comes before. -/
theorem le_exit_time {h : Hits} {time : Int}
    (hle : ∀ reason t, h.time? reason = some t → time ≤ t) : time ≤ h.exit.time :=
  hle h.exit.reason h.exit.time h.time?_exit

end Hits

/-! ### The hits of a draft from its first bar on -/

/-- When a barrier is first reached on some bars, each of them being shown to the trailing stop
before the barrier is tested. -/
def Walk.reachedAt? (t : Terms) (fees : Fees) (fill : Float) (reason : ExitReason) :
    Option TrailingStop → List Bar → Option Int
  | _, [] => none
  | stop, b :: rest =>
    if t.reaches fill (netReturn t fees fill b) (stopAfter t fees fill stop [b]) b reason then
      some b.time.toInt
    else reachedAt? t fees fill reason (stopAfter t fees fill stop [b]) rest

/-- The draft of a position filled at a given bar, with some bars that come before it is open and
the bars on which it is. -/
def draftFrom (t : Terms) (fees : Fees) (fill : Fill) (before active : List Bar) : Draft :=
  ⟨fill, .opened t fees fill.price, before, active⟩

namespace Hits

/-- The hits of a draft, for a trailing stop that has already seen some bars. -/
def resume (d : Draft) (t : Terms) (deadline : Option Int) (stop : Option TrailingStop) : Hits where
  takeProfit := (t.takeProfit.bind d.takeProfitTime?).map Int64.toInt
  stopLoss := (t.stopLoss.bind d.stopLossTime?).map Int64.toInt
  trailingStop := (stop.bind fun s => s.triggerTime? d.points).map Int64.toInt
  timeLimit := deadline.getD d.lastTime.toInt

/-- The hits of a draft are those for a trailing stop that has seen nothing. -/
theorem find_eq_resume (d : Draft) (t : Terms) (deadline : Option Int) :
    find d t deadline = resume d t deadline (t.trail.map .start) := by
  unfold find resume
  cases t.trail <;> rfl

section
variable {t : Terms} {fees : Fees} {fill : Fill} {before : List Bar}
variable {b : Bar} {rest : List Bar} {deadline : Option Int} {stop : Option TrailingStop}

theorem points_draftFrom_cons :
    (draftFrom t fees fill before (b :: rest)).points
      = (b.time, Walk.netReturn t fees fill.price b) ::
          (draftFrom t fees fill before rest).points :=
  rfl

theorem takeProfitTime?_cons (level : Float) :
    (draftFrom t fees fill before (b :: rest)).takeProfitTime? level
      = if level < Walk.netReturn t fees fill.price b then some b.time
        else (draftFrom t fees fill before rest).takeProfitTime? level := by
  unfold Draft.takeProfitTime?
  rw [points_draftFrom_cons]
  split
  · next h => rw [List.find?_cons_of_pos (by simpa using h)]; rfl
  · next h => rw [List.find?_cons_of_neg (by simpa using h)]

theorem stopLossTime?_draftFrom (active : List Bar) (distance : Float) :
    (draftFrom t fees fill before active).stopLossTime? distance
      = (active.find? (t.side.reachesStop (t.side.stopPrice fill.price distance))).map Bar.time :=
  rfl

theorem stopLossTime?_cons (distance : Float) :
    (draftFrom t fees fill before (b :: rest)).stopLossTime? distance
      = if t.side.reachesStop (t.side.stopPrice fill.price distance) b then some b.time
        else (draftFrom t fees fill before rest).stopLossTime? distance := by
  rw [stopLossTime?_draftFrom, stopLossTime?_draftFrom]
  split
  · next h => rw [List.find?_cons_of_pos h]; rfl
  · next h => rw [List.find?_cons_of_neg h]

/-- **One bar of the scans**: a barrier that is reached on the first bar is hit there, and any other
one is hit when the bars that follow hit it. -/
theorem time?_resume_cons {reason : ExitReason} (hreason : reason ≠ .timeLimit) :
    (resume (draftFrom t fees fill before (b :: rest)) t deadline stop).time? reason
      = if t.reaches fill.price (Walk.netReturn t fees fill.price b)
            (Walk.stopAfter t fees fill.price stop [b]) b reason
          then some b.time.toInt
        else (resume (draftFrom t fees fill before rest) t deadline
          (Walk.stopAfter t fees fill.price stop [b])).time? reason := by
  cases reason with
  | takeProfit =>
    unfold time? resume Terms.reaches Terms.takesProfit
    cases t.takeProfit with
    | none => rfl
    | some level =>
      simp only [Option.bind_some, Option.any_some, decide_eq_true_eq, takeProfitTime?_cons]
      split <;> rfl
  | stopLoss =>
    unfold time? resume Terms.reaches Terms.isStoppedBy
    cases t.stopLoss with
    | none => rfl
    | some distance =>
      simp only [Option.bind_some, Option.any_some, stopLossTime?_cons]
      split <;> rfl
  | trailingStop =>
    unfold time? resume Terms.reaches
    cases stop with
    | none => rfl
    | some s =>
      rw [points_draftFrom_cons]
      -- the stop has seen the first bar before it is asked whether it is triggered
      simp only [Option.bind_some, TrailingStop.triggerTime?]
      show Option.map _ (ite _ _ _) = ite ((s.observe _).phase.isTriggered) _ _
      split <;> rfl
  | timeLimit => exact absurd rfl hreason

/-- A scan of no bars hits nothing. -/
theorem time?_resume_nil {reason : ExitReason} (hreason : reason ≠ .timeLimit) :
    (resume (draftFrom t fees fill before []) t deadline stop).time? reason = none := by
  cases reason with
  | takeProfit => unfold time? resume; cases t.takeProfit <;> rfl
  | stopLoss => unfold time? resume; cases t.stopLoss <;> rfl
  | trailingStop => unfold time? resume; cases stop <;> rfl
  | timeLimit => exact absurd rfl hreason

/-- **A scan hits a barrier when a walk over the same bars first comes to one that reaches it.** -/
theorem time?_resume (active : List Bar) {reason : ExitReason} (hreason : reason ≠ .timeLimit) :
    (resume (draftFrom t fees fill before active) t deadline stop).time? reason
      = Walk.reachedAt? t fees fill.price reason stop active := by
  induction active generalizing stop with
  | nil => exact time?_resume_nil hreason
  | cons b rest ih => rw [time?_resume_cons hreason, ih, Walk.reachedAt?]

/-- Apart from the time limit, a barrier is hit on one of the bars. -/
theorem exists_mem_of_time?_resume {active : List Bar} {reason : ExitReason}
    (hreason : reason ≠ .timeLimit) {time : Int}
    (h : (resume (draftFrom t fees fill before active) t deadline stop).time? reason = some time) :
    ∃ c ∈ active, c.time.toInt = time := by
  induction active generalizing stop with
  | nil => exact nomatch (time?_resume_nil hreason).symm.trans h
  | cons b rest ih =>
    rw [time?_resume_cons hreason] at h
    split at h
    · exact ⟨b, List.mem_cons_self, Option.some.inj h⟩
    · obtain ⟨c, hc, htime⟩ := ih h
      exact ⟨c, List.mem_cons_of_mem b hc, htime⟩

/-! ### The exit in terms of the first bar -/

theorem time_le_lastTime (hasc : Series.Ascending (b :: rest)) :
    b.time ≤ (draftFrom t fees fill before (b :: rest)).lastTime := by
  unfold Draft.lastTime draftFrom
  cases hlast : (b :: rest).getLast? with
  | none => exact absurd (List.getLast?_eq_none_iff.mp hlast) (by simp)
  | some last =>
    show b.time ≤ last.time
    exact hasc.time_le (List.mem_of_getLast? hlast)

variable (t fees fill before stop) in
/-- The time limit does not cut off a bar within the deadline. -/
theorem time_le_timeLimit (hasc : Series.Ascending (b :: rest)) (hb : b.isWithin deadline) :
    b.time.toInt ≤
      (resume (draftFrom t fees fill before (b :: rest)) t deadline stop).timeLimit := by
  unfold resume
  cases deadline with
  | none => exact Int64.le_iff_toInt_le.mp (time_le_lastTime hasc)
  | some time => simpa [Bar.isWithin] using hb

variable (t stop) in
/-- The time limit cuts off a bar beyond the deadline. -/
theorem timeLimit_lt_time (d : Draft) {c : Bar} (hc : c.isWithin deadline = false) :
    (resume d t deadline stop).timeLimit < c.time.toInt := by
  unfold resume
  cases deadline with
  | none => exact absurd hc (by simp [Bar.isWithin])
  | some limit => simpa [Bar.isWithin] using hc

variable (t fees fill before stop) in
/-- No hit comes before the first bar. -/
theorem time_le_exit_time (hasc : Series.Ascending (b :: rest)) (hb : b.isWithin deadline) :
    b.time.toInt ≤
      (resume (draftFrom t fees fill before (b :: rest)) t deadline stop).exit.time := by
  refine le_exit_time fun reason time h => ?_
  by_cases hreason : reason = .timeLimit
  · subst hreason
    obtain rfl := Option.some.inj h
    exact time_le_timeLimit t fees fill before stop hasc hb
  · obtain ⟨c, hc, rfl⟩ := exists_mem_of_time?_resume hreason h
    exact Int64.le_iff_toInt_le.mp (hasc.time_le hc)

/-- **A barrier that is reached on the first bar is the exit**, if no stronger one is. -/
theorem exit_of_barrier (hasc : Series.Ascending (b :: rest)) (hb : b.isWithin deadline)
    {reason : ExitReason}
    (h : t.barrier? fill.price (Walk.netReturn t fees fill.price b)
      (Walk.stopAfter t fees fill.price stop [b]) b = some reason) :
    (resume (draftFrom t fees fill before (b :: rest)) t deadline stop).exit
      = ⟨reason, b.time.toInt⟩ := by
  obtain ⟨hreached, hstrongest⟩ := Terms.reaches_of_barrier? h
  -- any other hit comes on a later bar, or has a higher rank
  refine exit_eq ?_ fun other time hother => ?_
  · have hreason : reason ≠ .timeLimit := by
      rintro rfl
      exact absurd hreached (by simp [Terms.reaches])
    rw [time?_resume_cons hreason, if_pos hreached]
  · by_cases hlimit : other = .timeLimit
    · subst hlimit
      obtain rfl := Option.some.inj hother
      have hle := time_le_timeLimit t fees fill before stop hasc hb
      have hrank := reason.rank_le_timeLimit
      show b.time.toInt < _ ∨ b.time.toInt = _ ∧ reason.rank ≤ _
      omega
    · rw [time?_resume_cons hlimit] at hother
      split at hother
      · next hreaches => exact Or.inr ⟨Option.some.inj hother, hstrongest other hreaches⟩
      · -- hit on a later bar
        obtain ⟨c, hc, rfl⟩ := exists_mem_of_time?_resume hlimit hother
        exact Or.inl (hasc.toInt_lt hc)

section
variable (hquiet : t.barrier? fill.price (Walk.netReturn t fees fill.price b)
  (Walk.stopAfter t fees fill.price stop [b]) b = none)
include hquiet

/-- A first bar that reaches no barrier is passed by all scans. -/
theorem time?_resume_of_quiet {reason : ExitReason} (hreason : reason ≠ .timeLimit) :
    (resume (draftFrom t fees fill before (b :: rest)) t deadline stop).time? reason
      = (resume (draftFrom t fees fill before rest) t deadline
          (Walk.stopAfter t fees fill.price stop [b])).time? reason := by
  rw [time?_resume_cons hreason, Terms.barrier?_eq_none_iff.mp hquiet reason]
  rfl

/-- **The bars that follow decide** if the first one reaches no barrier. -/
theorem resume_of_quiet (hrest : rest ≠ []) :
    resume (draftFrom t fees fill before (b :: rest)) t deadline stop
      = resume (draftFrom t fees fill before rest) t deadline
          (Walk.stopAfter t fees fill.price stop [b]) := by
  refine ext_time? fun reason => ?_
  by_cases hreason : reason = .timeLimit
  · subst hreason
    obtain ⟨c, rest, rfl⟩ := List.exists_cons_of_ne_nil hrest
    unfold time? resume Draft.lastTime draftFrom
    rw [List.getLast?_cons_cons]
  · exact time?_resume_of_quiet hquiet hreason

/-- **The time limit is the exit** if the first bar reaches no barrier and the others
come too late. -/
theorem exit_of_last (hrest : ∀ c ∈ rest, c.isWithin deadline = false) :
    (resume (draftFrom t fees fill before (b :: rest)) t deadline stop).exit
      = ⟨.timeLimit,
          (resume (draftFrom t fees fill before (b :: rest)) t deadline stop).timeLimit⟩ := by
  refine exit_eq rfl fun other time hother => ?_
  by_cases hlimit : other = .timeLimit
  · subst hlimit
    exact Or.inr ⟨Option.some.inj hother, Nat.le_refl _⟩
  · rw [time?_resume_of_quiet hquiet hlimit] at hother
    obtain ⟨c, hc, rfl⟩ := exists_mem_of_time?_resume hlimit hother
    exact Or.inl (timeLimit_lt_time t stop _ (hrest c hc))

end

end

end Hits

end TripleBarrier
