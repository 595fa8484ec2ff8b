import Mathlib.Data.List.TakeWhile
import TripleBarrier.Proofs.Walk

/-!
# The window of an ascending series

A simulation finds the bars from creation through the deadline by cutting the series twice.  In an
ascending series these are all bars with such a time: none of them lies outside the cuts, and no
other bar lies between them.

## Main results

* `Series.before_append_window_append_after` — the two cuts give back the series.
* `Series.window_prefix` — an earlier deadline leaves the front of a window.
* `Series.startIndex_eq_countP` — the window starts behind all earlier bars.
* `Walk.bars_eq_zipIdx_window` — a walk passes the bars of the window.
* `Series.window_eq_filter` — the window is made of the bars whose time is right.
* `Series.exists_split_of_fill?` — the entry is the first bar of the window that fills the order.
-/

namespace TripleBarrier

/-- What is not later than a bar within the deadline is within it as well. -/
theorem Bar.isWithin_of_time_le {deadline : Option Int} {a b : Bar} (hab : a.time ≤ b.time)
    (hb : b.isWithin deadline) : a.isWithin deadline := by
  cases deadline with
  | none => rfl
  | some t =>
    have hle : b.time.toInt ≤ t := by simpa [isWithin] using hb
    have := Int64.le_iff_toInt_le.mp hab
    simpa [isWithin] using Int.le_trans this hle

/-- A deadline may be a time that a stamp can hold. -/
theorem Bar.isWithin_toInt_iff {b : Bar} {time : Int64} :
    b.isWithin (some time.toInt) ↔ b.time ≤ time := by
  simp [isWithin, Int64.le_iff_toInt_le]

namespace Series

/-! ### The two cuts -/

/-- The bars before a given time. -/
def before (series : List Bar) (created : Int64) : List Bar :=
  series.takeWhile fun b => b.time < created

/-- The bars from a given time on that come after a deadline. -/
def after (series : List Bar) (created : Int64) (deadline : Option Int) : List Bar :=
  (startingAt series created).dropWhile (Bar.isWithin deadline)

theorem window_append_after (series : List Bar) (created : Int64) (deadline : Option Int) :
    window series created deadline ++ after series created deadline = startingAt series created :=
  List.takeWhile_append_dropWhile

theorem before_append_startingAt (series : List Bar) (created : Int64) :
    before series created ++ startingAt series created = series := by
  rw [startingAt_eq_dropWhile]
  exact List.takeWhile_append_dropWhile

/-- The two cuts give back the series. -/
theorem before_append_window_append_after (series : List Bar) (created : Int64)
    (deadline : Option Int) :
    before series created ++ (window series created deadline ++ after series created deadline)
      = series := by
  rw [window_append_after, before_append_startingAt]

theorem length_before (series : List Bar) (created : Int64) :
    (before series created).length = startIndex series created := rfl

theorem time_lt_of_mem_before {series : List Bar} {created : Int64} {b : Bar}
    (hb : b ∈ before series created) : b.time < created := by
  simpa using List.all_eq_true.mp List.all_takeWhile b hb

theorem isWithin_of_mem_window {series : List Bar} {created : Int64} {deadline : Option Int}
    {b : Bar} (hb : b ∈ window series created deadline) : b.isWithin deadline :=
  List.all_eq_true.mp List.all_takeWhile b hb

theorem mem_startingAt_of_mem_window {series : List Bar} {created : Int64} {deadline : Option Int}
    {b : Bar} (hb : b ∈ window series created deadline) : b ∈ startingAt series created :=
  (List.takeWhile_sublist _).mem hb

theorem startingAt_sublist (series : List Bar) (created : Int64) :
    (startingAt series created).Sublist series :=
  List.drop_sublist _ _

theorem window_sublist (series : List Bar) (created : Int64) (deadline : Option Int) :
    (window series created deadline).Sublist series :=
  (List.takeWhile_sublist _).trans (startingAt_sublist series created)

/-- A window with an earlier deadline is cut from one with a later one. -/
theorem window_eq_takeWhile {deadline deadline' : Option Int}
    (hle : ∀ b : Bar, b.isWithin deadline → b.isWithin deadline') (series : List Bar)
    (created : Int64) : window series created deadline
      = (window series created deadline').takeWhile (Bar.isWithin deadline) := by
  have hboth : ∀ b : Bar, b.isWithin deadline = (b.isWithin deadline && b.isWithin deadline') := by
    intro b
    by_cases hb : b.isWithin deadline
    · simp [hb, hle b hb]
    · simp [hb]
  unfold window
  rw [List.takeWhile_takeWhile]
  congr 1
  funext b
  simpa using hboth b

/-- An earlier deadline leaves the front of the window. -/
theorem window_prefix {deadline deadline' : Option Int}
    (hle : ∀ b : Bar, b.isWithin deadline → b.isWithin deadline') (series : List Bar)
    (created : Int64) : window series created deadline <+: window series created deadline' := by
  rw [window_eq_takeWhile hle]
  exact List.takeWhile_prefix _

/-! ### Order -/

section
variable {series : List Bar} (h : Ascending series)
include h

/-- Once an ascending series has passed the deadline, it stays behind it. -/
theorem not_isWithin_of_mem_dropWhile {deadline : Option Int} {b : Bar}
    (hb : b ∈ series.dropWhile (Bar.isWithin deadline)) : b.isWithin deadline = false := by
  induction series with
  | nil => exact absurd hb List.not_mem_nil
  | cons a rest ih =>
    rw [List.dropWhile_cons] at hb
    split at hb
    · exact ih h.tail hb
    · next hout =>
      rcases List.mem_cons.mp hb with rfl | hb
      · exact Bool.eq_false_iff.mpr hout
      · refine Bool.eq_false_iff.mpr fun hwithin => hout ?_
        exact Bar.isWithin_of_time_le (Int64.le_of_lt (h.time_lt hb)) hwithin

theorem not_isWithin_of_mem_after {created : Int64} {deadline : Option Int} {b : Bar}
    (hb : b ∈ after series created deadline) : b.isWithin deadline = false :=
  not_isWithin_of_mem_dropWhile (h.sublist (startingAt_sublist series created)) hb

/-- The window starts behind all bars before creation. -/
theorem startIndex_eq_countP (created : Int64) :
    startIndex series created = series.countP fun b => b.time < created := by
  have hbefore : (before series created).countP (fun b => b.time < created)
      = (before series created).length :=
    List.countP_eq_length.mpr fun b hb => by simpa using time_lt_of_mem_before hb
  have hrest : (startingAt series created).countP (fun b => b.time < created) = 0 :=
    List.countP_eq_zero.mpr fun b hb => by
      simpa using Int64.not_lt.mpr (le_time_of_mem_startingAt h hb)
  conv => rhs; rw [← before_append_startingAt series created]
  rw [List.countP_append, hbefore, hrest, length_before, Nat.add_zero]

end

/-! ### The bars of the window -/

section
variable {series : List Bar} (h : Ascending series)
include h

theorem isBetween_of_mem_window {created : Int64} {deadline : Option Int} {b : Bar}
    (hb : b ∈ window series created deadline) : isBetween created deadline b := by
  have hcreated := le_time_of_mem_startingAt h (mem_startingAt_of_mem_window hb)
  simp [isBetween, hcreated, isWithin_of_mem_window hb]

theorem not_isBetween_of_mem_after {created : Int64} {deadline : Option Int} {b : Bar}
    (hb : b ∈ after series created deadline) : isBetween created deadline b = false := by
  simp [isBetween, not_isWithin_of_mem_after h hb]

end

theorem not_isBetween_of_mem_before {series : List Bar} {created : Int64} (deadline : Option Int)
    {b : Bar} (hb : b ∈ before series created) : isBetween created deadline b = false := by
  simp [isBetween, Int64.not_le.mpr (time_lt_of_mem_before hb)]

end Series

open Series

/-- **A walk passes the bars of the window**, numbered from where the window starts. -/
theorem Walk.bars_eq_zipIdx_window {series : List Bar} (h : Ascending series) (created : Int64)
    (deadline : Option Int) :
    bars series created deadline
      = (window series created deadline).zipIdx (startIndex series created) := by
  have hnone : ∀ (part : List Bar) (n : Nat), (∀ b ∈ part, isBetween created deadline b = false) →
      (part.zipIdx n).filter (fun entry => isBetween created deadline entry.1) = [] := by
    intro part n hpart
    refine List.filter_eq_nil_iff.mpr fun entry hentry => ?_
    rw [hpart entry.1 (List.fst_mem_of_mem_zipIdx hentry)]
    decide
  have hwindow : ∀ n, ((window series created deadline).zipIdx n).filter
      (fun entry => isBetween created deadline entry.1)
        = (window series created deadline).zipIdx n := by
    intro n
    refine List.filter_eq_self.mpr fun entry hentry => ?_
    exact isBetween_of_mem_window h (List.fst_mem_of_mem_zipIdx hentry)
  -- of the three parts of the series only the middle one passes the filter
  unfold bars
  conv => lhs; rw [← before_append_window_append_after series created deadline]
  rw [List.zipIdx_append, List.zipIdx_append, List.filter_append, List.filter_append, hwindow,
    hnone (before series created) _ fun b hb => not_isBetween_of_mem_before deadline hb,
    hnone (after series created deadline) _ fun b hb => not_isBetween_of_mem_after h hb,
    List.nil_append, List.append_nil, length_before, Nat.zero_add]

/-- **The window of an ascending series holds the bars from creation through the deadline.** -/
theorem Series.window_eq_filter {series : List Bar} (h : Ascending series) (created : Int64)
    (deadline : Option Int) :
    window series created deadline = series.filter (isBetween created deadline) := by
  calc window series created deadline
      = (Walk.bars series created deadline).map Prod.fst := by
        rw [Walk.bars_eq_zipIdx_window h, List.zipIdx_map_fst]
    _ = (series.zipIdx.map Prod.fst).filter (isBetween created deadline) := by
        rw [List.filter_map]; rfl
    _ = series.filter (isBetween created deadline) := by rw [List.zipIdx_map_fst]

/-- A bar between two bars of the window lies in it as well. -/
theorem Series.mem_window_of_time_le {series : List Bar} (h : Ascending series) {created : Int64}
    {deadline : Option Int} {a b c : Bar} (ha : a ∈ window series created deadline)
    (hb : b ∈ series) (hc : c ∈ window series created deadline) (hab : a.time ≤ b.time)
    (hbc : b.time ≤ c.time) : b ∈ window series created deadline := by
  have hcreated : created ≤ b.time :=
    Int64.le_trans (le_time_of_mem_startingAt h (mem_startingAt_of_mem_window ha)) hab
  have hwithin : b.isWithin deadline := Bar.isWithin_of_time_le hbc (isWithin_of_mem_window hc)
  rw [window_eq_filter h]
  exact List.mem_filter.mpr ⟨hb, by simp [isBetween, hcreated, hwithin]⟩

/-! ### The bar of entry -/

namespace Series

/-- The first of some numbered bars that meets a condition. -/
theorem find?_zipIdx_eq_some {bars : List Bar} {start : Nat} {q : Bar → Bool} {entry : Bar × Nat}
    (h : (bars.zipIdx start).find? (fun e => q e.1) = some entry) :
    ∃ earlier b later, bars = earlier ++ b :: later ∧ (∀ c ∈ earlier, q c = false) ∧ q b ∧
      entry = (b, start + earlier.length) := by
  induction bars generalizing start with
  | nil => exact absurd h (by simp)
  | cons c rest ih =>
    rw [List.zipIdx_cons] at h
    by_cases hc : q c
    · rw [List.find?_cons_of_pos (by simpa using hc)] at h
      exact ⟨[], c, rest, rfl, fun _ h => absurd h List.not_mem_nil, hc, (Option.some.inj h).symm⟩
    · rw [List.find?_cons_of_neg (by simpa using hc)] at h
      obtain ⟨earlier, b, later, rfl, hearlier, hb, rfl⟩ := ih h
      refine ⟨c :: earlier, b, later, rfl, fun d hd => ?_, hb, ?_⟩
      · rcases List.mem_cons.mp hd with rfl | hd
        · exact Bool.eq_false_iff.mpr hc
        · exact hearlier d hd
      · rw [List.length_cons, Nat.add_right_comm, Nat.add_assoc]

/-- The entry on a bar that comes after some others in the window. -/
def entryAfter (series : List Bar) (created : Int64) (earlier : List Bar) (b : Bar) : Fill :=
  ⟨startIndex series created + earlier.length, b.time, b.close⟩

/-- **The entry is the first bar of the window on which the order fills.** -/
theorem exists_split_of_fill? {series : List Bar} {t : Terms} {deadline : Option Int} {fill : Fill}
    (h : fill? series t deadline = some fill) :
    ∃ earlier b later, window series t.created deadline = earlier ++ b :: later ∧
      (∀ c ∈ earlier, t.fillsOn c = false) ∧ t.fillsOn b ∧
      fill = entryAfter series t.created earlier b := by
  unfold fill? at h
  obtain ⟨entry, hfind, rfl⟩ := Option.map_eq_some_iff.mp h
  obtain ⟨earlier, b, later, hsplit, hearlier, hb, rfl⟩ := find?_zipIdx_eq_some hfind
  exact ⟨earlier, b, later, hsplit, hearlier, hb, rfl⟩

/-- Without an entry the order fills on no bar of the window. -/
theorem forall_not_fillsOn_of_fill? {series : List Bar} {t : Terms} {deadline : Option Int}
    (h : fill? series t deadline = none) :
    ∀ b ∈ window series t.created deadline, t.fillsOn b = false := by
  unfold fill? at h
  intro b hb
  obtain ⟨n, hn⟩ := List.mem_iff_getElem?.mp hb
  have hmem : (b, startIndex series t.created + n)
      ∈ (window series t.created deadline).zipIdx (startIndex series t.created) :=
    List.mk_add_mem_zipIdx_iff_getElem?.mpr hn
  simpa using List.find?_eq_none.mp (Option.map_eq_none_iff.mp h) _ hmem

end Series

end TripleBarrier
