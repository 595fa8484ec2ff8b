import Mathlib
import TripleBarrier.Proofs.FloatOrder
import TripleBarrier.Proofs.Window

/-!
# The earliest entry

The bar of entry is looked for in three steps: the bars before creation are skipped by a search, the
others are taken until one comes after the deadline, and of these the first one that fills the order
is numbered from where the search ended.  Each step is only right because times never fall: what is
skipped comes before creation, all of it and nothing else, and once the deadline has passed it stays
passed.  So the entry is the least index in the whole series at which the position may open.

Bars may share a time here, as they may not in a series that ascends strictly.

## Main definitions

* `Series.NeverFalls` — no bar comes before an earlier one.
* `Terms.OpensOn`, `Series.OpensAt` — a position may open on a bar, and at an index of a series.

## Main results

* `getElem?_takeWhile_eq_some_iff` — the members of a leading run, where its property
  is never regained.
* `Series.eq_startIndex_iff` — the one place that parts the bars before creation from the others.
* `Series.opensAt_iff` — a position opens where a bar of the window fills its order.
* `Series.fill?_isLeast` — **the entry is the least index at which the position may open.**
-/

namespace TripleBarrier

/-! ### Leading runs -/

section
variable {α : Type} {q : α → Bool} {l : List α} (h : l.Pairwise fun a b => q b → q a)
include h

/-- Where a property is never regained, the leading run holds all members that have it, each
at its own place. -/
theorem getElem?_takeWhile_eq_some_iff {i : ℕ} {a : α} :
    (l.takeWhile q)[i]? = some a ↔ l[i]? = some a ∧ q a := by
  induction l generalizing i with
  | nil => simp
  | cons first rest ih =>
    obtain ⟨hfirst, hrest⟩ := List.pairwise_cons.mp h
    by_cases hq : q first
    · rw [List.takeWhile_cons_of_pos hq]
      cases i with
      | zero =>
        rw [List.getElem?_cons_zero, List.getElem?_cons_zero, Option.some.injEq]
        constructor
        · rintro rfl
          exact ⟨rfl, hq⟩
        · exact And.left
      | succ i =>
        rw [List.getElem?_cons_succ, List.getElem?_cons_succ]
        exact ih hrest
    · rw [List.takeWhile_cons_of_neg hq]
      -- the run is empty, and the property is not regained
      refine iff_of_false (by simp) fun ⟨ha, hqa⟩ => hq ?_
      rcases List.mem_cons.mp (List.mem_of_getElem? ha) with rfl | hmem
      · exact hqa
      · exact hfirst a hmem hqa

/-- The leading run ends before the first member without the property. -/
theorem lt_length_takeWhile_iff {i : ℕ} {a : α} (ha : l[i]? = some a) :
    i < (l.takeWhile q).length ↔ q a := by
  constructor
  · intro hi
    obtain ⟨hmem, hq⟩ := (getElem?_takeWhile_eq_some_iff h).mp (List.getElem?_eq_getElem hi)
    rw [ha, Option.some.injEq] at hmem
    rw [hmem]
    exact hq
  · intro hq
    have hmem := (getElem?_takeWhile_eq_some_iff h).mpr ⟨ha, hq⟩
    exact (List.getElem?_eq_some_iff.mp hmem).1

end

namespace Series

/-! ### Series whose times never fall -/

/-- No bar of the series comes before an earlier one. -/
def NeverFalls (series : List Bar) : Prop :=
  series.Pairwise fun a b => a.time ≤ b.time

instance (series : List Bar) : Decidable (NeverFalls series) :=
  inferInstanceAs (Decidable (series.Pairwise _))

section
variable {series : List Bar} (h : NeverFalls series) (created : Int64)
include h

/-- What comes before creation comes before all that does not. -/
theorem NeverFalls.pairwise_before :
    series.Pairwise fun a b => decide (b.time < created) → decide (a.time < created) := by
  refine List.Pairwise.imp (fun {a b} hab hb => ?_) h
  exact decide_eq_true (Int64.lt_of_le_of_lt hab (of_decide_eq_true hb))

/-- The search for creation skips the bars before it, and no other. -/
theorem lt_startIndex_iff {i : ℕ} {b : Bar} (hb : series[i]? = some b) :
    i < startIndex series created ↔ b.time < created := by
  rw [startIndex, lt_length_takeWhile_iff (h.pairwise_before created) hb, decide_eq_true_iff]

/-- **One place parts the bars before creation from the others**, however it is searched for. -/
theorem eq_startIndex_iff {n : ℕ} : n = startIndex series created ↔
    n ≤ series.length ∧ ∀ i b, series[i]? = some b → (i < n ↔ b.time < created) := by
  constructor
  · rintro rfl
    exact ⟨startIndex_le_length series created, fun i b => lt_startIndex_iff h created⟩
  · rintro ⟨hn, hparts⟩
    have hstart := startIndex_le_length series created
    -- two places that differ would disagree about the bar at the smaller one
    rcases Nat.lt_trichotomy n (startIndex series created) with hlt | heq | hgt
    · have hb := List.getElem?_eq_getElem (Nat.lt_of_lt_of_le hlt hstart)
      have hbefore := (lt_startIndex_iff h created hb).mp hlt
      exact absurd ((hparts n _ hb).mpr hbefore) (Nat.lt_irrefl n)
    · exact heq
    · have hb := List.getElem?_eq_getElem (Nat.lt_of_lt_of_le hgt hn)
      have hbefore := (hparts _ _ hb).mp hgt
      exact absurd ((lt_startIndex_iff h created hb).mpr hbefore) (Nat.lt_irrefl _)

/-- **The window holds the bars from creation through the deadline, each at its own place.** -/
theorem getElem?_window_eq_some_iff {deadline : Option Int} {n : ℕ} {b : Bar} :
    (window series created deadline)[n]? = some b ↔
      series[startIndex series created + n]? = some b ∧ b.isWithin deadline := by
  have hfalls : (startingAt series created).Pairwise fun a b =>
      b.isWithin deadline → a.isWithin deadline :=
    List.Pairwise.imp Bar.isWithin_of_time_le (h.sublist (startingAt_sublist series created))
  rw [window, getElem?_takeWhile_eq_some_iff hfalls, startingAt, List.getElem?_drop]

end

end Series

/-! ### Where a position may open -/

/-- A position may open on a bar: it comes neither before creation nor after the deadline,
and a limit order finds a close that is no dearer than the limit when buying, and no
cheaper when selling short. -/
structure Terms.OpensOn (t : Terms) (deadline : Option Int) (b : Bar) : Prop where
  created_le : t.created ≤ b.time
  le_deadline : ∀ time ∈ deadline, b.time.toInt ≤ time
  fills : t.isLimit = false ∨ (t.side = .long ∧ b.close ≤ t.price) ∨
    (t.side = .short ∧ t.price ≤ b.close)

/-- A position may open on the bar with index `i`. -/
def Series.OpensAt (series : List Bar) (t : Terms) (deadline : Option Int) (i : ℕ) : Prop :=
  ∃ b, series[i]? = some b ∧ t.OpensOn deadline b

section
variable {t : Terms} {b : Bar}

/-- A limit order is filled by a close on the right side of the limit. -/
theorem Terms.fillsOn_iff : t.fillsOn b ↔
    t.isLimit = false ∨ (t.side = .long ∧ b.close ≤ t.price) ∨
      (t.side = .short ∧ t.price ≤ b.close) := by
  unfold Terms.fillsOn Side.fillsAt
  cases t.isLimit with
  | false => simp
  | true => cases t.side <;> simp

/-- A close that is not a number fills no limit order. -/
theorem Terms.OpensOn.isNaN_close {deadline : Option Int} (h : t.OpensOn deadline b)
    (hlimit : t.isLimit) : b.close.isNaN = false := by
  rw [← Bool.not_eq_true, ← place_eq_bot_iff]
  rcases h.fills with hmarket | ⟨-, hle⟩ | ⟨-, hle⟩
  · rw [hlimit] at hmarket
    exact nomatch hmarket
  · exact (le_iff_place.mp hle).1
  · obtain ⟨hprice, hplace⟩ := le_iff_place.mp hle
    intro hclose
    rw [hclose, le_bot_iff] at hplace
    exact hprice hplace

theorem Bar.isWithin_iff {deadline : Option Int} :
    b.isWithin deadline ↔ ∀ time ∈ deadline, b.time.toInt ≤ time := by
  cases deadline <;> simp [Bar.isWithin]

theorem Terms.opensOn_iff {deadline : Option Int} :
    t.OpensOn deadline b ↔ t.created ≤ b.time ∧ b.isWithin deadline ∧ t.fillsOn b := by
  rw [Bar.isWithin_iff, Terms.fillsOn_iff]
  exact ⟨fun ⟨hcreated, hdeadline, hfills⟩ => ⟨hcreated, hdeadline, hfills⟩,
    fun ⟨hcreated, hdeadline, hfills⟩ => ⟨hcreated, hdeadline, hfills⟩⟩

end

namespace Series

section
variable {series : List Bar} (h : NeverFalls series) {t : Terms} {deadline : Option Int}
include h

/-- **A position may open where a bar of the window fills its order**, and nowhere else. -/
theorem opensAt_iff {i : ℕ} : OpensAt series t deadline i ↔
    ∃ n b, i = startIndex series t.created + n ∧ (window series t.created deadline)[n]? = some b ∧
      t.fillsOn b := by
  constructor
  · rintro ⟨b, hb, hopens⟩
    obtain ⟨hcreated, hwithin, hfills⟩ := Terms.opensOn_iff.mp hopens
    have hstart : startIndex series t.created ≤ i :=
      Nat.not_lt.mp fun hlt => Int64.not_lt.mpr hcreated ((lt_startIndex_iff h t.created hb).mp hlt)
    obtain ⟨n, rfl⟩ := Nat.exists_eq_add_of_le hstart
    exact ⟨n, b, rfl, (getElem?_window_eq_some_iff h t.created).mpr ⟨hb, hwithin⟩, hfills⟩
  · rintro ⟨n, b, rfl, hb, hfills⟩
    obtain ⟨hseries, hwithin⟩ := (getElem?_window_eq_some_iff h t.created).mp hb
    have hcreated : t.created ≤ b.time :=
      Int64.not_lt.mp fun hlt =>
        absurd ((lt_startIndex_iff h t.created hseries).mpr hlt)
          (Nat.not_lt.mpr (Nat.le_add_right _ n))
    exact ⟨b, hseries, Terms.opensOn_iff.mpr ⟨hcreated, hwithin, hfills⟩⟩

/-- A position opens neither on a skipped bar nor on one behind the window. -/
theorem OpensAt.mem_window {i : ℕ} (hi : OpensAt series t deadline i) :
    startIndex series t.created ≤ i ∧
      i < startIndex series t.created + (window series t.created deadline).length := by
  obtain ⟨n, b, rfl, hb, -⟩ := (opensAt_iff h).mp hi
  obtain ⟨hn, -⟩ := List.getElem?_eq_some_iff.mp hb
  exact ⟨Nat.le_add_right _ n, Nat.add_lt_add_left hn _⟩

/-- An entry that is found is the least one. -/
theorem isLeast_of_fill? {fill : Fill} (hfill : fill? series t deadline = some fill) :
    IsLeast {i | OpensAt series t deadline i} fill.index ∧
      ∃ b, series[fill.index]? = some b ∧ fill.time = b.time ∧ fill.price = b.close := by
  obtain ⟨earlier, b, later, hsplit, hearlier, hfills, rfl⟩ := exists_split_of_fill? hfill
  have hb : (window series t.created deadline)[earlier.length]? = some b := by
    rw [hsplit, List.getElem?_append_right (Nat.le_refl _), Nat.sub_self, List.getElem?_cons_zero]
  refine ⟨⟨(opensAt_iff h).mpr ⟨earlier.length, b, rfl, hb, hfills⟩, fun i hi => ?_⟩, b,
    ((getElem?_window_eq_some_iff h t.created).mp hb).1, rfl, rfl⟩
  obtain ⟨n, c, rfl, hc, hcfills⟩ := (opensAt_iff h).mp hi
  -- before the entry, no bar of the window fills the order
  refine Nat.add_le_add_left (Nat.not_lt.mp fun hlt => ?_) _
  rw [hsplit, List.getElem?_append_left hlt] at hc
  rw [hearlier c (List.mem_of_getElem? hc)] at hcfills
  exact nomatch hcfills

/-- An entry is found if the position may open at all. -/
theorem exists_fill?_of_opensAt {i : ℕ} (hi : OpensAt series t deadline i) :
    ∃ fill, fill? series t deadline = some fill := by
  obtain ⟨n, b, -, hb, hfills⟩ := (opensAt_iff h).mp hi
  cases hfill : fill? series t deadline with
  | some fill => exact ⟨fill, rfl⟩
  | none =>
    rw [forall_not_fillsOn_of_fill? hfill b (List.mem_of_getElem? hb)] at hfills
    exact nomatch hfills

/-- An entry at a given index is that of its bar. -/
theorem fill?_eq_some_iff {fill : Fill} : fill? series t deadline = some fill ↔
    IsLeast {i | OpensAt series t deadline i} fill.index ∧
      ∃ b, series[fill.index]? = some b ∧ fill.time = b.time ∧ fill.price = b.close := by
  refine ⟨isLeast_of_fill? h, fun ⟨hleast, b, hb, htime, hprice⟩ => ?_⟩
  obtain ⟨found, hfound⟩ := exists_fill?_of_opensAt h hleast.1
  obtain ⟨hleast', b', hb', htime', hprice'⟩ := isLeast_of_fill? h hfound
  have hindex : found.index = fill.index := hleast'.unique hleast
  rw [hindex, hb, Option.some.injEq] at hb'
  subst hb'
  calc fill? series t deadline = some ⟨found.index, found.time, found.price⟩ := hfound
    _ = some fill := by rw [hindex, htime', hprice', ← htime, ← hprice]

end

/-- **The entry is the least index in the whole series at which the position may open**, with the
time and the close of its bar, and there is an entry as soon as there is such an index.  The bars
that are skipped are those before creation, so the position could have opened on none of them, and
neither on a bar behind the window.  A close that is not a number fills no limit order. -/
theorem fill?_isLeast {series : List Bar} (h : NeverFalls series) (p : Position) :
    ((∃ fill, fill? series p.terms p.deadline? = some fill) ↔
      ∃ i, OpensAt series p.terms p.deadline? i) ∧
    (∀ fill, fill? series p.terms p.deadline? = some fill ↔
      IsLeast {i | OpensAt series p.terms p.deadline? i} fill.index ∧
        ∃ b, series[fill.index]? = some b ∧ fill.time = b.time ∧ fill.price = b.close) ∧
    (∀ n, n = startIndex series p.terms.created ↔ n ≤ series.length ∧
      ∀ i b, series[i]? = some b → (i < n ↔ b.time < p.terms.created)) ∧
    (∀ i, i < startIndex series p.terms.created ∨ startIndex series p.terms.created +
        (window series p.terms.created p.deadline?).length ≤ i →
      ¬OpensAt series p.terms p.deadline? i) ∧
    (p.terms.isLimit → ∀ i b, series[i]? = some b → b.close.isNaN →
      ¬OpensAt series p.terms p.deadline? i) := by
  refine ⟨⟨?_, ?_⟩, fun fill => fill?_eq_some_iff h, fun n => eq_startIndex_iff h p.terms.created,
    ?_, ?_⟩
  · rintro ⟨fill, hfill⟩
    exact ⟨fill.index, (isLeast_of_fill? h hfill).1.1⟩
  · rintro ⟨i, hi⟩
    exact exists_fill?_of_opensAt h hi
  · intro i houtside hopens
    obtain ⟨hstart, hend⟩ := hopens.mem_window h
    rcases houtside with hbefore | hbehind
    · exact Nat.not_lt.mpr hstart hbefore
    · exact Nat.not_lt.mpr hbehind hend
  · rintro hlimit i b hb hnan ⟨c, hc, hopens⟩
    rw [hb, Option.some.injEq] at hc
    subst hc
    rw [hopens.isNaN_close hlimit] at hnan
    exact nomatch hnan

/-- Prices that dip before a position is created and after its deadline, with a price missing and
two bars at one time in between. -/
def dips : List Bar :=
  [.flat 0 80.0, .flat 60 (0.0 / 0.0), .flat 60 99.0, .flat 120 96.0, .flat 240 80.0]

/-- Buys no dearer than at a limit, from the second bar on and for a hundred seconds. -/
def dipTerms (limit : Float) : Terms :=
  { created := 60, side := .long, price := limit, amount := 1.0, isLimit := true,
    timeLimit := some 100 }

/-- A limit within the dip between creation and deadline. -/
def shallowOrder : Position := ⟨dipTerms 97.0, by decide +kernel⟩

/-- A limit that only the dips outside would reach. -/
def deepOrder : Position := ⟨dipTerms 90.0, by decide +kernel⟩

/-- The first order is filled on the fourth bar, and the second one on none. -/
theorem fill?_isLeast_of_dips :
    NeverFalls dips ∧
      (fill? dips shallowOrder.terms shallowOrder.deadline? = some ⟨3, 120, 96.0⟩ ∧
        IsLeast {i | OpensAt dips shallowOrder.terms shallowOrder.deadline? i} 3) ∧
      (fill? dips deepOrder.terms deepOrder.deadline? = none ∧
        ∀ i, ¬OpensAt dips deepOrder.terms deepOrder.deadline? i) := by
  have hfalls : NeverFalls dips := by decide +kernel
  have hshallow : fill? dips shallowOrder.terms shallowOrder.deadline? =
    some ⟨3, 120, 96.0⟩ := by rfl
  have hdeep : fill? dips deepOrder.terms deepOrder.deadline? = none := by rfl
  obtain ⟨-, hleast, -⟩ := fill?_isLeast hfalls shallowOrder
  obtain ⟨hfound, -⟩ := fill?_isLeast hfalls deepOrder
  refine ⟨hfalls, ⟨hshallow, ((hleast _).mp hshallow).1⟩, hdeep, fun i hi => ?_⟩
  obtain ⟨fill, hfill⟩ := hfound.mpr ⟨i, hi⟩
  exact nomatch hdeep.symm.trans hfill

end Series
end TripleBarrier
