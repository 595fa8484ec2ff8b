import TripleBarrier.Proofs.Figures
import TripleBarrier.Proofs.FloatLimits
import TripleBarrier.Proofs.FloatOrder

/-!
# Lines that add up

The figures of a line are computed from each other and only then made presentable, each on its
own.  A reader of the ledger sees none of the values in between.  Still the figures add up as they
are shown: the profit is the return on the volume, and the fees are the rate on the volume,
whatever the prices, the amount and the rate.  For once a factor has been replaced by zero, the
product as it was computed is not finite, and the product as it is shown is a zero of some sign;
both are shown as zero.

The volume itself tells how far the position has got: nothing is moved before the entry, the opening
trade moves the amount at the fill price, and the closing trade moves it once more.

## Main definitions

* `Row.Balances` — profit and fees of a line are those of its volume.
* `Row.Carries` — the volume and the entry price that a line shows.
* `Outcome.AddsUp` — all lines balance, and each of them carries what has been traded.

## Main results

* `finiteOrZero_mul_beq`, `finiteOrZero_mul_beq_right` — a product of numbers as they are shown.
* `Walk.balances_line` — a line of an open position balances, however much money was moved.
* `addsUp_simulate` — **every ledger adds up.**
-/

namespace TripleBarrier

open Float.Model

/-! ### Products with zero -/

namespace Unpacked

section
variable {a : UnpackedFloat} (h : a.isFinite) (spec : Format) (s : UnpackedFloat.Sign)
include h

theorem exists_zero_mul : ∃ t, (UnpackedFloat.zero s).mul spec a = .zero t := by
  cases a with
  | notANumber => nomatch (show false = true from h)
  | infinity t => nomatch (show false = true from h)
  | zero t => exact ⟨_, rfl⟩
  | finite t m e hm => exact ⟨_, rfl⟩

theorem exists_mul_zero : ∃ t, a.mul spec (.zero s) = .zero t := by
  cases a with
  | notANumber => nomatch (show false = true from h)
  | infinity t => nomatch (show false = true from h)
  | zero t => exact ⟨_, rfl⟩
  | finite t m e hm => exact ⟨_, rfl⟩

end

/-- Zeros of both signs are shown as zero. -/
theorem zero_beq_pack (s : UnpackedFloat.Sign) :
    (0.0 : Float) == finiteOrZero (.ofModel (pack (.zero s))) := by
  cases s <;> decide

end Unpacked

/-- A product that starts with zero is shown as zero. -/
theorem zero_beq_zero_mul (x : Float) : 0.0 == finiteOrZero (0.0 * x) := by
  cases hx : x.isFinite with
  | false =>
    rw [finiteOrZero_of_not_isFinite (isFinite_mul_right hx 0.0)]
    decide
  | true =>
    obtain ⟨s, hs⟩ := Unpacked.exists_zero_mul hx Format.binary64 .positive
    have hmul : 0.0 * x = .ofModel (pack (.zero s)) :=
      congrArg (fun a => Float.ofModel (pack a)) hs
    rw [hmul]
    exact Unpacked.zero_beq_pack s

/-- A product that ends with zero is shown as zero. -/
theorem zero_beq_mul_zero (x : Float) : 0.0 == finiteOrZero (x * 0.0) := by
  cases hx : x.isFinite with
  | false =>
    rw [finiteOrZero_of_not_isFinite (isFinite_mul hx 0.0)]
    decide
  | true =>
    obtain ⟨s, hs⟩ := Unpacked.exists_mul_zero hx Format.binary64 .positive
    have hmul : x * 0.0 = .ofModel (pack (.zero s)) :=
      congrArg (fun a => Float.ofModel (pack a)) hs
    rw [hmul]
    exact Unpacked.zero_beq_pack s

/-! ### Products as they are shown -/

/-- A finite number equals itself. -/
theorem beq_self_of_isFinite {x : Float} (h : x.isFinite) : x == x := by
  have hplace : place x ≠ ⊥ := fun hbot =>
    Bool.eq_false_iff.mp (isNaN_of_isFinite h) (place_eq_bot_iff.mp hbot)
  obtain ⟨o, ho, hcompares⟩ := Place.exists_compares hplace hplace
  obtain rfl : o = .eq := hcompares.eq_eq.mpr rfl
  show (x.toModel.unpack.compare x.toModel.unpack == some .eq) = true
  rw [ho]
  rfl

/-- What is shown of a product is shown of the product with its second factor as it is shown. -/
theorem finiteOrZero_mul_beq_right (x y : Float) :
    finiteOrZero (x * y) == finiteOrZero (x * finiteOrZero y) := by
  cases hy : y.isFinite with
  | true =>
    rw [finiteOrZero_of_isFinite hy]
    exact beq_self_of_isFinite (isFinite_finiteOrZero _)
  | false =>
    rw [finiteOrZero_of_not_isFinite hy, finiteOrZero_of_not_isFinite (isFinite_mul_right hy x)]
    exact zero_beq_mul_zero x

/-- **What is shown of a product is shown of the product of its factors as they are shown.** -/
theorem finiteOrZero_mul_beq (x y : Float) :
    finiteOrZero (x * y) == finiteOrZero (finiteOrZero x * finiteOrZero y) := by
  cases hx : x.isFinite with
  | true =>
    rw [finiteOrZero_of_isFinite hx]
    exact finiteOrZero_mul_beq_right x y
  | false =>
    rw [finiteOrZero_of_not_isFinite hx, finiteOrZero_of_not_isFinite (isFinite_mul hx y)]
    exact zero_beq_zero_mul _

/-! ### Lines -/

/-- The profit of a line is its return on its volume, and its fees are the fees of entry and exit on
its volume, all as the line shows them. -/
structure Row.Balances (r : Row) (fees : Fees) : Prop where
  profit : r.profit == finiteOrZero (r.netReturn * r.volume)
  fees : r.fees == finiteOrZero (fees.roundTrip * r.volume)

/-- The money moved and the price of entry that a line shows. -/
structure Row.Carries (r : Row) (volume averageEntry : Float) : Prop where
  volume : r.volume = volume
  averageEntry : r.averageEntry = averageEntry

theorem Row.balances_flat (fees : Fees) (time : Int64) (price : Float) :
    (Row.flat time price).Balances fees where
  profit := zero_beq_zero_mul 0.0
  fees := zero_beq_mul_zero fees.roundTrip

theorem Row.carries_flat (time : Int64) (price : Float) : (Row.flat time price).Carries 0.0 0.0 :=
  ⟨rfl, rfl⟩

/-- **A line of an open position balances**, however much money was moved. -/
theorem Walk.balances_line (t : Terms) (fees : Fees) (fill volume : Float) (b : Bar) :
    (line t fees fill volume b).Balances fees where
  profit := finiteOrZero_mul_beq (fees.netReturn t.side fill b.close) volume
  fees := finiteOrZero_mul_beq_right fees.roundTrip volume

/-! ### Ledgers -/

/-- The lines of an outcome balance, and each of them carries what has been traded by then: nothing
before the entry, the opening trade from the entry on, and both trades on the last line. -/
structure Outcome.AddsUp (o : Outcome) (t : Terms) (fees : Fees) : Prop where
  balances : ∀ r ∈ o.rows, r.Balances fees
  unfilled : o.fill = none → ∀ r ∈ o.rows, r.Carries 0.0 0.0
  waiting : ∀ fill ∈ o.fill, ∀ r ∈ o.rows, r.time < fill.time → r.Carries 0.0 0.0
  holding : ∀ fill ∈ o.fill, ∀ r ∈ o.rows.dropLast, fill.time ≤ r.time →
    r.Carries (finiteOrZero (t.amount * fill.price)) (finiteOrZero fill.price)
  closing : ∀ fill ∈ o.fill, ∃ last, o.finalRow? = some last ∧ fill.time ≤ last.time ∧
    last.Carries (finiteOrZero (t.amount * fill.price * 2.0)) (finiteOrZero fill.price)

namespace Course

variable {p : Position} {fees : Fees} {c : Course p fees}

theorem balances_of_mem_rows {r : Row} (hr : r ∈ c.rows) : r.Balances fees := by
  rcases mem_rows hr with ⟨b, -, rfl⟩ | ⟨b, -, rfl⟩ | rfl
  · exact Row.balances_flat fees b.time b.close
  · exact Walk.balances_line ..
  · exact Walk.balances_line ..

/-- The lines that come before the entry are flat. -/
theorem carries_of_time_lt (h : Series.Ascending c.bars) {r : Row} (hr : r ∈ c.rows)
    (htime : r.time < c.entry.time) : r.Carries 0.0 0.0 := by
  rcases mem_rows hr with ⟨b, -, rfl⟩ | ⟨b, hb, rfl⟩ | rfl
  · exact Row.carries_flat b.time b.close
  · have hle := entry_time_le_of_mem_active h (mem_active_of_mem_holding hb)
    exact absurd htime (Int64.not_lt.mpr hle)
  · have hle := entry_time_le_of_mem_active h c.mem_active_closing
    exact absurd htime (Int64.not_lt.mpr hle)

/-- The lines from the entry on carry the opening trade, up to the last one. -/
theorem carries_of_entry_le (h : Series.Ascending c.bars) {r : Row} (hr : r ∈ c.rows.dropLast)
    (htime : c.entry.time ≤ r.time) :
    r.Carries (finiteOrZero (p.terms.amount * c.entry.close)) (finiteOrZero c.entry.close) := by
  rw [dropLast_rows] at hr
  rcases List.mem_append.mp hr with hr | hr
  · obtain ⟨b, hb, rfl⟩ := List.mem_map.mp hr
    exact absurd (time_lt_entry_of_mem_waiting h hb) (Int64.not_lt.mpr htime)
  · obtain ⟨b, -, rfl⟩ := List.mem_map.mp hr
    exact ⟨rfl, rfl⟩

/-- The outcome of a course adds up. -/
theorem addsUp_outcome (h : Series.Ascending c.bars) (start : Nat) :
    (c.outcome start).AddsUp p.terms fees where
  balances := fun r hr => balances_of_mem_rows hr
  unfilled := fun hnone => absurd hnone (by simp [outcome])
  waiting := by
    intro fill hfill r hr htime
    obtain rfl := Option.some.inj hfill
    exact carries_of_time_lt h hr htime
  holding := by
    intro fill hfill r hr htime
    obtain rfl := Option.some.inj hfill
    exact carries_of_entry_le h hr htime
  closing := by
    intro fill hfill
    obtain rfl := Option.some.inj hfill
    exact ⟨_, c.finalRow?_outcome start, entry_time_le_of_mem_active h c.mem_active_closing,
      ⟨rfl, rfl⟩⟩

end Course

/-- A ledger of flat lines adds up without an entry. -/
theorem Outcome.addsUp_flat (p : Position) (fees : Fees) (bars : List Bar) (reason : ExitReason) :
    (⟨p, bars.map fun b => Row.flat b.time b.close, reason, none⟩ : Outcome).AddsUp p.terms
      fees where
  balances := by
    intro r hr
    obtain ⟨b, -, rfl⟩ := List.mem_map.mp hr
    exact Row.balances_flat fees b.time b.close
  unfilled := by
    intro _ r hr
    obtain ⟨b, -, rfl⟩ := List.mem_map.mp hr
    exact Row.carries_flat b.time b.close
  waiting := fun _ hfill => absurd hfill (by simp)
  holding := fun _ hfill => absurd hfill (by simp)
  closing := fun _ hfill => absurd hfill (by simp)

/-- **Every ledger adds up**, at any prices and any rate. -/
theorem addsUp_simulate {series : List Bar} (h : Series.Ascending series) (p : Position)
    (fees : Fees) : (simulate series p fees).AddsUp p.terms fees := by
  rcases Course.exists_simulateUntil_eq_outcome h p fees p.deadline? with
    ⟨c, -, hasc, houtcome⟩ | hflat
  · rw [simulate, houtcome]
    exact Course.addsUp_outcome hasc _
  · rw [simulate, hflat]
    exact Outcome.addsUp_flat p fees _ .timeLimit

/-- Prices with a blank between them, and an infinite one. -/
def ruptured : List Bar :=
  [.flat 0 100.0, .flat 60 1.0e10, .blank 120, .flat 180 (1.0 / 0.0), .flat 240 1.2e10]

/-- A limit order on a short position of so large an amount that closing it moves more money than a
number can hold. -/
def hugePosition : Position where
  terms := { created := 0, side := .short, price := 1.0e9, amount := 1.0e298, isLimit := true }
  sound := by decide +kernel

/-- The opening trade moves a number, both trades together do not, and the fees are
no number at all. -/
theorem addsUp_of_ruptured :
    Series.Ascending ruptured ∧
      ((simulate ruptured hugePosition ⟨0.0 / 0.0⟩).rows.map fun r => r.volume.toBits)
        = [0.0, 1.0e308, 1.0e308, 1.0e308, 0.0].map Float.toBits ∧
      (simulate ruptured hugePosition ⟨0.0 / 0.0⟩).AddsUp hugePosition.terms ⟨0.0 / 0.0⟩ :=
  ⟨by decide, by decide +kernel, addsUp_simulate (by decide) hugePosition ⟨0.0 / 0.0⟩⟩

end TripleBarrier
