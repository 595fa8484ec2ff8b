import Mathlib
import TripleBarrier.Decimal.Shortest

/-!
# The search for the shortest digits ends

The walk from coarse grids to fine ones is bounded, so it has to be shown that it gets
anywhere.  A grid that is finer than half the gap to the next float has a point in reach just
above every magnitude, and forty grids below an estimate from the bit length all powers of ten
are that small.  So the digits that are found stand for a positive decimal that rounds to the
float they are printed for.

## Main results

* `Grid.exists_hit` — a grid that is fine enough has a point in reach.
* `isFine_of_bitLength` — how small a power of ten has to be.
* `shortest_reaches` — the shortest digits are those of a point in reach.
-/

namespace TripleBarrier
namespace Decimal

/-! ### One grid -/

namespace Grid

variable {g : Grid} {tie : Tie} {m : Magnitude}

/-- The grid is finer than half the gap above a magnitude. -/
def IsFine (g : Grid) (m : Magnitude) : Prop :=
  0 < g.point ∧ g.point < g.scale * m.gapAbove

theorem nearer_eq_or (g : Grid) (tie : Tie) (m : Magnitude) (c : ℕ) :
    g.nearer tie m c = c ∨ g.nearer tie m c = c + 1 := by
  unfold nearer
  grind

/-- A hit is a point in reach, and not zero. -/
theorem reaches_of_hit {c : ℕ} (h : g.hit? tie m = some c) : 0 < c ∧ g.reaches m c := by
  unfold hit? at h
  dsimp only at h
  split at h
  · next hbelow habove =>
    rw [Bool.and_eq_true, bne_iff_ne] at hbelow
    cases Option.some.inj h
    rcases nearer_eq_or g tie m (g.scale * m.quarters / g.point) with hc | hc
    · rw [hc]
      exact ⟨Nat.pos_of_ne_zero hbelow.1, hbelow.2⟩
    · rw [hc]
      exact ⟨Nat.succ_pos _, habove⟩
  · next hbelow _ =>
    rw [Bool.and_eq_true, bne_iff_ne] at hbelow
    cases Option.some.inj h
    exact ⟨Nat.pos_of_ne_zero hbelow.1, hbelow.2⟩
  · next habove =>
    cases Option.some.inj h
    exact ⟨Nat.succ_pos _, habove⟩
  · exact nomatch h

/-- The first point above a magnitude is in reach if the grid is fine enough. -/
theorem reaches_succ (h : g.IsFine m) : g.reaches m (g.scale * m.quarters / g.point + 1) := by
  obtain ⟨hpos, hfine⟩ := h
  have hlow : g.scale * m.low ≤ g.scale * m.quarters :=
    Nat.mul_le_mul_left _ (Nat.sub_le _ _)
  have hhigh : g.scale * m.high = g.scale * m.quarters + g.scale * m.gapAbove :=
    Nat.mul_add _ _ _
  have habove : g.scale * m.quarters < g.point * (g.scale * m.quarters / g.point + 1) :=
    Nat.lt_mul_div_succ _ hpos
  have hnear : g.point * (g.scale * m.quarters / g.point) ≤ g.scale * m.quarters :=
    Nat.mul_div_le _ _
  rw [Nat.mul_add_one] at habove
  unfold reaches
  dsimp only
  rw [Nat.mul_add_one]
  split
  · simp only [Bool.and_eq_true, decide_eq_true_eq]
    omega
  · simp only [Bool.and_eq_true, decide_eq_true_eq]
    omega

/-- **A grid that is fine enough has a point in reach.** -/
theorem exists_hit (tie : Tie) (h : g.IsFine m) : ∃ c, g.hit? tie m = some c := by
  have hsucc := reaches_succ h
  unfold hit?
  dsimp only
  rw [hsucc]
  split
  · exact ⟨_, rfl⟩
  · next habove => exact nomatch habove
  · exact ⟨_, rfl⟩
  · next habove => exact nomatch habove

end Grid

/-! ### Powers of ten and of two -/

/-- A power of ten is below a power of two by the exponents alone, `log₂ 10` being less than `10 /
3` and more than `33 / 10`. -/
theorem ten_zpow_lt_two_zpow {k s : ℤ} (hpos : 0 ≤ k → 10 * k < 3 * s)
    (hneg : k < 0 → 33 * k < 10 * s) : (10 : ℚ) ^ k < 2 ^ s := by
  rcases le_or_gt 0 k with hk | hk
  · have hcube : ((10 : ℚ) ^ k) ^ 3 < (2 ^ s) ^ 3 := by
      calc ((10 : ℚ) ^ k) ^ 3 = (10 ^ 3) ^ k := by rw [← zpow_natCast, zpow_comm, zpow_natCast]
        _ ≤ (2 ^ 10) ^ k := zpow_le_zpow_left₀ hk (by norm_num) (by norm_num)
        _ = 2 ^ (10 * k) := by rw [zpow_mul]; norm_num
        _ < 2 ^ (3 * s) := zpow_lt_zpow_right₀ (by norm_num) (hpos hk)
        _ = (2 ^ s) ^ 3 := by rw [mul_comm, zpow_mul]; norm_num
    exact lt_of_pow_lt_pow_left₀ 3 (by positivity) hcube
  · have hten : ((10 : ℚ) ^ k) ^ 10 < (2 ^ s) ^ 10 := by
      calc ((10 : ℚ) ^ k) ^ 10 = ((10 ^ 10) ^ (-k))⁻¹ := by
            rw [zpow_neg, inv_inv, ← zpow_natCast, zpow_comm, zpow_natCast]
        _ ≤ ((2 ^ 33) ^ (-k))⁻¹ := by
            gcongr
            exact zpow_le_zpow_left₀ (by omega) (by norm_num) (by norm_num)
        _ = 2 ^ (33 * k) := by rw [zpow_neg, inv_inv, zpow_mul]; norm_num
        _ < 2 ^ (10 * s) := zpow_lt_zpow_right₀ (by norm_num) (hneg hk)
        _ = (2 ^ s) ^ 10 := by rw [mul_comm, zpow_mul]; norm_num
    exact lt_of_pow_lt_pow_left₀ 10 (by positivity) hten

/-- A power of an integer exponent as a quotient of two powers of natural exponents, one of them
one. -/
theorem ten_zpow_eq_div (k : ℤ) :
    (10 : ℚ) ^ k = (10 ^ k.toNat : ℕ) / (10 ^ (-k).toNat : ℕ) := by
  obtain ⟨n, rfl | rfl⟩ := Int.eq_nat_or_neg k
  · simp
  · simp

/-- A power of two as a quotient of two powers of natural exponents. -/
theorem two_zpow_sub (a b : ℕ) : (2 : ℚ) ^ (a - b : ℤ) = (2 ^ a : ℕ) / (2 ^ b : ℕ) := by
  rw [zpow_sub₀ (by norm_num)]
  norm_cast

/-- Quotients of whole numbers are compared by cross multiplication. -/
theorem natCast_div_lt_div_iff {a b c d : ℕ} (hb : 0 < b) (hd : 0 < d) :
    (a / b : ℚ) < c / d ↔ d * a < b * c := by
  rw [div_lt_div_iff₀ (Nat.cast_pos.mpr hb) (Nat.cast_pos.mpr hd), mul_comm, mul_comm (c : ℚ)]
  exact_mod_cast Iff.rfl

/-- A power of ten below a power of two, in whole numbers. -/
theorem mul_ten_pow_lt {k : ℤ} {a b : ℕ} (h : (10 : ℚ) ^ k < 2 ^ (a - b : ℤ)) :
    Nat.pow 2 b * Nat.pow 10 k.toNat < Nat.pow 10 (-k).toNat * Nat.pow 2 a := by
  rw [ten_zpow_eq_div, two_zpow_sub] at h
  exact (natCast_div_lt_div_iff (pow_pos (by decide) _) (pow_pos two_pos _)).mp h

/-- The grid of a small power of ten is fine. -/
theorem Grid.isFine_ofPower {m : Magnitude} {k : ℤ}
    (h : (10 : ℚ) ^ k < 2 ^ ((m.shift + 1 : ℕ) - (1076 : ℕ) : ℤ)) : (Grid.ofPower k).IsFine m := by
  have hgap : m.gapAbove = Nat.pow 2 (m.shift + 1) :=
    Nat.mul_comm _ _
  constructor
  · exact Nat.mul_pos (Nat.two_pow_pos 1076) (Nat.pow_pos (by decide))
  · rw [hgap, Grid.ofPower]
    exact mul_ten_pow_lt h

/-! ### The walk -/

section
variable {m : Magnitude}

/-- The last of the forty grids is fine: its power of ten is below the gap by its exponent. -/
theorem isFine_of_bitLength (hpos : 0 < m.coeff) (hcoeff : m.coeff < 2 ^ 53)
    (hshift : m.shift < 2 ^ 11) : (Grid.ofPower (topPower m - 39)).IsFine m := by
  have hquarters : m.quarters = 4 * m.coeff * 2 ^ m.shift := rfl
  have hne : m.quarters ≠ 0 := by
    rw [hquarters]
    positivity
  have hlog : Nat.log2 m.quarters < 55 + m.shift := by
    rw [Nat.log2_lt hne, hquarters, pow_add]
    gcongr
    omega
  -- the walk starts high by at most ten grids, and 55 bits are about 17 digits
  apply Grid.isFine_ofPower
  apply ten_zpow_lt_two_zpow
  · intro hk
    unfold topPower at hk ⊢
    dsimp only at hk ⊢
    split at hk <;> omega
  · intro hk
    unfold topPower at hk ⊢
    dsimp only at hk ⊢
    split at hk <;> omega

/-- One step of the walk. -/
theorem searchFrom_succ (tie : Tie) (m : Magnitude) (steps : ℕ) (k : ℤ) :
    searchFrom tie m (steps + 1) k =
      ((Grid.ofPower k).hit? tie m).elim (searchFrom tie m steps (k - 1)) fun c => ⟨c, k⟩ := by
  rw [searchFrom]
  cases (Grid.ofPower k).hit? tie m with
  | some c => rfl
  | none => rfl

/-- A walk that gets to a fine grid ends with a point in reach. -/
theorem searchFrom_reaches (tie : Tie) {steps : ℕ} {k : ℤ}
    (h : ∃ j < steps, (Grid.ofPower (k - j)).IsFine m) :
    0 < (searchFrom tie m steps k).coeff ∧
      (Grid.ofPower (searchFrom tie m steps k).power).reaches m
        (searchFrom tie m steps k).coeff := by
  induction steps generalizing k with
  | zero =>
    obtain ⟨j, hj, -⟩ := h
    exact absurd hj (Nat.not_lt_zero j)
  | succ steps ih =>
    rw [searchFrom_succ]
    cases hhit : (Grid.ofPower k).hit? tie m with
    | some c => exact Grid.reaches_of_hit hhit
    | none =>
      obtain ⟨j, hj, hfine⟩ := h
      cases j with
      | zero =>
        rw [Nat.cast_zero, Int.sub_zero] at hfine
        obtain ⟨c, hc⟩ := Grid.exists_hit tie hfine
        exact nomatch hhit.symm.trans hc
      | succ j =>
        refine ih ⟨j, Nat.lt_of_succ_lt_succ hj, ?_⟩
        have hstep : k - 1 - (j : ℤ) = k - ((j + 1 : ℕ) : ℤ) := by
          push_cast
          omega
        rw [hstep]
        exact hfine

/-- **The shortest digits are those of a point in reach.** -/
theorem shortest_reaches (tie : Tie) (hpos : 0 < m.coeff) (hcoeff : m.coeff < 2 ^ 53)
    (hshift : m.shift < 2 ^ 11) :
    0 < (shortest tie m).coeff ∧
      (Grid.ofPower (shortest tie m).power).reaches m (shortest tie m).coeff :=
  searchFrom_reaches tie ⟨39, by decide, isFine_of_bitLength hpos hcoeff hshift⟩

end

namespace Magnitude

/-- Coefficients have at most 53 bits. -/
theorem coeff_ofFloat_lt (x : Float) : (ofFloat x).coeff < 2 ^ 53 := by
  unfold ofFloat
  have hfraction : x.toBits.toNat % Nat.pow 2 52 < 2 ^ 52 := Nat.mod_lt _ (by decide)
  dsimp only
  split
  · show x.toBits.toNat % Nat.pow 2 52 < 2 ^ 53
    omega
  · show Nat.pow 2 52 + x.toBits.toNat % Nat.pow 2 52 < 2 ^ 53
    simp only [Nat.pow_eq] at hfraction ⊢
    omega

theorem shift_ofFloat_lt (x : Float) : (ofFloat x).shift < 2 ^ 11 := by
  unfold ofFloat
  have hexponent : x.toBits.toNat / Nat.pow 2 52 % Nat.pow 2 11 < 2 ^ 11 := Nat.mod_lt _ (by decide)
  dsimp only
  split
  · exact Nat.pow_pos (by decide)
  · exact (Nat.sub_le _ 1).trans_lt hexponent

end Magnitude

/-- The digits that a float other than zero is printed with are not zero. -/
theorem coeff_shortest_pos (tie : Tie) {x : Float} (h : (Magnitude.ofFloat x).coeff ≠ 0) :
    0 < (shortest tie (Magnitude.ofFloat x)).coeff :=
  (shortest_reaches tie (Nat.pos_of_ne_zero h) (Magnitude.coeff_ofFloat_lt x)
    (Magnitude.shift_ofFloat_lt x)).1

end Decimal
end TripleBarrier
