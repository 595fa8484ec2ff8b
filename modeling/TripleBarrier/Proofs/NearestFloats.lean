import Mathlib
import TripleBarrier.Decimal.Nearest
import TripleBarrier.Proofs.Scaling

/-!
# Decimals read as floats

A numeral with few digits and a small power of ten is the product or quotient of two exact floats,
any other one is scaled as a mantissa of any length.  Either way there is a single rounding, so
what is read is the float whose magnitude the numeral rounds to.  Numerals that are settled by
their size alone are none of those: whatever rounds to a magnitude other than zero lies between `2
^ -1075` and `2 ^ 1024`.

## Main results

* `digitCount_add_bounds` — the size of a decimal that rounds to a magnitude.
* `unpack_ofScientific_of_holds` — a decimal within the bounds is rounded once.
* `unpack_nearest_of_holds` — **a decimal is read as the float that it rounds to.**
-/

namespace TripleBarrier
namespace Decimal

open Float.Model UnpackedFloat

/-! ### Digits and sizes -/

theorem digitCount_pos (n : ℕ) : 0 < digitCount n :=
  Nat.length_toDigits_pos

/-- A number has at most `k` digits exactly if it lies below the `k`-th power of ten. -/
theorem digitCount_le_iff {n k : ℕ} (hk : 0 < k) : digitCount n ≤ k ↔ n < 10 ^ k :=
  Nat.length_toDigits_le_iff (by decide) hk

theorem lt_ten_pow_digitCount (n : ℕ) : n < 10 ^ digitCount n :=
  (digitCount_le_iff (digitCount_pos n)).mp le_rfl

theorem ten_pow_le {n : ℕ} (hn : 0 < n) : 10 ^ (digitCount n - 1) ≤ n := by
  rcases Nat.eq_zero_or_pos (digitCount n - 1) with hone | hmore
  · rw [hone, pow_zero]
    exact hn
  · by_contra hlt
    have hle := (digitCount_le_iff hmore).mpr (Nat.not_le.mp hlt)
    omega

/-- A number has no more decimal digits than binary ones. -/
theorem digitCount_le_log2 (n : ℕ) : digitCount n ≤ n.log2 + 1 := by
  rw [digitCount_le_iff (Nat.succ_pos _)]
  calc n < 2 ^ (n.log2 + 1) := Nat.lt_log2_self
    _ ≤ 10 ^ (n.log2 + 1) := Nat.pow_le_pow_left (by decide) _

/-! ### The size of what rounds to a magnitude -/

theorem two_zpow_lt_ten_zpow : (2 : ℚ) ^ (1024 : ℤ) < 10 ^ (400 : ℤ) := by
  have hinverse : (10 : ℚ) ^ (-400 : ℤ) < 2 ^ (-1024 : ℤ) :=
    ten_zpow_lt_two_zpow nofun fun _ => by decide
  rwa [zpow_neg, zpow_neg, inv_lt_inv₀ (by positivity) (by positivity)] at hinverse

section
variable {m : Magnitude} (hm : m.IsCanonical) {x : ℚ} (h : m.Holds x)
include hm h

theorem Magnitude.Holds.lt_two_pow : x < 2 ^ (1024 : ℤ) := by
  have hexponent : 53 + m.exponent ≤ 1024 := by
    have hshift := hm.shift_le
    unfold Magnitude.exponent
    omega
  calc x < 2 ^ (53 : ℤ) * 2 ^ m.exponent := by
        rw [← div_lt_iff₀ (by positivity)]
        exact_mod_cast h.lt hm
    _ = 2 ^ (53 + m.exponent) := (zpow_add₀ (by norm_num) _ _).symm
    _ ≤ 2 ^ (1024 : ℤ) := zpow_le_zpow_right₀ (by norm_num) hexponent

omit hm in
theorem Magnitude.Holds.two_pow_le (hpos : 0 < m.coeff) : 2 ^ (-1075 : ℤ) ≤ x := by
  have hexponent : -1075 ≤ -1 + m.exponent := by
    unfold Magnitude.exponent
    omega
  have hhalf : (1 / 2 : ℚ) ≤ x / 2 ^ m.exponent := by
    have hone : (1 : ℚ) ≤ m.coeff := by exact_mod_cast hpos
    have hlow := h.isNearest.le.1
    linarith
  calc (2 : ℚ) ^ (-1075 : ℤ) ≤ 2 ^ (-1 + m.exponent) :=
        zpow_le_zpow_right₀ (by norm_num) hexponent
    _ = 1 / 2 * 2 ^ m.exponent := by
        rw [zpow_add₀ (by norm_num)]
        norm_num
    _ ≤ x := (le_div_iff₀ (by positivity)).mp hhalf

end

section
variable {m : Magnitude} (hm : m.IsCanonical) (hpos : 0 < m.coeff) {n : ℕ} (hn : 0 < n) {e : ℤ}
  (h : m.Holds (n * 10 ^ e))
include hm hpos hn h

/-- **The size of a decimal that rounds to a magnitude is not extreme.** -/
theorem digitCount_add_bounds : -400 ≤ digitCount n + e ∧ digitCount n + e ≤ 400 := by
  have hlow : (10 : ℚ) ^ (-400 : ℤ) < 10 ^ (digitCount n + e) :=
    calc (10 : ℚ) ^ (-400 : ℤ) < 2 ^ (-1075 : ℤ) := ten_zpow_lt_two_zpow nofun fun _ => by decide
      _ ≤ n * 10 ^ e := h.two_pow_le hpos
      _ < 10 ^ digitCount n * 10 ^ e := by
        have hdigits : (n : ℚ) < 10 ^ digitCount n := by exact_mod_cast lt_ten_pow_digitCount n
        exact mul_lt_mul_of_pos_right hdigits (by positivity)
      _ = 10 ^ (digitCount n + e) := by rw [zpow_add₀ (by norm_num), zpow_natCast]
  have hhigh : (10 : ℚ) ^ (digitCount n - 1 + e) < 10 ^ (400 : ℤ) :=
    calc (10 : ℚ) ^ (digitCount n - 1 + e) = 10 ^ (digitCount n - 1) * 10 ^ e := by
          rw [← zpow_natCast, ← zpow_add₀ (by norm_num), Nat.cast_sub (digitCount_pos n)]
          rfl
      _ ≤ n * 10 ^ e := by
        have hdigits : (10 : ℚ) ^ (digitCount n - 1) ≤ n := by exact_mod_cast ten_pow_le hn
        exact mul_le_mul_of_nonneg_right hdigits (by positivity)
      _ < 2 ^ (1024 : ℤ) := h.lt_two_pow hm
      _ < 10 ^ (400 : ℤ) := two_zpow_lt_ten_zpow
  have hlow' := (zpow_lt_zpow_iff_right₀ (by norm_num)).mp hlow
  have hhigh' := (zpow_lt_zpow_iff_right₀ (by norm_num)).mp hhigh
  omega

end

/-! ### One rounding -/

theorem bits_exactlyRepresentable : ∀ k : Fin Float.exactlyRepresentablePowersOfTen.size,
    Float.exactlyRepresentablePowersOfTen[k].isFinite ∧
    isNegative Float.exactlyRepresentablePowersOfTen[k] = false ∧
    2 ^ 52 ≤ (Magnitude.ofFloat Float.exactlyRepresentablePowersOfTen[k]).coeff ∧
    (Magnitude.ofFloat Float.exactlyRepresentablePowersOfTen[k]).coeff *
        2 ^ (Magnitude.ofFloat Float.exactlyRepresentablePowersOfTen[k]).shift =
      10 ^ k.val * 2 ^ 1074 := by
  decide +kernel

/-- The powers of ten that decimals of few digits are scaled by are exact. -/
theorem isExactly_exactlyRepresentable {k : ℕ}
    (hk : k < Float.exactlyRepresentablePowersOfTen.size) :
    IsExactly Float.exactlyRepresentablePowersOfTen[k] (10 ^ k : ℕ) :=
  isExactly_of_bits (bits_exactlyRepresentable ⟨k, hk⟩)

section
variable {m : Magnitude} (hm : m.IsCanonical) {n : ℕ} (hn : 0 < n) {e : ℤ}
  (h : m.Holds (n * 10 ^ e))
include hm hn h

/-- A mantissa of any length is scaled and rounded once. -/
theorem ofScientific_of_holds (hbelow : e ≤ 2 ^ 11) (habove : -(2 ^ 11 + n.log2) ≤ e) :
    UnpackedFloat.ofScientific Format.binary64 n e = numberOf .positive m.coeff m.exponent := by
  unfold UnpackedFloat.ofScientific
  rw [dif_neg hn.ne', if_neg (Int.not_lt.mpr hbelow), if_neg (Int.not_lt.mpr habove)]
  have hten := ten_zpow_eq_div e
  split
  · next he =>
    have hdenominator : (-e).toNat = 0 := by omega
    have hmantissa : (n : ℚ) = (n <<< 53 : ℕ) * 2 ^ (-53 : ℤ) := by
      rw [Nat.shiftLeft_eq, Nat.cast_mul, mul_assoc]
      norm_num
    rw [hdenominator, pow_zero, Nat.cast_one, div_one] at hten
    rw [hten, hmantissa, ← mul_one ((10 ^ e.toNat : ℕ) : ℚ), ← zpow_zero 2] at h
    refine mul_of_holds _ _ hm h ?_ .positive .positive
    calc 2 ^ 52 ≤ n * 2 ^ 53 := by omega
      _ = n <<< 53 := (Nat.shiftLeft_eq n 53).symm
      _ ≤ n <<< 53 * 10 ^ e.toNat := Nat.le_mul_of_pos_right _ (Nat.pow_pos (by decide))
  · next he =>
    have hnumerator : e.toNat = 0 := by omega
    rw [hnumerator, pow_zero, Nat.cast_one, one_div] at hten
    rw [hten, ← div_eq_mul_inv, ← mul_one (n : ℚ), ← mul_one ((10 ^ (-e).toNat : ℕ) : ℚ),
      ← zpow_zero 2] at h
    exact div_of_holds _ _ hm h .positive .positive

/-- **A decimal within the bounds is rounded once**, whichever way it is scaled. -/
theorem unpack_ofScientific_of_holds (hbelow : e ≤ 2 ^ 11) (habove : -(2 ^ 11 + n.log2) ≤ e) :
    (Float.ofScientific n (e < 0) e.natAbs).toModel.unpack =
      numberOf .positive m.coeff m.exponent := by
  unfold Float.ofScientific
  split
  · next hsmall =>
    have hdigits := isExactly_toFloat_toUInt64 hn hsmall.1
    have hpower := isExactly_exactlyRepresentable (Nat.lt_succ_of_le hsmall.2)
    dsimp only
    split
    · next hneg =>
      rw [decide_eq_true_iff] at hneg
      apply unpack_div_of_holds hdigits hpower hm
      rwa [ten_zpow_eq_div, show e.toNat = 0 by omega, show (-e).toNat = e.natAbs by omega,
        pow_zero, Nat.cast_one, one_div, ← div_eq_mul_inv] at h
    · next hneg =>
      rw [decide_eq_true_iff] at hneg
      apply unpack_mul_of_holds hdigits hpower hm
      rwa [ten_zpow_eq_div, show e.toNat = e.natAbs by omega, show (-e).toNat = 0 by omega,
        pow_zero, Nat.cast_one, div_one] at h
  · have hpower :
        (if decide (e < 0) = true then Int.negOfNat e.natAbs else Int.ofNat e.natAbs) = e := by
      split
      · next hneg =>
        rw [decide_eq_true_iff] at hneg
        rw [Int.negOfNat_eq]
        show -((e.natAbs : ℕ) : ℤ) = e
        omega
      · next hneg =>
        rw [decide_eq_true_iff] at hneg
        show ((e.natAbs : ℕ) : ℤ) = e
        omega
    dsimp only
    rw [hpower]
    exact unpack_ofModel_pack hm (ofScientific_of_holds hm hn h hbelow habove)

end

/-- **A decimal is read as the float that it rounds to.** -/
theorem unpack_nearest_of_holds {m : Magnitude} (hm : m.IsCanonical) (hpos : 0 < m.coeff) {n : ℕ}
    (hn : 0 < n) {e : ℤ} (h : m.Holds (n * 10 ^ e)) :
    (nearest n e).toModel.unpack = numberOf .positive m.coeff m.exponent := by
  obtain ⟨hlow, hhigh⟩ := digitCount_add_bounds hm hpos hn h
  have hdigits := digitCount_pos n
  have hbits := digitCount_le_log2 n
  unfold nearest
  dsimp only
  rw [if_neg hn.ne', if_neg (Int.not_lt.mpr hhigh), if_neg (Int.not_lt.mpr hlow)]
  exact unpack_ofScientific_of_holds hm hn h (by omega) (by omega)

end Decimal
end TripleBarrier
