import Mathlib
import TripleBarrier.Json.Number
import TripleBarrier.Proofs.Rounding
import TripleBarrier.Proofs.ShortestDigits

/-!
# Scaling by a power of ten

A whole number of at most 53 bits is a float, and so are the powers of ten up to the
twenty-second.  So such a number is scaled by such a power with a single rounding, which finds
every magnitude that the exact result rounds to.  That is what the points of a decimal grid do
that are in reach of a magnitude.

## Main definitions

* `Magnitude.value` — the number that a magnitude stands for.
* `IsExactly` — a float is exactly a number.

## Main results

* `Grid.holds_of_reaches` — a decimal in reach of a magnitude rounds to it.
* `isExactly_ofNat`, `isExactly_powerOfTen` — whole numbers and powers of ten that are floats.
* `exists_scale_of_holds` — **scaling rounds once.**
-/

namespace TripleBarrier

open Decimal Float.Model UnpackedFloat

/-! ### Decimals near a magnitude -/

namespace Decimal

/-- The number that a magnitude stands for. -/
def Magnitude.value (m : Magnitude) : ℚ :=
  m.coeff * 2 ^ m.exponent

/-- A magnitude rounds to itself. -/
theorem Magnitude.holds_value (m : Magnitude) : m.Holds m.value := by
  have hvalue : m.value / 2 ^ m.exponent = m.coeff :=
    mul_div_cancel_right₀ _ (by positivity)
  constructor
  · rw [hvalue]
    exact .inl ⟨sub_lt_self _ (by norm_num), lt_add_of_pos_right _ (by norm_num)⟩
  · intro _ hcoeff
    rw [hvalue, hcoeff]
    norm_num

/-- The place of a grid point in units of the last place of a magnitude. -/
theorem Grid.place_eq (m : Magnitude) (k : ℤ) (c : ℕ) :
    (((Grid.ofPower k).point * c : ℕ) : ℚ) =
      (Grid.ofPower k).scale * (4 * 2 ^ m.shift * (c * 10 ^ k / 2 ^ m.exponent)) := by
  have hexponent : (2 : ℚ) ^ m.exponent = 2 ^ m.shift / 2 ^ 1074 := by
    rw [Magnitude.exponent, zpow_sub₀ (by norm_num)]
    rfl
  have hquarter : (2 : ℚ) ^ 1076 = 4 * 2 ^ 1074 := by
    rw [pow_add _ 2 1074]
    norm_num
  rw [hexponent, ten_zpow_eq_div, Grid.ofPower]
  simp only [Nat.pow_eq, Nat.cast_mul, Nat.cast_pow, Nat.cast_ofNat]
  rw [hquarter]
  field_simp

/-- How far below a magnitude the numbers that round to it go, in units of the last place. -/
def Magnitude.slack (m : Magnitude) : ℚ :=
  if m.coeff = 2 ^ 52 ∧ 0 < m.shift then 1 / 4 else 1 / 2

theorem Magnitude.cast_high (m : Magnitude) :
    (m.high : ℚ) = 4 * 2 ^ m.shift * (m.coeff + 1 / 2) := by
  unfold Magnitude.high Magnitude.quarters Magnitude.gapAbove
  simp only [Nat.pow_eq]
  push_cast
  ring

theorem Magnitude.cast_low {m : Magnitude} (hpos : 0 < m.coeff) :
    (m.low : ℚ) = 4 * 2 ^ m.shift * (m.coeff - m.slack) := by
  have hunit : 2 ^ m.shift ≤ m.coeff * 2 ^ m.shift := Nat.le_mul_of_pos_left _ hpos
  unfold Magnitude.low Magnitude.gapBelow Magnitude.slack Magnitude.quarters
  simp only [Nat.pow_eq, mul_assoc]
  split_ifs with hbelow
  · rw [Nat.cast_sub (by omega)]
    push_cast
    ring
  · rw [Nat.cast_sub (by omega)]
    push_cast
    ring

section
variable {m : Magnitude} (hpos : 0 < m.coeff) {k : ℤ} {c : ℕ} (h : (Grid.ofPower k).reaches m c)
  {y : ℚ} (hy : (c * 10 ^ k : ℚ) / 2 ^ m.exponent = y)
include hpos h hy

/-- A point in reach lies between the ends of what rounds to a magnitude, and at an end only if the
coefficient is even. -/
theorem Grid.bounds_of_reaches :
    (m.coeff - m.slack ≤ y ∧ y ≤ m.coeff + 1 / 2) ∧
      (m.coeff % 2 = 0 ∨ m.coeff - m.slack < y ∧ y < m.coeff + 1 / 2) := by
  have hscale : (0 : ℚ) < (Grid.ofPower k).scale * (4 * 2 ^ m.shift) :=
    mul_pos (Nat.cast_pos.mpr (Nat.pow_pos (by decide))) (by positivity)
  have hlow : (((Grid.ofPower k).scale * m.low : ℕ) : ℚ) =
      (Grid.ofPower k).scale * (4 * 2 ^ m.shift) * (m.coeff - m.slack) := by
    rw [Nat.cast_mul, Magnitude.cast_low hpos, ← mul_assoc]
  have hhigh : (((Grid.ofPower k).scale * m.high : ℕ) : ℚ) =
      (Grid.ofPower k).scale * (4 * 2 ^ m.shift) * (m.coeff + 1 / 2) := by
    rw [Nat.cast_mul, Magnitude.cast_high, ← mul_assoc]
  have hplace := Grid.place_eq m k c
  rw [hy, ← mul_assoc] at hplace
  unfold Grid.reaches at h
  dsimp only at h
  split at h
  · next heven =>
    rw [Bool.and_eq_true, decide_eq_true_iff, decide_eq_true_iff, ← @Nat.cast_le ℚ,
      ← @Nat.cast_le ℚ, hlow, hhigh, hplace, mul_le_mul_iff_right₀ hscale,
      mul_le_mul_iff_right₀ hscale] at h
    exact ⟨h, .inl (beq_iff_eq.mp heven)⟩
  · rw [Bool.and_eq_true, decide_eq_true_iff, decide_eq_true_iff, ← @Nat.cast_lt ℚ,
      ← @Nat.cast_lt ℚ, hlow, hhigh, hplace, mul_lt_mul_iff_right₀ hscale,
      mul_lt_mul_iff_right₀ hscale] at h
    exact ⟨⟨h.1.le, h.2.le⟩, .inr h⟩

/-- A point in reach is nearest to the coefficient. -/
theorem Grid.isNearest_of_reaches : IsNearest y m.coeff := by
  obtain ⟨⟨hlow, hhigh⟩, hends⟩ := Grid.bounds_of_reaches hpos h hy
  have hslack : m.slack ≤ 1 / 2 := by
    unfold Magnitude.slack
    split_ifs
    · norm_num
    · exact le_rfl
  rcases hends with heven | ⟨hlow', hhigh'⟩
  · rcases hhigh.lt_or_eq with hlt | heq
    · rcases (show (m.coeff : ℚ) - 1 / 2 ≤ y by linarith).lt_or_eq with hgt | heq
      · exact .inl ⟨hgt, hlt⟩
      · exact .inr ⟨heven, .inl heq.symm⟩
    · exact .inr ⟨heven, .inr heq⟩
  · exact .inl ⟨by linarith, hhigh'⟩

end

/-- **A point that is in reach of a magnitude rounds to it.** -/
theorem Grid.holds_of_reaches {m : Magnitude} (hpos : 0 < m.coeff) {k : ℤ} {c : ℕ}
    (h : (Grid.ofPower k).reaches m c) : m.Holds (c * 10 ^ k) where
  isNearest := Grid.isNearest_of_reaches hpos h rfl
  below hshift hcoeff := by
    have hlow := (Grid.bounds_of_reaches hpos h rfl).1.1
    rw [Magnitude.slack, if_pos ⟨hcoeff, hshift⟩, hcoeff] at hlow
    exact_mod_cast hlow

end Decimal

/-! ### Exact floats -/

/-- A float is exactly a positive number, with all bits that a mantissa can have. -/
def IsExactly (x : Float) (v : ℚ) : Prop :=
  ∃ m : Magnitude, m.IsCanonical ∧ 2 ^ 52 ≤ m.coeff ∧ m.value = v ∧
    x.toModel.unpack = numberOf .positive m.coeff m.exponent

/-- A number that is packed is unpacked again. -/
theorem unpack_ofModel_pack {m : Magnitude} (hm : m.IsCanonical) {a : UnpackedFloat} {s : Sign}
    (h : a = numberOf s m.coeff m.exponent) :
    (Float.ofModel (Float.Model.pack a)).toModel.unpack = numberOf s m.coeff m.exponent := by
  rw [h]
  exact unpack_pack_numberOf hm s

theorem isFinite_of_unpack_eq {x : Float} {s : Sign} {m : ℕ} {e : ℤ}
    (h : x.toModel.unpack = numberOf s m e) : x.isFinite := by
  show x.toModel.unpack.isFinite
  rw [h]
  exact isFinite_numberOf s m e

/-- An exact float is seen as a mantissa with its hidden bit, times a power of two. -/
theorem IsExactly.exists_unpack {x : Float} {v : ℚ} (hx : IsExactly x v) :
    ∃ (p : ℕ) (e : ℤ) (hpos : 0 < p), 2 ^ 52 ≤ p ∧ (p * 2 ^ e : ℚ) = v ∧
      x.toModel.unpack = .finite .positive p e hpos := by
  obtain ⟨p, -, hbits, hvalue, hunpack⟩ := hx
  have hpos : 0 < p.coeff := Nat.pos_of_ne_zero (by omega)
  rw [numberOf, dif_pos hpos] at hunpack
  exact ⟨p.coeff, p.exponent, hpos, hbits, hvalue, hunpack⟩

section
variable {x y : Float} {v w : ℚ} {m : Magnitude} (hx : IsExactly x v) (hy : IsExactly y w)
  (hm : m.IsCanonical)
include hx hy hm

/-- The product of exact floats is the exact product, rounded. -/
theorem unpack_mul_of_holds (h : m.Holds (v * w)) :
    (x * y).toModel.unpack = numberOf .positive m.coeff m.exponent := by
  obtain ⟨p, e, hpos, hbits, rfl, hpx⟩ := hx.exists_unpack
  obtain ⟨q, f, hpos', -, rfl, hqy⟩ := hy.exists_unpack
  have hwide : 2 ^ 52 ≤ p * q := hbits.trans (Nat.le_mul_of_pos_right _ hpos')
  apply unpack_ofModel_pack hm
  rw [hpx, hqy]
  exact mul_of_holds hpos hpos' hm h hwide .positive .positive

/-- The quotient of exact floats is the exact quotient, rounded. -/
theorem unpack_div_of_holds (h : m.Holds (v / w)) :
    (x / y).toModel.unpack = numberOf .positive m.coeff m.exponent := by
  obtain ⟨p, e, hpos, -, rfl, hpx⟩ := hx.exists_unpack
  obtain ⟨q, f, hpos', -, rfl, hqy⟩ := hy.exists_unpack
  apply unpack_ofModel_pack hm
  rw [hpx, hqy]
  exact div_of_holds hpos hpos' hm h .positive .positive

end

/-- A float is exactly a whole number if its bits say so. -/
theorem isExactly_of_bits {x : Float} {n : ℕ} (h : x.isFinite ∧ isNegative x = false ∧
    2 ^ 52 ≤ (Magnitude.ofFloat x).coeff ∧
    (Magnitude.ofFloat x).coeff * 2 ^ (Magnitude.ofFloat x).shift = n * 2 ^ 1074) :
    IsExactly x n := by
  obtain ⟨hfinite, hsign, hbits, hvalue⟩ := h
  refine ⟨_, Magnitude.isCanonical_ofFloat hfinite, hbits, ?_, ?_⟩
  · have hscale : (2 : ℚ) ^ (Magnitude.ofFloat x).exponent =
        (2 ^ (Magnitude.ofFloat x).shift : ℕ) / (2 ^ 1074 : ℕ) :=
      two_zpow_sub _ 1074
    rw [Magnitude.value, hscale, ← mul_div_assoc, div_eq_iff (by positivity), ← Nat.cast_mul,
      hvalue, Nat.cast_mul]
  · rw [unpack_eq_numberOf hfinite, signOf, hsign]
    rfl

/-- A sign is put before a number. -/
theorem unpack_neg {x : Float} {m : Magnitude} (hm : m.IsCanonical)
    (h : x.toModel.unpack = numberOf .positive m.coeff m.exponent) :
    (-x).toModel.unpack = numberOf .negative m.coeff m.exponent := by
  apply unpack_ofModel_pack hm
  rw [h]
  exact neg_numberOf .positive m.coeff m.exponent

/-! ### Whole numbers -/

/-- The magnitude of a whole number that has at most 53 bits. -/
def Decimal.Magnitude.ofWhole (n : ℕ) : Magnitude :=
  ⟨n * 2 ^ (52 - n.log2), 1022 + n.log2⟩

section
variable {n : ℕ} (hpos : 0 < n) (hlt : n < 2 ^ 53)
include hpos hlt

theorem log2_le_of_lt : n.log2 ≤ 52 := by
  have hlog : n.log2 < 53 := (Nat.log2_lt hpos.ne').mpr hlt
  omega

theorem coeff_ofWhole_bounds :
    2 ^ 52 ≤ (Magnitude.ofWhole n).coeff ∧ (Magnitude.ofWhole n).coeff < 2 ^ 53 := by
  have hlog := log2_le_of_lt hpos hlt
  constructor
  · calc 2 ^ 52 = 2 ^ n.log2 * 2 ^ (52 - n.log2) := by rw [← pow_add, Nat.add_sub_cancel' hlog]
      _ ≤ n * 2 ^ (52 - n.log2) := Nat.mul_le_mul_right _ (Nat.log2_self_le hpos.ne')
  · calc n * 2 ^ (52 - n.log2) < 2 ^ (n.log2 + 1) * 2 ^ (52 - n.log2) :=
          Nat.mul_lt_mul_of_pos_right Nat.lt_log2_self (by positivity)
      _ = 2 ^ 53 := by
          rw [← pow_add]
          congr 1
          omega

theorem isCanonical_ofWhole : (Magnitude.ofWhole n).IsCanonical where
  coeff_lt := (coeff_ofWhole_bounds hpos hlt).2
  hidden _ := (coeff_ofWhole_bounds hpos hlt).1
  shift_le := by
    have hlog := log2_le_of_lt hpos hlt
    show 1022 + n.log2 ≤ 2045
    omega

theorem value_ofWhole : (Magnitude.ofWhole n).value = n := by
  have hlog := log2_le_of_lt hpos hlt
  have hexponent : (((52 - n.log2 : ℕ) : ℤ) + (Magnitude.ofWhole n).exponent) = 0 := by
    unfold Magnitude.exponent Magnitude.ofWhole
    dsimp only
    omega
  rw [Magnitude.value]
  show ((n * 2 ^ (52 - n.log2) : ℕ) : ℚ) * _ = n
  rw [Nat.cast_mul, Nat.cast_pow, Nat.cast_ofNat, mul_assoc, ← zpow_natCast,
    ← zpow_add₀ (by norm_num), hexponent, zpow_zero, mul_one]

/-- The number is converted by taking its exponent down until the mantissa has all bits. -/
theorem ofNat_eq_numberOf : UnpackedFloat.ofNat Format.binary64 n =
    numberOf .positive (Magnitude.ofWhole n).coeff (Magnitude.ofWhole n).exponent := by
  have hlog := log2_le_of_lt hpos hlt
  have hm := isCanonical_ofWhole hpos hlt
  have hdecrease : decreaseExponent n 0 (Format.binary64.targetExponent (totalExponent n 0)) =
      ((Magnitude.ofWhole n).coeff, (Magnitude.ofWhole n).exponent) := by
    have hamount : (0 - Format.binary64.targetExponent (totalExponent n 0)).toNat =
        52 - n.log2 := by
      rw [targetExponent_eq, totalExponent]
      omega
    unfold decreaseExponent
    dsimp only
    rw [hamount, Nat.shiftLeft_eq]
    refine Prod.ext rfl ?_
    unfold Magnitude.exponent Magnitude.ofWhole
    dsimp only
    omega
  have hround : UnpackedFloat.ofNat Format.binary64 n =
      roundWithAccuracy Format.binary64 .positive (Magnitude.ofWhole n).coeff
        (Magnitude.ofWhole n).exponent .exact := by
    unfold UnpackedFloat.ofNat UnpackedFloat.ofInt UnpackedFloat.normalize
    rw [Int.compare_eq_gt.mpr (by exact_mod_cast hpos)]
    dsimp only
    rw [Int.toNat_natCast]
    unfold Float.Model.UnpackedFloat.round
    dsimp only
    rw [hdecrease]
  have hself : Represents (.ofMantissaAndAccuracy (Magnitude.ofWhole n).coeff .exact)
      ((Magnitude.ofWhole n).value / 2 ^ (Magnitude.ofWhole n).exponent) := by
    rw [Magnitude.value, mul_div_cancel_right₀ _ (by positivity)]
    exact represents_exact _
  rw [hround]
  refine roundWithAccuracy_of_holds hself ?_ hm (Magnitude.holds_value _) .positive
  have hbits := (coeff_ofWhole_bounds hpos hlt).1
  have hfull : 52 ≤ (Magnitude.ofWhole n).coeff.log2 := (Nat.le_log2 (by omega)).mpr hbits
  rw [targetExponent_eq, totalExponent]
  omega

/-- A machine word that has at most 53 bits is converted exactly. -/
theorem isExactly_toFloat_toUInt64 : IsExactly n.toUInt64.toFloat n := by
  have hcanonical := isCanonical_ofWhole hpos hlt
  have hsize : n.toUInt64.toNat = n := by
    rw [Nat.toUInt64_eq, UInt64.toNat_ofNat', Nat.mod_eq_of_lt (by omega)]
  refine ⟨_, hcanonical, (coeff_ofWhole_bounds hpos hlt).1, value_ofWhole hpos hlt, ?_⟩
  apply unpack_ofModel_pack hcanonical
  rw [← ofNat_eq_numberOf hpos hlt]
  exact congrArg _ hsize

/-- **A whole number that has at most 53 bits is converted exactly.** -/
theorem isExactly_ofNat : IsExactly (Float.ofNat n) n := by
  have hcanonical := isCanonical_ofWhole hpos hlt
  have hvalue := value_ofWhole hpos hlt
  have hone : IsExactly (Float.ofBits 0x3FF0000000000000) (1 : ℕ) :=
    isExactly_of_bits (by decide +kernel)
  have hofNat : Float.ofNat n = n.toUInt64.toFloat * Float.ofBits 0x3FF0000000000000 := by
    unfold Float.ofNat
    show Float.ofScientific n false 0 = _
    rw [Float.ofScientific, dif_pos ⟨hlt, by decide⟩]
    rfl
  refine ⟨_, hcanonical, (coeff_ofWhole_bounds hpos hlt).1, hvalue, ?_⟩
  rw [hofNat]
  apply unpack_mul_of_holds (isExactly_toFloat_toUInt64 hpos hlt) hone hcanonical
  rw [Nat.cast_one, mul_one, ← hvalue]
  exact Magnitude.holds_value _

end

/-! ### Powers of ten -/

open Json.Literal

/-- **The powers of ten up to the twenty-second are floats.** -/
theorem isExactly_powerOfTen {k : ℕ} (hk : k ≤ 22) : IsExactly (powerOfTen k) (10 ^ k : ℕ) := by
  have hpowers : ∀ k : Fin 23, (powerOfTen k).isFinite ∧ isNegative (powerOfTen k) = false ∧
      2 ^ 52 ≤ (Magnitude.ofFloat (powerOfTen k)).coeff ∧
      (Magnitude.ofFloat (powerOfTen k)).coeff * 2 ^ (Magnitude.ofFloat (powerOfTen k)).shift =
        10 ^ k.val * 2 ^ 1074 := by
    decide +kernel
  exact isExactly_of_bits (hpowers ⟨k, Nat.lt_succ_of_le hk⟩)

/-! ### Scaling -/

/-- **A number of at most 53 bits, scaled by a power of ten that is a float, is rounded once.** -/
theorem exists_scale_of_holds {n : ℕ} (hpos : 0 < n) (hlt : n < 2 ^ 53) {e : ℤ}
    (he : e.natAbs ≤ 22) {m : Magnitude} (hm : m.IsCanonical) (h : m.Holds (n * 10 ^ e)) :
    ∃ x, scale 4 (Float.ofNat n) e = some x ∧
      x.toModel.unpack = numberOf .positive m.coeff m.exponent := by
  have hn := isExactly_ofNat hpos hlt
  have hten := isExactly_powerOfTen he
  rw [scale, if_pos (he.trans (by decide))]
  cases e with
  | ofNat k =>
    have hproduct : (Float.ofNat n * powerOfTen k).toModel.unpack =
        numberOf .positive m.coeff m.exponent := by
      apply unpack_mul_of_holds hn hten hm
      rw [Int.natAbs_ofNat', Nat.cast_pow]
      exact h
    refine ⟨_, ?_, hproduct⟩
    rw [if_pos (show 0 ≤ Int.ofNat k from Int.natCast_nonneg k)]
    dsimp only [Int.natAbs_ofNat']
    rw [isInf_of_isFinite (isFinite_of_unpack_eq hproduct)]
    rfl
  | negSucc k =>
    refine ⟨_, if_neg (Int.negSucc_not_nonneg k).mp, ?_⟩
    apply unpack_div_of_holds hn hten hm
    rw [zpow_negSucc, ← div_eq_mul_inv] at h
    rw [Int.natAbs_negSucc, Nat.cast_pow, Nat.cast_ofNat]
    exact h

end TripleBarrier
