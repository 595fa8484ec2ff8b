import Mathlib
import TripleBarrier.Proofs.FloatBits

/-!
# Rounding to the nearest float

Arithmetic keeps two residual bits behind a mantissa, which tell on which side of the middle between
two whole numbers the exact result lies.  They are enough to find the nearest of these numbers, and
the even one of two that are as near.  So products and quotients of floats are the exact ones,
rounded to the nearest magnitude.

## Main definitions

* `IsNearest` — the nearest whole number.
* `Represents` — what a mantissa with residual bits stands for.
* `Magnitude.Holds` — the numbers that round to a magnitude.

## Main results

* `roundWithAccuracy_of_holds` — rounding finds the magnitude that a number rounds to.
* `mul_of_holds`, `div_of_holds` — **products and quotients are rounded correctly.**
-/

namespace TripleBarrier

open Decimal Float.Model UnpackedFloat

/-! ### Nearest whole numbers -/

/-- A whole number is the nearest one to a number, and the even one if two are as near. -/
def IsNearest (x : ℚ) (n : ℕ) : Prop :=
  (n - 1 / 2 < x ∧ x < n + 1 / 2) ∨ (n % 2 = 0 ∧ (x = n - 1 / 2 ∨ x = n + 1 / 2))

theorem IsNearest.le {x : ℚ} {n : ℕ} (h : IsNearest x n) : n - 1 / 2 ≤ x ∧ x ≤ n + 1 / 2 := by
  rcases h with ⟨hlow, hhigh⟩ | ⟨-, rfl | rfl⟩
  · exact ⟨hlow.le, hhigh.le⟩
  · exact ⟨le_rfl, by linarith⟩
  · exact ⟨by linarith, le_rfl⟩

theorem IsNearest.not_succ_le {x : ℚ} {n n' : ℕ} (h : IsNearest x n) (h' : IsNearest x n') :
    ¬n + 1 ≤ n' := by
  intro hle
  have hcast : (n + 1 : ℚ) ≤ n' := by exact_mod_cast hle
  have hx := h.le.2
  have hx' := h'.le.1
  -- both ends meet, so both numbers are even and one is the next of the other
  have hn : (n' : ℚ) = (n + 1 : ℕ) := by
    push_cast
    linarith
  have hn' : n' = n + 1 := by exact_mod_cast hn
  subst hn'
  rcases h with ⟨-, hhigh⟩ | ⟨heven, -⟩
  · push_cast at hx'
    linarith
  · rcases h' with ⟨hlow, -⟩ | ⟨heven', -⟩
    · push_cast at hlow
      linarith
    · omega

/-- There is one nearest whole number. -/
theorem IsNearest.eq {x : ℚ} {n n' : ℕ} (h : IsNearest x n) (h' : IsNearest x n') : n = n' := by
  have hle := h.not_succ_le h'
  have hle' := h'.not_succ_le h
  omega

/-! ### Mantissas with residual bits -/

/-- The numbers that a mantissa with its two residual bits stands for. -/
def Represents : ExtendedMantissa → ℚ → Prop
  | ⟨m, false, false⟩, x => x = m
  | ⟨m, false, true⟩, x => m < x ∧ x < m + 1 / 2
  | ⟨m, true, false⟩, x => x = m + 1 / 2
  | ⟨m, true, true⟩, x => m + 1 / 2 < x ∧ x < m + 1

section
variable {em : ExtendedMantissa} {x : ℚ} (h : Represents em x)
include h

/-- The mantissa is the whole part. -/
theorem Represents.mantissa_le : (em.mantissa : ℚ) ≤ x ∧ x < em.mantissa + 1 := by
  obtain ⟨m, _ | _, _ | _⟩ := em
  · obtain rfl : x = m := h
    exact ⟨le_rfl, by linarith⟩
  · obtain ⟨hlow, hhigh⟩ : m < x ∧ x < m + 1 / 2 := h
    exact ⟨hlow.le, by dsimp only; linarith⟩
  · obtain rfl : x = m + 1 / 2 := h
    exact ⟨by dsimp only; linarith, by dsimp only; linarith⟩
  · obtain ⟨hlow, hhigh⟩ : m + 1 / 2 < x ∧ x < m + 1 := h
    exact ⟨by dsimp only; linarith, hhigh⟩

/-- **The residual bits decide which whole number is the nearest.** -/
theorem Represents.isNearest : IsNearest x em.roundedMantissa := by
  obtain ⟨m, _ | _, _ | _⟩ := em
  · obtain rfl : x = m := h
    exact .inl ⟨sub_lt_self _ (by norm_num), lt_add_of_pos_right _ (by norm_num)⟩
  · obtain ⟨hlow, hhigh⟩ : m < x ∧ x < m + 1 / 2 := h
    exact .inl ⟨show (m : ℚ) - 1 / 2 < x by linarith, hhigh⟩
  · obtain rfl : x = m + 1 / 2 := h
    have hround : (ExtendedMantissa.mk m true false).roundedMantissa = m + m % 2 := rfl
    rw [hround]
    rcases Nat.mod_two_eq_zero_or_one m with heven | hodd
    · rw [heven]
      exact .inr ⟨heven, .inr rfl⟩
    · rw [hodd]
      refine .inr ⟨by omega, .inl ?_⟩
      push_cast
      ring
  · obtain ⟨hlow, hhigh⟩ : m + 1 / 2 < x ∧ x < m + 1 := h
    have hround : (ExtendedMantissa.mk m true true).roundedMantissa = m + 1 := rfl
    rw [hround]
    refine .inl ⟨?_, ?_⟩
    · push_cast
      linarith
    · push_cast
      linarith

/-- A shift moves the last bit of the mantissa to the residual ones. -/
theorem Represents.shiftRightOne : Represents em.shiftRightOne (x / 2) := by
  obtain ⟨m, r, t⟩ := em
  have hhalf : (m : ℚ) = 2 * (m / 2 : ℕ) + (m % 2 : ℕ) := by
    exact_mod_cast (Nat.div_add_mod m 2).symm
  unfold ExtendedMantissa.shiftRightOne
  rcases Nat.mod_two_eq_zero_or_one m with heven | hodd
  · rw [heven, Nat.cast_zero, add_zero] at hhalf
    rw [heven]
    cases r <;> cases t <;> simp only [Represents, hhalf] at h
    · show _ = _
      linarith
    · exact ⟨by linarith, by linarith⟩
    · exact ⟨by linarith, by linarith⟩
    · exact ⟨by linarith, by linarith⟩
  · rw [hodd, Nat.cast_one] at hhalf
    rw [hodd]
    cases r <;> cases t <;> simp only [Represents, hhalf] at h
    · show _ = _
      linarith
    · exact ⟨by linarith, by linarith⟩
    · exact ⟨by linarith, by linarith⟩
    · exact ⟨by linarith, by linarith⟩

theorem Represents.shiftRight (n : ℕ) : Represents (em >>> n) (x / 2 ^ n) := by
  show Represents (n.repeat ExtendedMantissa.shiftRightOne em) _
  induction n with
  | zero =>
    rw [pow_zero, div_one]
    exact h
  | succ n ih =>
    rw [Nat.repeat, pow_succ, ← div_div]
    exact ih.shiftRightOne

end

/-! ### Exponents -/

theorem mantissa_ofMantissaAndAccuracy (m : ℕ) (a : Accuracy) :
    (ExtendedMantissa.ofMantissaAndAccuracy m a).mantissa = m := by
  cases a with
  | exact => rfl
  | inexact o => cases o <;> rfl

theorem targetExponent_eq (e : ℤ) : Format.binary64.targetExponent e = max (e - 53) (-1074) :=
  rfl

section
variable {m : ℕ} {e : ℤ} {x : ℚ}

theorem lt_two_zpow_totalExponent (h : x / 2 ^ e < m + 1) : x < 2 ^ totalExponent m e := by
  have hlog : (m + 1 : ℚ) ≤ 2 ^ (m.log2 + 1) := by
    exact_mod_cast Nat.lt_log2_self
  rw [totalExponent, zpow_add₀ (by norm_num), ← div_lt_iff₀ (by positivity)]
  exact_mod_cast h.trans_le hlog

theorem two_zpow_totalExponent_le (hm : 0 < m) (h : m ≤ x / 2 ^ e) :
    2 ^ (totalExponent m e - 1) ≤ x := by
  have hlog : (2 ^ m.log2 : ℚ) ≤ m := by
    exact_mod_cast Nat.log2_self_le hm.ne'
  have hexponent : totalExponent m e - 1 = m.log2 + e := by
    unfold totalExponent
    omega
  rw [hexponent, zpow_add₀ (by norm_num), ← le_div_iff₀ (by positivity)]
  exact_mod_cast hlog.trans h

/-- The first shift keeps what is represented, and gets to the exponent of the format. -/
theorem exists_shiftToTargetExponent {a : Accuracy}
    (h : Represents (.ofMantissaAndAccuracy m a) (x / 2 ^ e))
    (he : e ≤ Format.binary64.targetExponent (totalExponent m e)) :
    ∃ em, shiftToTargetExponent Format.binary64 m e a =
        (em, Format.binary64.targetExponent (totalExponent m e)) ∧
      Represents em (x / 2 ^ Format.binary64.targetExponent (totalExponent m e)) := by
  generalize ht : Format.binary64.targetExponent (totalExponent m e) = t at he ⊢
  have hamount : e + ((t - e).toNat : ℕ) = t := by omega
  refine ⟨ExtendedMantissa.ofMantissaAndAccuracy m a >>> (t - e).toNat, ?_, ?_⟩
  · unfold shiftToTargetExponent shiftToExponent
    rw [ht]
    dsimp only
    rw [hamount]
  · have hshift := h.shiftRight (t - e).toNat
    rw [div_div, ← zpow_natCast, ← zpow_add₀ (by norm_num), hamount] at hshift
    exact hshift

/-- A rounded mantissa that fits is not shifted again. -/
theorem shiftToTargetExponent_of_lt (hm : m < 2 ^ 53) (he : -1074 ≤ e) :
    shiftToTargetExponent Format.binary64 m e .exact = (⟨m, false, false⟩, e) := by
  have hlog : m.log2 < 53 := by
    rcases Nat.eq_zero_or_pos m with rfl | hpos
    · decide
    · exact (Nat.log2_lt hpos.ne').mpr hm
  have hamount : (Format.binary64.targetExponent (totalExponent m e) - e).toNat = 0 := by
    rw [targetExponent_eq, totalExponent]
    omega
  unfold shiftToTargetExponent shiftToExponent
  dsimp only
  rw [hamount, Nat.cast_zero, add_zero]
  rfl

/-- A rounded mantissa that takes one bit too many is shifted by that bit. -/
theorem shiftToTargetExponent_carry (he : -1074 ≤ e) :
    shiftToTargetExponent Format.binary64 (2 ^ 53) e .exact = (⟨2 ^ 52, false, false⟩, e + 1) := by
  have hamount : (Format.binary64.targetExponent (totalExponent (2 ^ 53) e) - e).toNat = 1 := by
    rw [targetExponent_eq, totalExponent, Nat.log2_two_pow]
    omega
  unfold shiftToTargetExponent shiftToExponent
  dsimp only
  rw [hamount]
  rfl

end

/-! ### Rounding -/

section
variable {m : ℕ} {e t : ℤ} {a : Accuracy} {em : ExtendedMantissa}

/-- The result is the rounded mantissa, shifted once more. -/
theorem roundWithAccuracy_eq (h : shiftToTargetExponent Format.binary64 m e a = (em, t))
    (s : Sign) :
    roundWithAccuracy Format.binary64 s m e a =
      numberOf s (shiftToTargetExponent Format.binary64 em.roundedMantissa t .exact).1.mantissa
        (shiftToTargetExponent Format.binary64 em.roundedMantissa t .exact).2 := by
  unfold roundWithAccuracy
  rw [h]
  dsimp only
  split_ifs with hzero
  · rw [hzero, numberOf_zero]
  · exact finite_eq_numberOf _ rfl rfl

end

/-! ### Magnitudes -/

namespace Decimal.Magnitude

/-- A number rounds to a magnitude: the coefficient is the nearest whole number of units in
the last place, and below a power of two the number is not nearer to the next magnitude,
which is nearer there. -/
structure Holds (m : Magnitude) (x : ℚ) : Prop where
  isNearest : IsNearest (x / 2 ^ m.exponent) m.coeff
  below : 0 < m.shift → m.coeff = 2 ^ 52 → 2 ^ 52 - 1 / 4 ≤ x / 2 ^ m.exponent

end Decimal.Magnitude

section
variable {M : Magnitude} {x : ℚ} (hM : M.IsCanonical) (hx : M.Holds x)
include hM hx

theorem Decimal.Magnitude.Holds.lt : x / 2 ^ M.exponent < 2 ^ 53 := by
  have hcoeff : (M.coeff + 1 : ℚ) ≤ 2 ^ 53 := by exact_mod_cast hM.coeff_lt
  have hle := hx.isNearest.le.2
  linarith

/-- In units that are half as large, what is below a power of two rounds to it. -/
theorem Decimal.Magnitude.Holds.isNearest_carry (hshift : 0 < M.shift)
    (hlt : x / 2 ^ M.exponent < 2 ^ 52) :
    M.coeff = 2 ^ 52 ∧ IsNearest (x / 2 ^ (M.exponent - 1)) (2 ^ 53) := by
  have hcoeff : M.coeff = 2 ^ 52 := by
    have hle : (M.coeff : ℚ) < (2 ^ 52 + 1 : ℕ) := by
      have hnear := hx.isNearest.le.1
      push_cast
      linarith
    have hhidden := hM.hidden hshift
    have hle' : M.coeff < 2 ^ 52 + 1 := by exact_mod_cast hle
    omega
  have hbelow := hx.below hshift hcoeff
  have hhalf : x / 2 ^ (M.exponent - 1) = 2 * (x / 2 ^ M.exponent) := by
    rw [zpow_sub_one₀ (by norm_num)]
    field_simp
  refine ⟨hcoeff, ?_⟩
  rw [hhalf]
  rcases hbelow.lt_or_eq with hgt | heq
  · left
    constructor
    · push_cast
      linarith
    · push_cast
      linarith
  · refine .inr ⟨by decide, .inl ?_⟩
    push_cast
    linarith

end

section
variable {M : Magnitude} {m : ℕ} {e : ℤ} {a : Accuracy} {x : ℚ}
  (h : Represents (.ofMantissaAndAccuracy m a) (x / 2 ^ e))
  (he : e ≤ Format.binary64.targetExponent (totalExponent m e))
  (hM : M.IsCanonical) (hx : M.Holds x)
include h he hM hx

/-- The format does not want a larger exponent than that of the magnitude. -/
theorem targetExponent_le :
    Format.binary64.targetExponent (totalExponent m e) ≤ M.exponent := by
  have hwhole := h.mantissa_le
  rw [mantissa_ofMantissaAndAccuracy] at hwhole
  rw [targetExponent_eq] at he ⊢
  have hmin : -1074 ≤ M.exponent := by
    unfold Magnitude.exponent
    omega
  rcases Nat.eq_zero_or_pos m with rfl | hpos
  · have hzero : totalExponent 0 e = 1 + e := rfl
    omega
  · have hlow := two_zpow_totalExponent_le hpos hwhole.1
    have hhigh : x < 2 ^ (53 + M.exponent) := by
      rw [zpow_add₀ (by norm_num), ← div_lt_iff₀ (by positivity)]
      exact_mod_cast hx.lt hM
    have hlt := (zpow_lt_zpow_iff_right₀ (by norm_num)).mp (hlow.trans_lt hhigh)
    omega

/-- The format wants the exponent of the magnitude, or the next lower one for a number below a power
of two. -/
theorem targetExponent_cases :
    Format.binary64.targetExponent (totalExponent m e) = M.exponent ∨
      Format.binary64.targetExponent (totalExponent m e) = M.exponent - 1 ∧ 0 < M.shift ∧
        x / 2 ^ M.exponent < 2 ^ 52 := by
  have hle := targetExponent_le h he hM hx
  have hwhole := h.mantissa_le
  rw [mantissa_ofMantissaAndAccuracy] at hwhole
  have hupper := lt_two_zpow_totalExponent hwhole.2
  rw [targetExponent_eq] at hle ⊢
  rcases Nat.eq_zero_or_pos M.shift with hzero | hshift
  · left
    unfold Magnitude.exponent at hle ⊢
    omega
  · have hlow : (2 : ℚ) ^ (51 + M.exponent) < x := by
      have hcoeff : (2 ^ 52 : ℚ) ≤ M.coeff := by exact_mod_cast hM.hidden hshift
      have hnear := hx.isNearest.le.1
      have hhalf : (2 : ℚ) ^ (51 : ℤ) = 2 ^ 51 := by norm_cast
      rw [zpow_add₀ (by norm_num), ← lt_div_iff₀ (by positivity), hhalf]
      linarith
    have hlt := (zpow_lt_zpow_iff_right₀ (by norm_num)).mp (hlow.trans hupper)
    rcases eq_or_ne (max (totalExponent m e - 53) (-1074)) M.exponent with heq | hne
    · exact .inl heq
    · refine .inr ⟨by omega, hshift, ?_⟩
      rw [div_lt_iff₀ (by positivity), ← zpow_natCast, ← zpow_add₀ (by norm_num)]
      exact hupper.trans_le (zpow_le_zpow_right₀ (by norm_num) (by push_cast; omega))

/-- **Rounding finds the magnitude that a number rounds to.** -/
theorem roundWithAccuracy_of_holds (s : Sign) :
    roundWithAccuracy Format.binary64 s m e a = numberOf s M.coeff M.exponent := by
  obtain ⟨em, hfirst, hem⟩ := exists_shiftToTargetExponent h he
  rw [roundWithAccuracy_eq hfirst]
  rcases targetExponent_cases h he hM hx with heq | ⟨heq, hshift, hlt⟩
  · rw [heq] at hem ⊢
    rw [hem.isNearest.eq hx.isNearest, shiftToTargetExponent_of_lt hM.coeff_lt]
    unfold Magnitude.exponent
    omega
  · obtain ⟨hcoeff, hcarry⟩ := hx.isNearest_carry hM hshift hlt
    rw [heq] at hem ⊢
    rw [hem.isNearest.eq hcarry, shiftToTargetExponent_carry, hcoeff]
    · dsimp only
      rw [sub_add_cancel]
    · unfold Magnitude.exponent
      omega

end

/-! ### Products and quotients -/

theorem represents_exact (m : ℕ) : Represents (.ofMantissaAndAccuracy m .exact) m :=
  rfl

/-- A quotient is represented by its whole part and its remainder. -/
theorem represents_div (a : ℕ) {b : ℕ} (hb : 0 < b) :
    Represents (.ofMantissaAndAccuracy (a / b) (accuracyOfFraction (a % b) b)) (a / b) := by
  have hpos : (0 : ℚ) < b := Nat.cast_pos.mpr hb
  have hparts : (a / b : ℚ) = (a / b : ℕ) + (a % b : ℕ) / b := by
    have hcast : (a : ℚ) = b * (a / b : ℕ) + (a % b : ℕ) := by
      exact_mod_cast (Nat.div_add_mod a b).symm
    rw [hcast]
    field_simp
  rw [hparts]
  unfold accuracyOfFraction
  split_ifs with hzero
  · rw [hzero, Nat.cast_zero, zero_div, add_zero]
    exact represents_exact _
  · have hrest : (0 : ℚ) < (a % b : ℕ) / b :=
      div_pos (Nat.cast_pos.mpr (Nat.pos_of_ne_zero hzero)) hpos
    have hone : ((a % b : ℕ) / b : ℚ) < 1 := by
      rw [div_lt_one hpos]
      exact_mod_cast Nat.mod_lt a hb
    -- the remainder is compared with half of the divisor
    rcases lt_trichotomy (2 * (a % b)) b with hlt | heq | hgt
    · have hhalf : ((a % b : ℕ) / b : ℚ) < 1 / 2 := by
        rw [div_lt_div_iff₀ hpos two_pos, one_mul, mul_comm]
        exact_mod_cast hlt
      rw [Nat.compare_eq_lt.mpr hlt]
      exact ⟨lt_add_of_pos_right _ hrest, add_lt_add_right hhalf _⟩
    · have hhalf : ((a % b : ℕ) / b : ℚ) = 1 / 2 := by
        rw [div_eq_div_iff hpos.ne' two_ne_zero, one_mul, mul_comm]
        exact_mod_cast heq
      rw [Nat.compare_eq_eq.mpr heq, hhalf]
      rfl
    · have hhalf : 1 / 2 < ((a % b : ℕ) / b : ℚ) := by
        rw [div_lt_div_iff₀ two_pos hpos, one_mul, mul_comm _ (2 : ℚ)]
        exact_mod_cast hgt
      rw [Nat.compare_eq_gt.mpr hgt]
      exact ⟨add_lt_add_right hhalf _, add_lt_add_right hone _⟩

section
variable {M : Magnitude} {m₁ m₂ : ℕ} {e₁ e₂ : ℤ} (h₁ : 0 < m₁) (h₂ : 0 < m₂) (hM : M.IsCanonical)
include hM

/-- **A product is rounded.**  It has no bits to spare if one of the mantissas has a hidden bit. -/
theorem mul_of_holds (hx : M.Holds (m₁ * 2 ^ e₁ * (m₂ * 2 ^ e₂))) (hbits : 2 ^ 52 ≤ m₁ * m₂)
    (s₁ s₂ : Sign) :
    (UnpackedFloat.finite s₁ m₁ e₁ h₁).mul Format.binary64 (.finite s₂ m₂ e₂ h₂) =
      numberOf (s₁ * s₂) M.coeff M.exponent := by
  have hproduct : Represents (.ofMantissaAndAccuracy (m₁ * m₂) .exact)
      (m₁ * 2 ^ e₁ * (m₂ * 2 ^ e₂) / 2 ^ (e₁ + e₂)) := by
    have hvalue : (m₁ * 2 ^ e₁ * (m₂ * 2 ^ e₂) / 2 ^ (e₁ + e₂) : ℚ) = (m₁ * m₂ : ℕ) := by
      rw [zpow_add₀ (by norm_num)]
      push_cast
      field_simp
    rw [hvalue]
    exact represents_exact _
  refine roundWithAccuracy_of_holds hproduct ?_ hM hx (s₁ * s₂)
  have hlog : 52 ≤ (m₁ * m₂).log2 := (Nat.le_log2 (Nat.mul_pos h₁ h₂).ne').mpr hbits
  rw [targetExponent_eq, totalExponent]
  omega

/-- **A quotient is rounded.** -/
theorem div_of_holds (hx : M.Holds (m₁ * 2 ^ e₁ / (m₂ * 2 ^ e₂))) (s₁ s₂ : Sign) :
    (UnpackedFloat.finite s₁ m₁ e₁ h₁).div Format.binary64 (.finite s₂ m₂ e₂ h₂) =
      numberOf (s₁ / s₂) M.coeff M.exponent := by
  -- the quotient is taken at an exponent that leaves it enough bits
  let e := min (e₁ - e₂)
    (Format.binary64.targetExponent (totalExponent m₁ e₁ - totalExponent m₂ e₂))
  have hquotient := represents_div (m₁ <<< (e₁ - e₂ - e).toNat) h₂
  have hvalue : ((m₁ <<< (e₁ - e₂ - e).toNat : ℕ) / m₂ : ℚ) =
      m₁ * 2 ^ e₁ / (m₂ * 2 ^ e₂) / 2 ^ e := by
    have hamount : (((e₁ - e₂ - e).toNat : ℕ) : ℤ) = e₁ - e₂ - e := by omega
    rw [Nat.shiftLeft_eq, Nat.cast_mul, Nat.cast_pow, ← zpow_natCast, hamount,
      Nat.cast_ofNat, zpow_sub₀ (by norm_num), zpow_sub₀ (by norm_num)]
    field_simp
  rw [hvalue] at hquotient
  refine roundWithAccuracy_of_holds hquotient ?_ hM hx (s₁ / s₂)
  have hnumerator : (2 : ℚ) ^ (totalExponent m₁ e₁ - 1) ≤ m₁ * 2 ^ e₁ :=
    two_zpow_totalExponent_le h₁ (by rw [mul_div_cancel_right₀ _ (by positivity)])
  have hdenominator : (m₂ * 2 ^ e₂ : ℚ) < 2 ^ totalExponent m₂ e₂ :=
    lt_two_zpow_totalExponent (by rw [mul_div_cancel_right₀ _ (by positivity)]; exact lt_add_one _)
  have hlow : (2 : ℚ) ^ (totalExponent m₁ e₁ - 1 - totalExponent m₂ e₂) <
      m₁ * 2 ^ e₁ / (m₂ * 2 ^ e₂) := by
    have hpos : (0 : ℚ) < m₂ := Nat.cast_pos.mpr h₂
    rw [zpow_sub₀ (by norm_num), div_lt_div_iff₀ (by positivity) (by positivity)]
    exact mul_lt_mul' hnumerator hdenominator (by positivity) (by positivity)
  have hwhole := hquotient.mantissa_le.2
  rw [mantissa_ofMantissaAndAccuracy] at hwhole
  have hlt := (zpow_lt_zpow_iff_right₀ (by norm_num)).mp
    (hlow.trans (lt_two_zpow_totalExponent hwhole))
  show e ≤ Format.binary64.targetExponent
    (totalExponent (m₁ <<< (e₁ - e₂ - e).toNat / m₂) e)
  have hle : e ≤ Format.binary64.targetExponent (totalExponent m₁ e₁ - totalExponent m₂ e₂) :=
    min_le_right _ _
  rw [targetExponent_eq] at hle ⊢
  omega

end

end TripleBarrier
