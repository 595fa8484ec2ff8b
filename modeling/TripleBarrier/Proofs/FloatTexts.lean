import Mathlib
import TripleBarrier.Proofs.ExactReading

/-!
# Telling floats by their texts

The reader of documents does not give every float back, but the text of a finite float still belongs
to no other one.  The text is that of a literal, the literal denotes a decimal, and the decimal
rounds to the float that it was written for.  A number does not round to two magnitudes: what rounds
to the larger one is out of reach of the smaller one, whose coefficient has no more bits.

## Main results

* `Magnitude.Holds.eq` — a number rounds to a single magnitude.
* `Literal.ofFloat_inj` — **the literal of a finite float belongs to no other one.**
* `Literal.chars_append_inj` — a text starts with a single literal.
-/

namespace TripleBarrier

open Decimal

/-! ### Rounding to one magnitude -/

/-- The nearest whole number of a larger number is not smaller. -/
theorem IsNearest.mono {x y : ℚ} {m n : ℕ} (hx : IsNearest x m) (hy : IsNearest y n) (h : x ≤ y) :
    m ≤ n := by
  by_contra hlt
  have hsucc : (n + 1 : ℚ) ≤ m := by exact_mod_cast Nat.not_le.mp hlt
  have hlow := hx.le.1
  have hhigh := hy.le.2
  -- both numbers lie in the middle between the two whole ones, so they are the same
  have hsame : x = y := by linarith
  rw [hsame] at hx
  exact hlt (hx.eq hy).le

namespace Decimal.Magnitude

variable {M N : Magnitude} {x : ℚ} (hM : M.IsCanonical) (hN : N.IsCanonical) (hMx : M.Holds x)
  (hNx : N.Holds x)
include hM hN hMx hNx

/-- What rounds to a magnitude is too small to round to one with a larger exponent. -/
theorem Holds.not_shift_lt : ¬M.shift < N.shift := by
  intro hshift
  have hpos : 0 < x := by
    have hhidden : (2 ^ 52 : ℚ) ≤ N.coeff := by exact_mod_cast hN.hidden (by omega)
    have hquotient : 0 < x / 2 ^ N.exponent := by linarith [hNx.isNearest.le.1]
    exact (div_pos_iff_of_pos_right (by positivity)).mp hquotient
  have hhalf : x / 2 ^ (N.exponent - 1) = 2 * (x / 2 ^ N.exponent) := by
    rw [zpow_sub_one₀ (by norm_num)]
    field_simp
  have hunit : x / 2 ^ (N.exponent - 1) ≤ x / 2 ^ M.exponent := by
    have hexponent : M.exponent ≤ N.exponent - 1 := by
      rw [exponent, exponent]
      omega
    have hpow : (2 : ℚ) ^ M.exponent ≤ 2 ^ (N.exponent - 1) :=
      zpow_le_zpow_right₀ (by norm_num) hexponent
    exact div_le_div_of_nonneg_left hpos.le (by positivity) hpow
  have hbelow : x / 2 ^ N.exponent < 2 ^ 52 := by linarith [hMx.lt hM]
  -- next to its power of two, the larger magnitude takes what is nearest to the double of `2 ^ 52`
  have hcarry := (hNx.isNearest_carry hN (by omega) hbelow).2
  exact Nat.not_lt.mpr (hcarry.mono hMx.isNearest hunit) hM.coeff_lt

/-- **A number rounds to a single magnitude.** -/
theorem Holds.eq : M = N := by
  have hshift : M.shift = N.shift :=
    le_antisymm (Nat.not_lt.mp (hNx.not_shift_lt hN hM hMx))
      (Nat.not_lt.mp (hMx.not_shift_lt hM hN hNx))
  have hexponent : M.exponent = N.exponent := by
    rw [exponent, exponent, hshift]
  have hcoeff : M.coeff = N.coeff := hMx.isNearest.eq (hexponent ▸ hNx.isNearest)
  calc M = ⟨M.coeff, M.shift⟩ := rfl
    _ = N := by rw [hcoeff, hshift]

end Decimal.Magnitude

/-! ### Literals and texts -/

namespace Json.Literal

/-- A zero is written as a literal that denotes zero. -/
theorem denoted_ofFloat_of_coeff_eq {x : Float} (h : (Magnitude.ofFloat x).coeff = 0) :
    (ofFloat x).denoted = 0 := by
  unfold ofFloat
  rw [if_pos h, denoted_positional]
  have hzero : Text.numeral 10 ['0'] = 0 := rfl
  rw [hzero, Nat.cast_zero, zero_mul]

section
variable {x y : Float} (hx : x.isFinite) (hy : y.isFinite)
include hx hy

/-- **The literal of a finite float belongs to no other one.** -/
theorem ofFloat_inj (h : ofFloat x = ofFloat y) : x = y := by
  have hsign : Decimal.isNegative x = Decimal.isNegative y := by
    rw [← isNegative_ofFloat x, h, isNegative_ofFloat y]
  apply eq_of_magnitude_eq hsign
  rcases eq_or_ne (Magnitude.ofFloat x).coeff 0 with hzero | hcoeff
  · rcases eq_or_ne (Magnitude.ofFloat y).coeff 0 with hzero' | hcoeff'
    · exact (isZero_of_coeff_eq hzero).trans (isZero_of_coeff_eq hzero').symm
    · have hpos := (holds_denoted_ofFloat hcoeff').2
      rw [← h, denoted_ofFloat_of_coeff_eq hzero] at hpos
      exact absurd hpos (lt_irrefl 0)
  · rcases eq_or_ne (Magnitude.ofFloat y).coeff 0 with hzero' | hcoeff'
    · have hpos := (holds_denoted_ofFloat hcoeff).2
      rw [h, denoted_ofFloat_of_coeff_eq hzero'] at hpos
      exact absurd hpos (lt_irrefl 0)
    · have hholds := (holds_denoted_ofFloat hcoeff).1
      rw [h] at hholds
      exact hholds.eq (Magnitude.isCanonical_ofFloat hx) (Magnitude.isCanonical_ofFloat hy)
        (holds_denoted_ofFloat hcoeff').1

end

/-- **A text starts with at most one well-formed literal that it does not go on with.** -/
theorem chars_append_inj {l m : Literal} (hl : l.IsWellFormed) (hm : m.IsWellFormed)
    {rest rest' : List Char} (hrest : EndsNumber rest) (hrest' : EndsNumber rest')
    (h : l.chars ++ rest = m.chars ++ rest') : l = m ∧ rest = rest' := by
  have hscan := scan?_chars_append hl hrest
  rw [h, scan?_chars_append hm hrest'] at hscan
  obtain ⟨hliteral, hbehind⟩ := Prod.mk.inj (Option.some.inj hscan)
  exact ⟨hliteral.symm, hbehind.symm⟩

end Json.Literal

end TripleBarrier
