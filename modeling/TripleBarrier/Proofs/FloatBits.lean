import Mathlib
import TripleBarrier.Decimal.Binary
import TripleBarrier.Proofs.FloatLimits

/-!
# Sign and magnitude of a float

A float is its sign and its magnitude: both together are all of its bits, and they are what
arithmetic reads off a finite float.  Comparison tells two floats apart by their magnitudes and,
unless these are zero, by their signs.

## Main definitions

* `signOf`, `numberOf` — the sign of a float, and the number that arithmetic sees.
* `Magnitude.IsCanonical` — the magnitudes of finite floats.

## Main results

* `eq_of_magnitude_eq` — sign and magnitude determine a float.
* `unpack_eq_numberOf` — what arithmetic sees of a finite float.
* `unpack_pack_numberOf` — what arithmetic makes of a magnitude is packed without loss.
* `eq_or_isZero_of_beq` — equal floats are the same, or zeros.
* `isNegative_of_pos` — a positive number has no sign.
-/

namespace TripleBarrier

open Decimal Float.Model UnpackedFloat

/-! ### Bits -/

section
variable (x : Float)

/-- The magnitude by its fields. -/
theorem Decimal.Magnitude.ofFloat_eq :
    Magnitude.ofFloat x = if x.toBits.toNat / 2 ^ 52 % 2 ^ 11 = 0 then ⟨x.toBits.toNat % 2 ^ 52, 0⟩
      else ⟨2 ^ 52 + x.toBits.toNat % 2 ^ 52, x.toBits.toNat / 2 ^ 52 % 2 ^ 11 - 1⟩ :=
  rfl

theorem toNat_toBits_lt : x.toBits.toNat < 2 ^ 64 :=
  x.toBits.toNat_lt

end

/-- **Sign and magnitude determine a float.** -/
theorem eq_of_magnitude_eq {x y : Float} (hsign : isNegative x = isNegative y)
    (h : Magnitude.ofFloat x = Magnitude.ofFloat y) : x = y := by
  have hx := toNat_toBits_lt x
  have hy := toNat_toBits_lt y
  have hbits : x.toBits.toNat = y.toBits.toNat := by
    rw [Magnitude.ofFloat_eq, Magnitude.ofFloat_eq] at h
    have hs : (x.toBits.toNat / 2 ^ 63 = 1 ↔ y.toBits.toNat / 2 ^ 63 = 1) := by
      have hiff := Bool.eq_iff_iff.mp hsign
      rwa [isNegative, isNegative, beq_iff_eq, beq_iff_eq] at hiff
    split_ifs at h
    all_goals
      obtain ⟨hcoeff, hshift⟩ := Magnitude.mk.inj h
      omega
  have hmodel : x.toModel = y.toModel := by
    obtain ⟨⟨a, ha⟩⟩ := x
    obtain ⟨⟨b, hb⟩⟩ := y
    cases UInt64.toNat_inj.mp hbits
    rfl
  cases x
  cases y
  exact congrArg Float.ofModel hmodel

/-! ### What arithmetic sees -/

/-- The exponent of the last place of a magnitude. -/
def Decimal.Magnitude.exponent (m : Magnitude) : ℤ :=
  m.shift - 1074

/-- The sign of a float, of a zero too. -/
def signOf (x : Float) : Sign :=
  if isNegative x then .negative else .positive

theorem isNegative_eq_of_signOf_eq {x y : Float} (h : signOf x = signOf y) :
    isNegative x = isNegative y := by
  unfold signOf at h
  cases hx : isNegative x with
  | true =>
    cases hy : isNegative y with
    | true => rfl
    | false =>
      rw [hx, hy] at h
      exact nomatch h
  | false =>
    cases hy : isNegative y with
    | true =>
      rw [hx, hy] at h
      exact nomatch h
    | false => rfl

section
variable (x : Float)

theorem toNat_unpackMantissa :
    (@unpackMantissa Format.binary64 x.toBits.toBitVec).toNat =
      x.toBits.toNat % 2 ^ 52 := by
  simp [unpackMantissa]

theorem toNat_unpackExponent :
    (@unpackExponent Format.binary64 x.toBits.toBitVec).toNat =
      x.toBits.toNat / 2 ^ 52 % 2 ^ 11 := by
  simp [unpackExponent, Nat.shiftRight_eq_div_pow]

theorem ofBitVec_unpackSign :
    Sign.ofBitVec (@unpackSign Format.binary64 x.toBits.toBitVec) =
      signOf x := by
  have hlt := toNat_toBits_lt x
  have hsign : (@unpackSign Format.binary64 x.toBits.toBitVec).toNat =
      x.toBits.toNat / 2 ^ 63 := by
    simp [unpackSign, Nat.shiftRight_eq_div_pow]
    omega
  have hzero : @unpackSign Format.binary64 x.toBits.toBitVec = 0#1 ↔
      x.toBits.toNat / 2 ^ 63 = 0 := by
    rw [← BitVec.toNat_inj, hsign]
    rfl
  unfold Sign.ofBitVec signOf isNegative
  simp only [hzero, beq_iff_eq, Nat.pow_eq]
  split_ifs
  · omega
  · rfl
  · rfl
  · omega

end

/-- The number with a given sign, mantissa and exponent, which is written as zero
without mantissa. -/
def numberOf (sign : Sign) (mantissa : ℕ) (exponent : ℤ) : UnpackedFloat :=
  if h : 0 < mantissa then .finite sign mantissa exponent h else .zero sign

theorem numberOf_zero (sign : Sign) (exponent : ℤ) :
    numberOf sign 0 exponent = .zero sign :=
  dif_neg (Nat.lt_irrefl 0)

theorem isFinite_numberOf (sign : Sign) (mantissa : ℕ) (exponent : ℤ) :
    (numberOf sign mantissa exponent).isFinite := by
  unfold numberOf
  split_ifs
  · rfl
  · rfl

theorem neg_numberOf (sign : Sign) (mantissa : ℕ) (exponent : ℤ) :
    (numberOf sign mantissa exponent).neg = numberOf (-sign) mantissa exponent := by
  unfold numberOf
  split_ifs
  · rfl
  · rfl

theorem finite_eq_numberOf {sign : Sign} {m m' : ℕ} {e e' : ℤ} (hpos : 0 < m)
    (hm : m = m') (he : e = e') : .finite sign m e hpos = numberOf sign m' e' := by
  subst hm he
  exact (dif_pos hpos).symm

/-- The largest exponent is that of values which are not finite. -/
theorem unpackExponent_ne {x : Float} (h : x.isFinite) :
    @unpackExponent Format.binary64 x.toBits.toBitVec ≠ -1#_ := by
  intro hexponent
  have hfinite : (UnpackedFloat.unpack Format.binary64 x.toBits.toBitVec).isFinite := h
  unfold UnpackedFloat.unpack at hfinite
  dsimp only at hfinite
  rw [if_pos hexponent] at hfinite
  split at hfinite
  · exact nomatch (show false = true from hfinite)
  · exact nomatch (show false = true from hfinite)

/-- **A finite float is seen as its sign and its magnitude.** -/
theorem unpack_eq_numberOf {x : Float} (h : x.isFinite) :
    x.toModel.unpack =
      numberOf (signOf x) (Magnitude.ofFloat x).coeff (Magnitude.ofFloat x).exponent := by
  have hmantissa := toNat_unpackMantissa x
  have hexponent := toNat_unpackExponent x
  have hsign := ofBitVec_unpackSign x
  show UnpackedFloat.unpack Format.binary64 x.toBits.toBitVec = _
  unfold UnpackedFloat.unpack
  dsimp only
  rw [if_neg (unpackExponent_ne h), Magnitude.exponent, Magnitude.ofFloat_eq, hsign]
  have hbias : ((Format.binary64.exponentBias : ℕ) : ℤ) = 1023 := rfl
  split
  · next hzero =>
    have hE : x.toBits.toNat / 2 ^ 52 % 2 ^ 11 = 0 := by
      rw [← hexponent, hzero]
      rfl
    rw [if_pos hE]
    split
    · next hnull =>
      rw [show x.toBits.toNat % 2 ^ 52 = 0 by rw [← hmantissa, hnull]; rfl, numberOf_zero]
    · exact finite_eq_numberOf _ hmantissa (by dsimp only; omega)
  · next hne =>
    have hE : x.toBits.toNat / 2 ^ 52 % 2 ^ 11 ≠ 0 := by
      rw [← hexponent]
      exact fun h0 => hne (BitVec.toNat_inj.mp h0)
    rw [if_neg hE]
    refine finite_eq_numberOf _ ?_ (by dsimp only; omega)
    rw [BitVec.toNat_append, ← Nat.shiftLeft_add_eq_or_of_lt (BitVec.isLt _), hmantissa]
    rfl

/-! ### Canonical magnitudes -/

namespace Decimal.Magnitude

/-- The magnitudes of finite floats: the coefficient has its hidden bit unless the shift is the
least one, and neither is too large. -/
structure IsCanonical (m : Magnitude) : Prop where
  coeff_lt : m.coeff < 2 ^ 53
  hidden : 0 < m.shift → 2 ^ 52 ≤ m.coeff
  shift_le : m.shift ≤ 2045

/-- A finite float has a canonical magnitude. -/
theorem isCanonical_ofFloat {x : Float} (h : x.isFinite) : (ofFloat x).IsCanonical := by
  have hexponent := toNat_unpackExponent x
  have hne : x.toBits.toNat / 2 ^ 52 % 2 ^ 11 ≠ 2047 := by
    rw [← hexponent]
    exact fun heq => unpackExponent_ne h (BitVec.toNat_inj.mp heq)
  rw [ofFloat_eq]
  split_ifs with hzero
  · exact
      { coeff_lt := by dsimp only; omega
        hidden := fun hshift => absurd hshift (Nat.lt_irrefl 0)
        shift_le := Nat.zero_le _ }
  · exact
      { coeff_lt := by dsimp only; omega
        hidden := fun _ => Nat.le_add_right _ _
        shift_le := by dsimp only; omega }

end Decimal.Magnitude

/-! ### Packing -/

theorem ofBitVec_unpackSign_packComponents (s : Sign) (e : BitVec 11) (m : BitVec 52) :
    Sign.ofBitVec (unpackSign (packComponents Format.binary64 s e m)) = s := by
  have hsign : unpackSign (packComponents Format.binary64 s e m) = s.toBitVec := by
    ext i hi
    obtain rfl : i = 0 := by omega
    simp only [unpackSign, packComponents, BitVec.cast_eq, BitVec.getElem_extract, add_zero]
    rw [BitVec.getLsbD_append, BitVec.getLsbD_append]
    simp
  rw [hsign]
  cases s with
  | positive => rfl
  | negative => rfl

theorem unpack_packComponents (s : Sign) (e : BitVec 11) (m : BitVec 52) (he : e ≠ -1#_) :
    UnpackedFloat.unpack Format.binary64 (packComponents Format.binary64 s e m) =
      if e = 0#_ then numberOf s m.toNat (-1074)
      else numberOf s (2 ^ 52 + m.toNat) (e.toNat - 1075) := by
  have hbias : ((Format.binary64.exponentBias : ℕ) : ℤ) = 1023 := rfl
  have hexponent : @unpackExponent Format.binary64 (packComponents Format.binary64 s e m) = e :=
    unpackExponent_packComponents
  have hmantissa : @unpackMantissa Format.binary64 (packComponents Format.binary64 s e m) = m :=
    unpackMantissa_packComponents
  unfold UnpackedFloat.unpack
  dsimp only
  simp only [hexponent, hmantissa]
  rw [ofBitVec_unpackSign_packComponents, if_neg he]
  split_ifs with hzero hnull
  · rw [hnull]
    exact (numberOf_zero _ _).symm
  · have hleast : e.toNat = 0 := by
      rw [hzero]
      rfl
    exact finite_eq_numberOf _ rfl (by omega)
  · refine finite_eq_numberOf _ ?_ (by omega)
    rw [BitVec.toNat_append, ← Nat.shiftLeft_add_eq_or_of_lt (BitVec.isLt _)]
    rfl

/-- The fields that a number is packed into. -/
theorem pack_numberOf {coeff shift : ℕ} (hpos : 0 < coeff) (hshift : shift ≤ 2045) (s : Sign) :
    UnpackedFloat.pack Format.binary64 (numberOf s coeff (shift - 1074)) =
      if coeff.log2 + 1 = 53 then
        packComponents Format.binary64 s (BitVec.ofNat 11 (shift + 1)) (BitVec.ofNat 52 coeff)
      else packComponents Format.binary64 s 0#11 (BitVec.ofNat 52 coeff) := by
  have hbiased : ((shift : ℤ) - 1074 + Format.binary64.exponentBias +
      Format.binary64.mantissaBitsWithoutImplicit).toNat = shift + 1 := by
    have hbias : ((Format.binary64.exponentBias : ℕ) : ℤ) = 1023 := rfl
    have hbits : ((Format.binary64.mantissaBitsWithoutImplicit : ℕ) : ℤ) = 52 := rfl
    omega
  have hrange : ¬2 ^ Format.binary64.exponentBits ≤ shift + 1 + 1 := by
    show ¬2 ^ 11 ≤ shift + 1 + 1
    omega
  rw [numberOf, dif_pos hpos]
  unfold UnpackedFloat.pack
  dsimp only
  rw [hbiased, if_neg hrange]
  rfl

/-- **A canonical number is packed without loss.** -/
theorem unpack_pack_numberOf {M : Magnitude} (hM : M.IsCanonical) (s : Sign) :
    (Float.Model.pack (numberOf s M.coeff M.exponent)).unpack = numberOf s M.coeff M.exponent := by
  obtain ⟨coeff, shift⟩ := M
  obtain ⟨hcoeff, hhidden, hshift⟩ := hM
  dsimp only [Magnitude.exponent] at *
  show UnpackedFloat.unpack Format.binary64 (UnpackedFloat.pack Format.binary64 _) = _
  rcases Nat.eq_zero_or_pos coeff with rfl | hpos
  · rw [numberOf_zero]
    cases s with
    | positive => rfl
    | negative => rfl
  have hmantissa : (BitVec.ofNat 52 coeff).toNat = coeff % 2 ^ 52 := BitVec.toNat_ofNat coeff 52
  rw [pack_numberOf hpos hshift]
  split_ifs with hlog
  · -- the hidden bit is cut off, and comes back with the exponent
    have hbit : 2 ^ 52 ≤ coeff := (Nat.le_log2 hpos.ne').mp (by omega)
    have hexponent : (BitVec.ofNat 11 (shift + 1)).toNat = shift + 1 := by
      rw [BitVec.toNat_ofNat, Nat.mod_eq_of_lt (by omega)]
    have hmax : BitVec.ofNat 11 (shift + 1) ≠ -1#_ := by
      intro heq
      have hvalue : shift + 1 = 2047 := hexponent ▸ congrArg BitVec.toNat heq
      omega
    have hmin : BitVec.ofNat 11 (shift + 1) ≠ 0#_ := by
      intro heq
      have hvalue : shift + 1 = 0 := hexponent ▸ congrArg BitVec.toNat heq
      omega
    have hwhole : 2 ^ 52 + coeff % 2 ^ 52 = coeff := by omega
    have hplace : ((shift + 1 : ℕ) : ℤ) - 1075 = shift - 1074 := by omega
    rw [unpack_packComponents _ _ _ hmax, if_neg hmin, hexponent, hmantissa, hwhole, hplace]
  · have hlt : coeff < 2 ^ 52 := by
      have hlog' : coeff.log2 < 53 := (Nat.log2_lt hpos.ne').mpr hcoeff
      exact (Nat.log2_lt hpos.ne').mp (by omega)
    obtain rfl : shift = 0 := by omega
    have hmax : 0#11 ≠ -1#_ := by decide
    rw [unpack_packComponents _ _ _ hmax, if_pos rfl, hmantissa, Nat.mod_eq_of_lt hlt]
    rfl

/-! ### Equality -/

/-- Numbers that are the same have the same sign, and one mantissa and exponent
unless they are zero. -/
theorem eq_of_numberOf_eq {s t : Sign} {m n : ℕ} {e f : ℤ} (h : numberOf s m e = numberOf t n f) :
    s = t ∧ (m = 0 ∧ n = 0 ∨ m = n ∧ e = f) := by
  unfold numberOf at h
  split_ifs at h with hm hn hn
  · cases h
    exact ⟨rfl, .inr ⟨rfl, rfl⟩⟩
  · cases h
    exact ⟨rfl, .inl ⟨by omega, by omega⟩⟩

/-- Numbers compare equal if they are the same, or zeros. -/
theorem eq_of_compare_eq {s t : Sign} {m n : ℕ} {e f : ℤ}
    (h : (numberOf s m e).compare (numberOf t n f) = some .eq) :
    m = 0 ∧ n = 0 ∨ s = t ∧ m = n ∧ e = f := by
  have hthen : (compare e f).then (compare m n) = .eq → m = n ∧ e = f := by
    rw [Ordering.then_eq_eq, Int.compare_eq_eq, Nat.compare_eq_eq]
    exact fun h => ⟨h.2, h.1⟩
  unfold numberOf at h
  split_ifs at h with hm hn hn
  · right
    cases s <;> cases t
    · exact ⟨rfl, hthen (Ordering.swap_eq_eq.mp (Option.some.inj h))⟩
    · exact nomatch h
    · exact nomatch h
    · exact ⟨rfl, hthen (Option.some.inj h)⟩
  · cases s <;> exact nomatch h
  · cases t <;> exact nomatch h
  · exact .inl ⟨by omega, by omega⟩

/-- The float is a zero of either sign. -/
def IsZero (x : Float) : Prop :=
  Magnitude.ofFloat x = ⟨0, 0⟩

/-- A coefficient of zero is that of a zero. -/
theorem isZero_of_coeff_eq {x : Float} (h : (Magnitude.ofFloat x).coeff = 0) : IsZero x := by
  unfold IsZero
  rw [Magnitude.ofFloat_eq] at h ⊢
  split_ifs at h ⊢ with hE
  · exact congrArg (Magnitude.mk · 0) h
  · dsimp only at h
    omega

theorem IsZero.eq_or_eq {x : Float} (h : IsZero x) : x = 0.0 ∨ x = -0.0 := by
  cases hx : isNegative x with
  | false => exact .inl (eq_of_magnitude_eq hx h)
  | true => exact .inr (eq_of_magnitude_eq hx h)

/-- Finite floats with the same sign, coefficient and exponent are the same, whatever the exponent
of a zero is. -/
theorem eq_of_coeff_eq {x y : Float} (hsign : signOf x = signOf y)
    (h : (Magnitude.ofFloat x).coeff = 0 ∧ (Magnitude.ofFloat y).coeff = 0 ∨
      (Magnitude.ofFloat x).coeff = (Magnitude.ofFloat y).coeff ∧
        (Magnitude.ofFloat x).exponent = (Magnitude.ofFloat y).exponent) : x = y := by
  apply eq_of_magnitude_eq (isNegative_eq_of_signOf_eq hsign)
  rcases h with ⟨hzero, hzero'⟩ | ⟨hcoeff, hexponent⟩
  · exact (isZero_of_coeff_eq hzero).trans (isZero_of_coeff_eq hzero').symm
  · have hshift : (Magnitude.ofFloat x).shift = (Magnitude.ofFloat y).shift := by
      unfold Magnitude.exponent at hexponent
      omega
    calc Magnitude.ofFloat x = ⟨(Magnitude.ofFloat x).coeff, (Magnitude.ofFloat x).shift⟩ := rfl
      _ = Magnitude.ofFloat y := by rw [hcoeff, hshift]

/-- **Finite floats that are seen as one number are the same.** -/
theorem eq_of_unpack_eq {x y : Float} (hx : x.isFinite) (hy : y.isFinite)
    (h : x.toModel.unpack = y.toModel.unpack) : x = y := by
  rw [unpack_eq_numberOf hx, unpack_eq_numberOf hy] at h
  obtain ⟨hsign, hparts⟩ := eq_of_numberOf_eq h
  exact eq_of_coeff_eq hsign hparts

section
variable {x y : Float} (hx : x.isFinite) (hy : y.isFinite) (h : x == y)
include hx hy h

/-- **Equal floats are the same, or zeros.** -/
theorem eq_or_isZero_of_beq : x = y ∨ IsZero x ∧ IsZero y := by
  have hcompare : x.toModel.unpack.compare y.toModel.unpack = some .eq := beq_iff_eq.mp h
  rw [unpack_eq_numberOf hx, unpack_eq_numberOf hy] at hcompare
  rcases eq_of_compare_eq hcompare with ⟨hzero, hzero'⟩ | ⟨hsign, hparts⟩
  · exact .inr ⟨isZero_of_coeff_eq hzero, isZero_of_coeff_eq hzero'⟩
  · exact .inl (eq_of_coeff_eq hsign (.inr hparts))

/-- Equal floats whose signs agree are the same. -/
theorem eq_of_beq_of_isNegative (hsign : isNegative x = isNegative y) : x = y := by
  rcases eq_or_isZero_of_beq hx hy h with heq | ⟨hzero, hzero'⟩
  · exact heq
  · exact eq_of_magnitude_eq hsign (hzero.trans hzero'.symm)

end

/-- A positive number has no sign. -/
theorem isNegative_of_pos {x : Float} (hx : x.isFinite) (h : 0.0 < x) : isNegative x = false := by
  have hcompare : (0.0 : Float).toModel.unpack.compare x.toModel.unpack = some .lt :=
    beq_iff_eq.mp (of_decide_eq_true h)
  have hzero : (0.0 : Float).toModel.unpack = .zero .positive := by rfl
  rw [hzero, unpack_eq_numberOf hx, signOf] at hcompare
  cases hneg : isNegative x with
  | false => rfl
  | true =>
    rw [hneg, if_pos rfl] at hcompare
    unfold numberOf at hcompare
    split at hcompare
    · exact nomatch hcompare
    · exact nomatch hcompare

end TripleBarrier
