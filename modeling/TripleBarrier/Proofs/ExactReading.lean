import Mathlib
import TripleBarrier.Proofs.Reading
import TripleBarrier.Proofs.Scaling

/-!
# Floats that are read back

The reader takes the digits of a number for a whole one and scales it by a power of ten.  Unless
there are too many digits, both together are the number that the literal denotes, and what is
written for a float denotes the decimal of its shortest digits, which rounds to it.  So the float is
read back if the reader rounds only once.

## Main definitions

* `Literal.denoted` — the number that a literal denotes.

## Main results

* `Literal.parts_eq_denoted` — what the reader scales, and by which power of ten.
* `Literal.denoted_ofFloat` — a float is written as its shortest digits.
* `readsBack_of_parts` — **a float with few digits is read back.**
-/

namespace TripleBarrier

open Decimal

/-! ### Numerals -/

namespace Text

theorem digitValue_lt {c : Char} (h : c.isDigit) : digitValue c < 10 := by
  have hrange := Char.isDigit_iff_toNat.mp h
  have hnine : '9'.toNat = '0'.toNat + 9 := rfl
  rw [digitValue, if_pos h]
  omega

/-- Digits that follow a number move it up by their places. -/
theorem foldl_eq_add_numeral (ds : List Char) (n : ℕ) :
    ds.foldl (fun n c => n * 10 + digitValue c) n = n * 10 ^ ds.length + numeral 10 ds := by
  unfold numeral
  induction ds generalizing n with
  | nil => simp
  | cons d ds ih =>
    rw [List.foldl_cons, List.foldl_cons, ih, ih (0 * 10 + digitValue d), List.length_cons,
      pow_succ]
    ring

theorem numeral_append (ds es : List Char) :
    numeral 10 (ds ++ es) = numeral 10 ds * 10 ^ es.length + numeral 10 es := by
  rw [← foldl_eq_add_numeral]
  exact List.foldl_append

theorem numeral_zeros (n : ℕ) : numeral 10 (List.replicate n '0') = 0 := by
  induction n with
  | zero => rfl
  | succ n ih =>
    rw [List.replicate_succ', numeral_append_singleton, ih]
    rfl

end Text

namespace Json.Literal

open Text

/-! ### The number that a literal denotes -/

/-- The exponent of a literal, zero if it has none. -/
def exponentValue (l : Literal) : ℤ :=
  l.exponent.elim 0 fun e => if e.1 then -(numeral 10 e.2 : ℤ) else numeral 10 e.2

/-- The number that the digits, the point and the exponent of a literal denote, without its sign. -/
def denoted (l : Literal) : ℚ :=
  numeral 10 (l.whole ++ l.fraction.getD []) * 10 ^ (l.exponentValue - (l.fraction.getD []).length)

/-- Digits are only left out when there are more than 53 bits of them. -/
theorem collect_eq_of_lt {ds : List Char} (hds : ∀ c ∈ ds, c.isDigit) {n : ℕ}
    (h : (collect n ds).1 < 2 ^ 53) :
    collect n ds = (ds.foldl (fun n c => n * 10 + digitValue c) n, []) := by
  induction ds generalizing n with
  | nil => rfl
  | cons d ds ih =>
    rw [collect] at h ⊢
    split at h
    · next hfits =>
      rw [if_pos hfits]
      exact ih (fun c hc => hds c (List.mem_cons_of_mem d hc)) h
    · next hfull =>
      -- a number that takes no digit any more has more bits already
      have hdigit := digitValue_lt (hds d List.mem_cons_self)
      have hsize : UInt64.size = 2 ^ 64 := rfl
      omega

/-- Collecting digits never makes a number smaller. -/
theorem le_collect (n : ℕ) (ds : List Char) : n ≤ (collect n ds).1 := by
  induction ds generalizing n with
  | nil => exact le_rfl
  | cons d ds ih =>
    rw [collect]
    split
    · have hle := ih (n * 10 + digitValue d)
      omega
    · exact le_rfl

theorem isDigit_of_mem_fraction {l : Literal} (hl : l.IsWellFormed) :
    ∀ c ∈ l.fraction.getD [], c.isDigit := by
  cases hfraction : l.fraction with
  | none => exact fun _ hc => nomatch hc
  | some ds => exact (hl.fraction ds hfraction).isDigit

/-- **Unless digits are left out, the reader scales by the power of ten that the
literal denotes.** -/
theorem parts_eq_denoted {l : Literal} (hl : l.IsWellFormed) (h : l.parts.1 < 2 ^ 53) :
    (l.parts.1 * 10 ^ l.parts.2 : ℚ) = l.denoted := by
  have hfirst := collect_eq_of_lt hl.whole.isDigit ((le_collect _ (l.fraction.getD [])).trans_lt h)
  have hall : (collect (collect 0 l.whole).1 (l.fraction.getD [])).1 < 2 ^ 53 := h
  rw [hfirst] at hall
  have hsecond := collect_eq_of_lt (isDigit_of_mem_fraction hl) hall
  have hparts : l.parts = (numeral 10 (l.whole ++ l.fraction.getD []),
      l.exponentValue - (l.fraction.getD []).length) := by
    unfold parts exponentValue
    rw [hfirst]
    dsimp only
    rw [hsecond]
    refine Prod.ext List.foldl_append.symm ?_
    rcases l.exponent with _ | ⟨_ | _, ds⟩
    · simp only [List.length_nil, Option.elim_none]
      omega
    · simp only [List.length_nil, Option.elim_some, Bool.false_eq_true, if_false]
      omega
    · simp only [List.length_nil, Option.elim_some, if_true]
      omega
  rw [hparts, denoted]

/-! ### What is denoted where digits are written -/

section
variable (isNegative : Bool) {digits : List Char} (whole : ℤ)

/-- **Wherever the point stands, the digits are read at their places.** -/
theorem denoted_positional :
    (positional isNegative digits whole).denoted =
      numeral 10 digits * 10 ^ (whole - digits.length) := by
  unfold positional denoted
  split_ifs with hneg hshort
  · have hzeros : ['0'] ++ (List.replicate (-whole).toNat '0' ++ digits) =
        List.replicate ((-whole).toNat + 1) '0' ++ digits := rfl
    have hplaces : (0 : ℤ) - ((List.replicate (-whole).toNat '0' ++ digits).length : ℕ) =
        whole - digits.length := by
      rw [List.length_append, List.length_replicate]
      omega
    show (numeral 10 (['0'] ++ (List.replicate (-whole).toNat '0' ++ digits)) : ℚ) *
      10 ^ ((0 : ℤ) - ((List.replicate (-whole).toNat '0' ++ digits).length : ℕ)) = _
    rw [hzeros, numeral_append, numeral_zeros, zero_mul, zero_add, hplaces]
  · have hplaces : whole - digits.length = ((whole.toNat - digits.length : ℕ) : ℤ) := by omega
    have hpoint : (10 : ℚ) * 10 ^ ((0 : ℤ) - (1 : ℕ)) = 1 := by norm_num
    show (numeral 10 (digits ++ List.replicate (whole.toNat - digits.length) '0' ++ ['0']) : ℚ) *
      10 ^ ((0 : ℤ) - (1 : ℕ)) = _
    have hzero : digitValue '0' = 0 := rfl
    rw [numeral_append_singleton, numeral_append, numeral_zeros, List.length_replicate, hplaces,
      zpow_natCast, hzero, add_zero, add_zero]
    rw [Nat.cast_mul, Nat.cast_mul, Nat.cast_pow, Nat.cast_ofNat, mul_assoc _ (10 : ℚ), hpoint,
      mul_one]
  · have hplaces : (0 : ℤ) - ((digits.drop whole.toNat).length : ℕ) = whole - digits.length := by
      rw [List.length_drop]
      omega
    show (numeral 10 (digits.take whole.toNat ++ digits.drop whole.toNat) : ℚ) *
      10 ^ ((0 : ℤ) - ((digits.drop whole.toNat).length : ℕ)) = _
    rw [List.take_append_drop, hplaces]

theorem denoted_scientific (hdigits : digits ≠ []) :
    (scientific isNegative digits (whole - 1)).denoted =
      numeral 10 digits * 10 ^ (whole - digits.length) := by
  have hexponent : (scientific isNegative digits (whole - 1)).exponentValue = whole - 1 := by
    unfold exponentValue scientific
    rw [Option.elim_some, numeral_natText]
    dsimp only
    split_ifs with hneg
    · rw [decide_eq_true_iff] at hneg
      omega
    · rw [decide_eq_true_iff] at hneg
      omega
  have hlength := List.length_pos_of_ne_nil hdigits
  rw [denoted, hexponent]
  unfold scientific
  dsimp only
  split_ifs with hshort
  · have hplaces : whole - 1 - ((0 : ℕ) : ℤ) = whole - digits.length := by omega
    show (numeral 10 (digits.take 1 ++ []) : ℚ) * 10 ^ (whole - 1 - ((0 : ℕ) : ℤ)) = _
    rw [List.append_nil, List.take_of_length_le hshort, hplaces]
  · have hplaces : whole - 1 - ((digits.drop 1).length : ℤ) = whole - digits.length := by
      rw [List.length_drop]
      omega
    show (numeral 10 (digits.take 1 ++ digits.drop 1) : ℚ) *
      10 ^ (whole - 1 - ((digits.drop 1).length : ℤ)) = _
    rw [List.take_append_drop, hplaces]

end

/-- **A float is written as its shortest digits.** -/
theorem denoted_ofFloat {x : Float} (h : (Magnitude.ofFloat x).coeff ≠ 0) :
    (ofFloat x).denoted = (shortest .toEven (Magnitude.ofFloat x)).coeff *
      10 ^ (shortest .toEven (Magnitude.ofFloat x)).power := by
  unfold ofFloat ofDigits
  rw [if_neg h]
  dsimp only
  generalize shortest .toEven (Magnitude.ofFloat x) = d
  have hplaces : d.power + (natText d.coeff).length - ((natText d.coeff).length : ℤ) = d.power := by
    omega
  split_ifs
  · rw [denoted_positional, hplaces, numeral_natText]
  · rw [denoted_scientific _ _ (isRun_natText _).ne_nil, hplaces, numeral_natText]

/-- The shortest digits of a float other than zero round to it, whichever of two that are as near is
taken. -/
theorem holds_shortest (tie : Tie) {x : Float} (h : (Magnitude.ofFloat x).coeff ≠ 0) :
    (Magnitude.ofFloat x).Holds ((shortest tie (Magnitude.ofFloat x)).coeff *
        10 ^ (shortest tie (Magnitude.ofFloat x)).power) ∧
      (0 : ℚ) < (shortest tie (Magnitude.ofFloat x)).coeff *
        10 ^ (shortest tie (Magnitude.ofFloat x)).power := by
  obtain ⟨hpos, hreaches⟩ := shortest_reaches tie (Nat.pos_of_ne_zero h)
    (Magnitude.coeff_ofFloat_lt x) (Magnitude.shift_ofFloat_lt x)
  refine ⟨Grid.holds_of_reaches (Nat.pos_of_ne_zero h) hreaches, ?_⟩
  have hcoeff : (0 : ℚ) < (shortest tie (Magnitude.ofFloat x)).coeff := Nat.cast_pos.mpr hpos
  positivity

/-- What is written for a float other than zero rounds to it. -/
theorem holds_denoted_ofFloat {x : Float} (h : (Magnitude.ofFloat x).coeff ≠ 0) :
    (Magnitude.ofFloat x).Holds (ofFloat x).denoted ∧ 0 < (ofFloat x).denoted := by
  rw [denoted_ofFloat h]
  exact holds_shortest .toEven h

end Json.Literal

/-! ### Reading back -/

/-- Both zeros are read back. -/
theorem readsBack_of_isZero {x : Float} (h : IsZero x) : Json.ReadsBack x := by
  rcases h.eq_or_eq with rfl | rfl
  · decide +kernel
  · decide +kernel

theorem isNegative_ofFloat (x : Float) : (Json.Literal.ofFloat x).isNegative = isNegative x := by
  unfold Json.Literal.ofFloat Json.Literal.ofDigits Json.Literal.positional Json.Literal.scientific
  dsimp only
  split_ifs <;> rfl

/-- A positive number has digits other than zeros. -/
theorem pos_of_scaled_pos {n : ℕ} {e : ℤ} (h : (0 : ℚ) < n * 10 ^ e) : 0 < n := by
  rcases Nat.eq_zero_or_pos n with rfl | hpos
  · rw [Nat.cast_zero, zero_mul] at h
    exact absurd h (lt_irrefl 0)
  · exact hpos

/-- A number that has the magnitude of a float, and then gets its sign, is that float. -/
theorem signed_eq_of_unpack {x y : Float} (hx : x.isFinite) (hy : y.toModel.unpack =
    numberOf .positive (Magnitude.ofFloat x).coeff (Magnitude.ofFloat x).exponent) :
    (if isNegative x then -y else y) = x := by
  have hsame := unpack_eq_numberOf hx
  cases hsign : isNegative x with
  | true =>
    rw [signOf, hsign] at hsame
    have hneg := unpack_neg (Magnitude.isCanonical_ofFloat hx) hy
    exact eq_of_unpack_eq (isFinite_of_unpack_eq hneg) hx (hneg.trans hsame.symm)
  | false =>
    rw [signOf, hsign] at hsame
    exact eq_of_unpack_eq (isFinite_of_unpack_eq hy) hx (hy.trans hsame.symm)

/-- **A float is read back if the digits that are collected have at most 53 bits, and are scaled by
at most the twenty-second power of ten.** -/
theorem readsBack_of_parts {x : Float} (hx : x.isFinite)
    (hdigits : (Json.Literal.ofFloat x).parts.1 < 2 ^ 53)
    (hpower : (Json.Literal.ofFloat x).parts.2.natAbs ≤ 22) : Json.ReadsBack x := by
  rcases eq_or_ne (Magnitude.ofFloat x).coeff 0 with hzero | hcoeff
  · exact readsBack_of_isZero (isZero_of_coeff_eq hzero)
  have hm := Magnitude.isCanonical_ofFloat hx
  obtain ⟨hholds, hdenoted⟩ := Json.Literal.holds_denoted_ofFloat hcoeff
  rw [← Json.Literal.parts_eq_denoted (Json.Literal.isWellFormed_ofFloat x) hdigits]
    at hholds hdenoted
  have hpos := pos_of_scaled_pos hdenoted
  obtain ⟨y, hscale, hy⟩ := exists_scale_of_holds hpos hdigits hpower hm hholds
  show (Json.Literal.ofFloat x).float? = some x
  unfold Json.Literal.float?
  dsimp only
  rw [hscale, Option.map_some, isNegative_ofFloat, signed_eq_of_unpack hx hy]

end TripleBarrier
