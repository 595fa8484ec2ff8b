import TripleBarrier.Market.Fees

/-!
# Values beyond all numbers

Infinities and values that are not numbers stay what they are: no difference, product or quotient
that starts from one of them is finite again, nor is a product that ends with one.  So a net return
is not finite if the price at which a position is left is not.

## Main results

* `isNaN_of_isFinite`, `isInf_of_isFinite` — what a finite number is not.
* `isFinite_sub`, `isFinite_mul`, `isFinite_div` — arithmetic on a first operand that is not finite.
* `isFinite_mul_right` — a product whose second factor is not finite.
* `Fees.isFinite_netReturn` — the net return at a price that is not finite.
-/

namespace TripleBarrier

open Float.Model

/-! ### Unpacked numbers -/

namespace Unpacked

/-- What is not finite is an infinity or not a number. -/
theorem eq_of_isFinite_eq_false {a : UnpackedFloat} (h : a.isFinite = false) :
    a = .notANumber ∨ ∃ s, a = .infinity s := by
  cases a with
  | notANumber => exact .inl rfl
  | infinity s => exact .inr ⟨s, rfl⟩
  | zero s => nomatch (show true = false from h)
  | finite s m e hm => nomatch (show true = false from h)

/-- What is finite is a number. -/
theorem isNaN_of_isFinite {a : UnpackedFloat} (h : a.isFinite) : a.isNaN = false := by
  cases a with
  | notANumber => nomatch (show false = true from h)
  | infinity s => rfl
  | zero s => rfl
  | finite s m e hm => rfl

/-- What is finite is no infinity. -/
theorem isInf_of_isFinite {a : UnpackedFloat} (h : a.isFinite) : a.isInf = false := by
  cases a with
  | notANumber => rfl
  | infinity s => nomatch (show false = true from h)
  | zero s => rfl
  | finite s m e hm => rfl

theorem isNaN_or_isInf {a : UnpackedFloat} (h : a.isFinite = false) : a.isNaN ∨ a.isInf := by
  rcases eq_of_isFinite_eq_false h with rfl | ⟨s, rfl⟩
  · exact .inl rfl
  · exact .inr rfl

section
variable {a : UnpackedFloat} (h : a.isFinite = false) (spec : Format) (b : UnpackedFloat)
include h

theorem isFinite_sub : (a.sub spec b).isFinite = false := by
  rcases eq_of_isFinite_eq_false h with rfl | ⟨s, rfl⟩
  · rfl
  cases b with
  | infinity t =>
    -- only here the signs matter
    unfold UnpackedFloat.sub
    dsimp only
    split <;> rfl
  | notANumber => rfl
  | zero t => rfl
  | finite t m e hm => rfl

theorem isFinite_mul : (a.mul spec b).isFinite = false := by
  rcases eq_of_isFinite_eq_false h with rfl | ⟨s, rfl⟩
  · rfl
  · cases b <;> rfl

theorem isFinite_mul_right : (b.mul spec a).isFinite = false := by
  rcases eq_of_isFinite_eq_false h with rfl | ⟨s, rfl⟩
  · cases b <;> rfl
  · cases b <;> rfl

theorem isFinite_div : (a.div spec b).isFinite = false := by
  rcases eq_of_isFinite_eq_false h with rfl | ⟨s, rfl⟩
  · rfl
  · cases b <;> rfl

omit spec b in
/-- Packing keeps infinities and what is not a number. -/
theorem isFinite_pack : (pack a).isFinite = false := by
  rcases eq_of_isFinite_eq_false h with rfl | ⟨s, rfl⟩
  · rfl
  · cases s <;> rfl

end

end Unpacked

/-! ### Floating-point numbers -/

theorem isNaN_of_isFinite {x : Float} (h : x.isFinite) : x.isNaN = false :=
  Unpacked.isNaN_of_isFinite h

theorem isInf_of_isFinite {x : Float} (h : x.isFinite) : x.isInf = false :=
  Unpacked.isInf_of_isFinite h

theorem isNaN_or_isInf {x : Float} (h : x.isFinite = false) : x.isNaN ∨ x.isInf :=
  Unpacked.isNaN_or_isInf h

section
variable {x : Float} (h : x.isFinite = false) (y : Float)
include h

theorem isFinite_sub : (x - y).isFinite = false :=
  Unpacked.isFinite_pack (Unpacked.isFinite_sub h Format.binary64 y.toModel.unpack)

theorem isFinite_mul : (x * y).isFinite = false :=
  Unpacked.isFinite_pack (Unpacked.isFinite_mul h Format.binary64 y.toModel.unpack)

theorem isFinite_mul_right : (y * x).isFinite = false :=
  Unpacked.isFinite_pack (Unpacked.isFinite_mul_right h Format.binary64 y.toModel.unpack)

theorem isFinite_div : (x / y).isFinite = false :=
  Unpacked.isFinite_pack (Unpacked.isFinite_div h Format.binary64 y.toModel.unpack)

end

/-- **A net return is not finite if the price at which the position is left is not.** -/
theorem Fees.isFinite_netReturn (fees : Fees) (side : Side) (fill : Float) {price : Float}
    (h : price.isFinite = false) : (fees.netReturn side fill price).isFinite = false :=
  isFinite_sub (isFinite_mul (isFinite_div (isFinite_sub h fill) fill) side.sign) fees.roundTrip

end TripleBarrier
