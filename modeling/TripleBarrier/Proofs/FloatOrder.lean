import Mathlib
import TripleBarrier.Exit.Ratchet

/-!
# The order of floating-point numbers

The comparisons of floating-point numbers are those of a linear order in which both zeros have the
same place, and from which they only differ in what they say of values that are not numbers: such a
value is neither less nor greater than anything.  Given the lowest place of all, it is also what
`larger` passes over, so that `larger` takes the higher of two places.

The place of a finite number is read off its sign, exponent and mantissa.  No bound on any of them
is needed, since numbers are compared by exponent first.

## Main definitions

* `Place` — the linear order.
* `place` — the place of a number.
* `AtMost` — the same value or a number below it.

## Main results

* `lt_iff_place`, `le_iff_place` — comparisons are comparisons of places.
* `place_larger` — the larger of two numbers has the higher place.
-/

namespace TripleBarrier

open Float.Model

/-- The places of numbers, below all of them that of values which are not numbers.  A place consists
of a zone, an exponent and a mantissa. -/
abbrev Place := WithBot (ℤ ×ₗ ℤ ×ₗ ℤ)

namespace Place

/-- The place with a given zone, exponent and mantissa. -/
def of (zone exponent mantissa : ℤ) : Place :=
  ((toLex (zone, toLex (exponent, mantissa)) : ℤ ×ₗ ℤ ×ₗ ℤ) : Place)

/-- The place of an unpacked number.  The zones are those of the infinities, of negative and
positive numbers, and of zero. -/
def ofUnpacked : UnpackedFloat → Place
  | .notANumber => ⊥
  | .infinity .negative => of (-2) 0 0
  | .finite .negative mantissa exponent _ => of (-1) (-exponent) (-mantissa)
  | .zero _ => of 0 0 0
  | .finite .positive mantissa exponent _ => of 1 exponent mantissa
  | .infinity .positive => of 2 0 0

section
variable {zone zone' exponent exponent' mantissa mantissa' : ℤ}

theorem of_lt_of_iff :
    of zone exponent mantissa < of zone' exponent' mantissa' ↔
      zone < zone' ∨
        zone = zone' ∧ (exponent < exponent' ∨ exponent = exponent' ∧ mantissa < mantissa') := by
  simp [of, Prod.Lex.toLex_lt_toLex]

/-- A lower zone makes a lower place. -/
theorem of_lt_of_zone_lt (h : zone < zone') :
    of zone exponent mantissa < of zone' exponent' mantissa' :=
  of_lt_of_iff.mpr (.inl h)

end

/-! ### Comparing unpacked numbers -/

/-- Finite numbers of one sign are compared by exponent, and then by mantissa. -/
theorem compare_then_compare (e e' : ℤ) (m m' : ℕ) :
    (compare e e').then (compare m m') = .lt ∧ (e < e' ∨ e = e' ∧ m < m') ∨
      (compare e e').then (compare m m') = .eq ∧ e = e' ∧ m = m' ∨
      (compare e e').then (compare m m') = .gt ∧ (e' < e ∨ e = e' ∧ m' < m) := by
  cases h : (compare e e').then (compare m m') with
  | lt =>
    rw [Ordering.then_eq_lt, Int.compare_eq_lt, Int.compare_eq_eq, Nat.compare_eq_lt] at h
    exact .inl ⟨rfl, h⟩
  | eq =>
    rw [Ordering.then_eq_eq, Int.compare_eq_eq, Nat.compare_eq_eq] at h
    exact .inr (.inl ⟨rfl, h⟩)
  | gt =>
    rw [Ordering.then_eq_gt, Int.compare_eq_gt, Int.compare_eq_eq, Nat.compare_eq_gt] at h
    exact .inr (.inr ⟨rfl, h⟩)

theorem compares_positive (e e' : ℤ) (m m' : ℕ) :
    ((compare e e').then (compare m m')).Compares (of 1 e m) (of 1 e' m') := by
  obtain ⟨h, hlt⟩ | ⟨h, rfl, rfl⟩ | ⟨h, hgt⟩ := compare_then_compare e e' m m'
  · rw [h]
    exact of_lt_of_iff.mpr (by omega)
  · rw [h]
    rfl
  · rw [h]
    exact of_lt_of_iff.mpr (by omega)

theorem compares_negative (e e' : ℤ) (m m' : ℕ) :
    ((compare e e').then (compare m m')).swap.Compares (of (-1) (-e) (-m))
      (of (-1) (-e') (-m')) := by
  obtain ⟨h, hlt⟩ | ⟨h, rfl, rfl⟩ | ⟨h, hgt⟩ := compare_then_compare e e' m m'
  · rw [h]
    exact of_lt_of_iff.mpr (by omega)
  · rw [h]
    rfl
  · rw [h]
    exact of_lt_of_iff.mpr (by omega)

theorem ofUnpacked_eq_bot_iff {a : UnpackedFloat} : ofUnpacked a = ⊥ ↔ a.isNaN := by
  rcases a with (_ | _) | _ | _ | ⟨_ | _, m, e, -⟩ <;>
    simp [ofUnpacked, of, UnpackedFloat.isNaN]

/-- What is not a number compares to nothing. -/
theorem compare_eq_none {a b : UnpackedFloat} (h : ofUnpacked a = ⊥ ∨ ofUnpacked b = ⊥) :
    a.compare b = none := by
  rw [ofUnpacked_eq_bot_iff, ofUnpacked_eq_bot_iff] at h
  cases a <;> cases b <;> first | rfl | simp [UnpackedFloat.isNaN] at h

/-- **Numbers compare as their places do.** -/
theorem exists_compares {a b : UnpackedFloat} (ha : ofUnpacked a ≠ ⊥) (hb : ofUnpacked b ≠ ⊥) :
    ∃ o, a.compare b = some o ∧ o.Compares (ofUnpacked a) (ofUnpacked b) := by
  -- within the zones of finite numbers exponent and mantissa decide, and else the zones do
  rcases a with (_ | _) | _ | _ | ⟨_ | _, m, e, -⟩ <;>
    rcases b with (_ | _) | _ | _ | ⟨_ | _, m', e', -⟩
  all_goals first
    | exact absurd rfl ha
    | exact absurd rfl hb
    | exact ⟨_, rfl, compares_positive e e' m m'⟩
    | exact ⟨_, rfl, compares_negative e e' m m'⟩
    | exact ⟨_, rfl, of_lt_of_zone_lt (by decide)⟩
    | exact ⟨_, rfl, rfl⟩

theorem lt_iff (a b : UnpackedFloat) :
    a.lt b ↔ ofUnpacked a ≠ ⊥ ∧ ofUnpacked a < ofUnpacked b := by
  unfold UnpackedFloat.lt
  by_cases ha : ofUnpacked a = ⊥
  · rw [compare_eq_none (.inl ha)]
    simp [ha]
  by_cases hb : ofUnpacked b = ⊥
  · rw [compare_eq_none (.inr hb), hb]
    simp
  obtain ⟨o, ho, hcompares⟩ := exists_compares ha hb
  rw [ho, ← hcompares.eq_lt]
  simp [ha]

theorem le_iff (a b : UnpackedFloat) :
    a.le b ↔ ofUnpacked a ≠ ⊥ ∧ ofUnpacked a ≤ ofUnpacked b := by
  unfold UnpackedFloat.le
  by_cases ha : ofUnpacked a = ⊥
  · rw [compare_eq_none (.inl ha)]
    simp [ha]
  by_cases hb : ofUnpacked b = ⊥
  · rw [compare_eq_none (.inr hb), hb]
    simp
  obtain ⟨o, ho, hcompares⟩ := exists_compares ha hb
  rw [ho, ← not_lt, ← hcompares.eq_gt]
  cases o <;> simp [ha]

end Place

/-! ### The places of floating-point numbers -/

/-- The place of a floating-point number. -/
def place (x : Float) : Place :=
  Place.ofUnpacked x.toModel.unpack

section
variable {x y : Float}

theorem place_eq_bot_iff : place x = ⊥ ↔ x.isNaN :=
  Place.ofUnpacked_eq_bot_iff

/-- **A number is less than another one if its place is lower.** -/
theorem lt_iff_place : x < y ↔ place x ≠ ⊥ ∧ place x < place y := by
  rw [place, place, ← Place.lt_iff]
  exact decide_eq_true_iff

theorem le_iff_place : x ≤ y ↔ place x ≠ ⊥ ∧ place x ≤ place y := by
  rw [place, place, ← Place.le_iff]
  exact decide_eq_true_iff

/-- **The larger of two numbers has the higher place.** -/
theorem place_larger (x y : Float) : place (larger x y) = max (place x) (place y) := by
  unfold larger
  -- a value that is not a number has the lowest place, and gives way
  split
  · next hx => rw [place_eq_bot_iff.mpr hx, bot_sup_eq]
  · next hx =>
    split
    · next hy => rw [place_eq_bot_iff.mpr hy, sup_bot_eq]
    · split
      · next hlt => rw [max_eq_right (lt_iff_place.mp hlt).2.le]
      · next hlt =>
        have hle : place y ≤ place x :=
          not_lt.mp fun h => hlt (lt_iff_place.mpr ⟨mt place_eq_bot_iff.mp hx, h⟩)
        rw [max_eq_left hle]

/-- A number is less than whatever lies above something that it is less than. -/
theorem lt_of_lt_of_place_le {z : Float} (hxy : x < y) (hyz : place y ≤ place z) : x < z := by
  obtain ⟨hx, hlt⟩ := lt_iff_place.mp hxy
  exact lt_iff_place.mpr ⟨hx, hlt.trans_le hyz⟩

/-- A value is the same as another one, or a number below it. -/
def AtMost (x y : Float) : Prop :=
  x = y ∨ x < y

theorem AtMost.trans_lt {z : Float} (h : AtMost x y) (hyz : y < z) : x < z := by
  rcases h with rfl | hxy
  · exact hyz
  · exact lt_of_lt_of_place_le hxy (lt_iff_place.mp hyz).2.le

end
end TripleBarrier
