/-!
# Digits and numerals

Digits in bases up to sixteen, letters of either case standing for ten to fifteen, the numbers that
runs of digits stand for, and the decimal text of whole numbers.

## Main definitions

* `digitValue`, `isDigitOf` — digits and their values.
* `numeral` — the number that a run of digits stands for.
* `natText`, `intText` — the decimal text of whole numbers.

## Main results

* `numeral_natText` — the decimal text of a number stands for that number.
-/

namespace TripleBarrier
namespace Text

/-- The value of a digit: of a decimal one, or of a letter from `a` to `f` in either case. -/
def digitValue (c : Char) : Nat :=
  if c.isDigit then c.toNat - '0'.toNat
  else if 'a' ≤ c then c.toNat - 'a'.toNat + 10
  else c.toNat - 'A'.toNat + 10

/-- Whether a character is a digit in a base of two to ten, or of sixteen. -/
def isDigitOf (base : Nat) (c : Char) : Bool :=
  if c.isDigit then digitValue c < base
  else base = 16 && (('a' ≤ c && c ≤ 'f') || ('A' ≤ c && c ≤ 'F'))

/-- The number that digits stand for, the first one weighing most. -/
def numeral (base : Nat) (digits : List Char) : Nat :=
  digits.foldl (fun n c => n * base + digitValue c) 0

/-- The decimal digits of a number, at least one. -/
def natText (n : Nat) : List Char :=
  Nat.toDigits 10 n

/-- The decimal digits of an integer after its sign, if it is negative. -/
def intText (i : Int) : List Char :=
  if i < 0 then '-' :: natText i.natAbs else natText i.natAbs

/-! ### Numerals and their texts -/

@[simp] theorem numeral_nil (base : Nat) : numeral base [] = 0 := rfl

/-- The last digit counts ones. -/
@[simp] theorem numeral_append_singleton (base : Nat) (digits : List Char) (c : Char) :
    numeral base (digits ++ [c]) = numeral base digits * base + digitValue c := by
  simp [numeral]

theorem isDigit_of_mem_natText {n : Nat} {c : Char} (h : c ∈ natText n) : c.isDigit :=
  Nat.isDigit_of_mem_toDigits (by decide) (by decide) h

/-- Decimal digits are read alike here and by the standard library. -/
private theorem foldl_digitValue (digits : List Char) (h : ∀ c ∈ digits, c.isDigit) (n : Nat) :
    digits.foldl (fun n c => n * 10 + digitValue c) n = Nat.ofDigitChars 10 digits n := by
  induction digits generalizing n with
  | nil => rfl
  | cons c rest ih =>
    rw [List.foldl_cons, Nat.ofDigitChars_cons, ih fun d hd => h d (List.mem_cons_of_mem c hd)]
    rw [digitValue, if_pos (h c List.mem_cons_self), Nat.mul_comm]

/-- **The decimal text of a number stands for that number.** -/
@[simp] theorem numeral_natText (n : Nat) : numeral 10 (natText n) = n := by
  rw [numeral, foldl_digitValue _ fun _ => isDigit_of_mem_natText]
  exact Nat.ofDigitChars_ten_toDigits

end Text
end TripleBarrier
