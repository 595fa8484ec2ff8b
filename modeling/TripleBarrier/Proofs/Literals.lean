import Mathlib
import TripleBarrier.Json.Basic
import TripleBarrier.Json.Number
import TripleBarrier.Proofs.FloatLimits
import TripleBarrier.Proofs.ShortestDigits

/-!
# Number literals and their texts

The scanner of number literals undoes their spelling: the text of a well-formed literal, whatever
follows it, is split into its parts again, as long as what follows does not go on with the number.
Whole numbers and finite floats are both written as well-formed literals, so the number that is read
is the one that the reader makes of the parts that were written.

## Main definitions

* `Literal.IsWellFormed` — digits are never missing, and no zero leads.
* `Literal.chars` — the text of a literal.
* `Literal.ofInt`, `Literal.ofFloat` — the literals that numbers are written as.

## Main results

* `Literal.scan?_chars_append` — the scanner finds a literal again.
* `Literal.chars_ofInt`, `Literal.chars_ofFloat` — the texts of numbers are those of their literals.
* `Literal.value_ofInt` — a whole number of 64 bits is read back.
-/

namespace TripleBarrier
/-- A text is parted where a run ends. -/
theorem span_append {p : Char → Bool} {xs ys : List Char} (hxs : ∀ c ∈ xs, p c)
    (hys : ∀ c ∈ ys.head?, p c = false) : (xs ++ ys).span p = (xs, ys) := by
  have hstop : ys.takeWhile p = [] ∧ ys.dropWhile p = ys := by
    cases ys with
    | nil => exact ⟨rfl, rfl⟩
    | cons c ys =>
      have hc := hys c rfl
      exact ⟨List.takeWhile_cons_of_neg (by simp [hc]), List.dropWhile_cons_of_neg (by simp [hc])⟩
  rw [List.span_eq_takeWhile_dropWhile, List.takeWhile_append_of_pos hxs,
    List.dropWhile_append_of_pos hxs, hstop.1, hstop.2, List.append_nil]

namespace Json

/-- A text that does not go on with a number that stands before it. -/
def EndsNumber (rest : List Char) : Prop :=
  ∀ c ∈ rest.head?, c.isDigit = false ∧ c ≠ '.' ∧ c ≠ 'e' ∧ c ≠ 'E'

theorem endsNumber_nil : EndsNumber [] :=
  fun _ hc => nomatch hc

theorem endsNumber_cons {c : Char} {rest : List Char}
    (h : c.isDigit = false ∧ c ≠ '.' ∧ c ≠ 'e' ∧ c ≠ 'E') : EndsNumber (c :: rest) :=
  fun _ hc => Option.some.inj hc ▸ h

namespace Literal

/-! ### Runs of digits -/

/-- A run of digits, at least one. -/
structure IsRun (ds : List Char) : Prop where
  ne_nil : ds ≠ []
  isDigit : ∀ c ∈ ds, c.isDigit

theorem IsRun.append {ds es : List Char} (h : IsRun ds) (hes : ∀ c ∈ es, c.isDigit) :
    IsRun (ds ++ es) where
  ne_nil := List.append_ne_nil_of_left_ne_nil h.ne_nil es
  isDigit c hc := (List.mem_append.mp hc).elim (h.isDigit c) (hes c)

theorem IsRun.prepend {ds es : List Char} (h : IsRun ds) (hes : ∀ c ∈ es, c.isDigit) :
    IsRun (es ++ ds) where
  ne_nil := List.append_ne_nil_of_right_ne_nil es h.ne_nil
  isDigit c hc := (List.mem_append.mp hc).elim (hes c) (h.isDigit c)

theorem IsRun.take {ds : List Char} (h : IsRun ds) {n : ℕ} (hn : 0 < n) : IsRun (ds.take n) where
  ne_nil := by
    rw [Ne, List.take_eq_nil_iff]
    rintro (rfl | hnil)
    · exact Nat.lt_irrefl 0 hn
    · exact h.ne_nil hnil
  isDigit c hc := h.isDigit c (List.mem_of_mem_take hc)

theorem IsRun.drop {ds : List Char} (h : IsRun ds) {n : ℕ} (hn : n < ds.length) :
    IsRun (ds.drop n) where
  ne_nil hnil := absurd (List.drop_eq_nil_iff.mp hnil) (Nat.not_le.mpr hn)
  isDigit c hc := h.isDigit c (List.mem_of_mem_drop hc)

theorem isRun_natText (n : ℕ) : IsRun (Text.natText n) where
  ne_nil := Nat.toDigits_ne_nil
  isDigit _ := Text.isDigit_of_mem_natText

theorem isRun_zero : IsRun ['0'] :=
  isRun_natText 0

theorem isDigit_of_mem_zeros {n : ℕ} : ∀ c ∈ List.replicate n '0', c.isDigit := by
  intro c hc
  rw [List.eq_of_mem_replicate hc]
  rfl

/-- The digits of a number other than zero do not start with a zero. -/
theorem head?_natText_ne {n : ℕ} (hn : 0 < n) : (Text.natText n).head? ≠ some '0' := by
  unfold Text.natText
  induction n using Nat.strong_induction_on with
  | _ n ih =>
    rw [Nat.toDigits_eq_if (by decide)]
    split
    · next hlt =>
      interval_cases n <;> decide
    · next hle =>
      rw [List.head?_append_of_ne_nil _ Nat.toDigits_ne_nil]
      exact ih (n / 10) (Nat.div_lt_self hn (by decide))
        (Nat.div_pos (Nat.not_lt.mp hle) (by decide))

/-! ### Well-formed literals and their texts -/

/-- Digits are never missing, and a zero that leads stands alone. -/
structure IsWellFormed (l : Literal) : Prop where
  whole : IsRun l.whole
  leading : l.whole.head? = some '0' → l.whole = ['0']
  fraction : ∀ ds ∈ l.fraction, IsRun ds
  exponent : ∀ e ∈ l.exponent, IsRun e.2

/-- The sign, which only a negative number has. -/
def signChars (isNegative : Bool) : List Char :=
  if isNegative then ['-'] else []

/-- The fraction behind its point. -/
def fractionChars : Option (List Char) → List Char
  | none => []
  | some ds => '.' :: ds

/-- The exponent, always with its sign. -/
def exponentChars : Option (Bool × List Char) → List Char
  | none => []
  | some (isNegative, ds) => 'e' :: (if isNegative then '-' else '+') :: ds

/-- The text of a literal. -/
def chars (l : Literal) : List Char :=
  signChars l.isNegative ++ (l.whole ++ (fractionChars l.fraction ++ exponentChars l.exponent))

/-! ### Scanning what was written -/

section
variable {ds rest : List Char}

theorem digits?_append (hds : IsRun ds) (hrest : ∀ c ∈ rest.head?, c.isDigit = false) :
    digits? (ds ++ rest) = some (ds, rest) := by
  unfold digits?
  rw [span_append hds.isDigit hrest]
  cases ds with
  | nil => exact absurd rfl hds.ne_nil
  | cons d ds => rfl

theorem whole?_append (hds : IsRun ds) (hleading : ds.head? = some '0' → ds = ['0'])
    (hrest : ∀ c ∈ rest.head?, c.isDigit = false) : whole? (ds ++ rest) = some (ds, rest) := by
  unfold whole?
  rw [digits?_append hds hrest]
  split
  · next heq =>
    cases heq
    exact nomatch hleading rfl
  · rfl

theorem fraction?_append {f : Option (List Char)} (hf : ∀ ds ∈ f, IsRun ds)
    (hrest : ∀ c ∈ rest.head?, c.isDigit = false ∧ c ≠ '.') :
    fraction? (fractionChars f ++ rest) = some (f, rest) := by
  cases f with
  | none =>
    rw [fractionChars, List.nil_append]
    unfold fraction?
    split
    · exact absurd rfl (hrest '.' rfl).2
    · rfl
  | some ds =>
    have hrun := digits?_append (hf ds rfl) fun c hc => (hrest c hc).1
    rw [fractionChars, List.cons_append, fraction?, hrun, Option.map_some]

theorem exponent?_append {e : Option (Bool × List Char)} (he : ∀ e' ∈ e, IsRun e'.2)
    (hrest : EndsNumber rest) : exponent? (exponentChars e ++ rest) = some (e, rest) := by
  cases e with
  | none =>
    rw [exponentChars, List.nil_append]
    cases rest with
    | nil => rfl
    | cons c rest =>
      have hmark : ¬(c = 'e' ∨ c = 'E') := not_or.mpr (hrest c rfl).2.2
      exact if_neg hmark
  | some e =>
    obtain ⟨isNegative, ds⟩ := e
    have hrun := digits?_append (he _ rfl) fun c hc => (hrest c hc).1
    cases isNegative with
    | true => simp [exponentChars, exponent?, hrun]
    | false => simp [exponentChars, exponent?, hrun]

/-- An exponent does not go on with the digits before it. -/
theorem head?_exponentChars_append (e : Option (Bool × List Char)) (hrest : EndsNumber rest) :
    ∀ c ∈ (exponentChars e ++ rest).head?, c.isDigit = false ∧ c ≠ '.' := by
  cases e with
  | none => exact fun c hc => ⟨(hrest c hc).1, (hrest c hc).2.1⟩
  | some e =>
    intro c hc
    cases Option.some.inj hc
    decide

/-- A fraction does not go on with the digits before it. -/
theorem head?_fractionChars_append (f : Option (List Char))
    (hrest : ∀ c ∈ rest.head?, c.isDigit = false) :
    ∀ c ∈ (fractionChars f ++ rest).head?, c.isDigit = false := by
  cases f with
  | none => exact hrest
  | some ds =>
    intro c hc
    cases Option.some.inj hc
    decide

/-- **The scanner finds a well-formed literal again, and leaves what follows it.** -/
theorem scan?_chars_append {l : Literal} (hl : l.IsWellFormed) (hrest : EndsNumber rest) :
    scan? (l.chars ++ rest) = some (l, rest) := by
  obtain ⟨isNegative, whole, fraction, exponent⟩ := l
  dsimp only [chars]
  simp only [List.append_assoc]
  -- from the right: what follows a part does not go on with it
  have hexponent := exponent?_append hl.exponent hrest
  have hbehind := head?_exponentChars_append exponent hrest
  have hfraction := fraction?_append hl.fraction hbehind
  have hwhole := whole?_append hl.whole hl.leading
    (head?_fractionChars_append fraction fun c hc => (hbehind c hc).1)
  dsimp only at hexponent hfraction hwhole
  cases isNegative with
  | true =>
    simp only [signChars, if_true, List.cons_append, List.nil_append, scan?, hwhole, hfraction,
      hexponent, Option.bind_eq_bind, Option.bind_some, Option.pure_def]
  | false =>
    have hsign : ∀ cs, whole ++ (fractionChars fraction ++ (exponentChars exponent ++ rest)) ≠
        '-' :: cs := by
      intro cs heq
      rw [heq] at hwhole
      exact nomatch hwhole
    rw [signChars, if_neg Bool.false_ne_true, List.nil_append]
    unfold scan?
    split
    next sign cs heq =>
    split at heq
    · next heq' => exact absurd heq' (hsign _)
    · cases heq
      simp only [hwhole, hfraction, hexponent, Option.bind_eq_bind, Option.bind_some,
        Option.pure_def]

end

/-! ### Whole numbers -/

/-- The literal that a whole number is written as. -/
def ofInt (i : ℤ) : Literal where
  isNegative := decide (i < 0)
  whole := Text.natText i.natAbs
  fraction := none
  exponent := none

theorem eq_zero_of_head?_natText {n : ℕ} (h : (Text.natText n).head? = some '0') :
    Text.natText n = ['0'] := by
  rcases Nat.eq_zero_or_pos n with rfl | hn
  · rfl
  · exact absurd h (head?_natText_ne hn)

theorem isWellFormed_ofInt (i : ℤ) : (ofInt i).IsWellFormed where
  whole := isRun_natText _
  leading := eq_zero_of_head?_natText
  fraction _ h := nomatch h
  exponent _ h := nomatch h

theorem chars_ofInt (i : ℤ) : (ofInt i).chars = Text.intText i := by
  unfold Text.intText
  split
  · next h => simp [chars, ofInt, signChars, fractionChars, exponentChars, h]
  · next h => simp [chars, ofInt, signChars, fractionChars, exponentChars, h]

/-- **A whole number that 64 bits can hold, with or without a sign, is read back.** -/
theorem value_ofInt {i : ℤ} (hmin : Int64.minValue.toInt ≤ i) (hmax : i < UInt64.size) :
    (ofInt i).value = .int i := by
  unfold value ofInt
  simp only [Text.numeral_natText, Option.isNone_none, Bool.true_and]
  rcases lt_or_ge i 0 with hneg | hpos
  · have habs : (i.natAbs : ℤ) = -i := Int.ofNat_natAbs_of_nonpos (Int.le_of_lt hneg)
    rw [if_neg (by simp [hneg]), if_pos, habs, Int.neg_neg]
    simp only [hneg, decide_true, Bool.true_and, Bool.and_eq_true, decide_eq_true_eq]
    omega
  · have habs : (i.natAbs : ℤ) = i := Int.natAbs_of_nonneg hpos
    rw [if_pos, habs]
    simp only [Int.not_lt.mpr hpos, decide_false, Bool.not_false, Bool.true_and, decide_eq_true_eq]
    omega

/-! ### Floats -/

/-- The literal of digits with the point behind the `whole`-th place. -/
def positional (isNegative : Bool) (digits : List Char) (whole : ℤ) : Literal :=
  if whole ≤ 0 then
    ⟨isNegative, ['0'], some (List.replicate (-whole).toNat '0' ++ digits), none⟩
  else if digits.length ≤ whole.toNat then
    ⟨isNegative, digits ++ List.replicate (whole.toNat - digits.length) '0', some ['0'], none⟩
  else
    ⟨isNegative, digits.take whole.toNat, some (digits.drop whole.toNat), none⟩

/-- The literal of digits with the point behind the first one, and an exponent. -/
def scientific (isNegative : Bool) (digits : List Char) (exponent : ℤ) : Literal where
  isNegative := isNegative
  whole := digits.take 1
  fraction := if digits.length ≤ 1 then none else some (digits.drop 1)
  exponent := some (decide (exponent < 0), Text.natText exponent.natAbs)

theorem chars_positional (isNegative : Bool) (digits : List Char) (whole : ℤ) :
    (positional isNegative digits whole).chars =
      signChars isNegative ++ Decimal.Layout.positional true digits whole := by
  unfold positional Decimal.Layout.positional
  split
  · simp [chars, fractionChars, exponentChars]
  · split
    · simp [chars, fractionChars, exponentChars]
    · simp [chars, fractionChars, exponentChars]

theorem chars_scientific (isNegative : Bool) {digits : List Char} (h : IsRun digits)
    (exponent : ℤ) :
    (scientific isNegative digits exponent).chars =
      signChars isNegative ++ Decimal.Layout.scientific digits exponent := by
  match digits, h with
  | [], h => exact absurd rfl h.ne_nil
  | [d], _ => simp [scientific, Decimal.Layout.scientific, chars, fractionChars, exponentChars]
  | d :: e :: rest, _ =>
    simp [scientific, Decimal.Layout.scientific, chars, fractionChars, exponentChars]

section
variable {digits : List Char}

/-- A zero may lead the digits only if it is the only one and stands before the point. -/
theorem isWellFormed_positional (isNegative : Bool) (h : IsRun digits) {whole : ℤ}
    (hleading : digits.head? = some '0' → digits = ['0'] ∧ whole = 1) :
    (positional isNegative digits whole).IsWellFormed := by
  unfold positional
  split
  · exact
      { whole := isRun_zero
        leading := fun _ => rfl
        fraction := fun ds hds => Option.some.inj hds ▸ h.prepend isDigit_of_mem_zeros
        exponent := fun _ he => nomatch he }
  split
  · exact
      { whole := h.append isDigit_of_mem_zeros
        leading := fun hhead => by
          dsimp only at hhead ⊢
          rw [List.head?_append_of_ne_nil _ h.ne_nil] at hhead
          obtain ⟨rfl, rfl⟩ := hleading hhead
          rfl
        fraction := fun ds hds => Option.some.inj hds ▸ isRun_zero
        exponent := fun _ he => nomatch he }
  · next hpos hlength =>
    exact
      { whole := h.take (by omega)
        leading := fun hhead => by
          dsimp only at hhead
          rw [List.head?_take, if_neg (by omega)] at hhead
          obtain ⟨rfl, rfl⟩ := hleading hhead
          exact absurd le_rfl hlength
        fraction := fun ds hds => Option.some.inj hds ▸ h.drop (Nat.not_le.mp hlength)
        exponent := fun _ he => nomatch he }

theorem isWellFormed_scientific (isNegative : Bool) (h : IsRun digits) (exponent : ℤ) :
    (scientific isNegative digits exponent).IsWellFormed where
  whole := h.take Nat.one_pos
  leading hhead := by
    cases digits with
    | nil => exact absurd rfl h.ne_nil
    | cons d ds => exact congrArg (· :: []) (Option.some.inj hhead)
  fraction ds hds := by
    dsimp only [scientific] at hds
    split at hds
    · exact nomatch hds
    · next hlength =>
      cases Option.some.inj hds
      exact h.drop (Nat.not_le.mp hlength)
  exponent e he := by
    cases Option.some.inj he
    exact isRun_natText _

end

/-- The literal of digits with the point behind the `whole`-th place, in the notation that
documents use there. -/
def ofDigits (isNegative : Bool) (digits : List Char) (whole : ℤ) : Literal :=
  if Decimal.interchange.isPositional (whole - 1) then positional isNegative digits whole
  else scientific isNegative digits (whole - 1)

theorem chars_ofDigits (isNegative : Bool) {digits : List Char} (h : IsRun digits) (whole : ℤ) :
    (ofDigits isNegative digits whole).chars = signChars isNegative ++
      if Decimal.interchange.isPositional (whole - 1) then
        Decimal.Layout.positional true digits whole
      else Decimal.Layout.scientific digits (whole - 1) := by
  unfold ofDigits
  by_cases hwhole : Decimal.interchange.isPositional (whole - 1)
  · rw [if_pos hwhole, if_pos hwhole, chars_positional]
  · rw [if_neg hwhole, if_neg hwhole, chars_scientific isNegative h]

theorem isWellFormed_ofDigits (isNegative : Bool) {digits : List Char} (h : IsRun digits)
    {whole : ℤ} (hleading : digits.head? = some '0' → digits = ['0'] ∧ whole = 1) :
    (ofDigits isNegative digits whole).IsWellFormed := by
  unfold ofDigits
  split
  · exact isWellFormed_positional isNegative h hleading
  · exact isWellFormed_scientific isNegative h _

/-- The literal that a finite float is written as. -/
def ofFloat (x : Float) : Literal :=
  let m := Decimal.Magnitude.ofFloat x
  if m.coeff = 0 then positional (Decimal.isNegative x) ['0'] 1
  else
    let d := Decimal.shortest .toEven m
    let digits := Text.natText d.coeff
    ofDigits (Decimal.isNegative x) digits (d.power + digits.length)

/-- What a finite float is written as is well formed: its digits do not start with a zero. -/
theorem isWellFormed_ofFloat (x : Float) : (ofFloat x).IsWellFormed := by
  unfold ofFloat
  dsimp only
  split
  · exact isWellFormed_positional _ isRun_zero fun _ => ⟨rfl, rfl⟩
  · next hcoeff =>
    have hhead := head?_natText_ne (Decimal.coeff_shortest_pos .toEven hcoeff)
    exact isWellFormed_ofDigits _ (isRun_natText _) fun h => absurd h hhead

theorem signChars_append (isNegative : Bool) (text : List Char) :
    signChars isNegative ++ text = if isNegative then '-' :: text else text := by
  cases isNegative with
  | true => rfl
  | false => rfl

/-- **A finite float is written as its literal.** -/
theorem chars_ofFloat {x : Float} (h : x.isFinite) :
    (ofFloat x).chars = Decimal.interchange.render x := by
  have hrender : Decimal.interchange.render x = signChars (Decimal.isNegative x) ++
      if (Decimal.Magnitude.ofFloat x).coeff = 0 then Decimal.Layout.positional true ['0'] 1
      else Decimal.interchange.magnitudeText (Decimal.Magnitude.ofFloat x) := by
    rw [signChars_append, Decimal.Layout.render, isNaN_of_isFinite h, isInf_of_isFinite h]
    rfl
  rw [hrender]
  unfold ofFloat
  dsimp only
  split
  · exact chars_positional _ _ _
  · exact chars_ofDigits _ (isRun_natText _) _

end Literal
end Json
end TripleBarrier
