import Mathlib
import TripleBarrier.Proofs.ExactReading
import TripleBarrier.Proofs.NearestFloats
import TripleBarrier.Toml.Scalar

/-!
# Words that are written

A settings file holds floats in full, whole numbers and truth values, each as one word.  A float is
a run of digits, a point and a run of digits, so its word is no date, no time, no truth value and no
whole number, and the decimal that it denotes rounds to the float.  The reader finds the nearest
float to that decimal, so the float is read back to its last bit, and the sign of a zero with it.

## Main definitions

* `Toml.literalOf` — the literal that a finite float is written as.

## Main results

* `Toml.word?_append` — a number without letters is a whole number, or else a float.
* `Toml.word?_pointed` — a number with a point is the word of the nearest float.
* `Toml.nearest_of_literalOf_eq` — the nearest float to what is written for a float is that float.
* `Toml.word?_render` — **every finite float is read back.**
* `Toml.word?_natText`, `Toml.word?_boolText` — so are whole numbers and truth values.
-/

namespace TripleBarrier
namespace Toml

open Decimal Json.Literal
open Text (isDigitOf numeral natText digitValue_lt)

/-! ### Runs of digits -/

theorem isDigitOf_ten {c : Char} (h : c.isDigit) : isDigitOf 10 c := by
  rw [isDigitOf, if_pos h]
  exact decide_eq_true (digitValue_lt h)

theorem isDigitOf_ten_eq_false {c : Char} (h : c.isDigit = false) : isDigitOf 10 c = false := by
  rw [isDigitOf, if_neg (by rw [h]; decide)]
  rfl

/-- Digits with nothing between them are read as they are. -/
theorem digits?_of_isRun {ds : List Char} (h : IsRun ds) : digits? 10 ds = some ds := by
  obtain ⟨hne, hdigits⟩ := h
  induction ds with
  | nil => exact absurd rfl hne
  | cons d ds ih =>
    have hd := isDigitOf_ten (hdigits d List.mem_cons_self)
    cases ds with
    | nil => rw [digits?, if_pos hd]
    | cons e ds =>
      have hrest := ih (List.cons_ne_nil e ds) fun c hc => hdigits c (List.mem_cons_of_mem d hc)
      have he : e ≠ '_' := by
        rintro rfl
        exact absurd (hdigits '_' (by simp)) (by decide)
      rw [digits?, if_pos hd, hrest, Option.map_some]
      · simp
      · simpa using he

/-- A character that is neither a digit nor an underscore is in no run of digits. -/
theorem digits?_eq_none {c : Char} (hc : c.isDigit = false) (hline : c ≠ '_') {cs : List Char}
    (hmem : c ∈ cs) : digits? 10 cs = none := by
  have hnot : ¬isDigitOf 10 c := by
    rw [isDigitOf_ten_eq_false hc]
    exact Bool.false_ne_true
  -- a digit is taken by itself, or together with the underscore behind it
  fun_induction digits? 10 cs with
  | case1 => exact nomatch hmem
  | case2 d hd =>
    rw [List.mem_singleton] at hmem
    exact absurd (hmem ▸ hd) hnot
  | case3 d hd => rfl
  | case4 d rest hd ih =>
    rcases List.mem_cons.mp hmem with rfl | hmem
    · exact absurd hd hnot
    · rcases List.mem_cons.mp hmem with rfl | hmem
      · exact absurd rfl hline
      · rw [ih hmem, Option.map_none]
  | case5 d rest hd => rfl
  | case6 d rest hsingle hrun hd ih =>
    rcases List.mem_cons.mp hmem with rfl | hmem
    · exact absurd hd hnot
    · rw [ih hmem, Option.map_none]
  | case7 d rest hsingle hrun hd => rfl

/-- Digits of which no zero leads are a decimal numeral. -/
theorem decimal?_of_isRun {ds : List Char} (h : IsRun ds)
    (hleading : ds.head? = some '0' → ds = ['0']) :
    decimal? ds = some ds := by
  unfold decimal?
  rw [digits?_of_isRun h]
  split
  · next heq =>
    cases heq
    exact nomatch hleading rfl
  · rfl

theorem decimal?_eq_none {cs : List Char} (h : digits? 10 cs = none) : decimal? cs = none := by
  unfold decimal?
  rw [h]

/-! ### Dates and times -/

theorem mem_of_mem_two? {low high n : ℕ} {cs rest : List Char}
    (h : two? low high cs = some (n, rest)) {c : Char} (hc : c ∈ rest) : c ∈ cs := by
  unfold two? at h
  split at h
  · next a b cs =>
    dsimp only at h
    split at h
    · obtain ⟨-, rfl⟩ := Prod.mk.inj (Option.some.inj h)
      exact List.mem_cons_of_mem a (List.mem_cons_of_mem b hc)
    · exact nomatch h
  · exact nomatch h

/-- A time of day has a colon. -/
theorem afterTime?_eq_none {cs : List Char} (h : ':' ∉ cs) : afterTime? cs = none := by
  unfold afterTime?
  cases htwo : two? 0 23 cs with
  | none => rfl
  | some two =>
    obtain ⟨n, rest⟩ := two
    have hrest : ':' ∉ rest := fun hmem => h (mem_of_mem_two? htwo hmem)
    rw [Option.bind_eq_bind, Option.bind_some]
    dsimp only
    split
    · exact absurd List.mem_cons_self hrest
    · rfl

/-- A date has a hyphen behind its year. -/
theorem afterDate?_eq_none {cs : List Char} (h : '-' ∉ cs.tail) : afterDate? cs = none := by
  unfold afterDate?
  split
  · next a b c d cs =>
    exact absurd (by simp) h
  · rfl

theorem isDateTime_eq_false {cs : List Char} (hdate : '-' ∉ cs.tail) (htime : ':' ∉ cs) :
    isDateTime cs = false := by
  unfold isDateTime
  rw [afterDate?_eq_none hdate]
  dsimp only
  rw [afterTime?_eq_none htime]
  rfl

/-! ### Numbers without letters -/

section
variable {body : List Char} (hbody : ∀ c ∈ body, c.isDigit ∨ c = '.')
include hbody

theorem hyphen_notMem : '-' ∉ body :=
  fun h => (hbody '-' h).elim nofun nofun

/-- A number without letters has digits, a point and a sign, and nothing else. -/
theorem other_notMem (isNegative : Bool) (c : Char) (h : c.isDigit = false ∧ c ≠ '.' ∧ c ≠ '-') :
    c ∉ signChars isNegative ++ body := by
  intro hmem
  rcases List.mem_append.mp hmem with hsign | hmem
  · cases isNegative with
    | true => exact h.2.2 (List.mem_singleton.mp hsign)
    | false => exact nomatch hsign
  · rcases hbody c hmem with hdigit | hpoint
    · exact Bool.false_ne_true (h.1.symm.trans hdigit)
    · exact h.2.1 hpoint

theorem isWordChar_of_mem (isNegative : Bool) :
    ∀ c ∈ signChars isNegative ++ body, isWordChar c := by
  intro c hc
  rcases List.mem_append.mp hc with hsign | hmem
  · cases isNegative with
    | true =>
      rw [List.mem_singleton.mp hsign]
      decide
    | false => exact nomatch hsign
  · rcases hbody c hmem with hdigit | rfl
    · simp [isWordChar, Char.isAlphanum, hdigit]
    · decide

theorem sign_append (isNegative : Bool) :
    sign (signChars isNegative ++ body) = (isNegative, body) := by
  cases isNegative with
  | true => rfl
  | false =>
    show sign body = _
    unfold sign
    split
    · exact absurd List.mem_cons_self (hyphen_notMem hbody)
    · exact nomatch hbody '+' List.mem_cons_self
    · rfl

/-- A number without letters is no date: if it has a hyphen, that is its sign. -/
theorem isDateTime_append (isNegative : Bool) :
    isDateTime (signChars isNegative ++ body) = false := by
  have hbehind : '-' ∉ (signChars isNegative ++ body).tail := by
    cases isNegative with
    | true => exact hyphen_notMem hbody
    | false => exact fun h => hyphen_notMem hbody (List.mem_of_mem_tail h)
  exact isDateTime_eq_false hbehind (other_notMem hbody isNegative ':' (by decide))

/-- A number without letters has no mark of a base. -/
theorem integer?_append (isNegative : Bool) :
    integer? (signChars isNegative ++ body) = (decimal? body).bind fun ds =>
      let i : ℤ := if isNegative then -numeral 10 ds else numeral 10 ds
      if Int64.minValue.toInt ≤ i ∧ i ≤ Int64.maxValue.toInt then some i else none := by
  have hother := other_notMem hbody isNegative
  unfold integer?
  split
  · next heq => exact absurd (by rw [heq]; simp) (hother 'x' (by decide))
  · next heq => exact absurd (by rw [heq]; simp) (hother 'o' (by decide))
  · next heq => exact absurd (by rw [heq]; simp) (hother 'b' (by decide))
  · rw [sign_append hbody]

/-- A number without letters is a whole number, or else a float. -/
theorem word?_append (isNegative : Bool) :
    word? (signChars isNegative ++ body) = (integer? (signChars isNegative ++ body)).elim
      ((float? (signChars isNegative ++ body)).map .float) fun i => some (.int i) := by
  have hother := other_notMem hbody isNegative
  have htrue : signChars isNegative ++ body ≠ ['t', 'r', 'u', 'e'] :=
    fun heq => hother 't' (by decide) (by rw [heq]; simp)
  have hfalse : signChars isNegative ++ body ≠ ['f', 'a', 'l', 's', 'e'] :=
    fun heq => hother 'f' (by decide) (by rw [heq]; simp)
  rw [word?, if_neg htrue, if_neg hfalse, isDateTime_append hbody, if_neg Bool.false_ne_true]
  cases integer? (signChars isNegative ++ body) with
  | some i => rfl
  | none => rfl

end

/-- **A whole number of 64 bits is read back.** -/
theorem word?_natText {n : ℕ} (h : n ≤ Int64.maxValue.toInt) :
    word? (natText n) = some (.int n) := by
  have hrun := isRun_natText n
  have hbody : ∀ c ∈ natText n, c.isDigit ∨ c = '.' := fun c hc => .inl (hrun.isDigit c hc)
  have hmin : Int64.minValue.toInt ≤ n := by
    have hneg : Int64.minValue.toInt ≤ 0 := by decide
    omega
  have hinteger := integer?_append hbody false
  rw [decimal?_of_isRun hrun eq_zero_of_head?_natText, Option.bind_some] at hinteger
  dsimp only at hinteger
  rw [Text.numeral_natText, if_neg Bool.false_ne_true, if_pos ⟨hmin, h⟩] at hinteger
  have hword := word?_append hbody false
  rw [hinteger] at hword
  exact hword

theorem isWordChar_of_mem_natText (n : ℕ) : ∀ c ∈ natText n, isWordChar c :=
  isWordChar_of_mem (fun c hc => .inl ((isRun_natText n).isDigit c hc)) false

theorem word?_boolText (b : Bool) : word? (Json.boolText b) = some (.bool b) := by
  cases b with
  | true => rfl
  | false => rfl

theorem isWordChar_of_mem_boolText (b : Bool) : ∀ c ∈ Json.boolText b, isWordChar c := by
  cases b with
  | true => exact List.all_eq_true.mp (by decide)
  | false => exact List.all_eq_true.mp (by decide)

/-! ### Numbers with a point -/

section
variable {whole ds : List Char} (hwhole : IsRun whole) (hds : IsRun ds)
include hwhole hds

theorem isDigit_or_point_of_mem : ∀ c ∈ whole ++ '.' :: ds, c.isDigit ∨ c = '.' := by
  intro c hc
  rcases List.mem_append.mp hc with hmem | hmem
  · exact .inl (hwhole.isDigit c hmem)
  · rcases List.mem_cons.mp hmem with rfl | hmem
    · exact .inr rfl
    · exact .inl (hds.isDigit c hmem)

variable (hleading : whole.head? = some '0' → whole = ['0'])
include hleading

/-- Without an exponent, the digits around the point are moved by as many places as
stand behind it. -/
theorem magnitude?_pointed : magnitude? (whole ++ '.' :: ds) =
    some (nearest (numeral 10 (whole ++ ds)) (0 - ds.length)) := by
  have hbody := isDigit_or_point_of_mem hwhole hds
  have hmantissa : (whole ++ '.' :: ds).span (fun c => c != 'e' && c != 'E') =
      (whole ++ '.' :: ds, []) := by
    have hmark : ∀ c ∈ whole ++ '.' :: ds, (c != 'e' && c != 'E') = true := by
      intro c hc
      rcases hbody c hc with hdigit | rfl
      · rw [Bool.and_eq_true, bne_iff_ne, bne_iff_ne]
        constructor
        · rintro rfl
          exact nomatch hdigit
        · rintro rfl
          exact nomatch hdigit
      · decide
    have hspan := @span_append _ _ [] hmark nofun
    rwa [List.append_nil] at hspan
  have hpoint : (whole ++ '.' :: ds).span (· != '.') = (whole, '.' :: ds) := by
    refine span_append ?_ ?_
    · intro c hc
      rw [bne_iff_ne]
      rintro rfl
      exact nomatch hwhole.isDigit '.' hc
    · intro c hc
      cases Option.some.inj hc
      decide
  unfold magnitude?
  rw [hmantissa]
  dsimp only
  rw [hpoint]
  dsimp only
  rw [decimal?_of_isRun hwhole hleading, digits?_of_isRun hds]
  rfl

/-- **A number with a point is the word of the nearest float**, which must not be infinite. -/
theorem word?_pointed (isNegative : Bool) {y : Float}
    (hy : nearest (numeral 10 (whole ++ ds)) (0 - ds.length) = y) (hfinite : y.isInf = false) :
    word? (signChars isNegative ++ (whole ++ '.' :: ds)) =
      some (.float (if isNegative then -y else y)) := by
  have hbody := isDigit_or_point_of_mem hwhole hds
  have hdecimal : decimal? (whole ++ '.' :: ds) = none :=
    decimal?_eq_none (digits?_eq_none (c := '.') (by decide) (by decide) (by simp))
  have hinf : whole ++ '.' :: ds ≠ ['i', 'n', 'f'] :=
    fun heq => (hbody 'i' (by rw [heq]; simp)).elim nofun nofun
  have hnan : whole ++ '.' :: ds ≠ ['n', 'a', 'n'] :=
    fun heq => (hbody 'n' (by rw [heq]; simp)).elim nofun nofun
  rw [word?_append hbody, integer?_append hbody, hdecimal, Option.bind_none, Option.elim_none]
  unfold float?
  rw [sign_append hbody]
  dsimp only
  rw [if_neg hinf, if_neg hnan, magnitude?_pointed hwhole hds hleading, Option.bind_some, hy,
    hfinite]
  rfl

end

/-! ### Floats -/

/-- The literal that a finite float is written as: all its digits, and a point among them. -/
def literalOf (x : Float) : Json.Literal :=
  let m := Magnitude.ofFloat x
  if m.coeff = 0 then positional (isNegative x) ['0'] 1
  else
    let d := shortest .up m
    positional (isNegative x) (natText d.coeff) (d.power + (natText d.coeff).length)

section
variable (x : Float)

theorem isWellFormed_literalOf : (literalOf x).IsWellFormed := by
  unfold literalOf
  dsimp only
  split
  · exact isWellFormed_positional _ isRun_zero fun _ => ⟨rfl, rfl⟩
  · next hcoeff =>
    have hhead := head?_natText_ne (coeff_shortest_pos .up hcoeff)
    exact isWellFormed_positional _ (isRun_natText _) fun h => absurd h hhead

/-- The parts of a literal with the point among its digits. -/
theorem exists_positional_eq (isNegative : Bool) (digits : List Char) (whole : ℤ) :
    ∃ ws ds, positional isNegative digits whole = ⟨isNegative, ws, some ds, none⟩ := by
  unfold positional
  split_ifs
  · exact ⟨_, _, rfl⟩
  · exact ⟨_, _, rfl⟩
  · exact ⟨_, _, rfl⟩

theorem exists_literalOf_eq : ∃ ws ds, literalOf x = ⟨isNegative x, ws, some ds, none⟩ := by
  unfold literalOf
  dsimp only
  split
  · exact exists_positional_eq _ _ _
  · exact exists_positional_eq _ _ _

variable {x}

theorem chars_literalOf (h : x.isFinite) : (literalOf x).chars = pointed.render x := by
  have hrender : pointed.render x = signChars (isNegative x) ++
      if (Magnitude.ofFloat x).coeff = 0 then Layout.positional true ['0'] 1
      else pointed.magnitudeText (Magnitude.ofFloat x) := by
    rw [signChars_append, Layout.render, isNaN_of_isFinite h, isInf_of_isFinite h]
    rfl
  rw [hrender]
  unfold literalOf
  dsimp only
  split
  · exact chars_positional _ _ _
  · exact chars_positional _ _ _

/-- What is written for a float other than zero denotes a positive number that rounds to it. -/
theorem holds_denoted_literalOf (h : (Magnitude.ofFloat x).coeff ≠ 0) :
    (Magnitude.ofFloat x).Holds (literalOf x).denoted ∧ 0 < (literalOf x).denoted := by
  have hdenoted : (literalOf x).denoted = (shortest .up (Magnitude.ofFloat x)).coeff *
      10 ^ (shortest .up (Magnitude.ofFloat x)).power := by
    unfold literalOf
    rw [if_neg h]
    dsimp only
    rw [denoted_positional, Text.numeral_natText, add_sub_cancel_right]
  rw [hdenoted]
  exact holds_shortest .up h

/-- **The nearest float to what is written for a float is that float**, apart from its sign. -/
theorem nearest_of_literalOf_eq {ws ds : List Char} (h : x.isFinite)
    (heq : literalOf x = ⟨isNegative x, ws, some ds, none⟩) :
    (nearest (numeral 10 (ws ++ ds)) (0 - ds.length)).isInf = false ∧
      (if isNegative x then -nearest (numeral 10 (ws ++ ds)) (0 - ds.length)
        else nearest (numeral 10 (ws ++ ds)) (0 - ds.length)) = x := by
  rcases eq_or_ne (Magnitude.ofFloat x).coeff 0 with hzero | hcoeff
  · have hliteral : literalOf x = ⟨isNegative x, ['0'], some ['0'], none⟩ := by
      unfold literalOf
      rw [if_pos hzero]
      rfl
    obtain ⟨-, rfl, hds, -⟩ := Json.Literal.mk.inj (hliteral.symm.trans heq)
    obtain rfl := Option.some.inj hds
    rcases (isZero_of_coeff_eq hzero).eq_or_eq with rfl | rfl
    · exact ⟨by rfl, by rfl⟩
    · exact ⟨by rfl, by rfl⟩
  · obtain ⟨hholds, hpos⟩ := holds_denoted_literalOf hcoeff
    have hdenoted : (literalOf x).denoted =
        numeral 10 (ws ++ ds) * 10 ^ ((0 : ℤ) - (ds.length : ℕ)) := by
      rw [heq]
      rfl
    rw [hdenoted] at hholds hpos
    have hnearest := unpack_nearest_of_holds (Magnitude.isCanonical_ofFloat h)
      (Nat.pos_of_ne_zero hcoeff) (pos_of_scaled_pos hpos) hholds
    exact ⟨isInf_of_isFinite (isFinite_of_unpack_eq hnearest), signed_eq_of_unpack h hnearest⟩

/-- A finite float is written with a point. -/
theorem exists_render_eq (h : x.isFinite) : ∃ ws ds,
    literalOf x = ⟨isNegative x, ws, some ds, none⟩ ∧
      pointed.render x = signChars (isNegative x) ++ (ws ++ '.' :: ds) := by
  obtain ⟨ws, ds, heq⟩ := exists_literalOf_eq x
  refine ⟨ws, ds, heq, ?_⟩
  rw [← chars_literalOf h, heq]
  simp [chars, fractionChars, exponentChars]

/-- **Every finite float is read back**, to its last bit. -/
theorem word?_render (h : x.isFinite) : word? (pointed.render x) = some (.float x) := by
  obtain ⟨ws, ds, heq, hrender⟩ := exists_render_eq h
  obtain ⟨hfinite, hsame⟩ := nearest_of_literalOf_eq h heq
  have hwell := isWellFormed_literalOf x
  rw [heq] at hwell
  rw [hrender, word?_pointed hwell.whole (hwell.fraction ds rfl) hwell.leading (isNegative x) rfl
    hfinite, hsame]

theorem isWordChar_of_mem_render (h : x.isFinite) : ∀ c ∈ pointed.render x, isWordChar c := by
  obtain ⟨ws, ds, heq, hrender⟩ := exists_render_eq h
  have hwell := isWellFormed_literalOf x
  rw [heq] at hwell
  rw [hrender]
  exact isWordChar_of_mem (isDigit_or_point_of_mem hwell.whole (hwell.fraction ds rfl)) _

end

end Toml
end TripleBarrier
