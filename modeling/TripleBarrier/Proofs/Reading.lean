import Mathlib
import TripleBarrier.Json.Reader
import TripleBarrier.Proofs.Literals

/-!
# Reading what was written

The compact text of a value is read from its start to its end and no further, whatever follows
it.  What the reader finds is the value again, apart from its numbers: a float is found as the
number that the reader makes of the digits it was written with, and a value that is not finite
is found as null.

## Main definitions

* `Json.reread` — the float that is read where a float was written, if any.
* `Json.ReadsBack` — the reader makes a float of its own digits.
* `Json.document` — the document that is read where a value was written.

## Main results

* `readString_flatMap_escape` — a string is read back.
* `readValue_render` — the text of a value is read as its document.
* `decode_text` — decoding a text that was written is decoding its document.
-/

namespace TripleBarrier
namespace Json

/-! ### Strings -/

/-- The unit that an escaped character is scanned as: its number, if it has no escape of its own. -/
def unitOf (c : Char) : Char ⊕ ℕ :=
  if c.toNat < 32 ∧ c ∉ ['\x08', '\x0c', '\n', '\r', '\t'] then .inr c.toNat else .inl c

/-- Two hexadecimal digits give the number of a control character. -/
theorem numeral_control : ∀ n < 32,
    ['0', '0', Nat.digitChar (n / 16), Nat.digitChar (n % 16)].all (Text.isDigitOf 16) ∧
      Text.numeral 16 ['0', '0', Nat.digitChar (n / 16), Nat.digitChar (n % 16)] = n := by
  decide

/-- A letter behind a backslash is scanned as what it stands for. -/
theorem scanString_escaped {e c : Char} (hu : e ≠ 'u') (h : escaped? e = some c)
    (cs : List Char) :
    scanString ('\\' :: e :: cs) = (scanString cs).map fun run => (.inl c :: run.1, run.2) := by
  rw [scanString.eq_def]
  split
  · next heq => exact nomatch heq
  · next heq => exact nomatch heq
  · next heq => exact absurd (List.cons.inj (List.cons.inj heq).2).1 hu
  · next heq =>
    cases heq
    cases scanString cs <;> simp [h]
  · next hnone heq =>
    cases heq
    exact (hnone _ _ rfl rfl).elim

/-- A character without an escape is scanned as itself. -/
theorem scanString_plain {c : Char} (hquote : c ≠ '"') (hslash : c ≠ '\\')
    (hcontrol : ¬c.toNat < 32) (cs : List Char) :
    scanString (c :: cs) = (scanString cs).map fun run => (.inl c :: run.1, run.2) := by
  rw [scanString.eq_def]
  split
  · next heq => exact nomatch heq
  · next heq => exact absurd (List.cons.inj heq).1 hquote
  · next heq => exact absurd (List.cons.inj heq).1 hslash
  · next heq => exact absurd (List.cons.inj heq).1 hslash
  · next heq =>
    cases heq
    rw [if_neg (not_or.mpr ⟨hslash, hcontrol⟩)]
    cases scanString cs <;> rfl

/-- An escaped character is scanned as its unit. -/
theorem scanString_escape_append (c : Char) (cs : List Char) :
    scanString (escape c ++ cs) = (scanString cs).map fun run => (unitOf c :: run.1, run.2) := by
  unfold escape
  split_ifs with hquote hslash hback hfeed hline hreturn htab hcontrol
  · subst hquote
    exact scanString_escaped (by decide) rfl cs
  · subst hslash
    exact scanString_escaped (by decide) rfl cs
  · subst hback
    exact scanString_escaped (by decide) rfl cs
  · subst hfeed
    exact scanString_escaped (by decide) rfl cs
  · subst hline
    exact scanString_escaped (by decide) rfl cs
  · subst hreturn
    exact scanString_escaped (by decide) rfl cs
  · subst htab
    exact scanString_escaped (by decide) rfl cs
  · obtain ⟨hdigits, hnumber⟩ := numeral_control c.toNat hcontrol
    have hunit : unitOf c = .inr c.toNat := if_pos ⟨hcontrol, by simp [*]⟩
    simp only [List.cons_append, List.nil_append]
    rw [scanString, hdigits, hnumber, hunit]
    cases scanString cs <;> rfl
  · rw [unitOf, if_neg fun h => hcontrol h.1]
    exact scanString_plain hquote hslash hcontrol cs

/-- A number that is no half of a surrogate pair stands for a character of its own. -/
theorem joinUnits_inr {n : ℕ} (hhigh : isHighHalf n = false) (hlow : isLowHalf n = false)
    (units : List (Char ⊕ ℕ)) :
    joinUnits (.inr n :: units) = (joinUnits units).map (Char.ofNat n :: ·) := by
  match units with
  | [] => simp [joinUnits, hhigh, hlow]
  | .inl c :: units => simp [joinUnits, hhigh, hlow]
  | .inr m :: units => simp [joinUnits, hhigh, hlow]

/-- The units of characters are joined to these characters again. -/
theorem joinUnits_map_unitOf (s : List Char) : joinUnits (s.map unitOf) = some s := by
  induction s with
  | nil => rfl
  | cons c s ih =>
    rw [List.map_cons, unitOf]
    split
    · next hcontrol =>
      have hhigh : isHighHalf c.toNat = false := by
        simp [isHighHalf]
        omega
      have hlow : isLowHalf c.toNat = false := by
        simp [isLowHalf]
        omega
      rw [joinUnits_inr hhigh hlow, ih, Option.map_some, Char.ofNat_toNat]
    · rw [joinUnits, ih, Option.map_some]

/-- The units of a string in quotes, and what stands behind the closing one. -/
theorem scanString_flatMap_escape (s rest : List Char) :
    scanString (s.flatMap escape ++ '"' :: rest) = some (s.map unitOf, rest) := by
  induction s with
  | nil => rfl
  | cons c s ih =>
    rw [List.flatMap_cons, List.append_assoc, scanString_escape_append, ih]
    rfl

/-- **A string is read back.** -/
theorem readString_flatMap_escape (s rest : List Char) :
    readString (s.flatMap escape ++ '"' :: rest) = (.text (String.ofList s), some rest) := by
  unfold readString
  rw [scanString_flatMap_escape]
  dsimp only
  rw [joinUnits_map_unitOf, Option.elim_some]

/-! ### Floats -/

/-- What a literal with a fraction or an exponent stands for. -/
def Literal.floatValue (l : Literal) : Document :=
  l.float?.elim .fault .float

/-- The float that is read where a finite float was written, absent if the literal is too large for
the reader. -/
def reread (x : Float) : Option Float :=
  (Literal.ofFloat x).float?

/-- The reader makes the float of the digits that it is written with. -/
def ReadsBack (x : Float) : Prop :=
  reread x = some x

instance (x : Float) : Decidable (ReadsBack x) :=
  inferInstanceAs (Decidable (reread x = some x))

theorem Literal.value_positional (isNegative : Bool) (digits : List Char) (whole : ℤ) :
    (positional isNegative digits whole).value =
      (positional isNegative digits whole).floatValue := by
  unfold positional
  split_ifs
  all_goals
    unfold value floatValue
    simp only [Option.isNone_some, Bool.false_and, Bool.false_eq_true, if_false]
    split
    · next h => rw [h, Option.elim_some]
    · next h => rw [h, Option.elim_none]

theorem Literal.value_scientific (isNegative : Bool) (digits : List Char) (exponent : ℤ) :
    (scientific isNegative digits exponent).value =
      (scientific isNegative digits exponent).floatValue := by
  unfold scientific value floatValue
  simp only [Option.isNone_some, Bool.and_false, Bool.false_and, Bool.false_eq_true, if_false]
  split
  · next h => rw [h, Option.elim_some]
  · next h => rw [h, Option.elim_none]

/-- A float is read as a float, even if it is a whole number. -/
theorem Literal.value_ofFloat (x : Float) :
    (ofFloat x).value = (reread x).elim .fault .float := by
  show (ofFloat x).value = (ofFloat x).floatValue
  unfold ofFloat ofDigits
  dsimp only
  split_ifs
  · exact value_positional _ _ _
  · exact value_positional _ _ _
  · exact value_scientific _ _ _

/-! ### Documents -/

mutual

/-- The document that is read where a value was written. -/
def document : Json → Document
  | null => .null
  | bool b => .bool b
  | int i => (Literal.ofInt i).value
  | float x => if x.isFinite then (reread x).elim .fault .float else .null
  | string s => .text s
  | array items => .list (itemDocuments items) true
  | object members => .table (memberDocuments members) true

/-- The documents of items. -/
def itemDocuments : List Json → List Document
  | [] => []
  | item :: rest => document item :: itemDocuments rest

/-- The documents of members, whose names are texts. -/
def memberDocuments : List (String × Json) → List (Document × Document)
  | [] => []
  | (name, value) :: rest => (.text name, document value) :: memberDocuments rest

end

/-- A float that is read back is found as it was. -/
theorem document_float {x : Float} (hx : x.isFinite) (h : ReadsBack x) :
    (float x).document = .float x := by
  rw [document, if_pos hx, h, Option.elim_some]

/-! ### Values -/

/-- The first character of a text that starts a value. -/
def StartsValue (c : Char) : Prop :=
  isBlank c = false ∧ c ≠ ']'

/-- The first character of a number. -/
def StartsNumber (c : Char) : Prop :=
  c = '-' ∨ c.isDigit

theorem StartsNumber.ne {c d : Char} (h : StartsNumber c) (hsign : d ≠ '-')
    (hdigit : d.isDigit = false) : c ≠ d := by
  rintro rfl
  rcases h with hc | hc
  · exact hsign hc
  · exact Bool.false_ne_true (hdigit.symm.trans hc)

theorem isBlank_of_startsNumber {c : Char} (h : StartsNumber c) : isBlank c = false := by
  have hspace : c ≠ ' ' := h.ne (by decide) rfl
  have htab : c ≠ '\t' := h.ne (by decide) rfl
  have hline : c ≠ '\n' := h.ne (by decide) rfl
  have hreturn : c ≠ '\r' := h.ne (by decide) rfl
  simp [isBlank, hspace, htab, hline, hreturn]

theorem Literal.exists_chars_eq_cons {l : Literal} (h : l.IsWellFormed) :
    ∃ c cs, l.chars = c :: cs ∧ StartsNumber c := by
  obtain ⟨isNegative, whole, fraction, exponent⟩ := l
  cases isNegative with
  | true => exact ⟨'-', _, rfl, .inl rfl⟩
  | false =>
    cases whole with
    | nil => exact absurd rfl h.whole.ne_nil
    | cons d ds => exact ⟨d, _, rfl, .inr (h.whole.isDigit d List.mem_cons_self)⟩

theorem skipBlanks_cons {c : Char} (h : isBlank c = false) (cs : List Char) :
    skipBlanks (c :: cs) = c :: cs :=
  List.dropWhile_cons_of_neg (by simp [h])

/-- A text that starts like a number is read as one. -/
theorem readValue_of_startsNumber (fuel : ℕ) {c : Char} (h : StartsNumber c) (cs : List Char) :
    readValue (fuel + 1) (c :: cs) = readNumber (c :: cs) := by
  rw [readValue, skipBlanks_cons (isBlank_of_startsNumber h)]
  split
  -- each of the other kinds of values starts with a character of its own
  · next heq => exact absurd (List.cons.inj heq).1 (h.ne (by decide) rfl)
  · next heq => exact absurd (List.cons.inj heq).1 (h.ne (by decide) rfl)
  · next heq => exact absurd (List.cons.inj heq).1 (h.ne (by decide) rfl)
  · next heq => exact absurd (List.cons.inj heq).1 (h.ne (by decide) rfl)
  · next heq => exact absurd (List.cons.inj heq).1 (h.ne (by decide) rfl)
  · next heq => exact absurd (List.cons.inj heq).1 (h.ne (by decide) rfl)
  · rfl

/-- A well-formed literal is read as its value. -/
theorem readValue_chars (fuel : ℕ) {l : Literal} (h : l.IsWellFormed) {rest : List Char}
    (hrest : EndsNumber rest) : readValue (fuel + 1) (l.chars ++ rest) = (l.value, some rest) := by
  obtain ⟨c, cs, hchars, hc⟩ := l.exists_chars_eq_cons h
  have hscan := Literal.scan?_chars_append h hrest
  rw [hchars, List.cons_append] at hscan ⊢
  rw [readValue_of_startsNumber fuel hc, readNumber, hscan]

/-- A float that is not finite is written as null. -/
theorem render_of_not_isFinite {x : Float} (h : x.isFinite = false) :
    Decimal.interchange.render x = ['n', 'u', 'l', 'l'] := by
  unfold Decimal.Layout.render
  split
  · rfl
  split
  · exact (congrArg String.toList (ite_self _)).trans rfl
  · next hnan hinf => exact absurd (isNaN_or_isInf h) (not_or.mpr ⟨hnan, hinf⟩)

/-- Every value starts with a character that is not blank and closes nothing. -/
theorem exists_render_eq_cons (j : Json) : ∃ c cs, j.render = c :: cs ∧ StartsValue c := by
  have hnumber : ∀ l : Literal, l.IsWellFormed → ∃ c cs, l.chars = c :: cs ∧ StartsValue c := by
    intro l hl
    obtain ⟨c, cs, hchars, hc⟩ := l.exists_chars_eq_cons hl
    exact ⟨c, cs, hchars, isBlank_of_startsNumber hc, hc.ne (by decide) rfl⟩
  cases j with
  | null => exact ⟨'n', _, rfl, by decide, by decide⟩
  | bool b =>
    cases b with
    | true => exact ⟨'t', _, rfl, by decide, by decide⟩
    | false => exact ⟨'f', _, rfl, by decide, by decide⟩
  | int i =>
    rw [render, ← Literal.chars_ofInt]
    exact hnumber _ (Literal.isWellFormed_ofInt i)
  | float x =>
    rw [render]
    cases hx : x.isFinite with
    | true =>
      rw [← Literal.chars_ofFloat hx]
      exact hnumber _ (Literal.isWellFormed_ofFloat x)
    | false => exact ⟨'n', _, render_of_not_isFinite hx, by decide, by decide⟩
  | string s => exact ⟨'"', _, by rw [render, quote], by decide, by decide⟩
  | array items => exact ⟨'[', _, by rw [render], by decide, by decide⟩
  | object members => exact ⟨'\x7b', _, by rw [render], by decide, by decide⟩

theorem length_render_pos (j : Json) : 0 < j.render.length := by
  obtain ⟨c, cs, h, -⟩ := exists_render_eq_cons j
  rw [h]
  exact Nat.succ_pos _

/-! ### One step of the reader -/

section
variable {fuel : ℕ} {text rest rest' : List Char} {item key value : Document}

/-- A bracket that is not closed at once starts a list with items. -/
theorem readValue_bracket {c : Char} (hc : StartsValue c) {cs : List Char} {items : List Document}
    (h : readItems fuel (c :: cs) = (items, some rest)) :
    readValue (fuel + 1) ('[' :: c :: cs) = (.list items true, some rest) := by
  simp only [readValue, skipBlanks_cons (c := '[') rfl, skipBlanks_cons hc.1]
  split
  · next heq => exact absurd (List.cons.inj heq).1 hc.2
  · rw [h]
    rfl

/-- A brace with a quote behind it starts a table with members. -/
theorem readValue_brace {cs : List Char} {members : List (Document × Document)}
    (h : readMembers fuel ('"' :: cs) = (members, some rest)) :
    readValue (fuel + 1) ('\x7b' :: '"' :: cs) = (.table members true, some rest) := by
  simp only [readValue, skipBlanks_cons (c := '\x7b') rfl, skipBlanks_cons (c := '"') rfl]
  split
  · next heq => exact nomatch heq
  · rw [h]
    rfl

/-- A bracket ends the items. -/
theorem readItems_bracket (h : readValue fuel text = (item, some (']' :: rest))) :
    readItems (fuel + 1) text = ([item], some rest) := by
  rw [readItems, h]
  rfl

/-- A comma goes on with the items. -/
theorem readItems_comma (h : readValue fuel text = (item, some (',' :: rest)))
    {items : List Document} (hitems : readItems fuel rest = (items, some rest')) :
    readItems (fuel + 1) text = (item :: items, some rest') := by
  simp only [readItems, h, skipBlanks_cons (c := ',') rfl, hitems]

/-- A brace ends the members. -/
theorem readMembers_brace (hkey : readKey fuel text = (key, some (':' :: rest)))
    (hvalue : readValue fuel rest = (value, some ('\x7d' :: rest'))) :
    readMembers (fuel + 1) text = ([(key, value)], some rest') := by
  simp only [readMembers, hkey, skipBlanks_cons (c := ':') rfl, hvalue]
  rfl

/-- A comma goes on with the members. -/
theorem readMembers_comma (hkey : readKey fuel text = (key, some (':' :: rest)))
    (hvalue : readValue fuel rest = (value, some (',' :: rest')))
    {members : List (Document × Document)} {rest'' : List Char}
    (hmembers : readMembers fuel rest' = (members, some rest'')) :
    readMembers (fuel + 1) text = ((key, value) :: members, some rest'') := by
  simp only [readMembers, hkey, skipBlanks_cons (c := ':') rfl, hvalue,
    skipBlanks_cons (c := ',') rfl, hmembers]

/-- A name in quotes is read as a key. -/
theorem readKey_quote (hfuel : 0 < fuel) (s : String) (rest : List Char) :
    readKey fuel (quote s.toList ++ rest) = (.text s, some rest) := by
  obtain ⟨fuel, rfl⟩ := Nat.exists_eq_add_one.mpr hfuel
  rw [quote, List.cons_append, List.append_assoc, readKey, skipBlanks_cons (by decide)]
  exact (readString_flatMap_escape s.toList rest).trans (by rw [String.ofList_toList])

end

/-! ### Whole values -/

theorem renderItems_cons_cons (item next : Json) (items : List Json) :
    renderItems (item :: next :: items) = item.render ++ ',' :: renderItems (next :: items) :=
  renderItems.eq_3 _ _ (List.cons_ne_nil _ _)

theorem renderMembers_cons_cons (name : String) (value : Json) (next : String × Json)
    (members : List (String × Json)) :
    renderMembers ((name, value) :: next :: members) =
      quote name.toList ++ ':' :: (value.render ++ ',' :: renderMembers (next :: members)) :=
  renderMembers.eq_3 _ _ _ (List.cons_ne_nil _ _)

theorem exists_renderItems_eq_cons (item : Json) (items : List Json) :
    ∃ c cs, renderItems (item :: items) = c :: cs ∧ StartsValue c := by
  obtain ⟨c, cs, h, hc⟩ := exists_render_eq_cons item
  cases items with
  | nil => exact ⟨c, cs ++ [']'], by rw [renderItems, h, List.cons_append], hc⟩
  | cons next items =>
    exact ⟨c, cs ++ ',' :: renderItems (next :: items),
      by rw [renderItems_cons_cons, h, List.cons_append], hc⟩

theorem exists_renderMembers_eq_cons (member : String × Json) (members : List (String × Json)) :
    ∃ cs, renderMembers (member :: members) = '"' :: cs := by
  obtain ⟨name, value⟩ := member
  cases members with
  | nil => exact ⟨_, by rw [renderMembers, quote, List.cons_append]⟩
  | cons next members => exact ⟨_, by rw [renderMembers_cons_cons, quote, List.cons_append]⟩

mutual

/-- **The text of a value is read as its document, and nothing behind it is read.** -/
theorem readValue_render : ∀ (j : Json) {fuel : ℕ} {rest : List Char}, 2 * j.render.length ≤ fuel →
    EndsNumber rest → readValue fuel (j.render ++ rest) = (j.document, some rest)
  | j, 0, _, hfuel, _ => by
    have hpos := length_render_pos j
    omega
  | .null, fuel + 1, rest, _, _ => rfl
  | .bool true, fuel + 1, rest, _, _ => rfl
  | .bool false, fuel + 1, rest, _, _ => rfl
  | .int i, fuel + 1, rest, _, hrest => by
    rw [render, ← Literal.chars_ofInt, document]
    exact readValue_chars fuel (Literal.isWellFormed_ofInt i) hrest
  | .float x, fuel + 1, rest, _, hrest => by
    rw [render, document]
    cases hx : x.isFinite with
    | true =>
      rw [← Literal.chars_ofFloat hx, if_pos rfl, ← Literal.value_ofFloat]
      exact readValue_chars fuel (Literal.isWellFormed_ofFloat x) hrest
    | false =>
      rw [render_of_not_isFinite hx, if_neg Bool.false_ne_true]
      rfl
  | .string s, fuel + 1, rest, _, _ => by
    rw [render, quote, List.cons_append, List.append_assoc, readValue, skipBlanks_cons (by decide),
      document]
    exact (readString_flatMap_escape s.toList rest).trans (by rw [String.ofList_toList])
  | .array [], fuel + 1, rest, _, _ => rfl
  | .array (item :: items), fuel + 1, rest, hfuel, _ => by
    rw [render, List.length_cons] at hfuel
    have hitems : readItems fuel (renderItems (item :: items) ++ rest) = _ :=
      readItems_renderItems item items (by omega)
    obtain ⟨c, cs, hcons, hc⟩ := exists_renderItems_eq_cons item items
    rw [hcons, List.cons_append] at hitems
    rw [render, hcons, List.cons_append, List.cons_append, document]
    exact readValue_bracket hc hitems
  | .object [], fuel + 1, rest, _, _ => rfl
  | .object (member :: members), fuel + 1, rest, hfuel, _ => by
    rw [render, List.length_cons] at hfuel
    have hmembers : readMembers fuel (renderMembers (member :: members) ++ rest) = _ :=
      readMembers_renderMembers member members (by omega)
    obtain ⟨cs, hcons⟩ := exists_renderMembers_eq_cons member members
    rw [hcons, List.cons_append] at hmembers
    rw [render, hcons, List.cons_append, List.cons_append, document]
    exact readValue_brace hmembers

/-- The text of a list behind its bracket is read as the documents of its items. -/
theorem readItems_renderItems : ∀ (item : Json) (items : List Json) {fuel : ℕ} {rest : List Char},
    2 * (renderItems (item :: items)).length ≤ fuel →
    readItems fuel (renderItems (item :: items) ++ rest) =
      (itemDocuments (item :: items), some rest)
  | item, items, 0, _, hfuel => by
    obtain ⟨c, cs, h, -⟩ := exists_renderItems_eq_cons item items
    rw [h, List.length_cons] at hfuel
    omega
  | item, [], fuel + 1, rest, hfuel => by
    rw [renderItems, List.length_append, List.length_singleton] at hfuel
    rw [renderItems, List.append_assoc, itemDocuments, itemDocuments]
    exact readItems_bracket (readValue_render item (by omega) (endsNumber_cons (by decide)))
  | item, next :: items, fuel + 1, rest, hfuel => by
    rw [renderItems_cons_cons, List.length_append, List.length_cons] at hfuel
    have hitems : readItems fuel (renderItems (next :: items) ++ rest) = _ :=
      readItems_renderItems next items (by omega)
    rw [renderItems_cons_cons, List.append_assoc, itemDocuments]
    exact readItems_comma (readValue_render item (by omega) (endsNumber_cons (by decide))) hitems

/-- The text of a table behind its brace is read as the documents of its members. -/
theorem readMembers_renderMembers : ∀ (member : String × Json) (members : List (String × Json))
    {fuel : ℕ} {rest : List Char}, 2 * (renderMembers (member :: members)).length ≤ fuel →
    readMembers fuel (renderMembers (member :: members) ++ rest) =
      (memberDocuments (member :: members), some rest)
  | member, members, 0, _, hfuel => by
    obtain ⟨cs, h⟩ := exists_renderMembers_eq_cons member members
    rw [h, List.length_cons] at hfuel
    omega
  | (name, value), [], fuel + 1, rest, hfuel => by
    rw [renderMembers, List.length_append, List.length_cons, List.length_append,
      List.length_singleton] at hfuel
    rw [renderMembers, List.append_assoc, List.cons_append, List.append_assoc, memberDocuments,
      memberDocuments]
    exact readMembers_brace (readKey_quote (by omega) name _)
      (readValue_render value (by omega) (endsNumber_cons (by decide)))
  | (name, value), next :: members, fuel + 1, rest, hfuel => by
    rw [renderMembers_cons_cons, List.length_append, List.length_cons, List.length_append,
      List.length_cons] at hfuel
    have hmembers : readMembers fuel (renderMembers (next :: members) ++ rest) = _ :=
      readMembers_renderMembers next members (by omega)
    rw [renderMembers_cons_cons, List.append_assoc, List.cons_append, List.append_assoc,
      memberDocuments]
    exact readMembers_comma (readKey_quote (by omega) name _)
      (readValue_render value (by omega) (endsNumber_cons (by decide))) hmembers

end

theorem read_render (j : Json) : read j.render = (j.document, some []) := by
  have h : readValue (2 * j.render.length + 2) (j.render ++ []) = _ :=
    readValue_render j (by omega) endsNumber_nil
  rwa [List.append_nil] at h

/-- Values that are written alike are read alike. -/
theorem document_eq_of_text_eq {j k : Json} (h : j.text = k.text) : j.document = k.document := by
  have hrender : j.render = k.render := String.ofList_injective h
  have hread := read_render j
  rw [hrender, read_render k] at hread
  exact (Prod.mk.inj hread).1.symm

/-- **Decoding a text that was written is decoding its document.** -/
theorem decode_text {α : Type} (decoder : Decoder α) (j : Json) :
    decode decoder j.text = decoder .json j.document := by
  unfold decode text
  rw [String.toList_ofList, read_render]
  dsimp only
  cases decoder .json j.document with
  | ok a => rfl
  | error misfit => rfl

/-- A text gives the value that its document does, if nothing but blanks follows the document. -/
theorem decode_eq_ok_iff {α : Type} {decoder : Decoder α} {text : String} {a : α} :
    decode decoder text = .ok a ↔ decoder .json (read text.toList).1 = .ok a ∧
      ∃ rest ∈ (read text.toList).2, (skipBlanks rest).isEmpty := by
  unfold decode
  obtain ⟨doc, rest⟩ := read text.toList
  dsimp only
  cases decoder .json doc with
  | error misfit => simp [bind, Except.bind]
  | ok b =>
    cases rest with
    | none => simp [bind, Except.bind]
    | some rest =>
      simp only [Option.mem_some_iff, exists_eq_left']
      cases (skipBlanks rest).isEmpty <;> simp [bind, Except.bind]

end Json
end TripleBarrier
