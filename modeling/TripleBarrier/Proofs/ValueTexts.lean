import Mathlib
import TripleBarrier.Position.Fingerprint
import TripleBarrier.Proofs.FloatTexts
import TripleBarrier.Proofs.Soundness

/-!
# Telling values by their texts

The compact texts of values form a prefix code, as long as all floats in them are finite: a text
starts with at most one of them that it does not go on with.  The first character tells the kind
of a value, a number ends where its digits do, a string at its closing quote, and a list or a
table at its bracket or brace.  So a value is told by its text, and the text of a position shows
every bit of its terms.

## Main definitions

* `Json.floats` — the floats in a value.
* `Json.Kind` — what the first character of a text tells.
* `Terms.bits` — the terms with every number as its bits.

## Main results

* `Json.render_append_inj` — compact texts form a prefix code.
* `Position.eq_of_canonicalText_eq` — a position is told by its text.
* `canonicalText_eq_iff_bits_eq` — **positions have one text exactly if all of their terms are the
  same, bit by bit.**
-/

namespace TripleBarrier
namespace Json

/-! ### The floats of a value -/

mutual

/-- All floats in a value. -/
def floats : Json → List Float
  | null => []
  | bool _ => []
  | int _ => []
  | float x => [x]
  | string _ => []
  | array items => itemFloats items
  | object members => memberFloats members

/-- All floats in items. -/
def itemFloats : List Json → List Float
  | [] => []
  | item :: rest => floats item ++ itemFloats rest

/-- All floats in the values of members. -/
def memberFloats : List (String × Json) → List Float
  | [] => []
  | (_, value) :: rest => floats value ++ memberFloats rest

end

/-! ### Kinds of values -/

/-- The kinds of values that the first character of a text tells apart. -/
inductive Kind
  | null
  | bool
  | number
  | string
  | array
  | object

/-- The kind of a value. -/
def kind : Json → Kind
  | null => .null
  | bool _ => .bool
  | int _ => .number
  | float _ => .number
  | string _ => .string
  | array _ => .array
  | object _ => .object

/-- The kind of the value that a character starts. -/
def Kind.ofChar (c : Char) : Kind :=
  if c = 'n' then .null
  else if c = 't' ∨ c = 'f' then .bool
  else if c = '"' then .string
  else if c = '[' then .array
  else if c = '\x7b' then .object
  else .number

theorem Kind.ofChar_of_startsNumber {c : Char} (h : StartsNumber c) : ofChar c = .number := by
  have hnull : c ≠ 'n' := h.ne (by decide) rfl
  have htrue : c ≠ 't' := h.ne (by decide) rfl
  have hfalse : c ≠ 'f' := h.ne (by decide) rfl
  have hquote : c ≠ '"' := h.ne (by decide) rfl
  have hbracket : c ≠ '[' := h.ne (by decide) rfl
  have hbrace : c ≠ '\x7b' := h.ne (by decide) rfl
  simp [ofChar, hnull, htrue, hfalse, hquote, hbracket, hbrace]

/-- The first character of a text tells the kind of the value. -/
theorem exists_render_eq_cons_kind {j : Json} (hj : ∀ x ∈ j.floats, x.isFinite) :
    ∃ c cs, j.render = c :: cs ∧ Kind.ofChar c = j.kind := by
  have hnumber : ∀ l : Literal, l.IsWellFormed →
      ∃ c cs, l.chars = c :: cs ∧ Kind.ofChar c = .number := by
    intro l hl
    obtain ⟨c, cs, hchars, hc⟩ := l.exists_chars_eq_cons hl
    exact ⟨c, cs, hchars, Kind.ofChar_of_startsNumber hc⟩
  cases j with
  | null => exact ⟨'n', _, rfl, rfl⟩
  | bool b =>
    cases b with
    | true => exact ⟨'t', _, rfl, rfl⟩
    | false => exact ⟨'f', _, rfl, rfl⟩
  | int i =>
    rw [render, ← Literal.chars_ofInt]
    exact hnumber _ (Literal.isWellFormed_ofInt i)
  | float x =>
    rw [render, ← Literal.chars_ofFloat (hj x List.mem_cons_self)]
    exact hnumber _ (Literal.isWellFormed_ofFloat x)
  | string s => exact ⟨'"', _, by rw [render, quote], rfl⟩
  | array items => exact ⟨'[', _, by rw [render], rfl⟩
  | object members => exact ⟨'\x7b', _, by rw [render], rfl⟩

/-- Texts that start alike are those of values of one kind. -/
theorem kind_eq_of_render_append_eq {j k : Json} (hj : ∀ x ∈ j.floats, x.isFinite)
    (hk : ∀ x ∈ k.floats, x.isFinite) {rest rest' : List Char}
    (h : j.render ++ rest = k.render ++ rest') : j.kind = k.kind := by
  obtain ⟨c, cs, hcons, hc⟩ := exists_render_eq_cons_kind hj
  obtain ⟨d, ds, hcons', hd⟩ := exists_render_eq_cons_kind hk
  rw [hcons, hcons', List.cons_append, List.cons_append] at h
  rw [← hc, ← hd, (List.cons.inj h).1]

/-! ### Numbers and strings -/

section
variable {rest rest' : List Char}

/-- A whole number is told by its literal. -/
theorem Literal.ofInt_inj {i j : ℤ} (h : Literal.ofInt i = Literal.ofInt j) : i = j := by
  have hsign : decide (i < 0) = decide (j < 0) := congrArg Literal.isNegative h
  have hdigits : Text.natText i.natAbs = Text.natText j.natAbs := congrArg Literal.whole h
  have habs : i.natAbs = j.natAbs := by
    rw [← Text.numeral_natText i.natAbs, hdigits, Text.numeral_natText]
  rw [decide_eq_decide] at hsign
  omega

/-- A whole number is written without a fraction and without an exponent, and no float is. -/
theorem Literal.ofInt_ne_ofFloat (i : ℤ) (x : Float) : Literal.ofInt i ≠ Literal.ofFloat x := by
  intro h
  have hfraction : (Literal.ofFloat x).fraction = none := h ▸ rfl
  have hexponent : (Literal.ofFloat x).exponent = none := h ▸ rfl
  unfold Literal.ofFloat Literal.ofDigits Literal.positional Literal.scientific
    at hfraction hexponent
  dsimp only at hfraction hexponent
  split_ifs at hfraction hexponent

/-- A string is told by its text. -/
theorem quote_append_inj {s t : String} (h : quote s.toList ++ rest = quote t.toList ++ rest') :
    s = t ∧ rest = rest' := by
  have hread : ∀ (u : String) (rest : List Char),
      readString ((quote u.toList ++ rest).tail) = (.text u, some rest) := by
    intro u rest
    rw [quote, List.cons_append, List.tail_cons, List.append_assoc]
    exact (readString_flatMap_escape u.toList rest).trans (by rw [String.ofList_toList])
  have hsame := hread s rest
  rw [h, hread t rest'] at hsame
  obtain ⟨htext, hbehind⟩ := Prod.mk.inj hsame
  exact ⟨(Document.text.inj htext).symm, (Option.some.inj hbehind).symm⟩

end

/-! ### Whole values -/

/-- What stands behind an item of a list: the bracket, or a comma and the other items. -/
def behindItem : List Json → List Char
  | [] => [']']
  | item :: items => ',' :: renderItems (item :: items)

theorem renderItems_cons (item : Json) (items : List Json) :
    renderItems (item :: items) = item.render ++ behindItem items := by
  cases items with
  | nil => rw [renderItems, behindItem]
  | cons next items => rw [renderItems_cons_cons, behindItem]

/-- What stands behind a member of a table: the brace, or a comma and the other members. -/
def behindMember : List (String × Json) → List Char
  | [] => ['\x7d']
  | member :: members => ',' :: renderMembers (member :: members)

theorem renderMembers_cons (name : String) (value : Json) (members : List (String × Json)) :
    renderMembers ((name, value) :: members) =
      quote name.toList ++ ':' :: (value.render ++ behindMember members) := by
  cases members with
  | nil => rw [renderMembers, behindMember]
  | cons next members => rw [renderMembers_cons_cons, behindMember]

theorem endsNumber_behindItem (items : List Json) (rest : List Char) :
    EndsNumber (behindItem items ++ rest) := by
  cases items with
  | nil => exact endsNumber_cons (by decide)
  | cons item items => exact endsNumber_cons (by decide)

theorem endsNumber_behindMember (members : List (String × Json)) (rest : List Char) :
    EndsNumber (behindMember members ++ rest) := by
  cases members with
  | nil => exact endsNumber_cons (by decide)
  | cons member members => exact endsNumber_cons (by decide)

/-- No list goes on with the bracket that closes it. -/
theorem renderItems_cons_append_ne (item : Json) (items : List Json) (rest rest' : List Char) :
    renderItems (item :: items) ++ rest ≠ ']' :: rest' := by
  obtain ⟨c, cs, hcons, hc⟩ := exists_renderItems_eq_cons item items
  rw [hcons, List.cons_append]
  exact fun h => hc.2 (List.cons.inj h).1

/-- No table goes on with the brace that closes it. -/
theorem renderMembers_cons_append_ne (member : String × Json) (members : List (String × Json))
    (rest rest' : List Char) : renderMembers (member :: members) ++ rest ≠ '\x7d' :: rest' := by
  obtain ⟨cs, hcons⟩ := exists_renderMembers_eq_cons member members
  rw [hcons, List.cons_append]
  exact fun h => absurd (List.cons.inj h).1 (by decide)

mutual

/-- **Compact texts form a prefix code**: a text starts with at most one value with finite floats
that it does not go on with. -/
theorem render_append_inj : ∀ (j k : Json) {rest rest' : List Char}, (∀ x ∈ j.floats, x.isFinite) →
    (∀ x ∈ k.floats, x.isFinite) → EndsNumber rest → EndsNumber rest' →
    j.render ++ rest = k.render ++ rest' → j = k ∧ rest = rest'
  | .null, k, rest, rest', hj, hk, _, _, h => by
    have hkind := kind_eq_of_render_append_eq hj hk h
    cases k with
    | null => exact ⟨rfl, List.append_cancel_left h⟩
    | _ => exact nomatch hkind
  | .bool b, k, rest, rest', hj, hk, _, _, h => by
    have hkind := kind_eq_of_render_append_eq hj hk h
    cases k with
    | bool b' =>
      obtain rfl : b = b' := by
        cases b with
        | true =>
          cases b' with
          | true => rfl
          | false => exact absurd (List.cons.inj h).1 (by decide)
        | false =>
          cases b' with
          | true => exact absurd (List.cons.inj h).1 (by decide)
          | false => rfl
      exact ⟨rfl, List.append_cancel_left h⟩
    | _ => exact nomatch hkind
  | .int i, k, rest, rest', hj, hk, hrest, hrest', h => by
    have hkind := kind_eq_of_render_append_eq hj hk h
    have hi := Literal.isWellFormed_ofInt i
    cases k with
    | int i' =>
      rw [render, render, ← Literal.chars_ofInt, ← Literal.chars_ofInt] at h
      obtain ⟨hliteral, hbehind⟩ :=
        Literal.chars_append_inj hi (Literal.isWellFormed_ofInt i') hrest hrest' h
      exact ⟨congrArg int (Literal.ofInt_inj hliteral), hbehind⟩
    | float x =>
      rw [render, render, ← Literal.chars_ofInt,
        ← Literal.chars_ofFloat (hk x List.mem_cons_self)] at h
      obtain ⟨hliteral, -⟩ :=
        Literal.chars_append_inj hi (Literal.isWellFormed_ofFloat x) hrest hrest' h
      exact absurd hliteral (Literal.ofInt_ne_ofFloat i x)
    | _ => exact nomatch hkind
  | .float x, k, rest, rest', hj, hk, hrest, hrest', h => by
    have hkind := kind_eq_of_render_append_eq hj hk h
    have hx := hj x List.mem_cons_self
    have hwell := Literal.isWellFormed_ofFloat x
    cases k with
    | int i =>
      rw [render, render, ← Literal.chars_ofInt, ← Literal.chars_ofFloat hx] at h
      obtain ⟨hliteral, -⟩ :=
        Literal.chars_append_inj hwell (Literal.isWellFormed_ofInt i) hrest hrest' h
      exact absurd hliteral.symm (Literal.ofInt_ne_ofFloat i x)
    | float y =>
      have hy := hk y List.mem_cons_self
      rw [render, render, ← Literal.chars_ofFloat hx, ← Literal.chars_ofFloat hy] at h
      obtain ⟨hliteral, hbehind⟩ :=
        Literal.chars_append_inj hwell (Literal.isWellFormed_ofFloat y) hrest hrest' h
      exact ⟨congrArg float (Literal.ofFloat_inj hx hy hliteral), hbehind⟩
    | _ => exact nomatch hkind
  | .string s, k, rest, rest', hj, hk, _, _, h => by
    have hkind := kind_eq_of_render_append_eq hj hk h
    cases k with
    | string t =>
      rw [render, render] at h
      obtain ⟨hstring, hbehind⟩ := quote_append_inj h
      exact ⟨congrArg string hstring, hbehind⟩
    | _ => exact nomatch hkind
  | .array items, k, rest, rest', hj, hk, _, _, h => by
    have hkind := kind_eq_of_render_append_eq hj hk h
    cases k with
    | array items' =>
      rw [render, render, List.cons_append, List.cons_append] at h
      obtain ⟨hitems, hbehind⟩ := renderItems_append_inj items items' hj hk (List.cons.inj h).2
      exact ⟨congrArg array hitems, hbehind⟩
    | _ => exact nomatch hkind
  | .object members, k, rest, rest', hj, hk, _, _, h => by
    have hkind := kind_eq_of_render_append_eq hj hk h
    cases k with
    | object members' =>
      rw [render, render, List.cons_append, List.cons_append] at h
      obtain ⟨hmembers, hbehind⟩ :=
        renderMembers_append_inj members members' hj hk (List.cons.inj h).2
      exact ⟨congrArg object hmembers, hbehind⟩
    | _ => exact nomatch hkind

/-- The rest of a list is told by its text, since commas and the bracket stand between its items. -/
theorem renderItems_append_inj : ∀ (items items' : List Json) {rest rest' : List Char},
    (∀ x ∈ itemFloats items, x.isFinite) → (∀ x ∈ itemFloats items', x.isFinite) →
    renderItems items ++ rest = renderItems items' ++ rest' → items = items' ∧ rest = rest'
  | [], [], rest, rest', _, _, h => ⟨rfl, (List.cons.inj h).2⟩
  | [], item' :: items', rest, rest', _, _, h =>
    absurd h.symm (renderItems_cons_append_ne item' items' rest' rest)
  | item :: items, [], rest, rest', _, _, h =>
    absurd h (renderItems_cons_append_ne item items rest rest')
  | item :: items, item' :: items', rest, rest', hj, hk, h => by
    rw [itemFloats, List.forall_mem_append] at hj hk
    rw [renderItems_cons, renderItems_cons, List.append_assoc, List.append_assoc] at h
    obtain ⟨rfl, hbehind⟩ := render_append_inj item item' hj.1 hk.1 (endsNumber_behindItem _ _)
      (endsNumber_behindItem _ _) h
    match items, items' with
    | [], [] => exact ⟨rfl, (List.cons.inj hbehind).2⟩
    | [], _ :: _ => exact absurd (List.cons.inj hbehind).1 (by decide)
    | _ :: _, [] => exact absurd (List.cons.inj hbehind).1 (by decide)
    | next :: items, next' :: items' =>
      obtain ⟨hitems, hrest⟩ := renderItems_append_inj (next :: items) (next' :: items') hj.2 hk.2
        (List.cons.inj hbehind).2
      exact ⟨congrArg (item :: ·) hitems, hrest⟩

/-- The rest of a table is told by its text, since commas and the brace stand between
its members. -/
theorem renderMembers_append_inj : ∀ (members members' : List (String × Json))
    {rest rest' : List Char}, (∀ x ∈ memberFloats members, x.isFinite) →
    (∀ x ∈ memberFloats members', x.isFinite) →
    renderMembers members ++ rest = renderMembers members' ++ rest' →
      members = members' ∧ rest = rest'
  | [], [], rest, rest', _, _, h => ⟨rfl, (List.cons.inj h).2⟩
  | [], member' :: members', rest, rest', _, _, h =>
    absurd h.symm (renderMembers_cons_append_ne member' members' rest' rest)
  | member :: members, [], rest, rest', _, _, h =>
    absurd h (renderMembers_cons_append_ne member members rest rest')
  | (name, value) :: members, (name', value') :: members', rest, rest', hj, hk, h => by
    rw [memberFloats, List.forall_mem_append] at hj hk
    rw [renderMembers_cons, renderMembers_cons, List.append_assoc, List.append_assoc,
      List.cons_append, List.cons_append, List.append_assoc, List.append_assoc] at h
    obtain ⟨rfl, hcolon⟩ := quote_append_inj h
    obtain ⟨rfl, hbehind⟩ := render_append_inj value value' hj.1 hk.1 (endsNumber_behindMember _ _)
      (endsNumber_behindMember _ _) (List.cons.inj hcolon).2
    match members, members' with
    | [], [] => exact ⟨rfl, (List.cons.inj hbehind).2⟩
    | [], _ :: _ => exact absurd (List.cons.inj hbehind).1 (by decide)
    | _ :: _, [] => exact absurd (List.cons.inj hbehind).1 (by decide)
    | next :: members, next' :: members' =>
      obtain ⟨hmembers, hrest⟩ :=
        renderMembers_append_inj (next :: members) (next' :: members') hj.2
        hk.2 (List.cons.inj hbehind).2
      exact ⟨congrArg ((name, value) :: ·) hmembers, hrest⟩

end

/-- **A value with finite floats is told by its text.** -/
theorem eq_of_text_eq {j k : Json} (hj : ∀ x ∈ j.floats, x.isFinite)
    (hk : ∀ x ∈ k.floats, x.isFinite) (h : j.text = k.text) : j = k := by
  have hrender : j.render = k.render := String.ofList_injective h
  exact (render_append_inj j k hj hk endsNumber_nil endsNumber_nil
    (congrArg (· ++ []) hrender)).1

end Json

/-! ### Terms -/

section
variable {α : Type} {encode : α → Json}

theorem Json.floats_option (o : Option α) :
    (Json.option encode o).floats = o.toList.flatMap fun a => (encode a).floats := by
  cases o with
  | none => rfl
  | some a => simp [Json.option]

/-- Something that may be absent is told by its value, if it is never written as null. -/
theorem Json.option_inj (hinj : ∀ a b, encode a = encode b → a = b) (hnull : ∀ a, encode a ≠ .null)
    {o o' : Option α} (h : Json.option encode o = Json.option encode o') : o = o' := by
  match o, o' with
  | none, none => rfl
  | none, some b => exact absurd h.symm (hnull b)
  | some a, none => exact absurd h (hnull a)
  | some a, some b => exact congrArg some (hinj a b h)

end

/-- The floats that are written for terms are their numbers. -/
theorem Terms.floats_toJson (t : Terms) : t.toJson.floats = t.numbers := by
  have htrail : ∀ s : Trail, s.toJson.floats = s.numbers := fun _ => rfl
  have hside : t.side.toJson.floats = [] := by
    rw [Side.toJson, Json.floats]
  simp [Terms.toJson, Terms.numbers, Json.floats, Json.memberFloats, Json.floats_option, htrail,
    hside, List.flatMap_singleton']

theorem Side.toJson_inj {s t : Side} (h : s.toJson = t.toJson) : s = t := by
  cases s <;> cases t <;> first | rfl | exact absurd (Json.string.inj h) (by decide)

theorem Trail.toJson_inj {s t : Trail} (h : s.toJson = t.toJson) : s = t := by
  obtain ⟨activation, distance⟩ := s
  obtain ⟨activation', distance'⟩ := t
  simp only [Trail.toJson, Json.object.injEq, List.cons.injEq, Prod.mk.injEq, true_and, and_true,
    Json.float.injEq] at h
  rw [h.1, h.2]

/-- Terms are told by their values. -/
theorem Terms.toJson_inj {t u : Terms} (h : t.toJson = u.toJson) : t = u := by
  simp only [Terms.toJson, Json.object.injEq, List.cons.injEq, Prod.mk.injEq, true_and, and_true,
    Json.float.injEq, Json.bool.injEq, Json.int.injEq] at h
  obtain ⟨hcreated, hside, hprice, hamount, hlimit, hprofit, hloss, htrail, htime⟩ := h
  have hcreated' := Int64.toInt_inj.mp hcreated
  have hside' := Side.toJson_inj hside
  have hprofit' := Json.option_inj (fun _ _ => Json.float.inj) (fun _ h => nomatch h) hprofit
  have hloss' := Json.option_inj (fun _ _ => Json.float.inj) (fun _ h => nomatch h) hloss
  have htrail' := Json.option_inj (fun _ _ => Trail.toJson_inj) (fun _ h => nomatch h) htrail
  have htime' := Json.option_inj (fun _ _ h => Int64.toInt_inj.mp (Json.int.inj h))
    (fun _ h => nomatch h) htime
  cases t
  cases u
  cases hcreated'; cases hside'; cases hprice; cases hamount; cases hlimit
  cases hprofit'; cases hloss'; cases htrail'; cases htime'
  rfl

/-- A position is told by its terms. -/
theorem Position.eq_of_terms_eq {p q : Position} (h : p.terms = q.terms) : p = q := by
  cases p
  cases q
  cases h
  rfl

/-- **A position is told by its text.** -/
theorem Position.eq_of_canonicalText_eq {p q : Position} (h : p.canonicalText = q.canonicalText) :
    p = q := by
  have hfinite : ∀ p : Position, ∀ x ∈ p.terms.toJson.floats, x.isFinite := by
    intro p
    rw [Terms.floats_toJson]
    exact p.isFinite_of_mem_numbers
  apply Position.eq_of_terms_eq
  exact Terms.toJson_inj (Json.eq_of_text_eq (hfinite p) (hfinite q) h)

/-! ### Bits -/

/-- Both numbers of a trailing stop as their bits. -/
def Trail.bits (s : Trail) : UInt64 × UInt64 :=
  (s.activation.toBits, s.distance.toBits)

/-- All terms, with every number as its bits: these tell the two zeros apart. -/
def Terms.bits (t : Terms) : Int64 × Side × UInt64 × UInt64 × Bool × Option UInt64 ×
    Option UInt64 × Option (UInt64 × UInt64) × Option Int64 :=
  (t.created, t.side, t.price.toBits, t.amount.toBits, t.isLimit, t.takeProfit.map Float.toBits,
    t.stopLoss.map Float.toBits, t.trail.map Trail.bits, t.timeLimit)

theorem Trail.bits_injective : Function.Injective Trail.bits := by
  rintro ⟨activation, distance⟩ ⟨activation', distance'⟩ h
  obtain ⟨hactivation, hdistance⟩ := Prod.mk.inj h
  cases Float.toBits_inj.mp hactivation
  cases Float.toBits_inj.mp hdistance
  rfl

theorem Terms.bits_injective : Function.Injective Terms.bits := by
  intro t u h
  have hfloat : Function.Injective Float.toBits := fun _ _ => Float.toBits_inj.mp
  simp only [Terms.bits, Prod.mk.injEq, Float.toBits_inj] at h
  obtain ⟨hcreated, hside, hprice, hamount, hlimit, hprofit, hloss, htrail, htime⟩ := h
  have hprofit' := Option.map_injective hfloat hprofit
  have hloss' := Option.map_injective hfloat hloss
  have htrail' := Option.map_injective Trail.bits_injective htrail
  cases t
  cases u
  cases hcreated; cases hside; cases hprice; cases hamount; cases hlimit
  cases hprofit'; cases hloss'; cases htrail'; cases htime
  rfl

/-- **Positions have one compact text exactly if all of their terms are the same, bit by bit**, and
then they are the same position. -/
theorem canonicalText_eq_iff_bits_eq (p q : Position) :
    (p.canonicalText = q.canonicalText ↔ p.terms.bits = q.terms.bits) ∧
      (p.terms.bits = q.terms.bits ↔ p = q) := by
  have hbits : p.terms.bits = q.terms.bits → p = q := fun h =>
    Position.eq_of_terms_eq (Terms.bits_injective h)
  have hself : p = q → p.terms.bits = q.terms.bits := congrArg fun r : Position => r.terms.bits
  refine ⟨⟨fun h => hself (Position.eq_of_canonicalText_eq h), fun h => ?_⟩, hbits, hself⟩
  rw [hbits h]

end TripleBarrier
