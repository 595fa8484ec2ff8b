import Mathlib
import TripleBarrier.Position.Fingerprint
import TripleBarrier.Proofs.ExactReading
import TripleBarrier.Proofs.Lookup
import TripleBarrier.Proofs.Soundness

/-!
# Equal positions and their texts

Positions are compared by the values of their numbers, and known by the digest of a text that shows
how these numbers are written.  The two notions part at zero, which has two signs: both zeros are
equal, and they are written differently.  A price and an amount are never zero, so only an exit
level can make the difference.

## Main definitions

* `Terms.exitSigns` — the signs of the exit levels.

## Main results

* `Position.terms_eq_of_beq` — equal positions whose exit levels have the same signs have the same
  terms.
* `canonicalText_eq_iff_of_beq` — **equal positions have one text exactly if their exit levels
  have the same signs.**
-/

namespace TripleBarrier

open Decimal

/-- The signs of both numbers of a trailing stop. -/
def Trail.signs (s : Trail) : Bool × Bool :=
  (isNegative s.activation, isNegative s.distance)

/-- The signs of the exit levels, as far as there are such levels. -/
def Terms.exitSigns (t : Terms) : Option Bool × Option Bool × Option (Bool × Bool) :=
  (t.takeProfit.map isNegative, t.stopLoss.map isNegative, t.trail.map Trail.signs)

/-! ### Comparing terms -/

/-- Trailing stops are compared number by number. -/
theorem Trail.beq_iff {s t : Trail} :
    s == t ↔ s.activation == t.activation ∧ s.distance == t.distance := by
  have hfields : (s == t) = (s.activation == t.activation && s.distance == t.distance) := by
    cases s
    cases t
    rfl
  rw [hfields, Bool.and_eq_true]

/-- Terms are compared field by field. -/
theorem Terms.beq_iff {t u : Terms} :
    t == u ↔ t.created = u.created ∧ t.side = u.side ∧ t.price == u.price ∧ t.amount == u.amount ∧
      t.isLimit = u.isLimit ∧ t.takeProfit == u.takeProfit ∧ t.stopLoss == u.stopLoss ∧
      t.trail == u.trail ∧ t.timeLimit = u.timeLimit := by
  have hfields : (t == u) = (t.created == u.created && (t.side == u.side && (t.price == u.price &&
      (t.amount == u.amount && (t.isLimit == u.isLimit && (t.takeProfit == u.takeProfit &&
      (t.stopLoss == u.stopLoss && (t.trail == u.trail && t.timeLimit == u.timeLimit)))))))) := by
    cases t
    cases u
    rfl
  rw [hfields]
  simp only [Bool.and_eq_true, beq_iff_eq]

/-- What may be absent is the same if it is equal and shows the same. -/
theorem option_eq_of_beq {α β : Type} [BEq α] {f : α → β} {o o' : Option α}
    (hstep : ∀ a ∈ o, ∀ b ∈ o', a == b → f a = f b → a = b) (h : o == o')
    (hf : o.map f = o'.map f) : o = o' := by
  match o, o' with
  | none, none => rfl
  | none, some b => exact nomatch h
  | some a, none => exact nomatch h
  | some a, some b => exact congrArg some (hstep a rfl b rfl h (Option.some.inj hf))

/-! ### The same signs make the same position -/

theorem Trail.eq_of_beq {s t : Trail} (hs : ∀ x ∈ s.numbers, x.isFinite)
    (ht : ∀ x ∈ t.numbers, x.isFinite) (h : s == t) (hsigns : s.signs = t.signs) : s = t := by
  obtain ⟨hactivation, hdistance⟩ := Trail.beq_iff.mp h
  obtain ⟨hsign, hsign'⟩ := Prod.mk.inj hsigns
  obtain ⟨activation, distance⟩ := s
  obtain ⟨activation', distance'⟩ := t
  simp only [Trail.numbers, List.forall_mem_cons] at hs ht
  cases eq_of_beq_of_isNegative hs.1 ht.1 hactivation hsign
  cases eq_of_beq_of_isNegative hs.2.1 ht.2.1 hdistance hsign'
  rfl

/-- Positive numbers are the same if they are equal. -/
theorem eq_of_beq_of_isPositive {x y : Float} (hx : Terms.isPositive x) (hy : Terms.isPositive y)
    (h : x == y) : x = y := by
  have hfinite := Terms.isFinite_of_isPositive hx
  have hfinite' := Terms.isFinite_of_isPositive hy
  apply eq_of_beq_of_isNegative hfinite hfinite' h
  rw [isNegative_of_pos hfinite (Terms.pos_of_isPositive hx),
    isNegative_of_pos hfinite' (Terms.pos_of_isPositive hy)]

/-- **Equal positions whose exit levels have the same signs have the same terms.** -/
theorem Position.terms_eq_of_beq {p q : Position} (h : p == q)
    (hsigns : p.terms.exitSigns = q.terms.exitSigns) : p.terms = q.terms := by
  obtain ⟨hcreated, hside, hprice, hamount, hlimit, hprofit, hloss, htrail, htime⟩ :=
    Terms.beq_iff.mp h
  obtain ⟨hprofitSign, hrest⟩ := Prod.mk.inj hsigns
  obtain ⟨hlossSign, htrailSign⟩ := Prod.mk.inj hrest
  obtain ⟨hpp, hpa, -⟩ := Terms.fault?_eq_none_iff.mp p.sound
  obtain ⟨hqp, hqa, -⟩ := Terms.fault?_eq_none_iff.mp q.sound
  have hprice' := eq_of_beq_of_isPositive hpp hqp hprice
  have hamount' := eq_of_beq_of_isPositive hpa hqa hamount
  have hprofit' := option_eq_of_beq
    (fun x hx y hy => eq_of_beq_of_isNegative (p.isFinite_takeProfit x hx)
      (q.isFinite_takeProfit y hy))
    hprofit hprofitSign
  have hloss' := option_eq_of_beq
    (fun x hx y hy => eq_of_beq_of_isNegative (p.isFinite_stopLoss x hx) (q.isFinite_stopLoss y hy))
    hloss hlossSign
  have htrail' := option_eq_of_beq
    (fun s hs t ht => Trail.eq_of_beq (p.isFinite_trail s hs) (q.isFinite_trail t ht))
    htrail htrailSign
  obtain ⟨⟨_, _, _, _, _, _, _, _, _⟩, hp⟩ := p
  obtain ⟨⟨_, _, _, _, _, _, _, _, _⟩, hq⟩ := q
  cases hcreated; cases hside; cases hprice'; cases hamount'; cases hlimit
  cases hprofit'; cases hloss'; cases htrail'; cases htime
  rfl

/-! ### The text shows the signs -/

/-- Equal floats that are read alike have the same sign: zeros are read back with theirs. -/
theorem isNegative_eq_of_document_eq {x y : Float} (hx : x.isFinite) (hy : y.isFinite) (h : x == y)
    (hdocument : (Json.float x).document = (Json.float y).document) :
    isNegative x = isNegative y := by
  rcases eq_or_isZero_of_beq hx hy h with rfl | ⟨hzero, hzero'⟩
  · rfl
  · rw [Json.document_float hx (readsBack_of_isZero hzero),
      Json.document_float hy (readsBack_of_isZero hzero')] at hdocument
    rw [Document.float.inj hdocument]

/-- What may be absent shows the same if it does so where it is there. -/
theorem option_map_eq_of_document_eq {α β : Type} [BEq α] {encode : α → Json} {f : α → β}
    {o o' : Option α}
    (hstep : ∀ a ∈ o, ∀ b ∈ o', a == b → (encode a).document = (encode b).document → f a = f b)
    (h : o == o') (hdocument : (Json.option encode o).document = (Json.option encode o').document) :
    o.map f = o'.map f := by
  match o, o' with
  | none, none => rfl
  | none, some b => exact nomatch h
  | some a, none => exact nomatch h
  | some a, some b => exact congrArg some (hstep a rfl b rfl h hdocument)

theorem Trail.signs_eq_of_document_eq {s t : Trail} (hs : ∀ x ∈ s.numbers, x.isFinite)
    (ht : ∀ x ∈ t.numbers, x.isFinite) (h : s == t)
    (hdocument : s.toJson.document = t.toJson.document) : s.signs = t.signs := by
  obtain ⟨hactivation, hdistance⟩ := Trail.beq_iff.mp h
  simp only [Trail.numbers, List.forall_mem_cons] at hs ht
  rw [Trail.toJson, Trail.toJson, Json.document, Json.document] at hdocument
  simp only [Json.memberDocuments, Document.table.injEq, List.cons.injEq, Prod.mk.injEq, true_and,
    and_true] at hdocument
  exact Prod.ext (isNegative_eq_of_document_eq hs.1 ht.1 hactivation hdocument.1)
    (isNegative_eq_of_document_eq hs.2.1 ht.2.1 hdistance hdocument.2)

/-- **Equal positions that are written alike have exit levels of the same signs.** -/
theorem Position.exitSigns_eq_of_text_eq {p q : Position} (h : p == q)
    (htext : p.canonicalText = q.canonicalText) : p.terms.exitSigns = q.terms.exitSigns := by
  obtain ⟨-, -, -, -, -, hprofit, hloss, htrail, -⟩ := Terms.beq_iff.mp h
  have hdocument : p.terms.toJson.document = q.terms.toJson.document :=
    Json.document_eq_of_text_eq htext
  rw [Terms.toJson, Terms.toJson, Json.document, Json.document] at hdocument
  simp only [Json.memberDocuments, Document.table.injEq, List.cons.injEq, Prod.mk.injEq, true_and,
    and_true] at hdocument
  obtain ⟨-, -, -, -, -, hprofit', hloss', htrail', -⟩ := hdocument
  have hprofitSign := option_map_eq_of_document_eq
    (fun x hx y hy => isNegative_eq_of_document_eq (p.isFinite_takeProfit x hx)
      (q.isFinite_takeProfit y hy)) hprofit hprofit'
  have hlossSign := option_map_eq_of_document_eq
    (fun x hx y hy => isNegative_eq_of_document_eq (p.isFinite_stopLoss x hx)
      (q.isFinite_stopLoss y hy)) hloss hloss'
  have htrailSign := option_map_eq_of_document_eq
    (fun s hs t ht => Trail.signs_eq_of_document_eq (p.isFinite_trail s hs) (q.isFinite_trail t ht))
    htrail htrail'
  rw [Terms.exitSigns, Terms.exitSigns, hprofitSign, hlossSign, htrailSign]

/-! ### Identity -/

/-- **Equal positions have one text exactly if their exit levels have the same signs, and then they
have one fingerprint, under which the outcome of either of them is found.** -/
theorem canonicalText_eq_iff_of_beq {p q : Position} (h : p == q) :
    (p.canonicalText = q.canonicalText ↔ p.terms.exitSigns = q.terms.exitSigns) ∧
    (p.terms.exitSigns = q.terms.exitSigns →
      p.fingerprint = q.fingerprint ∧
      ∀ outcomes : List Outcome, ∀ o ∈ outcomes, o.position = p → ∀ skipped : ℕ,
        ∃ first ∈ outcomes, (Report.ofOutcomes outcomes skipped).get? q.fingerprint = some first ∧
          first.position.fingerprint = p.fingerprint) := by
  have htext : p.terms.exitSigns = q.terms.exitSigns → p.canonicalText = q.canonicalText := by
    intro hsigns
    rw [Position.canonicalText, Position.canonicalText, Position.toJson, Position.toJson,
      Position.terms_eq_of_beq h hsigns]
  refine ⟨⟨Position.exitSigns_eq_of_text_eq h, htext⟩, ?_⟩
  intro hsigns
  have hfingerprint : p.fingerprint = q.fingerprint := by
    rw [Position.fingerprint, Position.fingerprint, htext hsigns]
  refine ⟨hfingerprint, ?_⟩
  rintro outcomes o ho rfl skipped
  rw [← hfingerprint]
  exact Report.exists_get?_eq_some ho skipped

/-- A position that takes any profit at all. -/
def breakEven : Position where
  terms := { created := 0, side := .long, price := 100.0, amount := 1.0, takeProfit := some 0.0 }
  sound := by decide +kernel

/-- The same position with a level that is written with a sign. -/
def signedBreakEven : Position where
  terms := { created := 0, side := .long, price := 100.0, amount := 1.0, takeProfit := some (-0.0) }
  sound := by decide +kernel

/-- The outcome of a position that never opened. -/
def Outcome.unopened (p : Position) : Outcome :=
  ⟨p, [], .timeLimit, none⟩

theorem canonicalText_ne_of_breakEven :
    breakEven == signedBreakEven ∧ breakEven.canonicalText ≠ signedBreakEven.canonicalText ∧
      signedBreakEven == signedBreakEven ∧
      ∃ first ∈ [Outcome.unopened breakEven, .unopened signedBreakEven],
        (Report.ofOutcomes [.unopened breakEven, .unopened signedBreakEven] 0).get?
          signedBreakEven.fingerprint = some first ∧
        first.position.fingerprint = signedBreakEven.fingerprint := by
  have heq : breakEven == signedBreakEven := by decide +kernel
  have hself : signedBreakEven == signedBreakEven := by decide +kernel
  refine ⟨heq, ?_, hself, ?_⟩
  · rw [ne_eq, (canonicalText_eq_iff_of_beq heq).1]
    decide +kernel
  · exact ((canonicalText_eq_iff_of_beq hself).2 rfl).2
      [.unopened breakEven, .unopened signedBreakEven] (.unopened signedBreakEven) (by simp) rfl 0

/-- **Equal positions need not have one fingerprint**, and the outcome of the one is then not found
under that of the other. -/
theorem fingerprint_ne_of_breakEven :
    breakEven == signedBreakEven ∧ breakEven.canonicalText ≠ signedBreakEven.canonicalText ∧
      breakEven.fingerprint ≠ signedBreakEven.fingerprint ∧
      (Report.ofOutcomes [.unopened breakEven] 0).get? signedBreakEven.fingerprint = none := by
  have hne : breakEven.fingerprint ≠ signedBreakEven.fingerprint := by decide +kernel
  refine ⟨by decide +kernel, ?_, hne, ?_⟩
  · intro htext
    apply hne
    rw [Position.fingerprint, Position.fingerprint, htext]
  · rw [Report.get?_ofOutcomes]
    simp [Outcome.unopened, hne]

end TripleBarrier
