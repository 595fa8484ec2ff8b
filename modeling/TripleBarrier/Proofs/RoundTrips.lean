import Mathlib
import TripleBarrier.Schema.Outcome
import TripleBarrier.Position.Fingerprint
import TripleBarrier.Proofs.ExactReading
import TripleBarrier.Proofs.Records
import TripleBarrier.Proofs.Soundness

/-!
# Positions and outcomes that are read back

A position that is written and read again comes back as it was in all its stamps, names, options and
truth values.  Only its floats can come back changed, since the reader scales the digits of a number
by a power of ten, and the product may be a neighbour of the float that was written.  So a position
or an outcome is given back exactly when each of its floats is.

## Main definitions

* `Terms.numbers`, `Row.numbers`, `Outcome.numbers` — the floats of a value.

## Main results

* `Position.restores_iff`, `Outcome.restores_iff` — what has to be read back for a whole document.
* `decode_text_iff` — **a text is decoded to what was written exactly when its floats are read
  back**, as all floats with few digits are.
-/

namespace TripleBarrier

/-- The figures of a ledger line. -/
def Row.numbers (r : Row) : List Float :=
  [r.price, r.netReturn, r.profit, r.fees, r.volume, r.averageEntry]

/-! ### Names -/

theorem Side.restores (side : Side) : Side.decoder.Restores side.toJson side := by
  cases side with
  | long => rfl
  | short => rfl

theorem ExitReason.restores (r : ExitReason) : ExitReason.decoder.Restores r.toJson r := by
  cases r with
  | takeProfit => rfl
  | stopLoss => rfl
  | trailingStop => rfl
  | timeLimit => rfl

/-! ### Records -/

open Record Decoder

/-- A trailing stop is given back if its two numbers are. -/
theorem Trail.restores_iff {t : Trail} (h : ∀ x ∈ t.numbers, x.isFinite) :
    Trail.decoder.Restores t.toJson t ↔ ∀ x ∈ t.numbers, Json.ReadsBack x := by
  obtain ⟨activation, distance⟩ := t
  have hchecked := (isChecked_field "activation_return" float).map Trail.mk
    |>.seq (isChecked_field "trailing_delta" float)
  unfold Trail.decoder Trail.toJson
  rw [restores_object_iff hchecked _ (by simp)]
  simp only [Trail.numbers, List.forall_mem_cons] at h ⊢
  simp only [build_seq_eq_ok_iff, build_map_eq_ok_iff, build_field_written]
  simp [List.lookup_cons, restores_def, restores_float_iff, h]

/-- A ledger line is given back if its figures are. -/
theorem Row.restores_iff {r : Row} (h : ∀ x ∈ r.numbers, x.isFinite) :
    Row.decoder.Restores r.toJson r ↔ ∀ x ∈ r.numbers, Json.ReadsBack x := by
  obtain ⟨time, price, netReturn, profit, fees, volume, averageEntry⟩ := r
  have hchecked := (isChecked_field "timestamp" int64).map Row.mk
    |>.seq (isChecked_field "close_price" float)
    |>.seq (isChecked_field "net_pnl_pct" float)
    |>.seq (isChecked_field "net_pnl_quote" float)
    |>.seq (isChecked_field "cum_fees_quote" float)
    |>.seq (isChecked_field "filled_amount_quote" float)
    |>.seq (isChecked_field "current_avg_entry_price" float)
  unfold Row.decoder Row.toJson
  rw [restores_object_iff hchecked _ (by simp)]
  simp only [Row.numbers, List.forall_mem_cons] at h ⊢
  simp only [build_seq_eq_ok_iff, build_map_eq_ok_iff, build_field_written]
  simp [List.lookup_cons, restores_def, restores_int64, restores_float_iff, h, and_assoc]

/-- An entry is given back if its price is. -/
theorem Fill.restores_iff {f : Fill} (hindex : f.index < UInt64.size) (h : f.price.isFinite) :
    Fill.decoder.Restores f.toJson f ↔ Json.ReadsBack f.price := by
  obtain ⟨index, time, price⟩ := f
  have hchecked := (isChecked_field "index" size).map Fill.mk
    |>.seq (isChecked_field "timestamp" int64)
    |>.seq (isChecked_field "price" float)
  unfold Fill.decoder Fill.toJson
  rw [restores_object_iff hchecked _ (by simp)]
  simp only [build_seq_eq_ok_iff, build_map_eq_ok_iff, build_field_written]
  simp [List.lookup_cons, restores_def, restores_size hindex, restores_int64,
    restores_float_iff h]

/-! ### Options -/

theorem document_float_ne_null {x : Float} (h : x.isFinite) : (Json.float x).document ≠ .null := by
  rw [Json.document, if_pos h]
  cases Json.reread x with
  | some y => exact fun heq => nomatch heq
  | none => exact fun heq => nomatch heq

theorem restores_optional_float_iff {o : Option Float} (h : ∀ x ∈ o, x.isFinite) :
    (optional float).Restores (Json.option .float o) o ↔ ∀ x ∈ o, Json.ReadsBack x := by
  rw [restores_optional_iff fun x hx => document_float_ne_null (h x hx)]
  exact forall₂_congr fun x hx => restores_float_iff (h x hx)

theorem restores_optional_int64 (o : Option Int64) :
    (optional int64).Restores (Json.option (fun n => .int n.toInt) o) o := by
  rw [restores_optional_iff]
  · exact fun n _ => restores_int64 n
  · intro n _ heq
    exact nomatch (document_int64 n).symm.trans heq

theorem restores_optional_trail_iff {o : Option Trail} (h : ∀ t ∈ o, ∀ x ∈ t.numbers, x.isFinite) :
    (optional Trail.decoder).Restores (Json.option Trail.toJson o) o ↔
      ∀ t ∈ o, ∀ x ∈ t.numbers, Json.ReadsBack x := by
  rw [restores_optional_iff]
  · exact forall₂_congr fun t ht => Trail.restores_iff (h t ht)
  · intro t _ heq
    rw [Trail.toJson, Json.document] at heq
    exact nomatch heq

/-! ### Positions -/

/-- Terms are given back exactly when all of their numbers are. -/
theorem Terms.restores_iff {t : Terms} (h : ∀ x ∈ t.numbers, x.isFinite) :
    Terms.decoder.Restores t.toJson t ↔ ∀ x ∈ t.numbers, Json.ReadsBack x := by
  obtain ⟨created, side, price, amount, isLimit, takeProfit, stopLoss, trail, timeLimit⟩ := t
  have hchecked := (isChecked_field "creation_timestamp" int64).map Terms.mk
    |>.seq (isChecked_field "side" Side.decoder)
    |>.seq (isChecked_field "entry_price" float)
    |>.seq (isChecked_field "amount" float)
    |>.seq (isChecked_defaultField "is_limit_entry" bool false)
    |>.seq (isChecked_defaultField "take_profit" (optional float) none)
    |>.seq (isChecked_defaultField "stop_loss" (optional float) none)
    |>.seq (isChecked_defaultField "trailing_stop" (optional Trail.decoder) none)
    |>.seq (isChecked_defaultField "time_limit" (optional int64) none)
  unfold Terms.decoder Terms.record Terms.toJson
  rw [restores_object_iff hchecked _ (by simp)]
  simp only [Terms.numbers, List.forall_mem_cons, List.forall_mem_append, List.mem_flatMap,
    Option.mem_toList] at h ⊢
  simp only [build_seq_eq_ok_iff, build_map_eq_ok_iff, build_field_written,
    build_defaultField_written]
  simp only [↓existsAndEq, List.lookup_cons_self, Option.elim_some, restores_def, and_true,
    List.lookup_cons, String.reduceBEq, mk.injEq, restores_optional_int64, true_and, restores_int64,
    Side.restores, restores_bool, exists_eq_right, forall_exists_index, and_imp]
  obtain ⟨hprice, hamount, ⟨hprofit, hloss⟩, htrail⟩ := h
  rw [restores_float_iff hprice, restores_float_iff hamount, restores_optional_float_iff hprofit,
    restores_optional_float_iff hloss,
    restores_optional_trail_iff fun t ht x hx => htrail x ⟨t, ht, hx⟩]
  constructor
  · rintro ⟨⟨⟨⟨hprice, hamount⟩, hprofit⟩, hloss⟩, htrail⟩
    exact ⟨hprice, hamount, ⟨hprofit, hloss⟩, fun x t ht hx => htrail t ht x hx⟩
  · rintro ⟨hprice, hamount, ⟨hprofit, hloss⟩, htrail⟩
    exact ⟨⟨⟨⟨hprice, hamount⟩, hprofit⟩, hloss⟩, fun t ht x hx => htrail x t ht hx⟩

/-- A document holds a position exactly when it holds its terms: they are sound. -/
theorem Position.decoder_eq_ok_iff {dialect : Dialect} {doc : Document} {p : Position} :
    Position.decoder dialect doc = .ok p ↔ Terms.decoder dialect doc = .ok p.terms := by
  have hcheck : ∀ t, (ofTerms t).mapError Terms.Fault.message = .ok p ↔ p.terms = t := by
    intro t
    rw [← ofTerms_eq_ok_iff]
    cases ofTerms t with
    | ok q => simp [Except.mapError]
    | error fault => simp [Except.mapError]
  unfold Position.decoder
  rw [checked_eq_ok_iff]
  simp only [hcheck, exists_eq_right']

/-- A position is given back exactly when all of its numbers are: its terms pass
their rules again. -/
theorem Position.restores_iff {p : Position} :
    Position.decoder.Restores p.toJson p ↔ ∀ x ∈ p.terms.numbers, Json.ReadsBack x := by
  rw [← Terms.restores_iff p.isFinite_of_mem_numbers]
  exact Position.decoder_eq_ok_iff

/-! ### Outcomes -/

/-- All numbers of an outcome. -/
def Outcome.numbers (o : Outcome) : List Float :=
  o.position.terms.numbers ++ o.rows.flatMap Row.numbers ++ o.fill.toList.map Fill.price

theorem restores_optional_fill_iff {o : Option Fill} (hindex : ∀ f ∈ o, f.index < UInt64.size)
    (h : ∀ f ∈ o, f.price.isFinite) :
    (optional Fill.decoder).Restores (Json.option Fill.toJson o) o ↔
      ∀ f ∈ o, Json.ReadsBack f.price := by
  rw [restores_optional_iff]
  · exact forall₂_congr fun f hf => Fill.restores_iff (hindex f hf) (h f hf)
  · intro f _ heq
    rw [Fill.toJson, Json.document] at heq
    exact nomatch heq

/-- An outcome is given back exactly when all of its numbers are. -/
theorem Outcome.restores_iff {o : Outcome} (h : ∀ x ∈ o.numbers, x.isFinite)
    (hindex : ∀ f ∈ o.fill, f.index < UInt64.size) :
    Outcome.decoder.Restores o.toJson o ↔ ∀ x ∈ o.numbers, Json.ReadsBack x := by
  obtain ⟨position, rows, reason, fill⟩ := o
  have hchecked := (isChecked_field "spec" Position.decoder).map Outcome.mk
    |>.seq (isChecked_field "rows" (list Row.decoder))
    |>.seq (isChecked_field "close_type" ExitReason.decoder)
    |>.seq (isChecked_optionalField "entry" Fill.decoder)
  unfold Outcome.decoder Outcome.toJson
  rw [restores_object_iff hchecked _ (by simp)]
  simp only [Outcome.numbers, List.forall_mem_append, List.mem_flatMap, List.mem_map,
    Option.mem_toList] at h ⊢
  simp only [build_seq_eq_ok_iff, build_map_eq_ok_iff, build_field_written,
    build_optionalField_written]
  simp only [↓existsAndEq, List.lookup_cons_self, Option.elim_some, restores_def, and_true,
    List.lookup_cons, String.reduceBEq, mk.injEq, Position.restores_iff, true_and,
    restores_list_iff, exists_eq_right_right, ExitReason.restores, forall_exists_index, and_imp,
    forall_apply_eq_imp_iff₂]
  obtain ⟨⟨-, hrows⟩, hfill⟩ := h
  rw [restores_optional_fill_iff hindex fun f hf => hfill _ ⟨f, hf, rfl⟩]
  have hrow : ∀ r ∈ rows, (Row.decoder.Restores r.toJson r ↔ ∀ x ∈ r.numbers, Json.ReadsBack x) :=
    fun r hr => Row.restores_iff fun x hx => hrows x ⟨r, hr, hx⟩
  constructor
  · rintro ⟨⟨hposition, hrows⟩, hfill⟩
    exact ⟨⟨hposition, fun x r hr hx => (hrow r hr).mp (hrows r hr) x hx⟩, hfill⟩
  · rintro ⟨⟨hposition, hrows⟩, hfill⟩
    exact ⟨⟨hposition, fun r hr => (hrow r hr).mpr fun x hx => hrows x r hr hx⟩, hfill⟩

/-- **A position or an outcome that is written and read again is given back exactly when each of its
floats is read back from its own digits**, and every float is whose digits have at most 53 bits and
are scaled by at most the twenty-second power of ten. -/
theorem decode_text_iff (p : Position) {o : Outcome} (h : ∀ x ∈ o.numbers, x.isFinite)
    (hindex : ∀ f ∈ o.fill, f.index < UInt64.size) :
    (Json.decode Position.decoder p.canonicalText = .ok p ↔
      ∀ x ∈ p.terms.numbers, Json.ReadsBack x) ∧
    (Json.decode Outcome.decoder o.toJson.text = .ok o ↔ ∀ x ∈ o.numbers, Json.ReadsBack x) ∧
    ∀ x : Float, x.isFinite → (Json.Literal.ofFloat x).parts.1 < 2 ^ 53 →
      (Json.Literal.ofFloat x).parts.2.natAbs ≤ 22 → Json.ReadsBack x := by
  rw [Position.canonicalText, Json.decode_text, Json.decode_text]
  exact ⟨Position.restores_iff, Outcome.restores_iff h hindex, fun _ => readsBack_of_parts⟩

/-- A position at the ends of what can be written: the first stamp, the least float above zero, a
negative zero and the longest time limit. -/
def farPosition : Position where
  terms := {
    created := Int64.minValue
    side := .short
    price := 5e-324
    amount := 1.0
    isLimit := true
    takeProfit := some (-0.0)
    trail := some ⟨-0.01, 0.0⟩
    timeLimit := some Int64.maxValue }
  sound := by decide +kernel

/-- Two lines of a ledger for it, the second one with a loss. -/
def farOutcome : Outcome where
  position := farPosition
  rows := [Row.flat Int64.minValue 100.0, ⟨0, 0.1, -0.0004, -1e-5, 4e-5, 0.2, 0.1⟩]
  reason := .stopLoss
  fill := some ⟨1, 0, 0.1⟩

theorem decode_text_farOutcome :
    (∀ x ∈ farOutcome.numbers, x.isFinite) ∧ (∀ f ∈ farOutcome.fill, f.index < UInt64.size) ∧
      Json.decode Position.decoder farPosition.canonicalText = .ok farPosition ∧
      Json.decode Outcome.decoder farOutcome.toJson.text = .ok farOutcome := by
  have hfinite : ∀ x ∈ farOutcome.numbers, x.isFinite := by decide +kernel
  have hindex : ∀ f ∈ farOutcome.fill, f.index < UInt64.size := by decide +kernel
  obtain ⟨hposition, houtcome, -⟩ := decode_text_iff farPosition hfinite hindex
  refine ⟨hfinite, hindex, hposition.mpr ?_, houtcome.mpr ?_⟩
  · decide +kernel
  · decide +kernel

/-- A position at ten percent above a hundred, which is not the float `110.0`. -/
def raisedPosition : Position where
  terms := { created := 0, side := .long, price := 110.00000000000001, amount := 1.0 }
  sound := by decide +kernel

/-- The reader takes the price for `110.0`, so the position does not come back. -/
theorem decode_text_raisedPosition :
    Json.reread raisedPosition.terms.price = some 110.0 ∧
      Json.decode Position.decoder raisedPosition.canonicalText ≠ .ok raisedPosition := by
  refine ⟨by decide +kernel, ?_⟩
  rw [Position.canonicalText, Json.decode_text]
  intro h
  have hprice := Position.restores_iff.mp h raisedPosition.terms.price List.mem_cons_self
  revert hprice
  decide +kernel

end TripleBarrier
