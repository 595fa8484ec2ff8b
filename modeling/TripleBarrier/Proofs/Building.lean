import TripleBarrier.Proofs.RoundTrips
import TripleBarrier.Toml.Reader

/-!
# Positions built call by call

A position can be made at once, from terms, or call by call: each call sets one part of a position
and checks all of its parts again.  What earlier calls have set has passed its check then and passes
it again, so that all a call can fail by is the value it sets.  A value that is not valid is
reported even if a later call would have replaced it.

## Main definitions

* `Call` — a call that sets one part of a position.
* `Call.IsValid`, `Call.complaint?` — when its value is valid, and what is reported if it is not.
* `Position.build` — a position built by a chain of calls.
* `Terms.IsValid` — what is promised of the terms of a position.

## Main results

* `Call.apply_eq_ok_iff`, `Call.apply_eq_error_iff` — one call.
* `Position.buildFrom_eq_ok_iff`, `Position.buildFrom_eq_error_iff` — a chain of calls.
* `Position.build_agrees` — **a chain of calls agrees with checking the terms at once, and only
  valid terms make a position.**
-/

namespace TripleBarrier

/-! ### Valid terms -/

namespace Terms

/-- A price or an amount: finite and positive. -/
def IsQuantity (x : Float) : Prop :=
  x.isFinite ∧ 0.0 < x

/-- What is promised of the terms of a position. -/
structure IsValid (t : Terms) : Prop where
  price : IsQuantity t.price
  amount : IsQuantity t.amount
  takeProfit : ∀ x ∈ t.takeProfit, x.isFinite
  stopLoss : ∀ x ∈ t.stopLoss, x.isFinite ∧ 0.0 ≤ x
  trail : ∀ s ∈ t.trail, s.activation.isFinite ∧ s.distance.isFinite ∧ 0.0 ≤ s.distance
  timeLimit : ∀ n ∈ t.timeLimit, 0 ≤ n

theorem isPositive_iff {x : Float} : isPositive x ↔ IsQuantity x := by
  unfold isPositive IsQuantity
  rw [Bool.and_eq_true, decide_eq_true_iff]

theorem isDistance_iff {x : Float} : isDistance x ↔ x.isFinite ∧ 0.0 ≤ x := by
  unfold isDistance
  rw [Bool.and_eq_true, decide_eq_true_iff]

/-- Terms break no rule exactly when they are valid. -/
theorem isValid_iff {t : Terms} : t.IsValid ↔ t.fault? = none := by
  rw [fault?_eq_none_iff]
  simp only [isPositive_iff, isDistance_iff, Int64.not_lt]
  constructor
  · intro h
    exact ⟨h.price, h.amount, h.takeProfit, h.stopLoss, h.trail, h.timeLimit⟩
  · rintro ⟨hprice, hamount, htakeProfit, hstopLoss, htrail, htimeLimit⟩
    exact ⟨hprice, hamount, htakeProfit, hstopLoss, htrail, htimeLimit⟩

end Terms

/-! ### Calls -/

/-- The parts of a position that are set by calls. -/
inductive Call.Part
  | limitEntry
  | takeProfit
  | stopLoss
  | trail
  | timeLimit
  deriving DecidableEq

/-- A call that sets one part of a position. -/
inductive Call
  | limitEntry (isLimit : Bool)
  | takeProfit (level : Float)
  | stopLoss (distance : Float)
  | trail (t : Trail)
  | timeLimit (seconds : Int64)

namespace Call

/-- The part that a call sets. -/
def part : Call → Part
  | limitEntry _ => .limitEntry
  | takeProfit _ => .takeProfit
  | stopLoss _ => .stopLoss
  | trail _ => .trail
  | timeLimit _ => .timeLimit

/-- The position after a call. -/
def apply (p : Position) : Call → Except Terms.Fault Position
  | limitEntry isLimit => .ok (p.withLimitEntry isLimit)
  | takeProfit level => p.withTakeProfit level
  | stopLoss distance => p.withStopLoss distance
  | trail t => p.withTrail t
  | timeLimit seconds => p.withTimeLimit seconds

/-- The terms with what a call sets written into them, unchecked. -/
def assign (t : Terms) : Call → Terms
  | limitEntry isLimit => { t with isLimit }
  | takeProfit level => { t with takeProfit := some level }
  | stopLoss distance => { t with stopLoss := some distance }
  | trail s => { t with trail := some s }
  | timeLimit seconds => { t with timeLimit := some seconds }

/-- The value that a call sets is valid by itself. -/
def IsValid : Call → Prop
  | limitEntry _ => True
  | takeProfit level => level.isFinite
  | stopLoss distance => distance.isFinite ∧ 0.0 ≤ distance
  | trail t => t.activation.isFinite ∧ t.distance.isFinite ∧ 0.0 ≤ t.distance
  | timeLimit seconds => 0 ≤ seconds

/-- What is reported of a value that is not valid: the rule of the part that it was set to, with the
value itself. -/
def complaint? : Call → Option Terms.Fault
  | limitEntry _ => none
  | takeProfit level => some (.takeProfit level)
  | stopLoss distance => some (.stopLoss distance)
  | trail t => some (.trail t)
  | timeLimit seconds => some (.timeLimit seconds)

/-- The rule that the value of a call breaks. -/
def fault? : Call → Option Terms.Fault
  | limitEntry _ => none
  | takeProfit level => Terms.takeProfitFault? level
  | stopLoss distance => Terms.stopLossFault? distance
  | trail t => Terms.trailFault? t
  | timeLimit seconds => Terms.timeLimitFault? seconds

theorem fault?_eq_none_iff {c : Call} : c.fault? = none ↔ c.IsValid := by
  cases c with
  | limitEntry isLimit => exact iff_of_true rfl trivial
  | takeProfit level => simp [fault?, Terms.takeProfitFault?, IsValid]
  | stopLoss distance => simp [fault?, Terms.stopLossFault?, IsValid, Terms.isDistance_iff]
  | trail t => simp [fault?, Terms.trailFault?, IsValid, Terms.isDistance_iff]
  | timeLimit seconds => simp [fault?, Terms.timeLimitFault?, IsValid, Int64.not_lt]

theorem fault?_eq_some_iff {c : Call} {fault : Terms.Fault} :
    c.fault? = some fault ↔ ¬c.IsValid ∧ c.complaint? = some fault := by
  rw [← fault?_eq_none_iff]
  cases c with
  | limitEntry isLimit => simp [fault?]
  | takeProfit level => simp [fault?, Terms.takeProfitFault?, complaint?]
  | stopLoss distance => simp [fault?, Terms.stopLossFault?, complaint?]
  | trail t => simp [fault?, Terms.trailFault?, complaint?]
  | timeLimit seconds => simp [fault?, Terms.timeLimitFault?, complaint?]

/-- **All that a call can break is the rule of the part that it sets**: the other parts of a
position have passed their checks before. -/
theorem fault?_assign {t : Terms} (hsound : t.fault? = none) (c : Call) :
    (c.assign t).fault? = c.fault? := by
  obtain ⟨hprice, hamount, htakeProfit, hstopLoss, htrail, htimeLimit⟩ :=
    Terms.fault?_eq_none_iff_rules.mp hsound
  cases c with
  | limitEntry isLimit => exact hsound
  | takeProfit level =>
    simp [assign, Terms.fault?, hprice, hamount, hstopLoss, htrail, htimeLimit, fault?]
  | stopLoss distance =>
    simp [assign, Terms.fault?, hprice, hamount, htakeProfit, htrail, htimeLimit, fault?]
  | trail s =>
    simp [assign, Terms.fault?, hprice, hamount, htakeProfit, hstopLoss, htimeLimit, fault?]
  | timeLimit seconds =>
    simp [assign, Terms.fault?, hprice, hamount, htakeProfit, hstopLoss, htrail, fault?]

/-- A call makes the position with the terms that it writes, if these are sound. -/
theorem apply_eq (p : Position) (c : Call) : c.apply p = Position.ofTerms (c.assign p.terms) := by
  cases c with
  | limitEntry isLimit => exact (Position.ofTerms_terms (p.withLimitEntry isLimit)).symm
  | takeProfit level => rfl
  | stopLoss distance => rfl
  | trail t => rfl
  | timeLimit seconds => rfl

/-- **A call succeeds exactly when its value is valid**, and then the value has been written. -/
theorem apply_eq_ok_iff {p q : Position} {c : Call} :
    c.apply p = .ok q ↔ c.IsValid ∧ q.terms = c.assign p.terms := by
  rw [apply_eq, Position.ofTerms_eq_ok_iff, ← fault?_eq_none_iff, ← fault?_assign p.sound c]
  constructor
  · intro h
    exact ⟨h ▸ q.sound, h⟩
  · exact And.right

/-- A call that fails complains of its own value. -/
theorem apply_eq_error_iff {p : Position} {c : Call} {fault : Terms.Fault} :
    c.apply p = .error fault ↔ ¬c.IsValid ∧ c.complaint? = some fault := by
  rw [apply_eq, Position.ofTerms_eq_error_iff, fault?_assign p.sound, fault?_eq_some_iff]

/-- Calls that set different parts can be written in either order. -/
theorem assign_assign {a b : Call} (h : a.part ≠ b.part) (t : Terms) :
    b.assign (a.assign t) = a.assign (b.assign t) := by
  cases a <;> cases b <;> first | rfl | exact absurd rfl h

end Call

/-! ### The first complaint -/

/-- The first of the calls whose value is not valid complains of it. -/
def Call.FirstComplaint (calls : List Call) (fault : Terms.Fault) : Prop :=
  ∃ before c after, calls = before ++ c :: after ∧ (∀ b ∈ before, b.IsValid) ∧ ¬c.IsValid ∧
    c.complaint? = some fault

namespace Call

theorem not_firstComplaint_nil {fault : Terms.Fault} : ¬FirstComplaint [] fault := by
  rintro ⟨before, c, after, hsplit, -⟩
  exact absurd hsplit.symm (by simp)

theorem firstComplaint_cons {c : Call} {calls : List Call} {fault : Terms.Fault} :
    FirstComplaint (c :: calls) fault ↔
      (¬c.IsValid ∧ c.complaint? = some fault) ∨ (c.IsValid ∧ FirstComplaint calls fault) := by
  constructor
  · rintro ⟨before, d, after, hsplit, hbefore, hinvalid, hfault⟩
    cases before with
    | nil =>
      obtain ⟨rfl, -⟩ := List.cons.inj hsplit
      exact .inl ⟨hinvalid, hfault⟩
    | cons b before =>
      obtain ⟨rfl, rfl⟩ := List.cons.inj hsplit
      obtain ⟨hvalid, hbefore⟩ := List.forall_mem_cons.mp hbefore
      exact .inr ⟨hvalid, before, d, after, rfl, hbefore, hinvalid, hfault⟩
  · rintro (⟨hinvalid, hfault⟩ | ⟨hvalid, before, d, after, rfl, hbefore, hd⟩)
    · exact ⟨[], c, calls, rfl, fun b hb => absurd hb List.not_mem_nil, hinvalid, hfault⟩
    · exact ⟨c :: before, d, after, rfl, List.forall_mem_cons.mpr ⟨hvalid, hbefore⟩, hd⟩

end Call

/-! ### Chains of calls -/

/-- The terms with what a chain of calls sets written into them, unchecked: the last value of a part
stays. -/
def Terms.assignAll (t : Terms) (calls : List Call) : Terms :=
  calls.foldl Call.assign t

theorem Terms.assignAll_cons (t : Terms) (c : Call) (calls : List Call) :
    t.assignAll (c :: calls) = (c.assign t).assignAll calls := rfl

namespace Position

/-- A chain of calls that goes on from a position or from a fault: no call is made after a fault. -/
def buildFrom (built : Except Terms.Fault Position) (calls : List Call) :
    Except Terms.Fault Position :=
  calls.foldl (fun built call => built >>= call.apply) built

/-- A position built by a chain of calls. -/
def build (created : Int64) (side : Side) (price amount : Float) (calls : List Call) :
    Except Terms.Fault Position :=
  buildFrom (market created side price amount) calls

/-- The fault of a chain stays what it is. -/
theorem buildFrom_error (fault : Terms.Fault) (calls : List Call) :
    buildFrom (.error fault) calls = .error fault := by
  induction calls with
  | nil => rfl
  | cons c calls ih => exact ih

/-- A call succeeds and the chain goes on, or it fails and the chain has failed. -/
theorem buildFrom_cons (p : Position) (c : Call) (calls : List Call) :
    buildFrom (.ok p) (c :: calls) = buildFrom (c.apply p) calls := rfl

/-- **A chain succeeds exactly when each value is valid by itself**, and then all
have been written. -/
theorem buildFrom_eq_ok_iff {p q : Position} {calls : List Call} :
    buildFrom (.ok p) calls = .ok q ↔
      (∀ c ∈ calls, c.IsValid) ∧ q.terms = p.terms.assignAll calls := by
  induction calls generalizing p with
  | nil =>
    constructor
    · intro h
      exact ⟨fun c hc => absurd hc List.not_mem_nil, congrArg terms (Except.ok.inj h).symm⟩
    · rintro ⟨-, h⟩
      rw [← ofTerms_terms p, ← ofTerms_terms q, h]
      rfl
  | cons c calls ih =>
    rw [buildFrom_cons, List.forall_mem_cons, Terms.assignAll_cons]
    cases hcall : c.apply p with
    | error fault =>
      rw [buildFrom_error]
      exact iff_of_false (by simp) fun h => (Call.apply_eq_error_iff.mp hcall).1 h.1.1
    | ok r =>
      obtain ⟨hvalid, hterms⟩ := Call.apply_eq_ok_iff.mp hcall
      rw [ih, hterms, and_iff_right hvalid]

/-- **A chain fails by the first value that is not valid**, whatever the later calls set. -/
theorem buildFrom_eq_error_iff {p : Position} {calls : List Call} {fault : Terms.Fault} :
    buildFrom (.ok p) calls = .error fault ↔ Call.FirstComplaint calls fault := by
  induction calls generalizing p with
  | nil => exact iff_of_false (fun h => nomatch h) Call.not_firstComplaint_nil
  | cons c calls ih =>
    rw [buildFrom_cons, Call.firstComplaint_cons]
    cases hcall : c.apply p with
    | error found =>
      obtain ⟨hinvalid, hfound⟩ := Call.apply_eq_error_iff.mp hcall
      rw [buildFrom_error]
      simp [hinvalid, hfound]
    | ok q =>
      obtain ⟨hvalid, -⟩ := Call.apply_eq_ok_iff.mp hcall
      rw [ih]
      simp [hvalid]

/-! ### Chains from the start -/

section
variable {created : Int64} {side : Side} {price amount : Float} {calls : List Call}

theorem market_eq_ok_iff {p : Position} : market created side price amount = .ok p ↔
    Terms.IsQuantity price ∧ Terms.IsQuantity amount ∧
      p.terms = { created, side, price, amount } := by
  unfold market
  rw [ofTerms_eq_ok_iff]
  constructor
  · intro h
    have hvalid : p.terms.IsValid := Terms.isValid_iff.mpr p.sound
    rw [h] at hvalid
    exact ⟨hvalid.price, hvalid.amount, h⟩
  · rintro ⟨-, -, h⟩
    exact h

theorem market_eq_error_iff {fault : Terms.Fault} :
    market created side price amount = .error fault ↔
    (¬Terms.IsQuantity price ∧ fault = .price price) ∨
      (Terms.IsQuantity price ∧ ¬Terms.IsQuantity amount ∧ fault = .amount amount) := by
  have hfault : Terms.fault? { created, side, price, amount } =
      (Terms.priceFault? price <|> Terms.amountFault? amount) := by
    simp [Terms.fault?]
  unfold market
  rw [ofTerms_eq_error_iff, hfault, ← Terms.isPositive_iff, ← Terms.isPositive_iff]
  unfold Terms.priceFault? Terms.amountFault?
  cases hprice : Terms.isPositive price with
  | false => simp [@eq_comm _ fault]
  | true =>
    cases hamount : Terms.isPositive amount with
    | false => simp [@eq_comm _ fault]
    | true => simp

theorem build_eq_ok_iff {p : Position} : build created side price amount calls = .ok p ↔
    Terms.IsQuantity price ∧ Terms.IsQuantity amount ∧ (∀ c ∈ calls, c.IsValid) ∧
      p.terms = Terms.assignAll { created, side, price, amount } calls := by
  unfold build
  cases hmarket : market created side price amount with
  | ok q =>
    obtain ⟨hprice, hamount, hterms⟩ := market_eq_ok_iff.mp hmarket
    rw [buildFrom_eq_ok_iff, hterms, and_iff_right hprice, and_iff_right hamount]
  | error fault =>
    rw [buildFrom_error]
    refine iff_of_false (fun h => nomatch h) fun ⟨hprice, hamount, _⟩ => ?_
    rcases market_eq_error_iff.mp hmarket with ⟨h, -⟩ | ⟨-, h, -⟩
    · exact h hprice
    · exact h hamount

theorem build_eq_error_iff {fault : Terms.Fault} :
    build created side price amount calls = .error fault ↔
    (¬Terms.IsQuantity price ∧ fault = .price price) ∨
      (Terms.IsQuantity price ∧ ¬Terms.IsQuantity amount ∧ fault = .amount amount) ∨
      (Terms.IsQuantity price ∧ Terms.IsQuantity amount ∧ Call.FirstComplaint calls fault) := by
  unfold build
  cases hmarket : market created side price amount with
  | ok q =>
    obtain ⟨hprice, hamount, -⟩ := market_eq_ok_iff.mp hmarket
    rw [buildFrom_eq_error_iff]
    simp [hprice, hamount]
  | error found =>
    rw [buildFrom_error]
    rcases market_eq_error_iff.mp hmarket with ⟨hprice, rfl⟩ | ⟨hprice, hamount, rfl⟩
    · simp [hprice, eq_comm]
    · simp [hprice, hamount, eq_comm]

theorem exists_build_eq_ok (hprice : Terms.IsQuantity price) (hamount : Terms.IsQuantity amount)
    (hcalls : ∀ c ∈ calls, c.IsValid) : ∃ p, build created side price amount calls = .ok p := by
  cases hbuild : build created side price amount calls with
  | ok p => exact ⟨p, rfl⟩
  | error fault =>
    rcases build_eq_error_iff.mp hbuild with
      ⟨h, -⟩ | ⟨-, h, -⟩ | ⟨-, -, before, c, after, rfl, -, h, -⟩
    · exact absurd hprice h
    · exact absurd hamount h
    · exact absurd (hcalls c List.mem_append_cons_self) h

/-- Neighbouring calls that set different parts can be made in either order. -/
theorem build_swap {a b : Call} (h : a.part ≠ b.part) (before after : List Call) {p : Position} :
    build created side price amount (before ++ a :: b :: after) = .ok p ↔
      build created side price amount (before ++ b :: a :: after) = .ok p := by
  have hvalid : (∀ c ∈ before ++ a :: b :: after, c.IsValid) ↔
      ∀ c ∈ before ++ b :: a :: after, c.IsValid := by
    simp only [List.forall_mem_append, List.forall_mem_cons]
    exact and_congr_right fun _ => and_left_comm
  have hterms : ∀ t : Terms,
      t.assignAll (before ++ a :: b :: after) = t.assignAll (before ++ b :: a :: after) := by
    intro t
    unfold Terms.assignAll
    rw [List.foldl_append, List.foldl_append, List.foldl_cons, List.foldl_cons, List.foldl_cons,
      List.foldl_cons, Call.assign_assign h]
  rw [build_eq_ok_iff, build_eq_ok_iff, hvalid, hterms]

end

/-! ### Positions from terms and from documents -/

/-- Terms make a position exactly when they are valid. -/
theorem ofTerms_eq_ok_iff_isValid {t : Terms} {p : Position} :
    ofTerms t = .ok p ↔ t.IsValid ∧ p.terms = t := by
  rw [ofTerms_eq_ok_iff]
  constructor
  · rintro rfl
    exact ⟨Terms.isValid_iff.mpr p.sound, rfl⟩
  · exact And.right

/-- The valid terms that a position is made from are its terms. -/
theorem exists_isValid_iff {holds : Terms → Prop} {p : Position} :
    (∃ t, holds t ∧ t.IsValid ∧ p.terms = t) ↔ holds p.terms := by
  constructor
  · rintro ⟨t, ht, -, rfl⟩
    exact ht
  · intro h
    exact ⟨p.terms, h, Terms.isValid_iff.mpr p.sound, rfl⟩

/-- A text holds a position exactly when it holds valid terms. -/
theorem json_decode_eq_ok_iff {text : String} {p : Position} :
    Json.decode decoder text = .ok p ↔
      ∃ t, Json.decode Terms.decoder text = .ok t ∧ t.IsValid ∧ p.terms = t := by
  rw [exists_isValid_iff, Json.decode_eq_ok_iff, Json.decode_eq_ok_iff, decoder_eq_ok_iff]

/-- The same for a settings file. -/
theorem toml_decode_eq_ok_iff {text : String} {p : Position} :
    Toml.decode decoder text = .ok p ↔
      ∃ t, Toml.decode Terms.decoder text = .ok t ∧ t.IsValid ∧ p.terms = t := by
  rw [exists_isValid_iff]
  unfold Toml.decode
  cases Toml.read? text.toList with
  | some doc => exact decoder_eq_ok_iff
  | none => exact iff_of_false (fun h => nomatch h) fun h => nomatch h

/-! ### Agreement -/

/-- **A chain of calls agrees with checking the terms at once.**  It succeeds exactly when each
value is valid by itself, and then with the terms into which all values have been written; it fails
by the first value that is not valid, and by no other; calls that set different parts can be made in
either order.  Terms make a position exactly when they are valid, be they given or read from a
document, and the terms of a position make it again. -/
theorem build_agrees (created : Int64) (side : Side) (price amount : Float) (calls : List Call) :
    ((∃ p, build created side price amount calls = .ok p) ↔
      Terms.IsQuantity price ∧ Terms.IsQuantity amount ∧ ∀ c ∈ calls, c.IsValid) ∧
    (∀ p, build created side price amount calls = .ok p → p.terms.IsValid ∧
      ofTerms (Terms.assignAll { created, side, price, amount } calls) = .ok p) ∧
    (∀ fault, build created side price amount calls = .error fault ↔
      (¬Terms.IsQuantity price ∧ fault = .price price) ∨
      (Terms.IsQuantity price ∧ ¬Terms.IsQuantity amount ∧ fault = .amount amount) ∨
      (Terms.IsQuantity price ∧ Terms.IsQuantity amount ∧ Call.FirstComplaint calls fault)) ∧
    (∀ before a b after, calls = before ++ a :: b :: after → a.part ≠ b.part → ∀ p,
      build created side price amount calls = .ok p ↔
        build created side price amount (before ++ b :: a :: after) = .ok p) ∧
    (∀ t p, ofTerms t = .ok p ↔ t.IsValid ∧ p.terms = t) ∧
    (∀ text p, Json.decode decoder text = .ok p ↔
      ∃ t, Json.decode Terms.decoder text = .ok t ∧ t.IsValid ∧ p.terms = t) ∧
    (∀ text p, Toml.decode decoder text = .ok p ↔
      ∃ t, Toml.decode Terms.decoder text = .ok t ∧ t.IsValid ∧ p.terms = t) ∧
    ∀ p : Position, ofTerms p.terms = .ok p := by
  refine ⟨⟨?_, ?_⟩, ?_, fun fault => build_eq_error_iff, ?_, fun t p => ofTerms_eq_ok_iff_isValid,
    fun text p => json_decode_eq_ok_iff, fun text p => toml_decode_eq_ok_iff, ofTerms_terms⟩
  · rintro ⟨p, hp⟩
    obtain ⟨hprice, hamount, hcalls, -⟩ := build_eq_ok_iff.mp hp
    exact ⟨hprice, hamount, hcalls⟩
  · rintro ⟨hprice, hamount, hcalls⟩
    exact exists_build_eq_ok hprice hamount hcalls
  · intro p hp
    obtain ⟨-, -, -, hterms⟩ := build_eq_ok_iff.mp hp
    exact ⟨Terms.isValid_iff.mpr p.sound, ofTerms_eq_ok_iff.mpr hterms⟩
  · rintro before a b after rfl hparts p
    exact build_swap hparts before after

/-- A negative stop loss is reported although a later call would have replaced it. -/
example : build 0 .long 100.0 1.0 [.takeProfit 0.03, .stopLoss (-0.5), .stopLoss 0.05]
    = .error (.stopLoss (-0.5)) := by rfl

end Position
end TripleBarrier
