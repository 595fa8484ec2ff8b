import TripleBarrier.Proofs.FloatBits
import TripleBarrier.Proofs.Floors
import TripleBarrier.Proofs.Soundness

/-!
# The history of a trailing stop

A trailing stop is moved by one net return after another, and keeps its floor twice.  Still its
state can be told from the net returns at once.  It is disarmed until the first of them exceeds
the activation level.  From then on its floor is the highest that has been proposed, where a
proposal which is not a number counts for nothing, and the first net return below that floor
triggers it for good.

The floor is a number from the start, since only a number exceeds the activation level and a
finite distance leaves it one.  So no later net return, infinite or not a number, can lower the
floor or spoil it.

## Main definitions

* `Trail.after` — a fresh stop that has been shown the first of some net returns.
* `Trail.ArmsAt`, `Trail.TriggersAt` — the net returns that arm and trigger a stop.
* `Trail.floor` — the highest floor that has been proposed since a net return.
* `Trail.History` — the states of a stop that is armed by a given net return.

## Main results

* `isNaN_sub` — a number less a finite one is a number.
* `Trail.place_proposal_le_floor`, `Trail.exists_floor_eq_proposal` — the floor is
  the highest proposal.
* `Trail.phase_after_of_staysAbove`, `Trail.phase_after_of_triggersAt` — the phase in closed form.
* `Trail.history_of_armsAt` — **every stop has this history, or is never armed.**
-/

namespace TripleBarrier

open Float.Model UnpackedFloat

/-! ### Differences of numbers -/

namespace Unpacked

/-- What is packed as a number is unpacked as one. -/
theorem isNaN_unpack_pack {a : UnpackedFloat} (h : a.isNaN = false) :
    (Float.Model.pack a).unpack.isNaN = false := by
  show (UnpackedFloat.unpack Format.binary64 (UnpackedFloat.pack Format.binary64 a)).isNaN = false
  cases a with
  | notANumber => nomatch (show true = false from h)
  | infinity s => cases s <;> rfl
  | zero s => cases s <;> rfl
  | finite s m e hm =>
    have hcomponents : ∀ (exponent : BitVec 11) (mantissa : BitVec 52), exponent ≠ -1#_ →
        (UnpackedFloat.unpack Format.binary64
          (packComponents Format.binary64 s exponent mantissa)).isNaN = false := by
      intro exponent mantissa hexponent
      rw [unpack_packComponents s exponent mantissa hexponent]
      split_ifs
      · exact isNaN_of_isFinite (isFinite_numberOf ..)
      · exact isNaN_of_isFinite (isFinite_numberOf ..)
    unfold UnpackedFloat.pack
    dsimp only
    split_ifs with hlarge hlog
    · cases s <;> rfl
    · -- the largest exponent is left to infinities
      refine hcomponents _ _ fun heq => hlarge ?_
      have hvalue : _ % 2 ^ 11 = 2047 :=
        (BitVec.toNat_ofNat _ 11).symm.trans (congrArg BitVec.toNat heq)
      show 2 ^ 11 ≤ _
      omega
    · exact hcomponents _ _ (by decide)

theorem isNaN_roundWithAccuracy (spec : Format) (s : Sign) (m : ℕ) (e : ℤ) (a : Accuracy) :
    (roundWithAccuracy spec s m e a).isNaN = false := by
  unfold roundWithAccuracy
  dsimp only
  split_ifs <;> rfl

theorem isNaN_sub {a b : UnpackedFloat} (ha : a.isNaN = false) (hb : b.isFinite) (spec : Format) :
    (a.sub spec b).isNaN = false := by
  cases a with
  | notANumber => nomatch (show true = false from ha)
  | infinity s =>
    cases b with
    | notANumber => nomatch (show false = true from hb)
    | infinity t => nomatch (show false = true from hb)
    | zero t => rfl
    | finite t n f hn => rfl
  | zero s =>
    cases b with
    | notANumber => nomatch (show false = true from hb)
    | infinity t => nomatch (show false = true from hb)
    | zero t => cases s <;> cases t <;> rfl
    | finite t n f hn => rfl
  | finite s m e hm =>
    cases b with
    | notANumber => nomatch (show false = true from hb)
    | infinity t => nomatch (show false = true from hb)
    | zero t => rfl
    | finite t n f hn =>
      -- the difference of the mantissas is rounded, or it is zero
      unfold UnpackedFloat.sub UnpackedFloat.normalize
      dsimp only
      split
      · exact isNaN_roundWithAccuracy ..
      · rfl
      · exact isNaN_roundWithAccuracy ..

end Unpacked

/-- **A number less a finite one is a number.** -/
theorem isNaN_sub {x y : Float} (hx : x.isNaN = false) (hy : y.isFinite) : (x - y).isNaN = false :=
  Unpacked.isNaN_unpack_pack (Unpacked.isNaN_sub hx hy Format.binary64)

/-- What exceeds something is a number. -/
theorem isNaN_of_lt {x y : Float} (h : x < y) : y.isNaN = false := by
  refine Bool.eq_false_iff.mpr fun hy => ?_
  have hlt := (lt_iff_place.mp h).2
  rw [place_eq_bot_iff.mpr hy] at hlt
  exact not_lt_bot hlt

/-- The larger of two numbers is one of them. -/
theorem larger_eq_or (x y : Float) : larger x y = x ∨ larger x y = y := by
  unfold larger
  split_ifs
  · exact .inr rfl
  · exact .inl rfl
  · exact .inr rfl
  · exact .inl rfl

/-! ### Net returns, one after another -/

namespace Trail

section
variable (trail : Trail) (returns : ℕ → Float)

/-- A fresh trailing stop that has been shown the first `n` of some net returns. -/
def after (n : ℕ) : TrailingStop :=
  ((List.range n).map returns).foldl TrailingStop.observe (.start trail)

/-- The net return with number `k` is the first one above the activation level. -/
def ArmsAt (k : ℕ) : Prop :=
  trail.activation < returns k ∧ ∀ i < k, ¬trail.activation < returns i

/-- The floor that the net return with number `i` proposes. -/
def proposal (i : ℕ) : Float :=
  returns i - trail.distance

/-- The highest floor that the net returns from number `k` through number `i` propose. -/
def floor (k i : ℕ) : Float :=
  ((List.range' (k + 1) (i - k)).map (trail.proposal returns)).foldl larger
    (trail.proposal returns k)

/-- None of the net returns after number `k` and before number `n` lies below the floor by then. -/
def StaysAbove (k n : ℕ) : Prop :=
  ∀ i < n, k < i → ¬returns i < trail.floor returns k i

/-- The net return with number `m` is the first one after number `k` that lies below the floor. -/
def TriggersAt (k m : ℕ) : Prop :=
  (k < m ∧ returns m < trail.floor returns k m) ∧ trail.StaysAbove returns k m

instance (k : ℕ) : Decidable (trail.ArmsAt returns k) :=
  inferInstanceAs (Decidable (_ ∧ ∀ i < k, _))

instance (k n : ℕ) : Decidable (trail.StaysAbove returns k n) :=
  inferInstanceAs (Decidable (∀ i < n, _))

instance (k m : ℕ) : Decidable (trail.TriggersAt returns k m) :=
  inferInstanceAs (Decidable ((_ ∧ _) ∧ _))

theorem after_succ (n : ℕ) :
    trail.after returns (n + 1) = (trail.after returns n).observe (returns n) := by
  simp [after, List.range_succ]

@[simp] theorem trail_after (n : ℕ) : (trail.after returns n).trail = trail := by
  induction n with
  | zero => rfl
  | succ n ih => rw [after_succ, TrailingStop.trail_observe, ih]

theorem isCoherent_after (n : ℕ) : (trail.after returns n).IsCoherent := by
  induction n with
  | zero => exact TrailingStop.isCoherent_start trail
  | succ n ih =>
    rw [after_succ]
    exact ih.observe (returns n)

/-- A stop proposes what its parameters say, whatever it has seen. -/
theorem proposal_after (n : ℕ) :
    (trail.after returns n).proposal (returns n) = trail.proposal returns n := by
  unfold TrailingStop.proposal
  rw [trail_after]
  rfl

/-! ### The highest floor proposed -/

@[simp] theorem floor_self (k : ℕ) : trail.floor returns k k = trail.proposal returns k := by
  simp [floor]

section
variable {k i : ℕ} (hi : k ≤ i)
include hi

/-- The next proposal raises the floor, unless it is lower or not a number. -/
theorem floor_succ :
    trail.floor returns k (i + 1)
      = larger (trail.floor returns k i) (trail.proposal returns (i + 1)) := by
  have hlength : i + 1 - k = i - k + 1 := by omega
  have hlast : k + 1 + (i - k) = i + 1 := by omega
  unfold floor
  rw [hlength, List.range'_1_concat, List.map_append, List.foldl_append, hlast]
  rfl

theorem place_floor_succ :
    place (trail.floor returns k (i + 1))
      = max (place (trail.floor returns k i)) (place (trail.proposal returns (i + 1))) := by
  rw [floor_succ trail returns hi, place_larger]

/-- **The floor is at least as high as each proposal.** -/
theorem place_proposal_le_floor {j : ℕ} (hkj : k ≤ j) (hji : j ≤ i) :
    place (trail.proposal returns j) ≤ place (trail.floor returns k i) := by
  induction i, hi using Nat.le_induction with
  | base =>
    obtain rfl : j = k := Nat.le_antisymm hji hkj
    rw [floor_self]
  | succ i hi ih =>
    rw [place_floor_succ trail returns hi]
    rcases Nat.le_succ_iff.mp hji with hji | rfl
    · exact (ih hji).trans (le_max_left _ _)
    · exact le_max_right _ _

/-- No proposal is higher than the floor, those that are not numbers apart. -/
theorem isNaN_or_proposal_le_floor {j : ℕ} (hkj : k ≤ j) (hji : j ≤ i) :
    (trail.proposal returns j).isNaN ∨ trail.proposal returns j ≤ trail.floor returns k i := by
  by_cases hnan : (trail.proposal returns j).isNaN
  · exact .inl hnan
  · have hle := place_proposal_le_floor trail returns hi hkj hji
    exact .inr (le_iff_place.mpr ⟨mt place_eq_bot_iff.mp hnan, hle⟩)

/-- **The floor is one of the proposals.** -/
theorem exists_floor_eq_proposal :
    ∃ j, k ≤ j ∧ j ≤ i ∧ trail.floor returns k i = trail.proposal returns j := by
  induction i, hi using Nat.le_induction with
  | base => exact ⟨k, le_rfl, le_rfl, trail.floor_self returns k⟩
  | succ i hi ih =>
    obtain ⟨j, hkj, hji, hfloor⟩ := ih
    rw [floor_succ trail returns hi]
    rcases larger_eq_or (trail.floor returns k i) (trail.proposal returns (i + 1)) with
      hsame | hraised
    · exact ⟨j, hkj, Nat.le_succ_of_le hji, hsame.trans hfloor⟩
    · exact ⟨i + 1, Nat.le_succ_of_le hi, le_rfl, hraised⟩

end

end

/-! ### Before arming -/

section
variable {trail : Trail} {returns : ℕ → Float}

/-- A fresh stop is left as it is by a net return that does not exceed the activation level. -/
theorem observe_start {x : Float} (hx : ¬trail.activation < x) :
    (TrailingStop.start trail).observe x = .start trail :=
  if_neg hx

/-- A stop stays fresh as long as no net return exceeds the activation level. -/
theorem after_eq_start {n : ℕ} (h : ∀ i < n, ¬trail.activation < returns i) :
    trail.after returns n = .start trail := by
  induction n with
  | zero => rfl
  | succ n ih =>
    rw [after_succ, ih fun i hi => h i (Nat.lt_succ_of_lt hi)]
    exact observe_start (h n (Nat.lt_succ_self n))

/-- If a net return exceeds the activation level, one of them is the first to do so. -/
theorem exists_armsAt {n : ℕ} (h : trail.activation < returns n) :
    ∃ k, trail.ArmsAt returns k := by
  classical
  have hex : ∃ n, trail.activation < returns n := ⟨n, h⟩
  exact ⟨Nat.find hex, Nat.find_spec hex, fun i hi => Nat.find_min hex hi⟩

/-! ### From arming through the trigger -/

/-- One more net return raises the floor of an armed stop first, and is then compared with it. -/
theorem phase_after_succ {k i : ℕ} (hi : k ≤ i)
    (harmed : (trail.after returns (i + 1)).phase = .armed (trail.floor returns k i)) :
    (trail.after returns (i + 2)).phase
      = if returns (i + 1) < trail.floor returns k (i + 1)
          then .triggered (trail.floor returns k (i + 1))
        else .armed (trail.floor returns k (i + 1)) := by
  rw [after_succ,
    TrailingStop.phase_observe_of_armed (trail.isCoherent_after returns (i + 1)) harmed,
    proposal_after, ← floor_succ trail returns hi]

section
variable {k : ℕ} (harms : trail.ArmsAt returns k)
include harms

theorem phase_after_of_le {n : ℕ} (hn : n ≤ k) :
    (trail.after returns n).phase = .disarmed := by
  rw [after_eq_start fun i hi => harms.2 i (Nat.lt_of_lt_of_le hi hn)]
  rfl

/-- The net return that arms the stop sets its floor, and cannot trigger it. -/
theorem phase_after_arming :
    (trail.after returns (k + 1)).phase = .armed (trail.floor returns k k) := by
  have hdisarmed := phase_after_of_le harms (Nat.le_refl k)
  rw [after_succ,
    TrailingStop.phase_observe_of_disarmed (trail.isCoherent_after returns k) hdisarmed,
    trail_after, if_pos harms.1, proposal_after, floor_self]

/-- **A stop stays armed as long as no net return lies below the floor.** -/
theorem phase_after_of_staysAbove {i : ℕ} (hi : k ≤ i)
    (hstays : trail.StaysAbove returns k (i + 1)) :
    (trail.after returns (i + 1)).phase = .armed (trail.floor returns k i) := by
  induction i, hi using Nat.le_induction with
  | base => exact phase_after_arming harms
  | succ i hi ih =>
    have hearlier : trail.StaysAbove returns k (i + 1) := fun j hj =>
      hstays j (Nat.lt_succ_of_lt hj)
    rw [phase_after_succ hi (ih hearlier),
      if_neg (hstays (i + 1) (Nat.lt_succ_self _) (Nat.lt_succ_of_le hi))]

/-- **The first net return below the floor triggers the stop.** -/
theorem phase_after_of_triggersAt {m : ℕ} (hm : trail.TriggersAt returns k m) :
    (trail.after returns (m + 1)).phase = .triggered (trail.floor returns k m) := by
  obtain ⟨⟨hlt, hbelow⟩, hstays⟩ := hm
  obtain ⟨i, rfl⟩ : ∃ i, m = i + 1 := Nat.exists_eq_succ_of_ne_zero (Nat.ne_zero_of_lt hlt)
  have hi : k ≤ i := Nat.le_of_lt_succ hlt
  rw [phase_after_succ hi (phase_after_of_staysAbove harms hi hstays), if_pos hbelow]

/-- A stop that has been triggered is left as it is. -/
theorem after_eq_of_triggersAt {m n : ℕ} (hm : trail.TriggersAt returns k m) (hn : m + 1 ≤ n) :
    trail.after returns n = trail.after returns (m + 1) := by
  induction n, hn using Nat.le_induction with
  | base => rfl
  | succ n hn ih =>
    have htriggered : (trail.after returns (m + 1)).phase.isTriggered := by
      rw [phase_after_of_triggersAt harms hm]
      rfl
    rw [after_succ, ih, TrailingStop.observe_of_isTriggered htriggered]

/-- The ratchet holds the floor from arming through the trigger. -/
theorem level_after {i : ℕ} (hi : k ≤ i) (hstays : trail.StaysAbove returns k i) :
    (trail.after returns (i + 1)).ratchet.level = some (trail.floor returns k i) := by
  have hcoherent : (trail.after returns (i + 1)).ratchet.level
      = (trail.after returns (i + 1)).phase.floor? := trail.isCoherent_after returns (i + 1)
  rw [hcoherent]
  by_cases hbelow : k < i ∧ returns i < trail.floor returns k i
  · rw [phase_after_of_triggersAt harms ⟨hbelow, hstays⟩]
    rfl
  · have hstays' : trail.StaysAbove returns k (i + 1) := by
      intro j hj hkj hlt
      rcases Nat.lt_succ_iff_lt_or_eq.mp hj with hj | rfl
      · exact hstays j hj hkj hlt
      · exact hbelow ⟨hkj, hlt⟩
    rw [phase_after_of_staysAbove harms hi hstays']
    rfl

/-- **The floor is a number from arming on**, if the distance is finite. -/
theorem isNaN_floor (hdistance : trail.distance.isFinite) {i : ℕ} (hi : k ≤ i) :
    (trail.floor returns k i).isNaN = false := by
  refine Bool.eq_false_iff.mpr fun hfloor => ?_
  -- the first proposal is a number, and no floor is below it
  have hfirst : (trail.proposal returns k).isNaN = false :=
    isNaN_sub (isNaN_of_lt harms.1) hdistance
  have hle := place_proposal_le_floor trail returns hi le_rfl hi
  rw [place_eq_bot_iff.mpr hfloor, le_bot_iff, place_eq_bot_iff] at hle
  exact Bool.eq_false_iff.mp hfirst hle

/-- The floor is never lowered. -/
theorem floor_le_floor_succ (hdistance : trail.distance.isFinite) {i : ℕ} (hi : k ≤ i) :
    trail.floor returns k i ≤ trail.floor returns k (i + 1) := by
  have hplace : place (trail.floor returns k i) ≠ ⊥ :=
    mt place_eq_bot_iff.mp (Bool.eq_false_iff.mp (isNaN_floor harms hdistance hi))
  refine le_iff_place.mpr ⟨hplace, ?_⟩
  rw [place_floor_succ trail returns hi]
  exact le_max_left _ _

end

end

/-! ### The whole history -/

/-- The states of a stop that is armed by the net return with number `k`. -/
structure History (trail : Trail) (returns : ℕ → Float) (k : ℕ) : Prop where
  disarmed : ∀ n ≤ k, (trail.after returns n).phase = .disarmed
  /-- In particular the net return that arms the stop does not trigger it. -/
  armed : ∀ i ≥ k, trail.StaysAbove returns k (i + 1) →
    (trail.after returns (i + 1)).phase = .armed (trail.floor returns k i)
  triggered : ∀ m, trail.TriggersAt returns k m →
    (trail.after returns (m + 1)).phase = .triggered (trail.floor returns k m)
  settled : ∀ m, trail.TriggersAt returns k m → ∀ n > m,
    trail.after returns n = trail.after returns (m + 1)
  level : ∀ i ≥ k, trail.StaysAbove returns k i →
    (trail.after returns (i + 1)).ratchet.level = some (trail.floor returns k i)
  isNaN_floor : ∀ i ≥ k, (trail.floor returns k i).isNaN = false
  floor_le_floor : ∀ i ≥ k, trail.floor returns k i ≤ trail.floor returns k (i + 1)
  /-- The floor is the highest proposal, those that are not numbers apart. -/
  proposal_le_floor : ∀ i j, k ≤ j → j ≤ i →
    (trail.proposal returns j).isNaN ∨ trail.proposal returns j ≤ trail.floor returns k i
  exists_floor_eq : ∀ i ≥ k, ∃ j, k ≤ j ∧ j ≤ i ∧
    trail.floor returns k i = trail.proposal returns j

/-- **A trailing stop has this history once a net return arms it, and is disarmed for ever if none
does.** -/
theorem history_of_armsAt {trail : Trail} (hsound : Terms.trailFault? trail = none)
    (returns : ℕ → Float) :
    (∀ k, trail.ArmsAt returns k → trail.History returns k) ∧
      ((∀ k, ¬trail.ArmsAt returns k) → ∀ n, (trail.after returns n).phase = .disarmed) := by
  have hdistance : trail.distance.isFinite :=
    Terms.isFinite_of_isDistance (Terms.trailFault?_eq_none_iff.mp hsound).2
  constructor
  · intro k harms
    exact {
      disarmed := fun n hn => phase_after_of_le harms hn
      armed := fun i hi hstays => phase_after_of_staysAbove harms hi hstays
      triggered := fun m hm => phase_after_of_triggersAt harms hm
      settled := fun m hm n hn => after_eq_of_triggersAt harms hm hn
      level := fun i hi hstays => level_after harms hi hstays
      isNaN_floor := fun i hi => isNaN_floor harms hdistance hi
      floor_le_floor := fun i hi => floor_le_floor_succ harms hdistance hi
      proposal_le_floor := fun i j hkj hji =>
        isNaN_or_proposal_le_floor trail returns (hkj.trans hji) hkj hji
      exists_floor_eq := fun i hi => trail.exists_floor_eq_proposal returns hi }
  · intro hnone n
    rw [after_eq_start fun i _ hi => (exists_armsAt hi).elim hnone]
    rfl

/-- Net returns with gaps, a rise, a fall and another rise. -/
def unsteady (i : ℕ) : Float :=
  [0.005, 0.0 / 0.0, 0.03, 0.0 / 0.0, 0.027, 0.02].getD i (1.0 / 0.0)

/-- The third net return arms a stop, the sixth triggers it, and infinite ones do not matter any
more; net returns at the activation level never arm it. -/
theorem history_of_unsteady :
    Terms.trailFault? ⟨0.01, 0.005⟩ = none ∧
      (Trail.ArmsAt ⟨0.01, 0.005⟩ unsteady 2 ∧ Trail.TriggersAt ⟨0.01, 0.005⟩ unsteady 2 5 ∧
        Trail.History ⟨0.01, 0.005⟩ unsteady 2) ∧
      ((∀ k, ¬Trail.ArmsAt ⟨0.01, 0.005⟩ (fun _ => 0.01) k) ∧
        ∀ n, (Trail.after ⟨0.01, 0.005⟩ (fun _ => 0.01) n).phase = .disarmed) := by
  have hsound : Terms.trailFault? ⟨0.01, 0.005⟩ = none := by decide +kernel
  have harms : Trail.ArmsAt ⟨0.01, 0.005⟩ unsteady 2 := by decide +kernel
  have hnone : ∀ k, ¬Trail.ArmsAt ⟨0.01, 0.005⟩ (fun _ => 0.01) k := fun k h =>
    absurd (show (0.01 : Float) < 0.01 from h.1) (by decide +kernel)
  exact ⟨hsound, ⟨harms, by decide +kernel, (history_of_armsAt hsound unsteady).1 2 harms⟩, hnone,
    (history_of_armsAt hsound fun _ => 0.01).2 hnone⟩

end Trail
end TripleBarrier
