import TripleBarrier.Exit.TrailingStop
import TripleBarrier.Proofs.FloatOrder

/-!
# The floors of trailing stops

What a trailing stop does next depends on its floor alone: the ratchet holds the floor that the
phase shows.  Of two stops with the same distance that see the same net returns, the one that is
armed no later has the higher floor from then on, because both floors follow the same proposals.  So
it is triggered first.

## Main definitions

* `TrailingStop.IsCoherent` — the ratchet holds the floor of the phase.
* `TrailingStop.Leads` — a stop is ahead of another one, both being untriggered.

## Main results

* `TrailingStop.phase_observe_of_disarmed`, `TrailingStop.phase_observe_of_armed` — the next
  phase, by the floor.
* `TrailingStop.Leads.observe` — **a stop stays ahead until it is triggered.**
-/

namespace TripleBarrier
namespace TrailingStop

variable {s l : TrailingStop}

/-! ### The next phase -/

/-- The ratchet holds the floor that the phase shows. -/
def IsCoherent (s : TrailingStop) : Prop :=
  s.ratchet.level = s.phase.floor?

theorem isCoherent_start (trail : Trail) : (start trail).IsCoherent := rfl

/-- A net return keeps ratchet and phase together. -/
theorem IsCoherent.observe (h : s.IsCoherent) (x : Float) : (s.observe x).IsCoherent := by
  unfold TrailingStop.observe
  cases hp : s.phase with
  | disarmed =>
    dsimp only
    split
    · rfl
    · exact h
  | armed floor =>
    unfold IsCoherent
    dsimp only
    split <;> rfl
  | triggered floor => exact h

/-- A disarmed stop is armed by a net return above the activation level. -/
theorem phase_observe_of_disarmed (h : s.IsCoherent) (hp : s.phase = .disarmed) (x : Float) :
    (s.observe x).phase
      = if s.trail.activation < x then .armed (s.proposal x) else .disarmed := by
  have hempty : s.ratchet = {} := by
    unfold IsCoherent at h
    rw [hp] at h
    exact congrArg Ratchet.mk h
  unfold observe
  rw [hp, hempty]
  dsimp only
  split
  · rfl
  · exact hp

/-- The floor of an armed stop is raised first, and then tested. -/
theorem phase_observe_of_armed (h : s.IsCoherent) {floor : Float} (hp : s.phase = .armed floor)
    (x : Float) : (s.observe x).phase
      = if x < larger floor (s.proposal x) then .triggered (larger floor (s.proposal x))
        else .armed (larger floor (s.proposal x)) := by
  have hlevel : s.ratchet = ⟨some floor⟩ := by
    unfold IsCoherent at h
    rw [hp] at h
    exact congrArg Ratchet.mk h
  unfold observe
  rw [hp, hlevel]
  rfl

/-- An armed stop that is not triggered stays armed. -/
theorem phase_observe_of_not_triggered (h : s.IsCoherent) {floor : Float}
    (hp : s.phase = .armed floor) {x : Float} (hx : (s.observe x).phase.isTriggered = false) :
    (s.observe x).phase = .armed (larger floor (s.proposal x)) ∧
      ¬ x < larger floor (s.proposal x) := by
  rw [phase_observe_of_armed h hp] at hx ⊢
  split at hx
  · exact absurd hx (by simp [Phase.isTriggered])
  · next hlt => exact ⟨if_neg hlt, hlt⟩

/-! ### One stop ahead of another -/

/-- A stop is ahead of another one with the same distance: neither has been triggered, and the floor
of the other one, once it is armed, is no higher. -/
structure Leads (s l : TrailingStop) : Prop where
  coherent : s.IsCoherent
  coherent' : l.IsCoherent
  distance : s.trail.distance = l.trail.distance
  activation : AtMost s.trail.activation l.trail.activation
  running : s.phase.isTriggered = false
  running' : l.phase.isTriggered = false
  floor : ∀ low, l.phase = .armed low → ∃ high, s.phase = .armed high ∧ place low ≤ place high

/-- A fresh stop is ahead of one that is armed later. -/
theorem leads_start {trail trail' : Trail} (hdistance : trail.distance = trail'.distance)
    (hactivation : AtMost trail.activation trail'.activation) :
    (start trail).Leads (start trail') where
  coherent := isCoherent_start trail
  coherent' := isCoherent_start trail'
  distance := hdistance
  activation := hactivation
  running := rfl
  running' := rfl
  floor := fun _ h => absurd h (by simp [start])

/-- The other stop is armed at a floor that the first one has passed already, or reaches now. -/
theorem Leads.floor_of_armed (h : s.Leads l) {x : Float} (hx : l.trail.activation < x)
    (hs : (s.observe x).phase.isTriggered = false) :
    ∃ high, (s.observe x).phase = .armed high ∧ place (l.proposal x) ≤ place high := by
  have hproposal : s.proposal x = l.proposal x := by
    unfold proposal
    rw [h.distance]
  cases hp : s.phase with
  | disarmed =>
    -- both stops are armed by the same net return
    have harmed : s.trail.activation < x := h.activation.trans_lt hx
    refine ⟨s.proposal x, ?_, hproposal ▸ le_rfl⟩
    rw [phase_observe_of_disarmed h.coherent hp, if_pos harmed]
  | armed floor =>
    -- the first floor was there before, and is raised above the proposal at least
    obtain ⟨hphase, -⟩ := phase_observe_of_not_triggered h.coherent hp hs
    refine ⟨_, hphase, ?_⟩
    rw [place_larger, hproposal]
    exact le_max_right _ _
  | triggered floor => exact absurd h.running (by simp [hp, Phase.isTriggered])

/-- **A stop stays ahead until it is triggered**: a net return that does not trigger it does not
trigger the other one either. -/
theorem Leads.observe (h : s.Leads l) {x : Float} (hs : (s.observe x).phase.isTriggered = false) :
    (s.observe x).Leads (l.observe x) := by
  have hdistance : (s.observe x).trail.distance = (l.observe x).trail.distance := by
    rw [trail_observe, trail_observe, h.distance]
  have hactivation : AtMost (s.observe x).trail.activation (l.observe x).trail.activation := by
    rw [trail_observe, trail_observe]
    exact h.activation
  -- what remains are the next phase of the other stop and its floor
  suffices hphase : (l.observe x).phase.isTriggered = false ∧
      ∀ low, (l.observe x).phase = .armed low → ∃ high,
        (s.observe x).phase = .armed high ∧ place low ≤ place high from
    ⟨h.coherent.observe x, h.coherent'.observe x, hdistance, hactivation, hs, hphase.1, hphase.2⟩
  cases hl : l.phase with
  | disarmed =>
    rw [phase_observe_of_disarmed h.coherent' hl]
    by_cases hx : l.trail.activation < x
    · rw [if_pos hx]
      refine ⟨rfl, fun low hlow => ?_⟩
      obtain rfl := Phase.armed.inj hlow
      exact h.floor_of_armed hx hs
    · rw [if_neg hx]
      exact ⟨rfl, fun low hlow => absurd hlow (by simp)⟩
  | armed low =>
    -- both floors are raised by the same proposal
    obtain ⟨high, hp, hle⟩ := h.floor low hl
    obtain ⟨hphase, hx⟩ := phase_observe_of_not_triggered h.coherent hp hs
    have hproposal : s.proposal x = l.proposal x := by
      unfold proposal
      rw [h.distance]
    have hraised : place (larger low (l.proposal x)) ≤ place (larger high (s.proposal x)) := by
      rw [place_larger, place_larger, hproposal]
      exact max_le_max_right _ hle
    have hx' : ¬ x < larger low (l.proposal x) := fun hlt =>
      hx (lt_of_lt_of_place_le hlt hraised)
    rw [phase_observe_of_armed h.coherent' hl, if_neg hx']
    refine ⟨rfl, fun low' hlow => ?_⟩
    obtain rfl := Phase.armed.inj hlow
    exact ⟨_, hphase, hraised⟩
  | triggered floor => exact absurd h.running' (by simp [hl, Phase.isTriggered])

end TrailingStop
end TripleBarrier
