import TripleBarrier.Exit.Ratchet
import TripleBarrier.Position.Terms

/-!
# Trailing stops

A trailing stop is disarmed until a net return exceeds its activation level.  From then on a floor
follows the best net return at a fixed distance and never falls; the stop is triggered by the
first later return below the floor, and stays triggered.

## Main definitions

* `TrailingStop.Phase` — disarmed, armed or triggered, with the floor.
* `TrailingStop.observe` — the stop after one more net return.
* `TrailingStop.triggerTime?` — when a run of returns triggers the stop.
* `TrailingStop.floorPath` — the floors from arming through the trigger.
-/

namespace TripleBarrier

/-- How far a trailing stop has got. -/
inductive TrailingStop.Phase
  | disarmed
  | armed (floor : Float)
  | triggered (floor : Float)

namespace TrailingStop.Phase

/-- The floor, once the stop has been armed. -/
def floor? : Phase → Option Float
  | disarmed => none
  | armed floor => some floor
  | triggered floor => some floor

/-- The stop has closed the position. -/
def isTriggered : Phase → Bool
  | triggered _ => true
  | _ => false

end TrailingStop.Phase

/-- A trailing stop on its way through a series of net returns. -/
structure TrailingStop where
  trail : Trail
  ratchet : Ratchet
  phase : TrailingStop.Phase

namespace TrailingStop

/-- A stop that has seen nothing yet. -/
def start (trail : Trail) : TrailingStop :=
  ⟨trail, {}, .disarmed⟩

/-- The floor that a net return proposes. -/
def proposal (s : TrailingStop) (netReturn : Float) : Float :=
  netReturn - s.trail.distance

/-- The stop after one more net return.  The bar that arms the stop cannot trigger it. -/
def observe (s : TrailingStop) (netReturn : Float) : TrailingStop :=
  let floor := s.ratchet.propose (s.proposal netReturn)
  let raised := s.ratchet.raise (s.proposal netReturn)
  match s.phase with
  | .disarmed =>
    if s.trail.activation < netReturn then ⟨s.trail, raised, .armed floor⟩ else s
  | .armed _ =>
    ⟨s.trail, raised, if netReturn < floor then .triggered floor else .armed floor⟩
  | .triggered _ => s

/-- A stop that is triggered stays as it is. -/
theorem observe_of_isTriggered {s : TrailingStop} (h : s.phase.isTriggered) (netReturn : Float) :
    s.observe netReturn = s := by
  unfold observe
  cases hp : s.phase with
  | disarmed => rw [hp] at h; exact absurd h (by decide)
  | armed floor => rw [hp] at h; exact absurd h (by simp [Phase.isTriggered])
  | triggered floor => rfl

/-- The parameters of a stop never change. -/
@[simp] theorem trail_observe (s : TrailingStop) (netReturn : Float) :
    (s.observe netReturn).trail = s.trail := by
  unfold observe
  cases s.phase with
  | disarmed => dsimp only; split <;> rfl
  | armed floor => rfl
  | triggered floor => rfl

/-- The time of the first point that triggers the stop. -/
def triggerTime? (s : TrailingStop) : List (Int64 × Float) → Option Int64
  | [] => none
  | (time, netReturn) :: rest =>
    if (s.observe netReturn).phase.isTriggered then some time
    else (s.observe netReturn).triggerTime? rest

/-- The floors from arming on, up to and including the one that triggers. -/
def floorPath (s : TrailingStop) : List Float → List Float
  | [] => []
  | netReturn :: rest =>
    let next := s.observe netReturn
    next.phase.floor?.toList ++ if next.phase.isTriggered then [] else next.floorPath rest

end TrailingStop
end TripleBarrier
