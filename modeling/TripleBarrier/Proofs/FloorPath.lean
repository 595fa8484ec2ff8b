import Mathlib
import TripleBarrier.Exit.Hits
import TripleBarrier.Proofs.FloorHistory

/-!
# The path of the floors

A trailing stop is driven twice: one scan asks at each bar whether the stop is triggered and gives
the time of the first bar on which it is, and another one gathers the floors from arming on and ends
with the one that triggers.  Both skip the same bars before the stop is armed, the bar that arms it
gives a floor and is not compared with it, and from then on each bar adds one floor to the path.  So
where the path ends, and how its last floor lies to the net return of the bar at that place, tells
all that the other scan finds.

## Main definitions

* `TrailingStop.CrossesAt` — the last floor of a path lies above the net return of a given point.
* `TrailingStop.DriversAgree` — the scan and the path of a fresh stop tell the same of some points.

## Main results

* `TrailingStop.triggerTime?_iff_crossesAt` — an armed stop is triggered where its path ends
  above the net return.
* `TrailingStop.driversAgree` — so do the scan and the path of a fresh stop, whatever it is shown.
* `Draft.floorPath_agrees` — **the path of the floors tells when a draft triggers its
  trailing stop.**
-/

namespace TripleBarrier
namespace TrailingStop

/-- The last floor of a path lies above the net return of the point with number `i`,
whose time is given. -/
def CrossesAt (points : List (Int64 × Float)) (path : List Float) (i : ℕ) (time : Int64) : Prop :=
  ∃ x low, points[i]? = some (time, x) ∧ path.getLast? = some low ∧ x < low

/-! ### One point of the scans -/

section
variable {s : TrailingStop} {x low : Float} (time : Int64) (points : List (Int64 × Float))

/-- Both scans end with the point that triggers the stop. -/
theorem scans_cons_of_triggered (h : (s.observe x).phase = .triggered low) :
    s.triggerTime? ((time, x) :: points) = some time ∧
      s.floorPath (((time, x) :: points).map Prod.snd) = [low] := by
  rw [List.map_cons, triggerTime?, floorPath, h]
  exact ⟨rfl, rfl⟩

/-- Both scans go on from a point that leaves the stop armed. -/
theorem scans_cons_of_armed (h : (s.observe x).phase = .armed low) :
    s.triggerTime? ((time, x) :: points) = (s.observe x).triggerTime? points ∧
      s.floorPath (((time, x) :: points).map Prod.snd)
        = low :: (s.observe x).floorPath (points.map Prod.snd) := by
  rw [List.map_cons, triggerTime?, floorPath, h]
  exact ⟨rfl, rfl⟩

/-- Both scans pass a point that does not arm a fresh stop. -/
theorem scans_cons_of_start {trail : Trail} (h : ¬trail.activation < x) :
    (start trail).triggerTime? ((time, x) :: points) = (start trail).triggerTime? points ∧
      (start trail).floorPath (((time, x) :: points).map Prod.snd)
        = (start trail).floorPath (points.map Prod.snd) := by
  rw [List.map_cons, triggerTime?, floorPath, Trail.observe_start h]
  exact ⟨rfl, rfl⟩

end

/-- A net return is compared with the floor that it has raised. -/
theorem exists_phase_observe_of_armed {s : TrailingStop} {floor : Float}
    (h : s.phase = .armed floor) (x : Float) :
    ∃ low, (x < low ∧ (s.observe x).phase = .triggered low) ∨
      (¬x < low ∧ (s.observe x).phase = .armed low) := by
  refine ⟨s.ratchet.propose (s.proposal x), ?_⟩
  unfold observe
  rw [h]
  dsimp only
  split
  · next hlow => exact .inl ⟨hlow, rfl⟩
  · next hlow => exact .inr ⟨hlow, rfl⟩

/-! ### Where a path ends -/

/-- A path of a single floor ends at the first point. -/
theorem crossesAt_singleton_iff {time time' : Int64} {x low : Float} (h : x < low)
    (points : List (Int64 × Float)) :
    CrossesAt ((time, x) :: points) [low] 0 time' ↔ time = time' := by
  unfold CrossesAt
  rw [List.getElem?_cons_zero, List.getLast?_singleton]
  constructor
  · rintro ⟨x', low', hpoint, -⟩
    exact (Prod.mk.inj (Option.some.inj hpoint)).1
  · rintro rfl
    exact ⟨x, low, rfl, rfl, h⟩

/-- Behind a floor that does not lie above its net return, the path ends as that of
the other points. -/
theorem crossesAt_cons_iff {x low : Float} (h : ¬x < low) (time : Int64)
    (points : List (Int64 × Float)) {path : List Float} {time' : Int64} :
    CrossesAt ((time, x) :: points) (low :: path) path.length time' ↔
      CrossesAt points path (path.length - 1) time' := by
  unfold CrossesAt
  cases path with
  | nil =>
    refine iff_of_false ?_ (by simp)
    rintro ⟨x', low', hpoint, hlow, hlt⟩
    obtain ⟨-, rfl⟩ := Prod.mk.inj (Option.some.inj hpoint)
    obtain rfl : low = low' := Option.some.inj hlow
    exact h hlt
  | cons next path =>
    rw [List.length_cons, List.getElem?_cons_succ, Nat.add_sub_cancel, List.getLast?_cons_cons]

section
variable {point : Int64 × Float} {points : List (Int64 × Float)} {path : List Float} {time : Int64}

/-- Behind the floor of the point that arms the stop, any other floor is a second one. -/
theorem crossesAt_of_arming_iff (floor : Float) :
    (2 ≤ (floor :: path).length ∧
        CrossesAt (point :: points) (floor :: path) (0 + (floor :: path).length - 1) time) ↔
      CrossesAt points path (path.length - 1) time := by
  unfold CrossesAt
  cases path with
  | nil => exact iff_of_false (fun h => absurd h.1 (by simp)) (by simp)
  | cons low path =>
    have hindex : 0 + (floor :: low :: path).length - 1 = (low :: path).length - 1 + 1 := by
      rw [List.length_cons, List.length_cons]
      omega
    rw [hindex, List.getElem?_cons_succ, List.getLast?_cons_cons]
    exact and_iff_right (Nat.le_add_left 2 path.length)

/-- Before the stop is armed, a point moves the place where the path ends by one. -/
theorem crossesAt_of_waiting_iff {k : ℕ} (h : 2 ≤ path.length) :
    CrossesAt (point :: points) path (k + 1 + path.length - 1) time ↔
      CrossesAt points path (k + path.length - 1) time := by
  have hindex : k + 1 + path.length - 1 = k + path.length - 1 + 1 := by omega
  rw [hindex, CrossesAt, CrossesAt, List.getElem?_cons_succ]

end

/-! ### From arming on -/

section
variable {s : TrailingStop} {floor : Float} (h : s.phase = .armed floor)
  (points : List (Int64 × Float))
include h

/-- **An armed stop is triggered where its path ends above the net return**, and its path goes on to
the last point if it is not. -/
theorem triggerTime?_iff_crossesAt :
    (∀ time, s.triggerTime? points = some time ↔
      CrossesAt points (s.floorPath (points.map Prod.snd))
        ((s.floorPath (points.map Prod.snd)).length - 1) time) ∧
    (s.triggerTime? points = none →
      (s.floorPath (points.map Prod.snd)).length = points.length) := by
  induction points generalizing s floor with
  | nil =>
    refine ⟨fun time => iff_of_false (fun h => nomatch h) ?_, fun _ => rfl⟩
    rintro ⟨x, low, hpoint, -⟩
    exact nomatch hpoint
  | cons point points ih =>
    obtain ⟨time, x⟩ := point
    obtain ⟨low, ⟨hlow, hphase⟩ | ⟨hlow, hphase⟩⟩ := exists_phase_observe_of_armed h x
    · obtain ⟨hscan, hpath⟩ := scans_cons_of_triggered time points hphase
      rw [hscan, hpath]
      refine ⟨fun time' => ?_, fun hnone => nomatch hnone⟩
      rw [Option.some.injEq, List.length_singleton, crossesAt_singleton_iff hlow]
    · obtain ⟨hscan, hpath⟩ := scans_cons_of_armed time points hphase
      obtain ⟨hcrosses, hlength⟩ := ih hphase
      rw [hscan, hpath, List.length_cons, Nat.add_sub_cancel, List.length_cons]
      constructor
      · intro time'
        rw [crossesAt_cons_iff hlow time points, hcrosses]
      · intro hnone
        rw [hlength hnone]

end

/-! ### From the start -/

/-- The scan and the path of a fresh stop tell the same of some points. -/
structure DriversAgree (trail : Trail) (points : List (Int64 × Float)) (path : List Float) :
    Prop where
  path_eq_nil_iff : path = [] ↔ points.findIdx? (trail.activation < ·.2) = none
  time_of_unarmed : points.findIdx? (trail.activation < ·.2) = none →
    (start trail).triggerTime? points = none
  time_iff : ∀ k, points.findIdx? (trail.activation < ·.2) = some k → ∀ time,
    (start trail).triggerTime? points = some time ↔
      2 ≤ path.length ∧ CrossesAt points path (k + path.length - 1) time
  length_path : ∀ k, points.findIdx? (trail.activation < ·.2) = some k →
    (start trail).triggerTime? points = none → path.length = points.length - k

section
variable {trail : Trail} {x : Float} (time : Int64) (points : List (Int64 × Float))

/-- From the point that arms the stop on, the scan is that of an armed stop. -/
theorem driversAgree_of_arming (h : trail.activation < x) :
    DriversAgree trail ((time, x) :: points)
      ((start trail).floorPath (((time, x) :: points).map Prod.snd)) := by
  have hphase : ((start trail).observe x).phase = .armed (x - trail.distance) := by
    rw [phase_observe_of_disarmed (isCoherent_start trail) rfl]
    exact if_pos h
  have hfirst : ((time, x) :: points).findIdx? (trail.activation < ·.2) = some 0 := by
    rw [List.findIdx?_cons, if_pos (decide_eq_true h)]
  obtain ⟨hscan, hpath⟩ := scans_cons_of_armed time points hphase
  obtain ⟨hcrosses, hlength⟩ := triggerTime?_iff_crossesAt hphase points
  rw [hpath]
  refine ⟨iff_of_false (List.cons_ne_nil _ _) (by rw [hfirst]; exact nofun),
    fun hnone => (nomatch hfirst.symm.trans hnone), fun k hk time' => ?_, fun k hk hnone => ?_⟩
  · obtain rfl : 0 = k := Option.some.inj (hfirst.symm.trans hk)
    rw [hscan, hcrosses, crossesAt_of_arming_iff]
  · obtain rfl : 0 = k := Option.some.inj (hfirst.symm.trans hk)
    rw [List.length_cons, List.length_cons, hlength (hscan.symm.trans hnone), Nat.sub_zero]

/-- A point that does not arm the stop changes nothing but the places of the others. -/
theorem DriversAgree.of_waiting (h : ¬trail.activation < x)
    (hagree : DriversAgree trail points ((start trail).floorPath (points.map Prod.snd))) :
    DriversAgree trail ((time, x) :: points)
      ((start trail).floorPath (((time, x) :: points).map Prod.snd)) := by
  have hlater : ((time, x) :: points).findIdx? (trail.activation < ·.2)
      = (points.findIdx? (trail.activation < ·.2)).map (· + 1) := by
    rw [List.findIdx?_cons, if_neg (by simpa using h)]
  obtain ⟨hscan, hpath⟩ := scans_cons_of_start time points h
  rw [hpath]
  refine ⟨?_, fun hnone => ?_, fun k hk time' => ?_, fun k hk hnone => ?_⟩
  · rw [hagree.path_eq_nil_iff, hlater, Option.map_eq_none_iff]
  · rw [hlater, Option.map_eq_none_iff] at hnone
    rw [hscan, hagree.time_of_unarmed hnone]
  · rw [hlater] at hk
    obtain ⟨j, hj, rfl⟩ := Option.map_eq_some_iff.mp hk
    rw [hscan, hagree.time_iff j hj time']
    exact and_congr_right fun htwo => (crossesAt_of_waiting_iff htwo).symm
  · rw [hlater] at hk
    obtain ⟨j, hj, rfl⟩ := Option.map_eq_some_iff.mp hk
    rw [hagree.length_path j hj (hscan.symm.trans hnone), List.length_cons, Nat.add_sub_add_right]

end

/-- **The scan and the path of a fresh stop tell the same**, whatever points it is shown. -/
theorem driversAgree (trail : Trail) (points : List (Int64 × Float)) :
    DriversAgree trail points ((start trail).floorPath (points.map Prod.snd)) := by
  induction points with
  | nil =>
    exact ⟨iff_of_true rfl rfl, fun _ => rfl, fun k hk => (nomatch hk), fun k hk => (nomatch hk)⟩
  | cons point points ih =>
    obtain ⟨time, x⟩ := point
    by_cases h : trail.activation < x
    · exact driversAgree_of_arming time points h
    · exact ih.of_waiting time points h

/-- The second point arms the stop, the third one raises its floor, and the fourth
one falls below it. -/
example : (start ⟨0.25, 0.125⟩).floorPath [0.125, 0.5, 0.75, 0.5, 1.0] = [0.375, 0.625, 0.625] ∧
    (start ⟨0.25, 0.125⟩).triggerTime?
      [(0, 0.125), (60, 0.5), (120, 0.75), (180, 0.5), (240, 1.0)] = some 180 := by
  decide +kernel

end TrailingStop

/-! ### The points of a draft -/

namespace Draft

variable (d : Draft)

theorem map_snd_points : d.points.map Prod.snd = d.activeRows.map Row.netReturn := by
  rw [points, List.map_map]
  rfl

/-- A point of a draft belongs to a bar and to the line of that bar. -/
theorem getElem?_points_eq_some_iff {i : ℕ} {time : Int64} {x : Float} :
    d.points[i]? = some (time, x) ↔ ∃ b, d.active[i]? = some b ∧ b.time = time ∧
      (d.activeRows.map Row.netReturn)[i]? = some x := by
  rw [points, activeRows, List.map_map, List.map_map, List.getElem?_map, List.getElem?_map]
  cases d.active[i]? with
  | none => simp
  | some b =>
    rw [Option.map_some, Option.map_some, Option.some.injEq, Option.some.injEq, Prod.mk.injEq]
    simp only [Option.some.injEq, exists_eq_left']
    rfl

/-- **The path of the floors tells when a draft triggers its trailing stop.**  There is no path
exactly if no net return exceeds the activation level, and then the stop is not triggered.
Otherwise the path starts at the first net return that does, and the stop is triggered at a time
exactly if the path has a second floor and the last one lies above the net return of the bar at
which the path ends, that bar having the time.  If the stop is not triggered, the path goes on
to the last bar. -/
theorem floorPath_agrees (trail : Trail) :
    let returns := d.activeRows.map Row.netReturn
    let path := (TrailingStop.start trail).floorPath returns
    (path = [] ↔ returns.findIdx? (trail.activation < ·) = none) ∧
    (path = [] → d.trailingStopTime? trail = none) ∧
    ∀ k, returns.findIdx? (trail.activation < ·) = some k →
      (∀ time, d.trailingStopTime? trail = some time ↔ 2 ≤ path.length ∧
        ∃ b x low, d.active[k + path.length - 1]? = some b ∧ b.time = time ∧
          returns[k + path.length - 1]? = some x ∧ path.getLast? = some low ∧ x < low) ∧
      (d.trailingStopTime? trail = none → path.length = returns.length - k) := by
  intro returns path
  have hfirst : d.points.findIdx? (trail.activation < ·.2)
      = returns.findIdx? (trail.activation < ·) := by
    rw [show returns = d.points.map Prod.snd from d.map_snd_points.symm, List.findIdx?_map]
    rfl
  have hlength : d.points.length = returns.length := by
    rw [show returns = d.points.map Prod.snd from d.map_snd_points.symm, List.length_map]
  obtain ⟨hempty, hunarmed, htime, hpath⟩ := TrailingStop.driversAgree trail d.points
  rw [hfirst] at hempty hunarmed htime hpath
  rw [map_snd_points] at hempty htime hpath
  refine ⟨hempty, fun hnil => hunarmed (hempty.mp hnil), fun k hk => ⟨fun time => ?_, ?_⟩⟩
  · refine (htime k hk time).trans (and_congr_right fun _ => ?_)
    unfold TrailingStop.CrossesAt
    constructor
    · rintro ⟨x, low, hpoint, hlow, hlt⟩
      obtain ⟨b, hbar, hbtime, hx⟩ := d.getElem?_points_eq_some_iff.mp hpoint
      exact ⟨b, x, low, hbar, hbtime, hx, hlow, hlt⟩
    · rintro ⟨b, x, low, hbar, hbtime, hx, hlow, hlt⟩
      exact ⟨x, low, d.getElem?_points_eq_some_iff.mpr ⟨b, hbar, hbtime, hx⟩, hlow, hlt⟩
  · intro hnone
    rw [← hlength]
    exact hpath k hk hnone

end Draft
end TripleBarrier
