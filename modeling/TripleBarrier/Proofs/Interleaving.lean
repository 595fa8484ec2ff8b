import Mathlib
import TripleBarrier.Proofs.Stopping

/-!
# Simulations side by side

Side by side, the simulation of a position is a task of three steps.  It looks whether the batch is
to stop and simulates; it takes the next number of a counter that all tasks share; and it tells the
watcher of its completion under that number.  The steps of different tasks may come in any order, so
a watcher need not be told of the numbers in their order.  Still no order changes what a batch
yields, unless it is stopped: every task has its own place for its outcome, and the counter gives
out every number once.

## Main definitions

* `Stage` — how far the task of a position has come.
* `Tasks`, `Tasks.advance` — the tasks of a batch, and the next step of one of them.
* `Batch.interleave` — the tasks after a schedule, which names the task of each step.
* `Batch.TellsAll` — a watcher was told of each position once.

## Main results

* `Tasks.Consistent.advance` — what a step keeps: outcomes are in their places, and every number
  that was taken is held by one task or was told once.
* `Batch.outcomes_interleave` — **no interleaving changes what a batch yields that is not stopped.**
-/

namespace TripleBarrier

/-! ### Tasks and their steps -/

/-- How far the task of a position has come. -/
inductive Stage
  | waiting (p : Position)
  /-- The batch was to stop before the task began. -/
  | skipped
  | simulated (o : Outcome)
  /-- The task has its number and has yet to tell the watcher. -/
  | counted (o : Outcome) (done : ℕ)
  | told (o : Outcome)

namespace Stage

/-- What the task has yielded when its steps are over. -/
def outcome? : Stage → Option Outcome
  | told o => some o
  | _ => none

/-- The number that the task holds and has not told yet. -/
def number? : Stage → Option ℕ
  | counted _ done => some done
  | _ => none

/-- How often the task has told the watcher. -/
def calls : Stage → ℕ
  | told _ => 1
  | _ => 0

/-- How many steps the task has before it. -/
def stepsLeft : Stage → ℕ
  | waiting _ => 3
  | skipped => 0
  | simulated _ => 2
  | counted _ _ => 1
  | told _ => 0

/-- The stage is one of the task of a position. -/
def Fits (one : Position → Outcome) (p : Position) : Stage → Prop
  | waiting q => q = p
  | skipped => True
  | simulated o => o = one p
  | counted o _ => o = one p
  | told o => o = one p

end Stage

/-- The tasks of a batch: their stages in the places of their positions, the last number that was
taken, and the calls of the watcher so far, each with the place of its task. -/
structure Tasks (σ : Type) where
  stages : List Stage
  counter : ℕ
  stopped : Bool
  memory : σ
  calls : List (ℕ × Progress)

section
variable {σ : Type} (one : Position → Outcome) (total : ℕ) (watch : Watcher σ)

namespace Tasks

/-- All tasks are waiting. -/
def start (positions : List Position) (stopped : Bool) (memory : σ) : Tasks σ :=
  ⟨positions.map .waiting, 0, stopped, memory, []⟩

/-- The task in a place takes its next step, if it has one. -/
def advance (t : Tasks σ) (place : ℕ) : Tasks σ :=
  match t.stages[place]? with
  | some (.waiting p) =>
    { t with stages := t.stages.set place (if t.stopped then .skipped else .simulated (one p)) }
  | some (.simulated o) =>
    { t with
      stages := t.stages.set place (.counted o (t.counter + 1))
      counter := t.counter + 1 }
  | some (.counted o done) =>
    { t with
      stages := t.stages.set place (.told o)
      stopped := t.stopped || (watch t.memory ⟨done, total, o⟩).2
      memory := (watch t.memory ⟨done, total, o⟩).1
      calls := t.calls ++ [(place, ⟨done, total, o⟩)] }
  | _ => t

section
variable {one total watch} {t : Tasks σ} {place : ℕ}

theorem advance_waiting {p : Position} (h : t.stages[place]? = some (.waiting p)) :
    advance one total watch t place =
      { t with
        stages := t.stages.set place (if t.stopped then .skipped else .simulated (one p)) } := by
  rw [advance, h]

theorem advance_simulated {o : Outcome} (h : t.stages[place]? = some (.simulated o)) :
    advance one total watch t place =
      { t with
        stages := t.stages.set place (.counted o (t.counter + 1))
        counter := t.counter + 1 } := by
  rw [advance, h]

theorem advance_counted {o : Outcome} {done : ℕ} (h : t.stages[place]? = some (.counted o done)) :
    advance one total watch t place =
      { t with
        stages := t.stages.set place (.told o)
        stopped := t.stopped || (watch t.memory ⟨done, total, o⟩).2
        memory := (watch t.memory ⟨done, total, o⟩).1
        calls := t.calls ++ [(place, ⟨done, total, o⟩)] } := by
  rw [advance, h]

theorem advance_skipped (h : t.stages[place]? = some .skipped) :
    advance one total watch t place = t := by
  rw [advance, h]

theorem advance_of_none (h : t.stages[place]? = none) : advance one total watch t place = t := by
  rw [advance, h]

end

/-- What the tasks have yielded, in the places of their positions. -/
def outcomes (t : Tasks σ) : List (Option Outcome) :=
  t.stages.map Stage.outcome?

end Tasks

/-- The tasks of positions after a schedule. -/
def Batch.interleave (schedule : List ℕ) (stopped : Bool) (memory : σ) (positions : List Position) :
    Tasks σ :=
  schedule.foldl (Tasks.advance one total watch) (.start positions stopped memory)

end

/-! ### Changing one place of a list -/

section
variable {α β : Type} {l : List α} {place : ℕ} {a b : α}

/-- What a list keeps when one place changes, apart from the old and the new entry there. -/
theorem filterMap_set_perm (h : l[place]? = some a) (b : α) (f : α → Option β) :
    ((l.set place b).filterMap f ++ (f a).toList).Perm (l.filterMap f ++ (f b).toList) := by
  classical
  obtain ⟨hplace, rfl⟩ := List.getElem?_eq_some_iff.mp h
  have hcons : ∀ c, (c :: l.eraseIdx place).filterMap f =
      (f c).toList ++ (l.eraseIdx place).filterMap f := by
    intro c
    cases hc : f c with
    | none => simp [hc]
    | some d => simp [hc]
  have hold := (List.getElem_cons_eraseIdx_perm hplace).filterMap f
  have hnew := (List.set_perm_cons_eraseIdx hplace b).filterMap f
  rw [hcons] at hold hnew
  rw [List.perm_iff_count] at hold hnew ⊢
  intro x
  have hcount := hold x
  have hcount' := hnew x
  rw [List.count_append] at hcount hcount' ⊢
  rw [List.count_append]
  omega

section
variable {γ : Type} {R : γ → α → Prop} {xs : List γ} (h : List.Forall₂ R xs l)
include h

theorem forall₂_set (hb : ∀ x ∈ xs[place]?, R x b) : List.Forall₂ R xs (l.set place b) := by
  induction h generalizing place with
  | nil => exact .nil
  | cons hx hrest ih =>
    cases place with
    | zero => exact .cons (hb _ rfl) hrest
    | succ place => exact .cons hx (ih hb)

theorem forall₂_getElem? (ha : l[place]? = some a) : ∃ x, xs[place]? = some x ∧ R x a := by
  induction h generalizing place with
  | nil => exact nomatch ha
  | cons hx hrest ih =>
    cases place with
    | zero =>
      cases Option.some.inj ha
      exact ⟨_, rfl, hx⟩
    | succ place => exact ih ha

end

end

/-! ### What every step keeps -/

section
variable {σ : Type} {one : Position → Outcome} {total : ℕ} {watch : Watcher σ} {memory : σ}
  {positions : List Position} {t : Tasks σ} {place : ℕ}

namespace Tasks

section
variable (one total watch memory positions)

/-- The tasks are those of a batch under way. -/
structure Consistent (t : Tasks σ) : Prop where
  fits : List.Forall₂ (Stage.Fits one) positions t.stages
  /-- Every number that was taken is held by a task or was told, and none is both. -/
  numbers : (t.stages.filterMap Stage.number? ++ t.calls.map fun call => call.2.done).Perm
    (List.range' 1 t.counter)
  /-- A task tells the watcher in its last step only. -/
  places : ∀ place, (t.calls.map Prod.fst).count place = (t.stages[place]?.map Stage.calls).getD 0
  calls : ∀ call ∈ t.calls, call.2.total = total ∧ positions[call.1]?.map one = some call.2.outcome
  memory_eq : t.memory = watch.hear memory (t.calls.map Prod.snd)
  going : t.stopped = false → .skipped ∉ t.stages

end

theorem consistent_start (stopped : Bool) :
    Consistent one total watch memory positions (start positions stopped memory) where
  fits := by
    show List.Forall₂ (Stage.Fits one) positions (positions.map .waiting)
    induction positions with
    | nil => exact .nil
    | cons p positions ih => exact .cons rfl ih
  numbers := by
    have hnone : (positions.map Stage.waiting).filterMap Stage.number? = [] := by
      simp [List.filterMap_map, Function.comp_def, Stage.number?]
    show ((positions.map Stage.waiting).filterMap Stage.number? ++ []).Perm _
    rw [hnone]
    exact .refl _
  places place := by
    show 0 = (((positions.map Stage.waiting)[place]?).map Stage.calls).getD 0
    rw [List.getElem?_map]
    cases positions[place]? with
    | none => rfl
    | some p => rfl
  calls := fun _ h => nomatch h
  memory_eq := rfl
  going _ h := by
    obtain ⟨p, -, hp⟩ := List.mem_map.mp h
    exact nomatch hp

section
variable {s s' : Stage} (hs : t.stages[place]? = some s)
include hs

/-- The calls of the tasks after a change in one place. -/
theorem calls_set (hzero : s.calls = 0) (s' : Stage) (i : ℕ) :
    ((t.stages.set place s')[i]?.map Stage.calls).getD 0 =
      (t.stages[i]?.map Stage.calls).getD 0 + if place = i then s'.calls else 0 := by
  obtain ⟨hplace, -⟩ := List.getElem?_eq_some_iff.mp hs
  rcases eq_or_ne place i with rfl | hne
  · rw [List.getElem?_set_self hplace, hs, if_pos rfl]
    show s'.calls = s.calls + s'.calls
    omega
  · rw [List.getElem?_set_ne hne, if_neg hne, Nat.add_zero]

/-- The numbers that the tasks hold after a change in one place. -/
theorem numbers_set_perm (s' : Stage) (told : List ℕ) :
    ((t.stages.set place s').filterMap Stage.number? ++ told ++ s.number?.toList).Perm
      (t.stages.filterMap Stage.number? ++ told ++ s'.number?.toList) := by
  have hset := filterMap_set_perm hs s' Stage.number?
  rw [List.perm_iff_count] at hset ⊢
  intro x
  have hcount := hset x
  simp only [List.count_append] at hcount ⊢
  omega

section
variable (h : Consistent one total watch memory positions t)
include h

/-- The task in a place is that of the position in this place. -/
theorem Consistent.exists_fits : ∃ p, positions[place]? = some p ∧ s.Fits one p :=
  forall₂_getElem? h.fits hs

theorem Consistent.fits_set (hfits : ∀ p, s.Fits one p → s'.Fits one p) :
    List.Forall₂ (Stage.Fits one) positions (t.stages.set place s') := by
  obtain ⟨p, hp, hfit⟩ := h.exists_fits hs
  apply forall₂_set h.fits
  intro q hq
  cases Option.some.inj (hp.symm.trans hq)
  exact hfits p hfit

end

end

theorem skipped_notMem_set {stages : List Stage} {s' : Stage} (h : .skipped ∉ stages)
    (hs' : s' ≠ .skipped) : .skipped ∉ stages.set place s' := fun hmem =>
  (List.mem_or_eq_of_mem_set hmem).elim h fun heq => hs' heq.symm

section
variable (h : Consistent one total watch memory positions t)
include h

/-- A task begins: it simulates, or it is skipped if the batch is to stop. -/
theorem Consistent.begin {p : Position} (hs : t.stages[place]? = some (.waiting p)) :
    Consistent one total watch memory positions
      { t with
        stages := t.stages.set place (if t.stopped then .skipped else .simulated (one p)) } := by
  have hnew : ∀ s' : Stage, s'.calls = 0 → s'.number? = none → (∀ q, p = q → s'.Fits one q) →
      (t.stopped = false → s' ≠ .skipped) →
      Consistent one total watch memory positions { t with stages := t.stages.set place s' } := by
    intro s' hcalls hnumber hfits hgoing
    have hset := numbers_set_perm hs s' (t.calls.map fun call => call.2.done)
    have hheld : (Stage.waiting p).number? = none := rfl
    rw [hheld, hnumber, Option.toList_none, List.append_nil, List.append_nil] at hset
    exact
      { fits := h.fits_set hs hfits
        numbers := hset.trans h.numbers
        places := fun i => by
          dsimp only
          rw [calls_set hs rfl, hcalls, ite_self, Nat.add_zero]
          exact h.places i
        calls := h.calls
        memory_eq := h.memory_eq
        going := fun hstopped => skipped_notMem_set (h.going hstopped) (hgoing hstopped) }
  split
  · next hstopped =>
    exact hnew .skipped rfl rfl (fun _ _ => trivial)
      fun hgoing => absurd hstopped (by simp [hgoing])
  · exact hnew (.simulated (one p)) rfl rfl (fun q hq => congrArg one hq) fun _ => nofun

/-- A task takes the next number. -/
theorem Consistent.count {o : Outcome} (hs : t.stages[place]? = some (.simulated o)) :
    Consistent one total watch memory positions
      { t with
        stages := t.stages.set place (.counted o (t.counter + 1))
        counter := t.counter + 1 } where
  fits := h.fits_set hs fun _ hfit => hfit
  numbers := by
    have hset := numbers_set_perm hs (.counted o (t.counter + 1))
      (t.calls.map fun call => call.2.done)
    simp only [Stage.number?, Option.toList_none, List.append_nil, Option.toList_some] at hset
    have hnext : List.range' 1 (t.counter + 1) = List.range' 1 t.counter ++ [t.counter + 1] := by
      rw [List.range'_1_concat, Nat.add_comm 1]
    dsimp only
    rw [hnext]
    exact hset.trans (h.numbers.append_right _)
  places i := by
    have hcalls : (Stage.counted o (t.counter + 1)).calls = 0 := rfl
    dsimp only
    rw [calls_set hs rfl, hcalls, ite_self, Nat.add_zero]
    exact h.places i
  calls := h.calls
  memory_eq := h.memory_eq
  going hstopped := skipped_notMem_set (h.going hstopped) nofun

/-- A task tells the watcher under the number that it holds. -/
theorem Consistent.tell {o : Outcome} {done : ℕ} (hs : t.stages[place]? = some (.counted o done)) :
    Consistent one total watch memory positions
      { t with
        stages := t.stages.set place (.told o)
        stopped := t.stopped || (watch t.memory ⟨done, total, o⟩).2
        memory := (watch t.memory ⟨done, total, o⟩).1
        calls := t.calls ++ [(place, ⟨done, total, o⟩)] } where
  fits := h.fits_set hs fun _ hfit => hfit
  numbers := by
    have hset := numbers_set_perm hs (.told o) (t.calls.map fun call => call.2.done)
    simp only [Stage.number?, Option.toList_none, List.append_nil, Option.toList_some] at hset
    rw [List.map_append, ← List.append_assoc]
    exact hset.trans h.numbers
  places i := by
    dsimp only
    rw [calls_set hs rfl, ← h.places i, List.map_append, List.count_append, List.map_singleton,
      List.count_singleton]
    simp [Stage.calls]
  calls call hcall := by
    rcases List.mem_append.mp hcall with hcall | hcall
    · exact h.calls call hcall
    · cases List.mem_singleton.mp hcall
      obtain ⟨p, hp, hfit⟩ := h.exists_fits hs
      refine ⟨rfl, ?_⟩
      rw [hp]
      exact congrArg some hfit.symm
  memory_eq := by
    rw [List.map_append, Watcher.hear_append, ← h.memory_eq]
    rfl
  going hstopped := skipped_notMem_set (h.going (Bool.or_eq_false_iff.mp hstopped).1) nofun

/-- **A step of any task keeps the tasks consistent.** -/
theorem Consistent.advance (place : ℕ) :
    Consistent one total watch memory positions (advance one total watch t place) := by
  unfold Tasks.advance
  split
  · next p hs => exact h.begin hs
  · next o hs => exact h.count hs
  · next o done hs => exact h.tell hs
  · exact h

/-- Whatever steps they take, the tasks stay consistent. -/
theorem Consistent.foldl_advance (schedule : List ℕ) :
    Consistent one total watch memory positions
      (schedule.foldl (Tasks.advance one total watch) t) := by
  induction schedule generalizing t with
  | nil => exact h
  | cons place schedule ih => exact ih (h.advance place)

end

/-! ### Schedules that take every task to its end -/

/-- How many steps the task in a place has before it, none if there is no task. -/
def stepsLeft (t : Tasks σ) (place : ℕ) : ℕ :=
  (t.stages[place]?.map Stage.stepsLeft).getD 0

theorem stepsLeft_set (t : Tasks σ) (s' : Stage) (counter : ℕ) (stopped : Bool) (memory : σ)
    (calls : List (ℕ × Progress)) (i : ℕ) :
    stepsLeft ⟨t.stages.set place s', counter, stopped, memory, calls⟩ i ≤
      if place = i then s'.stepsLeft else t.stepsLeft i := by
  unfold stepsLeft
  dsimp only
  rcases eq_or_ne place i with rfl | hne
  · rw [List.getElem?_set_self', if_pos rfl]
    cases t.stages[place]? with
    | none => exact Nat.zero_le _
    | some s => exact le_rfl
  · rw [List.getElem?_set_ne hne, if_neg hne]

variable (one total watch) in
/-- **A step takes one task on by one step**, and no other one back. -/
theorem stepsLeft_advance_le (t : Tasks σ) (place i : ℕ) :
    (advance one total watch t place).stepsLeft i ≤
      t.stepsLeft i - if place = i then 1 else 0 := by
  have hset : ∀ s s' : Stage, t.stages[place]? = some s → s'.stepsLeft ≤ s.stepsLeft - 1 →
      (if place = i then s'.stepsLeft else t.stepsLeft i) ≤
        t.stepsLeft i - if place = i then 1 else 0 := by
    intro s s' hs hle
    split
    · next heq =>
      rw [← heq, stepsLeft, hs]
      exact hle
    · exact le_rfl
  unfold advance
  split
  · next p hs =>
    refine (stepsLeft_set t _ _ _ _ _ i).trans (hset _ _ hs ?_)
    split
    · exact Nat.zero_le _
    · exact le_rfl
  · next o hs => exact (stepsLeft_set t _ _ _ _ _ i).trans (hset _ _ hs le_rfl)
  · next o done hs => exact (stepsLeft_set t _ _ _ _ _ i).trans (hset _ _ hs le_rfl)
  · next hwaiting hsimulated hcounted =>
    -- a task without a next step has none left
    split
    · next heq =>
      have hzero : t.stepsLeft i = 0 := by
        rw [← heq, stepsLeft]
        cases hs : t.stages[place]? with
        | none => rfl
        | some s =>
          cases s with
          | waiting p => exact absurd hs (hwaiting p)
          | skipped => rfl
          | simulated o => exact absurd hs (hsimulated o)
          | counted o done => exact absurd hs (hcounted o done)
          | told o => rfl
      exact hzero ▸ Nat.zero_le _
    · exact le_rfl

theorem stepsLeft_foldl_advance_le (t : Tasks σ) (schedule : List ℕ) (i : ℕ) :
    (schedule.foldl (advance one total watch) t).stepsLeft i ≤
      t.stepsLeft i - schedule.count i := by
  induction schedule generalizing t with
  | nil => exact le_rfl
  | cons place schedule ih =>
    have hstep := stepsLeft_advance_le one total watch t place i
    have hrest := ih (advance one total watch t place)
    rw [List.foldl_cons, List.count_cons]
    simp only [beq_iff_eq]
    split at hstep
    · next heq =>
      rw [if_pos heq]
      omega
    · next hne =>
      rw [if_neg hne]
      omega

/-! ### Tasks that are over -/

section
variable (h : Consistent one total watch memory positions t)
include h

/-- Once no step is left in a batch that was not stopped, every task has told the watcher. -/
theorem Consistent.exists_told (hover : ∀ place, t.stepsLeft place = 0)
    (hgoing : t.stopped = false) :
    ∀ s ∈ t.stages, ∃ o, s = .told o := by
  intro s hs
  obtain ⟨place, hplace⟩ := List.mem_iff_getElem?.mp hs
  have hleft := hover place
  rw [stepsLeft, hplace] at hleft
  cases s with
  | waiting p => exact nomatch (show 3 = 0 from hleft)
  | skipped => exact absurd hs (h.going hgoing)
  | simulated o => exact nomatch (show 2 = 0 from hleft)
  | counted o done => exact nomatch (show 1 = 0 from hleft)
  | told o => exact ⟨o, rfl⟩

/-- Every outcome is in the place of its position. -/
theorem Consistent.outcomes_eq (htold : ∀ s ∈ t.stages, ∃ o, s = .told o) :
    t.outcomes = positions.map fun p => some (one p) := by
  have hfits := h.fits
  clear h
  unfold outcomes
  generalize t.stages = stages at hfits htold
  induction hfits with
  | nil => rfl
  | cons hfit hrest ih =>
    obtain ⟨o, rfl⟩ := htold _ List.mem_cons_self
    rw [List.map_cons, List.map_cons, ih fun s hs => htold s (List.mem_cons_of_mem _ hs)]
    exact congrArg (some · :: _) hfit

theorem Consistent.places_perm (htold : ∀ s ∈ t.stages, ∃ o, s = .told o) :
    (t.calls.map Prod.fst).Perm (List.range positions.length) := by
  rw [List.perm_iff_count]
  intro place
  rw [h.places place, List.nodup_range.count]
  simp only [List.mem_range, h.fits.length_eq]
  split
  · next hplace =>
    obtain ⟨o, ho⟩ := htold _ (List.getElem_mem hplace)
    rw [List.getElem?_eq_getElem hplace, ho]
    rfl
  · next hplace =>
    rw [List.getElem?_eq_none (Nat.not_lt.mp hplace)]
    rfl

theorem Consistent.numbers_perm (htold : ∀ s ∈ t.stages, ∃ o, s = .told o) :
    (t.calls.map fun call => call.2.done).Perm (List.range' 1 positions.length) := by
  have hheld : t.stages.filterMap Stage.number? = [] := by
    rw [List.filterMap_eq_nil_iff]
    intro s hs
    obtain ⟨o, rfl⟩ := htold s hs
    rfl
  have hnumbers := h.numbers
  rw [hheld, List.nil_append] at hnumbers
  -- there are as many calls as positions, and as many as numbers
  have hlength := (h.places_perm htold).length_eq
  have hcounter := hnumbers.length_eq
  rw [List.length_map, List.length_range] at hlength
  rw [List.length_map, List.length_range', hlength] at hcounter
  rwa [hcounter]

end

end Tasks

/-! ### No schedule matters -/

namespace Batch

/-- The calls of a watcher that is told of each position once: of the outcome of the position, among
as many positions as there are, and under each number from one on. -/
structure TellsAll (one : Position → Outcome) (positions : List Position)
    (calls : List (ℕ × Progress)) : Prop where
  places : (calls.map Prod.fst).Perm (List.range positions.length)
  numbers : (calls.map fun call => call.2.done).Perm (List.range' 1 positions.length)
  total : ∀ call ∈ calls, call.2.total = positions.length
  outcome : ∀ call ∈ calls, positions[call.1]?.map one = some call.2.outcome

/-- Whatever the schedule, the tasks of a batch are consistent. -/
theorem consistent_interleave (schedule : List ℕ) (stopped : Bool) (memory : σ) :
    (interleave one total watch schedule stopped memory positions).Consistent one total watch memory
      positions :=
  (Tasks.consistent_start stopped).foldl_advance schedule

/-- A watcher that never asks to stop does not stop a batch. -/
theorem stopped_foldl_advance (hwatch : ∀ memory p, (watch memory p).2 = false) (t : Tasks σ)
    (schedule : List ℕ) :
    (schedule.foldl (Tasks.advance one total watch) t).stopped = t.stopped := by
  induction schedule generalizing t with
  | nil => rfl
  | cons place schedule ih =>
    rw [List.foldl_cons, ih]
    unfold Tasks.advance
    split
    · rfl
    · rfl
    · show (t.stopped || _) = t.stopped
      rw [hwatch, Bool.or_false]
    · rfl

variable (one memory) in
/-- **No interleaving changes what a batch yields that is not stopped**, once each task has taken
its three steps: every outcome is in its place, and the watcher was told of each position once. -/
theorem outcomes_interleave {schedule : List ℕ}
    (hsteps : ∀ place < positions.length, 3 ≤ schedule.count place)
    (hwatch : ∀ memory p, (watch memory p).2 = false) :
    let tasks := interleave one positions.length watch schedule false memory positions
    tasks.outcomes = (positions.map fun p => some (one p)) ∧ TellsAll one positions tasks.calls ∧
      tasks.memory = watch.hear memory (tasks.calls.map Prod.snd) := by
  intro tasks
  have hconsistent : tasks.Consistent one positions.length watch memory positions :=
    consistent_interleave schedule false memory
  have hgoing : tasks.stopped = false := stopped_foldl_advance hwatch _ schedule
  have hover : ∀ place, tasks.stepsLeft place = 0 := by
    intro place
    have hle : tasks.stepsLeft place ≤ _ := Tasks.stepsLeft_foldl_advance_le _ schedule place
    have hstart : (Tasks.start positions false memory).stepsLeft place ≤ 3 ∧
        (positions.length ≤ place → (Tasks.start positions false memory).stepsLeft place = 0) := by
      unfold Tasks.stepsLeft Tasks.start
      dsimp only
      rw [List.getElem?_map]
      cases hp : positions[place]? with
      | none => exact ⟨Nat.zero_le _, fun _ => rfl⟩
      | some p => exact ⟨le_rfl, fun hplace => absurd hp (by simp [hplace])⟩
    rcases Nat.lt_or_ge place positions.length with hplace | hplace
    · have hcount := hsteps place hplace
      omega
    · have hzero := hstart.2 hplace
      omega
  have htold := hconsistent.exists_told hover hgoing
  exact ⟨hconsistent.outcomes_eq htold,
    { places := hconsistent.places_perm htold
      numbers := hconsistent.numbers_perm htold
      total := fun call hcall => (hconsistent.calls call hcall).1
      outcome := fun call hcall => (hconsistent.calls call hcall).2 },
    hconsistent.memory_eq⟩

end Batch
end

end TripleBarrier
