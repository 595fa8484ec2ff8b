import Mathlib
import TripleBarrier.Batch.Run
import TripleBarrier.Proofs.Refinement

/-!
# Stopping a batch that runs in sequence

Simulations that run one after the other complete in the order of their positions, and the
watcher is told of each of them before the next one begins.  So whatever the watcher remembers
and however it decides, the batch completes the positions through the first one at which it asks
to stop, and skips the others.

## Main definitions

* `Watcher.hear`, `Watcher.answers` — what a watcher remembers and answers when it is told of
  completions.
* `Watcher.recorded` — a watcher that also writes down what it is told.
* `Watcher.lasts` — how many simulations complete.
* `Batch.completions` — the completions of simulations that run one after the other.

## Main results

* `Batch.inSequence_eq` — a prefix of the positions is simulated and the others are skipped.
* `Batch.run_inSequence` — **a batch in sequence keeps exactly the prefix through the first
  completion at which it is stopped.**
-/

namespace TripleBarrier

/-! ### Being told -/

namespace Watcher

variable {σ : Type} (watch : Watcher σ)

/-- What a watcher remembers after it was told of completions. -/
def hear (memory : σ) (told : List Progress) : σ :=
  told.foldl (fun memory p => (watch memory p).1) memory

/-- What a watcher answers to completions, one by one. -/
def answers : σ → List Progress → List Bool
  | _, [] => []
  | memory, p :: rest => (watch memory p).2 :: answers (watch memory p).1 rest

/-- How many of the completions come about: none if the batch was stopped before it began, otherwise
those through the first one at which the watcher asks to stop, and all if it never does. -/
def lasts (stopped : Bool) (memory : σ) (told : List Progress) : ℕ :=
  if stopped then 0 else min told.length ((watch.answers memory told).findIdx id + 1)

/-- A watcher that also writes down what it is told. -/
def recorded : Watcher (σ × List Progress) := fun state p =>
  (((watch state.1 p).1, state.2 ++ [p]), (watch state.1 p).2)

@[simp] theorem hear_nil (memory : σ) : watch.hear memory [] = memory := rfl

@[simp] theorem hear_cons (memory : σ) (p : Progress) (told : List Progress) :
    watch.hear memory (p :: told) = watch.hear (watch memory p).1 told := rfl

theorem hear_append (memory : σ) (told told' : List Progress) :
    watch.hear memory (told ++ told') = watch.hear (watch.hear memory told) told' :=
  List.foldl_append

/-- The first completion comes about unless the batch is stopped before it. -/
theorem lasts_cons (memory : σ) (p : Progress) (told : List Progress) :
    watch.lasts false memory (p :: told) =
      watch.lasts (watch memory p).2 (watch memory p).1 told + 1 := by
  unfold lasts
  rw [answers, List.findIdx_cons, List.length_cons]
  cases hstop : (watch memory p).2 with
  | true => simp
  | false => simp [Nat.succ_min_succ]

theorem lasts_le (stopped : Bool) (memory : σ) (told : List Progress) :
    watch.lasts stopped memory told ≤ told.length := by
  unfold lasts
  split
  · exact Nat.zero_le _
  · exact Nat.min_le_left _ _

/-! ### Writing down -/

theorem hear_recorded (memory : σ) (log told : List Progress) :
    watch.recorded.hear (memory, log) told = (watch.hear memory told, log ++ told) := by
  induction told generalizing memory log with
  | nil => rw [hear_nil, hear_nil, List.append_nil]
  | cons p told ih =>
    rw [hear_cons, hear_cons, recorded, ih, List.append_assoc]
    rfl

/-- Writing down what it is told does not change what a watcher answers. -/
theorem answers_recorded (memory : σ) (log told : List Progress) :
    watch.recorded.answers (memory, log) told = watch.answers memory told := by
  induction told generalizing memory log with
  | nil => rfl
  | cons p told ih =>
    rw [answers, answers]
    exact congrArg _ (ih _ _)

theorem lasts_recorded (stopped : Bool) (memory : σ) (log told : List Progress) :
    watch.recorded.lasts stopped (memory, log) told = watch.lasts stopped memory told := by
  rw [lasts, lasts, answers_recorded]

end Watcher

/-! ### One after the other -/

namespace Batch

section
variable {σ : Type} (one : Position → Outcome) (total : ℕ) (watch : Watcher σ)

/-- The completions of simulations that run one after the other, `done` of them being complete. -/
def completions (done : ℕ) (positions : List Position) : List Progress :=
  (positions.zipIdx (done + 1)).map fun entry => ⟨entry.2, total, one entry.1⟩

theorem completions_cons (done : ℕ) (p : Position) (positions : List Position) :
    completions one total done (p :: positions) =
      ⟨done + 1, total, one p⟩ :: completions one total (done + 1) positions := rfl

theorem length_completions (done : ℕ) (positions : List Position) :
    (completions one total done positions).length = positions.length := by
  rw [completions, List.length_map, List.length_zipIdx]

/-- A simulation completes, and the watcher is told of it before the next one begins. -/
theorem inSequence_cons (done : ℕ) (memory : σ) (p : Position) (positions : List Position) :
    inSequence one total watch false done memory (p :: positions) =
      let told := watch memory ⟨done + 1, total, one p⟩
      let rest := inSequence one total watch told.2 (done + 1) told.1 positions
      (some (one p) :: rest.1, rest.2) := rfl

/-- **A prefix of the positions is simulated, in order, and the others are skipped.** -/
theorem inSequence_eq {stopped : Bool} {done : ℕ} {memory : σ} {positions : List Position} {k : ℕ}
    (hk : watch.lasts stopped memory (completions one total done positions) = k) :
    inSequence one total watch stopped done memory positions =
      ((positions.take k).map (fun p => some (one p)) ++ (positions.drop k).map fun _ => none,
        watch.hear memory ((completions one total done positions).take k)) := by
  induction positions generalizing stopped done memory k with
  | nil =>
    cases stopped with
    | true => simp [inSequence, completions]
    | false => simp [inSequence, completions]
  | cons p positions ih =>
    cases stopped with
    | true =>
      obtain rfl : k = 0 := hk.symm
      rw [inSequence_true]
      rfl
    | false =>
      rw [completions_cons, Watcher.lasts_cons] at hk
      subst hk
      rw [inSequence_cons]
      dsimp only
      rw [ih rfl, completions_cons]
      rfl

end

/-! ### Whole batches -/

/-- A sound batch over an ascending series runs. -/
theorem run_of_sound {σ : Type} {settings : Settings} (hsound : settings.fault? = none)
    {series : List Bar} (hseries : Series.Ascending series) (positions : List Position)
    (order : List ℕ) (stopped : Bool) (watch : Watcher σ) (memory : σ) :
    run settings series positions order stopped watch memory =
      (.ok (report (outcomes settings series positions order stopped watch memory).1),
        (outcomes settings series positions order stopped watch memory).2) := by
  unfold run
  rw [hsound, Series.firstUnordered?_eq_none_iff.mpr hseries]

/-- The report of a prefix of outcomes. -/
theorem report_prefix (done skipped : List Position) (one : Position → Outcome) :
    report (done.map (fun p => some (one p)) ++ skipped.map fun _ => none) =
      .ofOutcomes (done.map one) skipped.length := by
  unfold report
  congr 1
  · simp [List.filterMap_map]
  · rw [List.countP_append, List.countP_map, List.countP_map]
    simp [Function.comp_def]

/-- **A batch in sequence keeps exactly the prefix of its positions through the first completion at
which it is stopped**, and its watcher is told of these completions only, in their order. -/
theorem run_inSequence {σ : Type} {settings : Settings} (hsound : settings.fault? = none)
    (hsequence : settings.parallel = false) {series : List Bar} (hseries : Series.Ascending series)
    (positions : List Position) (order : List ℕ) (stopped : Bool) (watch : Watcher σ) (memory : σ) :
    let one := fun p => simulate series p ⟨settings.costRate⟩
    let told := completions one positions.length 0 positions
    let k := watch.lasts stopped memory told
    ∃ r, run settings series positions order stopped watch.recorded (memory, []) =
        (.ok r, watch.hear memory (told.take k), told.take k) ∧
      k ≤ positions.length ∧ r.outcomes = (positions.take k).map one ∧
      r.skipped = positions.length - k ∧ r.outcomes.length + r.skipped = positions.length := by
  intro one told k
  have hk : watch.recorded.lasts stopped (memory, []) told = k :=
    watch.lasts_recorded stopped memory [] told
  have hle : k ≤ positions.length := by
    have hlasts := watch.lasts_le stopped memory told
    rwa [length_completions] at hlasts
  have hrun := run_of_sound hsound hseries positions order stopped watch.recorded (memory, [])
  have houtcomes : outcomes settings series positions order stopped watch.recorded (memory, []) =
      inSequence one positions.length watch.recorded stopped 0 (memory, []) positions := by
    unfold outcomes
    rw [hsequence]
    rfl
  rw [houtcomes, inSequence_eq one positions.length watch.recorded hk, report_prefix,
    Watcher.hear_recorded, List.nil_append] at hrun
  refine ⟨_, hrun, hle, rfl, List.length_drop, ?_⟩
  show ((positions.take k).map one).length + (positions.drop k).length = positions.length
  rw [List.length_map, ← List.length_append, List.take_append_drop]

/-- Settings under which simulations run one after the other. -/
def inTurn : Settings where
  costRate := 0.0004
  parallel := false

/-- A watcher that counts the completions it is told of and asks to stop at the second one. -/
def impatient : Watcher ℕ := fun count p => (count + 1, p.done == 2)

/-- Of three positions the third one is skipped. -/
theorem run_inSequence_of_impatient :
    inTurn.fault? = none ∧ inTurn.parallel = false ∧ Series.Ascending reversal ∧
      ∃ r, run inTurn reversal (List.replicate 3 reversalPosition) [] false impatient.recorded
          (0, []) =
          (.ok r, 2, [⟨1, 3, simulate reversal reversalPosition ⟨0.0004⟩⟩,
            ⟨2, 3, simulate reversal reversalPosition ⟨0.0004⟩⟩]) ∧
        r.outcomes = List.replicate 2 (simulate reversal reversalPosition ⟨0.0004⟩) ∧
        r.skipped = 1 := by
  have hsound : inTurn.fault? = none := by decide +kernel
  have hseries : Series.Ascending reversal := by decide
  obtain ⟨r, hrun, -, houtcomes, hskipped, -⟩ := run_inSequence hsound rfl hseries
    (List.replicate 3 reversalPosition) [] false impatient 0
  exact ⟨hsound, rfl, hseries, r, hrun, houtcomes, hskipped⟩

end Batch
end TripleBarrier
