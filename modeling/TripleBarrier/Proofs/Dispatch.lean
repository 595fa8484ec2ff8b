import Mathlib
import TripleBarrier.Proofs.Interleaving

/-!
# Orders of dispatch

A batch whose simulations complete one by one in a given order is an interleaving in which each task
takes its three steps together, and a batch in sequence is one whose simulations complete in the
order of their positions.  So all that holds of interleavings holds of batches in either mode.

## Main definitions

* `Batch.wholeTasks` — the schedule in which each task takes its steps together.
* `Batch.Mirrors` — a dispatch shows what tasks have yielded.
* `Batch.completionOrder` — the order in which the simulations of a batch complete.

## Main results

* `Batch.sideBySide_eq_interleave` — an order of completion is an interleaving of whole tasks.
* `Batch.inSequence_eq_sideBySide` — a sequence is an order of completion.
* `Batch.run_of_orders` — **the order of dispatch does not matter.**
-/

namespace TripleBarrier
namespace Batch

section
variable {σ : Type} {one : Position → Outcome} {total : ℕ} {watch : Watcher σ}
  {positions : List Position}

/-! ### Whole tasks -/

/-- The schedule in which the tasks take all of their steps one after the other. -/
def wholeTasks (order : List ℕ) : List ℕ :=
  order.flatMap (List.replicate 3)

/-- The dispatch shows what the tasks have yielded, and the tasks of an order are waiting. -/
structure Mirrors (positions : List Position) (order : List ℕ) (d : Dispatch σ) (t : Tasks σ) :
    Prop where
  outcomes : d.outcomes = t.outcomes
  done : d.done = t.counter
  stopped : d.stopped = t.stopped
  memory : d.memory = t.memory
  waiting : ∀ place ∈ order, t.stages[place]? = positions[place]?.map .waiting

variable (positions) in
theorem mirrors_start (order : List ℕ) (stopped : Bool) (memory : σ) :
    Mirrors positions order ⟨positions.map fun _ => none, 0, stopped, memory⟩
      (.start positions stopped memory) where
  outcomes := by
    rw [Tasks.outcomes, Tasks.start, List.map_map]
    rfl
  done := rfl
  stopped := rfl
  memory := rfl
  waiting place _ := List.getElem?_map

section
variable {t : Tasks σ} {place : ℕ} {p : Position}

/-- A task that takes all of its steps tells the watcher of its outcome under the next number. -/
theorem foldl_advance_going (hs : t.stages[place]? = some (.waiting p))
    (hgoing : t.stopped = false) :
    (List.replicate 3 place).foldl (Tasks.advance one total watch) t =
      { stages := t.stages.set place (.told (one p))
        counter := t.counter + 1
        stopped := (watch t.memory ⟨t.counter + 1, total, one p⟩).2
        memory := (watch t.memory ⟨t.counter + 1, total, one p⟩).1
        calls := t.calls ++ [(place, ⟨t.counter + 1, total, one p⟩)] } := by
  obtain ⟨hplace, -⟩ := List.getElem?_eq_some_iff.mp hs
  rw [List.replicate_succ, List.foldl_cons, Tasks.advance_waiting hs, hgoing,
    if_neg Bool.false_ne_true, List.replicate_succ, List.foldl_cons,
    Tasks.advance_simulated (List.getElem?_set_self hplace), List.replicate_one, List.foldl_cons,
    Tasks.advance_counted (List.getElem?_set_self (by rwa [List.length_set])), List.foldl_nil,
    List.set_set, List.set_set]
  rfl

/-- A task that has no step left stays as it is. -/
theorem foldl_advance_of_eq (h : t.advance one total watch place = t) (n : ℕ) :
    (List.replicate n place).foldl (Tasks.advance one total watch) t = t := by
  induction n with
  | zero => rfl
  | succ n ih => rw [List.replicate_succ, List.foldl_cons, h, ih]

/-- A task of a batch that was stopped is skipped. -/
theorem foldl_advance_stopped (hs : t.stages[place]? = some (.waiting p))
    (hstopped : t.stopped = true) :
    (List.replicate 3 place).foldl (Tasks.advance one total watch) t =
      { t with stages := t.stages.set place .skipped } := by
  obtain ⟨hplace, -⟩ := List.getElem?_eq_some_iff.mp hs
  have hskipped : (t.stages.set place .skipped)[place]? = some .skipped :=
    List.getElem?_set_self hplace
  rw [List.replicate_succ, List.foldl_cons, Tasks.advance_waiting hs, if_pos hstopped]
  exact foldl_advance_of_eq (Tasks.advance_skipped hskipped) 2

end

section
variable {d : Dispatch σ} {place : ℕ}

theorem complete_going (hgoing : d.stopped = false) {p : Position}
    (hp : positions[place]? = some p) :
    d.complete one total watch positions place =
      ⟨d.outcomes.set place (some (one p)), d.done + 1,
        (watch d.memory ⟨d.done + 1, total, one p⟩).2,
        (watch d.memory ⟨d.done + 1, total, one p⟩).1⟩ := by
  rw [Dispatch.complete, hgoing, hp]

theorem complete_stopped (hstopped : d.stopped = true) :
    d.complete one total watch positions place = d := by
  rw [Dispatch.complete, hstopped]

theorem complete_none (hp : positions[place]? = none) :
    d.complete one total watch positions place = d := by
  rw [Dispatch.complete, hp]
  cases d.stopped <;> rfl

end

/-- **A simulation that completes is a task that takes all of its steps.** -/
theorem Mirrors.complete {d : Dispatch σ} {t : Tasks σ} {place : ℕ} {order : List ℕ}
    (h : Mirrors positions (place :: order) d t) (hplace : place ∉ order) :
    Mirrors positions order (d.complete one total watch positions place)
      ((List.replicate 3 place).foldl (Tasks.advance one total watch) t) := by
  have hs := h.waiting place List.mem_cons_self
  have hrest : ∀ s', ∀ i ∈ order, (t.stages.set place s')[i]? = positions[i]?.map .waiting := by
    intro s' i hi
    rw [List.getElem?_set_ne (ne_of_mem_of_not_mem hi hplace).symm]
    exact h.waiting i (List.mem_cons_of_mem _ hi)
  cases hp : positions[place]? with
  | none =>
    rw [hp, Option.map_none] at hs
    rw [complete_none hp, foldl_advance_of_eq (Tasks.advance_of_none hs) 3]
    exact { h with waiting := fun i hi => h.waiting i (List.mem_cons_of_mem _ hi) }
  | some p =>
    rw [hp, Option.map_some] at hs
    cases hstopped : d.stopped with
    | true =>
      rw [complete_stopped hstopped, foldl_advance_stopped hs (h.stopped ▸ hstopped)]
      exact
        { outcomes := by
            -- the place of a task that is skipped stays empty
            have hempty : (t.stages.map Stage.outcome?)[place]? = some none := by
              rw [List.getElem?_map, hs]
              rfl
            obtain ⟨_, heq⟩ := List.getElem?_eq_some_iff.mp hempty
            rw [h.outcomes, Tasks.outcomes, Tasks.outcomes, List.map_set]
            show _ = (t.stages.map Stage.outcome?).set place none
            rw [← heq, List.set_getElem_self]
          done := h.done
          stopped := h.stopped
          memory := h.memory
          waiting := hrest _ }
    | false =>
      rw [complete_going hstopped hp, foldl_advance_going hs (h.stopped ▸ hstopped), h.done,
        h.memory]
      exact
        { outcomes := by
            rw [h.outcomes, Tasks.outcomes, Tasks.outcomes, List.map_set]
            rfl
          done := rfl
          stopped := rfl
          memory := rfl
          waiting := hrest _ }

variable (one total watch) in
theorem Mirrors.foldl_complete {d : Dispatch σ} {t : Tasks σ} {order : List ℕ}
    (h : Mirrors positions order d t) (horder : order.Nodup) :
    Mirrors positions [] (order.foldl (Dispatch.complete one total watch positions) d)
      ((wholeTasks order).foldl (Tasks.advance one total watch) t) := by
  induction order generalizing d t with
  | nil => exact h
  | cons place order ih =>
    obtain ⟨hplace, hrest⟩ := List.nodup_cons.mp horder
    rw [wholeTasks, List.flatMap_cons, List.foldl_append, List.foldl_cons]
    exact ih (h.complete hplace) hrest

/-- **Simulations that complete in a given order are tasks that take all of their steps in this
order.** -/
theorem sideBySide_eq_interleave {order : List ℕ} (horder : order.Nodup) (stopped : Bool)
    (memory : σ) :
    sideBySide one total watch order stopped memory positions =
      ((interleave one total watch (wholeTasks order) stopped memory positions).outcomes,
        (interleave one total watch (wholeTasks order) stopped memory positions).memory) := by
  have hmirrors := (mirrors_start positions order stopped memory).foldl_complete one total watch
    horder
  exact Prod.ext hmirrors.outcomes hmirrors.memory

/-! ### In sequence -/

variable (one total watch) in
/-- The positions behind those that are done with are simulated in sequence. -/
theorem foldl_complete_range' {rest before : List Position}
    (hpositions : positions = before ++ rest) (outcomes : List (Option Outcome))
    (hlength : outcomes.length = before.length) (done : ℕ) (stopped : Bool) (memory : σ) :
    ∃ done' stopped', (List.range' before.length rest.length).foldl
        (Dispatch.complete one total watch positions)
        ⟨outcomes ++ rest.map fun _ => none, done, stopped, memory⟩ =
      ⟨outcomes ++ (inSequence one total watch stopped done memory rest).1, done', stopped',
        (inSequence one total watch stopped done memory rest).2⟩ := by
  induction rest generalizing before outcomes done stopped memory with
  | nil =>
    refine ⟨done, stopped, ?_⟩
    cases stopped with
    | true => rfl
    | false => rfl
  | cons p rest ih =>
    have hp : positions[before.length]? = some p := by
      rw [hpositions, List.getElem?_append_right le_rfl, Nat.sub_self]
      rfl
    have hshift : positions = (before ++ [p]) ++ rest := by
      rw [hpositions, List.append_assoc, List.singleton_append]
    have hnext : ∀ (o : Option Outcome) (done : ℕ) (stopped : Bool) (memory : σ),
        ∃ done' stopped', (List.range' (before.length + 1) rest.length).foldl
            (Dispatch.complete one total watch positions)
            ⟨outcomes ++ o :: rest.map fun _ => none, done, stopped, memory⟩ =
          ⟨outcomes ++ o :: (inSequence one total watch stopped done memory rest).1, done',
            stopped', (inSequence one total watch stopped done memory rest).2⟩ := by
      intro o done stopped memory
      have hrest := ih hshift (outcomes ++ [o]) (by simp [hlength]) done stopped memory
      rwa [List.length_append, List.length_singleton, List.append_assoc, List.singleton_append,
        List.append_assoc, List.singleton_append] at hrest
    rw [List.length_cons, List.range'_succ, List.foldl_cons, List.map_cons]
    cases stopped with
    | true =>
      rw [complete_stopped rfl]
      exact hnext none done true memory
    | false =>
      rw [complete_going rfl hp, inSequence_cons]
      dsimp only
      rw [← hlength, List.set_append_right _ _ le_rfl, Nat.sub_self, hlength]
      exact hnext (some (one p)) _ _ _

/-- **Simulations that run one after the other complete in the order of their positions.** -/
theorem inSequence_eq_sideBySide (stopped : Bool) (memory : σ) :
    inSequence one total watch stopped 0 memory positions =
      sideBySide one total watch (List.range positions.length) stopped memory positions := by
  obtain ⟨done, stopped', hrun⟩ := foldl_complete_range' one total watch
    (List.nil_append positions).symm [] rfl 0 stopped memory
  rw [List.length_nil, List.nil_append, List.nil_append, ← List.range_eq_range'] at hrun
  rw [sideBySide, hrun]

/-- A schedule of whole tasks has all steps of its tasks. -/
theorem le_count_wholeTasks {order : List ℕ} {place : ℕ} (h : place ∈ order) :
    3 ≤ (wholeTasks order).count place := by
  obtain ⟨before, after, rfl⟩ := List.append_of_mem h
  rw [wholeTasks, List.flatMap_append, List.flatMap_cons, List.count_append, List.count_append,
    List.count_replicate_self]
  omega

end

/-! ### Whole batches -/

/-- The order in which the simulations of a batch complete: that of dispatch, or that of the
positions. -/
def completionOrder (settings : Settings) (positions : List Position) (order : List ℕ) : List ℕ :=
  if settings.parallel then order else List.range positions.length

/-- In either mode, simulations complete in an order. -/
theorem outcomes_eq_sideBySide {σ : Type} (settings : Settings) (series : List Bar)
    (positions : List Position) (order : List ℕ) (stopped : Bool) (watch : Watcher σ) (memory : σ) :
    outcomes settings series positions order stopped watch memory =
      sideBySide (fun p => simulate series p ⟨settings.costRate⟩) positions.length watch
        (completionOrder settings positions order) stopped memory positions := by
  unfold outcomes completionOrder
  split
  · rfl
  · exact inSequence_eq_sideBySide stopped memory

/-- The report of a batch in which every position was simulated. -/
theorem report_all (positions : List Position) (one : Position → Outcome) :
    report (positions.map fun p => some (one p)) = .ofOutcomes (positions.map one) 0 := by
  have h := report_prefix positions [] one
  rwa [List.map_nil, List.append_nil] at h

/-- **The order of dispatch does not matter.**  Whether a batch that is not stopped runs in sequence
or side by side, in whichever order its simulations complete and even if the steps of their tasks
interleave, it yields the outcomes of all positions in their order and skips none, and its watcher
is told of each position once. -/
theorem run_of_orders {σ : Type} {settings : Settings} (hsound : settings.fault? = none)
    {series : List Bar} (hseries : Series.Ascending series) {positions : List Position}
    {order : List ℕ} (horder : order.Perm (List.range positions.length)) {schedule : List ℕ}
    (hschedule : ∀ place < positions.length, 3 ≤ schedule.count place) {watch : Watcher σ}
    (hwatch : ∀ memory p, (watch memory p).2 = false) (memory : σ) :
    let one := fun p => simulate series p ⟨settings.costRate⟩
    let all := Report.ofOutcomes (positions.map one) 0
    let tasks := interleave one positions.length watch schedule false memory positions
    all.outcomes = positions.map one ∧ all.skipped = 0 ∧
    (∀ parallel, ∃ calls, TellsAll one positions calls ∧
      run { settings with parallel } series positions order false watch.recorded (memory, []) =
        (.ok all, watch.hear memory (calls.map Prod.snd), calls.map Prod.snd)) ∧
    report tasks.outcomes = all ∧ TellsAll one positions tasks.calls ∧
      tasks.memory = watch.hear memory (tasks.calls.map Prod.snd) := by
  intro one all tasks
  refine ⟨rfl, rfl, fun parallel => ?_, ?_⟩
  · have hcompletion : (completionOrder { settings with parallel } positions order).Perm
        (List.range positions.length) := by
      unfold completionOrder
      split
      · exact horder
      · exact .refl _
    have hnodup := hcompletion.nodup_iff.mpr List.nodup_range
    have hsteps : ∀ place < positions.length,
        3 ≤ (wholeTasks (completionOrder { settings with parallel } positions order)).count place :=
      fun place hplace => le_count_wholeTasks (hcompletion.mem_iff.mpr (List.mem_range.mpr hplace))
    obtain ⟨houtcomes, htells, hmemory⟩ := outcomes_interleave one (memory, []) hsteps
      (show ∀ state p, (watch.recorded state p).2 = false from fun state p => hwatch state.1 p)
    refine ⟨_, htells, ?_⟩
    have hsound' : Settings.fault? { settings with parallel } = none := hsound
    rw [run_of_sound hsound' hseries, outcomes_eq_sideBySide, sideBySide_eq_interleave hnodup,
      houtcomes, hmemory, report_all, Watcher.hear_recorded]
    rfl
  · obtain ⟨houtcomes, htells, hmemory⟩ :=
      outcomes_interleave one memory hschedule hwatch
    exact ⟨houtcomes ▸ report_all positions one, htells, hmemory⟩

/-- Settings under which two simulations run side by side. -/
def twoThreads : Settings where
  costRate := 0.0004
  threads := some 2

/-- A watcher that counts the completions it is told of. -/
def patient : Watcher ℕ := fun count _ => (count + 1, false)

/-- Two orders, one a number for a limit order and the other for a market order, and
the first again. -/
def repeatedPositions : List Position :=
  [reversalPosition, reversalPosition.withLimitEntry false, reversalPosition]

/-- Tasks that all take their first steps before any of them takes its last one, the later ones
first. -/
def crossedSchedule : List ℕ :=
  [0, 1, 2, 0, 1, 2, 2, 1, 0]

theorem run_of_orders_of_crossed :
    twoThreads.fault? = none ∧ Series.Ascending reversal ∧
      [2, 0, 1].Perm (List.range repeatedPositions.length) ∧
      (∀ place < repeatedPositions.length, 3 ≤ crossedSchedule.count place) ∧
      (∀ memory p, (patient memory p).2 = false) ∧
      let one := fun p => simulate reversal p ⟨0.0004⟩
      let all := Report.ofOutcomes (repeatedPositions.map one) 0
      let tasks := interleave one 3 patient crossedSchedule false 0 repeatedPositions
      all.outcomes = repeatedPositions.map one ∧ all.skipped = 0 ∧
        (run twoThreads reversal repeatedPositions [2, 0, 1] false patient.recorded (0, [])).1 =
          .ok all ∧
        report tasks.outcomes = all ∧
        tasks.calls.map (fun call => call.2.done) = [3, 2, 1] ∧
        TellsAll one repeatedPositions tasks.calls := by
  have hsound : twoThreads.fault? = none := by decide +kernel
  have hseries : Series.Ascending reversal := by decide
  have horder : [2, 0, 1].Perm (List.range repeatedPositions.length) := by decide
  have hschedule : ∀ place < repeatedPositions.length, 3 ≤ crossedSchedule.count place := by decide
  have hwatch : ∀ memory p, (patient memory p).2 = false := fun _ _ => rfl
  obtain ⟨houtcomes, hskipped, hrun, hreport, htells, -⟩ :=
    run_of_orders hsound hseries horder hschedule hwatch 0
  obtain ⟨calls, -, hparallel⟩ := hrun true
  exact ⟨hsound, hseries, horder, hschedule, hwatch, houtcomes, hskipped,
    congrArg Prod.fst hparallel, hreport, rfl, htells⟩

end Batch
end TripleBarrier
