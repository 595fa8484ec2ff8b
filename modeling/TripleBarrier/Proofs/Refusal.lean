import Mathlib.Order.Bounds.Basic
import TripleBarrier.Proofs.Stopping

/-!
# Series that a batch refuses

A batch runs over series whose times ascend.  Neighbouring bars are compared and nothing else, but
the first bar that does not come after its neighbour is where the series stops ascending, so a
series is refused exactly when some bar, near or far, comes no later than one before it.

That a refused batch has done nothing can not be seen from its result, since simulations leave no
trace there.  So the batch is also given as a program in which simulating and telling are steps that
may do anything at all: with simulations that do nothing but give their outcomes, and a watcher that
keeps its memory, it is the batch that runs, and for a refused series it is no more than its error.

## Main definitions

* `Series.BreaksAt` — the bars before a place ascend, and with the bar in that place they do not.
* `Watcher.tell` — being told, as a step that changes a memory.
* `Batch.perform` — a batch whose simulations and calls of the watcher are steps of some kind.

## Main results

* `Series.firstUnordered?_eq_some_iff` — the bar that is reported is where the series
  stops ascending.
* `Batch.run_eq_perform` — what a batch does with steps of the usual kind.
* `Batch.run_refuses` — **a batch refuses exactly the series that do not ascend, and before
  it has done anything.**
-/

namespace TripleBarrier

/-! ### Where a series stops ascending -/

namespace Series

/-- The bars before a place ascend, and those through it do not. -/
def BreaksAt (series : List Bar) (place : ℕ) : Prop :=
  Ascending (series.take place) ∧ ¬Ascending (series.take (place + 1))

theorem ascending_singleton (b : Bar) : Ascending [b] :=
  List.pairwise_singleton _ b

/-- The first bars of an ascending series ascend. -/
theorem Ascending.take {series : List Bar} (h : Ascending series) (n : ℕ) :
    Ascending (series.take n) :=
  h.sublist (List.take_sublist n series)

/-- A series stops ascending in one place only: from there on it does not ascend. -/
theorem BreaksAt.unique {series : List Bar} {i j : ℕ} (hi : BreaksAt series i)
    (hj : BreaksAt series j) : i = j := by
  have hle : ∀ {i j : ℕ}, BreaksAt series i → BreaksAt series j → j ≤ i := by
    intro i j hi hj
    by_contra! hlt
    have htake := hj.1.take (i + 1)
    rw [List.take_take, Nat.min_eq_left hlt] at htake
    exact hi.2 htake
  exact Nat.le_antisymm (hle hj hi) (hle hi hj)

/-- The bar that is reported is one at which the series stops ascending. -/
theorem breaksAt_of_firstUnordered? {series : List Bar} {index : ℕ}
    (h : firstUnordered? series = some index) : BreaksAt series index := by
  induction series generalizing index with
  | nil => exact nomatch h
  | cons a rest ih =>
    cases rest with
    | nil => exact nomatch h
    | cons b rest =>
      rw [firstUnordered?] at h
      split at h
      · next hle =>
        obtain rfl := Option.some.inj h
        refine ⟨ascending_singleton a, fun hasc => ?_⟩
        exact absurd (ascending_cons_cons.mp hasc).1 (Int64.not_lt.mpr hle)
      · next hlt =>
        obtain ⟨i, hi, rfl⟩ := Option.map_eq_some_iff.mp h
        obtain ⟨hbefore, hthrough⟩ := ih hi
        -- the bar is not the first one of the rest, so the rest before it begins with `b`
        cases i with
        | zero => exact absurd (ascending_singleton b) hthrough
        | succ i =>
          refine ⟨ascending_cons_cons.mpr ⟨Int64.not_le.mp hlt, hbefore⟩, fun hasc => ?_⟩
          exact hthrough (ascending_cons_cons.mp hasc).2

/-- **The bar that is reported is where the series stops ascending.** -/
theorem firstUnordered?_eq_some_iff {series : List Bar} {index : ℕ} :
    firstUnordered? series = some index ↔ BreaksAt series index := by
  refine ⟨breaksAt_of_firstUnordered?, fun h => ?_⟩
  cases hfirst : firstUnordered? series with
  | none => exact absurd ((firstUnordered?_eq_none_iff.mp hfirst).take (index + 1)) h.2
  | some found => rw [(breaksAt_of_firstUnordered? hfirst).unique h]

/-- A series does not ascend exactly when some bar comes no later than one before it. -/
theorem not_ascending_iff {series : List Bar} :
    ¬Ascending series ↔ ∃ i j, ∃ (_ : i < j) (_ : j < series.length),
      series[j].time ≤ series[i].time := by
  unfold Ascending
  rw [List.pairwise_iff_getElem]
  constructor
  · intro h
    by_contra hnone
    refine h fun i j _ hj hij => Int64.not_le.mp fun hle => ?_
    exact hnone ⟨i, j, hij, hj, hle⟩
  · rintro ⟨i, j, hij, hj, hle⟩ hasc
    exact absurd (hasc i j _ hj hij) (Int64.not_lt.mpr hle)

end Series

/-! ### A batch made of steps -/

/-- Being told, as a step that changes the memory of a watcher. -/
def Watcher.tell {σ : Type} (watch : Watcher σ) (p : Progress) : StateM σ Bool := fun memory =>
  ((watch memory p).2, (watch memory p).1)

namespace Batch

section
variable {m : Type → Type} [Monad m] (one : Position → m Outcome) (total : ℕ)
  (tell : Progress → m Bool)

/-- Simulations one after the other, as `inSequence` has them. -/
def performInSequence : (stopped : Bool) → (done : ℕ) → List Position → m (List (Option Outcome))
  | _, _, [] => return []
  | true, done, _ :: rest => do
    let outcomes ← performInSequence true done rest
    return none :: outcomes
  | false, done, p :: rest => do
    let outcome ← one p
    let stop ← tell ⟨done + 1, total, outcome⟩
    let outcomes ← performInSequence stop (done + 1) rest
    return some outcome :: outcomes

/-- A batch whose simulations run side by side, but for the memory of the watcher. -/
structure Board where
  outcomes : List (Option Outcome)
  done : ℕ
  stopped : Bool

/-- The simulation of the position in one place, as `Dispatch.complete` has it. -/
def Board.complete (positions : List Position) (b : Board) (place : ℕ) : m Board :=
  match b.stopped, positions[place]? with
  | false, some p => do
    let outcome ← one p
    let stop ← tell ⟨b.done + 1, total, outcome⟩
    return ⟨b.outcomes.set place (some outcome), b.done + 1, stop⟩
  | _, _ => return b

/-- Simulations that complete in a given order, as `sideBySide` has them. -/
def performSideBySide (order : List ℕ) (stopped : Bool) (positions : List Position) :
    m (List (Option Outcome)) := do
  let last ← order.foldlM (Board.complete one total tell positions)
    ⟨positions.map fun _ => none, 0, stopped⟩
  return last.outcomes

/-- A whole batch whose simulations and calls of the watcher are steps that may do anything. -/
def perform (settings : Settings) (series : List Bar) (positions : List Position) (order : List ℕ)
    (stopped : Bool) : m (Except Error Report) :=
  match settings.fault?, Series.firstUnordered? series with
  | some fault, _ => return .error (.settings fault)
  | none, some index => return .error (.unordered index)
  | none, none => do
    let outcomes ← if settings.parallel then
        performSideBySide one positions.length tell order stopped positions
      else performInSequence one positions.length tell stopped 0 positions
    return .ok (report outcomes)

end

section
variable {σ : Type} (one : Position → Outcome) (total : ℕ) (watch : Watcher σ)

/-- Steps that simulate and do nothing else, and a watcher with its memory, make up `inSequence`. -/
theorem performInSequence_pure (stopped : Bool) (done : ℕ) (positions : List Position)
    (memory : σ) :
    (performInSequence (fun p => pure (one p)) total watch.tell stopped done positions).run memory =
      inSequence one total watch stopped done memory positions := by
  induction positions generalizing stopped done memory with
  | nil => cases stopped <;> rfl
  | cons p rest ih =>
    cases stopped with
    | true =>
      rw [performInSequence, StateT.run_bind, ih]
      rfl
    | false =>
      rw [performInSequence, pure_bind, StateT.run_bind]
      show ((performInSequence (fun p => pure (one p)) total watch.tell
        (watch memory ⟨done + 1, total, one p⟩).2 (done + 1) rest) >>= _).run
          (watch memory ⟨done + 1, total, one p⟩).1 = _
      rw [StateT.run_bind, ih]
      rfl

/-- What a step of a batch leaves behind, and what the watcher remembers. -/
def Dispatch.board (d : Dispatch σ) : Board × σ :=
  (⟨d.outcomes, d.done, d.stopped⟩, d.memory)

theorem complete_pure (positions : List Position) (d : Dispatch σ) (place : ℕ) :
    (Board.complete (fun p => pure (one p)) total watch.tell positions d.board.1 place).run
        d.board.2 =
      (d.complete one total watch positions place).board := by
  obtain ⟨outcomes, done, stopped, memory⟩ := d
  unfold Board.complete Dispatch.complete Dispatch.board
  cases positions[place]? with
  | none => cases stopped <;> rfl
  | some p => cases stopped <;> rfl

/-- The same for simulations that complete in a given order. -/
theorem performSideBySide_pure (order : List ℕ) (stopped : Bool) (positions : List Position)
    (memory : σ) :
    (performSideBySide (fun p => pure (one p)) total watch.tell order stopped positions).run
        memory =
      sideBySide one total watch order stopped memory positions := by
  have hfold : ∀ d : Dispatch σ,
      (order.foldlM (Board.complete (fun p => pure (one p)) total watch.tell positions)
          d.board.1).run d.board.2 =
        (order.foldl (Dispatch.complete one total watch positions) d).board := by
    induction order with
    | nil => exact fun d => rfl
    | cons place order ih =>
      intro d
      rw [List.foldlM_cons, StateT.run_bind, complete_pure, List.foldl_cons]
      exact ih _
  unfold performSideBySide sideBySide
  rw [StateT.run_bind]
  exact congrArg (fun last => (last.1.outcomes, last.2)) (hfold ⟨_, 0, stopped, memory⟩)

end

section
variable {σ : Type} (settings : Settings) (series : List Bar) (positions : List Position)
  (order : List ℕ) (stopped : Bool) (watch : Watcher σ) (memory : σ)

/-- **A batch is one whose simulations do nothing but give their outcomes**, and whose
watcher keeps its memory. -/
theorem run_eq_perform : run settings series positions order stopped watch memory =
    (perform (fun p => pure (simulate series p ⟨settings.costRate⟩)) watch.tell settings series
      positions order stopped).run memory := by
  unfold run perform
  cases settings.fault? with
  | some fault => rfl
  | none =>
    cases Series.firstUnordered? series with
    | some index => rfl
    | none =>
      dsimp only
      unfold outcomes
      split
      · rw [StateT.run_bind, performSideBySide_pure]
        rfl
      · rw [StateT.run_bind, performInSequence_pure]
        rfl

end

/-! ### Refusal -/

/-- A batch with sound settings over a series that stops ascending is refused there. -/
theorem run_of_breaksAt {σ : Type} {settings : Settings} (hsound : settings.fault? = none)
    {series : List Bar} {index : ℕ} (hbreaks : Series.BreaksAt series index)
    (positions : List Position) (order : List ℕ) (stopped : Bool) (watch : Watcher σ) (memory : σ) :
    run settings series positions order stopped watch memory =
      (.error (.unordered index), memory) := by
  unfold run
  rw [hsound, Series.firstUnordered?_eq_some_iff.mpr hbreaks]

/-- Whatever its steps would do, a refused batch takes none. -/
theorem perform_of_breaksAt {settings : Settings} (hsound : settings.fault? = none)
    {series : List Bar} {index : ℕ} (hbreaks : Series.BreaksAt series index)
    {m : Type → Type} [Monad m] (one : Position → m Outcome) (tell : Progress → m Bool)
    (positions : List Position) (order : List ℕ) (stopped : Bool) :
    perform one tell settings series positions order stopped =
      pure (.error (.unordered index)) := by
  unfold perform
  rw [hsound, Series.firstUnordered?_eq_some_iff.mpr hbreaks]

/-- The error of a batch with sound settings tells where the series stops ascending. -/
theorem run_eq_unordered_iff {σ : Type} {settings : Settings} (hsound : settings.fault? = none)
    {series : List Bar} {index : ℕ} (positions : List Position) (order : List ℕ) (stopped : Bool)
    (watch : Watcher σ) (memory : σ) :
    (run settings series positions order stopped watch memory).1 = .error (.unordered index) ↔
      Series.BreaksAt series index := by
  constructor
  · intro h
    cases hfirst : Series.firstUnordered? series with
    | none =>
      rw [run_of_sound hsound (Series.firstUnordered?_eq_none_iff.mp hfirst)] at h
      exact nomatch h
    | some found =>
      have hbreaks := Series.firstUnordered?_eq_some_iff.mp hfirst
      rw [run_of_breaksAt hsound hbreaks] at h
      obtain rfl := Error.unordered.inj (Except.error.inj h)
      exact hbreaks
  · intro h
    rw [run_of_breaksAt hsound h]

/-- **A batch refuses exactly the series in which some bar comes no later than one before it**, at
the least place with which the bars stop ascending.  It does so before anything else: whatever
simulations and calls of the watcher would do, none is made, even if the batch is to stop or has no
positions.  Every other batch runs. -/
theorem run_refuses {σ : Type} {settings : Settings} (hsound : settings.fault? = none)
    (series : List Bar) (positions : List Position) (order : List ℕ) (stopped : Bool)
    (watch : Watcher σ) (memory : σ) :
    let result := run settings series positions order stopped watch memory
    ((∃ index, result.1 = .error (.unordered index)) ↔
      ∃ i j, ∃ (_ : i < j) (_ : j < series.length), series[j].time ≤ series[i].time) ∧
    (∀ index, result.1 = .error (.unordered index) ↔
      IsLeast {place | Series.Ascending (series.take place) ∧
        ¬Series.Ascending (series.take (place + 1))} index) ∧
    (∀ index, result.1 = .error (.unordered index) → result.2 = memory ∧
      ∀ (m : Type → Type) [Monad m] (one : Position → m Outcome) (tell : Progress → m Bool),
        perform one tell settings series positions order stopped =
          pure (.error (.unordered index))) ∧
    ((¬∃ index, result.1 = .error (.unordered index)) → ∃ r, result.1 = .ok r) ∧
    result = (perform (fun p => pure (simulate series p ⟨settings.costRate⟩)) watch.tell settings
      series positions order stopped).run memory := by
  intro result
  have herror : ∀ index, result.1 = .error (.unordered index) ↔ Series.BreaksAt series index :=
    fun index => run_eq_unordered_iff hsound positions order stopped watch memory
  have hexists : (∃ index, result.1 = .error (.unordered index)) ↔ ¬Series.Ascending series := by
    simp only [herror]
    constructor
    · rintro ⟨index, hbreaks⟩ hasc
      exact hbreaks.2 (hasc.take (index + 1))
    · intro hnot
      cases hfirst : Series.firstUnordered? series with
      | none => exact absurd (Series.firstUnordered?_eq_none_iff.mp hfirst) hnot
      | some index => exact ⟨index, Series.firstUnordered?_eq_some_iff.mp hfirst⟩
  refine ⟨hexists.trans Series.not_ascending_iff, fun index => ?_, fun index h => ?_, fun h => ?_,
    run_eq_perform settings series positions order stopped watch memory⟩
  · rw [herror]
    constructor
    · intro hbreaks
      exact ⟨hbreaks, fun place hplace => (hbreaks.unique hplace).le⟩
    · exact And.left
  · have hbreaks := (herror index).mp h
    refine ⟨?_, fun m _ one tell =>
      perform_of_breaksAt hsound hbreaks one tell positions order stopped⟩
    exact congrArg Prod.snd (run_of_breaksAt hsound hbreaks positions order stopped watch memory)
  · rw [hexists, not_not] at h
    exact ⟨_, congrArg Prod.fst (run_of_sound hsound h positions order stopped watch memory)⟩

/-- Bars of which the third one comes with the second, and the fourth one before both. -/
def relapse : List Bar :=
  [⟨0, 100.0, 101.0, 99.0, 100.0⟩, ⟨60, 100.0, 102.0, 100.0, 101.0⟩,
    ⟨60, 101.0, 102.0, 100.0, 101.0⟩, ⟨30, 101.0, 101.5, 100.5, 101.0⟩]

/-- They are refused at the third one, be there a position to simulate or a batch that was stopped
before it began. -/
theorem run_refuses_relapse :
    inTurn.fault? = none ∧
      ((∃ i j, ∃ (_ : i < j) (_ : j < relapse.length), relapse[j].time ≤ relapse[i].time) ∧
        (run inTurn relapse [reversalPosition] [] false impatient 0).1 = .error (.unordered 2) ∧
        (run inTurn relapse [reversalPosition] [] false impatient 0).2 = 0 ∧
        ∀ (m : Type → Type) [Monad m] (one : Position → m Outcome) (tell : Progress → m Bool),
          perform one tell inTurn relapse [reversalPosition] [] false =
            pure (.error (.unordered 2))) ∧
      (run inTurn relapse [] [] true impatient 0).1 = .error (.unordered 2) ∧
      IsLeast {place | Series.Ascending (relapse.take place) ∧
        ¬Series.Ascending (relapse.take (place + 1))} 2 := by
  have hsound : inTurn.fault? = none := by decide +kernel
  obtain ⟨hpair, -, hnothing, -⟩ :=
    run_refuses hsound relapse [reversalPosition] [] false impatient 0
  obtain ⟨-, hplace, -⟩ := run_refuses hsound relapse [] [] true impatient 0
  have hrefused : (run inTurn relapse [reversalPosition] [] false impatient 0).1
      = .error (.unordered 2) := by rfl
  have hstopped : (run inTurn relapse [] [] true impatient 0).1 = .error (.unordered 2) := by rfl
  obtain ⟨hmemory, hsteps⟩ := hnothing 2 hrefused
  exact ⟨hsound, ⟨hpair.mp ⟨2, hrefused⟩, hrefused, hmemory, hsteps⟩, hstopped,
    (hplace 2).mp hstopped⟩

end Batch
end TripleBarrier
