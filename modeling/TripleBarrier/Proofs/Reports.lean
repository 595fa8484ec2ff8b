import Mathlib
import TripleBarrier.Proofs.Dispatch
import TripleBarrier.Proofs.Lookup
import TripleBarrier.Proofs.Tallies
import TripleBarrier.Proofs.ValueTexts

/-!
# Reports of batches

However the simulations of a batch run and whenever it is stopped, its slots keep to its positions:
each of them is empty, or has the outcome of its own position.  So nothing is lost on the way to
the report.  The outcomes are those of the positions that were completed, the index leads to the
first outcome with a fingerprint, and the tally counts all of them.  A position that is repeated is
looked up under one fingerprint, which leads to the outcome of a position with the same text, and
this is the same position.

## Main definitions

* `Report.IsAddressable` — what the index of a report leads to.
* `Position.ToldApart` — positions with one fingerprint have one text.
* `Batch.FitSlots` — slots keep to the positions of a batch.
* `Report.Accounts` — a report accounts for the positions of a batch.

## Main results

* `Batch.FitSlots.complete` — a simulation that completes keeps the slots to their positions.
* `Batch.FitSlots.accounts` — the report of such slots accounts for the positions.
* `Batch.accounts_of_run` — **every batch that runs, stopped or not, is accounted for.**
-/

namespace TripleBarrier

/-! ### Looking up -/

namespace Report

/-- Every place that is stored is one of an outcome, and what is found under a fingerprint is the
first outcome whose position has it. -/
structure IsAddressable (r : Report) : Prop where
  place_lt : ∀ f place, r.place? f = some place → place < r.outcomes.length
  get?_eq_none_iff : ∀ f, r.get? f = none ↔ ∀ o ∈ r.outcomes, o.position.fingerprint ≠ f
  get?_eq_some_iff : ∀ f o, r.get? f = some o ↔ o.position.fingerprint = f ∧
    ∃ before after, r.outcomes = before ++ o :: after ∧
      ∀ o' ∈ before, o'.position.fingerprint ≠ f

/-- **The index is right for any outcomes.** -/
theorem isAddressable_ofOutcomes (outcomes : List Outcome) (skipped : ℕ) :
    (ofOutcomes outcomes skipped).IsAddressable where
  place_lt f place h := by
    rw [place?_ofOutcomes] at h
    exact (List.findIdx?_eq_some_iff_findIdx_eq.mp h).1
  get?_eq_none_iff f := by
    rw [get?_ofOutcomes, List.find?_eq_none]
    simp only [beq_iff_eq]
    rfl
  get?_eq_some_iff f o := by
    rw [get?_ofOutcomes, List.find?_eq_some_iff_append]
    simp only [beq_iff_eq, Bool.not_eq_true', beq_eq_false_iff_ne]
    rfl

/-- The positions whose simulations completed. -/
def completed (r : Report) : List Position :=
  r.outcomes.map Outcome.position

end Report

/-- No two texts of the positions have one fingerprint. -/
def Position.ToldApart (positions : List Position) : Prop :=
  ∀ p ∈ positions, ∀ q ∈ positions, p.fingerprint = q.fingerprint →
    p.canonicalText = q.canonicalText

/-- The report accounts for positions, each of which has one outcome if it is simulated. -/
structure Report.Accounts (one : Position → Outcome) (positions : List Position) (r : Report) :
    Prop where
  completed_sublist : r.completed.Sublist positions
  outcomes_eq : r.outcomes = r.completed.map one
  completed_add_skipped : r.completed.length + r.skipped = positions.length
  isAddressable : r.IsAddressable
  get?_completed : Position.ToldApart positions →
    ∀ p ∈ r.completed, r.get? p.fingerprint = some (one p)
  isTallied : r.IsTallied

/-! ### Slots -/

namespace Batch

/-- Slots keep to positions: each is empty or has the outcome of its own position. -/
def FitSlots (one : Position → Outcome) (positions : List Position)
    (slots : List (Option Outcome)) : Prop :=
  List.Forall₂ (fun p slot => ∀ o ∈ slot, o = one p) positions slots

section
variable {one : Position → Outcome} {positions : List Position}

variable (one positions) in
theorem fitSlots_none : FitSlots one positions (positions.map fun _ => none) := by
  unfold FitSlots
  rw [List.forall₂_map_right_iff, List.forall₂_same]
  intro p _ o ho
  exact nomatch ho

section
variable {slots : List (Option Outcome)} (h : FitSlots one positions slots)
include h

/-- The outcomes in the slots are those of their positions. -/
theorem FitSlots.eq_one (hone : ∀ p, (one p).position = p) {o : Outcome}
    (ho : o ∈ slots.filterMap id) : o = one o.position := by
  obtain ⟨slot, hslot, hsome⟩ := List.mem_filterMap.mp ho
  obtain ⟨place, hplace⟩ := List.mem_iff_getElem?.mp hslot
  obtain ⟨p, -, hp⟩ := forall₂_getElem? h hplace
  obtain rfl := hp o hsome
  rw [hone]

/-- The positions whose slots are taken are in the order of all positions. -/
theorem FitSlots.sublist (hone : ∀ p, (one p).position = p) :
    ((slots.filterMap id).map Outcome.position).Sublist positions := by
  induction h with
  | nil => exact .slnil
  | @cons p slot positions slots hp hrest ih =>
    cases slot with
    | none => exact ih.cons p
    | some o =>
      obtain rfl := hp o rfl
      show ((one p).position :: _).Sublist (p :: positions)
      rw [hone]
      exact ih.cons_cons p

/-- Every position has a slot, which is taken or empty. -/
theorem FitSlots.length_add_countP :
    (slots.filterMap id).length + slots.countP Option.isNone = positions.length := by
  have hslots : (slots.filterMap id).length + slots.countP Option.isNone = slots.length := by
    clear h
    induction slots with
    | nil => rfl
    | cons slot slots ih =>
      cases slot with
      | none => simp [← ih, Nat.add_assoc]
      | some o => simp [← ih, Nat.add_right_comm]
  exact hslots.trans (List.Forall₂.length_eq h).symm

/-- **The report of slots that keep to their positions accounts for the positions.** -/
theorem FitSlots.accounts (hone : ∀ p, (one p).position = p) :
    (report slots).Accounts one positions := by
  have heq : ∀ o ∈ (report slots).outcomes, o = one o.position := fun o ho => h.eq_one hone ho
  have hsublist : (report slots).completed.Sublist positions := h.sublist hone
  exact
    { completed_sublist := hsublist
      outcomes_eq := by
        rw [Report.completed, List.map_map]
        exact (List.map_id _).symm.trans (List.map_congr_left heq)
      completed_add_skipped := by
        rw [Report.completed, List.length_map]
        exact h.length_add_countP
      isAddressable := Report.isAddressable_ofOutcomes _ _
      get?_completed := fun hapart p hp => by
        obtain ⟨o, ho, rfl⟩ := List.mem_map.mp hp
        obtain ⟨first, hfirst, hget, hprint⟩ :=
          Report.exists_get?_eq_some ho (slots.countP Option.isNone)
        -- the outcome that is found is one of the same position
        have hmem : first.position ∈ (report slots).completed := List.mem_map_of_mem hfirst
        have hposition : first.position = o.position :=
          Position.eq_of_canonicalText_eq
            (hapart _ (hsublist.subset hmem) _ (hsublist.subset hp) hprint)
        rw [← hposition, ← heq first hfirst, hposition]
        exact hget
      isTallied := (report slots).isTallied }

end

/-! ### Batches under way -/

section
variable {σ : Type} {total : ℕ} {watch : Watcher σ}

/-- **A simulation that completes keeps the slots to their positions**, also if it
was run before. -/
theorem FitSlots.complete {d : Dispatch σ} (h : FitSlots one positions d.outcomes) (place : ℕ) :
    FitSlots one positions (d.complete one total watch positions place).outcomes := by
  unfold Dispatch.complete
  split
  · next p _ hp =>
    refine forall₂_set h fun q hq o ho => ?_
    cases Option.some.inj (hp.symm.trans hq)
    exact (Option.some.inj ho).symm
  · exact h

theorem FitSlots.foldl_complete {d : Dispatch σ} (h : FitSlots one positions d.outcomes)
    (order : List ℕ) :
    FitSlots one positions
      (order.foldl (Dispatch.complete one total watch positions) d).outcomes := by
  induction order generalizing d with
  | nil => exact h
  | cons place order ih => exact ih (h.complete place)

/-- Slots that fill in any order keep to their positions, whenever the batch is stopped. -/
theorem fitSlots_sideBySide (order : List ℕ) (stopped : Bool) (memory : σ) :
    FitSlots one positions (sideBySide one total watch order stopped memory positions).1 :=
  (fitSlots_none one positions).foldl_complete order

/-- So do those of tasks whose steps interleave. -/
theorem fitSlots_interleave (schedule : List ℕ) (stopped : Bool) (memory : σ) :
    FitSlots one positions
      (interleave one total watch schedule stopped memory positions).outcomes := by
  unfold FitSlots Tasks.outcomes
  rw [List.forall₂_map_right_iff]
  refine (consistent_interleave schedule stopped memory).fits.imp fun p s hfit o ho => ?_
  cases s with
  | told o' => exact (Option.some.inj ho).symm.trans hfit
  | _ => exact nomatch ho

end

end

/-! ### Whole batches -/

/-- **Every batch that runs, stopped or not, is accounted for**: in sequence, side by side in
whichever order its simulations complete, and even if the steps of their tasks interleave. -/
theorem accounts_of_run {σ : Type} {settings : Settings} {series : List Bar}
    {positions : List Position} {order : List ℕ} {stopped : Bool} {watch : Watcher σ}
    {memory memory' : σ} {r : Report}
    (h : run settings series positions order stopped watch memory = (.ok r, memory')) :
    let one := fun p => simulate series p ⟨settings.costRate⟩
    r.Accounts one positions ∧ ∀ schedule,
      let tasks := interleave one positions.length watch schedule stopped memory positions
      (report tasks.outcomes).Accounts one positions := by
  intro one
  have hone : ∀ p, (one p).position = p := fun p => simulate_position series p _
  refine ⟨?_, fun schedule => (fitSlots_interleave schedule stopped memory).accounts hone⟩
  unfold run at h
  split at h
  · exact nomatch h
  · exact nomatch h
  · obtain rfl : report _ = r := Except.ok.inj (congrArg Prod.fst h)
    rw [outcomes_eq_sideBySide]
    exact (fitSlots_sideBySide _ stopped memory).accounts hone

/-- Side by side, the third position completes first and the first one second.  They are one
position, and the other one is skipped. -/
theorem accounts_of_run_of_repeated :
    let o := simulate reversal reversalPosition ⟨0.0004⟩
    Position.ToldApart repeatedPositions ∧
      run twoThreads reversal repeatedPositions [2, 0, 1] false impatient 0 =
        (.ok (report [some o, none, some o]), 2) ∧
      (report [some o, none, some o]).get? reversalPosition.fingerprint = some o ∧
      ((report [some o, none, some o]).tally.map Prod.snd).sum = 2 := by
  intro o
  have hne : reversalPosition.fingerprint ≠
      (reversalPosition.withLimitEntry false).fingerprint := by
    decide +kernel
  have hapart : Position.ToldApart repeatedPositions := by
    simp only [Position.ToldApart, repeatedPositions, List.forall_mem_cons, List.not_mem_nil,
      false_imp_iff, implies_true, and_true, hne, hne.symm]
  have hrun : run twoThreads reversal repeatedPositions [2, 0, 1] false impatient 0 =
      (.ok (report [some o, none, some o]), 2) :=
    run_of_sound (by decide +kernel) (by decide) repeatedPositions [2, 0, 1] false impatient 0
  obtain ⟨haccounts, -⟩ := accounts_of_run hrun
  have hmem : reversalPosition ∈ (report [some o, none, some o]).completed := by
    rw [← simulate_position reversal reversalPosition ⟨0.0004⟩]
    exact List.mem_cons_self
  exact ⟨hapart, hrun, haccounts.get?_completed hapart reversalPosition hmem,
    haccounts.isTallied.sum_eq⟩

end Batch
end TripleBarrier
