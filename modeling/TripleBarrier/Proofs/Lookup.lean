import Mathlib
import TripleBarrier.Batch.Report

/-!
# Finding outcomes in a report

The index of a report holds for each fingerprint the place of the first outcome that has it.  So
what is found under a fingerprint is the first of the outcomes whose position has that fingerprint,
and something is found whenever there is such an outcome.

## Main results

* `Report.getElem?_enter` — the index after entering outcomes.
* `Report.get?_ofOutcomes` — **what is found is the first outcome with the fingerprint.**
* `Report.exists_get?_eq_some` — something is found for every outcome.
-/

namespace TripleBarrier
namespace Report

/-- Entering outcomes keeps the places that are there, and adds that of the first outcome for each
other fingerprint. -/
theorem getElem?_enter (index : Std.HashMap Fingerprint ℕ) (place : ℕ) (outcomes : List Outcome)
    (f : Fingerprint) :
    (enter index place outcomes)[f]? =
      index[f]?.or ((outcomes.findIdx? fun o => o.position.fingerprint == f).map (· + place)) := by
  induction outcomes generalizing index place with
  | nil => simp [enter]
  | cons o outcomes ih =>
    rw [enter, ih, Std.HashMap.getElem?_insertIfNew, List.findIdx?_cons]
    cases hf : o.position.fingerprint == f with
    | true =>
      cases beq_iff_eq.mp hf
      by_cases hmem : o.position.fingerprint ∈ index
      · simp [hmem]
      · simp [hmem]
    | false =>
      simp [Function.comp_def, Nat.add_comm, Nat.add_left_comm]

/-- The place that is stored under a fingerprint is that of the first outcome that has it. -/
theorem place?_ofOutcomes (outcomes : List Outcome) (skipped : ℕ) (f : Fingerprint) :
    (ofOutcomes outcomes skipped).place? f =
      outcomes.findIdx? fun o => o.position.fingerprint == f := by
  unfold place? ofOutcomes
  rw [getElem?_enter]
  simp

/-- **What is found under a fingerprint is the first outcome that has it.** -/
theorem get?_ofOutcomes (outcomes : List Outcome) (skipped : ℕ) (f : Fingerprint) :
    (ofOutcomes outcomes skipped).get? f =
      outcomes.find? fun o => o.position.fingerprint == f := by
  rw [get?, place?_ofOutcomes, List.find?_eq_bind_findIdx?_getElem?]
  rfl

/-- Something is found under every fingerprint that an outcome has. -/
theorem exists_get?_eq_some {outcomes : List Outcome} {o : Outcome} (h : o ∈ outcomes)
    (skipped : ℕ) :
    ∃ first ∈ outcomes, (ofOutcomes outcomes skipped).get? o.position.fingerprint = some first ∧
      first.position.fingerprint = o.position.fingerprint := by
  have hsome :
      (outcomes.find? fun o' => o'.position.fingerprint == o.position.fingerprint).isSome :=
    List.find?_isSome.mpr ⟨o, h, beq_self_eq_true _⟩
  obtain ⟨first, hfirst⟩ := Option.isSome_iff_exists.mp hsome
  refine ⟨first, List.mem_of_find?_eq_some hfirst, ?_, ?_⟩
  · rw [get?_ofOutcomes, hfirst]
  · have hfound := List.find?_some hfirst
    exact beq_iff_eq.mp hfound

end Report
end TripleBarrier
