import Mathlib
import TripleBarrier.Batch.Report
import TripleBarrier.Proofs.FirstHit

/-!
# Tallies

A tally is made outcome by outcome: the barrier that closed a position is counted once more, or for
the first time.  Whatever the outcomes, a barrier is in the tally exactly if it closed one of them,
with the number of those it closed, and the numbers add up to that of all outcomes.

## Main definitions

* `Report.Ranked` — counts in the order of their barriers.
* `Report.Counts` — counts tell how often each barrier closed one of the outcomes.
* `Report.IsTallied` — what the tally of a report shows.

## Main results

* `Report.Counts.count` — what counting one more outcome keeps.
* `Report.isTallied` — **every report is tallied without loss.**
-/

namespace TripleBarrier
namespace Report

/-! ### Counting once more -/

/-- Counts are in the order of their barriers, the strongest first. -/
def Ranked (counts : List (ExitReason × ℕ)) : Prop :=
  counts.Pairwise fun a b => a.1.rank < b.1.rank

section
variable {reason other : ExitReason} {n : ℕ} {counts : List (ExitReason × ℕ)}

/-- A barrier that comes before the first one counted is stronger than all of them. -/
theorem Ranked.rank_lt {entry : ExitReason × ℕ} {rest : List (ExitReason × ℕ)}
    (h : Ranked (entry :: rest)) (hle : reason ≤ entry.1) (hne : reason ≠ entry.1) :
    ∀ e ∈ entry :: rest, reason.rank < e.1.rank := by
  have hfirst : reason.rank < entry.1.rank :=
    lt_of_le_of_ne hle fun heq => hne (ExitReason.rank_injective heq)
  intro e he
  rcases List.mem_cons.mp he with rfl | he
  · exact hfirst
  · exact hfirst.trans ((List.pairwise_cons.mp h).1 e he)

/-- The counts of other barriers stay. -/
theorem mem_count_of_ne (h : other ≠ reason) :
    (other, n) ∈ count reason counts ↔ (other, n) ∈ counts := by
  have hne : ∀ m, (other, n) ≠ (reason, m) := fun m heq => h (congrArg Prod.fst heq)
  induction counts with
  | nil => simp [count, h]
  | cons entry rest ih =>
    unfold count
    split
    · next heq =>
      have hentry : (other, n) ≠ entry := fun heq' => h ((congrArg Prod.fst heq').trans heq.symm)
      rw [List.mem_cons, List.mem_cons, or_iff_right (hne _), or_iff_right hentry]
    · split
      · rw [List.mem_cons, or_iff_right (hne _)]
      · rw [List.mem_cons, List.mem_cons]
        exact or_congr_right ih

/-- Nothing is counted but the barrier. -/
theorem mem_of_mem_count {entry : ExitReason × ℕ} (h : entry ∈ count reason counts) :
    entry.1 = reason ∨ entry ∈ counts :=
  or_iff_not_imp_left.mpr fun hne => (mem_count_of_ne hne).mp h

/-- A barrier that is stronger than all that were counted has no count. -/
theorem notMem_of_rank_lt (h : ∀ entry ∈ counts, reason.rank < entry.1.rank) (n : ℕ) :
    (reason, n) ∉ counts := fun hmem => lt_irrefl _ (h _ hmem)

theorem Ranked.count (h : Ranked counts) (reason : ExitReason) :
    Ranked (count reason counts) := by
  induction counts with
  | nil => exact List.pairwise_singleton _ _
  | cons entry rest ih =>
    obtain ⟨hentry, hrest⟩ := List.pairwise_cons.mp h
    unfold Report.count
    split
    · next heq => exact List.pairwise_cons.mpr ⟨fun e he => heq ▸ hentry e he, hrest⟩
    · next hne =>
      split
      · next hle => exact List.pairwise_cons.mpr ⟨h.rank_lt hle hne, h⟩
      · next hlt =>
        refine List.pairwise_cons.mpr ⟨fun e he => ?_, ih hrest⟩
        rcases mem_of_mem_count he with heq | he
        · exact heq ▸ Nat.lt_of_not_le hlt
        · exact hentry e he

/-- The count of the barrier is one more than before, or one if there was none. -/
theorem mem_count_self (h : Ranked counts) :
    (reason, n) ∈ count reason counts ↔
      (∃ m, (reason, m) ∈ counts ∧ n = m + 1) ∨ n = 1 ∧ ∀ m, (reason, m) ∉ counts := by
  induction counts with
  | nil => simp [count]
  | cons entry rest ih =>
    obtain ⟨hentry, hrest⟩ := List.pairwise_cons.mp h
    unfold count
    split
    · next heq =>
      -- there is one count of the barrier, the first one
      have hnone := notMem_of_rank_lt (heq ▸ hentry)
      have hfirst : ∀ m, (reason, m) ∈ entry :: rest ↔ m = entry.2 := by
        intro m
        rw [List.mem_cons, or_iff_left (hnone m), Prod.ext_iff]
        exact and_iff_right heq
      simp only [List.mem_cons, hnone, or_false, Prod.mk.injEq, true_and, hfirst]
      constructor
      · rintro rfl
        exact .inl ⟨_, rfl, rfl⟩
      · rintro (⟨m, rfl, rfl⟩ | ⟨-, hm⟩)
        · rfl
        · exact absurd rfl (hm entry.2)
    · next hne =>
      split
      · next hle =>
        have hnone : ∀ m, (reason, m) ∉ entry :: rest := notMem_of_rank_lt (h.rank_lt hle hne)
        rw [List.mem_cons, or_iff_left (hnone n), Prod.ext_iff]
        simp only [hnone, false_and, exists_false, false_or, not_false_eq_true, implies_true,
          and_true, true_and]
      · have hother : ∀ m, (reason, m) ≠ entry := fun m heq => hne (congrArg Prod.fst heq)
        simp only [List.mem_cons, hother, false_or]
        exact ih hrest

theorem sum_count (reason : ExitReason) (counts : List (ExitReason × ℕ)) :
    ((count reason counts).map Prod.snd).sum = (counts.map Prod.snd).sum + 1 := by
  induction counts with
  | nil => rfl
  | cons entry rest ih =>
    unfold count
    split
    · simp only [List.map_cons, List.sum_cons]
      omega
    · split
      · simp only [List.map_cons, List.sum_cons]
        omega
      · simp only [List.map_cons, List.sum_cons, ih]
        omega

end

/-! ### Counting outcomes -/

/-- Counts tell how often each barrier closed one of the outcomes, and are silent about those that
closed none. -/
structure Counts (outcomes : List Outcome) (counts : List (ExitReason × ℕ)) : Prop where
  ranked : Ranked counts
  mem_iff : ∀ reason n, (reason, n) ∈ counts ↔
    n ≠ 0 ∧ n = outcomes.countP fun o => o.reason == reason
  sum_eq : (counts.map Prod.snd).sum = outcomes.length

theorem counts_nil : Counts [] [] where
  ranked := .nil
  mem_iff reason n := by simp
  sum_eq := rfl

section
variable {outcomes : List Outcome} {counts : List (ExitReason × ℕ)} (h : Counts outcomes counts)
include h

/-- **Counting the barrier of one more outcome keeps the counts right.** -/
theorem Counts.count (o : Outcome) : Counts (outcomes ++ [o]) (count o.reason counts) where
  ranked := h.ranked.count o.reason
  mem_iff reason n := by
    rw [List.countP_append, List.countP_singleton]
    rcases eq_or_ne reason o.reason with rfl | hne
    · rw [mem_count_self h.ranked, if_pos (beq_self_eq_true _)]
      simp only [h.mem_iff]
      constructor
      · rintro (⟨m, ⟨-, rfl⟩, rfl⟩ | ⟨rfl, hnone⟩)
        · exact ⟨Nat.succ_ne_zero _, rfl⟩
        · have hzero : (outcomes.countP fun o' => o'.reason == o.reason) = 0 := by
            by_contra hpos
            exact hnone _ ⟨hpos, rfl⟩
          exact ⟨Nat.one_ne_zero, by rw [hzero]⟩
      · rintro ⟨-, rfl⟩
        by_cases hzero : (outcomes.countP fun o' => o'.reason == o.reason) = 0
        · exact .inr ⟨by rw [hzero], fun m ⟨hm, heq⟩ => hm (heq.trans hzero)⟩
        · exact .inl ⟨_, ⟨hzero, rfl⟩, rfl⟩
    · rw [mem_count_of_ne hne, h.mem_iff, if_neg (by simpa using hne.symm), Nat.add_zero]
  sum_eq := by rw [sum_count, h.sum_eq, List.length_append, List.length_singleton]

theorem Counts.foldl (rest : List Outcome) :
    Counts (outcomes ++ rest)
      (rest.foldl (fun counts o => Report.count o.reason counts) counts) := by
  induction rest generalizing outcomes counts with
  | nil => rwa [List.append_nil]
  | cons o rest ih =>
    rw [List.append_cons, List.foldl_cons]
    exact ih (h.count o)

end

/-! ### What a tally shows -/

/-- The tally names the barriers that closed a position, each once, with the number of positions it
closed.  Positions that opened and positions that did not add up to all of them. -/
structure IsTallied (r : Report) : Prop where
  exists_mem_iff : ∀ reason, (∃ n, (reason, n) ∈ r.tally) ↔ ∃ o ∈ r.outcomes, o.reason = reason
  eq_countP : ∀ reason n, (reason, n) ∈ r.tally →
    n = r.outcomes.countP fun o => o.reason == reason
  nodup : (r.tally.map Prod.fst).Nodup
  sum_eq : (r.tally.map Prod.snd).sum = r.outcomes.length
  filled_le : r.filled ≤ r.outcomes.length
  unfilled_eq : r.unfilled = r.outcomes.countP fun o => !o.isFilled
  filled_add_unfilled : r.filled + r.unfilled = r.outcomes.length

/-- **Every report is tallied without loss.** -/
theorem isTallied (r : Report) : r.IsTallied := by
  have hcounts : Counts r.outcomes r.tally := counts_nil.foldl r.outcomes
  exact
    { exists_mem_iff := fun reason => by
        simp only [hcounts.mem_iff, exists_eq_right, ne_eq, List.countP_eq_zero]
        simp
      eq_countP := fun reason n h => ((hcounts.mem_iff reason n).mp h).2
      nodup := List.pairwise_map.mpr
        (hcounts.ranked.imp fun hlt heq => hlt.ne (congrArg ExitReason.rank heq))
      sum_eq := hcounts.sum_eq
      filled_le := List.countP_le_length
      unfilled_eq := by
        have hsplit := List.length_eq_countP_add_countP Outcome.isFilled (l := r.outcomes)
        have hfilled : r.filled = r.outcomes.countP Outcome.isFilled := rfl
        have hunfilled : r.unfilled = r.outcomes.length - r.filled := rfl
        have hnot : (r.outcomes.countP fun o => !o.isFilled) =
            r.outcomes.countP fun o => ¬ o.isFilled := by
          congr 1
          funext o
          cases o.isFilled <;> rfl
        omega
      filled_add_unfilled := r.filled_add_unfilled }

end Report
end TripleBarrier
