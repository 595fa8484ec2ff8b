import TripleBarrier.Ledger.Draft

/-!
# Closing a ledger

A draft is cut at the exit, and its last line is written anew: it is priced at that bar's close,
and the money moved is that of both trades.

## Main definitions

* `Ledger.upTo` — the lines up to a time.
* `Ledger.closingRow?` — the line that the exit is written as, before it is made presentable.
* `Ledger.close` — the ledger with its last line replaced.
-/

namespace TripleBarrier
namespace Ledger

/-- The lines up to a time, of a ledger in ascending order. -/
def upTo (rows : List Row) (time : Int) : List Row :=
  rows.takeWhile fun r => r.time.toInt ≤ time

/-- The line that the exit is written as, for a ledger whose last line does not precede the
entry. -/
def closingRow? (rows : List Row) (entry : Int64) (e : Exposure) : Option Row :=
  rows.getLast?.bind fun last =>
    if last.time < entry then none else some (e.closed.mark last.time last.price)

/-- The ledger with its last line replaced by the exit. -/
def close (rows : List Row) (entry : Int64) (e : Exposure) : List Row :=
  match closingRow? rows entry e with
  | none => rows
  | some row => rows.dropLast ++ [row.cleaned]

/-- Closing a ledger keeps the number of its lines. -/
@[simp] theorem length_close (rows : List Row) (entry : Int64) (e : Exposure) :
    (close rows entry e).length = rows.length := by
  unfold close
  split
  · rfl
  · next row h =>
    have hne : rows ≠ [] := by
      rintro rfl
      exact absurd h (by simp [closingRow?])
    have := List.length_pos_iff.mpr hne
    simp only [List.length_append, List.length_dropLast, List.length_singleton]
    omega

end Ledger
end TripleBarrier
