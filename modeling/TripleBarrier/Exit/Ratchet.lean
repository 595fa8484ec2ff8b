/-!
# Ratchets

A level that may be raised but never falls.  A proposed level that is not a number is ignored as
soon as there is another one.
-/

namespace TripleBarrier

/-- The larger of two numbers, and the other one if one of them is not a number. -/
def larger (x y : Float) : Float :=
  if x.isNaN then y else if y.isNaN then x else if x < y then y else x

/-- A level that never falls, absent until the first one is proposed. -/
structure Ratchet where
  level : Option Float := none

namespace Ratchet

/-- The level after one is proposed. -/
def propose (r : Ratchet) (level : Float) : Float :=
  r.level.elim level (larger · level)

/-- The ratchet after a level is proposed. -/
def raise (r : Ratchet) (level : Float) : Ratchet :=
  ⟨some (r.propose level)⟩

@[simp] theorem propose_empty (level : Float) : ({} : Ratchet).propose level = level := rfl

@[simp] theorem propose_some (current level : Float) :
    (⟨some current⟩ : Ratchet).propose level = larger current level := rfl

@[simp] theorem level_raise (r : Ratchet) (level : Float) :
    (r.raise level).level = some (r.propose level) := rfl

end Ratchet
end TripleBarrier
