import CycleSched.Proofs.Runs

/-!
# How long traces are kept

The pool keeps the trace of a removed instance, which tells a later spawn that the instance
already ran and gives a new instance the outputs its terms name, until `Pool.housekeep` forgets
it: once it is drained and lies before the oldest active point (`Pool.base`) by more than the
pool keeps (`Pool.keep`, the runahead limit plus the largest forward trigger offset, or the
runahead limit plus the longest look back). Spawns and terms reach back from the oldest active
point by at most that much, but the oldest active point itself moves back when a forward trigger
spawns below it, and it may do so again from there.

With `a[+P1] => b` and `b[+P1] | y => x` and no runahead, the pool keeps one step. Once `x` at
`1` has run and the oldest point is `3`, its trace is forgotten; `a` at `3` then spawns `b` at
`2`, which spawns `x` at `1` again in the flow it ran in, as the forgotten trace no longer
refuses it (`forgotten_trace_spawned_again`).
-/

namespace CycleSched.Proofs

open CycleSched.Graph

/-- The workflow compiled from the integer graph `P1: a`, `a[+P1] => b` and `b[+P1] | y => x`
with the runahead limit `P0`: `b` waits for `a` at the next point, and `x` for `b` at the next
point or for `y` at its own. -/
def twoStepsBack : Workflow :=
  compiledOf (integerConfig "P0" ⟨["P1"], [("P1", "a\na[+P1] => b\nb[+P1] | y => x\n")]⟩)
    (by decide +kernel)

/-- The instance `x` at `1`. -/
def xAtOne : TaskKey := ⟨⟨.integer, 1⟩, "x"⟩

/-- Every instance at `1` and `2` runs, `y` spawning `x` at each, until the oldest point is `3`. -/
def upToThree : List TimedStep :=
  [succeeds "1/a", succeeds "1/y", succeeds "1/x", succeeds "2/a", succeeds "1/b",
    succeeds "2/y", succeeds "2/x"]

/-- `a` at `3` and then `b` at `2`, which it spawns below the oldest point, succeed. -/
def reachBack : List TimedStep := [succeeds "3/a", succeeds "2/b"]

/-- The run up to the point `3`, with the history drained. -/
def drainedAtThree : Session :=
  runSteps (started twoStepsBack none) (upToThree ++ [(none, .drainHistory)])

/-- In the run, `x` at `1` ran in flow 1 and its trace is drained; the release then forgets the
trace, and the success of `b` at `2` spawns `x` at `1` again, in flow 1. Without the drain the
trace is kept, and the same steps leave `x` at `1` unspawned. -/
theorem forgotten_trace_spawned_again :
    (drainedAtThree.pool.trace? xAtOne).map (fun r => (r.removed, r.flows)) =
        some (true, FlowSet.ofList [1]) ∧
      ((drainedAtThree.run none .releaseRunahead).1.pool.trace? xAtOne).isNone ∧
      ((runSteps (drainedAtThree.run none .releaseRunahead).1 reachBack).pool.live? xAtOne).map
        (·.flows) = some (FlowSet.ofList [1]) ∧
      ((runSteps (started twoStepsBack none)
        (upToThree ++ (none, .releaseRunahead) :: reachBack)).pool.live? xAtOne).isNone := by
  decide +kernel

end CycleSched.Proofs
