import CycleSched.Proofs.Runs

/-!
# The runahead limit

The pool spawns an instance only when its point is no later than the horizon, the oldest active
point (`Pool.base`) plus the runahead limit; later spawns are deferred. The bound is checked at
the moment of spawning only, so it holds of the whole pool afterwards only as long as the oldest
active point never moves back.

A forward trigger moves it back. With `a[+P1] => b` the output of `a` at `2` spawns `b` at `1`,
below every live instance; after `a` at `1` and `2` have run, `a` at `6` was spawned against the
oldest point `2`, and the oldest point is now `1`, so `a` at `6` lies beyond the horizon `5`
(`runahead_bound_broken`).
-/

namespace CycleSched.Proofs

open CycleSched.Graph

/-- No live instance lies after the oldest active point plus the runahead limit. -/
def WithinRunahead (p : Pool) : Prop :=
  ∀ b, p.base = some b → ∀ t ∈ p.tasks, t.point.after (b.add p.wf.runahead) = false

/-- The runahead bound, computed. -/
def withinRunahead (p : Pool) : Bool :=
  match p.base with
  | some b => p.tasks.all fun t => !t.point.after (b.add p.wf.runahead)
  | none => true

lemma withinRunahead_iff (p : Pool) : withinRunahead p = true ↔ WithinRunahead p := by
  unfold withinRunahead WithinRunahead
  cases p.base with
  | none => simp
  | some b => simp

instance (p : Pool) : Decidable (WithinRunahead p) :=
  decidable_of_iff _ (withinRunahead_iff p)

/-! ## A forward trigger breaks the bound -/

/-- The workflow compiled from the integer graph `P1: a` and `a[+P1] => b`: `b` at each point
waits for `a` at the next one. -/
def forwardWorkflow : Workflow :=
  compiledOf (integerConfig "" ⟨["P1"], [("P1", "a\na[+P1] => b\n")]⟩) (by decide +kernel)

/-- Two whole jobs: `a` at `1` and then at `2` succeed. -/
def forwardRun : List TimedStep := [succeeds "1/a", succeeds "2/a"]

/-- After the run the oldest active point is `1`, where `b` was spawned by `a` at `2`, while `a`
at `6`, spawned when the oldest point was `2`, is still live. -/
theorem forwardRun_base_moves_back :
    (runSteps (started forwardWorkflow none) forwardRun).pool.base = some ⟨.integer, 1⟩ ∧
      (runSteps (started forwardWorkflow none) forwardRun).pool.tasks.map (·.id) =
        ["1/b", "3/a", "4/a", "5/a", "6/a"] := by
  decide +kernel

/-- Some run without manual triggers, outputs set by hand or restores leaves an instance past
the runahead limit of the oldest active point. -/
theorem runahead_bound_broken :
    ¬ ∀ (wf : Workflow) (s : Session), Reaches wf (fun st => st.keepsSpawning) s → WithinRunahead s.pool := by
  intro h
  have hreach : Reaches forwardWorkflow (fun st => st.keepsSpawning)
      (runSteps (started forwardWorkflow none) forwardRun) :=
    reaches_runSteps none forwardRun (by decide)
  have hbound := h _ _ hreach
  revert hbound
  decide +kernel

end CycleSched.Proofs
