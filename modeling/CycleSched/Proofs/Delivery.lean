import CycleSched.Proofs.Runs

/-!
# Delivery of outputs

An output reaches the terms that name it along two paths. An output emitted while a dependant
is live is delivered by `Pool.dependantsBy`, which finds the dependant by taking the trigger's
offset back from the emitting instance (`pt.add offset.neg`); a dependant spawned after the
output was emitted reads it from the trace (`Pool.satisfyFromHistory`), at the key its term
names, the dependant's point plus the offset.

For offsets with months the two disagree, since adding a month clamps the day to the month
reached: the term of `b` at 31 March on `a[-P1M]` names `a` at 28 February, while the output
of `a` at 28 February is looked for at 28 March. So `b` waits for good on an output already
emitted (`month_end_output_lost`).
-/

namespace CycleSched

/-- The steps a run may take while its history is kept: the pool's progress, the commands that
hold, release, stop, trigger, set or remove, and the jobs' transitions. -/
def Step.keepsHistory : Step → Bool
  | .releaseRunahead | .expireTasks | .ready | .hold .. | .release .. | .holdAfter ..
  | .releaseHoldPoint | .stopAfter .. | .trigger .. | .setOutputs .. | .remove ..
  | .submit .. | .simAdvance .. | .change .. => true
  | _ => false

namespace Proofs

open CycleSched.Graph

/-- The pool's trace of the instance at `k` records the output `o`. -/
def Emitted (p : Pool) (k : TaskKey) (o : String) : Prop :=
  ∃ r, p.trace? k = some r ∧ o ∈ r.outputs

/-- A live instance has a term on the output `o` of `k` that is neither met nor dropped. -/
def Awaits (p : Pool) (k : TaskKey) (o : String) : Prop :=
  ∃ t ∈ p.tasks, ∃ pr ∈ t.prereqs, ∃ kb ∈ pr.keys.zip pr.bits,
    kb.1 = ⟨k.point, k.name, o⟩ ∧ kb.2 ≠ .satisfied ∧ kb.2 ≠ .dropped

instance (p : Pool) (k : TaskKey) (o : String) : Decidable (Emitted p k o) :=
  inferInstanceAs (Decidable (∃ r, p.trace? k = some r ∧ o ∈ r.outputs))

instance (p : Pool) (k : TaskKey) (o : String) : Decidable (Awaits p k o) :=
  inferInstanceAs (Decidable (∃ t ∈ p.tasks, ∃ pr ∈ t.prereqs, ∃ kb ∈ pr.keys.zip pr.bits,
    kb.1 = ⟨k.point, k.name, o⟩ ∧ kb.2 ≠ .satisfied ∧ kb.2 ≠ .dropped))

/-- In runs of `allowed` steps over `wf`, once an output is emitted every term on it is met or
dropped, in every session that follows. -/
def Delivered (wf : Workflow) (allowed : Step → Prop) : Prop :=
  ∀ (s s' : Session) (k : TaskKey) (o : String), Reaches wf allowed s → Emitted s.pool k o →
    Follows allowed s s' → ¬ Awaits s'.pool k o

/-! ## An output lost at a month's end -/

/-- 28 February 2021, 00:00 UTC. -/
def endOfFebruary : Point := ⟨.gregorian, 1614470400⟩

/-- The workflow compiled from the graph `R1: a` and `R1/20210331T0000Z: a[-P1M] & c => b`,
starting on 28 February 2021, with a runahead limit of two months. -/
def monthEndWorkflow : Workflow :=
  compiledOf
    { scheduler := { allowImplicitTasks := true },
      scheduling := { initial := "20210228T0000Z", runahead := "P2M",
                      graph := ⟨["R1", "R1/20210331T0000Z"],
                        [("R1", "a"), ("R1/20210331T0000Z", "a[-P1M] & c => b")]⟩ } }
    (by decide +kernel)

/-- `c` succeeds, which spawns `b` at 31 March, and then `a` at 28 February succeeds. -/
def monthEndRun : Session :=
  runSteps (started monthEndWorkflow none)
    [succeeds "20210331T0000Z/c", succeeds "20210228T0000Z/a"]

/-- After `a` at 28 February has succeeded, `b` at 31 March still waits for that output, in a
run of job transitions alone. -/
theorem month_end_output_lost : ¬ Delivered monthEndWorkflow (fun st => st.keepsHistory) := by
  intro h
  have hreach : Reaches monthEndWorkflow (fun st => st.keepsHistory) monthEndRun :=
    reaches_runSteps none _ (by decide)
  have hemitted : Emitted monthEndRun.pool ⟨endOfFebruary, "a"⟩ "succeeded" := by
    decide +kernel
  have hwaits : Awaits monthEndRun.pool ⟨endOfFebruary, "a"⟩ "succeeded" := by
    decide +kernel
  exact h _ _ _ _ hreach hemitted .refl hwaits

end Proofs

end CycleSched
