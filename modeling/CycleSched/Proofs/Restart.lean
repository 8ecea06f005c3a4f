import CycleSched.Proofs.Runs

/-!
# Restarting from a checkpoint

A restart drains the history into the session's saved traces, takes the records of the live
instances and of the pending spawns, and restores them into a fresh pool together with every
trace saved so far. The pool that went on without a restart may already have forgotten some
of those traces: `Pool.housekeep` drops drained traces of removed instances once they lie
before the oldest active point by more than the pool keeps. The restored pool has them back.

They differ as soon as a step reads such a trace. With `a => b` and no runahead, once `a` and
`b` at `1` have run and the history is drained, `a` at `1` is forgotten; triggering `b` at `1`
again then spawns it waiting for `a` in the pool that went on, and ready to run in the
restarted one (`restart_recalls_forgotten_output`).
-/

namespace CycleSched

/-- The steps that leave the hold and stop points alone, and do not start the pool again. -/
def Step.keepsBounds : Step → Bool
  | .start | .holdAfter .. | .releaseHoldPoint | .stopAfter .. => false
  | _ => true

/-- What a restart keeps of a live instance: its state and flags, its flows, its submit and try
numbers, its run mode and job, when it may retry, its outputs in order, and the terms and
satisfaction of each prerequisite. -/
structure Carried where
  state : State
  held : Bool
  forced : Bool
  killed : Bool
  flows : FlowSet
  flowWait : Bool
  submitNum : Int
  tryNum : Int
  submitRetries : Int
  runMode : String
  jobId : String
  retryAt : Instant
  emitted : List String
  prereqs : List (List Bit × Bool)
  deriving DecidableEq

/-- What a restart keeps of the instance `t`. -/
def TaskInstance.carried (t : TaskInstance) : Carried :=
  { state := t.state, held := t.held, forced := t.forced, killed := t.killed, flows := t.flows,
    flowWait := t.flowWait, submitNum := t.submitNum, tryNum := t.tryNum,
    submitRetries := t.submitRetries, runMode := t.runMode, jobId := t.jobId,
    retryAt := t.retryAt, emitted := t.emitted,
    prereqs := t.prereqs.map fun pr => (pr.bits, pr.satisfied) }

namespace Proofs

open CycleSched.Graph

/-- The two pools hold instances at the same keys, and each the same as a restart keeps it. -/
def SameLive (p q : Pool) : Prop :=
  ∀ k, (p.live? k).map TaskInstance.carried = (q.live? k).map TaskInstance.carried

/-- In runs of `allowed` steps over `wf`, the session restarted from a checkpoint and the one
that went on after draining its history hold the same live instances, and keep doing so
through any further allowed steps. -/
def RestartFaithful (wf : Workflow) (allowed : Step → Prop) : Prop :=
  ∀ (s : Session) (now : Option Int) (steps : List TimedStep), Reaches wf allowed s →
    (∀ st ∈ steps, allowed st.2) →
    SameLive (runSteps (s.run now .drainHistory).1 steps).pool
      (runSteps (s.run now .restart).1 steps).pool

/-! ## A forgotten trace comes back -/

/-- The workflow compiled from the integer graph `P1: a => b` with the runahead limit `P0`. -/
def chainWorkflow : Workflow :=
  compiledOf (integerConfig "P0" ⟨["P1"], [("P1", "a => b")]⟩) (by decide +kernel)

/-- `a` and `b` at `1` run, the history is drained, and the runahead release forgets them. -/
def drainedChain : Session :=
  runSteps (started chainWorkflow none)
    [succeeds "1/a", succeeds "1/b", (none, .drainHistory), (none, .releaseRunahead)]

/-- Triggering `b` at `1` again, in the default flow. -/
def retriggerB : List TimedStep := [(none, .trigger ["1/b"] "" false)]

/-- After the trigger, `b` at `1` waits for `a` in the pool that went on, and has its
prerequisite met in the restarted one. -/
theorem restart_recalls_forgotten_output :
    ¬ RestartFaithful chainWorkflow (fun st => st.keepsBounds) := by
  intro h
  have hreach : Reaches chainWorkflow (fun st => st.keepsBounds) drainedChain :=
    reaches_runSteps none _ (by decide)
  have hsame := h drainedChain none retriggerB hreach (by decide) ⟨⟨.integer, 1⟩, "b"⟩
  -- the two instances of `b` differ in the state of their one term, on `a` at `1`
  have hterms := congrArg (Option.map Carried.prereqs) hsame
  revert hterms
  decide +kernel

end Proofs

end CycleSched
