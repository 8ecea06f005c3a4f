import CycleSched.Proofs.Runs

/-!
# Waiting for the flow

An instance triggered with `wait` spawns no children until its flow catches up with it. The
flag is cleared, and the outputs its trace records delivered, only on one branch of
`Pool.spawn`: the one that finds the instance removed. When the flow arrives while the instance
is still live, the search for dependants finds the live instance and spawns nothing, so the flag
stays, and the outputs the instance emits afterwards are processed with spawning off.

With the graph `a => b => c` at the single point `1`: `b` is triggered to wait for its flow and
`a` succeeds, in flow `1`; its output reaches `b`, which keeps waiting
(`flow_arrival_keeps_wait`). When `b` then succeeds, `c` is not spawned.
-/

namespace CycleSched.Proofs

open CycleSched.Graph

/-- The instance at `k` waits for its flow: its live instance has the flag, or its trace does. -/
def WaitsForFlow (p : Pool) (k : TaskKey) : Prop :=
  (∃ t ∈ p.tasks, t.key = k ∧ t.flowWait = true) ∨ (p.trace? k).any (·.flowWait) = true

/-- Output `o` of the instance at `u` reaches the instance at `k` through a relative trigger of
one of `k`'s dependencies, where the pool's search for dependants looks for it. -/
def Feeds (wf : Workflow) (u : TaskKey) (o : String) (k : TaskKey) : Prop :=
  ∃ c ∈ wf.children u.name o, c.child = k.name ∧ c.dep.seq.contains k.point = true ∧
    (c.dep.triggers[c.trigger]?).any (fun trig => trig.point.isNone &&
      decide ((if trig.offset.isZero then u.point else u.point.add trig.offset.neg) = k.point))
      = true

/-- In the step from `s` to `s'` the instance at `u`, live in some flow and not waiting for its
flow, emits the output `o`, which reaches the instance at `k`: the output is processed with
spawning on. -/
def FlowArrives (s s' : Session) (u : TaskKey) (o : String) (k : TaskKey) : Prop :=
  (∃ t ∈ s.pool.tasks, t.key = u ∧ t.flows.isNone = false ∧ t.flowWait = false ∧ o ∉ t.emitted) ∧
    (s'.pool.trace? u).any (·.outputs.contains o) = true ∧ Feeds s.wf u o k

instance (p : Pool) (k : TaskKey) : Decidable (WaitsForFlow p k) :=
  inferInstanceAs (Decidable ((∃ t ∈ p.tasks, t.key = k ∧ t.flowWait = true) ∨ _))

instance (wf : Workflow) (u : TaskKey) (o : String) (k : TaskKey) : Decidable (Feeds wf u o k) :=
  inferInstanceAs (Decidable (∃ c ∈ wf.children u.name o, _))

instance (s s' : Session) (u : TaskKey) (o : String) (k : TaskKey) :
    Decidable (FlowArrives s s' u o k) :=
  inferInstanceAs (Decidable (_ ∧ _ ∧ _))

/-- Once a trigger has set an instance waiting for its flow, the next job report whose output
reaches the instance with spawning on ends the wait, on the live instance and on its trace. -/
def ArrivalEndsWait (wf : Workflow) : Prop :=
  ∀ (s₀ s₁ s₂ : Session) (now now' : Option Int) (pats : List String) (flow id : String)
    (c : Change) (u k : TaskKey) (o : String),
    Reaches wf (fun _ => True) s₀ → (s₀.run now (.trigger pats flow true)).1 = s₁ →
    WaitsForFlow s₁.pool k → (s₁.run now' (.change id c)).1 = s₂ → FlowArrives s₁ s₂ u o k →
    ¬ WaitsForFlow s₂.pool k

/-- The workflow compiled from the integer graph `R1: a => b => c`. -/
def relayWorkflow : Workflow :=
  compiledOf (integerConfig "" ⟨["R1"], [("R1", "a => b => c")]⟩) (by decide +kernel)

/-- The started relay with `b` triggered to wait for its flow. -/
def waitTriggered : Session :=
  ((started relayWorkflow none).run none (.trigger ["1/b"] "" true)).1

/-- The success of `a` reaches `b` in flow `1`. -/
def flowArrived : Session := (waitTriggered.run none (succeeds "1/a").2).1

/-- The output of `a` reaches `b` with spawning on, one step after `b` was triggered to wait
for its flow, and `b` still waits. -/
theorem flow_arrival_keeps_wait : ¬ ArrivalEndsWait relayWorkflow := by
  intro h
  have hreach : Reaches relayWorkflow (fun _ => True) (started relayWorkflow none) := ⟨none, .refl⟩
  have hset : WaitsForFlow waitTriggered.pool ⟨⟨.integer, 1⟩, "b"⟩ := by decide +kernel
  have harrive : FlowArrives waitTriggered flowArrived ⟨⟨.integer, 1⟩, "a"⟩ "succeeded"
      ⟨⟨.integer, 1⟩, "b"⟩ := by
    decide +kernel
  have hstill : WaitsForFlow flowArrived.pool ⟨⟨.integer, 1⟩, "b"⟩ := by decide +kernel
  exact h _ _ _ none none _ _ _ _ _ _ _ hreach rfl hset rfl harrive hstill

end CycleSched.Proofs
