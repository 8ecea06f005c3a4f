import Mathlib.Logic.Relation
import CycleSched.Session.Run
import CycleSched.Proofs.Instance
import CycleSched.Graph.Compile

/-!
# Runs of a scheduling session

A run starts a fresh session over a compiled workflow, starts its pool once, and then takes
steps, each at a time of its own or at the session's clock. The properties the scheduler relies
on hold of every session a run reaches, or of every pair of sessions one of which follows the
other in a run; which steps a run may take is a parameter, since each property is promised
only for runs without some operations (no manual triggers, no restore, no change of the hold
point).

`Moves allowed s s'` says that one allowed step takes `s` to `s'`, `Follows allowed` is its
reflexive and transitive closure, and `Reaches wf allowed s` says that `s` follows the fresh
started session over `wf`. A concrete run is a list of timed steps; `runSteps` takes them in
order, and `reaches_runSteps` shows that what it reaches is reached.
-/

namespace CycleSched

/-- The steps that create no instance whatever the runahead limit or its history (`trigger`,
`set`), do not restore the pool (`restore`, `restart`), and do not start it again. -/
def Step.keepsSpawning : Step → Bool
  | .start | .trigger .. | .setOutputs .. | .restore .. | .restart => false
  | _ => true

/-! ## Sessions keep their workflow -/

namespace Session

variable (s : Session)

theorem applyEvent_wf (ev : JobEvent) : (s.applyEvent ev).1.wf = s.wf := by
  unfold applyEvent
  split
  · rfl
  · split
    · rfl
    · dsimp only
      split <;> rfl

theorem applyEvents_wf (evs : List JobEvent) : (s.applyEvents evs).1.wf = s.wf := by
  unfold applyEvents
  exact List.foldlRecOn (motive := fun x : Session × List (JobEvent × EventOutcome) => x.1.wf = s.wf)
    _ _ rfl fun x hx ev _ => (applyEvent_wf x.1 ev).trans hx

theorem advance_wf (seconds : Int) : (s.advance seconds).1.wf = s.wf :=
  applyEvents_wf _ _

theorem wholeJob_wf (t : TaskInstance) (success : Bool) (jobId : String)
    (given : Option (List String)) : (s.wholeJob t success jobId given).1.wf = s.wf := by
  unfold wholeJob
  dsimp only
  repeat' split
  all_goals rfl

theorem applyChange_wf (t : TaskInstance) (c : Change) : (s.applyChange t c).1.wf = s.wf := by
  cases c
  case wholeJob success jobId given => exact wholeJob_wf s t success jobId given
  -- every other change settles the instance, or updates it, or refuses
  all_goals
    unfold applyChange
    try unfold finish
    dsimp only
    repeat' split
    all_goals rfl

theorem submit_wf (t : TaskInstance) (mode : String) : (s.submit t mode).1.wf = s.wf := by
  unfold submit
  dsimp only
  repeat' split
  all_goals first | rfl | exact applyEvents_wf _ _

theorem onInstance_wf {id : String} {k : TaskInstance → Session × Except Refusal Reply}
    (hk : ∀ t, (k t).1.wf = s.wf) : (s.onInstance id k).1.wf = s.wf := by
  unfold onInstance
  split
  · rfl
  · split
    · rfl
    · exact hk _

theorem perform_wf (st : Step) : (s.perform st).1.wf = s.wf := by
  cases st
  case submit id mode => exact s.onInstance_wf fun t => s.submit_wf t mode
  case change id c => exact s.onInstance_wf fun t => s.applyChange_wf t c
  case simAdvance seconds => exact s.advance_wf seconds
  -- every other step changes the pool, the broadcasts or the saved traces, or refuses
  all_goals
    unfold perform
    try unfold restart command partly
    dsimp only
    repeat' split
    all_goals rfl

/-- No step changes the workflow of a session. -/
theorem run_wf (now : Option Int) (st : Step) : (s.run now st).1.wf = s.wf := by
  cases now <;>
  · rw [Session.run]
    dsimp only
    exact perform_wf _ st

end Session

namespace Proofs

open CycleSched.Graph

/-- A step with the time it is taken at, in Unix seconds, or at the session's clock. -/
abbrev TimedStep := Option Int × Step

/-- The session reached from `s` by taking the steps in order. -/
def runSteps (s : Session) : List TimedStep → Session
  | [] => s
  | (now, st) :: rest => runSteps (s.run now st).1 rest

/-- The fresh session over `wf` with its pool started. -/
def started (wf : Workflow) (now : Option Int) : Session :=
  ((Session.make wf).run now .start).1

/-- One allowed step, taken at some time, takes `s` to `s'`. -/
def Moves (allowed : Step → Prop) (s s' : Session) : Prop :=
  ∃ now st, allowed st ∧ (s.run now st).1 = s'

/-- The steps other than restoring the pool from a snapshot. -/
def NoRestore (st : Step) : Prop :=
  ∀ tasks spawn history nextFlow, st ≠ .restore tasks spawn history nextFlow

/-- `s'` is reached from `s` by allowed steps. -/
abbrev Follows (allowed : Step → Prop) : Session → Session → Prop :=
  Relation.ReflTransGen (Moves allowed)

/-- `s` is reached by a run over `wf`: the pool started, then allowed steps. -/
def Reaches (wf : Workflow) (allowed : Step → Prop) (s : Session) : Prop :=
  ∃ now, Follows allowed (started wf now) s

variable {allowed : Step → Prop}

theorem moves_run {s : Session} (now : Option Int) {st : Step} (h : allowed st) :
    Moves allowed s (s.run now st).1 :=
  ⟨now, st, h, rfl⟩

/-- Taking allowed steps one after another follows. -/
theorem follows_runSteps (s : Session) (steps : List TimedStep)
    (h : ∀ st ∈ steps, allowed st.2) : Follows allowed s (runSteps s steps) := by
  induction steps generalizing s with
  | nil => exact .refl
  | cons st rest ih =>
    obtain ⟨now, step⟩ := st
    have hrest := ih (s.run now step).1 (fun st hst => h st (List.mem_cons_of_mem _ hst))
    exact .head (moves_run now (h _ List.mem_cons_self)) hrest

theorem reaches_runSteps {wf : Workflow} (now : Option Int) (steps : List TimedStep)
    (h : ∀ st ∈ steps, allowed st.2) : Reaches wf allowed (runSteps (started wf now) steps) :=
  ⟨now, follows_runSteps _ steps h⟩

theorem Reaches.follows {wf : Workflow} {s s' : Session} (h : Reaches wf allowed s)
    (h' : Follows allowed s s') : Reaches wf allowed s' :=
  let ⟨now, hs⟩ := h
  ⟨now, hs.trans h'⟩

/-- A property of sessions that every allowed step keeps holds all along a run. -/
theorem Follows.invariant {I : Session → Prop} (hstep : ∀ s s', Moves allowed s s' → I s → I s')
    {s s' : Session} (h : Follows allowed s s') (hs : I s) : I s' := by
  induction h with
  | refl => exact hs
  | tail _ hmove ih => exact hstep _ _ hmove ih

/-- Every session a run over `wf` reaches is a session of `wf`. -/
theorem Reaches.wf {wf : Workflow} {s : Session} (h : Reaches wf allowed s) : s.wf = wf := by
  obtain ⟨now, hs⟩ := h
  exact Follows.invariant (I := fun s : Session => s.wf = wf)
    (fun s _ ⟨now, st, _, hrun⟩ hs => hrun ▸ (s.run_wf now st).trans hs) hs
    ((Session.make wf).run_wf now .start)

/-! ## Small workflows

The runs that show where a promise fails go over workflows of a few tasks named only in the
graph, each the one the compiler builds from its configuration; the tasks of other examples are
written as the compiler builds them. -/

/-- The points `1, 2, 3, …`: the recurrence `P1` from `1`. -/
def everyStep : Sequence :=
  { text := "P1", start := ⟨.integer, 1⟩, step := .steps 1, count := 0, lower := ⟨.integer, 1⟩,
    upper := none }

/-- The point `1` alone: the recurrence `R1` from `1`. -/
def onlyFirst : Sequence :=
  { text := "R1", start := ⟨.integer, 1⟩, step := .zero, count := 1, lower := ⟨.integer, 1⟩,
    upper := none }

/-- A task the graph names without runtime settings: its own namespace under `root`, and
`succeeded` required. -/
def implicitTask (name : String) (index : Nat) (seq : Sequence) (deps : List Dependency) :
    TaskDef :=
  { name, index, sequences := [seq], deps, namespaces := [name, "root"],
    required := ["succeeded"] }

/-- The term `task[offset]` of a graph line on the task's success, written `text`. -/
def onSuccess (task : String) (offset : Interval) (text : String) : Trigger :=
  { task, output := "succeeded", offset, text }

/-- The workflow a configuration compiles to, given that it compiles. -/
def compiledOf (cfg : WorkflowConfig) (h : (compile cfg).toOption.isSome = true) : Workflow :=
  (compile cfg).toOption.get h

theorem compile_compiledOf (cfg : WorkflowConfig) (h : (compile cfg).toOption.isSome = true) :
    compile cfg = .ok (compiledOf cfg h) :=
  Except.eq_ok_of_toOption (Option.some_get h).symm

/-- A configuration on integer points from `1` whose tasks may be named in the graph alone,
with the runahead limit as written. -/
def integerConfig (runahead : String) (graph : GraphSection) : WorkflowConfig :=
  { scheduler := { allowImplicitTasks := true },
    scheduling := { cyclingMode := "integer", initial := "1", runahead, graph } }

/-- The configuration of the integer graph `R1: a => b`. -/
def pairConfig : WorkflowConfig := integerConfig "" ⟨["R1"], [("R1", "a => b")]⟩

/-- The workflow compiled from the integer graph `R1: a => b`. -/
def pairWorkflow : Workflow := compiledOf pairConfig (by decide +kernel)

/-- The whole job of the instance `id` to success, as a step at the session's clock. -/
def succeeds (id : String) : TimedStep := (none, .change id (.wholeJob true "" none))

/-- The whole job of the instance `id` to failure, as a step at the session's clock. -/
def fails (id : String) : TimedStep := (none, .change id (.wholeJob false "" none))

end Proofs

end CycleSched
