import CycleSched.Task.Instance
import CycleSched.Graph.Workflow

/-!
# The task pool

The pool holds the live task instances of a run, ordered by cycle point and then by
declaration order. Beside them it keeps what spawning needs: for each task the next point at
which its sequences spawn it (its cursor), spawns held back by the runahead limit, holds on
instances not yet spawned, and a trace of every instance seen, live or removed, which answers
"was this output emitted" for instances spawned later.

Changes to the pool are announced as events (an instance spawned, an instance removed and
why), in the order they happen.
-/

namespace CycleSched

open CycleSched.Graph

/-- A task at a cycle point. -/
structure TaskKey where
  point : Point
  name : String
  deriving Repr

instance : DecidableEq TaskKey := fun k l =>
  decidable_of_iff (k.point = l.point ∧ k.name = l.name) (by cases k; cases l; simp)

/-- The id `point/name` of a key. -/
def TaskKey.id (k : TaskKey) : String := k.point.toText ++ "/" ++ k.name

/-- The key of an instance. -/
def TaskInstance.key (t : TaskInstance) : TaskKey := ⟨t.point, t.task.name⟩

/-- The latest known state of an instance, live or removed. -/
structure Trace where
  flows : FlowSet := FlowSet.none
  /-- The state name, as saved. -/
  state : String := ""
  submitNum : Int := 0
  /-- The outputs emitted, each once. -/
  outputs : List String := []
  flowWait : Bool := false
  removed : Bool := false
  deriving Repr

/-- The trace's state is a final one. -/
def Trace.isFinal (r : Trace) : Bool := ((State.ofName? r.state).map State.isFinal).getD false

/-- A change to the pool. -/
inductive PoolEvent where
  | spawned (key : TaskKey)
  | removed (key : TaskKey) (reason : String)

/-- The live instances of a run and what spawning needs. -/
structure Pool where
  wf : Workflow
  /-- Live instances, by cycle point and then declaration order. -/
  tasks : List TaskInstance := []
  /-- The next point at which each task's sequences spawn it; `none` once exhausted. -/
  cursors : List (String × Option Point) := []
  /-- Spawns held back by the runahead limit, with their flows. -/
  deferred : List (TaskKey × FlowSet) := []
  /-- Instances to hold when they are spawned. -/
  holds : List TaskKey := []
  history : List (TaskKey × Trace) := []
  /-- Traces changed since they were last drained. -/
  dirty : List TaskKey := []
  /-- Instances some trigger names absolutely; their traces are kept for good. -/
  absolute : List TaskKey := []
  stopPoint : Option Point := none
  holdPoint : Option Point := none
  nextFlow : Int := 2
  /-- How far behind the oldest active point traces are kept. -/
  keep : Interval := .zero
  events : List PoolEvent := []

namespace Pool

/-- An empty pool for a compiled workflow. Traces are kept for the runahead limit and the
largest forward offset, or further back when a trigger looks further back. -/
def make (wf : Workflow) : Pool :=
  let triggers := wf.tasks.flatMap fun d => d.deps.flatMap (·.triggers)
  let keep := triggers.foldl (fun keep t =>
    if t.point.isNone && t.offset.isNegative then
      let back := wf.runahead.plus t.offset.neg
      if back.compare keep == .gt then back else keep
    else keep) (wf.runahead.plus wf.maxFutureOffset)
  let absolute := triggers.filterMap fun t => t.point.map fun p => (⟨p, t.task⟩ : TaskKey)
  { wf, stopPoint := wf.stopPoint, holdPoint := wf.holdPoint, keep, absolute }

/-- The declaration index of a task. -/
def indexOf (p : Pool) (name : String) : Nat := ((p.wf.task? name).map (·.index)).getD 0

/-- Pool order: cycle point, then declaration order. -/
def keyBefore (p : Pool) (a b : TaskKey) : Bool :=
  a.point.before b.point || (a.point.val == b.point.val && p.indexOf a.name < p.indexOf b.name)

/-- The live instance at a key. -/
def live? (p : Pool) (k : TaskKey) : Option TaskInstance := p.tasks.find? (·.key == k)

/-- The trace of an instance. -/
def trace? (p : Pool) (k : TaskKey) : Option Trace := p.history.lookup k

/-- Sets the trace of an instance. -/
def setTrace (p : Pool) (k : TaskKey) (r : Trace) : Pool :=
  if p.history.any (·.1 == k) then { p with history := p.history.map fun e => if e.1 == k then (k, r) else e }
  else { p with history := p.history ++ [(k, r)] }

/-- Marks a trace as changed. -/
def markDirty (p : Pool) (k : TaskKey) : Pool :=
  if p.dirty.contains k then p else { p with dirty := p.dirty ++ [k] }

/-- Replaces the live instance with the same key, if there is one. -/
def update (p : Pool) (t : TaskInstance) : Pool :=
  { p with tasks := p.tasks.map fun u => if u.key == t.key then t else u }

/-- Puts an instance among the live ones, in pool order, in place of one with the same key. -/
def place (p : Pool) (t : TaskInstance) : Pool :=
  let rest := p.tasks.filter (·.key != t.key)
  let (before, after) := rest.span fun u => p.keyBefore u.key t.key
  { p with tasks := before ++ t :: after }

/-- Records the instance's flows, state, submit number and flow wait in its trace. -/
def touch (p : Pool) (t : TaskInstance) : Pool :=
  let r := (p.trace? t.key).getD {}
  (p.setTrace t.key { r with flows := t.flows, state := t.state.name, submitNum := t.submitNum,
                             flowWait := t.flowWait }).markDirty t.key

/-- The cursor of a task. -/
def cursor? (p : Pool) (name : String) : Option (Option Point) := p.cursors.lookup name

/-- Sets the cursor of a task. -/
def setCursor (p : Pool) (name : String) (c : Option Point) : Pool :=
  if p.cursors.any (·.1 == name) then
    { p with cursors := p.cursors.map fun e => if e.1 == name then (name, c) else e }
  else { p with cursors := p.cursors ++ [(name, c)] }

/-- The oldest cycle point the pool works on: that of the first live instance, of a deferred
spawn, or of a cursor; the runahead limit is measured from it. -/
def base (p : Pool) : Option Point :=
  let candidates := (p.tasks.head?.map (·.point)).toList ++ p.deferred.map (·.1.point) ++
    p.cursors.filterMap (·.2)
  candidates.foldl (fun best q =>
    match best with
    | some b => if q.before b then some q else some b
    | none => some q) none

/-- The newest point that may be spawned. -/
def horizon (p : Pool) : Option Point := p.base.map (·.add p.wf.runahead)

/-- The point lies after the stop point. -/
def beyondStop (p : Pool) (pt : Point) : Bool :=
  match p.stopPoint with
  | some s => pt.after s
  | none => false

/-- Takes an instance out of the live ones, announcing why. -/
def delete (p : Pool) (t : TaskInstance) (reason : String) : Pool :=
  { p with tasks := p.tasks.filter (·.key != t.key), events := p.events ++ [.removed t.key reason] }

/-- Takes an instance out for good: its trace is marked removed, so it is not spawned again in
the same flows. -/
def remove (p : Pool) (t : TaskInstance) (reason : String) : Pool :=
  let p := p.touch t
  let p := p.setTrace t.key { (p.trace? t.key).getD {} with removed := true }
  p.delete t reason

/-- Adds a new instance: held when past the hold point or asked for before; its trace starts
afresh. -/
def insert (p : Pool) (t : TaskInstance) : Pool :=
  let k := t.key
  let pastHold := match p.holdPoint with
    | some h => t.point.after h
    | none => false
  let t := if pastHold || p.holds.contains k then { t with held := true } else t
  let p := { p with holds := p.holds.erase k }
  let p := p.place t
  let p := p.setTrace k { flows := t.flows, state := t.state.name, outputs := t.emitted }
  { p.markDirty k with events := p.events ++ [.spawned k] }

/-- Applies what the traces say to a new instance: outputs already emitted satisfy its terms,
and outputs of finished instances that were never emitted make them impossible. -/
def satisfyFromHistory (p : Pool) (t : TaskInstance) : TaskInstance :=
  (t.prereqs.flatMap (·.keys)).foldl (fun t key =>
    match p.trace? ⟨key.point, key.task⟩ with
    | none => t
    | some r =>
      if r.outputs.contains key.output then (t.satisfy key).1
      else if r.isFinal then (t.markImpossible key).1
      else t) t

/-- The union of the flows of all live instances, or flow 1 when there are none. -/
def activeFlows (p : Pool) : FlowSet :=
  let flows := p.tasks.foldl (fun f t => f.merge t.flows) FlowSet.none
  if flows.isNone then FlowSet.ofList [1] else flows

end Pool

end CycleSched
