import CycleSched.Graph.Task
import CycleSched.Config.Workflow

/-!
# Compiled workflows

A compiled workflow holds its task definitions in declaration order, its cycling bounds, the
runahead limit, the largest forward trigger offset and the queue limits. The questions the
scheduler asks of it are answered here: which triggers a task's output feeds, which points come
before the start, and which task instances no other instance can spawn.
-/

namespace CycleSched.Graph

/-- A trigger that names an output of some parent task: in which child, dependency and place. -/
structure ChildRef where
  child : String
  dep : Dependency
  trigger : Nat

/-- A compiled workflow. -/
structure Workflow where
  name : String
  config : WorkflowConfig
  context : Context
  /-- Task definitions in declaration order. -/
  tasks : List TaskDef
  /-- How far ahead of the oldest active point tasks may be spawned. -/
  runahead : Interval
  /-- The largest forward offset of a relative trigger. -/
  maxFutureOffset : Interval
  stopPoint : Option Point
  holdPoint : Option Point
  /-- Queue limits by queue name, in name order; zero means no limit. -/
  queues : List (String × Int)

namespace Workflow

/-- The definition of a task. -/
def task? (w : Workflow) (name : String) : Option TaskDef := w.tasks.find? (·.name == name)

/-- The task names in declaration order. -/
def order (w : Workflow) : List String := w.tasks.map (·.name)

/-- Every runtime namespace, implicit tasks included, in declaration order. -/
def namespaces (w : Workflow) : List String := w.config.runtime.names

/-- The triggers that wait for `output` of `parent`, by child in declaration order, then by
dependency and trigger. -/
def children (w : Workflow) (parent output : String) : List ChildRef :=
  w.tasks.flatMap fun d => d.deps.flatMap fun dep =>
    (List.range dep.triggers.length).zip dep.triggers |>.filterMap fun (i, t) =>
      if t.task == parent && t.output == output then some ⟨d.name, dep, i⟩ else none

/-- The point comes before the initial cycle point. -/
def isPreInitial (w : Workflow) (p : Point) : Bool := p.before w.context.initial

/-- The task at `p` has no relative trigger that another instance could satisfy, so it is
spawned by its sequence rather than by a parent's output. -/
def isParentless (w : Workflow) (d : TaskDef) (p : Point) : Bool :=
  (d.depsAt p).all fun dep => dep.triggers.all fun t =>
    t.point.isSome || w.isPreInitial (t.pointFor p)

end Workflow

end CycleSched.Graph
