import CycleSched.Graph.Task

/-!
# Same-point deadlocks

A relative trigger without an offset makes a task wait on another task at its own cycle point.
If such waits form a cycle, the tasks on it, and every task that waits on them at the same point,
can never run; so can a task that waits on a name no task has. Only these waits are checked.
Triggers with an offset wait on another cycle point. Absolute triggers are left out, though one
that names the point a task runs at makes it wait there: `foo[^] => foo` waits on itself at the
initial point.
-/

namespace CycleSched.Graph

/-- The tasks a task waits on at its own cycle point, each once, in trigger order. -/
def TaskDef.samePointParents (d : TaskDef) : List String :=
  (d.deps.flatMap fun dep => dep.triggers.filterMap fun t =>
    if t.point.isNone && t.offset.isZero then some t.task else none).eraseDups

/-- The tasks that can never run: set aside, again and again, every task all of whose waits are
on tasks already set aside; those left over are stuck. A wait on a name the table lacks is never
met. Sorted by name. -/
def stuckTasks (waits : List (String × List String)) : List String :=
  let rec go : Nat → List String → List String
    | 0, left => left
    | n + 1, left =>
      let next := left.filter fun t =>
        ((waits.lookup t).getD []).any fun u => left.contains u || (waits.lookup u).isNone
      if next.length == left.length then left else go n next
  (go waits.length (waits.map (·.1))).mergeSort fun a b => decide (a ≤ b)

/-- Refuses a set of tasks with a same-point cycle, naming every stuck task. -/
def checkDeadlock (tasks : List TaskDef) : Except Failure Unit :=
  match stuckTasks (tasks.map fun d => (d.name, d.samePointParents)) with
  | [] => .ok ()
  | stuck => .error (.deadlock stuck)

end CycleSched.Graph
