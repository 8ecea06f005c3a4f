import CycleSched.Graph.Formula
import CycleSched.Cycle.Sequence
import CycleSched.Settings.Tree
import CycleSched.Task.State

/-!
# Task definitions

A compiled task: the sequences it runs on, and for each sequence of the graph that gives it
prerequisites, a dependency: the triggers it waits for and the condition over them. A trigger
names an output of a task at a cycle point, given relative to the dependent task's point or
absolutely.
-/

namespace CycleSched.Graph

/-- An output of a task at a cycle point that a dependent task waits for. -/
structure Trigger where
  task : String
  output : String := ""
  /-- The offset from the dependent task's point; zero for an absolute trigger. -/
  offset : Interval := .zero
  /-- The point of an absolute trigger. -/
  point : Option Point := none
  optional : Bool := false
  /-- The reference as written in the graph. -/
  text : String := ""
  deriving Repr

/-- The point of the parent task that a trigger names, for a dependent task at `p`. -/
def Trigger.pointFor (t : Trigger) (p : Point) : Point :=
  match t.point with
  | some q => q
  | none => if t.offset.isZero then p else p.add t.offset

/-- A condition over a dependency's triggers, each named by its index. -/
inductive Condition where
  | trigger (i : Nat)
  | all (parts : List Condition)
  | any (parts : List Condition)
  deriving Repr

/-- The condition written with `#i` for trigger `i` and parenthesised `&` and `|` groups. -/
def Condition.toText : Condition → String
  | .trigger i => "#" ++ toString i
  | .all parts => "(" ++ " & ".intercalate (texts parts) ++ ")"
  | .any parts => "(" ++ " | ".intercalate (texts parts) ++ ")"
where
  texts : List Condition → List String
    | [] => []
    | c :: rest => c.toText :: texts rest

/-- The prerequisites of a task on one sequence of the graph. -/
structure Dependency where
  seq : Sequence
  condition : Option Condition := none
  triggers : List Trigger := []
  /-- The graph lines the condition was built from. -/
  lines : List String := []
  deriving Repr

/-- A compiled task. -/
structure TaskDef where
  name : String
  /-- Declaration order among the runtime namespaces. -/
  index : Nat
  sequences : List Sequence := []
  deps : List Dependency := []
  /-- The inheritance chain, the task first and `root` last. -/
  namespaces : List String := []
  /-- The merged runtime settings. -/
  settings : SettingTable := []
  /-- Custom outputs and their messages. -/
  outputs : List (String × String) := []
  /-- The outputs the task must emit to be complete. -/
  required : List String := []
  queue : String := ""
  clockTrigger : Option Interval := none
  clockExpire : Option Interval := none

namespace TaskDef

/-- The task has an instance at `p`. -/
def onSequence (d : TaskDef) (p : Point) : Bool := d.sequences.any (·.contains p)

/-- The dependencies that apply at `p`. -/
def depsAt (d : TaskDef) (p : Point) : List Dependency := d.deps.filter (·.seq.contains p)

/-- The earliest of some candidate points; of equal ones the first. -/
def earliest (ps : List (Option Point)) : Option Point :=
  ps.foldl (fun best q =>
    match best, q with
    | none, q => q
    | some b, some q => if q.before b then some q else some b
    | b, none => b) none

/-- The first point on any of the task's sequences. -/
def firstPoint (d : TaskDef) : Option Point := earliest (d.sequences.map (·.first))

/-- The first point after `p` on any of the task's sequences. -/
def nextPoint (d : TaskDef) (p : Point) : Option Point := earliest (d.sequences.map (·.next p))

/-- The custom output a job message emits: the one with that message or that name. -/
def outputForMessage (d : TaskDef) (msg : String) : Option String :=
  let m := Text.trimBlank msg
  (d.outputs.find? fun (name, text) => text == m || name == m).map (·.1)

/-- The output is built in or declared. -/
def hasOutput (d : TaskDef) (name : String) : Bool :=
  isBuiltinOutput name || d.outputs.any (·.1 == name)

end TaskDef

end CycleSched.Graph
