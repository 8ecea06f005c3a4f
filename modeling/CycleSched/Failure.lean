import CycleSched.Task.State
import CycleSched.Text.Quoted

/-!
# Failures

Every operation that can go wrong returns a `Failure`: a cause with the data the message needs.
A failure may be wrapped in context (`within`), which lengthens its text and keeps its kind.
The kind of a failure is the earliest, in the order of `Failure.Kind`, among the causes in its
chain.
-/

namespace CycleSched

/-- A failure's cause, with the data its message shows. -/
inductive Failure where
  /-- A cycle point, interval or recurrence that does not follow the grammar of its mode. -/
  | malformed (value reason : String)
  /-- A graph expression that cannot be compiled; `sec` names its recurrence, or is empty. -/
  | graph (sec expr reason : String)
  /-- Tasks that depend on each other at the same cycle point. -/
  | deadlock (tasks : List String)
  /-- A broadcast with a bad point, namespace or setting. -/
  | broadcastConflict (ns point key reason : String)
  /-- A command that cannot be applied. -/
  | rejected (command reason : String)
  /-- A state change that the state graph does not allow. -/
  | transition (task : String) (src dst : State)
  /-- A checkpoint that cannot be turned back into a pool. -/
  | restart (reason : String)
  /-- Settings whose values do not fit the types of their fields, one line per value. -/
  | typeMismatch (lines : List String)
  /-- An integer division by zero, which stops the whole operation. -/
  | divisionByZero
  /-- Any other failure, by its text. -/
  | plain (text : String)
  /-- A failure with a context written before its text. -/
  | within (context : String) (inner : Failure)
  deriving Repr, Inhabited

namespace Failure

/-- The kinds of failure, in the order in which a chain's kind is chosen. -/
inductive Kind where
  | malformed
  | graph
  | deadlock
  | broadcastConflict
  | rejected
  | transition
  | restart
  | typeMismatch
  | general
  | halt
  deriving DecidableEq, Repr

/-- The name of a kind as it is reported. -/
def Kind.name : Kind → String
  | .malformed => "MalformedCyclePointError"
  | .graph => "GraphCompileError"
  | .deadlock => "PrerequisiteDeadlockError"
  | .broadcastConflict => "BroadcastConflictError"
  | .rejected => "CommandRejectedError"
  | .transition => "InvalidTransitionError"
  | .restart => "RestartError"
  | .typeMismatch => "YAMLTypeError"
  | .general => "Error"
  | .halt => "Panic"

/-- The kind of a failure: that of its innermost cause. -/
def kind : Failure → Kind
  | malformed .. => .malformed
  | graph .. => .graph
  | deadlock .. => .deadlock
  | broadcastConflict .. => .broadcastConflict
  | rejected .. => .rejected
  | transition .. => .transition
  | restart .. => .restart
  | typeMismatch .. => .typeMismatch
  | divisionByZero => .halt
  | plain .. => .general
  | within _ inner => inner.kind

/-- The text of a failure. -/
def message : Failure → String
  | malformed value reason => s!"malformed cycle point {Text.quote value}: {reason}"
  | graph sec expr reason =>
    if sec.isEmpty then s!"graph {Text.quote expr}: {reason}"
    else s!"graph [{sec}] {Text.quote expr}: {reason}"
  | deadlock tasks =>
    "unsatisfiable same-point dependency cycle involving: [" ++ " ".intercalate tasks ++ "]"
  | broadcastConflict ns point key reason => s!"broadcast [{point}/{ns}] {key} rejected: {reason}"
  | rejected command reason => s!"{command} rejected: {reason}"
  | transition task src dst =>
    s!"invalid task state transition: {src.name} → {dst.name} (task {task})"
  | restart reason => reason
  | typeMismatch lines => "yaml: unmarshal errors:\n" ++ "\n".intercalate (lines.map ("  " ++ ·))
  | divisionByZero => "runtime error: integer divide by zero"
  | plain text => text
  | within context inner => context ++ inner.message

end Failure

end CycleSched
