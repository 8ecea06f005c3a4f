/-!
# Task states, run modes and built-in outputs

A task instance moves through eight states. `waiting` is where it starts and where a retry
returns it; `preparing`, `submitted` and `running` have a job in flight; `succeeded`, `failed`,
`submit-failed` and `expired` are final until the instance is triggered again. The allowed moves
form a fixed graph (`State.canMoveTo`).
-/

namespace CycleSched

/-- The lifecycle state of a task instance. -/
inductive State where
  | waiting
  | preparing
  | submitted
  | submitFailed
  | running
  | succeeded
  | failed
  | expired
  deriving DecidableEq, Repr, Inhabited

namespace State

/-- The name of a state as it is written. -/
def name : State → String
  | waiting => "waiting"
  | preparing => "preparing"
  | submitted => "submitted"
  | submitFailed => "submit-failed"
  | running => "running"
  | succeeded => "succeeded"
  | failed => "failed"
  | expired => "expired"

/-- Every state, in the order of `State`. -/
def all : List State :=
  [waiting, preparing, submitted, submitFailed, running, succeeded, failed, expired]

/-- The state with a given name. -/
def ofName? (s : String) : Option State :=
  all.find? (·.name == s)

/-- No further job can start without the instance being triggered again. -/
def isFinal : State → Bool
  | succeeded | failed | submitFailed | expired => true
  | _ => false

/-- A job is in flight. -/
def isActive : State → Bool
  | preparing | submitted | running => true
  | _ => false

/-- The states a state may move to, in their listed order. -/
def successors : State → List State
  | waiting => [preparing, expired, succeeded, failed]
  | preparing => [submitted, submitFailed, waiting, failed]
  | submitted => [running, succeeded, failed, submitFailed, waiting]
  | running => [succeeded, failed, waiting]
  | succeeded => [waiting]
  | failed => [waiting, succeeded]
  | submitFailed => [waiting, succeeded]
  | expired => [waiting]

/-- Whether a state may move to another. -/
def canMoveTo (s t : State) : Bool :=
  (successors s).contains t

end State

/-- How a job of a task instance is run. -/
inductive RunMode where
  | live
  | dummy
  | simulation
  | skip
  deriving DecidableEq, Repr, Inhabited

namespace RunMode

/-- The name of a run mode as it is written. -/
def name : RunMode → String
  | live => "live"
  | dummy => "dummy"
  | simulation => "simulation"
  | skip => "skip"

/-- The run mode with a given name. -/
def ofName? : String → Option RunMode
  | "live" => some live
  | "dummy" => some dummy
  | "simulation" => some simulation
  | "skip" => some skip
  | _ => none

/-- A ghost mode completes without a real job. -/
def isGhost : RunMode → Bool
  | simulation | skip => true
  | _ => false

end RunMode

/-- The built-in outputs, in the order they are emitted. -/
def builtinOutputs : List String :=
  ["submitted", "submit-failed", "started", "succeeded", "failed", "expired"]

/-- Whether an output name is built in. -/
def isBuiltinOutput (o : String) : Bool :=
  builtinOutputs.contains o

end CycleSched
