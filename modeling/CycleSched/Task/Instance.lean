import CycleSched.Task.Prereq
import CycleSched.Task.Flow
import CycleSched.Task.Id
import CycleSched.Instant
import CycleSched.Sorting

/-!
# Task instances

A task instance is a task at a cycle point in one or more flows. It holds the job lifecycle:
its state, submit and try numbers, the outputs emitted so far (in emission order, never taken
back), its prerequisites, and the times of its job. Every state change follows the state graph;
a change the graph does not allow is refused and leaves the instance as it was.

A time not yet set is the zero instant, and a time that lands on the zero instant reads as not
set.
-/

namespace CycleSched

open CycleSched.Graph

/-- A task at a cycle point. -/
structure TaskInstance where
  task : TaskDef
  point : Point
  flows : FlowSet
  /-- Children are not spawned until the flow catches up with the instance. -/
  flowWait : Bool := false
  state : State := .waiting
  held : Bool := false
  submitNum : Int := 0
  tryNum : Int := 1
  runMode : String := ""
  jobId : String := ""
  platform : String := ""
  prereqs : List Prereq := []
  /-- Emitted outputs in emission order. -/
  emitted : List String := []
  /-- Set by a manual trigger: the instance runs whatever its prerequisites. -/
  forced : Bool := false
  /-- When a waiting instance may be resubmitted after a failure. -/
  retryAt : Instant := .zero
  submitRetries : Int := 0
  submittedAt : Instant := .zero
  startedAt : Instant := .zero
  finishedAt : Instant := .zero
  /-- The execution time limit of the current job, in nanoseconds. -/
  timeLimit : Int := 0
  /-- The job was killed by command; its late events are stale. -/
  killed : Bool := false

namespace TaskInstance

/-- A waiting instance with its prerequisites at `point`; terms before `initial` are dropped. -/
def make (d : TaskDef) (point initial : Point) (flows : FlowSet) : TaskInstance :=
  { task := d, point, flows, prereqs := (d.depsAt point).map fun dep => Prereq.make dep point initial }

/-- The id `point/name`. -/
def id (t : TaskInstance) : String := t.point.toText ++ "/" ++ t.task.name

/-- The id as a pair of texts. -/
def taskId (t : TaskInstance) : TaskId := ⟨t.point.toText, t.task.name⟩

/-- Every prerequisite is satisfied. -/
def prereqsSatisfied (t : TaskInstance) : Bool := t.prereqs.all (·.satisfied)

/-- Some prerequisite can never be satisfied, and the instance was not forced. -/
def prereqsImpossible (t : TaskInstance) : Bool := !t.forced && t.prereqs.any (·.isImpossible)

/-- Sets every term naming `k`; reports a change. -/
def satisfy (t : TaskInstance) (k : OutputKey) : TaskInstance × Bool :=
  let rs := t.prereqs.map (·.satisfy k)
  ({ t with prereqs := rs.map (·.1) }, rs.any (·.2))

/-- Marks every unmet term naming `k` impossible; reports a change. -/
def markImpossible (t : TaskInstance) (k : OutputKey) : TaskInstance × Bool :=
  let rs := t.prereqs.map (·.markImpossible k)
  ({ t with prereqs := rs.map (·.1) }, rs.any (·.2))

/-- A waiting, unheld instance whose retry time has come and whose prerequisites are met (or
that was forced) may be submitted at `now`. -/
def isReady (t : TaskInstance) (now : Instant) : Bool :=
  t.state == .waiting && !t.held &&
    (t.retryAt.isZero || !now.before t.retryAt) &&
    (t.forced || t.prereqsSatisfied)

/-- The required outputs not yet emitted, sorted. -/
def missing (t : TaskInstance) : List String := t.task.required.filter (!t.emitted.contains ·)

/-- Every required output was emitted. -/
def isComplete (t : TaskInstance) : Bool := t.missing.isEmpty

/-- The built-in outputs, then the custom ones by name, that were not emitted. -/
def notEmitted (t : TaskInstance) : List String :=
  (builtinOutputs ++ sortBy (fun a b => decide (a ≤ b)) (t.task.outputs.map (·.1))).filter
    (!t.emitted.contains ·)

/-- The outputs a finished instance can no longer emit; none while it may still run. -/
def unemittable (t : TaskInstance) : List String := if t.state.isFinal then t.notEmitted else []

/-- The unmet prerequisite terms. -/
def unsatisfied (t : TaskInstance) : List String := t.prereqs.flatMap (·.unmet)

/-- Moves to state `next`; staying in the same state is allowed. -/
def moveTo (t : TaskInstance) (next : State) : Except Failure TaskInstance :=
  if t.state == next then .ok t
  else if t.state.canMoveTo next then .ok { t with state := next }
  else .error (.transition t.id t.state next)

/-- Emits outputs not emitted before; answers the new ones. -/
def emit (t : TaskInstance) (names : List String) : TaskInstance × List String :=
  names.foldl (fun (t, out) n =>
    if t.emitted.contains n then (t, out) else ({ t with emitted := t.emitted ++ [n] }, out ++ [n]))
    (t, [])

/-- Moves to preparing, with the next submit number and the run mode of the submission. -/
def prepare (t : TaskInstance) (mode : String) : Except Failure TaskInstance := do
  let t ← t.moveTo .preparing
  return { t with submitNum := t.submitNum + 1, runMode := mode, retryAt := .zero, killed := false }

/-- Records a successful submission. -/
def submitted (t : TaskInstance) (jobId : String) (now : Instant) : Except Failure (TaskInstance × List String) := do
  let t ← t.moveTo .submitted
  return { t with jobId, submittedAt := now }.emit ["submitted"]

/-- Records a failed submission: back to waiting while a submission retry delay remains, else
submit-failed. Answers the new outputs and whether it will retry. -/
def submitFailed (t : TaskInstance) (now : Instant) (delays : List Int64) :
    Except Failure (TaskInstance × List String × Bool) := do
  match delays[t.submitRetries.toNat]? with
  | some d =>
    if t.submitRetries < 0 then failHere t else
    let t ← t.moveTo .waiting
    return ({ t with retryAt := now.add d, submitRetries := t.submitRetries + 1, forced := false }, [], true)
  | none => failHere t
where
  failHere (t : TaskInstance) : Except Failure (TaskInstance × List String × Bool) := do
    let t ← t.moveTo .submitFailed
    let (t, out) := { t with finishedAt := now, forced := false }.emit ["submit-failed"]
    return (t, out, false)

/-- Records the start of the job; a start that overtakes the submission implies it. -/
def started (t : TaskInstance) (now : Instant) : Except Failure (TaskInstance × List String) := do
  let (t, out) ← if t.state == .preparing then t.submitted t.jobId now else pure (t, [])
  let t ← t.moveTo .running
  let (t, more) := { t with startedAt := now }.emit ["started"]
  return (t, out ++ more)

/-- Records success, emitting the outputs it implies first. -/
def succeeded (t : TaskInstance) (now : Instant) : Except Failure (TaskInstance × List String) := do
  let t ← t.moveTo .succeeded
  return { t with finishedAt := now, forced := false }.emit ["submitted", "started", "succeeded"]

/-- Records failure: back to waiting with the next try while an execution retry delay remains,
else failed. Answers the new outputs and whether it will retry. -/
def failed (t : TaskInstance) (now : Instant) (delays : List Int64) :
    Except Failure (TaskInstance × List String × Bool) := do
  let tries := t.tryNum - 1
  match (if tries < 0 then none else delays[tries.toNat]?) with
  | some d =>
    let t ← t.moveTo .waiting
    let (t, out) := { t with retryAt := now.add d, tryNum := t.tryNum + 1, forced := false }.emit
      ["submitted", "started"]
    return (t, out, true)
  | none =>
    let t ← t.moveTo .failed
    let (t, out) := { t with finishedAt := now, forced := false }.emit
      ["submitted", "started", "failed"]
    return (t, out, false)

/-- Handles a job message: the custom output it names, if any, is emitted. -/
def message (t : TaskInstance) (msg : String) : TaskInstance × List String :=
  match t.task.outputForMessage msg with
  | some name => t.emit [name]
  | none => (t, [])

/-- Moves a waiting instance to expired. -/
def expire (t : TaskInstance) (now : Instant) : Except Failure (TaskInstance × List String) := do
  let t ← t.moveTo .expired
  return { t with finishedAt := now }.emit ["expired"]

/-- Kills the job: a job not yet started becomes submit-failed, a running one (or a waiting
one with a retry pending) failed, without retries, and the instance is held. A waiting
instance without a retry pending is only held. -/
def kill (t : TaskInstance) (now : Instant) : Except Failure (TaskInstance × List String) := do
  let finish (t : TaskInstance) (next : State) (o : String) : Except Failure (TaskInstance × List String) := do
    let t ← t.moveTo next
    let (t, out) := t.emit [o]
    return ({ t with killed := true, held := true, retryAt := .zero, finishedAt := now }, out)
  match t.state with
  | .preparing | .submitted => finish t .submitFailed "submit-failed"
  | .running => finish t .failed "failed"
  | .waiting =>
    if t.retryAt.isZero then return ({ t with held := true }, [])
    finish t .failed "failed"
  | _ => return (t, [])

/-- Forces outputs as if the job had emitted them. Setting `succeeded` or `failed` on an
instance without an active job also finishes it. On a refused change the outputs set before it
stay set. -/
def setOutputs (t : TaskInstance) (names : List String) (now : Instant) :
    TaskInstance × Except Failure (List String) :=
  let finishAs (t : TaskInstance) (next : State) : Except Failure TaskInstance :=
    if !t.state.isActive && t.state != next then
      (t.moveTo next).map fun t => { t with finishedAt := now }
    else .ok t
  let step (acc : TaskInstance × Except Failure (List String)) (name : String) :=
    match acc with
    | (t, .error e) => (t, .error e)
    | (t, .ok out) =>
      match name with
      | "succeeded" =>
        match finishAs t .succeeded with
        | .error e => (t, .error e)
        | .ok t => let (t, o) := t.emit ["submitted", "started", "succeeded"]; (t, .ok (out ++ o))
      | "failed" =>
        match finishAs t .failed with
        | .error e => (t, .error e)
        | .ok t => let (t, o) := t.emit ["submitted", "started", "failed"]; (t, .ok (out ++ o))
      | _ => let (t, o) := t.emit [name]; (t, .ok (out ++ o))
  match names.foldl step (t, .ok []) with
  | (t, .ok out) => ({ t with retryAt := .zero }, .ok out)
  | r => r

/-- Forces the instance to run once more whatever its prerequisites; a finished one goes back to
waiting. An instance with an active job is refused. -/
def trigger (t : TaskInstance) : Except Failure TaskInstance := do
  if t.state.isActive then throw (.rejected "trigger" (t.id ++ " is already " ++ t.state.name))
  let t ← t.moveTo .waiting
  return { t with forced := true, held := false, retryAt := .zero }

/-- Returns an instance whose job was lost to waiting, to be submitted again with the same try
number. -/
def requeue (t : TaskInstance) : Except Failure TaskInstance := do
  if !t.state.isActive then return t
  let t ← t.moveTo .waiting
  return { t with jobId := "", retryAt := .zero }

/-- The instance is finished without all its required outputs. -/
def isIncomplete (t : TaskInstance) : Bool := t.state.isFinal && !t.isComplete

end TaskInstance

end CycleSched
