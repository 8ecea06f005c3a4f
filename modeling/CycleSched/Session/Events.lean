import CycleSched.Session.Basic

/-!
# Job events

A job's events are applied to its instance only while that instance is live with an active job
of the same submission that was not killed; any other event is stale. Each applied event is
followed by processing the outputs it emitted. Simulated jobs finish when the simulation clock
passes their run length, sending their messages and then success or failure.
-/

namespace CycleSched

open CycleSched.Graph

namespace Pool

/-- The live instance with an id, its point read in the workflow's mode. -/
def get? (p : Pool) (id : TaskId) : Option TaskInstance :=
  match Point.parse p.wf.context.mode id.point with
  | .ok pt => p.live? ⟨pt, id.name⟩
  | .error _ => none

end Pool

/-- The events of a job that finishes: its messages, then success or failure. -/
def SimulatedJob.finalEvents (j : SimulatedJob) : List JobEvent :=
  j.messages.map (fun m => { task := j.task, submitNum := j.submitNum, kind := .message,
                             jobId := j.jobId, message := m }) ++
    [{ task := j.task, submitNum := j.submitNum, kind := if j.fails then .failed else .succeeded,
       jobId := j.jobId }]

namespace Session

/-- A fresh session over a compiled workflow, with an empty pool. -/
def make (wf : Workflow) : Session := { wf, pool := Pool.make wf }

/-- The live instance with an id given as text. -/
def find? (s : Session) (id : String) : Option TaskInstance :=
  match TaskId.parse id with
  | .ok tid => s.pool.get? tid
  | .error _ => none

/-- The retry delays the settings give an instance now, or none when they do not resolve. -/
def settingsDelays (s : Session) (t : TaskInstance) : RetryDelays :=
  match s.broadcasts.resolve t.task t.point with
  | .ok c => let (e, b) := c.retryDelays; ⟨e, b⟩
  | .error _ => {}

/-- The retry delays of the instance's current submission, as remembered when it was submitted,
else as the settings give them. -/
def delaysOf (s : Session) (t : TaskInstance) : RetryDelays :=
  (s.delays.lookup (t.id, t.submitNum)).getD (s.settingsDelays t)

/-- Puts a changed instance back and processes the outputs it emitted. -/
def settle (s : Session) (t : TaskInstance) (outputs : List String) : Session :=
  { s with pool := s.pool.processOutputs t outputs }

/-- Applies one job event. -/
def applyEvent (s : Session) (ev : JobEvent) : Session × EventOutcome :=
  match s.find? ev.task with
  | none => (s, .stale)
  | some t =>
    if t.submitNum != ev.submitNum || !t.state.isActive || t.killed then (s, .stale)
    else
      let now := s.now
      let t := if ev.kind == .started && t.jobId == "" then { t with jobId := ev.jobId } else t
      let step : Except Failure (TaskInstance × List String × Bool) :=
        match ev.kind with
        | .submitted =>
          if t.state == .preparing then (t.submitted ev.jobId now).map fun (t, o) => (t, o, false)
          else .ok (t, [], false)
        | .started => (t.started now).map fun (t, o) => (t, o, false)
        | .succeeded => (t.succeeded now).map fun (t, o) => (t, o, false)
        | .failed => t.failed now (s.delaysOf t).execution
        | .submissionFailed => t.submitFailed now (s.delaysOf t).submission
        | .message => let (t, o) := t.message ev.message; .ok (t, o, false)
      match step with
      | .error e => ({ s with pool := s.pool.update t }, .refused e)
      | .ok (t, outs, retrying) => (s.settle t outs, .applied outs retrying)

/-- Applies events in order, answering each with how it was taken. -/
def applyEvents (s : Session) (evs : List JobEvent) : Session × List (JobEvent × EventOutcome) :=
  evs.foldl (fun (s, out) ev => let (s, o) := s.applyEvent ev; (s, out ++ [(ev, o)])) (s, [])

/-- Moves the simulation clock forward, finishing the jobs whose time has come by finish time
and then submission order; answers the jobs still running and each event applied. The step is
counted in nanoseconds in a 64-bit word, so a step too long for it wraps around. -/
def advance (s : Session) (seconds : Int) : Session × Nat × List (JobEvent × EventOutcome) :=
  let clock := s.sim.clock + (Int64.ofInt seconds * 1000000000).toInt
  let due := sortBy (fun a b => a.due ≤ b.due) (s.sim.jobs.filter (·.due ≤ clock))
  let left := s.sim.jobs.filter (·.due > clock)
  let s := { s with sim := { s.sim with clock, jobs := left } }
  let (s, evs) := s.applyEvents (due.flatMap (·.finalEvents))
  (s, left.length, evs)

/-- Cancels a simulated job; its last events are never sent. -/
def cancelJob (s : Session) (jobId : String) : Session :=
  { s with sim := { s.sim with jobs := s.sim.jobs.filter (·.jobId != jobId) } }

end Session

end CycleSched
