import CycleSched.Session.Events

/-!
# Running a session

`Session.run` takes one step: it sets the clock when the step carries a time, carries out the
step, and answers its result with the instances spawned and removed meanwhile. A step that is
refused part way keeps what it did before the refusal, as the pool does.
-/

namespace CycleSched

open CycleSched.Graph

namespace Session

/-- A refusal for one failure. -/
def refuse (e : Failure) : Except Refusal Reply := .error (.failures [e])

/-- Reads a point in the workflow's mode. -/
def readPoint (s : Session) (text : String) : Except Failure Point :=
  Point.parse s.wf.context.mode text

/-- Carries out a step on the live instance with an id. -/
def onInstance (s : Session) (id : String) (k : TaskInstance → Session × Except Refusal Reply) :
    Session × Except Refusal Reply :=
  match TaskId.parse id with
  | .error e => (s, refuse e)
  | .ok tid =>
    match s.pool.get? tid with
    | none => (s, .error (.notFound (tid.toText ++ " is not in the pool")))
    | some t => k t

/-- Reads retry delays given as durations. -/
def readDelays : Option (List String) → Except Failure (Option (List Int64))
  | none => .ok none
  | some ds => (ds.mapM Interval.parseDuration).map some

/-- Processes a change's outcome: on success the outputs are processed and answered. -/
def finish (s : Session) (r : Except Failure (TaskInstance × List String × Bool)) :
    Session × Except Refusal Reply :=
  match r with
  | .error e => (s, refuse e)
  | .ok (t, outs, retrying) => (s.settle t outs, .ok (.outputs outs retrying))

/-- A change that never retries. -/
def once (r : Except Failure (TaskInstance × List String)) :
    Except Failure (TaskInstance × List String × Bool) :=
  r.map fun (t, o) => (t, o, false)

/-- Runs a whole job on an instance: preparation, submission, start, and success or failure,
processing the outputs after each report and releasing the runahead limit at the end. -/
def wholeJob (s : Session) (t : TaskInstance) (success : Bool) (jobId : String)
    (given : Option (List String)) : Session × Except Refusal Reply :=
  match readDelays given with
  | .error e => (s, refuse e)
  | .ok given =>
    let now := s.now
    let k := t.key
    let current (s : Session) (t : TaskInstance) := (s.pool.live? k).getD t
    match t.prepare "live" with
    | .error e => (s, refuse e)
    | .ok t =>
      let s := { s with pool := s.pool.update t }
      match t.submitted jobId now with
      | .error e => (s, refuse e)
      | .ok (t, o1) =>
        let s := s.settle t o1
        let t := current s t
        match t.started now with
        | .error e => (s, refuse e)
        | .ok (t, o2) =>
          let s := s.settle t o2
          let t := current s t
          let last : Except Failure (TaskInstance × List String × Bool) :=
            if success then once (t.succeeded now)
            else t.failed now (given.getD (s.settingsDelays t).execution)
          match last with
          | .error e => (s, refuse e)
          | .ok (t, o3, retrying) =>
            let s := s.settle t o3
            ({ s with pool := s.pool.releaseRunahead }, .ok (.outputs (o1 ++ o2 ++ o3) retrying))

/-- Applies a report or command to one live instance. -/
def applyChange (s : Session) (t : TaskInstance) : Change → Session × Except Refusal Reply
  | .prepare mode =>
    match t.prepare mode with
    | .ok t => ({ s with pool := s.pool.update t }, .ok (.submitNum t.submitNum))
    | .error e => (s, refuse e)
  | .submitted jobId => s.finish (once (t.submitted jobId s.now))
  | .started => s.finish (once (t.started s.now))
  | .succeeded => s.finish (once (t.succeeded s.now))
  | .failed given =>
    match readDelays given with
    | .error e => (s, refuse e)
    | .ok given => s.finish (t.failed s.now (given.getD (s.settingsDelays t).execution))
  | .submitFailed given =>
    match readDelays given with
    | .error e => (s, refuse e)
    | .ok given => s.finish (t.submitFailed s.now (given.getD (s.settingsDelays t).submission))
  | .message text => s.finish (once (.ok (t.message text)))
  | .expire => s.finish (once (t.expire s.now))
  | .requeue => s.finish (once (t.requeue.map (·, [])))
  | .kill =>
    let simulated := t.state.isActive && t.runMode == "simulation" && t.jobId != ""
    match t.kill s.now with
    | .error e => (s, refuse e)
    | .ok (u, outs) =>
      let s := if simulated then s.cancelJob t.jobId else s
      (s.settle u outs, .ok (.outputs outs false))
  | .setOutputs names =>
    match t.setOutputs names s.now with
    | (t, .ok outs) => (s.settle t outs, .ok (.outputs outs false))
    | (t, .error e) => ({ s with pool := s.pool.update t }, refuse e)
  | .trigger => s.finish (once (t.trigger.map (·, [])))
  | .wholeJob success jobId given => s.wholeJob t success jobId given

/-- The messages a simulated job of a task sends: those of its custom outputs, by name. -/
def simulatedMessages (d : TaskDef) : List String :=
  ((sortBy (fun a b => decide (a.1 ≤ b.1)) d.outputs).map (·.2))

/-- Submits an instance with its effective settings: prepares it in the submission's mode,
sets its platform and time limit, remembers its retry delays, and carries out a skipped or
simulated job at once. Live and dummy jobs are left preparing. -/
def submit (s : Session) (t : TaskInstance) (workflowMode : String) : Session × Except Refusal Reply :=
  match s.broadcasts.resolve t.task t.point with
  | .error es => (s, .error (.failures es))
  | .ok rt =>
    let mode := rt.submissionMode workflowMode
    match t.prepare mode with
    | .error e => (s, refuse e)
    | .ok t =>
      let limit : Int :=
        if mode == "live" then rt.timeLimit.toInt
        else if mode == "dummy" || mode == "simulation" then rt.simulatedTimeLimit.toInt
        else 0
      let t := { t with platform := rt.platform, timeLimit := limit }
      let handlers := if mode == "skip" && rt.skip.disableHandlers then [] else rt.events.handlers
      let (e, b) := rt.retryDelays
      let key := (t.id, t.submitNum)
      let s := { s with pool := s.pool.update t,
                        delays := (s.delays.filter (·.1 != key)) ++ [(key, ⟨e, b⟩)] }
      let report : SubmitReport :=
        { mode, submitNum := t.submitNum, timeLimit := limit, handlers, dispatched := none }
      let event (jobId : String) (kind : JobEventKind) (message : String := "") : JobEvent :=
        { task := t.id, submitNum := t.submitNum, kind, jobId, message }
      if mode == "skip" then
        let evs := [event "skip" .submitted, event "skip" .started] ++
          (rt.skipOutputs t.task).map fun o =>
            if o == "succeeded" then event "skip" .succeeded
            else if o == "failed" then event "skip" .failed
            else event "skip" .message ((t.task.outputs.lookup o).getD "")
        let (s, outs) := s.applyEvents evs
        (s, .ok (.submitted { report with dispatched := some ("skip", outs) }))
      else if mode == "simulation" then
        let n := s.sim.started + 1
        let jobId := "sim-" ++ toString n
        let job : SimulatedJob :=
          { jobId, task := t.id, submitNum := t.submitNum,
            due := s.sim.clock + rt.simulatedRunLength.toInt,
            messages := simulatedMessages t.task,
            fails := rt.simulationFails s.wf.context.mode t.point t.tryNum }
        let s := { s with sim := { s.sim with started := n, jobs := s.sim.jobs ++ [job] } }
        let (s, outs) := s.applyEvents [event jobId .submitted, event jobId .started]
        (s, .ok (.submitted { report with dispatched := some (jobId, outs) }))
      else (s, .ok (.submitted report))

/-- The effective settings of a task at a point, with the values a submission derives from
them. -/
def resolveSettings (s : Session) (id workflowMode : String) (tryNum : Int) : Except Refusal Reply :=
  match TaskId.parse id with
  | .error e => refuse e
  | .ok tid =>
    match s.wf.task? tid.name with
    | none => .error (.notFound ("no task " ++ Text.quote tid.name))
    | some d =>
      match s.readPoint tid.point with
      | .error e => refuse e
      | .ok pt =>
        match s.broadcasts.resolve d pt with
        | .error es => .error (.failures es)
        | .ok rt =>
          let (e, b) := rt.retryDelays
          let fails := rt.simulationFails s.wf.context.mode pt tryNum
          .ok (.settings rt
            { execDelays := e, submitDelays := b, timeLimit := rt.timeLimit,
              mode := rt.submissionMode workflowMode, skipOutputs := rt.skipOutputs d,
              simRunLength := rt.simulatedRunLength, simTimeLimit := rt.simulatedTimeLimit,
              simFails := fails, dummyScript := rt.dummyScript fails })

/-- What the pool says about itself. -/
def status (p : Pool) : PoolStatus :=
  { size := p.tasks.length, complete := p.isComplete, stalled := p.isStalled,
    stallReport := p.stallReport, nextFlow := p.nextFlow,
    base := p.base, horizon := p.horizon, holdPoint := p.holdPoint, stopPoint := p.stopPoint }

/-- Adds saved traces to those saved before, each in place of an older one for its instance. -/
def remember (saved : List (String × SavedTrace)) (rs : List SavedTrace) : List (String × SavedTrace) :=
  rs.foldl (fun saved r =>
    let k := r.point ++ "/" ++ r.name
    if saved.any (·.1 == k) then saved.map fun e => if e.1 == k then (k, r) else e
    else saved ++ [(k, r)]) saved

/-- Checkpoints the pool and the broadcasts and restarts from the checkpoint. -/
def restart (s : Session) : Session × Except Refusal Reply :=
  let (p, drained) := s.pool.drainHistory
  let saved := remember s.saved drained
  let history := (sortBy (fun a b => decide (a.1 ≤ b.1)) saved).map (·.2)
  match (Pool.make s.wf).restore p.records p.spawnRecords history p.nextFlow with
  | (p, .error e) => ({ s with pool := p, saved }, refuse e)
  | (p, .ok ()) =>
    ({ s with pool := p, saved, broadcasts := ({} : Broadcasts).load s.broadcasts.sorted s.broadcasts.seq },
      .ok .nothing)

/-- The answer of a command on the pool that refuses or changes it. -/
def command (s : Session) {α : Type} (r : Except Failure (Pool × α)) (reply : α → Reply) :
    Session × Except Refusal Reply :=
  match r with
  | .ok (p, a) => ({ s with pool := p }, .ok (reply a))
  | .error e => (s, refuse e)

/-- The answer of a command that keeps what it did before a refusal. -/
def partly (s : Session) (r : Pool × Except Failure (List TaskInstance)) : Session × Except Refusal Reply :=
  match r with
  | (p, .ok ts) => ({ s with pool := p }, .ok (.ids (ts.map (·.id))))
  | (p, .error e) => ({ s with pool := p }, refuse e)

/-- Carries out one step. -/
def perform (s : Session) : Step → Session × Except Refusal Reply
  | .start => ({ s with pool := s.pool.start }, .ok .nothing)
  | .releaseRunahead => ({ s with pool := s.pool.releaseRunahead }, .ok .nothing)
  | .ready => (s, .ok (.ids ((s.pool.ready s.now).map (·.id))))
  | .expireTasks =>
    let (p, due) := s.pool.expireTasks s.now
    ({ s with pool := p }, .ok (.ids (due.map (·.id))))
  | .hold pats => s.command (s.pool.hold pats) .count
  | .release pats => s.command (s.pool.release pats) .count
  | .holdAfter text => s.command ((s.readPoint text).map fun pt => (s.pool.setHoldPoint pt, ())) fun _ => .nothing
  | .releaseHoldPoint => ({ s with pool := s.pool.releaseHoldPoint }, .ok .nothing)
  | .stopAfter text => s.command ((s.readPoint text).map fun pt => (s.pool.setStopPoint pt, ())) fun _ => .nothing
  | .trigger pats flow wait => s.partly (s.pool.trigger pats flow wait)
  | .setOutputs pats outs flow => s.partly (s.pool.setOutputs pats outs flow s.now)
  | .remove pats => s.command (s.pool.removeMatching pats) .count
  | .select pats =>
    let (matched, unmatched) := s.pool.select pats
    (s, .ok (.selection (matched.map (·.id)) unmatched))
  | .status => (s, .ok (.status (status s.pool)))
  | .records => (s, .ok (.records s.pool.records))
  | .spawnRecords => (s, .ok (.spawnRecords s.pool.spawnRecords))
  | .drainHistory =>
    let (p, drained) := s.pool.drainHistory
    ({ s with pool := p, saved := remember s.saved drained }, .ok (.traces drained))
  | .restart => s.restart
  | .restore tasks spawn history nextFlow =>
    match (Pool.make s.wf).restore tasks spawn history nextFlow with
    | (p, .ok ()) => ({ s with pool := p, saved := [] }, .ok .nothing)
    | (p, .error e) => ({ s with pool := p, saved := [] }, refuse e)
  | .broadcastSet points scopes settings =>
    match s.broadcasts.set s.wf s.now points scopes settings with
    | .ok (b, es) => ({ s with broadcasts := b }, .ok (.broadcasts es))
    | .error e => (s, refuse e)
  | .broadcastClear points scopes keys =>
    match s.broadcasts.clear s.wf s.now points scopes keys with
    | .ok (b, es) => ({ s with broadcasts := b }, .ok (.broadcasts es))
    | .error e => (s, refuse e)
  | .broadcastExpire text =>
    match s.readPoint text with
    | .ok pt => let (b, n) := s.broadcasts.expire s.wf s.now pt; ({ s with broadcasts := b }, .ok (.count n))
    | .error e => (s, refuse e)
  | .broadcastEntries => (s, .ok (.broadcastTable s.broadcasts.sorted s.broadcasts.seq))
  | .broadcastChanges =>
    let (b, cs) := s.broadcasts.drainChanges
    ({ s with broadcasts := b }, .ok (.changes cs))
  | .resolve id mode tryNum => (s, s.resolveSettings id mode tryNum)
  | .submit id mode => s.onInstance id fun t => s.submit t mode
  | .simAdvance seconds =>
    let (s, pending, evs) := s.advance seconds
    (s, .ok (.advanced pending evs))
  | .change id c => s.onInstance id fun t => s.applyChange t c
  | .unknown name => (s, .error (.unknownStep name))

/-- Takes one step, at `now` seconds when given, and answers it with the instances spawned and
removed meanwhile. -/
def run (s : Session) (now : Option Int) (step : Step) : Session × StepAnswer :=
  let s := match now with
    | some n => { s with now := Instant.ofUnix (Int64.ofInt n) }
    | none => s
  let s := { s with pool := { s.pool with events := [] } }
  let (s, result) := s.perform step
  let p := s.pool
  let spawned := sortBy (fun a b => !p.keyBefore b a) (p.events.filterMap fun
    | .spawned k => some k
    | .removed .. => none)
  let removed := sortBy (fun a b => decide (a ≤ b)) (p.events.filterMap fun
    | .removed k reason => some (k.id ++ " " ++ reason)
    | .spawned _ => none)
  ({ s with pool := { p with events := [] } }, ⟨result, spawned.map (·.id), removed⟩)

end Session

end CycleSched
