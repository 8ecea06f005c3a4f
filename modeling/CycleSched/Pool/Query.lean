import CycleSched.Pool.Progress

/-!
# What the pool is ready for

The instances that may be submitted now, those whose clock expiry has passed, and whether the
run is complete or stalled.
-/

namespace CycleSched

open CycleSched.Graph

namespace Pool

/-- A task with a clock trigger waits until its point plus the offset. -/
def clockReady (t : TaskInstance) (now : Instant) : Bool :=
  match t.task.clockTrigger with
  | some off => t.point.mode != .gregorian || !now.before ((t.point.add off).time)
  | none => true

/-- The waiting instances that may be submitted now, in pool order. Holds and retry delays
apply; clock triggers and queue limits apply unless the instance was forced. -/
def ready (p : Pool) (now : Instant) : List TaskInstance :=
  let count (active : List (String × Nat)) (q : String) := (active.lookup q).getD 0
  let bump (active : List (String × Nat)) (q : String) :=
    (q, count active q + 1) :: active.filter (·.1 != q)
  let active := p.tasks.foldl (fun active t =>
    if t.state.isActive && t.task.queue != "" then bump active t.task.queue else active) []
  (p.tasks.foldl (fun (active, out) t =>
    if !t.isReady now then (active, out)
    else if t.forced then (active, out ++ [t])
    else if !clockReady t now then (active, out)
    else
      let q := t.task.queue
      if q == "" then (active, out ++ [t])
      else
        let limit := (p.wf.queues.lookup q).getD 0
        if limit > 0 && (count active q : Int) ≥ limit then (active, out)
        else (bump active q, out ++ [t])) (active, [])).2

/-- Expires waiting instances whose clock expiry time has passed; answers them. -/
def expireTasks (p : Pool) (now : Instant) : Pool × List TaskInstance :=
  let due := p.tasks.filter fun t =>
    match t.task.clockExpire with
    | some off => t.state == .waiting && !t.forced && t.point.mode == .gregorian &&
        ((t.point.add off).time).before now
    | none => false
  let p := due.foldl (fun p t =>
    let t := (p.live? t.key).getD t
    match t.expire now with
    | .ok (t, outs) => p.processOutputs t outs
    | .error _ => p) p
  (p, due)

/-- Nothing is left to do: no live or deferred instance, and every sequence is exhausted. -/
def isComplete (p : Pool) : Bool :=
  p.tasks.isEmpty && p.deferred.isEmpty && p.cursors.all (·.2.isNone)

/-- No job is active and no waiting instance may run. -/
def isStalled (p : Pool) : Bool :=
  !p.tasks.isEmpty && !p.tasks.any fun t =>
    t.state.isActive || (t.state == .waiting && (t.forced || t.prereqsSatisfied))

/-- Why the pool is stalled: finished instances missing required outputs, and waiting ones
with unmet prerequisites. -/
def stallReport (p : Pool) : List String :=
  p.tasks.filterMap fun t =>
    if t.state.isFinal then
      some (t.id ++ " did not complete required outputs " ++ ", ".intercalate t.missing)
    else if t.state == .waiting && !t.prereqsSatisfied then
      some (t.id ++ " is waiting on " ++ ", ".intercalate t.unsatisfied)
    else none

end Pool

end CycleSched
