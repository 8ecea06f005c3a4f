import CycleSched.Pool.Query
import CycleSched.Text.Blank
import CycleSched.Text.Decimal

/-!
# Commands on the pool

Operators select instances by `point/name` globs; an exact id that matches no live instance
names a task at a point of its sequences, which some commands create. Holding and releasing
act on live instances and on holds waiting for their instance; triggering forces instances to
run; setting outputs acts as if the job had emitted them; removing takes instances out for
good.

A command that is refused part way leaves the changes it made before the refusal, so each one
answers the pool with its outcome.
-/

namespace CycleSched

open CycleSched.Graph

namespace Pool

/-- The live instances matching any of the patterns, in pool order, each once, and the
patterns that matched none. -/
def select (p : Pool) (patterns : List String) : List TaskInstance × List String :=
  let (matched, unmatched) := patterns.foldl (fun (matched, unmatched) pat =>
    let hits := p.tasks.filter (·.taskId.matchesGlob pat)
    if hits.isEmpty then (matched, unmatched ++ [pat])
    else (matched ++ hits.filter (fun t => !matched.any (·.key == t.key)), unmatched)) ([], [])
  (sortBy (fun a b => !p.keyBefore b.key a.key) matched, unmatched)

/-- Reads an exact id as a task and a point on one of its sequences. -/
def resolveId (p : Pool) (s : String) : Except Failure (TaskDef × Point) := do
  let id ← TaskId.parse s
  if s.toList.any (fun c => c == '*' || c == '?' || c == '[') then
    throw (.plain (s ++ " matches no live task"))
  let some d := p.wf.task? id.name
    | throw (.plain ("no task " ++ Text.quote id.name ++ " in the workflow"))
  let pt ← Point.parse p.wf.context.mode id.point
  if !d.onSequence pt then throw (.plain (pt.toText ++ " is not on any sequence of " ++ d.name))
  return (d, pt)

/-- The refusal of a command none of whose patterns matched. -/
def unmatchedRefusal (command : String) (unmatched : List String) : Failure :=
  .rejected command ("no matching task for " ++ ", ".intercalate unmatched)

/-- Sets whether a live instance is held, recording it in its trace. -/
def setHeld (p : Pool) (t : TaskInstance) (held : Bool) : Pool :=
  if t.held == held then p
  else
    let t := { t with held }
    (p.update t).touch t

/-- Holds the matching live instances, and the instances of exact ids when they are spawned.
Answers how many were held, or refuses when nothing matched. -/
def hold (p : Pool) (patterns : List String) : Except Failure (Pool × Nat) :=
  let (matched, unmatched) := p.select patterns
  let (future, bad) := unmatched.foldl (fun (future, bad) pat =>
    match p.resolveId pat with
    | .ok (d, pt) => (future ++ [(⟨pt, d.name⟩ : TaskKey)], bad)
    | .error _ => (future, bad ++ [pat])) ([], [])
  if matched.isEmpty && future.isEmpty then .error (unmatchedRefusal "hold" bad)
  else
    let p := matched.foldl (fun p t => p.setHeld t true) p
    let p := future.foldl (fun p k =>
      if p.holds.contains k then p else { p with holds := p.holds ++ [k] }) p
    .ok (p, matched.length + future.length)

/-- Releases the matching held instances and the waiting holds of exact ids. -/
def release (p : Pool) (patterns : List String) : Except Failure (Pool × Nat) :=
  let (matched, unmatched) := p.select patterns
  let (p, n) := unmatched.foldl (fun (p, n) pat =>
    match p.resolveId pat with
    | .ok (d, pt) =>
      let k : TaskKey := ⟨pt, d.name⟩
      if p.holds.contains k then ({ p with holds := p.holds.erase k }, n + 1) else (p, n)
    | .error _ => (p, n)) (p, 0)
  if matched.isEmpty && n == 0 then .error (unmatchedRefusal "release" unmatched)
  else .ok (matched.foldl (fun p t => p.setHeld t false) p, matched.length + n)

/-- Holds every instance after the point, now and when spawned. -/
def setHoldPoint (p : Pool) (pt : Point) : Pool :=
  let p := { p with holdPoint := some pt }
  p.tasks.foldl (fun p t => if t.point.after pt then p.setHeld t true else p) p

/-- Clears the hold point and releases every held instance. -/
def releaseHoldPoint (p : Pool) : Pool :=
  let p := { p with holdPoint := none }
  p.tasks.foldl (fun p t => p.setHeld t false) p

/-- Stops spawning after the point; instances already past it stay. -/
def setStopPoint (p : Pool) (pt : Point) : Pool := { p with stopPoint := some pt }

/-- The flows that a flow option gives an instance now in `existing` flows: its own flows
(`all` or nothing), one new flow shared by the whole command (`new`), no flow (`none`), or a
list of flow numbers, which the next new flow then follows. -/
def flowsFor (p : Pool) (opt : String) (existing : FlowSet) (newFlow : Option Int) :
    Pool × Option Int × Except Failure FlowSet :=
  if opt == "" || opt == "all" then
    (p, newFlow, .ok (if existing.isNone then p.activeFlows else existing))
  else if opt == "new" then
    match newFlow with
    | some n => (p, newFlow, .ok (FlowSet.ofList [n]))
    | none =>
      -- flow numbers are 64-bit words, and zero stands for no new flow yet
      let n := p.nextFlow
      ({ p with nextFlow := Int.bmod (n + 1) (Nat.pow 2 64) }, if n == 0 then none else some n,
        .ok (FlowSet.ofList [n]))
  else if opt == "none" then (p, newFlow, .ok FlowSet.none)
  else
    let bad : Failure := .plain ("bad flow " ++ Text.quote opt ++ ": want all, new, none or flow numbers")
    let step (acc : Pool × Except Failure (List Int)) (f : String) :=
      match acc with
      | (p, .error e) => (p, .error e)
      | (p, .ok nums) =>
        match (Text.readDecimal (Text.trimBlank f)).inRange? with
        | some n =>
          if n.toInt < 1 then (p, .error bad)
          else
            let p :=
              if n.toInt ≥ p.nextFlow then { p with nextFlow := Int.bmod (n.toInt + 1) (Nat.pow 2 64) }
              else p
            (p, .ok (nums ++ [n.toInt]))
        | none => (p, .error bad)
    let (p, r) := ((opt.toList.splitOn ',').map String.ofList).foldl step (p, .ok [])
    (p, newFlow, r.map FlowSet.ofList)

/-- An instance a command acts on: a live one, or a task at a point to create. -/
inductive Target where
  | live (t : TaskInstance)
  | absent (d : TaskDef) (pt : Point)

/-- The task a target names. -/
def Target.task : Target → TaskDef
  | .live t => t.task
  | .absent d _ => d

/-- The matching live instances, then the instances that the unmatched exact ids name. An
unmatched pattern that names no task at a point refuses the command. -/
def targets (p : Pool) (command : String) (patterns : List String) : Except Failure (List Target) :=
  let (matched, unmatched) := p.select patterns
  let named : Except Failure (List Target) := unmatched.mapM fun pat =>
    match p.resolveId pat with
    | .ok (d, pt) => .ok (Target.absent d pt)
    | .error e => .error (Failure.rejected command e.message)
  named.map (matched.map .live ++ ·)

/-- The state of a command working through its targets: the pool, the flow that `new` gave,
and the instances acted on. -/
structure Sweep where
  pool : Pool
  newFlow : Option Int := none
  done : List TaskInstance := []

/-- Forces the targets to run now whatever their prerequisites, creating those not live. With
`wait`, they spawn no children until their flow catches up with them. A target with an active
job refuses the whole command. -/
def trigger (p : Pool) (patterns : List String) (flow : String) (wait : Bool) :
    Pool × Except Failure (List TaskInstance) :=
  match p.targets "trigger" patterns with
  | .error e => (p, .error e)
  | .ok ts =>
    let busy := ts.findSome? fun
      | .live t => if t.state.isActive then some t else none
      | .absent .. => none
    match busy with
    | some t => (p, .error (.rejected "trigger" (t.id ++ " is already " ++ t.state.name)))
    | none =>
      let step (acc : Except (Pool × Failure) Sweep) (tg : Target) : Except (Pool × Failure) Sweep := do
        let s ← acc
        let p := s.pool
        let existing := match tg with
          | .live t => ((p.live? t.key).getD t).flows
          | .absent .. => FlowSet.none
        let (p, newFlow, flows) := p.flowsFor flow existing s.newFlow
        let flows ← match flows with
          | .ok f => pure f
          | .error e => throw (p, .rejected "trigger" e.message)
        let (p, t) := match tg with
          | .live t =>
            let t := (p.live? t.key).getD t
            let t := if flow != "" && flow != "all" then { t with flows } else t
            (p.update t, t)
          | .absent d pt => p.create d pt flows
        let t ← match t.trigger with
          | .ok t => pure { t with flowWait := wait }
          | .error e => throw (p, e)
        let p := (p.update t).touch t
        return { pool := p, newFlow, done := s.done ++ [t] }
      match ts.foldl step (.ok { pool := p }) with
      | .ok s => (s.pool, .ok s.done)
      | .error (p, e) => (p, .error e)

/-- The outputs that setting no output in particular sets: the required built-in outputs in
their order, then the required custom outputs by name, or else `succeeded`. -/
def requiredOutputs (d : TaskDef) : List String :=
  let builtin := builtinOutputs.filter d.required.contains
  let custom := sortBy (fun a b => decide (a ≤ b)) (d.required.filter (!isBuiltinOutput ·))
  match builtin ++ custom with
  | [] => ["succeeded"]
  | names => names

/-- Marks outputs of the targets as emitted, as if their jobs had produced them, creating the
targets not live and acting on the outputs. An output a target's task does not declare refuses
the whole command. -/
def setOutputs (p : Pool) (patterns outputs : List String) (flow : String) (now : Instant) :
    Pool × Except Failure (List TaskInstance) :=
  match p.targets "set" patterns with
  | .error e => (p, .error e)
  | .ok ts =>
    let undeclared := ts.findSome? fun tg =>
      (outputs.find? (!tg.task.hasOutput ·)).map (tg.task.name, ·)
    match undeclared with
    | some (name, o) =>
      (p, .error (.rejected "set" ("task " ++ Text.quote name ++ " has no output " ++ Text.quote o)))
    | none =>
      let step (acc : Except (Pool × Failure) Sweep) (tg : Target) : Except (Pool × Failure) Sweep := do
        let s ← acc
        let (p, newFlow, t) ← match tg with
          | .live t => pure (s.pool, s.newFlow, (s.pool.live? t.key).getD t)
          | .absent d pt =>
            let (p, newFlow, flows) := s.pool.flowsFor flow FlowSet.none s.newFlow
            match flows with
            | .ok flows => let (p, t) := p.create d pt flows; pure (p, newFlow, t)
            | .error e => throw (p, .rejected "set" e.message)
        let names := if outputs.isEmpty then requiredOutputs t.task else outputs
        let (t, emitted) := t.setOutputs names now
        let p := p.update t
        let emitted ← match emitted with
          | .ok o => pure o
          | .error e => throw (p, .rejected "set" e.message)
        return { pool := p.processOutputs t emitted, newFlow, done := s.done ++ [t] }
      match ts.foldl step (.ok { pool := p }) with
      | .ok s => (s.pool, .ok s.done)
      | .error (p, e) => (p, .error e)

/-- Takes the matching instances out for good without running them. An instance with an active
job refuses the whole command. -/
def removeMatching (p : Pool) (patterns : List String) : Except Failure (Pool × Nat) :=
  let (matched, unmatched) := p.select patterns
  if matched.isEmpty then .error (unmatchedRefusal "remove" unmatched)
  else match matched.find? (·.state.isActive) with
    | some t => .error (.rejected "remove" (t.id ++ " has an active job; kill it first"))
    | none => .ok (matched.foldl (fun p t => p.remove t "removed by request") p, matched.length)

end Pool

end CycleSched
