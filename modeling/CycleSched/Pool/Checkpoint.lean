import CycleSched.Pool.Commands

/-!
# Checkpoints

A pool is saved as three lists: a record of every live instance, the spawn records (each task's
cursor, the spawns deferred by the runahead limit, and the holds waiting for their instance),
and the traces changed since they were last saved. Restoring rebuilds each instance's
prerequisites from the workflow and loads only their term states, so a checkpoint taken
against another graph is refused rather than misread.
-/

namespace CycleSched

open CycleSched.Graph

/-- The saved form of a prerequisite: its term digits and whether it was satisfied. -/
structure SavedPrereq where
  bits : String
  satisfied : Bool
  deriving Repr

/-- The saved form of a live instance. Times are nanoseconds since the epoch. -/
structure SavedTask where
  point : String
  name : String
  flows : String
  flowWait : Bool := false
  state : String
  held : Bool := false
  forced : Bool := false
  killed : Bool := false
  submitNum : Int := 0
  tryNum : Int := 0
  submitRetries : Int := 0
  runMode : String := ""
  jobId : String := ""
  platform : String := ""
  retryAt : Instant := .zero
  submittedAt : Instant := .zero
  startedAt : Instant := .zero
  outputs : List String := []
  prereqs : List SavedPrereq := []
  deriving Repr

/-- The kinds of spawn record. -/
inductive SpawnKind where
  /-- The next point at which a task's sequences spawn it; no point once they are exhausted. -/
  | cursor
  /-- A spawn held back by the runahead limit. -/
  | deferred
  /-- A hold on an instance not yet spawned. -/
  | hold
  /-- A kind this library does not know, by its name. -/
  | other (name : String)
  deriving DecidableEq, Repr

/-- The name of a spawn kind as saved. -/
def SpawnKind.name : SpawnKind → String
  | cursor => "cursor"
  | deferred => "deferred"
  | hold => "hold"
  | other n => n

/-- The spawn kind of a saved name. -/
def SpawnKind.ofName (s : String) : SpawnKind :=
  match s with
  | "cursor" => cursor
  | "deferred" => deferred
  | "hold" => hold
  | _ => other s

/-- One saved spawn record. -/
structure SpawnRecord where
  kind : SpawnKind
  point : String
  name : String
  flows : String
  deriving Repr

/-- The saved form of a trace. -/
structure SavedTrace where
  point : String
  name : String
  flows : String
  state : String
  submitNum : Int := 0
  outputs : List String := []
  flowWait : Bool := false
  removed : Bool := false
  deriving Repr

namespace TaskInstance

/-- The saved form of an instance. -/
def save (t : TaskInstance) : SavedTask :=
  { point := t.point.toText, name := t.task.name, flows := t.flows.toText, flowWait := t.flowWait,
    state := t.state.name, held := t.held, forced := t.forced, killed := t.killed,
    submitNum := t.submitNum, tryNum := t.tryNum, submitRetries := t.submitRetries,
    runMode := t.runMode, jobId := t.jobId, platform := t.platform, retryAt := t.retryAt,
    submittedAt := t.submittedAt, startedAt := t.startedAt, outputs := t.emitted,
    prereqs := t.prereqs.map fun pr => ⟨pr.bitsText, pr.satisfied⟩ }

/-- Reads saved term digits. -/
def readBits (s : String) : Option (List Bit) := s.toList.mapM Bit.ofDigit?

/-- Rebuilds an instance of `d` at `point` from its saved form. The prerequisites come from the
workflow; the saved term states must fit them, and the saved outputs must be declared. -/
def restore (d : TaskDef) (point initial : Point) (r : SavedTask) : Except Failure TaskInstance := do
  let ctx := "task " ++ r.point ++ "/" ++ r.name ++ ": "
  let some state := State.ofName? r.state
    | throw (.plain (ctx ++ "unknown state " ++ Text.quote r.state))
  let flows ← (FlowSet.parse r.flows).mapError (.within ctx)
  let t := make d point initial flows
  if r.prereqs.length != t.prereqs.length then
    throw (.plain (ctx ++ toString r.prereqs.length ++ " prerequisites in checkpoint, " ++
      toString t.prereqs.length ++ " in workflow"))
  let prereqs ← (t.prereqs.zip r.prereqs).mapM fun (pr, saved) => do
    let some bits := readBits saved.bits
      | throw (.plain (ctx ++ "bad prerequisite bits " ++ Text.quote saved.bits))
    (pr.load bits saved.satisfied).mapError (.within ctx)
  let t ← r.outputs.foldlM (fun (t : TaskInstance) o =>
    if d.hasOutput o then pure (t.emit [o]).1
    else throw (.plain (ctx ++ "unknown output " ++ Text.quote o))) { t with prereqs }
  return { t with flowWait := r.flowWait, state, held := r.held, forced := r.forced,
                  killed := r.killed, submitNum := r.submitNum, tryNum := max r.tryNum 1,
                  submitRetries := r.submitRetries, runMode := r.runMode, jobId := r.jobId,
                  platform := r.platform, retryAt := r.retryAt,
                  submittedAt := r.submittedAt, startedAt := r.startedAt }

end TaskInstance

namespace Pool

/-- The saved form of every live instance, in pool order. -/
def records (p : Pool) : List SavedTask := p.tasks.map TaskInstance.save

/-- Keys by cycle point, then by task name. -/
def sortKeys (ks : List TaskKey) : List TaskKey :=
  sortBy (fun a b => a.point.before b.point || (a.point.val == b.point.val && decide (a.name ≤ b.name))) ks

/-- The spawn records: each task's cursor in declaration order, then the deferred spawns and
the waiting holds, each by point and name. -/
def spawnRecords (p : Pool) : List SpawnRecord :=
  let cursors := p.wf.order.filterMap fun name =>
    (p.cursor? name).map fun c =>
      { kind := .cursor, point := (c.map Point.toText).getD "", name, flows := "[1]" }
  let deferred := (sortKeys (p.deferred.map (·.1))).map fun k =>
    { kind := .deferred, point := k.point.toText, name := k.name,
      flows := ((p.deferred.lookup k).getD FlowSet.none).toText }
  let holds := (sortKeys p.holds).map fun k =>
    { kind := .hold, point := k.point.toText, name := k.name, flows := "[]" }
  cursors ++ deferred ++ holds

/-- The saved form of a trace, outputs by name. -/
def saveTrace (k : TaskKey) (r : Trace) : SavedTrace :=
  { point := k.point.toText, name := k.name, flows := r.flows.toText, state := r.state,
    submitNum := r.submitNum, outputs := sortBy (fun a b => decide (a ≤ b)) r.outputs,
    flowWait := r.flowWait, removed := r.removed }

/-- The traces changed since the last call, by point and name, and the pool with none marked
changed. -/
def drainHistory (p : Pool) : Pool × List SavedTrace :=
  let out := (sortKeys p.dirty).filterMap fun k => (p.trace? k).map (saveTrace k)
  ({ p with dirty := [] }, out)

/-- Reads the key of a saved task name and point. -/
def readKey (p : Pool) (name point : String) : Except Failure TaskKey :=
  if (p.wf.task? name).isNone then
    .error (.plain ("task " ++ Text.quote name ++ " is not in the workflow definition"))
  else
    match Point.parse p.wf.context.mode point with
    | .ok pt => .ok ⟨pt, name⟩
    | .error e => .error (.within ("task " ++ point ++ "/" ++ name ++ ": ") e)

/-- Applies a step to each item in turn until one fails, keeping what the earlier ones did. -/
def applyEach {α : Type} (p : Pool) (xs : List α) (f : Pool → α → Except Failure Pool) :
    Pool × Except Failure Unit :=
  xs.foldl (fun acc x =>
    match acc with
    | (p, .ok ()) =>
      match f p x with
      | .ok p => (p, .ok ())
      | .error e => (p, .error e)
    | r => r) (p, .ok ())

/-- Loads a saved trace. -/
def loadTrace (p : Pool) (h : SavedTrace) : Except Failure Pool := do
  let k ← p.readKey h.name h.point
  let flows ← FlowSet.parse h.flows
  let outputs := h.outputs.foldl (fun os o => if os.contains o then os else os ++ [o]) []
  return p.setTrace k { flows, state := h.state, submitNum := h.submitNum, outputs,
                        flowWait := h.flowWait, removed := h.removed }

/-- Loads a saved instance and brings its trace up to date with it. -/
def loadTask (p : Pool) (r : SavedTask) : Except Failure Pool := do
  let k ← p.readKey r.name r.point
  if (p.live? k).isSome then throw (.plain ("task " ++ k.id ++ " appears twice"))
  let some d := p.wf.task? k.name | pure p
  let t ← TaskInstance.restore d k.point p.wf.context.initial r
  let p := p.place t
  let tr := (p.trace? k).getD {}
  return p.setTrace k { tr with flows := t.flows, state := t.state.name, submitNum := t.submitNum,
                                removed := false,
                                outputs := tr.outputs ++ t.emitted.filter (!tr.outputs.contains ·) }

/-- Loads a spawn record. -/
def loadSpawn (p : Pool) (s : SpawnRecord) : Except Failure Pool := do
  match s.kind with
  | .cursor =>
    if (p.wf.task? s.name).isNone then
      throw (.plain ("spawn cursor for unknown task " ++ Text.quote s.name))
    if s.point.isEmpty then return p.setCursor s.name none
    let k ← p.readKey s.name s.point
    return p.setCursor s.name (some k.point)
  | .deferred =>
    let k ← p.readKey s.name s.point
    let flows ← FlowSet.parse s.flows
    return { p with deferred := p.deferred.filter (·.1 != k) ++ [(k, flows)] }
  | .hold =>
    let k ← p.readKey s.name s.point
    return if p.holds.contains k then p else { p with holds := p.holds ++ [k] }
  | .other n => throw (.plain ("unknown spawn record kind " ++ Text.quote n))

/-- The pool emptied of instances, cursors, deferred spawns, holds and traces, with the next
flow number taken from a checkpoint when it is a real one. -/
def cleared (p : Pool) (nextFlow : Int) : Pool :=
  { p with tasks := [], cursors := [], deferred := [], holds := [], history := [], dirty := [],
           nextFlow := if nextFlow > 1 then nextFlow else p.nextFlow }

/-- Tasks without a cursor, such as tasks added since the checkpoint, start from their first
point. -/
def addMissingCursors (p : Pool) : Pool :=
  p.wf.tasks.foldl (fun p d =>
    if (p.cursor? d.name).isSome then p else p.setCursor d.name d.firstPoint) p

/-- Replaces the pool's contents with a checkpoint: traces first, then instances, then spawn
records, then cursors for tasks that have none. A record that does not fit the workflow stops
the restore; what was loaded before it stays. -/
def restore (p : Pool) (tasks : List SavedTask) (spawn : List SpawnRecord)
    (history : List SavedTrace) (nextFlow : Int) : Pool × Except Failure Unit :=
  match applyEach (p.cleared nextFlow) history loadTrace with
  | (p, .error e) => (p, .error e)
  | (p, .ok ()) =>
    match applyEach p tasks loadTask with
    | (p, .error e) => (p, .error e)
    | (p, .ok ()) =>
      match applyEach p spawn loadSpawn with
      | (p, .error e) => (p, .error e)
      | (p, .ok ()) => (p.addMissingCursors, .ok ())

end Pool

end CycleSched
