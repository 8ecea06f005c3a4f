import CycleSched.Graph.Workflow
import CycleSched.Graph.Deadlock
import CycleSched.Sorting

/-!
# Compiling a workflow

Compiling checks the graph against the runtime namespaces and builds the task definitions:

1. each graph section is read: its recurrence and the edges of its lines;
2. each task named without an offset is defined, on the sections it appears in; namespaces that
   others inherit from are families and cannot be tasks; with implicit tasks allowed, a task
   without a namespace gets an empty one;
3. each edge adds a condition over triggers to its targets' dependency on that section; every
   trigger must land on a point its parent runs at;
4. outputs referenced without `?` become required, and `succeeded` is required unless failure
   is handled.

All problems of a stage are reported together, and a stage with problems ends the compiling.
-/

namespace CycleSched.Graph

/-- A graph section: a recurrence and the edges of its text. -/
structure Section where
  name : String
  seq : Sequence
  edges : List Edge

/-- A task being compiled: its definition so far, the sections it runs on, and its dependencies
by section. -/
structure Draft where
  task : TaskDef
  sections : List Nat := []
  deps : List (Nat × Dependency) := []

/-- What compiling has built so far. -/
structure Build where
  config : WorkflowConfig
  drafts : List Draft := []
  /-- How each task's outputs are referenced: optionally (true) or as required. -/
  marks : List (String × List (String × Bool)) := []
  errors : List Failure := []
  /-- A division by zero stopped compiling. -/
  halted : Bool := false

/-- A compiling step. -/
abbrev Compiling := StateM Build

/-- Notes a problem with a graph line of a section. -/
def fail (sec expr reason : String) : Compiling Unit :=
  modify fun b => { b with errors := b.errors ++ [.graph sec expr reason] }

/-- The draft of a task, when it is defined. -/
def draft? (name : String) : Compiling (Option Draft) :=
  return (← get).drafts.find? (·.task.name == name)

/-- Stores a draft, in place of the one of the same task. -/
def putDraft (d : Draft) : Compiling Unit :=
  modify fun b =>
    if b.drafts.any (·.task.name == d.task.name) then
      { b with drafts := b.drafts.map fun e => if e.task.name == d.task.name then d else e }
    else { b with drafts := b.drafts ++ [d] }

/-- Reads the graph sections; a bad recurrence or line is a problem and is left out. -/
def readSections (ctx : Context) (graph : GraphSection) :
    List Section × List Failure :=
  graph.recurrences.foldl (fun (secs, errs) key =>
    let text := graph.textOf key
    match ctx.parseSequence key with
    | .error e => (secs, errs ++ [.graph key key ("bad recurrence: " ++ e.message)])
    | .ok seq =>
      let (edges, errs) := (logicalLines text).foldl (fun (edges, errs) line =>
        match parseLine line with
        | .error e => (edges, errs ++ [.graph key line e])
        | .ok es => (edges ++ es, errs)) ([], errs)
      (secs ++ [{ name := key, seq, edges }], errs)) ([], [])

/-- The namespaces some other namespace inherits from. -/
def families (ns : Namespaces) : Except Failure (List String) :=
  ns.names.foldlM (fun acc n => do return acc ++ (← ns.chain n).tail) []

/-- Defines the task a reference names, on section `si`, unless it is a family or unknown. -/
def define (fams : List String) (sec : Section) (si : Nat) (line : String) (r : TaskRef) :
    Compiling Unit := do
  if fams.contains r.name || r.name == rootNamespace then
    fail sec.name line s!"{r.name} is a runtime family, not a task"
    return
  match ← draft? r.name with
  | some d =>
    if !d.sections.contains si then putDraft { d with sections := d.sections ++ [si] }
  | none =>
    let cfg := (← get).config
    if !cfg.runtime.has r.name then
      if !cfg.scheduler.allowImplicitTasks then
        fail sec.name line s!"task {Text.quote r.name} is not defined in runtime"
        return
      modify fun b => { b with config := { b.config with runtime := b.config.runtime.add r.name [] } }
    let cfg := (← get).config
    let ns := cfg.runtime
    match ns.chain r.name, ns.merged r.name with
    | .error e, _ => fail sec.name line e.message
    | _, .error e => fail sec.name line e.message
    | .ok chain, .ok tree =>
      match TaskConfig.ofTable tree with
      | .error e => fail sec.name line s!"runtime {Text.quote r.name}: {e.message}"
      | .ok rc =>
        putDraft {
          task := {
            name := r.name, index := ns.names.idxOf r.name, namespaces := chain, settings := tree,
            outputs := rc.outputs,
            clockTrigger := WorkflowConfig.clockOffset cfg.scheduling.clockTrigger r.name,
            clockExpire := WorkflowConfig.clockOffset cfg.scheduling.clockExpire r.name }
          sections := [si] }

/-- Reads the offset of a reference: an absolute point (from `^`, `$`, or a text without `P`)
or an interval, a sign added when missing. A bad one is a problem. -/
def resolveOffset (ctx : Context) (sec : Section) (line : String) (r : TaskRef) (off : String) :
    Compiling (Option (Interval × Option Point)) := do
  if off.startsWith "^" || off.startsWith "$" || !off.toList.contains 'P' then
    match ctx.resolve off with
    | .ok p => return some (.zero, some p)
    | .error e =>
      fail sec.name line s!"bad cycle point in {r.toText}: {e.message}"
      return none
  else
    let signed := if off.startsWith "+" || off.startsWith "-" then off else "+" ++ off
    match Interval.parse ctx.mode signed with
    | .ok d => return some (d, none)
    | .error e =>
      fail sec.name line s!"bad cycle point offset in {r.toText}: {e.message}"
      return none

/-- Outputs named by trigger qualifiers, the empty qualifier meaning `succeeded`. -/
def outputAlias : String → Option String
  | "" | "succeed" | "succeeded" => some "succeeded"
  | "submit" | "submitted" => some "submitted"
  | "submit-fail" | "submit-failed" => some "submit-failed"
  | "start" | "started" => some "started"
  | "fail" | "failed" => some "failed"
  | "expire" | "expired" => some "expired"
  | _ => none

/-- The output a reference names: a standard one by its qualifier, or a custom output of the
task. -/
def outputName (r : TaskRef) : Compiling (Option String) := do
  match outputAlias r.qualifier with
  | some o => return some o
  | none =>
    match ← draft? r.name with
    | some d => return if d.task.outputs.any (·.1 == r.qualifier) then some r.qualifier else none
    | none => return none

/-- Records that an output is referenced optionally or as required; both at once is a problem. -/
def markOutput (sec : Section) (line task output : String) (optional : Bool) : Compiling Unit := do
  let m := ((← get).marks.lookup task).getD []
  match m.lookup output with
  | some prev =>
    if prev != optional then
      fail sec.name line s!"output {task}:{output} is optional in one place and required in another"
  | none =>
    modify fun b => { b with
      marks := (b.marks.filter (·.1 != task)) ++ [(task, m ++ [(output, optional)])] }

/-- Records the outputs a target of `=>` names, when it names one explicitly. -/
def noteTarget (sec : Section) (line : String) (r : TaskRef) : Compiling Unit := do
  if !r.optional && r.qualifier.isEmpty then return
  if r.qualifier == "finish" then
    markOutput sec line r.name "succeeded" true
    markOutput sec line r.name "failed" true
    return
  match ← outputName r with
  | none => fail sec.name line s!"task {Text.quote r.name} has no output {Text.quote r.qualifier}"
  | some o => markOutput sec line r.name o r.optional

/-- The sequences of the sections a draft runs on. -/
def draftSequences (secs : List Section) (d : Draft) : List Sequence :=
  d.sections.filterMap fun i => (secs[i]?).map (·.seq)

/-- A trigger must name a point the parent runs at, for some dependent point from the initial
point on: an absolute point before the start is always allowed. -/
def landsOnParent (ctx : Context) (sec : Section) (line : String) (r : TaskRef) (t : Trigger)
    (parentSeqs : List Sequence) : Compiling Bool := do
  match t.point with
  | some p =>
    if p.before ctx.initial || parentSeqs.any (·.contains p) then return true
    fail sec.name line s!"{r.toText}: {r.name} does not run at {p.toText}"
    return false
  | none =>
    let shifted := (if t.offset.isZero then sec.seq else sec.seq.shift t.offset).atOrAfter ctx.initial
    if shifted.first.isNone then return true
    for o in parentSeqs do
      match shifted.coincides o with
      | none =>
        modify fun b => { b with halted := true }
        return true
      | some true => return true
      | some false => pure ()
    fail sec.name line s!"{r.toText} never lands on a cycle point of {r.name}"
    return false

/-- Compiles one reference of a formula for the dependent task `child`, adding its triggers. -/
def compileRef (ctx : Context) (secs : List Section) (sec : Section) (line child : String)
    (r : TaskRef) (dep : Dependency) : Compiling (Option Condition × Dependency) := do
  if r.name == child && r.offset.isNone then
    fail sec.name line s!"{child} depends on itself at the same cycle point"
    return (none, dep)
  let base : Trigger := { task := r.name, optional := r.optional, text := r.toText }
  let base ← match r.offset with
    | none => pure (some base)
    | some off => do
      match ← resolveOffset ctx sec line r off with
      | some (d, p) => pure (some { base with offset := d, point := p })
      | none => pure none
  let some base := base | return (none, dep)
  let some parent ← draft? r.name | return (none, dep)
  if !(← landsOnParent ctx sec line r base (draftSequences secs parent)) then return (none, dep)
  if r.qualifier == "finish" then
    markOutput sec line r.name "succeeded" true
    markOutput sec line r.name "failed" true
    let i := dep.triggers.length
    let ts := [{ base with output := "succeeded", optional := true },
      { base with output := "failed", optional := true }]
    return (some (.any [.trigger i, .trigger (i + 1)]), { dep with triggers := dep.triggers ++ ts })
  match ← outputName r with
  | none =>
    fail sec.name line s!"task {Text.quote r.name} has no output {Text.quote r.qualifier}"
    return (none, dep)
  | some o =>
    markOutput sec line r.name o r.optional
    return (some (.trigger dep.triggers.length),
      { dep with triggers := dep.triggers ++ [{ base with output := o }] })

mutual

/-- Compiles a formula for the dependent task `child`; the first failing part stops it. -/
def compileFormula (ctx : Context) (secs : List Section) (sec : Section) (line child : String) :
    Formula → Dependency → Compiling (Option Condition × Dependency)
  | .ref r, dep => compileRef ctx secs sec line child r dep
  | .all parts, dep => do
    let (cs, dep) ← compileParts ctx secs sec line child parts dep
    return (cs.map .all, dep)
  | .any parts, dep => do
    let (cs, dep) ← compileParts ctx secs sec line child parts dep
    return (cs.map .any, dep)

/-- Compiles the parts of a formula in turn. -/
def compileParts (ctx : Context) (secs : List Section) (sec : Section) (line child : String) :
    List Formula → Dependency → Compiling (Option (List Condition) × Dependency)
  | [], dep => return (some [], dep)
  | f :: rest, dep => do
    let (c, dep) ← compileFormula ctx secs sec line child f dep
    match c with
    | none => return (none, dep)
    | some c =>
      let (cs, dep) ← compileParts ctx secs sec line child rest dep
      return (cs.map (c :: ·), dep)

end

/-- Adds an edge's condition to the dependency of one target on section `si`. Conditions from
several lines are all required. -/
def compileTarget (ctx : Context) (secs : List Section) (si : Nat) (sec : Section) (e : Edge)
    (target : TaskRef) : Compiling Unit := do
  noteTarget sec e.line target
  let some lhs := e.lhs | return
  let some d ← draft? target.name | return
  let dep := (d.deps.lookup si).getD { seq := sec.seq }
  let d := if d.deps.any (·.1 == si) then d else { d with deps := d.deps ++ [(si, dep)] }
  putDraft d
  let (c, dep) ← compileFormula ctx secs sec e.line target.name lhs dep
  let dep := match c with
    | none => dep
    | some c => { dep with lines := dep.lines ++ [e.line],
                           condition := some (match dep.condition with
                             | none => c
                             | some old => .all [old, c]) }
  let some d ← draft? target.name | return
  putDraft { d with deps := d.deps.map fun (i, x) => if i == si then (i, dep) else (i, x) }

/-- The required outputs of a task from how they are referenced; `succeeded` is required unless
`failed` is handled. Requiring both, or `failed` optionally and `succeeded` as required, is a
problem. -/
def resolveOutputs (d : Draft) : Compiling Draft := do
  let name := d.task.name
  let refs := ((← get).marks.lookup name).getD []
  let required := refs.filterMap fun (o, opt) => if opt then none else some o
  match refs.lookup "succeeded", refs.lookup "failed" with
  | some false, some false =>
    fail "" name s!"{name}:succeeded and {name}:failed cannot both be required"
    return d
  | some false, some true =>
    fail "" name s!"{name}:failed is optional so {name}:succeeded must be optional too"
    return d
  | _, some _ => return { d with task := { d.task with required } }
  | none, none => return { d with task := { d.task with required := "succeeded" :: required } }
  | some _, none => return { d with task := { d.task with required } }

/-- Defines the tasks the graph names, section by section: every reference without an offset.
A reference with an offset must name a task that some section defines. -/
def defineTasks (ctx : Context) (fams : List String) (secs : List Section) : Compiling Unit := do
  let indexed := (List.range secs.length).zip secs
  for (si, sec) in indexed do
    for e in sec.edges do
      for r in (e.lhs.map Formula.refs).getD [] ++ e.rhs do
        if r.offset.isNone then define fams sec si e.line r
  for (_, sec) in indexed do
    for e in sec.edges do
      for r in (e.lhs.map Formula.refs).getD [] do
        if let some off := r.offset then
          if (← resolveOffset ctx sec e.line r off).isSome && (← draft? r.name).isNone then
            fail sec.name e.line s!"task {Text.quote r.name} is referenced but never scheduled"

/-- Compiles every edge of every section into its targets' dependencies, then works out each
task's required outputs. -/
def compileEdges (ctx : Context) (secs : List Section) : Compiling Unit := do
  let indexed := (List.range secs.length).zip secs
  for (si, sec) in indexed do
    for e in sec.edges do
      for target in e.rhs do
        compileTarget ctx secs si sec e target
  let drafts ← (← get).drafts.mapM resolveOutputs
  modify fun b => { b with drafts }

/-- Runs a compiling stage and answers its problems, if any. -/
def stage {α : Type} (m : Compiling α) (b : Build) : Except (List Failure) (α × Build) :=
  let (a, b) := m.run b
  if b.halted then .error [.divisionByZero]
  else if b.errors.isEmpty then .ok (a, b) else .error b.errors

/-- The runahead limit: as configured, or four times the smallest step of the graph (one step
or one day when no section repeats). -/
def runaheadLimit (ctx : Context) (text : String) (secs : List Section) :
    Except Failure Interval := do
  if !text.isEmpty then
    return ← (Interval.parse ctx.mode text).mapError (.within "scheduling.runahead_limit: ")
  let smallest := secs.foldl (fun (s : Interval) sec =>
    let step := sec.seq.step
    if step.isZero then s
    else if s.isZero || step.compare s == .lt then step else s) .zero
  let smallest :=
    if smallest.isZero then (if ctx.mode == .integer then .steps 1 else Interval.seconds 86400)
    else smallest
  return smallest.scale 4

/-- The queue of a task: the last queue, in name order, with a member in its chain. -/
def queueOf (queues : List (String × QueueConfig)) (d : TaskDef) : String :=
  queues.foldl (fun q (name, cfg) =>
    if cfg.members.any d.namespaces.contains then name else q) d.queue

/-- Compiles a checked workflow definition. -/
def compile (cfg : WorkflowConfig) : Except (List Failure) Workflow := do
  let ctx ← cfg.context.mapError ([·])
  let (secs, errs) := readSections ctx cfg.scheduling.graph
  if !errs.isEmpty then throw errs
  let fams ← (families cfg.runtime).mapError ([·])
  let ((), b) ← stage (defineTasks ctx fams secs) { config := cfg }
  let ((), b) ← stage (compileEdges ctx secs) b
  let tasks := b.drafts.map fun d =>
    { d.task with sequences := draftSequences secs d, deps := d.deps.map (·.2),
                  required := d.task.required.eraseDups.mergeSort fun x y => decide (x ≤ y) }
  (checkDeadlock tasks).mapError ([·])
  let tasks := sortBy (fun x y => decide (x.index ≤ y.index)) tasks
  let maxFuture := tasks.foldl (fun m d => d.deps.foldl (fun m dep => dep.triggers.foldl
    (fun m t => if t.point.isNone && t.offset.compare m == .gt then t.offset else m) m) m) .zero
  let runahead ← (runaheadLimit ctx cfg.scheduling.runahead secs).mapError ([·])
  let point (name text : String) : Except (List Failure) (Option Point) :=
    if text.isEmpty then .ok none
    else ((ctx.resolve text).map some).mapError fun e => [.within ("scheduling." ++ name ++ ": ") e]
  let stopPoint ← point "stop_after_cycle_point" cfg.scheduling.stopAfter
  let holdPoint ← point "hold_after_cycle_point" cfg.scheduling.holdAfter
  let queues := b.config.scheduling.queues.mergeSort fun x y => decide (x.1 ≤ y.1)
  return {
    name := cfg.name, config := b.config, context := ctx,
    tasks := tasks.map fun d => { d with queue := queueOf queues d },
    runahead, maxFutureOffset := maxFuture, stopPoint, holdPoint,
    queues := queues.map fun (n, q) => (n, q.limit) }

end CycleSched.Graph
