import CycleSched.Config.Namespaces
import CycleSched.Cycle.Sequence
import CycleSched.Task.Id

/-!
# Workflow configuration

A workflow definition: scheduler behaviour, the cycling bounds and graph, queues, clock
offsets of special tasks, and the runtime namespaces. It is read strictly from a document and
then checked as a whole; every problem that does not depend on the graph is reported together.
-/

namespace CycleSched

open Yaml

/-- What the scheduler does on stalls, inactivity and failures. -/
structure SchedulerEvents where
  stallTimeout : String := ""
  abortOnStallTimeout : Bool := false
  inactivityTimeout : String := ""
  abortOnInactivityTimeout : Bool := false
  abortOnTaskFailure : Bool := false
  /-- Patterns of `point/name` ids whose failure is expected. -/
  expectedFailures : List String := []

/-- Workflow-wide scheduler settings. -/
structure SchedulerConfig where
  utcMode : Bool := false
  allowImplicitTasks : Bool := false
  events : SchedulerEvents := {}

/-- A queue: at most `limit` active tasks among its members (zero for no limit). -/
structure QueueConfig where
  limit : Int := 0
  /-- Task or namespace names. -/
  members : List String := []

/-- The graph section: recurrences in order of first appearance, and the graph text of each.
Read from a mapping, every recurrence has a text; read as a record, the two parts are written
apart and need not agree. -/
structure GraphSection where
  recurrences : List String := []
  texts : List (String × String) := []

/-- The graph text of a recurrence; a recurrence without one has the empty text. -/
def GraphSection.textOf (g : GraphSection) (key : String) : String := (g.texts.lookup key).getD ""

/-- Cycling bounds, queues, special tasks and the graph. -/
structure SchedulingConfig where
  cyclingMode : String := ""
  initial : String := ""
  final : String := ""
  stopAfter : String := ""
  holdAfter : String := ""
  runahead : String := ""
  queues : List (String × QueueConfig) := []
  clockTrigger : List (String × String) := []
  clockExpire : List (String × String) := []
  graph : GraphSection := {}

/-- A workflow definition as written. -/
structure WorkflowConfig where
  name : String := ""
  scheduler : SchedulerConfig := {}
  scheduling : SchedulingConfig := {}
  runtime : Namespaces := {}

/-- Reads scheduler event settings. -/
def SchedulerEvents.read : Reader SchedulerEvents :=
  readRecord "config.SchedulerEvents" [
    .of "stall_timeout" (readText "string") (·.stallTimeout) fun c v => { c with stallTimeout := v },
    .of "abort_on_stall_timeout" readBool (·.abortOnStallTimeout)
      fun c v => { c with abortOnStallTimeout := v },
    .of "inactivity_timeout" (readText "string") (·.inactivityTimeout)
      fun c v => { c with inactivityTimeout := v },
    .of "abort_on_inactivity_timeout" readBool (·.abortOnInactivityTimeout)
      fun c v => { c with abortOnInactivityTimeout := v },
    .of "abort_on_task_failure" readBool (·.abortOnTaskFailure)
      fun c v => { c with abortOnTaskFailure := v },
    .of "expected_task_failures" readTextList (·.expectedFailures)
      fun c v => { c with expectedFailures := v }]

/-- Reads scheduler settings. -/
def SchedulerConfig.read : Reader SchedulerConfig :=
  readRecord "config.SchedulerSection" [
    .of "utc_mode" readBool (·.utcMode) fun c v => { c with utcMode := v },
    .of "allow_implicit_tasks" readBool (·.allowImplicitTasks)
      fun c v => { c with allowImplicitTasks := v },
    .of "events" SchedulerEvents.read (·.events) fun c v => { c with events := v }]

/-- Reads a queue. -/
def QueueConfig.read : Reader QueueConfig :=
  readRecord "config.Queue" [
    .of "limit" readInt (·.limit) fun c v => { c with limit := v },
    .of "members" readTextList (·.members) fun c v => { c with members := v }]

open Decode in
/-- Reads the graph section from a mapping of recurrences to graph texts, in order of first
appearance. A recurrence given twice has its texts joined by a line break. A value that is not
a scalar, or a section that is not a mapping, stops the reading. A section tagged as a null is
read as a record of its two parts instead. -/
def readGraph : Reader GraphSection
  | 0, _, _ => tooDeep
  | fuel + 1, n, old => visit n fun n => do
    if (← shortTagOf n) == "!!null" then
      match n with
      | .scalar text _ tag _ =>
        match (← scalarValue text tag).2 with
        | .null => return (old, false)
        | _ =>
          mismatch n "config.GraphSection"
          return (old, false)
      | _ => readRecord "config.GraphSection" [
          .of "recurrences" (readList "[]string" "" (readText "string"))
            (fun g => if g.recurrences.isEmpty then none else some g.recurrences)
            fun g v => { g with recurrences := v.getD [] },
          .of "text" (readTextMap "map[string]string" "" (readText "string"))
            (fun g => if g.texts.isEmpty then none else some g.texts)
            fun g v => { g with texts := v.getD [] }] fuel n old
    else
      match n with
      | .mapping entries _ _ =>
        let mut g : GraphSection := { recurrences := old.recurrences }
        for (k, v) in entries do
          match v with
          | .scalar text .. =>
            let key := k.text
            match g.texts.lookup key with
            | some prev =>
              g := { g with texts := g.texts.map fun e =>
                if e.1 == key then (key, prev ++ "\n" ++ text) else e }
            | none => g := { recurrences := g.recurrences ++ [key], texts := g.texts ++ [(key, text)] }
          | _ => throw (.plain ("line " ++ toString v.line ++ ": graph for " ++ Text.quote k.text ++
              " must be a string"))
        return (g, true)
      | _ => throw (.plain ("line " ++ toString n.line ++
          ": graph must map recurrences to graph strings"))

/-- Reads a table of clock offsets. -/
def readOffsets : Reader (Option (List (String × String))) :=
  readTextMap "map[string]string" "" (readText "string")

/-- Reads scheduling settings. -/
def SchedulingConfig.read : Reader SchedulingConfig :=
  readRecord "config.SchedulingSection" [
    .of "cycling_mode" (readText "string") (·.cyclingMode) fun c v => { c with cyclingMode := v },
    .of "initial_cycle_point" (readText "string") (·.initial) fun c v => { c with initial := v },
    .of "final_cycle_point" (readText "string") (·.final) fun c v => { c with final := v },
    .of "stop_after_cycle_point" (readText "string") (·.stopAfter)
      fun c v => { c with stopAfter := v },
    .of "hold_after_cycle_point" (readText "string") (·.holdAfter)
      fun c v => { c with holdAfter := v },
    .of "runahead_limit" (readText "string") (·.runahead) fun c v => { c with runahead := v },
    .of "queues" (readTextMap "map[string]config.Queue" {} QueueConfig.read)
      (fun c => if c.queues.isEmpty then none else some c.queues)
      fun c v => { c with queues := v.getD [] },
    .of "special_tasks" (readRecord "config.SpecialTasks" [
        .of "clock_trigger" readOffsets (textTable? ·.clockTrigger)
          fun c v => { c with clockTrigger := v.getD [] },
        .of "clock_expire" readOffsets (textTable? ·.clockExpire)
          fun c v => { c with clockExpire := v.getD [] }]) id fun _ v => v,
    .of "graph" readGraph (·.graph) fun c v => { c with graph := v }]

namespace WorkflowConfig

/-- Reads a workflow definition. -/
def read : Reader WorkflowConfig :=
  readRecord "config.Workflow" [
    .of "name" (readText "string") (·.name) fun c v => { c with name := v },
    .of "scheduler" SchedulerConfig.read (·.scheduler) fun c v => { c with scheduler := v },
    .of "scheduling" SchedulingConfig.read (·.scheduling) fun c v => { c with scheduling := v },
    .of "runtime" Namespaces.read (·.runtime) fun c v => { c with runtime := v }]

/-- Reads a workflow definition from its text; an empty document is the empty definition. -/
def ofText (text : String) : Except Failure WorkflowConfig :=
  match readDocument text with
  | .error e => .error (.plain e.message)
  | .ok none => .ok {}
  | .ok (some doc) => doc.decode true read {}

/-- The cycling mode and the initial and final points. An integer workflow starts at 1 unless
told otherwise; a Gregorian one must say where it starts. The final point may be relative to
the initial one and may not come before it. -/
def context (w : WorkflowConfig) : Except Failure Context := do
  let s := w.scheduling
  let mode ← (Mode.parse s.cyclingMode).mapError (.within "scheduling.cycling_mode: ")
  let icp ←
    if s.initial.isEmpty then
      if mode == .integer then pure "1"
      else throw (.plain "scheduling.initial_cycle_point is required")
    else pure s.initial
  let initial ← (Point.parse mode icp).mapError (.within "scheduling.initial_cycle_point: ")
  let ctx : Context := { mode, initial, final := none }
  if s.final.isEmpty then return ctx
  let final ← (ctx.resolve s.final).mapError (.within "scheduling.final_cycle_point: ")
  if final.before initial then
    throw (.plain ("scheduling.final_cycle_point " ++ final.toText ++
      " is before the initial cycle point " ++ initial.toText))
  return { ctx with final := some final }

/-- A clock offset as written, a blank one meaning no offset. -/
def offsetText (off : String) : String :=
  if (Text.trimBlank off).isEmpty then "PT0S" else off

/-- The clock offset configured for a task in an offset table, when it reads as an interval. -/
def clockOffset (table : List (String × String)) (task : String) : Option Interval :=
  (table.lookup task).bind fun off => (Interval.parse .gregorian (offsetText off)).toOption

/-- Whether a failure of the task was declared expected. -/
def isExpectedFailure (w : WorkflowConfig) (id : TaskId) : Bool :=
  w.scheduler.events.expectedFailures.any id.matchesGlob

/-- The problems with the cycling bounds: stop and hold points must resolve, and the runahead
limit must read as a non-negative interval. -/
def boundProblems (w : WorkflowConfig) (ctx : Context) : List Failure :=
  let s := w.scheduling
  let points := [("stop_after_cycle_point", s.stopAfter), ("hold_after_cycle_point", s.holdAfter)]
    |>.filterMap fun (name, v) =>
      if v.isEmpty then none
      else match ctx.resolve v with
        | .ok _ => none
        | .error e => some (Failure.within ("scheduling." ++ name ++ ": ") e)
  let runahead :=
    if s.runahead.isEmpty then []
    else match Interval.parse ctx.mode s.runahead with
      | .error e => [Failure.within "scheduling.runahead_limit: " e]
      | .ok d => if d.isNegative then [.plain "scheduling.runahead_limit must not be negative"] else []
  points ++ runahead

/-- The problems with every runtime namespace: its inheritance, the type of its merged settings,
and their values. -/
def runtimeProblems (w : WorkflowConfig) : List Failure :=
  w.runtime.names.flatMap fun name =>
    match w.runtime.merged name with
    | .error e => [e]
    | .ok tree =>
      match TaskConfig.ofTable tree with
      | .error e => [.within s!"runtime {Text.quote name}: " e]
      | .ok c => c.problems.map (.within s!"runtime {Text.quote name}: ")

/-- Everything wrong with a workflow definition that can be told without its graph. -/
def problems (w : WorkflowConfig) : List Failure :=
  let bounds := match w.context with
    | .error e => [e]
    | .ok ctx => w.boundProblems ctx
  let events := [("scheduler.events.stall_timeout", w.scheduler.events.stallTimeout),
      ("scheduler.events.inactivity_timeout", w.scheduler.events.inactivityTimeout)].flatMap
    fun (key, v) => if v.isEmpty then [] else TaskConfig.durationProblems key [v]
  let special := [("clock_trigger", w.scheduling.clockTrigger),
      ("clock_expire", w.scheduling.clockExpire)].flatMap fun (kind, table) =>
    table.filterMap fun (task, off) =>
      match Interval.parse .gregorian (offsetText off) with
      | .ok _ => none
      | .error e => some (Failure.within s!"special_tasks.{kind}[{task}]: " e)
  let queues := w.scheduling.queues.filterMap fun (name, q) =>
    if q.limit < 0 then some (Failure.plain s!"queues.{name}: limit must not be negative") else none
  let graph := if w.scheduling.graph.recurrences.isEmpty then
    [Failure.plain "scheduling.graph is empty"] else []
  bounds ++ events ++ special ++ queues ++ graph ++ w.runtimeProblems

end WorkflowConfig

/-- Reads and checks a workflow definition; the answer is the definition or all its problems. -/
def parseWorkflow (text : String) : Except (List Failure) WorkflowConfig :=
  match WorkflowConfig.ofText text with
  | .error e => .error [e]
  | .ok w =>
    match w.problems with
    | [] => .ok w
    | ps => .error ps

end CycleSched
