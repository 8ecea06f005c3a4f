import CycleSched.Settings.Tree
import CycleSched.Yaml.Emit
import CycleSched.Cycle.Interval

/-!
# Task configuration

The typed settings of one task: what it runs, where, in which run mode, how it retries, what
custom outputs it has, and how simulation and skip modes treat it. A configuration is read from
a setting tree over the defaults, strictly: a key that names no setting is a mismatch. Then it is
checked for the values its types cannot express, and every problem is reported.
-/

namespace CycleSched

open Yaml

/-- How simulated and dummy jobs behave. -/
structure SimulationConfig where
  defaultRunLength : String := "PT10S"
  speedupFactor : Float := 0
  timeLimitBuffer : String := "PT30S"
  /-- Cycle points at which a simulated job fails: `all`, or point texts. -/
  failCyclePoints : List String := []
  /-- A simulated job fails on its first try only. -/
  failFirstTryOnly : Bool := true

/-- How skipped tasks behave. -/
structure SkipConfig where
  /-- Outputs a skipped task emits besides the standard ones. -/
  outputs : List String := []
  disableHandlers : Bool := true

/-- Event handler commands, kept as written. -/
structure EventConfig where
  handlers : List String := []
  handlerEvents : List String := []

/-- The settings of a task, after inheritance and broadcasts. -/
structure TaskConfig where
  inherit : List String := []
  script : String := ""
  environment : List (String × String) := []
  platform : String := ""
  runMode : String := "live"
  executionRetryDelays : List String := []
  submissionRetryDelays : List String := []
  executionTimeLimit : String := ""
  /-- Custom outputs, each with the job message that emits it. -/
  outputs : List (String × String) := []
  simulation : SimulationConfig := {}
  skip : SkipConfig := {}
  events : EventConfig := {}

/-- A table of texts as a decoded map: absent until first set. -/
def textTable? (t : List (String × String)) : Option (List (String × String)) :=
  if t.isEmpty then none else some t

/-- Reads a table of texts. -/
def readTextTable : Reader (Option (List (String × String))) :=
  readTextMap "map[string]string" "" (readText "string")

/-- Reads simulation settings. -/
def SimulationConfig.read : Reader SimulationConfig :=
  readRecord "config.Simulation" [
    .of "default_run_length" (readText "string") (·.defaultRunLength)
      fun c v => { c with defaultRunLength := v },
    .of "speedup_factor" readFloat (·.speedupFactor) fun c v => { c with speedupFactor := v },
    .of "time_limit_buffer" (readText "string") (·.timeLimitBuffer)
      fun c v => { c with timeLimitBuffer := v },
    .of "fail_cycle_points" readTextList (·.failCyclePoints)
      fun c v => { c with failCyclePoints := v },
    .of "fail_try_1_only" readBool (·.failFirstTryOnly) fun c v => { c with failFirstTryOnly := v }]

/-- Reads skip settings. -/
def SkipConfig.read : Reader SkipConfig :=
  readRecord "config.Skip" [
    .of "outputs" readTextList (·.outputs) fun c v => { c with outputs := v },
    .of "disable_task_event_handlers" readBool (·.disableHandlers)
      fun c v => { c with disableHandlers := v }]

/-- Reads event settings. -/
def EventConfig.read : Reader EventConfig :=
  readRecord "config.Events" [
    .of "handlers" readTextList (·.handlers) fun c v => { c with handlers := v },
    .of "handler_events" readTextList (·.handlerEvents) fun c v => { c with handlerEvents := v }]

namespace TaskConfig

/-- Reads task settings. -/
def read : Reader TaskConfig :=
  readRecord "config.Runtime" [
    .of "inherit" readTextList (·.inherit) fun c v => { c with inherit := v },
    .of "script" (readText "string") (·.script) fun c v => { c with script := v },
    .of "environment" readTextTable (textTable? ·.environment)
      fun c v => { c with environment := v.getD [] },
    .of "platform" (readText "string") (·.platform) fun c v => { c with platform := v },
    .of "run_mode" (readText "model.RunMode") (·.runMode) fun c v => { c with runMode := v },
    .of "execution_retry_delays" readTextList (·.executionRetryDelays)
      fun c v => { c with executionRetryDelays := v },
    .of "submission_retry_delays" readTextList (·.submissionRetryDelays)
      fun c v => { c with submissionRetryDelays := v },
    .of "execution_time_limit" (readText "string") (·.executionTimeLimit)
      fun c v => { c with executionTimeLimit := v },
    .of "outputs" readTextTable (textTable? ·.outputs) fun c v => { c with outputs := v.getD [] },
    .of "simulation" SimulationConfig.read (·.simulation) fun c v => { c with simulation := v },
    .of "skip" SkipConfig.read (·.skip) fun c v => { c with skip := v },
    .of "events" EventConfig.read (·.events) fun c v => { c with events := v }]

/-- Gives a setting tree its type: the tree is written as YAML, read back and decoded strictly
over the defaults. -/
def ofTable (t : SettingTable) : Except Failure TaskConfig :=
  match readDocument (render (.table t)) with
  | .error e => .error (.plain e.message)
  | .ok none => .ok {}
  | .ok (some doc) => doc.decode true read {}

/-- The problems with a duration setting, with the setting's name in front. -/
def durationProblems (name : String) (texts : List String) : List Failure :=
  texts.filterMap fun d =>
    match Interval.parseDuration d with
    | .ok _ => none
    | .error e => some (.within (name ++ ": ") e)

/-- Everything wrong with a configuration that its types do not rule out, in checking order:
the run mode (a task may be live or skipped only), retry delays and time limits (wall-clock
durations), the speedup factor (not negative), custom outputs (no built-in name, some message),
and skip outputs (not both `succeeded` and `failed`). -/
def problems (c : TaskConfig) : List Failure :=
  let mode :=
    if c.runMode == "live" || c.runMode == "skip" then []
    else [Failure.plain s!"run_mode {Text.quote c.runMode}: a task may only set live or skip"]
  let limits := [("execution_time_limit", c.executionTimeLimit),
      ("simulation.default_run_length", c.simulation.defaultRunLength),
      ("simulation.time_limit_buffer", c.simulation.timeLimitBuffer)].flatMap fun (name, d) =>
    if d.isEmpty then [] else durationProblems name [d]
  let speedup :=
    if c.simulation.speedupFactor < 0 then
      [Failure.plain "simulation.speedup_factor must not be negative"]
    else []
  let outputs := c.outputs.flatMap fun (name, msg) =>
    (if isBuiltinOutput name || name == "finished" then
      [Failure.plain s!"outputs: {Text.quote name} is a built-in output"] else []) ++
    (if (Text.trimBlank msg).isEmpty then
      [Failure.plain s!"outputs: {Text.quote name} has no message"] else [])
  let skip :=
    if c.skip.outputs.contains "succeeded" && c.skip.outputs.contains "failed" then
      [Failure.plain "skip.outputs cannot contain both succeeded and failed"]
    else []
  mode ++ durationProblems "execution_retry_delays" c.executionRetryDelays ++
    durationProblems "submission_retry_delays" c.submissionRetryDelays ++ limits ++ speedup ++
    outputs ++ skip

/-- The retry delays that read as durations, in nanoseconds: execution first, then submission. -/
def retryDelays (c : TaskConfig) : List Int64 × List Int64 :=
  let read (ds : List String) := ds.filterMap fun d => (Interval.parseDuration d).toOption
  (read c.executionRetryDelays, read c.submissionRetryDelays)

/-- The execution time limit in nanoseconds, zero when unset or unreadable. -/
def timeLimit (c : TaskConfig) : Int64 :=
  if c.executionTimeLimit.isEmpty then 0
  else (Interval.parseDuration c.executionTimeLimit).toOption.getD 0

end TaskConfig

/-- Checks one setting as a broadcast would set it: inheritance is fixed, and the setting must
name a task setting and hold a fitting value once `read` gives the tree with it alone a type (as
YAML, by default). The answer is the list of problems. -/
def checkSetting (path value : String)
    (read : SettingTable → Except Failure TaskConfig := TaskConfig.ofTable) : List Failure :=
  if path == "inherit" || path.startsWith "inherit." then
    [.plain "inheritance cannot be changed at run time"]
  else
    match SettingTable.setPath [] path value with
    | .error e => [e]
    | .ok t =>
      match read t with
      | .error e => [e]
      | .ok c => c.problems

end CycleSched
