import CycleSched.Graph.Task
import CycleSched.Config.Task

/-!
# Run modes of a submission

A submission runs live, as a dummy job that only sleeps and sends its messages, in simulation
on a clock, or is skipped. A workflow run in dummy or simulation mode puts every task in that
mode, except tasks set to skip. Simulated and dummy jobs run for the execution time limit scaled
down by the speedup factor when both are set, else for the default run length, and fail when
their cycle point is configured to.
-/

namespace CycleSched

open CycleSched.Graph

namespace TaskConfig

/-- The mode of one submission: skip when the task says so, else the workflow's mode unless that
is live or unset. -/
def submissionMode (c : TaskConfig) (workflow : String) : String :=
  if c.runMode == "skip" then "skip"
  else if workflow != "" && workflow != "live" then workflow
  else "live"

/-- The outputs a skipped job emits after submitted and started: the required custom outputs
(or only the configured ones, when the skip settings name any) by name, then `failed` if
configured, else `succeeded`. -/
def skipOutputs (c : TaskConfig) (d : TaskDef) : List String :=
  let conf := c.skip.outputs
  let custom := (d.outputs.map (·.1)).filter fun name =>
    !isBuiltinOutput name && ((conf.isEmpty && d.required.contains name) || conf.contains name)
  let custom := custom.mergeSort fun a b => decide (a ≤ b)
  custom ++ [if conf.contains "failed" then "failed" else "succeeded"]

/-- How long a simulated or dummy job runs, in nanoseconds. -/
def simulatedRunLength (c : TaskConfig) : Int64 :=
  let limit := c.timeLimit
  if limit > 0 && c.simulation.speedupFactor > 0 then
    Decimal.toWord (Float.ofInt limit.toInt / c.simulation.speedupFactor)
  else (Interval.parseDuration c.simulation.defaultRunLength).toOption.getD 0

/-- The time limit of a simulated or dummy job: its run length and the buffer. -/
def simulatedTimeLimit (c : TaskConfig) : Int64 :=
  c.simulatedRunLength + (Interval.parseDuration c.simulation.timeLimitBuffer).toOption.getD 0

/-- A simulated or dummy job at `pt` fails: on its first try only, when so configured, and when
its point is listed or the list holds `all`. -/
def simulationFails (c : TaskConfig) (mode : Mode) (pt : Point) (tryNum : Int) : Bool :=
  if c.simulation.failFirstTryOnly && tryNum > 1 then false
  else c.simulation.failCyclePoints.any fun s =>
    s == "all" ||
      match Point.parse mode s with
      | .ok p => p.mode == pt.mode && p.val == pt.val
      | .error _ => false

/-- The text a job prints to send a message. -/
def messagePrefix : String := "CYCLEFLOW_MESSAGE:"

/-- Quotes a text for a single-quoted shell word. -/
def shellQuoted (s : String) : String := "'\\''".intercalate (s.splitOn "'")

/-- Whole seconds of a duration in nanoseconds, rounded up from its value in seconds as a
float. -/
def ceilSeconds (ns : Int64) : Int :=
  let secs := ns.toInt.tdiv 1000000000
  let rest := ns.toInt.tmod 1000000000
  (Decimal.toWord (Float.ofInt secs + Float.ofInt rest / 1e9).ceil).toInt

/-- The script of a dummy job: sleep for the run length, send every custom output's message by
output name, then fail if it is to fail. -/
def dummyScript (c : TaskConfig) (fail : Bool) : String :=
  let names := (c.outputs.map (·.1)).mergeSort fun a b => decide (a ≤ b)
  let echoes := names.map fun n =>
    "echo '" ++ messagePrefix ++ " " ++ shellQuoted ((c.outputs.lookup n).getD "") ++ "'"
  "\n".intercalate (("sleep " ++ toString (ceilSeconds c.simulatedRunLength)) :: echoes ++
    (if fail then ["exit 1"] else []))

end TaskConfig

end CycleSched
