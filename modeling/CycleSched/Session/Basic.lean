import CycleSched.Pool.Checkpoint
import CycleSched.Broadcast
import CycleSched.Job.Mode

/-!
# Scheduling sessions

A session drives a compiled workflow's pool step by step, as a scheduler would: it holds the
pool, the broadcasts, a clock, the traces saved so far, the jobs simulated on a clock of their
own, and the retry delays of each submission. Each step is a command or a report about one
instance's job; each answer comes with the instances the step spawned and removed.
-/

namespace CycleSched

open CycleSched.Graph

/-- What a job reports about itself. -/
inductive JobEventKind where
  | submitted
  | submissionFailed
  | started
  | succeeded
  | failed
  | message
  deriving DecidableEq, Repr

/-- The name of an event kind as reported. -/
def JobEventKind.name : JobEventKind → String
  | submitted => "submitted"
  | submissionFailed => "submission_failed"
  | started => "started"
  | succeeded => "succeeded"
  | failed => "failed"
  | message => "message"

/-- A report from the job of one submission of an instance. -/
structure JobEvent where
  /-- The instance's id. -/
  task : String
  submitNum : Int
  kind : JobEventKind
  jobId : String
  message : String := ""
  deriving Repr

/-- How an event was taken: as stale (for another submission, or an instance without a live
job), applied with the outputs it emitted, or refused by the state graph. -/
inductive EventOutcome where
  | stale
  | applied (outputs : List String) (retrying : Bool)
  | refused (e : Failure)

/-- A simulated job waiting on the simulation clock. -/
structure SimulatedJob where
  jobId : String
  task : String
  submitNum : Int
  /-- When it finishes, in nanoseconds on the simulation clock. -/
  due : Int
  /-- The messages it sends before it finishes. -/
  messages : List String
  fails : Bool
  deriving Repr

/-- Simulated jobs on a clock that starts at the epoch. -/
structure Simulator where
  clock : Int := 0
  /-- How many simulated jobs were started. -/
  started : Nat := 0
  /-- The jobs not yet finished, in submission order. -/
  jobs : List SimulatedJob := []
  deriving Repr

/-- The retry delays of one submission, in nanoseconds. -/
structure RetryDelays where
  execution : List Int64 := []
  submission : List Int64 := []
  deriving Repr

/-- A scheduling session over a compiled workflow. -/
structure Session where
  wf : Workflow
  pool : Pool
  broadcasts : Broadcasts := {}
  /-- The clock, initially the Unix epoch. -/
  now : Instant := Instant.ofUnix 0
  /-- Saved traces by `point/name`, newest last. -/
  saved : List (String × SavedTrace) := []
  sim : Simulator := {}
  /-- The retry delays of each submission, by instance id and submit number. -/
  delays : List ((String × Int) × RetryDelays) := []

/-- A report about one instance's job, or a command on it. -/
inductive Change where
  | prepare (mode : String)
  | submitted (jobId : String)
  | started
  | succeeded
  /-- Retry delays given, or `none` for those the settings give. -/
  | failed (delays : Option (List String))
  | submitFailed (delays : Option (List String))
  | message (text : String)
  | expire
  | requeue
  | kill
  | setOutputs (names : List String)
  | trigger
  /-- A whole job from preparation to success or failure. -/
  | wholeJob (success : Bool) (jobId : String) (delays : Option (List String))

/-- One step of a session. -/
inductive Step where
  | start
  | releaseRunahead
  | ready
  | expireTasks
  | hold (patterns : List String)
  | release (patterns : List String)
  | holdAfter (point : String)
  | releaseHoldPoint
  | stopAfter (point : String)
  | trigger (patterns : List String) (flow : String) (wait : Bool)
  | setOutputs (patterns outputs : List String) (flow : String)
  | remove (patterns : List String)
  | select (patterns : List String)
  | status
  | records
  | spawnRecords
  | drainHistory
  | restart
  | restore (tasks : List SavedTask) (spawn : List SpawnRecord) (history : List SavedTrace)
      (nextFlow : Int)
  | broadcastSet (points scopes : List String) (settings : List (String × String))
  | broadcastClear (points scopes keys : List String)
  | broadcastExpire (point : String)
  | broadcastEntries
  | broadcastChanges
  | resolve (id runMode : String) (tryNum : Int)
  | submit (id runMode : String)
  | simAdvance (seconds : Int)
  | change (id : String) (c : Change)
  | unknown (name : String)

/-- What the session says about its pool. -/
structure PoolStatus where
  size : Nat
  complete : Bool
  stalled : Bool
  stallReport : List String
  nextFlow : Int
  base : Option Point
  horizon : Option Point
  holdPoint : Option Point
  stopPoint : Option Point

/-- Values derived from a task's effective settings for one submission. -/
structure Derived where
  execDelays : List Int64
  submitDelays : List Int64
  timeLimit : Int64
  mode : String
  skipOutputs : List String
  simRunLength : Int64
  simTimeLimit : Int64
  simFails : Bool
  dummyScript : String

/-- What a submission did: its mode, submit number, time limit and event handlers, and for a
job carried out at once (skipped or simulated) its job id and the events it sent. -/
structure SubmitReport where
  mode : String
  submitNum : Int
  timeLimit : Int
  handlers : List String
  dispatched : Option (String × List (JobEvent × EventOutcome))

/-- The result of a step that succeeded. -/
inductive Reply where
  | nothing
  | ids (ids : List String)
  | count (n : Nat)
  | outputs (outputs : List String) (retrying : Bool)
  | submitNum (n : Int)
  | selection (matched unmatched : List String)
  | status (s : PoolStatus)
  | records (rs : List SavedTask)
  | spawnRecords (rs : List SpawnRecord)
  | traces (rs : List SavedTrace)
  | broadcasts (es : List BroadcastEntry)
  | broadcastTable (es : List BroadcastEntry) (seq : Int)
  | changes (cs : List BroadcastChange)
  | settings (c : TaskConfig) (d : Derived)
  | submitted (r : SubmitReport)
  | advanced (pending : Nat) (events : List (JobEvent × EventOutcome))

/-- Why a step did nothing, or stopped part way. -/
inductive Refusal where
  | failures (es : List Failure)
  | notFound (text : String)
  | unknownStep (name : String)

/-- The answer to a step, with the instances it spawned (`point/name`, by point and declaration
order) and removed (`point/name reason`, by text). -/
structure StepAnswer where
  result : Except Refusal Reply
  spawned : List String
  removed : List String

end CycleSched
