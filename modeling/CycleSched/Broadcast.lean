import CycleSched.Graph.Workflow
import CycleSched.Config.Task
import CycleSched.Instant

/-!
# Broadcasts

A broadcast overrides one runtime setting for the tasks of a namespace pattern, at one cycle
point or at every point (`*`). Broadcasts are kept by (point, namespace, key), each with the
sequence number of its last write, and every change is logged with the time it was made.

A task's effective settings are its own merged settings with every matching broadcast written
over them, the weakest first: all-points before point-specific, a broadcast to a less specific
namespace of the task's inheritance chain before a more specific one, and an older before a
newer. The result must decode and validate as task settings.
-/

namespace CycleSched

open CycleSched.Graph

/-- The pattern that stands for every cycle point. -/
def allPoints : String := "*"

/-- An active broadcast. -/
structure BroadcastEntry where
  point : String
  /-- The namespace pattern. -/
  scope : String
  key : String
  value : String
  /-- The sequence number of the write that set it. -/
  seq : Int
  deriving Repr

/-- One setting broadcast to one point and namespace. -/
structure BroadcastWrite where
  point : String
  scope : String
  key : String
  value : String
  deriving Repr

/-- The entry a write makes under a sequence number. -/
def BroadcastWrite.stamp (w : BroadcastWrite) (seq : Int) : BroadcastEntry :=
  ⟨w.point, w.scope, w.key, w.value, seq⟩

/-- A logged change: a broadcast set (`added`) or dropped, with the time it was made. -/
structure BroadcastChange where
  time : Instant
  added : Bool
  point : String
  scope : String
  key : String
  value : String
  deriving Repr

/-- The active broadcasts of a run. -/
structure Broadcasts where
  entries : List BroadcastEntry := []
  /-- The sequence number of the latest write. -/
  seq : Int := 0
  /-- Changes not yet drained, oldest first. -/
  changes : List BroadcastChange := []
  deriving Repr

namespace BroadcastEntry

/-- Two entries have the same point, namespace and key. -/
def sameKey (a b : BroadcastEntry) : Bool :=
  a.point == b.point && a.scope == b.scope && a.key == b.key

/-- Order by point, then namespace, then key. -/
def keyLe (a b : BroadcastEntry) : Bool :=
  if a.point != b.point then decide (a.point < b.point)
  else if a.scope != b.scope then decide (a.scope < b.scope)
  else decide (a.key ≤ b.key)

end BroadcastEntry

namespace Broadcasts

/-- The active broadcasts by point, namespace and key. -/
def sorted (b : Broadcasts) : List BroadcastEntry := b.entries.mergeSort BroadcastEntry.keyLe

/-- Writes an entry in place of the one with the same key. -/
def put (b : Broadcasts) (e : BroadcastEntry) : Broadcasts :=
  if b.entries.any (·.sameKey e) then
    { b with entries := b.entries.map fun x => if x.sameKey e then e else x }
  else { b with entries := b.entries ++ [e] }

/-- Drops an entry, logging the change. -/
def drop (b : Broadcasts) (now : Instant) (e : BroadcastEntry) : Broadcasts :=
  { b with entries := b.entries.filter (!·.sameKey e),
           changes := b.changes ++ [⟨now, false, e.point, e.scope, e.key, e.value⟩] }

/-- The canonical text of a point pattern: `*` for every point, else the point as written by
the workflow's mode. -/
def canonicalPoint (wf : Workflow) (p : String) : Except Failure String :=
  if p == "" || p == allPoints then .ok allPoints
  else (Point.parse wf.context.mode p).map Point.toText

/-- A namespace pattern is well formed and names a runtime namespace, a task, or the root. -/
def knownScope (wf : Workflow) (pattern : String) : Bool :=
  Text.Glob.isValid pattern &&
    (wf.namespaces.any (Text.Glob.accepts pattern) || wf.order.any (Text.Glob.accepts pattern) ||
      pattern == rootNamespace)

/-- The writes of a broadcast request: every setting to every namespace at every point given
(every point and the root when none are given), points first. Every point, namespace and setting
is checked before anything is written, the settings with `read` giving trees their type; one bad
one refuses the whole request. -/
def writesFor (wf : Workflow) (points scopes : List String) (settings : List (String × String))
    (read : SettingTable → Except Failure TaskConfig := TaskConfig.ofTable) :
    Except Failure (List BroadcastWrite) := do
  let points := if points.isEmpty then [allPoints] else points
  let scopes := if scopes.isEmpty then [rootNamespace] else scopes
  if settings.isEmpty then throw (.broadcastConflict "" "" "" "no settings given")
  let canon ← points.mapM fun p =>
    (canonicalPoint wf p).mapError fun e => .broadcastConflict "" p "" e.message
  if let some ns := scopes.find? (!knownScope wf ·) then
    throw (.broadcastConflict ns "" "" "no such namespace")
  for (key, value) in settings do
    let problems := checkSetting key value read
    if !problems.isEmpty then
      throw (.broadcastConflict "" "" key ("; ".intercalate (problems.map Failure.message)))
  return canon.flatMap fun p => scopes.flatMap fun ns => settings.map fun s => ⟨p, ns, s.1, s.2⟩

/-- Makes one write under the next sequence number and logs it; the entries written so far are
kept in order. -/
def write (now : Instant) (acc : Broadcasts × List BroadcastEntry) (w : BroadcastWrite) :
    Broadcasts × List BroadcastEntry :=
  let e := w.stamp (acc.1.seq + 1)
  ({ acc.1.put e with seq := e.seq,
                      changes := acc.1.changes ++ [⟨now, true, w.point, w.scope, w.key, w.value⟩] },
    acc.2 ++ [e])

/-- Broadcasts settings as a request asks; answers the entries written, in order. -/
def set (b : Broadcasts) (wf : Workflow) (now : Instant) (points scopes : List String)
    (settings : List (String × String))
    (read : SettingTable → Except Failure TaskConfig := TaskConfig.ofTable) :
    Except Failure (Broadcasts × List BroadcastEntry) := do
  let writes ← writesFor wf points scopes settings read
  return writes.foldl (write now) (b, [])

/-- A setting key is one of the keys given or lies beneath one. -/
def underKey (keys : List String) (k : String) : Bool :=
  keys.any fun want => k == want || k.startsWith (want ++ ".")

/-- Cancels the broadcasts at the points, to the namespaces and under the keys given; an empty
list matches all. Answers the entries dropped; dropping none refuses the request. -/
def clear (b : Broadcasts) (wf : Workflow) (now : Instant) (points scopes keys : List String) :
    Except Failure (Broadcasts × List BroadcastEntry) := do
  let canon ← points.mapM fun p =>
    (canonicalPoint wf p).mapError fun e => .broadcastConflict "" p "" e.message
  let hit := b.sorted.filter fun e =>
    (canon.isEmpty || canon.contains e.point) && (scopes.isEmpty || scopes.contains e.scope) &&
      (keys.isEmpty || underKey keys e.key)
  if hit.isEmpty then throw (.rejected "broadcast clear" "no matching broadcast")
  return (hit.foldl (fun b e => b.drop now e) b, hit)

/-- Drops the point-specific broadcasts before `oldest`, which no instance can use any more,
and those whose point no longer reads. Answers how many were dropped. -/
def expire (b : Broadcasts) (wf : Workflow) (now : Instant) (oldest : Point) : Broadcasts × Nat :=
  let old := b.sorted.filter fun e =>
    e.point != allPoints &&
      match Point.parse wf.context.mode e.point with
      | .ok pt => pt.before oldest
      | .error _ => true
  (old.foldl (fun b e => b.drop now e) b, old.length)

/-- How strongly a broadcast's namespace pattern binds a task: the length of the inheritance
chain less the position of the first namespace the pattern matches. -/
def rank (d : TaskDef) (pattern : String) : Option Nat :=
  let n := d.namespaces.length
  (d.namespaces.zipIdx.find? fun (ns, _) => Text.Glob.accepts pattern ns).map fun (_, i) => n - i

/-- The broadcasts that apply to a task at a point, each with whether it names the point (1) or
every point (0) and the rank of its namespace pattern. -/
def applying (b : Broadcasts) (d : TaskDef) (pt : Point) : List (BroadcastEntry × Nat × Nat) :=
  b.entries.filterMap fun e =>
    if e.point != allPoints && e.point != pt.toText then none
    else (rank d e.scope).map fun r => (e, if e.point == allPoints then 0 else 1, r)

/-- One applying broadcast is written no later than another: it names every point where the other
names one, or else binds by a weaker namespace, or else is no newer. -/
def writtenNoLater (x y : BroadcastEntry × Nat × Nat) : Bool :=
  x.2.1 < y.2.1 || (x.2.1 == y.2.1 && (x.2.2 < y.2.2 || (x.2.2 == y.2.2 && x.1.seq ≤ y.1.seq)))

/-- A task's own settings with broadcasts written over them in the order given. -/
def overlaid (d : TaskDef) (ms : List (BroadcastEntry × Nat × Nat)) : Except Failure SettingTable :=
  ms.foldlM (fun t m => t.setPath m.1.key m.1.value) (d.settings.erase "inherit")

/-- A task's settings with broadcasts written over them in the order given, read as a
configuration by `read` and checked. -/
def resolveIn (d : TaskDef) (ms : List (BroadcastEntry × Nat × Nat))
    (read : SettingTable → Except Failure TaskConfig := TaskConfig.ofTable) :
    Except (List Failure) TaskConfig := do
  let tree ← (overlaid d ms).mapError fun e => [e]
  let c ← (read tree).mapError fun e => [e]
  let problems := c.problems
  if problems.isEmpty then pure c else throw problems

/-- The effective settings of a task at a point: its own, with the matching broadcasts written
over them from the weakest to the strongest. -/
def resolve (b : Broadcasts) (d : TaskDef) (pt : Point)
    (read : SettingTable → Except Failure TaskConfig := TaskConfig.ofTable) :
    Except (List Failure) TaskConfig :=
  resolveIn d ((b.applying d pt).mergeSort writtenNoLater) read

/-- Replaces the broadcasts with saved ones; the sequence continues from the newest. -/
def load (b : Broadcasts) (entries : List BroadcastEntry) (seq : Int) : Broadcasts :=
  let b := { b with entries := [], seq }
  entries.foldl (fun b e => { b.put e with seq := max b.seq e.seq }) b

/-- The changes logged since the last call, and the log emptied. -/
def drainChanges (b : Broadcasts) : Broadcasts × List BroadcastChange :=
  ({ b with changes := [] }, b.changes)

end Broadcasts

end CycleSched
