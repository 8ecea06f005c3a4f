import CycleSched.Pool.Basic
import CycleSched.Sorting

/-!
# Spawning and removing

Instances are spawned on demand: by their sequences, for tasks with no parent that could spawn
them, and by the outputs of their parents. An output satisfies the matching terms of the
dependants, spawning them first when the emitting instance is in a flow. A spawn is refused for
an instance already removed in the same flows, off its sequences, past the stop point, or whose
prerequisites can no longer be met; one past the runahead limit is deferred.

When an instance finishes, the outputs it can no longer emit make terms of its dependants
impossible, and waiting dependants that can then never run are removed, in turn. A finished
instance with all its required outputs is removed.

An instance triggered to wait for its flow spawns nothing until a later spawn in the same flow
reaches it; then the outputs it emitted spawn its children. Each instance is released that way
at most once, which bounds the depth of spawning by the number of traces.
-/

namespace CycleSched

open CycleSched.Graph

namespace Pool

/-- Adds a new instance unless its prerequisites can no longer be met. -/
def fresh (p : Pool) (d : TaskDef) (pt : Point) (flows : FlowSet) (k : TaskKey) :
    Pool × Option TaskKey :=
  let t := p.satisfyFromHistory (TaskInstance.make d pt p.wf.context.initial flows)
  if t.prereqsImpossible then (p, none) else (p.insert t, some k)

/-- A way to spawn a task at a point in some flows: it answers the pool and the key of the live
instance, if there is one. -/
abbrev Spawner := Pool → TaskDef → Point → FlowSet → Pool × Option TaskKey

/-- The live dependants of output `o` of the task `name` at `pt`, spawned first by `sp` in
`flows` when `spawnNew` is set. -/
def dependantsBy (sp : Spawner) (p : Pool) (pt : Point) (name o : String) (flows : FlowSet)
    (spawnNew : Bool) : Pool × List TaskKey :=
  (p.wf.children name o).foldl (fun (p, out) c =>
    match c.dep.triggers[c.trigger]? with
    | none => (p, out)
    | some trig =>
      match trig.point with
      | some tp =>
        if tp.val != pt.val then (p, out)
        else (p, out ++ (p.tasks.filter (·.task.name == c.child)).map (·.key))
      | none =>
        let cp := if trig.offset.isZero then pt else pt.add trig.offset.neg
        if !c.dep.seq.contains cp then (p, out)
        else
          let k : TaskKey := ⟨cp, c.child⟩
          match p.live? k with
          | some _ => (p, out ++ [k])
          | none =>
            if spawnNew then
              match p.wf.task? c.child with
              | some d =>
                let (p, r) := sp p d cp flows
                (p, out ++ r.toList)
              | none => (p, out)
            else (p, out)) (p, [])

/-- Satisfies the terms naming output `o` of the task `name` at `pt` in its dependants, spawned
first by `sp`. -/
def satisfyChildrenBy (sp : Spawner) (p : Pool) (pt : Point) (name o : String) (flows : FlowSet)
    (spawnNew : Bool) : Pool :=
  let (p, kids) := dependantsBy sp p pt name o flows spawnNew
  let ok : OutputKey := ⟨pt, name, o⟩
  kids.foldl (fun p k =>
    match p.live? k with
    | some child => p.update (child.satisfy ok).1
    | none => p) p

/-- Spawns, by `sp`, the children of a removed instance that waited for its flow, from the
outputs it emitted, in name order. -/
def releaseWaitingBy (sp : Spawner) (p : Pool) (k : TaskKey) (r : Trace) : Pool :=
  (sortBy (fun a b => decide (a ≤ b)) r.outputs).foldl
    (fun p o => satisfyChildrenBy sp p k.point k.name o r.flows true) p

/-- Spawns the task `d` at `pt` in `flows`, unless refused or deferred; answers the live
instance's key. A live instance at the same key takes the flows. Releasing an instance that
waited for its flow spawns with one unit of fuel less. -/
def spawn (fuel : Nat) (p : Pool) (d : TaskDef) (pt : Point) (flows : FlowSet) :
    Pool × Option TaskKey :=
  let k : TaskKey := ⟨pt, d.name⟩
  match p.live? k with
  | some t =>
    if t.flows.containsAll flows then (p, some k)
    else
      let t := { t with flows := t.flows.merge flows }
      ((p.update t).touch t, some k)
  | none =>
    let rerun := match p.trace? k with
      | some r => r.removed && (flows.isNone || r.flows.intersects flows)
      | none => false
    if rerun then
      match p.trace? k with
      | some r =>
        if r.flowWait && !flows.isNone then
          let r := { r with flowWait := false }
          let p := (p.setTrace k r).markDirty k
          match fuel with
          | 0 => (p, none)
          | f + 1 => (releaseWaitingBy (spawn f) p k r, none)
        else (p, none)
      | none => (p, none)
    else if !d.onSequence pt || p.beyondStop pt then (p, none)
    else
      match p.horizon with
      | some h =>
        if pt.after h then
          let old := (p.deferred.lookup k).getD FlowSet.none
          ({ p with deferred := (p.deferred.filter (·.1 != k)) ++ [(k, old.merge flows)] }, none)
        else fresh p d pt flows k
      | none => fresh p d pt flows k

/-- The live dependants of output `o` of the task `name` at `pt`, spawned first in `flows`
when `spawnNew` is set. -/
def dependants (fuel : Nat) : Pool → Point → String → String → FlowSet → Bool → Pool × List TaskKey :=
  dependantsBy (spawn fuel)

/-- Satisfies the terms naming output `o` of the task `name` at `pt` in its dependants. -/
def satisfyChildren (fuel : Nat) : Pool → Point → String → String → FlowSet → Bool → Pool :=
  satisfyChildrenBy (spawn fuel)

/-- Spawns the children of a removed instance that waited for its flow, from the outputs it
emitted, in name order. -/
def releaseWaiting (fuel : Nat) : Pool → TaskKey → Trace → Pool :=
  releaseWaitingBy (spawn fuel)

end Pool

end CycleSched
