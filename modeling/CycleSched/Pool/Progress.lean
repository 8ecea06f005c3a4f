import CycleSched.Pool.Spawn

/-!
# Outputs and the runahead limit

Processing an instance's new outputs records them in its trace, satisfies (and spawns) its
dependants, and, once the instance is finished, prunes the orphans of the outputs it can no
longer emit and removes it if it is complete, expired, or an expected failure.

Releasing the runahead limit spawns deferred instances and parentless instances on the
sequences up to the horizon, then forgets traces of removed instances that nothing can still
name.
-/

namespace CycleSched

open CycleSched.Graph

namespace Pool

/-- The bound on nested releases of instances waiting for their flow. -/
def spawnFuel (p : Pool) : Nat := p.history.length + 1

/-- Spawns with enough fuel for every nested release. -/
def spawnNow (p : Pool) (d : TaskDef) (pt : Point) (flows : FlowSet) : Pool × Option TaskKey :=
  spawn p.spawnFuel p d pt flows

/-- Removes waiting dependants that can never run because `t` will not emit `lost`, and the
dependants of those in turn. Each removal adds one item of work, so the work ends. -/
def pruneOrphans (p : Pool) (t : TaskInstance) (lost : List String) : Pool :=
  go (p.tasks.length + 2) p [(t, lost)]
where
  /-- Works through instances and the outputs they lost. -/
  go : Nat → Pool → List (TaskInstance × List String) → Pool
    | 0, p, _ => p
    | _ + 1, p, [] => p
    | fuel + 1, p, (it, lost) :: rest =>
      let (p, found) := lost.foldl (fun (p, found) o =>
        let ok : OutputKey := ⟨it.point, it.task.name, o⟩
        let (p, kids) := dependants 0 p it.point it.task.name o FlowSet.none false
        kids.foldl (fun (p, found) k =>
          match p.live? k with
          | none => (p, found)
          | some child =>
            let (child, changed) := child.markImpossible ok
            let p := p.update child
            if !changed || child.state != .waiting || child.forced || !child.prereqsImpossible then
              (p, found)
            else (p.delete child "orphaned", found ++ [(child, child.notEmitted)])) (p, found))
        (p, [])
      go fuel p (rest ++ found)

/-- Removes a finished instance that is complete, expired, or an expected failure; an
incomplete one stays. -/
def removeIfDone (p : Pool) (t : TaskInstance) : Pool :=
  if !t.state.isFinal then p
  else if t.isComplete then p.remove t "completed"
  else if t.state == .expired then p.remove t "expired"
  else if t.state == .failed && p.wf.config.isExpectedFailure t.taskId then p.remove t "expected failure"
  else p

/-- Records new outputs of `t` and acts on them. It follows every change of state of `t`. -/
def processOutputs (p : Pool) (t : TaskInstance) (outputs : List String) : Pool :=
  let k := t.key
  let p := p.update t
  let p := p.touch t
  let r := (p.trace? k).getD {}
  let p := p.setTrace k { r with outputs := r.outputs ++ outputs.filter (!r.outputs.contains ·) }
  let spawnNew := !t.flows.isNone && !t.flowWait
  let fuel := p.spawnFuel
  let p := outputs.foldl (fun p o => satisfyChildren fuel p t.point t.task.name o t.flows spawnNew) p
  let t := (p.live? k).getD t
  if t.state.isFinal then
    let p := p.pruneOrphans t t.unemittable
    p.removeIfDone ((p.live? k).getD t)
  else p

/-- Forgets traces of removed instances older than anything a live or future instance can
still name, unless named absolutely or not yet drained. -/
def housekeep (p : Pool) : Pool :=
  match p.base with
  | none => p
  | some b =>
    let cutoff := b.add p.keep.neg
    { p with history := p.history.filter fun (k, r) =>
        !(r.removed && !p.dirty.contains k && !p.absolute.contains k && k.point.before cutoff) }

/-- Walks a task's cursor up to the horizon, spawning it where it has no parent to do so. The
cursor stops past the stop point and when the sequences run out. -/
def advanceCursor (p : Pool) (d : TaskDef) (h : Point) : Pool :=
  match p.cursor? d.name with
  | some (some start) => go ((h.val.toInt - start.val.toInt).toNat + 2) p start
  | _ => p
where
  /-- Visits the cursor's points from `pt` on. -/
  go : Nat → Pool → Point → Pool
    | 0, p, _ => p
    | fuel + 1, p, pt =>
      if pt.after h then p
      else if p.beyondStop pt then p.setCursor d.name none
      else
        let p := if p.wf.isParentless d pt then (p.spawnNow d pt (FlowSet.ofList [1])).1 else p
        match d.nextPoint pt with
        | some q => go fuel (p.setCursor d.name (some q)) q
        | none => p.setCursor d.name none

/-- Spawns deferred instances and sequence spawns that now lie within the runahead limit, then
forgets what can no longer be named. -/
def releaseRunahead (p : Pool) : Pool :=
  match p.horizon with
  | none => p
  | some h =>
    let ready := (p.deferred.filter fun (k, _) => !k.point.after h).map (·.1)
    let ready := sortBy (fun a b => !p.keyBefore b a) ready
    let p := ready.foldl (fun p k =>
      let flows := (p.deferred.lookup k).getD FlowSet.none
      let p := { p with deferred := p.deferred.filter (·.1 != k) }
      match p.wf.task? k.name with
      | some d => (p.spawnNow d k.point flows).1
      | none => p) p
    let p := p.wf.tasks.foldl (fun p d => p.advanceCursor d h) p
    p.housekeep

/-- Starts a fresh run: each task's cursor at its first point, then the runahead release. -/
def start (p : Pool) : Pool :=
  let p := p.wf.tasks.foldl (fun p d => p.setCursor d.name d.firstPoint) p
  p.releaseRunahead

/-- Puts an instance into the pool whatever the runahead limit and whether it ran before. -/
def create (p : Pool) (d : TaskDef) (pt : Point) (flows : FlowSet) : Pool × TaskInstance :=
  let k : TaskKey := ⟨pt, d.name⟩
  let p := { p with deferred := p.deferred.filter (·.1 != k) }
  let t := p.satisfyFromHistory (TaskInstance.make d pt p.wf.context.initial flows)
  let p := p.insert t
  (p, (p.live? k).getD t)

end Pool

end CycleSched
