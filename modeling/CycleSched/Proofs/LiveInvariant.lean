import CycleSched.Proofs.FlowCommands
import CycleSched.Proofs.Recurrence

/-!
# Properties of the live instances that every step keeps

The live instances of a pool change in three ways only: an instance is replaced by another at
its key (`Pool.update`), a new one is placed in pool order (`Pool.place`, by `Pool.insert` and
by the restore), or one is deleted (`Pool.delete`). Everything else a step does leaves the
workflow and the live instances as they are. An instance put in continues a live one (same task
and point), is a fresh instance of a task at a point of its sequences, or is restored from a
checkpoint.

`LiveInvariant I J` says that a property `I` of the workflow and the live instances survives the
three changes, for instances put in with a property `J` of their task and point that live
instances and fresh instances on a sequence have. This module proves once that every operation
of the pool keeps such an `I`, and so does every step of a session (`LiveInvariant.perform`,
`LiveInvariant.run`): a restore when the instances it reads have `J`.
-/

namespace CycleSched

open CycleSched.Graph

/-- `I` is a property of a pool's workflow and live instances that replacing, placing and
deleting an instance keep, for instances put in with the property `J`. `J` depends on an
instance's task and point alone; live instances have it, and so do fresh instances of a task of
the pool's workflow at a point of its sequences. -/
structure LiveInvariant (I : Pool → Prop) (J : TaskInstance → Prop) : Prop where
  congr : ∀ {p q : Pool}, I p → q.wf = p.wf → q.tasks = p.tasks → I q
  live : ∀ {p : Pool} {t : TaskInstance}, I p → t ∈ p.tasks → J t
  samePlace : ∀ {t t' : TaskInstance}, J t → t'.task = t.task → t'.point = t.point → J t'
  made : ∀ {p : Pool} {d : TaskDef} {pt initial : Point} {flows : FlowSet}, I p →
    d ∈ p.wf.tasks → d.onSequence pt = true → J (TaskInstance.make d pt initial flows)
  update : ∀ {p : Pool} {t : TaskInstance}, I p → J t → I (p.update t)
  place : ∀ {p : Pool} {t : TaskInstance}, I p → J t → I (p.place t)
  delete : ∀ {p : Pool} {t : TaskInstance} {reason : String}, I p → I (p.delete t reason)

/-- The steps that replace the pool's contents with a checkpoint. -/
def Step.restores : Step → Bool
  | .restore .. | .restart => true
  | _ => false

theorem Graph.Workflow.mem_of_task? {w : Workflow} {name : String} {d : TaskDef}
    (h : w.task? name = some d) : d ∈ w.tasks :=
  List.mem_of_find?_eq_some h

namespace Pool

variable {p : Pool} {k : TaskKey} {r : Trace} {t : TaskInstance}

@[simp] theorem setTrace_wf : (p.setTrace k r).wf = p.wf := by
  unfold setTrace; split <;> rfl

@[simp] theorem markDirty_wf : (p.markDirty k).wf = p.wf := by
  unfold markDirty; split <;> rfl

@[simp] theorem setCursor_wf {name : String} {c : Option Point} : (p.setCursor name c).wf = p.wf := by
  unfold setCursor; split <;> rfl

@[simp] theorem touch_wf : (p.touch t).wf = p.wf := by simp [touch_eq]

@[simp] theorem place_wf : (p.place t).wf = p.wf := rfl

/-- `insert` places the instance, held when past the hold point or asked for, and records its
fresh trace. -/
theorem insert_placed (p : Pool) (t : TaskInstance) : ∃ u : TaskInstance, u.task = t.task ∧
    u.point = t.point ∧ (p.insert t).wf = p.wf ∧
    (p.insert t).tasks = ({ p with holds := p.holds.erase t.key }.place u).tasks := by
  unfold insert
  dsimp only
  -- by the hold point, then by whether the instance is held
  split <;> split
  · exact ⟨{ t with held := true }, rfl, rfl, by simp, by simp⟩
  · exact ⟨t, rfl, rfl, by simp, by simp⟩
  · exact ⟨{ t with held := true }, rfl, rfl, by simp, by simp⟩
  · exact ⟨t, rfl, rfl, by simp, by simp⟩

/-- The step a spawner takes for a task of the workflow keeps `I`. -/
def SpawnKeeps (I : Pool → Prop) (sp : Spawner) : Prop :=
  ∀ (q : Pool) (d : TaskDef) (pt : Point) (flows : FlowSet), d ∈ q.wf.tasks → I q →
    I (sp q d pt flows).1

/-- The pool a command's sweep carries, or the pool it was refused with, has `I`. -/
def SweepKeeps (I : Pool → Prop) : Except (Pool × Failure) Sweep → Prop
  | .ok s => I s.pool
  | .error (q, _) => I q

/-- Finding the dependants of an output keeps `I`, when the spawns it may make do. -/
theorem SpawnKeeps.dependantsBy {I : Pool → Prop} {p : Pool} {sp : Spawner} {pt : Point}
    {name o : String} {flows : FlowSet} {spawnNew : Bool} (hsp : spawnNew = true → SpawnKeeps I sp)
    (hp : I p) : I (dependantsBy sp p pt name o flows spawnNew).1 := by
  unfold Pool.dependantsBy
  refine List.foldlRecOn (motive := fun x : Pool × List TaskKey => I x.1) _ _ hp ?_
  rintro ⟨q, out⟩ hq c -
  dsimp only
  -- only a dependant not yet live, spawned when `spawnNew` asks for it, changes the pool
  repeat' split
  all_goals first
    | exact hq
    | exact hsp ‹_› q _ _ _ (Workflow.mem_of_task? ‹_›) hq

/-- The targets of a command: live ones with `J`, absent ones tasks of `wf` on their sequences. -/
def Targets (wf : Workflow) (J : TaskInstance → Prop) (ts : List Target) : Prop :=
  (∀ t, Target.live t ∈ ts → J t) ∧
    ∀ d pt, Target.absent d pt ∈ ts → d ∈ wf.tasks ∧ d.onSequence pt = true

theorem SweepKeeps.answer {I : Pool → Prop} {acc : Except (Pool × Failure) Sweep} (h : SweepKeeps I acc) :
    I (Sweep.answer acc).1 := by
  cases acc with
  | ok s => exact h
  | error x => exact h

theorem resolveId_spec {s : String} {d : TaskDef} {pt : Point}
    (h : p.resolveId s = .ok (d, pt)) : d ∈ p.wf.tasks ∧ d.onSequence pt = true := by
  unfold resolveId at h
  simp only [bind, Except.bind] at h
  -- each refusal throws; the task is found in the workflow, and the last check passes only on
  -- a sequence point
  repeat' split at h
  all_goals simp_all [throw, throwThe, MonadExceptOf.throw, pure, Except.pure]
  exact Workflow.mem_of_task? ‹_›


/-- The ids a command names that match no live instance are read as tasks of the workflow at
points of their sequences. -/
theorem mem_targets_absent {command : String} {patterns : List String} {ts : List Target}
    {d : TaskDef} {pt : Point} (h : p.targets command patterns = .ok ts)
    (ht : Target.absent d pt ∈ ts) : d ∈ p.wf.tasks ∧ d.onSequence pt = true := by
  unfold targets at h
  dsimp only at h
  obtain ⟨named, hnamed, rfl⟩ := Except.map_eq_ok_iff.1 h
  rcases List.mem_append.1 ht with ht' | ht'
  · obtain ⟨u, -, hu⟩ := List.mem_map.1 ht'
    cases hu
  · clear h ht
    generalize (p.select patterns).2 = unmatched at hnamed
    induction unmatched generalizing named with
    | nil =>
      simp only [List.mapM_nil, pure, Except.pure, Except.ok.injEq] at hnamed
      subst hnamed
      exact absurd ht' List.not_mem_nil
    | cons pat rest ih =>
      rw [List.mapM_cons] at hnamed
      obtain ⟨tg, htg, hrest⟩ := Except.bind_eq_ok_iff.1 hnamed
      obtain ⟨tgs, htgs, hcons⟩ := Except.bind_eq_ok_iff.1 hrest
      cases hcons
      rcases List.mem_cons.1 ht' with rfl | ht'
      · split at htg
        next hres => cases htg; exact resolveId_spec hres
        next => cases htg
      · exact ih tgs ht' htgs

/-- The targets of a command on a pool whose live instances have `J`. -/
theorem targets_of_live {J : TaskInstance → Prop} (hJ : ∀ t ∈ p.tasks, J t) {command : String}
    {patterns : List String} {ts : List Target} (h : p.targets command patterns = .ok ts) :
    Targets p.wf J ts :=
  ⟨fun t ht => hJ t (mem_select (mem_targets_live h ht)), fun _ _ ht => mem_targets_absent h ht⟩

/-- A key read from a checkpoint is at a point of the workflow's mode. -/
theorem readKey_mode {name point : String} {k : TaskKey} (h : p.readKey name point = .ok k) :
    k.point.mode = p.wf.context.mode := by
  unfold readKey at h
  split at h
  · cases h
  · split at h
    · next pt hpt =>
      cases h
      exact Point.parse_mode hpt
    · cases h

theorem applyEach_keeps {I : Pool → Prop} {α : Type} {l : List α} {f : Pool → α → Except Failure Pool}
    (hf : ∀ q x q', x ∈ l → I q → f q x = .ok q' → I q') (hp : I p) : I (p.applyEach l f).1 := by
  unfold Pool.applyEach
  refine List.foldlRecOn (motive := fun x : Pool × Except Failure Unit => I x.1) _ _ hp
    fun acc hacc x hx => ?_
  -- a step is taken while none has failed, and its pool kept when it succeeds
  split
  · split
    next q' hq' => exact hf _ x q' hx hacc hq'
    next => exact hacc
  · exact hacc

/-- A restore keeps a property of pools that the cleared pool has and that each of its stages
keeps: loading a trace, an instance or a spawn record of the checkpoint, and adding the missing
cursors. -/
theorem restore_keeps {I : Pool → Prop} {tasks : List SavedTask} {spawn : List SpawnRecord}
    {history : List SavedTrace} {nextFlow : Int} (hclear : I (p.cleared nextFlow))
    (htrace : ∀ q h q', h ∈ history → I q → q.loadTrace h = .ok q' → I q')
    (htask : ∀ q r q', r ∈ tasks → I q → q.loadTask r = .ok q' → I q')
    (hspawn : ∀ q r q', r ∈ spawn → I q → q.loadSpawn r = .ok q' → I q')
    (hcursors : ∀ q, I q → I q.addMissingCursors) :
    I (p.restore tasks spawn history nextFlow).1 := by
  unfold Pool.restore
  -- traces, then instances, then spawn records, each stage stopping at a record that fails
  have h₁ := applyEach_keeps htrace hclear
  rcases hl₁ : (p.cleared nextFlow).applyEach history Pool.loadTrace with ⟨q, _ | ⟨⟨⟩⟩⟩
  · rw [hl₁] at h₁
    exact h₁
  rw [hl₁] at h₁
  dsimp only
  have h₂ := applyEach_keeps htask h₁
  rcases hl₂ : q.applyEach tasks Pool.loadTask with ⟨q', _ | ⟨⟨⟩⟩⟩
  · rw [hl₂] at h₂
    exact h₂
  rw [hl₂] at h₂
  dsimp only
  have h₃ := applyEach_keeps hspawn h₂
  rcases hl₃ : q'.applyEach spawn Pool.loadSpawn with ⟨q'', _ | ⟨⟨⟩⟩⟩
  · rw [hl₃] at h₃
    exact h₃
  rw [hl₃] at h₃
  exact hcursors _ h₃

end Pool

namespace LiveInvariant

open Pool

variable {I : Pool → Prop} {J : TaskInstance → Prop} (hI : LiveInvariant I J)
variable {p q : Pool} {t u : TaskInstance} {k : TaskKey} {r : Trace}
include hI

/-- `I` of a pool with a given workflow: no change to the live instances touches the workflow. -/
theorem withWf (w : Workflow) : LiveInvariant (fun q => I q ∧ q.wf = w) J where
  congr hp hwf htasks := ⟨hI.congr hp.1 hwf htasks, hwf.trans hp.2⟩
  live hp ht := hI.live hp.1 ht
  samePlace ht htask hpoint := hI.samePlace ht htask hpoint
  made hp hd hseq := hI.made hp.1 hd hseq
  update hp ht := ⟨hI.update hp.1 ht, hp.2⟩
  place hp ht := ⟨hI.place hp.1 ht, hp.2⟩
  delete hp := ⟨hI.delete hp.1, hp.2⟩

/-! ## One instance, one trace -/

theorem sameSpawn (h : t.SameSpawn u) (ht : J t) : J u := hI.samePlace ht h.1 h.2.1

theorem live_getD (hp : I p) (ht : J t) : J ((p.live? k).getD t) := by
  cases h : p.live? k with
  | none => exact ht
  | some u => exact hI.live hp (live?_eq_some h).1

theorem setTrace (hp : I p) : I (p.setTrace k r) := hI.congr hp setTrace_wf setTrace_tasks

theorem markDirty (hp : I p) : I (p.markDirty k) := hI.congr hp markDirty_wf markDirty_tasks

theorem touch (hp : I p) : I (p.touch t) := hI.congr hp touch_wf touch_tasks

theorem setCursor (hp : I p) {name : String} {c : Option Point} : I (p.setCursor name c) :=
  hI.congr hp setCursor_wf setCursor_tasks

theorem housekeep (hp : I p) : I p.housekeep := by
  unfold Pool.housekeep
  split
  · exact hp
  · exact hI.congr hp rfl rfl

theorem remove (hp : I p) {reason : String} : I (p.remove t reason) := by
  unfold Pool.remove
  exact hI.delete (hI.setTrace (hI.touch hp))

/-- A new instance with `J`, perhaps held, is placed among the live ones. -/
theorem insert (hp : I p) (ht : J t) : I (p.insert t) := by
  obtain ⟨u, htask, hpoint, hwf, htasks⟩ := insert_placed p t
  exact hI.congr (hI.place (hI.congr hp rfl rfl) (hI.samePlace ht htask hpoint)) hwf htasks

/-! ## Spawning -/

/-- A fresh instance of a task at a point of its sequences. -/
theorem freshSpawn (hp : I p) {d : TaskDef} {pt : Point} {flows : FlowSet} (hdw : d ∈ p.wf.tasks)
    (hd : d.onSequence pt = true) : I (p.fresh d pt flows k).1 := by
  unfold Pool.fresh
  dsimp only
  split
  · exact hp
  · exact hI.insert hp (hI.sameSpawn (sameSpawn_satisfyFromHistory p _) (hI.made hp hdw hd))

theorem satisfyChildrenBy {sp : Spawner} {pt : Point} {name o : String} {flows : FlowSet}
    {spawnNew : Bool} (hsp : spawnNew = true → SpawnKeeps I sp) (hp : I p) :
    I (satisfyChildrenBy sp p pt name o flows spawnNew) := by
  unfold Pool.satisfyChildrenBy
  dsimp only
  refine List.foldlRecOn (motive := I) _ _ (SpawnKeeps.dependantsBy hsp hp) fun q hq k _ => ?_
  split
  next child hchild =>
    exact hI.update hq (hI.sameSpawn (TaskInstance.sameSpawn_satisfy child _)
      (hI.live hq (live?_eq_some hchild).1))
  next => exact hq

theorem releaseWaitingBy {sp : Spawner} (hsp : SpawnKeeps I sp) (hp : I p) :
    I (releaseWaitingBy sp p k r) := by
  unfold Pool.releaseWaitingBy
  exact List.foldlRecOn (motive := I) _ _ hp fun q hq o _ => hI.satisfyChildrenBy (fun _ => hsp) hq

/-- A spawn keeps `I` when the nested releases it makes do: it merges flows into a live
instance, releases one that waited for its flow, holds the key back, or puts in a fresh instance
on a sequence. -/
theorem spawnKeeps_of_release {fuel : Nat} (hrel : ∀ f, fuel = f + 1 → SpawnKeeps I (spawn f)) :
    SpawnKeeps I (spawn fuel) := by
  intro p d pt flows hdw hp
  unfold spawn
  dsimp only
  split
  next t hlive =>
    split
    · exact hp
    · have ht : J { t with flows := t.flows.merge flows } :=
        hI.samePlace (hI.live hp (live?_eq_some hlive).1) rfl rfl
      exact hI.touch (hI.update hp ht)
  next =>
    by_cases hrerun : ∃ r, p.trace? ⟨pt, d.name⟩ = some r ∧
        (r.removed && (flows.isNone || r.flows.intersects flows)) = true
    · -- a trace marked removed refuses the spawn, and releases the instance if it waited
      obtain ⟨r, hr, hc⟩ := hrerun
      simp only [hr, hc, if_true]
      split
      · have hq : I ((p.setTrace ⟨pt, d.name⟩ { r with flowWait := false }).markDirty
            ⟨pt, d.name⟩) := hI.markDirty (hI.setTrace hp)
        split
        · exact hq
        next f => exact hI.releaseWaitingBy (hrel f rfl) hq
      · exact hp
    · rw [if_neg ?norefusal]
      · -- the sequence, the stop point and the runahead limit decide
        split
        · exact hp
        next hseq =>
          have hd : d.onSequence pt = true := by
            cases h : d.onSequence pt <;> simp_all
          split
          · split
            · exact hI.congr hp rfl rfl
            · exact hI.freshSpawn hp hdw hd
          · exact hI.freshSpawn hp hdw hd
      · split
        next r hr => exact fun hc => hrerun ⟨r, hr, hc⟩
        next => exact Bool.false_ne_true

theorem spawnKeeps (fuel : Nat) : SpawnKeeps I (spawn fuel) := by
  induction fuel with
  | zero => exact hI.spawnKeeps_of_release fun _ h => nomatch h
  | succ f ih => exact hI.spawnKeeps_of_release fun f' h => by cases h; exact ih

/-! ## The pool's progress -/

/-- Pruning orphans marks terms impossible and deletes instances. -/
theorem pruneOrphans_go (fuel : Nat) :
    ∀ (p : Pool) (work : List (TaskInstance × List String)), I p → I (pruneOrphans.go fuel p work) := by
  induction fuel with
  | zero => intro p work hp; exact hp
  | succ fuel ih =>
    intro p work hp
    cases work with
    | nil => exact hp
    | cons item rest =>
      obtain ⟨it, lost⟩ := item
      unfold pruneOrphans.go
      dsimp only
      refine ih _ _ (List.foldlRecOn (motive := fun x : Pool × List (TaskInstance × List String) =>
        I x.1) _ _ hp fun x hx o _ => ?_)
      -- finding the dependants spawns nothing; each is marked and perhaps deleted
      have h₁ : I (dependants 0 x.1 it.point it.task.name o FlowSet.none false).1 :=
        SpawnKeeps.dependantsBy (fun h => absurd h Bool.false_ne_true) hx
      refine List.foldlRecOn (motive := fun y : Pool × List (TaskInstance × List String) => I y.1)
        _ _ h₁ fun y hy k _ => ?_
      split
      · exact hy
      next child hchild =>
        have hmarked := hI.update hy (hI.sameSpawn (TaskInstance.sameSpawn_markImpossible child
          ⟨it.point, it.task.name, o⟩) (hI.live hy (live?_eq_some hchild).1))
        split
        · exact hmarked
        · exact hI.delete hmarked

theorem removeIfDone (hp : I p) : I (p.removeIfDone t) := by
  unfold Pool.removeIfDone
  split
  · exact hp
  · split
    · exact hI.remove hp
    · split
      · exact hI.remove hp
      · split
        · exact hI.remove hp
        · exact hp

/-- Recording the outputs of an instance with `J` and acting on them. -/
theorem processOutputs (hp : I p) (ht : J t) (outputs : List String) :
    I (p.processOutputs t outputs) := by
  -- satisfying and spawning the dependants of each output keeps `I`
  have hfold : ∀ (q : Pool) (fuel : Nat) (spawnNew : Bool), I q →
      I (outputs.foldl (fun p o => satisfyChildren fuel p t.point t.task.name o t.flows spawnNew) q) :=
    fun q _ _ hq => List.foldlRecOn (motive := I) outputs _ hq
      fun q hq _ _ => hI.satisfyChildrenBy (fun _ => hI.spawnKeeps _) hq
  have h₁ : I ((p.update t).touch t) := hI.touch (hI.update hp ht)
  unfold Pool.processOutputs
  dsimp only
  -- a finished instance then prunes its orphans and may be removed
  split
  · exact hI.removeIfDone (hI.pruneOrphans_go _ _ _ (hfold _ _ _ (hI.setTrace h₁)))
  · exact hfold _ _ _ (hI.setTrace h₁)

theorem advanceCursor (hp : I p) {d : TaskDef} (hd : d ∈ p.wf.tasks) (h : Point) :
    I (p.advanceCursor d h) :=
  -- the cursor's spawns are of `d`, a task of the workflow they keep
  (Pool.advanceCursor_keeps (P := fun q => I q ∧ q.wf = p.wf)
    (fun q pt hq => (hI.withWf p.wf).spawnKeeps _ q d pt _ (hq.2 ▸ hd) hq)
    (fun _ _ hq => (hI.withWf p.wf).setCursor hq) ⟨hp, rfl⟩).1

/-- Advancing the cursor of each task of the workflow in turn. -/
theorem advanceCursors (hp : I p) (h : Point) :
    I (p.wf.tasks.foldl (fun q d => q.advanceCursor d h) p) :=
  (List.foldlRecOn (motive := fun q => I q ∧ q.wf = p.wf) _ _ ⟨hp, rfl⟩
    fun q hq _ hd => (hI.withWf p.wf).advanceCursor hq (hq.2 ▸ hd) h).1

/-- The runahead release spawns held-back keys and sequence spawns, then forgets traces. -/
theorem releaseRunahead (hp : I p) : I p.releaseRunahead := by
  unfold Pool.releaseRunahead
  split
  · exact hp
  · dsimp only
    refine hI.housekeep (hI.advanceCursors ?_ _)
    refine List.foldlRecOn (motive := I) _ _ hp fun q hq k _ => ?_
    have hq' : I { q with deferred := q.deferred.filter (·.1 != k) } := hI.congr hq rfl rfl
    split
    · exact hI.spawnKeeps _ _ _ _ _ (Workflow.mem_of_task? ‹_›) hq'
    · exact hq'

theorem start (hp : I p) : I p.start := by
  unfold Pool.start
  dsimp only
  exact hI.releaseRunahead (List.foldlRecOn (motive := I) _ _ hp fun q hq d _ => hI.setCursor hq)

/-- The reports of jobs keep `I`: they update live instances, process outputs and release the
runahead limit. -/
theorem reportInvariant : ReportInvariant I J where
  live hp ht := hI.live hp ht
  sameSpawn h ht := hI.sameSpawn h ht
  update hp ht := hI.update hp ht
  processOutputs outs hp ht := hI.processOutputs hp ht outs
  releaseRunahead hp := hI.releaseRunahead hp

/-! ## Commands -/

/-- An instance created by a command, of a task at a point of its sequences. -/
theorem create (hp : I p) {d : TaskDef} {pt : Point} {flows : FlowSet} (hdw : d ∈ p.wf.tasks)
    (hd : d.onSequence pt = true) : I (p.create d pt flows).1 ∧ J (p.create d pt flows).2 := by
  unfold Pool.create
  dsimp only
  set q : Pool := { p with deferred := p.deferred.filter (·.1 != ⟨pt, d.name⟩) }
  have hq : I q := hI.congr hp rfl rfl
  have ht := hI.sameSpawn
    (sameSpawn_satisfyFromHistory q (TaskInstance.make d pt p.wf.context.initial flows))
    (hI.made hq hdw hd)
  exact ⟨hI.insert hq ht, hI.live_getD (hI.insert hq ht) ht⟩

/-- Reading a flow option changes the next flow number alone. -/
theorem flowsFor (hp : I p) (opt : String) (existing : FlowSet) (newFlow : Option Int) :
    I (p.flowsFor opt existing newFlow).1 := by
  obtain ⟨n, hq⟩ := onlyNextFlow_flowsFor p opt existing newFlow
  rw [hq]
  exact hI.congr hp rfl rfl

/-- A triggered instance, waiting for its flow or not, replaces the one it was made from. -/
theorem triggered (hq : I q) (ht : J t) {t' : TaskInstance} (htrig : t.trigger = .ok t')
    (wait : Bool) :
    I ((q.update { t' with flowWait := wait }).touch { t' with flowWait := wait }) ∧
      J { t' with flowWait := wait } := by
  have ht' : J { t' with flowWait := wait } :=
    hI.samePlace (hI.sameSpawn (TaskInstance.frame_trigger htrig).spawn ht) rfl rfl
  exact ⟨hI.touch (hI.update hq ht'), ht'⟩

/-- A live target of a trigger with `J` takes the flows the option gives and is forced. -/
theorem triggerTarget_live {flow : String} {wait : Bool} {s : Sweep} (hs : I s.pool)
    (ht : J t) : SweepKeeps I (Pool.triggerTarget flow wait (.ok s) (.live t)) := by
  -- the flow option is read first; it changes the next flow number alone
  have hex := hI.flowsFor hs flow ((s.pool.live? t.key).getD t).flows s.newFlow
  rcases hff : s.pool.flowsFor flow ((s.pool.live? t.key).getD t).flows s.newFlow with ⟨q, nf, r⟩
  rw [hff] at hex
  cases r with
  | error e =>
    have hr : Pool.triggerTarget flow wait (.ok s) (.live t) =
        .error (q, .rejected "trigger" e.message) := by
      simp only [Pool.triggerTarget, bind, Except.bind, hff]
      rfl
    rw [hr]
    exact hex
  | ok f =>
    set cur := (q.live? t.key).getD t
    set t' := if (flow != "" && flow != "all") = true then { cur with flows := f } else cur
    have ht' : J t' := by
      have hcur : J cur := hI.live_getD hex ht
      simp only [t']
      split
      · exact hI.samePlace hcur rfl rfl
      · exact hcur
    cases htrig : t'.trigger with
    | error e =>
      have hr : Pool.triggerTarget flow wait (.ok s) (.live t) = .error (q.update t', e) := by
        simp only [Pool.triggerTarget, bind, Except.bind, pure, Except.pure, hff, t', cur, htrig]
        rfl
      rw [hr]
      exact hI.update hex ht'
    | ok t'' =>
      have hr : Pool.triggerTarget flow wait (.ok s) (.live t) =
          .ok ⟨((q.update t').update { t'' with flowWait := wait }).touch
            { t'' with flowWait := wait }, nf, s.done ++ [{ t'' with flowWait := wait }]⟩ := by
        simp only [Pool.triggerTarget, bind, Except.bind, pure, Except.pure, hff, t', cur, htrig]
      rw [hr]
      exact (hI.triggered (hI.update hex ht') ht' htrig wait).1

/-- An absent target of a trigger, on its sequences, is created and forced. -/
theorem triggerTarget_absent {flow : String} {wait : Bool} {s : Sweep} (hs : I s.pool)
    {d : TaskDef} {pt : Point} (hdw : ∀ q, I q → d ∈ q.wf.tasks) (hd : d.onSequence pt = true) :
    SweepKeeps I (Pool.triggerTarget flow wait (.ok s) (.absent d pt)) := by
  have hex := hI.flowsFor hs flow FlowSet.none s.newFlow
  rcases hff : s.pool.flowsFor flow FlowSet.none s.newFlow with ⟨q, nf, r⟩
  rw [hff] at hex
  cases r with
  | error e =>
    have hr : Pool.triggerTarget flow wait (.ok s) (.absent d pt) =
        .error (q, .rejected "trigger" e.message) := by
      simp only [Pool.triggerTarget, bind, Except.bind, hff]
      rfl
    rw [hr]
    exact hex
  | ok f =>
    obtain ⟨hc, hct⟩ : I (q.create d pt f).1 ∧ J (q.create d pt f).2 := hI.create hex (hdw _ hex) hd
    cases htrig : (q.create d pt f).2.trigger with
    | error e =>
      have hr : Pool.triggerTarget flow wait (.ok s) (.absent d pt) =
          .error ((q.create d pt f).1, e) := by
        simp only [Pool.triggerTarget, bind, Except.bind, pure, Except.pure, hff, htrig]
        rfl
      rw [hr]
      exact hc
    | ok t'' =>
      have hr : Pool.triggerTarget flow wait (.ok s) (.absent d pt) =
          .ok ⟨((q.create d pt f).1.update { t'' with flowWait := wait }).touch
            { t'' with flowWait := wait }, nf, s.done ++ [{ t'' with flowWait := wait }]⟩ := by
        simp only [Pool.triggerTarget, bind, Except.bind, pure, Except.pure, hff, htrig]
      rw [hr]
      exact (hI.triggered hc hct htrig wait).1

theorem foldl_triggerTarget {flow : String} {wait : Bool} {w : Workflow} (hwf : ∀ q, I q → q.wf = w)
    (ts : List Target) (hts : Targets w J ts) (acc : Except (Pool × Failure) Sweep)
    (hacc : SweepKeeps I acc) :
    SweepKeeps I (ts.foldl (Pool.triggerTarget flow wait) acc) := by
  refine List.foldlRecOn (motive := SweepKeeps I) ts _ hacc fun acc hacc tg htg => ?_
  cases acc with
  | error x => exact hacc
  | ok s =>
    cases tg with
    | live t => exact hI.triggerTarget_live hacc (hts.1 t htg)
    | absent d pt =>
      exact hI.triggerTarget_absent hacc (fun q hq => hwf q hq ▸ (hts.2 d pt htg).1)
        (hts.2 d pt htg).2



theorem trigger (hp : I p) (patterns : List String) (flow : String) (wait : Bool) :
    I (p.trigger patterns flow wait).1 := by
  rw [trigger_eq]
  rcases hts : p.targets "trigger" patterns with e | ts
  · exact hp
  dsimp only
  cases ts.findSome? busyTarget with
  | some t => exact hp
  | none =>
    -- the targets are read from `p`, so the sweep carries the workflow of `p` along
    exact (SweepKeeps.answer ((hI.withWf p.wf).foldl_triggerTarget (fun _ hq => hq.2) ts
      (targets_of_live (fun _ ht => hI.live hp ht) hts) _ (by exact ⟨hp, rfl⟩))).1

/-- Setting outputs on an instance with `J`: the updated pool, and the pool after processing
whatever outputs the instance emits, keep `I`. -/
theorem setOn {q : Pool} {t : TaskInstance} (hq : I q) (ht : J t) (names : List String)
    (now : Instant) :
    I (q.update (t.setOutputs names now).1) ∧
      ∀ o, I ((q.update (t.setOutputs names now).1).processOutputs (t.setOutputs names now).1 o) := by
  have ht' := hI.sameSpawn (TaskInstance.frame_setOutputs t names now).spawn ht
  exact ⟨hI.update hq ht', fun o => hI.processOutputs (hI.update hq ht') ht' o⟩

/-- One target of setting outputs: the live instance, or one created on its sequences, emits
the outputs, which are then acted on. -/
theorem setTarget {outputs : List String} {flow : String} {now : Instant} {w : Workflow}
    (hwf : ∀ q, I q → q.wf = w) {acc : Except (Pool × Failure) Sweep} (hacc : SweepKeeps I acc)
    (tg : Target) (htg : ∀ t, tg = .live t → J t)
    (habs : ∀ d pt, tg = .absent d pt → d ∈ w.tasks ∧ d.onSequence pt = true) :
    SweepKeeps I (Pool.setTarget outputs flow now acc tg) := by
  cases acc with
  | error x => exact hacc
  | ok s =>
    have hs : I s.pool := hacc
    cases tg with
    | live t =>
      set u := (s.pool.live? t.key).getD t
      obtain ⟨hupd, hproc⟩ := hI.setOn hs (hI.live_getD hs (htg t rfl))
        (if outputs.isEmpty then requiredOutputs u.task else outputs) now
      simp only [Pool.setTarget, bind, Except.bind, pure, Except.pure]
      -- the outputs are emitted, or the update stands with the refusal
      split
      · exact hproc _
      · exact hupd
    | absent d pt =>
      have hex := hI.flowsFor hs flow FlowSet.none s.newFlow
      rcases hff : s.pool.flowsFor flow FlowSet.none s.newFlow with ⟨q, nf, r⟩
      rw [hff] at hex
      cases r with
      | error e =>
        have hr : Pool.setTarget outputs flow now (.ok s) (.absent d pt) =
            .error (q, .rejected "set" e.message) := by
          simp only [Pool.setTarget, bind, Except.bind, hff]
          rfl
        rw [hr]
        exact hex
      | ok f =>
        obtain ⟨hc, hct⟩ : I (q.create d pt f).1 ∧ J (q.create d pt f).2 :=
          hI.create hex (hwf q hex ▸ (habs d pt rfl).1) (habs d pt rfl).2
        obtain ⟨hupd, hproc⟩ := hI.setOn hc hct
          (if outputs.isEmpty then requiredOutputs (q.create d pt f).2.task else outputs) now
        simp only [Pool.setTarget, bind, Except.bind, pure, Except.pure, hff]
        split
        · exact hproc _
        · exact hupd

theorem setOutputs (hp : I p) (patterns outputs : List String) (flow : String) (now : Instant) :
    I (p.setOutputs patterns outputs flow now).1 := by
  rcases setOutputs_cases p patterns outputs flow now with h | ⟨ts, hts, h⟩
  · rw [h]
    exact hp
  · rw [h]
    have hts' := targets_of_live (fun _ ht => hI.live hp ht) hts
    refine (SweepKeeps.answer (List.foldlRecOn (motive := SweepKeeps fun q => I q ∧ q.wf = p.wf)
      ts _ (by exact ⟨hp, rfl⟩) fun acc hacc tg htg => ?_)).1
    exact (hI.withWf p.wf).setTarget (fun _ hq => hq.2) hacc tg (fun t h => hts'.1 t (h ▸ htg))
      (fun d pt h => hts'.2 d pt (h ▸ htg))

theorem setHeld (hp : I p) (ht : J t) (held : Bool) : I (p.setHeld t held) := by
  unfold Pool.setHeld
  split
  · exact hp
  · have ht' : J { t with held } := hI.samePlace ht rfl rfl
    exact hI.touch (hI.update hp ht')

/-- Holding or releasing the instances of a pool. -/
theorem setHeld_all {l : List TaskInstance} (hl : ∀ t ∈ l, J t) (held : Bool) (hp : I p) :
    I (l.foldl (fun q t => q.setHeld t held) p) :=
  List.foldlRecOn (motive := I) l _ hp fun _ hq u hu => hI.setHeld hq (hl u hu) held

theorem hold (hp : I p) {patterns : List String} {n : Nat} (h : p.hold patterns = .ok (q, n)) :
    I q := by
  unfold Pool.hold at h
  dsimp only at h
  split at h
  · cases h
  · cases Except.ok.inj h
    -- holds of instances not yet spawned only grow the list of holds
    refine List.foldlRecOn (motive := I) _ _ ?_ fun x hx _ _ => ?_
    · exact hI.setHeld_all (fun u hu => hI.live hp (mem_select hu)) true hp
    · split
      · exact hx
      · exact hI.congr hx rfl rfl

theorem release (hp : I p) {patterns : List String} {n : Nat}
    (h : p.release patterns = .ok (q, n)) : I q := by
  unfold Pool.release at h
  dsimp only at h
  split at h
  · cases h
  · cases Except.ok.inj h
    refine hI.setHeld_all (fun u hu => hI.live hp (mem_select hu)) false ?_
    -- dropping holds of instances not yet spawned changes only the list of holds
    refine List.foldlRecOn (motive := fun x : Pool × Nat => I x.1) _ _ hp fun x hx _ _ => ?_
    split
    · split
      · exact hI.congr hx rfl rfl
      · exact hx
    · exact hx

theorem setHoldPoint (hp : I p) (pt : Point) : I (p.setHoldPoint pt) := by
  unfold Pool.setHoldPoint
  dsimp only
  refine List.foldlRecOn (motive := I) _ _ (hI.congr hp rfl rfl) fun q hq u hu => ?_
  split
  · exact hI.setHeld hq (hI.live hp hu) true
  · exact hq

theorem releaseHoldPoint (hp : I p) : I p.releaseHoldPoint := by
  unfold Pool.releaseHoldPoint
  exact hI.setHeld_all (fun u hu => hI.live hp hu) false (hI.congr hp rfl rfl)

theorem removeMatching (hp : I p) {patterns : List String} {n : Nat}
    (h : p.removeMatching patterns = .ok (q, n)) : I q := by
  unfold Pool.removeMatching at h
  dsimp only at h
  split at h
  · cases h
  · split at h
    · cases h
    · cases Except.ok.inj h
      exact List.foldlRecOn (motive := I) _ _ hp fun q hq _ _ => hI.remove hq

/-- Expiring instances moves them to expired and processes the output. -/
theorem expireTasks (hp : I p) (now : Instant) : I (p.expireTasks now).1 := by
  unfold Pool.expireTasks
  refine List.foldlRecOn (motive := I) _ _ hp fun q hq u hu => ?_
  have hu := hI.live_getD hq (k := u.key) (hI.live hp (List.mem_filter.1 hu).1)
  dsimp only
  split
  next u' outs hexp => exact hI.processOutputs hq (hI.sameSpawn (TaskInstance.frame_expire hexp).spawn hu) outs
  next => exact hq


/-! ## Restoring a checkpoint -/

theorem loadTrace {h : SavedTrace} (hp : I p) (hq : p.loadTrace h = .ok q) : I q := by
  unfold Pool.loadTrace at hq
  obtain ⟨k, -, hq⟩ := Except.bind_eq_ok_iff.1 hq
  obtain ⟨flows, -, hq⟩ := Except.bind_eq_ok_iff.1 hq
  cases hq
  exact hI.setTrace hp

/-- A restored instance with `J` is placed among the live ones. -/
theorem loadTask {rec : SavedTask}
    (hres : ∀ d pt initial t, d ∈ p.wf.tasks → pt.mode = p.wf.context.mode →
      TaskInstance.restore d pt initial rec = .ok t → J t) (hp : I p)
    (hq : p.loadTask rec = .ok q) : I q := by
  unfold Pool.loadTask at hq
  simp only [bind, Except.bind] at hq
  repeat' split at hq
  -- a key already live or unreadable refuses; otherwise the pool is what the record gives
  all_goals simp only [throw, throwThe, MonadExceptOf.throw, pure, Except.pure, reduceCtorEq,
    Except.ok.injEq] at *
  all_goals subst hq
  all_goals first
    | exact hI.setTrace (hI.place hp
        (hres _ _ _ _ (Workflow.mem_of_task? ‹_›) (readKey_mode ‹_›) ‹_›))
    | exact hp

theorem loadSpawn {rec : SpawnRecord} (hp : I p) (hq : p.loadSpawn rec = .ok q) : I q := by
  unfold Pool.loadSpawn at hq
  simp only [bind, Except.bind] at hq
  repeat' split at hq
  all_goals simp only [throw, throwThe, MonadExceptOf.throw, pure, Except.pure, reduceCtorEq,
    Except.ok.injEq] at *
  all_goals subst hq
  all_goals first
    | exact hI.setCursor hp
    | exact hI.congr hp rfl rfl

theorem addMissingCursors (hp : I p) : I p.addMissingCursors := by
  unfold Pool.addMissingCursors
  refine List.foldlRecOn (motive := I) _ _ hp fun q hq d _ => ?_
  split
  · exact hq
  · exact hI.setCursor hq

/-- A restore loads traces, instances and spawn records into the cleared pool; it keeps `I`
when the cleared pool has it and the instances it reads have `J`. -/
theorem restore {tasks : List SavedTask} {spawn : List SpawnRecord} {history : List SavedTrace}
    {nextFlow : Int} (hclear : I (p.cleared nextFlow))
    (hres : ∀ rec ∈ tasks, ∀ d pt initial t, d ∈ p.wf.tasks → pt.mode = p.wf.context.mode →
      TaskInstance.restore d pt initial rec = .ok t → J t) :
    I (p.restore tasks spawn history nextFlow).1 :=
  -- every stage reads tasks and points against the workflow of `p`, which none changes
  have hI' := hI.withWf p.wf
  (restore_keeps (I := fun q => I q ∧ q.wf = p.wf) ⟨hclear, rfl⟩
    (fun _ _ _ _ hq h => hI'.loadTrace hq h)
    (fun _ x _ hx hq h => hI'.loadTask (fun d pt i t hd hm => hres x hx d pt i t (hq.2 ▸ hd)
      (hq.2 ▸ hm)) hq h)
    (fun _ _ _ _ hq h => hI'.loadSpawn hq h) (fun _ hq => hI'.addMissingCursors hq)).1


/-! ## Steps of a session -/

section Session

open Session

variable {s : Session}

/-- The pools a restore of the session may load keep `I`. -/
def RestoresKeep (I : Pool → Prop) (s : Session) : Prop :=
  ∀ tasks spawn history nextFlow, I ((Pool.make s.wf).restore tasks spawn history nextFlow).1

omit hI in
/-- The pool a restore loads, named by the restore's outcome. -/
theorem RestoresKeep.of_eq (h : RestoresKeep I s) {tasks : List SavedTask}
    {spawn : List SpawnRecord} {history : List SavedTrace} {nextFlow : Int}
    {x : Pool × Except Failure Unit}
    (hx : (Pool.make s.wf).restore tasks spawn history nextFlow = x) : I x.1 :=
  hx ▸ h tasks spawn history nextFlow

/-- Every step of a session keeps `I`, a restore or a restart when the pools it may load do. -/
theorem perform (hs : I s.pool) (st : Step) (hrestore : st.restores = true → RestoresKeep I s) :
    I (s.perform st).1.pool := by
  have hR := hI.reportInvariant
  cases st with
  | start => exact hI.start hs
  | releaseRunahead => exact hI.releaseRunahead hs
  | expireTasks => exact hI.expireTasks hs _
  | hold pats => exact command_pool _ hs fun _ _ h => hI.hold hs h
  | release pats => exact command_pool _ hs fun _ _ h => hI.release hs h
  | holdAfter text =>
    refine command_pool _ hs fun _ _ h => ?_
    obtain ⟨pt, -, he⟩ := Except.map_eq_ok_iff.1 h
    cases he
    exact hI.setHoldPoint hs pt
  | releaseHoldPoint => exact hI.releaseHoldPoint hs
  | stopAfter text =>
    refine command_pool _ hs fun _ _ h => ?_
    obtain ⟨pt, -, he⟩ := Except.map_eq_ok_iff.1 h
    cases he
    exact hI.congr hs rfl rfl
  | trigger pats flow wait =>
    have h := hI.trigger hs pats flow wait
    dsimp only [Session.perform, Session.partly]
    split
    all_goals
      rename_i hq
      rw [hq] at h
      exact h
  | setOutputs pats outs flow =>
    have h := hI.setOutputs hs pats outs flow s.now
    dsimp only [Session.perform, Session.partly]
    split
    all_goals
      rename_i hq
      rw [hq] at h
      exact h
  | remove pats => exact command_pool _ hs fun _ _ h => hI.removeMatching hs h
  | drainHistory => exact hI.congr hs rfl rfl
  | restart =>
    have h := hrestore rfl
    dsimp only [Session.perform]
    unfold Session.restart
    dsimp only
    split
    next q e hq => exact h.of_eq hq
    next q hq => exact h.of_eq hq
  | restore tasks spawn history nextFlow =>
    have h := hrestore rfl
    dsimp only [Session.perform]
    split
    next q hq => exact h.of_eq hq
    next q e hq => exact h.of_eq hq
  | broadcastSet | broadcastClear | broadcastExpire =>
    dsimp only [Session.perform]
    split <;> exact hs
  | submit id mode => exact onInstance_pool hs fun t ht => hR.submit hs (hI.live hs ht) mode
  | simAdvance seconds => exact hR.advance hs seconds
  | change id c => exact onInstance_pool hs fun t ht => hR.applyChange hs ht c
  | ready | select | status | records | spawnRecords | broadcastEntries | broadcastChanges | resolve
  | unknown => exact hs

/-- A step performed on a session whose pool is one with `I`, its event log cleared, keeps `I`
once the log is cleared again. -/
theorem perform_cleared {p : Pool} (hp : I p) {s₀ : Session} (hs₀ : s₀.pool = { p with events := [] })
    (st : Step) (hrestore : st.restores = true → RestoresKeep I s₀) :
    I { (s₀.perform st).1.pool with events := [] } := by
  have h₀ : I s₀.pool := hs₀ ▸ hI.congr hp rfl rfl
  exact hI.congr (hI.perform h₀ st hrestore) rfl rfl

/-- A whole step, clock setting and event reporting included, keeps `I`. -/
theorem run (hs : I s.pool) (st : Step) (hrestore : st.restores = true → RestoresKeep I s)
    (now : Option Int) : I (s.run now st).1.pool := by
  -- rewriting with the equation of each clock case avoids unfolding the clock arithmetic
  cases now <;>
  · rw [Session.run]
    dsimp only
    exact hI.perform_cleared hs rfl st hrestore


/-- Along a run of a session of `wf` whose restores load pools with `I`, every pool has `I`. -/
theorem follows {allowed : Step → Prop} {wf : Workflow}
    (hrestore : ∀ (s : Session) (st : Step), s.wf = wf → allowed st → st.restores = true →
      RestoresKeep I s)
    {s s' : Session} (h : Proofs.Follows allowed s s') (hwf : s.wf = wf) (hs : I s.pool) :
    I s'.pool :=
  -- the workflow stays that of `s`, so every restore is one of a session of `wf`
  (Proofs.Follows.invariant (I := fun s : Session => s.wf = wf ∧ I s.pool)
    (fun s _ ⟨now, st, hst, hrun⟩ hs => hrun ▸
      ⟨(s.run_wf now st).trans hs.1, hI.run hs.2 st (hrestore s st hs.1 hst) now⟩) h ⟨hwf, hs⟩).2

/-- Every session a run reaches has `I`, when a fresh pool has it and the restores of the run's
sessions load pools with `I`. -/
theorem reaches {allowed : Step → Prop} {wf : Workflow} (hmake : I (Pool.make wf))
    (hrestore : ∀ (s : Session) (st : Step), s.wf = wf → allowed st → st.restores = true →
      RestoresKeep I s)
    {s : Session} (h : Proofs.Reaches wf allowed s) : I s.pool := by
  obtain ⟨now, hs⟩ := h
  exact hI.follows hrestore hs ((Session.make wf).run_wf now .start)
    (hI.run (s := Session.make wf) hmake .start (fun h => by cases h) now)

end Session

end LiveInvariant

end CycleSched
