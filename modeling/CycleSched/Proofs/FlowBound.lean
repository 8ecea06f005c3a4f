import CycleSched.Proofs.PlainProgress

/-!
# Flow numbers below the next flow

The pool hands out flow numbers from its next flow number: a trigger or outputs set in a new
flow take it and raise it by one, and a list of flow numbers raises it past each number read.
Everything else only passes flows on: a spawn puts an instance in the flows it is given, which
are those of a parent, of a held-back spawn or of a trace, or flow `1` for the sequences; a
live instance that is spawned again merges them; a report on a job leaves the instance's flows
alone.

`Pool.FlowsBelow n p` says that the next flow number of `p` is `n`, that flow `1` is below it,
and that every flow number `p` carries, on a live instance, a held-back spawn or a trace, is
below it. This module proves that every operation of the pool's progress keeps it: those on
one instance or trace, spawning, processing outputs, pruning orphans and releasing the runahead
limit.
-/

namespace CycleSched

namespace FlowSet

variable {n n' x : Int} {f g : FlowSet}

theorem mem_insertSorted {m : Int} {l : List Int} : x ∈ insertSorted m l ↔ x = m ∨ x ∈ l := by
  induction l with
  | nil => simp [insertSorted]
  | cons a l ih =>
    unfold insertSorted
    -- the number goes in front, is already there, or goes further down
    split
    · simp
    · split
      · subst_vars
        simp
      · simp only [List.mem_cons, ih]
        exact or_left_comm

@[simp] theorem mem_ofList {l : List Int} : x ∈ (ofList l).nums ↔ x ∈ l := by
  unfold ofList
  induction l with
  | nil => simp
  | cons a l ih => simp [mem_insertSorted, ih]

@[simp] theorem mem_merge : x ∈ (f.merge g).nums ↔ x ∈ f.nums ∨ x ∈ g.nums := by
  simp [merge]

/-- Every flow of the set is below `n`. -/
def Below (n : Int) (f : FlowSet) : Prop := ∀ x ∈ f.nums, x < n

theorem below_none (n : Int) : none.Below n := fun _ h => nomatch h

theorem below_ofList {l : List Int} (h : ∀ x ∈ l, x < n) : (ofList l).Below n :=
  fun x hx => h x (mem_ofList.1 hx)

theorem Below.merge (hf : f.Below n) (hg : g.Below n) : (f.merge g).Below n := by
  intro x hx
  rcases mem_merge.1 hx with hx | hx
  · exact hf x hx
  · exact hg x hx

theorem Below.mono (hf : f.Below n) (hn : n ≤ n') : f.Below n' :=
  fun x hx => Int.lt_of_lt_of_le (hf x hx) hn

end FlowSet

theorem TaskInstance.SameSpawn.below {t t' : TaskInstance} {n : Int} (h : t.SameSpawn t')
    (ht : t.flows.Below n) : t'.flows.Below n := by
  rw [h.2.2.1]
  exact ht

namespace Pool

/-- Every flow number the pool carries: those of its live instances, of its held-back spawns
and of its traces. -/
def flowNumbers (p : Pool) : List Int :=
  p.tasks.flatMap (·.flows.nums) ++ p.deferred.flatMap (·.2.nums) ++
    p.history.flatMap (·.2.flows.nums)

/-- The next flow number of the pool is `n`, flow `1` is below it, and so is every flow of a
live instance, of a held-back spawn and of a trace. -/
structure FlowsBelow (n : Int) (p : Pool) : Prop where
  next : p.nextFlow = n
  first : 1 < n
  live : ∀ t ∈ p.tasks, t.flows.Below n
  deferred : ∀ e ∈ p.deferred, e.2.Below n
  traces : ∀ e ∈ p.history, e.2.flows.Below n

variable {n : Int} {p q : Pool} {k : TaskKey} {r : Trace} {t : TaskInstance}

theorem FlowsBelow.flowNumbers (hp : p.FlowsBelow n) : ∀ x ∈ p.flowNumbers, x < n := by
  intro x hx
  simp only [Pool.flowNumbers, List.mem_append, List.mem_flatMap] at hx
  rcases hx with (⟨t, ht, hx⟩ | ⟨e, he, hx⟩) | ⟨e, he, hx⟩
  · exact hp.live t ht x hx
  · exact hp.deferred e he x hx
  · exact hp.traces e he x hx

/-- A fresh pool carries no flow, and its next flow number is `2`. -/
theorem flowsBelow_make (wf : Graph.Workflow) : (make wf).FlowsBelow 2 where
  next := rfl
  first := by decide
  live _ h := nomatch h
  deferred _ h := nomatch h
  traces _ h := nomatch h

/-- A pool with the live instances, held-back spawns, traces and next flow number of one whose
flows are below `n` has its flows below `n`. -/
theorem FlowsBelow.of_parts (hp : p.FlowsBelow n) (h₁ : q.tasks = p.tasks)
    (h₂ : q.deferred = p.deferred) (h₃ : q.history = p.history) (h₄ : q.nextFlow = p.nextFlow) :
    q.FlowsBelow n where
  next := h₄.trans hp.next
  first := hp.first
  live := h₁ ▸ hp.live
  deferred := h₂ ▸ hp.deferred
  traces := h₃ ▸ hp.traces

theorem FlowsBelow.trace (hp : p.FlowsBelow n) (h : p.trace? k = some r) : r.flows.Below n :=
  hp.traces _ (mem_history_of_trace? h)

theorem FlowsBelow.trace_getD (hp : p.FlowsBelow n) : ((p.trace? k).getD {}).flows.Below n := by
  cases h : p.trace? k with
  | none => exact FlowSet.below_none n
  | some r => exact hp.trace h

theorem FlowsBelow.live_getD (hp : p.FlowsBelow n) (ht : t.flows.Below n) :
    ((p.live? k).getD t).flows.Below n := by
  cases h : p.live? k with
  | none => exact ht
  | some u => exact hp.live u (live?_eq_some h).1

theorem FlowsBelow.firstFlow (hp : p.FlowsBelow n) : (FlowSet.ofList [1]).Below n :=
  FlowSet.below_ofList fun x hx => by
    rw [List.mem_singleton.1 hx]
    exact hp.first

/-- The flows of the live instances, or flow `1` when they have none. -/
theorem FlowsBelow.activeFlows (hp : p.FlowsBelow n) : p.activeFlows.Below n := by
  unfold Pool.activeFlows
  -- the union over the live instances stays below `n` one instance at a time
  have hunion : ∀ (l : List TaskInstance) (acc : FlowSet), (∀ t ∈ l, t.flows.Below n) →
      acc.Below n → (l.foldl (fun f t => f.merge t.flows) acc).Below n := by
    intro l
    induction l with
    | nil => exact fun _ _ h => h
    | cons t l ih =>
      intro acc hl hacc
      exact ih _ (fun u hu => hl u (List.mem_cons_of_mem t hu))
        (hacc.merge (hl t List.mem_cons_self))
  dsimp only
  split
  · exact hp.firstFlow
  · exact hunion _ _ hp.live (FlowSet.below_none n)

/-! ## One instance, one trace -/

theorem FlowsBelow.update (hp : p.FlowsBelow n) (ht : t.flows.Below n) :
    (p.update t).FlowsBelow n where
  next := hp.next
  first := hp.first
  live u hu := by
    rcases mem_update_tasks hu with rfl | hu
    · exact ht
    · exact hp.live u hu
  deferred := hp.deferred
  traces := hp.traces

theorem FlowsBelow.setTrace (hp : p.FlowsBelow n) (hr : r.flows.Below n) :
    (p.setTrace k r).FlowsBelow n where
  next := by rw [setTrace_nextFlow, hp.next]
  first := hp.first
  live := by rw [setTrace_tasks]; exact hp.live
  deferred := by rw [setTrace_deferred]; exact hp.deferred
  traces e he := by
    rcases mem_setTrace_history he with rfl | ⟨he, -⟩
    · exact hr
    · exact hp.traces e he

theorem FlowsBelow.markDirty (hp : p.FlowsBelow n) : (p.markDirty k).FlowsBelow n :=
  hp.of_parts markDirty_tasks markDirty_deferred markDirty_history markDirty_nextFlow

theorem FlowsBelow.touch (hp : p.FlowsBelow n) (ht : t.flows.Below n) :
    (p.touch t).FlowsBelow n := by
  rw [touch_eq]
  exact (hp.setTrace (show (p.touched t).flows.Below n from ht)).markDirty

theorem FlowsBelow.delete (hp : p.FlowsBelow n) {reason : String} :
    (p.delete t reason).FlowsBelow n where
  next := hp.next
  first := hp.first
  live u hu := hp.live u (mem_delete_tasks.1 hu).1
  deferred := hp.deferred
  traces := hp.traces

theorem FlowsBelow.remove (hp : p.FlowsBelow n) (ht : t.flows.Below n) {reason : String} :
    (p.remove t reason).FlowsBelow n := by
  have h₁ := hp.touch ht
  unfold Pool.remove
  -- the trace marked removed keeps the flows the touch recorded
  exact (h₁.setTrace (show ({ ((p.touch t).trace? t.key).getD {} with removed := true } :
    Trace).flows.Below n from h₁.trace_getD)).delete

theorem FlowsBelow.insert (hp : p.FlowsBelow n) (ht : t.flows.Below n) :
    (p.insert t).FlowsBelow n where
  next := by rw [insert_nextFlow, hp.next]
  first := hp.first
  live u hu := by
    rcases mem_insert_tasks hu with hu | ⟨hu, -⟩
    · exact hu.below ht
    · exact hp.live u hu
  deferred := by rw [insert_deferred]; exact hp.deferred
  traces e he := by
    rcases mem_insert_history he with rfl | ⟨he, -⟩
    · exact ht
    · exact hp.traces e he

/-- A fold whose every step keeps the flows below `n` keeps them. The pool is read off the
fold's state by `g`. -/
theorem FlowsBelow.foldl {α β : Type} (g : β → Pool) {f : β → α → β} (l : List α)
    (hf : ∀ b x, x ∈ l → (g b).FlowsBelow n → (g (f b x)).FlowsBelow n) (b : β)
    (hb : (g b).FlowsBelow n) : (g (l.foldl f b)).FlowsBelow n := by
  induction l generalizing b with
  | nil => exact hb
  | cons x l ih =>
    exact ih (fun b y hy => hf b y (List.mem_cons_of_mem x hy)) _ (hf b x List.mem_cons_self hb)

/-- A fold over the pool whose every step keeps the flows below `n` keeps them. -/
theorem FlowsBelow.foldlPool {α : Type} {f : Pool → α → Pool} (l : List α)
    (hf : ∀ (q : Pool) x, x ∈ l → q.FlowsBelow n → (f q x).FlowsBelow n) (hp : p.FlowsBelow n) :
    (l.foldl f p).FlowsBelow n :=
  FlowsBelow.foldl id l hf p hp

/-! ## Spawning -/

/-- The spawner keeps the flows below `n` when it spawns in flows below `n`. -/
def SpawnsBelow (n : Int) (sp : Spawner) : Prop :=
  ∀ (q : Pool) (d : Graph.TaskDef) (pt : Point) (flows : FlowSet), q.FlowsBelow n →
    flows.Below n → (sp q d pt flows).1.FlowsBelow n

theorem FlowsBelow.deferred_getD (hp : p.FlowsBelow n) :
    ((p.deferred.lookup k).getD FlowSet.none).Below n := by
  cases h : p.deferred.lookup k with
  | none => exact FlowSet.below_none n
  | some f =>
    obtain ⟨l₁, l₂, hl, -⟩ := List.lookup_eq_some_iff.1 h
    exact hp.deferred (k, f) (by rw [hl]; simp)

theorem FlowsBelow.fresh (hp : p.FlowsBelow n) {d : Graph.TaskDef} {pt : Point} {flows : FlowSet}
    (hflows : flows.Below n) : (p.fresh d pt flows k).1.FlowsBelow n := by
  unfold Pool.fresh
  dsimp only
  split
  · exact hp
  · exact hp.insert ((sameSpawn_satisfyFromHistory p _).below hflows)

/-- Finding the dependants of an output keeps the flows below `n`, when the spawns it may make
do. -/
theorem FlowsBelow.dependantsBy {sp : Spawner} {pt : Point} {name o : String} {flows : FlowSet}
    {spawnNew : Bool} (hsp : spawnNew = true → SpawnsBelow n sp) (hflows : flows.Below n)
    (hp : p.FlowsBelow n) : (dependantsBy sp p pt name o flows spawnNew).1.FlowsBelow n := by
  unfold Pool.dependantsBy
  refine FlowsBelow.foldl Prod.fst _ ?_ (p, []) hp
  rintro ⟨q, out⟩ c - hq
  dsimp only
  -- only a dependant not yet live, spawned when `spawnNew` asks for it, changes the pool
  repeat' split
  all_goals first
    | exact hq
    | exact hsp ‹_› q _ _ _ hq hflows

theorem FlowsBelow.satisfyChildrenBy {sp : Spawner} {pt : Point} {name o : String}
    {flows : FlowSet} {spawnNew : Bool} (hsp : spawnNew = true → SpawnsBelow n sp)
    (hflows : flows.Below n) (hp : p.FlowsBelow n) :
    (satisfyChildrenBy sp p pt name o flows spawnNew).FlowsBelow n := by
  unfold Pool.satisfyChildrenBy
  dsimp only
  refine FlowsBelow.foldl id _ (fun q k _ hq => ?_) _ (hp.dependantsBy hsp hflows)
  split
  next child hchild =>
    exact hq.update ((TaskInstance.sameSpawn_satisfy child _).below
      (hq.live child (live?_eq_some hchild).1))
  next => exact hq

/-- Releasing an instance that waited for its flow spawns its children in the flows of its
trace. -/
theorem FlowsBelow.releaseWaitingBy {sp : Spawner} (hsp : SpawnsBelow n sp)
    (hp : p.FlowsBelow n) (hr : r.flows.Below n) : (releaseWaitingBy sp p k r).FlowsBelow n := by
  unfold Pool.releaseWaitingBy
  exact FlowsBelow.foldlPool _ (fun q o _ hq => hq.satisfyChildrenBy (fun _ => hsp) hr) hp

/-- Holding a key back again merges the flows it is held back in. -/
theorem FlowsBelow.holdBack (hp : p.FlowsBelow n) {flows : FlowSet} (hflows : flows.Below n) :
    ({ p with deferred := p.deferred.filter (·.1 != k) ++
        [(k, ((p.deferred.lookup k).getD FlowSet.none).merge flows)] } : Pool).FlowsBelow n where
  next := hp.next
  first := hp.first
  live := hp.live
  deferred e he := by
    rcases List.mem_append.1 he with he | he
    · exact hp.deferred e (List.mem_filter.1 he).1
    · rw [List.mem_singleton.1 he]
      exact hp.deferred_getD.merge hflows
  traces := hp.traces

/-- A spawn keeps the flows below `n` when the nested releases it makes do. -/
theorem spawnsBelow_of_release {fuel : Nat}
    (hrel : ∀ f, fuel = f + 1 → SpawnsBelow n (spawn f)) : SpawnsBelow n (spawn fuel) := by
  intro p d pt flows hp hflows
  unfold spawn
  dsimp only
  split
  next t hlive =>
    -- a live instance takes the flows it is spawned in
    split
    · exact hp
    · have hmerged : (t.flows.merge flows).Below n :=
        (hp.live t (live?_eq_some hlive).1).merge hflows
      exact (hp.update hmerged).touch hmerged
  next =>
    by_cases hrerun : ∃ r, p.trace? ⟨pt, d.name⟩ = some r ∧
        (r.removed && (flows.isNone || r.flows.intersects flows)) = true
    · -- a trace marked removed refuses the spawn, and releases the instance if it waited
      obtain ⟨r, hr, hc⟩ := hrerun
      simp only [hr, hc, if_true]
      split
      · have hr' : ({ r with flowWait := false } : Trace).flows.Below n :=
          (hp.trace hr : r.flows.Below n)
        have hq : ((p.setTrace ⟨pt, d.name⟩ { r with flowWait := false }).markDirty
            ⟨pt, d.name⟩).FlowsBelow n := (hp.setTrace hr').markDirty
        split
        · exact hq
        next f => exact hq.releaseWaitingBy (hrel f rfl) hr'
      · exact hp
    · rw [if_neg ?norefusal]
      · -- the sequence, the stop point and the runahead limit decide
        split
        · exact hp
        · split
          · split
            · exact hp.holdBack hflows
            · exact hp.fresh hflows
          · exact hp.fresh hflows
      · split
        next r hr => exact fun hc => hrerun ⟨r, hr, hc⟩
        next => exact Bool.false_ne_true

/-- Every spawn keeps the flows below `n` when it spawns in flows below `n`. -/
theorem spawnsBelow (fuel : Nat) : SpawnsBelow n (spawn fuel) := by
  induction fuel with
  | zero => exact spawnsBelow_of_release fun _ h => nomatch h
  | succ f ih => exact spawnsBelow_of_release fun f' h => by cases h; exact ih

/-! ## The pool's progress -/

/-- Pruning orphans marks terms impossible and deletes instances, so it keeps the flows. -/
theorem FlowsBelow.pruneOrphans_go (fuel : Nat) :
    ∀ (p : Pool) (work : List (TaskInstance × List String)), p.FlowsBelow n →
      (pruneOrphans.go fuel p work).FlowsBelow n := by
  induction fuel with
  | zero => intro p work hp; exact hp
  | succ fuel ih =>
    intro p work hp
    cases work with
    | nil => exact hp
    | cons item rest =>
      obtain ⟨it, lost⟩ := item
      unfold pruneOrphans.go
      dsimp only
      refine ih _ _ (FlowsBelow.foldl Prod.fst _ (fun x o _ hx => ?_) (p, []) hp)
      -- finding the dependants spawns nothing; each is marked and perhaps deleted
      have h₁ : (dependants 0 x.1 it.point it.task.name o FlowSet.none false).1.FlowsBelow n :=
        hx.dependantsBy (fun h => absurd h Bool.false_ne_true) (FlowSet.below_none n)
      refine FlowsBelow.foldl Prod.fst _ (fun y k _ hy => ?_) _ h₁
      split
      · exact hy
      next child hchild =>
        have hmarked := hy.update ((TaskInstance.sameSpawn_markImpossible child
          ⟨it.point, it.task.name, o⟩).below (hy.live child (live?_eq_some hchild).1))
        split
        · exact hmarked
        · exact hmarked.delete

theorem FlowsBelow.pruneOrphans (hp : p.FlowsBelow n) (t : TaskInstance) (lost : List String) :
    (p.pruneOrphans t lost).FlowsBelow n :=
  FlowsBelow.pruneOrphans_go _ p _ hp

theorem FlowsBelow.removeIfDone (hp : p.FlowsBelow n) (ht : t.flows.Below n) :
    (p.removeIfDone t).FlowsBelow n := by
  unfold Pool.removeIfDone
  split
  · exact hp
  · split
    · exact hp.remove ht
    · split
      · exact hp.remove ht
      · split
        · exact hp.remove ht
        · exact hp

/-- Recording the outputs of an instance and acting on them spawns its dependants in its own
flows, so it keeps the flows. -/
theorem FlowsBelow.processOutputs (hp : p.FlowsBelow n) (ht : t.flows.Below n)
    (outputs : List String) : (p.processOutputs t outputs).FlowsBelow n := by
  unfold Pool.processOutputs
  dsimp only
  have h₁ := (hp.update ht).touch ht
  set q := (p.update t).touch t
  have htr : q.trace? t.key = some ((p.update t).touched t) := by simp [q, trace?_touch]
  rw [htr, Option.getD_some]
  set r := (p.update t).touched t
  -- the outputs join the trace, which keeps the flows the touch recorded
  set q₃ := q.setTrace t.key
    { r with outputs := r.outputs ++ outputs.filter fun x => !r.outputs.contains x }
  have h₃ : q₃.FlowsBelow n := h₁.setTrace (show r.flows.Below n from ht)
  -- the outputs spawn and satisfy dependants in the flows of the instance
  have h₄ : (outputs.foldl (fun p o => satisfyChildren q₃.spawnFuel p t.point t.task.name o
      t.flows (!t.flows.isNone && !t.flowWait)) q₃).FlowsBelow n :=
    FlowsBelow.foldlPool _ (fun q' o _ hq' => hq'.satisfyChildrenBy (fun _ => spawnsBelow _) ht) h₃
  -- a finished instance then prunes its orphans and may be removed
  split
  · refine FlowsBelow.removeIfDone (h₄.pruneOrphans _ _) ?_
    exact (h₄.pruneOrphans _ _).live_getD (h₄.live_getD ht)
  · exact h₄

/-- Forgetting traces keeps the flows of the others. -/
theorem FlowsBelow.housekeep (hp : p.FlowsBelow n) : p.housekeep.FlowsBelow n := by
  unfold Pool.housekeep
  split
  · exact hp
  · exact ⟨hp.next, hp.first, hp.live, hp.deferred,
      fun e he => hp.traces e (List.mem_filter.1 he).1⟩

theorem FlowsBelow.setCursor (hp : p.FlowsBelow n) {name : String} {c : Option Point} :
    (p.setCursor name c).FlowsBelow n :=
  hp.of_parts setCursor_tasks setCursor_deferred setCursor_history setCursor_nextFlow

theorem FlowsBelow.advanceCursor (hp : p.FlowsBelow n) (d : Graph.TaskDef) (h : Point) :
    (p.advanceCursor d h).FlowsBelow n :=
  advanceCursor_keeps (fun q pt hq => spawnsBelow _ q d pt _ hq hq.firstFlow)
    (fun _ _ hq => hq.setCursor) hp

/-- The runahead release spawns held-back keys in the flows they were held back in, and
sequence spawns in flow `1`. -/
theorem FlowsBelow.releaseRunahead (hp : p.FlowsBelow n) : p.releaseRunahead.FlowsBelow n := by
  unfold Pool.releaseRunahead
  split
  · exact hp
  · dsimp only
    refine FlowsBelow.housekeep (FlowsBelow.foldlPool _ (fun q d _ hq => hq.advanceCursor d _) ?_)
    refine FlowsBelow.foldlPool _ (fun q k _ hq => ?_) hp
    have hflows := hq.deferred_getD (k := k)
    have hq' : ({ q with deferred := q.deferred.filter (·.1 != k) } : Pool).FlowsBelow n :=
      ⟨hq.next, hq.first, hq.live, fun e he => hq.deferred e (List.mem_filter.1 he).1, hq.traces⟩
    split
    · exact spawnsBelow _ _ _ _ _ hq' hflows
    · exact hq'

theorem FlowsBelow.start (hp : p.FlowsBelow n) : p.start.FlowsBelow n := by
  unfold Pool.start
  dsimp only
  exact (FlowsBelow.foldlPool _ (fun q d _ hq => hq.setCursor) hp).releaseRunahead

end Pool

end CycleSched
