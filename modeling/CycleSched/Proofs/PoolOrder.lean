import Mathlib.Data.List.Nodup
import Mathlib.Data.List.TakeDrop
import Mathlib.Data.List.TakeWhile
import CycleSched.Proofs.LiveInvariant
import CycleSched.Proofs.RestoredFlows
import CycleSched.Proofs.CompiledGraph

/-!
# The live instances in pool order

A pool lists its live instances by cycle point and then by declaration index
(`Pool.keyBefore`), and holds one instance at each key. `Pool.place` keeps both: it takes out
any instance at the new one's key and puts the new one after every instance that comes before
it. Replacing an instance at its key and deleting one keep the keys and their order as they are.
So every step of every session, restores included, keeps the pool `Pool.Ordered`: the list of
live keys is in pool order, with no key twice, and the instance `Pool.live?` finds at a key is
the one listed there.

Pool order compares the point's value and the task's declaration index, while keys are the
point and the task's name. The two agree on the instances of a compiled workflow: compiling
numbers the tasks apart, and every live instance is of a task of the workflow at a point of its
mode (`Pool.OfWorkflow`), whether spawned on a sequence, created by a command or restored. So in
every session a run reaches, pool order tells two instances apart exactly when their keys
differ, and the live keys strictly ascend (`live_instances_in_order`).

A step other than a restore adds only instances of a task at a point of its sequences: every
instance live after it continues one live before it (same task and point) or lies on its
sequences (`Pool.Continues`).
-/

namespace CycleSched

/-- An instance of a task of `w` at a point of the workflow's mode. -/
def TaskInstance.OfWorkflow (w : Graph.Workflow) (t : TaskInstance) : Prop :=
  t.task ∈ w.tasks ∧ t.point.mode = w.context.mode

namespace Pool

variable {p q : Pool} {a b c k : TaskKey} {t u : TaskInstance}

/-! ## Pool order -/

/-- Pool order in numbers: the point's value, then the declaration index. -/
theorem keyBefore_iff : p.keyBefore a b = true ↔ a.point.val.toInt < b.point.val.toInt ∨
    (a.point.val.toInt = b.point.val.toInt ∧ p.indexOf a.name < p.indexOf b.name) := by
  simp [keyBefore, Point.before, Int64.lt_iff_toInt_lt, Int64.toInt_inj]

theorem keyBefore_asymm (h : p.keyBefore a b = true) : p.keyBefore b a = false := by
  have hab := keyBefore_iff.1 h
  cases hba : p.keyBefore b a with
  | false => rfl
  | true =>
    have := keyBefore_iff.1 hba
    omega

theorem keyBefore_irrefl : p.keyBefore a a = false := by
  cases h : p.keyBefore a a with
  | false => rfl
  | true => simpa [h] using keyBefore_asymm h

/-- A key that comes before another comes before any third key or after it. -/
theorem keyBefore_or (h : p.keyBefore a c = true) (b : TaskKey) :
    p.keyBefore a b = true ∨ p.keyBefore b c = true := by
  rw [keyBefore_iff, keyBefore_iff]
  have := keyBefore_iff.1 h
  omega

/-- Pool order depends on the workflow alone. -/
theorem keyBefore_congr (h : q.wf = p.wf) : q.keyBefore = p.keyBefore := by
  funext a b
  unfold keyBefore indexOf
  rw [h]

/-- `a` may stand before `b` in the list of live keys: `b` does not come before `a` in pool
order, and the two keys are different. -/
def ListedBefore (p : Pool) (a b : TaskKey) : Prop := p.keyBefore b a = false ∧ a ≠ b

theorem listedBefore_congr (h : q.wf = p.wf) : q.ListedBefore = p.ListedBefore := by
  funext a b
  simp only [ListedBefore, keyBefore_congr h]

/-- The keys of the live instances, as the pool lists them. -/
def liveKeys (p : Pool) : List TaskKey := p.tasks.map (·.key)

/-- The pool lists its live instances in pool order, each key once. -/
def Ordered (p : Pool) : Prop := p.liveKeys.Pairwise p.ListedBefore

theorem Ordered.nodup (h : p.Ordered) : p.liveKeys.Nodup := h.imp (·.2)

/-- No live instance is listed after one that comes after it in pool order. -/
theorem Ordered.sorted (h : p.Ordered) :
    p.liveKeys.Pairwise fun a b => p.keyBefore b a = false :=
  h.imp (·.1)

/-- In an ordered pool the live instance at a key is the one listed with that key. -/
theorem Ordered.live?_eq_some_iff (h : p.Ordered) :
    p.live? k = some t ↔ t ∈ p.tasks ∧ t.key = k := by
  refine ⟨Pool.live?_eq_some, fun ⟨ht, hk⟩ => ?_⟩
  -- the lookup finds some instance at `k`, and only `t` is listed there
  obtain ⟨u, hu⟩ : ∃ u, p.live? k = some u := Option.isSome_iff_exists.1
    (List.find?_isSome.2 ⟨t, ht, by simp [hk]⟩)
  obtain ⟨hmem, hku⟩ := Pool.live?_eq_some hu
  rw [hu, List.inj_on_of_nodup_map h.nodup hmem ht (hku.trans hk.symm)]

/-- Keeping some of the live keys in their order, under the same workflow, keeps pool order. -/
theorem Ordered.sublist (h : p.Ordered) (hwf : q.wf = p.wf) (hk : q.liveKeys.Sublist p.liveKeys) :
    q.Ordered := by
  unfold Ordered
  rw [listedBefore_congr hwf]
  exact List.Pairwise.sublist hk h

/-- Where no two live keys share a point's value and a declaration index, pool order is strict
along the list. -/
theorem Ordered.strictly_sorted (h : p.Ordered)
    (hsep : ∀ a ∈ p.liveKeys, ∀ b ∈ p.liveKeys, a.point.val = b.point.val →
      p.indexOf a.name = p.indexOf b.name → a = b) :
    p.liveKeys.Pairwise fun a b => p.keyBefore a b = true := by
  refine (List.Pairwise.and_mem.1 h).imp fun {a b} ⟨ha, hb, hba, hne⟩ => ?_
  have hnot : ¬ p.keyBefore b a = true := by simp [hba]
  rw [keyBefore_iff] at hnot ⊢
  by_cases hv : a.point.val.toInt = b.point.val.toInt
  · -- equal values: the indices differ, or the keys would be one
    have hi : p.indexOf a.name ≠ p.indexOf b.name := fun hi =>
      hne (hsep a ha b hb (Int64.toInt_inj.1 hv) hi)
    omega
  · omega

theorem Ordered.congr (h : p.Ordered) (hwf : q.wf = p.wf) (htasks : q.tasks = p.tasks) :
    q.Ordered :=
  h.sublist hwf (by rw [liveKeys, htasks]; exact List.Sublist.refl _)

/-! ## The three changes to the live instances -/

theorem liveKeys_update : (p.update t).liveKeys = p.liveKeys := by
  unfold liveKeys Pool.update
  rw [List.map_map]
  refine List.map_congr_left fun u _ => ?_
  -- the instance put in has the key of the one it replaces
  by_cases hk : u.key = t.key <;> simp [hk]

theorem Ordered.update (h : p.Ordered) : (p.update t).Ordered :=
  h.sublist rfl (by rw [liveKeys_update])

theorem Ordered.delete (h : p.Ordered) {reason : String} : (p.delete t reason).Ordered :=
  h.sublist rfl (List.filter_sublist.map _)

/-- Splitting keys in pool order where they stop coming before `k`: none of those after the
split comes before `k`. The first one stops the split, and the others do not come before it. -/
theorem keyBefore_of_mem_dropWhile {l : List TaskInstance} {v : TaskInstance}
    (hl : (l.map (·.key)).Pairwise p.ListedBefore)
    (hv : v ∈ l.dropWhile fun u => p.keyBefore u.key k) : p.keyBefore v.key k = false := by
  set after := l.dropWhile fun u => p.keyBefore u.key k
  have hne : after ≠ [] := List.ne_nil_of_mem hv
  set w := after.head hne
  have hw : p.keyBefore w.key k = false := List.head_dropWhile_not _ hne
  have hafter : (after.map (·.key)).Pairwise p.ListedBefore :=
    List.Pairwise.sublist ((List.dropWhile_sublist _).map _) hl
  have hwv : p.keyBefore v.key w.key = false := by
    have hcons : after = w :: after.tail := (List.cons_head_tail hne).symm
    rw [hcons, List.mem_cons] at hv
    rcases hv with hv | hv
    · rw [hv]
      exact keyBefore_irrefl
    · rw [hcons, List.map_cons, List.pairwise_cons] at hafter
      exact (hafter.1 v.key (List.mem_map_of_mem hv)).1
  cases hvk : p.keyBefore v.key k with
  | false => rfl
  | true =>
    rcases keyBefore_or hvk w.key with h' | h'
    · simp [hwv] at h'
    · simp [hw] at h'

/-- Placing an instance: the live instances at other keys, split where they stop coming before
it, with the instance between the two parts. -/
theorem Ordered.place (h : p.Ordered) (t : TaskInstance) : (p.place t).Ordered := by
  unfold Ordered
  rw [listedBefore_congr (q := p.place t) (p := p) rfl]
  unfold liveKeys Pool.place
  dsimp only
  rw [List.span_eq_takeWhile_dropWhile]
  dsimp only
  set rest := p.tasks.filter (·.key != t.key)
  set before := rest.takeWhile fun u => p.keyBefore u.key t.key
  set after := rest.dropWhile fun u => p.keyBefore u.key t.key
  have hout : ∀ u ∈ rest, u.key ≠ t.key := fun u hu => by simpa using (List.mem_filter.1 hu).2
  have hrest : (rest.map (·.key)).Pairwise p.ListedBefore :=
    List.Pairwise.sublist (List.filter_sublist.map _) h
  have hsplit : ((before ++ after).map (·.key)).Pairwise p.ListedBefore := by
    rw [List.takeWhile_append_dropWhile]
    exact hrest
  rw [List.map_append, List.pairwise_append] at hsplit
  obtain ⟨hbefore, hafter, hcross⟩ := hsplit
  have hlow : ∀ x ∈ before.map (·.key), p.ListedBefore x t.key := by
    intro x hx
    obtain ⟨u, hu, rfl⟩ := List.mem_map.1 hx
    have hut := List.mem_takeWhile_imp hu
    exact ⟨keyBefore_asymm hut, hout u (List.takeWhile_subset _ hu)⟩
  have hhigh : ∀ y ∈ after.map (·.key), p.ListedBefore t.key y := by
    intro y hy
    obtain ⟨v, hv, rfl⟩ := List.mem_map.1 hy
    exact ⟨keyBefore_of_mem_dropWhile hrest hv, (hout v (List.dropWhile_subset _ hv)).symm⟩
  rw [List.map_append, List.map_cons, List.pairwise_append, List.pairwise_cons]
  refine ⟨hbefore, ⟨hhigh, hafter⟩, fun x hx y hy => ?_⟩
  rcases List.mem_cons.1 hy with rfl | hy
  · exact hlow x hx
  · exact hcross x hx y hy

/-- Pool order is a property of the workflow and the live instances that every step keeps,
whatever instances it puts in. -/
theorem liveInvariant_ordered : LiveInvariant Ordered fun _ => True where
  congr hp hwf htasks := hp.congr hwf htasks
  live _ _ := trivial
  samePlace _ _ _ := trivial
  made _ _ _ := trivial
  update hp _ := hp.update
  place hp _ := hp.place _
  delete hp := hp.delete

theorem ordered_make (wf : Graph.Workflow) : (make wf).Ordered := List.Pairwise.nil

/-- A restore starts from a pool without live instances. -/
theorem restoresKeep_ordered (s : Session) : LiveInvariant.RestoresKeep Ordered s := fun _ _ _ _ =>
  liveInvariant_ordered.restore (p := make s.wf) List.Pairwise.nil fun _ _ _ _ _ _ _ _ _ => trivial

/-! ## Instances of the workflow -/

/-- The pool is one of `w`, and its live instances are instances of `w`. -/
def OfWorkflow (w : Graph.Workflow) (p : Pool) : Prop :=
  p.wf = w ∧ ∀ t ∈ p.tasks, t.OfWorkflow w

section OfWorkflow

variable {w : Graph.Workflow}

/-- Every change to the live instances keeps them instances of a keyed workflow, and so does
putting in a fresh instance at a point of a sequence. -/
theorem liveInvariant_ofWorkflow (hw : w.Keyed) :
    LiveInvariant (OfWorkflow w) (TaskInstance.OfWorkflow w) where
  congr hp hwf htasks := ⟨hwf.trans hp.1, fun t ht => hp.2 t (htasks ▸ ht)⟩
  live hp ht := hp.2 _ ht
  samePlace ht htask hpoint := ⟨htask ▸ ht.1, hpoint ▸ ht.2⟩
  made hp hd hseq := by
    -- a point of a sequence is of the mode of the sequence's start
    obtain ⟨s, hs, hcont⟩ := List.any_eq_true.1 hseq
    have hd' := hp.1 ▸ hd
    exact ⟨hd', (Sequence.mode_of_contains hcont).trans (hw.modes _ hd' s hs)⟩
  update hp ht := ⟨hp.1, fun u hu => (mem_update_tasks hu).elim (fun h => h ▸ ht) (hp.2 u)⟩
  place hp ht := ⟨hp.1, fun u hu => (mem_place_tasks.1 hu).elim (fun h => h ▸ ht) fun h => hp.2 u h.1⟩
  delete hp := ⟨hp.1, fun u hu => hp.2 u (mem_delete_tasks.1 hu).1⟩

theorem ofWorkflow_make (w : Graph.Workflow) : (make w).OfWorkflow w := ⟨rfl, fun _ h => by cases h⟩

/-- A restore of a session of a keyed workflow loads instances of the workflow: of the task a
record names, at the point it reads in the workflow's mode. -/
theorem restoresKeep_ofWorkflow (hw : w.Keyed) (s : Session) (hs : s.wf = w) :
    LiveInvariant.RestoresKeep (OfWorkflow w) s := fun _ _ _ _ =>
  (liveInvariant_ofWorkflow hw).restore (p := make s.wf) ⟨hs, fun _ h => by cases h⟩
    fun _ _ _ _ _ t hd hpt hres => by
      obtain ⟨rfl, rfl, -⟩ := TaskInstance.restore_eq_ok hres
      exact ⟨hs ▸ hd, hs ▸ hpt⟩

/-- The declaration index pool order reads for an instance of a keyed workflow is its task's. -/
theorem OfWorkflow.indexOf (hw : w.Keyed) (hp : p.OfWorkflow w) (ht : t.OfWorkflow w) :
    p.indexOf t.task.name = t.task.index := by
  unfold Pool.indexOf
  rw [hp.1, Graph.Workflow.task?_of_mem hw.names ht.1]
  rfl

/-- Two instances of a keyed workflow whose points have one value and whose tasks have one
declaration index have one key. -/
theorem OfWorkflow.key_eq (hw : w.Keyed) (hp : p.OfWorkflow w) (ht : t.OfWorkflow w)
    (hu : u.OfWorkflow w) (hval : t.point.val = u.point.val)
    (hidx : p.indexOf t.task.name = p.indexOf u.task.name) : t.key = u.key := by
  rw [hp.indexOf hw ht, hp.indexOf hw hu] at hidx
  have htask : t.task = u.task := hw.indices _ ht.1 _ hu.1 hidx
  -- both points are of the workflow's mode
  have hpoint : t.point = u.point := Point.ext (ht.2.trans hu.2.symm) hval
  simp [TaskInstance.key, htask, hpoint]

/-- Pool order compares two instances of a keyed workflow as equal exactly when they have one
key. -/
theorem OfWorkflow.key_eq_iff (hw : w.Keyed) (hp : p.OfWorkflow w) (ht : t.OfWorkflow w)
    (hu : u.OfWorkflow w) :
    t.key = u.key ↔ p.keyBefore t.key u.key = false ∧ p.keyBefore u.key t.key = false := by
  constructor
  · intro h
    rw [h]
    exact ⟨keyBefore_irrefl, keyBefore_irrefl⟩
  · rintro ⟨htu, hut⟩
    have htu' : ¬ p.keyBefore t.key u.key = true := by simp [htu]
    have hut' : ¬ p.keyBefore u.key t.key = true := by simp [hut]
    rw [keyBefore_iff] at htu' hut'
    dsimp only [TaskInstance.key] at htu' hut'
    -- neither comes first: one value and one declaration index
    have hval : t.point.val.toInt = u.point.val.toInt := by omega
    have hidx : p.indexOf t.task.name = p.indexOf u.task.name := by omega
    exact hp.key_eq hw ht hu (Int64.toInt_inj.1 hval) hidx

/-- The live keys of an ordered pool of a keyed workflow strictly ascend in pool order. -/
theorem OfWorkflow.strictly_sorted (hw : w.Keyed) (hp : p.OfWorkflow w) (hord : p.Ordered) :
    p.liveKeys.Pairwise fun a b => p.keyBefore a b = true := by
  refine hord.strictly_sorted fun a ha b hb hval hidx => ?_
  obtain ⟨t, ht, rfl⟩ := List.mem_map.1 ha
  obtain ⟨u, hu, rfl⟩ := List.mem_map.1 hb
  exact hp.key_eq hw (hp.2 t ht) (hp.2 u hu) hval hidx

end OfWorkflow

/-! ## What a step adds -/

/-- The instance continues one live in `p`, with the same task and point, or lies on a sequence
of its task. -/
def Continues (p : Pool) (t : TaskInstance) : Prop :=
  (∃ u ∈ p.tasks, u.task = t.task ∧ u.point = t.point) ∨ t.task.onSequence t.point = true

/-- Every live instance of `q` continues one live in `p` or lies on a sequence of its task. -/
def ContinuesFrom (p q : Pool) : Prop := ∀ t ∈ q.tasks, p.Continues t

theorem continuesFrom_refl (p : Pool) : p.ContinuesFrom p := fun t ht => .inl ⟨t, ht, rfl, rfl⟩

/-- What continues the live instances of `p` is kept by every change to the live instances that
puts in instances continuing them or on their sequences. -/
theorem liveInvariant_continues (p : Pool) : LiveInvariant p.ContinuesFrom p.Continues where
  congr hq _ htasks t ht := hq t (htasks ▸ ht)
  live hq ht := hq _ ht
  samePlace ht htask hpoint := by
    rcases ht with ⟨u, hu, h₁, h₂⟩ | hseq
    · exact .inl ⟨u, hu, h₁.trans htask.symm, h₂.trans hpoint.symm⟩
    · exact .inr (by rw [htask, hpoint]; exact hseq)
  made _ _ hd := .inr hd
  update hq ht u hu := by
    rcases mem_update_tasks hu with rfl | hu
    · exact ht
    · exact hq u hu
  place hq ht u hu := by
    rcases mem_place_tasks.1 hu with rfl | ⟨hu, -⟩
    · exact ht
    · exact hq u hu
  delete hq u hu := hq u (mem_delete_tasks.1 hu).1

end Pool

namespace Session

open Pool

/-- A step other than a restore adds instances only at points of their tasks' sequences: every
instance live after it continues one live before it or lies on a sequence of its task. -/
theorem continuesFrom_run (s : Session) {st : Step} (hst : st.restores = false)
    (now : Option Int) : s.pool.ContinuesFrom (s.run now st).1.pool :=
  (liveInvariant_continues s.pool).run (continuesFrom_refl s.pool) st
    (fun h => absurd (hst ▸ h) Bool.false_ne_true) now

end Session

namespace Proofs

open Pool

/-- In every session that a run over a compiled workflow reaches, restores and restarts
included, every live instance is of a task of the workflow at a point of its mode; pool order
(by cycle point, then declaration index) compares two such instances as equal exactly when they
have one key; the live keys strictly ascend in pool order, so each is listed once; the lookup by
key finds exactly the instance listed there; and any step but a restore adds only instances at
points of their tasks' sequences. -/
theorem live_instances_in_order {cfg : WorkflowConfig} {wf : Graph.Workflow} {s : Session}
    (hc : Graph.compile cfg = .ok wf) (h : Reaches wf (fun _ => True) s) :
    (∀ t ∈ s.pool.tasks, t.OfWorkflow wf) ∧
      (∀ t u : TaskInstance, t.OfWorkflow wf → u.OfWorkflow wf →
        (t.key = u.key ↔ s.pool.keyBefore t.key u.key = false ∧
          s.pool.keyBefore u.key t.key = false)) ∧
      s.pool.liveKeys.Pairwise (fun a b => s.pool.keyBefore a b = true) ∧
      (∀ k t, s.pool.live? k = some t ↔ t ∈ s.pool.tasks ∧ t.key = k) ∧
      ∀ (now : Option Int) (st : Step), st.restores = false →
        s.pool.ContinuesFrom (s.run now st).1.pool := by
  have hw := Graph.compile_keyed hc
  have hord : s.pool.Ordered :=
    liveInvariant_ordered.reaches (ordered_make wf) (fun s _ _ _ _ => restoresKeep_ordered s) h
  have hof : s.pool.OfWorkflow wf := (liveInvariant_ofWorkflow hw).reaches (ofWorkflow_make wf)
    (fun s _ hs _ _ => restoresKeep_ofWorkflow hw s hs) h
  exact ⟨hof.2, fun _ _ ht hu => hof.key_eq_iff hw ht hu, hof.strictly_sorted hw hord,
    fun _ _ => hord.live?_eq_some_iff, fun now _ hst => s.continuesFrom_run hst now⟩

/-- The started pair `R1: a => b` lists its live instances strictly in pool order. -/
theorem started_pair_in_order :
    Graph.compile pairConfig = .ok pairWorkflow ∧
      Reaches pairWorkflow (fun _ => True) (started pairWorkflow none) ∧
      (started pairWorkflow none).pool.liveKeys.Pairwise
        fun a b => (started pairWorkflow none).pool.keyBefore a b = true :=
  ⟨compile_compiledOf _ _, ⟨none, .refl⟩,
    (live_instances_in_order (compile_compiledOf _ _) ⟨none, .refl⟩).2.2.1⟩

end Proofs

end CycleSched
