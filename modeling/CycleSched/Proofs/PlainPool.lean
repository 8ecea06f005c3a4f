import CycleSched.Proofs.PoolFrame
import CycleSched.Pool.Spawn

/-!
# Pools that their sequences and jobs alone drive

Without manual triggers, outputs set by hand, restores, restarts or draining of the history, a
run only spawns in flow `1`: its sequences spawn there, and an output spawns its dependants in
the flows of the instance that emitted it. Such a pool is `Pool.Plain`: every live instance,
held-back spawn and trace is in flow `1` alone and waits for no flow, and the trace of a
removed instance keeps it out of the live ones and stays among the changed traces, so that
`Pool.housekeep` never forgets it.

`Pool.Keeps p q` says that `q` is plain and keeps every removal recorded in `p`. Each operation
on a plain pool keeps it in this sense; this module proves so for the operations that change
one instance or one trace, and for `Pool.spawn`, whose outcomes `Pool.SpawnOutcome` lists.
-/

namespace CycleSched

/-- The instance is in flow `1` alone and does not wait for its flow. -/
def TaskInstance.FirstFlow (t : TaskInstance) : Prop :=
  t.flows = FlowSet.ofList [1] ∧ t.flowWait = false

/-- The trace is of an instance in flow `1` alone that does not wait for its flow. -/
def Trace.FirstFlow (r : Trace) : Prop :=
  r.flows = FlowSet.ofList [1] ∧ r.flowWait = false

theorem TaskInstance.SameSpawn.firstFlow {t t' : TaskInstance} (h : t.SameSpawn t')
    (ht : t.FirstFlow) : t'.FirstFlow :=
  ⟨h.2.2.1.trans ht.1, h.2.2.2.trans ht.2⟩

namespace FlowSet

@[simp] theorem ofList_one_isNone : (ofList [1]).isNone = false := by decide

@[simp] theorem ofList_one_intersects : (ofList [1]).intersects (ofList [1]) = true := by decide

@[simp] theorem ofList_one_containsAll : (ofList [1]).containsAll (ofList [1]) = true := by decide

theorem merge_ofList_one : (ofList [1]).merge (ofList [1]) = ofList [1] := by decide

theorem none_merge_ofList_one : none.merge (ofList [1]) = ofList [1] := by decide

end FlowSet

namespace Pool

/-- A pool that only its sequences and its jobs have driven. -/
structure Plain (p : Pool) : Prop where
  live : ∀ t ∈ p.tasks, t.FirstFlow
  deferred : ∀ e ∈ p.deferred, e.2 = FlowSet.ofList [1]
  /-- Each key is held back at most once. -/
  deferredKeys : (p.deferred.map (·.1)).Nodup
  traces : ∀ e ∈ p.history, e.2.FirstFlow
  /-- An instance whose trace says it was removed is not live. -/
  removedOut : ∀ e ∈ p.history, e.2.removed = true → ∀ t ∈ p.tasks, t.key ≠ e.1
  /-- The trace of a removed instance is not yet drained. -/
  removedDirty : ∀ e ∈ p.history, e.2.removed = true → e.1 ∈ p.dirty

/-- The pool's trace of the instance at `k` says it was removed. -/
def Removed (p : Pool) (k : TaskKey) : Prop := ∃ r, p.trace? k = some r ∧ r.removed = true

/-- `q` is plain and keeps every removal that `p` records. -/
structure Keeps (p q : Pool) : Prop where
  plain : q.Plain
  removed : ∀ k, p.Removed k → q.Removed k

variable {p q : Pool} {k : TaskKey} {r : Trace} {t : TaskInstance}

theorem Keeps.refl (hp : p.Plain) : p.Keeps p := ⟨hp, fun _ h => h⟩

theorem Keeps.trans {q' : Pool} (h : p.Keeps q) (h' : q.Keeps q') : p.Keeps q' :=
  ⟨h'.plain, fun k hk => h'.removed k (h.removed k hk)⟩

/-- Chains a step with a next one that may assume the intermediate pool plain. -/
theorem Keeps.then {q' : Pool} (h : p.Keeps q) (h' : q.Plain → q.Keeps q') : p.Keeps q' :=
  h.trans (h' h.plain)

/-- A fold whose every step keeps the pool it reads keeps the pool. The pool is read off the
fold's state by `g`, so folds that carry more than a pool are covered too. -/
theorem Keeps.foldl {α β : Type} (g : β → Pool) {f : β → α → β} (l : List α)
    (hf : ∀ b x, x ∈ l → (g b).Plain → (g b).Keeps (g (f b x))) (b : β) (hb : (g b).Plain) :
    (g b).Keeps (g (l.foldl f b)) := by
  induction l generalizing b with
  | nil => exact .refl hb
  | cons x l ih =>
    have hx := hf b x (List.mem_cons_self ..) hb
    exact hx.trans (ih (fun b y hy => hf b y (List.mem_cons_of_mem x hy)) _ hx.plain)

/-- A fold over the pool whose every step keeps the pool keeps it. -/
theorem Keeps.foldlPool {α : Type} {f : Pool → α → Pool} (l : List α)
    (hf : ∀ (q : Pool) x, x ∈ l → q.Plain → q.Keeps (f q x)) (hp : p.Plain) :
    p.Keeps (l.foldl f p) :=
  Keeps.foldl id l hf p hp

/-- A fresh pool holds no instance, no deferred spawn and no trace. -/
theorem plain_make (wf : Graph.Workflow) : (make wf).Plain where
  live _ h := nomatch h
  deferred _ h := nomatch h
  deferredKeys := List.nodup_nil
  traces _ h := nomatch h
  removedOut _ h := nomatch h
  removedDirty _ h := nomatch h

theorem Plain.trace (hp : p.Plain) (h : p.trace? k = some r) : r.FirstFlow :=
  hp.traces _ (mem_history_of_trace? h)

theorem Plain.not_live (hp : p.Plain) (h : p.Removed k) : ∀ t ∈ p.tasks, t.key ≠ k := by
  obtain ⟨r, hr, hrem⟩ := h
  exact hp.removedOut _ (mem_history_of_trace? hr) hrem

theorem Plain.dirty (hp : p.Plain) (h : p.Removed k) : k ∈ p.dirty := by
  obtain ⟨r, hr, hrem⟩ := h
  exact hp.removedDirty _ (mem_history_of_trace? hr) hrem

theorem removed_getD : ((p.trace? k).getD {}).removed = true ↔ p.Removed k := by
  unfold Removed
  cases p.trace? k <;> simp

/-- A pool that agrees with a plain one on its live instances, held-back spawns, traces and
changed traces is kept by it. -/
theorem keeps_of_parts (hp : p.Plain) (h₁ : q.tasks = p.tasks) (h₂ : q.deferred = p.deferred)
    (h₃ : q.history = p.history) (h₄ : q.dirty = p.dirty) : p.Keeps q where
  plain := by
    refine ⟨?_, ?_, ?_, ?_, ?_, ?_⟩ <;> simp only [h₁, h₂, h₃, h₄]
    · exact hp.live
    · exact hp.deferred
    · exact hp.deferredKeys
    · exact hp.traces
    · exact hp.removedOut
    · exact hp.removedDirty
  removed := by
    intro k hk
    simpa [Removed, trace?, h₃] using hk

/-- The events a pool announces are no part of being plain. -/
theorem Keeps.events (h : p.Keeps q) {e : List PoolEvent} : p.Keeps { q with events := e } :=
  h.trans (keeps_of_parts h.plain rfl rfl rfl rfl)

/-! ## One instance, one trace -/

theorem keeps_update (hp : p.Plain) (ht : t.FirstFlow) : p.Keeps (p.update t) where
  plain := by
    refine ⟨?_, hp.deferred, hp.deferredKeys, hp.traces, ?_, hp.removedDirty⟩
    · intro u hu
      rcases mem_update_tasks hu with rfl | hu
      · exact ht
      · exact hp.live u hu
    · intro e he hrem u hu
      obtain ⟨v, hv, hkey⟩ := key_mem_update_tasks hu
      exact hkey ▸ hp.removedOut e he hrem v hv
  removed _ h := h

theorem keeps_setTrace (hp : p.Plain) (hr : r.FirstFlow) (hrem : r.removed = true ↔ p.Removed k) :
    p.Keeps (p.setTrace k r) where
  plain := by
    refine ⟨?_, ?_, ?_, ?_, ?_, ?_⟩
    · rw [setTrace_tasks]; exact hp.live
    · rw [setTrace_deferred]; exact hp.deferred
    · rw [setTrace_deferred]; exact hp.deferredKeys
    · intro e he
      rcases mem_setTrace_history he with rfl | ⟨he, -⟩
      · exact hr
      · exact hp.traces e he
    · intro e he hremoved
      rw [setTrace_tasks]
      rcases mem_setTrace_history he with rfl | ⟨he, -⟩
      · exact hp.not_live (hrem.1 hremoved)
      · exact hp.removedOut e he hremoved
    · intro e he hremoved
      rw [setTrace_dirty]
      rcases mem_setTrace_history he with rfl | ⟨he, -⟩
      · exact hp.dirty (hrem.1 hremoved)
      · exact hp.removedDirty e he hremoved
  removed k' h := by
    by_cases hk : k' = k
    · subst hk
      exact ⟨r, trace?_setTrace_self, hrem.2 h⟩
    · simpa [Removed, trace?_setTrace, hk] using h

theorem keeps_markDirty (hp : p.Plain) : p.Keeps (p.markDirty k) where
  plain := by
    refine ⟨?_, ?_, ?_, ?_, ?_, ?_⟩
    · rw [markDirty_tasks]; exact hp.live
    · rw [markDirty_deferred]; exact hp.deferred
    · rw [markDirty_deferred]; exact hp.deferredKeys
    · rw [markDirty_history]; exact hp.traces
    · rw [markDirty_history, markDirty_tasks]; exact hp.removedOut
    · rw [markDirty_history]
      exact fun e he hrem => mem_markDirty_dirty.2 (.inr (hp.removedDirty e he hrem))
  removed k' h := by simpa [Removed] using h

theorem keeps_touch (hp : p.Plain) (ht : t.FirstFlow) : p.Keeps (p.touch t) := by
  rw [touch_eq]
  -- the touched trace keeps whether the instance was removed
  have hrem : (p.touched t).removed = true ↔ p.Removed t.key := removed_getD
  have h₁ := keeps_setTrace hp (show (p.touched t).FirstFlow from ht) hrem
  exact h₁.trans (keeps_markDirty h₁.plain)

theorem keeps_delete (hp : p.Plain) {reason : String} : p.Keeps (p.delete t reason) where
  plain := by
    refine ⟨?_, hp.deferred, hp.deferredKeys, hp.traces, ?_, hp.removedDirty⟩
    · intro u hu
      exact hp.live u (mem_delete_tasks.1 hu).1
    · intro e he hrem u hu
      exact hp.removedOut e he hrem u (mem_delete_tasks.1 hu).1
  removed _ h := h

/-- Removing an instance marks its trace removed, whatever the trace said before. -/
theorem removed_remove {reason : String} : (p.remove t reason).Removed t.key := by
  unfold remove
  exact ⟨_, by rw [trace?_delete, trace?_setTrace_self], rfl⟩

/-- Removing an instance marks its trace removed and takes its key out of the live ones. -/
theorem keeps_remove (hp : p.Plain) (ht : t.FirstFlow) {reason : String} :
    p.Keeps (p.remove t reason) := by
  have h₁ := keeps_touch hp ht
  have hq : (p.touch t).trace? t.key = some (p.touched t) := by simp [trace?_touch]
  have hr : Trace.FirstFlow { p.touched t with removed := true } := ht
  unfold remove
  dsimp only
  rw [hq, Option.getD_some]
  have hdirty : t.key ∈ (p.touch t).dirty := mem_touch_dirty.2 (.inl rfl)
  refine h₁.trans ⟨⟨?_, ?_, ?_, ?_, ?_, ?_⟩, ?_⟩
  · intro u hu
    exact h₁.plain.live u (by simpa using (mem_delete_tasks.1 hu).1)
  · rw [delete_deferred, setTrace_deferred]; exact h₁.plain.deferred
  · rw [delete_deferred, setTrace_deferred]; exact h₁.plain.deferredKeys
  · intro e he
    rcases mem_setTrace_history he with rfl | ⟨he, -⟩
    · exact hr
    · exact h₁.plain.traces e he
  · intro e he hrem u hu
    have hu := mem_delete_tasks.1 hu
    rcases mem_setTrace_history he with rfl | ⟨he, -⟩
    · exact hu.2
    · exact h₁.plain.removedOut e he hrem u (by simpa using hu.1)
  · intro e he hrem
    rw [delete_dirty, setTrace_dirty]
    rcases mem_setTrace_history he with rfl | ⟨he, -⟩
    · exact hdirty
    · exact h₁.plain.removedDirty e he hrem
  · intro k' h
    by_cases hk : k' = t.key
    · subst hk
      exact ⟨_, trace?_delete.trans trace?_setTrace_self, rfl⟩
    · simpa [Removed, trace?_delete, trace?_setTrace, hk] using h

/-- A new instance in flow `1`, at a key whose trace is not marked removed, keeps the pool. -/
theorem keeps_insert (hp : p.Plain) (ht : t.FirstFlow) (hnew : ¬ p.Removed t.key) :
    p.Keeps (p.insert t) where
  plain := by
    refine ⟨?_, ?_, ?_, ?_, ?_, ?_⟩
    · intro u hu
      rcases mem_insert_tasks hu with hu | ⟨hu, -⟩
      · exact hu.firstFlow ht
      · exact hp.live u hu
    · rw [insert_deferred]; exact hp.deferred
    · rw [insert_deferred]; exact hp.deferredKeys
    · intro e he
      rcases mem_insert_history he with rfl | ⟨he, -⟩
      · exact ⟨ht.1, rfl⟩
      · exact hp.traces e he
    · intro e he hrem u hu
      rcases mem_insert_history he with rfl | ⟨he, hne⟩
      · simp [freshTrace] at hrem
      · rcases mem_insert_tasks hu with hu | ⟨hu, -⟩
        · rw [hu.key_eq]
          exact Ne.symm hne
        · exact hp.removedOut e he hrem u hu
    · intro e he hrem
      rcases mem_insert_history he with rfl | ⟨he, -⟩
      · simp [freshTrace] at hrem
      · exact mem_insert_dirty.2 (.inr (hp.removedDirty e he hrem))
  removed k' h := by
    by_cases hk : k' = t.key
    · subst hk
      exact absurd h hnew
    · simpa [Removed, trace?_insert, hk] using h

/-! ## Spawning in flow `1` -/

theorem sameSpawn_satisfyFromHistory (p : Pool) (t : TaskInstance) :
    t.SameSpawn (p.satisfyFromHistory t) := by
  unfold satisfyFromHistory
  apply TaskInstance.SameSpawn.foldl
  intro u key
  -- a term is met by an emitted output, made impossible by a finished trace, or left alone
  split
  · exact .refl u
  · split
    · exact TaskInstance.sameSpawn_satisfy u key
    · split
      · exact TaskInstance.sameSpawn_markImpossible u key
      · exact .refl u

/-- What a spawn in flow `1` can do to a plain pool at the key `k`: nothing, hold the key back
in flow `1`, or add an instance in flow `1` there, at a key whose trace is not marked removed. -/
inductive SpawnOutcome (p : Pool) (k : TaskKey) : Pool → Prop
  | unchanged : SpawnOutcome p k p
  | deferred :
      SpawnOutcome p k { p with deferred := p.deferred.filter (·.1 != k) ++ [(k, FlowSet.ofList [1])] }
  | inserted (t : TaskInstance) (ht : t.FirstFlow) (hk : t.key = k) (hnew : ¬ p.Removed k) :
      SpawnOutcome p k (p.insert t)

theorem SpawnOutcome.keeps (hp : p.Plain) (h : SpawnOutcome p k q) : p.Keeps q := by
  cases h with
  | unchanged => exact .refl hp
  | deferred =>
    refine ⟨⟨hp.live, ?_, ?_, hp.traces, hp.removedOut, hp.removedDirty⟩, fun _ h => h⟩
    · intro e he
      rcases List.mem_append.1 he with he | he
      · exact hp.deferred e (List.mem_filter.1 he).1
      · simp [List.mem_singleton.1 he]
    · -- the other held-back keys stay distinct, and `k` is no longer among them
      rw [List.map_append, List.nodup_append]
      refine ⟨(hp.deferredKeys.sublist (List.filter_sublist.map _)), by simp, ?_⟩
      intro a ha b hb
      obtain ⟨e, he, rfl⟩ := List.mem_map.1 ha
      have hb : b = k := by simpa using hb
      have hne := (List.mem_filter.1 he).2
      subst hb
      simpa using hne
  | inserted t ht hk hnew => exact keeps_insert hp ht (hk ▸ hnew)

/-- A spawn keeps every held-back key. -/
theorem SpawnOutcome.deferredKeys (h : SpawnOutcome p k q) {k' : TaskKey}
    (hk' : k' ∈ p.deferred.map (·.1)) : k' ∈ q.deferred.map (·.1) := by
  cases h with
  | unchanged => exact hk'
  | deferred =>
    by_cases hk : k' = k
    · simp [hk]
    · obtain ⟨e, he, rfl⟩ := List.mem_map.1 hk'
      exact List.mem_map.2 ⟨e, List.mem_append_left _ (List.mem_filter.2 ⟨he, by simpa using hk⟩), rfl⟩
  | inserted => simpa using hk'

/-- A key held back in a plain pool is held back in flow `1`, so holding it back again in flow
`1` keeps it there. -/
theorem merge_deferred (hp : p.Plain) :
    ((p.deferred.lookup k).getD FlowSet.none).merge (FlowSet.ofList [1]) = FlowSet.ofList [1] := by
  cases h : p.deferred.lookup k with
  | none => exact FlowSet.none_merge_ofList_one
  | some f =>
    obtain ⟨l₁, l₂, hl, -⟩ := List.lookup_eq_some_iff.1 h
    have hf : f = FlowSet.ofList [1] := hp.deferred (k, f) (by rw [hl]; simp)
    rw [Option.getD_some, hf, FlowSet.merge_ofList_one]

theorem fresh_outcome {d : Graph.TaskDef} {pt : Point}
    (hnew : ¬ p.Removed ⟨pt, d.name⟩) :
    SpawnOutcome p ⟨pt, d.name⟩ (p.fresh d pt (FlowSet.ofList [1]) ⟨pt, d.name⟩).1 := by
  unfold fresh
  dsimp only
  have hsame := sameSpawn_satisfyFromHistory p
    (TaskInstance.make d pt p.wf.context.initial (FlowSet.ofList [1]))
  split
  · exact .unchanged
  · exact .inserted _ (hsame.firstFlow ⟨rfl, rfl⟩) hsame.key_eq hnew

/-- A spawn in flow `1` on a plain pool: an instance already live there is in flow `1` and
stays as it is; a trace marked removed refuses the spawn and, not waiting for its flow,
releases nothing; otherwise the sequence, the stop point and the runahead limit decide
between nothing, holding back and a fresh instance. -/
theorem spawn_outcome (hp : p.Plain) (fuel : Nat) (d : Graph.TaskDef) (pt : Point) :
    SpawnOutcome p ⟨pt, d.name⟩ (spawn fuel p d pt (FlowSet.ofList [1])).1 := by
  unfold spawn
  dsimp only
  split
  next t hlive =>
    have hf := (hp.live t (live?_eq_some hlive).1).1
    rw [hf, FlowSet.ofList_one_containsAll, if_pos rfl]
    exact .unchanged
  next =>
    by_cases hnew : p.Removed ⟨pt, d.name⟩
    · -- a trace marked removed refuses the spawn and, waiting for no flow, releases nothing
      obtain ⟨r, hr, hrem⟩ := hnew
      have hfirst := hp.trace hr
      simp only [hr, hrem, hfirst.1, hfirst.2, FlowSet.ofList_one_isNone,
        FlowSet.ofList_one_intersects, Bool.or_true, Bool.and_true, Bool.false_and,
        Bool.false_eq_true, if_true, if_false]
      exact .unchanged
    · rw [if_neg ?rerun]
      · split
        · exact .unchanged
        · split
          · split
            · rw [merge_deferred hp]
              exact .deferred
            · exact fresh_outcome hnew
          · exact fresh_outcome hnew
      · split
        next r hr =>
          have hrem : r.removed = false := by simpa [Removed, hr] using hnew
          simp [hrem]
        next => exact Bool.false_ne_true

end Pool

end CycleSched
