import Mathlib.Tactic.Set
import CycleSched.Proofs.PlainPool
import CycleSched.Pool.Progress

/-!
# The pool's progress keeps it plain

Processing outputs spawns dependants in the flows of the emitting instance, which in a plain
pool is flow `1`; pruning orphans only marks terms impossible and deletes instances; releasing
the runahead limit spawns held-back keys in the flows they were held back in, and sequence
spawns in flow `1`; and `Pool.housekeep` forgets no trace of a removed instance, since such a
trace has not been drained. So each of them keeps a plain pool plain, with its removals.
-/

namespace CycleSched

namespace Pool

variable {p : Pool} {t : TaskInstance}

theorem keeps_spawn (hp : p.Plain) (fuel : Nat) (d : Graph.TaskDef) (pt : Point) :
    p.Keeps (spawn fuel p d pt (FlowSet.ofList [1])).1 :=
  (spawn_outcome hp fuel d pt).keeps hp

/-- An instance read from a plain pool, or else a given one in flow `1`, is in flow `1`. -/
theorem Plain.firstFlow_getD (hp : p.Plain) (ht : t.FirstFlow) (k : TaskKey) :
    ((p.live? k).getD t).FirstFlow := by
  cases h : p.live? k with
  | none => exact ht
  | some u => exact hp.live u (live?_eq_some h).1

/-! ## Outputs and their dependants -/

/-- Finding the dependants of an output keeps the pool, when the spawns it may make do. -/
theorem keeps_dependantsBy {sp : Spawner} {pt : Point} {name o : String} {flows : FlowSet}
    {spawnNew : Bool} (hsp : spawnNew = true → ∀ (q : Pool) (d : Graph.TaskDef) (pt : Point), q.Plain →
      q.Keeps (sp q d pt flows).1)
    (hp : p.Plain) : p.Keeps (dependantsBy sp p pt name o flows spawnNew).1 := by
  unfold dependantsBy
  refine Keeps.foldl Prod.fst _ ?_ (p, []) hp
  rintro ⟨q, out⟩ c - hq
  dsimp only
  -- only a dependant not yet live, spawned when `spawnNew` asks for it, changes the pool
  repeat' split
  all_goals first
    | exact .refl hq
    | exact hsp ‹_› q _ _ hq

theorem keeps_satisfyChildrenBy {sp : Spawner} {pt : Point} {name o : String} {flows : FlowSet}
    {spawnNew : Bool} (hsp : spawnNew = true → ∀ (q : Pool) (d : Graph.TaskDef) (pt : Point), q.Plain →
      q.Keeps (sp q d pt flows).1)
    (hp : p.Plain) : p.Keeps (satisfyChildrenBy sp p pt name o flows spawnNew) := by
  unfold satisfyChildrenBy
  dsimp only
  have h₁ : p.Keeps (dependantsBy sp p pt name o flows spawnNew).1 := keeps_dependantsBy hsp hp
  refine h₁.trans (Keeps.foldl id _ ?_ _ h₁.plain)
  rintro q k - hq
  split
  next child hchild =>
    have hfirst := hq.live child (live?_eq_some hchild).1
    exact keeps_update hq ((TaskInstance.sameSpawn_satisfy child _).firstFlow hfirst)
  next => exact .refl hq

theorem keeps_satisfyChildren (hp : p.Plain) (fuel : Nat) {pt : Point} {name o : String}
    {spawnNew : Bool} : p.Keeps (satisfyChildren fuel p pt name o (FlowSet.ofList [1]) spawnNew) :=
  keeps_satisfyChildrenBy (fun _ _ d pt hq => keeps_spawn hq fuel d pt) hp

/-- Pruning orphans marks terms impossible and deletes instances, so it keeps the pool. -/
theorem keeps_pruneOrphans_go (fuel : Nat) :
    ∀ (p : Pool) (work : List (TaskInstance × List String)), p.Plain →
      p.Keeps (pruneOrphans.go fuel p work) := by
  induction fuel with
  | zero => intro p work hp; exact .refl hp
  | succ fuel ih =>
    intro p work hp
    cases work with
    | nil => exact .refl hp
    | cons item rest =>
      obtain ⟨it, lost⟩ := item
      unfold pruneOrphans.go
      dsimp only
      -- each lost output marks terms of its dependants impossible and deletes those that can
      -- no longer run; finding the dependants spawns nothing
      have hnext : ∀ X : Pool × List (TaskInstance × List String), p.Keeps X.1 →
          p.Keeps (pruneOrphans.go fuel X.1 (rest ++ X.2)) :=
        fun X hX => hX.then (ih _ _)
      apply hnext
      refine Keeps.foldl Prod.fst _ ?_ (p, []) hp
      rintro ⟨q, found⟩ o - hq
      dsimp only
      have h₁ : q.Keeps (dependants 0 q it.point it.task.name o FlowSet.none false).1 :=
        keeps_dependantsBy (fun h => absurd h Bool.false_ne_true) hq
      refine h₁.then fun hq' => ?_
      refine Keeps.foldl Prod.fst _ ?_ (_, found) hq'
      rintro ⟨q', found'⟩ k - hq'
      dsimp only
      split
      · exact .refl hq'
      next child hchild =>
        have hfirst := (TaskInstance.sameSpawn_markImpossible child
          ⟨it.point, it.task.name, o⟩).firstFlow (hq'.live child (live?_eq_some hchild).1)
        refine (keeps_update hq' hfirst).then fun hq'' => ?_
        split
        · exact .refl hq''
        · exact keeps_delete hq''

theorem keeps_pruneOrphans (hp : p.Plain) (t : TaskInstance) (lost : List String) :
    p.Keeps (p.pruneOrphans t lost) :=
  keeps_pruneOrphans_go _ p _ hp

theorem keeps_removeIfDone (hp : p.Plain) (ht : t.FirstFlow) : p.Keeps (p.removeIfDone t) := by
  unfold removeIfDone
  split
  · exact .refl hp
  · split
    · exact keeps_remove hp ht
    · split
      · exact keeps_remove hp ht
      · split
        · exact keeps_remove hp ht
        · exact .refl hp

/-- Recording the outputs of an instance in flow `1` and acting on them keeps the pool. -/
theorem keeps_processOutputs (hp : p.Plain) (ht : t.FirstFlow) (outputs : List String) :
    p.Keeps (p.processOutputs t outputs) := by
  unfold processOutputs
  dsimp only
  have h₁ := keeps_update hp ht
  have h₂ := h₁.trans (keeps_touch h₁.plain ht)
  set q := (p.update t).touch t
  -- the outputs join the touched trace, which keeps its flows and whether it was removed
  have htr : q.trace? t.key = some ((p.update t).touched t) := by simp [q, trace?_touch]
  rw [htr, Option.getD_some]
  set r := (p.update t).touched t
  have hrem : ∀ outs, ({ r with outputs := outs } : Trace).removed = true ↔ q.Removed t.key := by
    intro outs
    simp [Removed, htr]
  have hr : ∀ outs, ({ r with outputs := outs } : Trace).FirstFlow := fun _ => ht
  set q₃ := q.setTrace t.key
    { r with outputs := r.outputs ++ outputs.filter fun x => !r.outputs.contains x }
  have h₃ : p.Keeps q₃ := h₂.trans (keeps_setTrace h₂.plain (hr _) (hrem _))
  -- the outputs spawn and satisfy dependants in flow `1`
  have h₄ : q₃.Keeps (outputs.foldl (fun p o => satisfyChildren q₃.spawnFuel p t.point t.task.name
      o t.flows (!t.flows.isNone && !t.flowWait)) q₃) := by
    rw [ht.1]
    exact Keeps.foldl id _ (fun q' o _ hq' => keeps_satisfyChildren hq' _) _ h₃.plain
  refine h₃.trans (h₄.trans ?_)
  -- a finished instance then prunes its orphans and may be removed
  split
  · exact (keeps_pruneOrphans h₄.plain _ _).then fun h₅ =>
      keeps_removeIfDone h₅ (h₅.firstFlow_getD (h₄.plain.firstFlow_getD ht _) _)
  · exact .refl h₄.plain

/-! ## The runahead release -/

/-- The lookup of a key in a list of traces whose entries for that key all pass a filter. -/
private theorem lookup_filter_of_pass (l : List (TaskKey × Trace)) {k : TaskKey}
    {P : TaskKey × Trace → Bool} (hk : ∀ e ∈ l, e.1 = k → P e = true) :
    (l.filter P).lookup k = l.lookup k := by
  induction l with
  | nil => rfl
  | cons e l ih =>
    have ih := ih (fun e' he' => hk e' (List.mem_cons_of_mem e he'))
    have hpass := hk e List.mem_cons_self
    obtain ⟨k₀, r₀⟩ := e
    by_cases he : k₀ = k
    · subst he
      rw [List.filter_cons_of_pos (hpass rfl)]
      simp
    · have hb : (k == k₀) = false := by simpa using Ne.symm he
      by_cases hP : P (k₀, r₀) = true
      · rw [List.filter_cons_of_pos hP]
        simp [List.lookup_cons, hb, ih]
      · rw [List.filter_cons_of_neg hP, ih]
        simp [List.lookup_cons, hb]

/-- Forgetting traces forgets none of a removed instance, whose trace is still changed. -/
theorem keeps_housekeep (hp : p.Plain) : p.Keeps p.housekeep := by
  unfold housekeep
  split
  · exact .refl hp
  · refine ⟨⟨hp.live, hp.deferred, hp.deferredKeys, ?_, ?_, ?_⟩, ?_⟩
    · exact fun e he => hp.traces e (List.mem_filter.1 he).1
    · exact fun e he => hp.removedOut e (List.mem_filter.1 he).1
    · exact fun e he => hp.removedDirty e (List.mem_filter.1 he).1
    · rintro k ⟨r, hr, hrem⟩
      have hk : k ∈ p.dirty := hp.dirty ⟨r, hr, hrem⟩
      refine ⟨r, ?_, hrem⟩
      refine (lookup_filter_of_pass p.history ?_).trans hr
      rintro ⟨k', r'⟩ - rfl
      simp [hk]

theorem keeps_setCursor (hp : p.Plain) {name : String} {c : Option Point} :
    p.Keeps (p.setCursor name c) :=
  keeps_of_parts hp setCursor_tasks setCursor_deferred setCursor_history setCursor_dirty

/-- What a spawn in flow `1` and a move of the cursor of `d` keep, a walk of that cursor keeps. -/
theorem go_keeps {P : Pool → Prop} {d : Graph.TaskDef} {h : Point}
    (hspawn : ∀ p pt, P p → P (p.spawnNow d pt (FlowSet.ofList [1])).1)
    (hset : ∀ p c, P p → P (p.setCursor d.name c)) (fuel : Nat) :
    ∀ p pt, P p → P (advanceCursor.go d h fuel p pt) := by
  induction fuel with
  | zero => exact fun p _ hp => hp
  | succ fuel ih =>
    intro p pt hp
    unfold advanceCursor.go
    -- past the horizon nothing happens, past the stop point the cursor stops, and otherwise
    -- a parentless task is spawned in flow `1` and the cursor moves on
    split
    · exact hp
    · split
      · exact hset _ _ hp
      · dsimp only
        have h₁ : P (if p.wf.isParentless d pt then (p.spawnNow d pt (FlowSet.ofList [1])).1
            else p) := by
          split
          · exact hspawn _ _ hp
          · exact hp
        cases d.nextPoint pt with
        | some q => exact ih _ _ (hset _ _ h₁)
        | none => exact hset _ _ h₁

theorem advanceCursor_keeps {P : Pool → Prop} {d : Graph.TaskDef} {h : Point}
    (hspawn : ∀ p pt, P p → P (p.spawnNow d pt (FlowSet.ofList [1])).1)
    (hset : ∀ p c, P p → P (p.setCursor d.name c)) (hp : P p) : P (p.advanceCursor d h) := by
  unfold advanceCursor
  split
  · exact go_keeps hspawn hset _ _ _ hp
  · exact hp

theorem keeps_advanceCursor (hp : p.Plain) (d : Graph.TaskDef) (h : Point) :
    p.Keeps (p.advanceCursor d h) :=
  advanceCursor_keeps (fun _ pt hq => hq.then fun hq' => keeps_spawn hq' _ d pt)
    (fun _ _ hq => hq.then fun hq' => keeps_setCursor hq') (.refl hp)

/-- A fold over distinct held-back keys, each step of which keeps the pool and every other
held-back key, keeps the pool. -/
theorem Keeps.foldl_deferred {f : Pool → TaskKey → Pool}
    (hf : ∀ q k, q.Plain → k ∈ q.deferred.map (·.1) →
      q.Keeps (f q k) ∧ ∀ k' ∈ q.deferred.map (·.1), k' ≠ k → k' ∈ (f q k).deferred.map (·.1))
    (L : List TaskKey) :
    ∀ q : Pool, q.Plain → L.Nodup → (∀ k ∈ L, k ∈ q.deferred.map (·.1)) → q.Keeps (L.foldl f q) := by
  induction L with
  | nil => intro q hq _ _; exact .refl hq
  | cons k L ih =>
    intro q hq hnd hin
    obtain ⟨hk, hothers⟩ := hf q k hq (hin k List.mem_cons_self)
    have hnd := List.nodup_cons.1 hnd
    refine hk.trans (ih _ hk.plain hnd.2 fun k' hk' => ?_)
    exact hothers k' (hin k' (List.mem_cons_of_mem k hk')) (fun h => hnd.1 (h ▸ hk'))

/-- Releasing one held-back key spawns it in flow `1` and keeps the other held-back keys. -/
theorem release_deferred_step (hq : p.Plain) {k : TaskKey} (hk : k ∈ p.deferred.map (·.1)) :
    let q := { p with deferred := p.deferred.filter (·.1 != k) }
    p.Keeps q ∧ (∀ k' ∈ p.deferred.map (·.1), k' ≠ k → k' ∈ q.deferred.map (·.1)) ∧
      (p.deferred.lookup k).getD FlowSet.none = FlowSet.ofList [1] := by
  intro q
  refine ⟨⟨⟨hq.live, ?_, ?_, hq.traces, hq.removedOut, hq.removedDirty⟩, fun _ h => h⟩, ?_, ?_⟩
  · exact fun e he => hq.deferred e (List.mem_filter.1 he).1
  · exact hq.deferredKeys.sublist (List.filter_sublist.map _)
  · intro k' hk' hne
    obtain ⟨e, he, rfl⟩ := List.mem_map.1 hk'
    exact List.mem_map.2 ⟨e, List.mem_filter.2 ⟨he, by simpa using hne⟩, rfl⟩
  · obtain ⟨e, he, rfl⟩ := List.mem_map.1 hk
    have hsome : (p.deferred.lookup e.1).isSome := List.lookup_isSome_iff.2 ⟨e, he, by simp⟩
    obtain ⟨f, hf⟩ := Option.isSome_iff_exists.1 hsome
    obtain ⟨l₁, l₂, hl, -⟩ := List.lookup_eq_some_iff.1 hf
    rw [hf, Option.getD_some]
    exact hq.deferred (e.1, f) (by rw [hl]; simp)

/-- The runahead release spawns held-back keys and sequence spawns in flow `1`, and forgets no
removal, so it keeps the pool. -/
theorem keeps_releaseRunahead (hp : p.Plain) : p.Keeps p.releaseRunahead := by
  unfold releaseRunahead
  split
  · exact .refl hp
  · dsimp only
    refine Keeps.then ?_ keeps_housekeep
    refine Keeps.then ?_ fun h => Keeps.foldlPool _ (fun q d _ hq => keeps_advanceCursor hq d _) h
    -- the released keys are distinct keys held back at the start
    refine Keeps.foldl_deferred ?_ _ p hp ?_ ?_
    · intro q k hq hk
      obtain ⟨hkeep, hothers, hflows⟩ := release_deferred_step hq hk
      rw [hflows]
      split
      · exact ⟨hkeep.trans ((spawn_outcome hkeep.plain _ _ _).keeps hkeep.plain),
          fun k' hk' hne => (spawn_outcome hkeep.plain _ _ _).deferredKeys (hothers k' hk' hne)⟩
      · exact ⟨hkeep, hothers⟩
    · exact ((sortBy_perm _ _).nodup_iff).2
        (hp.deferredKeys.sublist (List.filter_sublist.map _))
    · intro k hk
      obtain ⟨e, he, rfl⟩ := List.mem_map.1 ((mem_sortBy _).1 hk)
      exact List.mem_map.2 ⟨e, (List.mem_filter.1 he).1, rfl⟩

theorem keeps_start (hp : p.Plain) : p.Keeps p.start := by
  unfold start
  dsimp only
  exact (Keeps.foldlPool _ (fun q d _ hq => keeps_setCursor hq) hp).then keeps_releaseRunahead

end Pool

end CycleSched
