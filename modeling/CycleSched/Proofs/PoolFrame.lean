import CycleSched.Proofs.Instance

/-!
# What the pool's basic operations change

The pool's basic operations each change a few of its parts: `setTrace` one trace, `markDirty`
the changed traces, `update` and `place` the live instances, `delete` takes one key out of them,
and `touch` records an instance in its trace. The lemmas here say what each one does to the live
instances, the spawns held back, the traces and the changed traces, so that later proofs cite
them and never unfold the operations.
-/

namespace CycleSched

namespace Pool

variable {p : Pool} {k k' : TaskKey} {r : Trace} {t u : TaskInstance}

/-! ## Looking up instances and traces -/

theorem live?_eq_some (h : p.live? k = some t) : t ∈ p.tasks ∧ t.key = k := by
  unfold live? at h
  exact ⟨List.mem_of_find?_eq_some h, by simpa using List.find?_some h⟩

theorem mem_history_of_trace? (h : p.trace? k = some r) : (k, r) ∈ p.history := by
  obtain ⟨l₁, l₂, hl, -⟩ := List.lookup_eq_some_iff.1 h
  rw [hl]
  simp

/-! ## Setting a trace -/

theorem setTrace_history : (p.setTrace k r).history =
    if p.history.any (·.1 == k) then p.history.map fun e => if e.1 == k then (k, r) else e
    else p.history ++ [(k, r)] := by
  unfold setTrace; split <;> rfl

@[simp] theorem setTrace_tasks : (p.setTrace k r).tasks = p.tasks := by
  unfold setTrace; split <;> rfl

@[simp] theorem setTrace_deferred : (p.setTrace k r).deferred = p.deferred := by
  unfold setTrace; split <;> rfl

@[simp] theorem setTrace_dirty : (p.setTrace k r).dirty = p.dirty := by
  unfold setTrace; split <;> rfl

@[simp] theorem setTrace_nextFlow : (p.setTrace k r).nextFlow = p.nextFlow := by
  unfold setTrace; split <;> rfl

/-! ## Replacing or adding an entry

Traces and cursors are both set the same way: the entries of the key are replaced, or one is
added when there is none. -/

section Replace

variable {α β : Type} [DecidableEq α] {a a' : α} {b : β}

/-- Replacing the entries of one key leaves the lookup of another alone. -/
private theorem lookup_map_replace_ne (l : List (α × β)) (ha : a' ≠ a) :
    (l.map fun e => if e.1 == a then (a, b) else e).lookup a' = l.lookup a' := by
  induction l with
  | nil => rfl
  | cons e l ih =>
    obtain ⟨a₀, b₀⟩ := e
    simp only [beq_iff_eq] at ih
    by_cases h₀ : a₀ = a
    · subst h₀
      have hb : (a' == a₀) = false := by simpa using ha
      simp [List.lookup_cons, hb, ih]
    · by_cases ha₀ : a' = a₀
      · subst ha₀
        simp [h₀]
      · have hb : (a' == a₀) = false := by simpa using ha₀
        simp [List.lookup_cons, h₀, hb, ih]

/-- Replacing the entries of a key that has one makes its lookup the new value. -/
private theorem lookup_map_replace_self (l : List (α × β)) (h : l.any (·.1 == a) = true) :
    (l.map fun e => if e.1 == a then (a, b) else e).lookup a = some b := by
  induction l with
  | nil => simp at h
  | cons e l ih =>
    obtain ⟨a₀, b₀⟩ := e
    simp only [beq_iff_eq] at ih
    by_cases h₀ : a₀ = a
    · subst h₀
      simp
    · have hl : l.any (·.1 == a) = true := by simpa [h₀] using h
      have hb : (a == a₀) = false := by simpa using Ne.symm h₀
      simp [List.lookup_cons, h₀, hb, ih hl]

/-- The lookup after the entries of a key are replaced, or one is added when it has none. -/
theorem lookup_replaceOrAdd (l : List (α × β)) (a a' : α) (b : β) :
    (if l.any (·.1 == a) then l.map (fun e => if e.1 == a then (a, b) else e)
      else l ++ [(a, b)]).lookup a' = if a' = a then some b else l.lookup a' := by
  split
  · rename_i hany
    by_cases ha' : a' = a
    · subst ha'
      rw [lookup_map_replace_self _ hany, if_pos rfl]
    · rw [lookup_map_replace_ne _ ha', if_neg ha']
  · rename_i hnone
    have ha : l.lookup a = none := by
      simp only [List.any_eq_true, beq_iff_eq, not_exists, not_and] at hnone
      simp only [List.lookup_eq_none_iff, bne_iff_ne]
      exact fun e he hae => hnone e he hae.symm
    by_cases ha' : a' = a
    · subst ha'
      simp [List.lookup_append, ha]
    · have hb : (a' == a) = false := by simpa using ha'
      simp [List.lookup_append, List.lookup_cons, hb, ha']

end Replace

theorem trace?_setTrace : (p.setTrace k r).trace? k' = if k' = k then some r else p.trace? k' := by
  rw [trace?, setTrace_history]
  exact lookup_replaceOrAdd _ _ _ _

@[simp] theorem trace?_setTrace_self : (p.setTrace k r).trace? k = some r := by
  simp [trace?_setTrace]

theorem mem_setTrace_history {e : TaskKey × Trace} (h : e ∈ (p.setTrace k r).history) :
    e = (k, r) ∨ (e ∈ p.history ∧ e.1 ≠ k) := by
  unfold setTrace at h
  split at h
  next =>
    obtain ⟨e₀, he₀, rfl⟩ := List.mem_map.1 h
    by_cases hk : e₀.1 = k
    · simp [hk]
    · simp [hk, he₀]
  next hnone =>
    rcases List.mem_append.1 h with h | h
    · refine .inr ⟨h, fun hk => hnone ?_⟩
      exact List.any_eq_true.2 ⟨e, h, by simp [hk]⟩
    · exact .inl (List.mem_singleton.1 h)

/-! ## Marking a trace changed -/

@[simp] theorem markDirty_tasks : (p.markDirty k).tasks = p.tasks := by
  unfold markDirty; split <;> rfl

@[simp] theorem markDirty_deferred : (p.markDirty k).deferred = p.deferred := by
  unfold markDirty; split <;> rfl

@[simp] theorem markDirty_history : (p.markDirty k).history = p.history := by
  unfold markDirty; split <;> rfl

@[simp] theorem markDirty_nextFlow : (p.markDirty k).nextFlow = p.nextFlow := by
  unfold markDirty; split <;> rfl

@[simp] theorem mem_markDirty_dirty : k' ∈ (p.markDirty k).dirty ↔ k' = k ∨ k' ∈ p.dirty := by
  unfold markDirty
  split
  · rename_i hk
    have hk : k ∈ p.dirty := by simpa using hk
    constructor
    · exact .inr
    · rintro (rfl | h)
      · exact hk
      · exact h
  · simp [or_comm]

@[simp] theorem trace?_markDirty : (p.markDirty k).trace? k' = p.trace? k' := by
  simp [trace?]

/-! ## Replacing, placing and deleting live instances -/

@[simp] theorem update_history : (p.update t).history = p.history := rfl
@[simp] theorem update_deferred : (p.update t).deferred = p.deferred := rfl
@[simp] theorem update_dirty : (p.update t).dirty = p.dirty := rfl
@[simp] theorem update_nextFlow : (p.update t).nextFlow = p.nextFlow := rfl
@[simp] theorem trace?_update : (p.update t).trace? k = p.trace? k := rfl

/-- A live instance after `update` is the new one or an old one. -/
theorem mem_update_tasks (h : u ∈ (p.update t).tasks) : u = t ∨ u ∈ p.tasks := by
  obtain ⟨v, hv, rfl⟩ := List.mem_map.1 h
  by_cases hk : v.key = t.key <;> simp [hk, hv]

/-- `update` keeps the keys of the live instances. -/
theorem key_mem_update_tasks (h : u ∈ (p.update t).tasks) : ∃ v ∈ p.tasks, v.key = u.key := by
  obtain ⟨v, hv, rfl⟩ := List.mem_map.1 h
  refine ⟨v, hv, ?_⟩
  by_cases hk : v.key = t.key <;> simp [hk]

@[simp] theorem place_history : (p.place t).history = p.history := rfl
@[simp] theorem place_deferred : (p.place t).deferred = p.deferred := rfl
@[simp] theorem place_dirty : (p.place t).dirty = p.dirty := rfl
@[simp] theorem place_nextFlow : (p.place t).nextFlow = p.nextFlow := rfl

/-- Splitting a list keeps its members, each on one side. -/
theorem mem_span {α : Type} {q : α → Bool} {l : List α} {a : α} :
    a ∈ (l.span q).1 ∨ a ∈ (l.span q).2 ↔ a ∈ l := by
  -- the loop gathers the first part, reversed, in its accumulator
  suffices h : ∀ acc, a ∈ (List.span.loop q l acc).1 ∨ a ∈ (List.span.loop q l acc).2 ↔
      a ∈ acc ∨ a ∈ l by
    have h := h []
    simp only [List.not_mem_nil, false_or] at h
    exact h
  induction l with
  | nil =>
    intro acc
    show a ∈ acc.reverse ∨ a ∈ [] ↔ a ∈ acc ∨ a ∈ []
    simp
  | cons b l ih =>
    intro acc
    have hloop : List.span.loop q (b :: l) acc =
        cond (q b) (List.span.loop q l (b :: acc)) (acc.reverse, b :: l) := rfl
    rw [hloop]
    cases q b
    · simp
    · simp only [cond_true, ih, List.mem_cons]
      grind

theorem mem_place_tasks : u ∈ (p.place t).tasks ↔ u = t ∨ (u ∈ p.tasks ∧ u.key ≠ t.key) := by
  have hsplit := mem_span (a := u) (q := fun u => p.keyBefore u.key t.key)
    (l := p.tasks.filter (·.key != t.key))
  unfold place
  simp only [List.mem_append, List.mem_cons]
  rw [or_left_comm, hsplit]
  simp

@[simp] theorem delete_history {reason : String} : (p.delete t reason).history = p.history := rfl
@[simp] theorem delete_deferred {reason : String} : (p.delete t reason).deferred = p.deferred := rfl
@[simp] theorem delete_dirty {reason : String} : (p.delete t reason).dirty = p.dirty := rfl
@[simp] theorem delete_nextFlow {reason : String} : (p.delete t reason).nextFlow = p.nextFlow :=
  rfl
@[simp] theorem trace?_delete {reason : String} : (p.delete t reason).trace? k = p.trace? k := rfl

@[simp] theorem mem_delete_tasks {reason : String} :
    u ∈ (p.delete t reason).tasks ↔ u ∈ p.tasks ∧ u.key ≠ t.key := by
  simp [delete]

/-! ## Recording an instance in its trace -/

/-- The trace that `touch` records for an instance. -/
def touched (p : Pool) (t : TaskInstance) : Trace :=
  let r := (p.trace? t.key).getD {}
  { r with flows := t.flows, state := t.state.name, submitNum := t.submitNum,
           flowWait := t.flowWait }

theorem touch_eq : p.touch t = (p.setTrace t.key (p.touched t)).markDirty t.key := rfl

@[simp] theorem touch_tasks : (p.touch t).tasks = p.tasks := by simp [touch_eq]
@[simp] theorem touch_deferred : (p.touch t).deferred = p.deferred := by simp [touch_eq]
@[simp] theorem touch_nextFlow : (p.touch t).nextFlow = p.nextFlow := by simp [touch_eq]

theorem trace?_touch : (p.touch t).trace? k = if k = t.key then some (p.touched t) else p.trace? k := by
  simp [touch_eq, trace?_setTrace]

@[simp] theorem mem_touch_dirty : k ∈ (p.touch t).dirty ↔ k = t.key ∨ k ∈ p.dirty := by
  simp [touch_eq]

/-! ## Adding a new instance -/

/-- The trace a new instance starts with. -/
def freshTrace (t : TaskInstance) : Trace :=
  { flows := t.flows, state := t.state.name, outputs := t.emitted }

/-- The instance `insert` puts in the pool: held when asked, else as given. -/
private theorem insert_held_eq (b : Bool) :
    (if b = true then { t with held := true } else t) = { t with held := b || t.held } := by
  cases b <;> rfl

theorem setTrace_history_congr {q : Pool} (h : q.history = p.history) :
    (q.setTrace k r).history = (p.setTrace k r).history := by
  rw [setTrace_history, setTrace_history, h]

/-- `insert` changes the traces as setting the new instance's fresh trace does. -/
theorem insert_history : (p.insert t).history = (p.setTrace t.key (freshTrace t)).history := by
  unfold insert
  simp only [insert_held_eq, markDirty_history]
  exact setTrace_history_congr rfl

@[simp] theorem insert_deferred : (p.insert t).deferred = p.deferred := by
  simp [insert]

@[simp] theorem insert_nextFlow : (p.insert t).nextFlow = p.nextFlow := by
  simp [insert]

theorem trace?_insert :
    (p.insert t).trace? k = if k = t.key then some (freshTrace t) else p.trace? k := by
  rw [← trace?_setTrace]
  simp only [trace?, insert_history]

theorem mem_insert_history {e : TaskKey × Trace} (h : e ∈ (p.insert t).history) :
    e = (t.key, freshTrace t) ∨ (e ∈ p.history ∧ e.1 ≠ t.key) := by
  rw [insert_history] at h
  exact mem_setTrace_history h

@[simp] theorem mem_insert_dirty : k ∈ (p.insert t).dirty ↔ k = t.key ∨ k ∈ p.dirty := by
  simp [insert]

/-- A live instance after `insert` is the new one, perhaps held, or an old one at another key. -/
theorem mem_insert_tasks (h : u ∈ (p.insert t).tasks) :
    t.SameSpawn u ∨ (u ∈ p.tasks ∧ u.key ≠ t.key) := by
  unfold insert at h
  simp only [insert_held_eq, markDirty_tasks, setTrace_tasks] at h
  rcases mem_place_tasks.1 h with rfl | hu
  · exact .inl (TaskInstance.sameSpawn_of_eq rfl rfl rfl rfl)
  · exact .inr hu

/-! ## Cursors -/

@[simp] theorem setCursor_tasks {name : String} {c : Option Point} :
    (p.setCursor name c).tasks = p.tasks := by
  unfold setCursor; split <;> rfl

@[simp] theorem setCursor_deferred {name : String} {c : Option Point} :
    (p.setCursor name c).deferred = p.deferred := by
  unfold setCursor; split <;> rfl

@[simp] theorem setCursor_history {name : String} {c : Option Point} :
    (p.setCursor name c).history = p.history := by
  unfold setCursor; split <;> rfl

@[simp] theorem setCursor_dirty {name : String} {c : Option Point} :
    (p.setCursor name c).dirty = p.dirty := by
  unfold setCursor; split <;> rfl

@[simp] theorem setCursor_nextFlow {name : String} {c : Option Point} :
    (p.setCursor name c).nextFlow = p.nextFlow := by
  unfold setCursor; split <;> rfl

end Pool

end CycleSched
