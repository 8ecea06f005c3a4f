import CycleSched.Proofs.FlowText
import CycleSched.Proofs.LiveInvariant

/-!
# Flows restored from a checkpoint

A checkpoint keeps flows as text. A restore reads them back, and a text written from a flow
set reads as none of the flows the set lacked (`FlowSet.mem_of_parse_toText`). So a checkpoint
whose texts read as flows below its next flow number restores a pool with its flows below that
number (`Pool.FlowsBelow.restore`). A session's own checkpoint is such a checkpoint, together
with the traces it saved before, as long as those are below the next flow number too
(`Session.SavedBelow`).
-/

namespace CycleSched

namespace FlowSet

variable {n n' : Int} {f g : FlowSet} {s : String}

theorem mem_of_parse_toText (h : parse f.toText = .ok g) {x : Int} (hx : x ∈ g.nums) :
    x ∈ f.nums := by
  unfold parse at h
  split at h
  · next ns hns =>
    cases h
    rw [← Text.Json.eq_of_readIntList_toText hns]
    exact mem_ofList.1 hx
  · cases h

/-- Every flow set the text reads as is below `n`. -/
def TextBelow (n : Int) (s : String) : Prop := ∀ f, parse s = .ok f → f.Below n

theorem Below.textBelow (hf : f.Below n) : TextBelow n f.toText :=
  fun _ h x hx => hf x (mem_of_parse_toText h hx)

theorem TextBelow.mono (h : TextBelow n s) (hn : n ≤ n') : TextBelow n' s :=
  fun f hf => (h f hf).mono hn

end FlowSet

open FlowSet

namespace TaskInstance

/-- Steps that each keep what spawning reads of an instance keep it along a fold. -/
theorem sameSpawn_foldlM {F : TaskInstance → String → Except Failure TaskInstance}
    (hF : ∀ v o v', F v o = .ok v' → SameSpawn v v') (os : List String) {u v : TaskInstance}
    (h : os.foldlM F u = .ok v) : SameSpawn u v := by
  induction os generalizing u with
  | nil =>
    cases h
    rfl
  | cons o os ih =>
    rw [List.foldlM_cons] at h
    obtain ⟨u', hu', h⟩ := Except.bind_eq_ok_iff.1 h
    exact (hF u o u' hu').trans (ih h)

/-- A restored instance is an instance of the given task at the given point, in the flows its
record reads as. -/
theorem restore_eq_ok {d : Graph.TaskDef} {pt initial : Point} {r : SavedTask}
    {t : TaskInstance} (h : restore d pt initial r = .ok t) :
    t.task = d ∧ t.point = pt ∧ FlowSet.parse r.flows = .ok t.flows := by
  unfold restore at h
  split at h
  next state _ =>
    obtain ⟨flows, hflows, h⟩ := Except.bind_eq_ok_iff.1 h
    dsimp only at h
    split at h
    · cases h
    obtain ⟨prereqs, -, h⟩ := Except.bind_eq_ok_iff.1 h
    obtain ⟨u, hu, h⟩ := Except.bind_eq_ok_iff.1 h
    cases h
    -- the saved outputs are emitted one by one, which leaves task, point and flows alone
    have hspawn := sameSpawn_foldlM (fun v o v' hv => by
      split at hv
      · cases hv
        exact (frame_emit v [o]).spawn
      · cases hv) r.outputs hu
    exact ⟨hspawn.1, hspawn.2.1, hspawn.2.2.1 ▸ Except.mapError_eq_ok_iff.1 hflows⟩
  next => cases h

end TaskInstance

/-- A checkpoint whose next flow number `n` is above flow `1` and whose saved instances, spawn
records and traces read as flows below `n`. -/
structure CheckpointBelow (n : Int) (tasks : List SavedTask) (spawn : List SpawnRecord)
    (history : List SavedTrace) : Prop where
  first : 1 < n
  tasks : ∀ r ∈ tasks, TextBelow n r.flows
  spawn : ∀ r ∈ spawn, TextBelow n r.flows
  history : ∀ h ∈ history, TextBelow n h.flows

namespace Pool

variable {n : Int} {p q : Pool} {t : TaskInstance}

theorem FlowsBelow.place (hp : p.FlowsBelow n) (ht : t.flows.Below n) : (p.place t).FlowsBelow n where
  next := hp.next
  first := hp.first
  live u hu := by
    rcases mem_place_tasks.1 hu with rfl | ⟨hu, -⟩
    · exact ht
    · exact hp.live u hu
  deferred := hp.deferred
  traces := hp.traces

/-- The cleared pool carries no flow, and takes a next flow number above `1` from the
checkpoint. -/
theorem flowsBelow_cleared (p : Pool) (hn : 1 < n) : (p.cleared n).FlowsBelow n where
  next := if_pos hn
  first := hn
  live _ h := nomatch h
  deferred _ h := nomatch h
  traces _ h := nomatch h

theorem FlowsBelow.loadTrace {h : SavedTrace} (hp : p.FlowsBelow n) (hh : TextBelow n h.flows)
    (hq : p.loadTrace h = .ok q) : q.FlowsBelow n := by
  unfold Pool.loadTrace at hq
  obtain ⟨k, -, hq⟩ := Except.bind_eq_ok_iff.1 hq
  obtain ⟨flows, hflows, hq⟩ := Except.bind_eq_ok_iff.1 hq
  cases hq
  exact hp.setTrace (hh flows hflows)

theorem FlowsBelow.loadTask {r : SavedTask} (hp : p.FlowsBelow n) (hr : TextBelow n r.flows)
    (hq : p.loadTask r = .ok q) : q.FlowsBelow n := by
  unfold Pool.loadTask at hq
  obtain ⟨k, -, hq⟩ := Except.bind_eq_ok_iff.1 hq
  dsimp only at hq
  split at hq
  · cases hq
  split at hq
  next d _ =>
    obtain ⟨t, ht, hq⟩ := Except.bind_eq_ok_iff.1 hq
    cases hq
    -- the restored instance and its trace are in the flows its record reads as
    have hflows := hr t.flows (TaskInstance.restore_eq_ok ht).2.2
    exact (hp.place hflows).setTrace hflows
  next =>
    cases hq
    exact hp

theorem FlowsBelow.loadSpawn {r : SpawnRecord} (hp : p.FlowsBelow n) (hr : TextBelow n r.flows)
    (hq : p.loadSpawn r = .ok q) : q.FlowsBelow n := by
  unfold Pool.loadSpawn at hq
  split at hq
  · -- a cursor
    dsimp only at hq
    split at hq
    · cases hq
    split at hq
    · cases hq
      exact hp.setCursor
    obtain ⟨k, -, hq⟩ := Except.bind_eq_ok_iff.1 hq
    cases hq
    exact hp.setCursor
  · -- a spawn held back, in the flows the record reads as
    obtain ⟨k, -, hq⟩ := Except.bind_eq_ok_iff.1 hq
    obtain ⟨flows, hflows, hq⟩ := Except.bind_eq_ok_iff.1 hq
    cases hq
    refine ⟨hp.next, hp.first, hp.live, fun e he => ?_, hp.traces⟩
    rcases List.mem_append.1 he with he | he
    · exact hp.deferred e (List.mem_filter.1 he).1
    · rw [List.mem_singleton.1 he]
      exact hr flows hflows
  · -- a hold
    obtain ⟨k, -, hq⟩ := Except.bind_eq_ok_iff.1 hq
    cases hq
    split
    · exact hp
    · exact hp.of_parts rfl rfl rfl rfl
  · cases hq

theorem FlowsBelow.addMissingCursors (hp : p.FlowsBelow n) : p.addMissingCursors.FlowsBelow n := by
  unfold Pool.addMissingCursors
  refine FlowsBelow.foldlPool _ (fun q d _ hq => ?_) hp
  split
  · exact hq
  · exact hq.setCursor

/-- A restore from a checkpoint whose flows are below its next flow number `n` loads a pool
with its flows below `n`, whether or not every record loads. -/
theorem FlowsBelow.restore {tasks : List SavedTask} {spawn : List SpawnRecord}
    {history : List SavedTrace} (h : CheckpointBelow n tasks spawn history) (p : Pool) :
    (p.restore tasks spawn history n).1.FlowsBelow n :=
  restore_keeps (flowsBelow_cleared p h.first)
    (fun _ x _ hx hq hl => hq.loadTrace (h.history x hx) hl)
    (fun _ x _ hx hq hl => hq.loadTask (h.tasks x hx) hl)
    (fun _ x _ hx hq hl => hq.loadSpawn (h.spawn x hx) hl)
    (fun _ hq => hq.addMissingCursors)

/-! ## The pool's own checkpoint -/

theorem FlowsBelow.records (hp : p.FlowsBelow n) : ∀ r ∈ p.records, TextBelow n r.flows := by
  intro r hr
  obtain ⟨t, ht, rfl⟩ := List.mem_map.1 hr
  exact (hp.live t ht).textBelow

theorem FlowsBelow.spawnRecords (hp : p.FlowsBelow n) :
    ∀ r ∈ p.spawnRecords, TextBelow n r.flows := by
  intro r hr
  simp only [Pool.spawnRecords, List.mem_append, List.mem_filterMap, List.mem_map,
    Option.map_eq_some_iff] at hr
  -- cursors are saved in flow `1`, held-back spawns in their flows, holds in no flow
  rcases hr with (⟨_, -, _, -, rfl⟩ | ⟨_, -, rfl⟩) | ⟨_, -, rfl⟩
  · have h : "[1]" = (FlowSet.ofList [1]).toText := rfl
    exact h ▸ hp.firstFlow.textBelow
  · exact hp.deferred_getD.textBelow
  · have h : "[]" = FlowSet.none.toText := rfl
    exact h ▸ (below_none n).textBelow

/-- The traces drained from the pool are saved with their flows. -/
theorem FlowsBelow.drainHistory (hp : p.FlowsBelow n) :
    p.drainHistory.1.FlowsBelow n ∧ ∀ r ∈ p.drainHistory.2, TextBelow n r.flows := by
  refine ⟨hp.of_parts rfl rfl rfl rfl, fun r hr => ?_⟩
  simp only [Pool.drainHistory, List.mem_filterMap, Option.map_eq_some_iff] at hr
  obtain ⟨k, -, tr, htr, rfl⟩ := hr
  exact (hp.trace htr).textBelow

end Pool

/-- The steps that change the saved traces: draining the history, restarting and restoring. -/
def Step.savesTraces : Step → Bool
  | .drainHistory | .restart | .restore .. => true
  | _ => false

namespace Session

variable {n : Int} {s : Session}

/-- Every trace the session saved reads as flows below `n`. -/
def SavedBelow (n : Int) (saved : List (String × SavedTrace)) : Prop :=
  ∀ e ∈ saved, TextBelow n e.2.flows

theorem SavedBelow.mono {saved : List (String × SavedTrace)} (h : SavedBelow n saved) {n' : Int}
    (hn : n ≤ n') : SavedBelow n' saved :=
  fun e he => (h e he).mono hn

/-- Saving traces in flows below `n` keeps every saved trace below `n`. -/
theorem SavedBelow.remember {saved : List (String × SavedTrace)} (h : SavedBelow n saved)
    {rs : List SavedTrace} (hrs : ∀ r ∈ rs, TextBelow n r.flows) :
    SavedBelow n (Session.remember saved rs) := by
  unfold Session.remember
  induction rs generalizing saved with
  | nil => exact h
  | cons r rs ih =>
    refine ih ?_ (fun r' hr' => hrs r' (List.mem_cons_of_mem r hr'))
    have hr := hrs r List.mem_cons_self
    -- the trace replaces the one saved for its instance, or is added after the others
    dsimp only
    split
    · intro e he
      obtain ⟨e', he', rfl⟩ := List.mem_map.1 he
      split
      · exact hr
      · exact h e' he'
    · intro e he
      rcases List.mem_append.1 he with he | he
      · exact h e he
      · rw [List.mem_singleton.1 he]
        exact hr

/-! ## What keeps the saved traces -/

@[simp] theorem settle_saved (t : TaskInstance) (outs : List String) :
    (s.settle t outs).saved = s.saved := rfl

theorem finish_saved (r : Except Failure (TaskInstance × List String × Bool)) :
    (s.finish r).1.saved = s.saved := by
  unfold finish
  split <;> rfl

theorem wholeJob_saved (t : TaskInstance) (success : Bool) (jobId : String)
    (given : Option (List String)) : (s.wholeJob t success jobId given).1.saved = s.saved := by
  unfold wholeJob
  dsimp only
  repeat' split
  all_goals rfl

theorem applyEvent_saved (ev : JobEvent) : (s.applyEvent ev).1.saved = s.saved := by
  unfold applyEvent
  dsimp only
  repeat' split
  all_goals rfl

theorem applyEvents_saved (evs : List JobEvent) : (s.applyEvents evs).1.saved = s.saved := by
  unfold applyEvents
  refine List.foldlRecOn (motive := fun x : Session × List (JobEvent × EventOutcome) =>
    x.1.saved = s.saved) evs _ rfl fun x hx ev _ => ?_
  exact (applyEvent_saved ev).trans hx

theorem advance_saved (seconds : Int) : (s.advance seconds).1.saved = s.saved := by
  unfold advance
  exact applyEvents_saved _

theorem submit_saved (t : TaskInstance) (mode : String) : (s.submit t mode).1.saved = s.saved := by
  unfold submit
  dsimp only
  repeat' split
  all_goals first
    | rfl
    | exact applyEvents_saved _

theorem applyChange_saved (t : TaskInstance) (c : Change) :
    (s.applyChange t c).1.saved = s.saved := by
  cases c
  case wholeJob success jobId given => exact wholeJob_saved t success jobId given
  all_goals
    dsimp only [applyChange]
    repeat' split
    all_goals first
      | rfl
      | exact finish_saved _

theorem onInstance_saved {id : String} {k : TaskInstance → Session × Except Refusal Reply}
    (hk : ∀ t, (k t).1.saved = s.saved) : (s.onInstance id k).1.saved = s.saved := by
  unfold onInstance
  split
  · rfl
  · split
    · rfl
    · exact hk _

/-- Every step but draining the history, a restart and a restore keeps the saved traces. -/
theorem perform_saved {st : Step} (hst : st.savesTraces = false) :
    (s.perform st).1.saved = s.saved := by
  cases st
  case drainHistory | restart | restore => cases hst
  case submit id mode => exact onInstance_saved fun t => submit_saved t mode
  case change id c => exact onInstance_saved fun t => applyChange_saved t c
  case simAdvance seconds => exact advance_saved seconds
  all_goals
    dsimp only [perform, command, partly]
    repeat' split
    all_goals rfl

/-- A restart restores the pool from its own checkpoint, with the traces saved before, and gives
the restore the pool's next flow number: the flows stay below it. -/
theorem restart_flowsBelow (hp : s.pool.FlowsBelow n) (hsaved : SavedBelow n s.saved) :
    s.restart.1.pool.FlowsBelow n ∧ SavedBelow n s.restart.1.saved := by
  obtain ⟨hq, hdrained⟩ := hp.drainHistory
  have hsaved' := hsaved.remember hdrained
  have hcheck : CheckpointBelow n s.pool.drainHistory.1.records s.pool.drainHistory.1.spawnRecords
      ((sortBy (fun a b => decide (a.1 ≤ b.1)) (remember s.saved s.pool.drainHistory.2)).map (·.2)) :=
    ⟨hp.first, hq.records, hq.spawnRecords, fun h hh => by
      obtain ⟨e, he, rfl⟩ := List.mem_map.1 hh
      exact hsaved' e ((mem_sortBy _).1 he)⟩
  have hrestored : ((Pool.make s.wf).restore s.pool.drainHistory.1.records
      s.pool.drainHistory.1.spawnRecords
      ((sortBy (fun a b => decide (a.1 ≤ b.1)) (remember s.saved s.pool.drainHistory.2)).map (·.2))
      s.pool.drainHistory.1.nextFlow).1.FlowsBelow n := by
    rw [hq.next]
    exact Pool.FlowsBelow.restore hcheck _
  unfold restart
  dsimp only
  split
  next q e hres =>
    rw [hres] at hrestored
    exact ⟨hrestored, hsaved'⟩
  next q hres =>
    rw [hres] at hrestored
    exact ⟨hrestored, hsaved'⟩

end Session

end CycleSched
