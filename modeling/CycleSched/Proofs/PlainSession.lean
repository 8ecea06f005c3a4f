import CycleSched.Proofs.PlainProgress
import CycleSched.Proofs.Reports

/-!
# Session steps keep the pool plain

Holding, releasing, the hold and stop points and removals by request change instances that are
live, and never their flows; the jobs' reports change one live instance and process its
outputs; simulated jobs and submissions only apply such reports. So every session step but
the manual triggers, the outputs set on matching instances, restores, restarts and draining of
the history keeps the pool plain, and keeps every removal it records (`Session.keeps_run`).
-/

namespace CycleSched

/-- The steps after which the pool still records every removal for good: all but the manual
triggers, the outputs set on matching instances, restores, restarts and draining of the
history. -/
def Step.keepsRemovals : Step → Bool
  | .trigger .. | .setOutputs .. | .restore .. | .restart | .drainHistory => false
  | _ => true

namespace Pool

variable {p q : Pool} {t : TaskInstance}

/-- The instances a command selects are live. -/
theorem mem_select {patterns : List String} (h : t ∈ (p.select patterns).1) : t ∈ p.tasks := by
  unfold select at h
  dsimp only at h
  rw [mem_sortBy] at h
  -- every instance the fold gathers is a hit of a pattern among the live ones
  refine List.foldlRecOn (motive := fun (acc : List TaskInstance × List String) =>
      ∀ u ∈ acc.1, u ∈ p.tasks) patterns _
    (fun _ h => absurd h List.not_mem_nil) ?_ t h
  intro acc hacc pat _ u hu
  split at hu
  · exact hacc u hu
  · rcases List.mem_append.1 hu with hu | hu
    · exact hacc u hu
    · exact (List.mem_filter.1 (List.mem_filter.1 hu).1).1

theorem keeps_setHeld (hp : p.Plain) (ht : t.FirstFlow) (held : Bool) : p.Keeps (p.setHeld t held) := by
  unfold setHeld
  split
  · exact .refl hp
  · dsimp only
    have ht' : TaskInstance.FirstFlow { t with held } := ht
    exact (keeps_update hp ht').then fun hq => keeps_touch hq ht'

/-- Holding or releasing selected instances keeps the pool. -/
theorem keeps_setHeld_selected (hp : p.Plain) (patterns : List String) (held : Bool) :
    p.Keeps ((p.select patterns).1.foldl (fun q t => q.setHeld t held) p) :=
  Keeps.foldlPool _ (fun _ u hu hq => keeps_setHeld hq (hp.live u (mem_select hu)) held) hp

theorem keeps_hold (hp : p.Plain) {patterns : List String} {n : Nat}
    (h : p.hold patterns = .ok (q, n)) : p.Keeps q := by
  unfold hold at h
  dsimp only at h
  split at h
  · cases h
  · cases Except.ok.inj h
    -- holds of instances not yet spawned only grow the list of holds
    exact (keeps_setHeld_selected hp patterns true).then fun hq =>
      Keeps.foldlPool _ (fun _ _ _ hq' => by
        split
        · exact .refl hq'
        · exact keeps_of_parts hq' rfl rfl rfl rfl) hq

theorem keeps_release (hp : p.Plain) {patterns : List String} {n : Nat}
    (h : p.release patterns = .ok (q, n)) : p.Keeps q := by
  unfold release at h
  dsimp only at h
  split at h
  · cases h
  · cases Except.ok.inj h
    refine Keeps.then ?_ fun hq => Keeps.foldlPool _
      (fun _ u hu hq' => keeps_setHeld hq' (hp.live u (mem_select hu)) false) hq
    -- dropping holds of instances not yet spawned changes only the list of holds
    refine Keeps.foldl Prod.fst _ (fun _ _ _ hq => ?_) (p, 0) hp
    split
    · split
      · exact keeps_of_parts hq rfl rfl rfl rfl
      · exact .refl hq
    · exact .refl hq

theorem keeps_setHoldPoint (hp : p.Plain) (pt : Point) : p.Keeps (p.setHoldPoint pt) := by
  unfold setHoldPoint
  dsimp only
  refine Keeps.then ?_ fun hq => Keeps.foldlPool _ (fun _ u hu hq' => ?_) hq
  · exact keeps_of_parts hp rfl rfl rfl rfl
  · split
    · exact keeps_setHeld hq' (hp.live u hu) true
    · exact .refl hq'

theorem keeps_releaseHoldPoint (hp : p.Plain) : p.Keeps p.releaseHoldPoint := by
  unfold releaseHoldPoint
  dsimp only
  refine Keeps.then ?_ fun hq => Keeps.foldlPool _
    (fun _ u hu hq' => keeps_setHeld hq' (hp.live u hu) false) hq
  exact keeps_of_parts hp rfl rfl rfl rfl

theorem keeps_setStopPoint (hp : p.Plain) (pt : Point) : p.Keeps (p.setStopPoint pt) :=
  keeps_of_parts hp rfl rfl rfl rfl

theorem keeps_removeMatching (hp : p.Plain) {patterns : List String} {n : Nat}
    (h : p.removeMatching patterns = .ok (q, n)) : p.Keeps q := by
  unfold removeMatching at h
  dsimp only at h
  split at h
  · cases h
  · split at h
    · cases h
    · cases Except.ok.inj h
      exact Keeps.foldlPool _ (fun _ u hu hq => keeps_remove hq (hp.live u (mem_select hu))) hp

/-- Expiring instances moves them to expired and processes the output. -/
theorem keeps_expireTasks (hp : p.Plain) (now : Instant) : p.Keeps (p.expireTasks now).1 := by
  unfold expireTasks
  refine Keeps.foldlPool _ (fun q u hu hq => ?_) hp
  have hu : ((q.live? u.key).getD u).FirstFlow :=
    hq.firstFlow_getD (hp.live u (List.mem_filter.1 hu).1) _
  dsimp only
  split
  next u' outs hexp => exact keeps_processOutputs hq ((TaskInstance.frame_expire hexp).spawn.firstFlow hu) outs
  next => exact .refl hq

/-- The reports of jobs keep a plain pool, with the removals it records: they change live
instances in flow `1` into instances of the same spawn, which stay in flow `1`. -/
theorem reportInvariant_keeps (p : Pool) : ReportInvariant p.Keeps TaskInstance.FirstFlow where
  live hq ht := hq.plain.live _ ht
  sameSpawn h ht := h.firstFlow ht
  update hq ht := hq.trans (keeps_update hq.plain ht)
  processOutputs outs hq ht := hq.trans (keeps_processOutputs hq.plain ht outs)
  releaseRunahead hq := hq.then keeps_releaseRunahead

end Pool

namespace Session

open Pool

variable {s : Session} {t : TaskInstance}

/-- Every step that keeps removals keeps the pool plain, with the removals it records. -/
theorem keeps_perform {p : Pool} (hp : p.Plain) (hpool : s.pool = p) {st : Step}
    (hst : st.keepsRemovals = true) : p.Keeps (s.perform st).1.pool := by
  subst hpool
  have hs := hp
  have hI := reportInvariant_keeps s.pool
  have hrefl : s.pool.Keeps s.pool := .refl hs
  cases st with
  | start => exact keeps_start hs
  | releaseRunahead => exact keeps_releaseRunahead hs
  | expireTasks => exact keeps_expireTasks hs _
  | hold pats => exact command_pool _ hrefl fun _ _ h => keeps_hold hs h
  | release pats => exact command_pool _ hrefl fun _ _ h => keeps_release hs h
  | holdAfter text =>
    refine command_pool _ hrefl fun _ _ h => ?_
    obtain ⟨pt, -, he⟩ := Except.map_eq_ok_iff.1 h
    cases he
    exact keeps_setHoldPoint hs pt
  | releaseHoldPoint => exact keeps_releaseHoldPoint hs
  | stopAfter text =>
    refine command_pool _ hrefl fun _ _ h => ?_
    obtain ⟨pt, -, he⟩ := Except.map_eq_ok_iff.1 h
    cases he
    exact keeps_setStopPoint hs pt
  | remove pats => exact command_pool _ hrefl fun _ _ h => keeps_removeMatching hs h
  | trigger | setOutputs | drainHistory | restart | restore => cases hst
  | broadcastSet | broadcastClear | broadcastExpire =>
    dsimp only [perform]
    split <;> exact hrefl
  | submit id mode => exact onInstance_pool hrefl fun t ht => hI.submit hrefl (hs.live t ht) mode
  | simAdvance seconds => exact hI.advance hrefl seconds
  | change id c => exact onInstance_pool hrefl fun t ht => hI.applyChange hrefl ht c
  | ready | select | status | records | spawnRecords | broadcastEntries | broadcastChanges | resolve
  | unknown => exact hrefl

/-- A step performed on a session whose pool is a plain pool with its event log cleared keeps that
pool, once the log is cleared again. -/
theorem keeps_perform_cleared {p : Pool} (hp : p.Plain) {s₀ : Session}
    (hs₀ : s₀.pool = { p with events := [] }) {st : Step} (hst : st.keepsRemovals = true) :
    p.Keeps { (s₀.perform st).1.pool with events := [] } :=
  have k₀ : p.Keeps { p with events := [] } := keeps_of_parts hp rfl rfl rfl rfl
  k₀.trans (keeps_perform k₀.plain hs₀ hst).events

/-- A whole step of the session, clock setting and event reporting included, keeps the pool. -/
theorem keeps_run (hs : s.pool.Plain) {st : Step} (hst : st.keepsRemovals = true)
    (now : Option Int) : s.pool.Keeps (s.run now st).1.pool := by
  -- rewriting with the equation of each clock case avoids unfolding the clock arithmetic
  cases now <;>
  · rw [run]
    dsimp only
    exact keeps_perform_cleared hs rfl hst

end Session

end CycleSched
