import CycleSched.Proofs.Runs
import CycleSched.Proofs.PlainSession

/-!
# Leaving the pool for good

An instance leaves the pool in one of two ways. Removed (completed, expired, an expected
failure, or by request), its trace is marked removed, and `Pool.spawn` refuses a later spawn in
flows that meet the trace's. Deleted as an orphan by `Pool.pruneOrphans`, because a term it
waits on can no longer be met, its trace keeps no mark, and a parent that has still to run
spawns it again.

With the graph `a & x => c` and `c & d & e => g` at the single point `1`: the successes of `x`
and `d` spawn `c` and `g`; the failure of `a` makes `c` an orphan and then `g`, since `g` waits
on `c`; the success of `e` then spawns `g` again in the same flow (`orphan_respawned`), where it
waits on the success of `c`, which can no longer come (`respawn_waits_on_dead`).

A removed instance does stay out, in runs without manual triggers, outputs set by hand,
restores, restarts or drained history (`removed_stays_out`): every pool such a run reaches is
plain and keeps the removals recorded before it (`Pool.Keeps`), and a plain pool holds no live
instance at a key whose trace says it was removed.
-/

namespace CycleSched.Proofs

open CycleSched.Graph

/-- In the step from `s` to `s'` the instance at `k` left the pool while in the flows `F`. -/
def Leaves (s s' : Session) (k : TaskKey) (F : FlowSet) : Prop :=
  (∃ t ∈ s.pool.tasks, t.key = k ∧ t.flows = F) ∧ ∀ t ∈ s'.pool.tasks, t.key ≠ k

/-- In the step from `s` to `s'` an instance at `k` entered the pool in the flows `G`. -/
def Enters (s s' : Session) (k : TaskKey) (G : FlowSet) : Prop :=
  (∀ t ∈ s.pool.tasks, t.key ≠ k) ∧ ∃ t ∈ s'.pool.tasks, t.key = k ∧ t.flows = G

instance (s s' : Session) (k : TaskKey) (F : FlowSet) : Decidable (Leaves s s' k F) :=
  inferInstanceAs (Decidable ((∃ t ∈ s.pool.tasks, t.key = k ∧ t.flows = F) ∧
    ∀ t ∈ s'.pool.tasks, t.key ≠ k))

instance (s s' : Session) (k : TaskKey) (G : FlowSet) : Decidable (Enters s s' k G) :=
  inferInstanceAs (Decidable ((∀ t ∈ s.pool.tasks, t.key ≠ k) ∧
    ∃ t ∈ s'.pool.tasks, t.key = k ∧ t.flows = G))

/-- In runs of `allowed` steps over `wf`, an instance that left the pool in the flows `F` never
enters it again in a flow of `F`, nor in flow none. -/
def StaysOut (wf : Workflow) (allowed : Step → Prop) : Prop :=
  ∀ (s₀ s₁ s₂ s₃ : Session) (k : TaskKey) (F G : FlowSet), Reaches wf allowed s₀ →
    Moves allowed s₀ s₁ → Leaves s₀ s₁ k F → Follows allowed s₁ s₂ → Moves allowed s₂ s₃ →
    Enters s₂ s₃ k G → G.intersects F = false ∧ G.isNone = false

/-! ## An orphan comes back -/

/-- The workflow compiled from the integer graph `R1: a & x => c` and `c & d & e => g`. -/
def orphanWorkflow : Workflow :=
  compiledOf (integerConfig "" ⟨["R1"], [("R1", "a & x => c\nc & d & e => g\n")]⟩)
    (by decide +kernel)

/-- The session after `x` and `d` succeeded: `c` and `g` wait, `c` on `a`. -/
def beforeOrphaning : Session :=
  runSteps (started orphanWorkflow none) [succeeds "1/x", succeeds "1/d"]

/-- The failure of `a` deletes `c` and `g` as orphans. -/
def afterOrphaning : Session := (beforeOrphaning.run none (fails "1/a").2).1

/-- The success of `e` spawns `g` again. -/
def afterRespawn : Session := (afterOrphaning.run none (succeeds "1/e").2).1

/-- The orphan `g` leaves the pool in flow `1` and comes back in flow `1` one step later, in a
run without manual triggers, outputs set by hand or restores. -/
theorem orphan_respawned : ¬ StaysOut orphanWorkflow (fun st => st.keepsSpawning) := by
  intro h
  have hreach : Reaches orphanWorkflow (fun st => st.keepsSpawning) beforeOrphaning :=
    reaches_runSteps none _ (by decide)
  have hleft : Leaves beforeOrphaning afterOrphaning ⟨⟨.integer, 1⟩, "g"⟩ (FlowSet.ofList [1]) := by
    decide +kernel
  have hback : Enters afterOrphaning afterRespawn ⟨⟨.integer, 1⟩, "g"⟩ (FlowSet.ofList [1]) := by
    decide +kernel
  have hout := h _ _ _ _ _ _ _ hreach (moves_run none (by decide)) hleft .refl
    (moves_run none (by decide)) hback
  revert hout
  decide

/-! ## A dependant waits on a dead upstream -/

/-- From the view of `s`, reached from `s₀`, the output `k` can no longer come: its instance
was live in `s₀`, and in `s` it has finished, or left the pool, without emitting it. -/
def DeadOutput (s₀ s : Session) (k : OutputKey) : Bool :=
  let key : TaskKey := ⟨k.point, k.task⟩
  s₀.pool.tasks.any (·.key == key) &&
    match s.pool.tasks.find? (·.key == key) with
    | some t => t.state.isFinal && !t.emitted.contains k.output
    | none => !(s.pool.trace? key).any (·.outputs.contains k.output)

/-- The prerequisite with every unmet term on a dead output counted impossible. -/
def countDead (dead : OutputKey → Bool) (pr : Prereq) : Prereq :=
  { pr with
    bits := List.zipWith (fun k b => if b == .unsatisfied && dead k then .impossible else b)
      pr.keys pr.bits }

/-- In runs of `allowed` steps over `wf`, no waiting instance that is not forced keeps a
prerequisite that the outputs dead since an earlier session of the run make impossible. -/
def NoWaitOnDead (wf : Workflow) (allowed : Step → Prop) : Prop :=
  ∀ s₀ s, Reaches wf allowed s₀ → Follows allowed s₀ s →
    ∀ c ∈ s.pool.tasks, c.state = .waiting → c.forced = false →
      ∀ pr ∈ c.prereqs, (countDead (DeadOutput s₀ s) pr).isImpossible = false

/-- The respawned `g` waits, not forced, on the success of `c`, which was live before `a`
failed and is gone without having succeeded, in a run without removals or restores. -/
theorem respawn_waits_on_dead :
    ¬ NoWaitOnDead orphanWorkflow (fun st => NoRestore st ∧ ∀ pats, st ≠ .remove pats) := by
  intro h
  have hchange : ∀ id c, NoRestore (.change id c) ∧ ∀ pats, Step.change id c ≠ .remove pats :=
    fun _ _ => ⟨nofun, nofun⟩
  have hreach : Reaches orphanWorkflow (fun st => NoRestore st ∧ ∀ pats, st ≠ .remove pats)
      beforeOrphaning :=
    reaches_runSteps none _ (by
      simp only [List.mem_cons, List.not_mem_nil, or_false]
      rintro _ (rfl | rfl) <;> exact hchange _ _)
  have hfollows : Follows (fun st => NoRestore st ∧ ∀ pats, st ≠ .remove pats) beforeOrphaning
      afterRespawn :=
    (Relation.ReflTransGen.single (moves_run none (hchange _ _))).tail
      (moves_run none (hchange _ _))
  have hwaits : ∃ c ∈ afterRespawn.pool.tasks, c.state = .waiting ∧ c.forced = false ∧
      ∃ pr ∈ c.prereqs, (countDead (DeadOutput beforeOrphaning afterRespawn) pr).isImpossible =
        true := by
    decide +kernel
  obtain ⟨c, hc, hwait, hforced, pr, hpr, himpossible⟩ := hwaits
  have hpossible := h _ _ hreach hfollows c hc hwait hforced pr hpr
  rw [himpossible] at hpossible
  cases hpossible

/-! ## A removed instance stays out -/

variable {wf : Workflow} {s s' : Session}

/-- A step that keeps removals keeps the pool. -/
theorem Moves.keeps (h : Moves (fun st => st.keepsRemovals) s s') (hs : s.pool.Plain) :
    s.pool.Keeps s'.pool := by
  obtain ⟨now, st, hst, rfl⟩ := h
  exact Session.keeps_run hs hst now

/-- Steps that keep removals keep the pool. -/
theorem Follows.keeps (h : Follows (fun st => st.keepsRemovals) s s') (hs : s.pool.Plain) :
    s.pool.Keeps s'.pool := by
  induction h with
  | refl => exact .refl hs
  | tail _ hmove ih => exact ih.trans (hmove.keeps ih.plain)

/-- Starting a fresh pool leaves it plain. -/
theorem plain_started (wf : Workflow) (now : Option Int) : (started wf now).pool.Plain :=
  have hstart : Step.start.keepsRemovals = true := rfl
  (Session.keeps_run (s := Session.make wf) (Pool.plain_make wf) hstart now).plain

/-- Every pool a run reaches is plain, when the run keeps removals. -/
theorem Reaches.plain (h : Reaches wf (fun st => st.keepsRemovals) s) : s.pool.Plain := by
  obtain ⟨now, hf⟩ := h
  exact (hf.keeps (plain_started wf now)).plain

/-- Once the pool of a run records the removal of the instance at `k`, no later pool of the run
holds a live instance at `k`, in any flow, as long as the run takes no manual trigger, sets no
outputs by hand, restores or restarts nothing and drains no history. -/
theorem removed_stays_out {k : TaskKey} (hs : Reaches wf (fun st => st.keepsRemovals) s)
    (hk : s.pool.Removed k) (h : Follows (fun st => st.keepsRemovals) s s') :
    ∀ t ∈ s'.pool.tasks, t.key ≠ k := by
  have hkeeps := h.keeps hs.plain
  exact hkeeps.plain.not_live (hkeeps.removed k hk)

/-- In the run where `g` comes back, `x`, removed when it succeeded, stays out. -/
theorem completed_stays_out :
    Reaches orphanWorkflow (fun st => st.keepsRemovals) beforeOrphaning ∧
      beforeOrphaning.pool.Removed ⟨⟨.integer, 1⟩, "x"⟩ ∧
      Follows (fun st => st.keepsRemovals) beforeOrphaning afterRespawn ∧
      ∀ t ∈ afterRespawn.pool.tasks, t.key ≠ ⟨⟨.integer, 1⟩, "x"⟩ := by
  have hreach : Reaches orphanWorkflow (fun st => st.keepsRemovals) beforeOrphaning :=
    reaches_runSteps none _ (by decide)
  have hk : beforeOrphaning.pool.Removed ⟨⟨.integer, 1⟩, "x"⟩ :=
    Pool.removed_getD.1 (by decide +kernel)
  have hf : Follows (fun st => st.keepsRemovals) beforeOrphaning afterRespawn :=
    .tail (.single (moves_run none (by decide))) (moves_run none (by decide))
  exact ⟨hreach, hk, hf, removed_stays_out hreach hk hf⟩

end CycleSched.Proofs
