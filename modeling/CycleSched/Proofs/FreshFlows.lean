import CycleSched.Proofs.FlowCommands
import CycleSched.Proofs.RestoredFlows

/-!
# Fresh flows

A flow option `new` starts the flow numbered by the pool's next flow number, and a list of flow
numbers raises that number past each number it reads. The number is a 64-bit word: one past
`maxFlow = 2^63 - 1` it wraps below every flow in use, and a `new` option can then start a flow
instances have been in (`next_flow_wraps`). Without a wrap, and with every restore given a
checkpoint whose flows are below the next flow number it is given, every flow the pool carries
is below its next flow number, which only a restore lowers; so a `new` option starts a flow no
instance was in since the last restore (`new_flows_fresh`).
-/

namespace CycleSched

/-- A step whose flow option, if it has one, lists no number as large as `maxFlow` and reads
`new` only while the next flow number `n` is below it, so that it cannot wrap the counter; a
restore is given a checkpoint whose flows are below the next flow number it is given. -/
def Step.FlowsFit (n : Int) : Step → Prop
  | .trigger _ flow _ | .setOutputs _ _ flow =>
    (flow = "new" → n < maxFlow) ∧ ∀ m ∈ listedFlows flow, m < maxFlow
  | .restore tasks spawn history nextFlow => CheckpointBelow nextFlow tasks spawn history
  | _ => True

/-- The reports of jobs keep the flows below `n`: they change live instances into instances of
the same spawn, in the same flows. -/
theorem Pool.reportInvariant_flowsBelow (n : Int) :
    ReportInvariant (Pool.FlowsBelow n) (fun t => t.flows.Below n) where
  live hp ht := hp.live _ ht
  sameSpawn h ht := h.below ht
  update hp ht := hp.update ht
  processOutputs outs hp ht := hp.processOutputs ht outs
  releaseRunahead hp := hp.releaseRunahead

namespace Session

open Pool

variable {s : Session} {n : Int}

theorem partly_pool (r : Pool × Except Failure (List TaskInstance)) : (s.partly r).1.pool = r.1 := by
  obtain ⟨q, _ | _⟩ := r <;> rfl

/-- Every step but the commands that read a flow option, a restore and a restart keeps the flows
below the next flow number, which it leaves alone. -/
theorem flowsBelow_perform_of_readsFlows {p : Pool} (hp : p.FlowsBelow n) (hs : s.pool = p)
    {st : Step} (hst : st.readsFlows = false) (hno : Proofs.NoRestore st) (hrs : st ≠ .restart) :
    (s.perform st).1.pool.FlowsBelow n := by
  subst hs
  have hI := reportInvariant_flowsBelow n
  cases st with
  | start => exact hp.start
  | releaseRunahead => exact hp.releaseRunahead
  | expireTasks => exact hp.expireTasks _
  | hold pats => exact command_pool _ hp fun _ _ h => hp.hold h
  | release pats => exact command_pool _ hp fun _ _ h => hp.release h
  | holdAfter text =>
    refine command_pool _ hp fun _ _ h => ?_
    obtain ⟨pt, -, he⟩ := Except.map_eq_ok_iff.1 h
    cases he
    exact hp.setHoldPoint pt
  | releaseHoldPoint => exact hp.releaseHoldPoint
  | stopAfter text =>
    refine command_pool _ hp fun _ _ h => ?_
    obtain ⟨pt, -, he⟩ := Except.map_eq_ok_iff.1 h
    cases he
    exact hp.setStopPoint pt
  | remove pats => exact command_pool _ hp fun _ _ h => hp.removeMatching h
  | drainHistory => exact hp.of_parts rfl rfl rfl rfl
  | trigger | setOutputs => cases hst
  | restart => exact absurd rfl hrs
  | restore tasks spawn history nextFlow => exact absurd rfl (hno tasks spawn history nextFlow)
  | broadcastSet | broadcastClear | broadcastExpire =>
    dsimp only [perform]
    split <;> exact hp
  | submit id mode => exact onInstance_pool hp fun t ht => hI.submit hp (hp.live t ht) mode
  | simAdvance seconds => exact hI.advance hp seconds
  | change id c => exact onInstance_pool hp fun t ht => hI.applyChange hp ht c
  | ready | select | status | records | spawnRecords | broadcastEntries | broadcastChanges | resolve
  | unknown => exact hp

/-- Every step but a restore or a restart, with a flow option that cannot wrap the counter,
keeps the flows below the next flow number, which only grows. -/
theorem flowsBelow_perform {p : Pool} (hp : p.FlowsBelow n) (hs : s.pool = p) {st : Step}
    (hfit : st.FlowsFit n) (hno : Proofs.NoRestore st) (hrs : st ≠ .restart) :
    ∃ n', n ≤ n' ∧ (s.perform st).1.pool.FlowsBelow n' := by
  cases st
  case trigger pats flow wait =>
    subst hs
    obtain ⟨n', hn, hq⟩ : ∃ n', n ≤ n' ∧ (s.pool.trigger pats flow wait).1.FlowsBelow n' :=
      hp.trigger hfit.1 hfit.2
    refine ⟨n', hn, ?_⟩
    rw [perform, partly_pool]
    exact hq
  case setOutputs pats outs flow =>
    subst hs
    obtain ⟨n', hn, hq⟩ : ∃ n', n ≤ n' ∧ (s.pool.setOutputs pats outs flow s.now).1.FlowsBelow n' :=
      hp.setOutputs hfit.1 hfit.2
    refine ⟨n', hn, ?_⟩
    rw [perform, partly_pool]
    exact hq
  all_goals exact ⟨n, Int.le_refl n, flowsBelow_perform_of_readsFlows hp hs rfl hno hrs⟩

/-- The flows of the session's pool and of the traces it saved are below `n`. -/
structure FlowsBelow (n : Int) (s : Session) : Prop where
  pool : s.pool.FlowsBelow n
  saved : SavedBelow n s.saved

/-- Every fitting step keeps the session's flows below a next flow number, which only a restore
lowers. -/
theorem FlowsBelow.perform (hs : s.FlowsBelow n) {st : Step} (hfit : st.FlowsFit n) :
    ∃ n', (Proofs.NoRestore st → n ≤ n') ∧ (s.perform st).1.FlowsBelow n' := by
  cases st
  case drainHistory =>
    obtain ⟨hq, hdrained⟩ := hs.pool.drainHistory
    exact ⟨n, fun _ => Int.le_refl n, hq, hs.saved.remember hdrained⟩
  case restart =>
    obtain ⟨hq, hsaved⟩ := restart_flowsBelow hs.pool hs.saved
    exact ⟨n, fun _ => Int.le_refl n, hq, hsaved⟩
  case restore tasks spawn history nextFlow =>
    -- the restored pool is below the checkpoint's next flow number, and nothing is saved
    have hrestored := Pool.FlowsBelow.restore hfit (Pool.make s.wf)
    refine ⟨nextFlow, fun h => absurd rfl (h tasks spawn history nextFlow), ?_⟩
    dsimp only [Session.perform]
    split
    all_goals
      rename_i hres
      rw [hres] at hrestored
      exact ⟨hrestored, fun _ h => nomatch h⟩
  all_goals
    obtain ⟨n', hn, hq⟩ := flowsBelow_perform hs.pool rfl hfit (fun _ _ _ _ h => nomatch h) nofun
    refine ⟨n', fun _ => hn, hq, ?_⟩
    rw [perform_saved]
    · exact hs.saved.mono hn
    · rfl

/-- A whole step of the session, clock setting and event reporting included. -/
theorem FlowsBelow.run (hs : s.FlowsBelow n) {st : Step} (hfit : st.FlowsFit n) (now : Option Int) :
    ∃ n', (Proofs.NoRestore st → n ≤ n') ∧ (s.run now st).1.FlowsBelow n' := by
  -- the step is performed with the pool's event log cleared, which is cleared again
  have hcleared : ∀ s₀ : Session, s₀.pool = { s.pool with events := [] } → s₀.saved = s.saved →
      ∃ n', (Proofs.NoRestore st → n ≤ n') ∧
        ({ (s₀.perform st).1 with pool := { (s₀.perform st).1.pool with events := [] } } :
          Session).FlowsBelow n' := by
    intro s₀ hp₀ hsaved₀
    have h₀ : s₀.FlowsBelow n := ⟨hp₀ ▸ hs.pool.of_parts rfl rfl rfl rfl, hsaved₀ ▸ hs.saved⟩
    obtain ⟨n', hn, hq⟩ := h₀.perform hfit
    exact ⟨n', hn, hq.pool.of_parts rfl rfl rfl rfl, hq.saved⟩
  -- rewriting with the equation of each clock case avoids unfolding the clock arithmetic
  cases now <;>
  · rw [Session.run]
    dsimp only
    exact hcleared _ rfl rfl

end Session

namespace Proofs

open CycleSched.Graph

/-- In every session that a run without restores reaches, the next flow number is above every
flow number the pool carries. -/
def NextFlowAbove (wf : Workflow) : Prop :=
  ∀ s, Reaches wf NoRestore s → ∀ f ∈ s.pool.flowNumbers, f < s.pool.nextFlow

/-- Along a run without restores, the flow that a `new` option would start is one that no
instance was in at any earlier session of the run. -/
def NewFlowsUnused (wf : Workflow) : Prop :=
  ∀ s₀ s, Reaches wf NoRestore s₀ → Follows NoRestore s₀ s →
    s.pool.nextFlow ∉ s₀.pool.flowNumbers

/-- The started pair with `1/a` triggered in a new flow, the flow `2`. -/
def inNewFlow : Session :=
  runSteps (started pairWorkflow none) [(none, .trigger ["1/a"] "new" false)]

/-- Then with `1/a` triggered in the largest flow number a list may name. -/
def inLargestFlow : Session :=
  runSteps inNewFlow [(none, .trigger ["1/a"] "9223372036854775807" false)]

/-- Then with `1/a` triggered in the flow `1`. -/
def inFirstFlow : Session :=
  runSteps inNewFlow
    [(none, .trigger ["1/a"] "9223372036854775807" false), (none, .trigger ["1/a"] "1" false)]

/-- The flow `9223372036854775807` wraps the next flow number below the flow `1/a` is in, and
the flow `1` then brings it back to `2`, the flow `1/a` was in two steps before. -/
theorem next_flow_wraps : ¬ NextFlowAbove pairWorkflow ∧ ¬ NewFlowsUnused pairWorkflow := by
  have htriggers : ∀ (pats : List String) (flow : String), NoRestore (.trigger pats flow false) :=
    fun _ _ _ _ _ _ h => by cases h
  have hnew : Reaches pairWorkflow NoRestore inNewFlow :=
    reaches_runSteps none _ (by simp only [List.mem_singleton]; rintro _ rfl; exact htriggers _ _)
  constructor
  · intro h
    have hlargest : Reaches pairWorkflow NoRestore inLargestFlow :=
      hnew.follows (follows_runSteps _ _ (by
        simp only [List.mem_singleton]; rintro _ rfl; exact htriggers _ _))
    have hin : (9223372036854775807 : Int) ∈ inLargestFlow.pool.flowNumbers := by decide +kernel
    have hwrapped : inLargestFlow.pool.nextFlow = -9223372036854775808 := by decide +kernel
    have habove := h _ hlargest _ hin
    rw [hwrapped] at habove
    exact absurd habove (by decide)
  · intro h
    have hfirst : Follows NoRestore inNewFlow inFirstFlow :=
      follows_runSteps _ _ (by
        simp only [List.mem_cons, List.not_mem_nil, or_false]
        rintro _ (rfl | rfl) <;> exact htriggers _ _)
    have hback : inFirstFlow.pool.nextFlow = 2 := by decide +kernel
    have hwas : (2 : Int) ∈ inNewFlow.pool.flowNumbers := by decide +kernel
    exact h _ _ hnew hfirst (hback ▸ hwas)

/-! ## Runs that cannot wrap the counter -/

/-- One allowed step whose flow option cannot wrap the next flow number of the session it is
taken from, and which, if a restore, is given a checkpoint whose flows are below the next flow
number it is given. -/
def MovesFitting (allowed : Step → Prop) (s s' : Session) : Prop :=
  ∃ now st, allowed st ∧ st.FlowsFit s.pool.nextFlow ∧ (s.run now st).1 = s'

variable {allowed : Step → Prop} {s s' : Session}

/-- The started session carries no flow but those below its next flow number. -/
theorem started_flowsBelow (wf : Workflow) (now : Option Int) :
    (started wf now).FlowsBelow (started wf now).pool.nextFlow := by
  have hmake : (Session.make wf).FlowsBelow 2 := ⟨Pool.flowsBelow_make wf, fun _ h => nomatch h⟩
  obtain ⟨n', -, hq⟩ := hmake.run (show Step.start.FlowsFit 2 from trivial) now
  have hstarted : (started wf now).FlowsBelow n' := hq
  rw [hstarted.pool.next]
  exact hstarted

theorem MovesFitting.flowsBelow (h : MovesFitting allowed s s')
    (hs : s.FlowsBelow s.pool.nextFlow) : s'.FlowsBelow s'.pool.nextFlow := by
  obtain ⟨now, st, -, hfit, rfl⟩ := h
  obtain ⟨n', -, hq⟩ := hs.run hfit now
  rw [hq.pool.next]
  exact hq

/-- A fitting step that is not a restore never lowers the next flow number. -/
theorem MovesFitting.nextFlow_le (h : MovesFitting NoRestore s s')
    (hs : s.FlowsBelow s.pool.nextFlow) : s.pool.nextFlow ≤ s'.pool.nextFlow := by
  obtain ⟨now, st, hno, hfit, rfl⟩ := h
  obtain ⟨n', hn, hq⟩ := hs.run hfit now
  rw [hq.pool.next]
  exact hn hno

theorem flowsBelow_of_fitting (h : Relation.ReflTransGen (MovesFitting allowed) s s')
    (hs : s.FlowsBelow s.pool.nextFlow) : s'.FlowsBelow s'.pool.nextFlow := by
  induction h with
  | refl => exact hs
  | tail _ hmove ih => exact hmove.flowsBelow ih

theorem nextFlow_le_of_fitting (h : Relation.ReflTransGen (MovesFitting NoRestore) s s')
    (hs : s.FlowsBelow s.pool.nextFlow) : s.pool.nextFlow ≤ s'.pool.nextFlow := by
  induction h with
  | refl => exact Int.le_refl _
  | tail hrun hmove ih =>
    exact Int.le_trans ih (hmove.nextFlow_le (flowsBelow_of_fitting hrun hs))

/-- Along a run of fitting steps from the started session, restores included, every flow the
pool carries is below the next flow number; and after a session of the run, as long as no
restore follows, the flow that a `new` option would start is one that no instance was in at
that session. -/
theorem new_flows_fresh {wf : Workflow} {now : Option Int} {s₀ s : Session}
    (h₀ : Relation.ReflTransGen (MovesFitting fun _ => True) (started wf now) s₀)
    (h : Relation.ReflTransGen (MovesFitting NoRestore) s₀ s) :
    (∀ f ∈ s.pool.flowNumbers, f < s.pool.nextFlow) ∧ s.pool.nextFlow ∉ s₀.pool.flowNumbers := by
  have hs₀ := flowsBelow_of_fitting h₀ (started_flowsBelow wf now)
  have hs := flowsBelow_of_fitting h hs₀
  refine ⟨hs.pool.flowNumbers, fun hin => ?_⟩
  have hlt := hs₀.pool.flowNumbers _ hin
  exact absurd (nextFlow_le_of_fitting h hs₀) (Int.not_le.2 hlt)

/-- The pair with `1/a` in a new flow, restored from its own checkpoint. -/
def restoredNewFlow : Session :=
  runSteps inNewFlow [(none, .restore inNewFlow.pool.records inNewFlow.pool.spawnRecords []
    inNewFlow.pool.nextFlow)]

/-- Then restarted. -/
def restartedNewFlow : Session := runSteps restoredNewFlow [(none, .restart)]

/-- Triggering `1/a` in a new flow and restoring the pool from its checkpoint are fitting steps,
and so is a restart; the flow after them is fresh. -/
theorem new_flow_after_restore :
    Relation.ReflTransGen (MovesFitting fun _ => True) (started pairWorkflow none) restoredNewFlow ∧
      Relation.ReflTransGen (MovesFitting NoRestore) restoredNewFlow restartedNewFlow ∧
      (∀ f ∈ restartedNewFlow.pool.flowNumbers, f < restartedNewFlow.pool.nextFlow) ∧
      restartedNewFlow.pool.nextFlow ∉ restoredNewFlow.pool.flowNumbers := by
  have hfit : (Step.trigger ["1/a"] "new" false).FlowsFit (started pairWorkflow none).pool.nextFlow :=
    ⟨fun _ => by decide +kernel, by decide +kernel⟩
  have htrigger : Relation.ReflTransGen (MovesFitting fun _ => True) (started pairWorkflow none)
      inNewFlow := .single ⟨none, _, trivial, hfit, rfl⟩
  -- the checkpoint of a session whose flows are below its next flow number fits a restore
  have hnew := flowsBelow_of_fitting htrigger (started_flowsBelow pairWorkflow none)
  have hcheck : CheckpointBelow inNewFlow.pool.nextFlow inNewFlow.pool.records
      inNewFlow.pool.spawnRecords [] :=
    ⟨hnew.pool.first, hnew.pool.records, hnew.pool.spawnRecords, fun _ h => nomatch h⟩
  have hrestored : Relation.ReflTransGen (MovesFitting fun _ => True) (started pairWorkflow none)
      restoredNewFlow := htrigger.tail ⟨none, .restore _ _ [] _, trivial, hcheck, rfl⟩
  have hno : NoRestore .restart := fun _ _ _ _ h => nomatch h
  have hrestarted : Relation.ReflTransGen (MovesFitting NoRestore) restoredNewFlow
      restartedNewFlow := .single ⟨none, .restart, hno, trivial, rfl⟩
  exact ⟨hrestored, hrestarted, new_flows_fresh hrestored hrestarted⟩

end Proofs

end CycleSched
