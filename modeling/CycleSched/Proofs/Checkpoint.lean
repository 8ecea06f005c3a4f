import Mathlib.Data.List.Forall2
import CycleSched.Pool.Checkpoint
import CycleSched.Proofs.Lifecycle
import CycleSched.Proofs.Verdicts
import CycleSched.Proofs.FlowText
import CycleSched.Proofs.Runs
import CycleSched.Proofs.Reports

/-!
# Saving an instance and restoring it

A checkpoint keeps of an instance what its job's lifecycle wrote (state, flags, numbers, run
mode, job, times, outputs in emission order), its flows as text, and for each prerequisite its
term digits and whether it was satisfied. Restoring rebuilds the instance from the task's
definition at its point and loads those back: the prerequisites come from the workflow, the
saved outputs must be declared and are emitted again in their order, the try number is at least
one, and each prerequisite records again that its condition holds.

Over every instance reached from a new one by calls on its lifecycle and changes to its
prerequisites' terms, where outputs are only set by hand when the task declares them, restoring
the saved form gives the instance back, but for its finish time and its job's time limit, which
are not saved (`TaskInstance.restore_save`). What carries the argument is `Restorable`: the
instance is still of its task and point, with flows as the pool holds them, sound, with declared
outputs, and prerequisites that reload into the ones the workflow builds.
-/

namespace CycleSched

namespace Prereq

/-- Recording that the condition holds is done once. -/
@[simp] theorem update_update (pr : Prereq) : pr.update.update = pr.update := by
  unfold update
  split <;> simp_all

/-- `pr` is what loading its own saved term states into `m`, the prerequisite the workflow
builds, gives back: the same condition and keys, as many terms, and its latch already records
that its condition holds. -/
structure Reloads (m pr : Prereq) : Prop where
  condition : pr.condition = m.condition
  keys : pr.keys = m.keys
  length : pr.bits.length = m.bits.length
  terms : pr.keys.length = pr.bits.length
  latched : pr.update = pr

/-- The workflow's prerequisites have a state for each term. -/
theorem length_keys_make (dep : Graph.Dependency) (p initial : Point) :
    (make dep p initial).keys.length = (make dep p initial).bits.length := by
  simp [make]

theorem Reloads.make (dep : Graph.Dependency) (p initial : Point) :
    Reloads (make dep p initial) (make dep p initial) :=
  ⟨rfl, rfl, rfl, length_keys_make dep p initial, by simp [Prereq.make]⟩

section Change

variable {pr : Prereq} (ch : Change)

@[simp] theorem condition_change : (pr.change ch).condition = pr.condition := by
  cases ch <;> simp only [change, satisfy, markImpossible] <;> split <;> simp

@[simp] theorem keys_change : (pr.change ch).keys = pr.keys := by
  cases ch <;> simp only [change, satisfy, markImpossible] <;> split <;> simp

theorem length_change (hlen : pr.keys.length = pr.bits.length) :
    (pr.change ch).bits.length = pr.bits.length := by
  cases ch <;> simp only [change, satisfy, markImpossible] <;> split <;> simp [hlen]

/-- A change of terms leaves the latch recording whether the condition holds. -/
theorem update_change (h : pr.update = pr) : (pr.change ch).update = pr.change ch := by
  cases ch <;> simp only [change, satisfy, markImpossible] <;> split <;> simp [h]

theorem Reloads.change {m : Prereq} (h : Reloads m pr) : Reloads m (pr.change ch) :=
  ⟨(condition_change ch).trans h.condition, (keys_change ch).trans h.keys,
    (length_change ch h.terms).trans h.length,
    by rw [keys_change, length_change ch h.terms, h.terms], update_change ch h.latched⟩

end Change

/-- Loading its own term states and latch into the workflow's prerequisite gives it back. -/
theorem Reloads.load {m pr : Prereq} (h : Reloads m pr) : m.load pr.bits pr.satisfied = .ok pr := by
  have hsame : { m with bits := pr.bits, satisfied := pr.satisfied } = pr := by
    obtain ⟨condition, keys, bits, satisfied⟩ := pr
    obtain ⟨hc, hk, -, -, -⟩ := h
    simp only at hc hk
    rw [hc, hk]
  unfold Prereq.load
  rw [if_neg (by simp [h.length]), hsame, h.latched]

/-- Saved term digits read back as the term states. -/
theorem readBits_bitsText (pr : Prereq) : TaskInstance.readBits pr.bitsText = some pr.bits := by
  unfold TaskInstance.readBits bitsText
  rw [String.toList_ofList]
  induction pr.bits with
  | nil => rfl
  | cons b bs ih =>
    have hb : Bit.ofDigit? b.digit = some b := by cases b <;> rfl
    simp [List.mapM_cons, hb, ih]

end Prereq

/-- A computation in `Except` that succeeds goes on with its value. -/
theorem Except.ok_bind {ε α β : Type} (a : α) (f : α → Except ε β) : (Except.ok a >>= f) = f a :=
  rfl

namespace State

/-- A state's name reads back as the state. -/
@[simp] theorem ofName?_name (s : State) : ofName? s.name = some s := by
  cases s <;> rfl

end State

namespace TaskInstance

/-- The names a call sets by hand; other calls set none. -/
def Call.handSet : Call → List String
  | .setOutputs names _ => names
  | _ => []

section Frame

variable {t : TaskInstance} {extra : List String}

/-- A step whose every answer keeps the frame keeps it, refused or not. -/
theorem frame_orKeep {α : Type} {r : Except Failure (TaskInstance × α)}
    (h : ∀ u a, r = .ok (u, a) → Frame extra t u) : Frame extra t (t.orKeep r) := by
  cases r with
  | error e => exact .refl t
  | ok r => exact h r.1 r.2 rfl

/-- A step that answers no outputs keeps the frame when its instance does. -/
theorem frame_orKeep_map {r : Except Failure TaskInstance} (h : ∀ u, r = .ok u → Frame extra t u) :
    Frame extra t (t.orKeep (r.map (·, ()))) :=
  frame_orKeep fun u _ hr => by
    obtain ⟨v, hv, huv⟩ := Except.map_eq_ok_iff.1 hr
    exact (Prod.mk.inj huv).1 ▸ h v hv

/-- A call writes only its job's fields, and emits only declared outputs and the names it sets
by hand. -/
theorem frame_call (t : TaskInstance) : ∀ c : Call, Frame c.handSet t (t.call c)
  | .prepare _ => frame_orKeep_map fun _ h => frame_prepare h
  | .submitted _ _ => frame_orKeep fun _ _ h => frame_submitted h
  | .submitFailed _ _ => frame_orKeep fun _ _ h => frame_submitFailed h
  | .started _ => frame_orKeep fun _ _ h => frame_started h
  | .succeeded _ => frame_orKeep fun _ _ h => frame_succeeded h
  | .failed _ _ => frame_orKeep fun _ _ h => frame_failed h
  | .message text => frame_message t text
  | .expire _ => frame_orKeep fun _ _ h => frame_expire h
  | .kill _ => frame_orKeep fun _ _ h => frame_kill h
  | .setOutputs names now => frame_setOutputs t names now
  | .trigger => frame_orKeep_map fun _ h => frame_trigger h
  | .requeue => frame_orKeep_map fun _ h => frame_requeue h

end Frame

/-- A change to an instance: a call on its job's lifecycle, or a change to its prerequisites'
terms as an output is emitted or becomes impossible. -/
inductive Change where
  | call (c : Call)
  | terms (ch : Prereq.Change)

/-- The instance after a change. -/
def change (t : TaskInstance) : Change → TaskInstance
  | .call c => t.call c
  | .terms (.satisfy k) => (t.satisfy k).1
  | .terms (.markImpossible k) => (t.markImpossible k).1

/-- A change of terms changes each prerequisite's terms and nothing else. -/
theorem change_terms (t : TaskInstance) (ch : Prereq.Change) :
    t.change (.terms ch) = { t with prereqs := t.prereqs.map (·.change ch) } := by
  cases ch <;> simp [change, TaskInstance.satisfy, TaskInstance.markImpossible, Prereq.change]

/-- What restoring needs of an instance of `d` at `p`: it is still of that task and point, its
flows are as the pool holds them, it is sound, every output it emitted is declared, and its
prerequisites reload into those the workflow builds. -/
structure Restorable (d : Graph.TaskDef) (p initial : Point) (t : TaskInstance) : Prop where
  task : t.task = d
  point : t.point = p
  flows : t.flows.Normal
  sound : Sound t
  declared : ∀ o ∈ t.emitted, d.hasOutput o = true
  prereqs : List.Forall₂ Prereq.Reloads
    ((d.depsAt p).map fun dep => Prereq.make dep p initial) t.prereqs

section Restorable

variable {d : Graph.TaskDef} {p initial : Point} {t : TaskInstance}

theorem restorable_make {flows : FlowSet} (hf : flows.Normal) :
    Restorable d p initial (make d p initial flows) := by
  refine ⟨rfl, rfl, hf, sound_make d p initial flows, by simp [make], ?_⟩
  refine List.forall₂_same.2 fun m hm => ?_
  obtain ⟨dep, -, rfl⟩ := List.mem_map.1 hm
  exact Prereq.Reloads.make dep p initial

/-- A call keeps an instance restorable when the names it sets by hand are declared. -/
theorem Restorable.call (h : Restorable d p initial t) (c : Call)
    (hc : ∀ n ∈ c.handSet, d.hasOutput n = true) : Restorable d p initial (t.call c) := by
  have hfr := frame_call t c
  refine ⟨hfr.task.trans h.task, hfr.point.trans h.point, hfr.flows ▸ h.flows,
    (advances_call h.sound c).sound, fun o ho => ?_, hfr.prereqs ▸ h.prereqs⟩
  -- a new output is declared by the task, or was set by hand
  rcases hfr.emitted o ho with ho | ho | ho
  · exact h.declared o ho
  · exact h.task ▸ ho
  · exact hc o ho

/-- A change of terms keeps an instance restorable. -/
theorem Restorable.terms (h : Restorable d p initial t) (ch : Prereq.Change) :
    Restorable d p initial (t.change (.terms ch)) := by
  rw [change_terms]
  refine ⟨h.task, h.point, h.flows, h.sound.congr rfl rfl rfl rfl, h.declared, ?_⟩
  exact List.forall₂_map_right_iff.2 (h.prereqs.imp fun _ _ hr => hr.change ch)

/-- Every run of changes keeps an instance restorable when the names set by hand are declared. -/
theorem Restorable.run (h : Restorable d p initial t) (changes : List Change)
    (hset : ∀ names now, Change.call (.setOutputs names now) ∈ changes →
      ∀ n ∈ names, d.hasOutput n = true) :
    Restorable d p initial (changes.foldl change t) := by
  induction changes generalizing t with
  | nil => exact h
  | cons ch changes ih =>
    refine ih ?_ fun names now hmem => hset names now (List.mem_cons_of_mem ch hmem)
    cases ch with
    | call c =>
      refine h.call c fun n hn => ?_
      cases c with
      | setOutputs names now => exact hset names now List.mem_cons_self n hn
      | _ => cases hn
    | terms ch => exact h.terms ch

end Restorable

/-- Loading each saved prerequisite into the workflow's, by a loader that gives back every
prerequisite that reloads, gives the saved ones back. -/
theorem mapM_zip_reload {F : Prereq × SavedPrereq → Except Failure Prereq}
    (hF : ∀ m pr, Prereq.Reloads m pr → F (m, ⟨pr.bitsText, pr.satisfied⟩) = .ok pr)
    {ms prs : List Prereq} (h : List.Forall₂ Prereq.Reloads ms prs) :
    (ms.zip (prs.map fun pr => ⟨pr.bitsText, pr.satisfied⟩)).mapM F = .ok prs := by
  induction h with
  | nil => rfl
  | cons hr _ ih =>
    simp only [List.map_cons, List.zip_cons_cons, List.mapM_cons, hF _ _ hr, ih]
    rfl

/-- Emitting an output not emitted before appends it. -/
theorem emit_singleton {u : TaskInstance} {o : String} (h : o ∉ u.emitted) :
    (u.emit [o]).1 = { u with emitted := u.emitted ++ [o] } := by
  simp [emit, h]

/-- Emitting outputs one by one, each new, by a step that appends a new output to an instance
of the same task, appends them all. -/
theorem foldlM_append {F : TaskInstance → String → Except Failure TaskInstance}
    (os : List String) (u : TaskInstance) (hnd : (u.emitted ++ os).Nodup)
    (hF : ∀ v, v.task = u.task → ∀ o ∈ os, o ∉ v.emitted →
      F v o = .ok { v with emitted := v.emitted ++ [o] }) :
    os.foldlM F u = .ok { u with emitted := u.emitted ++ os } := by
  induction os generalizing u with
  | nil => simp [pure, Except.pure]
  | cons o os ih =>
    have hnew : o ∉ u.emitted := fun ho => (List.nodup_append.1 hnd).2.2 o ho o
      List.mem_cons_self rfl
    have hrest := ih { u with emitted := u.emitted ++ [o] } (by simpa using hnd)
      fun v hv o' ho' => hF v hv o' (List.mem_cons_of_mem o ho')
    rw [List.foldlM_cons, hF u rfl o List.mem_cons_self hnew, Except.ok_bind, hrest]
    simp

section Restore

variable {d : Graph.TaskDef} {p initial : Point} {t : TaskInstance}

/-- A restorable instance's prerequisites are those the workflow builds, reloaded. -/
theorem Restorable.reloads (h : Restorable d p initial t) (flows : FlowSet) :
    List.Forall₂ Prereq.Reloads (make d p initial flows).prereqs t.prereqs :=
  h.prereqs

theorem restore_of_restorable (h : Restorable d p initial t) :
    restore d p initial t.save = .ok { t with finishedAt := .zero, timeLimit := 0 } := by
  have hflows : (FlowSet.parse t.flows.toText).mapError (Failure.within
      ("task " ++ t.point.toText ++ "/" ++ t.task.name ++ ": ")) = .ok t.flows := by
    rw [FlowSet.parse_toText h.flows]
    rfl
  have hlen : (t.prereqs.map fun pr => (⟨pr.bitsText, pr.satisfied⟩ : SavedPrereq)).length =
      (make d p initial t.flows).prereqs.length := by
    rw [List.length_map, (h.reloads t.flows).length_eq]
  unfold restore
  simp only [save, State.ofName?_name, hflows, Except.ok_bind, hlen, bne_self_eq_false,
    Bool.false_eq_true, if_false]
  rw [mapM_zip_reload (fun m pr hr => ?_) (h.reloads t.flows), Except.ok_bind,
    foldlM_append t.emitted _ (by simpa [make] using h.sound.nodup) (fun v _ o ho hnew => ?_),
    Except.ok_bind]
  · simp only [make, List.nil_append, h.task, h.point, Int.max_eq_left h.sound.tryNum_pos]
    rfl
  · -- every saved output is declared, and was emitted once
    rw [if_pos (h.declared o ho)]
    exact congrArg Except.ok (emit_singleton hnew)
  · -- the saved digits read back, and loading them gives the prerequisite back
    dsimp only
    rw [Prereq.readBits_bitsText]
    dsimp only
    rw [hr.load]
    rfl

/-- Restoring the saved form of an instance gives the instance back, but for its finish time and
its job's time limit, which are not saved. This holds of every instance reached from a new one,
with flows as the pool holds them, by calls on its lifecycle and changes to its prerequisites'
terms, where every name set by hand is declared by the task. -/
theorem restore_save (d : Graph.TaskDef) (p initial : Point) {flows : FlowSet} (hf : flows.Normal)
    (changes : List Change)
    (hset : ∀ names now, Change.call (.setOutputs names now) ∈ changes →
      ∀ n ∈ names, d.hasOutput n = true) :
    restore d p initial (changes.foldl change (make d p initial flows)).save =
      .ok { changes.foldl change (make d p initial flows) with finishedAt := .zero, timeLimit := 0 } :=
  restore_of_restorable ((restorable_make hf).run changes hset)

end Restore

end TaskInstance

namespace Proofs

open TaskInstance

/-- The task `b` of the integer graph `R1: a => b`, with a custom output `x`. -/
def reportingChild : Graph.TaskDef :=
  { name := "b", index := 1, sequences := [onlyFirst],
    deps := [{ seq := onlyFirst, condition := some (.trigger 0),
               triggers := [onSuccess "a" .zero "a"] }],
    outputs := [("x", "x ready")] }

/-- A live job of `1/b` prepared and submitted, `x` set by hand, and its parent's success. -/
def reportingRun : List TaskInstance.Change :=
  [.call (.prepare "live"), .call (.submitted "j1" .zero), .call (.setOutputs ["x"] .zero),
   .terms (.satisfy ⟨⟨.integer, 1⟩, "a", "succeeded"⟩)]

/-- The instance `1/b` after that run restores from its saved form. -/
theorem reporting_child_restores :
    (FlowSet.ofList [1]).Normal ∧
      (∀ names now, TaskInstance.Change.call (.setOutputs names now) ∈ reportingRun →
        ∀ n ∈ names, reportingChild.hasOutput n = true) ∧
      restore reportingChild ⟨.integer, 1⟩ ⟨.integer, 1⟩
          (reportingRun.foldl change
            (make reportingChild ⟨.integer, 1⟩ ⟨.integer, 1⟩ (FlowSet.ofList [1]))).save =
        .ok { reportingRun.foldl change
                (make reportingChild ⟨.integer, 1⟩ ⟨.integer, 1⟩ (FlowSet.ofList [1])) with
              finishedAt := .zero, timeLimit := 0 } :=
  have hf : (FlowSet.ofList [1]).Normal := ⟨by decide, by decide⟩
  have hset : ∀ names now, TaskInstance.Change.call (.setOutputs names now) ∈ reportingRun →
      ∀ n ∈ names, reportingChild.hasOutput n = true := by
    intro names now hmem
    simp only [reportingRun, List.mem_cons, List.not_mem_nil, TaskInstance.Change.call.injEq, reduceCtorEq,
      Call.setOutputs.injEq, false_or, or_false] at hmem
    rw [hmem.1]
    decide
  ⟨hf, hset, restore_save reportingChild ⟨.integer, 1⟩ ⟨.integer, 1⟩ hf reportingRun hset⟩

end Proofs

end CycleSched
