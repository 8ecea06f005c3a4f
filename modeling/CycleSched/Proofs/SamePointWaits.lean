import CycleSched.Proofs.CompiledTasks

/-!
# Same-point waits in a compiled workflow

An instance of `x` at a cycle point `p` waits on `y` at `p` when one of its prerequisites has a
term on an output of `y` at `p` (`Workflow.WaitsAt`): through a relative trigger without offset,
or through an absolute trigger whose point is `p`. The deadlock check of compiling follows the
first kind only (`Workflow.WaitsRelativelyAt`), which holds at every point alike. It sets aside,
again and again, the tasks none of whose such waits is on a task still kept; a task that waits,
directly or not, on a task of a cycle of waits (`Stuck`) is never set aside
(`mem_stuckTasks_of_stuck`), so a compiled workflow has no cycle of relative same-point waits at
any point (`compile_no_relative_wait_cycle`).

Absolute triggers are not followed: the graph `foo[^] => foo` compiles, and the instance of
`foo` at the initial point then waits on itself (`absolute_self_wait_compiles`).
-/

namespace CycleSched.Graph

/-! ## The check -/

/-- `x` waits on `y` in a table of waits: the table's entry for `x` names `y`. -/
def WaitsIn (waits : List (String × List String)) (x y : String) : Prop :=
  y ∈ (waits.lookup x).getD []

/-- In a table naming each key once, the entry found for a key is the one the table holds. -/
theorem lookup_of_mem {α β : Type} [DecidableEq α] {l : List (α × β)} (hl : (l.map (·.1)).Nodup)
    {a : α} {b : β} (h : (a, b) ∈ l) : l.lookup a = some b := by
  obtain ⟨l₁, l₂, rfl⟩ := List.append_of_mem h
  have hfresh : a ∉ l₁.map (·.1) := by
    rw [List.map_append, List.map_cons, List.nodup_middle, List.nodup_cons] at hl
    exact fun ha => hl.1 (List.mem_append_left _ ha)
  refine List.lookup_eq_some_iff.2 ⟨l₁, l₂, rfl, fun e he => bne_iff_ne.2 fun hae => ?_⟩
  exact hfresh (hae ▸ List.mem_map_of_mem he)

/-- An entry found under a key is an entry of the table. -/
theorem mem_of_lookup {α β : Type} [DecidableEq α] {l : List (α × β)} {a : α} {b : β}
    (h : l.lookup a = some b) : (a, b) ∈ l := by
  obtain ⟨l₁, l₂, rfl, -⟩ := List.lookup_eq_some_iff.1 h
  exact List.mem_append_right _ List.mem_cons_self

/-- `x` waits, directly or through others, on something that lies on a cycle of `r`. -/
def Stuck {α : Type} (r : α → α → Prop) (x : α) : Prop :=
  ∃ z, Relation.TransGen r z z ∧ Relation.ReflTransGen r x z

/-- A stuck task waits on a stuck task: the next one on its way to the cycle, or on the cycle. -/
theorem Stuck.step {α : Type} {r : α → α → Prop} {x : α} (h : Stuck r x) :
    ∃ y, r x y ∧ Stuck r y := by
  obtain ⟨z, hz, hxz⟩ := h
  rcases hxz.cases_head with rfl | ⟨y, hxy, hyz⟩
  · obtain ⟨y, hxy, hyx⟩ := Relation.TransGen.head'_iff.1 hz
    exact ⟨y, hxy, x, hz, hyx⟩
  · exact ⟨y, hxy, z, hz, hyz⟩

/-- `x` is held up by `y`: `x` waits on `y`, or `x` is a name the table lacks, which is never
set aside and so holds itself up. -/
def HeldUp (waits : List (String × List String)) (x y : String) : Prop :=
  WaitsIn waits x y ∨ (waits.lookup x = none ∧ y = x)

section Check

variable {waits : List (String × List String)}

theorem WaitsIn.lookup_isSome {x y : String} (h : WaitsIn waits x y) :
    (waits.lookup x).isSome = true := by
  cases hx : waits.lookup x with
  | none => rw [WaitsIn, hx] at h; cases h
  | some ps => rfl

theorem mem_keys_iff {x : String} : x ∈ waits.map (·.1) ↔ (waits.lookup x).isSome = true := by
  rw [List.lookup_isSome_iff, List.mem_map]
  constructor
  · rintro ⟨e, he, rfl⟩
    exact ⟨e, he, beq_self_eq_true _⟩
  · rintro ⟨e, he, hxe⟩
    exact ⟨e, he, (beq_iff_eq.1 hxe).symm⟩

theorem WaitsIn.mem_keys {x y : String} (h : WaitsIn waits x y) : x ∈ waits.map (·.1) :=
  mem_keys_iff.2 h.lookup_isSome

/-- A task of the table is held up only by what it waits on. -/
theorem HeldUp.waitsIn {x y : String} (hx : x ∈ waits.map (·.1)) (h : HeldUp waits x y) :
    WaitsIn waits x y := by
  rcases h with h | ⟨hnone, -⟩
  · exact h
  · rw [mem_keys_iff, hnone] at hx
    cases hx

/-- Every stuck task of the table is among `left`. -/
def HoldsStuck (waits : List (String × List String)) (left : List String) : Prop :=
  ∀ x ∈ waits.map (·.1), Stuck (HeldUp waits) x → x ∈ left

/-- One round of the check keeps every stuck task, as a stuck task is held up by a stuck task:
one kept, or a name the table lacks. -/
theorem HoldsStuck.filter {left : List String} (h : HoldsStuck waits left) :
    HoldsStuck waits (left.filter fun t =>
      ((waits.lookup t).getD []).any fun u => left.contains u || (waits.lookup u).isNone) := by
  intro x hxkey hx
  obtain ⟨y, hxy, hy⟩ := hx.step
  rw [List.mem_filter]
  refine ⟨h x hxkey hx, List.any_eq_true.2 ⟨y, hxy.waitsIn hxkey, ?_⟩⟩
  by_cases hykey : y ∈ waits.map (·.1)
  · rw [Bool.or_eq_true, List.contains_iff_mem]
    exact .inl (h y hykey hy)
  · have hnone : waits.lookup y = none := by
      rw [mem_keys_iff, Option.not_isSome_iff_eq_none] at hykey
      exact hykey
    rw [hnone, Option.isNone_none, Bool.or_true]

/-- The rounds of the check, however many, keep every stuck task. -/
theorem HoldsStuck.go (n : Nat) {left : List String} (h : HoldsStuck waits left) :
    HoldsStuck waits (stuckTasks.go waits n left) := by
  induction n generalizing left with
  | zero => exact h
  | succ n ih =>
    rw [stuckTasks.go]
    split
    · exact h
    · exact ih h.filter

/-- A stuck task of the table is reported. -/
theorem mem_stuckTasks_of_stuck {x : String} (hx : x ∈ waits.map (·.1))
    (h : Stuck (HeldUp waits) x) : x ∈ stuckTasks waits := by
  unfold stuckTasks
  rw [List.mem_mergeSort]
  exact HoldsStuck.go waits.length (fun y hy _ => hy) x hx h

/-- A task on a cycle of waits is reported stuck. -/
theorem mem_stuckTasks_of_cycle {z : String} (h : Relation.TransGen (WaitsIn waits) z z) :
    z ∈ stuckTasks waits := by
  have hz : z ∈ waits.map (·.1) := by
    obtain ⟨y, hzy, -⟩ := Relation.TransGen.head'_iff.1 h
    exact hzy.mem_keys
  exact mem_stuckTasks_of_stuck hz ⟨z, Relation.TransGen.mono (fun _ _ => .inl) z z h, .refl⟩

end Check

/-- The tasks a task waits on at its own point are those of its relative triggers without
offset. -/
theorem TaskDef.mem_samePointParents {d : TaskDef} {y : String} :
    y ∈ d.samePointParents ↔
      ∃ dep ∈ d.deps, ∃ t ∈ dep.triggers, t.task = y ∧ t.point = none ∧ t.offset.isZero = true := by
  unfold TaskDef.samePointParents
  rw [List.mem_eraseDups, List.mem_flatMap]
  refine exists_congr fun dep => and_congr_right fun _ => ?_
  rw [List.mem_filterMap]
  refine exists_congr fun t => and_congr_right fun _ => ?_
  cases hp : t.point <;> cases hz : t.offset.isZero <;> simp

/-- Tasks that pass the deadlock check have no cycle of same-point waits. -/
theorem checkDeadlock_no_cycle {tasks : List TaskDef} (h : checkDeadlock tasks = .ok ())
    (z : String) :
    ¬ Relation.TransGen (WaitsIn (tasks.map fun d => (d.name, d.samePointParents))) z z := by
  intro hz
  have hstuck := mem_stuckTasks_of_cycle hz
  unfold checkDeadlock at h
  split at h
  · next hnone =>
    rw [hnone] at hstuck
    exact List.not_mem_nil hstuck
  · cases h

/-! ## Waits at a point -/

namespace Workflow

/-- An instance of `x` at `p` has a prerequisite term on an output of `y` at `p`: the task `x`
runs at `p`, and one of its dependencies that apply there has a trigger on `y` that is relative
without offset, or absolute at `p`. -/
def WaitsAt (w : Workflow) (p : Point) (x y : String) : Prop :=
  ∃ d ∈ w.tasks, d.name = x ∧ d.onSequence p = true ∧ ∃ dep ∈ d.depsAt p, ∃ t ∈ dep.triggers,
    t.task = y ∧ ((t.point = none ∧ t.offset.isZero = true) ∨ t.point = some p)

instance (w : Workflow) (p : Point) (x y : String) : Decidable (w.WaitsAt p x y) :=
  inferInstanceAs (Decidable (∃ d ∈ w.tasks, d.name = x ∧ d.onSequence p = true ∧
    ∃ dep ∈ d.depsAt p, ∃ t ∈ dep.triggers,
      t.task = y ∧ ((t.point = none ∧ t.offset.isZero = true) ∨ t.point = some p)))

/-- A task `x` waits at `p` on `y` through a relative trigger without offset, whether or not it
runs at `p`. -/
def WaitsRelativelyAt (w : Workflow) (p : Point) (x y : String) : Prop :=
  ∃ d ∈ w.tasks, d.name = x ∧ ∃ dep ∈ d.depsAt p, ∃ t ∈ dep.triggers,
    t.task = y ∧ t.point = none ∧ t.offset.isZero = true

end Workflow

/-- A compiled workflow has no cycle of same-point waits through relative triggers without
offset, at any point: in particular no task waits so on itself. -/
theorem compile_no_relative_wait_cycle {cfg : WorkflowConfig} {w : Workflow}
    (h : compile cfg = .ok w) (p : Point) (x : String) :
    ¬ Relation.TransGen (w.WaitsRelativelyAt p) x x := by
  obtain ⟨tasks, hnodup, hcheck, hperm⟩ := compile_tasks h
  have hkeys : ((tasks.map fun d => (d.name, d.samePointParents)).map (·.1)).Nodup := by
    rwa [List.map_map]
  -- each wait of the workflow is one of the table the check read, through the task of the same
  -- name and dependencies
  have hsub : ∀ a b, w.WaitsRelativelyAt p a b →
      WaitsIn (tasks.map fun d => (d.name, d.samePointParents)) a b := by
    rintro a b ⟨d, hd, rfl, dep, hdep, t, ht, rfl, hnone, hzero⟩
    obtain ⟨d', hd', hsame⟩ := List.mem_map.1 (hperm.subset (List.mem_map_of_mem hd))
    obtain ⟨hname, hdeps⟩ := Prod.mk.inj hsame
    have hparent : t.task ∈ d'.samePointParents :=
      TaskDef.mem_samePointParents.2 ⟨dep, hdeps ▸ (List.mem_filter.1 hdep).1, t, ht, rfl, hnone, hzero⟩
    unfold WaitsIn
    rw [← hname, lookup_of_mem hkeys (List.mem_map_of_mem hd')]
    exact hparent
  exact fun hx => checkDeadlock_no_cycle hcheck x (Relation.TransGen.mono hsub x x hx)

end CycleSched.Graph

namespace CycleSched.Proofs

open CycleSched.Graph

/-- The integer workflow `R1: foo[^] => foo` with implicit tasks, from the point `1`: every
instance of `foo` waits on `foo` at the initial point. -/
def selfAnchored : WorkflowConfig :=
  { scheduler := { allowImplicitTasks := true },
    scheduling := { cyclingMode := "integer", initial := "1",
                    graph := ⟨["R1"], [("R1", "foo[^] => foo")]⟩ } }

/-- The workflow `R1: foo[^] => foo` compiles, with no cycle of relative same-point waits. -/
theorem self_anchored_no_relative_cycle :
    ∃ w, compile selfAnchored = .ok w ∧ ∀ p x, ¬ Relation.TransGen (w.WaitsRelativelyAt p) x x := by
  obtain ⟨w, hw, -⟩ := Except.exists_ok_of_any
    (by decide +kernel : ((compile selfAnchored).toOption.any fun _ => true) = true)
  exact ⟨w, hw, compile_no_relative_wait_cycle hw⟩

/-- A compiled workflow may hold a same-point wait cycle: `R1: foo[^] => foo` compiles, and
`foo` at `1`, the initial point, waits on itself through its absolute trigger. -/
theorem absolute_self_wait_compiles :
    ¬ ∀ (cfg : WorkflowConfig) (w : Workflow), compile cfg = .ok w →
      ∀ p x, ¬ Relation.TransGen (w.WaitsAt p) x x := by
  intro h
  obtain ⟨w, hw, hwait⟩ := Except.exists_ok_of_any
    (by decide +kernel : ((compile selfAnchored).toOption.any
      fun w => decide (w.WaitsAt ⟨.integer, 1⟩ "foo" "foo")) = true)
  exact h selfAnchored w hw ⟨.integer, 1⟩ "foo" (.single (of_decide_eq_true hwait))

end CycleSched.Proofs
