import CycleSched.Proofs.SamePointWaits
import CycleSched.Proofs.Runs

/-!
# The tasks the deadlock check reports

A task can never run at a cycle point when it is held up there for ever (`Stuck`): it waits,
directly or through other tasks, on a cycle of same-point waits or on a name no task has. The
deadlock check sets aside, round after round, every task all of whose waits are on tasks already
set aside. No round sets a stuck task aside (`mem_stuckTasks_of_stuck`); and once a round sets
nothing aside, every task kept is held up by a task kept or a missing name, which in a finite set
means that each of them reaches a cycle (`stuck_of_closed`). So the check reports exactly the
stuck tasks (`mem_stuckTasks_iff`), each once and in order; where every wait is on a task of the
set, it passes exactly when the waits have no cycle (`checkDeadlock_reports_stuck`).
-/

namespace CycleSched.Graph

open Relation

/-! ## Reaching a cycle -/

section Reach

variable {α : Type} {r : α → α → Prop}

theorem Stuck.head {x y : α} (hxy : r x y) (hy : Stuck r y) : Stuck r x :=
  let ⟨z, hz, hyz⟩ := hy
  ⟨z, hz, .head hxy hyz⟩

theorem Stuck.mono {s : α → α → Prop} (hrs : ∀ a b, r a b → s a b) {x : α} (h : Stuck r x) :
    Stuck s x :=
  let ⟨z, hz, hxz⟩ := h
  ⟨z, TransGen.mono hrs _ _ hz, ReflTransGen.mono hrs _ _ hxz⟩

/-- Where everything reachable from `x` lies in a finite set and goes on to something, `x`
reaches a cycle. Unless `x` is on a cycle, what its successor reaches lies in the set less `x`. -/
theorem stuck_of_reach [DecidableEq α] (F : List α) (x : α)
    (h : ∀ y, ReflTransGen r x y → y ∈ F ∧ ∃ y', r y y') : Stuck r x := by
  obtain ⟨hxF, y, hxy⟩ := h x .refl
  by_cases hback : ReflTransGen r y x
  · exact ⟨x, TransGen.head' hxy hback, .refl⟩
  · refine Stuck.head hxy (stuck_of_reach (F.erase x) y fun w hyw => ?_)
    have hne : w ≠ x := by
      rintro rfl
      exact hback hyw
    obtain ⟨hwF, hnext⟩ := h w (.head hxy hyw)
    exact ⟨(List.mem_erase_of_ne hne).2 hwF, hnext⟩
termination_by F.length
decreasing_by
  have := List.length_erase_of_mem hxF
  have := List.length_pos_of_mem hxF
  omega

/-- In a finite set each member of which goes on to a member, every member reaches a cycle. -/
theorem stuck_of_closed [DecidableEq α] {F : List α} (h : ∀ x ∈ F, ∃ y ∈ F, r x y) {x : α}
    (hx : x ∈ F) : Stuck r x := by
  -- follow only the steps that stay in `F`
  have hin : Stuck (fun a b => r a b ∧ b ∈ F) x := by
    refine stuck_of_reach F x fun y hxy => ?_
    have hy : y ∈ F := by
      rcases hxy.cases_tail with rfl | ⟨_, _, _, hyF⟩
      · exact hx
      · exact hyF
    obtain ⟨y', hy', hyy'⟩ := h y hy
    exact ⟨hy, y', hyy', hy'⟩
  exact hin.mono fun _ _ hab => hab.1

end Reach

/-! ## The rounds of the check -/

section Rounds

variable {waits : List (String × List String)}

theorem go_sublist (n : Nat) (left : List String) : (stuckTasks.go waits n left).Sublist left := by
  induction n generalizing left with
  | zero => exact List.Sublist.refl _
  | succ n ih =>
    rw [stuckTasks.go]
    split
    · exact List.Sublist.refl _
    · exact (ih _).trans List.filter_sublist

/-- After enough rounds every task kept waits on a task kept or on a name the table lacks: the
last round set nothing aside, or each round set something aside until nothing was left. -/
theorem go_closed (n : Nat) (left : List String) (hlen : left.length ≤ n) :
    ∀ x ∈ stuckTasks.go waits n left, ∃ y, WaitsIn waits x y ∧
      (y ∈ stuckTasks.go waits n left ∨ waits.lookup y = none) := by
  induction n generalizing left with
  | zero =>
    rw [List.length_eq_zero_iff.1 (Nat.le_zero.1 hlen)]
    intro x hx
    cases hx
  | succ n ih =>
    rw [stuckTasks.go]
    split
    · next hsame =>
      have hall := List.length_filter_eq_length_iff.1 (beq_iff_eq.1 hsame)
      intro x hx
      obtain ⟨y, hxy, hy⟩ := List.any_eq_true.1 (hall x hx)
      refine ⟨y, hxy, ?_⟩
      rcases Bool.or_eq_true_iff.1 hy with hy | hy
      · exact .inl (List.contains_iff_mem.1 hy)
      · exact .inr (Option.isNone_iff_eq_none.1 hy)
    · next hshrink =>
      refine ih _ ?_
      have hle := List.length_filter_le (fun t =>
        ((waits.lookup t).getD []).any fun u => left.contains u || (waits.lookup u).isNone) left
      have hne := mt beq_iff_eq.2 hshrink
      omega

/-- What a task waits on is named in the table. -/
theorem WaitsIn.mem_flatMap {x y : String} (h : WaitsIn waits x y) : y ∈ waits.flatMap (·.2) := by
  cases hx : waits.lookup x with
  | none => rw [WaitsIn, hx] at h; cases h
  | some ps =>
    rw [WaitsIn, hx] at h
    exact List.mem_flatMap.2 ⟨(x, ps), mem_of_lookup hx, h⟩

/-- The check reports exactly the stuck tasks of the table. -/
theorem mem_stuckTasks_iff {x : String} :
    x ∈ stuckTasks waits ↔ x ∈ waits.map (·.1) ∧ Stuck (HeldUp waits) x := by
  refine ⟨fun hx => ?_, fun h => mem_stuckTasks_of_stuck h.1 h.2⟩
  unfold stuckTasks at hx
  rw [List.mem_mergeSort] at hx
  refine ⟨(go_sublist _ _).subset hx, ?_⟩
  -- the tasks kept, and the missing names they wait on, are each held up by one of them
  refine stuck_of_closed (F := stuckTasks.go waits waits.length (waits.map (·.1)) ++
    (waits.flatMap (·.2)).filter fun u => (waits.lookup u).isNone) (fun y hy => ?_)
    (List.mem_append_left _ hx)
  rcases List.mem_append.1 hy with hy | hy
  · obtain ⟨z, hyz, hz⟩ := go_closed _ _ (List.length_map _).le y hy
    refine ⟨z, ?_, .inl hyz⟩
    rcases hz with hz | hz
    · exact List.mem_append_left _ hz
    · refine List.mem_append_right _ (List.mem_filter.2 ⟨hyz.mem_flatMap, ?_⟩)
      rw [hz, Option.isNone_none]
  · exact ⟨y, List.mem_append_right _ hy,
      .inr ⟨Option.isNone_iff_eq_none.1 (List.mem_filter.1 hy).2, rfl⟩⟩

/-- In a table naming each task once, the check reports each stuck task once, in order. -/
theorem stuckTasks_ordered (hkeys : (waits.map (·.1)).Nodup) :
    (stuckTasks waits).Pairwise (· < ·) := by
  have hnodup : (stuckTasks waits).Nodup :=
    ((go_sublist _ _).nodup hkeys).perm (List.mergeSort_perm _ _).symm
  have hsorted := @List.pairwise_mergeSort _ (fun a b : String => decide (a ≤ b))
    (fun _ _ _ hab hbc => decide_eq_true (String.le_trans (of_decide_eq_true hab)
      (of_decide_eq_true hbc)))
    (fun a b => by simpa using String.le_total a b) (stuckTasks.go waits waits.length (waits.map (·.1)))
  exact (hsorted.and hnodup).imp fun hab => Std.lt_of_le_of_ne (of_decide_eq_true hab.1) hab.2

end Rounds

/-! ## The check on tasks -/

/-- In a set of tasks, `x` waits on `y` at its own cycle point: a trigger of `x` on `y` is
relative and has no offset. -/
def SamePointWait (tasks : List TaskDef) (x y : String) : Prop :=
  ∃ d ∈ tasks, d.name = x ∧ ∃ dep ∈ d.deps, ∃ t ∈ dep.triggers,
    t.task = y ∧ t.point = none ∧ t.offset.isZero = true

/-- With each task named once, the table the check reads holds exactly the same-point waits. -/
theorem waitsIn_iff_samePointWait {tasks : List TaskDef} (hnames : (tasks.map (·.name)).Nodup)
    (x y : String) :
    WaitsIn (tasks.map fun d => (d.name, d.samePointParents)) x y ↔ SamePointWait tasks x y := by
  have hkeys : ((tasks.map fun d => (d.name, d.samePointParents)).map (·.1)).Nodup := by
    rwa [List.map_map]
  constructor
  · intro h
    cases hx : (tasks.map fun d => (d.name, d.samePointParents)).lookup x with
    | none => rw [WaitsIn, hx] at h; cases h
    | some ps =>
      rw [WaitsIn, hx] at h
      obtain ⟨d, hd, hsame⟩ := List.mem_map.1 (mem_of_lookup hx)
      obtain ⟨rfl, rfl⟩ := Prod.mk.inj hsame
      exact ⟨d, hd, rfl, TaskDef.mem_samePointParents.1 h⟩
  · rintro ⟨d, hd, rfl, hwait⟩
    unfold WaitsIn
    rw [lookup_of_mem hkeys (List.mem_map_of_mem hd)]
    exact TaskDef.mem_samePointParents.2 hwait

/-- In a set of tasks, `x` is held up at its own cycle point by `y`: `x` waits there on `y`, or
`x` names no task of the set and so never runs. -/
def SamePointHold (tasks : List TaskDef) (x y : String) : Prop :=
  SamePointWait tasks x y ∨ (x ∉ tasks.map (·.name) ∧ y = x)

section Tasks

variable {tasks : List TaskDef}

theorem samePointWait_mem_names {x y : String} (h : SamePointWait tasks x y) :
    x ∈ tasks.map (·.name) := by
  obtain ⟨d, hd, rfl, -⟩ := h
  exact List.mem_map_of_mem hd

/-- With each task named once, the check holds up a name exactly as the tasks do. -/
theorem heldUp_iff_samePointHold (hnames : (tasks.map (·.name)).Nodup) (x y : String) :
    HeldUp (tasks.map fun d => (d.name, d.samePointParents)) x y ↔ SamePointHold tasks x y := by
  have hkeys : (tasks.map fun d => (d.name, d.samePointParents)).map (·.1) = tasks.map (·.name) := by
    rw [List.map_map]
    rfl
  have hnone : (tasks.map fun d => (d.name, d.samePointParents)).lookup x = none ↔
      x ∉ tasks.map (·.name) := by
    rw [← hkeys, mem_keys_iff, Option.not_isSome_iff_eq_none]
  unfold HeldUp SamePointHold
  rw [waitsIn_iff_samePointWait hnames, hnone]

/-- Where every same-point wait is on a task of the set, a task of the set is held up only by
what it waits on, which is again a task of the set. -/
theorem SamePointHold.wait_of_closed (hclosed : ∀ x y, SamePointWait tasks x y → y ∈ tasks.map (·.name))
    {x y : String} (hx : x ∈ tasks.map (·.name)) (h : SamePointHold tasks x y) :
    SamePointWait tasks x y ∧ y ∈ tasks.map (·.name) := by
  rcases h with h | ⟨hx', -⟩
  · exact ⟨h, hclosed x y h⟩
  · exact absurd hx hx'

theorem transGen_wait_of_hold (hclosed : ∀ x y, SamePointWait tasks x y → y ∈ tasks.map (·.name))
    {x y : String} (hx : x ∈ tasks.map (·.name)) (h : TransGen (SamePointHold tasks) x y) :
    TransGen (SamePointWait tasks) x y ∧ y ∈ tasks.map (·.name) := by
  induction h with
  | single hxy =>
    obtain ⟨hw, hy⟩ := hxy.wait_of_closed hclosed hx
    exact ⟨.single hw, hy⟩
  | tail _ hbc ih =>
    obtain ⟨hab, hb⟩ := ih
    obtain ⟨hw, hc⟩ := hbc.wait_of_closed hclosed hb
    exact ⟨hab.tail hw, hc⟩

/-- Where every same-point wait is on a task of the set, a task of the set is stuck exactly when
it waits, directly or through others, on a cycle of waits. -/
theorem stuck_hold_iff_wait (hclosed : ∀ x y, SamePointWait tasks x y → y ∈ tasks.map (·.name))
    {x : String} (hx : x ∈ tasks.map (·.name)) :
    Stuck (SamePointHold tasks) x ↔ Stuck (SamePointWait tasks) x := by
  refine ⟨fun ⟨z, hz, hxz⟩ => ?_, Stuck.mono fun _ _ => .inl⟩
  rcases hxz.cases_head with rfl | ⟨y, hxy, hyz⟩
  · exact ⟨x, (transGen_wait_of_hold hclosed hx hz).1, .refl⟩
  · obtain ⟨hxz', hzname⟩ := transGen_wait_of_hold hclosed hx (.head' hxy hyz)
    exact ⟨z, (transGen_wait_of_hold hclosed hzname hz).1, hxz'.to_reflTransGen⟩

end Tasks

/-- The deadlock check passes when no task is stuck, and otherwise names the stuck tasks. -/
theorem checkDeadlock_eq (tasks : List TaskDef) :
    checkDeadlock tasks =
      let stuck := stuckTasks (tasks.map fun d => (d.name, d.samePointParents))
      if stuck = [] then .ok () else .error (.deadlock stuck) := by
  unfold checkDeadlock
  split
  · next hnil => simp [hnil]
  · next hne => rw [if_neg hne]

/-- The deadlock check on tasks named once each passes exactly when no task is held up for ever:
none waits, directly or through others, on a cycle of same-point waits or on a name no task has.
Otherwise it refuses them with a deadlock naming, in order and each once, exactly those tasks.
Where every same-point wait is on a task of the set, these are the tasks on or below a cycle of
waits, and the check passes exactly when the waits have no cycle. -/
theorem checkDeadlock_reports_stuck {tasks : List TaskDef} (hnames : (tasks.map (·.name)).Nodup) :
    (checkDeadlock tasks = .ok () ↔ ∀ x ∈ tasks.map (·.name), ¬ Stuck (SamePointHold tasks) x) ∧
    (∀ e, checkDeadlock tasks = .error e → ∃ stuck, e = .deadlock stuck ∧ stuck ≠ [] ∧
      stuck.Pairwise (· < ·) ∧
      ∀ x, x ∈ stuck ↔ x ∈ tasks.map (·.name) ∧ Stuck (SamePointHold tasks) x) ∧
    ((∀ x y, SamePointWait tasks x y → y ∈ tasks.map (·.name)) →
      (checkDeadlock tasks = .ok () ↔ ∀ x, ¬ TransGen (SamePointWait tasks) x x) ∧
      ∀ x ∈ tasks.map (·.name), Stuck (SamePointHold tasks) x ↔ Stuck (SamePointWait tasks) x) := by
  have hkeys : (tasks.map fun d => (d.name, d.samePointParents)).map (·.1) = tasks.map (·.name) := by
    rw [List.map_map]
    rfl
  have hmem : ∀ x, x ∈ stuckTasks (tasks.map fun d => (d.name, d.samePointParents)) ↔
      x ∈ tasks.map (·.name) ∧ Stuck (SamePointHold tasks) x := by
    intro x
    have hrel : HeldUp (tasks.map fun d => (d.name, d.samePointParents)) = SamePointHold tasks := by
      funext a b
      exact propext (heldUp_iff_samePointHold hnames a b)
    rw [mem_stuckTasks_iff, hkeys, hrel]
  have hnil : stuckTasks (tasks.map fun d => (d.name, d.samePointParents)) = [] ↔
      ∀ x ∈ tasks.map (·.name), ¬ Stuck (SamePointHold tasks) x := by
    rw [List.eq_nil_iff_forall_not_mem]
    refine forall_congr' fun x => ?_
    rw [hmem, not_and]
  have hok : checkDeadlock tasks = .ok () ↔
      ∀ x ∈ tasks.map (·.name), ¬ Stuck (SamePointHold tasks) x := by
    rw [checkDeadlock_eq, ← hnil]
    dsimp only
    split
    · next h => exact iff_of_true rfl h
    · next h => exact iff_of_false (fun he => by cases he) h
  refine ⟨hok, fun e he => ?_, fun hclosed => ⟨?_, fun x hx => stuck_hold_iff_wait hclosed hx⟩⟩
  · rw [checkDeadlock_eq] at he
    dsimp only at he
    split at he
    · cases he
    · next hne =>
      cases he
      exact ⟨_, rfl, hne, stuckTasks_ordered (hkeys ▸ hnames), hmem⟩
  · rw [hok]
    constructor
    · intro hnone z hz
      have hzname := samePointWait_mem_names (TransGen.head'_iff.1 hz).choose_spec.1
      exact hnone z hzname ((stuck_hold_iff_wait hclosed hzname).2 ⟨z, hz, .refl⟩)
    · intro hacyclic x hx hstuck
      obtain ⟨z, hz, -⟩ := (stuck_hold_iff_wait hclosed hx).1 hstuck
      exact hacyclic z hz

end CycleSched.Graph

namespace CycleSched.Proofs

open CycleSched.Graph Relation

/-- The tasks of the integer graph `P1: a => b => c` and `c => a`: each waits, at its own point,
on the one before it. -/
def loopOfThree : List TaskDef :=
  [implicitTask "a" 0 everyStep
     [{ seq := everyStep, condition := some (.trigger 0), triggers := [onSuccess "c" .zero "c"],
        lines := ["c => a"] }],
   implicitTask "b" 1 everyStep
     [{ seq := everyStep, condition := some (.trigger 0), triggers := [onSuccess "a" .zero "a"],
        lines := ["a => b => c"] }],
   implicitTask "c" 2 everyStep
     [{ seq := everyStep, condition := some (.trigger 0), triggers := [onSuccess "b" .zero "b"],
        lines := ["a => b => c"] }]]

/-- The three tasks of a loop are named once each, and the deadlock check reports them as the
tasks on or below a cycle. -/
theorem loopOfThree_reports_stuck :
    (loopOfThree.map (·.name)).Nodup ∧
    ((checkDeadlock loopOfThree = .ok () ↔
        ∀ x ∈ loopOfThree.map (·.name), ¬ Stuck (SamePointHold loopOfThree) x) ∧
      (∀ e, checkDeadlock loopOfThree = .error e → ∃ stuck, e = .deadlock stuck ∧ stuck ≠ [] ∧
        stuck.Pairwise (· < ·) ∧
        ∀ x, x ∈ stuck ↔ x ∈ loopOfThree.map (·.name) ∧ Stuck (SamePointHold loopOfThree) x) ∧
      ((∀ x y, SamePointWait loopOfThree x y → y ∈ loopOfThree.map (·.name)) →
        (checkDeadlock loopOfThree = .ok () ↔ ∀ x, ¬ TransGen (SamePointWait loopOfThree) x x) ∧
        ∀ x ∈ loopOfThree.map (·.name),
          Stuck (SamePointHold loopOfThree) x ↔ Stuck (SamePointWait loopOfThree) x)) :=
  ⟨by decide, checkDeadlock_reports_stuck (by decide)⟩

example : stuckTasks (loopOfThree.map fun d => (d.name, d.samePointParents)) = ["a", "b", "c"] := by
  cbv

end CycleSched.Proofs
