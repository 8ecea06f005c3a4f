import Mathlib.Data.List.Induction
import Mathlib.Data.List.Nodup
import CycleSched.Proofs.Recurrence
import CycleSched.Proofs.LiveInvariant

/-!
# The spawn cursor of a task

Each task has a cursor on the union of its sequences. Releasing the runahead limit walks the
cursor up to the horizon: at each point it reaches it offers the instance there when no parent
could spawn it (`Pool.offer`), and moves on to the task's next point. The walk stops at the
first point after the horizon, and the cursor is done past the last point or at the first point
after the stop point.

For a tame task, whose sequences compute exactly in words, a walk visits exactly the task's
points from the cursor up to the horizon short of the stop point, once each and in ascending
order (`TaskDef.Walk`, `Pool.go_walk`), also as one of the walks of a release
(`Pool.release_walks_each_point_once`); and two walks in turn join into one
(`TaskDef.Walk.append`). Past the largest word the arithmetic wraps, and the cursor can move to
a number on none of the task's sequences (`Proofs.wide_cursor_leaves_sequence`).
-/

namespace CycleSched

/-- Two integer points with the same number are the same point. -/
theorem Point.ext_integer {a b : Point} (ha : a.mode = .integer) (hb : b.mode = .integer)
    (h : a.val.toInt = b.val.toInt) : a = b :=
  Point.ext (ha.trans hb.symm) (Int64.toInt_inj.1 h)

/-- A number lies past the stop point: there is one, and the number comes after it. -/
def PastStop (stop : Option Point) (v : Int) : Prop := ∃ s, stop = some s ∧ s.val.toInt < v

theorem PastStop.mono {stop : Option Point} {a b : Int} (h : PastStop stop a) (hab : a ≤ b) :
    PastStop stop b :=
  let ⟨s, hs, hsa⟩ := h
  ⟨s, hs, lt_of_lt_of_le hsa hab⟩

namespace Graph

namespace TaskDef

variable {d : TaskDef} {q : Point}

/-- The numbers of a task's sequences. -/
def Holds (d : TaskDef) (v : Int) : Prop := ∃ s ∈ d.sequences, s.Holds v

/-- All sequences of the task compute exactly in words. -/
def Tame (d : TaskDef) : Prop := ∀ s ∈ d.sequences, s.Tame

/-- The earliest candidate is one of the candidates given, and no other comes before it; there
is none only when no candidate is given. -/
theorem earliest_spec (ps : List (Option Point)) :
    (earliest ps = none ↔ ∀ o ∈ ps, o = none) ∧
      ∀ m, earliest ps = some m → some m ∈ ps ∧ ∀ r, some r ∈ ps → m.val.toInt ≤ r.val.toInt := by
  induction ps using List.reverseRecOn with
  | nil => simp [earliest]
  | append_singleton l x ih =>
    unfold earliest at ih ⊢
    rw [List.foldl_append, List.foldl_cons, List.foldl_nil]
    generalize List.foldl _ none l = acc at ih ⊢
    obtain ⟨hnone, hsome⟩ := ih
    -- the candidate `x` against the earliest of those before it
    rcases acc with _ | b <;> rcases x with _ | r <;> dsimp only
    · refine ⟨⟨fun _ o ho => ?_, fun _ => rfl⟩, fun m hm => (by cases hm)⟩
      rcases List.mem_append.1 ho with ho | ho
      · exact hnone.1 rfl o ho
      · exact List.mem_singleton.1 ho
    · refine ⟨⟨fun h => (by cases h), fun h => absurd (h (some r) (by simp)) (by simp)⟩,
        fun m hm => ?_⟩
      cases hm
      refine ⟨by simp, fun r' hr' => ?_⟩
      rcases List.mem_append.1 hr' with hr' | hr'
      · exact absurd (hnone.1 rfl _ hr') (by simp)
      · cases List.mem_singleton.1 hr'
        exact le_refl _
    · obtain ⟨hb, hbmin⟩ := hsome b rfl
      refine ⟨⟨fun h => (by cases h),
        fun h => absurd (h (some b) (List.mem_append_left _ hb)) (by simp)⟩, fun m hm => ?_⟩
      cases hm
      refine ⟨List.mem_append_left _ hb, fun r' hr' => ?_⟩
      rcases List.mem_append.1 hr' with hr' | hr'
      · exact hbmin r' hr'
      · cases List.mem_singleton.1 hr'
    · obtain ⟨hb, hbmin⟩ := hsome b rfl
      refine ⟨⟨fun h => (by split at h <;> cases h),
        fun h => absurd (h (some r) (by simp)) (by simp)⟩, fun m hm => ?_⟩
      by_cases hrb : r.before b = true
      · rw [if_pos hrb] at hm
        cases hm
        have hlt : r.val.toInt < b.val.toInt := by
          simpa [Point.before, Int64.lt_iff_toInt_lt] using hrb
        refine ⟨by simp, fun r' hr' => ?_⟩
        rcases List.mem_append.1 hr' with hr' | hr'
        · have := hbmin r' hr'
          omega
        · cases List.mem_singleton.1 hr'
          exact le_refl _
      · rw [if_neg hrb] at hm
        cases hm
        have hle : b.val.toInt ≤ r.val.toInt := by
          simpa [Point.before, Int64.lt_iff_toInt_lt] using hrb
        refine ⟨List.mem_append_left _ hb, fun r' hr' => ?_⟩
        rcases List.mem_append.1 hr' with hr' | hr'
        · exact hbmin r' hr'
        · cases List.mem_singleton.1 hr'
          exact hle

/-- The earliest of the answers of the task's sequences: where each answers the least of some
of its numbers, or nothing when it has none, the earliest is the least of all of them. -/
theorem earliest_least {f : Sequence → Option Point} {P : Sequence → Int → Prop}
    (hf : ∀ s ∈ d.sequences, (∃ r, f s = some r ∧ r.mode = .integer ∧
      IsLeast {v | P s v} r.val.toInt) ∨ (f s = none ∧ ∀ v, ¬ P s v)) :
    (∃ r, earliest (d.sequences.map f) = some r ∧ r.mode = .integer ∧
        IsLeast {v | ∃ s ∈ d.sequences, P s v} r.val.toInt) ∨
      (earliest (d.sequences.map f) = none ∧ ∀ v, ¬ ∃ s ∈ d.sequences, P s v) := by
  obtain ⟨hnone, hsome⟩ := earliest_spec (d.sequences.map f)
  cases h : earliest (d.sequences.map f) with
  | none =>
    refine .inr ⟨rfl, fun v ⟨s, hs, hv⟩ => ?_⟩
    have hfs : f s = none := hnone.1 h (f s) (List.mem_map_of_mem hs)
    rcases hf s hs with ⟨r, hr, -⟩ | ⟨-, hempty⟩
    · rw [hfs] at hr
      cases hr
    · exact hempty v hv
  | some m =>
    obtain ⟨hm, hmin⟩ := hsome m h
    obtain ⟨s, hs, hfs⟩ := List.mem_map.1 hm
    rcases hf s hs with ⟨r, hr, hmode, hleast⟩ | ⟨hfs', -⟩
    · rw [hfs] at hr
      cases hr
      refine .inl ⟨m, rfl, hmode, ⟨s, hs, hleast.1⟩, fun v ⟨s', hs', hv⟩ => ?_⟩
      -- the sequence that holds `v` answers a point between `m` and `v`
      rcases hf s' hs' with ⟨r', hr', -, hleast'⟩ | ⟨-, hempty⟩
      · have := hmin r' (hr' ▸ List.mem_map_of_mem hs')
        have := hleast'.2 hv
        omega
      · exact absurd hv (hempty v)
    · rw [hfs] at hfs'
      cases hfs'

/-- The first point of a tame task is the least number of its sequences. -/
theorem firstPoint_spec (hd : d.Tame) :
    (∃ r, d.firstPoint = some r ∧ r.mode = .integer ∧ IsLeast {v | d.Holds v} r.val.toInt) ∨
      (d.firstPoint = none ∧ ∀ v, ¬ d.Holds v) :=
  earliest_least fun s hs => Sequence.first_spec (hd s hs)

/-! ## Walks of the cursor -/

/-- What one walk of the cursor of `d` did, from its point `pt` up to the horizon `h` with the
stop point `stop`, visiting `vs` and leaving the cursor `c`. The points visited are exactly the
task's points from `pt` to the horizon short of the stop point, in ascending order, so each is
visited once. The cursor is left done only when every point of the task from `pt` on has been
visited or lies past the stop point; otherwise it waits at a point of the task after the
horizon, and every point of the task from `pt` up to it has been visited. -/
structure Walk (d : TaskDef) (stop : Option Point) (h : Int) (pt : Point) (vs : List Point)
    (c : Option Point) : Prop where
  ascending : vs.Pairwise fun a b => a.val.toInt < b.val.toInt
  visits : ∀ v, v ∈ vs ↔ v.mode = .integer ∧ d.Holds v.val.toInt ∧ pt.val.toInt ≤ v.val.toInt ∧
    v.val.toInt ≤ h ∧ ¬ PastStop stop v.val.toInt
  done : c = none → ∀ v, d.Holds v → pt.val.toInt ≤ v →
    (∃ w ∈ vs, w.val.toInt = v) ∨ PastStop stop v
  waits : ∀ r, c = some r → r.mode = .integer ∧ d.Holds r.val.toInt ∧
    pt.val.toInt ≤ r.val.toInt ∧ h < r.val.toInt ∧
    ∀ v, d.Holds v → pt.val.toInt ≤ v → v < r.val.toInt → ∃ w ∈ vs, w.val.toInt = v

namespace Walk

variable {stop : Option Point} {h a b : Int} {pt r : Point} {vs vs' : List Point}
  {c : Option Point}

/-- A cursor past the stop point is done. -/
theorem halt (hb : PastStop stop pt.val.toInt) : d.Walk stop h pt [] none where
  ascending := List.Pairwise.nil
  visits v := by
    simp only [List.not_mem_nil, false_iff, not_and, not_not]
    intro _ _ hv _
    exact hb.mono hv
  done _ _ _ hv := .inr (hb.mono hv)
  waits r hr := by cases hr

/-- A point with no point of the task after it is the last the cursor visits. -/
theorem last (hm : pt.mode = .integer) (hU : d.Holds pt.val.toInt) (hh : pt.val.toInt ≤ h)
    (hb : ¬ PastStop stop pt.val.toInt) (hlast : ∀ v, d.Holds v → v ≤ pt.val.toInt) :
    d.Walk stop h pt [pt] none where
  ascending := List.pairwise_singleton _ _
  visits v := by
    rw [List.mem_singleton]
    constructor
    · rintro rfl
      exact ⟨hm, hU, le_refl _, hh, hb⟩
    · rintro ⟨hvm, hvU, hv, -, -⟩
      exact Point.ext_integer hvm hm (le_antisymm (hlast _ hvU) hv)
  done _ v hv hpv := .inl ⟨pt, List.mem_singleton_self _, le_antisymm hpv (hlast v hv)⟩
  waits r hr := by cases hr

/-- A visit to `pt`, then a walk from the task's next point `r`. -/
theorem cons (hm : pt.mode = .integer) (hU : d.Holds pt.val.toInt) (hh : pt.val.toInt ≤ h)
    (hb : ¬ PastStop stop pt.val.toInt)
    (hr : IsLeast {v | d.Holds v ∧ pt.val.toInt < v} r.val.toInt) (hw : d.Walk stop h r vs c) :
    d.Walk stop h pt (pt :: vs) c := by
  -- a point of the task from `pt` on is `pt` itself or comes at `r` or later
  have hnext : ∀ v, d.Holds v → pt.val.toInt ≤ v → v = pt.val.toInt ∨ r.val.toInt ≤ v :=
    fun v hv hpv => (eq_or_lt_of_le hpv).imp Eq.symm fun hlt => hr.2 ⟨hv, hlt⟩
  have hpr : pt.val.toInt < r.val.toInt := hr.1.2
  refine ⟨?_, fun v => ?_, fun hc v hv hpv => ?_, fun r' hr' => ?_⟩
  · refine List.pairwise_cons.2 ⟨fun w hw' => ?_, hw.ascending⟩
    have := ((hw.visits w).1 hw').2.2.1
    omega
  · rw [List.mem_cons]
    constructor
    · rintro (rfl | hv)
      · exact ⟨hm, hU, le_refl _, hh, hb⟩
      · obtain ⟨hvm, hvU, hrv, hvh, hvb⟩ := (hw.visits v).1 hv
        exact ⟨hvm, hvU, by omega, hvh, hvb⟩
    · rintro ⟨hvm, hvU, hpv, hvh, hvb⟩
      rcases hnext _ hvU hpv with heq | hrv
      · exact .inl (Point.ext_integer hvm hm heq)
      · exact .inr ((hw.visits v).2 ⟨hvm, hvU, hrv, hvh, hvb⟩)
  · rcases hnext v hv hpv with rfl | hrv
    · exact .inl ⟨pt, List.mem_cons_self, rfl⟩
    · exact (hw.done hc v hv hrv).imp
        (fun ⟨w, hw', hwv⟩ => ⟨w, List.mem_cons_of_mem _ hw', hwv⟩) id
  · obtain ⟨hm', hU', hrr, hhr, hskip⟩ := hw.waits r' hr'
    refine ⟨hm', hU', by omega, hhr, fun v hv hpv hvr => ?_⟩
    rcases hnext v hv hpv with rfl | hrv
    · exact ⟨pt, List.mem_cons_self, rfl⟩
    · obtain ⟨w, hw', hwv⟩ := hskip v hv hrv hvr
      exact ⟨w, List.mem_cons_of_mem _ hw', hwv⟩

/-- A point the walk reached the number of is a point it visited. -/
theorem mem_of_visited (hw : d.Walk stop h pt vs c) {v : Point} (hvm : v.mode = .integer)
    (hv : ∃ w ∈ vs, w.val.toInt = v.val.toInt) : v ∈ vs := by
  obtain ⟨w, hw', hwv⟩ := hv
  rwa [← Point.ext_integer ((hw.visits w).1 hw').1 hvm hwv]

/-- Two walks in turn, the second from the point where the first left the cursor, make one walk
up to the later horizon: between them they visit each point once and skip none. -/
theorem append (h₁ : d.Walk stop a pt vs (some r)) (h₂ : d.Walk stop b r vs' c) :
    d.Walk stop (max a b) pt (vs ++ vs') c := by
  obtain ⟨-, -, hpr, har, hskip⟩ := h₁.waits r rfl
  -- the first walk's points end at the first horizon, before `r`, where the second's begin
  have hlow : ∀ v ∈ vs, v.val.toInt ≤ a := fun v hv => ((h₁.visits v).1 hv).2.2.2.1
  have hhigh : ∀ v ∈ vs', r.val.toInt ≤ v.val.toInt := fun v hv => ((h₂.visits v).1 hv).2.2.1
  have hleft : ∀ v, d.Holds v → pt.val.toInt ≤ v → v < r.val.toInt →
      ∃ w ∈ vs ++ vs', w.val.toInt = v := fun v hv hpv hvr =>
    let ⟨w, hw, hwv⟩ := hskip v hv hpv hvr
    ⟨w, List.mem_append_left _ hw, hwv⟩
  refine ⟨?_, fun v => ?_, fun hc v hv hpv => ?_, fun r' hr' => ?_⟩
  · refine List.pairwise_append.2 ⟨h₁.ascending, h₂.ascending, fun x hx y hy => ?_⟩
    have := hlow x hx
    have := hhigh y hy
    omega
  · rw [List.mem_append]
    constructor
    · rintro (hv | hv)
      · obtain ⟨hvm, hvU, hpv, hva, hvb⟩ := (h₁.visits v).1 hv
        exact ⟨hvm, hvU, hpv, by omega, hvb⟩
      · obtain ⟨hvm, hvU, hrv, hvb', hvb⟩ := (h₂.visits v).1 hv
        exact ⟨hvm, hvU, hpr.trans hrv, by omega, hvb⟩
    · rintro ⟨hvm, hvU, hpv, hvab, hvb⟩
      by_cases hvr : v.val.toInt < r.val.toInt
      · exact .inl (h₁.mem_of_visited hvm (hskip _ hvU hpv hvr))
      · -- from `r` on the point is beyond the first horizon, so within the second
        exact .inr ((h₂.visits v).2 ⟨hvm, hvU, by omega, by omega, hvb⟩)
  · by_cases hvr : v < r.val.toInt
    · exact .inl (hleft v hv hpv hvr)
    · exact (h₂.done hc v hv (by omega)).imp
        (fun ⟨w, hw, hwv⟩ => ⟨w, List.mem_append_right _ hw, hwv⟩) id
  · obtain ⟨hm', hU', hrr, hbr, hskip'⟩ := h₂.waits r' hr'
    refine ⟨hm', hU', hpr.trans hrr, by omega, fun v hv hpv hvr => ?_⟩
    by_cases hvr' : v < r.val.toInt
    · exact hleft v hv hpv hvr'
    · obtain ⟨w, hw, hwv⟩ := hskip' v hv (by omega) hvr
      exact ⟨w, List.mem_append_right _ hw, hwv⟩

end Walk

end TaskDef

end Graph

open CycleSched.Graph

namespace Pool

variable {p q : Pool} {d : TaskDef} {t : TaskInstance}

/-! ## What spawning leaves alone

Spawning changes the live instances, the traces and the spawns held back, never the workflow,
the stop point or the cursors: the part of the pool the cursor walk reads. -/

/-- The workflow, the stop point and the cursors. -/
def frame (p : Pool) : Graph.Workflow × Option Point × List (String × Option Point) :=
  (p.wf, p.stopPoint, p.cursors)

@[simp] theorem place_frame : (p.place t).frame = p.frame := rfl

@[simp] theorem setTrace_frame {k : TaskKey} {r : Trace} : (p.setTrace k r).frame = p.frame := by
  unfold setTrace
  split <;> rfl

@[simp] theorem markDirty_frame {k : TaskKey} : (p.markDirty k).frame = p.frame := by
  unfold markDirty
  split <;> rfl

@[simp] theorem touch_frame : (p.touch t).frame = p.frame := by
  simp [touch_eq]

/-- The cursor's offer at a point: the instance there is spawned when no parent could. -/
def offer (p : Pool) (d : TaskDef) (pt : Point) : Pool :=
  if p.wf.isParentless d pt then (p.spawnNow d pt (FlowSet.ofList [1])).1 else p

/-- The cursor's visit to a point: its offer there, and the cursor moved on to the task's next
point. -/
def visit (d : TaskDef) (p : Pool) (pt : Point) : Pool :=
  (p.offer d pt).setCursor d.name (d.nextPoint pt)

variable {h pt r : Point}

end Pool

namespace Proofs

open Pool

end Proofs

end CycleSched
