import CycleSched.Proofs.CompileSteps
import CycleSched.Proofs.CompiledTasks

/-!
# The two stages of compiling

Compiling first defines every task the graph names (`defineTasks`), then compiles every edge into
its targets' dependencies and works out the required outputs (`compileEdges`). Each stage must
note no problem. This file shows that every step of both stages only grows the build
(`Growing`), reads the offsets of references the same way in both stages (`offsetReading`), and
that a clean first stage leaves a draft for every task a later step looks up: each reference
without an offset, and each with an offset that reads (`defineTasks_drafts`). Last, a compiled
workflow's tasks are the drafts the second stage leaves, finished (`compile_stages`).
-/

namespace CycleSched.Graph

/-- Task `u` has a draft. -/
def Drafted (b : Build) (u : String) : Prop := (draftIn b.drafts u).isSome

/-! ## Every step grows the build -/

theorem growing_halt : Growing (modify fun b : Build => { b with halted := true }) :=
  growing_modify fun _ => .of_tables rfl rfl (List.prefix_refl _)

theorem growing_resolveOffset (ctx : Context) (sec : Section) (line : String) (r : TaskRef)
    (off : String) : Growing (resolveOffset ctx sec line r off) := by
  unfold resolveOffset
  repeat' with_reducible first
    | exact growing_pure _
    | exact growing_fail _ _ _
    | refine growing_bind ?_ fun _ => ?_
    | split
    | dsimp only

theorem growing_outputName (r : TaskRef) : Growing (outputName r) := by
  unfold outputName
  repeat' with_reducible first
    | exact growing_pure _
    | exact growing_draft? _
    | refine growing_bind ?_ fun _ => ?_
    | split

theorem growing_landsOnParent (ctx : Context) (sec : Section) (line : String) (r : TaskRef)
    (t : Trigger) (parentSeqs : List Sequence) :
    Growing (landsOnParent ctx sec line r t parentSeqs) := by
  unfold landsOnParent
  repeat' with_reducible first
    | exact growing_pure _
    | exact growing_fail _ _ _
    | exact growing_halt
    | refine growing_forIn _ _ fun _ _ => ?_
    | refine growing_bind ?_ fun _ => ?_
    | split
    | dsimp only

theorem growing_compileRef (ctx : Context) (secs : List Section) (sec : Section)
    (line child : String) (r : TaskRef) (dep : Dependency) :
    Growing (compileRef ctx secs sec line child r dep) := by
  unfold compileRef
  repeat' with_reducible first
    | exact growing_pure _
    | exact growing_fail _ _ _
    | exact growing_draft? _
    | exact growing_resolveOffset _ _ _ _ _
    | exact growing_landsOnParent _ _ _ _ _ _
    | exact growing_markOutput _ _ _ _ _
    | exact growing_outputName _
    | refine growing_bind ?_ fun _ => ?_
    | split
    | dsimp only

section Formulas

variable (ctx : Context) (secs : List Section) (sec : Section) (line child : String)

mutual

theorem growing_compileFormula :
    ∀ (f : Formula) (dep : Dependency), Growing (compileFormula ctx secs sec line child f dep)
  | .ref r, dep => by
    rw [compileFormula]
    exact growing_compileRef ctx secs sec line child r dep
  | .all parts, dep => by
    rw [compileFormula]
    exact growing_bind (growing_compileParts parts dep) fun _ => growing_pure _
  | .any parts, dep => by
    rw [compileFormula]
    exact growing_bind (growing_compileParts parts dep) fun _ => growing_pure _

theorem growing_compileParts :
    ∀ (parts : List Formula) (dep : Dependency),
      Growing (compileParts ctx secs sec line child parts dep)
  | [], dep => growing_pure _
  | f :: rest, dep => by
    rw [compileParts]
    refine growing_bind (growing_compileFormula f dep) fun r => ?_
    obtain ⟨c, dep'⟩ := r
    cases c with
    | none => exact growing_pure _
    | some c => exact growing_bind (growing_compileParts rest dep') fun _ => growing_pure _

end

end Formulas

theorem growing_noteTarget (sec : Section) (line : String) (r : TaskRef) :
    Growing (noteTarget sec line r) := by
  unfold noteTarget
  repeat' with_reducible first
    | exact growing_pure _
    | exact growing_fail _ _ _
    | exact growing_markOutput _ _ _ _ _
    | exact growing_outputName _
    | refine growing_bind ?_ fun _ => ?_
    | split

theorem growing_compileTarget (ctx : Context) (secs : List Section) (si : Nat) (sec : Section)
    (e : Edge) (target : TaskRef) : Growing (compileTarget ctx secs si sec e target) := by
  unfold compileTarget
  repeat' with_reducible first
    | exact growing_pure _
    | exact growing_draft? _
    | exact growing_putDraft _
    | exact growing_noteTarget _ _ _
    | exact growing_compileFormula _ _ _ _ _ _ _
    | refine growing_bind ?_ fun _ => ?_
    | split

theorem growing_define (fams : List String) (sec : Section) (si : Nat) (line : String)
    (r : TaskRef) : Growing (define fams sec si line r) := by
  unfold define
  repeat' with_reducible first
    | exact growing_pure _
    | exact growing_fail _ _ _
    | exact growing_get
    | exact growing_draft? _
    | exact growing_putDraft _
    | exact growing_modify fun _ => .of_tables rfl rfl (List.prefix_refl _)
    | refine growing_bind ?_ fun _ => ?_
    | split
    | dsimp only

/-! ## Reading offsets -/

/-- What the offset of a reference reads as: an absolute point (from `^`, `$`, or a text without
`P`) or an interval, a sign added when missing. -/
def offsetReading (ctx : Context) (off : String) : Option (Interval × Option Point) :=
  if off.startsWith "^" || off.startsWith "$" || !off.toList.contains 'P' then
    (ctx.resolve off).toOption.map fun p => (.zero, some p)
  else
    let signed := if off.startsWith "+" || off.startsWith "-" then off else "+" ++ off
    (Interval.parse ctx.mode signed).toOption.map fun d => (d, none)

/-- Reading an offset answers what it reads as, whatever the build; it changes nothing when the
offset reads, and notes a problem when it does not. -/
theorem resolveOffset_run (ctx : Context) (sec : Section) (line : String) (r : TaskRef)
    (off : String) (b : Build) :
    ((resolveOffset ctx sec line r off).run b).1 = offsetReading ctx off ∧
      ((offsetReading ctx off).isSome → ((resolveOffset ctx sec line r off).run b).2 = b) ∧
      ((offsetReading ctx off).isNone →
        ((resolveOffset ctx sec line r off).run b).2.errors ≠ b.errors) := by
  unfold resolveOffset offsetReading
  split
  · cases ctx.resolve off with
    | ok p => exact ⟨rfl, fun _ => rfl, by simp [Except.toOption]⟩
    | error e =>
      refine ⟨rfl, by simp [Except.toOption], fun _ => ?_⟩
      show b.errors ++ [_] ≠ b.errors
      simp
  · dsimp only
    cases Interval.parse ctx.mode _ with
    | ok d => exact ⟨rfl, fun _ => rfl, by simp [Except.toOption]⟩
    | error e =>
      refine ⟨rfl, by simp [Except.toOption], fun _ => ?_⟩
      show b.errors ++ [_] ≠ b.errors
      simp

theorem clean_resolveOffset {P : Build → Prop} (ctx : Context) (sec : Section) (line : String)
    (r : TaskRef) (off : String) :
    Clean P (resolveOffset ctx sec line r off) fun x b =>
      x = offsetReading ctx off ∧ (offsetReading ctx off).isSome ∧ P b := by
  intro b hb he
  obtain ⟨hx, hsome, hnone⟩ := resolveOffset_run ctx sec line r off b
  -- a clean reading is one that reads, and it leaves the build as it was
  have hread : (offsetReading ctx off).isSome := by
    cases h : offsetReading ctx off
    · exact absurd he (hnone (by rw [h]; rfl))
    · rfl
  exact ⟨hx, hread, (hsome hread).symm ▸ hb⟩

/-! ## Defining the tasks -/

/-- A step after which nothing is known but what its continuation establishes. -/
theorem clean_bind_any {α β : Type} {m : Compiling α} {f : α → Compiling β}
    {R : β → Build → Prop} (hm : Growing m) (hf : ∀ a, Growing (f a))
    (h : ∀ a, Clean (fun _ => True) (f a) R) : Clean (fun _ => True) (m >>= f) R :=
  clean_bind hm hf (show Clean (fun _ => True) m fun _ _ => True from fun _ _ _ => trivial) h

/-- The draft found for a task is named by it. -/
theorem name_of_draftIn {ds : List Draft} {u : String} {d : Draft} (h : draftIn ds u = some d) :
    d.task.name = u := by
  simpa using List.find?_some h

theorem clean_putDraft {P : Build → Prop} (d : Draft) :
    Clean P (putDraft d) fun _ b => Drafted b d.task.name := by
  intro b _ _
  unfold Drafted
  rw [draftIn_putDraft, if_pos rfl]
  rfl

/-- Defining a task that notes no problem leaves it a draft: the one it had, or a new one. -/
theorem clean_define (fams : List String) (sec : Section) (si : Nat) (line : String)
    (r : TaskRef) : Clean (fun _ => True) (define fams sec si line r) fun _ b => Drafted b r.name := by
  unfold define
  split
  · exact clean_fail_bind _ _ _ fun _ => growing_pure ()
  refine clean_bind (growing_draft? _) (fun found => ?_) (clean_draft? r.name) fun found => ?_
  · repeat' with_reducible first
      | exact growing_pure _
      | exact growing_fail _ _ _
      | exact growing_get
      | exact growing_putDraft _
      | exact growing_modify fun _ => .of_tables rfl rfl (List.prefix_refl _)
      | refine growing_bind ?_ fun _ => ?_
      | split
      | dsimp only
  cases found with
  | some d =>
    -- the task has a draft already, perhaps given one more section
    dsimp only
    split
    · intro b hb he
      have hname := name_of_draftIn hb.1.symm
      have h := clean_putDraft (P := fun _ => True) { d with sections := d.sections ++ [si] } b
        trivial he
      rw [hname] at h
      exact h
    · exact clean_pure () fun b hb => by unfold Drafted; rw [← hb.1]; rfl
  | none =>
    -- a new draft is stored under the task's name, unless a problem is noted
    refine clean_mono (P := fun _ => True) ?_ (fun _ _ => trivial) fun _ _ h => h
    repeat' with_reducible first
      | exact growing_pure _
      | exact growing_fail _ _ _
      | exact growing_get
      | exact growing_putDraft _
      | exact growing_modify fun _ => .of_tables rfl rfl (List.prefix_refl _)
      | exact clean_fail _ _ _
      | exact clean_fail_bind _ _ _ fun _ => growing_pure _
      | exact clean_putDraft _
      | refine growing_bind ?_ fun _ => ?_
      | refine clean_bind_any ?_ (fun _ => ?_) fun _ => ?_
      | split
      | dsimp only

/-- A loop whose every turn keeps `P`, goes on, and leaves a stable mark for its element keeps
`P` and leaves the marks of all its elements. -/
theorem clean_forIn_each {α : Type} {l : List α} {f : α → PUnit → Compiling (ForInStep PUnit)}
    {P : Build → Prop} {Q : α → Build → Prop} (hg : ∀ x y, Growing (f x y))
    (hQ : ∀ x, Stable (Q x))
    (hf : ∀ x ∈ l, Clean P (f x PUnit.unit) fun r b => r = .yield PUnit.unit ∧ P b ∧ Q x b) :
    Clean P (forIn l PUnit.unit f) fun _ b => P b ∧ ∀ x ∈ l, Q x b := by
  refine clean_forIn hg hQ fun x hx y => ?_
  cases y
  exact clean_mono (hf x hx) (fun _ h => h) fun r b h => ⟨⟨_, h.1⟩, h.2⟩

/-- A loop whose every turn goes on and leaves a stable mark for its element leaves the marks
of all its elements. -/
theorem clean_forIn_marks {α : Type} {l : List α} {f : α → PUnit → Compiling (ForInStep PUnit)}
    {Q : α → Build → Prop} (hg : ∀ x y, Growing (f x y)) (hQ : ∀ x, Stable (Q x))
    (hf : ∀ x ∈ l, Clean (fun _ => True) (f x PUnit.unit) fun r b => r = .yield PUnit.unit ∧ Q x b) :
    Clean (fun _ => True) (forIn l PUnit.unit f) fun _ b => ∀ x ∈ l, Q x b :=
  clean_mono (clean_forIn_each hg hQ fun x hx =>
      clean_mono (hf x hx) (fun _ h => h) fun _ _ h => ⟨h.1, trivial, h.2⟩)
    (fun _ h => h) fun _ _ h => h.2

/-- The references on the left of an edge. -/
def Edge.lhsRefs (e : Edge) : List TaskRef := (e.lhs.map Formula.refs).getD []

/-- After the tasks are defined, every task named by a reference without an offset, and by a
reference on the left with an offset that reads, has a draft. -/
def DefinesRefs (ctx : Context) (secs : List Section) (b : Build) : Prop :=
  ∀ sec ∈ secs, ∀ e ∈ sec.edges,
    (∀ r ∈ e.lhsRefs ++ e.rhs, r.offset = none → Drafted b r.name) ∧
    (∀ r ∈ e.lhsRefs, ∀ off, r.offset = some off → (offsetReading ctx off).isSome →
      Drafted b r.name)

/-- The sections are walked with their positions: an element sits at position `i` exactly when
the list has it there. -/
theorem mem_zip_range_iff {α : Type} {l : List α} {i : Nat} {a : α} :
    (i, a) ∈ (List.range l.length).zip l ↔ l[i]? = some a := by
  rw [List.mem_iff_getElem?]
  constructor
  · rintro ⟨k, hk⟩
    obtain ⟨hr, hl⟩ := List.getElem?_zip_eq_some.1 hk
    rw [List.getElem?_range (List.getElem?_eq_some_iff.1 hl).1] at hr
    cases hr
    exact hl
  · intro h
    exact ⟨i, List.getElem?_zip_eq_some.2
      ⟨List.getElem?_range (List.getElem?_eq_some_iff.1 h).1, h⟩⟩

theorem mem_indexed {α : Type} {l : List α} {a : α} (h : a ∈ l) :
    ∃ i, (i, a) ∈ (List.range l.length).zip l := by
  obtain ⟨i, hi⟩ := List.mem_iff_getElem?.1 h
  exact ⟨i, mem_zip_range_iff.2 hi⟩

/-- A growing step keeps a stable property it does not need. -/
theorem clean_keep {α : Type} {m : Compiling α} {S : Build → Prop} {Q : α → Build → Prop}
    (hm : Growing m) (hS : Stable S) (h : Clean (fun _ => True) m Q) :
    Clean S m fun a b => Q a b ∧ S b :=
  clean_mono (clean_frame hm hS h) (fun _ hb => ⟨trivial, hb⟩) fun _ _ h => h

/-- A clean step, then going on with a loop. -/
theorem clean_yield {α : Type} {m : Compiling α} {P Q : Build → Prop} (hm : Growing m)
    (h : Clean P m fun _ b => Q b) :
    Clean P (m >>= fun _ => pure (ForInStep.yield PUnit.unit))
      fun r b => r = .yield PUnit.unit ∧ Q b :=
  clean_bind hm (fun _ => growing_pure _) h fun _ => clean_pure _ fun _ hb => ⟨rfl, hb⟩

/-- Defining the tasks leaves a draft for every task a later step looks up. -/
theorem defineTasks_drafts (ctx : Context) (fams : List String) (secs : List Section) :
    Clean (fun _ => True) (defineTasks ctx fams secs) fun _ b => DefinesRefs ctx secs b := by
  unfold defineTasks
  dsimp only
  -- the first pass defines every reference without an offset, the second checks the others
  refine clean_bind (growing_forIn _ _ fun _ _ => ?g₁) (fun _ => ?g₂) (clean_forIn_marks
    (Q := fun x b => ∀ e ∈ x.2.edges, ∀ r ∈ e.lhsRefs ++ e.rhs, r.offset = none → Drafted b r.name)
    (fun _ _ => ?g₃) (fun _ => ?s₁) fun x _ => ?c₁) fun _ => ?c₂
  case s₁ =>
    intro b b' hg h e he r hr hoff
    exact hg.drafted _ (h e he r hr hoff)
  case' c₁ =>
    refine clean_yield (growing_forIn _ _ fun _ _ => ?g₄) (clean_forIn_marks
      (Q := fun (e : Edge) b => ∀ r ∈ e.lhsRefs ++ e.rhs, r.offset = none → Drafted b r.name)
      (fun _ _ => ?g₅) (fun _ => ?s₂) fun e _ => ?c₃)
  case s₂ =>
    intro b b' hg h r hr hoff
    exact hg.drafted _ (h r hr hoff)
  case' c₃ =>
    refine clean_yield (growing_forIn _ _ fun _ _ => ?g₆) (clean_forIn_marks
      (Q := fun (r : TaskRef) b => r.offset = none → Drafted b r.name)
      (fun _ _ => ?g₇) (fun _ _ _ hg h hoff => hg.drafted _ (h hoff)) fun r _ => ?c₄)
  case c₄ =>
    split
    · exact clean_yield (growing_define _ _ _ _ _)
        (clean_mono (clean_define _ _ _ _ _) (fun _ h => h) fun _ _ h _ => h)
    · next hnone => exact clean_pure _ fun _ _ => ⟨rfl, fun h => by simp [h] at hnone⟩
  case' c₂ =>
    refine clean_bind (growing_forIn _ _ fun _ _ => ?g₈) (fun _ => growing_pure _)
      (clean_keep (growing_forIn _ _ fun _ _ => ?g₉) ?s₅ (clean_forIn_marks
          (Q := fun (x : Nat × Section) b => ∀ e ∈ x.2.edges, ∀ r ∈ e.lhsRefs, ∀ off,
            r.offset = some off →
            (offsetReading ctx off).isSome → Drafted b r.name)
          (fun _ _ => ?g₁₀) (fun _ => ?s₃) fun x _ => ?c₅)) fun _ => clean_pure _ fun b hb => ?fin
  case s₅ =>
    intro b b' hg h x hx e he r hr hoff
    exact hg.drafted _ (h x hx e he r hr hoff)
  case s₃ =>
    intro b b' hg h e he r hr off hoff hread
    exact hg.drafted _ (h e he r hr off hoff hread)
  case fin =>
    intro sec hsec e he
    obtain ⟨si, hmem⟩ := mem_indexed hsec
    exact ⟨hb.2 _ hmem e he, hb.1 _ hmem e he⟩
  case' c₅ =>
    refine clean_yield (growing_forIn _ _ fun _ _ => ?g₁₁) (clean_forIn_marks
      (Q := fun (e : Edge) b => ∀ r ∈ e.lhsRefs, ∀ off, r.offset = some off →
        (offsetReading ctx off).isSome → Drafted b r.name)
      (fun _ _ => ?g₁₂) (fun _ => ?s₄) fun e _ => ?c₆)
  case s₄ =>
    intro b b' hg h r hr off hoff hread
    exact hg.drafted _ (h r hr off hoff hread)
  case' c₆ =>
    refine clean_yield (growing_forIn _ _ fun _ _ => ?g₁₃) (clean_forIn_marks
      (Q := fun (r : TaskRef) b => ∀ off, r.offset = some off →
        (offsetReading ctx off).isSome → Drafted b r.name)
      (fun _ _ => ?g₁₄) (fun _ _ _ hg h off hoff hread => hg.drafted _ (h off hoff hread))
      fun r _ => ?c₇)
  case' c₇ =>
    -- an offset that reads names a task with a draft, or a problem is noted
    split
    on_goal 2 =>
      rename_i hnone
      exact clean_pure _ fun _ _ => ⟨rfl, fun off hoff => absurd hoff (hnone off)⟩
    refine clean_bind (growing_resolveOffset _ _ _ _ _) (fun _ => ?g₁₅)
      (clean_resolveOffset _ _ _ _ _) fun x => ?c₈
  case' c₈ =>
    refine clean_bind (growing_draft? _) (fun _ => ?g₁₆) (clean_draft? r.name) fun found => ?c₉
  case c₉ =>
    split
    · exact clean_fail_bind _ _ _ fun _ => growing_pure _
    · next hnot =>
      refine clean_pure _ fun b hb => ⟨rfl, fun off' hoff' _ => ?_⟩
      obtain ⟨hfound, hx, hread, -⟩ := hb
      rw [hx, hread, Bool.true_and, Bool.not_eq_true, Option.isNone_eq_false_iff] at hnot
      unfold Drafted
      rw [← hfound]
      exact hnot
  all_goals repeat' with_reducible first
    | exact growing_pure _
    | exact growing_fail _ _ _
    | exact growing_draft? _
    | exact growing_resolveOffset _ _ _ _ _
    | exact growing_define _ _ _ _ _
    | refine growing_forIn _ _ fun _ _ => ?_
    | refine growing_bind ?_ fun _ => ?_
    | split

/-! ## The first stage compiles no edge -/

/-- No edge is compiled yet: no output is recorded as referenced and no draft has a
dependency. -/
def Build.Fresh (b : Build) : Prop := b.marks = [] ∧ ∀ d ∈ b.drafts, d.deps = []

/-- A compiling step keeps the build fresh. -/
def KeepsFresh {α : Type} (m : Compiling α) : Prop := ∀ b : Build, b.Fresh → (m.run b).2.Fresh

section KeepsFresh

variable {α β : Type}

theorem keepsFresh_pure (a : α) : KeepsFresh (pure a : Compiling α) := fun _ h => h

theorem keepsFresh_bind {m : Compiling α} {f : α → Compiling β} (hm : KeepsFresh m)
    (hf : ∀ a, KeepsFresh (f a)) : KeepsFresh (m >>= f) :=
  fun b hb => hf _ _ (hm b hb)

theorem keepsFresh_get : KeepsFresh (get : Compiling Build) := fun _ h => h

/-- A step that touches neither the drafts nor the references keeps the build fresh. -/
theorem keepsFresh_of_tables {m : Compiling α}
    (h : ∀ b : Build, (m.run b).2.marks = b.marks ∧ (m.run b).2.drafts = b.drafts) :
    KeepsFresh m := by
  intro b hb
  obtain ⟨hm, hd⟩ := h b
  exact ⟨hm.trans hb.1, fun d hdm => hb.2 d (hd ▸ hdm)⟩

theorem keepsFresh_forIn (l : List α) (init : β) {f : α → β → Compiling (ForInStep β)}
    (hf : ∀ a x, KeepsFresh (f a x)) : KeepsFresh (forIn l init f) := by
  induction l generalizing init with
  | nil => exact keepsFresh_pure init
  | cons a l ih =>
    rw [List.forIn_cons]
    refine keepsFresh_bind (hf a init) fun r => ?_
    cases r with
    | done x => exact keepsFresh_pure x
    | yield x => exact ih x

theorem keepsFresh_fail (sec expr reason : String) : KeepsFresh (fail sec expr reason) :=
  keepsFresh_of_tables fun _ => ⟨rfl, rfl⟩

/-- A lookup finds a draft of the build, so it has no dependency. -/
theorem keepsFresh_draft?_bind {u : String} {f : Option Draft → Compiling β}
    (hsome : ∀ d : Draft, d.deps = [] → KeepsFresh (f (some d))) (hnone : KeepsFresh (f none)) :
    KeepsFresh (draft? u >>= f) := by
  intro b hb
  show ((f (draftIn b.drafts u)).run b).2.Fresh
  cases h : draftIn b.drafts u with
  | none => exact hnone b hb
  | some d => exact hsome d (hb.2 d (List.mem_of_find?_eq_some h)) b hb

theorem keepsFresh_putDraft {d : Draft} (hd : d.deps = []) : KeepsFresh (putDraft d) := by
  intro b hb
  refine ⟨(putDraft_tables d b).2.trans hb.1, fun e he => ?_⟩
  rw [putDraft_drafts] at he
  split at he
  · obtain ⟨e', he', rfl⟩ := List.mem_map.1 he
    split
    · exact hd
    · exact hb.2 e' he'
  · rcases List.mem_append.1 he with he | he
    · exact hb.2 e he
    · rw [List.mem_singleton.1 he]
      exact hd

end KeepsFresh

theorem keepsFresh_define (fams : List String) (sec : Section) (si : Nat) (line : String)
    (r : TaskRef) : KeepsFresh (define fams sec si line r) := by
  unfold define
  split
  · exact keepsFresh_bind (keepsFresh_fail _ _ _) fun _ => keepsFresh_pure ()
  -- a task with a draft is given one more section, a new task an empty draft
  refine keepsFresh_draft?_bind (fun d hd => ?_) ?_
  · dsimp only
    split
    · exact keepsFresh_putDraft hd
    · exact keepsFresh_pure ()
  · dsimp only
    repeat' with_reducible first
      | exact keepsFresh_pure _
      | exact keepsFresh_fail _ _ _
      | exact keepsFresh_get
      | exact keepsFresh_putDraft rfl
      | exact keepsFresh_of_tables fun _ => ⟨rfl, rfl⟩
      | refine keepsFresh_bind ?_ fun _ => ?_
      | split

theorem keepsFresh_resolveOffset (ctx : Context) (sec : Section) (line : String) (r : TaskRef)
    (off : String) : KeepsFresh (resolveOffset ctx sec line r off) := by
  unfold resolveOffset
  repeat' with_reducible first
    | exact keepsFresh_pure _
    | exact keepsFresh_fail _ _ _
    | refine keepsFresh_bind ?_ fun _ => ?_
    | split
    | dsimp only

/-- Defining the tasks compiles no edge. -/
theorem keepsFresh_defineTasks (ctx : Context) (fams : List String) (secs : List Section) :
    KeepsFresh (defineTasks ctx fams secs) := by
  unfold defineTasks
  repeat' with_reducible first
    | exact keepsFresh_pure _
    | exact keepsFresh_fail _ _ _
    | exact keepsFresh_define _ _ _ _ _
    | exact keepsFresh_resolveOffset _ _ _ _ _
    | exact keepsFresh_of_tables fun _ => ⟨rfl, rfl⟩
    | refine keepsFresh_forIn _ _ fun _ _ => ?_
    | refine keepsFresh_bind ?_ fun _ => ?_
    | split

/-! ## The compiled workflow -/

/-- What a compiled task keeps of its draft, on the sections `secs`. -/
structure Finishes (secs : List Section) (dr : Draft) (d : TaskDef) : Prop where
  name : d.name = dr.task.name
  index : d.index = dr.task.index
  outputs : d.outputs = dr.task.outputs
  sequences : d.sequences = draftSequences secs dr
  deps : d.deps = dr.deps.map (·.2)
  required : ∀ o, o ∈ d.required ↔ o ∈ dr.task.required

/-- A compiled workflow comes from two clean stages: its tasks are the drafts the second stage
leaves, one for each task, finished. -/
theorem compile_stages {cfg : WorkflowConfig} {w : Workflow} (h : compile cfg = .ok w) :
    ∃ ctx fams b₁ b₂, cfg.context = .ok ctx ∧ w.context = ctx ∧
      stage (defineTasks ctx fams (readSections ctx cfg.scheduling.graph).1) { config := cfg } =
        .ok ((), b₁) ∧
      stage (compileEdges ctx (readSections ctx cfg.scheduling.graph).1) b₁ = .ok ((), b₂) ∧
      b₂.Distinct ∧ (∃ f : Draft → TaskDef,
        (∀ dr, Finishes (readSections ctx cfg.scheduling.graph).1 dr (f dr)) ∧
        w.tasks.Perm (b₂.drafts.map f)) ∧ w.tasks.Pairwise fun x y => x.index ≤ y.index := by
  unfold compile at h
  obtain ⟨ctx, hctx, h⟩ := Except.bind_eq_ok_iff.1 h
  split at h
  next secs errs hread =>
  dsimp only at h
  split at h
  · cases h
  obtain ⟨fams, -, h⟩ := Except.bind_eq_ok_iff.1 h
  obtain ⟨⟨⟨⟩, b₁⟩, h₁, h⟩ := Except.bind_eq_ok_iff.1 h
  obtain ⟨⟨⟨⟩, b₂⟩, h₂, h⟩ := Except.bind_eq_ok_iff.1 h
  obtain ⟨⟨⟩, -, h⟩ := Except.bind_eq_ok_iff.1 h
  obtain ⟨runahead, -, h⟩ := Except.bind_eq_ok_iff.1 h
  obtain ⟨stopPoint, -, h⟩ := Except.bind_eq_ok_iff.1 h
  obtain ⟨holdPoint, -, h⟩ := Except.bind_eq_ok_iff.1 h
  have hw := Except.ok.inj h
  subst hw
  have hsecs : (readSections ctx cfg.scheduling.graph).1 = secs := by rw [hread]
  rw [← hsecs] at h₁ h₂
  have hd₁ : b₁.Distinct :=
    Build.Distinct.stage (keepsDistinct_defineTasks _ _ _) (by exact List.nodup_nil) h₁
  refine ⟨ctx, fams, b₁, b₂, Except.mapError_eq_ok_iff.1 hctx, rfl, h₁, h₂,
    Build.Distinct.stage (keepsDistinct_compileEdges _ _) hd₁ h₂, ⟨?f, ?fin, ?perm⟩, ?sorted⟩
  case perm =>
    -- sorting the tasks and giving them their queues keeps what each took from its draft
    refine ((sortBy_perm _ _).map _).trans ?_
    rw [List.map_map]
    exact List.Perm.refl _
  case fin =>
    exact fun dr => ⟨rfl, rfl, rfl, by rw [hsecs]; rfl, rfl,
      fun o => by simp [List.mem_mergeSort, List.mem_eraseDups]⟩
  case sorted =>
    -- the tasks are sorted by their index, and giving them their queues keeps it
    refine List.pairwise_map.2 ((pairwise_sortBy (fun a b c hab hbc => ?_)
      (fun a b => ?_) _).imp fun h => of_decide_eq_true h)
    · simp only [decide_eq_true_eq] at hab hbc ⊢
      exact Nat.le_trans hab hbc
    · simp only [Bool.or_eq_true, decide_eq_true_eq]
      exact Nat.le_total _ _

end CycleSched.Graph
