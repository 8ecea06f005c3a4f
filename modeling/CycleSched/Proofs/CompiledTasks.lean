import Mathlib.Data.List.Sort
import CycleSched.Graph.Compile
import CycleSched.Proofs.Instance
import CycleSched.Proofs.CompileSteps
import CycleSched.Proofs.InheritanceChain

/-!
# A compiled workflow defines each task once

Compiling keeps its task drafts in a list that only `putDraft` lengthens, and `putDraft`
replaces the draft of a task already there. Every step of compiling therefore keeps the drafts
naming each task once (`Graph.KeepsDistinct`), and so does the workflow compiled from them
(`Graph.compile_tasks_distinct`).

The steps are checked one by one with a few rules, as a Hoare logic with one fixed invariant:
`pure`, `get`, a `modify` that keeps the invariant, and `bind` and `for` loops of steps that
keep it.
-/

namespace CycleSched.Graph

/-- The drafts of a build name each task once. -/
def Build.Distinct (b : Build) : Prop := (b.drafts.map (·.task.name)).Nodup

/-- A compiling step keeps the drafts naming each task once. -/
def KeepsDistinct {α : Type} (m : Compiling α) : Prop := ∀ b, b.Distinct → (m.run b).2.Distinct

theorem keepsDistinct_pure {α : Type} (a : α) : KeepsDistinct (pure a : Compiling α) :=
  fun _ h => h

theorem keepsDistinct_bind {α β : Type} {m : Compiling α} {f : α → Compiling β}
    (hm : KeepsDistinct m) (hf : ∀ a, KeepsDistinct (f a)) : KeepsDistinct (m >>= f) :=
  fun b hb => hf _ _ (hm b hb)

theorem keepsDistinct_get : KeepsDistinct (get : Compiling Build) := fun _ h => h

theorem keepsDistinct_modify {f : Build → Build} (hf : ∀ b, b.Distinct → (f b).Distinct) :
    KeepsDistinct (modify f : Compiling Unit) :=
  fun b h => hf b h

/-- A `modify` that leaves the drafts keeps them distinct. -/
theorem keepsDistinct_modify_other {f : Build → Build} (hf : ∀ b, (f b).drafts = b.drafts) :
    KeepsDistinct (modify f : Compiling Unit) :=
  keepsDistinct_modify fun b h => by unfold Build.Distinct; rw [hf]; exact h

theorem keepsDistinct_forIn {α β : Type} (l : List α) (init : β)
    {f : α → β → Compiling (ForInStep β)} (hf : ∀ a x, KeepsDistinct (f a x)) :
    KeepsDistinct (forIn l init f) := by
  induction l generalizing init with
  | nil => exact keepsDistinct_pure init
  | cons a l ih =>
    rw [List.forIn_cons]
    refine keepsDistinct_bind (hf a init) fun r => ?_
    cases r with
    | done x => exact keepsDistinct_pure x
    | yield x => exact ih x

/-! ## The steps of compiling -/

theorem keepsDistinct_fail (sec expr reason : String) : KeepsDistinct (fail sec expr reason) :=
  keepsDistinct_modify_other fun _ => rfl

theorem keepsDistinct_draft? (name : String) : KeepsDistinct (draft? name) := fun _ h => h

/-- Storing a draft replaces the draft of its task, or adds it when there is none. -/
theorem keepsDistinct_putDraft (d : Draft) : KeepsDistinct (putDraft d) := by
  refine keepsDistinct_modify fun b h => ?_
  unfold Build.Distinct at h ⊢
  split
  · -- the replacement keeps every name
    have hnames : (b.drafts.map fun e => if e.task.name == d.task.name then d else e).map
        (·.task.name) = b.drafts.map (·.task.name) := by
      rw [List.map_map]
      refine List.map_congr_left fun e _ => ?_
      by_cases he : e.task.name = d.task.name <;> simp [he]
    dsimp only
    rw [hnames]
    exact h
  · next hnot =>
    have hfresh : d.task.name ∉ b.drafts.map (·.task.name) := by
      simpa using hnot
    dsimp only
    rw [List.map_append, List.map_singleton]
    exact List.nodup_append.2 ⟨h, List.nodup_singleton _, fun a ha c hc => by
      rw [List.mem_singleton.1 hc]
      exact fun hac => hfresh (hac ▸ ha)⟩

/-- Defining a task stores a draft for it, or adds a section to the one already stored. -/
theorem keepsDistinct_define (fams : List String) (sec : Section) (si : Nat) (line : String)
    (r : TaskRef) : KeepsDistinct (define fams sec si line r) := by
  unfold define
  split
  · exact keepsDistinct_bind (keepsDistinct_fail _ _ _) fun _ => keepsDistinct_pure ()
  refine keepsDistinct_bind (keepsDistinct_draft? _) fun found => ?_
  cases found with
  | some d =>
    dsimp only
    split
    · exact keepsDistinct_putDraft _
    · exact keepsDistinct_pure ()
  | none =>
    dsimp only
    refine keepsDistinct_bind keepsDistinct_get fun b => ?_
    -- an implicit task is first given an empty namespace
    split
    split
    · exact keepsDistinct_bind (keepsDistinct_fail _ _ _) fun _ => keepsDistinct_pure ()
    refine keepsDistinct_bind (keepsDistinct_modify_other fun _ => rfl) fun _ => ?_
    -- then its draft is stored, unless its namespace cannot be read
    all_goals
      refine keepsDistinct_bind keepsDistinct_get fun c => ?_
      split
      · exact keepsDistinct_fail _ _ _
      · exact keepsDistinct_fail _ _ _
      split
      · exact keepsDistinct_fail _ _ _
      · exact keepsDistinct_putDraft _

/-- A problem noted, then an answer. -/
theorem keepsDistinct_fail_pure {α : Type} (sec expr reason : String) (a : α) :
    KeepsDistinct (fail sec expr reason >>= fun _ => pure a) :=
  keepsDistinct_bind (keepsDistinct_fail _ _ _) fun _ => keepsDistinct_pure a

theorem keepsDistinct_resolveOffset (ctx : Context) (sec : Section) (line : String) (r : TaskRef)
    (off : String) : KeepsDistinct (resolveOffset ctx sec line r off) := by
  unfold resolveOffset
  dsimp only
  split <;> split
  all_goals first
    | exact keepsDistinct_pure _
    | exact keepsDistinct_fail_pure _ _ _ _

theorem keepsDistinct_outputName (r : TaskRef) : KeepsDistinct (outputName r) := by
  unfold outputName
  split
  · exact keepsDistinct_pure _
  refine keepsDistinct_bind (keepsDistinct_draft? _) fun found => ?_
  cases found <;> exact keepsDistinct_pure _

theorem keepsDistinct_markOutput (sec : Section) (line task output : String) (optional : Bool) :
    KeepsDistinct (markOutput sec line task output optional) := by
  unfold markOutput
  refine keepsDistinct_bind keepsDistinct_get fun b => ?_
  dsimp only
  split
  · split
    · exact keepsDistinct_fail _ _ _
    · exact keepsDistinct_pure ()
  · exact keepsDistinct_modify_other fun _ => rfl

theorem keepsDistinct_noteTarget (sec : Section) (line : String) (r : TaskRef) :
    KeepsDistinct (noteTarget sec line r) := by
  unfold noteTarget
  split
  · exact keepsDistinct_pure ()
  split
  · exact keepsDistinct_bind (keepsDistinct_markOutput _ _ _ _ _) fun _ =>
      keepsDistinct_bind (keepsDistinct_markOutput _ _ _ _ _) fun _ => keepsDistinct_pure ()
  refine keepsDistinct_bind (keepsDistinct_outputName _) fun o => ?_
  cases o with
  | none => exact keepsDistinct_fail _ _ _
  | some o => exact keepsDistinct_markOutput _ _ _ _ _

theorem keepsDistinct_landsOnParent (ctx : Context) (sec : Section) (line : String) (r : TaskRef)
    (t : Trigger) (parentSeqs : List Sequence) :
    KeepsDistinct (landsOnParent ctx sec line r t parentSeqs) := by
  unfold landsOnParent
  split
  · split
    · exact keepsDistinct_pure _
    · exact keepsDistinct_fail_pure _ _ _ _
  -- a relative trigger, shifted by its offset or not
  dsimp only
  split <;> split
  all_goals first
    | exact keepsDistinct_pure _
    | refine keepsDistinct_bind (keepsDistinct_forIn _ _ fun o x => ?_) fun x => ?_
  -- the search over the parent's sequences only notes a division by zero
  all_goals split
  all_goals first
    | exact keepsDistinct_pure _
    | exact keepsDistinct_fail_pure _ _ _ _
    | exact keepsDistinct_bind (keepsDistinct_modify_other fun _ => rfl) fun _ => keepsDistinct_pure _

theorem keepsDistinct_compileRef (ctx : Context) (secs : List Section) (sec : Section)
    (line child : String) (r : TaskRef) (dep : Dependency) :
    KeepsDistinct (compileRef ctx secs sec line child r dep) := by
  unfold compileRef
  -- each step is one checked above: the rules follow the binds and branches down to them
  repeat' with_reducible first
    | exact keepsDistinct_pure _
    | exact keepsDistinct_fail _ _ _
    | exact keepsDistinct_draft? _
    | exact keepsDistinct_resolveOffset _ _ _ _ _
    | exact keepsDistinct_landsOnParent _ _ _ _ _ _
    | exact keepsDistinct_markOutput _ _ _ _ _
    | exact keepsDistinct_outputName _
    | refine keepsDistinct_bind ?_ fun _ => ?_
    | split
    | dsimp only

section Formulas

variable (ctx : Context) (secs : List Section) (sec : Section) (line child : String)

mutual

theorem keepsDistinct_compileFormula :
    ∀ (f : Formula) (dep : Dependency), KeepsDistinct (compileFormula ctx secs sec line child f dep)
  | .ref r, dep => by
    rw [compileFormula]
    exact keepsDistinct_compileRef ctx secs sec line child r dep
  | .all parts, dep => by
    rw [compileFormula]
    exact keepsDistinct_bind (keepsDistinct_compileParts parts dep) fun _ => keepsDistinct_pure _
  | .any parts, dep => by
    rw [compileFormula]
    exact keepsDistinct_bind (keepsDistinct_compileParts parts dep) fun _ => keepsDistinct_pure _

theorem keepsDistinct_compileParts :
    ∀ (parts : List Formula) (dep : Dependency),
      KeepsDistinct (compileParts ctx secs sec line child parts dep)
  | [], dep => keepsDistinct_pure _
  | f :: rest, dep => by
    rw [compileParts]
    refine keepsDistinct_bind (keepsDistinct_compileFormula f dep) fun r => ?_
    obtain ⟨c, dep'⟩ := r
    cases c with
    | none => exact keepsDistinct_pure _
    | some c =>
      exact keepsDistinct_bind (keepsDistinct_compileParts rest dep') fun _ => keepsDistinct_pure _

end

end Formulas

theorem keepsDistinct_compileTarget (ctx : Context) (secs : List Section) (si : Nat)
    (sec : Section) (e : Edge) (target : TaskRef) :
    KeepsDistinct (compileTarget ctx secs si sec e target) := by
  unfold compileTarget
  repeat' with_reducible first
    | exact keepsDistinct_pure _
    | exact keepsDistinct_draft? _
    | exact keepsDistinct_putDraft _
    | exact keepsDistinct_noteTarget _ _ _
    | exact keepsDistinct_compileFormula _ _ _ _ _ _ _
    | refine keepsDistinct_bind ?_ fun _ => ?_
    | split

/-- Working out a task's required outputs keeps its name. -/
theorem resolveOutputs_name (d : Draft) (b : Build) :
    ((resolveOutputs d).run b).1.task.name = d.task.name := by
  simp only [resolveOutputs, StateT.run_bind, StateT.run_get, pure_bind]
  split <;> rfl

theorem mapM_resolveOutputs_names (l : List Draft) (b : Build) :
    ((l.mapM resolveOutputs).run b).1.map (·.task.name) = l.map (·.task.name) := by
  induction l generalizing b with
  | nil => rfl
  | cons d l ih =>
    rw [List.mapM_cons]
    -- in the identity monad each bind is an application, so the list is the first draft's
    -- result before the rest's
    exact congrArg₂ List.cons (resolveOutputs_name d b) (ih _)

/-- Replacing the drafts by their required outputs keeps their names. -/
theorem keepsDistinct_resolveAll :
    KeepsDistinct (get >>= fun b : Build => b.drafts.mapM resolveOutputs >>= fun drafts =>
      modify fun b : Build => { b with drafts }) := by
  intro b hb
  show ((b.drafts.mapM resolveOutputs).run b).1.map (·.task.name) |>.Nodup
  rw [mapM_resolveOutputs_names]
  exact hb

theorem stage_eq_ok {α : Type} {m : Compiling α} {b b' : Build} {a : α}
    (h : stage m b = .ok (a, b')) : m.run b = (a, b') := by
  unfold stage at h
  split at h
  next a₀ b₀ hrun =>
  split at h
  · cases h
  split at h
  · cases h
    exact hrun
  · cases h

/-- A stage that succeeds from distinct drafts leaves them distinct. -/
theorem Build.Distinct.stage {α : Type} {m : Compiling α} {b b' : Build} {a : α}
    (hm : KeepsDistinct m) (hb : b.Distinct) (h : stage m b = .ok (a, b')) : b'.Distinct := by
  have hrun : (m.run b).2 = b' := congrArg Prod.snd (stage_eq_ok h)
  exact hrun ▸ hm b hb

theorem keepsDistinct_defineTasks (ctx : Context) (fams : List String) (secs : List Section) :
    KeepsDistinct (defineTasks ctx fams secs) := by
  unfold defineTasks
  repeat' with_reducible first
    | exact keepsDistinct_pure _
    | exact keepsDistinct_fail _ _ _
    | exact keepsDistinct_draft? _
    | exact keepsDistinct_define _ _ _ _ _
    | exact keepsDistinct_resolveOffset _ _ _ _ _
    | refine keepsDistinct_forIn _ _ fun _ _ => ?_
    | refine keepsDistinct_bind ?_ fun _ => ?_
    | split

theorem keepsDistinct_compileEdges (ctx : Context) (secs : List Section) :
    KeepsDistinct (compileEdges ctx secs) := by
  unfold compileEdges
  repeat' with_reducible first
    | exact keepsDistinct_pure _
    | exact keepsDistinct_compileTarget _ _ _ _ _ _
    | exact keepsDistinct_resolveAll
    | refine keepsDistinct_forIn _ _ fun _ _ => ?_
    | refine keepsDistinct_bind ?_ fun _ => ?_

/-- The tasks of a compiled workflow are drafts naming each task once, which passed the deadlock
check, then sorted and given their queues: the names and dependencies are those checked. -/
theorem compile_tasks {cfg : WorkflowConfig} {w : Workflow} (h : compile cfg = .ok w) :
    ∃ tasks : List TaskDef, (tasks.map (·.name)).Nodup ∧ checkDeadlock tasks = .ok () ∧
      (w.tasks.map fun d => (d.name, d.deps)).Perm (tasks.map fun d => (d.name, d.deps)) := by
  unfold compile at h
  obtain ⟨ctx, -, h⟩ := Except.bind_eq_ok_iff.1 h
  split at h
  next secs errs _ =>
  dsimp only at h
  split at h
  · cases h
  obtain ⟨fams, -, h⟩ := Except.bind_eq_ok_iff.1 h
  obtain ⟨⟨⟨⟩, b₁⟩, h₁, h⟩ := Except.bind_eq_ok_iff.1 h
  obtain ⟨⟨⟨⟩, b₂⟩, h₂, h⟩ := Except.bind_eq_ok_iff.1 h
  obtain ⟨⟨⟩, hdead, h⟩ := Except.bind_eq_ok_iff.1 h
  obtain ⟨runahead, -, h⟩ := Except.bind_eq_ok_iff.1 h
  obtain ⟨stopPoint, -, h⟩ := Except.bind_eq_ok_iff.1 h
  obtain ⟨holdPoint, -, h⟩ := Except.bind_eq_ok_iff.1 h
  have hw := Except.ok.inj h
  subst hw
  -- defining the tasks and then compiling the edges keep the drafts distinct, from none
  have hd₁ : b₁.Distinct :=
    Build.Distinct.stage (keepsDistinct_defineTasks _ _ _) (by exact List.nodup_nil) h₁
  have hd₂ : b₂.Distinct := Build.Distinct.stage (keepsDistinct_compileEdges _ _) hd₁ h₂
  refine ⟨_, ?_, Except.mapError_eq_ok_iff.1 hdead, ?_⟩
  · rw [List.map_map]
    exact hd₂
  · -- sorting the tasks and giving them their queues keeps their names and dependencies
    rw [List.map_map]
    exact (sortBy_perm _ _).map _

/-- A compiled workflow defines each task once. -/
theorem compile_tasks_distinct {cfg : WorkflowConfig} {w : Workflow} (h : compile cfg = .ok w) :
    (w.tasks.map (·.name)).Nodup := by
  obtain ⟨tasks, hnodup, -, hperm⟩ := compile_tasks h
  have hnames := hperm.map Prod.fst
  rw [List.map_map, List.map_map] at hnames
  exact hnames.nodup_iff.2 hnodup


/-! ## Declaration indices -/

/-- A task named among some runtime names and numbered by its place among them. -/
def TaskDef.NumberedIn (names : List String) (d : TaskDef) : Prop :=
  d.name ∈ names ∧ d.index = names.idxOf d.name

/-- Names added after the others leave a numbered task's place. -/
theorem TaskDef.NumberedIn.mono {names names' : List String} {d : TaskDef}
    (h : d.NumberedIn names) (hp : names <+: names') : d.NumberedIn names' := by
  obtain ⟨rest, rfl⟩ := hp
  exact ⟨List.mem_append_left _ h.1, h.2.trans (List.idxOf_append_of_mem h.1).symm⟩

/-- The drafts of a build are numbered among its runtime names. -/
def Build.Numbered (b : Build) : Prop :=
  ∀ dr ∈ b.drafts, dr.task.NumberedIn b.config.runtime.names

/-- A compiling step keeps the drafts numbered, and adds runtime names only after the others. -/
def KeepsNumbered {α : Type} (m : Compiling α) : Prop :=
  ∀ b, b.Numbered → (m.run b).2.Numbered ∧
    b.config.runtime.names <+: (m.run b).2.config.runtime.names

section KeepsNumbered

variable {α β : Type}

theorem keepsNumbered_pure (a : α) : KeepsNumbered (pure a : Compiling α) :=
  fun _ h => ⟨h, List.prefix_refl _⟩

theorem keepsNumbered_bind {m : Compiling α} {f : α → Compiling β} (hm : KeepsNumbered m)
    (hf : ∀ a, KeepsNumbered (f a)) : KeepsNumbered (m >>= f) := fun b hb =>
  have h₁ := hm b hb
  have h₂ := hf _ _ h₁.1
  ⟨h₂.1, h₁.2.trans h₂.2⟩

/-- A step that keeps the drafts numbered, run from a build whose runtime names extend those of
`b`. -/
theorem KeepsNumbered.from {m : Compiling α} (hm : KeepsNumbered m) {b c : Build}
    (hc : c.Numbered) (hpre : b.config.runtime.names <+: c.config.runtime.names) :
    (m.run c).2.Numbered ∧ b.config.runtime.names <+: (m.run c).2.config.runtime.names :=
  ⟨(hm c hc).1, hpre.trans (hm c hc).2⟩

/-- A step that touches neither the drafts nor the configuration keeps the drafts numbered. -/
theorem keepsNumbered_of_tables {m : Compiling α}
    (h : ∀ b : Build, (m.run b).2.drafts = b.drafts ∧ (m.run b).2.config = b.config) :
    KeepsNumbered m := by
  intro b hb
  obtain ⟨hd, hc⟩ := h b
  rw [Build.Numbered, hd, hc]
  exact ⟨hb, List.prefix_refl _⟩

theorem keepsNumbered_forIn (l : List α) (init : β) {f : α → β → Compiling (ForInStep β)}
    (hf : ∀ a x, KeepsNumbered (f a x)) : KeepsNumbered (forIn l init f) := by
  induction l generalizing init with
  | nil => exact keepsNumbered_pure init
  | cons a l ih =>
    rw [List.forIn_cons]
    refine keepsNumbered_bind (hf a init) fun r => ?_
    cases r with
    | done x => exact keepsNumbered_pure x
    | yield x => exact ih x

end KeepsNumbered

theorem keepsNumbered_fail (sec expr reason : String) : KeepsNumbered (fail sec expr reason) :=
  keepsNumbered_of_tables fun _ => ⟨rfl, rfl⟩

theorem keepsNumbered_draft? (u : String) : KeepsNumbered (draft? u) :=
  keepsNumbered_of_tables fun _ => ⟨rfl, rfl⟩

theorem putDraft_config (d : Draft) (b : Build) : ((putDraft d).run b).2.config = b.config := by
  unfold putDraft
  show (if _ then _ else _ : Build).config = _
  split <;> rfl

/-- Storing a draft whose task is numbered keeps the drafts numbered. -/
theorem Build.Numbered.putDraft {b : Build} {d : Draft} (hb : b.Numbered)
    (hd : d.task.NumberedIn b.config.runtime.names) : ((putDraft d).run b).2.Numbered := by
  intro e he
  rw [putDraft_config]
  rw [putDraft_drafts] at he
  split at he
  · obtain ⟨e', he', rfl⟩ := List.mem_map.1 he
    split
    · exact hd
    · exact hb e' he'
  · rcases List.mem_append.1 he with he | he
    · exact hb e he
    · rw [List.mem_singleton.1 he]
      exact hd

/-- A lookup finds a draft of the build, whose task is numbered. -/
theorem keepsNumbered_draft?_bind {β : Type} {u : String} {f : Option Draft → Compiling β}
    (hsome : ∀ d b, b.Numbered → d.task.NumberedIn b.config.runtime.names →
      ((f (some d)).run b).2.Numbered ∧
        b.config.runtime.names <+: ((f (some d)).run b).2.config.runtime.names)
    (hnone : KeepsNumbered (f none)) : KeepsNumbered (draft? u >>= f) := by
  intro b hb
  show ((f (draftIn b.drafts u)).run b).2.Numbered ∧
    b.config.runtime.names <+: ((f (draftIn b.drafts u)).run b).2.config.runtime.names
  cases h : draftIn b.drafts u with
  | none => exact hnone b hb
  | some d => exact hsome d b hb (hb d (List.mem_of_find?_eq_some h))

/-- Defining a task adds a section to its draft, or stores a new draft numbered by the task's
place among the runtime names, after declaring an implicit task there. -/
theorem keepsNumbered_define (fams : List String) (sec : Section) (si : Nat) (line : String)
    (r : TaskRef) : KeepsNumbered (define fams sec si line r) := by
  unfold define
  split
  · exact keepsNumbered_bind (keepsNumbered_fail _ _ _) fun _ => keepsNumbered_pure ()
  refine keepsNumbered_draft?_bind (fun d b hb hd => ?_) ?_
  · dsimp only
    split
    · exact ⟨hb.putDraft hd, (putDraft_config _ _).symm ▸ List.prefix_refl _⟩
    · exact ⟨hb, List.prefix_refl _⟩
  intro b hb
  simp only [StateT.run_bind, StateT.run_get, pure_bind]
  split
  · split
    · exact keepsNumbered_bind (keepsNumbered_fail _ _ _) (fun _ => keepsNumbered_pure ()) b hb
    · next hnew _ =>
      -- an implicit task is declared after the runtime namespaces
      simp only [StateT.run_bind, StateT.run_modify, StateT.run_get, pure_bind]
      have hnames : (b.config.runtime.add r.name []).names = b.config.runtime.names ++ [r.name] := by
        simp_all [Namespaces.names_add]
      set c : Build := { b with config := { b.config with runtime := b.config.runtime.add r.name [] } }
      have hpre : b.config.runtime.names <+: c.config.runtime.names :=
        hnames ▸ List.prefix_append _ _
      have hc : c.Numbered := fun dr hdr => (hb dr hdr).mono hpre
      have hmem : r.name ∈ c.config.runtime.names := by
        show r.name ∈ (b.config.runtime.add r.name []).names
        simp [hnames]
      split
      · exact (keepsNumbered_fail _ _ _).from hc hpre
      · exact (keepsNumbered_fail _ _ _).from hc hpre
      · split
        · exact (keepsNumbered_fail _ _ _).from hc hpre
        · exact ⟨hc.putDraft ⟨hmem, rfl⟩, (putDraft_config _ _).symm ▸ hpre⟩
  · next hhas =>
    have hmem : r.name ∈ b.config.runtime.names :=
      Namespaces.mem_names_of_has (by simpa using hhas)
    have hpre := List.prefix_refl b.config.runtime.names
    simp only [StateT.run_bind, StateT.run_get, pure_bind]
    split
    · exact (keepsNumbered_fail _ _ _).from hb hpre
    · exact (keepsNumbered_fail _ _ _).from hb hpre
    · split
      · exact (keepsNumbered_fail _ _ _).from hb hpre
      · exact ⟨hb.putDraft ⟨hmem, rfl⟩, (putDraft_config _ _).symm ▸ hpre⟩

theorem keepsNumbered_resolveOffset (ctx : Context) (sec : Section) (line : String) (r : TaskRef)
    (off : String) : KeepsNumbered (resolveOffset ctx sec line r off) := by
  unfold resolveOffset
  repeat' with_reducible first
    | exact keepsNumbered_pure _
    | exact keepsNumbered_fail _ _ _
    | refine keepsNumbered_bind ?_ fun _ => ?_
    | split
    | dsimp only

/-- Defining the tasks numbers them by their place among the runtime names. -/
theorem keepsNumbered_defineTasks (ctx : Context) (fams : List String) (secs : List Section) :
    KeepsNumbered (defineTasks ctx fams secs) := by
  unfold defineTasks
  repeat' with_reducible first
    | exact keepsNumbered_pure _
    | exact keepsNumbered_fail _ _ _
    | exact keepsNumbered_draft? _
    | exact keepsNumbered_define _ _ _ _ _
    | exact keepsNumbered_resolveOffset _ _ _ _ _
    | refine keepsNumbered_forIn _ _ fun _ _ => ?_
    | refine keepsNumbered_bind ?_ fun _ => ?_
    | split

/-- The first stage of compiling leaves its drafts numbered. -/
theorem Build.numbered_defineTasks {ctx : Context} {fams : List String} {secs : List Section}
    {cfg : WorkflowConfig} {b : Build} (h : stage (defineTasks ctx fams secs) { config := cfg } = .ok ((), b)) :
    b.Numbered := by
  have hk := (keepsNumbered_defineTasks ctx fams secs { config := cfg } fun _ h => by cases h).1
  rwa [stage_eq_ok h] at hk

end CycleSched.Graph
