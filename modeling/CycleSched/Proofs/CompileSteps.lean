import CycleSched.Graph.Compile

/-!
# Compiling steps that note no problem

Compiling runs in a state monad over a `Build`. A step that finds a problem notes it and goes
on, and a stage that noted one ends the compiling; so what a compiled workflow holds is what
every step guarantees when it notes no new problem. `Clean P m Q` says so: run from a build
where `P` holds, `m` answers `a` and leaves a build where `Q a` holds, unless it noted a problem.

Clean steps chain because no step takes a problem back: every step only adds problems, keeps a
draft for each task that had one, and keeps how each output was referenced (`Growing`). A
property that growing keeps (`Stable`) therefore holds after any later step.

The rules for `pure`, `bind`, `get`, `modify` and `for` loops come first, then the steps of
compiling one by one.
-/

namespace CycleSched.Graph

/-- The first draft of task `u` among some drafts. -/
def draftIn (ds : List Draft) (u : String) : Option Draft := ds.find? (·.task.name == u)

/-- How output `o` of task `u` has been referenced so far: optionally (true) or as required. -/
def Build.mark (b : Build) (u o : String) : Option Bool := ((b.marks.lookup u).getD []).lookup o

/-- What no step of compiling undoes: problems are only added, a task with a draft keeps one,
and a recorded reference keeps its optionality. -/
structure Build.Grows (b b' : Build) : Prop where
  errors : b.errors <+: b'.errors
  drafted : ∀ u, (draftIn b.drafts u).isSome → (draftIn b'.drafts u).isSome
  marks : ∀ u o v, b.mark u o = some v → b'.mark u o = some v

namespace Build.Grows

theorem refl (b : Build) : b.Grows b := ⟨List.prefix_refl _, fun _ h => h, fun _ _ _ h => h⟩

theorem trans {b₁ b₂ b₃ : Build} (h₁ : b₁.Grows b₂) (h₂ : b₂.Grows b₃) : b₁.Grows b₃ :=
  ⟨h₁.errors.trans h₂.errors, fun u h => h₂.drafted u (h₁.drafted u h),
    fun u o v h => h₂.marks u o v (h₁.marks u o v h)⟩

/-- Two builds with the same drafts and references, the second with more problems. -/
theorem of_tables {b b' : Build} (hd : b'.drafts = b.drafts) (hm : b'.marks = b.marks)
    (he : b.errors <+: b'.errors) : b.Grows b' :=
  ⟨he, fun u h => hd ▸ h, fun u o v h => by rw [Build.mark, hm]; exact h⟩

/-- Growing from `b` to `b₂` through `b₁` without a new problem in all adds none on the way. -/
theorem errors_eq {b b₁ b₂ : Build} (h₁ : b.Grows b₁) (h₂ : b₁.Grows b₂)
    (he : b₂.errors = b.errors) : b₁.errors = b.errors := by
  have hle : b₁.errors.length ≤ b.errors.length := he ▸ h₂.errors.length_le
  exact (h₁.errors.eq_of_length (Nat.le_antisymm h₁.errors.length_le hle)).symm

end Build.Grows

/-- A property that holds on as the build grows. -/
def Stable (P : Build → Prop) : Prop := ∀ b b' : Build, b.Grows b' → P b → P b'

/-- A step after which the build has grown. -/
def Growing {α : Type} (m : Compiling α) : Prop := ∀ b : Build, b.Grows (m.run b).2

/-- Run from a build where `P` holds, the step answers `a` and leaves a build where `Q a` holds,
unless it noted a new problem. -/
def Clean {α : Type} (P : Build → Prop) (m : Compiling α) (Q : α → Build → Prop) : Prop :=
  ∀ b, P b → (m.run b).2.errors = b.errors → Q (m.run b).1 (m.run b).2

/-! ## Rules -/

section Rules

variable {α β : Type} {P S : Build → Prop} {Q : α → Build → Prop}

theorem growing_pure (a : α) : Growing (pure a : Compiling α) := Build.Grows.refl

theorem growing_bind {m : Compiling α} {f : α → Compiling β} (hm : Growing m)
    (hf : ∀ a, Growing (f a)) : Growing (m >>= f) :=
  fun b => (hm b).trans (hf _ _)

theorem growing_get : Growing (get : Compiling Build) := Build.Grows.refl

theorem growing_modify {f : Build → Build} (hf : ∀ b : Build, b.Grows (f b)) :
    Growing (modify f : Compiling Unit) := hf

theorem growing_forIn (l : List α) (init : β) {f : α → β → Compiling (ForInStep β)}
    (hf : ∀ a x, Growing (f a x)) : Growing (forIn l init f) := by
  induction l generalizing init with
  | nil => exact growing_pure init
  | cons a l ih =>
    rw [List.forIn_cons]
    refine growing_bind (hf a init) fun r => ?_
    cases r with
    | done x => exact growing_pure x
    | yield x => exact ih x

theorem clean_pure (a : α) (h : ∀ b, P b → Q a b) : Clean P (pure a) Q :=
  fun b hb _ => h b hb

/-- Two clean steps make a clean step: a later step cannot take back a problem noted earlier. -/
theorem clean_bind {m : Compiling α} {f : α → Compiling β} {R : β → Build → Prop}
    (hm : Growing m) (hf : ∀ a, Growing (f a)) (h₁ : Clean P m Q) (h₂ : ∀ a, Clean (Q a) (f a) R) :
    Clean P (m >>= f) R := by
  intro b hb he
  have he₁ : (m.run b).2.errors = b.errors := (hm b).errors_eq (hf _ _) he
  exact h₂ _ _ (h₁ b hb he₁) (he.trans he₁.symm)

theorem clean_get : Clean P get fun a b => a = b ∧ P b :=
  fun _ hb _ => ⟨rfl, hb⟩

theorem clean_modify {f : Build → Build} {R : Unit → Build → Prop}
    (h : ∀ b, P b → (f b).errors = b.errors → R () (f b)) : Clean P (modify f : Compiling Unit) R :=
  fun b hb he => h b hb he

theorem clean_mono {m : Compiling α} {U : Build → Prop} {V : α → Build → Prop}
    (h : Clean P m Q) (hP : ∀ b, U b → P b) (hQ : ∀ a b, Q a b → V a b) : Clean U m V :=
  fun b hb he => hQ _ _ (h b (hP b hb) he)

/-- A growing step keeps every stable property. -/
theorem clean_frame {m : Compiling α} (hm : Growing m) (hS : Stable S) (h : Clean P m Q) :
    Clean (fun b => P b ∧ S b) m fun a b => Q a b ∧ S b :=
  fun b hb he => ⟨h b hb.1 he, hS _ _ (hm b) hb.2⟩

/-- A loop whose body keeps `P`, yields, and leaves a stable mark `Q x` for its element keeps
`P` and leaves the marks of all elements. -/
theorem clean_forIn {l : List α} {init : β} {f : α → β → Compiling (ForInStep β)}
    {Q : α → Build → Prop} (hg : ∀ x y, Growing (f x y)) (hQ : ∀ x, Stable (Q x))
    (hf : ∀ x ∈ l, ∀ y, Clean P (f x y) fun r b => (∃ y', r = .yield y') ∧ P b ∧ Q x b) :
    Clean P (forIn l init f) fun _ b => P b ∧ ∀ x ∈ l, Q x b := by
  induction l generalizing init with
  | nil => exact clean_pure init fun b hb => ⟨hb, by simp⟩
  | cons x l ih =>
    rw [List.forIn_cons]
    refine clean_bind (hg x init) (fun r => ?_) (hf x (List.mem_cons_self ..) init) fun r => ?_
    · cases r with
      | done y => exact growing_pure y
      | yield y => exact growing_forIn l y hg
    cases r with
    | done y => exact fun b hb => absurd hb.1 (by simp)
    | yield y =>
      -- the mark of `x` is stable, so the rest of the loop keeps it
      have hl := clean_frame (growing_forIn l y hg) (hQ x)
        (ih fun x' hx' => hf x' (List.mem_cons_of_mem x hx'))
      refine clean_mono hl (fun b hb => hb.2) fun _ b hb => ⟨hb.1.1, ?_⟩
      intro x' hx'
      rcases List.mem_cons.1 hx' with rfl | hx'
      · exact hb.2
      · exact hb.1.2 x' hx'

/-- A loop keeps an invariant that each of its turns keeps, whether it goes on or stops. -/
theorem clean_forIn_inv {l : List α} {init : β} {f : α → β → Compiling (ForInStep β)}
    (hg : ∀ x y, Growing (f x y)) (hf : ∀ x ∈ l, ∀ y, Clean P (f x y) fun _ => P) :
    Clean P (forIn l init f) fun _ => P := by
  induction l generalizing init with
  | nil => exact clean_pure init fun _ hb => hb
  | cons x l ih =>
    rw [List.forIn_cons]
    refine clean_bind (hg x init) (fun r => ?_) (hf x (List.mem_cons_self ..) init) fun r => ?_
    · cases r with
      | done y => exact growing_pure y
      | yield y => exact growing_forIn l y hg
    cases r with
    | done y => exact clean_pure y fun _ hb => hb
    | yield y => exact ih fun x' hx' => hf x' (List.mem_cons_of_mem x hx')

/-- What every turn of a loop answers and its start satisfy, the loop answers. -/
theorem forIn_answer {l : List α} {init : β} {f : α → β → Compiling (ForInStep β)} (G : β → Prop)
    (hinit : G init) (hf : ∀ x y b, G y → G ((f x y).run b).1.value) (b : Build) :
    G ((forIn l init f).run b).1 := by
  induction l generalizing init b with
  | nil => exact hinit
  | cons x l ih =>
    rw [List.forIn_cons]
    have hx := hf x init b hinit
    show G ((match ((f x init).run b).1 with
      | .done y => pure y
      | .yield y => forIn l y f).run ((f x init).run b).2).1
    cases hr : ((f x init).run b).1 with
    | done y => rw [hr] at hx; exact hx
    | yield y => rw [hr] at hx; exact ih hx _

end Rules

/-! ## The steps of compiling -/

section Steps

variable {α : Type} {P : Build → Prop}

theorem growing_fail (sec expr reason : String) : Growing (fail sec expr reason) :=
  fun _ => .of_tables rfl rfl (List.prefix_append _ _)

/-- Noting a problem is never clean. -/
theorem clean_fail (sec expr reason : String) {Q : Unit → Build → Prop} :
    Clean P (fail sec expr reason) Q := by
  intro b _ he
  rw [show ((fail sec expr reason).run b).2.errors = b.errors ++ [.graph sec expr reason] from rfl]
    at he
  simp at he

/-- A problem noted, then anything: never clean. -/
theorem clean_fail_bind (sec expr reason : String) {f : Unit → Compiling α}
    {Q : α → Build → Prop} (hf : ∀ a, Growing (f a)) : Clean P (fail sec expr reason >>= f) Q :=
  clean_bind (growing_fail sec expr reason) hf (clean_fail sec expr reason (Q := fun _ _ => False))
    fun _ _ h => False.elim h

theorem growing_draft? (u : String) : Growing (draft? u) := Build.Grows.refl

theorem clean_draft? (u : String) : Clean P (draft? u) fun x b => x = draftIn b.drafts u ∧ P b :=
  fun _ hb _ => ⟨rfl, hb⟩

/-- The drafts after storing `d`: it replaces the drafts of its task, or is added after all. -/
theorem putDraft_drafts (d : Draft) (b : Build) :
    ((putDraft d).run b).2.drafts = if b.drafts.any (·.task.name == d.task.name) then
      b.drafts.map (fun e => if e.task.name == d.task.name then d else e) else b.drafts ++ [d] := by
  unfold putDraft
  show (if _ then _ else _ : Build).drafts = _
  split <;> rfl

theorem find?_replace (l : List Draft) (d : Draft) (u : String) :
    (l.map (fun e => if e.task.name == d.task.name then d else e)).find? (·.task.name == u) =
      if u = d.task.name then (if l.any (·.task.name == d.task.name) then some d else none)
      else l.find? (·.task.name == u) := by
  induction l with
  | nil => simp
  | cons e l ih =>
    rw [List.map_cons, List.find?_cons, List.find?_cons, ih]
    by_cases he : e.task.name = d.task.name
    · by_cases hu : u = d.task.name
      · simp [he, hu]
      · have h₁ : (d.task.name == u) = false := by simp [Ne.symm hu]
        simp [he, hu, h₁]
    · by_cases hu : u = d.task.name
      · subst hu
        have h₁ : (e.task.name == d.task.name) = false := by simp [he]
        simp [h₁]
      · simp [he, hu]

theorem find?_append_fresh (l : List Draft) (d : Draft) (u : String)
    (h : l.any (·.task.name == d.task.name) = false) :
    (l ++ [d]).find? (·.task.name == u) =
      if u = d.task.name then some d else l.find? (·.task.name == u) := by
  rw [List.find?_append]
  by_cases hu : u = d.task.name
  · subst hu
    have hnone : l.find? (·.task.name == d.task.name) = none := by
      rw [List.find?_eq_none]
      simpa using h
    simp [hnone]
  · simp [hu, Ne.symm hu]

/-- Storing a draft makes it the draft of its task and leaves those of the others. -/
theorem draftIn_putDraft (d : Draft) (b : Build) (u : String) :
    draftIn ((putDraft d).run b).2.drafts u = if u = d.task.name then some d else draftIn b.drafts u := by
  rw [putDraft_drafts, draftIn]
  split
  · next hany =>
    rw [find?_replace, hany]
    rfl
  · next hnone => exact find?_append_fresh _ _ _ (Bool.eq_false_iff.2 hnone)

/-- Storing a draft touches nothing but the drafts. -/
theorem putDraft_tables (d : Draft) (b : Build) :
    ((putDraft d).run b).2.errors = b.errors ∧ ((putDraft d).run b).2.marks = b.marks := by
  unfold putDraft
  show (if _ then _ else _ : Build).errors = _ ∧ (if _ then _ else _ : Build).marks = _
  split <;> exact ⟨rfl, rfl⟩

theorem growing_putDraft (d : Draft) : Growing (putDraft d) := by
  intro b
  obtain ⟨herr, hmarks⟩ := putDraft_tables d b
  refine ⟨herr ▸ List.prefix_refl _, fun u hu => ?_, fun u o v h => ?_⟩
  · rw [draftIn_putDraft]
    split
    · rfl
    · exact hu
  · rw [Build.mark, hmarks]
    exact h

/-! ### Recording how an output is referenced -/

theorem lookup_filter_ne {β : Type} (l : List (String × β)) {u u' : String} (h : u' ≠ u) :
    (l.filter (·.1 != u)).lookup u' = l.lookup u' := by
  induction l with
  | nil => rfl
  | cons p l ih =>
    obtain ⟨k, x⟩ := p
    by_cases hk : k = u
    · subst hk
      have hne : (u' == k) = false := by simp [h]
      simp [List.lookup_cons, ih, hne]
    · simp [List.lookup_cons, ih, hk]

theorem lookup_filter_self {β : Type} (l : List (String × β)) (u : String) :
    (l.filter (·.1 != u)).lookup u = none := by
  induction l with
  | nil => rfl
  | cons p l ih =>
    obtain ⟨k, x⟩ := p
    by_cases hk : k = u
    · simp [hk, ih]
    · have hne : (u == k) = false := by simp [Ne.symm hk]
      simp [List.lookup_cons, ih, hk, hne]

theorem lookup_append {β : Type} (l l' : List (String × β)) (a : String) :
    (l ++ l').lookup a = (l.lookup a).or (l'.lookup a) := by
  induction l with
  | nil => rfl
  | cons p l ih =>
    obtain ⟨k, x⟩ := p
    by_cases hk : a = k
    · simp [hk]
    · have hne : (a == k) = false := by simp [hk]
      simp [List.lookup_cons, ih, hne]

/-- The references after recording output `o` of `u` as referenced with optionality `v`. -/
def recordMark (marks : List (String × List (String × Bool))) (u o : String) (v : Bool) :
    List (String × List (String × Bool)) :=
  marks.filter (·.1 != u) ++ [(u, ((marks.lookup u).getD []) ++ [(o, v)])]

theorem mark_recordMark (b : Build) (u o : String) (v : Bool) (u' o' : String) :
    ({ b with marks := recordMark b.marks u o v } : Build).mark u' o' =
      if u' = u then (((b.marks.lookup u).getD []) ++ [(o, v)]).lookup o' else b.mark u' o' := by
  unfold Build.mark recordMark
  dsimp only
  split
  · next hu =>
    subst hu
    rw [lookup_append, lookup_filter_self]
    simp
  · next hu =>
    rw [lookup_append, lookup_filter_ne _ hu]
    have hne : (u' == u) = false := by simp [hu]
    cases b.marks.lookup u' <;> simp [List.lookup_cons, hne]

/-- Recording a new reference makes it the output's reference. -/
theorem mark_recordMark_self {b : Build} {u o : String} (v : Bool) (h : b.mark u o = none) :
    ({ b with marks := recordMark b.marks u o v } : Build).mark u o = some v := by
  rw [mark_recordMark, if_pos rfl, lookup_append]
  unfold Build.mark at h
  simp [h]

/-- Recording a reference keeps those recorded before. -/
theorem mark_recordMark_of_mark {b : Build} {u o u' o' : String} (v : Bool) {v' : Bool}
    (h : b.mark u' o' = some v') :
    ({ b with marks := recordMark b.marks u o v } : Build).mark u' o' = some v' := by
  rw [mark_recordMark]
  split
  · next hu =>
    subst hu
    unfold Build.mark at h
    rw [lookup_append, h]
    rfl
  · exact h

theorem markOutput_of_none {sec : Section} {line u o : String} {v : Bool} {b : Build}
    (h : b.mark u o = none) :
    (markOutput sec line u o v).run b = ((), { b with marks := recordMark b.marks u o v }) := by
  unfold markOutput
  simp only [Build.mark] at h
  simp [h, recordMark]
  rfl

theorem markOutput_of_eq {sec : Section} {line u o : String} {v : Bool} {b : Build}
    (h : b.mark u o = some v) : (markOutput sec line u o v).run b = ((), b) := by
  unfold markOutput
  simp only [Build.mark] at h
  simp [h]
  rfl

/-- Referencing an output both optionally and as required is a problem. -/
theorem markOutput_of_ne {sec : Section} {line u o : String} {v v' : Bool} {b : Build}
    (h : b.mark u o = some v') (hv : v' ≠ v) :
    ∃ e, ((markOutput sec line u o v).run b).2 = { b with errors := b.errors ++ [e] } := by
  unfold markOutput
  simp only [Build.mark] at h
  simp [h, hv, fail]
  exact ⟨_, rfl⟩

theorem growing_markOutput (sec : Section) (line u o : String) (v : Bool) :
    Growing (markOutput sec line u o v) := by
  intro b
  cases hm : b.mark u o with
  | none =>
    rw [markOutput_of_none hm]
    exact ⟨List.prefix_refl _, fun _ h => h, fun _ _ _ h => mark_recordMark_of_mark v h⟩
  | some v' =>
    by_cases hv : v' = v
    · subst hv
      rw [markOutput_of_eq hm]
      exact .refl b
    · obtain ⟨e, he⟩ := markOutput_of_ne hm hv
      rw [he]
      exact .of_tables rfl rfl (List.prefix_append _ _)

/-- A clean record of a reference leaves it recorded; `P` must survive recording it anew. -/
theorem clean_markOutput (sec : Section) (line u o : String) (v : Bool)
    (hP : ∀ b, b.mark u o = none → P b → P { b with marks := recordMark b.marks u o v }) :
    Clean P (markOutput sec line u o v) fun _ b => b.mark u o = some v ∧ P b := by
  intro b hb he
  cases hm : b.mark u o with
  | none =>
    rw [markOutput_of_none hm]
    exact ⟨mark_recordMark_self v hm, hP b hm hb⟩
  | some v' =>
    by_cases hv : v' = v
    · subst hv
      rw [markOutput_of_eq hm]
      exact ⟨hm, hb⟩
    · obtain ⟨e, he'⟩ := markOutput_of_ne hm hv
      rw [he'] at he
      simp at he

end Steps

end CycleSched.Graph
