import CycleSched.Proofs.CompileStages
import CycleSched.Proofs.FormulaGrammar

/-!
# Compiling the edges

The second stage of compiling walks every edge of every section and, for each target, records
how the edge references task outputs and adds the edge's condition to the target's dependency on
that section; then it works out each task's required outputs.

Along a clean run of it the build keeps an invariant (`EdgeInv`): the drafts keep the tasks they
had, each output of a task is recorded once, and every recorded reference is one the graph makes.
Every step that notes no problem leaves its references recorded (`Marked`), and every dependency
it touches as compiling leaves it (`Dependency.Compiled`): a condition that reads each trigger
once, left to right, with no conjunction or disjunction of fewer than two parts, over triggers
that each name an output their task has. The stage as a whole is assembled from these facts in
the next file (`compileEdges_clean`).
-/

namespace CycleSched.Graph

/-! ## Reading the edges -/

/-- An edge as the graph reader gives it: a condition with every conjunction and disjunction of
at least two parts, and, below a condition, at least one target and no target with an offset. -/
structure Edge.Sound (e : Edge) : Prop where
  wellFormed : ∀ f, e.lhs = some f → f.WellFormed
  targets : e.lhs.isSome → e.rhs ≠ [] ∧ ∀ r ∈ e.rhs, r.offset = none

/-- The targets read from the right of `=>` carry no offset, and there is one at least. -/
theorem parseTargets_go_sound :
    ∀ (i : Nat) (ts : List Token) (refs : List TaskRef), parseTargets.go i ts = .ok refs →
      (∀ r ∈ refs, r.offset = none) ∧ (i % 2 = 0 → ts ≠ [] → refs ≠ [])
  | i, [], refs, h => by
    cases h
    exact ⟨by simp, fun _ h => absurd rfl h⟩
  | i, t :: rest, refs, h => by
    unfold parseTargets.go at h
    split at h
    · next hodd =>
      -- a connective between two targets
      cases t with
      | and =>
        refine ⟨(parseTargets_go_sound (i + 1) rest refs h).1, fun heven _ => ?_⟩
        simp only [beq_iff_eq] at hodd
        omega
      | _ => cases h
    · cases t with
      | ref r =>
        dsimp only at h
        split at h
        · cases h
        · next hoff =>
          cases hgo : parseTargets.go (i + 1) rest with
          | error e => rw [hgo] at h; cases h
          | ok refs' =>
            rw [hgo] at h
            cases h
            refine ⟨fun r' hr' => ?_, fun _ _ => List.cons_ne_nil _ _⟩
            rcases List.mem_cons.1 hr' with rfl | hr'
            · simpa using hoff
            · exact (parseTargets_go_sound (i + 1) rest refs' hgo).1 r' hr'
      | _ => cases h

theorem parseTargets_sound {ts : List Token} {refs : List TaskRef}
    (h : parseTargets ts = .ok refs) : refs ≠ [] ∧ ∀ r ∈ refs, r.offset = none := by
  unfold parseTargets at h
  split at h
  · cases h
  · next refs' hgo =>
    split at h
    · cases h
    · next hlen =>
      cases h
      have hts : ts ≠ [] := by
        rintro rfl
        exact hlen rfl
      exact ⟨(parseTargets_go_sound 0 ts refs hgo).2 rfl hts, (parseTargets_go_sound 0 ts refs hgo).1⟩

theorem mem_of_mapM_eq_ok {α β ε : Type} {f : α → Except ε β} :
    ∀ {l : List α} {bs : List β}, l.mapM f = .ok bs → ∀ b ∈ bs, ∃ a ∈ l, f a = .ok b
  | [], bs, h => by
    cases h
    simp
  | a :: l, bs, h => by
    rw [List.mapM_cons] at h
    cases ha : f a with
    | error e => rw [ha] at h; cases h
    | ok b₀ =>
      cases hl : l.mapM f with
      | error e => rw [ha, hl] at h; cases h
      | ok bs' =>
        rw [ha, hl] at h
        cases h
        intro b hb
        rcases List.mem_cons.1 hb with rfl | hb
        · exact ⟨a, List.mem_cons_self .., ha⟩
        · obtain ⟨a', ha', hf⟩ := mem_of_mapM_eq_ok hl b hb
          exact ⟨a', List.mem_cons_of_mem a ha', hf⟩

/-- Every edge a graph line reads as is sound. -/
theorem parseLine_sound {line : String} {es : List Edge} (h : parseLine line = .ok es) :
    ∀ e ∈ es, e.Sound := by
  unfold parseLine at h
  obtain ⟨ts, -, h⟩ := Except.bind_eq_ok_iff.1 h
  dsimp only at h
  split at h
  · cases h
  split at h
  · -- a line that only names tasks has no condition
    obtain ⟨f, -, h⟩ := Except.bind_eq_ok_iff.1 h
    cases h
    intro e he
    rw [List.mem_singleton.1 he]
    exact ⟨fun _ h => (by cases h), fun h => (by cases h)⟩
  · intro e he
    obtain ⟨⟨l, r⟩, -, hpair⟩ := mem_of_mapM_eq_ok h e he
    obtain ⟨lhs, hlhs, hpair⟩ := Except.bind_eq_ok_iff.1 hpair
    obtain ⟨rhs, hrhs, hpair⟩ := Except.bind_eq_ok_iff.1 hpair
    cases hpair
    refine ⟨fun f hf => ?_, fun _ => parseTargets_sound hrhs⟩
    cases hf
    exact (parseFormula_eq_ok_iff.1 hlhs).wellFormed

/-- A fold that keeps a property of every member of the first list it builds. -/
theorem foldl_fst_forall {α β γ : Type} {p : β → Prop} {g : List β × γ → α → List β × γ}
    (hg : ∀ acc a, (∀ x ∈ acc.1, p x) → ∀ x ∈ (g acc a).1, p x) :
    ∀ (l : List α) (acc : List β × γ), (∀ x ∈ acc.1, p x) → ∀ x ∈ (l.foldl g acc).1, p x
  | [], _, h => h
  | a :: l, acc, h => foldl_fst_forall hg l (g acc a) (hg acc a h)

/-- Every edge of every section the graph reader gives is sound. -/
theorem readSections_sound (ctx : Context) (graph : GraphSection) :
    ∀ sec ∈ (readSections ctx graph).1, ∀ e ∈ sec.edges, e.Sound := by
  unfold readSections
  -- the sections are read one after another, and the edges of each line by line
  refine foldl_fst_forall (p := fun sec : Section => ∀ e ∈ sec.edges, e.Sound)
    (fun ⟨secs, errs⟩ key hsecs => ?_) _ _ (by simp)
  dsimp only
  split
  · exact hsecs
  · intro sec hsec
    rcases List.mem_append.1 hsec with hsec | hsec
    · exact hsecs sec hsec
    · rw [List.mem_singleton.1 hsec]
      refine foldl_fst_forall (p := Edge.Sound) (fun acc line hacc => ?_) _ _ (by simp)
      split
      · exact hacc
      · next es hes =>
        intro e he
        rcases List.mem_append.1 he with he | he
        · exact hacc e he
        · exact parseLine_sound hes e he

/-- Every section the graph reader gives has the recurrence read from its key. -/
theorem readSections_parsed (ctx : Context) (graph : GraphSection) :
    ∀ sec ∈ (readSections ctx graph).1, ctx.parseSequence sec.name = .ok sec.seq := by
  unfold readSections
  refine foldl_fst_forall (p := fun sec : Section => ctx.parseSequence sec.name = .ok sec.seq)
    (fun ⟨secs, errs⟩ key hsecs => ?_) _ _ (by simp)
  dsimp only
  split
  · exact hsecs
  · next seq hseq =>
    intro sec hsec
    rcases List.mem_append.1 hsec with hsec | hsec
    · exact hsecs sec hsec
    · rw [List.mem_singleton.1 hsec]
      exact hseq

/-! ## What a reference names -/

/-- The output a reference names: a standard one by its qualifier, or the qualifier itself. -/
def TaskRef.output (r : TaskRef) : String := (outputAlias r.qualifier).getD r.qualifier

/-- The outputs a reference names, each with whether it names it optionally: `finish` names
both ends of a run optionally. -/
def TaskRef.marks (r : TaskRef) : List (String × Bool) :=
  if r.qualifier == "finish" then [("succeeded", true), ("failed", true)]
  else [(r.output, r.optional)]

/-- A target of `=>` names an output only with a qualifier or `?`. -/
def TaskRef.explicit (r : TaskRef) : Bool := r.optional || !r.qualifier.isEmpty

/-- The references of an edge that name outputs: every reference of its condition, and its
targets that name one explicitly. -/
def Edge.markedRefs (e : Edge) : List TaskRef := e.lhsRefs ++ e.rhs.filter TaskRef.explicit

/-- The build records every output the reference names as it names it. -/
def Marked (b : Build) (r : TaskRef) : Prop := ∀ p ∈ r.marks, b.mark r.name p.1 = some p.2

theorem marked_stable (r : TaskRef) : Stable fun b => Marked b r :=
  fun _ _ hg h p hp => hg.marks _ _ _ (h p hp)

/-- A standard output named by a qualifier is built in. -/
theorem isBuiltinOutput_of_outputAlias {q o : String} (h : outputAlias q = some o) :
    isBuiltinOutput o = true := by
  unfold outputAlias at h
  split at h <;> cases h <;> decide

theorem TaskDef.hasOutput_of_builtin (d : TaskDef) {o : String} (h : isBuiltinOutput o = true) :
    d.hasOutput o = true := by
  simp [TaskDef.hasOutput, h]

/-! ## Conditions -/

mutual

/-- The triggers a condition reads, left to right. -/
def Condition.leaves : Condition → List Nat
  | .trigger i => [i]
  | .all parts => Condition.leavesOf parts
  | .any parts => Condition.leavesOf parts

/-- The triggers some conditions read, left to right. -/
def Condition.leavesOf : List Condition → List Nat
  | [] => []
  | c :: rest => c.leaves ++ Condition.leavesOf rest

end

/-- Every conjunction and disjunction of the condition has at least two parts. -/
inductive Condition.WellFormed : Condition → Prop
  | trigger (i : Nat) : WellFormed (.trigger i)
  | all {parts : List Condition} :
      2 ≤ parts.length → (∀ p ∈ parts, WellFormed p) → WellFormed (.all parts)
  | any {parts : List Condition} :
      2 ≤ parts.length → (∀ p ∈ parts, WellFormed p) → WellFormed (.any parts)

/-- A trigger names an output that one of the tasks `T` has, built in or declared. -/
def TriggerNamesOutput (T : List TaskDef) (t : Trigger) : Prop :=
  ∃ d ∈ T, d.name = t.task ∧ d.hasOutput t.output = true

/-- A dependency as compiling leaves it: a condition that reads each trigger once, left to
right, with every conjunction and disjunction of at least two parts, and triggers that each name
an output one of the tasks `T` has. -/
structure Dependency.Compiled (T : List TaskDef) (dep : Dependency) : Prop where
  condition : ∃ c, dep.condition = some c ∧ c.leaves = List.range dep.triggers.length ∧
    c.WellFormed
  triggers : ∀ t ∈ dep.triggers, TriggerNamesOutput T t

/-- Compiling part of a condition adds triggers `ts` to a dependency, each naming an output of
one of the tasks `T`, and reads exactly those, in order. -/
def Extends (T : List TaskDef) (dep dep' : Dependency) (leaves : List Nat) : Prop :=
  ∃ ts : List Trigger, dep' = { dep with triggers := dep.triggers ++ ts } ∧
    leaves = List.range' dep.triggers.length ts.length ∧ ∀ t ∈ ts, TriggerNamesOutput T t

theorem Extends.refl (T : List TaskDef) (dep : Dependency) : Extends T dep dep [] :=
  ⟨[], by simp, by simp, by simp⟩

theorem Extends.trans {T : List TaskDef} {dep₁ dep₂ dep₃ : Dependency} {l₁ l₂ : List Nat}
    (h₁ : Extends T dep₁ dep₂ l₁) (h₂ : Extends T dep₂ dep₃ l₂) : Extends T dep₁ dep₃ (l₁ ++ l₂) := by
  obtain ⟨ts₁, rfl, rfl, hts₁⟩ := h₁
  obtain ⟨ts₂, rfl, rfl, hts₂⟩ := h₂
  refine ⟨ts₁ ++ ts₂, by simp, ?_, fun t ht => ?_⟩
  · simp
  · rcases List.mem_append.1 ht with ht | ht
    · exact hts₁ t ht
    · exact hts₂ t ht

/-! ## The invariant of the second stage -/

/-- What holds all through a clean second stage: the drafts keep the tasks `T` they had at its
start, each output of a task is recorded once, and every recorded reference is one `R`
allows. -/
structure EdgeInv (T : List TaskDef) (R : String → String → Bool → Prop) (b : Build) : Prop where
  tasks : b.drafts.map (·.task) = T
  keys : ∀ u, (((b.marks.lookup u).getD []).map (·.1)).Nodup
  marks : ∀ u o v, b.mark u o = some v → R u o v

section Invariant

variable {T : List TaskDef} {R : String → String → Bool → Prop}

theorem EdgeInv.of_tables {b b' : Build} (h : EdgeInv T R b) (hd : b'.drafts = b.drafts)
    (hm : b'.marks = b.marks) : EdgeInv T R b' := by
  refine ⟨hd ▸ h.tasks, fun u => hm ▸ h.keys u, fun u o v hv => h.marks u o v ?_⟩
  rwa [Build.mark, hm] at hv

theorem lookup_eq_some_iff_mem {l : List (String × Bool)} (hl : (l.map (·.1)).Nodup) (o : String)
    (v : Bool) : l.lookup o = some v ↔ (o, v) ∈ l := by
  induction l with
  | nil => simp
  | cons p l ih =>
    obtain ⟨k, x⟩ := p
    rw [List.map_cons, List.nodup_cons] at hl
    by_cases hk : o = k
    · subst hk
      have hnot : ∀ w, (o, w) ∉ l := fun w hw => hl.1 (List.mem_map.2 ⟨_, hw, rfl⟩)
      simp [hnot, eq_comm]
    · have hne : (o == k) = false := by simp [hk]
      simp [List.lookup_cons, hne, hk, ih hl.2]

/-- Recording a reference not recorded before keeps the invariant, when `R` allows it. -/
theorem EdgeInv.record {b : Build} {u o : String} {v : Bool} (h : EdgeInv T R b)
    (hnew : b.mark u o = none) (hR : R u o v) :
    EdgeInv T R { b with marks := recordMark b.marks u o v } := by
  refine ⟨h.tasks, fun u' => ?_, fun u' o' v' hv => ?_⟩
  · unfold recordMark
    by_cases hu : u' = u
    · subst hu
      rw [lookup_append, lookup_filter_self]
      simp only [Option.none_or, List.lookup_cons, beq_self_eq_true, Option.getD_some,
        List.map_append, List.map_cons, List.map_nil]
      refine List.nodup_append.2 ⟨h.keys u', List.nodup_singleton _, fun a ha c hc => ?_⟩
      rw [List.mem_singleton.1 hc]
      rintro rfl
      obtain ⟨⟨_, w⟩, hw, rfl⟩ := List.mem_map.1 ha
      have := (lookup_eq_some_iff_mem (h.keys u') _ w).2 hw
      rw [Build.mark] at hnew
      rw [hnew] at this
      cases this
    · rw [lookup_append, lookup_filter_ne _ hu]
      have hne : (u' == u) = false := by simp [hu]
      have hkeys := h.keys u'
      cases hl : b.marks.lookup u' with
      | none => simp [List.lookup_cons, hne]
      | some m =>
        rw [hl] at hkeys
        simpa using hkeys
  · rw [mark_recordMark] at hv
    split at hv
    · next hu =>
      subst hu
      rw [lookup_append] at hv
      cases hold : ((b.marks.lookup u').getD []).lookup o' with
      | some w =>
        rw [hold, Option.some_or] at hv
        exact h.marks u' o' v' (hold.trans hv)
      | none =>
        rw [hold, Option.none_or] at hv
        by_cases ho : o' = o
        · subst ho
          simp at hv
          rw [← hv]
          exact hR
        · have hne : (o' == o) = false := by simp [ho]
          simp [List.lookup_cons, hne] at hv
    · exact h.marks u' o' v' hv

/-- Storing a draft whose task is that of the draft of its name keeps the drafts' tasks, when
the tasks name each task once. -/
theorem putDraft_tasks {b : Build} {d e : Draft} (hT : (T.map (·.name)).Nodup)
    (htasks : b.drafts.map (·.task) = T) (he : draftIn b.drafts d.task.name = some e)
    (htask : d.task = e.task) : ((putDraft d).run b).2.drafts.map (·.task) = T := by
  have hmem : e ∈ b.drafts := List.mem_of_find?_eq_some he
  have hname : e.task.name = d.task.name := name_of_draftIn he
  have hnodup : (b.drafts.map (·.task.name)).Nodup := by
    rw [← htasks, List.map_map] at hT
    exact hT
  rw [putDraft_drafts, if_pos (List.any_eq_true.2 ⟨e, hmem, by simp [hname]⟩), List.map_map]
  rw [← htasks]
  refine List.map_congr_left fun e' he' => ?_
  simp only [Function.comp_apply]
  split
  · next heq =>
    -- only one draft is named so, and it is `e`
    have : e' = e := List.inj_on_of_nodup_map hnodup he' hmem (by simpa [hname] using heq)
    rw [this, htask]
  · rfl

end Invariant

/-! ## The steps of the second stage -/

/-- A fact known before a step may be taken out of its precondition. -/
theorem clean_of_fact {α : Type} {Φ : Prop} {P : Build → Prop} {m : Compiling α}
    {Q : α → Build → Prop} (h : Φ → Clean P m Q) : Clean (fun b => Φ ∧ P b) m Q :=
  fun b hb he => h hb.1 b hb.2 he

/-- Naming an output changes nothing; a clean answer is the output the reference names, one
its task has. -/
theorem clean_outputName {P : Build → Prop} (r : TaskRef) :
    Clean P (outputName r) fun x b => P b ∧ ∀ o, x = some o →
      o = r.output ∧ ∀ d, draftIn b.drafts r.name = some d → d.task.hasOutput o = true := by
  unfold outputName
  split
  · next o halias =>
    refine clean_pure _ fun b hb => ⟨hb, fun o' ho' => ?_⟩
    cases ho'
    refine ⟨by simp [TaskRef.output, halias], fun d _ => ?_⟩
    simp [TaskDef.hasOutput, isBuiltinOutput_of_outputAlias halias]
  · next hnone =>
    refine clean_bind (growing_draft? _) (fun _ => ?_) (clean_draft? r.name) fun found => ?_
    · split <;> exact growing_pure _
    cases found with
    | none => exact clean_pure _ fun b hb => ⟨hb.2, fun o ho => by cases ho⟩
    | some d =>
      -- a custom output is one the task declares
      refine clean_pure _ fun b hb => ⟨hb.2, fun o ho => ?_⟩
      split at ho
      · next hany =>
        cases ho
        refine ⟨by simp [TaskRef.output, hnone], fun d' hd' => ?_⟩
        rw [← hb.1] at hd'
        cases hd'
        simp [TaskDef.hasOutput, hany]
      · cases ho

/-- A clean landing check answers that the trigger lands; it changes nothing but whether
compiling halted. -/
theorem clean_landsOnParent {P : Build → Prop} (hP : ∀ b : Build, P b → P { b with halted := true })
    (ctx : Context) (sec : Section) (line : String) (r : TaskRef) (t : Trigger)
    (parentSeqs : List Sequence) :
    Clean P (landsOnParent ctx sec line r t parentSeqs) fun x b => x = true ∧ P b := by
  unfold landsOnParent
  split
  · split
    · exact clean_pure _ fun _ hb => ⟨rfl, hb⟩
    · exact clean_fail_bind _ _ _ fun _ => growing_pure _
  dsimp only
  generalize (if t.offset.isZero = true then sec.seq else sec.seq.shift t.offset).atOrAfter
    ctx.initial = shifted
  split
  · exact clean_pure _ fun _ hb => ⟨rfl, hb⟩
  -- the walk over the parent's sequences keeps `P` and stops only to answer `true`
  refine clean_bind (growing_forIn _ _ fun _ _ => ?g₁) (fun _ => ?g₂)
    (Q := fun s b => (s.1 = none ∨ s.1 = some true) ∧ P b) ?walk fun s => ?cont
  case' walk =>
    intro b hb he
    refine ⟨forIn_answer (fun s : Option Bool × Unit => s.1 = none ∨ s.1 = some true) (.inl rfl)
      (fun o s b _ => ?ans) b, clean_forIn_inv (fun _ _ => ?g₃) (fun o _ s => ?body) b hb he⟩
  case ans => split <;> first | exact .inl rfl | exact .inr rfl
  case body =>
    split
    · exact clean_bind growing_halt (fun _ => growing_pure _)
        (clean_modify (R := fun _ => P) fun b hb _ => hP b hb) fun _ => clean_pure _ fun _ hb => hb
    · exact clean_pure _ fun _ hb => hb
    · exact clean_pure _ fun _ hb => hb
  case cont =>
    refine clean_of_fact fun hs => ?_
    split
    · next x hx =>
      rw [hx] at hs
      refine clean_pure _ fun _ hb => ⟨?_, hb⟩
      rcases hs with hs | hs <;> cases hs
      rfl
    · exact clean_fail_bind _ _ _ fun _ => growing_pure _
  all_goals repeat' with_reducible first
    | exact growing_pure _
    | exact growing_fail _ _ _
    | exact growing_halt
    | refine growing_forIn _ _ fun _ _ => ?_
    | refine growing_bind ?_ fun _ => ?_
    | split

/-! ### Compiling a reference -/

/-- A reference is ready to compile when its task has a draft: without an offset always, and
with an offset that reads. -/
def RefReady (ctx : Context) (D : List Draft) (r : TaskRef) : Prop :=
  (r.offset = none → (draftIn D r.name).isSome) ∧
    ∀ off, r.offset = some off → (offsetReading ctx off).isSome → (draftIn D r.name).isSome

/-- What compiling a condition, or part of one, answers: a well-formed condition over the
triggers it added to the dependency. -/
def CondCompiled (T : List TaskDef) (dep : Dependency) (x : Option Condition × Dependency) :
    Prop :=
  ∃ c, x.1 = some c ∧ c.WellFormed ∧ Extends T dep x.2 c.leaves

/-- Within a step that leaves the drafts `D` as they are: the invariant holds, and the drafts
are `D`. -/
structure Steady (T : List TaskDef) (R : String → String → Bool → Prop) (D : List Draft)
    (b : Build) : Prop where
  inv : EdgeInv T R b
  drafts : b.drafts = D

section Steps

variable {T : List TaskDef} {R : String → String → Bool → Prop} {D : List Draft}

theorem Steady.halt {b : Build} (h : Steady T R D b) : Steady T R D { b with halted := true } :=
  ⟨h.inv.of_tables rfl rfl, h.drafts⟩

theorem clean_draft?_steady (u : String) :
    Clean (Steady T R D) (draft? u) fun x b => x = draftIn D u ∧ Steady T R D b :=
  fun _ hb _ => ⟨by rw [← hb.drafts]; rfl, hb⟩

theorem clean_markOutput_steady (sec : Section) (line u o : String) {v : Bool} (hR : R u o v) :
    Clean (Steady T R D) (markOutput sec line u o v) fun _ b => b.mark u o = some v ∧ Steady T R D b :=
  clean_markOutput sec line u o v fun _ hnew hb => ⟨hb.inv.record hnew hR, hb.drafts⟩

/-- Recording both ends of a run of `u` as referenced optionally, then going on. -/
theorem clean_markEnds {β : Type} (sec : Section) (line u : String)
    (hR : ∀ p ∈ [("succeeded", true), ("failed", true)], R u p.1 p.2) {k : Compiling β}
    {Q : β → Build → Prop} (hg : Growing k)
    (hk : Clean (fun b => (b.mark u "failed" = some true ∧ Steady T R D b) ∧
      b.mark u "succeeded" = some true) k Q) :
    Clean (Steady T R D) (markOutput sec line u "succeeded" true >>= fun _ =>
      markOutput sec line u "failed" true >>= fun _ => k) Q :=
  clean_bind (growing_markOutput _ _ _ _ _) (fun _ => growing_bind (growing_markOutput _ _ _ _ _)
    fun _ => hg) (clean_markOutput_steady _ _ _ _ (hR _ (List.mem_cons_self ..))) fun _ =>
    clean_bind (growing_markOutput _ _ _ _ _) (fun _ => hg)
      (clean_mono (clean_frame (growing_markOutput _ _ _ _ _) (fun _ _ hg h => hg.marks _ _ _ h)
        (clean_markOutput_steady _ _ _ _ (hR ("failed", true) (by simp)))) (fun b hb => ⟨hb.2, hb.1⟩)
        fun _ _ h => h) fun _ => hk

/-- The draft of a task is one of the drafts, so its task is one of `T`. -/
theorem task_mem_of_draftIn {d : Draft} {u : String} (hD : D.map (·.task) = T)
    (h : draftIn D u = some d) : d.task ∈ T :=
  hD ▸ List.mem_map_of_mem (List.mem_of_find?_eq_some h)

/-- Compiling a reference that is ready and that the graph makes, cleanly, records the outputs
it names and answers a well-formed condition over the triggers it added: one, or for `finish`
the two ends of a run. -/
theorem clean_compileRef (ctx : Context) (secs : List Section) (sec : Section)
    (line child : String) {r : TaskRef} (dep : Dependency) (hready : RefReady ctx D r)
    (hR : ∀ p ∈ r.marks, R r.name p.1 p.2) :
    Clean (Steady T R D) (compileRef ctx secs sec line child r dep) fun x b =>
      Steady T R D b ∧ Marked b r ∧ CondCompiled T dep x := by
  unfold compileRef
  split
  · exact clean_fail_bind _ _ _ fun _ => growing_pure _
  extract_lets base i jp
  have hgrow : ∀ t, Growing (jp t) := by
    intro t
    dsimp only [jp]
    repeat' with_reducible first
      | exact growing_pure _
      | exact growing_fail _ _ _
      | exact growing_draft? _
      | exact growing_landsOnParent _ _ _ _ _ _
      | exact growing_markOutput _ _ _ _ _
      | exact growing_outputName _
      | refine growing_bind ?_ fun _ => ?_
      | split
  -- once the trigger's place is read, the parent has a draft and the rest is the same for both
  -- kinds of reference
  have hjp : ∀ t : Trigger, t.task = r.name → (draftIn D r.name).isSome →
      Clean (Steady T R D) (jp (some t)) fun x b =>
        Steady T R D b ∧ Marked b r ∧ CondCompiled T dep x := by
    intro t ht hdraft
    dsimp only [jp]
    refine clean_bind (growing_draft? _) (fun _ => ?_) (clean_draft?_steady r.name)
      fun found => clean_of_fact fun hfound => ?_
    rotate_left
    cases found
    case none =>
      rw [← hfound] at hdraft
      cases hdraft
    rename_i parent
    have hname : parent.task.name = r.name := name_of_draftIn hfound.symm
    -- a clean landing check answers that the trigger lands
    refine clean_bind (growing_landsOnParent _ _ _ _ _ _) (fun _ => ?_)
      (clean_landsOnParent (fun _ hb => hb.halt) _ _ _ _ _ _) fun ok =>
      clean_of_fact fun hok => ?_
    rotate_left
    subst hok
    split
    · next h => exact absurd h (by decide)
    split
    case' isTrue =>
      -- `finish` names both ends of a run, optionally
      have hmarks : r.marks = [("succeeded", true), ("failed", true)] := by
        simp [TaskRef.marks, *]
      refine clean_markEnds _ _ _ (fun p hp => hR p (hmarks ▸ hp)) (growing_pure _)
        (clean_pure _ fun b hb => ?_)
      obtain ⟨⟨hfailed, hb⟩, hsucceeded⟩ := hb
      have hparent : parent.task ∈ T :=
        task_mem_of_draftIn (hb.drafts ▸ hb.inv.tasks) hfound.symm
      refine ⟨hb, fun p hp => ?_, _, rfl, ?_, _, rfl, rfl, fun t' ht' => ?_⟩
      · rw [hmarks] at hp
        rcases List.mem_pair.1 hp with rfl | rfl
        · exact hsucceeded
        · exact hfailed
      · refine .any (by simp) fun c hc => ?_
        rcases List.mem_pair.1 hc with rfl | rfl <;> exact .trigger _
      · rcases List.mem_pair.1 ht' with rfl | rfl
        · exact ⟨parent.task, hparent, hname.trans ht.symm, parent.task.hasOutput_of_builtin rfl⟩
        · exact ⟨parent.task, hparent, hname.trans ht.symm, parent.task.hasOutput_of_builtin rfl⟩
    case' isFalse =>
      have hmarks : r.marks = [(r.output, r.optional)] := by simp [TaskRef.marks, *]
      refine clean_bind (growing_outputName _) (fun _ => ?_) (clean_outputName _) fun x => ?_
      rotate_left
      cases x
      case none => exact clean_fail_bind _ _ _ fun _ => growing_pure _
      rename_i o
      -- the output named is the reference's, one the parent has
      refine clean_mono (P := fun b => (o = r.output ∧ parent.task.hasOutput o = true) ∧
        Steady T R D b) ?_ (fun b hb => ⟨?_, hb.1⟩) fun _ _ h => h
      · refine clean_of_fact fun h => ?_
        obtain ⟨rfl, hhas⟩ := h
        refine clean_bind (growing_markOutput _ _ _ _ _) (fun _ => growing_pure _)
          (clean_markOutput_steady _ _ _ _ (hR (r.output, r.optional) (by simp [hmarks])))
          fun _ => clean_pure _ fun b hb => ?_
        have hparent : parent.task ∈ T :=
          task_mem_of_draftIn (hb.2.drafts ▸ hb.2.inv.tasks) hfound.symm
        refine ⟨hb.2, fun p hp => ?_, _, rfl, .trigger _, _, rfl, rfl, fun t' ht' => ?_⟩
        · rw [hmarks, List.mem_singleton] at hp
          subst hp
          exact hb.1
        · rw [List.mem_singleton.1 ht']
          exact ⟨parent.task, hparent, hname.trans ht.symm, hhas⟩
      · obtain ⟨ho, hhas⟩ := hb.2 o rfl
        exact ⟨ho, hhas parent (hb.1.drafts ▸ hfound.symm)⟩
    all_goals repeat' with_reducible first
      | exact growing_pure _
      | exact growing_fail _ _ _
      | exact growing_markOutput _ _ _ _ _
      | exact growing_outputName _
      | exact growing_landsOnParent _ _ _ _ _ _
      | refine growing_bind ?_ fun _ => ?_
      | split
  split
  · next hoff =>
    rw [pure_bind]
    exact hjp _ rfl (hready.1 hoff)
  · next off hoff =>
    refine clean_bind (growing_resolveOffset _ _ _ _ _) (fun x => ?_) (clean_resolveOffset _ _ _ _ _)
      fun x => ?_
    · split <;> exact growing_bind (growing_pure _) fun _ => hgrow _
    refine clean_mono (P := fun b => (x = offsetReading ctx off ∧
      (offsetReading ctx off).isSome) ∧ Steady T R D b) ?_ (fun b hb => ⟨⟨hb.1, hb.2.1⟩, hb.2.2⟩)
      fun _ _ h => h
    refine clean_of_fact fun h => ?_
    obtain ⟨hx, hread⟩ := h
    split
    · rw [pure_bind]
      exact hjp _ rfl (hready.2 off hoff hread)
    · rw [← hx] at hread
      cases hread

/-- Noting a target, cleanly, records the outputs it names, when it names one explicitly. -/
theorem clean_noteTarget (sec : Section) (line : String) {r : TaskRef}
    (hR : r.explicit = true → ∀ p ∈ r.marks, R r.name p.1 p.2) :
    Clean (Steady T R D) (noteTarget sec line r) fun _ b =>
      Steady T R D b ∧ (r.explicit = true → Marked b r) := by
  unfold noteTarget
  split
  · next himplicit =>
    refine clean_pure _ fun b hb => ⟨hb, fun hexp => ?_⟩
    simp only [TaskRef.explicit] at hexp
    simp only [Bool.and_eq_true, Bool.not_eq_true'] at himplicit
    simp [himplicit.1] at hexp
    exact absurd himplicit.2 (by simpa using hexp)
  · next himplicit =>
    have hexp : r.explicit = true := by
      simp only [Bool.and_eq_true, Bool.not_eq_true', not_and] at himplicit
      cases hopt : r.optional
      · simpa [TaskRef.explicit, hopt] using himplicit hopt
      · simp [TaskRef.explicit, hopt]
    split
    · next hfin =>
      -- `finish` names both ends of a run, optionally
      have hmarks : r.marks = [("succeeded", true), ("failed", true)] := by
        simp [TaskRef.marks, hfin]
      refine clean_markEnds _ _ _ (fun p hp => hR hexp p (hmarks ▸ hp)) (growing_pure _)
        (clean_pure _ fun b hb => ⟨hb.1.2, fun _ p hp => ?_⟩)
      rw [hmarks] at hp
      rcases List.mem_pair.1 hp with rfl | rfl
      · exact hb.2
      · exact hb.1.1
    · next hfin =>
      have hmarks : r.marks = [(r.output, r.optional)] := by simp [TaskRef.marks, hfin]
      refine clean_bind (growing_outputName _) (fun x => ?_) (clean_outputName _) fun x => ?_
      · split
        · exact growing_fail _ _ _
        · exact growing_markOutput _ _ _ _ _
      cases x with
      | none => exact clean_fail _ _ _
      | some o =>
        -- the output named is the reference's
        refine clean_mono (P := fun b => o = r.output ∧ Steady T R D b) ?_
          (fun b hb => ⟨(hb.2 o rfl).1, hb.1⟩) fun _ _ h => h
        refine clean_of_fact fun ho => ?_
        subst ho
        refine clean_mono
          (clean_markOutput_steady _ _ _ _ (hR hexp (r.output, r.optional) (by simp [hmarks])))
          (fun _ h => h) fun _ b hb => ⟨hb.2, fun _ p hp => ?_⟩
        rw [hmarks, List.mem_singleton] at hp
        subst hp
        exact hb.1

/-- What compiling the parts of a formula answers: a well-formed condition for each part, read
one after another over the triggers they added. -/
def PartsCompiled (T : List TaskDef) (parts : List Formula) (dep : Dependency)
    (x : Option (List Condition) × Dependency) : Prop :=
  ∃ cs, x.1 = some cs ∧ cs.length = parts.length ∧ (∀ c ∈ cs, c.WellFormed) ∧
    Extends T dep x.2 (Condition.leavesOf cs)

/-- Joining the compiled parts of a formula of two parts or more gives a compiled condition. -/
theorem CondCompiled.of_parts {mk : List Condition → Condition}
    (hmk : ∀ cs, 2 ≤ cs.length → (∀ c ∈ cs, c.WellFormed) → (mk cs).WellFormed)
    (hleaves : ∀ cs, (mk cs).leaves = Condition.leavesOf cs) {parts : List Formula}
    (hlen : 2 ≤ parts.length) {dep : Dependency} {x : Option (List Condition) × Dependency}
    (h : PartsCompiled T parts dep x) : CondCompiled T dep (x.1.map mk, x.2) := by
  obtain ⟨cs, hcs, hlen', hwf, hext⟩ := h
  refine ⟨mk cs, by rw [hcs]; rfl, hmk cs (hlen' ▸ hlen) hwf, ?_⟩
  rw [hleaves]
  exact hext

theorem marked_refs_stable (rs : List TaskRef) : Stable fun b => ∀ r ∈ rs, Marked b r :=
  fun _ _ hg h r hr => marked_stable r _ _ hg (h r hr)

section Formulas

variable (ctx : Context) (secs : List Section) (sec : Section) (line child : String)

mutual

/-- Compiling a well-formed formula of ready references that the graph makes, cleanly, records
the outputs of all its references and answers a well-formed condition over the triggers it
added. -/
theorem clean_compileFormula :
    ∀ (f : Formula) (dep : Dependency), f.WellFormed → (∀ r ∈ f.refs, RefReady ctx D r) →
      (∀ r ∈ f.refs, ∀ p ∈ r.marks, R r.name p.1 p.2) →
      Clean (Steady T R D) (compileFormula ctx secs sec line child f dep) fun x b =>
        Steady T R D b ∧ (∀ r ∈ f.refs, Marked b r) ∧ CondCompiled T dep x
  | .ref r, dep, _, hready, hR => by
    rw [compileFormula]
    refine clean_mono (clean_compileRef ctx secs sec line child dep (hready r (by simp))
      (hR r (by simp))) (fun _ h => h) fun x b h => ⟨h.1, fun r' hr' => ?_, h.2.2⟩
    rw [Formula.refs_ref, List.mem_singleton] at hr'
    exact hr' ▸ h.2.1
  | .all parts, dep, hwf, hready, hR => by
    rw [compileFormula]
    cases hwf with
    | all hlen hparts =>
      refine clean_bind (growing_compileParts ctx secs sec line child parts dep)
        (fun _ => growing_pure _) (clean_compileParts parts dep hparts hready hR) fun x =>
        clean_pure _ fun b hb => ⟨hb.1, hb.2.1, ?_⟩
      exact CondCompiled.of_parts (fun _ h hw => .all h hw) (fun _ => rfl) hlen hb.2.2
  | .any parts, dep, hwf, hready, hR => by
    rw [compileFormula]
    cases hwf with
    | any hlen hparts =>
      refine clean_bind (growing_compileParts ctx secs sec line child parts dep)
        (fun _ => growing_pure _) (clean_compileParts parts dep hparts hready hR) fun x =>
        clean_pure _ fun b hb => ⟨hb.1, hb.2.1, ?_⟩
      exact CondCompiled.of_parts (fun _ h hw => .any h hw) (fun _ => rfl) hlen hb.2.2

/-- Compiling the parts of a formula, cleanly, compiles each in turn. -/
theorem clean_compileParts :
    ∀ (parts : List Formula) (dep : Dependency), (∀ p ∈ parts, p.WellFormed) →
      (∀ r ∈ Formula.refsOf parts, RefReady ctx D r) →
      (∀ r ∈ Formula.refsOf parts, ∀ p ∈ r.marks, R r.name p.1 p.2) →
      Clean (Steady T R D) (compileParts ctx secs sec line child parts dep) fun x b =>
        Steady T R D b ∧ (∀ r ∈ Formula.refsOf parts, Marked b r) ∧ PartsCompiled T parts dep x
  | [], dep, _, _, _ =>
    clean_pure _ fun _ hb => ⟨hb, by simp, [], rfl, rfl, by simp, Extends.refl T dep⟩
  | f :: rest, dep, hwf, hready, hR => by
    rw [compileParts]
    have hf := clean_compileFormula f dep (hwf f (List.mem_cons_self ..))
      (fun r hr => hready r (by simp [hr])) (fun r hr => hR r (by simp [hr]))
    refine clean_bind (growing_compileFormula ctx secs sec line child f dep) (fun x => ?_)
      (clean_mono hf (V := fun x b => CondCompiled T dep x ∧ Steady T R D b ∧
        ∀ r ∈ f.refs, Marked b r) (fun _ h => h) fun x b h => ⟨h.2.2, h.1, h.2.1⟩) fun x => ?_
    · obtain ⟨c, dep₁⟩ := x
      cases c with
      | none => exact growing_pure _
      | some c =>
        exact growing_bind (growing_compileParts ctx secs sec line child rest dep₁) fun _ =>
          growing_pure _
    -- the first part compiled to a condition; the rest go on from its triggers
    refine clean_of_fact fun hx => ?_
    obtain ⟨c, hc, hwfc, hext⟩ := hx
    obtain ⟨c₀, dep₁⟩ := x
    dsimp only at hc hext
    subst hc
    refine clean_bind (growing_compileParts ctx secs sec line child rest dep₁)
      (fun _ => growing_pure _) (clean_frame (growing_compileParts ctx secs sec line child rest dep₁)
        (marked_refs_stable f.refs) (clean_compileParts rest dep₁
          (fun p hp => hwf p (List.mem_cons_of_mem f hp)) (fun r hr => hready r (by simp [hr]))
          (fun r hr => hR r (by simp [hr])))) fun y => clean_pure _ fun b hb => ?_
    obtain ⟨⟨hs, hmarked, cs, hcs, hlen, hwfs, hext'⟩, hmarkedf⟩ := hb
    refine ⟨hs, fun r hr => ?_, c :: cs, by rw [hcs]; rfl, by simp [hlen], ?_, ?_⟩
    · rcases List.mem_append.1 (Formula.refsOf_cons f rest ▸ hr) with hr | hr
      · exact hmarkedf r hr
      · exact hmarked r hr
    · intro c' hc'
      rcases List.mem_cons.1 hc' with rfl | hc'
      · exact hwfc
      · exact hwfs c' hc'
    · exact hext.trans hext'

end

end Formulas

/-! ### Compiling a target -/

/-- Every dependency of every draft is as compiling leaves it. -/
def DepsCompiled (T : List TaskDef) (ds : List Draft) : Prop :=
  ∀ d ∈ ds, ∀ x ∈ d.deps, x.2.Compiled T

/-- The tasks an edge names have drafts: every reference without an offset, and every one on the
left with an offset that reads. -/
def EdgeDefined (ctx : Context) (e : Edge) (b : Build) : Prop :=
  (∀ r ∈ e.lhsRefs ++ e.rhs, r.offset = none → Drafted b r.name) ∧
    ∀ r ∈ e.lhsRefs, ∀ off, r.offset = some off → (offsetReading ctx off).isSome →
      Drafted b r.name

theorem edgeDefined_stable (ctx : Context) (e : Edge) : Stable (EdgeDefined ctx e) :=
  fun _ _ hg h => ⟨fun r hr hoff => hg.drafted _ (h.1 r hr hoff),
    fun r hr off hoff hread => hg.drafted _ (h.2 r hr off hoff hread)⟩

/-- The drafts after storing `d` among `ds`: it replaces the drafts of its task, or is added
after all. -/
def storedDrafts (ds : List Draft) (d : Draft) : List Draft :=
  if ds.any (·.task.name == d.task.name) then
    ds.map fun e => if e.task.name == d.task.name then d else e
  else ds ++ [d]

theorem putDraft_run_drafts (d : Draft) (b : Build) :
    ((putDraft d).run b).2.drafts = storedDrafts b.drafts d :=
  putDraft_drafts d b

theorem draftIn_storedDrafts (ds : List Draft) (d : Draft) (u : String) :
    draftIn (storedDrafts ds d) u = if u = d.task.name then some d else draftIn ds u := by
  rw [← putDraft_run_drafts d { config := {}, drafts := ds }]
  exact draftIn_putDraft d _ u

/-- After storing a draft, a draft is the one stored or one of the others from before. -/
theorem mem_storedDrafts {ds : List Draft} {d e : Draft} (h : e ∈ storedDrafts ds d) :
    e = d ∨ (e ∈ ds ∧ e.task.name ≠ d.task.name) := by
  unfold storedDrafts at h
  split at h
  · obtain ⟨e', he', rfl⟩ := List.mem_map.1 h
    split
    · exact .inl rfl
    · next hne => exact .inr ⟨he', by simpa using hne⟩
  · next hnone =>
    rcases List.mem_append.1 h with h | h
    · refine .inr ⟨h, fun heq => hnone ?_⟩
      exact List.any_eq_true.2 ⟨e, h, by simp [heq]⟩
    · exact .inl (List.mem_singleton.1 h)

/-- Storing a draft whose task is that of the draft of its name keeps the invariant, and the
drafts are then those stored. -/
theorem clean_putDraft_steady {d e : Draft} (hT : (T.map (·.name)).Nodup)
    (he : draftIn D d.task.name = some e) (htask : d.task = e.task) :
    Clean (Steady T R D) (putDraft d) fun _ b => Steady T R (storedDrafts D d) b := by
  intro b hb _
  obtain ⟨herr, hmarks⟩ := putDraft_tables d b
  have hdrafts := putDraft_run_drafts d b
  refine ⟨⟨?_, fun u => hmarks ▸ hb.inv.keys u, fun u o v hv => hb.inv.marks u o v ?_⟩, ?_⟩
  · exact putDraft_tasks hT hb.inv.tasks (hb.drafts ▸ he) htask
  · rwa [Build.mark, hmarks] at hv
  · rw [hdrafts, hb.drafts]

theorem range_append_range' (n k : Nat) :
    List.range n ++ List.range' n k = List.range (n + k) := by
  rw [List.range_eq_range', List.range_eq_range']
  simpa using List.range'_append_1 (s := 0) (m := n) (n := k)

/-- A compiled condition added to a dependency that is compiled, or fresh, leaves it compiled:
an earlier condition and the new one are joined. -/
theorem Dependency.Compiled.extend {dep : Dependency} {c : Condition} {ts : List Trigger}
    (h : dep.Compiled T ∨ (dep.condition = none ∧ dep.triggers = [])) (hc : c.WellFormed)
    (hleaves : c.leaves = List.range' dep.triggers.length ts.length)
    (hts : ∀ t ∈ ts, TriggerNamesOutput T t) (line : String) :
    Dependency.Compiled T
      { dep with triggers := dep.triggers ++ ts, lines := dep.lines ++ [line],
                 condition := some (dep.condition.elim c fun old => .all [old, c]) } := by
  refine ⟨?_, fun t ht => ?_⟩
  · rcases h with h | ⟨hnone, hempty⟩
    · -- the earlier condition reads the earlier triggers, the new one those added
      obtain ⟨old, hold, hleaves₀, hwf₀⟩ := h.condition
      refine ⟨.all [old, c], by simp [hold], ?_, .all (by simp) fun p hp => ?_⟩
      · simp only [Condition.leaves, Condition.leavesOf, List.append_nil, hleaves₀, hleaves,
          List.length_append]
        exact range_append_range' _ _
      · rcases List.mem_pair.1 hp with rfl | rfl
        · exact hwf₀
        · exact hc
    · refine ⟨c, by simp [hnone], ?_, hc⟩
      simp [hleaves, hempty, List.range_eq_range']
  · rcases List.mem_append.1 ht with ht | ht
    · rcases h with h | ⟨-, hempty⟩
      · exact h.triggers t ht
      · simp [hempty] at ht
    · exact hts t ht

theorem mem_of_lookup_eq_some {β : Type} {l : List (Nat × β)} {a : Nat} {x : β}
    (h : l.lookup a = some x) : (a, x) ∈ l := by
  induction l with
  | nil => cases h
  | cons p l ih =>
    obtain ⟨k, y⟩ := p
    by_cases hk : a = k
    · subst hk
      simp only [List.lookup_cons, beq_self_eq_true, Option.some.injEq] at h
      rw [h]
      exact List.mem_cons_self ..
    · have hne : (a == k) = false := by simp [hk]
      simp only [List.lookup_cons, hne] at h
      exact List.mem_cons_of_mem _ (ih h)

theorem isSome_draftIn_storedDrafts {ds : List Draft} {u : String} (d : Draft)
    (h : (draftIn ds u).isSome) : (draftIn (storedDrafts ds d) u).isSome := by
  rw [draftIn_storedDrafts]
  split
  · rfl
  · exact h

theorem clean_compileTarget (ctx : Context) (secs : List Section) (si : Nat) (sec : Section)
    (e : Edge) (target : TaskRef) (hT : (T.map (·.name)).Nodup) (he : e.Sound)
    (htarget : target ∈ e.rhs)
    (hRt : target.explicit = true → ∀ p ∈ target.marks, R target.name p.1 p.2)
    (hRl : ∀ r ∈ e.lhsRefs, ∀ p ∈ r.marks, R r.name p.1 p.2) :
    Clean (fun b => (EdgeInv T R b ∧ DepsCompiled T b.drafts) ∧ EdgeDefined ctx e b)
      (compileTarget ctx secs si sec e target) fun _ b =>
        (EdgeInv T R b ∧ DepsCompiled T b.drafts) ∧ (target.explicit = true → Marked b target) ∧
          ∀ r ∈ e.lhsRefs, Marked b r := by
  intro b hb herr
  unfold compileTarget
  refine clean_bind (R := fun _ b => (EdgeInv T R b ∧ DepsCompiled T b.drafts) ∧
      (target.explicit = true → Marked b target) ∧ ∀ r ∈ e.lhsRefs, Marked b r)
    (growing_noteTarget _ _ _) (fun _ => ?g₁) (clean_noteTarget (D := b.drafts) _ _ hRt)
    (fun _ => ?rest) b ⟨hb.1.1, rfl⟩ herr
  case' rest =>
    -- the target's outputs stay recorded through the rest
    refine clean_mono (clean_frame (P := Steady T R b.drafts) (Q := fun _ b =>
      (EdgeInv T R b ∧ DepsCompiled T b.drafts) ∧ ∀ r ∈ e.lhsRefs, Marked b r) ?g₂
      (fun _ _ hg h hexp => marked_stable target _ _ hg (h hexp)) ?main)
      (fun _ h => ⟨h.1, h.2⟩) fun _ _ h => ⟨h.1.1, h.2, h.1.2⟩
  case' main =>
    obtain ⟨⟨-, hdeps⟩, hdef⟩ := hb
    cases hl : e.lhs
    case none =>
      exact clean_pure _ fun b' hb' => ⟨⟨hb'.inv, hb'.drafts ▸ hdeps⟩, by simp [Edge.lhsRefs, hl]⟩
    rename_i f
    dsimp only
    have hlhs : e.lhsRefs = f.refs := by simp [Edge.lhsRefs, hl]
    -- the target has a draft, as a target below a condition has no offset
    have hdraft : Drafted b target.name :=
      hdef.1 target (List.mem_append_right _ htarget) ((he.targets (by simp [hl])).2 target htarget)
    refine clean_bind (growing_draft? _) (fun _ => ?g₃) (clean_draft?_steady target.name)
      fun x => clean_of_fact fun hx => ?_
    rotate_left
    cases x
    case none =>
      rw [Drafted, ← hx] at hdraft
      cases hdraft
    rename_i d
    have hdmem : d ∈ b.drafts := List.mem_of_find?_eq_some hx.symm
    have hdname : d.task.name = target.name := name_of_draftIn hx.symm
    dsimp only
    -- the dependency on the section is the one the draft has, or a fresh one
    have hdep₀ : ((d.deps.lookup si).getD { seq := sec.seq }).Compiled T ∨
        (((d.deps.lookup si).getD { seq := sec.seq }).condition = none ∧
          ((d.deps.lookup si).getD { seq := sec.seq }).triggers = []) := by
      cases hz : d.deps.lookup si with
      | none => exact .inr ⟨rfl, rfl⟩
      | some z => exact .inl (hdeps d hdmem (si, z) (mem_of_lookup_eq_some hz))
    generalize (d.deps.lookup si).getD { seq := sec.seq } = dep₀ at hdep₀ ⊢
    -- the draft is stored with a dependency on the section
    have hd₁ : ∀ d₁ : Draft, d₁ = (if (d.deps.any fun x => x.1 == si) = true then d
        else { d with deps := d.deps ++ [(si, dep₀)] }) →
        d₁.task = d.task ∧ ∀ i z, (i, z) ∈ d₁.deps → i ≠ si → (i, z) ∈ d.deps := by
      rintro d₁ rfl
      split
      · exact ⟨rfl, fun _ _ hiz _ => hiz⟩
      · refine ⟨rfl, fun i z hiz hne => ?_⟩
        rcases List.mem_append.1 hiz with hiz | hiz
        · exact hiz
        · exact absurd (Prod.mk.inj (List.mem_singleton.1 hiz)).1 hne
    generalize hd₁eq : (if (d.deps.any fun x => x.1 == si) = true then d
        else { d with deps := d.deps ++ [(si, dep₀)] }) = d₁
    obtain ⟨htask₁, hold⟩ := hd₁ d₁ hd₁eq.symm
    refine clean_bind (growing_putDraft _) (fun _ => ?g₄)
      (clean_putDraft_steady hT (e := d) (by rw [htask₁, hdname]; exact hx.symm) htask₁) fun _ => ?_
    rotate_left
    -- the condition is compiled against the drafts as they now are
    have hready : ∀ r ∈ f.refs, RefReady ctx (storedDrafts b.drafts d₁) r := by
      intro r hr
      rw [← hlhs] at hr
      exact ⟨fun hoff => isSome_draftIn_storedDrafts d₁ (hdef.1 r (List.mem_append_left _ hr) hoff),
        fun off hoff hread => isSome_draftIn_storedDrafts d₁ (hdef.2 r hr off hoff hread)⟩
    refine clean_bind (growing_compileFormula _ _ _ _ _ _ _) (fun _ => ?g₅)
      (clean_mono (clean_compileFormula ctx secs sec e.line target.name f dep₀
        (he.wellFormed f hl) hready (fun r hr => hRl r (hlhs ▸ hr)))
        (V := fun x b' => CondCompiled T dep₀ x ∧ Steady T R (storedDrafts b.drafts d₁) b' ∧
          ∀ r ∈ f.refs, Marked b' r) (fun _ h => h) fun _ _ h => ⟨h.2.2, h.1, h.2.1⟩)
      fun x => clean_of_fact fun hx => ?_
    rotate_left
    obtain ⟨c, hc, hwfc, ts, hdep', hleaves, hts⟩ := hx
    obtain ⟨c₀, dep'⟩ := x
    dsimp only at hc hdep'
    subst hc hdep'
    dsimp only
    -- the references of the condition stay recorded while the dependency is stored
    refine clean_mono (clean_frame (P := Steady T R (storedDrafts b.drafts d₁))
      (Q := fun _ b' => EdgeInv T R b' ∧ DepsCompiled T b'.drafts) ?g₆ (marked_refs_stable f.refs)
      ?last) (fun _ h => h) fun _ _ h => ⟨h.1, hlhs ▸ h.2⟩
    case' last =>
      refine clean_bind (growing_draft? _) (fun _ => ?g₇) (clean_draft?_steady target.name)
        fun y => clean_of_fact fun hy => ?_
      rotate_left
      rw [draftIn_storedDrafts, if_pos (by rw [htask₁, hdname])] at hy
      subst hy
      dsimp only
      refine clean_mono (clean_putDraft_steady hT (e := d₁)
        (by rw [draftIn_storedDrafts, if_pos rfl]) rfl) (fun _ h => h) fun _ b' hb' => ⟨hb'.inv, ?_⟩
      rw [hb'.drafts]
      intro d' hd' y hy
      rcases mem_storedDrafts hd' with rfl | ⟨hd', hne⟩
      · -- the target's draft: its dependency on the section extended, the others as before
        obtain ⟨⟨i, z⟩, hiz, rfl⟩ := List.mem_map.1 hy
        dsimp only
        split
        · have hext := Dependency.Compiled.extend hdep₀ hwfc hleaves hts e.line
          cases hcond : dep₀.condition with
          | none =>
            rw [hcond] at hext
            exact hext
          | some old =>
            rw [hcond] at hext
            exact hext
        · next hne => exact hdeps d hdmem (i, z) (hold i z hiz (by simpa using hne))
      · rcases mem_storedDrafts hd' with rfl | ⟨hd', -⟩
        · exact absurd rfl hne
        · exact hdeps d' hd' y hy
  all_goals repeat' with_reducible first
    | exact growing_pure _
    | exact growing_draft? _
    | exact growing_putDraft _
    | exact growing_compileFormula _ _ _ _ _ _ _
    | refine growing_bind ?_ fun _ => ?_
    | split

end Steps

end CycleSched.Graph
