import Mathlib.Tactic.Set
import CycleSched.Proofs.PlainPool
import CycleSched.Proofs.Runs

/-!
# Refused commands

Holding, releasing and removing decide everything before they change the pool, so a refusal
leaves it as it was. Triggering checks its targets up front too (every unmatched id names a task
at a point of its sequences, no target has a job in flight), but reads its flow option target by
target, and a list of flow numbers raises the next flow number for each number it reads before a
bad entry refuses it. Nothing else refuses a trigger once its targets are checked: the flow
option reads or not by its text alone, and an instance without a job in flight can always go
back to waiting. So a refused trigger changes nothing but the next flow number
(`Pool.trigger_refused`, `refused_command_changes_only_next_flow`).

Setting outputs is refused part way in earnest: the targets before a refused one keep their
outputs, with all that processing them did.

With the graph `a => b`, triggering `1/a` in the flows `5,x` is refused and leaves the next flow
number at `6` (`refused_trigger_moves_next_flow`).
-/

namespace CycleSched

/-- The commands on the pool that may be refused: holding, releasing, triggering, setting
outputs and removing. -/
def Step.isCommand : Step → Bool
  | .hold _ | .release _ | .trigger .. | .setOutputs .. | .remove _ => true
  | _ => false

/-- The commands that read a flow option: triggering and setting outputs. -/
def Step.readsFlows : Step → Bool
  | .trigger .. | .setOutputs .. => true
  | _ => false

/-- An instance without a job in flight can be triggered, and goes back to waiting. -/
theorem TaskInstance.trigger_ok {t : TaskInstance} (h : t.state.isActive = false) :
    ∃ t', t.trigger = .ok t' ∧ t'.state = .waiting := by
  unfold TaskInstance.trigger TaskInstance.moveTo
  cases hs : t.state <;> simp_all [State.isActive, State.canMoveTo, State.successors, bind,
    Except.bind, pure, Except.pure]

namespace Pool

variable {p q r : Pool}

/-- `q` is `p` but perhaps for the next flow number. -/
def OnlyNextFlow (p q : Pool) : Prop := ∃ n, q = { p with nextFlow := n }

theorem OnlyNextFlow.refl (p : Pool) : OnlyNextFlow p p := ⟨p.nextFlow, rfl⟩

theorem OnlyNextFlow.trans (h : OnlyNextFlow p q) (h' : OnlyNextFlow q r) : OnlyNextFlow p r := by
  obtain ⟨n, rfl⟩ := h
  obtain ⟨m, rfl⟩ := h'
  exact ⟨m, rfl⟩

theorem OnlyNextFlow.tasks (h : OnlyNextFlow p q) : q.tasks = p.tasks := by
  obtain ⟨n, rfl⟩ := h
  rfl

/-- A fold whose every step changes at most the next flow number of the pool it carries. -/
theorem onlyNextFlow_foldl {α β : Type} {f : Pool × β → α → Pool × β}
    (hf : ∀ x a, OnlyNextFlow x.1 (f x a).1) (l : List α) (x : Pool × β) :
    OnlyNextFlow x.1 (l.foldl f x).1 := by
  induction l generalizing x with
  | nil => exact .refl _
  | cons a l ih => exact (hf x a).trans (ih _)

/-- A fold whose steps compute their second part from the second part alone computes it whatever
the first part started as. -/
theorem foldl_snd_eq {α β γ : Type} {f : γ × β → α → γ × β}
    (hf : ∀ c c' b a, (f (c, b) a).2 = (f (c', b) a).2) (l : List α) (c c' : γ) (b : β) :
    (l.foldl f (c, b)).2 = (l.foldl f (c', b)).2 := by
  induction l generalizing c c' b with
  | nil => rfl
  | cons a l ih =>
    have hsnd := hf c c' b a
    rcases h₁ : f (c, b) a with ⟨c₁, b₁⟩
    rcases h₂ : f (c', b) a with ⟨c₂, b₂⟩
    rw [h₁, h₂] at hsnd
    subst hsnd
    simp only [List.foldl_cons, h₁, h₂]
    exact ih _ _ _

/-- Reading a flow option changes at most the next flow number. -/
theorem onlyNextFlow_flowsFor (p : Pool) (opt : String) (existing : FlowSet)
    (newFlow : Option Int) : OnlyNextFlow p (p.flowsFor opt existing newFlow).1 := by
  unfold flowsFor
  split
  · exact .refl p
  · split
    · split
      · exact .refl p
      · exact ⟨_, rfl⟩
    · split
      · exact .refl p
      · dsimp only
        -- each number of the list raises the next flow number at most
        refine onlyNextFlow_foldl (fun x f => ?_) _ (p, Except.ok [])
        obtain ⟨q, r⟩ := x
        cases r with
        | error e => exact .refl q
        | ok nums =>
          dsimp only
          split
          · split
            · exact .refl q
            · split
              · exact ⟨_, rfl⟩
              · exact .refl q
          · exact .refl q

/-- Whether a flow option reads depends neither on the pool nor on the instance's flows nor on
the flow that `new` gave. -/
theorem isOk_flowsFor (p q : Pool) (opt : String) (e e' : FlowSet) (n n' : Option Int) :
    (p.flowsFor opt e n).2.2.isOk = (q.flowsFor opt e' n').2.2.isOk := by
  unfold flowsFor
  by_cases h₁ : (opt == "" || opt == "all") = true
  · simp only [h₁, if_true]
    rfl
  · by_cases h₂ : (opt == "new") = true
    · simp only [h₁, h₂, if_true, if_false, Bool.false_eq_true]
      cases n <;> cases n'
      all_goals rfl
    · by_cases h₃ : (opt == "none") = true
      · simp only [h₁, h₂, h₃, if_true, if_false, Bool.false_eq_true]
      · simp only [h₁, h₂, h₃, if_false, Bool.false_eq_true]
        -- a list of flow numbers reads or not by its text alone
        congr 2
        refine foldl_snd_eq (fun c c' b a => ?_) _ p q _
        cases b with
        | error => rfl
        | ok nums =>
          dsimp only
          split
          · split <;> rfl
          · rfl

/-! ## Triggering -/

/-- One target of a trigger: its flows read from the flow option, created when absent, forced to
run, and set waiting for its flow when asked. -/
def triggerTarget (flow : String) (wait : Bool) (acc : Except (Pool × Failure) Sweep)
    (tg : Target) : Except (Pool × Failure) Sweep := do
  let s ← acc
  let p := s.pool
  let existing := match tg with
    | .live t => ((p.live? t.key).getD t).flows
    | .absent .. => FlowSet.none
  let (p, newFlow, flows) := p.flowsFor flow existing s.newFlow
  let flows ← match flows with
    | .ok f => pure f
    | .error e => throw (p, .rejected "trigger" e.message)
  let (p, t) := match tg with
    | .live t =>
      let t := (p.live? t.key).getD t
      let t := if flow != "" && flow != "all" then { t with flows } else t
      (p.update t, t)
    | .absent d pt => p.create d pt flows
  let t ← match t.trigger with
    | .ok t => pure { t with flowWait := wait }
    | .error e => throw (p, e)
  let p := (p.update t).touch t
  return { pool := p, newFlow, done := s.done ++ [t] }

/-- The answer of a command from the state its targets leave. -/
def Sweep.answer : Except (Pool × Failure) Sweep → Pool × Except Failure (List TaskInstance)
  | .ok s => (s.pool, .ok s.done)
  | .error (p, e) => (p, .error e)

/-- A live target with a job in flight. -/
def busyTarget : Target → Option TaskInstance
  | .live t => if t.state.isActive then some t else none
  | .absent .. => none

theorem trigger_eq (p : Pool) (patterns : List String) (flow : String) (wait : Bool) :
    p.trigger patterns flow wait =
      match p.targets "trigger" patterns with
      | .error e => (p, .error e)
      | .ok ts =>
        match ts.findSome? busyTarget with
        | some t => (p, .error (.rejected "trigger" (t.id ++ " is already " ++ t.state.name)))
        | none => Sweep.answer (ts.foldl (triggerTarget flow wait) (.ok { pool := p })) := by
  unfold trigger
  rfl

theorem foldl_triggerTarget_error {flow : String} {wait : Bool} (ts : List Target)
    (x : Pool × Failure) : ts.foldl (triggerTarget flow wait) (.error x) = .error x := by
  induction ts with
  | nil => rfl
  | cons tg ts ih => exact ih

/-- With a flow option that does not read, the first target refuses the trigger, after the
option raised the next flow number at most. -/
theorem triggerTarget_bad {flow : String} {wait : Bool} {s : Sweep} (tg : Target)
    (hbad : ∀ ex nf, (s.pool.flowsFor flow ex nf).2.2.isOk = false) :
    ∃ x, triggerTarget flow wait (.ok s) tg = .error x ∧ OnlyNextFlow s.pool x.1 := by
  -- the option is read before the target is looked at any further
  have hread : ∀ ex, (∃ e, (s.pool.flowsFor flow ex s.newFlow).2.2 = .error e) := by
    intro ex
    cases h : (s.pool.flowsFor flow ex s.newFlow).2.2 with
    | ok f =>
      have hb := hbad ex s.newFlow
      rw [h] at hb
      exact absurd hb (by simp [Except.isOk, Except.toBool])
    | error e => exact ⟨e, rfl⟩
  cases tg with
  | live t =>
    obtain ⟨e, he⟩ := hread ((s.pool.live? t.key).getD t).flows
    rcases hff : s.pool.flowsFor flow ((s.pool.live? t.key).getD t).flows s.newFlow with ⟨p₁, nf₁, r⟩
    rw [hff] at he
    subst he
    have honly := onlyNextFlow_flowsFor s.pool flow ((s.pool.live? t.key).getD t).flows s.newFlow
    rw [hff] at honly
    refine ⟨(p₁, .rejected "trigger" e.message), ?_, honly⟩
    simp only [triggerTarget, bind, Except.bind, hff]
    rfl
  | absent d pt =>
    obtain ⟨e, he⟩ := hread FlowSet.none
    rcases hff : s.pool.flowsFor flow FlowSet.none s.newFlow with ⟨p₁, nf₁, r⟩
    rw [hff] at he
    subst he
    have honly := onlyNextFlow_flowsFor s.pool flow FlowSet.none s.newFlow
    rw [hff] at honly
    refine ⟨(p₁, .rejected "trigger" e.message), ?_, honly⟩
    simp only [triggerTarget, bind, Except.bind, hff]
    rfl

/-- Every instance of `q` with a job in flight is one of `p`'s. -/
def NoNewJobs (p q : Pool) : Prop := ∀ u ∈ q.tasks, u.state.isActive = true → u ∈ p.tasks

theorem state_satisfyFromHistory (p : Pool) (t : TaskInstance) :
    (p.satisfyFromHistory t).state = t.state := by
  unfold satisfyFromHistory
  generalize t.prereqs.flatMap (·.keys) = keys
  induction keys generalizing t with
  | nil => rfl
  | cons key keys ih =>
    rw [List.foldl_cons, ih]
    -- a term is met, made impossible or left alone, and the state stays
    split
    · rfl
    · split
      · rfl
      · split <;> rfl

/-- An instance added to the pool takes the place of every instance at its key. -/
theorem mem_insert_tasks_state {t u : TaskInstance} (h : u ∈ (p.insert t).tasks) :
    u.state = t.state ∨ (u ∈ p.tasks ∧ u.key ≠ t.key) := by
  -- a held copy of the instance keeps its state and key
  have hheld : ∀ c : Bool, (if c = true then { t with held := true } else t).state = t.state ∧
      (if c = true then { t with held := true } else t).key = t.key := by
    intro c
    cases c <;> exact ⟨rfl, rfl⟩
  unfold insert at h
  simp only [markDirty_tasks, setTrace_tasks] at h
  rcases mem_place_tasks.1 h with rfl | ⟨hu, hne⟩
  · exact .inl (hheld _).1
  · exact .inr ⟨hu, fun hk => hne (hk.trans (hheld _).2.symm)⟩

/-- A created instance waits, at the key it was created at. -/
theorem create_waiting (p : Pool) (d : Graph.TaskDef) (pt : Point) (flows : FlowSet) :
    (p.create d pt flows).2.state = .waiting ∧
      ∀ u ∈ (p.create d pt flows).1.tasks, u.state = .waiting ∨ u ∈ p.tasks := by
  unfold create
  dsimp only
  set q : Pool := { p with deferred := p.deferred.filter (·.1 != ⟨pt, d.name⟩) }
  set t := q.satisfyFromHistory (TaskInstance.make d pt p.wf.context.initial flows)
  have hstate : t.state = .waiting := state_satisfyFromHistory _ _
  have hkey : t.key = ⟨pt, d.name⟩ := (sameSpawn_satisfyFromHistory q _).key_eq
  refine ⟨?_, fun u hu => ?_⟩
  · cases h : (q.insert t).live? ⟨pt, d.name⟩ with
    | none => exact hstate
    | some u =>
      obtain ⟨hu, hk⟩ := live?_eq_some h
      rcases mem_insert_tasks_state hu with hs | ⟨-, hne⟩
      · exact hs.trans hstate
      · exact absurd (hk.trans hkey.symm) hne
  · rcases mem_insert_tasks_state hu with hs | ⟨hu, -⟩
    · exact .inl (hs.trans hstate)
    · exact .inr hu

/-! ### No new jobs in flight

Each part of a trigger's step on a target keeps the instances with a job in flight among those
the pool started with: reading the flow option changes no instance, a created instance waits, and
the instances the step puts in place have no job in flight. -/

section NoNewJobs

variable {t : TaskInstance}

theorem NoNewJobs.flowsFor (hinv : p.NoNewJobs q) (opt : String) (existing : FlowSet)
    (newFlow : Option Int) : p.NoNewJobs (q.flowsFor opt existing newFlow).1 :=
  fun v hv hact => hinv v ((onlyNextFlow_flowsFor q opt existing newFlow).tasks ▸ hv) hact

theorem NoNewJobs.create (hinv : p.NoNewJobs q) (d : Graph.TaskDef) (pt : Point)
    (flows : FlowSet) : p.NoNewJobs (q.create d pt flows).1 := by
  intro v hv hact
  rcases (create_waiting q d pt flows).2 v hv with hs | hv
  · simp [hs, State.isActive] at hact
  · exact hinv v hv hact

theorem NoNewJobs.update (hinv : p.NoNewJobs q) (ht : t.state.isActive = false) :
    p.NoNewJobs (q.update t) := by
  intro v hv hact
  rcases mem_update_tasks hv with rfl | hv
  · simp [ht] at hact
  · exact hinv v hv hact

theorem NoNewJobs.touch (hinv : p.NoNewJobs q) : p.NoNewJobs (q.touch t) := by
  intro v hv hact
  rw [touch_tasks] at hv
  exact hinv v hv hact

end NoNewJobs

/-- A flow option that reads gives flows. -/
theorem exists_ok_of_isOk {r : Except Failure FlowSet} (h : r.isOk = true) : ∃ f, r = .ok f := by
  cases r with
  | ok f => exact ⟨f, rfl⟩
  | error e => exact absurd h (by simp [Except.isOk, Except.toBool])

section TriggerTargets

variable {flow : String} {wait : Bool} {s : Sweep}

/-- A live target whose instance and every instance at its key have no job in flight is
triggered, in the flows the option gives. -/
theorem triggerTarget_live_good (hinv : p.NoNewJobs s.pool)
    (hgood : ∀ ex nf, (s.pool.flowsFor flow ex nf).2.2.isOk = true) {t : TaskInstance}
    (hidle₁ : t.state.isActive = false)
    (hidle₂ : ∀ u ∈ p.tasks, u.key = t.key → u.state.isActive = false) :
    ∃ s', triggerTarget flow wait (.ok s) (.live t) = .ok s' ∧ p.NoNewJobs s'.pool := by
  obtain ⟨f, hf⟩ := exists_ok_of_isOk (hgood ((s.pool.live? t.key).getD t).flows s.newFlow)
  have h₁ := hinv.flowsFor flow ((s.pool.live? t.key).getD t).flows s.newFlow
  rcases hff : s.pool.flowsFor flow ((s.pool.live? t.key).getD t).flows s.newFlow with
    ⟨p₁, nf₁, r⟩
  rw [hff] at hf h₁
  subst hf
  -- the instance now at the target's key has no job in flight
  have hcur : ((p₁.live? t.key).getD t).state.isActive = false := by
    cases h : p₁.live? t.key with
    | none => exact hidle₁
    | some u =>
      obtain ⟨hu, hk⟩ := live?_eq_some h
      cases hact : u.state.isActive with
      | false => exact hact
      | true => exact absurd (hidle₂ u (h₁ u hu hact) hk) (by simp [hact])
  set cur := (p₁.live? t.key).getD t
  set t' := if (flow != "" && flow != "all") = true then { cur with flows := f } else cur
  have ht' : t'.state.isActive = false := by
    simp only [t']
    split <;> exact hcur
  obtain ⟨t'', htrig, hwait⟩ := TaskInstance.trigger_ok ht'
  have hwait' : ({ t'' with flowWait := wait } : TaskInstance).state.isActive = false := by
    simp [hwait, State.isActive]
  refine ⟨{ pool := ((p₁.update t').update { t'' with flowWait := wait }).touch
              { t'' with flowWait := wait },
            newFlow := nf₁, done := s.done ++ [{ t'' with flowWait := wait }] }, ?_,
    ((h₁.update ht').update hwait').touch⟩
  simp only [triggerTarget, bind, Except.bind, pure, Except.pure, hff, t', cur, htrig]

/-- An absent target is created waiting and then triggered. -/
theorem triggerTarget_absent_good (hinv : p.NoNewJobs s.pool)
    (hgood : ∀ ex nf, (s.pool.flowsFor flow ex nf).2.2.isOk = true) (d : Graph.TaskDef)
    (pt : Point) :
    ∃ s', triggerTarget flow wait (.ok s) (.absent d pt) = .ok s' ∧ p.NoNewJobs s'.pool := by
  obtain ⟨f, hf⟩ := exists_ok_of_isOk (hgood FlowSet.none s.newFlow)
  have h₁ := hinv.flowsFor flow FlowSet.none s.newFlow
  rcases hff : s.pool.flowsFor flow FlowSet.none s.newFlow with ⟨p₁, nf₁, r⟩
  rw [hff] at hf h₁
  subst hf
  have hcreated : (p₁.create d pt f).2.state.isActive = false := by
    rw [(create_waiting p₁ d pt f).1]
    rfl
  obtain ⟨t'', htrig, hwait⟩ := TaskInstance.trigger_ok hcreated
  have hwait' : ({ t'' with flowWait := wait } : TaskInstance).state.isActive = false := by
    simp [hwait, State.isActive]
  refine ⟨{ pool := (((p₁.create d pt f).1.update { t'' with flowWait := wait })).touch
              { t'' with flowWait := wait },
            newFlow := nf₁, done := s.done ++ [{ t'' with flowWait := wait }] }, ?_,
    ((h₁.create d pt f).update hwait').touch⟩
  simp only [triggerTarget, bind, Except.bind, pure, Except.pure, hff, htrig]

/-- With a flow option that reads, a target whose instance and every instance at its key have
no job in flight is triggered, and the instances with a job in flight stay those the pool
started with. -/
theorem triggerTarget_good (tg : Target) (hinv : p.NoNewJobs s.pool)
    (hgood : ∀ ex nf, (s.pool.flowsFor flow ex nf).2.2.isOk = true)
    (hidle : ∀ t, tg = .live t →
      t.state.isActive = false ∧ ∀ u ∈ p.tasks, u.key = t.key → u.state.isActive = false) :
    ∃ s', triggerTarget flow wait (.ok s) tg = .ok s' ∧ p.NoNewJobs s'.pool := by
  cases tg with
  | live t =>
    obtain ⟨hidle₁, hidle₂⟩ := hidle t rfl
    exact triggerTarget_live_good hinv hgood hidle₁ hidle₂
  | absent d pt => exact triggerTarget_absent_good hinv hgood d pt

end TriggerTargets

/-- With a flow option that reads, targets whose instances have no job in flight are all
triggered. -/
theorem foldl_triggerTarget_good {p : Pool} {flow : String} {wait : Bool} (ts : List Target)
    (hgood : ∀ (q : Pool) ex nf, (q.flowsFor flow ex nf).2.2.isOk = true)
    (hidle : ∀ t, Target.live t ∈ ts →
      t.state.isActive = false ∧ ∀ u ∈ p.tasks, u.key = t.key → u.state.isActive = false) :
    ∀ s : Sweep, p.NoNewJobs s.pool → ∃ s', ts.foldl (triggerTarget flow wait) (.ok s) = .ok s' := by
  induction ts with
  | nil => exact fun s _ => ⟨s, rfl⟩
  | cons tg ts ih =>
    intro s hs
    obtain ⟨s', hstep, hs'⟩ := triggerTarget_good tg hs (hgood s.pool)
      (fun t ht => hidle t (ht ▸ List.mem_cons_self))
    rw [List.foldl_cons, hstep]
    exact ih (fun t ht => hidle t (List.mem_cons_of_mem _ ht)) s' hs'

/-- Instances at the same key match the same patterns, so a selection that takes one takes all. -/
theorem select_closed {patterns : List String} {t u : TaskInstance}
    (ht : t ∈ (p.select patterns).1) (hu : u ∈ p.tasks) (hk : u.key = t.key) :
    u ∈ (p.select patterns).1 := by
  unfold select at ht ⊢
  dsimp only at ht ⊢
  rw [mem_sortBy] at ht ⊢
  have hid : u.taskId = t.taskId := by
    simp only [TaskInstance.key, TaskKey.mk.injEq] at hk
    simp [TaskInstance.taskId, hk.1, hk.2]
  refine List.foldlRecOn (motive := fun (acc : List TaskInstance × List String) =>
      ∀ t ∈ acc.1, u.key = t.key → u.taskId = t.taskId → u ∈ acc.1) patterns _
    (fun _ h => absurd h List.not_mem_nil) ?_ t ht hk hid
  intro acc hacc pat _ t ht hk hid
  by_cases hE : (p.tasks.filter (·.taskId.matchesGlob pat)).isEmpty = true
  · rw [if_pos hE] at ht ⊢
    exact hacc t ht hk hid
  · rw [if_neg hE] at ht ⊢
    rcases List.mem_append.1 ht with ht | ht
    · exact List.mem_append_left _ (hacc t ht hk hid)
    · -- `t` is a hit of `pat`, so `u` is one too: taken now, or at its key before
      have hhit : u ∈ p.tasks.filter (·.taskId.matchesGlob pat) := by
        have ht' := (List.mem_filter.1 (List.mem_filter.1 ht).1).2
        exact List.mem_filter.2 ⟨hu, by rw [hid]; exact ht'⟩
      by_cases hprev : acc.1.any (·.key == u.key) = true
      · obtain ⟨w, hw, hwk⟩ := List.any_eq_true.1 hprev
        have hwk : u.key = w.key := (beq_iff_eq.1 hwk).symm
        have hwid : u.taskId = w.taskId := by
          simp only [TaskInstance.key, TaskKey.mk.injEq] at hwk
          simp [TaskInstance.taskId, hwk.1, hwk.2]
        exact List.mem_append_left _ (hacc w hw hwk hwid)
      · exact List.mem_append_right _ (List.mem_filter.2 ⟨hhit, by simpa using hprev⟩)

/-- The live targets of a command are instances it selected. -/
theorem mem_targets_live {command : String} {patterns : List String} {ts : List Target}
    {t : TaskInstance} (h : p.targets command patterns = .ok ts) (ht : Target.live t ∈ ts) :
    t ∈ (p.select patterns).1 := by
  unfold targets at h
  dsimp only at h
  obtain ⟨named, hnamed, rfl⟩ := Except.map_eq_ok_iff.1 h
  rcases List.mem_append.1 ht with ht' | ht'
  · obtain ⟨u, hu, hut⟩ := List.mem_map.1 ht'
    cases hut
    exact hu
  · -- the ids that match no live instance name instances to create
    exfalso
    clear h ht
    generalize (p.select patterns).2 = unmatched at hnamed
    induction unmatched generalizing named with
    | nil =>
      simp only [List.mapM_nil, pure, Except.pure, Except.ok.injEq] at hnamed
      subst hnamed
      exact List.not_mem_nil ht'
    | cons pat rest ih =>
      rw [List.mapM_cons] at hnamed
      obtain ⟨tg, htg, hrest⟩ := Except.bind_eq_ok_iff.1 hnamed
      obtain ⟨tgs, htgs, hcons⟩ := Except.bind_eq_ok_iff.1 hrest
      cases hcons
      rcases List.mem_cons.1 ht' with rfl | ht'
      · split at htg <;> cases htg
      · exact ih tgs ht' htgs

/-- The instances a command selects are among its targets. -/
theorem live_mem_targets {command : String} {patterns : List String} {ts : List Target}
    {t : TaskInstance} (h : p.targets command patterns = .ok ts) (ht : t ∈ (p.select patterns).1) :
    Target.live t ∈ ts := by
  unfold targets at h
  dsimp only at h
  obtain ⟨named, -, rfl⟩ := Except.map_eq_ok_iff.1 h
  exact List.mem_append_left _ (List.mem_map.2 ⟨t, ht, rfl⟩)

/-- When no target of a command has a job in flight, neither has any instance at a live target's
key: the selection takes every instance at a key it takes. -/
theorem targets_idle {command : String} {patterns : List String} {ts : List Target}
    (hts : p.targets command patterns = .ok ts) (hb : ts.findSome? busyTarget = none) :
    ∀ t, Target.live t ∈ ts →
      t.state.isActive = false ∧ ∀ u ∈ p.tasks, u.key = t.key → u.state.isActive = false := by
  have hnone := List.findSome?_eq_none_iff.1 hb
  have hidle : ∀ t, Target.live t ∈ ts → t.state.isActive = false := by
    intro t ht
    have := hnone _ ht
    simp only [busyTarget] at this
    split at this
    · cases this
    · exact Bool.eq_false_iff.2 ‹_›
  intro t htg
  exact ⟨hidle t htg, fun u hu hk =>
    hidle u (live_mem_targets hts (select_closed (mem_targets_live hts htg) hu hk))⟩

/-- A refused trigger changes nothing but the next flow number: a refusal comes from the
targets, from a job in flight, or from a flow option that does not read, which refuses the
first target after raising the counter at most. -/
theorem trigger_refused {patterns : List String} {flow : String} {wait : Bool} {e : Failure}
    (h : (p.trigger patterns flow wait).2 = .error e) :
    OnlyNextFlow p (p.trigger patterns flow wait).1 := by
  rw [trigger_eq] at h ⊢
  rcases hts : p.targets "trigger" patterns with e' | ts
  · exact .refl p
  simp only [hts] at h ⊢
  cases hb : ts.findSome? busyTarget with
  | some t => exact .refl p
  | none =>
    simp only [hb] at h ⊢
    -- the flow option reads for every target or for none
    by_cases hgood : (p.flowsFor flow FlowSet.none none).2.2.isOk = true
    · obtain ⟨s', hs'⟩ := foldl_triggerTarget_good ts
        (fun q ex nf => (isOk_flowsFor q p flow ex FlowSet.none nf none).trans hgood)
        (targets_idle hts hb) { pool := p } (fun u hu _ => hu)
      rw [hs'] at h
      cases h
    · cases ts with
      | nil => cases h
      | cons tg ts =>
        have hbad : ∀ ex nf, (p.flowsFor flow ex nf).2.2.isOk = false := by
          intro ex nf
          rw [isOk_flowsFor p p flow ex FlowSet.none nf none]
          simpa using hgood
        obtain ⟨x, hx, honly⟩ := @triggerTarget_bad flow wait { pool := p } tg hbad
        rw [List.foldl_cons, hx, foldl_triggerTarget_error]
        exact honly

end Pool

namespace Session

open Pool

variable {s : Session}

/-- A refused command leaves the session as it was. -/
theorem command_refused {α : Type} {r : Except Failure (Pool × α)} {reply : α → Reply}
    (h : (s.command r reply).2.isOk = false) : (s.command r reply).1 = s := by
  unfold command at h ⊢
  split at h
  · cases h
  · rfl

/-- A refused command other than setting outputs leaves the session's pool as it was, but for
the next flow number, which only a command reading a flow option moves. -/
theorem perform_refused {st : Step} (hst : st.isCommand = true)
    (hset : ∀ pats outs flow, st ≠ .setOutputs pats outs flow)
    (h : (s.perform st).2.isOk = false) :
    ∃ n, (s.perform st).1.pool = { s.pool with nextFlow := n } ∧
      (st.readsFlows = false → n = s.pool.nextFlow) := by
  cases st with
  | hold pats | release pats | remove pats =>
    dsimp only [perform] at h ⊢
    rw [command_refused h]
    exact ⟨_, rfl, fun _ => rfl⟩
  | trigger pats flow wait =>
    dsimp only [perform, partly] at h ⊢
    rcases hr : s.pool.trigger pats flow wait with ⟨q, _ | ts⟩
    · have honly := trigger_refused (show (s.pool.trigger pats flow wait).2 = .error _ by rw [hr])
      rw [hr] at honly
      obtain ⟨n, rfl⟩ := honly
      exact ⟨n, rfl, fun h => by cases h⟩
    · rw [hr] at h
      cases h
  | setOutputs pats outs flow => exact absurd rfl (hset pats outs flow)
  | _ => cases hst

end Session

namespace Proofs

open CycleSched.Graph

/-- A refused hold, release, removal or trigger leaves the pool as it was, but for the next flow
number, which only a trigger's flow option moves. -/
theorem refused_command_changes_only_next_flow {s : Session} {now : Option Int} {st : Step}
    (hst : st.isCommand = true) (hset : ∀ pats outs flow, st ≠ .setOutputs pats outs flow)
    (h : (s.run now st).2.result.isOk = false) :
    ∃ n, (s.run now st).1.pool = { s.pool with events := [], nextFlow := n } ∧
      (st.readsFlows = false → n = s.pool.nextFlow) := by
  -- rewriting with the equation of each clock case avoids unfolding the clock arithmetic
  cases now <;>
  · rw [Session.run] at h ⊢
    dsimp only at h ⊢
    obtain ⟨n, hpool, hn⟩ := Session.perform_refused hst hset h
    exact ⟨n, by rw [hpool], hn⟩

/-- The started pair with `1/a` triggered in the flows `5,x`. -/
def flowListRefused : Session × StepAnswer :=
  (started pairWorkflow none).run none (.trigger ["1/a"] "5,x" false)

/-- Triggering `1/a` in the flows `5,x` is refused, and the pool keeps all but the next flow
number. -/
theorem refused_flow_list_keeps_pool :
    flowListRefused.2.result.isOk = false ∧
      ∃ n, flowListRefused.1.pool =
          { (started pairWorkflow none).pool with events := [], nextFlow := n } ∧
        ((Step.trigger ["1/a"] "5,x" false).readsFlows = false →
          n = (started pairWorkflow none).pool.nextFlow) :=
  have hrefused : flowListRefused.2.result.isOk = false := by decide +kernel
  ⟨hrefused, refused_command_changes_only_next_flow rfl (fun _ _ _ h => by cases h) hrefused⟩

/-- A refused command leaves the pool as it was. -/
def RefusalLeavesPool (wf : Workflow) : Prop :=
  ∀ (s : Session) (now : Option Int) (st : Step), Reaches wf (fun _ => True) s →
    st.isCommand = true → (s.run now st).2.result.isOk = false → (s.run now st).1.pool = s.pool

/-- Triggering `1/a` of the started pair in the flows `5,x` is refused after the `5` raised the
next flow number from `2` to `6`. -/
theorem refused_trigger_moves_next_flow : ¬ RefusalLeavesPool pairWorkflow := by
  intro h
  have hreach : Reaches pairWorkflow (fun _ => True) (started pairWorkflow none) := ⟨none, .refl⟩
  have hrefused : flowListRefused.2.result.isOk = false := by decide +kernel
  have hsame : flowListRefused.1.pool.nextFlow = (started pairWorkflow none).pool.nextFlow :=
    congrArg Pool.nextFlow (h _ none _ hreach rfl hrefused)
  have hmoved : flowListRefused.1.pool.nextFlow = 6 := by decide +kernel
  have hbefore : (started pairWorkflow none).pool.nextFlow = 2 := by decide +kernel
  rw [hmoved, hbefore] at hsame
  exact absurd hsame (by decide)

end Proofs

end CycleSched
