import CycleSched.Proofs.PoolFrame
import CycleSched.Session.Run

/-!
# What the reports of jobs keep

A job's report changes one live instance into an instance of the same spawn (same task, point,
flows and wait for the flow) and processes the outputs it emitted; a whole job chains such
reports and then releases the runahead limit, and a submission, a clock advance and the events of
simulated jobs only apply reports to the instances they name. So a property `I` of pools is kept
by every report as soon as updating an instance, processing its outputs and releasing the runahead
limit keep it, for instances with a property `J` that the live instances have and the same spawn
keeps (`ReportInvariant`). The pool invariants of later files are each shown to be such a
property once, and get the session's reports from the lemmas here. The frames of the reports and
commands that finish, retrigger or requeue an instance open the file (`frame_kill`,
`frame_setOutputs` and the others beside them).
-/

namespace CycleSched

namespace TaskInstance

variable {t t' : TaskInstance} {now : Instant}

theorem frame_message (t : TaskInstance) (msg : String) : Frame [] t (t.message msg).1 := by
  unfold message
  split
  · next name h =>
    exact (frame_emit t [name]).declared fun o ho =>
      .inr (List.mem_singleton.1 ho ▸ hasOutput_of_outputForMessage h)
  · exact .refl t

theorem frame_expire {out : List String} (h : t.expire now = .ok (t', out)) : Frame [] t t' := by
  refine frame_of_moveTo_bind Prod.fst h fun _ =>
    (Frame.write).trans (frame_emit_builtin _ ?_)
  decide

theorem frame_kill {out : List String} (h : t.kill now = .ok (t', out)) : Frame [] t t' := by
  unfold kill at h
  dsimp only at h
  -- finishing the job moves, emits and sets flags; a kill without a job only holds
  split at h
  rotate_left 3
  · split at h
    · cases Except.ok.inj h
      exact .write
    · refine frame_of_moveTo_bind Prod.fst h fun u =>
        (frame_emit_builtin u ?_).trans (.write)
      decide
  · cases Except.ok.inj h
    exact .refl t
  all_goals
    refine frame_of_moveTo_bind Prod.fst h fun u =>
      (frame_emit_builtin u ?_).trans (.write)
    decide

theorem frame_setOutputs (t : TaskInstance) (names : List String) (now : Instant) :
    Frame names t (t.setOutputs names now).1 := by
  -- finishing as `succeeded` or `failed` moves the instance and stamps its finish
  have hfinish : ∀ {u u' : TaskInstance} {s : State}, (if (!u.state.isActive && u.state != s) = true
      then (u.moveTo s).map fun t => { t with finishedAt := now } else .ok u) = .ok u' →
      Frame names u u' := by
    intro u u' s h
    split at h
    · obtain ⟨v, hv, rfl⟩ := Except.map_eq_ok_iff.1 h
      exact (frame_moveTo hv).trans (.write)
    · cases Except.ok.inj h
      exact .refl u
  unfold setOutputs
  dsimp only
  generalize hr : List.foldl _ (t, Except.ok []) names = r
  -- the fold over the names keeps the frame: a name finishes the instance at most, and emits
  have hfold : Frame names t r.1 := by
    rw [← hr]
    refine Frame.foldlBy Prod.fst names ?_ (t, Except.ok [])
    rintro ⟨v, acc⟩ name hname
    cases acc with
    | error e => exact .refl v
    | ok out =>
      dsimp only
      split
      · split
        · exact .refl v
        · refine (hfinish ‹_›).trans (frame_emit_builtin _ ?_)
          decide
      · split
        · exact .refl v
        · refine (hfinish ‹_›).trans (frame_emit_builtin _ ?_)
          decide
      · exact (frame_emit _ _).declared fun o ho => .inl (List.mem_singleton.1 ho ▸ hname)
  -- the last step only clears the retry time of a success
  obtain ⟨u, res⟩ := r
  cases res with
  | error e => exact hfold
  | ok out => exact hfold.trans (.write)

theorem frame_trigger (h : t.trigger = .ok t') : Frame [] t t' := by
  unfold trigger at h
  dsimp only at h
  -- an active instance refuses the trigger
  split at h
  · obtain ⟨_, hthrow, -⟩ := Except.bind_eq_ok_iff.1 h
    cases hthrow
  · exact frame_of_moveTo_bind (fun u : TaskInstance => u) h fun _ =>
      .write

theorem frame_requeue (h : t.requeue = .ok t') : Frame [] t t' := by
  unfold requeue at h
  split at h
  · cases Except.ok.inj h
    exact .refl t
  · exact frame_of_moveTo_bind (fun u : TaskInstance => u) h fun _ =>
      .write

end TaskInstance

/-- `I` is kept by the pool operations of a report on an instance with `J`, the property that
live instances have and that instances of the same spawn share. -/
structure ReportInvariant (I : Pool → Prop) (J : TaskInstance → Prop) : Prop where
  live : ∀ {p t}, I p → t ∈ p.tasks → J t
  sameSpawn : ∀ {t t'}, t.SameSpawn t' → J t → J t'
  update : ∀ {p t}, I p → J t → I (p.update t)
  processOutputs : ∀ {p t} (outs : List String), I p → J t → I (p.processOutputs t outs)
  releaseRunahead : ∀ {p}, I p → I p.releaseRunahead

namespace Pool

variable {p : Pool} {t : TaskInstance}

theorem get?_mem {id : TaskId} (h : p.get? id = some t) : t ∈ p.tasks := by
  unfold get? at h
  split at h
  · exact (live?_eq_some h).1
  · cases h

end Pool

namespace Session

variable {s : Session} {t : TaskInstance}

theorem find?_mem {id : String} (h : s.find? id = some t) : t ∈ s.pool.tasks := by
  unfold find? at h
  split at h
  · exact Pool.get?_mem h
  · cases h

theorem once_eq_ok {r : Except Failure (TaskInstance × List String)} {u : TaskInstance}
    {outs : List String} {b : Bool} (h : once r = .ok (u, outs, b)) : r = .ok (u, outs) := by
  obtain ⟨⟨u', outs'⟩, hr, he⟩ := Except.map_eq_ok_iff.1 h
  cases he
  exact hr

/-- A step on the live instance an id names keeps what each such step keeps: without one the
session stays as it is. -/
theorem onInstance_pool {I : Pool → Prop} {id : String}
    {k : TaskInstance → Session × Except Refusal Reply} (hs : I s.pool)
    (hk : ∀ t ∈ s.pool.tasks, I (k t).1.pool) : I (s.onInstance id k).1.pool := by
  unfold onInstance
  split
  · exact hs
  · split
    · exact hs
    next t ht => exact hk t (Pool.get?_mem ht)

/-- A command leaves the pool it answers with, or the session's own when it is refused. -/
theorem command_pool {I : Pool → Prop} {α : Type} {r : Except Failure (Pool × α)}
    (reply : α → Reply) (hs : I s.pool) (hr : ∀ q a, r = .ok (q, a) → I q) :
    I (s.command r reply).1.pool := by
  unfold command
  rcases r with e | ⟨q, a⟩
  · exact hs
  · exact hr q a rfl

end Session

namespace ReportInvariant

open Session

variable {I : Pool → Prop} {J : TaskInstance → Prop} (hI : ReportInvariant I J)
variable {p : Pool} {s : Session} {t : TaskInstance}
include hI

/-- The instance at a key, live or else the one given, has the property. -/
theorem live_getD (hp : I p) (ht : J t) (k : TaskKey) : J ((p.live? k).getD t) := by
  cases h : p.live? k with
  | none => exact ht
  | some u => exact hI.live hp (Pool.live?_eq_some h).1

theorem settle (hs : I s.pool) (ht : J t) (outs : List String) : I (s.settle t outs).pool :=
  hI.processOutputs outs hs ht

theorem finish {r : Except Failure (TaskInstance × List String × Bool)} (hs : I s.pool)
    (hr : ∀ u outs b, r = .ok (u, outs, b) → J u) : I (s.finish r).1.pool := by
  unfold Session.finish
  split
  · exact hs
  · exact hI.settle hs (hr _ _ _ rfl) _

/-- A whole job prepares, submits, starts and finishes the instance, settling after each
report, and then releases the runahead limit. -/
theorem wholeJob (hs : I s.pool) (ht : J t) (success : Bool) (jobId : String)
    (given : Option (List String)) : I (s.wholeJob t success jobId given).1.pool := by
  unfold Session.wholeJob
  split
  · exact hs
  · dsimp only
    split
    · exact hs
    next t₁ h₁ =>
      have hf₁ := hI.sameSpawn (TaskInstance.frame_prepare h₁).spawn ht
      have k₁ := hI.update hs hf₁
      split
      · exact k₁
      next t₂ o₁ h₂ =>
        have hf₂ := hI.sameSpawn (TaskInstance.frame_submitted h₂).spawn hf₁
        have k₂ := hI.processOutputs o₁ k₁ hf₂
        split
        · exact k₂
        next t₃ o₂ h₃ =>
          -- the job starts on the instance as the pool now has it
          have hf₃ := hI.sameSpawn (TaskInstance.frame_started h₃).spawn (hI.live_getD k₂ hf₂ t.key)
          have k₃ := hI.processOutputs o₂ k₂ hf₃
          split
          · exact k₃
          next t₄ o₃ retrying h₄ =>
            have hf₄ : J t₄ := by
              have hf := hI.live_getD k₃ hf₃ t.key
              split at h₄
              · exact hI.sameSpawn (TaskInstance.frame_succeeded (once_eq_ok h₄)).spawn hf
              · exact hI.sameSpawn (TaskInstance.frame_failed h₄).spawn hf
            exact hI.releaseRunahead (hI.processOutputs o₃ k₃ hf₄)

/-- A report or command on one live instance. -/
theorem applyChange (hs : I s.pool) (ht : t ∈ s.pool.tasks) (c : Change) :
    I (s.applyChange t c).1.pool := by
  have hf := hI.live hs ht
  cases c with
  | prepare mode =>
    dsimp only [Session.applyChange]
    split
    next t' h => exact hI.update hs (hI.sameSpawn (TaskInstance.frame_prepare h).spawn hf)
    next => exact hs
  | submitted jobId =>
    exact hI.finish hs fun _ _ _ h =>
      hI.sameSpawn (TaskInstance.frame_submitted (once_eq_ok h)).spawn hf
  | started =>
    exact hI.finish hs fun _ _ _ h =>
      hI.sameSpawn (TaskInstance.frame_started (once_eq_ok h)).spawn hf
  | succeeded =>
    exact hI.finish hs fun _ _ _ h =>
      hI.sameSpawn (TaskInstance.frame_succeeded (once_eq_ok h)).spawn hf
  | failed given =>
    dsimp only [Session.applyChange]
    split
    · exact hs
    · exact hI.finish hs fun _ _ _ h => hI.sameSpawn (TaskInstance.frame_failed h).spawn hf
  | submitFailed given =>
    dsimp only [Session.applyChange]
    split
    · exact hs
    · exact hI.finish hs fun _ _ _ h => hI.sameSpawn (TaskInstance.frame_submitFailed h).spawn hf
  | message text =>
    refine hI.finish hs fun u outs _ h => ?_
    have hu : (t.message text).1 = u := congrArg Prod.fst (Except.ok.inj (once_eq_ok h))
    exact hu ▸ hI.sameSpawn (TaskInstance.frame_message t text).spawn hf
  | expire =>
    exact hI.finish hs fun _ _ _ h =>
      hI.sameSpawn (TaskInstance.frame_expire (once_eq_ok h)).spawn hf
  | requeue =>
    refine hI.finish hs fun u outs _ h => ?_
    obtain ⟨u', hu', he⟩ := Except.map_eq_ok_iff.1 (once_eq_ok h)
    cases he
    exact hI.sameSpawn (TaskInstance.frame_requeue hu').spawn hf
  | kill =>
    dsimp only [Session.applyChange]
    split
    · exact hs
    next u outs hkill =>
      -- cancelling a simulated job leaves the pool alone
      have hpool : ∀ c : Bool, (if c = true then s.cancelJob t.jobId else s).pool = s.pool := by
        intro c
        split <;> rfl
      rw [show ∀ s' : Session, (s'.settle u outs).pool = s'.pool.processOutputs u outs from
        fun _ => rfl, hpool]
      exact hI.processOutputs outs hs (hI.sameSpawn (TaskInstance.frame_kill hkill).spawn hf)
  | setOutputs names =>
    dsimp only [Session.applyChange]
    have hset := hI.sameSpawn (TaskInstance.frame_setOutputs t names s.now).spawn hf
    split
    next u outs heq =>
      rw [heq] at hset
      exact hI.settle hs hset outs
    next u e heq =>
      rw [heq] at hset
      exact hI.update hs hset
  | trigger =>
    refine hI.finish hs fun u outs _ h => ?_
    obtain ⟨u', hu', he⟩ := Except.map_eq_ok_iff.1 (once_eq_ok h)
    cases he
    exact hI.sameSpawn (TaskInstance.frame_trigger hu').spawn hf
  | wholeJob success jobId given => exact hI.wholeJob hs hf success jobId given

/-- A job event applies a report to the live instance it names, if any. -/
theorem applyEvent (hs : I s.pool) (ev : JobEvent) : I (s.applyEvent ev).1.pool := by
  unfold Session.applyEvent
  split
  · exact hs
  next t ht =>
    have hf := hI.live hs (find?_mem ht)
    split
    · exact hs
    · dsimp only
      -- the instance, with the job id a start names, is the live one
      generalize hu : (if (ev.kind == .started && t.jobId == "") = true then
        { t with jobId := ev.jobId } else t) = u
      have hfu : J u := by
        rw [← hu]
        split
        · exact hI.sameSpawn (t := t) ⟨rfl, rfl, rfl, rfl⟩ hf
        · exact hf
      split
      · exact hI.update hs hfu
      next u' outs retrying hstep =>
        refine hI.settle hs ?_ outs
        split at hstep
        · split at hstep
          · exact hI.sameSpawn (TaskInstance.frame_submitted (once_eq_ok hstep)).spawn hfu
          · cases Except.ok.inj hstep
            exact hfu
        · exact hI.sameSpawn (TaskInstance.frame_started (once_eq_ok hstep)).spawn hfu
        · exact hI.sameSpawn (TaskInstance.frame_succeeded (once_eq_ok hstep)).spawn hfu
        · exact hI.sameSpawn (TaskInstance.frame_failed hstep).spawn hfu
        · exact hI.sameSpawn (TaskInstance.frame_submitFailed hstep).spawn hfu
        · have hu' : (u.message ev.message).1 = u' := congrArg Prod.fst (Except.ok.inj hstep)
          exact hu' ▸ hI.sameSpawn (TaskInstance.frame_message u ev.message).spawn hfu

/-- Applying events, one report after another. The pool is named apart from the session, so
that the lemma applies to a session built on the spot. -/
theorem applyEvents (hp : I p) (hs : s.pool = p) (evs : List JobEvent) :
    I (s.applyEvents evs).1.pool := by
  subst hs
  unfold Session.applyEvents
  -- each event keeps the property of the session it is applied to
  refine List.foldlRecOn (motive := fun x : Session × List (JobEvent × EventOutcome) => I x.1.pool)
    evs _ hp fun x hx ev _ => ?_
  exact hI.applyEvent hx ev

theorem advance (hs : I s.pool) (seconds : Int) : I (s.advance seconds).1.pool := by
  unfold Session.advance
  dsimp only
  exact hI.applyEvents hs (by rfl) _

/-- A submission prepares the instance and, for skipped and simulated jobs, applies their
events at once. -/
theorem submit (hs : I s.pool) (ht : J t) (mode : String) : I (s.submit t mode).1.pool := by
  unfold Session.submit
  split
  · exact hs
  · dsimp only
    split
    · exact hs
    next t₁ h₁ =>
      -- the platform and time limit of the submission are no part of the spawn
      have hf₁ : ∀ pl tl, J { t₁ with platform := pl, timeLimit := tl } := fun _ _ =>
        hI.sameSpawn (t := t₁) ⟨rfl, rfl, rfl, rfl⟩ (hI.sameSpawn (TaskInstance.frame_prepare h₁).spawn ht)
      have k₁ := fun pl tl => hI.update hs (hf₁ pl tl)
      split
      · exact hI.applyEvents (k₁ _ _) rfl _
      · split
        · exact hI.applyEvents (k₁ _ _) rfl _
        · exact k₁ _ _

end ReportInvariant

end CycleSched
