import Mathlib.Data.List.Induction
import CycleSched.Proofs.Instance

/-!
# The lifecycle of a task instance

An instance starts waiting, with no outputs, and changes only by the calls of its job's
lifecycle: preparation, submission and its failure, start, success, failure, messages, expiry,
kills, outputs set by hand, a forced run and a lost job (`TaskInstance.Call`). A refused call
leaves the instance as it was, except that outputs set by hand before a refusal stay set
(`TaskInstance.call`).

Over every instance these calls reach (`TaskInstance.Reachable`), each call moves the state along
an edge of the state graph or leaves it, a start that overtakes its submission going along the
two edges through `submitted`; the emitted outputs only grow, each emitted once; every state has
emitted the outputs it stands for (`State.implied`); and a failure or a failed submission is
final only once the retry delays given are used up (`TaskInstance.lifecycle`).
-/

namespace CycleSched

namespace State

/-- The outputs an instance in this state has emitted: a submitted job emitted `submitted`, a
running one `started` too, a success all three, and a final failure or expiry its own output. -/
def implied : State → List String
  | submitted => ["submitted"]
  | running => ["submitted", "started"]
  | succeeded => ["submitted", "started", "succeeded"]
  | failed => ["failed"]
  | submitFailed => ["submit-failed"]
  | expired => ["expired"]
  | waiting | preparing => []

/-- The state stayed or moved along one edge of the state graph. -/
def Moves (s s' : State) : Prop := s' = s ∨ s.canMoveTo s' = true

/-- A state from which `running` is reached in at most one edge implies `submitted`. -/
theorem submitted_mem_implied_of_moves {s : State} (h : Moves s .running) : "submitted" ∈ s.implied := by
  unfold Moves at h
  cases s <;> revert h <;> decide

/-- The state after a start: one edge, or the two edges through `submitted`. -/
def MovesThroughSubmitted (s s' : State) : Prop :=
  Moves s s' ∨ (s.canMoveTo .submitted = true ∧ submitted.canMoveTo s' = true)

theorem MovesThroughSubmitted.preparing {s : State} (h : Moves .submitted s) :
    MovesThroughSubmitted .preparing s := by
  unfold MovesThroughSubmitted Moves at *
  cases s <;> revert h <;> decide

/-- How the state may move while outputs are set by hand: not at all, or, from a state without a
job, along an edge to `succeeded` or `failed`. -/
def SetMoves (s s' : State) : Prop :=
  s' = s ∨ (s.isActive = false ∧ s.canMoveTo s' = true ∧ (s' = .succeeded ∨ s' = .failed))

/-- A second finish moves on along an edge from the first state: the only way on is from
`failed`, reached from `waiting`, to `succeeded`, which `waiting` reaches directly. -/
theorem SetMoves.finish {s x y : State} (h : SetMoves s x) (hx : x.isActive = false)
    (hxy : x.canMoveTo y = true) (hy : y = .succeeded ∨ y = .failed) : SetMoves s y := by
  unfold SetMoves at *
  cases s <;> cases x <;> cases y <;> revert h hx hxy hy <;> decide

theorem SetMoves.moves {s s' : State} (h : SetMoves s s') : Moves s s' :=
  h.imp_right fun h => h.2.1

end State

namespace TaskInstance

/-- A call on an instance's lifecycle, with its arguments. -/
inductive Call where
  | prepare (mode : String)
  | submitted (jobId : String) (now : Instant)
  | submitFailed (now : Instant) (delays : List Int64)
  | started (now : Instant)
  | succeeded (now : Instant)
  | failed (now : Instant) (delays : List Int64)
  | message (text : String)
  | expire (now : Instant)
  | kill (now : Instant)
  | setOutputs (names : List String) (now : Instant)
  | trigger
  | requeue

/-- The instance a call answers, or `t` when the call is refused. -/
def orKeep {α : Type} (t : TaskInstance) : Except Failure (TaskInstance × α) → TaskInstance
  | .ok r => r.1
  | .error _ => t

/-- The instance after a call. A refused call leaves it as it was, except that outputs set by
hand before a refusal stay set. -/
def call (t : TaskInstance) : Call → TaskInstance
  | .prepare mode => t.orKeep ((t.prepare mode).map (·, ()))
  | .submitted jobId now => t.orKeep (t.submitted jobId now)
  | .submitFailed now delays => t.orKeep (t.submitFailed now delays)
  | .started now => t.orKeep (t.started now)
  | .succeeded now => t.orKeep (t.succeeded now)
  | .failed now delays => t.orKeep (t.failed now delays)
  | .message text => (t.message text).1
  | .expire now => t.orKeep (t.expire now)
  | .kill now => t.orKeep (t.kill now)
  | .setOutputs names now => (t.setOutputs names now).1
  | .trigger => t.orKeep (t.trigger.map (·, ()))
  | .requeue => t.orKeep (t.requeue.map (·, ()))

/-- The instances a lifecycle reaches: a new instance, and what calls make of it. -/
inductive Reachable : TaskInstance → Prop
  | make (d : Graph.TaskDef) (point initial : Point) (flows : FlowSet) :
      Reachable (TaskInstance.make d point initial flows)
  | call {t : TaskInstance} (c : Call) : Reachable t → Reachable (t.call c)

/-- What every reachable instance satisfies: its try number is at least one and its
submission retries count from zero, it emitted each output once, and it emitted the outputs
its state stands for. -/
structure Sound (t : TaskInstance) : Prop where
  tryNum_pos : 1 ≤ t.tryNum
  submitRetries_nonneg : 0 ≤ t.submitRetries
  nodup : t.emitted.Nodup
  implied : ∀ o ∈ t.state.implied, o ∈ t.emitted

variable {t u : TaskInstance} {s : State}

@[simp] theorem orKeep_ok {α : Type} (r : TaskInstance × α) : t.orKeep (.ok r) = r.1 := rfl

@[simp] theorem orKeep_pure {α : Type} (r : TaskInstance × α) :
    t.orKeep (pure r : Except Failure (TaskInstance × α)) = r.1 := rfl

@[simp] theorem orKeep_error {α : Type} (e : Failure) :
    t.orKeep (.error e : Except Failure (TaskInstance × α)) = t := rfl

/-- A move succeeds exactly along an edge of the state graph or when it stays, and changes only
the state. -/
theorem moveTo_eq_ok :
    t.moveTo s = .ok u ↔ (t.state = s ∨ t.state.canMoveTo s = true) ∧ u = { t with state := s } := by
  unfold moveTo
  by_cases hs : t.state = s
  · -- staying answers the instance itself
    have hsame : { t with state := s } = t := by cases t; simp_all
    rw [hsame]
    simp only [hs, beq_self_eq_true, if_true, Except.ok.injEq, true_or, true_and]
    exact ⟨Eq.symm, Eq.symm⟩
  · by_cases hm : t.state.canMoveTo s = true
    · simp only [hs, hm, beq_iff_eq, if_false, if_true, Except.ok.injEq, or_true, true_and]
      exact ⟨Eq.symm, Eq.symm⟩
    · simp [hs, hm]

/-- Emitting appends the names not emitted before, each once, and changes nothing else. -/
theorem emit_spec (t : TaskInstance) (names : List String) :
    ∃ new, t.emit names = ({ t with emitted := t.emitted ++ new }, new) ∧
      (t.emitted.Nodup → (t.emitted ++ new).Nodup) ∧ ∀ n ∈ names, n ∈ t.emitted ++ new := by
  induction names using List.reverseRecOn with
  | nil => exact ⟨[], by simp [emit], by simp, by simp⟩
  | append_singleton names n ih =>
    obtain ⟨new, he, hnd, hmem⟩ := ih
    unfold emit at he ⊢
    rw [List.foldl_append, he]
    simp only [List.foldl_cons, List.foldl_nil]
    by_cases hn : n ∈ t.emitted ++ new
    · refine ⟨new, by simp [hn], hnd, ?_⟩
      intro m hm
      rcases List.mem_append.1 hm with hm | hm
      · exact hmem m hm
      · exact (List.mem_singleton.1 hm) ▸ hn
    · refine ⟨new ++ [n], by simp [hn], ?_, ?_⟩
      · intro h
        rw [← List.append_assoc]
        exact List.nodup_append.2 ⟨hnd h, by simp,
          fun a ha b hb => by rw [List.mem_singleton.1 hb]; exact fun h => hn (h ▸ ha)⟩
      · intro m hm
        rw [← List.append_assoc]
        rcases List.mem_append.1 hm with hm | hm
        · exact List.mem_append_left _ (hmem m hm)
        · simp [List.mem_singleton.1 hm]

@[simp] theorem state_emit (t : TaskInstance) (names : List String) :
    (t.emit names).1.state = t.state := by
  obtain ⟨new, he, -, -⟩ := emit_spec t names
  rw [he]

/-! ## What one call does -/

/-- A call took the sound instance `t` to `t'`: the emitted outputs grew by appending, and `t'`
is sound. -/
structure Advances (t t' : TaskInstance) : Prop where
  grows : t.emitted <+: t'.emitted
  sound : Sound t'

theorem Advances.refl (h : Sound t) : Advances t t := ⟨⟨[], List.append_nil _⟩, h⟩

theorem Advances.trans {t'' : TaskInstance} (h : Advances t u) (h' : Advances u t'') :
    Advances t t'' :=
  ⟨h.grows.trans h'.grows, h'.sound⟩

/-- Being sound reads only the state, the emitted outputs and the try and retry counts. -/
theorem Sound.congr (h : Sound t) (hs : u.state = t.state) (he : u.emitted = t.emitted)
    (htry : u.tryNum = t.tryNum) (hretry : u.submitRetries = t.submitRetries) : Sound u :=
  ⟨htry ▸ h.tryNum_pos, hretry ▸ h.submitRetries_nonneg, he ▸ h.nodup, by
    rw [hs, he]; exact h.implied⟩

/-- Changing fields that soundness does not read keeps a call's advance. -/
theorem Advances.congr {t' t'' : TaskInstance} (h : Advances t t') (hs : t''.state = t'.state)
    (he : t''.emitted = t'.emitted) (htry : t''.tryNum = t'.tryNum)
    (hretry : t''.submitRetries = t'.submitRetries) : Advances t t'' :=
  ⟨he ▸ h.grows, h.sound.congr hs he htry hretry⟩

/-- An instance made from a sound one by changing fields other than its outputs, without
lowering its try and retry counts, and then emitting `names`, advances when the names and the
outputs emitted before cover what its state implies. -/
theorem advances_emit (h : Sound t) (names : List String) (he : u.emitted = t.emitted)
    (htry : t.tryNum ≤ u.tryNum) (hretry : t.submitRetries ≤ u.submitRetries)
    (himp : ∀ o ∈ u.state.implied, o ∈ names ∨ o ∈ t.emitted) : Advances t (u.emit names).1 := by
  obtain ⟨new, hu, hnd, hmem⟩ := emit_spec u names
  rw [hu]
  refine ⟨⟨new, by simp [he]⟩, ⟨by simp; have := h.tryNum_pos; omega,
    by simp; have := h.submitRetries_nonneg; omega, by simpa [he] using hnd (he ▸ h.nodup), ?_⟩⟩
  intro o ho
  rcases himp o ho with ho | ho
  · exact hmem o ho
  · simp [he, ho]

/-- The same without emitting. -/
theorem advances_same (h : Sound t) (he : u.emitted = t.emitted) (htry : t.tryNum ≤ u.tryNum)
    (hretry : t.submitRetries ≤ u.submitRetries) (himp : ∀ o ∈ u.state.implied, o ∈ t.emitted) :
    Advances t u :=
  advances_emit h [] he htry hretry (fun o ho => .inr (himp o ho))

/-- A call from the sound instance `t` to `t'` that moved the state along at most one edge. -/
structure CallStep (t t' : TaskInstance) : Prop where
  moves : State.Moves t.state t'.state
  advances : Advances t t'

theorem CallStep.refl (h : Sound t) : CallStep t t := ⟨.inl rfl, .refl h⟩

theorem CallStep.congr {t' t'' : TaskInstance} (h : CallStep t t') (hs : t''.state = t'.state)
    (he : t''.emitted = t'.emitted) (htry : t''.tryNum = t'.tryNum)
    (hretry : t''.submitRetries = t'.submitRetries) : CallStep t t'' :=
  ⟨hs ▸ h.moves, h.advances.congr hs he htry hretry⟩

/-- A call that first moves the instance to `s` and goes on with `k` steps when `k` does from
the moved instance; a refused move leaves the instance. -/
theorem step_orKeep_moveTo {α : Type} {k : TaskInstance → Except Failure (TaskInstance × α)}
    (h : Sound t) (hk : State.Moves t.state s → CallStep t (t.orKeep (k { t with state := s }))) :
    CallStep t (t.orKeep (t.moveTo s >>= k)) := by
  cases hm : t.moveTo s with
  | error e => exact CallStep.refl h
  | ok u =>
    obtain ⟨hmv, rfl⟩ := moveTo_eq_ok.1 hm
    exact hk (hmv.elim (fun h => .inl h.symm) .inr)

/-- The same for a call that answers the moved instance with fields `f` changes. -/
theorem step_orKeep_map_moveTo {f : TaskInstance → TaskInstance} (h : Sound t)
    (hk : State.Moves t.state s → CallStep t (f { t with state := s })) :
    CallStep t (t.orKeep ((t.moveTo s >>= fun u => pure (f u)).map (·, ()))) := by
  cases hm : t.moveTo s with
  | error e => exact CallStep.refl h
  | ok u =>
    obtain ⟨hmv, rfl⟩ := moveTo_eq_ok.1 hm
    exact hk (hmv.elim (fun h => .inl h.symm) .inr)

/-- Emitting from an instance whose state moved along at most one edge. -/
theorem step_emit (h : Sound t) (hmv : State.Moves t.state u.state) (names : List String)
    (he : u.emitted = t.emitted) (htry : t.tryNum ≤ u.tryNum) (hretry : t.submitRetries ≤ u.submitRetries)
    (himp : ∀ o ∈ u.state.implied, o ∈ names ∨ o ∈ t.emitted) : CallStep t (u.emit names).1 :=
  ⟨by simpa using hmv, advances_emit h names he htry hretry himp⟩

/-- The same without emitting. -/
theorem step_same (h : Sound t) (hmv : State.Moves t.state u.state) (he : u.emitted = t.emitted)
    (htry : t.tryNum ≤ u.tryNum) (hretry : t.submitRetries ≤ u.submitRetries)
    (himp : ∀ o ∈ u.state.implied, o ∈ t.emitted) : CallStep t u :=
  ⟨hmv, advances_same h he htry hretry himp⟩

theorem step_prepare (h : Sound t) (mode : String) : CallStep t (t.call (.prepare mode)) := by
  refine step_orKeep_map_moveTo h fun hmv => ?_
  exact step_same h hmv rfl (Int.le_refl _) (Int.le_refl _) (by simp [State.implied])

theorem step_submitted (h : Sound t) (jobId : String) (now : Instant) :
    CallStep t (t.call (.submitted jobId now)) := by
  refine step_orKeep_moveTo h fun hmv => ?_
  exact step_emit h hmv _ rfl (Int.le_refl _) (Int.le_refl _) (by simp [State.implied])

theorem step_succeeded (h : Sound t) (now : Instant) : CallStep t (t.call (.succeeded now)) := by
  refine step_orKeep_moveTo h fun hmv => ?_
  exact step_emit h hmv _ rfl (Int.le_refl _) (Int.le_refl _) (by simp [State.implied])

theorem step_expire (h : Sound t) (now : Instant) : CallStep t (t.call (.expire now)) := by
  refine step_orKeep_moveTo h fun hmv => ?_
  exact step_emit h hmv _ rfl (Int.le_refl _) (Int.le_refl _) (by simp [State.implied])

theorem step_failed (h : Sound t) (now : Instant) (delays : List Int64) :
    CallStep t (t.call (.failed now delays)) := by
  simp only [call, failed]
  -- a retried failure goes back to waiting with the next try; a final one fails
  split
  · refine step_orKeep_moveTo h fun hmv => ?_
    exact step_emit h hmv _ rfl (by dsimp only; omega) (Int.le_refl _) (by simp [State.implied])
  · refine step_orKeep_moveTo h fun hmv => ?_
    exact step_emit h hmv _ rfl (Int.le_refl _) (Int.le_refl _) (by simp [State.implied])

theorem step_submitFailed (h : Sound t) (now : Instant) (delays : List Int64) :
    CallStep t (t.call (.submitFailed now delays)) := by
  have hfinal : CallStep t (t.orKeep (submitFailed.failHere now t)) := by
    simp only [submitFailed.failHere]
    refine step_orKeep_moveTo h fun hmv => ?_
    exact step_emit h hmv _ rfl (Int.le_refl _) (Int.le_refl _) (by simp [State.implied])
  simp only [call, submitFailed]
  -- a retried submission goes back to waiting; one without retries left fails
  split
  · split
    · exact hfinal
    · refine step_orKeep_moveTo h fun hmv => ?_
      simp only [orKeep_pure]
      exact step_same h hmv rfl (Int.le_refl _) (by dsimp only; omega) (by simp [State.implied])
  · exact hfinal

theorem step_kill (h : Sound t) (now : Instant) : CallStep t (t.call (.kill now)) := by
  -- finishing a job moves the instance, emits the output of the state it reaches, and marks it
  -- killed and held
  have hfinish : ∀ {s : State} {o : String}, (∀ x ∈ s.implied, x = o) →
      CallStep t (t.orKeep (t.moveTo s >>= fun u =>
        pure ({ (u.emit [o]).1 with
          killed := true, held := true, retryAt := .zero, finishedAt := now }, (u.emit [o]).2))) := by
    intro s o ho
    refine step_orKeep_moveTo h fun hmv => ?_
    exact (step_emit (u := { t with state := s }) h hmv _ rfl (Int.le_refl _) (Int.le_refl _)
      fun x hx => .inl (by simp [ho x hx])).congr rfl rfl rfl rfl
  simp only [call, kill]
  -- a job not yet started becomes submit-failed, a running one or a waiting one with a retry
  -- pending failed; a waiting one without a retry pending is only held
  split
  · exact hfinish (by simp [State.implied])
  · exact hfinish (by simp [State.implied])
  · exact hfinish (by simp [State.implied])
  · split
    · exact (CallStep.refl h).congr rfl rfl rfl rfl
    · exact hfinish (by simp [State.implied])
  · exact CallStep.refl h

/-- A start on an instance that is submitted or running. -/
theorem step_start_after {t₁ : TaskInstance} (h : Sound t₁) (now : Instant)
    (more : TaskInstance → List String) :
    CallStep t₁ (t₁.orKeep (t₁.moveTo .running >>= fun v =>
      pure (({ v with startedAt := now }.emit ["started"]).1, more v))) := by
  refine step_orKeep_moveTo h fun hmv => ?_
  refine step_emit h hmv _ rfl (Int.le_refl _) (Int.le_refl _) ?_
  -- `started` is emitted now; `submitted` was, since the state was submitted or running
  intro o ho
  simp only [State.implied, List.mem_cons, List.not_mem_nil, or_false] at ho
  rcases ho with rfl | rfl
  · exact .inr (h.implied _ (State.submitted_mem_implied_of_moves hmv))
  · simp

theorem state_of_submitted {jobId : String} {now : Instant} {r : TaskInstance × List String}
    (h : t.submitted jobId now = .ok r) : r.1.state = .submitted := by
  unfold submitted at h
  obtain ⟨v, hv, hr⟩ := Except.bind_eq_ok_iff.1 h
  obtain ⟨-, rfl⟩ := moveTo_eq_ok.1 hv
  cases Except.ok.inj hr
  simp

/-- A start moves the state along one edge, or, overtaking the submission, along two. -/
theorem step_started (h : Sound t) (now : Instant) :
    State.MovesThroughSubmitted t.state (t.call (.started now)).state ∧
      Advances t (t.call (.started now)) := by
  simp only [call, started]
  split
  next hprep =>
    -- the submission the start overtakes is recorded first
    cases hsub : t.submitted t.jobId now with
    | error e => exact ⟨.inl (.inl rfl), .refl h⟩
    | ok r =>
      have h₁ : CallStep t r.1 := by simpa [call, hsub] using step_submitted h t.jobId now
      have hs₁ := state_of_submitted hsub
      have hprep : t.state = .preparing := by simpa using hprep
      -- once submitted, the instance moves on to running
      have hrun : r.1.moveTo .running = .ok { r.1 with state := .running } :=
        moveTo_eq_ok.2 ⟨.inr (by rw [hs₁]; decide), rfl⟩
      have h₂ := step_start_after h₁.advances.sound now fun v => r.2 ++
        ({ v with startedAt := now }.emit ["started"]).2
      simp only [bind, Except.bind, hrun, orKeep_pure] at h₂ ⊢
      have hmoves := h₂.moves
      rw [hs₁] at hmoves
      exact ⟨hprep ▸ State.MovesThroughSubmitted.preparing hmoves, h₁.advances.trans h₂.advances⟩
  next =>
    have h₁ := step_start_after h now fun v => [] ++ ({ v with startedAt := now }.emit ["started"]).2
    exact ⟨.inl h₁.moves, h₁.advances⟩

theorem step_message (h : Sound t) (text : String) : CallStep t (t.call (.message text)) := by
  simp only [call, message]
  split
  · exact step_emit h (.inl rfl) _ rfl (Int.le_refl _) (Int.le_refl _) fun o ho => .inr (h.implied o ho)
  · exact CallStep.refl h

theorem step_trigger (h : Sound t) : CallStep t (t.call .trigger) := by
  simp only [call, trigger]
  -- an instance with an active job refuses the trigger
  split
  · exact CallStep.refl h
  · refine step_orKeep_map_moveTo h fun hmv => ?_
    exact step_same h hmv rfl (Int.le_refl _) (Int.le_refl _) (by simp [State.implied])

theorem step_requeue (h : Sound t) : CallStep t (t.call .requeue) := by
  simp only [call, requeue]
  split
  · exact CallStep.refl h
  · refine step_orKeep_map_moveTo h fun hmv => ?_
    exact step_same h hmv rfl (Int.le_refl _) (Int.le_refl _) (by simp [State.implied])

/-! ### Outputs set by hand

Setting outputs works through the names one by one: `succeeded` and `failed` finish an
instance without a job along an edge, every name is emitted, and a refused finish stops the
work with what was set so far. -/

/-- What setting outputs keeps as it works through the names. -/
def SetSoFar (t v : TaskInstance) : Prop := Advances t v ∧ State.SetMoves t.state v.state

/-- Emitting a name keeps the state. -/
theorem SetSoFar.emit {v : TaskInstance} (hv : SetSoFar t v) (names : List String) :
    SetSoFar t (v.emit names).1 :=
  ⟨hv.1.trans (advances_emit hv.1.sound names rfl (Int.le_refl _) (Int.le_refl _)
      fun o ho => .inr (hv.1.sound.implied o ho)),
    by simpa using hv.2⟩

/-- Finishing by hand as `y` moves an instance without a job along an edge to `y`, or does
nothing, and then emits `names`. -/
theorem SetSoFar.finish {v w : TaskInstance} {y : State} {g : TaskInstance → TaskInstance}
    (hv : SetSoFar t v)
    (hg : ∀ x, (g x).state = x.state ∧ (g x).emitted = x.emitted ∧ (g x).tryNum = x.tryNum ∧
      (g x).submitRetries = x.submitRetries)
    (hw : (if (!v.state.isActive && v.state != y) = true then (v.moveTo y).map g else .ok v) = .ok w)
    (hy : y = .succeeded ∨ y = .failed) {names : List String} (hnames : ∀ o ∈ y.implied, o ∈ names) :
    SetSoFar t (w.emit names).1 := by
  split at hw
  next hc =>
    obtain ⟨x, hx, rfl⟩ := Except.map_eq_ok_iff.1 hw
    obtain ⟨hmv, rfl⟩ := moveTo_eq_ok.1 hx
    simp only [Bool.and_eq_true, Bool.not_eq_true', bne_iff_ne, ne_eq] at hc
    have hedge : v.state.canMoveTo y = true := hmv.resolve_left hc.2
    obtain ⟨hs, he, htry, hretry⟩ := hg { v with state := y }
    refine ⟨hv.1.trans (advances_emit hv.1.sound names he (Int.le_of_eq htry.symm)
      (Int.le_of_eq hretry.symm) fun o ho => .inl (hnames o (by simpa [hs] using ho))), ?_⟩
    rw [state_emit, hs]
    exact hv.2.finish hc.1 hedge hy
  next => 
    cases Except.ok.inj hw
    exact hv.emit names

theorem step_setOutputs (h : Sound t) (names : List String) (now : Instant) :
    CallStep t (t.call (.setOutputs names now)) := by
  simp only [call, setOutputs]
  generalize hr : List.foldl _ (t, Except.ok []) names = r
  have hg : ∀ x : TaskInstance, ({ x with finishedAt := now } : TaskInstance).state = x.state ∧
      ({ x with finishedAt := now } : TaskInstance).emitted = x.emitted ∧
      ({ x with finishedAt := now } : TaskInstance).tryNum = x.tryNum ∧
      ({ x with finishedAt := now } : TaskInstance).submitRetries = x.submitRetries :=
    fun _ => ⟨rfl, rfl, rfl, rfl⟩
  -- every name keeps what has been set so far, and a refusal stops the work there
  have hfold : SetSoFar t r.1 := by
    rw [← hr]
    refine List.foldlRecOn
      (motive := fun acc : TaskInstance × Except Failure (List String) => SetSoFar t acc.1) names _
      ⟨.refl h, .inl rfl⟩ ?_
    rintro ⟨v, res⟩ hv name -
    cases res with
    | error e => exact hv
    | ok out =>
      dsimp only
      split
      · split
        · exact hv
        · next w hw => exact hv.finish hg hw (.inl rfl) (by simp [State.implied])
      · split
        · exact hv
        · next w hw => exact hv.finish hg hw (.inr rfl) (by simp [State.implied])
      · exact hv.emit [name]
  obtain ⟨v, res⟩ := r
  have hstep : CallStep t v := ⟨hfold.2.moves, hfold.1⟩
  cases res with
  | error e => exact hstep
  | ok out => exact hstep.congr rfl rfl rfl rfl

/-! ## Retries -/

/-- Every state may go back to waiting, so a retry is never refused. -/
theorem moveTo_waiting (t : TaskInstance) : t.moveTo .waiting = .ok { t with state := .waiting } :=
  moveTo_eq_ok.2 ⟨by generalize t.state = s; cases s <;> decide, rfl⟩

/-- A failure is final only once the execution retry delays are used up. -/
theorem failed_final (h : Sound t) {now : Instant} {delays : List Int64}
    (hf : (t.call (.failed now delays)).state = .failed) : (delays.length : Int) ≤ t.tryNum - 1 := by
  simp only [call, failed] at hf
  split at hf
  · -- a delay remains: the instance goes back to waiting
    simp [moveTo_waiting, bind, Except.bind] at hf
  next hnone =>
    have htry := h.tryNum_pos
    rw [if_neg (by omega)] at hnone
    have hlen := List.getElem?_eq_none_iff.1 hnone
    omega

/-- A failed submission is final only once the submission retry delays are used up. -/
theorem submitFailed_final (h : Sound t) {now : Instant} {delays : List Int64}
    (hf : (t.call (.submitFailed now delays)).state = .submitFailed) :
    (delays.length : Int) ≤ t.submitRetries := by
  simp only [call, submitFailed] at hf
  have hretry := h.submitRetries_nonneg
  split at hf
  · split at hf
    · omega
    · -- a delay remains: the instance goes back to waiting
      simp [moveTo_waiting, bind, Except.bind] at hf
  next hnone =>
    have hlen := List.getElem?_eq_none_iff.1 hnone
    omega

/-! ## Every reachable instance -/

theorem sound_make (d : Graph.TaskDef) (point initial : Point) (flows : FlowSet) :
    Sound (TaskInstance.make d point initial flows) :=
  ⟨Int.le_refl 1, Int.le_refl 0, List.nodup_nil, fun _ h => nomatch h⟩

/-- Every call from a sound instance advances it. -/
theorem advances_call (h : Sound t) : ∀ c, Advances t (t.call c)
  | .prepare mode => (step_prepare h mode).advances
  | .submitted jobId now => (step_submitted h jobId now).advances
  | .submitFailed now delays => (step_submitFailed h now delays).advances
  | .started now => (step_started h now).2
  | .succeeded now => (step_succeeded h now).advances
  | .failed now delays => (step_failed h now delays).advances
  | .message text => (step_message h text).advances
  | .expire now => (step_expire h now).advances
  | .kill now => (step_kill h now).advances
  | .setOutputs names now => (step_setOutputs h names now).advances
  | .trigger => (step_trigger h).advances
  | .requeue => (step_requeue h).advances

/-- Every call from a sound instance moves the state along at most one edge, but a start that
overtakes its submission, which goes along the two edges through `submitted`. -/
theorem moves_call (h : Sound t) : ∀ c, State.Moves t.state (t.call c).state ∨
    ((∃ now, c = .started now) ∧ t.state.canMoveTo .submitted = true ∧
      State.submitted.canMoveTo (t.call c).state = true)
  | .prepare mode => .inl (step_prepare h mode).moves
  | .submitted jobId now => .inl (step_submitted h jobId now).moves
  | .submitFailed now delays => .inl (step_submitFailed h now delays).moves
  | .started now => (step_started h now).1.imp_right fun h => ⟨⟨now, rfl⟩, h⟩
  | .succeeded now => .inl (step_succeeded h now).moves
  | .failed now delays => .inl (step_failed h now delays).moves
  | .message text => .inl (step_message h text).moves
  | .expire now => .inl (step_expire h now).moves
  | .kill now => .inl (step_kill h now).moves
  | .setOutputs names now => .inl (step_setOutputs h names now).moves
  | .trigger => .inl (step_trigger h).moves
  | .requeue => .inl (step_requeue h).moves

theorem Reachable.sound (ht : Reachable t) : Sound t := by
  induction ht with
  | make d point initial flows => exact sound_make d point initial flows
  | call c _ ih => exact (advances_call ih c).sound

/-- What a call on an instance respects: the state moves along an edge of the state graph or
stays, a start that overtakes its submission going along the two edges through `submitted`; the
emitted outputs grow by appending; and a failure or a failed submission is final only once the
retry delays given are used up. -/
structure Respects (t : TaskInstance) (c : Call) : Prop where
  moves : State.Moves t.state (t.call c).state ∨
    ((∃ now, c = .started now) ∧ t.state.canMoveTo .submitted = true ∧
      State.submitted.canMoveTo (t.call c).state = true)
  grows : t.emitted <+: (t.call c).emitted
  failedFinal : ∀ now delays, c = .failed now delays → (t.call c).state = .failed →
    (delays.length : Int) ≤ t.tryNum - 1
  submitFailedFinal : ∀ now delays, c = .submitFailed now delays →
    (t.call c).state = .submitFailed → (delays.length : Int) ≤ t.submitRetries

/-- The lifecycle of a task instance: every instance that calls reach from a new one is sound
(its try number is at least one, it emitted each output once and the outputs its state stands
for), and every further call respects the state graph, only adds outputs, and finishes a failure
or a failed submission only once its retry delays are used up. -/
theorem lifecycle (ht : Reachable t) : Sound t ∧ ∀ c, Respects t c := by
  have h := ht.sound
  refine ⟨h, fun c => ⟨moves_call h c, (advances_call h c).grows, ?_, ?_⟩⟩
  · rintro now delays rfl
    exact failed_final h
  · rintro now delays rfl
    exact submitFailed_final h

/-- A new instance, once prepared, is reachable, so the lifecycle holds of it: in particular a
start takes it along the two edges through `submitted`. -/
theorem lifecycle_of_prepared :
    Reachable ((TaskInstance.make { name := "a", index := 0 } ⟨.integer, 1⟩ ⟨.integer, 1⟩
        (FlowSet.ofList [1])).call (.prepare "live")) ∧
      (Sound ((TaskInstance.make { name := "a", index := 0 } ⟨.integer, 1⟩ ⟨.integer, 1⟩
        (FlowSet.ofList [1])).call (.prepare "live")) ∧
      ∀ c, Respects ((TaskInstance.make { name := "a", index := 0 } ⟨.integer, 1⟩ ⟨.integer, 1⟩
        (FlowSet.ofList [1])).call (.prepare "live")) c) :=
  have hr := Reachable.call (.prepare "live") (.make _ _ _ _)
  ⟨hr, lifecycle hr⟩

/-- A start that overtakes the submission leaves the instance running, with both outputs. -/
example :
    let t := ((TaskInstance.make { name := "a", index := 0 } ⟨.integer, 1⟩ ⟨.integer, 1⟩
      (FlowSet.ofList [1])).call (.prepare "live")).call (.started .zero)
    t.state = .running ∧ t.emitted = ["submitted", "started"] := by
  decide

end TaskInstance

end CycleSched
